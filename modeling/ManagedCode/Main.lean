import ManagedCode.CommandLine.Summary

namespace ManagedCode

/-! The program: it looks for the input, reads the files and prints what comes of them. -/

open CommandLine

/-- The source files below a folder, and those of the folders that its links lead to. -/
partial def filesBelow (folder : String) : IO (List (Path × ByteArray)) := do
  let mut files := []
  for entry in ← (System.mkFilePath [folder]).readDir do
    let path := entry.path.toString
    if ← entry.path.isDir then
      files := files ++ (← filesBelow path).map fun (below, bytes) =>
        (entry.fileName :: below, bytes)
    else if isSourceName entry.fileName && (← entry.path.pathExists) then
      files := files ++ [([entry.fileName], ← IO.FS.readBinFile entry.path)]
  return files

def findOnDisk (input : String) : IO Located := do
  let path := System.mkFilePath [input]
  if ← path.isDir then return .folder (← filesBelow input)
  else if ← path.pathExists then return .file (← IO.FS.readBinFile path)
  else return .missing

def runProgram (words : List String) : IO UInt32 := do
  match Request.ofWords words with
  | .error fault =>
    IO.eprintln fault.message
    return Ending.misuse.exitCode
  | .ok request =>
    let found ← match request with
      | .check _ input => findOnDisk input
      | .help | .version => pure .missing
    let ending := request.ending fun _ => found
    IO.print ending.output
    for error in ending.errors do
      IO.eprintln error
    return ending.exitCode

end ManagedCode

def main (words : List String) : IO UInt32 :=
  ManagedCode.runProgram words
