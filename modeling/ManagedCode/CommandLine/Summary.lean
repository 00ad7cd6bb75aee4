import ManagedCode.CommandLine.Disk
import ManagedCode.CommandLine.Request
import ManagedCode.Source.Check

namespace ManagedCode.CommandLine

/-! Checking what a command line asks for. -/

open Text Source

/-- Only a name in front of the extension makes it one. -/
def isSourceName (name : String) : Bool :=
  match before? ".il".toList name.toList with
  | some stem => !stem.isEmpty
  | none => false

def isSourcePath (path : Path) : Bool := (path.getLast?.map isSourceName).getD false

/-- A path from a folder is written behind the folder's own. -/
def spell (folder : String) (path : Path) : String :=
  let names := "/".intercalate path
  if folder.endsWith "/" then folder ++ names else folder ++ "/" ++ names

/-- The order of paths: that of the first names in which they differ, and a folder goes before what
is in it. -/
def pathBefore : Path → Path → Bool
  | [], _ => true
  | _ :: _, [] => false
  | a :: as, b :: bs => a < b || a == b && pathBefore as bs

/-- What is checked: the file itself, or the source files of the folder in the order of the names
on the way to them. -/
def Located.sources (input : String) : Located → List (String × ByteArray)
  | file bytes => [(input, bytes)]
  | folder files =>
    let sorted := (files.filter (isSourcePath ·.1)).mergeSort fun a b => pathBefore a.1 b.1
    sorted.map fun (path, bytes) => (spell input path, bytes)
  | missing => []

def mark (report : Report) : String :=
  match report.failure with
  | none => "OK"
  | some failure => if failure.isVerdict then "FAILED" else "ERROR"

structure Summary where
  /-- One for each file. -/
  lines : List String
  /-- The messages of the files that are not accepted. -/
  errors : List String

def Summary.output (s : Summary) : String := String.join (s.lines.map (· ++ "\n"))

def Summary.isClean (s : Summary) : Bool := s.errors.isEmpty

def summarize (settings : Settings) (sources : List (String × ByteArray)) : Summary :=
  let reports := sources.map fun (path, bytes) => (path, checkBytes settings bytes)
  { lines := reports.map fun (path, report) => " - " ++ path ++ " [" ++ mark report ++ "]"
    errors := reports.filterMap fun (_, report) => report.failure.map Failure.message }

/-- How a run of the program ends. -/
structure Ending where
  exitCode : UInt32
  output : String
  errors : List String

def Ending.misuse : Ending := ⟨2, "", []⟩

def versionText : String := "IL method body verifier 0.1.0\n"

def helpText : String :=
  "\n".intercalate [
    "Check that textual IL method bodies are type-correct",
    "",
    "Usage: ilverify [OPTIONS] <INPUT>",
    "",
    "Arguments:",
    "  <INPUT>  Sets the input file or folder",
    "",
    "Options:",
    "      --strict        Only accept verifiable code (no native int addresses or `localloc`)",
    "      --no-narrowing  Keep the declared type of values tested by `brtrue` and `brfalse`",
    "  -h, --help          Print help",
    "  -V, --version       Print version",
    ""]

def Request.ending (find : String → Located) : Request → Ending
  | help => ⟨0, helpText, []⟩
  | version => ⟨0, versionText, []⟩
  | check settings input =>
    let summary := summarize settings ((find input).sources input)
    ⟨if summary.isClean then 0 else 1, summary.output, summary.errors⟩

end ManagedCode.CommandLine
