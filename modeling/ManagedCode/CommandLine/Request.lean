import ManagedCode.Verify.Context

namespace ManagedCode.CommandLine

/-! What the words of a command line ask for. -/

inductive UsageFault where
  | unknownFlag (word : String)
  | repeatedFlag (word : String)
  | secondInput (word : String)
  | emptyInput
  | noInput

def UsageFault.message : UsageFault → String
  | unknownFlag word => "unknown flag `" ++ word ++ "`"
  | repeatedFlag word => "`" ++ word ++ "` is given twice"
  | secondInput word => "`" ++ word ++ "` is a second input"
  | emptyInput => "the input is an empty path"
  | noInput => "there is no input"

inductive Request where
  | help
  | version
  | check (settings : Settings) (input : String)

inductive Word where
  | help
  | version
  | strict
  | noNarrowing
  | unknown
  /-- All words behind it are inputs. -/
  | endOfFlags
  | input

/-- A dash alone is an input. Short flags may share a word, and its first one decides. -/
def Word.ofString (text : String) : Word :=
  match text with
  | "--" => .endOfFlags
  | "--help" => .help
  | "--version" => .version
  | "--strict" => .strict
  | "--no-narrowing" => .noNarrowing
  | _ =>
    match text.toList with
    | '-' :: 'h' :: _ => .help
    | '-' :: 'V' :: _ => .version
    | '-' :: _ :: _ => .unknown
    | _ => .input

structure Options where
  strict : Bool := false
  noNarrowing : Bool := false
  input : Option String := none

namespace Options

def settings (o : Options) : Settings :=
  let base : Settings := if o.strict then .strict else {}
  if o.noNarrowing then { base with narrowTested := false } else base

def addInput (o : Options) (word : String) : Except UsageFault Options :=
  if o.input.isSome then throw (.secondInput word)
  else if word.isEmpty then throw .emptyInput
  else return { o with input := some word }

def request (o : Options) : Except UsageFault Request :=
  match o.input with
  | some input => return .check o.settings input
  | none => throw .noInput

/-- The first word that decides the request wins over all behind it. -/
def read (o : Options) : List String → Except UsageFault Request
  | [] => o.request
  | word :: rest =>
    match Word.ofString word with
    | .help => return .help
    | .version => return .version
    | .unknown => throw (.unknownFlag word)
    | .strict =>
      if o.strict then throw (.repeatedFlag word)
      else read { o with strict := true } rest
    | .noNarrowing =>
      if o.noNarrowing then throw (.repeatedFlag word)
      else read { o with noNarrowing := true } rest
    | .endOfFlags => do (← rest.foldlM addInput o).request
    | .input => do read (← o.addInput word) rest

end Options

def Request.ofWords (words : List String) : Except UsageFault Request :=
  ({} : Options).read words

end ManagedCode.CommandLine
