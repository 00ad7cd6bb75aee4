import ManagedCode.Text.Scan

namespace ManagedCode.Source

open Text

/-! What a line says once its comment is gone. -/

/-- A comment starts at two slashes outside of quotes. Inside them a backslash takes the next
character with it. -/
def stripComment : Bool → List Char → List Char
  | _, [] => []
  | false, '/' :: '/' :: _ => []
  | true, '\\' :: c :: rest => '\\' :: c :: stripComment true rest
  | quoted, c :: rest => c :: stripComment (if c = '"' then !quoted else quoted) rest

def content (line : List Char) : List Char :=
  trim (stripComment false line)

/-- The first word and what is left, without the blanks around it. -/
def splitWord (text : List Char) : List Char × List Char :=
  match cut? isBlank text with
  | some (word, rest) => (word, trim rest)
  | none => (text, [])

/-- The elements of `(A, B, C)`. Empty ones do not count. -/
def splitList? (text : List Char) : Option (List String) := do
  let inner ← before? [')'] (← after? ['('] (trim text))
  let elements := (split ',' inner).map trim
  return (elements.filter (!·.isEmpty)).map String.ofList

/-! Source files: method bodies between `.method` and `.end`, one statement a line. -/

inductive Statement where
  | label (name : String)
  /-- The operation code is in lower case. -/
  | instruction (opcode : String) (operand : Option String)
  /-- The name is that of the label behind the block. -/
  | beginTry (endName : String)
  | beginCatch (exception : String)
  | beginFinally
  | endTry

structure BodyLine where
  line : Nat
  statement : Statement

structure MethodText where
  /-- Of the header. -/
  line : Nat
  name : String
  result : String
  parameters : List String
  locals : List String
  /-- The body is meant to be rejected. -/
  expectInvalid : Bool
  body : Array BodyLine

inductive ParseFault where
  | expectedMethod (word : String)
  | nestedMethod
  | missingEnd (name : String)
  | missingParameters
  | missingName
  | notAList (text : String)
  | unknownExpectation (text : String)
  | tryWithoutLabel
  | catchWithoutType
  | unknownDirective (word : String)

structure ParseError where
  line : Nat
  fault : ParseFault

def ParseFault.text : ParseFault → String
  | expectedMethod word => "expected `.method`, but found `" ++ word ++ "`"
  | nestedMethod => "`.method` inside of another method"
  | missingEnd name => "method `" ++ name ++ "` is missing `.end`"
  | missingParameters => "method header is missing its parameter list"
  | missingName => "method header needs a return type and a name"
  | notAList text => "expected a parenthesized list, found `" ++ text ++ "`"
  | unknownExpectation text => "unknown expectation `" ++ text ++ "`"
  | tryWithoutLabel => "`.try` needs the name of its end label"
  | catchWithoutType => "`.catch` needs an exception type"
  | unknownDirective word => "unknown directive `" ++ word ++ "`"

def ParseError.message (e : ParseError) : String :=
  "line " ++ toString e.line ++ ": " ++ e.fault.text

abbrev Parse := Except ParseFault

def parseList (text : List Char) : Parse (List String) :=
  match splitList? text with
  | some elements => pure elements
  | none => throw (.notAList (String.ofList text))

/-- `RESULT NAME(PARAMETERS)`. -/
def parseHeader (line : Nat) (header : List Char) : Parse MethodText := do
  let front := header.takeWhile (· ≠ '(')
  let list := header.dropWhile (· ≠ '(')
  if list.isEmpty then throw .missingParameters
  match cutLast? isBlank (trim front) with
  | none => throw .missingName
  | some (result, name) =>
    return {
      line := line
      name := String.ofList name
      result := String.ofList (trim result)
      parameters := ← parseList list
      locals := []
      expectInvalid := false
      body := #[] }

/-- A label is a word of its own that ends in a colon. -/
def Statement.ofWord (word rest : List Char) : Statement :=
  match before? [':'] word with
  | some (c :: name) =>
    if rest.isEmpty then .label (String.ofList (c :: name)) else plain
  | _ => plain
where
  plain : Statement :=
    .instruction (String.ofList (word.map Char.toLower))
      (if rest.isEmpty then none else some (String.ofList rest))

def Statement.ofDirective (word rest : List Char) : Parse Statement :=
  match String.ofList word with
  | ".try" => if rest.isEmpty then throw .tryWithoutLabel else pure (.beginTry (String.ofList rest))
  | ".catch" =>
    if rest.isEmpty then throw .catchWithoutType else pure (.beginCatch (String.ofList rest))
  | ".finally" => pure .beginFinally
  | ".endtry" => pure .endTry
  | word => throw (.unknownDirective word)

/-- A line inside of a method, other than its last one. -/
def MethodText.extend (m : MethodText) (line : Nat) (word rest : List Char) :
    Parse MethodText := do
  match String.ofList word with
  | ".method" => throw .nestedMethod
  | ".locals" => return { m with locals := m.locals ++ (← parseList rest) }
  | ".expect" =>
    match String.ofList rest with
    | "invalid" => return { m with expectInvalid := true }
    | "valid" => return { m with expectInvalid := false }
    | other => throw (.unknownExpectation other)
  | _ =>
    let statement ←
      if word.head? = some '.' then Statement.ofDirective word rest
      else pure (.ofWord word rest)
    return { m with body := m.body.push ⟨line, statement⟩ }

def atLine {α : Type} (line : Nat) (parse : Parse α) : Except ParseError α :=
  parse.mapError (⟨line, ·⟩)

/-- The methods of the lines from a given number on, behind the start of an open one. -/
def parseLines (line : Nat) :
    Option MethodText → List (List Char) → Except ParseError (List MethodText)
  | none, [] => return []
  | some m, [] => throw ⟨m.line, .missingEnd m.name⟩
  | current, raw :: rest => do
    let text := content raw
    if text.isEmpty then parseLines (line + 1) current rest
    else
      let (word, operand) := splitWord text
      match current with
      | none =>
        if word = ".method".toList then
          parseLines (line + 1) (some (← atLine line (parseHeader line operand))) rest
        else throw ⟨line, .expectedMethod (String.ofList word)⟩
      | some m =>
        if word = ".end".toList then return m :: (← parseLines (line + 1) none rest)
        else parseLines (line + 1) (some (← atLine line (m.extend line word operand))) rest

def parseFile (source : String) : Except ParseError (List MethodText) :=
  parseLines 1 none (lines source.toList)

end ManagedCode.Source
