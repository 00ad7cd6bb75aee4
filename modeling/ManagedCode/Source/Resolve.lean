import ManagedCode.Graph.Basic
import ManagedCode.Instruction.Basic
import ManagedCode.Source.Failure
import ManagedCode.Ty.Library

namespace ManagedCode.Source

/-! What the names in a source file stand for. Types that are made along the way stay in the
graph. -/

open Text

abbrev Resolve := ExceptT Failure (StateM Graph)

namespace Resolve

def fail {α : Type} (line : Nat) (fault : ResolveFault) : Resolve α :=
  throw (.resolve line fault)

def orFail {α : Type} (line : Nat) (fault : ResolveFault) : Option α → Resolve α
  | some a => pure a
  | none => fail line fault

end Resolve

inductive Suffix where
  | array
  | byRef
  | pointer
  deriving DecidableEq

/-- A base and suffixes, the innermost first. -/
structure Spelling where
  base : List Char
  suffixes : List Suffix

/-- Takes the suffixes, and the blanks around them, off the end of a reversed text. -/
def takeSuffixes : List Char → List Suffix → List Char × List Suffix
  | ']' :: '[' :: rest, suffixes => takeSuffixes rest (.array :: suffixes)
  | '&' :: rest, suffixes => takeSuffixes rest (.byRef :: suffixes)
  | '*' :: rest, suffixes => takeSuffixes rest (.pointer :: suffixes)
  | c :: rest, suffixes =>
    if isBlank c then takeSuffixes rest suffixes else (c :: rest, suffixes)
  | [], suffixes => ([], suffixes)

def Spelling.ofText (text : List Char) : Spelling :=
  let (base, suffixes) := takeSuffixes text.reverse []
  ⟨trimStart base.reverse, suffixes⟩

/-- The short names of the language. -/
def keywords : List (String × Ty) :=
  [("object", .object), ("string", .string), ("bool", .boolean), ("char", .char),
    ("int8", .sbyte), ("uint8", .byte), ("unsigned int8", .byte), ("int16", .int16),
    ("uint16", .uint16), ("unsigned int16", .uint16), ("int32", .int32), ("uint32", .uint32),
    ("unsigned int32", .uint32), ("int64", .int64), ("uint64", .uint64),
    ("unsigned int64", .uint64), ("native int", .intPtr), ("native uint", .uintPtr),
    ("native unsigned int", .uintPtr), ("float32", .single), ("float64", .double)]

def Suffix.apply (suffix : Suffix) (t : Ty) (g : Graph) : Ty × Graph :=
  match suffix with
  | array => g.arrayOf t
  | byRef => g.byRef t
  | pointer => g.pointerTo t

def baseType? (g : Graph) (name : String) : Option Ty :=
  (keywords.lookup name).or (g.lookup name)

def applySuffixes : List Suffix → Ty → Resolve Ty
  | [], t => return t
  | suffix :: rest, t => do applySuffixes rest (← modifyGet (suffix.apply t))

def resolveType (line : Nat) (text : String) : Resolve Ty := do
  let spelling := Spelling.ofText text.toList
  let name := String.ofList spelling.base
  let base ← Resolve.orFail line (.unknownType name) (baseType? (← get) name)
  applySuffixes spelling.suffixes base

def resolveTypes (line : Nat) : List String → Resolve (List Ty)
  | [] => return []
  | text :: rest => do
    let t ← resolveType line text
    return t :: (← resolveTypes line rest)

def resolveResult (line : Nat) (text : String) : Resolve (Option Ty) :=
  if trim text.toList = "void".toList then return none
  else some <$> resolveType line text

def resolveList (line : Nat) (text : List Char) : Resolve (List Ty) := do
  match atLine line (parseList text) with
  | .ok names => resolveTypes line names
  | .error error => throw (.parse error)

/-- The type and the rest of `TYPE::MEMBER`. -/
def resolveOwner (line : Nat) (reference : String) : Resolve (Ty × List Char) := do
  let (owner, member) ←
    Resolve.orFail line (.notAMember reference) (cutAt? "::".toList reference.toList)
  return (← resolveType line (String.ofList owner), member)

/-- `TYPE::NAME`, with a parameter list where the name alone does not tell. -/
def resolveMethod (line : Nat) (reference : String) : Resolve Method := do
  let (owner, member) ← resolveOwner line reference
  let name := String.ofList (trim (member.takeWhile (· ≠ '(')))
  let list := member.dropWhile (· ≠ '(')
  let parameters ← if list.isEmpty then pure none else some <$> resolveList line list
  let named := (← get).methodsNamed owner name
  match named.filter fun m => parameters.all (m.parameters = ·) with
  | [m] => return m
  | [] => Resolve.fail line (.noMethod reference)
  | _ => Resolve.fail line (.overloaded reference)

def resolveField (line : Nat) (reference : String) : Resolve Field := do
  let (owner, member) ← resolveOwner line reference
  let name := String.ofList (trim member)
  Resolve.orFail line (.noField reference) ((← get).findField owner name)

/-- `RESULT(PARAMETERS)`, behind `instance` if the callee takes a receiver. -/
def resolveCallSite (line : Nat) (signature : String) : Resolve CallSite := do
  let (hasThis, text) :=
    match after? "instance ".toList signature.toList with
    | some rest => (true, trim rest)
    | none => (false, signature.toList)
  let list := text.dropWhile (· ≠ '(')
  if list.isEmpty then Resolve.fail line .noCallParameters
  else
    let parameters ← resolveList line list
    let result ← resolveResult line (String.ofList (text.takeWhile (· ≠ '(')))
    return ⟨parameters, result, hasThis⟩

end ManagedCode.Source
