import ManagedCode.Text.Scan

namespace ManagedCode

open Text

/-! Validated names. The characters that spell arrays, by-refs and pointers are reserved. -/

inductive NameFault where
  | empty
  | illegalCharacter
  | emptySegment
  deriving DecidableEq

namespace TypeName

def reserved (c : Char) : Bool :=
  c == '&' || c == '*' || c == '[' || c == ']' || c == ':' || c == ' '

def fault? (text : String) : Option NameFault :=
  let cs := text.toList
  if cs.isEmpty then some .empty
  else if cs.any reserved then some .illegalCharacter
  else if (split '.' cs).any List.isEmpty then some .emptySegment
  else none

end TypeName

/-- A full name with its namespaces, such as `System.Int32`. -/
structure TypeName where
  text : String
  valid : TypeName.fault? text = none
  deriving DecidableEq

def TypeName.ofString (text : String) : Except NameFault TypeName :=
  match h : TypeName.fault? text with
  | none => .ok ⟨text, h⟩
  | some fault => .error fault

theorem TypeName.ofString_text (name : TypeName) : TypeName.ofString name.text = .ok name := by
  unfold TypeName.ofString
  split
  · rfl
  · rename_i fault h
    exact absurd name.valid (by simp [h])

namespace MemberName

def reserved (c : Char) : Bool :=
  c == ':' || c == '/' || c == ' ' || c == '(' || c == ')'

def fault? (text : String) : Option NameFault :=
  let cs := text.toList
  if cs.isEmpty then some .empty
  else if cs.any reserved then some .illegalCharacter
  else none

end MemberName

/-- The name of a method or a field. -/
structure MemberName where
  text : String
  valid : MemberName.fault? text = none
  deriving DecidableEq

def MemberName.ofString (text : String) : Except NameFault MemberName :=
  match h : MemberName.fault? text with
  | none => .ok ⟨text, h⟩
  | some fault => .error fault

theorem MemberName.ofString_text (name : MemberName) :
    MemberName.ofString name.text = .ok name := by
  unfold MemberName.ofString
  split
  · rfl
  · rename_i fault h
    exact absurd name.valid (by simp [h])

/-- The constructors of instances share one name. -/
def MemberName.constructor : MemberName := ⟨".ctor", by decide⟩

/-- What a fault says about a name of the given sort. -/
def NameFault.message (sort text : String) : NameFault → String
  | .empty => sort ++ " name is empty"
  | .illegalCharacter => sort ++ " name '" ++ text ++ "' contains an illegal character"
  | .emptySegment => sort ++ " name '" ++ text ++ "' has an empty namespace segment"

end ManagedCode
