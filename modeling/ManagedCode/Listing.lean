import ManagedCode.Instruction.Text
import ManagedCode.StackType.Flow

namespace ManagedCode

/-! Method bodies as they are written down. -/

/-- Where the parts of exception blocks begin and end. -/
inductive Marker where
  | beginTry
  | beginCatch (exception : Ty)
  | beginFinally
  | close

inductive Item where
  | instruction (i : Instruction)
  | branch (b : Branch)
  | label (l : Label)
  | marker (m : Marker)

def Item.isInstruction : Item → Bool
  | instruction _ | branch _ => true
  | label _ | marker _ => false

structure LabelSummary where
  name : String
  /-- The stack that the label expects, unless nothing ever reached it. -/
  shape : Option Shape

structure Summary where
  locals : List Ty
  maxStack : Nat
  /-- By the labels' places. -/
  labels : List LabelSummary

def Summary.empty : Summary := ⟨[], 0, []⟩

structure Code where
  listing : List Item
  summary : Summary

namespace Code

def instructionCount (c : Code) : Nat :=
  c.listing.countP Item.isInstruction

def labelName (s : Summary) (l : Label) : String :=
  ((s.labels[l]?).map LabelSummary.name).getD (Label.text l)

def indent (depth : Nat) : String :=
  String.ofList (List.replicate (4 * depth) ' ')

/-- The body of an exception block stands one step further to the right. -/
def itemLines (s : Summary) : Nat → List Item → List String
  | _, [] => []
  | depth, .instruction i :: rest => (indent depth ++ i.text) :: itemLines s depth rest
  | depth, .branch b :: rest => (indent depth ++ b.text) :: itemLines s depth rest
  | depth, .label l :: rest => (labelName s l ++ ":") :: itemLines s depth rest
  | depth, .marker .beginTry :: rest =>
    (indent depth ++ ".try \x7b") :: itemLines s (depth + 1) rest
  | depth, .marker (.beginCatch t) :: rest =>
    (indent (depth - 1) ++ "\x7d catch " ++ t.name ++ " \x7b") :: itemLines s depth rest
  | depth, .marker .beginFinally :: rest =>
    (indent (depth - 1) ++ "\x7d finally \x7b") :: itemLines s depth rest
  | depth, .marker .close :: rest =>
    let depth := max (depth - 1) 1
    (indent depth ++ "\x7d") :: itemLines s depth rest

def lines (c : Code) : List String :=
  (".maxstack " ++ toString c.summary.maxStack) ::
    (if c.summary.locals.isEmpty then []
      else [".locals (" ++ Ty.listText c.summary.locals ++ ")"]) ++
    itemLines c.summary 1 c.listing

def text (c : Code) : String :=
  String.join (c.lines.map (· ++ "\n"))

end Code

end ManagedCode
