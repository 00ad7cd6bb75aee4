import ManagedCode.Builder.Error
import ManagedCode.Listing
import ManagedCode.Verify.Straight
import ManagedCode.Verify.Transfer

namespace ManagedCode

/-! Building a body one instruction at a time. Each is checked against the stack at its place before
it is written down. -/

structure LabelState where
  name : String
  /-- The stack at the label, from the first time that the label is reached. -/
  shape : Option Shape
  marked : Bool

/-- An exception block that has begun and not yet ended. -/
structure Block where
  /-- Marked right behind the block. -/
  endLabel : Label
  region : Region
  hasFinally : Bool
  hasHandler : Bool

structure Builder where
  /-- The types that checks make, and that have no answers of their own, are left to the owner of the
  graph. -/
  graph : Graph
  settings : Settings
  /-- The receiver, if there is one, and the parameters. -/
  arguments : Array Ty
  result : Option Ty
  locals : Array Ty
  labels : List LabelState
  /-- The stack at the current place, unless that is unreachable. -/
  current : Option EvalStack
  maxStack : Nat
  /-- The innermost block first. -/
  blocks : List Block
  /-- The newest item first. -/
  emitted : List Item

/-- Operations on a builder. One that fails leaves the builder as far as it had got. -/
abbrev Emit := ExceptT BuildError (StateM Builder)

namespace Emit

def on {α : Type} (action : Emit α) (b : Builder) : Except BuildError α × Builder :=
  action.run.run b

end Emit

namespace Builder

/-- A body with the given arguments and result, and default settings. -/
def new (g : Graph) (arguments : List Ty) (result : Option Ty) : Builder where
  graph := g
  settings := {}
  arguments := arguments.toArray
  result := result
  locals := #[]
  labels := []
  current := some .empty
  maxStack := 0
  blocks := []
  emitted := []

def forMethod (g : Graph) (m : Method) : Builder :=
  new g m.arguments m.result

def withSettings (b : Builder) (settings : Settings) : Builder :=
  { b with settings := settings }

def context (b : Builder) : Context where
  graph := b.graph
  arguments := b.arguments
  locals := b.locals
  result := b.result
  region := b.blocks.head?.map Block.region
  settings := b.settings

/-- An unreachable place starts from the empty stack. -/
def stack (b : Builder) : EvalStack := b.current.getD .empty

def isReachable (b : Builder) : Bool := b.current.isSome

def labelName? (b : Builder) (l : Label) : Option String :=
  (b.labels[l]?).map LabelState.name

/-- The stack on record for a label. -/
def labelShape? (b : Builder) (l : Label) : Option Shape :=
  (b.labels[l]?).bind LabelState.shape

/-- The place of a new local among the locals. -/
def declareLocal (t : Ty) : Emit UInt16 := do
  let count ← modifyGet fun b => (b.locals.size, b)
  if count < UInt16.size then
    modify fun b => { b with locals := b.locals.push t }
    return .ofNat count
  else throw (.rejected (.declareLocal t) (.operand .tooManyLocals))

/-- The name only serves for messages and listings. -/
def defineLabel (name : String) : Emit Label :=
  modifyGet fun b => (b.labels.length, { b with labels := b.labels ++ [⟨name, none, false⟩] })

/-- The place becomes reachable even if the instruction is rejected. -/
def push (i : Instruction) : Emit Unit := do
  let b ← get
  let (outcome, stack) := (b.context.verify i).on b.stack
  set { b with current := some stack }
  match outcome with
  | .error error => throw (.rejected (.instruction i) error)
  | .ok () =>
    modify fun b =>
      { b with maxStack := max b.maxStack stack.depth, emitted := .instruction i :: b.emitted }

end Builder

end ManagedCode
