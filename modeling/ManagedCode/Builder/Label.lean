import ManagedCode.Builder.Basic
import ManagedCode.StackType.Flow

namespace ManagedCode

/-! The stack at a label is the one with which the label is first reached, by a branch or from
above. Whatever comes later has to match it. Only null slots give way, until the label is marked. -/

namespace LabelState

def accepts (state : LabelState) (arriving : Shape) : Bool :=
  match state.shape with
  | some recorded => arriving.flowsInto recorded
  | none => true

def record (state : LabelState) (arriving : Shape) : LabelState :=
  match state.shape with
  | some recorded =>
    if state.marked then state else { state with shape := some (arriving.unify recorded) }
  | none => { state with shape := some arriving }

end LabelState

namespace Builder

def labelState (b : Builder) (l : Label) : Except BuildError LabelState :=
  match b.labels[l]? with
  | some state => pure state
  | none => throw (.unknownLabel l)

def checkArrival (b : Builder) (l : Label) (arriving : Shape) : Except BuildError Unit := do
  let state ← b.labelState l
  if state.accepts arriving then pure ()
  else throw (.incompatibleStacks state.name (state.shape.getD []) arriving)

def recordArrival (labels : List LabelState) (l : Label) (arriving : Shape) : List LabelState :=
  labels.modify l (·.record arriving)

/-- What the targets see of the stack behind a branch. -/
def targetShape (settings : Settings) (stack : EvalStack) (tested : Option StackEntry) : Shape :=
  match tested with
  | some e => if settings.narrowTested then stack.narrowedShape e.identity else stack.shape
  | none => stack.shape

/-- A rejected branch changes nothing. -/
def branch (i : Branch) : Emit Unit := do
  let b ← get
  for l in i.targets do
    let _ ← b.labelState l
  let (outcome, stack) := (b.context.transfer i).on b.stack
  match outcome with
  | .error error => throw (.rejected (.branch i) error)
  | .ok tested =>
    let shape := targetShape b.settings stack tested
    for l in i.targets do
      b.checkArrival l shape
    set
      { b with
        labels := i.targets.foldl (recordArrival · · shape) b.labels
        current := if i.fallsThrough then some stack else none
        emitted := .branch i :: b.emitted }

/-- A label that nothing has reached yet starts from the empty stack. -/
def mark (l : Label) : Emit Unit := do
  let b ← get
  let state ← b.labelState l
  if state.marked then throw (.duplicateLabel state.name)
  let state ←
    match b.current with
    | some stack =>
      b.checkArrival l stack.shape
      pure (state.record stack.shape)
    | none => pure (if state.shape.isSome then state else state.record [])
  set
    { b with
      labels := b.labels.set l { state with marked := true }
      current := some (.ofShape (state.shape.getD []))
      emitted := .label l :: b.emitted }

/-- Nothing happens at an unreachable place. -/
def generalize (general : StackType) : Emit Unit := do
  let b ← get
  match b.current with
  | none => pure ()
  | some stack =>
    let (outcome, stack) := (generalizeTop b.graph general).on stack
    match outcome with
    | .error error => throw (.rejected (.generalizeTo general) error)
    | .ok () => set { b with current := some stack }

def widenTop (state : LabelState) (joined : StackType) : LabelState :=
  match state.shape with
  | some (_ :: rest) =>
    if state.marked then state else { state with shape := some (joined :: rest) }
  | _ => state

/-- The top of the stack and, until the label is marked, the top slot at the label become what both
have in common. -/
def generalizeForLabel (l : Label) : Emit Unit := do
  let b ← get
  let state ← b.labelState l
  match state.shape, b.current.bind EvalStack.peek? with
  | some (recorded :: _), some current =>
    match current.join b.graph recorded with
    | some joined =>
      generalize joined
      modify fun b => { b with labels := b.labels.modify l (widenTop · joined) }
    | none =>
      throw (.rejected (.generalizeFor state.name)
        (.mismatch (.stackType recorded) (.value current)))
  | _, _ => pure ()

end Builder

end ManagedCode
