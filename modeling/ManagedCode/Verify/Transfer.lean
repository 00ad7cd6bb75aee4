import ManagedCode.Verify.Operand

namespace ManagedCode

/-! The effect of an instruction that may go somewhere else. -/

open Step

/-- A jump hands over the arguments, so both methods take the same. -/
def checkJump (c : Context) (m : Method) : Except VerifyError Unit :=
  if m.arguments = c.arguments.toList ∧ m.result = c.result then pure ()
  else throw (.operand (.jumpSignature m))

def requireRegion (c : Context) (allowed : Option Region → Bool) (fault : FlowFault) :
    Step Unit :=
  check (allowed c.region) (.controlFlow fault)

/-- The value that `brtrue` and `brfalse` test. -/
def Step.popTested : Step StackEntry := do
  let e ← popEntry "expected a value to test"
  check (e.type.category ≠ .float && !e.type.isStruct) (.unexpected e.type .testable)
  return e

/-- The stack as the targets and the next instruction find it, and the tested value. -/
def Context.transfer (c : Context) : Branch → Step (Option StackEntry)
  | .br _ => return none
  | .brfalse _ | .brtrue _ => some <$> popTested
  | .compare comparison _ => do
    let right ← pop "expected two values to compare"
    let left ← pop "expected two values to compare"
    match comparison.operation.result? left right with
    | some _ => return none
    | none => throw (.illegalOperands left right)
  | .switch _ => do
    let value ← pop "expected the value to switch on"
    check (value.category = .int32 || value.category = .zero)
      (.unexpected value (.category .int32))
    return none
  | .leave _ => do
    requireRegion c Option.isSome .leaveOutside
    clear
    return none
  | .ret => do
    requireRegion c Option.isNone .retInside
    let depth := (← get).depth
    match c.result with
    | none => check (depth = 0) (.controlFlow (.voidReturn depth))
    | some t =>
      check (depth ≤ 1) (.controlFlow (.returnDepth depth))
      popExpecting c.graph t "expected a value to return"
    return none
  | .throw => do
    let exception ← pop "expected an exception to throw"
    check (exception.isAssignableTo c.graph .exception) (.unexpected exception (.type .exception))
    clear
    return none
  | .rethrow => do
    requireRegion c (· = some .catchBlock) .rethrowOutside
    clear
    return none
  | .endfinally => do
    requireRegion c (· = some .finallyBlock) .endfinallyOutside
    clear
    return none
  | .jmp m => do
    let depth := (← get).depth
    check (depth = 0) (.controlFlow (.jmpDepth depth))
    requireRegion c Option.isNone .jmpInside
    checkJump c m
    return none

/-- What the check of a branch makes in the graph: a value type receives a call by its address, and
that is compared with the argument that a jump would hand over. -/
def Context.madeByTransfer? (c : Context) (b : Branch) (s : EvalStack) : Option (Construct × Ty) :=
  match b with
  | .jmp m =>
    if s.isEmpty && c.region = none && !m.isStatic && m.declaring.isValueType then
      some (Construct.byRef, m.declaring)
    else none
  | _ => none

end ManagedCode
