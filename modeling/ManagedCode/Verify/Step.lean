import ManagedCode.EvalStack
import ManagedCode.Verify.Error

namespace ManagedCode

/-! Steps that take operands off a stack and put results onto it. A step that fails leaves the stack
as far as it had got. -/

/-- A value other than what was expected. -/
def VerifyError.unexpected (found : StackType) (expected : Expectation) : VerifyError :=
  .mismatch expected (.value found)

abbrev Step := ExceptT VerifyError (StateM EvalStack)

namespace Step

def on {α : Type} (step : Step α) (s : EvalStack) : Except VerifyError α × EvalStack :=
  step.run.run s

def push (t : StackType) : Step Unit :=
  modify (·.push t)

def pushType (t : Ty) : Step Unit :=
  push (.simple t)

def pushEntry (e : StackEntry) : Step Unit :=
  modify (·.pushEntry e)

def popEntry (reason : String) : Step StackEntry := do
  match (← get).pop? with
  | some (e, rest) =>
    set rest
    return e
  | none => throw (.underflow reason)

def pop (reason : String) : Step StackType := do
  return (← popEntry reason).type

def clear : Step Unit :=
  modify EvalStack.clear

def require (count : Nat) (reason : Nat → String) : Step Unit := do
  let depth := (← get).depth
  if depth < count then throw (.underflow (reason depth))

def check (condition : Bool) (error : VerifyError) : Step Unit :=
  if condition then pure () else throw error

end Step

/-- The top value under a more general type, if it fits that type. -/
def generalizeTop (g : Graph) (general : StackType) : Step Unit := do
  match (← get).peek? with
  | none => throw (.underflow "expected a value whose type to generalize")
  | some special =>
    Step.check (special.fits g general) (.unexpected special (.stackType general))
    modify (·.retypeTop general)

end ManagedCode
