import ManagedCode.StackType.Flow
import ManagedCode.Verify.Error

namespace ManagedCode

/-! Why a body cannot be built. -/

/-- What was being done when the verifier objected. -/
inductive Action where
  | instruction (i : Instruction)
  | branch (b : Branch)
  | declareLocal (t : Ty)
  | zeroLocal (index : Nat)
  | generalizeTo (s : StackType)
  | generalizeFor (label : String)
  | beginTry
  | beginCatch (t : Ty)
  | beginFinally
  | endBlock

inductive BlockFault where
  | outside (action : Action)
  | catchAfterFinally
  | secondFinally
  | noHandler
  | neverEnded (count : Nat)

inductive BuildError where
  | rejected (action : Action) (error : VerifyError)
  /-- A label is reached with two stacks that do not go together. -/
  | incompatibleStacks (label : String) (recorded found : Shape)
  | duplicateLabel (name : String)
  | unknownLabel (l : Label)
  | blockMisuse (fault : BlockFault)
  | notFinished (unmarked : List String) (fallsThrough : Bool)

def BuildError.kind : BuildError → ErrorKind
  | rejected _ error => error.kind
  | incompatibleStacks _ _ _ | duplicateLabel _ | notFinished _ _ => .invalidControlFlow
  | unknownLabel _ | blockMisuse _ => .invalidOperandKind

def Action.text : Action → String
  | instruction i => i.text
  | branch b => b.text
  | declareLocal t => ".locals (" ++ t.name ++ ")"
  | zeroLocal index => "zero local " ++ toString index
  | generalizeTo s => "generalize top of stack to " ++ s.text
  | generalizeFor label => "generalize top of stack for " ++ label
  | beginTry => ".try"
  | beginCatch t => "catch " ++ t.name
  | beginFinally => "finally"
  | endBlock => "end of exception block"

def BlockFault.text : BlockFault → String
  | outside action => action.text ++ " outside of an exception block"
  | catchAfterFinally => "a catch handler cannot follow the finally handler"
  | secondFinally => "exception block already has a finally handler"
  | noHandler => "protected region has no handler"
  | neverEnded count => toString count ++ " exception block(s) never ended"

def BuildError.message : BuildError → String
  | rejected action error => "`" ++ action.text ++ "` failed verification: " ++ error.message
  | incompatibleStacks label recorded found =>
    "inconsistent stack for label " ++ label ++ ": expected [" ++
      String.intercalate ", " recorded.texts ++ "] but found [" ++
      String.intercalate ", " found.texts ++ "]"
  | duplicateLabel name => "label " ++ name ++ " is marked more than once"
  | unknownLabel l => "label " ++ Label.text l ++ " was not defined by this builder"
  | blockMisuse fault => "exception block misuse: " ++ fault.text
  | notFinished unmarked fallsThrough =>
    "method body is not finished" ++
      (if unmarked.isEmpty then ""
        else ", labels never marked: " ++ String.intercalate ", " unmarked) ++
      (if fallsThrough then ", control can fall through the end of the body" else "")

end ManagedCode
