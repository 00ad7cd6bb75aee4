import ManagedCode.Builder.Error
import ManagedCode.Source.Method

namespace ManagedCode.Source

/-! Why a source file is not accepted. -/

inductive ResolveFault where
  | unknownType (text : String)
  | notAMember (reference : String)
  | noMethod (reference : String)
  | overloaded (reference : String)
  | noField (reference : String)
  | noCallParameters
  | unknownOpcode (opcode : String)
  | needsOperand (opcode : String)
  | takesNoOperand (opcode : String)
  | badNumber (operand : String)
  | badString (operand : String)
  | loneConstraint
  | labelInUse (name : String)

inductive Failure where
  | notUtf8
  | parse (error : ParseError)
  | resolve (line : Nat) (fault : ResolveFault)
  /-- A body that was meant to be accepted. -/
  | rejected (method : String) (line : Nat) (error : BuildError)
  /-- A body that was meant to be rejected. -/
  | unexpectedlyValid (method : String)

def ResolveFault.text : ResolveFault → String
  | unknownType text => "unknown type `" ++ text ++ "`"
  | notAMember reference => "expected `Type::Member`, found `" ++ reference ++ "`"
  | noMethod reference => "no method matches `" ++ reference ++ "`"
  | overloaded reference => "`" ++ reference ++ "` is overloaded (add a parameter list)"
  | noField reference => "no field matches `" ++ reference ++ "`"
  | noCallParameters => "call site signature needs a parameter list"
  | unknownOpcode opcode => "unknown opcode `" ++ opcode ++ "`"
  | needsOperand opcode => "`" ++ opcode ++ "` needs an operand"
  | takesNoOperand opcode => "`" ++ opcode ++ "` does not take an operand"
  | badNumber operand => "bad numeric operand `" ++ operand ++ "`"
  | badString operand => "bad string `" ++ operand ++ "`"
  | loneConstraint => "`constrained.` must be followed by `callvirt`"
  | labelInUse name => "label `" ++ name ++ "` is already in use"

def Failure.message : Failure → String
  | notUtf8 =>
    "IO - Error \x7b kind: InvalidData, message: \"stream did not contain valid UTF-8\" \x7d"
  | parse error => "Parse - " ++ error.message
  | resolve line fault => "Resolve - line " ++ toString line ++ ": " ++ fault.text
  | rejected method line error =>
    "Verification of `" ++ method ++ "` - line " ++ toString line ++ ": " ++ error.message ++
      " (" ++ error.kind.text ++ ")"
  | unexpectedlyValid method =>
    "Verification of `" ++ method ++ "` - expected the body to be rejected"

/-- The verifier and the expectation disagree. All other failures are faults of the file. -/
def Failure.isVerdict : Failure → Bool
  | rejected _ _ _ | unexpectedlyValid _ => true
  | notUtf8 | parse _ | resolve _ _ => false

end ManagedCode.Source
