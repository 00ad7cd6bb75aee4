import ManagedCode.Instruction.Text

namespace ManagedCode

/-! Why an instruction is rejected. The wording of each cause is in one place, at the end. -/

/-- What an operand was expected to be. -/
inductive Expectation where
  | type (t : Ty)
  | stackType (s : StackType)
  | category (c : Category)
  | notStruct
  | number
  | integer
  | testable
  | index
  | objectReference
  | callee
  | address
  | addressOf (t : Ty)
  | array
  | arrayOf (t : Ty)
  | referenceArray
  | boxable
  | convertible (c : Conversion)
  /-- A value type is called through its address. -/
  | receiverAddress (m : Method)
  /-- A reference type is called through an object. -/
  | boxedReceiver (m : Method)
  /-- A virtual call through the address of a value type has to name that type. -/
  | constrainedCall (t : Ty) (m : Method)

inductive Found where
  | value (s : StackType)
  | classified (s : StackType)
  | type (t : Ty)
  | arrayOf (t : Ty)

inductive FlowFault where
  | leaveOutside
  | retInside
  | voidReturn (depth : Nat)
  | returnDepth (depth : Nat)
  | rethrowOutside
  | endfinallyOutside
  | jmpDepth (depth : Nat)
  | jmpInside
  | regionFallsThrough
  | tryDepth (depth : Nat)

inductive OperandFault where
  | noArgument (index count : Nat)
  | noLocal (index count : Nat)
  | staticVirtualCall (m : Method)
  | staticFunctionPointer (m : Method)
  | notConstructor (m : Method)
  | abstractType (t : Ty)
  | unboxReference (t : Ty)
  | staticField (f : Field) (instead : String)
  | instanceField (f : Field)
  | checkedFloat (c : Conversion)
  | missingMethod (t : Ty) (m : Method)
  | allocationDepth
  | unverifiable (mnemonic : String)
  | jumpSignature (m : Method)
  | tooManyLocals
  | undeclaredLocal (index : Nat)

inductive VerifyError where
  /-- The stack holds too little. The reason says what was looked for. -/
  | underflow (reason : String)
  | mismatch (expected : Expectation) (found : Found)
  | illegalOperands (left right : StackType)
  | controlFlow (fault : FlowFault)
  | operand (fault : OperandFault)

/-- The families of errors. -/
inductive ErrorKind where
  | stackUnderflow
  | typeMismatch
  | illegalOperandCombination
  | invalidControlFlow
  | invalidOperandKind
  deriving DecidableEq

def VerifyError.kind : VerifyError → ErrorKind
  | underflow _ => .stackUnderflow
  | mismatch _ _ => .typeMismatch
  | illegalOperands _ _ => .illegalOperandCombination
  | controlFlow _ => .invalidControlFlow
  | operand _ => .invalidOperandKind

def ErrorKind.text : ErrorKind → String
  | stackUnderflow => "StackUnderflow"
  | typeMismatch => "TypeMismatch"
  | illegalOperandCombination => "IllegalOperandCombination"
  | invalidControlFlow => "InvalidControlFlow"
  | invalidOperandKind => "InvalidOperandKind"

def Expectation.text : Expectation → String
  | type t => t.name
  | stackType s => s.text
  | category c => c.text
  | notStruct => "a value which is not a struct"
  | number => "a number"
  | integer => "an integer"
  | testable => "an integer or reference"
  | index => "int32 or native int"
  | objectReference => "an object reference"
  | callee => "an object reference or managed pointer"
  | address => "an address"
  | addressOf t => "&" ++ t.name
  | array => "an array"
  | arrayOf t => t.name ++ "[]"
  | referenceArray => "an array of references"
  | boxable => "a value type to box"
  | convertible c => "a value convertible with conv." ++ c.text
  | receiverAddress m =>
    "&" ++ m.declaring.name ++
      " (value type instances must be loaded by reference to call " ++ m.text ++ ")"
  | boxedReceiver m =>
    m.declaring.name ++ " (value type instances must be boxed to call " ++ m.text ++ ")"
  | constrainedCall t m =>
    "constrained. " ++ t.name ++ " prefix (needed to call " ++ m.text ++
      " on a value type by reference)"

def Found.text : Found → String
  | value s => s.text
  | classified s => s.text ++ " (" ++ s.category.text ++ ")"
  | type t => t.name
  | arrayOf t => t.name ++ "[]"

def FlowFault.text : FlowFault → String
  | leaveOutside => "leave can only exit a protected region or handler"
  | retInside => "ret cannot be used inside a protected region or handler (use leave)"
  | voidReturn depth =>
    "stack must be empty when returning from a void method, but it holds " ++ toString depth ++
      " value(s)"
  | returnDepth depth =>
    "stack must hold only the return value, but it holds " ++ toString depth ++ " values"
  | rethrowOutside => "rethrow is only allowed inside a catch handler"
  | endfinallyOutside => "endfinally is only allowed inside a finally handler"
  | jmpDepth depth =>
    "stack must be empty for jmp, but it holds " ++ toString depth ++ " value(s)"
  | jmpInside => "jmp cannot be used inside a protected region or handler"
  | regionFallsThrough => "regions must end with leave, throw, rethrow, or endfinally"
  | tryDepth depth =>
    "stack must be empty at the start of a protected region, but it holds " ++ toString depth ++
      " value(s)"

def OperandFault.text : OperandFault → String
  | noArgument index count =>
    "argument " ++ toString index ++ " does not exist (the method has " ++ toString count ++
      " arguments)"
  | noLocal index count =>
    "local " ++ toString index ++ " does not exist (the method has " ++ toString count ++ " locals)"
  | staticVirtualCall m => m.text ++ " is static and cannot be called with callvirt"
  | staticFunctionPointer m => m.text ++ " is static and has no virtual function pointer"
  | notConstructor m => m.text ++ " is not an instance constructor"
  | abstractType t => t.name ++ " is abstract and cannot be instantiated"
  | unboxReference t => "unbox needs a value type, but " ++ t.name ++ " is not one"
  | staticField f instead => f.text ++ " is static (use " ++ instead ++ ")"
  | instanceField f => f.text ++ " is an instance field"
  | checkedFloat c => "there is no overflow checked conversion to " ++ c.text
  | missingMethod t m => t.name ++ " does not have a method " ++ m.text
  | allocationDepth => "localloc requires the stack to be otherwise empty"
  | unverifiable mnemonic => mnemonic ++ " is not verifiable"
  | jumpSignature m =>
    "jmp target " ++ m.text ++ " does not have the same signature as the current method"
  | tooManyLocals => "a method body can have at most 65535 locals"
  | undeclaredLocal index => "local " ++ toString index ++ " does not exist"

def VerifyError.message : VerifyError → String
  | underflow reason => "stack underflow, " ++ reason
  | mismatch expected found => "expected " ++ expected.text ++ " but found " ++ found.text
  | illegalOperands left right =>
    "cannot perform operation on types " ++ left.text ++ " and " ++ right.text
  | controlFlow fault => fault.text
  | operand fault => fault.text

end ManagedCode
