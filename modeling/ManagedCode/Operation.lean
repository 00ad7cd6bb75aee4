import ManagedCode.StackType.Basic

namespace ManagedCode

/-! The binary operators: which operands they take and what they give (ECMA-335 III.1.5). -/

inductive Operation where
  | add
  | subtract
  | multiplicative
  /-- Bit operations, unsigned division and checked arithmetic. -/
  | integer
  | shift
  | compareEqual
  | compareOrdered
  /-- Also compares an object reference with null. -/
  | compareUnsigned
  deriving DecidableEq

namespace Operation

open Category

def isComparison : Operation → Bool
  | compareEqual | compareOrdered | compareUnsigned => true
  | _ => false

/-- The operands that every operator but a shift takes. -/
def takesIntegers : Category → Category → Bool
  | .int32, .int32 | .int32, .nativeInt | .nativeInt, .int32 | .nativeInt, .nativeInt => true
  | .int64, .int64 => true
  | .zero, .zero => true
  | .zero, c | c, .zero => c.isInteger
  | _, _ => false

def takesNumbers : Category → Category → Bool
  | .float, .float | .float, .zero | .zero, .float => true
  | l, r => takesIntegers l r

/-- Pointers of one kind against each other or against a native integer. -/
def takesAddresses : Category → Category → Bool
  | .managedPointer, .managedPointer | .pointer, .pointer => true
  | .nativeInt, .managedPointer | .nativeInt, .pointer => true
  | .managedPointer, .nativeInt | .pointer, .nativeInt => true
  | _, _ => false

def takesObjects : Category → Category → Bool
  | .object, .object | .object, .zero | .zero, .object => true
  | _, _ => false

/-- The operand table: does the operator take a left and a right operand of these categories? -/
def allows (op : Operation) (left right : Category) : Bool :=
  match op with
  | add =>
    takesNumbers left right ||
      match left, right with
      | .int32, .managedPointer | .int32, .pointer => true
      | .nativeInt, .managedPointer | .nativeInt, .pointer => true
      | .managedPointer, .int32 | .managedPointer, .nativeInt => true
      | .pointer, .int32 | .pointer, .nativeInt => true
      | .zero, .managedPointer | .zero, .pointer => true
      | .managedPointer, .zero | .pointer, .zero => true
      | _, _ => false
  | subtract =>
    takesNumbers left right ||
      match left, right with
      | .managedPointer, .int32 | .managedPointer, .nativeInt => true
      | .managedPointer, .managedPointer => true
      | .pointer, .int32 | .pointer, .nativeInt => true
      | .pointer, .pointer => true
      | .managedPointer, .zero | .pointer, .zero => true
      | _, _ => false
  | multiplicative => takesNumbers left right
  | integer => takesIntegers left right
  | shift =>
    match left, right with
    | .int32, .int32 | .int32, .nativeInt => true
    | .int64, .int32 | .int64, .nativeInt => true
    | .nativeInt, .int32 | .nativeInt, .nativeInt => true
    | .zero, .int32 | .zero, .nativeInt | .zero, .zero => true
    | .int32, .zero | .int64, .zero | .nativeInt, .zero => true
    | _, _ => false
  | compareEqual =>
    takesNumbers left right || takesAddresses left right || takesObjects left right ||
      match left, right with
      | .zero, .managedPointer | .zero, .pointer => true
      | .managedPointer, .zero | .pointer, .zero => true
      | _, _ => false
  | compareOrdered => takesNumbers left right || takesAddresses left right
  | compareUnsigned =>
    takesNumbers left right || takesAddresses left right || takesObjects left right

/-- The wider of two numbers. Arithmetic on a pointer stays a pointer, and the difference of two
pointers is a native integer. -/
def arithmeticResult (left right : StackType) : StackType :=
  match left.category, right.category with
  | .managedPointer, .managedPointer | .pointer, .pointer => .simple .intPtr
  | .managedPointer, _ | .pointer, _ => left.canonical
  | _, .managedPointer | _, .pointer => right.canonical
  | .nativeInt, _ | _, .nativeInt => .simple .intPtr
  | .float, .float =>
    if left.canonical = .simple .double then left.canonical else right.canonical
  | _, _ => left.canonical

/-- The null literal takes on the type of the other operand. A shift has the type of the value that
is shifted. -/
def valueResult (op : Operation) (left right : StackType) : StackType :=
  match left.category, right.category with
  | .zero, .zero => if op = shift then .simple .int32 else .zero
  | .zero, _ => if op = shift then .simple .int32 else right.canonical
  | _, .zero => left.canonical
  | _, _ => if op = shift then left.canonical else arithmeticResult left right

/-- The type of the result, if the operands are legal. A comparison has an `int32` for a truth
value. -/
def result? (op : Operation) (left right : StackType) : Option StackType :=
  if !op.allows left.category right.category then none
  else if op.isComparison then
    if left.isStruct || right.isStruct then none else some (.simple .int32)
  else some (op.valueResult left right)

end Operation

end ManagedCode
