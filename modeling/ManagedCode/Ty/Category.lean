import ManagedCode.Ty.Library

namespace ManagedCode

/-! What kind of machine value a type stands for on the evaluation stack (ECMA-335 III.1.5). -/

inductive Category where
  /-- Also every narrower integer, truth values and characters. -/
  | int32
  | int64
  | nativeInt
  /-- Both widths of floating-point numbers. -/
  | float
  | pointer
  | managedPointer
  /-- Also every struct. -/
  | object
  | zero
  deriving DecidableEq

namespace Category

def isInteger : Category → Bool
  | int32 | int64 | nativeInt => true
  | _ => false

def isNumeric : Category → Bool
  | int32 | int64 | nativeInt | float => true
  | _ => false

def text : Category → String
  | int32 => "int32"
  | int64 => "int64"
  | nativeInt => "native int"
  | float => "F"
  | pointer => "*"
  | managedPointer => "&"
  | object => "O"
  | zero => "null"

end Category

def Primitive.category : Primitive → Category
  | .boolean | .char | .sbyte | .byte | .int16 | .uint16 | .int32 | .uint32 => .int32
  | .int64 | .uint64 => .int64
  | .intPtr | .uintPtr => .nativeInt
  | .single | .double => .float

/-- Integers of one size are interchangeable in memory. The native size is its own. -/
def Primitive.integerSize? : Primitive → Option Nat
  | .boolean | .sbyte | .byte => some 1
  | .char | .int16 | .uint16 => some 2
  | .int32 | .uint32 => some 4
  | .int64 | .uint64 => some 8
  | .intPtr | .uintPtr => some 0
  | .single | .double => none

namespace Ty

def category : Ty → Category
  | primitive kind _ => kind.category
  | enum _ _ underlying => underlying.category
  | byRef _ => .managedPointer
  | pointer _ => .pointer
  | object | subclass _ _ _ | interface _ | struct _ _ | array _ _ | bareArray _ => .object

/-- The type that stands for a whole category in arithmetic, taken to be the library's own. The
floating-point types keep their width, and types outside the numeric categories stay as they are. -/
def canonical : Ty → Ty
  | enum _ _ underlying => underlying.canonical
  | t@(primitive kind _) =>
    match kind.category with
    | .float => t
    | .int64 => int64
    | .nativeInt => intPtr
    | _ => int32
  | t => t

/-- The size of an integer or of an enumeration right over one. -/
def integerSize? (t : Ty) : Option Nat :=
  (t.underlying?.getD t).primitive?.bind Primitive.integerSize?

end Ty

end ManagedCode
