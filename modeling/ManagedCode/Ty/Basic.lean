import ManagedCode.Attributes
import ManagedCode.Name

namespace ManagedCode

/-! Managed types. A type is its whole description, so equal types are the same type. -/

/-- The value types that have instructions of their own. -/
inductive Primitive where
  | boolean
  | char
  | sbyte
  | byte
  | int16
  | uint16
  | int32
  | uint32
  | int64
  | uint64
  | intPtr
  | uintPtr
  | single
  | double
  deriving DecidableEq

def Primitive.typeName : Primitive → TypeName
  | .boolean => ⟨"System.Boolean", by decide⟩
  | .char => ⟨"System.Char", by decide⟩
  | .sbyte => ⟨"System.SByte", by decide⟩
  | .byte => ⟨"System.Byte", by decide⟩
  | .int16 => ⟨"System.Int16", by decide⟩
  | .uint16 => ⟨"System.UInt16", by decide⟩
  | .int32 => ⟨"System.Int32", by decide⟩
  | .uint32 => ⟨"System.UInt32", by decide⟩
  | .int64 => ⟨"System.Int64", by decide⟩
  | .uint64 => ⟨"System.UInt64", by decide⟩
  | .intPtr => ⟨"System.IntPtr", by decide⟩
  | .uintPtr => ⟨"System.UIntPtr", by decide⟩
  | .single => ⟨"System.Single", by decide⟩
  | .double => ⟨"System.Double", by decide⟩

inductive Ty where
  /-- The root class. -/
  | object
  | subclass (name : TypeName) (base : Ty) (attributes : TypeAttributes)
  | interface (name : TypeName)
  | struct (name : TypeName) (base : Ty)
  | enum (name : TypeName) (base underlying : Ty)
  | primitive (kind : Primitive) (base : Ty)
  | array (element base : Ty)
  /-- An array made where no base class of arrays is known. -/
  | bareArray (element : Ty)
  | byRef (referent : Ty)
  | pointer (referent : Ty)
  deriving DecidableEq

namespace Ty

def objectName : TypeName := ⟨"System.Object", by decide⟩

/-- Arrays, by-refs and pointers are spelled by a suffix. -/
def name : Ty → String
  | object => objectName.text
  | subclass name _ _ => name.text
  | interface name => name.text
  | struct name _ => name.text
  | enum name _ _ => name.text
  | primitive kind _ => kind.typeName.text
  | array element _ => element.name ++ "[]"
  | bareArray element => element.name ++ "[]"
  | byRef referent => referent.name ++ "&"
  | pointer referent => referent.name ++ "*"

def base? : Ty → Option Ty
  | subclass _ base _ => some base
  | struct _ base => some base
  | enum _ base _ => some base
  | primitive _ base => some base
  | array _ base => some base
  | object | interface _ | bareArray _ | byRef _ | pointer _ => none

/-- The type itself, its base type, and so on. -/
def ancestors : Ty → List Ty
  | t@(subclass _ base _) => t :: base.ancestors
  | t@(struct _ base) => t :: base.ancestors
  | t@(enum _ base _) => t :: base.ancestors
  | t@(primitive _ base) => t :: base.ancestors
  | t@(array _ base) => t :: base.ancestors
  | t => [t]

theorem mem_ancestors_self (t : Ty) : t ∈ t.ancestors := by
  cases t <;> simp [ancestors]

theorem ancestors_eq (t : Ty) :
    t.ancestors = t :: (t.base?.map ancestors).getD [] := by
  cases t <;> rfl

def attributes : Ty → TypeAttributes
  | object => .publicBit
  | subclass _ _ attributes => TypeAttributes.publicBit.union attributes
  | interface _ => (TypeAttributes.publicBit.union .interfaceBit).union .abstractBit
  | struct _ _ | enum _ _ _ | primitive _ _ | array _ _ | bareArray _ | byRef _ | pointer _ =>
    TypeAttributes.publicBit.union .sealedBit

def isAbstract (t : Ty) : Bool :=
  t.attributes.includes .abstractBit

def isInterface : Ty → Bool
  | interface _ => true
  | _ => false

def isStruct : Ty → Bool
  | struct _ _ => true
  | _ => false

def isValueType : Ty → Bool
  | struct _ _ | enum _ _ _ | primitive _ _ => true
  | _ => false

/-- The values of reference types are object references. -/
def isReference : Ty → Bool
  | object | subclass _ _ _ | interface _ | array _ _ | bareArray _ => true
  | _ => false

def isByRef : Ty → Bool
  | byRef _ => true
  | _ => false

def isPointer : Ty → Bool
  | pointer _ => true
  | _ => false

def primitive? : Ty → Option Primitive
  | primitive kind _ => some kind
  | _ => none

def underlying? : Ty → Option Ty
  | enum _ _ underlying => some underlying
  | _ => none

def element? : Ty → Option Ty
  | array element _ => some element
  | bareArray element => some element
  | _ => none

def referent? : Ty → Option Ty
  | byRef referent => some referent
  | pointer referent => some referent
  | _ => none

end Ty

end ManagedCode
