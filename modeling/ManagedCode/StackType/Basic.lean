import ManagedCode.Graph.Assignable
import ManagedCode.Member
import ManagedCode.StackType.InterfaceSet

namespace ManagedCode

/-! What is known of a value on the evaluation stack. -/

inductive StackType where
  /-- The null literal. -/
  | zero
  | simple (type : Ty)
  /-- A value known by a base type and by interfaces. -/
  | complex (base : Ty) (interfaces : InterfaceSet)
  deriving DecidableEq

namespace StackType

def text : StackType → String
  | zero => "null"
  | simple t => t.name
  | complex base interfaces => base.name ++ "\x7b" ++ Ty.listText interfaces.types ++ "\x7d"

def category : StackType → Category
  | zero => .zero
  | simple t => t.category
  | complex _ _ => .object

def simple? : StackType → Option Ty
  | simple t => some t
  | _ => none

/-- A struct can neither be duplicated nor compared. -/
def isStruct : StackType → Bool
  | simple t => t.isStruct
  | _ => false

def isValueType : StackType → Bool
  | simple t => t.isValueType
  | _ => false

def isObjectReference : StackType → Bool
  | zero | complex _ _ => true
  | simple t => t.isReference

def canonical : StackType → StackType
  | simple t => simple t.canonical
  | s => s

/-- On the stack the types of one numeric category are interchangeable. -/
def isAssignableType (g : Graph) (source target : Ty) : Bool :=
  if source = target then true
  else if source.category.isNumeric && source.isValueType && target.isValueType then
    source.category = target.category
  else g.isAssignable source target

/-- May the value stand where the type is asked for? -/
def isAssignableTo (g : Graph) (s : StackType) (target : Ty) : Bool :=
  match s with
  | zero => target.isReference || target.isByRef || target.isPointer
  | simple source => isAssignableType g source target
  | complex base interfaces =>
    target = .object || g.isAssignable base target ||
      interfaces.types.any (g.isAssignable · target)

/-- May the value stand where the stack type is asked for? -/
def fits (g : Graph) (s target : StackType) : Bool :=
  match target with
  | zero => s = zero
  | simple t => s.isAssignableTo g t
  | complex base interfaces =>
    s.isAssignableTo g base && interfaces.types.all (s.isAssignableTo g)

end StackType

end ManagedCode
