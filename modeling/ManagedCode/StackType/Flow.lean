import ManagedCode.StackType.Basic

namespace ManagedCode

/-! Which values may arrive at a slot whose type is on record. -/

namespace StackType

/-- Interchangeable slots: numbers of one category, and otherwise equal types. -/
def isConsistentWith (s t : StackType) : Bool :=
  if s.category.isNumeric then s.category = t.category else s = t

/-- The null literal meets every slot but a struct, from either side. -/
def flowsInto (s recorded : StackType) : Bool :=
  s.isConsistentWith recorded ||
    match s, recorded with
    | zero, t => !t.isStruct
    | t, zero => !t.isStruct
    | _, _ => false

/-- The slot after the value has arrived: a null literal gives way. -/
def unify (s recorded : StackType) : StackType :=
  match recorded with
  | zero => s
  | t => t

end StackType

/-- The types of the values on a stack, from the top down. -/
abbrev Shape := List StackType

namespace Shape

def flowsInto : Shape → Shape → Bool
  | [], [] => true
  | s :: shape, t :: recorded => s.flowsInto t && flowsInto shape recorded
  | _, _ => false

def unify : Shape → Shape → Shape
  | s :: shape, t :: recorded => s.unify t :: unify shape recorded
  | _, recorded => recorded

/-- The texts of the slots, from the bottom up. -/
def texts (shape : Shape) : List String :=
  shape.reverse.map StackType.text

end Shape

namespace StackType

/-! What two values have in common. -/

/-- The base class of an object reference, and all of its interfaces. -/
def capabilities (g : Graph) : StackType → Ty × List Ty
  | zero => (.object, [])
  | simple t =>
    if t.isInterface then (.object, t :: g.allInterfaces t) else (t, g.allInterfaces t)
  | complex base interfaces =>
    (base, g.allInterfaces base ++ interfaces.types ++ interfaces.types.flatMap g.allInterfaces)

/-- The nearest common base type, with the common interfaces that it does not have itself. -/
def meet (g : Graph) (s t : StackType) : StackType :=
  let (base, interfaces) := s.capabilities g
  let (other, others) := t.capabilities g
  let common := (base.ancestors.find? (g.isAssignable other)).getD .object
  let extra := InterfaceSet.ofList <|
    interfaces.filter fun i => others.contains i && !g.isAssignable common i
  if extra.isEmpty then simple common else complex common extra

/-- A type that both values fit, if there is one. -/
def join (g : Graph) (s t : StackType) : Option StackType :=
  if s.fits g t then some t
  else if t.fits g s then some s
  else if s.isConsistentWith t then some s
  else if s.isObjectReference && t.isObjectReference then some (meet g s t)
  else none

end StackType

end ManagedCode
