import ManagedCode.Graph.Basic
import ManagedCode.Graph.Reach

namespace ManagedCode.Graph

/-! Which values may stand where a declared type is asked for. -/

/-- Every type that some edge of the graph leads to, and the base types behind it. -/
def targets (g : Graph) : List Ty :=
  g.entries.flatMap fun e => e.interfaces.flatMap Ty.ancestors

/-- The interfaces declared along the chain of base types, and all that these extend. -/
def allInterfaces (g : Graph) (t : Ty) : List Ty :=
  reachable g.interfaces g.targets (t.ancestors.flatMap g.interfaces)

/-- Edges lead to the base type and to the declared interfaces. -/
def supertypes (g : Graph) (t : Ty) : List Ty :=
  t.base?.toList ++ g.interfaces t

/-- An interface is searched for along all edges, any other type along the base types. -/
def inherits (g : Graph) (t super : Ty) : Bool :=
  if super.isInterface then
    (reachable g.supertypes (t.ancestors ++ g.targets) [t]).contains super
  else t.ancestors.contains super

/-- Assignability of distinct types that are not both arrays. Every reference is an object. A value
type only stands for the interfaces that it implements. -/
def conforms (g : Graph) (t super : Ty) : Bool :=
  if super.referent?.isSome then false
  else if t.isReference then super.name == Ty.objectName.text || g.inherits t super
  else if t.isValueType then super.isInterface && (g.allInterfaces t).contains super
  else false

/-- Arrays are covariant in reference types. -/
def isAssignable (g : Graph) : Ty → Ty → Bool
  | .array element base, super =>
    let t := Ty.array element base
    t = super ||
      match super.element? with
      | some target => element.isReference && target.isReference && g.isAssignable element target
      | none => g.conforms t super
  | .bareArray element, super =>
    let t := Ty.bareArray element
    t = super ||
      match super.element? with
      | some target => element.isReference && target.isReference && g.isAssignable element target
      | none => g.conforms t super
  | t, super => t = super || g.conforms t super

theorem isAssignable_self (g : Graph) (t : Ty) : g.isAssignable t t = true := by
  cases t <;> simp [isAssignable]

end ManagedCode.Graph
