import ManagedCode.Ty.Basic

namespace ManagedCode

/-! Sets of interfaces. Each set has one form: its members in the order of their names. -/

def ByName (types : List Ty) : Prop :=
  types.Pairwise fun a b => a.name < b.name

instance (types : List Ty) : Decidable (ByName types) :=
  inferInstanceAs (Decidable (types.Pairwise _))

def insertByName (t : Ty) : List Ty → List Ty
  | [] => [t]
  | u :: us =>
    if t.name < u.name then t :: u :: us
    else if u.name < t.name then u :: insertByName t us
    else u :: us

theorem mem_of_mem_insertByName {t v : Ty} {types : List Ty} (h : v ∈ insertByName t types) :
    v = t ∨ v ∈ types := by
  induction types with
  | nil => simpa [insertByName] using h
  | cons u us ih =>
    simp only [insertByName] at h
    split at h
    · simpa using h
    · split at h
      · rcases List.mem_cons.mp h with rfl | h
        · simp
        · rcases ih h with rfl | h <;> simp_all
      · exact .inr h

theorem ByName.insert {types : List Ty} (h : ByName types) (t : Ty) :
    ByName (insertByName t types) := by
  induction types with
  | nil => exact List.pairwise_singleton _ _
  | cons u us ih =>
    obtain ⟨hu, hus⟩ := List.pairwise_cons.mp h
    simp only [insertByName]
    split
    · rename_i htu
      refine List.pairwise_cons.mpr ⟨?_, h⟩
      intro v hv
      rcases List.mem_cons.mp hv with rfl | hv
      · exact htu
      · exact String.lt_trans htu (hu v hv)
    · split
      · rename_i hut
        refine List.pairwise_cons.mpr ⟨?_, ih hus⟩
        intro v hv
        rcases mem_of_mem_insertByName hv with rfl | hv
        · exact hut
        · exact hu v hv
      · exact h

structure InterfaceSet where
  types : List Ty
  byName : ByName types
  deriving DecidableEq

namespace InterfaceSet

def empty : InterfaceSet := ⟨[], .nil⟩

def insert (s : InterfaceSet) (t : Ty) : InterfaceSet :=
  ⟨insertByName t s.types, s.byName.insert t⟩

def ofList (types : List Ty) : InterfaceSet :=
  types.foldl insert empty

def isEmpty (s : InterfaceSet) : Bool := s.types.isEmpty

end InterfaceSet

end ManagedCode
