import ManagedCode.Proofs.Graph.Interned

namespace ManagedCode

/-! Graphs that hold the library and, beyond it, only arrays, by-refs and pointers. These declare
nothing and have names of their own, so all that a graph is asked has the library's answer. -/

/-- What is made of a type where the base class of arrays is the library's. -/
def Construct.type : Construct → Ty → Ty
  | array, t => .arrayOf t
  | byRef, t => .byRef t
  | pointer, t => .pointer t

namespace Graph

variable {g g' : Graph} {t u : Ty} {c : Construct}

/-- The answers of a graph on assignability come from the declared interfaces alone. -/
theorem isAssignable_congr (hinterfaces : g.interfaces = g'.interfaces)
    (htargets : g.targets = g'.targets) : g.isAssignable = g'.isAssignable := by
  have hsupertypes : g.supertypes = g'.supertypes := by
    funext t
    rw [supertypes, supertypes, hinterfaces]
  have hconforms : g.conforms = g'.conforms := by
    funext t super
    simp only [conforms, inherits, allInterfaces, hsupertypes, hinterfaces, htargets]
  funext t
  induction t with
  | array element base ih _ | bareArray element ih =>
      funext super
      simp only [isAssignable, hconforms, ih]
  | object | subclass | interface | struct | enum | primitive | byRef | pointer =>
      funext super
      simp only [isAssignable, hconforms]

/-- The library, and what has been made of the types that were there, one at a time. -/
inductive Grown : Graph → Prop where
  | library : Grown .library
  | construct {g : Graph} {c : Construct} {t : Ty} : Grown g → t ∈ g.types →
      Grown (g.construct c t).2

theorem Sound.interned (h : g.Sound) : g.Interned where
  names := h.names
  referents ht hmade := h.parts _ ht _ (Ty.mem_parts_of_constructed? hmade)

namespace Grown

theorem built (h : g.Grown) : g.Built := by
  induction h with
  | library => exact .library
  | @construct g c t _ ht ih =>
      cases c with
      | array => exact ih.arrayOf ht
      | byRef => exact ih.byRef ht
      | pointer => exact ih.pointerTo ht

theorem construct_eq (h : g.Grown) (c : Construct) (ht : t ∈ g.types) :
    (g.construct c t).1 = c.type t := by
  have hmade := h.built.sound.interned.constructed?_construct c ht
  have hsound := (h.construct (c := c) ht).built.sound
  have hmem := constructed_mem g c t
  generalize (g.construct c t).1 = made at hmade hmem
  cases made with
  | array element base | bareArray element =>
      cases hmade
      exact hsound.arrays _ hmem t rfl
  | byRef | pointer =>
      cases hmade
      rfl
  | object | subclass | interface | struct | enum | primitive => cases hmade

theorem entries (h : g.Grown) : ∃ more : List Ty,
    g.entries = Graph.library.entries ++ more.map .ofType ∧
      ∀ t ∈ more, ∃ c u, t.constructed? = some (c, u) := by
  induction h with
  | library => exact ⟨[], by simp, nofun⟩
  | @construct g c t _ _ ih =>
      obtain ⟨more, hentries, hmore⟩ := ih
      obtain ⟨u, hrun, hu⟩ := Graph.construct_eq g c t
      rw [hrun]
      rcases declare_cases g u with ⟨-, hnew⟩ | hsame
      · refine ⟨more ++ [u], by simp [hnew, hentries], fun v hv => ?_⟩
        rcases List.mem_append.mp hv with hv | hv
        · exact hmore v hv
        · cases List.mem_singleton.mp hv
          exact ⟨c, t, hu⟩
      · rw [hsame]
        exact ⟨more, hentries, hmore⟩

theorem declared_eq {α : Type} {declared : Entry → List α}
    (hnone : ∀ t, declared (.ofType t) = []) (h : g.Grown) (t : Ty) :
    ((g.entry? t).map declared).getD [] = ((Graph.library.entry? t).map declared).getD [] := by
  obtain ⟨more, hentries, -⟩ := h.entries
  unfold entry?
  rw [hentries, List.find?_append]
  cases Graph.library.entries.find? (·.type = t) with
  | some e => rfl
  | none =>
      rw [Option.none_or]
      cases hfound : (more.map Entry.ofType).find? (·.type = t) with
      | none => rfl
      | some e =>
          obtain ⟨u, -, rfl⟩ := List.mem_map.mp (List.mem_of_find?_eq_some hfound)
          exact hnone u

theorem interfaces_eq (h : g.Grown) : g.interfaces = Graph.library.interfaces :=
  funext (declared_eq (fun _ => rfl) h)

theorem methods_eq (h : g.Grown) : g.methods = Graph.library.methods :=
  funext (declared_eq (fun _ => rfl) h)

theorem fields_eq (h : g.Grown) : g.fields = Graph.library.fields :=
  funext (declared_eq (fun _ => rfl) h)

theorem targets_eq (h : g.Grown) : g.targets = Graph.library.targets := by
  obtain ⟨more, hentries, -⟩ := h.entries
  rw [targets, targets, hentries, List.flatMap_append]
  simp [Entry.ofType]

theorem isAssignable_eq (h : g.Grown) : g.isAssignable = Graph.library.isAssignable :=
  isAssignable_congr h.interfaces_eq h.targets_eq

theorem methodsNamed_eq (h : g.Grown) (t : Ty) (name : String) :
    g.methodsNamed t name = Graph.library.methodsNamed t name := by
  rw [methodsNamed, methodsNamed, h.methods_eq]

theorem findField_eq (h : g.Grown) (t : Ty) (name : String) :
    g.findField t name = Graph.library.findField t name := by
  rw [findField, findField, h.fields_eq]

/-- A name without a suffix stands for a type of the library. -/
theorem lookup_eq (h : g.Grown) {name : String}
    (hname : ∀ (text : String) (c : Construct), name ≠ text ++ c.suffix) :
    g.lookup name = Graph.library.lookup name := by
  obtain ⟨more, hentries, hmore⟩ := h.entries
  have hmissing : more.find? (·.name == name) = none := by
    rw [List.find?_eq_none]
    intro t ht hfound
    obtain ⟨c, u, hmade⟩ := hmore t ht
    refine hname u.name c ?_
    rw [← Ty.name_of_constructed? hmade]
    exact (eq_of_beq hfound).symm
  have htypes : g.types = Graph.library.types ++ more := by
    simp [types, hentries, Function.comp_def, Entry.ofType]
  rw [lookup, lookup, htypes, List.find?_append, hmissing, Option.or_none]

end Grown

end Graph

end ManagedCode
