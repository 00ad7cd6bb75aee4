import ManagedCode.Graph.Assignable
import Mathlib.Logic.Relation

namespace ManagedCode

/-! The searches of a graph follow its paths. The domains that they stay in are no restriction, for
no edge leads out of them. -/

section Reaches

variable {α : Type} {next : α → List α} {domain seeds : List α} {b : α}

theorem Reaches.exists_path (h : Reaches next domain seeds b) :
    ∃ a ∈ seeds, Relation.ReflTransGen (fun x y => y ∈ next x) a b := by
  induction h with
  | seed _ hseed => exact ⟨_, hseed, .refl⟩
  | step _ _ hnext ih =>
      obtain ⟨a, ha, hpath⟩ := ih
      exact ⟨a, ha, hpath.tail hnext⟩

theorem Reaches.mem_domain (h : Reaches next domain seeds b) : b ∈ domain := by
  cases h with
  | seed hdomain => exact hdomain
  | step _ hdomain => exact hdomain

theorem reaches_of_path (hclosed : ∀ x ∈ domain, ∀ y ∈ next x, y ∈ domain) {a : α}
    (hdomain : a ∈ domain) (hseed : a ∈ seeds)
    (hpath : Relation.ReflTransGen (fun x y => y ∈ next x) a b) : Reaches next domain seeds b := by
  induction hpath with
  | refl => exact .seed hdomain hseed
  | tail _ hnext ih => exact .step ih (hclosed _ ih.mem_domain _ hnext) hnext

theorem mem_reachable_iff_path [DecidableEq α] (hclosed : ∀ x ∈ domain, ∀ y ∈ next x, y ∈ domain)
    (hseeds : ∀ a ∈ seeds, a ∈ domain) :
    b ∈ reachable next domain seeds ↔
      ∃ a ∈ seeds, Relation.ReflTransGen (fun x y => y ∈ next x) a b := by
  rw [mem_reachable_iff]
  constructor
  · exact Reaches.exists_path
  · rintro ⟨a, ha, hpath⟩
    exact reaches_of_path hclosed (hseeds a ha) ha hpath

end Reaches

namespace Ty

variable {t u v : Ty}

/-- Induction along the base types. -/
theorem base_induction {P : Ty → Prop} (h : ∀ t, (∀ base, t.base? = some base → P base) → P t)
    (t : Ty) : P t := by
  induction t with
  | object | interface | bareArray | byRef | pointer => exact h _ fun _ hbase => nomatch hbase
  | subclass _ base _ ih | struct _ base ih | primitive _ base ih | enum _ base _ ih _
  | array _ base _ ih =>
      refine h _ fun base' hbase => ?_
      cases hbase
      exact ih

theorem mem_ancestors_iff :
    u ∈ t.ancestors ↔ u = t ∨ ∃ base, t.base? = some base ∧ u ∈ base.ancestors := by
  rw [ancestors_eq, List.mem_cons]
  cases t.base? with
  | none => simp
  | some base => simp

theorem mem_ancestors_of_base? (h : t.base? = some u) : u ∈ t.ancestors :=
  mem_ancestors_iff.mpr (.inr ⟨u, h, u.mem_ancestors_self⟩)

/-- What passes on from each type to its base type holds all the way up. -/
theorem mem_ancestors_induction {P : Ty → Prop}
    (hstep : ∀ {v base : Ty}, P v → v.base? = some base → P base) (ht : P t)
    (h : u ∈ t.ancestors) : P u := by
  induction t using base_induction with
  | h t ih =>
      rcases mem_ancestors_iff.mp h with rfl | ⟨base, hbase, hu⟩
      · exact ht
      · exact ih base hbase (hstep ht hbase) hu

theorem ancestors_suffix (h : u ∈ t.ancestors) : u.ancestors <:+ t.ancestors := by
  refine mem_ancestors_induction (P := fun v => v.ancestors <:+ t.ancestors) ?_ List.suffix_rfl h
  intro v base hv hbase
  rw [ancestors_eq v, hbase] at hv
  exact (List.suffix_cons v _).trans hv

theorem mem_ancestors_trans (h : u ∈ t.ancestors) (h' : v ∈ u.ancestors) : v ∈ t.ancestors :=
  (ancestors_suffix h).subset h'

end Ty

namespace Graph

variable {g : Graph} {t u v i : Ty}

/-- A path along base types and declared interfaces. -/
def Leads (g : Graph) : Ty → Ty → Prop :=
  Relation.ReflTransGen fun t u => u ∈ g.supertypes t

/-- A path along declared interfaces only. -/
def Extends (g : Graph) : Ty → Ty → Prop :=
  Relation.ReflTransGen fun i j => j ∈ g.interfaces i

theorem mem_supertypes : u ∈ g.supertypes t ↔ t.base? = some u ∨ u ∈ g.interfaces t := by
  rw [supertypes, List.mem_append, Option.mem_toList]

theorem leads_of_mem_ancestors (h : u ∈ t.ancestors) : g.Leads t u :=
  Ty.mem_ancestors_induction (fun hv hbase => hv.tail (mem_supertypes.mpr (.inl hbase))) .refl h

theorem Extends.leads (h : g.Extends t u) : g.Leads t u := by
  induction h with
  | refl => exact .refl
  | tail _ hstep ih => exact ih.tail (mem_supertypes.mpr (.inr hstep))

/-- What a type declares stands in its entry. -/
theorem exists_declaring {α : Type} {declared : Entry → List α} {a : α}
    (h : a ∈ ((g.entry? t).map declared).getD []) :
    ∃ e ∈ g.entries, e.type = t ∧ a ∈ declared e := by
  unfold entry? at h
  cases hentry : g.entries.find? (·.type = t) with
  | none =>
      rw [hentry] at h
      cases h
  | some e =>
      rw [hentry] at h
      exact ⟨e, List.mem_of_find?_eq_some hentry, by simpa using List.find?_some hentry, h⟩

theorem exists_entry (h : i ∈ g.interfaces t) : ∃ e ∈ g.entries, e.type = t ∧ i ∈ e.interfaces :=
  exists_declaring h

theorem mem_targets (h : i ∈ g.interfaces t) (hu : u ∈ i.ancestors) : u ∈ g.targets := by
  obtain ⟨e, he, -, hi⟩ := exists_entry h
  exact List.mem_flatMap.mpr ⟨e, he, List.mem_flatMap.mpr ⟨i, hi, hu⟩⟩

theorem targets_closed (h : t ∈ g.targets) (hu : u ∈ g.supertypes t) : u ∈ g.targets := by
  rcases mem_supertypes.mp hu with hbase | hinterface
  · obtain ⟨e, he, hi⟩ := List.mem_flatMap.mp h
    obtain ⟨i, hi, ht⟩ := List.mem_flatMap.mp hi
    have hu' : u ∈ i.ancestors := Ty.mem_ancestors_trans ht (Ty.mem_ancestors_of_base? hbase)
    exact List.mem_flatMap.mpr ⟨e, he, List.mem_flatMap.mpr ⟨i, hi, hu'⟩⟩
  · exact mem_targets hinterface u.mem_ancestors_self

/-- A type has a supertype if a path leads to it, and a base type if that is along base types. -/
theorem inherits_iff {super : Ty} :
    g.inherits t super = true ↔
      if super.isInterface then g.Leads t super else super ∈ t.ancestors := by
  unfold inherits
  cases super.isInterface with
  | false =>
      rw [if_neg Bool.false_ne_true, if_neg Bool.false_ne_true]
      exact List.contains_iff_mem
  | true =>
      rw [if_pos rfl, if_pos rfl, List.contains_iff_mem, mem_reachable_iff_path]
      · constructor
        · rintro ⟨a, ha, hpath⟩
          cases List.mem_singleton.mp ha
          exact hpath
        · intro hpath
          exact ⟨t, List.mem_singleton_self t, hpath⟩
      · intro x hx y hy
        rcases List.mem_append.mp hx with hancestor | htarget
        · rcases mem_supertypes.mp hy with hbase | hinterface
          · exact List.mem_append_left _
              (Ty.mem_ancestors_trans hancestor (Ty.mem_ancestors_of_base? hbase))
          · exact List.mem_append_right _ (mem_targets hinterface y.mem_ancestors_self)
        · exact List.mem_append_right _ (targets_closed htarget hy)
      · intro a ha
        cases List.mem_singleton.mp ha
        exact List.mem_append_left _ t.mem_ancestors_self

/-- The interfaces of a type are those that its base types declare, and what these extend. -/
theorem mem_allInterfaces_iff :
    i ∈ g.allInterfaces t ↔ ∃ a ∈ t.ancestors, ∃ j ∈ g.interfaces a, g.Extends j i := by
  unfold allInterfaces
  rw [mem_reachable_iff_path]
  · constructor
    · rintro ⟨j, hj, hpath⟩
      obtain ⟨a, ha, hj⟩ := List.mem_flatMap.mp hj
      exact ⟨a, ha, j, hj, hpath⟩
    · rintro ⟨a, ha, j, hj, hpath⟩
      exact ⟨j, List.mem_flatMap.mpr ⟨a, ha, hj⟩, hpath⟩
  · intro x _ y hy
    exact mem_targets hy y.mem_ancestors_self
  · intro j hj
    obtain ⟨a, -, hj⟩ := List.mem_flatMap.mp hj
    exact mem_targets hj j.mem_ancestors_self

theorem exists_declares_of_mem_allInterfaces (h : i ∈ g.allInterfaces t) :
    ∃ a, i ∈ g.interfaces a := by
  obtain ⟨a, -, j, hj, hpath⟩ := mem_allInterfaces_iff.mp h
  rcases Relation.ReflTransGen.cases_tail hpath with rfl | ⟨k, -, hk⟩
  · exact ⟨a, hj⟩
  · exact ⟨k, hk⟩

theorem leads_of_mem_allInterfaces (h : i ∈ g.allInterfaces t) : g.Leads t i := by
  obtain ⟨a, ha, j, hj, hpath⟩ := mem_allInterfaces_iff.mp h
  exact (leads_of_mem_ancestors ha).trans (.head (mem_supertypes.mpr (.inr hj)) hpath.leads)

end Graph

end ManagedCode
