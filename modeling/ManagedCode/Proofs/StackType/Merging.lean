import ManagedCode.Proofs.StackType.Flow
import Mathlib.Data.List.Pairwise

namespace ManagedCode

/-! Stacks that meet, one after the other: what they leave behind in each slot. -/

namespace Shape

variable {shape arriving recorded : Shape}

/-- The two stacks can arrive at the same label. -/
def Meets (shape recorded : Shape) : Prop := shape.flowsInto recorded = true

theorem Meets.symm (h : shape.Meets recorded) : recorded.Meets shape :=
  flowsInto_iff.mpr ((flowsInto_iff.mp h).flip.imp fun _ _ => StackType.flowsInto_symm)

instance : Std.Symm Meets := ⟨fun _ _ => Meets.symm⟩

theorem meets_self (shape : Shape) : shape.Meets shape :=
  flowsInto_iff.mpr (List.forall₂_same.mpr fun s _ =>
    StackType.flowsInto_of_interchangeable (.same s))

theorem Meets.length_eq (h : shape.Meets recorded) : shape.length = recorded.length :=
  (flowsInto_iff.mp h).length_eq

theorem meets_unify (h : arriving.Meets recorded) :
    shape.Meets (arriving.unify recorded) ↔ shape.Meets arriving ∧ shape.Meets recorded := by
  induction flowsInto_iff.mp h generalizing shape with
  | nil => exact ⟨fun hshape => ⟨hshape, hshape⟩, And.left⟩
  | @cons s t rest below hslot hrest ih =>
      cases shape with
      | nil => exact ⟨nofun, nofun⟩
      | cons u shape =>
          have hbelow : Meets shape (unify rest below) ↔ Meets shape rest ∧ Meets shape below :=
            ih (flowsInto_iff.mpr hrest)
          simp only [Meets, unify, flowsInto, Bool.and_eq_true] at hbelow ⊢
          rw [StackType.flowsInto_unify hslot, hbelow]
          exact and_and_and_comm

theorem unify_eq_zipWith (h : arriving.length = recorded.length) :
    arriving.unify recorded = List.zipWith StackType.unify arriving recorded := by
  induction arriving generalizing recorded with
  | nil => exact List.length_eq_zero_iff.mp h.symm
  | cons s rest ih =>
      cases recorded with
      | nil => rfl
      | cons t below => rw [unify, ih (Nat.succ.inj h), List.zipWith_cons_cons]

theorem length_unify (arriving recorded : Shape) :
    (arriving.unify recorded).length = recorded.length := by
  induction arriving generalizing recorded with
  | nil => rfl
  | cons s rest ih =>
      cases recorded with
      | nil => rfl
      | cons t below => exact congrArg (· + 1) (ih below)

/-- Null slots may give way to what arrives in them. Nothing else changes. -/
def Refines (arriving recorded recorded' : Shape) : Prop :=
  recorded'.length = recorded.length ∧
    ∀ (k : Nat) (t t' : StackType), recorded[k]? = some t → recorded'[k]? = some t' →
      t' = t ∨ t = .zero ∧ arriving[k]? = some t' ∧ t'.isStruct = false

theorem refines_unify (h : arriving.Meets recorded) :
    arriving.Refines recorded (arriving.unify recorded) := by
  refine ⟨length_unify arriving recorded, fun k t t' ht ht' => ?_⟩
  obtain ⟨hk, rfl⟩ := List.getElem?_eq_some_iff.mp ht
  have hk' : k < arriving.length := h.length_eq ▸ hk
  have hflows := (List.forall₂_iff_get.mp (flowsInto_iff.mp h)).2 k hk' hk
  rw [unify_eq_zipWith h.length_eq] at ht'
  obtain ⟨-, rfl⟩ := List.getElem?_eq_some_iff.mp ht'
  rw [List.getElem_zipWith]
  simp only [List.get_eq_getElem] at hflows
  by_cases hzero : recorded[k] = .zero
  · rw [hzero] at hflows ⊢
    exact .inr ⟨rfl, List.getElem?_eq_getElem hk', StackType.flowsInto_zero.mp hflows⟩
  · exact .inl (StackType.unify_of_ne_zero _ hzero)

/-- What is on record after all the arrivals. -/
def merge (recorded : Shape) (arrivals : List Shape) : Shape :=
  arrivals.foldl (fun recorded shape => shape.unify recorded) recorded

theorem length_merge (recorded : Shape) (arrivals : List Shape) :
    (merge recorded arrivals).length = recorded.length := by
  induction arrivals generalizing recorded with
  | nil => rfl
  | cons shape rest ih => exact (ih (shape.unify recorded)).trans (length_unify shape recorded)

/-- What has arrived in one slot, in the order of the arrivals. -/
def slot (k : Nat) (arrivals : List Shape) : List StackType := arrivals.filterMap (·[k]?)

/-- Null, unless there is another value. -/
def firstValue (values : List StackType) : StackType := (values.find? (· ≠ .zero)).getD .zero

theorem firstValue_singleton (s : StackType) : firstValue [s] = s := by
  cases s <;> rfl

theorem firstValue_unify (s t : StackType) (values : List StackType) :
    firstValue (t.unify s :: values) = firstValue (s :: t :: values) := by
  cases s <;> rfl

theorem slot_cons {k : Nat} (hk : k < shape.length) (arrivals : List Shape) :
    slot k (shape :: arrivals) = shape[k] :: slot k arrivals := by
  simp [slot, hk]

theorem flowsInto_of_mem_slot {k : Nat} {arrivals : List Shape} (h : arrivals.Pairwise Meets) :
    ∀ s ∈ slot k arrivals, ∀ t ∈ slot k arrivals, s.flowsInto t = true := by
  intro s hs t ht
  obtain ⟨shape, hshape, hslot⟩ := List.mem_filterMap.mp hs
  obtain ⟨other, hother, hslot'⟩ := List.mem_filterMap.mp ht
  have hmeets : shape.Meets other :=
    List.Pairwise.forall_of_forall (fun shape _ => meets_self shape) h hshape hother
  obtain ⟨hk, rfl⟩ := List.getElem?_eq_some_iff.mp hslot
  obtain ⟨hk', rfl⟩ := List.getElem?_eq_some_iff.mp hslot'
  exact (List.forall₂_iff_get.mp (flowsInto_iff.mp hmeets)).2 k hk hk'

/-- A slot ends up as the first value that has arrived in it. -/
theorem getElem?_merge {arrivals : List Shape} {k : Nat} (hk : k < recorded.length)
    (h : ∀ shape ∈ arrivals, shape.length = recorded.length) :
    (merge recorded arrivals)[k]? = some (firstValue (slot k (recorded :: arrivals))) := by
  induction arrivals generalizing recorded with
  | nil =>
      rw [slot_cons hk, slot, List.filterMap_nil, firstValue_singleton]
      exact List.getElem?_eq_getElem hk
  | cons shape rest ih =>
      obtain ⟨hshape, hrest⟩ := List.forall_mem_cons.mp h
      have hlength := length_unify shape recorded
      have hk' : k < (shape.unify recorded).length := hlength ▸ hk
      have hshapek : k < shape.length := hshape ▸ hk
      have hslot : (shape.unify recorded)[k] = shape[k].unify recorded[k] := by
        simp only [unify_eq_zipWith hshape, List.getElem_zipWith]
      have hmerge := ih hk' (hlength ▸ hrest)
      rw [slot_cons hk', hslot, firstValue_unify] at hmerge
      rw [slot_cons hk, slot_cons hshapek]
      exact hmerge

/-- The order of the values in a slot does not matter either, as long as they go together. -/
theorem firstValue_perm {values values' : List StackType} (hperm : values.Perm values')
    (h : ∀ s ∈ values, ∀ t ∈ values, s.flowsInto t = true) :
    (firstValue values).isConsistentWith (firstValue values') = true := by
  unfold firstValue
  cases hfirst : values.find? (· ≠ .zero) with
  | none =>
      have hnulls := List.find?_eq_none.mp hfirst
      have hfirst' : values'.find? (· ≠ .zero) = none :=
        List.find?_eq_none.mpr fun s hs => hnulls s (hperm.mem_iff.mpr hs)
      rw [hfirst']
      rfl
  | some s =>
      have hs : s ≠ .zero := by simpa using List.find?_some hfirst
      have hmem := List.mem_of_find?_eq_some hfirst
      cases hfirst' : values'.find? (· ≠ .zero) with
      | none =>
          have hnull := List.find?_eq_none.mp hfirst' s (hperm.mem_iff.mp hmem)
          exact absurd (decide_eq_true hs) hnull
      | some t =>
          have ht : t ≠ .zero := by simpa using List.find?_some hfirst'
          have hmem' := hperm.mem_iff.mpr (List.mem_of_find?_eq_some hfirst')
          exact StackType.isConsistentWith_of_flowsInto (h s hmem t hmem') hs ht

end Shape

end ManagedCode
