import ManagedCode.Proofs.StackType.Consistency
import Mathlib.Data.List.Forall2

namespace ManagedCode

/-! Arrivals slot by slot. -/

namespace StackType

/-- What may come to a slot behind which the code is already checked: a value that is as good as the
one on record, or the null literal. -/
def Enters (s recorded : StackType) : Prop :=
  s.isConsistentWith recorded = true ∨ s = zero ∧ recorded.isStruct = false

/-- A value comes to a slot behind which the code counts on the null literal. -/
def Supplants (s recorded : StackType) : Prop :=
  recorded = zero ∧ s ≠ zero ∧ s.isStruct = false

variable {s t recorded : StackType}

theorem flowsInto_iff : s.flowsInto recorded = true ↔ s.Enters recorded ∨ s.Supplants recorded := by
  constructor
  · intro h
    rcases Bool.or_eq_true_iff.mp h with hconsistent | hnull
    · exact .inl (.inl hconsistent)
    · cases s with
      | zero => exact .inl (.inr ⟨rfl, by simpa using hnull⟩)
      | simple | complex =>
          cases recorded with
          | zero => exact .inr ⟨rfl, nofun, by simpa using hnull⟩
          | simple | complex => cases hnull
  · rintro ((hconsistent | ⟨rfl, hstruct⟩) | ⟨rfl, hvalue, hstruct⟩)
    · exact Bool.or_eq_true_iff.mpr (.inl hconsistent)
    · exact Bool.or_eq_true_iff.mpr (.inr (by simp [hstruct]))
    · cases s with
      | zero => exact absurd rfl hvalue
      | simple | complex => exact Bool.or_eq_true_iff.mpr (.inr (by simp [hstruct]))

theorem eq_zero_of_enters (h : s.Enters zero) : s = zero := by
  rcases h with hconsistent | ⟨hnull, -⟩
  · cases isConsistentWith_iff.mp hconsistent
    rfl
  · exact hnull

/-- Among the arrivals that a label accepts, null is what decides. -/
theorem enters_iff_of_flowsInto (h : s.flowsInto recorded = true) :
    s.Enters recorded ↔ (recorded = zero → s = zero) := by
  constructor
  · rintro henters rfl
    exact eq_zero_of_enters henters
  · intro hnull
    rcases flowsInto_iff.mp h with henters | ⟨hrecorded, hvalue, -⟩
    · exact henters
    · exact absurd (hnull hrecorded) hvalue

/-! Which values go together in one slot, whichever of them comes first. -/

theorem flowsInto_cases : s.flowsInto t = true ↔
    s.Interchangeable t ∨ s = zero ∧ t.isStruct = false ∨ t = zero ∧ s.isStruct = false := by
  rw [flowsInto_iff, Enters, Supplants, isConsistentWith_iff]
  constructor
  · rintro ((hslots | hnull) | ⟨ht, -, hs⟩)
    · exact .inl hslots
    · exact .inr (.inl hnull)
    · exact .inr (.inr ⟨ht, hs⟩)
  · rintro (hslots | hnull | ⟨rfl, hs⟩)
    · exact .inl (.inl hslots)
    · exact .inl (.inr hnull)
    · by_cases hzero : s = zero
      · exact .inl (.inr ⟨hzero, rfl⟩)
      · exact .inr ⟨rfl, hzero, hs⟩

theorem flowsInto_of_interchangeable (h : s.Interchangeable t) : s.flowsInto t = true :=
  flowsInto_cases.mpr (.inl h)

theorem zero_flowsInto (h : t.isStruct = false) : zero.flowsInto t = true :=
  flowsInto_cases.mpr (.inr (.inl ⟨rfl, h⟩))

theorem flowsInto_symm (h : s.flowsInto t = true) : t.flowsInto s = true := by
  rcases flowsInto_cases.mp h with hslots | hnull | hnull
  · exact flowsInto_of_interchangeable hslots.symm
  · exact flowsInto_cases.mpr (.inr (.inr hnull))
  · exact flowsInto_cases.mpr (.inr (.inl hnull))

theorem flowsInto_zero : s.flowsInto zero = true ↔ s.isStruct = false := by
  rw [flowsInto_cases]
  constructor
  · rintro (hslots | ⟨rfl, -⟩ | ⟨-, hs⟩)
    · exact hslots.isStruct_eq
    · rfl
    · exact hs
  · exact fun hs => .inr (.inr ⟨rfl, hs⟩)

theorem isStruct_of_flowsInto (h : s.flowsInto t = true) (ht : t.isStruct = false) :
    s.isStruct = false := by
  rcases flowsInto_cases.mp h with hslots | ⟨rfl, -⟩ | ⟨-, hs⟩
  · exact hslots.isStruct_eq.trans ht
  · rfl
  · exact hs

/-- Null aside, what goes together with the same value goes together. -/
theorem flowsInto_trans (hs : s.flowsInto recorded = true) (ht : recorded.flowsInto t = true)
    (hrecorded : recorded ≠ zero) : s.flowsInto t = true := by
  rcases flowsInto_cases.mp ht with hslots | ⟨hzero, -⟩ | ⟨rfl, hstruct⟩
  · rcases flowsInto_cases.mp hs with hslots' | ⟨rfl, hstruct⟩ | ⟨hzero, -⟩
    · exact flowsInto_of_interchangeable (hslots'.trans hslots)
    · exact zero_flowsInto (hslots.isStruct_eq.symm.trans hstruct)
    · exact absurd hzero hrecorded
  · exact absurd hzero hrecorded
  · exact flowsInto_zero.mpr (isStruct_of_flowsInto hs hstruct)

theorem unify_of_ne_zero (s : StackType) (h : recorded ≠ zero) : s.unify recorded = recorded := by
  cases recorded with
  | zero => exact absurd rfl h
  | simple | complex => rfl

/-- What still goes together with a slot after an arrival went together with both before. -/
theorem flowsInto_unify (hs : s.flowsInto recorded = true) :
    t.flowsInto (s.unify recorded) = true ↔ t.flowsInto s = true ∧ t.flowsInto recorded = true := by
  by_cases hzero : recorded = zero
  · subst hzero
    refine ⟨fun ht => ⟨ht, ?_⟩, And.left⟩
    exact flowsInto_zero.mpr (isStruct_of_flowsInto ht (flowsInto_zero.mp hs))
  · rw [unify_of_ne_zero s hzero]
    exact ⟨fun ht => ⟨flowsInto_trans ht (flowsInto_symm hs) hzero, ht⟩, And.right⟩

/-- Values other than null that go together are interchangeable. -/
theorem isConsistentWith_of_flowsInto (h : s.flowsInto t = true) (hs : s ≠ zero) (ht : t ≠ zero) :
    s.isConsistentWith t = true := by
  rcases flowsInto_cases.mp h with hslots | ⟨hzero, -⟩ | ⟨hzero, -⟩
  · exact isConsistentWith_iff.mpr hslots
  · exact absurd hzero hs
  · exact absurd hzero ht

end StackType

theorem Shape.flowsInto_iff {shape recorded : Shape} :
    shape.flowsInto recorded = true ↔
      List.Forall₂ (fun s t => s.flowsInto t = true) shape recorded := by
  induction shape generalizing recorded with
  | nil =>
      cases recorded with
      | nil => exact ⟨fun _ => .nil, fun _ => rfl⟩
      | cons t recorded => exact ⟨nofun, nofun⟩
  | cons s shape ih =>
      cases recorded with
      | nil => exact ⟨nofun, nofun⟩
      | cons t recorded =>
          rw [Shape.flowsInto, Bool.and_eq_true, ih, List.forall₂_cons]

end ManagedCode
