import ManagedCode.Proofs.Builder.Operations
import ManagedCode.Proofs.StackType.Merging

namespace ManagedCode

/-! Stacks that arrive at a label before it is marked. The first of them is put on record, and yet
their order does not matter. -/

namespace Builder

variable {b b' : Builder} {l : Label} {name : String} {state : LabelState} {recorded shape : Shape}
  {shapes : List Shape}

/-- A stack arrives at a label. -/
def receive (l : Label) (b : Builder) (shape : Shape) : Except BuildError Builder := do
  b.checkArrival l shape
  return { b with labels := recordArrival b.labels l shape }

/-- One stack after the other arrives, as long as they are accepted. -/
def receiveAll (l : Label) (b : Builder) (shapes : List Shape) : Except BuildError Builder :=
  shapes.foldlM (receive l) b

theorem receive_ok : receive l b shape = .ok b' ↔
    ∃ state, b.labels[l]? = some state ∧ state.accepts shape = true ∧
      b' = { b with labels := recordArrival b.labels l shape } := by
  unfold receive
  cases hcheck : b.checkArrival l shape with
  | error e =>
      refine ⟨nofun, ?_⟩
      rintro ⟨state, hstate, haccepts, -⟩
      rw [checkArrival_ok (u := ()) |>.mpr ⟨state, hstate, haccepts⟩] at hcheck
      cases hcheck
  | ok =>
      obtain ⟨state, hstate, haccepts⟩ := checkArrival_ok.mp hcheck
      constructor
      · rintro ⟨⟩
        exact ⟨state, hstate, haccepts, rfl⟩
      · rintro ⟨-, -, -, rfl⟩
        rfl

theorem receiveAll_cons : receiveAll l b (shape :: shapes) = .ok b' ↔
    ∃ next, receive l b shape = .ok next ∧ receiveAll l next shapes = .ok b' := by
  rw [receiveAll, List.foldlM_cons]
  cases receive l b shape with
  | error e => exact ⟨nofun, nofun⟩
  | ok next => exact ⟨fun h => ⟨next, rfl, h⟩, by rintro ⟨_, ⟨⟩, h⟩; exact h⟩

/-- The label has not been marked, and this is on record for it. -/
def Awaits (b : Builder) (l : Label) (recorded : Shape) : Prop :=
  ∃ name, b.labels[l]? = some ⟨name, some recorded, false⟩

theorem Awaits.labelShape? (h : b.Awaits l recorded) : b.labelShape? l = some recorded := by
  obtain ⟨name, hstate⟩ := h
  exact labelShape?_eq_some.mpr ⟨_, hstate, rfl⟩

theorem getElem?_recordArrival (h : b.labels[l]? = some state) :
    (recordArrival b.labels l shape)[l]? = some (state.record shape) := by
  rw [recordArrival, List.getElem?_modify, h]
  simp

theorem receive_fresh (h : b.labels[l]? = some ⟨name, none, false⟩) (shape : Shape) :
    ∃ next, receive l b shape = .ok next ∧ next.Awaits l shape :=
  ⟨_, receive_ok.mpr ⟨_, h, rfl, rfl⟩, name, getElem?_recordArrival h⟩

/-- A label that has been reached accepts what meets the stack on record. -/
theorem Awaits.meets_of_receive (h : b.Awaits l recorded) (hrun : receive l b shape = .ok b') :
    recorded.Meets shape ∧ b'.Awaits l (shape.unify recorded) := by
  obtain ⟨name, hstate⟩ := h
  obtain ⟨state, hstate', haccepts, rfl⟩ := receive_ok.mp hrun
  cases hstate.symm.trans hstate'
  exact ⟨Shape.Meets.symm haccepts, name, getElem?_recordArrival hstate⟩

theorem Awaits.receive_of_meets (h : b.Awaits l recorded) (hmeets : recorded.Meets shape) :
    ∃ next, receive l b shape = .ok next := by
  obtain ⟨name, hstate⟩ := h
  exact ⟨_, receive_ok.mpr ⟨_, hstate, hmeets.symm, rfl⟩⟩

/-- The order is lost in this condition: any two of the stacks meet. -/
theorem pairwise_unify (h : recorded.Meets shape) :
    (shape.unify recorded :: shapes).Pairwise Shape.Meets ↔
      (shape :: shapes).Pairwise Shape.Meets ∧ ∀ other ∈ shapes, recorded.Meets other := by
  have hmeets : ∀ other : Shape, (shape.unify recorded).Meets other ↔
      shape.Meets other ∧ recorded.Meets other := by
    intro other
    constructor
    · intro hother
      obtain ⟨hshape, hrecorded⟩ := (Shape.meets_unify h.symm).mp hother.symm
      exact ⟨hshape.symm, hrecorded.symm⟩
    · rintro ⟨hshape, hrecorded⟩
      exact ((Shape.meets_unify h.symm).mpr ⟨hshape.symm, hrecorded.symm⟩).symm
  simp only [List.pairwise_cons, hmeets]
  constructor
  · rintro ⟨hshapes, hrest⟩
    exact ⟨⟨fun other hother => (hshapes other hother).1, hrest⟩,
      fun other hother => (hshapes other hother).2⟩
  · rintro ⟨⟨hshapes, hrest⟩, hrecorded⟩
    exact ⟨fun other hother => ⟨hshapes other hother, hrecorded other hother⟩, hrest⟩

theorem Awaits.receiveAll (h : b.Awaits l recorded) :
    ((∃ after, Builder.receiveAll l b shapes = .ok after) ↔
      (recorded :: shapes).Pairwise Shape.Meets) ∧
    ∀ after, Builder.receiveAll l b shapes = .ok after →
      after.Awaits l (Shape.merge recorded shapes) := by
  induction shapes generalizing b recorded with
  | nil =>
      refine ⟨iff_of_true ⟨b, rfl⟩ (List.pairwise_singleton _ _), ?_⟩
      rintro _ ⟨⟩
      exact h
  | cons shape rest ih =>
      constructor
      · constructor
        · rintro ⟨after, hrun⟩
          obtain ⟨next, hnext, hrest⟩ := receiveAll_cons.mp hrun
          obtain ⟨hmeets, hawaits⟩ := h.meets_of_receive hnext
          obtain ⟨hpairs, hrecorded⟩ :=
            (pairwise_unify hmeets).mp ((ih hawaits).1.mp ⟨after, hrest⟩)
          exact List.pairwise_cons.mpr ⟨List.forall_mem_cons.mpr ⟨hmeets, hrecorded⟩, hpairs⟩
        · intro hpairs
          obtain ⟨hall, hpairs⟩ := List.pairwise_cons.mp hpairs
          obtain ⟨hmeets, hrecorded⟩ := List.forall_mem_cons.mp hall
          obtain ⟨next, hnext⟩ := h.receive_of_meets hmeets
          obtain ⟨-, hawaits⟩ := h.meets_of_receive hnext
          obtain ⟨after, hrest⟩ :=
            (ih hawaits).1.mpr ((pairwise_unify hmeets).mpr ⟨hpairs, hrecorded⟩)
          exact ⟨after, receiveAll_cons.mpr ⟨next, hnext, hrest⟩⟩
      · intro after hrun
        obtain ⟨next, hnext, hrest⟩ := receiveAll_cons.mp hrun
        exact (ih (h.meets_of_receive hnext).2).2 after hrest

/-- A label takes a list of stacks if and only if any two of them meet. -/
theorem receiveAll_fresh (h : b.labels[l]? = some ⟨name, none, false⟩) :
    (∃ after, receiveAll l b shapes = .ok after) ↔ shapes.Pairwise Shape.Meets := by
  cases shapes with
  | nil => exact iff_of_true ⟨b, rfl⟩ .nil
  | cons shape rest =>
      obtain ⟨next, hnext, hawaits⟩ := receive_fresh h shape
      rw [← hawaits.receiveAll.1]
      constructor
      · rintro ⟨after, hrun⟩
        obtain ⟨next', hnext', hrest⟩ := receiveAll_cons.mp hrun
        cases hnext.symm.trans hnext'
        exact ⟨after, hrest⟩
      · rintro ⟨after, hrest⟩
        exact ⟨after, receiveAll_cons.mpr ⟨next, hnext, hrest⟩⟩

/-- What is on record after the arrivals: in each slot the first value other than null. -/
theorem recorded_of_receiveAll (h : b.labels[l]? = some ⟨name, none, false⟩) (hne : shapes ≠ [])
    (hrun : receiveAll l b shapes = .ok b') :
    ∃ recorded, b'.labelShape? l = some recorded ∧
      (∀ shape ∈ shapes, shape.length = recorded.length) ∧
      ∀ k < recorded.length, recorded[k]? = some (Shape.firstValue (Shape.slot k shapes)) := by
  obtain ⟨shape, rest, rfl⟩ := List.exists_cons_of_ne_nil hne
  obtain ⟨hmeets, -⟩ := List.pairwise_cons.mp ((receiveAll_fresh h).mp ⟨b', hrun⟩)
  obtain ⟨next, hnext, hrest⟩ := receiveAll_cons.mp hrun
  obtain ⟨next', hnext', hawaits⟩ := receive_fresh h shape
  cases hnext.symm.trans hnext'
  have hlengths : ∀ other ∈ rest, other.length = shape.length := fun other hother =>
    (hmeets other hother).length_eq.symm
  refine ⟨Shape.merge shape rest, (hawaits.receiveAll.2 b' hrest).labelShape?, ?_, ?_⟩
  · rw [Shape.length_merge]
    exact List.forall_mem_cons.mpr ⟨rfl, hlengths⟩
  · rw [Shape.length_merge]
    exact fun k hk => Shape.getElem?_merge hk hlengths

/-- The order in which stacks arrive at a label decides neither whether they are accepted nor, apart
from the choice among interchangeable types, what is on record for the label afterwards. -/
theorem merged_in_any_order (b : Builder) (l : Label) (name : String) (shapes shapes' : List Shape)
    (hfresh : b.labels[l]? = some ⟨name, none, false⟩) (hne : shapes ≠ [])
    (hperm : shapes.Perm shapes') :
    ((∃ after, receiveAll l b shapes = .ok after) ↔ ∃ after, receiveAll l b shapes' = .ok after) ∧
    ∀ after after', receiveAll l b shapes = .ok after → receiveAll l b shapes' = .ok after' →
      ∃ recorded recorded', after.labelShape? l = some recorded ∧
        after'.labelShape? l = some recorded' ∧ recorded.length = recorded'.length ∧
        List.Forall₂ (fun s t => s.isConsistentWith t = true) recorded recorded' ∧
        ∀ k < recorded.length,
          recorded[k]? = some (Shape.firstValue (Shape.slot k shapes)) ∧
          recorded'[k]? = some (Shape.firstValue (Shape.slot k shapes')) := by
  have hpairs := hperm.pairwise_iff (R := Shape.Meets) Shape.Meets.symm
  refine ⟨(receiveAll_fresh hfresh).trans (hpairs.trans (receiveAll_fresh hfresh).symm), ?_⟩
  intro after after' hrun hrun'
  have hne' : shapes' ≠ [] := fun hnil => hne (hnil ▸ hperm).eq_nil
  obtain ⟨recorded, hrecorded, hlengths, hslots⟩ := recorded_of_receiveAll hfresh hne hrun
  obtain ⟨recorded', hrecorded', hlengths', hslots'⟩ := recorded_of_receiveAll hfresh hne' hrun'
  obtain ⟨shape, hshape⟩ := List.exists_mem_of_ne_nil shapes hne
  have hlength : recorded.length = recorded'.length :=
    (hlengths shape hshape).symm.trans (hlengths' shape (hperm.mem_iff.mp hshape))
  have hmeets : shapes.Pairwise Shape.Meets := (receiveAll_fresh hfresh).mp ⟨after, hrun⟩
  refine ⟨recorded, recorded', hrecorded, hrecorded', hlength, ?_, ?_⟩
  · refine List.forall₂_iff_get.mpr ⟨hlength, fun k hk hk' => ?_⟩
    have hslot := (List.getElem_eq_iff hk).mpr (hslots k hk)
    have hslot' := (List.getElem_eq_iff hk').mpr (hslots' k hk')
    rw [List.get_eq_getElem, List.get_eq_getElem, hslot, hslot']
    exact Shape.firstValue_perm (hperm.filterMap _) (Shape.flowsInto_of_mem_slot hmeets)
  · exact fun k hk => ⟨hslots k hk, hslots' k (hlength ▸ hk)⟩

theorem merged_in_any_order_numbers :
    let b := { new .empty [] none with labels := [⟨"L", none, false⟩] }
    let reached := fun recorded : Shape => { b with labels := [⟨"L", some recorded, false⟩] }
    let nulls : Shape := [.zero, .zero]
    let number : Shape := [.zero, .simple .int32]
    let truth : Shape := [.simple .string, .simple .boolean]
    let recorded : Shape := [.simple .string, .simple .int32]
    ((∃ after, receiveAll 0 b [nulls, number, truth] = .ok after) ↔
      ∃ after, receiveAll 0 b [truth, nulls, number] = .ok after) ∧
    receiveAll 0 b [nulls, number, truth] = .ok (reached recorded) ∧
    receiveAll 0 b [truth, nulls, number] = .ok (reached truth) ∧
    List.Forall₂ (fun s t => s.isConsistentWith t = true) recorded truth := by
  intro b reached nulls number truth recorded
  have hperm : ([nulls, number] ++ [truth]).Perm ([truth] ++ [nulls, number]) :=
    List.perm_append_comm
  obtain ⟨haccepted, hmerged⟩ :=
    merged_in_any_order b 0 "L" _ _ rfl (List.cons_ne_nil _ _) hperm
  have hrun : receiveAll 0 b [nulls, number, truth] = .ok (reached recorded) := rfl
  have hrun' : receiveAll 0 b [truth, nulls, number] = .ok (reached truth) := rfl
  obtain ⟨_, _, hrecorded, hrecorded', -, hslots, -⟩ := hmerged _ _ hrun hrun'
  cases hrecorded
  cases hrecorded'
  exact ⟨haccepted, hrun, hrun', hslots⟩

end Builder

end ManagedCode
