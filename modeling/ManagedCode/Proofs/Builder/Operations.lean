import ManagedCode.Proofs.Builder.Emit
import ManagedCode.Proofs.Verify.Step

namespace ManagedCode.Builder

/-! The operations that look at labels: what accepts them, and what they then do. -/

open Emit

theorem labelState_ok {b : Builder} {l : Label} {state : LabelState} :
    b.labelState l = .ok state ↔ b.labels[l]? = some state := by
  unfold labelState
  cases b.labels[l]? with
  | none => exact ⟨nofun, nofun⟩
  | some known => exact ⟨fun h => congrArg some (Except.ok.inj h), fun h => congrArg _ (Option.some.inj h)⟩

theorem labelShape?_eq_some {b : Builder} {l : Label} {recorded : Shape} :
    b.labelShape? l = some recorded ↔
      ∃ state, b.labels[l]? = some state ∧ state.shape = some recorded :=
  Option.bind_eq_some_iff

theorem checkArrival_ok {b : Builder} {l : Label} {arriving : Shape} {u : Unit} :
    b.checkArrival l arriving = .ok u ↔
      ∃ state, b.labels[l]? = some state ∧ state.accepts arriving = true := by
  unfold checkArrival
  constructor
  · intro h
    cases hstate : b.labelState l with
    | error e =>
        rw [hstate] at h
        cases h
    | ok state =>
        rw [hstate] at h
        refine ⟨state, labelState_ok.mp hstate, ?_⟩
        by_cases haccepts : state.accepts arriving = true
        · exact haccepts
        · simp [bind, Except.bind, haccepts] at h
  · rintro ⟨state, hstate, haccepts⟩
    rw [labelState_ok.mpr hstate]
    simp [bind, Except.bind, haccepts]
    rfl

/-- The stack that a branch hands to its targets. -/
def propagated? (b : Builder) (i : Branch) : Option Shape :=
  match (b.context.transfer i).on b.stack with
  | (.ok tested, stack) => some (targetShape b.settings stack tested)
  | (.error _, _) => none

def behind (b : Builder) (i : Branch) (stack : EvalStack) (shape : Shape) : Builder :=
  { b with
    labels := i.targets.foldl (recordArrival · · shape) b.labels
    current := if i.fallsThrough then some stack else none
    emitted := .branch i :: b.emitted }

/-- A branch is accepted if and only if the verifier accepts it and all targets accept the stack. -/
theorem branch_outcome (i : Branch) (b : Builder) :
    (∃ tested stack, (b.context.transfer i).on b.stack = (.ok tested, stack) ∧
      (∀ l ∈ i.targets, ∃ state, b.labels[l]? = some state ∧
        state.accepts (targetShape b.settings stack tested) = true) ∧
      (branch i).on b = (.ok (), b.behind i stack (targetShape b.settings stack tested))) ∨
    (¬ ∃ tested stack, (b.context.transfer i).on b.stack = (.ok tested, stack) ∧
      ∀ l ∈ i.targets, ∃ state, b.labels[l]? = some state ∧
        state.accepts (targetShape b.settings stack tested) = true) ∧
    ∃ e, (branch i).on b = (.error e, b) := by
  unfold branch
  rw [on_bind, on_get]
  simp only []
  obtain ⟨known, hknown, hlabels⟩ := on_forIn i.targets b.labelState b
  rw [on_bind, hknown]
  cases known with
  | error e =>
      refine .inr ⟨?_, e, rfl⟩
      rintro ⟨tested, stack, -, haccepts⟩
      cases hlabels.mpr fun l hl =>
        let ⟨state, hstate, _⟩ := haccepts l hl
        ⟨state, labelState_ok.mpr hstate⟩
  | ok =>
      rcases htransfer : (b.context.transfer i).on b.stack with ⟨e | tested, stack⟩
      · exact .inr ⟨nofun, _, rfl⟩
      · obtain ⟨checked, hchecked, haccepted⟩ :=
          on_forIn i.targets (b.checkArrival · (targetShape b.settings stack tested)) b
        simp only []
        rw [on_bind]
        rw [hchecked]
        cases checked with
        | error e =>
            refine .inr ⟨?_, e, rfl⟩
            rintro ⟨_, _, ⟨⟩, haccepts⟩
            cases haccepted.mpr fun l hl => ⟨(), checkArrival_ok.mpr (haccepts l hl)⟩
        | ok =>
            refine .inl ⟨tested, stack, rfl, ?_, rfl⟩
            intro l hl
            obtain ⟨u, hu⟩ := haccepted.mp rfl l hl
            exact checkArrival_ok.mp hu

theorem branch_cases (i : Branch) (b : Builder) :
    (∃ tested stack, (b.context.transfer i).on b.stack = (.ok tested, stack) ∧
      (∀ l ∈ i.targets, ∃ state, b.labels[l]? = some state ∧
        state.accepts (targetShape b.settings stack tested) = true) ∧
      (branch i).on b = (.ok (), b.behind i stack (targetShape b.settings stack tested))) ∨
    ∃ e, (branch i).on b = (.error e, b) :=
  (branch_outcome i b).imp_right And.right

/-- A label that has been reached is not reached again by the same stack. -/
theorem unify_unify (shape recorded : Shape) :
    shape.unify (shape.unify recorded) = shape.unify recorded := by
  induction shape generalizing recorded with
  | nil => rfl
  | cons s rest ih =>
      cases recorded with
      | nil => rfl
      | cons t recorded =>
          have hslot : s.unify (s.unify t) = s.unify t := by
            cases t with
            | zero => cases s <;> rfl
            | simple | complex => rfl
          simp only [Shape.unify, hslot, ih]

theorem unify_self (shape : Shape) : shape.unify shape = shape := by
  induction shape with
  | nil => rfl
  | cons s rest ih =>
      have hslot : s.unify s = s := by cases s <;> rfl
      simp only [Shape.unify, hslot, ih]

/-- What is on record behind an arrival. -/
theorem record_eq (state : LabelState) (shape : Shape) :
    state.record shape = { state with
      shape := some (state.shape.elim shape fun recorded =>
        if state.marked then recorded else shape.unify recorded) } := by
  rcases state with ⟨name, _ | recorded, marked⟩
  · rfl
  · cases marked with
    | false => rfl
    | true => rfl

theorem record_record (state : LabelState) (shape : Shape) :
    (state.record shape).record shape = state.record shape := by
  rcases state with ⟨name, _ | recorded, marked⟩
  · cases marked with
    | false => simp only [LabelState.record, unify_self]; rfl
    | true => rfl
  · cases marked with
    | false => simp [LabelState.record, unify_unify]
    | true => rfl

theorem getElem?_recordArrivals (targets : List Label) (shape : Shape) (labels : List LabelState)
    (l : Label) :
    (targets.foldl (recordArrival · · shape) labels)[l]? =
      if l ∈ targets then labels[l]?.map (·.record shape) else labels[l]? := by
  induction targets generalizing labels with
  | nil => rfl
  | cons target rest ih =>
      rw [List.foldl_cons, ih, recordArrival, List.getElem?_modify]
      by_cases htarget : target = l
      · subst htarget
        by_cases hrest : target ∈ rest
        · simp [hrest, Function.comp_def, record_record]
        · simp [hrest]
      · simp [htarget, Ne.symm htarget]

/-- The state of a label when it is marked. -/
def markedState (state : LabelState) (current : Option EvalStack) : LabelState :=
  match current with
  | some stack => { state.record stack.shape with marked := true }
  | none => { state with shape := some (state.shape.getD []), marked := true }

def behindMark (b : Builder) (l : Label) (state : LabelState) : Builder :=
  { b with
    labels := b.labels.set l (markedState state b.current)
    current := some (.ofShape ((markedState state b.current).shape.getD []))
    emitted := .label l :: b.emitted }

theorem mark_of_marked {b : Builder} {l : Label} {state : LabelState}
    (hstate : b.labels[l]? = some state) (hmarked : state.marked = true) :
    (mark l).on b = (.error (.duplicateLabel state.name), b) := by
  unfold mark
  rw [on_bind, on_get]
  simp only []
  rw [on_bind, on_liftM, labelState_ok.mpr hstate]
  simp only [hmarked]
  rfl

/-- What is on record is taken over where control does not fall into the label. -/
theorem mark_of_unreachable {b : Builder} {l : Label} {state : LabelState}
    (hcurrent : b.current = none) (hstate : b.labels[l]? = some state)
    (hopen : state.marked = false) : (mark l).on b = (.ok (), b.behindMark l state) := by
  unfold mark
  rw [on_bind, on_get]
  simp only []
  rw [on_bind, on_liftM, labelState_ok.mpr hstate]
  rcases state with ⟨name, _ | recorded, marked⟩
  · cases hopen
    simp [behindMark, markedState, hcurrent, LabelState.record]
  · cases hopen
    simp [behindMark, markedState, hcurrent]

/-- A label is marked once, and the stack that falls into it has to be accepted. -/
theorem mark_cases (l : Label) (b : Builder) :
    (∃ state, b.labels[l]? = some state ∧ state.marked = false ∧
      (∀ stack, b.current = some stack → state.accepts stack.shape = true) ∧
      (mark l).on b = (.ok (), b.behindMark l state)) ∨
    ∃ e, (mark l).on b = (.error e, b) := by
  cases hlabel : b.labelState l with
  | error e =>
      refine .inr ⟨e, ?_⟩
      unfold mark
      rw [on_bind, on_get]
      simp only []
      rw [on_bind, on_liftM, hlabel]
  | ok state =>
      have hstate := labelState_ok.mp hlabel
      cases hmarked : state.marked with
      | true => exact .inr ⟨_, mark_of_marked hstate hmarked⟩
      | false =>
          cases hcurrent : b.current with
          | none =>
              exact .inl
                ⟨state, hstate, hmarked, nofun, mark_of_unreachable hcurrent hstate hmarked⟩
          | some stack =>
              unfold mark
              rw [on_bind, on_get]
              simp only []
              rw [on_bind, on_liftM, hlabel]
              simp only [hmarked, hcurrent, Bool.false_eq_true, if_false]
              rw [on_bind, on_liftM]
              cases hcheck : b.checkArrival l stack.shape with
              | error e => exact .inr ⟨e, rfl⟩
              | ok =>
                  obtain ⟨known, hknown, haccepts⟩ := checkArrival_ok.mp hcheck
                  cases hstate.symm.trans hknown
                  refine .inl ⟨state, hstate, hmarked, ?_, ?_⟩
                  · rintro _ ⟨⟩
                    exact haccepts
                  · simp [behindMark, markedState, hcurrent]

theorem on_generalizeTop {s : EvalStack} {special : StackType} (hpeek : s.peek? = some special)
    (g : Graph) (general : StackType) :
    (generalizeTop g general).on s =
      if special.fits g general then (.ok (), s.retypeTop general)
      else (.error (.unexpected special (.stackType general)), s) := by
  unfold generalizeTop
  rw [Step.on_bind, Step.on_get]
  simp only [hpeek]
  rw [Step.on_bind, Step.on_check]
  cases special.fits g general <;> rfl

theorem generalizeTop_cases (g : Graph) (general : StackType) (s : EvalStack) :
    (∃ special, s.peek? = some special ∧ special.fits g general = true ∧
      (generalizeTop g general).on s = (.ok (), s.retypeTop general)) ∨
    ∃ e, (generalizeTop g general).on s = (.error e, s) := by
  rcases s with ⟨_ | ⟨top, rest⟩, next⟩
  · exact .inr ⟨_, rfl⟩
  · have hrun := on_generalizeTop (s := ⟨top :: rest, next⟩) rfl g general
    cases hfits : top.type.fits g general with
    | false => exact .inr ⟨_, by simpa [hfits] using hrun⟩
    | true => exact .inl ⟨top.type, rfl, hfits, by simpa [hfits] using hrun⟩

/-- Only the type of the top value changes, to one that it fits. -/
theorem generalize_cases (general : StackType) (b : Builder) :
    (b.current = none ∧ (generalize general).on b = (.ok (), b)) ∨
    (∃ stack special, b.current = some stack ∧ stack.peek? = some special ∧
      special.fits b.graph general = true ∧
      (generalize general).on b = (.ok (), { b with current := some (stack.retypeTop general) })) ∨
    ∃ e, (generalize general).on b = (.error e, b) := by
  unfold generalize
  rw [on_bind, on_get]
  simp only []
  cases hcurrent : b.current with
  | none => exact .inl ⟨rfl, rfl⟩
  | some stack =>
      simp only []
      rcases generalizeTop_cases b.graph general stack with ⟨special, hpeek, hfits, hrun⟩ | ⟨e, hrun⟩
      · rw [hrun]
        exact .inr (.inl ⟨stack, special, rfl, hpeek, hfits, rfl⟩)
      · rw [hrun]
        exact .inr (.inr ⟨_, rfl⟩)

def behindWidening (b : Builder) (l : Label) (stack : EvalStack) (joined : StackType) : Builder :=
  { b with
    labels := b.labels.modify l (widenTop · joined)
    current := some (stack.retypeTop joined) }

/-- The top of the stack and the top slot at the label become their join. -/
theorem generalizeForLabel_cases (l : Label) (b : Builder) :
    (∃ state recorded rest stack current joined, b.labels[l]? = some state ∧
      state.shape = some (recorded :: rest) ∧ b.current = some stack ∧
      stack.peek? = some current ∧ current.join b.graph recorded = some joined ∧
      (generalizeForLabel l).on b = (.ok (), b.behindWidening l stack joined)) ∨
    ((generalizeForLabel l).on b).2 = b := by
  unfold generalizeForLabel
  rw [on_bind, on_get]
  simp only []
  rw [on_bind, on_liftM]
  cases hstate : b.labelState l with
  | error e => exact .inr rfl
  | ok state =>
      simp only []
      split
      · rename_i recorded rest current hshape hcurrent
        obtain ⟨stack, hstack, hpeek⟩ := Option.bind_eq_some_iff.mp hcurrent
        cases hjoin : current.join b.graph recorded with
        | none => exact .inr rfl
        | some joined =>
            simp only []
            rw [on_bind]
            rcases generalize_cases joined b with
              ⟨hnone, -⟩ | ⟨stack', special, hstack', hpeek', hfits, hrun⟩ | ⟨e, hrun⟩
            · rw [hstack] at hnone
              cases hnone
            · cases hstack.symm.trans hstack'
              rw [hrun]
              exact .inl ⟨state, recorded, rest, stack, current, joined, labelState_ok.mp hstate,
                hshape, hstack, hpeek, hjoin, rfl⟩
            · rw [hrun]
              exact .inr rfl
      · exact .inr rfl

end ManagedCode.Builder
