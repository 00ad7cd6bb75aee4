import ManagedCode.Proofs.Builder.Evolution
import ManagedCode.Proofs.Builder.Trail
import ManagedCode.Proofs.Verify.Frame

namespace ManagedCode

/-! The deepest stack of a run. Only instructions and handlers count what they put onto the stack,
and every other stack has been counted before. -/

namespace Builder

open Emit

/-- Neither the current stack nor one that is on record is deeper than what has been counted. -/
structure Counted (b : Builder) : Prop where
  stack : b.stack.depth ≤ b.maxStack
  labels : ∀ {l : Label} {recorded : Shape}, b.labelShape? l = some recorded →
    recorded.length ≤ b.maxStack

variable {b : Builder}

theorem counted_new (g : Graph) (arguments : List Ty) (result : Option Ty) :
    (new g arguments result).Counted where
  stack := Nat.le_refl 0
  labels h := nomatch h

theorem length_targetShape (settings : Settings) (stack : EvalStack) (tested : Option StackEntry) :
    (targetShape settings stack tested).length = stack.depth := by
  unfold targetShape
  split
  · split
    · exact List.length_map _
    · exact stack.length_shape
  · exact stack.length_shape

theorem depth_transfer_le {i : Branch} {tested : Option StackEntry} {stack : EvalStack}
    (h : (b.context.transfer i).on b.stack = (.ok tested, stack)) :
    stack.depth ≤ b.stack.depth := by
  obtain ⟨taken, hstack⟩ := b.context.lowers_transfer i b.stack
  have hdrop : stack = b.stack.drop taken := (congrArg Prod.snd h).symm.trans hstack
  rw [hdrop, EvalStack.depth_drop]
  exact Nat.sub_le _ _

theorem depth_verify_le {i : Instruction} {e : VerifyError}
    (h : ((b.context.verify i).on b.stack).1 = .error e) :
    ((b.context.verify i).on b.stack).2.depth ≤ b.stack.depth := by
  obtain ⟨taken, hstack⟩ := Context.verify_error
    (t := ((b.context.verify i).on b.stack).2) (Prod.ext h rfl)
  rw [hstack, EvalStack.depth_drop]
  exact Nat.sub_le _ _

theorem depth_retypeTop (s : EvalStack) (t : StackType) : (s.retypeTop t).depth = s.depth := by
  rcases s with ⟨_ | ⟨top, rest⟩, next⟩
  · rfl
  · rfl

end Builder

namespace Command

open Builder

variable {c : Command} {b : Builder} {l : Label} {count : Nat}

theorem length_arrival {arrived : Shape} (h : (l, arrived) ∈ c.arrivals b) :
    arrived.length ≤ b.stack.depth := by
  obtain ⟨-, ⟨i, -, -, hshape⟩ | ⟨stack, -, hcurrent, rfl⟩⟩ := arrivals_cases h
  · unfold propagated? at hshape
    split at hshape
    · rename_i tested stack htransfer
      cases hshape
      rw [length_targetShape]
      exact depth_transfer_le htransfer
    · cases hshape
  · rw [Builder.stack, hcurrent, EvalStack.length_shape]
    exact Nat.le_refl _

/-- A stack that is put on record is a stack of the run, and on record it keeps its length. -/
theorem Evolves.length_le {state state' : LabelState} (h : c.Evolves b l state state')
    (hstack : b.stack.depth ≤ count)
    (hstate : ∀ known, state.shape = some known → known.length ≤ count) {recorded : Shape}
    (hrecorded : state'.shape = some recorded) : recorded.length ≤ count := by
  cases hshape : state.shape with
  | some known =>
      obtain ⟨recorded', hrecorded', hcases⟩ := h.reshapes hshape
      cases hrecorded.symm.trans hrecorded'
      have hlength : recorded.length = known.length := by
        rcases hcases with rfl | hreshapes
        · rfl
        · exact hreshapes.length_eq
      exact hlength ▸ hstate known hshape
  | none =>
      cases h with
      | same => cases hshape.symm.trans hrecorded
      | mark =>
          cases (hshape ▸ hrecorded : some ((none : Option Shape).getD []) = some recorded)
          exact Nat.zero_le _
      | arrive harrives | fallInto _ harrives =>
          simp only [LabelState.record, hshape] at hrecorded
          cases hrecorded
          exact Nat.le_trans (length_arrival harrives) hstack
      | widen _ hwidened => cases hshape.symm.trans hwidened

theorem labels_counted (hb : b.Counted) {recorded : Shape}
    (h : (c.apply b).labelShape? l = some recorded) : recorded.length ≤ b.maxStack := by
  obtain ⟨state', hstate', hrecorded⟩ := labelShape?_eq_some.mp h
  rcases (c.develops b).fresh hstate' with ⟨state, hstate⟩ | ⟨hnone, -⟩
  · obtain ⟨after, hafter, hevolves⟩ := (c.develops b).known hstate
    cases hstate'.symm.trans hafter
    exact hevolves.length_le hb.stack
      (fun known hknown => hb.labels (labelShape?_eq_some.mpr ⟨state, hstate, hknown⟩)) hrecorded
  · rw [hnone] at hrecorded
    cases hrecorded

/-- The stack behind a mark is the one on record. -/
theorem depth_of_marks? (hb : b.Counted) (h : c.marks? b = some l) :
    (c.apply b).stack.depth ≤ b.maxStack := by
  obtain ⟨-, recorded, hmarked, hcurrent⟩ := marks_of_marks? h
  refine Nat.le_trans (Nat.le_of_eq ?_) (labels_counted hb hmarked.labelShape?)
  rw [Builder.stack, hcurrent, Option.getD_some, ← EvalStack.length_shape, EvalStack.shape_ofShape]

theorem maxStack_of_same {b' : Builder} (hb : b.Counted) (hmax : b'.maxStack = b.maxStack)
    (hstack : b'.stack.depth ≤ b.stack.depth) : b'.maxStack = max b.maxStack b'.stack.depth := by
  rw [hmax]
  exact (Nat.max_eq_left (Nat.le_trans hstack hb.stack)).symm

theorem maxStack_of_unchanged (hb : b.Counted) (h : c.apply b = b) :
    (c.apply b).maxStack = max b.maxStack (c.apply b).stack.depth := by
  rw [h]
  exact (Nat.max_eq_left hb.stack).symm

theorem maxStack_push (hb : b.Counted) (i : Instruction) :
    ((push i).apply b).maxStack = max b.maxStack ((push i).apply b).stack.depth := by
  unfold apply perform
  rcases push_cases i b with ⟨-, hrun⟩ | ⟨e, hrejected, hrun⟩
  · rw [hrun]
    rfl
  · rw [hrun]
    exact maxStack_of_same hb rfl (depth_verify_le hrejected)

theorem maxStack_branch (hb : b.Counted) (i : Branch) :
    ((branch i).apply b).maxStack = max b.maxStack ((branch i).apply b).stack.depth := by
  rcases branch_cases i b with ⟨tested, stack, htransfer, -, hrun⟩ | ⟨e, hrun⟩
  · unfold apply perform
    rw [hrun]
    refine maxStack_of_same hb rfl ?_
    simp only [behind, Builder.stack]
    split
    · exact depth_transfer_le htransfer
    · exact Nat.zero_le _
  · exact maxStack_of_unchanged hb (congrArg Prod.snd hrun)

theorem maxStack_mark (hb : b.Counted) (l : Label) :
    ((mark l).apply b).maxStack = max b.maxStack ((mark l).apply b).stack.depth := by
  rcases mark_cases l b with ⟨state, -, -, -, hrun⟩ | ⟨e, hrun⟩
  · have hmarks : (mark l).marks? b = some l := by
      rw [marks?, if_pos (accepted_of_ok (c := mark l) hrun)]
    have hmax : ((mark l).apply b).maxStack = b.maxStack := by
      unfold apply perform
      rw [hrun]
      rfl
    rw [hmax]
    exact (Nat.max_eq_left (depth_of_marks? hb hmarks)).symm
  · exact maxStack_of_unchanged hb (congrArg Prod.snd hrun)

theorem maxStack_generalize (hb : b.Counted) (general : StackType) :
    ((generalize general).apply b).maxStack =
      max b.maxStack ((generalize general).apply b).stack.depth := by
  rcases generalize_cases general b with
    ⟨-, hrun⟩ | ⟨stack, special, hcurrent, -, -, hrun⟩ | ⟨e, hrun⟩
  · exact maxStack_of_unchanged hb (congrArg Prod.snd hrun)
  · unfold apply perform
    rw [hrun]
    refine maxStack_of_same hb rfl (Nat.le_of_eq ?_)
    simp only [Builder.stack, hcurrent, Option.getD_some]
    exact depth_retypeTop stack general
  · exact maxStack_of_unchanged hb (congrArg Prod.snd hrun)

theorem maxStack_generalizeForLabel (hb : b.Counted) (l : Label) :
    ((generalizeForLabel l).apply b).maxStack =
      max b.maxStack ((generalizeForLabel l).apply b).stack.depth := by
  rcases generalizeForLabel_cases l b with
    ⟨state, recorded, rest, stack, current, joined, -, -, hcurrent, -, -, hrun⟩ | hrun
  · unfold apply perform
    rw [hrun]
    refine maxStack_of_same hb rfl (Nat.le_of_eq ?_)
    simp only [behindWidening, Builder.stack, hcurrent, Option.getD_some]
    exact depth_retypeTop stack joined
  · exact maxStack_of_unchanged (c := generalizeForLabel l) hb hrun

theorem maxStack_endBlock (hb : b.Counted) :
    (endBlock.apply b).maxStack = max b.maxStack (endBlock.apply b).stack.depth := by
  rcases endBlock_cases b with ⟨block, rest, hblocks, hcurrent, -, hrun⟩ | ⟨e, hrun⟩
  · -- Nothing falls into the end of the block, so what has been counted still holds behind it.
    have hclosed : ({ b with blocks := rest, emitted := .marker .close :: b.emitted } :
        Builder).Counted := ⟨hb.stack, hb.labels⟩
    have happly : endBlock.apply b = (mark block.endLabel).apply
        { b with blocks := rest, emitted := .marker .close :: b.emitted } :=
      congrArg Prod.snd hrun
    rw [happly]
    exact maxStack_mark hclosed block.endLabel
  · exact maxStack_of_unchanged hb (congrArg Prod.snd hrun)

/-- A single step counts the stack that it leaves. -/
theorem maxStack_apply (hb : b.Counted) (hc : c.Single) :
    (c.apply b).maxStack = max b.maxStack (c.apply b).stack.depth := by
  have hsame : ∀ {b' : Builder}, b'.maxStack = b.maxStack → b'.stack = b.stack →
      b'.maxStack = max b.maxStack b'.stack.depth := by
    intro b' hmax hstack
    exact maxStack_of_same hb hmax (Nat.le_of_eq (congrArg EvalStack.depth hstack))
  cases c with
  | withSettings settings => exact hsame rfl rfl
  | declareLocal t =>
      unfold apply perform
      rw [Emit.on_bind, on_declareLocal]
      by_cases hcount : b.locals.size < UInt16.size
      · rw [if_pos hcount]
        exact hsame rfl rfl
      · rw [if_neg hcount]
        exact hsame rfl rfl
  | defineLabel name => exact hsame rfl rfl
  | push i => exact maxStack_push hb i
  | branch i => exact maxStack_branch hb i
  | mark l => exact maxStack_mark hb l
  | generalize general => exact maxStack_generalize hb general
  | generalizeForLabel l => exact maxStack_generalizeForLabel hb l
  | beginTry =>
      unfold apply perform
      rw [Emit.on_bind]
      rcases beginTry_cases b with ⟨-, hrun⟩ | ⟨e, hrun⟩
      · rw [hrun]
        exact hsame rfl rfl
      · rw [hrun]
        exact hsame rfl rfl
  | beginCatch exception =>
      rcases beginCatch_cases exception b with ⟨block, rest, -, -, -, -, hrun⟩ | ⟨e, hrun⟩
      · unfold apply perform
        rw [hrun]
        rfl
      · exact maxStack_of_unchanged hb (congrArg Prod.snd hrun)
  | beginFinally =>
      rcases beginFinally_cases b with ⟨block, rest, -, -, -, hrun⟩ | ⟨e, hrun⟩
      · unfold apply perform
        rw [hrun]
        exact maxStack_of_same hb rfl (Nat.zero_le _)
      · exact maxStack_of_unchanged hb (congrArg Prod.snd hrun)
  | endBlock => exact maxStack_endBlock hb
  | zeroLocal | callMethod => cases hc

theorem counted_apply (hb : b.Counted) (hc : c.Single) : (c.apply b).Counted := by
  have hmax := maxStack_apply hb hc
  refine ⟨hmax ▸ Nat.le_max_right _ _, fun h => ?_⟩
  exact Nat.le_trans (labels_counted hb h) (hmax ▸ Nat.le_max_left _ _)

end Command

namespace Builder

variable {b : Builder} {steps : List Command}

theorem maxStack_le_run (hb : b.Counted) (hsteps : ∀ c ∈ steps, c.Single) :
    b.maxStack ≤ (b.run steps).maxStack := by
  induction steps generalizing b with
  | nil => exact Nat.le_refl _
  | cons c rest ih =>
      obtain ⟨hc, hrest⟩ := List.forall_mem_cons.mp hsteps
      have hstep : b.maxStack ≤ (c.apply b).maxStack :=
        Command.maxStack_apply hb hc ▸ Nat.le_max_left _ _
      exact Nat.le_trans hstep (ih (Command.counted_apply hb hc) hrest)

theorem counted_run (hb : b.Counted) (hsteps : ∀ c ∈ steps, c.Single) : (b.run steps).Counted := by
  induction steps generalizing b with
  | nil => exact hb
  | cons c rest ih =>
      obtain ⟨hc, hrest⟩ := List.forall_mem_cons.mp hsteps
      exact ih (Command.counted_apply hb hc) hrest

theorem depth_le_of_mem_states (hb : b.Counted) (hsteps : ∀ c ∈ steps, c.Single) :
    ∀ b' ∈ b.states steps, b'.stack.depth ≤ (b.run steps).maxStack := by
  induction steps generalizing b with
  | nil => exact List.forall_mem_singleton.mpr hb.stack
  | cons c rest ih =>
      obtain ⟨hc, hrest⟩ := List.forall_mem_cons.mp hsteps
      refine List.forall_mem_cons.mpr ⟨?_, ih (Command.counted_apply hb hc) hrest⟩
      exact Nat.le_trans hb.stack (maxStack_le_run hb hsteps)

/-- The count only goes up to the depth of a stack. -/
theorem maxStack_attained (hb : b.Counted) (hsteps : ∀ c ∈ steps, c.Single) :
    (b.run steps).maxStack = b.maxStack ∨
      ∃ b' ∈ b.states steps, b'.stack.depth = (b.run steps).maxStack := by
  induction steps generalizing b with
  | nil => exact .inl rfl
  | cons c rest ih =>
      obtain ⟨hc, hrest⟩ := List.forall_mem_cons.mp hsteps
      rcases ih (Command.counted_apply hb hc) hrest with hmax | ⟨b', hmem, hdepth⟩
      · rw [Command.maxStack_apply hb hc] at hmax
        rcases Nat.le_total (c.apply b).stack.depth b.maxStack with hle | hle
        · exact .inl (hmax.trans (Nat.max_eq_left hle))
        · have hattained := hmax.trans (Nat.max_eq_right hle)
          exact .inr ⟨c.apply b, List.mem_cons_of_mem _ (start_mem_states _ rest), hattained.symm⟩
      · exact .inr ⟨b', List.mem_cons_of_mem _ hmem, hdepth⟩

end Builder

/-! Places of the body. -/

namespace Command

open Builder

variable {c : Command} {b : Builder}

/-- What a single step writes down. The end of an exception block is written down with its label,
and alone if the label cannot be marked. -/
theorem listing_apply (hc : c.Single) :
    (c.apply b).listing = b.listing ∨ (∃ item, (c.apply b).listing = b.listing ++ [item]) ∨
      b.current = none ∧ ∃ l, (c.apply b).listing = b.listing ++ [.marker .close, .label l] := by
  have hadded : ∀ {b' : Builder} {item : Item}, b'.emitted = item :: b.emitted →
      ∃ item, b'.listing = b.listing ++ [item] :=
    fun h => ⟨_, listing_of_emitted h⟩
  unfold apply perform
  cases c with
  | withSettings settings => exact .inl rfl
  | declareLocal t =>
      rw [Emit.on_bind, on_declareLocal]
      by_cases hcount : b.locals.size < UInt16.size
      · rw [if_pos hcount]
        exact .inl rfl
      · rw [if_neg hcount]
        exact .inl rfl
  | defineLabel name => exact .inl rfl
  | push i =>
      rcases push_cases i b with ⟨-, hrun⟩ | ⟨e, -, hrun⟩
      · rw [hrun]
        exact .inr (.inl (hadded rfl))
      · rw [hrun]
        exact .inl rfl
  | branch i =>
      rcases branch_cases i b with ⟨tested, stack, -, -, hrun⟩ | ⟨e, hrun⟩
      · rw [hrun]
        exact .inr (.inl (hadded rfl))
      · rw [hrun]
        exact .inl rfl
  | mark l =>
      rcases mark_cases l b with ⟨state, -, -, -, hrun⟩ | ⟨e, hrun⟩
      · rw [hrun]
        exact .inr (.inl (hadded rfl))
      · rw [hrun]
        exact .inl rfl
  | generalize general =>
      rcases generalize_cases general b with
        ⟨-, hrun⟩ | ⟨stack, special, -, -, -, hrun⟩ | ⟨e, hrun⟩
      all_goals
        rw [hrun]
        exact .inl rfl
  | generalizeForLabel l =>
      rcases generalizeForLabel_cases l b with
        ⟨state, recorded, rest, stack, current, joined, -, -, -, -, -, hrun⟩ | hrun
      all_goals
        rw [hrun]
        exact .inl rfl
  | beginTry =>
      rw [Emit.on_bind]
      rcases beginTry_cases b with ⟨-, hrun⟩ | ⟨e, hrun⟩
      · rw [hrun]
        exact .inr (.inl (hadded rfl))
      · rw [hrun]
        exact .inl rfl
  | beginCatch exception =>
      rcases beginCatch_cases exception b with ⟨block, rest, -, -, -, -, hrun⟩ | ⟨e, hrun⟩
      · rw [hrun]
        exact .inr (.inl (hadded rfl))
      · rw [hrun]
        exact .inl rfl
  | beginFinally =>
      rcases beginFinally_cases b with ⟨block, rest, -, -, -, hrun⟩ | ⟨e, hrun⟩
      · rw [hrun]
        exact .inr (.inl (hadded rfl))
      · rw [hrun]
        exact .inl rfl
  | endBlock =>
      rcases endBlock_cases b with ⟨block, rest, -, hcurrent, -, hrun⟩ | ⟨e, hrun⟩
      · rw [hrun]
        rcases mark_cases block.endLabel
            { b with blocks := rest, emitted := .marker .close :: b.emitted } with
          ⟨state, -, -, -, hmark⟩ | ⟨e, hmark⟩
        · rw [hmark]
          refine .inr (.inr ⟨hcurrent, block.endLabel, ?_⟩)
          rw [listing_of_emitted rfl, listing_of_emitted rfl, List.append_assoc]
          rfl
        · rw [hmark]
          exact .inr (.inl (hadded rfl))
      · rw [hrun]
        exact .inl rfl
  | zeroLocal | callMethod => cases hc

end Command

namespace Builder

variable {b : Builder} {steps : List Command}

theorem listing_prefix_run (hsteps : ∀ c ∈ steps, c.Single) :
    b.listing <+: (b.run steps).listing := by
  induction steps generalizing b with
  | nil => exact List.prefix_refl _
  | cons c rest ih =>
      obtain ⟨hc, hrest⟩ := List.forall_mem_cons.mp hsteps
      refine List.IsPrefix.trans ?_ (ih hrest)
      rcases Command.listing_apply hc with hsame | ⟨item, hitem⟩ | ⟨-, l, hclosed⟩
      · exact ⟨[], by rw [hsame, List.append_nil]⟩
      · rw [hitem]
        exact List.prefix_append _ _
      · rw [hclosed]
        exact List.prefix_append _ _

theorem listing_prefix_of_mem_states (hsteps : ∀ c ∈ steps, c.Single) :
    ∀ b' ∈ b.states steps, b'.listing <+: (b.run steps).listing := by
  induction steps generalizing b with
  | nil => exact List.forall_mem_singleton.mpr (List.prefix_refl _)
  | cons c rest ih =>
      obtain ⟨-, hrest⟩ := List.forall_mem_cons.mp hsteps
      exact List.forall_mem_cons.mpr ⟨listing_prefix_run hsteps, ih hrest⟩

/-- Between two neighbouring states of a run there is no further place, but for the one between the
end of an exception block and its label. -/
theorem place_between {c : Command} (hc : c.Single) {before : List Item}
    (hstart : b.listing <+: before) (hend : before <+: (c.apply b).listing) :
    before = b.listing ∨ before = (c.apply b).listing ∨
      b.current = none ∧ before = b.listing ++ [.marker .close] := by
  obtain ⟨added, rfl⟩ := hstart
  rcases Command.listing_apply hc with hsame | ⟨item, hitem⟩ | ⟨hcurrent, l, hclosed⟩
  · rw [hsame] at hend
    exact .inl (hend.eq_of_length_le (by simp))
  · rw [hitem] at hend ⊢
    have hadded := (List.prefix_append_right_inj _).mp hend
    rcases List.prefix_cons_iff.mp hadded with rfl | ⟨more, rfl, hmore⟩
    · exact .inl (List.append_nil _)
    · cases List.prefix_nil.mp hmore
      exact .inr (.inl rfl)
  · rw [hclosed] at hend ⊢
    have hadded := (List.prefix_append_right_inj _).mp hend
    rcases List.prefix_cons_iff.mp hadded with rfl | ⟨more, rfl, hmore⟩
    · exact .inl (List.append_nil _)
    · rcases List.prefix_cons_iff.mp hmore with rfl | ⟨none, rfl, hnone⟩
      · exact .inr (.inr ⟨hcurrent, rfl⟩)
      · cases List.prefix_nil.mp hnone
        exact .inr (.inl rfl)

theorem places_of_states (hsteps : ∀ c ∈ steps, c.Single) {before : List Item}
    (hstart : b.listing <+: before) (hend : before <+: (b.run steps).listing) :
    (∃ b' ∈ b.states steps, b'.listing = before) ∨
      ∃ b' ∈ b.states steps, b'.current = none ∧ before = b'.listing ++ [.marker .close] := by
  induction steps generalizing b with
  | nil => exact .inl ⟨b, List.mem_cons_self, hstart.eq_of_length_le hend.length_le⟩
  | cons c rest ih =>
      obtain ⟨hc, hrest⟩ := List.forall_mem_cons.mp hsteps
      have hlater : (c.apply b).listing <+: before →
          (∃ b' ∈ b.states (c :: rest), b'.listing = before) ∨
            ∃ b' ∈ b.states (c :: rest), b'.current = none ∧
              before = b'.listing ++ [.marker .close] := by
        intro hstart
        rcases ih hrest hstart hend with ⟨b', hmem, hplace⟩ | ⟨b', hmem, hplace⟩
        · exact .inl ⟨b', List.mem_cons_of_mem _ hmem, hplace⟩
        · exact .inr ⟨b', List.mem_cons_of_mem _ hmem, hplace⟩
      rcases List.prefix_or_prefix_of_prefix (listing_prefix_run hrest) hend with hbefore | hbefore
      · exact hlater hbefore
      · rcases place_between hc hstart hbefore with rfl | heq | hclosed
        · exact .inl ⟨b, List.mem_cons_self, rfl⟩
        · exact hlater (heq ▸ List.prefix_refl _)
        · exact .inr ⟨b, List.mem_cons_self, hclosed⟩

/-- At every moment of a run, one instruction at a time and rejected operations included, the count
is the depth of the deepest stack so far, and no stack on record for a label is deeper. So the count
in a finished body is enough at all of its places and needed at one of them. The one place without a
state of the run is between the end of an exception block and its label, and nothing gets there. -/
theorem maxStack_exact (g : Graph) (arguments : List Ty) (result : Option Ty)
    (commands : List Command) :
    let start := new g arguments result
    let b := start.run commands
    let states := start.states (start.steps commands)
    (∀ b' ∈ states, b'.stack.depth ≤ b.maxStack) ∧
    (∃ b' ∈ states, b'.stack.depth = b.maxStack) ∧
    (∀ l recorded, b.labelShape? l = some recorded → recorded.length ≤ b.maxStack) ∧
    ∀ code : Code, b.finish = .ok code →
      (∃ b' ∈ states, b'.listing <+: code.listing ∧ b'.stack.depth = code.summary.maxStack) ∧
      (∀ label ∈ code.summary.labels, ∀ recorded, label.shape = some recorded →
        recorded.length ≤ code.summary.maxStack) ∧
      ∀ before, before <+: code.listing →
        (∀ b' ∈ states, b'.listing = before → b'.stack.depth ≤ code.summary.maxStack) ∧
        ((∃ b' ∈ states, b'.listing = before) ∨
          ∃ b' ∈ states, b'.current = none ∧ before = b'.listing ++ [.marker .close]) := by
  intro start b states
  have hstart : start.Counted := counted_new g arguments result
  have hsteps : ∀ c ∈ start.steps commands, c.Single := fun _ => single_of_mem_steps
  have hrun : start.run (start.steps commands) = b := run_steps start commands
  have hdepth : ∀ b' ∈ states, b'.stack.depth ≤ b.maxStack :=
    hrun ▸ depth_le_of_mem_states hstart hsteps
  have hattained : ∃ b' ∈ states, b'.stack.depth = b.maxStack := by
    rcases maxStack_attained hstart hsteps with hzero | hattained
    · exact ⟨start, start_mem_states _ _, (hrun ▸ hzero).symm⟩
    · exact hrun ▸ hattained
  have hlabels : ∀ l recorded, b.labelShape? l = some recorded → recorded.length ≤ b.maxStack :=
    fun l recorded => (hrun ▸ counted_run hstart hsteps).labels
  refine ⟨hdepth, hattained, hlabels, ?_⟩
  intro code hfinish
  obtain ⟨-, -, -, rfl⟩ := finish_ok.mp hfinish
  refine ⟨?_, ?_, ?_⟩
  · obtain ⟨b', hmem, hmax⟩ := hattained
    exact ⟨b', hmem, hrun ▸ listing_prefix_of_mem_states hsteps b' hmem, hmax⟩
  · intro label hlabel recorded hshape
    obtain ⟨state, hstate, rfl⟩ := List.mem_map.mp hlabel
    obtain ⟨l, hl⟩ := List.mem_iff_getElem?.mp hstate
    exact hlabels l recorded (labelShape?_eq_some.mpr ⟨state, hl, hshape⟩)
  · intro before hbefore
    refine ⟨fun b' hmem _ => hdepth b' hmem, ?_⟩
    have hend : before <+: (start.run (start.steps commands)).listing := by
      rw [hrun]
      exact hbefore
    exact places_of_states hsteps (List.nil_prefix) hend

/-- The caught exception is the only value that this body ever has on its stack. -/
theorem maxStack_exact_handler :
    let start := new .library [] none
    let commands : List Command :=
      [.beginTry, .branch (.leave 0), .beginCatch .exception, .push .pop, .branch (.leave 0),
        .endBlock, .branch .ret]
    let b := start.run commands
    b.finish = .ok b.code ∧ b.code.summary.maxStack = 1 ∧
      ∃ b' ∈ start.states (start.steps commands),
        b'.listing <+: b.code.listing ∧ b'.stack.depth = 1 := by
  intro start commands b
  have hblocks : b.blocks = [] := List.length_eq_zero_iff.mp (by decide +kernel)
  have hfinish : b.finish = .ok b.code := finish_ok.mpr
    ⟨hblocks, by decide +kernel, fun _ => by decide +kernel, rfl⟩
  have hmax : b.code.summary.maxStack = 1 := by decide +kernel
  refine ⟨hfinish, hmax, ?_⟩
  obtain ⟨-, -, -, hfinished⟩ := maxStack_exact .library [] none commands
  exact hmax ▸ (hfinished b.code hfinish).1

end Builder

end ManagedCode
