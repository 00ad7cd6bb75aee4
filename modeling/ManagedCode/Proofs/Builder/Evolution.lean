import ManagedCode.Proofs.Builder.Finished
import ManagedCode.Proofs.Builder.MarkedLabel
import ManagedCode.Proofs.StackType.Merging

namespace ManagedCode

/-! What becomes of the stack on record for a label, up to its mark and behind it. -/

namespace EvalStack

theorem identities_ofShape (shape : Shape) :
    (ofShape shape).entries.map StackEntry.identity = (List.range shape.length).reverse := by
  induction shape with
  | nil => rfl
  | cons t rest ih =>
      rw [List.length_cons, List.range_succ, List.reverse_append]
      exact congrArg₂ List.cons (nextIdentity_ofShape rest) ih

end EvalStack

namespace Command

/-- The label that an accepted command marks. The end of an exception block marks one as well. -/
def marks? (c : Command) (b : Builder) : Option Label :=
  if c.accepted b then
    match c with
    | mark l => some l
    | endBlock => b.blocks.head?.map Block.endLabel
    | _ => none
  else none

/-- How a command may change the stack on record for a label. -/
inductive Reshapes (c : Command) (b : Builder) (l : Label) : Shape → Shape → Prop where
  | refine {arriving recorded recorded' : Shape} : (l, arriving) ∈ c.arrivals b →
      arriving.Refines recorded recorded' → Reshapes c b l recorded recorded'
  | widen {recorded current joined : StackType} {rest : Shape} : c = generalizeForLabel l →
      b.current.bind EvalStack.peek? = some current → current.join b.graph recorded = some joined →
      Reshapes c b l (recorded :: rest) (joined :: rest)

variable {c : Command} {b : Builder} {l : Label} {state state' : LabelState}
  {recorded recorded' : Shape}

theorem Reshapes.length_eq (h : c.Reshapes b l recorded recorded') :
    recorded'.length = recorded.length := by
  cases h with
  | refine _ hrefines => exact hrefines.1
  | widen => rfl

theorem reshapes_record {shape : Shape} (harrives : (l, shape) ∈ c.arrivals b)
    (haccepts : state.accepts shape = true) (hrecorded : state.shape = some recorded) :
    ∃ recorded', (state.record shape).shape = some recorded' ∧
      (recorded' = recorded ∨ c.Reshapes b l recorded recorded') := by
  rcases state with ⟨name, known, marked⟩
  cases hrecorded
  cases marked with
  | true => exact ⟨recorded, rfl, .inl rfl⟩
  | false => exact ⟨_, rfl, .inr (.refine harrives (Shape.refines_unify haccepts))⟩

/-- A stack that is on record stays on record, changed at most in these ways. -/
theorem Evolves.reshapes (h : c.Evolves b l state state') (hrecorded : state.shape = some recorded) :
    ∃ recorded', state'.shape = some recorded' ∧
      (recorded' = recorded ∨ c.Reshapes b l recorded recorded') := by
  cases h with
  | same => exact ⟨recorded, hrecorded, .inl rfl⟩
  | arrive harrives haccepts => exact reshapes_record harrives haccepts hrecorded
  | mark =>
      refine ⟨recorded, ?_, .inl rfl⟩
      rw [hrecorded]
      rfl
  | fallInto _ harrives haccepts => exact reshapes_record harrives haccepts hrecorded
  | widen _ hshape htop hjoin hcommand =>
      cases hshape.symm.trans hrecorded
      exact ⟨_, rfl, .inr (.widen hcommand htop hjoin)⟩

theorem reshapes_apply (c : Command) (h : b.labelShape? l = some recorded) :
    ∃ recorded', (c.apply b).labelShape? l = some recorded' ∧
      (recorded' = recorded ∨ c.Reshapes b l recorded recorded') := by
  obtain ⟨state, hstate, hrecorded⟩ := Builder.labelShape?_eq_some.mp h
  obtain ⟨state', hstate', hevolves⟩ := (c.develops b).known hstate
  obtain ⟨recorded', hrecorded', hcases⟩ := hevolves.reshapes hrecorded
  exact ⟨recorded', Builder.labelShape?_eq_some.mpr ⟨state', hstate', hrecorded'⟩, hcases⟩

end Command

namespace Builder

variable {b b' : Builder} {l : Label} {recorded : Shape}

/-- The labels that are marked during a run, the latest first. -/
def marks (b : Builder) : List Command → List Label
  | [] => []
  | c :: rest => (c.apply b).marks rest ++ (c.marks? b).toList

/-- Marked, with this stack on record. -/
def MarkedWith (b : Builder) (l : Label) (recorded : Shape) : Prop :=
  ∃ name, b.labels[l]? = some ⟨name, some recorded, true⟩

theorem MarkedWith.labelShape? (h : b.MarkedWith l recorded) :
    b.labelShape? l = some recorded := by
  obtain ⟨name, hstate⟩ := h
  exact labelShape?_eq_some.mpr ⟨_, hstate, rfl⟩

theorem MarkedWith.apply (h : b.MarkedWith l recorded) (c : Command) :
    (c.apply b).MarkedWith l recorded := by
  obtain ⟨name, hstate⟩ := h
  exact ⟨name, c.apply_of_marked hstate rfl rfl⟩

theorem MarkedWith.run (h : b.MarkedWith l recorded) (commands : List Command) :
    (b.run commands).MarkedWith l recorded := by
  obtain ⟨name, hstate⟩ := h
  exact ⟨name, run_of_marked commands hstate rfl rfl⟩

theorem exists_markedState (state : LabelState) (current : Option EvalStack) :
    ∃ name recorded, markedState state current = ⟨name, some recorded, true⟩ := by
  obtain ⟨recorded, hrecorded⟩ := Option.isSome_iff_exists.mp (state.isSome_markedState current)
  have hmarked := state.marked_markedState current
  generalize markedState state current = after at *
  rcases after with ⟨name, shape, marked⟩
  cases hrecorded
  cases hmarked
  exact ⟨name, recorded, rfl⟩

/-- The label was open, and the code goes on with the stack that is on record behind the mark. -/
def Marks (b b' : Builder) (l : Label) : Prop :=
  (∀ recorded, ¬ b.MarkedWith l recorded) ∧
    ∃ recorded, b'.MarkedWith l recorded ∧ b'.current = some (.ofShape recorded)

theorem Marks.of_labels {b₀ : Builder} (h : b.Marks b' l) (hlabels : b.labels = b₀.labels) :
    b₀.Marks b' l := by
  unfold Marks MarkedWith at *
  rwa [hlabels] at h

theorem marks_of_mark (h : ((mark l).on b).1.isOk = true) : b.Marks ((mark l).on b).2 l := by
  rcases mark_cases l b with ⟨state, hstate, hopen, -, hrun⟩ | ⟨e, hrun⟩
  · constructor
    · rintro recorded ⟨name, hmarked⟩
      cases hstate.symm.trans hmarked
      cases hopen
    · obtain ⟨name, recorded, hmarked⟩ := exists_markedState state b.current
      obtain ⟨hl, -⟩ := List.getElem?_eq_some_iff.mp hstate
      rw [hrun]
      refine ⟨recorded, ⟨name, ?_⟩, ?_⟩
      · rw [behindMark, List.getElem?_set_self hl, hmarked]
      · rw [behindMark, hmarked]
        rfl
  · rw [hrun] at h
    cases h

end Builder

namespace Command

variable {c : Command} {b : Builder} {l : Label}

theorem marks_of_marks? (h : c.marks? b = some l) : b.Marks (c.apply b) l := by
  unfold marks? at h
  split at h
  case isFalse => cases h
  case isTrue haccepted =>
    cases c with
    | mark m =>
        cases h
        exact Builder.marks_of_mark haccepted
    | endBlock =>
        obtain ⟨block, hblock, rfl⟩ := Option.map_eq_some_iff.mp h
        rcases Builder.endBlock_cases b with ⟨block', rest, hblocks, -, -, hrun⟩ | ⟨e, hrun⟩
        · rw [hblocks] at hblock
          cases hblock
          rw [accepted, perform, hrun] at haccepted
          unfold apply perform
          rw [hrun]
          exact (Builder.marks_of_mark haccepted).of_labels rfl
        · cases (accepted_of_error (c := endBlock) hrun).symm.trans haccepted
    | _ => cases h

end Command

namespace Builder

variable {b : Builder} {l : Label} {recorded : Shape}

theorem markedWith_of_mem_marks {commands : List Command} (h : l ∈ b.marks commands) :
    ∃ recorded, (b.run commands).MarkedWith l recorded := by
  induction commands generalizing b with
  | nil => cases h
  | cons c rest ih =>
      rcases List.mem_append.mp h with hlater | hnow
      · exact ih hlater
      · obtain ⟨-, recorded, hmarked, -⟩ := Command.marks_of_marks? (Option.mem_toList.mp hnow)
        exact ⟨recorded, hmarked.run rest⟩

/-- A label is not marked again. -/
theorem MarkedWith.not_mem_marks (h : b.MarkedWith l recorded) (commands : List Command) :
    l ∉ b.marks commands := by
  induction commands generalizing b with
  | nil => exact List.not_mem_nil
  | cons c rest ih =>
      intro hmem
      rcases List.mem_append.mp hmem with hlater | hnow
      · exact ih (h.apply c) hlater
      · exact (Command.marks_of_marks? (Option.mem_toList.mp hnow)).1 recorded h

theorem length_run (commands : List Command) (h : b.labelShape? l = some recorded) :
    ∃ recorded', (b.run commands).labelShape? l = some recorded' ∧
      recorded'.length = recorded.length := by
  induction commands generalizing b recorded with
  | nil => exact ⟨recorded, h, rfl⟩
  | cons c rest ih =>
      obtain ⟨next, hnext, hcases⟩ := Command.reshapes_apply c h
      obtain ⟨recorded', hrecorded', hlength⟩ := ih hnext
      refine ⟨recorded', hrecorded', hlength.trans ?_⟩
      rcases hcases with rfl | hreshapes
      · rfl
      · exact hreshapes.length_eq

theorem labelShape?_code (b : Builder) (l : Label) :
    (b.code.summary.labels[l]?).bind LabelSummary.shape = b.labelShape? l := by
  rw [labelShape?, code, List.getElem?_map, Option.bind_map]
  rfl

/-- The stack on record for a label keeps its length. Up to the mark its null slots may give way to
what arrives, and its top slot may be widened. With the mark it is settled for the rest of the run and
for the finished body, and the code behind the mark starts from it. -/
theorem shape_settles (g : Graph) (arguments : List Ty) (result : Option Ty)
    (commands : List Command) (l : Label) :
    let b := (new g arguments result).run commands
    let marked := (new g arguments result).marks commands
    (∀ recorded, b.labelShape? l = some recorded →
      (∀ later, ∃ recorded', (b.run later).labelShape? l = some recorded' ∧
        recorded'.length = recorded.length) ∧
      ∀ (c : Command) (recorded' : Shape), (c.apply b).labelShape? l = some recorded' →
        recorded' ≠ recorded → l ∉ marked ∧ c.Reshapes b l recorded recorded') ∧
    ∀ c : Command, c.marks? b = some l →
      l ∉ marked ∧
      ∃ (recorded : Shape) (stack : EvalStack), (c.apply b).labelShape? l = some recorded ∧
        (c.apply b).current = some stack ∧ stack.shape = recorded ∧
        (stack.entries.map StackEntry.identity).Nodup ∧
        ∀ later, ((c.apply b).run later).labelShape? l = some recorded ∧
          l ∉ (c.apply b).marks later ∧
          ∀ code : Code, ((c.apply b).run later).finish = .ok code →
            (code.summary.labels[l]?).bind LabelSummary.shape = some recorded := by
  intro b marked
  constructor
  · intro recorded hrecorded
    refine ⟨fun later => length_run later hrecorded, ?_⟩
    intro c recorded' hrecorded' hne
    constructor
    · -- Once the label has been marked, no command changes its record.
      intro hmem
      obtain ⟨settled, hsettled⟩ := markedWith_of_mem_marks hmem
      cases hsettled.labelShape?.symm.trans hrecorded
      cases (hsettled.apply c).labelShape?.symm.trans hrecorded'
      exact hne rfl
    · obtain ⟨next, hnext, hcases⟩ := Command.reshapes_apply c hrecorded
      cases hnext.symm.trans hrecorded'
      exact hcases.resolve_left hne
  · intro c hmarks
    obtain ⟨hopen, recorded, hsettled, hcurrent⟩ := Command.marks_of_marks? hmarks
    refine ⟨?_, recorded, .ofShape recorded, hsettled.labelShape?, hcurrent,
      EvalStack.shape_ofShape recorded, ?_, ?_⟩
    · intro hmem
      obtain ⟨before, hbefore⟩ := markedWith_of_mem_marks hmem
      exact hopen before hbefore
    · rw [EvalStack.identities_ofShape]
      exact (List.reverse_perm _).nodup_iff.mpr List.nodup_range
    · intro later
      have hlater := (hsettled.run later).labelShape?
      refine ⟨hlater, hsettled.not_mem_marks later, ?_⟩
      intro code hfinish
      obtain ⟨-, -, -, rfl⟩ := finish_ok.mp hfinish
      exact (labelShape?_code _ l).trans hlater

theorem shape_settles_string :
    let b := (new .library [] none).run
      [.push .ldnull, .defineLabel "L", .branch (.br 0), .push (.ldstr "x")]
    let later : List Command := [.push .pop, .push .ldnull, .branch (.br 0)]
    let settled : Shape := [.simple .string]
    b.labelShape? 0 = some [.zero] ∧ (Command.mark 0).marks? b = some 0 ∧
      (Command.mark 0).Reshapes b 0 [.zero] settled ∧
      (((Command.mark 0).apply b).run later).labelShape? 0 = some settled := by
  intro b later settled
  have hnull : b.labelShape? 0 = some [.zero] := by decide +kernel
  have hmarked : (Command.mark 0).marks? b = some 0 := by decide +kernel
  have hsettled : ((Command.mark 0).apply b).labelShape? 0 = some settled := by decide +kernel
  obtain ⟨hreshapes, hmarks⟩ := shape_settles .library [] none
    [.push .ldnull, .defineLabel "L", .branch (.br 0), .push (.ldstr "x")] 0
  obtain ⟨-, hreshape⟩ := (hreshapes _ hnull).2 _ _ hsettled (by decide)
  obtain ⟨-, recorded, stack, hrecorded, -, -, -, hlater⟩ := hmarks _ hmarked
  cases hsettled.symm.trans hrecorded
  exact ⟨hnull, hmarked, hreshape, (hlater later).1⟩

end Builder

end ManagedCode
