import ManagedCode.Proofs.Builder.Finished
import ManagedCode.Proofs.Builder.MarkedLabel
import ManagedCode.Proofs.StackType.Merging

namespace ManagedCode

/-! What a rejected operation leaves behind. -/

namespace LabelState

theorem accepts_iff {state : LabelState} {shape : Shape} :
    state.accepts shape = true ↔
      ∀ recorded, state.shape = some recorded → shape.flowsInto recorded = true := by
  rcases state with ⟨name, _ | recorded, marked⟩
  · exact ⟨nofun, fun _ => rfl⟩
  · exact ⟨by rintro h _ ⟨⟩; exact h, fun h => h recorded rfl⟩

/-- A stack goes together with the record that it has left behind. -/
theorem flowsInto_record {state : LabelState} {shape : Shape} (h : state.accepts shape = true) :
    ∃ recorded, (state.record shape).shape = some recorded ∧ shape.flowsInto recorded = true := by
  rcases state with ⟨name, _ | recorded, marked⟩
  · exact ⟨shape, rfl, Shape.meets_self shape⟩
  · cases marked with
    | true => exact ⟨recorded, rfl, h⟩
    | false => exact ⟨_, rfl, (Shape.meets_unify h).mpr ⟨Shape.meets_self shape, h⟩⟩

end LabelState

namespace Command

/-- Rejected, the command leaves no trace. -/
def AllOrNothing (c : Command) (b : Builder) : Prop := c.accepted b = false → c.apply b = b

variable {c : Command} {b b' : Builder} {e : BuildError}

theorem AllOrNothing.of_ok (h : c.perform.on b = (.ok (), b')) : c.AllOrNothing b := by
  intro hrejected
  rw [accepted_of_ok h] at hrejected
  cases hrejected

theorem AllOrNothing.of_error (h : c.perform.on b = (.error e, b)) : c.AllOrNothing b :=
  fun _ => congrArg Prod.snd h

theorem allOrNothing_branch (i : Branch) (b : Builder) : (branch i).AllOrNothing b := by
  rcases Builder.branch_cases i b with ⟨tested, stack, -, -, hrun⟩ | ⟨e, hrun⟩
  · exact .of_ok hrun
  · exact .of_error hrun

theorem allOrNothing_mark (l : Label) (b : Builder) : (mark l).AllOrNothing b := by
  rcases Builder.mark_cases l b with ⟨state, -, -, -, hrun⟩ | ⟨e, hrun⟩
  · exact .of_ok hrun
  · exact .of_error hrun

theorem allOrNothing_beginTry (b : Builder) : beginTry.AllOrNothing b := by
  rcases Builder.beginTry_cases b with ⟨-, hrun⟩ | ⟨e, hrun⟩
  · have hperform : beginTry.perform.on b = (.ok (), (Builder.beginTry.on b).2) := by
      rw [perform, Emit.on_bind, hrun]
      rfl
    exact .of_ok hperform
  · have hperform : beginTry.perform.on b = (.error e, b) := by rw [perform, Emit.on_bind, hrun]
    exact .of_error hperform

theorem allOrNothing_beginCatch (exception : Ty) (b : Builder) :
    (beginCatch exception).AllOrNothing b := by
  rcases Builder.beginCatch_cases exception b with ⟨block, rest, -, -, -, -, hrun⟩ | ⟨e, hrun⟩
  · exact .of_ok hrun
  · exact .of_error hrun

theorem allOrNothing_beginFinally (b : Builder) : beginFinally.AllOrNothing b := by
  rcases Builder.beginFinally_cases b with ⟨block, rest, -, -, -, hrun⟩ | ⟨e, hrun⟩
  · exact .of_ok hrun
  · exact .of_error hrun

end Command

namespace Builder

open Command

variable {b b' : Builder}

theorem accepted_branch (i : Branch) (b : Builder) :
    (Command.branch i).accepted b = true ↔
      (∀ m ∈ i.targets, m < b.labels.length) ∧
      ∃ shape, b.propagated? i = some shape ∧
        ∀ m ∈ i.targets, ∀ recorded, b.labelShape? m = some recorded →
          shape.flowsInto recorded = true := by
  rcases branch_outcome i b with ⟨tested, stack, htransfer, haccepts, hrun⟩ | ⟨hrefused, e, hrun⟩
  · refine iff_of_true (accepted_of_ok hrun) ⟨?_, targetShape b.settings stack tested, ?_, ?_⟩
    · intro m hm
      obtain ⟨state, hstate, -⟩ := haccepts m hm
      exact (List.getElem?_eq_some_iff.mp hstate).1
    · rw [propagated?, htransfer]
    · intro m hm recorded hrecorded
      obtain ⟨state, hstate, haccepted⟩ := haccepts m hm
      obtain ⟨known, hknown, hshape⟩ := labelShape?_eq_some.mp hrecorded
      cases hstate.symm.trans hknown
      exact LabelState.accepts_iff.mp haccepted recorded hshape
  · refine iff_of_false (ne_true_of_eq_false (accepted_of_error hrun)) ?_
    rintro ⟨hknown, shape, hshape, hflows⟩
    apply hrefused
    rcases htransfer : (b.context.transfer i).on b.stack with ⟨e | tested, stack⟩
    · rw [propagated?, htransfer] at hshape
      cases hshape
    · rw [propagated?, htransfer] at hshape
      cases hshape
      refine ⟨tested, stack, rfl, fun m hm => ?_⟩
      have hstate := List.getElem?_eq_getElem (hknown m hm)
      refine ⟨_, hstate, LabelState.accepts_iff.mpr fun recorded hrecorded => ?_⟩
      exact hflows m hm recorded (labelShape?_eq_some.mpr ⟨_, hstate, hrecorded⟩)

/-- A branch or a mark that is rejected leaves no trace. A branch is accepted if all its targets can
take the stack that it brings, and then each of them has a stack on record that goes together with
it, however often the branch names the label. -/
theorem control_flow_all_or_nothing (b : Builder) (i : Branch) (l : Label) :
    (Command.mark l).AllOrNothing b ∧ (Command.branch i).AllOrNothing b ∧
    ((Command.branch i).accepted b = true ↔
      (∀ m ∈ i.targets, m < b.labels.length) ∧
      ∃ shape, b.propagated? i = some shape ∧
        ∀ m ∈ i.targets, ∀ recorded, b.labelShape? m = some recorded →
          shape.flowsInto recorded = true) ∧
    ∀ shape, (Command.branch i).accepted b = true → b.propagated? i = some shape →
      (∀ m ∈ i.targets, ∃ recorded,
        ((Command.branch i).apply b).labelShape? m = some recorded ∧
          List.Forall₂ (fun s t => s.Enters t ∨ s.Supplants t) shape recorded) ∧
      ∀ m, m ∉ i.targets → ((Command.branch i).apply b).labels[m]? = b.labels[m]? := by
  refine ⟨allOrNothing_mark l b, allOrNothing_branch i b, accepted_branch i b, ?_⟩
  intro shape haccepted hshape
  constructor
  · intro m hm
    obtain ⟨state, -, haccepts, hafter⟩ :=
      labels_of_mem_arrivals (mem_arrivals_of_branch haccepted hm hshape)
    obtain ⟨recorded, hrecorded, hflows⟩ := LabelState.flowsInto_record haccepts
    refine ⟨recorded, ?_, (Shape.flowsInto_iff.mp hflows).imp fun _ _ => StackType.flowsInto_iff.mp⟩
    rcases hafter with hafter | hafter
    · exact labelShape?_eq_some.mpr ⟨_, hafter, hrecorded⟩
    · exact labelShape?_eq_some.mpr ⟨_, hafter, hrecorded⟩
  · intro m hm
    rcases branch_cases i b with ⟨tested, stack, -, -, hrun⟩ | ⟨e, hrun⟩
    · unfold Command.apply Command.perform
      rw [hrun, behind, getElem?_recordArrivals, if_neg hm]
    · cases (accepted_of_error (c := .branch i) hrun).symm.trans haccepted

theorem control_flow_all_or_nothing_switch :
    let start := (new .library [] none).run
      [.defineLabel "L", .defineLabel "M", .push .ldnull, .branch (.br 0)]
    let text := start.run [.push (.ldstr "x"), .push (.ldcI4 1)]
    let texts := start.run [.push (.ldstr "x"), .push (.ldstr "y"), .push (.ldcI4 1)]
    let switch := Command.branch (.switch [1, 0, 1])
    let shape : Shape := [.simple .string]
    (switch.accepted text = true ∧
      ∃ recorded, (switch.apply text).labelShape? 0 = some recorded ∧
        List.Forall₂ (fun s t => s.Enters t ∨ s.Supplants t) shape recorded) ∧
    switch.accepted texts = false ∧ switch.apply texts = texts := by
  intro start text texts switch shape
  have haccepted : switch.accepted text = true := by decide +kernel
  have hrejected : switch.accepted texts = false := by decide +kernel
  have hshape : text.propagated? (.switch [1, 0, 1]) = some shape := by decide +kernel
  obtain ⟨-, -, -, hupdates⟩ := control_flow_all_or_nothing text (.switch [1, 0, 1]) 0
  obtain ⟨-, hatomic, -, -⟩ := control_flow_all_or_nothing texts (.switch [1, 0, 1]) 0
  obtain ⟨htargets, -⟩ := hupdates shape haccepted hshape
  exact ⟨⟨haccepted, htargets 0 (by decide)⟩, hrejected, hatomic hrejected⟩

/-! The end of an exception block. -/

theorem length_recordArrivals (targets : List Label) (shape : Shape) (labels : List LabelState) :
    (targets.foldl (recordArrival · · shape) labels).length = labels.length := by
  induction targets generalizing labels with
  | nil => rfl
  | cons target rest ih => rw [List.foldl_cons, ih, recordArrival, List.length_modify]

/-- No label is lost. -/
theorem Edit.length_labels_le (h : b.Edit b') : b.labels.length ≤ b'.labels.length := by
  cases h with
  | settings | declareLocal | push | reject | retype | beginTry | beginCatch | beginFinally
  | close => exact Nat.le_refl _
  | define =>
      rw [List.length_append]
      exact Nat.le_add_right _ _
  | branch => exact Nat.le_of_eq (length_recordArrivals _ _ _).symm
  | mark => exact Nat.le_of_eq List.length_set.symm
  | widen => exact Nat.le_of_eq (List.length_modify _ _ _).symm

/-- The end labels of the open blocks have been defined. -/
def EndsKnown (b : Builder) : Prop := ∀ block ∈ b.blocks, block.endLabel < b.labels.length

theorem Edit.endsKnown (h : b.Edit b') (hb : b.EndsKnown) : b'.EndsKnown := by
  have hlabels := h.length_labels_le
  intro block hblock
  cases h with
  | settings | declareLocal | define | push | reject | branch | mark | retype | widen =>
      exact Nat.lt_of_lt_of_le (hb block hblock) hlabels
  | beginTry _ _ hknown =>
      rcases List.mem_cons.mp hblock with rfl | hblock
      · exact hknown
      · exact hb block hblock
  | beginCatch hblocks | beginFinally hblocks =>
      -- The block goes on to its next handler, with the same end label.
      unfold EndsKnown at hb
      rw [hblocks, List.forall_mem_cons] at hb
      rcases List.mem_cons.mp hblock with rfl | hblock
      · exact hb.1
      · exact hb.2 block hblock
  | close hblocks =>
      unfold EndsKnown at hb
      rw [hblocks, List.forall_mem_cons] at hb
      exact hb.2 block hblock

/-- The innermost block could end here, if its end label were not marked already. -/
def EndsBehindMark (b : Builder) : Prop :=
  ∃ block rest, b.blocks = block :: rest ∧ b.current = none ∧ block.hasHandler = true ∧
    b.isMarked block.endLabel = true

/-- The end is written down, and the block is gone, before the label turns out to be marked. -/
theorem endBlock_of_marked {block : Block} {rest : List Block} {state : LabelState}
    (hblocks : b.blocks = block :: rest) (hcurrent : b.current = none)
    (hhandler : block.hasHandler = true) (hstate : b.labels[block.endLabel]? = some state)
    (hmarked : state.marked = true) :
    endBlock.on b = (.error (.duplicateLabel state.name),
      { b with blocks := rest, emitted := .marker .close :: b.emitted }) := by
  rw [endBlock_of_handler hblocks hcurrent hhandler]
  exact mark_of_marked hstate hmarked

theorem allOrNothing_endBlock (hb : b.EndsKnown) :
    Command.endBlock.AllOrNothing b ↔ ¬ b.EndsBehindMark := by
  constructor
  · rintro hatomic ⟨block, rest, hblocks, hcurrent, hhandler, hmarked⟩
    obtain ⟨state, hstate, hmarked⟩ := (Option.any_eq_true _ _).mp hmarked
    have hrun := endBlock_of_marked hblocks hcurrent hhandler hstate hmarked
    have hsame : (endBlock.on b).2 = b := hatomic (accepted_of_error hrun)
    -- Even so the block is gone.
    have hrest : rest = b.blocks := by
      rw [hrun] at hsame
      exact congrArg Builder.blocks hsame
    rw [hblocks] at hrest
    exact List.cons_ne_self _ _ hrest.symm
  · intro hopen
    rcases endBlock_cases b with ⟨block, rest, hblocks, hcurrent, hhandler, hrun⟩ | ⟨e, hrun⟩
    · have hknown : block.endLabel < b.labels.length :=
        hb block (hblocks ▸ List.mem_cons_self)
      have hstate := List.getElem?_eq_getElem hknown
      cases hmarked : b.labels[block.endLabel].marked with
      | true =>
          refine absurd ⟨block, rest, hblocks, hcurrent, hhandler, ?_⟩ hopen
          rw [isMarked, hstate]
          exact hmarked
      | false => exact .of_ok (hrun.trans (mark_of_unreachable hcurrent hstate hmarked))
    · exact .of_error hrun

/-- An operation on exception blocks that is rejected leaves no trace, with one exception: where the
block could end, and only its end label is marked already, the end is rejected when the block is
gone and its end is written down. -/
theorem blocks_all_or_nothing_unless_end_marked (g : Graph) (arguments : List Ty)
    (result : Option Ty) (commands : List Command) (exception : Ty) :
    let b := (new g arguments result).run commands
    Command.beginTry.AllOrNothing b ∧ (Command.beginCatch exception).AllOrNothing b ∧
      Command.beginFinally.AllOrNothing b ∧
      (Command.endBlock.AllOrNothing b ↔ ¬ b.EndsBehindMark) ∧
      ∀ (block : Block) (rest : List Block) (state : LabelState), b.blocks = block :: rest →
        b.current = none → block.hasHandler = true → b.labels[block.endLabel]? = some state →
        state.marked = true →
        endBlock.on b = (.error (.duplicateLabel state.name),
          { b with blocks := rest, emitted := .marker .close :: b.emitted }) := by
  intro b
  have hknown : b.EndsKnown :=
    run_keeps Edit.endsKnown (fun _ hblock => absurd hblock List.not_mem_nil) commands
  exact ⟨allOrNothing_beginTry b, allOrNothing_beginCatch exception b, allOrNothing_beginFinally b,
    allOrNothing_endBlock hknown, fun _ _ _ => endBlock_of_marked⟩

/-- The handler marks the end label of its own block. -/
theorem closed_without_mark :
    let b := (new .library [] none).run
      [.beginTry, .branch (.leave 0), .beginCatch .exception, .push .pop, .branch (.leave 0),
        .mark 0, .branch (.leave 0)]
    b.blocks = [⟨0, .catchBlock, false, true⟩] ∧ Command.endBlock.accepted b = false ∧
      (Command.endBlock.apply b).blocks = [] ∧
      (Command.endBlock.apply b).listing = b.listing ++ [.marker .close] :=
  ⟨rfl, rfl, rfl, rfl⟩

end Builder

end ManagedCode
