import ManagedCode.Proofs.Builder.Operations

namespace ManagedCode.Builder

/-! The operations at the current place and on exception blocks: what accepts them, and what they
then do. -/

open Emit

theorem on_declareLocal (t : Ty) (b : Builder) :
    (declareLocal t).on b =
      if b.locals.size < UInt16.size then
        (.ok (.ofNat b.locals.size), { b with locals := b.locals.push t })
      else (.error (.rejected (.declareLocal t) (.operand .tooManyLocals)), b) := by
  unfold declareLocal
  rw [on_bind]
  change (if b.locals.size < UInt16.size then do
      modify fun b => { b with locals := b.locals.push t }
      return .ofNat b.locals.size
    else throw (.rejected (.declareLocal t) (.operand .tooManyLocals)) : Emit UInt16).on b = _
  split
  · rfl
  · rfl

theorem push_cases (i : Instruction) (b : Builder) :
    ((b.context.verify i).on b.stack).1 = .ok () ∧
      (push i).on b = (.ok (),
        { b with
          current := some ((b.context.verify i).on b.stack).2
          maxStack := max b.maxStack ((b.context.verify i).on b.stack).2.depth
          emitted := .instruction i :: b.emitted }) ∨
    ∃ e, ((b.context.verify i).on b.stack).1 = .error e ∧
      (push i).on b = (.error (.rejected (.instruction i) e),
        { b with current := some ((b.context.verify i).on b.stack).2 }) := by
  unfold push
  rw [on_bind, on_get]
  simp only []
  rcases (b.context.verify i).on b.stack with ⟨e | _, stack⟩
  · exact .inr ⟨e, rfl, rfl⟩
  · exact .inl ⟨rfl, rfl⟩

theorem beginTry_cases (b : Builder) :
    (b.stack.isEmpty = true ∧
      beginTry.on b = (.ok b.labels.length,
        { b with
          current := some b.stack
          labels := b.labels ++
            [⟨"END_EXCEPTION_BLOCK_" ++ toString b.labels.length, none, false⟩]
          blocks := ⟨b.labels.length, .tryBlock, false, false⟩ :: b.blocks
          emitted := .marker .beginTry :: b.emitted })) ∨
    ∃ e, beginTry.on b = (.error e, b) := by
  unfold beginTry
  rw [on_bind, on_get]
  simp only []
  cases hempty : b.stack.isEmpty with
  | false => exact .inr ⟨_, rfl⟩
  | true => exact .inl ⟨rfl, rfl⟩

theorem closeRegion_of_unreachable {b : Builder} {block : Block} {rest : List Block}
    (hblocks : b.blocks = block :: rest) (hcurrent : b.current = none) (action : Action) :
    (closeRegion action).on b = (.ok block, b) := by
  unfold closeRegion
  rw [on_bind, on_get]
  simp only [hblocks, isReachable, hcurrent]
  rfl

theorem closeRegion_cases (action : Action) (b : Builder) :
    (∃ block rest, b.blocks = block :: rest ∧ b.current = none ∧
      (closeRegion action).on b = (.ok block, b)) ∨
    ∃ e, (closeRegion action).on b = (.error e, b) := by
  cases hblocks : b.blocks with
  | nil =>
      refine .inr ⟨.blockMisuse (.outside action), ?_⟩
      unfold closeRegion
      rw [on_bind, on_get]
      simp only [hblocks]
      rfl
  | cons block rest =>
      cases hcurrent : b.current with
      | some stack =>
          refine .inr ⟨.rejected action (.controlFlow .regionFallsThrough), ?_⟩
          unfold closeRegion
          rw [on_bind, on_get]
          simp only [hblocks, isReachable, hcurrent]
          rfl
      | none =>
          exact .inl ⟨block, rest, rfl, rfl, closeRegion_of_unreachable hblocks hcurrent action⟩

theorem beginCatch_cases (exception : Ty) (b : Builder) :
    (∃ block rest, b.blocks = block :: rest ∧ b.current = none ∧ block.hasFinally = false ∧
      (StackType.simple exception).isAssignableTo b.graph .exception = true ∧
      (beginCatch exception).on b = (.ok (),
        { b with
          current := some (.ofShape [.simple exception])
          maxStack := max b.maxStack 1
          blocks := { block with region := .catchBlock, hasHandler := true } :: rest
          emitted := .marker (.beginCatch exception) :: b.emitted })) ∨
    ∃ e, (beginCatch exception).on b = (.error e, b) := by
  unfold beginCatch
  rw [on_bind]
  rcases closeRegion_cases (.beginCatch exception) b with
    ⟨block, rest, hblocks, hcurrent, hrun⟩ | ⟨e, hrun⟩
  · rw [hrun]
    simp only []
    rw [on_bind, on_get]
    simp only []
    cases hassignable : (StackType.simple exception).isAssignableTo b.graph .exception with
    | false => exact .inr ⟨_, rfl⟩
    | true =>
        cases hfinally : block.hasFinally with
        | true => exact .inr ⟨_, rfl⟩
        | false =>
            refine .inl ⟨block, rest, hblocks, hcurrent, hfinally, rfl, ?_⟩
            simp only [Bool.not_true, Bool.false_eq_true, if_false, on_bind, on_modify, replaceBlock,
              emit, hblocks, List.tail_cons, hfinally]
  · rw [hrun]
    exact .inr ⟨e, rfl⟩

theorem beginFinally_cases (b : Builder) :
    (∃ block rest, b.blocks = block :: rest ∧ b.current = none ∧ block.hasFinally = false ∧
      beginFinally.on b = (.ok (),
        { b with
          current := some .empty
          blocks :=
            { block with region := .finallyBlock, hasFinally := true, hasHandler := true } :: rest
          emitted := .marker .beginFinally :: b.emitted })) ∨
    ∃ e, beginFinally.on b = (.error e, b) := by
  unfold beginFinally
  rw [on_bind]
  rcases closeRegion_cases .beginFinally b with ⟨block, rest, hblocks, hcurrent, hrun⟩ | ⟨e, hrun⟩
  · rw [hrun]
    simp only []
    cases hfinally : block.hasFinally with
    | true => exact .inr ⟨_, rfl⟩
    | false =>
        refine .inl ⟨block, rest, hblocks, hcurrent, hfinally, ?_⟩
        simp only [Bool.false_eq_true, if_false, on_bind, on_modify, replaceBlock, emit, hblocks,
          List.tail_cons]
  · rw [hrun]
    exact .inr ⟨e, rfl⟩

/-- The end of a block is never reached from above, so its label is marked as it is. -/
theorem endBlock_of_handler {b : Builder} {block : Block} {rest : List Block}
    (hblocks : b.blocks = block :: rest) (hcurrent : b.current = none)
    (hhandler : block.hasHandler = true) :
    endBlock.on b = (mark block.endLabel).on
      { b with blocks := rest, emitted := .marker .close :: b.emitted } := by
  unfold endBlock
  rw [on_bind, closeRegion_of_unreachable hblocks hcurrent]
  simp only [hhandler, Bool.not_true, Bool.false_eq_true, if_false, on_bind, on_modify, emit,
    hblocks, List.tail_cons]

theorem endBlock_cases (b : Builder) :
    (∃ block rest, b.blocks = block :: rest ∧ b.current = none ∧ block.hasHandler = true ∧
      endBlock.on b = (mark block.endLabel).on
        { b with blocks := rest, emitted := .marker .close :: b.emitted }) ∨
    ∃ e, endBlock.on b = (.error e, b) := by
  rcases closeRegion_cases .endBlock b with ⟨block, rest, hblocks, hcurrent, hrun⟩ | ⟨e, hrun⟩
  · cases hhandler : block.hasHandler with
    | false =>
        refine .inr ⟨.blockMisuse .noHandler, ?_⟩
        unfold endBlock
        rw [on_bind, hrun]
        simp only [hhandler]
        rfl
    | true =>
        exact .inl
          ⟨block, rest, hblocks, hcurrent, hhandler, endBlock_of_handler hblocks hcurrent hhandler⟩
  · refine .inr ⟨e, ?_⟩
    unfold endBlock
    rw [on_bind, hrun]

section

variable {P : Builder → Prop}

theorem keeps_pushes {instructions : List Instruction} (h : ∀ i ∈ instructions, (push i).Keeps P) :
    (forIn instructions PUnit.unit fun i _ => do
      push i
      pure (ForInStep.yield PUnit.unit) : Emit PUnit).Keeps P := by
  induction instructions with
  | nil => exact keeps_pure _
  | cons i rest ih =>
      obtain ⟨hi, hrest⟩ := List.forall_mem_cons.mp h
      rw [List.forIn_cons]
      refine Keeps.bind ?_ fun step => ?_
      · exact hi.bind fun _ => keeps_pure _
      · cases step with
        | done => exact keeps_pure _
        | yield => exact ih hrest

theorem keeps_zeroLocal (index : UInt16)
    (h : ∀ b, P b → ∀ t ∈ b.locals, ∀ i ∈ zeroOf t ++ [.stloc index, .ldloca index, .initobj t],
      (push i).Keeps P) : (zeroLocal index).Keeps P := by
  intro b hb
  unfold zeroLocal
  rw [on_bind, on_get]
  simp only []
  cases hlocal : b.locals[index.toNat]? with
  | none => exact hb
  | some t =>
      obtain ⟨hzero, hrest⟩ :=
        List.forall_mem_append.mp (h b hb t (Array.mem_of_getElem? hlocal))
      obtain ⟨hstore, hrest⟩ := List.forall_mem_cons.mp hrest
      obtain ⟨haddress, hrest⟩ := List.forall_mem_cons.mp hrest
      obtain ⟨hclear, -⟩ := List.forall_mem_cons.mp hrest
      simp only []
      split
      · exact (keeps_pushes hzero).bind (fun _ => hstore) b hb
      · exact haddress.bind (fun _ => hclear) b hb

end

/-! The types of the arguments and the locals. Only the declaration of a local adds to them. -/

section PlacesIn

variable {ts : List Ty}

def types (b : Builder) : List Ty := b.arguments.toList ++ b.locals.toList

def PlacesIn (ts : List Ty) (b : Builder) : Prop := b.types ⊆ ts

theorem placesIn_declareLocal {t : Ty} (ht : t ∈ ts) : (declareLocal t).Keeps (PlacesIn ts) := by
  intro b hb
  rw [on_declareLocal]
  split
  · have hpushed : (b.locals.push t).toList = b.locals.toList ++ [t] := Array.toList_push
    rw [PlacesIn, types] at hb ⊢
    rw [hpushed, ← List.append_assoc]
    exact List.append_subset.mpr ⟨hb, List.cons_subset.mpr ⟨ht, List.nil_subset _⟩⟩
  · exact hb

theorem placesIn_push (i : Instruction) : (push i).Keeps (PlacesIn ts) := by
  intro b hb
  rcases push_cases i b with ⟨-, hrun⟩ | ⟨e, -, hrun⟩
  · rw [hrun]
    exact hb
  · rw [hrun]
    exact hb

theorem placesIn_branch (i : Branch) : (branch i).Keeps (PlacesIn ts) := by
  intro b hb
  rcases branch_cases i b with ⟨tested, stack, -, -, hrun⟩ | ⟨e, hrun⟩
  · rw [hrun]
    exact hb
  · rw [hrun]
    exact hb

theorem placesIn_mark (l : Label) : (mark l).Keeps (PlacesIn ts) := by
  intro b hb
  rcases mark_cases l b with ⟨state, -, -, -, hrun⟩ | ⟨e, hrun⟩
  · rw [hrun]
    exact hb
  · rw [hrun]
    exact hb

theorem placesIn_beginTry : beginTry.Keeps (PlacesIn ts) := by
  intro b hb
  rcases beginTry_cases b with ⟨-, hrun⟩ | ⟨e, hrun⟩
  · rw [hrun]
    exact hb
  · rw [hrun]
    exact hb

theorem placesIn_beginCatch (exception : Ty) : (beginCatch exception).Keeps (PlacesIn ts) := by
  intro b hb
  rcases beginCatch_cases exception b with ⟨block, rest, -, -, -, -, hrun⟩ | ⟨e, hrun⟩
  · rw [hrun]
    exact hb
  · rw [hrun]
    exact hb

theorem placesIn_beginFinally : beginFinally.Keeps (PlacesIn ts) := by
  intro b hb
  rcases beginFinally_cases b with ⟨block, rest, -, -, -, hrun⟩ | ⟨e, hrun⟩
  · rw [hrun]
    exact hb
  · rw [hrun]
    exact hb

theorem placesIn_endBlock : endBlock.Keeps (PlacesIn ts) := by
  intro b hb
  rcases endBlock_cases b with ⟨block, rest, -, -, -, hrun⟩ | ⟨e, hrun⟩
  · rw [hrun]
    exact placesIn_mark block.endLabel _ hb
  · rw [hrun]
    exact hb

end PlacesIn

end ManagedCode.Builder
