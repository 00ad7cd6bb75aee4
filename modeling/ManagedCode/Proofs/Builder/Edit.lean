import ManagedCode.Proofs.Builder.Run
import Mathlib.Logic.Relation

namespace ManagedCode

/-! A run, however its commands end, is a chain of single edits of the builder. -/

namespace Builder

inductive Edit (b : Builder) : Builder → Prop where
  | settings (settings : Settings) : Edit b (b.withSettings settings)
  | declareLocal (t : Ty) : b.locals.size < UInt16.size → Edit b { b with locals := b.locals.push t }
  | define (name : String) : Edit b { b with labels := b.labels ++ [⟨name, none, false⟩] }
  | push {i : Instruction} : ((b.context.verify i).on b.stack).1 = .ok () →
      Edit b
        { b with
          current := some ((b.context.verify i).on b.stack).2
          maxStack := max b.maxStack ((b.context.verify i).on b.stack).2.depth
          emitted := .instruction i :: b.emitted }
  /-- The operands that a rejected instruction has taken stay away. -/
  | reject {i : Instruction} {e : VerifyError} : ((b.context.verify i).on b.stack).1 = .error e →
      Edit b { b with current := some ((b.context.verify i).on b.stack).2 }
  | branch {i : Branch} {tested : Option StackEntry} {stack : EvalStack} :
      (b.context.transfer i).on b.stack = (.ok tested, stack) →
      (∀ l ∈ i.targets, ∃ state, b.labels[l]? = some state ∧
        state.accepts (targetShape b.settings stack tested) = true) →
      Edit b (b.behind i stack (targetShape b.settings stack tested))
  | mark {l : Label} {state : LabelState} : b.labels[l]? = some state → state.marked = false →
      (∀ stack, b.current = some stack → state.accepts stack.shape = true) →
      Edit b (b.behindMark l state)
  | retype {general special : StackType} {stack : EvalStack} : b.current = some stack →
      stack.peek? = some special → special.fits b.graph general = true →
      Edit b { b with current := some (stack.retypeTop general) }
  | widen {l : Label} {state : LabelState} {recorded current joined : StackType} {rest : Shape}
      {stack : EvalStack} : b.labels[l]? = some state → state.shape = some (recorded :: rest) →
      b.current = some stack → stack.peek? = some current →
      current.join b.graph recorded = some joined → Edit b (b.behindWidening l stack joined)
  | beginTry (endLabel : Label) : b.stack.isEmpty = true → endLabel < b.labels.length →
      Edit b
        { b with
          current := some b.stack
          blocks := ⟨endLabel, .tryBlock, false, false⟩ :: b.blocks
          emitted := .marker .beginTry :: b.emitted }
  | beginCatch {block : Block} {rest : List Block} {exception : Ty} : b.blocks = block :: rest →
      b.current = none → block.hasFinally = false →
      Edit b
        { b with
          current := some (.ofShape [.simple exception])
          maxStack := max b.maxStack 1
          blocks := { block with region := .catchBlock, hasHandler := true } :: rest
          emitted := .marker (.beginCatch exception) :: b.emitted }
  | beginFinally {block : Block} {rest : List Block} : b.blocks = block :: rest →
      b.current = none → block.hasFinally = false →
      Edit b
        { b with
          current := some .empty
          blocks :=
            { block with region := .finallyBlock, hasFinally := true, hasHandler := true } :: rest
          emitted := .marker .beginFinally :: b.emitted }
  | close {block : Block} {rest : List Block} : b.blocks = block :: rest → b.current = none →
      block.hasHandler = true →
      Edit b { b with blocks := rest, emitted := .marker .close :: b.emitted }

/-- As many edits as it takes. -/
abbrev Edits : Builder → Builder → Prop := Relation.ReflTransGen Edit

variable {b : Builder}

theorem edits_push (i : Instruction) : (push i).Keeps (Edits b) := by
  intro b' hb
  apply hb.tail
  rcases push_cases i b' with ⟨haccepted, hrun⟩ | ⟨e, hrejected, hrun⟩
  · rw [hrun]
    exact .push haccepted
  · rw [hrun]
    exact .reject hrejected

theorem edits_declareLocal (t : Ty) : (declareLocal t).Keeps (Edits b) := by
  intro b' hb
  rw [on_declareLocal]
  split
  · exact hb.tail (.declareLocal t ‹_›)
  · exact hb

theorem edits_branch (i : Branch) : (branch i).Keeps (Edits b) := by
  intro b' hb
  rcases branch_cases i b' with ⟨tested, stack, htransfer, haccepts, hrun⟩ | ⟨e, hrun⟩
  · rw [hrun]
    exact hb.tail (.branch htransfer haccepts)
  · rw [hrun]
    exact hb

theorem edits_mark (l : Label) : (mark l).Keeps (Edits b) := by
  intro b' hb
  rcases mark_cases l b' with ⟨state, hstate, hopen, haccepts, hrun⟩ | ⟨e, hrun⟩
  · rw [hrun]
    exact hb.tail (.mark hstate hopen haccepts)
  · rw [hrun]
    exact hb

theorem edits_generalize (general : StackType) : (generalize general).Keeps (Edits b) := by
  intro b' hb
  rcases generalize_cases general b' with
    ⟨-, hrun⟩ | ⟨stack, special, hcurrent, hpeek, hfits, hrun⟩ | ⟨e, hrun⟩
  · rw [hrun]
    exact hb
  · rw [hrun]
    exact hb.tail (.retype hcurrent hpeek hfits)
  · rw [hrun]
    exact hb

theorem edits_generalizeForLabel (l : Label) : (generalizeForLabel l).Keeps (Edits b) := by
  intro b' hb
  rcases generalizeForLabel_cases l b' with
    ⟨state, recorded, rest, stack, current, joined, hstate, hshape, hstack, hpeek, hjoin, hrun⟩ |
      hrun
  · rw [hrun]
    exact hb.tail (.widen hstate hshape hstack hpeek hjoin)
  · rw [hrun]
    exact hb

/-- The end label is defined before the block begins. -/
theorem edits_beginTry : beginTry.Keeps (Edits b) := by
  intro b' hb
  rcases beginTry_cases b' with ⟨hempty, hrun⟩ | ⟨e, hrun⟩
  · rw [hrun]
    have hdefined := hb.tail (.define ("END_EXCEPTION_BLOCK_" ++ toString b'.labels.length))
    refine hdefined.tail (.beginTry b'.labels.length hempty ?_)
    rw [List.length_append]
    exact Nat.lt_succ_self _
  · rw [hrun]
    exact hb

theorem edits_beginCatch (exception : Ty) : (beginCatch exception).Keeps (Edits b) := by
  intro b' hb
  rcases beginCatch_cases exception b' with
    ⟨block, rest, hblocks, hcurrent, hfinally, -, hrun⟩ | ⟨e, hrun⟩
  · rw [hrun]
    exact hb.tail (.beginCatch hblocks hcurrent hfinally)
  · rw [hrun]
    exact hb

theorem edits_beginFinally : beginFinally.Keeps (Edits b) := by
  intro b' hb
  rcases beginFinally_cases b' with ⟨block, rest, hblocks, hcurrent, hfinally, hrun⟩ | ⟨e, hrun⟩
  · rw [hrun]
    exact hb.tail (.beginFinally hblocks hcurrent hfinally)
  · rw [hrun]
    exact hb

/-- The block is closed even if the mark behind it fails. -/
theorem edits_endBlock : endBlock.Keeps (Edits b) := by
  intro b' hb
  rcases endBlock_cases b' with ⟨block, rest, hblocks, hcurrent, hhandler, hrun⟩ | ⟨e, hrun⟩
  · rw [hrun]
    exact edits_mark block.endLabel _ (hb.tail (.close hblocks hcurrent hhandler))
  · rw [hrun]
    exact hb

end Builder

namespace Command

open Builder Emit

variable {b : Builder}

theorem edits (c : Command) : c.perform.Keeps (Edits b) := by
  cases c with
  | withSettings settings => exact fun b' hb => hb.tail (.settings settings)
  | declareLocal t => exact (edits_declareLocal t).bind fun _ => keeps_pure ()
  | defineLabel name => exact fun b' hb => hb.tail (.define name)
  | push i => exact edits_push i
  | branch i => exact edits_branch i
  | mark l => exact edits_mark l
  | generalize general => exact edits_generalize general
  | generalizeForLabel l => exact edits_generalizeForLabel l
  | beginTry => exact edits_beginTry.bind fun _ => keeps_pure ()
  | beginCatch exception => exact edits_beginCatch exception
  | beginFinally => exact edits_beginFinally
  | endBlock => exact edits_endBlock
  | zeroLocal index => exact keeps_zeroLocal index fun _ _ _ _ i _ => edits_push i
  | callMethod m => exact edits_push _

end Command

namespace Builder

theorem edits_run (b : Builder) (commands : List Command) : b.Edits (b.run commands) := by
  induction commands generalizing b with
  | nil => exact .refl
  | cons c rest ih => exact (c.edits b .refl).trans (ih (c.apply b))

/-- What every edit keeps, every run keeps. -/
theorem run_keeps {P : Builder → Prop} (hedit : ∀ {b b' : Builder}, b.Edit b' → P b → P b')
    {b : Builder} (hb : P b) (commands : List Command) : P (b.run commands) := by
  have hedits := b.edits_run commands
  generalize b.run commands = b' at hedits ⊢
  induction hedits with
  | refl => exact hb
  | tail _ hlast ih => exact hedit hlast ih

end Builder

end ManagedCode
