import ManagedCode.Proofs.Builder.Places

namespace ManagedCode

/-! Runs of a builder. An operation that is rejected is part of a run as well, with whatever it
leaves behind. -/

inductive Command where
  | withSettings (settings : Settings)
  | declareLocal (t : Ty)
  | defineLabel (name : String)
  | push (i : Instruction)
  | branch (i : Branch)
  | mark (l : Label)
  | generalize (general : StackType)
  | generalizeForLabel (l : Label)
  | beginTry
  | beginCatch (exception : Ty)
  | beginFinally
  | endBlock
  | zeroLocal (index : UInt16)
  | callMethod (m : Method)

namespace Command

def perform : Command → Emit Unit
  | withSettings settings => modify (·.withSettings settings)
  | declareLocal t => do let _ ← Builder.declareLocal t
  | defineLabel name => do let _ ← Builder.defineLabel name
  | push i => Builder.push i
  | branch i => Builder.branch i
  | mark l => Builder.mark l
  | generalize general => Builder.generalize general
  | generalizeForLabel l => Builder.generalizeForLabel l
  | beginTry => do let _ ← Builder.beginTry
  | beginCatch exception => Builder.beginCatch exception
  | beginFinally => Builder.beginFinally
  | endBlock => Builder.endBlock
  | zeroLocal index => Builder.zeroLocal index
  | callMethod m => Builder.callMethod m

def accepted (c : Command) (b : Builder) : Bool := (c.perform.on b).1.isOk

def apply (c : Command) (b : Builder) : Builder := (c.perform.on b).2

section

variable {c : Command} {b b' : Builder} {e : BuildError}

theorem accepted_of_ok (h : c.perform.on b = (.ok (), b')) : c.accepted b = true := by
  rw [accepted, h]
  rfl

theorem accepted_of_error (h : c.perform.on b = (.error e, b')) : c.accepted b = false := by
  rw [accepted, h]
  rfl

end

/-- The stacks that arrive at labels, through an accepted branch or by falling into a mark. The end
of an exception block is never fallen into. -/
def arrivals (c : Command) (b : Builder) : List (Label × Shape) :=
  if c.accepted b then
    match c with
    | branch i => (b.propagated? i).toList.flatMap fun shape => i.targets.map (·, shape)
    | mark l => b.current.toList.map fun stack => (l, stack.shape)
    | _ => []
  else []

end Command

namespace Builder

def run (b : Builder) : List Command → Builder
  | [] => b
  | c :: rest => (c.apply b).run rest

/-- All that has arrived at labels during a run, the latest first. -/
def history (b : Builder) : List Command → List (Label × Shape)
  | [] => []
  | c :: rest => (c.apply b).history rest ++ c.arrivals b

end Builder

/-! The state of a label during a run. -/

namespace Command

/-- What one command does to the state of a label. -/
inductive Evolves (c : Command) (b : Builder) (l : Label) : LabelState → LabelState → Prop where
  | same (state : LabelState) : Evolves c b l state state
  | arrive {state : LabelState} {shape : Shape} : (l, shape) ∈ c.arrivals b →
      state.accepts shape = true → Evolves c b l state (state.record shape)
  | mark {state : LabelState} : state.marked = false →
      Evolves c b l state { state with shape := some (state.shape.getD []), marked := true }
  | fallInto {state : LabelState} {shape : Shape} : state.marked = false →
      (l, shape) ∈ c.arrivals b → state.accepts shape = true →
      Evolves c b l state { state.record shape with marked := true }
  | widen {state : LabelState} {recorded current joined : StackType} {rest : Shape} :
      state.marked = false → state.shape = some (recorded :: rest) →
      b.current.bind EvalStack.peek? = some current → current.join b.graph recorded = some joined →
      c = generalizeForLabel l → Evolves c b l state { state with shape := some (joined :: rest) }

/-- What one command does to all labels. -/
structure Develops (c : Command) (b : Builder) (labels : List LabelState) : Prop where
  known : ∀ {l : Label} {state : LabelState}, b.labels[l]? = some state →
    ∃ state', labels[l]? = some state' ∧ c.Evolves b l state state'
  fresh : ∀ {l : Label} {state : LabelState}, labels[l]? = some state →
    (∃ before, b.labels[l]? = some before) ∨ state.shape = none ∧ state.marked = false

theorem develops_same (c : Command) (b : Builder) : c.Develops b b.labels :=
  ⟨fun h => ⟨_, h, .same _⟩, fun h => .inl ⟨_, h⟩⟩

theorem develops_define (c : Command) (b : Builder) (name : String) :
    c.Develops b (b.labels ++ [⟨name, none, false⟩]) where
  known := by
    intro l state h
    obtain ⟨hl, -⟩ := List.getElem?_eq_some_iff.mp h
    exact ⟨state, by rw [List.getElem?_append_left hl, h], .same state⟩
  fresh := by
    intro l state' h
    by_cases hl : l < b.labels.length
    · exact .inl ⟨b.labels[l], List.getElem?_eq_getElem hl⟩
    · rw [List.getElem?_append_right (Nat.not_lt.mp hl)] at h
      have hmem : state' ∈ [(⟨name, none, false⟩ : LabelState)] := List.mem_of_getElem? h
      cases List.mem_singleton.mp hmem
      exact .inr ⟨rfl, rfl⟩

theorem develops_set {c : Command} {b : Builder} {l : Label} {state state' : LabelState}
    (hstate : b.labels[l]? = some state) (h : c.Evolves b l state state') :
    c.Develops b (b.labels.set l state') where
  known := by
    intro m known hknown
    by_cases hm : l = m
    · subst hm
      cases hstate.symm.trans hknown
      obtain ⟨hl, -⟩ := List.getElem?_eq_some_iff.mp hstate
      exact ⟨state', List.getElem?_set_self hl, h⟩
    · exact ⟨known, by rw [List.getElem?_set_ne hm, hknown], .same known⟩
  fresh := by
    intro m found hfound
    have hm : m < b.labels.length := by
      have := (List.getElem?_eq_some_iff.mp hfound).1
      rwa [List.length_set] at this
    exact .inl ⟨b.labels[m], List.getElem?_eq_getElem hm⟩

theorem arrivals_cases {c : Command} {b : Builder} {l : Label} {arrived : Shape}
    (h : (l, arrived) ∈ c.arrivals b) :
    c.accepted b = true ∧
      ((∃ i : Branch, c = branch i ∧ l ∈ i.targets ∧ b.propagated? i = some arrived) ∨
        ∃ stack, c = mark l ∧ b.current = some stack ∧ arrived = stack.shape) := by
  unfold arrivals at h
  split at h
  case isFalse => cases h
  case isTrue haccepted =>
    refine ⟨haccepted, ?_⟩
    cases c with
    | branch i =>
        obtain ⟨shape, hshape, hmem⟩ := List.mem_flatMap.mp h
        obtain ⟨target, htarget, heq⟩ := List.mem_map.mp hmem
        cases heq
        exact .inl ⟨i, rfl, htarget, Option.mem_toList.mp hshape⟩
    | mark target =>
        obtain ⟨stack, hcurrent, heq⟩ := List.mem_map.mp h
        cases heq
        exact .inr ⟨stack, rfl, Option.mem_toList.mp hcurrent, rfl⟩
    | _ => cases h

theorem mem_arrivals_of_branch {i : Branch} {b : Builder} {l : Label} {shape : Shape}
    (haccepted : (branch i).accepted b = true) (hl : l ∈ i.targets)
    (hshape : b.propagated? i = some shape) : (l, shape) ∈ (branch i).arrivals b := by
  rw [arrivals, if_pos haccepted, hshape]
  simpa using hl

theorem develops_branch (i : Branch) (b : Builder) :
    (branch i).Develops b ((branch i).apply b).labels := by
  rcases Builder.branch_cases i b with ⟨tested, stack, htransfer, haccepts, hrun⟩ | ⟨e, hrun⟩
  · have happly : (branch i).apply b =
        b.behind i stack (Builder.targetShape b.settings stack tested) := congrArg Prod.snd hrun
    have haccepted : (branch i).accepted b = true := accepted_of_ok hrun
    have hshape : b.propagated? i = some (Builder.targetShape b.settings stack tested) := by
      rw [Builder.propagated?, htransfer]
    rw [happly]
    refine ⟨?_, ?_⟩
    · intro l state hstate
      by_cases hl : l ∈ i.targets
      · obtain ⟨known, hknown, hfits⟩ := haccepts l hl
        cases hstate.symm.trans hknown
        refine ⟨state.record (Builder.targetShape b.settings stack tested), ?_,
          .arrive (mem_arrivals_of_branch haccepted hl hshape) hfits⟩
        rw [Builder.behind, Builder.getElem?_recordArrivals, if_pos hl, hstate]
        rfl
      · refine ⟨state, ?_, .same state⟩
        rw [Builder.behind, Builder.getElem?_recordArrivals, if_neg hl, hstate]
    · intro l state' hstate'
      rw [Builder.behind, Builder.getElem?_recordArrivals] at hstate'
      split at hstate'
      · obtain ⟨state, hstate, -⟩ := Option.map_eq_some_iff.mp hstate'
        exact .inl ⟨state, hstate⟩
      · exact .inl ⟨state', hstate'⟩
  · have happly : (branch i).apply b = b := congrArg Prod.snd hrun
    rw [happly]
    exact develops_same _ b

theorem develops_mark (l : Label) (b : Builder) :
    (mark l).Develops b ((mark l).apply b).labels := by
  rcases Builder.mark_cases l b with ⟨state, hstate, hmarked, haccepts, hrun⟩ | ⟨e, hrun⟩
  · have happly : (mark l).apply b = b.behindMark l state := congrArg Prod.snd hrun
    have haccepted : (mark l).accepted b = true := accepted_of_ok hrun
    rw [happly]
    refine develops_set hstate ?_
    cases hcurrent : b.current with
    | none => exact .mark hmarked
    | some stack =>
        refine .fallInto hmarked ?_ (haccepts stack hcurrent)
        rw [arrivals, if_pos haccepted, hcurrent]
        exact List.mem_singleton_self _
  · have happly : (mark l).apply b = b := congrArg Prod.snd hrun
    rw [happly]
    exact develops_same _ b

theorem modify_eq_set {α : Type} {xs : List α} {l : Nat} {a : α} {f : α → α} (h : xs[l]? = some a) :
    xs.modify l f = xs.set l (f a) := by
  apply List.ext_getElem?
  intro m
  rw [List.getElem?_modify, List.getElem?_set]
  by_cases hm : l = m
  · subst hm
    obtain ⟨hl, rfl⟩ := List.getElem?_eq_some_iff.mp h
    simp [hl]
  · simp [hm]

theorem develops_generalizeForLabel (l : Label) (b : Builder) :
    (generalizeForLabel l).Develops b ((generalizeForLabel l).apply b).labels := by
  rcases Builder.generalizeForLabel_cases l b with
    ⟨state, recorded, rest, stack, current, joined, hstate, hshape, hstack, hpeek, hjoin, hrun⟩ |
      hrun
  · have happly : (generalizeForLabel l).apply b = b.behindWidening l stack joined :=
      congrArg Prod.snd hrun
    have htop : b.current.bind EvalStack.peek? = some current := by rw [hstack]; exact hpeek
    rw [happly, Builder.behindWidening]
    simp only []
    rw [modify_eq_set hstate]
    refine develops_set hstate ?_
    simp only [Builder.widenTop, hshape]
    by_cases hmarked : state.marked = true
    · rw [if_pos hmarked]
      exact .same state
    · rw [if_neg hmarked]
      exact .widen (Bool.eq_false_iff.mpr hmarked) hshape htop hjoin rfl
  · have happly : (generalizeForLabel l).apply b = b := hrun
    rw [happly]
    exact develops_same _ b

end Command

/-! Operations that leave the labels alone. -/

namespace Builder

open Emit

variable {labels : List LabelState}

theorem labels_push (i : Instruction) : (push i).Keeps fun b => b.labels = labels := by
  intro b hb
  rcases push_cases i b with ⟨-, hrun⟩ | ⟨e, -, hrun⟩
  · rw [hrun]
    exact hb
  · rw [hrun]
    exact hb

theorem labels_zeroLocal (index : UInt16) : (zeroLocal index).Keeps fun b => b.labels = labels :=
  keeps_zeroLocal index fun _ _ _ _ i _ => labels_push i

theorem labels_declareLocal (t : Ty) : (declareLocal t).Keeps fun b => b.labels = labels := by
  intro b hb
  rw [on_declareLocal]
  split
  · exact hb
  · exact hb

theorem labels_generalize (general : StackType) :
    (generalize general).Keeps fun b => b.labels = labels := by
  intro b hb
  rcases generalize_cases general b with ⟨-, hrun⟩ | ⟨stack, special, -, -, -, hrun⟩ | ⟨e, hrun⟩
  · rw [hrun]
    exact hb
  · rw [hrun]
    exact hb
  · rw [hrun]
    exact hb

theorem labels_beginCatch (exception : Ty) :
    (beginCatch exception).Keeps fun b => b.labels = labels := by
  intro b hb
  rcases beginCatch_cases exception b with ⟨block, rest, -, -, -, -, hrun⟩ | ⟨e, hrun⟩
  · rw [hrun]
    exact hb
  · rw [hrun]
    exact hb

theorem labels_beginFinally : beginFinally.Keeps fun b => b.labels = labels := by
  intro b hb
  rcases beginFinally_cases b with ⟨block, rest, -, -, -, hrun⟩ | ⟨e, hrun⟩
  · rw [hrun]
    exact hb
  · rw [hrun]
    exact hb

end Builder

namespace Command

open Builder

theorem develops_of_keeps {c : Command} (b : Builder)
    (h : c.perform.Keeps fun b' => b'.labels = b.labels) : c.Develops b (c.apply b).labels := by
  have hlabels : (c.apply b).labels = b.labels := h b rfl
  rw [hlabels]
  exact develops_same c b

theorem develops_beginTry (b : Builder) : beginTry.Develops b (beginTry.apply b).labels := by
  unfold apply perform
  rw [Emit.on_bind]
  rcases beginTry_cases b with ⟨-, hrun⟩ | ⟨e, hrun⟩
  · rw [hrun]
    exact develops_define _ b _
  · rw [hrun]
    exact develops_same _ b

theorem develops_endBlock (b : Builder) : endBlock.Develops b (endBlock.apply b).labels := by
  rcases endBlock_cases b with ⟨block, rest, hblocks, hcurrent, hhandler, hrun⟩ | ⟨e, hrun⟩
  · have happly : endBlock.apply b = ((Builder.mark block.endLabel).on
        { b with blocks := rest, emitted := .marker .close :: b.emitted }).2 :=
      congrArg Prod.snd hrun
    rw [happly]
    rcases mark_cases block.endLabel
        { b with blocks := rest, emitted := .marker .close :: b.emitted } with
      ⟨state, hstate, hmarked, -, hmark⟩ | ⟨e, hmark⟩
    · rw [hmark]
      refine develops_set hstate ?_
      simp only [markedState, hcurrent]
      exact .mark hmarked
    · rw [hmark]
      exact develops_same _ b
  · have happly : endBlock.apply b = b := congrArg Prod.snd hrun
    rw [happly]
    exact develops_same _ b

theorem develops (c : Command) (b : Builder) : c.Develops b (c.apply b).labels := by
  cases c with
  | withSettings settings => exact develops_same _ b
  | declareLocal t =>
      exact develops_of_keeps b ((labels_declareLocal t).bind fun _ => Emit.keeps_pure ())
  | defineLabel name => exact develops_define _ b name
  | push i => exact develops_of_keeps b (labels_push i)
  | branch i => exact develops_branch i b
  | mark l => exact develops_mark l b
  | generalize general => exact develops_of_keeps b (labels_generalize general)
  | generalizeForLabel l => exact develops_generalizeForLabel l b
  | beginTry => exact develops_beginTry b
  | beginCatch exception => exact develops_of_keeps b (labels_beginCatch exception)
  | beginFinally => exact develops_of_keeps b labels_beginFinally
  | endBlock => exact develops_endBlock b
  | zeroLocal index => exact develops_of_keeps b (labels_zeroLocal index)
  | callMethod m => exact develops_of_keeps b (labels_push _)

/-- Whatever arrives is accepted, and the label records it. -/
theorem labels_of_mem_arrivals {c : Command} {b : Builder} {l : Label} {arrived : Shape}
    (h : (l, arrived) ∈ c.arrivals b) :
    ∃ state, b.labels[l]? = some state ∧ state.accepts arrived = true ∧
      ((c.apply b).labels[l]? = some (state.record arrived) ∨
        (c.apply b).labels[l]? = some { state.record arrived with marked := true }) := by
  obtain ⟨haccepted, ⟨i, rfl, htarget, hshape⟩ | ⟨stack, rfl, hcurrent, rfl⟩⟩ := arrivals_cases h
  · rcases branch_cases i b with ⟨tested, stack, htransfer, haccepts, hrun⟩ | ⟨e, hrun⟩
    · rw [propagated?, htransfer] at hshape
      cases hshape
      obtain ⟨state, hstate, haccepts⟩ := haccepts l htarget
      refine ⟨state, hstate, haccepts, .inl ?_⟩
      unfold apply perform
      rw [hrun, behind, getElem?_recordArrivals, if_pos htarget, hstate]
      rfl
    · cases (accepted_of_error (c := branch i) hrun).symm.trans haccepted
  · rcases mark_cases l b with ⟨state, hstate, -, haccepts, hrun⟩ | ⟨e, hrun⟩
    · refine ⟨state, hstate, haccepts stack hcurrent, .inr ?_⟩
      obtain ⟨hl, -⟩ := List.getElem?_eq_some_iff.mp hstate
      unfold apply perform
      rw [hrun, behindMark, hcurrent]
      exact List.getElem?_set_self hl
    · cases (accepted_of_error (c := mark l) hrun).symm.trans haccepted

end Command

end ManagedCode
