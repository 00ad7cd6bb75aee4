import ManagedCode.Proofs.Builder.Run
import ManagedCode.Proofs.StackType.Join
import ManagedCode.Proofs.Verify.Known

namespace ManagedCode

/-! A builder that is only told of types of its graph knows no others. -/

open StackType

def Shape.Known (g : Graph) (shape : Shape) : Prop := ∀ s ∈ shape, s.Known g

namespace Shape.Known

variable {g : Graph} {s : StackType} {shape recorded : Shape}

theorem nil : Shape.Known g [] := nofun

theorem cons (hs : s.Known g) (h : Shape.Known g shape) : Shape.Known g (s :: shape) :=
  List.forall_mem_cons.mpr ⟨hs, h⟩

theorem unify (h : Shape.Known g shape) (hrecorded : Shape.Known g recorded) :
    Shape.Known g (shape.unify recorded) := by
  induction shape generalizing recorded with
  | nil => exact hrecorded
  | cons s rest ih =>
      cases recorded with
      | nil => exact hrecorded
      | cons t recorded =>
          obtain ⟨hs, hrest⟩ := List.forall_mem_cons.mp h
          obtain ⟨ht, hrecorded⟩ := List.forall_mem_cons.mp hrecorded
          refine Known.cons ?_ (ih hrest hrecorded)
          cases t with
          | zero => exact hs
          | simple | complex => exact ht

/-- What the targets of a test see instead of the tested value is null. -/
theorem targetShape {stack : EvalStack} (h : Shape.Known g stack.shape) (settings : Settings)
    (tested : Option StackEntry) : Shape.Known g (Builder.targetShape settings stack tested) := by
  cases tested with
  | none => exact h
  | some e =>
      simp only [Builder.targetShape]
      split
      · intro s hs
        obtain ⟨entry, hentry, rfl⟩ := List.mem_map.mp hs
        split
        · trivial
        · exact h _ (List.mem_map_of_mem hentry)
      · exact h

end Shape.Known

def LabelState.Known (g : Graph) (state : LabelState) : Prop :=
  ∀ recorded, state.shape = some recorded → Shape.Known g recorded

theorem LabelState.Known.record {g : Graph} {state : LabelState} {arriving : Shape}
    (h : state.Known g) (harriving : Shape.Known g arriving) : (state.record arriving).Known g := by
  rcases state with ⟨name, _ | recorded, marked⟩
  · rintro _ ⟨⟩
    exact harriving
  · cases marked with
    | true => exact h
    | false =>
        rintro _ ⟨⟩
        exact harriving.unify (h recorded rfl)

/-- The command only mentions types of the graph. -/
def Command.Known (g : Graph) : Command → Prop
  | declareLocal t | beginCatch t => g.Knows t
  | push i => ∀ t ∈ i.types, g.Knows t
  | callMethod m => ∀ t ∈ m.types, g.Knows t
  | generalize general => general.Known g
  | _ => True

namespace Builder

open Emit

/-- What is at hand at the current place. -/
structure KnownPlace (g : Graph) (b : Builder) : Prop where
  graph : b.graph = g
  arguments : ∀ t ∈ b.arguments, g.Knows t
  locals : ∀ t ∈ b.locals, g.Knows t
  stack : Shape.Known g b.stack.shape

structure Known (g : Graph) (b : Builder) : Prop extends KnownPlace g b where
  labels : ∀ {l : Label} {state : LabelState}, b.labels[l]? = some state → state.Known g

variable {g : Graph} {b : Builder}

theorem KnownPlace.context (h : b.KnownPlace g) (hg : g.Sound) : b.context.Known := by
  obtain ⟨rfl, harguments, hlocals, -⟩ := h
  exact ⟨hg, harguments, hlocals⟩

theorem KnownPlace.current (h : b.KnownPlace g) {stack : EvalStack} (hcurrent : b.current = some stack) :
    Shape.Known g stack.shape := by
  have hstack := h.stack
  rw [Builder.stack, hcurrent] at hstack
  exact hstack

theorem KnownPlace.peek (h : b.KnownPlace g) {top : StackType}
    (htop : b.current.bind EvalStack.peek? = some top) : top.Known g := by
  obtain ⟨stack, hcurrent, hpeek⟩ := Option.bind_eq_some_iff.mp htop
  obtain ⟨e, he, rfl⟩ := Option.map_eq_some_iff.mp hpeek
  exact h.current hcurrent _ (List.mem_map_of_mem (List.mem_of_head? he))

section

variable (hg : g.Sound)
include hg

theorem knownPlace_push {i : Instruction} (hi : ∀ t ∈ i.types, g.Knows t) :
    (push i).Keeps (KnownPlace g) := by
  intro b hb
  have hgraph : b.context.graph = g := hb.graph
  have hverify := Context.keepsKnown_verify (hb.context hg) (hgraph ▸ hi)
  rw [Context.KeepsKnown, hgraph] at hverify
  have hstack := hverify.stack hb.stack
  rcases push_cases i b with ⟨-, hrun⟩ | ⟨e, -, hrun⟩
  · rw [hrun]
    exact ⟨hb.graph, hb.arguments, hb.locals, hstack⟩
  · rw [hrun]
    exact ⟨hb.graph, hb.arguments, hb.locals, hstack⟩

theorem knownPlace_zeroLocal (index : UInt16) : (zeroLocal index).Keeps (KnownPlace g) := by
  refine keeps_zeroLocal index fun b hb t ht i hi => knownPlace_push hg ?_
  have hzero : ∀ i ∈ zeroOf t, i.types = [] := by
    unfold zeroOf
    split <;> simp [Instruction.types]
  rcases List.mem_append.mp hi with hi | hi
  · rw [hzero i hi]
    exact nofun
  · rcases List.mem_cons.mp hi with rfl | hi
    · exact nofun
    rcases List.mem_cons.mp hi with rfl | hi
    · exact nofun
    cases List.mem_singleton.mp hi
    rintro _ ⟨⟩
    · exact hb.locals t ht
    · contradiction

end

theorem knownPlace_declareLocal {t : Ty} (ht : g.Knows t) :
    (declareLocal t).Keeps (KnownPlace g) := by
  intro b hb
  rw [on_declareLocal]
  split
  · refine ⟨hb.graph, hb.arguments, fun u hu => ?_, hb.stack⟩
    rcases Array.mem_push.mp hu with hu | rfl
    · exact hb.locals u hu
    · exact ht
  · exact hb

theorem known_retypeTop {stack : EvalStack} (h : Shape.Known g stack.shape) {t : StackType}
    (ht : t.Known g) : Shape.Known g (stack.retypeTop t).shape := by
  rcases stack with ⟨_ | ⟨e, rest⟩, next⟩
  · exact h
  · exact .cons ht (List.forall_mem_cons.mp h).2

theorem knownPlace_generalize {general : StackType} (h : general.Known g) :
    (generalize general).Keeps (KnownPlace g) := by
  intro b hb
  rcases generalize_cases general b with ⟨-, hrun⟩ | ⟨stack, special, hcurrent, -, -, hrun⟩ |
    ⟨e, hrun⟩
  · rw [hrun]
    exact hb
  · rw [hrun]
    exact ⟨hb.graph, hb.arguments, hb.locals, known_retypeTop (hb.current hcurrent) h⟩
  · rw [hrun]
    exact hb

theorem knownPlace_beginTry : beginTry.Keeps (KnownPlace g) := by
  intro b hb
  rcases beginTry_cases b with ⟨-, hrun⟩ | ⟨e, hrun⟩
  · rw [hrun]
    exact ⟨hb.graph, hb.arguments, hb.locals, hb.stack⟩
  · rw [hrun]
    exact hb

theorem knownPlace_beginCatch {exception : Ty} (h : g.Knows exception) :
    (beginCatch exception).Keeps (KnownPlace g) := by
  intro b hb
  rcases beginCatch_cases exception b with ⟨block, rest, -, -, -, -, hrun⟩ | ⟨e, hrun⟩
  · rw [hrun]
    exact ⟨hb.graph, hb.arguments, hb.locals, .cons h .nil⟩
  · rw [hrun]
    exact hb

theorem knownPlace_beginFinally : beginFinally.Keeps (KnownPlace g) := by
  intro b hb
  rcases beginFinally_cases b with ⟨block, rest, -, -, -, hrun⟩ | ⟨e, hrun⟩
  · rw [hrun]
    exact ⟨hb.graph, hb.arguments, hb.locals, .nil⟩
  · rw [hrun]
    exact hb

theorem Known.markedState {state : LabelState} (h : b.Known g) (hstate : state.Known g) :
    (Builder.markedState state b.current).Known g := by
  cases hcurrent : b.current with
  | none =>
      rintro _ ⟨⟩
      cases hshape : state.shape with
      | none => exact .nil
      | some recorded => exact hstate recorded hshape
  | some stack => exact hstate.record (h.current hcurrent)

theorem Known.mark (h : b.Known g) (l : Label) : ((mark l).on b).2.KnownPlace g := by
  rcases mark_cases l b with ⟨state, hstate, -, -, hrun⟩ | ⟨e, hrun⟩
  · rw [hrun]
    refine ⟨h.graph, h.arguments, h.locals, ?_⟩
    change Shape.Known g (EvalStack.ofShape _).shape
    rw [EvalStack.shape_ofShape]
    have hmarked := h.markedState (h.labels hstate)
    cases hshape : (Builder.markedState state b.current).shape with
    | none => exact .nil
    | some recorded => exact hmarked recorded hshape
  · rw [hrun]
    exact h.toKnownPlace

theorem Known.branch (h : b.Known g) (i : Branch) : ((branch i).on b).2.KnownPlace g := by
  rcases branch_cases i b with ⟨tested, stack, htransfer, -, hrun⟩ | ⟨e, hrun⟩
  · have hstack : Shape.Known g stack.shape := by
      have := b.context.keepsAll_transfer i h.stack
      rwa [htransfer] at this
    rw [hrun]
    refine ⟨h.graph, h.arguments, h.locals, ?_⟩
    rw [Builder.stack, behind]
    cases i.fallsThrough with
    | true => exact hstack
    | false => exact .nil
  · rw [hrun]
    exact h.toKnownPlace

theorem Known.endBlock (h : b.Known g) : (endBlock.on b).2.KnownPlace g := by
  rcases endBlock_cases b with ⟨block, rest, -, -, -, hrun⟩ | ⟨e, hrun⟩
  · have hclosed : Known g { b with blocks := rest, emitted := .marker .close :: b.emitted } :=
      ⟨⟨h.graph, h.arguments, h.locals, h.stack⟩, h.labels⟩
    rw [hrun]
    exact hclosed.mark block.endLabel
  · rw [hrun]
    exact h.toKnownPlace

end Builder

/-! The labels. -/

namespace Command

variable {g : Graph} {b : Builder} {c : Command} {l : Label}

theorem known_of_mem_arrivals (h : b.Known g) {arriving : Shape}
    (harriving : (l, arriving) ∈ c.arrivals b) : Shape.Known g arriving := by
  obtain ⟨-, ⟨i, rfl, -, hshape⟩ | ⟨stack, rfl, hcurrent, rfl⟩⟩ := arrivals_cases harriving
  · have hstack := b.context.keepsAll_transfer i h.stack
    rw [Builder.propagated?] at hshape
    generalize (b.context.transfer i).on b.stack = run at hshape hstack
    rcases run with ⟨e | tested, stack⟩
    · cases hshape
    · cases hshape
      exact .targetShape hstack b.settings tested
  · exact h.current hcurrent

variable (htame : g.Tame) (hg : g.Sound)
include htame hg

theorem Evolves.known {state state' : LabelState} (hevolves : c.Evolves b l state state')
    (h : b.Known g) (hstate : state.Known g) : state'.Known g := by
  cases hevolves with
  | same => exact hstate
  | arrive harriving => exact hstate.record (known_of_mem_arrivals h harriving)
  | mark =>
      rintro _ ⟨⟩
      cases hshape : state.shape with
      | none => exact .nil
      | some recorded => exact hstate recorded hshape
  | fallInto _ harriving => exact hstate.record (known_of_mem_arrivals h harriving)
  | @widen recorded current joined rest _ hshape htop hjoin =>
      obtain ⟨hrecorded, hrest⟩ := List.forall_mem_cons.mp (hstate _ hshape)
      rintro _ ⟨⟩
      rw [h.graph] at hjoin
      exact .cons (join_known htame hg (h.peek htop) hrecorded hjoin) hrest

theorem known_labels (h : b.Known g) {state : LabelState}
    (hstate : (c.apply b).labels[l]? = some state) : state.Known g := by
  rcases (c.develops b).fresh hstate with ⟨before, hbefore⟩ | ⟨hshape, -⟩
  · obtain ⟨after, hafter, hevolves⟩ := (c.develops b).known hbefore
    cases hstate.symm.trans hafter
    exact hevolves.known htame hg h (h.labels hbefore)
  · intro recorded hrecorded
    rw [hshape] at hrecorded
    cases hrecorded

theorem known_generalizeForLabel (h : b.Known g) (l : Label) :
    ((generalizeForLabel l).apply b).KnownPlace g := by
  unfold apply perform
  rcases Builder.generalizeForLabel_cases l b with
    ⟨state, recorded, rest, stack, current, joined, hstate, hshape, hstack, hpeek, hjoin, hrun⟩ |
      hrun
  · have hcurrent : current.Known g := by
      refine h.peek ?_
      rw [hstack]
      exact hpeek
    have hrecorded : recorded.Known g := h.labels hstate _ hshape _ List.mem_cons_self
    rw [h.graph] at hjoin
    have hjoined := join_known htame hg hcurrent hrecorded hjoin
    rw [hrun]
    exact ⟨h.graph, h.arguments, h.locals, Builder.known_retypeTop (h.current hstack) hjoined⟩
  · rw [hrun]
    exact h.toKnownPlace

theorem known_apply (h : b.Known g) (hc : c.Known g) : (c.apply b).Known g := by
  refine ⟨?_, fun hstate => known_labels htame hg h hstate⟩
  have hplace := h.toKnownPlace
  cases c with
  | withSettings | defineLabel => exact ⟨h.graph, h.arguments, h.locals, h.stack⟩
  | declareLocal t =>
      exact ((Builder.knownPlace_declareLocal hc).bind fun _ => Emit.keeps_pure ()) b hplace
  | push i => exact Builder.knownPlace_push hg hc b hplace
  | branch i => exact h.branch i
  | mark l => exact h.mark l
  | generalize general => exact Builder.knownPlace_generalize hc b hplace
  | generalizeForLabel l => exact known_generalizeForLabel htame hg h l
  | beginTry => exact (Builder.knownPlace_beginTry.bind fun _ => Emit.keeps_pure ()) b hplace
  | beginCatch exception => exact Builder.knownPlace_beginCatch hc b hplace
  | beginFinally => exact Builder.knownPlace_beginFinally b hplace
  | endBlock => exact h.endBlock
  | zeroLocal index => exact Builder.knownPlace_zeroLocal hg index b hplace
  | callMethod m =>
      refine Builder.knownPlace_push hg ?_ b hplace
      split
      · exact hc
      · exact hc

end Command

theorem Builder.known_new {g : Graph} {arguments : List Ty} (h : ∀ t ∈ arguments, g.Knows t)
    (result : Option Ty) : (new g arguments result).Known g where
  graph := rfl
  arguments t ht := h t (List.mem_toArray.mp ht)
  locals := nofun
  stack := .nil
  labels := nofun

end ManagedCode
