import ManagedCode.Builder.Finish
import ManagedCode.Graph.Library
import ManagedCode.Proofs.Builder.Edit
import ManagedCode.Proofs.Builder.Nesting

namespace ManagedCode

/-! What a finished body is known for: its jumps lead to marks, its exception blocks are well nested,
and control goes neither from one part of a block into the next nor off the end. -/

def Item.isLabel (l : Label) : Item → Bool
  | .label m => m = l
  | .instruction _ | .branch _ | .marker _ => false

namespace Listing

/-- Markers aside, the last item is a branch of this kind. -/
def EndsWith (p : Branch → Bool) (items : List Item) : Prop :=
  ∃ i : Branch, (items.filter fun item => !item.isMarker).getLast? = some (.branch i) ∧ p i = true

/-- Control does not go on behind the last item. -/
abbrev Sealed : List Item → Prop := EndsWith fun i => !i.fallsThrough

/-- The property holds of every item and what stands before it. -/
def Throughout (P : List Item → Item → Prop) (items : List Item) : Prop :=
  ∀ before i after, items = before ++ i :: after → P before i

variable {P : List Item → Item → Prop} {p : Branch → Bool} {items : List Item}

theorem endsWith_branch (items : List Item) {i : Branch} (h : p i = true) :
    EndsWith p (items ++ [.branch i]) := by
  refine ⟨i, ?_, h⟩
  simp [Item.isMarker]

theorem EndsWith.marker (h : EndsWith p items) (m : Marker) :
    EndsWith p (items ++ [.marker m]) := by
  obtain ⟨i, hlast, hi⟩ := h
  refine ⟨i, ?_, hi⟩
  simpa [Item.isMarker] using hlast

theorem throughout_nil : Throughout P [] := by
  intro before i after h
  simp at h

theorem Throughout.add (h : Throughout P items) {i : Item} (hi : P items i) :
    Throughout P (items ++ [i]) := by
  intro before j after heq
  rcases after.eq_nil_or_concat with rfl | ⟨after, k, rfl⟩
  · obtain ⟨rfl, hj⟩ := List.append_inj' heq rfl
    cases hj
    exact hi
  · rw [List.concat_eq_append, ← List.cons_append, ← List.append_assoc] at heq
    exact h before j after (List.append_inj_left' heq rfl)

end Listing

namespace LabelState

variable {state : LabelState}

theorem marked_record (state : LabelState) (arriving : Shape) :
    (state.record arriving).marked = state.marked := by
  unfold record
  split
  · split <;> rfl
  · rfl

theorem isSome_record (state : LabelState) (arriving : Shape) :
    (state.record arriving).shape.isSome = true := by
  unfold record
  split
  · split
    · rename_i hshape _
      rw [hshape]
      rfl
    · rfl
  · rfl

theorem marked_widenTop (state : LabelState) (joined : StackType) :
    (Builder.widenTop state joined).marked = state.marked := by
  unfold Builder.widenTop
  split
  · split <;> rfl
  · rfl

theorem isSome_widenTop (state : LabelState) (joined : StackType) :
    (Builder.widenTop state joined).shape.isSome = state.shape.isSome := by
  unfold Builder.widenTop
  split
  · rename_i hshape
    split
    · rfl
    · rw [hshape]
      rfl
  · rfl

theorem isSome_markedState (state : LabelState) (current : Option EvalStack) :
    (Builder.markedState state current).shape.isSome = true := by
  cases current with
  | none => rfl
  | some stack => exact isSome_record state stack.shape

theorem marked_markedState (state : LabelState) (current : Option EvalStack) :
    (Builder.markedState state current).marked = true := by
  cases current <;> rfl

end LabelState

namespace Builder

open Listing

variable {b b' : Builder} {l : Label}

/-- All that is written down, the oldest item first. -/
def listing (b : Builder) : List Item := b.emitted.reverse

def isMarked (b : Builder) (l : Label) : Bool := (b.labels[l]?).any LabelState.marked

def isReached (b : Builder) (l : Label) : Bool := (b.labels[l]?).any fun state => state.shape.isSome

theorem listing_code (b : Builder) : b.code.listing = b.listing := rfl

theorem listing_of_emitted {i : Item} (h : b'.emitted = i :: b.emitted) :
    b'.listing = b.listing ++ [i] := by
  rw [listing, h, List.reverse_cons]
  rfl

/-! What an edit does to a property of a label. -/

section

variable {f : LabelState → Bool}

theorem any_define {name : String} (hf : f ⟨name, none, false⟩ = false) (labels : List LabelState)
    (l : Label) : ((labels ++ [⟨name, none, false⟩])[l]?).any f = (labels[l]?).any f := by
  by_cases hl : l < labels.length
  · rw [List.getElem?_append_left hl]
  · have hlength := Nat.not_lt.mp hl
    rw [List.getElem?_append_right hlength, List.getElem?_eq_none hlength]
    cases l - labels.length with
    | zero => exact hf
    | succ => rfl

theorem any_behindWidening {joined : StackType} (hf : ∀ state, f (widenTop state joined) = f state)
    (m : Label) (stack : EvalStack) (l : Label) :
    ((b.behindWidening m stack joined).labels[l]?).any f = (b.labels[l]?).any f := by
  simp only [behindWidening, List.getElem?_modify]
  cases b.labels[l]? with
  | none => rfl
  | some state =>
      by_cases hm : m = l
      · simp [hm, hf]
      · simp [hm]

theorem any_behindMark {m : Label} {state : LabelState} (hstate : b.labels[m]? = some state)
    (hf : f (markedState state b.current) = true) (l : Label) :
    ((b.behindMark m state).labels[l]?).any f = (decide (m = l) || (b.labels[l]?).any f) := by
  simp only [behindMark]
  by_cases hm : m = l
  · subst hm
    obtain ⟨hlength, -⟩ := List.getElem?_eq_some_iff.mp hstate
    rw [List.getElem?_set_self hlength]
    simp [hf]
  · rw [List.getElem?_set_ne hm]
    simp [hm]

end

theorem isMarked_behind (i : Branch) (stack : EvalStack) (shape : Shape) (l : Label) :
    (b.behind i stack shape).isMarked l = b.isMarked l := by
  simp only [isMarked, behind, getElem?_recordArrivals]
  split
  · cases b.labels[l]? with
    | none => rfl
    | some state => exact state.marked_record shape
  · rfl

theorem isReached_behind (i : Branch) (stack : EvalStack) (shape : Shape) (l : Label) :
    (b.behind i stack shape).isReached l =
      if l ∈ i.targets then (b.labels[l]?).isSome else b.isReached l := by
  simp only [isReached, behind, getElem?_recordArrivals]
  split
  · cases b.labels[l]? with
    | none => rfl
    | some state => exact state.isSome_record shape
  · rfl

/-- Labels are written down when they are marked. -/
def MarksListed (b : Builder) : Prop :=
  ∀ l, b.listing.countP (Item.isLabel l) = (b.isMarked l).toNat

theorem Edit.marksListed (h : b.Edit b') (hb : b.MarksListed) : b'.MarksListed := by
  intro l
  cases h with
  | settings | declareLocal | reject | retype => exact hb l
  | push | beginTry | beginCatch | beginFinally | close =>
      rw [listing_of_emitted rfl, List.countP_append]
      exact hb l
  | define name =>
      rw [isMarked, any_define rfl]
      exact hb l
  | branch =>
      rw [isMarked_behind, listing_of_emitted rfl, List.countP_append]
      exact hb l
  | widen =>
      rw [isMarked, any_behindWidening fun state => state.marked_widenTop _]
      exact hb l
  | @mark m state hstate hopen =>
      rw [isMarked, any_behindMark hstate (state.marked_markedState _), ← isMarked,
        listing_of_emitted rfl, List.countP_append, hb l]
      by_cases hm : m = l
      · subst hm
        have hunmarked : b.isMarked m = false := by
          rw [isMarked, hstate]
          exact hopen
        simp [hunmarked, Item.isLabel]
      · simp [hm, Item.isLabel]

/-- A label that has been reached stays reached. -/
theorem Edit.isReached (h : b.Edit b') (hl : b.isReached l = true) : b'.isReached l = true := by
  cases h with
  | settings | declareLocal | reject | retype | push | beginTry | beginCatch | beginFinally
  | close => exact hl
  | define name =>
      rw [Builder.isReached, any_define rfl]
      exact hl
  | branch htransfer haccepts =>
      rw [isReached_behind]
      split
      · obtain ⟨state, hstate, -⟩ := haccepts l ‹_›
        rw [hstate]
        rfl
      · exact hl
  | widen =>
      rw [Builder.isReached, any_behindWidening fun state => state.isSome_widenTop _]
      exact hl
  | @mark m state hstate =>
      rw [Builder.isReached, any_behindMark hstate (state.isSome_markedState _), ← Builder.isReached,
        hl, Bool.or_true]

/-- Every branch that is written down has reached its targets. -/
def TargetsReached (b : Builder) : Prop :=
  ∀ i, .branch i ∈ b.listing → ∀ l ∈ i.targets, b.isReached l = true

theorem Edit.targetsReached (h : b.Edit b') (hb : b.TargetsReached) : b'.TargetsReached := by
  intro i hi l hl
  by_cases hbefore : .branch i ∈ b.listing
  · exact h.isReached (hb i hbefore l hl)
  · cases h with
    | settings | declareLocal | reject | retype | define | widen => exact absurd hi hbefore
    | push | mark | beginTry | beginCatch | beginFinally | close =>
        rw [listing_of_emitted rfl] at hi
        rcases List.mem_append.mp hi with hi | hi
        · exact absurd hi hbefore
        · cases List.mem_singleton.mp hi
    | branch htransfer haccepts =>
        rw [listing_of_emitted rfl] at hi
        rcases List.mem_append.mp hi with hi | hi
        · exact absurd hi hbefore
        · cases List.mem_singleton.mp hi
          obtain ⟨state, hstate, -⟩ := haccepts l hl
          rw [isReached_behind, if_pos hl, hstate]
          rfl

/-! Blocks. -/

theorem Edit.nesting (h : b.Edit b') (hb : Open b.blocks b.listing) : Open b'.blocks b'.listing := by
  cases h with
  | settings | declareLocal | define | reject | retype | widen => exact hb
  | push | branch | mark =>
      rw [listing_of_emitted rfl]
      exact hb.add_item rfl
  | beginTry endLabel =>
      rw [listing_of_emitted rfl]
      exact hb.beginTry endLabel
  | beginCatch hblocks _ hfinally =>
      rw [listing_of_emitted rfl]
      rw [hblocks] at hb
      exact hb.beginCatch hfinally _
  | beginFinally hblocks _ hfinally =>
      rw [listing_of_emitted rfl]
      rw [hblocks] at hb
      exact hb.beginFinally hfinally
  | close hblocks _ hhandler =>
      rw [listing_of_emitted rfl]
      rw [hblocks] at hb
      exact hb.close hhandler

/-! Places that control does not go on from. -/

/-- The next item to be written down, as far as the present place decides about it. -/
inductive Adds (b : Builder) : Item → Prop where
  | instruction (i : Instruction) : Adds b (.instruction i)
  | branch {i : Branch} {tested : Option StackEntry} {stack : EvalStack} :
      (b.context.transfer i).on b.stack = (.ok tested, stack) → Adds b (.branch i)
  | label (l : Label) : Adds b (.label l)
  | beginTry : Adds b (.marker .beginTry)
  | marker (m : Marker) : b.current = none → b.blocks ≠ [] → Adds b (.marker m)

theorem Edit.throughout {P : List Item → Item → Prop} (h : b.Edit b')
    (hadds : ∀ i, b.Adds i → P b.listing i) (hb : Throughout P b.listing) :
    Throughout P b'.listing := by
  have hadd : ∀ {i}, b'.emitted = i :: b.emitted → b.Adds i → Throughout P b'.listing := by
    intro i hi hadds'
    rw [listing_of_emitted hi]
    exact hb.add (hadds i hadds')
  cases h with
  | settings | declareLocal | define | reject | retype | widen => exact hb
  | push => exact hadd rfl (.instruction _)
  | branch htransfer => exact hadd rfl (.branch htransfer)
  | mark => exact hadd rfl (.label _)
  | beginTry => exact hadd rfl .beginTry
  | beginCatch hblocks hcurrent | beginFinally hblocks hcurrent | close hblocks hcurrent =>
      exact hadd rfl (.marker _ hcurrent (hblocks ▸ List.cons_ne_nil _ _))

theorem fallsThrough_of_unreachable {i : Branch} {stack : EvalStack} {shape : Shape}
    (h : (b.behind i stack shape).current = none) : i.fallsThrough = false := by
  cases hfalls : i.fallsThrough with
  | false => rfl
  | true =>
      rw [behind, hfalls] at h
      cases h

/-- Only behind a branch on which control does not go on, and markers, is a place unreachable. -/
theorem Edit.sealed (h : b.Edit b') (hb : b.current = none → Sealed b.listing) :
    b'.current = none → Sealed b'.listing := by
  intro hcurrent
  cases h with
  | settings | declareLocal | define => exact hb hcurrent
  | push | reject | mark | retype | widen | beginTry | beginCatch | beginFinally => cases hcurrent
  | branch =>
      rw [listing_of_emitted rfl]
      apply endsWith_branch
      rw [fallsThrough_of_unreachable hcurrent]
      rfl
  | close _ hbefore =>
      rw [listing_of_emitted rfl]
      exact (hb hbefore).marker .close

/-! Finished bodies. -/

theorem finish_ok {code : Code} : b.finish = .ok code ↔
    b.blocks = [] ∧ b.unmarked = [] ∧ (b.settings.requireTerminated = true → b.current = none) ∧
      code = b.code := by
  unfold finish
  cases b.blocks with
  | cons block rest => simp [throw, throwThe, MonadExceptOf.throw]
  | nil =>
      cases b.unmarked with
      | cons name rest => simp [throw, throwThe, MonadExceptOf.throw]
      | nil =>
          cases hterminated : b.settings.requireTerminated <;> cases hcurrent : b.current <;>
            simp [isReachable, hcurrent, throw, throwThe, MonadExceptOf.throw, pure, Except.pure,
              eq_comm]

/-- If no label is left to be marked, whatever label is reached is marked. -/
theorem isMarked_of_isReached (hunmarked : b.unmarked = []) (hl : b.isReached l = true) :
    b.isMarked l = true := by
  obtain ⟨state, hstate, hsome⟩ := (Option.any_eq_true _ _).mp hl
  have hnone := List.filter_eq_nil_iff.mp (List.map_eq_nil_iff.mp hunmarked) state
    (List.mem_of_getElem? hstate)
  rw [isMarked, hstate]
  simpa [hsome] using hnone

theorem labels_of_isReached (hl : b.isReached l = true) :
    ∃ name shape, b.code.summary.labels[l]? = some ⟨name, some shape⟩ := by
  obtain ⟨⟨name, recorded, marked⟩, hstate, hsome⟩ := (Option.any_eq_true _ _).mp hl
  obtain ⟨shape, rfl⟩ := Option.isSome_iff_exists.mp hsome
  exact ⟨name, shape, by simp [code, hstate]⟩

/-- In front of each marker that ends a part of a block, control does not go on. -/
def PartsSealed (b : Builder) : Prop :=
  (b.current = none → Sealed b.listing) ∧
    Throughout (fun before i => ∀ m, i = .marker m → m ≠ .beginTry → Sealed before) b.listing

theorem Edit.partsSealed (h : b.Edit b') (hb : b.PartsSealed) : b'.PartsSealed := by
  obtain ⟨hcurrent, hmarkers⟩ := hb
  refine ⟨h.sealed hcurrent, h.throughout ?_ hmarkers⟩
  rintro _ hadds m rfl hm
  cases hadds with
  | beginTry => exact absurd rfl hm
  | marker _ hunreachable => exact hcurrent hunreachable

/-- The marks are unique and found behind every jump, the blocks are well nested, and control goes
neither from one part of a block into the next nor, if this is asked for, off the end. -/
theorem finish_guarantees (g : Graph) (arguments : List Ty) (result : Option Ty)
    (commands : List Command) (code : Code)
    (hfinish : ((new g arguments result).run commands).finish = .ok code) :
    (∀ i, .branch i ∈ code.listing → ∀ l ∈ i.targets,
      code.listing.countP (Item.isLabel l) = 1 ∧
        ∃ name shape, code.summary.labels[l]? = some ⟨name, some shape⟩) ∧
    (∀ l, code.listing.countP (Item.isLabel l) ≤ 1) ∧
    Nested code.listing ∧
    (∀ before m after, code.listing = before ++ .marker m :: after → m ≠ .beginTry →
      Sealed before) ∧
    (((new g arguments result).run commands).settings.requireTerminated = true →
      Sealed code.listing) := by
  have hmarks : ((new g arguments result).run commands).MarksListed :=
    run_keeps Edit.marksListed (fun _ => rfl) commands
  have htargets : ((new g arguments result).run commands).TargetsReached :=
    run_keeps Edit.targetsReached (fun _ hi => absurd hi List.not_mem_nil) commands
  have hnesting := run_keeps (P := fun b => Open b.blocks b.listing) Edit.nesting
    (b := new g arguments result) (.outside .nil) commands
  have hsealed : ((new g arguments result).run commands).PartsSealed :=
    run_keeps Edit.partsSealed ⟨fun h => Option.some_ne_none _ h |>.elim, throughout_nil⟩ commands
  generalize (new g arguments result).run commands = b at *
  obtain ⟨hblocks, hunmarked, hterminated, rfl⟩ := finish_ok.mp hfinish
  refine ⟨?_, ?_, ?_, ?_, ?_⟩
  · intro i hi l hl
    have hreached := htargets i hi l hl
    refine ⟨?_, labels_of_isReached hreached⟩
    rw [listing_code, hmarks l, isMarked_of_isReached hunmarked hreached]
    rfl
  · intro l
    rw [listing_code, hmarks l]
    exact Bool.toNat_le _
  · rw [hblocks] at hnesting
    exact hnesting.nested
  · intro before m after heq hm
    exact hsealed.2 before (.marker m) after heq m rfl hm
  · intro hrequired
    exact hsealed.1 (hterminated hrequired)

theorem finish_guarantees_caught :
    let b := (new .library [] none).run
      [.beginTry, .branch (.leave 0), .beginCatch .exception, .push .pop, .branch (.leave 0),
        .endBlock, .branch .ret]
    let listing : List Item :=
      [.marker .beginTry, .branch (.leave 0), .marker (.beginCatch .exception), .instruction .pop,
        .branch (.leave 0), .marker .close, .label 0, .branch .ret]
    b.finish = .ok b.code ∧ b.code.listing = listing ∧
      listing.countP (Item.isLabel 0) = 1 ∧ Nested listing ∧ Sealed (listing.take 5) ∧
      Sealed listing := by
  intro b listing
  have hfinish : b.finish = .ok b.code := rfl
  obtain ⟨htargets, -, hnested, hparts, hend⟩ := finish_guarantees .library [] none _ b.code hfinish
  refine ⟨hfinish, rfl, ?_, hnested, ?_, hend rfl⟩
  · exact (htargets (.leave 0) (.tail _ (.head _)) 0 (.head _)).1
  · exact hparts _ .close [.label 0, .branch .ret] rfl nofun

end Builder

end ManagedCode
