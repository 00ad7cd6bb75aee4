import ManagedCode.Proofs.Builder.Evolution
import ManagedCode.Proofs.Builder.Trail
import ManagedCode.Proofs.Verify.Frame

namespace ManagedCode

/-! Where the values on the stack come from. Identities tell the copies of one value from all other
values, so a test narrows the copies of its value and nothing else. -/

/-- Where the values on a stack come from, by the order in which a run pushes values. A stack that
is created with values on it is created empty, and the values are pushed. -/
structure Lineage where
  /-- The push that each value stems from, from the top down. -/
  origins : List Nat
  /-- All pushes so far. -/
  count : Nat
  /-- The pushes before the stack was created. -/
  created : Nat

namespace Lineage

def start : Lineage := ⟨[], 0, 0⟩

def create (l : Lineage) : Lineage := { l with origins := [], created := l.count }

/-- Code out of reach is checked on an empty stack. -/
def foundBy (l : Lineage) (b : Builder) : Lineage := if b.isReachable then l else l.create

def push (l : Lineage) : Lineage := { l with origins := l.count :: l.origins, count := l.count + 1 }

def grow (l : Lineage) : Nat → Lineage
  | 0 => l
  | count + 1 => (l.grow count).push

def copyTop (l : Lineage) : Lineage := { l with origins := l.origins.take 1 ++ l.origins }

/-- The values above the given depth are gone. -/
def keep (l : Lineage) (depth : Nat) : Lineage :=
  { l with origins := l.origins.drop (l.origins.length - depth) }

/-- An accepted instruction on a stack of the given depth. Only `dup` copies a value. -/
def step (l : Lineage) (depth : Nat) : Instruction → Lineage
  | .dup => l.copyTop
  | i => (l.keep (depth - i.pops)).grow i.pushes

end Lineage

/-- What becomes of the values on the stack. Only the outcome of the command and the depths before
and behind it are looked at. -/
def Command.lineage (c : Command) (b : Builder) (l : Lineage) : Lineage :=
  let found := l.foundBy b
  let depth := (c.apply b).stack.depth
  if c.accepted b then
    match c with
    | push i => found.step b.stack.depth i
    | mark _ | beginCatch _ | beginFinally | endBlock => found.create.grow depth
    | _ => found.keep depth
  else found.keep depth

def Builder.lineage (b : Builder) (l : Lineage) : List Command → Lineage
  | [] => l
  | c :: rest => (c.apply b).lineage (c.lineage b l) rest

def EvalStack.identities (s : EvalStack) : List Nat := s.entries.map StackEntry.identity

namespace Lineage

/-- Identities are the pushes since the stack was created. -/
structure Numbers (l : Lineage) (s : EvalStack) : Prop where
  origins : l.origins = s.identities.map (l.created + ·)
  count : l.count = l.created + s.nextIdentity
  fresh : ∀ k ∈ s.identities, k < s.nextIdentity

namespace Numbers

variable {l : Lineage} {s t : EvalStack}

theorem create (l : Lineage) : l.create.Numbers .empty := ⟨rfl, rfl, nofun⟩

theorem congr (h : l.Numbers s) (hidentities : t.identities = s.identities)
    (hnext : t.nextIdentity = s.nextIdentity) : l.Numbers t := by
  obtain ⟨horigins, hcount, hfresh⟩ := h
  exact ⟨hidentities ▸ horigins, hnext ▸ hcount, by rwa [hidentities, hnext]⟩

theorem push (h : l.Numbers s) (a : StackType) : l.push.Numbers (s.push a) where
  origins := congrArg₂ List.cons h.count h.origins
  count := congrArg (· + 1) h.count
  fresh := by
    refine List.forall_mem_cons.mpr ⟨Nat.lt_succ_self _, fun k hk => ?_⟩
    exact Nat.lt_succ_of_lt (h.fresh k hk)

theorem grow (h : l.Numbers s) (shape : Shape) :
    (l.grow shape.length).Numbers (s.grow shape) := by
  induction shape with
  | nil => exact h
  | cons a below ih => exact ih.push a

theorem ofShape (l : Lineage) (shape : Shape) :
    (l.create.grow (EvalStack.ofShape shape).depth).Numbers (.ofShape shape) := by
  rw [← EvalStack.length_shape, EvalStack.shape_ofShape, EvalStack.ofShape_eq_grow]
  exact (create l).grow shape

theorem length_origins (h : l.Numbers s) : l.origins.length = s.depth := by
  rw [h.origins, List.length_map, EvalStack.identities, List.length_map]
  rfl

theorem keep (h : l.Numbers s) (taken : Nat) :
    (l.keep (s.drop taken).depth).Numbers (s.drop taken) where
  origins := by
    simp only [Lineage.keep, h.length_origins, EvalStack.depth_drop]
    simp only [h.origins, EvalStack.identities, EvalStack.drop, EvalStack.depth, List.map_drop]
    refine List.drop_eq_drop_iff.mpr ?_
    simp only [List.length_map]
    omega
  count := h.count
  fresh := by
    intro k hk
    refine h.fresh k ?_
    rw [EvalStack.identities, EvalStack.drop, List.map_drop] at hk
    exact List.mem_of_mem_drop hk

theorem copyTop {e : StackEntry} {rest : List StackEntry} (h : l.Numbers s)
    (hs : s.entries = e :: rest) : l.copyTop.Numbers { s with entries := e :: e :: rest } := by
  obtain ⟨horigins, hcount, hfresh⟩ := h
  rw [EvalStack.identities, hs] at horigins hfresh
  refine ⟨?_, hcount, ?_⟩
  · rw [Lineage.copyTop, horigins]
    rfl
  · exact List.forall_mem_cons.mpr ⟨hfresh _ List.mem_cons_self, hfresh⟩

end Numbers

end Lineage

namespace Command

open Builder Lineage

variable {c : Command} {b : Builder} {l : Lineage}

/-- Accepted `dup` puts one more copy of the top value onto the stack. -/
theorem dup_ok {context : Context} {s t : EvalStack} {u : Unit}
    (h : (context.verify .dup).on s = (.ok u, t)) :
    ∃ e rest, s.entries = e :: rest ∧ t = { s with entries := e :: e :: rest } := by
  obtain ⟨e, v, hpop, hcheck⟩ := Step.bind_ok (Context.verify_ok h).2
  obtain ⟨_, w, hstruct, hpush⟩ := Step.bind_ok hcheck
  obtain ⟨-, rfl⟩ := Step.check_ok hstruct
  rcases s with ⟨_ | ⟨top, rest⟩, next⟩
  · cases hpop
  · cases hpop
    cases hpush
    exact ⟨e, rest, rfl, rfl⟩

theorem lineage_of_rejected (h : c.accepted b = false) :
    c.lineage b l = (l.foundBy b).keep (c.apply b).stack.depth := by
  simp only [lineage, h, Bool.false_eq_true, if_false]

/-- Behind a mark the stack is created anew. -/
theorem numbers_of_marks? {m : Label} (hmarks : c.marks? b = some m)
    (hcreates : c.lineage b l = (l.foundBy b).create.grow (c.apply b).stack.depth) :
    (c.lineage b l).Numbers (c.apply b).stack := by
  obtain ⟨-, recorded, -, hcurrent⟩ := marks_of_marks? hmarks
  rw [hcreates, Builder.stack, hcurrent]
  exact .ofShape _ recorded

theorem identities_retypeTop (s : EvalStack) (t : StackType) :
    (s.retypeTop t).identities = s.identities := by
  rcases s with ⟨_ | ⟨top, rest⟩, next⟩
  · rfl
  · rfl

theorem nextIdentity_retypeTop (s : EvalStack) (t : StackType) :
    (s.retypeTop t).nextIdentity = s.nextIdentity := by
  rcases s with ⟨_ | ⟨top, rest⟩, next⟩
  · rfl
  · rfl

section

variable (h : ∀ stack, b.current = some stack → l.Numbers stack)
include h

/-- The origins that a command finds fit the stack that it finds. -/
theorem numbers_found : (l.foundBy b).Numbers b.stack := by
  unfold Lineage.foundBy isReachable Builder.stack
  cases hcurrent : b.current with
  | none => exact .create l
  | some stack => exact h stack hcurrent

/-- Values are only taken off the stack, or change their types. -/
theorem numbers_of_keep
    (hkeep : c.lineage b l = (l.foundBy b).keep (c.apply b).stack.depth) (taken : Nat)
    (hidentities : (c.apply b).stack.identities = (b.stack.drop taken).identities)
    (hnext : (c.apply b).stack.nextIdentity = b.stack.nextIdentity) :
    (c.lineage b l).Numbers (c.apply b).stack := by
  have hdepth : (c.apply b).stack.depth = (b.stack.drop taken).depth := by
    have hlength := congrArg List.length hidentities
    rwa [EvalStack.identities, EvalStack.identities, List.length_map, List.length_map] at hlength
  rw [hkeep, hdepth]
  exact ((numbers_found h).keep taken).congr hidentities hnext

theorem numbers_of_same (hkeep : c.lineage b l = (l.foundBy b).keep (c.apply b).stack.depth)
    (hidentities : (c.apply b).stack.identities = b.stack.identities)
    (hnext : (c.apply b).stack.nextIdentity = b.stack.nextIdentity) :
    (c.lineage b l).Numbers (c.apply b).stack :=
  numbers_of_keep h hkeep 0 hidentities hnext

theorem numbers_of_rejected {e : BuildError} (hrun : c.perform.on b = (.error e, b)) :
    (c.lineage b l).Numbers (c.apply b).stack := by
  have happly : c.apply b = b := congrArg Prod.snd hrun
  refine numbers_of_same h (lineage_of_rejected (accepted_of_error hrun)) ?_ ?_
  · rw [happly]
  · rw [happly]

theorem numbers_push (i : Instruction) :
    ((push i).lineage b l).Numbers ((push i).apply b).stack := by
  rcases push_cases i b with ⟨haccepted, hrun⟩ | ⟨e, hrejected, hrun⟩
  · have hverify : (b.context.verify i).on b.stack =
        (.ok (), ((b.context.verify i).on b.stack).2) := Prod.ext haccepted rfl
    have hstack : ((push i).apply b).stack = ((b.context.verify i).on b.stack).2 := by
      unfold apply perform
      rw [hrun]
      rfl
    simp only [hstack, lineage, accepted_of_ok (c := push i) hrun, if_true]
    generalize ((b.context.verify i).on b.stack).2 = t at hverify ⊢
    by_cases hdup : i = .dup
    · subst hdup
      obtain ⟨e, rest, hentries, rfl⟩ := dup_ok hverify
      exact (numbers_found h).copyTop hentries
    · obtain ⟨hdepth, hstep⟩ := Context.verify_ok hverify
      obtain ⟨shape, hpushes, rfl⟩ := (Context.puts_step _ hdup).ok hdepth hstep
      have hkept := ((numbers_found h).keep i.pops).grow shape
      rw [hpushes, EvalStack.depth_drop] at hkept
      cases i with
      | dup => exact absurd rfl hdup
      | _ => exact hkept
  · obtain ⟨taken, hstack⟩ := Context.verify_error
      (t := ((b.context.verify i).on b.stack).2) (Prod.ext hrejected rfl)
    have happly : ((push i).apply b).stack = b.stack.drop taken := by
      unfold apply perform
      rw [hrun]
      exact hstack
    have hrejects := lineage_of_rejected (l := l) (accepted_of_error (c := push i) hrun)
    refine numbers_of_keep h hrejects taken ?_ ?_
    · rw [happly]
    · rw [happly]
      rfl

theorem numbers_branch (i : Branch) {stack : EvalStack}
    (hstack : ((branch i).apply b).current = some stack) :
    ((branch i).lineage b l).Numbers ((branch i).apply b).stack := by
  rcases branch_cases i b with ⟨tested, left, htransfer, -, hrun⟩ | ⟨e, hrun⟩
  · obtain ⟨taken, hdrop⟩ := b.context.lowers_transfer i b.stack
    have hleft : left = b.stack.drop taken := (congrArg Prod.snd htransfer).symm.trans hdrop
    have happly : (branch i).apply b = b.behind i left (targetShape b.settings left tested) :=
      congrArg Prod.snd hrun
    have hcurrent : ((branch i).apply b).stack = left := by
      rw [happly, behind] at hstack ⊢
      simp only [Builder.stack] at hstack ⊢
      split at hstack
      · rw [if_pos ‹_›]
        rfl
      · cases hstack
    refine numbers_of_keep h ?_ taken ?_ ?_
    · simp only [lineage, accepted_of_ok (c := branch i) hrun, if_true]
    · rw [hcurrent, hleft]
    · rw [hcurrent, hleft]
      rfl
  · exact numbers_of_rejected (c := branch i) h hrun

theorem numbers_mark (m : Label) : ((mark m).lineage b l).Numbers ((mark m).apply b).stack := by
  rcases mark_cases m b with ⟨state, -, -, -, hrun⟩ | ⟨e, hrun⟩
  · have haccepted : (mark m).accepted b = true := accepted_of_ok hrun
    refine numbers_of_marks? (m := m) ?_ ?_
    · rw [marks?, if_pos haccepted]
    · simp only [lineage, haccepted, if_true]
  · exact numbers_of_rejected (c := mark m) h hrun

theorem numbers_endBlock {stack : EvalStack} (hstack : (endBlock.apply b).current = some stack) :
    (endBlock.lineage b l).Numbers (endBlock.apply b).stack := by
  cases haccepted : endBlock.accepted b with
  | true =>
      rcases endBlock_cases b with ⟨block, rest, hblocks, -⟩ | ⟨e, hrun⟩
      · refine numbers_of_marks? (m := block.endLabel) ?_ ?_
        · rw [marks?, if_pos haccepted, hblocks]
          rfl
        · simp only [lineage, haccepted, if_true]
      · cases (accepted_of_error (c := endBlock) hrun).symm.trans haccepted
  | false =>
      rcases endBlock_cases b with ⟨block, rest, -, hcurrent, -, hrun⟩ | ⟨e, hrun⟩
      · -- The block is closed all the same, and what follows is out of reach.
        have happly : endBlock.apply b = ((Builder.mark block.endLabel).on
            { b with blocks := rest, emitted := .marker .close :: b.emitted }).2 :=
          congrArg Prod.snd hrun
        rcases mark_cases block.endLabel
            { b with blocks := rest, emitted := .marker .close :: b.emitted } with
          ⟨state, -, -, -, hmark⟩ | ⟨e, hmark⟩
        · cases haccepted.symm.trans (accepted_of_ok (c := endBlock) (hrun.trans hmark))
        · rw [happly, hmark] at hstack
          cases hcurrent.symm.trans hstack
      · exact numbers_of_rejected (c := endBlock) h hrun

theorem numbers_generalize (general : StackType) :
    ((generalize general).lineage b l).Numbers ((generalize general).apply b).stack := by
  have hkeep : (generalize general).lineage b l =
      (l.foundBy b).keep ((generalize general).apply b).stack.depth := by
    simp only [lineage, ite_self]
  rcases generalize_cases general b with
    ⟨-, hrun⟩ | ⟨stack, special, hcurrent, -, -, hrun⟩ | ⟨e, hrun⟩
  · have happly : (generalize general).apply b = b := congrArg Prod.snd hrun
    exact numbers_of_same h hkeep (by rw [happly]) (by rw [happly])
  · have happly : ((generalize general).apply b).stack = b.stack.retypeTop general := by
      unfold apply perform
      rw [hrun, Builder.stack, Builder.stack, hcurrent]
      rfl
    refine numbers_of_same h hkeep ?_ ?_
    · rw [happly, identities_retypeTop]
    · rw [happly, nextIdentity_retypeTop]
  · have happly : (generalize general).apply b = b := congrArg Prod.snd hrun
    exact numbers_of_same h hkeep (by rw [happly]) (by rw [happly])

theorem numbers_generalizeForLabel (m : Label) :
    ((generalizeForLabel m).lineage b l).Numbers ((generalizeForLabel m).apply b).stack := by
  have hkeep : (generalizeForLabel m).lineage b l =
      (l.foundBy b).keep ((generalizeForLabel m).apply b).stack.depth := by
    simp only [lineage, ite_self]
  rcases generalizeForLabel_cases m b with
    ⟨state, recorded, rest, stack, current, joined, -, -, hcurrent, -, -, hrun⟩ | hrun
  · have happly : ((generalizeForLabel m).apply b).stack = b.stack.retypeTop joined := by
      unfold apply perform
      rw [hrun, Builder.stack, Builder.stack, behindWidening, hcurrent]
      rfl
    refine numbers_of_same h hkeep ?_ ?_
    · rw [happly, identities_retypeTop]
    · rw [happly, nextIdentity_retypeTop]
  · have happly : (generalizeForLabel m).apply b = b := hrun
    exact numbers_of_same h hkeep (by rw [happly]) (by rw [happly])

/-- Identities stay the pushes since the stack was created. -/
theorem numbers_apply (hc : c.Single) :
    ∀ stack, (c.apply b).current = some stack → (c.lineage b l).Numbers stack := by
  intro stack hstack
  suffices hnumbers : (c.lineage b l).Numbers (c.apply b).stack by
    rwa [Builder.stack, hstack] at hnumbers
  have hsame : ∀ {b' : Builder}, c.apply b = b' → b'.stack = b.stack →
      c.lineage b l = (l.foundBy b).keep (c.apply b).stack.depth →
      (c.lineage b l).Numbers (c.apply b).stack := by
    rintro _ rfl hb' hkeep
    exact numbers_of_same h hkeep (by rw [hb']) (by rw [hb'])
  cases c with
  | withSettings settings => exact hsame rfl rfl (by simp only [lineage, ite_self])
  | declareLocal t =>
      refine hsame rfl ?_ (by simp only [lineage, ite_self])
      unfold apply perform
      rw [Emit.on_bind, on_declareLocal]
      by_cases hcount : b.locals.size < UInt16.size
      · rw [if_pos hcount]
        rfl
      · rw [if_neg hcount]
  | defineLabel name => exact hsame rfl rfl (by simp only [lineage, ite_self])
  | push i => exact numbers_push h i
  | branch i => exact numbers_branch h i hstack
  | mark m => exact numbers_mark h m
  | generalize general => exact numbers_generalize h general
  | generalizeForLabel m => exact numbers_generalizeForLabel h m
  | beginTry =>
      refine hsame rfl ?_ (by simp only [lineage, ite_self])
      unfold apply perform
      rw [Emit.on_bind]
      rcases beginTry_cases b with ⟨-, hrun⟩ | ⟨e, hrun⟩
      · rw [hrun]
        rfl
      · rw [hrun]
  | beginCatch exception =>
      rcases beginCatch_cases exception b with ⟨block, rest, -, -, -, -, hrun⟩ | ⟨e, hrun⟩
      · have happly : ((beginCatch exception).apply b).stack = .ofShape [.simple exception] := by
          unfold apply perform
          rw [hrun]
          rfl
        simp only [lineage, accepted_of_ok (c := beginCatch exception) hrun, if_true, happly]
        exact .ofShape _ _
      · exact numbers_of_rejected (c := beginCatch exception) h hrun
  | beginFinally =>
      rcases beginFinally_cases b with ⟨block, rest, -, -, -, hrun⟩ | ⟨e, hrun⟩
      · have happly : (beginFinally.apply b).stack = .ofShape [] := by
          unfold apply perform
          rw [hrun]
          rfl
        simp only [lineage, accepted_of_ok (c := beginFinally) hrun, if_true, happly]
        exact .ofShape _ _
      · exact numbers_of_rejected (c := beginFinally) h hrun
  | endBlock => exact numbers_endBlock h hstack
  | zeroLocal | callMethod => cases hc

end

end Command

namespace Builder

open Lineage

variable {b : Builder} {l : Lineage}

theorem numbers_run {steps : List Command} (hsteps : ∀ c ∈ steps, c.Single)
    (h : ∀ stack, b.current = some stack → l.Numbers stack) :
    ∀ stack, (b.run steps).current = some stack → (b.lineage l steps).Numbers stack := by
  induction steps generalizing b l with
  | nil => exact h
  | cons c rest ih =>
      obtain ⟨hc, hrest⟩ := List.forall_mem_cons.mp hsteps
      exact ih hrest (Command.numbers_apply h hc)

theorem numbers_start (g : Graph) (arguments : List Ty) (result : Option Ty) :
    ∀ stack, (new g arguments result).current = some stack → Lineage.start.Numbers stack := by
  rintro _ ⟨⟩
  exact ⟨rfl, rfl, nofun⟩

/-! Tests. -/

/-- What a test narrows, told by the origins of the values. -/
theorem narrowedShape_eq (s : EvalStack) (created identity : Nat) :
    s.narrowedShape identity =
      List.zipWith (fun t origin => if origin = created + identity then .zero else t) s.shape
        (s.identities.map (created + ·)) := by
  rcases s with ⟨entries, next⟩
  simp only [EvalStack.narrowedShape, EvalStack.shape, EvalStack.identities]
  induction entries with
  | nil => rfl
  | cons e rest ih => simp only [List.map_cons, List.zipWith_cons_cons, ih, Nat.add_right_inj]

theorem transfer_test_ok {context : Context} {i : Branch} {target : Label}
    (hi : i = .brtrue target ∨ i = .brfalse target) {s t : EvalStack} {tested : Option StackEntry}
    (h : (context.transfer i).on s = (.ok tested, t)) :
    ∃ e, tested = some e ∧ s.entries = e :: t.entries := by
  have htest : (some <$> Step.popTested : Step (Option StackEntry)).on s = (.ok tested, t) := by
    rcases hi with rfl | rfl
    · exact h
    · exact h
  rw [map_eq_pure_bind] at htest
  obtain ⟨e, u, hpop, hpure⟩ := Step.bind_ok htest
  cases hpure
  refine ⟨e, rfl, ?_⟩
  have hentry := Step.popTested_ok hpop
  rcases s with ⟨_ | ⟨top, rest⟩, next⟩
  · cases hentry
  · cases hentry
    rfl

/-- An accepted test hands the stack below its value to the target, narrowed where the values have
the same origin, and goes on with that stack as it is. -/
theorem test_narrows {i : Branch} {target : Label} {stack : EvalStack}
    (hi : i = .brtrue target ∨ i = .brfalse target) (hcurrent : b.current = some stack)
    (hnumbers : l.Numbers stack) (haccepted : (Command.branch i).accepted b = true) :
    ∃ top rest tested origins after state, stack.shape = top :: rest ∧
      l.origins = tested :: origins ∧
      let narrowed : Shape := if b.settings.narrowTested then
        List.zipWith (fun t origin => if origin = tested then .zero else t) rest origins else rest
      (Command.branch i).arrivals b = [(target, narrowed)] ∧
      b.labels[target]? = some state ∧
      (∀ recorded, state.shape = some recorded → narrowed.flowsInto recorded = true) ∧
      (∀ other, ((Command.branch i).apply b).labels[other]? = if other = target then
        some { state with
          shape := some (state.shape.elim narrowed fun recorded =>
            if state.marked then recorded else narrowed.unify recorded) }
        else b.labels[other]?) ∧
      ((Command.branch i).apply b).current = some after ∧ after.shape = rest := by
  rcases branch_cases i b with ⟨tested, after, htransfer, haccepts, hrun⟩ | ⟨e, hrun⟩
  · obtain ⟨e, rfl, hentries⟩ := transfer_test_ok hi htransfer
    rw [Builder.stack, hcurrent, Option.getD_some] at hentries
    have hfalls : i.fallsThrough = true := by rcases hi with rfl | rfl <;> rfl
    have htargets : i.targets = [target] := by rcases hi with rfl | rfl <;> rfl
    have hnarrowed : targetShape b.settings after (some e) =
        if b.settings.narrowTested then
          List.zipWith (fun t origin => if origin = l.created + e.identity then .zero else t)
            after.shape (after.identities.map (l.created + ·))
        else after.shape := by
      simp only [targetShape, narrowedShape_eq after l.created]
    have happly : (Command.branch i).apply b =
        b.behind i after (targetShape b.settings after (some e)) := congrArg Prod.snd hrun
    obtain ⟨state, hstate, hflows⟩ := haccepts target (htargets ▸ List.mem_singleton_self target)
    refine ⟨e.type, after.shape, l.created + e.identity, after.identities.map (l.created + ·),
      after, state, ?_, ?_, ?_⟩
    · rw [EvalStack.shape, hentries]
      rfl
    · rw [hnumbers.origins, EvalStack.identities, hentries]
      rfl
    rw [← hnarrowed]
    refine ⟨?_, hstate, ?_, ?_, ?_, rfl⟩
    · rw [Command.arrivals, if_pos haccepted, propagated?, htransfer, htargets]
      rfl
    · intro recorded hrecorded
      rwa [LabelState.accepts, hrecorded] at hflows
    · intro other
      rw [happly, behind, getElem?_recordArrivals, htargets]
      simp only [List.mem_singleton]
      split
      · rename_i hother
        rw [hother, hstate, Option.map_some, record_eq]
      · rfl
    · rw [happly, behind]
      exact if_pos hfalls
  · cases (Command.accepted_of_error (c := .branch i) hrun).symm.trans haccepted

/-- At every reachable place of a run, identities have been given out since the stack was created,
and two values share one if and only if both stem from the same push. So an accepted test that
narrows hands its target the stack below the tested value with null in place of the copies of that
value, and all types stay as they are for the code that goes on. That is what the target has on
record if it is reached for the first time, and what goes into its record until it is marked. -/
theorem identities_tell_origins (g : Graph) (arguments : List Ty) (result : Option Ty)
    (commands : List Command) :
    let start := new g arguments result
    let b := start.run commands
    let lineage := start.lineage .start (start.steps commands)
    ∀ stack, b.current = some stack →
      (lineage.origins.length = stack.depth ∧
        ∀ k ∈ lineage.origins, lineage.created ≤ k ∧ k < lineage.count) ∧
      (∀ e ∈ stack.entries, e.identity < stack.nextIdentity) ∧
      (∀ (i j : Nat) (e e' : StackEntry) (k k' : Nat), stack.entries[i]? = some e →
        stack.entries[j]? = some e' →
        lineage.origins[i]? = some k → lineage.origins[j]? = some k' →
        (e.identity = e'.identity ↔ k = k')) ∧
      ∀ (i : Branch) (target : Label), i = .brtrue target ∨ i = .brfalse target →
        (Command.branch i).accepted b = true →
        ∃ top rest tested origins after state, stack.shape = top :: rest ∧
          lineage.origins = tested :: origins ∧
          let narrowed : Shape := if b.settings.narrowTested then
            List.zipWith (fun t origin => if origin = tested then .zero else t) rest origins
            else rest
          (Command.branch i).arrivals b = [(target, narrowed)] ∧
          b.labels[target]? = some state ∧
          (∀ recorded, state.shape = some recorded → narrowed.flowsInto recorded = true) ∧
          (∀ other, ((Command.branch i).apply b).labels[other]? = if other = target then
            some { state with
              shape := some (state.shape.elim narrowed fun recorded =>
                if state.marked then recorded else narrowed.unify recorded) }
            else b.labels[other]?) ∧
          ((Command.branch i).apply b).current = some after ∧ after.shape = rest := by
  intro start b lineage stack hcurrent
  have hsteps : ∀ c ∈ start.steps commands, c.Single := fun _ => single_of_mem_steps
  have hrun : (start.run (start.steps commands)).current = some stack := by
    rw [run_steps]
    exact hcurrent
  have hnumbers : lineage.Numbers stack :=
    numbers_run hsteps (numbers_start g arguments result) stack hrun
  have horigin : ∀ {i : Nat} {e : StackEntry} {k : Nat}, stack.entries[i]? = some e →
      lineage.origins[i]? = some k → k = lineage.created + e.identity := by
    intro i e k he hk
    rw [hnumbers.origins, EvalStack.identities, List.getElem?_map, List.getElem?_map, he] at hk
    exact (Option.some.inj hk).symm
  refine ⟨⟨hnumbers.length_origins, ?_⟩, ?_, ?_, ?_⟩
  · intro k hk
    rw [hnumbers.origins] at hk
    obtain ⟨identity, hidentity, rfl⟩ := List.mem_map.mp hk
    have hfresh := hnumbers.fresh identity hidentity
    rw [hnumbers.count]
    exact ⟨Nat.le_add_right _ _, Nat.add_lt_add_left hfresh _⟩
  · exact fun e he => hnumbers.fresh _ (List.mem_map_of_mem he)
  · intro i j e e' k k' he he' hk hk'
    rw [horigin he hk, horigin he' hk', Nat.add_right_inj]
  · exact fun i target hi haccepted => test_narrows hi hcurrent hnumbers haccepted

/-- Of two equal strings and a copy of the second, a test of the copy narrows the second, for the
target alone. -/
theorem identities_tell_origins_copy :
    let start := new .library [] none
    let commands : List Command :=
      [.push (.ldstr "a"), .push (.ldstr "b"), .push .dup, .defineLabel "L"]
    let b := start.run commands
    let tested := (Command.branch (.brtrue 0)).apply b
    (Command.branch (.brtrue 0)).accepted b = true ∧
      (Command.branch (.brtrue 0)).arrivals b = [(0, [.zero, .simple .string])] ∧
      b.labelShape? 0 = none ∧ tested.labelShape? 0 = some [.zero, .simple .string] ∧
      ∃ after, tested.current = some after ∧
        after.shape = [.simple .string, .simple .string] := by
  intro start commands b tested
  have haccepted : (Command.branch (.brtrue 0)).accepted b = true := by decide +kernel
  have hfresh : b.labelShape? 0 = none := by decide +kernel
  have hcurrent : b.current = some ⟨[⟨1, .simple .string⟩, ⟨1, .simple .string⟩,
      ⟨0, .simple .string⟩], 2⟩ := by decide +kernel
  obtain ⟨-, -, -, htests⟩ := identities_tell_origins .library [] none commands _ hcurrent
  obtain ⟨top, rest, value, origins, after, state, hshape, horigins, harrivals, hstate, -, hlabels,
    hafter, hrest⟩ := htests (.brtrue 0) 0 (.inl rfl) haccepted
  cases hshape
  cases horigins
  have hunreached : state.shape = none := by
    rw [labelShape?, hstate] at hfresh
    exact hfresh
  refine ⟨haccepted, harrivals, hfresh, ?_, after, hafter, hrest⟩
  rw [labelShape?, hlabels 0, if_pos rfl, hunreached]
  rfl

end Builder

end ManagedCode
