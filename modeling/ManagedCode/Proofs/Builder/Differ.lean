import ManagedCode.Builder.Finish
import ManagedCode.Proofs.Builder.Places
import ManagedCode.Proofs.Verify.Assignability
import ManagedCode.Proofs.Verify.Lenient

namespace ManagedCode

/-! Builders over other graphs and under other settings. Most operations look at neither, save for
assignability and for what the target of a test sees. -/

namespace Builder

def moved (b : Builder) (g : Graph) (settings : Settings) : Builder :=
  { b with graph := g, settings := settings }

/-- Builders that differ in nothing but their graphs and settings, and in these as allowed. -/
def Differ (allowed : Graph → Settings → Graph → Settings → Prop) (b b' : Builder) : Prop :=
  ∃ g settings, allowed b.graph b.settings g settings ∧ b' = b.moved g settings

/-- Differences that most operations do not see. -/
structure Unseen (allowed : Graph → Settings → Graph → Settings → Prop) : Prop where
  isAssignable : ∀ {g g' : Graph} {settings settings' : Settings},
    allowed g settings g' settings' → g'.isAssignable = g.isAssignable
  narrowTested : ∀ {g g' : Graph} {settings settings' : Settings},
    allowed g settings g' settings' → settings'.narrowTested = settings.narrowTested

end Builder

namespace Emit

open Builder

variable {α β γ : Type} {allowed : Graph → Settings → Graph → Settings → Prop}

/-- On builders that differ as allowed the actions have the same outcome, and no other difference
comes of them. -/
abbrev Agrees (allowed : Graph → Settings → Graph → Settings → Prop) (x y : Emit α) : Prop :=
  Outcome.Agrees (Differ allowed) Eq x y

theorem Agrees.bind {x y : Emit α} {f f' : α → Emit β} (hx : Agrees allowed x y)
    (hf : ∀ a, Agrees allowed (f a) (f' a)) : Agrees allowed (x >>= f) (y >>= f') := by
  refine Outcome.Agrees.bind hx ?_
  rintro a _ rfl
  exact hf a

theorem agrees_pure (a : α) : Agrees allowed (pure a) (pure a) :=
  Outcome.agrees_pure rfl

theorem agrees_throw (e : BuildError) : Agrees allowed (throw e : Emit α) (throw e) :=
  Outcome.agrees_throw e

/-- An action that begins with a look at the builder. -/
theorem agrees_get {f f' : Builder → Emit α}
    (hf : ∀ b g settings, allowed b.graph b.settings g settings →
      Agrees allowed (f b) (f' (b.moved g settings))) :
    Agrees allowed (get >>= f) (get >>= f') := by
  have hget : Outcome.Agrees (Differ allowed) (Differ allowed) (get : Emit Builder) get :=
    ⟨.ok, id⟩
  refine Outcome.Agrees.bind hget ?_
  rintro b _ ⟨g, settings, hallowed, rfl⟩
  exact hf b g settings hallowed

theorem agrees_set {b b' : Builder} (h : b.Differ allowed b') :
    Agrees allowed (set b : Emit PUnit) (set b') :=
  ⟨fun _ => .ok rfl, fun _ => h⟩

theorem agrees_modify {f : Builder → Builder}
    (hf : ∀ b g settings, allowed b.graph b.settings g settings →
      (f b).Differ allowed (f (b.moved g settings))) :
    Agrees allowed (modify f : Emit PUnit) (modify f) := by
  refine ⟨fun _ => .ok rfl, ?_⟩
  rintro b _ ⟨g, settings, hallowed, rfl⟩
  exact hf b g settings hallowed

theorem agrees_liftM (x : Except BuildError α) : Agrees allowed (liftM x) (liftM x) := by
  cases x with
  | error e => exact agrees_throw e
  | ok a => exact agrees_pure a

theorem agrees_forIn (targets : List γ) (check : γ → Except BuildError α) :
    Agrees allowed
      (forIn targets PUnit.unit fun l _ => do
        let _ ← liftM (check l)
        pure (ForInStep.yield PUnit.unit) : Emit PUnit)
      (forIn targets PUnit.unit fun l _ => do
        let _ ← liftM (check l)
        pure (ForInStep.yield PUnit.unit)) := by
  induction targets with
  | nil => exact agrees_pure _
  | cons l rest ih =>
      simp only [List.forIn_cons]
      refine Agrees.bind ?_ fun step => ?_
      · exact (agrees_liftM (check l)).bind fun _ => agrees_pure _
      · cases step with
        | done state => exact agrees_pure state
        | yield state => exact ih

end Emit

namespace Builder

open Emit

section Differ

variable {allowed : Graph → Settings → Graph → Settings → Prop}

theorem agrees_declareLocal (t : Ty) : Agrees allowed (declareLocal t) (declareLocal t) := by
  have hcount : Outcome.Agrees (Differ allowed) Eq
      (modifyGet fun b => (b.locals.size, b) : Emit Nat)
      (modifyGet fun b => (b.locals.size, b)) := by
    refine ⟨?_, id⟩
    rintro b _ ⟨g, settings, -, rfl⟩
    exact .ok rfl
  refine Agrees.bind hcount fun count => ?_
  split
  · refine Agrees.bind (agrees_modify ?_) fun _ => agrees_pure _
    exact fun _ g settings hallowed => ⟨g, settings, hallowed, rfl⟩
  · exact agrees_throw _

theorem agrees_defineLabel (name : String) :
    Agrees allowed (defineLabel name) (defineLabel name) := by
  refine ⟨?_, ?_⟩
  · rintro b _ ⟨g, settings, -, rfl⟩
    exact .ok rfl
  · rintro b _ ⟨g, settings, hallowed, rfl⟩
    exact ⟨g, settings, hallowed, rfl⟩

theorem agrees_mark (l : Label) : Agrees allowed (mark l) (mark l) := by
  refine agrees_get fun b g settings hallowed => ?_
  refine (agrees_liftM (b.labelState l)).bind fun state => ?_
  have hset : ∀ state : LabelState, Agrees allowed
      (set
        { b with
          labels := b.labels.set l { state with marked := true }
          current := some (.ofShape (state.shape.getD []))
          emitted := .label l :: b.emitted })
      (set
        { b.moved g settings with
          labels := b.labels.set l { state with marked := true }
          current := some (.ofShape (state.shape.getD []))
          emitted := .label l :: b.emitted }) :=
    fun _ => agrees_set ⟨g, settings, hallowed, rfl⟩
  cases state.marked with
  | true => exact agrees_throw _
  | false =>
      simp only [moved]
      cases b.current with
      | none => exact hset _
      | some stack => exact (agrees_liftM (b.checkArrival l stack.shape)).bind fun _ => hset _

theorem agrees_emit (m : Marker) : Agrees allowed (emit m) (emit m) :=
  agrees_modify fun _ g settings hallowed => ⟨g, settings, hallowed, rfl⟩

theorem agrees_beginTry : Agrees allowed beginTry beginTry := by
  refine agrees_get fun b g settings hallowed => ?_
  have hstack : (b.moved g settings).stack = b.stack := rfl
  rw [hstack]
  by_cases hempty : (!b.stack.isEmpty) = true
  · rw [if_pos hempty, if_pos hempty]
    exact agrees_throw _
  · rw [if_neg hempty, if_neg hempty]
    refine Agrees.bind (agrees_set ⟨g, settings, hallowed, rfl⟩) fun _ => ?_
    refine (agrees_defineLabel _).bind fun endLabel => ?_
    refine Agrees.bind (agrees_modify ?_) fun _ => ?_
    · exact fun _ g settings hallowed => ⟨g, settings, hallowed, rfl⟩
    exact (agrees_emit _).bind fun _ => agrees_pure endLabel

theorem agrees_closeRegion (action : Action) :
    Agrees allowed (closeRegion action) (closeRegion action) := by
  refine agrees_get fun b g settings hallowed => ?_
  have hblocks : (b.moved g settings).blocks = b.blocks := rfl
  have hreachable : (b.moved g settings).isReachable = b.isReachable := rfl
  rw [hblocks, hreachable]
  cases b.blocks with
  | nil => exact agrees_throw _
  | cons block rest =>
      simp only []
      cases b.isReachable with
      | true => exact agrees_throw _
      | false => exact agrees_pure block

theorem agrees_replaceBlock (block : Block) :
    Agrees allowed (replaceBlock block) (replaceBlock block) :=
  agrees_modify fun _ g settings hallowed => ⟨g, settings, hallowed, rfl⟩

theorem agrees_beginFinally : Agrees allowed beginFinally beginFinally := by
  refine (agrees_closeRegion _).bind fun block => ?_
  cases block.hasFinally with
  | true => exact agrees_throw _
  | false =>
      refine (agrees_replaceBlock _).bind fun _ => ?_
      refine Agrees.bind (agrees_modify ?_) fun _ => ?_
      · exact fun _ g settings hallowed => ⟨g, settings, hallowed, rfl⟩
      exact agrees_emit _

theorem agrees_endBlock : Agrees allowed endBlock endBlock := by
  refine (agrees_closeRegion _).bind fun block => ?_
  cases block.hasHandler with
  | false => exact agrees_throw _
  | true =>
      simp only [Bool.not_true, Bool.false_eq_true, if_false]
      refine Agrees.bind (agrees_modify ?_) fun _ => ?_
      · exact fun _ g settings hallowed => ⟨g, settings, hallowed, rfl⟩
      exact (agrees_emit _).bind fun _ => agrees_mark block.endLabel

variable (hunseen : Unseen allowed)
include hunseen

theorem agrees_branch (i : Branch) : Agrees allowed (branch i) (branch i) := by
  refine agrees_get fun b g settings hallowed => ?_
  have htransfer : (b.moved g settings).context.transfer i = b.context.transfer i :=
    ((b.context.withGraph g).transfer_withSettings settings i).trans
      (b.context.transfer_withGraph (hunseen.isAssignable hallowed) i)
  have hstack : (b.moved g settings).stack = b.stack := rfl
  refine (agrees_forIn i.targets b.labelState).bind fun _ => ?_
  rw [htransfer, hstack]
  rcases (b.context.transfer i).on b.stack with ⟨e | tested, stack⟩
  · exact agrees_throw _
  · have hshape : targetShape settings stack tested = targetShape b.settings stack tested := by
      simp only [targetShape, hunseen.narrowTested hallowed]
    have hsettings : (b.moved g settings).settings = settings := rfl
    simp only [hsettings, hshape]
    refine (agrees_forIn i.targets
      (b.checkArrival · (targetShape b.settings stack tested))).bind fun _ => ?_
    exact agrees_set ⟨g, settings, hallowed, rfl⟩

theorem agrees_beginCatch (exception : Ty) :
    Agrees allowed (beginCatch exception) (beginCatch exception) := by
  refine (agrees_closeRegion _).bind fun block => ?_
  refine agrees_get fun b g settings hallowed => ?_
  have hcaught : (StackType.simple exception).isAssignableTo (b.moved g settings).graph .exception =
      (StackType.simple exception).isAssignableTo b.graph .exception :=
    StackType.isAssignableTo_congr (hunseen.isAssignable hallowed) _ _
  rw [hcaught]
  cases (StackType.simple exception).isAssignableTo b.graph .exception with
  | false => exact agrees_throw _
  | true =>
      cases block.hasFinally with
      | true => exact agrees_throw _
      | false =>
          simp only [Bool.not_true, Bool.false_eq_true, if_false]
          refine (agrees_replaceBlock _).bind fun _ => ?_
          refine Agrees.bind (agrees_modify ?_) fun _ => ?_
          · exact fun _ g settings hallowed => ⟨g, settings, hallowed, rfl⟩
          exact agrees_emit _

end Differ

/-- The graph is another one with the same answers. -/
def Regraphed (g : Graph) (settings : Settings) (g' : Graph) (settings' : Settings) : Prop :=
  g'.isAssignable = g.isAssignable ∧ settings' = settings

theorem unseen_regraphed : Unseen Regraphed where
  isAssignable h := h.1
  narrowTested h := by rw [h.2]

theorem agrees_push (i : Instruction) : Agrees Regraphed (push i) (push i) := by
  refine agrees_get fun b g settings hallowed => ?_
  obtain ⟨hg, rfl⟩ := hallowed
  have hverify : (b.moved g b.settings).context.verify i = b.context.verify i :=
    b.context.verify_withGraph hg i
  have hstack : (b.moved g b.settings).stack = b.stack := rfl
  rw [hverify, hstack]
  rcases (b.context.verify i).on b.stack with ⟨outcome, stack⟩
  refine Agrees.bind (agrees_set ⟨g, b.settings, ⟨hg, rfl⟩, rfl⟩) fun _ => ?_
  cases outcome with
  | error e => exact agrees_throw _
  | ok => exact agrees_modify fun _ g settings hallowed => ⟨g, settings, hallowed, rfl⟩

theorem finish_regraphed {b b' : Builder} (h : b.Differ Regraphed b') : b'.finish = b.finish := by
  obtain ⟨g, settings, ⟨-, rfl⟩, rfl⟩ := h
  rfl

end Builder

end ManagedCode
