import ManagedCode.Builder.Finish
import ManagedCode.Graph.Library
import ManagedCode.Proofs.Builder.Differ
import ManagedCode.Proofs.Builder.Trail

namespace ManagedCode

/-! Settings only restrict. A run of a strict builder in which everything is accepted is also a run
of a lenient one. -/

namespace Builder

/-- Two builders that only differ in their settings, the second one being allowed more. -/
def Relaxes (strict lenient : Builder) : Prop :=
  ∃ settings, strict.settings.Relaxes settings ∧ lenient = strict.withSettings settings

end Builder

namespace Emit

open Builder

variable {α β γ : Type}

/-- What the first action accepts on a strict builder, the second one accepts on a lenient builder,
with the same outcome. -/
abbrev Within (x y : Emit α) : Prop := Outcome.Entails Relaxes Relaxes Eq x y

theorem Within.bind {x y : Emit α} {f f' : α → Emit β} (hx : x.Within y)
    (hf : ∀ a, (f a).Within (f' a)) : (x >>= f).Within (y >>= f') := by
  refine Outcome.Entails.bind hx ?_
  rintro a _ rfl
  exact hf a

theorem within_pure (a : α) : (pure a : Emit α).Within (pure a) :=
  Outcome.entails_pure rfl

theorem within_throw (e : BuildError) (y : Emit α) : (throw e : Emit α).Within y :=
  Outcome.entails_throw e y

/-- An action that begins with a look at the builder. -/
theorem within_get {f f' : Builder → Emit α}
    (hf : ∀ b settings, b.settings.Relaxes settings →
      (f b).Within (f' (b.withSettings settings))) :
    (get >>= f).Within (get >>= f') := by
  have hget : Outcome.Entails Relaxes Relaxes Relaxes (get : Emit Builder) get := by
    refine ⟨fun hrelaxes hrun => ?_⟩
    cases hrun
    exact ⟨_, _, rfl, hrelaxes, hrelaxes⟩
  refine Outcome.Entails.bind hget ?_
  rintro b _ ⟨settings, hsettings, rfl⟩
  exact hf b settings hsettings

theorem within_set {b b' : Builder} (h : b.Relaxes b') :
    (set b : Emit PUnit).Within (set b') := by
  refine ⟨fun _ hrun => ?_⟩
  cases hrun
  exact ⟨_, _, rfl, rfl, h⟩

theorem within_modify {f : Builder → Builder}
    (hf : ∀ b settings, b.settings.Relaxes settings → (f b).Relaxes (f (b.withSettings settings))) :
    (modify f : Emit PUnit).Within (modify f) := by
  refine ⟨?_⟩
  rintro b _ a t ⟨settings, hsettings, rfl⟩ hrun
  cases hrun
  exact ⟨_, _, rfl, rfl, hf b settings hsettings⟩

theorem within_liftM (x : Except BuildError α) : (liftM x : Emit α).Within (liftM x) := by
  cases x with
  | error e => exact within_throw e _
  | ok a => exact within_pure a

end Emit

namespace Builder

open Emit

/-- The graph stays, and the settings allow more. -/
def Relaxed (g : Graph) (settings : Settings) (g' : Graph) (settings' : Settings) : Prop :=
  g' = g ∧ settings.Relaxes settings'

theorem unseen_relaxed : Unseen Relaxed where
  isAssignable h := by rw [h.1]
  narrowTested h := h.2.narrowTested

theorem relaxes_iff {b b' : Builder} : b.Relaxes b' ↔ b.Differ Relaxed b' := by
  constructor
  · rintro ⟨settings, hsettings, rfl⟩
    exact ⟨b.graph, settings, ⟨rfl, hsettings⟩, rfl⟩
  · rintro ⟨g, settings, ⟨rfl, hsettings⟩, rfl⟩
    exact ⟨settings, hsettings, rfl⟩

/-- What does not see the difference is accepted alike. -/
theorem within_of_agrees {α : Type} {x : Emit α} (h : Agrees Relaxed x x) : x.Within x := by
  have hrelation : Relaxes = Differ Relaxed := by
    funext b b'
    exact propext relaxes_iff
  rw [Emit.Within, hrelation]
  exact h.entails

theorem within_push (i : Instruction) : (push i).Within (push i) := by
  refine ⟨?_⟩
  rintro b _ _ t ⟨settings, hsettings, rfl⟩ hrun
  rcases push_cases i b with ⟨haccepted, hpush⟩ | ⟨e, -, hpush⟩
  · cases hpush.symm.trans hrun
    obtain ⟨_, stack, hverify, -, hstack⟩ :=
      (Context.within_verify hsettings i).accepted rfl (Prod.ext haccepted rfl)
    have hlenient : (((b.withSettings settings).context.verify i).on b.stack).2 =
        ((b.context.verify i).on b.stack).2 := (congrArg Prod.snd hverify).trans hstack.symm
    rcases push_cases i (b.withSettings settings) with ⟨-, hpush'⟩ | ⟨e, hrejected, -⟩
    · refine ⟨(), _, hpush', rfl, settings, hsettings, ?_⟩
      change { b.withSettings settings with
        current := some (((b.withSettings settings).context.verify i).on b.stack).2
        maxStack := max b.maxStack (((b.withSettings settings).context.verify i).on b.stack).2.depth
        emitted := .instruction i :: b.emitted } = _
      rw [hlenient]
      rfl
    · cases (congrArg Prod.fst hverify).symm.trans hrejected
  · cases hpush.symm.trans hrun

theorem within_generalize (general : StackType) :
    (generalize general).Within (generalize general) := by
  refine within_get fun b settings hsettings => ?_
  simp only [withSettings]
  cases b.current with
  | none => exact within_pure ()
  | some stack =>
      simp only []
      rcases (generalizeTop b.graph general).on stack with ⟨e | _, after⟩
      · exact within_throw _ _
      · exact within_set ⟨settings, hsettings, rfl⟩

theorem within_generalizeForLabel (l : Label) :
    (generalizeForLabel l).Within (generalizeForLabel l) := by
  refine within_get fun b settings hsettings => ?_
  refine (within_liftM (b.labelState l)).bind fun state => ?_
  simp only [withSettings]
  split
  · split
    · refine (within_generalize _).bind fun _ => ?_
      exact within_modify fun _ settings hsettings => ⟨settings, hsettings, rfl⟩
    · exact within_throw _ _
  · exact within_pure ()

theorem within_pushAll (instructions : List Instruction) :
    (pushAll instructions).Within (pushAll instructions) := by
  induction instructions with
  | nil => exact within_pure ()
  | cons i rest ih => exact (within_push i).bind fun _ => ih

theorem within_zeroLocal (index : UInt16) : (zeroLocal index).Within (zeroLocal index) := by
  rw [zeroLocal_eq]
  refine within_get fun b settings hsettings => ?_
  simp only [withSettings]
  cases b.locals[index.toNat]? with
  | none => exact within_throw _ _
  | some t => exact within_pushAll _

theorem finish_relaxed {b b' : Builder} (h : b.Relaxes b') : b'.finish = b.finish := by
  obtain ⟨settings, hsettings, rfl⟩ := h
  simp only [finish, withSettings, hsettings.requireTerminated]
  rfl

end Builder

namespace Command

open Emit

/-- What the operation returns: the place of the new local or label, if it makes one. -/
def answer : Command → Emit (Option Nat)
  | declareLocal t => do return some (← Builder.declareLocal t).toNat
  | defineLabel name => do return some (← Builder.defineLabel name)
  | beginTry => do return some (← Builder.beginTry)
  | c => do
    c.perform
    return none

theorem perform_eq_answer (c : Command) : c.perform = (do let _ ← c.answer) := by
  cases c <;> simp only [perform, answer, bind_assoc, pure_bind, bind_pure_unit]

theorem apply_eq_answer (c : Command) (b : Builder) : c.apply b = (c.answer.on b).2 := by
  rw [apply, perform_eq_answer, on_bind]
  rcases c.answer.on b with ⟨e | a, t⟩
  · rfl
  · rfl

theorem within_answer (c : Command) : c.answer.Within c.answer := by
  have hperform : ∀ {x : Emit Unit}, x.Within x →
      (do x; return none : Emit (Option Nat)).Within (do x; return none) :=
    fun hx => hx.bind fun _ => within_pure none
  have hagreed : ∀ {x : Emit Unit}, Agrees Builder.Relaxed x x →
      (do x; return none : Emit (Option Nat)).Within (do x; return none) :=
    fun hx => hperform (Builder.within_of_agrees hx)
  cases c with
  | withSettings settings =>
      refine hperform ⟨?_⟩
      rintro b _ _ _ ⟨other, -, rfl⟩ hrun
      cases hrun
      exact ⟨(), _, rfl, rfl, settings, ⟨rfl, rfl, id⟩, rfl⟩
  | declareLocal t =>
      exact (Builder.within_of_agrees (Builder.agrees_declareLocal t)).bind fun _ => within_pure _
  | defineLabel name =>
      exact (Builder.within_of_agrees (Builder.agrees_defineLabel name)).bind fun _ => within_pure _
  | push i => exact hperform (Builder.within_push i)
  | branch i => exact hagreed (Builder.agrees_branch Builder.unseen_relaxed i)
  | mark l => exact hagreed (Builder.agrees_mark l)
  | generalize general => exact hperform (Builder.within_generalize general)
  | generalizeForLabel l => exact hperform (Builder.within_generalizeForLabel l)
  | beginTry =>
      exact (Builder.within_of_agrees Builder.agrees_beginTry).bind fun _ => within_pure _
  | beginCatch exception =>
      exact hagreed (Builder.agrees_beginCatch Builder.unseen_relaxed exception)
  | beginFinally => exact hagreed Builder.agrees_beginFinally
  | endBlock => exact hagreed Builder.agrees_endBlock
  | zeroLocal index => exact hperform (Builder.within_zeroLocal index)
  | callMethod m => exact hperform (Builder.within_push _)

end Command

namespace Builder

/-- What the operations of a run return. -/
def answers (b : Builder) : List Command → List (Except BuildError (Option Nat))
  | [] => []
  | c :: rest => (c.answer.on b).1 :: (c.apply b).answers rest

variable {strict lenient : Builder}

/-- An accepted operation returns the same on both builders and leaves them alike. -/
theorem Relaxes.apply {c : Command} {answer : Option Nat} (h : strict.Relaxes lenient)
    (haccepted : (c.answer.on strict).1 = .ok answer) :
    (c.answer.on lenient).1 = .ok answer ∧ (c.apply strict).Relaxes (c.apply lenient) := by
  obtain ⟨_, after, hlenient, rfl, hafter⟩ :=
    c.within_answer.accepted h (Prod.ext haccepted rfl)
  refine ⟨congrArg Prod.fst hlenient, ?_⟩
  rw [c.apply_eq_answer, c.apply_eq_answer]
  exact (congrArg Prod.snd hlenient : (c.answer.on lenient).2 = after) ▸ hafter

theorem Relaxes.run (h : strict.Relaxes lenient) {commands : List Command}
    (haccepted : ∀ answer ∈ strict.answers commands, answer.isOk = true) :
    lenient.answers commands = strict.answers commands ∧
      (strict.run commands).Relaxes (lenient.run commands) := by
  induction commands generalizing strict lenient with
  | nil => exact ⟨rfl, h⟩
  | cons c rest ih =>
      obtain ⟨hc, hrest⟩ := List.forall_mem_cons.mp haccepted
      cases hanswer : (c.answer.on strict).1 with
      | error e =>
          rw [hanswer] at hc
          cases hc
      | ok answer =>
          obtain ⟨hlenient, hafter⟩ := h.apply hanswer
          obtain ⟨hanswers, hrun⟩ := ih hafter hrest
          refine ⟨?_, hrun⟩
          rw [answers, answers, hanswer, hlenient, hanswers]

theorem answers_take (b : Builder) (commands : List Command) (count : Nat) :
    b.answers (commands.take count) = (b.answers commands).take count := by
  induction commands generalizing b count with
  | nil => rw [List.take_nil]; exact List.take_nil.symm
  | cons c rest ih =>
      cases count with
      | zero => rfl
      | succ count => exact congrArg (_ :: ·) (ih (c.apply b) count)

theorem relaxes_allowUnverifiable (b : Builder) (settings : Settings) :
    (b.withSettings { settings with allowUnverifiable := false }).Relaxes
      (b.withSettings { settings with allowUnverifiable := true }) :=
  ⟨{ settings with allowUnverifiable := true }, ⟨rfl, rfl, fun _ => rfl⟩, rfl⟩

/-- If every operation of a run is accepted where only verifiable code is allowed, every operation
is accepted where more is allowed. All of them return the same, after each of them the builders
differ in nothing but their settings, and in the end they finish alike. -/
theorem strict_only_restricts (b : Builder) (settings : Settings) (commands : List Command) :
    let strict := b.withSettings { settings with allowUnverifiable := false }
    let lenient := b.withSettings { settings with allowUnverifiable := true }
    (∀ answer ∈ strict.answers commands, answer.isOk = true) →
      lenient.answers commands = strict.answers commands ∧
      (∀ count, (lenient.run (commands.take count)).withSettings
          (strict.run (commands.take count)).settings = strict.run (commands.take count)) ∧
      (lenient.run commands).finish = (strict.run commands).finish := by
  intro strict lenient haccepted
  have hrelaxes : strict.Relaxes lenient := relaxes_allowUnverifiable b settings
  obtain ⟨hanswers, hrun⟩ := hrelaxes.run haccepted
  refine ⟨hanswers, ?_, finish_relaxed hrun⟩
  intro count
  have hprefix : ∀ answer ∈ strict.answers (commands.take count), answer.isOk = true := by
    intro answer hanswer
    rw [answers_take] at hanswer
    exact haccepted answer (List.mem_of_mem_take hanswer)
  obtain ⟨-, later, -, hlater⟩ := hrelaxes.run hprefix
  rw [hlater]
  rfl

/-- A local is cleared and read through its address. -/
theorem strict_only_restricts_address :
    let b := new .library [] none
    let strict := b.withSettings .strict
    let lenient := b.withSettings {}
    let commands : List Command :=
      [.declareLocal .int32, .zeroLocal 0, .push (.ldloca 0), .push (.ldind .int32), .push .pop,
        .branch .ret]
    (∀ answer ∈ strict.answers commands, answer.isOk = true) ∧
      lenient.answers commands = strict.answers commands ∧
      (lenient.run commands).finish = (strict.run commands).finish := by
  intro b strict lenient commands
  have haccepted : ∀ answer ∈ strict.answers commands, answer.isOk = true := by decide +kernel
  obtain ⟨hanswers, -, hfinish⟩ := strict_only_restricts b .strict commands haccepted
  exact ⟨haccepted, hanswers, hfinish⟩

end Builder

end ManagedCode
