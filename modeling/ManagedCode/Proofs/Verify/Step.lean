import ManagedCode.Proofs.Outcome
import ManagedCode.Verify.Straight
import ManagedCode.Verify.Transfer

namespace ManagedCode.Step

/-! What each step does to the stack that it runs on. -/

variable {α β : Type}

@[simp] theorem on_pure (a : α) (s : EvalStack) : (pure a : Step α).on s = (.ok a, s) := rfl

@[simp] theorem on_throw (e : VerifyError) (s : EvalStack) :
    (throw e : Step α).on s = (.error e, s) := rfl

theorem on_bind (x : Step α) (f : α → Step β) (s : EvalStack) :
    (x >>= f).on s =
      match x.on s with
      | (.ok a, t) => (f a).on t
      | (.error e, t) => (.error e, t) := by
  unfold on
  rw [Outcome.run_bind]
  rcases x.run.run s with ⟨_ | _, _⟩ <;> rfl

theorem bind_ok {x : Step α} {f : α → Step β} {s u : EvalStack} {b : β}
    (h : (x >>= f).on s = (.ok b, u)) :
    ∃ a t, x.on s = (.ok a, t) ∧ (f a).on t = (.ok b, u) :=
  Outcome.bind_ok h

theorem bind_error {x : Step α} {f : α → Step β} {s u : EvalStack} {e : VerifyError}
    (h : (x >>= f).on s = (.error e, u)) :
    x.on s = (.error e, u) ∨ ∃ a t, x.on s = (.ok a, t) ∧ (f a).on t = (.error e, u) :=
  Outcome.bind_error h

@[simp] theorem on_get (s : EvalStack) : (get : Step EvalStack).on s = (.ok s, s) := rfl

@[simp] theorem on_push (t : StackType) (s : EvalStack) :
    (push t).on s = (.ok (), s.push t) := rfl

theorem on_popEntry (reason : String) (s : EvalStack) :
    (popEntry reason).on s =
      match s.pop? with
      | some (e, rest) => (.ok e, rest)
      | none => (.error (.underflow reason), s) := by
  rw [popEntry, on_bind, on_get]
  change (match s.pop? with
    | some (e, rest) => do
      set rest
      return e
    | none => throw (.underflow reason) : Step StackEntry).on s = _
  cases s.pop? <;> rfl

theorem on_check (condition : Bool) (e : VerifyError) (s : EvalStack) :
    (check condition e).on s = (if condition then .ok () else .error e, s) := by
  cases condition <;> rfl

theorem on_liftM (x : Except VerifyError α) (s : EvalStack) :
    (liftM x : Step α).on s = (x, s) := by
  cases x <;> rfl

theorem on_require (count : Nat) (reason : Nat → String) (s : EvalStack) :
    (require count reason).on s =
      (if s.depth < count then .error (.underflow (reason s.depth)) else .ok (), s) := by
  rw [require, on_bind, on_get]
  by_cases h : s.depth < count <;> simp [h]

def accepts (x : Step α) (s : EvalStack) : Bool := (x.on s).1.isOk

def after (x : Step α) (s : EvalStack) : EvalStack := (x.on s).2

theorem accepts_iff {x : Step α} {s : EvalStack} :
    x.accepts s = true ↔ ∃ a t, x.on s = (.ok a, t) := by
  unfold accepts
  rcases hrun : x.on s with ⟨e | a, t⟩
  · refine ⟨nofun, ?_⟩
    rintro ⟨a, t', h⟩
    cases h
  · exact ⟨fun _ => ⟨a, t, rfl⟩, fun _ => rfl⟩

theorem check_ok {condition : Bool} {e : VerifyError} {s t : EvalStack} {u : Unit}
    (h : (check condition e).on s = (.ok u, t)) : condition = true ∧ t = s := by
  rw [on_check] at h
  cases condition with
  | false => cases h
  | true =>
      cases h
      exact ⟨rfl, rfl⟩

theorem pop_ok {reason : String} {s t : EvalStack} {a : StackType}
    (h : (pop reason).on s = (.ok a, t)) : s.shape = a :: t.shape := by
  obtain ⟨e, u, hentry, hpure⟩ := bind_ok h
  cases hpure
  rw [on_popEntry] at hentry
  rcases s with ⟨_ | ⟨top, rest⟩, next⟩
  · cases hentry
  · cases hentry
    rfl

/-! Two runs, the second one being asked no more than the first. -/

theorem entails_check {R : EvalStack → EvalStack → Prop} {condition condition' : Bool}
    (h : condition = true → condition' = true) (e e' : VerifyError) :
    Outcome.Entails R R Eq (check condition e) (check condition' e') := by
  cases condition with
  | false => exact Outcome.entails_throw e _
  | true =>
      rw [h rfl]
      exact Outcome.entails_pure rfl

theorem entails_liftM {R : EvalStack → EvalStack → Prop} {x y : Except VerifyError Unit}
    (h : x.isOk = true → y.isOk = true) :
    Outcome.Entails R R Eq (liftM x : Step Unit) (liftM y) := by
  cases x with
  | error e => exact Outcome.entails_throw e _
  | ok =>
      cases y with
      | error e => cases h rfl
      | ok => exact Outcome.entails_pure rfl

end ManagedCode.Step
