import ManagedCode.Builder.Sequence
import ManagedCode.Proofs.Outcome

namespace ManagedCode

/-! What the operations of a builder do, accepted and rejected. -/

namespace Emit

variable {α β γ : Type}

theorem on_bind (x : Emit α) (f : α → Emit β) (b : Builder) :
    (x >>= f).on b =
      match x.on b with
      | (.ok a, t) => (f a).on t
      | (.error e, t) => (.error e, t) := by
  unfold on
  rw [Outcome.run_bind]
  rcases x.run.run b with ⟨_ | _, _⟩ <;> rfl

@[simp] theorem on_get (b : Builder) : (get : Emit Builder).on b = (.ok b, b) := rfl

@[simp] theorem on_set (b c : Builder) : (set c : Emit PUnit).on b = (.ok (), c) := rfl

@[simp] theorem on_pure (a : α) (b : Builder) : (pure a : Emit α).on b = (.ok a, b) := rfl

@[simp] theorem on_throw (e : BuildError) (b : Builder) :
    (throw e : Emit α).on b = (.error e, b) := rfl

@[simp] theorem on_modify (f : Builder → Builder) (b : Builder) :
    (modify f : Emit PUnit).on b = (.ok (), f b) := rfl

theorem on_liftM (x : Except BuildError α) (b : Builder) :
    (liftM x : Emit α).on b = (x, b) := by
  cases x <;> rfl

/-- A check of every target in turn. The first one that fails decides. -/
theorem on_forIn (targets : List γ) (check : γ → Except BuildError α) (b : Builder) :
    ∃ outcome : Except BuildError PUnit,
      (forIn targets PUnit.unit fun l _ => do
        let _ ← liftM (check l)
        pure (ForInStep.yield PUnit.unit) : Emit PUnit).on b = (outcome, b) ∧
      (outcome = .ok () ↔ ∀ l ∈ targets, ∃ a, check l = .ok a) := by
  induction targets with
  | nil => exact ⟨.ok (), rfl, iff_of_true rfl nofun⟩
  | cons l rest ih =>
      obtain ⟨outcome, hrun, houtcome⟩ := ih
      rw [List.forIn_cons, on_bind, on_bind, on_liftM]
      cases hcheck : check l with
      | error e =>
          refine ⟨.error e, rfl, nofun, fun h => ?_⟩
          obtain ⟨a, ha⟩ := h l List.mem_cons_self
          rw [hcheck] at ha
          cases ha
      | ok a =>
          refine ⟨outcome, hrun, ?_⟩
          rw [houtcome, List.forall_mem_cons]
          exact ⟨fun h => ⟨⟨a, hcheck⟩, h⟩, fun h => h.2⟩

/-- The property survives, however far the action gets. -/
def Keeps (P : Builder → Prop) (x : Emit α) : Prop :=
  ∀ b, P b → P (x.on b).2

section Keeps

variable {P : Builder → Prop}

theorem Keeps.bind {x : Emit α} {f : α → Emit β} (hx : x.Keeps P) (hf : ∀ a, (f a).Keeps P) :
    (x >>= f).Keeps P := by
  intro b hb
  have hfirst := hx b hb
  rw [on_bind]
  generalize x.on b = run at hfirst ⊢
  rcases run with ⟨e | a, c⟩
  · exact hfirst
  · exact hf a c hfirst

theorem keeps_pure (a : α) : (pure a : Emit α).Keeps P :=
  fun _ hb => hb

end Keeps

end Emit

end ManagedCode
