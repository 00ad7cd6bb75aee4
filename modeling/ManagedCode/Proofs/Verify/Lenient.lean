import ManagedCode.Proofs.Verify.Step

namespace ManagedCode

/-! Settings that allow more. They are looked at where an address, the holder of a field or a block
of memory is checked, and a check that has passed without them passes with them. -/

/-- The second settings allow what the first ones allow, and are the same otherwise. -/
structure Settings.Relaxes (strict lenient : Settings) : Prop where
  narrowTested : lenient.narrowTested = strict.narrowTested
  requireTerminated : lenient.requireTerminated = strict.requireTerminated
  allowUnverifiable : strict.allowUnverifiable = true → lenient.allowUnverifiable = true

namespace Step

variable {α β : Type}

/-- What the first step accepts, the second one accepts with the same effect. -/
abbrev Within (x y : Step α) : Prop := Outcome.Entails Eq Eq Eq x y

theorem within_self (x : Step α) : x.Within x := by
  refine ⟨?_⟩
  rintro s _ a t rfl hrun
  exact ⟨a, t, hrun, rfl, rfl⟩

theorem Within.bind {x y : Step α} {f f' : α → Step β} (hx : x.Within y)
    (hf : ∀ a, (f a).Within (f' a)) : (x >>= f).Within (y >>= f') := by
  refine Outcome.Entails.bind hx ?_
  rintro a _ rfl
  exact hf a

theorem Within.bind_self (x : Step α) {f f' : α → Step β} (hf : ∀ a, (f a).Within (f' a)) :
    (x >>= f).Within (x >>= f') :=
  (within_self x).bind hf

end Step

namespace Context

open Step

def withSettings (c : Context) (settings : Settings) : Context := { c with settings := settings }

variable {c : Context} {settings : Settings} (h : c.settings.Relaxes settings)
include h

theorem within_popAddress (accessed : Option Ty) (reason : String) :
    (popAddress c accessed reason).Within
      (popAddress (c.withSettings settings) accessed reason) := by
  refine .bind_self _ fun address => ?_
  cases address.category with
  | nativeInt => exact entails_check h.allowUnverifiable _ _
  | _ => exact within_self _

theorem within_requireUnverifiable (mnemonic : String) :
    (c.requireUnverifiable mnemonic).Within
      ((c.withSettings settings).requireUnverifiable mnemonic) :=
  entails_check h.allowUnverifiable _ _

theorem isFieldInstance_relaxed {holder : StackType} {declaring : Ty} {load : Bool}
    (hholder : isFieldInstance c holder declaring load = true) :
    isFieldInstance (c.withSettings settings) holder declaring load = true := by
  cases holder with
  | zero | complex => exact hholder
  | simple t =>
      simp only [isFieldInstance] at hholder ⊢
      cases hreferent : t.referent? with
      | some referent =>
          rw [hreferent] at hholder
          exact hholder
      | none =>
          simp only [hreferent] at hholder ⊢
          split
          · rw [if_pos ‹_›] at hholder
            exact h.allowUnverifiable hholder
          · rw [if_neg ‹_›] at hholder
            exact hholder

theorem within_checkFieldInstance (holder : StackType) (declaring : Ty) (load : Bool) :
    (liftM (checkFieldInstance c holder declaring load) : Step Unit).Within
      (liftM (checkFieldInstance (c.withSettings settings) holder declaring load)) := by
  refine entails_liftM fun hok => ?_
  unfold checkFieldInstance at hok ⊢
  split at hok
  · rw [if_pos (isFieldInstance_relaxed h ‹_›)]
    rfl
  · cases hok

theorem within_load (t : Ty) : (load c t).Within (load (c.withSettings settings) t) :=
  (within_popAddress h _ _).bind fun _ => within_self _

theorem within_store (t : Ty) : (store c t).Within (store (c.withSettings settings) t) :=
  .bind_self _ fun _ => within_popAddress h _ _

/-- What is accepted is accepted with the same effect when more is allowed. -/
theorem within_step (i : Instruction) : (c.step i).Within ((c.withSettings settings).step i) := by
  cases i with
  | ldind t => exact within_load h t
  | ldobj t => exact within_load h t
  | stind t => exact within_store h t
  | stobj t => exact within_store h t
  | cpobj t => exact (within_popAddress h _ _).bind fun _ => within_popAddress h _ _
  | initobj t => exact within_popAddress h _ _
  | ldfld f | ldflda f =>
      refine .bind_self _ fun _ => ?_
      refine .bind_self _ fun holder => ?_
      exact (within_checkFieldInstance h _ _ _).bind fun _ => within_self _
  | stfld f =>
      refine .bind_self _ fun _ => ?_
      refine .bind_self _ fun _ => ?_
      exact .bind_self _ fun holder => within_checkFieldInstance h _ _ _
  | localloc =>
      refine .bind_self _ fun size => ?_
      exact (within_requireUnverifiable h _).bind fun _ => within_self _
  | initblk =>
      refine .bind_self _ fun size => ?_
      refine .bind_self _ fun value => ?_
      refine (within_popAddress h _ _).bind fun _ => ?_
      exact (within_requireUnverifiable h _).bind fun _ => within_self _
  | cpblk =>
      refine .bind_self _ fun size => ?_
      refine (within_popAddress h _ _).bind fun _ => ?_
      refine (within_popAddress h _ _).bind fun _ => ?_
      exact (within_requireUnverifiable h _).bind fun _ => within_self _
  | _ => exact within_self _

theorem within_verify (i : Instruction) :
    (c.verify i).Within ((c.withSettings settings).verify i) :=
  .bind_self _ fun _ => within_step h i

omit h in
/-- No setting changes what a branch does to the stack. -/
theorem transfer_withSettings (c : Context) (settings : Settings) (i : Branch) :
    (c.withSettings settings).transfer i = c.transfer i := by
  cases i <;> rfl

end Context

end ManagedCode
