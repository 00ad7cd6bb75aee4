import ManagedCode.Proofs.Verify.Frame

namespace ManagedCode

/-! Properties of single slots that survive a step. -/

def EvalStack.All (P : StackType → Prop) (s : EvalStack) : Prop := ∀ t ∈ s.shape, P t

namespace EvalStack.All

variable {P : StackType → Prop} {s : EvalStack}

theorem push (h : s.All P) {t : StackType} (ht : P t) : (s.push t).All P :=
  List.forall_mem_cons.mpr ⟨ht, h⟩

theorem pushEntry (h : s.All P) {e : StackEntry} (he : P e.type) : (s.pushEntry e).All P :=
  List.forall_mem_cons.mpr ⟨he, h⟩

theorem drop (h : s.All P) (count : Nat) : (s.drop count).All P := by
  intro t ht
  rw [EvalStack.shape_drop] at ht
  exact h t (List.mem_of_mem_drop ht)

end EvalStack.All

namespace Step

variable {α β : Type} {P : StackType → Prop} {good : α → Prop} {good' : β → Prop}

/-- The property of all slots survives the step, and an outcome has one of its own. -/
structure Stays (P : StackType → Prop) (good : α → Prop) (x : Step α) : Prop where
  stack : ∀ {s : EvalStack}, s.All P → (x.on s).2.All P
  outcome : ∀ {s : EvalStack} {a : α}, s.All P → (x.on s).1 = .ok a → good a

abbrev Preserves (P : StackType → Prop) (x : Step α) : Prop :=
  x.Stays P fun _ => True

theorem Stays.bind {x : Step α} {f : α → Step β} (hx : x.Stays P good)
    (hf : ∀ a, good a → (f a).Stays P good') : (x >>= f).Stays P good' where
  stack := by
    intro s hs
    have hstack := hx.stack hs
    have houtcome := fun a => @hx.outcome s a hs
    rw [on_bind]
    generalize x.on s = run at hstack houtcome ⊢
    rcases run with ⟨e | a, t⟩
    · exact hstack
    · exact (hf a (houtcome a rfl)).stack hstack
  outcome := by
    intro s b hs hb
    have hstack := hx.stack hs
    have houtcome := fun a => @hx.outcome s a hs
    rw [on_bind] at hb
    generalize x.on s = run at hstack houtcome hb
    rcases run with ⟨e | a, t⟩
    · cases hb
    · exact (hf a (houtcome a rfl)).outcome hstack hb

theorem Stays.seq {x : Step α} {f : α → Step β} (hx : x.Stays P good)
    (hf : ∀ a, (f a).Stays P good') : (x >>= f).Stays P good' :=
  hx.bind fun a _ => hf a

theorem stays_pure {a : α} (h : good a) : (pure a : Step α).Stays P good where
  stack hs := hs
  outcome _ ha := by cases ha; exact h

theorem stays_throw (e : VerifyError) : (throw e : Step α).Stays P good where
  stack hs := hs
  outcome _ ha := nomatch ha

theorem preserves_done : (pure () : Step Unit).Preserves P := stays_pure trivial

theorem stays_liftM (x : Except VerifyError α) (h : ∀ a, x = .ok a → good a) :
    (liftM x : Step α).Stays P good where
  stack hs := by rw [on_liftM]; exact hs
  outcome _ ha := h _ (by rw [on_liftM] at ha; exact ha)

theorem preserves_liftM (x : Except VerifyError Unit) : (liftM x : Step Unit).Preserves P :=
  stays_liftM x fun _ _ => trivial

theorem preserves_check (condition : Bool) (e : VerifyError) : (check condition e).Preserves P where
  stack hs := by rw [on_check]; exact hs
  outcome _ _ := trivial

theorem preserves_require (count : Nat) (reason : Nat → String) :
    (require count reason).Preserves P where
  stack hs := by rw [on_require]; exact hs
  outcome _ _ := trivial

theorem preserves_get : (get : Step EvalStack).Preserves P where
  stack hs := hs
  outcome _ _ := trivial

theorem preserves_push {t : StackType} (h : P t) : (push t).Preserves P where
  stack hs := hs.push h
  outcome _ _ := trivial

theorem preserves_pushEntry {e : StackEntry} (h : P e.type) : (pushEntry e).Preserves P where
  stack hs := hs.pushEntry h
  outcome _ _ := trivial

theorem stays_popEntry (reason : String) : (popEntry reason).Stays P fun e => P e.type where
  stack := by
    intro s hs
    rcases s with ⟨_ | ⟨e, rest⟩, next⟩
    · exact hs
    · exact (List.forall_mem_cons.mp hs).2
  outcome := by
    intro s e hs he
    rcases s with ⟨_ | ⟨top, rest⟩, next⟩
    · cases he
    · cases he
      exact (List.forall_mem_cons.mp hs).1

theorem stays_pop (reason : String) : (pop reason).Stays P P :=
  (stays_popEntry reason).bind fun _ he => stays_pure he

theorem preserves_popExpecting (g : Graph) (t : Ty) (reason : String) :
    (popExpecting g t reason).Preserves P :=
  (stays_pop reason).seq fun _ => preserves_check _ _

theorem preserves_popArguments (g : Graph) (parameters : List Ty) (index : Nat) :
    (popArguments g index parameters).Preserves P := by
  induction parameters generalizing index with
  | nil => exact preserves_done
  | cons t rest ih => exact (ih (index + 1)).seq fun _ => preserves_popExpecting g t _

theorem preserves_popAddress (c : Context) (accessed : Option Ty) (reason : String) :
    (popAddress c accessed reason).Preserves P := by
  refine (stays_pop reason).seq fun address => ?_
  cases address.category with
  | zero => exact preserves_done
  | nativeInt => exact preserves_check _ _
  | managedPointer | pointer =>
      cases address.simple?.bind Ty.referent? with
      | none => exact preserves_done
      | some referent =>
          cases accessed with
          | none => exact preserves_done
          | some accessed => exact preserves_check _ _
  | int32 | int64 | float | object => exact stays_throw _

theorem preserves_popIndex (reason : String) : (popIndex reason).Preserves P :=
  (stays_pop reason).seq fun _ => preserves_liftM _

end Step

end ManagedCode
