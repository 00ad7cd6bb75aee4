import ManagedCode.Verify.Step

namespace ManagedCode.Outcome

/-! Sequences of steps that may fail and then keep the state that they had got to. -/

variable {ε σ α β : Type} {x : ExceptT ε (StateM σ) α} {f : α → ExceptT ε (StateM σ) β}

theorem run_bind (x : ExceptT ε (StateM σ) α) (f : α → ExceptT ε (StateM σ) β) (s : σ) :
    (x >>= f).run.run s =
      match x.run.run s with
      | (.ok a, t) => (f a).run.run t
      | (.error e, t) => (.error e, t) := by
  have hrun : (x >>= f).run.run s = (ExceptT.bindCont f (x.run.run s).1) (x.run.run s).2 := rfl
  rw [hrun]
  rcases x.run.run s with ⟨_ | _, _⟩ <;> rfl

theorem run_get_bind (f : σ → ExceptT ε (StateM σ) β) (s : σ) :
    (get >>= f).run.run s = (f s).run.run s := rfl

theorem bind_ok {s u : σ} {b : β} (h : (x >>= f).run.run s = (.ok b, u)) :
    ∃ a t, x.run.run s = (.ok a, t) ∧ (f a).run.run t = (.ok b, u) := by
  rw [run_bind] at h
  rcases hx : x.run.run s with ⟨e | a, t⟩
  · rw [hx] at h
    cases h
  · rw [hx] at h
    exact ⟨a, t, rfl, h⟩

theorem bind_error {s u : σ} {e : ε} (h : (x >>= f).run.run s = (.error e, u)) :
    x.run.run s = (.error e, u) ∨
      ∃ a t, x.run.run s = (.ok a, t) ∧ (f a).run.run t = (.error e, u) := by
  rw [run_bind] at h
  rcases hx : x.run.run s with ⟨e | a, t⟩
  · rw [hx] at h
    cases h
    exact .inl rfl
  · rw [hx] at h
    exact .inr ⟨a, t, rfl, h⟩

section Entails

variable {τ γ δ : Type} {pre mid post : σ → τ → Prop}

/-- Whenever the first of two sequences is accepted, the second one is accepted as well, with an
outcome and a state in the given relations. -/
structure Entails (pre post : σ → τ → Prop) (rel : α → β → Prop) (x : ExceptT ε (StateM σ) α)
    (y : ExceptT ε (StateM τ) β) : Prop where
  accepted : ∀ {s t a s'}, pre s t → x.run.run s = (.ok a, s') →
    ∃ b t', y.run.run t = (.ok b, t') ∧ rel a b ∧ post s' t'

theorem Entails.bind {rel : α → β → Prop} {rel' : γ → δ → Prop} {x : ExceptT ε (StateM σ) α}
    {y : ExceptT ε (StateM τ) β} {f : α → ExceptT ε (StateM σ) γ} {f' : β → ExceptT ε (StateM τ) δ}
    (hx : Entails pre mid rel x y) (hf : ∀ a b, rel a b → Entails mid post rel' (f a) (f' b)) :
    Entails pre post rel' (x >>= f) (y >>= f') := by
  refine ⟨fun {s t c s'} hpre hrun => ?_⟩
  obtain ⟨a, u, hfirst, hrest⟩ := bind_ok hrun
  obtain ⟨b, v, hfirst', hab, hmid⟩ := hx.accepted hpre hfirst
  obtain ⟨d, t', hrest', hcd, hpost⟩ := (hf a b hab).accepted hmid hrest
  refine ⟨d, t', ?_, hcd, hpost⟩
  rw [run_bind, hfirst']
  exact hrest'

theorem Entails.seq {rel' : γ → δ → Prop} {x : ExceptT ε (StateM σ) Unit}
    {y : ExceptT ε (StateM τ) Unit} {f : Unit → ExceptT ε (StateM σ) γ}
    {f' : Unit → ExceptT ε (StateM τ) δ} (hx : Entails pre mid Eq x y)
    (hf : Entails mid post rel' (f ()) (f' ())) : Entails pre post rel' (x >>= f) (y >>= f') :=
  hx.bind fun _ _ _ => hf

theorem entails_pure {rel : α → β → Prop} {a : α} {b : β} (h : rel a b) :
    Entails pre pre rel (pure a : ExceptT ε (StateM σ) α) (pure b : ExceptT ε (StateM τ) β) := by
  refine ⟨fun hpre hrun => ?_⟩
  cases hrun
  exact ⟨b, _, rfl, h, hpre⟩

/-- Nothing is asked where the first sequence is rejected. -/
theorem entails_throw {rel : α → β → Prop} (e : ε) (y : ExceptT ε (StateM τ) β) :
    Entails pre post rel (throw e : ExceptT ε (StateM σ) α) y :=
  ⟨fun _ hrun => nomatch hrun⟩

end Entails

section Agrees

variable {τ γ δ : Type} {R : σ → τ → Prop}

/-- Two outcomes with results in the given relation, or with the same error. -/
inductive Same (rel : α → β → Prop) : Except ε α → Except ε β → Prop where
  | ok {a : α} {b : β} : rel a b → Same rel (.ok a) (.ok b)
  | error (e : ε) : Same rel (.error e) (.error e)

/-- From states in the given relation two sequences go the same way, and they keep to the relation
even where they fail. -/
structure Agrees (R : σ → τ → Prop) (rel : α → β → Prop) (x : ExceptT ε (StateM σ) α)
    (y : ExceptT ε (StateM τ) β) : Prop where
  same : ∀ {s t}, R s t → Same rel (x.run.run s).1 (y.run.run t).1
  states : ∀ {s t}, R s t → R (x.run.run s).2 (y.run.run t).2

theorem Agrees.bind {rel : α → β → Prop} {rel' : γ → δ → Prop} {x : ExceptT ε (StateM σ) α}
    {y : ExceptT ε (StateM τ) β} {f : α → ExceptT ε (StateM σ) γ} {f' : β → ExceptT ε (StateM τ) δ}
    (hx : Agrees R rel x y) (hf : ∀ a b, rel a b → Agrees R rel' (f a) (f' b)) :
    Agrees R rel' (x >>= f) (y >>= f') := by
  have hboth : ∀ {s t}, R s t →
      Same rel' ((x >>= f).run.run s).1 ((y >>= f').run.run t).1 ∧
        R ((x >>= f).run.run s).2 ((y >>= f').run.run t).2 := by
    intro s t hst
    have hsame := hx.same hst
    have hstates := hx.states hst
    rw [run_bind, run_bind]
    generalize x.run.run s = first at hsame hstates ⊢
    generalize y.run.run t = second at hsame hstates ⊢
    rcases first with ⟨a, s'⟩
    rcases second with ⟨b, t'⟩
    cases hsame with
    | ok hab => exact ⟨(hf _ _ hab).same hstates, (hf _ _ hab).states hstates⟩
    | error e => exact ⟨.error e, hstates⟩
  exact ⟨fun hst => (hboth hst).1, fun hst => (hboth hst).2⟩

theorem agrees_pure {rel : α → β → Prop} {a : α} {b : β} (h : rel a b) :
    Agrees R rel (pure a : ExceptT ε (StateM σ) α) (pure b : ExceptT ε (StateM τ) β) :=
  ⟨fun _ => .ok h, id⟩

theorem agrees_throw {rel : α → β → Prop} (e : ε) :
    Agrees R rel (throw e : ExceptT ε (StateM σ) α) (throw e : ExceptT ε (StateM τ) β) :=
  ⟨fun _ => .error e, id⟩

theorem Agrees.entails {rel : α → β → Prop} {x : ExceptT ε (StateM σ) α}
    {y : ExceptT ε (StateM τ) β} (h : Agrees R rel x y) : Entails R R rel x y := by
  refine ⟨fun {s t a s'} hst hrun => ?_⟩
  have hsame := h.same hst
  have hstates := h.states hst
  rw [hrun] at hsame hstates
  rcases hrun' : y.run.run t with ⟨outcome, t'⟩
  rw [hrun'] at hsame hstates
  cases hsame with
  | ok hab => exact ⟨_, t', rfl, hab, hstates⟩

end Agrees

end ManagedCode.Outcome
