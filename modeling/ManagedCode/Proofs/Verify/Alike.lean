import ManagedCode.Proofs.StackType.Consistency
import ManagedCode.Proofs.Verify.Step
import Mathlib.Data.List.Forall2

namespace ManagedCode

/-! One step on two stacks whose slots are interchangeable. The two runs go the same way as long as
the operands that are asked for more than their category give the same answers. -/

/-- What is asked of the exact type of an operand. -/
abbrev Question := StackType → Bool

namespace Question

/-- What every operand answers alike. -/
def none : Question := fun _ => true

/-- A number only stands for an interface that its own type implements. -/
def standsFor (g : Graph) (t : Ty) : Question := fun s => !t.isInterface || s.isAssignableTo g t

/-- A value has the fields of its own type. -/
def holdsField (c : Context) (declaring : Ty) (load : Bool) : Question := fun s =>
  isFieldInstance c s declaring load

end Question

/-- The answers of the operands on top of the stack. -/
def Shape.answers (asked : List Question) (shape : Shape) : List Bool :=
  List.zipWith (fun question s => question s) asked shape

/-- Stacks whose slots are interchangeable. -/
abbrev Shape.Interchangeable (shape shape' : Shape) : Prop :=
  List.Forall₂ StackType.Interchangeable shape shape'

/-- Interchangeable slots that answer alike. -/
structure Alike (asked : List Question) (s t : EvalStack) : Prop where
  slots : s.shape.Interchangeable t.shape
  answers : s.shape.answers asked = t.shape.answers asked

namespace Alike

variable {asked : List Question} {s t : EvalStack}

theorem forget (h : Alike asked s t) : Alike [] s t :=
  ⟨h.slots, rfl⟩

theorem depth_eq (h : Alike asked s t) : s.depth = t.depth := by
  rw [← EvalStack.length_shape, ← EvalStack.length_shape]
  exact h.slots.length_eq

theorem isEmpty_eq (h : Alike asked s t) : s.isEmpty = t.isEmpty := by
  have hdepth : s.entries.length = t.entries.length := h.depth_eq
  rw [EvalStack.isEmpty, EvalStack.isEmpty, Bool.eq_iff_iff, List.isEmpty_iff_length_eq_zero,
    List.isEmpty_iff_length_eq_zero, hdepth]

theorem push (h : Alike asked s t) {a b : StackType} (hab : a.Interchangeable b) :
    Alike [] (s.push a) (t.push b) :=
  ⟨.cons hab h.slots, rfl⟩

theorem pushEntry (h : Alike asked s t) {a b : StackEntry} (hab : a.type.Interchangeable b.type) :
    Alike [] (s.pushEntry a) (t.pushEntry b) :=
  ⟨.cons hab h.slots, rfl⟩

theorem pop? {question : Question} (h : Alike (question :: asked) s t) :
    (s.pop? = .none ∧ t.pop? = .none) ∨
      ∃ a s' b t', s.pop? = some (a, s') ∧ t.pop? = some (b, t') ∧
        a.type.Interchangeable b.type ∧ question a.type = question b.type ∧ Alike asked s' t' := by
  rcases s with ⟨_ | ⟨a, rest⟩, next⟩
  · rcases t with ⟨_ | ⟨b, rest'⟩, next'⟩
    · exact .inl ⟨rfl, rfl⟩
    · cases h.slots
  · rcases t with ⟨_ | ⟨b, rest'⟩, next'⟩
    · cases h.slots
    · have hslots := List.forall₂_cons.mp h.slots
      have hanswers := List.cons.inj h.answers
      exact .inr ⟨a, ⟨rest, next⟩, b, ⟨rest', next'⟩, rfl, rfl, hslots.1, hanswers.1,
        ⟨hslots.2, hanswers.2⟩⟩

theorem askNothing (h : Alike [] s t) : Alike [Question.none] s t := by
  refine ⟨h.slots, ?_⟩
  have hslots := h.slots
  generalize s.shape = shape at hslots ⊢
  generalize t.shape = shape' at hslots ⊢
  cases hslots with
  | nil => rfl
  | cons => rfl

end Alike

namespace Step

variable {α β γ δ : Type} {asked mid left : List Question} {rel : α → β → Prop}
  {rel' : γ → δ → Prop}

/-- Both runs are accepted, with related outcomes, or both are rejected. -/
inductive Together (left : List Question) (rel : α → β → Prop) :
    Except VerifyError α × EvalStack → Except VerifyError β × EvalStack → Prop where
  | ok {a : α} {b : β} {s t : EvalStack} : rel a b → Alike left s t →
      Together left rel (.ok a, s) (.ok b, t)
  | error {e e' : VerifyError} {s t : EvalStack} : Alike [] s t →
      Together left rel (.error e, s) (.error e', t)

/-- From stacks that answer the asked questions alike, the two steps run together. The operands that
are left answer the remaining questions alike. -/
structure Tracks (asked left : List Question) (rel : α → β → Prop) (x : Step α) (y : Step β) :
    Prop where
  together : ∀ {s t : EvalStack}, Alike asked s t → Together left rel (x.on s) (y.on t)

abbrev Follows (asked left : List Question) (x y : Step Unit) : Prop :=
  Tracks asked left (fun _ _ => True) x y

theorem Tracks.bind {x : Step α} {y : Step β} {f : α → Step γ} {f' : β → Step δ}
    (hx : Tracks asked mid rel x y) (hf : ∀ a b, rel a b → Tracks mid left rel' (f a) (f' b)) :
    Tracks asked left rel' (x >>= f) (y >>= f') := by
  refine ⟨fun {s t} h => ?_⟩
  have hfirst := hx.together h
  rw [on_bind, on_bind]
  generalize x.on s = run at hfirst ⊢
  generalize y.on t = run' at hfirst ⊢
  cases hfirst with
  | ok hrel halike => exact (hf _ _ hrel).together halike
  | error halike => exact .error halike

theorem Tracks.seq {x y : Step Unit} {f f' : Unit → Step γ} {rel'' : γ → γ → Prop}
    (hx : Follows asked mid x y) (hf : Tracks mid left rel'' (f ()) (f' ())) :
    Tracks asked left rel'' (x >>= f) (y >>= f') :=
  hx.bind fun _ _ _ => hf

theorem Tracks.mono {x : Step α} {y : Step β} {weaker : α → β → Prop}
    (h : Tracks asked left rel x y) (hrel : ∀ a b, rel a b → weaker a b) :
    Tracks asked left weaker x y := by
  refine ⟨fun {s t} halike => ?_⟩
  have hrun := h.together halike
  generalize x.on s = run at hrun ⊢
  generalize y.on t = run' at hrun ⊢
  cases hrun with
  | ok hab halike => exact .ok (hrel _ _ hab) halike
  | error halike => exact .error halike

theorem tracks_pure {a : α} {b : β} (h : rel a b) : Tracks asked asked rel (pure a) (pure b) :=
  ⟨fun halike => .ok h halike⟩

theorem tracks_throw (e e' : VerifyError) :
    Tracks asked left rel (throw e : Step α) (throw e' : Step β) :=
  ⟨fun halike => .error halike.forget⟩

theorem follows_done : Follows asked [] (pure ()) (pure ()) :=
  ⟨fun halike => .ok trivial halike.forget⟩

theorem tracks_get : Tracks asked asked (fun s t => Alike asked s t) get get :=
  ⟨fun halike => .ok halike halike⟩

theorem follows_check {condition condition' : Bool} (h : condition = condition')
    (e e' : VerifyError) : Follows asked asked (check condition e) (check condition' e') := by
  refine ⟨fun {s t} halike => ?_⟩
  subst h
  rw [on_check, on_check]
  cases condition with
  | false => exact .error halike.forget
  | true => exact .ok trivial halike

theorem follows_liftM {x y : Except VerifyError Unit} (h : x.isOk = y.isOk) :
    Follows asked asked (liftM x) (liftM y) := by
  refine ⟨fun {s t} halike => ?_⟩
  rw [on_liftM, on_liftM]
  cases x with
  | error e =>
      cases y with
      | error e' => exact .error halike.forget
      | ok => cases h
  | ok =>
      cases y with
      | error e' => cases h
      | ok => exact .ok trivial halike

theorem follows_require (count : Nat) (reason : Nat → String) :
    Follows asked asked (require count reason) (require count reason) := by
  refine ⟨fun {s t} halike => ?_⟩
  rw [on_require, on_require, halike.depth_eq]
  by_cases hdepth : t.depth < count
  · rw [if_pos hdepth]
    exact .error halike.forget
  · rw [if_neg hdepth]
    exact .ok trivial halike

theorem follows_push {a b : StackType} (h : a.Interchangeable b) :
    Follows asked [] (push a) (push b) :=
  ⟨fun halike => .ok trivial (halike.push h)⟩

theorem follows_pushType (t : Ty) : Follows asked [] (pushType t) (pushType t) :=
  follows_push (.same _)

theorem follows_pushEntry {a b : StackEntry} (h : a.type.Interchangeable b.type) :
    Follows asked [] (pushEntry a) (pushEntry b) :=
  ⟨fun halike => .ok trivial (halike.pushEntry h)⟩

theorem follows_pushResult (result : Option Ty) :
    Follows asked [] (pushResult result) (pushResult result) := by
  cases result with
  | none => exact follows_done
  | some t => exact follows_pushType t

theorem follows_clear : Follows asked [] clear clear :=
  ⟨fun _ => .ok trivial ⟨.nil, rfl⟩⟩

theorem tracks_popEntry (question : Question) (reason reason' : String) :
    Tracks (question :: asked) asked
      (fun a b => a.type.Interchangeable b.type ∧ question a.type = question b.type)
      (popEntry reason) (popEntry reason') := by
  refine ⟨fun {s t} halike => ?_⟩
  rw [on_popEntry, on_popEntry]
  rcases halike.pop? with ⟨hs, ht⟩ | ⟨a, s', b, t', hs, ht, hslots, hanswer, hrest⟩
  · rw [hs, ht]
    exact .error halike.forget
  · rw [hs, ht]
    exact .ok ⟨hslots, hanswer⟩ hrest

theorem tracks_pop (question : Question) (reason reason' : String) :
    Tracks (question :: asked) asked
      (fun a b => a.Interchangeable b ∧ question a = question b) (pop reason) (pop reason') :=
  (tracks_popEntry question reason reason').bind fun _ _ h => tracks_pure h

theorem tracks_popAny (reason : String) :
    Tracks [] [] (fun a b => a.Interchangeable b) (pop reason) (pop reason) := by
  refine ⟨fun {s t} halike => ?_⟩
  exact ((tracks_pop .none reason reason).mono fun _ _ h => h.1).together halike.askNothing

theorem tracks_popAnyEntry (reason : String) :
    Tracks [] [] (fun a b => a.type.Interchangeable b.type) (popEntry reason)
      (popEntry reason) := by
  refine ⟨fun {s t} halike => ?_⟩
  exact ((tracks_popEntry .none reason reason).mono fun _ _ h => h.1).together halike.askNothing

end Step

/-! Operands. -/

namespace StackType.Interchangeable

variable {s t : StackType}

/-- With the answer about interfaces, a slot fits where the other one does. -/
theorem isAssignableTo_congr (h : s.Interchangeable t) (g : Graph) {target : Ty}
    (hanswer : Question.standsFor g target s = Question.standsFor g target t) :
    s.isAssignableTo g target = t.isAssignableTo g target := by
  cases hinterface : target.isInterface with
  | false => exact h.isAssignableTo_eq g hinterface
  | true => simpa [Question.standsFor, hinterface] using hanswer

theorem checkSize_isOk (h : s.Interchangeable t) : (checkSize s).isOk = (checkSize t).isOk := by
  rw [checkSize, checkSize, h.category_eq]
  cases t.category <;> rfl

theorem checkObjectReceiver_isOk (h : s.Interchangeable t) (g : Graph) (m : Method) :
    (checkObjectReceiver g s m).isOk = (checkObjectReceiver g t m).isOk := by
  refine h.eq_of_numbers (f := fun u => (checkObjectReceiver g u m).isOk) (c := false) ?_
  intro a ha
  have hvalue : (simple a).isValueType = true := Ty.isValueType_of_isNumeric ha
  simp only [checkObjectReceiver, hvalue]
  rfl

theorem checkCallReceiver_isOk (h : s.Interchangeable t) (g : Graph) (m : Method) :
    (checkCallReceiver g s m).isOk = (checkCallReceiver g t m).isOk := by
  refine h.eq_of_numbers (f := fun u => (checkCallReceiver g u m).isOk) (c := false) ?_
  intro a ha
  have hvalue : (simple a).isValueType = true := Ty.isValueType_of_isNumeric ha
  have hreferent : (simple a).simple?.bind Ty.referent? = none :=
    Ty.referent?_of_isValueType (Ty.isValueType_of_isNumeric ha)
  simp only [checkCallReceiver, checkObjectReceiver, hvalue, hreferent]
  split <;> rfl

theorem checkVirtualReceiver_isOk (h : s.Interchangeable t) (g : Graph) (m : Method) :
    (checkVirtualReceiver g s m).isOk = (checkVirtualReceiver g t m).isOk := by
  rw [checkVirtualReceiver, checkVirtualReceiver, h.referent?_eq]
  cases t.simple?.bind Ty.referent? with
  | none => exact h.checkObjectReceiver_isOk g m
  | some referent =>
      cases hvalue : referent.isValueType with
      | true => simp only [hvalue]; rfl
      | false =>
          simp only [hvalue]
          exact h.checkObjectReceiver_isOk g m

theorem checkConstrainedReceiver_isOk (h : s.Interchangeable t) (g : Graph) (constrained : Ty)
    (m : Method) :
    (checkConstrainedReceiver g s constrained m).isOk =
      (checkConstrainedReceiver g t constrained m).isOk := by
  refine h.eq_of_numbers (f := fun u => (checkConstrainedReceiver g u constrained m).isOk)
    (c := false) ?_
  intro a ha
  have hne : simple a ≠ .simple (.byRef constrained) := by
    intro heq
    cases StackType.simple.inj heq
    cases ha
  rw [checkConstrainedReceiver, if_pos hne]
  rfl

end StackType.Interchangeable

namespace Step

variable {asked : List Question}

theorem follows_popExpecting (g : Graph) (t : Ty) (reason : String) :
    Follows (Question.standsFor g t :: asked) asked (popExpecting g t reason)
      (popExpecting g t reason) :=
  (tracks_pop _ reason reason).bind fun _ _ h =>
    follows_check (h.1.isAssignableTo_congr g h.2) _ _

theorem follows_popArguments (g : Graph) (parameters : List Ty) (index : Nat) :
    Follows ((parameters.map (Question.standsFor g)).reverse ++ asked) asked
      (popArguments g index parameters) (popArguments g index parameters) := by
  induction parameters generalizing index asked with
  | nil => exact tracks_pure trivial
  | cons t rest ih =>
      rw [List.map_cons, List.reverse_cons, List.append_assoc]
      exact (ih (index + 1)).seq (follows_popExpecting g t _)

theorem follows_popAddress (c : Context) (accessed : Option Ty) (reason : String) :
    Follows [] [] (popAddress c accessed reason) (popAddress c accessed reason) := by
  refine (tracks_popAny reason).bind fun a b h => ?_
  simp only [h.category_eq, h.referent?_eq]
  cases b.category with
  | zero => exact tracks_pure trivial
  | nativeInt => exact follows_check rfl _ _
  | managedPointer | pointer =>
      cases b.simple?.bind Ty.referent? with
      | none => exact tracks_pure trivial
      | some referent =>
          cases accessed with
          | none => exact tracks_pure trivial
          | some accessed => exact follows_check rfl _ _
  | int32 | int64 | float | object => exact tracks_throw _ _

theorem follows_popIndex (reason : String) : Follows [] [] (popIndex reason) (popIndex reason) :=
  (tracks_popAny reason).bind fun _ _ h => follows_liftM h.checkSize_isOk

theorem tracks_popArray (reason : String) :
    Tracks [] [] (fun a b => a = b) (popArray reason) (popArray reason) := by
  refine (tracks_popAny reason).bind fun a b h => ?_
  cases h with
  | same =>
      cases a with
      | zero => exact tracks_pure rfl
      | complex base interfaces => exact tracks_throw _ _
      | simple t =>
          cases helement : t.element? with
          | none =>
              simp only [helement]
              exact tracks_throw _ _
          | some element =>
              simp only [helement]
              exact tracks_pure rfl
  | @numbers a b hnumeric hcategory =>
      have ha : a.element? = none :=
        Ty.element?_of_isValueType (Ty.isValueType_of_isNumeric hnumeric)
      have hb : b.element? = none :=
        Ty.element?_of_isValueType (Ty.isValueType_of_isNumeric (hcategory ▸ hnumeric))
      simp only [ha, hb]
      exact tracks_throw _ _

end Step

end ManagedCode
