import ManagedCode.Graph.Library
import ManagedCode.Proofs.Builder.Places

namespace ManagedCode

/-! Plain calls, and virtual calls without a constraint. Where a reference type declares the method,
they are told apart by the wording of some errors and by nothing else. -/

section Receivers

variable {receiver : StackType} {m : Method}

theorem checkCallReceiver_of_reference (hreference : m.declaring.isValueType = false) (g : Graph)
    (receiver : StackType) : checkCallReceiver g receiver m = checkObjectReceiver g receiver m := by
  rw [checkCallReceiver, hreference]
  rfl

/-- An address is no object, whatever it is the address of. -/
theorem checkObjectReceiver_address {referent : Ty}
    (h : receiver.simple?.bind Ty.referent? = some referent) (g : Graph) (m : Method) :
    checkObjectReceiver g receiver m = .error (.unexpected receiver (.type m.declaring)) := by
  cases receiver with
  | zero | complex => cases h
  | simple t =>
      cases t with
      | byRef | pointer => rfl
      | object | subclass | interface | struct | enum | primitive | array | bareArray => cases h

/-- A virtual call words the refusal of an address of its own accord. -/
theorem checkVirtualReceiver_kind (g : Graph) (receiver : StackType) (m : Method) :
    (checkVirtualReceiver g receiver m).mapError VerifyError.kind =
      (checkObjectReceiver g receiver m).mapError VerifyError.kind := by
  unfold checkVirtualReceiver
  split
  · rename_i referent hreferent
    split
    · rw [checkObjectReceiver_address hreferent]
      rfl
    · rfl
  · rfl

end Receivers

namespace Step

variable {α β : Type} {x y : Step α} {f f' : α → Step β}

/-- From every stack the same outcome, up to the wording of an error, and the same stack behind
it. -/
structure SameVerdict (x y : Step α) : Prop where
  outcome : ∀ s, (x.on s).1.mapError VerifyError.kind = (y.on s).1.mapError VerifyError.kind
  stack : ∀ s, (x.on s).2 = (y.on s).2

theorem SameVerdict.refl (x : Step α) : SameVerdict x x :=
  ⟨fun _ => rfl, fun _ => rfl⟩

theorem SameVerdict.bind (hx : SameVerdict x y) (hf : ∀ a, SameVerdict (f a) (f' a)) :
    SameVerdict (x >>= f) (y >>= f') := by
  have hboth : ∀ s, ((x >>= f).on s).1.mapError VerifyError.kind =
        ((y >>= f').on s).1.mapError VerifyError.kind ∧
      ((x >>= f).on s).2 = ((y >>= f').on s).2 := by
    intro s
    have houtcome := hx.outcome s
    have hstack := hx.stack s
    rw [on_bind, on_bind]
    generalize x.on s = first at houtcome hstack
    generalize y.on s = second at houtcome hstack
    obtain ⟨first, t⟩ := first
    obtain ⟨second, u⟩ := second
    cases hstack
    cases first with
    | ok a =>
        cases second with
        | ok b =>
            cases houtcome
            exact ⟨(hf a).outcome t, (hf a).stack t⟩
        | error e => cases houtcome
    | error e =>
        cases second with
        | ok b => cases houtcome
        | error e' => exact ⟨congrArg Except.error (Except.error.inj houtcome), rfl⟩
  exact ⟨fun s => (hboth s).1, fun s => (hboth s).2⟩

theorem sameVerdict_liftM {r r' : Except VerifyError α}
    (h : r.mapError VerifyError.kind = r'.mapError VerifyError.kind) :
    SameVerdict (liftM r : Step α) (liftM r') := by
  refine ⟨fun s => ?_, fun s => ?_⟩
  · rw [on_liftM, on_liftM]
    exact h
  · rw [on_liftM, on_liftM]

theorem sameVerdict_require (count : Nat) (reason reason' : Nat → String) :
    SameVerdict (require count reason) (require count reason') := by
  refine ⟨fun s => ?_, fun s => ?_⟩
  · rw [on_require, on_require]
    split
    · rfl
    · rfl
  · rw [on_require, on_require]

theorem sameVerdict_pop (reason reason' : String) : SameVerdict (pop reason) (pop reason') := by
  refine SameVerdict.bind ⟨fun s => ?_, fun s => ?_⟩ fun e => .refl _
  · rw [on_popEntry, on_popEntry]
    cases s.pop? with
    | none => rfl
    | some popped => rfl
  · rw [on_popEntry, on_popEntry]
    cases s.pop? with
    | none => rfl
    | some popped => rfl

end Step

namespace Context

open Step

variable {m : Method}

theorem sameVerdict_call (c : Context) (hinstance : m.isStatic = false)
    (hreference : m.declaring.isValueType = false) :
    SameVerdict (c.verify (.call m)) (c.verify (.callvirt m none)) := by
  refine (sameVerdict_require _ _ _).bind fun _ => ?_
  rw [step_callvirt]
  simp only [step, hinstance, Bool.not_false, if_true, check, pure_bind]
  refine (SameVerdict.refl _).bind fun _ => ?_
  refine (sameVerdict_pop _ _).bind fun receiver => ?_
  refine SameVerdict.bind (sameVerdict_liftM ?_) fun _ => .refl _
  rw [checkCallReceiver_of_reference hreference, checkVirtualReceiver_kind]

end Context

namespace Builder

/-- Two instructions with the same verdict leave builders that differ in the listing alone. -/
theorem push_sameVerdict {i j : Instruction}
    (h : ∀ c : Context, (c.verify i).SameVerdict (c.verify j)) (b : Builder) :
    ((push i).on b).1.mapError BuildError.kind = ((push j).on b).1.mapError BuildError.kind ∧
      ((push i).on b).2 = { ((push j).on b).2 with emitted := ((push i).on b).2.emitted } := by
  have houtcome := (h b.context).outcome b.stack
  have hstack := (h b.context).stack b.stack
  rcases push_cases i b with ⟨hi, hrun⟩ | ⟨e, hi, hrun⟩
  · rcases push_cases j b with ⟨hj, hrun'⟩ | ⟨e', hj, hrun'⟩
    · rw [hrun, hrun', hstack]
      exact ⟨rfl, rfl⟩
    · rw [hi, hj] at houtcome
      cases houtcome
  · rcases push_cases j b with ⟨hj, hrun'⟩ | ⟨e', hj, hrun'⟩
    · rw [hi, hj] at houtcome
      cases houtcome
    · rw [hi, hj] at houtcome
      rw [hrun, hrun', hstack]
      exact ⟨congrArg Except.error (Except.error.inj houtcome), rfl⟩

/-- For an instance method of a reference type it makes no difference whether it is called plainly
or virtually. So it makes none which of the two a builder chooses, for any method. -/
theorem calls_agree :
    (∀ (c : Context) (m : Method) (s : EvalStack), m.isStatic = false →
      m.declaring.isValueType = false →
      ((c.verify (.call m)).on s).1.mapError VerifyError.kind =
          ((c.verify (.callvirt m none)).on s).1.mapError VerifyError.kind ∧
        ((c.verify (.call m)).on s).2 = ((c.verify (.callvirt m none)).on s).2) ∧
    ∀ (b : Builder) (m : Method),
      ((callMethod m).on b).1.mapError BuildError.kind =
          ((push (.call m)).on b).1.mapError BuildError.kind ∧
        ((callMethod m).on b).2 =
          { ((push (.call m)).on b).2 with emitted := ((callMethod m).on b).2.emitted } := by
  constructor
  · intro c m s hinstance hreference
    have hsame := c.sameVerdict_call hinstance hreference
    exact ⟨hsame.outcome s, hsame.stack s⟩
  · intro b m
    unfold callMethod
    cases hstatic : m.isStatic with
    | true => exact ⟨rfl, rfl⟩
    | false =>
        cases hvalue : m.declaring.isValueType with
        | true => exact ⟨rfl, rfl⟩
        | false =>
            have hsame : ∀ c : Context, (c.verify (.callvirt m none)).SameVerdict
                (c.verify (.call m)) := by
              intro c
              have hcall := c.sameVerdict_call hstatic hvalue
              exact ⟨fun s => (hcall.outcome s).symm, fun s => (hcall.stack s).symm⟩
            exact push_sameVerdict hsame b

namespace Sample

def upper : Method := ⟨.string, ⟨"ToUpper", by decide⟩, ⟨[], some .string⟩, .publicBit⟩

/-- The address of a number. -/
def address : StackType := .simple (.byRef .int32)

def holdingAddress : EvalStack := ⟨[⟨0, address⟩], 1⟩

end Sample

open Sample in
/-- Either call refuses the address of a number as a string, and each in words of its own. -/
theorem calls_agree_address :
    let c := (new .library [] none).context
    let called := (c.verify (.call upper)).on holdingAddress
    let calledVirtually := (c.verify (.callvirt upper none)).on holdingAddress
    called.1 = .error (.unexpected address (.type .string)) ∧
      calledVirtually.1 = .error (.unexpected address (.constrainedCall .int32 upper)) ∧
      called.1.mapError VerifyError.kind = calledVirtually.1.mapError VerifyError.kind ∧
      called.2 = calledVirtually.2 := by
  obtain ⟨hsame, -⟩ := calls_agree
  exact ⟨rfl, rfl, hsame _ upper holdingAddress (by decide) (by decide)⟩

end Builder

end ManagedCode
