import ManagedCode.Proofs.StackType.Flow
import ManagedCode.Proofs.StackType.Join

namespace ManagedCode.StackType

/-! A slot that is widened again and again still takes what it has taken before. -/

/-- The slot takes the value: as it arrives at labels, or as a more general type. A value type is
taken as well if the slot was an interface on the way to what it is now, and some type that arrives
like the value stands for that interface. -/
inductive TakenBy (g : Graph) (s recorded : StackType) : Prop where
  | flows : s.flowsInto recorded = true → TakenBy g s recorded
  | fits : s.fits g recorded = true → TakenBy g s recorded
  | boxed {v i : Ty} : s.isValueType = true → s.flowsInto (simple v) = true → g.Knows i →
      i.isInterface = true → g.isAssignable v i = true → (simple i).fits g recorded = true →
      TakenBy g s recorded

variable {g : Graph} {s t recorded joined : StackType} {v w : Ty}

theorem eq_of_address_fits (hreference : v.isReference = false) (hvalue : v.isValueType = false)
    (ht : t.Known g) (hfits : (simple v).fits g t = true) : t = simple v := by
  cases t with
  | zero => simp [fits] at hfits
  | simple w => rw [eq_of_isAssignableType hreference hvalue hfits]
  | complex base interfaces =>
      cases eq_of_isAssignableType hreference hvalue (fits_complex.mp hfits).1
      rw [ht.2.1] at hreference
      cases hreference

/-- A value type fits the numbers of its category, itself, and interfaces. -/
theorem of_value_fits (hvalue : v.isValueType = true) (ht : t.Known g)
    (hfits : (simple v).fits g t = true) :
    ∃ w, t = simple w ∧
      ((simple v).Interchangeable t ∨ w.isInterface = true ∧ g.isAssignable v w = true) := by
  have hkind : ∀ {w : Ty}, isAssignableType g v w = true →
      (simple v).Interchangeable (simple w) ∨ w.isInterface = true ∧ g.isAssignable v w = true := by
    intro w hvw
    unfold isAssignableType at hvw
    split at hvw
    · rename_i heq
      rw [heq]
      exact .inl (.same _)
    split at hvw
    · rename_i hnumbers
      obtain ⟨hboth, -⟩ := Bool.and_eq_true_iff.mp hnumbers
      exact .inl (.numbers (Bool.and_eq_true_iff.mp hboth).1 (of_decide_eq_true hvw))
    · cases hinterface : w.isInterface with
      | true => exact .inr ⟨rfl, hvw⟩
      | false =>
          rw [Graph.isAssignable_of_isValueType g hvalue hinterface] at hvw
          rw [of_decide_eq_true hvw]
          exact .inl (.same _)
  cases t with
  | zero => simp [fits] at hfits
  | simple w => exact ⟨w, rfl, hkind hfits⟩
  | complex base interfaces =>
      obtain ⟨-, hbaseref, hbaseclass, -⟩ := ht
      rcases hkind (fits_complex.mp hfits).1 with hslots | ⟨hinterface, -⟩
      · have href := hslots.isValueType_eq
        have hbasevalue : base.isValueType = true := href.symm.trans hvalue
        rw [Ty.isReference_of_isValueType hbasevalue] at hbaseref
        cases hbaseref
      · rw [hbaseclass] at hinterface
        cases hinterface

theorem kind_cases (s : StackType) :
    s.isObjectReference = true ∨
      ∃ v, s = simple v ∧ (v.isValueType = true ∨ v.isReference = false ∧ v.isValueType = false) := by
  cases s with
  | zero | complex => exact .inl rfl
  | simple v =>
      cases v with
      | object | subclass | interface | array | bareArray => exact .inl rfl
      | struct | enum | primitive => exact .inr ⟨_, rfl, .inl rfl⟩
      | byRef | pointer => exact .inr ⟨_, rfl, .inr ⟨rfl, rfl⟩⟩

section

variable (htame : g.Tame) (h : g.Sound)
include htame h

theorem TakenBy.null_of_fits (hrecorded : recorded.Known g) (hjoined : joined.Known g)
    (hstruct : recorded.isStruct = false) (hfits : recorded.fits g joined = true) :
    TakenBy g zero joined := by
  rcases kind_cases recorded with href | ⟨v, rfl, hvalue | ⟨hreference, hvalue⟩⟩
  · exact .fits (fits_trans htame h trivial hrecorded hjoined rfl (zero_fits hrecorded href) hfits)
  · obtain ⟨w, rfl, hslots | ⟨hinterface, -⟩⟩ := of_value_fits hvalue hjoined hfits
    · exact .flows (zero_flowsInto (hslots.isStruct_eq.symm.trans hstruct))
    · exact .fits (zero_fits hjoined (Ty.isReference_of_isInterface hinterface))
  · rw [eq_of_address_fits hreference hvalue hjoined hfits]
    exact .flows (zero_flowsInto hstruct)

theorem TakenBy.flows_of_fits (hrecorded : recorded.Known g) (hjoined : joined.Known g)
    (hnull : recorded = zero → s = zero) (hflows : s.flowsInto recorded = true)
    (hfits : recorded.fits g joined = true) : TakenBy g s joined := by
  rcases flowsInto_iff.mp hflows with (hconsistent | ⟨rfl, hstruct⟩) | ⟨rfl, hvalue, -⟩
  · cases isConsistentWith_iff.mp hconsistent with
    | same => exact .fits hfits
    | @numbers a b hnumeric hcategory =>
        have hb : b.isValueType = true := Ty.isValueType_of_isNumeric (hcategory ▸ hnumeric)
        obtain ⟨w, rfl, hslots | ⟨hinterface, hassignable⟩⟩ := of_value_fits hb hjoined hfits
        · have htrans := (Interchangeable.numbers hnumeric hcategory).trans hslots
          exact .flows (flowsInto_of_interchangeable htrans)
        · exact .boxed (Ty.isValueType_of_isNumeric hnumeric) hflows hjoined hinterface hassignable
            (fits_self g (simple w))
  · exact .null_of_fits htame h hrecorded hjoined hstruct hfits
  · exact absurd (hnull rfl) hvalue

theorem TakenBy.of_fits (hs : s.Known g) (hrecorded : recorded.Known g) (hjoined : joined.Known g)
    (hnull : recorded = zero → s = zero) (htaken : TakenBy g s recorded)
    (hfits : recorded.fits g joined = true) : TakenBy g s joined := by
  cases htaken with
  | flows hflows => exact .flows_of_fits htame h hrecorded hjoined hnull hflows hfits
  | fits hsrecorded =>
      rcases kind_cases s with href | ⟨v, rfl, hvalue | ⟨hreference, hvalue⟩⟩
      · exact .fits (fits_trans htame h hs hrecorded hjoined href hsrecorded hfits)
      · obtain ⟨w, rfl, hslots | ⟨hinterface, hassignable⟩⟩ :=
          of_value_fits hvalue hrecorded hsrecorded
        · exact .flows_of_fits htame h hrecorded hjoined hnull (flowsInto_of_interchangeable hslots)
            hfits
        · exact .boxed hvalue (flowsInto_of_interchangeable (.same _)) hrecorded hinterface
            hassignable hfits
      · rw [eq_of_address_fits hreference hvalue hrecorded hsrecorded] at hfits
        exact .fits hfits
  | boxed hvalue hflows hi hinterface hassignable hirecorded =>
      exact .boxed hvalue hflows hi hinterface hassignable
        (fits_trans htame h hi hrecorded hjoined (Ty.isReference_of_isInterface hinterface)
          hirecorded hfits)

theorem not_fits_value (hs : s.Known g) (href : s.isObjectReference = true) (hv : g.Knows v)
    (hvalue : v.isValueType = true) : s.fits g (simple v) = false := by
  rw [Bool.eq_false_iff]
  intro hfits
  rcases isReference_of_isAssignableTo htame.classes h hs href hv hfits with hreference | ⟨-, -, hnot⟩
  · rw [Ty.isReference_of_isValueType hvalue] at hreference
    cases hreference
  · rw [hvalue] at hnot
    cases hnot

theorem TakenBy.of_interchangeable (hs : s.Known g) (hrecorded : recorded.Known g)
    (htaken : TakenBy g s recorded) (hslots : recorded.Interchangeable joined) :
    TakenBy g s joined := by
  cases hslots with
  | same => exact htaken
  | @numbers a b hnumeric hcategory =>
      have hvalue : a.isValueType = true := Ty.isValueType_of_isNumeric hnumeric
      have hslots : (simple a).Interchangeable (simple b) := .numbers hnumeric hcategory
      cases htaken with
      | flows hflows =>
          rcases flowsInto_iff.mp hflows with (hconsistent | ⟨rfl, hstruct⟩) | ⟨hzero, -, -⟩
          · have htrans := (isConsistentWith_iff.mp hconsistent).trans hslots
            exact .flows (flowsInto_of_interchangeable htrans)
          · exact .flows (zero_flowsInto (hslots.isStruct_eq.symm.trans hstruct))
          · cases hzero
      | fits hfits =>
          rcases kind_cases s with href | ⟨v, rfl, hv | ⟨hreference, hv⟩⟩
          · rw [not_fits_value htame h hs href hrecorded hvalue] at hfits
            cases hfits
          · obtain ⟨w, hw, hslots' | ⟨hinterface, -⟩⟩ := of_value_fits hv hrecorded hfits
            · exact .flows (flowsInto_of_interchangeable (hslots'.trans hslots))
            · cases hw
              rw [Ty.not_isInterface_of_isValueType hvalue] at hinterface
              cases hinterface
          · cases eq_of_address_fits hreference hv hrecorded hfits
            rw [hv] at hvalue
            cases hvalue
      | @boxed v i _ _ hi hinterface _ hirecorded =>
          have hiknown : (simple i).Known g := hi
          have hiref : (simple i).isObjectReference = true := Ty.isReference_of_isInterface hinterface
          rw [not_fits_value htame h hiknown hiref hrecorded hvalue] at hirecorded
          cases hirecorded

/-- Whatever a slot takes, it takes after it has been joined with another value. -/
theorem TakenBy.join (hs : s.Known g) (ht : t.Known g) (hrecorded : recorded.Known g)
    (hnull : recorded = zero → s = zero) (htaken : TakenBy g s recorded)
    (hjoin : t.join g recorded = some joined) : TakenBy g s joined := by
  have hjoined := join_known htame h ht hrecorded hjoin
  rcases join_cases hjoin with rfl | ⟨rfl, hfits⟩ | ⟨rfl, hslots⟩ | ⟨htref, hrecordedref, rfl⟩
  · exact htaken
  · exact htaken.of_fits htame h hs hrecorded hjoined hnull hfits
  · exact htaken.of_interchangeable htame h hs hrecorded hslots.symm
  · exact htaken.of_fits htame h hs hrecorded hjoined hnull
      (meet_spec htame h ht hrecorded htref hrecordedref).2.2

end

end ManagedCode.StackType
