import ManagedCode.Verify.Straight

namespace ManagedCode

/-! Interchangeable slots: the same slot twice, or two numbers of one category. Only whether a number
stands for an interface depends on more than its category. -/

namespace Ty

variable {t : Ty}

theorem isValueType_of_isNumeric (h : t.category.isNumeric = true) : t.isValueType = true := by
  cases t with
  | enum | primitive => rfl
  | object | subclass | interface | struct | array | bareArray | byRef | pointer => cases h

theorem isStruct_of_isNumeric (h : t.category.isNumeric = true) : t.isStruct = false := by
  cases t with
  | struct => cases h
  | _ => rfl

theorem isReference_of_isValueType (h : t.isValueType = true) : t.isReference = false := by
  cases t with
  | enum | primitive | struct => rfl
  | object | subclass | interface | array | bareArray | byRef | pointer => cases h

theorem referent?_of_isValueType (h : t.isValueType = true) : t.referent? = none := by
  cases t with
  | byRef | pointer => cases h
  | _ => rfl

theorem element?_of_isValueType (h : t.isValueType = true) : t.element? = none := by
  cases t with
  | array | bareArray => cases h
  | _ => rfl

theorem not_isInterface_of_isValueType (h : t.isValueType = true) : t.isInterface = false := by
  cases t with
  | interface => cases h
  | _ => rfl

theorem category_canonical (t : Ty) : t.canonical.category = t.category := by
  induction t with
  | enum name base underlying _ ih => exact ih
  | primitive kind base => cases kind <;> rfl
  | object | subclass | interface | struct | array | bareArray | byRef | pointer => rfl

end Ty

/-- Outside of interfaces, a value type only stands for itself. -/
theorem Graph.isAssignable_of_isValueType (g : Graph) {t super : Ty} (ht : t.isValueType = true)
    (hsuper : super.isInterface = false) : g.isAssignable t super = (t = super : Bool) := by
  have hconforms : g.conforms t super = false := by
    rw [Graph.conforms, Ty.isReference_of_isValueType ht, ht, hsuper]
    simp
  cases t with
  | enum | primitive | struct => simp only [Graph.isAssignable, hconforms, Bool.or_false]
  | object | subclass | interface | array | bareArray | byRef | pointer => cases ht

namespace StackType

theorem category_canonical (s : StackType) : s.canonical.category = s.category := by
  cases s with
  | zero | complex => rfl
  | simple t => exact Ty.category_canonical t

inductive Interchangeable : StackType → StackType → Prop where
  | same (s : StackType) : Interchangeable s s
  | numbers {a b : Ty} : a.category.isNumeric = true → a.category = b.category →
      Interchangeable (simple a) (simple b)

theorem isNumeric_simple {s : StackType} (h : s.category.isNumeric = true) :
    ∃ t, s = simple t := by
  cases s with
  | zero | complex => cases h
  | simple t => exact ⟨t, rfl⟩

theorem isConsistentWith_iff {s t : StackType} :
    s.isConsistentWith t = true ↔ s.Interchangeable t := by
  constructor
  · intro h
    by_cases hnumeric : s.category.isNumeric = true
    · have hcategory : s.category = t.category := by
        simpa [isConsistentWith, hnumeric] using h
      obtain ⟨a, rfl⟩ := isNumeric_simple hnumeric
      obtain ⟨b, rfl⟩ := isNumeric_simple (hcategory ▸ hnumeric)
      exact .numbers hnumeric hcategory
    · have hequal : s = t := by
        simpa [isConsistentWith, hnumeric] using h
      exact hequal ▸ .same s
  · intro h
    cases h with
    | same => simp [isConsistentWith]
    | @numbers a b hnumeric hcategory =>
        have hs : (simple a).category.isNumeric = true := hnumeric
        rw [isConsistentWith, if_pos hs]
        exact decide_eq_true hcategory

namespace Interchangeable

variable {s t : StackType}

theorem symm (h : s.Interchangeable t) : t.Interchangeable s := by
  cases h with
  | same => exact .same s
  | numbers hnumeric hcategory => exact .numbers (hcategory ▸ hnumeric) hcategory.symm

theorem trans {u : StackType} (h : s.Interchangeable t) (h' : t.Interchangeable u) :
    s.Interchangeable u := by
  cases h with
  | same => exact h'
  | numbers hnumeric hcategory =>
      cases h' with
      | same => exact .numbers hnumeric hcategory
      | numbers _ hcategory' => exact .numbers hnumeric (hcategory.trans hcategory')

theorem category_eq (h : s.Interchangeable t) : s.category = t.category := by
  cases h with
  | same => rfl
  | numbers _ hcategory => exact hcategory

/-- What all numbers have in common tells no two interchangeable slots apart. -/
theorem eq_of_numbers {α : Type} {f : StackType → α} {c : α} (h : s.Interchangeable t)
    (hf : ∀ a : Ty, a.category.isNumeric = true → f (simple a) = c) : f s = f t := by
  cases h with
  | same => rfl
  | @numbers a b hnumeric hcategory =>
      have hb : b.category.isNumeric = true := hcategory ▸ hnumeric
      exact (hf a hnumeric).trans (hf b hb).symm

theorem isStruct_eq (h : s.Interchangeable t) : s.isStruct = t.isStruct :=
  h.eq_of_numbers fun _ => Ty.isStruct_of_isNumeric

theorem isValueType_eq (h : s.Interchangeable t) : s.isValueType = t.isValueType :=
  h.eq_of_numbers fun _ => Ty.isValueType_of_isNumeric

theorem isObjectReference_eq (h : s.Interchangeable t) :
    s.isObjectReference = t.isObjectReference :=
  h.eq_of_numbers fun _ ha => Ty.isReference_of_isValueType (Ty.isValueType_of_isNumeric ha)

theorem referent?_eq (h : s.Interchangeable t) :
    s.simple?.bind Ty.referent? = t.simple?.bind Ty.referent? :=
  h.eq_of_numbers (f := fun u => u.simple?.bind Ty.referent?) fun _ ha =>
    Ty.referent?_of_isValueType (Ty.isValueType_of_isNumeric ha)

theorem canonical (h : s.Interchangeable t) : s.canonical.Interchangeable t.canonical := by
  cases h with
  | same => exact .same _
  | @numbers a b hnumeric hcategory =>
      have ha : a.canonical.category = a.category := Ty.category_canonical a
      have hb : b.canonical.category = b.category := Ty.category_canonical b
      exact .numbers (ha ▸ hnumeric) (ha.trans (hcategory.trans hb.symm))

/-- An interface is the only target that tells two numbers of one category apart. -/
theorem isAssignableTo_eq (h : s.Interchangeable t) (g : Graph) {target : Ty}
    (htarget : target.isInterface = false) :
    s.isAssignableTo g target = t.isAssignableTo g target := by
  cases h with
  | same => rfl
  | @numbers a b hnumeric hcategory =>
      have hb : b.category.isNumeric = true := hcategory ▸ hnumeric
      have hvalue : a.isValueType = true := Ty.isValueType_of_isNumeric hnumeric
      have hvalue' : b.isValueType = true := Ty.isValueType_of_isNumeric hb
      by_cases hkind : target.isValueType = true
      · have heq : ∀ {u : Ty}, u.category.isNumeric = true → u.isValueType = true →
            isAssignableType g u target = (u.category = target.category : Bool) := by
          intro u hu huvalue
          by_cases hsame : u = target
          · subst hsame
            simp [isAssignableType]
          · simp [isAssignableType, hsame, hu, huvalue, hkind]
        simp only [isAssignableTo, heq hnumeric hvalue, heq hb hvalue', hcategory]
      · have hne : ∀ {u : Ty}, u.isValueType = true → isAssignableType g u target = false := by
          intro u hu
          have hsame : u ≠ target := by
            rintro rfl
            exact hkind hu
          rw [isAssignableType, if_neg hsame, Graph.isAssignable_of_isValueType g hu htarget]
          simp [hkind, hsame]
        simp only [isAssignableTo, hne hvalue, hne hvalue']

end Interchangeable

end StackType

end ManagedCode
