import ManagedCode.Operation
import ManagedCode.Proofs.StackType.Join

namespace ManagedCode

/-! Laws of the binary operators. Which operands an operator takes and the category of its result go
by the categories of the operands, and most operators do not mind their order. -/

namespace Category

/-- The type that stands for a category of integers. -/
def integerType : Category → Ty
  | int64 => .int64
  | nativeInt => .intPtr
  | _ => .int32

end Category

namespace Ty

variable {t : Ty}

theorem canonical_canonical (t : Ty) : t.canonical.canonical = t.canonical := by
  induction t with
  | enum name base underlying _ ih => exact ih
  | primitive kind base => cases kind <;> rfl
  | object | subclass | interface | struct | array | bareArray | byRef | pointer => rfl

/-- The canonical type of an integer goes by its category alone. -/
theorem canonical_of_isInteger (h : t.category.isInteger = true) :
    t.canonical = t.category.integerType := by
  induction t with
  | enum name base underlying _ ih => exact ih h
  | primitive kind base =>
      cases kind with
      | single | double => cases h
      | _ => rfl
  | object | subclass | interface | struct | array | bareArray | byRef | pointer => cases h

end Ty

/-- The library holds the only two floating-point types. -/
theorem Graph.Sound.canonical_of_float {g : Graph} (h : g.Sound) {t : Ty} (ht : g.Knows t)
    (hfloat : t.category = .float) : t.canonical = .single ∨ t.canonical = .double := by
  induction t with
  | enum name base underlying _ ih => exact ih (h.knows_underlying ht rfl) hfloat
  | primitive kind base =>
      have hlibrary : Ty.ofPrimitive kind ∈ g.types := by
        apply h.mem_of_library
        cases kind <;> decide
      have heq : Ty.primitive kind base = .ofPrimitive kind :=
        List.inj_on_of_nodup_map h.names ht hlibrary rfl
      rw [heq]
      cases kind with
      | single => exact .inl rfl
      | double => exact .inr rfl
      | _ => cases hfloat
  | object | subclass | interface | struct | array | bareArray | byRef | pointer => cases hfloat

namespace StackType

theorem canonical_canonical (s : StackType) : s.canonical.canonical = s.canonical := by
  cases s with
  | zero | complex => rfl
  | simple t => exact congrArg simple t.canonical_canonical

theorem canonical_of_isInteger {s : StackType} (h : s.category.isInteger = true) :
    s.canonical = simple s.category.integerType := by
  cases s with
  | zero | complex => cases h
  | simple t => exact congrArg simple (Ty.canonical_of_isInteger h)

theorem canonical_of_zero {s : StackType} (h : s.category = .zero) : s.canonical = zero := by
  cases s with
  | zero => rfl
  | complex => cases h
  | simple t =>
      have hne : t.category ≠ .zero := by
        clear h
        induction t with
        | enum name base underlying _ ih => exact ih
        | primitive kind base => cases kind <;> nofun
        | object | subclass | interface | struct | array | bareArray | byRef | pointer => nofun
      exact absurd h hne

/-- If it is a floating-point number, it stands for one of the two types of the library. -/
def LibraryFloat (s : StackType) : Prop :=
  s.category = .float → s.canonical = simple .single ∨ s.canonical = simple .double

theorem libraryFloat_of_known {g : Graph} (h : g.Sound) {s : StackType}
    (hs : ∀ t ∈ s.spelled, g.Knows t) : s.LibraryFloat := by
  intro hfloat
  cases s with
  | zero | complex => cases hfloat
  | simple t =>
      have hcanonical := h.canonical_of_float (hs t (List.mem_singleton_self t)) hfloat
      exact hcanonical.imp (congrArg simple) (congrArg simple)

end StackType

namespace Operation

variable {op : Operation} {l r s : StackType}

def arithmeticCategory : Category → Category → Category
  | .managedPointer, .managedPointer | .pointer, .pointer => .nativeInt
  | .managedPointer, _ => .managedPointer
  | .pointer, _ => .pointer
  | _, .managedPointer => .managedPointer
  | _, .pointer => .pointer
  | .nativeInt, _ | _, .nativeInt => .nativeInt
  | c, _ => c

/-- The category of the result, from those of the operands. -/
def resultCategory (op : Operation) (left right : Category) : Category :=
  if op.isComparison then .int32
  else if op = shift then if left = .zero then .int32 else left
  else if left = .zero then right
  else if right = .zero then left
  else arithmeticCategory left right

/-- No operator may: only the fields of structs are compared. -/
def comparesStruct (op : Operation) (l r : StackType) : Bool :=
  op.isComparison && (l.isStruct || r.isStruct)

theorem category_arithmeticResult (l r : StackType) :
    (arithmeticResult l r).category = arithmeticCategory l.category r.category := by
  have hl := l.category_canonical
  have hr := r.category_canonical
  unfold arithmeticResult
  cases hleft : l.category <;> cases hright : r.category
  case float.float =>
      simp only
      split
      · exact hl.trans hleft
      · exact hr.trans hright
  all_goals first | rfl | exact hl.trans hleft | exact hr.trans hright

/-- The cases in the order in which they decide. -/
theorem valueResult_eq (op : Operation) (l r : StackType) :
    op.valueResult l r =
      if op = shift then if l.category = .zero then .simple .int32 else l.canonical
      else if l.category = .zero then r.canonical
      else if r.category = .zero then l.canonical
      else arithmeticResult l r := by
  unfold valueResult
  cases hl : l.category <;> cases hr : r.category
  case zero.zero => simp [StackType.canonical_of_zero hr]
  all_goals simp

theorem category_valueResult (hvalue : op.isComparison = false) (l r : StackType) :
    (op.valueResult l r).category = op.resultCategory l.category r.category := by
  simp only [valueResult_eq, resultCategory, hvalue, Bool.false_eq_true, if_false]
  split_ifs
  · rfl
  · exact l.category_canonical
  · exact r.category_canonical
  · exact l.category_canonical
  · exact category_arithmeticResult l r

theorem result?_eq (op : Operation) (l r : StackType) :
    op.result? l r =
      if op.allows l.category r.category && !op.comparesStruct l r then
        some (if op.isComparison then .simple .int32 else op.valueResult l r)
      else none := by
  unfold result? comparesStruct
  cases op.allows l.category r.category <;> cases op.isComparison <;>
    cases l.isStruct <;> cases r.isStruct <;> rfl

theorem allows_of_result? (h : op.result? l r = some s) :
    op.allows l.category r.category = true := by
  rw [result?_eq] at h
  split at h
  · rename_i haccepted
    exact (Bool.and_eq_true_iff.mp haccepted).1
  · cases h

theorem result?_of_comparison (h : op.isComparison = true) :
    op.result? l r = some s ↔
      op.allows l.category r.category = true ∧ l.isStruct = false ∧ r.isStruct = false ∧
        s = .simple .int32 := by
  rw [result?_eq, comparesStruct, h]
  cases op.allows l.category r.category <;> cases l.isStruct <;> cases r.isStruct <;>
    simp [@eq_comm _ s]

theorem result?_of_value (hvalue : op.isComparison = false) :
    op.result? l r = some s ↔
      op.allows l.category r.category = true ∧ s = op.valueResult l r := by
  rw [result?_eq, comparesStruct, hvalue]
  cases op.allows l.category r.category <;> simp [@eq_comm _ s]

theorem map_category_result? (op : Operation) (l r : StackType) :
    (op.result? l r).map StackType.category =
      if op.allows l.category r.category && !op.comparesStruct l r then
        some (op.resultCategory l.category r.category)
      else none := by
  rw [result?_eq]
  split
  · cases hvalue : op.isComparison with
    | true => simp only [resultCategory, hvalue, if_true]; rfl
    | false => simp [category_valueResult hvalue]
  · rfl

theorem canonical_arithmeticResult (l r : StackType) :
    (arithmeticResult l r).canonical = arithmeticResult l r := by
  have hl := l.canonical_canonical
  have hr := r.canonical_canonical
  unfold arithmeticResult
  cases l.category <;> cases r.category
  case float.float =>
      simp only
      split
      · exact hl
      · exact hr
  all_goals first | rfl | exact hl | exact hr

theorem canonical_valueResult (op : Operation) (l r : StackType) :
    (op.valueResult l r).canonical = op.valueResult l r := by
  rw [valueResult_eq]
  split_ifs
  · rfl
  · exact l.canonical_canonical
  · exact r.canonical_canonical
  · exact l.canonical_canonical
  · exact canonical_arithmeticResult l r

theorem allows_comm (hsubtract : op ≠ subtract) (hshift : op ≠ shift) (a b : Category) :
    op.allows a b = op.allows b a := by
  cases op with
  | subtract | shift => contradiction
  | _ => cases a <;> cases b <;> rfl

section Order

variable (hvalue : op.isComparison = false) (hsubtract : op ≠ subtract) (hshift : op ≠ shift)
include hvalue hsubtract hshift

/-- Two numbers of one category go together, and of other operands one decides. -/
theorem arithmeticResult_comm (hl : l.LibraryFloat) (hr : r.LibraryFloat)
    (hallows : op.allows l.category r.category = true) (hlzero : l.category ≠ .zero)
    (hrzero : r.category ≠ .zero) : arithmeticResult l r = arithmeticResult r l := by
  have hinteger : l.category = r.category → l.category.isInteger = true →
      l.canonical = r.canonical := by
    intro heq hkind
    rw [StackType.canonical_of_isInteger hkind, heq,
      StackType.canonical_of_isInteger (heq ▸ hkind)]
  unfold arithmeticResult
  cases hleft : l.category <;> cases hright : r.category
  case int32.int32 | int64.int64 => exact hinteger (hleft.trans hright.symm) (by rw [hleft]; rfl)
  case float.float =>
      -- The wider of the two is the double, from whichever side it comes.
      rcases hl hleft with hlc | hlc <;>
        rcases hr hright with hrc | hrc <;>
        rw [hlc, hrc] <;> rfl
  all_goals first
    | rfl
    | contradiction
    | rw [hleft, hright] at hallows
      cases op <;> contradiction

theorem valueResult_comm (hl : l.LibraryFloat) (hr : r.LibraryFloat)
    (hallows : op.allows l.category r.category = true) :
    op.valueResult l r = op.valueResult r l := by
  rw [valueResult_eq, valueResult_eq, if_neg hshift, if_neg hshift]
  split_ifs with hlzero hrzero
  · rw [StackType.canonical_of_zero hlzero, StackType.canonical_of_zero hrzero]
  · rfl
  · rfl
  · exact arithmeticResult_comm hvalue hsubtract hshift hl hr hallows hlzero ‹_›

end Order

theorem comparesStruct_comm (op : Operation) (l r : StackType) :
    op.comparesStruct l r = op.comparesStruct r l := by
  rw [comparesStruct, comparesStruct, Bool.or_comm]

theorem result?_comm (hl : l.LibraryFloat) (hr : r.LibraryFloat) (hsubtract : op ≠ subtract)
    (hshift : op ≠ shift) :
    op.result? l r = op.result? r l := by
  rw [result?_eq, result?_eq, allows_comm hsubtract hshift l.category, comparesStruct_comm op l]
  split
  · rename_i haccepted
    cases hvalue : op.isComparison with
    | true => rfl
    | false =>
        have hallows : op.allows l.category r.category = true := by
          rw [allows_comm hsubtract hshift]
          exact (Bool.and_eq_true_iff.mp haccepted).1
        simp [valueResult_comm hvalue hsubtract hshift hl hr hallows]
  · rfl

/-- Which operands are legal and of which category the result is goes by the categories of the
operands, except that structs are not compared. The result is a canonical type, and the null literal
leaves the other operand as it is. But for differences and shifts, the order of the operands does
not matter where floating-point numbers are those of the library, and a graph has no others. -/
theorem results_follow_categories :
    (∀ (op : Operation) (l r : StackType), (op.result? l r).map StackType.category =
      if op.allows l.category r.category && !op.comparesStruct l r then
        some (op.resultCategory l.category r.category)
      else none) ∧
    (∀ (op : Operation) (l r s : StackType), op.result? l r = some s → s.canonical = s) ∧
    (∀ (op : Operation) (l r : StackType), l.LibraryFloat → r.LibraryFloat → op ≠ subtract →
      op ≠ shift → op.result? l r = op.result? r l) ∧
    (∀ (g : Graph) (s : StackType), g.Built → (∀ t ∈ s.spelled, g.Knows t) → s.LibraryFloat) ∧
    (∀ (op : Operation) (s result : StackType), op.isComparison = false → op ≠ shift →
      op.result? .zero s = some result ∨ op.result? s .zero = some result →
      result = s.canonical) ∧
    ∀ t : Ty, t.canonical.category = t.category ∧ t.canonical.canonical = t.canonical := by
  refine ⟨map_category_result?, ?_, ?_, ?_, ?_, ?_⟩
  · intro op l r s hresult
    rw [result?_eq] at hresult
    split at hresult
    · cases hresult
      split
      · rfl
      · exact canonical_valueResult op l r
    · cases hresult
  · intro op l r hl hr hsubtract hshift
    exact result?_comm hl hr hsubtract hshift
  · intro g s hbuilt hs
    exact StackType.libraryFloat_of_known hbuilt.sound hs
  · intro op s result hvalue hshift hresult
    have hnull : StackType.zero.category = .zero := rfl
    rcases hresult with hresult | hresult
    · obtain ⟨-, rfl⟩ := (result?_of_value hvalue).mp hresult
      rw [valueResult_eq, if_neg hshift, if_pos hnull]
    · obtain ⟨-, rfl⟩ := (result?_of_value hvalue).mp hresult
      rw [valueResult_eq, if_neg hshift, if_pos hnull]
      split_ifs with hzero
      · exact (StackType.canonical_of_zero hzero).symm
      · rfl
  · intro t
    exact ⟨t.category_canonical, t.canonical_canonical⟩

namespace Sample

/-- An enumeration over an enumeration. -/
def scale : Ty :=
  .enum ⟨"Sample.Scale", by decide⟩ .enumBase (.enum ⟨"Sample.Ratio", by decide⟩ .enumBase .single)

end Sample

open Sample in
theorem results_follow_categories_floats :
    add.result? (.simple .single) (.simple .double) = some (.simple .double) ∧
      add.result? (.simple .double) (.simple .single) = some (.simple .double) ∧
      (StackType.simple .double).canonical = .simple .double ∧
      add.result? (.simple scale) .zero = some (.simple .single) ∧
      StackType.simple .single = (StackType.simple scale).canonical := by
  obtain ⟨-, hfixed, hcomm, hfloats, hnull, -⟩ := results_follow_categories
  have hfloat : ∀ {t : Ty}, t ∈ Graph.libraryTypes → (StackType.simple t).LibraryFloat := by
    intro t ht
    refine hfloats .library (.simple t) .library fun u hu => ?_
    cases List.mem_singleton.mp hu
    exact Graph.sound_library.knows_library ht
  have hsum : add.result? (.simple .single) (.simple .double) = some (.simple .double) := by decide
  have hsame : add.result? (.simple scale) .zero = some (.simple .single) := by decide
  refine ⟨hsum, ?_, hfixed add _ _ _ hsum, hsame, ?_⟩
  · rw [← hsum]
    exact hcomm add _ _ (hfloat (by decide)) (hfloat (by decide)) nofun nofun
  · exact hnull add _ _ rfl nofun (.inr hsame)

end Operation

end ManagedCode
