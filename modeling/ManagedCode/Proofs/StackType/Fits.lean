import ManagedCode.Proofs.Graph.Subtyping
import ManagedCode.Proofs.StackType.Consistency
import ManagedCode.StackType.Flow
import Mathlib.Logic.Function.Iterate

namespace ManagedCode

/-! Object references fit along chains of stack types. -/

namespace StackType

/-- Made of types of the graph. A complex type consists of reference types, and its base is no
interface. -/
def Known (g : Graph) : StackType → Prop
  | zero => True
  | simple t => g.Knows t
  | complex base interfaces =>
    g.Knows base ∧ base.isReference = true ∧ base.isInterface = false ∧
      ∀ i ∈ interfaces.types, g.Knows i ∧ i.isReference = true

variable {g : Graph} {s t u : StackType} {v w : Ty}

theorem isAssignableType_of_isReference (hv : v.isReference = true) :
    isAssignableType g v w = g.isAssignable v w := by
  have hcategory : v.category.isNumeric = false := by
    cases v with
    | object | subclass | interface | array | bareArray => rfl
    | _ => cases hv
  by_cases heq : v = w
  · rw [heq, isAssignableType, if_pos rfl, Graph.isAssignable_self]
  · simp [isAssignableType, heq, hcategory]

theorem eq_of_isAssignableType (hreference : v.isReference = false) (hvalue : v.isValueType = false)
    (h : isAssignableType g v w = true) : v = w := by
  by_cases heq : v = w
  · exact heq
  · cases v with
    | byRef | pointer => simp [isAssignableType, heq, hvalue, Graph.isAssignable, Graph.conforms,
        hreference] at h
    | struct | enum | primitive => cases hvalue
    | _ => cases hreference

theorem isAssignable_object (g : Graph) (hv : v.isReference = true) :
    g.isAssignable v .object = true := by
  rw [Graph.isAssignable_iff_conforms (.inr rfl), Graph.conforms_iff hv]
  exact .inr ⟨rfl, .inl rfl⟩

theorem isAssignableTo_object (hs : s.isObjectReference = true) : s.isAssignableTo g .object = true := by
  cases s with
  | zero => rfl
  | simple t => exact (isAssignableType_of_isReference hs).trans (isAssignable_object g hs)
  | complex base interfaces => simp [isAssignableTo]

/-- The parts of a complex type are what it stands for. -/
theorem isAssignableTo_complex {base : Ty} {interfaces : InterfaceSet} :
    (complex base interfaces).isAssignableTo g w = true ↔
      w = .object ∨ g.isAssignable base w = true ∨
        ∃ i ∈ interfaces.types, g.isAssignable i w = true := by
  simp [isAssignableTo, or_assoc]

theorem fits_complex {base : Ty} {interfaces : InterfaceSet} :
    s.fits g (complex base interfaces) = true ↔
      s.isAssignableTo g base = true ∧ ∀ i ∈ interfaces.types, s.isAssignableTo g i = true := by
  simp [fits]

/-- An object reference stands for types of object references, and null for addresses as well. -/
theorem isReference_of_isAssignableTo (hclasses : g.ClassBases) (h : g.Sound) (hs : s.Known g)
    (href : s.isObjectReference = true) (hv : g.Knows v) (hsv : s.isAssignableTo g v = true) :
    v.isReference = true ∨ s = zero ∧ v.isReference = false ∧ v.isValueType = false := by
  cases s with
  | zero =>
      cases v with
      | object | subclass | interface | array | bareArray => exact .inl rfl
      | byRef | pointer => exact .inr ⟨rfl, rfl, rfl⟩
      | struct | enum | primitive => cases hsv
  | simple t =>
      have htv : g.isAssignable t v = true := (isAssignableType_of_isReference href).symm.trans hsv
      exact .inl (hclasses.isReference_of_isAssignable h hs hv href htv)
  | complex base interfaces =>
      obtain ⟨hbase, hbaseref, -, hinterfaces⟩ := hs
      rcases isAssignableTo_complex.mp hsv with rfl | hbasev | ⟨i, hi, hiv⟩
      · exact .inl rfl
      · exact .inl (hclasses.isReference_of_isAssignable h hbase hv hbaseref hbasev)
      · obtain ⟨hiknown, hiref⟩ := hinterfaces i hi
        exact .inl (hclasses.isReference_of_isAssignable h hiknown hv hiref hiv)

section

variable (htame : g.Tame) (h : g.Sound)
include htame h

/-- What stands for a reference type stands for all that is above it. -/
theorem isAssignableTo_trans (hs : s.Known g) (href : s.isObjectReference = true) (hv : g.Knows v)
    (hw : g.Knows w) (hvref : v.isReference = true) (hsv : s.isAssignableTo g v = true)
    (hvw : g.isAssignable v w = true) : s.isAssignableTo g w = true := by
  cases s with
  | zero =>
      have hwref : w.isReference = true :=
        htame.classes.isReference_of_isAssignable h hv hw hvref hvw
      simp [isAssignableTo, hwref]
  | simple t =>
      have htv : g.isAssignable t v = true := (isAssignableType_of_isReference href).symm.trans hsv
      have htw := Graph.isAssignable_trans htame h hs hv hw href htv hvw
      exact (isAssignableType_of_isReference href).trans htw
  | complex base interfaces =>
      obtain ⟨hbase, hbaseref, -, hinterfaces⟩ := hs
      refine isAssignableTo_complex.mpr (.inr ?_)
      rcases isAssignableTo_complex.mp hsv with rfl | hbasev | ⟨i, hi, hiv⟩
      · exact .inl (Graph.isAssignable_trans htame h hbase hv hw hbaseref
          (isAssignable_object g hbaseref) hvw)
      · exact .inl (Graph.isAssignable_trans htame h hbase hv hw hbaseref hbasev hvw)
      · obtain ⟨hiknown, hiref⟩ := hinterfaces i hi
        exact .inr ⟨i, hi, Graph.isAssignable_trans htame h hiknown hv hw
          hiref hiv hvw⟩

theorem isAssignableTo_of_fits (hs : s.Known g) (ht : t.Known g) (hw : g.Knows w)
    (href : s.isObjectReference = true) (hst : s.fits g t = true)
    (htw : t.isAssignableTo g w = true) : s.isAssignableTo g w = true := by
  cases t with
  | zero =>
      have hzero : s = zero := by simpa [fits] using hst
      rw [hzero]
      exact htw
  | simple v =>
      rcases isReference_of_isAssignableTo htame.classes h hs href ht hst with
        hvref | ⟨rfl, hvref, hvalue⟩
      · exact isAssignableTo_trans htame h hs href ht hw hvref hst
          ((isAssignableType_of_isReference hvref).symm.trans htw)
      · cases eq_of_isAssignableType hvref hvalue htw
        exact hst
  | complex base interfaces =>
      obtain ⟨hbase, hbaseref, -, hinterfaces⟩ := ht
      obtain ⟨hsbase, hsinterfaces⟩ := fits_complex.mp hst
      rcases isAssignableTo_complex.mp htw with rfl | hbasew | ⟨i, hi, hiw⟩
      · exact isAssignableTo_object href
      · exact isAssignableTo_trans htame h hs href hbase hw hbaseref hsbase hbasew
      · obtain ⟨hiknown, hiref⟩ := hinterfaces i hi
        exact isAssignableTo_trans htame h hs href hiknown hw
          hiref (hsinterfaces i hi) hiw

theorem fits_trans (hs : s.Known g) (ht : t.Known g) (hu : u.Known g)
    (href : s.isObjectReference = true) (hst : s.fits g t = true) (htu : t.fits g u = true) :
    s.fits g u = true := by
  cases u with
  | zero =>
      have hzero : t = zero := by simpa [fits] using htu
      rw [hzero] at hst
      exact hst
  | simple w => exact isAssignableTo_of_fits htame h hs ht hu href hst htu
  | complex base interfaces =>
      obtain ⟨hbase, -, -, hinterfaces⟩ := hu
      obtain ⟨htbase, htinterfaces⟩ := fits_complex.mp htu
      refine fits_complex.mpr ⟨?_, fun i hi => ?_⟩
      · exact isAssignableTo_of_fits htame h hs ht hbase href hst htbase
      · exact isAssignableTo_of_fits htame h hs ht (hinterfaces i hi).1 href hst
          (htinterfaces i hi)

end

theorem zero_fits (hs : s.Known g) (href : s.isObjectReference = true) : zero.fits g s = true := by
  cases s with
  | zero => simp [fits]
  | simple t =>
      have ht : t.isReference = true := href
      simp [fits, isAssignableTo, ht]
  | complex base interfaces =>
      obtain ⟨-, hbaseref, -, hinterfaces⟩ := hs
      refine fits_complex.mpr ⟨?_, fun i hi => ?_⟩
      · simp [isAssignableTo, hbaseref]
      · simp [isAssignableTo, (hinterfaces i hi).2]

theorem fits_self (g : Graph) (s : StackType) : s.fits g s = true := by
  cases s with
  | zero => simp [fits]
  | simple t => simp [fits, isAssignableTo, isAssignableType]
  | complex base interfaces =>
      refine fits_complex.mpr ⟨?_, fun i hi => ?_⟩
      · exact isAssignableTo_complex.mpr (.inr (.inl (g.isAssignable_self base)))
      · exact isAssignableTo_complex.mpr (.inr (.inr ⟨i, hi, g.isAssignable_self i⟩))

/-- Object references are ordered by what they may stand for. -/
theorem fits_preorder (hbuilt : g.Built) (htame : g.Tame) :
    (∀ s : StackType, s.fits g s = true) ∧
    (∀ s t u : StackType, s.Known g → t.Known g → u.Known g → s.isObjectReference = true →
      s.fits g t = true → t.fits g u = true → s.fits g u = true) ∧
    (∀ v w x : Ty, g.Knows v → g.Knows w → g.Knows x → v.isReference = true →
      g.isAssignable v w = true → g.isAssignable w x = true → g.isAssignable v x = true) ∧
    ∀ v w : Ty, v.isReference = true → w.isReference = true → ∀ n : Nat,
      g.isAssignable (Ty.arrayOf^[n] v) (Ty.arrayOf^[n] w) = g.isAssignable v w := by
  have hsound := hbuilt.sound
  refine ⟨fits_self g, ?_, ?_, ?_⟩
  · intro s t u hs ht hu href hst htu
    exact fits_trans htame hsound hs ht hu href hst htu
  · intro v w x hv hw hx href hvw hwx
    exact Graph.isAssignable_trans htame hsound hv hw hx href hvw hwx
  · intro v w hv hw n
    exact Graph.isAssignable_nested hv hw n

theorem fits_preorder_arrays :
    let cloneable := Ty.interface .cloneable
    let strings := simple (.arrayOf (.arrayOf .string))
    let clones := complex .arrayBase (.ofList [cloneable])
    strings.fits .library (simple (.arrayOf (.arrayOf cloneable))) = true ∧
      (simple (.arrayOf (.arrayOf cloneable))).fits .library clones = true ∧
      strings.fits .library clones = true := by
  intro cloneable strings clones
  have hsound := Graph.Built.library.sound
  obtain ⟨-, htrans, -, -⟩ := fits_preorder .library Graph.tame_library
  have hstrings : strings.Known .library := ⟨rfl, rfl, hsound.knows_library (by decide)⟩
  have harrays : (simple (.arrayOf (.arrayOf cloneable))).Known .library :=
    ⟨rfl, rfl, hsound.knows_library (by decide)⟩
  have hclones : clones.Known .library := by
    refine ⟨hsound.knows_library (by decide), rfl, rfl, fun i hi => ?_⟩
    cases List.mem_singleton.mp hi
    exact ⟨hsound.knows_library (by decide), rfl⟩
  have hfits : strings.fits .library (simple (.arrayOf (.arrayOf cloneable))) = true ∧
      (simple (.arrayOf (.arrayOf cloneable))).fits .library clones = true := by
    decide +kernel
  exact ⟨hfits.1, hfits.2, htrans _ _ _ hstrings harrays hclones rfl hfits.1 hfits.2⟩

end StackType

end ManagedCode
