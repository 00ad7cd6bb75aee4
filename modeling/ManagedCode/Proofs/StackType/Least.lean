import ManagedCode.Proofs.StackType.Symmetry

namespace ManagedCode

/-! What two object references have in common is the most that they have in common, save for arrays:
an array of another element type that both of them stand for is never found. -/

namespace Graph

variable {g : Graph} {t w : Ty}

/-- The kinds of what a reference stands for. An array is only met from an array. -/
theorem Tame.supertype_cases (htame : g.Tame) (h : g.Sound) (ht : g.Knows t) (hw : g.Knows w)
    (href : t.isReference = true) (hassignable : g.isAssignable t w = true) :
    w = .object ∨
    (w.isInterface = true ∧ (w = t ∨ w ∈ g.allInterfaces t)) ∨
    (w.isClass = true ∧ w ∈ t.ancestors) ∨
    ∃ e f, t = .arrayOf e ∧ w = .arrayOf f := by
  have hself : w = t → (w.isInterface = true ∧ (w = t ∨ w ∈ g.allInterfaces t)) ∨
      (w.isClass = true ∧ w ∈ t.ancestors) ∨ ∃ e f, t = .arrayOf e ∧ w = .arrayOf f := by
    rintro rfl
    cases w with
    | interface => exact .inl ⟨rfl, .inl rfl⟩
    | object | subclass => exact .inr (.inl ⟨rfl, Ty.mem_ancestors_self _⟩)
    | array element base =>
        cases hw.1
        exact .inr (.inr ⟨element, element, rfl, rfl⟩)
    | bareArray => exact hw.elim
    | struct | enum | primitive | byRef | pointer => cases href
  have hancestor : w ∈ t.ancestors → (w.isInterface = true ∧ (w = t ∨ w ∈ g.allInterfaces t)) ∨
      (w.isClass = true ∧ w ∈ t.ancestors) ∨ ∃ e f, t = .arrayOf e ∧ w = .arrayOf f := by
    intro hmem
    rcases htame.classes.isClass_of_mem_ancestors h ht href hmem with heq | hclass
    · exact hself heq
    · exact .inr (.inl ⟨hclass, hmem⟩)
  cases (isAssignable_iff_below htame h ht hw href).mp hassignable with
  | object => exact .inl rfl
  | interface hinterface hleads =>
      rcases (leads_iff htame.onlyInterfaces).mp hleads with hmem | hmem
      · exact .inr (hancestor hmem)
      · exact .inr (.inl ⟨hinterface, .inr hmem⟩)
  | base hmem => exact .inr (hancestor hmem)
  | array _ _ _ => exact .inr (.inr (.inr ⟨_, _, rfl, rfl⟩))

end Graph

namespace StackType

variable {g : Graph} {s t u joined : StackType} {v w : Ty}

theorem isAssignableTo_meet (href : (commonBase g s t).isReference = true) :
    (meet g s t).isAssignableTo g w = true ↔
      g.isAssignable (commonBase g s t) w = true ∨
        ∃ i ∈ (commonInterfaces g s t).types, g.isAssignable i w = true := by
  rw [meet_eq]
  split
  · rename_i hempty
    have hnone : (commonInterfaces g s t).types = [] := by
      simpa [InterfaceSet.isEmpty] using hempty
    simp [isAssignableTo, isAssignableType_of_isReference href, hnone]
  · rw [isAssignableTo_complex]
    constructor
    · rintro (rfl | hw)
      · exact .inl (isAssignable_object g href)
      · exact hw
    · exact .inr

theorem arrayOf_fits {e f : Ty} : (simple (.arrayOf e)).fits g (simple (.arrayOf f)) = true ↔
    e = f ∨ e.isReference = true ∧ f.isReference = true ∧ g.isAssignable e f = true := by
  have href : (Ty.arrayOf e).isReference = true := rfl
  rw [fits, isAssignableTo, isAssignableType_of_isReference href, Ty.arrayOf, Ty.arrayOf,
    Graph.isAssignable_array]
  simp

theorem ne_zero_of_not_fits (ht : t.Proper g) (htref : t.isObjectReference = true)
    (hst : s.fits g t = false) : s ≠ zero := by
  rintro rfl
  rw [zero_fits ht.known htref] at hst
  cases hst

section

variable (htame : g.Tame) (h : g.Sound)
include htame h

/-- What an object reference stands for is among its capabilities, unless it is an array. -/
theorem supertype_cases (hs : s.Proper g) (href : s.isObjectReference = true) (hzero : s ≠ zero)
    (hw : g.Knows w) (hassignable : s.isAssignableTo g w = true) :
    w = .object ∨
    (w.isInterface = true ∧ w ∈ (s.capabilities g).2) ∨
    (w.isClass = true ∧ w ∈ (s.capabilities g).1.ancestors) ∨
    ∃ e f, s = simple (.arrayOf e) ∧ w = .arrayOf f := by
  cases s with
  | zero => exact absurd rfl hzero
  | simple t =>
      have htw : g.isAssignable t w = true :=
        (isAssignableType_of_isReference href).symm.trans hassignable
      rcases htame.supertype_cases h hs hw href htw with
        rfl | ⟨hinterface, hmem⟩ | ⟨hclass, hmem⟩ | ⟨e, f, rfl, rfl⟩
      · exact .inl rfl
      · refine .inr (.inl ⟨hinterface, ?_⟩)
        rcases hmem with rfl | hmem
        · simp [capabilities, hinterface]
        · cases htkind : t.isInterface <;> simp [capabilities, htkind, hmem]
      · refine .inr (.inr (.inl ⟨hclass, ?_⟩))
        cases htkind : t.isInterface with
        | true => exact absurd hmem (Ty.not_mem_ancestors_of_isClass htkind hclass)
        | false => simpa [capabilities, htkind] using hmem
      · exact .inr (.inr (.inr ⟨e, f, rfl, rfl⟩))
  | complex base interfaces =>
      obtain ⟨hbase, hbaseclass, hinterfaces⟩ := hs
      rcases isAssignableTo_complex.mp hassignable with rfl | hbasew | ⟨i, hi, hiw⟩
      · exact .inl rfl
      · rcases htame.supertype_cases h hbase hw (Ty.isReference_of_isClass hbaseclass) hbasew with
          rfl | ⟨hinterface, rfl | hmem⟩ | hclass | ⟨e, f, rfl, -⟩
        · exact .inl rfl
        · exact (Ty.not_class_and_interface hbaseclass hinterface).elim
        · exact .inr (.inl ⟨hinterface, List.mem_append_left _ (List.mem_append_left _ hmem)⟩)
        · exact .inr (.inr (.inl hclass))
        · cases hbaseclass
      · obtain ⟨hiknown, hikind⟩ := hinterfaces i hi
        rcases htame.supertype_cases h hiknown hw (Ty.isReference_of_isInterface hikind) hiw with
          rfl | ⟨hinterface, rfl | hmem⟩ | ⟨hclass, hmem⟩ | ⟨e, f, rfl, -⟩
        · exact .inl rfl
        · exact .inr (.inl ⟨hinterface, List.mem_append_left _ (List.mem_append_right _ hi)⟩)
        · exact .inr (.inl ⟨hinterface,
            List.mem_append_right _ (List.mem_flatMap.mpr ⟨i, hi, hmem⟩)⟩)
        · exact absurd hmem (Ty.not_mem_ancestors_of_isClass hikind hclass)
        · cases hikind

/-- Among the classes, the nearest common base type is below all others. -/
theorem isAssignable_commonBase (hs : s.Known g) (ht : t.Known g)
    (hsref : s.isObjectReference = true) (htref : t.isObjectReference = true)
    (hw : g.Knows w) (hsw : w ∈ (s.capabilities g).1.ancestors)
    (htw : w ∈ (t.capabilities g).1.ancestors) :
    g.isAssignable (commonBase g s t) w = true := by
  obtain ⟨hother, hotherref, -, -⟩ := capabilities_base htame h ht htref
  obtain ⟨hknown, href, -, -, -⟩ := commonBase_spec htame h hs ht hsref htref
  have hboth : g.isAssignable (t.capabilities g).1 w = true :=
    (Graph.isAssignable_iff_below htame h hother hw hotherref).mpr (.base htw)
  have hmem : w ∈ (commonBase g s t).ancestors := by
    unfold commonBase
    cases hfind : (s.capabilities g).1.ancestors.find? (g.isAssignable (t.capabilities g).1) with
    | none => exact absurd hboth (List.find?_eq_none.mp hfind w hsw)
    | some common => exact Ty.mem_ancestors_of_find? hfind hsw hboth
  exact (Graph.isAssignable_iff_below htame h hknown hw href).mpr (.base hmem)

section Sides

variable (hs : s.Proper g) (ht : t.Proper g) (hsref : s.isObjectReference = true)
  (htref : t.isObjectReference = true) (hst : s.fits g t = false) (hts : t.fits g s = false)
include hs ht hsref htref hst hts

theorem meet_below (hw : g.Knows w) (hsw : s.isAssignableTo g w = true)
    (htw : t.isAssignableTo g w = true) :
    (meet g s t).isAssignableTo g w = true ∨
      ∃ e f a, s = simple (.arrayOf e) ∧ t = simple (.arrayOf f) ∧ w = .arrayOf a := by
  have hszero : s ≠ zero := ne_zero_of_not_fits ht htref hst
  have htzero : t ≠ zero := ne_zero_of_not_fits hs hsref hts
  obtain ⟨hknown, href, -, -, -⟩ := commonBase_spec htame h hs.known ht.known hsref htref
  rw [isAssignableTo_meet href]
  rcases supertype_cases htame h hs hsref hszero hw hsw with
    rfl | ⟨hinterface, hsmem⟩ | ⟨hclass, hsmem⟩ | ⟨e, a, hsarray, rfl⟩
  · exact .inl (.inl (isAssignable_object g href))
  · rcases supertype_cases htame h ht htref htzero hw htw with
      rfl | ⟨-, htmem⟩ | ⟨hclass, -⟩ | ⟨f, a, -, rfl⟩
    · cases hinterface
    · cases hcommon : g.isAssignable (commonBase g s t) w with
      | true => exact .inl (.inl rfl)
      | false =>
          have hmem := (mem_commonInterfaces htame hs).mpr ⟨hsmem, htmem, hcommon⟩
          exact .inl (.inr ⟨w, hmem, g.isAssignable_self w⟩)
    · exact (Ty.not_class_and_interface hclass hinterface).elim
    · cases hinterface
  · rcases supertype_cases htame h ht htref htzero hw htw with
      rfl | ⟨hinterface, -⟩ | ⟨-, htmem⟩ | ⟨f, a, -, rfl⟩
    · exact .inl (.inl (isAssignable_object g href))
    · exact (Ty.not_class_and_interface hclass hinterface).elim
    · exact .inl (.inl (isAssignable_commonBase htame h hs.known ht.known hsref htref hw hsmem htmem))
    · cases hclass
  · rcases supertype_cases htame h ht htref htzero hw htw with
      hobject | ⟨hinterface, -⟩ | ⟨hclass, -⟩ | ⟨f, a', htarray, -⟩
    · cases hobject
    · cases hinterface
    · cases hclass
    · exact .inr ⟨e, f, a, hsarray, htarray, rfl⟩

end Sides

end

/-- Arrays of references neither of which stands for the other. -/
def ApartArrays (g : Graph) (s t : StackType) : Prop :=
  ∃ e f, s = simple (.arrayOf e) ∧ t = simple (.arrayOf f) ∧ e.isReference = true ∧
    f.isReference = true ∧ s.fits g t = false ∧ t.fits g s = false

section Join

variable (htame : g.Tame) (h : g.Sound) (hs : s.Proper g) (ht : t.Proper g)
  (hsref : s.isObjectReference = true) (htref : t.isObjectReference = true)
include htame h hs ht hsref htref

theorem meet_least (hst : s.fits g t = false) (hts : t.fits g s = false)
    (hapart : ¬ ApartArrays g s t) (hu : ∀ w ∈ u.spelled, g.Knows w) (hsu : s.fits g u = true)
    (htu : t.fits g u = true) : (meet g s t).fits g u = true := by
  have hbelow : ∀ w ∈ u.spelled, s.isAssignableTo g w = true → t.isAssignableTo g w = true →
      (meet g s t).isAssignableTo g w = true := by
    intro w hw hsw htw
    rcases meet_below htame h hs ht hsref htref hst hts (hu w hw) hsw htw with
      hmeet | ⟨e, f, a, rfl, rfl, rfl⟩
    · exact hmeet
    · -- An array of values only stands for itself as an array.
      rcases arrayOf_fits.mp hsw with rfl | ⟨heref, -, -⟩
      · exact absurd htw (Bool.eq_false_iff.mp hts)
      · rcases arrayOf_fits.mp htw with rfl | ⟨hfref, -, -⟩
        · exact absurd hsw (Bool.eq_false_iff.mp hst)
        · exact absurd ⟨e, f, rfl, rfl, heref, hfref, hst, hts⟩ hapart
  cases u with
  | zero =>
      have hzero : s = zero := by simpa [fits] using hsu
      exact absurd hzero (ne_zero_of_not_fits ht htref hst)
  | simple w => exact hbelow w (List.mem_singleton_self w) hsu htu
  | complex base interfaces =>
      obtain ⟨hsbase, hsinterfaces⟩ := fits_complex.mp hsu
      obtain ⟨htbase, htinterfaces⟩ := fits_complex.mp htu
      refine fits_complex.mpr ⟨hbelow base List.mem_cons_self hsbase htbase, fun i hi => ?_⟩
      exact hbelow i (List.mem_cons_of_mem base hi) (hsinterfaces i hi) (htinterfaces i hi)

/-- The nearest common base type of apart arrays is a class. -/
theorem commonBase_ne_arrayOf {a : Ty} (hapart : ApartArrays g s t) :
    commonBase g s t ≠ .arrayOf a := by
  obtain ⟨e, f, rfl, rfl, -, -, -, hts⟩ := hapart
  have hknown : g.Knows (.arrayOf e) := hs
  unfold commonBase
  cases hfind : ((simple (.arrayOf e)).capabilities g).1.ancestors.find?
      (g.isAssignable ((simple (.arrayOf f)).capabilities g).1) with
  | none => nofun
  | some common =>
      rintro rfl
      have hother : g.isAssignable (.arrayOf f) (.arrayOf a) = true := List.find?_some hfind
      have hmem : Ty.arrayOf a ∈ (Ty.arrayOf e).ancestors := List.mem_of_find?_eq_some hfind
      rcases htame.classes.isClass_of_mem_ancestors h hknown rfl hmem with heq | hclass
      · rw [heq] at hother
        exact Bool.false_ne_true
          (hts.symm.trans ((isAssignableType_of_isReference rfl).trans hother))
      · cases hclass

theorem meet_below_no_array {a : Ty} (ha : g.Knows a) (hapart : ApartArrays g s t) :
    (meet g s t).isAssignableTo g (.arrayOf a) = false := by
  have haknown : g.Knows (.arrayOf a) := ⟨rfl, ha⟩
  obtain ⟨hknown, href, -, -, -⟩ := commonBase_spec htame h hs.known ht.known hsref htref
  rw [Bool.eq_false_iff, ne_eq, isAssignableTo_meet href]
  rintro (hbase | ⟨i, hi, hassignable⟩)
  · rcases htame.supertype_cases h hknown haknown href hbase with
      heq | ⟨hinterface, -⟩ | ⟨hclass, -⟩ | ⟨e, f, heq, -⟩
    · cases heq
    · cases hinterface
    · cases hclass
    · exact commonBase_ne_arrayOf htame h hs ht hsref htref hapart heq
  · obtain ⟨hiknown, hiref, -, -⟩ := commonInterfaces_spec htame h hs.known ht.known hsref htref hi
    have hinterface := hs.isInterface htame ((mem_commonInterfaces htame hs).mp hi).1
    rcases htame.supertype_cases h hiknown haknown hiref hassignable with
      heq | ⟨harray, -⟩ | ⟨hclass, -⟩ | ⟨e, f, rfl, -⟩
    · cases heq
    · cases harray
    · cases hclass
    · cases hinterface

end Join

/-- The join of two object references stands for all that both of them stand for, just if they are
not apart arrays. Those both stand for arrays of objects, which their join does not. -/
theorem join_least (hbuilt : g.Built) (htame : g.Tame) (hs : s.Proper g) (ht : t.Proper g)
    (hsref : s.isObjectReference = true) (htref : t.isObjectReference = true)
    (hjoin : s.join g t = some joined) :
    (∀ u : StackType, (∀ w ∈ u.spelled, g.Knows w) → s.fits g u = true → t.fits g u = true →
      joined.fits g u = true) ↔ ¬ ApartArrays g s t := by
  have hsound := hbuilt.sound
  rw [join_eq] at hjoin
  split at hjoin
  · rename_i hst
    cases hjoin
    refine iff_of_true (fun u _ _ htu => htu) ?_
    rintro ⟨e, f, -, -, -, -, hnot, -⟩
    exact Bool.eq_false_iff.mp hnot hst
  split at hjoin
  · rename_i hts
    cases hjoin
    refine iff_of_true (fun u _ hsu _ => hsu) ?_
    rintro ⟨e, f, -, -, -, -, -, hnot⟩
    exact Bool.eq_false_iff.mp hnot hts
  rename_i hst hts
  rw [hsref, htref] at hjoin
  cases hjoin
  rw [Bool.not_eq_true] at hst hts
  constructor
  · intro hleast hapart
    have hnot := meet_below_no_array htame hsound hs ht hsref htref hsound.knows_object hapart
    obtain ⟨e, f, rfl, rfl, heref, hfref, -, -⟩ := hapart
    have hobjects : ∀ w ∈ (simple (.arrayOf .object)).spelled, g.Knows w := by
      intro w hw
      cases List.mem_singleton.mp hw
      exact ⟨rfl, hsound.knows_object⟩
    have hfits := hleast (simple (.arrayOf .object)) hobjects
      (arrayOf_fits.mpr (.inr ⟨heref, rfl, isAssignable_object g heref⟩))
      (arrayOf_fits.mpr (.inr ⟨hfref, rfl, isAssignable_object g hfref⟩))
    exact Bool.false_ne_true (hnot.symm.trans hfits)
  · intro hapart u hu hsu htu
    exact meet_least htame hsound hs ht hsref htref hst hts hapart hu hsu htu

theorem join_least_collections :
    let text := simple .string
    let numbers := simple (.arrayOf .int32)
    let shared := complex .object (.ofList [.interface .cloneable, .interface .enumerable])
    text.join .library numbers = some shared ∧
      ∀ u : StackType, (∀ w ∈ u.spelled, Graph.library.Knows w) → text.fits .library u = true →
        numbers.fits .library u = true → shared.fits .library u = true := by
  intro text numbers shared
  have hsound := Graph.Built.library.sound
  have hjoin : text.join .library numbers = some shared := by decide +kernel
  have htext : text.Proper .library := hsound.knows_library (by decide)
  have hnumbers : numbers.Proper .library := ⟨rfl, hsound.knows_library (by decide)⟩
  have hapart : ¬ ApartArrays .library text numbers := by
    rintro ⟨e, f, harray, -⟩
    have hstring : Ty.string = .arrayOf e := simple.inj harray
    cases hstring
  exact ⟨hjoin, (join_least .library Graph.tame_library htext hnumbers rfl rfl hjoin).mpr hapart⟩

/-- Arrays of objects are what both arrays stand for, and not what is found. -/
theorem arrays_joined_too_far :
    let strings := simple (.arrayOf .string)
    let exceptions := simple (.arrayOf .exception)
    let objects := simple (.arrayOf .object)
    Graph.library.Built ∧ Graph.library.Tame ∧ strings.Proper .library ∧
      exceptions.Proper .library ∧ objects.Proper .library ∧
      strings.join .library exceptions = some (simple .arrayBase) ∧
      strings.fits .library objects = true ∧ exceptions.fits .library objects = true ∧
      (simple .arrayBase).fits .library objects = false := by
  have hsound := Graph.Built.library.sound
  refine ⟨.library, Graph.tame_library, ⟨rfl, hsound.knows_library (by decide)⟩,
    ⟨rfl, hsound.knows_library (by decide)⟩, ⟨rfl, hsound.knows_library (by decide)⟩, ?_⟩
  decide +kernel

end StackType

end ManagedCode
