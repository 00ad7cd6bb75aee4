import ManagedCode.Proofs.StackType.Fits

namespace ManagedCode

/-! What two object references have in common is something that both of them fit. -/

theorem mem_of_mem_ofList {t : Ty} {types : List Ty} (h : t ∈ (InterfaceSet.ofList types).types) :
    t ∈ types := by
  have hfold : ∀ (types : List Ty) (s : InterfaceSet), t ∈ (types.foldl .insert s).types →
      t ∈ s.types ∨ t ∈ types := by
    intro types
    induction types with
    | nil => exact fun s h => .inl h
    | cons u rest ih =>
        intro s h
        rcases ih (s.insert u) h with hinsert | hrest
        · rcases mem_of_mem_insertByName hinsert with rfl | hs
          · exact .inr List.mem_cons_self
          · exact .inl hs
        · exact .inr (List.mem_cons_of_mem u hrest)
  rcases hfold types .empty h with hempty | hmem
  · cases hempty
  · exact hmem

namespace StackType

variable {g : Graph} {s t joined : StackType} {v w i : Ty}

/-- The types that a stack type is written with. -/
def spelled : StackType → List Ty
  | zero => []
  | simple t => [t]
  | complex base interfaces => base :: interfaces.types

theorem mem_capabilities (hi : i ∈ (s.capabilities g).2) :
    (s = simple i ∧ i.isInterface = true) ∨
    (∃ base interfaces, s = complex base interfaces ∧ i ∈ interfaces.types) ∨
    ∃ v ∈ s.spelled, i ∈ g.allInterfaces v := by
  cases s with
  | zero => cases hi
  | simple t =>
      have hself : t ∈ (simple t).spelled := List.mem_singleton_self t
      cases hinterface : t.isInterface with
      | true =>
          simp only [capabilities, hinterface, if_true] at hi
          rcases List.mem_cons.mp hi with rfl | hi
          · exact .inl ⟨rfl, hinterface⟩
          · exact .inr (.inr ⟨t, hself, hi⟩)
      | false =>
          simp only [capabilities, hinterface, Bool.false_eq_true, if_false] at hi
          exact .inr (.inr ⟨t, hself, hi⟩)
  | complex base interfaces =>
      rcases List.mem_append.mp hi with hi | hi
      · rcases List.mem_append.mp hi with hi | hi
        · exact .inr (.inr ⟨base, List.mem_cons_self, hi⟩)
        · exact .inr (.inl ⟨base, interfaces, rfl, hi⟩)
      · obtain ⟨j, hj, hi⟩ := List.mem_flatMap.mp hi
        exact .inr (.inr ⟨j, List.mem_cons_of_mem base hj, hi⟩)

theorem spelled_spec (hs : s.Known g) (href : s.isObjectReference = true) (hv : v ∈ s.spelled) :
    g.Knows v ∧ v.isReference = true ∧
      ∀ {w : Ty}, g.isAssignable v w = true → s.isAssignableTo g w = true := by
  cases s with
  | zero => cases hv
  | simple t =>
      cases List.mem_singleton.mp hv
      exact ⟨hs, href, (isAssignableType_of_isReference href).trans⟩
  | complex base interfaces =>
      obtain ⟨hbase, hbaseref, -, hinterfaces⟩ := hs
      rcases List.mem_cons.mp hv with rfl | hv
      · exact ⟨hbase, hbaseref, fun hassignable =>
          isAssignableTo_complex.mpr (.inr (.inl hassignable))⟩
      · obtain ⟨hknown, hvref⟩ := hinterfaces v hv
        exact ⟨hknown, hvref, fun hassignable =>
          isAssignableTo_complex.mpr (.inr (.inr ⟨v, hv, hassignable⟩))⟩

section

variable (htame : g.Tame) (h : g.Sound)
include htame h

theorem known_of_mem_allInterfaces (hi : i ∈ g.allInterfaces v) :
    g.Knows i ∧ i.isInterface = true := by
  obtain ⟨a, ha⟩ := Graph.exists_declares_of_mem_allInterfaces hi
  exact ⟨h.knows_interface ha, htame.onlyInterfaces ha⟩

theorem isAssignable_of_mem_allInterfaces (hv : g.Knows v) (hvref : v.isReference = true)
    (hi : i ∈ g.allInterfaces v) : g.isAssignable v i = true := by
  obtain ⟨hiknown, hinterface⟩ := known_of_mem_allInterfaces htame h hi
  exact (Graph.isAssignable_iff_below htame h hv hiknown hvref).mpr
    (.interface hinterface (Graph.leads_of_mem_allInterfaces hi))

/-- The class that an object reference is known by. -/
theorem capabilities_base (hs : s.Known g) (href : s.isObjectReference = true) :
    g.Knows (s.capabilities g).1 ∧ (s.capabilities g).1.isReference = true ∧
      (s.capabilities g).1.isInterface = false ∧
      ∀ {w : Ty}, g.Knows w → g.isAssignable (s.capabilities g).1 w = true →
        s.isAssignableTo g w = true := by
  cases s with
  | zero =>
      refine ⟨h.knows_object, rfl, rfl, fun hw hassignable => ?_⟩
      exact isAssignableTo_trans htame h trivial rfl (h.knows_object) hw rfl rfl hassignable
  | simple t =>
      cases hinterface : t.isInterface with
      | true =>
          simp only [capabilities, hinterface, if_true]
          refine ⟨h.knows_object, rfl, rfl, fun hw hassignable => ?_⟩
          exact isAssignableTo_trans htame h hs href (h.knows_object) hw rfl
            (isAssignableTo_object href) hassignable
      | false =>
          simp only [capabilities, hinterface, Bool.false_eq_true, if_false]
          refine ⟨hs, href, trivial, fun _ hassignable => ?_⟩
          exact (isAssignableType_of_isReference href).trans hassignable
  | complex base interfaces =>
      obtain ⟨hbase, hbaseref, hbaseclass, -⟩ := hs
      refine ⟨hbase, hbaseref, hbaseclass, fun _ hassignable => ?_⟩
      exact isAssignableTo_complex.mpr (.inr (.inl hassignable))

theorem capabilities_interfaces (hs : s.Known g) (href : s.isObjectReference = true)
    (hi : i ∈ (s.capabilities g).2) :
    g.Knows i ∧ i.isReference = true ∧ s.isAssignableTo g i = true := by
  have hspelled : i ∈ s.spelled → g.Knows i ∧ i.isReference = true ∧
      s.isAssignableTo g i = true := by
    intro hmem
    obtain ⟨hiknown, hiref, hassignable⟩ := spelled_spec hs href hmem
    exact ⟨hiknown, hiref, hassignable (g.isAssignable_self i)⟩
  rcases mem_capabilities hi with ⟨rfl, -⟩ | ⟨base, interfaces, rfl, hmem⟩ | ⟨v, hv, hi⟩
  · exact hspelled (List.mem_singleton_self i)
  · exact hspelled (List.mem_cons_of_mem base hmem)
  · obtain ⟨hvknown, hvref, hassignable⟩ := spelled_spec hs href hv
    obtain ⟨hiknown, hinterface⟩ := known_of_mem_allInterfaces htame h hi
    exact ⟨hiknown, Ty.isReference_of_isInterface hinterface,
      hassignable (isAssignable_of_mem_allInterfaces htame h hvknown hvref hi)⟩

end

/-- The nearest base type of the one that the other one has as well. -/
def commonBase (g : Graph) (s t : StackType) : Ty :=
  ((s.capabilities g).1.ancestors.find? (g.isAssignable (t.capabilities g).1)).getD .object

def commonInterfaces (g : Graph) (s t : StackType) : InterfaceSet :=
  .ofList ((s.capabilities g).2.filter fun i =>
    (t.capabilities g).2.contains i && !g.isAssignable (commonBase g s t) i)

theorem meet_eq (g : Graph) (s t : StackType) :
    meet g s t = if (commonInterfaces g s t).isEmpty then simple (commonBase g s t)
      else complex (commonBase g s t) (commonInterfaces g s t) := rfl

theorem join_cases (hjoin : s.join g t = some joined) :
    joined = t ∨ joined = s ∧ t.fits g s = true ∨ joined = s ∧ s.Interchangeable t ∨
      s.isObjectReference = true ∧ t.isObjectReference = true ∧ joined = meet g s t := by
  unfold join at hjoin
  split at hjoin
  · cases hjoin
    exact .inl rfl
  split at hjoin
  · rename_i hfits
    cases hjoin
    exact .inr (.inl ⟨rfl, hfits⟩)
  split at hjoin
  · rename_i hconsistent
    cases hjoin
    exact .inr (.inr (.inl ⟨rfl, isConsistentWith_iff.mp hconsistent⟩))
  split at hjoin
  · rename_i hreferences
    cases hjoin
    obtain ⟨hsref, htref⟩ := Bool.and_eq_true_iff.mp hreferences
    exact .inr (.inr (.inr ⟨hsref, htref, rfl⟩))
  · cases hjoin

/-- Only null has nothing but null in common with another value. -/
theorem eq_zero_of_join (hjoin : s.join g t = some zero) : t = zero := by
  rcases join_cases hjoin with hzero | ⟨hzero, hfits⟩ | ⟨hzero, hslots⟩ | ⟨-, -, hmeet⟩
  · exact hzero.symm
  · rw [← hzero] at hfits
    simpa [fits] using hfits
  · rw [← hzero] at hslots
    cases hslots
    rfl
  · rw [meet_eq] at hmeet
    split at hmeet <;> cases hmeet

section

variable (htame : g.Tame) (h : g.Sound)
include htame h

/-- The common base type is a class or an array that both object references stand for. -/
theorem commonBase_spec (hs : s.Known g) (ht : t.Known g) (hsref : s.isObjectReference = true)
    (htref : t.isObjectReference = true) :
    g.Knows (commonBase g s t) ∧ (commonBase g s t).isReference = true ∧
      (commonBase g s t).isInterface = false ∧ s.isAssignableTo g (commonBase g s t) = true ∧
      t.isAssignableTo g (commonBase g s t) = true := by
  obtain ⟨hbase, hbaseref, hbaseclass, hbaseof⟩ := capabilities_base htame h hs hsref
  obtain ⟨-, -, -, hotherof⟩ := capabilities_base htame h ht htref
  unfold commonBase
  cases hfind : (s.capabilities g).1.ancestors.find? (g.isAssignable (t.capabilities g).1) with
  | none =>
      exact ⟨h.knows_object, rfl, rfl, isAssignableTo_object hsref,
        isAssignableTo_object htref⟩
  | some common =>
      have hmem := List.mem_of_find?_eq_some hfind
      have hknown : g.Knows common := h.knows_of_mem_ancestors hbase hmem
      have hother : g.isAssignable (t.capabilities g).1 common = true := List.find?_some hfind
      have hown : g.isAssignable (s.capabilities g).1 common = true :=
        (Graph.isAssignable_iff_below htame h hbase hknown hbaseref).mpr (.base hmem)
      have hkind : common.isReference = true ∧ common.isInterface = false := by
        rcases htame.classes.isClass_of_mem_ancestors h hbase hbaseref hmem with rfl | hclass
        · exact ⟨hbaseref, hbaseclass⟩
        · exact ⟨Ty.isReference_of_isClass hclass, Ty.not_isInterface_of_isClass hclass⟩
      exact ⟨hknown, hkind.1, hkind.2, hbaseof hknown hown, hotherof hknown hother⟩

theorem commonInterfaces_spec (hs : s.Known g) (ht : t.Known g) (hsref : s.isObjectReference = true)
    (htref : t.isObjectReference = true) (hi : i ∈ (commonInterfaces g s t).types) :
    g.Knows i ∧ i.isReference = true ∧ s.isAssignableTo g i = true ∧
      t.isAssignableTo g i = true := by
  obtain ⟨hown, hboth⟩ := List.mem_filter.mp (mem_of_mem_ofList hi)
  have hother : i ∈ (t.capabilities g).2 :=
    List.contains_iff_mem.mp (Bool.and_eq_true_iff.mp hboth).1
  obtain ⟨hiknown, hiref, hsi⟩ := capabilities_interfaces htame h hs hsref hown
  obtain ⟨-, -, hti⟩ := capabilities_interfaces htame h ht htref hother
  exact ⟨hiknown, hiref, hsi, hti⟩

theorem meet_spec (hs : s.Known g) (ht : t.Known g) (hsref : s.isObjectReference = true)
    (htref : t.isObjectReference = true) :
    (meet g s t).Known g ∧ s.fits g (meet g s t) = true ∧ t.fits g (meet g s t) = true := by
  obtain ⟨hknown, href, hclass, hsbase, htbase⟩ := commonBase_spec htame h hs ht hsref htref
  rw [meet_eq]
  split
  · exact ⟨hknown, hsbase, htbase⟩
  · refine ⟨⟨hknown, href, hclass, fun i hi => ?_⟩, ?_, ?_⟩
    · obtain ⟨hiknown, hiref, -, -⟩ := commonInterfaces_spec htame h hs ht hsref htref hi
      exact ⟨hiknown, hiref⟩
    · refine fits_complex.mpr ⟨hsbase, fun i hi => ?_⟩
      exact (commonInterfaces_spec htame h hs ht hsref htref hi).2.2.1
    · refine fits_complex.mpr ⟨htbase, fun i hi => ?_⟩
      exact (commonInterfaces_spec htame h hs ht hsref htref hi).2.2.2

theorem join_known (hs : s.Known g) (ht : t.Known g) (hjoin : s.join g t = some joined) :
    joined.Known g := by
  rcases join_cases hjoin with rfl | ⟨rfl, -⟩ | ⟨rfl, -⟩ | ⟨hsref, htref, rfl⟩
  · exact ht
  · exact hs
  · exact hs
  · exact (meet_spec htame h hs ht hsref htref).1

end

end StackType

end ManagedCode
