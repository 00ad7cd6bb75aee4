import ManagedCode.Proofs.Graph.Search
import ManagedCode.Proofs.StackType.Join
import Mathlib.Data.List.Find
import Mathlib.Data.List.Sort

namespace ManagedCode

/-! What two object references have in common is the same from either side: the base types form a
chain, so there is one nearest common one, and a set of interfaces has one form. -/

section InterfaceSet

variable {t u : Ty} {types : List Ty}

theorem mem_insertByName (hnames : ∀ v ∈ types, v.name = t.name → v = t) :
    u ∈ insertByName t types ↔ u = t ∨ u ∈ types := by
  refine ⟨mem_of_mem_insertByName, fun h => ?_⟩
  induction types with
  | nil => simpa [insertByName] using h
  | cons v rest ih =>
      obtain ⟨hv, hrest⟩ := List.forall_mem_cons.mp hnames
      simp only [insertByName]
      split
      · simpa using h
      · rename_i hbefore
        split
        · have := ih hrest
          simp only [List.mem_cons] at h ⊢
          tauto
        · rename_i hbehind
          have heq : v = t := hv (String.le_antisymm (String.not_lt.mp hbefore) (String.not_lt.mp hbehind))
          simpa [heq] using h

theorem mem_ofList (hnames : ∀ t ∈ types, ∀ u ∈ types, t.name = u.name → t = u) :
    u ∈ (InterfaceSet.ofList types).types ↔ u ∈ types := by
  have hfold : ∀ (rest : List Ty) (s : InterfaceSet), s.types ⊆ types → rest ⊆ types →
      (u ∈ (rest.foldl .insert s).types ↔ u ∈ s.types ∨ u ∈ rest) := by
    intro rest
    induction rest with
    | nil => simp
    | cons t rest ih =>
        intro s hs hrest
        obtain ⟨ht, hrest⟩ := List.cons_subset.mp hrest
        have hinsert : ∀ {v : Ty}, v ∈ (s.insert t).types ↔ v = t ∨ v ∈ s.types :=
          mem_insertByName fun v hv => hnames v (hs hv) t ht
        have hsubset : (s.insert t).types ⊆ types := by
          intro v hv
          rcases hinsert.mp hv with rfl | hv
          · exact ht
          · exact hs hv
        rw [List.foldl_cons, ih (s.insert t) hsubset hrest, hinsert, List.mem_cons]
        tauto
  have hall := hfold types .empty (List.nil_subset types) (List.Subset.refl types)
  simpa [InterfaceSet.ofList, InterfaceSet.empty] using hall

theorem InterfaceSet.eq_of_mem_iff {a b : InterfaceSet} (h : ∀ t, t ∈ a.types ↔ t ∈ b.types) :
    a = b := by
  rcases a with ⟨types, hbyName⟩
  rcases b with ⟨types', hbyName'⟩
  have hirrefl : Std.Irrefl fun t u : Ty => t.name < u.name := ⟨fun t => String.lt_irrefl t.name⟩
  obtain rfl : types = types' := hbyName.eq_of_mem_iff hbyName' h
  rfl

end InterfaceSet

namespace Ty

variable {t u v : Ty} {p : Ty → Bool}

theorem name_injective_of_isInterface (ht : t.isInterface = true) (hu : u.isInterface = true)
    (h : t.name = u.name) : t = u := by
  cases t with
  | interface name =>
      cases u with
      | interface name' =>
          rcases name with ⟨text, _⟩
          rcases name' with ⟨text', _⟩
          cases h
          rfl
      | _ => cases hu
  | _ => cases ht

theorem ancestors_antisymm (h : u ∈ t.ancestors) (h' : t ∈ u.ancestors) : t = u := by
  have hlength := (ancestors_suffix h).length_le
  have heq : t.ancestors = u.ancestors := (ancestors_suffix h').eq_of_length_le hlength
  rw [ancestors_eq t, ancestors_eq u] at heq
  exact (List.cons.inj heq).1

/-- The first base type of a kind is the nearest one. -/
theorem mem_ancestors_of_find? (h : t.ancestors.find? p = some u) (hv : v ∈ t.ancestors)
    (hp : p v = true) : v ∈ u.ancestors := by
  induction t using base_induction with
  | h t ih =>
      rw [ancestors_eq t, List.find?_cons] at h
      split at h
      · cases h
        exact hv
      · rename_i hnot
        rcases mem_ancestors_iff.mp hv with rfl | ⟨base, hbase, hv⟩
        · rw [hp] at hnot
          cases hnot
        · rw [hbase] at h
          exact ih base hbase h hv

theorem find?_ancestors_comm (t u : Ty) :
    t.ancestors.find? (u.ancestors.contains ·) = u.ancestors.find? (t.ancestors.contains ·) := by
  cases ht : t.ancestors.find? (u.ancestors.contains ·) with
  | none =>
      symm
      simp only [List.find?_eq_none, List.contains_iff_mem] at ht ⊢
      exact fun v hu hv => ht v hv hu
  | some v =>
      have hvu : v ∈ u.ancestors := by simpa using List.find?_some ht
      have hvt : v ∈ t.ancestors := List.mem_of_find?_eq_some ht
      cases hu : u.ancestors.find? (t.ancestors.contains ·) with
      | none =>
          have hno := List.find?_eq_none.mp hu v hvu
          simp [hvt] at hno
      | some w =>
          have hwt : w ∈ t.ancestors := by simpa using List.find?_some hu
          have hwu : w ∈ u.ancestors := List.mem_of_find?_eq_some hu
          have hvw : v ∈ w.ancestors := mem_ancestors_of_find? hu hvu (by simpa using hvt)
          have hwv : w ∈ v.ancestors := mem_ancestors_of_find? ht hwt (by simpa using hwu)
          rw [ancestors_antisymm hwv hvw]

end Ty

namespace Graph.Tame

variable {g : Graph} {t u : Ty}

theorem object_mem_ancestors (htame : g.Tame) (h : g.Sound) (ht : g.Knows t)
    (href : t.isReference = true) (hkind : t.isInterface = false) : .object ∈ t.ancestors := by
  induction t using Ty.base_induction with
  | h t ih =>
      cases t with
      | object => exact Ty.mem_ancestors_self _
      | subclass name base attributes =>
          have hclass := htame.classBases ht
          have hbase := ih base rfl (h.knows_base ht rfl) (Ty.isReference_of_isClass hclass)
            (Ty.not_isInterface_of_isClass hclass)
          exact Ty.mem_ancestors_iff.mpr (.inr ⟨base, rfl, hbase⟩)
      | array element base =>
          obtain ⟨rfl, -⟩ := ht
          simp [Ty.ancestors, Ty.arrayBase]
      | interface => cases hkind
      | bareArray => exact ht.elim
      | struct | enum | primitive | byRef | pointer => cases href

/-- A class stands for its base types, and among classes for no others. -/
theorem isAssignable_iff_mem_ancestors (htame : g.Tame) (h : g.Sound) (ht : g.Knows t)
    (href : t.isReference = true) (hkind : t.isInterface = false) (hu : g.Knows u)
    (hclass : u.isClass = true) : g.isAssignable t u = true ↔ u ∈ t.ancestors := by
  rw [isAssignable_iff_below htame h ht hu href]
  constructor
  · intro hbelow
    cases hbelow with
    | object => exact htame.object_mem_ancestors h ht href hkind
    | interface hinterface => exact (Ty.not_class_and_interface hclass hinterface).elim
    | base hmem => exact hmem
    | array => cases hclass
  · exact .base

end Graph.Tame

namespace StackType

variable {g : Graph} {s t : StackType} {i : Ty}

/-- Made of types of the graph. A complex type is a class together with interfaces. -/
def Proper (g : Graph) : StackType → Prop
  | zero => True
  | simple t => g.Knows t
  | complex base interfaces =>
    g.Knows base ∧ base.isClass = true ∧
      ∀ i ∈ interfaces.types, g.Knows i ∧ i.isInterface = true

theorem Proper.known (hs : s.Proper g) : s.Known g := by
  cases s with
  | zero => trivial
  | simple t => exact hs
  | complex base interfaces =>
      obtain ⟨hbase, hclass, hinterfaces⟩ := hs
      refine ⟨hbase, Ty.isReference_of_isClass hclass, Ty.not_isInterface_of_isClass hclass, ?_⟩
      intro i hi
      exact ⟨(hinterfaces i hi).1, Ty.isReference_of_isInterface (hinterfaces i hi).2⟩

theorem Proper.base_cases (hs : s.Proper g) :
    (s.capabilities g).1.isClass = true ∨ s = simple (s.capabilities g).1 := by
  cases s with
  | zero => exact .inl rfl
  | simple t =>
      cases hinterface : t.isInterface with
      | true => simp [capabilities, hinterface, Ty.isClass]
      | false => simp [capabilities, hinterface]
  | complex base interfaces => exact .inl hs.2.1

theorem Proper.isInterface (htame : g.Tame) (hs : s.Proper g) (hi : i ∈ (s.capabilities g).2) :
    i.isInterface = true := by
  rcases mem_capabilities hi with ⟨-, hinterface⟩ | ⟨base, interfaces, rfl, hmem⟩ | ⟨v, -, hi⟩
  · exact hinterface
  · exact (hs.2.2 i hmem).2
  · exact Graph.isInterface_of_mem_allInterfaces htame.onlyInterfaces hi

theorem mem_commonInterfaces (htame : g.Tame) (hs : s.Proper g) :
    i ∈ (commonInterfaces g s t).types ↔
      i ∈ (s.capabilities g).2 ∧ i ∈ (t.capabilities g).2 ∧
        g.isAssignable (commonBase g s t) i = false := by
  rw [commonInterfaces, mem_ofList]
  · simp [List.mem_filter]
  · intro i hi j hj
    exact Ty.name_injective_of_isInterface (hs.isInterface htame (List.mem_filter.mp hi).1)
      (hs.isInterface htame (List.mem_filter.mp hj).1)

section Sides

variable (htame : g.Tame) (h : g.Sound) (hs : s.Proper g) (ht : t.Proper g)
  (hsref : s.isObjectReference = true) (htref : t.isObjectReference = true)
include htame h hs ht hsref htref

/-- The nearest common base type is common by its place in both chains. Were it an array of the one
side, the other side would fit that array as a whole. -/
theorem commonBase_eq (hts : t.fits g s = false) :
    commonBase g s t = ((s.capabilities g).1.ancestors.find?
      ((t.capabilities g).1.ancestors.contains ·)).getD .object := by
  obtain ⟨hbase, hbaseref, -, -⟩ := capabilities_base htame h hs.known hsref
  obtain ⟨hother, hotherref, hotherkind, hotherof⟩ := capabilities_base htame h ht.known htref
  have hagree : ∀ u ∈ (s.capabilities g).1.ancestors,
      g.isAssignable (t.capabilities g).1 u = (t.capabilities g).1.ancestors.contains u := by
    intro u hu
    have hknown : g.Knows u := h.knows_of_mem_ancestors hbase hu
    rw [Bool.eq_iff_iff, List.contains_iff_mem]
    by_cases hclass : u.isClass = true
    · exact htame.isAssignable_iff_mem_ancestors h hother hotherref hotherkind hknown hclass
    · have hself : u = (s.capabilities g).1 :=
        (htame.classes.isClass_of_mem_ancestors h hbase hbaseref hu).resolve_right hclass
      have hsimple : s = simple u := by
        rw [hself] at hclass ⊢
        exact hs.base_cases.resolve_left hclass
      have hnot : ¬ g.isAssignable (t.capabilities g).1 u = true := by
        intro hassignable
        rw [hsimple] at hts
        exact Bool.false_ne_true (hts.symm.trans (hotherof hknown hassignable))
      refine iff_of_false hnot fun hmem => hnot ?_
      exact (Graph.isAssignable_iff_below htame h hother hknown hotherref).mpr (.base hmem)
  rw [commonBase, List.find?_congr hagree]

theorem commonBase_comm (hst : s.fits g t = false) (hts : t.fits g s = false) :
    commonBase g s t = commonBase g t s := by
  rw [commonBase_eq htame h hs ht hsref htref hts, commonBase_eq htame h ht hs htref hsref hst,
    Ty.find?_ancestors_comm]

theorem meet_comm (hst : s.fits g t = false) (hts : t.fits g s = false) :
    meet g s t = meet g t s := by
  have hbase := commonBase_comm htame h hs ht hsref htref hst hts
  have hinterfaces : commonInterfaces g s t = commonInterfaces g t s := by
    apply InterfaceSet.eq_of_mem_iff
    intro i
    rw [mem_commonInterfaces htame hs, mem_commonInterfaces htame ht, hbase]
    tauto
  rw [meet_eq, meet_eq, hbase, hinterfaces]

end Sides

theorem fits_of_interchangeable (g : Graph) (h : s.Interchangeable t) : s.fits g t = true := by
  cases h with
  | same => exact fits_self g s
  | @numbers a b hnumeric hcategory =>
      have hnumeric' : b.category.isNumeric = true := hcategory ▸ hnumeric
      have ha : a.isValueType = true := Ty.isValueType_of_isNumeric hnumeric
      have hb : b.isValueType = true := Ty.isValueType_of_isNumeric hnumeric'
      simp [fits, isAssignableTo, isAssignableType, hcategory, hnumeric', ha, hb]

/-- Slots that are interchangeable fit each other, so they need no case of their own. -/
theorem join_eq (g : Graph) (s t : StackType) :
    s.join g t =
      if s.fits g t then some t
      else if t.fits g s then some s
      else if s.isObjectReference && t.isObjectReference then some (meet g s t)
      else none := by
  unfold join
  split
  · rfl
  · rename_i hfits
    have hconsistent : ¬ s.isConsistentWith t = true := fun hconsistent =>
      hfits (fits_of_interchangeable g (isConsistentWith_iff.mp hconsistent))
    rw [if_neg hconsistent]

section Join

variable (htame : g.Tame) (h : g.Sound)
include htame h

theorem fits_of_join {joined : StackType} (hs : s.Known g) (ht : t.Known g)
    (hjoin : s.join g t = some joined) : s.fits g joined = true ∧ t.fits g joined = true := by
  rw [join_eq] at hjoin
  split at hjoin
  · rename_i hst
    cases hjoin
    exact ⟨hst, fits_self g t⟩
  split at hjoin
  · rename_i hts
    cases hjoin
    exact ⟨fits_self g s, hts⟩
  split at hjoin
  · rename_i hreferences
    cases hjoin
    obtain ⟨hsref, htref⟩ := Bool.and_eq_true_iff.mp hreferences
    exact (meet_spec htame h hs ht hsref htref).2
  · cases hjoin

/-- The two sides only differ where each fits the other: then each is the join. -/
theorem join_sides {joined : StackType} (hs : s.Proper g) (ht : t.Proper g)
    (hjoin : s.join g t = some joined) :
    ∃ other, t.join g s = some other ∧ joined.fits g other = true ∧ other.fits g joined = true := by
  rw [join_eq] at hjoin ⊢
  cases hst : s.fits g t with
  | true =>
      simp only [hst, if_true] at hjoin
      cases hjoin
      cases hts : t.fits g s with
      | true => exact ⟨s, rfl, hts, hst⟩
      | false => exact ⟨t, rfl, fits_self g t, fits_self g t⟩
  | false =>
      cases hts : t.fits g s with
      | true =>
          simp only [hst, hts, Bool.false_eq_true, if_true, if_false] at hjoin
          cases hjoin
          exact ⟨s, rfl, fits_self g s, fits_self g s⟩
      | false =>
          simp only [hst, hts, Bool.false_eq_true, if_false] at hjoin ⊢
          split at hjoin
          · rename_i hreferences
            cases hjoin
            obtain ⟨hsref, htref⟩ := Bool.and_eq_true_iff.mp hreferences
            refine ⟨meet g t s, by simp [hsref, htref], ?_⟩
            rw [meet_comm htame h hs ht hsref htref hst hts]
            exact ⟨fits_self g _, fits_self g _⟩
          · cases hjoin

theorem isSome_join_comm (hs : s.Proper g) (ht : t.Proper g) :
    (s.join g t).isSome = (t.join g s).isSome := by
  rw [Bool.eq_iff_iff, Option.isSome_iff_exists, Option.isSome_iff_exists]
  constructor
  · rintro ⟨joined, hjoin⟩
    obtain ⟨other, hother, -⟩ := join_sides htame h hs ht hjoin
    exact ⟨other, hother⟩
  · rintro ⟨joined, hjoin⟩
    obtain ⟨other, hother, -⟩ := join_sides htame h ht hs hjoin
    exact ⟨other, hother⟩

end Join

end StackType

end ManagedCode
