import ManagedCode.Proofs.Graph.Subtyping

namespace ManagedCode

/-! The two searches of a graph find just what paths lead to. Cycles of interfaces do no harm, for no
type is visited twice. -/

theorem nodup_reachable {α : Type} [DecidableEq α] (next : α → List α) (domain seeds : List α) :
    (reachable next domain seeds).Nodup := by
  fun_induction reachable next domain seeds with
  | case1 => exact List.nodup_nil
  | case2 domain seeds a _ ih =>
      refine List.nodup_cons.mpr ⟨?_, ih⟩
      intro hagain
      have hdomain := (mem_reachable_iff.mp hagain).mem_domain
      exact (mem_without.mp hdomain).2 rfl

namespace Ty

variable {t u : Ty}

theorem mem_parts_of_base? (h : t.base? = some u) : u ∈ t.parts := by
  cases t with
  | object | interface | bareArray | byRef | pointer => cases h
  | subclass | struct | enum | primitive | array => cases h; simp [parts]

theorem base?_of_isInterface (h : t.isInterface = true) : t.base? = none := by
  cases t with
  | interface => rfl
  | _ => cases h

theorem element?_of_isInterface (h : t.isInterface = true) : t.element? = none := by
  cases t with
  | interface => rfl
  | _ => cases h

theorem exists_base_of_mem_ancestors (h : u ∈ t.ancestors) :
    u = t ∨ ∃ a ∈ t.ancestors, a.base? = some u := by
  induction t using base_induction with
  | h t ih =>
      rcases mem_ancestors_iff.mp h with rfl | ⟨base, hbase, hu⟩
      · exact .inl rfl
      · refine .inr ?_
        rcases ih base hbase hu with rfl | ⟨a, ha, hau⟩
        · exact ⟨t, t.mem_ancestors_self, hbase⟩
        · exact ⟨a, mem_ancestors_iff.mpr (.inr ⟨base, hbase, ha⟩), hau⟩

end Ty

namespace Graph

variable {g : Graph} {t u i : Ty}

/-- All that the search for an interface visits. -/
def lineage (g : Graph) (t : Ty) : List Ty :=
  reachable g.supertypes (t.ancestors ++ g.targets) [t]

theorem inherits_iff_mem_lineage (hi : i.isInterface = true) :
    g.inherits t i = true ↔ i ∈ g.lineage t := by
  simp [inherits, hi, lineage]

section Bounds

variable (h : g.Sound)
include h

theorem Sound.ancestors_subset (ht : t ∈ g.types) : t.ancestors ⊆ g.types := fun _ hu =>
  Ty.mem_ancestors_induction (fun hv hbase => h.parts _ hv _ (Ty.mem_parts_of_base? hbase)) ht hu

theorem Sound.targets_subset : g.targets ⊆ g.types := by
  intro u hu
  obtain ⟨e, he, hu⟩ := List.mem_flatMap.mp hu
  obtain ⟨i, hi, hu⟩ := List.mem_flatMap.mp hu
  exact h.ancestors_subset (h.interfaces e he i hi) hu

theorem Sound.length_lineage_le (ht : t ∈ g.types) : (g.lineage t).length ≤ g.types.length := by
  apply (nodup_reachable _ _ _).length_le_of_subset
  intro u hu
  rcases List.mem_append.mp (mem_reachable_iff.mp hu).mem_domain with hancestor | htarget
  · exact h.ancestors_subset ht hancestor
  · exact h.targets_subset htarget

theorem Sound.length_allInterfaces_le : (g.allInterfaces t).length ≤ g.types.length := by
  apply (nodup_reachable _ _ _).length_le_of_subset
  intro u hu
  exact h.targets_subset (mem_reachable_iff.mp hu).mem_domain

end Bounds

section Paths

variable (hinterfaces : ∀ {t i : Ty}, i ∈ g.interfaces t → i.isInterface = true)
include hinterfaces

theorem isInterface_of_mem_allInterfaces (hi : i ∈ g.allInterfaces t) : i.isInterface = true := by
  obtain ⟨a, ha⟩ := exists_declares_of_mem_allInterfaces hi
  exact hinterfaces ha

/-- A path goes up the base types, and from the first interface on it meets interfaces only. -/
theorem leads_iff : g.Leads t u ↔ u ∈ t.ancestors ∨ u ∈ g.allInterfaces t := by
  constructor
  · intro hpath
    induction hpath with
    | refl => exact .inl t.mem_ancestors_self
    | @tail v u _ hstep ih =>
        rcases ih with hv | hv
        · rcases mem_supertypes.mp hstep with hbase | hu
          · exact .inl (Ty.mem_ancestors_trans hv (Ty.mem_ancestors_of_base? hbase))
          · exact .inr (mem_allInterfaces_iff.mpr ⟨v, hv, u, hu, .refl⟩)
        · rcases mem_supertypes.mp hstep with hbase | hu
          · have hinterface := isInterface_of_mem_allInterfaces hinterfaces hv
            rw [Ty.base?_of_isInterface hinterface] at hbase
            cases hbase
          · obtain ⟨a, ha, j, hj, hpath⟩ := mem_allInterfaces_iff.mp hv
            exact .inr (mem_allInterfaces_iff.mpr ⟨a, ha, j, hj, hpath.tail hu⟩)
  · rintro (hu | hu)
    · exact leads_of_mem_ancestors hu
    · exact leads_of_mem_allInterfaces hu

theorem inherits_iff_leads : g.inherits t u = true ↔ g.Leads t u := by
  rw [inherits_iff]
  cases hu : u.isInterface with
  | true => simp
  | false =>
      -- A path to a class goes along base types only.
      rw [if_neg Bool.false_ne_true, leads_iff hinterfaces]
      constructor
      · exact .inl
      · rintro (hancestor | hinterface)
        · exact hancestor
        · rw [isInterface_of_mem_allInterfaces hinterfaces hinterface] at hu
          cases hu

theorem isAssignable_iff_leads (h : g.Sound) (hu : u ∈ g.types) (href : t.isReference = true)
    (hne : u ≠ t) (hnotArrays : t.element? = none ∨ u.element? = none)
    (hreferent : u.referent? = none) :
    g.isAssignable t u = true ↔ u = .object ∨ g.Leads t u := by
  have hname : u.name = Ty.objectName.text ↔ u = .object := by
    constructor
    · exact h.eq_object (h.knows hu) hreferent
    · rintro rfl
      rfl
  rw [isAssignable_iff_conforms hnotArrays, conforms_iff href, hname,
    inherits_iff_leads hinterfaces]
  simp [hne.symm, hreferent]

/-- Where no type is based on an interface, the interfaces of a reference type are those that it
stands for. -/
theorem isAssignable_iff_mem_allInterfaces (h : g.Sound)
    (hbases : ∀ t ∈ g.types, ∀ base ∈ t.base?, base.isInterface = false) (ht : t ∈ g.types)
    (hi : i ∈ g.types) (href : t.isReference = true) (hinterface : i.isInterface = true)
    (hne : i ≠ t) : g.isAssignable t i = true ↔ i ∈ g.allInterfaces t := by
  have hroot : i ≠ .object := by
    rintro rfl
    cases hinterface
  have hancestor : i ∉ t.ancestors := by
    intro hmem
    rcases Ty.exists_base_of_mem_ancestors hmem with heq | ⟨a, ha, hbase⟩
    · exact hne heq
    · rw [hbases a (h.ancestors_subset ht ha) i hbase] at hinterface
      cases hinterface
  rw [isAssignable_iff_leads hinterfaces h hi href hne (.inr (Ty.element?_of_isInterface hinterface))
    (Ty.referent?_of_isReference (Ty.isReference_of_isInterface hinterface)), leads_iff hinterfaces]
  simp [hroot, hancestor]

end Paths

/-- Both searches find what the paths of a graph lead to, whatever cycles its interfaces form, and
neither makes more visits than there are types. -/
theorem searches_follow_paths (hbuilt : g.Built)
    (hinterfaces : ∀ t i : Ty, i ∈ g.interfaces t → i.isInterface = true) :
    (∀ t ∈ g.types, ∀ u ∈ g.types, t.isReference = true → u ≠ t →
      t.element? = none ∨ u.element? = none → u.referent? = none →
      (g.isAssignable t u = true ↔ u = .object ∨ g.Leads t u)) ∧
    (∀ t u, g.inherits t u = true ↔ g.Leads t u) ∧
    (∀ t i, i ∈ g.allInterfaces t ↔ ∃ a ∈ t.ancestors, ∃ j ∈ g.interfaces a, g.Extends j i) ∧
    ((∀ t ∈ g.types, ∀ base ∈ t.base?, base.isInterface = false) →
      ∀ t ∈ g.types, ∀ i ∈ g.types, t.isReference = true → i.isInterface = true → i ≠ t →
        (g.isAssignable t i = true ↔ i ∈ g.allInterfaces t)) ∧
    (∀ t i, i.isInterface = true → (g.inherits t i = true ↔ i ∈ g.lineage t)) ∧
    ∀ t ∈ g.types, (g.lineage t).length ≤ g.types.length ∧
      (g.allInterfaces t).length ≤ g.types.length := by
  have hsound := hbuilt.sound
  have honly : ∀ {t i : Ty}, i ∈ g.interfaces t → i.isInterface = true := fun hi =>
    hinterfaces _ _ hi
  refine ⟨?_, ?_, ?_, ?_, ?_, ?_⟩
  · intro t _ u hu href hne hnotArrays hreferent
    exact isAssignable_iff_leads honly hsound hu href hne hnotArrays hreferent
  · intro t u
    exact inherits_iff_leads honly
  · intro t i
    exact mem_allInterfaces_iff
  · intro hbases t ht i hi href hinterface hne
    exact isAssignable_iff_mem_allInterfaces honly hsound hbases ht hi href hinterface hne
  · intro t i hi
    exact inherits_iff_mem_lineage hi
  · intro t ht
    exact ⟨hsound.length_lineage_le ht, hsound.length_allInterfaces_le⟩

namespace Sample

def left : Ty := .interface ⟨"Sample.ILeft", by decide⟩
def right : Ty := .interface ⟨"Sample.IRight", by decide⟩
def leaf : Ty := .subclass ⟨"Sample.Leaf", by decide⟩ .exception .none

def unrelated : Graph := (((library.declare left).2.declare right).2.declare leaf).2

/-- Two interfaces extend each other, and a class implements one of them. -/
def cyclic : Graph :=
  ((unrelated.addInterface left right).addInterface right left).addInterface leaf left

end Sample

open Sample in
theorem searches_follow_paths_cyclic :
    cyclic.isAssignable leaf right = true ∧ right ∈ cyclic.allInterfaces leaf ∧
      cyclic.isAssignable leaf .exception = true ∧ cyclic.Leads left left ∧
      (cyclic.lineage leaf).length ≤ cyclic.types.length := by
  have hfacts : left ∈ unrelated.types ∧ right ∈ unrelated.types ∧ leaf ∈ unrelated.types ∧
      left ∈ cyclic.supertypes leaf ∧ right ∈ cyclic.supertypes left ∧
      left ∈ cyclic.supertypes right ∧
      (∀ e ∈ cyclic.entries, ∀ i ∈ e.interfaces, i.isInterface = true) ∧
      ∀ t ∈ cyclic.types, ∀ base ∈ t.base?, base.isInterface = false := by
    decide +kernel
  obtain ⟨hleft, hright, hleaf, hup, hover, hback, hentries, hbases⟩ := hfacts
  have hdeclared : ((library.declare left).2.declare right).2.Built :=
    .declare (.declare .library rfl (by decide)) rfl (by decide)
  have hunrelated : unrelated.Built := by
    refine hdeclared.declare rfl fun u hu => ?_
    have heq : u = .exception := List.mem_singleton.mp hu
    rw [heq]
    exact hdeclared.sound.mem_of_library (by decide)
  have hbuilt : cyclic.Built := by
    refine .addInterface (.addInterface (.addInterface hunrelated hleft hright) ?_ ?_) ?_ ?_
    all_goals simp only [types_addInterface]
    exacts [hright, hleft, hleaf, hleft]
  have htypes : cyclic.types = unrelated.types := by simp [cyclic]
  rw [← htypes] at hleft hright hleaf
  have hexception : Ty.exception ∈ cyclic.types := hbuilt.sound.mem_of_library (by decide)
  obtain ⟨hassignable, -, -, hinterfaces, -, hvisits⟩ := searches_follow_paths hbuilt
    fun t i hi =>
      let ⟨e, he, _, hi⟩ := exists_entry hi
      hentries e he i hi
  have hfound : cyclic.isAssignable leaf right = true :=
    (hassignable leaf hleaf right hright rfl (by decide) (.inl rfl) rfl).mpr
      (.inr (.tail (.single hup) hover))
  have hbase : cyclic.isAssignable leaf .exception = true :=
    (hassignable leaf hleaf .exception hexception rfl (by decide) (.inl rfl) rfl).mpr
      (.inr (.single (mem_supertypes.mpr (.inl rfl))))
  refine ⟨hfound, ?_, hbase, .tail (.single hover) hback, (hvisits leaf hleaf).1⟩
  exact (hinterfaces hbases leaf hleaf right hright rfl rfl (by decide)).mp hfound

end Graph

end ManagedCode
