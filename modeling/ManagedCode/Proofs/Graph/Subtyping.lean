import ManagedCode.Proofs.Graph.Built
import Mathlib.Logic.Function.Iterate

namespace ManagedCode

/-! Assignability of reference types as a relation: along base types and interfaces, to
`System.Object`, and from array to array. -/

namespace Ty

variable {t u : Ty}

def isClass : Ty → Bool
  | object | subclass _ _ _ => true
  | _ => false

/-- Interfaces are declared on named types, and not on the root class. -/
def mayImplement : Ty → Bool
  | subclass _ _ _ | interface _ | struct _ _ | enum _ _ _ | primitive _ _ => true
  | _ => false

theorem isReference_of_isClass (h : t.isClass = true) : t.isReference = true := by
  cases t with
  | object | subclass => rfl
  | _ => cases h

theorem isReference_of_isInterface (h : t.isInterface = true) : t.isReference = true := by
  cases t with
  | interface => rfl
  | _ => cases h

theorem not_isInterface_of_isClass (h : t.isClass = true) : t.isInterface = false := by
  cases t with
  | object | subclass => rfl
  | _ => cases h

theorem not_class_and_interface (hclass : t.isClass = true) (hinterface : t.isInterface = true) :
    False :=
  Bool.false_ne_true ((not_isInterface_of_isClass hclass).symm.trans hinterface)

theorem referent?_of_isReference (h : t.isReference = true) : t.referent? = none := by
  cases t with
  | byRef | pointer => cases h
  | _ => rfl

theorem ancestors_of_isInterface (h : t.isInterface = true) : t.ancestors = [t] := by
  cases t with
  | interface => rfl
  | _ => cases h

theorem not_mem_ancestors_of_isClass (hinterface : t.isInterface = true) (hclass : u.isClass = true) :
    u ∉ t.ancestors := by
  rw [ancestors_of_isInterface hinterface]
  intro hmem
  cases List.mem_singleton.mp hmem
  exact not_class_and_interface hclass hinterface

theorem name_array_ne (element base : Ty) : (array element base).name ≠ objectName.text := by
  intro h
  have hlast := congrArg (fun s : String => s.toList.getLast?) h
  simp [name, objectName] at hlast

end Ty

namespace Graph

/-- What the callers of a graph keep to: classes derive from classes, and interfaces are declared
only as such, and only on named types other than `System.Object`. -/
structure Tame (g : Graph) : Prop where
  classBases : ∀ {name base attributes}, .subclass name base attributes ∈ g.types →
    base.isClass = true
  onlyInterfaces : ∀ {t i : Ty}, i ∈ g.interfaces t → i.isInterface = true
  implementors : ∀ {t i : Ty}, i ∈ g.interfaces t → t.mayImplement = true

/-- Classes derive from classes. -/
def ClassBases (g : Graph) : Prop :=
  ∀ name base attributes, .subclass name base attributes ∈ g.types → base.isClass = true

theorem Tame.classes {g : Graph} (h : g.Tame) : g.ClassBases := fun _ _ _ => h.classBases

theorem tame_library : Graph.library.Tame where
  classBases := by
    have hbases : ∀ t ∈ Graph.library.types, t.isClass = true →
        ∀ base ∈ t.base?, base.isClass = true := by
      rw [library_types]
      decide
    intro name base attributes h
    exact hbases _ h rfl base rfl
  onlyInterfaces := by
    have hrows : ∀ row ∈ libraryTable, ∀ i ∈ row.2, i.isInterface = true := by decide
    intro t i h
    obtain ⟨e, he, -, hi⟩ := exists_entry h
    exact library_interfaces (P := fun _ i => i.isInterface = true) hrows he hi
  implementors := by
    have hrows : ∀ row ∈ libraryTable, ∀ i ∈ row.2, row.1.mayImplement = true := by decide
    intro t i h
    obtain ⟨e, he, rfl, hi⟩ := exists_entry h
    exact library_interfaces (P := fun t _ => t.mayImplement = true) hrows he hi

/-- Subtyping of references. -/
inductive Below (g : Graph) : Ty → Ty → Prop where
  | object (t : Ty) : Below g t .object
  | interface {t i : Ty} : i.isInterface = true → g.Leads t i → Below g t i
  | base {t u : Ty} : u ∈ t.ancestors → Below g t u
  | array {t u : Ty} : t.isReference = true → u.isReference = true → Below g t u →
      Below g (.arrayOf t) (.arrayOf u)

section

variable {g : Graph} {t u v : Ty}

theorem Below.refl (t : Ty) : g.Below t t :=
  .base t.mem_ancestors_self

theorem Sound.eq_object (h : g.Sound) (ht : g.Knows t) (hreferent : t.referent? = none)
    (hname : t.name = Ty.objectName.text) : t = .object := by
  have hobject : Ty.object ∈ g.types := h.mem_of_library (by decide)
  have hmem : t ∈ g.types → t = .object := fun ht =>
    List.inj_on_of_nodup_map h.names ht hobject hname
  cases t with
  | object | subclass | interface | struct | enum | primitive => exact hmem ht
  | array element base => exact absurd hname (Ty.name_array_ne element base)
  | bareArray => exact ht.elim
  | byRef | pointer => cases hreferent

theorem ClassBases.isClass_of_mem_ancestors (hclasses : g.ClassBases) (h : g.Sound) (ht : g.Knows t)
    (href : t.isReference = true) (hu : u ∈ t.ancestors) : u = t ∨ u.isClass = true := by
  induction t using Ty.base_induction with
  | h t ih =>
      rcases Ty.mem_ancestors_iff.mp hu with rfl | ⟨base, hbase, hu⟩
      · exact .inl rfl
      · have hclass : base.isClass = true := by
          cases t with
          | subclass =>
              cases hbase
              exact hclasses _ _ _ ht
          | array element base =>
              cases hbase
              rw [ht.1]
              rfl
          | object | interface | bareArray | byRef | pointer => cases hbase
          | struct | enum | primitive => cases href
        rcases ih base hbase (h.knows_base ht hbase) (Ty.isReference_of_isClass hclass) hu with
          rfl | hu
        · exact .inr hclass
        · exact .inr hu

theorem Sound.knows_of_mem_ancestors (h : g.Sound) (ht : g.Knows t) (hu : u ∈ t.ancestors) :
    g.Knows u :=
  Ty.mem_ancestors_induction h.knows_base ht hu

theorem Tame.eq_object_of_leads (htame : g.Tame) (h : g.Leads .object u) : u = .object := by
  induction h with
  | refl => rfl
  | tail _ hstep ih =>
      subst ih
      rcases mem_supertypes.mp hstep with hbase | hinterface
      · cases hbase
      · cases htame.implementors hinterface

/-- All that an array has besides its elements comes from the base class of arrays. -/
theorem Tame.leads_array (htame : g.Tame) (hu : u.isInterface = true)
    (h : g.Leads (.arrayOf t) u) (v : Ty) : g.Leads (.arrayOf v) u := by
  rcases Relation.ReflTransGen.cases_head h with rfl | ⟨w, hstep, hrest⟩
  · cases hu
  · rcases mem_supertypes.mp hstep with hbase | hinterface
    · cases hbase
      exact .head (mem_supertypes.mpr (.inl rfl)) hrest
    · cases htame.implementors hinterface

theorem Below.trans (htame : g.Tame) (h : g.Sound) (htu : g.Below t u) (huv : g.Below u v)
    (ht : g.Knows t) (href : t.isReference = true) : g.Below t v := by
  induction htu generalizing v with
  | object t =>
      cases huv with
      | object => exact .object t
      | interface hv hleads =>
          cases htame.eq_object_of_leads hleads
          cases hv
      | base hv =>
          cases List.mem_singleton.mp hv
          exact .object t
  | @interface t i hi hleads =>
      cases huv with
      | object => exact .object t
      | interface hv hleads' => exact .interface hv (hleads.trans hleads')
      | base hv =>
          rw [Ty.ancestors_of_isInterface hi] at hv
          cases List.mem_singleton.mp hv
          exact .interface hi hleads
      | array => cases hi
  | @base t u hu =>
      cases huv with
      | object => exact .object t
      | interface hv hleads => exact .interface hv ((leads_of_mem_ancestors hu).trans hleads)
      | base hv => exact .base (Ty.mem_ancestors_trans hu hv)
      | array hw hv hwv =>
          rcases htame.classes.isClass_of_mem_ancestors h ht href hu with rfl | hclass
          · exact .array hw hv hwv
          · cases hclass
  | @array t u ht' hu htu ih =>
      cases huv with
      | object => exact .object _
      | interface hv hleads => exact .interface hv (htame.leads_array hv hleads t)
      | base hv =>
          rcases Ty.mem_ancestors_iff.mp hv with rfl | ⟨base, hbase, hv⟩
          · exact .array ht' hu htu
          · cases hbase
            exact .base (Ty.mem_ancestors_iff.mpr (.inr ⟨_, rfl, hv⟩))
      | array _ hv huv => exact .array ht' hv (ih huv ht.2 ht')

theorem Below.isReference (hclasses : g.ClassBases) (h : g.Sound) (htu : g.Below t u)
    (ht : g.Knows t) (href : t.isReference = true) : u.isReference = true := by
  cases htu with
  | object => rfl
  | interface hu => exact Ty.isReference_of_isInterface hu
  | base hu =>
      rcases hclasses.isClass_of_mem_ancestors h ht href hu with rfl | hclass
      · exact href
      · exact Ty.isReference_of_isClass hclass
  | array => rfl

theorem conforms_iff (href : t.isReference = true) :
    g.conforms t u = true ↔
      u.referent? = none ∧ (u.name = Ty.objectName.text ∨ g.inherits t u = true) := by
  unfold conforms
  cases u.referent? with
  | none => simp [href]
  | some referent => simp

/-- Apart from two arrays, assignability goes by name and by inheritance. -/
theorem isAssignable_iff_conforms (h : t.element? = none ∨ u.element? = none) :
    g.isAssignable t u = true ↔ t = u ∨ g.conforms t u = true := by
  cases t with
  | array | bareArray =>
      rcases h with h | h
      · cases h
      · simp [isAssignable, h]
  | _ => simp [isAssignable]

theorem Sound.below_of_conforms (h : g.Sound) (hu : g.Knows u) (href : t.isReference = true)
    (hconforms : g.conforms t u = true) : g.Below t u := by
  obtain ⟨hreferent, hname | hinherits⟩ := (conforms_iff href).mp hconforms
  · cases h.eq_object hu hreferent hname
    exact .object t
  · have hpath := inherits_iff.mp hinherits
    split at hpath
    · rename_i hinterface
      exact .interface hinterface hpath
    · exact .base hpath

theorem ClassBases.isReference_of_isAssignable (hclasses : g.ClassBases) (h : g.Sound)
    (ht : g.Knows t) (hu : g.Knows u) (href : t.isReference = true)
    (hassignable : g.isAssignable t u = true) : u.isReference = true := by
  cases helement : u.element? with
  | some element =>
      cases u with
      | array | bareArray => rfl
      | _ => cases helement
  | none =>
      rcases (isAssignable_iff_conforms (.inr helement)).mp hassignable with rfl | hconforms
      · exact href
      · exact (h.below_of_conforms hu href hconforms).isReference hclasses h ht href

theorem Tame.conforms_of_below (htame : g.Tame) (h : g.Sound) (ht : g.Knows t)
    (href : t.isReference = true) (hne : t ≠ u) (hnotArrays : t.element? = none ∨ u.element? = none)
    (hbelow : g.Below t u) : g.conforms t u = true := by
  refine (conforms_iff href).mpr ?_
  cases hbelow with
  | object => exact ⟨rfl, .inl rfl⟩
  | interface hu hleads =>
      refine ⟨Ty.referent?_of_isReference (Ty.isReference_of_isInterface hu), .inr ?_⟩
      rw [inherits_iff, if_pos hu]
      exact hleads
  | base hu =>
      rcases htame.classes.isClass_of_mem_ancestors h ht href hu with rfl | hclass
      · exact absurd rfl hne
      · refine ⟨Ty.referent?_of_isReference (Ty.isReference_of_isClass hclass), .inr ?_⟩
        rw [inherits_iff, Ty.not_isInterface_of_isClass hclass]
        exact hu
  | array =>
      rcases hnotArrays with helement | helement
      · cases helement
      · cases helement

theorem isAssignable_array {element base element' base' : Ty} :
    g.isAssignable (.array element base) (.array element' base') = true ↔
      Ty.array element base = .array element' base' ∨
        element.isReference = true ∧ element'.isReference = true ∧
          g.isAssignable element element' = true := by
  simp [isAssignable, Ty.element?, and_assoc]

/-- Arrays of arrays go by their innermost elements. -/
theorem isAssignable_nested (ht : t.isReference = true) (hu : u.isReference = true) (n : Nat) :
    g.isAssignable (Ty.arrayOf^[n] t) (Ty.arrayOf^[n] u) = g.isAssignable t u := by
  have href : ∀ {v : Ty} (n : Nat), v.isReference = true → (Ty.arrayOf^[n] v).isReference = true := by
    intro v n hv
    cases n with
    | zero => exact hv
    | succ n =>
        rw [Function.iterate_succ_apply']
        rfl
  induction n with
  | zero => rfl
  | succ n ih =>
      rw [← ih, Bool.eq_iff_iff, Function.iterate_succ_apply', Function.iterate_succ_apply',
        Ty.arrayOf, Ty.arrayOf, isAssignable_array]
      simp only [href n ht, href n hu, true_and]
      constructor
      · rintro (heq | hassignable)
        · rw [(Ty.array.inj heq).1]
          exact isAssignable_self g _
        · exact hassignable
      · exact .inr

theorem isAssignable_iff_below_of_not_arrays (htame : g.Tame) (h : g.Sound) (ht : g.Knows t)
    (hu : g.Knows u) (href : t.isReference = true)
    (hnotArrays : t.element? = none ∨ u.element? = none) :
    g.isAssignable t u = true ↔ g.Below t u := by
  rw [isAssignable_iff_conforms hnotArrays]
  constructor
  · rintro (rfl | hconforms)
    · exact .refl t
    · exact h.below_of_conforms hu href hconforms
  · intro hbelow
    by_cases heq : t = u
    · exact .inl heq
    · exact .inr (htame.conforms_of_below h ht href heq hnotArrays hbelow)

/-- Assignability of references is subtyping. -/
theorem isAssignable_iff_below (htame : g.Tame) (h : g.Sound) (ht : g.Knows t) (hu : g.Knows u)
    (href : t.isReference = true) : g.isAssignable t u = true ↔ g.Below t u := by
  induction t generalizing u with
  | array element base ih _ =>
      cases hother : u.element? with
      | none => exact isAssignable_iff_below_of_not_arrays htame h ht hu href (.inr hother)
      | some other =>
          cases u with
          | array element' base' =>
              obtain ⟨rfl, helement⟩ := ht
              obtain ⟨rfl, helement'⟩ := hu
              rw [isAssignable_array]
              constructor
              · rintro (heq | ⟨href, href', hassignable⟩)
                · rw [heq]
                  exact .refl _
                · exact .array href href' ((ih helement helement' href).mp hassignable)
              · intro hbelow
                cases hbelow with
                | interface hinterface => cases hinterface
                | base hmem =>
                    have hknown : g.Knows (.arrayOf element) := ⟨rfl, helement⟩
                    rcases htame.classes.isClass_of_mem_ancestors h hknown rfl hmem with heq | hclass
                    · exact .inl heq.symm
                    · cases hclass
                | array href href' hbelow =>
                    exact .inr ⟨href, href', (ih helement helement' href).mpr hbelow⟩
          | bareArray => exact hu.elim
          | _ => cases hother
  | bareArray => exact ht.elim
  | byRef | pointer => cases href
  | _ => exact isAssignable_iff_below_of_not_arrays htame h ht hu href (.inl rfl)

theorem isAssignable_trans (htame : g.Tame) (h : g.Sound) (ht : g.Knows t) (hu : g.Knows u)
    (hv : g.Knows v) (href : t.isReference = true) (htu : g.isAssignable t u = true)
    (huv : g.isAssignable u v = true) : g.isAssignable t v = true := by
  have hbelow := (isAssignable_iff_below htame h ht hu href).mp htu
  have href' := htame.classes.isReference_of_isAssignable h ht hu href htu
  have hbelow' := (isAssignable_iff_below htame h hu hv href').mp huv
  exact (isAssignable_iff_below htame h ht hv href).mpr (hbelow.trans htame h hbelow' ht href)

end

end Graph

end ManagedCode
