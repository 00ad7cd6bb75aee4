import ManagedCode.Proofs.Graph.Built

namespace ManagedCode

/-! A type is found again by its name, at whatever moment the library is added. -/

namespace Construct

def suffix : Construct → String
  | array => "[]"
  | byRef => "&"
  | pointer => "*"

-- No suffix ends like another one.
theorem append_suffix_inj {c d : Construct} {text other : String}
    (h : text ++ c.suffix = other ++ d.suffix) : c = d ∧ text = other := by
  have hlast := congrArg (fun s : String => s.toList.getLast?) h
  have hsame : c = d := by
    cases c <;> cases d <;> simp [suffix] at hlast ⊢
  subst hsame
  exact ⟨rfl, (String.append_left_inj _).mp h⟩

end Construct

theorem TypeName.text_ne_append_suffix (name : TypeName) (text : String) (c : Construct) :
    name.text ≠ text ++ c.suffix := by
  intro h
  have hvalid := name.valid
  have hreserved : name.text.toList.any TypeName.reserved = true := by
    rw [h, String.toList_append, List.any_append]
    cases c <;> simp [Construct.suffix, TypeName.reserved]
  unfold TypeName.fault? at hvalid
  simp only [hreserved] at hvalid
  split at hvalid <;> cases hvalid

namespace Ty

variable {t u : Ty} {c : Construct}

def constructed? : Ty → Option (Construct × Ty)
  | array element _ | bareArray element => some (.array, element)
  | byRef referent => some (.byRef, referent)
  | pointer referent => some (.pointer, referent)
  | object | subclass _ _ _ | interface _ | struct _ _ | enum _ _ _ | primitive _ _ => none

theorem name_of_constructed? (h : t.constructed? = some (c, u)) : t.name = u.name ++ c.suffix := by
  cases t with
  | array | bareArray | byRef | pointer => cases h; rfl
  | object | subclass | interface | struct | enum | primitive => cases h

theorem mem_parts_of_constructed? (h : t.constructed? = some (c, u)) : u ∈ t.parts := by
  cases t with
  | array | bareArray | byRef | pointer => cases h; exact List.mem_cons_self
  | object | subclass | interface | struct | enum | primitive => cases h

theorem exists_typeName (h : t.constructed? = none) : ∃ name : TypeName, t.name = name.text := by
  cases t with
  | object => exact ⟨objectName, rfl⟩
  | subclass name | interface name | struct name | enum name => exact ⟨name, rfl⟩
  | primitive kind => exact ⟨kind.typeName, rfl⟩
  | array | bareArray | byRef | pointer => cases h

/-- A name with a suffix is the name of what the suffix stands for. -/
theorem constructed?_of_name {text : String} (h : t.name = text ++ c.suffix) :
    ∃ u, t.constructed? = some (c, u) ∧ u.name = text := by
  cases hconstructed : t.constructed? with
  | none =>
      obtain ⟨name, hname⟩ := exists_typeName hconstructed
      exact absurd (hname.symm.trans h) (name.text_ne_append_suffix text c)
  | some made =>
      obtain ⟨d, u⟩ := made
      have hname := name_of_constructed? hconstructed
      obtain ⟨rfl, htext⟩ := Construct.append_suffix_inj (hname.symm.trans h)
      exact ⟨u, rfl, htext⟩

end Ty

namespace Graph

variable {g g' : Graph} {t u v : Ty} {c d : Construct}

theorem construct_eq (g : Graph) (c : Construct) (t : Ty) :
    ∃ u, g.construct c t = g.declare u ∧ u.constructed? = some (c, t) := by
  cases c with
  | array =>
      refine ⟨g.arrayType t, rfl, ?_⟩
      unfold arrayType
      split <;> rfl
  | byRef => exact ⟨.byRef t, rfl, rfl⟩
  | pointer => exact ⟨.pointer t, rfl, rfl⟩

theorem name_declare (g : Graph) (t : Ty) : (g.declare t).1.name = t.name := by
  unfold declare
  cases hlookup : g.lookup t.name with
  | none => rfl
  | some known => simpa using List.find?_some hlookup

theorem declared_mem (g : Graph) (t : Ty) : (g.declare t).1 ∈ (g.declare t).2.types := by
  unfold declare
  cases hlookup : g.lookup t.name with
  | none =>
      rw [types_append]
      exact List.mem_append_right _ (List.mem_singleton_self t)
  | some known => exact List.mem_of_find?_eq_some hlookup

theorem declared_cases (g : Graph) (t : Ty) : (g.declare t).1 = t ∨ (g.declare t).1 ∈ g.types := by
  unfold declare
  cases hlookup : g.lookup t.name with
  | none => exact .inl rfl
  | some known => exact .inr (List.mem_of_find?_eq_some hlookup)

theorem exists_entry?_of_mem (ht : t ∈ g.types) : ∃ e, g.entry? t = some e ∧ e.type = t := by
  cases hfound : g.entries.find? (·.type = t) with
  | none =>
      obtain ⟨e, he, htype⟩ := List.mem_map.mp ht
      have hmissing := List.find?_eq_none.mp hfound e he
      simp [htype] at hmissing
  | some e => exact ⟨e, hfound, by simpa using List.find?_some hfound⟩

-- A new type is appended, and so its entry hides none.
theorem entry?_declare (ht : t ∈ g.types) (u : Ty) : entry? (g.declare u).2 t = g.entry? t := by
  rcases declare_cases g u with ⟨-, hnew⟩ | hsame
  · obtain ⟨e, he, -⟩ := exists_entry?_of_mem ht
    rw [hnew, he, entry?, List.find?_append]
    exact congrArg (Option.or · _) he
  · rw [hsame]

/-- No two types have the same name, and what an array, a by-ref or a pointer is made of is there
itself. -/
structure Interned (g : Graph) : Prop where
  names : (g.types.map Ty.name).Nodup
  referents : ∀ {t c u}, t ∈ g.types → t.constructed? = some (c, u) → u ∈ g.types

namespace Interned

theorem eq_of_name (h : g.Interned) (ht : t ∈ g.types) (hu : u ∈ g.types)
    (hname : t.name = u.name) : t = u :=
  List.inj_on_of_nodup_map h.names ht hu hname

theorem lookup (h : g.Interned) (ht : t ∈ g.types) : g.lookup t.name = some t :=
  lookup_of_names h.names ht

theorem declare (h : g.Interned)
    (hreferent : ∀ {c u}, t.constructed? = some (c, u) → u ∈ g.types) :
    (g.declare t).2.Interned where
  names := names_declare h.names
  referents := by
    intro u c v hu hv
    rcases mem_types_declare hu with hu | rfl
    · exact types_subset_declare g t (h.referents hu hv)
    · exact types_subset_declare g u (hreferent hv)

theorem constructed?_construct (h : g.Interned) (c : Construct) (ht : t ∈ g.types) :
    (g.construct c t).1.constructed? = some (c, t) := by
  obtain ⟨u, hrun, hu⟩ := construct_eq g c t
  rw [hrun]
  rcases declared_cases g u with hnew | hknown
  · rw [hnew, hu]
  · have hname : (g.declare u).1.name = t.name ++ c.suffix := by
      rw [name_declare, Ty.name_of_constructed? hu]
    obtain ⟨v, hv, hvname⟩ := Ty.constructed?_of_name hname
    rw [hv, h.eq_of_name (h.referents hknown hv) ht hvname]

end Interned

theorem name_construct (g : Graph) (c : Construct) (t : Ty) :
    (g.construct c t).1.name = t.name ++ c.suffix := by
  obtain ⟨u, hrun, hu⟩ := construct_eq g c t
  rw [hrun, name_declare, Ty.name_of_constructed? hu]

theorem constructed_mem (g : Graph) (c : Construct) (t : Ty) :
    (g.construct c t).1 ∈ (g.construct c t).2.types := by
  obtain ⟨u, hrun, -⟩ := construct_eq g c t
  rw [hrun]
  exact declared_mem g u

theorem entry?_construct (hu : u ∈ g.types) (c : Construct) (t : Ty) :
    entry? (g.construct c t).2 u = g.entry? u := by
  obtain ⟨v, hrun, -⟩ := construct_eq g c t
  rw [hrun, entry?_declare hu]

structure Preserves (g g' : Graph) : Prop where
  interned : g.Interned → g'.Interned
  types : g.types ⊆ g'.types

namespace Preserves

theorem refl (g : Graph) : g.Preserves g :=
  ⟨id, List.Subset.refl _⟩

theorem trans {g g' g'' : Graph} (h : g.Preserves g') (h' : g'.Preserves g'') :
    g.Preserves g'' :=
  ⟨h'.interned ∘ h.interned, List.Subset.trans h.types h'.types⟩

theorem of_types (h : g'.types = g.types) : g.Preserves g' where
  interned hg := by
    refine ⟨?_, ?_⟩
    · rw [h]
      exact hg.names
    · rw [h]
      exact hg.referents
  types := by
    rw [h]
    exact List.Subset.refl _

end Preserves

theorem preserves_declare (hreferent : ∀ {c u}, t.constructed? = some (c, u) → u ∈ g.types) :
    g.Preserves (g.declare t).2 :=
  ⟨fun h => h.declare hreferent, types_subset_declare g t⟩

/-- What a graph is made by, one step at a time. -/
inductive Edit (g : Graph) : Graph → Prop where
  | declare {t : Ty} : (∀ {c u}, t.constructed? = some (c, u) → u ∈ g.types) → Edit g (g.declare t).2
  | addInterface (t i : Ty) : Edit g (g.addInterface t i)
  | addMethod (m : Method) : Edit g (g.addMethod m).2
  | addField (f : Field) : Edit g (g.addField f).2

abbrev Edits : Graph → Graph → Prop := Relation.ReflTransGen Edit

theorem Edit.preserves (h : g.Edit g') : g.Preserves g' := by
  cases h with
  | declare hreferent => exact preserves_declare hreferent
  | addInterface t i => exact .of_types (types_addInterface g t i)
  | addMethod m => exact .of_types (types_addMethod g m)
  | addField f => exact .of_types (types_addField g f)

namespace Build

variable {α β : Type}

def Keeps (x : Build α) : Prop :=
  ∀ g : Graph, g.Edits (x.run g).2

theorem Keeps.bind {x : Build α} {f : α → Build β} (hx : Keeps x) (hf : ∀ a, Keeps (f a)) :
    Keeps (x >>= f) :=
  fun g => (hx g).trans (hf _ _)

theorem keeps_pure (a : α) : Keeps (pure a) :=
  fun _ => .refl

theorem keeps_forIn {body : α → β → Build (ForInStep β)} (items : List α) (start : β)
    (h : ∀ item state, Keeps (body item state)) : Keeps (forIn items start body) := by
  induction items generalizing start with
  | nil => exact keeps_pure start
  | cons item rest ih =>
      rw [List.forIn_cons]
      refine .bind (h item start) fun step => ?_
      cases step with
      | done state => exact keeps_pure state
      | yield state => exact ih state

theorem keeps_type (ht : t.constructed? = none) : Keeps (type t) := by
  refine fun g => .single (.declare fun hconstructed => ?_)
  rw [ht] at hconstructed
  cases hconstructed

theorem keeps_implement (t i : Ty) : Keeps (implement t i) :=
  fun _ => .single (.addInterface t i)

theorem keeps_method (m : Method) : Keeps (method m) :=
  fun _ => .single (.addMethod m)

theorem keeps_field (f : Field) : Keeps (field f) :=
  fun _ => .single (.addField f)

theorem keeps_subclass (name : TypeName) (base : Ty) (attributes : TypeAttributes) :
    Keeps (subclass name base attributes) :=
  keeps_type rfl

theorem keeps_instanceMethod (declaring : Ty) (name : MemberName) (parameters : List Ty)
    (result : Option Ty) (attributes : MethodAttributes) :
    Keeps (instanceMethod declaring name parameters result attributes) :=
  keeps_method _

theorem keeps_staticMethod (declaring : Ty) (name : MemberName) (parameters : List Ty)
    (result : Option Ty) : Keeps (staticMethod declaring name parameters result) :=
  keeps_method _

theorem keeps_buildLibrary : Keeps buildLibrary := by
  unfold buildLibrary
  repeat' with_reducible first
    | apply Keeps.bind
    | apply keeps_pure
    | apply keeps_forIn
    | apply keeps_subclass
    | apply keeps_type
    | apply keeps_implement
    | apply keeps_method
    | apply keeps_field
    | apply keeps_instanceMethod
    | apply keeps_staticMethod
    | intro _
  all_goals rfl

end Build

theorem edits_insertLibrary (g : Graph) : g.Edits g.insertLibrary :=
  Build.keeps_buildLibrary g

/-- Whatever a caller does with a graph. -/
inductive Change : Graph → Graph → Prop where
  | insertLibrary {g : Graph} : Change g g.insertLibrary
  | declare {g : Graph} {t : Ty} : t.isDeclarable = true → (∀ u ∈ t.parts, u ∈ g.types) →
      Change g (g.declare t).2
  | construct {g : Graph} {c : Construct} {t : Ty} : t ∈ g.types → Change g (g.construct c t).2
  | addInterface {g : Graph} {t i : Ty} : t ∈ g.types → i ∈ g.types → Change g (g.addInterface t i)
  | addMethod {g : Graph} {m : Method} : Change g (g.addMethod m).2
  | addField {g : Graph} {f : Field} : Change g (g.addField f).2

def Grows : Graph → Graph → Prop :=
  Relation.ReflTransGen Change

theorem edits_construct (c : Construct) (ht : t ∈ g.types) : g.Edits (g.construct c t).2 := by
  obtain ⟨u, hrun, hu⟩ := construct_eq g c t
  rw [hrun]
  refine .single (.declare fun hv => ?_)
  cases hu.symm.trans hv
  exact ht

theorem Change.edits (h : g.Change g') : g.Edits g' := by
  cases h with
  | insertLibrary => exact edits_insertLibrary g
  | @declare t hkind hparts =>
      exact .single (.declare fun hu => hparts _ (Ty.mem_parts_of_constructed? hu))
  | @construct c t ht => exact edits_construct c ht
  | @addInterface t i => exact .single (.addInterface t i)
  | @addMethod m => exact .single (.addMethod m)
  | @addField f => exact .single (.addField f)

theorem Grows.edits (h : g.Grows g') : g.Edits g' := by
  induction h with
  | refl => exact .refl
  | tail _ hlast ih => exact ih.trans hlast.edits

theorem preserves_edits (h : g.Edits g') : g.Preserves g' := by
  induction h with
  | refl => exact .refl g
  | tail _ hlast ih => exact ih.trans hlast.preserves

theorem preserves_construct (c : Construct) (ht : t ∈ g.types) :
    g.Preserves (g.construct c t).2 :=
  preserves_edits (edits_construct c ht)

theorem Grows.preserves (h : g.Grows g') : g.Preserves g' :=
  preserves_edits h.edits

theorem interned_empty : Graph.empty.Interned :=
  ⟨List.nodup_nil, nofun⟩

theorem Interned.construct_eq_iff (h : g.Interned) (ht : t ∈ g.types)
    (hmade : t.constructed? = some (c, u)) (hv : v ∈ g.types) :
    (g.construct d v).1 = t ↔ d = c ∧ v = u := by
  constructor
  · rintro rfl
    cases (h.constructed?_construct d hv).symm.trans hmade
    exact ⟨rfl, rfl⟩
  · rintro ⟨rfl, rfl⟩
    have hgrown := preserves_construct d hv
    refine (hgrown.interned h).eq_of_name (constructed_mem g d v) (hgrown.types ht) ?_
    rw [name_construct, Ty.name_of_constructed? hmade]

theorem declare_ne_of_constructed? (hmade : t.constructed? = some (c, u))
    (hnamed : v.constructed? = none) : (g.declare v).1 ≠ t := by
  rintro rfl
  obtain ⟨name, hname⟩ := Ty.exists_typeName hnamed
  have hsuffix := Ty.name_of_constructed? hmade
  rw [name_declare, hname] at hsuffix
  exact name.text_ne_append_suffix u.name c hsuffix

/-- Names tell types apart and find them again, and the same array, by-ref or pointer is made
again later from the same type, and from no other. What is added leaves alone what is there. -/
theorem types_are_interned (h : empty.Grows g) :
    (g.types.map Ty.name).Nodup ∧
    (∀ t ∈ g.types, ∀ g', g.Grows g' → g'.lookup t.name = some t) ∧
    (∀ c, ∀ t ∈ g.types, (g.construct c t).1.constructed? = some (c, t) ∧
      (∀ g', (g.construct c t).2.Grows g' → ∀ d, ∀ u ∈ g'.types,
        ((g'.construct d u).1 = (g.construct c t).1 ↔ d = c ∧ u = t)) ∧
      ∀ (g' : Graph) (u : Ty), u.constructed? = none → (g'.declare u).1 ≠ (g.construct c t).1) ∧
    ∀ t ∈ g.types, ∃ e, g.entry? t = some e ∧ e.type = t ∧
      (∀ u, entry? (g.declare u).2 t = some e) ∧ ∀ c u, entry? (g.construct c u).2 t = some e := by
  have hinterned := h.preserves.interned interned_empty
  refine ⟨hinterned.names, ?_, ?_, ?_⟩
  · intro t ht g' hlater
    have hgrown := hlater.preserves
    exact (hgrown.interned hinterned).lookup (hgrown.types ht)
  · intro c t ht
    have hmade := hinterned.constructed?_construct c ht
    refine ⟨hmade, ?_, fun g' u => declare_ne_of_constructed? hmade⟩
    intro g' hlater d u hu
    have hgrown := hlater.preserves
    have hlater' := hgrown.interned ((preserves_construct c ht).interned hinterned)
    exact hlater'.construct_eq_iff (hgrown.types (constructed_mem g c t)) hmade hu
  · intro t ht
    obtain ⟨e, hentry, htype⟩ := exists_entry?_of_mem ht
    refine ⟨e, hentry, htype, fun u => ?_, fun c u => ?_⟩
    · rw [entry?_declare ht, hentry]
    · rw [entry?_construct ht, hentry]

namespace Sample

/-- Declared before the library. -/
def early : Ty := .interface ⟨"Sample.IEarly", by decide⟩

def beforeLibrary : Graph := (empty.declare early).2

def afterLibrary : Graph := (beforeLibrary.construct .array early).2.insertLibrary

end Sample

open Sample in
theorem types_are_interned_before_library :
    (beforeLibrary.construct .array early).1 = .bareArray early ∧
      afterLibrary.lookup "Sample.IEarly[]" = some (.bareArray early) ∧
      (afterLibrary.construct .array early).1 = .bareArray early ∧
      (afterLibrary.construct .byRef early).1 ≠ .bareArray early := by
  have hgrown : empty.Grows beforeLibrary := .single (.declare rfl nofun)
  have hearly : early ∈ beforeLibrary.types := by decide
  have harray : (beforeLibrary.construct .array early).1 = .bareArray early := by decide
  have hconstruct : beforeLibrary.Grows (beforeLibrary.construct .array early).2 :=
    .single (.construct hearly)
  have hlibrary : (beforeLibrary.construct .array early).2.Grows afterLibrary := .single .insertLibrary
  have hearlier : early ∈ afterLibrary.types := (Grows.preserves (hconstruct.trans hlibrary)).types hearly
  obtain ⟨-, -, hmade, -⟩ := types_are_interned hgrown
  obtain ⟨-, hagain, -⟩ := hmade .array early hearly
  obtain ⟨-, hlookup, -⟩ := types_are_interned (hgrown.trans hconstruct)
  rw [harray] at hagain
  refine ⟨harray, ?_, ?_, ?_⟩
  · have hmem : Ty.bareArray early ∈ (beforeLibrary.construct .array early).2.types :=
      harray ▸ constructed_mem beforeLibrary .array early
    exact hlookup _ hmem afterLibrary hlibrary
  · exact (hagain afterLibrary hlibrary .array early hearlier).mpr ⟨rfl, rfl⟩
  · intro hsame
    cases ((hagain afterLibrary hlibrary .byRef early hearlier).mp hsame).1

end Graph

end ManagedCode
