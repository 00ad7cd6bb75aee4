import ManagedCode.Graph.Library
import ManagedCode.Proofs.Graph.Paths
import Mathlib.Data.List.Nodup

namespace ManagedCode

/-! Graphs that are built on top of the library, and what holds of all of them. -/

namespace Ty

/-- The types that a type is directly made of. -/
def parts : Ty → List Ty
  | object | interface _ => []
  | subclass _ base _ | struct _ base | primitive _ base => [base]
  | enum _ base underlying => [base, underlying]
  | array element base => [element, base]
  | bareArray t | byRef t | pointer t => [t]

/-- Types that are added to a graph by a declaration. -/
def isDeclarable : Ty → Bool
  | subclass _ _ _ | interface _ | struct _ _ | enum _ _ _ => true
  | _ => false

end Ty

namespace Graph

inductive Built : Graph → Prop where
  | library : Built .library
  | declare {g : Graph} {t : Ty} : Built g → t.isDeclarable = true →
      (∀ u ∈ t.parts, u ∈ g.types) → Built (g.declare t).2
  | arrayOf {g : Graph} {t : Ty} : Built g → t ∈ g.types → Built (g.arrayOf t).2
  | byRef {g : Graph} {t : Ty} : Built g → t ∈ g.types → Built (g.byRef t).2
  | pointerTo {g : Graph} {t : Ty} : Built g → t ∈ g.types → Built (g.pointerTo t).2
  | addInterface {g : Graph} {t i : Ty} : Built g → t ∈ g.types → i ∈ g.types →
      Built (g.addInterface t i)
  | addMethod {g : Graph} {m : Method} : Built g → Built (g.addMethod m).2
  | addField {g : Graph} {f : Field} : Built g → Built (g.addField f).2

/-- What all of these graphs have in common. -/
structure Sound (g : Graph) : Prop where
  library : ∀ t ∈ Graph.library.types, t ∈ g.types
  names : (g.types.map Ty.name).Nodup
  parts : ∀ t ∈ g.types, ∀ u ∈ t.parts, u ∈ g.types
  arrays : ∀ t ∈ g.types, ∀ element ∈ t.element?, t = .arrayOf element
  interfaces : ∀ e ∈ g.entries, ∀ i ∈ e.interfaces, i ∈ g.types

/-- The types of the library with their interfaces, in the order of their declarations. -/
def libraryTable : List (Ty × List Ty) :=
  let values : List Ty := [.interface .comparable, .interface .convertible]
  let collections : List Ty := [.interface .cloneable, .interface .enumerable]
  [(.object, []), (.valueType, []), (.enumBase, values), (.string, values ++ collections),
    (.arrayBase, collections), (.subclass .type .object .abstractBit, []), (.exception, []),
    (.subclass .systemException .exception .none, []),
    (.subclass .invalidOperation (.subclass .systemException .exception .none) .none, []),
    (.subclass .badArgument (.subclass .systemException .exception .none) .none, []),
    (.subclass .nullReference (.subclass .systemException .exception .none) .none, []),
    (.boolean, values), (.char, values), (.sbyte, values), (.byte, values), (.int16, values),
    (.uint16, values), (.int32, values), (.uint32, values), (.int64, values), (.uint64, values),
    (.intPtr, []), (.uintPtr, []), (.single, values), (.double, values), (.typeHandle, []),
    (.methodHandle, []), (.fieldHandle, []), (.interface .comparable, []),
    (.interface .convertible, []), (.interface .disposable, []), (.interface .cloneable, []),
    (.interface .enumerable, [])]

def libraryTypes : List Ty := libraryTable.map Prod.fst

theorem library_table :
    Graph.library.entries.map (fun e => (e.type, e.interfaces)) = libraryTable := by
  decide +kernel

theorem library_types : Graph.library.types = libraryTypes := by
  rw [libraryTypes, ← library_table, List.map_map]
  rfl

/-- What holds of the whole table holds of all interfaces in the library. -/
theorem library_interfaces {P : Ty → Ty → Prop} (h : ∀ row ∈ libraryTable, ∀ i ∈ row.2, P row.1 i)
    {e : Entry} (he : e ∈ Graph.library.entries) {i : Ty} (hi : i ∈ e.interfaces) : P e.type i := by
  have hrow : (e.type, e.interfaces) ∈ libraryTable := by
    rw [← library_table]
    exact List.mem_map_of_mem he
  exact h _ hrow i hi

theorem sound_library : Graph.library.Sound where
  library _ h := h
  names := by
    rw [library_types]
    decide +kernel
  parts := by
    rw [library_types]
    decide +kernel
  arrays := by
    rw [library_types]
    decide +kernel
  interfaces := by
    have hrows : ∀ row ∈ libraryTable, ∀ i ∈ row.2, i ∈ libraryTypes := by decide +kernel
    intro e he i hi
    rw [library_types]
    exact library_interfaces (P := fun _ i => i ∈ libraryTypes) hrows he hi

section

variable {g : Graph} {t u : Ty}

theorem Sound.mem_of_library (h : g.Sound) (ht : t ∈ libraryTypes) : t ∈ g.types :=
  h.library t (library_types ▸ ht)

theorem lookup_of_names (hnames : (g.types.map Ty.name).Nodup) (ht : t ∈ g.types) :
    g.lookup t.name = some t := by
  unfold Graph.lookup
  cases hfound : g.types.find? (·.name == t.name) with
  | none =>
      have hmissing := List.find?_eq_none.mp hfound t ht
      simp at hmissing
  | some u =>
      have hu : u ∈ g.types := List.mem_of_find?_eq_some hfound
      have hname : u.name = t.name := by simpa using List.find?_some hfound
      exact congrArg some (List.inj_on_of_nodup_map hnames hu ht hname)

theorem Sound.lookup (h : g.Sound) (ht : t ∈ g.types) : g.lookup t.name = some t :=
  lookup_of_names h.names ht

theorem declare_cases (g : Graph) (t : Ty) :
    (t.name ∉ g.types.map Ty.name ∧ (g.declare t).2 = ⟨g.entries ++ [.ofType t]⟩) ∨
      (g.declare t).2 = g := by
  unfold declare
  cases hlookup : g.lookup t.name with
  | some known => exact .inr rfl
  | none =>
      refine .inl ⟨?_, rfl⟩
      intro hname
      obtain ⟨u, hu, hname⟩ := List.mem_map.mp hname
      have hmissing := List.find?_eq_none.mp hlookup u hu
      simp [hname] at hmissing

theorem types_append (g : Graph) (t : Ty) :
    Graph.types ⟨g.entries ++ [.ofType t]⟩ = g.types ++ [t] := by
  simp [Graph.types, Entry.ofType]

theorem types_declare (g : Graph) (t : Ty) :
    (t.name ∉ g.types.map Ty.name ∧ (g.declare t).2.types = g.types ++ [t]) ∨
      (g.declare t).2.types = g.types := by
  rcases declare_cases g t with ⟨hname, hnew⟩ | hsame
  · exact .inl ⟨hname, hnew ▸ types_append g t⟩
  · exact .inr (congrArg types hsame)

theorem types_subset_declare (g : Graph) (t : Ty) : g.types ⊆ (g.declare t).2.types := by
  intro u hu
  rcases types_declare g t with ⟨-, hnew⟩ | hsame
  · rw [hnew]
    exact List.mem_append_left _ hu
  · rw [hsame]
    exact hu

theorem mem_types_declare (hu : u ∈ (g.declare t).2.types) : u ∈ g.types ∨ u = t := by
  rcases types_declare g t with ⟨-, hnew⟩ | hsame
  · rw [hnew] at hu
    simpa using hu
  · rw [hsame] at hu
    exact .inl hu

theorem names_declare (hnames : (g.types.map Ty.name).Nodup) :
    ((g.declare t).2.types.map Ty.name).Nodup := by
  rcases types_declare g t with ⟨hname, hnew⟩ | hsame
  · rw [hnew, List.map_append]
    refine List.nodup_append.mpr ⟨hnames, List.nodup_singleton _, ?_⟩
    intro name hknown name' hnew' heq
    cases List.mem_singleton.mp hnew'
    exact hname (heq ▸ hknown)
  · rw [hsame]
    exact hnames

theorem Sound.declare (h : g.Sound) (hparts : ∀ u ∈ t.parts, u ∈ g.types)
    (harray : ∀ element ∈ t.element?, t = .arrayOf element) : (g.declare t).2.Sound := by
  have hgrown := types_subset_declare g t
  refine ⟨?_, names_declare h.names, ?_, ?_, ?_⟩
  · exact fun u hu => hgrown (h.library u hu)
  · intro u hu v hv
    rcases mem_types_declare hu with hu | rfl
    · exact hgrown (h.parts u hu v hv)
    · exact hgrown (hparts v hv)
  · intro u hu element helement
    rcases mem_types_declare hu with hu | rfl
    · exact h.arrays u hu element helement
    · exact harray element helement
  · intro e he i hi
    rcases declare_cases g t with ⟨-, hnew⟩ | hsame
    · rw [hnew] at he
      rcases List.mem_append.mp he with he | he
      · exact hgrown (h.interfaces e he i hi)
      · cases List.mem_singleton.mp he
        cases hi
    · rw [hsame] at he
      exact hgrown (h.interfaces e he i hi)

theorem Sound.arrayType (h : g.Sound) (t : Ty) : g.arrayType t = .arrayOf t := by
  have hbase : Ty.arrayBase ∈ g.types := h.mem_of_library (by decide)
  rw [Graph.arrayType, h.lookup hbase]
  rfl

theorem types_update {change : Entry → Entry} (htype : ∀ e, (change e).type = e.type) :
    (g.update t change).types = g.types := by
  unfold update Graph.types
  rw [List.map_map]
  apply List.map_congr_left
  intro e _
  by_cases he : e.type = t
  · simp [he, htype]
  · simp [he]

@[simp] theorem types_addInterface (g : Graph) (t i : Ty) : (g.addInterface t i).types = g.types := by
  unfold addInterface
  split
  · rfl
  · exact types_update fun _ => rfl

@[simp] theorem types_addMethod (g : Graph) (m : Method) : (g.addMethod m).2.types = g.types := by
  unfold addMethod
  split
  · rfl
  · exact types_update fun _ => rfl

@[simp] theorem types_addField (g : Graph) (f : Field) : (g.addField f).2.types = g.types := by
  unfold addField
  split
  · rfl
  · exact types_update fun _ => rfl

theorem Sound.update (h : g.Sound) {change : Entry → Entry}
    (htype : ∀ e, (change e).type = e.type)
    (hinterfaces : ∀ e, ∀ i ∈ (change e).interfaces, i ∈ e.interfaces ∨ i ∈ g.types) :
    (g.update t change).Sound := by
  have htypes : (g.update t change).types = g.types := types_update htype
  refine ⟨?_, ?_, ?_, ?_, ?_⟩
  · rw [htypes]
    exact h.library
  · rw [htypes]
    exact h.names
  · rw [htypes]
    exact h.parts
  · rw [htypes]
    exact h.arrays
  · rw [htypes]
    intro e he i hi
    obtain ⟨known, hknown, rfl⟩ := List.mem_map.mp he
    split at hi
    · rcases hinterfaces known i hi with hi | hi
      · exact h.interfaces known hknown i hi
      · exact hi
    · exact h.interfaces known hknown i hi

theorem Built.sound (h : g.Built) : g.Sound := by
  induction h with
  | library => exact sound_library
  | @declare g t _ hkind hparts ih =>
      refine ih.declare hparts fun element helement => ?_
      cases t with
      | subclass | interface | struct | enum => cases helement
      | object | primitive | array | bareArray | byRef | pointer => cases hkind
  | @arrayOf g t _ ht ih =>
      rw [Graph.arrayOf, ih.arrayType]
      refine ih.declare ?_ ?_
      · intro u hu
        rcases List.mem_cons.mp hu with rfl | hu
        · exact ht
        · cases List.mem_singleton.mp hu
          exact ih.mem_of_library (by decide)
      · intro element helement
        cases helement
        rfl
  | @byRef g t _ ht ih =>
      refine ih.declare ?_ nofun
      intro u hu
      cases List.mem_singleton.mp hu
      exact ht
  | @pointerTo g t _ ht ih =>
      refine ih.declare ?_ nofun
      intro u hu
      cases List.mem_singleton.mp hu
      exact ht
  | @addInterface g t i _ _ hi ih =>
      unfold Graph.addInterface
      split
      · exact ih
      · refine ih.update (fun _ => rfl) fun e j hj => ?_
        rcases List.mem_append.mp hj with hj | hj
        · exact .inl hj
        · cases List.mem_singleton.mp hj
          exact .inr hi
  | @addMethod g m _ ih =>
      unfold Graph.addMethod
      split
      · exact ih
      · exact ih.update (fun _ => rfl) fun _ _ hi => .inl hi
  | @addField g f _ ih =>
      unfold Graph.addField
      split
      · exact ih
      · exact ih.update (fun _ => rfl) fun _ _ hi => .inl hi

end

/-- A type of the graph, or one that is made of such types. -/
def Knows (g : Graph) : Ty → Prop
  | .array element base => base = .arrayBase ∧ g.Knows element
  | .bareArray _ => False
  | .byRef t | .pointer t => g.Knows t
  | t => t ∈ g.types

namespace Sound

variable {g : Graph} {t u : Ty}

theorem knows (h : g.Sound) (ht : t ∈ g.types) : g.Knows t := by
  induction t with
  | object | subclass | interface | struct | enum | primitive => exact ht
  | array element base ih _ =>
      cases h.arrays _ ht element rfl
      exact ⟨rfl, ih (h.parts _ ht element (by simp [Ty.parts]))⟩
  | bareArray element => cases h.arrays _ ht element rfl
  | byRef t ih | pointer t ih => exact ih (h.parts _ ht t (by simp [Ty.parts]))

theorem knows_library (h : g.Sound) (ht : t ∈ libraryTypes) : g.Knows t :=
  h.knows (h.mem_of_library ht)

theorem knows_object (h : g.Sound) : g.Knows .object :=
  h.knows_library (by decide)

theorem knows_base (h : g.Sound) (ht : g.Knows t) (hbase : t.base? = some u) : g.Knows u := by
  cases t with
  | object | interface | bareArray | byRef | pointer => cases hbase
  | subclass | struct | enum | primitive =>
      cases hbase
      exact h.knows (h.parts _ ht _ (by simp [Ty.parts]))
  | array element base =>
      cases hbase
      rw [ht.1]
      exact h.knows_library (by decide)

theorem knows_underlying (h : g.Sound) (ht : g.Knows t) (hu : t.underlying? = some u) :
    g.Knows u := by
  cases t with
  | enum name base underlying =>
      cases hu
      exact h.knows (h.parts _ ht _ (by simp [Ty.parts]))
  | _ => cases hu

theorem knows_interface (h : g.Sound) (hu : u ∈ g.interfaces t) : g.Knows u := by
  obtain ⟨e, he, -, hu⟩ := exists_entry hu
  exact h.knows (h.interfaces e he u hu)

end Sound

theorem Knows.element {g : Graph} {t u : Ty} (ht : g.Knows t) (hu : t.element? = some u) :
    g.Knows u := by
  cases t with
  | array element base =>
      cases hu
      exact ht.2
  | bareArray => exact ht.elim
  | _ => cases hu

end Graph

end ManagedCode
