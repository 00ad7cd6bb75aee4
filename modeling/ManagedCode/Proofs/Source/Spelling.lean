import ManagedCode.Proofs.Graph.Grown
import ManagedCode.Proofs.Outcome
import ManagedCode.Source.Resolve

namespace ManagedCode.Source

/-! A spelling is a base and suffixes. The base has no suffix of its own, so it never stands for an
array, a by-ref or a pointer that the graph has been extended with. -/

open Text

def Suffix.construct : Suffix → Construct
  | array => .array
  | byRef => .byRef
  | pointer => .pointer

theorem Suffix.apply_eq (suffix : Suffix) (t : Ty) (g : Graph) :
    suffix.apply t g = g.construct suffix.construct t := by
  cases suffix <;> rfl

/-- Nothing is left of a suffix at the end of the text, which is read from there. -/
theorem takeSuffixes_bare (text : List Char) (suffixes : List Suffix) (c : Construct) :
    ¬ c.suffix.toList.reverse <+: (takeSuffixes text suffixes).1 := by
  fun_induction takeSuffixes text suffixes with
  | case1 => assumption
  | case2 => assumption
  | case3 => assumption
  | case4 => assumption
  | case5 last rest suffixes harray hbyRef hpointer =>
      rintro ⟨more, hmore⟩
      cases c with
      | array =>
          obtain ⟨rfl, rfl⟩ : ']' = last ∧ '[' :: more = rest := List.cons.inj hmore
          exact harray more rfl rfl
      | byRef => exact hbyRef (List.cons.inj hmore).1.symm
      | pointer => exact hpointer (List.cons.inj hmore).1.symm
  | case6 =>
      intro hprefix
      cases c <;> cases List.prefix_nil.mp hprefix

theorem base_bare (text : List Char) (c : Construct) :
    ¬ c.suffix.toList <:+ (Spelling.ofText text).base := by
  intro hsuffix
  have hbase : (Spelling.ofText text).base <:+ (takeSuffixes text.reverse []).1.reverse :=
    List.dropWhile_suffix _
  apply takeSuffixes_bare text.reverse [] c
  rw [← List.reverse_suffix, List.reverse_reverse]
  exact hsuffix.trans hbase

theorem base_ne_append_suffix (text : List Char) (name : String) (c : Construct) :
    String.ofList (Spelling.ofText text).base ≠ name ++ c.suffix := by
  intro h
  apply base_bare text c
  refine ⟨name.toList, ?_⟩
  have hlist := congrArg String.toList h
  rw [String.toList_append, String.toList_ofList] at hlist
  exact hlist.symm

theorem mem_of_lookup {α : Type} {table : List (String × α)} {name : String} {a : α}
    (h : table.lookup name = some a) : (name, a) ∈ table := by
  obtain ⟨before, after, htable, -⟩ := List.lookup_eq_some_iff.mp h
  rw [htable]
  exact List.mem_append_right _ List.mem_cons_self

theorem mem_library_of_keywords {name : String} {t : Ty} (h : keywords.lookup name = some t) :
    t ∈ Graph.library.types := by
  have hall : ∀ entry ∈ keywords, entry.2 ∈ Graph.libraryTypes := by decide
  rw [Graph.library_types]
  exact hall (name, t) (mem_of_lookup h)

/-- The type that a text stands for. -/
def spelled? (text : String) : Option Ty :=
  let spelling := Spelling.ofText text.toList
  (baseType? .library (String.ofList spelling.base)).map fun base =>
    spelling.suffixes.foldl (fun t suffix => suffix.construct.type t) base

section Grown

variable {g : Graph} (h : g.Grown)
include h

theorem baseType?_eq (text : List Char) :
    baseType? g (String.ofList (Spelling.ofText text).base) =
      baseType? .library (String.ofList (Spelling.ofText text).base) := by
  rw [baseType?, baseType?, h.lookup_eq (base_ne_append_suffix text)]

omit h in
theorem mem_library_of_baseType? {name : String} {t : Ty} (ht : baseType? .library name = some t) :
    t ∈ Graph.library.types := by
  rcases Option.or_eq_some_iff.mp ht with hkeyword | ⟨-, hlookup⟩
  · exact mem_library_of_keywords hkeyword
  · unfold Graph.lookup at hlookup
    exact List.mem_of_find?_eq_some hlookup

theorem applySuffixes_grown (suffixes : List Suffix) {t : Ty} (ht : t ∈ g.types) :
    ∃ g' : Graph, g'.Grown ∧ (applySuffixes suffixes t).run.run g =
      (.ok (suffixes.foldl (fun t suffix => suffix.construct.type t) t), g') := by
  induction suffixes generalizing g t with
  | nil => exact ⟨g, h, rfl⟩
  | cons suffix rest ih =>
      have hmade := h.construct_eq suffix.construct ht
      have hmem := Graph.constructed_mem g suffix.construct t
      rw [hmade] at hmem
      obtain ⟨g', hgrown, hrun⟩ := ih (h.construct ht) hmem
      refine ⟨g', hgrown, ?_⟩
      rw [List.foldl_cons, ← hrun, ← hmade, ← suffix.apply_eq]
      rfl

/-- A text stands for the same type in all graphs that files make, or for none in any. -/
theorem resolveType_grown (line : Nat) (text : String) :
    ∃ g' : Graph, g'.Grown ∧ (resolveType line text).run.run g =
      (match spelled? text with
        | some t => .ok t
        | none => .error (.resolve line
            (.unknownType (String.ofList (Spelling.ofText text.toList).base))), g') := by
  unfold resolveType
  rw [Outcome.run_get_bind, baseType?_eq h, spelled?]
  cases hbase : baseType? .library (String.ofList (Spelling.ofText text.toList).base) with
  | none => exact ⟨g, h, rfl⟩
  | some base =>
      have hmem : base ∈ g.types := h.built.sound.library base (mem_library_of_baseType? hbase)
      obtain ⟨g', hgrown, hrun⟩ := applySuffixes_grown h (Spelling.ofText text.toList).suffixes hmem
      refine ⟨g', hgrown, ?_⟩
      simp only [Resolve.orFail, pure_bind, hrun, Option.map_some]

end Grown

end ManagedCode.Source
