import ManagedCode.Proofs.Source.Spelling
import ManagedCode.Proofs.Text.Blank

namespace ManagedCode.Source

/-! A type is found again by its name, and suffixes behind a spelling stand for what is made of the
type that it names. -/

open Text

def Suffix.text (suffix : Suffix) : List Char := suffix.construct.suffix.toList

/-- Suffixes as they are written: there may be blanks before each of them, and behind the last. -/
inductive Written : List Suffix → List Char → Prop where
  | blanks {blanks : List Char} : Blanks blanks → Written [] blanks
  | suffix {blanks tail : List Char} {suffix : Suffix} {suffixes : List Suffix} :
      Blanks blanks → Written suffixes tail →
        Written (suffix :: suffixes) (blanks ++ suffix.text ++ tail)

namespace Written

variable {suffixes more : List Suffix} {tail tail' blanks : List Char}

theorem blanks_append (hblanks : Blanks blanks) (h : Written suffixes tail) :
    Written suffixes (blanks ++ tail) := by
  cases h with
  | blanks h => exact .blanks (hblanks.append h)
  | suffix h htail =>
      rw [← List.append_assoc, ← List.append_assoc]
      exact .suffix (hblanks.append h) htail

theorem append (h : Written suffixes tail) (h' : Written more tail') :
    Written (suffixes ++ more) (tail ++ tail') := by
  induction h with
  | blanks h => exact h'.blanks_append h
  | suffix h _ ih =>
      rw [List.append_assoc]
      exact .suffix h ih

theorem single (suffix : Suffix) : Written [suffix] suffix.text := by
  have h : Written [suffix] ([] ++ suffix.text ++ []) := .suffix blanks_nil (.blanks blanks_nil)
  rwa [List.nil_append, List.append_nil] at h

end Written

theorem takeSuffixes_blank {c : Char} (h : isBlank c = true) (rest : List Char)
    (suffixes : List Suffix) : takeSuffixes (c :: rest) suffixes = takeSuffixes rest suffixes := by
  rw [takeSuffixes.eq_def]
  split
  case h_1 hread | h_2 hread | h_3 hread =>
    cases hread
    cases h
  case h_4 hread =>
    cases hread
    exact if_pos h
  case h_5 hread => cases hread

theorem takeSuffixes_blanks {blanks : List Char} (h : Blanks blanks) (rest : List Char)
    (suffixes : List Suffix) :
    takeSuffixes (blanks ++ rest) suffixes = takeSuffixes rest suffixes := by
  induction blanks with
  | nil => rfl
  | cons c blanks ih =>
      obtain ⟨hc, hblanks⟩ := List.forall_mem_cons.mp h
      rw [List.cons_append, takeSuffixes_blank hc, ih hblanks]

theorem takeSuffixes_suffix (suffix : Suffix) (rest : List Char) (suffixes : List Suffix) :
    takeSuffixes (suffix.text.reverse ++ rest) suffixes =
      takeSuffixes rest (suffix :: suffixes) := by
  cases suffix <;> rfl

theorem takeSuffixes_written {suffixes : List Suffix} {tail : List Char} (h : Written suffixes tail)
    (rest : List Char) (found : List Suffix) :
    takeSuffixes (tail.reverse ++ rest) found = takeSuffixes rest (suffixes ++ found) := by
  induction h generalizing rest with
  | blanks h => exact takeSuffixes_blanks h.reverse rest found
  | @suffix blanks tail suffix suffixes h _ ih =>
      rw [List.reverse_append, List.reverse_append, List.append_assoc, List.append_assoc, ih,
        takeSuffixes_suffix, takeSuffixes_blanks h.reverse, List.cons_append]

theorem takeSuffixes_stop {text : List Char} (hlast : ∀ c ∈ text.getLast?, isBlank c = false)
    (hsuffix : ∀ suffix : Suffix, ¬ suffix.text <:+ text) (found : List Suffix) :
    takeSuffixes text.reverse found = (text.reverse, found) := by
  rw [← List.head?_reverse] at hlast
  cases hreverse : text.reverse with
  | nil => rfl
  | cons c rest =>
      have hstart : ∀ suffix : Suffix, ¬ suffix.text.reverse <+: c :: rest := by
        intro suffix
        rw [← hreverse, List.reverse_prefix]
        exact hsuffix suffix
      have hc : isBlank c = false := hlast c (by simp [hreverse])
      rw [takeSuffixes.eq_def]
      split
      case h_1 hread => exact absurd ⟨_, hread.symm⟩ (hstart .array)
      case h_2 hread => exact absurd ⟨_, hread.symm⟩ (hstart .byRef)
      case h_3 hread => exact absurd ⟨_, hread.symm⟩ (hstart .pointer)
      case h_4 hread =>
        cases hread
        exact if_neg (by simp [hc])
      case h_5 hread => cases hread

/-- A text that is read from its end is what is left of it, and written suffixes. -/
def Takes (text : List Char) (found : List Suffix) (left : List Char × List Suffix) : Prop :=
  ∃ suffixes tail, Written suffixes tail ∧ text = tail.reverse ++ left.1 ∧ left.2 = suffixes ++ found

theorem Takes.suffix {suffix : Suffix} {rest : List Char} {found : List Suffix}
    {left : List Char × List Suffix} (h : Takes rest (suffix :: found) left) :
    Takes (suffix.text.reverse ++ rest) found left := by
  obtain ⟨suffixes, tail, htail, hrest, hleft⟩ := h
  refine ⟨suffixes ++ [suffix], tail ++ suffix.text, htail.append (.single suffix), ?_, ?_⟩
  · rw [List.reverse_append, List.append_assoc, ← hrest]
  · rw [hleft, List.append_assoc, List.singleton_append]

theorem takes_takeSuffixes (text : List Char) (found : List Suffix) :
    Takes text found (takeSuffixes text found) := by
  fun_induction takeSuffixes text found with
  | case1 found rest ih => exact ih.suffix
  | case2 found rest ih => exact ih.suffix
  | case3 found rest ih => exact ih.suffix
  | case4 c rest found _ _ _ hc ih =>
      obtain ⟨suffixes, tail, htail, hrest, hleft⟩ := ih
      have hblank : Blanks [c] := by simpa [Blanks] using hc
      refine ⟨suffixes ++ [], tail ++ [c], htail.append (.blanks hblank), ?_, ?_⟩
      · rw [List.reverse_append, List.append_assoc, ← hrest]
        rfl
      · rw [hleft, List.append_nil]
  | case5 | case6 => exact ⟨[], [], .blanks blanks_nil, rfl, rfl⟩

theorem head_takeSuffixes (text : List Char) (found : List Suffix) :
    ∀ c ∈ (takeSuffixes text found).1.head?, isBlank c = false := by
  fun_induction takeSuffixes text found with
  | case1 _ _ ih | case2 _ _ ih | case3 _ _ ih | case4 _ _ _ _ _ _ _ ih => exact ih
  | case5 c rest found _ _ _ hc =>
      rintro d ⟨⟩
      simpa using hc
  | case6 =>
      intro c hc
      cases hc

/-- Neither a suffix at the end nor a blank at either end. -/
structure Bare (base : List Char) : Prop where
  trimmed : Trimmed base
  unsuffixed : ∀ suffix : Suffix, ¬ suffix.text <:+ base

theorem not_isBlank_of_mem_text {suffix : Suffix} {c : Char} (h : c ∈ suffix.text) :
    isBlank c = false := by
  have hall : suffix.text.any isBlank = false := by cases suffix <;> rfl
  exact unbroken_iff.mpr hall c h

theorem Bare.unsuffixed_behind {base blanks : List Char} (h : Bare base) (hblanks : Blanks blanks)
    (suffix : Suffix) : ¬ suffix.text <:+ blanks ++ base := by
  intro hsuffix
  rcases List.suffix_or_suffix_of_suffix hsuffix (List.suffix_append blanks base) with hin | hout
  · exact h.unsuffixed suffix hin
  · obtain ⟨front, hfront⟩ := hout
    obtain ⟨before, hbefore⟩ := hsuffix
    rw [← hfront, ← List.append_assoc] at hbefore
    have hblank := List.append_cancel_right hbefore
    cases front with
    | nil =>
        rw [List.nil_append] at hfront
        exact h.unsuffixed suffix (hfront ▸ List.suffix_refl base)
    | cons c front =>
        have hmem : c ∈ suffix.text := hfront ▸ List.mem_cons_self
        have hc : isBlank c = true := hblanks c (hblank ▸ by simp)
        simp [not_isBlank_of_mem_text hmem] at hc

/-- A base with suffixes behind it, and maybe with blanks around the two. -/
def Spells (text base : List Char) (suffixes : List Suffix) : Prop :=
  ∃ lead tail, Blanks lead ∧ Bare base ∧ Written suffixes tail ∧ text = lead ++ base ++ tail

theorem Spells.ofText {text base : List Char} {suffixes : List Suffix}
    (h : Spells text base suffixes) : Spelling.ofText text = ⟨base, suffixes⟩ := by
  obtain ⟨lead, tail, hlead, hbase, htail, rfl⟩ := h
  have hread : takeSuffixes (lead ++ base ++ tail).reverse [] =
      takeSuffixes (lead ++ base).reverse suffixes := by
    rw [List.reverse_append, takeSuffixes_written htail, List.append_nil]
  have hstart : trimStart (lead ++ base) = base := by
    rw [trimStart_blanks hlead, trimStart_of_head hbase.trimmed.head]
  rw [Spelling.ofText, hread]
  cases base with
  | nil =>
      have hblanks := takeSuffixes_blanks hlead.reverse [] suffixes
      rw [List.append_nil] at hblanks
      rw [List.append_nil, hblanks]
      rfl
  | cons c rest =>
      have hlast : ∀ d ∈ (lead ++ c :: rest).getLast?, isBlank d = false := by
        rw [List.getLast?_append_of_ne_nil _ (List.cons_ne_nil c rest)]
        exact hbase.trimmed.last
      rw [takeSuffixes_stop hlast (hbase.unsuffixed_behind hlead)]
      dsimp only
      rw [List.reverse_reverse, hstart]

theorem spells_ofText (text : List Char) :
    Spells text (Spelling.ofText text).base (Spelling.ofText text).suffixes := by
  obtain ⟨suffixes, tail, htail, htext, hsuffixes⟩ := takes_takeSuffixes text.reverse []
  obtain ⟨lead, hlead, hbase⟩ := exists_trimStart (takeSuffixes text.reverse []).1.reverse
  have hbare : Bare (Spelling.ofText text).base := by
    refine ⟨⟨head_trimStart _, ?_⟩, fun suffix => base_bare text suffix.construct⟩
    intro c hc
    refine head_takeSuffixes text.reverse [] c ?_
    rw [← List.getLast?_reverse, hbase, List.getLast?_append]
    exact Option.mem_def.mpr (Option.or_eq_some_iff.mpr (.inl hc))
  refine ⟨lead, tail, hlead, hbare, ?_, ?_⟩
  · rw [← List.append_nil suffixes, ← hsuffixes] at htail
    exact htail
  · have hparts := congrArg List.reverse htext
    rw [List.reverse_append, List.reverse_reverse, List.reverse_reverse, hbase] at hparts
    exact hparts

theorem Spells.append {text base tail : List Char} {suffixes more : List Suffix}
    (h : Spells text base suffixes) (hmore : Written more tail) :
    Spells (text ++ tail) base (suffixes ++ more) := by
  obtain ⟨lead, behind, hlead, hbase, hbehind, rfl⟩ := h
  exact ⟨lead, behind ++ tail, hlead, hbase, hbehind.append hmore, List.append_assoc ..⟩

theorem ofText_around {lead tail : List Char} (hlead : Blanks lead) (htail : Blanks tail)
    (text : List Char) : Spelling.ofText (lead ++ text ++ tail) = Spelling.ofText text := by
  obtain ⟨before, behind, hbefore, hbase, hbehind, htext⟩ := spells_ofText text
  have hspells : Spells (lead ++ text ++ tail) (Spelling.ofText text).base
      ((Spelling.ofText text).suffixes ++ []) := by
    refine ⟨lead ++ before, behind ++ tail, hlead.append hbefore, hbase,
      hbehind.append (.blanks htail), ?_⟩
    nth_rewrite 1 [htext]
    simp only [List.append_assoc]
  rw [hspells.ofText, List.append_nil]

theorem applySuffixes_append (suffixes more : List Suffix) (t : Ty) :
    applySuffixes (suffixes ++ more) t = applySuffixes suffixes t >>= applySuffixes more := by
  induction suffixes generalizing t with
  | nil => exact (pure_bind t _).symm
  | cons suffix suffixes ih =>
      simp only [List.cons_append, applySuffixes, bind_assoc, ih]

/-- Suffixes behind a spelling are applied to what it stands for. -/
theorem resolveType_append {suffixes : List Suffix} {tail : String}
    (h : Written suffixes tail.toList) (line : Nat) (text : String) :
    resolveType line (text ++ tail) = resolveType line text >>= applySuffixes suffixes := by
  rw [resolveType, resolveType, String.toList_append,
    ((spells_ofText text.toList).append h).ofText]
  simp only [bind_assoc, applySuffixes_append]

/-- What is made of a type with suffixes, and the graph that has all of it. -/
def Suffix.applyAll (suffixes : List Suffix) (t : Ty) (g : Graph) : Ty × Graph :=
  suffixes.foldl (fun made suffix => suffix.apply made.1 made.2) (t, g)

theorem run_applySuffixes (suffixes : List Suffix) (t : Ty) (g : Graph) :
    (applySuffixes suffixes t).run.run g =
      (.ok (Suffix.applyAll suffixes t g).1, (Suffix.applyAll suffixes t g).2) := by
  induction suffixes generalizing t g with
  | nil => rfl
  | cons suffix suffixes ih => exact ih _ _

theorem run_resolveType {text : String} {base : List Char} {suffixes : List Suffix}
    (h : Spells text.toList base suffixes) (line : Nat) (g : Graph) :
    (resolveType line text).run.run g =
      match baseType? g (String.ofList base) with
      | some t => (.ok (Suffix.applyAll suffixes t g).1, (Suffix.applyAll suffixes t g).2)
      | none => (.error (.resolve line (.unknownType (String.ofList base))), g) := by
  rw [resolveType, Outcome.run_get_bind, h.ofText]
  cases baseType? g (String.ofList base) with
  | none => rfl
  | some t => exact run_applySuffixes suffixes t g

theorem baseType?_eq_none {g : Graph} {name : String} :
    baseType? g name = none ↔ keywords.lookup name = none ∧ ∀ t ∈ g.types, t.name ≠ name := by
  rw [baseType?, Option.or_eq_none_iff, Graph.lookup, List.find?_eq_none]
  simp only [beq_iff_eq, ne_eq]

section Grown

variable {g : Graph} (h : g.Grown)
include h

theorem construct_known {c : Construct} {t u : Ty} (ht : t ∈ g.types)
    (hmade : t.constructed? = some (c, u)) : g.construct c u = (t, g) := by
  obtain ⟨made, hrun, hmade'⟩ := Graph.construct_eq g c u
  have hname : made.name = t.name := by
    rw [Ty.name_of_constructed? hmade, Ty.name_of_constructed? hmade']
  rw [hrun, Graph.declare, hname, h.built.sound.lookup ht]

theorem resolveType_library (line : Nat) {t : Ty} (ht : t ∈ Graph.library.types) :
    (resolveType line t.name).run.run g = (.ok t, g) := by
  have hbare : ∀ t ∈ Graph.libraryTypes, (Spelling.ofText t.name.toList).base = t.name.toList ∧
      (Spelling.ofText t.name.toList).suffixes = [] ∧ keywords.lookup t.name = none := by
    decide +kernel
  obtain ⟨hbase, hsuffixes, hkeyword⟩ := hbare t (Graph.library_types ▸ ht)
  have hlookup : g.lookup t.name = some t := h.built.sound.lookup (h.built.sound.library t ht)
  have hrun := run_resolveType (spells_ofText t.name.toList) line g
  rw [hbase, hsuffixes, String.ofList_toList, baseType?, hkeyword, hlookup] at hrun
  exact hrun

omit h in
theorem resolveType_keyword (line : Nat) {name : String} {t : Ty}
    (ht : keywords.lookup name = some t) : (resolveType line name).run.run g = (.ok t, g) := by
  have hbare : ∀ entry ∈ keywords, (Spelling.ofText entry.1.toList).base = entry.1.toList ∧
      (Spelling.ofText entry.1.toList).suffixes = [] := by
    decide +kernel
  obtain ⟨hbase, hsuffixes⟩ := hbare (name, t) (mem_of_lookup ht)
  have hrun := run_resolveType (spells_ofText name.toList) line g
  rw [hbase, hsuffixes, String.ofList_toList, baseType?, ht] at hrun
  exact hrun

theorem resolveType_constructed (line : Nat) {c : Construct} {t u : Ty} (ht : t ∈ g.types)
    (hmade : t.constructed? = some (c, u))
    (hu : (resolveType line u.name).run.run g = (.ok u, g)) :
    (resolveType line t.name).run.run g = (.ok t, g) := by
  obtain ⟨suffix, rfl⟩ : ∃ suffix : Suffix, suffix.construct = c := by
    cases c with
    | array => exact ⟨.array, rfl⟩
    | byRef => exact ⟨.byRef, rfl⟩
    | pointer => exact ⟨.pointer, rfl⟩
  have hwritten : Written [suffix] suffix.construct.suffix.toList := .single suffix
  have hmake : Suffix.applyAll [suffix] u g = (t, g) := by
    rw [Suffix.applyAll, List.foldl_cons, List.foldl_nil, suffix.apply_eq,
      construct_known h ht hmade]
  rw [Ty.name_of_constructed? hmade, resolveType_append hwritten, Outcome.run_bind, hu]
  dsimp only
  rw [run_applySuffixes, hmake]

theorem mem_library_of_constructed? {t : Ty} (ht : t ∈ g.types) (hmade : t.constructed? = none) :
    t ∈ Graph.library.types := by
  obtain ⟨more, hentries, hmore⟩ := h.entries
  rw [Graph.types, hentries, List.map_append] at ht
  rcases List.mem_append.mp ht with ht | ht
  · exact ht
  · obtain ⟨e, he, rfl⟩ := List.mem_map.mp ht
    obtain ⟨u, hu, rfl⟩ := List.mem_map.mp he
    obtain ⟨c, v, hv⟩ := hmore u hu
    cases hmade.symm.trans hv

theorem resolveType_name (line : Nat) {t : Ty} (ht : t ∈ g.types) :
    (resolveType line t.name).run.run g = (.ok t, g) := by
  have hreferent {c : Construct} {t u : Ty} (ht : t ∈ g.types)
      (hmade : t.constructed? = some (c, u)) : u ∈ g.types :=
    h.built.sound.interned.referents ht hmade
  induction t with
  | array element base ih _ | bareArray element ih =>
      exact resolveType_constructed h line ht rfl (ih (hreferent ht rfl))
  | byRef referent ih | pointer referent ih =>
      exact resolveType_constructed h line ht rfl (ih (hreferent ht rfl))
  | object | subclass | interface | struct | enum | primitive =>
      exact resolveType_library h line (mem_library_of_constructed? h ht rfl)

end Grown

/-- In a graph that files make, the name of a type stands for the type, and a keyword for its own.
Suffixes behind any spelling that stands for a type, with blanks before them or without, make what
they say of it. Every text is read in one way, as a base and suffixes, and it is refused if and only
if the base is neither a keyword nor the name of a type. -/
theorem spellings_resolve {g : Graph} (h : g.Grown) (line : Nat) :
    (∀ t ∈ g.types, (resolveType line t.name).run.run g = (.ok t, g)) ∧
    (∀ name t, keywords.lookup name = some t →
      (resolveType line name).run.run g = (.ok t, g)) ∧
    (∀ (text : String) (t : Ty) (g' : Graph), (resolveType line text).run.run g = (.ok t, g') →
      ∀ (suffixes : List Suffix) (tail : String), Written suffixes tail.toList →
        (resolveType line (text ++ tail)).run.run g =
          (.ok (Suffix.applyAll suffixes t g').1, (Suffix.applyAll suffixes t g').2)) ∧
    ∀ text : String, ∃ (base : String) (suffixes : List Suffix),
      (∀ (other : String) (more : List Suffix), Spells text.toList other.toList more ↔
        other = base ∧ more = suffixes) ∧
      ((keywords.lookup base = none ∧ ∀ t ∈ g.types, t.name ≠ base) ↔
        (resolveType line text).run.run g = (.error (.resolve line (.unknownType base)), g)) := by
  refine ⟨?_, ?_, ?_, ?_⟩
  · exact fun t ht => resolveType_name h line ht
  · exact fun name t ht => resolveType_keyword line ht
  · intro text t g' hrun suffixes tail htail
    rw [resolveType_append htail, Outcome.run_bind, hrun]
    exact run_applySuffixes suffixes t g'
  · intro text
    have hspells := spells_ofText text.toList
    refine ⟨String.ofList (Spelling.ofText text.toList).base, (Spelling.ofText text.toList).suffixes,
      ?_, ?_⟩
    · intro other more
      constructor
      · intro hother
        rw [hother.ofText, String.ofList_toList]
        exact ⟨rfl, rfl⟩
      · rintro ⟨rfl, rfl⟩
        rwa [String.toList_ofList]
    · rw [run_resolveType hspells, ← baseType?_eq_none]
      cases baseType? g (String.ofList (Spelling.ofText text.toList).base) with
      | none => exact iff_of_true rfl rfl
      | some t => exact iff_of_false nofun nofun

namespace Sample

def strings : Graph := (Graph.library.construct .array .string).2

end Sample

open Sample in
theorem spellings_resolve_nested :
    (resolveType 1 "System.String[]").run.run strings = (.ok (.arrayOf .string), strings) ∧
      ((resolveType 1 "string [] &").run.run strings).1 = .ok (.byRef (.arrayOf .string)) ∧
      (resolveType 1 "Acme.Missing *").run.run strings =
        (.error (.resolve 1 (.unknownType "Acme.Missing")), strings) := by
  have hstring : Ty.string ∈ Graph.library.types := Graph.library_types ▸ (by decide)
  have hstrings : strings.Grown := .construct .library hstring
  have harray : Ty.arrayOf .string ∈ strings.types := by
    have hmem := Graph.constructed_mem .library .array .string
    rwa [Graph.Grown.library.construct_eq .array hstring] at hmem
  have hname : (Ty.arrayOf .string).name = "System.String[]" := by decide +kernel
  have hmissing : Spells "Acme.Missing *".toList "Acme.Missing".toList [.pointer] := by
    have hpointer : Written [.pointer] " *".toList := .suffix blanks_space (.blanks blanks_nil)
    refine ⟨[], " *".toList, blanks_nil, ⟨⟨?_, ?_⟩, ?_⟩, hpointer, rfl⟩
    · rintro c ⟨⟩
      rfl
    · rintro c ⟨⟩
      rfl
    · rintro (_ | _ | _) <;> decide
  obtain ⟨hnames, hkeywords, hsuffixes, hparts⟩ := spellings_resolve hstrings 1
  refine ⟨hname ▸ hnames _ harray, ?_, ?_⟩
  · have hkeyword : keywords.lookup "string" = some .string := by decide +kernel
    have hrun := hsuffixes "string" .string strings (hkeywords "string" .string hkeyword)
      [.array, .byRef] " [] &" (.suffix blanks_space (.suffix blanks_space (.blanks blanks_nil)))
    refine (congrArg Prod.fst hrun).trans ?_
    obtain ⟨g, -, hmade⟩ := applySuffixes_grown hstrings [.array, .byRef]
      (hstrings.built.sound.library _ hstring)
    rw [run_applySuffixes] at hmade
    exact congrArg Prod.fst hmade
  · obtain ⟨base, suffixes, hread, hrefused⟩ := hparts "Acme.Missing *"
    obtain ⟨rfl, rfl⟩ := (hread _ _).mp hmissing
    exact hrefused.mp ⟨by decide +kernel, by decide +kernel⟩

end ManagedCode.Source
