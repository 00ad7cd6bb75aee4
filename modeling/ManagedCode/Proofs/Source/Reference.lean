import ManagedCode.Proofs.Source.Content
import ManagedCode.Proofs.Source.Steady
import ManagedCode.Proofs.Source.Suffixes
import ManagedCode.Proofs.Text.Cut
import Mathlib.Data.List.TakeWhile

namespace ManagedCode.Source

/-! What a reference to a method stands for is read off its text, whatever graph a file has made. -/

open Text

/-- On all graphs that files make, the outcome is this one, or an error if there is none. -/
structure Resolve.Means {α : Type} (x : Resolve α) (meaning : Option α) : Prop where
  outcome : ∀ {g : Graph}, g.Grown → (x.run.run g).1.toOption = meaning
  grown : ∀ {g : Graph}, g.Grown → (x.run.run g).2.Grown

namespace Resolve

variable {α β : Type}

theorem Means.bind {x : Resolve α} {f : α → Resolve β} {meaning : Option α} {next : α → Option β}
    (hx : x.Means meaning) (hf : ∀ a, (f a).Means (next a)) :
    (x >>= f).Means (meaning.bind next) := by
  have hboth : ∀ {g : Graph}, g.Grown →
      ((x >>= f).run.run g).1.toOption = meaning.bind next ∧ ((x >>= f).run.run g).2.Grown := by
    intro g hg
    have houtcome := hx.outcome hg
    have hgrown := hx.grown hg
    rw [Outcome.run_bind]
    rcases hrun : x.run.run g with ⟨e | a, g'⟩
    · rw [hrun] at houtcome hgrown
      rw [← houtcome]
      exact ⟨rfl, hgrown⟩
    · rw [hrun] at houtcome hgrown
      rw [← houtcome]
      exact ⟨(hf a).outcome hgrown, (hf a).grown hgrown⟩
  exact ⟨fun hg => (hboth hg).1, fun hg => (hboth hg).2⟩

theorem means_pure (a : α) : (pure a : Resolve α).Means (some a) :=
  ⟨fun _ => rfl, id⟩

theorem means_throw (e : Failure) : (throw e : Resolve α).Means none :=
  ⟨fun _ => rfl, id⟩

theorem Means.map {x : Resolve α} {meaning : Option α} (hx : x.Means meaning) (f : α → β) :
    (f <$> x).Means (meaning.map f) := by
  rw [map_eq_pure_bind, Option.map_eq_bind]
  exact hx.bind fun a => means_pure (f a)

theorem means_orFail (line : Nat) (fault : ResolveFault) (a : Option α) :
    (orFail line fault a).Means a := by
  cases a with
  | none => exact means_throw _
  | some a => exact means_pure a

theorem means_get {f : Graph → Resolve α} {meaning : Option α}
    (hf : ∀ g : Graph, g.Grown → (f g).Means meaning) : (get >>= f).Means meaning := by
  refine ⟨fun {g} hg => ?_, fun {g} hg => ?_⟩
  · rw [Outcome.run_get_bind]
    exact (hf g hg).outcome hg
  · rw [Outcome.run_get_bind]
    exact (hf g hg).grown hg

theorem Means.of_run {x : Resolve α} {meaning : Option α} (hx : x.Means meaning) {g g' : Graph}
    (hg : g.Grown) {a : α} (hrun : x.run.run g = (.ok a, g')) : meaning = some a := by
  rw [← hx.outcome hg, hrun]
  rfl

theorem Means.exists_run {x : Resolve α} {a : α} (hx : x.Means (some a)) {g : Graph}
    (hg : g.Grown) : ∃ g', x.run.run g = (.ok a, g') := by
  have houtcome := hx.outcome hg
  rcases hrun : x.run.run g with ⟨_ | b, g'⟩
  · rw [hrun] at houtcome
    cases houtcome
  · rw [hrun] at houtcome
    cases houtcome
    exact ⟨g', rfl⟩

theorem Means.run {x : Resolve α} {a : α} (hx : x.Means (some a)) {g : Graph} (hg : g.Grown) :
    (x.run.run g).1 = .ok a := by
  obtain ⟨g', hrun⟩ := hx.exists_run hg
  rw [hrun]

end Resolve

open Resolve

theorem means_resolveType (line : Nat) (text : String) :
    (resolveType line text).Means (spelled? text) := by
  refine ⟨fun hg => ?_, fun hg => ?_⟩
  · obtain ⟨g', -, hrun⟩ := resolveType_grown hg line text
    rw [hrun]
    cases spelled? text <;> rfl
  · obtain ⟨g', hgrown, hrun⟩ := resolveType_grown hg line text
    rw [hrun]
    exact hgrown

theorem means_resolveTypes (line : Nat) (texts : List String) :
    (resolveTypes line texts).Means (texts.mapM spelled?) := by
  induction texts with
  | nil => exact means_pure []
  | cons text rest ih =>
      rw [List.mapM_cons]
      exact (means_resolveType line text).bind fun t => ih.bind fun ts => means_pure _

theorem means_resolveList (line : Nat) (text : List Char) :
    (resolveList line text).Means ((splitList? text).bind (·.mapM spelled?)) := by
  rw [resolveList, parseList]
  cases splitList? text with
  | none => exact means_throw _
  | some names => exact means_resolveTypes line names

/-- Without a list any parameters will do. -/
def parameters? (list : List Char) : Option (Option (List Ty)) :=
  if list.isEmpty then some none
  else ((splitList? list).bind (·.mapM spelled?)).map some

def only? {α : Type} : List α → Option α
  | [a] => some a
  | _ => none

/-- The method of the type that is told by `NAME` or `NAME(PARAMETERS)`. -/
def member? (t : Ty) (member : List Char) : Option Method :=
  (parameters? (member.dropWhile (· ≠ '('))).bind fun parameters =>
    only? <| (Graph.library.methodsNamed t
      (String.ofList (trim (member.takeWhile (· ≠ '('))))).filter
        fun m => parameters.all (m.parameters = ·)

/-- The type that the owner of a member stands for, and what is said of the member. -/
def owner? (reference : List Char) : Option (Ty × List Char) :=
  (cutAt? "::".toList reference).bind fun parts =>
    (spelled? (String.ofList parts.1)).bind fun t => some (t, parts.2)

/-- The method that a text stands for. -/
def referenced? (reference : List Char) : Option Method :=
  (owner? reference).bind fun parts => member? parts.1 parts.2

theorem means_resolveOwner (line : Nat) (reference : String) :
    (resolveOwner line reference).Means (owner? reference.toList) := by
  refine (means_orFail _ _ _).bind ?_
  rintro ⟨owner, member⟩
  exact (means_resolveType line _).bind fun t => means_pure (t, member)

theorem means_resolveMethod (line : Nat) (reference : String) :
    (resolveMethod line reference).Means (referenced? reference.toList) := by
  refine (means_resolveOwner line reference).bind ?_
  rintro ⟨t, member⟩
  dsimp -zeta only
  extract_lets name list choose
  have hchoose : ∀ parameters : Option (List Ty), (choose parameters).Means
      (only? ((Graph.library.methodsNamed t name).filter
        fun m => parameters.all (m.parameters = ·))) := by
    intro parameters
    refine means_get fun g hg => ?_
    simp only [hg.methodsNamed_eq]
    generalize (Graph.library.methodsNamed t name).filter _ = found
    rcases found with _ | ⟨m, _ | ⟨n, more⟩⟩
    · exact means_throw _
    · exact means_pure m
    · exact means_throw _
  have hmember : member? t member = (parameters? list).bind fun parameters =>
      only? ((Graph.library.methodsNamed t name).filter
        fun m => parameters.all (m.parameters = ·)) := rfl
  rw [hmember, parameters?]
  split
  · exact (means_pure none).bind hchoose
  · exact ((means_resolveList line _).map some).bind hchoose

/-! Blanks around a reference do not change what it stands for. -/

section Around

variable {lead tail : List Char} (hlead : Blanks lead) (htail : Blanks tail)

include hlead htail in
theorem spelled?_around (text : List Char) :
    spelled? (String.ofList (lead ++ text ++ tail)) = spelled? (String.ofList text) := by
  simp only [spelled?, String.toList_ofList, ofText_around hlead htail]

include htail

theorem splitList?_append_blanks (list : List Char) :
    splitList? (list ++ tail) = splitList? list := by
  rw [splitList?, splitList?, trim_append_blanks htail]

theorem parameters?_append_blanks {list : List Char} (hlist : list ≠ []) :
    parameters? (list ++ tail) = parameters? list := by
  cases list with
  | nil => exact absurd rfl hlist
  | cons c rest =>
      rw [parameters?, parameters?, splitList?_append_blanks htail]
      rfl

theorem member?_append_blanks (t : Ty) (member : List Char) :
    member? t (member ++ tail) = member? t member := by
  have hopen : ∀ c ∈ tail, decide (c ≠ '(') = true := by
    intro c hc
    rw [decide_eq_true_iff]
    rintro rfl
    cases htail _ hc
  rw [member?, member?]
  cases hlist : member.dropWhile (· ≠ '(') with
  | nil =>
      have hname := List.dropWhile_eq_nil_iff.mp hlist
      have hall : ∀ c ∈ member ++ tail, decide (c ≠ '(') = true := by
        simpa only [List.forall_mem_append] using ⟨hname, hopen⟩
      rw [List.dropWhile_eq_nil_iff.mpr hall, List.takeWhile_eq_self_iff.mpr hall,
        List.takeWhile_eq_self_iff.mpr hname, trim_append_blanks htail]
  | cons c list =>
      have hdrop : (member ++ tail).dropWhile (· ≠ '(') = c :: list ++ tail := by
        rw [List.dropWhile_append, hlist]
        rfl
      have htake : (member ++ tail).takeWhile (· ≠ '(') = member.takeWhile (· ≠ '(') := by
        have hsame : (member ++ tail).takeWhile (· ≠ '(') ++ (c :: list ++ tail) =
            member.takeWhile (· ≠ '(') ++ (c :: list ++ tail) := by
          rw [← hdrop, List.takeWhile_append_dropWhile, hdrop, ← hlist, ← List.append_assoc,
            List.takeWhile_append_dropWhile]
        exact List.append_cancel_right hsame
      rw [hdrop, htake, parameters?_append_blanks htail (List.cons_ne_nil c list)]

include hlead in
theorem referenced?_around (reference : List Char) :
    referenced? (lead ++ reference ++ tail) = referenced? reference := by
  have hcolon : ∀ {blanks : List Char}, Blanks blanks → ∀ c ∈ blanks, c ∉ "::".toList := by
    intro blanks hblanks c hc hmem
    have hunbroken : "::".toList.any isBlank = false := rfl
    have hblank := hblanks c hc
    simp [unbroken_iff.mpr hunbroken c hmem] at hblank
  rw [referenced?, referenced?, owner?, owner?, cutAt?_append_right (by decide) (hcolon htail),
    cutAt?_append_left (by decide) (hcolon hlead)]
  cases cutAt? "::".toList reference with
  | none => rfl
  | some parts =>
      obtain ⟨owner, member⟩ := parts
      have howner := spelled?_around hlead blanks_nil owner
      rw [List.append_nil] at howner
      simp only [Option.map_some, Option.bind_some, Option.bind_assoc, howner,
        member?_append_blanks htail]

end Around

/-! Nothing in a reference could be taken for a comment. -/

/-- The names that types are written with, before any suffixes. -/
def baseNames : List String := keywords.map Prod.fst ++ Graph.libraryTypes.map Ty.name

theorem mem_baseNames {name : String} {t : Ty} (h : baseType? .library name = some t) :
    name ∈ baseNames := by
  rw [baseNames, List.mem_append]
  rcases Option.or_eq_some_iff.mp h with hkeyword | ⟨-, hlookup⟩
  · exact .inl (List.mem_map_of_mem (mem_of_lookup hkeyword))
  · rw [Graph.lookup, Graph.library_types] at hlookup
    have hname : t.name = name := by simpa using List.find?_some hlookup
    exact .inr (hname ▸ List.mem_map_of_mem (List.mem_of_find?_eq_some hlookup))

theorem exists_baseName {text : String} {t : Ty} (h : spelled? text = some t) :
    ∃ base ∈ baseNames, ∃ suffixes, Spells text.toList base.toList suffixes := by
  obtain ⟨u, hu, -⟩ := Option.map_eq_some_iff.mp h
  refine ⟨_, mem_baseNames hu, (Spelling.ofText text.toList).suffixes, ?_⟩
  rw [String.toList_ofList]
  exact spells_ofText text.toList

theorem mem_written {suffixes : List Suffix} {tail : List Char} (h : Written suffixes tail) :
    ∀ c ∈ tail, isBlank c = true ∨ ∃ suffix : Suffix, c ∈ suffix.text := by
  induction h with
  | blanks h => exact fun c hc => .inl (h c hc)
  | @suffix blanks tail suffix suffixes h _ ih =>
      intro c hc
      rw [List.mem_append, List.mem_append] at hc
      rcases hc with (hc | hc) | hc
      · exact .inl (h c hc)
      · exact .inr ⟨suffix, hc⟩
      · exact ih c hc

theorem plain_of_spelled {text : String} {t : Ty} (h : spelled? text = some t) :
    Plain text.toList := by
  have hbases : ∀ base ∈ baseNames,
      (base.toList.all fun c => c != '/' && c != '"') = true := by
    decide +kernel
  have hsuffixes : ∀ suffix : Suffix, Plain suffix.text := by
    rintro (_ | _ | _) <;> exact plain_iff.mpr rfl
  obtain ⟨base, hbase, suffixes, lead, tail, hlead, -, htail, htext⟩ := exists_baseName h
  have hplain : Plain tail := by
    intro c hc
    rcases mem_written htail c hc with hblank | ⟨suffix, hsuffix⟩
    · have hblanks : Blanks [c] := by simpa [Blanks] using hblank
      exact plain_of_blanks hblanks c (List.mem_singleton_self c)
    · exact hsuffixes suffix c hsuffix
  rw [htext]
  exact ((plain_of_blanks hlead).append (plain_iff.mpr (hbases base hbase))).append hplain

theorem plain_of_spelled_all {names : List String} {ts : List Ty}
    (h : names.mapM spelled? = some ts) : ∀ name ∈ names, Plain name.toList := by
  induction names generalizing ts with
  | nil => exact fun _ => nofun
  | cons name names ih =>
      rw [List.mapM_cons] at h
      obtain ⟨t, ht, hrest⟩ := Option.bind_eq_some_iff.mp h
      obtain ⟨more, hmore, -⟩ := Option.bind_eq_some_iff.mp hrest
      exact List.forall_mem_cons.mpr ⟨plain_of_spelled ht, ih hmore⟩

theorem plain_of_list {list : List Char} {names : List String} (h : splitList? list = some names)
    (hnames : ∀ name ∈ names, Plain name.toList) : Plain list := by
  obtain ⟨front, hfront, hrest⟩ := Option.bind_eq_some_iff.mp h
  obtain ⟨inner, hinner, hsplit⟩ := Option.bind_eq_some_iff.mp hrest
  cases hsplit
  have hpieces : ∀ piece ∈ split ',' inner, Plain piece := by
    intro piece hpiece
    apply plain_trim.mp
    intro c hc
    refine hnames (String.ofList (trim piece)) ?_ c (by rwa [String.toList_ofList])
    refine List.mem_map_of_mem (List.mem_filter.mpr ⟨List.mem_map_of_mem hpiece, ?_⟩)
    simp [List.ne_nil_of_mem hc]
  apply plain_trim.mp
  rw [after?_eq_some_iff.mp hfront, before?_eq_some_iff.mp hinner]
  intro c hc
  rw [List.mem_append, List.mem_append] at hc
  rcases hc with hc | hc | hc
  · cases List.mem_singleton.mp hc
    decide
  · have hcut : c = ',' ∨ ∃ piece ∈ split ',' inner, c ∈ piece := mem_split hc
    rcases hcut with rfl | ⟨piece, hpiece, hmem⟩
    · decide
    · exact hpieces piece hpiece c hmem
  · cases List.mem_singleton.mp hc
    decide

theorem plain_of_parameters {list : List Char} {parameters : Option (List Ty)}
    (h : parameters? list = some parameters) : Plain list := by
  unfold parameters? at h
  split at h
  · rename_i hempty
    rw [List.isEmpty_iff.mp hempty]
    exact fun _ => nofun
  · obtain ⟨ts, hts, -⟩ := Option.map_eq_some_iff.mp h
    obtain ⟨names, hsplit, hnames⟩ := Option.bind_eq_some_iff.mp hts
    exact plain_of_list hsplit (plain_of_spelled_all hnames)

theorem plain_methodName {t : Ty} {m : Method} (h : m ∈ Graph.library.methods t) :
    Plain m.name.text.toList := by
  have hall : ∀ e ∈ Graph.library.entries, ∀ m ∈ e.methods,
      (m.name.text.toList.all fun c => c != '/' && c != '"') = true := by
    decide +kernel
  obtain ⟨e, he, -, hm⟩ := Graph.exists_declaring h
  exact plain_iff.mpr (hall e he m hm)

theorem plain_of_member {t : Ty} {member : List Char} {m : Method} (h : member? t member = some m) :
    Plain member := by
  obtain ⟨parameters, hparameters, honly⟩ := Option.bind_eq_some_iff.mp h
  have hlist := plain_of_parameters hparameters
  generalize hfound : (Graph.library.methodsNamed t _).filter _ = found at honly
  have hm : m ∈ found := by
    rcases found with _ | ⟨n, _ | ⟨n', more⟩⟩
    · cases honly
    · cases honly
      exact List.mem_singleton_self _
    · cases honly
  rw [← hfound] at hm
  obtain ⟨hdeclared, hname⟩ := List.mem_filter.mp (List.mem_filter.mp hm).1
  have hplain := plain_methodName hdeclared
  rw [eq_of_beq hname, String.toList_ofList] at hplain
  rw [← List.takeWhile_append_dropWhile (p := (· ≠ '(')) (l := member)]
  exact (plain_trim.mp hplain).append hlist

theorem plain_of_referenced {reference : List Char} {m : Method}
    (h : referenced? reference = some m) : Plain reference := by
  obtain ⟨⟨t, member⟩, hparts, hmember⟩ := Option.bind_eq_some_iff.mp h
  obtain ⟨⟨owner, rest⟩, hcut, howned⟩ := Option.bind_eq_some_iff.mp hparts
  obtain ⟨u, howner, hpair⟩ := Option.bind_eq_some_iff.mp howned
  cases hpair
  have hcolons : Plain "::".toList := plain_iff.mpr rfl
  have hplain := plain_of_spelled howner
  rw [String.toList_ofList] at hplain
  rw [eq_append_of_cutAt? hcut]
  exact (hplain.append hcolons).append (plain_of_member hmember)

end ManagedCode.Source
