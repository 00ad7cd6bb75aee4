import ManagedCode.Proofs.Source.Numbered
import ManagedCode.Proofs.Source.Spelling
import ManagedCode.Proofs.Verify.Known

namespace ManagedCode.Source

/-! What a line of a file stands for does not hang on the arrays, by-refs and pointers that are in
the graph by then. The types that it mentions are in the graph, and so more may be made of them. -/

open Text

theorem append_subset_append {α : Type} {as bs : List α} (more : List α) (h : as ⊆ bs) :
    more ++ as ⊆ more ++ bs :=
  List.append_subset.mpr
    ⟨List.subset_append_left more bs, List.subset_append_of_subset_right more h⟩

/-- Graphs that files make, and that both have the types. -/
structure Both (ts : List Ty) (g g' : Graph) : Prop where
  grown : g.Grown ∧ g'.Grown
  types : ∀ t ∈ ts, t ∈ g.types ∧ t ∈ g'.types

theorem subset_given {given : List Ty} (ts : List Ty) : ts ⊆ Graph.library.types ++ (ts ++ given) :=
  List.subset_append_of_subset_right _ (List.subset_append_left _ _)

/-- Members of the library are declared with types of the library. -/
theorem types_of_declared : ∀ e ∈ Graph.library.entries,
    (∀ m ∈ e.methods, m.types ⊆ Graph.libraryTypes) ∧
      ∀ f ∈ e.fields, f.types ⊆ Graph.libraryTypes := by
  decide +kernel

theorem types_of_method {t : Ty} {m : Method} (h : m ∈ Graph.library.methods t) :
    m.types ⊆ Graph.library.types := by
  obtain ⟨e, he, -, hm⟩ := Graph.exists_declaring h
  rw [Graph.library_types]
  exact (types_of_declared e he).1 m hm

theorem types_of_field {t : Ty} {name : String} {f : Field}
    (h : Graph.library.findField t name = some f) : f.types ⊆ Graph.library.types := by
  obtain ⟨a, -, hfound⟩ := List.exists_of_findSome?_eq_some h
  obtain ⟨e, he, -, hf⟩ := Graph.exists_declaring (List.mem_of_find?_eq_some hfound)
  rw [Graph.library_types]
  exact (types_of_declared e he).2 f hf

/-! An operation code alone mentions no types but those of the library. -/

section Opcode

variable {i : Instruction}

theorem types_of_conversionOpcode? {text : List Char} (h : conversionOpcode? text = some i) :
    i.types = [] := by
  unfold conversionOpcode? at h
  split at h
  · cases h
    rfl
  · split at h
    · split at h <;> obtain ⟨c, -, rfl⟩ := Option.map_eq_some_iff.mp h <;> rfl
    · obtain ⟨c, -, rfl⟩ := Option.map_eq_some_iff.mp h
      rfl

theorem types_of_numberedOpcode? {stem : String} {n : Nat} (h : numberedOpcode? stem n = some i) :
    i.types = [] := by
  cases numberedOpcode?_eq_some_iff.mp h <;> rfl

theorem types_of_typedOpcode? {stem : String} {t : Ty} (h : typedOpcode? stem t = some i) :
    i.types = [t] := by
  unfold typedOpcode? at h
  split at h <;> cases h <;> rfl

theorem types_of_suffixedOpcode? {text : List Char} (h : suffixedOpcode? text = some i) :
    i.types ⊆ Graph.libraryTypes := by
  have hall : ∀ entry ∈ typeSuffixes, entry.2 ∈ Graph.libraryTypes := by decide
  obtain ⟨⟨stem, suffix⟩, -, h⟩ := Option.bind_eq_some_iff.mp h
  cases hread : readNatBelow? 256 suffix with
  | some n =>
      simp only [hread] at h
      rw [types_of_numberedOpcode? h]
      exact List.nil_subset _
  | none =>
      simp only [hread] at h
      obtain ⟨t, ht, h⟩ := Option.bind_eq_some_iff.mp h
      rw [types_of_typedOpcode? h]
      exact List.cons_subset.mpr ⟨hall _ (mem_of_lookup ht), List.nil_subset _⟩

theorem types_of_opcode {opcode : String} (h : opcodeInstruction? opcode = some i) :
    i.types ⊆ Graph.library.types := by
  have hplain : ∀ entry ∈ plainOpcodes, entry.2.types = [] := by decide
  rw [Graph.library_types]
  rcases Option.or_eq_some_iff.mp h with h | ⟨-, h⟩
  · rw [hplain _ (mem_of_lookup h)]
    exact List.nil_subset _
  · rcases Option.or_eq_some_iff.mp h with h | ⟨-, h⟩
    · rw [types_of_conversionOpcode? h]
      exact List.nil_subset _
    · exact types_of_suffixedOpcode? h

end Opcode

namespace Both

variable {ts us : List Ty} {g g' : Graph} {t : Ty}

theorem mono (h : Both ts g g') (hsubset : us ⊆ ts) : Both us g g' :=
  ⟨h.grown, fun t ht => h.types t (hsubset ht)⟩

theorem append_library (h : Both ts g g') : Both (Graph.library.types ++ ts) g g' := by
  refine ⟨h.grown, fun t ht => ?_⟩
  rcases List.mem_append.mp ht with ht | ht
  · exact ⟨h.grown.1.built.sound.library t ht, h.grown.2.built.sound.library t ht⟩
  · exact h.types t ht

/-- What is made of a type is the same on both sides, and nothing is lost. -/
theorem construct (h : Both ts g g') (c : Construct) (ht : t ∈ ts) :
    (g.construct c t).1 = c.type t ∧ (g'.construct c t).1 = c.type t ∧
      Both (c.type t :: ts) (g.construct c t).2 (g'.construct c t).2 := by
  obtain ⟨hmem, hmem'⟩ := h.types t ht
  have hmade := h.grown.1.construct_eq c hmem
  have hmade' := h.grown.2.construct_eq c hmem'
  refine ⟨hmade, hmade', ⟨h.grown.1.construct hmem, h.grown.2.construct hmem'⟩, ?_⟩
  refine List.forall_mem_cons.mpr ⟨⟨?_, ?_⟩, fun u hu => ?_⟩
  · exact hmade ▸ Graph.constructed_mem g c t
  · exact hmade' ▸ Graph.constructed_mem g' c t
  · obtain ⟨hknown, hknown'⟩ := h.types u hu
    exact ⟨(Graph.preserves_construct c hmem).types hknown,
      (Graph.preserves_construct c hmem').types hknown'⟩

end Both

namespace Resolve

variable {α β γ δ : Type} {given : List Ty} {rel : α → β → Prop} {rel' : γ → δ → Prop}
  {types : α → List Ty} {types' : γ → List Ty}

/-- Two runs with related results, whose types are in the graphs, or with the same failure. -/
inductive Paired (rel : α → β → Prop) (types : α → List Ty) :
    Except Failure α × Graph → Except Failure β × Graph → Prop where
  | ok {a : α} {b : β} {g g' : Graph} : rel a b → Both (types a) g g' →
      Paired rel types (.ok a, g) (.ok b, g')
  | error {e : Failure} {g g' : Graph} : Both [] g g' →
      Paired rel types (.error e, g) (.error e, g')

theorem Paired.mono {types' : α → List Ty} {r : Except Failure α × Graph}
    {r' : Except Failure β × Graph} (h : Paired rel types r r') (htypes : ∀ a, types' a ⊆ types a) :
    Paired rel types' r r' := by
  cases h with
  | ok hab hboth => exact .ok hab (hboth.mono (htypes _))
  | error hboth => exact .error hboth

theorem Paired.outcome {r r' : Except Failure α × Graph} (h : Paired Eq types r r') :
    r.1 = r'.1 := by
  cases h with
  | ok hab => rw [hab]
  | error => rfl

theorem Paired.grown {r : Except Failure α × Graph} {r' : Except Failure β × Graph}
    (h : Paired rel types r r') : r.2.Grown ∧ r'.2.Grown := by
  cases h with
  | ok _ hboth => exact hboth.grown
  | error hboth => exact hboth.grown

/-- On graphs that have the types that are given, and whatever else, the two come out the same. -/
def Agrees (given : List Ty) (rel : α → β → Prop) (types : α → List Ty) (x : Resolve α)
    (y : Resolve β) : Prop :=
  ∀ (kept : List Ty) (g g' : Graph), given ⊆ kept → Both kept g g' →
    Paired rel (fun a => types a ++ kept) (x.run.run g) (y.run.run g')

/-- The outcome is the same on all graphs that files make. -/
abbrev Steady (given : List Ty) (types : α → List Ty) (x : Resolve α) : Prop :=
  Agrees given Eq types x x

theorem Agrees.mono {given' : List Ty} {x : Resolve α} {y : Resolve β}
    (h : Agrees given rel types x y) (hgiven : given ⊆ given') : Agrees given' rel types x y :=
  fun kept g g' hkept => h kept g g' (List.Subset.trans hgiven hkept)

/-- What the first result mentions is given to what comes next. -/
theorem Agrees.bind {x : Resolve α} {y : Resolve β} {f : α → Resolve γ} {f' : β → Resolve δ}
    (hx : Agrees given rel types x y)
    (hf : ∀ a b, rel a b → Agrees (types a ++ given) rel' types' (f a) (f' b)) :
    Agrees given rel' types' (x >>= f) (y >>= f') := by
  intro kept g g' hkept hboth
  have hfirst := hx kept g g' hkept hboth
  rw [Outcome.run_bind, Outcome.run_bind]
  generalize x.run.run g = first at hfirst ⊢
  generalize y.run.run g' = second at hfirst ⊢
  cases hfirst with
  | @ok a b h h' hab hmid =>
      have hnext := hf a b hab (types a ++ kept) h h' (append_subset_append _ hkept) hmid
      exact hnext.mono fun c => append_subset_append _ (List.subset_append_right _ _)
  | error hmid => exact .error hmid

/-- The library is in every graph. -/
theorem agrees_pure {a : α} {b : β} (hab : rel a b)
    (htypes : types a ⊆ Graph.library.types ++ given) :
    Agrees given rel types (pure a) (pure b) := by
  intro kept g g' hkept hboth
  refine .ok hab (hboth.append_library.mono (List.append_subset.mpr ⟨?_, ?_⟩))
  · exact List.Subset.trans htypes (append_subset_append _ hkept)
  · exact List.subset_append_right _ _

theorem agrees_throw (e : Failure) : Agrees given rel types (throw e) (throw e) :=
  fun _ _ _ _ hboth => .error (hboth.mono (List.nil_subset _))

theorem agrees_get {f : Graph → Resolve α} {f' : Graph → Resolve β}
    (hf : ∀ g g' : Graph, g.Grown → g'.Grown → Agrees given rel types (f g) (f' g')) :
    Agrees given rel types (get >>= f) (get >>= f') := by
  intro kept g g' hkept hboth
  rw [Outcome.run_get_bind, Outcome.run_get_bind]
  exact hf g g' hboth.grown.1 hboth.grown.2 kept g g' hkept hboth

/-- What is made stays in the graph, and more can be made of it. -/
theorem agrees_construct (c : Construct) {t : Ty} (ht : t ∈ Graph.library.types ++ given) :
    Steady given (fun u => [u]) (modifyGet fun g => g.construct c t) := by
  intro kept g g' hkept hboth
  have hmem : t ∈ Graph.library.types ++ kept := append_subset_append _ hkept ht
  obtain ⟨hmade, hmade', hmore⟩ := hboth.append_library.construct c hmem
  have hpaired : Paired Eq (fun u => [u] ++ kept) (.ok (g.construct c t).1, (g.construct c t).2)
      (.ok (g'.construct c t).1, (g'.construct c t).2) := by
    rw [hmade, hmade']
    exact .ok rfl (hmore.mono (List.cons_subset_cons _ (List.subset_append_right _ _)))
  exact hpaired

theorem Steady.bind {x : Resolve α} {f : α → Resolve γ} (hx : x.Steady given types)
    (hf : ∀ a, (f a).Steady (types a ++ given) types') : (x >>= f).Steady given types' := by
  refine Agrees.bind hx ?_
  rintro a _ rfl
  exact hf a

theorem Steady.paired {x : Resolve α} (hx : x.Steady [] types) {g g' : Graph} (hg : g.Grown)
    (hg' : g'.Grown) : Paired Eq (fun a => types a ++ []) (x.run.run g) (x.run.run g') :=
  hx [] g g' (List.nil_subset _) ⟨⟨hg, hg'⟩, nofun⟩

theorem steady_pure {a : α} (h : types a ⊆ Graph.library.types ++ given) :
    (pure a : Resolve α).Steady given types :=
  agrees_pure rfl h

theorem Steady.map {x : Resolve α} (hx : x.Steady given types) (f : α → γ)
    (hf : ∀ a, types' (f a) ⊆ types a) : (f <$> x).Steady given types' := by
  rw [map_eq_pure_bind]
  exact hx.bind fun a => steady_pure (List.Subset.trans (hf a) (subset_given (types a)))

theorem steady_fail (line : Nat) (fault : ResolveFault) :
    (fail line fault : Resolve α).Steady given types :=
  agrees_throw _

theorem steady_orFail (line : Nat) (fault : ResolveFault) {a : Option α}
    (h : ∀ b ∈ a, types b ⊆ Graph.library.types ++ given) :
    (orFail line fault a).Steady given types := by
  cases a with
  | none => exact steady_fail line fault
  | some a => exact steady_pure (h a rfl)

/-- What is not a type mentions none. -/
theorem steady_present (line : Nat) (fault : ResolveFault) (a : Option α) :
    (orFail line fault a).Steady given fun _ => [] :=
  steady_orFail line fault fun _ _ => List.nil_subset _

/-- A look at the graph has to see what the library has. -/
theorem steady_get {f : Graph → Resolve α} (hf : ∀ g : Graph, g.Grown → f g = f .library)
    (hsteady : (f .library).Steady given types) : (get >>= f).Steady given types := by
  refine agrees_get fun g g' hg hg' => ?_
  rw [hf g hg, hf g' hg']
  exact hsteady

end Resolve

open Resolve

section

variable {given : List Ty}

theorem steady_applySuffixes (suffixes : List Suffix) {t : Ty}
    (ht : t ∈ Graph.library.types ++ given) :
    (applySuffixes suffixes t).Steady given fun u => [u] := by
  induction suffixes generalizing t given with
  | nil => exact steady_pure (List.cons_subset.mpr ⟨ht, List.nil_subset _⟩)
  | cons suffix rest ih =>
      rw [applySuffixes, funext (suffix.apply_eq t)]
      exact (agrees_construct suffix.construct ht).bind fun u => ih (by simp)

theorem steady_resolveType (line : Nat) (text : String) :
    (resolveType line text).Steady given fun t => [t] := by
  unfold resolveType
  refine steady_get (fun g hg => by rw [baseType?_eq hg]) ?_
  have hbase : ∀ name : String, (orFail line (.unknownType name)
      (baseType? .library name)).Steady given fun t => [t] := by
    refine fun name => steady_orFail line _ fun t ht => ?_
    simp [mem_library_of_baseType? ht]
  exact (hbase _).bind fun t => steady_applySuffixes _ (by simp)

theorem steady_resolveTypes (line : Nat) (texts : List String) :
    (resolveTypes line texts).Steady given id := by
  induction texts generalizing given with
  | nil => exact steady_pure (List.nil_subset _)
  | cons text rest ih =>
      refine (steady_resolveType line text).bind fun t => ih.bind fun ts => steady_pure ?_
      simp +contextual [List.subset_def, or_imp]

theorem steady_resolveResult (line : Nat) (text : String) :
    (resolveResult line text).Steady given Option.toList := by
  unfold resolveResult
  split
  · exact steady_pure (List.nil_subset _)
  · exact (steady_resolveType line text).map _ fun t => List.Subset.refl _

theorem steady_resolveList (line : Nat) (text : List Char) :
    (resolveList line text).Steady given id := by
  unfold resolveList
  split
  · exact steady_resolveTypes line _
  · exact agrees_throw _

theorem steady_resolveOwner (line : Nat) (reference : String) :
    (resolveOwner line reference).Steady given fun owned => [owned.1] := by
  refine (steady_present line _ _).bind fun (owner, member) => ?_
  exact (steady_resolveType line _).bind fun t => steady_pure (by simp)

theorem steady_resolveMethod (line : Nat) (reference : String) :
    (resolveMethod line reference).Steady given Method.types := by
  refine (steady_resolveOwner line reference).bind fun (owner, member) => ?_
  dsimp -zeta only
  extract_lets name list choose
  have hchoose : ∀ {given : List Ty} (parameters : Option (List Ty)),
      (choose parameters).Steady given Method.types := by
    intro given parameters
    refine steady_get (fun g hg => ?_) ?_
    · simp only [hg.methodsNamed_eq]
    · simp only []
      split
      · rename_i m hfound
        have hm : m ∈ Graph.library.methods owner := by
          have hmem := hfound ▸ List.mem_singleton_self m
          exact (List.mem_filter.mp (List.mem_filter.mp hmem).1).1
        exact steady_pure (List.subset_append_of_subset_left _ (types_of_method hm))
      · exact steady_fail _ _
      · exact steady_fail _ _
  split
  · have hnone : (pure none : Resolve (Option (List Ty))).Steady ([owner] ++ given) fun _ => [] :=
      steady_pure (List.nil_subset _)
    exact hnone.bind hchoose
  · exact ((steady_resolveList line _).map some fun _ => List.nil_subset _).bind hchoose

theorem steady_resolveField (line : Nat) (reference : String) :
    (resolveField line reference).Steady given Field.types := by
  refine (steady_resolveOwner line reference).bind fun (owner, member) => ?_
  refine steady_get (fun g hg => by simp only [hg.findField_eq]) ?_
  exact steady_orFail _ _ fun f hf => List.subset_append_of_subset_left _ (types_of_field hf)

theorem steady_resolveCallSite (line : Nat) (signature : String) :
    (resolveCallSite line signature).Steady given
      fun site => site.parameters ++ site.result.toList := by
  unfold resolveCallSite
  split
  simp only []
  split
  · exact steady_fail _ _
  · refine (steady_resolveList line _).bind fun parameters => ?_
    refine (steady_resolveResult line _).bind fun result => steady_pure ?_
    simp +contextual [List.subset_def, or_imp]

theorem steady_required (line : Nat) (opcode : String) (operand : Option String) :
    (required line opcode operand).Steady given fun _ => [] :=
  steady_present _ _ _

theorem steady_number {α : Type} (line : Nat) (operand : String) (value : Option α) :
    (number line operand value).Steady given fun _ => [] :=
  steady_present _ _ _

theorem steady_slotOf (line : Nat) (operand : String) :
    (slotOf line operand).Steady given fun _ => [] :=
  steady_number _ _ _

theorem steady_lowerConstrained (line : Nat) (operand : String) :
    (lowerConstrained line operand).Steady given Instruction.types := by
  refine (steady_present _ _ _).bind fun (typeText, call) => ?_
  refine (steady_present _ _ _).bind fun reference => ?_
  refine (steady_resolveMethod line _).bind fun m => ?_
  refine (steady_resolveType line _).bind fun t => steady_pure ?_
  simp +contextual [Instruction.types, List.subset_def]

theorem steady_lowerToken (line : Nat) (operand : String) :
    (lowerToken line operand).Steady given Token.types := by
  unfold lowerToken
  split
  · exact (steady_resolveMethod line _).map _ fun _ => List.Subset.refl _
  · split
    · exact (steady_resolveField line _).map _ fun _ => List.Subset.refl _
    · exact (steady_resolveType line _).map _ fun _ => List.Subset.refl _

theorem steady_lowerOperand (line : Nat) (opcode operand : String) :
    (lowerOperand line opcode operand).Steady given Instruction.types := by
  unfold lowerOperand
  split
  all_goals with_reducible
    first
    | exact steady_lowerConstrained line operand
    | exact steady_fail line _
    | refine Steady.map (steady_slotOf line operand) _ ?_
    | refine Steady.map (steady_number line operand _) _ ?_
    | refine Steady.map (steady_present line _ _) _ ?_
    | refine Steady.map (steady_resolveType line operand) _ ?_
    | refine Steady.map (steady_resolveMethod line operand) _ ?_
    | refine Steady.map (steady_resolveField line operand) _ ?_
    | refine Steady.map (steady_resolveCallSite line operand) _ ?_
    | refine Steady.map (steady_lowerToken line operand) _ ?_
  all_goals exact fun _ => List.Subset.refl _

theorem steady_lowerInstruction (line : Nat) (opcode : String) (operand : Option String) :
    (lowerInstruction line opcode operand).Steady given Instruction.types := by
  unfold lowerInstruction
  split
  · rename_i i hopcode
    split
    · exact steady_fail _ _
    · exact steady_pure (List.subset_append_of_subset_left _ (types_of_opcode hopcode))
  · exact (steady_required line opcode operand).bind fun operand =>
      steady_lowerOperand line opcode operand

end

end ManagedCode.Source
