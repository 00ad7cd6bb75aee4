import ManagedCode.Proofs.Builder.Differ
import ManagedCode.Proofs.Source.Steady
import ManagedCode.Source.Check

namespace ManagedCode.Source

/-! The methods of a file share one graph, and have no influence on each other. -/

open Builder Resolve

/-- Drafts of one body over graphs with the same answers. -/
def Draft.Twin (d d' : Draft) : Prop :=
  d.labels = d'.labels ∧ d.builder.Differ Regraphed d'.builder

def Draft.types (d : Draft) : List Ty := d.builder.types

namespace Drafting

variable {α β : Type} {given : List Ty} {types : α → List Ty} {types' : β → List Ty}

/-- A result, and the drafts that it comes with. -/
def Beside (p q : α × Draft) : Prop := p.1 = q.1 ∧ p.2.Twin q.2

/-- On twins, and on all graphs that have what is given, the two come out the same. -/
def Agrees (given : List Ty) (types : α → List Ty) (x y : Drafting α) : Prop :=
  ∀ d d' : Draft, d.Twin d' → Resolve.Agrees (d.types ++ given) Beside
    (fun p => p.2.types ++ types p.1) (x.run d) (y.run d')

abbrev Steady (given : List Ty) (types : α → List Ty) (x : Drafting α) : Prop :=
  Agrees given types x x

theorem Agrees.bind {x y : Drafting α} {f f' : α → Drafting β} (hx : Agrees given types x y)
    (hf : ∀ a, Agrees (types a ++ given) types' (f a) (f' a)) :
    Agrees given types' (x >>= f) (y >>= f') := by
  intro d d' htwin
  rw [StateT.run_bind, StateT.run_bind]
  refine Resolve.Agrees.bind (hx d d' htwin) ?_
  rintro ⟨a, after⟩ ⟨_, after'⟩ ⟨rfl, hafter⟩
  refine (hf a after after' hafter).mono ?_
  simp +contextual [List.subset_def, or_imp]

theorem agrees_pure {a : α} (h : types a ⊆ Graph.library.types ++ given) :
    Steady given types (pure a : Drafting α) := by
  intro d d' htwin
  refine Resolve.agrees_pure ⟨rfl, htwin⟩ (List.append_subset.mpr ⟨?_, ?_⟩)
  · simp +contextual [List.subset_def]
  · exact List.Subset.trans h (append_subset_append _ (List.subset_append_right _ _))

theorem agrees_throw (e : Failure) : Steady given types (throw e : Drafting α) :=
  fun _ _ _ => Resolve.agrees_throw e

theorem agrees_get {f f' : Draft → Drafting α}
    (hf : ∀ d d' : Draft, d.Twin d' → Agrees (d.types ++ given) types (f d) (f' d')) :
    Agrees given types (get >>= f) (get >>= f') := by
  intro d d' htwin
  refine (hf d d' htwin d d' htwin).mono ?_
  simp +contextual [List.subset_def]

theorem agrees_set {d d' : Draft} (h : d.Twin d') (htypes : d.types ⊆ given) :
    Agrees given (fun _ => []) (set d : Drafting PUnit) (set d') := by
  intro start start' _
  refine Resolve.agrees_pure ⟨rfl, h⟩ (List.append_subset.mpr ⟨?_, List.nil_subset _⟩)
  exact List.subset_append_of_subset_right _ (List.subset_append_of_subset_right _ htypes)

theorem agrees_modify {f f' : Draft → Draft} (hf : ∀ d d' : Draft, d.Twin d' → (f d).Twin (f' d'))
    (htypes : ∀ d, (f d).types ⊆ d.types ++ given) :
    Agrees given (fun _ => []) (modify f : Drafting PUnit) (modify f') :=
  agrees_get fun d d' htwin => agrees_set (hf d d' htwin) (htypes d)

theorem agrees_lift {x : Resolve α} (hx : x.Steady given types) :
    Steady given types (liftM x : Drafting α) := by
  intro d d' htwin
  refine Resolve.Agrees.bind (hx.mono (List.subset_append_right _ _)) ?_
  rintro a _ rfl
  refine Resolve.agrees_pure ⟨rfl, htwin⟩ ?_
  simp +contextual [List.subset_def, or_imp]

/-- The builders that are at hand have the graphs of the moment. -/
theorem agrees_builder {f f' : Builder → Drafting α}
    (hf : ∀ b b' : Builder, b.Differ Regraphed b' →
      Agrees (b.types ++ given) types (f b) (f' b')) :
    Agrees given types (builder >>= f) (builder >>= f') := by
  intro d d' htwin kept g g' hkept hboth
  have hdiffer : Differ Regraphed { d.builder with graph := g }
      { d'.builder with graph := g' } := by
    obtain ⟨h, settings, ⟨-, hsettings⟩, hbuilder⟩ := htwin.2
    rw [hbuilder]
    have hanswers := hboth.grown.2.isAssignable_eq.trans hboth.grown.1.isAssignable_eq.symm
    exact ⟨g', settings, ⟨hanswers, hsettings⟩, rfl⟩
  refine hf _ _ hdiffer d d' htwin kept g g' (List.Subset.trans ?_ hkept) hboth
  have htypes : Builder.types { d.builder with graph := g } = d.types := rfl
  rw [htypes]
  simp +contextual [List.subset_def]

theorem agrees_make {made : Option (Construct × Ty)}
    (h : ∀ p ∈ made, p.2 ∈ Graph.library.types ++ given) :
    Steady given (fun _ => []) (make made) := by
  cases made with
  | none => exact agrees_pure (List.nil_subset _)
  | some p =>
      obtain ⟨c, t⟩ := p
      have hmake : make (some (c, t)) =
          (liftM (modifyGet fun g => g.construct c t : Resolve Ty) >>= fun _ => pure ()) := rfl
      rw [hmake]
      exact (agrees_lift (Resolve.agrees_construct c (h _ rfl))).bind fun _ =>
        agrees_pure (List.nil_subset _)

theorem agrees_build (method : String) (line : Nat) {action : Emit α}
    (h : Emit.Agrees Regraphed action action)
    (hplaces : ∀ ts, given ⊆ ts → action.Keeps (PlacesIn ts)) :
    Steady given (fun _ => []) (build method line action) := by
  refine agrees_builder fun b b' hdiffer => ?_
  have hsame := h.same hdiffer
  have hstates := h.states hdiffer
  have htypes := hplaces (b.types ++ given) (List.subset_append_right _ _) b
    (List.subset_append_left _ _)
  simp only [Emit.on] at htypes ⊢
  generalize action.run.run b = first at hsame hstates htypes ⊢
  generalize action.run.run b' = second at hsame hstates ⊢
  rcases first with ⟨outcome, after⟩
  rcases second with ⟨outcome', after'⟩
  cases hsame with
  | ok hab =>
      cases hab
      refine Agrees.bind (agrees_modify ?_ ?_) fun _ => agrees_pure (List.nil_subset _)
      · exact fun d d' htwin => ⟨htwin.1, hstates⟩
      · exact fun d => List.subset_append_of_subset_right _ htypes
  | error e => exact agrees_throw _

theorem agrees_label (name : String) : Steady given (fun _ => []) (label name) := by
  refine agrees_get fun d d' htwin => ?_
  obtain ⟨hlabels, hbuilder⟩ := htwin
  rw [hlabels]
  cases d'.labels.lookup name with
  | some l => exact agrees_pure (List.nil_subset _)
  | none =>
      obtain ⟨g, settings, hg, hd'⟩ := hbuilder
      simp only []
      rw [hd']
      refine Agrees.bind (agrees_set ⟨rfl, g, settings, hg, rfl⟩ ?_) fun _ =>
        agrees_pure (List.nil_subset _)
      exact List.subset_append_left _ _

theorem agrees_labels (names : List String) : Steady given (fun _ => []) (labels names) := by
  induction names generalizing given with
  | nil => exact agrees_pure (List.nil_subset _)
  | cons name rest ih =>
      exact (agrees_label name).bind fun l => ih.bind fun ls => agrees_pure (List.nil_subset _)

end Drafting

open Drafting

section Lines

variable {given : List Ty}

/-- The types that are mentioned by a branch, if there is one. -/
def mentioned (branch? : Option Branch) : List Ty := branch?.elim [] Branch.types

theorem types_of_simpleBranch? {opcode : String} {i : Branch} (h : simpleBranch? opcode = some i) :
    i.types = [] := by
  unfold simpleBranch? at h
  split at h <;> cases h <;> rfl

theorem types_of_labelBranch? {opcode : String} {make : Label → Branch}
    (h : labelBranch? opcode = some make) (l : Label) : (make l).types = [] := by
  unfold labelBranch? at h
  split at h
  all_goals first
    | cases h
      rfl
    | obtain ⟨comparison, -, rfl⟩ := Option.map_eq_some_iff.mp h
      rfl

theorem agrees_lowerBranch? (line : Nat) (opcode : String) (operand : Option String) :
    Drafting.Steady given mentioned (lowerBranch? line opcode operand) := by
  have hoperand : ∀ opcode, Drafting.Steady given (fun _ => [])
      (liftM (required line opcode operand)) :=
    fun opcode => agrees_lift (steady_required line opcode operand)
  unfold lowerBranch?
  simp only []
  split
  · rename_i b _ hbranch
    split
    · exact agrees_throw _
    · refine agrees_pure ?_
      rw [mentioned, Option.elim_some, types_of_simpleBranch? hbranch]
      exact List.nil_subset _
  · rename_i make _ hbranch
    refine (hoperand _).bind fun name => (agrees_label name).bind fun l => ?_
    refine agrees_pure ?_
    rw [mentioned, Option.elim_some, types_of_labelBranch? hbranch]
    exact List.nil_subset _
  · split
    · refine (hoperand _).bind fun list => ?_
      split
      · exact (agrees_labels _).bind fun ls => agrees_pure (List.nil_subset _)
      · exact agrees_throw _
    · split
      · refine (hoperand _).bind fun reference => ?_
        exact (agrees_lift (steady_resolveMethod line reference)).bind fun m =>
          agrees_pure (subset_given m.types)
      · exact agrees_pure (List.nil_subset _)

/-- What a check makes a type of is the type of an argument or a local, or the instruction mentions
it. -/
theorem mem_of_makes? {c : Context} {i : Instruction} {p : Construct × Ty} (h : p ∈ c.makes? i) :
    p.2 ∈ c.arguments.toList ++ c.locals.toList ++ i.types := by
  unfold Context.makes? at h
  split at h
  · obtain ⟨t, ht, rfl⟩ := Option.map_eq_some_iff.mp h
    simp [Array.mem_of_getElem? ht]
  · obtain ⟨t, ht, rfl⟩ := Option.map_eq_some_iff.mp h
    simp [Array.mem_of_getElem? ht]
  all_goals cases h
  all_goals simp [Instruction.types, Field.types]

theorem mem_of_madeByTransfer? {c : Context} {i : Branch} {s : EvalStack} {p : Construct × Ty}
    (h : p ∈ c.madeByTransfer? i s) : p.2 ∈ i.types := by
  unfold Context.madeByTransfer? at h
  split at h
  · split at h
    · cases h
      exact List.mem_cons_self
    · cases h
  · cases h

/-- A check at the current place, with what it makes of the types that are given. -/
theorem agrees_check (method : String) (line : Nat) {made? : Builder → Option (Construct × Ty)}
    {action : Emit Unit} (haction : Emit.Agrees Regraphed action action)
    (hplaces : ∀ ts, action.Keeps (PlacesIn ts))
    (hsame : ∀ b b' : Builder, b.Differ Regraphed b' → made? b' = made? b)
    (hmade : ∀ b : Builder, ∀ p ∈ made? b, p.2 ∈ Graph.library.types ++ (b.types ++ given)) :
    Drafting.Steady given (fun _ => []) (do
      let place ← builder
      make (made? place)
      build method line action) := by
  refine agrees_builder fun b b' hdiffer => ?_
  rw [hsame b b' hdiffer]
  exact (agrees_make (hmade b)).bind fun _ => agrees_build _ _ haction fun ts _ => hplaces ts

theorem agrees_instruction (method : String) (line : Nat) (i : Instruction)
    (hi : i.types ⊆ Graph.library.types ++ given) :
    Drafting.Steady given (fun _ => []) (do
      let place ← builder
      make (place.context.made? i place.stack)
      build method line (Builder.push i)) := by
  refine agrees_check method line (agrees_push i) (fun ts => placesIn_push i) ?_ ?_
  · rintro b _ ⟨g, settings, ⟨hg, rfl⟩, rfl⟩
    exact congrFun (b.context.made?_withGraph hg i) b.stack
  · intro b p hp
    rcases List.mem_append.mp (mem_of_makes? (Option.mem_filter_iff.mp hp).1) with hplace | hmem
    · exact subset_given b.types hplace
    · exact append_subset_append _ (List.subset_append_right _ _) (hi hmem)

theorem agrees_transfer (method : String) (line : Nat) (i : Branch)
    (hi : i.types ⊆ Graph.library.types ++ given) :
    Drafting.Steady given (fun _ => []) (do
      let place ← builder
      make (place.context.madeByTransfer? i place.stack)
      build method line (Builder.branch i)) := by
  refine agrees_check method line (agrees_branch unseen_regraphed i) (fun ts => placesIn_branch i)
    ?_ ?_
  · rintro b _ ⟨g, settings, -, rfl⟩
    rfl
  · intro b p hp
    exact append_subset_append _ (List.subset_append_right _ _) (hi (mem_of_madeByTransfer? hp))

theorem agrees_draftLine (method : String) (l : BodyLine) :
    Drafting.Steady given (fun _ => []) (draftLine method l) := by
  unfold draftLine
  cases l.statement with
  | label name =>
      exact (agrees_label name).bind fun target =>
        agrees_build _ _ (agrees_mark target) fun ts _ => placesIn_mark target
  | beginTry endName =>
      refine agrees_get fun d d' htwin => ?_
      rw [htwin.1]
      split
      · exact agrees_throw _
      · have htry : ∀ ts, d.types ++ given ⊆ ts → beginTry.Keeps (PlacesIn ts) :=
          fun ts _ => placesIn_beginTry
        refine (agrees_build _ _ agrees_beginTry htry).bind fun endLabel => ?_
        refine agrees_modify (fun d d' htwin => ⟨?_, htwin.2⟩) fun d => List.subset_append_left _ _
        rw [htwin.1]
  | beginCatch exception =>
      refine (agrees_lift (steady_resolveType l.line exception)).bind fun t => ?_
      have hcatch := agrees_beginCatch unseen_regraphed t
      exact agrees_build _ _ hcatch fun ts _ => placesIn_beginCatch t
  | beginFinally => exact agrees_build _ _ agrees_beginFinally fun ts _ => placesIn_beginFinally
  | endTry => exact agrees_build _ _ agrees_endBlock fun ts _ => placesIn_endBlock
  | instruction opcode operand =>
      refine (agrees_lowerBranch? l.line opcode operand).bind fun branch? => ?_
      cases branch? with
      | some i => exact agrees_transfer method l.line i (subset_given i.types)
      | none =>
          refine (agrees_lift (steady_lowerInstruction l.line opcode operand)).bind fun i => ?_
          exact agrees_instruction method l.line i (subset_given i.types)

theorem agrees_draftLines (method : String) (lines : List BodyLine) :
    Drafting.Steady given (fun _ => []) (draftLines method lines) := by
  induction lines generalizing given with
  | nil => exact Drafting.agrees_pure (List.nil_subset _)
  | cons l rest ih => exact (agrees_draftLine method l).bind fun _ => ih

theorem agrees_declareLocals (method : String) (line : Nat) {types : List Ty}
    (h : types ⊆ given) :
    Drafting.Steady given (fun _ => []) (declareLocals method line types) := by
  induction types with
  | nil => exact Drafting.agrees_pure (List.nil_subset _)
  | cons t rest ih =>
      obtain ⟨ht, hrest⟩ := List.cons_subset.mp h
      have hplaces : ∀ ts, given ⊆ ts → (declareLocal t).Keeps (PlacesIn ts) :=
        fun ts hts => placesIn_declareLocal (hts ht)
      exact (agrees_build _ _ (agrees_declareLocal t) hplaces).bind fun _ => ih hrest

end Lines

/-- The body of a method comes out the same, whatever graph it starts with. -/
theorem steady_buildMethod (settings : Settings) (m : MethodText) :
    (buildMethod settings m).Steady [] fun _ => [] := by
  refine (steady_resolveResult _ _).bind fun result => ?_
  refine (steady_resolveTypes _ _).bind fun parameters => ?_
  refine (steady_resolveTypes _ _).bind fun locals => ?_
  refine Resolve.agrees_get fun g g' hg hg' => ?_
  have hstart : Draft.Twin ⟨(Builder.new g parameters result).withSettings settings, []⟩
      ⟨(Builder.new g' parameters result).withSettings settings, []⟩ :=
    ⟨rfl, g', settings, ⟨hg'.isAssignable_eq.trans hg.isAssignable_eq.symm, rfl⟩, rfl⟩
  have hlines := (agrees_declareLocals m.name m.line (List.Subset.refl locals)).bind fun _ =>
    agrees_draftLines m.name m.body.toList
  have htypes : (Builder.new g parameters result).types = parameters := List.append_nil _
  have hgiven : (Builder.new g parameters result).types ++ locals ⊆
      id locals ++ (id parameters ++ (result.toList ++ [])) := by
    rw [htypes]
    simp +contextual [List.subset_def, or_imp]
  refine Resolve.Agrees.bind ((hlines _ _ hstart).mono hgiven) ?_
  rintro ⟨_, d⟩ ⟨_, d'⟩ ⟨-, -, hbuilder⟩
  simp only []
  rw [finish_regraphed hbuilder]
  cases d.builder.finish with
  | ok code => exact steady_pure (List.nil_subset _)
  | error error => exact Resolve.agrees_throw _

/-- The outcome of a method that has a graph of its own. -/
def alone (settings : Settings) (m : MethodText) : Except Failure Code :=
  ((buildMethod settings m).run.run .library).1

/-- The graph behind methods that have been visited in turn, whether they are accepted or not. -/
def visited (settings : Settings) (methods : List MethodText) (g : Graph) : Graph :=
  methods.foldl (fun g m => ((buildMethod settings m).run.run g).2) g

theorem Report.failure_andThen (first : Report) (second : Unit → Report) :
    (first.andThen second).failure = first.failure.or (second ()).failure := by
  unfold andThen
  cases hfailure : first.failure with
  | none => rfl
  | some failure => exact hfailure

section Grown

variable (settings : Settings) {g : Graph} (h : g.Grown)
include h

theorem buildMethod_alone (m : MethodText) :
    ((buildMethod settings m).run.run g).1 = alone settings m :=
  ((steady_buildMethod settings m).paired h .library).outcome

theorem grown_buildMethod (m : MethodText) : ((buildMethod settings m).run.run g).2.Grown :=
  ((steady_buildMethod settings m).paired h h).grown.1

theorem grown_visited (methods : List MethodText) : (visited settings methods g).Grown := by
  induction methods generalizing g with
  | nil => exact h
  | cons m rest ih => exact ih (grown_buildMethod settings h m)

theorem failure_checkMethods (methods : List MethodText) :
    (checkMethods settings methods g).failure =
      methods.findSome? fun m => (m.judge (alone settings m)).failure := by
  induction methods generalizing g with
  | nil => rfl
  | cons m rest ih =>
      have hcheck : checkMethods settings (m :: rest) g =
          (m.judge ((buildMethod settings m).run.run g).1).andThen fun _ =>
            checkMethods settings rest ((buildMethod settings m).run.run g).2 := rfl
      rw [hcheck, Report.failure_andThen, ih (grown_buildMethod settings h m),
        buildMethod_alone settings h m, List.findSome?_cons]
      cases (m.judge (alone settings m)).failure <;> rfl

end Grown

/-- Whatever methods come before a method, rejected ones included, and whatever has been made before
them, it comes out as it does alone. So a file is accepted if and only if each of its methods is
accepted alone, and otherwise it fails where the first of them does. -/
theorem methods_independent (settings : Settings) :
    (∀ g : Graph, g.Grown → ∀ methods : List MethodText, (visited settings methods g).Grown ∧
      ∀ m : MethodText, ((buildMethod settings m).run.run (visited settings methods g)).1 =
        alone settings m) ∧
    (∀ source : String, (checkSource settings source).failure =
      match parseFile source with
      | .ok methods => methods.findSome? fun m => (m.judge (alone settings m)).failure
      | .error error => some (.parse error)) ∧
    ∀ methods : List MethodText, (checkMethods settings methods .library).failure = none ↔
      ∀ m ∈ methods, (m.judge (alone settings m)).failure = none := by
  refine ⟨?_, ?_, ?_⟩
  · intro g hg methods
    have hvisited := grown_visited settings hg methods
    exact ⟨hvisited, buildMethod_alone settings hvisited⟩
  · intro source
    unfold checkSource
    cases parseFile source with
    | ok methods => exact failure_checkMethods settings .library methods
    | error error => rfl
  · intro methods
    rw [failure_checkMethods settings .library, List.findSome?_eq_none_iff]

namespace Sample

/-- Rejected at its end. The address and the array that it pushes before have been made by then. -/
def openEnded : MethodText where
  line := 1
  name := "OpenEnded"
  result := "void"
  parameters := ["System.Int32"]
  locals := []
  expectInvalid := true
  body := #[⟨2, .instruction "ldarga" (some "0")⟩, ⟨3, .instruction "pop" none⟩,
    ⟨4, .instruction "ldc.i4.1" none⟩, ⟨5, .instruction "newarr" (some "System.String")⟩]

def measuring : MethodText where
  line := 7
  name := "Measuring"
  result := "native uint"
  parameters := ["System.String[]"]
  locals := []
  expectInvalid := false
  body := #[⟨8, .instruction "ldarg.0" none⟩, ⟨9, .instruction "ldlen" none⟩,
    ⟨10, .instruction "ret" none⟩]

end Sample

open Sample in
theorem methods_independent_made :
    let g := visited {} [openEnded] .library
    (alone {} openEnded).isOk = false ∧ g.Grown ∧
      g.lookup "System.Int32&" = some (.byRef .int32) ∧
      g.lookup "System.String[]" = some (.arrayOf .string) ∧
      ((buildMethod {} measuring).run.run g).1 = alone {} measuring ∧
      (alone {} measuring).isOk = true := by
  intro g
  have hmade : g.lookup "System.Int32&" = some (.byRef .int32) ∧
      g.lookup "System.String[]" = some (.arrayOf .string) := by
    decide +kernel
  have houtcomes : (alone {} openEnded).isOk = false ∧ (alone {} measuring).isOk = true := by
    decide +kernel
  obtain ⟨hvisited, -, -⟩ := methods_independent {}
  obtain ⟨hgrown, halone⟩ := hvisited .library .library [openEnded]
  exact ⟨houtcomes.1, hgrown, hmade.1, hmade.2, halone measuring, houtcomes.2⟩

end ManagedCode.Source
