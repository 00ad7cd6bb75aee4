import ManagedCode.Proofs.Graph.Interned

namespace ManagedCode

/-! Methods and fields have a place in the list of the type that declares them, for good. What is
declared again is found at its place, so a place stands for one name, with a signature and with or
without a receiver if it is a method. -/

namespace Method

/-- What tells the methods of a graph apart. -/
def key (m : Method) : Ty × MemberName × Signature × Bool :=
  (m.declaring, m.name, m.signature, m.isStatic)

theorem key_eq_iff {m n : Method} :
    m.key = n.key ↔ m.agrees n = true ∧ m.isStatic = n.isStatic := by
  simp [key, agrees, and_assoc]

theorem key_ne_of_not_clashes {m n : Method} (h : m.clashes n = false) : m.key ≠ n.key := by
  intro hkey
  simp only [key, Prod.mk.injEq] at hkey
  simp [clashes, hkey] at h

end Method

namespace Field

/-- What tells the fields of a graph apart. -/
def key (f : Field) : Ty × MemberName :=
  (f.declaring, f.name)

theorem key_eq_iff {f f' : Field} : f.key = f'.key ↔ f.agrees f' = true := by
  simp [key, agrees]

end Field

namespace Graph

/-- The place of a member. -/
structure Handle where
  declaring : Ty
  index : Nat
  deriving DecidableEq

def methodAt? (g : Graph) (h : Handle) : Option Method := (g.methods h.declaring)[h.index]?

def fieldAt? (g : Graph) (h : Handle) : Option Field := (g.fields h.declaring)[h.index]?

section

variable {α : Type} {g : Graph} {list : Entry → List α} {change : Entry → Entry}

/-- What the entry of a type lists. -/
def listed (g : Graph) (list : Entry → List α) (t : Ty) : List α :=
  ((g.entry? t).map list).getD []

theorem listed_declare (hnew : ∀ t, list (.ofType t) = []) (g : Graph) (u t : Ty) :
    listed (g.declare u).2 list t = g.listed list t := by
  rcases declare_cases g u with ⟨-, hdeclared⟩ | hsame
  · rw [hdeclared, listed, listed, entry?, entry?, List.find?_append]
    cases g.entries.find? (·.type = t) with
    | some e => rfl
    | none =>
        rw [Option.none_or]
        cases hfound : [Entry.ofType u].find? (·.type = t) with
        | none => rfl
        | some e =>
            cases List.mem_singleton.mp (List.mem_of_find?_eq_some hfound)
            exact hnew u
  · rw [hsame]

theorem entry?_update (htype : ∀ e, (change e).type = e.type) (g : Graph) (u t : Ty) :
    entry? (g.update u change) t =
      (g.entry? t).map fun e => if e.type = u then change e else e := by
  have hsame : ((fun e : Entry => decide (e.type = t)) ∘ fun e => if e.type = u then change e else e) =
      fun e => decide (e.type = t) := by
    funext e
    by_cases he : e.type = u
    · simp [he, htype]
    · simp [he]
  rw [update, entry?, entry?, List.find?_map, hsame]

theorem listed_update (change : Entry → Entry) (htype : ∀ e, (change e).type = e.type)
    (hlist : ∀ e, list (change e) = list e) (g : Graph) (u t : Ty) :
    (g.update u change).listed list t = g.listed list t := by
  rw [listed, listed, entry?_update htype]
  cases g.entry? t with
  | none => rfl
  | some e =>
      by_cases he : e.type = u
      · simp [he, hlist]
      · simp [he]

theorem listed_addInterface (hlist : ∀ (e : Entry) interfaces, list { e with interfaces } = list e)
    (g : Graph) (u i t : Ty) : listed (g.addInterface u i) list t = g.listed list t := by
  unfold addInterface
  split
  · rfl
  · exact listed_update (fun e => { e with interfaces := e.interfaces ++ [i] }) (fun _ => rfl)
      (fun e => hlist e _) g u t

theorem listed_append {a : α} (change : Entry → Entry) (htype : ∀ e, (change e).type = e.type)
    (hlist : ∀ e, list (change e) = list e ++ [a]) (g : Graph) (u t : Ty) :
    (g.update u change).listed list t =
      g.listed list t ++ if t = u ∧ t ∈ g.types then [a] else [] := by
  rw [listed, listed, entry?_update htype]
  cases hentry : g.entry? t with
  | none =>
      have hunknown : t ∉ g.types := by
        intro ht
        obtain ⟨e, he, -⟩ := exists_entry?_of_mem ht
        cases hentry.symm.trans he
      simp [hunknown]
  | some e =>
      have he : e.type = t := by simpa using List.find?_some hentry
      have hknown : t ∈ g.types := he ▸ List.mem_map_of_mem (List.mem_of_find?_eq_some hentry)
      by_cases ht : t = u
      · simp [he, ht, ht ▸ hknown, hlist]
      · simp [he, ht]

end

section

variable {g : Graph} {t : Ty}

theorem methods_addField (g : Graph) (f : Field) (t : Ty) :
    (g.addField f).2.methods t = g.methods t := by
  unfold addField
  split
  · rfl
  · exact listed_update (fun e => { e with fields := e.fields ++ [f] }) (fun _ => rfl)
      (fun _ => rfl) g f.declaring t

theorem fields_addMethod (g : Graph) (m : Method) (t : Ty) :
    (g.addMethod m).2.fields t = g.fields t := by
  unfold addMethod
  split
  · rfl
  · exact listed_update (fun e => { e with methods := e.methods ++ [m] }) (fun _ => rfl)
      (fun _ => rfl) g m.declaring t

/-- A method is added where none has its key. -/
theorem addMethod_cases (g : Graph) (m : Method) :
    (∃ known ∈ g.methods m.declaring, m.clashes known = true ∧ g.addMethod m = (known, g)) ∨
      m.key ∉ (g.methods m.declaring).map Method.key ∧ (g.addMethod m).1 = m ∧
        ∀ t, (g.addMethod m).2.methods t =
          g.methods t ++ if t = m.declaring ∧ t ∈ g.types then [m] else [] := by
  unfold addMethod
  cases hfound : (g.methods m.declaring).find? m.clashes with
  | some known =>
      exact .inl ⟨known, List.mem_of_find?_eq_some hfound, List.find?_some hfound, rfl⟩
  | none =>
      refine .inr ⟨?_, rfl, fun t => ?_⟩
      · intro hkey
        obtain ⟨known, hknown, hsame⟩ := List.mem_map.mp hkey
        have hclashes := List.find?_eq_none.mp hfound known hknown
        exact Method.key_ne_of_not_clashes (Bool.eq_false_iff.mpr hclashes) hsame.symm
      · exact listed_append (fun e => { e with methods := e.methods ++ [m] }) (fun _ => rfl)
          (fun _ => rfl) g m.declaring t

/-- A field is added where none has its key. -/
theorem addField_cases (g : Graph) (f : Field) :
    (∃ known ∈ g.fields f.declaring, known.name = f.name ∧ g.addField f = (known, g)) ∨
      f.key ∉ (g.fields f.declaring).map Field.key ∧ (g.addField f).1 = f ∧
        ∀ t, (g.addField f).2.fields t =
          g.fields t ++ if t = f.declaring ∧ t ∈ g.types then [f] else [] := by
  unfold addField
  cases hfound : (g.fields f.declaring).find? (·.name = f.name) with
  | some known =>
      have hname : known.name = f.name := by simpa using List.find?_some hfound
      exact .inl ⟨known, List.mem_of_find?_eq_some hfound, hname, rfl⟩
  | none =>
      refine .inr ⟨?_, rfl, fun t => ?_⟩
      · intro hkey
        obtain ⟨known, hknown, hsame⟩ := List.mem_map.mp hkey
        have hname := List.find?_eq_none.mp hfound known hknown
        exact hname (decide_eq_true (congrArg Prod.snd hsame))
      · exact listed_append (fun e => { e with fields := e.fields ++ [f] }) (fun _ => rfl)
          (fun _ => rfl) g f.declaring t

end

section

variable {α κ : Type} {owner : α → Ty} {key : α → κ} {t : Ty} {before after : List α}

/-- A list gains a member of the type at most, at its end, and one that has a key of its own. -/
def Gains (owner : α → Ty) (key : α → κ) (t : Ty) (before after : List α) : Prop :=
  after = before ∨ ∃ a, owner a = t ∧ key a ∉ before.map key ∧ after = before ++ [a]

theorem gains_of_append {known : List Ty} {a : α} {members : Ty → List α}
    (hkey : key a ∉ (members (owner a)).map key) (t : Ty) :
    Gains owner key t (members t)
      (members t ++ if t = owner a ∧ t ∈ known then [a] else []) := by
  split
  · rename_i ht
    obtain ⟨rfl, -⟩ := ht
    exact .inr ⟨a, rfl, hkey, rfl⟩
  · exact .inl (List.append_nil _)

structure Distinct (owner : α → Ty) (key : α → κ) (t : Ty) (members : List α) : Prop where
  owners : ∀ a ∈ members, owner a = t
  keys : (members.map key).Nodup

theorem distinct_nil : Distinct owner key t [] :=
  ⟨nofun, List.nodup_nil⟩

theorem Gains.distinct (h : Gains owner key t before after) (hbefore : Distinct owner key t before) :
    Distinct owner key t after := by
  rcases h with rfl | ⟨a, howner, hkey, rfl⟩
  · exact hbefore
  · refine ⟨?_, ?_⟩
    · intro x hx
      rcases List.mem_append.mp hx with hx | hx
      · exact hbefore.owners x hx
      · cases List.mem_singleton.mp hx
        exact howner
    · rw [List.map_append, List.nodup_append]
      refine ⟨hbefore.keys, List.nodup_singleton _, ?_⟩
      intro x hx y hy heq
      cases List.mem_singleton.mp hy
      exact hkey (heq ▸ hx)

theorem Gains.isPrefix (h : Gains owner key t before after) : before <+: after := by
  rcases h with rfl | ⟨a, -, -, rfl⟩
  · exact List.prefix_rfl
  · exact List.prefix_append _ _

theorem Distinct.pairwise (h : Distinct owner key t before) :
    before.Pairwise fun a b => key a ≠ key b :=
  List.pairwise_map.mp h.keys

/-- A place is known by what stands there. -/
theorem handle_eq_iff {members : Ty → List α} (hdistinct : ∀ t, Distinct owner key t (members t))
    (hkey : ∀ {a b}, key a = key b → owner a = owner b) {h h' : Handle} {a b : α}
    (ha : (members h.declaring)[h.index]? = some a) (hb : (members h'.declaring)[h'.index]? = some b) :
    h = h' ↔ key a = key b := by
  constructor
  · rintro rfl
    cases ha.symm.trans hb
    rfl
  · intro hsame
    obtain ⟨t, i⟩ := h
    obtain ⟨t', j⟩ := h'
    have howner : owner a = t := (hdistinct t).owners a (List.mem_of_getElem? ha)
    have howner' : owner b = t' := (hdistinct t').owners b (List.mem_of_getElem? hb)
    have ht : t = t' := howner.symm.trans ((hkey hsame).trans howner')
    subst ht
    have hi : i < ((members t).map key).length := by
      rw [List.length_map]
      exact (List.getElem?_eq_some_iff.mp ha).1
    have hkeys : ((members t).map key)[i]? = ((members t).map key)[j]? := by
      rw [List.getElem?_map, List.getElem?_map, ha, hb]
      exact congrArg some hsame
    rw [(List.getElem?_inj hi (hdistinct t).keys).mp hkeys]

theorem getElem?_of_prefix {place : Nat} {a : α} (h : before <+: after)
    (ha : before[place]? = some a) : after[place]? = some a := by
  obtain ⟨more, rfl⟩ := h
  rw [List.getElem?_append_left (List.getElem?_eq_some_iff.mp ha).1, ha]

end

variable {g g' : Graph} {t : Ty}

theorem Edit.methods (h : g.Edit g') (t : Ty) :
    Gains Method.declaring Method.key t (g.methods t) (g'.methods t) := by
  cases h with
  | @declare u => exact .inl (listed_declare (fun _ => rfl) g u t)
  | addInterface u i => exact .inl (listed_addInterface (fun _ _ => rfl) g u i t)
  | addField f => exact .inl (methods_addField g f t)
  | addMethod m =>
      rcases addMethod_cases g m with ⟨known, -, -, hrun⟩ | ⟨hkey, -, hmethods⟩
      · rw [hrun]
        exact .inl rfl
      · rw [hmethods]
        exact gains_of_append hkey t

theorem Edit.fields (h : g.Edit g') (t : Ty) :
    Gains Field.declaring Field.key t (g.fields t) (g'.fields t) := by
  cases h with
  | @declare u => exact .inl (listed_declare (fun _ => rfl) g u t)
  | addInterface u i => exact .inl (listed_addInterface (fun _ _ => rfl) g u i t)
  | addMethod m => exact .inl (fields_addMethod g m t)
  | addField f =>
      rcases addField_cases g f with ⟨known, -, -, hrun⟩ | ⟨hkey, -, hfields⟩
      · rw [hrun]
        exact .inl rfl
      · rw [hfields]
        exact gains_of_append hkey t

theorem distinct_methods (h : empty.Edits g) (t : Ty) :
    Distinct Method.declaring Method.key t (g.methods t) := by
  induction h with
  | refl => exact distinct_nil
  | tail _ hlast ih => exact (hlast.methods t).distinct ih

theorem distinct_fields (h : empty.Edits g) (t : Ty) :
    Distinct Field.declaring Field.key t (g.fields t) := by
  induction h with
  | refl => exact distinct_nil
  | tail _ hlast ih => exact (hlast.fields t).distinct ih

theorem methods_isPrefix (h : g.Edits g') (t : Ty) : g.methods t <+: g'.methods t := by
  induction h with
  | refl => exact List.prefix_rfl
  | tail _ hlast ih => exact ih.trans (hlast.methods t).isPrefix

theorem fields_isPrefix (h : g.Edits g') (t : Ty) : g.fields t <+: g'.fields t := by
  induction h with
  | refl => exact List.prefix_rfl
  | tail _ hlast ih => exact ih.trans (hlast.fields t).isPrefix

/-- The method that stands for an added one is in the graph. -/
theorem exists_addMethod (h : empty.Edits g) {m : Method} (hm : m.declaring ∈ g.types) :
    ∃ place : Handle, (g.addMethod m).2.methodAt? place = some (g.addMethod m).1 ∧
      (g.addMethod m).1.key = m.key := by
  rcases addMethod_cases g m with ⟨known, hknown, hclashes, hrun⟩ | ⟨-, hadded, hmethods⟩
  · obtain ⟨place, hplace⟩ := List.mem_iff_getElem?.mp hknown
    have howner := (distinct_methods h m.declaring).owners known hknown
    rw [hrun]
    refine ⟨⟨m.declaring, place⟩, hplace, ?_⟩
    simp only [Method.clashes, Bool.and_eq_true, decide_eq_true_eq] at hclashes
    simp [Method.key, howner, hclashes]
  · rw [hadded]
    refine ⟨⟨m.declaring, (g.methods m.declaring).length⟩, ?_, rfl⟩
    rw [methodAt?, hmethods, if_pos ⟨rfl, hm⟩]
    exact List.getElem?_concat_length

/-- The field that stands for an added one is in the graph. -/
theorem exists_addField (h : empty.Edits g) {f : Field} (hf : f.declaring ∈ g.types) :
    ∃ place : Handle, (g.addField f).2.fieldAt? place = some (g.addField f).1 ∧
      (g.addField f).1.key = f.key := by
  rcases addField_cases g f with ⟨known, hknown, hname, hrun⟩ | ⟨-, hadded, hfields⟩
  · obtain ⟨place, hplace⟩ := List.mem_iff_getElem?.mp hknown
    have howner := (distinct_fields h f.declaring).owners known hknown
    rw [hrun]
    refine ⟨⟨f.declaring, place⟩, hplace, ?_⟩
    rw [Field.key, Field.key, howner, hname]
  · rw [hadded]
    refine ⟨⟨f.declaring, (g.fields f.declaring).length⟩, ?_, rfl⟩
    rw [fieldAt?, hfields, if_pos ⟨rfl, hf⟩]
    exact List.getElem?_concat_length

/-- The place of a member, its description and what tells it apart are the same to know. For fields
that is the declaring type and the name. For methods it is the signature besides, and whether there
is a receiver, which agreement of methods leaves out: a static method and one of instances may
agree, and are two methods for all that. -/
theorem members_told_apart (h : empty.Grows g) :
    (∀ (a b : Handle) (m n : Method), g.methodAt? a = some m → g.methodAt? b = some n →
      (a = b ↔ m = n) ∧ (a = b ↔ m.agrees n = true ∧ m.isStatic = n.isStatic)) ∧
    (∀ (a b : Handle) (f f' : Field), g.fieldAt? a = some f → g.fieldAt? b = some f' →
      (a = b ↔ f = f') ∧ (a = b ↔ f.agrees f' = true)) ∧
    (∀ t, (g.methods t).Pairwise (fun m n => m.agrees n = true → m.isStatic ≠ n.isStatic) ∧
      (g.fields t).Pairwise fun f f' => f.agrees f' = false) ∧
    (∀ g' : Graph, g.Grows g' → ∀ a : Handle,
      (∀ m, g.methodAt? a = some m → g'.methodAt? a = some m) ∧
        ∀ f, g.fieldAt? a = some f → g'.fieldAt? a = some f) ∧
    (∀ m : Method, m.declaring ∈ g.types → ∃ a,
      (g.addMethod m).2.methodAt? a = some (g.addMethod m).1 ∧
        (g.addMethod m).1.agrees m = true ∧ (g.addMethod m).1.isStatic = m.isStatic) ∧
    ∀ f : Field, f.declaring ∈ g.types → ∃ a,
      (g.addField f).2.fieldAt? a = some (g.addField f).1 ∧ (g.addField f).1.agrees f = true := by
  have hmethods := distinct_methods h.edits
  have hfields := distinct_fields h.edits
  refine ⟨?_, ?_, fun t => ⟨?_, ?_⟩, fun g' hlater a => ⟨fun m hm => ?_, fun f hf => ?_⟩, ?_, ?_⟩
  · intro a b m n hm hn
    have hplace : a = b ↔ m.key = n.key := handle_eq_iff hmethods (congrArg Prod.fst) hm hn
    refine ⟨⟨fun hab => ?_, fun hmn => hplace.mpr (congrArg Method.key hmn)⟩, ?_⟩
    · subst hab
      exact Option.some.inj (hm.symm.trans hn)
    · rw [hplace, Method.key_eq_iff]
  · intro a b f f' hf hf'
    have hplace : a = b ↔ f.key = f'.key := handle_eq_iff hfields (congrArg Prod.fst) hf hf'
    refine ⟨⟨fun hab => ?_, fun hff' => hplace.mpr (congrArg Field.key hff')⟩, ?_⟩
    · subst hab
      exact Option.some.inj (hf.symm.trans hf')
    · rw [hplace, Field.key_eq_iff]
  · refine (hmethods t).pairwise.imp fun hkey hagrees hstatic => ?_
    exact hkey (Method.key_eq_iff.mpr ⟨hagrees, hstatic⟩)
  · refine (hfields t).pairwise.imp fun hkey => ?_
    exact Bool.eq_false_iff.mpr fun hagrees => hkey (Field.key_eq_iff.mpr hagrees)
  · exact getElem?_of_prefix (methods_isPrefix hlater.edits a.declaring) hm
  · exact getElem?_of_prefix (fields_isPrefix hlater.edits a.declaring) hf
  · intro m hm
    obtain ⟨a, ha, hkey⟩ := exists_addMethod h.edits hm
    exact ⟨a, ha, Method.key_eq_iff.mp hkey⟩
  · intro f hf
    obtain ⟨a, ha, hkey⟩ := exists_addField h.edits hf
    exact ⟨a, ha, Field.key_eq_iff.mp hkey⟩

namespace Sample

/-- Two methods of one name and signature, for instances and for the type itself. -/
def ofInstances : Method := ⟨early, ⟨"Measure", by decide⟩, ⟨[early], none⟩, .publicBit⟩

def ofType : Method := { ofInstances with attributes := MethodAttributes.publicBit.union .staticBit }

def measured : Graph := (beforeLibrary.addMethod ofInstances).2

def twins : Graph := (measured.addMethod ofType).2

theorem grows_measured : empty.Grows measured :=
  (Relation.ReflTransGen.single (.declare rfl nofun)).tail .addMethod

end Sample

open Sample in
theorem members_told_apart_twins :
    twins.methodAt? ⟨early, 0⟩ = some ofInstances ∧ twins.methodAt? ⟨early, 1⟩ = some ofType ∧
      ¬ (ofInstances.agrees ofType = true ∧ ofInstances.isStatic = ofType.isStatic) ∧
      (measured.addMethod ofInstances).1.agrees ofInstances = true := by
  have hinstances : twins.methodAt? ⟨early, 0⟩ = some ofInstances := by decide
  have htype : twins.methodAt? ⟨early, 1⟩ = some ofType := by decide
  obtain ⟨hplaces, -, -, -, -, -⟩ := members_told_apart (grows_measured.tail .addMethod)
  obtain ⟨-, -, -, -, hadded, -⟩ := members_told_apart grows_measured
  obtain ⟨-, hkeys⟩ := hplaces ⟨early, 0⟩ ⟨early, 1⟩ ofInstances ofType hinstances htype
  obtain ⟨-, -, hagrees, -⟩ := hadded ofInstances (by decide)
  refine ⟨hinstances, htype, ?_, hagrees⟩
  intro hsame
  cases hkeys.mpr hsame

open Sample in
/-- Methods that agree at two places of one type. -/
theorem static_twin :
    empty.Grows twins ∧ twins.methodAt? ⟨early, 0⟩ = some ofInstances ∧
      twins.methodAt? ⟨early, 1⟩ = some ofType ∧ ofInstances.agrees ofType = true :=
  ⟨grows_measured.tail .addMethod, by decide, by decide, by decide⟩

end Graph

end ManagedCode
