import ManagedCode.Proofs.Graph.Grown
import ManagedCode.Proofs.StackType.Fits
import ManagedCode.Proofs.Verify.Stays

namespace ManagedCode

/-! Instructions only bring types of the graph onto the stack. -/

/-! The types that an instruction mentions. -/

def Method.types (m : Method) : List Ty := m.declaring :: m.parameters ++ m.result.toList

def Field.types (f : Field) : List Ty := [f.declaring, f.type]

def Token.types : Token → List Ty
  | .type t => [t]
  | .method m => m.types
  | .field f => f.types

def Instruction.types : Instruction → List Ty
  | .call m | .newobj m | .ldftn m | .ldvirtftn m => m.types
  | .callvirt m constrained => constrained.toList ++ m.types
  | .calli site => site.parameters ++ site.result.toList
  | .ldind t | .stind t | .ldobj t | .stobj t | .cpobj t | .initobj t | .box t | .unbox t
  | .unboxAny t | .castclass t | .isinst t | .newarr t | .ldelema t | .ldelem t | .stelem t
  | .sizeof t => [t]
  | .ldfld f | .ldflda f | .stfld f | .ldsfld f | .ldsflda f | .stsfld f => f.types
  | .ldtoken token => token.types
  | _ => []

def Branch.types : Branch → List Ty
  | .jmp m => m.types
  | _ => []

theorem Method.result_mem_types {m : Method} {t : Ty} (h : t ∈ m.result) : t ∈ m.types := by
  have hresult : t ∈ m.result.toList := Option.mem_toList.mpr h
  exact List.mem_append_right _ hresult

theorem Method.forall_mem_types {p : Ty → Prop} {m : Method} (h : ∀ t ∈ m.types, p t) :
    p m.declaring ∧ ∀ t ∈ m.parameters, p t := by
  obtain ⟨hdeclaring, hrest⟩ := List.forall_mem_cons.mp h
  exact ⟨hdeclaring, fun t ht => hrest t (List.mem_append_left _ ht)⟩

namespace StackType

variable {g : Graph} {s t : StackType}

theorem known_canonical (h : g.Sound) (hs : s.Known g) : s.canonical.Known g := by
  cases s with
  | zero => trivial
  | complex => exact hs
  | simple t =>
      have ht : g.Knows t := hs
      have hcanonical : g.Knows t.canonical := by
        induction t with
        | enum name base underlying _ ih =>
            have hunderlying : g.Knows underlying := h.knows_underlying ht rfl
            exact ih hunderlying hunderlying
        | primitive kind base =>
            simp only [Ty.canonical]
            split
            · exact ht
            all_goals exact h.knows_library (by decide)
        | object | subclass | interface | struct | array | bareArray | byRef | pointer => exact ht
      exact hcanonical

theorem known_arithmeticResult (h : g.Sound) (hs : s.Known g) (ht : t.Known g) :
    (Operation.arithmeticResult s t).Known g := by
  have hnative : (simple .intPtr).Known g := h.knows_library (by decide)
  have hleft := known_canonical h hs
  have hright := known_canonical h ht
  have hwider : (if s.canonical = simple .double then s.canonical else t.canonical).Known g := by
    split
    · exact hleft
    · exact hright
  unfold Operation.arithmeticResult
  split
  all_goals first | exact hnative | exact hleft | exact hright | exact hwider

theorem known_valueResult (h : g.Sound) (hs : s.Known g) (ht : t.Known g) (op : Operation) :
    (op.valueResult s t).Known g := by
  have hshifted : (simple .int32).Known g := h.knows_library (by decide)
  have hleft := known_canonical h hs
  have hright := known_canonical h ht
  have hresult := known_arithmeticResult h hs ht
  unfold Operation.valueResult
  split
  · split
    · exact hshifted
    · trivial
  · split
    · exact hshifted
    · exact hright
  · exact hleft
  · split
    · exact hleft
    · exact hresult

theorem known_result? (h : g.Sound) (hs : s.Known g) (ht : t.Known g) {op : Operation}
    {result : StackType} (hresult : op.result? s t = some result) : result.Known g := by
  unfold Operation.result? at hresult
  split at hresult
  · cases hresult
  split at hresult
  · split at hresult
    · cases hresult
    · cases hresult
      exact h.knows_library (by decide)
  · cases hresult
    exact known_valueResult h hs ht op

end StackType

/-- The graph is sound, and it knows all that an instruction may refer to by its place. -/
structure Context.Known (c : Context) : Prop where
  graph : c.graph.Sound
  arguments : ∀ t ∈ c.arguments, c.graph.Knows t
  locals : ∀ t ∈ c.locals, c.graph.Knows t

namespace Step

variable {g : Graph}

theorem preserves_pushType {t : Ty} (ht : g.Knows t) : (pushType t).Preserves (StackType.Known g) :=
  preserves_push ht

theorem preserves_pushResult {result : Option Ty} (h : ∀ t ∈ result, g.Knows t) :
    (pushResult result).Preserves (StackType.Known g) := by
  cases result with
  | none => exact preserves_done
  | some t => exact preserves_pushType (h t rfl)

theorem stays_popArray (reason : String) :
    (popArray reason).Stays (StackType.Known g) fun found => ∀ t ∈ found, g.Knows t := by
  refine (stays_pop reason).bind fun array harray => ?_
  cases array with
  | zero => exact stays_pure nofun
  | complex => exact stays_throw _
  | simple t =>
      cases helement : t.element? with
      | none =>
          simp only [helement]
          exact stays_throw _
      | some element =>
          simp only [helement]
          refine stays_pure ?_
          rintro _ ⟨⟩
          exact Graph.Knows.element harray helement

theorem preserves_array (reason : String) {f : Option Ty → Step Unit}
    (hnull : (f none).Preserves (StackType.Known g))
    (helement : ∀ t, g.Knows t → (f (some t)).Preserves (StackType.Known g)) :
    (popArray reason >>= f).Preserves (StackType.Known g) := by
  refine (stays_popArray reason).bind fun found hfound => ?_
  cases found with
  | none => exact hnull
  | some t => exact helement t (hfound t rfl)

end Step

namespace Context

open Step

variable {c : Context}

abbrev KeepsKnown (c : Context) (x : Step Unit) : Prop :=
  x.Preserves (StackType.Known c.graph)

theorem stays_argument (h : c.Known) (index : UInt16) :
    (c.argument index).Stays (StackType.Known c.graph) c.graph.Knows := by
  unfold argument
  cases hfound : c.arguments[index.toNat]? with
  | none => exact stays_throw _
  | some t => exact stays_pure (h.arguments t (Array.mem_of_getElem? hfound))

theorem stays_localType (h : c.Known) (index : UInt16) :
    (c.localType index).Stays (StackType.Known c.graph) c.graph.Knows := by
  unfold localType
  cases hfound : c.locals[index.toNat]? with
  | none => exact stays_throw _
  | some t => exact stays_pure (h.locals t (Array.mem_of_getElem? hfound))

theorem keepsKnown_convert (h : c.Known) (target : Conversion) (checked : Bool) :
    c.KeepsKnown (convert target checked) := by
  refine (stays_pop _).seq fun operand => ?_
  refine (preserves_check _ _).seq fun _ => ?_
  refine (preserves_check _ _).seq fun _ => ?_
  have htarget : .ofPrimitive target.target ∈ Graph.libraryTypes := by
    cases target <;> decide
  exact preserves_pushType (h.graph.knows_library htarget)

theorem keepsKnown_load {t : Ty} (ht : c.graph.Knows t) : c.KeepsKnown (load c t) :=
  (preserves_popAddress c _ _).seq fun _ => preserves_pushType ht

theorem keepsKnown_store (t : Ty) : c.KeepsKnown (store c t) :=
  (preserves_popExpecting c.graph t _).seq fun _ => preserves_popAddress c _ _

theorem keepsKnown_cast (h : c.Known) {t : Ty} (ht : c.graph.Knows t) : c.KeepsKnown (cast t) := by
  refine (stays_pop _).seq fun object => ?_
  refine (preserves_check _ _).seq fun _ => ?_
  split
  · exact preserves_pushType h.graph.knows_object
  · exact preserves_pushType ht

theorem keepsKnown_binary (h : c.Known) (op : BinaryOp) : c.KeepsKnown (c.step (.binary op)) := by
  refine (stays_pop _).bind fun right hright => ?_
  refine (stays_pop _).bind fun left hleft => ?_
  cases hresult : op.operation.result? left right with
  | none => exact stays_throw _
  | some result => exact preserves_push (StackType.known_result? h.graph hleft hright hresult)

theorem keepsKnown_call {m : Method} (hm : ∀ t ∈ m.types, c.graph.Knows t) :
    c.KeepsKnown (c.step (.call m)) := by
  have hresult := preserves_pushResult fun t ht => hm t (Method.result_mem_types ht)
  refine (preserves_popArguments c.graph m.parameters 0).seq fun _ => ?_
  cases m.isStatic with
  | true => exact hresult
  | false =>
      refine (stays_pop _).seq fun receiver => ?_
      exact (preserves_liftM _).seq fun _ => hresult

theorem keepsKnown_callvirt {m : Method} (hm : ∀ t ∈ m.types, c.graph.Knows t)
    (constrained : Option Ty) : c.KeepsKnown (c.step (.callvirt m constrained)) := by
  rw [step_callvirt]
  have hresult := preserves_pushResult fun t ht => hm t (Method.result_mem_types ht)
  refine (preserves_check _ _).seq fun _ => ?_
  refine (preserves_popArguments c.graph m.parameters 0).seq fun _ => ?_
  refine (stays_pop _).seq fun receiver => ?_
  cases constrained with
  | none => exact (preserves_liftM _).seq fun _ => hresult
  | some t => exact (preserves_liftM _).seq fun _ => hresult

theorem keepsKnown_calli {site : CallSite} (hresult : ∀ t ∈ site.result, c.graph.Knows t) :
    c.KeepsKnown (c.step (.calli site)) := by
  have hpush := preserves_pushResult hresult
  refine (stays_pop _).seq fun entry => ?_
  refine (preserves_check _ _).seq fun _ => ?_
  refine (preserves_popArguments c.graph site.parameters 0).seq fun _ => ?_
  cases site.hasThis with
  | false => exact hpush
  | true =>
      refine (stays_pop _).seq fun receiver => ?_
      cases receiver.category with
      | object | managedPointer | zero => exact (preserves_check _ _).seq fun _ => hpush
      | int32 | int64 | nativeInt | float | pointer => exact stays_throw _

theorem keepsKnown_box (h : c.Known) (t : Ty) : c.KeepsKnown (c.step (.box t)) := by
  refine (stays_pop _).seq fun value => ?_
  refine (preserves_check _ _).seq fun _ => ?_
  refine (preserves_check _ _).seq fun _ => ?_
  split
  · exact preserves_pushType (h.graph.knows_library (by decide))
  · exact preserves_pushType h.graph.knows_object

theorem keepsKnown_element {t : Ty} (ht : c.graph.Knows t) : c.KeepsKnown (c.step (.ldelem t)) := by
  refine (preserves_popIndex _).seq fun _ => ?_
  refine preserves_array _ (preserves_pushType ht) fun element _ => ?_
  exact (preserves_check _ _).seq fun _ => preserves_pushType ht

theorem keepsKnown_elementAddress {t : Ty} (ht : c.graph.Knows t) :
    c.KeepsKnown (c.step (.ldelema t)) := by
  refine (preserves_popIndex _).seq fun _ => ?_
  refine preserves_array _ (preserves_pushType ht) fun element _ => ?_
  exact (preserves_check _ _).seq fun _ => preserves_pushType ht

theorem keepsKnown_elementReference (h : c.Known) : c.KeepsKnown (c.step .ldelemRef) := by
  refine (preserves_popIndex _).seq fun _ => ?_
  refine preserves_array _ (preserves_pushType h.graph.knows_object) fun element helement => ?_
  exact (preserves_check _ _).seq fun _ => preserves_pushType helement

theorem keepsKnown_storeElement (t : Ty) : c.KeepsKnown (c.step (.stelem t)) := by
  refine (preserves_popExpecting c.graph t _).seq fun _ => ?_
  refine (preserves_popIndex _).seq fun _ => ?_
  exact preserves_array _ preserves_done fun _ _ => preserves_check _ _

theorem keepsKnown_storeReference (c : Context) : c.KeepsKnown (c.step .stelemRef) := by
  refine (stays_pop _).seq fun value => ?_
  refine (preserves_check _ _).seq fun _ => ?_
  refine (preserves_popIndex _).seq fun _ => ?_
  exact preserves_array _ preserves_done fun _ _ => preserves_check _ _

theorem keepsKnown_allocate (h : c.Known) : c.KeepsKnown (c.step .localloc) := by
  refine (stays_pop _).seq fun size => ?_
  refine (preserves_check _ _).seq fun _ => ?_
  refine (preserves_liftM _).seq fun _ => ?_
  refine preserves_get.seq fun s => ?_
  refine (preserves_check _ _).seq fun _ => ?_
  exact preserves_pushType (h.graph.knows_library (by decide))

theorem keepsKnown_initializeBlock (c : Context) : c.KeepsKnown (c.step .initblk) := by
  refine (stays_pop _).seq fun size => ?_
  refine (stays_pop _).seq fun value => ?_
  refine (preserves_popAddress c none _).seq fun _ => ?_
  refine (preserves_check _ _).seq fun _ => ?_
  exact (preserves_liftM _).seq fun _ => preserves_check _ _

theorem keepsKnown_copyBlock (c : Context) : c.KeepsKnown (c.step .cpblk) := by
  refine (stays_pop _).seq fun size => ?_
  refine (preserves_popAddress c none _).seq fun _ => ?_
  refine (preserves_popAddress c none _).seq fun _ => ?_
  exact (preserves_check _ _).seq fun _ => preserves_liftM _

/-- An instruction pushes types that it mentions, types of the library, and what was there. -/
theorem keepsKnown_step (h : c.Known) {i : Instruction} (hi : ∀ t ∈ i.types, c.graph.Knows t) :
    c.KeepsKnown (c.step i) := by
  have hlibrary : ∀ {t : Ty}, t ∈ Graph.libraryTypes → c.KeepsKnown (pushType t) :=
    fun ht => preserves_pushType (h.graph.knows_library ht)
  cases i with
  | nop | «break» => exact preserves_done
  | ldarg i | ldarga i => exact (stays_argument h i).bind fun t ht => preserves_pushType ht
  | ldloc i | ldloca i => exact (stays_localType h i).bind fun t ht => preserves_pushType ht
  | starg i => exact (stays_argument h i).seq fun t => preserves_popExpecting c.graph t _
  | stloc i => exact (stays_localType h i).seq fun t => preserves_popExpecting c.graph t _
  | ldnull => exact preserves_push trivial
  | ldcI4 | ldcI8 | ldcR4 | ldcR8 | ldstr | ldftn | sizeof => exact hlibrary (by decide)
  | dup =>
      refine (stays_popEntry _).bind fun e he => ?_
      refine (preserves_check _ _).seq fun _ => ?_
      exact (preserves_pushEntry he).seq fun _ => preserves_pushEntry he
  | pop => exact (stays_pop _).seq fun _ => preserves_done
  | binary op => exact keepsKnown_binary h op
  | neg | not =>
      refine (stays_pop _).bind fun operand hoperand => ?_
      refine (preserves_check _ _).seq fun _ => ?_
      exact preserves_push (StackType.known_canonical h.graph hoperand)
  | conv target => exact keepsKnown_convert h target false
  | convOvf target => exact keepsKnown_convert h target true
  | convOvfUn target => exact keepsKnown_convert h target true
  | ckfinite =>
      refine (stays_pop _).bind fun operand hoperand => ?_
      exact (preserves_check _ _).seq fun _ => preserves_push hoperand
  | call m => exact keepsKnown_call hi
  | callvirt m constrained =>
      exact keepsKnown_callvirt (fun t ht => hi t (List.mem_append_right _ ht)) constrained
  | calli site =>
      exact keepsKnown_calli fun t ht => hi t (List.mem_append_right _ (Option.mem_toList.mpr ht))
  | newobj m =>
      refine (preserves_check _ _).seq fun _ => ?_
      refine (preserves_check _ _).seq fun _ => ?_
      refine (preserves_popArguments c.graph m.parameters 0).seq fun _ => ?_
      exact preserves_pushType (hi m.declaring List.mem_cons_self)
  | ldvirtftn m =>
      refine (preserves_check _ _).seq fun _ => ?_
      refine (stays_pop _).seq fun receiver => ?_
      exact (preserves_liftM _).seq fun _ => hlibrary (by decide)
  | ldind t => exact keepsKnown_load (hi t List.mem_cons_self)
  | ldobj t => exact keepsKnown_load (hi t List.mem_cons_self)
  | stind t => exact keepsKnown_store t
  | stobj t => exact keepsKnown_store t
  | cpobj t => exact (preserves_popAddress c _ _).seq fun _ => preserves_popAddress c _ _
  | initobj t => exact preserves_popAddress c _ _
  | box t => exact keepsKnown_box h t
  | unbox t =>
      refine (stays_pop _).seq fun boxed => ?_
      refine (preserves_check _ _).seq fun _ => ?_
      exact (preserves_check _ _).seq fun _ => preserves_pushType (hi t List.mem_cons_self)
  | unboxAny t =>
      refine (stays_pop _).seq fun boxed => ?_
      exact (preserves_check _ _).seq fun _ => preserves_pushType (hi t List.mem_cons_self)
  | castclass t => exact keepsKnown_cast h (hi t List.mem_cons_self)
  | isinst t => exact keepsKnown_cast h (hi t List.mem_cons_self)
  | ldfld f | ldflda f =>
      refine (preserves_check _ _).seq fun _ => ?_
      refine (stays_pop _).seq fun holder => ?_
      refine (preserves_liftM _).seq fun _ => preserves_pushType ?_
      exact hi f.type (List.mem_cons_of_mem _ List.mem_cons_self)
  | stfld f =>
      refine (preserves_check _ _).seq fun _ => ?_
      refine (preserves_popExpecting c.graph f.type _).seq fun _ => ?_
      exact (stays_pop _).seq fun holder => preserves_liftM _
  | ldsfld f | ldsflda f =>
      refine (preserves_check _ _).seq fun _ => preserves_pushType ?_
      exact hi f.type (List.mem_cons_of_mem _ List.mem_cons_self)
  | stsfld f => exact (preserves_check _ _).seq fun _ => preserves_popExpecting c.graph f.type _
  | newarr t =>
      refine (preserves_popIndex _).seq fun _ => preserves_pushType ?_
      exact ⟨rfl, hi t List.mem_cons_self⟩
  | ldlen => exact (stays_popArray _).seq fun _ => hlibrary (by decide)
  | ldelema t => exact keepsKnown_elementAddress (hi t List.mem_cons_self)
  | ldelem t => exact keepsKnown_element (hi t List.mem_cons_self)
  | stelem t => exact keepsKnown_storeElement t
  | ldelemRef => exact keepsKnown_elementReference h
  | stelemRef => exact keepsKnown_storeReference c
  | ldtoken token => cases token <;> exact hlibrary (by decide)
  | localloc => exact keepsKnown_allocate h
  | initblk => exact keepsKnown_initializeBlock c
  | cpblk => exact keepsKnown_copyBlock c

theorem keepsKnown_verify (h : c.Known) {i : Instruction} (hi : ∀ t ∈ i.types, c.graph.Knows t) :
    c.KeepsKnown (c.verify i) :=
  (preserves_require _ _).seq fun _ => keepsKnown_step h hi

/-- No branch pushes anything. -/
theorem keepsAll_transfer {P : StackType → Prop} (c : Context) (b : Branch) {s : EvalStack}
    (hs : s.All P) : ((c.transfer b).on s).2.All P := by
  obtain ⟨taken, ht⟩ := c.lowers_transfer b s
  rw [ht]
  exact hs.drop taken

end Context

/-! The addresses and arrays that are made in the graph are those that come onto the stack. -/

namespace Step

variable {α : Type} {t : Ty}

/-- Where the step is accepted, the type is on top of the stack. -/
def Leaves (t : Ty) (x : Step Unit) : Prop :=
  ∀ s s' : EvalStack, x.on s = (.ok (), s') → s'.peek? = some (.simple t)

theorem leaves_pushType (t : Ty) : (pushType t).Leaves t := by
  rintro s _ ⟨⟩
  rfl

theorem Leaves.seq {x : Step α} {f : α → Step Unit} (hf : ∀ a, (f a).Leaves t) :
    (x >>= f).Leaves t := by
  intro s s' hrun
  obtain ⟨a, u, -, hrest⟩ := bind_ok hrun
  exact hf a u s' hrest

end Step

open Step in
/-- Only a call on a constrained receiver needs an address that it does not push. -/
theorem Context.leaves_made {c : Context} {i : Instruction} {p : Construct × Ty}
    (h : p ∈ c.makes? i) (hplain : ∀ m constrained, i ≠ .callvirt m constrained) :
    (c.verify i).Leaves (p.1.type p.2) := by
  refine Leaves.seq fun _ => ?_
  unfold makes? at h
  split at h
  case h_1 index =>
      obtain ⟨t, ht, rfl⟩ := Option.map_eq_some_iff.mp h
      have hfound : c.argument index = pure t := by rw [argument, ht]
      rw [step, hfound, pure_bind]
      exact leaves_pushType _
  case h_2 index =>
      obtain ⟨t, ht, rfl⟩ := Option.map_eq_some_iff.mp h
      have hfound : c.localType index = pure t := by rw [localType, ht]
      rw [step, hfound, pure_bind]
      exact leaves_pushType _
  case h_3 t =>
      cases h
      exact Leaves.seq fun _ => Leaves.seq fun _ => Leaves.seq fun _ => leaves_pushType _
  case h_4 t =>
      cases h
      refine Leaves.seq fun _ => Leaves.seq fun found => ?_
      cases found with
      | none => exact leaves_pushType _
      | some element => exact Leaves.seq fun _ => leaves_pushType _
  case h_5 m t => exact absurd rfl (hplain m (some t))
  case h_6 f =>
      cases h
      exact Leaves.seq fun _ => Leaves.seq fun _ => Leaves.seq fun _ => leaves_pushType _
  case h_7 f =>
      cases h
      exact Leaves.seq fun _ => leaves_pushType _
  case h_8 t =>
      cases h
      exact Leaves.seq fun _ => leaves_pushType _
  case h_9 => cases h

end ManagedCode
