import ManagedCode.Proofs.Verify.Alike

namespace ManagedCode

/-! Interchangeable slots under every instruction. -/

open Step

/-- The questions about the operands, from the top down. They are asked where a number may have to
stand for an interface, and where a field is accessed. -/
def Context.asks (c : Context) : Instruction → List Question
  | .starg i => c.arguments[i.toNat]?.toList.map (.standsFor c.graph)
  | .stloc i => c.locals[i.toNat]?.toList.map (.standsFor c.graph)
  | .call m | .callvirt m _ | .newobj m => (m.parameters.map (.standsFor c.graph)).reverse
  | .calli site => .none :: (site.parameters.map (.standsFor c.graph)).reverse
  | .stind t | .stobj t | .stelem t => [.standsFor c.graph t]
  | .ldfld f => [.holdsField c f.declaring true]
  | .ldflda f => [.holdsField c f.declaring false]
  | .stfld f => [.standsFor c.graph f.type, .holdsField c f.declaring false]
  | .stsfld f => [.standsFor c.graph f.type]
  | _ => []

/-- Only a result that is returned may have to stand for an interface. -/
def Context.asksOfBranch (c : Context) : Branch → List Question
  | .ret => c.result.toList.map (.standsFor c.graph)
  | _ => []

/-! The same way on both stacks. -/

namespace StackType.Interchangeable

variable {s t u v : StackType}

theorem of_category (h : s.category.isNumeric = true) (hcategory : s.category = t.category) :
    s.Interchangeable t := by
  obtain ⟨a, rfl⟩ := isNumeric_simple h
  obtain ⟨b, rfl⟩ := isNumeric_simple (hcategory ▸ h)
  exact .numbers h hcategory

theorem wider (hs : s.category = .float) (hu : u.category = .float) (hst : s.Interchangeable t)
    (huv : u.Interchangeable v) :
    (if s.canonical = .simple .double then s.canonical else u.canonical).Interchangeable
      (if t.canonical = .simple .double then t.canonical else v.canonical) := by
  have hfloat : ∀ {a b : StackType}, a.category = .float → b.category = .float →
      (if a.canonical = .simple .double then a.canonical else b.canonical).category = .float := by
    intro a b ha hb
    split
    · rw [category_canonical, ha]
    · rw [category_canonical, hb]
  have hleft := hfloat hs hu
  have hright := hfloat (hst.category_eq ▸ hs) (huv.category_eq ▸ hu)
  exact .of_category (by rw [hleft]; rfl) (hleft.trans hright.symm)

theorem arithmeticResult (hst : s.Interchangeable t) (huv : u.Interchangeable v) :
    (Operation.arithmeticResult s u).Interchangeable (Operation.arithmeticResult t v) := by
  simp only [Operation.arithmeticResult, hst.category_eq, huv.category_eq]
  cases ht : t.category <;> cases hv : v.category
  case float.float =>
      exact .wider (hst.category_eq.trans ht) (huv.category_eq.trans hv) hst huv
  all_goals first | exact hst.canonical | exact huv.canonical | exact .same _

theorem valueResult (hst : s.Interchangeable t) (huv : u.Interchangeable v) (op : Operation) :
    (op.valueResult s u).Interchangeable (op.valueResult t v) := by
  have hshift : (if op = .shift then s.canonical else Operation.arithmeticResult s u).Interchangeable
      (if op = .shift then t.canonical else Operation.arithmeticResult t v) := by
    split
    · exact hst.canonical
    · exact hst.arithmeticResult huv
  have hnull : (if op = .shift then .simple .int32 else u.canonical).Interchangeable
      (if op = .shift then .simple .int32 else v.canonical) := by
    split
    · exact .same _
    · exact huv.canonical
  simp only [Operation.valueResult, hst.category_eq, huv.category_eq]
  cases ht : t.category <;> cases hv : v.category
  case zero.zero => exact .same _
  all_goals first | exact hshift | exact hnull | exact hst.canonical

theorem result? (hst : s.Interchangeable t) (huv : u.Interchangeable v) (op : Operation) :
    Option.Rel StackType.Interchangeable (op.result? s u) (op.result? t v) := by
  simp only [Operation.result?, hst.category_eq, huv.category_eq, hst.isStruct_eq,
    huv.isStruct_eq]
  split
  · exact .none
  · split
    · split
      · exact .none
      · exact .some (.same _)
    · exact .some (hst.valueResult huv op)

theorem takes (h : s.Interchangeable t) (target : Conversion) :
    target.takes s = target.takes t := by
  simp only [Conversion.takes, h.category_eq, h.isStruct_eq]

end StackType.Interchangeable

namespace Context

theorem follows_convert (target : Conversion) (checked : Bool) :
    Follows [] [] (convert target checked) (convert target checked) := by
  refine (tracks_popAny _).bind fun a b h => ?_
  refine (follows_check rfl _ _).seq ?_
  exact (follows_check (h.takes target) _ _).seq (follows_pushType _)

theorem follows_load (c : Context) (t : Ty) : Follows [] [] (load c t) (load c t) :=
  (follows_popAddress c _ _).seq (follows_pushType t)

theorem follows_store (c : Context) (t : Ty) :
    Follows [.standsFor c.graph t] [] (store c t) (store c t) :=
  (follows_popExpecting c.graph t _).seq (follows_popAddress c _ _)

theorem follows_cast (t : Ty) : Follows [] [] (cast t) (cast t) := by
  refine (tracks_popAny _).bind fun a b h => ?_
  exact (follows_check h.isObjectReference_eq _ _).seq (follows_pushType _)

theorem tracks_argument {asked : List Question} (c : Context) (index : UInt16) :
    Tracks asked asked (fun t u => t = u) (c.argument index) (c.argument index) := by
  unfold argument
  cases c.arguments[index.toNat]? with
  | none => exact tracks_throw _ _
  | some t => exact tracks_pure rfl

theorem tracks_localType {asked : List Question} (c : Context) (index : UInt16) :
    Tracks asked asked (fun t u => t = u) (c.localType index) (c.localType index) := by
  unfold localType
  cases c.locals[index.toNat]? with
  | none => exact tracks_throw _ _
  | some t => exact tracks_pure rfl

theorem follows_storeArgument (c : Context) (index : UInt16) :
    Follows (c.asks (.starg index)) [] (c.step (.starg index)) (c.step (.starg index)) := by
  simp only [asks, step, argument]
  cases c.arguments[index.toNat]? with
  | none => exact tracks_throw _ _
  | some t => exact follows_popExpecting c.graph t _

theorem follows_storeLocal (c : Context) (index : UInt16) :
    Follows (c.asks (.stloc index)) [] (c.step (.stloc index)) (c.step (.stloc index)) := by
  simp only [asks, step, localType]
  cases c.locals[index.toNat]? with
  | none => exact tracks_throw _ _
  | some t => exact follows_popExpecting c.graph t _

theorem follows_binary (c : Context) (op : BinaryOp) :
    Follows [] [] (c.step (.binary op)) (c.step (.binary op)) := by
  refine (tracks_popAny _).bind fun right right' hright => ?_
  refine (tracks_popAny _).bind fun left left' hleft => ?_
  have hresult := hleft.result? hright op.operation
  generalize op.operation.result? left right = result at hresult ⊢
  generalize op.operation.result? left' right' = result' at hresult ⊢
  cases hresult with
  | none => exact tracks_throw _ _
  | some h => exact follows_push h

theorem follows_popAllArguments (g : Graph) (parameters : List Ty) :
    Follows (parameters.map (.standsFor g)).reverse [] (popArguments g 0 parameters)
      (popArguments g 0 parameters) := by
  have h : Follows ((parameters.map (.standsFor g)).reverse ++ []) [] (popArguments g 0 parameters)
      (popArguments g 0 parameters) := follows_popArguments g parameters 0
  rwa [List.append_nil] at h

theorem follows_call (c : Context) (m : Method) :
    Follows (c.asks (.call m)) [] (c.step (.call m)) (c.step (.call m)) := by
  refine (follows_popAllArguments c.graph m.parameters).seq ?_
  cases m.isStatic with
  | true => exact follows_pushResult m.result
  | false =>
      refine (tracks_popAny _).bind fun a b h => ?_
      refine (follows_liftM (h.checkCallReceiver_isOk c.graph m)).seq ?_
      exact follows_pushResult m.result

theorem follows_callvirt (c : Context) (m : Method) (constrained : Option Ty) :
    Follows (c.asks (.callvirt m constrained)) [] (c.step (.callvirt m constrained))
      (c.step (.callvirt m constrained)) := by
  rw [Context.step_callvirt]
  refine (follows_check rfl _ _).seq ?_
  refine (follows_popAllArguments c.graph m.parameters).seq ?_
  refine (tracks_popAny _).bind fun a b h => ?_
  cases constrained with
  | none =>
      refine (follows_liftM (h.checkVirtualReceiver_isOk c.graph m)).seq ?_
      exact follows_pushResult m.result
  | some t =>
      refine (follows_liftM (h.checkConstrainedReceiver_isOk c.graph t m)).seq ?_
      exact follows_pushResult m.result

theorem follows_calli (c : Context) (site : CallSite) :
    Follows (c.asks (.calli site)) [] (c.step (.calli site)) (c.step (.calli site)) := by
  refine (tracks_pop _ _ _).bind fun entry entry' hentry => ?_
  refine (follows_check (by rw [hentry.1.category_eq]) _ _).seq ?_
  refine (follows_popAllArguments c.graph site.parameters).seq ?_
  cases site.hasThis with
  | false => exact follows_pushResult site.result
  | true =>
      refine (tracks_popAny _).bind fun a b h => ?_
      simp only [h.category_eq]
      cases b.category with
      | object | managedPointer | zero =>
          refine (follows_check (by rw [h.isStruct_eq]) _ _).seq ?_
          exact follows_pushResult site.result
      | int32 | int64 | nativeInt | float | pointer => exact tracks_throw _ _

theorem follows_array {asked : List Question} {x y : Step (Option Ty)} {f : Option Ty → Step Unit}
    (hx : Tracks asked [] (fun a b => a = b) x y) (hnull : Follows [] [] (f none) (f none))
    (helement : ∀ t, Follows [] [] (f (some t)) (f (some t))) :
    Follows asked [] (x >>= f) (y >>= f) := by
  refine hx.bind fun a b h => ?_
  subst h
  cases a with
  | none => exact hnull
  | some t => exact helement t

theorem follows_elementAddress (c : Context) (t : Ty) :
    Follows [] [] (c.step (.ldelema t)) (c.step (.ldelema t)) := by
  refine (follows_popIndex _).seq ?_
  refine follows_array (tracks_popArray _) (follows_pushType _) fun element => ?_
  exact (follows_check rfl _ _).seq (follows_pushType _)

theorem follows_element (c : Context) (t : Ty) :
    Follows [] [] (c.step (.ldelem t)) (c.step (.ldelem t)) := by
  refine (follows_popIndex _).seq ?_
  refine follows_array (tracks_popArray _) (follows_pushType t) fun element => ?_
  exact (follows_check rfl _ _).seq (follows_pushType t)

theorem follows_elementReference (c : Context) :
    Follows [] [] (c.step .ldelemRef) (c.step .ldelemRef) := by
  refine (follows_popIndex _).seq ?_
  refine follows_array (tracks_popArray _) (follows_pushType .object) fun element => ?_
  exact (follows_check rfl _ _).seq (follows_pushType element)

theorem follows_storeElement (c : Context) (t : Ty) :
    Follows [.standsFor c.graph t] [] (c.step (.stelem t)) (c.step (.stelem t)) := by
  refine (follows_popExpecting c.graph t _).seq ?_
  refine (follows_popIndex _).seq ?_
  exact follows_array (tracks_popArray _) follows_done fun _ => follows_check rfl _ _

theorem follows_storeReference (c : Context) :
    Follows [] [] (c.step .stelemRef) (c.step .stelemRef) := by
  refine (tracks_popAny _).bind fun a b h => ?_
  refine (follows_check h.isObjectReference_eq _ _).seq ?_
  refine (follows_popIndex _).seq ?_
  exact follows_array (tracks_popArray _) follows_done fun _ => follows_check rfl _ _

theorem checkFieldInstance_isOk (c : Context) (holder : StackType) (declaring : Ty) (load : Bool) :
    (checkFieldInstance c holder declaring load).isOk =
      Question.holdsField c declaring load holder := by
  unfold checkFieldInstance Question.holdsField
  split
  · rename_i h
    exact h.symm
  · rename_i h
    exact (Bool.not_eq_true _ ▸ h : _ = false).symm

theorem follows_loadField (c : Context) (f : Field) :
    Follows (c.asks (.ldfld f)) [] (c.step (.ldfld f)) (c.step (.ldfld f)) := by
  refine (follows_check rfl _ _).seq ?_
  refine (tracks_pop _ _ _).bind fun a b h => ?_
  refine (follows_liftM ?_).seq (follows_pushType _)
  rw [checkFieldInstance_isOk, checkFieldInstance_isOk]
  exact h.2

theorem follows_loadFieldAddress (c : Context) (f : Field) :
    Follows (c.asks (.ldflda f)) [] (c.step (.ldflda f)) (c.step (.ldflda f)) := by
  refine (follows_check rfl _ _).seq ?_
  refine (tracks_pop _ _ _).bind fun a b h => ?_
  refine (follows_liftM ?_).seq (follows_pushType _)
  rw [checkFieldInstance_isOk, checkFieldInstance_isOk]
  exact h.2

theorem follows_storeField (c : Context) (f : Field) :
    Follows (c.asks (.stfld f)) [] (c.step (.stfld f)) (c.step (.stfld f)) := by
  refine (follows_check rfl _ _).seq ?_
  refine (follows_popExpecting c.graph f.type _).seq ?_
  refine (tracks_pop _ _ _).bind fun a b h => ?_
  refine follows_liftM ?_
  rw [checkFieldInstance_isOk, checkFieldInstance_isOk]
  exact h.2

theorem follows_allocate (c : Context) :
    Follows [] [] (c.step .localloc) (c.step .localloc) := by
  refine (tracks_popAny _).bind fun a b h => ?_
  refine (follows_check rfl _ _).seq ?_
  refine (follows_liftM h.checkSize_isOk).seq ?_
  refine tracks_get.bind fun s t halike => ?_
  exact (follows_check halike.isEmpty_eq _ _).seq (follows_pushType .intPtr)

theorem follows_initializeBlock (c : Context) :
    Follows [] [] (c.step .initblk) (c.step .initblk) := by
  refine (tracks_popAny _).bind fun size size' hsize => ?_
  refine (tracks_popAny _).bind fun value value' hvalue => ?_
  refine (follows_popAddress c none _).seq ?_
  refine (follows_check rfl _ _).seq ?_
  refine (follows_liftM hsize.checkSize_isOk).seq ?_
  exact follows_check (by rw [hvalue.category_eq]) _ _

theorem follows_copyBlock (c : Context) : Follows [] [] (c.step .cpblk) (c.step .cpblk) := by
  refine (tracks_popAny _).bind fun size size' hsize => ?_
  refine (follows_popAddress c none _).seq ?_
  refine (follows_popAddress c none _).seq ?_
  refine (follows_check rfl _ _).seq ?_
  exact follows_liftM hsize.checkSize_isOk

/-- A value type is boxed as itself, so no interface is asked for. -/
theorem follows_box (c : Context) (t : Ty) :
    Follows [] [] (c.step (.box t)) (c.step (.box t)) := by
  refine (tracks_popAny _).bind fun a b h => ?_
  cases hvalue : t.isValueType with
  | false => exact tracks_throw _ _
  | true =>
      refine (follows_check rfl _ _).seq ?_
      refine (follows_check ?_ _ _).seq (follows_pushType _)
      exact h.isAssignableTo_eq c.graph (Ty.not_isInterface_of_isValueType hvalue)

theorem follows_step (c : Context) (i : Instruction) :
    Follows (c.asks i) [] (c.step i) (c.step i) := by
  cases i with
  | nop | «break» => exact follows_done
  | ldarg i | ldarga i =>
      refine (tracks_argument c i).bind fun t u h => ?_
      exact h ▸ follows_pushType _
  | ldloc i | ldloca i =>
      refine (tracks_localType c i).bind fun t u h => ?_
      exact h ▸ follows_pushType _
  | starg i => exact follows_storeArgument c i
  | stloc i => exact follows_storeLocal c i
  | ldnull => exact follows_push (.same _)
  | ldcI4 | ldcI8 | ldcR4 | ldcR8 | ldstr | ldftn | sizeof => exact follows_pushType _
  | dup =>
      refine (tracks_popAnyEntry _).bind fun a b h => ?_
      refine (follows_check (by rw [h.isStruct_eq]) _ _).seq ?_
      exact (follows_pushEntry h).seq (follows_pushEntry h)
  | pop => exact (tracks_popAny _).bind fun _ _ _ => follows_done
  | binary op => exact follows_binary c op
  | neg | not =>
      refine (tracks_popAny _).bind fun a b h => ?_
      exact (follows_check (by rw [h.category_eq]) _ _).seq (follows_push h.canonical)
  | ckfinite =>
      refine (tracks_popAny _).bind fun a b h => ?_
      exact (follows_check (by rw [h.category_eq]) _ _).seq (follows_push h)
  | conv target => exact follows_convert target false
  | convOvf target => exact follows_convert target true
  | convOvfUn target => exact follows_convert target true
  | call m => exact follows_call c m
  | callvirt m constrained => exact follows_callvirt c m constrained
  | calli site => exact follows_calli c site
  | newobj m =>
      refine (follows_check rfl _ _).seq ?_
      refine (follows_check rfl _ _).seq ?_
      exact (follows_popAllArguments c.graph m.parameters).seq (follows_pushType m.declaring)
  | ldvirtftn m =>
      refine (follows_check rfl _ _).seq ?_
      refine (tracks_popAny _).bind fun a b h => ?_
      exact (follows_liftM (h.checkVirtualReceiver_isOk c.graph m)).seq (follows_pushType .intPtr)
  | ldind t => exact follows_load c t
  | ldobj t => exact follows_load c t
  | stind t => exact follows_store c t
  | stobj t => exact follows_store c t
  | cpobj t => exact (follows_popAddress c _ _).seq (follows_popAddress c _ _)
  | initobj t => exact follows_popAddress c _ _
  | box t => exact follows_box c t
  | unbox t =>
      refine (tracks_popAny _).bind fun a b h => ?_
      refine (follows_check rfl _ _).seq ?_
      exact (follows_check h.isObjectReference_eq _ _).seq (follows_pushType _)
  | unboxAny t =>
      refine (tracks_popAny _).bind fun a b h => ?_
      exact (follows_check h.isObjectReference_eq _ _).seq (follows_pushType t)
  | castclass t => exact follows_cast t
  | isinst t => exact follows_cast t
  | ldfld f => exact follows_loadField c f
  | ldflda f => exact follows_loadFieldAddress c f
  | stfld f => exact follows_storeField c f
  | ldsfld f | ldsflda f => exact (follows_check rfl _ _).seq (follows_pushType _)
  | stsfld f => exact (follows_check rfl _ _).seq (follows_popExpecting c.graph f.type _)
  | newarr t => exact (follows_popIndex _).seq (follows_pushType _)
  | ldlen => exact (tracks_popArray _).bind fun _ _ _ => follows_pushType .uintPtr
  | ldelema t => exact follows_elementAddress c t
  | ldelem t => exact follows_element c t
  | stelem t => exact follows_storeElement c t
  | ldelemRef => exact follows_elementReference c
  | stelemRef => exact follows_storeReference c
  | ldtoken token => cases token <;> exact follows_pushType _
  | localloc => exact follows_allocate c
  | initblk => exact follows_initializeBlock c
  | cpblk => exact follows_copyBlock c

theorem follows_verify (c : Context) (i : Instruction) :
    Follows (c.asks i) [] (c.verify i) (c.verify i) :=
  (follows_require _ _).seq (follows_step c i)

/-- The value that a branch has tested is interchangeable as well. -/
abbrev TestedAlike (tested tested' : Option StackEntry) : Prop :=
  Option.Rel (fun a b => a.type.Interchangeable b.type) tested tested'

theorem tracks_test :
    Tracks [] [] TestedAlike (some <$> popTested) (some <$> popTested) := by
  have htested : Tracks [] [] (fun a b => a.type.Interchangeable b.type) popTested popTested := by
    refine (tracks_popAnyEntry _).bind fun a b h => ?_
    refine (follows_check (by rw [h.category_eq, h.isStruct_eq]) _ _).seq ?_
    exact tracks_pure h
  rw [map_eq_pure_bind]
  exact htested.bind fun a b h => tracks_pure (.some h)

theorem tracks_compare (c : Context) (comparison : Comparison) (l : Label) :
    Tracks [] [] TestedAlike (c.transfer (.compare comparison l))
      (c.transfer (.compare comparison l)) := by
  refine (tracks_popAny _).bind fun right right' hright => ?_
  refine (tracks_popAny _).bind fun left left' hleft => ?_
  have hresult := hleft.result? hright comparison.operation
  generalize comparison.operation.result? left right = result at hresult ⊢
  generalize comparison.operation.result? left' right' = result' at hresult ⊢
  cases hresult with
  | none => exact tracks_throw _ _
  | some h => exact tracks_pure .none

theorem tracks_return (c : Context) :
    Tracks (c.asksOfBranch .ret) [] TestedAlike (c.transfer .ret) (c.transfer .ret) := by
  refine (follows_check rfl _ _).seq ?_
  refine tracks_get.bind fun s t halike => ?_
  simp only [asksOfBranch, halike.depth_eq]
  cases c.result with
  | none => exact (follows_check rfl _ _).seq (tracks_pure .none)
  | some result =>
      refine (follows_check rfl _ _).seq ?_
      exact (follows_popExpecting c.graph result _).seq (tracks_pure .none)

theorem tracks_throwException (c : Context) :
    Tracks [] [] TestedAlike (c.transfer .throw) (c.transfer .throw) := by
  refine (tracks_popAny _).bind fun a b h => ?_
  refine (follows_check (h.isAssignableTo_eq c.graph rfl) _ _).seq ?_
  exact follows_clear.seq (tracks_pure .none)

theorem tracks_jump (c : Context) (m : Method) :
    Tracks [] [] TestedAlike (c.transfer (.jmp m)) (c.transfer (.jmp m)) := by
  refine tracks_get.bind fun s t halike => ?_
  simp only [halike.depth_eq]
  refine (follows_check rfl _ _).seq ?_
  refine (follows_check rfl _ _).seq ?_
  exact (follows_liftM rfl).seq (tracks_pure .none)

theorem tracks_transfer (c : Context) (b : Branch) :
    Tracks (c.asksOfBranch b) [] TestedAlike (c.transfer b) (c.transfer b) := by
  cases b with
  | br => exact tracks_pure .none
  | brfalse | brtrue => exact tracks_test
  | compare comparison l => exact tracks_compare c comparison l
  | switch =>
      refine (tracks_popAny _).bind fun a b h => ?_
      exact (follows_check (by rw [h.category_eq]) _ _).seq (tracks_pure .none)
  | leave | rethrow | endfinally =>
      refine (follows_check rfl _ _).seq ?_
      exact follows_clear.seq (tracks_pure .none)
  | ret => exact tracks_return c
  | throw => exact tracks_throwException c
  | jmp m => exact tracks_jump c m

end Context

end ManagedCode
