import ManagedCode.Proofs.Verify.Step

namespace ManagedCode

/-! How much of the stack an instruction touches. Below its operands nothing changes, a rejected
instruction has only taken operands off, and an accepted one has taken them all and put its results
in their place. -/

namespace EvalStack

/-- The stack below its topmost values. -/
def drop (s : EvalStack) (count : Nat) : EvalStack :=
  { s with entries := s.entries.drop count }

/-- A stack with distinct new values of the given types on top of it. -/
def grow (s : EvalStack) : Shape → EvalStack
  | [] => s
  | t :: rest => (s.grow rest).push t

theorem ofShape_eq_grow (shape : Shape) : ofShape shape = empty.grow shape := by
  induction shape with
  | nil => rfl
  | cons t rest ih => exact congrArg (·.push t) ih

@[simp] theorem depth_drop (s : EvalStack) (count : Nat) :
    (s.drop count).depth = s.depth - count := by
  simp [drop, depth]

@[simp] theorem drop_drop (s : EvalStack) (count more : Nat) :
    (s.drop count).drop more = s.drop (count + more) := by
  simp [drop]

theorem shape_drop (s : EvalStack) (count : Nat) : (s.drop count).shape = s.shape.drop count := by
  simp [drop, shape]

theorem pop?_of_depth {s : EvalStack} (h : 1 ≤ s.depth) : ∃ e, s.pop? = some (e, s.drop 1) := by
  rcases s with ⟨_ | ⟨e, rest⟩, next⟩
  · simp [depth] at h
  · exact ⟨e, rfl⟩

end EvalStack

namespace Step

variable {α β : Type}

/-- The step finds its operands among the given number of topmost values. -/
structure Uses (count : Nat) (leaves : EvalStack → EvalStack → Prop) (step : Step α) : Prop where
  /-- What an accepted step leaves is in the given relation to the stack below its operands. -/
  ok : ∀ {s a t}, count ≤ s.depth → step.on s = (.ok a, t) → leaves (s.drop count) t
  /-- A rejected step has taken some operands off, and none of them was missing. -/
  error : ∀ {s e t}, count ≤ s.depth → step.on s = (.error e, t) →
    e.kind ≠ .stackUnderflow ∧ ∃ taken ≤ count, t = s.drop taken

/-- Takes operands off and puts nothing onto the stack. -/
abbrev Takes (count : Nat) (step : Step α) : Prop :=
  step.Uses count fun rest t => t = rest

/-- Some values on top of a stack. -/
def Adds (count : Nat) (rest t : EvalStack) : Prop :=
  ∃ pushed : List StackEntry, pushed.length = count ∧ t.entries = pushed ++ rest.entries

/-- Takes operands off and puts results onto the stack. -/
abbrev Moves (pops pushes : Nat) (step : Step α) : Prop :=
  step.Uses pops (Adds pushes)

/-- Some values on top of a stack, none of which has been seen before. -/
def Grows (count : Nat) (rest t : EvalStack) : Prop :=
  ∃ shape : Shape, shape.length = count ∧ t = rest.grow shape

/-- Takes operands off and puts new values onto the stack. -/
abbrev Puts (pops pushes : Nat) (step : Step α) : Prop :=
  step.Uses pops (Grows pushes)

theorem Grows.adds {count : Nat} {rest t : EvalStack} (h : Grows count rest t) :
    Adds count rest t := by
  obtain ⟨shape, rfl, rfl⟩ := h
  induction shape with
  | nil => exact ⟨[], rfl, rfl⟩
  | cons a below ih =>
      obtain ⟨pushed, hlength, hentries⟩ := ih
      exact ⟨⟨(rest.grow below).nextIdentity, a⟩ :: pushed, congrArg (· + 1) hlength,
        congrArg (_ :: ·) hentries⟩

theorem Uses.mono {count : Nat} {leaves leaves' : EvalStack → EvalStack → Prop} {step : Step α}
    (h : step.Uses count leaves) (hleaves : ∀ {rest t}, leaves rest t → leaves' rest t) :
    step.Uses count leaves' where
  ok hdepth hrun := hleaves (h.ok hdepth hrun)
  error := h.error

theorem Uses.bind {n m : Nat} {leaves : EvalStack → EvalStack → Prop} {x : Step α}
    {f : α → Step β} (hx : x.Takes n) (hf : ∀ a, (f a).Uses m leaves) :
    (x >>= f).Uses (m + n) leaves where
  ok := by
    intro s b u hdepth hrun
    obtain ⟨a, t, hfirst, hrest⟩ := bind_ok hrun
    have hdrop : t = s.drop n := hx.ok (by omega) hfirst
    subst hdrop
    have hleaves := (hf a).ok (by rw [EvalStack.depth_drop]; omega) hrest
    rwa [EvalStack.drop_drop, Nat.add_comm] at hleaves
  error := by
    intro s e u hdepth hrun
    rcases bind_error hrun with hfirst | ⟨a, t, hfirst, hrest⟩
    · obtain ⟨hkind, taken, htaken, hu⟩ := hx.error (by omega) hfirst
      exact ⟨hkind, taken, by omega, hu⟩
    · have hdrop : t = s.drop n := hx.ok (by omega) hfirst
      subst hdrop
      obtain ⟨hkind, taken, htaken, hu⟩ :=
        (hf a).error (by rw [EvalStack.depth_drop]; omega) hrest
      rw [EvalStack.drop_drop] at hu
      exact ⟨hkind, n + taken, by omega, hu⟩

theorem Takes.puts {count : Nat} {x : Step α} (h : x.Takes count) : x.Puts count 0 :=
  h.mono fun ht => ⟨[], rfl, ht⟩

theorem Uses.of_ok {leaves : EvalStack → EvalStack → Prop} {x : Step α} {a : α}
    (next : EvalStack → EvalStack) (hrun : ∀ s, x.on s = (.ok a, next s))
    (h : ∀ s, leaves s (next s)) : x.Uses 0 leaves where
  ok := by
    intro s b t _ hok
    cases (hrun s).symm.trans hok
    exact h s
  error := by
    intro s e t _ herror
    cases (hrun s).symm.trans herror

theorem takes_of_outcome {x : Step α} {outcome : EvalStack → Except VerifyError α}
    (hrun : ∀ s, x.on s = (outcome s, s))
    (h : ∀ s e, outcome s = .error e → e.kind ≠ .stackUnderflow) : x.Takes 0 where
  ok := by
    intro s a t _ hok
    exact (congrArg Prod.snd ((hrun s).symm.trans hok)).symm
  error := by
    intro s e t _ herror
    have hpair := (hrun s).symm.trans herror
    exact ⟨h s e (congrArg Prod.fst hpair), 0, Nat.le_refl 0,
      (congrArg Prod.snd hpair).symm⟩

theorem takes_pure (a : α) : (pure a : Step α).Takes 0 :=
  .of_ok id (fun _ => rfl) fun _ => rfl

theorem takes_get : (get : Step EvalStack).Takes 0 :=
  takes_of_outcome (fun _ => rfl) fun _ _ h => by cases h

theorem takes_liftM {x : Except VerifyError α} (h : ∀ e, x = .error e → e.kind ≠ .stackUnderflow) :
    (liftM x : Step α).Takes 0 :=
  takes_of_outcome (on_liftM x) fun _ => h

theorem takes_check (condition : Bool) {e : VerifyError} (h : e.kind ≠ .stackUnderflow) :
    (check condition e).Takes 0 := by
  refine takes_of_outcome (on_check condition e) fun _ e' he' => ?_
  cases condition with
  | false =>
      cases he'
      exact h
  | true => cases he'

theorem takes_popEntry (reason : String) : (popEntry reason).Takes 1 where
  ok := by
    intro s a t hdepth hrun
    obtain ⟨e, hpop⟩ := EvalStack.pop?_of_depth hdepth
    rw [on_popEntry, hpop] at hrun
    exact (congrArg Prod.snd hrun).symm
  error := by
    intro s a t hdepth hrun
    obtain ⟨e, hpop⟩ := EvalStack.pop?_of_depth hdepth
    rw [on_popEntry, hpop] at hrun
    cases hrun

theorem takes_pop (reason : String) : (pop reason).Takes 1 :=
  .bind (takes_popEntry reason) fun e => takes_pure e.type

theorem uses_throw {e : VerifyError} (h : e.kind ≠ .stackUnderflow) (count : Nat)
    (leaves : EvalStack → EvalStack → Prop) : (throw e : Step α).Uses count leaves where
  ok _ hrun := by cases hrun
  error := by
    intro s e' t _ hrun
    cases hrun
    exact ⟨h, 0, Nat.zero_le count, rfl⟩

/-- What follows a check only has to keep to the arity if the condition holds. -/
theorem Uses.after_check {count : Nat} {leaves : EvalStack → EvalStack → Prop} {condition : Bool}
    {e : VerifyError} {f : Unit → Step β} (he : e.kind ≠ .stackUnderflow)
    (hf : condition = true → (f ()).Uses count leaves) :
    (check condition e >>= f).Uses count leaves := by
  cases condition with
  | false => exact uses_throw he count leaves
  | true => exact hf rfl

theorem puts_push (t : StackType) : (push t).Puts 0 1 :=
  .of_ok (·.push t) (on_push t) fun _ => ⟨[t], rfl, rfl⟩

theorem puts_pushType (t : Ty) : (pushType t).Puts 0 1 :=
  puts_push (.simple t)

theorem moves_pushTwice (e : StackEntry) :
    (do pushEntry e; pushEntry e : Step Unit).Moves 0 2 :=
  .of_ok (fun s => (s.pushEntry e).pushEntry e) (fun _ => rfl) fun _ => ⟨[e, e], rfl, rfl⟩

theorem puts_pushResult (result : Option Ty) :
    (pushResult result).Puts 0 (if result.isSome then 1 else 0) := by
  cases result with
  | none => exact (takes_pure ()).puts
  | some t => exact puts_pushType t

/-! Operands. -/

theorem kind_checkObjectReceiver {g : Graph} {receiver : StackType} {m : Method} {e : VerifyError}
    (h : checkObjectReceiver g receiver m = .error e) : e.kind ≠ .stackUnderflow := by
  unfold checkObjectReceiver at h
  split at h
  · cases h; nofun
  · split at h
    · cases h
    · cases h; nofun

theorem kind_checkCallReceiver {g : Graph} {receiver : StackType} {m : Method} {e : VerifyError}
    (h : checkCallReceiver g receiver m = .error e) : e.kind ≠ .stackUnderflow := by
  unfold checkCallReceiver at h
  split at h
  · split at h
    · cases h
    · split at h <;> (cases h; nofun)
  · exact kind_checkObjectReceiver h

theorem kind_checkVirtualReceiver {g : Graph} {receiver : StackType} {m : Method}
    {e : VerifyError} (h : checkVirtualReceiver g receiver m = .error e) :
    e.kind ≠ .stackUnderflow := by
  unfold checkVirtualReceiver at h
  split at h
  · split at h
    · cases h; nofun
    · exact kind_checkObjectReceiver h
  · exact kind_checkObjectReceiver h

theorem kind_checkConstrainedReceiver {g : Graph} {receiver : StackType} {constrained : Ty}
    {m : Method} {e : VerifyError}
    (h : checkConstrainedReceiver g receiver constrained m = .error e) :
    e.kind ≠ .stackUnderflow := by
  unfold checkConstrainedReceiver at h
  split at h
  · cases h; nofun
  · split at h
    · cases h
    · cases h; nofun

theorem kind_checkFieldInstance {c : Context} {holder : StackType} {declaring : Ty} {load : Bool}
    {e : VerifyError} (h : checkFieldInstance c holder declaring load = .error e) :
    e.kind ≠ .stackUnderflow := by
  unfold checkFieldInstance at h
  split at h
  · cases h
  · cases h; nofun

theorem kind_checkSize {size : StackType} {e : VerifyError} (h : checkSize size = .error e) :
    e.kind ≠ .stackUnderflow := by
  unfold checkSize at h
  split at h <;> cases h
  nofun

theorem takes_argument (c : Context) (index : UInt16) : (c.argument index).Takes 0 := by
  unfold Context.argument
  split
  · exact takes_pure _
  · exact uses_throw (by nofun) 0 _

theorem takes_localType (c : Context) (index : UInt16) : (c.localType index).Takes 0 := by
  unfold Context.localType
  split
  · exact takes_pure _
  · exact uses_throw (by nofun) 0 _

theorem takes_requireUnverifiable (c : Context) (mnemonic : String) :
    (c.requireUnverifiable mnemonic).Takes 0 :=
  takes_check _ (by nofun)

theorem takes_popExpecting (g : Graph) (t : Ty) (reason : String) :
    (popExpecting g t reason).Takes 1 :=
  .bind (takes_pop reason) fun _ => takes_check _ (by nofun)

theorem takes_popArguments (g : Graph) (parameters : List Ty) (index : Nat) :
    (popArguments g index parameters).Takes parameters.length := by
  induction parameters generalizing index with
  | nil => exact takes_pure ()
  | cons t rest ih =>
      rw [List.length_cons, Nat.add_comm]
      exact .bind (ih (index + 1)) fun _ => takes_popExpecting g t _

theorem takes_popAddress (c : Context) (accessed : Option Ty) (reason : String) :
    (popAddress c accessed reason).Takes 1 := by
  refine .bind (takes_pop reason) fun address => ?_
  cases address.category with
  | zero => exact takes_pure ()
  | nativeInt => exact takes_check _ (by nofun)
  | managedPointer | pointer =>
      cases address.simple?.bind Ty.referent? with
      | none => exact takes_pure ()
      | some referent =>
          cases accessed with
          | none => exact takes_pure ()
          | some accessed => exact takes_check _ (by nofun)
  | int32 | int64 | float | object => exact uses_throw (by nofun) 0 _

theorem takes_popIndex (reason : String) : (popIndex reason).Takes 1 :=
  .bind (takes_pop reason) fun _ => takes_liftM fun _ => kind_checkSize

theorem takes_popArray (reason : String) : (popArray reason).Takes 1 := by
  refine .bind (takes_pop reason) fun array => ?_
  cases array with
  | zero => exact takes_pure none
  | complex base interfaces => exact uses_throw (by nofun) 0 _
  | simple t =>
      cases h : t.element? with
      | none =>
          simp only [h]
          exact uses_throw (by nofun) 0 _
      | some element =>
          simp only [h]
          exact takes_pure (some element)

end Step

/-! Instructions. -/

open Step

namespace Context

theorem puts_convert (target : Conversion) (checked : Bool) :
    (convert target checked).Puts 1 1 := by
  refine .bind (takes_pop _) fun operand => ?_
  refine .after_check (by nofun) fun _ => ?_
  refine .after_check (by nofun) fun _ => ?_
  exact puts_pushType _

theorem puts_load (c : Context) (t : Ty) : (load c t).Puts 1 1 :=
  .bind (takes_popAddress c _ _) fun _ => puts_pushType t

theorem takes_store (c : Context) (t : Ty) : (store c t).Takes 2 :=
  .bind (takes_popExpecting _ t _) fun _ => takes_popAddress c _ _

theorem puts_cast (t : Ty) : (cast t).Puts 1 1 := by
  refine .bind (takes_pop _) fun object => ?_
  refine .after_check (by nofun) fun _ => ?_
  exact puts_pushType _

theorem puts_call (c : Context) (m : Method) :
    (c.step (.call m)).Puts (Instruction.call m).pops (Instruction.call m).pushes := by
  have hpops : (Instruction.call m).pops =
      (if m.isStatic then 0 else 1) + m.parameters.length := Nat.add_comm _ _
  rw [hpops]
  refine .bind (takes_popArguments c.graph m.parameters 0) fun _ => ?_
  cases m.isStatic with
  | true => exact puts_pushResult m.result
  | false =>
      refine .bind (takes_pop _) fun receiver => ?_
      refine .bind (takes_liftM fun _ => kind_checkCallReceiver) fun _ => ?_
      exact puts_pushResult m.result

/-- A static method is turned down before the operands are looked at. -/
theorem puts_callvirt (c : Context) (m : Method) (constrained : Option Ty) :
    (c.step (.callvirt m constrained)).Puts (Instruction.callvirt m constrained).pops
      (Instruction.callvirt m constrained).pushes := by
  rw [step_callvirt]
  refine .after_check (by nofun) fun hinstance => ?_
  have hstatic : m.isStatic = false := by simpa using hinstance
  have hpops : (Instruction.callvirt m constrained).pops = 1 + m.parameters.length := by
    simp [Instruction.pops, hstatic, Nat.add_comm]
  rw [hpops]
  refine .bind (takes_popArguments c.graph m.parameters 0) fun _ => ?_
  refine .bind (takes_pop _) fun receiver => ?_
  cases constrained with
  | none =>
      refine .bind (takes_liftM fun _ => kind_checkVirtualReceiver) fun _ => ?_
      exact puts_pushResult m.result
  | some t =>
      refine .bind (takes_liftM fun _ => kind_checkConstrainedReceiver) fun _ => ?_
      exact puts_pushResult m.result

theorem puts_calli (c : Context) (site : CallSite) :
    (c.step (.calli site)).Puts (Instruction.calli site).pops (Instruction.calli site).pushes := by
  have hpops : (Instruction.calli site).pops =
      (if site.hasThis then 1 else 0) + site.parameters.length + 1 := by
    simp only [Instruction.pops, Nat.add_comm]
  rw [hpops]
  refine .bind (takes_pop _) fun entry => ?_
  refine .after_check (by nofun) fun _ => ?_
  refine .bind (takes_popArguments c.graph site.parameters 0) fun _ => ?_
  cases site.hasThis with
  | false => exact puts_pushResult site.result
  | true =>
      refine .bind (takes_pop _) fun receiver => ?_
      cases receiver.category with
      | object | managedPointer | zero =>
          exact .after_check (by nofun) fun _ => puts_pushResult site.result
      | int32 | int64 | nativeInt | float | pointer => exact uses_throw (by nofun) 0 _

theorem puts_newobj (c : Context) (m : Method) :
    (c.step (.newobj m)).Puts m.parameters.length 1 := by
  refine .after_check (by nofun) fun _ => ?_
  refine .after_check (by nofun) fun _ => ?_
  rw [← Nat.zero_add m.parameters.length]
  exact .bind (takes_popArguments c.graph m.parameters 0) fun _ => puts_pushType m.declaring

theorem takes_elementCheck (element : Option Ty) {f : Ty → Step Unit} (h : ∀ t, (f t).Takes 0) :
    (match element with
      | some t => f t
      | none => pure () : Step Unit).Takes 0 := by
  cases element with
  | none => exact takes_pure ()
  | some t => exact h t

theorem puts_elementAddress (c : Context) (t : Ty) : (c.step (.ldelema t)).Puts 2 1 := by
  refine .bind (takes_popIndex _) fun _ => ?_
  refine .bind (takes_popArray _) fun element => ?_
  cases element with
  | none => exact puts_pushType _
  | some element => exact .after_check (by nofun) fun _ => puts_pushType _

theorem puts_element (c : Context) (t : Ty) : (c.step (.ldelem t)).Puts 2 1 := by
  refine .bind (takes_popIndex _) fun _ => ?_
  refine .bind (takes_popArray _) fun element => ?_
  cases element with
  | none => exact puts_pushType t
  | some element => exact .after_check (by nofun) fun _ => puts_pushType t

theorem puts_elementReference (c : Context) : (c.step .ldelemRef).Puts 2 1 := by
  refine .bind (takes_popIndex _) fun _ => ?_
  refine .bind (takes_popArray _) fun element => ?_
  cases element with
  | none => exact puts_pushType .object
  | some element => exact .after_check (by nofun) fun _ => puts_pushType element

theorem takes_storeElement (c : Context) (t : Ty) : (c.step (.stelem t)).Takes 3 := by
  refine .bind (takes_popExpecting _ t _) fun _ => ?_
  refine .bind (takes_popIndex _) fun _ => ?_
  refine .bind (takes_popArray _) fun element => ?_
  exact takes_elementCheck element fun _ => takes_check _ (by nofun)

theorem takes_storeReference (c : Context) : (c.step .stelemRef).Takes 3 := by
  refine .bind (takes_pop _) fun value => ?_
  refine .after_check (by nofun) fun _ => ?_
  refine .bind (takes_popIndex _) fun _ => ?_
  refine .bind (takes_popArray _) fun element => ?_
  exact takes_elementCheck element fun _ => takes_check _ (by nofun)

theorem puts_allocate (c : Context) : (c.step .localloc).Puts 1 1 := by
  refine .bind (takes_pop _) fun size => ?_
  refine .bind (takes_requireUnverifiable c _) fun _ => ?_
  refine .bind (takes_liftM fun _ => kind_checkSize) fun _ => ?_
  refine .bind takes_get fun rest => ?_
  exact .after_check (by nofun) fun _ => puts_pushType .intPtr

theorem takes_initializeBlock (c : Context) : (c.step .initblk).Takes 3 := by
  refine .bind (takes_pop _) fun size => ?_
  refine .bind (takes_pop _) fun value => ?_
  refine .bind (takes_popAddress c none _) fun _ => ?_
  refine .bind (takes_requireUnverifiable c _) fun _ => ?_
  refine .bind (takes_liftM fun _ => kind_checkSize) fun _ => ?_
  exact takes_check _ (by nofun)

theorem takes_copyBlock (c : Context) : (c.step .cpblk).Takes 3 := by
  refine .bind (takes_pop _) fun size => ?_
  refine .bind (takes_popAddress c none _) fun _ => ?_
  refine .bind (takes_popAddress c none _) fun _ => ?_
  refine .bind (takes_requireUnverifiable c _) fun _ => ?_
  exact takes_liftM fun _ => kind_checkSize

theorem takes_storeField (c : Context) (f : Field) : (c.step (.stfld f)).Takes 2 := by
  refine .after_check (by nofun) fun _ => ?_
  refine .bind (takes_popExpecting _ f.type _) fun _ => ?_
  refine .bind (takes_pop _) fun holder => ?_
  exact takes_liftM fun _ => kind_checkFieldInstance

/-- The table of operand and result counts holds of every instruction, and only `dup` puts the same
value twice. -/
theorem puts_step (c : Context) {i : Instruction} (hdup : i ≠ .dup) :
    (c.step i).Puts i.pops i.pushes := by
  cases i with
  | nop | «break» => exact (takes_pure ()).puts
  | ldarg i | ldarga i =>
      refine .bind (takes_argument c i) fun t => ?_
      exact puts_pushType _
  | ldloc i | ldloca i =>
      refine .bind (takes_localType c i) fun t => ?_
      exact puts_pushType _
  | starg i =>
      apply Takes.puts
      exact .bind (takes_argument c i) fun t => takes_popExpecting c.graph t _
  | stloc i =>
      apply Takes.puts
      exact .bind (takes_localType c i) fun t => takes_popExpecting c.graph t _
  | ldnull => exact puts_push .zero
  | ldcI4 | ldcI8 | ldcR4 | ldcR8 | ldstr | ldftn | sizeof => exact puts_pushType _
  | dup => exact absurd rfl hdup
  | pop =>
      apply Takes.puts
      exact .bind (takes_pop _) fun _ => takes_pure ()
  | binary op =>
      refine .bind (takes_pop _) fun right => ?_
      refine .bind (takes_pop _) fun left => ?_
      cases op.operation.result? left right with
      | none => exact uses_throw (by nofun) 0 _
      | some result => exact puts_push result
  | neg | not | ckfinite =>
      refine .bind (takes_pop _) fun operand => ?_
      exact .after_check (by nofun) fun _ => puts_push _
  | conv target => exact puts_convert target false
  | convOvf target => exact puts_convert target true
  | convOvfUn target => exact puts_convert target true
  | call m => exact puts_call c m
  | callvirt m constrained => exact puts_callvirt c m constrained
  | calli site => exact puts_calli c site
  | newobj m => exact puts_newobj c m
  | ldvirtftn m =>
      refine .after_check (by nofun) fun _ => ?_
      refine .bind (takes_pop _) fun receiver => ?_
      refine .bind (takes_liftM fun _ => kind_checkVirtualReceiver) fun _ => ?_
      exact puts_pushType .intPtr
  | ldind t => exact puts_load c t
  | ldobj t => exact puts_load c t
  | stind t => exact (takes_store c t).puts
  | stobj t => exact (takes_store c t).puts
  | cpobj t =>
      apply Takes.puts
      exact .bind (takes_popAddress c _ _) fun _ => takes_popAddress c _ _
  | initobj t => exact (takes_popAddress c _ _).puts
  | box t | unbox t =>
      refine .bind (takes_pop _) fun value => ?_
      refine .after_check (by nofun) fun _ => ?_
      exact .after_check (by nofun) fun _ => puts_pushType _
  | unboxAny t =>
      refine .bind (takes_pop _) fun boxed => ?_
      exact .after_check (by nofun) fun _ => puts_pushType t
  | castclass t => exact puts_cast t
  | isinst t => exact puts_cast t
  | ldfld f | ldflda f =>
      refine .after_check (by nofun) fun _ => ?_
      refine .bind (takes_pop _) fun holder => ?_
      refine .bind (takes_liftM fun _ => kind_checkFieldInstance) fun _ => ?_
      exact puts_pushType _
  | stfld f => exact (takes_storeField c f).puts
  | ldsfld f | ldsflda f => exact .after_check (by nofun) fun _ => puts_pushType _
  | stsfld f =>
      exact .after_check (by nofun) fun _ => (takes_popExpecting c.graph f.type _).puts
  | newarr t =>
      refine .bind (takes_popIndex _) fun _ => ?_
      exact puts_pushType _
  | ldlen =>
      refine .bind (takes_popArray _) fun _ => ?_
      exact puts_pushType .uintPtr
  | ldelema t => exact puts_elementAddress c t
  | ldelem t => exact puts_element c t
  | stelem t => exact (takes_storeElement c t).puts
  | ldelemRef => exact puts_elementReference c
  | stelemRef => exact (takes_storeReference c).puts
  | ldtoken token => cases token <;> exact puts_pushType _
  | localloc => exact puts_allocate c
  | initblk => exact (takes_initializeBlock c).puts
  | cpblk => exact (takes_copyBlock c).puts

theorem moves_dup (c : Context) : (c.step .dup).Moves 1 2 := by
  refine .bind (takes_popEntry _) fun e => ?_
  exact .after_check (by nofun) fun _ => moves_pushTwice e

theorem moves_step (c : Context) (i : Instruction) : (c.step i).Moves i.pops i.pushes := by
  by_cases hdup : i = .dup
  · subst hdup
    exact moves_dup c
  · exact (puts_step c hdup).mono Grows.adds

theorem verify_ok {c : Context} {i : Instruction} {s t : EvalStack} {u : Unit}
    (h : (c.verify i).on s = (.ok u, t)) : i.pops ≤ s.depth ∧ (c.step i).on s = (.ok (), t) := by
  obtain ⟨_, v, hrequire, hstep⟩ := bind_ok h
  rw [on_require] at hrequire
  cases congrArg Prod.snd hrequire
  refine ⟨Nat.le_of_not_lt fun hdepth => ?_, hstep⟩
  rw [if_pos hdepth] at hrequire
  cases hrequire

theorem verify_error {c : Context} {i : Instruction} {s t : EvalStack} {e : VerifyError}
    (h : (c.verify i).on s = (.error e, t)) : ∃ taken, t = s.drop taken := by
  rw [verify, on_bind, on_require] at h
  by_cases hdepth : s.depth < i.pops
  · rw [if_pos hdepth] at h
    cases h
    exact ⟨0, rfl⟩
  · rw [if_neg hdepth] at h
    obtain ⟨-, taken, -, ht⟩ := (moves_step c i).error (Nat.not_lt.mp hdepth) h
    exact ⟨taken, ht⟩

/-- An instruction whose operands are not all there is rejected for that, and the stack is left
alone. Otherwise it is rejected for other reasons only, with some of its operands taken off, or
accepted, with its results in place of its operands. -/
theorem verify_arity (c : Context) (i : Instruction) (s : EvalStack) :
    (s.depth < i.pops → ∃ reason, (c.verify i).on s = (.error (.underflow reason), s)) ∧
    (i.pops ≤ s.depth →
      match (c.verify i).on s with
      | (.ok (), t) =>
        ∃ pushed, pushed.length = i.pushes ∧ t.entries = pushed ++ s.entries.drop i.pops
      | (.error e, t) =>
        e.kind ≠ .stackUnderflow ∧ ∃ taken ≤ i.pops, t = s.drop taken) := by
  have hmoves := moves_step c i
  rw [verify, on_bind, on_require]
  constructor
  · intro hdepth
    simp only [if_pos hdepth]
    exact ⟨_, rfl⟩
  · intro hdepth
    simp only [if_neg (Nat.not_lt.mpr hdepth)]
    rcases hrun : (c.step i).on s with ⟨e | _, t⟩
    · exact hmoves.error hdepth hrun
    · exact hmoves.ok hdepth hrun

end Context

/-! Branches. -/

namespace Step

variable {α β : Type}

/-- However far the step gets, it only takes values off the stack. -/
def Lowers (x : Step α) : Prop := ∀ s, ∃ taken, (x.on s).2 = s.drop taken

theorem lowers_of_on {x : Step α} (h : ∀ s, (x.on s).2 = s) : x.Lowers :=
  fun s => ⟨0, h s⟩

theorem Lowers.bind {x : Step α} {f : α → Step β} (hx : x.Lowers) (hf : ∀ a, (f a).Lowers) :
    (x >>= f).Lowers := by
  intro s
  obtain ⟨taken, hfirst⟩ := hx s
  rw [on_bind]
  rcases hrun : x.on s with ⟨e | a, t⟩
  · rw [hrun] at hfirst
    exact ⟨taken, hfirst⟩
  · rw [hrun] at hfirst
    cases hfirst
    obtain ⟨more, hrest⟩ := hf a (s.drop taken)
    rw [EvalStack.drop_drop] at hrest
    exact ⟨taken + more, hrest⟩

theorem lowers_pure (a : α) : (pure a : Step α).Lowers := lowers_of_on fun _ => rfl

theorem lowers_throw (e : VerifyError) : (throw e : Step α).Lowers := lowers_of_on fun _ => rfl

theorem lowers_get : (get : Step EvalStack).Lowers := lowers_of_on fun _ => rfl

theorem lowers_check (condition : Bool) (e : VerifyError) : (check condition e).Lowers :=
  lowers_of_on fun s => by rw [on_check]

theorem lowers_liftM (x : Except VerifyError α) : (liftM x : Step α).Lowers :=
  lowers_of_on fun s => by rw [on_liftM]

theorem lowers_clear : clear.Lowers := by
  intro s
  refine ⟨s.depth, ?_⟩
  change s.clear = s.drop s.depth
  rw [EvalStack.clear, EvalStack.drop, EvalStack.depth, List.drop_length]

theorem lowers_popEntry (reason : String) : (popEntry reason).Lowers := by
  intro s
  rcases s with ⟨_ | ⟨e, rest⟩, next⟩
  · exact ⟨0, rfl⟩
  · exact ⟨1, rfl⟩

theorem lowers_pop (reason : String) : (pop reason).Lowers :=
  (lowers_popEntry reason).bind fun _ => lowers_pure _

theorem popTested_ok {s t : EvalStack} {e : StackEntry} (h : popTested.on s = (.ok e, t)) :
    s.pop? = some (e, t) := by
  obtain ⟨top, u, hpop, hcheck⟩ := bind_ok h
  obtain ⟨_, v, htestable, hpure⟩ := bind_ok hcheck
  obtain ⟨-, rfl⟩ := check_ok htestable
  cases hpure
  rw [on_popEntry] at hpop
  cases hs : s.pop? with
  | none =>
      rw [hs] at hpop
      cases hpop
  | some found =>
      rw [hs] at hpop
      cases hpop
      rfl

end Step

/-- A branch puts nothing onto the stack. -/
theorem Context.lowers_transfer (c : Context) (b : Branch) : (c.transfer b).Lowers := by
  have htested : popTested.Lowers := by
    refine (lowers_popEntry _).bind fun e => ?_
    exact (lowers_check _ _).bind fun _ => lowers_pure e
  cases b with
  | br => exact lowers_pure none
  | brfalse | brtrue => exact htested.bind fun e => lowers_pure (some e)
  | compare comparison =>
      refine (lowers_pop _).bind fun right => ?_
      refine (lowers_pop _).bind fun left => ?_
      cases comparison.operation.result? left right with
      | none => exact lowers_throw _
      | some result => exact lowers_pure none
  | switch =>
      refine (lowers_pop _).bind fun value => ?_
      exact (lowers_check _ _).bind fun _ => lowers_pure none
  | leave | rethrow | endfinally =>
      refine (lowers_check _ _).bind fun _ => ?_
      exact lowers_clear.bind fun _ => lowers_pure none
  | ret =>
      refine (lowers_check _ _).bind fun _ => ?_
      refine lowers_get.bind fun s => ?_
      cases c.result with
      | none => exact (lowers_check _ _).bind fun _ => lowers_pure none
      | some t =>
          refine (lowers_check _ _).bind fun _ => ?_
          have hresult : (popExpecting c.graph t "expected a value to return").Lowers :=
            (lowers_pop _).bind fun _ => lowers_check _ _
          exact hresult.bind fun _ => lowers_pure none
  | throw =>
      refine (lowers_pop _).bind fun exception => ?_
      refine (lowers_check _ _).bind fun _ => ?_
      exact lowers_clear.bind fun _ => lowers_pure none
  | jmp m =>
      refine lowers_get.bind fun s => ?_
      refine (lowers_check _ _).bind fun _ => ?_
      refine (lowers_check _ _).bind fun _ => ?_
      exact (lowers_liftM _).bind fun _ => lowers_pure none

end ManagedCode
