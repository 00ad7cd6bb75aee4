import ManagedCode.Proofs.StackType.Operators
import ManagedCode.Proofs.Verify.Known

namespace ManagedCode

/-! The null literal in place of object references. Wherever a reference is accepted, null is
accepted as well. -/

/-- The second slot is the first one, or null in place of an object reference. -/
inductive StackType.Nulled (g : Graph) : StackType → StackType → Prop where
  | same (s : StackType) : Nulled g s s
  | null {s : StackType} : s.Known g → s.isObjectReference = true → Nulled g s .zero

/-- Some object references of the first stack are null on the second one. -/
def EvalStack.Nulled (g : Graph) (s t : EvalStack) : Prop :=
  List.Forall₂ (StackType.Nulled g) s.shape t.shape

/-- The element on top of the first stack is only known to be an object on the second one. -/
def EvalStack.ElementNulled (g : Graph) (s t : EvalStack) : Prop :=
  ∃ (element : Ty) (rest rest' : Shape), element.isReference = true ∧
    s.shape = .simple element :: rest ∧ t.shape = .simple .object :: rest' ∧
      List.Forall₂ (StackType.Nulled g) rest rest'

namespace EvalStack.Nulled

variable {g : Graph} {s t : EvalStack} {a b : StackType}

theorem depth_eq (h : s.Nulled g t) : s.depth = t.depth := by
  rw [← length_shape, ← length_shape]
  exact h.length_eq

theorem isEmpty_eq (h : s.Nulled g t) : s.isEmpty = t.isEmpty := by
  have hdepth : s.entries.length = t.entries.length := h.depth_eq
  rw [isEmpty, isEmpty, Bool.eq_iff_iff, List.isEmpty_iff_length_eq_zero,
    List.isEmpty_iff_length_eq_zero, hdepth]

theorem push (h : s.Nulled g t) (hab : a.Nulled g b) : (s.push a).Nulled g (t.push b) :=
  .cons hab h

end EvalStack.Nulled

namespace StackType

theorem category_of_isObjectReference {s : StackType} (h : s.isObjectReference = true) :
    s = zero ∨ s.category = .object ∧ s.simple?.bind Ty.referent? = none := by
  cases s with
  | zero => exact .inl rfl
  | complex => exact .inr ⟨rfl, rfl⟩
  | simple t =>
      refine .inr ⟨?_, Ty.referent?_of_isReference h⟩
      cases t with
      | object | subclass | interface | array | bareArray => rfl
      | _ => cases h

namespace Nulled

variable {g : Graph} {s t u v : StackType}

/-- Either nothing has changed, or an object has become null. -/
theorem cases (h : s.Nulled g t) :
    t = s ∨ t = zero ∧ s.Known g ∧ s.isObjectReference = true ∧ s.category = .object ∧
      s.simple?.bind Ty.referent? = none := by
  cases h with
  | same => exact .inl rfl
  | null hknown href =>
      rcases category_of_isObjectReference href with rfl | ⟨hcategory, hreferent⟩
      · exact .inl rfl
      · exact .inr ⟨rfl, hknown, href, hcategory, hreferent⟩

theorem eq_of_category (h : s.Nulled g t) (hcategory : s.category ≠ .object) : t = s := by
  rcases h.cases with heq | ⟨-, -, -, hobject, -⟩
  · exact heq
  · exact absurd hobject hcategory

theorem isObjectReference (h : s.Nulled g t) (href : s.isObjectReference = true) :
    t.isObjectReference = true := by
  cases h with
  | same => exact href
  | null => rfl

theorem not_isStruct (h : s.Nulled g t) (hstruct : (!s.isStruct) = true) :
    (!t.isStruct) = true := by
  cases h with
  | same => exact hstruct
  | null => rfl

/-- Null stands for all that an object reference stands for. -/
theorem isAssignableTo (h : s.Nulled g t) (hclasses : g.ClassBases) (hg : g.Sound) {target : Ty}
    (htarget : g.Knows target) (hs : s.isAssignableTo g target = true) :
    t.isAssignableTo g target = true := by
  cases h with
  | same => exact hs
  | null hknown href =>
      rcases isReference_of_isAssignableTo hclasses hg hknown href htarget hs with
        hreference | ⟨rfl, -⟩
      · simp [StackType.isAssignableTo, hreference]
      · exact hs

theorem takes (h : s.Nulled g t) (target : Conversion) (hs : target.takes s = true) :
    target.takes t = true := by
  cases h with
  | same => exact hs
  | null => cases target <;> rfl

end Nulled

end StackType

namespace Operation

variable {op : Operation} {g : Graph} {s t u v result : StackType}

/-- Objects are only compared, and null can stand in for them. -/
theorem allows_object_left {c : Category} (h : op.allows .object c = true) :
    op.isComparison = true ∧ op.allows .zero c = true ∧
      (c = .object → op.allows .zero .zero = true) := by
  cases op <;> cases c <;> first | exact absurd h (by decide) | decide

theorem allows_object_right {c : Category} (h : op.allows c .object = true) :
    op.isComparison = true ∧ op.allows c .zero = true := by
  cases op <;> cases c <;> first | exact absurd h (by decide) | decide

theorem result?_of_nulled (hst : s.Nulled g t) (huv : u.Nulled g v)
    (h : op.result? s u = some result) : op.result? t v = some result := by
  have hallows := allows_of_result? h
  rcases hst.cases with rfl | ⟨rfl, -, -, hobject, -⟩
  · rcases huv.cases with rfl | ⟨rfl, -, -, hobject, -⟩
    · exact h
    · rw [hobject] at hallows
      obtain ⟨hcomparison, hzero⟩ := allows_object_right hallows
      obtain ⟨-, hstruct, -, hresult⟩ := (result?_of_comparison hcomparison).mp h
      exact (result?_of_comparison hcomparison).mpr ⟨hzero, hstruct, rfl, hresult⟩
  · rw [hobject] at hallows
    obtain ⟨hcomparison, hzero, hzeros⟩ := allows_object_left hallows
    obtain ⟨-, -, hstruct, hresult⟩ := (result?_of_comparison hcomparison).mp h
    refine (result?_of_comparison hcomparison).mpr ?_
    rcases huv.cases with rfl | ⟨rfl, -, -, hobject, -⟩
    · exact ⟨hzero, rfl, hstruct, hresult⟩
    · exact ⟨hzeros hobject, rfl, rfl, hresult⟩

end Operation

/-! Receivers and holders of fields. -/

namespace StackType.Nulled

variable {g : Graph} {s t : StackType}

theorem checkObjectReceiver (h : s.Nulled g t) (hclasses : g.ClassBases) (hg : g.Sound) {m : Method}
    (hm : g.Knows m.declaring) (hs : (checkObjectReceiver g s m).isOk = true) :
    (checkObjectReceiver g t m).isOk = true := by
  cases h with
  | same => exact hs
  | null hknown href =>
      unfold ManagedCode.checkObjectReceiver at hs ⊢
      split at hs
      · cases hs
      split at hs
      · rename_i hassignable
        obtain ⟨-, hassignable⟩ := Bool.and_eq_true_iff.mp hassignable
        have hzero := (Nulled.null hknown href).isAssignableTo hclasses hg hm hassignable
        simp only [isValueType, StackType.isObjectReference, hzero]
        rfl
      · cases hs

/-- No object is the address of a value. -/
theorem checkCallReceiver (h : s.Nulled g t) (hclasses : g.ClassBases) (hg : g.Sound) {m : Method}
    (hm : g.Knows m.declaring) (hs : (checkCallReceiver g s m).isOk = true) :
    (checkCallReceiver g t m).isOk = true := by
  unfold ManagedCode.checkCallReceiver at hs ⊢
  cases hvalue : m.declaring.isValueType with
  | false =>
      rw [hvalue] at hs
      exact h.checkObjectReceiver hclasses hg hm hs
  | true =>
      simp only [hvalue, if_true] at hs ⊢
      rcases h.cases with rfl | ⟨-, -, -, -, hreferent⟩
      · exact hs
      · rw [hreferent, if_neg nofun] at hs
        split at hs <;> cases hs

theorem checkVirtualReceiver (h : s.Nulled g t) (hclasses : g.ClassBases) (hg : g.Sound)
    {m : Method} (hm : g.Knows m.declaring) (hs : (checkVirtualReceiver g s m).isOk = true) :
    (checkVirtualReceiver g t m).isOk = true := by
  rcases h.cases with rfl | ⟨rfl, -, -, -, hreferent⟩
  · exact hs
  · unfold ManagedCode.checkVirtualReceiver at hs ⊢
    rw [hreferent] at hs
    exact h.checkObjectReceiver hclasses hg hm hs

theorem checkConstrainedReceiver (h : s.Nulled g t) {constrained : Ty} {m : Method}
    (hs : (checkConstrainedReceiver g s constrained m).isOk = true) :
    (checkConstrainedReceiver g t constrained m).isOk = true := by
  rcases h.cases with rfl | ⟨-, -, -, hobject, -⟩
  · exact hs
  · unfold ManagedCode.checkConstrainedReceiver at hs
    split at hs
    · cases hs
    · rename_i heq
      rw [not_not.mp heq] at hobject
      cases hobject

theorem checkFieldInstance {c : Context} (h : s.Nulled g t) {declaring : Ty} {load : Bool}
    (hs : (checkFieldInstance c s declaring load).isOk = true) :
    (checkFieldInstance c t declaring load).isOk = true := by
  cases h with
  | same => exact hs
  | null => rfl

theorem checkSize (h : s.Nulled g t) (hs : (checkSize s).isOk = true) :
    (checkSize t).isOk = true := by
  cases h with
  | same => exact hs
  | null => rfl

theorem isTestable (h : s.Nulled g t) (hs : (s.category ≠ .float && !s.isStruct) = true) :
    (t.category ≠ .float && !t.isStruct) = true := by
  cases h with
  | same => exact hs
  | null => rfl

theorem isSmall (h : s.Nulled g t)
    (hs : (s.category = .int32 || s.category = .zero) = true) :
    (t.category = .int32 || t.category = .zero) = true := by
  cases h with
  | same => exact hs
  | null => rfl

end StackType.Nulled

namespace Step

variable {α β : Type} {g : Graph}

/-- What the first step accepts, the second one accepts with some object references being null. -/
abbrev AdmitsNull (g : Graph) (rel : α → β → Prop) (x : Step α) (y : Step β) : Prop :=
  Outcome.Entails (EvalStack.Nulled g) (EvalStack.Nulled g) rel x y

theorem admitsNull_get :
    AdmitsNull g (EvalStack.Nulled g) (get : Step EvalStack) (get : Step EvalStack) := by
  refine ⟨fun hnulled hrun => ?_⟩
  cases hrun
  exact ⟨_, _, rfl, hnulled, hnulled⟩

theorem admitsNull_popEntry (reason : String) :
    AdmitsNull g (fun a b => a.type.Nulled g b.type) (popEntry reason) (popEntry reason) := by
  refine ⟨?_⟩
  rintro ⟨_ | ⟨a, rest⟩, next⟩ ⟨_ | ⟨b, rest'⟩, next'⟩ e t hnulled hrun
  · cases hrun
  · cases hrun
  · cases hnulled
  · cases hrun
    obtain ⟨hab, hrest⟩ := List.forall₂_cons.mp hnulled
    exact ⟨b, ⟨rest', next'⟩, rfl, hab, hrest⟩

theorem admitsNull_pop (reason : String) :
    AdmitsNull g (StackType.Nulled g) (pop reason) (pop reason) :=
  (admitsNull_popEntry reason).bind fun _ _ h => Outcome.entails_pure h

theorem admitsNull_push {a b : StackType} (h : a.Nulled g b) :
    AdmitsNull g Eq (push a) (push b) := by
  refine ⟨fun hnulled hrun => ?_⟩
  cases hrun
  exact ⟨(), _, rfl, rfl, hnulled.push h⟩

theorem admitsNull_pushType (t : Ty) : AdmitsNull g Eq (pushType t) (pushType t) :=
  admitsNull_push (.same _)

theorem admitsNull_pushEntry {a b : StackEntry} (h : a.type.Nulled g b.type) :
    AdmitsNull g Eq (pushEntry a) (pushEntry b) := by
  refine ⟨fun hnulled hrun => ?_⟩
  cases hrun
  exact ⟨(), _, rfl, rfl, .cons h hnulled⟩

theorem admitsNull_pushResult (result : Option Ty) :
    AdmitsNull g Eq (pushResult result) (pushResult result) := by
  cases result with
  | none => exact Outcome.entails_pure rfl
  | some t => exact admitsNull_pushType t

theorem admitsNull_clear : AdmitsNull g Eq clear clear := by
  refine ⟨fun _ hrun => ?_⟩
  cases hrun
  exact ⟨(), _, rfl, rfl, .nil⟩

/-! Operands. -/

theorem admitsNull_popExpecting (hclasses : g.ClassBases) (hg : g.Sound) {t : Ty} (ht : g.Knows t)
    (reason : String) : AdmitsNull g Eq (popExpecting g t reason) (popExpecting g t reason) :=
  (admitsNull_pop reason).bind fun _ _ h =>
    entails_check (h.isAssignableTo hclasses hg ht) _ _

theorem admitsNull_popArguments (hclasses : g.ClassBases) (hg : g.Sound) {parameters : List Ty}
    (hparameters : ∀ t ∈ parameters, g.Knows t) (index : Nat) :
    AdmitsNull g Eq (popArguments g index parameters) (popArguments g index parameters) := by
  induction parameters generalizing index with
  | nil => exact Outcome.entails_pure rfl
  | cons t rest ih =>
      obtain ⟨ht, hrest⟩ := List.forall_mem_cons.mp hparameters
      exact (ih hrest (index + 1)).seq (admitsNull_popExpecting hclasses hg ht _)

/-- No object is an address. -/
theorem admitsNull_popAddress (c : Context) (accessed : Option Ty) (reason : String) :
    AdmitsNull g Eq (popAddress c accessed reason) (popAddress c accessed reason) := by
  refine (admitsNull_pop reason).bind fun a b h => ?_
  rcases h.cases with rfl | ⟨-, -, -, hobject, -⟩
  · cases b.category with
    | zero => exact Outcome.entails_pure rfl
    | nativeInt => exact entails_check id _ _
    | managedPointer | pointer =>
        cases b.simple?.bind Ty.referent? with
        | none => exact Outcome.entails_pure rfl
        | some referent =>
            cases accessed with
            | none => exact Outcome.entails_pure rfl
            | some accessed => exact entails_check id _ _
    | int32 | int64 | float | object => exact Outcome.entails_throw _ _
  · simp only [hobject]
    exact Outcome.entails_throw _ _

theorem admitsNull_popIndex (reason : String) :
    AdmitsNull g Eq (popIndex reason) (popIndex reason) :=
  (admitsNull_pop reason).bind fun _ _ h => entails_liftM h.checkSize

/-- An array that is null has no element type. -/
theorem admitsNull_popArray (reason : String) :
    AdmitsNull g (fun a b => b = a ∨ b = none) (popArray reason) (popArray reason) := by
  refine (admitsNull_pop reason).bind fun a b h => ?_
  cases a with
  | zero =>
      cases h with
      | same | null => exact Outcome.entails_pure (.inl rfl)
  | complex => exact Outcome.entails_throw _ _
  | simple t =>
      cases helement : t.element? with
      | none =>
          simp only [helement]
          exact Outcome.entails_throw _ _
      | some element =>
          simp only [helement]
          cases h with
          | same =>
              simp only [helement]
              exact Outcome.entails_pure (.inl rfl)
          | null => exact Outcome.entails_pure (.inr rfl)

/-- What null is not asked for. -/
theorem admitsNull_skipped (condition : Bool) (e : VerifyError) :
    AdmitsNull g Eq (check condition e) (pure ()) := by
  cases condition with
  | false => exact Outcome.entails_throw _ _
  | true => exact Outcome.entails_pure rfl

theorem admitsNull_unchecked {x y : Step Unit} (h : AdmitsNull g Eq x y) (condition : Bool)
    (e : VerifyError) :
    AdmitsNull g Eq (do
      check condition e
      x) y := by
  cases condition with
  | false => exact Outcome.entails_throw _ _
  | true => exact h

theorem popIndex_ok {reason : String} {s t : EvalStack}
    (h : (popIndex reason).on s = (.ok (), t)) : ∃ index, s.shape = index :: t.shape := by
  obtain ⟨index, u, hpop, hcheck⟩ := bind_ok h
  rw [on_liftM] at hcheck
  obtain ⟨-, rfl⟩ := Prod.mk.inj hcheck
  exact ⟨index, pop_ok hpop⟩

/-- Only null passes for an array without element type. -/
theorem popArray_none {reason : String} {s t : EvalStack}
    (h : (popArray reason).on s = (.ok none, t)) : s.shape = .zero :: t.shape := by
  obtain ⟨array, u, hpop, hfound⟩ := bind_ok h
  have hshape := pop_ok hpop
  cases array with
  | zero =>
      cases hfound
      exact hshape
  | complex => cases hfound
  | simple v =>
      cases helement : v.element? with
      | none =>
          simp only [helement] at hfound
          cases hfound
      | some element =>
          simp only [helement] at hfound
          cases hfound

theorem admitsNull_array {f : Option Ty → Step Unit} (reason : String)
    (hnone : AdmitsNull g Eq (f none) (f none))
    (hsome : ∀ element, AdmitsNull g Eq (f (some element)) (f (some element)))
    (hnull : ∀ element, AdmitsNull g Eq (f (some element)) (f none)) :
    AdmitsNull g Eq (popArray reason >>= f) (popArray reason >>= f) := by
  refine (admitsNull_popArray reason).bind fun a b h => ?_
  cases a with
  | none =>
      rcases h with rfl | rfl
      · exact hnone
      · exact hnone
  | some element =>
      rcases h with rfl | rfl
      · exact hsome element
      · exact hnull element

end Step

/-! Instructions. -/

namespace Context

open Step

variable {c : Context}

/-- What the instruction accepts, it accepts with some object references being null. -/
abbrev AdmitsNull (c : Context) (x : Step Unit) : Prop := Step.AdmitsNull c.graph Eq x x

theorem admitsNull_argument (c : Context) (index : UInt16) :
    Step.AdmitsNull c.graph (fun t u => u = t ∧ t ∈ c.arguments) (c.argument index)
      (c.argument index) := by
  unfold argument
  cases hfound : c.arguments[index.toNat]? with
  | none => exact Outcome.entails_throw _ _
  | some t => exact Outcome.entails_pure ⟨rfl, Array.mem_of_getElem? hfound⟩

theorem admitsNull_localType (c : Context) (index : UInt16) :
    Step.AdmitsNull c.graph (fun t u => u = t ∧ t ∈ c.locals) (c.localType index)
      (c.localType index) := by
  unfold localType
  cases hfound : c.locals[index.toNat]? with
  | none => exact Outcome.entails_throw _ _
  | some t => exact Outcome.entails_pure ⟨rfl, Array.mem_of_getElem? hfound⟩

theorem admitsNull_convert (target : Conversion) (checked : Bool) :
    c.AdmitsNull (convert target checked) := by
  refine (admitsNull_pop _).bind fun a b h => ?_
  refine (entails_check id _ _).seq ?_
  exact (entails_check (h.takes target) _ _).seq (admitsNull_pushType _)

theorem admitsNull_load (t : Ty) : c.AdmitsNull (load c t) :=
  (admitsNull_popAddress c _ _).seq (admitsNull_pushType t)

theorem admitsNull_duplicate : c.AdmitsNull (c.step .dup) := by
  refine (admitsNull_popEntry _).bind fun a b h => ?_
  refine (entails_check h.not_isStruct _ _).seq ?_
  exact (admitsNull_pushEntry h).seq (admitsNull_pushEntry h)

theorem admitsNull_binary (op : BinaryOp) : c.AdmitsNull (c.step (.binary op)) := by
  refine (admitsNull_pop _).bind fun right right' hright => ?_
  refine (admitsNull_pop _).bind fun left left' hleft => ?_
  cases hresult : op.operation.result? left right with
  | none => exact Outcome.entails_throw _ _
  | some result =>
      rw [Operation.result?_of_nulled hleft hright hresult]
      exact admitsNull_push (.same result)

/-- A number is not an object, so it has not become null. -/
theorem admitsNull_number {condition : StackType → Bool} {result : StackType → StackType}
    (hcondition : ∀ s, s.category = .object → condition s = false) (reason : String)
    (error : StackType → VerifyError) :
    c.AdmitsNull (do
      let operand ← pop reason
      check (condition operand) (error operand)
      push (result operand)) := by
  refine (admitsNull_pop _).bind fun a b h => ?_
  cases hnumber : condition a with
  | false => exact Outcome.entails_throw _ _
  | true =>
      have hcategory : a.category ≠ .object := fun hobject => by
        rw [hcondition a hobject] at hnumber
        cases hnumber
      cases h.eq_of_category hcategory
      rw [hnumber]
      exact (entails_check id _ _).seq (admitsNull_push (.same _))

theorem admitsNull_loadField {f : Field} {load : Bool} {t : Ty} (allowed : Bool) (e : VerifyError)
    (reason : String) :
    c.AdmitsNull (do
      check allowed e
      checkFieldInstance c (← pop reason) f.declaring load
      pushType t) := by
  refine (entails_check id _ _).seq ?_
  refine (admitsNull_pop _).bind fun a b hab => ?_
  exact (entails_liftM hab.checkFieldInstance).seq (admitsNull_pushType _)

theorem admitsNull_reference {t : Ty} (reason : String) :
    c.AdmitsNull (do
      let reference ← pop reason
      check reference.isObjectReference (.unexpected reference .objectReference)
      pushType t) := by
  refine (admitsNull_pop _).bind fun a b h => ?_
  exact (entails_check h.isObjectReference _ _).seq (admitsNull_pushType _)

theorem admitsNull_unbox (t : Ty) : c.AdmitsNull (c.step (.unbox t)) := by
  refine (admitsNull_pop _).bind fun a b h => ?_
  refine (entails_check id _ _).seq ?_
  exact (entails_check h.isObjectReference _ _).seq (admitsNull_pushType _)

theorem admitsNull_elementAddress (t : Ty) : c.AdmitsNull (c.step (.ldelema t)) := by
  refine (admitsNull_popIndex _).seq ?_
  refine admitsNull_array _ (admitsNull_pushType _) (fun element => ?_) fun element => ?_
  · exact (entails_check id _ _).seq (admitsNull_pushType _)
  · exact admitsNull_unchecked (admitsNull_pushType _) _ _

theorem admitsNull_element (t : Ty) : c.AdmitsNull (c.step (.ldelem t)) := by
  refine (admitsNull_popIndex _).seq ?_
  refine admitsNull_array _ (admitsNull_pushType _) (fun element => ?_) fun element => ?_
  · exact (entails_check id _ _).seq (admitsNull_pushType _)
  · exact admitsNull_unchecked (admitsNull_pushType _) _ _

theorem admitsNull_storeReference (c : Context) : c.AdmitsNull (c.step .stelemRef) := by
  refine (admitsNull_pop _).bind fun a b hab => ?_
  refine (entails_check hab.isObjectReference _ _).seq ?_
  refine (admitsNull_popIndex _).seq ?_
  refine admitsNull_array _ (Outcome.entails_pure rfl) (fun element => ?_) fun element => ?_
  · exact entails_check id _ _
  · exact admitsNull_skipped _ _

theorem admitsNull_length (c : Context) : c.AdmitsNull (c.step .ldlen) :=
  (admitsNull_popArray _).bind fun _ _ _ => admitsNull_pushType _

theorem admitsNull_allocate (c : Context) : c.AdmitsNull (c.step .localloc) := by
  refine (admitsNull_pop _).bind fun size size' hsize => ?_
  refine (entails_check id _ _).seq ?_
  refine (entails_liftM hsize.checkSize).seq ?_
  refine admitsNull_get.bind fun s t hnulled => ?_
  rw [hnulled.isEmpty_eq]
  exact (entails_check id _ _).seq (admitsNull_pushType _)

theorem admitsNull_initializeBlock (c : Context) : c.AdmitsNull (c.step .initblk) := by
  refine (admitsNull_pop _).bind fun size size' hsize => ?_
  refine (admitsNull_pop _).bind fun value value' hvalue => ?_
  refine (admitsNull_popAddress c none _).seq ?_
  refine (entails_check id _ _).seq ?_
  refine (entails_liftM hsize.checkSize).seq ?_
  exact entails_check hvalue.isSmall _ _

theorem admitsNull_copyBlock (c : Context) : c.AdmitsNull (c.step .cpblk) := by
  refine (admitsNull_pop _).bind fun size size' hsize => ?_
  refine (admitsNull_popAddress c none _).seq ?_
  refine (admitsNull_popAddress c none _).seq ?_
  exact (entails_check id _ _).seq (entails_liftM hsize.checkSize)

section

variable (hclasses : c.graph.ClassBases) (h : c.Known)
include hclasses h

theorem admitsNull_store {t : Ty} (ht : c.graph.Knows t) : c.AdmitsNull (store c t) :=
  (admitsNull_popExpecting hclasses h.graph ht _).seq (admitsNull_popAddress c _ _)

theorem admitsNull_call {m : Method} (hm : ∀ t ∈ m.types, c.graph.Knows t) :
    c.AdmitsNull (c.step (.call m)) := by
  obtain ⟨hdeclaring, hparameters⟩ := Method.forall_mem_types hm
  refine (admitsNull_popArguments hclasses h.graph hparameters 0).seq ?_
  cases m.isStatic with
  | true => exact admitsNull_pushResult _
  | false =>
      refine (admitsNull_pop _).bind fun a b hab => ?_
      refine (entails_liftM ?_).seq (admitsNull_pushResult _)
      exact hab.checkCallReceiver hclasses h.graph hdeclaring

theorem admitsNull_callvirt {m : Method} (hm : ∀ t ∈ m.types, c.graph.Knows t)
    (constrained : Option Ty) : c.AdmitsNull (c.step (.callvirt m constrained)) := by
  rw [step_callvirt]
  obtain ⟨hdeclaring, hparameters⟩ := Method.forall_mem_types hm
  refine (entails_check id _ _).seq ?_
  refine (admitsNull_popArguments hclasses h.graph hparameters 0).seq ?_
  refine (admitsNull_pop _).bind fun a b hab => ?_
  cases constrained with
  | some t => exact (entails_liftM hab.checkConstrainedReceiver).seq (admitsNull_pushResult _)
  | none =>
      refine (entails_liftM ?_).seq (admitsNull_pushResult _)
      exact hab.checkVirtualReceiver hclasses h.graph hdeclaring

theorem admitsNull_calli {site : CallSite} (hparameters : ∀ t ∈ site.parameters, c.graph.Knows t) :
    c.AdmitsNull (c.step (.calli site)) := by
  refine (admitsNull_pop _).bind fun entry entry' hentry => ?_
  refine (entails_check ?_ _ _).seq ?_
  · intro hnative
    have hcategory : entry.category = .nativeInt := of_decide_eq_true hnative
    rw [hentry.eq_of_category (by rw [hcategory]; decide)]
    exact hnative
  refine (admitsNull_popArguments hclasses h.graph hparameters 0).seq ?_
  cases site.hasThis with
  | false => exact admitsNull_pushResult _
  | true =>
      refine (admitsNull_pop _).bind fun a b hab => ?_
      rcases hab.cases with rfl | ⟨rfl, -, -, hobject, -⟩
      · cases b.category with
        | object | managedPointer | zero =>
            exact (entails_check id _ _).seq (admitsNull_pushResult _)
        | int32 | int64 | nativeInt | float | pointer => exact Outcome.entails_throw _ _
      · simp only [hobject]
        exact (entails_check hab.not_isStruct _ _).seq (admitsNull_pushResult _)

theorem admitsNull_virtualPointer {m : Method} (hm : c.graph.Knows m.declaring) :
    c.AdmitsNull (c.step (.ldvirtftn m)) := by
  refine (entails_check id _ _).seq ?_
  refine (admitsNull_pop _).bind fun a b hab => ?_
  refine (entails_liftM ?_).seq (admitsNull_pushType _)
  exact hab.checkVirtualReceiver hclasses h.graph hm

theorem admitsNull_box {t : Ty} (ht : c.graph.Knows t) : c.AdmitsNull (c.step (.box t)) := by
  refine (admitsNull_pop _).bind fun a b hab => ?_
  refine (entails_check id _ _).seq ?_
  exact (entails_check (hab.isAssignableTo hclasses h.graph ht) _ _).seq (admitsNull_pushType _)

theorem admitsNull_storeField {f : Field} (hf : ∀ t ∈ f.types, c.graph.Knows t) :
    c.AdmitsNull (c.step (.stfld f)) := by
  have htype := hf f.type (List.mem_cons_of_mem _ List.mem_cons_self)
  refine (entails_check id _ _).seq ?_
  refine (admitsNull_popExpecting hclasses h.graph htype _).seq ?_
  exact (admitsNull_pop _).bind fun a b hab => entails_liftM hab.checkFieldInstance

theorem admitsNull_storeElement {t : Ty} (ht : c.graph.Knows t) :
    c.AdmitsNull (c.step (.stelem t)) := by
  refine (admitsNull_popExpecting hclasses h.graph ht _).seq ?_
  refine (admitsNull_popIndex _).seq ?_
  refine admitsNull_array _ (Outcome.entails_pure rfl) (fun element => ?_) fun element => ?_
  · exact entails_check id _ _
  · exact admitsNull_skipped _ _

/-- All instructions but one find the same with null in place of an object reference. -/
theorem admitsNull_step {i : Instruction} (hi : ∀ t ∈ i.types, c.graph.Knows t)
    (hload : i ≠ .ldelemRef) : c.AdmitsNull (c.step i) := by
  cases i with
  | ldelemRef => exact absurd rfl hload
  | nop | «break» => exact Outcome.entails_pure rfl
  | ldarg index | ldarga index =>
      refine (admitsNull_argument c index).bind ?_
      rintro _ t ⟨rfl, -⟩
      exact admitsNull_pushType _
  | ldloc index | ldloca index =>
      refine (admitsNull_localType c index).bind ?_
      rintro _ t ⟨rfl, -⟩
      exact admitsNull_pushType _
  | starg index =>
      refine (admitsNull_argument c index).bind ?_
      rintro _ t ⟨rfl, ht⟩
      exact admitsNull_popExpecting hclasses h.graph (h.arguments t ht) _
  | stloc index =>
      refine (admitsNull_localType c index).bind ?_
      rintro _ t ⟨rfl, ht⟩
      exact admitsNull_popExpecting hclasses h.graph (h.locals t ht) _
  | ldnull => exact admitsNull_push (.same _)
  | ldcI4 | ldcI8 | ldcR4 | ldcR8 | ldstr | ldftn | sizeof => exact admitsNull_pushType _
  | dup => exact admitsNull_duplicate
  | pop => exact (admitsNull_pop _).bind fun _ _ _ => Outcome.entails_pure rfl
  | binary op => exact admitsNull_binary op
  | neg => exact admitsNull_number (fun s hs => by rw [hs]; rfl) _ _
  | not => exact admitsNull_number (fun s hs => by rw [hs]; rfl) _ _
  | ckfinite => exact admitsNull_number (fun s hs => by rw [hs]; rfl) _ _
  | conv target => exact admitsNull_convert target false
  | convOvf target => exact admitsNull_convert target true
  | convOvfUn target => exact admitsNull_convert target true
  | call m => exact admitsNull_call hclasses h hi
  | callvirt m constrained =>
      have hm : ∀ t ∈ m.types, c.graph.Knows t := fun t ht => hi t (List.mem_append_right _ ht)
      exact admitsNull_callvirt hclasses h hm constrained
  | calli site => exact admitsNull_calli hclasses h fun t ht => hi t (List.mem_append_left _ ht)
  | newobj m =>
      have hparameters := (Method.forall_mem_types hi).2
      refine (entails_check id _ _).seq ?_
      refine (entails_check id _ _).seq ?_
      exact (admitsNull_popArguments hclasses h.graph hparameters 0).seq (admitsNull_pushType _)
  | ldvirtftn m => exact admitsNull_virtualPointer hclasses h (Method.forall_mem_types hi).1
  | ldind t => exact admitsNull_load t
  | ldobj t => exact admitsNull_load t
  | stind t => exact admitsNull_store hclasses h (hi t List.mem_cons_self)
  | stobj t => exact admitsNull_store hclasses h (hi t List.mem_cons_self)
  | cpobj t => exact (admitsNull_popAddress c _ _).seq (admitsNull_popAddress c _ _)
  | initobj t => exact admitsNull_popAddress c _ _
  | box t => exact admitsNull_box hclasses h (hi t List.mem_cons_self)
  | unbox t => exact admitsNull_unbox t
  | unboxAny t => exact admitsNull_reference _
  | castclass t => exact admitsNull_reference _
  | isinst t => exact admitsNull_reference _
  | ldfld f => exact admitsNull_loadField _ _ _
  | ldflda f => exact admitsNull_loadField _ _ _
  | stfld f => exact admitsNull_storeField hclasses h hi
  | ldsfld f | ldsflda f => exact (entails_check id _ _).seq (admitsNull_pushType _)
  | stsfld f =>
      have htype := hi f.type (List.mem_cons_of_mem _ List.mem_cons_self)
      exact (entails_check id _ _).seq (admitsNull_popExpecting hclasses h.graph htype _)
  | newarr t => exact (admitsNull_popIndex _).seq (admitsNull_pushType _)
  | ldlen => exact admitsNull_length c
  | ldelema t => exact admitsNull_elementAddress t
  | ldelem t => exact admitsNull_element t
  | stelem t => exact admitsNull_storeElement hclasses h (hi t List.mem_cons_self)
  | stelemRef => exact admitsNull_storeReference c
  | ldtoken token => cases token <;> exact admitsNull_pushType _
  | localloc => exact admitsNull_allocate c
  | initblk => exact admitsNull_initializeBlock c
  | cpblk => exact admitsNull_copyBlock c

end

/-- What `ldelem.ref` pushes for the array that it has found. -/
def pushElement (found : Option Ty) : Step Unit :=
  match found with
  | some element => do
    check element.isReference (.mismatch .referenceArray (.arrayOf element))
    pushType element
  | none => pushType .object

theorem elementReference_run {s t u : EvalStack} {found : Option Ty}
    (hindex : (popIndex "expected an array index").on s = (.ok (), t))
    (harray : (popArray "expected an array").on t = (.ok found, u)) :
    (c.step .ldelemRef).on s = (pushElement found).on u := by
  change (do
    popIndex "expected an array index"
    pushElement (← popArray "expected an array")).on s = _
  simp only [on_bind, hindex, harray]

theorem elementReference_of_nulled {s t s' : EvalStack} (hnulled : s.Nulled c.graph t)
    (hrun : (c.step .ldelemRef).on s = (.ok (), s')) :
    ∃ t', (c.step .ldelemRef).on t = (.ok (), t') ∧
      (s'.Nulled c.graph t' ∨ t.shape[1]? = some .zero ∧ s'.ElementNulled c.graph t') := by
  obtain ⟨_, s₁, hindex, hrest⟩ := bind_ok hrun
  obtain ⟨found, s₂, harray, -⟩ := bind_ok hrest
  obtain ⟨_, t₁, hindex', -, hnulled₁⟩ := (admitsNull_popIndex _).accepted hnulled hindex
  obtain ⟨found', t₂, harray', hfound, hnulled₂⟩ :=
    (admitsNull_popArray _).accepted hnulled₁ harray
  have hsame : c.AdmitsNull (pushElement found) := by
    cases found with
    | none => exact admitsNull_pushType _
    | some element => exact (entails_check id _ _).seq (admitsNull_pushType _)
  rw [elementReference_run hindex harray] at hrun
  rw [elementReference_run hindex' harray']
  rcases hfound with rfl | rfl
  · obtain ⟨_, t', hrun', -, hnulled'⟩ := hsame.accepted hnulled₂ hrun
    exact ⟨t', hrun', .inl hnulled'⟩
  · -- The array of the second stack is null.
    refine ⟨_, rfl, ?_⟩
    cases found with
    | none =>
        cases hrun
        exact .inl (hnulled₂.push (.same _))
    | some element =>
        obtain ⟨_, s₃, hcheck, hpush⟩ := bind_ok hrun
        obtain ⟨href, rfl⟩ := check_ok hcheck
        cases hpush
        obtain ⟨index, hshape⟩ := popIndex_ok hindex'
        refine .inr ⟨?_, element, _, _, href, rfl, rfl, hnulled₂⟩
        rw [hshape, popArray_none harray']
        rfl

/-- An accepted instruction is accepted with null in place of some object references. -/
theorem verify_of_nulled (hclasses : c.graph.ClassBases) (h : c.Known) {i : Instruction}
    (hi : ∀ u ∈ i.types, c.graph.Knows u) {s t s' : EvalStack} (hnulled : s.Nulled c.graph t)
    (hrun : (c.verify i).on s = (.ok (), s')) :
    ∃ t', (c.verify i).on t = (.ok (), t') ∧
      (s'.Nulled c.graph t' ∨
        i = .ldelemRef ∧ t.shape[1]? = some .zero ∧ s'.ElementNulled c.graph t') := by
  obtain ⟨hdepth, hstep⟩ := verify_ok hrun
  have hverify : (c.verify i).on t = (c.step i).on t := by
    rw [hnulled.depth_eq] at hdepth
    rw [verify, on_bind, on_require, if_neg (Nat.not_lt.mpr hdepth)]
  rw [hverify]
  by_cases hload : i = .ldelemRef
  · subst hload
    obtain ⟨t', hrun', hafter⟩ := elementReference_of_nulled hnulled hstep
    exact ⟨t', hrun', hafter.imp_right fun helement => ⟨rfl, helement⟩⟩
  · obtain ⟨_, t', hrun', -, hafter⟩ :=
      (admitsNull_step hclasses h hi hload).accepted hnulled hstep
    exact ⟨t', hrun', .inl hafter⟩

/-- A branch finds the same with null in place of an object reference. -/
theorem admitsNull_transfer (hclasses : c.graph.ClassBases) (hg : c.graph.Sound)
    (hresult : ∀ t ∈ c.result, c.graph.Knows t) (b : Branch) :
    Step.AdmitsNull c.graph (fun _ _ => True) (c.transfer b) (c.transfer b) := by
  have htested : Step.AdmitsNull c.graph (fun _ _ => True) popTested popTested := by
    refine (admitsNull_popEntry _).bind fun a b h => ?_
    exact (entails_check h.isTestable _ _).seq (Outcome.entails_pure trivial)
  cases b with
  | br => exact Outcome.entails_pure trivial
  | brfalse | brtrue => exact htested.bind fun _ _ _ => Outcome.entails_pure trivial
  | compare comparison =>
      refine (admitsNull_pop _).bind fun right right' hright => ?_
      refine (admitsNull_pop _).bind fun left left' hleft => ?_
      cases hcompared : comparison.operation.result? left right with
      | none => exact Outcome.entails_throw _ _
      | some result =>
          rw [Operation.result?_of_nulled hleft hright hcompared]
          exact Outcome.entails_pure trivial
  | switch =>
      refine (admitsNull_pop _).bind fun a b h => ?_
      exact (entails_check h.isSmall _ _).seq (Outcome.entails_pure trivial)
  | leave | rethrow | endfinally =>
      refine (entails_check id _ _).seq ?_
      exact admitsNull_clear.seq (Outcome.entails_pure trivial)
  | ret =>
      refine (entails_check id _ _).seq ?_
      refine admitsNull_get.bind fun s t h => ?_
      rw [h.depth_eq]
      cases hreturned : c.result with
      | none => exact (entails_check id _ _).seq (Outcome.entails_pure trivial)
      | some t =>
          have ht := hresult t hreturned
          refine (entails_check id _ _).seq ?_
          exact (admitsNull_popExpecting hclasses hg ht _).seq (Outcome.entails_pure trivial)
  | throw =>
      have hexception : c.graph.Knows .exception := hg.knows_library (by decide)
      refine (admitsNull_pop _).bind fun a b h => ?_
      refine (entails_check (h.isAssignableTo hclasses hg hexception) _ _).seq ?_
      exact admitsNull_clear.seq (Outcome.entails_pure trivial)
  | jmp m =>
      refine admitsNull_get.bind fun s t h => ?_
      rw [h.depth_eq]
      refine (entails_check id _ _).seq ?_
      refine (entails_check id _ _).seq ?_
      exact (entails_liftM id).seq (Outcome.entails_pure trivial)

/-- Null is accepted wherever an object reference is, and leaves null in place of object references
at most. Only the element of an array that is null is an object then, whatever its type was. -/
theorem null_admitted (hbuilt : c.graph.Built) (hclasses : c.graph.ClassBases)
    (harguments : ∀ u ∈ c.arguments, c.graph.Knows u) (hlocals : ∀ u ∈ c.locals, c.graph.Knows u)
    (hresult : ∀ u ∈ c.result, c.graph.Knows u) {s t : EvalStack} (hnulled : s.Nulled c.graph t) :
    (∀ i : Instruction, (∀ u ∈ i.types, c.graph.Knows u) → (c.verify i).accepts s = true →
      (c.verify i).accepts t = true ∧
        (((c.verify i).after s).Nulled c.graph ((c.verify i).after t) ∨
          i = .ldelemRef ∧ t.shape[1]? = some .zero ∧
            ((c.verify i).after s).ElementNulled c.graph ((c.verify i).after t))) ∧
    ∀ b : Branch, (c.transfer b).accepts s = true →
      (c.transfer b).accepts t = true ∧
        ((c.transfer b).after s).Nulled c.graph ((c.transfer b).after t) := by
  have h : c.Known := ⟨hbuilt.sound, harguments, hlocals⟩
  refine ⟨fun i hi haccepted => ?_, fun b haccepted => ?_⟩
  · obtain ⟨_, s', hrun⟩ := accepts_iff.mp haccepted
    obtain ⟨t', hrun', hafter⟩ := verify_of_nulled hclasses h hi hnulled hrun
    refine ⟨accepts_iff.mpr ⟨_, t', hrun'⟩, ?_⟩
    rw [after, hrun, after, hrun']
    exact hafter
  · obtain ⟨_, s', hrun⟩ := accepts_iff.mp haccepted
    obtain ⟨tested, t', hrun', -, hafter⟩ :=
      (admitsNull_transfer hclasses h.graph hresult b).accepted hnulled hrun
    change (c.transfer b).on t = (.ok tested, t') at hrun'
    refine ⟨accepts_iff.mpr ⟨_, t', hrun'⟩, ?_⟩
    rw [after, hrun, after, hrun']
    exact hafter

/-- The element of an array of strings. -/
theorem null_admitted_element :
    let c : Context := ⟨.library, #[], #[], none, none, {}⟩
    let s := EvalStack.ofShape [.simple .int32, .simple (.arrayOf .string)]
    let t := EvalStack.ofShape [.simple .int32, .zero]
    (c.verify .ldelemRef).accepts s = true ∧ s.Nulled c.graph t ∧
      (c.verify .ldelemRef).accepts t = true ∧
      ((c.verify .ldelemRef).after s).shape = [.simple .string] ∧
      ((c.verify .ldelemRef).after t).shape = [.simple .object] := by
  intro c s t
  have hgraph : c.graph = .library := by simp only [c]
  have hstring : Graph.library.Knows .string := Graph.Built.library.sound.knows_library (by decide)
  have hstrings : (StackType.simple (.arrayOf .string)).Known .library := ⟨rfl, hstring⟩
  have hnull : StackType.Nulled .library (.simple (.arrayOf .string)) .zero := .null hstrings rfl
  have hnulled : s.Nulled .library t := .cons (.same _) (.cons hnull .nil)
  rw [← hgraph] at hnulled
  have hbuilt : c.graph.Built := hgraph ▸ .library
  have hclasses : c.graph.ClassBases := hgraph ▸ Graph.tame_library.classes
  have haccepted : (c.verify .ldelemRef).accepts s = true := rfl
  obtain ⟨hinstruction, -⟩ :=
    null_admitted hbuilt hclasses (by simp [c]) (by simp [c]) (by simp [c]) hnulled
  obtain ⟨haccepted', -⟩ := hinstruction .ldelemRef (by simp [Instruction.types]) haccepted
  exact ⟨haccepted, hnulled, haccepted', rfl, rfl⟩

end Context

end ManagedCode
