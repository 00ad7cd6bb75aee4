import ManagedCode.Graph.Library
import ManagedCode.Proofs.Builder.Trail
import ManagedCode.Proofs.StackType.Consistency

namespace ManagedCode.Builder

/-! A local of any type can be cleared at any place, whether by a zero that fits it or through its
address. -/

open Emit

/-- Ways to load the zero of a type. -/
inductive LoadsZero (t : Ty) : List Instruction → Prop where
  | null : t.isValueType = false → LoadsZero t [.ldnull]
  | int32 : t.category = .int32 → LoadsZero t [.ldcI4 0]
  | int64 : t.category = .int64 → LoadsZero t [.ldcI8 0]
  | native {c : Conversion} : t.category = .nativeInt → c = .i ∨ c = .u →
      LoadsZero t [.ldcI4 0, .conv c]
  | single : t.category = .float → LoadsZero t [.ldcR4 .zero]
  | double : t.category = .float → LoadsZero t [.ldcR8 .zero]

/-- A zero is stored in the local, or its memory is initialized. -/
inductive Clears (t : Ty) (index : UInt16) : List Instruction → Prop where
  | store {load : List Instruction} : LoadsZero t load → Clears t index (load ++ [.stloc index])
  | address : t.isValueType = true → Clears t index [.ldloca index, .initobj t]

theorem loadsZero_zeroOf {t : Ty} (h : hasZero t = true) : LoadsZero t (zeroOf t) := by
  have hnull : t.underlying? = none → t.primitive? = none → LoadsZero t [.ldnull] := by
    intro hunderlying hprimitive
    refine .null ?_
    simpa [hasZero, hunderlying, hprimitive] using h
  have hprimitive : ∀ {kind : Primitive}, t.category = kind.category →
      (t.underlying?.getD t).primitive? = some kind → LoadsZero t (zeroOf t) := by
    intro kind hcategory hkind
    unfold zeroOf
    rw [hkind]
    cases kind with
    | int64 | uint64 => exact .int64 hcategory
    | single => exact .single hcategory
    | double => exact .double hcategory
    | intPtr => exact .native hcategory (.inl rfl)
    | uintPtr => exact .native hcategory (.inr rfl)
    | _ => exact .int32 hcategory
  cases t with
  | primitive kind base => exact hprimitive rfl rfl
  | enum name base underlying =>
      cases underlying with
      | primitive kind base => exact hprimitive rfl rfl
      | _ => cases h
  | struct => cases h
  | _ => exact hnull rfl rfl

theorem clears_clearing (t : Ty) (index : UInt16) : Clears t index (clearing t index) := by
  unfold clearing
  split
  · rename_i hzero
    exact .store (loadsZero_zeroOf hzero)
  · rename_i hzero
    simp only [hasZero, Bool.or_eq_true, Bool.not_eq_true', not_or, Bool.not_eq_false] at hzero
    exact .address hzero.2

/-- The builder behind instructions that are accepted, with the stack that they leave and the depth
that they need. -/
def written (b : Builder) (instructions : List Instruction) (stack : EvalStack) (depth : Nat) :
    Builder :=
  { b with
    current := some stack
    maxStack := max b.maxStack depth
    emitted := (instructions.map .instruction).reverse ++ b.emitted }

theorem written_written (b : Builder) (first second : List Instruction) (stack stack' : EvalStack)
    (depth depth' : Nat) :
    (b.written first stack depth).written second stack' depth' =
      b.written (first ++ second) stack' (max depth depth') := by
  simp [written, Nat.max_assoc]

theorem push_written {b : Builder} {i : Instruction} {stack : EvalStack}
    (h : (b.context.verify i).on b.stack = (.ok (), stack)) :
    (push i).on b = (.ok (), b.written [i] stack stack.depth) := by
  rcases push_cases i b with ⟨-, hrun⟩ | ⟨e, hrejected, -⟩
  · rw [hrun, h]
    rfl
  · rw [h] at hrejected
    cases hrejected

theorem pushAll_written {b : Builder} {i : Instruction} {rest : List Instruction} {stack : EvalStack}
    (h : (b.context.verify i).on b.stack = (.ok (), stack)) :
    (pushAll (i :: rest)).on b = (pushAll rest).on (b.written [i] stack stack.depth) := by
  rw [pushAll, on_bind, push_written h]

end Builder

namespace StackType

theorem isAssignableTo_of_category (g : Graph) (source : Ty) {t : Ty} {category : Category}
    (hnumeric : category.isNumeric = true) (hsource : source.category = category)
    (h : t.category = category) : (simple source).isAssignableTo g t = true := by
  have hnumbers : (simple source).Interchangeable (simple t) :=
    .numbers (hsource ▸ hnumeric) (hsource.trans h.symm)
  have ht : t.isValueType = true := Ty.isValueType_of_isNumeric (h ▸ hnumeric)
  rw [hnumbers.isAssignableTo_eq g (Ty.not_isInterface_of_isValueType ht)]
  simp [isAssignableTo, isAssignableType]

theorem zero_isAssignableTo (g : Graph) {t : Ty} (h : t.isValueType = false) :
    zero.isAssignableTo g t = true := by
  cases t with
  | struct | enum | primitive => cases h
  | _ => rfl

end StackType

namespace Context

variable (c : Context) {index : UInt16} {t : Ty} {z : StackType} {rest : List StackEntry}
  {next identity : Nat}

theorem verify_of_pops {i : Instruction} {s : EvalStack} (h : i.pops ≤ s.depth) :
    (c.verify i).on s = (c.step i).on s := by
  rw [verify, Step.on_bind, Step.on_require, if_neg (Nat.not_lt.mpr h)]

theorem localType_of_declared (h : c.locals[index.toNat]? = some t) :
    c.localType index = pure t := by
  rw [localType, h]

theorem verify_ldloca {s : EvalStack} (h : c.locals[index.toNat]? = some t) :
    (c.verify (.ldloca index)).on s = (.ok (), s.push (.simple (.byRef t))) := by
  rw [c.verify_of_pops (Nat.zero_le _), step, c.localType_of_declared h, pure_bind]
  rfl

theorem verify_stloc (h : c.locals[index.toNat]? = some t)
    (hz : z.isAssignableTo c.graph t = true) :
    (c.verify (.stloc index)).on ⟨⟨identity, z⟩ :: rest, next⟩ = (.ok (), ⟨rest, next⟩) := by
  rw [c.verify_of_pops (by simp [Instruction.pops, EvalStack.depth]), step,
    c.localType_of_declared h, pure_bind]
  change (Step.check (z.isAssignableTo c.graph t) _).on ⟨rest, next⟩ = _
  rw [Step.on_check, hz]
  rfl

theorem verify_initobj :
    (c.verify (.initobj t)).on ⟨⟨identity, .simple (.byRef t)⟩ :: rest, next⟩ =
      (.ok (), ⟨rest, next⟩) := by
  rw [c.verify_of_pops (by simp [Instruction.pops, EvalStack.depth])]
  change (Step.check (referentMatches c.graph t t) _).on ⟨rest, next⟩ = _
  rw [Step.on_check, referentMatches, if_pos rfl]
  rfl

theorem verify_conv {conversion : Conversion} (h : conversion = .i ∨ conversion = .u) :
    (c.verify (.conv conversion)).on ⟨⟨identity, .simple .int32⟩ :: rest, next⟩ =
      (.ok (), ⟨⟨next, .simple (.ofPrimitive conversion.target)⟩ :: rest, next + 1⟩) := by
  rcases h with rfl | rfl <;> rfl

end Context

namespace Builder

open Emit

variable {b : Builder} {t : Ty} {index : UInt16}

/-- A zero is on top of the stack, whatever place it is loaded at. -/
theorem pushAll_load {load : List Instruction} (hload : LoadsZero t load) :
    ∃ z identity next, z.isAssignableTo b.graph t = true ∧ b.stack.nextIdentity ≤ next ∧
      (pushAll load).on b =
        (.ok (), b.written load ⟨⟨identity, z⟩ :: b.stack.entries, next⟩ (b.stack.depth + 1)) := by
  have hone : ∀ {i : Instruction} {z : StackType}, z.isAssignableTo b.graph t = true →
      (b.context.verify i).on b.stack = (.ok (), b.stack.push z) →
      ∃ z identity next, z.isAssignableTo b.graph t = true ∧ b.stack.nextIdentity ≤ next ∧
        (pushAll [i]).on b =
          (.ok (), b.written [i] ⟨⟨identity, z⟩ :: b.stack.entries, next⟩ (b.stack.depth + 1)) := by
    intro i z hz hverify
    refine ⟨z, b.stack.nextIdentity, b.stack.nextIdentity + 1, hz, Nat.le_succ _, ?_⟩
    rw [pushAll_singleton, push_written hverify]
    rfl
  cases hload with
  | null h => exact hone (StackType.zero_isAssignableTo b.graph h) rfl
  | int32 h => exact hone (StackType.isAssignableTo_of_category b.graph .int32 rfl rfl h) rfl
  | int64 h => exact hone (StackType.isAssignableTo_of_category b.graph .int64 rfl rfl h) rfl
  | single h => exact hone (StackType.isAssignableTo_of_category b.graph .single rfl rfl h) rfl
  | double h => exact hone (StackType.isAssignableTo_of_category b.graph .double rfl rfl h) rfl
  | @native conversion h hconversion =>
      have htarget : (Ty.ofPrimitive conversion.target).category = .nativeInt := by
        rcases hconversion with rfl | rfl <;> rfl
      refine ⟨.simple (.ofPrimitive conversion.target), b.stack.nextIdentity + 1,
        b.stack.nextIdentity + 2, ?_, Nat.le_add_right _ 2, ?_⟩
      · exact StackType.isAssignableTo_of_category b.graph _ rfl htarget h
      · rw [pushAll_written rfl, pushAll_singleton, push_written (Context.verify_conv _ hconversion),
          written_written]
        change (Except.ok (), b.written _ _ (max (b.stack.depth + 1) (b.stack.depth + 1))) = _
        rw [Nat.max_self]
        rfl

theorem pushAll_clears {instructions : List Instruction} (hlocal : b.locals[index.toNat]? = some t)
    (h : Clears t index instructions) :
    ∃ next, b.stack.nextIdentity ≤ next ∧ (pushAll instructions).on b =
      (.ok (), b.written instructions ⟨b.stack.entries, next⟩ (b.stack.depth + 1)) := by
  have hdepth : max (b.stack.depth + 1) b.stack.depth = b.stack.depth + 1 :=
    Nat.max_eq_left (Nat.le_succ _)
  cases h with
  | @store load hload =>
      obtain ⟨z, identity, next, hz, hnext, hrun⟩ := pushAll_load (b := b) hload
      refine ⟨next, hnext, ?_⟩
      rw [pushAll_append, on_bind, hrun]
      change (pushAll [.stloc index]).on _ = _
      rw [pushAll_singleton, push_written (Context.verify_stloc _ hlocal hz), written_written]
      change (Except.ok (), b.written _ _ (max (b.stack.depth + 1) b.stack.depth)) = _
      rw [hdepth]
  | address =>
      refine ⟨b.stack.nextIdentity + 1, Nat.le_succ _, ?_⟩
      rw [pushAll_written (Context.verify_ldloca _ hlocal), pushAll_singleton,
        push_written (Context.verify_initobj _), written_written]
      change (Except.ok (), b.written _ _ (max (b.stack.depth + 1) b.stack.depth)) = _
      rw [hdepth]
      rfl

/-- Clearing a declared local is never rejected and leaves the values on the stack alone. At an
unreachable place it starts from the empty stack. -/
theorem locals_cleared (b : Builder) (index : UInt16) :
    (∀ t, b.locals[index.toNat]? = some t →
      ∃ instructions next, Clears t index instructions ∧ b.stack.nextIdentity ≤ next ∧
        (zeroLocal index).on b =
          (.ok (), b.written instructions ⟨b.stack.entries, next⟩ (b.stack.depth + 1))) ∧
    (b.locals[index.toNat]? = none →
      (zeroLocal index).on b =
        (.error (.rejected (.zeroLocal index.toNat) (.operand (.undeclaredLocal index.toNat))),
          b)) := by
  constructor
  · intro t hlocal
    have hclears := clears_clearing t index
    obtain ⟨next, hnext, hrun⟩ := pushAll_clears hlocal hclears
    refine ⟨clearing t index, next, hclears, hnext, ?_⟩
    rw [zeroLocal_eq, on_bind, on_get]
    simp only [hlocal]
    exact hrun
  · intro hlocal
    rw [zeroLocal_eq, on_bind, on_get]
    simp only [hlocal]
    rfl

namespace Sample

def color : Ty := .enum ⟨"Sample.Color", by decide⟩ .enumBase .int32
def shade : Ty := .enum ⟨"Sample.Shade", by decide⟩ .enumBase color

/-- Behind a `throw`, with a local of an enumeration over an enumeration. -/
def thrown : Builder :=
  { (new .library [] none).withSettings .strict with locals := #[shade], current := none }

end Sample

open Sample in
theorem locals_cleared_enumeration :
    thrown.locals[0]? = some shade ∧ thrown.locals[1]? = none ∧
      (∃ instructions next, Clears shade 0 instructions ∧ 0 ≤ next ∧
        (zeroLocal 0).on thrown = (.ok (), thrown.written instructions ⟨[], next⟩ 1)) ∧
      (zeroLocal 1).on thrown =
        (.error (.rejected (.zeroLocal 1) (.operand (.undeclaredLocal 1))), thrown) :=
  ⟨rfl, rfl, (locals_cleared thrown 0).1 shade rfl, (locals_cleared thrown 1).2 rfl⟩

end Builder

end ManagedCode
