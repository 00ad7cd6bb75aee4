import ManagedCode.Builder.Finish

namespace ManagedCode.Builder

/-! Instruction sequences that bodies often need. -/

/-- The instructions that load the zero of a type, unless it is a struct. -/
def zeroOf (t : Ty) : List Instruction :=
  match (t.underlying?.getD t).primitive? with
  | some .int64 | some .uint64 => [.ldcI8 0]
  | some .single => [.ldcR4 .zero]
  | some .double => [.ldcR8 .zero]
  | some .intPtr => [.ldcI4 0, .conv .i]
  | some .uintPtr => [.ldcI4 0, .conv .u]
  | some _ => [.ldcI4 0]
  | none => [.ldnull]

def hasZero (t : Ty) : Bool :=
  (t.underlying?.getD t).primitive?.isSome || !t.isValueType

/-- A local that no constant fits is cleared through its address. -/
def zeroLocal (index : UInt16) : Emit Unit := do
  match (← get).locals[index.toNat]? with
  | none =>
    throw (.rejected (.zeroLocal index.toNat) (.operand (.undeclaredLocal index.toNat)))
  | some t =>
    if hasZero t then
      for i in zeroOf t do
        push i
      push (.stloc index)
    else
      push (.ldloca index)
      push (.initobj t)

/-- A virtual call also rejects a null receiver. -/
def callMethod (m : Method) : Emit Unit :=
  push (if m.isStatic || m.declaring.isValueType then .call m else .callvirt m none)

/-! A sequence is its instructions one after the other. -/

def pushAll : List Instruction → Emit Unit
  | [] => pure ()
  | i :: rest => do
    push i
    pushAll rest

theorem pushAll_singleton (i : Instruction) : pushAll [i] = push i :=
  bind_pure_unit

theorem forIn_push (instructions : List Instruction) :
    (forIn instructions PUnit.unit fun i _ => do
      push i
      pure (ForInStep.yield PUnit.unit) : Emit PUnit) = pushAll instructions := by
  induction instructions with
  | nil => rfl
  | cons i rest ih =>
      rw [List.forIn_cons, pushAll, ← ih, bind_assoc]
      rfl

theorem pushAll_append (instructions more : List Instruction) :
    pushAll (instructions ++ more) = (do pushAll instructions; pushAll more) := by
  induction instructions with
  | nil => rfl
  | cons i rest ih =>
      rw [List.cons_append, pushAll, pushAll, ih, bind_assoc]

/-- The instructions that clear a local. -/
def clearing (t : Ty) (index : UInt16) : List Instruction :=
  if hasZero t then zeroOf t ++ [.stloc index] else [.ldloca index, .initobj t]

theorem zeroLocal_eq (index : UInt16) :
    zeroLocal index = (do
      match (← get).locals[index.toNat]? with
      | none =>
        throw (.rejected (.zeroLocal index.toNat) (.operand (.undeclaredLocal index.toNat)))
      | some t => pushAll (clearing t index)) := by
  unfold zeroLocal
  congr 1
  funext b
  cases b.locals[index.toNat]? with
  | none => rfl
  | some t =>
      simp only [clearing]
      split
      · rw [forIn_push, pushAll_append, pushAll_singleton]
      · rw [pushAll, pushAll_singleton]

end ManagedCode.Builder
