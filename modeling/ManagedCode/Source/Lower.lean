import ManagedCode.Source.Opcode
import ManagedCode.Source.Resolve

namespace ManagedCode.Source

open Text

/-! String literals: text between double quotes, with escapes. -/

def unescape? : Char → Option Char
  | 'n' => some '\n'
  | 't' => some '\t'
  | 'r' => some '\r'
  | '0' => some '\x00'
  | '"' => some '"'
  | '\\' => some '\\'
  | _ => none

def decodeEscapes? : List Char → Option (List Char)
  | [] => some []
  | ['\\'] => none
  | '\\' :: c :: rest => do
    let d ← unescape? c
    return d :: (← decodeEscapes? rest)
  | c :: rest => do
    return c :: (← decodeEscapes? rest)

def decodeLiteral? (literal : List Char) : Option String := do
  let inner ← before? ['"'] (← after? ['"'] literal)
  return String.ofList (← decodeEscapes? inner)

/-! Instructions that are written with an operand. -/

/-- Inside of a line, where an operand may be missing. -/
def required (line : Nat) (opcode : String) (operand : Option String) : Resolve String :=
  Resolve.orFail line (.needsOperand opcode) operand

def number {α : Type} (line : Nat) (operand : String) (value : Option α) : Resolve α :=
  Resolve.orFail line (.badNumber operand) value

def slotOf (line : Nat) (operand : String) : Resolve UInt16 :=
  number line operand ((readNatBelow? UInt16.size operand.toList).map .ofNat)

/-- `constrained. TYPE callvirt METHOD`. -/
def lowerConstrained (line : Nat) (operand : String) : Resolve Instruction := do
  let (typeText, call) ← Resolve.orFail line .loneConstraint (cut? isBlank operand.toList)
  let reference ← Resolve.orFail line .loneConstraint (after? "callvirt".toList (trim call))
  let m ← resolveMethod line (String.ofList reference)
  return .callvirt m (some (← resolveType line (String.ofList typeText)))

def lowerToken (line : Nat) (operand : String) : Resolve Token := do
  match after? "method ".toList operand.toList with
  | some reference => .method <$> resolveMethod line (String.ofList reference)
  | none =>
    match after? "field ".toList operand.toList with
    | some reference => .field <$> resolveField line (String.ofList reference)
    | none => .type <$> resolveType line operand

def lowerOperand (line : Nat) (opcode operand : String) : Resolve Instruction :=
  match opcode with
  | "ldarg" | "ldarg.s" => .ldarg <$> slotOf line operand
  | "ldarga" | "ldarga.s" => .ldarga <$> slotOf line operand
  | "starg" | "starg.s" => .starg <$> slotOf line operand
  | "ldloc" | "ldloc.s" => .ldloc <$> slotOf line operand
  | "ldloca" | "ldloca.s" => .ldloca <$> slotOf line operand
  | "stloc" | "stloc.s" => .stloc <$> slotOf line operand
  | "ldc.i4" | "ldc.i4.s" =>
    (.ldcI4 <| .ofInt ·) <$> number line operand (readIntWithin? 0x80000000 operand.toList)
  | "ldc.i8" =>
    (.ldcI8 <| .ofInt ·) <$> number line operand (readIntWithin? 0x8000000000000000 operand.toList)
  | "ldc.r4" => .ldcR4 <$> number line operand (Decimal.Format.single.read? operand)
  | "ldc.r8" => .ldcR8 <$> number line operand (Decimal.Format.double.read? operand)
  | "ldstr" =>
    .ldstr <$> Resolve.orFail line (.badString operand) (decodeLiteral? operand.toList)
  | "call" => .call <$> resolveMethod line operand
  | "callvirt" => (.callvirt · none) <$> resolveMethod line operand
  | "constrained." => lowerConstrained line operand
  | "calli" => .calli <$> resolveCallSite line operand
  | "newobj" => .newobj <$> resolveMethod line operand
  | "ldftn" => .ldftn <$> resolveMethod line operand
  | "ldvirtftn" => .ldvirtftn <$> resolveMethod line operand
  | "ldobj" => .ldobj <$> resolveType line operand
  | "stobj" => .stobj <$> resolveType line operand
  | "cpobj" => .cpobj <$> resolveType line operand
  | "initobj" => .initobj <$> resolveType line operand
  | "box" => .box <$> resolveType line operand
  | "unbox" => .unbox <$> resolveType line operand
  | "unbox.any" => .unboxAny <$> resolveType line operand
  | "castclass" => .castclass <$> resolveType line operand
  | "isinst" => .isinst <$> resolveType line operand
  | "newarr" => .newarr <$> resolveType line operand
  | "ldelema" => .ldelema <$> resolveType line operand
  | "ldelem" => .ldelem <$> resolveType line operand
  | "stelem" => .stelem <$> resolveType line operand
  | "sizeof" => .sizeof <$> resolveType line operand
  | "ldfld" => .ldfld <$> resolveField line operand
  | "ldflda" => .ldflda <$> resolveField line operand
  | "stfld" => .stfld <$> resolveField line operand
  | "ldsfld" => .ldsfld <$> resolveField line operand
  | "ldsflda" => .ldsflda <$> resolveField line operand
  | "stsfld" => .stsfld <$> resolveField line operand
  | "ldtoken" => .ldtoken <$> lowerToken line operand
  | _ => Resolve.fail line (.unknownOpcode opcode)

def lowerInstruction (line : Nat) (opcode : String) (operand : Option String) :
    Resolve Instruction :=
  match opcodeInstruction? opcode with
  | some i =>
    if operand.isSome then Resolve.fail line (.takesNoOperand opcode) else pure i
  | none => do lowerOperand line opcode (← required line opcode operand)

theorem lowerInstruction_some {opcode : String} (h : (opcodeInstruction? opcode).isNone = true)
    (line : Nat) (operand : String) :
    lowerInstruction line opcode (some operand) = lowerOperand line opcode operand := by
  rw [lowerInstruction, Option.isNone_iff_eq_none.mp h]
  exact pure_bind operand _

end ManagedCode.Source
