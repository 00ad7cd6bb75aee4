import ManagedCode.Instruction.Text
import ManagedCode.Text.Scan

namespace ManagedCode.Source

/-! The operation codes that stand for a whole instruction. -/

open Text

def plainOpcodes : List (String × Instruction) :=
  [("nop", .nop), ("break", .break), ("ldnull", .ldnull), ("dup", .dup), ("pop", .pop),
    ("neg", .neg), ("not", .not), ("ckfinite", .ckfinite), ("ldlen", .ldlen),
    ("ldelem.ref", .ldelemRef), ("stelem.ref", .stelemRef), ("localloc", .localloc),
    ("initblk", .initblk), ("cpblk", .cpblk), ("ldc.i4.m1", .ldcI4 (-1))] ++
  BinaryOp.all.map fun op => (op.mnemonic, .binary op)

/-- The conversions that come with and without a check. -/
def conversionOf? (text : List Char) : Option Conversion :=
  Conversion.all.find? fun c => c ≠ .rUn && c.text.toList = text

def conversionOpcode? (opcode : List Char) : Option Instruction :=
  if opcode = "conv.r.un".toList then some (.conv .rUn)
  else
    match after? "conv.ovf.".toList opcode with
    | some rest =>
      match before? ".un".toList rest with
      | some target => (conversionOf? target).map .convOvfUn
      | none => (conversionOf? rest).map .convOvf
    | none => ((after? "conv.".toList opcode).bind conversionOf?).map .conv

/-- A small number in the place of an operand. -/
def numberedOpcode? (stem : String) (n : Nat) : Option Instruction :=
  match stem with
  | "ldarg" => if n ≤ 3 then some (.ldarg (.ofNat n)) else none
  | "ldloc" => if n ≤ 3 then some (.ldloc (.ofNat n)) else none
  | "stloc" => if n ≤ 3 then some (.stloc (.ofNat n)) else none
  | "ldc.i4" => if n ≤ 8 then some (.ldcI4 (.ofNat n)) else none
  | _ => none

def typeSuffixes : List (String × Ty) :=
  [("i1", .sbyte), ("u1", .byte), ("i2", .int16), ("u2", .uint16), ("i4", .int32), ("u4", .uint32),
    ("i8", .int64), ("u8", .uint64), ("i", .intPtr), ("r4", .single), ("r8", .double),
    ("ref", .object)]

/-- A type in the place of an operand. -/
def typedOpcode? (stem : String) (t : Ty) : Option Instruction :=
  match stem with
  | "ldind" => some (.ldind t)
  | "stind" => some (.stind t)
  | "ldelem" => some (.ldelem t)
  | "stelem" => some (.stelem t)
  | _ => none

def suffixedOpcode? (opcode : List Char) : Option Instruction := do
  let (stem, suffix) ← cutLast? (· == '.') opcode
  match readNatBelow? 256 suffix with
  | some n => numberedOpcode? (String.ofList stem) n
  | none => typedOpcode? (String.ofList stem) (← typeSuffixes.lookup (String.ofList suffix))

/-- The instruction of an operation code that takes no operand. -/
def opcodeInstruction? (opcode : String) : Option Instruction :=
  (plainOpcodes.lookup opcode).or <|
    (conversionOpcode? opcode.toList).or (suffixedOpcode? opcode.toList)

end ManagedCode.Source
