import ManagedCode.Decimal.Binary
import ManagedCode.Member
import ManagedCode.Operation

namespace ManagedCode

/-! The instructions that go on to the next one. Short encodings do not show up: they are merged
into the general form. -/

/-- The two-operand operators. -/
inductive BinaryOp where
  | add
  | sub
  | mul
  | div
  | divUn
  | rem
  | remUn
  | and
  | or
  | xor
  | shl
  | shr
  | shrUn
  | addOvf
  | addOvfUn
  | subOvf
  | subOvfUn
  | mulOvf
  | mulOvfUn
  | ceq
  | cgt
  | cgtUn
  | clt
  | cltUn
  deriving DecidableEq

namespace BinaryOp

def operation : BinaryOp → Operation
  | add => .add
  | sub => .subtract
  | mul | div | rem => .multiplicative
  | divUn | remUn | and | or | xor => .integer
  | addOvf | addOvfUn | subOvf | subOvfUn | mulOvf | mulOvfUn => .integer
  | shl | shr | shrUn => .shift
  | ceq => .compareEqual
  | cgt | clt | cltUn => .compareOrdered
  | cgtUn => .compareUnsigned

def mnemonic : BinaryOp → String
  | add => "add"
  | sub => "sub"
  | mul => "mul"
  | div => "div"
  | divUn => "div.un"
  | rem => "rem"
  | remUn => "rem.un"
  | and => "and"
  | or => "or"
  | xor => "xor"
  | shl => "shl"
  | shr => "shr"
  | shrUn => "shr.un"
  | addOvf => "add.ovf"
  | addOvfUn => "add.ovf.un"
  | subOvf => "sub.ovf"
  | subOvfUn => "sub.ovf.un"
  | mulOvf => "mul.ovf"
  | mulOvfUn => "mul.ovf.un"
  | ceq => "ceq"
  | cgt => "cgt"
  | cgtUn => "cgt.un"
  | clt => "clt"
  | cltUn => "clt.un"

def all : List BinaryOp :=
  [add, sub, mul, div, divUn, rem, remUn, and, or, xor, shl, shr, shrUn, addOvf, addOvfUn, subOvf,
    subOvfUn, mulOvf, mulOvfUn, ceq, cgt, cgtUn, clt, cltUn]

theorem mem_all (op : BinaryOp) : op ∈ all := by
  cases op <;> decide

end BinaryOp

/-- What a conversion makes of a value. -/
inductive Conversion where
  | i1
  | i2
  | i4
  | i8
  | u1
  | u2
  | u4
  | u8
  | i
  | u
  | r4
  | r8
  /-- From an unsigned integer to floating point. -/
  | rUn
  deriving DecidableEq

namespace Conversion

def target : Conversion → Primitive
  | i1 => .sbyte
  | i2 => .int16
  | i4 => .int32
  | i8 => .int64
  | u1 => .byte
  | u2 => .uint16
  | u4 => .uint32
  | u8 => .uint64
  | i => .intPtr
  | u => .uintPtr
  | r4 => .single
  | r8 | rUn => .double

def isFloating : Conversion → Bool
  | r4 | r8 | rUn => true
  | _ => false

def text : Conversion → String
  | i1 => "i1"
  | i2 => "i2"
  | i4 => "i4"
  | i8 => "i8"
  | u1 => "u1"
  | u2 => "u2"
  | u4 => "u4"
  | u8 => "u8"
  | i => "i"
  | u => "u"
  | r4 => "r4"
  | r8 => "r8"
  | rUn => "r.un"

def all : List Conversion := [i1, i2, i4, i8, u1, u2, u4, u8, i, u, r4, r8, rUn]

theorem mem_all (c : Conversion) : c ∈ all := by
  cases c <;> decide

end Conversion

/-- What `ldtoken` loads a handle of. -/
inductive Token where
  | type (t : Ty)
  | method (m : Method)
  | field (f : Field)

/-- What a function pointer is called with. -/
structure CallSite where
  parameters : List Ty
  result : Option Ty
  /-- Does the callee take a receiver in front of the parameters? -/
  hasThis : Bool

inductive Instruction where
  | nop
  | break
  | ldarg (index : UInt16)
  | ldarga (index : UInt16)
  | starg (index : UInt16)
  | ldloc (index : UInt16)
  | ldloca (index : UInt16)
  | stloc (index : UInt16)
  | ldnull
  | ldcI4 (value : Int32)
  | ldcI8 (value : Int64)
  | ldcR4 (value : Decimal.Binary)
  | ldcR8 (value : Decimal.Binary)
  | ldstr (value : String)
  | dup
  | pop
  | binary (op : BinaryOp)
  | neg
  | not
  | conv (target : Conversion)
  | convOvf (target : Conversion)
  | convOvfUn (target : Conversion)
  | ckfinite
  | call (method : Method)
  /-- The second type is that of a `constrained.` in front. -/
  | callvirt (method : Method) (constrained : Option Ty)
  | calli (site : CallSite)
  | newobj (constructor : Method)
  | ldftn (method : Method)
  | ldvirtftn (method : Method)
  | ldind (type : Ty)
  | stind (type : Ty)
  | ldobj (type : Ty)
  | stobj (type : Ty)
  | cpobj (type : Ty)
  | initobj (type : Ty)
  | box (type : Ty)
  | unbox (type : Ty)
  | unboxAny (type : Ty)
  | castclass (type : Ty)
  | isinst (type : Ty)
  | ldfld (field : Field)
  | ldflda (field : Field)
  | stfld (field : Field)
  | ldsfld (field : Field)
  | ldsflda (field : Field)
  | stsfld (field : Field)
  | newarr (element : Ty)
  | ldlen
  | ldelema (type : Ty)
  | ldelem (type : Ty)
  | stelem (type : Ty)
  | ldelemRef
  | stelemRef
  | ldtoken (token : Token)
  | sizeof (type : Ty)
  | localloc
  | initblk
  | cpblk

namespace Instruction

/-- How many values come off the stack. -/
def pops : Instruction → Nat
  | nop | .break | ldarg _ | ldarga _ | ldloc _ | ldloca _ | ldnull | ldcI4 _ | ldcI8 _ | ldcR4 _
  | ldcR8 _ | ldstr _ | ldftn _ | ldsfld _ | ldsflda _ | ldtoken _ | sizeof _ => 0
  | starg _ | stloc _ | dup | pop | neg | not | conv _ | convOvf _ | convOvfUn _ | ckfinite
  | ldvirtftn _ | ldind _ | ldobj _ | initobj _ | box _ | unbox _ | unboxAny _ | castclass _
  | isinst _ | ldfld _ | ldflda _ | stsfld _ | newarr _ | ldlen | localloc => 1
  | binary _ | stind _ | stobj _ | cpobj _ | stfld _ | ldelema _ | ldelem _ | ldelemRef => 2
  | stelem _ | stelemRef | initblk | cpblk => 3
  | call m | callvirt m _ => m.parameters.length + if m.isStatic then 0 else 1
  | calli site => site.parameters.length + (if site.hasThis then 1 else 0) + 1
  | newobj constructor => constructor.parameters.length

/-- How many values go onto the stack. -/
def pushes : Instruction → Nat
  | nop | .break | starg _ | stloc _ | pop | stind _ | stobj _ | cpobj _ | initobj _ | stfld _
  | stsfld _ | stelem _ | stelemRef | initblk | cpblk => 0
  | dup => 2
  | call m | callvirt m _ => if m.result.isSome then 1 else 0
  | calli site => if site.result.isSome then 1 else 0
  | _ => 1

end Instruction

end ManagedCode
