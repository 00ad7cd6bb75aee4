import ManagedCode.Decimal.Text
import ManagedCode.Instruction.Branch
import ManagedCode.Text.Printable

namespace ManagedCode

/-! How instructions are written in a listing. -/

/-- The ending that `ldind` and `stind` have for a type. -/
def Ty.indirectSuffix? (t : Ty) : Option String :=
  if t.isReference then some "ref"
  else
    t.primitive?.map fun
      | .sbyte | .boolean => "i1"
      | .byte => "u1"
      | .int16 => "i2"
      | .uint16 | .char => "u2"
      | .int32 => "i4"
      | .uint32 => "u4"
      | .int64 | .uint64 => "i8"
      | .intPtr | .uintPtr => "i"
      | .single => "r4"
      | .double => "r8"

def Token.text : Token → String
  | .type t => t.name
  | .method m => "method " ++ m.text
  | .field f => "field " ++ f.text

def CallSite.text (s : CallSite) : String :=
  (if s.hasThis then "instance " else "") ++ Ty.resultText s.result ++
    "(" ++ Ty.listText s.parameters ++ ")"

namespace Instruction

/-- An indirect access without an ending of its own is written as an object access. -/
def indirectText (mnemonic objectMnemonic : String) (t : Ty) : String :=
  match t.indirectSuffix? with
  | some suffix => mnemonic ++ "." ++ suffix
  | none => objectMnemonic ++ " " ++ t.name

def text : Instruction → String
  | nop => "nop"
  | .break => "break"
  | ldarg i => "ldarg " ++ toString i.toNat
  | ldarga i => "ldarga " ++ toString i.toNat
  | starg i => "starg " ++ toString i.toNat
  | ldloc i => "ldloc " ++ toString i.toNat
  | ldloca i => "ldloca " ++ toString i.toNat
  | stloc i => "stloc " ++ toString i.toNat
  | ldnull => "ldnull"
  | ldcI4 v => "ldc.i4 " ++ toString v.toInt
  | ldcI8 v => "ldc.i8 " ++ toString v.toInt
  | ldcR4 v => "ldc.r4 " ++ Decimal.Format.single.write v
  | ldcR8 v => "ldc.r8 " ++ Decimal.Format.double.write v
  | ldstr v => "ldstr " ++ Text.quote v
  | dup => "dup"
  | pop => "pop"
  | binary op => op.mnemonic
  | neg => "neg"
  | not => "not"
  | conv c => "conv." ++ c.text
  | convOvf c => "conv.ovf." ++ c.text
  | convOvfUn c => "conv.ovf." ++ c.text ++ ".un"
  | ckfinite => "ckfinite"
  | call m => "call " ++ m.text
  | callvirt m none => "callvirt " ++ m.text
  | callvirt m (some t) => "constrained. " ++ t.name ++ " callvirt " ++ m.text
  | calli s => "calli " ++ s.text
  | newobj m => "newobj " ++ m.text
  | ldftn m => "ldftn " ++ m.text
  | ldvirtftn m => "ldvirtftn " ++ m.text
  | ldind t => indirectText "ldind" "ldobj" t
  | stind t => indirectText "stind" "stobj" t
  | ldobj t => "ldobj " ++ t.name
  | stobj t => "stobj " ++ t.name
  | cpobj t => "cpobj " ++ t.name
  | initobj t => "initobj " ++ t.name
  | box t => "box " ++ t.name
  | unbox t => "unbox " ++ t.name
  | unboxAny t => "unbox.any " ++ t.name
  | castclass t => "castclass " ++ t.name
  | isinst t => "isinst " ++ t.name
  | ldfld f => "ldfld " ++ f.text
  | ldflda f => "ldflda " ++ f.text
  | stfld f => "stfld " ++ f.text
  | ldsfld f => "ldsfld " ++ f.text
  | ldsflda f => "ldsflda " ++ f.text
  | stsfld f => "stsfld " ++ f.text
  | newarr t => "newarr " ++ t.name
  | ldlen => "ldlen"
  | ldelema t => "ldelema " ++ t.name
  | ldelem t => "ldelem " ++ t.name
  | stelem t => "stelem " ++ t.name
  | ldelemRef => "ldelem.ref"
  | stelemRef => "stelem.ref"
  | ldtoken token => "ldtoken " ++ token.text
  | sizeof t => "sizeof " ++ t.name
  | localloc => "localloc"
  | initblk => "initblk"
  | cpblk => "cpblk"

end Instruction

def Label.text (l : Label) : String := "l" ++ toString l

def Branch.text : Branch → String
  | br l => "br " ++ Label.text l
  | brfalse l => "brfalse " ++ Label.text l
  | brtrue l => "brtrue " ++ Label.text l
  | compare c l => c.mnemonic ++ " " ++ Label.text l
  | switch ls => "switch [" ++ String.intercalate ", " (ls.map Label.text) ++ "]"
  | leave l => "leave " ++ Label.text l
  | ret => "ret"
  | .throw => "throw"
  | rethrow => "rethrow"
  | endfinally => "endfinally"
  | jmp m => "jmp " ++ m.text

end ManagedCode
