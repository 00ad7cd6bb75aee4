import ManagedCode.Graph.Basic
import ManagedCode.Ty.Library

namespace ManagedCode.Graph

/-! The part of the `System` namespace that every body may count on. -/

/-- What is built so far decides what a declaration stands for. -/
abbrev Build := StateM Graph

namespace Build

def type (t : Ty) : Build Ty := modifyGet (·.declare t)

def implement (t interface : Ty) : Build Unit := modify (·.addInterface t interface)

def method (m : Method) : Build Unit := modify fun g => (g.addMethod m).2

def field (f : Field) : Build Unit := modify fun g => (g.addField f).2

def instanceMethod (declaring : Ty) (name : MemberName) (parameters : List Ty) (result : Option Ty)
    (attributes : MethodAttributes) : Build Unit :=
  method ⟨declaring, name, ⟨parameters, result⟩,
    (MethodAttributes.publicBit.union .hideBySigBit).union attributes⟩

def staticMethod (declaring : Ty) (name : MemberName) (parameters : List Ty)
    (result : Option Ty) : Build Unit :=
  instanceMethod declaring name parameters result .staticBit

def subclass (name : TypeName) (base : Ty) (attributes : TypeAttributes) : Build Ty :=
  type (.subclass name base attributes)

end Build

open Build

def buildLibrary : Build Unit := do
  let root ← type .object
  let valueType ← subclass .valueType root .abstractBit
  let enumBase ← subclass .enumBase valueType .abstractBit
  let string ← subclass .string root .sealedBit
  let arrayBase ← subclass .arrayBase root .abstractBit
  let _ ← subclass .type root .abstractBit
  let exception ← subclass .exception root .none
  let systemException ← subclass .systemException exception .none
  let _ ← subclass .invalidOperation systemException .none
  let _ ← subclass .badArgument systemException .none
  let _ ← subclass .nullReference systemException .none
  let boolean ← type (.primitive .boolean valueType)
  let char ← type (.primitive .char valueType)
  let sbyte ← type (.primitive .sbyte valueType)
  let byte ← type (.primitive .byte valueType)
  let int16 ← type (.primitive .int16 valueType)
  let uint16 ← type (.primitive .uint16 valueType)
  let int32 ← type (.primitive .int32 valueType)
  let uint32 ← type (.primitive .uint32 valueType)
  let int64 ← type (.primitive .int64 valueType)
  let uint64 ← type (.primitive .uint64 valueType)
  let _ ← type (.primitive .intPtr valueType)
  let _ ← type (.primitive .uintPtr valueType)
  let single ← type (.primitive .single valueType)
  let double ← type (.primitive .double valueType)
  let _ ← type (.struct .typeHandle valueType)
  let _ ← type (.struct .methodHandle valueType)
  let _ ← type (.struct .fieldHandle valueType)
  let comparable ← type (.interface .comparable)
  let convertible ← type (.interface .convertible)
  let disposable ← type (.interface .disposable)
  let cloneable ← type (.interface .cloneable)
  let enumerable ← type (.interface .enumerable)
  for interface in [comparable, convertible, cloneable, enumerable] do
    implement string interface
  for interface in [cloneable, enumerable] do
    implement arrayBase interface
  for t in [enumBase, boolean, char, sbyte, byte, int16, uint16, int32, uint32, int64, uint64,
      single, double] do
    implement t comparable
    implement t convertible
  method (.constructor root [])
  instanceMethod root .toString [] string .virtualBit
  instanceMethod root .equals [root] boolean .virtualBit
  instanceMethod root .getHashCode [] int32 .virtualBit
  staticMethod string .concat [string, string] string
  instanceMethod string .getLength [] int32 .specialNameBit
  field ⟨string, .empty, string,
    (FieldAttributes.publicBit.union .staticBit).union .initOnlyBit⟩
  method (.constructor exception [])
  method (.constructor exception [string])
  instanceMethod exception .getMessage [] string
    (MethodAttributes.virtualBit.union .specialNameBit)
  staticMethod int32 .parse [string] int32
  instanceMethod int32 .compareTo [int32] int32 .finalBit
  instanceMethod disposable .dispose [] none
    ((MethodAttributes.virtualBit.union .abstractBit).union .newSlotBit)

/-- The graph with the library added to it. -/
def insertLibrary (g : Graph) : Graph := (buildLibrary.run g).2

/-- The graph of the library alone. -/
def library : Graph := empty.insertLibrary

end ManagedCode.Graph
