import ManagedCode.Ty.Basic

namespace ManagedCode

/-! The types of the `System` namespace that instructions themselves refer to, and the names of the
others that the library holds. -/

namespace TypeName

def valueType : TypeName := ⟨"System.ValueType", by decide⟩
def enumBase : TypeName := ⟨"System.Enum", by decide⟩
def string : TypeName := ⟨"System.String", by decide⟩
def arrayBase : TypeName := ⟨"System.Array", by decide⟩
def type : TypeName := ⟨"System.Type", by decide⟩
def exception : TypeName := ⟨"System.Exception", by decide⟩
def systemException : TypeName := ⟨"System.SystemException", by decide⟩
def invalidOperation : TypeName := ⟨"System.InvalidOperationException", by decide⟩
def badArgument : TypeName := ⟨"System.ArgumentException", by decide⟩
def nullReference : TypeName := ⟨"System.NullReferenceException", by decide⟩
def typeHandle : TypeName := ⟨"System.RuntimeTypeHandle", by decide⟩
def methodHandle : TypeName := ⟨"System.RuntimeMethodHandle", by decide⟩
def fieldHandle : TypeName := ⟨"System.RuntimeFieldHandle", by decide⟩
def comparable : TypeName := ⟨"System.IComparable", by decide⟩
def convertible : TypeName := ⟨"System.IConvertible", by decide⟩
def disposable : TypeName := ⟨"System.IDisposable", by decide⟩
def cloneable : TypeName := ⟨"System.ICloneable", by decide⟩
def enumerable : TypeName := ⟨"System.Collections.IEnumerable", by decide⟩

end TypeName

namespace MemberName

def toString : MemberName := ⟨"ToString", by decide⟩
def equals : MemberName := ⟨"Equals", by decide⟩
def getHashCode : MemberName := ⟨"GetHashCode", by decide⟩
def concat : MemberName := ⟨"Concat", by decide⟩
def getLength : MemberName := ⟨"get_Length", by decide⟩
def empty : MemberName := ⟨"Empty", by decide⟩
def getMessage : MemberName := ⟨"get_Message", by decide⟩
def parse : MemberName := ⟨"Parse", by decide⟩
def compareTo : MemberName := ⟨"CompareTo", by decide⟩
def dispose : MemberName := ⟨"Dispose", by decide⟩

end MemberName

namespace Ty

def valueType : Ty := .subclass .valueType .object .abstractBit
def enumBase : Ty := .subclass .enumBase valueType .abstractBit
def string : Ty := .subclass .string .object .sealedBit
def arrayBase : Ty := .subclass .arrayBase .object .abstractBit
def exception : Ty := .subclass .exception .object .none

def ofPrimitive (kind : Primitive) : Ty := .primitive kind valueType

def boolean : Ty := ofPrimitive .boolean
def char : Ty := ofPrimitive .char
def sbyte : Ty := ofPrimitive .sbyte
def byte : Ty := ofPrimitive .byte
def int16 : Ty := ofPrimitive .int16
def uint16 : Ty := ofPrimitive .uint16
def int32 : Ty := ofPrimitive .int32
def uint32 : Ty := ofPrimitive .uint32
def int64 : Ty := ofPrimitive .int64
def uint64 : Ty := ofPrimitive .uint64
def intPtr : Ty := ofPrimitive .intPtr
def uintPtr : Ty := ofPrimitive .uintPtr
def single : Ty := ofPrimitive .single
def double : Ty := ofPrimitive .double

def typeHandle : Ty := .struct .typeHandle valueType
def methodHandle : Ty := .struct .methodHandle valueType
def fieldHandle : Ty := .struct .fieldHandle valueType

/-- The array type wherever the base class of arrays is the library's. -/
def arrayOf (element : Ty) : Ty := .array element arrayBase

end Ty

end ManagedCode
