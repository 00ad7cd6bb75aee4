namespace ManagedCode

/-! Attribute bits as ECMA-335 II.23.1 assigns them. Only the bits below are kept. -/

structure TypeAttributes where
  bits : UInt32
  deriving DecidableEq

namespace TypeAttributes

def none : TypeAttributes := ⟨0⟩
def publicBit : TypeAttributes := ⟨0x1⟩
def interfaceBit : TypeAttributes := ⟨0x20⟩
def abstractBit : TypeAttributes := ⟨0x80⟩
def sealedBit : TypeAttributes := ⟨0x100⟩

def ofBits (bits : UInt32) : TypeAttributes := ⟨bits &&& 0x1A1⟩

def union (a b : TypeAttributes) : TypeAttributes := ⟨a.bits ||| b.bits⟩

def includes (a b : TypeAttributes) : Bool := a.bits &&& b.bits == b.bits

end TypeAttributes

structure MethodAttributes where
  bits : UInt16
  deriving DecidableEq

namespace MethodAttributes

def publicBit : MethodAttributes := ⟨0x6⟩
def staticBit : MethodAttributes := ⟨0x10⟩
def finalBit : MethodAttributes := ⟨0x20⟩
def virtualBit : MethodAttributes := ⟨0x40⟩
def hideBySigBit : MethodAttributes := ⟨0x80⟩
def newSlotBit : MethodAttributes := ⟨0x100⟩
def abstractBit : MethodAttributes := ⟨0x400⟩
def specialNameBit : MethodAttributes := ⟨0x800⟩
def runtimeSpecialNameBit : MethodAttributes := ⟨0x1000⟩

def ofBits (bits : UInt16) : MethodAttributes := ⟨bits &&& 0x1DF7⟩

def union (a b : MethodAttributes) : MethodAttributes := ⟨a.bits ||| b.bits⟩

def includes (a b : MethodAttributes) : Bool := a.bits &&& b.bits == b.bits

end MethodAttributes

structure FieldAttributes where
  bits : UInt16
  deriving DecidableEq

namespace FieldAttributes

def publicBit : FieldAttributes := ⟨0x6⟩
def staticBit : FieldAttributes := ⟨0x10⟩
def initOnlyBit : FieldAttributes := ⟨0x20⟩

def ofBits (bits : UInt16) : FieldAttributes := ⟨bits &&& 0x77⟩

def union (a b : FieldAttributes) : FieldAttributes := ⟨a.bits ||| b.bits⟩

def includes (a b : FieldAttributes) : Bool := a.bits &&& b.bits == b.bits

end FieldAttributes

end ManagedCode
