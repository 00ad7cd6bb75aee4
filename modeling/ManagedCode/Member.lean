import ManagedCode.Ty.Category

namespace ManagedCode

/-! Methods and fields. Like a type, a member is its whole description. -/

/-- The parameters, without the receiver, and the result, if there is one. -/
structure Signature where
  parameters : List Ty
  result : Option Ty
  deriving DecidableEq

def Ty.listText (types : List Ty) : String :=
  String.intercalate ", " (types.map Ty.name)

/-- The name of a result type. -/
def Ty.resultText (result : Option Ty) : String :=
  (result.map Ty.name).getD "void"

def Signature.text (s : Signature) : String :=
  "(" ++ Ty.listText s.parameters ++ ") : " ++ Ty.resultText s.result

structure Method where
  declaring : Ty
  name : MemberName
  signature : Signature
  attributes : MethodAttributes
  deriving DecidableEq

namespace Method

/-- The constructor of instances with the given parameters. -/
def constructor (declaring : Ty) (parameters : List Ty) : Method where
  declaring := declaring
  name := .constructor
  signature := ⟨parameters, none⟩
  attributes :=
    ((MethodAttributes.publicBit.union .hideBySigBit).union .specialNameBit).union
      .runtimeSpecialNameBit

def isStatic (m : Method) : Bool := m.attributes.includes .staticBit

def isVirtual (m : Method) : Bool := m.attributes.includes .virtualBit

def isAbstract (m : Method) : Bool := m.attributes.includes .abstractBit

def isConstructor (m : Method) : Bool := m.name = .constructor && !m.isStatic

def parameters (m : Method) : List Ty := m.signature.parameters

def result (m : Method) : Option Ty := m.signature.result

/-- Inside a value type the receiver is a by-ref. -/
def receiver (m : Method) : Ty :=
  if m.declaring.isValueType then .byRef m.declaring else m.declaring

/-- The parameters behind the receiver, if there is one. -/
def arguments (m : Method) : List Ty :=
  if m.isStatic then m.parameters else m.receiver :: m.parameters

def text (m : Method) : String :=
  m.declaring.name ++ "::" ++ m.name.text ++ m.signature.text

/-- Methods of one type that differ neither in name nor in signature. -/
def agrees (m n : Method) : Bool :=
  m.declaring = n.declaring && m.name = n.name && m.signature = n.signature

/-- A type declares one method of a name and a signature for its instances, and one for itself. -/
def clashes (m n : Method) : Bool :=
  m.name = n.name && m.signature = n.signature && m.isStatic = n.isStatic

end Method

structure Field where
  declaring : Ty
  name : MemberName
  type : Ty
  attributes : FieldAttributes
  deriving DecidableEq

namespace Field

def isStatic (f : Field) : Bool := f.attributes.includes .staticBit

def text (f : Field) : String :=
  f.declaring.name ++ "::" ++ f.name.text ++ " : " ++ f.type.name

/-- Fields of one type that have the same name. -/
def agrees (f g : Field) : Bool :=
  f.declaring = g.declaring && f.name = g.name

end Field

end ManagedCode
