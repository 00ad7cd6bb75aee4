import ManagedCode.Member

namespace ManagedCode

/-! The known types and what they declare, in the order in which they were added. -/

/-- The types that are made of one other type. -/
inductive Construct where
  | array
  | byRef
  | pointer
  deriving DecidableEq

structure Entry where
  type : Ty
  /-- Declared by the type itself; for an interface, those that it extends. -/
  interfaces : List Ty
  methods : List Method
  fields : List Field

def Entry.ofType (t : Ty) : Entry := ⟨t, [], [], []⟩

structure Graph where
  entries : List Entry

namespace Graph

def empty : Graph := ⟨[]⟩

def types (g : Graph) : List Ty := g.entries.map Entry.type

def lookup (g : Graph) (name : String) : Option Ty :=
  g.types.find? (·.name == name)

def entry? (g : Graph) (t : Ty) : Option Entry :=
  g.entries.find? (·.type = t)

def interfaces (g : Graph) (t : Ty) : List Ty :=
  ((g.entry? t).map Entry.interfaces).getD []

def methods (g : Graph) (t : Ty) : List Method :=
  ((g.entry? t).map Entry.methods).getD []

def fields (g : Graph) (t : Ty) : List Field :=
  ((g.entry? t).map Entry.fields).getD []

def update (g : Graph) (t : Ty) (change : Entry → Entry) : Graph :=
  ⟨g.entries.map fun e => if e.type = t then change e else e⟩

/-- Names are unique: a name that is taken stands for the type that has it. -/
def declare (g : Graph) (t : Ty) : Ty × Graph :=
  match g.lookup t.name with
  | some known => (known, g)
  | none => (t, ⟨g.entries ++ [.ofType t]⟩)

def addInterface (g : Graph) (t interface : Ty) : Graph :=
  if interface ∈ g.interfaces t then g
  else g.update t fun e => { e with interfaces := e.interfaces ++ [interface] }

/-- A method that clashes with a declared one stands for the declared one. -/
def addMethod (g : Graph) (m : Method) : Method × Graph :=
  match (g.methods m.declaring).find? m.clashes with
  | some known => (known, g)
  | none => (m, g.update m.declaring fun e => { e with methods := e.methods ++ [m] })

/-- A type declares one field of a name. -/
def addField (g : Graph) (f : Field) : Field × Graph :=
  match (g.fields f.declaring).find? (·.name = f.name) with
  | some known => (known, g)
  | none => (f, g.update f.declaring fun e => { e with fields := e.fields ++ [f] })

/-- Arrays derive from `System.Array` once that is known. -/
def arrayType (g : Graph) (element : Ty) : Ty :=
  match g.lookup Ty.arrayBase.name with
  | some base => .array element base
  | none => .bareArray element

def arrayOf (g : Graph) (element : Ty) : Ty × Graph :=
  g.declare (g.arrayType element)

def byRef (g : Graph) (referent : Ty) : Ty × Graph :=
  g.declare (.byRef referent)

def pointerTo (g : Graph) (referent : Ty) : Ty × Graph :=
  g.declare (.pointer referent)

def construct (g : Graph) : Construct → Ty → Ty × Graph
  | .array, t => g.arrayOf t
  | .byRef, t => g.byRef t
  | .pointer, t => g.pointerTo t

/-- Declared by the type itself. -/
def methodsNamed (g : Graph) (t : Ty) (name : String) : List Method :=
  (g.methods t).filter (·.name.text == name)

/-- The nearest type on the chain of base types that declares the field. -/
def findField (g : Graph) (t : Ty) (name : String) : Option Field :=
  t.ancestors.findSome? fun a => (g.fields a).find? (·.name.text == name)

end Graph

end ManagedCode
