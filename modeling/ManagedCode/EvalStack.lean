import ManagedCode.StackType.Flow

namespace ManagedCode

/-! The evaluation stack as far as it is known before a body runs. -/

/-- A value and its identity, which `dup` shares between the copies. -/
structure StackEntry where
  identity : Nat
  type : StackType
  deriving DecidableEq

structure EvalStack where
  /-- From the top down. -/
  entries : List StackEntry
  /-- Not yet given to any value. -/
  nextIdentity : Nat
  deriving DecidableEq

namespace EvalStack

def empty : EvalStack := ⟨[], 0⟩

def depth (s : EvalStack) : Nat := s.entries.length

def isEmpty (s : EvalStack) : Bool := s.entries.isEmpty

/-- A value seen for the first time. -/
def push (s : EvalStack) (t : StackType) : EvalStack :=
  ⟨⟨s.nextIdentity, t⟩ :: s.entries, s.nextIdentity + 1⟩

/-- One more copy of a value. -/
def pushEntry (s : EvalStack) (e : StackEntry) : EvalStack :=
  { s with entries := e :: s.entries }

def pop? (s : EvalStack) : Option (StackEntry × EvalStack) :=
  match s.entries with
  | [] => none
  | e :: rest => some (e, { s with entries := rest })

def peek? (s : EvalStack) : Option StackType := s.entries.head?.map StackEntry.type

def clear (s : EvalStack) : EvalStack := { s with entries := [] }

def shape (s : EvalStack) : Shape := s.entries.map StackEntry.type

/-- Distinct values of the given types. -/
def ofShape : Shape → EvalStack
  | [] => empty
  | t :: rest => (ofShape rest).push t

/-- The shape with null in place of every copy of one value. -/
def narrowedShape (s : EvalStack) (identity : Nat) : Shape :=
  s.entries.map fun e => if e.identity = identity then .zero else e.type

/-- The top value under another type. -/
def retypeTop (s : EvalStack) (t : StackType) : EvalStack :=
  match s.entries with
  | [] => s
  | e :: rest => { s with entries := { e with type := t } :: rest }

@[simp] theorem shape_empty : empty.shape = [] := rfl

@[simp] theorem shape_push (s : EvalStack) (t : StackType) : (s.push t).shape = t :: s.shape := rfl

@[simp] theorem shape_pushEntry (s : EvalStack) (e : StackEntry) :
    (s.pushEntry e).shape = e.type :: s.shape := rfl

@[simp] theorem shape_clear (s : EvalStack) : s.clear.shape = [] := rfl

@[simp] theorem length_shape (s : EvalStack) : s.shape.length = s.depth := by
  simp [shape, depth]

@[simp] theorem shape_ofShape (shape : Shape) : (ofShape shape).shape = shape := by
  induction shape with
  | nil => rfl
  | cons t rest ih => simp [ofShape, ih]

@[simp] theorem nextIdentity_ofShape (shape : Shape) :
    (ofShape shape).nextIdentity = shape.length := by
  induction shape with
  | nil => rfl
  | cons t rest ih => simp [ofShape, push, ih]

end EvalStack

end ManagedCode
