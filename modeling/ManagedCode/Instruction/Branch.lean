import ManagedCode.Instruction.Basic

namespace ManagedCode

/-! The instructions that may go somewhere else than to the next one. -/

/-- A label is its place in the order in which a body's labels were defined. -/
abbrev Label := Nat

/-- The conditions of the branches that compare two values. -/
inductive Comparison where
  | eq
  | neUn
  | ge
  | geUn
  | gt
  | gtUn
  | le
  | leUn
  | lt
  | ltUn
  deriving DecidableEq

namespace Comparison

def mnemonic : Comparison → String
  | eq => "beq"
  | neUn => "bne.un"
  | ge => "bge"
  | geUn => "bge.un"
  | gt => "bgt"
  | gtUn => "bgt.un"
  | le => "ble"
  | leUn => "ble.un"
  | lt => "blt"
  | ltUn => "blt.un"

def operation : Comparison → Operation
  | eq | neUn => .compareEqual
  | gtUn => .compareUnsigned
  | ge | geUn | gt | le | leUn | lt | ltUn => .compareOrdered

def all : List Comparison := [eq, neUn, ge, geUn, gt, gtUn, le, leUn, lt, ltUn]

theorem mem_all (c : Comparison) : c ∈ all := by
  cases c <;> decide

end Comparison

inductive Branch where
  | br (target : Label)
  | brfalse (target : Label)
  | brtrue (target : Label)
  | compare (comparison : Comparison) (target : Label)
  | switch (targets : List Label)
  /-- Leaves a protected region or a handler, and the stack behind. -/
  | leave (target : Label)
  | ret
  | throw
  | rethrow
  | endfinally
  | jmp (method : Method)

namespace Branch

/-- May the next instruction follow? -/
def fallsThrough : Branch → Bool
  | brfalse _ | brtrue _ | compare _ _ | switch _ => true
  | br _ | leave _ | ret | .throw | rethrow | endfinally | jmp _ => false

def targets : Branch → List Label
  | br l | brfalse l | brtrue l | compare _ l | leave l => [l]
  | switch ls => ls
  | ret | .throw | rethrow | endfinally | jmp _ => []

end Branch

end ManagedCode
