import ManagedCode.Verify.Step

namespace ManagedCode

/-! What instructions are checked against besides the stack. -/

structure Settings where
  /-- After `brtrue` and `brfalse` the target sees the tested value as the null literal. -/
  narrowTested : Bool := true
  /-- Native integers count as addresses, and `localloc` is allowed. -/
  allowUnverifiable : Bool := true
  /-- Control may not fall off the end of a body. -/
  requireTerminated : Bool := true
  deriving DecidableEq

def Settings.strict : Settings := { allowUnverifiable := false }

/-- The innermost part of an exception block around an instruction. -/
inductive Region where
  | tryBlock
  | catchBlock
  | finallyBlock
  deriving DecidableEq

/-- The types of the `System` namespace that checks ask for and instructions push, such as
`Ty.exception` and `Ty.int32`, are taken to be the library's own, and not types of other origin that
have their names in the graph. -/
structure Context where
  graph : Graph
  /-- The receiver, if there is one, and the parameters. -/
  arguments : Array Ty
  locals : Array Ty
  result : Option Ty
  region : Option Region
  settings : Settings

namespace Context

def argument (c : Context) (index : UInt16) : Step Ty :=
  match c.arguments[index.toNat]? with
  | some t => pure t
  | none => throw (.operand (.noArgument index.toNat c.arguments.size))

def localType (c : Context) (index : UInt16) : Step Ty :=
  match c.locals[index.toNat]? with
  | some t => pure t
  | none => throw (.operand (.noLocal index.toNat c.locals.size))

def requireUnverifiable (c : Context) (mnemonic : String) : Step Unit :=
  Step.check c.settings.allowUnverifiable (.operand (.unverifiable mnemonic))

end Context

end ManagedCode
