import ManagedCode.Builder.Finish
import ManagedCode.Graph.Library
import ManagedCode.Source.Lower

namespace ManagedCode.Source

/-! Checking the bodies of a file, one after the other. -/

open Text

/-- A body on the way, and the labels that it has named so far. -/
structure Draft where
  builder : Builder
  labels : List (String × Label)

/-- What a line does to a draft. The graph outlasts a body that fails. -/
abbrev Drafting := StateT Draft Resolve

namespace Drafting

/-- The builder, with the graph as it is by now. -/
def builder : Drafting Builder := do
  let g ← getThe Graph
  return { (← get).builder with graph := g }

/-- A type that a check makes stays in the graph, whatever the check comes to. -/
def make : Option (Construct × Ty) → Drafting Unit
  | some (c, t) => modifyThe Graph fun g => (g.construct c t).2
  | none => return

/-- An objection of the builder concerns the line of a method. -/
def build {α : Type} (method : String) (line : Nat) (action : Emit α) : Drafting α := do
  let (outcome, builder) := action.on (← builder)
  match outcome with
  | .ok a =>
    modify ({ · with builder := builder })
    return a
  | .error error => throw (.rejected method line error)

/-- A label is defined where it is first named. -/
def label (name : String) : Drafting Label := do
  let draft ← get
  match draft.labels.lookup name with
  | some l => return l
  | none =>
    let l := draft.builder.labels.length
    let builder := ((Builder.defineLabel name).on draft.builder).2
    set ({ builder := builder, labels := (name, l) :: draft.labels } : Draft)
    return l

def labels : List String → Drafting (List Label)
  | [] => return []
  | name :: rest => do
    let l ← label name
    return l :: (← labels rest)

end Drafting

open Drafting

def comparisonOf? (opcode : String) : Option Comparison :=
  Comparison.all.find? (·.mnemonic == opcode)

def simpleBranch? : String → Option Branch
  | "ret" => some .ret
  | "throw" => some .throw
  | "rethrow" => some .rethrow
  | "endfinally" | "endfault" => some .endfinally
  | _ => none

def labelBranch? : String → Option (Label → Branch)
  | "br" => some .br
  | "brfalse" | "brnull" | "brzero" => some .brfalse
  | "brtrue" | "brinst" => some .brtrue
  | "leave" => some .leave
  | opcode => (comparisonOf? opcode).map .compare

/-- Short branches are written with `.s`. -/
def longOpcode (opcode : String) : String :=
  ((before? ".s".toList opcode.toList).map String.ofList).getD opcode

/-- Nothing if the operation code is not that of a branch. -/
def lowerBranch? (line : Nat) (opcode : String) (operand : Option String) :
    Drafting (Option Branch) := do
  let opcode := longOpcode opcode
  match simpleBranch? opcode, labelBranch? opcode with
  | some b, _ =>
    if operand.isSome then throw (.resolve line (.takesNoOperand opcode))
    return some b
  | none, some make =>
    return some (make (← label (← required line opcode operand)))
  | none, none =>
    if opcode = "switch" then
      match atLine line (parseList (← required line opcode operand).toList) with
      | .ok names => return some (.switch (← labels names))
      | .error error => throw (.parse error)
    else if opcode = "jmp" then
      return some (.jmp (← resolveMethod line (← required line opcode operand)))
    else return none

def draftLine (method : String) (l : BodyLine) : Drafting Unit := do
  match l.statement with
  | .label name => build method l.line (Builder.mark (← label name))
  | .beginTry endName =>
    if ((← get).labels.lookup endName).isSome then
      throw (.resolve l.line (.labelInUse endName))
    let endLabel ← build method l.line Builder.beginTry
    modify fun draft => { draft with labels := (endName, endLabel) :: draft.labels }
  | .beginCatch exception =>
    let t ← resolveType l.line exception
    build method l.line (Builder.beginCatch t)
  | .beginFinally => build method l.line Builder.beginFinally
  | .endTry => build method l.line Builder.endBlock
  | .instruction opcode operand =>
    match ← lowerBranch? l.line opcode operand with
    | some b =>
      let place ← builder
      make (place.context.madeByTransfer? b place.stack)
      build method l.line (Builder.branch b)
    | none =>
      let i ← lowerInstruction l.line opcode operand
      let place ← builder
      make (place.context.made? i place.stack)
      build method l.line (Builder.push i)

def draftLines (method : String) : List BodyLine → Drafting Unit
  | [] => return
  | l :: rest => do
    draftLine method l
    draftLines method rest

def declareLocals (method : String) (line : Nat) : List Ty → Drafting Unit
  | [] => return
  | t :: rest => do
    let _ ← build method line (Builder.declareLocal t)
    declareLocals method line rest

def buildMethod (settings : Settings) (m : MethodText) : Resolve Code := do
  let result ← resolveResult m.line m.result
  let parameters ← resolveTypes m.line m.parameters
  let locals ← resolveTypes m.line m.locals
  let builder := (Builder.new (← get) parameters result).withSettings settings
  let lines : Drafting Unit := do
    declareLocals m.name m.line locals
    draftLines m.name m.body.toList
  let (_, draft) ← lines.run ⟨builder, []⟩
  match draft.builder.finish with
  | .ok code => return code
  | .error error =>
    throw (.rejected m.name ((m.body.back?.map BodyLine.line).getD m.line) error)

/-- What is noted of a method that is as it should be. -/
inductive Note where
  | verified (method : String) (code : Code)
  | rejected (method : String) (line : Nat) (error : BuildError)

def Note.text : Note → String
  | verified method code => "verified `" ++ method ++ "`\n" ++ code.text
  | rejected method line error =>
    "`" ++ method ++ "` rejected as expected on line " ++ toString line ++ ": " ++ error.message

/-- The notes on a file, up to its first failure. -/
structure Report where
  notes : List Note
  failure : Option Failure

def Report.empty : Report := ⟨[], none⟩

/-- What is read first comes first, and nothing comes behind a failure. -/
def Report.andThen (first : Report) (second : Unit → Report) : Report :=
  match first.failure with
  | some _ => first
  | none =>
    let next := second ()
    ⟨first.notes ++ next.notes, next.failure⟩

/-- Only an objection of the verifier meets the expectation of a rejection. A body that is accepted
against it is noted all the same. -/
def MethodText.judge (m : MethodText) : Except Failure Code → Report
  | .ok code =>
    ⟨[.verified m.name code], if m.expectInvalid then some (.unexpectedlyValid m.name) else none⟩
  | .error (.rejected method line error) =>
    if m.expectInvalid then ⟨[.rejected method line error], none⟩
    else ⟨[], some (.rejected method line error)⟩
  | .error failure => ⟨[], some failure⟩

def checkMethods (settings : Settings) : List MethodText → Graph → Report
  | [], _ => .empty
  | m :: rest, g =>
    let (outcome, g) := (buildMethod settings m).run.run g
    (m.judge outcome).andThen fun _ => checkMethods settings rest g

def checkSource (settings : Settings) (source : String) : Report :=
  match parseFile source with
  | .ok methods => checkMethods settings methods .library
  | .error error => ⟨[], some (.parse error)⟩

def checkBytes (settings : Settings) (bytes : ByteArray) : Report :=
  match String.fromUTF8? bytes with
  | some source => checkSource settings source
  | none => ⟨[], some .notUtf8⟩

end ManagedCode.Source
