import ManagedCode.Graph.Library
import ManagedCode.Proofs.Verify.Interchange

namespace ManagedCode

/-! What consistent stacks mean to the verifier. Where the operands answer what an instruction asks
in the same way, the instruction does the same to both stacks. Where it accepts the one stack, the
answers of the other one decide on that. -/

/-- Stacks that a label takes for one another, apart from null. -/
abbrev Shape.Consistent (shape shape' : Shape) : Prop :=
  List.Forall₂ (fun s t => s.isConsistentWith t = true) shape shape'

theorem Shape.consistent_iff {shape shape' : Shape} :
    shape.Consistent shape' ↔ shape.Interchangeable shape' := by
  constructor
  · intro h
    exact h.imp fun _ _ => StackType.isConsistentWith_iff.mp
  · intro h
    exact h.imp fun _ _ => StackType.isConsistentWith_iff.mpr

/-- Every question is answered with yes. -/
def Shape.Grants (asked : List Question) (shape : Shape) : Prop :=
  ∀ answer ∈ shape.answers asked, answer = true

theorem Shape.grants_nil (shape : Shape) : shape.Grants [] := by
  intro answer hanswer
  cases hanswer

theorem Shape.grants_cons {asked : List Question} {question : Question} {s : StackType}
    {rest : Shape} :
    Shape.Grants (question :: asked) (s :: rest) ↔ question s = true ∧ rest.Grants asked :=
  List.forall_mem_cons

theorem Shape.answers_eq_of_grants {asked : List Question} {shape shape' : Shape}
    (hlength : shape.length = shape'.length) (h : shape.Grants asked) (h' : shape'.Grants asked) :
    shape.answers asked = shape'.answers asked := by
  have hall : ∀ {shape : Shape}, shape.Grants asked →
      shape.answers asked = List.replicate (min asked.length shape.length) true := by
    intro shape hgrants
    refine List.eq_replicate_iff.mpr ⟨?_, hgrants⟩
    exact List.length_zipWith
  rw [hall h, hall h', hlength]

namespace Step

variable {α β : Type} {asked mid left : List Question}

/-- An accepted step has been granted all that it asks for, if that holds of what is left to be
asked. -/
structure Demands (asked left : List Question) (x : Step α) : Prop where
  granted : ∀ {s a t}, x.on s = (.ok a, t) → t.shape.Grants left → s.shape.Grants asked

theorem demands_nothing (x : Step α) : x.Demands [] left :=
  ⟨fun _ _ => Shape.grants_nil _⟩

theorem Demands.bind {x : Step α} {f : α → Step β} (hx : x.Demands asked mid)
    (hf : ∀ a, (f a).Demands mid left) : (x >>= f).Demands asked left := by
  refine ⟨fun {s b u} hrun hleft => ?_⟩
  obtain ⟨a, t, hfirst, hrest⟩ := bind_ok hrun
  exact hx.granted hfirst ((hf a).granted hrest hleft)

theorem demands_throw (e : VerifyError) : (throw e : Step α).Demands asked left :=
  ⟨fun hrun _ => nomatch hrun⟩

theorem demands_pure (a : α) : (pure a : Step α).Demands asked asked :=
  ⟨fun hrun hleft => by cases hrun; exact hleft⟩

theorem demands_get : (get : Step EvalStack).Demands asked asked :=
  ⟨fun hrun hleft => by cases hrun; exact hleft⟩

theorem demands_check (condition : Bool) (e : VerifyError) :
    (check condition e).Demands asked asked := by
  refine ⟨fun hrun hleft => ?_⟩
  obtain ⟨-, rfl⟩ := check_ok hrun
  exact hleft

theorem demands_require (count : Nat) (reason : Nat → String) :
    (require count reason).Demands asked asked := by
  refine ⟨fun {s u t} hrun hleft => ?_⟩
  rw [on_require] at hrun
  cases congrArg Prod.snd hrun
  exact hleft

theorem demands_pop {question : Question} {reason : String} {f : StackType → Step β}
    (hquestion : ∀ {a s b t}, (f a).on s = (.ok b, t) → question a = true)
    (hf : ∀ a, (f a).Demands asked left) : (pop reason >>= f).Demands (question :: asked) left := by
  refine ⟨fun {s b u} hrun hleft => ?_⟩
  obtain ⟨a, t, hpop, hrest⟩ := bind_ok hrun
  rw [pop_ok hpop]
  exact Shape.grants_cons.mpr ⟨hquestion hrest, (hf a).granted hrest hleft⟩

theorem demands_popExpecting (g : Graph) (t : Ty) (reason : String) :
    (popExpecting g t reason).Demands (.standsFor g t :: asked) asked := by
  refine demands_pop ?_ fun a => demands_check _ _
  intro a s b u hrun
  have hfits : a.isAssignableTo g t = true := (check_ok hrun).1
  simp only [Question.standsFor, hfits, Bool.or_true]

theorem demands_popArguments (g : Graph) (parameters : List Ty) (index : Nat) :
    (popArguments g index parameters).Demands
      ((parameters.map (.standsFor g)).reverse ++ asked) asked := by
  induction parameters generalizing index asked with
  | nil => exact demands_pure ()
  | cons t rest ih =>
      rw [List.map_cons, List.reverse_cons, List.append_assoc]
      exact (ih (index + 1)).bind fun _ => demands_popExpecting g t _

theorem demands_popAllArguments (g : Graph) (parameters : List Ty) :
    (popArguments g 0 parameters).Demands (parameters.map (.standsFor g)).reverse [] := by
  have h : (popArguments g 0 parameters).Demands
      ((parameters.map (.standsFor g)).reverse ++ []) [] := demands_popArguments g parameters 0
  rwa [List.append_nil] at h

theorem fieldInstance_ok {c : Context} {holder : StackType} {declaring : Ty} {load : Bool}
    {s t : EvalStack} {u : Unit}
    (h : (liftM (checkFieldInstance c holder declaring load) : Step Unit).on s = (.ok u, t)) :
    Question.holdsField c declaring load holder = true := by
  rw [on_liftM] at h
  have hok : checkFieldInstance c holder declaring load = .ok u := congrArg Prod.fst h
  rw [← Context.checkFieldInstance_isOk, hok]
  rfl

theorem demands_fieldInstance (c : Context) (declaring : Ty) (load : Bool) (reason : String)
    (f : Step β) :
    (do
      checkFieldInstance c (← pop reason) declaring load
      f).Demands [.holdsField c declaring load] [] := by
  refine demands_pop ?_ fun a => demands_nothing _
  intro a s b t hrun
  obtain ⟨_, _, hcheck, _⟩ := bind_ok hrun
  exact fieldInstance_ok hcheck

end Step

open Step

namespace Context

theorem demands_step (c : Context) (i : Instruction) : (c.step i).Demands (c.asks i) [] := by
  cases i
  case starg i =>
      simp only [asks, step, argument]
      cases c.arguments[i.toNat]? with
      | none => exact demands_throw _
      | some t => exact demands_popExpecting c.graph t _
  case stloc i =>
      simp only [asks, step, localType]
      cases c.locals[i.toNat]? with
      | none => exact demands_throw _
      | some t => exact demands_popExpecting c.graph t _
  case call m => exact (demands_popAllArguments c.graph m.parameters).bind fun _ => demands_nothing _
  case callvirt m constrained =>
      rw [step_callvirt]
      refine (demands_check _ _).bind fun _ => ?_
      exact (demands_popAllArguments c.graph m.parameters).bind fun _ => demands_nothing _
  case calli site =>
      refine demands_pop (fun _ => rfl) fun entry => ?_
      refine (demands_check _ _).bind fun _ => ?_
      exact (demands_popAllArguments c.graph site.parameters).bind fun _ => demands_nothing _
  case newobj m =>
      refine (demands_check _ _).bind fun _ => ?_
      refine (demands_check _ _).bind fun _ => ?_
      exact (demands_popAllArguments c.graph m.parameters).bind fun _ => demands_nothing _
  case stind t => exact (demands_popExpecting c.graph t _).bind fun _ => demands_nothing _
  case stobj t => exact (demands_popExpecting c.graph t _).bind fun _ => demands_nothing _
  case stelem t => exact (demands_popExpecting c.graph t _).bind fun _ => demands_nothing _
  case ldfld f =>
      refine (demands_check _ _).bind fun _ => ?_
      exact demands_fieldInstance c f.declaring true _ _
  case ldflda f =>
      refine (demands_check _ _).bind fun _ => ?_
      exact demands_fieldInstance c f.declaring false _ _
  case stfld f =>
      refine (demands_check _ _).bind fun _ => ?_
      refine (demands_popExpecting c.graph f.type _).bind fun _ => ?_
      exact demands_pop fieldInstance_ok fun a => demands_nothing _
  case stsfld f => exact (demands_check _ _).bind fun _ => demands_popExpecting c.graph f.type _
  -- The others ask for nothing.
  all_goals exact demands_nothing _

theorem demands_verify (c : Context) (i : Instruction) : (c.verify i).Demands (c.asks i) [] :=
  (demands_require _ _).bind fun _ => demands_step c i

theorem demands_transfer (c : Context) (b : Branch) :
    (c.transfer b).Demands (c.asksOfBranch b) [] := by
  cases b
  case ret =>
      refine (demands_check _ _).bind fun _ => ?_
      refine demands_get.bind fun s => ?_
      simp only [asksOfBranch]
      cases c.result with
      | none => exact demands_nothing _
      | some t =>
          refine (demands_check _ _).bind fun _ => ?_
          exact (demands_popExpecting c.graph t _).bind fun _ => demands_nothing _
  all_goals exact demands_nothing _

end Context

/-- Consistent stacks differ in nothing but the answers of their operands. -/
structure Step.DecidedBy {α : Type} (asked : List Question) (x : Step α) : Prop where
  /-- With the same answers, both stacks are accepted or both rejected, and in either case what
  becomes of them is consistent again. -/
  agree : ∀ {s t : EvalStack}, s.shape.Consistent t.shape →
    s.shape.answers asked = t.shape.answers asked →
    x.accepts s = x.accepts t ∧ (x.after s).shape.Consistent (x.after t).shape
  /-- Next to a stack that is accepted, another one is accepted if and only if its own answers are
  yes, and then what becomes of the two is consistent again. -/
  decided : ∀ {s t : EvalStack}, s.shape.Consistent t.shape → x.accepts s = true →
    (x.accepts t = true ↔ t.shape.Grants asked) ∧
      (x.accepts t = true → (x.after s).shape.Consistent (x.after t).shape)

theorem Step.decidedBy {α : Type} {asked : List Question} {rel : α → α → Prop} {x : Step α}
    (htracks : Tracks asked [] rel x x) (hdemands : x.Demands asked []) : x.DecidedBy asked := by
  have hagree : ∀ {s t : EvalStack}, s.shape.Consistent t.shape →
      s.shape.answers asked = t.shape.answers asked →
      x.accepts s = x.accepts t ∧ (x.after s).shape.Consistent (x.after t).shape := by
    intro s t hslots hanswers
    have hrun := htracks.together ⟨Shape.consistent_iff.mp hslots, hanswers⟩
    unfold accepts after
    generalize x.on s = run at hrun ⊢
    generalize x.on t = run' at hrun ⊢
    cases hrun with
    | ok _ halike => exact ⟨rfl, Shape.consistent_iff.mpr halike.slots⟩
    | error halike => exact ⟨rfl, Shape.consistent_iff.mpr halike.slots⟩
  have hgranted : ∀ {s : EvalStack}, x.accepts s = true → s.shape.Grants asked := by
    intro s haccepts
    obtain ⟨a, t, hrun⟩ := accepts_iff.mp haccepts
    exact hdemands.granted hrun (Shape.grants_nil _)
  refine ⟨hagree, fun {s t} hslots haccepts => ?_⟩
  have hanswers : t.shape.Grants asked → s.shape.answers asked = t.shape.answers asked :=
    Shape.answers_eq_of_grants hslots.length_eq (hgranted haccepts)
  refine ⟨⟨hgranted, fun hgrants => ?_⟩, fun haccepts' => ?_⟩
  · rw [← (hagree hslots (hanswers hgrants)).1]
    exact haccepts
  · exact (hagree hslots (hanswers (hgranted haccepts'))).2

/-- A number of the size of a pointer that is comparable, unlike `System.IntPtr` itself. -/
def Ty.comparableHandle : Ty := .enum ⟨"Sample.Handle", by decide⟩ enumBase intPtr

/-- The content of an `int32` as a field of its own. -/
def Field.content : Field := ⟨.int32, ⟨"m_value", by decide⟩, .int32, .publicBit⟩

namespace Context

def storing : Context where
  graph := (Graph.library.declare .comparableHandle).2
  arguments := #[]
  locals := #[.interface .comparable]
  result := none
  region := none
  settings := {}

def reading : Context where
  graph := (Graph.library.addField .content).2
  arguments := #[]
  locals := #[]
  result := none
  region := none
  settings := {}

/-- Two numbers of one category differ in the interfaces that they stand for and in the fields that
they have. -/
theorem consistent_stacks_told_apart :
    (Shape.Consistent [.simple .comparableHandle] [.simple .intPtr] ∧
      (storing.verify (.stloc 0)).accepts (.ofShape [.simple .comparableHandle]) = true ∧
      (storing.verify (.stloc 0)).accepts (.ofShape [.simple .intPtr]) = false) ∧
    (Shape.Consistent [.simple .int32] [.simple .boolean] ∧
      (reading.verify (.ldfld .content)).accepts (.ofShape [.simple .int32]) = true ∧
      (reading.verify (.ldfld .content)).accepts (.ofShape [.simple .boolean]) = false) := by
  refine ⟨⟨.cons rfl .nil, ?_, ?_⟩, .cons rfl .nil, ?_, ?_⟩
  · decide +kernel
  · decide +kernel
  · decide +kernel
  · decide +kernel

/-- Slots that labels take for one another are so for all instructions, as long as no number has to
stand for an interface and no field of it is accessed. -/
theorem consistent_stacks_decided (c : Context) :
    (∀ i : Instruction, (c.verify i).DecidedBy (c.asks i)) ∧
    ∀ b : Branch, (c.transfer b).DecidedBy (c.asksOfBranch b) := by
  constructor
  · intro i
    exact decidedBy (follows_verify c i) (demands_verify c i)
  · intro b
    exact decidedBy (tracks_transfer c b) (demands_transfer c b)

/-- An `int32` and a `bool` both stand for `System.IComparable`, but only the one has the field. -/
theorem consistent_stacks_decided_boolean :
    let number := EvalStack.ofShape [.simple .int32]
    let truth := EvalStack.ofShape [.simple .boolean]
    number.shape.Consistent truth.shape ∧
    (number.shape.answers (storing.asks (.stloc 0)) = [true] ∧
      truth.shape.answers (storing.asks (.stloc 0)) = [true] ∧
      (storing.verify (.stloc 0)).accepts number = true ∧
      (storing.verify (.stloc 0)).accepts truth = true ∧
      Shape.Consistent ((storing.verify (.stloc 0)).after number).shape
        ((storing.verify (.stloc 0)).after truth).shape) ∧
    truth.shape.answers (reading.asks (.ldfld .content)) = [false] ∧
      (reading.verify (.ldfld .content)).accepts number = true ∧
      (reading.verify (.ldfld .content)).accepts truth = false := by
  intro number truth
  have hslots : number.shape.Consistent truth.shape := .cons rfl .nil
  have hnumber : number.shape.answers (storing.asks (.stloc 0)) = [true] := by decide +kernel
  have htruth : truth.shape.answers (storing.asks (.stloc 0)) = [true] := by decide +kernel
  have hfield : truth.shape.answers (reading.asks (.ldfld .content)) = [false] := by decide +kernel
  have hstored : (storing.verify (.stloc 0)).accepts number = true := by decide +kernel
  have hread : (reading.verify (.ldfld .content)).accepts number = true := by decide +kernel
  obtain ⟨hstoring, -⟩ := consistent_stacks_decided storing
  obtain ⟨hreading, -⟩ := consistent_stacks_decided reading
  obtain ⟨hsame, hafter⟩ := (hstoring (.stloc 0)).agree hslots (hnumber.trans htruth.symm)
  obtain ⟨hdecided, -⟩ := (hreading (.ldfld .content)).decided hslots hread
  refine ⟨hslots, ⟨hnumber, htruth, hstored, hsame ▸ hstored, hafter⟩, hfield, hread, ?_⟩
  rw [Bool.eq_false_iff, ne_eq, hdecided, Shape.Grants, hfield]
  decide

end Context

end ManagedCode
