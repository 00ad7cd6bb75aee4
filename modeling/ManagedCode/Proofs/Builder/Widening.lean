import ManagedCode.Proofs.Builder.Known
import ManagedCode.Proofs.StackType.Widening

namespace ManagedCode

/-! What has arrived at a label is taken there for the rest of the run, however often the top slot
is widened. -/

namespace StackType

/-- A slot below the top, and a value that has arrived there. Until the label is marked, a slot with
null on record has seen nothing else. -/
structure Held (marked : Bool) (s recorded : StackType) : Prop where
  flows : s.flowsInto recorded = true
  null : marked = false → recorded = zero → s = zero

/-- The top slot, which may be widened. What it takes depends on a promise. -/
structure HeldOnTop (g : Graph) (promise : Prop) (marked : Bool) (s recorded : StackType) :
    Prop where
  taken : promise → s.Known g ∧ s.TakenBy g recorded
  null : marked = false → recorded = zero → s = zero

variable {g : Graph} {promise : Prop} {marked : Bool} {s t recorded joined : StackType}

theorem Held.unify (h : Held false s recorded) (ht : t.flowsInto recorded = true) :
    Held false s (t.unify recorded) := by
  cases recorded with
  | zero =>
      cases h.null rfl rfl
      exact ⟨zero_flowsInto (flowsInto_zero.mp ht), fun _ _ => rfl⟩
  | simple | complex => exact h

theorem held_self (marked : Bool) (s : StackType) : Held marked s s :=
  ⟨flowsInto_of_interchangeable (.same s), fun _ hzero => hzero⟩

theorem held_unify (h : s.flowsInto recorded = true) : Held false s (s.unify recorded) := by
  cases recorded with
  | zero => exact held_self false s
  | simple | complex => exact ⟨h, nofun⟩

theorem Held.close (h : Held marked s recorded) : Held true s recorded :=
  ⟨h.flows, nofun⟩

theorem Held.onTop (h : Held marked s recorded) (hs : promise → s.Known g) :
    HeldOnTop g promise marked s recorded :=
  ⟨fun hpromise => ⟨hs hpromise, .flows h.flows⟩, h.null⟩

theorem HeldOnTop.unify (h : HeldOnTop g promise false s recorded)
    (ht : t.flowsInto recorded = true) : HeldOnTop g promise false s (t.unify recorded) := by
  cases recorded with
  | zero =>
      cases h.null rfl rfl
      exact ((held_self false zero).unify ht).onTop fun hpromise => (h.taken hpromise).1
  | simple | complex => exact h

theorem HeldOnTop.close (h : HeldOnTop g promise marked s recorded) :
    HeldOnTop g promise true s recorded :=
  ⟨h.taken, nofun⟩

/-- Only null has been in a slot that is still null, so the join takes all that the slot takes. -/
theorem HeldOnTop.widen {g' : Graph} (h : HeldOnTop g promise false s recorded)
    (hjoin : t.join g' recorded = some joined)
    (hpromise : promise → g' = g ∧ g.Tame ∧ g.Sound ∧ t.Known g ∧ recorded.Known g) :
    HeldOnTop g promise false s joined where
  taken := by
    intro hp
    obtain ⟨rfl, htame, hg, ht, hrecorded⟩ := hpromise hp
    obtain ⟨hs, htaken⟩ := h.taken hp
    exact ⟨hs, htaken.join htame hg hs ht hrecorded (h.null rfl) hjoin⟩
  null := by
    rintro - rfl
    exact h.null rfl (eq_zero_of_join hjoin)

end StackType

namespace Shape

open StackType

variable {g : Graph} {promise : Prop} {marked : Bool} {arrived arriving recorded : Shape}

/-- A stack that has arrived at a label, and the stack on record there. -/
inductive Held (g : Graph) (promise : Prop) (marked : Bool) : Shape → Shape → Prop where
  | empty : Held g promise marked [] []
  | slots {s t : StackType} {rest below : Shape} : HeldOnTop g promise marked s t →
      List.Forall₂ (StackType.Held marked) rest below →
      Held g promise marked (s :: rest) (t :: below)

theorem slots_unify (h : List.Forall₂ (StackType.Held false) arrived recorded)
    (harriving : List.Forall₂ (fun s t => s.flowsInto t = true) arriving recorded) :
    List.Forall₂ (StackType.Held false) arrived (arriving.unify recorded) := by
  induction h generalizing arriving with
  | nil =>
      cases harriving
      exact .nil
  | cons hslot _ ih =>
      cases harriving with
      | cons ht harriving => exact .cons (hslot.unify ht) (ih harriving)

theorem slots_arrive (h : List.Forall₂ (fun s t => s.flowsInto t = true) arriving recorded) :
    List.Forall₂ (StackType.Held false) arriving (arriving.unify recorded) := by
  induction h with
  | nil => exact .nil
  | cons ht _ ih => exact .cons (held_unify ht) ih

theorem held_of_slots (h : List.Forall₂ (StackType.Held marked) arrived recorded)
    (hknown : promise → Shape.Known g arrived) : arrived.Held g promise marked recorded := by
  cases h with
  | nil => exact .empty
  | cons hslot hrest =>
      exact .slots (hslot.onTop fun hpromise => hknown hpromise _ List.mem_cons_self) hrest

theorem Held.unify (h : arrived.Held g promise false recorded)
    (harriving : List.Forall₂ (fun s t => s.flowsInto t = true) arriving recorded) :
    arrived.Held g promise false (arriving.unify recorded) := by
  cases h with
  | empty =>
      cases harriving
      exact .empty
  | slots htop hrest =>
      cases harriving with
      | cons ht harriving => exact .slots (htop.unify ht) (slots_unify hrest harriving)

theorem Held.close (h : arrived.Held g promise marked recorded) :
    arrived.Held g promise true recorded := by
  cases h with
  | empty => exact .empty
  | slots htop hrest => exact .slots htop.close (hrest.imp fun _ _ hslot => hslot.close)

end Shape

namespace LabelState

variable {g : Graph} {promise : Prop} {state : LabelState} {arrived arriving : Shape}

def Holds (g : Graph) (promise : Prop) (state : LabelState) (arrived : Shape) : Prop :=
  ∃ recorded, state.shape = some recorded ∧ arrived.Held g promise state.marked recorded

theorem Holds.record (h : state.Holds g promise arrived) (haccepts : state.accepts arriving = true) :
    (state.record arriving).Holds g promise arrived := by
  rcases state with ⟨name, shape, marked⟩
  obtain ⟨recorded, rfl, hheld⟩ := h
  cases marked with
  | true => exact ⟨recorded, rfl, hheld⟩
  | false => exact ⟨_, rfl, hheld.unify (Shape.flowsInto_iff.mp haccepts)⟩

theorem holds_record (haccepts : state.accepts arriving = true)
    (hknown : promise → Shape.Known g arriving) :
    (state.record arriving).Holds g promise arriving := by
  rcases state with ⟨name, _ | recorded, marked⟩
  · have hslots := List.forall₂_same.mpr fun s (_ : s ∈ arriving) => StackType.held_self marked s
    exact ⟨arriving, rfl, Shape.held_of_slots hslots hknown⟩
  · have hflows := Shape.flowsInto_iff.mp haccepts
    cases marked with
    | true =>
        have hslots := hflows.imp fun s t h => (⟨h, nofun⟩ : StackType.Held true s t)
        exact ⟨recorded, rfl, Shape.held_of_slots hslots hknown⟩
    | false => exact ⟨_, rfl, Shape.held_of_slots (Shape.slots_arrive hflows) hknown⟩

theorem Holds.close (h : state.Holds g promise arrived) :
    { state with marked := true }.Holds g promise arrived := by
  obtain ⟨recorded, hrecorded, hheld⟩ := h
  exact ⟨recorded, hrecorded, hheld.close⟩

end LabelState

/-- What the callers of a builder keep to. -/
structure Builder.Promised (g : Graph) (b : Builder) (commands : List Command) : Prop where
  tame : g.Tame
  sound : g.Sound
  builder : b.Known g
  commands : ∀ c ∈ commands, c.Known g

theorem Builder.Promised.step {g : Graph} {b : Builder} {c : Command} {rest : List Command}
    (h : b.Promised g (c :: rest)) : (c.apply b).Promised g rest := by
  obtain ⟨hc, hrest⟩ := List.forall_mem_cons.mp h.commands
  exact ⟨h.tame, h.sound, Command.known_apply h.tame h.sound h.builder hc, hrest⟩

namespace Command

variable {g : Graph} {promise : Prop} {b : Builder} {c : Command} {l : Label}
  {state state' : LabelState} {arrived : Shape}

/-- A command keeps what a label holds. -/
theorem Evolves.holds (hevolves : c.Evolves b l state state') (hstate : b.labels[l]? = some state)
    (h : state.Holds g promise arrived) (hpromise : promise → g.Tame ∧ g.Sound ∧ b.Known g) :
    state'.Holds g promise arrived := by
  cases hevolves with
  | same => exact h
  | arrive _ haccepts => exact h.record haccepts
  | mark =>
      obtain ⟨recorded, hrecorded, hheld⟩ := h
      refine ⟨recorded, ?_, hheld.close⟩
      rw [hrecorded]
      rfl
  | fallInto _ _ haccepts => exact (h.record haccepts).close
  | @widen recorded current joined rest hopen hshape htop hjoin =>
      obtain ⟨shape, hrecorded, hheld⟩ := h
      cases hshape.symm.trans hrecorded
      rw [hopen] at hheld
      refine ⟨joined :: rest, rfl, ?_⟩
      change arrived.Held g promise state.marked _
      rw [hopen]
      cases hheld with
      | slots hslot hrest =>
          refine .slots (hslot.widen hjoin fun hp => ?_) hrest
          obtain ⟨htame, hg, hb⟩ := hpromise hp
          exact ⟨hb.graph, htame, hg, hb.peek htop, hb.labels hstate _ hshape _ List.mem_cons_self⟩

end Command

namespace Builder

variable {g : Graph} {promise : Prop} {b : Builder} {l : Label} {arrived : Shape}

def Holds (g : Graph) (promise : Prop) (b : Builder) (l : Label) (arrived : Shape) : Prop :=
  ∃ state, b.labels[l]? = some state ∧ state.Holds g promise arrived

theorem Holds.run {commands : List Command} (h : b.Holds g promise l arrived)
    (hpromise : promise → b.Promised g commands) : (b.run commands).Holds g promise l arrived := by
  induction commands generalizing b with
  | nil => exact h
  | cons c rest ih =>
      apply ih
      · obtain ⟨state, hstate, hholds⟩ := h
        obtain ⟨state', hstate', hevolves⟩ := (c.develops b).known hstate
        refine ⟨state', hstate', hevolves.holds hstate hholds fun hp => ?_⟩
        exact ⟨(hpromise hp).tame, (hpromise hp).sound, (hpromise hp).builder⟩
      · exact fun hp => (hpromise hp).step

theorem holds_of_mem_arrivals {c : Command} (h : (l, arrived) ∈ c.arrivals b)
    (hpromise : promise → b.Known g) : (c.apply b).Holds g promise l arrived := by
  obtain ⟨state, hstate, haccepts, hrecorded⟩ := Command.labels_of_mem_arrivals h
  have hholds : (state.record arrived).Holds g promise arrived :=
    LabelState.holds_record haccepts fun hp => Command.known_of_mem_arrivals (hpromise hp) h
  rcases hrecorded with hrecorded | hrecorded
  · exact ⟨_, hrecorded, hholds⟩
  · exact ⟨_, hrecorded, hholds.close⟩

/-- Whatever has arrived during a run is held in the end. -/
theorem holds_of_mem_history {commands : List Command} (h : (l, arrived) ∈ b.history commands)
    (hpromise : promise → b.Promised g commands) : (b.run commands).Holds g promise l arrived := by
  induction commands generalizing b with
  | nil => cases h
  | cons c rest ih =>
      have hrest : promise → (c.apply b).Promised g rest := fun hp => (hpromise hp).step
      rcases List.mem_append.mp h with hlater | hnow
      · exact ih hlater hrest
      · exact (holds_of_mem_arrivals hnow fun hp => (hpromise hp).builder).run hrest

/-- Whatever has arrived at a label is taken by what is on record there later. Below the top that is
so as it arrived. The top slot may be more general by then, as long as the types are those of a
graph whose classes and interfaces are what they are called. -/
theorem arrivals_survive_widening (g : Graph) (arguments : List Ty) (result : Option Ty)
    (commands : List Command) (l : Label) (arrived : Shape)
    (harrived : (l, arrived) ∈ (new g arguments result).history commands) :
    ∃ recorded, ((new g arguments result).run commands).labelShape? l = some recorded ∧
      arrived.length = recorded.length ∧
      List.Forall₂ (fun s t => s.flowsInto t = true) arrived.tail recorded.tail ∧
      (g.Built → g.Tame → (∀ t ∈ arguments, g.Knows t) → (∀ c ∈ commands, c.Known g) →
        List.Forall₂ (StackType.TakenBy g) arrived recorded) := by
  have hpromise : (g.Built ∧ g.Tame ∧ (∀ t ∈ arguments, g.Knows t) ∧ ∀ c ∈ commands, c.Known g) →
      (new g arguments result).Promised g commands := by
    rintro ⟨hbuilt, htame, harguments, hcommands⟩
    exact ⟨htame, hbuilt.sound, known_new harguments result, hcommands⟩
  obtain ⟨state, hstate, recorded, hrecorded, hheld⟩ := holds_of_mem_history harrived hpromise
  refine ⟨recorded, ?_, ?_⟩
  · rw [labelShape?, hstate]
    exact hrecorded
  cases hheld with
  | empty => exact ⟨rfl, .nil, fun _ _ _ _ => .nil⟩
  | slots htop hrest =>
      have hflows := hrest.imp fun _ _ hslot => hslot.flows
      refine ⟨congrArg (· + 1) hrest.length_eq, hflows, ?_⟩
      intro hbuilt htame harguments hcommands
      obtain ⟨-, htaken⟩ := htop.taken ⟨hbuilt, htame, harguments, hcommands⟩
      exact .cons htaken (hflows.imp fun _ _ => .flows)

theorem arrivals_survive_widening_number :
    let b := (new .library [.interface .comparable] none)
    let commands : List Command := [.push (.ldstr "x"), .push (.ldcI4 0), .defineLabel "L",
      .branch (.br 0), .push (.ldarg 0), .generalizeForLabel 0]
    ∃ recorded, (b.run commands).labelShape? 0 = some recorded ∧
      List.Forall₂ (StackType.TakenBy .library) [.simple .int32, .simple .string] recorded := by
  intro b commands
  have hsound := Graph.Built.library.sound
  obtain ⟨recorded, hrecorded, -, -, htaken⟩ := arrivals_survive_widening .library
    [.interface .comparable] none commands 0 [.simple .int32, .simple .string] (by decide +kernel)
  refine ⟨recorded, hrecorded, htaken .library Graph.tame_library ?_ ?_⟩
  · exact List.forall_mem_singleton.mpr (hsound.knows_library (by decide))
  · simp [commands, Command.Known, Instruction.types]

/-! Values that are not taken any more. The samples are graphs and commands that need each of the
conditions. -/

namespace Sample

def comparable : Ty := .interface .comparable
def convertible : Ty := .interface .convertible
def disposable : Ty := .interface .disposable

/-- An enumeration over native integers. -/
def token : Ty := .enum ⟨"Sample.Token", by decide⟩ .enumBase .intPtr
def value : Ty := .interface ⟨"Sample.IValue", by decide⟩
def names : Ty := .subclass ⟨"Sample.Names", by decide⟩ (.arrayOf .string) .none
def base : Ty := .subclass ⟨"Sample.Base", by decide⟩ .object .none
def first : Ty := .subclass ⟨"Sample.First", by decide⟩ .object .none
def second : Ty := .subclass ⟨"Sample.Second", by decide⟩ base .none

def enums : Graph := (Graph.library.declare token).2

def arrays : Graph := ((Graph.library.arrayOf .object).2.arrayOf .string).2

/-- One type of arrays implements an interface. -/
def arrayInterface : Graph := arrays.addInterface (.arrayOf .object) disposable

/-- The root class implements an interface. -/
def rootInterface : Graph :=
  (((Graph.library.declare value).2.addInterface value comparable).addInterface value
    convertible).addInterface .object disposable

def arrayBase : Graph := (arrays.declare names).2

/-- Two classes implement a class. -/
def classInterface : Graph :=
  (((Graph.library.declare base).2.declare first).2.declare second).2.addInterface first base
    |>.addInterface second base

/-- A class and a number implement three interfaces. -/
def threeInterfaces : Graph :=
  ((((Graph.library.declare first).2.addInterface first disposable).addInterface first
    comparable).addInterface first convertible).addInterface .int32 disposable

def arrive (index : UInt16) : List Command := [.push (.ldarg index), .branch (.br 0)]

def widen (index : UInt16) : List Command :=
  [.push (.ldarg index), .generalizeForLabel 0, .push .pop]

def widenAs (index : UInt16) (general : StackType) : List Command :=
  [.push (.ldarg index), .generalize general, .generalizeForLabel 0, .push .pop]

end Sample

/-- A value has come to the first label, and the slot there does not take it in the end. -/
def Drops (g : Graph) (arguments : List Ty) (commands : List Command) (s recorded : StackType) :
    Prop :=
  (0, [s]) ∈ (new g arguments none).history (.defineLabel "L" :: commands) ∧
    ((new g arguments none).run (.defineLabel "L" :: commands)).labelShape? 0 = some [recorded] ∧
    s.flowsInto recorded = false ∧ s.fits g recorded = false

instance (g : Graph) (arguments : List Ty) (commands : List Command) (s recorded : StackType) :
    Decidable (Drops g arguments commands s recorded) :=
  inferInstanceAs (Decidable (_ ∧ _ ∧ _ ∧ _))

open Sample in
theorem arrivals_dropped :
    -- numbers behind an interface
    Drops .library [.int32, comparable, .object] (arrive 0 ++ widen 1 ++ widen 2)
      (.simple .int32) (.simple .object) ∧
    Drops enums [token, .intPtr, comparable] (arrive 0 ++ arrive 1 ++ widen 2)
      (.simple .intPtr) (.simple comparable) ∧
    -- interfaces and base classes where they do not belong
    Drops arrayInterface [.arrayOf .string, .arrayOf .object, disposable]
      (arrive 0 ++ widen 1 ++ widen 2) (.simple (.arrayOf .string)) (.simple disposable) ∧
    Drops rootInterface [value, .string, disposable] (arrive 0 ++ widen 1 ++ widen 2)
      (.simple value) (.simple disposable) ∧
    Drops arrayBase [names, .arrayOf .string, .arrayOf .object] (arrive 0 ++ widen 1 ++ widen 2)
      (.simple names) (.simple (.arrayOf .object)) ∧
    Drops classInterface [first, second] (arrive 0 ++ widen 1)
      (.simple first) (.complex .object (.ofList [base])) ∧
    -- complex types whose base is a value type or an interface
    Drops .library [.intPtr, .uintPtr, .object]
      (arrive 0 ++ widenAs 1 (.complex .uintPtr (.ofList [])) ++ widen 2)
      (.simple .intPtr) (.simple .object) ∧
    Drops threeInterfaces [.int32, first, .string]
      (arrive 0 ++ widenAs 1 (.complex disposable (.ofList [comparable, convertible])) ++ widen 2)
      (.simple .int32) (.complex .object (.ofList [comparable, convertible])) := by
  decide +kernel

end Builder

end ManagedCode
