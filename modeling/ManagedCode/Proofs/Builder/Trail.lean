import ManagedCode.Proofs.Builder.Run

namespace ManagedCode

/-! Runs in single steps. The sequences that bodies often need are several instructions each, and
the stack between them is part of a run as well. -/

namespace Builder

open Emit

/-- Instructions up to the first one that is rejected. -/
def tried (b : Builder) : List Instruction → List Instruction
  | [] => []
  | i :: rest =>
    i :: if (Command.push i).accepted b then ((Command.push i).apply b).tried rest else []

theorem run_tried (instructions : List Instruction) (b : Builder) :
    b.run ((b.tried instructions).map .push) = ((pushAll instructions).on b).2 := by
  induction instructions generalizing b with
  | nil => rfl
  | cons i rest ih =>
      rw [pushAll, on_bind, tried, List.map_cons, run]
      rcases hpush : (push i).on b with ⟨e | _, b'⟩
      · rw [Command.accepted_of_error (c := .push i) hpush]
        exact congrArg Prod.snd hpush
      · have happly : (Command.push i).apply b = b' := congrArg Prod.snd hpush
        rw [Command.accepted_of_ok (c := .push i) hpush, if_pos rfl, happly]
        exact ih b'

end Builder

namespace Command

/-- The single steps that a command takes. -/
def steps (b : Builder) : Command → List Command
  | zeroLocal index =>
    (b.locals[index.toNat]?).elim [] fun t => (b.tried (Builder.clearing t index)).map push
  | callMethod m =>
    [push (if m.isStatic || m.declaring.isValueType then .call m else .callvirt m none)]
  | c => [c]

def Single : Command → Prop
  | zeroLocal _ | callMethod _ => False
  | _ => True

theorem single_of_mem_steps {c step : Command} {b : Builder} (h : step ∈ c.steps b) :
    step.Single := by
  cases c with
  | zeroLocal index =>
      simp only [steps] at h
      cases hlocal : b.locals[index.toNat]? with
      | none =>
          rw [hlocal] at h
          cases h
      | some t =>
          rw [hlocal] at h
          obtain ⟨i, -, rfl⟩ := List.mem_map.mp h
          trivial
  | _ =>
      cases List.mem_singleton.mp h
      trivial

theorem run_steps (c : Command) (b : Builder) : b.run (c.steps b) = c.apply b := by
  cases c with
  | zeroLocal index =>
      simp only [apply, perform, steps]
      rw [Builder.zeroLocal_eq, Emit.on_bind, Emit.on_get]
      cases hlocal : b.locals[index.toNat]? with
      | none => simp only [hlocal]; rfl
      | some t =>
          simp only [hlocal]
          exact Builder.run_tried _ b
  | _ => rfl

end Command

namespace Builder

theorem run_append (b : Builder) (commands more : List Command) :
    b.run (commands ++ more) = (b.run commands).run more := by
  induction commands generalizing b with
  | nil => rfl
  | cons c rest ih => exact ih (c.apply b)

/-- The single steps of a run. -/
def steps (b : Builder) : List Command → List Command
  | [] => []
  | c :: rest => c.steps b ++ (c.apply b).steps rest

theorem run_steps (b : Builder) (commands : List Command) :
    b.run (b.steps commands) = b.run commands := by
  induction commands generalizing b with
  | nil => rfl
  | cons c rest ih => rw [steps, run_append, c.run_steps, ih, run]

/-- All states of a run, from the first to the last. -/
def states (b : Builder) : List Command → List Builder
  | [] => [b]
  | c :: rest => b :: (c.apply b).states rest

theorem start_mem_states (b : Builder) (commands : List Command) : b ∈ b.states commands := by
  cases commands with
  | nil => exact List.mem_cons_self
  | cons => exact List.mem_cons_self

theorem single_of_mem_steps {b : Builder} {commands : List Command} {step : Command}
    (h : step ∈ b.steps commands) : step.Single := by
  induction commands generalizing b with
  | nil => cases h
  | cons c rest ih =>
      rcases List.mem_append.mp h with hnow | hlater
      · exact Command.single_of_mem_steps hnow
      · exact ih hlater

end Builder

end ManagedCode
