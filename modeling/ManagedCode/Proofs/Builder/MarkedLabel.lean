import ManagedCode.Graph.Library
import ManagedCode.Proofs.Builder.Run
import ManagedCode.Proofs.StackType.Flow

namespace ManagedCode

/-! Branches back to a label that is already marked. -/

namespace Command

variable {c : Command} {b : Builder} {l : Label} {state state' : LabelState} {shape : Shape}

theorem record_of_marked (hmarked : state.marked = true) (hshape : state.shape.isSome = true)
    (arriving : Shape) : state.record arriving = state := by
  obtain ⟨recorded, hrecorded⟩ := Option.isSome_iff_exists.mp hshape
  rw [LabelState.record, hrecorded]
  exact if_pos hmarked

/-- A mark is final. -/
theorem Evolves.of_marked (h : c.Evolves b l state state') (hmarked : state.marked = true)
    (hshape : state.shape.isSome = true) : state' = state := by
  cases h with
  | same => rfl
  | arrive => exact record_of_marked hmarked hshape _
  | mark hopen | fallInto hopen | widen hopen =>
      rw [hmarked] at hopen
      cases hopen

theorem apply_of_marked (c : Command) (hstate : b.labels[l]? = some state)
    (hmarked : state.marked = true) (hshape : state.shape.isSome = true) :
    (c.apply b).labels[l]? = some state := by
  obtain ⟨state', hstate', hevolves⟩ := (c.develops b).known hstate
  rw [hstate', hevolves.of_marked hmarked hshape]

/-- Every target of an accepted branch accepts the stack that the branch hands over. -/
theorem accepts_of_branch {i : Branch} (haccepted : (branch i).accepted b = true)
    (hl : l ∈ i.targets) (hshape : b.propagated? i = some shape)
    (hstate : b.labels[l]? = some state) : state.accepts shape = true := by
  have harrival := mem_arrivals_of_branch haccepted hl hshape
  obtain ⟨known, hknown, haccepts, -⟩ := labels_of_mem_arrivals harrival
  cases hstate.symm.trans hknown
  exact haccepts

end Command

namespace Builder

open Command

theorem run_of_marked {b : Builder} {l : Label} {state : LabelState} (commands : List Command)
    (hstate : b.labels[l]? = some state) (hmarked : state.marked = true)
    (hshape : state.shape.isSome = true) : (b.run commands).labels[l]? = some state := by
  induction commands generalizing b with
  | nil => exact hstate
  | cons c rest ih => exact ih (c.apply_of_marked hstate hmarked hshape)

/-- The code behind the mark counts on null, and a string comes to it. -/
theorem null_supplanted :
    let b := ((new .library [] none).run [.push .ldnull, .defineLabel "L", .mark 0]).run
      [.push .pop, .push (.ldstr "x")]
    b.labels[0]? = some ⟨"L", some [.zero], true⟩ ∧
      (Command.branch (.br 0)).accepted b = true ∧
      b.propagated? (.br 0) = some [.simple .string] ∧
      ¬ List.Forall₂ StackType.Enters [.simple .string] [.zero] := by
  refine ⟨rfl, rfl, rfl, fun h => ?_⟩
  cases StackType.eq_zero_of_enters (List.forall₂_cons.mp h).1

/-- What a branch brings to a marked label is, slot by slot, as good as what is on record there, or
null, or a value in place of null. All of it is safe if and only if no value takes the place of
null. -/
theorem branch_to_marked_label (g : Graph) (arguments : List Ty) (result : Option Ty)
    (before between : List Command) (l : Label) (name : String) (recorded arriving : Shape)
    (i : Branch)
    (hmarked : ((new g arguments result).run before).labels[l]? = some ⟨name, some recorded, true⟩)
    (haccepted :
      (Command.branch i).accepted (((new g arguments result).run before).run between) = true)
    (htarget : l ∈ i.targets)
    (harriving : (((new g arguments result).run before).run between).propagated? i = some arriving) :
    ((Command.branch i).apply (((new g arguments result).run before).run between)).labelShape? l =
        some recorded ∧
      List.Forall₂ (fun s t => s.Enters t ∨ s.Supplants t) arriving recorded ∧
      (List.Forall₂ StackType.Enters arriving recorded ↔
        List.Forall₂ (fun s t => t = .zero → s = .zero) arriving recorded) := by
  generalize (new g arguments result).run before = b at *
  have hstate := run_of_marked between hmarked rfl rfl
  have hflows : List.Forall₂ (fun s t => s.flowsInto t = true) arriving recorded :=
    Shape.flowsInto_iff.mp (accepts_of_branch haccepted htarget harriving hstate)
  refine ⟨?_, ?_, ?_⟩
  · have hkept := apply_of_marked (.branch i) hstate rfl rfl
    simp only [labelShape?, hkept, Option.bind_some]
  · exact hflows.imp fun _ _ => StackType.flowsInto_iff.mp
  · constructor
    · exact List.Forall₂.mp (fun _ _ h => (StackType.enters_iff_of_flowsInto h).mp) hflows
    · exact List.Forall₂.mp (fun _ _ h => (StackType.enters_iff_of_flowsInto h).mpr) hflows

theorem branch_to_marked_label_nulls :
    let start := (new .library [.string] none).run
      [.push (.ldarg 0), .push .ldnull, .defineLabel "L", .mark 0]
    let b := start.run [.push .pop, .push .pop, .push .ldnull, .push .ldnull]
    let recorded : Shape := [.zero, .simple .string]
    let arriving : Shape := [.zero, .zero]
    start.labels[0]? = some ⟨"L", some recorded, true⟩ ∧
      ((Command.branch (.br 0)).apply b).labelShape? 0 = some recorded ∧
        List.Forall₂ (fun s t => s.Enters t ∨ s.Supplants t) arriving recorded ∧
        (List.Forall₂ StackType.Enters arriving recorded ↔
          List.Forall₂ (fun s t => t = .zero → s = .zero) arriving recorded) :=
  ⟨rfl, branch_to_marked_label .library [.string] none _ _ 0 "L" _ _ (.br 0) rfl rfl
    (List.mem_singleton_self 0) rfl⟩

end Builder

end ManagedCode
