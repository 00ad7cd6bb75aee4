import ManagedCode.Graph.Library
import ManagedCode.Proofs.Builder.Edit

namespace ManagedCode

/-! Local variables. A local keeps its index for good, and every 16-bit word is an index. -/

namespace Command

/-- The index that a declaration answers, and the type of the local. -/
def declared? (c : Command) (b : Builder) : Option (UInt16 × Ty) :=
  match c with
  | declareLocal t => ((Builder.declareLocal t).on b).1.toOption.map (·, t)
  | _ => none

end Command

namespace Builder

variable {b b' : Builder} {t : Ty} {index : UInt16}

/-- The accepted declarations of a run, in their order. -/
def declared (b : Builder) : List Command → List (UInt16 × Ty)
  | [] => []
  | c :: rest => (c.declared? b).toList ++ (c.apply b).declared rest

/-- Locals are only added at the end, and only while the number of locals is a 16-bit word. -/
theorem Edit.locals (h : b.Edit b') :
    b'.locals = b.locals ∨ b.locals.size < UInt16.size ∧ ∃ t, b'.locals = b.locals.push t := by
  cases h with
  | declareLocal t hroom => exact .inr ⟨hroom, t, rfl⟩
  | settings | define | push | reject | branch | mark | retype | widen | beginTry | beginCatch
  | beginFinally | close => exact .inl rfl

theorem Edit.size_locals_le (h : b.Edit b') (hb : b.locals.size ≤ UInt16.size) :
    b'.locals.size ≤ UInt16.size := by
  rcases h.locals with hsame | ⟨hroom, t, hpush⟩
  · rw [hsame]
    exact hb
  · rw [hpush, Array.size_push]
    exact hroom

theorem Edit.le_size_locals (h : b.Edit b') {count : Nat} (hb : count ≤ b.locals.size) :
    count ≤ b'.locals.size := by
  rcases h.locals with hsame | ⟨-, t, hpush⟩
  · rw [hsame]
    exact hb
  · rw [hpush, Array.size_push]
    exact Nat.le_succ_of_le hb

theorem Edit.getElem?_locals (h : b.Edit b') {place : Nat} (hb : b.locals[place]? = some t) :
    b'.locals[place]? = some t := by
  rcases h.locals with hsame | ⟨-, u, hpush⟩
  · rw [hsame]
    exact hb
  · have hplace : place < b.locals.size := (Array.getElem?_eq_some_iff.mp hb).1
    rw [hpush, Array.getElem?_push, if_neg (Nat.ne_of_lt hplace)]
    exact hb

theorem le_size_locals_run (b : Builder) (commands : List Command) :
    b.locals.size ≤ (b.run commands).locals.size :=
  run_keeps (P := fun b' => b.locals.size ≤ b'.locals.size) (fun h hle => h.le_size_locals hle)
    (Nat.le_refl _) commands

theorem locals_apply_declareLocal (hroom : b.locals.size < UInt16.size) (t : Ty) :
    ((Command.declareLocal t).apply b).locals = b.locals.push t := by
  unfold Command.apply Command.perform
  rw [Emit.on_bind, on_declareLocal, if_pos hroom]
  rfl

/-- A new local has the first index that is free. -/
theorem of_declared? {c : Command} (h : c.declared? b = some (index, t)) :
    index.toNat = b.locals.size ∧ (c.apply b).locals = b.locals.push t := by
  cases c with
  | declareLocal u =>
      rw [Command.declared?, on_declareLocal] at h
      split at h
      · rename_i hroom
        cases h
        exact ⟨UInt16.toNat_ofNat_of_lt' hroom, locals_apply_declareLocal hroom t⟩
      · cases h
  | _ => cases h

theorem le_of_mem_declared {commands : List Command} (h : (index, t) ∈ b.declared commands) :
    b.locals.size ≤ index.toNat := by
  induction commands generalizing b with
  | nil => cases h
  | cons c rest ih =>
      rcases List.mem_append.mp h with hfirst | hrest
      · have hdeclared := of_declared? (Option.mem_toList.mp hfirst)
        exact Nat.le_of_eq hdeclared.1.symm
      · exact Nat.le_trans (b.le_size_locals_run [c]) (ih hrest)

theorem local_of_mem_declared {commands : List Command} (h : (index, t) ∈ b.declared commands) :
    (b.run commands).locals[index.toNat]? = some t := by
  induction commands generalizing b with
  | nil => cases h
  | cons c rest ih =>
      rcases List.mem_append.mp h with hfirst | hrest
      · obtain ⟨hindex, hlocals⟩ := of_declared? (Option.mem_toList.mp hfirst)
        have hnew : (c.apply b).locals[index.toNat]? = some t := by
          rw [hlocals, hindex]
          exact Array.getElem?_push_size
        exact run_keeps (P := fun b' => b'.locals[index.toNat]? = some t)
          (fun h hlocal => h.getElem?_locals hlocal) hnew rest
      · exact ih hrest

theorem nodup_declared (b : Builder) (commands : List Command) :
    ((b.declared commands).map Prod.fst).Nodup := by
  induction commands generalizing b with
  | nil => exact List.nodup_nil
  | cons c rest ih =>
      rw [declared]
      cases hfirst : c.declared? b with
      | none => exact ih (c.apply b)
      | some first =>
          obtain ⟨hindex, hlocals⟩ := of_declared? hfirst
          refine List.nodup_cons.mpr ⟨?_, ih (c.apply b)⟩
          intro hagain
          obtain ⟨later, hlater, hsame⟩ := List.mem_map.mp hagain
          have hle := le_of_mem_declared hlater
          rw [hsame, hindex, hlocals, Array.size_push] at hle
          omega

theorem size_locals_replicate {count : Nat} (hroom : b.locals.size + count ≤ UInt16.size) (t : Ty) :
    (b.run (List.replicate count (.declareLocal t))).locals.size = b.locals.size + count := by
  induction count generalizing b with
  | zero => rfl
  | succ count ih =>
      have hfirst : b.locals.size < UInt16.size := by omega
      have hsize : ((Command.declareLocal t).apply b).locals.size = b.locals.size + 1 := by
        rw [locals_apply_declareLocal hfirst, Array.size_push]
      rw [List.replicate_succ, run, ih (by omega), hsize]
      omega

/-- There is room for as many locals as there are 16-bit words. While there is room, a declaration
is accepted, and otherwise it changes nothing. A local stays where its index says, and no two
locals have the same index. -/
theorem locals_numbered (g : Graph) (arguments : List Ty) (result : Option Ty)
    (commands : List Command) :
    let start := new g arguments result
    let b := start.run commands
    b.locals.size ≤ UInt16.size ∧
      (∀ t, (declareLocal t).on b =
        if b.locals.size = UInt16.size then
          (.error (.rejected (.declareLocal t) (.operand .tooManyLocals)), b)
        else (.ok (.ofNat b.locals.size), { b with locals := b.locals.push t })) ∧
      (∀ index t, (index, t) ∈ start.declared commands → b.locals[index.toNat]? = some t) ∧
      ((start.declared commands).map Prod.fst).Nodup := by
  intro start b
  have hbound : b.locals.size ≤ UInt16.size :=
    run_keeps (P := fun b' => b'.locals.size ≤ UInt16.size) Edit.size_locals_le (Nat.zero_le _)
      commands
  refine ⟨hbound, ?_, fun index t => local_of_mem_declared, nodup_declared start commands⟩
  intro t
  rw [on_declareLocal]
  by_cases hfull : b.locals.size = UInt16.size
  · rw [if_pos hfull, if_neg (by omega)]
  · rw [if_neg hfull, if_pos (by omega)]

/-- The second local of a run in which the first one has been written to. -/
theorem locals_numbered_string :
    let commands : List Command :=
      [.declareLocal .int32, .push (.ldcI4 7), .push (.stloc 0), .declareLocal .string]
    ((1, .string) : UInt16 × Ty) ∈ (new .library [] none).declared commands ∧
      ((new .library [] none).run commands).locals[1]? = some .string := by
  intro commands
  have hdeclared : ((1, .string) : UInt16 × Ty) ∈ (new .library [] none).declared commands :=
    List.mem_cons_of_mem _ List.mem_cons_self
  obtain ⟨-, -, hlocals, -⟩ := locals_numbered .library [] none commands
  exact ⟨hdeclared, hlocals 1 .string hdeclared⟩

theorem declareLocal_of_last (hsize : b.locals.size = 65535) (t : Ty) :
    ((declareLocal t).on b).1 = .ok 65535 ∧ ((declareLocal t).on b).2.locals.size = 65536 := by
  rw [on_declareLocal, hsize, if_pos (by decide)]
  refine ⟨rfl, ?_⟩
  rw [Array.size_push, hsize]

/-- One more local than the message of the error allows. -/
theorem local_beyond_limit :
    let b := (new .library [] none).run (List.replicate 65535 (.declareLocal .int32))
    OperandFault.tooManyLocals.text = "a method body can have at most 65535 locals" ∧
      b.locals.size = 65535 ∧ ((declareLocal .int32).on b).1 = .ok 65535 ∧
      ((declareLocal .int32).on b).2.locals.size = 65536 := by
  have hstart : (new .library [] none).locals.size = 0 := rfl
  have hroom : (new .library [] none).locals.size + 65535 ≤ UInt16.size := by
    rw [hstart]
    decide
  have hsize := size_locals_replicate hroom .int32
  rw [hstart, Nat.zero_add] at hsize
  exact ⟨rfl, hsize, declareLocal_of_last hsize .int32⟩

end Builder

end ManagedCode
