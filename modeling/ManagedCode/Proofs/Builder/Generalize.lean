import ManagedCode.Proofs.Builder.Run
import ManagedCode.Proofs.StackType.Symmetry

namespace ManagedCode

/-! The top of the stack is generalized for a label wherever it can be joined with what is on record
there. -/

open StackType Emit

theorem EvalStack.peek?_retypeTop {stack : EvalStack} {top : StackType}
    (h : stack.peek? = some top) (t : StackType) : (stack.retypeTop t).peek? = some t := by
  rcases stack with ⟨_ | ⟨e, rest⟩, next⟩
  · cases h
  · rfl

namespace Builder

variable {g : Graph} {b : Builder} {l : Label} {stack : EvalStack} {top recorded : StackType}
  {rest : Shape}

theorem generalize_of_fits {general : StackType} (hcurrent : b.current = some stack)
    (hpeek : stack.peek? = some top) (hfits : top.fits b.graph general = true) :
    (generalize general).on b =
      (.ok (), { b with current := some (stack.retypeTop general) }) := by
  unfold generalize
  rw [on_bind, on_get]
  simp only [hcurrent, on_generalizeTop hpeek, hfits]
  rfl

theorem generalizeForLabel_eq (hshape : b.labelShape? l = some (recorded :: rest))
    (htop : b.current.bind EvalStack.peek? = some top) :
    ∃ state, b.labels[l]? = some state ∧ (generalizeForLabel l).on b =
      match top.join b.graph recorded with
      | some joined =>
        (generalize joined >>= fun _ => (modify fun b =>
          { b with labels := b.labels.modify l (widenTop · joined) } : Emit Unit)).on b
      | none =>
        (.error (.rejected (.generalizeFor state.name)
          (.mismatch (.stackType recorded) (.value top))), b) := by
  obtain ⟨state, hstate, hrecorded⟩ := labelShape?_eq_some.mp hshape
  refine ⟨state, hstate, ?_⟩
  unfold generalizeForLabel
  rw [on_bind, on_get]
  simp only []
  rw [on_bind, on_liftM, labelState_ok.mpr hstate]
  simp only [hrecorded, htop]
  cases top.join b.graph recorded with
  | none => rfl
  | some joined => rfl

theorem generalizeForLabel_of_join {joined : StackType}
    (hshape : b.labelShape? l = some (recorded :: rest))
    (htop : b.current.bind EvalStack.peek? = some top)
    (hjoin : top.join b.graph recorded = some joined) (hfits : top.fits b.graph joined = true) :
    ∃ c, (generalizeForLabel l).on b = (.ok (), c) ∧
      c.current.bind EvalStack.peek? = some joined := by
  obtain ⟨state, -, hrun⟩ := generalizeForLabel_eq hshape htop
  obtain ⟨stack, hcurrent, hpeek⟩ := Option.bind_eq_some_iff.mp htop
  rw [hrun, hjoin]
  simp only []
  rw [on_bind, generalize_of_fits hcurrent hpeek hfits]
  exact ⟨_, rfl, EvalStack.peek?_retypeTop hpeek joined⟩

/-- Two values are joined from either side or from neither. Both of them fit their join, and the
joins from the two sides fit each other. So a value is generalized for a label whenever it can be
joined with what is on record there. -/
theorem joined_from_either_side (hbuilt : g.Built) (htame : g.Tame) {s t : StackType}
    (hs : s.Proper g) (ht : t.Proper g) :
    (s.join g t).isSome = (t.join g s).isSome ∧
    (∀ joined, s.join g t = some joined → s.fits g joined = true ∧ t.fits g joined = true) ∧
    (∀ joined other, s.join g t = some joined → t.join g s = some other →
      joined.fits g other = true ∧ other.fits g joined = true) ∧
    ∀ (b : Builder) (l : Label) (rest : Shape), b.graph = g →
      b.labelShape? l = some (t :: rest) → b.current.bind EvalStack.peek? = some s →
      (∀ joined, s.join g t = some joined → ∃ c, (generalizeForLabel l).on b = (.ok (), c) ∧
        c.current.bind EvalStack.peek? = some joined) ∧
      (s.join g t = none → ∃ e, (generalizeForLabel l).on b = (.error e, b)) := by
  have hsound := hbuilt.sound
  have hbounds : ∀ joined, s.join g t = some joined →
      s.fits g joined = true ∧ t.fits g joined = true := fun _ =>
    fits_of_join htame hsound hs.known ht.known
  refine ⟨isSome_join_comm htame hsound hs ht, hbounds, ?_, ?_⟩
  · intro joined other hjoin hother
    obtain ⟨other', hother', hfits⟩ := join_sides htame hsound hs ht hjoin
    cases hother.symm.trans hother'
    exact hfits
  · rintro b l rest rfl hshape htop
    refine ⟨fun joined hjoin => ?_, fun hjoin => ?_⟩
    · exact generalizeForLabel_of_join hshape htop hjoin (hbounds joined hjoin).1
    · obtain ⟨state, -, hrun⟩ := generalizeForLabel_eq hshape htop
      rw [hrun, hjoin]
      exact ⟨_, rfl⟩

namespace Sample

/-- A string is on the stack, and an array is on record at the label. -/
def mixed : Builder :=
  { new .library [.string, .arrayOf .int32] none with
    labels := [⟨"L", some [simple (.arrayOf .int32)], false⟩]
    current := some (.ofShape [simple .string]) }

end Sample

open Sample in
theorem joined_from_either_side_collections :
    let text := simple .string
    let numbers := simple (.arrayOf .int32)
    let collection := complex .object (.ofList [.interface .cloneable, .interface .enumerable])
    text.join .library numbers = some collection ∧ numbers.fits .library collection = true ∧
      (numbers.join .library text).isSome = true ∧
      ∃ c, (generalizeForLabel 0).on mixed = (.ok (), c) ∧
        c.current.bind EvalStack.peek? = some collection := by
  intro text numbers collection
  have hsound := Graph.Built.library.sound
  have htext : text.Proper .library := hsound.knows_library (by decide)
  have hnumbers : numbers.Proper .library := ⟨rfl, hsound.knows_library (by decide)⟩
  have hjoin : text.join .library numbers = some collection := by decide +kernel
  obtain ⟨hsides, hbounds, -, hgeneralize⟩ :=
    joined_from_either_side .library Graph.tame_library htext hnumbers
  rw [hjoin] at hsides
  have hgraph : mixed.graph = .library := by simp only [mixed, new]
  refine ⟨hjoin, (hbounds collection hjoin).2, hsides.symm, ?_⟩
  exact (hgeneralize mixed 0 [] hgraph rfl rfl).1 collection hjoin

end Builder

end ManagedCode
