namespace ManagedCode

/-! Search in a finite graph. What is found is what a path inside the domain leads to. -/

variable {α : Type}

/-- A path starts at a seed and never leaves the domain. -/
inductive Reaches (next : α → List α) (domain seeds : List α) : α → Prop where
  | seed {a : α} : a ∈ domain → a ∈ seeds → Reaches next domain seeds a
  | step {a b : α} : Reaches next domain seeds a → b ∈ domain → b ∈ next a →
      Reaches next domain seeds b

def without [DecidableEq α] (a : α) (domain : List α) : List α :=
  domain.filter (· ≠ a)

@[simp] theorem mem_without [DecidableEq α] {a b : α} {domain : List α} :
    b ∈ without a domain ↔ b ∈ domain ∧ b ≠ a := by
  simp [without]

theorem length_without_lt [DecidableEq α] {a : α} {domain : List α} (h : a ∈ domain) :
    (without a domain).length < domain.length :=
  List.length_filter_lt_length_iff_exists.mpr ⟨a, h, by simp⟩

/-- Every visit takes a node out of the domain, so no edge is followed twice and cycles do no
harm. -/
def reachable [DecidableEq α] (next : α → List α) (domain seeds : List α) : List α :=
  match _h : seeds.find? (domain.contains ·) with
  | none => []
  | some a => a :: reachable next (without a domain) (next a ++ seeds)
termination_by domain.length
decreasing_by exact length_without_lt (by simpa using List.find?_some _h)

theorem Reaches.of_without [DecidableEq α] {next : α → List α} {domain seeds : List α} {a b : α}
    (ha : Reaches next domain seeds a)
    (h : Reaches next (without a domain) (next a ++ seeds) b) : Reaches next domain seeds b := by
  induction h with
  | seed hdomain hseed =>
    have hdomain := (mem_without.mp hdomain).1
    rcases List.mem_append.mp hseed with hnext | hseed
    · exact .step ha hdomain hnext
    · exact .seed hdomain hseed
  | step _ hdomain hnext ih => exact .step ih (mem_without.mp hdomain).1 hnext

theorem Reaches.without [DecidableEq α] {next : α → List α} {domain seeds : List α} {a b : α}
    (h : Reaches next domain seeds b) (hne : b ≠ a) :
    Reaches next (without a domain) (next a ++ seeds) b := by
  induction h with
  | seed hdomain hseed =>
    exact .seed (mem_without.mpr ⟨hdomain, hne⟩) (List.mem_append_right _ hseed)
  | @step c d _ hdomain hnext ih =>
    have hdomain := mem_without.mpr ⟨hdomain, hne⟩
    by_cases hc : c = a
    · subst hc
      exact .seed hdomain (List.mem_append_left _ hnext)
    · exact .step (ih hc) hdomain hnext

theorem mem_reachable_iff [DecidableEq α] {next : α → List α} {domain seeds : List α} {b : α} :
    b ∈ reachable next domain seeds ↔ Reaches next domain seeds b := by
  fun_induction reachable next domain seeds with
  | case1 domain seeds hnone =>
    refine ⟨by simp, fun h => ?_⟩
    have hseeds : ∀ c ∈ seeds, c ∉ domain := by simpa using hnone
    induction h with
    | seed hdomain hseed => exact absurd hdomain (hseeds _ hseed)
    | step _ _ _ ih => simp at ih
  | case2 domain seeds a hsome ih =>
    have hdomain : a ∈ domain := by simpa using List.find?_some hsome
    have hself : Reaches next domain seeds a := .seed hdomain (List.mem_of_find?_eq_some hsome)
    constructor
    · intro h
      rcases List.mem_cons.mp h with rfl | h
      · exact hself
      · exact hself.of_without (ih.mp h)
    · intro h
      by_cases hb : b = a
      · exact hb ▸ List.mem_cons_self
      · exact List.mem_cons_of_mem _ (ih.mpr (h.without hb))

end ManagedCode
