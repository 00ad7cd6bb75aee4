import ManagedCode.Text.Scan

namespace ManagedCode.Text

/-! Where a text is cut, if more text is put around it. -/

variable {isSep : Char → Bool} {pattern lead text tail before after : List Char}

theorem cut?_append (hbefore : ∀ c ∈ before, isSep c = false) {c : Char} (hc : isSep c = true)
    (after : List Char) : cut? isSep (before ++ c :: after) = some (before, after) := by
  induction before with
  | nil => simp [cut?, hc]
  | cons d before ih =>
      obtain ⟨hd, hbefore⟩ := List.forall_mem_cons.mp hbefore
      rw [List.cons_append, cut?, if_neg (by simp [hd]), ih hbefore]
      rfl

theorem cut?_eq_none : cut? isSep text = none ↔ ∀ c ∈ text, isSep c = false := by
  induction text with
  | nil => simp [cut?]
  | cons c text ih =>
      rw [cut?, List.forall_mem_cons, ← ih]
      by_cases hc : isSep c = true
      · simp [hc]
      · simp [hc]

theorem cutLast?_eq_none : cutLast? isSep text = none ↔ ∀ c ∈ text, isSep c = false := by
  induction text with
  | nil => simp [cutLast?]
  | cons c text ih =>
      rw [List.forall_mem_cons, cutLast?]
      cases hcut : cutLast? isSep text with
      | none => simpa using fun _ => ih.mp hcut
      | some parts =>
          have hsome : ¬ ∀ d ∈ text, isSep d = false := fun hnone => by
            rw [ih.mpr hnone] at hcut
            cases hcut
          simp [hsome]

theorem cutLast?_append (hafter : ∀ c ∈ after, isSep c = false) {c : Char} (hc : isSep c = true)
    (before : List Char) : cutLast? isSep (before ++ c :: after) = some (before, after) := by
  induction before with
  | nil => rw [List.nil_append, cutLast?, cutLast?_eq_none.mpr hafter, if_pos hc]
  | cons d before ih => rw [List.cons_append, cutLast?, ih]

theorem eq_append_of_cutLast? (h : cutLast? isSep text = some (before, after)) :
    ∃ c, isSep c = true ∧ text = before ++ c :: after ∧ ∀ d ∈ after, isSep d = false := by
  induction text generalizing before with
  | nil => cases h
  | cons c text ih =>
      rw [cutLast?] at h
      cases hcut : cutLast? isSep text with
      | some parts =>
          obtain ⟨b, a⟩ := parts
          rw [hcut] at h
          cases h
          obtain ⟨d, hd, rfl, hafter⟩ := ih hcut
          exact ⟨d, hd, rfl, hafter⟩
      | none =>
          rw [hcut] at h
          dsimp only at h
          split at h
          · rename_i hc
            cases h
            exact ⟨c, hc, rfl, cutLast?_eq_none.mp hcut⟩
          · cases h

theorem eq_append_of_cutAt? (h : cutAt? pattern text = some (before, after)) :
    text = before ++ pattern ++ after := by
  fun_induction cutAt? pattern text generalizing before with
  | case1 =>
      obtain ⟨rest, hrest, heq⟩ := Option.map_eq_some_iff.mp h
      cases heq
      exact after?_eq_some_iff.mp hrest
  | case2 c cs rest hrest =>
      cases h
      exact after?_eq_some_iff.mp hrest
  | case3 c cs _ ih =>
      obtain ⟨⟨b, a⟩, hcut, heq⟩ := Option.map_eq_some_iff.mp h
      cases heq
      rw [ih hcut]
      rfl

theorem cutAt?_append_left (hpattern : pattern ≠ []) (h : ∀ c ∈ lead, c ∉ pattern)
    (text : List Char) :
    cutAt? pattern (lead ++ text) =
      (cutAt? pattern text).map fun (before, after) => (lead ++ before, after) := by
  induction lead with
  | nil => simp
  | cons c lead ih =>
      obtain ⟨hc, hlead⟩ := List.forall_mem_cons.mp h
      have hnone : after? pattern (c :: (lead ++ text)) = none := by
        cases pattern with
        | nil => exact absurd rfl hpattern
        | cons p ps => exact if_neg (List.ne_and_not_mem_of_not_mem_cons hc).1.symm
      rw [List.cons_append, cutAt?, hnone]
      dsimp only
      rw [ih hlead, Option.map_map]
      rfl

theorem after?_append_right (h : ∀ c ∈ tail, c ∉ pattern) (text : List Char) :
    after? pattern (text ++ tail) = (after? pattern text).map (· ++ tail) := by
  induction pattern generalizing text with
  | nil => rfl
  | cons p ps ih =>
      cases text with
      | nil =>
          cases tail with
          | nil => rfl
          | cons c tail =>
              have hc := (List.forall_mem_cons.mp h).1
              exact if_neg (List.ne_and_not_mem_of_not_mem_cons hc).1.symm
      | cons c text =>
          have hrest : ∀ d ∈ tail, d ∉ ps := fun d hd hmem => h d hd (List.mem_cons_of_mem p hmem)
          rw [List.cons_append, after?, after?, ih hrest]
          split <;> rfl

theorem cutAt?_append_right (hpattern : pattern ≠ []) (h : ∀ c ∈ tail, c ∉ pattern)
    (text : List Char) :
    cutAt? pattern (text ++ tail) =
      (cutAt? pattern text).map fun (before, after) => (before, after ++ tail) := by
  induction text with
  | nil =>
      have hnone : cutAt? pattern [] = none := by
        cases pattern with
        | nil => exact absurd rfl hpattern
        | cons p ps => rfl
      have htail := cutAt?_append_left hpattern h []
      rw [List.append_nil, hnone] at htail
      rw [List.nil_append, htail, hnone]
      rfl
  | cons c text ih =>
      have hhere := after?_append_right h (c :: text)
      rw [List.cons_append] at hhere
      rw [List.cons_append, cutAt?, cutAt?, hhere]
      cases after? pattern (c :: text) with
      | some rest => rfl
      | none =>
          dsimp only [Option.map_none]
          rw [ih, Option.map_map, Option.map_map]
          rfl

end ManagedCode.Text
