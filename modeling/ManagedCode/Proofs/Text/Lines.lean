import ManagedCode.Text.Scan

namespace ManagedCode.Text

/-! The lines of a text that is put together from parts. -/

theorem split_append (sep : Char) (before after : List Char) :
    split sep (before ++ sep :: after) = split sep before ++ split sep after := by
  induction before with
  | nil => simp [split]
  | cons c before ih =>
      rw [List.cons_append, split, split]
      by_cases hc : c = sep
      · rw [if_pos hc, if_pos hc, ih, List.cons_append]
      · rw [if_neg hc, if_neg hc, ih]
        cases hpieces : split sep before with
        | nil => exact absurd hpieces (split_ne_nil sep before)
        | cons piece pieces => rfl

theorem split_of_not_mem {sep : Char} {text : List Char} (h : sep ∉ text) :
    split sep text = [text] := by
  induction text with
  | nil => rfl
  | cons c text ih =>
      obtain ⟨hc, htext⟩ := List.ne_and_not_mem_of_not_mem_cons h
      rw [split, if_neg (Ne.symm hc), ih htext]

theorem mem_split {sep c : Char} {text : List Char} (h : c ∈ text) :
    c = sep ∨ ∃ piece ∈ split sep text, c ∈ piece := by
  induction text with
  | nil => cases h
  | cons d text ih =>
      by_cases hd : d = sep
      · rw [split, if_pos hd]
        rcases List.mem_cons.mp h with rfl | htext
        · exact .inl hd
        · refine (ih htext).imp_right ?_
          rintro ⟨piece, hpiece, hc⟩
          exact ⟨piece, List.mem_cons_of_mem [] hpiece, hc⟩
      · rw [split, if_neg hd]
        cases hpieces : split sep text with
        | nil => exact absurd hpieces (split_ne_nil sep text)
        | cons first rest =>
            rw [hpieces] at ih
            rcases List.mem_cons.mp h with rfl | htext
            · exact .inr ⟨c :: first, List.mem_cons_self, List.mem_cons_self⟩
            · refine (ih htext).imp_right ?_
              rintro ⟨piece, hpiece, hc⟩
              rcases List.mem_cons.mp hpiece with rfl | hrest
              · exact ⟨d :: piece, List.mem_cons_self, List.mem_cons_of_mem d hc⟩
              · exact ⟨piece, List.mem_cons_of_mem _ hrest, hc⟩

/-- A carriage return at the end of a line belongs to the newline behind it. -/
def dropReturn (line : List Char) : List Char :=
  (before? ['\r'] line).getD line

theorem dropReturn_cases (line : List Char) :
    dropReturn line = line ∨ line = dropReturn line ++ ['\r'] := by
  unfold dropReturn
  cases hbefore : before? ['\r'] line with
  | none => exact .inl rfl
  | some rest => exact .inr (before?_eq_some_iff.mp hbefore)

theorem ofPieces_append {first rest : List (List Char)} (h : rest ≠ []) :
    lines.ofPieces (first ++ rest) = first.map dropReturn ++ lines.ofPieces rest := by
  induction first with
  | nil => rfl
  | cons piece first ih =>
      have hmore : first ++ rest ≠ [] := List.append_ne_nil_of_right_ne_nil first h
      rw [List.map_cons, List.cons_append, List.cons_append, ← ih, lines.ofPieces]
      · rfl
      · exact hmore

theorem lines_newline (before after : List Char) :
    lines (before ++ '\n' :: after) = (split '\n' before).map dropReturn ++ lines after := by
  rw [lines, split_append]
  exact ofPieces_append (split_ne_nil '\n' after)

/-- Whatever follows starts on a line of its own. -/
def EndsLine (text : List Char) : Prop := text = [] ∨ text.getLast? = some '\n'

theorem endsLine_newline (text : String) : EndsLine (text ++ "\n").toList :=
  .inr (by simp)

theorem lines_append {before : List Char} (h : EndsLine before) (after : List Char) :
    lines (before ++ after) = lines before ++ lines after := by
  rcases h with rfl | hlast
  · rfl
  · obtain ⟨text, rfl⟩ := List.getLast?_eq_some_iff.mp hlast
    rw [List.append_assoc, List.singleton_append, lines_newline, lines_newline]
    simp [lines, split, lines.ofPieces]

theorem lines_cons {line : List Char} (h : '\n' ∉ line) (after : List Char) :
    lines (line ++ '\n' :: after) = dropReturn line :: lines after := by
  rw [lines_newline, split_of_not_mem h]
  rfl

theorem lines_last {line : List Char} (h : '\n' ∉ line) :
    lines line = if line.isEmpty then [] else [line] := by
  rw [lines, split_of_not_mem h, lines.ofPieces]

end ManagedCode.Text
