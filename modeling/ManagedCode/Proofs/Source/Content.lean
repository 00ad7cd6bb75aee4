import ManagedCode.Proofs.Text.Blank
import ManagedCode.Proofs.Text.Lines
import ManagedCode.Source.Method

namespace ManagedCode.Source

/-! What a line says, whatever blanks and comments stand around it. -/

open Text

/-- Without anything that could start a comment or a literal. -/
def Plain (text : List Char) : Prop := ∀ c ∈ text, c ≠ '/' ∧ c ≠ '"'

theorem Plain.append {text more : List Char} (h : Plain text) (h' : Plain more) :
    Plain (text ++ more) := by
  intro c hc
  rcases List.mem_append.mp hc with hc | hc
  · exact h c hc
  · exact h' c hc

theorem plain_iff {text : List Char} :
    Plain text ↔ (text.all fun c => c != '/' && c != '"') = true := by
  simp [Plain]

theorem plain_of_blanks {blanks : List Char} (h : Blanks blanks) : Plain blanks := by
  intro c hc
  have hblank := h c hc
  constructor <;> rintro rfl <;> cases hblank

theorem plain_trim {text : List Char} : Plain (trim text) ↔ Plain text := by
  obtain ⟨lead, tail, hlead, htail, htext⟩ := exists_trim text
  constructor
  · intro h
    rw [htext]
    exact ((plain_of_blanks hlead).append h).append (plain_of_blanks htail)
  · intro h c hc
    rw [htext] at h
    exact h c (by simp [hc])

@[simp] theorem stripComment_nil (quoted : Bool) : stripComment quoted [] = [] := by
  cases quoted <;> rfl

theorem stripComment_cons (quoted : Bool) {c : Char} (hslash : quoted = false → c ≠ '/')
    (hescape : quoted = true → c ≠ '\\') (rest : List Char) :
    stripComment quoted (c :: rest) =
      c :: stripComment (if c = '"' then !quoted else quoted) rest := by
  rw [stripComment]
  · intro _ hquoted hc _
    exact hslash hquoted hc
  · intro _ _ hquoted hc _
    exact hescape hquoted hc

/-- No comment starts in the text, and it leaves no quote open. -/
def Closed (text : List Char) : Prop :=
  ∀ rest, stripComment false (text ++ rest) = text ++ stripComment false rest

theorem Closed.append {text more : List Char} (h : Closed text) (h' : Closed more) :
    Closed (text ++ more) := by
  intro rest
  rw [List.append_assoc, h, h', List.append_assoc]

theorem Plain.closed {text : List Char} (h : Plain text) : Closed text := by
  intro rest
  induction text with
  | nil => rfl
  | cons c text ih =>
      obtain ⟨⟨hslash, hquote⟩, htext⟩ := List.forall_mem_cons.mp h
      rw [List.cons_append, stripComment_cons false (fun _ => hslash) nofun, if_neg hquote,
        ih htext, List.cons_append]

theorem closed_of_blanks {blanks : List Char} (h : Blanks blanks) : Closed blanks :=
  (plain_of_blanks h).closed

/-- Blanks on one line, perhaps with a comment behind them. -/
inductive Remark : List Char → Prop where
  | blanks {blanks : List Char} : Blanks blanks → '\n' ∉ blanks → Remark blanks
  | comment {blanks text : List Char} : Blanks blanks → '\n' ∉ blanks → '\n' ∉ text →
      Remark (blanks ++ '/' :: '/' :: text)

namespace Remark

variable {remark : List Char}

theorem newline_not_mem (h : Remark remark) : '\n' ∉ remark := by
  cases h with
  | blanks _ hline => exact hline
  | comment _ hline htext => simp [hline, htext]

theorem behind_blanks {blanks : List Char} (h : Remark remark) (hblanks : Blanks blanks)
    (hline : '\n' ∉ blanks) : Remark (blanks ++ remark) := by
  cases h with
  | blanks h hline' => exact .blanks (hblanks.append h) (by simp [hline, hline'])
  | comment h hline' htext =>
      rw [← List.append_assoc]
      exact .comment (hblanks.append h) (by simp [hline, hline']) htext

theorem comment_behind_space {text : List Char} (h : '\n' ∉ text) :
    Remark (' ' :: '/' :: '/' :: text) :=
  .comment blanks_space (by decide) h

theorem blanks_stripComment (h : Remark remark) : Blanks (stripComment false remark) := by
  cases h with
  | blanks hblanks =>
      have hstrip := closed_of_blanks hblanks []
      rw [List.append_nil] at hstrip
      rw [hstrip]
      exact hblanks.append blanks_nil
  | comment hblanks =>
      rw [closed_of_blanks hblanks]
      exact hblanks.append blanks_nil

end Remark

/-- A line says what stands between the blanks at its start and what is only a remark. -/
theorem content_eq {lead core tail : List Char} (hlead : Blanks lead) (hcore : Trimmed core)
    (hclosed : Closed core) (htail : Remark tail) : content (lead ++ core ++ tail) = core := by
  rw [content, List.append_assoc, closed_of_blanks hlead, hclosed, ← List.append_assoc]
  exact trim_of_trimmed hlead hcore htail.blanks_stripComment

theorem content_remark {line : List Char} (h : Remark line) : content line = [] :=
  content_eq blanks_nil trimmed_nil (fun _ => rfl) h

-- A carriage return ends no comment and no escape that is still open.
theorem stripComment_return (quoted : Bool) (line : List Char) :
    ∃ blanks, Blanks blanks ∧
      stripComment quoted (line ++ ['\r']) = stripComment quoted line ++ blanks := by
  have hreturn : Blanks ['\r'] := blanks_iff.mpr rfl
  have halone : ∀ quoted, stripComment quoted ['\r'] = ['\r'] := by decide
  fun_induction stripComment quoted line with
  | case1 quoted =>
      refine ⟨['\r'], hreturn, ?_⟩
      rw [List.nil_append, halone]
  | case2 => exact ⟨[], blanks_nil, rfl⟩
  | case3 c rest ih =>
      obtain ⟨blanks, hblanks, hrest⟩ := ih
      refine ⟨blanks, hblanks, ?_⟩
      simp only [List.cons_append, stripComment, hrest]
  | case4 quoted c rest hcomment hescape ih =>
      cases rest with
      | nil =>
          refine ⟨['\r'], hreturn, ?_⟩
          rw [stripComment_nil, List.singleton_append]
          by_cases hopen : quoted = true ∧ c = '\\'
          · obtain ⟨rfl, rfl⟩ := hopen
            rfl
          · rw [stripComment, halone]
            · rintro tail - - ⟨⟩
            · intro _ _ hquoted hc _
              exact hopen ⟨hquoted, hc⟩
      | cons d rest =>
          obtain ⟨blanks, hblanks, hrest⟩ := ih
          refine ⟨blanks, hblanks, ?_⟩
          rw [List.cons_append, stripComment, hrest, List.cons_append]
          · intro tail hquoted hc htext
            obtain ⟨rfl, -⟩ := List.cons.inj htext
            exact hcomment rest hquoted hc rfl
          · intro e tail hquoted hc htext
            exact hescape d rest hquoted hc rfl

theorem content_dropReturn (line : List Char) : content (dropReturn line) = content line := by
  rcases dropReturn_cases line with hsame | hreturn
  · rw [hsame]
  · obtain ⟨blanks, hblanks, hstrip⟩ := stripComment_return false (dropReturn line)
    rw [← hreturn] at hstrip
    rw [content, content, hstrip, trim_append_blanks hblanks]

end ManagedCode.Source
