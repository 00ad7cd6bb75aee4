import ManagedCode.Text.Scan
import Mathlib.Data.List.Basic
import Mathlib.Data.List.TakeWhile

namespace ManagedCode.Text

/-! Trimming takes off the blanks around a text, and nothing else. -/

def Blanks (text : List Char) : Prop := ∀ c ∈ text, isBlank c = true

/-- Neither begins nor ends with a blank. -/
structure Trimmed (text : List Char) : Prop where
  head : ∀ c ∈ text.head?, isBlank c = false
  last : ∀ c ∈ text.getLast?, isBlank c = false

variable {lead core tail text : List Char}

theorem blanks_nil : Blanks [] := fun _ => nofun

theorem blanks_iff : Blanks text ↔ text.all isBlank = true := List.all_eq_true.symm

theorem unbroken_iff : (∀ c ∈ text, isBlank c = false) ↔ text.any isBlank = false := by
  simp

theorem blanks_space : Blanks [' '] := blanks_iff.mpr rfl

theorem Blanks.append (h : Blanks lead) (h' : Blanks tail) : Blanks (lead ++ tail) := by
  intro c hc
  rcases List.mem_append.mp hc with hc | hc
  · exact h c hc
  · exact h' c hc

theorem Blanks.reverse (h : Blanks text) : Blanks text.reverse :=
  fun c hc => h c (List.mem_reverse.mp hc)

theorem trimmed_nil : Trimmed [] := ⟨fun _ => nofun, fun _ => nofun⟩

theorem trimmed_of_unbroken (h : ∀ c ∈ text, isBlank c = false) : Trimmed text where
  head c hc := h c (List.mem_of_mem_head? hc)
  last c hc := h c (List.mem_of_mem_getLast? hc)

theorem Trimmed.between (hlead : Trimmed lead) (hlead' : lead ≠ []) (htail : Trimmed tail)
    (htail' : tail ≠ []) (text : List Char) : Trimmed (lead ++ text ++ tail) where
  head := by
    rw [List.append_assoc, List.head?_append_of_ne_nil lead hlead']
    exact hlead.head
  last := by
    rw [List.getLast?_append_of_ne_nil _ htail']
    exact htail.last

theorem trimStart_blanks (h : Blanks lead) (text : List Char) :
    trimStart (lead ++ text) = trimStart text :=
  List.dropWhile_append_of_pos h

theorem trimEnd_blanks (h : Blanks tail) (text : List Char) :
    trimEnd (text ++ tail) = trimEnd text := by
  rw [trimEnd, trimEnd, List.reverse_append]
  exact congrArg List.reverse (trimStart_blanks h.reverse _)

theorem trimStart_of_head (h : ∀ c ∈ text.head?, isBlank c = false) : trimStart text = text := by
  cases text with
  | nil => rfl
  | cons c rest => exact List.dropWhile_cons_of_neg (by simp [h c rfl])

theorem trimEnd_of_last (h : ∀ c ∈ text.getLast?, isBlank c = false) : trimEnd text = text := by
  rw [← List.head?_reverse] at h
  have hstart := trimStart_of_head h
  rw [trimStart] at hstart
  rw [trimEnd, hstart, List.reverse_reverse]

/-- A text without blanks around it is what is left when they are taken off. -/
theorem trim_of_trimmed (hlead : Blanks lead) (hcore : Trimmed core) (htail : Blanks tail) :
    trim (lead ++ core ++ tail) = core := by
  rw [trim, List.append_assoc, trimStart_blanks hlead]
  cases core with
  | nil =>
      have hstart := trimStart_blanks htail []
      rw [List.append_nil] at hstart
      rw [List.nil_append, hstart]
      rfl
  | cons c rest =>
      have hstart : trimStart (c :: rest ++ tail) = c :: rest ++ tail := trimStart_of_head hcore.head
      rw [hstart, trimEnd_blanks htail, trimEnd_of_last hcore.last]

theorem trim_eq_self (h : Trimmed core) : trim core = core := by
  simpa using trim_of_trimmed blanks_nil h blanks_nil

theorem exists_trimStart (text : List Char) :
    ∃ lead, Blanks lead ∧ text = lead ++ trimStart text :=
  ⟨text.takeWhile isBlank, List.all_eq_true.mp List.all_takeWhile,
    List.takeWhile_append_dropWhile.symm⟩

theorem exists_trimEnd (text : List Char) :
    ∃ tail, Blanks tail ∧ text = trimEnd text ++ tail := by
  obtain ⟨lead, hlead, htext⟩ := exists_trimStart text.reverse
  refine ⟨lead.reverse, hlead.reverse, ?_⟩
  have hreverse := congrArg List.reverse htext
  rwa [List.reverse_append, List.reverse_reverse] at hreverse

theorem head_trimStart (text : List Char) : ∀ c ∈ (trimStart text).head?, isBlank c = false := by
  intro c hc
  have hhead := List.head?_dropWhile_not isBlank text
  rw [trimStart, Option.mem_def] at hc
  rw [hc] at hhead
  simpa using hhead

theorem last_trimEnd (text : List Char) : ∀ c ∈ (trimEnd text).getLast?, isBlank c = false := by
  rw [trimEnd, List.getLast?_reverse]
  exact head_trimStart text.reverse

theorem trimStart_append (h : trimStart text ≠ []) (more : List Char) :
    trimStart (text ++ more) = trimStart text ++ more := by
  have hsome : ¬ (text.dropWhile isBlank).isEmpty = true := by rwa [List.isEmpty_iff]
  rw [trimStart, List.dropWhile_append, if_neg hsome]
  rfl

theorem trimmed_trim (text : List Char) : Trimmed (trim text) where
  head := by
    obtain ⟨tail, -, htext⟩ := exists_trimEnd (trimStart text)
    intro c hc
    refine head_trimStart text c ?_
    rw [htext, List.head?_append]
    exact Option.mem_def.mpr (Option.or_eq_some_iff.mpr (.inl hc))
  last := last_trimEnd _

theorem exists_trim (text : List Char) :
    ∃ lead tail, Blanks lead ∧ Blanks tail ∧ text = lead ++ trim text ++ tail := by
  obtain ⟨lead, hlead, hstart⟩ := exists_trimStart text
  obtain ⟨tail, htail, hend⟩ := exists_trimEnd (trimStart text)
  refine ⟨lead, tail, hlead, htail, ?_⟩
  rw [List.append_assoc, trim, ← hend, ← hstart]

theorem trim_append_blanks (h : Blanks tail) (text : List Char) :
    trim (text ++ tail) = trim text := by
  obtain ⟨lead, behind, hlead, hbehind, htext⟩ := exists_trim text
  have htrim := trim_of_trimmed hlead (trimmed_trim text) (hbehind.append h)
  rwa [← List.append_assoc, ← htext] at htrim

/-- Behind a blank there is more to come, if there are no blanks at the end. -/
theorem Trimmed.exists_behind {b : Char} (h : Trimmed (lead ++ b :: tail)) (hb : isBlank b = true) :
    ∃ c more, trimStart tail = c :: more ∧ c ∈ tail ∧ isBlank c = false := by
  have hleft : trimStart tail ≠ [] := by
    intro hnone
    have hblanks : Blanks (b :: tail) :=
      List.forall_mem_cons.mpr ⟨hb, List.dropWhile_eq_nil_iff.mp hnone⟩
    have hlast := h.last ((b :: tail).getLast (List.cons_ne_nil b tail)) (by
      rw [List.getLast?_append_of_ne_nil lead (List.cons_ne_nil b tail)]
      exact List.getLast?_eq_some_getLast _)
    simp [hblanks _ (List.getLast_mem _)] at hlast
  obtain ⟨c, more, hcons⟩ := List.exists_cons_of_ne_nil hleft
  refine ⟨c, more, hcons, ?_, head_trimStart tail c (by simp [hcons])⟩
  have hmem : c ∈ trimStart tail := hcons ▸ List.mem_cons_self
  exact (List.dropWhile_suffix isBlank).subset hmem

end ManagedCode.Text
