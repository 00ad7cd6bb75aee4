import ManagedCode.Proofs.Source.Reading

namespace ManagedCode.Source

/-! The numbers of the lines are noted in what is read, and decide nothing. So a file can be put
together from files, and lines that say nothing can be put into it. -/

open Text

def BodyLine.renumber (f : Nat → Nat) (l : BodyLine) : BodyLine := { l with line := f l.line }

def MethodText.renumber (f : Nat → Nat) (m : MethodText) : MethodText :=
  { m with line := f m.line, body := m.body.map (BodyLine.renumber f) }

def ParseError.renumber (f : Nat → Nat) (e : ParseError) : ParseError := { e with line := f e.line }

def Reading.renumber (f : Nat → Nat) (r : Reading) : Reading :=
  ⟨r.methods.map (MethodText.renumber f), r.current.map (MethodText.renumber f)⟩

/-- An outcome, where the result and the error are numbered differently. -/
def renumbered {α : Type} (f : Nat → Nat) (change : α → α) : Except ParseError α → Except ParseError α
  | .ok a => .ok (change a)
  | .error e => .error (e.renumber f)

section Renumber

variable {f : Nat → Nat}

theorem renumbered_bind {α β : Type} {change : α → α} {change' : β → β}
    {k k' : α → Except ParseError β} (x : Except ParseError α)
    (h : ∀ a, k' (change a) = renumbered f change' (k a)) :
    renumbered f change x >>= k' = renumbered f change' (x >>= k) := by
  cases x with
  | ok a => exact h a
  | error e => rfl

theorem parseHeader_renumber (line : Nat) (header : List Char) :
    parseHeader (f line) header = MethodText.renumber f <$> parseHeader line header := by
  unfold parseHeader
  dsimp only
  split
  · rfl
  · split
    · rfl
    · cases parseList (header.dropWhile (· ≠ '(')) with
      | ok parameters => simp [MethodText.renumber, bind, Except.bind]
      | error fault => rfl

theorem push_renumber (m : MethodText) (line : Nat) (statement : Statement) :
    { m.renumber f with body := (m.renumber f).body.push ⟨f line, statement⟩ } =
      MethodText.renumber f { m with body := m.body.push ⟨line, statement⟩ } := by
  simp [MethodText.renumber, BodyLine.renumber]

theorem extend_renumber (m : MethodText) (line : Nat) (word rest : List Char) :
    (m.renumber f).extend (f line) word rest = MethodText.renumber f <$> m.extend line word rest := by
  unfold MethodText.extend
  split
  · rfl
  · cases parseList rest <;> rfl
  · split <;> rfl
  · dsimp only
    split
    · cases Statement.ofDirective word rest with
      | ok statement => exact congrArg Except.ok (push_renumber m line statement)
      | error fault => rfl
    · exact congrArg Except.ok (push_renumber m line _)

theorem atLine_renumber {α : Type} (line : Nat) (change : α → α) (parse : Parse α) :
    atLine (f line) (change <$> parse) = renumbered f change (atLine line parse) := by
  cases parse <;> rfl

theorem readLine_renumber (line : Nat) (current : Option MethodText) (raw : List Char) :
    readLine (f line) (current.map (MethodText.renumber f)) raw =
      renumbered f (Reading.renumber f) (readLine line current raw) := by
  unfold readLine
  dsimp only
  split
  · rfl
  · cases current with
    | none =>
        dsimp only [Option.map_none]
        split
        · rw [parseHeader_renumber, atLine_renumber]
          exact renumbered_bind _ fun _ => rfl
        · rfl
    | some m =>
        dsimp only [Option.map_some]
        split
        · rfl
        · rw [extend_renumber, atLine_renumber]
          exact renumbered_bind _ fun _ => rfl

theorem behind_renumber (methods : List MethodText) (r : Reading) :
    (r.renumber f).behind (methods.map (MethodText.renumber f)) = (r.behind methods).renumber f := by
  simp [Reading.renumber, Reading.behind]

/-- It is enough that the lines get numbers in a row. -/
theorem readLines_renumber {start start' : Nat} (current : Option MethodText)
    (ls : List (List Char)) (h : ∀ i < ls.length, f (start + i) = start' + i) :
    readLines start' (current.map (MethodText.renumber f)) ls =
      renumbered f (Reading.renumber f) (readLines start current ls) := by
  induction ls generalizing start start' current with
  | nil => rfl
  | cons raw rest ih =>
      have hstart : f start = start' := h 0 (by simp)
      have hrest : ∀ i < rest.length, f (start + 1 + i) = start' + 1 + i := by
        intro i hi
        have hnext := h (i + 1) (by simpa using hi)
        rw [Nat.add_assoc, Nat.add_comm 1 i, hnext]
        omega
      rw [readLines, readLines, ← hstart, readLine_renumber]
      refine renumbered_bind _ fun first => ?_
      rw [hstart]
      have hnext := ih first.current hrest
      exact (congrArg (· >>= _) hnext).trans
        (renumbered_bind _ fun r => congrArg Except.ok (behind_renumber first.methods r))

theorem finish_renumber (r : Reading) :
    (r.renumber f).finish = renumbered f (List.map (MethodText.renumber f)) r.finish := by
  rcases r with ⟨methods, _ | m⟩ <;> rfl

end Renumber

/-- A line that says nothing is counted, and that is all. -/
theorem readLines_insert {f : Nat → Nat} {start : Nat} (current : Option MethodText)
    {blank : List Char} (ls more : List (List Char)) (hblank : content blank = [])
    (hbefore : ∀ i < ls.length, f (start + i) = start + i)
    (hbehind : ∀ i < more.length, f (start + ls.length + i) = start + ls.length + 1 + i) :
    readLines start (current.map (MethodText.renumber f)) (ls ++ blank :: more) =
      renumbered f (Reading.renumber f) (readLines start current (ls ++ more)) := by
  rw [readLines_append, readLines_append, readLines_renumber current ls hbefore]
  refine renumbered_bind _ fun r => ?_
  have hmore := readLines_renumber r.current more hbehind
  rw [readLines_blank hblank, map_eq_pure_bind, map_eq_pure_bind]
  refine (congrArg (· >>= _) hmore).trans (renumbered_bind _ fun next => ?_)
  exact congrArg Except.ok (behind_renumber r.methods next)

/-- What a file holds, where its lines are numbered differently. -/
def renumberFile (f : Nat → Nat) :
    Except ParseError (List MethodText) → Except ParseError (List MethodText) :=
  renumbered f (List.map (MethodText.renumber f))

theorem finish_renumbered (f : Nat → Nat) (x : Except ParseError Reading) :
    renumbered f (Reading.renumber f) x >>= Reading.finish =
      renumberFile f (x >>= Reading.finish) :=
  renumbered_bind x finish_renumber

theorem parseFile_append {a b : String} {methods : List MethodText} (ha : EndsLine a.toList)
    (hmethods : parseFile a = .ok methods) :
    parseFile (a ++ b) =
      (methods ++ ·) <$> renumberFile (· + (lines a.toList).length) (parseFile b) := by
  have hb : readLines (1 + (lines a.toList).length) none (lines b.toList) =
      renumbered (· + (lines a.toList).length) (Reading.renumber (· + (lines a.toList).length))
        (readLines 1 none (lines b.toList)) := by
    refine readLines_renumber none (lines b.toList) fun i _ => ?_
    omega
  calc parseFile (a ++ b)
      = readLines 1 none (lines a.toList ++ lines b.toList) >>= Reading.finish := by
        rw [parseFile_eq, String.toList_append, lines_append ha]
    _ = (Reading.behind methods <$> readLines (1 + (lines a.toList).length) none (lines b.toList)) >>=
          Reading.finish := by
        rw [readLines_append, readLines_of_parseFile hmethods]
        rfl
    _ = (methods ++ ·) <$>
          (readLines (1 + (lines a.toList).length) none (lines b.toList) >>= Reading.finish) := by
        simp [finish_behind]
    _ = (methods ++ ·) <$> renumberFile (· + (lines a.toList).length) (parseFile b) := by
        rw [parseFile_eq, ← finish_renumbered, ← hb]

theorem parseFile_insert {a b remark : String} (ha : EndsLine a.toList)
    (hremark : Remark remark.toList) :
    parseFile (a ++ remark ++ "\n" ++ b) =
      renumberFile (fun n => if n ≤ (lines a.toList).length then n else n + 1)
        (parseFile (a ++ b)) := by
  have hlines : lines (a ++ remark ++ "\n" ++ b).toList =
      lines a.toList ++ dropReturn remark.toList :: lines b.toList := by
    have htext : (a ++ remark ++ "\n" ++ b).toList =
        a.toList ++ (remark.toList ++ '\n' :: b.toList) := by simp
    rw [htext, lines_append ha, lines_cons hremark.newline_not_mem]
  have hblank : content (dropReturn remark.toList) = [] := by
    rw [content_dropReturn, content_remark hremark]
  rw [parseFile_eq, parseFile_eq, hlines, String.toList_append, lines_append ha,
    ← finish_renumbered, ← readLines_insert none _ _ hblank]
  · rfl
  · intro i hi
    exact if_pos (by omega)
  · intro i _
    rw [if_neg (by omega)]
    omega

theorem parseFile_last {source remark : String} (hsource : EndsLine source.toList)
    (hremark : Remark remark.toList) : parseFile (source ++ remark) = parseFile source := by
  rw [parseFile_eq, parseFile_eq, String.toList_append, lines_append hsource,
    lines_last hremark.newline_not_mem]
  split
  · rw [List.append_nil]
  · rw [readLines_append_blank (content_remark hremark)]

/-- The last line needs no newline. -/
theorem parseFile_newline (source : String) : parseFile (source ++ "\n") = parseFile source := by
  obtain ⟨before, last, hpieces⟩ : ∃ before last, split '\n' source.toList = before ++ [last] :=
    ⟨_, _, (List.dropLast_concat_getLast (split_ne_nil '\n' source.toList)).symm⟩
  have hnewline : lines (source ++ "\n").toList = before.map dropReturn ++ [dropReturn last] := by
    rw [String.toList_append]
    refine (lines_newline source.toList []).trans ?_
    rw [hpieces]
    simp [lines, split, lines.ofPieces]
  have hplain : lines source.toList =
      before.map dropReturn ++ if last.isEmpty then [] else [last] := by
    rw [lines, hpieces, ofPieces_append (List.cons_ne_nil last []), lines.ofPieces]
  rw [parseFile_eq, parseFile_eq, hnewline, hplain]
  congr 1
  split
  · rename_i hlast
    rw [List.isEmpty_iff.mp hlast, List.append_nil]
    exact readLines_append_blank rfl 1 none _
  · simp only [readLines_append, readLines, readLine_of_content (content_dropReturn last)]

/-- The rest of a file is read as if it were a file of its own, as soon as the methods before it have
ended, and lines that say nothing can be added anywhere. Only the numbers of the lines change. -/
theorem parsing_composes :
    (∀ (a b : String) (methods : List MethodText), EndsLine a.toList → parseFile a = .ok methods →
      parseFile (a ++ b) =
        (methods ++ ·) <$> renumberFile (· + (lines a.toList).length) (parseFile b)) ∧
    (∀ a b remark : String, EndsLine a.toList → Remark remark.toList →
      parseFile (a ++ remark ++ "\n" ++ b) =
        renumberFile (fun n => if n ≤ (lines a.toList).length then n else n + 1)
          (parseFile (a ++ b))) ∧
    ∀ source remark : String, Remark remark.toList →
      (EndsLine source.toList → parseFile (source ++ remark) = parseFile source) ∧
      parseFile (source ++ "\n" ++ remark) = parseFile source := by
  refine ⟨?_, ?_, ?_⟩
  · intro a b methods ha hmethods
    exact parseFile_append ha hmethods
  · intro a b remark ha hremark
    exact parseFile_insert ha hremark
  · intro source remark hremark
    refine ⟨fun hsource => parseFile_last hsource hremark, ?_⟩
    rw [parseFile_last (endsLine_newline source) hremark, parseFile_newline]

namespace Sample

def first : String := ".method void First()\n  ret\n.end\n"

def firstText : MethodText where
  line := 1
  name := "First"
  result := "void"
  parameters := []
  locals := []
  expectInvalid := false
  body := #[⟨2, .instruction "ret" none⟩]

def unfinished : String := "\n.method void Second()\n"

end Sample

open Sample in
theorem parsing_composes_unfinished :
    EndsLine first.toList ∧ Remark " // aside".toList ∧ parseFile first = .ok [firstText] ∧
      parseFile unfinished = .error ⟨2, .missingEnd "Second"⟩ ∧
      parseFile (first ++ unfinished) = .error ⟨5, .missingEnd "Second"⟩ ∧
      parseFile (first ++ " // aside" ++ "\n" ++ unfinished) =
        .error ⟨6, .missingEnd "Second"⟩ := by
  have hends : EndsLine first.toList := by
    right
    rfl
  have hremark : Remark " // aside".toList := .comment_behind_space (by decide)
  have hfirst : parseFile first = .ok [firstText] := by rfl
  have hunfinished : parseFile unfinished = .error ⟨2, .missingEnd "Second"⟩ := by rfl
  obtain ⟨happend, hinsert, -⟩ := parsing_composes
  have hboth : parseFile (first ++ unfinished) = .error ⟨5, .missingEnd "Second"⟩ := by
    rw [happend first unfinished _ hends hfirst, hunfinished]
    rfl
  refine ⟨hends, hremark, hfirst, hunfinished, hboth, ?_⟩
  rw [hinsert first unfinished _ hends hremark, hboth]
  rfl

end ManagedCode.Source
