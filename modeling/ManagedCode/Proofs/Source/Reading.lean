import ManagedCode.Proofs.Source.Content
import ManagedCode.Proofs.Text.Cut
import ManagedCode.Source.Method

namespace ManagedCode.Source

/-! A file is read line by line. The next line depends on what has been read so far, and on nothing
else. -/

open Text

/-- What has been read: the finished methods, and the open one. -/
structure Reading where
  methods : List MethodText
  current : Option MethodText

namespace Reading

/-- There were methods before. -/
def behind (methods : List MethodText) (r : Reading) : Reading :=
  { r with methods := methods ++ r.methods }

def finish : Reading → Except ParseError (List MethodText)
  | ⟨methods, none⟩ => .ok methods
  | ⟨_, some m⟩ => .error ⟨m.line, .missingEnd m.name⟩

end Reading

def readLine (line : Nat) (current : Option MethodText) (raw : List Char) :
    Except ParseError Reading := do
  let text := content raw
  if text.isEmpty then return ⟨[], current⟩
  else
    let (word, operand) := splitWord text
    match current with
    | none =>
      if word = ".method".toList then
        return ⟨[], some (← atLine line (parseHeader line operand))⟩
      else throw ⟨line, .expectedMethod (String.ofList word)⟩
    | some m =>
      if word = ".end".toList then return ⟨[m], none⟩
      else return ⟨[], some (← atLine line (m.extend line word operand))⟩

def readLines (line : Nat) (current : Option MethodText) :
    List (List Char) → Except ParseError Reading
  | [] => return ⟨[], current⟩
  | raw :: rest => do
    let first ← readLine line current raw
    return (← readLines (line + 1) first.current rest).behind first.methods

@[simp] theorem behind_nil : Reading.behind [] = id := rfl

@[simp] theorem methods_behind (methods : List MethodText) (r : Reading) :
    (r.behind methods).methods = methods ++ r.methods := rfl

@[simp] theorem current_behind (methods : List MethodText) (r : Reading) :
    (r.behind methods).current = r.current := rfl

@[simp] theorem behind_behind (methods more : List MethodText) (r : Reading) :
    (r.behind more).behind methods = r.behind (methods ++ more) := by
  simp [Reading.behind]

theorem finish_behind (methods : List MethodText) (r : Reading) :
    (r.behind methods).finish = (methods ++ ·) <$> r.finish := by
  rcases r with ⟨more, _ | m⟩ <;> rfl

theorem finish_eq_ok {r : Reading} {methods : List MethodText} :
    r.finish = .ok methods ↔ r = ⟨methods, none⟩ := by
  rcases r with ⟨more, _ | m⟩ <;> simp [Reading.finish]

theorem parseLines_cons (line : Nat) (current : Option MethodText) (raw : List Char)
    (rest : List (List Char)) :
    parseLines line current (raw :: rest) = readLine line current raw >>= fun first =>
      (first.methods ++ ·) <$> parseLines (line + 1) first.current rest := by
  rw [parseLines, readLine]
  dsimp only
  split
  · simp
  · split
    · split
      · simp
      · rfl
    · split
      · simp
      · simp

theorem parseLines_eq (line : Nat) (current : Option MethodText) (ls : List (List Char)) :
    parseLines line current ls = readLines line current ls >>= Reading.finish := by
  induction ls generalizing line current with
  | nil => cases current <;> rfl
  | cons raw rest ih =>
      rw [parseLines_cons, readLines, bind_assoc]
      congr 1
      funext first
      simp [ih, finish_behind]

theorem readLines_append (line : Nat) (current : Option MethodText) (ls more : List (List Char)) :
    readLines line current (ls ++ more) = readLines line current ls >>= fun r =>
      Reading.behind r.methods <$> readLines (line + ls.length) r.current more := by
  induction ls generalizing line current with
  | nil =>
      simp [readLines]
  | cons raw ls ih =>
      have hline : line + (raw :: ls).length = line + 1 + ls.length := by
        rw [List.length_cons]
        omega
      simp only [List.cons_append, readLines, ih, bind_assoc, hline]
      congr 1
      funext first
      simp

theorem readLine_of_content {raw raw' : List Char} (h : content raw = content raw') (line : Nat)
    (current : Option MethodText) : readLine line current raw = readLine line current raw' := by
  rw [readLine, readLine, h]

theorem readLine_blank {raw : List Char} (h : content raw = []) (line : Nat)
    (current : Option MethodText) : readLine line current raw = .ok ⟨[], current⟩ := by
  rw [readLine, h]
  rfl

theorem readLines_of_readLine {line : Nat} {current next : Option MethodText} {raw : List Char}
    (h : readLine line current raw = .ok ⟨[], next⟩) (rest : List (List Char)) :
    readLines line current (raw :: rest) = readLines (line + 1) next rest := by
  rw [readLines, h]
  exact bind_pure (readLines (line + 1) next rest)

theorem readLines_blank {raw : List Char} (h : content raw = []) (line : Nat)
    (current : Option MethodText) (rest : List (List Char)) :
    readLines line current (raw :: rest) = readLines (line + 1) current rest :=
  readLines_of_readLine (readLine_blank h line current) rest

theorem readLines_append_blank {raw : List Char} (h : content raw = []) (line : Nat)
    (current : Option MethodText) (ls : List (List Char)) :
    readLines line current (ls ++ [raw]) = readLines line current ls := by
  rw [readLines_append]
  refine (bind_congr fun r => ?_).trans (bind_pure _)
  rw [readLines_blank h, readLines, map_pure, Reading.behind, List.append_nil]

theorem parseFile_eq (source : String) :
    parseFile source = readLines 1 none (lines source.toList) >>= Reading.finish :=
  parseLines_eq 1 none _

/-- A file that is accepted leaves no method open. -/
theorem readLines_of_parseFile {source : String} {methods : List MethodText}
    (h : parseFile source = .ok methods) :
    readLines 1 none (lines source.toList) = .ok ⟨methods, none⟩ := by
  rw [parseFile_eq] at h
  cases hread : readLines 1 none (lines source.toList) with
  | ok r =>
      rw [hread] at h
      exact congrArg Except.ok (finish_eq_ok.mp h)
  | error e =>
      rw [hread] at h
      cases h

/-! A line with an operation code and an operand. -/

/-- The body of the method goes on with the instruction. -/
def MethodText.instruction (m : MethodText) (line : Nat) (opcode operand : String) : MethodText :=
  { m with body := m.body.push ⟨line, .instruction opcode (some operand)⟩ }

/-- A word in lower case that is neither a directive nor a label. -/
structure IsOpcode (word : List Char) : Prop where
  ne_nil : word ≠ []
  directive : word.head? ≠ some '.'
  label : before? [':'] word = none
  lower : word.map Char.toLower = word
  plain : Plain word
  unbroken : ∀ c ∈ word, isBlank c = false

theorem extend_instruction {opcode operand : String} (hopcode : IsOpcode opcode.toList)
    (hoperand : operand.toList ≠ []) (m : MethodText) (line : Nat) :
    m.extend line opcode.toList operand.toList = .ok (m.instruction line opcode operand) := by
  have hstatement : Statement.ofWord opcode.toList operand.toList =
      .instruction opcode (some operand) := by
    rw [Statement.ofWord, hopcode.label]
    simp only [Statement.ofWord.plain, hopcode.lower, List.isEmpty_iff, if_neg hoperand,
      String.ofList_toList]
  rw [MethodText.extend, String.ofList_toList]
  split
  · exact absurd rfl hopcode.directive
  · exact absurd rfl hopcode.directive
  · exact absurd rfl hopcode.directive
  · rw [if_neg hopcode.directive, hstatement]
    rfl

theorem readLine_instruction {raw rest : List Char} {opcode operand : String}
    (hraw : content raw = opcode.toList ++ ' ' :: rest) (hopcode : IsOpcode opcode.toList)
    (hrest : trim rest = operand.toList) (hoperand : operand.toList ≠ []) (line : Nat)
    (m : MethodText) :
    readLine line (some m) raw = .ok ⟨[], some (m.instruction line opcode operand)⟩ := by
  have hsplit : splitWord (content raw) = (opcode.toList, operand.toList) := by
    rw [splitWord, hraw, cut?_append hopcode.unbroken (by decide)]
    exact congrArg (Prod.mk _) hrest
  have htext : (content raw).isEmpty = false := by simp [hraw]
  have hend : opcode.toList ≠ ".end".toList := fun h => hopcode.directive (h ▸ rfl)
  rw [readLine]
  simp only [htext, hsplit, if_neg hend, extend_instruction hopcode hoperand]
  rfl

/-- The blanks around the operand and the remark behind it are left out. -/
theorem content_instruction {lead opcode operand tail : List Char} (hopcode : IsOpcode opcode)
    (hsome : trim operand ≠ []) (hoperand : Closed (trim operand)) (hlead : Blanks lead)
    (htail : Remark tail) (hline : '\n' ∉ operand) :
    ∃ rest, content (lead ++ opcode ++ [' '] ++ operand ++ tail) = opcode ++ ' ' :: rest ∧
      trim rest = trim operand := by
  have htrimmed := trimmed_trim operand
  obtain ⟨before, behind, hbefore, hbehind, htext⟩ := exists_trim operand
  generalize trim operand = text at htext htrimmed hsome hoperand ⊢
  have hcore : Trimmed (opcode ++ ([' '] ++ before) ++ text) :=
    (trimmed_of_unbroken hopcode.unbroken).between hopcode.ne_nil htrimmed hsome _
  have hclosed : Closed (opcode ++ ([' '] ++ before) ++ text) :=
    (hopcode.plain.closed.append (closed_of_blanks (blanks_space.append hbefore))).append hoperand
  have hremark : Remark (behind ++ tail) :=
    htail.behind_blanks hbehind fun hmem => hline (htext ▸ List.mem_append_right _ hmem)
  have hcontent := content_eq hlead hcore hclosed hremark
  refine ⟨before ++ text, ?_, ?_⟩
  · rw [htext]
    simpa using hcontent
  · have htrim := trim_of_trimmed hbefore htrimmed blanks_nil
    rwa [List.append_nil] at htrim

/-- The text ends on a line inside of a method. Closed there, it holds these methods and this one. -/
structure Inside (source : String) (methods : List MethodText) (m : MethodText) : Prop where
  endsLine : EndsLine source.toList
  closed : parseFile (source ++ ".end\n") = .ok (methods ++ [m])

theorem readLines_of_inside {source : String} {methods : List MethodText} {m : MethodText}
    (h : Inside source methods m) :
    readLines 1 none (lines source.toList) = .ok ⟨methods, some m⟩ := by
  have hclosed := readLines_of_parseFile h.closed
  have hlines : lines ".end\n".toList = [".end".toList] := rfl
  rw [String.toList_append, lines_append h.endsLine, readLines_append, hlines] at hclosed
  cases hread : readLines 1 none (lines source.toList) with
  | error e =>
      rw [hread] at hclosed
      cases hclosed
  | ok r =>
      rw [hread] at hclosed
      rcases r with ⟨before, _ | current⟩
      · cases hclosed
      · have hmethods : before ++ [current] = methods ++ [m] :=
          congrArg Reading.methods (Except.ok.inj hclosed)
        obtain ⟨rfl, hcurrent⟩ := List.append_inj' hmethods rfl
        cases hcurrent
        rfl

/-- A line with an instruction goes into the method, and what follows is read from there. -/
theorem Inside.instruction {source lead opcode operand tail : String} {methods : List MethodText}
    {m : MethodText} (h : Inside source methods m) (hopcode : IsOpcode opcode.toList)
    (hsome : trim operand.toList ≠ []) (hoperand : Closed (trim operand.toList))
    (hlead : Blanks lead.toList) (htail : Remark tail.toList)
    (hline : '\n' ∉ (lead ++ operand).toList) :
    Inside (source ++ (lead ++ opcode ++ " " ++ operand ++ tail) ++ "\n") methods
        (m.instruction (1 + (lines source.toList).length) opcode
          (String.ofList (trim operand.toList))) ∧
      ∀ after : String,
        parseFile (source ++ (lead ++ opcode ++ " " ++ operand ++ tail) ++ "\n" ++ after) =
          (methods ++ ·) <$> parseLines (1 + (lines source.toList).length + 1)
            (some (m.instruction (1 + (lines source.toList).length) opcode
              (String.ofList (trim operand.toList)))) (lines after.toList) := by
  obtain ⟨hnolead, hnooperand⟩ : '\n' ∉ lead.toList ∧ '\n' ∉ operand.toList := by
    simpa using hline
  obtain ⟨raw, hraw⟩ : ∃ raw, lead ++ opcode ++ " " ++ operand ++ tail = raw := ⟨_, rfl⟩
  have hread : readLine (1 + (lines source.toList).length) (some m) (dropReturn raw.toList) =
      .ok ⟨[], some (m.instruction (1 + (lines source.toList).length) opcode
        (String.ofList (trim operand.toList)))⟩ := by
    obtain ⟨rest, hcontent, hrest⟩ :=
      content_instruction hopcode hsome hoperand hlead htail hnooperand
    have hlist : raw.toList =
        lead.toList ++ opcode.toList ++ [' '] ++ operand.toList ++ tail.toList := by
      simp [← hraw]
    rw [← hlist, ← content_dropReturn] at hcontent
    refine readLine_instruction hcontent hopcode ?_ ?_ _ m
    · rw [hrest, String.toList_ofList]
    · rwa [String.toList_ofList]
  have hnewline : '\n' ∉ raw.toList := by
    have hnoopcode : '\n' ∉ opcode.toList := fun hmem => nomatch hopcode.unbroken _ hmem
    simp [← hraw, hnolead, hnoopcode, hnooperand, htail.newline_not_mem]
  rw [hraw]
  have hafter : ∀ after : String, parseFile (source ++ raw ++ "\n" ++ after) = (methods ++ ·) <$>
      parseLines (1 + (lines source.toList).length + 1)
        (some (m.instruction (1 + (lines source.toList).length) opcode
          (String.ofList (trim operand.toList)))) (lines after.toList) := by
    intro after
    have htext : (source ++ raw ++ "\n" ++ after).toList =
        source.toList ++ (raw.toList ++ '\n' :: after.toList) := by simp
    rw [parseFile_eq, htext, lines_append h.endsLine, lines_cons hnewline, readLines_append,
      readLines_of_inside h, parseLines_eq]
    refine (congrArg (· >>= Reading.finish)
      (congrArg (Reading.behind methods <$> ·) (readLines_of_readLine hread _))).trans ?_
    simp [finish_behind]
  refine ⟨⟨endsLine_newline _, ?_⟩, hafter⟩
  rw [hafter]
  rfl

namespace Sample

def header : String := ".method void Start()\n"

def headerText : MethodText where
  line := 1
  name := "Start"
  result := "void"
  parameters := []
  locals := []
  expectInvalid := false
  body := #[]

theorem inside_header : Inside header [] headerText :=
  ⟨.inr rfl, rfl⟩

end Sample

end ManagedCode.Source
