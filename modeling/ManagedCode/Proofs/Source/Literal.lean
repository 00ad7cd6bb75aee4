import ManagedCode.Proofs.Source.Reading
import ManagedCode.Source.Lower

namespace ManagedCode.Source

/-! String literals, written and read. Comments, blanks and escapes are told apart in separate places,
which all agree on where a literal ends. -/

open Text

/-- How a character is written between double quotes. -/
def encodeChar : Char → List Char
  | '\\' => ['\\', '\\']
  | '"' => ['\\', '"']
  | '\n' => ['\\', 'n']
  | '\t' => ['\\', 't']
  | '\r' => ['\\', 'r']
  | '\x00' => ['\\', '0']
  | c => [c]

def encodeLiteral (text : String) : String :=
  String.ofList ('"' :: text.toList.flatMap encodeChar ++ ['"'])

theorem encodeChar_cases (c : Char) :
    (∃ e, encodeChar c = ['\\', e] ∧ unescape? e = some c) ∨
      (encodeChar c = [c] ∧ c ≠ '\\' ∧ c ≠ '"' ∧ c ≠ '\n') := by
  unfold encodeChar
  split
  · exact .inl ⟨'\\', rfl, rfl⟩
  · exact .inl ⟨'"', rfl, rfl⟩
  · exact .inl ⟨'n', rfl, rfl⟩
  · exact .inl ⟨'t', rfl, rfl⟩
  · exact .inl ⟨'r', rfl, rfl⟩
  · exact .inl ⟨'0', rfl, rfl⟩
  · rename_i hbackslash hquote hnewline _ _ _
    exact .inr ⟨rfl, hbackslash, hquote, hnewline⟩

theorem decodeEscapes?_encode (cs : List Char) :
    decodeEscapes? (cs.flatMap encodeChar) = some cs := by
  induction cs with
  | nil => rfl
  | cons c cs ih =>
      rw [List.flatMap_cons]
      rcases encodeChar_cases c with ⟨e, hwritten, hread⟩ | ⟨hwritten, hbackslash, -, -⟩
      · rw [hwritten, List.cons_append, List.singleton_append, decodeEscapes?, hread, ih]
        rfl
      · rw [hwritten, List.singleton_append, decodeEscapes?, ih]
        · rfl
        · exact fun hc _ => hbackslash hc
        · exact fun _ _ hc _ => hbackslash hc

theorem decodeLiteral?_encode (text : String) :
    decodeLiteral? (encodeLiteral text).toList = some text := by
  have hopening : after? ['"'] (encodeLiteral text).toList =
      some (text.toList.flatMap encodeChar ++ ['"']) :=
    after?_eq_some_iff.mpr (String.toList_ofList)
  have hclosing : before? ['"'] (text.toList.flatMap encodeChar ++ ['"']) =
      some (text.toList.flatMap encodeChar) := before?_eq_some_iff.mpr rfl
  simp [decodeLiteral?, hopening, hclosing, decodeEscapes?_encode]

/-- The quotes of the text are escaped, so the first one that is not ends the literal. -/
theorem stripComment_encode (cs rest : List Char) :
    stripComment true (cs.flatMap encodeChar ++ '"' :: rest) =
      cs.flatMap encodeChar ++ '"' :: stripComment false rest := by
  induction cs with
  | nil => rfl
  | cons c cs ih =>
      rw [List.flatMap_cons]
      rcases encodeChar_cases c with ⟨e, hwritten, -⟩ | ⟨hwritten, hbackslash, hquote, -⟩
      · rw [hwritten]
        simp only [List.cons_append, List.nil_append, stripComment, ih]
      · have hslash : true = false → c ≠ '/' := by simp
        rw [hwritten, List.append_assoc, List.singleton_append,
          stripComment_cons true hslash fun _ => hbackslash, if_neg hquote, ih]
        rfl

theorem toList_encodeLiteral (text : String) :
    (encodeLiteral text).toList = '"' :: text.toList.flatMap encodeChar ++ ['"'] :=
  String.toList_ofList

theorem newline_not_mem_literal (text : String) : '\n' ∉ (encodeLiteral text).toList := by
  rw [toList_encodeLiteral, List.cons_append, List.mem_cons, List.mem_append, List.mem_flatMap,
    List.mem_singleton]
  rintro (hquote | ⟨c, -, hc⟩ | hquote)
  · cases hquote
  · rcases encodeChar_cases c with ⟨e, hwritten, hread⟩ | ⟨hwritten, -, -, hnewline⟩
    · rw [hwritten] at hc
      rcases List.mem_cons.mp hc with hbackslash | he
      · cases hbackslash
      · cases List.mem_singleton.mp he
        cases hread
    · rw [hwritten] at hc
      exact hnewline (List.mem_singleton.mp hc).symm
  · cases hquote

theorem closed_literal (text : String) : Closed (encodeLiteral text).toList := by
  intro rest
  have hopening : ∀ cs, stripComment false ('"' :: cs) = '"' :: stripComment true cs := by
    intro cs
    rw [stripComment_cons false (fun _ => by decide) nofun, if_pos rfl]
    rfl
  have hread := stripComment_encode text.toList rest
  simp only [toList_encodeLiteral, List.cons_append, List.append_assoc, List.nil_append, hopening,
    hread]

theorem trimmed_literal (text : String) : Trimmed (encodeLiteral text).toList := by
  rw [toList_encodeLiteral]
  refine ⟨?_, ?_⟩
  · rintro c ⟨⟩
    decide
  · intro c hc
    rw [List.getLast?_concat] at hc
    cases hc
    decide

theorem isOpcode_ldstr : IsOpcode "ldstr".toList where
  ne_nil := by decide
  directive := by decide
  label := by decide
  lower := by decide
  plain := plain_iff.mpr rfl
  unbroken := unbroken_iff.mpr rfl

theorem lowerInstruction_ldstr (text : String) (line : Nat) :
    lowerInstruction line "ldstr" (some (encodeLiteral text)) = pure (.ldstr text) := by
  have hoperand : lowerOperand line "ldstr" (encodeLiteral text) =
      .ldstr <$> Resolve.orFail line (.badString (encodeLiteral text))
        (decodeLiteral? (encodeLiteral text).toList) := rfl
  rw [lowerInstruction_some (by decide +kernel), hoperand, decodeLiteral?_encode]
  exact map_pure _ _

/-- Whatever a string holds, a line that loads it is read as one instruction, and its operand stands
for just that string. -/
theorem string_operands_survive {source : String} {methods : List MethodText} {m : MethodText}
    (hinside : Inside source methods m) (text : String) {lead tail : String}
    (hlead : Blanks lead.toList) (hline : '\n' ∉ lead.toList) (htail : Remark tail.toList) :
    Inside (source ++ (lead ++ "ldstr " ++ encodeLiteral text ++ tail) ++ "\n") methods
        (m.instruction (1 + (lines source.toList).length) "ldstr" (encodeLiteral text)) ∧
      (∀ after : String,
        parseFile (source ++ (lead ++ "ldstr " ++ encodeLiteral text ++ tail) ++ "\n" ++ after) =
          (methods ++ ·) <$> parseLines (1 + (lines source.toList).length + 1)
            (some (m.instruction (1 + (lines source.toList).length) "ldstr" (encodeLiteral text)))
            (lines after.toList)) ∧
      decodeLiteral? (encodeLiteral text).toList = some text ∧
      ∀ line, lowerInstruction line "ldstr" (some (encodeLiteral text)) = pure (.ldstr text) := by
  have hoperand : trim (encodeLiteral text).toList = (encodeLiteral text).toList :=
    trim_eq_self (trimmed_literal text)
  have hsome : trim (encodeLiteral text).toList ≠ [] := by
    rw [hoperand, toList_encodeLiteral]
    simp
  have hclosed : Closed (trim (encodeLiteral text).toList) := by
    rw [hoperand]
    exact closed_literal text
  have hnewline : '\n' ∉ (lead ++ encodeLiteral text).toList := by
    simp [hline, newline_not_mem_literal]
  have hword : lead ++ "ldstr " ++ encodeLiteral text ++ tail =
      lead ++ "ldstr" ++ " " ++ encodeLiteral text ++ tail := by
    have hspace : "ldstr " = "ldstr" ++ " " := rfl
    simp only [hspace, String.append_assoc]
  have hread := hinside.instruction isOpcode_ldstr hsome hclosed hlead htail hnewline
  rw [hoperand, String.ofList_toList, ← hword] at hread
  exact ⟨hread.1, hread.2, decodeLiteral?_encode text, lowerInstruction_ldstr text⟩

open Sample in
theorem string_operands_survive_marker :
    Inside header [] headerText ∧ Blanks " ".toList ∧ Remark " // \"".toList ∧
      parseFile (header ++ (" " ++ "ldstr " ++ "\"a\\\" // \\\\\"" ++ " // \"") ++ "\n" ++ ".end\n") =
        .ok [headerText.instruction 2 "ldstr" "\"a\\\" // \\\\\""] := by
  have hlead : Blanks " ".toList := blanks_space
  have htail : Remark " // \"".toList := .comment_behind_space (by decide)
  obtain ⟨hnext, -⟩ := string_operands_survive inside_header "a\" // \\" hlead (by decide) htail
  exact ⟨inside_header, hlead, htail, hnext.closed⟩

end ManagedCode.Source
