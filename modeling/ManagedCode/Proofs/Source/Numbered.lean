import ManagedCode.Proofs.Source.Spelling
import ManagedCode.Proofs.Text.Cut
import ManagedCode.Proofs.Text.Numeral
import ManagedCode.Source.Lower

namespace ManagedCode.Source

/-! The operation codes that end in a number. Behind the last dot any spelling of the number will
do. -/

open Text

variable {opcode stem rest : String} {n : Nat} {i : Instruction}

/-- A stem, the number behind it, and what both together stand for. -/
inductive ShortForm : String → Nat → Instruction → Prop where
  | ldarg {n : Nat} : n ≤ 3 → ShortForm "ldarg" n (.ldarg (.ofNat n))
  | ldloc {n : Nat} : n ≤ 3 → ShortForm "ldloc" n (.ldloc (.ofNat n))
  | stloc {n : Nat} : n ≤ 3 → ShortForm "stloc" n (.stloc (.ofNat n))
  | ldcI4 {n : Nat} : n ≤ 8 → ShortForm "ldc.i4" n (.ldcI4 (.ofNat n))

def stems : List String := ["ldarg", "ldloc", "stloc", "ldc.i4"]

theorem ShortForm.mem_stems (h : ShortForm stem n i) : stem ∈ stems := by
  cases h <;> decide

theorem ShortForm.lt (h : ShortForm stem n i) : n < 256 := by
  cases h <;> omega

theorem numberedOpcode?_eq_some_iff : numberedOpcode? stem n = some i ↔ ShortForm stem n i := by
  constructor
  · intro h
    unfold numberedOpcode? at h
    split at h
    · split at h
      · cases h; exact .ldarg ‹_›
      · cases h
    · split at h
      · cases h; exact .ldloc ‹_›
      · cases h
    · split at h
      · cases h; exact .stloc ‹_›
      · cases h
    · split at h
      · cases h; exact .ldcI4 ‹_›
      · cases h
    · cases h
  · intro h
    cases h with
    | ldarg hn | ldloc hn | stloc hn | ldcI4 hn => exact if_pos hn

/-- The instruction that is read from the number at the end of an operation code. -/
def numbered? (opcode : String) : Option Instruction := do
  let (stem, suffix) ← cutLast? (· == '.') opcode.toList
  numberedOpcode? (String.ofList stem) (← readNatBelow? 256 suffix)

theorem toList_dotted (stem rest : String) :
    (stem ++ "." ++ rest).toList = stem.toList ++ '.' :: rest.toList := by
  simp

theorem dotted_eq_iff {text : List Char} :
    stem ++ "." ++ String.ofList text = stem ++ "." ++ rest ↔ text = rest.toList := by
  rw [← String.toList_inj, toList_dotted, toList_dotted, String.toList_ofList]
  simp

theorem numbered?_eq_some_iff :
    numbered? opcode = some i ↔ ∃ stem n plus zeros, ShortForm stem n i ∧
      opcode = stem ++ "." ++ String.ofList (spelling plus zeros n) := by
  constructor
  · intro h
    obtain ⟨⟨stem, suffix⟩, hcut, h⟩ := Option.bind_eq_some_iff.mp h
    obtain ⟨n, hread, hform⟩ := Option.bind_eq_some_iff.mp h
    obtain ⟨-, plus, zeros, rfl⟩ := readNatBelow?_eq_some_iff.mp hread
    obtain ⟨c, hc, hopcode, -⟩ := eq_append_of_cutLast? hcut
    refine ⟨String.ofList stem, n, plus, zeros, numberedOpcode?_eq_some_iff.mp hform, ?_⟩
    apply String.toList_injective
    rw [toList_dotted, hopcode, beq_iff_eq.mp hc, String.toList_ofList, String.toList_ofList]
  · rintro ⟨stem, n, plus, zeros, hform, rfl⟩
    have hdotless : ∀ c ∈ spelling plus zeros n, (c == '.') = false := by
      intro c hc
      rcases mem_spelling hc with rfl | ⟨d, hd⟩
      · rfl
      · refine beq_eq_false_iff_ne.mpr ?_
        rintro rfl
        cases hd
    have hread : readNatBelow? 256 (spelling plus zeros n) = some n :=
      readNatBelow?_eq_some_iff.mpr ⟨hform.lt, plus, zeros, rfl⟩
    unfold numbered?
    rw [toList_dotted, String.toList_ofList, cutLast?_append hdotless rfl]
    simp only [Option.bind_eq_bind, Option.bind_some, hread, String.ofList_toList]
    exact numberedOpcode?_eq_some_iff.mpr hform

theorem plain_of_stem (hstem : stem ∈ stems) (hopcode : opcode = stem ++ "." ++ rest)
    (h : plainOpcodes.lookup opcode = some i) : opcode = "ldc.i4.m1" := by
  have hall : ∀ name ∈ plainOpcodes.map Prod.fst, ∀ stem ∈ stems,
      (after? (stem.toList ++ ['.']) name.toList).isSome = true → name = "ldc.i4.m1" := by
    decide +kernel
  have hmem : opcode ∈ plainOpcodes.map Prod.fst := List.mem_map_of_mem (mem_of_lookup h)
  refine hall opcode hmem stem hstem (Option.isSome_iff_exists.mpr ⟨rest.toList, ?_⟩)
  rw [after?_eq_some_iff, hopcode, toList_dotted, List.append_assoc]
  rfl

theorem head_of_conversionOpcode? {text : List Char} (h : conversionOpcode? text = some i) :
    text.head? = some 'c' := by
  unfold conversionOpcode? at h
  split at h
  · rename_i htext
    rw [htext]
    rfl
  · split at h
    · rename_i hafter
      rw [after?_eq_some_iff.mp hafter]
      rfl
    · obtain ⟨c, hc, -⟩ := Option.map_eq_some_iff.mp h
      obtain ⟨rest, hafter, -⟩ := Option.bind_eq_some_iff.mp hc
      rw [after?_eq_some_iff.mp hafter]
      rfl

theorem conversion_of_stem (hstem : stem ∈ stems) (rest : String) :
    conversionOpcode? (stem ++ "." ++ rest).toList = none := by
  have hall : ∀ stem ∈ stems, stem.toList.head? ≠ none ∧ stem.toList.head? ≠ some 'c' := by decide
  obtain ⟨hsome, hletter⟩ := hall stem hstem
  cases h : conversionOpcode? (stem ++ "." ++ rest).toList with
  | none => rfl
  | some i =>
      have hhead := head_of_conversionOpcode? h
      rw [toList_dotted, List.head?_append] at hhead
      cases hfirst : stem.toList.head? with
      | none => exact absurd hfirst hsome
      | some c =>
          rw [hfirst, Option.some_or] at hhead
          exact absurd (hfirst.trans hhead) hletter

theorem stem_of_typedOpcode? {t : Ty} (h : typedOpcode? stem t = some i) :
    stem ∈ ["ldind", "stind", "ldelem", "stelem"] := by
  unfold typedOpcode? at h
  split at h
  · decide
  · decide
  · decide
  · decide
  · cases h

/-- The codes that end in a type have stems of their own. -/
theorem typed_of_stem {lead suffix : List Char} (hstem : stem ∈ stems)
    (h : lead ++ '.' :: suffix = stem.toList ++ '.' :: rest.toList) (t : Ty) :
    typedOpcode? (String.ofList lead) t = none := by
  have hall : ∀ typed ∈ ["ldind", "stind", "ldelem", "stelem"], ∀ stem ∈ stems,
      ¬ typed.toList ++ ['.'] <+: stem.toList ++ ['.'] ∧
        ¬ stem.toList ++ ['.'] <+: typed.toList ++ ['.'] := by decide
  cases htyped : typedOpcode? (String.ofList lead) t with
  | none => rfl
  | some i =>
      have hapart := hall _ (stem_of_typedOpcode? htyped) stem hstem
      rw [String.toList_ofList] at hapart
      have hlead : lead ++ ['.'] <+: lead ++ '.' :: suffix := ⟨suffix, by simp⟩
      have hstem : stem.toList ++ ['.'] <+: lead ++ '.' :: suffix := ⟨rest.toList, by simp [h]⟩
      rcases List.prefix_or_prefix_of_prefix hlead hstem with hprefix | hprefix
      · exact absurd hprefix hapart.1
      · exact absurd hprefix hapart.2

theorem suffixed_of_stem (hstem : stem ∈ stems) (rest : String) :
    suffixedOpcode? (stem ++ "." ++ rest).toList = numbered? (stem ++ "." ++ rest) := by
  unfold suffixedOpcode? numbered?
  cases hcut : cutLast? (· == '.') (stem ++ "." ++ rest).toList with
  | none => rfl
  | some parts =>
      obtain ⟨lead, suffix⟩ := parts
      obtain ⟨c, hc, htext, -⟩ := eq_append_of_cutLast? hcut
      rw [toList_dotted, beq_iff_eq.mp hc] at htext
      simp only [Option.bind_eq_bind, Option.bind_some]
      cases readNatBelow? 256 suffix with
      | some n => rfl
      | none =>
          cases typeSuffixes.lookup (String.ofList suffix) with
          | none => rfl
          | some t => exact typed_of_stem hstem htext.symm t

theorem opcodeInstruction?_of_stem (hstem : stem ∈ stems) (rest : String) :
    opcodeInstruction? (stem ++ "." ++ rest) =
      (plainOpcodes.lookup (stem ++ "." ++ rest)).or (numbered? (stem ++ "." ++ rest)) := by
  rw [opcodeInstruction?, conversion_of_stem hstem, Option.none_or, suffixed_of_stem hstem]

theorem opcodeInstruction?_of_numbered? (h : numbered? opcode = some i) :
    opcodeInstruction? opcode = some i := by
  obtain ⟨stem, n, plus, zeros, hform, hopcode⟩ := numbered?_eq_some_iff.mp h
  have hplain : plainOpcodes.lookup opcode = none := by
    cases hlookup : plainOpcodes.lookup opcode with
    | none => rfl
    | some j =>
        rw [plain_of_stem hform.mem_stems hopcode hlookup] at h
        have hnone : numbered? "ldc.i4.m1" = none := by decide +kernel
        cases hnone.symm.trans h
  rw [hopcode] at h hplain ⊢
  rw [opcodeInstruction?_of_stem hform.mem_stems, hplain, h, Option.none_or]

/-- The only codes with an operand behind one of the stems are those of the short encodings. -/
theorem rest_of_literal {literal : String} (hstem : stem ∈ stems)
    (hall : ∀ stem ∈ stems, ∀ rest ∈ after? (stem.toList ++ ['.']) literal.toList, rest = ['s'])
    (h : literal = stem ++ "." ++ rest) : rest = "s" := by
  apply String.toList_injective
  refine hall stem hstem rest.toList (after?_eq_some_iff.mpr ?_)
  rw [h, toList_dotted, List.append_assoc]
  rfl

theorem lowerOperand_of_stem (hstem : stem ∈ stems) (hrest : rest ≠ "s")
    (hopcode : opcode = stem ++ "." ++ rest) (line : Nat) (operand : String) :
    lowerOperand line opcode operand = Resolve.fail line (.unknownOpcode opcode) := by
  unfold lowerOperand
  split
  -- No code of the table has such a stem in front, those of the short encodings apart.
  all_goals first
    | exact absurd (rest_of_literal hstem (by decide +kernel) hopcode) hrest
    | rfl

theorem lowerInstruction_none (h : opcodeInstruction? opcode = none) (line : Nat) :
    lowerInstruction line opcode none = Resolve.fail line (.needsOperand opcode) := by
  rw [lowerInstruction, h]
  rfl

/-- Behind the last dot of an operation code a number may be spelled in any way, and not only as the
number is written. What stands behind one of the stems otherwise is refused, with an operand and
without one. -/
theorem numbers_spelled (opcode : String) :
    (∀ i, numbered? opcode = some i ↔ ∃ stem n plus zeros, ShortForm stem n i ∧
      opcode = stem ++ "." ++ String.ofList (spelling plus zeros n) ∧
      (opcode = stem ++ "." ++ toString n ↔ plus = false ∧ zeros = 0)) ∧
    (∀ i, numbered? opcode = some i → opcodeInstruction? opcode = some i) ∧
    ∀ stem ∈ stems, ∀ rest, opcode = stem ++ "." ++ rest → numbered? opcode = none →
      opcode ≠ "ldc.i4.m1" → opcodeInstruction? opcode = none ∧
        (∀ line, lowerInstruction line opcode none = Resolve.fail line (.needsOperand opcode)) ∧
        (rest ≠ "s" → ∀ line operand, lowerInstruction line opcode (some operand) =
          Resolve.fail line (.unknownOpcode opcode)) := by
  refine ⟨fun i => ?_, fun i => opcodeInstruction?_of_numbered?, ?_⟩
  · rw [numbered?_eq_some_iff]
    constructor
    · rintro ⟨stem, n, plus, zeros, hform, rfl⟩
      exact ⟨stem, n, plus, zeros, hform, rfl, dotted_eq_iff.trans spelling_eq_toString_iff⟩
    · rintro ⟨stem, n, plus, zeros, hform, hopcode, -⟩
      exact ⟨stem, n, plus, zeros, hform, hopcode⟩
  · rintro stem hstem rest rfl hnone hminus
    have hunknown : opcodeInstruction? (stem ++ "." ++ rest) = none := by
      rw [opcodeInstruction?_of_stem hstem, hnone, Option.or_none]
      cases hlookup : plainOpcodes.lookup (stem ++ "." ++ rest) with
      | none => rfl
      | some i => exact absurd (plain_of_stem hstem rfl hlookup) hminus
    refine ⟨hunknown, lowerInstruction_none hunknown, fun hrest line operand => ?_⟩
    rw [lowerInstruction_some (Option.isNone_iff_eq_none.mpr hunknown)]
    exact lowerOperand_of_stem hstem hrest rfl line operand

/-- A number that the short forms do not reach. -/
theorem numbers_spelled_large :
    numbered? "ldarg.4" = none ∧ opcodeInstruction? "ldarg.4" = none ∧
      lowerInstruction 1 "ldarg.4" none = Resolve.fail 1 (.needsOperand "ldarg.4") ∧
      lowerInstruction 1 "ldarg.4" (some "0") = Resolve.fail 1 (.unknownOpcode "ldarg.4") ∧
      opcodeInstruction? "stloc.2" = some (.stloc 2) := by
  have hlarge : numbered? "ldarg.4" = none := by decide +kernel
  obtain ⟨-, -, hunknown⟩ := numbers_spelled "ldarg.4"
  obtain ⟨hnone, hbare, hoperand⟩ := hunknown "ldarg" (by decide) "4" rfl hlarge (by decide)
  obtain ⟨hspelled, haccepted, -⟩ := numbers_spelled "stloc.2"
  have hsmall : numbered? "stloc.2" = some (.stloc 2) :=
    (hspelled (.stloc 2)).mpr
      ⟨"stloc", 2, false, 0, .stloc (by decide), by decide, by decide⟩
  exact ⟨hlarge, hnone, hbare 1, hoperand (by decide) 1 "0", haccepted _ hsmall⟩

/-- A plus sign and zeros in front of the number. -/
theorem padded_number_accepted :
    numbered? "ldarg.+003" = some (.ldarg 3) ∧ opcodeInstruction? "ldarg.+003" = some (.ldarg 3) ∧
      opcodeInstruction? "ldc.i4.08" = some (.ldcI4 8) ∧ "ldarg.+003" ≠ "ldarg." ++ toString 3 ∧
      "ldc.i4.08" ≠ "ldc.i4." ++ toString 8 := by
  have hsigned : numbered? "ldarg.+003" = some (.ldarg 3) :=
    numbered?_eq_some_iff.mpr ⟨"ldarg", 3, true, 2, .ldarg (by decide), by decide⟩
  have hpadded : numbered? "ldc.i4.08" = some (.ldcI4 8) :=
    numbered?_eq_some_iff.mpr ⟨"ldc.i4", 8, false, 1, .ldcI4 (by decide), by decide⟩
  exact ⟨hsigned, opcodeInstruction?_of_numbered? hsigned, opcodeInstruction?_of_numbered? hpadded,
    by decide, by decide⟩

end ManagedCode.Source
