import ManagedCode.Proofs.Source.Reading
import ManagedCode.Proofs.Source.Reference

namespace ManagedCode.Source

/-! A virtual call on a constrained receiver. What stands before the first blank is taken for the
type of the receiver, and so a type of more than one word is refused. -/

open Text

theorem exists_base_append {text : List Char} {t : Ty} (htrimmed : Trimmed text)
    (hspelled : spelled? (String.ofList text) = some t) :
    ∃ base ∈ baseNames, ∃ suffixes tail, Written suffixes tail ∧ text = base.toList ++ tail := by
  obtain ⟨base, hbase, suffixes, lead, tail, hlead, -, htail, htext⟩ := exists_baseName hspelled
  rw [String.toList_ofList] at htext
  refine ⟨base, hbase, suffixes, tail, htail, ?_⟩
  cases lead with
  | nil => exact htext
  | cons c lead =>
      have hc := htrimmed.head c (by simp [htext])
      simp [hlead c List.mem_cons_self] at hc

theorem head_behind_keyword {base : String} (hbase : base ∈ baseNames) {word rest : List Char}
    (hcut : cut? isBlank base.toList = some (word, rest)) :
    ∃ c more, trimStart rest = c :: more ∧ c ≠ 'c' := by
  have hkeywords : ∀ base ∈ baseNames, ∀ parts ∈ cut? isBlank base.toList,
      (trimStart parts.2).head?.any (· ≠ 'c') = true := by
    decide +kernel
  have hany := hkeywords base hbase _ hcut
  cases hrest : trimStart rest with
  | nil => simp [hrest] at hany
  | cons c more => exact ⟨c, more, rfl, by simpa [hrest] using hany⟩

theorem ne_of_mem_written {suffixes : List Suffix} {tail : List Char} (h : Written suffixes tail)
    {c : Char} (hmem : c ∈ tail) (hc : isBlank c = false) : c ≠ 'c' := by
  have hsuffixes : ∀ suffix : Suffix, 'c' ∉ suffix.text := by
    rintro (_ | _ | _) <;> decide
  rintro rfl
  rcases mem_written h 'c' hmem with hblank | ⟨suffix, hsuffix⟩
  · simp [hc] at hblank
  · exact hsuffixes suffix hsuffix

/-- Behind the first word of a type there is either another word of a keyword or a suffix. -/
theorem head_behind_word {text : List Char} {t : Ty} (htrimmed : Trimmed text)
    (hspelled : spelled? (String.ofList text) = some t) {word rest : List Char}
    (hcut : cut? isBlank text = some (word, rest)) :
    ∃ c more, trimStart rest = c :: more ∧ c ≠ 'c' := by
  obtain ⟨base, hbase, suffixes, tail, htail, htext⟩ := exists_base_append htrimmed hspelled
  obtain ⟨b, hb, hparts, hword⟩ := eq_append_of_cut? hcut
  obtain ⟨c, more, hcons, hmem, hc⟩ := (hparts ▸ htrimmed).exists_behind hb
  rw [hparts] at htext
  rcases List.append_eq_append_iff.mp htext with ⟨as, hfront, hbehind⟩ | ⟨as, -, hbehind⟩
  · cases as with
    | nil =>
        rw [List.nil_append] at hbehind
        exact ⟨c, more, hcons, ne_of_mem_written htail (hbehind ▸ List.mem_cons_of_mem b hmem) hc⟩
    | cons d as =>
        rw [List.cons_append] at hbehind
        obtain ⟨rfl, rfl⟩ := List.cons.inj hbehind
        have hcutbase : cut? isBlank base.toList = some (word, as) := by
          rw [hfront]
          exact cut?_append hword hb as
        obtain ⟨e, more, hstart, he⟩ := head_behind_keyword hbase hcutbase
        refine ⟨e, more ++ tail, ?_, he⟩
        rw [trimStart_append (by simp [hstart]), hstart, List.cons_append]
  · exact ⟨c, more, hcons, ne_of_mem_written htail (hbehind ▸ by simp [hmem]) hc⟩

theorem lowerConstrained_word {word gap reference : List Char}
    (hword : ∀ c ∈ word, isBlank c = false) (hgap : Blanks gap) (hsome : gap ≠ [])
    (hcall : Trimmed ("callvirt".toList ++ reference)) (line : Nat) :
    lowerConstrained line (String.ofList (word ++ gap ++ ("callvirt".toList ++ reference))) =
      resolveMethod line (String.ofList reference) >>= fun m =>
        resolveType line (String.ofList word) >>= fun t => pure (.callvirt m (some t)) := by
  obtain ⟨b, gap, rfl⟩ := List.exists_cons_of_ne_nil hsome
  obtain ⟨hb, hgap⟩ := List.forall_mem_cons.mp hgap
  have hcut : cut? isBlank (word ++ b :: gap ++ ("callvirt".toList ++ reference)) =
      some (word, gap ++ ("callvirt".toList ++ reference)) := by
    rw [List.append_assoc, List.cons_append, cut?_append hword hb]
  have htrim : trim (gap ++ ("callvirt".toList ++ reference)) = "callvirt".toList ++ reference := by
    have h := trim_of_trimmed hgap hcall blanks_nil
    rwa [List.append_nil] at h
  have hafter : after? "callvirt".toList ("callvirt".toList ++ reference) = some reference :=
    after?_eq_some_iff.mpr rfl
  rw [lowerConstrained, String.toList_ofList, hcut]
  simp only [Resolve.orFail, pure_bind, htrim, hafter]

theorem lowerConstrained_words {text : List Char} {t : Ty} (htrimmed : Trimmed text)
    (hspelled : spelled? (String.ofList text) = some t) (hbroken : text.any isBlank = true)
    (call : List Char) (line : Nat) :
    lowerConstrained line (String.ofList (text ++ call)) = Resolve.fail line .loneConstraint := by
  cases hcut : cut? isBlank text with
  | none =>
      obtain ⟨c, hc, hblank⟩ := List.any_eq_true.mp hbroken
      simp [cut?_eq_none.mp hcut c hc] at hblank
  | some parts =>
      obtain ⟨word, rest⟩ := parts
      obtain ⟨b, hb, hparts, hword⟩ := eq_append_of_cut? hcut
      obtain ⟨c, more, hcons, hc⟩ := head_behind_word htrimmed hspelled hcut
      have hcut' : cut? isBlank (text ++ call) = some (word, rest ++ call) := by
        rw [hparts, List.append_assoc, List.cons_append, cut?_append hword hb]
      have hafter : after? "callvirt".toList (trim (rest ++ call)) = none := by
        rw [Option.eq_none_iff_forall_ne_some]
        intro reference hreference
        have htrim := after?_eq_some_iff.mp hreference
        obtain ⟨tail, -, htail⟩ := exists_trimEnd (trimStart (rest ++ call))
        rw [trim] at htrim
        rw [htrim, trimStart_append (by simp [hcons]), hcons] at htail
        exact hc (List.cons.inj htail).1
      rw [lowerConstrained, String.toList_ofList, hcut']
      simp only [Resolve.orFail, pure_bind, hafter]
      rfl

theorem isOpcode_constrained : IsOpcode "constrained.".toList where
  ne_nil := by decide
  directive := by decide
  label := by decide
  lower := by decide
  plain := plain_iff.mpr rfl
  unbroken := unbroken_iff.mpr rfl

theorem spelled?_trim (text : String) :
    spelled? (String.ofList (trim text.toList)) = spelled? text := by
  obtain ⟨lead, tail, hlead, htail, htext⟩ := exists_trim text.toList
  rw [← spelled?_around hlead htail, ← htext, String.ofList_toList]

theorem referenced?_trim (text : List Char) : referenced? (trim text) = referenced? text := by
  obtain ⟨lead, tail, hlead, htail, htext⟩ := exists_trim text
  rw [← referenced?_around hlead htail, ← htext]

/-- The operand of a call on a constrained receiver, without the blanks around it. -/
theorem trim_constrained {receiver reference : List Char} (hreceiver : trim receiver ≠ [])
    (hreference : trim reference ≠ []) : ∃ gap lead, Blanks gap ∧ gap ≠ [] ∧ Blanks lead ∧
      Trimmed ("callvirt".toList ++ (lead ++ trim reference)) ∧
      trim (receiver ++ " callvirt ".toList ++ reference) =
        trim receiver ++ gap ++ ("callvirt".toList ++ (lead ++ trim reference)) := by
  obtain ⟨before, behind, hbefore, hbehind, hreceived⟩ := exists_trim receiver
  obtain ⟨before', behind', hbefore', hbehind', hreferred⟩ := exists_trim reference
  have hword : Trimmed "callvirt".toList := trimmed_of_unbroken (unbroken_iff.mpr rfl)
  have hcall : Trimmed ("callvirt".toList ++ ([' '] ++ before') ++ trim reference) :=
    hword.between (by decide) (trimmed_trim reference) hreference _
  refine ⟨behind ++ [' '], [' '] ++ before', hbehind.append blanks_space, by simp,
    blanks_space.append hbefore', ?_, ?_⟩
  · rwa [List.append_assoc] at hcall
  · have hcore : Trimmed (trim receiver ++ (behind ++ " callvirt ".toList ++ before') ++
        trim reference) :=
      (trimmed_trim receiver).between hreceiver (trimmed_trim reference) hreference _
    have htrim := trim_of_trimmed hbefore hcore hbehind'
    have htext : receiver ++ " callvirt ".toList ++ reference =
        before ++ (trim receiver ++ (behind ++ " callvirt ".toList ++ before') ++ trim reference) ++
          behind' := by
      nth_rewrite 1 [hreceived]
      nth_rewrite 1 [hreferred]
      simp
    rw [htext, htrim]
    simp

theorem trim_receiver {receiver : String} {t : Ty} (h : spelled? receiver = some t) :
    trim receiver.toList ≠ [] := by
  rw [← spelled?_trim] at h
  obtain ⟨base, hbase, suffixes, tail, -, htext⟩ := exists_base_append (trimmed_trim _) h
  have hsome : ∀ base ∈ baseNames, base ≠ "" := by decide +kernel
  rw [htext]
  intro hempty
  exact hsome base hbase (String.toList_eq_nil_iff.mp (List.append_eq_nil_iff.mp hempty).1)

theorem trim_reference {reference : List Char} {m : Method} (h : referenced? reference = some m) :
    trim reference ≠ [] := by
  intro hempty
  rw [← referenced?_trim, hempty] at h
  cases h

/-- A type of one word is that of the receiver. Where there is a blank inside, the call that ought to
come behind it is not found. -/
theorem run_lowerConstrained {g : Graph} (hg : g.Grown) {receiver reference : String} {t : Ty}
    {m : Method} (hspelled : spelled? receiver = some t)
    (hreferenced : referenced? reference.toList = some m) (line : Nat) :
    ((lowerConstrained line (String.ofList
      (trim (receiver ++ " callvirt " ++ reference).toList))).run.run g).1 =
        if (trim receiver.toList).any isBlank then .error (.resolve line .loneConstraint)
        else .ok (.callvirt m (some t)) := by
  obtain ⟨gap, lead, hgap, hsome, hlead, hcall, htrim⟩ :=
    trim_constrained (trim_receiver hspelled) (trim_reference hreferenced)
  rw [String.toList_append, String.toList_append, htrim]
  rw [← spelled?_trim] at hspelled
  split
  · rename_i hbroken
    rw [List.append_assoc, lowerConstrained_words (trimmed_trim _) hspelled hbroken]
    rfl
  · rename_i hword
    have hunbroken : ∀ c ∈ trim receiver.toList, isBlank c = false := by simpa using hword
    have hreferenced' :
        referenced? (String.ofList (lead ++ trim reference.toList)).toList = some m := by
      have haround := referenced?_around hlead blanks_nil (trim reference.toList)
      rwa [List.append_nil, referenced?_trim, hreferenced, ← String.toList_ofList (l := lead ++ _)]
        at haround
    have hmeans := (means_resolveMethod line (String.ofList (lead ++ trim reference.toList))).bind
      fun m => (means_resolveType line (String.ofList (trim receiver.toList))).bind
        fun t => Resolve.means_pure (Instruction.callvirt m (some t))
    rw [hreferenced', hspelled] at hmeans
    rw [lowerConstrained_word hunbroken hgap hsome hcall]
    exact hmeans.run hg

/-- A call on a constrained receiver is read and lowered as it is written if the type of the receiver
has no blank inside, and refused otherwise. -/
theorem constrained_calls_lowered {g g' g'' : Graph} (hg : g.Grown) {line : Nat}
    {receiver reference : String} {t : Ty} {m : Method}
    (hreceiver : (resolveType line receiver).run.run g = (.ok t, g'))
    (hreference : (resolveMethod line reference).run.run g = (.ok m, g''))
    {source : String} {methods : List MethodText} {body : MethodText}
    (hinside : Inside source methods body) {lead tail : String} (hlead : Blanks lead.toList)
    (htail : Remark tail.toList) (hline : '\n' ∉ (lead ++ receiver ++ reference).toList) :
    ∃ operand : String,
      Inside (source ++ (lead ++ "constrained. " ++ receiver ++ " callvirt " ++ reference ++ tail) ++
          "\n") methods
        (body.instruction (1 + (lines source.toList).length) "constrained." operand) ∧
      ((lowerInstruction line "constrained." (some operand)).run.run g).1 =
        if (trim receiver.toList).any isBlank then .error (.resolve line .loneConstraint)
        else .ok (.callvirt m (some t)) := by
  have hspelled := (means_resolveType line receiver).of_run hg hreceiver
  have hreferenced := (means_resolveMethod line reference).of_run hg hreference
  have hcallvirt : Plain " callvirt ".toList := plain_iff.mpr rfl
  have hoperand : Plain (receiver ++ " callvirt " ++ reference).toList := by
    rw [String.toList_append, String.toList_append]
    exact ((plain_of_spelled hspelled).append hcallvirt).append (plain_of_referenced hreferenced)
  have hsome : trim (receiver ++ " callvirt " ++ reference).toList ≠ [] := by
    obtain ⟨gap, before, -, -, -, -, htrim⟩ :=
      trim_constrained (trim_receiver hspelled) (trim_reference hreferenced)
    rw [String.toList_append, String.toList_append, htrim]
    simp
  have hnewline : '\n' ∉ (lead ++ (receiver ++ " callvirt " ++ reference)).toList := by
    simpa using hline
  have hread := hinside.instruction isOpcode_constrained hsome (plain_trim.mpr hoperand).closed
    hlead htail hnewline
  have hraw : lead ++ "constrained. " ++ receiver ++ " callvirt " ++ reference ++ tail =
      lead ++ "constrained." ++ " " ++ (receiver ++ " callvirt " ++ reference) ++ tail := by
    have hword : "constrained. " = "constrained." ++ " " := rfl
    simp only [hword, String.append_assoc]
  refine ⟨_, hraw ▸ hread.1, ?_⟩
  rw [lowerInstruction_some (by decide +kernel)]
  exact run_lowerConstrained hg hspelled hreferenced line

theorem exists_toString :
    ∃ m, referenced? "System.Object::ToString".toList = some m :=
  Option.isSome_iff_exists.mp (by decide +kernel)

open Sample in
theorem constrained_calls_lowered_keyword :
    ∃ (m : Method) (operand : String),
      ((resolveMethod 2 "System.Object::ToString").run.run .library).1 = .ok m ∧
      Inside (header ++ (" " ++ "constrained. " ++ "int32" ++ " callvirt " ++
          "System.Object::ToString" ++ " // boxed") ++ "\n") []
        (headerText.instruction 2 "constrained." operand) ∧
      ((lowerInstruction 2 "constrained." (some operand)).run.run .library).1 =
        .ok (.callvirt m (some .int32)) := by
  obtain ⟨m, hm⟩ := exists_toString
  have hmethod := means_resolveMethod 2 "System.Object::ToString"
  rw [hm] at hmethod
  have hspelled : spelled? "int32" = some .int32 := by decide +kernel
  have htype := means_resolveType 2 "int32"
  rw [hspelled] at htype
  have hlead : Blanks " ".toList := blanks_space
  have htail : Remark " // boxed".toList := .comment_behind_space (by decide)
  obtain ⟨g, hreceiver⟩ := htype.exists_run .library
  obtain ⟨g', hreference⟩ := hmethod.exists_run .library
  obtain ⟨operand, hinside, hlowered⟩ := constrained_calls_lowered .library hreceiver hreference
    inside_header hlead htail (by decide)
  exact ⟨m, operand, hmethod.run .library, hinside, hlowered⟩

open Sample in
/-- Another keyword for the same type is accepted. -/
theorem keyword_of_two_words_refused :
    ((resolveType 2 "unsigned int8").run.run .library).1 = .ok .byte ∧
      Inside (header ++ "constrained. unsigned int8 callvirt System.Object::ToString\n") []
        (headerText.instruction 2 "constrained." "unsigned int8 callvirt System.Object::ToString") ∧
      ((lowerInstruction 2 "constrained."
          (some "unsigned int8 callvirt System.Object::ToString")).run.run .library).1 =
        .error (.resolve 2 .loneConstraint) ∧
      ∃ m, ((resolveMethod 2 "System.Object::ToString").run.run .library).1 = .ok m ∧
        ((lowerInstruction 2 "constrained."
          (some "uint8 callvirt System.Object::ToString")).run.run .library).1 =
            .ok (.callvirt m (some .byte)) := by
  obtain ⟨m, hm⟩ := exists_toString
  have hmethod := means_resolveMethod 2 "System.Object::ToString"
  rw [hm] at hmethod
  have hspelled : spelled? "unsigned int8" = some .byte ∧ spelled? "uint8" = some .byte := by
    decide +kernel
  have htype := means_resolveType 2 "unsigned int8"
  rw [hspelled.1] at htype
  have hopcode : (opcodeInstruction? "constrained.").isNone = true := by decide +kernel
  have hdouble := run_lowerConstrained .library hspelled.1 hm 2
  have hsingle := run_lowerConstrained .library hspelled.2 hm 2
  refine ⟨htype.run .library, ⟨.inr rfl, rfl⟩, ?_, m, hmethod.run .library, ?_⟩
  · rw [lowerInstruction_some hopcode]
    exact hdouble
  · rw [lowerInstruction_some hopcode]
    exact hsingle

end ManagedCode.Source
