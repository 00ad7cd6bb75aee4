import ManagedCode.Text.Scan

namespace ManagedCode.Text

/-! The spellings of a number: its decimal digits, with zeros in front and, at most, a plus sign
before these. -/

variable {cs : List Char} {high n bound zeros : Nat} {c : Char}

def spelling (plus : Bool) (zeros n : Nat) : List Char :=
  (if plus then ['+'] else []) ++ (List.replicate zeros '0' ++ Nat.toDigits 10 n)

theorem digit?_digitChar {d : Nat} (hd : d < 10) : digit? (Nat.digitChar d) = some d := by
  have hall : ∀ d < 10, digit? (Nat.digitChar d) = some d := by decide
  exact hall d hd

theorem of_digit? {d : Nat} (h : digit? c = some d) : d < 10 ∧ c = Nat.digitChar d := by
  unfold digit? at h
  split at h
  · rename_i hdigit
    have hrange : 48 ≤ c.toNat ∧ c.toNat ≤ 57 := by
      simpa [Char.isDigit, UInt32.le_iff_toNat_le] using hdigit
    have hvalue : c.toNat - 48 = d := Option.some.inj h
    have hd : d < 10 := by omega
    refine ⟨hd, Char.toNat_inj.mp ?_⟩
    rw [Nat.toNat_digitChar_of_lt_ten hd]
    omega
  · cases h

theorem digitsValue?_append (high : Nat) (cs ds : List Char) :
    digitsValue? high (cs ++ ds) = (digitsValue? high cs).bind (digitsValue? · ds) := by
  induction cs generalizing high with
  | nil => rfl
  | cons c cs ih =>
      rw [List.cons_append, digitsValue?, digitsValue?]
      cases digit? c with
      | none => rfl
      | some d => exact ih _

theorem digitsValue?_toDigits (n : Nat) : digitsValue? 0 (Nat.toDigits 10 n) = some n := by
  induction n using Nat.strongRecOn with
  | ind n ih =>
      rcases Nat.lt_or_ge n 10 with hn | hn
      · rw [Nat.toDigits_of_lt_base hn, digitsValue?, digit?_digitChar hn]
        exact congrArg some (Nat.zero_add n)
      · have hlast : n % 10 < 10 := Nat.mod_lt n (by decide)
        rw [Nat.toDigits_of_base_le (by decide) hn, digitsValue?_append, ih (n / 10) (by omega),
          Option.bind_some, digitsValue?, digit?_digitChar hlast]
        exact congrArg some (by omega)

theorem digitsValue?_zeros (zeros : Nat) (cs : List Char) :
    digitsValue? 0 (List.replicate zeros '0' ++ cs) = digitsValue? 0 cs := by
  induction zeros with
  | zero => rfl
  | succ zeros ih => exact ih

theorem exists_digit_of_mem (h : digitsValue? high cs = some n) (hc : c ∈ cs) :
    ∃ d, digit? c = some d := by
  induction cs generalizing high with
  | nil => cases hc
  | cons first rest ih =>
      rw [digitsValue?] at h
      cases hfirst : digit? first with
      | none =>
          rw [hfirst] at h
          cases h
      | some d =>
          rw [hfirst] at h
          rcases List.mem_cons.mp hc with rfl | hc
          · exact ⟨d, hfirst⟩
          · exact ih h hc

/-- Behind the digits of a number that is not zero, a run of digits goes on to the digits of its
value. -/
theorem toDigits_append_of_digitsValue? (hhigh : 0 < high) (h : digitsValue? high cs = some n) :
    Nat.toDigits 10 high ++ cs = Nat.toDigits 10 n := by
  induction cs generalizing high with
  | nil =>
      cases h
      exact List.append_nil _
  | cons c cs ih =>
      rw [digitsValue?] at h
      cases hdigit : digit? c with
      | none =>
          rw [hdigit] at h
          cases h
      | some d =>
          rw [hdigit] at h
          obtain ⟨hd, rfl⟩ := of_digit? hdigit
          have hstep := Nat.toDigits_append_toDigits (b := 10) (n := high) (d := d) (by decide) hhigh hd
          rw [Nat.toDigits_of_lt_base hd] at hstep
          calc
            Nat.toDigits 10 high ++ Nat.digitChar d :: cs =
                (Nat.toDigits 10 high ++ [Nat.digitChar d]) ++ cs := by simp
            _ = Nat.toDigits 10 (10 * high + d) ++ cs := by rw [hstep]
            _ = Nat.toDigits 10 n := ih (by omega) h

/-- Zeros come first, and then the digits. -/
theorem exists_zeros_of_digitsValue? (hcs : cs ≠ []) (h : digitsValue? 0 cs = some n) :
    ∃ zeros, cs = List.replicate zeros '0' ++ Nat.toDigits 10 n := by
  induction cs with
  | nil => exact absurd rfl hcs
  | cons c cs ih =>
      rw [digitsValue?] at h
      cases hdigit : digit? c with
      | none =>
          rw [hdigit] at h
          cases h
      | some d =>
          rw [hdigit] at h
          obtain ⟨hd, rfl⟩ := of_digit? hdigit
          simp only [Nat.mul_zero, Nat.zero_add] at h
          rcases Nat.eq_zero_or_pos d with rfl | hpos
          · cases cs with
            | nil =>
                cases h
                exact ⟨0, rfl⟩
            | cons c' rest =>
                obtain ⟨zeros, hzeros⟩ := ih (by simp) h
                exact ⟨zeros + 1, congrArg (List.cons '0') hzeros⟩
          · refine ⟨0, ?_⟩
            have hdigits := toDigits_append_of_digitsValue? hpos h
            rw [Nat.toDigits_of_lt_base hd] at hdigits
            exact hdigits

theorem readNat?_eq_some_iff :
    readNat? cs = some n ↔ ∃ zeros, cs = List.replicate zeros '0' ++ Nat.toDigits 10 n := by
  constructor
  · intro h
    cases cs with
    | nil => cases h
    | cons c cs => exact exists_zeros_of_digitsValue? (by simp) h
  · rintro ⟨zeros, rfl⟩
    have hvalue := digitsValue?_zeros zeros (Nat.toDigits 10 n)
    rw [digitsValue?_toDigits] at hvalue
    cases hcs : List.replicate zeros '0' ++ Nat.toDigits 10 n with
    | nil =>
        have hdigits : Nat.toDigits 10 n = [] := (List.append_eq_nil_iff.mp hcs).2
        exact absurd hdigits Nat.toDigits_ne_nil
    | cons c cs =>
        rw [hcs] at hvalue
        exact hvalue

theorem readNatBelow?_plus (bound : Nat) (cs : List Char) :
    readNatBelow? bound ('+' :: cs) =
      (readNat? cs).bind fun n => if n < bound then some n else none :=
  rfl

theorem readNatBelow?_of_digits (h : readNat? cs = some n) (bound : Nat) :
    readNatBelow? bound cs = if n < bound then some n else none := by
  unfold readNatBelow?
  split
  · -- A plus sign is no digit.
    cases h
  · rw [h]
    rfl

/-- What is read as a number below a bound is a spelling of one. -/
theorem readNatBelow?_eq_some_iff :
    readNatBelow? bound cs = some n ↔ n < bound ∧ ∃ plus zeros, cs = spelling plus zeros n := by
  constructor
  · intro h
    unfold readNatBelow? at h
    obtain ⟨m, hm, hbelow⟩ := Option.bind_eq_some_iff.mp h
    split at hbelow
    · rename_i hlt
      cases hbelow
      refine ⟨hlt, ?_⟩
      split at hm
      · obtain ⟨zeros, hzeros⟩ := readNat?_eq_some_iff.mp hm
        exact ⟨true, zeros, congrArg (List.cons '+') hzeros⟩
      · obtain ⟨zeros, hzeros⟩ := readNat?_eq_some_iff.mp hm
        exact ⟨false, zeros, hzeros⟩
    · cases hbelow
  · rintro ⟨hlt, plus, zeros, rfl⟩
    have hread : readNat? (List.replicate zeros '0' ++ Nat.toDigits 10 n) = some n :=
      readNat?_eq_some_iff.mpr ⟨zeros, rfl⟩
    cases plus with
    | true =>
        have hplus := readNatBelow?_plus bound (List.replicate zeros '0' ++ Nat.toDigits 10 n)
        rw [hread, Option.bind_some, if_pos hlt] at hplus
        exact hplus
    | false =>
        have hdigits := readNatBelow?_of_digits hread bound
        rw [if_pos hlt] at hdigits
        exact hdigits

theorem mem_spelling {plus : Bool} (hc : c ∈ spelling plus zeros n) :
    c = '+' ∨ ∃ d, digit? c = some d := by
  rcases List.mem_append.mp hc with hsign | hdigits
  · cases plus with
    | true => exact .inl (List.mem_singleton.mp hsign)
    | false => cases hsign
  · have hvalue := digitsValue?_zeros zeros (Nat.toDigits 10 n)
    rw [digitsValue?_toDigits] at hvalue
    exact .inr (exists_digit_of_mem hvalue hdigits)

theorem length_spelling (plus : Bool) (zeros n : Nat) :
    (spelling plus zeros n).length = plus.toNat + zeros + (Nat.toDigits 10 n).length := by
  cases plus with
  | true => simp [spelling]; omega
  | false => simp [spelling]

/-- A number as it is written has no plus sign and no zeros in front. -/
theorem spelling_eq_toString_iff {plus : Bool} :
    spelling plus zeros n = (toString n).toList ↔ plus = false ∧ zeros = 0 := by
  have hwritten : (toString n).toList = Nat.toDigits 10 n := Nat.toList_repr
  rw [hwritten]
  constructor
  · intro h
    have hlength := congrArg List.length h
    rw [length_spelling] at hlength
    cases plus with
    | true => simp at hlength
    | false => exact ⟨rfl, by simpa using hlength⟩
  · rintro ⟨rfl, rfl⟩
    rfl

end ManagedCode.Text
