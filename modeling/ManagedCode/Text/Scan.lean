namespace ManagedCode.Text

/-! Blank characters are those with the Unicode property White_Space. -/

def isBlank (c : Char) : Bool :=
  let n := c.toNat
  (9 ≤ n && n ≤ 13) || n == 32 || n == 0x85 || n == 0xA0 || n == 0x1680 ||
    (0x2000 ≤ n && n ≤ 0x200A) || n == 0x2028 || n == 0x2029 || n == 0x202F ||
    n == 0x205F || n == 0x3000

def trimStart (cs : List Char) : List Char :=
  cs.dropWhile isBlank

def trimEnd (cs : List Char) : List Char :=
  (cs.reverse.dropWhile isBlank).reverse

def trim (cs : List Char) : List Char :=
  trimEnd (trimStart cs)

/-! Cutting text at separators. Nothing but the separators themselves is lost. -/

/-- Every maximal run without a separator, empty runs included. -/
def split (sep : Char) : List Char → List (List Char)
  | [] => [[]]
  | c :: cs =>
    if c = sep then [] :: split sep cs
    else
      match split sep cs with
      | [] => [[c]]
      | piece :: pieces => (c :: piece) :: pieces

theorem split_ne_nil (sep : Char) (cs : List Char) : split sep cs ≠ [] := by
  cases cs with
  | nil => simp [split]
  | cons c cs =>
    simp only [split]
    split
    · simp
    · split <;> simp

/-- The text before and after the first separator. -/
def cut? (isSep : Char → Bool) : List Char → Option (List Char × List Char)
  | [] => none
  | c :: cs =>
    if isSep c then some ([], cs)
    else (cut? isSep cs).map fun (before, after) => (c :: before, after)

/-- The text before and after the last separator. -/
def cutLast? (isSep : Char → Bool) : List Char → Option (List Char × List Char)
  | [] => none
  | c :: cs =>
    match cutLast? isSep cs with
    | some (before, after) => some (c :: before, after)
    | none => if isSep c then some ([], cs) else none

theorem eq_append_of_cut? {isSep : Char → Bool} {cs before after : List Char}
    (h : cut? isSep cs = some (before, after)) :
    ∃ c, isSep c = true ∧ cs = before ++ c :: after ∧ ∀ d ∈ before, isSep d = false := by
  induction cs generalizing before with
  | nil => simp [cut?] at h
  | cons c cs ih =>
    simp only [cut?] at h
    split at h
    · rename_i hc
      simp only [Option.some.injEq, Prod.mk.injEq] at h
      obtain ⟨rfl, rfl⟩ := h
      exact ⟨c, hc, rfl, by simp⟩
    · rename_i hc
      simp only [Option.map_eq_some_iff] at h
      obtain ⟨⟨b, a⟩, hcut, heq⟩ := h
      simp only [Prod.mk.injEq] at heq
      obtain ⟨rfl, rfl⟩ := heq
      obtain ⟨d, hd, rfl, hbefore⟩ := ih hcut
      exact ⟨d, hd, rfl, by simpa [hc] using hbefore⟩

/-- What follows a given opening, if the text opens with it. -/
def after? : List Char → List Char → Option (List Char)
  | [], cs => some cs
  | _ :: _, [] => none
  | p :: ps, c :: cs => if p = c then after? ps cs else none

theorem after?_eq_some_iff {opening cs rest : List Char} :
    after? opening cs = some rest ↔ cs = opening ++ rest := by
  induction opening generalizing cs with
  | nil => simp [after?]
  | cons p ps ih =>
    cases cs with
    | nil => simp [after?]
    | cons c cs =>
      simp only [after?, List.cons_append, List.cons.injEq]
      split
      · rename_i h
        simp [ih, h]
      · rename_i h
        simp [Ne.symm h]

/-- What precedes a given ending, if the text ends with it. -/
def before? (ending cs : List Char) : Option (List Char) :=
  (after? ending.reverse cs.reverse).map List.reverse

theorem before?_eq_some_iff {ending cs rest : List Char} :
    before? ending cs = some rest ↔ cs = rest ++ ending := by
  simp only [before?, Option.map_eq_some_iff, after?_eq_some_iff]
  constructor
  · rintro ⟨r, hr, rfl⟩
    have := congrArg List.reverse hr
    simpa using this
  · rintro rfl
    exact ⟨rest.reverse, by simp, by simp⟩

/-- The text before the first occurrence of a pattern and the text after it. -/
def cutAt? (pattern : List Char) : List Char → Option (List Char × List Char)
  | [] => (after? pattern []).map fun rest => ([], rest)
  | c :: cs =>
    match after? pattern (c :: cs) with
    | some rest => some ([], rest)
    | none => (cutAt? pattern cs).map fun (before, after) => (c :: before, after)

/-- Lines end at a newline, which takes a carriage return right before it with it. The last line
needs no newline. -/
def lines (cs : List Char) : List (List Char) :=
  ofPieces (split '\n' cs)
where
  ofPieces : List (List Char) → List (List Char)
    | [] => []
    | [last] => if last.isEmpty then [] else [last]
    | line :: rest => (before? ['\r'] line).getD line :: ofPieces rest

/-! Whole numbers in decimal digits. -/

def digit? (c : Char) : Option Nat :=
  if c.isDigit then some (c.toNat - '0'.toNat) else none

/-- The value of a run of digits, read after a leading part of value `high`. -/
def digitsValue? (high : Nat) : List Char → Option Nat
  | [] => some high
  | c :: cs =>
    match digit? c with
    | some d => digitsValue? (10 * high + d) cs
    | none => none

/-- At least one digit, and nothing else. -/
def readNat? : List Char → Option Nat
  | [] => none
  | c :: cs => digitsValue? 0 (c :: cs)

/-- A number below the bound, with an optional plus sign. -/
def readNatBelow? (bound : Nat) (cs : List Char) : Option Nat :=
  let magnitude :=
    match cs with
    | '+' :: rest => readNat? rest
    | cs => readNat? cs
  magnitude.bind fun n => if n < bound then some n else none

/-- A number with an optional sign that fits a signed word of the given magnitude bound. -/
def readIntWithin? (bound : Nat) (cs : List Char) : Option Int :=
  match cs with
  | '-' :: rest =>
    (readNat? rest).bind fun n => if n ≤ bound then some (-(n : Int)) else none
  | cs => (readNatBelow? bound cs).map Int.ofNat

end ManagedCode.Text
