import ManagedCode.Proofs.Builder.Nesting

namespace ManagedCode

/-! Which part of which exception block a place in a listing lies in. -/

namespace Listing

/-- A protected region or a handler. -/
structure Part where
  region : Region
  /-- The place of the marker with which it begins. -/
  start : Nat
  deriving DecidableEq

/-- The open parts behind an item, the innermost first. -/
def advance (position : Nat) (parts : List Part) : Item → List Part
  | .marker .beginTry => ⟨.tryBlock, position⟩ :: parts
  | .marker (.beginCatch _) => ⟨.catchBlock, position⟩ :: parts.tail
  | .marker .beginFinally => ⟨.finallyBlock, position⟩ :: parts.tail
  | .marker .close => parts.tail
  | .instruction _ | .branch _ | .label _ => parts

def scan : Nat → List Part → List Item → List Part
  | _, parts, [] => parts
  | position, parts, i :: rest => scan (position + 1) (advance position parts i) rest

/-- The parts that are open at the end. -/
def openParts (items : List Item) : List Part := scan 0 [] items

def innermost? (items : List Item) : Option Part := (openParts items).head?

variable {items before between : List Item} {i : Item} {parts : List Part} {part p : Part}

theorem scan_append (position : Nat) (parts : List Part) (items more : List Item) :
    scan position parts (items ++ more) =
      scan (position + items.length) (scan position parts items) more := by
  induction items generalizing position parts with
  | nil => rfl
  | cons i rest ih =>
      rw [List.cons_append, scan, ih, List.length_cons, Nat.add_assoc, Nat.add_comm 1]
      rfl

theorem openParts_add (items : List Item) (i : Item) :
    openParts (items ++ [i]) = advance items.length (openParts items) i := by
  rw [openParts, scan_append, Nat.zero_add]
  rfl

theorem advance_of_not_marker (hi : i.isMarker = false) (position : Nat) (parts : List Part) :
    advance position parts i = parts := by
  cases i with
  | marker => cases hi
  | instruction | branch | label => rfl

theorem openParts_add_item (items : List Item) (hi : i.isMarker = false) :
    openParts (items ++ [i]) = openParts items := by
  rw [openParts_add, advance_of_not_marker hi]

theorem innermost?_add_item (items : List Item) (hi : i.isMarker = false) :
    innermost? (items ++ [i]) = innermost? items := by
  rw [innermost?, openParts_add_item items hi]
  rfl

theorem mem_advance {position : Nat} (h : p ∈ advance position parts i) :
    p ∈ parts ∨ p.start = position := by
  cases i with
  | instruction | branch | label => exact .inl h
  | marker m =>
      cases m with
      | beginTry =>
          rcases List.mem_cons.mp h with rfl | h
          · exact .inr rfl
          · exact .inl h
      | beginCatch | beginFinally =>
          rcases List.mem_cons.mp h with rfl | h
          · exact .inr rfl
          · exact .inl (List.mem_of_mem_tail h)
      | close => exact .inl (List.mem_of_mem_tail h)

/-- A marker other than the first of a block ends the innermost part. -/
theorem mem_advance_marker {position : Nat} {m : Marker} (hm : m ≠ .beginTry)
    (h : p ∈ advance position parts (.marker m)) : p ∈ parts.tail ∨ p.start = position := by
  cases m with
  | beginTry => exact absurd rfl hm
  | beginCatch | beginFinally =>
      rcases List.mem_cons.mp h with rfl | h
      · exact .inr rfl
      · exact .inl h
  | close => exact .inl h

/-- An inner part begins later. -/
def Ordered (position : Nat) (parts : List Part) : Prop :=
  (∀ p ∈ parts, p.start < position) ∧ parts.Pairwise fun inner outer => outer.start < inner.start

theorem Ordered.advance {position : Nat} (h : Ordered position parts) (i : Item) :
    Ordered (position + 1) (advance position parts i) := by
  obtain ⟨hbefore, hpairs⟩ := h
  constructor
  · intro p hp
    rcases mem_advance hp with hp | hp
    · exact Nat.lt_succ_of_lt (hbefore p hp)
    · exact Nat.lt_succ_of_le (Nat.le_of_eq hp)
  · have htail := hpairs.tail
    cases i with
    | instruction | branch | label => exact hpairs
    | marker m =>
        cases m with
        | beginTry => exact hpairs.cons hbefore
        | beginCatch | beginFinally =>
            exact htail.cons fun p hp => hbefore p (List.mem_of_mem_tail hp)
        | close => exact htail

theorem ordered_scan {position : Nat} (h : Ordered position parts) (items : List Item) :
    Ordered (position + items.length) (scan position parts items) := by
  induction items generalizing position parts with
  | nil => exact h
  | cons i rest ih =>
      rw [List.length_cons, Nat.add_comm rest.length, ← Nat.add_assoc]
      exact ih (h.advance i)

theorem ordered_openParts (items : List Item) : Ordered items.length (openParts items) := by
  have hnil : Ordered 0 [] := ⟨nofun, .nil⟩
  have h := ordered_scan hnil items
  rwa [Nat.zero_add] at h

/-- Complete blocks leave the open parts as they are. -/
theorem scan_nested (h : Nested items) (position : Nat) (parts : List Part) :
    scan position parts items = parts := by
  -- Along with it: the inside of a block only puts another part in the place of the innermost one.
  refine @Nested.rec (fun items _ => ∀ position parts, scan position parts items = parts)
    (fun _ _ items _ => ∀ position part parts,
      ∃ last, scan position (part :: parts) items = last :: parts)
    ?nil ?item ?block ?region ?catchHandler ?finallyHandler items h position parts
  case nil => exact fun _ _ => rfl
  case item =>
      intro items i _ hi ih position parts
      rw [scan_append, ih]
      exact advance_of_not_marker hi _ _
  case block =>
      intro items inner _ _ _ ih ihInner position parts
      rw [scan_append, ih, scan, advance, scan_append]
      obtain ⟨last, hlast⟩ := ihInner _ _ _
      rw [hlast]
      rfl
  case region => exact fun _ ih position part parts => ⟨part, ih position (part :: parts)⟩
  case catchHandler =>
      intro _ inner items exception _ _ ihInner ih position part parts
      obtain ⟨last, hlast⟩ := ihInner position part parts
      rw [scan_append, hlast, scan, ih]
      exact ⟨_, rfl⟩
  case finallyHandler =>
      intro _ inner items _ _ ihInner ih position part parts
      obtain ⟨last, hlast⟩ := ihInner position part parts
      rw [scan_append, hlast, scan, ih]
      exact ⟨_, rfl⟩

/-! What stands behind a place of a listing. -/

/-- Either the part in which the place lies is still open, and what follows has blocks of its own,
or that part has ended. -/
inductive Follows (blocks : List Block) (before between : List Item) : Prop where
  | inside {inner outer : List Block} (parts : List Part) : blocks = inner ++ outer →
      Open inner between → openParts (before ++ between) = parts ++ openParts before →
      parts.length = inner.length → (∀ p ∈ parts, before.length ≤ p.start) →
      Follows blocks before between
  | outside {part : Part} : innermost? before = some part →
      (∀ p ∈ openParts (before ++ between), p ≠ part) → Follows blocks before between

theorem start_lt_length (h : p ∈ openParts items) : p.start < items.length :=
  (ordered_openParts items).1 p h

namespace Follows

variable {blocks rest : List Block} {block block' : Block}

theorem here (blocks : List Block) (before : List Item) : Follows blocks before [] := by
  refine .inside [] (List.nil_append blocks).symm (.outside .nil) ?_ rfl nofun
  rw [List.append_nil, List.nil_append]

theorem stays_outside (hpart : innermost? before = some part)
    (hparts : ∀ p ∈ openParts (before ++ between), p ≠ part) (i : Item) (blocks : List Block) :
    Follows blocks before (between ++ [i]) := by
  refine .outside hpart ?_
  intro p hp
  rw [← List.append_assoc, openParts_add] at hp
  rcases mem_advance hp with hp | hstart
  · exact hparts p hp
  · rintro rfl
    have hlt := start_lt_length (List.mem_of_mem_head? hpart)
    rw [hstart, List.length_append] at hlt
    omega

/-- The innermost part ends, and with it the part in which the place lies. -/
theorem goes_outside {m : Marker} (hm : m ≠ .beginTry)
    (hsame : openParts (before ++ between) = openParts before)
    (hlength : (openParts (before ++ between)).length = rest.length + 1) (blocks : List Block) :
    Follows blocks before (between ++ [.marker m]) := by
  rw [hsame] at hlength
  obtain ⟨part, parts, hparts⟩ := List.exists_cons_of_length_eq_add_one hlength
  have hpart : part ∈ openParts before := hparts ▸ List.mem_cons_self
  have hinnermost : innermost? before = some part := by
    rw [innermost?, hparts]
    rfl
  refine .outside hinnermost ?_
  intro p hp
  rw [← List.append_assoc, openParts_add, hsame, hparts] at hp
  rintro rfl
  -- What stays open began before the part that ends, and what begins now begins behind it.
  rcases mem_advance_marker hm hp with hp | hstart
  · have hpairs := (ordered_openParts before).2
    rw [hparts] at hpairs
    exact Nat.lt_irrefl _ (List.rel_of_pairwise_cons hpairs hp)
  · have hlt := start_lt_length hpart
    rw [hstart, List.length_append] at hlt
    omega

theorem add_item {i : Item} (h : Follows blocks before between) (hi : i.isMarker = false) :
    Follows blocks before (between ++ [i]) := by
  cases h with
  | outside hpart hparts => exact stays_outside hpart hparts i blocks
  | inside parts hblocks hopen hparts hlength hstarts =>
      refine .inside parts hblocks (hopen.add_item hi) ?_ hlength hstarts
      rw [← List.append_assoc, openParts_add_item _ hi, hparts]

theorem beginTry (h : Follows blocks before between) (endLabel : Label) :
    Follows (⟨endLabel, .tryBlock, false, false⟩ :: blocks) before
      (between ++ [.marker .beginTry]) := by
  cases h with
  | outside hpart hparts => exact stays_outside hpart hparts _ _
  | inside parts hblocks hopen hparts hlength hstarts =>
      refine .inside (⟨.tryBlock, (before ++ between).length⟩ :: parts) (congrArg _ hblocks)
        (hopen.beginTry endLabel) ?_ (congrArg _ hlength) ?_
      · rw [← List.append_assoc, openParts_add, hparts]
        rfl
      · refine List.forall_mem_cons.mpr ⟨?_, hstarts⟩
        rw [List.length_append]
        exact Nat.le_add_right _ _

theorem nextPart {m : Marker} {region : Region} (h : Follows (block :: rest) before between)
    (hlength : (openParts (before ++ between)).length = rest.length + 1) (hm : m ≠ .beginTry)
    (hadvance : ∀ position parts,
      advance position parts (.marker m) = ⟨region, position⟩ :: parts.tail)
    (hstep : ∀ inner, Open (block :: inner) between →
      Open (block' :: inner) (between ++ [.marker m])) :
    Follows (block' :: rest) before (between ++ [.marker m]) := by
  cases h with
  | outside hpart hparts => exact stays_outside hpart hparts _ _
  | @inside inner outer parts hblocks hopen hparts hcount hstarts =>
      cases inner with
      | nil =>
          cases List.length_eq_zero_iff.mp hcount
          exact goes_outside hm hparts hlength _
      | cons first inner =>
          obtain ⟨rfl, hrest⟩ := List.cons_eq_cons.mp hblocks
          obtain ⟨part, parts, rfl⟩ := List.exists_cons_of_length_eq_add_one hcount
          refine .inside (⟨region, (before ++ between).length⟩ :: parts) (congrArg _ hrest)
            (hstep inner hopen) ?_ hcount ?_
          · rw [← List.append_assoc, openParts_add, hadvance, hparts]
            rfl
          · refine List.forall_mem_cons.mpr ⟨?_, (List.forall_mem_cons.mp hstarts).2⟩
            rw [List.length_append]
            exact Nat.le_add_right _ _

theorem close (h : Follows (block :: rest) before between)
    (hlength : (openParts (before ++ between)).length = rest.length + 1)
    (hhandler : block.hasHandler = true) : Follows rest before (between ++ [.marker .close]) := by
  cases h with
  | outside hpart hparts => exact stays_outside hpart hparts _ _
  | @inside inner outer parts hblocks hopen hparts hcount hstarts =>
      cases inner with
      | nil =>
          cases List.length_eq_zero_iff.mp hcount
          exact goes_outside (m := .close) nofun hparts hlength _
      | cons first inner =>
          obtain ⟨rfl, hrest⟩ := List.cons_eq_cons.mp hblocks
          obtain ⟨part, parts, rfl⟩ := List.exists_cons_of_length_eq_add_one hcount
          refine .inside parts hrest (hopen.close hhandler) ?_ (Nat.succ.inj hcount)
            (List.forall_mem_cons.mp hstarts).2
          rw [← List.append_assoc, openParts_add, hparts]
          rfl

/-- What returns to the same part consists of complete blocks. -/
theorem nested (h : Follows blocks before between)
    (hsame : innermost? (before ++ between) = innermost? before) : Nested between := by
  cases h with
  | outside hpart hparts =>
      rw [hpart] at hsame
      exact absurd rfl (hparts _ (List.mem_of_mem_head? hsame))
  | @inside inner outer parts hblocks hopen hparts hcount hstarts =>
      cases parts with
      | nil =>
          cases List.length_eq_zero_iff.mp hcount.symm
          exact hopen.nested
      | cons part parts =>
          rw [innermost?, hparts] at hsame
          have hlt := start_lt_length (List.mem_of_mem_head? hsame.symm)
          exact absurd hlt (Nat.not_lt.mpr (hstarts part List.mem_cons_self))

end Follows

end Listing

end ManagedCode
