import ManagedCode.Graph.Library
import ManagedCode.Proofs.Verify.Frame

namespace ManagedCode

/-! Memory is accessed as the type that an instruction names, whatever its place is declared as. What
is read has to suit the instruction, and what is written has to suit the place. -/

theorem Ty.integerSize?_of_isReference {t : Ty} (h : t.isReference = true) :
    t.integerSize? = none := by
  cases t with
  | object | subclass | interface | array | bareArray => rfl
  | struct | enum | primitive | byRef | pointer => cases h

namespace Graph

variable {g : Graph} {t u : Ty}

/-- A place declared as the second type may hold what is of the first. -/
def Suits (g : Graph) (t u : Ty) : Prop :=
  t = u ∨ (t.isReference = true ∧ u.isReference = true ∧ g.isAssignable t u = true) ∨
    ∃ size, t.integerSize? = some size ∧ u.integerSize? = some size

theorem suits_iff_of_isReference (ht : t.isReference = true) (hu : u.isReference = true) :
    g.Suits t u ↔ g.isAssignable t u = true := by
  constructor
  · rintro (rfl | ⟨-, -, hassignable⟩ | ⟨size, hsize, -⟩)
    · exact g.isAssignable_self t
    · exact hassignable
    · rw [Ty.integerSize?_of_isReference ht] at hsize
      cases hsize
  · intro hassignable
    exact .inr (.inl ⟨ht, hu, hassignable⟩)

/-- Only between references does the direction matter. -/
theorem Suits.reversed_iff (h : g.Suits t u) :
    g.Suits u t ↔ (u.isReference = true → t.isReference = true → g.isAssignable u t = true) := by
  constructor
  · intro hsuits hu ht
    exact (suits_iff_of_isReference hu ht).mp hsuits
  · intro hassignable
    rcases h with rfl | ⟨ht, hu, -⟩ | ⟨size, ht, hu⟩
    · exact .inl rfl
    · exact .inr (.inl ⟨hu, ht, hassignable hu ht⟩)
    · exact .inr (.inr ⟨size, hu, ht⟩)

end Graph

section

variable {g : Graph} {t u : Ty}

theorem referentMatches_iff : referentMatches g t u = true ↔ g.Suits t u := by
  unfold referentMatches
  split
  · exact iff_of_true rfl (.inl ‹_›)
  · rename_i hne
    split
    · rename_i href
      obtain ⟨ht, hu⟩ := Bool.and_eq_true_iff.mp href
      exact (Graph.suits_iff_of_isReference ht hu).symm
    · rename_i href
      have hsizes : g.Suits t u ↔ ∃ size, t.integerSize? = some size ∧ u.integerSize? = some size := by
        constructor
        · rintro (heq | ⟨ht, hu, -⟩ | hsizes)
          · exact absurd heq hne
          · exact absurd (Bool.and_eq_true_iff.mpr ⟨ht, hu⟩) href
          · exact hsizes
        · exact fun hsizes => .inr (.inr hsizes)
      rw [hsizes]
      cases t.integerSize? with
      | none => simp
      | some size => cases u.integerSize? <;> simp [eq_comm]

/-- Arrays of references are accessed in either direction. -/
theorem elementMatches_iff :
    elementMatches g t u = true ↔
      g.Suits t u ∨ t.isReference = true ∧ u.isReference = true ∧ g.isAssignable u t = true := by
  unfold elementMatches
  constructor
  · intro h
    rcases Bool.or_eq_true_iff.mp h with h | hmatches
    · rcases Bool.or_eq_true_iff.mp h with heq | href
      · exact .inl (.inl (of_decide_eq_true heq))
      · simp only [Bool.and_eq_true, Bool.or_eq_true] at href
        obtain ⟨⟨ht, hu⟩, hread | hwrite⟩ := href
        · exact .inl (.inr (.inl ⟨ht, hu, hread⟩))
        · exact .inr ⟨ht, hu, hwrite⟩
    · exact .inl (referentMatches_iff.mp hmatches)
  · rintro (hsuits | ⟨ht, hu, hwrite⟩)
    · rw [referentMatches_iff.mpr hsuits, Bool.or_true]
    · simp [ht, hu, hwrite]

end

namespace StackType

variable {s : StackType} {r : Ty}

def PointsTo (s : StackType) (r : Ty) : Prop :=
  s = simple (.byRef r) ∨ s = simple (.pointer r)

def IsArrayOf (s : StackType) (r : Ty) : Prop :=
  ∃ t, s = simple t ∧ t.element? = some r

end StackType

/-! What the operands of an accepted step are. -/

namespace Step

variable {α : Type} {s v : EvalStack} {a : StackType} {rest : Shape} {t r : Ty} {reason : String}
  {u : Unit}

/-- A step that takes one operand leaves what is below it. -/
theorem Takes.rest_eq {x : Step α} {b : α} (hx : x.Takes 1) (hs : s.shape = a :: rest)
    (h : x.on s = (.ok b, v)) : v.shape = rest := by
  have hdepth : 1 ≤ s.depth := by
    rw [← EvalStack.length_shape, hs]
    exact Nat.succ_pos _
  have hv : v = s.drop 1 := hx.ok hdepth h
  rw [hv, EvalStack.shape_drop, hs]
  rfl

theorem popped_eq {a' : StackType} (hs : s.shape = a :: rest)
    (h : (pop reason).on s = (.ok a', v)) : a' = a := by
  have hshape := pop_ok h
  rw [hs] at hshape
  exact (List.cons.inj hshape).1.symm

theorem popExpecting_ok {g : Graph} (hs : s.shape = a :: rest)
    (h : (popExpecting g t reason).on s = (.ok u, v)) :
    a.isAssignableTo g t = true ∧ v.shape = rest := by
  refine ⟨?_, (takes_popExpecting g t reason).rest_eq hs h⟩
  obtain ⟨found, w, hpop, hcheck⟩ := bind_ok h
  rw [← popped_eq hs hpop]
  exact (check_ok hcheck).1

theorem popAddress_ok {c : Context} (hs : s.shape = a :: rest)
    (h : (popAddress c (some t) reason).on s = (.ok u, v)) :
    (a.PointsTo r → c.graph.Suits r t) ∧ v.shape = rest := by
  refine ⟨?_, (takes_popAddress c (some t) reason).rest_eq hs h⟩
  obtain ⟨address, w, hpop, hrest⟩ := bind_ok h
  cases popped_eq hs hpop
  intro hpoints
  apply referentMatches_iff.mp
  rcases hpoints with rfl | rfl
  · exact (check_ok hrest).1
  · exact (check_ok hrest).1

theorem popArray_ok {element : Option Ty} (hs : s.shape = a :: rest)
    (h : (popArray reason).on s = (.ok element, v)) :
    (a.IsArrayOf r → element = some r) ∧ v.shape = rest := by
  refine ⟨?_, (takes_popArray reason).rest_eq hs h⟩
  obtain ⟨array, w, hpop, hrest⟩ := bind_ok h
  cases popped_eq hs hpop
  rintro ⟨t, rfl, helement⟩
  simp only [helement] at hrest
  cases hrest
  rfl

end Step

namespace Context

open Step

variable {c : Context} {i : Instruction} {s v : EvalStack} {a b : StackType} {rest : Shape}
  {t r : Ty} {u : Unit}

theorem verify_accepted (h : (c.verify i).accepts s = true) :
    (c.step i).on s = (.ok (), (c.verify i).after s) := by
  obtain ⟨_, v, hrun⟩ := accepts_iff.mp h
  rw [after, hrun]
  exact (verify_ok hrun).2

theorem load_ok (hs : s.shape = a :: rest) (h : (load c t).on s = (.ok u, v)) :
    (a.PointsTo r → c.graph.Suits r t) ∧ v.shape = .simple t :: rest := by
  obtain ⟨_, w, haddress, hpush⟩ := bind_ok h
  obtain ⟨hsuits, hw⟩ := popAddress_ok (r := r) hs haddress
  cases hpush
  exact ⟨hsuits, congrArg (_ :: ·) hw⟩

theorem store_ok (hs : s.shape = a :: b :: rest) (h : (store c t).on s = (.ok u, v)) :
    a.isAssignableTo c.graph t = true ∧ (b.PointsTo r → c.graph.Suits r t) := by
  obtain ⟨_, w, hvalue, haddress⟩ := bind_ok h
  obtain ⟨hassignable, hw⟩ := popExpecting_ok hs hvalue
  exact ⟨hassignable, (popAddress_ok hw haddress).1⟩

/-- Source and destination are checked alike. -/
theorem copy_ok (hs : s.shape = a :: b :: rest) (h : (c.step (.cpobj t)).on s = (.ok u, v)) :
    (a.PointsTo r → c.graph.Suits r t) ∧ (b.PointsTo r → c.graph.Suits r t) := by
  obtain ⟨_, w, hsource, hdestination⟩ := bind_ok h
  obtain ⟨hread, hw⟩ := popAddress_ok hs hsource
  exact ⟨hread, (popAddress_ok hw hdestination).1⟩

/-- The element need not suit what is read. -/
theorem loadElement_ok (hs : s.shape = a :: b :: rest) (h : (c.step (.ldelem t)).on s = (.ok u, v)) :
    (b.IsArrayOf r → elementMatches c.graph r t = true) ∧ v.shape = .simple t :: rest := by
  obtain ⟨_, w, hindex, h⟩ := bind_ok h
  have hw := (takes_popIndex _).rest_eq hs hindex
  obtain ⟨element, x, harray, h⟩ := bind_ok h
  obtain ⟨helement, hx⟩ := popArray_ok (r := r) hw harray
  cases element with
  | none =>
      cases h
      exact ⟨fun harrayOf => (nomatch helement harrayOf), congrArg (_ :: ·) hx⟩
  | some element =>
      obtain ⟨_, y, hcheck, hpush⟩ := bind_ok h
      obtain ⟨hmatches, rfl⟩ := check_ok hcheck
      cases hpush
      refine ⟨fun harrayOf => ?_, congrArg (_ :: ·) hx⟩
      cases helement harrayOf
      exact hmatches

theorem loadReference_ok (hs : s.shape = a :: b :: rest) (harrayOf : b.IsArrayOf r)
    (h : (c.step .ldelemRef).on s = (.ok u, v)) : v.shape = .simple r :: rest := by
  obtain ⟨_, w, hindex, h⟩ := bind_ok h
  have hw := (takes_popIndex _).rest_eq hs hindex
  obtain ⟨element, x, harray, h⟩ := bind_ok h
  obtain ⟨helement, hx⟩ := popArray_ok hw harray
  cases helement harrayOf
  obtain ⟨_, y, hcheck, hpush⟩ := bind_ok h
  obtain ⟨-, rfl⟩ := check_ok hcheck
  cases hpush
  exact congrArg (_ :: ·) hx

end Context

namespace Instruction

/-- The instruction reads what is of the type from an address among its operands. -/
inductive Reads (t : Ty) : Instruction → Shape → StackType → Prop where
  | ldind {address : StackType} {rest : Shape} : Reads t (.ldind t) (address :: rest) address
  | ldobj {address : StackType} {rest : Shape} : Reads t (.ldobj t) (address :: rest) address
  | cpobj {address destination : StackType} {rest : Shape} :
      Reads t (.cpobj t) (address :: destination :: rest) address

/-- The instruction writes what is of the type to an address among its operands. -/
inductive Writes (t : Ty) : Instruction → Shape → StackType → Prop where
  | stind {value address : StackType} {rest : Shape} :
      Writes t (.stind t) (value :: address :: rest) address
  | stobj {value address : StackType} {rest : Shape} :
      Writes t (.stobj t) (value :: address :: rest) address
  | cpobj {source address : StackType} {rest : Shape} :
      Writes t (.cpobj t) (source :: address :: rest) address

end Instruction

namespace Context

open Step

variable {c : Context} {s : EvalStack} {i : Instruction} {t r : Ty} {address : StackType}

theorem suits_of_reads (hreads : i.Reads t s.shape address) (hpoints : address.PointsTo r)
    (haccepted : (c.verify i).accepts s = true) : c.graph.Suits r t := by
  have hrun := verify_accepted haccepted
  generalize hs : s.shape = shape at hreads
  cases hreads with
  | ldind | ldobj => exact (load_ok hs hrun).1 hpoints
  | cpobj => exact (copy_ok hs hrun).1 hpoints

theorem suits_of_writes (hwrites : i.Writes t s.shape address) (hpoints : address.PointsTo r)
    (haccepted : (c.verify i).accepts s = true) : c.graph.Suits r t := by
  have hrun := verify_accepted haccepted
  generalize hs : s.shape = shape at hwrites
  cases hwrites with
  | stind | stobj => exact (store_ok hs hrun).2 hpoints
  | cpobj => exact (copy_ok hs hrun).2 hpoints

/-- Nothing but the library and an empty body. -/
def bare : Context where
  graph := .library
  arguments := #[]
  locals := #[]
  result := none
  region := none
  settings := .strict

/-- An object comes to where a string is declared. -/
theorem supertype_stored :
    ¬ bare.graph.Suits .object .string ∧
    (bare.verify (.stind .object)).accepts
      (.ofShape [.simple .object, .simple (.byRef .string)]) = true ∧
    (bare.verify (.stobj .object)).accepts
      (.ofShape [.simple .object, .simple (.byRef .string)]) = true ∧
    (bare.verify (.cpobj .object)).accepts
      (.ofShape [.simple (.byRef .object), .simple (.byRef .string)]) = true := by
  rw [Graph.suits_iff_of_isReference rfl rfl]
  decide +kernel

/-- A store is checked as if it were a load: the place has to suit what is written. What is written
suits the place as well, except for a reference that the place is too special for. -/
theorem store_checked_as_load (c : Context) (s : EvalStack) (i : Instruction) (t r : Ty)
    (address : StackType) (hwrites : i.Writes t s.shape address) (hpoints : address.PointsTo r)
    (haccepted : (c.verify i).accepts s = true) :
    c.graph.Suits r t ∧
      (c.graph.Suits t r ↔
        (t.isReference = true → r.isReference = true → c.graph.isAssignable t r = true)) ∧
      (i = .stind t ∨ i = .stobj t →
        ∀ value ∈ s.shape.head?, value.isAssignableTo c.graph t = true) := by
  have hsuits := suits_of_writes hwrites hpoints haccepted
  refine ⟨hsuits, hsuits.reversed_iff, ?_⟩
  have hrun := verify_accepted haccepted
  generalize hs : s.shape = shape at hwrites
  cases hwrites with
  | stind | stobj =>
      rintro - value ⟨⟩
      exact (store_ok (r := r) hs hrun).1
  | cpobj => rintro (heq | heq) <;> cases heq

theorem store_checked_as_load_integers :
    let s : EvalStack := .ofShape [.simple .int32, .simple (.pointer .uint32)]
    (bare.verify (.stobj .int32)).accepts s = true ∧ bare.graph.Suits .uint32 .int32 ∧
      (bare.graph.Suits .int32 .uint32 ↔ (Ty.int32.isReference = true →
        Ty.uint32.isReference = true → bare.graph.isAssignable .int32 .uint32 = true)) := by
  intro s
  have haccepted : (bare.verify (.stobj .int32)).accepts s = true := by decide +kernel
  obtain ⟨hsuits, hreversed, -⟩ :=
    store_checked_as_load bare s (.stobj .int32) .int32 .uint32 _ .stobj (.inr rfl) haccepted
  exact ⟨haccepted, hsuits, hreversed⟩

/-- A string is loaded from among objects. -/
theorem subtype_loaded :
    ¬ bare.graph.Suits .object .string ∧
    (bare.verify (.ldelem .string)).accepts
      (.ofShape [.simple .int32, .simple (.arrayOf .object)]) = true ∧
    ((bare.verify (.ldelem .string)).after
      (.ofShape [.simple .int32, .simple (.arrayOf .object)])).shape = [.simple .string] := by
  rw [Graph.suits_iff_of_isReference rfl rfl]
  decide +kernel

/-- What is read through an address suits what it is read as, and an array yields references as its
elements are declared. An element that is read as a type of its own suits that type, except for a
reference that it is too general for. -/
theorem loads_suit_except_elements (c : Context) (s : EvalStack) (r : Ty) :
    (∀ i t address, Instruction.Reads t i s.shape address → address.PointsTo r →
      (c.verify i).accepts s = true →
      c.graph.Suits r t ∧
        (i = .ldind t ∨ i = .ldobj t →
          ((c.verify i).after s).shape = .simple t :: s.shape.tail)) ∧
    (∀ t index array rest, s.shape = index :: array :: rest → array.IsArrayOf r →
      (c.verify (.ldelem t)).accepts s = true →
      ((c.verify (.ldelem t)).after s).shape = .simple t :: rest ∧
        (c.graph.Suits r t ∨
          r.isReference = true ∧ t.isReference = true ∧ c.graph.isAssignable t r = true) ∧
        (c.graph.Suits r t ↔
          (r.isReference = true → t.isReference = true → c.graph.isAssignable r t = true))) ∧
    ∀ index array rest, s.shape = index :: array :: rest → array.IsArrayOf r →
      (c.verify .ldelemRef).accepts s = true →
      ∃ p, ((c.verify .ldelemRef).after s).shape = .simple p :: rest ∧
        c.graph.isAssignable r p = true := by
  refine ⟨?_, ?_, ?_⟩
  · intro i t address hreads hpoints haccepted
    refine ⟨suits_of_reads hreads hpoints haccepted, ?_⟩
    have hrun := verify_accepted haccepted
    generalize hs : s.shape = shape at hreads
    cases hreads with
    | ldind | ldobj =>
        rintro -
        exact (load_ok (r := r) hs hrun).2
    | cpobj => rintro (heq | heq) <;> cases heq
  · intro t index array rest hs harray haccepted
    obtain ⟨hmatches, hshape⟩ := loadElement_ok hs (verify_accepted haccepted)
    have haccess := elementMatches_iff.mp (hmatches harray)
    refine ⟨hshape, haccess, ?_⟩
    constructor
    · intro hsuits hr ht
      exact (Graph.suits_iff_of_isReference hr ht).mp hsuits
    · intro hassignable
      rcases haccess with hsuits | ⟨hr, ht, -⟩
      · exact hsuits
      · exact (Graph.suits_iff_of_isReference hr ht).mpr (hassignable hr ht)
  · intro index array rest hs harray haccepted
    exact ⟨r, loadReference_ok hs harray (verify_accepted haccepted), c.graph.isAssignable_self r⟩

theorem loads_suit_except_elements_string :
    let s : EvalStack := .ofShape [.simple .int32, .simple (.arrayOf .string)]
    (bare.verify (.ldelem .object)).accepts s = true ∧
      ((bare.verify (.ldelem .object)).after s).shape = [.simple .object] ∧
      (bare.graph.Suits .string .object ↔ (Ty.string.isReference = true →
        Ty.object.isReference = true → bare.graph.isAssignable .string .object = true)) := by
  intro s
  have haccepted : (bare.verify (.ldelem .object)).accepts s = true := by decide +kernel
  obtain ⟨hshape, -, hsuits⟩ := (loads_suit_except_elements bare s .string).2.1 .object
    (.simple .int32) (.simple (.arrayOf .string)) [] rfl ⟨_, rfl, rfl⟩ haccepted
  exact ⟨haccepted, hshape, hsuits⟩

end Context

end ManagedCode
