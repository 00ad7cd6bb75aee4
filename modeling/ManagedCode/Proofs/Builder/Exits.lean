import ManagedCode.Proofs.Builder.Finished
import ManagedCode.Proofs.Builder.Regions

namespace ManagedCode

/-! How the parts of exception blocks are left, and where jumps go. -/

namespace Branch

/-- Jumps and `throw` may stand anywhere. -/
def allowedIn : Branch → Option Region → Bool
  | leave _, region => region.isSome
  | ret, region | jmp _, region => region.isNone
  | rethrow, region => region = some .catchBlock
  | endfinally, region => region = some .finallyBlock
  | br _, _ | brfalse _, _ | brtrue _, _ | compare _ _, _ | switch _, _ | .throw, _ => true

/-- The branches that may be the last of a part. -/
def endsPart : Branch → Bool
  | leave _ | .throw | rethrow | endfinally | br _ => true
  | brfalse _ | brtrue _ | compare _ _ | switch _ | ret | jmp _ => false

theorem allowedIn_of_transfer {c : Context} {i : Branch} {s t : EvalStack}
    {tested : Option StackEntry} (h : (c.transfer i).on s = (.ok tested, t)) :
    i.allowedIn c.region = true := by
  cases i with
  | br | brfalse | brtrue | compare | switch | throw => rfl
  | leave | ret | rethrow | endfinally =>
      obtain ⟨u, s', hregion, -⟩ := Step.bind_ok h
      exact (Step.check_ok hregion).1
  | jmp =>
      obtain ⟨s', t', -, h⟩ := Step.bind_ok h
      obtain ⟨u, s'', -, h⟩ := Step.bind_ok h
      obtain ⟨u', s''', hregion, -⟩ := Step.bind_ok h
      exact (Step.check_ok hregion).1

theorem endsPart_of_allowedIn {i : Branch} {region : Region}
    (hallowed : i.allowedIn (some region) = true) (hfalls : i.fallsThrough = false) :
    i.endsPart = true := by
  cases i with
  | br | leave | throw | rethrow | endfinally => rfl
  | brfalse | brtrue | compare | switch => cases hfalls
  | ret | jmp => cases hallowed

end Branch

namespace Builder

open Listing

variable {b b' : Builder}

/-- The builder and the listing agree on what is open. -/
def RegionsListed (b : Builder) : Prop :=
  (openParts b.listing).map Part.region = b.blocks.map Block.region

theorem RegionsListed.length_eq (hb : b.RegionsListed) :
    (openParts b.listing).length = b.blocks.length := by
  have hlength := congrArg List.length hb
  rwa [List.length_map, List.length_map] at hlength

theorem RegionsListed.innermost (hb : b.RegionsListed) :
    (innermost? b.listing).map Part.region = b.context.region := by
  rw [innermost?, ← List.head?_map, hb, List.head?_map]
  rfl

theorem Edit.regionsListed (h : b.Edit b') (hb : b.RegionsListed) : b'.RegionsListed := by
  unfold RegionsListed at hb ⊢
  cases h with
  | settings | declareLocal | define | reject | retype | widen => exact hb
  | push | branch | mark =>
      rw [listing_of_emitted rfl, openParts_add_item _ rfl]
      exact hb
  | beginTry =>
      rw [listing_of_emitted rfl, openParts_add]
      exact congrArg _ hb
  | beginCatch hblocks | beginFinally hblocks =>
      rw [listing_of_emitted rfl, openParts_add]
      rw [hblocks] at hb
      exact congrArg _ ((List.map_tail).trans (congrArg List.tail hb))
  | close hblocks =>
      rw [listing_of_emitted rfl, openParts_add]
      rw [hblocks] at hb
      exact (List.map_tail).trans (congrArg List.tail hb)

def Followed (b : Builder) : Prop :=
  ∀ before between, b.listing = before ++ between → Follows b.blocks before between

theorem Followed.add {i : Item} (hi : b'.emitted = i :: b.emitted)
    (hstep : ∀ before between, b.listing = before ++ between →
      Follows b'.blocks before (between ++ [i])) : b'.Followed := by
  intro before between heq
  rw [listing_of_emitted hi] at heq
  rcases between.eq_nil_or_concat with rfl | ⟨between, j, rfl⟩
  · exact .here _ _
  · rw [List.concat_eq_append, ← List.append_assoc] at heq
    obtain ⟨hbefore, hj⟩ := List.append_inj' heq rfl
    cases hj
    rw [List.concat_eq_append]
    exact hstep before between hbefore

theorem Edit.followed (h : b.Edit b') (hlisted : b.RegionsListed) (hb : b.Followed) :
    b'.Followed := by
  have hblock : ∀ {block rest before between}, b.blocks = block :: rest →
      b.listing = before ++ between → Follows (block :: rest) before between ∧
        (openParts (before ++ between)).length = rest.length + 1 := by
    intro block rest before between hblocks heq
    rw [← hblocks, ← heq, hlisted.length_eq, hblocks]
    exact ⟨hblocks ▸ hb before between heq, rfl⟩
  cases h with
  | settings | declareLocal | define | reject | retype | widen => exact hb
  | push | branch | mark =>
      exact .add rfl fun before between heq => (hb before between heq).add_item rfl
  | beginTry endLabel =>
      exact .add rfl fun before between heq => (hb before between heq).beginTry endLabel
  | beginCatch hblocks _ hfinally =>
      refine .add rfl fun before between heq => ?_
      obtain ⟨hfollows, hlength⟩ := hblock hblocks heq
      exact hfollows.nextPart hlength nofun (fun _ _ => rfl) fun _ hopen =>
        hopen.beginCatch hfinally _
  | beginFinally hblocks _ hfinally =>
      refine .add rfl fun before between heq => ?_
      obtain ⟨hfollows, hlength⟩ := hblock hblocks heq
      exact hfollows.nextPart hlength nofun (fun _ _ => rfl) fun _ hopen =>
        hopen.beginFinally hfinally
  | close hblocks _ hhandler =>
      refine .add rfl fun before between heq => ?_
      obtain ⟨hfollows, hlength⟩ := hblock hblocks heq
      exact hfollows.close hlength hhandler

theorem Edit.ended (h : b.Edit b')
    (hb : b.current = none → b.blocks ≠ [] → EndsWith Branch.endsPart b.listing) :
    b'.current = none → b'.blocks ≠ [] → EndsWith Branch.endsPart b'.listing := by
  intro hcurrent hblocks
  cases h with
  | settings | declareLocal | define => exact hb hcurrent hblocks
  | push | reject | mark | retype | widen | beginTry | beginCatch | beginFinally => cases hcurrent
  | branch htransfer =>
      have hallowed := Branch.allowedIn_of_transfer htransfer
      obtain ⟨block, rest, hopen⟩ := List.exists_cons_of_ne_nil (l := b.blocks) hblocks
      rw [context, hopen] at hallowed
      rw [listing_of_emitted rfl]
      apply endsWith_branch
      exact Branch.endsPart_of_allowedIn hallowed (fallsThrough_of_unreachable hcurrent)
  | close hbefore hunreachable =>
      rw [listing_of_emitted rfl]
      exact (hb hunreachable (hbefore ▸ List.cons_ne_nil _ _)).marker .close

/-- What the listing tells about branches, ends of parts and places in the same part. -/
structure Placed (b : Builder) : Prop where
  regions : b.RegionsListed
  followed : b.Followed
  allowed : Throughout (fun before item => ∀ i, item = .branch i →
    i.allowedIn ((innermost? before).map Part.region) = true) b.listing
  ended : b.current = none → b.blocks ≠ [] → EndsWith Branch.endsPart b.listing
  ends : Throughout (fun before item => ∀ m, item = .marker m → m ≠ .beginTry →
    EndsWith Branch.endsPart before) b.listing
  returns : Throughout (fun items _ => ∀ before between, items = before ++ between →
    innermost? (before ++ between) = innermost? before → Nested between) b.listing

theorem placed_new (g : Graph) (arguments : List Ty) (result : Option Ty) :
    (new g arguments result).Placed where
  regions := rfl
  followed := by
    intro before between heq
    obtain ⟨rfl, rfl⟩ := List.append_eq_nil_iff.mp heq.symm
    exact .here _ _
  allowed := throughout_nil
  ended := by
    intro hcurrent
    cases hcurrent
  ends := throughout_nil
  returns := throughout_nil

theorem Edit.placed (h : b.Edit b') (hb : b.Placed) : b'.Placed where
  regions := h.regionsListed hb.regions
  followed := h.followed hb.regions hb.followed
  allowed := by
    refine h.throughout ?_ hb.allowed
    rintro _ hadds i rfl
    cases hadds with
    | branch htransfer =>
        rw [hb.regions.innermost]
        exact Branch.allowedIn_of_transfer htransfer
  ended := h.ended hb.ended
  ends := by
    refine h.throughout ?_ hb.ends
    rintro _ hadds m rfl hm
    cases hadds with
    | beginTry => exact absurd rfl hm
    | marker _ hunreachable hopen => exact hb.ended hunreachable hopen
  returns := h.throughout (fun _ _ before between heq => (hb.followed before between heq).nested)
    hb.returns

/-- A part of a block ends with one of the branches that may leave it, or with a jump. A branch
stands in the same part as a label behind it or before it if and only if there are only complete
blocks in between. -/
theorem exits_of_finished (g : Graph) (arguments : List Ty) (result : Option Ty)
    (commands : List Command) (code : Code)
    (hfinish : ((new g arguments result).run commands).finish = .ok code) :
    (∀ before i after, code.listing = before ++ .branch i :: after →
      i.allowedIn ((innermost? before).map Part.region) = true) ∧
    (∀ before m after, code.listing = before ++ .marker m :: after → m ≠ .beginTry →
      EndsWith Branch.endsPart before) ∧
    (∀ i l first second before between after, l ∈ i.targets →
      first = .branch i ∧ second = .label l ∨ first = .label l ∧ second = .branch i →
      code.listing = before ++ first :: (between ++ second :: after) →
      (innermost? (before ++ first :: between) = innermost? before ↔ Nested between)) := by
  have hplaced : ((new g arguments result).run commands).Placed :=
    run_keeps Edit.placed (placed_new g arguments result) commands
  generalize (new g arguments result).run commands = b at *
  obtain ⟨-, -, -, rfl⟩ := finish_ok.mp hfinish
  refine ⟨?_, ?_, ?_⟩
  · intro before i after heq
    exact hplaced.allowed before (.branch i) after heq i rfl
  · intro before m after heq hm
    exact hplaced.ends before (.marker m) after heq m rfl hm
  · intro i l first second before between after _ hitems heq
    have hfirst : first.isMarker = false := by
      rcases hitems with ⟨rfl, -⟩ | ⟨rfl, -⟩ <;> rfl
    rw [← List.singleton_append, ← List.append_assoc, ← innermost?_add_item before hfirst]
    constructor
    · intro hsame
      refine hplaced.returns (before ++ [first] ++ between) second after ?_ _ _ rfl hsame
      rw [listing_code] at heq
      simp only [heq, List.append_assoc, List.cons_append, List.nil_append]
    · intro hnested
      rw [innermost?, openParts, scan_append, scan_nested hnested]
      rfl

theorem exits_of_finished_loop :
    let b := (new .library [] none).run
      [.beginTry, .defineLabel "L", .mark 1, .push (.ldcI4 0), .branch (.brtrue 1),
        .branch (.leave 0), .beginFinally, .branch .endfinally, .endBlock, .branch .ret]
    let listing : List Item :=
      [.marker .beginTry, .label 1, .instruction (.ldcI4 0), .branch (.brtrue 1),
        .branch (.leave 0), .marker .beginFinally, .branch .endfinally, .marker .close, .label 0,
        .branch .ret]
    b.finish = .ok b.code ∧ b.code.listing = listing ∧
      (Branch.leave 0).allowedIn ((innermost? (listing.take 4)).map Part.region) = true ∧
      EndsWith Branch.endsPart (listing.take 5) ∧
      (innermost? (listing.take 3) = innermost? (listing.take 1) ↔
        Nested [.instruction (.ldcI4 0)]) := by
  intro b listing
  have hfinish : b.finish = .ok b.code := rfl
  obtain ⟨hallowed, hends, hsame⟩ := exits_of_finished .library [] none _ b.code hfinish
  refine ⟨hfinish, rfl, hallowed _ _ (listing.drop 5) rfl, ?_, ?_⟩
  · exact hends _ .beginFinally (listing.drop 6) rfl nofun
  · exact hsame (.brtrue 1) 1 _ _ (listing.take 1) [.instruction (.ldcI4 0)] (listing.drop 4)
      (.head _) (.inr ⟨rfl, rfl⟩) rfl

/-- Behind a jump out of it, a protected region may end. -/
theorem jump_out_of_region :
    let b := (new .library [] none).run
      [.defineLabel "L", .mark 0, .beginTry, .branch (.br 0), .beginCatch .exception, .push .pop,
        .branch (.leave 1), .endBlock, .branch .ret]
    b.finish = .ok b.code ∧
      b.code.listing =
        [] ++ .label 0 :: ([.marker .beginTry] ++ .branch (.br 0) ::
          [.marker (.beginCatch .exception), .instruction .pop, .branch (.leave 1),
            .marker .close, .label 1, .branch .ret]) ∧
      innermost? [] = none ∧ innermost? [.label 0, .marker .beginTry] = some ⟨.tryBlock, 1⟩ :=
  ⟨rfl, rfl, rfl, rfl⟩

end Builder

end ManagedCode
