import ManagedCode.Builder.Basic

namespace ManagedCode

/-! Listings in which exception blocks are well nested. -/

def Item.isMarker : Item → Bool
  | .marker _ => true
  | .instruction _ | .branch _ | .label _ => false

namespace Listing

mutual
/-- Whatever block begins also ends, and has a handler of its own. -/
inductive Nested : List Item → Prop where
  | nil : Nested []
  | item {items : List Item} {i : Item} : Nested items → i.isMarker = false → Nested (items ++ [i])
  | block {items parts : List Item} {hasFinally : Bool} : Nested items →
      Parts true hasFinally parts →
      Nested (items ++ .marker .beginTry :: (parts ++ [.marker .close]))

/-- The inside of a block: a protected region and its handlers so far. The flags say whether there
is a handler, and whether the last one is for `finally`, which no other handler follows. -/
inductive Parts : Bool → Bool → List Item → Prop where
  | region {items : List Item} : Nested items → Parts false false items
  | catchHandler {hasHandler : Bool} {parts items : List Item} (exception : Ty) :
      Parts hasHandler false parts → Nested items →
      Parts true false (parts ++ .marker (.beginCatch exception) :: items)
  | finallyHandler {hasHandler : Bool} {parts items : List Item} : Parts hasHandler false parts →
      Nested items → Parts true true (parts ++ .marker .beginFinally :: items)
end

/-- A listing that is not complete, with the blocks that are open in it. -/
inductive Open : List Block → List Item → Prop where
  | outside {items : List Item} : Nested items → Open [] items
  | inside {block : Block} {blocks : List Block} {items parts : List Item} : Open blocks items →
      Parts block.hasHandler block.hasFinally parts →
      Open (block :: blocks) (items ++ .marker .beginTry :: parts)

variable {hasHandler hasFinally : Bool} {items parts : List Item} {i : Item} {block : Block}
  {blocks : List Block}

theorem Parts.add_item (h : Parts hasHandler hasFinally parts) (hi : i.isMarker = false) :
    Parts hasHandler hasFinally (parts ++ [i]) := by
  cases h with
  | region hitems => exact .region (hitems.item hi)
  | catchHandler exception hparts hitems =>
      rw [List.append_assoc]
      exact .catchHandler exception hparts (hitems.item hi)
  | finallyHandler hparts hitems =>
      rw [List.append_assoc]
      exact .finallyHandler hparts (hitems.item hi)

theorem Parts.add_block {inner : List Item} {innerFinally : Bool}
    (h : Parts hasHandler hasFinally parts) (hinner : Parts true innerFinally inner) :
    Parts hasHandler hasFinally (parts ++ .marker .beginTry :: (inner ++ [.marker .close])) := by
  cases h with
  | region hitems => exact .region (hitems.block hinner)
  | catchHandler exception hparts hitems =>
      rw [List.append_assoc]
      exact .catchHandler exception hparts (hitems.block hinner)
  | finallyHandler hparts hitems =>
      rw [List.append_assoc]
      exact .finallyHandler hparts (hitems.block hinner)

namespace Open

theorem nested (h : Open [] items) : Nested items := by
  cases h
  assumption

theorem add_item (h : Open blocks items) (hi : i.isMarker = false) : Open blocks (items ++ [i]) := by
  cases h with
  | outside hitems => exact .outside (hitems.item hi)
  | inside hopen hparts =>
      rw [List.append_assoc]
      exact .inside hopen (hparts.add_item hi)

theorem beginTry (h : Open blocks items) (endLabel : Label) :
    Open (⟨endLabel, .tryBlock, false, false⟩ :: blocks) (items ++ [.marker .beginTry]) :=
  .inside h (.region .nil)

theorem beginCatch (h : Open (block :: blocks) items) (hfinally : block.hasFinally = false)
    (exception : Ty) :
    Open ({ block with region := .catchBlock, hasHandler := true } :: blocks)
      (items ++ [.marker (.beginCatch exception)]) := by
  cases h with
  | inside hopen hparts =>
      rw [hfinally] at hparts
      rw [List.append_assoc]
      apply Open.inside hopen
      rw [hfinally]
      exact .catchHandler exception hparts .nil

theorem beginFinally (h : Open (block :: blocks) items) (hfinally : block.hasFinally = false) :
    Open ({ block with region := .finallyBlock, hasFinally := true, hasHandler := true } :: blocks)
      (items ++ [.marker .beginFinally]) := by
  cases h with
  | inside hopen hparts =>
      rw [hfinally] at hparts
      rw [List.append_assoc]
      apply Open.inside hopen
      exact .finallyHandler hparts .nil

theorem close (h : Open (block :: blocks) items) (hhandler : block.hasHandler = true) :
    Open blocks (items ++ [.marker .close]) := by
  cases h with
  | inside hopen hparts =>
      rw [hhandler] at hparts
      rw [List.append_assoc]
      cases hopen with
      | outside hitems => exact .outside (hitems.block hparts)
      | inside hopen houter =>
          rw [List.append_assoc]
          exact .inside hopen (houter.add_block hparts)

end Open

end Listing

end ManagedCode
