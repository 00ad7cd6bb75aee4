import ManagedCode.Builder.Label

namespace ManagedCode.Builder

/-! Exception blocks: a protected region and its handlers, and a label behind them all. -/

def emit (m : Marker) : Emit Unit :=
  modify fun b => { b with emitted := .marker m :: b.emitted }

/-- The label is marked behind the end of the whole block. -/
def beginTry : Emit Label := do
  let b ← get
  if !b.stack.isEmpty then
    throw (.rejected .beginTry (.controlFlow (.tryDepth b.stack.depth)))
  set { b with current := some b.stack }
  let endLabel ← defineLabel ("END_EXCEPTION_BLOCK_" ++ toString b.labels.length)
  modify fun b => { b with blocks := ⟨endLabel, .tryBlock, false, false⟩ :: b.blocks }
  emit .beginTry
  return endLabel

/-- The innermost block, whose last region must not go on into what follows. -/
def closeRegion (action : Action) : Emit Block := do
  let b ← get
  match b.blocks with
  | [] => throw (.blockMisuse (.outside action))
  | block :: _ =>
    if b.isReachable then throw (.rejected action (.controlFlow .regionFallsThrough))
    return block

def replaceBlock (block : Block) : Emit Unit :=
  modify fun b => { b with blocks := block :: b.blocks.tail }

/-- A handler starts with the exception on the stack. -/
def beginCatch (exception : Ty) : Emit Unit := do
  let block ← closeRegion (.beginCatch exception)
  let caught := StackType.simple exception
  if !caught.isAssignableTo (← get).graph .exception then
    throw (.rejected (.beginCatch exception) (.unexpected caught (.type .exception)))
  if block.hasFinally then throw (.blockMisuse .catchAfterFinally)
  replaceBlock { block with region := .catchBlock, hasHandler := true }
  modify fun b => { b with current := some (.ofShape [caught]), maxStack := max b.maxStack 1 }
  emit (.beginCatch exception)

def beginFinally : Emit Unit := do
  let block ← closeRegion .beginFinally
  if block.hasFinally then throw (.blockMisuse .secondFinally)
  replaceBlock { block with region := .finallyBlock, hasFinally := true, hasHandler := true }
  modify fun b => { b with current := some .empty }
  emit .beginFinally

/-- The block stays ended even if its label cannot be marked. -/
def endBlock : Emit Unit := do
  let block ← closeRegion .endBlock
  if !block.hasHandler then throw (.blockMisuse .noHandler)
  modify fun b => { b with blocks := b.blocks.tail }
  emit .close
  mark block.endLabel

/-! The finished body. -/

/-- Reached, but never marked. -/
def unmarked (b : Builder) : List String :=
  (b.labels.filter fun state => state.shape.isSome && !state.marked).map LabelState.name

def code (b : Builder) : Code where
  listing := b.emitted.reverse
  summary :=
    { locals := b.locals.toList
      maxStack := b.maxStack
      labels := b.labels.map fun state => ⟨state.name, state.shape⟩ }

def finish (b : Builder) : Except BuildError Code :=
  let fallsThrough := b.settings.requireTerminated && b.isReachable
  if !b.blocks.isEmpty then throw (.blockMisuse (.neverEnded b.blocks.length))
  else if !b.unmarked.isEmpty || fallsThrough then throw (.notFinished b.unmarked fallsThrough)
  else pure b.code

end ManagedCode.Builder
