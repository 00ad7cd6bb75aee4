import ManagedCode.Verify.Operand

namespace ManagedCode

/-! The effect of an instruction that goes on to the next one. -/

open Step

def Conversion.takes (c : Conversion) (operand : StackType) : Bool :=
  let category := operand.category
  match c with
  | .rUn => category.isInteger || category = .zero
  | .i | .u | .i8 | .u8 =>
    category.isNumeric ||
      match category with
      | .zero | .pointer | .managedPointer => true
      | .object => !operand.isStruct
      | _ => false
  | _ => category.isNumeric || category = .zero

def Step.convert (c : Conversion) (checked : Bool) : Step Unit := do
  let operand ← pop "expected a value to convert"
  check (!(checked && c.isFloating)) (.operand (.checkedFloat c))
  check (c.takes operand) (.mismatch (.convertible c) (.classified operand))
  pushType (.ofPrimitive c.target)

def Step.pushResult (result : Option Ty) : Step Unit :=
  match result with
  | some t => pushType t
  | none => pure ()

/-- The type that an address was loaded for is pushed. -/
def Step.load (c : Context) (t : Ty) : Step Unit := do
  popAddress c (some t) "expected an address to load from"
  pushType t

def Step.store (c : Context) (t : Ty) : Step Unit := do
  popExpecting c.graph t "expected a value to store indirectly"
  popAddress c (some t) "expected an address to store to"

def Step.cast (t : Ty) : Step Unit := do
  let object ← pop "expected an object reference to cast"
  check object.isObjectReference (.unexpected object .objectReference)
  pushType (if t.isValueType then .object else t)

/-- The receiver of a virtual call, from below the arguments. -/
def Step.popVirtualReceiver (c : Context) (m : Method) : Step StackType := do
  check (!m.isStatic) (.operand (.staticVirtualCall m))
  popArguments c.graph 0 m.parameters
  pop "expected the receiver of the virtual call"

/-- What the instruction does to a stack that holds its operands. -/
def Context.step (c : Context) : Instruction → Step Unit
  | .nop | .break => pure ()
  | .ldarg i => do pushType (← c.argument i)
  | .ldarga i => do pushType (.byRef (← c.argument i))
  | .starg i => do
    popExpecting c.graph (← c.argument i) "expected a value to store in the argument"
  | .ldloc i => do pushType (← c.localType i)
  | .ldloca i => do pushType (.byRef (← c.localType i))
  | .stloc i => do
    popExpecting c.graph (← c.localType i) "expected a value to store in the local"
  | .ldnull => push .zero
  | .ldcI4 _ => pushType .int32
  | .ldcI8 _ => pushType .int64
  | .ldcR4 _ => pushType .single
  | .ldcR8 _ => pushType .double
  | .ldstr _ => pushType .string
  | .dup => do
    let e ← popEntry "expected a value to duplicate"
    check (!e.type.isStruct) (.unexpected e.type .notStruct)
    pushEntry e
    pushEntry e
  | .pop => do
    let _ ← pop "expected a value to discard"
  | .binary op => do
    let right ← pop "expected a right operand"
    let left ← pop "expected a left operand"
    match op.operation.result? left right with
    | some result => push result
    | none => throw (.illegalOperands left right)
  | .neg => do
    let operand ← pop "expected a number to negate"
    check (operand.category.isNumeric || operand.category = .zero) (.unexpected operand .number)
    push operand.canonical
  | .not => do
    let operand ← pop "expected an integer to complement"
    check (operand.category.isInteger || operand.category = .zero) (.unexpected operand .integer)
    push operand.canonical
  | .conv target => convert target false
  | .convOvf target => convert target true
  | .convOvfUn target => convert target true
  | .ckfinite => do
    let operand ← pop "expected a floating point number to check"
    check (operand.category = .float) (.unexpected operand (.category .float))
    push operand
  | .call m => do
    popArguments c.graph 0 m.parameters
    if !m.isStatic then
      checkCallReceiver c.graph (← pop "expected the receiver of the call") m
    pushResult m.result
  | .callvirt m constrained => do
    let receiver ← popVirtualReceiver c m
    match constrained with
    | some t => checkConstrainedReceiver c.graph receiver t m
    | none => checkVirtualReceiver c.graph receiver m
    pushResult m.result
  | .calli site => do
    let entry ← pop "expected the function pointer to call"
    check (entry.category = .nativeInt) (.unexpected entry (.category .nativeInt))
    popArguments c.graph 0 site.parameters
    if site.hasThis then
      let receiver ← pop "expected the receiver of the indirect call"
      match receiver.category with
      | .object | .managedPointer | .zero =>
        check (!receiver.isStruct) (.unexpected receiver .callee)
      | _ => throw (.unexpected receiver .callee)
    pushResult site.result
  | .newobj m => do
    check m.isConstructor (.operand (.notConstructor m))
    check (!(m.declaring.isInterface || m.declaring.isAbstract))
      (.operand (.abstractType m.declaring))
    popArguments c.graph 0 m.parameters
    pushType m.declaring
  | .ldftn _ => pushType .intPtr
  | .ldvirtftn m => do
    check (!m.isStatic) (.operand (.staticFunctionPointer m))
    checkVirtualReceiver c.graph (← pop "expected the object whose method to load") m
    pushType .intPtr
  | .ldind t => load c t
  | .ldobj t => load c t
  | .stind t => store c t
  | .stobj t => store c t
  | .cpobj t => do
    popAddress c (some t) "expected the source address"
    popAddress c (some t) "expected the destination address"
  | .initobj t => popAddress c (some t) "expected an address to initialize"
  | .box t => do
    let value ← pop "expected a value to box"
    check t.isValueType (.mismatch .boxable (.type t))
    check (value.isAssignableTo c.graph t) (.unexpected value (.type t))
    pushType (if t.underlying?.isSome then .enumBase else .object)
  | .unbox t => do
    let boxed ← pop "expected a boxed value to unbox"
    check t.isValueType (.operand (.unboxReference t))
    check boxed.isObjectReference (.unexpected boxed .objectReference)
    pushType (.byRef t)
  | .unboxAny t => do
    let boxed ← pop "expected a boxed value to unbox"
    check boxed.isObjectReference (.unexpected boxed .objectReference)
    pushType t
  | .castclass t => cast t
  | .isinst t => cast t
  | .ldfld f => do
    check (!f.isStatic) (.operand (.staticField f "ldsfld"))
    checkFieldInstance c (← pop "expected the object whose field to load") f.declaring true
    pushType f.type
  | .ldflda f => do
    check (!f.isStatic) (.operand (.staticField f "ldsflda"))
    checkFieldInstance c (← pop "expected the object whose field address to load") f.declaring false
    pushType (.byRef f.type)
  | .stfld f => do
    check (!f.isStatic) (.operand (.staticField f "stsfld"))
    popExpecting c.graph f.type "expected a value to store"
    checkFieldInstance c (← pop "expected the object whose field to store") f.declaring false
  | .ldsfld f => do
    check f.isStatic (.operand (.instanceField f))
    pushType f.type
  | .ldsflda f => do
    check f.isStatic (.operand (.instanceField f))
    pushType (.byRef f.type)
  | .stsfld f => do
    check f.isStatic (.operand (.instanceField f))
    popExpecting c.graph f.type "expected a value to store"
  | .newarr t => do
    popIndex "expected the number of elements"
    pushType (.arrayOf t)
  | .ldlen => do
    let _ ← popArray "expected an array whose length to load"
    pushType .uintPtr
  | .ldelema t => do
    popIndex "expected an array index"
    match ← popArray "expected an array" with
    | some element => check (element = t) (.mismatch (.arrayOf t) (.arrayOf element))
    | none => pure ()
    pushType (.byRef t)
  | .ldelem t => do
    popIndex "expected an array index"
    match ← popArray "expected an array" with
    | some element =>
      check (elementMatches c.graph element t) (.mismatch (.arrayOf t) (.arrayOf element))
    | none => pure ()
    pushType t
  | .stelem t => do
    popExpecting c.graph t "expected a value to store in the array"
    popIndex "expected an array index"
    match ← popArray "expected an array" with
    | some element =>
      check (elementMatches c.graph element t) (.mismatch (.arrayOf t) (.arrayOf element))
    | none => pure ()
  | .ldelemRef => do
    popIndex "expected an array index"
    match ← popArray "expected an array" with
    | some element =>
      check element.isReference (.mismatch .referenceArray (.arrayOf element))
      pushType element
    | none => pushType .object
  | .stelemRef => do
    let value ← pop "expected a reference to store in the array"
    check value.isObjectReference (.unexpected value .objectReference)
    popIndex "expected an array index"
    match ← popArray "expected an array" with
    | some element => check element.isReference (.mismatch .referenceArray (.arrayOf element))
    | none => pure ()
  | .ldtoken token =>
    match token with
    | .type _ => pushType .typeHandle
    | .method _ => pushType .methodHandle
    | .field _ => pushType .fieldHandle
  | .sizeof _ => pushType .uint32
  | .localloc => do
    let size ← pop "expected the number of bytes to allocate"
    c.requireUnverifiable "localloc"
    checkSize size
    check (← get).isEmpty (.operand .allocationDepth)
    pushType .intPtr
  | .initblk => do
    let size ← pop "expected the number of bytes to initialize"
    let value ← pop "expected the byte value to initialize with"
    popAddress c none "expected the address to initialize"
    c.requireUnverifiable "initblk"
    checkSize size
    check (value.category = .int32 || value.category = .zero)
      (.unexpected value (.category .int32))
  | .cpblk => do
    let size ← pop "expected the number of bytes to copy"
    popAddress c none "expected the source address"
    popAddress c none "expected the destination address"
    c.requireUnverifiable "cpblk"
    checkSize size

theorem Context.step_callvirt (c : Context) (m : Method) (constrained : Option Ty) :
    c.step (.callvirt m constrained) = (do
      check (!m.isStatic) (.operand (.staticVirtualCall m))
      popArguments c.graph 0 m.parameters
      let receiver ← pop "expected the receiver of the virtual call"
      match constrained with
      | some t => checkConstrainedReceiver c.graph receiver t m
      | none => checkVirtualReceiver c.graph receiver m
      pushResult m.result) := by
  simp only [step, popVirtualReceiver, bind_assoc]

/-- An instruction whose operands are not all there leaves the stack alone. -/
def Context.verify (c : Context) (i : Instruction) : Step Unit := do
  require i.pops fun depth =>
    "`" ++ i.text ++ "` needs " ++ toString i.pops ++ " operand(s) but the stack only has " ++
      toString depth
  c.step i

/-! Addresses and arrays that an instruction deals in are made in the graph, if they are not in it
yet. -/

/-- What an instruction makes, and of which type. -/
def Context.makes? (c : Context) : Instruction → Option (Construct × Ty)
  | .ldarga i => (c.arguments[i.toNat]?).map (Construct.byRef, ·)
  | .ldloca i => (c.locals[i.toNat]?).map (Construct.byRef, ·)
  | .unbox t | .ldelema t | .callvirt _ (some t) => some (Construct.byRef, t)
  | .ldflda f | .ldsflda f => some (Construct.byRef, f.type)
  | .newarr t => some (Construct.array, t)
  | _ => none

/-- A type is made to be pushed by an accepted instruction. Only the address under a constraint is
made before the receiver is compared with it. -/
def Context.made? (c : Context) (i : Instruction) (s : EvalStack) : Option (Construct × Ty) :=
  (c.makes? i).filter fun _ =>
    match i with
    | .callvirt m _ => ((popVirtualReceiver c m).on s).1.isOk
    | i => ((c.verify i).on s).1.isOk

end ManagedCode
