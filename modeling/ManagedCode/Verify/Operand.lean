import ManagedCode.Verify.Context

namespace ManagedCode

/-! What single operands have to be. -/

/-- May memory that holds the one type be accessed as the other? Integers of one size are
interchangeable. -/
def referentMatches (g : Graph) (referent accessed : Ty) : Bool :=
  if referent = accessed then true
  else if referent.isReference && accessed.isReference then g.isAssignable referent accessed
  else
    match referent.integerSize?, accessed.integerSize? with
    | some size, some other => size = other
    | _, _ => false

/-- May an array of the one element type be accessed as an array of the other? -/
def elementMatches (g : Graph) (element accessed : Ty) : Bool :=
  element = accessed ||
    (element.isReference && accessed.isReference &&
      (g.isAssignable element accessed || g.isAssignable accessed element)) ||
    referentMatches g element accessed

/-- The receiver of a call that has to be an object. -/
def checkObjectReceiver (g : Graph) (receiver : StackType) (m : Method) :
    Except VerifyError Unit :=
  if receiver.isValueType then throw (.unexpected receiver (.boxedReceiver m))
  else if receiver.isObjectReference && receiver.isAssignableTo g m.declaring then pure ()
  else throw (.unexpected receiver (.type m.declaring))

/-- The receiver of `call`. -/
def checkCallReceiver (g : Graph) (receiver : StackType) (m : Method) : Except VerifyError Unit :=
  if m.declaring.isValueType then
    if receiver.simple?.bind Ty.referent? = some m.declaring then pure ()
    else if receiver.isValueType then throw (.unexpected receiver (.receiverAddress m))
    else throw (.unexpected receiver (.addressOf m.declaring))
  else checkObjectReceiver g receiver m

/-- The receiver of `callvirt` without a constraint. -/
def checkVirtualReceiver (g : Graph) (receiver : StackType) (m : Method) :
    Except VerifyError Unit :=
  match receiver.simple?.bind Ty.referent? with
  | some referent =>
    if referent.isValueType then throw (.unexpected receiver (.constrainedCall referent m))
    else checkObjectReceiver g receiver m
  | none => checkObjectReceiver g receiver m

/-- The receiver of `callvirt` under a constraint is the address of the constrained type. -/
def checkConstrainedReceiver (g : Graph) (receiver : StackType) (constrained : Ty) (m : Method) :
    Except VerifyError Unit :=
  if receiver ≠ .simple (.byRef constrained) then
    throw (.unexpected receiver (.type (.byRef constrained)))
  else if constrained.ancestors.contains m.declaring ||
      (StackType.simple constrained).isAssignableTo g m.declaring then pure ()
  else throw (.operand (.missingMethod constrained m))

/-- The instance whose field is accessed. Only a load reads the field of a value that is on the
stack itself. -/
def isFieldInstance (c : Context) (holder : StackType) (declaring : Ty) (load : Bool) : Bool :=
  match holder with
  | .zero => true
  | .complex _ _ => holder.isAssignableTo c.graph declaring
  | .simple t =>
    match t.referent? with
    | some referent => referent = declaring || c.graph.isAssignable referent declaring
    | none =>
      if t.primitive?.isSome && t.category = .nativeInt then c.settings.allowUnverifiable
      else if t.isValueType then load && t = declaring
      else holder.isAssignableTo c.graph declaring

def checkFieldInstance (c : Context) (holder : StackType) (declaring : Ty) (load : Bool) :
    Except VerifyError Unit :=
  if isFieldInstance c holder declaring load then pure ()
  else
    throw <| .unexpected holder <|
      if declaring.isValueType then .addressOf declaring else .type declaring

/-- The size of a block of memory. -/
def checkSize (size : StackType) : Except VerifyError Unit :=
  match size.category with
  | .int32 | .nativeInt | .zero => pure ()
  | _ => throw (.unexpected size .index)

namespace Step

def popExpecting (g : Graph) (expected : Ty) (reason : String) : Step Unit := do
  let found ← pop reason
  check (found.isAssignableTo g expected) (.unexpected found (.type expected))

/-- The last argument is on top. The index is that of the first one. -/
def popArguments (g : Graph) (index : Nat) : List Ty → Step Unit
  | [] => pure ()
  | t :: rest => do
    popArguments g (index + 1) rest
    popExpecting g t ("expected argument " ++ toString index ++ " of type " ++ t.name)

/-- The address of a type, or of anything. -/
def popAddress (c : Context) (accessed : Option Ty) (reason : String) : Step Unit := do
  let address ← pop reason
  let error := VerifyError.unexpected address ((accessed.map Expectation.addressOf).getD .address)
  match address.category with
  | .zero => pure ()
  | .nativeInt => check c.settings.allowUnverifiable error
  | .managedPointer | .pointer =>
    match address.simple?.bind Ty.referent?, accessed with
    | some referent, some accessed => check (referentMatches c.graph referent accessed) error
    | _, _ => pure ()
  | _ => throw error

def popIndex (reason : String) : Step Unit := do
  checkSize (← pop reason)

/-- The element type of an array, or nothing for the null literal. -/
def popArray (reason : String) : Step (Option Ty) := do
  let array ← pop reason
  match array with
  | .zero => return none
  | .simple t =>
    match t.element? with
    | some element => return some element
    | none => throw (.unexpected array .array)
  | .complex _ _ => throw (.unexpected array .array)

end Step

end ManagedCode
