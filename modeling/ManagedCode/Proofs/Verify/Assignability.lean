import ManagedCode.Verify.Straight
import ManagedCode.Verify.Transfer

namespace ManagedCode

/-! The verifier asks a graph for nothing but assignability. -/

section Answers

variable {g g' : Graph} (h : g.isAssignable = g'.isAssignable)
include h

theorem StackType.isAssignableTo_congr (s : StackType) (target : Ty) :
    s.isAssignableTo g target = s.isAssignableTo g' target := by
  cases s with
  | zero => rfl
  | simple source => simp only [isAssignableTo, isAssignableType, h]
  | complex base interfaces => simp only [isAssignableTo, h]

theorem referentMatches_congr : referentMatches g = referentMatches g' := by
  funext referent accessed
  simp only [referentMatches, h]

theorem elementMatches_congr : elementMatches g = elementMatches g' := by
  funext element accessed
  simp only [elementMatches, referentMatches_congr h, h]

theorem checkObjectReceiver_congr : checkObjectReceiver g = checkObjectReceiver g' := by
  funext receiver m
  simp only [checkObjectReceiver, StackType.isAssignableTo_congr h]

theorem checkCallReceiver_congr : checkCallReceiver g = checkCallReceiver g' := by
  funext receiver m
  simp only [checkCallReceiver, checkObjectReceiver_congr h]

theorem checkVirtualReceiver_congr : checkVirtualReceiver g = checkVirtualReceiver g' := by
  funext receiver m
  simp only [checkVirtualReceiver, checkObjectReceiver_congr h]

theorem checkConstrainedReceiver_congr :
    checkConstrainedReceiver g = checkConstrainedReceiver g' := by
  funext receiver constrained m
  simp only [checkConstrainedReceiver, StackType.isAssignableTo_congr h]

namespace Step

theorem popExpecting_congr : popExpecting g = popExpecting g' := by
  funext expected reason
  simp only [popExpecting, StackType.isAssignableTo_congr h]

theorem popArguments_congr (index : Nat) (parameters : List Ty) :
    popArguments g index parameters = popArguments g' index parameters := by
  induction parameters generalizing index with
  | nil => rfl
  | cons t rest ih => simp only [popArguments, ih, popExpecting_congr h]

end Step

end Answers

namespace Context

open Step

def withGraph (c : Context) (g : Graph) : Context := { c with graph := g }

variable (c : Context) (g : Graph)

@[simp] theorem graph_withGraph : (c.withGraph g).graph = g := rfl

@[simp] theorem argument_withGraph : (c.withGraph g).argument = c.argument := rfl

@[simp] theorem localType_withGraph : (c.withGraph g).localType = c.localType := rfl

@[simp] theorem requireUnverifiable_withGraph :
    (c.withGraph g).requireUnverifiable = c.requireUnverifiable := rfl

variable {g} (h : g.isAssignable = c.graph.isAssignable)
include h

theorem isFieldInstance_withGraph (holder : StackType) (declaring : Ty) (load : Bool) :
    isFieldInstance (c.withGraph g) holder declaring load =
      isFieldInstance c holder declaring load := by
  cases holder with
  | zero => rfl
  | complex base interfaces =>
      exact StackType.isAssignableTo_congr h (.complex base interfaces) declaring
  | simple t =>
      simp only [isFieldInstance, graph_withGraph, StackType.isAssignableTo_congr h, h]
      rfl

theorem checkFieldInstance_withGraph :
    checkFieldInstance (c.withGraph g) = checkFieldInstance c := by
  funext holder declaring load
  simp only [checkFieldInstance, c.isFieldInstance_withGraph h]

theorem popAddress_withGraph : popAddress (c.withGraph g) = popAddress c := by
  funext accessed reason
  simp only [popAddress, graph_withGraph, referentMatches_congr h]
  rfl

theorem load_withGraph : load (c.withGraph g) = load c := by
  funext t
  simp only [load, c.popAddress_withGraph h]

theorem store_withGraph : store (c.withGraph g) = store c := by
  funext t
  simp only [store, c.popAddress_withGraph h, graph_withGraph, popExpecting_congr h]

theorem popVirtualReceiver_withGraph :
    popVirtualReceiver (c.withGraph g) = popVirtualReceiver c := by
  funext m
  simp only [popVirtualReceiver, graph_withGraph, popArguments_congr h]

theorem step_withGraph (i : Instruction) : (c.withGraph g).step i = c.step i := by
  cases i <;>
    simp only [step, graph_withGraph, argument_withGraph, localType_withGraph,
      requireUnverifiable_withGraph, StackType.isAssignableTo_congr h, elementMatches_congr h,
      checkCallReceiver_congr h, checkVirtualReceiver_congr h, checkConstrainedReceiver_congr h,
      popExpecting_congr h, popArguments_congr h, c.checkFieldInstance_withGraph h,
      c.popAddress_withGraph h, c.load_withGraph h, c.store_withGraph h,
      c.popVirtualReceiver_withGraph h]

theorem verify_withGraph (i : Instruction) : (c.withGraph g).verify i = c.verify i := by
  simp only [verify, c.step_withGraph h]

theorem made?_withGraph (i : Instruction) : (c.withGraph g).made? i = c.made? i := by
  funext s
  simp only [made?, c.popVirtualReceiver_withGraph h, c.verify_withGraph h]
  rfl

theorem transfer_withGraph (i : Branch) : (c.withGraph g).transfer i = c.transfer i := by
  cases i with
  | ret =>
      simp only [transfer, graph_withGraph, popExpecting_congr h]
      rfl
  | throw => simp only [transfer, graph_withGraph, StackType.isAssignableTo_congr h]
  | _ => rfl

end Context

end ManagedCode
