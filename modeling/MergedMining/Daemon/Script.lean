import MergedMining.Daemon.Basic

/-!
# Daemons that answer by plan

A plan lists the answers of one node to one method, to be given one after the other; the last one is given again
and again.  It counts from the moment it is followed, in place of all earlier ones for the method.  A method
without a plan is refused.
-/

namespace MergedMining

/-- Planned answers. -/
structure Plan where
  chain : Nat
  index : Nat
  method : String
  answers : List (Except CallFault Json)

namespace Plan

/-- Whether a call is one that the plan is for. -/
def covers (p : Plan) (call : Call) : Bool :=
  p.chain = call.node.chain && p.index = call.node.index && p.method = call.method

/-- The answer after the given number of answers. -/
def answer (p : Plan) (earlier : Nat) : Except CallFault Json :=
  match p.answers[min earlier (p.answers.length - 1)]? with
  | some answer => answer
  | none => .error (.refused "unsupported")

end Plan

namespace Daemons

/-- Daemons that refuse everything. -/
def silent : Daemons := ⟨fun _ _ => .error (.refused "unsupported"), []⟩

/-- Daemons that answer by a plan from now on, and else as before. -/
def follow (d : Daemons) (p : Plan) : Daemons :=
  let since := d.calls.length
  { d with reply := fun past call =>
      if p.covers call then p.answer ((past.take (past.length - since)).filter p.covers).length
      else d.reply past call }

/-- Daemons that answer by plans, of which the first that covers a call counts. -/
def ofPlans (plans : List Plan) : Daemons := plans.foldr (fun p d => d.follow p) silent

/-- The calls made after the first `count` ones, in order. -/
def callsSince (d : Daemons) (count : Nat) : List Call :=
  (d.calls.take (d.calls.length - count)).reverse

end Daemons

end MergedMining
