import MergedMining.Fault

/-!
# Daemons

The daemons are the world outside: what one answers to a call may depend on every call made before.  `Daemons`
holds the answers, as any function of the calls so far, and the calls made.  An `Asking` is a computation that
makes calls.
-/

namespace MergedMining

/-- A daemon: the place of its chain, its place among the nodes of that chain, and where it is reached. -/
structure Node where
  chain : Nat
  index : Nat
  url : String
  deriving Repr, DecidableEq

/-- A call to a daemon. -/
structure Call where
  node : Node
  method : String
  params : Json
  deriving Repr

/-- The answers of all daemons, and the calls made so far, the latest first. -/
structure Daemons where
  reply : List Call → Call → Except CallFault Json
  calls : List Call

/-- A computation that calls daemons. -/
abbrev Asking (α : Type) := ExceptT Fault (StateM Daemons) α

namespace Daemons

/-- Makes a call. -/
def ask (d : Daemons) (call : Call) : Except CallFault Json × Daemons :=
  (d.reply d.calls call, { d with calls := call :: d.calls })

end Daemons

namespace Node

/-- A failed call to this daemon. -/
def fault (node : Node) (method : String) (cause : CallFault) : Fault :=
  .call node.url method cause

/-- Calls a daemon. -/
def call (node : Node) (method : String) (params : List Json) : Asking Json :=
  ExceptT.mk fun d =>
    let (answer, d) := d.ask ⟨node, method, .arr params⟩
    (answer.mapError (node.fault method), d)

/-- Calls a daemon and reads its answer. -/
def read {α : Type} (node : Node) (method : String) (params : List Json) (decode : Json → Option α) :
    Asking α := do
  match decode (← node.call method params) with
  | some a => return a
  | none => throw (node.fault method .unexpected)

end Node

end MergedMining
