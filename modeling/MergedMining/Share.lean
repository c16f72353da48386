import MergedMining.Chain
import MergedMining.Json.Members
import MergedMining.Target

/-!
# Shares

A share is a proof of work that a miner is paid for.  Work at or below the target of a chain solves a block of
it, and work at or below the easier target of the pool is a share.
-/

namespace MergedMining

/-- What a proof of work is good for. -/
inductive ShareStatus
  | invalid
  | valid
  | primary
  | aux
  | dual
  deriving Repr, DecidableEq

namespace ShareStatus

/-- Whether a block is solved. -/
def isCandidate (s : ShareStatus) : Bool := s = .primary || s = .aux || s = .dual

/-- Whether a block of the primary chain is solved. -/
def solvesPrimary (s : ShareStatus) : Bool := s = .primary || s = .dual

/-- Whether a block of the merge-mined chain is solved. -/
def solvesAux (s : ShareStatus) : Bool := s = .aux || s = .dual

/-- The place of a status in the order in which the better one is kept. -/
def rank : ShareStatus → Nat
  | .invalid => 0
  | .valid => 1
  | .primary => 2
  | .aux => 3
  | .dual => 4

/-- What two outcomes amount to together. -/
def combine : ShareStatus → ShareStatus → ShareStatus
  | .primary, .aux => .dual
  | .aux, .primary => .dual
  | a, b => if a.rank ≤ b.rank then b else a

/-- The text of a status. -/
def name : ShareStatus → String
  | .invalid => "Invalid"
  | .valid => "Valid"
  | .primary => "Primary"
  | .aux => "Aux1"
  | .dual => "Dual"

/-- The status of a text. -/
def ofName? (s : String) : Option ShareStatus :=
  [invalid, valid, primary, aux, dual].find? (·.name = s)

/-- What work is good for, given the targets of both chains and of the pool. -/
def ofSum (sum primary : Target) (aux : Option Target) (pool : Target) : ShareStatus :=
  let solvesAux := aux.any fun target => decide (sum ≤ target)
  match decide (sum ≤ primary), solvesAux with
  | true, true => .dual
  | true, false => .primary
  | false, true => .aux
  | false, false => if sum ≤ pool then .valid else .invalid

end ShareStatus

/-- The difficulty that work is counted with. -/
def creditedDifficulty (sum : Target) (multiplier : Float) : Float :=
  sum.difficulty * multiplier

/-- The target of a difficulty set for miners. -/
def poolTarget (difficulty multiplier : Float) : Except EncodingFault Target :=
  Target.ofDifficulty (difficulty / multiplier)

end MergedMining
