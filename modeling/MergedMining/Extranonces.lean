import MergedMining.Fault
import MergedMining.Stratum.Field

/-!
# Extranonces of connections

Every connection gets bytes of its own for the coinbase, so that no two miners search the same space.  They are
drawn at random, and a draw that was issued before is drawn again, up to 1024 times.
-/

namespace MergedMining

open Stratum (Extranonce)

/-- The bytes of the `k`-th draw of a number of bytes. -/
abbrev Draws := Nat → Nat → Bytes

/-- Why two sizes are no sizes of extranonces. -/
inductive SizeFault
  | tooSmall (name : String) (size : Nat)
  | tooLarge (name : String) (size : Nat)
  deriving Repr, DecidableEq

/-- The text of a size fault. -/
def SizeFault.message : SizeFault → String
  | .tooSmall name size => s!"{name} {size} below minimum 2"
  | .tooLarge name size => s!"{name} {size} exceeds maximum 8"

/-- The extranonces issued so far, and the number of draws made. -/
structure Extranonces where
  ownSize : Nat
  minerSize : Nat
  issued : List Bytes
  drawn : Nat

namespace Extranonces

/-- How often an extranonce is drawn before giving up. -/
def maxDraws : Nat := 1024

/-- The part of an extranonce that the pool chooses. -/
def defaultOwnSize : Nat := 4

/-- The part of an extranonce that the miner varies. -/
def defaultMinerSize : Nat := 4

/-- Checks one size. -/
def checkSize (name : String) (size : Nat) : Except SizeFault Unit :=
  if size < 2 then .error (.tooSmall name size)
  else if 8 < size then .error (.tooLarge name size)
  else .ok ()

/-- Nothing issued yet. -/
def ofSizes (ownSize minerSize : Nat) : Except SizeFault Extranonces := do
  checkSize "enonce1_size" ownSize
  checkSize "enonce2_size" minerSize
  return ⟨ownSize, minerSize, [], 0⟩

/-- The usual sizes, nothing issued yet. -/
def default : Extranonces := ⟨defaultOwnSize, defaultMinerSize, [], 0⟩

/-- Draws until something new comes, at most `tries` times. -/
def draw (draws : Draws) : Nat → Extranonces → Option Bytes × Extranonces
  | 0, e => (none, e)
  | tries + 1, e =>
    let bytes := draws e.drawn e.ownSize
    let e := { e with drawn := e.drawn + 1 }
    if e.issued.contains bytes then draw draws tries e
    else (some bytes, { e with issued := bytes :: e.issued })

/-- Issues an extranonce. -/
def allocate (draws : Draws) (e : Extranonces) : Except StateFault Extranonce × Extranonces :=
  match draw draws maxDraws e with
  | (some bytes, e) => (.ok ⟨bytes⟩, e)
  | (none, e) => (.error (.extranoncesExhausted e.issued.length), e)

end Extranonces

end MergedMining
