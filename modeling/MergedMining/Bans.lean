import MergedMining.Ip

/-!
# Banned addresses

Malformed lines earn strikes, and an address with as many strikes as the limit is banned.  A ban is for ever.
-/

namespace MergedMining

/-- What a strike leads to. -/
inductive Consequence
  | warn
  | ban
  deriving Repr, DecidableEq

/-- The banned addresses, and the strikes of the others. -/
structure Bans where
  limit : Nat
  banned : List Ip
  strikes : List (Ip × Nat)
  deriving Repr

namespace Bans

/-- Nobody is banned yet; at least one strike is needed. -/
def ofLimit (limit : Nat) : Bans := ⟨max limit 1, [], []⟩

/-- Whether an address is banned. -/
def isBanned (b : Bans) (ip : Ip) : Bool := b.banned.contains ip

/-- Bans an address. -/
def ban (b : Bans) (ip : Ip) : Bans :=
  if b.isBanned ip then b else { b with banned := ip :: b.banned }

/-- The strikes of an address. -/
def count (b : Bans) (ip : Ip) : Nat := (b.strikes.lookup ip).getD 0

/-- The strikes of all other addresses. -/
def others (b : Bans) (ip : Ip) : List (Ip × Nat) := b.strikes.filter (·.1 ≠ ip)

/-- Counts a strike. -/
def strike (b : Bans) (ip : Ip) : Consequence × Bans :=
  if b.isBanned ip then (.ban, b)
  else
    let count := b.count ip + 1
    if count < b.limit then (.warn, { b with strikes := (ip, count) :: b.others ip })
    else (.ban, { b with strikes := b.others ip, banned := ip :: b.banned })

end Bans

end MergedMining
