import MergedMining.Blank
import MergedMining.Chain.Address

/-!
# Logins

A miner logs in with one address for each chain, joined by dashes, and optionally a dot and the name of a rig.
Everything behind the first dot is the name.
-/

namespace MergedMining

/-- A login as it was read. -/
structure Login where
  addresses : List String
  rig : String
  deriving Repr, DecidableEq

namespace Login

/-- The pieces of a text between the occurrences of a separator. -/
def pieces (separator : Char) : List Char → List (List Char)
  | [] => [[]]
  | c :: cs =>
    if c = separator then [] :: pieces separator cs
    else
      match pieces separator cs with
      | [] => [[c]]
      | first :: rest => (c :: first) :: rest

/-- The text in front of the first dot, and the text behind it. -/
def splitDot (cs : List Char) : List Char × List Char :=
  (cs.takeWhile (· ≠ '.'), (cs.dropWhile (· ≠ '.')).drop 1)

/-- Reads a login. -/
def parse (s : String) : Except ValidationFault Login :=
  let text := Blank.trimChars s.toList
  let (front, rig) := splitDot text
  if front.isEmpty then .error .noAddress
  else
    let addresses := pieces '-' front
    if addresses.any List.isEmpty then .error (.emptyAddress (String.ofList text))
    else .ok ⟨addresses.map String.ofList, String.ofList rig⟩

/-- The addresses in one text: shares are counted under it. -/
def miner (l : Login) : String :=
  "-".intercalate l.addresses

/-- The text of a login. -/
def toText (l : Login) : String :=
  if l.rig.isEmpty then l.miner else l.miner ++ "." ++ l.rig

/-- The first address that has not the form its chain asks for. -/
def checkAddresses : List String → List (Chain × Network) → Except ValidationFault Unit
  | address :: addresses, (chain, network) :: chains =>
    if chain.accepts network address then checkAddresses addresses chains
    else .error (.minerAddress chain.name network address)
  | _, _ => .ok ()

/-- Checks that there is one address of the right form for each chain. -/
def check (l : Login) (chains : List (Chain × Network)) : Except ValidationFault Unit :=
  if l.addresses.length ≠ chains.length then
    .error (.addressCount chains.length l.addresses.length)
  else checkAddresses l.addresses chains

end Login

end MergedMining
