import MergedMining.Chain

/-!
# Addresses

An address is a leading character that tells chain and network, followed by 25 to 34 characters of the base-58
alphabet, or a written-out lead followed by 8 to 87 characters of the segregated-witness alphabet.
-/

namespace MergedMining

namespace Chain

/-- Letters and digits without those that look alike. -/
def isBase58 (c : Char) : Bool :=
  ('1' ≤ c && c ≤ '9') || ('A' ≤ c && c ≤ 'H') || ('J' ≤ c && c ≤ 'N') || ('P' ≤ c && c ≤ 'Z') ||
    ('a' ≤ c && c ≤ 'k') || ('m' ≤ c && c ≤ 'z')

/-- The characters of a segregated-witness address behind its lead. -/
def isWitnessChar (c : Char) : Bool :=
  c = '0' || ('2' ≤ c && c ≤ '9') || c = 'a' || ('c' ≤ c && c ≤ 'h') || ('j' ≤ c && c ≤ 'n') ||
    ('p' ≤ c && c ≤ 'z')

/-- Whether a text is one of the given characters and then 25 to 34 of the base-58 alphabet. -/
def isLegacy (leads : List Char) : List Char → Bool
  | [] => false
  | lead :: rest =>
    leads.contains lead && decide (25 ≤ rest.length ∧ rest.length ≤ 34) && rest.all isBase58

/-- Whether a text is the lead and then 8 to 87 characters of the witness alphabet. -/
def isWitness (lead cs : List Char) : Bool :=
  let rest := cs.drop lead.length
  lead.isPrefixOf cs && decide (8 ≤ rest.length ∧ rest.length ≤ 87) && rest.all isWitnessChar

/-- Whether a text has the form of an address of the chain on the network. -/
def acceptsChars (chain : Chain) (network : Network) (cs : List Char) : Bool :=
  match chain, network with
  | .dogecoin, .main => isLegacy ['D', 'A', '9'] cs
  | .dogecoin, .test => isLegacy ['n', 'm', '2'] cs
  | .litecoin, .main => isLegacy ['L', 'M', '3'] cs || isWitness ['l', 't', 'c', '1'] cs
  | .litecoin, .test => isLegacy ['m', 'n', '2', 'Q'] cs || isWitness ['t', 'l', 't', 'c', '1'] cs

/-- Whether a text has the form of an address of the chain on the network. -/
def accepts (chain : Chain) (network : Network) (address : String) : Bool :=
  chain.acceptsChars network address.toList

end Chain

end MergedMining
