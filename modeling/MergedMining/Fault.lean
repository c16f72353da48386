import MergedMining.Chain.Network
import MergedMining.Hex
import MergedMining.Json.Printer

/-!
# Faults

What can go wrong in the work engine, by cause.  Each cause has one wording, given by `message`; a `Fault` adds
the kind of trouble in front of it.
-/

namespace MergedMining

/-- Why bytes, digits or numbers do not have the form they are needed in. -/
inductive EncodingFault
  | hex (text : String) (cause : Hex.Error)
  | fourBytes (n : Nat)
  | width (bytes : Nat)
  | oddText (length : Nat)
  | partialWords (length : Nat)
  | bitsLength (bits : String)
  | bitsDigits (bits : String) (cause : Numeral.Error)
  | negativeBits (compact : Nat)
  | overflowingBits (compact : Nat)
  | difficulty (d : Float)
  | targetLength (text : String)
  | targetDigits (text : String) (cause : Hex.Error)
  | signatureLength (length : Nat)
  | txidLength (txid : String) (length : Nat)
  | templateTime (seconds : Nat)
  | previousHashLength (length : Nat)
  | bitsBytes (bits : String)
  deriving Repr

/-- The text of an encoding fault. -/
def EncodingFault.message : EncodingFault → String
  | .hex text cause => s!"invalid hex `{text}`: {cause.message}"
  | .fourBytes n => s!"{n} does not fit in 4 bytes"
  | .width bytes => s!"unsupported little-endian width {bytes}"
  | .oddText length => s!"hex string of odd length {length}"
  | .partialWords length => s!"hex string length {length} is not a multiple of 8"
  | .bitsLength bits => s!"compact bits `{bits}` must be 8 hex characters"
  | .bitsDigits bits cause => s!"invalid compact bits `{bits}`: {cause.message}"
  | .negativeBits compact => s!"compact bits {Numeral.toHex 8 compact} encode a negative target"
  | .overflowingBits compact => s!"compact bits {Numeral.toHex 8 compact} overflow 256 bits"
  | .difficulty d => s!"difficulty must be finite and positive, got {Decimal.toText d}"
  | .targetLength text => s!"target `{text}` must be 1 to 64 hex characters"
  | .targetDigits text cause => s!"invalid target `{text}`: {cause.message}"
  | .signatureLength length => s!"coinbase signature is {length} bytes, at most 255 allowed"
  | .txidLength txid length => s!"txid `{txid}` is {length} bytes, expected 32"
  | .templateTime seconds => s!"template time {seconds} does not fit in 4 bytes"
  | .previousHashLength length => s!"previous block hash is {length} bytes, expected 32"
  | .bitsBytes bits => s!"bits `{bits}` must be 4 bytes"

/-- Why an operation came too early, or too late. -/
inductive StateFault
  | noTemplate
  | headerNotHashable
  | headerNotSubmittable
  | coinbaseMissing
  | sumMissing
  | parentHeaderMissing
  | extranoncesExhausted (issued : Nat)
  deriving Repr, DecidableEq

/-- The text of a state fault. -/
def StateFault.message : StateFault → String
  | .noTemplate => "no block template to build work from"
  | .headerNotHashable => "header must be made before it is hashed"
  | .headerNotSubmittable => "header must be made before submission"
  | .coinbaseMissing => "coinbase is built with the header"
  | .sumMissing => "parent block sum must be computed first"
  | .parentHeaderMissing => "parent block header must be made first"
  | .extranoncesExhausted issued => s!"no unused extranonce1 after 1024 draws ({issued} issued)"

/-- Why a call to a daemon gave no usable result. -/
inductive CallFault
  | refused (text : String)
  | answered (message : String) (code : Int)
  | status (line : String)
  | malformed
  | unexpected
  | rejected (result : Json)
  | transport
  deriving Repr

/-- The text of a failed call. -/
def CallFault.message : CallFault → String
  | .refused text => text
  | .answered message code => s!"{message} (code {code})"
  | .status line => s!"http status {line}"
  | .malformed => "malformed response"
  | .unexpected => "unexpected result"
  | .rejected result => s!"rejected: {result.compact}"
  | .transport => ""

/-- Why data from a person or a daemon is not acceptable. -/
inductive ValidationFault
  | unknownNetwork (name : String)
  | unknownChain (name : String)
  | noAddress
  | emptyAddress (login : String)
  | addressCount (expected got : Nat)
  | minerAddress (chain : String) (network : Network) (address : String)
  | rewardRejected (url address : String)
  | noNodes (chain : String)
  deriving Repr, DecidableEq

/-- The text of a validation fault. -/
def ValidationFault.message : ValidationFault → String
  | .unknownNetwork name => s!"unknown network `{name}`"
  | .unknownChain name => s!"unknown blockchain `{name}`"
  | .noAddress => "login has no miner address"
  | .emptyAddress login => s!"login `{login}` has an empty miner address"
  | .addressCount expected got => s!"expected {expected} miner addresses, got {got}"
  | .minerAddress chain network address =>
    s!"invalid {chain} {network.name}net miner address: {address}"
  | .rewardRejected url address => s!"{url} rejected reward address `{address}`"
  | .noNodes chain => s!"{chain} needs at least one rpc node"

/-- A fault of the work engine. -/
inductive Fault
  | encoding (cause : EncodingFault)
  | state (cause : StateFault)
  | call (node method : String) (cause : CallFault)
  | noHealthyNodes (chain : String)
  | validation (cause : ValidationFault)
  deriving Repr

/-- The text of a fault. -/
def Fault.message : Fault → String
  | .encoding cause => s!"encoding error: {cause.message}"
  | .state cause => s!"state error: {cause.message}"
  | .call node method cause => s!"rpc error calling `{method}` on {node}: {cause.message}"
  | .noHealthyNodes chain => s!"no healthy {chain} nodes"
  | .validation cause => s!"validation error: {cause.message}"

end MergedMining
