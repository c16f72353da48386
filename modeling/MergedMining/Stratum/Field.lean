import MergedMining.Hex

/-!
# Fields on the miner's line

Numbers travel as hexadecimal text: words of four bytes in exactly eight digits, job ids with up to sixteen
digits and at least eight when written, extranonces as byte strings.
-/

namespace MergedMining

namespace Stratum

/-- What a word of four bytes is for. -/
inductive WordRole
  | nonce
  | ntime
  | version
  deriving Repr, DecidableEq

/-- The name of a role. -/
def WordRole.name : WordRole → String
  | .nonce => "nonce"
  | .ntime => "ntime"
  | .version => "version"

/-- Why a text is no field. -/
inductive FieldFault
  | hex (text : String) (cause : Hex.Error)
  | length (got : Nat)
  | jobId (text : String) (cause : Numeral.Error)
  | word (role : WordRole) (text : String) (cause : Numeral.Error)
  deriving Repr, DecidableEq

/-- The text of a field fault. -/
def FieldFault.message : FieldFault → String
  | .hex text cause => s!"invalid hex `{text}`: {cause.message}"
  | .length got => s!"expected 8 hex characters, got {got}"
  | .jobId text cause => s!"invalid job id `{text}`: {cause.message}"
  | .word role text cause => s!"invalid {role.name} `{text}`: {cause.message}"

/-- A word of four bytes. -/
structure Word (role : WordRole) where
  number : UInt32
  deriving Repr, DecidableEq

/-- The counter that miners vary first. -/
abbrev Nonce := Word .nonce

/-- The time of a block. -/
abbrev Ntime := Word .ntime

/-- The version of a block. -/
abbrev Version := Word .version

namespace Word

variable {role : WordRole}

/-- Reads a word. -/
def parse (role : WordRole) (s : String) : Except FieldFault (Word role) :=
  if s.utf8ByteSize ≠ 8 then .error (.length s.utf8ByteSize)
  else
    match Numeral.parse 16 UInt32.size s with
    | .error e => .error (.word role s e)
    | .ok n => .ok ⟨UInt32.ofNat n⟩

/-- The eight digits of a word. -/
def toText (w : Word role) : String :=
  Numeral.toHex 8 w.number.toNat

/-- The bytes of a word, most significant byte first. -/
def toBytes (w : Word role) : Bytes :=
  Bytes.ofNatBE 4 w.number.toNat

end Word

/-- The name of a job. -/
structure JobId where
  number : UInt64
  deriving Repr, DecidableEq

namespace JobId

/-- Reads a job id. -/
def parse (s : String) : Except FieldFault JobId :=
  match Numeral.parse 16 UInt64.size s with
  | .error e => .error (.jobId s e)
  | .ok n => .ok ⟨UInt64.ofNat n⟩

/-- The digits of a job id, at least eight. -/
def toText (j : JobId) : String :=
  Numeral.toHex 8 j.number.toNat

/-- The job id after this one. -/
def next (j : JobId) : JobId :=
  ⟨j.number + 1⟩

end JobId

/-- Bytes that make the coinbase of each miner its own. -/
structure Extranonce where
  bytes : Bytes
  deriving Repr, DecidableEq

namespace Extranonce

/-- Reads an extranonce. -/
def parse (s : String) : Except FieldFault Extranonce :=
  match Hex.decode s with
  | .error e => .error (.hex s e)
  | .ok bs => .ok ⟨bs⟩

/-- The digits of an extranonce. -/
def toText (e : Extranonce) : String :=
  Hex.encode e.bytes

end Extranonce

end Stratum

end MergedMining
