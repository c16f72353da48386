import MergedMining.Daemon.Basic
import MergedMining.Template

/-!
# What daemons are asked for

Each request is one call with fixed parameters and a reading of the answer.  A block counts as accepted only
when the daemon answers null, and a merge-mined block only when it answers true.
-/

namespace MergedMining

/-- What a daemon knows of an address. -/
structure AddressInfo where
  isValid : Bool
  script : String
  deriving Repr, DecidableEq

/-- The state of a daemon's chain. -/
structure ChainInfo where
  chain : String
  difficulty : Float
  blocks : UInt64
  deriving Repr

/-- A block of a daemon's chain. -/
structure BlockInfo where
  hash : String
  confirmations : Int
  height : UInt64
  txids : List String
  deriving Repr, DecidableEq

/-- One entry of a transaction. -/
structure TransactionDetail where
  category : String
  amount : Float
  deriving Repr

/-- A transaction of a daemon's wallet. -/
structure WalletTransaction where
  confirmations : Int
  amount : Float
  details : List TransactionDetail
  deriving Repr

/-- Reads what a daemon knows of an address. -/
def AddressInfo.ofJson? (v : Json) : Option AddressInfo := do
  let m ← Json.members (["isvalid", "scriptPubKey"].map Json.field) v
  return ⟨← m.withDefault "isvalid" false Json.toBool?, ← m.withDefault "scriptPubKey" "" Json.toStr?⟩

/-- Writes what a daemon knows of an address. -/
def AddressInfo.toJson (a : AddressInfo) : Json :=
  .obj [("isvalid", .bool a.isValid), ("scriptPubKey", .str a.script)]

/-- Reads the state of a chain. -/
def ChainInfo.ofJson? (v : Json) : Option ChainInfo := do
  let m ← Json.members (["chain", "difficulty", "blocks"].map Json.field) v
  return ⟨← m.required "chain" Json.toStr?, ← m.required "difficulty" Json.toFloat?,
    ← m.withDefault "blocks" 0 Json.toUInt64?⟩

/-- Reads a block. -/
def BlockInfo.ofJson? (v : Json) : Option BlockInfo := do
  let m ← Json.members (["hash", "confirmations", "height", "tx"].map Json.field) v
  return ⟨← m.required "hash" Json.toStr?, ← m.withDefault "confirmations" 0 Json.toInt64?,
    ← m.withDefault "height" 0 Json.toUInt64?, ← m.withDefault "tx" [] (Json.toList? Json.toStr?)⟩

/-- Writes a block. -/
def BlockInfo.toJson (b : BlockInfo) : Json :=
  .obj [("hash", .str b.hash), ("confirmations", .int b.confirmations), ("height", .ofNat b.height.toNat),
    ("tx", .arr (b.txids.map .str))]

/-- Reads an entry of a transaction. -/
def TransactionDetail.ofJson? (v : Json) : Option TransactionDetail := do
  let m ← Json.members (["category", "amount"].map Json.field) v
  return ⟨← m.required "category" Json.toStr?, ← m.withDefault "amount" 0 Json.toFloat?⟩

/-- Reads a transaction. -/
def WalletTransaction.ofJson? (v : Json) : Option WalletTransaction := do
  let m ← Json.members (["confirmations", "amount", "details"].map Json.field) v
  return ⟨← m.withDefault "confirmations" 0 Json.toInt64?, ← m.withDefault "amount" 0 Json.toFloat?,
    ← m.withDefault "details" [] (Json.toList? TransactionDetail.ofJson?)⟩

namespace Node

/-- Asks for the contents of the next block. -/
def getBlockTemplate (node : Node) : Asking BlockTemplate :=
  node.read "getblocktemplate" [.obj [("rules", .arr [.str "mweb", .str "segwit"])]] BlockTemplate.ofJson?

/-- Asks for a block to be merge-mined, paying an address. -/
def createAuxBlock (node : Node) (address : String) : Asking AuxBlock :=
  node.read "createauxblock" [.str address] AuxBlock.ofJson?

/-- Whether a block was accepted. -/
def acceptsBlock : Json → Bool
  | .null => true
  | _ => false

/-- Whether a merge-mined block was accepted. -/
def acceptsAuxBlock : Json → Bool
  | .bool true => true
  | _ => false

/-- Makes a call that has to be answered with an acceptance. -/
def submit (node : Node) (method : String) (params : List Json) (accepts : Json → Bool) : Asking Unit := do
  let result ← node.call method params
  if accepts result then return () else throw (node.fault method (.rejected result))

/-- Hands in a block. -/
def submitBlock (node : Node) (submission : String) : Asking Unit :=
  node.submit "submitblock" [.str submission] acceptsBlock

/-- Hands in the proof of work of a merge-mined block. -/
def submitAuxBlock (node : Node) (hash auxpow : String) : Asking Unit :=
  node.submit "submitauxblock" [.str hash, .str auxpow] acceptsAuxBlock

/-- Asks for the script that pays an address, which has to be valid. -/
def validateAddress (node : Node) (address : String) : Asking AddressInfo := do
  let info ← node.read "validateaddress" [.str address] AddressInfo.ofJson?
  if info.isValid && !info.script.isEmpty then return info
  else throw (.validation (.rewardRejected node.url address))

/-- Asks for the state of the chain. -/
def getChainInfo (node : Node) : Asking ChainInfo :=
  node.read "getblockchaininfo" [] ChainInfo.ofJson?

/-- Asks for a block. -/
def getBlock (node : Node) (hash : String) : Asking BlockInfo :=
  node.read "getblock" [.str hash] BlockInfo.ofJson?

/-- Asks for a transaction of the wallet. -/
def getTransaction (node : Node) (txid : String) : Asking WalletTransaction :=
  node.read "gettransaction" [.str txid] WalletTransaction.ofJson?

/-- Asks for the number of connections. -/
def getConnectionCount (node : Node) : Asking UInt64 :=
  node.read "getconnectioncount" [] Json.toUInt64?

/-- Whether a daemon answers sensibly. -/
def isHealthy (node : Node) : StateM Daemons Bool := fun d =>
  match node.getConnectionCount.run d with
  | (.ok _, d) => (true, d)
  | (.error _, d) => (false, d)

end Node

end MergedMining
