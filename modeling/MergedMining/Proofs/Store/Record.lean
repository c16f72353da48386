import MergedMining.Proofs.Json.Members
import MergedMining.Proofs.Timestamp
import MergedMining.Store.Journal

/-!
# Records are read as they are written

The line of a share is read as this share with what the digits of its doubles amount to (`Record.parse?_share`),
so every record whose doubles are read as they were written is itself read so
(`Record.parse?_of_isStorable`).
-/

namespace MergedMining

/-- A share that is read as it is written. -/
structure Share.IsStorable (s : Share) : Prop where
  difficulty : Json.ReadsBack s.difficulty
  networkDifficulty : Json.ReadsBack s.networkDifficulty
  created : s.created.IsValid

/-- A found block that is read as it is written, whatever its id. -/
structure FoundBlock.IsStorable (b : FoundBlock) : Prop where
  networkDifficulty : Json.ReadsBack b.networkDifficulty
  progress : Json.ReadsBack b.progress
  effort : Json.ReadsBack b.effort
  reward : Json.ReadsBack b.reward
  created : b.created.IsValid

namespace Record

open Json (Document inRange_toNat rereadFloat_of_readsBack toUInt64?_ofNat)
open Json.Members (required_of_get)

/-- A record that is read as it is written: its parts are, and an id has 64 bits. -/
def IsStorable : Record → Prop
  | .share s => s.IsStorable
  | .foundBlock b => b.IsStorable ∧ -2 ^ 63 ≤ b.id ∧ b.id < 2 ^ 63
  | .blockUpdate b => b.IsStorable ∧ -2 ^ 63 ≤ b.id ∧ b.id < 2 ^ 63

/-! ### What a record says that it is -/

private theorem tag?_ofMembers (tag : String) {ms : List (String × Json)} (h : "record" ∉ ms.map Prod.fst) :
    tag? (.ofMembers (("record", .str tag) :: ms)) = some tag := by
  have hrest : (ms.map fun m => (some m.1, Document.leaf (some m.2))).filter (·.1 = some "record") = [] := by
    refine List.filter_eq_nil_iff.2 fun m hm => ?_
    obtain ⟨m', hm', rfl⟩ := List.mem_map.1 hm
    rw [decide_eq_true_eq]
    exact fun heq => h (Option.some.inj heq ▸ List.mem_map_of_mem hm')
  unfold tag? Document.ofMembers
  dsimp only
  rw [List.map_cons, List.filter_cons_of_pos (by rfl), hrest]
  rfl

/-- What a record says that it is, the members that it has then, how they are read, and what is made of that. -/
private inductive IsKind : {α : Type} → String → List Json.Field → (Json.Members → Option α) → (α → Record) → Prop
  | share : IsKind "share" Share.fields Share.ofMembers? .share
  | foundBlock : IsKind "found_block" FoundBlock.fields FoundBlock.ofMembers? .foundBlock
  | blockUpdate : IsKind "block_update" FoundBlock.fields FoundBlock.ofMembers? .blockUpdate

private theorem parse?_of_isKind {α : Type} {tag line : String} {fields : List Json.Field}
    {read : Json.Members → Option α} {wrap : α → Record} {d : Document} {v : Json}
    (hkind : IsKind tag fields read wrap) (hparse : Document.parse? line = some d)
    (hvalue : d.value? Json.maxDepth = some v) (htag : tag? d = some tag) :
    parse? line = ((membersOf? d fields).bind read).map wrap := by
  unfold parse?
  rw [hparse, Option.map_eq_bind]
  simp only [Option.bind_eq_bind, Option.bind_some, hvalue, htag]
  cases hkind with
  | share => rfl
  | foundBlock => rfl
  | blockUpdate => rfl

/-! ### Single members -/

private theorem toInt64?_int {n : Int} (hlow : -2 ^ 63 ≤ n) (hhigh : n < 2 ^ 63) :
    (Json.int n).toInt64? = some n := by
  have hrange : -0x8000000000000000 ≤ n ∧ n ≤ 0x7fffffffffffffff := by omega
  unfold Json.toInt64? Json.toInt?
  simp only [hrange, and_self, if_true]

private theorem ofJson?_toJson {t : Timestamp} (h : t.IsValid) : Timestamp.ofJson? t.toJson = some t := by
  rw [Timestamp.ofJson?, Timestamp.toJson, Json.toStr?, Option.bind_some, Timestamp.parse?_toText h]

private theorem ofJson?_name (s : BlockStatus) : BlockStatus.ofJson? (.str s.name) = some s := by
  cases s with
  | pending => rfl
  | confirmed => rfl
  | orphaned => rfl

/-! ### Shares -/

/-- The members of a share, with these values for its doubles. -/
private def shareMembers (s : Share) (difficulty networkDifficulty : Json) : List (String × Json) :=
  [("record", .str "share"), ("pool_id", .str s.poolId), ("block_height", .ofNat s.height.toNat),
    ("miner", .str s.miner), ("worker", .str s.worker), ("user_agent", .str s.userAgent), ("difficulty", difficulty),
    ("network_difficulty", networkDifficulty), ("ip_address", .str s.ip), ("created", s.created.toJson)]

private theorem ofMembers?_shareMembers (s : Share) (d n : Json) (hcreated : s.created.IsValid) :
    Share.ofMembers? ⟨false, (shareMembers s d n).map fun m => (m.1, some m.2)⟩ =
      d.toFloat?.bind fun d => n.toFloat?.map fun n => { s with difficulty := d, networkDifficulty := n } := by
  obtain ⟨m, hm⟩ : ∃ m : Json.Members, m = ⟨false, (shareMembers s d n).map fun m => (m.1, some m.2)⟩ := ⟨_, rfl⟩
  have hpool : m.get "pool_id" = some (.str s.poolId) := hm ▸ rfl
  have hheight : m.get "block_height" = some (.ofNat s.height.toNat) := hm ▸ rfl
  have hminer : m.get "miner" = some (.str s.miner) := hm ▸ rfl
  have hworker : m.get "worker" = some (.str s.worker) := hm ▸ rfl
  have hagent : m.get "user_agent" = some (.str s.userAgent) := hm ▸ rfl
  have hdifficulty : m.get "difficulty" = some d := hm ▸ rfl
  have hnetwork : m.get "network_difficulty" = some n := hm ▸ rfl
  have hip : m.get "ip_address" = some (.str s.ip) := hm ▸ rfl
  have htime : m.get "created" = some s.created.toJson := hm ▸ rfl
  rw [← hm]
  simp only [Share.ofMembers?, required_of_get hpool, required_of_get hheight, required_of_get hminer,
    required_of_get hworker, required_of_get hagent, required_of_get hdifficulty, required_of_get hnetwork,
    required_of_get hip, required_of_get htime, Json.toStr?, toUInt64?_ofNat, ofJson?_toJson hcreated,
    Option.bind_eq_bind, Option.bind_some]
  cases d.toFloat? with
  | none => rfl
  | some _ =>
    cases n.toFloat? with
    | none => rfl
    | some _ => rfl

/-- What is read of the line of a share: its doubles are what their digits amount to. -/
theorem parse?_share (s : Share) {d n : Json} (hd : Json.rereadFloat s.difficulty = some d)
    (hn : Json.rereadFloat s.networkDifficulty = some n) (hcreated : s.created.IsValid) :
    parse? (share s).toJson.compact = (d.toFloat?.bind fun d => n.toFloat?.map fun n =>
      { s with difficulty := d, networkDifficulty := n }).map share := by
  have hranged : (share s).toJson.Ranged := by
    simp only [toJson, Share.toMembers, Json.ofNat, Timestamp.toJson, Json.Ranged, Json.RangedMembers,
      inRange_toNat, and_self]
  have hdoc : (share s).toJson.document = .ofMembers (shareMembers s d n) := by
    simp only [toJson, Share.toMembers, Json.document, Json.memberDocuments, hd, hn, Json.ofNat, Timestamp.toJson]
    rfl
  have htag : tag? (.ofMembers (shareMembers s d n)) = some "share" := tag?_ofMembers "share" (by simp)
  have hnodup : ((shareMembers s d n).map Prod.fst).Nodup := show ["record", "pool_id", "block_height", "miner",
    "worker", "user_agent", "difficulty", "network_difficulty", "ip_address", "created"].Nodup by decide
  have hnames : ((shareMembers s d n).map Prod.fst).map Json.field = Json.field "record" :: Share.fields := rfl
  have hmembers := Document.members_ofMembers hnodup
  rw [hnames] at hmembers
  obtain ⟨v, hv⟩ := Document.exists_value?_ofMembers (shareMembers s d n)
  rw [parse?_of_isKind .share (hdoc ▸ Json.parse?_compact hranged) hv htag, membersOf?, hmembers, Option.bind_some,
    ofMembers?_shareMembers s d n hcreated]

/-! ### Blocks -/

/-- The members of a block, behind this text for what they are. -/
private def blockMembers (tag : String) (b : FoundBlock) : List (String × Json) := ("record", .str tag) :: b.toMembers

private theorem ofMembers?_blockMembers (tag : String) {b : FoundBlock} (hcreated : b.created.IsValid)
    (hlow : -2 ^ 63 ≤ b.id) (hhigh : b.id < 2 ^ 63) :
    FoundBlock.ofMembers? ⟨false, (blockMembers tag b).map fun m => (m.1, some m.2)⟩ = some b := by
  obtain ⟨m, hm⟩ : ∃ m : Json.Members, m = ⟨false, (blockMembers tag b).map fun m => (m.1, some m.2)⟩ := ⟨_, rfl⟩
  have hid : m.get "id" = some (.int b.id) := hm ▸ rfl
  have hpool : m.get "pool_id" = some (.str b.poolId) := hm ▸ rfl
  have hchain : m.get "chain" = some (.str b.chain) := hm ▸ rfl
  have hheight : m.get "block_height" = some (.ofNat b.height.toNat) := hm ▸ rfl
  have hnetwork : m.get "network_difficulty" = some (.float b.networkDifficulty) := hm ▸ rfl
  have hstatus : m.get "status" = some (.str b.status.name) := hm ▸ rfl
  have hkind : m.get "type" = some (.str b.kind) := hm ▸ rfl
  have hprogress : m.get "confirmation_progress" = some (.float b.progress) := hm ▸ rfl
  have heffort : m.get "effort" = some (.float b.effort) := hm ▸ rfl
  have hconfirmation : m.get "transaction_confirmation_data" = some (.str b.confirmation) := hm ▸ rfl
  have hminer : m.get "miner" = some (.str b.miner) := hm ▸ rfl
  have hreward : m.get "reward" = some (.float b.reward) := hm ▸ rfl
  have hhash : m.get "hash" = some (.str b.hash) := hm ▸ rfl
  have htime : m.get "created" = some b.created.toJson := hm ▸ rfl
  have hdefault : m.withDefault "id" 0 Json.toInt64? = some b.id := by
    rw [Json.Members.withDefault, hid]
    exact toInt64?_int hlow hhigh
  rw [← hm]
  simp only [FoundBlock.ofMembers?, hdefault, required_of_get hpool, required_of_get hchain, required_of_get hheight,
    required_of_get hnetwork, required_of_get hstatus, required_of_get hkind, required_of_get hprogress,
    required_of_get heffort, required_of_get hconfirmation, required_of_get hminer, required_of_get hreward,
    required_of_get hhash, required_of_get htime, Json.toStr?, Json.toFloat?, toUInt64?_ofNat, ofJson?_name,
    ofJson?_toJson hcreated, Option.bind_eq_bind, Option.bind_some]
  rfl

private theorem document?_blockMembers (tag : String) {b : FoundBlock} (h : b.IsStorable) (hlow : -2 ^ 63 ≤ b.id)
    (hhigh : b.id < 2 ^ 63) :
    Document.parse? (Json.obj (blockMembers tag b)).compact = some (.ofMembers (blockMembers tag b)) := by
  have hid : Json.InRange b.id := by
    unfold Json.InRange
    omega
  have hranged : (Json.obj (blockMembers tag b)).Ranged := by
    simp only [blockMembers, FoundBlock.toMembers, Json.ofNat, Timestamp.toJson, Json.Ranged, Json.RangedMembers,
      inRange_toNat, hid, and_self]
  have hdoc : (Json.obj (blockMembers tag b)).document = .ofMembers (blockMembers tag b) := by
    simp only [blockMembers, FoundBlock.toMembers, Json.document, Json.memberDocuments, Json.ofNat, Timestamp.toJson,
      rereadFloat_of_readsBack h.networkDifficulty, rereadFloat_of_readsBack h.progress,
      rereadFloat_of_readsBack h.effort, rereadFloat_of_readsBack h.reward]
    rfl
  rw [Json.parse?_compact hranged, hdoc]

private theorem membersOf?_blockMembers (tag : String) {b : FoundBlock} (h : b.IsStorable) (hlow : -2 ^ 63 ≤ b.id)
    (hhigh : b.id < 2 ^ 63) :
    (membersOf? (.ofMembers (blockMembers tag b)) FoundBlock.fields).bind FoundBlock.ofMembers? = some b := by
  have hnodup : ((blockMembers tag b).map Prod.fst).Nodup := show ["record", "id", "pool_id", "chain", "block_height",
    "network_difficulty", "status", "type", "confirmation_progress", "effort", "transaction_confirmation_data",
    "miner", "reward", "hash", "created"].Nodup by decide
  have hnames : ((blockMembers tag b).map Prod.fst).map Json.field = Json.field "record" :: FoundBlock.fields := rfl
  have hmembers := Document.members_ofMembers hnodup
  rw [hnames] at hmembers
  rw [membersOf?, hmembers, Option.bind_some, ofMembers?_blockMembers tag h.created hlow hhigh]

private theorem parse?_blockMembers {tag : String} {wrap : FoundBlock → Record} {b : FoundBlock}
    (hkind : IsKind tag FoundBlock.fields FoundBlock.ofMembers? wrap) (h : b.IsStorable) (hlow : -2 ^ 63 ≤ b.id)
    (hhigh : b.id < 2 ^ 63) : parse? (Json.obj (blockMembers tag b)).compact = some (wrap b) := by
  have hnot : "record" ∉ b.toMembers.map Prod.fst := by simp [FoundBlock.toMembers]
  have htag : tag? (.ofMembers (blockMembers tag b)) = some tag := tag?_ofMembers tag hnot
  obtain ⟨v, hv⟩ := Document.exists_value?_ofMembers (blockMembers tag b)
  rw [parse?_of_isKind hkind (document?_blockMembers tag h hlow hhigh) hv htag,
    membersOf?_blockMembers tag h hlow hhigh, Option.map_some]

/-- A storable record is read as it is written. -/
theorem parse?_of_isStorable {r : Record} (h : r.IsStorable) : parse? r.toJson.compact = some r := by
  cases r with
  | share s =>
    rw [parse?_share s (rereadFloat_of_readsBack h.difficulty) (rereadFloat_of_readsBack h.networkDifficulty)
      h.created]
    rfl
  | foundBlock b => exact parse?_blockMembers .foundBlock h.1 h.2.1 h.2.2
  | blockUpdate b => exact parse?_blockMembers .blockUpdate h.1 h.2.1 h.2.2

end Record

end MergedMining
