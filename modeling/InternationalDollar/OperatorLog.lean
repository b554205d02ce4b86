import InternationalDollar.ConflictPrevalidation
import InternationalDollar.SpendMapTables
import InternationalDollar.SubmittedBranch
import InternationalDollar.WireJson
import InternationalDollar.Lib.Effect
import InternationalDollar.Lib.Select

set_option autoImplicit false

/-! # An operator with its spend map (`TransparencyLog`)

What an operator appends, records as claims, enters into its spend map and publishes. The entries and claims are
the tables of `Storage`, and the spend map is stored in `MapTables`. A transfer is appended in one transaction;
`publish_root` first makes up for entries without a claim, and commits what it did also where that raises. -/

/-- The transfer that a value is, or the value. -/
def TransferBody.ofJson (data : Json) : TransferBody :=
  match h : ConflictProofV3.readTransfer data with
  | .ok t => .v3 t
  | .error _ => .other data fun t ht => by
      rw [ConflictProofV3.readTransfer_eq_ok.2 ht] at h
      cases h

theorem TransferBody.ofJson_toJson (t : Transfer) : TransferBody.ofJson t.toJson = .v3 t := by
  unfold TransferBody.ofJson
  split
  · next u h =>
    rw [Transfer.toJson_inj (ConflictProofV3.readTransfer_eq_ok.1 h)]
  · next h =>
    rw [ConflictProofV3.readTransfer_eq_ok.2 rfl] at h
    cases h

/-- The tables of an operator: those of its appends, its spend map, the entries in
    `invalid_transfer_entries_v3` and the signed roots. -/
structure OperatorTables where
  storage : Storage
  map : MapTables
  quarantined : List String
  roots : List SignedRoot

/-- Tables without rows. -/
def OperatorTables.empty : OperatorTables := ⟨.empty, .empty, [], []⟩

/-- A `TransparencyLog` with its private key and the hash of its Merkle tree (`get_state(size).hex()`) over some
    leaves. -/
structure OperatorLog (ProofBundle : Type) extends TransparencyLog ProofBundle where
  privateKey : String
  treeState : List Bytes → String

namespace OperatorLog

open Effect

variable {ProofBundle : Type}

/-- What `_normalize_claim_with_stored_transfer` and the like do to the tables. -/
abbrev Writes := Effect OperatorTables String

section Methods

variable (log : OperatorLog ProofBundle)

/-- `log_id_from_public_key(public_key)`. -/
def logId : String := logIdFromPublicKey log.node.crypto log.publicKey

/-! ## Claims -/

/-- `_quarantine_unreconciled_transfer_entry`. Of the row only its key is read again. -/
def quarantine (entryHash : String) (s : OperatorTables) : OperatorTables :=
  { s with quarantined := s.quarantined.filter (· ≠ entryHash) ++ [entryHash] }

/-- `json.loads(row["transfer_json"])`. -/
def readBody (raw : Bytes) : Except String TransferBody := do
  let text ← Check.ofOption (Text.utf8Decode raw) "invalid start byte"
  let data ← Check.ofOption (Json.parse text.toList) "Expecting value"
  pure (.ofJson data)

/-- A claim with the stored body of its transfer. -/
def withBody (clock : Int) (claim : SpendClaim) (raw : Bytes) : Except String SpendClaim := do
  let body ← readBody raw
  SpendClaim.normalizeSpendClaim log.node.crypto clock { claim with transfer := some body }

/-- `_normalize_claim_with_stored_transfer`. -/
def normalizeClaimWithStoredTransfer (clock : Int) (claim : SpendClaim) (entry : Option LogEntry) :
    Writes SpendClaim := do
  let plain ← lift (SpendClaim.normalizeSpendClaim log.node.crypto clock claim)
  match entry with
  | none => pure plain
  | some e =>
      match e.transferJson with
      | none => pure plain
      | some raw =>
          match log.withBody clock claim raw with
          | .ok claim => pure claim
          | .error _ => do
              write (quarantine e.entryHash)
              pure plain

/-- The claim of a row, without a body. -/
def claimOf (row : SpendClaimRow) (leafIndex : Int) : SpendClaim where
  type := spendClaimType
  version := logVersion
  logId := log.logId
  spendKey := log.backend.compared row.spendKey
  tokenId := log.backend.compared row.tokenId
  previousHash := log.backend.compared row.previousHash
  sequence := row.sequence
  senderAddress := row.senderAddress
  senderPublicKey := row.senderPublicKey
  transferHash := log.backend.compared row.transferHash
  transferLeafIndex := leafIndex
  acceptedAt := row.firstSeen
  transfer := none

/-- `_current_claim_for_map`. -/
def currentClaimForMap (clock : Int) (row : SpendClaimRow) (leafIndex : Int) : Writes SpendClaim := do
  let entry ← read fun s => s.storage.findEntry log.backend row.transferHash
  log.normalizeClaimWithStoredTransfer clock (log.claimOf row leafIndex) entry

/-- The entry of a claim, as `_spend_claim_records` joins it. -/
def joinedEntry (s : Storage) (row : SpendClaimRow) (leafIndex : Int) : Option LogEntry :=
  s.logEntries.find? fun e =>
    log.backend.hashEquals e.entryHash row.transferHash && (e.leafIndex : Int) == leafIndex + 1

/-- The claims with a leaf, in the order of `_spend_claim_records`. -/
def indexedRows (s : Storage) (treeSize : Option Int) : List (SpendClaimRow × Int) :=
  Select.orderBy (fun item : SpendClaimRow × Int => toLex (item.1.spendKey, toLex (item.2, item.1.transferHash)))
    ((s.spendClaims.filterMap fun row => row.transferLeafIndex.map fun leafIndex => (row, leafIndex)).filter
      fun item => ∀ size ∈ treeSize, item.2 < size)

/-- The loop of `_spend_claim_records`. -/
def collectRecords (clock : Int) : List (SpendClaimRow × Int) → Writes (List SpendClaim)
  | [] => pure []
  | (row, leafIndex) :: rest => do
      let entry ← read fun s => log.joinedEntry s.storage row leafIndex
      let claim ← log.normalizeClaimWithStoredTransfer clock (log.claimOf row leafIndex) entry
      let claims ← collectRecords clock rest
      pure (claim :: claims)

/-- `_spend_claim_records`. -/
def spendClaimRecords (clock : Int) (treeSize : Option Int) : Writes (List SpendClaim) := do
  let rows ← read fun s => indexedRows s.storage treeSize
  log.collectRecords clock rows

/-! ## The spend map -/

/-- `_claims_for_current_spend_key`. -/
def claimsForCurrentSpendKey (clock : Int) (spendKey : String) : Writes (List SpendClaim) := do
  let spendKey ← lift (hex32 spendKey "spend key")
  let rows ← read fun s => s.map.claims.filter fun c => c.spendKey = spendKey
  if rows ≠ [] then do
    let claims ← lift (SpendMapProof.normalizeClaims log.node.crypto clock rows)
    pure (SpendClaim.sorted claims)
  else do
    let records ← log.spendClaimRecords clock none
    pure (records.filter fun c => c.spendKey = spendKey)

/-- `_store_current_spend_map_claim`. -/
def storeCurrentSpendMapClaim (clock : Int) (row : SpendClaimRow) (leafIndex : Int) : Writes SpendClaim := do
  let claim ← log.currentClaimForMap clock row leafIndex
  let _ ← lift (canonicalBytes claim.toJson)
  write fun s => { s with map := s.map.putClaim claim }
  pure claim

/-- The hash of a leaf over some claims. -/
def leafHash (spendKey : String) (claims : List SpendClaim) : Except String String :=
  if claims ≠ [] then SpendMap.spendMapSlotHash log.node.crypto spendKey claims
  else .ok (SpendMap.emptyLeafHash log.node.crypto)

/-- `_update_current_spend_map_path`. -/
def updateCurrentSpendMapPath (clock : Int) (spendKey : String) : Writes String := do
  let spendKey ← lift (hex32 spendKey "spend key")
  let claims ← log.claimsForCurrentSpendKey clock spendKey
  let hash ← lift (log.leafHash spendKey claims)
  let position ← lift (SpendMap.spendKeyPosition spendKey)
  let root ← read fun s => (s.map.updatePath log.node.crypto position hash).1
  write fun s => { s with map := (s.map.updatePath log.node.crypto position hash).2 }
  pure root

/-- `INSERT OR REPLACE INTO spend_map_claims_v3` in the loop of `_rebuild_current_spend_map`. -/
def insertMapClaim (claim : SpendClaim) : Writes Unit := do
  let _ ← lift (canonicalBytes claim.toJson)
  write fun s => { s with map := s.map.putClaim claim }

/-- `_rebuild_current_spend_map`. -/
def rebuildCurrentSpendMap (clock : Int) : Writes (String × Int) := do
  let records ← log.spendClaimRecords clock none
  let claims ← lift (SpendMapProof.normalizeClaims log.node.crypto clock records)
  let map ← lift (SpendMap.spendMapLevels log.node.crypto clock claims)
  write fun s => { s with map := .empty }
  forEach insertMapClaim claims
  write fun s => { s with
    map := (s.map.storeLevels log.node.crypto 0 map.levels).setMeta map.totalClaims (map.root log.node.crypto) }
  pure (map.root log.node.crypto, map.totalClaims)

/-- `_record_current_spend_map_claim`. -/
def recordCurrentSpendMapClaim (clock : Int) (row : SpendClaimRow) (leafIndex : Int) :
    Writes (String × Int) := do
  let needsRebuild ← read fun s => s.map.needsRebuild log.node.crypto
  let claim ← log.storeCurrentSpendMapClaim clock row leafIndex
  if needsRebuild then log.rebuildCurrentSpendMap clock
  else do
    let root ← log.updateCurrentSpendMapPath clock claim.spendKey
    write fun s => { s with map := s.map.setMeta s.map.claims.length root }
    let size ← read fun s => s.map.mapSize.getD 0
    pure (root, size)

/-- `_ensure_current_spend_map`. -/
def ensureCurrentSpendMap (clock : Int) : Writes (String × Int) := do
  let needsRebuild ← read fun s => s.map.needsRebuild log.node.crypto
  if needsRebuild then log.rebuildCurrentSpendMap clock
  else do
    let root ← read fun s => s.map.rootHash.getD ""
    let size ← read fun s => s.map.mapSize.getD 0
    pure (root, size)

/-- `_record_spend_claim`. -/
def recordSpendClaim (clock : Int) (t : Transfer) (spendKey transferHash : String)
    (leafIndex firstSeen : Int) : Writes Unit := do
  write fun s => { s with storage := s.storage.insertClaim log.backend ⟨spendKey, t.tokenId, t.previousHash,
    t.sequence, t.senderAddress, t.senderPublicKey, transferHash, some leafIndex, firstSeen⟩ }
  write fun s => { s with storage := s.storage.indexClaim log.backend spendKey transferHash leafIndex }
  let persisted ← read fun s => s.storage.findClaim log.backend spendKey transferHash
  let row ← lift (Check.ofOption persisted "spend claim was not recorded")
  let leafIndex ← lift (Check.ofOption row.transferLeafIndex "int() argument must be a string or a number")
  let _ ← log.recordCurrentSpendMapClaim clock row leafIndex
  pure ()

/-! ## Appends -/

/-- The transaction of `append_transfer_announcement`. -/
def appendTransferConn (clock : Int) (t : Transfer) (spendKey entryHash : String) (submittedAt : Int) :
    Transaction OperatorTables Accepted := do
  let conflict ← Transaction.query fun s => s.storage.conflictingClaim log.backend spendKey entryHash
  Transaction.lift (Check.require conflict.isNone "conflicting spend is rejected")
  let entryBytes ← Transaction.lift (Check.ofOption (Text.fromhex entryHash) "non-hexadecimal number found")
  let transferJson ← Transaction.lift (canonicalBytes t.toJson)
  let stored ← Transaction.focus OperatorTables.storage (fun storage s => { s with storage })
    (appendLogEntryConn log.backend entryHash entryBytes (log.hashBuff entryBytes) submittedAt "transfer" none
      (some transferJson))
  Transaction.statement
    (log.recordSpendClaim clock t spendKey entryHash ((stored.leafIndex : Int) - 1) submittedAt)
  pure (AppendServer.answer entryHash (some spendKey) stored)

/-- The tables after a rollback. -/
def rollback (before working : OperatorTables) : OperatorTables :=
  { before with storage := log.backend.rollback before.storage working.storage }

/-- `append_transfer_announcement`. -/
def appendTransferAnnouncement (call : TransferCall ProofBundle) (s : OperatorTables) :
    Except String Accepted × OperatorTables :=
  match log.transferToAppend call with
  | .error e => (.error e, s)
  | .ok t =>
      match log.server.prepareTransfer call.clock t with
      | .error e => (.error e, s)
      | .ok (entryHash, spendKey) =>
          (log.appendTransferConn call.clock t spendKey entryHash (call.submittedAt.getD call.clock)).run
            log.rollback call.fault s

/-- `append_entry_hash`. -/
def appendEntryHash (entryHash : String) (submittedAt : Int) (transfer : Option Json) (entryKind : String)
    (entry : Option Json) (fault : Option Nat) (s : OperatorTables) :
    Except String Accepted × OperatorTables :=
  let result := log.server.appendEntryHash entryHash submittedAt transfer entryKind entry fault s.storage
  (result.1, { s with storage := result.2 })

/-! ## Roots -/

/-- The entries that `_reconcile_transfer_spend_claims` selects: they have a body, no claim with a leaf, and
    are not set aside. -/
def unreconciled (s : OperatorTables) : List LogEntry :=
  Select.orderBy LogEntry.leafIndex (s.storage.logEntries.filter fun e => e.transferJson.isSome &&
    !(s.storage.spendClaims.any fun c =>
      c.transferLeafIndex.isSome && log.backend.hashEquals c.transferHash e.entryHash) &&
    !(s.quarantined.any fun text => log.backend.hashEquals text e.entryHash))

/-- `_validated_v3_transfer_for_reconciliation`. -/
def validatedV3TransferForReconciliation (clock : Int) (e : LogEntry) : Except String (Transfer × String) := do
  let raw ← Check.ofOption e.transferJson "stored transfer json is malformed"
  let body ← readBody raw
  match body with
  | .other _ _ => .error "stored transfer is not a V3 transfer"
  | .v3 t => do
      t.validateTransferShape log.node.crypto t.networkId true clock
      t.verifyTransferSignature log.node.crypto clock
      let hash ← t.transferHash log.node.crypto clock
      Check.require (hash = e.entryHash) "stored V3 transfer entry hash mismatch"
      pure (t, hash)

/-- A round of the loop of `_reconcile_transfer_spend_claims`. -/
def reconcileEntry (clock : Int) (e : LogEntry) : Writes Unit :=
  match log.validatedV3TransferForReconciliation clock e with
  | .error _ => write (quarantine e.entryHash)
  | .ok (t, hash) => do
      let spendKey ← lift (t.spendKeyForTransfer log.node.crypto)
      log.recordSpendClaim clock t spendKey hash ((e.leafIndex : Int) - 1) e.submittedAt

/-- `_reconcile_transfer_spend_claims`. -/
def reconcileTransferSpendClaims (clock : Int) : Writes Unit := do
  let entries ← read log.unreconciled
  forEach (log.reconcileEntry clock) entries

/-- Whether `_conflicting_spend_claim` finds a key with two transfers. -/
def hasConflictingSpendClaim (s : OperatorTables) : Bool :=
  s.storage.spendClaims.any fun c => s.storage.spendClaims.any fun d =>
    c.transferLeafIndex.isSome && d.transferLeafIndex.isSome && log.backend.hashEquals c.spendKey d.spendKey &&
      !log.backend.hashEquals c.transferHash d.transferHash

/-- The first transaction of `publish_root`, with the reason for which no root is published. It is committed
    also where the claims could not all be made up for. -/
def prepareRoot (clock : Int) : Writes (Option String) := do
  let outcome ← attempt (log.reconcileTransferSpendClaims clock)
  match outcome with
  | .error e => pure (some ("spend-map reconciliation failed: " ++ e))
  | .ok _ => do
      let conflict ← read log.hasConflictingSpendClaim
      if conflict then do
        let _ ← log.rebuildCurrentSpendMap clock
        pure (some "operator log contains conflicting spend claims")
      else pure none

/-- `latest_root`. -/
def latestRoot (s : OperatorTables) : Option SignedRoot :=
  (Select.orderBy (fun root : SignedRoot => toLex (root.timestamp, root.treeSize)) s.roots).getLast?

/-- The timestamp of a new root: later than that of the latest one. -/
def nextTimestamp (timestamp : Int) : Option SignedRoot → Int
  | none => timestamp
  | some latest => if timestamp ≤ latest.timestamp then latest.timestamp + 1 else timestamp

/-- `tree_size`. -/
def treeSize (s : OperatorTables) : Nat := s.storage.leaf.length

/-- `LOG_EMPTY_ROOT_HASH`. -/
def logEmptyRootHash : String := log.node.crypto.sha3Hex (Text.utf8 "IND-TRANSPARENCY-EMPTY-LOG-V3")

/-- `current_root_hash`. -/
def currentRootHash (s : OperatorTables) (size : Nat) : String :=
  if size = 0 then log.logEmptyRootHash else log.treeState ((s.storage.leaf.map Leaf.hash).take size)

/-- `INSERT OR IGNORE INTO signed_roots`. -/
def insertRoot (root : SignedRoot) (s : OperatorTables) : OperatorTables :=
  if s.roots.any fun r => r.signedRootId log.node.crypto = root.signedRootId log.node.crypto then s
  else { s with roots := s.roots ++ [root] }

/-- `publish_root`, up to the mirrors. -/
def publishRoot (clock : Int) (timestamp : Option Int) : Writes SignedRoot := do
  let reason ← atomically (log.prepareRoot clock)
  match reason with
  | some reason => raise reason
  | none => do
      let timestamp ← read fun s => nextTimestamp (timestamp.getD clock) (latestRoot s)
      let size ← read treeSize
      let hash ← read fun s => log.currentRootHash s size
      let (spendMapRoot, spendMapSize) ← atomically (log.ensureCurrentSpendMap clock)
      let root ← lift (SignedRoot.makeSignedRoot log.node.crypto size hash timestamp log.privateKey log.publicKey
        spendMapRoot spendMapSize)
      let _ ← lift (root.signedRootId log.node.crypto)
      write (log.insertRoot root)
      pure root

end Methods

/-! ## Runs -/

/-- The tables, and the time of the last call. -/
structure State where
  tables : OperatorTables
  clock : Int

/-- A call of one of the appends or of `publish_root`. -/
inductive Event (ProofBundle : Type) where
  | transfer (call : TransferCall ProofBundle)
  | entry (clock : Int) (entryHash : String) (submittedAt : Int) (transfer : Option Json) (entryKind : String)
      (entry : Option Json) (fault : Option Nat)
  | publish (clock : Int) (timestamp : Option Int)

/-- The time of a call. -/
def Event.clock : Event ProofBundle → Int
  | .transfer call => call.clock
  | .entry clock _ _ _ _ _ _ => clock
  | .publish clock _ => clock

/-- The tables after a call. -/
def after (log : OperatorLog ProofBundle) (s : OperatorTables) : Event ProofBundle → OperatorTables
  | .transfer call => (log.appendTransferAnnouncement call s).2
  | .entry _ entryHash submittedAt transfer entryKind entry fault =>
      (log.appendEntryHash entryHash submittedAt transfer entryKind entry fault s).2
  | .publish clock timestamp => (log.publishRoot clock timestamp s).2

/-- A call. -/
def step (log : OperatorLog ProofBundle) (s : State) (event : Event ProofBundle) : Option State :=
  some ⟨log.after s.tables event, event.clock⟩

/-- A log without entries. -/
def initial : State := ⟨.empty, 0⟩

end OperatorLog
