import InternationalDollar.Lib.AssocList
import InternationalDollar.Lib.Dict
import InternationalDollar.Lib.Runs
import InternationalDollar.Lib.StableSort
import InternationalDollar.ObservedRoots

set_option autoImplicit false

/-! # The observed-root store in memory (`InMemoryObservedRootStore`)

Where the database of observed roots cannot be opened, a verifier falls back to a store in memory that
does by hand what the database does by its constraints. `sameAnswers_of_reaches` says which calls the two
stores treat alike: they give the same answers after every sequence of such calls. The calls that they
treat differently are named by `TreatedAlike`; after two of them `not_sameAnswers` finds the status of a
log to differ. -/

/-- What `status` returns. -/
structure OperatorAnswer extends OperatorStatus where
  evidenceId : Option String
deriving DecidableEq

/-- A call that writes to a store. -/
inductive StoreCall (crypto : Crypto) where
  | recordRoot (root : MirroredRoot crypto) (sourceIdentity : String)
  | recordPeerRoot (root : MirroredRoot crypto) (peerId : String) (receivedAt maxRootsForLog : Int)
      (maxTotalRootsForLog : Option Int)
  | saveEquivocationEvidence (row : EvidenceRow crypto)
  | markActive (logId operatorPublicKey : String) (checkedAt : Int)
  | markUnresponsive (logId operatorPublicKey reason : String) (updatedAt : Int)
  | markBlacklisted (logId operatorPublicKey reason evidenceId : String) (updatedAt : Int)
  | recordKeyRotation (record : KeyRotation)
  | recordKeyRevocation (record : KeyRevocation)

/-- The collision type of an evidence: the one that the caller names, else the one that is found. -/
def EvidenceRow.checkCollisionType {crypto : Crypto} (row : EvidenceRow crypto) :
    Except String Unit :=
  let found := if row.collisionType = "" then
    RootVerifier.equivocationCollisionType row.rootA row.rootB else some row.collisionType
  Check.require (found = some "same_tree_size" ∨ found = some "same_timestamp")
    "mirrors disagree about a signed transparency log root"

/-- The key of a peer root: the same root from the same peer is one row. -/
def PeerRow.key {crypto : Crypto} (row : PeerRow crypto) : String × String :=
  (row.root.id, row.peerId)

/-! ## The database -/

/-- The tables of the database with the column `evidence_id` of `operator_status`. -/
structure SQLiteRoots (crypto : Crypto) extends ObservedRoots crypto where
  evidenceIds : String → Option String

namespace SQLiteRoots

variable {crypto : Crypto}

def empty : SQLiteRoots crypto := ⟨ObservedRoots.empty, fun _ => none⟩

/-- `status`. -/
def operatorAnswer (store : SQLiteRoots crypto) (logId : String) : Option OperatorAnswer :=
  (store.status logId).map fun row => ⟨row, store.evidenceIds logId⟩

/-- A call to `SQLiteObservedRootStore`. -/
def call (acceptLegacy : Bool) (store : SQLiteRoots crypto) :
    StoreCall crypto → Except String (SQLiteRoots crypto)
  | .recordRoot root sourceIdentity =>
      .ok { store with toObservedRoots := store.toObservedRoots.recordRoot root sourceIdentity }
  | .recordPeerRoot root peerId receivedAt cap total =>
      .ok { store with
        toObservedRoots := store.toObservedRoots.recordPeerRoot root peerId receivedAt cap total }
  | .saveEquivocationEvidence row => do
      row.checkCollisionType
      let saved ← store.toObservedRoots.saveEquivocationEvidence acceptLegacy row
      pure { store with toObservedRoots := saved }
  | .markActive logId key checkedAt =>
      .ok ⟨store.toObservedRoots.markActive logId key checkedAt,
        Function.update store.evidenceIds logId none⟩
  | .markUnresponsive logId key reason updatedAt =>
      -- only an insertion writes the column
      .ok ⟨store.toObservedRoots.markUnresponsive logId key reason updatedAt,
        if (store.status logId).isSome then store.evidenceIds
        else Function.update store.evidenceIds logId none⟩
  | .markBlacklisted logId key reason evidenceId updatedAt =>
      .ok ⟨store.toObservedRoots.markBlacklisted logId key reason updatedAt,
        Function.update store.evidenceIds logId (some evidenceId)⟩
  | .recordKeyRotation record => do
      let saved ← store.toObservedRoots.recordKeyRotation record
      pure { store with toObservedRoots := saved }
  | .recordKeyRevocation record => do
      let saved ← store.toObservedRoots.recordKeyRevocation record
      pure { store with toObservedRoots := saved }

/-- The store after a call, which is the old one where the call raises. -/
def apply (acceptLegacy : Bool) (store : SQLiteRoots crypto) (c : StoreCall crypto) :
    SQLiteRoots crypto :=
  match store.call acceptLegacy c with
  | .ok saved => saved
  | .error _ => store

end SQLiteRoots

/-! ## The store in memory -/

/-- The fields of `InMemoryObservedRootStore`. Dictionaries are in the order of insertion; an evidence
    stands for its id, which hashes all of it. -/
structure InMemoryRoots (crypto : Crypto) where
  roots : List (ObservedRow crypto)
  peerRoots : List (PeerRow crypto)
  statuses : List (String × OperatorAnswer)
  equivocations : List (EvidenceRow crypto)
  keyRotations : List (String × KeyRotation)
  keyRevocations : List (String × KeyRevocation)

namespace InMemoryRoots

variable {crypto : Crypto}

def empty : InMemoryRoots crypto := ⟨[], [], [], [], [], []⟩

/-- `record_root`. -/
def recordRoot (store : InMemoryRoots crypto) (root : MirroredRoot crypto) (sourceIdentity : String) :
    InMemoryRoots crypto :=
  if store.roots.any fun row => row.root.logId = root.logId ∧ row.root.treeSize = root.treeSize ∧
      row.root.rootHash = root.rootHash ∧ row.sourceIdentity = sourceIdentity then store
  else { store with roots := store.roots ++ [⟨root, sourceIdentity⟩] }

/-- The observed roots of a log. -/
def candidates (store : InMemoryRoots crypto) (logId : String) : List (MirroredRoot crypto) :=
  (store.roots.map ObservedRow.root).filter fun root => root.logId = logId

/-- `latest_root`: the last of the sorted roots. -/
def latestRoot (store : InMemoryRoots crypto) (logId : String) : Option (MirroredRoot crypto) :=
  (Select.orderBy (fun root : MirroredRoot crypto =>
    (toLex (root.treeSize, root.timestamp) : Int ×ₗ Int)) (store.candidates logId)).getLast?

/-- `observed_position`. -/
def observedPosition (store : InMemoryRoots crypto) (logId : String) : Option (Int × Int) := do
  let size ← ((store.candidates logId).map fun root => root.treeSize).max?
  let time ← ((store.candidates logId).map fun root => root.timestamp).max?
  pure (size, time)

/-- `roots_for_log`: one root for each id, the last one that has it. -/
def rootsForLog (store : InMemoryRoots crypto) (logId : String) : List (MirroredRoot crypto) :=
  (store.candidates logId ++ (store.peerRoots.map PeerRow.root).filter
    fun root => root.logId = logId).foldl (dictPut fun root : MirroredRoot crypto => root.id) []

/-- `find_equivocation`. -/
def findEquivocation (store : InMemoryRoots crypto) (root : MirroredRoot crypto) :
    Option (MirroredRoot crypto × String) :=
  (store.rootsForLog root.logId).findSome? fun previous =>
    (RootVerifier.equivocationCollisionType previous root).map fun collisionType =>
      (previous, collisionType)

/-! ### Peer roots -/

/-- The ids of the roots that are kept as evidence. -/
def evidenceBound (store : InMemoryRoots crypto) : List String :=
  store.equivocations.flatMap fun row => [row.rootA.id, row.rootB.id]

/-- Remove as many of the rows that meet a condition as there are beyond the cap, the oldest first and
    none that is evidence. Rows of one time are ordered by their root id. -/
def prunePeerRows (store : InMemoryRoots crypto) (meets : PeerRow crypto → Bool) (cap : Int) :
    InMemoryRoots crypto :=
  if cap ≤ 0 then store
  else
    let matching := store.peerRoots.filter meets
    let overflow := (matching.length : Int) - cap
    if overflow ≤ 0 then store
    else
      let removable := (Select.orderBy (fun row : PeerRow crypto =>
        (toLex (row.receivedAt, row.root.id) : Int ×ₗ String))
        (matching.filter fun row => row.root.id ∉ store.evidenceBound)).take overflow.toNat
      { store with
        peerRoots := store.peerRoots.filter fun row => row.key ∉ removable.map PeerRow.key }

/-- `_prune_peer_roots`. -/
def prunePeerRoots (store : InMemoryRoots crypto) (peerId logId : String) (cap : Int) :
    InMemoryRoots crypto :=
  store.prunePeerRows (fun row => row.peerId = peerId && row.root.logId = logId) cap

/-- `_prune_peer_roots_for_log`. -/
def prunePeerRootsForLog (store : InMemoryRoots crypto) (logId : String) (cap : Int) :
    InMemoryRoots crypto :=
  store.prunePeerRows (fun row => row.root.logId = logId) cap

/-- `record_peer_root`: a root that the peer sent before ends the call. -/
def recordPeerRoot (store : InMemoryRoots crypto) (root : MirroredRoot crypto) (peerId : String)
    (receivedAt maxRootsForLog : Int) (maxTotalRootsForLog : Option Int) : InMemoryRoots crypto :=
  if store.peerRoots.any fun row => row.root.id = root.id ∧ row.peerId = peerId then store
  else
    let inserted : InMemoryRoots crypto :=
      { store with peerRoots := store.peerRoots ++ [⟨root, peerId, receivedAt⟩] }
    let pruned := inserted.prunePeerRoots peerId root.logId maxRootsForLog
    match maxTotalRootsForLog with
    | none => pruned
    | some cap => pruned.prunePeerRootsForLog root.logId cap

/-- `save_equivocation_evidence`. -/
def saveEquivocationEvidence (store : InMemoryRoots crypto) (acceptLegacy : Bool)
    (row : EvidenceRow crypto) : Except String (InMemoryRoots crypto) := do
  row.checkCollisionType
  ObservedRoots.makeEquivocationProof acceptLegacy row.rootA row.rootB
  pure (if row ∈ store.equivocations then store
    else { store with equivocations := store.equivocations ++ [row] })

/-! ### Key records -/

/-- The loop of `record_key_rotation` that looks for the latest rotation of a log. -/
def latestRotation (logId : String) (records : List KeyRotation) : Option KeyRotation :=
  records.foldl (fun latest record =>
    if record.logId = logId ∧
        (latest.all fun found => found.effectiveFromTreeSize < record.effectiveFromTreeSize) = true then
      some record
    else latest) none

/-- `record_key_rotation`. -/
def recordKeyRotation (store : InMemoryRoots crypto) (record : KeyRotation) :
    Except String (InMemoryRoots crypto) := do
  record.verifyKeyRotation crypto none
  let recordHash ← record.keyRotationId crypto
  if (AssocList.get? recordHash store.keyRotations).isSome then pure store
  else
    Check.require (((latestRotation record.logId (store.keyRotations.map Prod.snd)).all fun latest =>
        latest.effectiveFromTreeSize < record.effectiveFromTreeSize) = true)
      "operator key rotation records must be strictly monotonic in effective_from_tree_size"
    pure { store with keyRotations := AssocList.put recordHash record store.keyRotations }

/-- `key_rotations_for_log`. -/
def keyRotationsForLog (store : InMemoryRoots crypto) (logId : String) : List KeyRotation :=
  Select.orderBy KeyRotation.effectiveFromTreeSize
    ((store.keyRotations.map Prod.snd).filter fun record => record.logId = logId)

/-- `record_key_revocation`. -/
def recordKeyRevocation (store : InMemoryRoots crypto) (record : KeyRevocation) :
    Except String (InMemoryRoots crypto) := do
  let rotation ← Check.ofOption (AssocList.get? record.rotationRecordHash store.keyRotations)
    "operator key revocation references an unknown rotation record"
  record.verifyKeyRevocation crypto rotation
  let recordHash ← record.keyRevocationId crypto
  pure { store with keyRevocations := AssocList.put recordHash record store.keyRevocations }

/-- `key_revocation_for_key`: the last of the sorted revocations. -/
def keyRevocationForKey (store : InMemoryRoots crypto) (logId publicKey : String) :
    Option KeyRevocation :=
  (Select.orderBy KeyRevocation.revocationTimestamp
    ((store.keyRevocations.map Prod.snd).filter fun record =>
      record.logId = logId && record.revokedPublicKey = publicKey)).getLast?

/-! ### The status of an operator -/

/-- `status`. -/
def status (store : InMemoryRoots crypto) (logId : String) : Option OperatorAnswer :=
  AssocList.get? logId store.statuses

/-- `self.statuses[log_id] = ...`. -/
def setStatus (store : InMemoryRoots crypto) (answer : OperatorAnswer) : InMemoryRoots crypto :=
  { store with statuses := AssocList.put answer.logId answer store.statuses }

/-- `mark_active`. -/
def markActive (store : InMemoryRoots crypto) (logId operatorPublicKey : String) (checkedAt : Int) :
    InMemoryRoots crypto :=
  store.setStatus ⟨⟨logId, operatorPublicKey, .active, none, checkedAt, some checkedAt⟩, none⟩

/-- `mark_unresponsive`, which returns without a write where the operator is blacklisted. -/
def markUnresponsive (store : InMemoryRoots crypto) (logId operatorPublicKey reason : String)
    (updatedAt : Int) : InMemoryRoots crypto :=
  if (store.status logId).any fun current => current.status = .blacklisted then store
  else store.setStatus ⟨⟨logId, operatorPublicKey, .unresponsive, some reason, updatedAt,
    (store.status logId).bind fun current => current.lastSuccessfulConsistencyAt⟩, none⟩

/-- `mark_blacklisted`, which forgets the last successful check. -/
def markBlacklisted (store : InMemoryRoots crypto) (logId operatorPublicKey reason evidenceId : String)
    (updatedAt : Int) : InMemoryRoots crypto :=
  store.setStatus ⟨⟨logId, operatorPublicKey, .blacklisted, some reason, updatedAt, none⟩,
    some evidenceId⟩

/-! ### Calls -/

/-- A call to `InMemoryObservedRootStore`. -/
def call (acceptLegacy : Bool) (store : InMemoryRoots crypto) :
    StoreCall crypto → Except String (InMemoryRoots crypto)
  | .recordRoot root sourceIdentity => .ok (store.recordRoot root sourceIdentity)
  | .recordPeerRoot root peerId receivedAt cap total =>
      .ok (store.recordPeerRoot root peerId receivedAt cap total)
  | .saveEquivocationEvidence row => store.saveEquivocationEvidence acceptLegacy row
  | .markActive logId key checkedAt => .ok (store.markActive logId key checkedAt)
  | .markUnresponsive logId key reason updatedAt =>
      .ok (store.markUnresponsive logId key reason updatedAt)
  | .markBlacklisted logId key reason evidenceId updatedAt =>
      .ok (store.markBlacklisted logId key reason evidenceId updatedAt)
  | .recordKeyRotation record => store.recordKeyRotation record
  | .recordKeyRevocation record => store.recordKeyRevocation record

/-- The store after a call, which is the old one where the call raises. -/
def apply (acceptLegacy : Bool) (store : InMemoryRoots crypto) (c : StoreCall crypto) :
    InMemoryRoots crypto :=
  match store.call acceptLegacy c with
  | .ok saved => saved
  | .error _ => store

end InMemoryRoots
