import InternationalDollar.KeyRecords
import InternationalDollar.Lib.Select
import InternationalDollar.RootVerifier

set_option autoImplicit false

/-! # The observed-root store (`SQLiteObservedRootStore`)

A verifier remembers every root that it has seen, from which mirror or which peer, the key records that
it has accepted, and what it thinks of each operator. Rows are in the order of their ids. -/

/-- A row of `observed_roots`. -/
structure ObservedRow (crypto : Crypto) where
  root : MirroredRoot crypto
  sourceIdentity : String
deriving DecidableEq

/-- A row of `peer_observed_roots`. -/
structure PeerRow (crypto : Crypto) where
  root : MirroredRoot crypto
  peerId : String
  receivedAt : Int
deriving DecidableEq

/-- A row of `equivocation_evidence`. -/
structure EvidenceRow (crypto : Crypto) where
  collisionType : String
  rootA : MirroredRoot crypto
  rootB : MirroredRoot crypto
  detectedAt : Int
deriving DecidableEq

instance {crypto : Crypto} (row : EvidenceRow crypto) (rows : List (EvidenceRow crypto)) : Decidable (row ∈ rows) :=
  inferInstance

/-- The status of an operator. -/
inductive StatusName where
  | active
  | unresponsive
  | blacklisted
deriving DecidableEq

/-- A row of `operator_status`. -/
structure OperatorStatus where
  logId : String
  operatorPublicKey : String
  status : StatusName
  reason : Option String
  updatedAt : Int
  lastSuccessfulConsistencyAt : Option Int
deriving DecidableEq

/-- The tables of the store. A key record is filed under its hash. -/
structure ObservedRoots (crypto : Crypto) where
  observedRoots : List (ObservedRow crypto)
  peerObservedRoots : List (PeerRow crypto)
  equivocationEvidence : List (EvidenceRow crypto)
  operatorKeyRotations : List (String × KeyRotation)
  operatorKeyRevocations : List (String × KeyRevocation)
  operatorStatus : List OperatorStatus
deriving DecidableEq

namespace ObservedRoots

variable {crypto : Crypto}

/-- A store that was just created. -/
def empty : ObservedRoots crypto := ⟨[], [], [], [], [], []⟩

/-! ## Roots -/

/-- `record_root`: one row for each tree and source. -/
def recordRoot (store : ObservedRoots crypto) (root : MirroredRoot crypto) (sourceIdentity : String) :
    ObservedRoots crypto :=
  if store.observedRoots.any fun row => row.root.logId = root.logId ∧
      row.root.treeSize = root.treeSize ∧ row.root.rootHash = root.rootHash ∧
      row.sourceIdentity = sourceIdentity then store
  else { store with observedRoots := store.observedRoots ++ [⟨root, sourceIdentity⟩] }

/-- The observed roots of a log. -/
def observedOf (store : ObservedRoots crypto) (logId : String) : List (MirroredRoot crypto) :=
  (store.observedRoots.map ObservedRow.root).filter fun root => root.logId = logId

/-- `latest_root`: the largest tree, then the latest time, then the last row. -/
def latestRoot (store : ObservedRoots crypto) (logId : String) : Option (MirroredRoot crypto) :=
  (store.observedOf logId).reverse.argmax
    fun root => (toLex (root.treeSize, root.timestamp) : Int ×ₗ Int)

/-- `observed_position`: the highest tree size and the latest time. -/
def observedPosition (store : ObservedRoots crypto) (logId : String) : Option (Int × Int) := do
  let size ← ((store.observedOf logId).map fun root => root.treeSize).max?
  let time ← ((store.observedOf logId).map fun root => root.timestamp).max?
  pure (size, time)

/-- `known_log_ids`. -/
def knownLogIds (store : ObservedRoots crypto) : List String :=
  (store.observedRoots.map fun row => row.root.logId) ++
    store.peerObservedRoots.map fun row => row.root.logId

/-- `roots_for_log`, in the order of the tables. -/
def rootsForLog (store : ObservedRoots crypto) (logId : String) : List (MirroredRoot crypto) :=
  (store.observedRoots.map ObservedRow.root ++ store.peerObservedRoots.map PeerRow.root).filter
    fun root => root.logId = logId

/-- `find_equivocation`: the first stored root that a root collides with. -/
def findEquivocation (store : ObservedRoots crypto) (root : MirroredRoot crypto) :
    Option (MirroredRoot crypto × String) :=
  (store.rootsForLog root.logId).findSome? fun previous =>
    (RootVerifier.equivocationCollisionType previous root).map fun collisionType =>
      (previous, collisionType)

/-! ## Peer roots -/

/-- The ids of the roots that are kept as evidence. -/
def evidenceRootIds (store : ObservedRoots crypto) : List String :=
  store.equivocationEvidence.flatMap fun row => [row.rootA.id, row.rootB.id]

/-- Delete the rows that meet a condition, except the evidence and the `cap` latest of the rest. -/
def prunePeerRows (store : ObservedRoots crypto) (meets : PeerRow crypto → Bool) (cap : Int) :
    ObservedRoots crypto :=
  if cap ≤ 0 then store
  else
    let candidates := store.peerObservedRoots.filter fun row =>
      meets row && row.root.id ∉ store.evidenceRootIds
    let latestFirst := Select.orderBy (fun row : PeerRow crypto => -row.receivedAt) candidates.reverse
    let dropped := latestFirst.drop cap.toNat
    { store with peerObservedRoots := store.peerObservedRoots.filter (· ∉ dropped) }

/-- `_prune_peer_roots`. -/
def prunePeerRoots (store : ObservedRoots crypto) (peerId logId : String) (cap : Int) :
    ObservedRoots crypto :=
  store.prunePeerRows (fun row => row.peerId = peerId && row.root.logId = logId) cap

/-- `_prune_peer_roots_for_log`. -/
def prunePeerRootsForLog (store : ObservedRoots crypto) (logId : String) (cap : Int) :
    ObservedRoots crypto :=
  store.prunePeerRows (fun row => row.root.logId = logId) cap

/-- `record_peer_root`: one row for each root and peer. -/
def recordPeerRoot (store : ObservedRoots crypto) (root : MirroredRoot crypto) (peerId : String)
    (receivedAt maxRootsForLog : Int) (maxTotalRootsForLog : Option Int) : ObservedRoots crypto :=
  let inserted :=
    if store.peerObservedRoots.any fun row => row.root.id = root.id ∧ row.peerId = peerId then store
    else { store with peerObservedRoots := store.peerObservedRoots ++ [⟨root, peerId, receivedAt⟩] }
  let pruned := inserted.prunePeerRoots peerId root.logId maxRootsForLog
  match maxTotalRootsForLog with
  | none => pruned
  | some cap => pruned.prunePeerRootsForLog root.logId cap

/-! ## Evidence -/

/-- `make_equivocation_proof`, as far as it raises. -/
def makeEquivocationProof (acceptLegacy : Bool) (rootA rootB : MirroredRoot crypto) :
    Except String Unit := do
  rootA.verifySignedRoot crypto acceptLegacy none
  rootB.verifySignedRoot crypto acceptLegacy none

/-- `save_equivocation_evidence`. -/
def saveEquivocationEvidence (store : ObservedRoots crypto) (acceptLegacy : Bool)
    (row : EvidenceRow crypto) : Except String (ObservedRoots crypto) := do
  makeEquivocationProof acceptLegacy row.rootA row.rootB
  pure (if row ∈ store.equivocationEvidence then store
    else { store with equivocationEvidence := store.equivocationEvidence ++ [row] })

/-! ## Key records -/

/-- `record_key_rotation`. -/
def recordKeyRotation (store : ObservedRoots crypto) (record : KeyRotation) :
    Except String (ObservedRoots crypto) := do
  record.verifyKeyRotation crypto none
  let recordHash ← record.keyRotationId crypto
  if store.operatorKeyRotations.any fun row => row.1 = recordHash then pure store
  else
    Check.require (∀ row ∈ store.operatorKeyRotations, row.2.logId = record.logId →
        row.2.effectiveFromTreeSize < record.effectiveFromTreeSize)
      "operator key rotation records must be strictly monotonic in effective_from_tree_size"
    pure { store with operatorKeyRotations := store.operatorKeyRotations ++ [(recordHash, record)] }

/-- `key_rotation_by_hash`. -/
def keyRotationByHash (store : ObservedRoots crypto) (recordHash : String) : Option KeyRotation :=
  (store.operatorKeyRotations.find? fun row => row.1 = recordHash).map Prod.snd

/-- `key_rotations_for_log`. -/
def keyRotationsForLog (store : ObservedRoots crypto) (logId : String) : List KeyRotation :=
  Select.orderBy KeyRotation.effectiveFromTreeSize
    ((store.operatorKeyRotations.map Prod.snd).filter fun record => record.logId = logId)

/-- `key_rotation_for_successor_log_id`. -/
def keyRotationForSuccessorLogId (store : ObservedRoots crypto) (newLogId : String) :
    Option KeyRotation :=
  Select.first (fun record : KeyRotation => -record.effectiveFromTreeSize)
    (fun record => record.newLogId = newLogId) (store.operatorKeyRotations.map Prod.snd)

/-- `record_key_revocation`. -/
def recordKeyRevocation (store : ObservedRoots crypto) (record : KeyRevocation) :
    Except String (ObservedRoots crypto) := do
  let rotation ← Check.ofOption (store.keyRotationByHash record.rotationRecordHash)
    "operator key revocation references an unknown rotation record"
  record.verifyKeyRevocation crypto rotation
  let recordHash ← record.keyRevocationId crypto
  pure (if store.operatorKeyRevocations.any fun row => row.1 = recordHash then store
    else { store with
      operatorKeyRevocations := store.operatorKeyRevocations ++ [(recordHash, record)] })

/-- `key_revocation_for_key`: the revocation of the latest time. -/
def keyRevocationForKey (store : ObservedRoots crypto) (logId publicKey : String) :
    Option KeyRevocation :=
  Select.first (fun record : KeyRevocation => -record.revocationTimestamp)
    (fun record => record.logId = logId && record.revokedPublicKey = publicKey)
    (store.operatorKeyRevocations.map Prod.snd)

/-! ## The status of an operator -/

/-- `status`. -/
def status (store : ObservedRoots crypto) (logId : String) : Option OperatorStatus :=
  store.operatorStatus.find? fun row => row.logId = logId

/-- An insertion that updates the row of the log where there is one. -/
def upsertStatus (store : ObservedRoots crypto) (new : OperatorStatus)
    (update : OperatorStatus → OperatorStatus) : ObservedRoots crypto :=
  match store.status new.logId with
  | none => { store with operatorStatus := store.operatorStatus ++ [new] }
  | some _ => { store with
      operatorStatus := store.operatorStatus.map fun row =>
        if row.logId = new.logId then { update row with logId := row.logId } else row }

/-- `mark_active`. -/
def markActive (store : ObservedRoots crypto) (logId operatorPublicKey : String) (checkedAt : Int) :
    ObservedRoots crypto :=
  store.upsertStatus ⟨logId, operatorPublicKey, .active, none, checkedAt, some checkedAt⟩ fun row =>
    { row with
      operatorPublicKey := operatorPublicKey
      status := .active
      reason := none
      updatedAt := checkedAt
      lastSuccessfulConsistencyAt := some checkedAt }

/-- `mark_unresponsive`, which leaves a blacklisted operator blacklisted. -/
def markUnresponsive (store : ObservedRoots crypto) (logId operatorPublicKey reason : String)
    (updatedAt : Int) : ObservedRoots crypto :=
  store.upsertStatus ⟨logId, operatorPublicKey, .unresponsive, some reason, updatedAt, none⟩ fun row =>
    { row with
      operatorPublicKey := operatorPublicKey
      status := if row.status = .blacklisted then .blacklisted else .unresponsive
      reason := some reason
      updatedAt := updatedAt }

/-- `mark_blacklisted`. -/
def markBlacklisted (store : ObservedRoots crypto) (logId operatorPublicKey reason : String)
    (updatedAt : Int) : ObservedRoots crypto :=
  store.upsertStatus ⟨logId, operatorPublicKey, .blacklisted, some reason, updatedAt, none⟩ fun row =>
    { row with
      operatorPublicKey := operatorPublicKey
      status := .blacklisted
      reason := some reason
      updatedAt := updatedAt }

/-- The log is locally blacklisted. -/
def Blacklisted (store : ObservedRoots crypto) (logId : String) : Prop :=
  ∃ row, store.status logId = some row ∧ row.status = .blacklisted

/-! ## What the writes leave -/

variable {store : ObservedRoots crypto} {logId : String}

/-- A root in a table of the store. -/
def Stores (store : ObservedRoots crypto) (root : MirroredRoot crypto) : Prop :=
  (∃ row ∈ store.observedRoots, row.root = root) ∨ ∃ row ∈ store.peerObservedRoots, row.root = root

theorem stores_of_mem_observedOf {root : MirroredRoot crypto} (h : root ∈ store.observedOf logId) :
    store.Stores root ∧ root.logId = logId := by
  obtain ⟨hmem, hlog⟩ := List.mem_filter.1 h
  exact ⟨Or.inl (List.mem_map.1 hmem), of_decide_eq_true hlog⟩

theorem mem_observedOf_of_latestRoot {root : MirroredRoot crypto} (h : store.latestRoot logId = some root) :
    root ∈ store.observedOf logId :=
  List.mem_reverse.1 (List.argmax_mem h)

theorem stores_of_mem_rootsForLog {root : MirroredRoot crypto} (h : root ∈ store.rootsForLog logId) :
    store.Stores root ∧ root.logId = logId := by
  obtain ⟨hmem, hlog⟩ := List.mem_filter.1 h
  refine ⟨?_, of_decide_eq_true hlog⟩
  rcases List.mem_append.1 hmem with hmem | hmem
  · exact Or.inl (List.mem_map.1 hmem)
  · exact Or.inr (List.mem_map.1 hmem)

@[simp] theorem status_recordRoot (root : MirroredRoot crypto) (sourceIdentity : String) :
    (store.recordRoot root sourceIdentity).status logId = store.status logId := by
  unfold recordRoot
  split <;> rfl

@[simp] theorem status_prunePeerRows (meets : PeerRow crypto → Bool) (cap : Int) :
    (store.prunePeerRows meets cap).status logId = store.status logId := by
  unfold prunePeerRows
  split <;> rfl

@[simp] theorem status_recordPeerRoot (root : MirroredRoot crypto) (peerId : String)
    (receivedAt cap : Int) (total : Option Int) :
    (store.recordPeerRoot root peerId receivedAt cap total).status logId = store.status logId := by
  unfold recordPeerRoot prunePeerRoots prunePeerRootsForLog
  cases total <;> simp only [status_prunePeerRows] <;> split <;> rfl

theorem status_saveEquivocationEvidence {store' : ObservedRoots crypto} {acceptLegacy : Bool}
    {row : EvidenceRow crypto} (h : store.saveEquivocationEvidence acceptLegacy row = .ok store') :
    store'.status logId = store.status logId := by
  obtain ⟨_, -, h⟩ := Check.bind_eq_ok.1 h
  rw [Check.pure_eq_ok] at h
  subst h
  split <;> rfl

theorem status_recordKeyRotation {store' : ObservedRoots crypto} {record : KeyRotation}
    (h : store.recordKeyRotation record = .ok store') : store'.status logId = store.status logId := by
  obtain ⟨_, -, h⟩ := Check.bind_eq_ok.1 h
  obtain ⟨_, -, h⟩ := Check.bind_eq_ok.1 h
  split at h
  · cases h
    rfl
  · obtain ⟨_, -, h⟩ := Check.bind_eq_ok.1 h
    cases h
    rfl

theorem status_recordKeyRevocation {store' : ObservedRoots crypto} {record : KeyRevocation}
    (h : store.recordKeyRevocation record = .ok store') :
    store'.status logId = store.status logId := by
  obtain ⟨_, -, h⟩ := Check.bind_eq_ok.1 h
  obtain ⟨_, -, h⟩ := Check.bind_eq_ok.1 h
  obtain ⟨_, -, h⟩ := Check.bind_eq_ok.1 h
  rw [Check.pure_eq_ok] at h
  subst h
  split <;> rfl

/-- A write to the status of a log leaves that of the others. -/
theorem status_upsertStatus_ne {new : OperatorStatus} {update : OperatorStatus → OperatorStatus}
    (h : new.logId ≠ logId) : (store.upsertStatus new update).status logId = store.status logId := by
  unfold upsertStatus status
  split
  · simp [h]
  · simp only [List.find?_map]
    have hsame : ((fun row : OperatorStatus => decide (row.logId = logId)) ∘ fun row =>
        if row.logId = new.logId then { update row with logId := row.logId } else row)
        = fun row => decide (row.logId = logId) := by
      funext row
      by_cases hrow : row.logId = new.logId <;> simp [hrow]
    rw [hsame]
    cases hfind : store.operatorStatus.find? fun row => decide (row.logId = logId) with
    | none => rfl
    | some row =>
      have hlog : decide (row.logId = logId) = true :=
        List.find?_some (p := fun row : OperatorStatus => decide (row.logId = logId)) hfind
      have hne : row.logId ≠ new.logId := fun heq => h (heq.symm.trans (of_decide_eq_true hlog))
      simp [hne]

/-- A write to the status of a log inserts a row or updates the one that is there. -/
theorem status_upsertStatus_self (store : ObservedRoots crypto) (new : OperatorStatus)
    (update : OperatorStatus → OperatorStatus) :
    ∃ row, (store.upsertStatus new update).status new.logId = some row ∧
      ((store.status new.logId = none ∧ row = new) ∨
        ∃ old, store.status new.logId = some old ∧ row = { update old with logId := old.logId }) := by
  cases hstatus : store.status new.logId with
  | none =>
    refine ⟨new, ?_, Or.inl ⟨rfl, rfl⟩⟩
    simp only [upsertStatus, hstatus]
    unfold status at hstatus ⊢
    simp [List.find?_append, hstatus]
  | some old =>
    refine ⟨_, ?_, Or.inr ⟨old, rfl, rfl⟩⟩
    simp only [upsertStatus, hstatus]
    have hfound := hstatus
    unfold status at hfound ⊢
    have hlog : decide (old.logId = new.logId) = true :=
      List.find?_some (p := fun row : OperatorStatus => decide (row.logId = new.logId)) hfound
    have hsame : ((fun row : OperatorStatus => decide (row.logId = new.logId)) ∘ fun row =>
        if row.logId = new.logId then { update row with logId := row.logId } else row)
        = fun row => decide (row.logId = new.logId) := by
      funext row
      by_cases hrow : row.logId = new.logId <;> simp [hrow]
    rw [List.find?_map, hsame, hfound, Option.map_some, if_pos (of_decide_eq_true hlog)]

theorem Blacklisted.of_status_eq {store' : ObservedRoots crypto}
    (h : store'.status logId = store.status logId) (hs : store.Blacklisted logId) :
    store'.Blacklisted logId := by
  obtain ⟨row, hrow, hstatus⟩ := hs
  exact ⟨row, h.trans hrow, hstatus⟩

/-- A blacklisted log stays so where the update leaves a blacklisted row blacklisted. -/
theorem Blacklisted.upsertStatus (h : store.Blacklisted logId) {new : OperatorStatus}
    {update : OperatorStatus → OperatorStatus}
    (hupdate : ∀ row : OperatorStatus, row.status = .blacklisted →
      (update row).status = .blacklisted) : (store.upsertStatus new update).Blacklisted logId := by
  by_cases hlog : new.logId = logId
  · subst hlog
    obtain ⟨old, hold, hstatus⟩ := h
    obtain ⟨row, hrow, ⟨hnone, -⟩ | ⟨old', hold', rfl⟩⟩ := status_upsertStatus_self store new update
    · exact absurd (hnone.symm.trans hold) (by simp)
    · cases hold.symm.trans hold'
      exact ⟨_, hrow, hupdate old hstatus⟩
  · exact h.of_status_eq (status_upsertStatus_ne hlog)

theorem Blacklisted.markUnresponsive (h : store.Blacklisted logId) (other key reason : String)
    (updatedAt : Int) : (store.markUnresponsive other key reason updatedAt).Blacklisted logId := by
  refine h.upsertStatus fun row hrow => ?_
  simp [hrow]

theorem Blacklisted.markBlacklisted (h : store.Blacklisted logId) (other key reason : String)
    (updatedAt : Int) : (store.markBlacklisted other key reason updatedAt).Blacklisted logId :=
  h.upsertStatus fun _ _ => rfl

theorem blacklisted_markBlacklisted (store : ObservedRoots crypto) (logId key reason : String)
    (updatedAt : Int) : (store.markBlacklisted logId key reason updatedAt).Blacklisted logId := by
  obtain ⟨row, hrow, ⟨-, rfl⟩ | ⟨old, -, rfl⟩⟩ := status_upsertStatus_self store
    ⟨logId, key, .blacklisted, some reason, updatedAt, none⟩ fun row => { row with
      operatorPublicKey := key
      status := .blacklisted
      reason := some reason
      updatedAt := updatedAt }
  · exact ⟨_, hrow, rfl⟩
  · exact ⟨_, hrow, rfl⟩

/-- `mark_active` of a log clears what was said about it. -/
theorem not_blacklisted_markActive (store : ObservedRoots crypto) (logId key : String)
    (checkedAt : Int) : ¬ (store.markActive logId key checkedAt).Blacklisted logId := by
  rintro ⟨row, hrow, hstatus⟩
  obtain ⟨row', hrow', hcases⟩ := status_upsertStatus_self store
    ⟨logId, key, .active, none, checkedAt, some checkedAt⟩ fun row => { row with
      operatorPublicKey := key
      status := .active
      reason := none
      updatedAt := checkedAt
      lastSuccessfulConsistencyAt := some checkedAt }
  have hsame : row = row' := Option.some.inj (hrow.symm.trans hrow')
  subst hsame
  rcases hcases with ⟨-, rfl⟩ | ⟨old, -, rfl⟩
  · cases hstatus
  · cases hstatus

theorem not_blacklisted_upsertStatus (h : ¬ store.Blacklisted logId) {new : OperatorStatus}
    {update : OperatorStatus → OperatorStatus} (hnew : new.logId = logId → new.status ≠ .blacklisted)
    (hupdate : new.logId = logId → ∀ row : OperatorStatus, row.status ≠ .blacklisted →
      (update row).status ≠ .blacklisted) : ¬ (store.upsertStatus new update).Blacklisted logId := by
  by_cases hlog : new.logId = logId
  · subst hlog
    rintro ⟨row, hrow, hstatus⟩
    obtain ⟨row', hrow', ⟨-, rfl⟩ | ⟨old, hold, rfl⟩⟩ := status_upsertStatus_self store new update
    · cases hrow.symm.trans hrow'
      exact hnew rfl hstatus
    · cases hrow.symm.trans hrow'
      exact hupdate rfl old (fun hblacklisted => h ⟨old, hold, hblacklisted⟩) hstatus
  · rintro ⟨row, hrow, hstatus⟩
    exact h ⟨row, (status_upsertStatus_ne hlog).symm.trans hrow, hstatus⟩

theorem not_blacklisted_markUnresponsive (h : ¬ store.Blacklisted logId) (other key reason : String)
    (updatedAt : Int) : ¬ (store.markUnresponsive other key reason updatedAt).Blacklisted logId := by
  refine not_blacklisted_upsertStatus h (fun _ hstatus => nomatch hstatus) fun _ row hrow => ?_
  simp [hrow]

theorem not_blacklisted_markBlacklisted (h : ¬ store.Blacklisted logId) {other : String}
    (hother : other ≠ logId) (key reason : String) (updatedAt : Int) :
    ¬ (store.markBlacklisted other key reason updatedAt).Blacklisted logId :=
  not_blacklisted_upsertStatus h (fun heq => absurd heq hother) fun heq => absurd heq hother

/-! ## What the writes store -/

variable {root : MirroredRoot crypto}

theorem stores_recordRoot {new : MirroredRoot crypto} {sourceIdentity : String}
    (h : (store.recordRoot new sourceIdentity).Stores root) : store.Stores root ∨ root = new := by
  unfold recordRoot at h
  split at h
  · exact Or.inl h
  · rcases h with ⟨row, hrow, rfl⟩ | h
    · rcases List.mem_append.1 hrow with hrow | hrow
      · exact Or.inl (Or.inl ⟨row, hrow, rfl⟩)
      · exact Or.inr (congrArg ObservedRow.root (List.mem_singleton.1 hrow))
    · exact Or.inl (Or.inr h)

theorem stores_prunePeerRows {meets : PeerRow crypto → Bool} {cap : Int}
    (h : (store.prunePeerRows meets cap).Stores root) : store.Stores root := by
  unfold prunePeerRows at h
  split at h
  · exact h
  · rcases h with h | ⟨row, hrow, hroot⟩
    · exact Or.inl h
    · exact Or.inr ⟨row, List.mem_of_mem_filter hrow, hroot⟩

theorem stores_recordPeerRoot {new : MirroredRoot crypto} {peerId : String} {receivedAt cap : Int}
    {total : Option Int} (h : (store.recordPeerRoot new peerId receivedAt cap total).Stores root) :
    store.Stores root ∨ root = new := by
  unfold recordPeerRoot prunePeerRoots prunePeerRootsForLog at h
  generalize hinserted : (if (store.peerObservedRoots.any fun row =>
    decide (row.root.id = new.id ∧ row.peerId = peerId)) = true then store
    else { store with peerObservedRoots := store.peerObservedRoots ++ [⟨new, peerId, receivedAt⟩] })
    = inserted at h
  have hstored : inserted.Stores root := by
    cases total with
    | none => exact stores_prunePeerRows h
    | some cap => exact stores_prunePeerRows (stores_prunePeerRows h)
  subst hinserted
  split at hstored
  · exact Or.inl hstored
  · rcases hstored with hstored | ⟨row, hrow, rfl⟩
    · exact Or.inl (Or.inl hstored)
    · rcases List.mem_append.1 hrow with hrow | hrow
      · exact Or.inl (Or.inr ⟨row, hrow, rfl⟩)
      · exact Or.inr (congrArg PeerRow.root (List.mem_singleton.1 hrow))

theorem operatorKeyRotations_recordPeerRoot (new : MirroredRoot crypto) (peerId : String)
    (receivedAt cap : Int) (total : Option Int) :
    (store.recordPeerRoot new peerId receivedAt cap total).operatorKeyRotations
      = store.operatorKeyRotations := by
  have hprune : ∀ (pruned : ObservedRoots crypto) (meets : PeerRow crypto → Bool) (cap : Int),
      (pruned.prunePeerRows meets cap).operatorKeyRotations = pruned.operatorKeyRotations := by
    intro pruned meets cap
    unfold prunePeerRows
    split <;> rfl
  unfold recordPeerRoot prunePeerRoots prunePeerRootsForLog
  cases total <;> simp only [hprune] <;> split <;> rfl

theorem stores_upsertStatus {new : OperatorStatus} {update : OperatorStatus → OperatorStatus} :
    (store.upsertStatus new update).Stores root ↔ store.Stores root := by
  unfold upsertStatus
  split <;> rfl

/-- Some stored root of the log has the highest size, and it is not later than the latest time. -/
theorem observedPosition_eq_some {size time : Int}
    (h : store.observedPosition logId = some (size, time)) :
    ∃ highest, store.Stores highest ∧ highest.logId = logId ∧ highest.treeSize = size ∧
      highest.timestamp ≤ time := by
  obtain ⟨size', hsize, h⟩ := Option.bind_eq_some_iff.1 h
  obtain ⟨time', htime, h⟩ := Option.bind_eq_some_iff.1 h
  cases h
  obtain ⟨hmem, -⟩ := List.max?_eq_some_iff.1 hsize
  obtain ⟨highest, hhighest, rfl⟩ := List.mem_map.1 hmem
  obtain ⟨hstores, hlog⟩ := stores_of_mem_observedOf hhighest
  exact ⟨highest, hstores, hlog, rfl,
    (List.max?_eq_some_iff.1 htime).2 _ (List.mem_map_of_mem hhighest)⟩

theorem findEquivocation_eq_some {previous : MirroredRoot crypto} {collisionType : String}
    (h : store.findEquivocation root = some (previous, collisionType)) :
    store.Stores previous ∧ previous.logId = root.logId ∧
      RootVerifier.equivocationCollisionType previous root = some collisionType := by
  obtain ⟨found, hfound, hcollision⟩ := List.exists_of_findSome?_eq_some h
  obtain ⟨type, htype, heq⟩ := Option.map_eq_some_iff.1 hcollision
  cases heq
  exact ⟨(stores_of_mem_rootsForLog hfound).1, (stores_of_mem_rootsForLog hfound).2, htype⟩

end ObservedRoots
