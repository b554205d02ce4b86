import InternationalDollar.OperatorCalls

set_option autoImplicit false

/-! # Runs of an operator

Every call of an operator keeps the map of its claims, if the claims that `publish_root` makes up for are all
recorded (`incremental_of_reaches`). Otherwise a claim stays without its map: `exists_unmapped` is a run in which an
entry has a date before the epoch, which no claim may have. -/

namespace OperatorLog

open Effect

variable {ProofBundle : Type} {log : OperatorLog ProofBundle} {claims : List SpendClaim}

/-- A call that is made at no earlier time than the last, finds all claims that it makes up for recorded, and
    announces no transfer whose hash has a body of another date. -/
def Records (log : OperatorLog ProofBundle) (s : State) (event : Event ProofBundle) : Prop :=
  s.clock ≤ event.clock ∧ event.clock ≤ maxProtocolTimestamp ∧
    match event with
    | .transfer call => ∀ transfer hash, log.transferToAppend call = .ok transfer →
        transfer.transferHash log.node.crypto call.clock = .ok hash →
        log.Announces s.tables.storage call transfer hash
    | .entry .. => True
    | .publish clock _ => log.Reconciles clock s.tables

theorem sound_empty : log.Sound 0 .empty [] where
  clock_le := by decide
  distinct := List.Pairwise.nil
  recorded := List.Forall₂.nil
  keyed := ⟨fun _ h => absurd h List.not_mem_nil, List.Pairwise.nil⟩
  reflects := MapTables.reflects_empty

/-- The tables of a state hold the map of the claims that they record. -/
def Mapped (log : OperatorLog ProofBundle) (s : State) : Prop :=
  ∃ claims, log.Sound s.clock s.tables claims

/-- **A call keeps the map of the claims.** -/
theorem Mapped.step {s s' : State} {event : Event ProofBundle} (h : log.Mapped s)
    (hrecords : log.Records s event) (hstep : log.step s event = some s') : log.Mapped s' := by
  obtain ⟨claims, hsound⟩ := h
  obtain ⟨hle, hmax, hevent⟩ := hrecords
  obtain rfl := Option.some.inj hstep
  cases event with
  | transfer call =>
    rcases hsound.appendTransferAnnouncement hle hmax hevent with
      ⟨hsound, -, -⟩ | ⟨_, _, _, _, _, -, -, -, claims', hsound, -⟩
    · exact ⟨claims, hsound⟩
    · exact ⟨claims', hsound⟩
  | entry now entryHash submittedAt transfer entryKind entry fault =>
    exact ⟨claims, hsound.mono (log.server.grown_appendEntryHash _ _ _ _ _ _ _) hle hmax⟩
  | publish now timestamp =>
    have hnow : log.Sound now s.tables claims := hsound.mono (Storage.Grown.refl _ _) hle hmax
    obtain ⟨claims', u, hsound, -, -, -, hstorage, hmap, -⟩ :=
      hnow.publishRoot (fun _ => True) hevent (fun _ _ => trivial) timestamp
    exact ⟨claims', hsound.congr hstorage hmap⟩

/-- **The stored spend map is that of the recorded claims**, in every run of which each reconciliation records all
    claims. -/
theorem incremental_of_reaches {s : State} (h : Runs.Reaches log.step log.Records initial s) {now : Int}
    (hle : s.clock ≤ now) (hmax : now ≤ maxProtocolTimestamp) : log.Incremental now s.tables := by
  have hmapped : log.Mapped s :=
    h.invariant (fun _ _ _ hs hrecords hstep => hs.step hrecords hstep) ⟨[], sound_empty⟩
  obtain ⟨claims, hsound⟩ := hmapped
  exact hsound.incremental hle hmax

/-! ## A claim without its map -/

section Unmapped

variable {now : Int} {s t : OperatorTables}

/-- A claim that was accepted before the epoch is not normal. -/
theorem normalizeSpendClaim_of_neg (crypto : Crypto) (now : Int) {claim : SpendClaim} (h : claim.acceptedAt < 0) :
    ∃ e, SpendClaim.normalizeSpendClaim crypto now claim = .error e := by
  cases hnormal : SpendClaim.normalizeSpendClaim crypto now claim with
  | error e => exact ⟨e, rfl⟩
  | ok normal =>
    obtain ⟨hwell, -⟩ := SpendClaim.normalizeSpendClaim_eq_ok.1 hnormal
    have hnonneg := hwell.acceptedAt_nonneg
    omega

/-- The record of such a claim raises, and leaves its row behind. -/
theorem recordSpendClaim_of_neg (log : OperatorLog ProofBundle) (now : Int) (transfer : Transfer)
    {key hash : String} (leafIndex : Int) {firstSeen : Int}
    (hindexed : ∀ row ∈ s.storage.spendClaims, row.transferLeafIndex.isSome = true)
    (hnone : s.storage.findClaim log.backend key hash = none) (hneg : firstSeen < 0) :
    ∃ e row, row.firstSeen = firstSeen ∧ row.transferLeafIndex = some leafIndex ∧
      log.recordSpendClaim now transfer key hash leafIndex firstSeen s = (.error e,
        { s with storage := { s.storage with spendClaims := s.storage.spendClaims ++ [row] } }) := by
  let row : SpendClaimRow := ⟨key, transfer.tokenId, transfer.previousHash, transfer.sequence,
    transfer.senderAddress, transfer.senderPublicKey, hash, some leafIndex, firstSeen⟩
  rcases Storage.insertClaim_cases log.backend hindexed row rfl leafIndex with
    ⟨old, hold, -⟩ | ⟨-, hadded, hnew⟩
  · have hsome := hold.symm.trans hnone
    cases hsome
  · have hstorage : (s.storage.insertClaim log.backend row).indexClaim log.backend key hash leafIndex
      = { s.storage with spendClaims := s.storage.spendClaims ++ [row] } := hadded
    have hfound : Storage.findClaim log.backend key hash
        { s.storage with spendClaims := s.storage.spendClaims ++ [row] } = some row := hnew
    obtain ⟨e, he⟩ : ∃ e, SpendClaim.normalizeSpendClaim log.node.crypto now (log.claimOf row leafIndex)
        = .error e := normalizeSpendClaim_of_neg _ now hneg
    refine ⟨e, row, rfl, rfl, ?_⟩
    rw [recordSpendClaim, write_bind, write_bind, read_bind]
    dsimp only
    rw [hstorage, hfound]
    have hpersisted : Check.ofOption (some row) "spend claim was not recorded" = .ok row := rfl
    have hindex : Check.ofOption row.transferLeafIndex "int() argument must be a string or a number"
        = .ok leafIndex := rfl
    rw [hpersisted, lift_ok_bind, hindex, lift_ok_bind]
    have hrecord : ∀ u : OperatorTables, log.recordCurrentSpendMapClaim now row leafIndex u = (.error e, u) := by
      intro u
      have hcurrent : log.currentClaimForMap now row leafIndex u = (.error e, u) := by
        rw [currentClaimForMap, read_bind, normalizeClaimWithStoredTransfer, he, lift_error_bind]
      rw [recordCurrentSpendMapClaim, read_bind, storeCurrentSpendMapClaim,
        bind_of_error (bind_of_error hcurrent)]
    exact bind_of_error (hrecord _)

/-- Rows that `_spend_claim_records` returns were first seen at the epoch or later. -/
theorem nonneg_of_collectRecords {items : List (SpendClaimRow × Int)} {records : List SpendClaim}
    (h : log.collectRecords now items s = (.ok records, t)) : ∀ item ∈ items, 0 ≤ item.1.firstSeen := by
  induction items generalizing s records t with
  | nil => exact fun _ hitem => absurd hitem List.not_mem_nil
  | cons item rest ih =>
    obtain ⟨row, leafIndex⟩ := item
    rw [collectRecords, read_bind] at h
    obtain ⟨claim, u, hclaim, h⟩ := bind_eq_ok.1 h
    obtain ⟨claims, v, hrest, -⟩ := bind_eq_ok.1 h
    refine List.forall_mem_cons.2 ⟨?_, ih hrest⟩
    by_contra hneg
    obtain ⟨e, he⟩ : ∃ e, SpendClaim.normalizeSpendClaim log.node.crypto now (log.claimOf row leafIndex)
        = .error e := normalizeSpendClaim_of_neg _ now (Int.not_le.1 hneg)
    rw [normalizeClaimWithStoredTransfer, he, lift_error_bind] at hclaim
    cases hclaim

/-- With a row that was first seen before the epoch, `_spend_claim_records` raises. -/
theorem spendClaimRecords_of_neg {row : SpendClaimRow} {leafIndex : Int} (hrow : row ∈ s.storage.spendClaims)
    (hindex : row.transferLeafIndex = some leafIndex) (hneg : row.firstSeen < 0) (records : List SpendClaim) :
    (log.spendClaimRecords now none s).1 ≠ .ok records := by
  intro h
  have hitem : (row, leafIndex) ∈ indexedRows s.storage none := by
    refine Select.mem_orderBy.2 (List.mem_filter.2 ⟨List.mem_filterMap.2 ⟨row, hrow, ?_⟩, ?_⟩)
    · rw [hindex]
      rfl
    · simp
  have hnonneg := nonneg_of_collectRecords (Prod.ext h rfl) (row, leafIndex) hitem
  exact absurd hneg (Int.not_lt.2 hnonneg)

/-- **What `publish_root` does with an entry from before the epoch**: it commits the row of its claim and raises. -/
theorem publishRoot_of_neg {e : LogEntry} {rest : List LogEntry} {transfer : Transfer} {hash key : String}
    (hentries : log.unreconciled s = e :: rest)
    (hvalid : log.validatedV3TransferForReconciliation now e = .ok (transfer, hash))
    (hkey : transfer.spendKeyForTransfer log.node.crypto = .ok key)
    (hindexed : ∀ row ∈ s.storage.spendClaims, row.transferLeafIndex.isSome = true)
    (hnone : s.storage.findClaim log.backend key hash = none) (hneg : e.submittedAt < 0) (timestamp : Option Int) :
    ∃ row, row.firstSeen = e.submittedAt ∧ row.transferLeafIndex = some ((e.leafIndex : Int) - 1) ∧
      (log.publishRoot now timestamp s).2
        = { s with storage := { s.storage with spendClaims := s.storage.spendClaims ++ [row] } } := by
  obtain ⟨error, row, hfirst, hindex, hrecord⟩ :=
    log.recordSpendClaim_of_neg now transfer ((e.leafIndex : Int) - 1) hindexed hnone hneg
  refine ⟨row, hfirst, hindex, ?_⟩
  have hround : log.reconcileEntry now e s = (.error error,
      { s with storage := { s.storage with spendClaims := s.storage.spendClaims ++ [row] } }) := by
    rw [reconcileEntry, hvalid]
    simp only [hkey, lift_ok_bind]
    exact hrecord
  have hreconcile : log.reconcileTransferSpendClaims now s = (.error error,
      { s with storage := { s.storage with spendClaims := s.storage.spendClaims ++ [row] } }) := by
    rw [reconcileTransferSpendClaims, read_bind, hentries]
    exact bind_of_error hround
  have hattempt : attempt (log.reconcileTransferSpendClaims now) s = (.ok (.error error),
      { s with storage := { s.storage with spendClaims := s.storage.spendClaims ++ [row] } }) := by
    rw [attempt, hreconcile]
  have hprepare : atomically (log.prepareRoot now) s = (.ok (some ("spend-map reconciliation failed: " ++ error)),
      { s with storage := { s.storage with spendClaims := s.storage.spendClaims ++ [row] } }) := by
    rw [atomically, prepareRoot, bind_of_ok hattempt]
    rfl
  rw [publishRoot, bind_of_ok hprepare]
  rfl

end Unmapped

/-- **The first root of a log**: the map of no claims is stored before it is signed. -/
theorem publishRoot_empty (log : OperatorLog ProofBundle) {now : Int} (hnow : 0 ≤ now)
    (hmax : now ≤ maxProtocolTimestamp) (timestamp : Option Int) :
    ∃ map, SpendMap.spendMapLevels log.node.crypto now [] = .ok map ∧
      map.root log.node.crypto = SpendMap.spendMapEmptyRoot log.node.crypto ∧ map.totalClaims = 0 ∧
      (log.publishRoot now timestamp .empty).2.storage = .empty ∧
      (log.publishRoot now timestamp .empty).2.map = MapTables.rebuilt log.node.crypto [] map ∧
      (log.publishRoot now timestamp .empty).2.quarantined = [] := by
  obtain ⟨map, hlevels, htotal, hnodes⟩ := (@sound_empty _ log).exists_levels hnow hmax (List.Perm.refl [])
  have hroot : map.root log.node.crypto = SpendMap.spendMapEmptyRoot log.node.crypto := by
    rw [SpendMap.root, ← hnodes _ le_rfl]
    rfl
  have hensure : atomically (log.ensureCurrentSpendMap now) .empty
      = (.ok (map.root log.node.crypto, map.totalClaims),
        { OperatorTables.empty with map := MapTables.rebuilt log.node.crypto [] map }) := by
    have hneeds : OperatorTables.empty.map.needsRebuild log.node.crypto = true := rfl
    have hrecords : log.spendClaimRecords now none .empty = (.ok [], .empty) := rfl
    have hrebuild := rebuildCurrentSpendMap_eq hrecords (fun _ h => absurd h List.not_mem_nil)
      fun _ h => absurd h List.not_mem_nil
    rw [hlevels] at hrebuild
    rw [atomically, ensureCurrentSpendMap, read_bind, hneeds, if_pos rfl, hrebuild]
  have hprepare : atomically (log.prepareRoot now) .empty = (.ok none, .empty) := rfl
  have hrun : log.publishRoot now timestamp .empty = _ := bind_of_ok hprepare
  simp only [read_bind] at hrun
  rw [bind_of_ok hensure] at hrun
  obtain ⟨result, w, hsign, hstorage, hmap, hquarantined, -⟩ := log.signRoot_cases
    (s := { OperatorTables.empty with map := MapTables.rebuilt log.node.crypto [] map }) _
  rw [show log.publishRoot now timestamp .empty = (result, w) from hrun.trans hsign]
  exact ⟨map, hlevels, hroot, htotal, hstorage, hmap, hquarantined⟩

/-- The sample log as an operator. -/
def sampleOperator : OperatorLog CheckpointCore :=
  { TransparencyLog.sampleLog with privateKey := "", treeState := fun _ => "" }

/-- The entry of the sample transfer, with a date before the epoch. -/
def sampleLogEntry : LogEntry :=
  ⟨"4bcd5be8b9d382c7dfca3093a7ae43036af3796b95dde555b4dcd90aa6c73be0", 1, -1, "transfer", none,
    some TransparencyLog.sampleBranch.toJson.bytes⟩

theorem canonicalBytes_sampleBranch :
    canonicalBytes TransparencyLog.sampleBranch.toJson = .ok TransparencyLog.sampleBranch.toJson.bytes := by
  refine canonicalBytes_eq_ok.2 ⟨?_, rfl⟩
  decide +kernel

/-- The entry is appended. -/
theorem appendEntryHash_sample {s : OperatorTables} (hs : s.storage = .empty) : ∃ leaf,
    (sampleOperator.appendEntryHash sampleLogEntry.entryHash (-1) (some TransparencyLog.sampleBranch.toJson)
      "transfer" none none s).2 = { s with storage := ⟨[leaf], 1, [sampleLogEntry], []⟩ } := by
  have hall := TransparencyLog.sampleTransfers_evaluated
  simp only [List.forall_mem_cons] at hall
  obtain ⟨⟨hhash, -, -⟩, -⟩ := hall
  obtain ⟨bytes, hlength, hhex⟩ := isDigest_transferHash hhash
  have hdecode : AppendServer.decodeEntryHash (Text.lower sampleLogEntry.entryHash) = .ok bytes := by
    rw [show sampleLogEntry.entryHash = Text.hex bytes from hhex, Text.lower_hex, AppendServer.decodeEntryHash,
      Text.fromhex_hex]
    exact Check.bind_eq_ok.2 ⟨bytes, rfl, Check.bind_eq_ok.2 ⟨(), Check.require_of hlength _, rfl⟩⟩
  have hlower : Text.lower sampleLogEntry.entryHash = sampleLogEntry.entryHash := by
    rw [show sampleLogEntry.entryHash = Text.hex bytes from hhex, Text.lower_hex]
  have hprepare : AppendServer.prepareEntry sampleLogEntry.entryHash (some TransparencyLog.sampleBranch.toJson) none
      = .ok (bytes, some TransparencyLog.sampleBranch.toJson.bytes, none) := by
    have hjson : AppendServer.optionalJson (some TransparencyLog.sampleBranch.toJson)
        = .ok (some TransparencyLog.sampleBranch.toJson.bytes) :=
      Check.bind_eq_ok.2 ⟨_, canonicalBytes_sampleBranch, rfl⟩
    rw [AppendServer.prepareEntry, hdecode, hjson]
    rfl
  refine ⟨⟨1, bytes, bytes⟩, ?_⟩
  rw [appendEntryHash, hs, AppendServer.appendEntryHash, hprepare, hlower]
  rfl

/-- A root is published, the entry is logged, and another root is asked for. -/
def sampleEvents : List (Event CheckpointCore) :=
  [.publish 5000 none, .entry 5000 sampleLogEntry.entryHash (-1) (some TransparencyLog.sampleBranch.toJson)
    "transfer" none none, .publish 5000 none]

/-- The entry of the sample transfer is found valid when its claim is made up for. -/
theorem validated_sampleLogEntry : ∃ key,
    sampleOperator.validatedV3TransferForReconciliation 5000 sampleLogEntry
      = .ok (TransparencyLog.sampleBranch, sampleLogEntry.entryHash) ∧
    TransparencyLog.sampleBranch.spendKeyForTransfer sampleCrypto = .ok key := by
  have hall := TransparencyLog.sampleTransfers_evaluated
  simp only [List.forall_mem_cons] at hall
  obtain ⟨⟨hhash, hkey, hsigned⟩, -⟩ := hall
  obtain ⟨⟨⟩, hvalid⟩ := Check.returns_iff.1 hsigned
  have hshape := (Transfer.hashed_of_transferHash hhash).shape
  have hmetadata : TransparencyLog.sampleBranch.metadata.Sorted := ⟨List.Pairwise.nil, trivial⟩
  refine ⟨_, Check.bind_eq_ok.2 ⟨_, rfl, Check.bind_eq_ok.2 ⟨_,
    readBody_canonicalBytes hmetadata canonicalBytes_sampleBranch, ?_⟩⟩, hkey⟩
  exact Check.bind_eq_ok.2 ⟨(), Transfer.validateTransferShape_eq_ok.2 hshape,
    Check.bind_eq_ok.2 ⟨(), hvalid, Check.bind_eq_ok.2 ⟨_, hhash,
      Check.bind_eq_ok.2 ⟨(), Check.require_of rfl _, rfl⟩⟩⟩⟩

theorem unreconciled_singleton {s : OperatorTables} {e : LogEntry} (hentries : s.storage.logEntries = [e])
    (hclaims : s.storage.spendClaims = []) (hquarantined : s.quarantined = [])
    (hbody : e.transferJson.isSome = true) : log.unreconciled s = [e] := by
  rw [unreconciled, hentries, hclaims, hquarantined]
  simp [hbody, Select.orderBy]

theorem exec_publish {s : State} {now : Int} {timestamp : Option Int} {events : List (Event ProofBundle)}
    {r : Option State}
    (h : Runs.exec log.step ⟨(log.publishRoot now timestamp s.tables).2, now⟩ events = r) :
    Runs.exec log.step s (.publish now timestamp :: events) = r :=
  h

/-- After a first root the entry is logged, and another root is asked for. -/
theorem exists_unmapped_of_published {published : OperatorTables} {map : SpendMap}
    (hlevels : SpendMap.spendMapLevels sampleOperator.node.crypto 5000 [] = .ok map)
    (hstorage : published.storage = .empty) 
    (hmap : published.map = MapTables.rebuilt sampleOperator.node.crypto [] map)
    (hquarantined : published.quarantined = []) :
    ∃ u, Runs.exec sampleOperator.step ⟨published, 5000⟩ sampleEvents.tail = some ⟨u, 5000⟩ ∧
      (∀ now records, (sampleOperator.spendClaimRecords now none u).1 ≠ .ok records) ∧
      ∀ now, (sampleOperator.ensureCurrentSpendMap now u).1
        = .ok (map.root sampleOperator.node.crypto, map.totalClaims) := by
  obtain ⟨leaf, hentry⟩ := appendEntryHash_sample hstorage
  obtain ⟨key, hvalid, hkey⟩ := validated_sampleLogEntry
  obtain ⟨row, hfirst, hindex, hrefused⟩ := sampleOperator.publishRoot_of_neg
    (s := { published with storage := ⟨[leaf], 1, [sampleLogEntry], []⟩ })
    (unreconciled_singleton rfl rfl hquarantined rfl) hvalid hkey (fun _ h => absurd h List.not_mem_nil) rfl
    (by decide) none
  refine ⟨{ published with storage := ⟨[leaf], 1, [sampleLogEntry], [row]⟩ }, ?_, ?_, ?_⟩
  · have hlogged : sampleOperator.step ⟨published, 5000⟩ (.entry 5000 sampleLogEntry.entryHash (-1)
        (some TransparencyLog.sampleBranch.toJson) "transfer" none none)
        = some ⟨{ published with storage := ⟨[leaf], 1, [sampleLogEntry], []⟩ }, 5000⟩ := by
      rw [OperatorLog.step, after, hentry]
      rfl
    have hasked : sampleOperator.step ⟨{ published with storage := ⟨[leaf], 1, [sampleLogEntry], []⟩ }, 5000⟩
        (.publish 5000 none)
        = some ⟨{ published with storage := ⟨[leaf], 1, [sampleLogEntry], [row]⟩ }, 5000⟩ := by
      rw [OperatorLog.step, after, hrefused]
      rfl
    exact Option.bind_eq_some_iff.2 ⟨_, hlogged, Option.bind_eq_some_iff.2 ⟨_, hasked, rfl⟩⟩
  · intro now records
    exact spendClaimRecords_of_neg (List.mem_singleton_self row) hindex (by rw [hfirst]; decide) records
  · intro now
    have hensure := sampleOperator.ensureCurrentSpendMap_rebuilt
      (s := { published with storage := ⟨[leaf], 1, [sampleLogEntry], [row]⟩ }) hmap
      ⟨fun _ h => absurd h List.not_mem_nil, List.Pairwise.nil⟩ (fun _ h => absurd h List.not_mem_nil) hlevels now
    rw [hensure]

/-- **A claim without its map**: from then on `_spend_claim_records` raises, while `_ensure_current_spend_map`
    still returns the former root. -/
theorem exists_unmapped : ∃ u, Runs.exec sampleOperator.step initial sampleEvents = some ⟨u, 5000⟩ ∧
    (∀ now records, (sampleOperator.spendClaimRecords now none u).1 ≠ .ok records) ∧
    ∀ now, (sampleOperator.ensureCurrentSpendMap now u).1
      = .ok (SpendMap.spendMapEmptyRoot sampleOperator.node.crypto, 0) := by
  obtain ⟨map, hlevels, hroot, htotal, hstorage, hmap, hquarantined⟩ :=
    sampleOperator.publishRoot_empty (show (0 : Int) ≤ 5000 by decide) (by decide) none
  obtain ⟨u, hrun, hrecords, hensure⟩ := exists_unmapped_of_published hlevels hstorage hmap hquarantined
  refine ⟨u, exec_publish hrun, hrecords, fun now => ?_⟩
  rw [hensure, hroot, htotal, Nat.cast_zero]

/-- An operator's stored spend map is not always that of its claims. -/
theorem not_incremental : ¬ ∀ (log : OperatorLog CheckpointCore) (events : List (Event CheckpointCore)) (s : State),
    Runs.exec log.step initial events = some s → log.Incremental s.clock s.tables := by
  intro hall
  obtain ⟨u, hrun, hrecords, -⟩ := exists_unmapped
  obtain ⟨records, map, hok, -⟩ := hall sampleOperator sampleEvents ⟨u, 5000⟩ hrun
  exact hrecords 5000 records hok

/-- The sample transfer is announced to a log without entries. -/
theorem incremental_of_reaches_sample : ∃ s,
    sampleOperator.step initial (.transfer (TransparencyLog.sampleCall [TransparencyLog.sampleBranch])) = some s ∧
      sampleOperator.Incremental 5000 s.tables := by
  have hrecords : sampleOperator.Records initial
      (.transfer (TransparencyLog.sampleCall [TransparencyLog.sampleBranch])) := by
    refine ⟨show (0 : Int) ≤ 5000 by decide, show (5000 : Int) ≤ maxProtocolTimestamp by decide, ?_⟩
    intro transfer hash htransfer _
    obtain rfl : TransparencyLog.sampleBranch = transfer :=
      Option.some.inj (TransparencyLog.getLast?_of_transferToAppend htransfer)
    refine ⟨⟨List.Pairwise.nil, trivial⟩, fun e he => ?_⟩
    cases he
  exact ⟨_, rfl, incremental_of_reaches (Runs.Reaches.refl.next hrecords rfl) le_rfl (by decide)⟩

end OperatorLog
