import InternationalDollar.CachedBill
import InternationalDollar.CheckpointIndex
import InternationalDollar.LocalStore

set_option autoImplicit false

/-! # Rejected evidence (`store.store_bill_v3`, `ingest_wallet_bill_sync_record`)

A bill comes with the evidence behind it: archive segments, a proof bundle, a segment within the bundle.
Each of them is stored in a transaction of its own, as soon as it is verified itself. What is stored
before the last check stays when that check fails. `noTrace_iff_firstRejected` says when nothing stays:
exactly where the first object that the call stores on its way is rejected, or there is none. -/

/-- A row of `bills_v3`, without its key. -/
structure StoredBillRow where
  tokenId : String
  displayId : String
  ownerAddress : String
  sequence : Int
  checkpointHash : String
  proofBundleHash : String
  billBlob : Bytes
  firstSeen : Int
  updatedAt : Int
  status : BillStatus
deriving DecidableEq

/-- A row of `bill_tips_v3`, without its key. -/
structure BillTipRow where
  tokenId : String
  spendKey : Option String
  tipTransferHash : Option String
  previousHash : Option String
  sequence : Int
  senderAddress : Option String
  ownerAddress : String
  status : BillStatus
  updatedAt : Int
deriving DecidableEq

/-- The tables of bills and of evidence. -/
structure BillTables where
  evidence : EvidenceTables
  billsV3 : List (String × StoredBillRow)
  billTipsV3 : List (String × BillTipRow)
deriving DecidableEq

/-- A bill as a caller hands it over: its bytes, or an object. An object that is not a bill fails when it
    is verified. -/
inductive BillInput where
  | blob (data : Bytes)
  | object (bill : Except String BillV3)

/-- A `ind.wallet_bill_sync_record.v3`. The bill is missing where the record has none that is an object;
    segments and bundles that cannot be read carry their error. -/
structure WalletSyncRecord (Proofs : Type) where
  type : Option String
  bill : Option (Except String BillV3)
  archiveSegments : List (Except String ArchiveSegment)
  proofBundle : Option (Except String (ProofBundle Proofs))
  status : String

/-- The type of wallet sync records. -/
def walletBillSyncRecordType : String := "ind.wallet_bill_sync_record.v3"

/-- `bill_hash`. -/
def BillV3.billHash (node : Node) (bill : BillV3) (clock : Int) : Except String String := do
  let encoded ← bill.encodeBill node clock
  let digest ← BinaryV3.objectHash node.crypto billType encoded
  pure (Text.hex digest)

/-- The bill before it is verified. -/
def BillInput.decode (inflate : Bytes → Option Bytes) : BillInput → Except String (Except String BillV3)
  | .blob data => do
      let bill ← BillV3.decodeBill inflate data
      pure (.ok bill)
  | .object bill => .ok bill

/-- The status under which the bill of a sync record is stored. -/
def syncRecordStatus (status : String) : BillStatus :=
  if status = "settled" then .settled
  else if status = "pending" then .pending
  else .verified

namespace EvidenceStore

variable {Proofs : Type}

/-- A computation on the tables of evidence. -/
def onEvidence {α : Type} (x : Effect EvidenceTables String α) : Effect BillTables String α :=
  Effect.focus BillTables.evidence (fun evidence tables => { tables with evidence := evidence }) x

/-- `verify_bill`, with the resolvers of the store. -/
def verifyBillV3 (store : EvidenceStore Proofs) (policy : BundlePolicy Proofs)
    (proofBundle : Option (ProofBundle Proofs)) (bill : BillV3) (now : Int) (tables : EvidenceTables) :
    Except String TokenState :=
  bill.verifyBill store.node
    ⟨ProofBundle.verifyProofBundleRef store.node.crypto store.codec, fun bundle checkpointHash networkId =>
      ProofBundle.verifyProofBundle (store.verifier policy tables now) store.recursionLimit bundle
        (some checkpointHash) (some networkId) []⟩
    ⟨proofBundle, some (store.getProofBundleV3 tables)⟩ (some defaultNetworkId) now now

/-- `_bill_tip_record_v3`. -/
def billTipRecordV3 (store : EvidenceStore Proofs) (bill : BillV3) (state : TokenState)
    (status : BillStatus) (now : Int) : Except String BillTipRow :=
  match bill.recentTransfers.getLast? with
  | none => .ok
      { tokenId := state.tokenId, spendKey := none, tipTransferHash := none, previousHash := none,
        sequence := state.sequence, senderAddress := none, ownerAddress := state.ownerAddress,
        status := status, updatedAt := now }
  | some tip => do
      let spendKey ← tip.spendKeyForTransfer store.node.crypto
      let tipTransferHash ← tip.transferHash store.node.crypto now
      pure
        { tokenId := state.tokenId, spendKey := some spendKey, tipTransferHash := some tipTransferHash,
          previousHash := some tip.previousHash, sequence := state.sequence,
          senderAddress := some tip.senderAddress, ownerAddress := state.ownerAddress,
          status := status, updatedAt := now }

/-- `_store_bill_v3_conn` with `_store_bill_tip_v3_conn`, once all values are computed. -/
def writeBill (bill : BillV3) (state : TokenState) (billHash : String) (blob : Bytes)
    (storedStatus : BillStatus) (tip : BillTipRow) (now : Int) (tables : BillTables) : BillTables :=
  let existing := AssocList.get? billHash tables.billsV3
  { tables with
    billsV3 := AssocList.put billHash
      ⟨state.tokenId, state.displayId, state.ownerAddress, state.sequence,
        bill.checkpointCore.checkpointHash, bill.proofBundleRef.proofBundleHash, blob,
        (existing.map fun row => row.firstSeen).getD now, now, storedStatus⟩ tables.billsV3
    billTipsV3 := AssocList.put billHash tip tables.billTipsV3 }

/-- The part of `store_bill_v3` after the bundle: the bill is verified and stored, and a settled or
    verified bill is compacted. No exception leaves the compaction. -/
def storeVerifiedBill (store : EvidenceStore Proofs) (policy : BundlePolicy Proofs)
    (compact : BillTables → BillTables) (bill : Except String BillV3)
    (proofBundle : Option (ProofBundle Proofs)) (status : BillStatus) (now : Int) :
    Effect BillTables String String := do
  let bill ← Effect.lift bill
  let verified ← Effect.read fun tables =>
    store.verifyBillV3 policy proofBundle bill now tables.evidence
  let state ← Effect.lift verified
  let billHash ← Effect.lift (bill.billHash store.node now)
  let existing ← Effect.read fun tables : BillTables => AssocList.get? billHash tables.billsV3
  let storedStatus := strongerBillV3Status (existing.map fun row => row.status) status
  let blob ← Effect.lift (bill.encodeBill store.node now)
  let tip ← Effect.lift (store.billTipRecordV3 bill state storedStatus now)
  Effect.write fun tables =>
    let written := writeBill bill state billHash blob storedStatus tip now tables
    if status = .settled ∨ status = .verified then compact written else written
  pure billHash

/-- `store_archive_segment_v3` of a segment that may fail to be read. -/
def storeGivenSegment (store : EvidenceStore Proofs) (now : Int) (given : Except String ArchiveSegment) :
    Effect EvidenceTables String Unit := do
  let segment ← Effect.lift given
  let _ ← store.storeArchiveSegmentV3 segment now
  pure ()

/-- A bundle that may be missing, and may fail to be read. -/
def readGiven {α : Type} : Option (Except String α) → Except String (Option α)
  | none => .ok none
  | some (.ok a) => .ok (some a)
  | some (.error e) => .error e

/-- A bundle that is given with a bill is stored first. -/
def storeGivenBundle (store : EvidenceStore Proofs) (policy : BundlePolicy Proofs)
    (given : Option (ProofBundle Proofs)) (now : Int) : Effect EvidenceTables String Unit :=
  match given with
  | none => pure ()
  | some bundle => do
      let _ ← store.storeProofBundleV3 policy bundle now
      pure ()

/-- `store_bill_v3`. -/
def storeBillV3 (store : EvidenceStore Proofs) (policy : BundlePolicy Proofs)
    (compact : BillTables → BillTables) (input : BillInput)
    (proofBundle : Option (Except String (ProofBundle Proofs))) (status : BillStatus) (now : Int) :
    Effect BillTables String String := do
  let bill ← Effect.lift (input.decode store.inflate)
  let given ← Effect.lift (readGiven proofBundle)
  onEvidence (store.storeGivenBundle policy given now)
  store.storeVerifiedBill policy compact bill given status now

/-- `ingest_wallet_bill_sync_record`. -/
def ingestWalletBillSyncRecord (store : EvidenceStore Proofs) (policy : BundlePolicy Proofs)
    (compact : BillTables → BillTables) (record : Except String (WalletSyncRecord Proofs)) (now : Int) :
    Effect BillTables String String := do
  let record ← Effect.lift record
  Effect.lift (Check.require (∀ type ∈ record.type, type = walletBillSyncRecordType)
    "unsupported wallet bill sync record")
  let bill ← Effect.lift (Check.ofOption record.bill "wallet bill sync record is missing BillV3")
  onEvidence (Effect.forEach (store.storeGivenSegment now) record.archiveSegments)
  store.storeBillV3 policy compact (.object bill) record.proofBundle (syncRecordStatus record.status) now

/-! ## The first object that a call stores -/

/-- The store accepts a segment. -/
def AcceptsSegment (store : EvidenceStore Proofs) (tables : EvidenceTables) (segment : ArchiveSegment)
    (now : Int) : Prop :=
  ∃ core, store.verifySegment tables segment now = .ok core

/-- The store accepts a bundle, once its segment is stored. -/
def AcceptsBundle (store : EvidenceStore Proofs) (policy : BundlePolicy Proofs) (tables : EvidenceTables)
    (bundle : ProofBundle Proofs) (now : Int) : Prop :=
  (∃ core, ProofBundle.verifyProofBundle (store.verifier policy tables now) store.recursionLimit bundle
      none (some defaultNetworkId) [] = .ok core) ∧
    (∃ id, bundle.signedRoot.signedRootId store.node.crypto = .ok id) ∧
    ∃ blob, store.codec.encodeProofBundle bundle = .ok blob

/-- The segment that is embedded in the bundle is accepted. -/
def AcceptsEmbedded (store : EvidenceStore Proofs) (tables : EvidenceTables) (bundle : ProofBundle Proofs)
    (now : Int) : Prop :=
  ∃ segment, bundle.sourceEvidence.archiveSegment = some segment ∧ store.AcceptsSegment tables segment now

/-- What is stored first of a bundle is accepted: the embedded segment, or else the bundle. -/
def AcceptsFirst (store : EvidenceStore Proofs) (policy : BundlePolicy Proofs) (tables : EvidenceTables)
    (bundle : ProofBundle Proofs) (now : Int) : Prop :=
  store.AcceptsEmbedded tables bundle now ∨
    bundle.sourceEvidence.archiveSegment = none ∧ store.AcceptsBundle policy tables bundle now

/-- What a call with a bill stores first is accepted. -/
def AcceptsBeforeBill (store : EvidenceStore Proofs) (policy : BundlePolicy Proofs)
    (tables : EvidenceTables) (input : BillInput)
    (proofBundle : Option (Except String (ProofBundle Proofs))) (now : Int) : Prop :=
  (∃ bill, input.decode store.inflate = .ok bill) ∧
    ∃ bundle, proofBundle = some (.ok bundle) ∧ store.AcceptsFirst policy tables bundle now

/-- What a call with a sync record stores first is accepted. -/
def AcceptsBeforeRecord (store : EvidenceStore Proofs) (policy : BundlePolicy Proofs)
    (tables : EvidenceTables) (record : WalletSyncRecord Proofs) (now : Int) : Prop :=
  (∀ type ∈ record.type, type = walletBillSyncRecordType) ∧ ∃ bill, record.bill = some bill ∧
    match record.archiveSegments with
    | [] => store.AcceptsBeforeBill policy tables (.object bill) record.proofBundle now
    | given :: _ => ∃ segment, given = .ok segment ∧ store.AcceptsSegment tables segment now

/-! ## Rejected objects write nothing -/

section Rejected

variable {store : EvidenceStore Proofs} {policy : BundlePolicy Proofs} {bundle : ProofBundle Proofs}
  {tables : EvidenceTables} {now : Int} {P : EvidenceTables → Prop} {Q : BillTables → Prop}

/-- What is left of a bundle once its segment is stored is one transaction. -/
theorem raisesIn_storeProofBundleV3
    (h : Effect.Keeps P (store.storeEmbeddedSegment bundle.sourceEvidence now) fun _ => True) :
    Effect.RaisesIn P (store.storeProofBundleV3 policy bundle now) :=
  .bind h fun _ => .read_bind fun _ => .lift_bind fun _ => .lift_bind fun _ => .lift_bind fun _ =>
    .write_bind _ _

/-- A bill is stored in one transaction. -/
theorem raisesIn_storeVerifiedBill (compact : BillTables → BillTables) (bill : Except String BillV3)
    (given : Option (ProofBundle Proofs)) (status : BillStatus) :
    Effect.RaisesIn Q (store.storeVerifiedBill policy compact bill given status now) :=
  .lift_bind fun _ => .read_bind fun _ => .lift_bind fun _ => .lift_bind fun _ => .read_bind fun _ =>
    .lift_bind fun _ => .lift_bind fun _ => .write_bind _ _

theorem storeEmbeddedSegment_of_rejected (h : ¬ store.AcceptsEmbedded tables bundle now) :
    (store.storeEmbeddedSegment bundle.sourceEvidence now tables).2 = tables := by
  unfold storeEmbeddedSegment
  cases hsource : bundle.sourceEvidence.archiveSegment with
  | none => rfl
  | some segment =>
    cases hverify : store.verifySegment tables segment now with
    | ok core => exact absurd ⟨segment, hsource, core, hverify⟩ h
    | error e => exact congrArg Prod.snd (Effect.bind_of_error (storeArchiveSegmentV3_of_error hverify))

/-- A bundle whose embedded segment is rejected or missing leaves no trace when it is rejected. -/
theorem eq_of_storeProofBundleV3_eq_error {e : String} {tables' : EvidenceTables}
    (h : store.storeProofBundleV3 policy bundle now tables = (.error e, tables'))
    (hrejected : ¬ store.AcceptsEmbedded tables bundle now) : tables' = tables := by
  refine Effect.RaisesIn.of_bind (P := fun t => t = tables)
    (storeEmbeddedSegment_of_rejected hrejected) (fun _ => ?_) h
  exact .read_bind fun _ => .lift_bind fun _ => .lift_bind fun _ => .lift_bind fun _ => .write_bind _ _

theorem storeProofBundleV3_of_rejected (h : ¬ store.AcceptsFirst policy tables bundle now) :
    (store.storeProofBundleV3 policy bundle now tables).2 = tables := by
  rw [AcceptsFirst, not_or] at h
  cases hr : store.storeProofBundleV3 policy bundle now tables with
  | mk result tables' =>
    cases result with
    | error e => exact eq_of_storeProofBundleV3_eq_error hr h.1
    | ok core =>
      obtain ⟨mid, id, blob, hembedded, hverify, hid, hblob, -⟩ := storeProofBundleV3_eq_ok hr
      rcases storeEmbeddedSegment_eq_ok hembedded with
        ⟨hnone, rfl⟩ | ⟨segment, segmentCore, _, hsource, hsegment, -⟩
      · exact absurd ⟨hnone, ⟨core, hverify⟩, ⟨id, hid⟩, blob, hblob⟩ h.2
      · exact absurd ⟨segment, hsource, segmentCore, hsegment⟩ h.1

end Rejected

/-! ## Accepted objects leave a stamp -/

/-- Some row of `issued_checkpoints_v3` was written at a time. -/
def Stamped (now : Int) (tables : EvidenceTables) : Prop :=
  ∃ tokenId row, tables.issued tokenId = some row ∧ row.updatedAt = now

/-- All rows of `issued_checkpoints_v3` were written before a time. -/
def WrittenBefore (now : Int) (tables : EvidenceTables) : Prop :=
  ∀ tokenId row, tables.issued tokenId = some row → row.updatedAt < now

theorem WrittenBefore.not_stamped {now : Int} {tables : EvidenceTables} (h : WrittenBefore now tables) :
    ¬ Stamped now tables := by
  rintro ⟨tokenId, row, hrow, rfl⟩
  exact lt_irrefl _ (h tokenId row hrow)

section Accepted

variable {store : EvidenceStore Proofs} {policy : BundlePolicy Proofs} {bundle : ProofBundle Proofs}
  {segment : ArchiveSegment} {tables : EvidenceTables} {now : Int}

theorem stamped_storeIssuedCheckpointV3Conn {core : CheckpointCore}
    {proofBundle : Option (ProofBundle Proofs)} {status : CheckpointStatus} :
    Stamped now (storeIssuedCheckpointV3Conn core proofBundle status now tables) :=
  ⟨core.tokenId, _, (issued_storeIssuedCheckpointV3Conn _).trans (if_pos rfl), rfl⟩

theorem keeps_storeArchiveSegmentV3 :
    Effect.Keeps (Stamped now) (store.storeArchiveSegmentV3 segment now) fun _ => True := by
  refine .next (.read fun _ _ => trivial) fun _ => .next (.lift fun _ _ => trivial) fun _ =>
    .next (.lift fun _ _ => trivial) fun _ => .next (.lift fun _ _ => trivial) fun _ =>
      .next (.write ?_ trivial) fun _ => .ret trivial
  exact fun _ _ => stamped_storeIssuedCheckpointV3Conn

theorem keeps_storeEmbeddedSegment (source : SourceEvidence) :
    Effect.Keeps (Stamped now) (store.storeEmbeddedSegment source now) fun _ => True := by
  unfold storeEmbeddedSegment
  cases source.archiveSegment with
  | none => exact .ret trivial
  | some segment => exact .next keeps_storeArchiveSegmentV3 fun _ => .lift fun _ _ => trivial

theorem keeps_storeProofBundleV3 :
    Effect.Keeps (Stamped now) (store.storeProofBundleV3 policy bundle now) fun _ => True := by
  refine .next (keeps_storeEmbeddedSegment _) fun _ => .next (.read fun _ _ => trivial) fun _ =>
    .next (.lift fun _ _ => trivial) fun _ => .next (.lift fun _ _ => trivial) fun _ =>
      .next (.lift fun _ _ => trivial) fun _ => .next (.write ?_ trivial) fun _ => .ret trivial
  exact fun _ _ => stamped_storeIssuedCheckpointV3Conn

theorem stamped_of_acceptsSegment (h : store.AcceptsSegment tables segment now) :
    Stamped now (store.storeArchiveSegmentV3 segment now tables).2 := by
  obtain ⟨core, hcore⟩ := h
  obtain ⟨blob, -, hstore⟩ := storeArchiveSegmentV3_of_ok hcore
  rw [hstore]
  exact stamped_storeIssuedCheckpointV3Conn

theorem stamped_of_acceptsEmbedded (h : store.AcceptsEmbedded tables bundle now) :
    Stamped now (store.storeEmbeddedSegment bundle.sourceEvidence now tables).2 := by
  obtain ⟨segment, hsource, haccepts⟩ := h
  unfold storeEmbeddedSegment
  rw [hsource]
  exact Effect.Keeps.of_bind (stamped_of_acceptsSegment haccepts) fun _ =>
    Effect.Keeps.lift (Q := fun _ => True) fun _ _ => trivial

theorem stamped_of_acceptsFirst (h : store.AcceptsFirst policy tables bundle now) :
    Stamped now (store.storeProofBundleV3 policy bundle now tables).2 := by
  rcases h with hembedded | ⟨hnone, ⟨core, hverify⟩, ⟨id, hid⟩, blob, hblob⟩
  · refine Effect.Keeps.of_bind (S := fun _ => True) (stamped_of_acceptsEmbedded hembedded) fun _ => ?_
    refine .next (.read fun _ _ => trivial) fun _ => .next (.lift fun _ _ => trivial) fun _ =>
      .next (.lift fun _ _ => trivial) fun _ => .next (.lift fun _ _ => trivial) fun _ =>
        .next (.write ?_ trivial) fun _ => .ret trivial
    exact fun _ _ => stamped_storeIssuedCheckpointV3Conn
  · have hempty : store.storeEmbeddedSegment bundle.sourceEvidence now tables = (.ok (), tables) := by
      unfold storeEmbeddedSegment
      rw [hnone]
      rfl
    rw [storeProofBundleV3_of_ok hempty hverify hid hblob]
    exact stamped_storeIssuedCheckpointV3Conn

end Accepted

/-! ## Bills and sync records -/

section Bills

variable {store : EvidenceStore Proofs} {policy : BundlePolicy Proofs}
  {compact : BillTables → BillTables} {input : BillInput}
  {proofBundle : Option (Except String (ProofBundle Proofs))} {status : BillStatus}
  {tables tables' : BillTables} {now : Int} {e : String}

theorem snd_onEvidence {α : Type} {x : Effect EvidenceTables String α}
    (h : (x tables.evidence).2 = tables.evidence) : (onEvidence x tables).2 = tables := by
  show { tables with evidence := (x tables.evidence).2 } = tables
  rw [h]

theorem keeps_storeGivenBundle (given : Option (ProofBundle Proofs)) :
    Effect.Keeps (Stamped now) (store.storeGivenBundle policy given now) fun _ => True := by
  cases given with
  | none => exact .ret trivial
  | some bundle => exact .next keeps_storeProofBundleV3 fun _ => .ret trivial

theorem keeps_storeGivenSegment (given : Except String ArchiveSegment) :
    Effect.Keeps (Stamped now) (store.storeGivenSegment now given) fun _ => True :=
  .next (.lift fun _ _ => trivial) fun _ => .next keeps_storeArchiveSegmentV3 fun _ => .ret trivial

/-- Once a row is stamped, it is so after every exception of `store_bill_v3`. -/
theorem raisesIn_storeBillV3 : Effect.RaisesIn (fun tables => Stamped now tables.evidence)
    (store.storeBillV3 policy compact input proofBundle status now) := by
  refine .lift_bind fun bill => .lift_bind fun given => .bind ?_ fun _ => raisesIn_storeVerifiedBill _ _ _ _
  exact (keeps_storeGivenBundle given).focus fun _ _ => rfl

/-- A bill whose first object is rejected or missing leaves no trace when it is rejected. -/
theorem eq_of_storeBillV3_eq_error
    (h : store.storeBillV3 policy compact input proofBundle status now tables = (.error e, tables'))
    (hrejected : ¬ store.AcceptsBeforeBill policy tables.evidence input proofBundle now) :
    tables' = tables := by
  unfold storeBillV3 at h
  cases hdecode : input.decode store.inflate with
  | error e' =>
    rw [hdecode] at h
    cases h
    rfl
  | ok bill =>
    rw [hdecode, Effect.lift_ok_bind] at h
    match proofBundle with
    | some (.error e') =>
      cases h
      rfl
    | none =>
      rw [readGiven, Effect.lift_ok_bind] at h
      exact Effect.RaisesIn.of_bind (P := fun t => t = tables) rfl
        (fun _ => raisesIn_storeVerifiedBill _ _ _ _) h
    | some (.ok bundle) =>
      have hfirst : ¬ store.AcceptsFirst policy tables.evidence bundle now := fun haccepts =>
        hrejected ⟨⟨bill, hdecode⟩, bundle, rfl, haccepts⟩
      refine Effect.RaisesIn.of_bind (P := fun t => t = tables) (snd_onEvidence ?_)
        (fun _ => raisesIn_storeVerifiedBill _ _ _ _) h
      exact (Effect.snd_bind_pure _ _ _).trans (storeProofBundleV3_of_rejected hfirst)

/-- A bill whose first object is accepted leaves a stamp when it is rejected. -/
theorem stamped_of_storeBillV3_eq_error
    (h : store.storeBillV3 policy compact input proofBundle status now tables = (.error e, tables'))
    (haccepts : store.AcceptsBeforeBill policy tables.evidence input proofBundle now) :
    Stamped now tables'.evidence := by
  obtain ⟨⟨bill, hdecode⟩, bundle, rfl, hfirst⟩ := haccepts
  unfold storeBillV3 at h
  rw [hdecode, Effect.lift_ok_bind] at h
  refine Effect.RaisesIn.of_bind (P := fun tables => Stamped now tables.evidence) ?_
    (fun _ => raisesIn_storeVerifiedBill _ _ _ _) h
  show Stamped now (store.storeGivenBundle policy (some bundle) now tables.evidence).2
  rw [storeGivenBundle, Effect.snd_bind_pure]
  exact stamped_of_acceptsFirst hfirst

theorem storeGivenSegment_of_rejected {tables : EvidenceTables} {given : Except String ArchiveSegment}
    (h : ¬ ∃ segment, given = .ok segment ∧ store.AcceptsSegment tables segment now) :
    ∃ e, store.storeGivenSegment now given tables = (.error e, tables) := by
  cases given with
  | error e => exact ⟨e, rfl⟩
  | ok segment =>
    cases hverify : store.verifySegment tables segment now with
    | ok core => exact absurd ⟨segment, rfl, core, hverify⟩ h
    | error e =>
      refine ⟨e, ?_⟩
      rw [storeGivenSegment, Effect.lift_ok_bind]
      exact Effect.bind_of_error (storeArchiveSegmentV3_of_error hverify)

/-- A sync record whose first object is rejected or missing leaves no trace when it is rejected. -/
theorem eq_of_ingest_eq_error {record : WalletSyncRecord Proofs}
    (h : store.ingestWalletBillSyncRecord policy compact (.ok record) now tables = (.error e, tables'))
    (hrejected : ¬ store.AcceptsBeforeRecord policy tables.evidence record now) : tables' = tables := by
  unfold ingestWalletBillSyncRecord at h
  rw [Effect.lift_ok_bind] at h
  by_cases htype : ∀ type ∈ record.type, type = walletBillSyncRecordType
  swap
  · rw [Check.require, if_neg htype] at h
    cases h
    rfl
  rw [Check.require_of htype, Effect.lift_ok_bind] at h
  cases hbill : record.bill with
  | none =>
    rw [hbill] at h
    cases h
    rfl
  | some bill =>
    rw [hbill, Check.ofOption, Effect.lift_ok_bind] at h
    cases hsegments : record.archiveSegments with
    | nil =>
      have hnone : onEvidence (Effect.forEach (store.storeGivenSegment now) []) tables = (.ok (), tables) :=
        rfl
      rw [hsegments, Effect.bind_of_ok hnone] at h
      refine eq_of_storeBillV3_eq_error h fun haccepts => hrejected ⟨htype, bill, hbill, ?_⟩
      rw [hsegments]
      exact haccepts
    | cons given rest =>
      have hgiven : ¬ ∃ segment, given = .ok segment ∧ store.AcceptsSegment tables.evidence segment now := by
        intro haccepts
        refine hrejected ⟨htype, bill, hbill, ?_⟩
        rw [hsegments]
        exact haccepts
      obtain ⟨e', hfirst⟩ := storeGivenSegment_of_rejected hgiven
      have hall : Effect.forEach (store.storeGivenSegment now) (given :: rest) tables.evidence
          = (.error e', tables.evidence) := Effect.bind_of_error hfirst
      have hraised : onEvidence (Effect.forEach (store.storeGivenSegment now) (given :: rest)) tables
          = (.error e', tables) := by
        rw [onEvidence, Effect.focus, hall]
      rw [hsegments, Effect.bind_of_error hraised] at h
      cases h
      rfl

/-- A sync record whose first object is accepted leaves a stamp when it is rejected. -/
theorem stamped_of_ingest_eq_error {record : WalletSyncRecord Proofs}
    (h : store.ingestWalletBillSyncRecord policy compact (.ok record) now tables = (.error e, tables'))
    (haccepts : store.AcceptsBeforeRecord policy tables.evidence record now) :
    Stamped now tables'.evidence := by
  obtain ⟨htype, bill, hbill, haccepts⟩ := haccepts
  unfold ingestWalletBillSyncRecord at h
  rw [Effect.lift_ok_bind, Check.require_of htype, Effect.lift_ok_bind, hbill, Check.ofOption,
    Effect.lift_ok_bind] at h
  cases hsegments : record.archiveSegments with
  | nil =>
    have hnone : onEvidence (Effect.forEach (store.storeGivenSegment now) []) tables = (.ok (), tables) :=
      rfl
    rw [hsegments, Effect.bind_of_ok hnone] at h
    rw [hsegments] at haccepts
    exact stamped_of_storeBillV3_eq_error h haccepts
  | cons given rest =>
    rw [hsegments] at haccepts h
    obtain ⟨segment, rfl, hsegment⟩ := haccepts
    refine Effect.RaisesIn.of_bind (P := fun tables => Stamped now tables.evidence) ?_
      (fun _ => raisesIn_storeBillV3) h
    -- The first segment stamps a row, and the other segments keep a stamped row.
    have hfirst : Stamped now (store.storeGivenSegment now (.ok segment) tables.evidence).2 := by
      rw [storeGivenSegment, Effect.lift_ok_bind, Effect.snd_bind_pure]
      exact stamped_of_acceptsSegment hsegment
    exact Effect.Keeps.of_bind hfirst fun _ => .forEach fun given _ => keeps_storeGivenSegment given

end Bills

/-- **When rejected evidence leaves no trace.** A call that raises leaves the tables as they were where the
    first object that it stores on its way is rejected or missing. Where that object is accepted it leaves
    a trace; only a row that was written in the same second can hide it. -/
theorem noTrace_iff_firstRejected (store : EvidenceStore Proofs) (policy : BundlePolicy Proofs)
    (compact : BillTables → BillTables) (now : Int) :
    (∀ bundle tables e tables',
      store.storeProofBundleV3 policy bundle now tables = (.error e, tables') →
        (¬ store.AcceptsEmbedded tables bundle now → tables' = tables) ∧
          (WrittenBefore now tables → tables' = tables → ¬ store.AcceptsEmbedded tables bundle now)) ∧
    (∀ input proofBundle status tables e tables',
      store.storeBillV3 policy compact input proofBundle status now tables = (.error e, tables') →
        (¬ store.AcceptsBeforeBill policy tables.evidence input proofBundle now → tables' = tables) ∧
          (WrittenBefore now tables.evidence → tables' = tables →
            ¬ store.AcceptsBeforeBill policy tables.evidence input proofBundle now)) ∧
    ∀ record tables e tables',
      store.ingestWalletBillSyncRecord policy compact record now tables = (.error e, tables') →
        ((∀ r, record = .ok r → ¬ store.AcceptsBeforeRecord policy tables.evidence r now) →
          tables' = tables) ∧
          (WrittenBefore now tables.evidence → tables' = tables →
            ∀ r, record = .ok r → ¬ store.AcceptsBeforeRecord policy tables.evidence r now) := by
  refine ⟨?_, ?_, ?_⟩
  · intro bundle tables e tables' h
    refine ⟨eq_of_storeProofBundleV3_eq_error h, ?_⟩
    rintro hbefore rfl haccepts
    refine hbefore.not_stamped ?_
    have hfirst : store.AcceptsFirst policy tables' bundle now := .inl haccepts
    have hstamped := stamped_of_acceptsFirst hfirst
    rwa [h] at hstamped
  · intro input proofBundle status tables e tables' h
    refine ⟨eq_of_storeBillV3_eq_error h, ?_⟩
    rintro hbefore rfl haccepts
    exact hbefore.not_stamped (stamped_of_storeBillV3_eq_error h haccepts)
  · intro record tables e tables' h
    cases record with
    | error e' =>
      cases h
      exact ⟨fun _ => rfl, fun _ _ _ hr => nomatch hr⟩
    | ok record =>
      refine ⟨fun hrejected => eq_of_ingest_eq_error h (hrejected record rfl), ?_⟩
      rintro hbefore rfl _ ⟨⟩ haccepts
      exact hbefore.not_stamped (stamped_of_ingest_eq_error h haccepts)

/-- The sample segment stays in the store, although the bundle that embeds it names another segment. -/
theorem not_noTrace : ¬ ∀ (Proofs : Type) (store : EvidenceStore Proofs) (policy : BundlePolicy Proofs)
    (bundle : ProofBundle Proofs) (now : Int) (tables : EvidenceTables) (e : String)
    (tables' : EvidenceTables),
    store.storeProofBundleV3 policy bundle now tables = (.error e, tables') → tables' = tables := by
  intro hall
  obtain ⟨core, hcore⟩ := exists_verifySegment_sampleSegment
  let root := SignedRoot.unsigned sampleNode.crypto 0 "" 0 "" "" 0
  let bundle := { sampleBundle root "" with sourceEvidence := { sampleSource with archiveSegmentHash := "" } }
  obtain ⟨blob, -, hstore⟩ := storeArchiveSegmentV3_of_ok (hcore ⟨[], [], []⟩)
  have hraised : sampleEvidenceStore.storeProofBundleV3 samplePolicy bundle 5000 ⟨[], [], []⟩
      = (.error "embedded archive segment hash mismatch",
          writeArchiveSegment sampleSegment core sampleSegment.segmentHash blob 5000 ⟨[], [], []⟩) := by
    refine Effect.bind_of_error ((Effect.bind_of_ok hstore).trans ?_)
    rw [Check.require, if_neg (Ne.symm isHex32_sampleSegment.1.1.ne_empty)]
    rfl
  have heq := hall _ _ _ _ _ _ _ _ hraised
  exact absurd (congrArg EvidenceTables.issuedCheckpointsV3 heq) (List.cons_ne_nil _ _)

end EvidenceStore
