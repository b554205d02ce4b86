import InternationalDollar.ConflictDetection
import Mathlib.Data.Fintype.Card
import Mathlib.Logic.Function.Basic
import Mathlib.Tactic.FinCases

set_option autoImplicit false

/-! # Ingestion by several workers

A worker looks for conflicts on the committed rows, asks the operators, records their answers and only
then writes its row. Nothing holds the store between the lookup and the commit, so two workers can both
find no conflict and both keep their bill. A run in which every lookup still stands when its worker
commits ends in the tables of a serial run. -/

namespace LocalStore

/-- What a worker handles: an announcement, what the network answers, and the time of its writes. -/
structure Job where
  v : Verification
  a : Announcement
  now : Int

/-- What the conflict lookup of a worker finds: the proofs that it drops, whether the token has an open
    conflict, and else the conflict with a stored bill. -/
structure Lookup where
  dropped : List String
  existing : Bool
  found : Option ConflictProof
deriving DecidableEq

/-- The conflict lookup of `_ingest_transfer_announcement_v3`. -/
def lookup (store : LocalStore) (job : Job) : Lookup :=
  let existing := (store.latestConflictProofV3ForToken job.v job.a.bill.tokenId).1.isSome
  { dropped := store.droppedProofs job.v job.a.bill.tokenId
    existing := existing
    found := if existing then none else store.foundConflict job.v job.a job.now }

/-- The announcement goes to the operators. -/
def Lookup.submits (l : Lookup) : Prop :=
  l.existing = false ∧ l.found = none

instance (l : Lookup) : Decidable l.submits :=
  inferInstanceAs (Decidable (_ ∧ _))

/-- The rows of `_ingest_transfer_announcement_v3`, written and committed after a lookup. -/
def commit (store : LocalStore) (job : Job) (l : Lookup) : LocalStore :=
  let read := l.dropped.foldl deleteConflict store
  if l.existing then read.storeBillV3Conn job.a.bill .verified job.now
  else match l.found with
    | some proof =>
        match read.storeConflictProofV3Conn job.v proof false job.now with
        | .error _ => store
        | .ok (record, store') =>
            if record.ignored then store'
            else store'.storeBillV3Conn job.a.bill .verified job.now
    | none =>
        if job.a.submitted = false then store
        else if store.settlementQuorumEnabled then read.storeBillV3Conn job.a.bill .pending job.now
        else read.storeBillV3Conn job.a.bill .verified job.now

/-- A compaction follows the commit. -/
def Lookup.compacts (l : Lookup) (store : LocalStore) (job : Job) : Prop :=
  l.submits ∧ job.a.submitted = true ∧ store.settlementQuorumEnabled = false

instance (l : Lookup) (store : LocalStore) (job : Job) : Decidable (l.compacts store job) :=
  inferInstanceAs (Decidable (_ ∧ _))

/-- The compaction after the commit. -/
def compaction (store : LocalStore) (job : Job) : LocalStore :=
  store.maybeCompactBillV3 job.a.bill job.a.compactCopy .verified job.now

/-! ## The system -/

/-- How far a worker is. -/
inductive Phase where
  | waiting
  | looked (l : Lookup)
  | recorded (l : Lookup)
  | committed
  | done
deriving DecidableEq

/-- The steps of a worker, each of them one transaction. -/
inductive Work where
  | lookup
  | record
  | commit
  | compact
deriving DecidableEq

/-- A store that several workers share. A lookup that drops a proof opens the transaction of its worker,
    which then holds the write lock until the commit. -/
structure Shared (ι : Type) where
  store : LocalStore
  writer : Option ι
  phase : ι → Phase

variable {ι : Type} [DecidableEq ι]

/-- One step of one worker. -/
def workerStep (jobs : ι → Job) (s : Shared ι) (event : ι × Work) : Option (Shared ι) :=
  let (i, work) := event
  let job := jobs i
  match work, s.phase i with
  | .lookup, .waiting =>
      let l := s.store.lookup job
      if job.v.verifyBill (s.store.trustedOperatorKey job.a.bundleOperatorKey) job.a.bill = false then
        some { s with phase := Function.update s.phase i .done }
      else if l.dropped = [] then some { s with phase := Function.update s.phase i (.looked l) }
      else if s.writer = none then
        some { s with writer := some i, phase := Function.update s.phase i (.looked l) }
      else none
  | .record, .looked l =>
      if l.submits ∧ job.a.logRows ≠ [] then
        if s.writer = none then
          some { s with
            store := s.store.recordSubmission job.a.bill job.a.logRows
            phase := Function.update s.phase i (.recorded l) }
        else if s.writer = some i then
          -- The connection of the log rows waits for the worker's own transaction: it is rolled back.
          some { s with writer := none, phase := Function.update s.phase i .done }
        else none
      else some { s with phase := Function.update s.phase i (.recorded l) }
  | .commit, .recorded l =>
      if s.writer = none ∨ s.writer = some i then
        some {
          store := s.store.commit job l
          writer := none
          phase := Function.update s.phase i
            (if l.compacts s.store job then .committed else .done) }
      else none
  | .compact, .committed =>
      if s.writer = none then
        some { s with
          store := s.store.compaction job
          phase := Function.update s.phase i .done }
      else none
  | _, _ => none

/-- All workers wait. -/
def sharedStart (store : LocalStore) : Shared ι where
  store := store
  writer := none
  phase := fun _ => .waiting

/-- The announcements ingested one after another. -/
def serial (jobs : ι → Job) (store : LocalStore) (order : List ι) : LocalStore :=
  order.foldl (fun store i =>
    (store.ingestTransferAnnouncementV3 (jobs i).v (jobs i).a (jobs i).now).2) store

/-- Two stores differ in the log rows of submissions at most. -/
def SameTables (store other : LocalStore) : Prop :=
  ∃ log, other = { store with transferLog := log }

/-! ## Log rows do not matter -/

variable {store other : LocalStore} {job : Job} {l : Lookup}

theorem SameTables.refl (store : LocalStore) : store.SameTables store :=
  ⟨store.transferLog, rfl⟩

theorem SameTables.symm (h : store.SameTables other) : other.SameTables store := by
  obtain ⟨log, rfl⟩ := h
  exact ⟨store.transferLog, rfl⟩

theorem SameTables.trans {third : LocalStore} (h : store.SameTables other)
    (k : other.SameTables third) : store.SameTables third := by
  obtain ⟨log, rfl⟩ := h
  obtain ⟨log', rfl⟩ := k
  exact ⟨log', rfl⟩

theorem sameTables_recordSubmission (bill : StoreBill) (rows : List TransferLogRow) :
    store.SameTables (store.recordSubmission bill rows) :=
  recordSubmission_frame _ bill rows

theorem SameTables.storeBillV3Conn (h : store.SameTables other) (bill : StoreBill)
    (status : BillStatus) (now : Int) :
    (store.storeBillV3Conn bill status now).SameTables (other.storeBillV3Conn bill status now) := by
  obtain ⟨log, rfl⟩ := h
  exact ⟨log, rfl⟩

theorem SameTables.compaction (h : store.SameTables other) (job : Job) :
    (store.compaction job).SameTables (other.compaction job) := by
  unfold LocalStore.compaction maybeCompactBillV3
  cases job.a.compactCopy with
  | none => exact h
  | some copy =>
    dsimp only
    split
    · exact h.storeBillV3Conn copy .verified job.now
    · exact h

theorem scanDropped_congr (v : Verification) (log : List TransferLogRow) (rows : List ConflictRow) :
    scanDropped v { store with transferLog := log } rows = scanDropped v store rows := by
  induction rows generalizing store with
  | nil => rfl
  | cons row rest ih =>
    have hholds : ({ store with transferLog := log } : LocalStore).conflictRowHolds v row
        = store.conflictRowHolds v row := rfl
    have hpost : ({ store with transferLog := log } : LocalStore).isPostSettlementConflictV3 row.proof
        = store.isPostSettlementConflictV3 row.proof := rfl
    unfold scanDropped
    rw [hholds, hpost, ih]
    have hdelete := @ih (store.deleteConflict row.proof.proofHash)
    exact congrArg (ite _ _ <| List.cons _ ·) hdelete

theorem SameTables.latest_fst (h : store.SameTables other) (v : Verification) (tokenId : String) :
    (other.latestConflictProofV3ForToken v tokenId).1
      = (store.latestConflictProofV3ForToken v tokenId).1 := by
  obtain ⟨log, rfl⟩ := h
  unfold latestConflictProofV3ForToken
  rw [scanConflicts_fst, scanConflicts_fst]
  rfl

theorem SameTables.lookup (h : store.SameTables other) (job : Job) :
    other.lookup job = store.lookup job := by
  have hlatest := h.latest_fst job.v job.a.bill.tokenId
  obtain ⟨log, rfl⟩ := h
  unfold LocalStore.lookup droppedProofs
  rw [hlatest]
  dsimp only
  rw [scanDropped_congr]
  rfl

theorem SameTables.deleteAll (h : store.SameTables other) (hashes : List String) :
    (hashes.foldl deleteConflict store).SameTables (hashes.foldl deleteConflict other) := by
  induction hashes generalizing store other with
  | nil => exact h
  | cons proofHash rest ih =>
    obtain ⟨log, rfl⟩ := h
    exact ih ⟨log, rfl⟩

/-- Storing a proof reads and writes no log rows. -/
theorem storeConflictProofV3Conn_congr (store : LocalStore) (v : Verification) (log : List TransferLogRow)
    (proof : ConflictProof) (preverified : Bool) (now : Int) :
    ({ store with transferLog := log } : LocalStore).storeConflictProofV3Conn v proof preverified now
      = (store.storeConflictProofV3Conn v proof preverified now).map fun answer =>
          (answer.1, { answer.2 with transferLog := log }) := by
  have hanchor : ({ store with transferLog := log } : LocalStore).conflictProofHasLocalV3Anchor v proof
      = store.conflictProofHasLocalV3Anchor v proof := rfl
  have hpost : ({ store with transferLog := log } : LocalStore).isPostSettlementConflictV3 proof
      = store.isPostSettlementConflictV3 proof := rfl
  unfold storeConflictProofV3Conn
  rw [hanchor, hpost]
  by_cases hverified : preverified = true ∨ v.verifyConflictProof proof = true
  · rw [Check.require_of hverified, Check.ok_bind, Check.ok_bind]
    by_cases hlocal : store.conflictProofHasLocalV3Anchor v proof = true
    · rw [Check.require_of hlocal, Check.ok_bind, Check.ok_bind]
      split
      · rfl
      · dsimp only
        split
        · rfl
        · unfold insertConflict
          dsimp only
          split
          · rfl
          · rfl
    · unfold Check.require
      rw [if_neg hlocal]
      rfl
  · unfold Check.require
    rw [if_neg hverified]
    rfl

theorem commit_existing (h : l.existing = true) : store.commit job l
    = (l.dropped.foldl deleteConflict store).storeBillV3Conn job.a.bill .verified job.now := by
  unfold commit
  exact if_pos h

theorem commit_found (h : l.existing = false) {proof : ConflictProof} (hfound : l.found = some proof) :
    store.commit job l
      = match (l.dropped.foldl deleteConflict store).storeConflictProofV3Conn job.v proof false
          job.now with
        | .error _ => store
        | .ok (record, store') =>
            if record.ignored then store'
            else store'.storeBillV3Conn job.a.bill .verified job.now := by
  unfold commit
  rw [h, hfound]
  rfl

theorem commit_submits (h : l.submits) : store.commit job l
    = if job.a.submitted = false then store
      else if store.settlementQuorumEnabled then
        (l.dropped.foldl deleteConflict store).storeBillV3Conn job.a.bill .pending job.now
      else (l.dropped.foldl deleteConflict store).storeBillV3Conn job.a.bill .verified job.now := by
  unfold commit
  rw [h.1, h.2]
  rfl

theorem SameTables.settlementQuorumEnabled (h : store.SameTables other) :
    other.settlementQuorumEnabled = store.settlementQuorumEnabled := by
  obtain ⟨log, rfl⟩ := h
  rfl

theorem SameTables.commit (h : store.SameTables other) (job : Job) (l : Lookup) :
    (store.commit job l).SameTables (other.commit job l) := by
  have hread := h.deleteAll l.dropped
  cases hexisting : l.existing with
  | true =>
    rw [commit_existing hexisting, commit_existing hexisting]
    exact hread.storeBillV3Conn _ _ _
  | false =>
    cases hfound : l.found with
    | some proof =>
      rw [commit_found hexisting hfound, commit_found hexisting hfound]
      generalize l.dropped.foldl deleteConflict store = read at hread
      generalize l.dropped.foldl deleteConflict other = read' at hread
      obtain ⟨log, rfl⟩ := hread
      rw [storeConflictProofV3Conn_congr read job.v log]
      cases read.storeConflictProofV3Conn job.v proof false job.now with
      | error => exact h
      | ok answer =>
        obtain ⟨record, mid⟩ := answer
        dsimp only [Except.map]
        split
        · exact ⟨log, rfl⟩
        · exact ⟨log, rfl⟩
    | none =>
      rw [commit_submits ⟨hexisting, hfound⟩, commit_submits ⟨hexisting, hfound⟩,
        h.settlementQuorumEnabled]
      split
      · exact h
      · split
        · exact hread.storeBillV3Conn _ _ _
        · exact hread.storeBillV3Conn _ _ _

/-! ## A whole call -/

/-- The lookup's deletions are what the reader leaves. -/
theorem scanConflicts_snd (v : Verification) (rows : List ConflictRow) :
    (scanConflicts v store rows).2 = (scanDropped v store rows).foldl deleteConflict store := by
  induction rows generalizing store with
  | nil => rfl
  | cons row rest ih =>
    unfold scanConflicts scanDropped
    split
    · split
      · exact ih
      · rfl
    · exact ih

/-- The operators' answers cannot be recorded while the worker's own transaction is open. -/
def Lookup.locksOut (l : Lookup) (job : Job) : Prop :=
  l.submits ∧ job.a.logRows ≠ [] ∧ l.dropped ≠ []

instance (l : Lookup) (job : Job) : Decidable (l.locksOut job) :=
  inferInstanceAs (Decidable (_ ∧ _))

/-- The steps of one worker, one after another on one store. -/
def handle (store : LocalStore) (job : Job) : LocalStore :=
  let l := store.lookup job
  if job.v.verifyBill (store.trustedOperatorKey job.a.bundleOperatorKey) job.a.bill = false ∨
      l.locksOut job then store
  else if l.compacts store job then (store.commit job l).compaction job
  else store.commit job l

theorem compaction_recordSubmission (store : LocalStore) (job : Job) (status : BillStatus) :
    ((store.storeBillV3Conn job.a.bill status job.now).compaction job).SameTables
      (((store.recordSubmission job.a.bill job.a.logRows).storeBillV3Conn job.a.bill status
        job.now).compaction job) :=
  ((sameTables_recordSubmission _ _).storeBillV3Conn _ _ _).compaction job

/-- An uninterrupted call leaves the tables that its steps leave. -/
theorem ingest_sameTables (store : LocalStore) (job : Job) :
    (store.handle job).SameTables
      (store.ingestTransferAnnouncementV3 job.v job.a job.now).2 := by
  unfold handle ingestTransferAnnouncementV3
  dsimp only
  by_cases hverified :
      job.v.verifyBill (store.trustedOperatorKey job.a.bundleOperatorKey) job.a.bill = false
  · rw [if_pos (Or.inl hverified), if_pos hverified]
    exact .refl store
  rw [if_neg hverified]
  have hread : (store.latestConflictProofV3ForToken job.v job.a.bill.tokenId).2
      = (store.lookup job).dropped.foldl deleteConflict store := scanConflicts_snd _ _
  cases hlatest : store.latestConflictProofV3ForToken job.v job.a.bill.tokenId with
  | mk existing store' =>
    rw [hlatest] at hread
    cases existing with
    | some proof =>
      have hexisting : (store.lookup job).existing = true := by
        unfold lookup
        rw [hlatest]
        rfl
      have hno : ¬ (store.lookup job).submits := fun h => by
        rw [h.1] at hexisting
        exact absurd hexisting (by decide)
      rw [if_neg (not_or.2 ⟨hverified, fun h => hno h.1⟩), if_neg fun h => hno h.1,
        commit_existing hexisting, ← hread]
      exact .refl _
    | none =>
      have hexisting : (store.lookup job).existing = false := by
        unfold lookup
        rw [hlatest]
        rfl
      have hfoundEq : (store.lookup job).found = store'.findConflictingBillV3 job.v job.a.bill
          (store.trustedOperatorKey job.a.bundleOperatorKey) job.now := by
        have hdrops := dropsConflicts_latest store job.v job.a.bill.tokenId
        rw [hlatest] at hdrops
        rw [findConflictingBillV3_of_drops _ _ hdrops]
        unfold lookup
        rw [hlatest]
        rfl
      dsimp only
      cases hfound : (store.lookup job).found with
      | some proof =>
        have hno : ¬ (store.lookup job).submits := fun h => by
          rw [h.2] at hfound
          exact absurd hfound (by simp)
        rw [if_neg (not_or.2 ⟨hverified, fun h => hno h.1⟩), if_neg fun h => hno h.1,
          commit_found hexisting hfound, ← hfoundEq, hfound, ← hread]
        dsimp only
        cases store'.storeConflictProofV3Conn job.v proof false job.now with
        | error => exact .refl store
        | ok answer =>
          obtain ⟨record, mid⟩ := answer
          dsimp only
          split
          · exact .refl _
          · exact .refl _
      | none =>
        have hsubmits : (store.lookup job).submits := ⟨hexisting, hfound⟩
        rw [← hfoundEq, hfound]
        dsimp only
        by_cases hlocked : job.a.logRows ≠ [] ∧
            store.droppedProofs job.v job.a.bill.tokenId ≠ []
        · rw [if_pos (Or.inr ⟨hsubmits, hlocked⟩), if_pos hlocked]
          exact .refl store
        · rw [if_neg (not_or.2 ⟨hverified, fun h => hlocked h.2⟩), if_neg hlocked,
            commit_submits hsubmits, ← hread]
          by_cases hsubmitted : job.a.submitted = false
          · rw [if_pos hsubmitted, if_pos hsubmitted, if_neg fun h => absurd (hsubmitted.symm.trans h.2.1) (by decide)]
            exact sameTables_recordSubmission _ _
          · rw [if_neg hsubmitted, if_neg hsubmitted]
            by_cases hquorum : store.settlementQuorumEnabled = true
            · rw [if_pos hquorum, if_pos hquorum, if_neg fun h => absurd (hquorum.symm.trans h.2.2) (by decide)]
              exact (sameTables_recordSubmission _ _).storeBillV3Conn _ _ _
            · have hcompacts : (store.lookup job).compacts store job :=
                ⟨hsubmits, by simpa using hsubmitted, by simpa using hquorum⟩
              rw [if_neg hquorum, if_neg hquorum, if_pos hcompacts]
              exact compaction_recordSubmission store' job .verified

/-! ## What a step of a worker does -/

variable {jobs : ι → Job} {start : LocalStore} {s s' : Shared ι}

/-- The steps of a worker, taken apart. -/
inductive Worked (jobs : ι → Job) (s : Shared ι) (i : ι) : Work → Shared ι → Prop
  | rejected (hphase : s.phase i = .waiting)
      (hrejected : (jobs i).v.verifyBill
        (s.store.trustedOperatorKey (jobs i).a.bundleOperatorKey) (jobs i).a.bill = false) :
      Worked jobs s i .lookup { s with phase := Function.update s.phase i .done }
  | looked (hphase : s.phase i = .waiting)
      (hverified : ¬ (jobs i).v.verifyBill
        (s.store.trustedOperatorKey (jobs i).a.bundleOperatorKey) (jobs i).a.bill = false)
      (hdropped : (s.store.lookup (jobs i)).dropped = []) :
      Worked jobs s i .lookup
        { s with phase := Function.update s.phase i (.looked (s.store.lookup (jobs i))) }
  | locked (hphase : s.phase i = .waiting)
      (hverified : ¬ (jobs i).v.verifyBill
        (s.store.trustedOperatorKey (jobs i).a.bundleOperatorKey) (jobs i).a.bill = false)
      (hdropped : (s.store.lookup (jobs i)).dropped ≠ []) (hwriter : s.writer = none) :
      Worked jobs s i .lookup
        { s with
          writer := some i
          phase := Function.update s.phase i (.looked (s.store.lookup (jobs i))) }
  | recorded (l : Lookup) (hphase : s.phase i = .looked l) (hwriter : s.writer = none) :
      Worked jobs s i .record { s with
        store := s.store.recordSubmission (jobs i).a.bill (jobs i).a.logRows
        phase := Function.update s.phase i (.recorded l) }
  | lockedOut (l : Lookup) (hphase : s.phase i = .looked l) (hsubmits : l.submits)
      (hrows : (jobs i).a.logRows ≠ []) (hwriter : s.writer = some i) :
      Worked jobs s i .record { s with writer := none, phase := Function.update s.phase i .done }
  | unrecorded (l : Lookup) (hphase : s.phase i = .looked l)
      (hno : ¬ (l.submits ∧ (jobs i).a.logRows ≠ [])) :
      Worked jobs s i .record { s with phase := Function.update s.phase i (.recorded l) }
  | committed (l : Lookup) (hphase : s.phase i = .recorded l)
      (hwriter : s.writer = none ∨ s.writer = some i) :
      Worked jobs s i .commit {
        store := s.store.commit (jobs i) l
        writer := none
        phase := Function.update s.phase i
          (if l.compacts s.store (jobs i) then .committed else .done) }
  | compacted (hphase : s.phase i = .committed) (hwriter : s.writer = none) :
      Worked jobs s i .compact { s with
        store := s.store.compaction (jobs i)
        phase := Function.update s.phase i .done }

theorem workerStep_cases {i : ι} {work : Work} (h : workerStep jobs s (i, work) = some s') :
    Worked jobs s i work s' := by
  unfold workerStep at h
  cases hphase : s.phase i with
  | waiting =>
    cases work with
    | lookup =>
      simp only [hphase] at h
      split at h
      · next hrejected =>
        cases h
        exact .rejected hphase hrejected
      · next hverified =>
        split at h
        · next hdropped =>
          cases h
          exact .looked hphase hverified hdropped
        · next hdropped =>
          split at h
          · next hwriter =>
            cases h
            exact .locked hphase hverified hdropped hwriter
          · exact absurd h (by simp)
    | record => simp [hphase] at h
    | commit => simp [hphase] at h
    | compact => simp [hphase] at h
  | looked l =>
    cases work with
    | lookup => simp [hphase] at h
    | record =>
      simp only [hphase] at h
      split at h
      · next hsubmits =>
        split at h
        · next hwriter =>
          cases h
          exact .recorded l hphase hwriter
        · split at h
          · next hwriter =>
            cases h
            exact .lockedOut l hphase hsubmits.1 hsubmits.2 hwriter
          · exact absurd h (by simp)
      · next hno =>
        cases h
        exact .unrecorded l hphase hno
    | commit => simp [hphase] at h
    | compact => simp [hphase] at h
  | recorded l =>
    cases work with
    | lookup => simp [hphase] at h
    | record => simp [hphase] at h
    | commit =>
      simp only [hphase] at h
      split at h
      · next hwriter =>
        cases h
        exact .committed l hphase hwriter
      · exact absurd h (by simp)
    | compact => simp [hphase] at h
  | committed =>
    cases work with
    | lookup => simp [hphase] at h
    | record => simp [hphase] at h
    | commit => simp [hphase] at h
    | compact =>
      simp only [hphase] at h
      split at h
      · next hwriter =>
        cases h
        exact .compacted hphase hwriter
      · exact absurd h (by simp)
  | done =>
    cases work with
    | lookup => simp [hphase] at h
    | record => simp [hphase] at h
    | commit => simp [hphase] at h
    | compact => simp [hphase] at h

/-! ## Serial runs -/

omit [DecidableEq ι] in
theorem serial_append (order : List ι) (i : ι) : serial jobs start (order ++ [i])
    = ((serial jobs start order).ingestTransferAnnouncementV3 (jobs i).v (jobs i).a
        (jobs i).now).2 := by
  unfold serial
  rw [List.foldl_append]
  rfl

omit [DecidableEq ι] in
theorem handle_sameTables_serial (jobs : ι → Job) (start : LocalStore) (order : List ι) (i : ι) :
    ((serial jobs start order).handle (jobs i)).SameTables (serial jobs start (order ++ [i])) := by
  rw [serial_append]
  exact ingest_sameTables _ _

/-- The settings stay. -/
theorem ingest_embedded (store : LocalStore) (job : Job) :
    (store.ingestTransferAnnouncementV3 job.v job.a job.now).2.allowEmbeddedOperatorKey
      = store.allowEmbeddedOperatorKey := by
  have hcall : store.call job.now (.announcement job.v job.a)
      = (store.ingestTransferAnnouncementV3 job.v job.a job.now).2 := rfl
  rw [← hcall]
  refine call_keeps (P := fun s => s.allowEmbeddedOperatorKey = store.allowEmbeddedOperatorKey) _ rfl
    (fun _ _ hs => hs) ?_ (fun _ _ _ hs => hs) ?_ (fun _ _ hs => hs) (fun _ _ hs _ => hs)
  · rintro s - hs ⟨kept, rfl, -⟩
    exact hs
  · intro s row hs
    rcases insertConflict_cases s row with heq | ⟨-, heq⟩
    · rwa [heq]
    · rw [heq]
      exact hs

omit [DecidableEq ι] in
theorem serial_embedded (jobs : ι → Job) (order : List ι) :
    (serial jobs start order).allowEmbeddedOperatorKey = start.allowEmbeddedOperatorKey := by
  induction order using List.reverseRecOn with
  | nil => rfl
  | append_singleton order i ih => rw [serial_append, ingest_embedded, ih]

theorem SameTables.embedded (h : store.SameTables other) :
    other.allowEmbeddedOperatorKey = store.allowEmbeddedOperatorKey := by
  obtain ⟨log, rfl⟩ := h
  rfl

theorem compaction_embedded (store : LocalStore) (job : Job) :
    (store.compaction job).allowEmbeddedOperatorKey = store.allowEmbeddedOperatorKey := by
  rcases maybeCompactBillV3_cases store job.now job.a.bill job.a.compactCopy .verified with
    heq | ⟨compact, -, -, heq⟩
  · unfold compaction
    rw [heq]
  · unfold compaction
    rw [heq]
    rfl

/-- The tables of a store are those of a serial run, of which the last worker may still have to
    compact. -/
def Tables (jobs : ι → Job) (start store : LocalStore) (order : List ι) : Option ι → Prop
  | none => (serial jobs start order).SameTables store
  | some i => ∃ l, ((serial jobs start order).commit (jobs i) l).SameTables store ∧
      (serial jobs start order).handle (jobs i)
        = ((serial jobs start order).commit (jobs i) l).compaction (jobs i)

omit [DecidableEq ι] in
theorem Tables.embedded {order : List ι} {pending : Option ι}
    (h : Tables jobs start store order pending) :
    store.allowEmbeddedOperatorKey = start.allowEmbeddedOperatorKey := by
  cases pending with
  | none => exact (SameTables.embedded h).trans (serial_embedded jobs order)
  | some i =>
    obtain ⟨l, hsame, hhandle⟩ := h
    have hcommit : ((serial jobs start order).commit (jobs i) l).allowEmbeddedOperatorKey
        = start.allowEmbeddedOperatorKey := by
      rw [← compaction_embedded _ (jobs i), ← hhandle,
        ← (handle_sameTables_serial jobs start order i).embedded, serial_embedded]
    exact hsame.embedded.trans hcommit

omit [DecidableEq ι] in
theorem Tables.of_sameTables {order : List ι} {pending : Option ι}
    (h : Tables jobs start store order pending) (hsame : store.SameTables other) :
    Tables jobs start other order pending := by
  cases pending with
  | none => exact SameTables.trans h hsame
  | some i =>
    obtain ⟨l, hcommit, hhandle⟩ := h
    exact ⟨l, hcommit.trans hsame, hhandle⟩

omit [DecidableEq ι] in
theorem Tables.congr_order {order order' : List ι} {pending : Option ι}
    (heq : serial jobs start order' = serial jobs start order)
    (h : Tables jobs start store order pending) : Tables jobs start store order' pending := by
  unfold Tables at h ⊢
  rwa [heq]

/-! ## The invariant -/

/-- What one worker has done, if `order` are the workers that are done, `pending` is the one that still
    has to compact and `writer` holds the write lock. -/
structure WorkerOk (jobs : ι → Job) (start : LocalStore) (order : List ι) (pending writer : Option ι)
    (i : ι) (phase : Phase) : Prop where
  done : i ∈ order ↔ phase = .done
  committed : pending = some i ↔ phase = .committed
  verified : ∀ l, phase = .looked l ∨ phase = .recorded l →
    ¬ (jobs i).v.verifyBill (start.trustedOperatorKey (jobs i).a.bundleOperatorKey)
      (jobs i).a.bill = false
  locked : ∀ l, phase = .looked l → (writer = some i ↔ l.dropped ≠ [])
  answered : ∀ l, phase = .recorded l → ¬ l.locksOut (jobs i)
  writing : writer = some i → ∃ l, phase = .looked l ∨ phase = .recorded l

omit [DecidableEq ι] in
theorem WorkerOk.congr {order order' : List ι} {pending pending' writer writer' : Option ι} {i : ι}
    {phase : Phase} (h : WorkerOk jobs start order pending writer i phase)
    (horder : i ∈ order' ↔ i ∈ order) (hpending : pending' = some i ↔ pending = some i)
    (hwriter : writer' = some i ↔ writer = some i) :
    WorkerOk jobs start order' pending' writer' i phase :=
  ⟨horder.trans h.done, hpending.trans h.committed, h.verified,
    fun l hl => hwriter.trans (h.locked l hl), h.answered, fun hw => h.writing (hwriter.1 hw)⟩

/-- The tables are those of the workers that are done, one after another in the order in which they
    committed. -/
structure Serialised (jobs : ι → Job) (start : LocalStore) (s : Shared ι) (order : List ι)
    (pending : Option ι) : Prop where
  nodup : order.Nodup
  workers : ∀ i, WorkerOk jobs start order pending s.writer i (s.phase i)
  tables : Tables jobs start s.store order pending

omit [DecidableEq ι] in
theorem serialised_start : Serialised jobs start (sharedStart start) [] none := by
  refine ⟨List.nodup_nil, fun i => ?_, .refl start⟩
  show WorkerOk jobs start [] none none i .waiting
  exact ⟨by simp, by simp, by simp, by simp, by simp, by simp⟩

/-- The lookup of a worker stands when it commits: a fresh lookup gives the same, and no other worker is
    between its commit and its compaction. So it is when the log rows of its submission are locked out. -/
def Validates (jobs : ι → Job) (s : Shared ι) (event : ι × Work) : Prop :=
  match event.2, s.phase event.1 with
  | .record, .looked l => s.writer = some event.1 →
      s.store.lookup (jobs event.1) = l ∧ ∀ j, s.phase j ≠ .committed
  | .commit, .recorded l => s.store.lookup (jobs event.1) = l ∧ ∀ j, s.phase j ≠ .committed
  | _, _ => True

omit [DecidableEq ι] in
theorem trustedOperatorKey_congr
    (h : store.allowEmbeddedOperatorKey = other.allowEmbeddedOperatorKey) (key : Option String) :
    store.trustedOperatorKey key = other.trustedOperatorKey key := by
  unfold trustedOperatorKey
  rw [h]

/-- A worker that does not hold back: what its commit leaves is what an uninterrupted call leaves. -/
theorem handle_eq (base : LocalStore) (job : Job)
    (hverified : ¬ job.v.verifyBill (base.trustedOperatorKey job.a.bundleOperatorKey) job.a.bill = false)
    (hanswered : ¬ (base.lookup job).locksOut job) :
    base.handle job = if (base.lookup job).compacts base job
      then (base.commit job (base.lookup job)).compaction job
      else base.commit job (base.lookup job) := by
  unfold handle
  exact if_neg (not_or.2 ⟨hverified, hanswered⟩)

theorem handle_lockedOut {base : LocalStore} (hlocked : (base.lookup job).locksOut job) :
    base.handle job = base := by
  unfold handle
  exact if_pos (Or.inr hlocked)

/-- A step after which the lookups stand keeps the tables of a serial run. -/
theorem Serialised.step {order : List ι} {pending : Option ι}
    (h : Serialised jobs start s order pending) {i : ι} {work : Work}
    (hvalid : Validates jobs s (i, work)) (hstep : Worked jobs s i work s') :
    ∃ order' pending', Serialised jobs start s' order' pending' := by
  have hkey := trustedOperatorKey_congr h.tables.embedded
  have hserial : ∀ key, (serial jobs start order).trustedOperatorKey key
      = start.trustedOperatorKey key :=
    trustedOperatorKey_congr (serial_embedded jobs order)
  have hworker := h.workers i
  -- A worker that becomes done is last in the order.
  have hlast : s.phase i ≠ .done → (order ++ [i]).Nodup ∧
      ∀ j, j ≠ i → (j ∈ order ++ [i] ↔ j ∈ order) := by
    intro hundone
    have hnotin : i ∉ order := fun hin => hundone (hworker.done.1 hin)
    refine ⟨?_, fun j hj => by simp [hj]⟩
    rw [List.nodup_append]
    refine ⟨h.nodup, List.nodup_singleton i, fun a ha b hb heq => hnotin ?_⟩
    rwa [← List.mem_singleton.1 hb, ← heq]
  cases hstep with
  | rejected hphase hrejected =>
    rw [hphase] at hworker hlast
    obtain ⟨hnodup, horder⟩ := hlast (by simp)
    -- A rejected announcement changes nothing, wherever it stands in the order.
    have hunchanged : serial jobs start (order ++ [i]) = serial jobs start order := by
      rw [serial_append]
      rw [hkey] at hrejected
      exact ingestTransferAnnouncementV3_rejected (by rwa [hserial])
    refine ⟨order ++ [i], pending, hnodup, ?_, h.tables.congr_order hunchanged⟩
    refine (Function.forall_update_iff s.phase _).2 ⟨?_, fun j hj =>
      (h.workers j).congr (horder j hj) Iff.rfl Iff.rfl⟩
    exact ⟨by simp, by simp [hworker.committed], by simp, by simp, by simp,
      fun hw => by simpa using hworker.writing hw⟩
  | looked hphase hverified hdropped =>
    rw [hphase] at hworker
    rw [hkey] at hverified
    refine ⟨order, pending, h.nodup, ?_, h.tables⟩
    refine (Function.forall_update_iff s.phase _).2 ⟨?_, fun j _ => h.workers j⟩
    have hfree : s.writer ≠ some i := fun hw => by simpa using hworker.writing hw
    refine ⟨by simp [hworker.done], by simp [hworker.committed], fun _ _ => hverified, ?_, by simp,
      fun hw => absurd hw hfree⟩
    intro l hl
    cases hl
    exact ⟨fun hw => absurd hw hfree, fun hne => absurd hdropped hne⟩
  | locked hphase hverified hdropped hwriter =>
    rw [hphase] at hworker
    rw [hkey] at hverified
    refine ⟨order, pending, h.nodup, ?_, h.tables⟩
    refine (Function.forall_update_iff s.phase _).2 ⟨?_, fun j hj =>
      (h.workers j).congr Iff.rfl Iff.rfl ?_⟩
    · refine ⟨by simp [hworker.done], by simp [hworker.committed], fun _ _ => hverified, ?_, by simp,
        fun _ => ⟨_, Or.inl rfl⟩⟩
      intro l hl
      cases hl
      exact ⟨fun _ => hdropped, fun _ => rfl⟩
    · rw [hwriter]
      simp [hj.symm]
  | recorded l hphase hwriter =>
    rw [hphase] at hworker
    refine ⟨order, pending, h.nodup, ?_, h.tables.of_sameTables (sameTables_recordSubmission _ _)⟩
    refine (Function.forall_update_iff s.phase _).2 ⟨?_, fun j _ => h.workers j⟩
    refine ⟨by simp [hworker.done], by simp [hworker.committed],
      fun _ _ => hworker.verified l (Or.inl rfl), by simp, ?_, fun hw => ⟨l, Or.inr rfl⟩⟩
    intro l' hl'
    cases hl'
    -- No lock is held, so the lookup dropped nothing.
    intro hlocked
    have hw := (hworker.locked l rfl).2 hlocked.2.2
    rw [hwriter] at hw
    exact absurd hw (by simp)
  | lockedOut l hphase hsubmits hrows hwriter =>
    rw [hphase] at hworker hlast
    obtain ⟨hnodup, horder⟩ := hlast (by simp)
    obtain ⟨hstands, hnone⟩ : s.store.lookup (jobs i) = l ∧ ∀ j, s.phase j ≠ .committed := by
      unfold Validates at hvalid
      simp only [hphase] at hvalid
      exact hvalid hwriter
    have hpending : pending = none := by
      cases hp : pending with
      | none => rfl
      | some p => exact absurd ((h.workers p).committed.1 hp) (hnone p)
    have htables := h.tables
    rw [hpending] at htables
    have hlookup : (serial jobs start order).lookup (jobs i) = l :=
      (SameTables.lookup htables (jobs i)).symm.trans hstands
    have hlocked : ((serial jobs start order).lookup (jobs i)).locksOut (jobs i) := by
      rw [hlookup]
      exact ⟨hsubmits, hrows, (hworker.locked l rfl).1 hwriter⟩
    refine ⟨order ++ [i], none, hnodup, ?_, ?_⟩
    · refine (Function.forall_update_iff s.phase _).2 ⟨⟨by simp, by simp, by simp, by simp, by simp,
        by simp⟩, fun j hj => (h.workers j).congr (horder j hj) (by rw [hpending]) ?_⟩
      rw [hwriter]
      simp [hj.symm]
    · have hsame := handle_sameTables_serial jobs start order i
      rw [handle_lockedOut hlocked] at hsame
      exact hsame.symm.trans htables
  | unrecorded l hphase hno =>
    rw [hphase] at hworker
    refine ⟨order, pending, h.nodup, ?_, h.tables⟩
    refine (Function.forall_update_iff s.phase _).2 ⟨?_, fun j _ => h.workers j⟩
    refine ⟨by simp [hworker.done], by simp [hworker.committed],
      fun _ _ => hworker.verified l (Or.inl rfl), by simp, ?_, fun hw => ⟨l, Or.inr rfl⟩⟩
    intro l' hl'
    cases hl'
    exact fun hlocked => hno ⟨hlocked.1, hlocked.2.1⟩
  | committed l hphase hwriter =>
    rw [hphase] at hworker hlast
    obtain ⟨hnodup, horder⟩ := hlast (by simp)
    obtain ⟨hstands, hnone⟩ : s.store.lookup (jobs i) = l ∧ ∀ j, s.phase j ≠ .committed := by
      unfold Validates at hvalid
      simp only [hphase] at hvalid
      exact hvalid
    have hpending : pending = none := by
      cases hp : pending with
      | none => rfl
      | some p => exact absurd ((h.workers p).committed.1 hp) (hnone p)
    have htables := h.tables
    rw [hpending] at htables
    have hlookup : (serial jobs start order).lookup (jobs i) = l :=
      (SameTables.lookup htables (jobs i)).symm.trans hstands
    have hfree : ∀ j, j ≠ i → (none = some j ↔ s.writer = some j) := by
      intro j hj
      rcases hwriter with hw | hw
      · rw [hw]
      · rw [hw]
        simp [hj.symm]
    have hcommit := SameTables.commit htables (jobs i) l
    have hhandle := handle_eq (serial jobs start order) (jobs i)
      (by rw [hserial]; exact hworker.verified l (Or.inr rfl))
      (by rw [hlookup]; exact hworker.answered l rfl)
    rw [hlookup] at hhandle
    have hcompacts : l.compacts s.store (jobs i) ↔
        l.compacts (serial jobs start order) (jobs i) := by
      unfold Lookup.compacts
      rw [SameTables.settlementQuorumEnabled htables]
    by_cases hdue : l.compacts s.store (jobs i)
    · rw [if_pos (hcompacts.1 hdue)] at hhandle
      rw [if_pos hdue]
      refine ⟨order, some i, h.nodup, ?_, ⟨l, hcommit, hhandle⟩⟩
      refine (Function.forall_update_iff s.phase _).2 ⟨⟨by simp [hworker.done], by simp, by simp,
        by simp, by simp, by simp⟩, fun j hj => (h.workers j).congr Iff.rfl ?_ (hfree j hj)⟩
      rw [hpending]
      simp [hj.symm]
    · rw [if_neg fun hd => hdue (hcompacts.2 hd)] at hhandle
      rw [if_neg hdue]
      refine ⟨order ++ [i], none, hnodup, ?_, ?_⟩
      · exact (Function.forall_update_iff s.phase _).2 ⟨⟨by simp, by simp, by simp, by simp, by simp,
          by simp⟩, fun j hj => (h.workers j).congr (horder j hj) (by rw [hpending]) (hfree j hj)⟩
      · have hsame := handle_sameTables_serial jobs start order i
        rw [hhandle] at hsame
        exact hsame.symm.trans hcommit
  | compacted hphase hwriter =>
    rw [hphase] at hworker hlast
    obtain ⟨hnodup, horder⟩ := hlast (by simp)
    have hpending := hworker.committed.2 rfl
    have htables := h.tables
    rw [hpending] at htables
    obtain ⟨l, hcommit, hhandle⟩ := htables
    refine ⟨order ++ [i], none, hnodup, ?_, ?_⟩
    · refine (Function.forall_update_iff s.phase _).2 ⟨⟨by simp, by simp, by simp, by simp, by simp,
        fun hw => by simp [hwriter] at hw⟩, fun j hj => (h.workers j).congr (horder j hj) ?_ Iff.rfl⟩
      rw [hpending]
      simp [hj.symm]
    · have hsame := handle_sameTables_serial jobs start order i
      rw [hhandle] at hsame
      exact hsame.symm.trans (hcommit.compaction (jobs i))

/-! ## Two workers -/

/-- Every announcement of a serial run detects the forks that it brings. -/
def DetectsInTurn (jobs : ι → Job) (store : LocalStore) : List ι → Prop
  | [] => True
  | i :: rest =>
      ((jobs i).v.verifyBill (store.trustedOperatorKey (jobs i).a.bundleOperatorKey) (jobs i).a.bill
          = true → AnnouncementDetects store (jobs i).v (jobs i).a (jobs i).now) ∧
        DetectsInTurn jobs (store.ingestTransferAnnouncementV3 (jobs i).v (jobs i).a (jobs i).now).2 rest

omit [DecidableEq ι] in
theorem Watched.serial (h : store.Watched) {order : List ι} (hdetects : DetectsInTurn jobs store order) :
    (serial jobs store order).Watched := by
  induction order generalizing store with
  | nil => exact h
  | cons i rest ih => exact ih (h.announcement hdetects.1) hdetects.2

theorem Watched.forksDetected (h : store.Watched) : store.ForksDetected := by
  intro row hrow other hother _ htoken t ht u hu hforks
  exact Or.inl (h.detected row hrow other hother htoken ⟨t, ht, u, hu, hforks⟩)

theorem SameTables.forksDetected (h : store.SameTables other) (hdetected : store.ForksDetected) :
    other.ForksDetected := by
  obtain ⟨log, rfl⟩ := h
  exact hdetected

/-- The two orders in which two workers can come. -/
def orders : List (List Bool) :=
  [[false, true], [true, false]]

theorem mem_orders {order : List Bool} (hnodup : order.Nodup) (hall : ∀ i, i ∈ order) :
    order ∈ orders := by
  have hlength : order.length ≤ 2 := List.Nodup.length_le_card hnodup
  have hfalse := hall false
  have htrue := hall true
  match order with
  | [] => exact absurd hfalse List.not_mem_nil
  | [i] =>
    have h := (List.mem_singleton.1 hfalse).trans (List.mem_singleton.1 htrue).symm
    exact absurd h (by decide)
  | [false, true] => exact List.mem_cons_self
  | [true, false] => exact List.mem_cons_of_mem _ List.mem_cons_self
  | [false, false] => exact absurd htrue (by decide)
  | [true, true] => exact absurd hfalse (by decide)
  | _ :: _ :: _ :: rest =>
    rw [List.length_cons, List.length_cons, List.length_cons] at hlength
    omega

/-- Two announcements leave the bill rows, statuses and conflict proofs of a serial run. Where both serial
    runs detect the forks, so does the store. -/
structure Serialisable (jobs : Bool → Job) (start store : LocalStore) : Prop where
  serial : ∃ order ∈ orders, (serial jobs start order).SameTables store
  detected : start.Watched → (∀ order ∈ orders, DetectsInTurn jobs start order) → store.ForksDetected

/-- Some order of the workers that are done explains the tables. -/
def Explained (jobs : Bool → Job) (start : LocalStore) (s : Shared Bool) : Prop :=
  ∃ order pending, Serialised jobs start s order pending

/-- In every run in which each lookup stands when its worker commits, the workers are serialisable. -/
theorem serialisable_of_reaches {jobs : Bool → Job} {s : Shared Bool}
    (hrun : Runs.Reaches (workerStep jobs) (Validates jobs) (sharedStart start) s)
    (hdone : ∀ i, s.phase i = .done) : Serialisable jobs start s.store := by
  have hexplained : Explained jobs start s :=
    hrun.invariant (fun _ _ _ ⟨_, _, hs⟩ hvalid hstep => hs.step hvalid (workerStep_cases hstep))
      ⟨[], none, serialised_start⟩
  obtain ⟨order, pending, h⟩ := hexplained
  have hpending : pending = none := by
    cases hp : pending with
    | none => rfl
    | some p =>
      have hcommitted := (h.workers p).committed.1 hp
      rw [hdone p] at hcommitted
      exact absurd hcommitted (by simp)
  have htables := h.tables
  rw [hpending] at htables
  have horder : order ∈ orders := mem_orders h.nodup fun i => (h.workers i).done.2 (hdone i)
  refine ⟨⟨order, horder, htables⟩, fun hwatched hdetects => ?_⟩
  exact SameTables.forksDetected htables (hwatched.serial (hdetects order horder)).forksDetected

/-- Two workers with the announcements of a fork. -/
def sampleJobs (i : Bool) : Job where
  v := everythingVerifies
  a := sampleAnnouncement (sampleBill (if i then "b2" else "b1")
    (if i then sampleTransfer "C" "y" else sampleTransfer "B" "x") none)
  now := if i then 20 else 10

/-- The shared store after some steps of the two workers, from an empty store. -/
def sampleShared (events : List (Bool × Work)) : Shared Bool :=
  (Runs.exec (workerStep sampleJobs) (sharedStart (initial false 0 false)) events).getD
    (sharedStart (initial false 0 false))

theorem exec_sampleShared {events : List (Bool × Work)}
    (h : (Runs.exec (workerStep sampleJobs) (sharedStart (initial false 0 false)) events).isSome = true) :
    Runs.exec (workerStep sampleJobs) (sharedStart (initial false 0 false)) events
      = some (sampleShared events) := by
  obtain ⟨s, hs⟩ := Option.isSome_iff_exists.1 h
  unfold sampleShared
  rw [hs, Option.getD_some]

/-- One worker after the other. -/
def inTurn : List (Bool × Work) :=
  [(false, .lookup), (false, .record), (false, .commit), (false, .compact), (true, .lookup),
    (true, .record), (true, .commit)]

theorem serialisable_inTurn : (∀ i, (sampleShared inTurn).phase i = .done) ∧
    Serialisable sampleJobs (initial false 0 false) (sampleShared inTurn).store := by
  have hdone : ∀ i, (sampleShared inTurn).phase i = .done := by decide
  refine ⟨hdone, serialisable_of_reaches ?_ hdone⟩
  have hstep : ∀ k : Fin 7, workerStep sampleJobs (sampleShared (inTurn.take k))
      (inTurn.get k) = some (sampleShared (inTurn.take (k + 1))) := by
    intro k
    fin_cases k <;> rfl
  have hvalid : ∀ k : Fin 7, Validates sampleJobs (sampleShared (inTurn.take k)) (inTurn.get k) := by
    intro k
    fin_cases k
    exacts [trivial, fun h => absurd h (by decide), ⟨by decide, by decide⟩, trivial, trivial,
      fun h => absurd h (by decide), ⟨by decide, by decide⟩]
  have hrun : ∀ k ≤ 7, Runs.Reaches (workerStep sampleJobs) (Validates sampleJobs)
      (sampleShared (inTurn.take 0)) (sampleShared (inTurn.take k)) := by
    intro k hk
    induction k with
    | zero => exact .refl
    | succ k ih => exact (ih (Nat.le_of_succ_le hk)).next (hvalid ⟨k, hk⟩) (hstep ⟨k, hk⟩)
  exact hrun 7 le_rfl

/-- Both workers look before either of them commits: both bills are kept and no conflict is stored. -/
theorem not_serialisable : ¬ ∀ (jobs : Bool → Job) (s : Shared Bool),
    (jobs false).a.bill.tokenId = (jobs true).a.bill.tokenId →
    Runs.Reaches (workerStep jobs) (fun _ _ => True) (sharedStart (initial false 0 false)) s →
    (∀ i, s.phase i = .done) → Serialisable jobs (initial false 0 false) s.store := by
  intro h
  let events : List (Bool × Work) := [(false, .lookup), (true, .lookup), (false, .record), (true, .record),
    (false, .commit), (false, .compact), (true, .commit), (true, .compact)]
  obtain ⟨order, horder, log, hlog⟩ := (h sampleJobs (sampleShared events) (by decide)
    (Runs.reaches_of_exec (exec_sampleShared (by decide)) (Runs.meetsAll_of_forall fun _ _ _ => trivial))
    (by decide)).serial
  have hconflicts : (sampleShared events).store.conflicts = (serial sampleJobs (initial false 0 false)
      order).conflicts := by rw [hlog]
  have hserial : ∀ order ∈ orders, (sampleShared events).store.conflicts
      ≠ (serial sampleJobs (initial false 0 false) order).conflicts := by decide
  exact hserial order horder hconflicts

end LocalStore
