import InternationalDollar.CachedBill
import InternationalDollar.LeafNumbering
import InternationalDollar.ProofBundle
import InternationalDollar.RecoveryWitness
import InternationalDollar.Lib.Runs

set_option autoImplicit false

/-! # Submitted branches (`TransparencyLog.append_transfer_announcement`)

A bill is submitted with all its recent transfers, but an operator reads the last one only: it looks for another
spend of its key, logs its hash and records a claim for it. So the transfers before it may conflict with a branch
that was accepted earlier. `exclusive_of_reaches` says when no two accepted branches conflict: if each
announcement continues what was logged. -/

/-! ## Claims -/

namespace Backend

/-- A text as comparisons of a hash column see it. -/
def compared : Backend → String → String
  | sqlite, text => text
  | mariadb, text => trimEnd text

theorem hashEquals_iff {backend : Backend} {stored text : String} :
    backend.hashEquals stored text = true ↔ backend.compared stored = backend.compared text := by
  cases backend <;> simp [hashEquals, compared]

theorem compared_hex (backend : Backend) {bytes : Bytes} (hlength : bytes.length = 32) :
    backend.compared (Text.hex bytes) = Text.hex bytes := by
  cases backend with
  | sqlite => rfl
  | mariadb =>
    refine trimEnd_eq_hex (Text.fromhex_hex bytes) hlength (Text.lower_hex bytes) ?_
    obtain ⟨blanks, happend, -⟩ := exists_trimEnd_append (Text.hex bytes)
    have hlong := congrArg List.length happend
    rw [List.length_append, String.length_toList, String.length_toList, Text.length_hex] at hlong
    omega

end Backend

namespace Storage

variable {backend : Backend} {s : Storage} {key hash : String}

/-- The spend keys and transfer hashes that have a claim. -/
def claims (backend : Backend) (s : Storage) : List (String × String) :=
  s.spendClaims.map fun c => (backend.compared c.spendKey, backend.compared c.transferHash)

theorem isSome_findClaim_iff : (s.findClaim backend key hash).isSome = true ↔
    (backend.compared key, backend.compared hash) ∈ s.claims backend := by
  simp [findClaim, claims, Backend.hashEquals_iff]

theorem conflictingClaim_eq_none : s.conflictingClaim backend key hash = none ↔
    ∀ claim ∈ s.claims backend, claim.1 = backend.compared key → claim.2 = backend.compared hash := by
  simp only [conflictingClaim, claims, List.find?_eq_none, List.forall_mem_map, Bool.and_eq_true,
    Bool.not_eq_true', not_and, Bool.not_eq_false, Backend.hashEquals_iff]

theorem mem_claims_insertClaim {row : SpendClaimRow} {claim : String × String} :
    claim ∈ (s.insertClaim backend row).claims backend ↔ claim ∈ s.claims backend ∨
      claim = (backend.compared row.spendKey, backend.compared row.transferHash) := by
  unfold insertClaim
  cases hfind : s.findClaim backend row.spendKey row.transferHash with
  | none => simp [claims]
  | some c =>
    have hmem := isSome_findClaim_iff.1 (Option.isSome_of_eq_some hfind)
    constructor
    · exact Or.inl
    · rintro (h | rfl)
      · exact h
      · exact hmem

theorem claims_indexClaim (leafIndex : Int) :
    (s.indexClaim backend key hash leafIndex).claims backend = s.claims backend := by
  simp only [claims, indexClaim, List.map_map]
  refine List.map_congr_left fun c _ => ?_
  rw [Function.comp_apply]
  split
  · rfl
  · rfl

theorem claims_rollback (working : Storage) :
    (backend.rollback s working).claims backend = s.claims backend := by
  cases backend <;> rfl

end Storage

/-! ## What appends do to the claims -/

namespace AppendServer

open Transaction

variable {server : AppendServer} {s : Storage} {known : List (String × String)}

/-- The tables have these claims. -/
def HasClaims (server : AppendServer) (known : List (String × String)) (session : Session Storage) : Prop :=
  session.tables.claims server.backend = known

/-- The tables have these claims, and one for a key and a hash. -/
def HasClaimsAnd (server : AppendServer) (known : List (String × String)) (key hash : String)
    (session : Session Storage) : Prop :=
  ∀ claim, claim ∈ session.tables.claims server.backend ↔
    claim ∈ known ∨ claim = (server.backend.compared key, server.backend.compared hash)

theorem appendLogEntryConn_claims (entryHash : String) (entryBytes leafHash : Bytes) (submittedAt : Int)
    (entryKind : String) (entryJson transferJson : Option Bytes) :
    Triple (server.HasClaims known) (appendLogEntryConn server.backend entryHash entryBytes leafHash
      submittedAt entryKind entryJson transferJson) (fun _ => server.HasClaims known) fun _ => True := by
  have hquery : ∀ {α : Type} (f : Storage → α), Triple (server.HasClaims known) (Transaction.query f)
      (fun _ => server.HasClaims known) fun _ => True := by
    intro α f
    exact Triple.query (fun _ _ _ => trivial) fun _ h _ => h
  refine Triple.bind (hquery _) fun existing => ?_
  cases existing with
  | some e =>
    refine Triple.bind (R := fun _ => server.HasClaims known) ?_ fun _ => ?_
    · unfold fillExisting
      by_cases hjson : (transferJson.isSome || entryJson.isSome) = true
      · rw [if_pos hjson]
        exact Triple.update (fun _ _ _ => trivial) fun _ h _ => h
      · rw [if_neg hjson]
        exact Triple.ret fun _ h => h
    · exact Triple.bind (hquery _) fun _ => Triple.ret fun _ h => h
  | none =>
    refine Triple.bind (R := fun _ => server.HasClaims known)
      (Triple.statement (fun _ _ _ => trivial) (fun _ _ h _ _ => h) fun _ _ _ _ _ => trivial) fun leafIndex => ?_
    refine Triple.bind (R := fun _ => server.HasClaims known) ?_ fun _ => ?_
    · refine Triple.statement (fun _ _ _ => trivial) ?_ fun _ _ _ _ _ => trivial
      intro session _ h _ hok
      unfold Storage.insertLogEntry at hok ⊢
      split at hok
      · cases hok
      · split at hok
        · cases hok
        · next hunique =>
          rw [if_neg hunique]
          exact h
    · exact Triple.bind (hquery _) fun _ => Triple.ret fun _ h => h

/-- The record of a claim adds the claim. -/
theorem recordSpendClaim_claims (t : Transfer) (key hash : String) (leafIndex firstSeen : Int) :
    Triple (server.HasClaims known) (server.recordSpendClaim t key hash leafIndex firstSeen)
      (fun _ => server.HasClaimsAnd known key hash) fun _ => True := by
  refine Triple.bind (R := fun _ => server.HasClaims known)
    (Triple.query (fun _ _ _ => trivial) fun _ h _ => h) fun _ => ?_
  refine Triple.bind (R := fun _ => server.HasClaimsAnd known key hash)
    (Triple.update (fun _ _ _ => trivial) fun session h _ claim => ?_) fun _ => ?_
  · rw [Storage.mem_claims_insertClaim, h]
  refine Triple.bind (R := fun _ => server.HasClaimsAnd known key hash)
    (Triple.update (fun _ _ _ => trivial) fun session h _ claim => ?_) fun _ => ?_
  · rw [Storage.claims_indexClaim]
    exact h claim
  refine Triple.bind (R := fun _ => server.HasClaimsAnd known key hash)
    (Triple.query (fun _ _ _ => trivial) fun _ h _ => h) fun _ => ?_
  refine Triple.bind (R := fun _ => server.HasClaimsAnd known key hash)
    (Triple.lift (fun _ _ h _ => h) fun _ _ _ _ => trivial) fun _ => ?_
  exact Triple.update (fun _ _ _ => trivial) fun _ h _ => h

/-- An accepted transfer has no other claim for its key, and has a claim afterwards. -/
theorem appendTransferConn_claims (t : Transfer) (key hash : String) (submittedAt : Int) :
    Triple (server.HasClaims known) (server.appendTransferConn t key hash submittedAt)
      (fun _ session => (∀ claim ∈ known, claim.1 = server.backend.compared key →
          claim.2 = server.backend.compared hash) ∧ server.HasClaimsAnd known key hash session)
      fun _ => True := by
  let free : Prop := ∀ claim ∈ known, claim.1 = server.backend.compared key →
    claim.2 = server.backend.compared hash
  refine Triple.bind (R := fun conflict session => (conflict = none → free) ∧ server.HasClaims known session)
    (Triple.query (fun _ _ _ => trivial) fun session h _ => ⟨fun hnone => ?_, h⟩) fun conflict => ?_
  · rw [Storage.conflictingClaim_eq_none, h] at hnone
    exact hnone
  refine Triple.bind (R := fun _ session => free ∧ server.HasClaims known session)
    (Triple.lift (fun session _ h hok => ⟨h.1 ?_, h.2⟩) fun _ _ _ _ => trivial) fun _ => ?_
  · exact Option.isNone_iff_eq_none.1 (Check.require_eq_ok.1 hok)
  refine Triple.bind (R := fun _ session => free ∧ server.HasClaims known session)
    (Triple.lift (fun _ _ h _ => h) fun _ _ _ _ => trivial) fun entryBytes => ?_
  refine Triple.bind (R := fun _ session => free ∧ server.HasClaims known session)
    (Triple.lift (fun _ _ h _ => h) fun _ _ _ _ => trivial) fun transferJson => ?_
  refine Triple.bind (R := fun _ session => free ∧ server.HasClaims known session)
    (Triple.frame free (appendLogEntryConn_claims _ _ _ _ _ _ _)) fun stored => ?_
  exact Triple.bind (Triple.frame free (recordSpendClaim_claims t key hash _ submittedAt))
    fun _ => Triple.ret fun _ h => h

/-- The claims after a transaction: as its computation leaves them, or as they were. -/
theorem run_claims {α : Type} {x : Transaction Storage α} {Q : α → Session Storage → Prop} (fault : Option Nat)
    (h : Triple (server.HasClaims (s.claims server.backend)) x Q fun _ => True) :
    (∃ a session, Q a session ∧ x.run server.backend.rollback fault s = (.ok a, session.tables)) ∨
      ∃ e u, x.run server.backend.rollback fault s = (.error e, u) ∧
        u.claims server.backend = s.claims server.backend := by
  rcases h.run server.backend.rollback (show server.HasClaims _ ⟨s, fault⟩ from rfl)
    (fun _ _ _ _ => trivial) with hdone | ⟨e, session, -, hrun⟩
  · exact Or.inl hdone
  · exact Or.inr ⟨e, _, hrun, Storage.claims_rollback session.tables⟩

/-- **What an append of a transfer does to the claims.** If it is accepted, all claims of its key are for it,
    it has a claim afterwards, and no other is added; otherwise they stay. -/
theorem appendTransferAnnouncement_cases (server : AppendServer) (clock : Int) (t : Transfer)
    (submittedAt : Int) (fault : Option Nat) (s : Storage) :
    (∃ answer u key hash, server.appendTransferAnnouncement clock t submittedAt fault s = (.ok answer, u) ∧
      t.spendKeyForTransfer server.crypto = .ok key ∧ t.transferHash server.crypto clock = .ok hash ∧
      (∀ claim ∈ s.claims server.backend, claim.1 = server.backend.compared key →
        claim.2 = server.backend.compared hash) ∧
      ∀ claim, claim ∈ u.claims server.backend ↔ claim ∈ s.claims server.backend ∨
        claim = (server.backend.compared key, server.backend.compared hash)) ∨
    ∃ e u, server.appendTransferAnnouncement clock t submittedAt fault s = (.error e, u) ∧
      u.claims server.backend = s.claims server.backend := by
  unfold appendTransferAnnouncement
  split
  · next e _ => exact Or.inr ⟨e, s, rfl, rfl⟩
  · next hash key hprepare =>
    obtain ⟨_, hhash, hprepare⟩ := Check.bind_eq_ok.1 hprepare
    obtain ⟨_, hkey, hprepare⟩ := Check.bind_eq_ok.1 hprepare
    cases hprepare
    rcases run_claims fault (appendTransferConn_claims t key hash submittedAt) with
      ⟨answer, session, ⟨hfree, hclaims⟩, hrun⟩ | herror
    · exact Or.inl ⟨answer, session.tables, key, hash, hrun, hkey, hhash, hfree, hclaims⟩
    · exact Or.inr herror

/-- An entry without a spend claim leaves the claims alone. -/
theorem claims_appendEntryHash (server : AppendServer) (entryHash : String) (submittedAt : Int)
    (transfer : Option Json) (entryKind : String) (entry : Option Json) (fault : Option Nat) (s : Storage) :
    (server.appendEntryHash entryHash submittedAt transfer entryKind entry fault s).2.claims server.backend
      = s.claims server.backend := by
  unfold appendEntryHash
  split
  · rfl
  · next entryBytes transferJson entryJson hprepare =>
    have htriple : Triple (server.HasClaims (s.claims server.backend))
        (server.appendEntryConn (Text.lower entryHash) entryBytes submittedAt entryKind entryJson transferJson)
        (fun _ => server.HasClaims (s.claims server.backend)) fun _ => True :=
      Triple.bind (appendLogEntryConn_claims _ _ _ _ _ _ _) fun _ => Triple.ret fun _ h => h
    rcases run_claims fault htriple with ⟨_, session, hclaims, hrun⟩ | ⟨_, _, hrun, hclaims⟩
    · rw [hrun]
      exact hclaims
    · rw [hrun]
      exact hclaims

end AppendServer

/-! ## The log -/

/-- What `decode_transfer_announcement` returns, with the network id of the envelope. -/
structure DecodedAnnouncement (ProofBundle : Type) where
  networkId : Int
  bill : BillV3
  proofBundle : Option ProofBundle
  archiveSegments : List ArchiveSegment

/-- A call of `append_transfer_announcement` at a time, with the hash of its message and the state of the
    operator. -/
structure TransferCall (ProofBundle : Type) where
  announcement : DecodedAnnouncement ProofBundle
  messageHash : String
  active : Bool
  allowRecovery : Bool
  recoveryWitnesses : List Json
  submittedAt : Option Int
  clock : Int
  fault : Option Nat

/-- A `TransparencyLog`. The checks of proof bundles depend on the trusted operator key and on the archive
    segments beside the bill. -/
structure TransparencyLog (ProofBundle : Type) where
  node : Node
  backend : Backend
  hashBuff : Bytes → Bytes
  envOperatorPublicKeys : List String
  publicKey : String
  enforceLateWitnesses : Bool
  maxRootLagSeconds : Int
  recoveryMinFeeds : Int
  checks : String → List ArchiveSegment → ProofChecks ProofBundle

namespace TransparencyLog

variable {ProofBundle : Type}

/-- The server that appends. -/
def server (log : TransparencyLog ProofBundle) : AppendServer :=
  ⟨log.backend, log.node.crypto, log.hashBuff⟩

/-- `_trusted_checkpoint_operator_keys`. -/
def trustedCheckpointOperatorKeys (log : TransparencyLog ProofBundle) : List String :=
  ((log.envOperatorPublicKeys ++ [log.publicKey]).filter (· ≠ "")).eraseDups

/-- `verify_transfer_announcement`, after the message was decoded. -/
def verifyTransferAnnouncement (log : TransparencyLog ProofBundle) (a : DecodedAnnouncement ProofBundle)
    (clock : Int) (trustedOperatorPublicKey : String) : Except String TokenState := do
  Check.require (a.networkId = defaultNetworkId) "TransferAnnouncementV3 network id mismatch"
  let state ← BillV3.verifyBill log.node (log.checks trustedOperatorPublicKey a.archiveSegments)
    ⟨a.proofBundle, none⟩ a.bill (some a.networkId) clock clock
  Check.require (a.bill.recentTransfers ≠ []) "TransferAnnouncementV3 requires a recent TransferV3"
  pure state

/-- The text of an exception. -/
def errorOf {α : Type} : Except String α → Option String
  | .ok _ => none
  | .error e => some e

/-- `_verify_transfer_announcement_for_append`: the first trusted key counts under which the announcement
    verifies. -/
def verifyTransferAnnouncementForAppend (log : TransparencyLog ProofBundle)
    (a : DecodedAnnouncement ProofBundle) (clock : Int) : Except String TokenState :=
  let results := log.trustedCheckpointOperatorKeys.map (log.verifyTransferAnnouncement a clock)
  match results.findSome? Except.toOption with
  | some state => .ok state
  | none => .error ("v3 transfer announcement is invalid: " ++
      "; ".intercalate (results.filterMap errorOf).eraseDups)

/-- `_verify_late_recovery_witnesses`, which only a late transfer has to pass. -/
def verifyLateRecoveryWitnesses (log : TransparencyLog ProofBundle) (call : TransferCall ProofBundle)
    (transferTimestamp : Int) : Except String Unit :=
  if log.enforceLateWitnesses ∧
      call.submittedAt.getD call.clock - transferTimestamp > log.maxRootLagSeconds then do
    let _ ← RecoveryWitness.recoveryWitnessQuorum log.node.crypto call.recoveryWitnesses call.messageHash
      transferTimestamp log.recoveryMinFeeds log.maxRootLagSeconds none
    pure ()
  else pure ()

/-- What `append_transfer_announcement` does before its transaction: it finds the transfer to append. The
    hash and the spend key, which may raise here, are computed again by `AppendServer`. -/
def transferToAppend (log : TransparencyLog ProofBundle) (call : TransferCall ProofBundle) :
    Except String Transfer := do
  Check.require (call.allowRecovery = true ∨ call.active = true) "operator_recovering"
  let state ← log.verifyTransferAnnouncementForAppend call.announcement call.clock
  let transfer ← Check.ofOption call.announcement.bill.recentTransfers.getLast? "list index out of range"
  let _ ← transfer.transferHash log.node.crypto call.clock
  Check.require (state.sequence ≠ 0) "genesis bill has no transfer to log"
  let _ ← transfer.spendKeyForTransfer log.node.crypto
  log.verifyLateRecoveryWitnesses call transfer.timestamp
  pure transfer

/-- `append_transfer_announcement`. -/
def appendTransferAnnouncement (log : TransparencyLog ProofBundle) (call : TransferCall ProofBundle)
    (s : Storage) : Except String Accepted × Storage :=
  match log.transferToAppend call with
  | .error e => (.error e, s)
  | .ok t => log.server.appendTransferAnnouncement call.clock t (call.submittedAt.getD call.clock) call.fault s

/-- The tables, and the bills of the announcements that were accepted. -/
structure State where
  storage : Storage
  accepted : List BillV3

/-- A call of `append_transfer_announcement`, or of `append_entry_hash`, in which
    `append_checkpoint_announcement` ends, too. -/
inductive Event (ProofBundle : Type) where
  | transfer (call : TransferCall ProofBundle)
  | entry (entryHash : String) (submittedAt : Int) (transfer : Option Json) (entryKind : String)
      (entry : Option Json) (fault : Option Nat)

/-- The accepted bills after an answer. -/
def acceptedAfter (accepted : List BillV3) (bill : BillV3) : Except String Accepted → List BillV3
  | .ok _ => accepted ++ [bill]
  | .error _ => accepted

def step (log : TransparencyLog ProofBundle) (s : State) : Event ProofBundle → Option State
  | .transfer call =>
      let result := log.appendTransferAnnouncement call s.storage
      some ⟨result.2, acceptedAfter s.accepted call.announcement.bill result.1⟩
  | .entry entryHash submittedAt transfer entryKind entry fault =>
      some { s with storage :=
        (log.server.appendEntryHash entryHash submittedAt transfer entryKind entry fault s.storage).2 }

/-- A log without entries. -/
def initial : State := ⟨.empty, []⟩

/-- No two transfers of the bills spend one key and have different hashes. -/
def Exclusive (crypto : Crypto) (bills : List BillV3) : Prop :=
  ∀ bill ∈ bills, ∀ other ∈ bills, ∀ t ∈ bill.recentTransfers, ∀ u ∈ other.recentTransfers,
    ∀ key, t.spendKeyForTransfer crypto = .ok key → u.spendKeyForTransfer crypto = .ok key →
      ∀ clock clock' hash hash', t.transferHash crypto clock = .ok hash →
        u.transferHash crypto clock' = .ok hash' → hash = hash'

/-- The transfer has its claim. -/
def IsClaimed (log : TransparencyLog ProofBundle) (s : Storage) (t : Transfer) : Prop :=
  ∀ key clock hash, t.spendKeyForTransfer log.node.crypto = .ok key →
    t.transferHash log.node.crypto clock = .ok hash → (s.findClaim log.backend key hash).isSome = true

/-- An announcement continues what was logged: of its recent transfers only the last has no claim yet. -/
def Continues (log : TransparencyLog ProofBundle) (s : State) : Event ProofBundle → Prop
  | .transfer call => ∀ t ∈ call.announcement.bill.recentTransfers.dropLast, log.IsClaimed s.storage t
  | .entry .. => True

/-! ## Appends and claims -/

section Claims

variable {log : TransparencyLog ProofBundle} {call : TransferCall ProofBundle} {t : Transfer}

/-- Only the last recent transfer is appended. -/
theorem getLast?_of_transferToAppend (h : log.transferToAppend call = .ok t) :
    call.announcement.bill.recentTransfers.getLast? = some t := by
  simp only [transferToAppend, Check.bind_eq_ok, Check.pure_eq_ok] at h
  obtain ⟨_, -, _, -, transfer, hlast, _, -, _, -, _, -, _, -, rfl⟩ := h
  exact Check.ofOption_eq_ok.1 hlast

/-- **What a call does to the claims.** If it is accepted, all claims of the key of its last transfer are for
    that transfer, which has a claim afterwards, and no other is added; otherwise they stay. -/
theorem appendTransferAnnouncement_cases (log : TransparencyLog ProofBundle) (call : TransferCall ProofBundle)
    (s : Storage) :
    (∃ answer u t key hash, log.appendTransferAnnouncement call s = (.ok answer, u) ∧
      call.announcement.bill.recentTransfers.getLast? = some t ∧
      t.spendKeyForTransfer log.node.crypto = .ok key ∧ t.transferHash log.node.crypto call.clock = .ok hash ∧
      (∀ claim ∈ s.claims log.backend, claim.1 = log.backend.compared key →
        claim.2 = log.backend.compared hash) ∧
      ∀ claim, claim ∈ u.claims log.backend ↔ claim ∈ s.claims log.backend ∨
        claim = (log.backend.compared key, log.backend.compared hash)) ∨
    ∃ e u, log.appendTransferAnnouncement call s = (.error e, u) ∧
      u.claims log.backend = s.claims log.backend := by
  unfold appendTransferAnnouncement
  split
  · next e _ => exact Or.inr ⟨e, s, rfl, rfl⟩
  · next t ht =>
    have hlast := getLast?_of_transferToAppend ht
    rcases log.server.appendTransferAnnouncement_cases call.clock t (call.submittedAt.getD call.clock)
      call.fault s with ⟨answer, u, key, hash, hcall, hclaims⟩ | herror
    · exact Or.inl ⟨answer, u, t, key, hash, hcall, hlast, hclaims⟩
    · exact Or.inr herror

end Claims

/-! ## Runs -/

/-- What a run keeps: each key is claimed for one transfer, and every recent transfer of an accepted bill
    has its claim. -/
structure Covered (log : TransparencyLog ProofBundle) (s : State) : Prop where
  unique : ∀ claim ∈ s.storage.claims log.backend, ∀ other ∈ s.storage.claims log.backend,
    claim.1 = other.1 → claim.2 = other.2
  claimed : ∀ bill ∈ s.accepted, ∀ t ∈ bill.recentTransfers, log.IsClaimed s.storage t

theorem compared_transferHash (log : TransparencyLog ProofBundle) {t : Transfer} {clock : Int} {hash : String}
    (h : t.transferHash log.node.crypto clock = .ok hash) : log.backend.compared hash = hash := by
  have hlength := (Transfer.hashed_of_transferHash h).hash_hex.1
  obtain ⟨_, -, hdigest⟩ := Check.bind_eq_ok.1 h
  obtain ⟨digest, -, hpure⟩ := Check.bind_eq_ok.1 hdigest
  obtain rfl := Check.pure_eq_ok.1 hpure
  rw [Text.length_hex] at hlength
  exact log.backend.compared_hex (by omega)

variable {log : TransparencyLog ProofBundle}

theorem covered_initial : log.Covered initial where
  unique := fun _ h => absurd h List.not_mem_nil
  claimed := fun _ h => absurd h List.not_mem_nil

theorem IsClaimed.mono {s u : Storage} {t : Transfer} (h : log.IsClaimed s t)
    (hclaims : s.claims log.backend ⊆ u.claims log.backend) : log.IsClaimed u t := by
  intro key clock hash hkey hhash
  rw [Storage.isSome_findClaim_iff]
  exact hclaims (Storage.isSome_findClaim_iff.1 (h key clock hash hkey hhash))

theorem Covered.congr {s : State} {storage : Storage} (h : log.Covered s)
    (hclaims : storage.claims log.backend = s.storage.claims log.backend) :
    log.Covered { s with storage } where
  unique := by
    rw [hclaims]
    exact h.unique
  claimed := fun bill hbill t ht => (h.claimed bill hbill t ht).mono (by rw [hclaims]; exact List.Subset.refl _)

/-- An announcement that continues what was logged keeps the claims unique, and covers its bill if it is
    accepted. -/
theorem Covered.announced {s s' : State} {call : TransferCall ProofBundle} (h : log.Covered s)
    (hcontinues : log.Continues s (.transfer call)) (hstep : log.step s (.transfer call) = some s') :
    log.Covered s' := by
  rcases log.appendTransferAnnouncement_cases call s.storage with
    ⟨answer, storage, last, key, hash, hcall, hlast, hkey, hhash, hfree, hclaims⟩ | ⟨e, storage, hcall, hclaims⟩
  · simp only [step, hcall, acceptedAfter, Option.some.injEq] at hstep
    subst hstep
    have hgrow : s.storage.claims log.backend ⊆ storage.claims log.backend :=
      fun claim hclaim => (hclaims claim).2 (Or.inl hclaim)
    constructor
    · intro claim hclaim other hother hsame
      rcases (hclaims claim).1 hclaim with hclaim | rfl
      · rcases (hclaims other).1 hother with hother | rfl
        · exact h.unique claim hclaim other hother hsame
        · exact hfree claim hclaim hsame
      · rcases (hclaims other).1 hother with hother | rfl
        · exact (hfree other hother hsame.symm).symm
        · rfl
    · intro bill hbill t ht
      rcases List.mem_append.1 hbill with hbill | hbill
      · exact (h.claimed bill hbill t ht).mono hgrow
      · obtain rfl := List.mem_singleton.1 hbill
        rw [← List.dropLast_append_getLast? last hlast, List.mem_append, List.mem_singleton] at ht
        rcases ht with ht | rfl
        · exact (hcontinues t ht).mono hgrow
        · intro key' clock' hash' hkey' hhash'
          obtain rfl := Except.ok.inj (hkey.symm.trans hkey')
          obtain rfl := Transfer.transferHash_unique hhash hhash'
          exact Storage.isSome_findClaim_iff.2 ((hclaims _).2 (Or.inr rfl))
  · simp only [step, hcall, acceptedAfter, Option.some.injEq] at hstep
    subst hstep
    exact h.congr hclaims

theorem Covered.step {s s' : State} {event : Event ProofBundle} (h : log.Covered s)
    (hcontinues : log.Continues s event) (hstep : log.step s event = some s') : log.Covered s' := by
  cases event with
  | entry entryHash submittedAt transfer entryKind entry fault =>
    cases hstep
    exact h.congr (log.server.claims_appendEntryHash _ _ _ _ _ _ _)
  | transfer call => exact h.announced hcontinues hstep

/-- Where all transfers have their claims, and each key is claimed for one transfer, no two conflict. -/
theorem Covered.exclusive {s : State} (h : log.Covered s) : Exclusive log.node.crypto s.accepted := by
  intro bill hbill other hother t ht u hu key hkey hkey' clock clock' hash hash' hhash hhash'
  have hclaim := Storage.isSome_findClaim_iff.1 (h.claimed bill hbill t ht key clock hash hkey hhash)
  have hclaim' := Storage.isSome_findClaim_iff.1 (h.claimed other hother u hu key clock' hash' hkey' hhash')
  have heq : log.backend.compared hash = log.backend.compared hash' := h.unique _ hclaim _ hclaim' rfl
  rwa [compared_transferHash log hhash, compared_transferHash log hhash'] at heq

theorem step_of_accepted {s : State} {call : TransferCall ProofBundle} {answer : Accepted}
    (h : (log.appendTransferAnnouncement call s.storage).1 = .ok answer) :
    log.step s (.transfer call) = some ⟨(log.appendTransferAnnouncement call s.storage).2,
      s.accepted ++ [call.announcement.bill]⟩ := by
  simp only [step, h, acceptedAfter]

/-! ## Two branches of one bill -/

/-- A log that trusts its own key. -/
def sampleLog : TransparencyLog CheckpointCore where
  node := sampleNode
  backend := .sqlite
  hashBuff := id
  envOperatorPublicKeys := []
  publicKey := "indpk3:0RaI40RaI40RaI40RaI40RaI40RaI40RaI40RaI4"
  enforceLateWitnesses := false
  maxRootLagSeconds := 300
  recoveryMinFeeds := 1
  checks := fun _ _ => BillV3.sampleChecks

/-- A transfer that the owner of the sample bill signed. -/
def sampleTransfer (sequence : Int) (previousHash recipient : String) (timestamp : Int) (signature : String) :
    Transfer where
  type := transferType
  version := 3
  networkId := 1
  signatureAlgorithm := BinaryV3.signatureAlgorithmId
  tokenId := BillV3.sampleCachedBill.tokenId
  sequence := sequence
  previousHash := previousHash
  senderAddress := "x345U8rJ9gG4gxXigpgJ6J4QX16Ureagx"
  senderPublicKey := "indpk3:0RaI40RaI40RaI40RaI40RaI40RaI40RaI40RaI4"
  recipientAddress := recipient
  timestamp := timestamp
  metadata := .obj []
  signature := signature

/-- The owner passes the bill on. -/
def sampleBranch : Transfer :=
  sampleTransfer 2 zeroHash "x36QeHmmQoeHfGMW7jgh3KgNLb2cKdR4x" 5000
    ("21623034c37a87bd8b2727a321c196d418ecdb7f00da35e74c19bef3842decd2" ++
      "cf643ae2a60fbfae70e076afe6f5cb29c30c90236855b7acd596ce47a8382952")

/-- The owner passes the bill on to himself. -/
def sampleFork : Transfer :=
  sampleTransfer 2 zeroHash "x345U8rJ9gG4gxXigpgJ6J4QX16Ureagx" 5000
    ("8d0db38a6baf0ca227c06a6af236fe896035825aed18ce0bdd4dbbcf2d2d5bd4" ++
      "de0866f4765df628a0e9ef4b3a3cf6c677b674513a2f250cc0d5a8e8299b9754")

/-- And then on. -/
def sampleForkNext : Transfer :=
  sampleTransfer 3 "8fedf1fa81b87e2ec34d7d46097dfc7533d71eb8fc967ef736d19ae4d600bd86"
    "x36QeHmmQoeHfGMW7jgh3KgNLb2cKdR4x" 5001
    ("8923d905a1bc4dfe20ad330215e8805d5a3e9397196b8514c5e2c2f311d79cbb" ++
      "d750971bab3037cc06de14550d83d67bfa949ae4538a60c7d76562877fada4bb")

theorem sampleTransfers_evaluated :
    ∀ item ∈ [(sampleBranch, "4bcd5be8b9d382c7dfca3093a7ae43036af3796b95dde555b4dcd90aa6c73be0",
        "db79e13e58a3056ae9227e6d85877ee7129c92c856bb776c749ece743792137b"),
      (sampleFork, "8fedf1fa81b87e2ec34d7d46097dfc7533d71eb8fc967ef736d19ae4d600bd86",
        "db79e13e58a3056ae9227e6d85877ee7129c92c856bb776c749ece743792137b"),
      (sampleForkNext, "9bc4415ad7318a449e41ec0b9e2c2b5848cee2374e58b7d2fce91d82fc2699cb",
        "37e5defaefdb79d6946cfef93fe758fdba4d2944c2a92855a578549e6daedc44")],
      item.1.transferHash sampleCrypto 5000 = .ok item.2.1 ∧
        item.1.spendKeyForTransfer sampleCrypto = .ok item.2.2 ∧
        Check.returns (item.1.verifyTransferSignature sampleCrypto 5000) = true := by
  decide +kernel

/-- The sample bill with transfers. -/
def sampleBill (transfers : List Transfer) : BillV3 :=
  { BillV3.sampleCachedBill with recentTransfers := transfers }

/-- The sample bill is submitted with recent transfers. -/
def sampleCall (transfers : List Transfer) : TransferCall CheckpointCore where
  announcement := ⟨1, sampleBill transfers, some BillV3.sampleCachedBill.checkpointCore, []⟩
  messageHash := ""
  active := true
  allowRecovery := false
  recoveryWitnesses := []
  submittedAt := none
  clock := 5000
  fault := none

/-- The transaction that appends a transfer to the sample log. -/
def sampleAppend (t : Transfer) (hash key : String) (s : Storage) : Except String Accepted × Storage :=
  (sampleLog.server.appendTransferConn t key hash 5000).run sampleLog.server.backend.rollback none s

/-- A sample bill that verifies is submitted up to the tables. -/
theorem appendTransferAnnouncement_sample {transfers : List Transfer} {t : Transfer} {state : BaseState}
    {key hash : String} (s : Storage)
    (hverify : BillV3.verifyBillState sampleNode BillV3.sampleChecks
      ⟨some BillV3.sampleCachedBill.checkpointCore, none⟩ (sampleBill transfers) (some 1) 5000 5000 = .ok state)
    (hsequence : state.sequence ≠ 0) (hlast : transfers.getLast? = some t)
    (hhash : t.transferHash sampleCrypto 5000 = .ok hash) (hkey : t.spendKeyForTransfer sampleCrypto = .ok key) :
    sampleLog.appendTransferAnnouncement (sampleCall transfers) s = sampleAppend t hash key s := by
  have hne : transfers ≠ [] := by
    rintro rfl
    cases hlast
  have hkeys : sampleLog.trustedCheckpointOperatorKeys = [sampleLog.publicKey] := by decide
  have hannouncement : sampleLog.verifyTransferAnnouncement (sampleCall transfers).announcement 5000
      sampleLog.publicKey = .ok (state.tokenStateFromV3State BillV3.sampleCachedBill.tokenId) := by
    have hbill : BillV3.verifyBill sampleNode BillV3.sampleChecks
        ⟨some BillV3.sampleCachedBill.checkpointCore, none⟩ (sampleBill transfers) (some 1) 5000 5000
          = .ok (state.tokenStateFromV3State BillV3.sampleCachedBill.tokenId) :=
      Check.bind_eq_ok.2 ⟨state, hverify, rfl⟩
    exact Check.bind_eq_ok.2 ⟨(), rfl, Check.bind_eq_ok.2 ⟨_, hbill,
      Check.bind_eq_ok.2 ⟨(), Check.require_of hne _, rfl⟩⟩⟩
  have happend : sampleLog.verifyTransferAnnouncementForAppend (sampleCall transfers).announcement 5000
      = .ok (state.tokenStateFromV3State BillV3.sampleCachedBill.tokenId) := by
    simp only [verifyTransferAnnouncementForAppend, hkeys, List.map_cons, List.map_nil, hannouncement]
    rfl
  have htransfer : sampleLog.transferToAppend (sampleCall transfers) = .ok t :=
    Check.bind_eq_ok.2 ⟨(), rfl, Check.bind_eq_ok.2 ⟨_, happend, Check.bind_eq_ok.2 ⟨t,
      Check.ofOption_eq_ok.2 hlast, Check.bind_eq_ok.2 ⟨hash, hhash, Check.bind_eq_ok.2 ⟨(),
        Check.require_of hsequence _, Check.bind_eq_ok.2 ⟨key, hkey, Check.bind_eq_ok.2 ⟨(), rfl, rfl⟩⟩⟩⟩⟩⟩⟩
  have hprepare : sampleLog.server.prepareTransfer 5000 t = .ok (hash, key) :=
    Check.bind_eq_ok.2 ⟨hash, hhash, Check.bind_eq_ok.2 ⟨key, hkey, rfl⟩⟩
  simp only [appendTransferAnnouncement, htransfer]
  show sampleLog.server.appendTransferAnnouncement 5000 t 5000 none s = _
  rw [AppendServer.appendTransferAnnouncement, hprepare]
  rfl

/-- The transaction that appends the branch. -/
def sampleAppendBranch (s : Storage) : Except String Accepted × Storage :=
  sampleAppend sampleBranch "4bcd5be8b9d382c7dfca3093a7ae43036af3796b95dde555b4dcd90aa6c73be0"
    "db79e13e58a3056ae9227e6d85877ee7129c92c856bb776c749ece743792137b" s

/-- Both branches are appended. -/
theorem appendTransferConn_sample :
    Check.returns (sampleAppendBranch .empty).1 = true ∧
      Check.returns (sampleAppend sampleForkNext
        "9bc4415ad7318a449e41ec0b9e2c2b5848cee2374e58b7d2fce91d82fc2699cb"
        "37e5defaefdb79d6946cfef93fe758fdba4d2944c2a92855a578549e6daedc44"
        (sampleAppendBranch .empty).2).1 = true := by
  decide +kernel

/-- A signed sample transfer that follows a state spends it. -/
theorem spends_sampleTransfer {sequence timestamp : Int} {previousHash recipient signature hash : String}
    {state : BaseState}
    (hhash : (sampleTransfer sequence previousHash recipient timestamp signature).transferHash sampleCrypto 5000
      = .ok hash)
    (hsigned : Check.returns ((sampleTransfer sequence previousHash recipient timestamp
      signature).verifyTransferSignature sampleCrypto 5000) = true)
    (hsequence : sequence = state.sequence + 1) (hprevious : previousHash = state.lastTransferHash)
    (howner : state.ownerAddress = "x345U8rJ9gG4gxXigpgJ6J4QX16Ureagx")
    (htime : state.lastTransferTimestamp < timestamp)
    (hday : (state.advance (sampleTransfer sequence previousHash recipient timestamp signature)
      hash).transfersInLastDay ≤ maxTransfersPerBillPerDay) :
    BaseState.replayTransfer sampleCrypto BillV3.sampleCachedBill.tokenId 1 5000 5000 true state
        (sampleTransfer sequence previousHash recipient timestamp signature)
      = .ok (state.advance (sampleTransfer sequence previousHash recipient timestamp signature) hash) := by
  obtain ⟨⟨⟩, hvalid⟩ := Check.returns_iff.1 hsigned
  exact BaseState.replayTransfer_eq_ok.2 ⟨hash, ⟨(Transfer.hashed_of_transferHash hhash).shape, rfl, hsequence,
    hprevious, howner.symm, htime, hday, hvalid, hhash⟩, rfl⟩

/-- The owner passes the bill on. -/
theorem exists_acceptedBranch : ∃ s, sampleLog.step initial (.transfer (sampleCall [sampleBranch])) = some s ∧
    s.accepted = [sampleBill [sampleBranch]] ∧ s.storage = (sampleAppendBranch .empty).2 := by
  have hall := sampleTransfers_evaluated
  simp only [List.forall_mem_cons] at hall
  obtain ⟨⟨hhash, hkey, hsigned⟩, -⟩ := hall
  obtain ⟨-, -, hempty, -⟩ := BillV3.exists_spend_sampleCachedBill
  have hbranch := (BillV3.verifyBillState_append hempty).2
    (spends_sampleTransfer hhash hsigned rfl rfl rfl (by decide) (by decide))
  have hcall : sampleLog.appendTransferAnnouncement (sampleCall [sampleBranch]) .empty
      = sampleAppendBranch .empty :=
    appendTransferAnnouncement_sample .empty hbranch (by decide) rfl hhash hkey
  obtain ⟨answer, haccept⟩ := Check.returns_iff.1 appendTransferConn_sample.1
  have hstep : sampleLog.step initial (.transfer (sampleCall [sampleBranch])) = some
      ⟨(sampleLog.appendTransferAnnouncement (sampleCall [sampleBranch]) .empty).2,
        [sampleBill [sampleBranch]]⟩ :=
    step_of_accepted ((congrArg Prod.fst hcall).trans haccept)
  refine ⟨_, hstep, rfl, ?_⟩
  rw [hcall]

/-- Then he also passes it on to himself and on. Both branches are accepted. -/
theorem exists_acceptedFork : ∃ s, Runs.exec sampleLog.step initial
      [.transfer (sampleCall [sampleBranch]), .transfer (sampleCall [sampleFork, sampleForkNext])] = some s ∧
    s.accepted = [sampleBill [sampleBranch], sampleBill [sampleFork, sampleForkNext]] := by
  have hall := sampleTransfers_evaluated
  simp only [List.forall_mem_cons] at hall
  obtain ⟨-, ⟨hhash, -, hsigned⟩, ⟨hhashNext, hkeyNext, hsignedNext⟩, -⟩ := hall
  obtain ⟨-, -, hempty, -⟩ := BillV3.exists_spend_sampleCachedBill
  have hfork := (BillV3.verifyBillState_append hempty).2
    (spends_sampleTransfer hhash hsigned rfl rfl rfl (by decide) (by decide))
  have hnext := (BillV3.verifyBillState_append hfork).2
    (spends_sampleTransfer hhashNext hsignedNext rfl rfl rfl (by decide) (by decide))
  obtain ⟨s, hstep, haccepted, hstorage⟩ := exists_acceptedBranch
  have hcall : sampleLog.appendTransferAnnouncement (sampleCall [sampleFork, sampleForkNext]) s.storage
      = sampleAppend sampleForkNext _ _ s.storage :=
    appendTransferAnnouncement_sample s.storage hnext (by decide) rfl hhashNext hkeyNext
  obtain ⟨answer, haccept⟩ := Check.returns_iff.1 appendTransferConn_sample.2
  rw [← hstorage, ← hcall] at haccept
  refine ⟨_, Option.bind_eq_some_iff.2 ⟨s, hstep, Option.bind_eq_some_iff.2 ⟨_, step_of_accepted haccept, rfl⟩⟩, ?_⟩
  rw [haccepted]
  rfl

end TransparencyLog
