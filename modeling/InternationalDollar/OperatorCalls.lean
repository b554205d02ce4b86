import InternationalDollar.CurrentSpendMap
import InternationalDollar.WirePacking

set_option autoImplicit false

/-! # The calls of an operator

What appends and `publish_root` do to the tables that hold the map of their claims. An append leaves no trace where
it raises. `publish_root` catches the exception that ends the reconciliation early, and commits what was written up
to there; so what it does is said where the reconciliation ends (`Sound.publishRoot`). -/

/-! ## Appends -/

/-- Entries were added or filled, and no claims. -/
structure Storage.Grown (backend : Backend) (s u : Storage) : Prop where
  spendClaims : u.spendClaims = s.spendClaims
  kept : s.Kept u
  distinct : s.Distinct backend → u.Distinct backend
  leaf : s.leaf <+: u.leaf

/-- What a transaction of `append_log_entry_conn` does to the entries. -/
structure Appended (backend : Backend) (s : Storage) (entryHash : String) (transferJson : Option Bytes)
    (stored : Stored) (u : Storage) : Prop extends s.Grown backend u where
  entry : ∃ e ∈ u.logEntries, backend.compared e.entryHash = backend.compared entryHash ∧
    e.leafIndex = stored.leafIndex ∧
    e.transferJson = ((s.findEntry backend entryHash).bind LogEntry.transferJson).or transferJson
  known : ∀ e, s.findEntry backend entryHash = some e → stored.leafIndex = e.leafIndex ∧ u.leaf = s.leaf
  fresh : s.findEntry backend entryHash = none → stored.leafIndex = s.lastLeafId + 1 ∧
    u.leaf.length = s.leaf.length + 1

namespace Storage

variable {backend : Backend} {s u : Storage} {entryHash : String}

/-- An entry with the texts that it lacked. -/
def filled (backend : Backend) (entryHash : String) (entryJson transferJson : Option Bytes) (e : LogEntry) :
    LogEntry :=
  if backend.hashEquals e.entryHash entryHash then
    { e with transferJson := e.transferJson.or transferJson, entryJson := e.entryJson.or entryJson }
  else e

theorem filled_kept (backend : Backend) (entryHash : String) (entryJson transferJson : Option Bytes)
    (e : LogEntry) :
    (filled backend entryHash entryJson transferJson e).entryHash = e.entryHash ∧
      (filled backend entryHash entryJson transferJson e).leafIndex = e.leafIndex ∧
      ∀ raw, e.transferJson = some raw →
        (filled backend entryHash entryJson transferJson e).transferJson = some raw := by
  unfold filled
  split
  · refine ⟨rfl, rfl, fun raw hraw => ?_⟩
    show e.transferJson.or transferJson = some raw
    rw [hraw, Option.some_or]
  · exact ⟨rfl, rfl, fun raw hraw => hraw⟩

theorem fillLogEntry_none : s.fillLogEntry backend entryHash none none = s := by
  have hrows : s.logEntries.map (filled backend entryHash none none) = s.logEntries := by
    refine (List.map_congr_left fun e _ => ?_).trans (List.map_id _)
    unfold filled
    simp
  exact congrArg (fun rows => { s with logEntries := rows }) hrows

/-- The update of an entry that is there already. -/
theorem appended_fill {e : LogEntry} (hfind : s.findEntry backend entryHash = some e)
    (entryJson transferJson : Option Bytes) (duplicate : Bool) (treeSize : Nat) :
    Appended backend s entryHash transferJson ⟨duplicate, e.leafIndex, treeSize⟩
      (s.fillLogEntry backend entryHash entryJson transferJson) where
  spendClaims := rfl
  kept := by
    intro f hf raw hraw
    obtain ⟨hhash, hleaf, hbody⟩ := filled_kept backend entryHash entryJson transferJson f
    exact ⟨_, List.mem_map_of_mem hf, hhash, hleaf, hbody raw hraw⟩
  distinct := by
    intro h
    refine List.pairwise_map.2 (h.imp fun {f g} hne => ?_)
    obtain ⟨hf, -⟩ := filled_kept backend entryHash entryJson transferJson f
    obtain ⟨hg, -⟩ := filled_kept backend entryHash entryJson transferJson g
    show backend.compared (filled backend entryHash entryJson transferJson f).entryHash
      ≠ backend.compared (filled backend entryHash entryJson transferJson g).entryHash
    rwa [hf, hg]
  leaf := List.prefix_rfl
  entry := by
    have hequals : backend.hashEquals e.entryHash entryHash = true :=
      @List.find?_some _ (fun f : LogEntry => backend.hashEquals f.entryHash entryHash) e _ hfind
    refine ⟨filled backend entryHash entryJson transferJson e,
      List.mem_map_of_mem (List.mem_of_find?_eq_some hfind), ?_⟩
    rw [hfind, filled, if_pos hequals]
    exact ⟨Backend.hashEquals_iff.1 hequals, rfl, rfl⟩
  known := by
    intro f hf
    obtain rfl := Option.some.inj (hfind.symm.trans hf)
    exact ⟨rfl, rfl⟩
  fresh := by
    intro hnone
    rw [hfind] at hnone
    cases hnone

theorem compared_hashColumn {text column : String} (h : backend.hashColumn text = .ok column) :
    backend.compared column = backend.compared text := by
  cases backend with
  | sqlite => rw [Except.ok.inj h]
  | mariadb =>
    obtain ⟨-, hpure⟩ := Check.check_bind_eq_ok.1 h
    obtain rfl := Check.pure_eq_ok.1 hpure
    exact Backend.trimEnd_trimEnd text

/-- A new leaf with its entry. -/
theorem appended_insert {entryBytes leafHash : Bytes} {submittedAt : Int} {entryKind : String}
    {entryJson transferJson : Option Bytes} (hfind : s.findEntry backend entryHash = none)
    (hinsert : ((s.insertLeaf entryBytes leafHash).2.insertLogEntry backend
      ⟨entryHash, s.lastLeafId + 1, submittedAt, entryKind, entryJson, transferJson⟩) = (.ok (), u))
    (duplicate : Bool) (treeSize : Nat) :
    Appended backend s entryHash transferJson ⟨duplicate, s.lastLeafId + 1, treeSize⟩ u := by
  unfold insertLogEntry at hinsert
  split at hinsert
  · cases hinsert
  · next column hcolumn =>
    split at hinsert
    · cases hinsert
    · next hunique =>
      obtain ⟨-, rfl⟩ := Prod.mk.inj hinsert
      have hapart : ∀ f ∈ s.logEntries, backend.compared f.entryHash ≠ backend.compared column := by
        intro f hf heq
        refine hunique (List.any_eq_true.2 ⟨f, hf, ?_⟩)
        rw [Bool.or_eq_true, Backend.hashEquals_iff]
        exact Or.inl heq
      refine ⟨⟨rfl, fun f hf raw hraw => ⟨f, List.mem_append_left _ hf, rfl, rfl, hraw⟩, fun h => ?_,
        List.prefix_append _ _⟩,
        ⟨_, List.mem_append_right _ (List.mem_singleton_self _), compared_hashColumn hcolumn, rfl, ?_⟩,
        fun f hf => ?_, fun _ => ⟨rfl, ?_⟩⟩
      · refine List.pairwise_append.2 ⟨h, List.pairwise_singleton _ _, fun f hf g hg => ?_⟩
        rw [List.mem_singleton.1 hg]
        exact hapart f hf
      · rw [hfind]
        rfl
      · rw [hfind] at hf
        cases hf
      · exact List.length_append

end Storage

section Appends

open Transaction

variable {backend : Backend} {s : Storage}

/-- **What `append_log_entry_conn` does where it returns.** -/
theorem appendLogEntryConn_appended (entryHash : String) (entryBytes leafHash : Bytes) (submittedAt : Int)
    (entryKind : String) (entryJson transferJson : Option Bytes) :
    Triple (fun session => session.tables = s)
      (appendLogEntryConn backend entryHash entryBytes leafHash submittedAt entryKind entryJson transferJson)
      (fun stored session => Appended backend s entryHash transferJson stored session.tables) fun _ => True := by
  refine Triple.bind (R := fun existing session => existing = s.findEntry backend entryHash ∧ session.tables = s)
    (Triple.query (fun _ _ _ => trivial) ?_) fun existing => ?_
  · rintro session rfl -
    exact ⟨rfl, rfl⟩
  cases existing with
  | some e =>
    refine Triple.bind (R := fun _ session => s.findEntry backend entryHash = some e ∧
      session.tables = s.fillLogEntry backend entryHash entryJson transferJson) ?_ fun _ => ?_
    · unfold fillExisting
      split
      · refine Triple.update (fun _ _ _ => trivial) ?_
        rintro session ⟨hfind, rfl⟩ -
        exact ⟨hfind.symm, rfl⟩
      · next hnone =>
        -- There is no text to add.
        rw [Bool.or_eq_true, not_or, Option.isSome_iff_ne_none, Option.isSome_iff_ne_none, not_not, not_not] at hnone
        obtain ⟨rfl, rfl⟩ := hnone
        refine Triple.ret ?_
        rintro session ⟨hfind, rfl⟩
        exact ⟨hfind.symm, Storage.fillLogEntry_none.symm⟩
    · refine Triple.bind (R := fun _ session => s.findEntry backend entryHash = some e ∧
        session.tables = s.fillLogEntry backend entryHash entryJson transferJson)
        (Triple.query (fun _ _ _ => trivial) fun _ h _ => h) fun treeSize => Triple.ret ?_
      rintro session ⟨hfind, htables⟩
      rw [htables]
      exact Storage.appended_fill hfind _ _ _ _
  | none =>
    refine Triple.bind (R := fun leafIndex session => leafIndex = s.lastLeafId + 1 ∧
      s.findEntry backend entryHash = none ∧ session.tables = (s.insertLeaf entryBytes leafHash).2)
      (Triple.statement (fun _ _ _ => trivial) ?_ fun _ _ _ _ _ => trivial) fun leafIndex => ?_
    · rintro session leafIndex ⟨hfind, rfl⟩ - hok
      exact ⟨(Except.ok.inj hok).symm, hfind.symm, rfl⟩
    refine Triple.bind (R := fun _ session => leafIndex = s.lastLeafId + 1 ∧
      s.findEntry backend entryHash = none ∧ (s.insertLeaf entryBytes leafHash).2.insertLogEntry backend
        ⟨entryHash, s.lastLeafId + 1, submittedAt, entryKind, entryJson, transferJson⟩ = (.ok (), session.tables))
      (Triple.statement (fun _ _ _ => trivial) ?_ fun _ _ _ _ _ => trivial) fun _ => ?_
    · rintro session _ ⟨rfl, hfind, htables⟩ - hok
      rw [htables] at hok ⊢
      exact ⟨rfl, hfind, Prod.ext hok rfl⟩
    refine Triple.bind (R := fun _ session => leafIndex = s.lastLeafId + 1 ∧
      s.findEntry backend entryHash = none ∧ (s.insertLeaf entryBytes leafHash).2.insertLogEntry backend
        ⟨entryHash, s.lastLeafId + 1, submittedAt, entryKind, entryJson, transferJson⟩ = (.ok (), session.tables))
      (Triple.query (fun _ _ _ => trivial) fun _ h _ => h) fun treeSize => Triple.ret ?_
    rintro session ⟨rfl, hfind, hinsert⟩
    exact Storage.appended_insert hfind hinsert _ _

end Appends

namespace Storage

variable {backend : Backend} {s : Storage}

theorem Grown.refl (backend : Backend) (s : Storage) : s.Grown backend s :=
  ⟨rfl, Kept.refl s, id, List.prefix_rfl⟩

theorem grown_rollback (backend : Backend) (s working : Storage) : s.Grown backend (backend.rollback s working) := by
  cases backend with
  | sqlite => exact Grown.refl _ s
  | mariadb => exact ⟨rfl, kept_of_logEntries rfl, id, List.prefix_rfl⟩

end Storage

/-- An entry without a spend claim leaves the claims alone. -/
theorem AppendServer.grown_appendEntryHash (server : AppendServer) (entryHash : String) (submittedAt : Int)
    (transfer : Option Json) (entryKind : String) (entry : Option Json) (fault : Option Nat) (s : Storage) :
    s.Grown server.backend
      (server.appendEntryHash entryHash submittedAt transfer entryKind entry fault s).2 := by
  unfold appendEntryHash
  split
  · exact Storage.Grown.refl _ s
  · next entryBytes transferJson entryJson _ =>
    have htriple : Transaction.Triple (fun session => session.tables = s)
        (server.appendEntryConn (Text.lower entryHash) entryBytes submittedAt entryKind entryJson transferJson)
        (fun _ session => s.Grown server.backend session.tables) fun _ => True :=
      Transaction.Triple.bind (appendLogEntryConn_appended _ _ _ _ _ _ _) fun _ =>
        Transaction.Triple.ret fun _ h => h.toGrown
    rcases htriple.run server.backend.rollback (show (Transaction.Session.mk s fault).tables = s from rfl)
      fun _ _ _ _ => trivial with
      ⟨_, session, hgrown, hrun⟩ | ⟨_, session, -, hrun⟩
    · rw [hrun]
      exact hgrown
    · rw [hrun]
      exact Storage.grown_rollback _ s session.tables

/-! ## Transfers -/

theorem isDigest_transferHash {crypto : Crypto} {t : Transfer} {clock : Int} {hash : String}
    (h : t.transferHash crypto clock = .ok hash) : IsDigest hash := by
  have hlength := (Transfer.hashed_of_transferHash h).hash_hex.1
  obtain ⟨_, -, hdigest⟩ := Check.bind_eq_ok.1 h
  obtain ⟨digest, -, hpure⟩ := Check.bind_eq_ok.1 hdigest
  obtain rfl := Check.pure_eq_ok.1 hpure
  rw [Text.length_hex] at hlength
  exact ⟨digest, by omega, rfl⟩

theorem isDigest_spendKey {crypto : Crypto} {t : Transfer} {key : String}
    (h : t.spendKeyForTransfer crypto = .ok key) : IsDigest key := by
  obtain ⟨raw, -, hpure⟩ := Check.bind_eq_ok.1 h
  obtain rfl := Check.pure_eq_ok.1 hpure
  exact isDigest_sha3Hex crypto raw

namespace OperatorLog

open Effect

variable {ProofBundle : Type} {log : OperatorLog ProofBundle} {clock now : Int} {s t u : OperatorTables}
  {claims claims' : List SpendClaim}

/-- The stored text of a transfer is read as the transfer, if its metadata stand as a reader returns them. -/
theorem readBody_canonicalBytes {transfer : Transfer} (h : transfer.metadata.Sorted) {raw : Bytes}
    (hraw : canonicalBytes transfer.toJson = .ok raw) : readBody raw = .ok (.v3 transfer) := by
  obtain ⟨-, rfl⟩ := canonicalBytes_eq_ok.1 hraw
  have hsorted : transfer.toJson.Sorted := by
    refine ⟨?_, ?_⟩
    · show ["metadata", "network_id", "previous_hash", "recipient_address", "sender_address",
        "sender_public_key", "sequence", "signature", "signature_algorithm", "timestamp", "token_id", "type",
        "version"].Pairwise (· < ·)
      decide
    · simp [Json.SortedMembers, Json.Sorted, h]
  have hdecode : Text.utf8Decode transfer.toJson.bytes = some (String.ofList transfer.toJson.render) := by
    rw [Json.bytes, ← utf8_of_isAscii (Json.isAscii_render _), Text.utf8Decode_utf8]
  rw [readBody, hdecode]
  simp only [Check.ofOption, Check.ok_bind, String.toList_ofList, Json.parse_render hsorted,
    TransferBody.ofJson_toJson]
  rfl

theorem dated_of_readBody {transfer : Transfer} {hash : String} {raw : Bytes}
    (hread : readBody raw = .ok (.v3 transfer)) (h : transfer.NotAhead now) : log.Dated now hash raw := by
  intro other _ hother _
  obtain rfl : transfer = other := by
    have hsame := Except.ok.inj (hread.symm.trans hother)
    cases hsame
    rfl
  exact h

theorem Sound.mono (h : log.Sound clock s claims) {storage : Storage}
    (hgrown : s.storage.Grown log.backend storage) (hle : clock ≤ now) (hmax : now ≤ maxProtocolTimestamp) :
    log.Sound now { s with storage } claims where
  toClaimed := h.toClaimed.mono hgrown.kept hgrown.spendClaims (hgrown.distinct h.distinct) hle hmax
  reflects := h.reflects

/-- The tables hold the map of their claims, which are those of other tables and claims for some leaves. Its
    entries, its leaves and its roots are those of the other tables. -/
def Extended (log : OperatorLog ProofBundle) (now : Int) (meets : Int → Prop) (s : OperatorTables)
    (claims : List SpendClaim) (u : OperatorTables) : Prop :=
  ∃ claims', log.Sound now u claims' ∧ Adds meets claims claims' ∧ u.storage.logEntries = s.storage.logEntries ∧
    u.storage.leaf = s.storage.leaf ∧ u.roots = s.roots

/-- What the transaction of `append_transfer_announcement` did. -/
theorem appendTransferConn_triple (transfer : Transfer) (key hash : String) (submittedAt : Int) :
    Transaction.Triple (fun session => session.tables = s)
      (log.appendTransferConn now transfer key hash submittedAt)
      (fun _ session => ∃ json stored storage, canonicalBytes transfer.toJson = .ok json ∧
        Appended log.backend s.storage hash (some json) stored storage ∧
        log.recordSpendClaim now transfer key hash ((stored.leafIndex : Int) - 1) submittedAt { s with storage }
          = (.ok (), session.tables)) fun _ => True := by
  have hsame : ∀ {α : Type} (x : Except String α), Transaction.Triple (fun session => session.tables = s)
      (Transaction.lift x) (fun a session => x = .ok a ∧ session.tables = s) fun _ => True := by
    intro α x
    exact Transaction.Triple.lift (fun _ _ h hok => ⟨hok, h⟩) fun _ _ _ _ => trivial
  refine Transaction.Triple.bind (R := fun _ session => session.tables = s)
    (Transaction.Triple.query (fun _ _ _ => trivial) fun _ h _ => h) fun conflict => ?_
  refine Transaction.Triple.bind (hsame _) fun _ => ?_
  refine Transaction.Triple.bind (R := fun _ session => session.tables = s) ?_ fun entryBytes => ?_
  · rintro session ⟨-, h⟩
    exact Transaction.Triple.lift (fun _ _ h _ => h) (fun _ _ _ _ => trivial) session h
  refine Transaction.Triple.bind (hsame _) fun json => ?_
  refine Transaction.Triple.bind (R := fun stored session => canonicalBytes transfer.toJson = .ok json ∧
    ∃ storage, Appended log.backend s.storage hash (some json) stored storage ∧
      session.tables = { s with storage }) ?_ fun stored => ?_
  · exact Transaction.Triple.frame _ (Transaction.Triple.focus (appendLogEntryConn_appended _ _ _ _ _ _ _))
  refine Transaction.Triple.bind (R := fun _ session => ∃ json stored storage,
    canonicalBytes transfer.toJson = .ok json ∧ Appended log.backend s.storage hash (some json) stored storage ∧
      log.recordSpendClaim now transfer key hash ((stored.leafIndex : Int) - 1) submittedAt { s with storage }
        = (.ok (), session.tables)) ?_ fun _ => Transaction.Triple.ret fun _ h => h
  refine Transaction.Triple.statement (fun _ _ _ => trivial) ?_ fun _ _ _ _ _ => trivial
  rintro session _ ⟨hjson, storage, happended, htables⟩ - hok
  rw [htables] at hok ⊢
  exact ⟨json, stored, storage, hjson, happended, Prod.ext hok rfl⟩

/-- What a call of `append_transfer_announcement` finds: metadata as a reader returns them, and no body under the
    hash of its transfer that is dated further ahead than a transfer may be. -/
structure Announces (log : OperatorLog ProofBundle) (storage : Storage) (call : TransferCall ProofBundle)
    (transfer : Transfer) (hash : String) : Prop where
  metadata : transfer.metadata.Sorted
  dated : ∀ e, storage.findEntry log.backend hash = some e → ∀ raw, e.transferJson = some raw →
    log.Dated call.clock hash raw

/-- **What a call of `append_transfer_announcement` does**: it leaves the tables as they were, or with an entry and
    a claim for it. -/
theorem Sound.appendTransferAnnouncement {call : TransferCall ProofBundle} (h : log.Sound clock s claims)
    (hle : clock ≤ call.clock) (hmax : call.clock ≤ maxProtocolTimestamp)
    (hannounces : ∀ transfer hash, log.transferToAppend call = .ok transfer →
      transfer.transferHash log.node.crypto call.clock = .ok hash → log.Announces s.storage call transfer hash) :
    (log.Sound call.clock (log.appendTransferAnnouncement call s).2 claims ∧
      (log.appendTransferAnnouncement call s).2.roots = s.roots ∧
      (log.appendTransferAnnouncement call s).2.storage.leaf = s.storage.leaf) ∨
    ∃ transfer hash json stored storage, log.transferToAppend call = .ok transfer ∧
      transfer.transferHash log.node.crypto call.clock = .ok hash ∧
      Appended log.backend s.storage hash (some json) stored storage ∧
      log.Extended call.clock (· = (stored.leafIndex : Int) - 1) { s with storage } claims
        (log.appendTransferAnnouncement call s).2 := by
  have hlater : log.Sound call.clock s claims := h.mono (Storage.Grown.refl _ _) hle hmax
  cases htransfer : log.transferToAppend call with
  | error e =>
    have hcall : log.appendTransferAnnouncement call s = (.error e, s) := by
      simp only [OperatorLog.appendTransferAnnouncement, htransfer]
    rw [hcall]
    exact Or.inl ⟨hlater, rfl, rfl⟩
  | ok transfer =>
    cases hprepare : log.server.prepareTransfer call.clock transfer with
    | error e =>
      have hcall : log.appendTransferAnnouncement call s = (.error e, s) := by
        simp only [OperatorLog.appendTransferAnnouncement, htransfer, hprepare]
      rw [hcall]
      exact Or.inl ⟨hlater, rfl, rfl⟩
    | ok prepared =>
      obtain ⟨hash, key⟩ := prepared
      have hcall : log.appendTransferAnnouncement call s = (log.appendTransferConn call.clock transfer key hash
          (call.submittedAt.getD call.clock)).run log.rollback call.fault s := by
        simp only [OperatorLog.appendTransferAnnouncement, htransfer, hprepare]
      rw [hcall]
      obtain ⟨_, hhash, hprepare⟩ := Check.bind_eq_ok.1 hprepare
      obtain ⟨_, hkey, hprepare⟩ := Check.bind_eq_ok.1 hprepare
      obtain ⟨rfl, rfl⟩ := Prod.mk.inj (Check.pure_eq_ok.1 hprepare)
      rcases (appendTransferConn_triple transfer _ _ _).run log.rollback
        (show (Transaction.Session.mk s call.fault).tables = s from rfl) fun _ _ _ _ => trivial with
        ⟨_, session, ⟨json, stored, storage, hjson, happended, hrecord⟩, hrun⟩ | ⟨_, session, -, hrun⟩
      · rw [hrun]
        refine Or.inr ⟨transfer, _, json, stored, storage, rfl, hhash, happended, ?_⟩
        obtain ⟨hsorted, hstored⟩ := hannounces _ _ htransfer hhash
        obtain ⟨e, he, hentry, hleaf, hbody⟩ := happended.entry
        have hshape := (Transfer.hashed_of_transferHash hhash).shape
        -- The body is the one that was stored before, or the transfer's own.
        obtain ⟨raw, hraw, hdated⟩ : ∃ raw, e.transferJson = some raw ∧ log.Dated call.clock _ raw := by
          rw [hbody]
          cases hfind : s.storage.findEntry log.backend _ with
          | none => exact ⟨json, rfl, dated_of_readBody (readBody_canonicalBytes hsorted hjson) hshape.notAhead⟩
          | some old =>
            cases hold : old.transferJson with
            | none =>
              refine ⟨json, ?_, dated_of_readBody (readBody_canonicalBytes hsorted hjson) hshape.notAhead⟩
              rw [Option.bind_some, hold]
              rfl
            | some raw =>
              refine ⟨raw, ?_, hstored old hfind raw hold⟩
              rw [Option.bind_some, hold]
              rfl
        exact (hlater.mono happended.toGrown le_rfl hmax).recordSpendClaim (isDigest_spendKey hkey)
          (isDigest_transferHash hhash) he hentry (by rw [hleaf]) hraw hdated hrecord
      · rw [hrun]
        have hgrown := Storage.grown_rollback log.backend s.storage session.tables.storage
        refine Or.inl ⟨hlater.mono hgrown le_rfl hmax, rfl, ?_⟩
        show (log.backend.rollback s.storage session.tables.storage).leaf = _
        cases log.backend <;> rfl

/-! ## Reconciliation -/

theorem validatedV3TransferForReconciliation_eq_ok {e : LogEntry} {transfer : Transfer} {hash : String}
    (h : log.validatedV3TransferForReconciliation now e = .ok (transfer, hash)) :
    ∃ raw, e.transferJson = some raw ∧ readBody raw = .ok (.v3 transfer) ∧
      transfer.transferHash log.node.crypto now = .ok hash ∧ hash = e.entryHash := by
  obtain ⟨raw, hraw, h⟩ := Check.bind_eq_ok.1 h
  obtain ⟨body, hread, h⟩ := Check.bind_eq_ok.1 h
  cases body with
  | other data hdata => cases h
  | v3 found =>
    obtain ⟨_, -, h⟩ := Check.bind_eq_ok.1 h
    obtain ⟨_, -, h⟩ := Check.bind_eq_ok.1 h
    obtain ⟨_, hhash, h⟩ := Check.bind_eq_ok.1 h
    obtain ⟨_, hsame, h⟩ := Check.bind_eq_ok.1 h
    obtain ⟨rfl, rfl⟩ := Prod.mk.inj (Check.pure_eq_ok.1 h)
    exact ⟨raw, Check.ofOption_eq_ok.1 hraw, hread, hhash, Check.require_eq_ok.1 hsame⟩

/-- A round of the reconciliation that returns keeps the map of the claims. -/
theorem reconcileEntry_returnsIn {meets : Int → Prop} {e : LogEntry} (he : e ∈ s.storage.logEntries)
    (hmeets : meets ((e.leafIndex : Int) - 1)) :
    ReturnsIn (log.Extended now meets s claims) (log.reconcileEntry now e) := by
  rintro t ⟨claims', hsound, hadds, hentries, hleaf, hroots⟩ result u hrun
  unfold reconcileEntry at hrun
  cases hvalid : log.validatedV3TransferForReconciliation now e with
  | error error =>
    rw [hvalid] at hrun
    obtain rfl := write_eq_ok.1 hrun
    exact ⟨claims', hsound.setAside (setAside_quarantine _ _), hadds, hentries, hleaf, hroots⟩
  | ok valid =>
    obtain ⟨transfer, hash⟩ := valid
    simp only [hvalid] at hrun
    obtain ⟨raw, hraw, hread, hhash, rfl⟩ := validatedV3TransferForReconciliation_eq_ok hvalid
    obtain ⟨key, mid, hkey, hrun⟩ := bind_eq_ok.1 hrun
    obtain ⟨hkeyed, rfl⟩ := lift_eq_ok.1 hkey
    have hshape := (Transfer.hashed_of_transferHash hhash).shape
    obtain ⟨claims₂, hsound, hadds', hentries', hleaf', hroots'⟩ := hsound.recordSpendClaim
      (isDigest_spendKey hkeyed) (isDigest_transferHash hhash) (hentries ▸ he) rfl rfl hraw
      (dated_of_readBody hread hshape.notAhead) hrun
    refine ⟨claims₂, hsound, hadds.trans (hadds'.mono fun index hindex => ?_), hentries'.trans hentries,
      hleaf'.trans hleaf, hroots'.trans hroots⟩
    rw [hindex]
    exact hmeets

/-- **A reconciliation that returns keeps the map of the claims.** -/
theorem Sound.reconcile {meets : Int → Prop} (h : log.Sound now s claims)
    (hmeets : ∀ e ∈ log.unreconciled s, meets ((e.leafIndex : Int) - 1)) {result : Unit}
    (hrun : log.reconcileTransferSpendClaims now s = (.ok result, u)) : log.Extended now meets s claims u := by
  rw [reconcileTransferSpendClaims, read_bind] at hrun
  have hround : ∀ e ∈ log.unreconciled s,
      ReturnsIn (log.Extended now meets s claims) (log.reconcileEntry now e) := by
    intro e he
    exact reconcileEntry_returnsIn (List.mem_of_mem_filter (Select.mem_orderBy.1 he)) (hmeets e he)
  exact ReturnsIn.forEach hround s ⟨claims, h, Adds.refl _ _, rfl, rfl, rfl⟩ _ u hrun

/-! ## Roots -/

/-- All claims that `publish_root` has to make up for are recorded. -/
def Reconciles (log : OperatorLog ProofBundle) (now : Int) (s : OperatorTables) : Prop :=
  (log.reconcileTransferSpendClaims now s).1 = .ok ()

/-- What the first transaction of `publish_root` does. -/
theorem Sound.prepareRoot {meets : Int → Prop} (h : log.Sound now s claims) (hreconciles : log.Reconciles now s)
    (hmeets : ∀ e ∈ log.unreconciled s, meets ((e.leafIndex : Int) - 1)) :
    ∃ reason u, log.prepareRoot now s = (.ok reason, u) ∧ log.Extended now meets s claims u ∧
      (reason = none → log.hasConflictingSpendClaim u = false) := by
  obtain ⟨claims', hsound, hadds, hentries, hleaf, hroots⟩ := h.reconcile hmeets (Prod.ext hreconciles rfl)
  have hattempt : attempt (log.reconcileTransferSpendClaims now) s
      = (.ok (.ok ()), (log.reconcileTransferSpendClaims now s).2) := by
    rw [attempt, hreconciles]
  rw [OperatorLog.prepareRoot, bind_of_ok hattempt]
  simp only [read_bind]
  cases hconflict : log.hasConflictingSpendClaim (log.reconcileTransferSpendClaims now s).2 with
  | false =>
    rw [if_neg Bool.false_ne_true]
    exact ⟨none, _, rfl, ⟨claims', hsound, hadds, hentries, hleaf, hroots⟩, fun _ => hconflict⟩
  | true =>
    obtain ⟨u, hrun, hrebuilt, hstorage, hroots'⟩ := hsound.rebuild le_rfl hsound.clock_le
    rw [if_pos rfl, bind_of_ok hrun]
    refine ⟨some "operator log contains conflicting spend claims", u, rfl,
      ⟨claims', hrebuilt, hadds, ?_, ?_, hroots'.trans hroots⟩, fun hnone => by cases hnone⟩
    · rw [hstorage, hentries]
    · rw [hstorage, hleaf]

/-- Tables that hold the map of the same claims have the same nodes. -/
theorem Sound.hashAt_eq (h : log.Sound clock s claims) (h' : log.Sound now u claims) :
    ∀ height ≤ spendMapKeyBits, ∀ position,
      s.map.hashAt log.node.crypto height position = u.map.hashAt log.node.crypto height position := by
  intro height hheight position
  obtain ⟨map, hlevels, -, hnodes⟩ := h.exists_levels h.clock_le le_rfl (List.Perm.refl _)
  obtain ⟨map', hlevels', -, hnodes'⟩ := h'.exists_levels h'.clock_le le_rfl (List.Perm.refl _)
  obtain rfl := Except.ok.inj (hlevels.symm.trans hlevels')
  rw [hnodes height hheight, hnodes' height hheight]

/-- A root is one that `publish_root` makes of tables, after the roots of other tables. -/
structure Signs (log : OperatorLog ProofBundle) (timestamp : Int) (s u : OperatorTables)
    (claims : List SpendClaim) (root : SignedRoot) : Prop where
  made : SignedRoot.makeSignedRoot log.node.crypto (treeSize u) (log.currentRootHash u (treeSize u))
    (nextTimestamp timestamp (latestRoot s)) log.privateKey log.publicKey
    (u.map.hashAt log.node.crypto spendMapKeyBits 0) claims.length = .ok root
  unique : log.hasConflictingSpendClaim u = false

theorem Sound.congr (h : log.Sound now s claims) (hstorage : u.storage = s.storage) (hmap : u.map = s.map) :
    log.Sound now u claims where
  toClaimed := by
    rw [hstorage]
    exact h.toClaimed
  reflects := by
    rw [hmap]
    exact h.reflects

/-- What is signed and stored after the claims were made up for. -/
theorem signRoot_cases (log : OperatorLog ProofBundle) (root : Except String SignedRoot) :
    ∃ result w, (lift root >>= fun root => lift (root.signedRootId log.node.crypto) >>= fun _ =>
        write (log.insertRoot root) >>= fun _ => (pure root : Writes SignedRoot)) s = (result, w) ∧
      w.storage = s.storage ∧ w.map = s.map ∧ w.quarantined = s.quarantined ∧
      (w.roots = s.roots ∨ ∃ signed, root = .ok signed ∧ w.roots = s.roots ++ [signed]) := by
  cases root with
  | error e => exact ⟨_, s, rfl, rfl, rfl, rfl, Or.inl rfl⟩
  | ok root =>
    rw [lift_ok_bind]
    cases root.signedRootId log.node.crypto with
    | error e => exact ⟨_, s, rfl, rfl, rfl, rfl, Or.inl rfl⟩
    | ok id =>
      rw [lift_ok_bind, write_bind]
      refine ⟨_, log.insertRoot root s, rfl, ?_⟩
      unfold insertRoot
      split
      · exact ⟨rfl, rfl, rfl, Or.inl rfl⟩
      · exact ⟨rfl, rfl, rfl, Or.inr ⟨root, rfl, rfl⟩⟩

/-- **What `publish_root` does**, where it can record all claims: it keeps the map of the claims, and signs it or
    raises. -/
theorem Sound.publishRoot (h : log.Sound now s claims) (meets : Int → Prop) (hreconciles : log.Reconciles now s)
    (hmeets : ∀ e ∈ log.unreconciled s, meets ((e.leafIndex : Int) - 1)) (timestamp : Option Int) :
    ∃ claims' u, log.Sound now u claims' ∧ Adds meets claims claims' ∧
      u.storage.logEntries = s.storage.logEntries ∧ u.storage.leaf = s.storage.leaf ∧
      (log.publishRoot now timestamp s).2.storage = u.storage ∧
      (log.publishRoot now timestamp s).2.map = u.map ∧
      ((log.publishRoot now timestamp s).2.roots = s.roots ∨ ∃ root,
        (log.publishRoot now timestamp s).2.roots = s.roots ++ [root] ∧
        log.Signs (timestamp.getD now) s u claims' root) := by
  obtain ⟨reason, t, hprepare, ⟨claims', hsound, hadds, hentries, hleaf, hroots⟩, hunique⟩ :=
    h.prepareRoot hreconciles hmeets
  have hprepared : atomically (log.prepareRoot now) s = (.ok reason, t) := by
    rw [atomically, hprepare]
  have hrun : log.publishRoot now timestamp s = _ := bind_of_ok hprepared
  cases reason with
  | some reason =>
    refine ⟨claims', t, hsound, hadds, hentries, hleaf, ?_, ?_, Or.inl ?_⟩
    · rw [hrun]
      rfl
    · rw [hrun]
      rfl
    · rw [hrun]
      exact hroots
  | none =>
    obtain ⟨u, hensure, hsound', hstorage, hroots'⟩ := hsound.ensure le_rfl hsound.clock_le
    have hensured : atomically (log.ensureCurrentSpendMap now) t
        = (.ok (t.map.hashAt log.node.crypto spendMapKeyBits 0, claims'.length), u) := by
      rw [atomically, hensure]
    simp only [read_bind] at hrun
    rw [bind_of_ok hensured] at hrun
    obtain ⟨result, w, hsign, hwstorage, hwmap, -, hwroots⟩ := log.signRoot_cases (s := u)
      (SignedRoot.makeSignedRoot log.node.crypto (treeSize t) (log.currentRootHash t (treeSize t))
        (nextTimestamp (timestamp.getD now) (latestRoot t)) log.privateKey log.publicKey
        (t.map.hashAt log.node.crypto spendMapKeyBits 0) claims'.length)
    rw [show log.publishRoot now timestamp s = (result, w) from hrun.trans hsign]
    refine ⟨claims', u, hsound', hadds, ?_, ?_, hwstorage, hwmap, ?_⟩
    · rw [hstorage, hentries]
    · rw [hstorage, hleaf]
    · rcases hwroots with hsame | ⟨root, hmade, hadded⟩
      · exact Or.inl (hsame.trans (hroots'.trans hroots))
      · refine Or.inr ⟨root, by rw [hadded, hroots', hroots], ?_, ?_⟩
        · have hlatest : latestRoot s = latestRoot t := by rw [latestRoot, latestRoot, hroots]
          have hsize : treeSize u = treeSize t := by rw [treeSize, treeSize, hstorage]
          have hhash : log.currentRootHash u (treeSize t) = log.currentRootHash t (treeSize t) := by
            rw [currentRootHash, currentRootHash, hstorage]
          rw [hlatest, hsize, hhash, hsound'.hashAt_eq hsound _ le_rfl]
          exact hmade
        · rw [hasConflictingSpendClaim, hstorage, ← hasConflictingSpendClaim]
          exact hunique rfl

end OperatorLog
