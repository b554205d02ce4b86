import InternationalDollar.OperatorRoots

set_option autoImplicit false

/-! # What the roots of an operator commit to

A root is signed with the spend map of all claims. Later calls add claims, and the operator serves an old root from
the claims for the leaves that the root covers. The two agree if no claim is recorded later for a leaf that a root
covers (`Timely`): such a claim is recorded where a transfer's body is stored after its entry was published. -/

namespace Storage

/-- What a transaction does to the leaf ids: nothing, or it loses some, or it adds the leaf of a hash with its
    entry. -/
inductive Advances (hashBuff : Bytes → Bytes) (s u : Storage) : Prop
  | kept (leaf : u.leaf = s.leaf) (lastLeafId : s.lastLeafId ≤ u.lastLeafId) (index : u.index = s.index)
  | added (hash : String) (entryBytes : Bytes) (read : Text.fromhex hash = some entryBytes)
      (leaf : u.leaf = s.leaf ++ [⟨s.lastLeafId + 1, entryBytes, hashBuff entryBytes⟩])
      (lastLeafId : u.lastLeafId = s.lastLeafId + 1) (index : u.index = s.index ++ [(hash, s.lastLeafId + 1)])

variable {s u v : Storage} {backend : Backend} {hashBuff : Bytes → Bytes}

theorem SameNumbering.advances (h : s.SameNumbering u) : Advances hashBuff s u :=
  .kept h.leaf h.lastLeafId.ge h.index

theorem Advances.congr (h : Advances hashBuff s u) (huv : u.SameNumbering v) : Advances hashBuff s v := by
  cases h with
  | kept hleaf hlast hindex =>
    exact .kept (huv.leaf.trans hleaf) (by rw [huv.lastLeafId]; exact hlast) (huv.index.trans hindex)
  | added hash entryBytes hread hleaf hlast hindex =>
    exact .added hash entryBytes hread (huv.leaf.trans hleaf) (huv.lastLeafId.trans hlast)
      (huv.index.trans hindex)

theorem Advances.lastLeafId_le (h : Advances hashBuff s u) : s.lastLeafId ≤ u.lastLeafId := by
  cases h with
  | kept _ hlast _ => exact hlast
  | added _ _ _ _ hlast _ =>
    rw [hlast]
    exact Nat.le_succ _

theorem advances_rollback {working : Storage} (h : s.lastLeafId ≤ working.lastLeafId) :
    Advances hashBuff s (backend.rollback s working) := by
  cases backend with
  | sqlite => exact .kept rfl le_rfl rfl
  | mariadb => exact .kept rfl h rfl

theorem index_insertLogEntry {row : LogEntry} (h : s.insertLogEntry backend row = (.ok (), u)) :
    ∃ text, backend.hashColumn row.entryHash = .ok text ∧ u.leaf = s.leaf ∧ u.lastLeafId = s.lastLeafId ∧
      u.index = s.index ++ [(text, row.leafIndex)] := by
  unfold insertLogEntry at h
  split at h
  · cases h
  · next text htext =>
    split at h
    · cases h
    · obtain ⟨-, rfl⟩ := Prod.mk.inj h
      exact ⟨text, htext, rfl, rfl, List.map_append⟩

theorem lastLeafId_insertLogEntry (row : LogEntry) :
    (s.insertLogEntry backend row).2.lastLeafId = s.lastLeafId := by
  unfold insertLogEntry
  split
  · rfl
  · split <;> rfl

/-- The text that a hash column stores is of the same bytes. -/
theorem fromhex_hashColumn {text column : String} {bytes : Bytes} (hread : Text.fromhex text = some bytes)
    (hlength : bytes.length = 32) (hlower : Text.lower text = text) (h : backend.hashColumn text = .ok column) :
    Text.fromhex column = some bytes := by
  cases backend with
  | sqlite =>
    obtain rfl := Except.ok.inj h
    exact hread
  | mariadb =>
    obtain ⟨_, hfits, hcolumn⟩ := Check.bind_eq_ok.1 h
    obtain rfl := Check.pure_eq_ok.1 hcolumn
    rw [Backend.trimEnd_eq_hex hread hlength hlower (Check.require_eq_ok.1 hfits), Text.fromhex_hex]

end Storage

section Appends

open Transaction

variable {backend : Backend} {s : Storage}

/-- The counter of leaf ids of a session is at or above that of some tables. -/
def Counted (s : Storage) (session : Session Storage) : Prop :=
  s.lastLeafId ≤ session.tables.lastLeafId

/-- **What `append_log_entry_conn` does to the leaf ids.** -/
theorem appendLogEntryConn_advances (hashBuff : Bytes → Bytes) {entryHash : String} {entryBytes : Bytes}
    (hread : Text.fromhex entryHash = some entryBytes) (hlength : entryBytes.length = 32)
    (hlower : Text.lower entryHash = entryHash) (submittedAt : Int) (entryKind : String)
    (entryJson transferJson : Option Bytes) :
    Triple (fun session => session.tables = s)
      (appendLogEntryConn backend entryHash entryBytes (hashBuff entryBytes) submittedAt entryKind entryJson
        transferJson)
      (fun _ session => Storage.Advances hashBuff s session.tables) (Counted s) := by
  have hcounted : ∀ session : Session Storage, session.tables = s → Counted s session := by
    intro session h
    exact (congrArg Storage.lastLeafId h).ge
  refine Triple.bind (R := fun _ session => session.tables = s)
    (Triple.query (fun session h _ => hcounted session h) fun _ h _ => h) fun existing => ?_
  have hsize : ∀ stored : Nat → Stored, Triple (fun session => Storage.Advances hashBuff s session.tables)
      (Transaction.query (fun t : Storage => t.leaf.length) >>= fun size => pure (stored size))
      (fun _ session => Storage.Advances hashBuff s session.tables) (Counted s) := by
    intro stored
    refine Triple.bind (R := fun _ session => Storage.Advances hashBuff s session.tables)
      (Triple.query ?_ fun _ h _ => h) fun _ => Triple.ret fun _ h => h
    exact fun session h _ => h.lastLeafId_le
  cases existing with
  | some e =>
    refine Triple.bind (R := fun _ session => Storage.Advances hashBuff s session.tables) ?_ fun _ => hsize _
    unfold fillExisting
    split
    · refine Triple.update (fun session h _ => hcounted session h) ?_
      rintro session rfl -
      exact .kept rfl le_rfl (Storage.index_fillLogEntry _ _ _ _ _)
    · refine Triple.ret ?_
      rintro session rfl
      exact .kept rfl le_rfl rfl
  | none =>
    refine Triple.bind (R := fun leafIndex session => leafIndex = s.lastLeafId + 1 ∧
      session.tables = (s.insertLeaf entryBytes (hashBuff entryBytes)).2)
      (Triple.statement (fun session h _ => hcounted session h) ?_ ?_) fun leafIndex => ?_
    · rintro session leafIndex rfl - hok
      exact ⟨(Except.ok.inj hok).symm, rfl⟩
    · rintro session e rfl - herror
      cases herror
    refine Triple.bind (R := fun _ session => Storage.Advances hashBuff s session.tables)
      (Triple.statement ?_ ?_ ?_) fun _ => hsize _
    · rintro session ⟨-, h⟩ -
      show s.lastLeafId ≤ session.tables.lastLeafId
      rw [h]
      exact Nat.le_succ _
    · rintro session _ ⟨rfl, htables⟩ - hok
      obtain ⟨text, htext, hleaf, hlast, hindex⟩ := Storage.index_insertLogEntry (Prod.ext hok rfl)
      refine .added text entryBytes (Storage.fromhex_hashColumn hread hlength hlower htext) (hleaf.trans ?_)
        (hlast.trans ?_) (hindex.trans ?_)
      · rw [htables]
        rfl
      · rw [htables]
        rfl
      · rw [htables]
        rfl
    · rintro session e ⟨rfl, htables⟩ - -
      show s.lastLeafId ≤ (session.tables.insertLogEntry backend _).2.lastLeafId
      rw [Storage.lastLeafId_insertLogEntry, htables]
      exact Nat.le_succ _

theorem appendLogEntryConn_kept (entryHash : String) (entryBytes leafHash : Bytes) (submittedAt : Int)
    (entryKind : String) (entryJson transferJson : Option Bytes) :
    Triple (fun session => session.tables = s)
      (appendLogEntryConn backend entryHash entryBytes leafHash submittedAt entryKind entryJson transferJson)
      (fun _ session => session.tables.spendClaims = s.spendClaims) fun _ => True := by
  intro session h
  have happended := @appendLogEntryConn_appended backend s entryHash entryBytes leafHash
    submittedAt entryKind entryJson transferJson session h
  cases hr : appendLogEntryConn backend entryHash entryBytes leafHash submittedAt entryKind entryJson transferJson
      session with
  | mk result t =>
    rw [hr] at happended
    cases result with
    | ok stored => exact happended.spendClaims
    | error e => trivial

end Appends

/-- An entry without a spend claim adds a leaf at most. -/
theorem AppendServer.advances_appendEntryHash (server : AppendServer) (entryHash : String) (submittedAt : Int)
    (transfer : Option Json) (entryKind : String) (entry : Option Json) (fault : Option Nat) (s : Storage) :
    Storage.Advances server.hashBuff s
      (server.appendEntryHash entryHash submittedAt transfer entryKind entry fault s).2 := by
  unfold appendEntryHash
  split
  · exact .kept rfl le_rfl rfl
  · next entryBytes transferJson entryJson hprepare =>
    obtain ⟨_, hdecode, hprepare⟩ := Check.bind_eq_ok.1 hprepare
    obtain ⟨_, -, hprepare⟩ := Check.bind_eq_ok.1 hprepare
    obtain ⟨_, -, hprepare⟩ := Check.bind_eq_ok.1 hprepare
    obtain ⟨rfl, rfl, rfl⟩ := Check.pure_eq_ok.1 hprepare
    obtain ⟨_, hread, hdecode⟩ := Check.bind_eq_ok.1 hdecode
    obtain ⟨_, hlength, hdecode⟩ := Check.bind_eq_ok.1 hdecode
    obtain rfl := Check.pure_eq_ok.1 hdecode
    have htriple : Transaction.Triple (fun session => session.tables = s)
        (server.appendEntryConn (Text.lower entryHash) _ submittedAt entryKind entryJson transferJson)
        (fun _ session => Storage.Advances server.hashBuff s session.tables) (Counted s) :=
      Transaction.Triple.bind (appendLogEntryConn_advances server.hashBuff (Check.ofOption_eq_ok.1 hread)
        (Check.require_eq_ok.1 hlength) (Text.lower_lower _) _ _ _ _)
        fun _ => Transaction.Triple.ret fun _ h => h
    rcases htriple.run server.backend.rollback (show (Transaction.Session.mk s fault).tables = s from rfl)
      (fun _ _ h _ => h.lastLeafId_le) with ⟨_, session, hadvances, hrun⟩ | ⟨_, session, hcounted, hrun⟩
    · rw [hrun]
      exact hadvances
    · rw [hrun]
      exact Storage.advances_rollback hcounted

namespace OperatorLog

open Effect

variable {ProofBundle : Type} {log : OperatorLog ProofBundle} {clock now : Int} {s t u : OperatorTables}
  {claims claims' : List SpendClaim} {root : SignedRoot}

theorem advances_recordSpendClaim (log : OperatorLog ProofBundle) (now : Int) (transfer : Transfer)
    (key hash : String) (leafIndex firstSeen : Int) (s : OperatorTables) :
    s.storage.SameNumbering (log.recordSpendClaim now transfer key hash leafIndex firstSeen s).2.storage := by
  have hsame := log.sameLog_recordSpendClaim now transfer key hash leafIndex firstSeen s
  exact ⟨hsame.leaf, hsame.lastLeafId, congrArg (List.map fun e : LogEntry => (e.entryHash, e.leafIndex))
    hsame.logEntries⟩

/-- The claim of a transfer that has one is not recorded anew. -/
theorem spendClaims_recordSpendClaim (log : OperatorLog ProofBundle) (now : Int) (transfer : Transfer)
    {key hash : String} (leafIndex firstSeen : Int)
    (hindexed : ∀ row ∈ s.storage.spendClaims, row.transferLeafIndex.isSome = true)
    (hknown : (s.storage.findClaim log.backend key hash).isSome = true) :
    (log.recordSpendClaim now transfer key hash leafIndex firstSeen s).2.storage.spendClaims
      = s.storage.spendClaims := by
  obtain ⟨hstorage, -⟩ := log.storage_recordSpendClaim now transfer key hash leafIndex firstSeen s
  rw [hstorage]
  rcases Storage.insertClaim_cases log.backend hindexed ⟨key, transfer.tokenId, transfer.previousHash,
    transfer.sequence, transfer.senderAddress, transfer.senderPublicKey, hash, some leafIndex, firstSeen⟩ rfl
    leafIndex with ⟨_, -, hsame⟩ | ⟨hnone, -, -⟩
  · exact congrArg Storage.spendClaims hsame
  · rw [Option.isSome_iff_ne_none] at hknown
    exact absurd hnone hknown

/-- What the transaction of `append_transfer_announcement` does to the leaf ids and to a claim that is there. -/
theorem appendTransferConn_advances (transfer : Transfer) (key : String) {hash : String} (hdigest : IsDigest hash)
    (submittedAt : Int) :
    Transaction.Triple (fun session => session.tables = s)
      (log.appendTransferConn now transfer key hash submittedAt)
      (fun _ session => Storage.Advances log.hashBuff s.storage session.tables.storage ∧
        ((∀ row ∈ s.storage.spendClaims, row.transferLeafIndex.isSome = true) →
          (s.storage.findClaim log.backend key hash).isSome = true →
            session.tables.storage.spendClaims = s.storage.spendClaims))
      fun session => s.storage.lastLeafId ≤ session.tables.storage.lastLeafId := by
  have hcounted : ∀ session : Transaction.Session OperatorTables, session.tables = s →
      s.storage.lastLeafId ≤ session.tables.storage.lastLeafId := by
    rintro session rfl
    exact le_rfl
  have hlift : ∀ {α : Type} (x : Except String α), Transaction.Triple (fun session => session.tables = s)
      (Transaction.lift x) (fun a session => session.tables = s ∧ x = .ok a)
      fun session => s.storage.lastLeafId ≤ session.tables.storage.lastLeafId := by
    intro α x
    exact Transaction.Triple.lift (fun _ _ h hok => ⟨h, hok⟩) fun session _ h _ => hcounted session h
  have ⟨bytes, hlength, hhex⟩ := hdigest
  refine Transaction.Triple.bind (R := fun _ session => session.tables = s)
    (Transaction.Triple.query (fun session h _ => hcounted session h) fun _ h _ => h) fun conflict => ?_
  refine Transaction.Triple.bind (hlift _) fun _ => ?_
  rintro session ⟨htables, -⟩
  refine Transaction.Triple.bind (hlift _) (fun entryBytes => ?_) session htables
  rintro session ⟨htables, hread⟩
  have hread := Check.ofOption_eq_ok.1 hread
  have hbytes : bytes = entryBytes := by
    rw [hhex, Text.fromhex_hex] at hread
    exact Option.some.inj hread
  subst hbytes
  refine Transaction.Triple.bind (hlift _) (fun json => ?_) session htables
  rintro session ⟨htables, -⟩
  revert htables
  revert session
  refine Transaction.Triple.bind (R := fun _ session => ∃ storage,
    (Storage.Advances log.hashBuff s.storage storage ∧ storage.spendClaims = s.storage.spendClaims) ∧
      session.tables = { s with storage }) ?_ fun stored => ?_
  · refine Transaction.Triple.weaken_raises (Transaction.Triple.focus_raises
      (F := fun storage => s.storage.lastLeafId ≤ storage.lastLeafId) ?_) ?_
    · exact Transaction.Triple.weaken_raises (Transaction.Triple.and
        (appendLogEntryConn_advances _ hread hlength hdigest.lower _ _ _ _)
        (appendLogEntryConn_kept _ _ _ _ _ _ _)) fun _ h => h.1
    · rintro session ⟨part, hpart, htables⟩
      rw [htables]
      exact hpart
  refine Transaction.Triple.bind (R := fun _ session => Storage.Advances log.hashBuff s.storage session.tables.storage ∧
    ((∀ row ∈ s.storage.spendClaims, row.transferLeafIndex.isSome = true) →
      (s.storage.findClaim log.backend key hash).isSome = true →
        session.tables.storage.spendClaims = s.storage.spendClaims))
    (Transaction.Triple.statement ?_ ?_ ?_) fun _ => Transaction.Triple.ret fun _ h => h
  · rintro session ⟨storage, ⟨hadvances, -⟩, htables⟩ -
    rw [htables]
    exact hadvances.lastLeafId_le
  · rintro session _ ⟨storage, ⟨hadvances, hclaims⟩, htables⟩ - -
    rw [htables]
    refine ⟨hadvances.congr (log.advances_recordSpendClaim now transfer key hash _ _ { s with storage }),
      fun hindexed hknown => ?_⟩
    refine (log.spendClaims_recordSpendClaim now transfer _ _ ?_ ?_).trans hclaims
    · show ∀ row ∈ storage.spendClaims, row.transferLeafIndex.isSome = true
      rw [hclaims]
      exact hindexed
    · rw [Storage.findClaim] at hknown ⊢
      show (storage.spendClaims.find? _).isSome = true
      rw [hclaims]
      exact hknown
  · rintro session e ⟨storage, ⟨hadvances, -⟩, htables⟩ - -
    show s.storage.lastLeafId ≤ (log.recordSpendClaim _ _ _ _ _ _ session.tables).2.storage.lastLeafId
    rw [htables, (log.advances_recordSpendClaim now transfer key hash _ _ _).lastLeafId]
    exact hadvances.lastLeafId_le

/-- **What `append_transfer_announcement` does to the leaf ids**, and to the claim of its transfer if there is
    one. -/
theorem appendTransferAnnouncement_advances (log : OperatorLog ProofBundle) (call : TransferCall ProofBundle)
    (s : OperatorTables) :
    Storage.Advances log.hashBuff s.storage (log.appendTransferAnnouncement call s).2.storage ∧
      ∀ transfer hash key, log.transferToAppend call = .ok transfer →
        transfer.transferHash log.node.crypto call.clock = .ok hash →
        transfer.spendKeyForTransfer log.node.crypto = .ok key →
        (∀ row ∈ s.storage.spendClaims, row.transferLeafIndex.isSome = true) →
        (s.storage.findClaim log.backend key hash).isSome = true →
          (log.appendTransferAnnouncement call s).2.storage.spendClaims = s.storage.spendClaims := by
  cases htransfer : log.transferToAppend call with
  | error e =>
    have hcall : log.appendTransferAnnouncement call s = (.error e, s) := by
      simp only [OperatorLog.appendTransferAnnouncement, htransfer]
    rw [hcall]
    exact ⟨.kept rfl le_rfl rfl, fun _ _ _ _ _ _ _ _ => rfl⟩
  | ok transfer =>
    cases hprepare : log.server.prepareTransfer call.clock transfer with
    | error e =>
      have hcall : log.appendTransferAnnouncement call s = (.error e, s) := by
        simp only [OperatorLog.appendTransferAnnouncement, htransfer, hprepare]
      rw [hcall]
      exact ⟨.kept rfl le_rfl rfl, fun _ _ _ _ _ _ _ _ => rfl⟩
    | ok prepared =>
      obtain ⟨hash, key⟩ := prepared
      have hcall : log.appendTransferAnnouncement call s = (log.appendTransferConn call.clock transfer key hash
          (call.submittedAt.getD call.clock)).run log.rollback call.fault s := by
        simp only [OperatorLog.appendTransferAnnouncement, htransfer, hprepare]
      obtain ⟨_, hhash, hprepare⟩ := Check.bind_eq_ok.1 hprepare
      obtain ⟨_, hkey, hprepare⟩ := Check.bind_eq_ok.1 hprepare
      obtain ⟨rfl, rfl⟩ := Prod.mk.inj (Check.pure_eq_ok.1 hprepare)
      rw [hcall]
      rcases (appendTransferConn_advances transfer _ (isDigest_transferHash hhash) _).run log.rollback
        (show (Transaction.Session.mk s call.fault).tables = s from rfl)
        (fun _ _ h _ => h.1.lastLeafId_le) with
        ⟨_, session, ⟨hadvances, hclaims⟩, hrun⟩ | ⟨_, session, hcounted, hrun⟩
      · rw [hrun]
        refine ⟨hadvances, fun transfer' hash' key' htransfer' hhash' hkey' hindexed hknown => ?_⟩
        obtain rfl := Except.ok.inj htransfer'
        obtain rfl := Except.ok.inj (hhash.symm.trans hhash')
        obtain rfl := Except.ok.inj (hkey.symm.trans hkey')
        exact hclaims hindexed hknown
      · rw [hrun]
        refine ⟨Storage.advances_rollback hcounted, fun _ _ _ _ _ _ _ _ => ?_⟩
        show (log.backend.rollback s.storage session.tables.storage).spendClaims = _
        cases log.backend <;> rfl

/-! ## Leaf ids and roots -/

/-- The counter of leaf ids is not behind the leaves, and where a root covers all leaves, no entry has a later
    one. -/
structure Spaced (s : OperatorTables) : Prop where
  counter : s.storage.leaf.length ≤ s.storage.lastLeafId
  settled : ∀ root ∈ s.roots, root.treeSize = treeSize s → ∀ e ∈ s.storage.index, (e.2 : Int) ≤ root.treeSize

theorem Ordered.treeSize_le (h : log.Ordered s) (hroot : root ∈ s.roots) : root.treeSize ≤ treeSize s := by
  obtain ⟨size, hsize, htree, -⟩ := (h.signed root hroot).leaves
  rw [htree]
  exact_mod_cast hsize

theorem Spaced.advance (h : Spaced s) (hordered : log.Ordered s) {hashBuff : Bytes → Bytes}
    (hadvances : Storage.Advances hashBuff s.storage u.storage) (hroots : u.roots = s.roots) : Spaced u := by
  cases hadvances with
  | kept hleaf hlast hindex =>
    refine ⟨?_, fun root hroot htree => ?_⟩
    · rw [hleaf]
      exact h.counter.trans hlast
    · rw [hroots] at hroot
      rw [treeSize_congr hleaf] at htree
      rw [hindex]
      exact h.settled root hroot htree
  | added hash entryBytes hread hleaf hlast hindex =>
    have hsize : treeSize u = treeSize s + 1 := by
      rw [treeSize, treeSize, hleaf, List.length_append]
      rfl
    refine ⟨?_, fun root hroot htree => ?_⟩
    · have hcounter := h.counter
      rw [hleaf, hlast, List.length_append, List.length_singleton]
      omega
    · -- A root that was there does not cover the new leaf.
      rw [hroots] at hroot
      have hle := hordered.treeSize_le hroot
      omega

/-- The leaf of an entry is past those that the roots cover. -/
def Uncovered (s : OperatorTables) (e : LogEntry) : Prop :=
  ∀ root ∈ s.roots, root.treeSize ≤ (e.leafIndex : Int) - 1

/-- No leaf id was lost before an entry. -/
def Gapless (storage : Storage) : Prop :=
  ∀ e ∈ storage.index, e.2 ≤ storage.leaf.length

/-- A call that records no claim for a leaf that a root covers: a transfer whose entry is covered has its claim, and
    so has every entry with a body when a root is published. -/
def Timely (log : OperatorLog ProofBundle) (s : State) : Event ProofBundle → Prop
  | .transfer call => ∀ transfer hash key e, log.transferToAppend call = .ok transfer →
      transfer.transferHash log.node.crypto call.clock = .ok hash →
      transfer.spendKeyForTransfer log.node.crypto = .ok key →
      s.tables.storage.findEntry log.backend hash = some e →
        (s.tables.storage.findClaim log.backend key hash).isSome = true ∨ Uncovered s.tables e
  | .entry .. => True
  | .publish .. => Gapless s.tables.storage ∧ ∀ e ∈ log.unreconciled s.tables, Uncovered s.tables e

/-! ## What a root commits to -/

/-- A root commits to the map of the claims for the leaves that it covers, of which no two spend one key with two
    transfers. -/
structure Commits (log : OperatorLog ProofBundle) (clock : Int) (claims : List SpendClaim) (root : SignedRoot) :
    Prop where
  made : ∃ (w : OperatorTables) (size : Nat) (hash : String) (count : Nat), IsDigest hash ∧
    SignedRoot.makeSignedRoot log.node.crypto size (log.currentRootHash w size) root.timestamp log.privateKey
      log.publicKey hash count = .ok root
  map : ∀ now, clock ≤ now → now ≤ maxProtocolTimestamp → ∀ records : List SpendClaim,
    records.Perm (claims.filter fun c => c.transferLeafIndex < root.treeSize) →
      ∃ map, SpendMap.spendMapLevels log.node.crypto now records = .ok map ∧
        root.spendMapRoot = some (map.root log.node.crypto) ∧ root.spendMapSize = some (map.totalClaims : Int)
  unique : ∀ c ∈ claims, ∀ d ∈ claims, c.transferLeafIndex < root.treeSize →
    d.transferLeafIndex < root.treeSize → c.spendKey = d.spendKey → c.transferHash = d.transferHash

/-- What was added for other leaves does not change what a root commits to. -/
theorem Commits.extend (h : log.Commits clock claims root)
    (hadds : Adds (fun index => root.treeSize ≤ index) claims claims') (hle : clock ≤ now) :
    log.Commits now claims' root := by
  obtain ⟨added, rfl, hadded⟩ := hadds
  have hnone : (added.filter fun c => c.transferLeafIndex < root.treeSize) = [] := by
    refine List.filter_eq_nil_iff.2 fun c hc => ?_
    have hpast := hadded c hc
    rw [decide_eq_true_eq]
    omega
  refine { h with map := fun later hlater hmax records hperm => ?_, unique := ?_ }
  · rw [List.filter_append, hnone, List.append_nil] at hperm
    exact h.map later (hle.trans hlater) hmax records hperm
  · have hold : ∀ c ∈ claims ++ added, c.transferLeafIndex < root.treeSize → c ∈ claims := by
      intro c hc hlt
      rcases List.mem_append.1 hc with hc | hc
      · exact hc
      · exact absurd (hadded c hc) (Int.not_le.2 hlt)
    exact fun c hc d hd hclt hdlt => h.unique c (hold c hc hclt) d (hold d hd hdlt) hclt hdlt

/-- The claims of tables without lost leaf ids are for leaves that are there. -/
theorem Claimed.leafIndex_lt {storage : Storage} (h : log.Claimed clock storage claims) (hgapless : Gapless storage) :
    ∀ c ∈ claims, c.transferLeafIndex < storage.leaf.length := by
  intro c hc
  obtain ⟨row, -, hrow⟩ := h.exists_row hc
  obtain ⟨e, he, -, hindex, -⟩ := hrow.stored
  have hle := hgapless (e.entryHash, e.leafIndex) (List.mem_map_of_mem he)
  have hbound : e.leafIndex ≤ storage.leaf.length := hle
  omega

/-- The claims of a key that are recorded are for one transfer, where no conflict is found. -/
theorem Claimed.unique {s : OperatorTables} (h : log.Claimed clock s.storage claims)
    (hunique : log.hasConflictingSpendClaim s = false) :
    ∀ c ∈ claims, ∀ d ∈ claims, c.spendKey = d.spendKey → c.transferHash = d.transferHash := by
  intro c hc d hd hkey
  obtain ⟨row, hrow, hrecorded⟩ := h.exists_row hc
  obtain ⟨row', hrow', hrecorded'⟩ := h.exists_row hd
  obtain ⟨hspendKey, htransferHash, -⟩ := hrecorded.fields h.clock_le
  obtain ⟨hspendKey', htransferHash', -⟩ := hrecorded'.fields h.clock_le
  by_contra hne
  refine Bool.eq_false_iff.1 hunique ?_
  refine List.any_eq_true.2 ⟨row, hrow, List.any_eq_true.2 ⟨row', hrow', ?_⟩⟩
  have hapart : log.backend.hashEquals row.transferHash row'.transferHash = false := by
    rw [Bool.eq_false_iff, Ne, Backend.hashEquals_iff, compared_of_digest _ hrecorded.transferHash,
      compared_of_digest _ hrecorded'.transferHash, ← htransferHash, ← htransferHash']
    exact hne
  have hsame : log.backend.hashEquals row.spendKey row'.spendKey = true := by
    rw [Backend.hashEquals_iff, ← hspendKey, ← hspendKey', hkey]
  rw [hrecorded.leafIndex, hrecorded'.leafIndex, hapart, hsame]
  rfl

/-- **A new root commits to the claims for its leaves.** -/
theorem Signs.commits {timestamp : Int} (h : log.Signs timestamp s u claims root) (hsound : log.Sound now u claims)
    (hgapless : Gapless u.storage) : log.Commits now claims root := by
  obtain ⟨hmade, hunique⟩ := h
  have hdigest : IsDigest (u.map.hashAt log.node.crypto spendMapKeyBits 0) := by
    obtain ⟨map, hlevels, -, hnodes⟩ := hsound.exists_levels le_rfl hsound.clock_le (List.Perm.refl _)
    rw [hnodes _ le_rfl, ← SpendMap.root, (SpendMap.isMapOf_of_levels hlevels).root_eq]
    exact (SpendMap.isMapOf_of_levels hlevels).isDigest_node _ _
  have hfields : root.treeSize = treeSize u ∧ root.timestamp = nextTimestamp timestamp (latestRoot s) ∧
      root.spendMapRoot = some (Text.lower (u.map.hashAt log.node.crypto spendMapKeyBits 0)) ∧
      root.spendMapSize = some (claims.length : Int) := by
    obtain ⟨_, -, hsigned⟩ := Check.bind_eq_ok.1 hmade
    obtain ⟨_, -, hsigned⟩ := Check.bind_eq_ok.1 hsigned
    obtain rfl := Check.pure_eq_ok.1 hsigned
    exact ⟨rfl, rfl, rfl, rfl⟩
  obtain ⟨hsize, htime, hmapRoot, hmapSize⟩ := hfields
  have hbelow := hsound.leafIndex_lt hgapless
  refine ⟨⟨u, treeSize u, _, claims.length, hdigest, htime ▸ hmade⟩, fun later hlater hmax records hperm => ?_,
    fun c hc d hd _ _ => hsound.unique hunique c hc d hd⟩
  have hall : (claims.filter fun c => c.transferLeafIndex < root.treeSize) = claims := by
    refine List.filter_eq_self.2 fun c hc => ?_
    rw [decide_eq_true_eq, hsize]
    exact hbelow c hc
  rw [hall] at hperm
  obtain ⟨map, hlevels, htotal, hnodes⟩ := hsound.exists_levels hlater hmax hperm
  refine ⟨map, hlevels, ?_, ?_⟩
  · rw [hmapRoot, hdigest.lower, hnodes _ le_rfl]
    rfl
  · rw [hmapSize, htotal]

/-! ## Runs -/

/-- The tables hold the map of their claims, and every root commits to the claims for its leaves. -/
structure Committed (log : OperatorLog ProofBundle) (clock : Int) (s : OperatorTables) (claims : List SpendClaim) :
    Prop extends log.Sound clock s claims where
  ordered : log.Ordered s
  spaced : Spaced s
  commits : ∀ root ∈ s.roots, log.Commits clock claims root

theorem committed_empty (log : OperatorLog ProofBundle) : log.Committed 0 .empty [] where
  toSound := sound_empty
  ordered := ordered_empty log
  spaced := ⟨le_rfl, fun _ h => absurd h List.not_mem_nil⟩
  commits := fun _ h => absurd h List.not_mem_nil

/-- Tables with the same rows of claims make the same claims. -/
theorem Adds.eq_of_rows {storage storage' : Storage} {meets : Int → Prop} (h : log.Claimed clock storage claims)
    (h' : log.Claimed now storage' claims') (hrows : storage'.spendClaims = storage.spendClaims)
    (hadds : Adds meets claims claims') : claims' = claims := by
  obtain ⟨added, rfl, -⟩ := hadds
  have hlength := h'.recorded.length_eq
  rw [hrows, h.recorded.length_eq, List.length_append] at hlength
  rw [List.length_eq_zero_iff.1 (show added.length = 0 by omega), List.append_nil]

/-- A transfer announcement records a claim for leaves that no root covers. -/
theorem Committed.adds_transfer {s : State} {call : TransferCall ProofBundle} {transfer : Transfer} {hash : String}
    {json : Bytes} {stored : Stored} {storage : Storage} (h : log.Committed clock s.tables claims)
    (htimely : log.Timely s (.transfer call)) (htransfer : log.transferToAppend call = .ok transfer)
    (hhash : transfer.transferHash log.node.crypto call.clock = .ok hash)
    (happended : Appended log.backend s.tables.storage hash (some json) stored storage)
    (hsound : log.Sound now (log.appendTransferAnnouncement call s.tables).2 claims')
    (hadds : Adds (· = (stored.leafIndex : Int) - 1) claims claims') :
    Adds (fun index => ∀ root ∈ s.tables.roots, root.treeSize ≤ index) claims claims' := by
  cases hkey : transfer.spendKeyForTransfer log.node.crypto with
  | error e =>
    -- Nothing was appended.
    have hcall : log.appendTransferAnnouncement call s.tables = (.error e, s.tables) := by
      have hprepare : log.server.prepareTransfer call.clock transfer = .error e := by
        unfold AppendServer.prepareTransfer
        rw [show transfer.transferHash log.server.crypto call.clock = .ok hash from hhash, Check.ok_bind,
          show transfer.spendKeyForTransfer log.server.crypto = .error e from hkey]
        rfl
      simp only [OperatorLog.appendTransferAnnouncement, htransfer, hprepare]
    rw [hcall] at hsound
    rw [Adds.eq_of_rows h.toClaimed hsound.toClaimed rfl hadds]
    exact Adds.refl _ _
  | ok key =>
    cases hfind : s.tables.storage.findEntry log.backend hash with
    | none =>
      obtain ⟨hfresh, -⟩ := happended.fresh hfind
      refine hadds.mono fun index hindex root hroot => ?_
      have hle := h.ordered.treeSize_le hroot
      have hcounter := h.spaced.counter
      rw [treeSize] at hle
      omega
    | some e =>
      obtain ⟨hleaf, -⟩ := happended.known e hfind
      rcases htimely transfer hash key e htransfer hhash hkey hfind with hknown | huncovered
      · obtain ⟨-, hclaims⟩ := log.appendTransferAnnouncement_advances call s.tables
        rw [Adds.eq_of_rows h.toClaimed hsound.toClaimed
          (hclaims transfer hash key htransfer hhash hkey h.indexed hknown) hadds]
        exact Adds.refl _ _
      · refine hadds.mono fun index hindex root hroot => ?_
        rw [hindex, hleaf]
        exact huncovered root hroot

/-- **A call keeps what the roots commit to**, and adds claims for leaves that no root covers. -/
theorem Committed.step_adds {s s' : State} {event : Event ProofBundle} (h : log.Committed s.clock s.tables claims)
    (hrecords : log.Records s event) (htimely : log.Timely s event) (hstep : log.step s event = some s') :
    ∃ claims', log.Committed s'.clock s'.tables claims' ∧
      Adds (fun index => ∀ root ∈ s.tables.roots, root.treeSize ≤ index) claims claims' := by
  obtain ⟨hle, hmax, hevent⟩ := hrecords
  obtain rfl := Option.some.inj hstep
  obtain ⟨hordered, -⟩ := h.ordered.after event
  have hextend : ∀ {claims' : List SpendClaim},
      Adds (fun index => ∀ root ∈ s.tables.roots, root.treeSize ≤ index) claims claims' →
        ∀ root ∈ s.tables.roots, log.Commits event.clock claims' root := by
    intro claims' hadds root hroot
    exact (h.commits root hroot).extend (hadds.mono fun index hindex => hindex root hroot) hle
  cases event with
  | transfer call =>
    obtain ⟨hadvances, -⟩ := log.appendTransferAnnouncement_advances call s.tables
    obtain ⟨-, hroots⟩ := log.appendTransferAnnouncement_leaves call s.tables
    have hspaced := h.spaced.advance h.ordered hadvances hroots
    rcases h.toSound.appendTransferAnnouncement hle hmax hevent with
      ⟨hsound, -, -⟩ |
        ⟨transfer, hash, json, stored, storage, htransfer, hhash, happended, claims', hsound, hadds, -⟩
    · refine ⟨claims, ⟨hsound, hordered, hspaced, fun root hroot => ?_⟩, Adds.refl _ _⟩
      exact hextend (Adds.refl _ _) root (hroots ▸ hroot)
    · have huncovered := h.adds_transfer htimely htransfer hhash happended hsound hadds
      refine ⟨claims', ⟨hsound, hordered, hspaced, fun root hroot => ?_⟩, huncovered⟩
      exact hextend huncovered root (hroots ▸ hroot)
  | entry now entryHash submittedAt transfer entryKind entry fault =>
    have hgrown := log.server.grown_appendEntryHash entryHash submittedAt transfer entryKind entry fault
      s.tables.storage
    have hadvances := log.server.advances_appendEntryHash entryHash submittedAt transfer entryKind entry fault
      s.tables.storage
    exact ⟨claims, ⟨h.toSound.mono hgrown hle hmax, hordered, h.spaced.advance h.ordered hadvances rfl,
      hextend (Adds.refl _ _)⟩, Adds.refl _ _⟩
  | publish now timestamp =>
    obtain ⟨hgapless, huncovered⟩ := htimely
    have hnow : log.Sound now s.tables claims := h.toSound.mono (Storage.Grown.refl _ _) hle hmax
    obtain ⟨claims', u, hsound, hadds, hentries, hleaf, hstorage, hmap, hroots⟩ :=
      hnow.publishRoot (fun index => ∀ root ∈ s.tables.roots, root.treeSize ≤ index) hevent
        (fun e he root hroot => huncovered e he root hroot) timestamp
    have hindex : u.storage.index = s.tables.storage.index := by
      rw [Storage.index, Storage.index, hentries]
    have hugapless : Gapless u.storage := by
      unfold Gapless
      rw [hindex, hleaf]
      exact hgapless
    have hstate : ∀ root ∈ (log.publishRoot now timestamp s.tables).2.roots, log.Commits now claims' root := by
      intro root hroot
      rcases hroots with hsame | ⟨new, hadded, hsigns⟩
      · exact hextend hadds root (hsame ▸ hroot)
      · rw [hadded, List.mem_append, List.mem_singleton] at hroot
        rcases hroot with hroot | rfl
        · exact hextend hadds root hroot
        · exact hsigns.commits hsound hugapless
    have hspaced : Spaced (log.publishRoot now timestamp s.tables).2 := by
      obtain ⟨w, hsame, hwstorage, -⟩ := log.publishRoot_cases now timestamp s.tables
      refine ⟨?_, fun root hroot htree e he => ?_⟩
      · rw [hwstorage, hsame.leaf, hsame.lastLeafId]
        exact h.spaced.counter
      · rw [hstorage, hindex] at he
        rw [htree, treeSize, hstorage, hleaf]
        exact_mod_cast hgapless e he
    exact ⟨claims', ⟨hsound.congr hstorage hmap, hordered, hspaced, hstate⟩, hadds⟩

/-- In some state of a run the roots commit to the claims for their leaves. -/
def Bound (log : OperatorLog ProofBundle) (s : State) : Prop :=
  ∃ claims, log.Committed s.clock s.tables claims

theorem Bound.step {s t : State} {event : Event ProofBundle} (h : log.Bound s) (hrecords : log.Records s event)
    (htimely : log.Timely s event) (hstep : log.step s event = some t) : log.Bound t := by
  obtain ⟨claims, hs⟩ := h
  obtain ⟨claims', ht, -⟩ := hs.step_adds hrecords htimely hstep
  exact ⟨claims', ht⟩

/-- **The roots of a run commit to the claims for their leaves.** -/
theorem bound_of_reaches {s : State}
    (h : Runs.Reaches log.step (fun s event => log.Records s event ∧ log.Timely s event) initial s) :
    log.Bound s :=
  h.invariant (fun _ _ _ hs hmeets hstep => hs.step hmeets.1 hmeets.2 hstep) ⟨[], committed_empty log⟩

end OperatorLog
