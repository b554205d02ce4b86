import InternationalDollar.HonestLog
import InternationalDollar.OperatorRuns

set_option autoImplicit false

/-! # The signed roots of an operator

What holds of the roots in every run of an operator, also where connections are lost and claims cannot be recorded:
each is over a prefix of the leaves, and each is later than the ones before it and over no fewer leaves
(`Ordered.of_reaches`). So two of its roots can only collide in their spend maps. -/

namespace Select

variable {α κ : Type} [LinearOrder κ] {key : α → κ} {rows : List α} {row : α}

/-- The last row in an order has the greatest key. -/
theorem le_getLast?_orderBy {last : α} (hlast : (orderBy key rows).getLast? = some last) (hrow : row ∈ rows) :
    key row ≤ key last := by
  obtain ⟨before, hsplit⟩ := List.getLast?_eq_some_iff.1 hlast
  have hsorted := sorted_orderBy key rows
  have hin : row ∈ orderBy key rows := mem_orderBy.2 hrow
  rw [hsplit] at hsorted hin
  rcases List.mem_append.1 hin with hin | hin
  · exact (List.pairwise_append.1 hsorted).2.2 row hin last (List.mem_singleton_self _)
  · rw [List.mem_singleton.1 hin]

end Select

/-! ## What claims and spend maps leave alone -/

/-- Tables with the storage and the roots of other tables. -/
structure OperatorTables.SameStorage (s u : OperatorTables) : Prop where
  storage : u.storage = s.storage
  roots : u.roots = s.roots

theorem OperatorTables.SameStorage.refl (s : OperatorTables) : s.SameStorage s :=
  ⟨rfl, rfl⟩

/-- Tables with the leaves, the entries and the roots of other tables. -/
structure OperatorTables.SameLog (s u : OperatorTables) : Prop where
  leaf : u.storage.leaf = s.storage.leaf
  lastLeafId : u.storage.lastLeafId = s.storage.lastLeafId
  logEntries : u.storage.logEntries = s.storage.logEntries
  roots : u.roots = s.roots

theorem OperatorTables.SameLog.refl (s : OperatorTables) : s.SameLog s :=
  ⟨rfl, rfl, rfl, rfl⟩

theorem OperatorTables.SameLog.trans {s t u : OperatorTables} (h : s.SameLog t) (k : t.SameLog u) :
    s.SameLog u :=
  ⟨k.leaf.trans h.leaf, k.lastLeafId.trans h.lastLeafId, k.logEntries.trans h.logEntries, k.roots.trans h.roots⟩

theorem OperatorTables.SameStorage.sameLog {s u : OperatorTables} (h : s.SameStorage u) : s.SameLog u := by
  obtain ⟨hstorage, hroots⟩ := h
  exact ⟨by rw [hstorage], by rw [hstorage], by rw [hstorage], hroots⟩

namespace OperatorLog

open Effect

variable {ProofBundle : Type} {log : OperatorLog ProofBundle} {now : Int} {s t u : OperatorTables}

section KeepsStorage

variable {α : Type}

/-- A computation that leaves the storage and the roots alone. -/
abbrev KeepsStorage (s : OperatorTables) (x : Writes α) : Prop :=
  Keeps s.SameStorage x fun _ => True

theorem keepsStorage_lift (x : Except String α) : KeepsStorage s (lift x) :=
  Keeps.lift fun _ _ => trivial

theorem keepsStorage_read (f : OperatorTables → α) : KeepsStorage s (read f) :=
  Keeps.read fun _ _ => trivial

theorem keepsStorage_map (f : OperatorTables → MapTables) :
    KeepsStorage s (write fun t => { t with map := f t }) :=
  Keeps.write (fun _ h => ⟨h.storage, h.roots⟩) trivial

theorem keepsStorage_quarantine (hash : String) : KeepsStorage s (write (quarantine hash)) :=
  Keeps.write (fun _ h => ⟨h.storage, h.roots⟩) trivial

theorem keepsStorage_normalizeClaimWithStoredTransfer (claim : SpendClaim) (entry : Option LogEntry) :
    KeepsStorage s (log.normalizeClaimWithStoredTransfer now claim entry) := by
  refine Keeps.next (keepsStorage_lift _) fun plain => ?_
  split
  · exact Keeps.ret trivial
  · split
    · exact Keeps.ret trivial
    · split
      · exact Keeps.ret trivial
      · exact Keeps.next (keepsStorage_quarantine _) fun _ => Keeps.ret trivial

theorem keepsStorage_collectRecords (items : List (SpendClaimRow × Int)) :
    KeepsStorage s (log.collectRecords now items) := by
  induction items with
  | nil => exact Keeps.ret trivial
  | cons item rest ih =>
    refine Keeps.next (keepsStorage_read _) fun entry => ?_
    refine Keeps.next (keepsStorage_normalizeClaimWithStoredTransfer _ entry) fun claim => ?_
    exact Keeps.next ih fun _ => Keeps.ret trivial

theorem keepsStorage_spendClaimRecords (treeSize : Option Int) :
    KeepsStorage s (log.spendClaimRecords now treeSize) :=
  Keeps.next (keepsStorage_read _) fun rows => keepsStorage_collectRecords rows

theorem keepsStorage_claimsForCurrentSpendKey (spendKey : String) :
    KeepsStorage s (log.claimsForCurrentSpendKey now spendKey) := by
  refine Keeps.next (keepsStorage_lift _) fun spendKey => ?_
  refine Keeps.next (keepsStorage_read _) fun rows => Keeps.ite (fun _ => ?_) fun _ => ?_
  · exact Keeps.next (keepsStorage_lift _) fun _ => Keeps.ret trivial
  · exact Keeps.next (keepsStorage_spendClaimRecords _) fun _ => Keeps.ret trivial

theorem keepsStorage_storeCurrentSpendMapClaim (row : SpendClaimRow) (leafIndex : Int) :
    KeepsStorage s (log.storeCurrentSpendMapClaim now row leafIndex) := by
  refine Keeps.next ?_ fun claim => ?_
  · exact Keeps.next (keepsStorage_read _) fun entry => keepsStorage_normalizeClaimWithStoredTransfer _ entry
  · exact Keeps.next (keepsStorage_lift _) fun _ => Keeps.next (keepsStorage_map _) fun _ => Keeps.ret trivial

theorem keepsStorage_updateCurrentSpendMapPath (spendKey : String) :
    KeepsStorage s (log.updateCurrentSpendMapPath now spendKey) := by
  refine Keeps.next (keepsStorage_lift _) fun spendKey => ?_
  refine Keeps.next (keepsStorage_claimsForCurrentSpendKey _) fun claims => ?_
  refine Keeps.next (keepsStorage_lift _) fun hash => Keeps.next (keepsStorage_lift _) fun position => ?_
  exact Keeps.next (keepsStorage_read _) fun _ => Keeps.next (keepsStorage_map _) fun _ => Keeps.ret trivial

theorem keepsStorage_rebuildCurrentSpendMap : KeepsStorage s (log.rebuildCurrentSpendMap now) := by
  refine Keeps.next (keepsStorage_spendClaimRecords _) fun records => ?_
  refine Keeps.next (keepsStorage_lift _) fun claims => Keeps.next (keepsStorage_lift _) fun map => ?_
  refine Keeps.next (keepsStorage_map _) fun _ => Keeps.next (Keeps.forEach fun claim _ => ?_) fun _ => ?_
  · exact Keeps.next (keepsStorage_lift _) fun _ => keepsStorage_map _
  · exact Keeps.next (keepsStorage_map _) fun _ => Keeps.ret trivial

theorem keepsStorage_recordCurrentSpendMapClaim (row : SpendClaimRow) (leafIndex : Int) :
    KeepsStorage s (log.recordCurrentSpendMapClaim now row leafIndex) := by
  refine Keeps.next (keepsStorage_read _) fun needsRebuild => ?_
  refine Keeps.next (keepsStorage_storeCurrentSpendMapClaim _ _) fun claim => Keeps.ite (fun _ => ?_) fun _ => ?_
  · exact keepsStorage_rebuildCurrentSpendMap
  · refine Keeps.next (keepsStorage_updateCurrentSpendMapPath _) fun root => ?_
    exact Keeps.next (keepsStorage_map _) fun _ => Keeps.next (keepsStorage_read _) fun _ => Keeps.ret trivial

theorem keepsStorage_ensureCurrentSpendMap (log : OperatorLog ProofBundle) (now : Int) (s : OperatorTables) :
    KeepsStorage s (log.ensureCurrentSpendMap now) := by
  refine Keeps.next (keepsStorage_read _) fun needsRebuild => Keeps.ite (fun _ => ?_) fun _ => ?_
  · exact keepsStorage_rebuildCurrentSpendMap
  · exact Keeps.next (keepsStorage_read _) fun _ => Keeps.next (keepsStorage_read _) fun _ => Keeps.ret trivial

/-- **What `_record_spend_claim` does to the storage**, whether it returns or raises. -/
theorem storage_recordSpendClaim (log : OperatorLog ProofBundle) (now : Int) (transfer : Transfer)
    (key hash : String) (leafIndex firstSeen : Int) (s : OperatorTables) :
    (log.recordSpendClaim now transfer key hash leafIndex firstSeen s).2.storage
      = (s.storage.insertClaim log.backend ⟨key, transfer.tokenId, transfer.previousHash, transfer.sequence,
          transfer.senderAddress, transfer.senderPublicKey, hash, some leafIndex, firstSeen⟩).indexClaim
          log.backend key hash leafIndex ∧
      (log.recordSpendClaim now transfer key hash leafIndex firstSeen s).2.roots = s.roots := by
  rw [recordSpendClaim, write_bind, write_bind]
  have hkept : ∀ t : OperatorTables, KeepsStorage t (read (fun s => s.storage.findClaim log.backend key hash)
      >>= fun persisted => lift (Check.ofOption persisted "spend claim was not recorded") >>= fun row =>
        lift (Check.ofOption row.transferLeafIndex "int() argument must be a string or a number") >>=
          fun leafIndex => log.recordCurrentSpendMapClaim now row leafIndex >>= fun _ => (pure () : Writes Unit)) := by
    intro t
    refine Keeps.next (keepsStorage_read _) fun persisted => Keeps.next (keepsStorage_lift _) fun row => ?_
    refine Keeps.next (keepsStorage_lift _) fun leafIndex => ?_
    exact Keeps.next (keepsStorage_recordCurrentSpendMapClaim _ _) fun _ => Keeps.ret trivial
  obtain ⟨⟨hstorage, hroots⟩, -⟩ := hkept _ _ (.refl _)
  exact ⟨hstorage, hroots⟩

end KeepsStorage

section KeepsLog

variable {α : Type}

/-- A computation that leaves the leaves, the entries and the roots alone. -/
abbrev KeepsLog (s : OperatorTables) (x : Writes α) : Prop :=
  Keeps s.SameLog x fun _ => True

theorem keepsLog_of_keepsStorage {x : Writes α} (h : ∀ t, KeepsStorage t x) : KeepsLog s x := by
  intro t ht
  obtain ⟨hsame, -⟩ := h t t (.refl t)
  exact ⟨ht.trans hsame.sameLog, fun _ _ => trivial⟩

theorem logEntries_insertClaim (backend : Backend) (row : SpendClaimRow) (storage : Storage) :
    (storage.insertClaim backend row).logEntries = storage.logEntries := by
  unfold Storage.insertClaim
  split <;> rfl

theorem sameLog_recordSpendClaim (log : OperatorLog ProofBundle) (now : Int) (transfer : Transfer)
    (key hash : String) (leafIndex firstSeen : Int) (s : OperatorTables) :
    s.SameLog (log.recordSpendClaim now transfer key hash leafIndex firstSeen s).2 := by
  obtain ⟨hstorage, hroots⟩ := storage_recordSpendClaim log now transfer key hash leafIndex
    firstSeen s
  have hsame := Storage.sameNumbering_insertClaim log.backend ⟨key, transfer.tokenId, transfer.previousHash,
    transfer.sequence, transfer.senderAddress, transfer.senderPublicKey, hash, some leafIndex, firstSeen⟩ s.storage
  refine ⟨?_, ?_, ?_, hroots⟩
  · rw [hstorage]
    exact hsame.leaf
  · rw [hstorage]
    exact hsame.lastLeafId
  · rw [hstorage]
    exact logEntries_insertClaim _ _ _

theorem keepsLog_reconcileEntry (e : LogEntry) : KeepsLog s (log.reconcileEntry now e) := by
  unfold reconcileEntry
  split
  · exact keepsLog_of_keepsStorage fun _ => keepsStorage_quarantine _
  · refine Keeps.next (keepsLog_of_keepsStorage fun _ => keepsStorage_lift _) fun key t ht => ?_
    exact ⟨ht.trans (sameLog_recordSpendClaim log now _ _ _ _ _ t), fun _ _ => trivial⟩

theorem keepsLog_prepareRoot (log : OperatorLog ProofBundle) (now : Int) (s : OperatorTables) :
    KeepsLog s (log.prepareRoot now) := by
  have hreconcile : KeepsLog s (log.reconcileTransferSpendClaims now) :=
    Keeps.next (keepsLog_of_keepsStorage fun _ => keepsStorage_read _) fun _ =>
      Keeps.forEach fun e _ => keepsLog_reconcileEntry e
  refine Keeps.next hreconcile.attempt.trivial fun outcome => ?_
  split
  · exact Keeps.ret trivial
  · refine Keeps.next (keepsLog_of_keepsStorage fun _ => keepsStorage_read _) fun conflict =>
      Keeps.ite (fun _ => ?_) fun _ => Keeps.ret trivial
    exact Keeps.next (keepsLog_of_keepsStorage fun _ => keepsStorage_rebuildCurrentSpendMap) fun _ =>
      Keeps.ret trivial

end KeepsLog

/-! ## Calls -/

/-- What `publish_root` may add to the roots: one root, over all leaves and later than every other. -/
structure Publishes (log : OperatorLog ProofBundle) (timestamp : Int) (s : OperatorTables) (root : SignedRoot) :
    Prop where
  made : ∃ spendMapRoot spendMapSize, SignedRoot.makeSignedRoot log.node.crypto (treeSize s)
    (log.currentRootHash s (treeSize s)) (nextTimestamp timestamp (latestRoot s)) log.privateKey log.publicKey
    spendMapRoot spendMapSize = .ok root
  id : ∃ id, root.signedRootId log.node.crypto = .ok id

theorem treeSize_congr (h : u.storage.leaf = s.storage.leaf) : treeSize u = treeSize s := by
  rw [treeSize, treeSize, h]

theorem currentRootHash_congr (h : u.storage.leaf = s.storage.leaf) (size : Nat) :
    log.currentRootHash u size = log.currentRootHash s size := by
  rw [currentRootHash, currentRootHash, h]

/-- **What `publish_root` does in every case**: it leaves the leaves and the entries alone, and adds one root at
    most. -/
theorem publishRoot_cases (log : OperatorLog ProofBundle) (now : Int) (timestamp : Option Int)
    (s : OperatorTables) :
    ∃ u, s.SameLog u ∧ (log.publishRoot now timestamp s).2.storage = u.storage ∧
      ((log.publishRoot now timestamp s).2.roots = s.roots ∨
        ∃ root, (log.publishRoot now timestamp s).2.roots = s.roots ++ [root] ∧
          log.Publishes (timestamp.getD now) s root) := by
  have hprepared := (keepsLog_prepareRoot log now s).atomically s (.refl s)
  cases hrun : atomically (log.prepareRoot now) s with
  | mk result t =>
    rw [hrun] at hprepared
    obtain ⟨hsame, -⟩ := hprepared
    cases result with
    | error e =>
      have hraised : log.publishRoot now timestamp s = (.error e, t) := bind_of_error hrun
      rw [hraised]
      exact ⟨t, hsame, rfl, Or.inl hsame.roots⟩
    | ok reason =>
      have hrest : log.publishRoot now timestamp s = _ := bind_of_ok hrun
      cases reason with
      | some reason =>
        have hraised : log.publishRoot now timestamp s = (.error reason, t) := hrest
        rw [hraised]
        exact ⟨t, hsame, rfl, Or.inl hsame.roots⟩
      | none =>
        simp only [read_bind] at hrest
        have hensured := (keepsLog_of_keepsStorage (s := s)
          (keepsStorage_ensureCurrentSpendMap log now)).atomically t hsame
        cases hensure : atomically (log.ensureCurrentSpendMap now) t with
        | mk result u =>
          rw [hensure] at hensured
          obtain ⟨hsame', -⟩ := hensured
          cases result with
          | error e =>
            rw [bind_of_error hensure] at hrest
            rw [hrest]
            exact ⟨u, hsame', rfl, Or.inl hsame'.roots⟩
          | ok spendMap =>
            obtain ⟨spendMapRoot, spendMapSize⟩ := spendMap
            rw [bind_of_ok hensure] at hrest
            dsimp only at hrest
            rw [treeSize_congr hsame.leaf, currentRootHash_congr hsame.leaf,
              show latestRoot t = latestRoot s by rw [latestRoot, latestRoot, hsame.roots]] at hrest
            cases hmade : SignedRoot.makeSignedRoot log.node.crypto (treeSize s)
                (log.currentRootHash s (treeSize s)) (nextTimestamp (timestamp.getD now) (latestRoot s))
                log.privateKey log.publicKey spendMapRoot spendMapSize with
            | error e =>
              rw [hmade, lift_error_bind] at hrest
              rw [hrest]
              exact ⟨u, hsame', rfl, Or.inl hsame'.roots⟩
            | ok root =>
              rw [hmade, lift_ok_bind] at hrest
              cases hid : root.signedRootId log.node.crypto with
              | error e =>
                rw [hid, lift_error_bind] at hrest
                rw [hrest]
                exact ⟨u, hsame', rfl, Or.inl hsame'.roots⟩
              | ok id =>
                rw [hid, lift_ok_bind, write_bind] at hrest
                rw [hrest]
                refine ⟨u, hsame', ?_, ?_⟩
                · show (log.insertRoot root u).storage = u.storage
                  unfold insertRoot
                  split <;> rfl
                · have hroots : (log.insertRoot root u).roots = u.roots ∨
                      (log.insertRoot root u).roots = u.roots ++ [root] := by
                    unfold insertRoot
                    split
                    · exact Or.inl rfl
                    · exact Or.inr rfl
                  rw [hsame'.roots] at hroots
                  exact hroots.imp_right fun hadded =>
                    ⟨root, hadded, ⟨spendMapRoot, spendMapSize, hmade⟩, id, hid⟩

/-- What an append does to the leaves and the roots. -/
theorem appendTransferAnnouncement_leaves (log : OperatorLog ProofBundle) (call : TransferCall ProofBundle)
    (s : OperatorTables) :
    s.storage.leaf <+: (log.appendTransferAnnouncement call s).2.storage.leaf ∧
      (log.appendTransferAnnouncement call s).2.roots = s.roots := by
  unfold appendTransferAnnouncement
  split
  · exact ⟨List.prefix_rfl, rfl⟩
  · next transfer _ =>
    split
    · exact ⟨List.prefix_rfl, rfl⟩
    · next hash key _ =>
      rcases (@appendTransferConn_triple _ log call.clock s transfer key hash
        (call.submittedAt.getD call.clock)).run log.rollback
        (show (Transaction.Session.mk s call.fault).tables = s from rfl) fun _ _ _ _ => trivial with
        ⟨_, session, ⟨json, stored, storage, -, happended, hrecord⟩, hrun⟩ | ⟨_, session, -, hrun⟩
      · rw [hrun]
        have hkept := sameLog_recordSpendClaim log call.clock transfer key hash
          ((stored.leafIndex : Int) - 1) (call.submittedAt.getD call.clock) { s with storage }
        rw [hrecord] at hkept
        refine ⟨?_, hkept.roots⟩
        show s.storage.leaf <+: session.tables.storage.leaf
        rw [hkept.leaf]
        exact happended.leaf
      · rw [hrun]
        exact ⟨(Storage.grown_rollback log.backend s.storage session.tables.storage).leaf, rfl⟩

/-! ## The order of the roots -/

/-- A root over the first leaves of a log. -/
structure SignedOver (log : OperatorLog ProofBundle) (s : OperatorTables) (root : SignedRoot) : Prop where
  leaves : ∃ size : Nat, size ≤ treeSize s ∧ root.treeSize = size ∧
    root.rootHash = Text.lower (log.currentRootHash s size)
  logId : root.logId = log.logId
  id : ∃ id, root.signedRootId log.node.crypto = .ok id

/-- The roots are over prefixes of the leaves, each later than those before it and over no fewer leaves. -/
structure Ordered (log : OperatorLog ProofBundle) (s : OperatorTables) : Prop where
  signed : ∀ root ∈ s.roots, log.SignedOver s root
  increasing : s.roots.Pairwise fun a b => a.timestamp < b.timestamp ∧ a.treeSize ≤ b.treeSize

/-- The leaves and the roots only grow. -/
structure AppendOnly (s u : OperatorTables) : Prop where
  leaf : s.storage.leaf <+: u.storage.leaf
  roots : s.roots <+: u.roots

theorem currentRootHash_of_grown {size : Nat} (h : s.storage.leaf <+: u.storage.leaf) (hsize : size ≤ treeSize s) :
    log.currentRootHash u size = log.currentRootHash s size := by
  obtain ⟨added, hadded⟩ := h
  rw [currentRootHash, currentRootHash, ← hadded, List.map_append,
    List.take_append_of_le_length (by rwa [List.length_map])]

theorem SignedOver.mono {root : SignedRoot} (h : log.SignedOver s root)
    (hleaf : s.storage.leaf <+: u.storage.leaf) : log.SignedOver u root := by
  obtain ⟨size, hsize, htree, hhash⟩ := h.leaves
  refine { h with leaves := ⟨size, hsize.trans hleaf.length_le, htree, ?_⟩ }
  rw [currentRootHash_of_grown hleaf hsize]
  exact hhash

theorem Ordered.mono (h : log.Ordered s) (hleaf : s.storage.leaf <+: u.storage.leaf) (hroots : u.roots = s.roots) :
    log.Ordered u where
  signed := by
    rw [hroots]
    exact fun root hroot => (h.signed root hroot).mono hleaf
  increasing := by
    rw [hroots]
    exact h.increasing

/-- A new root is later than every other. -/
theorem lt_nextTimestamp (timestamp : Int) {root : SignedRoot} (hroot : root ∈ s.roots) :
    root.timestamp < nextTimestamp timestamp (latestRoot s) := by
  cases hlatest : latestRoot s with
  | none =>
    have hempty := List.getLast?_eq_none_iff.1 hlatest
    have hmem : root ∈ Select.orderBy (fun root : SignedRoot => toLex (root.timestamp, root.treeSize)) s.roots :=
      Select.mem_orderBy.2 hroot
    rw [hempty] at hmem
    exact absurd hmem List.not_mem_nil
  | some latest =>
    have hle := Select.le_getLast?_orderBy hlatest hroot
    have htime : root.timestamp ≤ latest.timestamp := by
      rcases Prod.Lex.toLex_le_toLex.1 hle with h | h
      · exact le_of_lt h
      · exact le_of_eq h.1
    show root.timestamp < if timestamp ≤ latest.timestamp then latest.timestamp + 1 else timestamp
    split <;> omega

theorem Publishes.fields {timestamp : Int} {root : SignedRoot} (h : log.Publishes timestamp s root) :
    root.treeSize = treeSize s ∧ root.rootHash = Text.lower (log.currentRootHash s (treeSize s)) ∧
      root.timestamp = nextTimestamp timestamp (latestRoot s) ∧ root.logId = log.logId := by
  obtain ⟨spendMapRoot, spendMapSize, hmade⟩ := h.made
  obtain ⟨_, -, hmade⟩ := Check.bind_eq_ok.1 hmade
  obtain ⟨_, -, hmade⟩ := Check.bind_eq_ok.1 hmade
  obtain rfl := Check.pure_eq_ok.1 hmade
  exact ⟨rfl, rfl, rfl, rfl⟩

/-- **A new root keeps the order.** -/
theorem Ordered.publish (h : log.Ordered s) {timestamp : Int} {root : SignedRoot}
    (hroot : log.Publishes timestamp s root) (hleaf : u.storage.leaf = s.storage.leaf)
    (hroots : u.roots = s.roots ++ [root]) : log.Ordered u := by
  obtain ⟨hsize, hhash, htime, hlog⟩ := hroot.fields
  have hprefix : s.storage.leaf <+: u.storage.leaf := by rw [hleaf]
  constructor
  · intro other hother
    rw [hroots, List.mem_append, List.mem_singleton] at hother
    rcases hother with hother | rfl
    · exact (h.signed other hother).mono hprefix
    · refine ⟨⟨treeSize s, ?_, hsize, ?_⟩, hlog, hroot.id⟩
      · exact hprefix.length_le
      · rw [currentRootHash_congr hleaf]
        exact hhash
  · rw [hroots]
    refine List.pairwise_append.2 ⟨h.increasing, List.pairwise_singleton _ _, fun other hother _ hnew => ?_⟩
    obtain rfl := List.mem_singleton.1 hnew
    obtain ⟨size, hle, htree, -⟩ := (h.signed other hother).leaves
    refine ⟨?_, ?_⟩
    · rw [htime]
      exact lt_nextTimestamp timestamp hother
    · rw [htree, hsize]
      exact_mod_cast hle

theorem AppendOnly.refl (s : OperatorTables) : AppendOnly s s :=
  ⟨List.prefix_rfl, List.prefix_rfl⟩

theorem AppendOnly.trans (h : AppendOnly s t) (k : AppendOnly t u) : AppendOnly s u :=
  ⟨h.leaf.trans k.leaf, h.roots.trans k.roots⟩

/-- **A call keeps the order of the roots**, and takes nothing away. -/
theorem Ordered.after (h : log.Ordered s) (event : Event ProofBundle) :
    log.Ordered (log.after s event) ∧ AppendOnly s (log.after s event) := by
  cases event with
  | transfer call =>
    obtain ⟨hleaf, hroots⟩ := log.appendTransferAnnouncement_leaves call s
    exact ⟨h.mono hleaf hroots, hleaf, hroots ▸ List.prefix_rfl⟩
  | entry clock entryHash submittedAt transfer entryKind entry fault =>
    have hgrown := log.server.grown_appendEntryHash entryHash submittedAt transfer entryKind entry fault s.storage
    exact ⟨h.mono hgrown.leaf rfl, hgrown.leaf, List.prefix_rfl⟩
  | publish clock timestamp =>
    obtain ⟨u, hsame, hstorage, hroots⟩ := log.publishRoot_cases clock timestamp s
    have hleaf : (log.after s (.publish clock timestamp)).storage.leaf = s.storage.leaf := by
      show (log.publishRoot clock timestamp s).2.storage.leaf = _
      rw [hstorage, hsame.leaf]
    rcases hroots with hroots | ⟨root, hroots, hpublished⟩
    · exact ⟨h.mono (hleaf ▸ List.prefix_rfl) hroots, hleaf ▸ List.prefix_rfl, hroots ▸ List.prefix_rfl⟩
    · exact ⟨h.publish hpublished hleaf hroots, hleaf ▸ List.prefix_rfl, hroots ▸ List.prefix_append _ _⟩

theorem ordered_empty (log : OperatorLog ProofBundle) : log.Ordered .empty :=
  ⟨fun _ h => absurd h List.not_mem_nil, List.Pairwise.nil⟩

/-- Later tables with ordered roots. -/
def OrderedSince (log : OperatorLog ProofBundle) (s : OperatorTables) (u : State) : Prop :=
  log.Ordered u.tables ∧ AppendOnly s u.tables

/-- A run keeps the order of the roots, and takes nothing away. -/
theorem Ordered.of_reaches {s u : State} {meets : State → Event ProofBundle → Prop} (h : log.Ordered s.tables)
    (hreaches : Runs.Reaches log.step meets s u) : log.Ordered u.tables ∧ AppendOnly s.tables u.tables := by
  have hkept : ∀ t event u, log.OrderedSince s.tables t → log.step t event = some u →
      log.OrderedSince s.tables u := by
    rintro t event u ⟨hordered, hgrown⟩ hstep
    obtain rfl := Option.some.inj hstep
    obtain ⟨hafter, hmore⟩ := hordered.after event
    exact ⟨hafter, hgrown.trans hmore⟩
  have hstart : log.OrderedSince s.tables s := ⟨h, AppendOnly.refl _⟩
  have hreached : log.OrderedSince s.tables u :=
    hreaches.invariant (fun t event u ht _ hstep => hkept t event u ht hstep) hstart
  exact hreached

end OperatorLog
