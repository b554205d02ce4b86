import InternationalDollar.OperatorCommitments

set_option autoImplicit false

/-! # What an operator completes

A claim is recorded where its texts are within the limits (`Sound.recordSpendClaim_returns`), and `publish_root`
publishes a root, which verifies, exactly where no two recorded claims spend one key with two transfers
(`published_iff_of_reaches`). -/

namespace OperatorLog

open Effect

variable {ProofBundle : Type} {log : OperatorLog ProofBundle} {clock now : Int} {s t u : OperatorTables}
  {claims : List SpendClaim}

/-! ## Records -/

/-- A row with its claim is added. -/
theorem Claimed.insert {storage : Storage} (h : log.Claimed now storage claims) {row : SpendClaimRow} {c : SpendClaim}
    (hrow : log.Recorded now storage row c)
    (hnone : storage.findClaim log.backend row.spendKey row.transferHash = none) :
    log.Claimed now { storage with spendClaims := storage.spendClaims ++ [row] } (claims ++ [c]) := by
  obtain ⟨hspendKey, htransferHash, -⟩ := hrow.fields h.clock_le
  have hapart : ∀ d ∈ claims, d.spendKey = c.spendKey → d.transferHash ≠ c.transferHash := by
    refine h.apart ?_
    rw [hspendKey, htransferHash]
    exact hnone
  have hrows : List.Forall₂ (log.Recorded now storage) (storage.spendClaims ++ [row]) (claims ++ [c]) :=
    List.rel_append h.recorded (List.Forall₂.cons hrow List.Forall₂.nil)
  have hkept : storage.Kept { storage with spendClaims := storage.spendClaims ++ [row] } :=
    Storage.kept_of_logEntries rfl
  refine ⟨h.clock_le, h.distinct, hrows.imp fun _ _ hr => hr.mono hkept le_rfl, fun d hd => ?_, ?_⟩
  · rcases List.mem_append.1 hd with hd | hd
    · exact h.keyed.digest d hd
    · rw [List.mem_singleton.1 hd, hspendKey]
      exact hrow.spendKey
  · refine List.pairwise_append.2 ⟨h.keyed.distinct, List.pairwise_singleton _ _, fun d hd d' hd' => ?_⟩
    rw [List.mem_singleton.1 hd']
    exact hapart d hd

/-- `_claims_for_current_spend_key` for a key with rows in the stored map. -/
theorem claimsForCurrentSpendKey_eq {spendKey : String} (hkey : IsDigest spendKey)
    (hmem : ∃ c ∈ s.map.claims, c.spendKey = spendKey)
    (hnormal : ∀ c ∈ s.map.claims, SpendClaim.normalizeSpendClaim log.node.crypto now c = .ok c) :
    log.claimsForCurrentSpendKey now spendKey s = (.ok (SpendClaim.slotOf s.map.claims spendKey), s) := by
  have hhex : hex32 spendKey "spend key" = .ok spendKey := hex32_eq_ok.2 ⟨hkey.isHex32, hkey.lower⟩
  have hrows : (s.map.claims.filter fun c => c.spendKey = spendKey) ≠ [] := by
    obtain ⟨c, hc, hsame⟩ := hmem
    exact List.ne_nil_of_mem (List.mem_filter.2 ⟨hc, decide_eq_true hsame⟩)
  have hself : SpendMapProof.normalizeClaims log.node.crypto now
      (s.map.claims.filter fun c => c.spendKey = spendKey)
      = .ok (s.map.claims.filter fun c => c.spendKey = spendKey) :=
    SpendMapProof.normalizeClaims_eq_self fun c hc => hnormal c (List.mem_of_mem_filter hc)
  rw [OperatorLog.claimsForCurrentSpendKey, hhex, lift_ok_bind, read_bind, if_pos hrows, hself]
  rfl

/-- `_store_current_spend_map_claim` returns the claim of the row. -/
theorem storeCurrentSpendMapClaim_returns {row : SpendClaimRow} {leafIndex : Int} {e : LogEntry} {raw : Bytes}
    {c : SpendClaim} (hfind : s.storage.findEntry log.backend row.transferHash = some e)
    (hraw : e.transferJson = some raw) (hstored : log.storedClaim now (log.claimOf row leafIndex) raw = .ok c)
    (htext : ∃ text, canonicalBytes c.toJson = .ok text) :
    ∃ t, s.SetAside t ∧ log.storeCurrentSpendMapClaim now row leafIndex s
      = (.ok c, { t with map := s.map.putClaim c }) := by
  obtain ⟨text, htext⟩ := htext
  obtain ⟨hvalue, haside⟩ := log.normalizeClaimWithStoredTransfer_spec now (log.claimOf row leafIndex) hraw s
  rw [hstored] at hvalue
  refine ⟨_, haside, ?_⟩
  rw [storeCurrentSpendMapClaim, currentClaimForMap]
  have hclaim : (read (fun s : OperatorTables => s.storage.findEntry log.backend row.transferHash) >>= fun entry =>
      log.normalizeClaimWithStoredTransfer now (log.claimOf row leafIndex) entry) s
      = (.ok c, (log.normalizeClaimWithStoredTransfer now (log.claimOf row leafIndex) (some e) s).2) := by
    rw [read_bind, hfind]
    exact Prod.ext hvalue rfl
  rw [bind_of_ok hclaim, htext, lift_ok_bind, write_bind, ← haside.map]
  rfl

/-- **`_record_current_spend_map_claim` returns** where the slot of the claim's key can be hashed. -/
theorem recordCurrentSpendMapClaim_returns {row : SpendClaimRow} {leafIndex : Int} {e : LogEntry} {raw : Bytes}
    {c : SpendClaim} (hreflects : s.map.Reflects log.node.crypto claims)
    (hclaimed : log.Claimed now s.storage (claims ++ [c]))
    (hfind : s.storage.findEntry log.backend row.transferHash = some e) (hraw : e.transferJson = some raw)
    (hstored : log.storedClaim now (log.claimOf row leafIndex) raw = .ok c)
    (hslot : ∃ hash, SpendMap.spendMapSlotHash log.node.crypto c.spendKey
      (SpendClaim.slotOf (claims ++ [c]) c.spendKey) = .ok hash) :
    ∃ result u, log.recordCurrentSpendMapClaim now row leafIndex s = (.ok result, u) := by
  have hdigest : IsDigest c.spendKey := hclaimed.keyed.digest c (List.mem_append_right _ (List.mem_singleton_self c))
  have htext := hclaimed.texts c (List.mem_append_right _ (List.mem_singleton_self c))
  have hput : (s.map.putClaim c).claims = s.map.claims ++ [c] := by
    refine MapTables.claims_putClaim_of_new fun d hd hkey hhash => ?_
    obtain ⟨-, -, hdistinct⟩ := List.pairwise_append.1 hclaimed.keyed.distinct
    exact hdistinct d (hreflects.listed.mem_iff.1 hd) c (List.mem_singleton_self c) hkey hhash
  have hperm : (s.map.putClaim c).claims.Perm (claims ++ [c]) := by
    rw [hput]
    exact hreflects.listed.append_right _
  have hslots : SpendClaim.slotOf (s.map.putClaim c).claims c.spendKey
      = SpendClaim.slotOf (claims ++ [c]) c.spendKey :=
    (hclaimed.keyed.perm hperm.symm).slotOf_perm hperm _
  obtain ⟨slotHash, hslot⟩ := hslot
  obtain ⟨t, haside, hstore⟩ := storeCurrentSpendMapClaim_returns hfind hraw hstored htext
  rw [recordCurrentSpendMapClaim, read_bind, bind_of_ok hstore]
  have hnormal : ∀ d ∈ claims ++ [c], SpendClaim.normalizeSpendClaim log.node.crypto now d = .ok d :=
    hclaimed.normal le_rfl hclaimed.clock_le
  cases hrebuild : s.map.needsRebuild log.node.crypto with
  | true =>
    -- The map is made anew from the rows, whose slots can all be hashed.
    rw [if_pos rfl]
    have hstate : log.Claimed now ({ t with map := s.map.putClaim c } : OperatorTables).storage (claims ++ [c]) := by
      show log.Claimed now t.storage _
      rw [haside.storage]
      exact hclaimed
    obtain ⟨records, v, hrecords, -, hrecordsPerm⟩ := hstate.allRecords le_rfl hclaimed.clock_le
    have hin : ∀ d ∈ records, d ∈ claims ++ [c] := fun d hd => hrecordsPerm.mem_iff.1 hd
    obtain ⟨leaf, hleaf, -⟩ := ((hreflects.stored hdigest hperm (hslots.symm ▸ hslot) 0).perm
      hrecordsPerm.symm).nodes
    obtain ⟨map, hlevels, -⟩ := hleaf.exists_levels (hclaimed.keyed.perm hrecordsPerm.symm)
      fun d hd => hnormal d (hin d hd)
    rw [rebuildCurrentSpendMap_eq hrecords (fun d hd => hnormal d (hin d hd))
      fun d hd => hclaimed.texts d (hin d hd), hlevels]
    exact ⟨_, _, rfl⟩
  | false =>
    rw [if_neg Bool.false_ne_true]
    have hrows : ∃ d ∈ (s.map.putClaim c).claims, d.spendKey = c.spendKey :=
      ⟨c, MapTables.mem_putClaim.2 (Or.inr rfl), rfl⟩
    have hne : SpendClaim.slotOf (s.map.putClaim c).claims c.spendKey ≠ [] := by
      obtain ⟨d, hd, hkey⟩ := hrows
      exact List.ne_nil_of_mem (SpendClaim.mem_slotOf.2 ⟨hd, hkey⟩)
    have hkeyClaims := claimsForCurrentSpendKey_eq (s := { t with map := s.map.putClaim c }) hdigest hrows
      fun d hd => hnormal d (hperm.mem_iff.1 hd)
    have hpath : ∃ root v, log.updateCurrentSpendMapPath now c.spendKey { t with map := s.map.putClaim c }
        = (.ok root, v) := by
      have hhex : hex32 c.spendKey "spend key" = .ok c.spendKey := hex32_eq_ok.2 ⟨hdigest.isHex32, hdigest.lower⟩
      rw [updateCurrentSpendMapPath, hhex, lift_ok_bind, bind_of_ok hkeyClaims, leafHash, if_pos hne]
      dsimp only
      rw [hslots, hslot, lift_ok_bind, SpendClaim.spendKeyPosition_of_digest hdigest, lift_ok_bind]
      exact ⟨_, _, rfl⟩
    obtain ⟨root, v, hpath⟩ := hpath
    rw [bind_of_ok hpath]
    exact ⟨_, _, rfl⟩

/-- **A claim for a new key is recorded** where it has a normal form and can be hashed. -/
theorem Sound.recordSpendClaim_returns (h : log.Sound now s claims) {transfer : Transfer} {key hash : String}
    {leafIndex firstSeen : Int} (hkey : IsDigest key) (hhash : IsDigest hash) {e : LogEntry}
    (he : e ∈ s.storage.logEntries) (hentry : log.backend.compared e.entryHash = log.backend.compared hash)
    (hleaf : leafIndex = (e.leafIndex : Int) - 1) {raw : Bytes} (hraw : e.transferJson = some raw)
    (hdated : log.Dated now hash raw) (hnew : s.storage.findClaim log.backend key hash = none) {c : SpendClaim}
    (hstored : log.storedClaim now (log.claimOf ⟨key, transfer.tokenId, transfer.previousHash, transfer.sequence,
      transfer.senderAddress, transfer.senderPublicKey, hash, some leafIndex, firstSeen⟩ leafIndex) raw = .ok c)
    (htext : ∃ text, canonicalBytes c.toJson = .ok text)
    (hslot : ∃ slotHash, SpendMap.spendMapSlotHash log.node.crypto key (SpendClaim.slotOf (claims ++ [c]) key)
      = .ok slotHash) :
    ∃ u, log.recordSpendClaim now transfer key hash leafIndex firstSeen s = (.ok (), u) := by
  let row : SpendClaimRow := ⟨key, transfer.tokenId, transfer.previousHash, transfer.sequence,
    transfer.senderAddress, transfer.senderPublicKey, hash, some leafIndex, firstSeen⟩
  rcases Storage.insertClaim_cases log.backend h.indexed row rfl leafIndex with
    ⟨old, hold, -⟩ | ⟨-, hadded, hfound⟩
  · have hsome := hold.symm.trans hnew
    cases hsome
  have hstorage : (s.storage.insertClaim log.backend row).indexClaim log.backend key hash leafIndex
    = { s.storage with spendClaims := s.storage.spendClaims ++ [row] } := hadded
  have hfind : Storage.findClaim log.backend key hash
    { s.storage with spendClaims := s.storage.spendClaims ++ [row] } = some row := hfound
  obtain ⟨body, hnormal⟩ := normalize_of_storedClaim hstored
  obtain ⟨-, hfields⟩ := SpendClaim.normalizeSpendClaim_eq_ok.1 hnormal
  have hleafIndex : c.transferLeafIndex = leafIndex := by
    rw [← hfields]
    rfl
  have hcompared : Text.lower (log.claimOf row leafIndex).transferHash = hash := by
    show Text.lower (log.backend.compared hash) = hash
    rw [compared_of_digest _ hhash, hhash.lower]
  have hrow : log.Recorded now s.storage row c := by
    refine ⟨hkey, hhash, congrArg some hleafIndex.symm,
      ⟨e, he, hentry, hleafIndex.trans hleaf, raw, hraw, ?_⟩, htext⟩
    intro later hle hmax
    rw [hleafIndex]
    refine storedClaim_later hstored ?_ hle hmax
    rw [hcompared]
    exact hdated
  obtain ⟨hspendKey, -, -⟩ := hrow.fields h.clock_le
  have hclaimKey : c.spendKey = key := hspendKey
  obtain ⟨result, u, hrecord⟩ := recordCurrentSpendMapClaim_returns
    (s := { s with storage := { s.storage with spendClaims := s.storage.spendClaims ++ [row] } })
    h.reflects (h.toClaimed.insert hrow hnew) (h.distinct.findEntry he hentry) hraw hstored
    (by rw [hclaimKey]; exact hslot)
  have hpersisted : Check.ofOption (some row) "spend claim was not recorded" = .ok row := rfl
  have hindex : Check.ofOption row.transferLeafIndex "int() argument must be a string or a number"
    = .ok leafIndex := rfl
  refine ⟨u, ?_⟩
  rw [OperatorLog.recordSpendClaim, write_bind, write_bind, read_bind]
  dsimp only
  rw [hstorage, hfind, hpersisted, lift_ok_bind, hindex, lift_ok_bind, bind_of_ok hrecord]
  rfl

/-! ## Roots -/

/-- An operator with a key pair, whose tree hashes to 32 bytes. -/
structure Equipped (log : OperatorLog ProofBundle) (keys : KeyPair log.node.crypto) : Prop where
  privateKey : log.privateKey = keys.privateKey
  publicKey : log.publicKey = keys.publicKey
  treeState : ∀ leaves, IsHex32 (log.treeState leaves)

theorem Equipped.currentRootHash {keys : KeyPair log.node.crypto} (h : log.Equipped keys) (s : OperatorTables)
    (size : Nat) : IsHex32 (log.currentRootHash s size) := by
  unfold OperatorLog.currentRootHash
  split
  · exact log.node.crypto.isHex32_sha3Hex _
  · exact h.treeState _

/-- The tables after the claims were made up for. -/
def reconciled (log : OperatorLog ProofBundle) (now : Int) (s : OperatorTables) : OperatorTables :=
  (log.reconcileTransferSpendClaims now s).2

/-- What is signed is within the limits of JSON. -/
structure Signable (log : OperatorLog ProofBundle) (now timestamp : Int) (s : OperatorTables) : Prop where
  treeSize : treeSize s ≤ jsonLimits.maxIntegerAbs
  claims : (log.reconciled now s).storage.spendClaims.length ≤ jsonLimits.maxIntegerAbs
  timestamp : (nextTimestamp timestamp (latestRoot s)).natAbs ≤ jsonLimits.maxIntegerAbs

/-- **`publish_root` publishes a root exactly where no two claims spend one key with two transfers.** -/
theorem Sound.published_iff {keys : KeyPair log.node.crypto} (h : log.Sound now s claims) (hkeys : log.Equipped keys)
    (hreconciles : log.Reconciles now s) {timestamp : Option Int}
    (hsignable : log.Signable now (timestamp.getD now) s) :
    (∃ root, (log.publishRoot now timestamp s).1 = .ok root) ↔
      log.hasConflictingSpendClaim (log.reconciled now s) = false := by
  have hattempt : attempt (log.reconcileTransferSpendClaims now) s = (.ok (.ok ()), log.reconciled now s) := by
    rw [attempt, hreconciles, reconciled]
  have hextended : log.Extended now (fun _ => True) s claims (log.reconciled now s) :=
    h.reconcile (fun _ _ => trivial) (Prod.ext hreconciles rfl)
  obtain ⟨claims', hsound, -, -, hleaf, hroots⟩ := hextended
  cases hconflict : log.hasConflictingSpendClaim (log.reconciled now s) with
  | true =>
    obtain ⟨u, hrebuild, -⟩ := hsound.rebuild le_rfl hsound.clock_le
    have hprepared : atomically (log.prepareRoot now) s
        = (.ok (some "operator log contains conflicting spend claims"), u) := by
      rw [atomically, OperatorLog.prepareRoot, bind_of_ok hattempt]
      dsimp only
      rw [read_bind, hconflict, if_pos rfl, bind_of_ok hrebuild]
      rfl
    refine ⟨?_, fun hfalse => by cases hfalse⟩
    rintro ⟨root, hroot⟩
    rw [OperatorLog.publishRoot, bind_of_ok hprepared] at hroot
    cases hroot
  | false =>
    have hprepared : atomically (log.prepareRoot now) s = (.ok none, log.reconciled now s) := by
      rw [atomically, OperatorLog.prepareRoot, bind_of_ok hattempt]
      dsimp only
      rw [read_bind, hconflict, if_neg Bool.false_ne_true]
      rfl
    obtain ⟨u, hensure, hsound', -, -⟩ := hsound.ensure le_rfl hsound.clock_le
    have hensured : atomically (log.ensureCurrentSpendMap now) (log.reconciled now s)
        = (.ok ((log.reconciled now s).map.hashAt log.node.crypto spendMapKeyBits 0, claims'.length), u) := by
      rw [atomically, hensure]
    have hdigest : IsDigest ((log.reconciled now s).map.hashAt log.node.crypto spendMapKeyBits 0) := by
      obtain ⟨map, hlevels, -, hnodes⟩ := hsound.exists_levels le_rfl hsound.clock_le (List.Perm.refl _)
      have hmap := SpendMap.isMapOf_of_levels hlevels
      rw [hnodes _ le_rfl, ← SpendMap.root, hmap.root_eq]
      exact hmap.isDigest_node _ _
    have hsize : OperatorLog.treeSize (log.reconciled now s) = OperatorLog.treeSize s := treeSize_congr hleaf
    have hlatest : latestRoot (log.reconciled now s) = latestRoot s := by
      rw [latestRoot, latestRoot]
      exact congrArg (fun roots => (Select.orderBy _ roots).getLast?) hroots
    have hcount : claims'.length = (log.reconciled now s).storage.spendClaims.length :=
      hsound.recorded.length_eq.symm
    have hnumbers : ∀ n ∈ [((OperatorLog.treeSize s : Nat) : Int), nextTimestamp (timestamp.getD now) (latestRoot s),
        (claims'.length : Int)], n.natAbs ≤ jsonLimits.maxIntegerAbs := by
      simp only [List.forall_mem_cons]
      refine ⟨hsignable.treeSize, hsignable.timestamp, ?_, fun _ hn => absurd hn List.not_mem_nil⟩
      rw [hcount]
      exact hsignable.claims
    obtain ⟨root, hmade⟩ := SignedRoot.exists_makeSignedRoot keys hnumbers
      (hkeys.currentRootHash (log.reconciled now s) (OperatorLog.treeSize s)).1 hdigest.isHex32.1
    have hid : ∃ id, root.signedRootId log.node.crypto = .ok id := by
      obtain ⟨payload, hpayload, hsigned⟩ := Check.bind_eq_ok.1 hmade
      rw [signOperatorPayload_eq] at hsigned
      obtain rfl := Except.ok.inj hsigned
      refine SignedRoot.exists_signedRootId hpayload ?_
      have hchars := Base85.length_encodeGroups (log.node.crypto.sign keys.seed payload)
      rw [log.node.crypto.length_sign] at hchars
      rw [String.length_ofList, Base85.b85encode, List.length_take, hchars]
      omega
    obtain ⟨id, hid⟩ := hid
    refine ⟨fun _ => rfl, fun _ => ⟨root, ?_⟩⟩
    rw [OperatorLog.publishRoot, bind_of_ok hprepared]
    simp only [read_bind]
    rw [hlatest, hsize, bind_of_ok hensured]
    dsimp only
    rw [hkeys.privateKey, hkeys.publicKey, hmade, lift_ok_bind, hid, lift_ok_bind, write_bind]
    rfl

/-- **What `publish_root` leaves where it returns a root**: the rows that were made up for, and the root, or one of
    the same id. -/
theorem publishRoot_eq_ok (hreconciles : log.Reconciles now s) {timestamp : Option Int} {root : SignedRoot}
    (h : (log.publishRoot now timestamp s).1 = .ok root) :
    (log.publishRoot now timestamp s).2.storage = (log.reconciled now s).storage ∧
      ∃ r ∈ (log.publishRoot now timestamp s).2.roots,
        r.signedRootId log.node.crypto = root.signedRootId log.node.crypto := by
  obtain ⟨u, hrun⟩ : ∃ u, log.publishRoot now timestamp s = (.ok root, u) := ⟨_, Prod.ext h rfl⟩
  rw [hrun]
  have hattempt : attempt (log.reconcileTransferSpendClaims now) s = (.ok (.ok ()), log.reconciled now s) := by
    rw [attempt, hreconciles, reconciled]
  obtain ⟨reason, t, hprepared, hrun⟩ := bind_eq_ok.1 hrun
  cases reason with
  | some reason => cases hrun
  | none =>
    have hprepare : log.prepareRoot now s = (.ok none, t) := by
      rw [atomically] at hprepared
      split at hprepared
      · next a v heq => rw [heq, hprepared]
      · cases hprepared
    have hstorage : t.storage = (log.reconciled now s).storage := by
      rw [OperatorLog.prepareRoot, bind_of_ok hattempt] at hprepare
      dsimp only at hprepare
      rw [read_bind] at hprepare
      split at hprepare
      · obtain ⟨_, _, -, hprepare⟩ := bind_eq_ok.1 hprepare
        obtain ⟨hreason, -⟩ := pure_eq_ok.1 hprepare
        cases hreason
      · obtain ⟨-, rfl⟩ := pure_eq_ok.1 hprepare
        rfl
    simp only [read_bind] at hrun
    obtain ⟨⟨mapRoot, mapSize⟩, v, hensure, hrun⟩ := bind_eq_ok.1 hrun
    have hkept := (keepsStorage_ensureCurrentSpendMap log now t).atomically t (.refl t)
    rw [hensure] at hkept
    obtain ⟨hsame, -⟩ := hkept
    dsimp only at hrun
    obtain ⟨signed, _, hsigned, hrun⟩ := bind_eq_ok.1 hrun
    obtain ⟨-, rfl⟩ := lift_eq_ok.1 hsigned
    obtain ⟨id, _, hid, hrun⟩ := bind_eq_ok.1 hrun
    obtain ⟨-, rfl⟩ := lift_eq_ok.1 hid
    rw [write_bind] at hrun
    obtain ⟨rfl, rfl⟩ := pure_eq_ok.1 hrun
    unfold insertRoot
    split
    · next hknown =>
      obtain ⟨r, hr, hid⟩ := List.any_eq_true.1 hknown
      exact ⟨hsame.storage.trans hstorage, r, hr, of_decide_eq_true hid⟩
    · exact ⟨hsame.storage.trans hstorage, _, List.mem_append_right _ (List.mem_singleton_self _), rfl⟩

/-- The first root of a log. -/
theorem Sound.firstRoot {keys : KeyPair log.node.crypto} (h : log.Sound now s claims) (hkeys : log.Equipped keys)
    (hreconciles : log.Reconciles now s) (hsignable : log.Signable now now s)
    (hunique : log.hasConflictingSpendClaim (log.reconciled now s) = false) (hempty : s.roots = []) :
    ∃ u root, log.step ⟨s, now⟩ (.publish now none) = some ⟨u, now⟩ ∧
      u.storage = (log.reconciled now s).storage ∧ u.roots = [root] ∧ root.treeSize = treeSize s ∧
      root.timestamp = now ∧ ∃ id, root.signedRootId log.node.crypto = .ok id := by
  have hlimits : log.Signable now ((none : Option Int).getD now) s := hsignable
  have hpublished : ∃ root, (log.publishRoot now none s).1 = .ok root :=
    (h.published_iff hkeys hreconciles hlimits).2 hunique
  obtain ⟨root, hroot⟩ := hpublished
  obtain ⟨hstorage, r, hr, -⟩ := publishRoot_eq_ok hreconciles hroot
  obtain ⟨-, -, -, hroots⟩ := log.publishRoot_cases now none s
  rw [hempty] at hroots
  rcases hroots with hnone | ⟨new, hadded, hpublishes⟩
  · rw [hnone] at hr
    exact absurd hr List.not_mem_nil
  · obtain ⟨hsize, -, htime, -⟩ := hpublishes.fields
    refine ⟨_, new, rfl, hstorage, hadded, hsize, htime.trans ?_, hpublishes.id⟩
    rw [latestRoot, hempty]
    rfl

/-! ## A sample run -/

/-- The sample log as an operator with a key pair. -/
def sampleSigner (keys : KeyPair sampleCrypto) : OperatorLog CheckpointCore :=
  { TransparencyLog.sampleLog with
    publicKey := keys.publicKey, privateKey := keys.privateKey, treeState := fun _ => Text.hex (List.replicate 32 0) }

/-- The entry of the sample transfer. -/
def sampleEntry : LogEntry :=
  { sampleLogEntry with submittedAt := 5000 }

/-- The key that it spends. -/
def sampleKey : String := "db79e13e58a3056ae9227e6d85877ee7129c92c856bb776c749ece743792137b"

/-- The row of its claim. -/
def sampleRow : SpendClaimRow :=
  ⟨sampleKey, TransparencyLog.sampleBranch.tokenId, TransparencyLog.sampleBranch.previousHash,
    TransparencyLog.sampleBranch.sequence, TransparencyLog.sampleBranch.senderAddress,
    TransparencyLog.sampleBranch.senderPublicKey, sampleEntry.entryHash, some 0, 5000⟩

/-- The tables with the entry. -/
def sampleTables (leaf : Leaf) : OperatorTables :=
  { OperatorTables.empty with storage := ⟨[leaf], 1, [sampleEntry], []⟩ }

theorem sampleBranch_evaluated :
    TransparencyLog.sampleBranch.transferHash sampleCrypto 5000 = .ok sampleEntry.entryHash ∧
    TransparencyLog.sampleBranch.spendKeyForTransfer sampleCrypto = .ok sampleKey ∧
    TransparencyLog.sampleBranch.verifyTransferSignature sampleCrypto 5000 = .ok () := by
  have hall := TransparencyLog.sampleTransfers_evaluated
  simp only [List.forall_mem_cons] at hall
  obtain ⟨⟨hhash, hkey, hsigned⟩, -⟩ := hall
  obtain ⟨⟨⟩, hvalid⟩ := Check.returns_iff.1 hsigned
  exact ⟨hhash, hkey, hvalid⟩

variable (keys : KeyPair sampleCrypto)

theorem equipped_sampleSigner : (sampleSigner keys).Equipped keys where
  privateKey := rfl
  publicKey := rfl
  treeState := fun _ => isHex32_hex List.length_replicate

/-- The claim of the row has the transfer for its body, and is within the limits. -/
theorem storedClaim_sample : ∃ c, (sampleSigner keys).storedClaim 5000 ((sampleSigner keys).claimOf sampleRow 0)
    TransparencyLog.sampleBranch.toJson.bytes = .ok c ∧
      ∀ depth ∈ [0, 2], c.toJson.validate jsonLimits "protocol object" depth = .ok () := by
  obtain ⟨hhash, hkey, hvalid⟩ := sampleBranch_evaluated
  have hdigest : Text.lower sampleEntry.entryHash = sampleEntry.entryHash := (isDigest_transferHash hhash).lower
  have hkeyDigest : Text.lower sampleKey = sampleKey := (isDigest_spendKey hkey).lower
  have hshape := (Transfer.hashed_of_transferHash hhash).shape
  let plain := (sampleSigner keys).claimOf sampleRow 0
  have hwell : SpendClaim.WellFormed sampleCrypto 5000 plain :=
    { type_eq := rfl
      version_eq := rfl
      spendKey_hex := (isDigest_spendKey hkey).isHex32
      previousHash_hex := isHex32_zeroHash
      sequence_pos := show (1 : Int) ≤ 2 by decide
      transferHash_hex := (isDigest_transferHash hhash).isHex32
      leafIndex_nonneg := le_rfl
      acceptedAt_nonneg := show (0 : Int) ≤ 5000 by decide
      body_valid := fun _ h => absurd h (Option.not_mem_none _) }
  have htexts : Text.strip TransparencyLog.sampleBranch.tokenId = TransparencyLog.sampleBranch.tokenId ∧
      Text.lower zeroHash = zeroHash ∧
      Text.strip TransparencyLog.sampleBranch.senderAddress = TransparencyLog.sampleBranch.senderAddress ∧
      Text.strip TransparencyLog.sampleBranch.senderPublicKey = TransparencyLog.sampleBranch.senderPublicKey := by
    decide +kernel
  obtain ⟨htoken, hprevious, haddress, hpublicKey⟩ := htexts
  have hbody : SpendClaim.checkBody sampleCrypto 5000 plain.normalFields (.v3 TransparencyLog.sampleBranch)
      = .ok () := by
    have hverify : SpendClaim.verifyBody sampleCrypto 5000 (.v3 TransparencyLog.sampleBranch)
        = .ok (TransparencyLog.sampleBranch, sampleEntry.entryHash, sampleKey) :=
      Check.bind_eq_ok.2 ⟨(), Transfer.validateTransferShape_eq_ok.2 hshape, Check.bind_eq_ok.2 ⟨(), hvalid,
        Check.bind_eq_ok.2 ⟨_, hhash, Check.bind_eq_ok.2 ⟨_, hkey, rfl⟩⟩⟩⟩
    refine Check.bind_eq_ok.2 ⟨_, Check.orRaise_eq_ok.2 hverify, Check.bind_eq_ok.2
      ⟨(), Check.require_of hdigest.symm _, Check.bind_eq_ok.2 ⟨(), Check.require_of hkeyDigest.symm _,
      Check.bind_eq_ok.2 ⟨(), Check.require_of htoken.symm _, Check.bind_eq_ok.2
      ⟨(), Check.require_of hprevious.symm _, Check.bind_eq_ok.2 ⟨(), Check.require_of haddress.symm _,
      Check.bind_eq_ok.2 ⟨(), Check.require_of hpublicKey.symm _, Check.require_of rfl _⟩⟩⟩⟩⟩⟩⟩
  have hmetadata : TransparencyLog.sampleBranch.metadata.Sorted := ⟨List.Pairwise.nil, trivial⟩
  have hread := readBody_canonicalBytes hmetadata canonicalBytes_sampleBranch
  have hwith : (sampleSigner keys).withBody 5000 plain TransparencyLog.sampleBranch.toJson.bytes
      = .ok { plain.normalFields with transfer := some (.v3 TransparencyLog.sampleBranch) } := by
    refine withBody_eq_ok.2
      ⟨_, hread, SpendClaim.normalizeSpendClaim_eq_ok.2 ⟨{ hwell with body_valid := ?_ }, rfl⟩⟩
    intro body hsome
    obtain rfl := Option.some.inj hsome
    exact hbody
  refine ⟨{ plain.normalFields with transfer := some (.v3 TransparencyLog.sampleBranch) }, ?_, ?_⟩
  · exact storedClaim_eq_ok.2 ⟨_, SpendClaim.normalizeSpendClaim_eq_ok.2 ⟨hwell, rfl⟩, by rw [hwith]; rfl⟩
  · have hlogId : (Text.strip (sampleSigner keys).logId).length ≤ 16384 := by
      have hhex : ((sampleSigner keys).logId).length = 64 := (sampleCrypto.isHex32_sha3Hex _).1
      rw [show Text.strip (sampleSigner keys).logId = (sampleSigner keys).logId from Text.strip_hex _, hhex]
      decide
    have hbodies : ∀ depth ∈ [1, 3],
        TransparencyLog.sampleBranch.toJson.validate jsonLimits "protocol object" depth = .ok () := by
      decide +kernel
    have hlengths : ∀ text ∈ [spendClaimType, Text.lower sampleKey,
        Text.strip TransparencyLog.sampleBranch.tokenId, Text.lower TransparencyLog.sampleBranch.previousHash,
        Text.strip TransparencyLog.sampleBranch.senderAddress,
        Text.strip TransparencyLog.sampleBranch.senderPublicKey, Text.lower sampleEntry.entryHash],
        text.length ≤ 16384 := by
      decide +kernel
    simp only [List.forall_mem_cons] at hlengths hbodies ⊢
    obtain ⟨h1, h2, h3, h4, h5, h6, h7, -⟩ := hlengths
    obtain ⟨hbody1, hbody3, -⟩ := hbodies
    have hvalidate : ∀ depth, depth + 1 ≤ jsonLimits.maxDepth →
        TransparencyLog.sampleBranch.toJson.validate jsonLimits "protocol object" (depth + 1) = .ok () →
        ({ plain.normalFields with transfer := some (.v3 TransparencyLog.sampleBranch) } : SpendClaim).toJson.validate
          jsonLimits "protocol object" depth = .ok () := by
      intro depth hdepth hvalidBody
      refine SpendClaim.validate_toJson hdepth ?_ ?_ ?_
      · simp only [List.forall_mem_cons]
        exact ⟨h1, hlogId, h2, h3, h4, h5, h6, h7, fun _ h => absurd h List.not_mem_nil⟩
      · exact show ∀ n ∈ [logVersion, 2, 0, 5000], n.natAbs ≤ jsonLimits.maxIntegerAbs by decide
      · intro body hsome
        obtain rfl := Option.some.inj hsome
        exact hvalidBody
    exact ⟨hvalidate 0 (by decide) hbody1, hvalidate 2 (by decide) hbody3, fun _ h => absurd h List.not_mem_nil⟩

/-- The entry is logged. -/
theorem appendEntryHash_sampleSigner : ∃ leaf, ((sampleSigner keys).appendEntryHash sampleEntry.entryHash 5000
    (some TransparencyLog.sampleBranch.toJson) "transfer" none none .empty).2 = sampleTables leaf := by
  obtain ⟨hhash, -, -⟩ := sampleBranch_evaluated
  obtain ⟨bytes, hlength, hhex⟩ := isDigest_transferHash hhash
  have hlower : Text.lower sampleEntry.entryHash = sampleEntry.entryHash := (isDigest_transferHash hhash).lower
  have hdecode : AppendServer.decodeEntryHash (Text.lower sampleEntry.entryHash) = .ok bytes := by
    rw [hlower, hhex, AppendServer.decodeEntryHash, Text.fromhex_hex]
    exact Check.bind_eq_ok.2 ⟨bytes, rfl, Check.bind_eq_ok.2 ⟨(), Check.require_of hlength _, rfl⟩⟩
  have hprepare : AppendServer.prepareEntry sampleEntry.entryHash (some TransparencyLog.sampleBranch.toJson) none
      = .ok (bytes, some TransparencyLog.sampleBranch.toJson.bytes, none) := by
    have hjson : AppendServer.optionalJson (some TransparencyLog.sampleBranch.toJson)
        = .ok (some TransparencyLog.sampleBranch.toJson.bytes) :=
      Check.bind_eq_ok.2 ⟨_, canonicalBytes_sampleBranch, rfl⟩
    rw [AppendServer.prepareEntry, hdecode, hjson]
    rfl
  refine ⟨⟨1, bytes, bytes⟩, ?_⟩
  rw [appendEntryHash, AppendServer.appendEntryHash,
    show OperatorTables.empty.storage = Storage.empty from rfl, hprepare,
    hlower]
  rfl

theorem sound_sampleTables (leaf : Leaf) : (sampleSigner keys).Sound 5000 (sampleTables leaf) [] where
  clock_le := by decide
  distinct := List.pairwise_singleton _ _
  recorded := List.Forall₂.nil
  keyed := ⟨fun _ h => absurd h List.not_mem_nil, List.Pairwise.nil⟩
  reflects := MapTables.reflects_empty

/-- The claim of the entry is made up for. -/
theorem reconciles_sampleTables (leaf : Leaf) : (sampleSigner keys).Reconciles 5000 (sampleTables leaf) ∧
    ((sampleSigner keys).reconciled 5000 (sampleTables leaf)).storage.spendClaims = [sampleRow] := by
  obtain ⟨hhash, hkey, hvalid⟩ := sampleBranch_evaluated
  have hshape := (Transfer.hashed_of_transferHash hhash).shape
  have hmetadata : TransparencyLog.sampleBranch.metadata.Sorted := ⟨List.Pairwise.nil, trivial⟩
  have hread := readBody_canonicalBytes hmetadata canonicalBytes_sampleBranch
  have hvalidated : (sampleSigner keys).validatedV3TransferForReconciliation 5000 sampleEntry
      = .ok (TransparencyLog.sampleBranch, sampleEntry.entryHash) :=
    Check.bind_eq_ok.2 ⟨_, rfl, Check.bind_eq_ok.2 ⟨_, hread,
      Check.bind_eq_ok.2 ⟨(), Transfer.validateTransferShape_eq_ok.2 hshape,
        Check.bind_eq_ok.2 ⟨(), hvalid, Check.bind_eq_ok.2 ⟨_, hhash,
          Check.bind_eq_ok.2 ⟨(), Check.require_of rfl _, rfl⟩⟩⟩⟩⟩⟩
  obtain ⟨c, hstored, hlimits⟩ := storedClaim_sample keys
  simp only [List.forall_mem_cons] at hlimits
  obtain ⟨hlimit0, hlimit2, -⟩ := hlimits
  have hslot : SpendClaim.slotOf ([] ++ [c]) sampleKey = [c] := by
    obtain ⟨body, hnormal⟩ := normalize_of_storedClaim hstored
    obtain ⟨-, hfields⟩ := SpendClaim.normalizeSpendClaim_eq_ok.1 hnormal
    have hclaimKey : c.spendKey = sampleKey := by
      rw [← hfields]
      exact (isDigest_spendKey hkey).lower
    simp [SpendClaim.slotOf, SpendClaim.sorted, hclaimKey]
  have hpreimage : ∃ preimage, SpendMap.slotPreimage sampleKey [c] = .ok preimage := by
    refine SpendMap.exists_slotPreimage (isDigest_spendKey hkey).isHex32 (show 1 ≤ jsonLimits.maxListItems by decide)
      fun d hd => ?_
    rw [List.mem_singleton.1 hd]
    exact hlimit2
  have hreturns : ∃ u, (sampleSigner keys).recordSpendClaim 5000 TransparencyLog.sampleBranch sampleKey
      sampleEntry.entryHash 0 5000 (sampleTables leaf) = (.ok (), u) := by
    refine (sound_sampleTables keys leaf).recordSpendClaim_returns (isDigest_spendKey hkey)
      (isDigest_transferHash hhash) (List.mem_singleton_self sampleEntry) rfl rfl rfl
      (dated_of_readBody hread hshape.notAhead) rfl hstored ⟨_, canonicalBytes_eq_ok.2 ⟨hlimit0, rfl⟩⟩ ?_
    rw [hslot]
    obtain ⟨preimage, hpreimage⟩ := hpreimage
    exact ⟨_, Check.bind_eq_ok.2 ⟨preimage, hpreimage, rfl⟩⟩
  obtain ⟨u, hrecord⟩ := hreturns
  have hround : (sampleSigner keys).reconcileEntry 5000 sampleEntry (sampleTables leaf) = (.ok (), u) := by
    rw [reconcileEntry, hvalidated]
    simp only
    rw [show TransparencyLog.sampleBranch.spendKeyForTransfer (sampleSigner keys).node.crypto = .ok sampleKey from hkey,
      lift_ok_bind]
    exact hrecord
  have hreconcile : (sampleSigner keys).reconcileTransferSpendClaims 5000 (sampleTables leaf) = (.ok (), u) := by
    rw [reconcileTransferSpendClaims, read_bind, unreconciled_singleton rfl rfl rfl rfl]
    exact bind_of_ok hround
  refine ⟨congrArg Prod.fst hreconcile, ?_⟩
  rw [reconciled, hreconcile]
  obtain ⟨hstorage, -⟩ := (sampleSigner keys).storage_recordSpendClaim 5000 TransparencyLog.sampleBranch sampleKey
    sampleEntry.entryHash 0 5000 (sampleTables leaf)
  rw [hrecord] at hstorage
  show u.storage.spendClaims = _
  rw [hstorage]
  rfl

/-- The tables with the entry are reached, and a root can be published over them. -/
theorem reaches_sampleTables : ∃ leaf,
    Runs.Reaches (sampleSigner keys).step (fun s event => (sampleSigner keys).Records s event ∧
      (sampleSigner keys).Timely s event) initial ⟨sampleTables leaf, 5000⟩ ∧
    (sampleSigner keys).Records ⟨sampleTables leaf, 5000⟩ (.publish 5000 none) ∧
    (sampleSigner keys).Signable 5000 5000 (sampleTables leaf) ∧
    (sampleSigner keys).hasConflictingSpendClaim ((sampleSigner keys).reconciled 5000 (sampleTables leaf)) = false := by
  obtain ⟨leaf, hentry⟩ := appendEntryHash_sampleSigner keys
  obtain ⟨hreconciles, hrows⟩ := reconciles_sampleTables keys leaf
  have hlogged : (sampleSigner keys).step initial (.entry 5000 sampleEntry.entryHash 5000
      (some TransparencyLog.sampleBranch.toJson) "transfer" none none) = some ⟨sampleTables leaf, 5000⟩ := by
    rw [step, after, show initial.tables = OperatorTables.empty from rfl, hentry]
    rfl
  have hentered : (sampleSigner keys).Records initial (.entry 5000 sampleEntry.entryHash 5000
      (some TransparencyLog.sampleBranch.toJson) "transfer" none none) :=
    ⟨show (0 : Int) ≤ 5000 by decide, show (5000 : Int) ≤ maxProtocolTimestamp by decide, trivial⟩
  have hsignable : (sampleSigner keys).Signable 5000 5000 (sampleTables leaf) := by
    have htime : nextTimestamp 5000 (latestRoot (sampleTables leaf)) = 5000 := rfl
    refine ⟨show 1 ≤ jsonLimits.maxIntegerAbs by decide, ?_, ?_⟩
    · rw [hrows]
      exact show 1 ≤ jsonLimits.maxIntegerAbs by decide
    · rw [htime]
      decide +kernel
  refine ⟨leaf, Runs.Reaches.refl.next ⟨hentered, trivial⟩ hlogged,
    ⟨le_rfl, show (5000 : Int) ≤ maxProtocolTimestamp by decide, hreconciles⟩, hsignable, ?_⟩
  rw [hasConflictingSpendClaim, hrows]
  have hself : (sampleSigner keys).backend.hashEquals sampleRow.transferHash sampleRow.transferHash = true :=
    Backend.hashEquals_iff.2 rfl
  simp [hself]

/-- A root is published over the entry, at the time of the entry. -/
theorem exists_published : ∃ (s : State) (root : SignedRoot),
    Runs.Reaches (sampleSigner keys).step (fun s event => (sampleSigner keys).Records s event ∧
      (sampleSigner keys).Timely s event) initial s ∧
    s.clock = 5000 ∧ s.tables.storage.spendClaims = [sampleRow] ∧ s.tables.roots = [root] ∧
    root.treeSize = 1 ∧ root.timestamp = 5000 ∧ ∃ id, root.signedRootId sampleCrypto = .ok id := by
  obtain ⟨leaf, hreaches, hrecords, hsignable, hunique⟩ := reaches_sampleTables keys
  obtain ⟨hreconciles, hrows⟩ := reconciles_sampleTables keys leaf
  obtain ⟨u, root, hpublish, hstorage, hroots, hsize, htime, hid⟩ := (sound_sampleTables keys leaf).firstRoot
    (equipped_sampleSigner keys) hreconciles hsignable hunique rfl
  have htimely : (sampleSigner keys).Timely ⟨sampleTables leaf, 5000⟩ (.publish 5000 none) := by
    refine ⟨fun e he => ?_, fun _ _ _ hroot => absurd hroot List.not_mem_nil⟩
    obtain rfl := List.mem_singleton.1 he
    exact le_rfl
  refine ⟨⟨u, 5000⟩, root, hreaches.next ⟨hrecords, htimely⟩ hpublish, rfl, ?_, hroots, hsize, htime, hid⟩
  rw [hstorage]
  exact hrows

/-! ## Runs -/

end OperatorLog
