import InternationalDollar.OperatorClients

set_option autoImplicit false

/-! # The proofs that an operator serves (`spend_map_proof`)

A proof for the current tree is read from the stored map, and one for an earlier tree is built from the claims for
its leaves. In every run whose calls record their claims in time, either is accepted against every root over as many
leaves, and shows the one claim of its key (`provable_of_reaches`). -/

namespace OperatorLog

open Effect

variable {ProofBundle : Type}

section Methods

variable (log : OperatorLog ProofBundle)

/-- `_current_spend_map_proof_from_cache`. -/
def currentSpendMapProofFromCache (clock : Int) (spendKey : String) (treeSize : Int) : Writes SpendMapProof := do
  let spendKey ← lift (hex32 spendKey "spend key")
  let (_, mapSize) ← log.ensureCurrentSpendMap clock
  let claims ← log.claimsForCurrentSpendKey clock spendKey
  lift (Check.require (claims ≠ []) "spend key is not in the transparency spend map")
  let position ← lift (SpendMap.spendKeyPosition spendKey)
  read fun s => SpendMapProof.ofClaims spendKey position treeSize mapSize claims (s.map.hashAt log.node.crypto)

/-- `root_for_tree_size`. -/
def rootForTreeSize (size : Int) (s : OperatorTables) : Option SignedRoot :=
  (Select.orderBy SignedRoot.timestamp (s.roots.filter fun root => root.treeSize = size)).getLast?

/-- `_rebuild_current_spend_map`, and the proof once more. -/
def repairedProof (clock : Int) (spendKey : String) (treeSize : Int) : Writes SpendMapProof := do
  let _ ← log.rebuildCurrentSpendMap clock
  log.currentSpendMapProofFromCache clock spendKey treeSize

/-- The proof for the current tree in `spend_map_proof`. Where it does not verify against the root of the tree, the
    map is made anew. -/
def currentProof (acceptLegacy : Bool) (clock : Int) (spendKey : String) (treeSize : Int) : Writes SpendMapProof := do
  let proof ← atomically (log.currentSpendMapProofFromCache clock spendKey treeSize)
  let root ← read (rootForTreeSize treeSize)
  match root with
  | none => pure proof
  | some root =>
      match proof.verifySpendMapProof log.node.crypto acceptLegacy clock root with
      | .ok _ => pure proof
      | .error _ => do
          let proof ← atomically (log.repairedProof clock spendKey treeSize)
          match proof.verifySpendMapProof log.node.crypto acceptLegacy clock root with
          | .ok _ => pure proof
          | .error _ => raise "persisted spend-map proof does not match signed root"

/-- `spend_map_proof`. -/
def spendMapProof (acceptLegacy : Bool) (clock : Int) (spendKey : String) (treeSize : Option Int) :
    Writes SpendMapProof := do
  let current ← read fun s => (OperatorLog.treeSize s : Int)
  let size := treeSize.getD current
  if size = current then log.currentProof acceptLegacy clock spendKey size
  else do
    let records ← atomically (log.spendClaimRecords clock (some size))
    lift (SpendMapProof.buildSpendMapProof log.node.crypto clock records spendKey size)

/-- `spend_map_root`. -/
def spendMapRoot (clock : Int) (treeSize : Option Int) : Writes (String × Int) := do
  let current ← read fun s => (OperatorLog.treeSize s : Int)
  if treeSize = none ∨ treeSize = some current then atomically (log.ensureCurrentSpendMap clock)
  else do
    let records ← atomically (log.spendClaimRecords clock treeSize)
    let root ← lift (SpendMap.spendMapRoot log.node.crypto clock records)
    pure (root, records.length)

end Methods

variable {log : OperatorLog ProofBundle} {clock now : Int} {s t u : OperatorTables} {claims : List SpendClaim}

/-! ## Proofs from the stored map -/

/-- The rows of a key in a stored map that is that of the claims. -/
theorem Sound.claimsForCurrentSpendKey (h : log.Sound now s claims) {spendKey : String} (hkey : IsDigest spendKey)
    (hmem : ∃ c ∈ claims, c.spendKey = spendKey) :
    log.claimsForCurrentSpendKey now spendKey s = (.ok (SpendClaim.slotOf claims spendKey), s) := by
  obtain ⟨c, hc, hsame⟩ := hmem
  rw [h.keyed.slotOf_perm h.reflects.listed.symm spendKey]
  refine claimsForCurrentSpendKey_eq hkey ⟨c, h.reflects.listed.mem_iff.2 hc, hsame⟩ fun d hd => ?_
  exact h.normal le_rfl h.clock_le d (h.reflects.listed.mem_iff.1 hd)

theorem auditPathFrom_congr {hashAt hashAt' : Nat → Nat → String} (n height position : Nat)
    (h : ∀ k < height + n, ∀ p, hashAt k p = hashAt' k p) :
    auditPathFrom hashAt n height position = auditPathFrom hashAt' n height position := by
  induction n generalizing height position with
  | zero => rfl
  | succ n ih =>
    rw [auditPathFrom, auditPathFrom, h height (by omega), ih (height + 1) (position / 2) fun k hk => h k (by omega)]

/-- **A proof from the stored map is the one that is built from the claims.** -/
theorem Sound.proofFromCache (h : log.Sound clock s claims) (hle : clock ≤ now) (hmax : now ≤ maxProtocolTimestamp)
    {spendKey : String} (hkey : IsDigest spendKey) (hmem : ∃ c ∈ claims, c.spendKey = spendKey) (treeSize : Int)
    {records : List SpendClaim} (hperm : records.Perm claims) {map : SpendMap}
    (hlevels : SpendMap.spendMapLevels log.node.crypto now records = .ok map) :
    ∃ u, log.currentSpendMapProofFromCache now spendKey treeSize s
        = (SpendMapProof.buildSpendMapProof log.node.crypto now records spendKey treeSize, u) ∧
      log.Sound now u claims ∧ u.storage = s.storage ∧ u.roots = s.roots := by
  obtain ⟨u, hensure, hu, hstorage, hroots⟩ := h.ensure hle hmax
  obtain ⟨map', hlevels', htotal, hnodes⟩ := hu.exists_levels le_rfl hmax hperm
  obtain rfl : map = map' := Except.ok.inj (hlevels.symm.trans hlevels')
  have hhex : hex32 spendKey "spend key" = .ok spendKey := hex32_eq_ok.2 ⟨hkey.isHex32, hkey.lower⟩
  have hkeyed := hu.keyed.perm hperm.symm
  have hslot : map.claimsByKey.slot (SpendClaim.positionOf spendKey) = SpendClaim.slotOf claims spendKey := by
    rw [MapTables.claimsByKey_of_levels hkeyed (fun c hc => hu.normal le_rfl hmax c (hperm.mem_iff.1 hc)) hlevels,
      SpendClaim.slot_placed hkeyed hkey, hkeyed.slotOf_perm hperm]
  have hne : SpendClaim.slotOf claims spendKey ≠ [] := by
    obtain ⟨c, hc, hsame⟩ := hmem
    exact List.ne_nil_of_mem (SpendClaim.mem_slotOf.2 ⟨hc, hsame⟩)
  have hplaced : SpendClaim.positionOf spendKey ∈ map.claimsByKey.map Prod.fst := by
    rw [SpendMap.ClaimTable.mem_positions, hslot]
    exact hne
  refine ⟨u, ?_, hu, hstorage, hroots⟩
  rw [currentSpendMapProofFromCache, hhex, lift_ok_bind, bind_of_ok hensure]
  dsimp only
  rw [bind_of_ok (hu.claimsForCurrentSpendKey hkey hmem), Check.require_of hne, lift_ok_bind,
    SpendClaim.spendKeyPosition_of_digest hkey, lift_ok_bind]
  rw [SpendMapProof.buildSpendMapProof, hhex, Check.ok_bind, SpendClaim.spendKeyPosition_of_digest hkey,
    Check.ok_bind, hlevels, Check.ok_bind, Check.require_of hplaced, Check.ok_bind, hslot, htotal]
  have hpath : auditPathFrom (u.map.hashAt log.node.crypto) spendMapKeyBits 0 (SpendClaim.positionOf spendKey)
      = auditPathFrom (map.hashAt log.node.crypto) spendMapKeyBits 0 (SpendClaim.positionOf spendKey) :=
    auditPathFrom_congr _ _ _ fun k hk => hnodes k (by omega)
  refine Prod.ext (congrArg Except.ok ?_) rfl
  simp only [SpendMapProof.ofClaims, hpath]

/-! ## Proofs against published roots -/

/-- The roots of an operator verify. -/
theorem Equipped.verified {keys : KeyPair log.node.crypto} (h : log.Equipped keys) {root : SignedRoot}
    (hroot : log.Commits clock claims root) (htime : 0 ≤ root.timestamp) (acceptLegacy : Bool) :
    root.verifySignedRoot log.node.crypto acceptLegacy (some log.publicKey) = .ok () ∧
      root.verifySignedRoot log.node.crypto acceptLegacy none = .ok () ∧
      root.spendMapAlgorithm = some logSpendMapAlgorithm ∧ root.logId = log.logId ∧
      root.operatorPublicKey = log.publicKey := by
  obtain ⟨w, size, hash, count, hdigest, hmade⟩ := hroot.made
  rw [h.privateKey, h.publicKey] at hmade
  have hverify : ∀ expected : Option String, (∀ key ∈ expected, Text.strip key = keys.publicKey) →
      root.verifySignedRoot log.node.crypto acceptLegacy expected = .ok () := by
    intro expected hexpected
    exact SignedRoot.verify_makeSignedRoot keys hmade (Int.natCast_nonneg _) htime (h.currentRootHash w size)
      hdigest.isHex32 (Int.natCast_nonneg _) acceptLegacy hexpected
  have hfields : root.spendMapAlgorithm = some logSpendMapAlgorithm ∧
      root.logId = logIdFromPublicKey log.node.crypto keys.publicKey ∧ root.operatorPublicKey = keys.publicKey := by
    obtain ⟨_, -, hsigned⟩ := Check.bind_eq_ok.1 hmade
    obtain ⟨_, -, hsigned⟩ := Check.bind_eq_ok.1 hsigned
    have heq := Check.pure_eq_ok.1 hsigned
    rw [← heq]
    exact ⟨rfl, rfl, rfl⟩
  obtain ⟨halgorithm, hlog, hpublicKey⟩ := hfields
  refine ⟨hverify _ ?_, hverify none fun _ hkey => absurd hkey (Option.not_mem_none _), halgorithm, ?_, ?_⟩
  · intro key hkey
    obtain rfl := Option.some.inj hkey
    rw [h.publicKey, keys.strip_publicKey]
  · rw [hlog, logId, h.publicKey]
  · rw [hpublicKey, h.publicKey]

/-- A claim of the tables is one of the operator's log. -/
theorem Claimed.logId_eq {storage : Storage} (h : log.Claimed clock storage claims) :
    ∀ c ∈ claims, c.logId = log.logId := by
  intro c hc
  obtain ⟨row, -, hrow⟩ := h.exists_row hc
  obtain ⟨e, -, -, -, raw, -, hstored⟩ := hrow.stored
  obtain ⟨body, hnormal⟩ := normalize_of_storedClaim (hstored clock le_rfl h.clock_le)
  obtain ⟨-, hfields⟩ := SpendClaim.normalizeSpendClaim_eq_ok.1 hnormal
  rw [← hfields]
  exact Text.strip_hex _

variable {keys : KeyPair log.node.crypto} {root : SignedRoot} {records : List SpendClaim}

/-- The map that a root commits to, over the claims for its leaves in any order. -/
theorem Committed.exists_committedMap (h : log.Committed clock s claims) (hkeys : log.Equipped keys)
    (hroot : root ∈ s.roots) (htime : 0 ≤ root.timestamp) (acceptLegacy : Bool) (hle : clock ≤ now)
    (hmax : now ≤ maxProtocolTimestamp)
    (hperm : records.Perm (claims.filter fun c => c.transferLeafIndex < root.treeSize)) :
    ∃ m : CommittedMap log.node.crypto acceptLegacy, m.clock = now ∧ m.claims = records ∧ m.root = root := by
  have hcommits := h.commits root hroot
  obtain ⟨map, hlevels, hmapRoot, hmapSize⟩ := hcommits.map now hle hmax records hperm
  obtain ⟨-, hverified, halgorithm, hlog, -⟩ := hkeys.verified hcommits htime acceptLegacy
  have hin : ∀ c ∈ records, c ∈ claims ∧ c.transferLeafIndex < root.treeSize := by
    intro c hc
    obtain ⟨hc, hlt⟩ := List.mem_filter.1 (hperm.mem_iff.1 hc)
    exact ⟨hc, of_decide_eq_true hlt⟩
  exact ⟨{
    clock := now
    clock_le := hmax
    claims := records
    normal := fun c hc => h.normal hle hmax c (hin c hc).1
    map := map
    map_eq := hlevels
    root := root
    root_valid := hverified
    algorithm_eq := halgorithm
    spendMapRoot_eq := hmapRoot
    spendMapSize_eq := hmapSize
    logId_eq := fun c hc => (h.logId_eq c (hin c hc).1).trans hlog.symm
    leafIndex_lt := fun c hc => (hin c hc).2 }, rfl, rfl, rfl⟩

/-- Keys that are digests do not share their slots. -/
theorem keyUnshared_of_digest {acceptLegacy : Bool} (m : CommittedMap log.node.crypto acceptLegacy)
    (hdigest : ∀ c ∈ m.claims, IsDigest c.spendKey) (spendKey : String) : m.KeyUnshared spendKey := by
  rintro ⟨d, hd, rfl⟩ c hc hposition
  rw [SpendClaim.spendKeyPosition_of_digest (hdigest c hc),
    SpendClaim.spendKeyPosition_of_digest (hdigest d hd)] at hposition
  exact SpendClaim.positionOf_inj (hdigest c hc) (hdigest d hd) (Except.ok.inj hposition)

/-- **A proof that is built from the claims for the leaves of a root is accepted**, and shows the one claim of its
    key. -/
theorem Committed.builds (h : log.Committed clock s claims) (hkeys : log.Equipped keys) (hroot : root ∈ s.roots)
    (htime : 0 ≤ root.timestamp) (acceptLegacy : Bool) (hle : clock ≤ now) (hmax : now ≤ maxProtocolTimestamp)
    (hperm : records.Perm (claims.filter fun c => c.transferLeafIndex < root.treeSize)) {claim : SpendClaim}
    (hclaim : claim ∈ claims) (hleaf : claim.transferLeafIndex < root.treeSize) :
    ∃ proof, SpendMapProof.buildSpendMapProof log.node.crypto now records claim.spendKey root.treeSize = .ok proof ∧
      proof.verifySpendMapProof log.node.crypto acceptLegacy now root = .ok [claim] := by
  obtain ⟨m, rfl, rfl, rfl⟩ := h.exists_committedMap hkeys hroot htime acceptLegacy hle hmax hperm
  have hin : ∀ c ∈ m.claims, c ∈ claims ∧ c.transferLeafIndex < m.root.treeSize := by
    intro c hc
    obtain ⟨hc, hlt⟩ := List.mem_filter.1 (hperm.mem_iff.1 hc)
    exact ⟨hc, of_decide_eq_true hlt⟩
  have hrecord : claim ∈ m.claims := hperm.mem_iff.2 (List.mem_filter.2 ⟨hclaim, decide_eq_true hleaf⟩)
  have hunshared := keyUnshared_of_digest m (fun c hc => h.keyed.digest c (hin c hc).1) claim.spendKey
  obtain ⟨proof, shown, hbuild, hverify, hshown⟩ :=
    m.complete hunshared ⟨claim, hrecord, rfl⟩ m.clock le_rfl hmax
  have honly : ∀ c ∈ shown, c = claim := by
    intro c hc
    obtain ⟨hmem, hkey⟩ := (hshown c).1 hc
    obtain ⟨hmem, hlt⟩ := hin c hmem
    exact h.keyed.eq_of_hash hmem hclaim hkey
      ((h.commits m.root hroot).unique c hmem claim hclaim hlt hleaf hkey)
  have hlist : shown = [claim] := by
    have hnodup := (SpendMapProof.nodup_of_verify hverify).of_map
    have hreplicate : shown = List.replicate shown.length claim := List.eq_replicate_iff.2 ⟨rfl, honly⟩
    have hone : claim ∈ shown := (hshown claim).2 ⟨hrecord, rfl⟩
    rw [hreplicate, List.nodup_replicate] at hnodup
    have hpos := List.length_pos_of_mem hone
    rw [hreplicate, show shown.length = 1 by omega]
    rfl
  exact ⟨proof, hbuild, hlist ▸ hverify⟩

/-! ## What is served -/

/-- A root over all leaves is over those of all claims. -/
theorem Committed.covered (h : log.Committed clock s claims) (hroot : root ∈ s.roots)
    (htree : root.treeSize = treeSize s) : ∀ c ∈ claims, c.transferLeafIndex < root.treeSize := by
  intro c hc
  obtain ⟨row, -, hrow⟩ := h.exists_row hc
  obtain ⟨e, he, -, hindex, -⟩ := hrow.stored
  have hle : (e.leafIndex : Int) ≤ root.treeSize :=
    h.spaced.settled root hroot htree (e.entryHash, e.leafIndex) (List.mem_map_of_mem he)
  omega

/-- The root that a proof for the current tree is checked against. -/
theorem exists_rootForTreeSize (hroot : root ∈ s.roots) : ∃ latest, rootForTreeSize root.treeSize s = some latest ∧
    latest ∈ s.roots ∧ latest.treeSize = root.treeSize ∧ root.timestamp ≤ latest.timestamp := by
  have hselected : root ∈ s.roots.filter fun r => r.treeSize = root.treeSize :=
    List.mem_filter.2 ⟨hroot, decide_eq_true rfl⟩
  cases hlatest : rootForTreeSize root.treeSize s with
  | none =>
    have hin : root ∈ Select.orderBy SignedRoot.timestamp (s.roots.filter fun r => r.treeSize = root.treeSize) :=
      Select.mem_orderBy.2 hselected
    rw [List.getLast?_eq_none_iff.1 hlatest] at hin
    exact absurd hin List.not_mem_nil
  | some latest =>
    obtain ⟨hmem, hsize⟩ := List.mem_filter.1 (Select.mem_orderBy.1 (List.mem_of_getLast? hlatest))
    exact ⟨latest, rfl, hmem, of_decide_eq_true hsize, Select.le_getLast?_orderBy hlatest hselected⟩

/-- **The proofs that an operator serves are accepted.** -/
theorem Committed.serves (h : log.Committed clock s claims) (hkeys : log.Equipped keys) (hroot : root ∈ s.roots)
    (htime : 0 ≤ root.timestamp) (acceptLegacy : Bool) (hle : clock ≤ now) (hmax : now ≤ maxProtocolTimestamp)
    {claim : SpendClaim} (hclaim : claim ∈ claims) (hleaf : claim.transferLeafIndex < root.treeSize) :
    ∃ proof, (log.spendMapProof acceptLegacy now claim.spendKey (some root.treeSize) s).1 = .ok proof ∧
      proof.verifySpendMapProof log.node.crypto acceptLegacy now root = .ok [claim] := by
  by_cases htree : root.treeSize = treeSize s
  · -- The stored map is that of all claims, and every root over as many leaves commits to it.
    have hall : ∀ other ∈ s.roots, other.treeSize = root.treeSize →
        claims.Perm (claims.filter fun c => c.transferLeafIndex < other.treeSize) := by
      intro other hother hsame
      refine List.Perm.of_eq (List.filter_eq_self.2 fun c hc => decide_eq_true ?_).symm
      exact h.covered hother (hsame.trans htree) c hc
    obtain ⟨proof, hbuild, hverify⟩ := h.builds hkeys hroot htime acceptLegacy hle hmax (hall root hroot rfl)
      hclaim hleaf
    obtain ⟨map, hlevels, -⟩ := h.toSound.exists_levels hle hmax (List.Perm.refl claims)
    obtain ⟨u, hcache, -, -, hroots⟩ := h.toSound.proofFromCache hle hmax (h.keyed.digest claim hclaim)
      ⟨claim, hclaim, rfl⟩ root.treeSize (List.Perm.refl claims) hlevels
    rw [hbuild] at hcache
    obtain ⟨latest, hlatest, hmem, hsize, hlater⟩ := exists_rootForTreeSize hroot
    obtain ⟨proof', hbuild', hverify'⟩ := h.builds hkeys hmem (htime.trans hlater) acceptLegacy hle hmax
      (hall latest hmem hsize) hclaim (hsize ▸ hleaf)
    rw [hsize] at hbuild'
    obtain rfl := Except.ok.inj (hbuild.symm.trans hbuild')
    refine ⟨proof, ?_, hverify⟩
    have hatomic : atomically (log.currentSpendMapProofFromCache now claim.spendKey root.treeSize) s
        = (.ok proof, u) := by
      rw [atomically, hcache]
    have hfound : rootForTreeSize root.treeSize u = some latest := by
      rw [rootForTreeSize, hroots]
      exact hlatest
    rw [OperatorLog.spendMapProof, read_bind, Option.getD_some, if_pos htree, currentProof, bind_of_ok hatomic,
      read_bind, hfound]
    simp only [hverify']
    rfl
  · obtain ⟨records, t, hrecords, -, hperm⟩ := h.toClaimed.spendClaimRecords hle hmax (some root.treeSize)
    have hfilter : records.Perm (claims.filter fun c => c.transferLeafIndex < root.treeSize) := by
      simpa using hperm
    obtain ⟨proof, hbuild, hverify⟩ := h.builds hkeys hroot htime acceptLegacy hle hmax hfilter hclaim hleaf
    have hatomic : atomically (log.spendClaimRecords now (some root.treeSize)) s = (.ok records, t) := by
      rw [atomically, hrecords]
    refine ⟨proof, ?_, hverify⟩
    rw [OperatorLog.spendMapProof, read_bind, Option.getD_some, if_neg htree, bind_of_ok hatomic]
    exact hbuild

/-- **An operator can show every spend that it published.** In every run whose calls record their claims in time, a
    transfer with a claim for a leaf of a published root has a proof, also after later calls: the operator serves
    one, which is accepted against the root, and shows its claim and no other. -/
theorem provable_of_reaches (hkeys : log.Equipped keys) {s : State}
    (h : Runs.Reaches log.step (fun s event => log.Records s event ∧ log.Timely s event) initial s) {now : Int}
    (hle : s.clock ≤ now) (hmax : now ≤ maxProtocolTimestamp) (acceptLegacy : Bool) (hroot : root ∈ s.tables.roots)
    (htime : 0 ≤ root.timestamp) {row : SpendClaimRow} (hrow : row ∈ s.tables.storage.spendClaims)
    (hleaf : ∀ leafIndex ∈ row.transferLeafIndex, leafIndex < root.treeSize) :
    ∃ proof claim,
      (log.spendMapProof acceptLegacy now row.spendKey (some root.treeSize) s.tables).1 = .ok proof ∧
      proof.verifySpendMapProof log.node.crypto acceptLegacy now root = .ok [claim] ∧
      claim.spendKey = row.spendKey ∧ claim.transferHash = row.transferHash ∧
      row.transferLeafIndex = some claim.transferLeafIndex := by
  obtain ⟨claims, hs⟩ := bound_of_reaches h
  obtain ⟨claim, hclaim, hrecorded⟩ := hs.exists_claim hrow
  obtain ⟨hkey, hhash, -⟩ := hrecorded.fields hs.clock_le
  obtain ⟨proof, hserved, hverify⟩ := hs.serves hkeys hroot htime acceptLegacy hle hmax hclaim
    (hleaf _ hrecorded.leafIndex)
  exact ⟨proof, claim, hkey ▸ hserved, hverify, hkey, hhash, hrecorded.leafIndex⟩

/-- The sample transfer is shown under the root over its entry. -/
theorem provable_of_reaches_sample : ∃ (keys : KeyPair sampleCrypto) (s : State) (root : SignedRoot)
    (proof : SpendMapProof) (claim : SpendClaim), root ∈ s.tables.roots ∧
      ((sampleSigner keys).spendMapProof true 5000 sampleRow.spendKey (some root.treeSize) s.tables).1 = .ok proof ∧
      proof.verifySpendMapProof sampleCrypto true 5000 root = .ok [claim] := by
  obtain ⟨keys, -⟩ := KeyPair.exists_of_seed sampleCrypto (List.replicate 32 0) List.length_replicate
  obtain ⟨s, root, hreaches, hclock, hrows, hroots, hsize, htime, -⟩ := exists_published keys
  have hroot : root ∈ s.tables.roots := by
    rw [hroots]
    exact List.mem_singleton_self root
  have hrow : sampleRow ∈ s.tables.storage.spendClaims := by
    rw [hrows]
    exact List.mem_singleton_self sampleRow
  have hleaf : ∀ leafIndex ∈ sampleRow.transferLeafIndex, leafIndex < root.treeSize := by
    intro leafIndex hindex
    obtain rfl := Option.some.inj hindex
    rw [hsize]
    decide
  obtain ⟨proof, claim, hserved, hverify, -⟩ := provable_of_reaches (equipped_sampleSigner keys) hreaches hclock.le
    (show (5000 : Int) ≤ maxProtocolTimestamp by decide) true hroot (by rw [htime]; decide) hrow hleaf
  exact ⟨keys, s, root, proof, claim, hroot, hserved, hverify⟩

/-- **An operator reports the map of a root as it signed it**, in every run whose calls record their claims in
    time. -/
theorem reported_of_reaches {s : State}
    (h : Runs.Reaches log.step (fun s event => log.Records s event ∧ log.Timely s event) initial s) {now : Int}
    (hle : s.clock ≤ now) (hmax : now ≤ maxProtocolTimestamp) (hroot : root ∈ s.tables.roots) :
    ∃ hash size, (log.spendMapRoot now (some root.treeSize) s.tables).1 = .ok (hash, size) ∧
      root.spendMapRoot = some hash ∧ root.spendMapSize = some size := by
  obtain ⟨claims, hs⟩ := bound_of_reaches h
  have hcommits := hs.commits root hroot
  by_cases htree : root.treeSize = treeSize s.tables
  · obtain ⟨u, hensure, -⟩ := hs.toSound.ensure hle hmax
    obtain ⟨map, hlevels, htotal, hnodes⟩ := hs.toSound.exists_levels hle hmax (List.Perm.refl claims)
    have hall : (claims.filter fun c => c.transferLeafIndex < root.treeSize) = claims :=
      List.filter_eq_self.2 fun c hc => decide_eq_true (hs.covered hroot htree c hc)
    obtain ⟨map', hlevels', hmapRoot, hmapSize⟩ := hcommits.map now hle hmax claims (List.Perm.of_eq hall.symm)
    obtain rfl := Except.ok.inj (hlevels.symm.trans hlevels')
    refine ⟨_, _, ?_, hmapRoot, hmapSize⟩
    rw [OperatorLog.spendMapRoot, read_bind, if_pos (Or.inr (congrArg some htree)), atomically, hensure,
      hnodes _ le_rfl, htotal]
    rfl
  · obtain ⟨records, t, hrecords, -, hperm⟩ := hs.toClaimed.spendClaimRecords hle hmax (some root.treeSize)
    have hfilter : records.Perm (claims.filter fun c => c.transferLeafIndex < root.treeSize) := by
      simpa using hperm
    obtain ⟨map, hlevels, hmapRoot, hmapSize⟩ := hcommits.map now hle hmax records hfilter
    have hnormal : ∀ c ∈ records, SpendClaim.normalizeSpendClaim log.node.crypto now c = .ok c :=
      fun c hc => hs.normal hle hmax c (List.mem_of_mem_filter (hfilter.mem_iff.1 hc))
    have hkeyed : SpendClaim.Keyed records := by
      refine SpendClaim.Keyed.perm ⟨fun c hc => ?_, ?_⟩ hfilter.symm
      · exact hs.keyed.digest c (List.mem_of_mem_filter hc)
      · exact hs.keyed.distinct.filter _
    have htotal : map.totalClaims = records.length := by
      rw [SpendMap.totalClaims, MapTables.claimsByKey_of_levels hkeyed hnormal hlevels, SpendClaim.placed,
        List.length_map]
    have hatomic : atomically (log.spendClaimRecords now (some root.treeSize)) s.tables = (.ok records, t) := by
      rw [atomically, hrecords]
    have hmapHash : SpendMap.spendMapRoot log.node.crypto now records = .ok (map.root log.node.crypto) :=
      Check.bind_eq_ok.2 ⟨map, hlevels, rfl⟩
    have hother : ¬ (some root.treeSize = none ∨ some root.treeSize = some (treeSize s.tables : Int)) := by
      rintro (hnone | hsame)
      · cases hnone
      · exact htree (Option.some.inj hsame)
    refine ⟨map.root log.node.crypto, map.totalClaims, ?_, hmapRoot, hmapSize⟩
    rw [OperatorLog.spendMapRoot, read_bind, if_neg hother, bind_of_ok hatomic, hmapHash, lift_ok_bind, htotal]
    rfl

/-- The map of the root over the sample entry is reported. -/
theorem reported_of_reaches_sample : ∃ (keys : KeyPair sampleCrypto) (s : State) (root : SignedRoot)
    (hash : String) (size : Int), root ∈ s.tables.roots ∧
      ((sampleSigner keys).spendMapRoot 5000 (some root.treeSize) s.tables).1 = .ok (hash, size) ∧
      root.spendMapRoot = some hash := by
  obtain ⟨keys, -⟩ := KeyPair.exists_of_seed sampleCrypto (List.replicate 32 0) List.length_replicate
  obtain ⟨s, root, hreaches, hclock, -, hroots, -⟩ := exists_published keys
  have hroot : root ∈ s.tables.roots := by
    rw [hroots]
    exact List.mem_singleton_self root
  obtain ⟨hash, size, hreported, hsigned, -⟩ := reported_of_reaches hreaches hclock.le
    (show (5000 : Int) ≤ maxProtocolTimestamp by decide) hroot
  exact ⟨keys, s, root, hash, size, hroot, hreported, hsigned⟩

end OperatorLog
