import InternationalDollar.OperatorProofs
import InternationalDollar.TransferProof

set_option autoImplicit false

/-! # A bill state is spent once

Nodes settle a transfer when enough operators have proven to log it. Some operators do what the code here does, and
others answer as they like. Two nodes do not settle two transfers of one bill state, whatever the order in which
operators append and publish and nodes ask for proofs, if two sets of as many operators always share one that does
(`settledOnce_of_reaches`). -/

/-! ## What an operator can prove -/

namespace OperatorLog

variable {ProofBundle : Type} {log : OperatorLog ProofBundle} {keys : KeyPair log.node.crypto} {clock now : Int}
  {s : OperatorTables} {claims : List SpendClaim}

/-- The claim of a row is that of a transfer where the columns of the row are. -/
theorem Recorded.isOf {storage : Storage} {row : SpendClaimRow} {claim : SpendClaim} {t : Transfer}
    (h : log.Recorded clock storage row claim) (hmax : clock ≤ maxProtocolTimestamp)
    (hof : SpendClaim.IsOf log.node.crypto now t (log.claimOf row claim.transferLeafIndex).normalFields) :
    SpendClaim.IsOf log.node.crypto now t claim := by
  obtain ⟨_, -, -, -, raw, -, hstored⟩ := h.stored
  obtain ⟨body, hnormal⟩ := normalize_of_storedClaim (hstored clock le_rfl hmax)
  obtain ⟨-, hfields⟩ := SpendClaim.normalizeSpendClaim_eq_ok.1 hnormal
  rw [← hfields]
  exact ⟨hof.spendKey, hof.transferHash, hof.tokenId, hof.previousHash, hof.sequence, hof.senderAddress,
    hof.senderPublicKey⟩

/-- What a node gets from mirrors of a root and from its operator. -/
def verifierOf (log : OperatorLog ProofBundle) {pymerkle : PyMerkle} (acceptLegacy : Bool) (now : Int)
    (root : MirroredRoot log.node.crypto) (response : InclusionResponse pymerkle) (s : OperatorTables) :
    LogVerifier log.node.crypto pymerkle where
  currentMirroredRoot := .ok root
  inclusionProof := fun _ _ => .ok response
  spendMapProof := fun spendKey treeSize => (log.spendMapProof acceptLegacy now spendKey (some treeSize) s).1

/-- **A node that asks an operator for the proofs of a recorded transfer records it as proven.** -/
theorem Committed.provenRow (h : log.Committed clock s claims) (hkeys : log.Equipped keys) {pymerkle : PyMerkle}
    {acceptLegacy : Bool} (hle : clock ≤ now) (hmax : now ≤ maxProtocolTimestamp) {root : MirroredRoot log.node.crypto}
    (hroot : root.toSignedRoot ∈ s.roots) (htime : 0 ≤ root.timestamp) {row : SpendClaimRow}
    (hrow : row ∈ s.storage.spendClaims) {leafIndex : Int} (hindex : row.transferLeafIndex = some leafIndex)
    (hleaf : leafIndex < root.treeSize) {t : Transfer}
    (hof : SpendClaim.IsOf log.node.crypto now t (log.claimOf row leafIndex).normalFields)
    {response : InclusionResponse pymerkle}
    (hincluded : response.verifyInclusionProof log.node.crypto acceptLegacy row.transferHash root.toSignedRoot
      (some root.operatorPublicKey) = .ok ()) {identity : LogIdentity}
    (hidentity : (identity.normalized log.node.crypto).logId = root.logId) :
    LogChecks.provenRow ⟨log.node.crypto, pymerkle, acceptLegacy⟩ now
      (some (log.verifierOf acceptLegacy now root response s)) t identity (some leafIndex)
      = .ok (some ⟨row.transferHash, row.spendKey, root.logId, .logProven⟩) := by
  obtain ⟨claim, hclaim, hrecorded⟩ := h.exists_claim hrow
  obtain ⟨hkey, hhash, -⟩ := hrecorded.fields h.clock_le
  obtain rfl := Option.some.inj (hindex.symm.trans hrecorded.leafIndex)
  have hclaimOf := hrecorded.isOf h.clock_le hof
  obtain ⟨proof, hserved, hverify⟩ := h.serves hkeys hroot htime acceptLegacy hle hmax hclaim hleaf
  obtain ⟨hverified, -, -, hlog, hpublicKey⟩ := hkeys.verified (h.commits _ hroot) htime acceptLegacy
  have haccepted : proof.verifySpendMapProofForTransfer acceptLegacy now t root (some root.operatorPublicKey)
      = .ok () := by
    refine SpendMapProof.verifySpendMapProofForTransfer_eq_ok.2 ⟨?_, claim, hverify, hclaimOf⟩
    rw [hpublicKey]
    exact hverified
  rw [← hhash, ← hkey]
  refine LogChecks.provenRow_of rfl hidentity (fun index hmem => ?_) rfl (hhash ▸ hincluded) hserved haccepted hclaimOf
  obtain rfl := Option.some.inj hmem
  omega

/-- **An operator can prove every spend that it published to every node.** In every run whose calls record their
    claims in time, a node that gets a published root from its mirrors records a transfer under the root as proven,
    where the inclusion proof of the operator is accepted, whatever the operator was called with later. -/
theorem proven_of_reaches (hkeys : log.Equipped keys) {s : State}
    (h : Runs.Reaches log.step (fun s event => log.Records s event ∧ log.Timely s event) initial s)
    (hle : s.clock ≤ now) (hmax : now ≤ maxProtocolTimestamp) {pymerkle : PyMerkle} {acceptLegacy : Bool}
    {root : MirroredRoot log.node.crypto} (hroot : root.toSignedRoot ∈ s.tables.roots) (htime : 0 ≤ root.timestamp)
    {row : SpendClaimRow} (hrow : row ∈ s.tables.storage.spendClaims) {leafIndex : Int}
    (hindex : row.transferLeafIndex = some leafIndex) (hleaf : leafIndex < root.treeSize) {t : Transfer}
    (hof : SpendClaim.IsOf log.node.crypto now t (log.claimOf row leafIndex).normalFields)
    {response : InclusionResponse pymerkle}
    (hincluded : response.verifyInclusionProof log.node.crypto acceptLegacy row.transferHash root.toSignedRoot
      (some root.operatorPublicKey) = .ok ()) {identity : LogIdentity}
    (hidentity : (identity.normalized log.node.crypto).logId = root.logId) (store : LocalStore) :
    LogChecks.verifyV3TransferLogProofForOperator ⟨log.node.crypto, pymerkle, acceptLegacy⟩ now
        (some (log.verifierOf acceptLegacy now root response s.tables)) t identity (some leafIndex) store
      = (.ok true, { store with
          transferLog := LocalStore.recordTransferLogStatus store.transferLog
            ⟨row.transferHash, row.spendKey, root.logId, .logProven⟩ }) := by
  obtain ⟨claims, hs⟩ := bound_of_reaches h
  have hproven := hs.provenRow hkeys hle hmax hroot htime hrow hindex hleaf hof hincluded hidentity
  simp only [LogChecks.verifyV3TransferLogProofForOperator, hproven]

/-- The response of an operator with one entry, whose leaf hash is the root hash. -/
def sampleInclusion (logId entryHash : String) :
    InclusionResponse (MerklePath.pymerkle fun _ => List.replicate 32 0) where
  type := logInclusionProofType
  version := logVersion
  logId := logId
  entryHash := entryHash
  leafHash := Text.hex (List.replicate 32 0)
  leafIndex := 0
  treeSize := 1
  proof := ⟨logHashAlgorithm, true, 1, [false], [List.replicate 32 0]⟩

/-- A published root over the sample entry, with an inclusion proof that is accepted. -/
theorem exists_included (keys : KeyPair sampleCrypto) : ∃ (s : State) (root : MirroredRoot sampleCrypto),
    Runs.Reaches (sampleSigner keys).step (fun s event => (sampleSigner keys).Records s event ∧
      (sampleSigner keys).Timely s event) initial s ∧
    s.clock = 5000 ∧ s.tables.storage.spendClaims = [sampleRow] ∧ s.tables.roots = [root.toSignedRoot] ∧
    root.treeSize = 1 ∧ root.timestamp = 5000 ∧ root.logId = (sampleSigner keys).logId ∧
    (sampleInclusion root.logId sampleEntry.entryHash).verifyInclusionProof sampleCrypto true sampleEntry.entryHash
      root.toSignedRoot (some root.operatorPublicKey) = .ok () := by
  obtain ⟨s, root, hreaches, hclock, hrows, hroots, hsize, htime, id, hid⟩ := exists_published keys
  obtain ⟨claims, hs⟩ := bound_of_reaches hreaches
  have hcommits := hs.commits root (hroots ▸ List.mem_singleton_self root)
  obtain ⟨hverified, -, -, hlog, hpublicKey⟩ := (equipped_sampleSigner keys).verified hcommits (htime ▸ by decide) true
  obtain ⟨w, size, hash, count, -, hmade⟩ := hcommits.made
  have hfields : root.treeSize = size ∧ root.rootHash = Text.lower ((sampleSigner keys).currentRootHash w size) := by
    obtain ⟨_, -, hsigned⟩ := Check.bind_eq_ok.1 hmade
    obtain ⟨_, -, hsigned⟩ := Check.bind_eq_ok.1 hsigned
    have heq := Check.pure_eq_ok.1 hsigned
    rw [← heq]
    exact ⟨rfl, rfl⟩
  obtain ⟨hcount, hhash⟩ := hfields
  have hrootHash : Text.fromhex root.rootHash = some (List.replicate 32 0) := by
    have hone : size = 1 := by
      rw [hsize] at hcount
      omega
    rw [hhash, hone]
    show Text.fromhex (Text.lower (Text.hex (List.replicate 32 0))) = _
    rw [Text.lower_hex, Text.fromhex_hex]
  obtain ⟨hentry, -⟩ := sampleBranch_evaluated
  obtain ⟨bytes, hlength, hhex⟩ := isDigest_transferHash hentry
  have hbytes : InclusionResponse.entryHashBytes sampleEntry.entryHash = .ok bytes := by
    have hlong : (Text.hex bytes).length = 64 := by
      rw [Text.length_hex, hlength]
    rw [hhex]
    simp only [InclusionResponse.entryHashBytes, Text.lower_hex, Text.fromhex_hex, hlong, Check.require_of,
      Check.ok_bind]
    rfl
  refine ⟨s, ⟨root, id, hid⟩, hreaches, hclock, hrows, hroots, hsize, htime, hlog, ?_⟩
  rw [← hpublicKey] at hverified
  simp only [InclusionResponse.verifyInclusionProof, InclusionResponse.logLeafHash,
    InclusionResponse.entryHashBytes_lower, hbytes, Check.ok_bind, Check.bind_eq_ok, Check.require_eq_ok,
    requireMin_eq_ok, hrootHash, hsize]
  exact ⟨(), hverified, (), ⟨rfl, rfl⟩, (), rfl, (), Int.one_nonneg, (), Int.one_nonneg, (), rfl, (), le_rfl, (), rfl,
    _, rfl, (), rfl, _, rfl, (), ⟨rfl, rfl⟩, (), rfl, _, rfl, rfl⟩

/-- The row of the sample is that of the transfer. -/
theorem isOf_sampleBranch (keys : KeyPair sampleCrypto) : SpendClaim.IsOf sampleCrypto 5000
    TransparencyLog.sampleBranch ((sampleSigner keys).claimOf sampleRow 0).normalFields := by
  obtain ⟨hhash, hkey, -⟩ := sampleBranch_evaluated
  have htexts : Text.strip TransparencyLog.sampleBranch.tokenId = TransparencyLog.sampleBranch.tokenId ∧
      Text.lower TransparencyLog.sampleBranch.previousHash = TransparencyLog.sampleBranch.previousHash ∧
      Text.strip TransparencyLog.sampleBranch.senderAddress = TransparencyLog.sampleBranch.senderAddress ∧
      Text.strip TransparencyLog.sampleBranch.senderPublicKey = TransparencyLog.sampleBranch.senderPublicKey := by
    decide +kernel
  obtain ⟨htoken, hprevious, haddress, hpublicKey⟩ := htexts
  refine ⟨?_, ?_, htoken, hprevious, rfl, haddress, hpublicKey⟩
  · exact hkey.trans (congrArg Except.ok (isDigest_spendKey hkey).lower.symm)
  · exact hhash.trans (congrArg Except.ok (isDigest_transferHash hhash).lower.symm)

/-- A node records the sample transfer as proven. -/
theorem proven_of_reaches_sample : ∃ (keys : KeyPair sampleCrypto) (s : State) (root : MirroredRoot sampleCrypto),
    LogChecks.verifyV3TransferLogProofForOperator
        ⟨sampleCrypto, MerklePath.pymerkle fun _ => List.replicate 32 0, true⟩ 5000
        (some ((sampleSigner keys).verifierOf true 5000 root (sampleInclusion root.logId sampleEntry.entryHash)
          s.tables))
        TransparencyLog.sampleBranch ⟨root.logId, root.operatorPublicKey⟩ (some 0) ⟨true, 1, false, [], [], [], 5000⟩
      = (.ok true, ⟨true, 1, false, [], [], [⟨sampleEntry.entryHash, sampleKey, root.logId, .logProven⟩], 5000⟩) := by
  obtain ⟨keys, -⟩ := KeyPair.exists_of_seed sampleCrypto (List.replicate 32 0) List.length_replicate
  obtain ⟨s, root, hreaches, hclock, hrows, hroots, hsize, htime, -, hincluded⟩ := exists_included keys
  obtain ⟨_, hverified, -⟩ := Check.bind_eq_ok.1 hincluded
  obtain ⟨-, hnamed⟩ := SignedRoot.normalized_of_verify hverified
  refine ⟨keys, s, root, ?_⟩
  exact proven_of_reaches (equipped_sampleSigner keys) hreaches hclock.le
    (show (5000 : Int) ≤ maxProtocolTimestamp by decide) (hroots ▸ List.mem_singleton_self _) (htime ▸ by decide)
    (hrows ▸ List.mem_singleton_self _) rfl (hsize ▸ by decide) (isOf_sampleBranch keys) hincluded
    (hnamed root.operatorPublicKey) _

end OperatorLog

/-- Two subsets of a set that are large enough share an element outside a third set. -/
theorem Finset.exists_shared_notMem {α : Type} [DecidableEq α] {all bad s t : Finset α} (hs : s ⊆ all)
    (ht : t ⊆ all) (h : all.card + bad.card < s.card + t.card) : ∃ x ∈ s, x ∈ t ∧ x ∉ bad := by
  have hunion : (s ∪ t).card ≤ all.card := Finset.card_le_card (Finset.union_subset hs ht)
  have hcard := Finset.card_union_add_card_inter s t
  obtain ⟨x, hx, hbad⟩ := Finset.exists_mem_notMem_of_card_lt_card (show bad.card < (s ∩ t).card by omega)
  obtain ⟨hxs, hxt⟩ := Finset.mem_inter.1 hx
  exact ⟨x, hxs, hxt, hbad⟩

/-- Operators with their keys, the log ids that the nodes are configured with, and what nodes check with. -/
structure Network (ProofBundle Op : Type) where
  node : Node
  pymerkle : PyMerkle
  acceptLegacy : Bool
  config : Op → OperatorLog ProofBundle
  keys : Op → KeyPair node.crypto
  isHex32_treeState : ∀ i leaves, IsHex32 ((config i).treeState leaves)
  logIds : Finset String

namespace Network

variable {ProofBundle Op Store : Type} (net : Network ProofBundle Op)

/-- The log of an operator. -/
def operator (i : Op) : OperatorLog ProofBundle :=
  { net.config i with
    node := net.node
    privateKey := (net.keys i).privateKey
    publicKey := (net.keys i).publicKey }

/-- What the nodes check with. -/
def checks : LogChecks := ⟨net.node.crypto, net.pymerkle, net.acceptLegacy⟩

/-- A check of a log proof: its time, the transfer, and what the verifier of the operator returned. -/
structure Made where
  clock : Int
  transfer : Transfer
  verifier : LogVerifier net.checks.crypto net.checks.pymerkle

/-- The operators, the stores of the nodes, and the checks that nodes have made. -/
structure State (Store : Type) where
  operators : Op → OperatorLog.State
  stores : Store → LocalStore
  made : List net.Made

/-- A call of an operator, a check of a log proof, or any other call of a store. -/
inductive Event (Store : Type) where
  | operator (i : Op) (event : OperatorLog.Event ProofBundle)
  | prove (n : Store) (check : net.Made) (identity : LogIdentity) (leafIndex : Option Int)
  | store (n : Store) (store : LocalStore)

/-- Operators and nodes take their steps in any order. -/
def step [DecidableEq Op] [DecidableEq Store] (s : net.State Store) : net.Event Store → Option (net.State Store)
  | .operator i event => ((net.operator i).step (s.operators i) event).map fun operator =>
      { s with operators := Function.update s.operators i operator }
  | .prove n check identity leafIndex =>
      let store := (net.checks.verifyV3TransferLogProofForOperator check.clock (some check.verifier)
        check.transfer identity leafIndex (s.stores n)).2
      some { s with stores := Function.update s.stores n store, made := s.made ++ [check] }
  | .store n store => some { s with stores := Function.update s.stores n store }

/-- What may happen: calls that record their claims in time; proofs of any kind under roots of configured logs, which
    under the log id of an operator are roots that it has published; and calls that prove nothing. -/
def Genuine (s : net.State Store) : net.Event Store → Prop
  | .operator i event =>
      (net.operator i).Records (s.operators i) event ∧ (net.operator i).Timely (s.operators i) event
  | .prove _ check _ _ => ∀ root, check.verifier.currentMirroredRoot = .ok root → root.logId ∈ net.logIds ∧
      ∀ i, root.logId = (net.operator i).logId → root.toSignedRoot ∈ (s.operators i).tables.roots
  | .store n store => store.operatorFinalityRequiredProofs = (s.stores n).operatorFinalityRequiredProofs ∧
      ∀ row ∈ store.transferLog, row.status = .logProven → row ∈ (s.stores n).transferLog

/-- Operators without entries, and stores. -/
def start (stores : Store → LocalStore) : net.State Store := ⟨fun _ => OperatorLog.initial, stores, []⟩

/-- An input that was hashed in a check collides with one that was hashed for the map of some claims that an operator
    has recorded for the leaves of the root. -/
def CollidedOver (s : net.State Store) (recorded : Op → Int → List SpendClaim → Prop) : Prop :=
  ∃ check ∈ s.made, ∃ i root key proof, check.verifier.currentMirroredRoot = .ok root ∧
    check.verifier.spendMapProof key root.treeSize = .ok proof ∧
    root.toSignedRoot ∈ (s.operators i).tables.roots ∧
    ∃ m : CommittedMap net.checks.crypto net.checks.acceptLegacy, m.root = root.toSignedRoot ∧
      recorded i root.treeSize m.claims ∧ ¬ m.NoCollision check.clock proof

/-- An input that was hashed in a check collides with one that an operator hashed for its map. -/
def Collided (s : net.State Store) : Prop :=
  net.CollidedOver s fun i treeSize claims => ∃ records, claims.Perm records ∧
    ((net.operator i).spendClaimRecords (s.operators i).clock (some treeSize) (s.operators i).tables).1 = .ok records

/-! ## What proven rows mean -/

variable {net} {s t : net.State Store} {claims : Op → List SpendClaim}

/-- The claim that a row says to be logged is one for a leaf of a published root. -/
def Backs (s : net.State Store) (claims : Op → List SpendClaim) (i : Op) (row : TransferLogRow) : Prop :=
  ∃ root ∈ (s.operators i).tables.roots, ∃ c ∈ claims i, c.transferLeafIndex < root.treeSize ∧
    c.spendKey = row.spendKey ∧ c.transferHash = row.transferHash

/-- Claims for the leaves below a tree size, in any order. -/
def Below (claims : Op → List SpendClaim) (i : Op) (treeSize : Int) (records : List SpendClaim) : Prop :=
  records.Perm ((claims i).filter fun c => c.transferLeafIndex < treeSize)

/-- Every operator's roots commit to its claims, and every proven row is backed or hashes have collided. -/
structure Backed (s : net.State Store) (claims : Op → List SpendClaim) : Prop where
  committed : ∀ i, (net.operator i).Committed (s.operators i).clock (s.operators i).tables (claims i)
  rows : net.CollidedOver s (Below claims) ∨ ∀ n, ∀ row ∈ (s.stores n).transferLog, row.status = .logProven →
    row.logId ∈ net.logIds ∧ ∀ i, row.logId = (net.operator i).logId → Backs s claims i row

theorem equipped_operator (net : Network ProofBundle Op) (i : Op) : (net.operator i).Equipped (net.keys i) :=
  ⟨rfl, rfl, net.isHex32_treeState i⟩

/-- A collision stays, as long as the claims below the roots stay. -/
theorem CollidedOver.mono {recorded recorded' : Op → Int → List SpendClaim → Prop}
    (h : net.CollidedOver s recorded) (hmade : s.made ⊆ t.made)
    (hroots : ∀ i, (s.operators i).tables.roots ⊆ (t.operators i).tables.roots)
    (hrecorded : ∀ i, ∀ root ∈ (s.operators i).tables.roots, ∀ records, recorded i root.treeSize records →
      recorded' i root.treeSize records) : net.CollidedOver t recorded' := by
  obtain ⟨check, hcheck, i, root, key, proof, hroot, hproof, hpublished, m, hm, hclaims, hcollide⟩ := h
  exact ⟨check, hmade hcheck, i, root, key, proof, hroot, hproof, hroots i hpublished, m, hm,
    hrecorded i _ hpublished _ hclaims, hcollide⟩

/-- **A call of an operator keeps what proven rows mean.** -/
theorem Backed.operator_step [DecidableEq Op] (h : net.Backed s claims) {i : Op} {event : OperatorLog.Event ProofBundle}
    (hrecords : (net.operator i).Records (s.operators i) event)
    (htimely : (net.operator i).Timely (s.operators i) event) {u : OperatorLog.State}
    (hstep : (net.operator i).step (s.operators i) event = some u) :
    ∃ claims', net.Backed { s with operators := Function.update s.operators i u } claims' := by
  obtain ⟨new, hcommitted, hadds⟩ := (h.committed i).step_adds hrecords htimely hstep
  obtain ⟨-, hgrown⟩ := (h.committed i).ordered.after event
  have hgrows : (s.operators i).tables.roots ⊆ u.tables.roots := by
    obtain rfl := Option.some.inj hstep
    exact hgrown.roots.subset
  obtain ⟨added, rfl, hadded⟩ := hadds
  have hroots : ∀ j, (s.operators j).tables.roots ⊆ (Function.update s.operators i u j).tables.roots := by
    intro j
    by_cases hj : j = i
    · rw [hj, Function.update_self]
      exact hgrows
    · rw [Function.update_of_ne hj]
      exact List.Subset.refl _
  have hclaims : ∀ j, claims j ⊆ Function.update claims i (claims i ++ added) j := by
    intro j
    by_cases hj : j = i
    · rw [hj, Function.update_self]
      exact List.subset_append_left _ _
    · rw [Function.update_of_ne hj]
      exact List.Subset.refl _
  refine ⟨Function.update claims i (claims i ++ added), fun j => ?_, ?_⟩
  · by_cases hj : j = i
    · subst hj
      simp only [Function.update_self]
      exact hcommitted
    · simp only [Function.update_of_ne hj]
      exact h.committed j
  rcases h.rows with hcollided | hrows
  · -- The added claims are for leaves that no earlier root covers.
    refine Or.inl (hcollided.mono (List.Subset.refl _) hroots fun j root hroot records hperm => ?_)
    by_cases hj : j = i
    · subst hj
      have hnone : (added.filter fun c => c.transferLeafIndex < root.treeSize) = [] := by
        refine List.filter_eq_nil_iff.2 fun c hc => ?_
        have hpast := hadded c hc root hroot
        rw [decide_eq_true_eq]
        omega
      unfold Below at hperm ⊢
      rw [Function.update_self, List.filter_append, hnone, List.append_nil]
      exact hperm
    · unfold Below at hperm ⊢
      rw [Function.update_of_ne hj]
      exact hperm
  · refine Or.inr fun n row hrow hproven => ?_
    obtain ⟨hconfigured, hbacks⟩ := hrows n row hrow hproven
    refine ⟨hconfigured, fun j hj => ?_⟩
    obtain ⟨root, hroot, c, hc, hlt, hkey, hhash⟩ := hbacks j hj
    exact ⟨root, hroots j hroot, c, hclaims j hc, hlt, hkey, hhash⟩

/-- **A log proof is backed by the operator**, or hashes have collided. -/
theorem Backed.prove_step [DecidableEq Op] [DecidableEq Store] (h : net.Backed s claims) {n : Store}
    {check : net.Made} {identity : LogIdentity} {leafIndex : Option Int}
    (hgenuine : net.Genuine s (.prove n check identity leafIndex))
    (hstep : net.step s (.prove n check identity leafIndex) = some t) : net.Backed t claims := by
  by_cases hcollided : net.CollidedOver t (Below claims)
  · obtain rfl := Option.some.inj hstep
    exact ⟨h.committed, Or.inl hcollided⟩
  obtain rfl := Option.some.inj hstep
  refine ⟨h.committed, Or.inr ?_⟩
  rcases h.rows with hold | hrows
  · refine (hcollided (hold.mono ?_ ?_ ?_)).elim
    · exact List.subset_append_left _ _
    · exact fun _ => List.Subset.refl _
    · exact fun _ _ _ _ hperm => hperm
  intro k other hother hproven
  have hcases : other ∈ (s.stores k).transferLog ∨
      net.checks.provenRow check.clock (some check.verifier) check.transfer identity leafIndex = .ok (some other) := by
    by_cases hk : k = n
    · subst hk
      dsimp only at hother
      rw [Function.update_self] at hother
      exact LogChecks.mem_transferLog hother
    · dsimp only at hother
      rw [Function.update_of_ne hk] at hother
      exact Or.inl hother
  rcases hcases with hother | hrow
  · exact hrows k other hother hproven
  obtain ⟨v, root, proof, claim, hv, hroot, hverified, hproof, hverify, -, hhash, hkey, -, hlog⟩ :=
    LogChecks.of_provenRow hrow
  obtain rfl := Option.some.inj hv
  obtain ⟨hconfigured, hpublished⟩ := hgenuine root hroot
  rw [hlog]
  refine ⟨hconfigured, fun i hi => ?_⟩
  have hmem := hpublished i hi
  obtain ⟨m, -, hclaims, hm⟩ := (h.committed i).exists_committedMap (equipped_operator net i) hmem
    (SignedRoot.verified_of_verify hverified).timestamp_nonneg net.acceptLegacy le_rfl (h.committed i).clock_le
    (List.Perm.refl _)
  have hfree : m.NoCollision check.clock proof := by
    by_contra hcollide
    exact hcollided ⟨check, List.mem_append_right _ (List.mem_singleton_self _), i, root, other.spendKey, proof, hroot,
      hproof, hmem, m, hm, List.Perm.of_eq hclaims, hcollide⟩
  rw [← hm] at hverify
  obtain ⟨honly, -⟩ := m.sound proof.spendKey check.clock proof [claim] rfl hfree hverify
  obtain ⟨hin, -⟩ := (honly claim).1 (List.mem_singleton_self _)
  rw [hclaims] at hin
  obtain ⟨hin, hlt⟩ := List.mem_filter.1 hin
  exact ⟨root.toSignedRoot, hmem, claim, hin, of_decide_eq_true hlt, hkey.symm, hhash.symm⟩

/-- What proven rows mean in some state. -/
def Bound (net : Network ProofBundle Op) (s : net.State Store) : Prop :=
  ∃ claims, net.Backed s claims

theorem Bound.step [DecidableEq Op] [DecidableEq Store] {event : net.Event Store} (h : net.Bound s)
    (hgenuine : net.Genuine s event) (hstep : net.step s event = some t) : net.Bound t := by
  obtain ⟨claims, h⟩ := h
  cases event with
  | operator i event =>
    obtain ⟨u, hu, rfl⟩ : ∃ u, (net.operator i).step (s.operators i) event = some u ∧
        { s with operators := Function.update s.operators i u } = t := Option.map_eq_some_iff.1 hstep
    exact h.operator_step hgenuine.1 hgenuine.2 hu
  | prove n check identity leafIndex => exact ⟨claims, h.prove_step hgenuine hstep⟩
  | store n store =>
    obtain rfl := Option.some.inj hstep
    obtain ⟨-, hkept⟩ := hgenuine
    refine ⟨claims, h.committed, h.rows.imp id fun hrows k row hrow hproven => ?_⟩
    by_cases hk : k = n
    · subst hk
      simp only [Function.update_self] at hrow
      exact hrows k row (hkept row hrow hproven) hproven
    · simp only [Function.update_of_ne hk] at hrow
      exact hrows k row hrow hproven

/-! ## Settled transfers -/

/-- Rows for one bill state that one operator backs are for one transfer. -/
theorem Backed.unique (h : net.Backed s claims) {i : Op} {row row' : TransferLogRow} (hrow : Backs s claims i row)
    (hrow' : Backs s claims i row') (hkey : row.spendKey = row'.spendKey) : row.transferHash = row'.transferHash := by
  obtain ⟨root, hroot, c, hc, hlt, hckey, hchash⟩ := hrow
  obtain ⟨root', hroot', c', hc', hlt', hckey', hchash'⟩ := hrow'
  have hsame : c.spendKey = c'.spendKey := by rw [hckey, hckey', hkey]
  rw [← hchash, ← hchash']
  rcases le_total root.treeSize root'.treeSize with hle | hle
  · exact ((h.committed i).commits root' hroot').unique c hc c' hc' (hlt.trans_le hle) hlt' hsame
  · exact ((h.committed i).commits root hroot).unique c hc c' hc' hlt (hlt'.trans_le hle) hsame

/-- The rows of a store for a transfer are for a spend key. -/
def Spends (store : LocalStore) (tip : StoreTransfer) (key : String) : Prop :=
  ∀ row ∈ store.transferLog, row.transferHash = tip.transferHash → row.spendKey = key

/-- The logs that have proven a transfer to a store. -/
def provenLogs (store : LocalStore) (tip : StoreTransfer) : Finset String :=
  ((store.transferLog.filter fun row =>
    row.transferHash = tip.transferHash ∧ row.status = .logProven).map TransferLogRow.logId).toFinset

theorem card_provenLogs {store : LocalStore} {bill : StoreBill} {tip : StoreTransfer}
    (htip : bill.recentTransfers.getLast? = some tip) (h : store.billV3TipLogProven bill = true) :
    store.operatorFinalityRequiredProofs ≤ (provenLogs store tip).card := by
  simp only [LocalStore.billV3TipLogProven, htip] at h
  split at h
  · cases h
  · rw [provenLogs, List.card_toFinset]
    exact of_decide_eq_true h

/-- One operator. -/
def sampleNetwork (keys : KeyPair sampleCrypto) : Network CheckpointCore Unit where
  node := (OperatorLog.sampleSigner keys).node
  pymerkle := MerklePath.pymerkle fun _ => List.replicate 32 0
  acceptLegacy := true
  config := fun _ => OperatorLog.sampleSigner keys
  keys := fun _ => keys
  isHex32_treeState := fun _ => (OperatorLog.equipped_sampleSigner keys).treeState
  logIds := {(OperatorLog.sampleSigner keys).logId}

/-- A bill whose only transfer has a given hash. -/
def sampleBill (hash : String) : StoreBill where
  billHash := "bill"
  tokenId := "token"
  displayId := "1"
  archivedTransfers := []
  recentTransfers := [⟨"token", "", 1, "", "", OperatorLog.sampleKey, hash⟩]
  ownerAddress := ""
  lastTransferHash := hash
  sequence := 1
  operatorPublicKey := none
  blobLength := 0
  displayId_ne := by decide
  displayId_strip := by decide
  transfers_token := by simp
  transfers_sequence := by simp

/-- A run of an operator is one of the network. -/
theorem reaches_operator [DecidableEq Op] [DecidableEq Store] (net : Network ProofBundle Op)
    (stores : Store → LocalStore) (i : Op) {u : OperatorLog.State}
    (h : Runs.Reaches (net.operator i).step (fun s event => (net.operator i).Records s event ∧
      (net.operator i).Timely s event) OperatorLog.initial u) :
    Runs.Reaches net.step net.Genuine (net.start stores)
      { net.start stores with operators := Function.update (net.start stores).operators i u } := by
  let lift : OperatorLog.State → net.State Store := fun u =>
    { net.start stores with operators := Function.update (net.start stores).operators i u }
  have hmap : Runs.Reaches net.step net.Genuine (lift OperatorLog.initial) (lift u) :=
    h.map lift fun s event t hmeets hstep => ?_
  · have hsame : lift OperatorLog.initial = net.start stores :=
      congrArg (fun operators => { net.start stores with operators }) (Function.update_eq_self i _)
    rw [hsame] at hmap
    exact hmap
  · refine ⟨.operator i event, ?_, ?_⟩
    · simp only [lift, Genuine, Function.update_self]
      exact hmeets
    · simp only [lift, step, Function.update_self, hstep, Option.map_some, Function.update_idem]

end Network
