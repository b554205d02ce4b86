import InternationalDollar.MirroredBundles

set_option autoImplicit false

/-! # Inclusion proofs (`verify_inclusion_proof`)

A proof response names the leaf that it is about and carries a Merkle path. The path is checked against
the signed root, but the index is not checked against the path: of an accepted response it is the true
position exactly where it is the position that the path leads to. -/

/-- The package `pymerkle`: hashes of entries, serialized proofs, and their verification. `rootOf` is the
    root of a tree with given leaf hashes, and `position` the number of the leaf that a path leads to. -/
structure PyMerkle where
  Serialized : Type
  Proof : Type
  hashBuff : Bytes → Bytes
  rootOf : List Bytes → Bytes
  deserialize : Serialized → Except String Proof
  algorithm : Proof → String
  security : Proof → Bool
  size : Proof → Int
  position : Proof → Nat
  verifyInclusion : Bytes → Bytes → Proof → Except String Unit

/-- A response to a request for an inclusion proof. -/
structure InclusionResponse (pymerkle : PyMerkle) where
  type : String
  version : Int
  logId : String
  entryHash : String
  leafHash : String
  leafIndex : Int
  treeSize : Int
  proof : pymerkle.Serialized

/-- `LOG_INCLUSION_PROOF_TYPE`. -/
def logInclusionProofType : String := "ind.transparency_inclusion_proof.v3"

namespace InclusionResponse

variable {pymerkle : PyMerkle}

/-- `_entry_hash_bytes`. -/
def entryHashBytes (entryHash : String) : Except String Bytes := do
  let entryHash := Text.lower entryHash
  Check.require (entryHash.length = 64) "invalid transparency entry hash"
  Check.ofOption (Text.fromhex entryHash) "invalid transparency entry hash"

/-- `log_leaf_hash`. -/
def logLeafHash (pymerkle : PyMerkle) (entryHash : String) : Except String Bytes := do
  let entryBytes ← entryHashBytes entryHash
  pure (pymerkle.hashBuff entryBytes)

/-- `verify_inclusion_proof`. -/
def verifyInclusionProof (crypto : Crypto) (acceptLegacy : Bool) (entryHash : String)
    (response : InclusionResponse pymerkle) (root : SignedRoot) (operatorPublicKey : Option String) :
    Except String Unit := do
  root.verifySignedRoot crypto acceptLegacy operatorPublicKey
  Check.require (response.type = logInclusionProofType ∧ response.version = logVersion)
    "unsupported transparency inclusion proof version"
  Check.require (response.logId = root.logId)
    "inclusion proof is for a different transparency log"
  requireMin response.treeSize 0 "transparency inclusion proof tree size"
  requireMin root.treeSize 0 "transparency root tree size"
  Check.require (response.treeSize = root.treeSize)
    "inclusion proof tree size does not match mirrored root"
  requireMin response.leafIndex 0 "transparency leaf index"
  let entryHash := Text.lower entryHash
  Check.require (Text.lower response.entryHash = entryHash) "inclusion proof is for a different entry"
  let leafHash ← logLeafHash pymerkle entryHash
  Check.require (response.leafHash = Text.hex leafHash) "inclusion proof leaf hash mismatch"
  let proof ← pymerkle.deserialize response.proof
  Check.require (pymerkle.algorithm proof = logHashAlgorithm ∧ pymerkle.security proof = true)
    "unsupported transparency proof hash settings"
  Check.require (pymerkle.size proof = root.treeSize)
    "inclusion proof metadata tree size mismatch"
  let rootBytes ← Check.ofOption (Text.fromhex root.rootHash) "non-hexadecimal number found"
  pymerkle.verifyInclusion leafHash rootBytes proof

/-! ## The position of the leaf -/

/-- The root is that of a log with these entries. -/
structure RootOver (pymerkle : PyMerkle) (root : SignedRoot) (entries : List Bytes) : Prop where
  treeSize_eq : root.treeSize = entries.length
  rootHash_eq : Text.fromhex root.rootHash
    = some (pymerkle.rootOf (entries.map pymerkle.hashBuff))

/-- The package accepts the proof of the response only where it is a path from the leaf to the root. -/
def AcceptsOnlyPath (response : InclusionResponse pymerkle) (entries : List Bytes) : Prop :=
  ∀ proof leaf, pymerkle.deserialize response.proof = .ok proof →
    pymerkle.size proof = entries.length →
    pymerkle.verifyInclusion leaf (pymerkle.rootOf (entries.map pymerkle.hashBuff)) proof = .ok () →
      (entries.map pymerkle.hashBuff)[pymerkle.position proof]? = some leaf

/-- The hash of the entry is not that of another entry of the log. -/
def DistinctLeaf (pymerkle : PyMerkle) (entryHash : String) (entries : List Bytes) : Prop :=
  ∀ entryBytes, entryHashBytes entryHash = .ok entryBytes → ∀ entry ∈ entries,
    pymerkle.hashBuff entry = pymerkle.hashBuff entryBytes → entry = entryBytes

/-- The leaf index of the response is a position of the entry in the log. -/
def TruePosition (response : InclusionResponse pymerkle) (entryHash : String) (entries : List Bytes) :
    Prop :=
  response.leafIndex < entries.length ∧
    ∃ entryBytes, entryHashBytes entryHash = .ok entryBytes ∧
      entries[response.leafIndex.toNat]? = some entryBytes

variable {crypto : Crypto} {acceptLegacy : Bool} {operatorPublicKey : Option String}
  {entryHash : String} {response : InclusionResponse pymerkle} {root : SignedRoot} {entries : List Bytes}

theorem entryHashBytes_lower : entryHashBytes (Text.lower entryHash) = entryHashBytes entryHash := by
  rw [entryHashBytes, entryHashBytes, Text.lower_lower]

/-- The path of an accepted response leads to the entry, and its index is not negative. -/
theorem position_of_accepted (hroot : RootOver pymerkle root entries)
    (hpath : response.AcceptsOnlyPath entries) (hdistinct : DistinctLeaf pymerkle entryHash entries)
    (h : verifyInclusionProof crypto acceptLegacy entryHash response root operatorPublicKey = .ok ()) :
    0 ≤ response.leafIndex ∧ ∃ proof entryBytes, pymerkle.deserialize response.proof = .ok proof ∧
      entryHashBytes entryHash = .ok entryBytes ∧
      entries[pymerkle.position proof]? = some entryBytes := by
  simp only [verifyInclusionProof, logLeafHash, entryHashBytes_lower, Check.bind_eq_ok,
    Check.require_eq_ok, requireMin_eq_ok, Check.ofOption_eq_ok, Check.pure_eq_ok] at h
  obtain ⟨_, -, _, -, _, -, _, -, _, -, _, -, _, hindex, _, -, leafHash, ⟨entryBytes, hbytes, hleaf⟩, _, -,
    proof, hproof, _, -, _, hsize, rootBytes, hrootBytes, hverify⟩ := h
  rw [hroot.rootHash_eq] at hrootBytes
  cases hrootBytes
  have hleaves := hpath proof leafHash hproof (hsize.trans hroot.treeSize_eq) hverify
  rw [List.getElem?_map, Option.map_eq_some_iff] at hleaves
  obtain ⟨entry, hentry, hhash⟩ := hleaves
  have hsame := hdistinct entryBytes hbytes entry (List.mem_of_getElem? hentry) (hhash.trans hleaf.symm)
  rw [hsame] at hentry
  exact ⟨hindex, proof, entryBytes, hproof, hbytes, hentry⟩

/-- **When the leaf index is true.** The leaf index of an accepted response is a position of the entry
    exactly where the log has the same entry there as at the end of the path; in a log without repeated
    entries that is where it is the position of the path. -/
theorem truePosition_iff (hroot : RootOver pymerkle root entries)
    (hpath : response.AcceptsOnlyPath entries) (hdistinct : DistinctLeaf pymerkle entryHash entries)
    (h : verifyInclusionProof crypto acceptLegacy entryHash response root operatorPublicKey = .ok ()) :
    (response.TruePosition entryHash entries ↔
      ∀ proof, pymerkle.deserialize response.proof = .ok proof →
        entries[response.leafIndex.toNat]? = entries[pymerkle.position proof]?) ∧
    (entries.Nodup → (response.TruePosition entryHash entries ↔
      ∀ proof, pymerkle.deserialize response.proof = .ok proof →
        response.leafIndex = pymerkle.position proof)) := by
  obtain ⟨hindex, proof, entryBytes, hproof, hbytes, hentry⟩ :=
    position_of_accepted hroot hpath hdistinct h
  have hall : ∀ P : pymerkle.Proof → Prop,
      (∀ proof, pymerkle.deserialize response.proof = .ok proof → P proof) ↔ P proof := by
    intro P
    refine ⟨fun hP => hP proof hproof, fun hP other hother => ?_⟩
    cases hproof.symm.trans hother
    exact hP
  have htrue : response.TruePosition entryHash entries ↔
      entries[response.leafIndex.toNat]? = some entryBytes := by
    constructor
    · rintro ⟨-, other, hother, hget⟩
      cases hbytes.symm.trans hother
      exact hget
    · intro hget
      obtain ⟨hlt, -⟩ := List.getElem?_eq_some_iff.1 hget
      exact ⟨by omega, entryBytes, hbytes, hget⟩
  rw [hall, htrue, hentry, hall]
  refine ⟨Iff.rfl, fun hnodup => ?_⟩
  constructor
  · intro hget
    obtain ⟨hlt, -⟩ := List.getElem?_eq_some_iff.1 hget
    have hsame := (List.getElem?_inj hlt hnodup).1 (hget.trans hentry.symm)
    omega
  · intro hposition
    rw [hposition, Int.toNat_natCast]
    exact hentry

end InclusionResponse

/-! ## Paths in a tree of SHA3-256 hashes -/

/-- A serialized path: the digests from the leaf upwards, and for each of them whether what is hashed so
    far comes second in the pair with the next one. -/
structure MerklePath where
  algorithm : String
  security : Bool
  size : Int
  rule : List Bool
  path : List Bytes

namespace MerklePath

/-- The digest at the end of a path. -/
def resolveFrom (hashPair : Bytes → Bytes → Bytes) : Bool → Bytes → List (Bool × Bytes) → Bytes
  | _, result, [] => result
  | second, result, (next, digest) :: rest =>
      resolveFrom hashPair next
        (if second then hashPair digest result else hashPair result digest) rest

/-- The number of leaves on the left of a tree. -/
def splitPoint (size : Nat) : Nat :=
  2 ^ Nat.log2 (size - 1)

/-- The root of a tree with given leaf hashes, which is at most as high as the first argument. -/
def treeHash (hashPair : Bytes → Bytes → Bytes) (empty : Bytes) : Nat → List Bytes → Bytes
  | _, [] => empty
  | _, [leaf] => leaf
  | 0, _ => empty
  | height + 1, leaves =>
      hashPair (treeHash hashPair empty height (leaves.take (splitPoint leaves.length)))
        (treeHash hashPair empty height (leaves.drop (splitPoint leaves.length)))

/-- The number of the leaf below some turns in a tree of a given size. -/
def leafNumber : List Bool → Nat → Nat
  | [], _ => 0
  | second :: rest, size =>
      if second then splitPoint size + leafNumber rest (size - splitPoint size)
      else leafNumber rest (splitPoint size)

/-- The package with a hash function. -/
def pymerkle (hash : Bytes → Bytes) : PyMerkle where
  Serialized := MerklePath
  Proof := MerklePath
  hashBuff data := hash (0 :: data)
  rootOf leaves := treeHash (fun a b => hash (1 :: (a ++ b))) (hash []) leaves.length leaves
  deserialize := .ok
  algorithm := MerklePath.algorithm
  security := MerklePath.security
  size := MerklePath.size
  position proof := leafNumber proof.rule.dropLast.reverse proof.size.toNat
  verifyInclusion base root proof :=
    match proof.rule.zip proof.path with
    | [] => .error "base hash does not match"
    | (second, digest) :: rest => do
        Check.require (digest = base) "base hash does not match"
        Check.require (resolveFrom (fun a b => hash (1 :: (a ++ b))) second digest rest = root)
          "state does not match"

end MerklePath

/-! ## A log with one entry -/

namespace InclusionResponse

open MirroredBundles (parityCrypto sizedRoot sizedRoot_spec)

/-- The entry of the log. -/
def sampleEntry : Bytes := List.replicate 32 7

/-- The answer of an operator about its only entry, with some leaf index. -/
def sampleResponse (logId : String) (leafIndex : Int) :
    InclusionResponse (MerklePath.pymerkle parityCrypto.sha3_256) where
  type := logInclusionProofType
  version := logVersion
  logId := logId
  entryHash := Text.hex sampleEntry
  leafHash := Text.hex (List.replicate 32 1)
  leafIndex := leafIndex
  treeSize := 1
  proof := ⟨logHashAlgorithm, true, 1, [false], [List.replicate 32 1]⟩

theorem entryHashBytes_sampleEntry : entryHashBytes (Text.hex sampleEntry) = .ok sampleEntry := by
  have hlength : (Text.hex sampleEntry).length = 64 := by
    rw [Text.length_hex]
    rfl
  simp only [entryHashBytes, Text.lower_hex, Text.fromhex_hex, hlength, Check.require_of, Check.ok_bind]
  rfl

theorem hashBuff_sampleEntry :
    (MerklePath.pymerkle parityCrypto.sha3_256).hashBuff sampleEntry = List.replicate 32 1 :=
  rfl

/-- Whatever leaf index the operator names, its answer is accepted. -/
theorem exists_sampleRoot : ∃ root : MirroredRoot parityCrypto,
    RootOver (MerklePath.pymerkle parityCrypto.sha3_256) root.toSignedRoot [sampleEntry] ∧
    ∀ leafIndex, 0 ≤ leafIndex → verifyInclusionProof parityCrypto true (Text.hex sampleEntry)
      (sampleResponse root.logId leafIndex) root.toSignedRoot none = .ok () := by
  obtain ⟨keys, -⟩ := KeyPair.exists_of_seed parityCrypto (List.replicate 32 0) List.length_replicate
  have hlength : (List.replicate 32 1 : Bytes).length = 32 := List.length_replicate
  obtain ⟨hverified, root, hroot, -⟩ := sizedRoot_spec keys hlength (show (0 : Int) ≤ 1 by decide)
    (by decide) (show (0 : Int) ≤ 100 by decide) (by decide) le_rfl (by decide)
  have hhash : Text.fromhex root.rootHash = some (List.replicate 32 1) := by
    rw [hroot]
    show Text.fromhex (Text.lower (Text.hex _)) = _
    rw [Text.lower_hex, Text.fromhex_hex]
  have hsize : root.treeSize = 1 := by
    rw [hroot]
    rfl
  refine ⟨root, ⟨hsize, hhash⟩, fun leafIndex hindex => ?_⟩
  simp only [verifyInclusionProof, logLeafHash, entryHashBytes_lower, entryHashBytes_sampleEntry,
    Check.ok_bind, Check.bind_eq_ok, Check.require_eq_ok, requireMin_eq_ok, hhash, hsize]
  rw [hroot]
  refine ⟨(), hverified true, (), ⟨rfl, rfl⟩, (), by rw [← hroot]; rfl, (), Int.one_nonneg, (), Int.one_nonneg, (), rfl,
    (), hindex, (), rfl, _, rfl, (), rfl, _, rfl, (), ⟨rfl, rfl⟩, (), rfl, _, rfl, rfl⟩

/-- What the equivalence asks of the sample response. -/
theorem sampleResponse_spec (logId : String) (leafIndex : Int) :
    (sampleResponse logId leafIndex).AcceptsOnlyPath [sampleEntry] ∧
      DistinctLeaf (MerklePath.pymerkle parityCrypto.sha3_256) (Text.hex sampleEntry) [sampleEntry] := by
  refine ⟨fun proof leaf hproof _ hverify => ?_, fun entryBytes hbytes entry hentry _ => ?_⟩
  · cases hproof
    obtain ⟨_, hbase, -⟩ := Check.bind_eq_ok.1 hverify
    exact congrArg some (Check.require_eq_ok.1 hbase)
  · cases entryHashBytes_sampleEntry.symm.trans hbytes
    exact List.mem_singleton.1 hentry

/-- The answer with index 0 names the position of the entry. -/
theorem truePosition_sampleResponse : ∃ root : MirroredRoot parityCrypto,
    (sampleResponse root.logId 0).TruePosition (Text.hex sampleEntry) [sampleEntry] := by
  obtain ⟨root, hover, haccepted⟩ := exists_sampleRoot
  obtain ⟨hpath, hdistinct⟩ := sampleResponse_spec root.logId 0
  refine ⟨root, ((truePosition_iff hover hpath hdistinct (haccepted 0 le_rfl)).1).2 ?_⟩
  intro proof hproof
  cases hproof
  rfl

/-- The answer with index 7 is accepted, too. -/
theorem not_truePosition : ¬ ∀ (pymerkle : PyMerkle) (crypto : Crypto) (entryHash : String)
    (response : InclusionResponse pymerkle) (root : SignedRoot) (entries : List Bytes),
    RootOver pymerkle root entries → response.AcceptsOnlyPath entries →
      DistinctLeaf pymerkle entryHash entries →
      verifyInclusionProof crypto true entryHash response root none = .ok () →
        response.TruePosition entryHash entries := by
  intro hall
  obtain ⟨root, hover, haccepted⟩ := exists_sampleRoot
  obtain ⟨hpath, hdistinct⟩ := sampleResponse_spec root.logId 7
  obtain ⟨hlt, -⟩ := hall _ _ _ _ _ _ hover hpath hdistinct (haccepted 7 (by decide))
  exact absurd (show (7 : Int) < 1 from hlt) (by decide)

end InclusionResponse
