import InternationalDollar.Lib.AssocList
import InternationalDollar.SpendMapProofs
import Mathlib.Data.List.Sort

set_option autoImplicit false

/-! # Compressed spend-map proofs (`spend_map_v3`)

The compressed form of a spend-map proof lists the siblings that are not the hash of an empty subtree,
with their depths, from the leaf upwards. A verifier expands it and verifies the full proof. -/

open SpendMap

/-- `COMPRESSED_SPEND_MAP_PROOF_TYPE`. -/
def compressedSpendMapProofType : String := "ind.transparency_compressed_spend_map_proof.v3"

/-- `COMPRESSED_SPEND_MAP_PROOF_VERSION`. -/
def compressedSpendMapProofVersion : Int := 3

/-- `COMPRESSED_SPEND_MAP_ALGORITHM`. -/
def compressedSpendMapAlgorithm : String := "IND_SPARSE_SPEND_MAP_SHA3_256_COMPRESSED_V3"

/-- A sibling that is not empty. -/
structure CompressedSibling where
  depth : Int
  side : String
  hash : String
deriving DecidableEq

/-- A compressed spend-map proof. -/
structure CompressedSpendMapProof where
  type : String
  version : Int
  networkId : Int
  algorithm : String
  spendKey : String
  treeSize : Int
  mapSize : Int
  spendClaims : List SpendClaim
  nonEmptySiblingCount : Int
  nonEmptySiblings : List CompressedSibling
deriving DecidableEq

/-- `empty_hashes[depth]`. As in every list, a negative index counts from the end. -/
def SpendMap.emptyHashes (crypto : Crypto) (depth : Int) : Except String String :=
  let index := if depth < 0 then depth + spendMapKeyBits + 1 else depth
  if 0 ≤ index ∧ index ≤ spendMapKeyBits then
    pure (emptyHash crypto (spendMapKeyBits - index.toNat))
  else .error "list index out of range"

/-- `_expected_side_by_depth`, at the position of the key. -/
def SpendMap.expectedSideByDepth (position depth : Nat) : String :=
  siblingSide (position / 2 ^ (spendMapKeyBits - depth))

namespace SpendMapProof

/-- `_compress_audit_path`, from an index on. -/
def compressAuditPath (crypto : Crypto) :
    Nat → List AuditStep → Except String (List CompressedSibling)
  | _, [] => pure []
  | index, step :: rest => do
      let childDepth : Int := spendMapKeyBits - index
      let siblingHash ← hex32 step.hash "spend-map sibling hash"
      let empty ← emptyHashes crypto childDepth
      let siblings ← compressAuditPath crypto (index + 1) rest
      pure (if siblingHash ≠ empty then ⟨childDepth, step.side, siblingHash⟩ :: siblings else siblings)

/-- `compress_spend_map_proof`. -/
def compressSpendMapProof (crypto : Crypto) (fullProof : SpendMapProof) (networkId : Int) :
    Except String CompressedSpendMapProof := do
  Check.require (fullProof.claims.toList ≠ []) "transparency spend-map proof has no spend claims"
  let siblings ← compressAuditPath crypto 0 fullProof.auditPath
  let spendKey ← hex32 fullProof.spendKey "spend key"
  pure
    { type := compressedSpendMapProofType
      version := compressedSpendMapProofVersion
      networkId := networkId
      algorithm := compressedSpendMapAlgorithm
      spendKey := spendKey
      treeSize := fullProof.treeSize
      mapSize := fullProof.mapSize
      spendClaims := fullProof.claims.toList
      nonEmptySiblingCount := siblings.length
      nonEmptySiblings := siblings }

end SpendMapProof

namespace CompressedSpendMapProof

/-- `_validate_compressed_header`. -/
def validateCompressedHeader (proof : CompressedSpendMapProof) (expectedNetworkId : Option Int) :
    Except String String := do
  Check.require (proof.type = compressedSpendMapProofType) "malformed compressed spend-map proof"
  Check.require (proof.version = compressedSpendMapProofVersion)
    "unsupported compressed spend-map proof version"
  requireMin proof.networkId 0 "compressed spend-map proof network id"
  Check.require (∀ e ∈ expectedNetworkId, proof.networkId = e)
    "compressed spend-map proof network id mismatch"
  Check.require (proof.algorithm = compressedSpendMapAlgorithm)
    "unsupported compressed spend-map proof algorithm"
  let spendKey ← hex32 proof.spendKey "spend key"
  requireMin proof.treeSize 0 "compressed spend-map proof tree size"
  requireMin proof.mapSize 0 "compressed spend-map proof map size"
  Check.require (proof.spendClaims ≠ []) "compressed spend-map proof has no spend claims"
  requireMin proof.nonEmptySiblingCount 0 "compressed spend-map proof sibling count"
  requireMax proof.nonEmptySiblingCount spendMapKeyBits "compressed spend-map proof sibling count"
  Check.require (proof.nonEmptySiblingCount = proof.nonEmptySiblings.length)
    "compressed spend-map proof sibling count mismatch"
  pure spendKey

/-- The loop of `_expanded_audit_path` over the siblings, with the depth before and `siblings_by_depth`. -/
def siblingsByDepth (crypto : Crypto) (position : Nat) :
    List CompressedSibling → Int → List (Int × AuditStep) → Except String (List (Int × AuditStep))
  | [], _, byDepth => pure byDepth
  | sibling :: rest, previousDepth, byDepth => do
      requireMin sibling.depth 1 "compressed spend-map sibling depth"
      requireMax sibling.depth spendMapKeyBits "compressed spend-map sibling depth"
      Check.require (AssocList.get? sibling.depth byDepth = none)
        "compressed spend-map proof has duplicate sibling depths"
      Check.require (sibling.depth < previousDepth) "compressed spend-map siblings are not canonical"
      Check.require (sibling.side = expectedSideByDepth position sibling.depth.toNat)
        "compressed spend-map sibling does not follow the spend key"
      let siblingHash ← hex32 sibling.hash "compressed spend-map sibling hash"
      let empty ← emptyHashes crypto sibling.depth
      Check.require (siblingHash ≠ empty) "compressed spend-map proof explicitly stores an empty sibling"
      siblingsByDepth crypto position rest sibling.depth
        (AssocList.put sibling.depth ⟨sibling.side, siblingHash⟩ byDepth)

/-- The step of the expanded path at a height. -/
def expandedStep (crypto : Crypto) (position : Nat) (byDepth : List (Int × AuditStep)) (height : Nat) :
    AuditStep :=
  let childDepth := spendMapKeyBits - height
  (AssocList.get? (childDepth : Int) byDepth).getD
    ⟨expectedSideByDepth position childDepth, emptyHash crypto height⟩

/-- `_expanded_audit_path`. -/
def expandedAuditPath (crypto : Crypto) (proof : CompressedSpendMapProof) (spendKey : String) :
    Except String (List AuditStep) := do
  let position ← spendKeyPosition spendKey
  let byDepth ← siblingsByDepth crypto position proof.nonEmptySiblings (spendMapKeyBits + 1) []
  pure ((List.range spendMapKeyBits).map (expandedStep crypto position byDepth))

/-- `expand_compressed_spend_map_proof`. -/
def expandCompressedSpendMapProof (crypto : Crypto) (proof : CompressedSpendMapProof)
    (expectedNetworkId : Option Int) : Except String SpendMapProof := do
  let spendKey ← proof.validateCompressedHeader expectedNetworkId
  let auditPath ← proof.expandedAuditPath crypto spendKey
  pure
    { type := logSpendMapProofType
      version := logVersion
      algorithm := logSpendMapAlgorithm
      spendKey := spendKey
      treeSize := proof.treeSize
      mapSize := proof.mapSize
      claims := .spendClaims proof.spendClaims
      auditPath := auditPath }

/-- `verify_compressed_spend_map_proof`. -/
def verifyCompressedSpendMapProof (crypto : Crypto) (acceptLegacy : Bool) (clock : Int)
    (proof : CompressedSpendMapProof) (root : SignedRoot) (expectedNetworkId : Option Int) :
    Except String (List SpendClaim) := do
  let fullProof ← proof.expandCompressedSpendMapProof crypto expectedNetworkId
  fullProof.verifySpendMapProof crypto acceptLegacy clock root

end CompressedSpendMapProof

/-! ## Compression -/

/-- A step with its hash in lower case. -/
def AuditStep.normal (step : AuditStep) : AuditStep :=
  { step with hash := Text.lower step.hash }

/-- A sibling with its hash in lower case. -/
def CompressedSibling.normal (sibling : CompressedSibling) : CompressedSibling :=
  { sibling with hash := Text.lower sibling.hash }

/-- The siblings of a path that are not empty, from a height on. -/
def nonEmptySiblings (crypto : Crypto) : Nat → List AuditStep → List CompressedSibling
  | _, [] => []
  | height, step :: rest =>
      if Text.lower step.hash ≠ emptyHash crypto height then
        ⟨spendMapKeyBits - height, step.side, Text.lower step.hash⟩ ::
          nonEmptySiblings crypto (height + 1) rest
      else nonEmptySiblings crypto (height + 1) rest

section Compression

variable {crypto : Crypto} {path : List AuditStep} {height : Nat}

theorem emptyHashes_eq {depth : Int} (h : 1 ≤ depth) (hle : depth ≤ spendMapKeyBits) :
    emptyHashes crypto depth = .ok (emptyHash crypto (spendMapKeyBits - depth.toNat)) := by
  have hindex : (if depth < 0 then depth + spendMapKeyBits + 1 else depth) = depth :=
    if_neg (by omega)
  unfold emptyHashes
  simp only [hindex]
  rw [if_pos ⟨by omega, hle⟩]
  rfl

theorem emptyHashes_height (h : height < spendMapKeyBits) :
    emptyHashes crypto ((spendMapKeyBits : Int) - height) = .ok (emptyHash crypto height) := by
  rw [emptyHashes_eq (by omega) (by omega)]
  congr 2
  omega

theorem isDigest_emptyHash (crypto : Crypto) (height : Nat) : IsDigest (emptyHash crypto height) := by
  cases height with
  | zero => exact isDigest_sha3Hex crypto _
  | succ height => exact isDigest_sha3Hex crypto _

/-- Compressing a path of hash texts finds its siblings that are not empty. -/
theorem compressAuditPath_eq (hpath : ∀ step ∈ path, IsHex32 step.hash)
    (hlength : height + path.length ≤ spendMapKeyBits) :
    SpendMapProof.compressAuditPath crypto height path = .ok (nonEmptySiblings crypto height path) := by
  induction path generalizing height with
  | nil => rfl
  | cons step rest ih =>
    rw [List.forall_mem_cons] at hpath
    rw [List.length_cons] at hlength
    have hrest := @ih (height + 1) hpath.2 (by omega)
    simp only [SpendMapProof.compressAuditPath, Check.bind_eq_ok, hex32_eq_ok, Check.pure_eq_ok]
    exact ⟨_, ⟨hpath.1, rfl⟩, _, emptyHashes_height (by omega), _, hrest, rfl⟩

/-- The siblings found are those of the steps whose hash is not the empty one at their height. -/
theorem mem_nonEmptySiblings {s : CompressedSibling} : s ∈ nonEmptySiblings crypto height path ↔
    ∃ i step, path[i]? = some step ∧ Text.lower step.hash ≠ emptyHash crypto (height + i) ∧
      s = ⟨spendMapKeyBits - (height + i : Nat), step.side, Text.lower step.hash⟩ := by
  induction path generalizing height with
  | nil => simp [nonEmptySiblings]
  | cons head rest ih =>
    have hshift : ∀ i, height + 1 + i = height + (i + 1) := fun i => by omega
    have hrest : s ∈ nonEmptySiblings crypto (height + 1) rest ↔
        ∃ i step, (head :: rest)[i + 1]? = some step ∧
          Text.lower step.hash ≠ emptyHash crypto (height + (i + 1)) ∧
          s = ⟨spendMapKeyBits - (height + (i + 1) : Nat), step.side, Text.lower step.hash⟩ := by
      simp only [ih, hshift, List.getElem?_cons_succ]
    have hsplit : ∀ P : Nat → Prop, (∃ i, P i) ↔ P 0 ∨ ∃ i, P (i + 1) := by
      intro P
      constructor
      · rintro ⟨i, hi⟩
        cases i with
        | zero => exact Or.inl hi
        | succ i => exact Or.inr ⟨i, hi⟩
      · rintro (h | ⟨i, hi⟩)
        · exact ⟨0, h⟩
        · exact ⟨i + 1, hi⟩
    rw [hsplit, ← hrest, nonEmptySiblings]
    simp only [List.getElem?_cons_zero, Option.some.injEq, ↓existsAndEq, true_and, Nat.add_zero]
    split
    · next hne => simp [hne]
    · next heq =>
      rw [not_not] at heq
      simp [heq]

/-- The siblings found are listed by falling depth. -/
theorem pairwise_nonEmptySiblings :
    (nonEmptySiblings crypto height path).Pairwise (fun a b => b.depth < a.depth) := by
  induction path generalizing height with
  | nil => exact List.Pairwise.nil
  | cons step rest ih =>
    rw [nonEmptySiblings]
    split
    · refine List.Pairwise.cons ?_ ih
      intro s hs
      obtain ⟨i, step', -, -, rfl⟩ := mem_nonEmptySiblings.1 hs
      simp only
      omega
    · exact ih

theorem length_nonEmptySiblings_le : (nonEmptySiblings crypto height path).length ≤ path.length := by
  induction path generalizing height with
  | nil => exact le_rfl
  | cons step rest ih =>
    rw [nonEmptySiblings]
    split
    · exact Nat.succ_le_succ ih
    · exact Nat.le_succ_of_le ih

end Compression

/-! ## Expansion -/

/-- What the loop over the siblings requires of each of them. -/
structure CompressedSibling.Follows (crypto : Crypto) (position : Nat) (s : CompressedSibling) : Prop where
  depth_pos : 1 ≤ s.depth
  depth_le : s.depth ≤ spendMapKeyBits
  side_eq : s.side = expectedSideByDepth position s.depth.toNat
  hash_hex : IsHex32 s.hash
  not_empty : Text.lower s.hash ≠ emptyHash crypto (spendMapKeyBits - s.depth.toNat)

/-- The siblings are those of a path, by falling depth. -/
structure CanonicalSiblings (crypto : Crypto) (position : Nat) (siblings : List CompressedSibling) :
    Prop where
  follows : ∀ s ∈ siblings, s.Follows crypto position
  pairwise : siblings.Pairwise (fun a b => b.depth < a.depth)

/-- A dictionary holds the step of every sibling, and at other depths what another one holds. -/
structure HoldsSiblings (siblings : List CompressedSibling) (old new : List (Int × AuditStep)) : Prop where
  of_mem : ∀ s ∈ siblings, AssocList.get? s.depth new = some ⟨s.side, Text.lower s.hash⟩
  of_not_mem : ∀ depth, (∀ s ∈ siblings, s.depth ≠ depth) →
    AssocList.get? depth new = AssocList.get? depth old

section Expansion

variable {crypto : Crypto} {position : Nat} {siblings : List CompressedSibling} {previousDepth : Int}
  {old new : List (Int × AuditStep)}

open CompressedSpendMapProof

theorem siblingsByDepth_cons_eq_ok {s : CompressedSibling} :
    siblingsByDepth crypto position (s :: siblings) previousDepth old = .ok new ↔
      s.Follows crypto position ∧ AssocList.get? s.depth old = none ∧ s.depth < previousDepth ∧
        siblingsByDepth crypto position siblings s.depth
          (AssocList.put s.depth ⟨s.side, Text.lower s.hash⟩ old) = .ok new := by
  simp only [siblingsByDepth, Check.bind_eq_ok, requireMin_eq_ok, requireMax_eq_ok, Check.require_eq_ok,
    hex32_eq_ok]
  constructor
  · rintro ⟨_, hpos, _, hle, _, hnew, _, hlt, _, hside, _, ⟨hhex, rfl⟩, _, hempty, _, hne, hrest⟩
    obtain rfl := Except.ok.inj ((emptyHashes_eq hpos hle).symm.trans hempty)
    exact ⟨⟨hpos, hle, hside, hhex, hne⟩, hnew, hlt, hrest⟩
  · rintro ⟨h, hnew, hlt, hrest⟩
    exact ⟨(), h.depth_pos, (), h.depth_le, (), hnew, (), hlt, (), h.side_eq, _, ⟨h.hash_hex, rfl⟩, _,
      emptyHashes_eq h.depth_pos h.depth_le, (), h.not_empty, hrest⟩

/-- The loop accepts canonical siblings only, and collects them. -/
theorem canonical_of_siblingsByDepth
    (h : siblingsByDepth crypto position siblings previousDepth old = .ok new) :
    CanonicalSiblings crypto position siblings ∧ (∀ s ∈ siblings, s.depth < previousDepth) ∧
      HoldsSiblings siblings old new := by
  induction siblings generalizing previousDepth old with
  | nil =>
    obtain rfl := Except.ok.inj h
    exact ⟨⟨by simp, List.Pairwise.nil⟩, by simp, by simp, fun _ _ => rfl⟩
  | cons s rest ih =>
    obtain ⟨hs, -, hlt, hrest⟩ := siblingsByDepth_cons_eq_ok.1 h
    obtain ⟨hcanonical, hbelow, hholds⟩ := ih hrest
    refine ⟨⟨List.forall_mem_cons.2 ⟨hs, hcanonical.follows⟩,
      List.Pairwise.cons hbelow hcanonical.pairwise⟩,
      List.forall_mem_cons.2 ⟨hlt, fun t ht => (hbelow t ht).trans hlt⟩, ?_, ?_⟩
    · refine List.forall_mem_cons.2 ⟨?_, hholds.of_mem⟩
      rw [hholds.of_not_mem s.depth (fun t ht => ne_of_lt (hbelow t ht)), AssocList.get?_put, if_pos rfl]
    · intro depth hdepth
      rw [List.forall_mem_cons] at hdepth
      rw [hholds.of_not_mem depth hdepth.2, AssocList.get?_put, if_neg (Ne.symm hdepth.1)]

/-- The loop accepts all canonical siblings. -/
theorem exists_siblingsByDepth (h : CanonicalSiblings crypto position siblings)
    (hbelow : ∀ s ∈ siblings, s.depth < previousDepth)
    (hold : ∀ s ∈ siblings, AssocList.get? s.depth old = none) :
    ∃ new, siblingsByDepth crypto position siblings previousDepth old = .ok new := by
  induction siblings generalizing previousDepth old with
  | nil => exact ⟨old, rfl⟩
  | cons s rest ih =>
    obtain ⟨hs, hfollows⟩ := List.forall_mem_cons.1 h.follows
    obtain ⟨hlt, hpairwise⟩ := List.pairwise_cons.1 h.pairwise
    rw [List.forall_mem_cons] at hbelow hold
    obtain ⟨new, hnew⟩ := @ih s.depth (AssocList.put s.depth ⟨s.side, Text.lower s.hash⟩ old)
      ⟨hfollows, hpairwise⟩ hlt (by
        intro t ht
        rw [AssocList.get?_put, if_neg (ne_of_lt (hlt t ht))]
        exact hold.2 t ht)
    exact ⟨new, siblingsByDepth_cons_eq_ok.2 ⟨hs, hold.1, hbelow.1, hnew⟩⟩

end Expansion

/-! ## Compressing and expanding -/

/-- A path whose sides follow the position, with hash texts. -/
def FollowsKey (position : Nat) (path : List AuditStep) : Prop :=
  ∀ i step, path[i]? = some step →
    step.side = siblingSide (position / 2 ^ i) ∧ IsHex32 step.hash

section RoundTrip

variable {crypto : Crypto} {position height : Nat} {siblings : List CompressedSibling}
  {byDepth : List (Int × AuditStep)} {path : List AuditStep}

open CompressedSpendMapProof

theorem expectedSideByDepth_height (h : height ≤ spendMapKeyBits) :
    expectedSideByDepth position (spendMapKeyBits - height) = siblingSide (position / 2 ^ height) := by
  unfold expectedSideByDepth
  rw [Nat.sub_sub_self h]

theorem expandedStep_of_mem (hholds : HoldsSiblings siblings [] byDepth) {s : CompressedSibling}
    (hs : s ∈ siblings) (hdepth : s.depth = spendMapKeyBits - height) (h : height ≤ spendMapKeyBits) :
    expandedStep crypto position byDepth height = ⟨s.side, Text.lower s.hash⟩ := by
  have hcast : ((spendMapKeyBits - height : Nat) : Int) = s.depth := by omega
  unfold expandedStep
  simp only [hcast, hholds.of_mem s hs, Option.getD_some]

theorem expandedStep_of_not_mem (hholds : HoldsSiblings siblings [] byDepth)
    (hnone : ∀ s ∈ siblings, s.depth ≠ (spendMapKeyBits : Int) - height) (h : height ≤ spendMapKeyBits) :
    expandedStep crypto position byDepth height
      = ⟨siblingSide (position / 2 ^ height), emptyHash crypto height⟩ := by
  have hget : AssocList.get? ((spendMapKeyBits - height : Nat) : Int) byDepth = none := by
    refine hholds.of_not_mem _ fun s hs => ?_
    have := hnone s hs
    omega
  unfold expandedStep
  simp only [hget, Option.getD_none, expectedSideByDepth_height h]

theorem canonical_nonEmptySiblings (hpath : FollowsKey position path)
    (hlength : path.length = spendMapKeyBits) :
    CanonicalSiblings crypto position (nonEmptySiblings crypto 0 path) := by
  refine ⟨?_, pairwise_nonEmptySiblings⟩
  intro s hs
  obtain ⟨i, step, hstep, hne, rfl⟩ := mem_nonEmptySiblings.1 hs
  obtain ⟨hside, hhex⟩ := hpath i step hstep
  have hi : i < spendMapKeyBits := hlength ▸ (List.getElem?_eq_some_iff.1 hstep).1
  rw [Nat.zero_add] at hne ⊢
  have hdepth : ((spendMapKeyBits : Int) - i).toNat = spendMapKeyBits - i := by omega
  refine ⟨by simp only; omega, by simp only; omega, ?_, hhex.lower, ?_⟩
  · simp only [hdepth, expectedSideByDepth_height hi.le, hside]
  · simp only [hdepth, Nat.sub_sub_self hi.le, Text.lower_lower]
    exact hne

/-- Expanding the siblings of a path gives the path back, with its hashes in lower case. -/
theorem map_expandedStep_nonEmptySiblings (hpath : FollowsKey position path)
    (hlength : path.length = spendMapKeyBits)
    (hholds : HoldsSiblings (nonEmptySiblings crypto 0 path) [] byDepth) :
    (List.range spendMapKeyBits).map (expandedStep crypto position byDepth)
      = path.map AuditStep.normal := by
  refine List.ext_getElem (by simp [hlength]) ?_
  intro i hi _
  rw [List.length_map, List.length_range] at hi
  have hlt : i < path.length := hlength ▸ hi
  have hstep : path[i]? = some path[i] := List.getElem?_eq_getElem _
  obtain ⟨hside, -⟩ := hpath i _ hstep
  rw [List.getElem_map, List.getElem_map, List.getElem_range]
  by_cases hempty : Text.lower path[i].hash = emptyHash crypto i
  · -- no sibling has the depth of an empty one
    rw [expandedStep_of_not_mem hholds ?_ hi.le, ← hside, ← hempty]
    · rfl
    · intro s hs hdepth
      obtain ⟨j, step, hj, hne, rfl⟩ := mem_nonEmptySiblings.1 hs
      have hij : j = i := by
        simp only at hdepth
        omega
      subst hij
      rw [Nat.zero_add] at hne
      obtain rfl := Option.some.inj (hj.symm.trans hstep)
      exact hne hempty
  · have hmem : (⟨spendMapKeyBits - (0 + i : Nat), path[i].side,
        Text.lower path[i].hash⟩ : CompressedSibling)
        ∈ nonEmptySiblings crypto 0 path :=
      mem_nonEmptySiblings.2 ⟨i, _, hstep, by rwa [Nat.zero_add], rfl⟩
    rw [expandedStep_of_mem hholds hmem (by simp only; omega) hi.le, Text.lower_lower]
    rfl

/-- The siblings of an expanded path are those it was expanded from, with their hashes in lower case. -/
theorem nonEmptySiblings_map_expandedStep (hcanonical : CanonicalSiblings crypto position siblings)
    (hholds : HoldsSiblings siblings [] byDepth) :
    nonEmptySiblings crypto 0 ((List.range spendMapKeyBits).map (expandedStep crypto position byDepth))
      = siblings.map CompressedSibling.normal := by
  -- both lists are in order of depth, so they are equal if they have the same siblings
  have hirrefl : Std.Irrefl fun a b : CompressedSibling => b.depth < a.depth := ⟨fun a => lt_irrefl _⟩
  have hantisymm : Std.Antisymm fun a b : CompressedSibling => b.depth < a.depth :=
    ⟨fun a b hab hba => absurd hab (lt_asymm hba)⟩
  refine pairwise_nonEmptySiblings.eq_of_mem_iff (List.pairwise_map.2 hcanonical.pairwise) ?_
  intro s
  rw [mem_nonEmptySiblings, List.mem_map]
  constructor
  · rintro ⟨i, step, hstep, hne, rfl⟩
    obtain ⟨hi, rfl⟩ := List.getElem?_eq_some_iff.1 hstep
    rw [List.length_map, List.length_range] at hi
    rw [List.getElem_map, List.getElem_range, Nat.zero_add] at *
    by_cases hmem : ∃ t ∈ siblings, t.depth = (spendMapKeyBits : Int) - i
    · obtain ⟨t, ht, hdepth⟩ := hmem
      rw [expandedStep_of_mem hholds ht hdepth hi.le, Text.lower_lower, ← hdepth]
      exact ⟨t, ht, rfl⟩
    · push Not at hmem
      rw [expandedStep_of_not_mem hholds hmem hi.le, (isDigest_emptyHash crypto i).lower] at hne
      exact absurd rfl hne
  · rintro ⟨t, ht, rfl⟩
    have hfollows := hcanonical.follows t ht
    have hpos := hfollows.depth_pos
    have hle := hfollows.depth_le
    let i := spendMapKeyBits - t.depth.toNat
    have hi : i < spendMapKeyBits := by omega
    have hdepth : t.depth = (spendMapKeyBits : Int) - i := by omega
    have hstep := @expandedStep_of_mem crypto position i _ _ hholds t ht hdepth hi.le
    refine ⟨i, expandedStep crypto position byDepth i, ?_, ?_, ?_⟩
    · rw [List.getElem?_map, List.getElem?_range hi, Option.map_some]
    · rw [hstep, Text.lower_lower, Nat.zero_add]
      exact hfollows.not_empty
    · rw [hstep, Text.lower_lower, Nat.zero_add, ← hdepth]
      rfl

/-- The verifier reads the hashes of a path in lower case. -/
theorem climbAuditPath_normal (path : List AuditStep) (position : Nat) (current : String) :
    SpendMapProof.climbAuditPath crypto (path.map AuditStep.normal) position current
      = SpendMapProof.climbAuditPath crypto path position current := by
  induction path generalizing position current with
  | nil => rfl
  | cons step rest ih =>
    have hhash : hex32 (Text.lower step.hash) "spend-map sibling hash"
        = hex32 step.hash "spend-map sibling hash" := by
      unfold hex32
      rw [Text.length_lower, Text.fromhex_lower, Text.lower_lower]
    simp only [List.map_cons, SpendMapProof.climbAuditPath, AuditStep.normal, hhash, ih]

theorem followsKey_of_climbAuditPath {current top : String}
    (h : SpendMapProof.climbAuditPath crypto path position current = .ok top) :
    FollowsKey position path := by
  induction path generalizing position current with
  | nil =>
    intro i step hstep
    exact nomatch hstep
  | cons head rest ih =>
    simp only [SpendMapProof.climbAuditPath, Check.bind_eq_ok, hex32_eq_ok, Check.require_eq_ok] at h
    obtain ⟨_, ⟨hhex, -⟩, _, hside, hrest⟩ := h
    intro i step hstep
    cases i with
    | zero =>
      obtain rfl := Option.some.inj hstep
      rw [pow_zero, Nat.div_one]
      exact ⟨hside, hhex⟩
    | succ i =>
      obtain ⟨hside', hhex'⟩ := ih hrest i step hstep
      rw [Nat.div_div_eq_div_mul, ← pow_succ'] at hside'
      exact ⟨hside', hhex'⟩

end RoundTrip

/-! ## Proofs -/

/-- A compressed proof whose key and hashes are written in lower case. -/
def CompressedSpendMapProof.LowerCase (proof : CompressedSpendMapProof) : Prop :=
  Text.lower proof.spendKey = proof.spendKey ∧
    ∀ s ∈ proof.nonEmptySiblings, Text.lower s.hash = s.hash

section Proofs

variable {crypto : Crypto} {acceptLegacy : Bool} {clock networkId : Int} {root : SignedRoot}
  {claims : List SpendClaim}

theorem exists_lower_of_normalizeClaims {given shown : List SpendClaim}
    (h : SpendMapProof.normalizeClaims crypto clock given = .ok shown) (hne : given ≠ []) :
    ∃ claim ∈ shown, Text.lower claim.spendKey = claim.spendKey := by
  cases given with
  | nil => exact absurd rfl hne
  | cons claim rest =>
    simp only [SpendMapProof.normalizeClaims, Check.bind_eq_ok, Check.pure_eq_ok] at h
    obtain ⟨normal, hnormal, _, -, rfl⟩ := h
    obtain ⟨-, rfl⟩ := SpendClaim.normalizeSpendClaim_eq_ok.1 hnormal
    exact ⟨_, List.mem_cons_self, Text.lower_lower _⟩

/-- The key of an accepted proof is the key of its claims, which is in lower case. -/
theorem SpendMapProof.lower_spendKey {p : SpendMapProof}
    (h : p.verifySpendMapProof crypto acceptLegacy clock root = .ok claims) :
    Text.lower p.spendKey = p.spendKey := by
  obtain ⟨-, hheader, shown, hshown, hcheck, -⟩ := SpendMapProof.verify_eq_ok.1 h
  have hne : p.claims.toList ≠ [] := by
    simp only [SpendMapProof.checkHeader, Check.bind_eq_ok, Check.require_eq_ok] at hheader
    obtain ⟨_, -, _, -, _, -, _, -, _, -, _, -, _, -, _, -, _, -, hne⟩ := hheader
    exact hne
  obtain ⟨claim, hmem, hlower⟩ := exists_lower_of_normalizeClaims hshown hne
  have hkey := ((SpendMapProof.checkClaims_eq_ok.1 hcheck).1 claim hmem).2.1
  rwa [hkey] at hlower

/-- Changing the hashes of a path to lower case does not change what is verified. -/
theorem SpendMapProof.verify_normal (p : SpendMapProof) :
    { p with auditPath := p.auditPath.map AuditStep.normal }.verifySpendMapProof crypto acceptLegacy
      clock root = p.verifySpendMapProof crypto acceptLegacy clock root := by
  unfold SpendMapProof.verifySpendMapProof
  simp only [List.length_map, climbAuditPath_normal]
  rfl

/-- **An accepted full proof has an accepted compressed form, which shows the same claims.** -/
theorem SpendMapProof.exists_compress {p : SpendMapProof} {list : List SpendClaim}
    (hlist : p.claims = .spendClaims list)
    (h : p.verifySpendMapProof crypto acceptLegacy clock root = .ok claims) (hnetwork : 0 ≤ networkId) :
    ∃ c, p.compressSpendMapProof crypto networkId = .ok c ∧ c.LowerCase ∧
      c.verifyCompressedSpendMapProof crypto acceptLegacy clock root (some networkId) = .ok claims := by
  have hlower := SpendMapProof.lower_spendKey h
  obtain ⟨-, hheader, shown, -, -, _, -, position, hposition, hlength, top, hclimb, -⟩ :=
    SpendMapProof.verify_eq_ok.1 h
  simp only [SpendMapProof.checkHeader, Check.bind_eq_ok, Check.require_eq_ok,
    requireMin_eq_ok] at hheader
  obtain ⟨_, ⟨htype, hversion⟩, _, halgorithm, _, -, _, -, _, htree, _, -, _, -, _, hmap, _, -, hne⟩ :=
    hheader
  have hpath := followsKey_of_climbAuditPath hclimb
  have hhex : ∀ step ∈ p.auditPath, IsHex32 step.hash := by
    intro step hstep
    obtain ⟨i, hi⟩ := List.getElem?_of_mem hstep
    exact (hpath i step hi).2
  have hkey : IsHex32 p.spendKey := by
    obtain ⟨_, hkey, -⟩ := Check.bind_eq_ok.1 hposition
    exact (hex32_eq_ok.1 hkey).1
  have hsiblings := @compressAuditPath_eq crypto p.auditPath 0 hhex (by omega)
  have hcanonical : CanonicalSiblings crypto position (nonEmptySiblings crypto 0 p.auditPath) :=
    canonical_nonEmptySiblings hpath hlength
  have hcount : (nonEmptySiblings crypto 0 p.auditPath).length ≤ spendMapKeyBits :=
    hlength ▸ length_nonEmptySiblings_le
  let c : CompressedSpendMapProof :=
    { type := compressedSpendMapProofType
      version := compressedSpendMapProofVersion
      networkId := networkId
      algorithm := compressedSpendMapAlgorithm
      spendKey := p.spendKey
      treeSize := p.treeSize
      mapSize := p.mapSize
      spendClaims := p.claims.toList
      nonEmptySiblingCount := (nonEmptySiblings crypto 0 p.auditPath).length
      nonEmptySiblings := nonEmptySiblings crypto 0 p.auditPath }
  have hvalidate : c.validateCompressedHeader (some networkId) = .ok p.spendKey := by
    simp only [CompressedSpendMapProof.validateCompressedHeader, Check.bind_eq_ok, Check.require_eq_ok,
      requireMin_eq_ok, requireMax_eq_ok, hex32_eq_ok, Check.pure_eq_ok]
    have hexpected : ∀ e ∈ some networkId, networkId = e := by
      rintro e ⟨⟩
      rfl
    exact ⟨(), rfl, (), rfl, (), hnetwork, (), hexpected, (), rfl, _, ⟨hkey, rfl⟩, (), htree, (), hmap, (),
      hne, (), Int.natCast_nonneg _, (), by simp only [c]; omega, (), rfl, hlower⟩
  have hbelow : ∀ s ∈ nonEmptySiblings crypto 0 p.auditPath, s.depth < (spendMapKeyBits : Int) + 1 :=
    fun s hs => Int.lt_add_one_of_le (hcanonical.follows s hs).depth_le
  obtain ⟨byDepth, hbyDepth⟩ := @exists_siblingsByDepth _ _ _ _ [] hcanonical hbelow fun _ _ => rfl
  obtain ⟨-, -, hholds⟩ := canonical_of_siblingsByDepth hbyDepth
  have hexpand : c.expandCompressedSpendMapProof crypto (some networkId)
      = .ok { p with auditPath := p.auditPath.map AuditStep.normal } := by
    refine Check.bind_eq_ok.2 ⟨_, hvalidate, Check.bind_eq_ok.2 ⟨_, Check.bind_eq_ok.2
      ⟨position, hposition, Check.bind_eq_ok.2 ⟨byDepth, hbyDepth, rfl⟩⟩, ?_⟩⟩
    rw [map_expandedStep_nonEmptySiblings hpath hlength hholds, Check.pure_eq_ok, ← htype, ← hversion,
      ← halgorithm]
    simp only [c, hlist, ProofClaims.toList]
  refine ⟨c, ?_, ⟨hlower, ?_⟩, ?_⟩
  · simp only [SpendMapProof.compressSpendMapProof, Check.bind_eq_ok, Check.require_eq_ok, hex32_eq_ok,
      Check.pure_eq_ok]
    exact ⟨(), hne, _, hsiblings, _, ⟨hkey, hlower⟩, rfl⟩
  · intro s hs
    obtain ⟨i, step, -, -, rfl⟩ := mem_nonEmptySiblings.1 hs
    exact Text.lower_lower _
  · exact Check.bind_eq_ok.2 ⟨_, hexpand, (SpendMapProof.verify_normal p).trans h⟩

/-- Compressing what a compressed proof expands to gives the compressed proof in lower case. -/
theorem CompressedSpendMapProof.compress_expand {c : CompressedSpendMapProof} {expected : Option Int}
    {full : SpendMapProof} (h : c.expandCompressedSpendMapProof crypto expected = .ok full) :
    full.compressSpendMapProof crypto c.networkId = .ok
      { c with
        spendKey := Text.lower c.spendKey
        nonEmptySiblings := c.nonEmptySiblings.map CompressedSibling.normal } := by
  simp only [expandCompressedSpendMapProof, validateCompressedHeader, expandedAuditPath, Check.bind_eq_ok,
    Check.require_eq_ok, requireMin_eq_ok, requireMax_eq_ok, hex32_eq_ok, Check.pure_eq_ok] at h
  obtain ⟨_, ⟨_, htype, _, hversion, _, -, _, -, _, halgorithm, _, ⟨hkey, rfl⟩, _, -, _, -, _, hne, _, -,
    _, -, _, hcount, rfl⟩, _, ⟨position, hposition, byDepth, hbyDepth, rfl⟩, rfl⟩ := h
  obtain ⟨hcanonical, -, hholds⟩ := canonical_of_siblingsByDepth hbyDepth
  have hsteps := nonEmptySiblings_map_expandedStep hcanonical hholds
  have hhex : ∀ step ∈ (List.range spendMapKeyBits).map (expandedStep crypto position byDepth),
      IsHex32 step.hash := by
    intro step hstep
    obtain ⟨i, hi, rfl⟩ := List.mem_map.1 hstep
    rw [List.mem_range] at hi
    by_cases hmem : ∃ t ∈ c.nonEmptySiblings, t.depth = (spendMapKeyBits : Int) - i
    · obtain ⟨t, ht, hdepth⟩ := hmem
      rw [expandedStep_of_mem hholds ht hdepth hi.le]
      exact (hcanonical.follows t ht).hash_hex.lower
    · push Not at hmem
      rw [expandedStep_of_not_mem hholds hmem hi.le]
      exact (isDigest_emptyHash crypto i).isHex32
  have hsiblings := @compressAuditPath_eq crypto _ 0 hhex (by simp)
  rw [hsteps] at hsiblings
  simp only [SpendMapProof.compressSpendMapProof, Check.bind_eq_ok, Check.require_eq_ok, hex32_eq_ok,
    Check.pure_eq_ok]
  refine ⟨(), hne, _, hsiblings, _, ⟨hkey.lower, rfl⟩, ?_⟩
  rw [Text.lower_lower, List.length_map, ← hcount, ← htype, ← hversion, ← halgorithm]
  rfl

/-- A compressed proof equals its form in lower case exactly if it is written in lower case. -/
theorem CompressedSpendMapProof.normal_eq_iff {c : CompressedSpendMapProof} :
    { c with
      spendKey := Text.lower c.spendKey
      nonEmptySiblings := c.nonEmptySiblings.map CompressedSibling.normal } = c ↔ c.LowerCase := by
  have hmap : c.nonEmptySiblings.map CompressedSibling.normal = c.nonEmptySiblings ↔
      ∀ s ∈ c.nonEmptySiblings, Text.lower s.hash = s.hash := by
    have hinj := @List.map_inj_left _ _ c.nonEmptySiblings CompressedSibling.normal id
    rw [List.map_id] at hinj
    refine hinj.trans (forall₂_congr fun s _ => ?_)
    cases s
    simp [CompressedSibling.normal]
  unfold LowerCase
  rw [← hmap]
  cases c
  simp

end Proofs

/-- **Every accepted full proof has an accepted compressed form with the same claims; and an accepted
    compressed proof is the compressed form of its expansion if and only if its key and its hashes are
    written in lower case.** So each full proof has exactly one such accepted form. -/
theorem interchangeable_iff (crypto : Crypto) (acceptLegacy : Bool) (clock : Int) (root : SignedRoot) :
    (∀ (p : SpendMapProof) (list claims : List SpendClaim) (networkId : Int), 0 ≤ networkId →
      p.claims = .spendClaims list → p.verifySpendMapProof crypto acceptLegacy clock root = .ok claims →
      ∃ c, p.compressSpendMapProof crypto networkId = .ok c ∧ c.LowerCase ∧
        c.verifyCompressedSpendMapProof crypto acceptLegacy clock root (some networkId) = .ok claims) ∧
    (∀ (c : CompressedSpendMapProof) (expected : Option Int) (claims : List SpendClaim),
      c.verifyCompressedSpendMapProof crypto acceptLegacy clock root expected = .ok claims →
      ∃ full, c.expandCompressedSpendMapProof crypto expected = .ok full ∧
        (full.compressSpendMapProof crypto c.networkId = .ok c ↔ c.LowerCase)) ∧
    ∀ (c d : CompressedSpendMapProof) (expected : Option Int) (full : SpendMapProof),
      c.expandCompressedSpendMapProof crypto expected = .ok full →
      d.expandCompressedSpendMapProof crypto expected = .ok full →
      c.networkId = d.networkId → c.LowerCase → d.LowerCase → c = d := by
  refine ⟨?_, ?_, ?_⟩
  · intro p list claims networkId hnetwork hlist h
    exact SpendMapProof.exists_compress hlist h hnetwork
  · intro c expected claims h
    obtain ⟨full, hexpand, -⟩ := Check.bind_eq_ok.1 h
    refine ⟨full, hexpand, ?_⟩
    rw [CompressedSpendMapProof.compress_expand hexpand, Except.ok.injEq,
      CompressedSpendMapProof.normal_eq_iff]
  · intro c d expected full hc hd hnetwork hlowerC hlowerD
    have hcompressC := CompressedSpendMapProof.compress_expand hc
    have hcompressD := CompressedSpendMapProof.compress_expand hd
    rw [CompressedSpendMapProof.normal_eq_iff.2 hlowerC] at hcompressC
    rw [CompressedSpendMapProof.normal_eq_iff.2 hlowerD, ← hnetwork] at hcompressD
    exact Except.ok.inj (hcompressC.symm.trans hcompressD)

/-! ## A key in upper case -/

/-- Some signed root commits to a single claim, under a given key. -/
theorem exists_singleClaim (crypto : Crypto) (acceptLegacy : Bool) {spendKey : String}
    (hkey : IsHex32 spendKey) (hlower : Text.lower spendKey = spendKey)
    (hposition : ∃ p, spendKeyPosition spendKey = .ok p) :
    ∃ m : CommittedMap crypto acceptLegacy, ∃ c, m.claims = [c] ∧ c.spendKey = spendKey := by
  obtain ⟨keys, -⟩ := KeyPair.exists_of_seed crypto (List.replicate 32 0) List.length_replicate
  let logId := logIdFromPublicKey crypto keys.publicKey
  have hlog : IsDigest logId := isDigest_sha3Hex crypto _
  have hlogLen : logId.length ≤ 16384 := by
    rw [hlog.isHex32.1]
    decide
  have hlogStrip : Text.strip logId = logId := by
    obtain ⟨bs, -, hbs⟩ := hlog
    rw [hbs, Text.strip_hex]
  have hkeyLen : spendKey.length ≤ 16384 := by
    rw [hkey.1]
    decide
  have hB : IsHex32 hashB := isHex32_of_chars rfl rfl
  let c := plainClaim logId spendKey hashB
  have hc : SpendClaim.normalizeSpendClaim crypto 0 c = .ok c :=
    plainClaim_normal hlogStrip hkey hB hlower (by decide +kernel)
  obtain ⟨p, hp⟩ := hposition
  have htable : collectClaims crypto 0 [c] [] = .ok [(p, c)] :=
    Check.bind_eq_ok.2 ⟨c, hc, Check.bind_eq_ok.2 ⟨p, hp, Check.bind_eq_ok.2 ⟨[(p, c)], rfl, rfl⟩⟩⟩
  have hslot : ClaimTable.slot [(p, c)] p = [c] := by
    simp [ClaimTable.slot, SpendClaim.sorted]
  obtain ⟨preimage, hpreimage⟩ : ∃ preimage, slotPreimage spendKey [c] = .ok preimage := by
    have hlen : 1 ≤ jsonLimits.maxListItems := by decide
    refine exists_slotPreimage hkey hlen ?_
    intro e he
    rw [List.mem_singleton.1 he]
    exact plainClaim_validate hlogLen hkeyLen (by decide +kernel)
  have hhash : ClaimTable.slotHash crypto [(p, c)] p = .ok (crypto.sha3Hex preimage) := by
    unfold ClaimTable.slotHash
    rw [hslot]
    exact Check.bind_eq_ok.2 ⟨preimage, hpreimage, rfl⟩
  have hmap : spendMapLevels crypto 0 [c]
      = .ok ⟨levelsFrom crypto spendMapKeyBits 0 [(p, crypto.sha3Hex preimage)], [(p, c)]⟩ :=
    Check.bind_eq_ok.2 ⟨_, htable, Check.bind_eq_ok.2 ⟨_, Check.bind_eq_ok.2 ⟨_, hhash, rfl⟩, rfl⟩⟩
  obtain ⟨m, hm⟩ := CommittedMap.exists_of_levels acceptLegacy keys 1
    (show (0 : Int) ≤ maxProtocolTimestamp by decide) (by simp [hc]) hmap (by decide) (by decide)
    (show (1 : Int).natAbs ≤ jsonLimits.maxIntegerAbs by decide) (by simp [c, plainClaim, logId])
    (by simp [c, plainClaim])
  exact ⟨m, c, hm, rfl⟩

/-- A compressed proof whose key is written in upper case expands as the one in lower case. -/
theorem CompressedSpendMapProof.expand_respelled {crypto : Crypto} {c : CompressedSpendMapProof}
    {text : String} {expected : Option Int} (hlength : text.length = c.spendKey.length)
    (hhex : Text.fromhex text = Text.fromhex c.spendKey)
    (hlower : Text.lower text = Text.lower c.spendKey) :
    { c with spendKey := text }.expandCompressedSpendMapProof crypto expected
      = c.expandCompressedSpendMapProof crypto expected := by
  have hhex32 : hex32 text "spend key" = hex32 c.spendKey "spend key" := by
    unfold hex32
    rw [hlength, hhex, hlower]
  unfold expandCompressedSpendMapProof validateCompressedHeader
  simp only [hhex32]
  rfl

/-- An accepted compressed proof that is not the compressed form of its expansion. -/
theorem not_interchangeable : ¬ ∀ (crypto : Crypto) (acceptLegacy : Bool) (clock : Int)
    (root : SignedRoot) (c : CompressedSpendMapProof) (expected : Option Int) (claims : List SpendClaim),
    c.verifyCompressedSpendMapProof crypto acceptLegacy clock root expected = .ok claims →
    ∃ full, c.expandCompressedSpendMapProof crypto expected = .ok full ∧
      full.compressSpendMapProof crypto c.networkId = .ok c := by
  intro hall
  have hA : IsHex32 hashA := isHex32_of_chars rfl rfl
  have hposition : Check.returns (spendKeyPosition hashA) = true := by decide +kernel
  obtain ⟨m, claim, hclaims, hkey⟩ := exists_singleClaim sampleCrypto true hA (by decide +kernel)
    (Check.returns_iff.1 hposition)
  have hmem : claim ∈ m.claims := by
    rw [hclaims]
    exact List.mem_singleton_self _
  have hunshared : m.KeyUnshared hashA := by
    intro _ d hd _
    rw [hclaims, List.mem_singleton] at hd
    rw [hd, hkey]
  obtain ⟨p, claims, hbuild, hverify, -⟩ :=
    m.complete hunshared ⟨claim, hmem, hkey⟩ m.clock le_rfl m.clock_le
  simp only [SpendMapProof.buildSpendMapProof, Check.bind_eq_ok, hex32_eq_ok, Check.pure_eq_ok] at hbuild
  obtain ⟨_, ⟨-, rfl⟩, position, -, map, -, _, -, rfl⟩ := hbuild
  obtain ⟨c, hcompress, -, hc⟩ := SpendMapProof.exists_compress rfl hverify le_rfl
  have hckey : c.spendKey = hashA := by
    simp only [SpendMapProof.compressSpendMapProof, Check.bind_eq_ok, hex32_eq_ok,
      Check.pure_eq_ok] at hcompress
    obtain ⟨_, -, siblings, -, _, ⟨-, rfl⟩, rfl⟩ := hcompress
    change Text.lower (Text.lower hashA) = hashA
    decide +kernel
  -- the same proof, its key written in upper case
  let upperKey := String.ofList (List.replicate 64 'A')
  have hrespelled : { c with spendKey := upperKey }.expandCompressedSpendMapProof sampleCrypto (some 0)
      = c.expandCompressedSpendMapProof sampleCrypto (some 0) := by
    refine CompressedSpendMapProof.expand_respelled ?_ ?_ ?_ <;> rw [hckey] <;> decide +kernel
  have hverifyUpper : { c with spendKey := upperKey }.verifyCompressedSpendMapProof sampleCrypto true
      m.clock m.root (some 0) = .ok claims := by
    unfold CompressedSpendMapProof.verifyCompressedSpendMapProof
    rw [hrespelled]
    exact hc
  obtain ⟨full, hexpand, hsame⟩ := hall _ _ _ _ _ _ _ hverifyUpper
  have hnormal := CompressedSpendMapProof.compress_expand hexpand
  have hlowerCase := CompressedSpendMapProof.normal_eq_iff.1 (Except.ok.inj (hnormal.symm.trans hsame))
  have hupper : Text.lower upperKey ≠ upperKey := by decide +kernel
  exact hupper hlowerCase.1
