import InternationalDollar.Lib.SparseMerkle
import InternationalDollar.SignedRoot

set_option autoImplicit false

/-! # The sparse spend map (`transparency_client`)

The claims of a log are committed to by a sparse tree with one leaf for each 256-bit spend key. The
leaf of a key hashes all claims for it, so a proof for a key shows every claim the operator has
accepted for it.

Levels are listed from the leaves upwards here: the level at height `h` is the source's level at
depth `256 - h`. -/

open SparseMerkle

/-- `SPEND_MAP_KEY_BITS`. -/
def spendMapKeyBits : Nat := 256

/-- `LOG_SPEND_MAP_PROOF_TYPE`. -/
def logSpendMapProofType : String := "ind.transparency_spend_map_proof.v3"

namespace SpendMap

/-! ## Hashes -/

/-- What the hash of an empty leaf is taken of. -/
def emptyLeafPreimage : Bytes :=
  Text.utf8 "IND-SPEND-MAP-EMPTY-LEAF-V3"

/-- What `_spend_map_branch_hash` hashes. Both texts are hexadecimal wherever it is called. -/
def branchPreimage (left right : String) : Bytes :=
  Text.utf8 "IND-SPEND-MAP-BRANCH-V3:" ++
    ((Text.fromhex left).getD [] ++ (Text.fromhex right).getD [])

/-- `_spend_map_branch_hash`. -/
def spendMapBranchHash (crypto : Crypto) (left right : String) : String :=
  crypto.sha3Hex (branchPreimage left right)

/-- The hash of an empty leaf. -/
def emptyLeafHash (crypto : Crypto) : String :=
  crypto.sha3Hex emptyLeafPreimage

/-- `_spend_map_empty_hashes` at a height. -/
def emptyHash (crypto : Crypto) (height : Nat) : String :=
  emptyAt (spendMapBranchHash crypto) (emptyLeafHash crypto) height

/-- `_spend_map_empty_root`. -/
def spendMapEmptyRoot (crypto : Crypto) : String :=
  emptyHash crypto spendMapKeyBits

/-- The claims of a slot as a JSON object. -/
def slotJson (spendKey : String) (claims : List SpendClaim) : Json :=
  .obj [("claims", .arr (claims.map SpendClaim.toJson)), ("spend_key", .str spendKey)]

/-- What `_spend_map_slot_hash` hashes. -/
def slotPreimage (spendKey : String) (claims : List SpendClaim) : Except String Bytes := do
  let keyBytes ← Check.ofOption (Text.fromhex spendKey) "non-hexadecimal number found in fromhex()"
  let slot ← canonicalBytes (slotJson spendKey (SpendClaim.sorted claims))
  pure (Text.utf8 "IND-SPEND-MAP-SLOT-V3:" ++ (keyBytes ++ slot))

/-- `_spend_map_slot_hash`. -/
def spendMapSlotHash (crypto : Crypto) (spendKey : String) (claims : List SpendClaim) :
    Except String String := do
  let preimage ← slotPreimage spendKey claims
  pure (crypto.sha3Hex preimage)

/-- `_spend_key_position`. -/
def spendKeyPosition (spendKey : String) : Except String Nat := do
  let spendKey ← hex32 spendKey "spend key"
  Check.ofOption (Text.intBase16 spendKey) "invalid literal for int() with base 16"

/-! ## Levels -/

/-- `claims_by_key` of `_spend_map_levels`: the claims with the position of their key, in the order
    of insertion. -/
abbrev ClaimTable := List (Nat × SpendClaim)

/-- Insert a claim under its position, unless it is there. -/
def ClaimTable.insert (table : ClaimTable) (position : Nat) (claim : SpendClaim) :
    Except String ClaimTable :=
  match table.find? (fun e => e.1 = position ∧ e.2.transferHash = claim.transferHash) with
  | none => pure (table ++ [(position, claim)])
  | some existing => do
      Check.require (existing.2 = claim)
        "transparency spend map contains inconsistent duplicate claims"
      pure table

/-- The first loop of `_spend_map_levels`. -/
def collectClaims (crypto : Crypto) (clock : Int) :
    List SpendClaim → ClaimTable → Except String ClaimTable
  | [], table => pure table
  | claim :: rest, table => do
      let claim ← SpendClaim.normalizeSpendClaim crypto clock claim
      let position ← spendKeyPosition claim.spendKey
      let table ← table.insert position claim
      collectClaims crypto clock rest table

/-- The sorted claims at a position. -/
def ClaimTable.slot (table : ClaimTable) (position : Nat) : List SpendClaim :=
  SpendClaim.sorted ((table.filter (fun e => e.1 = position)).map Prod.snd)

/-- The hash of the slot at a position, under the key text of its first claim. -/
def ClaimTable.slotHash (crypto : Crypto) (table : ClaimTable) (position : Nat) :
    Except String String :=
  match table.slot position with
  | [] => .error "list index out of range"
  | first :: rest => spendMapSlotHash crypto first.spendKey (first :: rest)

/-- The second loop of `_spend_map_levels`: the leaves at some positions. -/
def ClaimTable.leaves (crypto : Crypto) (table : ClaimTable) :
    List Nat → Except String (Level String)
  | [] => pure []
  | position :: rest => do
      let hash ← table.slotHash crypto position
      let level ← ClaimTable.leaves crypto table rest
      pure ((position, hash) :: level)

/-- The levels from height `h` upwards, `n` above the given one. -/
def levelsFrom (crypto : Crypto) : Nat → Nat → Level String → List (Level String)
  | 0, _, level => [level]
  | n + 1, h, level => level :: levelsFrom crypto n (h + 1)
      (parents (spendMapBranchHash crypto) (emptyHash crypto h) (emptyHash crypto (h + 1)) level)

end SpendMap

/-- The result of `_spend_map_levels`. -/
structure SpendMap where
  levels : List (Level String)
  claimsByKey : SpendMap.ClaimTable

namespace SpendMap

/-- `_spend_map_levels`. -/
def spendMapLevels (crypto : Crypto) (clock : Int) (claims : List SpendClaim) :
    Except String SpendMap := do
  let table ← collectClaims crypto clock claims []
  let leaves ← table.leaves crypto ((table.map Prod.fst).dedup)
  pure ⟨levelsFrom crypto spendMapKeyBits 0 leaves, table⟩

/-- `total_claims`. -/
def totalClaims (map : SpendMap) : Nat :=
  map.claimsByKey.length

/-- The hash at a height and a position, the empty one where the level holds none. -/
def hashAt (crypto : Crypto) (map : SpendMap) (height position : Nat) : String :=
  (map.levels.getD height []).get position (emptyHash crypto height)

/-- The root of a map. -/
def root (crypto : Crypto) (map : SpendMap) : String :=
  map.hashAt crypto spendMapKeyBits 0

/-- `spend_map_root`. -/
def spendMapRoot (crypto : Crypto) (clock : Int) (claims : List SpendClaim) :
    Except String String := do
  let map ← spendMapLevels crypto clock claims
  pure (map.root crypto)

end SpendMap

/-! ## Proofs -/

/-- One step of an audit path. -/
structure AuditStep where
  side : String
  hash : String
deriving DecidableEq

/-- The side of the sibling of a position. -/
def siblingSide (position : Nat) : String :=
  if position % 2 = 0 then "right" else "left"

/-- The `n` steps of an audit path from a height and a position upwards. -/
def auditPathFrom (hashAt : Nat → Nat → String) : Nat → Nat → Nat → List AuditStep
  | 0, _, _ => []
  | n + 1, height, position =>
      ⟨siblingSide position, hashAt height (position ^^^ 1)⟩ ::
        auditPathFrom hashAt n (height + 1) (position / 2)

/-- The claims of a proof: a list, or the single claim of the former format. -/
inductive ProofClaims where
  | spendClaims (claims : List SpendClaim)
  | spendClaim (claim : SpendClaim)
deriving DecidableEq

/-- The list of claims that a proof shows. -/
def ProofClaims.toList : ProofClaims → List SpendClaim
  | .spendClaims claims => claims
  | .spendClaim claim => [claim]

/-- A spend-map proof. -/
structure SpendMapProof where
  type : String
  version : Int
  algorithm : String
  spendKey : String
  treeSize : Int
  mapSize : Int
  claims : ProofClaims
  auditPath : List AuditStep
deriving DecidableEq

namespace SpendMapProof

/-- The proof record for some claims of a map. -/
def ofClaims (spendKey : String) (position : Nat) (treeSize mapSize : Int)
    (claims : List SpendClaim) (hashAt : Nat → Nat → String) : SpendMapProof where
  type := logSpendMapProofType
  version := logVersion
  algorithm := logSpendMapAlgorithm
  spendKey := spendKey
  treeSize := treeSize
  mapSize := mapSize
  claims := .spendClaims claims
  auditPath := auditPathFrom hashAt spendMapKeyBits 0 position

/-- `build_spend_map_proof`. -/
def buildSpendMapProof (crypto : Crypto) (clock : Int) (claims : List SpendClaim)
    (spendKey : String) (treeSize : Int) : Except String SpendMapProof := do
  let spendKey ← hex32 spendKey "spend key"
  let position ← SpendMap.spendKeyPosition spendKey
  let map ← SpendMap.spendMapLevels crypto clock claims
  Check.require (position ∈ map.claimsByKey.map Prod.fst)
    "spend key is not in the transparency spend map"
  pure (ofClaims spendKey position treeSize map.totalClaims (map.claimsByKey.slot position)
    (map.hashAt crypto))

/-- The claims of a proof in their normal form. -/
def normalizeClaims (crypto : Crypto) (clock : Int) : List SpendClaim →
    Except String (List SpendClaim)
  | [] => pure []
  | claim :: rest => do
      let claim ← SpendClaim.normalizeSpendClaim crypto clock claim
      let rest ← normalizeClaims crypto clock rest
      pure (claim :: rest)

/-- The loop over the claims of a proof, with the transfer hashes seen so far. -/
def checkClaims (root : SignedRoot) (spendKey : String) :
    List SpendClaim → List String → Except String Unit
  | [], _ => pure ()
  | claim :: rest, seen => do
      Check.require (claim.logId = root.logId) "spend claim is for a different transparency log"
      Check.require (claim.spendKey = spendKey) "spend-map proof is for a different spend key"
      Check.require (claim.transferLeafIndex < root.treeSize)
        "spend claim references a transfer outside the signed root"
      Check.require (claim.transferHash ∉ seen)
        "spend-map proof contains duplicate transfer claims"
      checkClaims root spendKey rest (claim.transferHash :: seen)

/-- The loop over the audit path. -/
def climbAuditPath (crypto : Crypto) : List AuditStep → Nat → String → Except String String
  | [], _, current => pure current
  | step :: rest, position, current => do
      let sibling ← hex32 step.hash "spend-map sibling hash"
      Check.require (step.side = siblingSide position)
        "spend-map audit path does not follow the spend key"
      climbAuditPath crypto rest (position / 2)
        (if step.side = "left" then SpendMap.spendMapBranchHash crypto sibling current
          else SpendMap.spendMapBranchHash crypto current sibling)

/-- The part of `verify_spend_map_proof` that compares the proof with the signed root. -/
def checkHeader (proof : SpendMapProof) (root : SignedRoot) : Except String Unit := do
  Check.require (proof.type = logSpendMapProofType ∧ proof.version = logVersion)
    "unsupported transparency spend-map proof version"
  Check.require (proof.algorithm = logSpendMapAlgorithm)
    "unsupported transparency spend-map algorithm"
  Check.require (root.spendMapRoot.isSome ∧ root.spendMapSize.isSome ∧ root.spendMapAlgorithm.isSome)
    "signed root does not commit to a transparency spend map"
  Check.require (root.spendMapAlgorithm = some logSpendMapAlgorithm)
    "signed root uses an unsupported spend-map algorithm"
  requireMin proof.treeSize 0 "transparency spend-map proof tree size"
  requireMin root.treeSize 0 "transparency root tree size"
  Check.require (proof.treeSize = root.treeSize)
    "spend-map proof tree size does not match signed root"
  requireMin proof.mapSize 0 "transparency spend-map proof size"
  Check.require (root.spendMapSize = some proof.mapSize)
    "spend-map proof size does not match signed root"
  Check.require (proof.claims.toList ≠ []) "transparency spend-map proof has no spend claims"

/-- `verify_spend_map_proof`. -/
def verifySpendMapProof (crypto : Crypto) (acceptLegacy : Bool) (clock : Int)
    (proof : SpendMapProof) (root : SignedRoot) : Except String (List SpendClaim) := do
  root.verifySignedRoot crypto acceptLegacy none
  checkHeader proof root
  let claims ← normalizeClaims crypto clock proof.claims.toList
  checkClaims root proof.spendKey claims []
  let slot ← SpendMap.spendMapSlotHash crypto proof.spendKey claims
  let position ← SpendMap.spendKeyPosition proof.spendKey
  Check.require (proof.auditPath.length = spendMapKeyBits) "invalid spend-map audit path length"
  let top ← climbAuditPath crypto proof.auditPath position slot
  Check.require (root.spendMapRoot = some top) "spend-map proof does not match signed root"
  pure (SpendClaim.sorted claims)

end SpendMapProof
