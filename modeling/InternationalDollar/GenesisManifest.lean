import InternationalDollar.Checkpoint
import Mathlib.Data.List.Sort

set_option autoImplicit false

/-! # Genesis manifests (`genesis_manifest_v3`)

The signed list of ranges of serials that were issued at the start, with the owner of each range.
From a manifest the genesis reference and the sequence-zero state of every issued bill are derived
deterministically. -/

/-- A range of a manifest. -/
structure ManifestRange where
  value : Int
  startSerial : Int
  count : Int
  ownerAddress : String
  nonceSeed : String
deriving DecidableEq

/-- A range after validation. -/
structure NormalizedRange where
  value : Int
  startSerial : Int
  endSerial : Int
  count : Int
  ownerAddress : String
  nonceSeed : String
deriving DecidableEq

/-- A genesis manifest. -/
structure GenesisManifest where
  type : String
  version : Int
  network : String
  networkId : Int
  genesisAlgorithm : String
  signatureAlgorithm : Int
  issuerPublicKey : String
  issuerKeyId : String
  issuedAt : Int
  totalTokenCount : Int
  totalValue : Int
  ranges : List ManifestRange
  metadata : Json
  signature : String
  manifestHash : String
deriving DecidableEq

/-- What `verify_manifest` returns. -/
structure VerifiedManifest where
  manifestHash : String
  issuerKeyId : String
  ranges : List NormalizedRange
  totalTokenCount : Int
  totalValue : Int
deriving DecidableEq

/-- The optional requirements of `verify_manifest`. -/
structure ManifestRequirements where
  trustedHashes : Option (List String)
  requireFullSupply : Bool
  expectedNetwork : Option String
  expectedNetworkId : Option Int

/-- `verify_manifest(manifest)` without requirements. -/
def ManifestRequirements.none : ManifestRequirements where
  trustedHashes := .none
  requireFullSupply := false
  expectedNetwork := .none
  expectedNetworkId := .none

namespace GenesisManifest

/-- `GENESIS_MANIFEST_TYPE`. -/
def manifestType : String := "ind.genesis_manifest.v3"

/-- `GENESIS_HASH_ALGORITHM`. -/
def genesisHashAlgorithm : String := "IND_GENESIS_REF_SHA3_256_V3"

/-- A range as a JSON object. -/
def rangeJson (range : ManifestRange) : Json :=
  .obj [("count", .int range.count), ("nonce_seed", .str range.nonceSeed),
    ("owner_address", .str range.ownerAddress), ("start_serial", .int range.startSerial),
    ("value", .int range.value)]

/-- `unsigned_manifest`: the manifest without its hash and signature. -/
def unsignedManifest (manifest : GenesisManifest) : Json :=
  .obj [("genesis_algorithm", .str manifest.genesisAlgorithm), ("issued_at", .int manifest.issuedAt),
    ("issuer_key_id", .str manifest.issuerKeyId),
    ("issuer_public_key", .str manifest.issuerPublicKey), ("metadata", manifest.metadata),
    ("network", .str manifest.network), ("network_id", .int manifest.networkId),
    ("ranges", .arr (manifest.ranges.map rangeJson)),
    ("signature_algorithm", .int manifest.signatureAlgorithm),
    ("total_token_count", .int manifest.totalTokenCount), ("total_value", .int manifest.totalValue),
    ("type", .str manifest.type), ("version", .int manifest.version)]

/-- `issuer_key_id`. -/
def deriveIssuerKeyId (crypto : Crypto) (issuerPublicKey : String) : Except String String := do
  let _ ← decodePublicKey issuerPublicKey
  sha3Json crypto (.obj [("algorithm", .str "IND_GENESIS_ISSUER_KEY_ID_SHA3_256_V3"),
    ("issuer_public_key", .str issuerPublicKey)])

/-- `_normalize_network`. -/
def normalizeNetwork (network : String) : String :=
  let value := String.ofList ((Text.lower (Text.strip network)).toList.map
    (fun c => if c = '_' then '-' else c))
  if value ∈ ["main", "main-net", "mainnet", "production", "prod", ""] then "mainnet"
  else if value ∈ ["test", "test-net", "testnet", "public-testnet"] then "testnet"
  else value

/-- One round of the loop of `_validate_ranges`. -/
def validateRange (crypto : Crypto) (range : ManifestRange) : Except String NormalizedRange := do
  let value ← validateBillValue range.value "genesis manifest range value"
  let startSerial ← validateBillSerial value range.startSerial "genesis manifest range start_serial"
  requireMin range.count 1 "genesis manifest range count"
  let endSerial := startSerial + range.count - 1
  let _ ← validateBillSerial value endSerial "genesis manifest range end_serial"
  let owner ← validateAddress crypto range.ownerAddress "genesis manifest range owner address"
  let nonceSeed ← hex32 range.nonceSeed "genesis manifest range nonce seed"
  pure { value, startSerial, endSerial, count := range.count, ownerAddress := owner, nonceSeed }

/-- The loop of `_validate_ranges`. -/
def validateRangeList (crypto : Crypto) : List ManifestRange → Except String (List NormalizedRange)
  | [] => .ok []
  | range :: rest => do
      let head ← validateRange crypto range
      let tail ← validateRangeList crypto rest
      pure (head :: tail)

/-- The sort key of a range: its value, then its first serial. -/
def rangeLe (a b : NormalizedRange) : Bool :=
  decide (a.value < b.value) || (decide (a.value = b.value) && decide (a.startSerial ≤ b.startSerial))

/-- Neighbours in the sorted list overlap. -/
def overlaps : List NormalizedRange → Bool
  | a :: b :: rest =>
      (decide (a.value = b.value) && decide (b.startSerial ≤ a.endSerial)) || overlaps (b :: rest)
  | _ => false

/-- `_validate_ranges`: the sorted ranges, the number of bills and their total value. -/
def validateRanges (crypto : Crypto) (ranges : List ManifestRange) :
    Except String (List NormalizedRange × Int × Int) := do
  Check.require (ranges ≠ []) "genesis manifest must contain ranges"
  let checked ← validateRangeList crypto ranges
  let normalized := checked.insertionSort (fun a b => rangeLe a b = true)
  Check.require (overlaps normalized = false) "genesis manifest ranges overlap"
  let totalCount := (checked.map NormalizedRange.count).sum
  let totalValue := (checked.map (fun range => range.count * range.value)).sum
  Check.require (totalCount ≤ totalSupply) "genesis manifest exceeds fixed IND bill supply"
  pure (normalized, totalCount, totalValue)

/-- `_signature_bytes`. -/
def signatureBytes (signature : String) : Except String Bytes := do
  Check.require (signature.length = 128) "invalid genesis manifest signature"
  Check.ofOption (Text.fromhex signature) "invalid genesis manifest signature"

/-- `_signing_preimage`. -/
def signingPreimage (manifest : GenesisManifest) : Except String Bytes := do
  let raw ← canonicalBytes (unsignedManifest manifest)
  BinaryV3.signingPreimage manifest.networkId manifestType 3 BinaryV3.signatureAlgorithmId
    "IND_GENESIS_MANIFEST_V3" raw

/-- The check of the manifest hash against trusted ones. -/
def checkTrustedHash (trustedHashes : Option (List String)) (hash : String) : Except String Unit :=
  match trustedHashes with
  | none => .ok ()
  | some trusted => do
      Check.requireAll (fun item => (fun _ => ()) <$> hex32 item "trusted genesis manifest hash")
        trusted
      Check.require (hash ∈ trusted.map Text.lower)
        "genesis manifest hash is not trusted by this node"

/-- `verify_manifest`. -/
def verifyManifest (crypto : Crypto) (manifest : GenesisManifest) (req : ManifestRequirements) :
    Except String VerifiedManifest := do
  Check.require (manifest.type = manifestType) "malformed genesis manifest"
  Check.require (manifest.version = 3) "unsupported genesis manifest version"
  Check.require (manifest.genesisAlgorithm = genesisHashAlgorithm)
    "unsupported genesis manifest algorithm"
  Check.require (manifest.signatureAlgorithm = BinaryV3.signatureAlgorithmId)
    "unsupported genesis manifest signature algorithm"
  Check.require (∀ network ∈ req.expectedNetwork,
    normalizeNetwork manifest.network = normalizeNetwork network)
    "genesis manifest network mismatch"
  requireMin manifest.networkId 0 "genesis manifest network_id"
  Check.require (∀ networkId ∈ req.expectedNetworkId, manifest.networkId = networkId)
    "genesis manifest network id mismatch"
  Check.require (Text.strip manifest.issuerPublicKey = manifest.issuerPublicKey ∧
    manifest.issuerPublicKey ≠ "") "invalid issuer public key"
  let keyId ← deriveIssuerKeyId crypto manifest.issuerPublicKey
  Check.require (manifest.issuerKeyId = keyId) "genesis manifest issuer key id mismatch"
  requireMin manifest.issuedAt 0 "genesis manifest issued_at"
  requireMax manifest.issuedAt maxProtocolTimestamp "genesis manifest issued_at"
  requireMetadata manifest.metadata maxGenesisMetadataBytes "genesis manifest"
  let (normalized, totalCount, totalValue) ← validateRanges crypto manifest.ranges
  requireMin manifest.totalTokenCount 1 "genesis manifest total_token_count"
  Check.require (manifest.totalTokenCount = totalCount) "genesis manifest bill count mismatch"
  requireMin manifest.totalValue 1 "genesis manifest total_value"
  Check.require (manifest.totalValue = totalValue) "genesis manifest value mismatch"
  Check.require (req.requireFullSupply = true → totalCount = totalSupply)
    "genesis manifest does not cover the fixed IND supply"
  let expectedHash ← sha3Json crypto (unsignedManifest manifest)
  let givenHash ← hex32 manifest.manifestHash "genesis manifest hash"
  Check.require (givenHash = expectedHash) "genesis manifest hash mismatch"
  checkTrustedHash req.trustedHashes expectedHash
  let signature ← signatureBytes manifest.signature
  let preimage ← signingPreimage manifest
  let valid ← verifyKeySignature crypto manifest.issuerPublicKey signature preimage
  Check.require (valid = true) "invalid genesis manifest signature"
  pure { manifestHash := expectedHash, issuerKeyId := manifest.issuerKeyId, ranges := normalized,
         totalTokenCount := totalCount, totalValue := totalValue }

/-! ## Derived references and states -/

/-- `_range_for_serial`. -/
def rangeForSerial (ranges : List NormalizedRange) (value serial : Int) :
    Except String NormalizedRange := do
  let value ← validateBillValue value "genesis ref value"
  let serial ← validateBillSerial value serial "genesis ref serial"
  Check.ofOption (ranges.find? (fun range => decide (range.value = value) &&
    decide (range.startSerial ≤ serial) && decide (serial ≤ range.endSerial)))
    "genesis serial is not covered by manifest"

/-- `derive_nonce`. -/
def deriveNonce (crypto : Crypto) (manifest : GenesisManifest) (value serial : Int) :
    Except String String := do
  let verified ← verifyManifest crypto manifest .none
  let range ← rangeForSerial verified.ranges value serial
  sha3Json crypto (.obj [("algorithm", .str "IND_GENESIS_NONCE_SHA3_256_V3"),
    ("manifest_hash", .str verified.manifestHash), ("nonce_seed", .str range.nonceSeed),
    ("owner_address", .str range.ownerAddress), ("range_count", .int range.count),
    ("range_start_serial", .int range.startSerial), ("serial", .int serial),
    ("value", .int value)])

/-- `derive_genesis_hash`. -/
def deriveGenesisHash (crypto : Crypto) (manifest : GenesisManifest) (value serial : Int) :
    Except String String := do
  let verified ← verifyManifest crypto manifest .none
  let range ← rangeForSerial verified.ranges value serial
  let nonce ← deriveNonce crypto manifest value serial
  sha3Json crypto (.obj [("algorithm", .str genesisHashAlgorithm),
    ("issued_at", .int manifest.issuedAt), ("issuer_key_id", .str verified.issuerKeyId),
    ("manifest_hash", .str verified.manifestHash), ("network_id", .int manifest.networkId),
    ("nonce", .str nonce), ("owner_address", .str range.ownerAddress), ("serial", .int serial),
    ("value", .int value)])

/-- `derive_genesis_ref`. -/
def deriveGenesisRef (crypto : Crypto) (manifest : GenesisManifest) (value serial : Int) :
    Except String GenesisRef := do
  let verified ← verifyManifest crypto manifest .none
  let serial ← validateBillSerial value serial "genesis ref serial"
  let genesisHash ← deriveGenesisHash crypto manifest value serial
  pure
    { type := genesisRefType, version := 3, networkId := manifest.networkId, genesisHash,
      manifestHash := some verified.manifestHash, issuerKeyId := some verified.issuerKeyId,
      issueIndex := serial, issuedAt := manifest.issuedAt }

/-- `derive_base_state`. -/
def deriveBaseState (crypto : Crypto) (manifest : GenesisManifest) (value serial : Int) :
    Except String BaseState := do
  let verified ← verifyManifest crypto manifest .none
  let range ← rangeForSerial verified.ranges value serial
  let genesisHash ← deriveGenesisHash crypto manifest value serial
  pure
    { sequence := 0, ownerAddress := range.ownerAddress, lastTransferHash := genesisHash,
      lastTransferTimestamp := manifest.issuedAt, lastTransferDay := manifest.issuedAt / 86400,
      transfersInLastDay := 0, displayId := formatDisplayId value serial, value }

end GenesisManifest
