import InternationalDollar.BillState

set_option autoImplicit false

/-! # Genesis references and checkpoints (`protocol_v3`)

A genesis reference names the manifest a bill was issued under. A checkpoint core is the state of a
bill after some transfers, sealed with its own hash; it is what an operator's log proves. -/

/-! ## Genesis references -/

/-- What a node is configured to trust. -/
structure NodePolicy where
  allowUntrustedGenesis : Bool
  trustedGenesisManifestHashes : List String

/-- A node: its primitives and its policy. -/
structure Node extends NodePolicy where
  crypto : Crypto

/-- A GenesisRefV3. -/
structure GenesisRef where
  type : String
  version : Int
  networkId : Int
  genesisHash : String
  manifestHash : Option String
  issuerKeyId : Option String
  issueIndex : Int
  issuedAt : Int
deriving DecidableEq

/-- `GENESIS_REF_TYPE`. -/
def genesisRefType : String := "ind.genesis_ref.v3"

/-- `_trusted_genesis_manifest_hashes`: stripped, lower-case and without empty entries. -/
def NodePolicy.trustedHashes (policy : NodePolicy) : List String :=
  (policy.trustedGenesisManifestHashes.map (fun item => Text.lower (Text.strip item))).filter
    (fun item => item ≠ "")

namespace GenesisRef

/-- `_validate_genesis_ref_trust`. -/
def validateGenesisRefTrust (policy : NodePolicy) (ref : GenesisRef) : Except String Unit :=
  if policy.allowUntrustedGenesis then .ok ()
  else if policy.trustedHashes = [] then .ok ()
  else
    match ref.manifestHash with
    | none => .error "GenesisRefV3 manifest hash is not trusted by this node"
    | some hash =>
        Check.require (Text.lower hash ∈ policy.trustedHashes)
          "GenesisRefV3 manifest hash is not trusted by this node"

/-- `_validate_genesis_ref`. -/
def validateGenesisRef (policy : NodePolicy) (ref : GenesisRef) (networkId : Int) :
    Except String Unit := do
  Check.require (ref.type = genesisRefType) "malformed GenesisRefV3"
  Check.require (ref.version = 3) "unsupported GenesisRefV3 version"
  requireMin ref.networkId 0 "GenesisRefV3 network id"
  Check.require (ref.networkId = networkId) "GenesisRefV3 network id mismatch"
  let _ ← hex32 ref.genesisHash "GenesisRefV3 genesis hash"
  hex32Nullable ref.manifestHash "GenesisRefV3 manifest hash"
  hex32Nullable ref.issuerKeyId "GenesisRefV3 issuer key id"
  requireMin ref.issueIndex 1 "GenesisRefV3 issue index"
  requireMin ref.issuedAt 0 "GenesisRefV3 issued_at"
  validateGenesisRefTrust policy ref

/-- `encode_genesis_ref_body`. -/
def encodeGenesisRefBody (policy : NodePolicy) (ref : GenesisRef) : Except String Bytes := do
  validateGenesisRef policy ref ref.networkId
  let genesisHash ← BinaryV3.encodeHashHex ref.genesisHash
  let manifestHash ← BinaryV3.encodeHashHexNullable ref.manifestHash
  let issuerKeyId ← BinaryV3.encodeHashHexNullable ref.issuerKeyId
  let issueIndex ← BinaryV3.encodeUvarint ref.issueIndex
  let issuedAt ← BinaryV3.encodeUvarint ref.issuedAt
  pure (genesisHash ++ (manifestHash ++ (issuerKeyId ++ (issueIndex ++ issuedAt))))

theorem issuedAt_le_of_encode {policy : NodePolicy} {ref : GenesisRef} {raw : Bytes}
    (h : encodeGenesisRefBody policy ref = .ok raw) : ref.issuedAt ≤ maxProtocolTimestamp := by
  simp only [encodeGenesisRefBody, Check.bind_eq_ok, BinaryV3.encodeUvarint_eq_ok] at h
  obtain ⟨_, -, _, -, _, -, _, -, _, -, _, ⟨hissued, -⟩, -⟩ := h
  exact hissued.2

end GenesisRef

/-- `encode_base_state_body`. -/
def BaseState.encodeBaseStateBody (crypto : Crypto) (state : BaseState) : Except String Bytes := do
  BaseState.validateBaseState crypto state
  let sequence ← BinaryV3.encodeUvarint state.sequence
  let owner ← BinaryV3.encodeAscii state.ownerAddress 128
  let lastTransferHash ← BinaryV3.encodeHashHex state.lastTransferHash
  let timestamp ← BinaryV3.encodeUvarint state.lastTransferTimestamp
  let day ← BinaryV3.encodeUvarint state.lastTransferDay
  let dayCount ← BinaryV3.encodeUvarint state.transfersInLastDay
  let displayId ← BinaryV3.encodeAscii state.displayId 64
  let value ← BinaryV3.encodeUvarint state.value
  pure (sequence ++ (owner ++ (lastTransferHash ++ (timestamp ++ (day ++ (dayCount ++
    (displayId ++ value)))))))

/-! ## Checkpoint cores -/

/-- A CheckpointCoreV3. -/
structure CheckpointCore where
  type : String
  version : Int
  networkId : Int
  tokenId : String
  genesisHash : String
  sequence : Int
  ownerAddress : String
  value : Int
  displayId : String
  displayIdHash : String
  lastTransferHash : String
  lastTransferTimestamp : Int
  lastTransferDay : Int
  transfersInLastDay : Int
  previousCheckpointHash : Option String
  checkpointHash : String
deriving DecidableEq

/-- `CHECKPOINT_CORE_TYPE`. -/
def checkpointCoreType : String := "ind.checkpoint_core.v3"

/-- Sixty-four zeros, the hash field of an object whose hash is being computed. -/
def zeroHash : String := String.ofList (List.replicate 64 '0')

theorem isHex32_zeroHash : IsHex32 zeroHash :=
  isHex32_of_chars rfl rfl

namespace CheckpointCore

/-- `_initial_state_from_checkpoint_core` and `_state_from_checkpoint_core`. -/
def initialState (core : CheckpointCore) : BaseState where
  sequence := core.sequence
  ownerAddress := core.ownerAddress
  lastTransferHash := core.lastTransferHash
  lastTransferTimestamp := core.lastTransferTimestamp
  lastTransferDay := core.lastTransferDay
  transfersInLastDay := core.transfersInLastDay
  displayId := core.displayId
  value := core.value

/-- `_validate_checkpoint_core`. -/
def validateCheckpointCore (crypto : Crypto) (core : CheckpointCore) (networkId : Int) :
    Except String Unit := do
  Check.require (core.type = checkpointCoreType) "malformed CheckpointCoreV3"
  Check.require (core.version = 3) "unsupported CheckpointCoreV3 version"
  requireMin core.networkId 0 "CheckpointCoreV3 network id"
  Check.require (core.networkId = networkId) "CheckpointCoreV3 network id mismatch"
  Check.require (core.tokenId ≠ "") "invalid CheckpointCoreV3 token id"
  let _ ← hex32 core.genesisHash "CheckpointCoreV3 genesis hash"
  requireMin core.sequence 1 "CheckpointCoreV3 sequence"
  let _ ← validateAddress crypto core.ownerAddress "CheckpointCoreV3 owner address"
  let value ← validateBillValue core.value "CheckpointCoreV3 value"
  let _ ← validateDisplayIdValue crypto core.displayId value "CheckpointCoreV3 display id"
  let displayHash ← DisplayId.displayIdHash crypto core.displayId "CheckpointCoreV3 display id"
  Check.require (core.displayIdHash = displayHash) "CheckpointCoreV3 display id hash mismatch"
  let _ ← hex32 core.lastTransferHash "CheckpointCoreV3 last transfer hash"
  requireMin core.lastTransferTimestamp 0 "CheckpointCoreV3 timestamp"
  requireMin core.lastTransferDay 0 "CheckpointCoreV3 day"
  requireMin core.transfersInLastDay 1 "CheckpointCoreV3 day count"
  hex32Nullable core.previousCheckpointHash "CheckpointCoreV3 previous checkpoint hash"
  let _ ← hex32 core.checkpointHash "CheckpointCoreV3 checkpoint hash"

/-- `encode_checkpoint_core_body` of the core as it is. -/
def encodeCheckpointCoreBody (crypto : Crypto) (core : CheckpointCore) : Except String Bytes := do
  validateCheckpointCore crypto core core.networkId
  let tokenId ← BinaryV3.encodeHashHex core.tokenId
  let genesisHash ← BinaryV3.encodeHashHex core.genesisHash
  let sequence ← BinaryV3.encodeUvarint core.sequence
  let owner ← BinaryV3.encodeAscii core.ownerAddress 128
  let value ← BinaryV3.encodeUvarint core.value
  let displayId ← BinaryV3.encodeAscii core.displayId 64
  let displayIdHash ← BinaryV3.encodeHashHex core.displayIdHash
  let lastTransferHash ← BinaryV3.encodeHashHex core.lastTransferHash
  let timestamp ← BinaryV3.encodeUvarint core.lastTransferTimestamp
  let day ← BinaryV3.encodeUvarint core.lastTransferDay
  let dayCount ← BinaryV3.encodeUvarint core.transfersInLastDay
  let previous ← BinaryV3.encodeHashHexNullable core.previousCheckpointHash
  let checkpointHash ← BinaryV3.encodeHashHex core.checkpointHash
  pure (tokenId ++ (genesisHash ++ (sequence ++ (owner ++ (value ++ (displayId ++
    (displayIdHash ++ (lastTransferHash ++ (timestamp ++ (day ++ (dayCount ++ (previous ++
      checkpointHash))))))))))))

/-- `checkpoint_core_hash`: the hash of the core with its hash field zeroed. -/
def checkpointCoreHash (crypto : Crypto) (core : CheckpointCore) : Except String String := do
  requireMin core.networkId 0 "CheckpointCoreV3 network id"
  let body ← encodeCheckpointCoreBody crypto { core with checkpointHash := zeroHash }
  let encoded ← BinaryV3.encodeEnvelope "IND3CPNT" core.networkId body
  let digest ← BinaryV3.objectHash crypto checkpointCoreType encoded
  pure (Text.hex digest)

/-- The core of a state before its hash is filled in. -/
def unsealed (tokenId genesisHash displayIdHash : String) (state : BaseState)
    (previousCheckpointHash : Option String) (networkId : Int) : CheckpointCore where
  type := checkpointCoreType
  version := 3
  networkId := networkId
  tokenId := tokenId
  genesisHash := genesisHash
  sequence := state.sequence
  ownerAddress := state.ownerAddress
  value := state.value
  displayId := state.displayId
  displayIdHash := displayIdHash
  lastTransferHash := state.lastTransferHash
  lastTransferTimestamp := state.lastTransferTimestamp
  lastTransferDay := state.lastTransferDay
  transfersInLastDay := state.transfersInLastDay
  previousCheckpointHash := previousCheckpointHash
  checkpointHash := ""

/-- `checkpoint_core_from_state`. -/
def checkpointCoreFromState (crypto : Crypto) (tokenId genesisHash : String) (state : BaseState)
    (previousCheckpointHash : Option String) (networkId : Int) : Except String CheckpointCore := do
  BaseState.validateBaseState crypto state
  let genesisHash ← hex32 genesisHash "CheckpointCoreV3 genesis hash"
  let displayHash ← DisplayId.displayIdHash crypto state.displayId "CheckpointCoreV3 display id"
  let core := unsealed tokenId genesisHash displayHash state previousCheckpointHash networkId
  let hash ← checkpointCoreHash crypto core
  pure { core with checkpointHash := hash }

end CheckpointCore
