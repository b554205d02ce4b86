import InternationalDollar.Checkpoint

set_option autoImplicit false

/-! # Archive segments (`archive_segment_v3`)

A segment holds consecutive transfers of one bill, the state before them and the hash of the segment
before; the first segment of a bill starts at sequence zero from the genesis hash. Verifying a
segment verifies the segments before it and returns the checkpoint core that the replay ends in. -/

/-- An ArchiveSegmentV3. -/
structure ArchiveSegment where
  type : String
  version : Int
  networkId : Int
  tokenId : String
  value : Int
  displayId : String
  genesisRef : GenesisRef
  baseState : BaseState
  startSequence : Int
  endSequence : Int
  previousSegmentHash : Option String
  previousCheckpointHash : Option String
  checkpointHash : String
  transferCount : Int
  transfers : List Transfer
  segmentHash : String
deriving DecidableEq

/-- `ARCHIVE_SEGMENT_TYPE`. -/
def archiveSegmentType : String := "ind.archive_segment.v3"

namespace ArchiveSegment

/-- The encoded transfers of a segment, one after the other. -/
def encodeTransfers (crypto : Crypto) (clock : Int) : List Transfer → Except String Bytes
  | [] => .ok []
  | t :: rest => do
      let head ← Transfer.encodeTransferBody crypto t true clock
      let tail ← encodeTransfers crypto clock rest
      pure (head ++ tail)

/-- `encode_archive_segment_body` of the segment as it is. -/
def encodeArchiveSegmentBody (node : Node) (segment : ArchiveSegment) (clock : Int) :
    Except String Bytes := do
  requireMin segment.networkId 0 "archive segment network id"
  Check.require (segment.transferCount = segment.transfers.length)
    "archive segment transfer count mismatch"
  let tokenId ← BinaryV3.encodeHashHex segment.tokenId
  let value ← BinaryV3.encodeUvarint segment.value
  let displayId ← BinaryV3.encodeAscii segment.displayId 64
  let genesisRef ← GenesisRef.encodeGenesisRefBody node.toNodePolicy segment.genesisRef
  let baseState ← BaseState.encodeBaseStateBody node.crypto segment.baseState
  let startSequence ← BinaryV3.encodeUvarint segment.startSequence
  let endSequence ← BinaryV3.encodeUvarint segment.endSequence
  let previousSegment ← BinaryV3.encodeHashHexNullable segment.previousSegmentHash
  let previousCheckpoint ← BinaryV3.encodeHashHexNullable segment.previousCheckpointHash
  let checkpointHash ← BinaryV3.encodeHashHex segment.checkpointHash
  let count ← BinaryV3.encodeUvarint segment.transferCount
  let transfers ← encodeTransfers node.crypto clock segment.transfers
  let segmentHash ← BinaryV3.encodeHashHex segment.segmentHash
  pure (tokenId ++ (value ++ (displayId ++ (genesisRef ++ (baseState ++ (startSequence ++
    (endSequence ++ (previousSegment ++ (previousCheckpoint ++ (checkpointHash ++ (count ++
      (transfers ++ segmentHash))))))))))))

/-- `archive_segment_hash_hex`: the hash of the segment with its hash field zeroed. -/
def archiveSegmentHashHex (node : Node) (segment : ArchiveSegment) (clock : Int) :
    Except String String := do
  let body ← encodeArchiveSegmentBody node { segment with segmentHash := zeroHash } clock
  let encoded ← BinaryV3.encodeEnvelope "IND3ARCH" segment.networkId body
  let digest ← BinaryV3.objectHash node.crypto archiveSegmentType encoded
  pure (Text.hex digest)

/-- `_validate_header`. -/
def validateHeader (node : Node) (segment : ArchiveSegment) (expectedNetworkId : Option Int)
    (clock : Int) : Except String Int := do
  Check.require (segment.type = archiveSegmentType) "malformed archive segment"
  Check.require (segment.version = 3) "unsupported archive segment version"
  requireMin segment.networkId 0 "archive segment network id"
  Check.require (∀ expected ∈ expectedNetworkId, segment.networkId = expected)
    "archive segment network id mismatch"
  let _ ← hex32 segment.tokenId "archive segment token id"
  requireMin segment.value 1 "archive segment value"
  hex32Nullable segment.previousSegmentHash "previous archive segment hash"
  hex32Nullable segment.previousCheckpointHash "previous checkpoint hash"
  let _ ← hex32 segment.checkpointHash "archive segment checkpoint hash"
  requireMin segment.startSequence 1 "archive segment start sequence"
  requireMin segment.endSequence 1 "archive segment end sequence"
  Check.require (segment.startSequence ≤ segment.endSequence)
    "archive segment sequence range is invalid"
  requireMin segment.transferCount 1 "archive segment transfer count"
  Check.require (segment.transferCount = segment.transfers.length)
    "archive segment transfer count mismatch"
  let hash ← archiveSegmentHashHex node segment clock
  Check.require (segment.segmentHash = hash) "archive segment hash mismatch"
  pure segment.networkId

/-- What the callers of `verify_archive_segment` supply to find what came before a segment. -/
structure Resolvers where
  previousSegment : Option (String → Option ArchiveSegment)
  previousCheckpoint : Option (Option String → Option CheckpointCore)

/-- The checks on the replayed end of a segment and the checkpoint core it derives. -/
def deriveCheckpoint (node : Node) (segment : ArchiveSegment) (networkId now clock : Int) :
    Except String CheckpointCore := do
  Check.require (segment.startSequence = segment.baseState.sequence + 1)
    "archive segment start sequence mismatch"
  let finalState ← BaseState.verifyTransferSequenceFromState node.crypto segment.tokenId
    segment.baseState segment.transfers networkId now clock
  Check.require (finalState.sequence = segment.endSequence) "archive segment end sequence mismatch"
  Check.require (finalState.value = segment.value) "archive segment value mismatch"
  Check.require (finalState.displayId = segment.displayId) "archive segment display id mismatch"
  let core ← CheckpointCore.checkpointCoreFromState node.crypto segment.tokenId
    segment.genesisRef.genesisHash finalState segment.previousCheckpointHash networkId
  Check.require (core.checkpointHash = segment.checkpointHash)
    "archive segment checkpoint hash mismatch"
  pure core

/-- The checks on a segment that has no predecessor. -/
def checkGenesisBase (segment : ArchiveSegment) : Except String Unit := do
  Check.require (segment.previousCheckpointHash = none)
    "genesis archive segment cannot have previous checkpoint"
  Check.require (segment.baseState.sequence = 0)
    "archive segment without previous segment must start at genesis"
  Check.require (segment.baseState.lastTransferHash = segment.genesisRef.genesisHash)
    "archive segment genesis base hash mismatch"

/-- The core the segment before ends in: verified by `verify` where that segment is at hand, and
    otherwise taken from the checkpoint resolver. -/
def previousCore (node : Node) (clock : Int) (resolvers : Resolvers) (segment : ArchiveSegment)
    (previousHash : String) (verify : ArchiveSegment → Except String CheckpointCore) :
    Option ArchiveSegment → Except String CheckpointCore
  | some previous => do
      let core ← verify previous
      let hash ← archiveSegmentHashHex node previous clock
      Check.require (previousHash = hash) "previous archive segment hash mismatch"
      Check.require (segment.previousCheckpointHash = some core.checkpointHash)
        "previous checkpoint hash mismatch"
      pure core
  | none => do
      let resolve ← Check.ofOption resolvers.previousCheckpoint
        "previous archive segment resolver is required"
      let core ← Check.ofOption (resolve segment.previousCheckpointHash)
        "previous checkpoint is required"
      CheckpointCore.validateCheckpointCore node.crypto core segment.networkId
      Check.require (segment.previousCheckpointHash = some core.checkpointHash)
        "previous checkpoint hash mismatch"
      pure core

/-- The checks that tie the base state of a segment to what came before it. -/
def checkBase (node : Node) (clock : Int) (resolvers : Resolvers) (segment : ArchiveSegment)
    (verify : ArchiveSegment → Except String CheckpointCore)
    (previousSegment : Option ArchiveSegment) : Except String Unit :=
  match segment.previousSegmentHash with
  | some previousHash => do
      let core ← previousCore node clock resolvers segment previousHash verify
        (previousSegment.or (resolvers.previousSegment.bind (fun resolve => resolve previousHash)))
      Check.require (segment.baseState = core.initialState)
        "archive segment does not connect to previous segment"
  | none => checkGenesisBase segment

/-- `verify_archive_segment`; `fuel` is the depth of the recursion that the interpreter allows. -/
def verifyArchiveSegment (node : Node) (now clock : Int) (resolvers : Resolvers) :
    Nat → ArchiveSegment → Option Int → Option ArchiveSegment → Except String CheckpointCore
  | 0, _, _, _ => .error "maximum recursion depth exceeded"
  | fuel + 1, segment, expectedNetworkId, previousSegment => do
      let networkId ← validateHeader node segment expectedNetworkId clock
      GenesisRef.validateGenesisRef node.toNodePolicy segment.genesisRef networkId
      let _ ← validateDisplayIdIssueIndex node.crypto segment.displayId segment.value
        segment.genesisRef.issueIndex "archive segment display id"
      checkBase node clock resolvers segment (fun previous =>
        verifyArchiveSegment node now clock resolvers fuel previous (some networkId) none)
        previousSegment
      deriveCheckpoint node segment networkId now clock

/-! ## What a verified segment establishes -/

/-- A segment whose header, genesis reference and display id pass, and whose replay derives a
    core. -/
structure Derives (node : Node) (segment : ArchiveSegment) (expectedNetworkId : Option Int)
    (now clock : Int) (core : CheckpointCore) : Prop where
  header : validateHeader node segment expectedNetworkId clock = .ok segment.networkId
  genesisRef_valid :
    GenesisRef.validateGenesisRef node.toNodePolicy segment.genesisRef segment.networkId = .ok ()
  displayId_eq : parseDisplayId node.crypto segment.displayId "archive segment display id"
    = .ok (segment.value, segment.genesisRef.issueIndex)
  derived : deriveCheckpoint node segment segment.networkId now clock = .ok core

/-- What `_validate_header` establishes. -/
structure HeaderValid (node : Node) (segment : ArchiveSegment) (expectedNetworkId : Option Int)
    (clock : Int) : Prop where
  networkId_nonneg : 0 ≤ segment.networkId
  networkId_eq : ∀ expected ∈ expectedNetworkId, segment.networkId = expected
  tokenId_hex : IsHex32 segment.tokenId
  transferCount_pos : 1 ≤ segment.transferCount
  transferCount_eq : segment.transferCount = segment.transfers.length
  hash_eq : archiveSegmentHashHex node segment clock = .ok segment.segmentHash

theorem HeaderValid.of_validate {node : Node} {segment : ArchiveSegment}
    {expectedNetworkId : Option Int} {clock networkId : Int}
    (h : validateHeader node segment expectedNetworkId clock = .ok networkId) :
    HeaderValid node segment expectedNetworkId clock := by
  simp only [validateHeader, Check.bind_eq_ok, Check.require_eq_ok, requireMin_eq_ok, hex32_eq_ok,
    exists_const, ↓existsAndEq, and_true] at h
  obtain ⟨-, -, hnonneg, hexpected, htoken, -, _, -, _, -, -, -, -, -, hpos, hcount, hhash, -⟩ := h
  exact ⟨hnonneg, hexpected, htoken, hpos, hcount, hhash⟩

theorem validateHeader_eq_networkId {node : Node} {segment : ArchiveSegment}
    {expectedNetworkId : Option Int} {clock networkId : Int}
    (h : validateHeader node segment expectedNetworkId clock = .ok networkId) :
    networkId = segment.networkId := by
  simp only [validateHeader, Check.bind_eq_ok, Check.pure_eq_ok] at h
  tauto

theorem validateDisplayIdIssueIndex_eq_ok {crypto : Crypto} {displayId label : String}
    {value issueIndex : Int} {parsed : Int × Int} :
    validateDisplayIdIssueIndex crypto displayId value issueIndex label = .ok parsed ↔
      parseDisplayId crypto displayId label = .ok (value, issueIndex) ∧
        IsBillSerial value issueIndex ∧ parsed = (value, issueIndex) := by
  simp only [validateDisplayIdIssueIndex, validateDisplayIdValue, Check.bind_eq_ok,
    Check.require_eq_ok, validateBillSerial_eq_ok, Check.pure_eq_ok]
  constructor
  · rintro ⟨⟨v, i⟩, ⟨⟨v', i'⟩, hparse, _, rfl, hp⟩, _, ⟨hserial, rfl⟩, _, rfl, rfl⟩
    cases hp
    exact ⟨hparse, hserial, rfl⟩
  · rintro ⟨hparse, hserial, rfl⟩
    exact ⟨_, ⟨_, hparse, (), rfl, rfl⟩, _, ⟨hserial, rfl⟩, (), rfl, rfl⟩

/-- Every verified segment derives its core, whatever came before it. -/
theorem Derives.of_verify {node : Node} {now clock : Int} {resolvers : Resolvers} {fuel : Nat}
    {segment : ArchiveSegment} {expectedNetworkId : Option Int} {previous : Option ArchiveSegment}
    {core : CheckpointCore}
    (h : verifyArchiveSegment node now clock resolvers fuel segment expectedNetworkId previous
      = .ok core) : Derives node segment expectedNetworkId now clock core := by
  cases fuel with
  | zero => exact nomatch h
  | succ fuel =>
    unfold verifyArchiveSegment at h
    obtain ⟨networkId, hheader, h⟩ := Check.bind_eq_ok.1 h
    obtain ⟨⟨⟩, href, h⟩ := Check.bind_eq_ok.1 h
    obtain ⟨parsed, hdisplay, h⟩ := Check.bind_eq_ok.1 h
    obtain ⟨⟨⟩, -, hderived⟩ := Check.bind_eq_ok.1 h
    obtain rfl := validateHeader_eq_networkId hheader
    exact ⟨hheader, href, (validateDisplayIdIssueIndex_eq_ok.1 hdisplay).1, hderived⟩

/-- A verified segment without a predecessor starts at the genesis hash. -/
theorem checkGenesisBase_of_verify {node : Node} {now clock : Int} {resolvers : Resolvers}
    {fuel : Nat} {segment : ArchiveSegment} {expectedNetworkId : Option Int}
    {previous : Option ArchiveSegment} {core : CheckpointCore}
    (h : verifyArchiveSegment node now clock resolvers fuel segment expectedNetworkId previous
      = .ok core) (hfirst : segment.previousSegmentHash = none) :
    checkGenesisBase segment = .ok () := by
  cases fuel with
  | zero => exact nomatch h
  | succ fuel =>
    unfold verifyArchiveSegment at h
    obtain ⟨_, -, h⟩ := Check.bind_eq_ok.1 h
    obtain ⟨_, -, h⟩ := Check.bind_eq_ok.1 h
    obtain ⟨_, -, h⟩ := Check.bind_eq_ok.1 h
    have hbase := (Check.check_bind_eq_ok.1 h).1
    rwa [checkBase, hfirst] at hbase

/-- A segment without a predecessor is verified by its own checks alone. -/
theorem verify_of_derives {node : Node} {now clock : Int} {segment : ArchiveSegment}
    {expectedNetworkId : Option Int} {core : CheckpointCore}
    (h : Derives node segment expectedNetworkId now clock core)
    (hserial : IsBillSerial segment.value segment.genesisRef.issueIndex)
    (hfirst : segment.previousSegmentHash = none) (hbase : checkGenesisBase segment = .ok ())
    (resolvers : Resolvers) (fuel : Nat) (previous : Option ArchiveSegment) :
    verifyArchiveSegment node now clock resolvers (fuel + 1) segment expectedNetworkId previous
      = .ok core := by
  unfold verifyArchiveSegment
  refine Check.bind_eq_ok.2 ⟨_, h.header, Check.bind_eq_ok.2 ⟨(), h.genesisRef_valid,
    Check.bind_eq_ok.2 ⟨_, validateDisplayIdIssueIndex_eq_ok.2 ⟨h.displayId_eq, hserial, rfl⟩,
      Check.check_bind_eq_ok.2 ⟨?_, h.derived⟩⟩⟩⟩
  rwa [checkBase, hfirst]

end ArchiveSegment
