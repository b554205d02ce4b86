import InternationalDollar.ArchiveSegment
import InternationalDollar.CreateTransfer

set_option autoImplicit false

/-! # Creating genesis segments (`archive_segment_v3.make_archive_segment`)

Whoever can replay transfers from a state at sequence zero can seal them into a genesis segment that
every verifier with the same policy accepts. The state, its owner and the token id are free. -/

namespace BaseState

theorem ascii_of_asciiEncode {text : String} {raw : Bytes}
    (h : BinaryV3.asciiEncode text = some raw) : Json.IsAscii text.toList := by
  unfold BinaryV3.asciiEncode at h
  split at h
  · next hall => simpa [Json.IsAscii] using hall
  · cases h

/-- A display id that parses is short and ASCII. -/
theorem displayId_bounds {crypto : Crypto} {displayId label : String} {value serial : Int}
    (h : parseDisplayId crypto displayId label = .ok (value, serial)) :
    Json.IsAscii displayId.toList ∧ displayId.toList.length ≤ 64 ∧
      ∃ hash, DisplayId.displayIdHash crypto displayId label = .ok hash := by
  have hformat := eq_formatDisplayId_of_parse h
  have hserial := isBillSerial_of_parse h
  have hv := hserial.1.le
  have hv' := hserial.1.1
  have hs := hserial.le
  have hs' := hserial.2.1
  unfold parseDisplayId at h
  obtain ⟨hash, hhash, -⟩ := Check.bind_eq_ok.1 h
  refine ⟨?_, ?_, hash, hhash⟩
  · simp only [DisplayId.displayIdHash, Check.bind_eq_ok, Check.ofOption_eq_ok] at hhash
    obtain ⟨_, -, raw, hraw, -⟩ := hhash
    exact ascii_of_asciiEncode hraw
  · have hdigits : ∀ n : Int, 0 ≤ n → n ≤ 6000000000 → (Json.renderInt n).length ≤ 10 := by
      intro n h0 hn
      obtain ⟨k, rfl⟩ := Int.eq_ofNat_of_zero_le h0
      exact (Nat.length_toDigits_le_iff (by decide) (by decide)).2 (by norm_num; omega)
    have h1 := hdigits value (by omega) (by omega)
    have h2 := hdigits serial (by omega) (by omega)
    rw [hformat, formatDisplayId, String.toList_ofList, List.length_append, List.length_cons]
    omega

end BaseState

namespace CheckpointCore

/-- The numbers of a state are within the wire range. -/
structure InRange (state : BaseState) : Prop where
  sequence_le : state.sequence ≤ maxProtocolTimestamp
  timestamp_le : state.lastTransferTimestamp ≤ maxProtocolTimestamp
  day_le : state.lastTransferDay ≤ maxProtocolTimestamp
  dayCount_le : state.transfersInLastDay ≤ maxProtocolTimestamp

/-- A valid state after at least one transfer has a checkpoint core. -/
theorem exists_checkpointCoreFromState {crypto : Crypto} {tokenId genesisHash : String}
    {state : BaseState} (previous : Option String) {networkId : Int} (hstate : state.Valid crypto)
    (hrange : InRange state) (hsequence : 1 ≤ state.sequence) (hday : 1 ≤ state.transfersInLastDay)
    (htoken : IsHex32 tokenId) (hgenesis : IsHex32 genesisHash)
    (hprevious : ∀ text ∈ previous, IsHex32 text)
    (hnetwork : 0 ≤ networkId ∧ networkId ≤ maxProtocolTimestamp) :
    ∃ core, checkpointCoreFromState crypto tokenId genesisHash state previous networkId = .ok core ∧
      IsHex32 core.checkpointHash := by
  obtain ⟨serial, hparse⟩ := hstate.displayId_valid
  obtain ⟨hascii, hlen, displayHash, hdisplay⟩ := BaseState.displayId_bounds hparse
  have hdisplayHex : IsHex32 displayHash := by
    simp only [DisplayId.displayIdHash, Check.bind_eq_ok, Check.pure_eq_ok] at hdisplay
    obtain ⟨_, -, _, -, rfl⟩ := hdisplay
    exact crypto.isHex32_sha3Hex _
  have hzero := isHex32_zeroHash
  let core := unsealed tokenId (Text.lower genesisHash) displayHash state previous networkId
  have hcore : validateCheckpointCore crypto { core with checkpointHash := zeroHash } networkId
      = .ok () := by
    have hparse' := parseDisplayId_label hparse "CheckpointCoreV3 display id"
    have hdisplay' := displayIdHash_label hdisplay "CheckpointCoreV3 display id"
    simp only [validateCheckpointCore, core, unsealed, validateAddress, validateDisplayIdValue,
      Check.bind_eq_ok, Check.require_eq_ok, requireMin_eq_ok, hex32_eq_ok, hex32Nullable_eq_ok,
      validateBillValue_eq_ok, Check.pure_eq_ok, ↓existsAndEq, and_true, true_and, exists_const,
      hparse', hdisplay', hstate.owner_valid, hstate.value_valid, Except.ok.injEq]
    exact ⟨hnetwork.1, htoken.ne_empty, hgenesis.lower, hsequence, hstate.lastTransferHash_hex,
      hstate.lastTransferTimestamp_nonneg, hstate.lastTransferDay_nonneg, hday, hprevious, hzero⟩
  obtain ⟨hownerLen, hownerAscii⟩ := ascii_of_isAddress hstate.owner_valid
  obtain ⟨token, h1, l1⟩ := BinaryV3.fits_encodeHashHex htoken
  obtain ⟨genesis, h2, l2⟩ := BinaryV3.fits_encodeHashHex hgenesis.lower
  obtain ⟨seq, h3, l3⟩ := BinaryV3.fits_encodeUvarint _ hstate.sequence_nonneg hrange.sequence_le
  obtain ⟨owner, h4, l4⟩ := BinaryV3.fits_encodeAscii _ 128 128 hownerAscii
    (by omega) le_rfl (by decide)
  obtain ⟨value, h5, l5⟩ := BinaryV3.fits_encodeUvarint state.value
    (le_trans (by decide) hstate.value_valid.1) (le_trans hstate.value_valid.le (by decide))
  obtain ⟨display, h6, l6⟩ := BinaryV3.fits_encodeAscii _ 64 64 hascii hlen
    le_rfl (by decide)
  obtain ⟨displayDigest, h7, l7⟩ := BinaryV3.fits_encodeHashHex hdisplayHex
  obtain ⟨last, h8, l8⟩ := BinaryV3.fits_encodeHashHex hstate.lastTransferHash_hex
  obtain ⟨time, h9, l9⟩ :=
    BinaryV3.fits_encodeUvarint _ hstate.lastTransferTimestamp_nonneg hrange.timestamp_le
  obtain ⟨day, h10, l10⟩ := BinaryV3.fits_encodeUvarint _ hstate.lastTransferDay_nonneg hrange.day_le
  obtain ⟨count, h11, l11⟩ :=
    BinaryV3.fits_encodeUvarint _ hstate.transfersInLastDay_nonneg hrange.dayCount_le
  obtain ⟨prev, h12, l12⟩ := BinaryV3.fits_encodeHashHexNullable _ hprevious
  obtain ⟨zero, h13, l13⟩ := BinaryV3.fits_encodeHashHex hzero
  have hbody : BinaryV3.Fits (encodeCheckpointCoreBody crypto
      { core with checkpointHash := zeroHash }) 600 := by
    refine ⟨_, Check.bind_eq_ok.2 ⟨(), hcore, Check.bind_eq_ok.2 ⟨_, h1, Check.bind_eq_ok.2 ⟨_, h2,
      Check.bind_eq_ok.2 ⟨_, h3, Check.bind_eq_ok.2 ⟨_, h4, Check.bind_eq_ok.2 ⟨_, h5,
      Check.bind_eq_ok.2 ⟨_, h6, Check.bind_eq_ok.2 ⟨_, h7, Check.bind_eq_ok.2 ⟨_, h8,
      Check.bind_eq_ok.2 ⟨_, h9, Check.bind_eq_ok.2 ⟨_, h10, Check.bind_eq_ok.2 ⟨_, h11,
      Check.bind_eq_ok.2 ⟨_, h12, Check.bind_eq_ok.2 ⟨_, h13, rfl⟩⟩⟩⟩⟩⟩⟩⟩⟩⟩⟩⟩⟩⟩, ?_⟩
    simp only [List.length_append]
    omega
  obtain ⟨body, hbody, lbody⟩ := hbody
  obtain ⟨encoded, hencoded, lencoded⟩ := BinaryV3.fits_encodeEnvelope "IND3CPNT"
    (by decide) hnetwork.1 hnetwork.2 lbody
  obtain ⟨digest, hdigest, ldigest⟩ := BinaryV3.exists_objectHash crypto
    checkpointCoreType encoded (by decide) (by decide)
    (le_trans lencoded (by decide))
  have hhash : checkpointCoreHash crypto core = .ok (Text.hex digest) := by
    exact Check.bind_eq_ok.2 ⟨(), requireMin_eq_ok.2 hnetwork.1,
      Check.bind_eq_ok.2 ⟨_, hbody,
      Check.bind_eq_ok.2 ⟨_, hencoded,
      Check.bind_eq_ok.2 ⟨_, hdigest, rfl⟩⟩⟩⟩
  refine ⟨{ core with checkpointHash := Text.hex digest }, ?_, isHex32_hex ldigest⟩
  unfold checkpointCoreFromState
  exact Check.bind_eq_ok.2 ⟨(), BaseState.validateBaseState_eq_ok.2 hstate,
    Check.bind_eq_ok.2 ⟨_, hex32_eq_ok.2 ⟨hgenesis, rfl⟩,
    Check.bind_eq_ok.2 ⟨_, displayIdHash_label hdisplay _,
    Check.bind_eq_ok.2 ⟨_, hhash, rfl⟩⟩⟩⟩

end CheckpointCore

/-! ## Replays -/

namespace BaseState

variable {crypto : Crypto} {tokenId : String} {networkId now clock : Int}

/-- Every transfer of a replay spends a state of the replay. -/
theorem exists_spends_of_mem_replay {transfers : List Transfer} {state final : BaseState}
    (h : replayTransfers crypto tokenId networkId now clock true state transfers = .ok final) :
    ∀ t ∈ transfers, ∃ s hash, Spends crypto tokenId networkId now clock s t hash := by
  induction transfers generalizing state with
  | nil => simp
  | cons t rest ih =>
    obtain ⟨next, hnext, hrest⟩ := Check.bind_eq_ok.1 h
    obtain ⟨hash, hspends, -⟩ := replayTransfer_eq_ok.1 hnext
    intro u hu
    rcases List.mem_cons.1 hu with rfl | hu
    · exact ⟨state, hash, hspends⟩
    · exact ih hrest u hu

/-- A replay stays within the wire range. -/
theorem inRange_of_replay {transfers : List Transfer} {state final : BaseState}
    (hrange : CheckpointCore.InRange state)
    (h : replayTransfers crypto tokenId networkId now clock true state transfers = .ok final) :
    CheckpointCore.InRange final := by
  induction transfers generalizing state with
  | nil =>
    cases h
    exact hrange
  | cons t rest ih =>
    obtain ⟨next, hnext, hrest⟩ := Check.bind_eq_ok.1 h
    obtain ⟨hash, hspends, rfl⟩ := replayTransfer_eq_ok.1 hnext
    have hhashed := Transfer.hashed_of_transferHash hspends.hash_eq
    refine ih ⟨?_, hhashed.timestamp_le, ?_, le_trans hspends.dayCount_le (by decide)⟩ hrest
    · have := hhashed.sequence_le
      rwa [hspends.sequence_eq] at this
    · exact le_trans (Int.ediv_le_self _ hspends.shape.timestamp_nonneg) hhashed.timestamp_le

end BaseState

namespace ArchiveSegment

variable {node : Node} {tokenId : String} {networkId now clock : Int}

theorem fits_encodeTransfers (crypto : Crypto) (clock : Int) (transfers : List Transfer)
    (h : ∀ t ∈ transfers, ∃ hash, t.transferHash crypto clock = .ok hash) :
    BinaryV3.Fits (encodeTransfers crypto clock transfers) (732 * transfers.length) := by
  induction transfers with
  | nil => exact ⟨[], rfl, le_rfl⟩
  | cons t rest ih =>
    obtain ⟨hash, hhash⟩ := h t List.mem_cons_self
    have hhashed := Transfer.hashed_of_transferHash hhash
    obtain ⟨head, hhead, lhead⟩ := Transfer.fits_encodeTransferBody hhashed.shape
      hhashed.sequence_le hhashed.timestamp_le
    obtain ⟨tail, htail, ltail⟩ := ih (fun u hu => h u (List.mem_cons_of_mem t hu))
    refine ⟨head ++ tail, Check.bind_eq_ok.2 ⟨_, hhead, Check.bind_eq_ok.2 ⟨_, htail, rfl⟩⟩, ?_⟩
    rw [List.length_append, List.length_cons]
    omega

theorem fits_encodeGenesisRefBody (policy : NodePolicy) (ref : GenesisRef)
    (h : GenesisRef.validateGenesisRef policy ref ref.networkId = .ok ())
    (hindex : ref.issueIndex ≤ maxProtocolTimestamp) (hissued : ref.issuedAt ≤ maxProtocolTimestamp) :
    BinaryV3.Fits (GenesisRef.encodeGenesisRefBody policy ref) 118 := by
  have hfields := h
  simp only [GenesisRef.validateGenesisRef, Check.bind_eq_ok, requireMin_eq_ok, hex32_eq_ok,
    hex32Nullable_eq_ok, exists_const, ↓existsAndEq, and_true] at hfields
  obtain ⟨_, -, _, -, -, _, -, hgenesis, hmanifest, hissuer, h1, h2, -⟩ := hfields
  obtain ⟨genesis, e1, l1⟩ := BinaryV3.fits_encodeHashHex hgenesis
  obtain ⟨manifest, e2, l2⟩ := BinaryV3.fits_encodeHashHexNullable _ hmanifest
  obtain ⟨issuer, e3, l3⟩ := BinaryV3.fits_encodeHashHexNullable _ hissuer
  obtain ⟨index, e4, l4⟩ := BinaryV3.fits_encodeUvarint _ (by omega) hindex
  obtain ⟨issued, e5, l5⟩ := BinaryV3.fits_encodeUvarint _ h2 hissued
  refine ⟨_, Check.bind_eq_ok.2 ⟨(), h, Check.bind_eq_ok.2 ⟨_, e1, Check.bind_eq_ok.2 ⟨_, e2,
    Check.bind_eq_ok.2 ⟨_, e3, Check.bind_eq_ok.2 ⟨_, e4, Check.bind_eq_ok.2 ⟨_, e5, rfl⟩⟩⟩⟩⟩⟩, ?_⟩
  simp only [List.length_append]
  omega

theorem fits_encodeBaseStateBody {crypto : Crypto} {state : BaseState} (h : state.Valid crypto)
    (hrange : CheckpointCore.InRange state) :
    BinaryV3.Fits (BaseState.encodeBaseStateBody crypto state) 294 := by
  obtain ⟨hownerLen, hownerAscii⟩ := ascii_of_isAddress h.owner_valid
  obtain ⟨serial, hparse⟩ := h.displayId_valid
  obtain ⟨hascii, hlen, -⟩ := BaseState.displayId_bounds hparse
  obtain ⟨seq, e1, l1⟩ := BinaryV3.fits_encodeUvarint _ h.sequence_nonneg hrange.sequence_le
  obtain ⟨owner, e2, l2⟩ := BinaryV3.fits_encodeAscii _ 128 128 hownerAscii
    (by omega) le_rfl (by decide)
  obtain ⟨last, e3, l3⟩ := BinaryV3.fits_encodeHashHex h.lastTransferHash_hex
  obtain ⟨time, e4, l4⟩ :=
    BinaryV3.fits_encodeUvarint _ h.lastTransferTimestamp_nonneg hrange.timestamp_le
  obtain ⟨day, e5, l5⟩ := BinaryV3.fits_encodeUvarint _ h.lastTransferDay_nonneg hrange.day_le
  obtain ⟨count, e6, l6⟩ :=
    BinaryV3.fits_encodeUvarint _ h.transfersInLastDay_nonneg hrange.dayCount_le
  obtain ⟨display, e7, l7⟩ := BinaryV3.fits_encodeAscii _ 64 64 hascii hlen
    le_rfl (by decide)
  obtain ⟨value, e8, l8⟩ := BinaryV3.fits_encodeUvarint state.value
    (le_trans (by decide) h.value_valid.1) (le_trans h.value_valid.le (by decide))
  refine ⟨_, Check.bind_eq_ok.2 ⟨(), BaseState.validateBaseState_eq_ok.2 h,
    Check.bind_eq_ok.2 ⟨_, e1, Check.bind_eq_ok.2 ⟨_, e2, Check.bind_eq_ok.2 ⟨_, e3,
    Check.bind_eq_ok.2 ⟨_, e4, Check.bind_eq_ok.2 ⟨_, e5, Check.bind_eq_ok.2 ⟨_, e6,
    Check.bind_eq_ok.2 ⟨_, e7, Check.bind_eq_ok.2 ⟨_, e8, rfl⟩⟩⟩⟩⟩⟩⟩⟩⟩, ?_⟩
  simp only [List.length_append]
  omega

/-- A segment over transfers that have hashes has a hash itself, if its fields are within the wire
    range. -/
theorem exists_archiveSegmentHashHex {segment : ArchiveSegment}
    (hnetwork : 0 ≤ segment.networkId ∧ segment.networkId ≤ maxProtocolTimestamp)
    (hcount : segment.transferCount = segment.transfers.length) (hlen : segment.transfers.length ≤ 80)
    (htoken : IsHex32 segment.tokenId)
    (href : GenesisRef.validateGenesisRef node.toNodePolicy segment.genesisRef segment.networkId
      = .ok ())
    (hrefNetwork : segment.genesisRef.networkId = segment.networkId)
    (hissued : segment.genesisRef.issuedAt ≤ maxProtocolTimestamp)
    (hdisplay : parseDisplayId node.crypto segment.displayId "archive segment display id"
      = .ok (segment.value, segment.genesisRef.issueIndex))
    (hbase : segment.baseState.Valid node.crypto) (hrange : CheckpointCore.InRange segment.baseState)
    (hstart : 0 ≤ segment.startSequence ∧ segment.startSequence ≤ maxProtocolTimestamp)
    (hend : 0 ≤ segment.endSequence ∧ segment.endSequence ≤ maxProtocolTimestamp)
    (hprevious : ∀ text ∈ segment.previousSegmentHash, IsHex32 text)
    (hprevious' : ∀ text ∈ segment.previousCheckpointHash, IsHex32 text)
    (hcheckpoint : IsHex32 segment.checkpointHash)
    (htransfers : ∀ t ∈ segment.transfers, ∃ hash, t.transferHash node.crypto clock = .ok hash) :
    ∃ digest : Bytes, digest.length = 32 ∧
      archiveSegmentHashHex node segment clock = .ok (Text.hex digest) := by
  have hserial := isBillSerial_of_parse hdisplay
  obtain ⟨hdisplayAscii, hdisplayLen, -⟩ := BaseState.displayId_bounds hdisplay
  obtain ⟨token, e1, l1⟩ := BinaryV3.fits_encodeHashHex htoken
  obtain ⟨value, e2, l2⟩ := BinaryV3.fits_encodeUvarint segment.value
    (le_trans (by decide) hserial.1.1) (le_trans hserial.1.le (by decide))
  obtain ⟨display, e3, l3⟩ := BinaryV3.fits_encodeAscii _ 64 64 hdisplayAscii
    hdisplayLen le_rfl (by decide)
  obtain ⟨refBody, e4, l4⟩ := fits_encodeGenesisRefBody node.toNodePolicy segment.genesisRef
    (by rwa [hrefNetwork]) (le_trans hserial.le (by decide)) hissued
  obtain ⟨baseBody, e5, l5⟩ := fits_encodeBaseStateBody hbase hrange
  obtain ⟨start, e6, l6⟩ := BinaryV3.fits_encodeUvarint segment.startSequence hstart.1 hstart.2
  obtain ⟨stop, e7, l7⟩ := BinaryV3.fits_encodeUvarint segment.endSequence hend.1 hend.2
  obtain ⟨previous, e8, l8⟩ := BinaryV3.fits_encodeHashHexNullable _ hprevious
  obtain ⟨previous', e9, l9⟩ := BinaryV3.fits_encodeHashHexNullable _ hprevious'
  obtain ⟨checkpoint, e10, l10⟩ := BinaryV3.fits_encodeHashHex hcheckpoint
  have hmax : (80 : Int) ≤ maxProtocolTimestamp := by decide
  obtain ⟨count, e11, l11⟩ := BinaryV3.fits_encodeUvarint segment.transferCount
    (by omega) (by omega)
  obtain ⟨body, e12, l12⟩ := fits_encodeTransfers node.crypto clock segment.transfers htransfers
  obtain ⟨zero, e13, l13⟩ := BinaryV3.fits_encodeHashHex isHex32_zeroHash
  have hbody : BinaryV3.Fits (encodeArchiveSegmentBody node
      { segment with segmentHash := zeroHash } clock) (60000) :=
    ⟨_, Check.bind_eq_ok.2 ⟨(), requireMin_eq_ok.2 hnetwork.1,
      Check.bind_eq_ok.2 ⟨(), Check.require_of hcount _,
      Check.bind_eq_ok.2 ⟨_, e1, Check.bind_eq_ok.2 ⟨_, e2, Check.bind_eq_ok.2 ⟨_, e3,
      Check.bind_eq_ok.2 ⟨_, e4, Check.bind_eq_ok.2 ⟨_, e5, Check.bind_eq_ok.2 ⟨_, e6,
      Check.bind_eq_ok.2 ⟨_, e7, Check.bind_eq_ok.2 ⟨_, e8, Check.bind_eq_ok.2 ⟨_, e9,
      Check.bind_eq_ok.2 ⟨_, e10, Check.bind_eq_ok.2 ⟨_, e11, Check.bind_eq_ok.2 ⟨_, e12,
      Check.bind_eq_ok.2 ⟨_, e13, rfl⟩⟩⟩⟩⟩⟩⟩⟩⟩⟩⟩⟩⟩⟩⟩, by simp only [List.length_append]; omega⟩
  obtain ⟨raw, hraw, lraw⟩ := hbody
  obtain ⟨encoded, hencoded, lencoded⟩ := BinaryV3.fits_encodeEnvelope "IND3ARCH"
    (by decide) hnetwork.1 hnetwork.2 lraw
  obtain ⟨digest, hdigest, ldigest⟩ := BinaryV3.exists_objectHash node.crypto
    archiveSegmentType encoded (by decide) (by decide)
    (le_trans lencoded (by decide))
  exact ⟨digest, ldigest, Check.bind_eq_ok.2 ⟨_, hraw, Check.bind_eq_ok.2 ⟨_, hencoded,
    Check.bind_eq_ok.2 ⟨_, hdigest, rfl⟩⟩⟩⟩

/-- The genesis segment over some transfers before its hash is filled in. -/
def unsealedGenesis (tokenId : String) (ref : GenesisRef) (base : BaseState)
    (transfers : List Transfer) (core : CheckpointCore) (networkId : Int) : ArchiveSegment where
  type := archiveSegmentType
  version := 3
  networkId := networkId
  tokenId := tokenId
  value := base.value
  displayId := base.displayId
  genesisRef := ref
  baseState := base
  startSequence := base.sequence + 1
  endSequence := base.sequence + transfers.length
  previousSegmentHash := none
  previousCheckpointHash := none
  checkpointHash := core.checkpointHash
  transferCount := transfers.length
  transfers := transfers
  segmentHash := zeroHash

/-- **A replay from sequence zero is accepted as a genesis segment.** Only the genesis reference has
    to be one that the node accepts, and the display id has to name its issue index. -/
theorem exists_genesisSegment {ref : GenesisRef} {base final : BaseState} {transfers : List Transfer}
    (href : GenesisRef.validateGenesisRef node.toNodePolicy ref networkId = .ok ())
    (hissued : ref.issuedAt ≤ maxProtocolTimestamp) (hnetwork : networkId ≤ maxProtocolTimestamp)
    (htoken : IsHex32 tokenId) (hbase : base.Valid node.crypto)
    (hrange : CheckpointCore.InRange base) (hzero : base.sequence = 0)
    (hlast : base.lastTransferHash = ref.genesisHash)
    (hdisplay : parseDisplayId node.crypto base.displayId "archive segment display id"
      = .ok (base.value, ref.issueIndex))
    (hreplay : BaseState.replayTransfers node.crypto tokenId networkId now clock true base transfers
      = .ok final) (hne : transfers ≠ []) (hlen : transfers.length ≤ 80) :
    ∃ segment core, Derives node segment (some networkId) now clock core ∧
      (∀ resolvers fuel previous, verifyArchiveSegment node now clock resolvers (fuel + 1) segment
        (some networkId) previous = .ok core) ∧
      segment.genesisRef = ref ∧ segment.baseState = base ∧ segment.tokenId = tokenId ∧
      segment.transfers = transfers ∧ segment.previousSegmentHash = none := by
  have hspends := BaseState.exists_spends_of_mem_replay hreplay
  obtain ⟨first, hfirst⟩ := List.exists_mem_of_ne_nil _ hne
  obtain ⟨_, _, hfirstSpends⟩ := hspends first hfirst
  have hnow := hfirstSpends.shape.now_valid
  have hnetwork0 : 0 ≤ networkId := by
    have := hfirstSpends.shape.networkId_nonneg
    rwa [hfirstSpends.shape.networkId_eq] at this
  have hpos : 0 < transfers.length := List.length_pos_of_ne_nil hne
  have hend := BaseState.replayed_of_replayTransfers hbase hreplay
  have hrefNetwork : ref.networkId = networkId := by
    simp only [GenesisRef.validateGenesisRef, Check.bind_eq_ok, Check.require_eq_ok] at href
    tauto
  have hgenesisHex : IsHex32 ref.genesisHash := hlast ▸ hbase.lastTransferHash_hex
  have hserial := isBillSerial_of_parse hdisplay
  obtain ⟨core, hcore, hcoreHex⟩ := CheckpointCore.exists_checkpointCoreFromState
    none hend.valid
    (BaseState.inRange_of_replay hrange hreplay) (by rw [hend.sequence_eq, hzero]; omega)
    (hend.transfersInLastDay_pos hpos) htoken hgenesisHex (by simp) ⟨hnetwork0, hnetwork⟩
  let draft := unsealedGenesis tokenId ref base transfers core networkId
  have hmax : (81 : Int) ≤ maxProtocolTimestamp := by decide
  have hstart : 0 ≤ draft.startSequence ∧ draft.startSequence ≤ maxProtocolTimestamp := by
    change 0 ≤ base.sequence + 1 ∧ base.sequence + 1 ≤ maxProtocolTimestamp
    omega
  have hstop : 0 ≤ draft.endSequence ∧ draft.endSequence ≤ maxProtocolTimestamp := by
    change 0 ≤ base.sequence + _ ∧ base.sequence + _ ≤ maxProtocolTimestamp
    omega
  obtain ⟨digest, ldigest, hdigest⟩ := @exists_archiveSegmentHashHex node clock draft
    ⟨hnetwork0, hnetwork⟩ rfl hlen htoken href hrefNetwork hissued hdisplay hbase hrange hstart hstop
    (by simp [draft, unsealedGenesis]) (by simp [draft, unsealedGenesis]) hcoreHex fun t ht => by
      obtain ⟨_, hash, h⟩ := hspends t ht
      exact ⟨hash, h.hash_eq⟩
  let segment : ArchiveSegment := { draft with segmentHash := Text.hex digest }
  have hhash : archiveSegmentHashHex node segment clock = .ok (Text.hex digest) := hdigest
  have hheader : validateHeader node segment (some networkId) clock = .ok networkId :=
    Check.bind_eq_ok.2 ⟨(), Check.require_of rfl _,
      Check.bind_eq_ok.2 ⟨(), Check.require_of rfl _,
      Check.bind_eq_ok.2 ⟨(), requireMin_eq_ok.2 hnetwork0,
      Check.bind_eq_ok.2 ⟨(), Check.require_of (by rintro _ ⟨⟩; rfl) _,
      Check.bind_eq_ok.2 ⟨_, hex32_eq_ok.2 ⟨htoken, rfl⟩,
      Check.bind_eq_ok.2 ⟨(), requireMin_eq_ok.2 hbase.value_valid.1,
      Check.bind_eq_ok.2 ⟨(), rfl, Check.bind_eq_ok.2 ⟨(), rfl,
      Check.bind_eq_ok.2 ⟨_, hex32_eq_ok.2 ⟨hcoreHex, rfl⟩,
      Check.bind_eq_ok.2 ⟨(), requireMin_eq_ok.2 (by change 1 ≤ base.sequence + 1; omega),
      Check.bind_eq_ok.2 ⟨(), requireMin_eq_ok.2 (by change 1 ≤ base.sequence + _; omega),
      Check.bind_eq_ok.2 ⟨(), Check.require_of
        (by change base.sequence + 1 ≤ base.sequence + _; omega) _,
      Check.bind_eq_ok.2 ⟨(), requireMin_eq_ok.2 (by change (1 : Int) ≤ (transfers.length : Int); omega),
      Check.bind_eq_ok.2 ⟨(), Check.require_of rfl _,
      Check.bind_eq_ok.2 ⟨_, hhash, Check.bind_eq_ok.2 ⟨(), Check.require_of rfl _,
        rfl⟩⟩⟩⟩⟩⟩⟩⟩⟩⟩⟩⟩⟩⟩⟩⟩
  have hsequence : BaseState.verifyTransferSequenceFromState node.crypto tokenId base transfers
      networkId now clock = .ok final :=
    Check.bind_eq_ok.2 ⟨(), BaseState.validateBaseState_eq_ok.2 hbase,
      Check.bind_eq_ok.2 ⟨_, currentTime_eq_ok.2 ⟨hnow, rfl⟩, hreplay⟩⟩
  have hderived : deriveCheckpoint node segment networkId now clock = .ok core :=
    Check.bind_eq_ok.2 ⟨(), Check.require_of rfl _,
      Check.bind_eq_ok.2 ⟨_, hsequence,
      Check.bind_eq_ok.2 ⟨(), Check.require_of hend.sequence_eq _,
      Check.bind_eq_ok.2 ⟨(), Check.require_of hend.value_eq _,
      Check.bind_eq_ok.2 ⟨(), Check.require_of hend.displayId_eq _,
      Check.bind_eq_ok.2 ⟨_, hcore, Check.bind_eq_ok.2 ⟨(), Check.require_of rfl _, rfl⟩⟩⟩⟩⟩⟩⟩
  have hderives : Derives node segment (some networkId) now clock core :=
    ⟨hheader, href, hdisplay, hderived⟩
  refine ⟨segment, core, hderives, fun resolvers fuel previous =>
    verify_of_derives hderives hserial rfl ?_ resolvers fuel previous, rfl, rfl, rfl, rfl, rfl⟩
  exact Check.bind_eq_ok.2 ⟨(), Check.require_of rfl _,
    Check.bind_eq_ok.2 ⟨(), Check.require_of hzero _, Check.require_of hlast _⟩⟩

end ArchiveSegment
