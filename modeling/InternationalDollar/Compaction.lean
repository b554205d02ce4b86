import InternationalDollar.SegmentChain

set_option autoImplicit false

/-! # Compaction (`archive_segment_v3.make_archive_segment`)

The transfers of a bill are cut into pieces and each piece is sealed into a segment that starts where
the piece before it ends. Verifying the last segment replays the pieces one by one through their
checkpoint cores; it derives the state that one replay of all transfers ends in. -/

namespace ArchiveSegment

/-- A segment before its hash is filled in. -/
def unsealed (tokenId : String) (ref : GenesisRef) (base final : BaseState) (transfers : List Transfer)
    (previousSegmentHash previousCheckpointHash : Option String) (checkpointHash : String)
    (networkId : Int) : ArchiveSegment where
  type := archiveSegmentType
  version := 3
  networkId := networkId
  tokenId := tokenId
  value := final.value
  displayId := final.displayId
  genesisRef := ref
  baseState := base
  startSequence := base.sequence + 1
  endSequence := final.sequence
  previousSegmentHash := previousSegmentHash
  previousCheckpointHash := previousCheckpointHash
  checkpointHash := checkpointHash
  transferCount := transfers.length
  transfers := transfers
  segmentHash := ""

/-- `make_archive_segment`. -/
def makeArchiveSegment (node : Node) (tokenId : String) (ref : GenesisRef) (base : BaseState)
    (transfers : List Transfer) (previousSegmentHash previousCheckpointHash : Option String)
    (networkId clock : Int) : Except String ArchiveSegment := do
  Check.require (transfers ≠ []) "archive segment requires at least one transfer"
  Check.require (¬ (previousSegmentHash = none ∧ previousCheckpointHash ≠ none))
    "previous checkpoint requires a previous segment"
  Check.require (¬ (previousSegmentHash ≠ none ∧ previousCheckpointHash = none))
    "previous segment requires a previous checkpoint"
  GenesisRef.validateGenesisRef node.toNodePolicy ref networkId
  let final ← BaseState.verifyTransferSequenceFromState node.crypto tokenId base transfers networkId
    clock clock
  let _ ← validateDisplayIdIssueIndex node.crypto final.displayId final.value ref.issueIndex
    "archive segment display id"
  let core ← CheckpointCore.checkpointCoreFromState node.crypto tokenId ref.genesisHash final
    previousCheckpointHash networkId
  let segment := unsealed tokenId ref base final transfers previousSegmentHash previousCheckpointHash
    core.checkpointHash networkId
  let hash ← archiveSegmentHashHex node segment clock
  pure { segment with segmentHash := hash }

end ArchiveSegment

/-! ## Later clocks -/

section Later

variable {crypto : Crypto} {tokenId : String} {networkId now now' clock clock' : Int}
  {state final final' : BaseState} {transfers : List Transfer}

theorem Spends.mono {t : Transfer} {hash : String}
    (h : Spends crypto tokenId networkId now clock state t hash) (hnow : now ≤ now')
    (hnow' : now' ≤ maxProtocolTimestamp) (hclock : clock ≤ clock')
    (hclock' : clock' ≤ maxProtocolTimestamp) :
    Spends crypto tokenId networkId now' clock' state t hash where
  __ := h
  shape := h.shape.mono hnow hnow'
  signature_valid := Transfer.verifyTransferSignature_mono h.signature_valid hclock hclock'
  hash_eq := Transfer.transferHash_mono h.hash_eq hclock hclock'

namespace BaseState

theorem replayTransfers_mono
    (h : replayTransfers crypto tokenId networkId now clock true state transfers = .ok final)
    (hnow : now ≤ now') (hnow' : now' ≤ maxProtocolTimestamp) (hclock : clock ≤ clock')
    (hclock' : clock' ≤ maxProtocolTimestamp) :
    replayTransfers crypto tokenId networkId now' clock' true state transfers = .ok final := by
  induction transfers generalizing state with
  | nil => exact h
  | cons t rest ih =>
    obtain ⟨next, hnext, hrest⟩ := Check.bind_eq_ok.1 h
    obtain ⟨hash, hspends, rfl⟩ := replayTransfer_eq_ok.1 hnext
    have hlater := hspends.mono hnow hnow' hclock hclock'
    exact Check.bind_eq_ok.2 ⟨_, replayTransfer_eq_ok.2 ⟨hash, hlater, rfl⟩, ih hrest⟩

/-- A verified sequence: a valid state, a valid time and a replay. -/
theorem verifyTransferSequence_eq_ok :
    verifyTransferSequenceFromState crypto tokenId state transfers networkId now clock = .ok final ↔
      state.Valid crypto ∧ (0 ≤ now ∧ now ≤ maxProtocolTimestamp) ∧
        replayTransfers crypto tokenId networkId now clock true state transfers = .ok final := by
  simp only [verifyTransferSequenceFromState, replayTransferSequenceFromState, Check.bind_eq_ok,
    validateBaseState_eq_ok, currentTime_eq_ok, exists_const]
  constructor
  · rintro ⟨hstate, _, ⟨hnow, rfl⟩, hreplay⟩
    exact ⟨hstate, hnow, hreplay⟩
  · rintro ⟨hstate, hnow, hreplay⟩
    exact ⟨hstate, now, ⟨hnow, rfl⟩, hreplay⟩

/-- The clock of a replay of at least one transfer is a valid time. -/
theorem clock_le_of_replay
    (h : replayTransfers crypto tokenId networkId now clock true state transfers = .ok final)
    (hne : transfers ≠ []) : clock ≤ maxProtocolTimestamp := by
  obtain ⟨t, ht⟩ := List.exists_mem_of_ne_nil _ hne
  obtain ⟨_, hash, hspends⟩ := exists_spends_of_mem_replay h t ht
  exact (Transfer.hashed_of_transferHash hspends.hash_eq).shape.now_valid.2

/-- Two replays of the same transfers end in the same state, at whatever times they are made. -/
theorem replayTransfers_unique
    (h : replayTransfers crypto tokenId networkId now clock true state transfers = .ok final)
    (h' : replayTransfers crypto tokenId networkId now' clock' true state transfers = .ok final')
    (hnow : now ≤ maxProtocolTimestamp) (hnow' : now' ≤ maxProtocolTimestamp) : final = final' := by
  by_cases hne : transfers = []
  · subst hne
    cases h
    cases h'
    rfl
  have hclock := clock_le_of_replay h hne
  have hclock' := clock_le_of_replay h' hne
  have hlater := replayTransfers_mono h (le_max_left now now') (max_le hnow hnow')
    (le_max_left clock clock') (max_le hclock hclock')
  have hlater' := replayTransfers_mono h' (le_max_right now now') (max_le hnow hnow')
    (le_max_right clock clock') (max_le hclock hclock')
  exact Except.ok.inj (hlater.symm.trans hlater')

/-- A replay stops anywhere and goes on from there. -/
theorem replayTransfers_append {more : List Transfer} :
    replayTransfers crypto tokenId networkId now clock true state (transfers ++ more) = .ok final ↔
      ∃ mid, replayTransfers crypto tokenId networkId now clock true state transfers = .ok mid ∧
        replayTransfers crypto tokenId networkId now clock true mid more = .ok final := by
  induction transfers generalizing state with
  | nil => simp [replayTransfers]
  | cons t rest ih =>
    simp only [List.cons_append, replayTransfers, Check.bind_eq_ok, ih]
    constructor
    · rintro ⟨next, hnext, mid, hrest, hmore⟩
      exact ⟨mid, ⟨next, hnext, hrest⟩, hmore⟩
    · rintro ⟨mid, ⟨next, hnext, hrest⟩, hmore⟩
      exact ⟨next, hnext, mid, hrest, hmore⟩

end BaseState

namespace ArchiveSegment

variable {node : Node}

theorem encodeTransfers_mono {raw : Bytes} (h : encodeTransfers crypto clock transfers = .ok raw)
    (hclock : clock ≤ clock') (hclock' : clock' ≤ maxProtocolTimestamp) :
    encodeTransfers crypto clock' transfers = .ok raw := by
  induction transfers generalizing raw with
  | nil => exact h
  | cons t rest ih =>
    obtain ⟨head, hhead, h⟩ := Check.bind_eq_ok.1 h
    obtain ⟨tail, htail, h⟩ := Check.bind_eq_ok.1 h
    exact Check.bind_eq_ok.2 ⟨head, Transfer.encodeTransferBody_mono hhead hclock hclock',
      Check.bind_eq_ok.2 ⟨tail, ih htail, h⟩⟩

theorem archiveSegmentHashHex_mono {segment : ArchiveSegment} {hash : String}
    (h : archiveSegmentHashHex node segment clock = .ok hash) (hclock : clock ≤ clock')
    (hclock' : clock' ≤ maxProtocolTimestamp) :
    archiveSegmentHashHex node segment clock' = .ok hash := by
  obtain ⟨body, hbody, hrest⟩ := Check.bind_eq_ok.1 h
  refine Check.bind_eq_ok.2 ⟨body, ?_, hrest⟩
  simp only [encodeArchiveSegmentBody, Check.bind_eq_ok] at hbody ⊢
  obtain ⟨u1, h1, u2, h2, x3, h3, x4, h4, x5, h5, x6, h6, x7, h7, x8, h8, x9, h9, x10, h10, x11, h11,
    x12, h12, x13, h13, x14, htransfers, hlast⟩ := hbody
  exact ⟨u1, h1, u2, h2, x3, h3, x4, h4, x5, h5, x6, h6, x7, h7, x8, h8, x9, h9, x10, h10, x11, h11,
    x12, h12, x13, h13, x14, encodeTransfers_mono htransfers hclock hclock', hlast⟩

end ArchiveSegment

end Later

namespace ArchiveSegment

variable {node : Node} {tokenId : String} {ref : GenesisRef} {base final : BaseState}
  {transfers : List Transfer} {networkId now clock : Int} {segment : ArchiveSegment}

theorem isHex32_of_encodeHashHex {text : String} {raw : Bytes}
    (h : BinaryV3.encodeHashHex text = .ok raw) : IsHex32 text := by
  simp only [BinaryV3.encodeHashHex, Check.bind_eq_ok, Check.require_eq_ok, Check.ofOption_eq_ok,
    exists_const] at h
  exact ⟨h.1, by rw [h.2]; rfl⟩

theorem isHex32_of_encodeHashHexNullable {text : Option String} {raw : Bytes}
    (h : BinaryV3.encodeHashHexNullable text = .ok raw) : ∀ t ∈ text, IsHex32 t := by
  cases text with
  | none => exact fun t ht => absurd ht (by simp)
  | some text =>
    obtain ⟨_, hraw, -⟩ := Check.bind_eq_ok.1 h
    rintro _ ⟨⟩
    exact isHex32_of_encodeHashHex hraw

/-- The hash fields of a segment that has a hash are well formed. -/
structure HashesValid (segment : ArchiveSegment) : Prop where
  networkId_nonneg : 0 ≤ segment.networkId
  tokenId_hex : IsHex32 segment.tokenId
  previousSegment_hex : ∀ t ∈ segment.previousSegmentHash, IsHex32 t
  previousCheckpoint_hex : ∀ t ∈ segment.previousCheckpointHash, IsHex32 t
  checkpointHash_hex : IsHex32 segment.checkpointHash

theorem HashesValid.of_hash {hash : String} (h : archiveSegmentHashHex node segment clock = .ok hash) :
    HashesValid segment := by
  obtain ⟨_, hbody, -⟩ := Check.bind_eq_ok.1 h
  simp only [encodeArchiveSegmentBody, Check.bind_eq_ok, requireMin_eq_ok] at hbody
  obtain ⟨_, hnetwork, _, -, _, htoken, _, -, _, -, _, -, _, -, _, -, _, -, _, hsegment, _, hcheckpoint,
    _, hhash, -⟩ := hbody
  exact ⟨hnetwork, isHex32_of_encodeHashHex htoken, isHex32_of_encodeHashHexNullable hsegment,
    isHex32_of_encodeHashHexNullable hcheckpoint, isHex32_of_encodeHashHex hhash⟩

/-- What `make_archive_segment` returns. -/
structure Made (node : Node) (tokenId : String) (ref : GenesisRef) (base final : BaseState)
    (transfers : List Transfer) (previousSegmentHash previousCheckpointHash : Option String)
    (networkId clock : Int) (core : CheckpointCore) (hash : String) (segment : ArchiveSegment) :
    Prop where
  transfers_ne : transfers ≠ []
  genesisRef_valid : GenesisRef.validateGenesisRef node.toNodePolicy ref networkId = .ok ()
  verified : BaseState.verifyTransferSequenceFromState node.crypto tokenId base transfers networkId
    clock clock = .ok final
  displayId_eq : parseDisplayId node.crypto final.displayId "archive segment display id"
    = .ok (final.value, ref.issueIndex)
  core_eq : CheckpointCore.checkpointCoreFromState node.crypto tokenId ref.genesisHash final
    previousCheckpointHash networkId = .ok core
  hash_eq : archiveSegmentHashHex node (unsealed tokenId ref base final transfers previousSegmentHash
    previousCheckpointHash core.checkpointHash networkId) clock = .ok hash
  segment_eq : segment = { unsealed tokenId ref base final transfers previousSegmentHash
    previousCheckpointHash core.checkpointHash networkId with segmentHash := hash }

theorem made_of_makeArchiveSegment {previousSegmentHash previousCheckpointHash : Option String}
    (h : makeArchiveSegment node tokenId ref base transfers previousSegmentHash previousCheckpointHash
      networkId clock = .ok segment) :
    ∃ final core hash, Made node tokenId ref base final transfers previousSegmentHash
      previousCheckpointHash networkId clock core hash segment := by
  simp only [makeArchiveSegment, Check.bind_eq_ok, Check.require_eq_ok, Check.pure_eq_ok] at h
  obtain ⟨_, hne, _, -, _, -, _, href, final, hverified, _, hdisplay, core, hcore, hash, hhash, rfl⟩ := h
  exact ⟨final, core, hash, hne, href, hverified, (validateDisplayIdIssueIndex_eq_ok.1 hdisplay).1,
    hcore, hhash, rfl⟩

/-- A replay from any state can be made into a segment that names no predecessor. -/
theorem exists_makeArchiveSegment
    (href : GenesisRef.validateGenesisRef node.toNodePolicy ref networkId = .ok ())
    (hrefNetwork : ref.networkId = networkId) (hgenesis : IsHex32 ref.genesisHash)
    (hissued : ref.issuedAt ≤ maxProtocolTimestamp)
    (hnetwork : 0 ≤ networkId ∧ networkId ≤ maxProtocolTimestamp) (htoken : IsHex32 tokenId)
    (hrange : CheckpointCore.InRange base)
    (hend : base.sequence + transfers.length ≤ maxProtocolTimestamp)
    (hdisplay : parseDisplayId node.crypto base.displayId "archive segment display id"
      = .ok (base.value, ref.issueIndex))
    (hverified : BaseState.verifyTransferSequenceFromState node.crypto tokenId base transfers networkId
      clock clock = .ok final) (hne : transfers ≠ []) (hlen : transfers.length ≤ 80) :
    ∃ segment, makeArchiveSegment node tokenId ref base transfers none none networkId clock
      = .ok segment := by
  obtain ⟨hbase, -, hreplay⟩ := BaseState.verifyTransferSequence_eq_ok.1 hverified
  have hreplayed := BaseState.replayed_of_replayTransfers hbase hreplay
  have hspends := BaseState.exists_spends_of_mem_replay hreplay
  have hpos : 0 < transfers.length := List.length_pos_of_ne_nil hne
  have hsequence := hbase.sequence_nonneg
  have hlast := hreplayed.sequence_eq
  have hdisplay' : parseDisplayId node.crypto final.displayId "archive segment display id"
      = .ok (final.value, ref.issueIndex) := by
    rw [hreplayed.displayId_eq, hreplayed.value_eq]
    exact hdisplay
  obtain ⟨core, hcore, hcoreHex⟩ := CheckpointCore.exists_checkpointCoreFromState none hreplayed.valid
    (BaseState.inRange_of_replay hrange hreplay) (by omega) (hreplayed.transfersInLastDay_pos hpos)
    htoken hgenesis (by simp) hnetwork
  let draft := unsealed tokenId ref base final transfers none none core.checkpointHash networkId
  have hstart : 0 ≤ draft.startSequence ∧ draft.startSequence ≤ maxProtocolTimestamp := by
    change 0 ≤ base.sequence + 1 ∧ base.sequence + 1 ≤ maxProtocolTimestamp
    omega
  have hstop : 0 ≤ draft.endSequence ∧ draft.endSequence ≤ maxProtocolTimestamp := by
    change 0 ≤ final.sequence ∧ final.sequence ≤ maxProtocolTimestamp
    omega
  obtain ⟨digest, -, hhash⟩ := @exists_archiveSegmentHashHex node clock draft hnetwork rfl hlen htoken
    href hrefNetwork hissued hdisplay' hbase hrange hstart hstop (by simp [draft, unsealed])
    (by simp [draft, unsealed]) hcoreHex fun t ht => by
      obtain ⟨_, hash, h⟩ := hspends t ht
      exact ⟨hash, h.hash_eq⟩
  refine ⟨{ draft with segmentHash := Text.hex digest }, ?_⟩
  unfold makeArchiveSegment
  exact Check.bind_eq_ok.2 ⟨(), Check.require_of hne _, Check.bind_eq_ok.2 ⟨(), Check.require_of
    (by simp) _, Check.bind_eq_ok.2 ⟨(), Check.require_of (by simp) _, Check.bind_eq_ok.2 ⟨(), href,
    Check.bind_eq_ok.2 ⟨final, hverified, Check.bind_eq_ok.2 ⟨_, validateDisplayIdIssueIndex_eq_ok.2
      ⟨hdisplay', isBillSerial_of_parse hdisplay', rfl⟩, Check.bind_eq_ok.2 ⟨core, hcore,
    Check.bind_eq_ok.2 ⟨_, hhash, rfl⟩⟩⟩⟩⟩⟩⟩⟩

/-- A segment that is verified at some time is the one that is made over its transfers at that time. -/
theorem makeArchiveSegment_of_derives {core : CheckpointCore}
    (h : Derives node segment (some networkId) clock clock core)
    (hlink : segment.previousSegmentHash = none ↔ segment.previousCheckpointHash = none) :
    makeArchiveSegment node segment.tokenId segment.genesisRef segment.baseState segment.transfers
      segment.previousSegmentHash segment.previousCheckpointHash networkId clock = .ok segment := by
  have hvalid := HeaderValid.of_validate h.header
  have hnetwork : segment.networkId = networkId := hvalid.networkId_eq networkId rfl
  obtain ⟨-, hne, -⟩ := h.replay
  have hserial := isBillSerial_of_parse h.displayId_eq
  have hderived := h.derived
  simp only [deriveCheckpoint, Check.bind_eq_ok, Check.require_eq_ok, Check.pure_eq_ok] at hderived
  obtain ⟨_, hstart, final, hverified, _, hstop, _, hvalue, _, hdisplay, core', hcore, _, hcheckpoint,
    rfl⟩ := hderived
  have hheader := h.header
  simp only [validateHeader, Check.bind_eq_ok, Check.require_eq_ok, exists_const] at hheader
  obtain ⟨htype, hversion, -⟩ := hheader
  have hsegment : segment = { unsealed segment.tokenId segment.genesisRef segment.baseState final
      segment.transfers segment.previousSegmentHash segment.previousCheckpointHash core'.checkpointHash
      networkId with segmentHash := segment.segmentHash } := by
    unfold unsealed
    rw [hvalue, hdisplay, hstop, hcheckpoint, ← hstart, ← hvalid.transferCount_eq, ← hnetwork, ← htype,
      ← hversion]
  have hhash : archiveSegmentHashHex node (unsealed segment.tokenId segment.genesisRef segment.baseState
      final segment.transfers segment.previousSegmentHash segment.previousCheckpointHash
      core'.checkpointHash networkId) clock = .ok segment.segmentHash := by
    have hhash := hvalid.hash_eq
    rw [hsegment] at hhash
    exact hhash
  rw [hnetwork] at hverified hcore
  have href := h.genesisRef_valid
  rw [hnetwork] at href
  unfold makeArchiveSegment
  refine Check.bind_eq_ok.2 ⟨(), Check.require_of hne _, Check.bind_eq_ok.2 ⟨(), Check.require_of ?_ _,
    Check.bind_eq_ok.2 ⟨(), Check.require_of ?_ _, Check.bind_eq_ok.2 ⟨(), href,
    Check.bind_eq_ok.2 ⟨final, hverified, Check.bind_eq_ok.2 ⟨_, validateDisplayIdIssueIndex_eq_ok.2
      ⟨?_, hvalue ▸ hserial, rfl⟩, Check.bind_eq_ok.2 ⟨core', hcore, Check.bind_eq_ok.2 ⟨_, hhash, ?_⟩⟩⟩⟩⟩⟩⟩⟩
  · rintro ⟨hnone, hsome⟩
    exact hsome (hlink.1 hnone)
  · rintro ⟨hsome, hnone⟩
    exact hsome (hlink.2 hnone)
  · rw [hdisplay, hvalue]
    exact h.displayId_eq
  · exact Check.pure_eq_ok.2 hsegment.symm

section Made

variable {previousSegmentHash previousCheckpointHash : Option String} {core : CheckpointCore}
  {hash : String} {made : Int}

theorem Made.hash_later (h : Made node tokenId ref base final transfers previousSegmentHash
      previousCheckpointHash networkId made core hash segment) (hclock : made ≤ clock)
    (hmax : clock ≤ maxProtocolTimestamp) :
    archiveSegmentHashHex node segment clock = .ok segment.segmentHash := by
  rw [h.segment_eq]
  exact archiveSegmentHashHex_mono h.hash_eq hclock hmax

/-- The header of a segment that was made passes. -/
theorem Made.header (h : Made node tokenId ref base final transfers previousSegmentHash
      previousCheckpointHash networkId made core hash segment) (hclock : made ≤ clock)
    (hmax : clock ≤ maxProtocolTimestamp) :
    validateHeader node segment (some networkId) clock = .ok networkId := by
  have hhash := h.hash_later hclock hmax
  have hvalid := HashesValid.of_hash hhash
  obtain ⟨hbase, -, hreplay⟩ := BaseState.verifyTransferSequence_eq_ok.1 h.verified
  have hend := BaseState.replayed_of_replayTransfers hbase hreplay
  have hpos : 0 < transfers.length := List.length_pos_of_ne_nil h.transfers_ne
  have hsequence := hbase.sequence_nonneg
  have hlast := hend.sequence_eq
  have hsegment := h.segment_eq
  have hstart : segment.startSequence = base.sequence + 1 := by rw [hsegment]; rfl
  have hstop : segment.endSequence = final.sequence := by rw [hsegment]; rfl
  have hcount : segment.transferCount = segment.transfers.length := by rw [hsegment]; rfl
  have hlength : segment.transferCount = transfers.length := by rw [hsegment]; rfl
  have hvalue : 1 ≤ segment.value := by
    rw [hsegment]
    exact hend.valid.value_valid.1
  have hnetwork : segment.networkId = networkId := by rw [hsegment]; rfl
  simp only [validateHeader, Check.bind_eq_ok, Check.require_eq_ok, requireMin_eq_ok, hex32_eq_ok,
    hex32Nullable_eq_ok, exists_const, ↓existsAndEq, and_true, true_and]
  refine ⟨by rw [hsegment]; rfl, by rw [hsegment]; rfl, hvalid.networkId_nonneg, ?_, hvalid.tokenId_hex,
    hvalue, hvalid.previousSegment_hex, hvalid.previousCheckpoint_hex, hvalid.checkpointHash_hex,
    by omega, by omega, by omega, by omega, hcount, hhash, ?_⟩
  · rintro _ ⟨⟩
    exact hnetwork
  · exact Check.pure_eq_ok.2 hnetwork

/-- A segment that was made derives its core, at any time at which its transfers replay. -/
theorem Made.derives (h : Made node tokenId ref base final transfers previousSegmentHash
      previousCheckpointHash networkId made core hash segment) (hclock : made ≤ clock)
    (hmax : clock ≤ maxProtocolTimestamp)
    (hverified : BaseState.verifyTransferSequenceFromState node.crypto tokenId base transfers networkId
      now clock = .ok final) : Derives node segment (some networkId) now clock core := by
  have hheader := h.header hclock hmax
  have hsegment := h.segment_eq
  have hnetwork : segment.networkId = networkId := by rw [hsegment]; rfl
  refine ⟨by rw [hnetwork]; exact hheader, ?_, ?_, ?_⟩
  · rw [hnetwork, hsegment]
    exact h.genesisRef_valid
  · rw [hsegment]
    exact h.displayId_eq
  · rw [hnetwork, hsegment]
    exact Check.bind_eq_ok.2 ⟨(), Check.require_of rfl _,
      Check.bind_eq_ok.2 ⟨_, hverified,
      Check.bind_eq_ok.2 ⟨(), Check.require_of rfl _,
      Check.bind_eq_ok.2 ⟨(), Check.require_of rfl _,
      Check.bind_eq_ok.2 ⟨(), Check.require_of rfl _,
      Check.bind_eq_ok.2 ⟨_, h.core_eq, Check.bind_eq_ok.2 ⟨(), Check.require_of rfl _, rfl⟩⟩⟩⟩⟩⟩⟩

end Made

/-! ## Pieces -/

/-- The hashes that a piece is made with. -/
structure Link where
  segmentHash : String
  checkpointHash : String

/-- The pieces are made into segments in turn, not later than `clock`. Each piece starts from the state
    that the piece before it ends in and is made with the hashes of its segment. -/
inductive Compacted (node : Node) (tokenId : String) (ref : GenesisRef) (networkId clock : Int) :
    Option Link → BaseState → List (List Transfer) → List ArchiveSegment → Prop
  | nil (link : Option Link) (base : BaseState) :
      Compacted node tokenId ref networkId clock link base [] []
  | cons {link : Option Link} {base final : BaseState} {piece : List Transfer} {made : Int}
      {segment : ArchiveSegment} {pieces : List (List Transfer)} {segments : List ArchiveSegment}
      (hmade : made ≤ clock)
      (hsegment : makeArchiveSegment node tokenId ref base piece (link.map Link.segmentHash)
        (link.map Link.checkpointHash) networkId made = .ok segment)
      (hfinal : BaseState.verifyTransferSequenceFromState node.crypto tokenId base piece networkId made
        made = .ok final)
      (hrest : Compacted node tokenId ref networkId clock
        (some ⟨segment.segmentHash, segment.checkpointHash⟩) final pieces segments) :
      Compacted node tokenId ref networkId clock link base (piece :: pieces) (segment :: segments)

/-- A base state may be compacted: it is a genesis state of the reference, or the state that a served
    segment ends in, at recursion depth `depth`. -/
def Anchored (node : Node) (ref : GenesisRef) (networkId now clock : Int) (resolvers : Resolvers)
    (base : BaseState) (depth : Nat) : Option Link → Prop
  | none => base.sequence = 0 ∧ base.lastTransferHash = ref.genesisHash
  | some link => ∃ segment core,
      resolvers.previousSegment.bind (fun resolve => resolve link.segmentHash) = some segment ∧
      archiveSegmentHashHex node segment clock = .ok link.segmentHash ∧
      (∀ fuel, depth ≤ fuel → verifyArchiveSegment node now clock resolvers fuel segment (some networkId)
        none = .ok core) ∧
      core.checkpointHash = link.checkpointHash ∧ core.initialState = base

variable {resolvers : Resolvers} {depth : Nat} {link : Option Link} {core : CheckpointCore}
  {hash : String} {made : Int}

/-- A segment that was made over an anchored state connects to what came before it. -/
theorem Made.checkBase (h : Made node tokenId ref base final transfers (link.map Link.segmentHash)
      (link.map Link.checkpointHash) networkId made core hash segment)
    (hanchor : Anchored node ref networkId now clock resolvers base depth link) {fuel : Nat}
    (hfuel : depth ≤ fuel) :
    ArchiveSegment.checkBase node clock resolvers segment (fun previous =>
      verifyArchiveSegment node now clock resolvers fuel previous (some networkId) none) none
      = .ok () := by
  have hsegment := h.segment_eq
  unfold ArchiveSegment.checkBase
  cases link with
  | none =>
    obtain ⟨hsequence, hlast⟩ := hanchor
    rw [hsegment]
    exact Check.bind_eq_ok.2 ⟨(), Check.require_of rfl _,
      Check.bind_eq_ok.2 ⟨(), Check.require_of hsequence _, Check.require_of hlast _⟩⟩
  | some link =>
    obtain ⟨previous, previousCore, hresolved, hhash, hverify, hcheckpoint, hstate⟩ := hanchor
    have hprevious : segment.previousSegmentHash = some link.segmentHash := by rw [hsegment]; rfl
    have hcheckpoint' : segment.previousCheckpointHash = some link.checkpointHash := by
      rw [hsegment]
      rfl
    have hbase : segment.baseState = base := by rw [hsegment]; rfl
    rw [hprevious]
    dsimp only
    rw [Option.none_or, hresolved]
    refine Check.bind_eq_ok.2 ⟨previousCore, ?_, Check.require_of (by rw [hbase, hstate]) _⟩
    exact Check.bind_eq_ok.2 ⟨_, hverify fuel hfuel,
      Check.bind_eq_ok.2 ⟨_, hhash, Check.bind_eq_ok.2 ⟨(), Check.require_of rfl _,
      Check.bind_eq_ok.2 ⟨(), Check.require_of (by rw [hcheckpoint', hcheckpoint]) _, rfl⟩⟩⟩⟩

/-- **One piece.** A segment made over an anchored state is accepted and anchors the state it ends
    in. -/
theorem Made.accepted (h : Made node tokenId ref base final transfers (link.map Link.segmentHash)
      (link.map Link.checkpointHash) networkId made core hash segment) (hclock : made ≤ clock)
    (hmax : clock ≤ maxProtocolTimestamp)
    (hverified : BaseState.verifyTransferSequenceFromState node.crypto tokenId base transfers networkId
      now clock = .ok final)
    (hanchor : Anchored node ref networkId now clock resolvers base depth link) {fuel : Nat}
    (hfuel : depth + 1 ≤ fuel) :
    verifyArchiveSegment node now clock resolvers fuel segment (some networkId) none = .ok core := by
  have hderives := h.derives hclock hmax hverified
  have hserial := isBillSerial_of_parse h.displayId_eq
  have hsegment := h.segment_eq
  have hnetwork : segment.networkId = networkId := by rw [hsegment]; rfl
  cases fuel with
  | zero => exact absurd hfuel (Nat.not_succ_le_zero depth)
  | succ fuel =>
    unfold verifyArchiveSegment
    refine Check.bind_eq_ok.2 ⟨_, hderives.header, Check.bind_eq_ok.2 ⟨(), hderives.genesisRef_valid,
      Check.bind_eq_ok.2 ⟨_, validateDisplayIdIssueIndex_eq_ok.2 ⟨hderives.displayId_eq, ?_, rfl⟩,
        Check.check_bind_eq_ok.2 ⟨?_, hderives.derived⟩⟩⟩⟩
    · rw [hsegment]
      exact hserial
    · rw [hnetwork]
      exact h.checkBase hanchor (Nat.le_of_succ_le_succ hfuel)

/-- The states that the pieces end in do not depend on when they are replayed. -/
theorem Made.final_eq {final' : BaseState}
    (h : Made node tokenId ref base final transfers (link.map Link.segmentHash)
      (link.map Link.checkpointHash) networkId made core hash segment)
    (hverified : BaseState.verifyTransferSequenceFromState node.crypto tokenId base transfers networkId
      now clock = .ok final') : final' = final := by
  obtain ⟨-, hnow, hreplay⟩ := BaseState.verifyTransferSequence_eq_ok.1 hverified
  obtain ⟨-, hmade, hreplay'⟩ := BaseState.verifyTransferSequence_eq_ok.1 h.verified
  exact BaseState.replayTransfers_unique hreplay hreplay' hnow.2 hmade.2

/-- The pieces of one replay are accepted one after another, and the last one derives the state that the
    replay ends in. -/
theorem Compacted.accepted {pieces : List (List Transfer)} {segments : List ArchiveSegment}
    (h : Compacted node tokenId ref networkId clock link base pieces segments)
    (hnow : 0 ≤ now ∧ now ≤ maxProtocolTimestamp) (hmax : clock ≤ maxProtocolTimestamp)
    (hanchor : Anchored node ref networkId now clock resolvers base depth link)
    (hserved : ∀ s ∈ segments,
      resolvers.previousSegment.bind (fun resolve => resolve s.segmentHash) = some s)
    (hreplay : BaseState.replayTransfers node.crypto tokenId networkId now clock true base
      pieces.flatten = .ok final) :
    (∀ i (hi : i < segments.length) fuel, depth + i + 1 ≤ fuel → ∃ core,
        verifyArchiveSegment node now clock resolvers fuel segments[i] (some networkId) none
          = .ok core) ∧
      ∀ last ∈ segments.getLast?, ∀ fuel, depth + segments.length ≤ fuel → ∃ core,
        verifyArchiveSegment node now clock resolvers fuel last (some networkId) none = .ok core ∧
          core.initialState = final := by
  induction h generalizing depth with
  | nil => exact ⟨fun i hi => absurd hi (Nat.not_lt_zero i), fun last hlast => absurd hlast (by simp)⟩
  | @cons link base mid piece made segment pieces segments hmade hsegment hfinal hrest ih =>
    obtain ⟨final₁, core, hash, h⟩ := made_of_makeArchiveSegment hsegment
    obtain rfl := h.final_eq hfinal
    rw [List.flatten_cons] at hreplay
    obtain ⟨mid', hpiece, hmore⟩ := BaseState.replayTransfers_append.1 hreplay
    obtain ⟨hbase, -⟩ := BaseState.verifyTransferSequence_eq_ok.1 hfinal
    have hverified := BaseState.verifyTransferSequence_eq_ok.2 ⟨hbase, hnow, hpiece⟩
    obtain rfl := h.final_eq hverified
    have haccepted : ∀ fuel, depth + 1 ≤ fuel → verifyArchiveSegment node now clock resolvers fuel
        segment (some networkId) none = .ok core := fun fuel hfuel =>
      h.accepted hmade hmax hverified hanchor hfuel
    have hcheckpoint : core.checkpointHash = segment.checkpointHash := by rw [h.segment_eq]; rfl
    have hstate := initialState_of_checkpointCoreFromState h.core_eq
    have hnext : Anchored node ref networkId now clock resolvers mid' (depth + 1)
        (some ⟨segment.segmentHash, segment.checkpointHash⟩) :=
      ⟨segment, core, hserved segment List.mem_cons_self, h.hash_later hmade hmax, haccepted,
        hcheckpoint, hstate⟩
    obtain ⟨heach, hlast⟩ := ih hnext (fun s hs => hserved s (List.mem_cons_of_mem _ hs)) hmore
    refine ⟨fun i hi fuel hfuel => ?_, fun last hin fuel hfuel => ?_⟩
    · cases i with
      | zero => exact ⟨core, haccepted fuel (by omega)⟩
      | succ i =>
        have hi' : i < segments.length := Nat.lt_of_succ_lt_succ hi
        exact heach i hi' fuel (by omega)
    · rw [List.length_cons] at hfuel
      cases segments with
      | nil =>
        have hlast : segment = last := by simpa using hin
        rw [← hlast]
        -- The last piece: what is left to replay is empty.
        have hnone : pieces = [] := by
          cases hrest
          rfl
        subst hnone
        cases hmore
        exact ⟨core, haccepted fuel hfuel, hstate⟩
      | cons next segments =>
        exact hlast last (by simpa [List.getLast?_cons_cons] using hin) fuel (by omega)

theorem makeArchiveSegment_sampleSegment : makeArchiveSegment sampleNode sampleSegment.tokenId
    sampleSegment.genesisRef sampleSegment.baseState sampleSegment.transfers none none 1 5000
      = .ok sampleSegment := by
  obtain ⟨core, hverify⟩ := verify_sampleSegment
  exact makeArchiveSegment_of_derives (Derives.of_verify hverify) Iff.rfl

end ArchiveSegment
