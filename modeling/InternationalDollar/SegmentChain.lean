import InternationalDollar.GenesisBinding
import InternationalDollar.SpendHistory

set_option autoImplicit false

/-! # Chains of archive segments

Verifying a segment verifies the segment before it, and so on down to a segment that has none. The
transfers of all these segments form one history, from the base state of the genesis segment to the
state of the derived checkpoint core: a segment starts from the core that the one before it ends in. -/

namespace ArchiveSegment

variable {node : Node} {now clock : Int} {resolvers : Resolvers}

/-- The segments that the verification of a segment passes through, the genesis segment first. A segment
    without a predecessor is one; else the chain goes on with the predecessor that is supplied or
    resolved. -/
inductive Chain (resolvers : Resolvers) : Option ArchiveSegment → ArchiveSegment →
    List ArchiveSegment → Prop
  | genesis {supplied : Option ArchiveSegment} {segment : ArchiveSegment}
      (hfirst : segment.previousSegmentHash = none) : Chain resolvers supplied segment [segment]
  | next {supplied : Option ArchiveSegment} {segment previous : ArchiveSegment}
      {previousHash : String} {chain : List ArchiveSegment}
      (hhash : segment.previousSegmentHash = some previousHash)
      (hprevious : supplied.or (resolvers.previousSegment.bind fun resolve => resolve previousHash)
        = some previous)
      (hchain : Chain resolvers none previous chain) :
      Chain resolvers supplied segment (chain ++ [segment])

theorem initialState_of_checkpointCoreFromState {crypto : Crypto} {tokenId genesisHash : String}
    {state : BaseState} {previous : Option String} {networkId : Int} {core : CheckpointCore}
    (h : CheckpointCore.checkpointCoreFromState crypto tokenId genesisHash state previous networkId
      = .ok core) : core.initialState = state := by
  simp only [CheckpointCore.checkpointCoreFromState, Check.bind_eq_ok, Check.pure_eq_ok] at h
  obtain ⟨_, -, _, -, _, -, _, -, rfl⟩ := h
  rfl

/-- The transfers of a derived segment lead from its base state to the state of its core. -/
theorem Derives.history {segment : ArchiveSegment} {expectedNetworkId : Option Int}
    {core : CheckpointCore} (h : Derives node segment expectedNetworkId now clock core) :
    SpendHistory node.crypto segment.networkId now clock segment.baseState segment.transfers
        core.initialState ∧ segment.value = core.value ∧ segment.displayId = core.displayId := by
  have hderived := h.derived
  simp only [deriveCheckpoint, BaseState.verifyTransferSequenceFromState,
    BaseState.replayTransferSequenceFromState, Check.bind_eq_ok, Check.require_eq_ok,
    currentTime_eq_ok, Check.pure_eq_ok] at hderived
  obtain ⟨_, -, final, ⟨_, -, _, ⟨-, rfl⟩, hreplay⟩, _, -, _, hvalue, _, hdisplay, _, hcore, _, -, rfl⟩ :=
    hderived
  have hstate := initialState_of_checkpointCoreFromState hcore
  rw [hstate]
  refine ⟨.of_replay hreplay, ?_, ?_⟩
  · rw [← hvalue, ← hstate]
    rfl
  · rw [← hdisplay, ← hstate]
    rfl

/-- A verified segment with a predecessor: the predecessor is verified on the same network, and the
    segment starts from its core. -/
theorem previous_of_verify {fuel : Nat} {segment previous : ArchiveSegment}
    {expectedNetworkId : Option Int} {supplied : Option ArchiveSegment} {core : CheckpointCore}
    {previousHash : String}
    (h : verifyArchiveSegment node now clock resolvers fuel segment expectedNetworkId supplied = .ok core)
    (hhash : segment.previousSegmentHash = some previousHash)
    (hprevious : supplied.or (resolvers.previousSegment.bind fun resolve => resolve previousHash)
      = some previous) :
    ∃ fuel' previousCore, verifyArchiveSegment node now clock resolvers fuel' previous
        (some segment.networkId) none = .ok previousCore ∧
      archiveSegmentHashHex node previous clock = .ok previousHash ∧
      segment.previousCheckpointHash = some previousCore.checkpointHash ∧
      segment.baseState = previousCore.initialState := by
  cases fuel with
  | zero => exact nomatch h
  | succ fuel =>
    unfold verifyArchiveSegment at h
    obtain ⟨networkId, hheader, h⟩ := Check.bind_eq_ok.1 h
    obtain ⟨_, -, h⟩ := Check.bind_eq_ok.1 h
    obtain ⟨_, -, h⟩ := Check.bind_eq_ok.1 h
    have hbase := (Check.check_bind_eq_ok.1 h).1
    obtain rfl := validateHeader_eq_networkId hheader
    simp only [checkBase, hhash, hprevious, previousCore, Check.bind_eq_ok, Check.require_eq_ok,
      Check.pure_eq_ok] at hbase
    obtain ⟨_, ⟨previousCore, hverify, _, hsame, _, rfl, _, hcheckpoint, rfl⟩, hstate⟩ := hbase
    exact ⟨fuel, previousCore, hverify, hsame, hcheckpoint, hstate⟩

/-- What a verified chain establishes: it starts with a genesis segment and its transfers lead to the
    state of the derived core. -/
structure Rooted (node : Node) (networkId now clock : Int) (core : CheckpointCore)
    (chain : List ArchiveSegment) (root : ArchiveSegment) : Prop where
  head_eq : chain.head? = some root
  base_valid : root.baseState.Valid node.crypto
  sequence_eq : root.baseState.sequence = 0
  lastTransferHash_eq : root.baseState.lastTransferHash = root.genesisRef.genesisHash
  history : SpendHistory node.crypto networkId now clock root.baseState
    (chain.flatMap (·.transfers)) core.initialState
  value_eq : ∀ segment ∈ chain, segment.value = core.value ∧ segment.displayId = core.displayId

theorem rooted_of_verify {fuel : Nat} {segment : ArchiveSegment} {expectedNetworkId : Option Int}
    {supplied : Option ArchiveSegment} {core : CheckpointCore} {chain : List ArchiveSegment}
    (h : verifyArchiveSegment node now clock resolvers fuel segment expectedNetworkId supplied = .ok core)
    (hchain : Chain resolvers supplied segment chain) :
    ∃ root, Rooted node segment.networkId now clock core chain root := by
  induction hchain generalizing fuel expectedNetworkId core with
  | @genesis _ segment hfirst =>
    have hderives := Derives.of_verify h
    obtain ⟨hhistory, hvalue⟩ := hderives.history
    obtain ⟨hbase, -⟩ := hderives.replay
    have hgenesis := checkGenesisBase_of_verify h hfirst
    simp only [checkGenesisBase, Check.bind_eq_ok, Check.require_eq_ok, exists_const] at hgenesis
    obtain ⟨-, hsequence, hlast⟩ := hgenesis
    refine ⟨segment, rfl, hbase, hsequence, hlast, ?_, fun s hs => ?_⟩
    · rw [List.flatMap_singleton]
      exact hhistory
    · rw [List.mem_singleton.1 hs]
      exact hvalue
  | @next _ segment previous previousHash chain hhash hprevious _ ih =>
    obtain ⟨fuel', previousCore, hverify, -, -, hstate⟩ := previous_of_verify h hhash hprevious
    obtain ⟨root, hroot⟩ := ih hverify
    obtain ⟨hhistory, hvalue⟩ := (Derives.of_verify h).history
    have hnetwork : previous.networkId = segment.networkId :=
      (HeaderValid.of_validate (Derives.of_verify hverify).header).networkId_eq _ rfl
    have hrest := hroot.history
    rw [hnetwork] at hrest
    rw [hstate] at hhistory
    have hsame := hhistory.value_eq
    refine ⟨root, ?_, hroot.base_valid, hroot.sequence_eq, hroot.lastTransferHash_eq, ?_, fun s hs => ?_⟩
    · rw [List.head?_append, hroot.head_eq, Option.some_or]
    · rw [List.flatMap_append, List.flatMap_singleton]
      exact hrest.append hhistory
    · rcases List.mem_append.1 hs with hs | hs
      · obtain ⟨hv, hd⟩ := hroot.value_eq s hs
        exact ⟨hv.trans hsame.1.symm, hd.trans hsame.2.symm⟩
      · rw [List.mem_singleton.1 hs]
        exact hvalue

end ArchiveSegment
