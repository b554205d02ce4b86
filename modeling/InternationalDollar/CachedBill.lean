import InternationalDollar.Compaction
import InternationalDollar.WireRoundTrip

set_option autoImplicit false

/-! # Cached bills (`protocol_v3._verify_bill_state`, `cached_bill_state`, `create_transfer*`)

A wallet spends a bill in one of two ways. The full path verifies the proof bundle and every signature
before and after it appends the transfer. The cached path trusts the stored bill: it skips the bundle
and the signatures, and replays the new transfer alone. **On a bill that the full path accepts the two
are one**: same state, same new bill, same token state, and they fail together.

The checks of the proof bundle are a parameter, any two functions of the bundle: the cached path never
calls them, and the full path calls them with the same arguments before and after. -/

/-- The checks of `proof_bundle_v3` that a bill is verified with. -/
structure ProofChecks (ProofBundle : Type) where
  verifyProofBundleRef : ProofBundleRef → ProofBundle → Int → Except String Unit
  verifyProofBundle : ProofBundle → String → Int → Except String CheckpointCore

/-- Where the caller has its proof bundles from. -/
structure BundleSource (ProofBundle : Type) where
  proofBundle : Option ProofBundle
  proofBundleResolver : Option (String → Option ProofBundle)

/-- `TokenState`. -/
structure TokenState where
  tokenId : String
  ownerAddress : String
  lastTransferHash : String
  sequence : Int
  displayId : String
  value : Int
deriving DecidableEq

/-- `_token_state_from_v3_state`. -/
def BaseState.tokenStateFromV3State (tokenId : String) (state : BaseState) : TokenState where
  tokenId := tokenId
  ownerAddress := state.ownerAddress
  lastTransferHash := state.lastTransferHash
  sequence := state.sequence
  displayId := state.displayId
  value := state.value

namespace CheckpointCore

/-- The fields in which two cores differ, apart from type, version and network id. -/
def differingFields (core expected : CheckpointCore) : List String :=
  [("token_id", decide (core.tokenId = expected.tokenId)),
    ("genesis_hash", decide (core.genesisHash = expected.genesisHash)),
    ("sequence", decide (core.sequence = expected.sequence)),
    ("owner_address", decide (core.ownerAddress = expected.ownerAddress)),
    ("value", decide (core.value = expected.value)),
    ("display_id", decide (core.displayId = expected.displayId)),
    ("display_id_hash", decide (core.displayIdHash = expected.displayIdHash)),
    ("last_transfer_hash", decide (core.lastTransferHash = expected.lastTransferHash)),
    ("last_transfer_timestamp", decide (core.lastTransferTimestamp = expected.lastTransferTimestamp)),
    ("last_transfer_day", decide (core.lastTransferDay = expected.lastTransferDay)),
    ("transfers_in_last_day", decide (core.transfersInLastDay = expected.transfersInLastDay)),
    ("previous_checkpoint_hash",
      decide (core.previousCheckpointHash = expected.previousCheckpointHash)),
    ("checkpoint_hash", decide (core.checkpointHash = expected.checkpointHash))].filterMap
      (fun field => if field.2 then none else some field.1)

/-- `_checkpoint_matches_core`. Which of several differing fields the error names is not specified in
    the source, which iterates over a set. -/
def checkpointMatchesCore (checkpoint core : CheckpointCore) : Except String Unit := do
  Check.require (checkpoint.type = checkpointCoreType)
    "ProofBundleV3 did not prove a CheckpointCoreV3"
  match differingFields core checkpoint with
  | [] => pure ()
  | field :: _ => .error ("CheckpointCoreV3 does not match proof bundle: " ++ field)

/-- A core that matches a checkpoint has its token id and its genesis hash. -/
theorem eq_of_checkpointMatchesCore {checkpoint core : CheckpointCore}
    (h : checkpointMatchesCore checkpoint core = .ok ()) :
    core.tokenId = checkpoint.tokenId ∧ core.genesisHash = checkpoint.genesisHash := by
  unfold checkpointMatchesCore at h
  obtain ⟨-, h⟩ := Check.check_bind_eq_ok.1 h
  cases hfields : differingFields core checkpoint with
  | cons field rest =>
    rw [hfields] at h
    exact nomatch h
  | nil =>
    rw [differingFields, List.filterMap_eq_nil_iff] at hfields
    have htoken := hfields ("token_id", _) List.mem_cons_self
    have hgenesis := hfields ("genesis_hash", _) (List.mem_cons_of_mem _ List.mem_cons_self)
    simp only [ite_eq_left_iff, reduceCtorEq, imp_false, not_not, decide_eq_true_eq]
      at htoken hgenesis
    exact ⟨htoken, hgenesis⟩

end CheckpointCore

namespace BaseState

/-- `metadata or {}`. -/
def metadataOrEmpty (metadata : Json) : Json :=
  match metadata with
  | .null => .obj []
  | .bool false => .obj []
  | .int 0 => .obj []
  | .str "" => .obj []
  | .arr [] => .obj []
  | metadata => metadata

/-- `create_transfer_from_state` with `verify_signature=False`: the signature is made without being
    verified, and the signed transfer is only looked at for its shape. -/
def createTransferUnverified (crypto : Crypto) (tokenId : String) (state : BaseState)
    (senderPrivateKey senderPublicKey recipientAddress : String) (metadata : Json)
    (timestamp networkId clock : Int) : Except String Transfer := do
  validateBaseState crypto state
  let senderAddress ← decodePublicKey senderPublicKey >>= addressFromPublicKey crypto
  Check.require (senderAddress = state.ownerAddress) "TransferV3 sender key is not the current owner"
  let recipient ← validateAddress crypto recipientAddress "TransferV3 recipient address"
  let unsigned := unsignedTransfer tokenId state senderAddress senderPublicKey recipient metadata
    timestamp networkId
  Transfer.validateTransferShape crypto unsigned networkId false clock
  let preimage ← Transfer.transferSigningPreimage crypto unsigned clock
  let seed ← decodePrivateKey senderPrivateKey
  let signed := { unsigned with signature := Text.hex (crypto.sign seed preimage) }
  Transfer.validateTransferShape crypto signed networkId true clock
  pure signed

end BaseState

namespace BillV3

/-- The checks of header, genesis reference, core, value and display id that `_verify_bill_state` and
    `cached_bill_state` share. -/
def validateHeader (node : Node) (bill : BillV3) (expectedNetworkId : Option Int) :
    Except String Unit := do
  Check.require (bill.type = billType) "malformed BillV3"
  Check.require (bill.version = 3) "unsupported BillV3 version"
  requireMin bill.networkId 0 "BillV3 network id"
  Check.require (∀ expected ∈ expectedNetworkId, bill.networkId = expected)
    "BillV3 network id mismatch"
  GenesisRef.validateGenesisRef node.toNodePolicy bill.genesisRef bill.networkId
  CheckpointCore.validateCheckpointCore node.crypto bill.checkpointCore bill.networkId
  let value ← validateBillValue bill.value "BillV3 value"
  Check.require (value = bill.checkpointCore.value) "BillV3 value mismatch"
  let _ ← validateDisplayIdIssueIndex node.crypto bill.checkpointCore.displayId value
    bill.genesisRef.issueIndex "BillV3 display id"

section Verify

variable {ProofBundle : Type}

/-- The checks of `_verify_bill_state` that anchor the core in a proof bundle. -/
def verifyAnchor (checks : ProofChecks ProofBundle) (bundles : BundleSource ProofBundle)
    (bill : BillV3) : Except String Unit := do
  let bundle ← Check.ofOption (bundles.proofBundle.or
      (bundles.proofBundleResolver.bind (fun resolve => resolve bill.proofBundleRef.proofBundleHash)))
    "BillV3 proof bundle is required"
  checks.verifyProofBundleRef bill.proofBundleRef bundle bill.networkId
  let checkpoint ← checks.verifyProofBundle bundle bill.checkpointCore.checkpointHash bill.networkId
  CheckpointCore.checkpointMatchesCore checkpoint bill.checkpointCore
  Check.require (bill.tokenId = checkpoint.tokenId) "BillV3 token id mismatch"
  Check.require (bill.genesisRef.genesisHash = checkpoint.genesisHash) "BillV3 genesis hash mismatch"

/-- `_verify_bill_state`. -/
def verifyBillState (node : Node) (checks : ProofChecks ProofBundle)
    (bundles : BundleSource ProofBundle) (bill : BillV3) (expectedNetworkId : Option Int)
    (now clock : Int) : Except String BaseState := do
  validateHeader node bill expectedNetworkId
  verifyAnchor checks bundles bill
  BaseState.verifyTransferSequenceFromState node.crypto bill.tokenId bill.checkpointCore.initialState
    bill.recentTransfers bill.networkId now clock

/-- `verify_bill`. -/
def verifyBill (node : Node) (checks : ProofChecks ProofBundle) (bundles : BundleSource ProofBundle)
    (bill : BillV3) (expectedNetworkId : Option Int) (now clock : Int) : Except String TokenState := do
  let state ← verifyBillState node checks bundles bill expectedNetworkId now clock
  pure (state.tokenStateFromV3State bill.tokenId)

end Verify

/-- `cached_bill_state`. -/
def cachedBillState (node : Node) (bill : BillV3) (expectedNetworkId : Option Int)
    (now clock : Int) : Except String BaseState := do
  validateHeader node bill expectedNetworkId
  Check.require (bill.tokenId = bill.checkpointCore.tokenId) "BillV3 token id mismatch"
  Check.require (bill.genesisRef.genesisHash = bill.checkpointCore.genesisHash)
    "BillV3 genesis hash mismatch"
  BaseState.replayTransferSequenceFromState node.crypto bill.tokenId bill.checkpointCore.initialState
    bill.recentTransfers bill.networkId now clock false

/-- The bill with one more transfer. -/
def append (bill : BillV3) (t : Transfer) : BillV3 :=
  { bill with recentTransfers := bill.recentTransfers ++ [t] }

/-- `create_transfer`. Without a timestamp the transfer is dated now. -/
def createTransfer {ProofBundle : Type} (node : Node) (checks : ProofChecks ProofBundle)
    (bundles : BundleSource ProofBundle) (bill : BillV3)
    (senderPrivateKey senderPublicKey recipientAddress : String) (metadata : Json)
    (timestamp expectedNetworkId : Option Int) (clock : Int) : Except String BillV3 := do
  let state ← verifyBillState node checks bundles bill expectedNetworkId clock clock
  let transfer ← state.createTransferFromState node.crypto bill.tokenId senderPrivateKey
    senderPublicKey recipientAddress (BaseState.metadataOrEmpty metadata) (timestamp.getD clock)
    bill.networkId clock
  let _ ← verifyBillState node checks bundles (bill.append transfer) expectedNetworkId clock clock
  pure (bill.append transfer)

/-- `cached_state or cached_bill_state(...)`. -/
def stateOrCached (node : Node) (bill : BillV3) (expectedNetworkId : Option Int)
    (cachedState : Option BaseState) (clock : Int) : Except String BaseState :=
  match cachedState with
  | some state => .ok state
  | none => cachedBillState node bill expectedNetworkId clock clock

/-- `create_transfer_from_cached_bill`. -/
def createTransferFromCachedBill (node : Node) (bill : BillV3)
    (senderPrivateKey senderPublicKey recipientAddress : String) (metadata : Json)
    (timestamp expectedNetworkId : Option Int) (cachedState : Option BaseState) (clock : Int) :
    Except String (BillV3 × TokenState) := do
  let state ← stateOrCached node bill expectedNetworkId cachedState clock
  let transfer ← state.createTransferUnverified node.crypto bill.tokenId senderPrivateKey
    senderPublicKey recipientAddress (BaseState.metadataOrEmpty metadata) (timestamp.getD clock)
    bill.networkId clock
  let next ← BaseState.replayTransferSequenceFromState node.crypto bill.tokenId state [transfer]
    bill.networkId clock clock false
  pure (bill.append transfer, next.tokenStateFromV3State bill.tokenId)

end BillV3

/-! ## Replays without signatures -/

namespace BaseState

variable {crypto : Crypto} {tokenId : String} {networkId now clock : Int} {state final : BaseState}

/-- A verified signature is made with the key of the sender address. -/
theorem publicKeyMatchesAddress_of_verify {t : Transfer}
    (h : t.verifyTransferSignature crypto clock = .ok ()) :
    publicKeyMatchesAddress crypto t.senderPublicKey t.senderAddress = true := by
  unfold Transfer.verifyTransferSignature at h
  exact Check.require_eq_ok.1 (Check.check_bind_eq_ok.1 h).1

/-- A round that verifies the signature is the round that does not, and the signature. -/
theorem replayTransfer_verified {next : BaseState} {t : Transfer} :
    replayTransfer crypto tokenId networkId now clock true state t = .ok next ↔
      t.verifyTransferSignature crypto clock = .ok () ∧
        replayTransfer crypto tokenId networkId now clock false state t = .ok next := by
  simp only [replayTransfer, Check.check_bind_eq_ok, if_true, Bool.false_eq_true, if_false,
    Check.require_eq_ok]
  constructor
  · rintro ⟨h1, h2, h3, h4, h5, h6, h7, h8, h9, hsignature, hhash⟩
    exact ⟨hsignature, h1, h2, h3, h4, h5, h6, h7, h8, h9,
      publicKeyMatchesAddress_of_verify hsignature, hhash⟩
  · rintro ⟨hsignature, h1, h2, h3, h4, h5, h6, h7, h8, h9, -, hhash⟩
    exact ⟨h1, h2, h3, h4, h5, h6, h7, h8, h9, hsignature, hhash⟩

/-- What is accepted with signatures is accepted without them, with the same end. -/
theorem replayTransfers_unverified {transfers : List Transfer}
    (h : replayTransfers crypto tokenId networkId now clock true state transfers = .ok final) :
    replayTransfers crypto tokenId networkId now clock false state transfers = .ok final := by
  induction transfers generalizing state with
  | nil => exact h
  | cons t rest ih =>
    obtain ⟨next, hnext, hrest⟩ := Check.bind_eq_ok.1 h
    exact Check.bind_eq_ok.2 ⟨next, (replayTransfer_verified.1 hnext).2, ih hrest⟩

/-- A replay of a single transfer. -/
theorem replaySingle_eq_ok {t : Transfer} {verifySignatures : Bool} :
    replayTransferSequenceFromState crypto tokenId state [t] networkId now clock verifySignatures
        = .ok final ↔
      state.Valid crypto ∧ (0 ≤ now ∧ now ≤ maxProtocolTimestamp) ∧
        replayTransfer crypto tokenId networkId now clock verifySignatures state t = .ok final := by
  simp only [replayTransferSequenceFromState, replayTransfers, Check.bind_eq_ok,
    validateBaseState_eq_ok, currentTime_eq_ok, exists_const, Except.ok.injEq, exists_eq_right]
  constructor
  · rintro ⟨hstate, _, ⟨hnow, rfl⟩, hreplay⟩
    exact ⟨hstate, hnow, hreplay⟩
  · rintro ⟨hstate, hnow, hreplay⟩
    exact ⟨hstate, now, ⟨hnow, rfl⟩, hreplay⟩

/-! ## Signing without verifying -/

/-- A transfer that the holder of the key signs is verified under the public key. -/
theorem verifyTransferSignature_sign {t : Transfer} {seed preimage : Bytes} {address : String}
    (hseed : seed.length = 32)
    (hkey : decodePublicKey t.senderPublicKey = .ok (crypto.publicKeyFromSeed seed))
    (haddress : addressFromPublicKey crypto (crypto.publicKeyFromSeed seed) = .ok address)
    (hsender : t.senderAddress = address)
    (hpreimage : t.transferSigningPreimage crypto clock = .ok preimage) :
    Transfer.verifyTransferSignature crypto
      { t with signature := Text.hex (crypto.sign seed preimage) } clock = .ok () := by
  obtain ⟨derived, hderived, hvalid⟩ :=
    exists_addressFromPublicKey crypto (crypto.publicKeyFromSeed seed)
  obtain rfl : derived = address := Except.ok.inj (hderived.symm.trans haddress)
  have hmatches : publicKeyMatchesAddress crypto t.senderPublicKey t.senderAddress = true := by
    have hboth : (decodePublicKey t.senderPublicKey >>= addressFromPublicKey crypto) = .ok derived :=
      Check.bind_eq_ok.2 ⟨_, hkey, haddress⟩
    simp [publicKeyMatchesAddress, hboth, hsender, hvalid]
  have hverify : verifyKeySignature crypto t.senderPublicKey (crypto.sign seed preimage) preimage
      = .ok true := by
    simp [verifyKeySignature, hkey, crypto.length_sign, crypto.verify_sign _ _ hseed]
  unfold Transfer.verifyTransferSignature
  exact Check.check_bind_eq_ok.2 ⟨Check.require_of hmatches _,
    Check.bind_eq_ok.2 ⟨_, Check.ofOption_eq_ok.2 (Text.fromhex_hex _),
    Check.bind_eq_ok.2 ⟨_, hpreimage,
    Check.bind_eq_ok.2 ⟨_, hverify, Check.require_of rfl _⟩⟩⟩⟩

/-- A signature of the right length completes the shape of an unsigned transfer. -/
theorem validateTransferShape_signed {t : Transfer} {seed preimage : Bytes}
    (h : t.validateTransferShape crypto networkId false clock = .ok ()) :
    Transfer.validateTransferShape crypto
      { t with signature := Text.hex (crypto.sign seed preimage) } networkId true clock = .ok () := by
  have hsignature : Transfer.signatureBytes (Text.hex (crypto.sign seed preimage))
      = .ok (crypto.sign seed preimage) := by
    simp [Transfer.signatureBytes, Text.fromhex_hex, crypto.length_sign]
  exact Transfer.validateTransferShape_eq_ok.2
    { Transfer.validateTransferShape_eq_ok.1 h with
      signature_valid := fun _ => ⟨_, hsignature⟩ }

theorem length_of_decodePrivateKey {text : String} {seed : Bytes}
    (h : decodePrivateKey text = .ok seed) : seed.length = 32 := by
  simp only [decodePrivateKey, b85DecodeText, Check.bind_eq_ok, Check.require_eq_ok,
    Check.pure_eq_ok] at h
  obtain ⟨_, -, _, -, _, -, _, hlength, rfl⟩ := h
  exact hlength

section Created

variable {privateKey publicKey : String} {seed : Bytes}

/-- **With a matching key pair, verifying the new signature changes nothing.** -/
theorem createTransfer_verified (hprivate : decodePrivateKey privateKey = .ok seed)
    (hpublic : decodePublicKey publicKey = .ok (crypto.publicKeyFromSeed seed))
    (recipient : String) (metadata : Json) (timestamp : Int) (t : Transfer) :
    state.createTransferFromState crypto tokenId privateKey publicKey recipient metadata timestamp
        networkId clock = .ok t ↔
      state.createTransferUnverified crypto tokenId privateKey publicKey recipient metadata timestamp
        networkId clock = .ok t := by
  have hseed := length_of_decodePrivateKey hprivate
  obtain ⟨address, haddress, -⟩ :=
    exists_addressFromPublicKey crypto (crypto.publicKeyFromSeed seed)
  have hsign : ∀ message, signWithKey crypto privateKey message = .ok (crypto.sign seed message) :=
    fun message => by simp [signWithKey, hprivate, crypto.verify_sign seed message hseed]
  have hboth : (decodePublicKey publicKey >>= addressFromPublicKey crypto) = .ok address :=
    Check.bind_eq_ok.2 ⟨_, hpublic, haddress⟩
  simp only [createTransferFromState, createTransferUnverified, hboth, hsign, hprivate,
    Check.ok_bind, Check.bind_eq_ok]
  constructor
  · rintro ⟨_, hstate, _, howner, _, hrecipient, _, hshape, preimage, hpreimage, _, -, ht⟩
    exact ⟨_, hstate, _, howner, _, hrecipient, _, hshape, preimage, hpreimage, (),
      validateTransferShape_signed hshape, ht⟩
  · rintro ⟨_, hstate, _, howner, _, hrecipient, _, hshape, preimage, hpreimage, _, -, ht⟩
    exact ⟨_, hstate, _, howner, _, hrecipient, _, hshape, preimage, hpreimage, (),
      verifyTransferSignature_sign hseed hpublic haddress rfl hpreimage, ht⟩

/-- The holder of the key signs a transfer that passes the signature check. -/
theorem verifyTransferSignature_of_create {recipient : String} {metadata : Json} {timestamp : Int}
    {t : Transfer}
    (h : state.createTransferFromState crypto tokenId privateKey publicKey recipient metadata timestamp
      networkId clock = .ok t) : t.verifyTransferSignature crypto clock = .ok () := by
  simp only [createTransferFromState, Check.bind_eq_ok, Check.pure_eq_ok] at h
  obtain ⟨_, -, _, -, _, -, _, -, _, -, _, -, _, -, _, hverify, rfl⟩ := h
  exact hverify

end Created

end BaseState

/-! ## The two paths -/

namespace BillV3

variable {ProofBundle : Type} {node : Node} {checks : ProofChecks ProofBundle}
  {bundles : BundleSource ProofBundle} {bill : BillV3} {expectedNetworkId : Option Int}
  {now clock : Int} {state : BaseState}

/-- A bill that is anchored in a bundle carries the token id and genesis hash of its core. -/
theorem ids_of_verifyAnchor (h : verifyAnchor checks bundles bill = .ok ()) :
    bill.tokenId = bill.checkpointCore.tokenId ∧
      bill.genesisRef.genesisHash = bill.checkpointCore.genesisHash := by
  simp only [verifyAnchor, Check.bind_eq_ok, Check.require_eq_ok] at h
  obtain ⟨bundle, -, _, -, checkpoint, -, _, hmatches, _, htoken, hgenesis⟩ := h
  obtain ⟨htoken', hgenesis'⟩ := CheckpointCore.eq_of_checkpointMatchesCore hmatches
  exact ⟨htoken.trans htoken'.symm, hgenesis.trans hgenesis'.symm⟩

theorem verifyBillState_eq_ok :
    verifyBillState node checks bundles bill expectedNetworkId now clock = .ok state ↔
      validateHeader node bill expectedNetworkId = .ok () ∧ verifyAnchor checks bundles bill = .ok () ∧
        BaseState.verifyTransferSequenceFromState node.crypto bill.tokenId
          bill.checkpointCore.initialState bill.recentTransfers bill.networkId now clock
            = .ok state := by
  rw [verifyBillState, Check.check_bind_eq_ok, Check.check_bind_eq_ok]

/-- **The cached state of a verified bill is its verified state.** -/
theorem cachedBillState_of_verify
    (h : verifyBillState node checks bundles bill expectedNetworkId now clock = .ok state) :
    cachedBillState node bill expectedNetworkId now clock = .ok state := by
  obtain ⟨hheader, hanchor, hreplay⟩ := verifyBillState_eq_ok.1 h
  obtain ⟨htoken, hgenesis⟩ := ids_of_verifyAnchor hanchor
  obtain ⟨hinitial, hnow, hreplay⟩ := BaseState.verifyTransferSequence_eq_ok.1 hreplay
  unfold cachedBillState BaseState.replayTransferSequenceFromState
  exact Check.check_bind_eq_ok.2 ⟨hheader, Check.check_bind_eq_ok.2 ⟨Check.require_of htoken _,
    Check.check_bind_eq_ok.2 ⟨Check.require_of hgenesis _,
    Check.check_bind_eq_ok.2 ⟨BaseState.validateBaseState_eq_ok.2 hinitial,
    Check.bind_eq_ok.2 ⟨now, currentTime_eq_ok.2 ⟨hnow, rfl⟩,
      BaseState.replayTransfers_unverified hreplay⟩⟩⟩⟩⟩

/-- **One more transfer is verified with the bill exactly when it spends the state of the bill.** The
    header and the anchor do not look at the recent transfers. -/
theorem verifyBillState_append {t : Transfer} {next : BaseState}
    (h : verifyBillState node checks bundles bill expectedNetworkId now clock = .ok state) :
    verifyBillState node checks bundles (bill.append t) expectedNetworkId now clock = .ok next ↔
      BaseState.replayTransfer node.crypto bill.tokenId bill.networkId now clock true state t
        = .ok next := by
  obtain ⟨hheader, hanchor, hreplay⟩ := verifyBillState_eq_ok.1 h
  obtain ⟨hinitial, hnow, hreplay⟩ := BaseState.verifyTransferSequence_eq_ok.1 hreplay
  have hheader' : validateHeader node (bill.append t) expectedNetworkId = .ok () := hheader
  have hanchor' : verifyAnchor checks bundles (bill.append t) = .ok () := hanchor
  rw [verifyBillState_eq_ok, BaseState.verifyTransferSequence_eq_ok]
  simp only [hheader', hanchor', true_and]
  change _ ∧ _ ∧ BaseState.replayTransfers _ _ _ _ _ _ _ (bill.recentTransfers ++ [t]) = _ ↔ _
  rw [BaseState.replayTransfers_append]
  constructor
  · rintro ⟨-, -, mid, hmid, hlast⟩
    obtain rfl : mid = state := Except.ok.inj (hmid.symm.trans hreplay)
    obtain ⟨next', hnext, hnil⟩ := Check.bind_eq_ok.1 hlast
    cases hnil
    exact hnext
  · intro hnext
    exact ⟨hinitial, hnow, state, hreplay, Check.bind_eq_ok.2 ⟨next, hnext, rfl⟩⟩

section Spend

variable {privateKey publicKey recipient : String} {metadata : Json}
  {timestamp : Option Int} {cachedState : Option BaseState}

/-- What the full path returns: the bill with a transfer that its key signs and its state allows. -/
theorem createTransfer_eq_ok {new : BillV3}
    (h : verifyBillState node checks bundles bill expectedNetworkId clock clock = .ok state) :
    createTransfer node checks bundles bill privateKey publicKey recipient metadata timestamp
        expectedNetworkId clock = .ok new ↔
      ∃ t next, state.createTransferFromState node.crypto bill.tokenId privateKey publicKey recipient
          (BaseState.metadataOrEmpty metadata) (timestamp.getD clock) bill.networkId clock = .ok t ∧
        BaseState.replayTransfer node.crypto bill.tokenId bill.networkId clock clock true state t
          = .ok next ∧ new = bill.append t := by
  simp only [createTransfer, h, Check.ok_bind, Check.bind_eq_ok, Check.pure_eq_ok,
    verifyBillState_append h]
  constructor
  · rintro ⟨t, ht, next, hnext, rfl⟩
    exact ⟨t, next, ht, hnext, rfl⟩
  · rintro ⟨t, next, ht, hnext, rfl⟩
    exact ⟨t, ht, next, hnext, rfl⟩

/-- What the cached path returns from the state of the bill. -/
theorem createTransferFromCachedBill_eq_ok {new : BillV3} {token : TokenState}
    (h : cachedBillState node bill expectedNetworkId clock clock = .ok state)
    (hcached : cachedState = none ∨ cachedState = some state)
    (hvalid : state.Valid node.crypto) (hclock : 0 ≤ clock ∧ clock ≤ maxProtocolTimestamp) :
    createTransferFromCachedBill node bill privateKey publicKey recipient metadata timestamp
        expectedNetworkId cachedState clock = .ok (new, token) ↔
      ∃ t next, state.createTransferUnverified node.crypto bill.tokenId privateKey publicKey recipient
          (BaseState.metadataOrEmpty metadata) (timestamp.getD clock) bill.networkId clock = .ok t ∧
        BaseState.replayTransfer node.crypto bill.tokenId bill.networkId clock clock false state t
          = .ok next ∧ new = bill.append t ∧ token = next.tokenStateFromV3State bill.tokenId := by
  have hstate : stateOrCached node bill expectedNetworkId cachedState clock = .ok state := by
    rcases hcached with rfl | rfl
    · exact h
    · rfl
  simp only [createTransferFromCachedBill, hstate, Check.ok_bind, Check.bind_eq_ok, Check.pure_eq_ok,
    BaseState.replaySingle_eq_ok, Prod.mk.injEq]
  constructor
  · rintro ⟨t, ht, next, ⟨-, -, hnext⟩, rfl, rfl⟩
    exact ⟨t, next, ht, hnext, rfl, rfl⟩
  · rintro ⟨t, next, ht, hnext, rfl, rfl⟩
    exact ⟨t, ht, next, ⟨hvalid, hclock, hnext⟩, rfl, rfl⟩

end Spend

/-- A private and a public key text of one seed. -/
def MatchingKeys (crypto : Crypto) (privateKey publicKey : String) : Prop :=
  ∃ seed, decodePrivateKey privateKey = .ok seed ∧
    decodePublicKey publicKey = .ok (crypto.publicKeyFromSeed seed)

/-- **The cached spend path agrees with the verified one.** The cached state is the verified state, and
    the holder of any key pair creates the same bill on both paths or on neither; the token state that
    the cached path reports is the one that verifying the new bill reports. -/
theorem cachedSpend_agrees {ProofBundle : Type} (node : Node) (checks : ProofChecks ProofBundle)
    (bundles : BundleSource ProofBundle) (bill : BillV3) (expectedNetworkId : Option Int)
    (clock : Int) :
    (∀ now state, verifyBillState node checks bundles bill expectedNetworkId now clock = .ok state →
      cachedBillState node bill expectedNetworkId now clock = .ok state) ∧
    ∀ state, verifyBillState node checks bundles bill expectedNetworkId clock clock = .ok state →
      ∀ privateKey publicKey, MatchingKeys node.crypto privateKey publicKey →
      ∀ recipient metadata timestamp cachedState, cachedState = none ∨ cachedState = some state →
        (∀ new,
          createTransfer node checks bundles bill privateKey publicKey recipient metadata timestamp
              expectedNetworkId clock = .ok new ↔
            ∃ token, createTransferFromCachedBill node bill privateKey publicKey recipient metadata
              timestamp expectedNetworkId cachedState clock = .ok (new, token)) ∧
        ∀ new token,
          createTransferFromCachedBill node bill privateKey publicKey recipient metadata timestamp
              expectedNetworkId cachedState clock = .ok (new, token) →
            verifyBill node checks bundles new expectedNetworkId clock clock = .ok token := by
  refine ⟨fun now state h => cachedBillState_of_verify h, ?_⟩
  intro state h privateKey publicKey ⟨seed, hprivate, hpublic⟩ recipient metadata timestamp
    cachedState hcached
  have hfull := fun new => @createTransfer_eq_ok _ node checks bundles bill expectedNetworkId clock
    state privateKey publicKey recipient metadata timestamp new h
  obtain ⟨hinitial, hclock, hreplay⟩ :=
    BaseState.verifyTransferSequence_eq_ok.1 (verifyBillState_eq_ok.1 h).2.2
  have hvalid := (BaseState.replayed_of_replayTransfers hinitial hreplay).valid
  have hshort := fun new token => @createTransferFromCachedBill_eq_ok node bill expectedNetworkId
    clock state privateKey publicKey recipient metadata timestamp cachedState new token
    (cachedBillState_of_verify h) hcached hvalid hclock
  have hcreate := @BaseState.createTransfer_verified node.crypto bill.tokenId
    bill.networkId clock state privateKey publicKey seed hprivate hpublic recipient
  -- The new signature is valid, so the two replays of the new transfer are one.
  have hround : ∀ t next, state.createTransferUnverified node.crypto bill.tokenId privateKey publicKey
        recipient (BaseState.metadataOrEmpty metadata) (timestamp.getD clock) bill.networkId clock
          = .ok t →
      (BaseState.replayTransfer node.crypto bill.tokenId bill.networkId clock clock true state t
          = .ok next ↔
        BaseState.replayTransfer node.crypto bill.tokenId bill.networkId clock clock false state t
          = .ok next) := by
    intro t next ht
    have hsignature := BaseState.verifyTransferSignature_of_create ((hcreate _ _ t).2 ht)
    rw [BaseState.replayTransfer_verified, and_iff_right hsignature]
  refine ⟨fun new => ?_, fun new token hnew => ?_⟩
  · rw [hfull]
    constructor
    · rintro ⟨t, next, ht, hnext, hnew⟩
      have ht' := (hcreate _ _ t).1 ht
      exact ⟨_, (hshort _ _).2 ⟨t, next, ht', (hround t next ht').1 hnext, hnew, rfl⟩⟩
    · rintro ⟨token, hnew⟩
      obtain ⟨t, next, ht, hnext, hnew, -⟩ := (hshort _ _).1 hnew
      exact ⟨t, next, (hcreate _ _ t).2 ht, (hround t next ht).2 hnext, hnew⟩
  · obtain ⟨t, next, ht, hnext, rfl, rfl⟩ := (hshort _ _).1 hnew
    have hverify := (verifyBillState_append h).2 ((hround t next ht).2 hnext)
    exact Check.bind_eq_ok.2 ⟨next, hverify, rfl⟩

/-! ## A run -/

/-- A bill of the owner whose seed is known, without recent transfers. -/
def sampleCachedBill : BillV3 :=
  { sampleBillV3 with
    checkpointCore := { sampleCore with ownerAddress := "x345U8rJ9gG4gxXigpgJ6J4QX16Ureagx" }
    recentTransfers := [] }

/-- Checks for a bundle that is the core it proves. -/
def sampleChecks : ProofChecks CheckpointCore where
  verifyProofBundleRef _ bundle networkId :=
    Check.require (bundle.networkId = networkId) "proof bundle network id mismatch"
  verifyProofBundle bundle checkpointHash _ := do
    Check.require (bundle.checkpointHash = checkpointHash) "proof bundle checkpoint hash mismatch"
    pure bundle

theorem exists_owner_sampleCachedBill : ∃ keys : KeyPair sampleCrypto,
    keys.address = sampleCachedBill.checkpointCore.ownerAddress := by
  have hreturns : Check.returns (do
      let seed ← decodePublicKey "indpk3:0RaI40RaI40RaI40RaI40RaI40RaI40RaI40RaI4"
      let address ← addressFromPublicKey sampleCrypto (sampleCrypto.publicKeyFromSeed seed)
      Check.require (address = "x345U8rJ9gG4gxXigpgJ6J4QX16Ureagx") "") = true := by
    decide +kernel
  obtain ⟨_, h⟩ := Check.returns_iff.1 hreturns
  obtain ⟨seed, hseed, h⟩ := Check.bind_eq_ok.1 h
  obtain ⟨address, haddress, h⟩ := Check.bind_eq_ok.1 h
  exact ⟨⟨seed, length_of_decodePublicKey hseed, address, haddress⟩, Check.require_eq_ok.1 h⟩

/-- The owner of the sample bill signs a transfer that spends it. -/
theorem exists_spend_sampleCachedBill : ∃ keys : KeyPair sampleCrypto,
    keys.address = sampleCachedBill.checkpointCore.ownerAddress ∧
    verifyBillState sampleNode sampleChecks ⟨some sampleCachedBill.checkpointCore, none⟩ sampleCachedBill
      (some 1) 5000 5000 = .ok sampleCachedBill.checkpointCore.initialState ∧
    ∃ t hash, sampleCachedBill.checkpointCore.initialState.createTransferFromState sampleCrypto
        sampleCachedBill.tokenId keys.privateKey keys.publicKey "x36QeHmmQoeHfGMW7jgh3KgNLb2cKdR4x" (.obj [])
        5000 1 5000 = .ok t ∧
      Spends sampleCrypto sampleCachedBill.tokenId 1 5000 5000
        sampleCachedBill.checkpointCore.initialState t hash := by
  have hreturns : Check.returns (verifyBillState sampleNode sampleChecks
      ⟨some sampleCachedBill.checkpointCore, none⟩ sampleCachedBill (some 1) 5000 5000) = true := by
    decide +kernel
  obtain ⟨state, h⟩ := Check.returns_iff.1 hreturns
  obtain ⟨hvalid, -, hreplay⟩ :=
    BaseState.verifyTransferSequence_eq_ok.1 (verifyBillState_eq_ok.1 h).2.2
  obtain rfl : sampleCachedBill.checkpointCore.initialState = state := Except.ok.inj hreplay
  obtain ⟨keys, howner⟩ := exists_owner_sampleCachedBill
  have htoken : IsHex32 sampleCachedBill.tokenId := isHex32_of_chars rfl rfl
  have hrecipient : isAddress sampleCrypto "x36QeHmmQoeHfGMW7jgh3KgNLb2cKdR4x" = true := by
    decide +kernel
  obtain ⟨t, hash, ht, hspends, -⟩ := @exists_spends _ keys 5000 _ _ _ (.obj []) 1 5000 5000 hvalid
    howner.symm htoken hrecipient requireMetadata_empty (by decide) (by decide) (by decide)
    (by decide) (by decide) (by decide) (by decide) (by decide) (by decide)
  exact ⟨keys, howner, h, t, hash, ht, hspends⟩

/-- The owner spends the sample bill on both paths. -/
theorem cachedSpend_agrees_sample : ∃ privateKey publicKey new token,
    createTransfer sampleNode sampleChecks ⟨some sampleCachedBill.checkpointCore, none⟩
      sampleCachedBill privateKey publicKey "x36QeHmmQoeHfGMW7jgh3KgNLb2cKdR4x" .null none (some 1) 5000
        = .ok new ∧
    createTransferFromCachedBill sampleNode sampleCachedBill privateKey publicKey
      "x36QeHmmQoeHfGMW7jgh3KgNLb2cKdR4x" .null none (some 1) none 5000 = .ok (new, token) ∧
    verifyBill sampleNode sampleChecks ⟨some sampleCachedBill.checkpointCore, none⟩ new (some 1) 5000
      5000 = .ok token := by
  obtain ⟨keys, -, h, t, hash, ht, hspends⟩ := exists_spend_sampleCachedBill
  have hnext := BaseState.replayTransfer_eq_ok.2 ⟨hash, hspends, rfl⟩
  have hnew := (@createTransfer_eq_ok _ sampleNode _ _ sampleCachedBill _ _ _ keys.privateKey
    keys.publicKey "x36QeHmmQoeHfGMW7jgh3KgNLb2cKdR4x" .null none _ h).2 ⟨t, _, ht, hnext, rfl⟩
  have hkeys : MatchingKeys sampleNode.crypto keys.privateKey keys.publicKey :=
    ⟨keys.seed, decodePrivateKey_encodePrivateKey keys.length_seed, keys.decodePublicKey_publicKey⟩
  obtain ⟨hboth, htoken⟩ := (cachedSpend_agrees sampleNode sampleChecks
    ⟨some sampleCachedBill.checkpointCore, none⟩ sampleCachedBill (some 1) 5000).2 _ h _ _
    hkeys "x36QeHmmQoeHfGMW7jgh3KgNLb2cKdR4x" .null none none (.inl rfl)
  obtain ⟨token, hcached⟩ := (hboth _).1 hnew
  exact ⟨_, _, _, token, hnew, hcached, htoken _ token hcached⟩

end BillV3
