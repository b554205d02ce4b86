import InternationalDollar.TransparencyVerifier

set_option autoImplicit false

/-! # Gossip about roots (`transparency_client`)

Peers announce roots and pass on two kinds of evidence: that an operator signed two roots that collide,
and that it accepted two transfers that spend one bill state. Whoever receives a message checks it alone,
stores the roots in it, and blacklists the log that the evidence is about. -/

/-- `LOG_ROOT_ANNOUNCEMENT_TYPE`. -/
def logRootAnnouncementType : String := "ind.transparency_root_announcement.v3"

/-- `LOG_EQUIVOCATION_PROOF_TYPE`. -/
def logEquivocationProofType : String := "ind.transparency_equivocation_proof.v3"

/-- `LOG_OPERATOR_POLICY_VIOLATION_TYPE`. -/
def logOperatorPolicyViolationType : String := "ind.transparency_operator_policy_violation.v3"

/-- A root that a peer announces. -/
structure RootAnnouncement (crypto : Crypto) where
  type : String
  version : Int
  root : MirroredRoot crypto
  observedAt : Int
deriving DecidableEq

/-- Evidence that an operator signed two roots that collide. -/
structure EquivocationProof (crypto : Crypto) where
  type : String
  version : Int
  logId : String
  collisionType : String
  rootA : MirroredRoot crypto
  rootB : MirroredRoot crypto
  detectedAt : Int
deriving DecidableEq

/-- Evidence that an operator accepted two transfers under one spend key. -/
structure OperatorPolicyViolationProof (crypto : Crypto) where
  type : String
  version : Int
  violationType : String
  logId : String
  root : MirroredRoot crypto
  spendProof : SpendMapProof
  detectedAt : Int
deriving DecidableEq

variable {crypto : Crypto}

/-- `verify_root_announcement`, without an expected operator. -/
def RootAnnouncement.verifyRootAnnouncement (acceptLegacy : Bool) (message : RootAnnouncement crypto) :
    Except String (MirroredRoot crypto) := do
  Check.require (message.type = logRootAnnouncementType) "not a transparency root announcement"
  Check.require (message.version = logVersion)
    "unsupported transparency root announcement version"
  message.root.verifySignedRoot crypto acceptLegacy none
  requireMin message.observedAt 0 "transparency root observed_at"
  pure message.root

/-- `verify_equivocation_proof`, without an expected operator. -/
def EquivocationProof.verifyEquivocationProof (acceptLegacy : Bool)
    (message : EquivocationProof crypto) : Except String Unit := do
  Check.require (message.type = logEquivocationProofType) "not a transparency equivocation proof"
  Check.require (message.version = logVersion)
    "unsupported transparency equivocation proof version"
  requireMin message.detectedAt 0 "transparency equivocation detected_at"
  let claimedLogId := Text.strip message.logId
  Check.require (message.collisionType = "same_tree_size" ∨ message.collisionType = "same_timestamp")
    "mirrors disagree about a signed transparency log root"
  message.rootA.verifySignedRoot crypto acceptLegacy none
  message.rootB.verifySignedRoot crypto acceptLegacy none
  let publicKeyA := Text.strip message.rootA.operatorPublicKey
  let publicKeyB := Text.strip message.rootB.operatorPublicKey
  Check.require (publicKeyA = publicKeyB)
    "equivocation proof roots were signed by different operators"
  Check.require (message.rootA.logId = claimedLogId ∧ message.rootB.logId = claimedLogId)
    "equivocation proof log id does not match both roots"
  Check.require (logIdFromPublicKey crypto publicKeyA = claimedLogId)
    "equivocation proof operator key does not derive the claimed log id"
  Check.require (RootVerifier.equivocationCollisionType message.rootA message.rootB =
    some message.collisionType) "mirrors disagree about a signed transparency log root"

namespace OperatorPolicyViolationProof

/-- The claims spend one bill state of one sender. -/
def Siblings (a b : SpendClaim) : Prop :=
  a.tokenId = b.tokenId ∧ a.previousHash = b.previousHash ∧ a.sequence = b.sequence ∧
    a.senderAddress = b.senderAddress ∧ a.senderPublicKey = b.senderPublicKey

instance (a b : SpendClaim) : Decidable (Siblings a b) :=
  inferInstanceAs (Decidable (_ ∧ _))

/-- `verify_operator_policy_violation_proof`. -/
def verifyOperatorPolicyViolationProof (acceptLegacy : Bool) (clock : Int)
    (operatorPublicKey : Option String) (proof : OperatorPolicyViolationProof crypto) :
    Except String Unit := do
  Check.require (proof.type = logOperatorPolicyViolationType ∧ proof.version = logVersion)
    "unsupported operator policy violation proof version"
  Check.require (proof.violationType = "accepted_conflicting_spend")
    "unsupported operator policy violation type"
  requireMin proof.detectedAt 0 "operator policy violation detected_at"
  proof.root.verifySignedRoot crypto acceptLegacy operatorPublicKey
  Check.require (proof.logId = proof.root.logId) "operator policy violation log id mismatch"
  let claims ← proof.spendProof.verifySpendMapProof crypto acceptLegacy clock proof.root.toSignedRoot
  Check.require (2 ≤ (claims.map SpendClaim.transferHash).dedup.length)
    "operator policy violation proof has no conflicting spend"
  Check.require (∀ claim ∈ claims, claim.transfer.isSome)
    "operator policy violation proof is missing conflicting transfer bodies"
  Check.require ((claims.map SpendClaim.spendKey).dedup.length = 1)
    "operator policy violation proof mixes spend keys"
  Check.require (∀ first ∈ claims.head?, ∀ claim ∈ claims.tail, Siblings claim first)
    "operator policy violation proof claims are not siblings"

end OperatorPolicyViolationProof

namespace TransparencyVerifier

open Effect

/-- `DEFAULT_PEER_ROOT_CAP_PER_LOG_ID`. -/
def defaultPeerRootCapPerLogId : Int := 5000

/-- `DEFAULT_UNKNOWN_PEER_ROOT_CAP_PER_LOG_ID`. -/
def defaultUnknownPeerRootCapPerLogId : Int := 100

/-- `_peer_root_cap_for_log`. -/
def peerRootCapForLog (config : VerifierConfig) (store : ObservedRoots crypto) (logId : String) : Int :=
  if config.isConfiguredLog store logId then defaultPeerRootCapPerLogId
  else defaultUnknownPeerRootCapPerLogId

/-- `record_peer_root` with the caps for the log of the root. -/
def recordPeerRootOf (config : VerifierConfig) (root : MirroredRoot crypto) (peerId : String)
    (receivedAt : Int) : Verifying crypto Unit :=
  writeStore fun store => store.recordPeerRoot root peerId receivedAt
    (peerRootCapForLog config store root.logId)
    (if config.isConfiguredLog store root.logId then none
      else some defaultUnknownPeerRootCapPerLogId)

/-- `time or time.time()`: the time 0 is none. -/
def orNow (time now : Int) : Int :=
  if time = 0 then now else time

/-- `process_root_announcement`. -/
def processRootAnnouncement (config : VerifierConfig) (world : World crypto)
    (message : RootAnnouncement crypto) (peerId : String) : Verifying crypto (MirroredRoot crypto) := do
  let root ← check (message.verifyRootAnnouncement config.acceptLegacy)
  let receivedAt ← ask world.time
  recordPeerRootOf config root peerId receivedAt
  detectAndHandleEquivocation config world root
  pure root

/-- `process_equivocation_proof`. -/
def processEquivocationProof (config : VerifierConfig) (world : World crypto)
    (message : EquivocationProof crypto) (peerId : String) : Verifying crypto Unit := do
  check (message.verifyEquivocationProof config.acceptLegacy)
  let receivedAt ← ask world.time
  recordPeerRootOf config message.rootA peerId receivedAt
  recordPeerRootOf config message.rootB peerId receivedAt
  let saved ← readStore fun store => store.saveEquivocationEvidence config.acceptLegacy
    ⟨message.collisionType, message.rootA, message.rootB, orNow message.detectedAt receivedAt⟩
  let store ← check saved
  writeStore fun _ => store
  writeStore fun store => store.markBlacklisted message.rootA.logId message.rootA.operatorPublicKey
    ("equivocation " ++ message.collisionType) receivedAt

/-- `_handle_operator_policy_violation`. -/
def handleOperatorPolicyViolation (config : VerifierConfig) (world : World crypto)
    (proof : OperatorPolicyViolationProof crypto) : Verifying crypto Unit := do
  let now ← ask world.time
  check (proof.verifyOperatorPolicyViolationProof config.acceptLegacy now config.operatorPublicKey)
  writeStore fun store => store.markBlacklisted proof.root.logId proof.root.operatorPublicKey
    ("operator policy violation: " ++ proof.violationType) (orNow proof.detectedAt now)

/-- `process_operator_policy_violation_proof`. -/
def processOperatorPolicyViolationProof (config : VerifierConfig) (world : World crypto)
    (message : OperatorPolicyViolationProof crypto) (peerId : String) : Verifying crypto Unit := do
  let receivedAt ← ask world.time
  check (message.verifyOperatorPolicyViolationProof config.acceptLegacy receivedAt
    config.operatorPublicKey)
  recordPeerRootOf config message.root peerId receivedAt
  handleOperatorPolicyViolation config world message

/-! ## Key records -/

/-- `observe_key_rotation`. -/
def observeKeyRotation (config : VerifierConfig) (record : KeyRotation) : Verifying crypto Unit := do
  check (record.verifyKeyRotation crypto (config.configuredLogId crypto))
  let recorded ← readStore fun store : ObservedRoots crypto => store.recordKeyRotation record
  let store ← check recorded
  writeStore fun _ => store

/-- `observe_key_revocation`. -/
def observeKeyRevocation (config : VerifierConfig) (record : KeyRevocation) :
    Verifying crypto Unit := do
  check (Check.require (∀ configured ∈ config.configuredLogId crypto, record.logId = configured)
    "operator key revocation is for an unexpected log id")
  let recorded ← readStore fun store : ObservedRoots crypto => store.recordKeyRevocation record
  let store ← check recorded
  writeStore fun _ => store

end TransparencyVerifier
