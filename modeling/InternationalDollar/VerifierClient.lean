import InternationalDollar.GossipMessages
import InternationalDollar.Lib.Runs

set_option autoImplicit false

/-! # A client with its verifiers (`TransparencyVerifier`)

A client has one observed-root store and makes verifiers over it, one after the other or several at once;
a restart is a new verifier over the old store. Each operation of a verifier is a step: it may return or
raise, and what it wrote before it raised stays in the store. -/

/-- What a verifier is made from. The configuration has the minimum of mirrors as it was requested. -/
structure VerifierSettings where
  config : VerifierConfig
  allowUnsafeSingleMirror : Bool
  testnetMode : Bool
  operatorIdentity : Option String

namespace VerifierSettings

/-- `_validated_min_mirrors`. -/
def validatedMinMirrors (settings : VerifierSettings) : Except String Nat :=
  let requested := settings.config.minMirrors
  let floor := if settings.allowUnsafeSingleMirror ∨ settings.testnetMode then 1 else 2
  if requested < floor then
    .error ("IND_LOG_MIN_MIRRORS=" ++ toString requested ++ " is below the required floor of " ++
      toString floor ++ " independent root mirrors")
  else if settings.allowUnsafeSingleMirror then .ok 1
  else .ok requested

/-- `_validate_mirror_sources`. -/
def validateMirrorSources (settings : VerifierSettings) (minMirrors : Nat) : Except String Unit := do
  let identities := settings.config.mirrorIdentities
  Check.require (∀ operator ∈ settings.operatorIdentity, operator = "" ∨ operator ∉ identities)
    "root mirror has the same identity as the operator"
  Check.require identities.Nodup "mirror sources must be independent"
  if identities.length < minMirrors then
    .error ("configured " ++ toString identities.length ++
      " independent root mirror(s), but IND_LOG_MIN_MIRRORS=" ++ toString minMirrors ++
      " requires at least " ++ toString minMirrors)
  else pure ()

/-- `_validate_current_root_freshness_config`. -/
def validateCurrentRootFreshnessConfig (config : VerifierConfig) : Except String Unit := do
  let age := config.maxCurrentRootAgeSeconds
  let skew := config.currentRootFutureSkewSeconds
  Check.require (0 < age) ("IND_LOG_MAX_CURRENT_ROOT_AGE_SECONDS must be greater than 0 for " ++
    "current root replay protection")
  Check.require (0 ≤ skew) "IND_LOG_CURRENT_ROOT_FUTURE_SKEW_SECONDS must not be negative"
  Check.require (skew ≤ 300) ("IND_LOG_CURRENT_ROOT_FUTURE_SKEW_SECONDS=" ++ toString skew ++
    " exceeds the hard ceiling of 300 seconds. A system clock that is " ++
    "more than five minutes wrong must be fixed with NTP, not accommodated by the protocol.")
  Check.require (skew < age) ("IND_LOG_CURRENT_ROOT_FUTURE_SKEW_SECONDS=" ++ toString skew ++
    " must be smaller than IND_LOG_MAX_CURRENT_ROOT_AGE_SECONDS=" ++ toString age ++
    "; future-dated roots cannot be allowed to extend the replay window.")
  Check.require (config.strictMode = false ∨ age ≤ 600)
    ("IND_LOG_MAX_CURRENT_ROOT_AGE_SECONDS=" ++ toString age ++ " is too loose for " ++
      "IND_REQUIRE_TRANSPARENCY_LOG=1. Strict transparency mode requires current roots no older " ++
      "than 600 seconds. This ceiling covers the 60-second signing interval, normal mirror " ++
      "propagation, allowed clock skew, and safety margin; configure fresher mirrors or disable " ++
      "strict mode.")

/-- The checks of `__init__`, which end in the configuration of the verifier. -/
def validated (settings : VerifierSettings) : Except String VerifierConfig := do
  Check.require (¬ (settings.config.strictMode = true ∧ settings.allowUnsafeSingleMirror = true))
    ("IND_REQUIRE_TRANSPARENCY_LOG=1 and IND_LOG_UNSAFE_SINGLE_MIRROR=1 are incompatible. " ++
      "Strict transparency mode requires at least 2 independent root mirrors. " ++
      "Either configure additional mirrors or disable strict mode.")
  let minMirrors ← settings.validatedMinMirrors
  settings.validateMirrorSources minMirrors
  validateCurrentRootFreshnessConfig settings.config
  pure { settings.config with minMirrors := minMirrors }

end VerifierSettings

variable {crypto : Crypto}

namespace TransparencyVerifier

open Effect

/-- `_load_consistency_anchor`. -/
def loadConsistencyAnchor (config : VerifierConfig) (world : World crypto) :
    Option (MirroredRoot crypto) → Verifying crypto Unit
  | none => pure ()
  | some anchor => do
      check (anchor.verifySignedRoot crypto config.acceptLegacy config.operatorPublicKey)
      let now ← ask world.time
      writeStore fun store => store.recordRoot anchor ("configured-anchor " ++ anchor.logId)
      writeStore fun store => store.markActive anchor.logId anchor.operatorPublicKey now

/-- `_known_log_ids_for_status_checks`. -/
def knownLogIdsForStatusChecks (config : VerifierConfig) (store : ObservedRoots crypto) :
    List String :=
  match config.configuredLogId crypto with
  | some configured => [configured]
  | none => Select.orderBy id store.knownLogIds.dedup

/-- `_enforce_known_log_status`. -/
def enforceKnownLogStatus (config : VerifierConfig) (world : World crypto) (depth : Nat) :
    Verifying crypto Unit := do
  let logIds ← readStore (knownLogIdsForStatusChecks config)
  forEach (enforceConsistencyFreshness config world (refreshBaseline config world depth)) logIds

/-- `check_latest_consistency`. -/
def checkLatestConsistency (config : VerifierConfig) (world : World crypto) (depth : Nat)
    (now : Option Int) : Verifying crypto (List (MirroredRoot crypto)) :=
  currentRootsFromMirrors config world depth now "consistency check"

/-- `_run_startup_consistency_check`: a check that fails is a warning, except in strict mode. -/
def runStartupConsistencyCheck (config : VerifierConfig) (world : World crypto) (depth : Nat) :
    Verifying crypto Unit := do
  let enforce := if config.strictMode then enforceKnownLogStatus config world depth else pure ()
  let result ← attempt (checkLatestConsistency config world depth none)
  match result with
  | .ok _ => pure ()
  | .error _ => enforce
  enforce

/-- What `__init__` does once its settings are valid. -/
def start (config : VerifierConfig) (world : World crypto) (depth : Nat)
    (anchor : Option (MirroredRoot crypto)) (startupCheck : Bool) : Verifying crypto Unit := do
  loadConsistencyAnchor config world anchor
  if startupCheck then runStartupConsistencyCheck config world depth else pure ()

/-- A start keeps what the roots keep and the anchor does. -/
theorem KeepsRoots.start {config : VerifierConfig} {world : World crypto}
    {P : ObservedRoots crypto → Prop} {MayCome Q : MirroredRoot crypto → Prop}
    (h : KeepsRoots config world P MayCome Q) {anchor : Option (MirroredRoot crypto)}
    (hload : KeepsStore P (loadConsistencyAnchor config world anchor) fun _ => True) (depth : Nat)
    (startupCheck : Bool) :
    KeepsStore P (start config world depth anchor startupCheck) fun _ => True := by
  have henforce : KeepsStore P (if config.strictMode then enforceKnownLogStatus config world depth
      else pure ()) fun _ => True := by
    refine Keeps.ite (fun _ => ?_) fun _ => Keeps.ret trivial
    refine Keeps.next (keepsStore_readStore fun _ _ => trivial) fun logIds => ?_
    exact Keeps.forEach fun checked _ =>
      keepsStore_enforceConsistencyFreshness (fun l => h.refreshBaseline depth l) checked
  have hcheck := (h.currentRootsFromMirrors depth none "consistency check").attempt.trivial
  refine Keeps.next hload fun _ => Keeps.ite (fun _ => ?_) fun _ => Keeps.ret trivial
  refine Keeps.next hcheck fun result => ?_
  cases result with
  | ok _ => exact henforce
  | error _ => exact Keeps.next henforce fun _ => henforce

end TransparencyVerifier

/-! ## Operations -/

/-- What a verifier is asked to do. The roots of a historical lookup are those that it has collected. -/
inductive VerifierOperation (crypto : Crypto) where
  | observeRoot (root : MirroredRoot crypto) (sourceIdentity : String)
  | currentRoots (now : Option Int) (errorContext : String)
  | historicalRoots (roots : List (String × MirroredRoot crypto)) (shortage : String)
  | rootAnnouncement (message : RootAnnouncement crypto) (peerId : String)
  | equivocationProof (message : EquivocationProof crypto) (peerId : String)
  | policyViolationProof (message : OperatorPolicyViolationProof crypto) (peerId : String)
  | keyRotation (record : KeyRotation)
  | keyRevocation (record : KeyRevocation)

namespace VerifierOperation

open TransparencyVerifier Effect

/-- An operation of a verifier, without the value that it returns. -/
def run (config : VerifierConfig) (world : World crypto) (depth : Nat) :
    VerifierOperation crypto → Verifying crypto Unit
  | .observeRoot root sourceIdentity => do
      let _ ← TransparencyVerifier.observeRoot config world depth root sourceIdentity
      pure ()
  | .currentRoots now errorContext => do
      let _ ← currentRootsFromMirrors config world depth now errorContext
      pure ()
  | .historicalRoots roots shortage => do
      let _ ← observeHistoricalRoots config world depth roots shortage
      pure ()
  | .rootAnnouncement message peerId => do
      let _ ← processRootAnnouncement config world message peerId
      pure ()
  | .equivocationProof message peerId => processEquivocationProof config world message peerId
  | .policyViolationProof message peerId =>
      processOperatorPolicyViolationProof config world message peerId
  | .keyRotation record => observeKeyRotation config record
  | .keyRevocation record => observeKeyRevocation config record

end VerifierOperation

/-! ## The client -/

/-- A verifier of a client: its configuration and its memory. -/
structure Verifier where
  config : VerifierConfig
  consistencyPairsChecked : List PairKey
  consistencyFreshnessRefreshing : List String

/-- A client: its store and the verifiers over it. -/
structure VerifierClient (crypto : Crypto) where
  store : ObservedRoots crypto
  verifiers : List Verifier

/-- What a client does, with what the world answers and how deep the recursion may go: make a verifier,
    or ask one of them for an operation. -/
inductive ClientEvent (crypto : Crypto) where
  | construct (settings : VerifierSettings) (anchor : Option (MirroredRoot crypto))
      (startupCheck : Bool) (world : World crypto) (depth : Nat)
  | operate (verifier : Nat) (operation : VerifierOperation crypto) (world : World crypto)
      (depth : Nat)

namespace VerifierClient

open TransparencyVerifier

/-- The state in which a verifier of the client starts an operation. -/
def stateOf (client : VerifierClient crypto) (verifier : Verifier) : VerifierState crypto :=
  ⟨client.store, verifier.consistencyPairsChecked, verifier.consistencyFreshnessRefreshing, 0⟩

/-- The verifier after an operation. -/
def verifierOf (config : VerifierConfig) (state : VerifierState crypto) : Verifier :=
  ⟨config, state.consistencyPairsChecked, state.consistencyFreshnessRefreshing⟩

/-- A new verifier. Where its start raises there is none, but the store has what was written. -/
def construct (client : VerifierClient crypto) (settings : VerifierSettings)
    (anchor : Option (MirroredRoot crypto)) (startupCheck : Bool) (world : World crypto)
    (depth : Nat) : VerifierClient crypto :=
  match settings.validated with
  | .error _ => client
  | .ok config =>
      match start config world depth anchor startupCheck (client.stateOf ⟨config, [], []⟩) with
      | (.error _, state) => { client with store := state.store }
      | (.ok _, state) => ⟨state.store, client.verifiers ++ [verifierOf config state]⟩

/-- One step of a client. -/
def step (client : VerifierClient crypto) : ClientEvent crypto → Option (VerifierClient crypto)
  | .construct settings anchor startupCheck world depth =>
      some (client.construct settings anchor startupCheck world depth)
  | .operate index operation world depth => do
      let verifier ← client.verifiers[index]?
      let state := (operation.run verifier.config world depth (client.stateOf verifier)).2
      pure ⟨state.store, client.verifiers.set index (verifierOf verifier.config state)⟩

/-! ## Invariants of the store -/

variable {client client' : VerifierClient crypto} {P : ObservedRoots crypto → Prop}

theorem construct_keeps (hP : P client.store) {settings : VerifierSettings}
    {anchor : Option (MirroredRoot crypto)} {startupCheck : Bool} {world : World crypto} {depth : Nat}
    (hstart : ∀ config, settings.validated = .ok config →
      KeepsStore P (start config world depth anchor startupCheck) fun _ => True) :
    P (client.construct settings anchor startupCheck world depth).store := by
  cases hvalid : settings.validated with
  | error _ =>
    rw [construct, hvalid]
    exact hP
  | ok config =>
    have hkept := (hstart config hvalid (client.stateOf ⟨config, [], []⟩) hP).1
    cases hrun : start config world depth anchor startupCheck (client.stateOf ⟨config, [], []⟩) with
    | mk result state =>
      rw [hrun] at hkept
      simp only [construct, hvalid, hrun]
      cases result with
      | error _ => exact hkept
      | ok _ => exact hkept

theorem operate_keeps (hP : P client.store) {index : Nat} {operation : VerifierOperation crypto}
    {world : World crypto} {depth : Nat}
    (hrun : ∀ config, KeepsStore P (operation.run config world depth) fun _ => True)
    (hstep : client.step (.operate index operation world depth) = some client') :
    P client'.store := by
  obtain ⟨verifier, -, hstep⟩ := Option.bind_eq_some_iff.1 hstep
  cases hstep
  exact (hrun verifier.config (client.stateOf verifier) hP).1

/-! ## A plain verifier -/

/-- Settings that are valid. -/
def plainSettings : VerifierSettings where
  config :=
    { acceptLegacy := false
      operatorPublicKey := none
      strictMode := false
      minMirrors := 2
      mirrorIdentities := ["mirror-a", "mirror-b"]
      maxCurrentRootAgeSeconds := 600
      currentRootFutureSkewSeconds := 120
      consistencyMaxStaleSeconds := 3600
      evidenceLocation := "files/transparency_observed_roots.db" }
  allowUnsafeSingleMirror := false
  testnetMode := false
  operatorIdentity := some "operator"

theorem validated_plainSettings : plainSettings.validated = .ok plainSettings.config :=
  rfl

/-- A world in which every request fails. -/
def silentWorld (crypto : Crypto) : World crypto where
  time _ := 1000
  latestRoot _ _ := .error "timed out"
  consistencyProof _ _ _ := .error "timed out"

end VerifierClient
