import InternationalDollar.VerifierClient

set_option autoImplicit false

/-! # Local blacklisting (`TransparencyVerifier`)

Evidence against an operator blacklists its log for good: every write of a verifier to the status of a
log either sets `blacklisted` or leaves a blacklisted log alone, except that a verifier which starts with
a consistency anchor marks the log of the anchor active without a look at its status.
`blacklistPermanent_of_reaches` says that a blacklisted log stays so and that none of its roots is
accepted, in every run without such a start; `not_blacklistPermanent` is one such start. -/

namespace TransparencyVerifier

open Effect

variable {crypto : Crypto} {config : VerifierConfig} {world : World crypto} {logId : String}
  {depth : Nat} {α : Type}

/-- The invariant: the log is blacklisted. -/
abbrev KeepsBlacklist (logId : String) (x : Verifying crypto α) (Q : α → Prop) : Prop :=
  KeepsStore (fun store => store.Blacklisted logId) x Q

theorem keepsBlacklist_handleConsistencyFailure {Q : α → Prop} (oldRoot newRoot : MirroredRoot crypto)
    (error : String) :
    KeepsBlacklist logId (handleConsistencyFailure config world oldRoot newRoot error) Q := by
  refine Keeps.next (keepsStore_ask fun _ => trivial) fun now => ?_
  refine Keeps.next (keepsStore_writeStore fun store hs => hs.markBlacklisted _ _ _ _) fun _ => ?_
  refine Keeps.next (keepsStore_readStore fun _ _ => trivial) fun message => ?_
  exact Keeps.raise _

theorem keepsBlacklist_handleEquivocation (rootA rootB : MirroredRoot crypto)
    (collisionType : String) :
    KeepsBlacklist logId (handleEquivocation config world rootA rootB collisionType)
      fun _ => True := by
  refine Keeps.next (keepsStore_ask fun _ => trivial) fun detectedAt => ?_
  refine Keeps.bind (keepsStore_readStore (Q := fun saved => ∀ store', saved = .ok store' →
    store'.Blacklisted logId) fun store hs store' h => hs.of_status_eq
      (ObservedRoots.status_saveEquivocationEvidence h)) fun saved hsaved => ?_
  refine Keeps.bind (keepsStore_check hsaved) fun store' hstore => ?_
  refine Keeps.next (keepsStore_writeStore fun _ _ => hstore) fun _ => ?_
  refine Keeps.next (keepsStore_writeStore fun store hs => hs.markBlacklisted _ _ _ _) fun _ => ?_
  refine Keeps.next (keepsStore_readStore fun _ _ => trivial) fun message => ?_
  exact Keeps.raise _

theorem keepsBlacklist_detectAndHandleEquivocation (root : MirroredRoot crypto) :
    KeepsBlacklist logId (detectAndHandleEquivocation config world root) fun _ => True := by
  refine Keeps.next (keepsStore_readStore fun _ _ => trivial) fun evidence => ?_
  cases evidence with
  | none => exact Keeps.ret trivial
  | some found => exact keepsBlacklist_handleEquivocation _ _ _

theorem keepsBlacklist_recordConsistent {root : MirroredRoot crypto} (hlog : root.logId ≠ logId)
    (sourceIdentity : String) (now : Int) :
    KeepsBlacklist logId (recordConsistent root sourceIdentity now) fun _ => True := by
  refine Keeps.next (keepsStore_writeStore fun store hs => hs.of_status_eq
    (ObservedRoots.status_recordRoot _ _)) fun _ => ?_
  exact keepsStore_writeStore fun store hs =>
    hs.of_status_eq (ObservedRoots.status_upsertStatus_ne hlog)

/-- The first check of `observe_root` raises on a root of the log; what follows writes to the status of
    another log, or only ever blacklists. -/
theorem keepsBlacklist_observeRootWith {refresh : String → Verifying crypto Bool}
    (hrefresh : ∀ checked, KeepsBlacklist logId (refresh checked) fun _ => True)
    (root : MirroredRoot crypto) (sourceIdentity : String) :
    KeepsBlacklist logId (observeRootWith config world refresh root sourceIdentity)
      fun _ => root.logId ≠ logId := by
  refine Keeps.next (keepsStore_readStore fun _ _ => trivial) fun verified => ?_
  refine Keeps.next (keepsStore_check fun _ _ => trivial) fun _ => ?_
  refine Keeps.next (keepsStore_ask fun _ => trivial) fun now => ?_
  refine Keeps.next (keepsStore_readStore fun _ _ => trivial) fun lineageLogId => ?_
  refine Keeps.bind (keepsStore_readStore (Q := fun status => root.logId = logId →
    status.map OperatorStatus.status = some .blacklisted) ?_) fun status hstatus => ?_
  · rintro store ⟨row, hrow, hblacklisted⟩ rfl
    simp [hrow, hblacklisted]
  refine Keeps.ite (fun _ => Keeps.raise _) fun hopen => ?_
  have hlog : root.logId ≠ logId := fun heq => hopen (hstatus heq)
  have henforce : KeepsBlacklist logId (enforceConsistencyFreshness config world refresh root.logId)
      fun _ => True :=
    keepsStore_enforceConsistencyFreshness hrefresh root.logId
  refine Keeps.next (keepsBlacklist_detectAndHandleEquivocation root) fun _ => ?_
  refine Keeps.next (keepsStore_readStore fun _ _ => trivial) fun previous => ?_
  cases previous with
  | none =>
    refine Keeps.next (keepsBlacklist_recordConsistent hlog _ _) fun _ => ?_
    exact Keeps.ret hlog
  | some previous =>
    refine Keeps.ite (fun _ => ?_) fun _ => Keeps.ite (fun _ => ?_) fun _ => ?_
    · refine Keeps.next (keepsBlacklist_recordConsistent hlog _ _) fun _ => ?_
      exact Keeps.next henforce fun _ => Keeps.ret hlog
    · exact keepsBlacklist_handleConsistencyFailure _ _ _
    · refine Keeps.next (Keeps.attempt (Keeps.ite (fun _ => keepsStore_checkConsistency)
        fun _ => keepsStore_checkConsistency)).trivial fun result => ?_
      rcases result with (error | error | error) | _
      · exact keepsBlacklist_handleConsistencyFailure _ _ _
      · refine Keeps.next (keepsStore_writeStore fun store hs => hs.markUnresponsive _ _ _ _) fun _ => ?_
        exact Keeps.next henforce fun _ => Keeps.ret hlog
      · refine Keeps.next (keepsStore_writeStore fun store hs => hs.markUnresponsive _ _ _ _) fun _ => ?_
        exact Keeps.next henforce fun _ => Keeps.ret hlog
      · refine Keeps.next (keepsBlacklist_recordConsistent hlog _ _) fun _ => ?_
        exact Keeps.ret hlog

theorem keepsBlacklist_validateCurrentRootMonotonicity (root : MirroredRoot crypto) :
    KeepsBlacklist logId (validateCurrentRootMonotonicity config world root) fun _ => True := by
  refine Keeps.next (keepsStore_readStore fun _ _ => trivial) fun position => ?_
  cases position with
  | none => exact Keeps.ret trivial
  | some position =>
    refine Keeps.ite (fun _ => Keeps.ite (fun _ => ?_) fun _ => Keeps.ret trivial)
      fun _ => keepsStore_check fun _ _ => trivial
    refine Keeps.next (keepsStore_readStore fun _ _ => trivial) fun previous => ?_
    cases previous with
    | none => exact Keeps.raise _
    | some previous => exact keepsBlacklist_handleConsistencyFailure _ _ _

/-- Whatever the mirrors answer, and whatever is observed. -/
theorem keepsRoots_blacklisted (config : VerifierConfig) (world : World crypto) (logId : String) :
    KeepsRoots config world (fun store => store.Blacklisted logId) (fun _ => True)
      (fun root => root.logId ≠ logId) where
  latestRoot _ _ _ _ := trivial
  monotonicity root _ := keepsBlacklist_validateCurrentRootMonotonicity root
  observe _ hrefresh root _ sourceIdentity :=
    keepsBlacklist_observeRootWith hrefresh root sourceIdentity

/-! ## Operations -/

theorem keepsBlacklist_recordPeerRootOf (root : MirroredRoot crypto) (peerId : String)
    (receivedAt : Int) :
    KeepsBlacklist logId (recordPeerRootOf config root peerId receivedAt) fun _ => True :=
  keepsStore_writeStore fun _ hs => hs.of_status_eq (ObservedRoots.status_recordPeerRoot _ _ _ _ _)

theorem keepsBlacklist_processRootAnnouncement (message : RootAnnouncement crypto) (peerId : String) :
    KeepsBlacklist logId (processRootAnnouncement config world message peerId) fun _ => True := by
  refine Keeps.next (keepsStore_check fun _ _ => trivial) fun root => ?_
  refine Keeps.next (keepsStore_ask fun _ => trivial) fun receivedAt => ?_
  refine Keeps.next (keepsBlacklist_recordPeerRootOf _ _ _) fun _ => ?_
  exact Keeps.next (keepsBlacklist_detectAndHandleEquivocation root) fun _ => Keeps.ret trivial

theorem keepsBlacklist_processEquivocationProof (message : EquivocationProof crypto)
    (peerId : String) :
    KeepsBlacklist logId (processEquivocationProof config world message peerId) fun _ => True := by
  refine Keeps.next (keepsStore_check fun _ _ => trivial) fun _ => ?_
  refine Keeps.next (keepsStore_ask fun _ => trivial) fun receivedAt => ?_
  refine Keeps.next (keepsBlacklist_recordPeerRootOf _ _ _) fun _ => ?_
  refine Keeps.next (keepsBlacklist_recordPeerRootOf _ _ _) fun _ => ?_
  refine Keeps.bind (keepsStore_readStore (Q := fun saved => ∀ store', saved = .ok store' →
    store'.Blacklisted logId) fun store hs store' h => hs.of_status_eq
      (ObservedRoots.status_saveEquivocationEvidence h)) fun saved hsaved => ?_
  refine Keeps.bind (keepsStore_check hsaved) fun store' hstore => ?_
  refine Keeps.next (keepsStore_writeStore fun _ _ => hstore) fun _ => ?_
  exact keepsStore_writeStore fun store hs => hs.markBlacklisted _ _ _ _

theorem keepsBlacklist_processOperatorPolicyViolationProof
    (message : OperatorPolicyViolationProof crypto) (peerId : String) :
    KeepsBlacklist logId (processOperatorPolicyViolationProof config world message peerId)
      fun _ => True := by
  refine Keeps.next (keepsStore_ask fun _ => trivial) fun receivedAt => ?_
  refine Keeps.next (keepsStore_check fun _ _ => trivial) fun _ => ?_
  refine Keeps.next (keepsBlacklist_recordPeerRootOf _ _ _) fun _ => ?_
  refine Keeps.next (keepsStore_ask fun _ => trivial) fun now => ?_
  refine Keeps.next (keepsStore_check fun _ _ => trivial) fun _ => ?_
  exact keepsStore_writeStore fun store hs => hs.markBlacklisted _ _ _ _

/-- A key record is written as the store is after it. -/
theorem keepsBlacklist_recordKey {f : ObservedRoots crypto → Except String (ObservedRoots crypto)}
    (hf : ∀ store store', f store = .ok store' → store'.status logId = store.status logId) :
    KeepsBlacklist logId (do
      let recorded ← readStore f
      let store ← check recorded
      writeStore fun _ => store) fun _ => True := by
  refine Keeps.bind (keepsStore_readStore (Q := fun recorded => ∀ store', recorded = .ok store' →
    store'.Blacklisted logId) fun store hs store' h => hs.of_status_eq (hf store store' h))
    fun recorded hrecorded => ?_
  refine Keeps.bind (keepsStore_check hrecorded) fun store' hstore => ?_
  exact keepsStore_writeStore fun _ _ => hstore

/-- Every operation of a verifier leaves a blacklisted log blacklisted. -/
theorem keepsBlacklist_run (operation : VerifierOperation crypto) :
    KeepsBlacklist logId (operation.run config world depth) fun _ => True := by
  have hroots := keepsRoots_blacklisted config world logId
  cases operation with
  | observeRoot root sourceIdentity =>
    exact Keeps.next (hroots.observeRoot depth trivial sourceIdentity).trivial fun _ =>
      Keeps.ret trivial
  | currentRoots now errorContext =>
    exact Keeps.next (hroots.currentRootsFromMirrors depth now errorContext) fun _ =>
      Keeps.ret trivial
  | historicalRoots roots shortage =>
    exact Keeps.next (hroots.observeHistoricalRoots depth (fun _ _ => trivial) shortage) fun _ =>
      Keeps.ret trivial
  | rootAnnouncement message peerId =>
    exact Keeps.next (keepsBlacklist_processRootAnnouncement message peerId) fun _ =>
      Keeps.ret trivial
  | equivocationProof message peerId => exact keepsBlacklist_processEquivocationProof message peerId
  | policyViolationProof message peerId =>
    exact keepsBlacklist_processOperatorPolicyViolationProof message peerId
  | keyRotation record =>
    exact Keeps.next (keepsStore_check fun _ _ => trivial) fun _ =>
      keepsBlacklist_recordKey fun _ _ h => ObservedRoots.status_recordKeyRotation h
  | keyRevocation record =>
    exact Keeps.next (keepsStore_check fun _ _ => trivial) fun _ =>
      keepsBlacklist_recordKey fun _ _ h => ObservedRoots.status_recordKeyRevocation h

/-! ## Starting a verifier -/

/-- An anchor is marked active where it is signed by the configured key, whatever is said of its log. -/
theorem keepsBlacklist_loadConsistencyAnchor {anchor : Option (MirroredRoot crypto)}
    (hanchor : ∀ root ∈ anchor,
      root.verifySignedRoot crypto config.acceptLegacy config.operatorPublicKey = .ok () →
        root.logId ≠ logId) :
    KeepsBlacklist logId (loadConsistencyAnchor config world anchor) fun _ => True := by
  cases anchor with
  | none => exact Keeps.ret trivial
  | some root =>
    refine Keeps.bind (keepsStore_check fun _ h => h) fun _ hverified => ?_
    have hlog : root.logId ≠ logId := hanchor root rfl hverified
    refine Keeps.next (keepsStore_ask fun _ => trivial) fun now => ?_
    exact keepsBlacklist_recordConsistent hlog _ _

end TransparencyVerifier

namespace VerifierClient

open TransparencyVerifier Effect

variable {crypto : Crypto} {client client' : VerifierClient crypto} {logId : String}

/-- The event starts a verifier with an anchor that it accepts, of a log that is blacklisted. -/
def RestoresLog (client : VerifierClient crypto) : ClientEvent crypto → Prop
  | .construct settings (some anchor) _ _ _ =>
      ∃ config, settings.validated = .ok config ∧
        anchor.verifySignedRoot crypto config.acceptLegacy config.operatorPublicKey = .ok () ∧
        client.store.Blacklisted anchor.logId
  | _ => False

/-- The log is blacklisted, and no verifier over the store accepts a root of it. -/
structure Shuns (client : VerifierClient crypto) (logId : String) : Prop where
  blacklisted : client.store.Blacklisted logId
  rejects : ∀ (verifier : Verifier) (world : World crypto) (depth : Nat) (root : MirroredRoot crypto)
    (sourceIdentity : String) (accepted : MirroredRoot crypto), root.logId = logId →
      (observeRoot verifier.config world depth root sourceIdentity (client.stateOf verifier)).1
        ≠ .ok accepted

theorem shuns_of_blacklisted (h : client.store.Blacklisted logId) : client.Shuns logId where
  blacklisted := h
  rejects verifier world depth root sourceIdentity accepted hlog haccepted := by
    have hkeeps : KeepsBlacklist logId (observeRoot verifier.config world depth root sourceIdentity)
        fun _ => root.logId ≠ logId :=
      (keepsRoots_blacklisted verifier.config world logId).observeRoot depth trivial sourceIdentity
    exact (hkeeps (client.stateOf verifier) h).2 accepted haccepted hlog

/-- One step leaves a blacklisted log blacklisted, unless it restores a log. -/
theorem blacklisted_step {event : ClientEvent crypto} (h : client.store.Blacklisted logId)
    (hevent : ¬ client.RestoresLog event) (hstep : client.step event = some client') :
    client'.store.Blacklisted logId := by
  cases event with
  | construct settings anchor startupCheck world depth =>
    cases hstep
    refine construct_keeps (P := fun store => store.Blacklisted logId) h fun config hvalid => ?_
    refine (keepsRoots_blacklisted config world logId).start ?_ depth startupCheck
    refine keepsBlacklist_loadConsistencyAnchor fun root hroot hverified hlog => ?_
    cases hroot
    exact hevent ⟨config, hvalid, hverified, hlog.symm ▸ h⟩
  | operate index operation world depth =>
    exact operate_keeps (P := fun store => store.Blacklisted logId) h
      (fun config => keepsBlacklist_run operation) hstep

/-- Once a log is blacklisted it stays so and its roots are rejected, in every run that starts no
    verifier with an anchor of a blacklisted log. -/
theorem blacklistPermanent_of_reaches (h : client.store.Blacklisted logId)
    (hreaches : Runs.Reaches step (fun client event => ¬ client.RestoresLog event) client client') :
    client'.Shuns logId := by
  refine shuns_of_blacklisted
    (@Runs.Reaches.invariant _ _ _ _ _ _ (fun c => c.store.Blacklisted logId) ?_ hreaches h)
  exact fun _ _ _ hblacklisted hevent hstep => blacklisted_step hblacklisted hevent hstep

/-! ## A log that is restored -/

open MirroredBundles (parityCrypto oneLeafRoot_spec)

/-- A client of which a log was just blacklisted. -/
def shunning (crypto : Crypto) (root : MirroredRoot crypto) : VerifierClient crypto :=
  ⟨ObservedRoots.empty.markBlacklisted root.logId root.operatorPublicKey
    "equivocation same_tree_size" 500, []⟩

theorem exists_oneLeafRoot : ∃ root : MirroredRoot parityCrypto,
    ∀ acceptLegacy, root.verifySignedRoot parityCrypto acceptLegacy none = .ok () := by
  obtain ⟨keys, -⟩ := KeyPair.exists_of_seed parityCrypto (List.replicate 32 0) List.length_replicate
  obtain ⟨hverified, root, hroot, -⟩ := oneLeafRoot_spec keys 100 (by decide) (by decide)
  exact ⟨root, fun acceptLegacy => hroot ▸ hverified acceptLegacy⟩

/-- A new verifier with an anchor has the log of the anchor marked active. -/
theorem store_construct_anchor {settings : VerifierSettings} {config : VerifierConfig}
    (hvalid : settings.validated = .ok config) {anchor : MirroredRoot crypto}
    (hverified : anchor.verifySignedRoot crypto config.acceptLegacy config.operatorPublicKey = .ok ())
    (world : World crypto) (depth : Nat) :
    (client.construct settings (some anchor) false world depth).store
      = (client.store.recordRoot anchor ("configured-anchor " ++ anchor.logId)).markActive
        anchor.logId anchor.operatorPublicKey (world.time 0) := by
  have hstart : start config world depth (some anchor) false (client.stateOf ⟨config, [], []⟩)
      = (.ok (), ⟨(client.store.recordRoot anchor ("configured-anchor " ++ anchor.logId)).markActive
        anchor.logId anchor.operatorPublicKey (world.time 0), [], [], 1⟩) :=
    (bind_of_ok ((bind_of_ok (check_ok hverified _)).trans rfl)).trans rfl
  simp only [construct, hvalid, hstart]

theorem blacklistPermanent_observed : ∃ (client client' : VerifierClient parityCrypto)
    (root : MirroredRoot parityCrypto), client.store.Blacklisted root.logId ∧
      client'.verifiers.length = 1 ∧ client'.Shuns root.logId := by
  obtain ⟨root, -⟩ := exists_oneLeafRoot
  have hblacklisted : (shunning parityCrypto root).store.Blacklisted root.logId :=
    ObservedRoots.blacklisted_markBlacklisted _ _ _ _ _
  have hfirst : (shunning parityCrypto root).step
      (.construct plainSettings none false (silentWorld parityCrypto) 10)
      = some ⟨(shunning parityCrypto root).store, [⟨plainSettings.config, [], []⟩]⟩ :=
    rfl
  have hsecond : ∃ client', (⟨(shunning parityCrypto root).store, [⟨plainSettings.config, [], []⟩]⟩ :
      VerifierClient parityCrypto).step
        (.operate 0 (.observeRoot root "mirror-a") (silentWorld parityCrypto) 10) = some client' ∧
      client'.verifiers.length = 1 :=
    ⟨_, rfl, rfl⟩
  obtain ⟨client', hsecond, hlength⟩ := hsecond
  refine ⟨_, client', root, hblacklisted, hlength, blacklistPermanent_of_reaches hblacklisted ?_⟩
  refine (Runs.Reaches.refl.next ?_ hfirst).next ?_ hsecond
  · exact fun h => h
  · exact fun h => h

theorem not_blacklistPermanent : ¬ ∀ (crypto : Crypto) (client client' : VerifierClient crypto)
    (logId : String), client.store.Blacklisted logId →
      Runs.Reaches step (fun _ _ => True) client client' → client'.Shuns logId := by
  intro hall
  obtain ⟨root, hverified⟩ := exists_oneLeafRoot
  -- the anchor is a root of the very log that was blacklisted
  have hstep : (shunning parityCrypto root).step
      (.construct plainSettings (some root) false (silentWorld parityCrypto) 10) = some _ := rfl
  have hshuns := hall parityCrypto (shunning parityCrypto root) _ root.logId
    (ObservedRoots.blacklisted_markBlacklisted _ _ _ _ _) (Runs.Reaches.refl.next trivial hstep)
  have hstore := hshuns.blacklisted
  rw [store_construct_anchor validated_plainSettings (hverified _)] at hstore
  exact ObservedRoots.not_blacklisted_markActive _ _ _ _ hstore

end VerifierClient
