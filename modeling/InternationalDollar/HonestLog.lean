import InternationalDollar.VerifierClient

set_option autoImplicit false

/-! # An honest log (`TransparencyVerifier`)

Three detectors blacklist a log: the search for roots that collide, the comparison with the highest
position seen, and the consistency checks. Roots of an operator that signs one growing tree trip none of
them, in whatever order mirrors and peers deliver them: `unblacklisted_of_reaches`. It takes that the
operator commits to one spend-map size for each tree size, because the size is part of what the search
compares; `not_unblacklisted_size` is a run without that. -/

/-- What an operator has signed, under all of its log ids: roots with strictly increasing times and
    non-decreasing sizes, which commit to one tree and one spend map for each tree size. -/
structure SignedHistory (crypto : Crypto) where
  logIds : List String
  roots : List (MirroredRoot crypto)
  increasing : roots.Pairwise fun a b => a.timestamp < b.timestamp ∧ a.treeSize ≤ b.treeSize
  rootHash : ∀ a ∈ roots, ∀ b ∈ roots, a.treeSize = b.treeSize → a.rootHash = b.rootHash
  spendMapRoot : ∀ a ∈ roots, ∀ b ∈ roots, a.treeSize = b.treeSize → a.spendMapRoot = b.spendMapRoot

namespace SignedHistory

variable {crypto : Crypto} {history : SignedHistory crypto} {a b : MirroredRoot crypto}

/-- The roots also commit to one spend-map size for each tree size. -/
def OneMapSize (history : SignedHistory crypto) : Prop :=
  ∀ a ∈ history.roots, ∀ b ∈ history.roots, a.treeSize = b.treeSize →
    a.spendMapSize = b.spendMapSize

/-- Of two roots, one is before the other or they are the same. -/
theorem before_or_eq (ha : a ∈ history.roots) (hb : b ∈ history.roots) :
    a = b ∨ (a.timestamp < b.timestamp ∧ a.treeSize ≤ b.treeSize) ∨
      (b.timestamp < a.timestamp ∧ b.treeSize ≤ a.treeSize) := by
  have hpairs := history.increasing
  generalize history.roots = roots at ha hb hpairs
  induction roots with
  | nil => cases ha
  | cons root rest ih =>
    obtain ⟨hfirst, hrest⟩ := List.pairwise_cons.1 hpairs
    rcases List.mem_cons.1 ha with rfl | ha'
    · rcases List.mem_cons.1 hb with rfl | hb'
      · exact Or.inl rfl
      · exact Or.inr (Or.inl (hfirst b hb'))
    · rcases List.mem_cons.1 hb with rfl | hb'
      · exact Or.inr (Or.inr (hfirst a ha'))
      · exact ih ha' hb' hrest

theorem treeSize_le (ha : a ∈ history.roots) (hb : b ∈ history.roots)
    (h : a.timestamp < b.timestamp) : a.treeSize ≤ b.treeSize := by
  rcases before_or_eq ha hb with rfl | hlt | hgt
  · exact le_rfl
  · exact hlt.2
  · exact absurd h (not_lt.2 hgt.1.le)

theorem fingerprint_eq (hsizes : history.OneMapSize) (ha : a ∈ history.roots)
    (hb : b ∈ history.roots) (h : a.treeSize = b.treeSize) : a.fingerprint = b.fingerprint := by
  unfold MirroredRoot.fingerprint
  rw [h, history.rootHash a ha b hb h, history.spendMapRoot a ha b hb h, hsizes a ha b hb h]

/-- No two roots of the operator collide. -/
theorem collisionType_eq_none (hsizes : history.OneMapSize) (ha : a ∈ history.roots)
    (hb : b ∈ history.roots) : RootVerifier.equivocationCollisionType a b = none := by
  have htree : ¬ (a.treeSize = b.treeSize ∧ a.fingerprint ≠ b.fingerprint) :=
    fun h => h.2 (fingerprint_eq hsizes ha hb h.1)
  have htime : ¬ (a.timestamp = b.timestamp ∧ a.fingerprint ≠ b.fingerprint) := by
    rintro ⟨htimestamp, hne⟩
    rcases before_or_eq ha hb with rfl | hlt | hgt
    · exact hne rfl
    · exact absurd htimestamp hlt.1.ne
    · exact absurd htimestamp hgt.1.ne'
  simp only [RootVerifier.equivocationCollisionType, if_neg htree, if_neg htime, ite_self]

/-- A root under one of the operator's log ids is one that it signed. -/
def Covers (history : SignedHistory crypto) (root : MirroredRoot crypto) : Prop :=
  root.logId ∈ history.logIds → root ∈ history.roots

/-- The consistency proofs between two of the operator's roots are valid, where they come at all. -/
def Proves (history : SignedHistory crypto) (world : World crypto) : Prop :=
  ∀ n, ∀ a ∈ history.roots, ∀ b ∈ history.roots, a.treeSize < b.treeSize →
    world.consistencyProof n a b ≠ .ok false

/-- The successors of the operator's log ids are its own. -/
def OwnsSuccessors (history : SignedHistory crypto) (rotations : List (String × KeyRotation)) : Prop :=
  ∀ row ∈ rotations, row.2.logId ∈ history.logIds → row.2.newLogId ∈ history.logIds

/-- The invariant: the store has no roots under the operator's log ids but its own, and blacklists none
    of these logs. -/
structure Trusted (history : SignedHistory crypto) (rotations : List (String × KeyRotation))
    (store : ObservedRoots crypto) : Prop where
  covers : ∀ root, store.Stores root → history.Covers root
  trusted : ∀ logId ∈ history.logIds, ¬ store.Blacklisted logId
  rotations_eq : store.operatorKeyRotations = rotations

end SignedHistory

namespace SignedHistory

variable {crypto : Crypto} {history : SignedHistory crypto} {rotations : List (String × KeyRotation)}
  {store : ObservedRoots crypto} {root : MirroredRoot crypto}

theorem Trusted.recordRoot (h : history.Trusted rotations store) (hroot : history.Covers root)
    (sourceIdentity : String) : history.Trusted rotations (store.recordRoot root sourceIdentity) where
  covers other hother := by
    rcases ObservedRoots.stores_recordRoot hother with hstored | rfl
    · exact h.covers other hstored
    · exact hroot
  trusted logId hlog hblacklisted :=
    h.trusted logId hlog (hblacklisted.of_status_eq (ObservedRoots.status_recordRoot _ _).symm)
  rotations_eq := by
    unfold ObservedRoots.recordRoot
    split <;> exact h.rotations_eq

theorem Trusted.recordPeerRoot (h : history.Trusted rotations store) (hroot : history.Covers root)
    (peerId : String) (receivedAt cap : Int) (total : Option Int) :
    history.Trusted rotations (store.recordPeerRoot root peerId receivedAt cap total) where
  covers other hother := by
    rcases ObservedRoots.stores_recordPeerRoot hother with hstored | rfl
    · exact h.covers other hstored
    · exact hroot
  trusted logId hlog hblacklisted := h.trusted logId hlog
    (hblacklisted.of_status_eq (ObservedRoots.status_recordPeerRoot _ _ _ _ _).symm)
  rotations_eq := by
    rw [ObservedRoots.operatorKeyRotations_recordPeerRoot]
    exact h.rotations_eq

/-- A write to the status table that blacklists none of the operator's logs. -/
theorem Trusted.upsertStatus (h : history.Trusted rotations store) {new : OperatorStatus}
    {update : OperatorStatus → OperatorStatus}
    (htrusted : ∀ logId ∈ history.logIds, ¬ (store.upsertStatus new update).Blacklisted logId) :
    history.Trusted rotations (store.upsertStatus new update) where
  covers other hother := h.covers other (ObservedRoots.stores_upsertStatus.1 hother)
  trusted := htrusted
  rotations_eq := by
    unfold ObservedRoots.upsertStatus
    split <;> exact h.rotations_eq

theorem Trusted.markActive (h : history.Trusted rotations store) (logId key : String)
    (checkedAt : Int) : history.Trusted rotations (store.markActive logId key checkedAt) :=
  h.upsertStatus fun own hown => ObservedRoots.not_blacklisted_upsertStatus (h.trusted own hown)
    (fun _ hstatus => nomatch hstatus) fun _ _ _ hstatus => nomatch hstatus

theorem Trusted.markUnresponsive (h : history.Trusted rotations store) (logId key reason : String)
    (updatedAt : Int) :
    history.Trusted rotations (store.markUnresponsive logId key reason updatedAt) :=
  h.upsertStatus fun own hown =>
    ObservedRoots.not_blacklisted_markUnresponsive (h.trusted own hown) _ _ _ _

/-- Another log may be blacklisted. -/
theorem Trusted.markBlacklisted (h : history.Trusted rotations store) {logId : String}
    (hlog : logId ∉ history.logIds) (key reason : String) (updatedAt : Int) :
    history.Trusted rotations (store.markBlacklisted logId key reason updatedAt) :=
  h.upsertStatus fun own hown => ObservedRoots.not_blacklisted_markBlacklisted (h.trusted own hown)
    (ne_of_mem_of_not_mem hown hlog).symm _ _ _

theorem Trusted.saveEquivocationEvidence (h : history.Trusted rotations store)
    {store' : ObservedRoots crypto} {acceptLegacy : Bool} {row : EvidenceRow crypto}
    (hsave : store.saveEquivocationEvidence acceptLegacy row = .ok store') :
    history.Trusted rotations store' := by
  obtain ⟨_, -, hsave⟩ := Check.bind_eq_ok.1 hsave
  rw [Check.pure_eq_ok] at hsave
  subst hsave
  split
  · exact h
  · exact ⟨h.covers, h.trusted, h.rotations_eq⟩

end SignedHistory

namespace VerifierConfig

variable {crypto : Crypto} {config : VerifierConfig} {history : SignedHistory crypto}
  {rotations : List (String × KeyRotation)} {store store' : ObservedRoots crypto}
  {root previous : MirroredRoot crypto}

theorem lineageLogIdForRoot_congr (h : store.operatorKeyRotations = store'.operatorKeyRotations) :
    config.lineageLogIdForRoot store root = config.lineageLogIdForRoot store' root := by
  unfold lineageLogIdForRoot ObservedRoots.keyRotationForSuccessorLogId
  rw [h]

/-- Where a root follows another log, that is the configured log, and a rotation of it says so. -/
theorem rotation_of_lineage (h : config.lineageLogIdForRoot store root ≠ root.logId) :
    config.configuredLogId crypto = some (config.lineageLogIdForRoot store root) ∧
      ∃ row ∈ store.operatorKeyRotations, row.2.newLogId = root.logId ∧
        row.2.logId = config.lineageLogIdForRoot store root := by
  unfold lineageLogIdForRoot at h ⊢
  cases hconfigured : config.configuredLogId crypto with
  | none =>
    simp only [hconfigured] at h
    exact absurd rfl h
  | some configured =>
    simp only [hconfigured] at h ⊢
    by_cases hsame : root.logId = configured
    · rw [if_pos hsame] at h
      exact absurd hsame.symm h
    · rw [if_neg hsame] at h ⊢
      cases hrotation : store.keyRotationForSuccessorLogId root.logId with
      | none =>
        simp only [hrotation] at h
        exact absurd rfl h
      | some rotation =>
        simp only [hrotation] at h ⊢
        by_cases hmatch : rotation.logId = configured ∧ rotation.newPublicKey = root.operatorPublicKey
        · rw [if_pos hmatch]
          obtain ⟨hmem, hnew, -⟩ := Select.first_eq_some hrotation
          obtain ⟨row, hrow, rfl⟩ := List.mem_map.1 hmem
          exact ⟨rfl, row, hrow, of_decide_eq_true hnew, hmatch.1⟩
        · rw [if_neg hmatch] at h
          exact absurd rfl h

/-- A root of the configured log follows that log. -/
theorem lineageLogIdForRoot_configured (h : config.configuredLogId crypto = some previous.logId) :
    config.lineageLogIdForRoot store previous = previous.logId := by
  unfold lineageLogIdForRoot
  simp [h]

end VerifierConfig

namespace TransparencyVerifier

open Effect SignedHistory

variable {crypto : Crypto} {config : VerifierConfig} {world : World crypto}
  {history : SignedHistory crypto} {rotations : List (String × KeyRotation)}
  {root previous : MirroredRoot crypto} {α : Type}

/-- The invariant: the operator is trusted. -/
abbrev KeepsTrust (history : SignedHistory crypto) (rotations : List (String × KeyRotation))
    (x : Verifying crypto α) (Q : α → Prop) : Prop :=
  KeepsStore (history.Trusted rotations) x Q

theorem keepsTrust_handleConsistencyFailure {Q : α → Prop} {oldRoot newRoot : MirroredRoot crypto}
    (hlog : oldRoot.logId ∉ history.logIds) (error : String) :
    KeepsTrust history rotations (handleConsistencyFailure config world oldRoot newRoot error) Q := by
  refine Keeps.next (keepsStore_ask fun _ => trivial) fun now => ?_
  refine Keeps.next (keepsStore_writeStore fun store hs => hs.markBlacklisted hlog _ _ _) fun _ => ?_
  refine Keeps.next (keepsStore_readStore fun _ _ => trivial) fun message => ?_
  exact Keeps.raise _

theorem keepsTrust_handleEquivocation {rootA rootB : MirroredRoot crypto}
    (hlog : rootA.logId ∉ history.logIds) (collisionType : String) :
    KeepsTrust history rotations (handleEquivocation config world rootA rootB collisionType)
      fun _ => True := by
  refine Keeps.next (keepsStore_ask fun _ => trivial) fun detectedAt => ?_
  refine Keeps.bind (keepsStore_readStore (Q := fun saved => ∀ store', saved = .ok store' →
    history.Trusted rotations store') fun store hs store' h => hs.saveEquivocationEvidence h)
    fun saved hsaved => ?_
  refine Keeps.bind (keepsStore_check hsaved) fun store' hstore => ?_
  refine Keeps.next (keepsStore_writeStore fun _ _ => hstore) fun _ => ?_
  refine Keeps.next (keepsStore_writeStore fun store hs => hs.markBlacklisted hlog _ _ _) fun _ => ?_
  refine Keeps.next (keepsStore_readStore fun _ _ => trivial) fun message => ?_
  exact Keeps.raise _

/-- What collides with a root is no root of the operator. -/
theorem keepsTrust_detectAndHandleEquivocation (hsizes : history.OneMapSize)
    (hroot : history.Covers root) :
    KeepsTrust history rotations (detectAndHandleEquivocation config world root) fun _ => True := by
  refine Keeps.bind (keepsStore_readStore (Q := fun evidence => ∀ found, evidence = some found →
    found.1.logId ∉ history.logIds) ?_) fun evidence hevidence => ?_
  · rintro store hs ⟨previous, collisionType⟩ hfound hown
    obtain ⟨hstored, hlog, hcollision⟩ := ObservedRoots.findEquivocation_eq_some hfound
    have hprevious : previous ∈ history.roots := hs.covers previous hstored hown
    have hin : root ∈ history.roots := hroot (hlog ▸ hown)
    rw [collisionType_eq_none hsizes hprevious hin] at hcollision
    cases hcollision
  · cases evidence with
    | none => exact Keeps.ret trivial
    | some found => exact keepsTrust_handleEquivocation (hevidence found rfl) _

theorem keepsTrust_recordConsistent (hroot : history.Covers root) (sourceIdentity : String)
    (now : Int) :
    KeepsTrust history rotations (recordConsistent root sourceIdentity now) fun _ => True := by
  refine Keeps.next (keepsStore_writeStore fun store hs => hs.recordRoot hroot _) fun _ => ?_
  exact keepsStore_writeStore fun store hs => hs.markActive _ _ _

/-- A root of a smaller tree than the highest is not later than the latest. -/
theorem keepsTrust_validateCurrentRootMonotonicity (hroot : history.Covers root) :
    KeepsTrust history rotations (validateCurrentRootMonotonicity config world root)
      fun _ => True := by
  refine Keeps.bind (keepsStore_readStore (Q := fun position => ∀ size time,
    position = some (size, time) → root.logId ∈ history.logIds →
      ¬ (root.treeSize < size ∧ time < root.timestamp)) ?_) fun position hposition => ?_
  · rintro store hs size time hposition hown ⟨hsmaller, hlater⟩
    obtain ⟨highest, hstored, hlog, rfl, htime⟩ := ObservedRoots.observedPosition_eq_some hposition
    have hhighest : highest ∈ history.roots := hs.covers highest hstored (hlog ▸ hown)
    have hle := treeSize_le hhighest (hroot hown) (lt_of_le_of_lt htime hlater)
    exact absurd hsmaller (not_lt.2 hle)
  cases position with
  | none => exact Keeps.ret trivial
  | some position =>
    refine Keeps.ite (fun hsmaller => Keeps.ite (fun hlater => ?_) fun _ => Keeps.ret trivial)
      fun _ => keepsStore_check fun _ _ => trivial
    have hforeign : root.logId ∉ history.logIds :=
      fun hown => hposition _ _ rfl hown ⟨hsmaller, hlater⟩
    refine Keeps.bind (keepsStore_readStore (Q := fun previous => ∀ found, previous = some found →
      found.logId = root.logId) fun store _ found h => (ObservedRoots.stores_of_mem_observedOf
        (ObservedRoots.mem_observedOf_of_latestRoot h)).2) fun previous hprevious => ?_
    cases previous with
    | none => exact Keeps.raise _
    | some previous =>
      refine keepsTrust_handleConsistencyFailure ?_ _
      rw [hprevious previous rfl]
      exact hforeign

/-- What is known of a root of the operator that another root is compared with. -/
structure Precedes (config : VerifierConfig) (history : SignedHistory crypto)
    (rotations : List (String × KeyRotation)) (root previous : MirroredRoot crypto) : Prop where
  root_mem : root ∈ history.roots
  previous_mem : previous ∈ history.roots
  lineage_eq : root.logId ≠ previous.logId → ∀ store, history.Trusted rotations store →
    config.lineageLogIdForRoot store root = config.lineageLogIdForRoot store previous

/-- A root that is compared with one of the operator is its own, or that of a successor. -/
theorem precedes_of_previousRoot {store : ObservedRoots crypto} {lineageLogId : String}
    (hs : history.Trusted rotations store) (howns : history.OwnsSuccessors rotations)
    (hroot : history.Covers root)
    (hlineage : ∀ store, history.Trusted rotations store →
      config.lineageLogIdForRoot store root = lineageLogId)
    (h : previousRoot store root.logId lineageLogId = some previous)
    (hown : previous.logId ∈ history.logIds) : Precedes config history rotations root previous := by
  obtain ⟨hstored, hlog⟩ := previousRoot_eq_some h
  have hprevious : previous ∈ history.roots := hs.covers previous hstored hown
  rcases hlog with hlog | ⟨hne, hlog⟩
  · exact ⟨hroot (hlog ▸ hown), hprevious, fun hdiffer => absurd hlog.symm hdiffer⟩
  · have hhere := hlineage store hs
    obtain ⟨hconfigured, row, hrow, hnew, hold⟩ :=
      VerifierConfig.rotation_of_lineage (hhere.trans_ne hne)
    rw [hhere, ← hlog] at hconfigured hold
    refine ⟨hroot ?_, hprevious, fun _ store' hs' => ?_⟩
    · rw [← hnew]
      exact howns row (hs.rotations_eq ▸ hrow) (hold ▸ hown)
    · rw [VerifierConfig.lineageLogIdForRoot_configured hconfigured, hlineage store' hs', hlog]

/-- A check of two roots of the operator in one lineage does not fail for consistency. -/
theorem Precedes.raisesOnly (h : Precedes config history rotations root previous)
    (hproves : history.Proves world) (logId : String) :
    (root.treeSize < previous.treeSize → RaisesOnly (OnStore (history.Trusted rotations))
      (checkConsistency config world logId root previous)
        fun e => ∀ message, e ≠ .consistencyProof message) ∧
    (previous.treeSize < root.treeSize → RaisesOnly (OnStore (history.Trusted rotations))
      (checkConsistency config world logId previous root)
        fun e => ∀ message, e ≠ .consistencyProof message) := by
  constructor
  · intro hsize
    refine raisesOnly_checkConsistency (fun n => hproves n _ h.root_mem _ h.previous_mem hsize) ?_
    exact fun hne store hs => decide_eq_true (h.lineage_eq hne store hs)
  · intro hsize
    refine raisesOnly_checkConsistency (fun n => hproves n _ h.previous_mem _ h.root_mem hsize) ?_
    exact fun hne store hs => decide_eq_true (h.lineage_eq hne.symm store hs).symm

/-- The detectors of `observe_root`: the search finds no collision, two roots of one size have one hash,
    and a consistency check fails only for want of an answer. -/
theorem keepsTrust_observeRootWith (hsizes : history.OneMapSize)
    (howns : history.OwnsSuccessors rotations) (hproves : history.Proves world)
    {refresh : String → Verifying crypto Bool} (hrefresh : ∀ checked, KeepsTrust history rotations (refresh checked) fun _ => True)
    (hroot : history.Covers root) (sourceIdentity : String) :
    KeepsTrust history rotations (observeRootWith config world refresh root sourceIdentity)
      fun _ => True := by
  have henforce : KeepsTrust history rotations
      (enforceConsistencyFreshness config world refresh root.logId) fun _ => True :=
    keepsStore_enforceConsistencyFreshness hrefresh root.logId
  refine Keeps.next (keepsStore_readStore fun _ _ => trivial) fun verified => ?_
  refine Keeps.next (keepsStore_check fun _ _ => trivial) fun _ => ?_
  refine Keeps.next (keepsStore_ask fun _ => trivial) fun now => ?_
  refine Keeps.bind (keepsStore_readStore (Q := fun lineageLogId =>
    ∀ store, history.Trusted rotations store → config.lineageLogIdForRoot store root = lineageLogId)
    fun store hs store' hs' => VerifierConfig.lineageLogIdForRoot_congr
      (hs'.rotations_eq.trans hs.rotations_eq.symm)) fun lineageLogId hlineage => ?_
  refine Keeps.next (keepsStore_readStore fun _ _ => trivial) fun status => ?_
  refine Keeps.ite (fun _ => Keeps.raise _) fun _ => ?_
  refine Keeps.next (keepsTrust_detectAndHandleEquivocation hsizes hroot) fun _ => ?_
  refine Keeps.bind (keepsStore_readStore (Q := fun previous => ∀ found, previous = some found →
    found.logId ∈ history.logIds → Precedes config history rotations root found)
    fun store hs found h hown => precedes_of_previousRoot hs howns hroot hlineage h hown)
    fun previous hprevious => ?_
  cases previous with
  | none =>
    exact Keeps.next (keepsTrust_recordConsistent hroot _ _) fun _ => Keeps.ret trivial
  | some previous =>
    refine Keeps.ite (fun _ => ?_) fun hdiffer => Keeps.ite (fun hsize => ?_) fun hsize => ?_
    · refine Keeps.next (keepsTrust_recordConsistent hroot _ _) fun _ => ?_
      exact Keeps.next henforce fun _ => Keeps.ret trivial
    · refine keepsTrust_handleConsistencyFailure (fun hown => hdiffer ⟨hsize, ?_⟩) _
      have hprecedes := hprevious previous rfl hown
      exact history.rootHash _ hprecedes.previous_mem _ hprecedes.root_mem hsize
    · have hchecked : previous.logId ∈ history.logIds → RaisesOnly (OnStore (history.Trusted rotations))
          (if root.treeSize < previous.treeSize then
              checkConsistency config world root.logId root previous
            else checkConsistency config world root.logId previous root)
          fun e => ∀ message, e ≠ .consistencyProof message := by
        intro hown
        obtain ⟨hless, hmore⟩ := (hprevious previous rfl hown).raisesOnly hproves root.logId
        refine RaisesOnly.ite hless fun hnot => hmore ?_
        exact lt_of_le_of_ne (not_lt.1 hnot) hsize
      refine Keeps.bind (Keeps.attempt_raises (E := fun e => previous.logId ∈ history.logIds →
        ∀ message, e ≠ .consistencyProof message) (Keeps.ite (fun _ => keepsStore_checkConsistency)
          fun _ => keepsStore_checkConsistency) fun s hs e he hown => hchecked hown s hs e he)
        fun result hresult => ?_
      rcases result with (error | error | error) | _
      · exact keepsTrust_handleConsistencyFailure (fun hown => hresult _ rfl hown error rfl) _
      · refine Keeps.next (keepsStore_writeStore fun store hs => hs.markUnresponsive _ _ _ _) fun _ => ?_
        exact Keeps.next henforce fun _ => Keeps.ret trivial
      · refine Keeps.next (keepsStore_writeStore fun store hs => hs.markUnresponsive _ _ _ _) fun _ => ?_
        exact Keeps.next henforce fun _ => Keeps.ret trivial
      · exact Keeps.next (keepsTrust_recordConsistent hroot _ _) fun _ => Keeps.ret trivial

/-! ## Operations -/

/-- What a world may answer: roots that the history covers, and consistency proofs that are valid. -/
structure Delivers (history : SignedHistory crypto) (world : World crypto) : Prop where
  latestRoot : ∀ n mirror root, world.latestRoot n mirror = .ok root → history.Covers root
  proves : history.Proves world

theorem keepsRoots_trusted (config : VerifierConfig) (hsizes : history.OneMapSize)
    (howns : history.OwnsSuccessors rotations) (hworld : Delivers history world) :
    KeepsRoots config world (history.Trusted rotations) history.Covers (fun _ => True) where
  latestRoot := hworld.latestRoot
  monotonicity _ hroot := keepsTrust_validateCurrentRootMonotonicity hroot
  observe _ hrefresh _ hroot sourceIdentity :=
    keepsTrust_observeRootWith hsizes howns hworld.proves hrefresh hroot sourceIdentity

theorem keepsTrust_processRootAnnouncement (hsizes : history.OneMapSize)
    {message : RootAnnouncement crypto} (hroot : history.Covers message.root) (peerId : String) :
    KeepsTrust history rotations (processRootAnnouncement config world message peerId)
      fun _ => True := by
  refine Keeps.bind (keepsStore_check (Q := history.Covers) ?_) fun root hcovered => ?_
  · intro root h
    simp only [RootAnnouncement.verifyRootAnnouncement, Check.bind_eq_ok, Check.pure_eq_ok] at h
    obtain ⟨_, -, _, -, _, -, _, -, rfl⟩ := h
    exact hroot
  refine Keeps.next (keepsStore_ask fun _ => trivial) fun receivedAt => ?_
  refine Keeps.next (keepsStore_writeStore fun store hs => hs.recordPeerRoot hcovered _ _ _ _)
    fun _ => ?_
  exact Keeps.next (keepsTrust_detectAndHandleEquivocation hsizes hcovered) fun _ => Keeps.ret trivial

theorem keepsTrust_loadConsistencyAnchor {anchor : Option (MirroredRoot crypto)}
    (hanchor : ∀ root ∈ anchor, history.Covers root) :
    KeepsTrust history rotations (loadConsistencyAnchor config world anchor) fun _ => True := by
  cases anchor with
  | none => exact Keeps.ret trivial
  | some root =>
    refine Keeps.next (keepsStore_check fun _ _ => trivial) fun _ => ?_
    refine Keeps.next (keepsStore_ask fun _ => trivial) fun now => ?_
    exact keepsTrust_recordConsistent (hanchor root rfl) _ _

end TransparencyVerifier

namespace VerifierClient

open TransparencyVerifier Effect

variable {crypto : Crypto} {history : SignedHistory crypto} {rotations : List (String × KeyRotation)}
  {client client' : VerifierClient crypto}

/-- The events that deliver roots, with what they deliver: under the operator's log ids, only what it
    has signed. Mirrors and peers may deliver any of it, in any order and as often as they like. -/
def DeliversFrom (history : SignedHistory crypto) : ClientEvent crypto → Prop
  | .construct _ anchor _ world _ => (∀ root ∈ anchor, history.Covers root) ∧ Delivers history world
  | .operate _ (.observeRoot root _) world _ => history.Covers root ∧ Delivers history world
  | .operate _ (.currentRoots _ _) world _ => Delivers history world
  | .operate _ (.historicalRoots roots _) world _ =>
      (∀ entry ∈ roots, history.Covers entry.2) ∧ Delivers history world
  | .operate _ (.rootAnnouncement message _) _ _ => history.Covers message.root
  | _ => False

/-- One delivery leaves the operator trusted. -/
theorem trusted_step (hsizes : history.OneMapSize) (howns : history.OwnsSuccessors rotations)
    {event : ClientEvent crypto} (h : history.Trusted rotations client.store)
    (hevent : DeliversFrom history event) (hstep : client.step event = some client') :
    history.Trusted rotations client'.store := by
  cases event with
  | construct settings anchor startupCheck world depth =>
    cases hstep
    refine construct_keeps h fun config _ => ?_
    refine (keepsRoots_trusted config hsizes howns hevent.2).start ?_ depth startupCheck
    exact keepsTrust_loadConsistencyAnchor hevent.1
  | operate index operation world depth =>
    refine operate_keeps h (fun config => ?_) hstep
    cases operation with
    | observeRoot root sourceIdentity =>
      have hroots := keepsRoots_trusted config hsizes howns hevent.2
      exact Keeps.next (hroots.observeRoot depth hevent.1 sourceIdentity) fun _ => Keeps.ret trivial
    | currentRoots now errorContext =>
      have hroots := keepsRoots_trusted config hsizes howns hevent
      exact Keeps.next (hroots.currentRootsFromMirrors depth now errorContext) fun _ =>
        Keeps.ret trivial
    | historicalRoots roots shortage =>
      have hroots := keepsRoots_trusted config hsizes howns hevent.2
      exact Keeps.next (hroots.observeHistoricalRoots depth hevent.1 shortage) fun _ =>
        Keeps.ret trivial
    | rootAnnouncement message peerId =>
      exact Keeps.next (keepsTrust_processRootAnnouncement hsizes hevent peerId) fun _ =>
        Keeps.ret trivial
    | equivocationProof _ _ => exact hevent.elim
    | policyViolationProof _ _ => exact hevent.elim
    | keyRotation _ => exact hevent.elim
    | keyRevocation _ => exact hevent.elim

/-- A client that trusts an operator trusts it after any deliveries of what the operator has signed. -/
theorem unblacklisted_of_reaches (hsizes : history.OneMapSize)
    (howns : history.OwnsSuccessors client.store.operatorKeyRotations)
    (htrusted : history.Trusted client.store.operatorKeyRotations client.store)
    (hreaches : Runs.Reaches step (fun _ event => DeliversFrom history event) client client') :
    ∀ logId ∈ history.logIds, ¬ client'.store.Blacklisted logId := by
  have hstep : ∀ (before : VerifierClient crypto) (event : ClientEvent crypto)
      (after : VerifierClient crypto),
      history.Trusted client.store.operatorKeyRotations before.store → DeliversFrom history event →
        before.step event = some after →
          history.Trusted client.store.operatorKeyRotations after.store :=
    fun _ _ _ h hevent hstep => trusted_step hsizes howns h hevent hstep
  exact (hreaches.invariant hstep htrusted).trusted

/-! ## Two spend-map sizes -/

open MirroredBundles (parityCrypto parityCrypto_ne leafRoot leafRoot_spec)

/-- A root at time 1000 that commits to one spend is one byte longer than one at time 100 that commits to
    none. -/
theorem length_leafRoot (publicKey : String) :
    (leafRoot publicKey 1000 1).toJson.bytes.length
      = (leafRoot publicKey 100 0).toJson.bytes.length + 1 := by
  have h100 : (Json.renderInt 100).length = 3 := by decide
  have h1000 : (Json.renderInt 1000).length = 4 := by decide
  have h0 : (Json.renderInt 0).length = 1 := by decide
  have h1 : (Json.renderInt 1).length = 1 := by decide
  simp only [Json.bytes, Json.asciiBytes, SignedRoot.toJson, SignedRoot.members,
    SignedRoot.lastMembers, SignedRoot.optionalMember, leafRoot, SignedRoot.unsigned,
    Option.map_some, List.cons_append, List.nil_append, Json.render, Json.renderMembers,
    Json.renderMoreMembers, List.length_map, List.length_cons, List.length_append, h100, h1000, h0, h1]
  omega

/-- An operator with two roots of one tree and one spend-map root, of different spend-map sizes. -/
theorem exists_twoSizes : ∃ (history : SignedHistory parityCrypto)
    (first second : MirroredRoot parityCrypto), history.roots = [first, second] ∧
      history.logIds = [first.logId] ∧ second.logId = first.logId ∧
      RootVerifier.equivocationCollisionType first second = some "same_tree_size" ∧
      ∀ root ∈ history.roots, ∀ acceptLegacy,
        root.verifySignedRoot parityCrypto acceptLegacy none = .ok () := by
  obtain ⟨keys, -⟩ := KeyPair.exists_of_seed parityCrypto (List.replicate 32 0) List.length_replicate
  have hspec100 := leafRoot_spec keys (show (0 : Int) ≤ 100 by decide) (by decide) le_rfl (by decide)
  have hspec1000 := leafRoot_spec keys (show (0 : Int) ≤ 1000 by decide) (by decide)
    (show (0 : Int) ≤ 1 by decide) (by decide)
  obtain ⟨hfirst, first, hfirstEq, hfirstId⟩ := hspec100
  obtain ⟨hsecond, second, hsecondEq, hsecondId⟩ := hspec1000
  have hid : first.id ≠ second.id := by
    rw [hfirstId, hsecondId, hfirstEq, hsecondEq]
    exact parityCrypto_ne (length_leafRoot keys.publicKey)
  have hsame : first.logId = second.logId ∧ first.treeSize = second.treeSize ∧
      first.rootHash = second.rootHash ∧ first.spendMapRoot = second.spendMapRoot := by
    rw [hfirstEq, hsecondEq]
    exact ⟨rfl, rfl, rfl, rfl⟩
  obtain ⟨hlog, htree, hhash, hmap⟩ := hsame
  have htimes : first.timestamp < second.timestamp := by
    rw [hfirstEq, hsecondEq]
    exact show (100 : Int) < 1000 by decide
  have hfingerprint : first.fingerprint ≠ second.fingerprint := by
    intro heq
    have hsizes : first.spendMapSize.getD 0 = second.spendMapSize.getD 0 :=
      congrArg (fun fingerprint => fingerprint.2.2.2) heq
    rw [hfirstEq, hsecondEq] at hsizes
    exact absurd hsizes (show (0 : Int) ≠ 1 by decide)
  let history : SignedHistory parityCrypto :=
    { logIds := [first.logId]
      roots := [first, second]
      increasing := List.pairwise_pair.2 ⟨htimes, htree.le⟩
      rootHash := by simp [hhash]
      spendMapRoot := by simp [hmap] }
  refine ⟨history, first, second, rfl, rfl, hlog.symm, ?_, ?_⟩
  · rw [RootVerifier.equivocationCollisionType, if_neg (not_not.2 hlog), if_neg hid,
      if_pos ⟨htree, hfingerprint⟩]
  · intro root hroot acceptLegacy
    rcases List.mem_pair.1 hroot with rfl | rfl
    · rw [hfirstEq]
      exact hfirst acceptLegacy
    · rw [hsecondEq]
      exact hsecond acceptLegacy

theorem handleEquivocation_eq {config : VerifierConfig} (world : World crypto)
    {rootA rootB : MirroredRoot crypto}
    (hA : rootA.verifySignedRoot crypto config.acceptLegacy none = .ok ())
    (hB : rootB.verifySignedRoot crypto config.acceptLegacy none = .ok ()) (collisionType : String)
    (s : VerifierState crypto) :
    ∃ e t, handleEquivocation config world rootA rootB collisionType s = (.error e, t) ∧
      t.store.Blacklisted rootA.logId := by
  have hsaved : ∃ store', s.store.saveEquivocationEvidence config.acceptLegacy
      ⟨collisionType, rootA, rootB, world.time s.questions⟩ = .ok store' :=
    ⟨_, Check.bind_eq_ok.2 ⟨(), Check.bind_eq_ok.2 ⟨(), hA, hB⟩, rfl⟩⟩
  obtain ⟨store', hstore⟩ := hsaved
  refine ⟨_, _, (bind_of_ok rfl).trans <| (bind_of_ok rfl).trans <|
    (bind_of_ok (check_ok hstore _)).trans <| (bind_of_ok rfl).trans <| (bind_of_ok rfl).trans <|
    (bind_of_ok rfl).trans rfl, ?_⟩
  exact ObservedRoots.blacklisted_markBlacklisted _ _ _ _ _

/-- A root that collides with a stored one blacklists the log, where nothing is known of the log. -/
theorem blacklisted_observeRoot {config : VerifierConfig} {world : World crypto} {depth : Nat}
    {root previous : MirroredRoot crypto} {collisionType : String} {s : VerifierState crypto}
    (hkey : config.operatorPublicKey = none) (hstatus : s.store.operatorStatus = [])
    (hroot : root.verifySignedRoot crypto config.acceptLegacy none = .ok ())
    (hprevious : previous.verifySignedRoot crypto config.acceptLegacy none = .ok ())
    (hfind : s.store.findEquivocation root = some (previous, collisionType))
    (sourceIdentity : String) :
    (observeRoot config world (depth + 1) root sourceIdentity s).2.store.Blacklisted
      previous.logId := by
  have hverified : config.verifySignedRootForLineage s.store root = .ok () := by
    simp only [VerifierConfig.verifySignedRootForLineage, VerifierConfig.configuredKey, hkey, hroot,
      Check.ok_bind]
    rfl
  have hnone : ∀ logId, s.store.status logId = none := by
    intro logId
    rw [ObservedRoots.status, hstatus]
    rfl
  obtain ⟨e, t, hhandled, hblacklisted⟩ := handleEquivocation_eq world hprevious hroot collisionType
    { s with questions := s.questions + 1 }
  have hdetect : detectAndHandleEquivocation config world root { s with questions := s.questions + 1 }
      = (.error e, t) :=
    (bind_of_ok (a := some (previous, collisionType)) (readStore_eq hfind)).trans hhandled
  have hraised : observeRoot config world (depth + 1) root sourceIdentity s = (.error e, t) := by
    have hopen : (s.store.status root.logId).or
        (s.store.status (config.lineageLogIdForRoot s.store root)) = none := by
      rw [hnone, hnone]
      rfl
    exact (bind_of_ok (readStore_eq hverified)).trans <| (bind_of_ok (check_ok rfl _)).trans <|
      (bind_of_ok rfl).trans <| (bind_of_ok rfl).trans <| (bind_of_ok (readStore_eq hopen)).trans <|
      bind_of_error hdetect
  rw [hraised]
  exact hblacklisted

/-- A client with one verifier and the roots that it has seen. -/
def watching (crypto : Crypto) (rows : List (ObservedRow crypto)) : VerifierClient crypto :=
  ⟨{ ObservedRoots.empty with observedRoots := rows }, [⟨plainSettings.config, [], []⟩]⟩

/-- A client that has seen roots of the operator only trusts the operator. -/
theorem trusted_watching {history : SignedHistory crypto} {rows : List (ObservedRow crypto)}
    (hrows : ∀ row ∈ rows, row.root ∈ history.roots) :
    history.Trusted (watching crypto rows).store.operatorKeyRotations (watching crypto rows).store where
  covers root hroot _ := by
    rcases hroot with ⟨row, hrow, rfl⟩ | ⟨row, hrow, -⟩
    · exact hrows row hrow
    · cases hrow
  trusted logId _ hblacklisted := by
    obtain ⟨row, hrow, -⟩ := hblacklisted
    cases hrow
  rotations_eq := rfl

theorem ownsSuccessors_watching (history : SignedHistory crypto) (rows : List (ObservedRow crypto)) :
    history.OwnsSuccessors (watching crypto rows).store.operatorKeyRotations := by
  intro row hrow
  cases hrow

theorem delivers_silentWorld (history : SignedHistory crypto) :
    Delivers history (silentWorld crypto) where
  latestRoot _ _ _ h := nomatch h
  proves _ _ _ _ _ _ h := nomatch h

theorem unblacklisted_heartbeat : ∃ (history : SignedHistory parityCrypto)
    (client' : VerifierClient parityCrypto), history.roots.length = 2 ∧
      ∀ logId ∈ history.logIds, ¬ client'.store.Blacklisted logId := by
  obtain ⟨operator, root, heartbeat, hroots, hroot, hheartbeat⟩ := MirroredBundles.exists_heartbeat
  have hsame : root.treeSize = heartbeat.treeSize ∧ root.rootHash = heartbeat.rootHash ∧
      root.spendMapRoot = heartbeat.spendMapRoot ∧ root.spendMapSize = heartbeat.spendMapSize := by
    rw [hroot, hheartbeat]
    exact ⟨rfl, rfl, rfl, rfl⟩
  obtain ⟨htree, hhash, hmap, hsize⟩ := hsame
  have htimes : root.timestamp < heartbeat.timestamp := by
    rw [hroot, hheartbeat]
    exact show (100 : Int) < 1000 by decide
  let history : SignedHistory parityCrypto :=
    { logIds := [root.logId]
      roots := [root, heartbeat]
      increasing := List.pairwise_pair.2 ⟨htimes, htree.le⟩
      rootHash := by simp [hhash]
      spendMapRoot := by simp [hmap] }
  have hsizes : history.OneMapSize := by simp [SignedHistory.OneMapSize, history, hsize]
  have hcovers : ∀ delivered ∈ history.roots, history.Covers delivered := fun _ h _ => h
  -- the later root comes first, and the client restarts with the earlier one as its anchor
  have hfirst : ∃ client, (watching parityCrypto []).step (.operate 0 (.observeRoot heartbeat "mirror-a")
      (silentWorld parityCrypto) 10) = some client :=
    ⟨_, rfl⟩
  obtain ⟨client, hfirst⟩ := hfirst
  have hsecond : ∃ client', client.step (.construct plainSettings (some root) true
      (silentWorld parityCrypto) 10) = some client' :=
    ⟨_, rfl⟩
  obtain ⟨client', hsecond⟩ := hsecond
  have htrusted : history.Trusted _ (watching parityCrypto []).store :=
    trusted_watching fun _ h => nomatch h
  refine ⟨history, client', rfl, unblacklisted_of_reaches hsizes
    (ownsSuccessors_watching history []) htrusted ((Runs.Reaches.refl.next ?_ hfirst).next ?_ hsecond)⟩
  · exact ⟨hcovers heartbeat (List.mem_cons_of_mem _ List.mem_cons_self),
      delivers_silentWorld history⟩
  · refine ⟨fun delivered hdelivered => ?_, delivers_silentWorld history⟩
    cases hdelivered
    exact hcovers root List.mem_cons_self

theorem not_unblacklisted_size : ¬ ∀ (crypto : Crypto) (history : SignedHistory crypto)
    (client client' : VerifierClient crypto),
    history.OwnsSuccessors client.store.operatorKeyRotations →
    history.Trusted client.store.operatorKeyRotations client.store →
    Runs.Reaches step (fun _ event => DeliversFrom history event) client client' →
      ∀ logId ∈ history.logIds, ¬ client'.store.Blacklisted logId := by
  intro hall
  obtain ⟨history, first, second, hroots, hlogs, hlog, hcollides, hverified⟩ := exists_twoSizes
  have hfirst : first ∈ history.roots := hroots ▸ List.mem_cons_self
  have hsecond : second ∈ history.roots := hroots ▸ List.mem_cons_of_mem _ List.mem_cons_self
  have hfind : (watching parityCrypto [⟨first, "mirror-a"⟩]).store.findEquivocation second
      = some (first, "same_tree_size") := by
    have hstored : (watching parityCrypto [⟨first, "mirror-a"⟩]).store.rootsForLog second.logId
        = [first] := by
      rw [hlog]
      exact List.filter_cons_of_pos (decide_eq_true rfl)
    rw [ObservedRoots.findEquivocation, hstored, List.findSome?_cons, hcollides]
    rfl
  have hstep : ∃ client', (watching parityCrypto [⟨first, "mirror-a"⟩]).step
      (.operate 0 (.observeRoot second "mirror-b") (silentWorld parityCrypto) 10) = some client' ∧
        client'.store = (observeRoot plainSettings.config (silentWorld parityCrypto) 10 second "mirror-b"
          ((watching parityCrypto [⟨first, "mirror-a"⟩]).stateOf ⟨plainSettings.config, [], []⟩)).2.store :=
    ⟨_, rfl, congrArg VerifierState.store (snd_bind_pure _ _ _)⟩
  obtain ⟨client', hstep, hstore⟩ := hstep
  have htrusted : history.Trusted _ (watching parityCrypto [⟨first, "mirror-a"⟩]).store :=
    trusted_watching fun row hrow => by rwa [List.mem_singleton.1 hrow]
  have hreaches : Runs.Reaches step (fun _ event => DeliversFrom history event)
      (watching parityCrypto [⟨first, "mirror-a"⟩]) client' := by
    refine Runs.Reaches.refl.next ?_ hstep
    exact ⟨fun _ => hsecond, delivers_silentWorld history⟩
  have hnot := hall parityCrypto history _ client' (ownsSuccessors_watching history _) htrusted
    hreaches first.logId (hlogs ▸ List.mem_singleton_self _)
  rw [hstore] at hnot
  exact hnot (blacklisted_observeRoot rfl rfl (hverified second hsecond _) (hverified first hfirst _)
    hfind "mirror-b")

end VerifierClient
