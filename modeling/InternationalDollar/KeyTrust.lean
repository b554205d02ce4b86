import InternationalDollar.MirroredBundles
import InternationalDollar.ObservedRoots

set_option autoImplicit false

/-! # Whose roots a verifier trusts (`_verify_signed_root_for_lineage`)

A verifier that is configured with an operator key accepts the roots of that key and, after a rotation,
those of the new key. Of all the revocations of the key it looks at the one with the latest time only,
and of all the rotations at the one with the greatest tree size only; so a record that is accepted can
displace another one, and a root that was rejected is accepted again. -/

/-- The configuration of a `TransparencyVerifier`. -/
structure VerifierConfig where
  acceptLegacy : Bool
  operatorPublicKey : Option String
  strictMode : Bool
  minMirrors : Nat
  mirrorIdentities : List String
  maxCurrentRootAgeSeconds : Int
  currentRootFutureSkewSeconds : Int
  consistencyMaxStaleSeconds : Int
  evidenceLocation : String

namespace VerifierConfig

variable {crypto : Crypto}

/-- The configured operator key, without blanks. An empty text is none. -/
def configuredKey (config : VerifierConfig) : Option String :=
  match config.operatorPublicKey with
  | none => none
  | some key => if key = "" then none else some (Text.strip key)

/-- `_configured_log_id`. -/
def configuredLogId (crypto : Crypto) (config : VerifierConfig) : Option String :=
  config.configuredKey.map (logIdFromPublicKey crypto)

/-- `_is_configured_log`. -/
def isConfiguredLog (config : VerifierConfig) (store : ObservedRoots crypto) (logId : String) : Bool :=
  match config.configuredLogId crypto with
  | none => true
  | some configured =>
      if logId = configured then true
      else
        match store.keyRotationForSuccessorLogId logId with
        | none => false
        | some rotation => rotation.logId = configured

/-- `_lineage_log_id_for_root`. -/
def lineageLogIdForRoot (config : VerifierConfig) (store : ObservedRoots crypto)
    (root : MirroredRoot crypto) : String :=
  match config.configuredLogId crypto with
  | none => root.logId
  | some configured =>
      if root.logId = configured then configured
      else
        match store.keyRotationForSuccessorLogId root.logId with
        | none => root.logId
        | some rotation =>
            if rotation.logId = configured ∧ rotation.newPublicKey = root.operatorPublicKey then
              configured
            else root.logId

/-- `_rotation_for_root`. -/
def rotationForRoot (config : VerifierConfig) (store : ObservedRoots crypto)
    (root : MirroredRoot crypto) : Option KeyRotation :=
  match config.configuredLogId crypto with
  | none => none
  | some configured =>
      (store.keyRotationsForLog configured).find? fun rotation =>
        (root.logId = rotation.logId && root.operatorPublicKey = rotation.oldPublicKey) ||
          (root.logId = rotation.newLogId && root.operatorPublicKey = rotation.newPublicKey)

/-- `_roots_share_lineage`. -/
def rootsShareLineage (config : VerifierConfig) (store : ObservedRoots crypto)
    (oldRoot newRoot : MirroredRoot crypto) : Bool :=
  config.lineageLogIdForRoot store oldRoot = config.lineageLogIdForRoot store newRoot

/-- The error for a root whose key was revoked. -/
def revokedKeyError : String := "transparency root was signed by a revoked operator key"

/-- The error for a root whose key was replaced. -/
def overlapError : String :=
  "transparency root was signed by the old operator key after rotation overlap"

/-- `_verify_signed_root_for_lineage`. -/
def verifySignedRootForLineage (config : VerifierConfig) (store : ObservedRoots crypto)
    (root : MirroredRoot crypto) : Except String Unit := do
  root.verifySignedRoot crypto config.acceptLegacy none
  match config.configuredKey with
  | none => pure ()
  | some configuredKey =>
      let configuredLogId := logIdFromPublicKey crypto configuredKey
      let rootKey := Text.strip root.operatorPublicKey
      if root.logId = configuredLogId ∧ rootKey = configuredKey then
        Check.require (∀ revocation ∈ store.keyRevocationForKey configuredLogId configuredKey,
          root.timestamp < revocation.revocationTimestamp) revokedKeyError
        Check.require (∀ latest ∈ (store.keyRotationsForLog configuredLogId).getLast?,
          ¬ (latest.effectiveFromTreeSize ≤ root.treeSize ∧
            latest.overlapUntilTimestamp < root.timestamp)) overlapError
      else
        match config.rotationForRoot store root with
        | none => .error "transparency root was signed by an unexpected operator"
        | some rotation =>
            if rootKey = rotation.newPublicKey ∧ root.logId = rotation.newLogId then
              Check.require (rotation.effectiveFromTreeSize ≤ root.treeSize)
                "transparency root was signed by successor key before rotation effective tree size"
            else .error "transparency root was signed by an unexpected operator"

end VerifierConfig

/-- A record about an operator key. -/
inductive KeyRecord where
  | rotation (record : KeyRotation)
  | revocation (record : KeyRevocation)

namespace ObservedRoots

variable {crypto : Crypto}

/-- `record_key_rotation` and `record_key_revocation`. -/
def recordKey (store : ObservedRoots crypto) : KeyRecord → Except String (ObservedRoots crypto)
  | .rotation record => store.recordKeyRotation record
  | .revocation record => store.recordKeyRevocation record

/-- The rotations of a log. -/
def rotationsOf (store : ObservedRoots crypto) (logId : String) : List KeyRotation :=
  (store.operatorKeyRotations.map Prod.snd).filter fun record => record.logId = logId

/-- The revocations of a log. -/
def revocationsOf (store : ObservedRoots crypto) (logId : String) : List KeyRevocation :=
  (store.operatorKeyRevocations.map Prod.snd).filter fun record => record.logId = logId

/-- A recorded record leaves those that were there. -/
theorem recordKey_keeps {store store' : ObservedRoots crypto} {record : KeyRecord}
    (h : store.recordKey record = .ok store') (logId : String) :
    (∀ rotation ∈ store.rotationsOf logId, rotation ∈ store'.rotationsOf logId) ∧
      ∀ revocation ∈ store.revocationsOf logId, revocation ∈ store'.revocationsOf logId := by
  cases record with
  | rotation record =>
    obtain ⟨_, -, h⟩ := Check.bind_eq_ok.1 h
    obtain ⟨hash, -, h⟩ := Check.bind_eq_ok.1 h
    split at h
    · cases h
      exact ⟨fun _ hr => hr, fun _ hr => hr⟩
    · obtain ⟨_, -, h⟩ := Check.bind_eq_ok.1 h
      cases h
      refine ⟨fun rotation hr => ?_, fun _ hr => hr⟩
      unfold rotationsOf
      rw [List.map_append, List.filter_append]
      exact List.mem_append_left _ hr
  | revocation record =>
    obtain ⟨_, -, h⟩ := Check.bind_eq_ok.1 h
    obtain ⟨_, -, h⟩ := Check.bind_eq_ok.1 h
    obtain ⟨hash, -, h⟩ := Check.bind_eq_ok.1 h
    rw [Check.pure_eq_ok] at h
    subst h
    split
    · exact ⟨fun _ hr => hr, fun _ hr => hr⟩
    · refine ⟨fun _ hr => hr, fun revocation hr => ?_⟩
      unfold revocationsOf
      rw [List.map_append, List.filter_append]
      exact List.mem_append_left _ hr

end ObservedRoots

/-! ## Which records decide -/

/-- The rotation applies to a root of the old key. -/
def KeyRotation.Covers {crypto : Crypto} (rotation : KeyRotation) (root : MirroredRoot crypto) : Prop :=
  rotation.effectiveFromTreeSize ≤ root.treeSize ∧ rotation.overlapUntilTimestamp < root.timestamp

/-- The revocation applies to a root of the revoked key. -/
def KeyRevocation.Covers {crypto : Crypto} (revocation : KeyRevocation) (root : MirroredRoot crypto) :
    Prop :=
  revocation.revocationTimestamp ≤ root.timestamp

namespace VerifierConfig

variable {crypto : Crypto} {config : VerifierConfig} {store store' : ObservedRoots crypto}
  {root : MirroredRoot crypto} {key : String}

/-- The verifier accepts the root. -/
def Accepts (config : VerifierConfig) (store : ObservedRoots crypto) (root : MirroredRoot crypto) :
    Prop :=
  config.verifySignedRootForLineage store root = .ok ()

/-- The verifier rejects the root because its key was revoked or used after the overlap. -/
def RejectsKey (config : VerifierConfig) (store : ObservedRoots crypto) (root : MirroredRoot crypto) :
    Prop :=
  config.verifySignedRootForLineage store root = .error revokedKeyError ∨
    config.verifySignedRootForLineage store root = .error overlapError

/-- The root is one of the configured key, given without blanks. -/
structure OldKeyRoot (config : VerifierConfig) (root : MirroredRoot crypto) (key : String) : Prop where
  configured : config.configuredKey = some key
  logId_eq : root.logId = logIdFromPublicKey crypto key
  key_eq : Text.strip root.operatorPublicKey = key

/-- Some stored record about the key applies to the root. -/
def Covered (store : ObservedRoots crypto) (root : MirroredRoot crypto) (key : String) : Prop :=
  (∃ rotation ∈ store.rotationsOf (logIdFromPublicKey crypto key), rotation.Covers root) ∨
    ∃ revocation ∈ store.revocationsOf (logIdFromPublicKey crypto key),
      Text.strip revocation.revokedPublicKey = key ∧ revocation.Covers root

/-- The rotation of the greatest tree size applies to the root, or the key is revoked by some record
    and every such record applies to the root. -/
def Undisplaced (store : ObservedRoots crypto) (root : MirroredRoot crypto) (key : String) : Prop :=
  (∃ latest ∈ (store.keyRotationsForLog (logIdFromPublicKey crypto key)).getLast?,
      latest.Covers root) ∨
    ((∃ revocation ∈ store.revocationsOf (logIdFromPublicKey crypto key),
        revocation.revokedPublicKey = key) ∧
      ∀ revocation ∈ store.revocationsOf (logIdFromPublicKey crypto key),
        revocation.revokedPublicKey = key → revocation.Covers root)

/-- A key record leaves trust in keys alone or lowers it, and every stored record is minded. -/
structure Monotone (config : VerifierConfig) (store store' : ObservedRoots crypto)
    (root : MirroredRoot crypto) : Prop where
  rejects : config.RejectsKey store root → ¬ config.Accepts store' root
  minds : ∀ key, OldKeyRoot config root key → Covered store' root key → ¬ config.Accepts store' root

theorem mem_keyRevocationForKey {logId : String} :
    (∀ revocation ∈ store.keyRevocationForKey logId key,
        root.timestamp < revocation.revocationTimestamp) ↔
      ¬ ((∃ revocation ∈ store.revocationsOf logId, revocation.revokedPublicKey = key) ∧
        ∀ revocation ∈ store.revocationsOf logId,
          revocation.revokedPublicKey = key → revocation.Covers root) := by
  have hmem : ∀ revocation : KeyRevocation, revocation ∈ store.revocationsOf logId ↔
      revocation ∈ store.operatorKeyRevocations.map Prod.snd ∧ revocation.logId = logId := by
    intro revocation
    unfold ObservedRoots.revocationsOf
    rw [List.mem_filter, decide_eq_true_iff]
  cases hfound : store.keyRevocationForKey logId key with
  | none =>
    have hnone := Select.first_eq_none.1 hfound
    refine iff_of_true (fun _ h => nomatch h) ?_
    rintro ⟨⟨revocation, hrevocation, hkey⟩, -⟩
    obtain ⟨hin, hlog⟩ := (hmem revocation).1 hrevocation
    have := hnone revocation hin
    rw [hlog, hkey] at this
    simp at this
  | some latest =>
    obtain ⟨hin, hmeets, hlatest⟩ := Select.first_eq_some hfound
    rw [Bool.and_eq_true, decide_eq_true_iff, decide_eq_true_iff] at hmeets
    constructor
    · rintro hlt ⟨-, hall⟩
      have hle := hall latest ((hmem latest).2 ⟨hin, hmeets.1⟩) hmeets.2
      exact absurd hle (not_le.2 (hlt latest rfl))
    · rintro hnot _ ⟨⟩
      by_contra hge
      refine hnot ⟨⟨latest, (hmem latest).2 ⟨hin, hmeets.1⟩, hmeets.2⟩, ?_⟩
      intro revocation hrevocation hkey
      obtain ⟨hin', hlog⟩ := (hmem revocation).1 hrevocation
      -- No revocation is later than the one that is looked at.
      have hle := hlatest revocation hin' (by rw [hlog, hkey]; simp)
      unfold KeyRevocation.Covers
      omega

/-- A root of the configured key is accepted unless the records that decide apply to it. -/
theorem accepts_iff (h : OldKeyRoot config root key) : config.Accepts store root ↔
    root.verifySignedRoot crypto config.acceptLegacy none = .ok () ∧ ¬ Undisplaced store root key := by
  unfold Accepts verifySignedRootForLineage
  rw [h.configured, Check.bind_eq_ok]
  dsimp only
  rw [if_pos ⟨h.logId_eq, h.key_eq⟩]
  simp only [Check.bind_eq_ok, Check.require_eq_ok, mem_keyRevocationForKey, exists_const]
  have hlatest : (∀ latest ∈ (store.keyRotationsForLog (logIdFromPublicKey crypto key)).getLast?,
      ¬ (latest.effectiveFromTreeSize ≤ root.treeSize ∧ latest.overlapUntilTimestamp < root.timestamp)) ↔
      ¬ ∃ latest ∈ (store.keyRotationsForLog (logIdFromPublicKey crypto key)).getLast?,
        latest.Covers root := by
    constructor
    · rintro hall ⟨latest, hmem, hcovers⟩
      exact hall latest hmem hcovers
    · intro hnot latest hmem hcovers
      exact hnot ⟨latest, hmem, hcovers⟩
  rw [hlatest]
  unfold Undisplaced
  rw [not_or]
  constructor
  · rintro ⟨_, hroot, hrevoked, hrotated⟩
    exact ⟨hroot, hrotated, hrevoked⟩
  · rintro ⟨hroot, hrotated, hrevoked⟩
    exact ⟨(), hroot, hrevoked, hrotated⟩

theorem covered_of_undisplaced (hstripped : Text.strip key = key) (h : Undisplaced store root key) :
    Covered store root key := by
  rcases h with ⟨latest, hlatest, hcovers⟩ | ⟨⟨revocation, hmem, hkey⟩, hall⟩
  · refine Or.inl ⟨latest, ?_, hcovers⟩
    exact Select.mem_orderBy.1 (List.mem_of_getLast? hlatest)
  · refine Or.inr ⟨revocation, hmem, ?_, hall revocation hmem hkey⟩
    rw [hkey, hstripped]

theorem Covered.mono {record : KeyRecord} (h : store.recordKey record = .ok store')
    (hcovered : Covered store root key) : Covered store' root key := by
  obtain ⟨hrotations, hrevocations⟩ := ObservedRoots.recordKey_keeps h (logIdFromPublicKey crypto key)
  rcases hcovered with ⟨rotation, hmem, hcovers⟩ | ⟨revocation, hmem, hkey, hcovers⟩
  · exact Or.inl ⟨rotation, hrotations rotation hmem, hcovers⟩
  · exact Or.inr ⟨revocation, hrevocations revocation hmem, hkey, hcovers⟩

/-- The errors about keys are raised for roots of the configured key only. -/
theorem oldKeyRoot_of_rejects (h : config.RejectsKey store root)
    (hroot : root.verifySignedRoot crypto config.acceptLegacy none = .ok ()) :
    ∃ key, OldKeyRoot config root key := by
  have hother : ∀ error, config.verifySignedRootForLineage store root = .error error →
      error = revokedKeyError ∨ error = overlapError := by
    intro error herror
    rcases h with h | h
    · exact Or.inl (Except.error.inj (herror.symm.trans h))
    · exact Or.inr (Except.error.inj (herror.symm.trans h))
  have haccepted : config.verifySignedRootForLineage store root ≠ .ok () := by
    intro hok
    rcases h with h | h
    · exact nomatch hok.symm.trans h
    · exact nomatch hok.symm.trans h
  unfold verifySignedRootForLineage at hother haccepted
  rw [hroot] at hother haccepted
  cases hkey : config.configuredKey with
  | none =>
    rw [hkey] at haccepted
    exact absurd rfl haccepted
  | some key =>
    rw [hkey] at hother haccepted
    simp only [Check.ok_bind] at hother haccepted
    by_cases hold : root.logId = logIdFromPublicKey crypto key ∧
        Text.strip root.operatorPublicKey = key
    · exact ⟨key, hkey, hold.1, hold.2⟩
    · -- The other branch has errors of its own.
      rw [if_neg hold] at hother haccepted
      exfalso
      cases hrotation : config.rotationForRoot store root with
      | none =>
        rw [hrotation] at hother
        exact absurd (hother _ rfl) (by decide)
      | some rotation =>
        rw [hrotation] at hother haccepted
        simp only at hother haccepted
        by_cases hnew : Text.strip root.operatorPublicKey = rotation.newPublicKey ∧
            root.logId = rotation.newLogId
        · rw [if_pos hnew] at hother haccepted
          by_cases heffective : rotation.effectiveFromTreeSize ≤ root.treeSize
          · exact haccepted (Check.require_of heffective _)
          · exact absurd (hother _ (if_neg heffective)) (by decide)
        · rw [if_neg hnew] at hother
          exact absurd (hother _ rfl) (by decide)

/-- A root of an operator that does not verify by itself is rejected whatever the store holds. -/
theorem not_accepts_of_unsigned (h : root.verifySignedRoot crypto config.acceptLegacy none ≠ .ok ()) :
    ¬ config.Accepts store root := by
  intro hok
  obtain ⟨_, hroot, -⟩ := Check.bind_eq_ok.1 hok
  exact h hroot

/-- **Trust in keys is monotone for a root exactly if no accepted record displaces one that applies to
    it.** -/
theorem monotone_iff {record : KeyRecord} (h : store.recordKey record = .ok store') :
    Monotone config store store' root ↔
      ∀ key, OldKeyRoot config root key →
        root.verifySignedRoot crypto config.acceptLegacy none = .ok () →
        Covered store' root key → Undisplaced store' root key := by
  constructor
  · intro hmonotone key hold hroot hcovered
    by_contra hnot
    exact hmonotone.minds key hold hcovered ((accepts_iff hold).2 ⟨hroot, hnot⟩)
  · intro hundisplaced
    have hminds : ∀ key, OldKeyRoot config root key → Covered store' root key →
        ¬ config.Accepts store' root := by
      intro key hold hcovered haccepts
      obtain ⟨hroot, hnot⟩ := (accepts_iff hold).1 haccepts
      exact hnot (hundisplaced key hold hroot hcovered)
    refine ⟨?_, hminds⟩
    intro hrejects
    by_cases hroot : root.verifySignedRoot crypto config.acceptLegacy none = .ok ()
    · obtain ⟨key, hold⟩ := oldKeyRoot_of_rejects hrejects hroot
      have hbefore : Undisplaced store root key := by
        by_contra hnot
        have haccepts : config.verifySignedRootForLineage store root = .ok () :=
          (accepts_iff hold).2 ⟨hroot, hnot⟩
        rcases hrejects with hrejects | hrejects
        · exact nomatch haccepts.symm.trans hrejects
        · exact nomatch haccepts.symm.trans hrejects
      have hstripped : Text.strip key = key := by
        rw [← hold.key_eq, Text.strip_strip]
      exact hminds key hold ((covered_of_undisplaced hstripped hbefore).mono h)
    · exact not_accepts_of_unsigned hroot

/-! ## A key that comes back -/

open MirroredBundles (parityCrypto parityCrypto_ne oneLeafRoot oneLeafRoot_spec)

theorem rejectsKey_of_undisplaced (hold : OldKeyRoot config root key)
    (hroot : root.verifySignedRoot crypto config.acceptLegacy none = .ok ())
    (h : Undisplaced store root key) : config.RejectsKey store root := by
  have hnot : ¬ config.Accepts store root := fun haccepts => ((accepts_iff hold).1 haccepts).2 h
  unfold Accepts at hnot
  unfold RejectsKey
  unfold verifySignedRootForLineage at hnot ⊢
  rw [hroot, hold.configured] at hnot ⊢
  simp only [Check.ok_bind] at hnot ⊢
  rw [if_pos ⟨hold.logId_eq, hold.key_eq⟩] at hnot ⊢
  unfold Check.require at hnot ⊢
  split
  · next hrevoked =>
    rw [if_pos hrevoked] at hnot
    simp only [Check.ok_bind] at hnot ⊢
    split
    · next hrotated => exact absurd (if_pos hrotated) hnot
    · exact Or.inr rfl
  · exact Or.inl rfl

/-- The verifier of the counterexample. -/
def plainConfig (operatorPublicKey : String) : VerifierConfig where
  acceptLegacy := false
  operatorPublicKey := some operatorPublicKey
  strictMode := false
  minMirrors := 2
  mirrorIdentities := []
  maxCurrentRootAgeSeconds := 300
  currentRootFutureSkewSeconds := 120
  consistencyMaxStaleSeconds := 300
  evidenceLocation := "observed_roots.db"

/-- A revocation of a rotation, signed in the stand-in for the primitives. -/
def revocationAt (rotation : KeyRotation) (rotationRecordHash : String) (timestamp : Int) :
    KeyRevocation :=
  { KeyRevocation.unsigned rotation rotationRecordHash timestamp "compromise" with
    signatureBySuccessorKey := String.ofList (Base85.b85encode (List.replicate 64 0)) }

/-- A revocation at time 1000 is one byte longer than one at time 100. -/
theorem length_revocationAt (rotation : KeyRotation) (hash : String) :
    (revocationAt rotation hash 1000).toJson.bytes.length
      = (revocationAt rotation hash 100).toJson.bytes.length + 1 := by
  have h100 : (Json.renderInt 100).length = 3 := by decide
  have h1000 : (Json.renderInt 1000).length = 4 := by decide
  simp only [Json.bytes, Json.asciiBytes, KeyRevocation.toJson, KeyRevocation.members, revocationAt,
    KeyRevocation.unsigned, List.cons_append, List.nil_append, Json.render, Json.renderMembers,
    Json.renderMoreMembers, List.length_map, List.length_cons, List.length_append, h100, h1000]
  omega

/-- A root is rejected for its key, which was revoked, and accepted after the key was revoked again, for
    a later time. -/
theorem exists_displaced : ∃ (config : VerifierConfig) (before store store' : ObservedRoots parityCrypto)
    (first second : KeyRecord) (root : MirroredRoot parityCrypto),
    before.recordKey first = .ok store ∧ store.recordKey second = .ok store' ∧
      config.RejectsKey store root ∧ config.Accepts store' root := by
  obtain ⟨keys, -⟩ := KeyPair.exists_of_seed parityCrypto (List.replicate 32 0) List.length_replicate
  obtain ⟨rotation, hash, -, hrotation, hhash, hlog, hold, hnew, heffective, hoverlap⟩ :=
    exists_makeKeyRotation keys keys (le_refl 0) (le_refl 0) (by decide : (0 : Int) ≤ 10000)
      (by decide) (by decide : IsShort "scheduled")
  have hrevoke : ∀ timestamp : Int, 0 ≤ timestamp → timestamp.natAbs ≤ jsonLimits.maxIntegerAbs →
      (revocationAt rotation hash timestamp).verifyKeyRevocation parityCrypto rotation = .ok () ∧
        (revocationAt rotation hash timestamp).keyRevocationId parityCrypto
          = .ok (parityCrypto.sha3Hex (revocationAt rotation hash timestamp).toJson.bytes) := by
    intro timestamp htime hnumber
    obtain ⟨payload, hmade⟩ := exists_makeKeyRevocation keys hrotation hhash hnew
      (hold ▸ keys.isShort_publicKey) htime hnumber (by decide : IsShort "compromise")
    exact hmade.2
  obtain ⟨hverify100, hid100⟩ := hrevoke 100 (by decide) (by decide)
  obtain ⟨hverify1000, hid1000⟩ := hrevoke 1000 (by decide) (by decide)
  have hids : parityCrypto.sha3Hex (revocationAt rotation hash 100).toJson.bytes
      ≠ parityCrypto.sha3Hex (revocationAt rotation hash 1000).toJson.bytes :=
    parityCrypto_ne (length_revocationAt rotation hash)
  obtain ⟨hverified, root, hrootEq, -⟩ := oneLeafRoot_spec keys 500 (by decide) (by decide)
  let before : ObservedRoots parityCrypto :=
    { ObservedRoots.empty with operatorKeyRotations := [(hash, rotation)] }
  let store : ObservedRoots parityCrypto :=
    { before with operatorKeyRevocations :=
        [(parityCrypto.sha3Hex (revocationAt rotation hash 100).toJson.bytes,
          revocationAt rotation hash 100)] }
  let store' : ObservedRoots parityCrypto :=
    { before with operatorKeyRevocations :=
        [(parityCrypto.sha3Hex (revocationAt rotation hash 100).toJson.bytes,
          revocationAt rotation hash 100),
         (parityCrypto.sha3Hex (revocationAt rotation hash 1000).toJson.bytes,
          revocationAt rotation hash 1000)] }
  have hroot : root.verifySignedRoot parityCrypto false none = .ok () := by
    rw [hrootEq]
    exact hverified false
  have hkey : OldKeyRoot (plainConfig keys.publicKey) root keys.publicKey := by
    refine ⟨?_, ?_, ?_⟩
    · have hne : keys.publicKey ≠ "" := by
        intro hempty
        have hlength := keys.length_publicKey
        rw [hempty] at hlength
        exact absurd hlength (by decide)
      unfold configuredKey plainConfig
      simp only [if_neg hne, keys.strip_publicKey]
    · rw [hrootEq]
      rfl
    · rw [hrootEq]
      exact keys.strip_publicKey
  have hfind : before.keyRotationByHash hash = some rotation := by
    simp [ObservedRoots.keyRotationByHash, before]
  refine ⟨plainConfig keys.publicKey, before, store, store',
    .revocation (revocationAt rotation hash 100), .revocation (revocationAt rotation hash 1000), root,
    ?_, ?_, ?_, ?_⟩
  · exact Check.bind_eq_ok.2 ⟨rotation, Check.ofOption_eq_ok.2 hfind, Check.bind_eq_ok.2 ⟨(), hverify100,
      Check.bind_eq_ok.2 ⟨_, hid100, rfl⟩⟩⟩
  · refine Check.bind_eq_ok.2 ⟨rotation, Check.ofOption_eq_ok.2 hfind, Check.bind_eq_ok.2 ⟨(),
      hverify1000, Check.bind_eq_ok.2 ⟨_, hid1000, ?_⟩⟩⟩
    simp [store, store', hids]
  · refine rejectsKey_of_undisplaced hkey hroot (Or.inr ⟨⟨revocationAt rotation hash 100, ?_, hold⟩, ?_⟩)
    · simp only [ObservedRoots.revocationsOf, store, List.map_cons, List.map_nil, List.mem_filter,
        List.mem_singleton, decide_eq_true_iff, true_and]
      exact hlog
    · intro revocation hmem _
      have := List.mem_of_mem_filter hmem
      simp only [store, List.map_cons, List.map_nil, List.mem_singleton] at this
      subst this
      unfold KeyRevocation.Covers
      rw [hrootEq]
      show (100 : Int) ≤ 500
      decide
  · refine (accepts_iff hkey).2 ⟨hroot, ?_⟩
    rintro (⟨latest, hlatest, hcovers⟩ | ⟨-, hall⟩)
    · have hmem := Select.mem_orderBy.1 (List.mem_of_getLast? hlatest)
      have := List.mem_of_mem_filter hmem
      simp only [store', before, List.map_cons, List.map_nil, List.mem_singleton] at this
      subst this
      have hafter := hcovers.2
      rw [hoverlap, hrootEq] at hafter
      exact absurd hafter (by show ¬ (10000 : Int) < 500; decide)
    · have hcovers := hall (revocationAt rotation hash 1000) (by
        simp only [ObservedRoots.revocationsOf, store', List.map_cons, List.map_nil, List.mem_filter,
          List.mem_cons, List.not_mem_nil, or_false, or_true, decide_eq_true_iff, true_and]
        exact hlog) hold
      unfold KeyRevocation.Covers at hcovers
      rw [hrootEq] at hcovers
      exact absurd hcovers (by show ¬ (1000 : Int) ≤ 500; decide)

/-- The equivalence where a revocation is displaced: some stored record does not count. -/
theorem monotone_iff_displaced : ∃ (config : VerifierConfig) (store' : ObservedRoots parityCrypto)
    (root : MirroredRoot parityCrypto) (key : String),
    OldKeyRoot config root key ∧ Covered store' root key ∧ ¬ Undisplaced store' root key := by
  obtain ⟨config, before, store, store', first, second, root, -, hrecord, hrejects, haccepts⟩ :=
    exists_displaced
  have hnot : ¬ Monotone config store store' root := fun h => h.rejects hrejects haccepts
  rw [monotone_iff hrecord] at hnot
  simp only [not_forall] at hnot
  obtain ⟨key, hold, -, hcovered, hdisplaced⟩ := hnot
  exact ⟨config, store', root, key, hold, hcovered, hdisplaced⟩

/-- Accepting a key record can restore trust in a key. -/
theorem not_monotone : ¬ ∀ (crypto : Crypto) (config : VerifierConfig)
    (store store' : ObservedRoots crypto) (record : KeyRecord) (root : MirroredRoot crypto),
    store.recordKey record = .ok store' → Monotone config store store' root := by
  intro hall
  obtain ⟨config, before, store, store', first, second, root, -, hrecord, hrejects, haccepts⟩ :=
    exists_displaced
  exact (hall parityCrypto config store store' second root hrecord).rejects hrejects haccepts

end VerifierConfig
