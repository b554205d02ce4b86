import InternationalDollar.KeyRecords
import InternationalDollar.Lib.Dict

set_option autoImplicit false

/-! # Recovery witnesses (`transparency_client`)

A feed states by a recovery witness when it first saw a message. An operator appends a transfer after
the root-lag window only if enough feeds saw its announcement in time. Feeds are told apart by their id
and their key together. -/

/-- `LOG_RECOVERY_WITNESS_TYPE`. -/
def logRecoveryWitnessType : String := "ind.operator_recovery_witness.v3"

/-- `LOG_RECOVERY_WITNESS_SIGNATURE_DOMAIN`. -/
def logRecoveryWitnessSignatureDomain : String := "IND_OPERATOR_RECOVERY_WITNESS_V3"

/-- A recovery witness. -/
structure RecoveryWitness where
  type : String
  version : Int
  signatureAlgorithm : String
  messageHash : String
  feedId : String
  feedPublicKey : String
  firstSeen : Int
  sourceSegmentHash : String
  signature : String
deriving DecidableEq

namespace RecoveryWitness

/-- The witness as a JSON object, with some members after the message hash. -/
def members (w : RecoveryWitness) (signature : List (String × Json)) : Json :=
  .obj ([("feed_id", .str w.feedId), ("feed_public_key", .str w.feedPublicKey),
    ("first_seen", .int w.firstSeen), ("message_hash", .str w.messageHash)] ++ signature ++
    [("signature_algorithm", .str w.signatureAlgorithm),
      ("source_segment_hash", .str w.sourceSegmentHash), ("type", .str w.type),
      ("version", .int w.version)])

/-- The witness as a JSON object. -/
def toJson (w : RecoveryWitness) : Json :=
  w.members [("signature", .str w.signature)]

/-- `str` of a signature. No other value than these has a text that reads as 64 bytes. -/
def signatureText : Json → Option String
  | .str s => some s
  | .int n => some (String.ofList (Json.renderInt n))
  | _ => none

/-- The fields of a JSON object that has those of a witness and no others. A hash that is not a string
    is no hash, or a number beyond the limits on what can be signed. -/
def ofJson : Json → Except String RecoveryWitness
  | .obj members => do
      Check.require (members.map Prod.fst = ["feed_id", "feed_public_key", "first_seen", "message_hash",
        "signature", "signature_algorithm", "source_segment_hash", "type", "version"])
        "malformed operator recovery witness"
      match members.map Prod.snd with
      | [.str feedId, .str feedPublicKey, .int firstSeen, .str messageHash, signature,
          .str signatureAlgorithm, .str sourceSegmentHash, .str type, .int version] => do
          let signature ← Check.ofOption (signatureText signature)
            "invalid operator recovery witness signature"
          pure { type, version, signatureAlgorithm, messageHash, feedId, feedPublicKey, firstSeen,
                 sourceSegmentHash, signature }
      | _ => .error "malformed operator recovery witness"
  | _ => .error "malformed operator recovery witness"

/-- `recovery_witness_signature_payload`. -/
def recoveryWitnessSignaturePayload (w : RecoveryWitness) : Except String Bytes :=
  signaturePayload logRecoveryWitnessSignatureDomain (w.members [])

/-- The witness before it is signed. -/
def unsigned (messageHash feedId : String) (firstSeen : Int) (sourceSegmentHash feedPublicKey : String) :
    RecoveryWitness where
  type := logRecoveryWitnessType
  version := logVersion
  signatureAlgorithm := logSignatureAlgorithm
  messageHash := messageHash
  feedId := feedId
  feedPublicKey := feedPublicKey
  firstSeen := firstSeen
  sourceSegmentHash := sourceSegmentHash
  signature := ""

/-- `make_recovery_witness`. -/
def makeRecoveryWitness (crypto : Crypto) (messageHash feedId : String) (firstSeen : Int)
    (sourceSegmentHash feedPrivateKey feedPublicKey : String) : Except String RecoveryWitness := do
  let messageHash ← hex32 messageHash "recovery witness message hash"
  let sourceSegmentHash ← hex32 sourceSegmentHash "recovery witness source segment hash"
  let w := unsigned messageHash feedId firstSeen sourceSegmentHash (Text.strip feedPublicKey)
  let payload ← w.recoveryWitnessSignaturePayload
  let signature ← signOperatorPayload crypto feedPrivateKey payload
  pure { w with signature := signature }

/-- The checks of `verify_recovery_witness` on the fields, which return the normalized witness. -/
def verifyFields (crypto : Crypto) (trustedFeedPublicKeys : Option (List String))
    (w : RecoveryWitness) : Except String RecoveryWitness := do
  Check.require (w.type = logRecoveryWitnessType) "not an operator recovery witness"
  Check.require (w.version = logVersion) "unsupported operator recovery witness version"
  Check.require (w.signatureAlgorithm = logSignatureAlgorithm)
    "unsupported operator recovery witness signature algorithm"
  let messageHash ← hex32 w.messageHash "recovery witness message hash"
  let sourceSegmentHash ← hex32 w.sourceSegmentHash "recovery witness source segment hash"
  let feedId := Text.strip w.feedId
  let feedPublicKey := Text.strip w.feedPublicKey
  requireMin w.firstSeen 0 "operator recovery witness first_seen"
  Check.require (∀ keys ∈ trustedFeedPublicKeys,
    feedPublicKey ∈ (keys.map Text.strip).filter fun key => key ≠ "")
    "operator recovery witness feed key is not trusted"
  let payload ← w.recoveryWitnessSignaturePayload
  let valid ← verifyOperatorPayload crypto feedPublicKey w.signature payload w.signatureAlgorithm
  Check.require (valid = true) "invalid operator recovery witness signature"
  pure { w with messageHash, sourceSegmentHash, feedId, feedPublicKey }

/-- `verify_recovery_witness`. -/
def verifyRecoveryWitness (crypto : Crypto) (trustedFeedPublicKeys : Option (List String))
    (witness : Json) : Except String RecoveryWitness := do
  let w ← ofJson witness
  w.verifyFields crypto trustedFeedPublicKeys

/-! ## The quorum -/

/-- What a witness is told apart by. -/
def identity (w : RecoveryWitness) : String × String :=
  (w.feedId, w.feedPublicKey)

/-- What `recovery_witness_quorum` requires of one witness. -/
def accept (crypto : Crypto) (messageHash : String) (transferTimestamp maxRootLagSeconds : Int)
    (trustedFeedPublicKeys : Option (List String)) (witness : Json) : Except String RecoveryWitness := do
  let normalized ← verifyRecoveryWitness crypto trustedFeedPublicKeys witness
  Check.require (normalized.messageHash = messageHash) "operator recovery witness message hash mismatch"
  Check.require (transferTimestamp ≤ normalized.firstSeen) "operator recovery witness predates transfer"
  Check.require (normalized.firstSeen - transferTimestamp ≤ maxRootLagSeconds)
    "operator recovery witness saw transfer too late"
  pure normalized

/-- One step of the loop over the witnesses: `accepted.setdefault(identity, normalized)`, or the text of
    the error. -/
def collect (check : Json → Except String RecoveryWitness)
    (state : List RecoveryWitness × List String) (witness : Json) :
    List RecoveryWitness × List String :=
  match check witness with
  | .ok normalized => (dictSetDefault identity state.1 normalized, state.2)
  | .error e => (state.1, state.2 ++ [e])

/-- The order of the sort key `(feed_id, feed_public_key)`. -/
def before (a b : RecoveryWitness) : Bool :=
  decide (a.feedId < b.feedId) || (a.feedId == b.feedId && decide (a.feedPublicKey ≤ b.feedPublicKey))

/-- `recovery_witness_quorum`. -/
def recoveryWitnessQuorum (crypto : Crypto) (witnesses : List Json) (messageHash : String)
    (transferTimestamp minWitnesses maxRootLagSeconds : Int)
    (trustedFeedPublicKeys : Option (List String)) : Except String (List RecoveryWitness) := do
  let messageHash ← hex32 messageHash "recovery witness message hash"
  let state := witnesses.foldl
    (collect (accept crypto messageHash transferTimestamp maxRootLagSeconds trustedFeedPublicKeys)) ([], [])
  let detail := if state.2 = [] then "not enough recovery witnesses" else "; ".intercalate state.2
  Check.require (minWitnesses ≤ state.1.length)
    ("operator recovery witness quorum not satisfied: " ++ detail)
  pure (state.1.mergeSort before)

/-- A witness of a feed for a message that the feed saw within the window. -/
structure Vouches (crypto : Crypto) (messageHash : String) (transferTimestamp maxRootLagSeconds : Int)
    (trustedFeedPublicKeys : Option (List String)) (w : RecoveryWitness) (id : String × String) :
    Prop where
  type_eq : w.type = logRecoveryWitnessType
  version_eq : w.version = logVersion
  signatureAlgorithm_eq : w.signatureAlgorithm = logSignatureAlgorithm
  messageHash_hex : IsHex32 w.messageHash
  messageHash_eq : Text.lower w.messageHash = Text.lower messageHash
  sourceSegmentHash_hex : IsHex32 w.sourceSegmentHash
  firstSeen_nonneg : 0 ≤ w.firstSeen
  timestamp_le : transferTimestamp ≤ w.firstSeen
  firstSeen_le : w.firstSeen ≤ transferTimestamp + maxRootLagSeconds
  feedId_eq : Text.strip w.feedId = id.1
  feedPublicKey_eq : Text.strip w.feedPublicKey = id.2
  trusted : ∀ keys ∈ trustedFeedPublicKeys, id.2 ∈ (keys.map Text.strip).filter fun key => key ≠ ""
  signed : ∃ payload, w.recoveryWitnessSignaturePayload = .ok payload ∧
    verifyOperatorPayload crypto id.2 w.signature payload w.signatureAlgorithm = .ok true

/-- Some witness of the list is one of the feed. -/
def VouchedBy (crypto : Crypto) (witnesses : List Json) (messageHash : String)
    (transferTimestamp maxRootLagSeconds : Int) (trustedFeedPublicKeys : Option (List String))
    (id : String × String) : Prop :=
  ∃ value ∈ witnesses, ∃ w, ofJson value = .ok w ∧
    w.Vouches crypto messageHash transferTimestamp maxRootLagSeconds trustedFeedPublicKeys id

section Quorum

variable {crypto : Crypto} {messageHash : String} {transferTimestamp maxRootLagSeconds : Int}
  {trustedFeedPublicKeys : Option (List String)} {value : Json} {normalized : RecoveryWitness}

theorem exists_accept_iff {id : String × String} :
    (∃ normalized, accept crypto (Text.lower messageHash) transferTimestamp maxRootLagSeconds
        trustedFeedPublicKeys value = .ok normalized ∧ normalized.identity = id) ↔
      ∃ w, ofJson value = .ok w ∧
        w.Vouches crypto messageHash transferTimestamp maxRootLagSeconds trustedFeedPublicKeys id := by
  simp only [accept, verifyRecoveryWitness, verifyFields, Check.bind_eq_ok, Check.require_eq_ok,
    requireMin_eq_ok, hex32_eq_ok, Check.pure_eq_ok]
  constructor
  · rintro ⟨_, ⟨_, ⟨w, hw, _, htype, _, hversion, _, halgorithm, _, ⟨hhash, rfl⟩, _, ⟨hsegment, rfl⟩, _,
      hseen, _, htrusted, payload, hpayload, _, hvalid, _, rfl, rfl⟩, _, hmessage, _, hafter, _, hlag,
      rfl⟩, rfl⟩
    exact ⟨w, hw, htype, hversion, halgorithm, hhash, hmessage, hsegment, hseen, hafter,
      by simp only at hlag; omega, rfl, rfl, htrusted, payload, hpayload, hvalid⟩
  · rintro ⟨w, hw, h⟩
    obtain ⟨feedId, feedPublicKey⟩ := id
    obtain ⟨payload, hpayload, hvalid⟩ := h.signed
    have hid : Text.strip w.feedId = feedId := h.feedId_eq
    have hkey : Text.strip w.feedPublicKey = feedPublicKey := h.feedPublicKey_eq
    have htrusted := h.trusted
    have hlag := h.firstSeen_le
    subst hid hkey
    exact ⟨_, ⟨_, ⟨w, hw, (), h.type_eq, (), h.version_eq, (), h.signatureAlgorithm_eq, _,
      ⟨h.messageHash_hex, rfl⟩, _, ⟨h.sourceSegmentHash_hex, rfl⟩, (), h.firstSeen_nonneg, (), htrusted,
      payload, hpayload, true, hvalid, (), rfl, rfl⟩, (), h.messageHash_eq, (), h.timestamp_le, (),
      by simp only; omega, rfl⟩, rfl⟩

section Collect

variable {check : Json → Except String RecoveryWitness} {state : List RecoveryWitness × List String}

theorem collect_cases (check : Json → Except String RecoveryWitness)
    (state : List RecoveryWitness × List String) (value : Json) :
    (∃ e, check value = .error e ∧ (collect check state value).1 = state.1) ∨
      ∃ normalized, check value = .ok normalized ∧
        (collect check state value).1 = dictSetDefault identity state.1 normalized := by
  unfold collect
  cases hcheck : check value with
  | error e => exact Or.inl ⟨e, rfl, rfl⟩
  | ok normalized => exact Or.inr ⟨normalized, rfl, rfl⟩

theorem nodup_foldl_collect (values : List Json) (h : (state.1.map identity).Nodup) :
    ((values.foldl (collect check) state).1.map identity).Nodup := by
  induction values generalizing state with
  | nil => exact h
  | cons value values ih =>
    refine ih ?_
    rcases collect_cases check state value with ⟨_, -, hsame⟩ | ⟨_, -, hput⟩
    · rw [hsame]
      exact h
    · rw [hput]
      exact nodup_dictSetDefault h

theorem mem_of_mem_foldl_collect (values : List Json) {w : RecoveryWitness}
    (h : w ∈ (values.foldl (collect check) state).1) :
    w ∈ state.1 ∨ ∃ value ∈ values, check value = .ok w := by
  induction values generalizing state with
  | nil => exact Or.inl h
  | cons value values ih =>
    rcases ih h with hstep | ⟨v, hv, hw⟩
    · rcases collect_cases check state value with ⟨_, -, hsame⟩ | ⟨normalized, hok, hput⟩
      · exact Or.inl (hsame ▸ hstep)
      · rw [hput] at hstep
        rcases mem_of_mem_dictSetDefault hstep with hold | rfl
        · exact Or.inl hold
        · exact Or.inr ⟨value, List.mem_cons_self, hok⟩
    · exact Or.inr ⟨v, List.mem_cons_of_mem _ hv, hw⟩

/-- Every accepted witness has its identity collected. -/
theorem mem_keys_foldl_collect (values : List Json) {id : String × String}
    (h : id ∈ state.1.map identity ∨
      ∃ value ∈ values, ∃ normalized, check value = .ok normalized ∧ normalized.identity = id) :
    id ∈ (values.foldl (collect check) state).1.map identity := by
  induction values generalizing state with
  | nil =>
    rcases h with h | ⟨_, hv, -⟩
    · exact h
    · exact nomatch hv
  | cons value values ih =>
    refine ih ?_
    rcases collect_cases check state value with ⟨e, herror, hsame⟩ | ⟨w, hok, hput⟩
    · rw [hsame]
      rcases h with h | ⟨v, hv, normalized, hcheck, hid⟩
      · exact Or.inl h
      · rcases List.mem_cons.1 hv with rfl | hv
        · exact nomatch herror.symm.trans hcheck
        · exact Or.inr ⟨v, hv, normalized, hcheck, hid⟩
    · rw [hput, mem_keys_dictSetDefault]
      rcases h with h | ⟨v, hv, normalized, hcheck, hid⟩
      · exact Or.inl (Or.inl h)
      · rcases List.mem_cons.1 hv with rfl | hv
        · obtain rfl := Except.ok.inj (hok.symm.trans hcheck)
          exact Or.inl (Or.inr hid.symm)
        · exact Or.inr ⟨v, hv, normalized, hcheck, hid⟩

end Collect

variable {witnesses : List Json} {minWitnesses : Int} {result : List RecoveryWitness}

theorem recoveryWitnessQuorum_eq_ok :
    recoveryWitnessQuorum crypto witnesses messageHash transferTimestamp minWitnesses maxRootLagSeconds
        trustedFeedPublicKeys = .ok result ↔
      IsHex32 messageHash ∧
        let accepted := (witnesses.foldl (collect (accept crypto (Text.lower messageHash)
          transferTimestamp maxRootLagSeconds trustedFeedPublicKeys)) ([], [])).1
        minWitnesses ≤ accepted.length ∧ accepted.mergeSort before = result := by
  simp only [recoveryWitnessQuorum, Check.bind_eq_ok, hex32_eq_ok, Check.require_eq_ok,
    Check.pure_eq_ok]
  constructor
  · rintro ⟨_, ⟨hhex, rfl⟩, _, hmin, hresult⟩
    exact ⟨hhex, hmin, hresult⟩
  · rintro ⟨hhex, hmin, hresult⟩
    exact ⟨_, ⟨hhex, rfl⟩, (), hmin, hresult⟩

/-- What the quorum returns: witnesses with pairwise distinct identities, at least as many as asked for,
    each vouched by one of the list. -/
theorem vouched_of_quorum (h : recoveryWitnessQuorum crypto witnesses messageHash transferTimestamp
    minWitnesses maxRootLagSeconds trustedFeedPublicKeys = .ok result) :
    (result.map identity).Nodup ∧ minWitnesses ≤ result.length ∧
      ∀ id ∈ result.map identity, VouchedBy crypto witnesses messageHash transferTimestamp
        maxRootLagSeconds trustedFeedPublicKeys id := by
  obtain ⟨-, hmin, rfl⟩ := recoveryWitnessQuorum_eq_ok.1 h
  have hperm := List.mergeSort_perm (witnesses.foldl (collect (accept crypto (Text.lower messageHash)
    transferTimestamp maxRootLagSeconds trustedFeedPublicKeys)) ([], [])).1 before
  refine ⟨(hperm.map identity).nodup_iff.2 (nodup_foldl_collect _ List.nodup_nil), ?_, ?_⟩
  · rw [hperm.length_eq]
    exact hmin
  · intro id hid
    obtain ⟨w, hw, hwid⟩ := List.mem_map.1 hid
    rcases mem_of_mem_foldl_collect witnesses (hperm.mem_iff.1 hw) with hnil | ⟨value, hvalue, hok⟩
    · exact nomatch hnil
    · exact ⟨value, hvalue, exists_accept_iff.1 ⟨w, hok, hwid⟩⟩

/-- Distinct identities that the list vouches for make the quorum succeed. -/
theorem exists_quorum (hhex : IsHex32 messageHash) {ids : List (String × String)} (hnodup : ids.Nodup)
    (hmin : minWitnesses ≤ ids.length)
    (hids : ∀ id ∈ ids, VouchedBy crypto witnesses messageHash transferTimestamp maxRootLagSeconds
      trustedFeedPublicKeys id) :
    ∃ result, recoveryWitnessQuorum crypto witnesses messageHash transferTimestamp minWitnesses
      maxRootLagSeconds trustedFeedPublicKeys = .ok result := by
  refine ⟨_, recoveryWitnessQuorum_eq_ok.2 ⟨hhex, ?_, rfl⟩⟩
  have hsubset : ids ⊆ (witnesses.foldl (collect (accept crypto (Text.lower messageHash)
      transferTimestamp maxRootLagSeconds trustedFeedPublicKeys)) ([], [])).1.map identity := by
    intro id hid
    obtain ⟨value, hvalue, hw⟩ := hids id hid
    obtain ⟨normalized, hok⟩ := exists_accept_iff.2 hw
    exact mem_keys_foldl_collect witnesses (Or.inr ⟨value, hvalue, normalized, hok⟩)
  have hlength := (List.subperm_of_subset hnodup hsubset).length_le
  rw [List.length_map] at hlength
  omega

end Quorum

/-- **The quorum succeeds exactly if the list vouches for enough distinct pairs of feed id and feed key**,
    each by a valid signature over the message hash within the window; and then for as many distinct
    keys, if no key vouches under two feed ids. -/
theorem recoveryQuorum_iff (crypto : Crypto) (witnesses : List Json) (messageHash : String)
    (transferTimestamp minWitnesses maxRootLagSeconds : Int)
    (trustedFeedPublicKeys : Option (List String)) :
    let vouched := VouchedBy crypto witnesses messageHash transferTimestamp maxRootLagSeconds
      trustedFeedPublicKeys
    ((∃ result, recoveryWitnessQuorum crypto witnesses messageHash transferTimestamp minWitnesses
        maxRootLagSeconds trustedFeedPublicKeys = .ok result) ↔
      IsHex32 messageHash ∧ ∃ ids : List (String × String), ids.Nodup ∧ minWitnesses ≤ ids.length ∧
        ∀ id ∈ ids, vouched id) ∧
    ∀ result, recoveryWitnessQuorum crypto witnesses messageHash transferTimestamp minWitnesses
        maxRootLagSeconds trustedFeedPublicKeys = .ok result →
      ((result.map identity).Nodup ∧ minWitnesses ≤ result.length ∧
        ∀ id ∈ result.map identity, vouched id) ∧
      ((∀ feedId feedId' key, vouched (feedId, key) → vouched (feedId', key) → feedId = feedId') →
        ∃ keys : List String, keys.Nodup ∧ minWitnesses ≤ keys.length ∧
          ∀ key ∈ keys, ∃ feedId, vouched (feedId, key)) := by
  intro vouched
  refine ⟨⟨?_, ?_⟩, ?_⟩
  · rintro ⟨result, h⟩
    obtain ⟨hnodup, hmin, hids⟩ := vouched_of_quorum h
    rw [← List.length_map identity] at hmin
    exact ⟨(recoveryWitnessQuorum_eq_ok.1 h).1, result.map identity, hnodup, hmin, hids⟩
  · rintro ⟨hhex, ids, hnodup, hmin, hids⟩
    exact exists_quorum hhex hnodup hmin hids
  · intro result h
    obtain ⟨hnodup, hmin, hids⟩ := vouched_of_quorum h
    refine ⟨⟨hnodup, hmin, hids⟩, ?_⟩
    intro hone
    refine ⟨(result.map identity).map Prod.snd, ?_, ?_, ?_⟩
    · refine hnodup.map_on ?_
      rintro ⟨feedId, key⟩ ha ⟨feedId', _⟩ hb rfl
      rw [hone feedId feedId' key (hids _ ha) (hids _ hb)]
    · rw [List.length_map, List.length_map]
      exact hmin
    · intro key hkey
      obtain ⟨⟨feedId, _⟩, hid, rfl⟩ := List.mem_map.1 hkey
      exact ⟨feedId, hids _ hid⟩

/-! ## One key with two feed ids -/

/-- The holder of a feed key can make a witness under any short feed id, and it counts. -/
theorem exists_makeRecoveryWitness {crypto : Crypto} (keys : KeyPair crypto) {messageHash segmentHash : String}
    (hmessage : IsHex32 messageHash) (hsegment : IsHex32 segmentHash) {feedId : String}
    (hfeed : IsShort feedId) {firstSeen transferTimestamp maxRootLagSeconds : Int}
    (hseen : 0 ≤ firstSeen) (hnumber : firstSeen.natAbs ≤ jsonLimits.maxIntegerAbs)
    (hafter : transferTimestamp ≤ firstSeen) (hlag : firstSeen ≤ transferTimestamp + maxRootLagSeconds) :
    ∃ w, makeRecoveryWitness crypto messageHash feedId firstSeen segmentHash keys.privateKey
        keys.publicKey = .ok w ∧
      ofJson w.toJson = .ok w ∧
      w.Vouches crypto messageHash transferTimestamp maxRootLagSeconds none
        (Text.strip feedId, keys.publicKey) := by
  let base := unsigned (Text.lower messageHash) feedId firstSeen (Text.lower segmentHash) keys.publicKey
  have hmessage' : IsHex32 (Text.lower messageHash) := hmessage.lower
  have hsegment' : IsHex32 (Text.lower segmentHash) := hsegment.lower
  obtain ⟨payload, hpayload⟩ : ∃ payload, base.recoveryWitnessSignaturePayload = .ok payload := by
    obtain ⟨raw, hraw⟩ : ∃ raw, canonicalBytes (base.members []) = .ok raw := by
      have hmembers : 8 ≤ jsonLimits.maxObjectKeys := by decide
      refine exists_canonicalBytes hmembers ?_
      simp only [List.append_nil, List.forall_mem_append, List.forall_mem_cons]
      exact ⟨⟨⟨by decide, hfeed⟩, ⟨by decide, keys.isShort_publicKey⟩, ⟨by decide, hnumber⟩,
        ⟨by decide, hmessage'.isShort⟩, by simp⟩,
        ⟨by decide, (by decide : IsShort logSignatureAlgorithm)⟩, ⟨by decide, hsegment'.isShort⟩,
        ⟨by decide, (by decide : IsShort logRecoveryWitnessType)⟩,
        ⟨by decide, (by decide : logVersion.natAbs ≤ jsonLimits.maxIntegerAbs)⟩, by simp⟩
    exact ⟨_, Check.bind_eq_ok.2 ⟨raw, hraw, rfl⟩⟩
  let signature := String.ofList (Base85.b85encode (crypto.sign keys.seed payload))
  refine ⟨{ base with signature := signature }, ?_, rfl, ?_⟩
  · unfold makeRecoveryWitness
    rw [keys.strip_publicKey]
    exact Check.bind_eq_ok.2 ⟨_, hex32_eq_ok.2 ⟨hmessage, rfl⟩, Check.bind_eq_ok.2
      ⟨_, hex32_eq_ok.2 ⟨hsegment, rfl⟩, Check.bind_eq_ok.2 ⟨payload, hpayload, Check.bind_eq_ok.2
        ⟨_, signOperatorPayload_eq keys payload, rfl⟩⟩⟩⟩
  · exact ⟨rfl, rfl, rfl, hmessage', Text.lower_lower _, hsegment', hseen, hafter, hlag, rfl,
      keys.strip_publicKey, fun _ h => (nomatch h), payload, hpayload,
      verifyOperatorPayload_sign keys payload⟩

/-- A quorum of two that one key reaches with two feed ids. -/
theorem not_recoveryQuorum_distinctKeys : ¬ ∀ (crypto : Crypto) (witnesses : List Json)
    (messageHash : String) (transferTimestamp minWitnesses maxRootLagSeconds : Int)
    (trustedFeedPublicKeys : Option (List String)) (result : List RecoveryWitness),
    recoveryWitnessQuorum crypto witnesses messageHash transferTimestamp minWitnesses maxRootLagSeconds
      trustedFeedPublicKeys = .ok result →
    ∃ keys : List String, keys.Nodup ∧ minWitnesses ≤ keys.length ∧ ∀ key ∈ keys, ∃ feedId,
      VouchedBy crypto witnesses messageHash transferTimestamp maxRootLagSeconds trustedFeedPublicKeys
        (feedId, key) := by
  intro hall
  obtain ⟨keys, -⟩ := KeyPair.exists_of_seed sampleCrypto (List.replicate 32 0) List.length_replicate
  let hash := Text.hex (List.replicate 32 0)
  have hhash : IsHex32 hash := isHex32_hex List.length_replicate
  obtain ⟨a, -, hreadA, hA⟩ := @exists_makeRecoveryWitness _ keys _ _ hhash hhash
    "feed-a" (by decide) 2010 2000 60 (by decide) (by decide) (by decide) (by decide)
  obtain ⟨b, -, hreadB, hB⟩ := @exists_makeRecoveryWitness _ keys _ _ hhash hhash
    "feed-b" (by decide) 2010 2000 60 (by decide) (by decide) (by decide) (by decide)
  -- both witnesses carry the one key
  have hkey : ∀ feedId key, VouchedBy sampleCrypto [a.toJson, b.toJson] hash 2000 60 none
      (feedId, key) → key = keys.publicKey := by
    rintro feedId key ⟨value, hvalue, w, hw, hvouches⟩
    have hstrip : Text.strip w.feedPublicKey = key := hvouches.feedPublicKey_eq
    rcases List.mem_cons.1 hvalue with rfl | hvalue
    · obtain rfl := Except.ok.inj (hreadA.symm.trans hw)
      exact hstrip.symm.trans hA.feedPublicKey_eq
    · rw [List.mem_singleton] at hvalue
      subst hvalue
      obtain rfl := Except.ok.inj (hreadB.symm.trans hw)
      exact hstrip.symm.trans hB.feedPublicKey_eq
  have hne : Text.strip "feed-a" ≠ Text.strip "feed-b" := by decide
  obtain ⟨result, hresult⟩ : ∃ result, recoveryWitnessQuorum sampleCrypto [a.toJson, b.toJson] hash
      2000 2 60 none = .ok result := by
    refine @exists_quorum _ _ _ _ _ _ 2 hhash
      [(Text.strip "feed-a", keys.publicKey), (Text.strip "feed-b", keys.publicKey)] ?_ (by simp) ?_
    · simp [hne]
    · intro id hid
      rcases List.mem_cons.1 hid with rfl | hid
      · exact ⟨a.toJson, by simp, a, hreadA, hA⟩
      · rw [List.mem_singleton] at hid
        subst hid
        exact ⟨b.toJson, by simp, b, hreadB, hB⟩
  obtain ⟨distinct, hnodup, hmin, hdistinct⟩ := hall _ _ _ _ _ _ _ _ hresult
  have hsubset : distinct ⊆ [keys.publicKey] := by
    intro key hmem
    obtain ⟨feedId, hvouched⟩ := hdistinct key hmem
    rw [hkey feedId key hvouched]
    exact List.mem_singleton_self _
  have hlength := (List.subperm_of_subset hnodup hsubset).length_le
  rw [List.length_singleton] at hlength
  omega

end RecoveryWitness
