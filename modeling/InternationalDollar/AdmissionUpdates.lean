import InternationalDollar.AdmissionFrame
import InternationalDollar.KeyRecords

set_option autoImplicit false

/-! # Updates that are applied (`operator_admission`)

An update names the set before it by a hash of what `_operator_set_data` copies, and the set after it in full. The node port
is not copied, so an update for a set is one for each set that differs from it in the port only. It is applied at most
once in any sequence, for the set after it has one operator more than the set before it. -/

namespace OperatorAdmission

open OperatorSet

variable {lib : TextLibrary} {crypto : Crypto} {members members' : List (String × Json)} {items : List Json}
  {fanout : Int} {set set' proposed : OperatorSet} {operatorSet bundle update operator : Json}
  {requireBurnIn : Bool} {trusted : List String}

/-! ## Texts of a signed update -/

theorem getD_eq_of_item {key : String} {value default : Json} (h : (Json.obj members).item key = .ok value) :
    Json.getD key default members = value := by
  obtain ⟨_, ⟨⟩, hget⟩ := Json.item_eq_ok.1 h
  rw [Json.getD, hget, Option.getD_some]

theorem popMember_signed (unsigned : Update) (signature : Json) (publicKey : String) :
    Json.popMember "signature" (unsigned.members ++ [("signature", signature)] ++ Update.lastMembers publicKey)
      = unsigned.members ++ Update.lastMembers publicKey := by
  simp [Json.popMember, Update.members, Update.lastMembers]

theorem verifySignature_sign (keys : KeyPair crypto) (payload : Bytes) :
    verifySignature lib crypto keys.publicKey
      (.str (String.ofList (Base85.b85encode (crypto.sign keys.seed payload)))) payload = .ok true := by
  rw [verifySignature, lib.str_text, b85decode_strip_b85encode]
  exact keys.verifyKeySignature_sign payload

/-- A key is one text, as no character of it separates two texts. -/
theorem splitMany_publicKey (keys : KeyPair crypto) : Text.splitMany keys.publicKey = [keys.publicKey] := by
  have hseparator : ∀ c ∈ publicKeyPrefix ++ Base85.alphabet, (decide (c = ',') || decide (c = '\n')) = false := by
    have hall : ((publicKeyPrefix ++ Base85.alphabet).all fun c => !(decide (c = ',') || decide (c = '\n'))) = true := by
      decide
    intro c hc
    have hc' := List.all_eq_true.1 hall c hc
    rwa [Bool.not_eq_true'] at hc'
  have hchars : ∀ c ∈ keys.publicKey.toList, (decide (c = ',') || decide (c = '\n')) = false := by
    intro c hc
    rw [KeyPair.publicKey, encodePublicKey, String.toList_ofList, List.mem_append] at hc
    rcases hc with hc | hc
    · exact hseparator c (List.mem_append_left _ hc)
    · exact hseparator c (List.mem_append_right _ (Base85.b85encode_mem _ c hc))
  have hne : keys.publicKey ≠ "" := by
    intro hempty
    have hlength := keys.length_publicKey
    rw [hempty] at hlength
    exact absurd hlength (by decide)
  rw [Text.splitMany, List.splitOnP_eq_singleton hchars, List.map_singleton, String.ofList_toList,
    keys.strip_publicKey]
  simp [hne]

/-- A signed update passes the checks on it alone, for whoever trusts the key. -/
theorem verifyUpdateSignature_signed (keys : KeyPair crypto) (unsigned : Update) {payload : Bytes}
    (hpayload : signaturePayload updateSignatureDomain (.obj (unsigned.members ++ Update.lastMembers keys.publicKey))
      = .ok payload) (htrusted : keys.publicKey ∈ trusted.flatMap Text.splitMany) :
    verifyUpdateSignature lib crypto (unsigned.members ++
      [("signature", .str (String.ofList (Base85.b85encode (crypto.sign keys.seed payload))))] ++
        Update.lastMembers keys.publicKey) trusted = .ok () := by
  have hkey : Text.strip (lib.str (.str keys.publicKey)) = keys.publicKey := by
    rw [lib.str_text, keys.strip_publicKey]
  rw [verifyUpdateSignature, popMember_signed]
  have hfields : ∀ signature : Json, requireFields (unsigned.members ++ [("signature", signature)] ++
      Update.lastMembers keys.publicKey) ["action", "candidate_bundle_hash", "candidate_operator", "network",
        "previous_operator_set_hash", "proposed_operator_set", "proposed_operator_set_hash", "signature",
        "signature_algorithm", "signing_public_key", "type", "version"] "operator-set update" = .ok () := by
    intro signature
    exact Check.require_of rfl _
  have hmember : ∀ key value, (key, value) ∈ Update.lastMembers keys.publicKey → ∀ signature : Json,
      Json.getD key .null (unsigned.members ++ [("signature", signature)] ++ Update.lastMembers keys.publicKey)
        = value := by
    intro key value hmem signature
    simp only [Update.lastMembers, List.mem_cons, List.not_mem_nil, or_false, Prod.mk.injEq] at hmem
    rcases hmem with ⟨rfl, rfl⟩ | ⟨rfl, rfl⟩ | ⟨rfl, rfl⟩ | ⟨rfl, rfl⟩ <;> rfl
  rw [hfields, Check.ok_bind, hmember "type" (.str updateType) (by simp [Update.lastMembers]), Check.require_of rfl,
    Check.ok_bind, hmember "version" (.int 1) (by simp [Update.lastMembers]), Json.toInt, Check.ok_bind,
    Check.require_of rfl, Check.ok_bind]
  have haction : ∀ signature : Json, Json.getD "action" .null (unsigned.members ++ [("signature", signature)] ++
      Update.lastMembers keys.publicKey) = .str "add_operator" := fun _ => rfl
  have hsignature : ∀ signature : Json, Json.getD "signature" .null (unsigned.members ++ [("signature", signature)] ++
      Update.lastMembers keys.publicKey) = signature := fun _ => rfl
  rw [haction, Check.require_of rfl, Check.ok_bind,
    hmember "signing_public_key" (.str keys.publicKey) (by simp [Update.lastMembers])]
  dsimp only
  rw [hkey, Check.require_of htrusted, Check.ok_bind,
    hmember "signature_algorithm" (.str signatureAlgorithm) (by simp [Update.lastMembers]), Check.require_of rfl,
    Check.ok_bind, hpayload, Check.ok_bind, hsignature, verifySignature_sign, Check.ok_bind, Check.require_of rfl]

/-! ## Made updates -/

/-- What an update is made of. -/
structure MadeOf (lib : TextLibrary) (crypto : Crypto) (operatorSet bundle : Json) (keys : KeyPair crypto)
    (requireBurnIn : Bool) (update : Json) (unsigned : Update) : Prop where
  bundle_ok : ∃ record, verifyCandidateBundle lib crypto bundle operatorSet requireBurnIn = .ok record
  operator : bundle.item "operator" = .ok unsigned.candidateOperator
  proposed : operatorSetWithCandidate lib operatorSet unsigned.candidateOperator = .ok unsigned.proposedOperatorSet
  current : ∃ current, currentData lib operatorSet = .ok current ∧ unsigned.network = current.network ∧
    recordHash crypto current.toJson = .ok unsigned.previousOperatorSetHash
  bundleHash : recordHash crypto bundle = .ok unsigned.candidateBundleHash
  proposedHash : recordHash crypto unsigned.proposedOperatorSet.toJson = .ok unsigned.proposedOperatorSetHash
  burnIn : unsigned.burnInRequired = requireBurnIn
  signed : ∃ payload, signaturePayload updateSignatureDomain
    (.obj (unsigned.members ++ Update.lastMembers keys.publicKey)) = .ok payload ∧
      update = .obj (unsigned.members ++ [("signature", .str (String.ofList
        (Base85.b85encode (crypto.sign keys.seed payload))))] ++ Update.lastMembers keys.publicKey)

theorem exists_madeOf {keys : KeyPair crypto} {publicKey : String} {createdAt : Int}
    (hkey : Text.strip publicKey = keys.publicKey)
    (h : makeOperatorSetUpdate lib crypto operatorSet bundle keys.privateKey publicKey createdAt requireBurnIn
      = .ok update) :
    ∃ unsigned, MadeOf lib crypto operatorSet bundle keys requireBurnIn update unsigned := by
  obtain ⟨record, hrecord, h⟩ := Check.bind_eq_ok.1 h
  obtain ⟨operator, hoperator, h⟩ := Check.bind_eq_ok.1 h
  obtain ⟨proposed, hproposed, h⟩ := Check.bind_eq_ok.1 h
  obtain ⟨current, hcurrent, h⟩ := Check.bind_eq_ok.1 h
  obtain ⟨bundleHash, hbundle, h⟩ := Check.bind_eq_ok.1 h
  obtain ⟨previousHash, hprevious, h⟩ := Check.bind_eq_ok.1 h
  obtain ⟨proposedHash, hhash, h⟩ := Check.bind_eq_ok.1 h
  obtain ⟨payload, hpayload, h⟩ := Check.bind_eq_ok.1 h
  obtain ⟨signature, hsignature, h⟩ := Check.bind_eq_ok.1 h
  have hsign : signWithKey crypto keys.privateKey payload = .ok (crypto.sign keys.seed payload) :=
    signWithKey_encodePrivateKey crypto keys.length_seed payload
  obtain rfl := Except.ok.inj (hsign.symm.trans hsignature)
  obtain rfl := Except.ok.inj h
  rw [hkey] at hpayload
  exact ⟨⟨requireBurnIn, bundleHash, operator, createdAt, current.network, previousHash, proposed, proposedHash⟩,
    ⟨record, hrecord⟩, hoperator, hproposed, ⟨current, hcurrent, rfl, hprevious⟩, hbundle, hhash, rfl,
    payload, hpayload, by rw [hkey]⟩

/-- An update within the limits is within them when it is signed. -/
theorem exists_recordHash_signed {keys : KeyPair crypto} {unsigned : Update} {payload : Bytes} {signature : String}
    (hpayload : signaturePayload updateSignatureDomain (.obj (unsigned.members ++ Update.lastMembers keys.publicKey))
      = .ok payload) (hsignature : IsShort signature) :
    ∃ hash, recordHash crypto (.obj (unsigned.members ++ [("signature", .str signature)] ++
      Update.lastMembers keys.publicKey)) = .ok hash := by
  obtain ⟨raw, hraw, -⟩ := Check.bind_eq_ok.1 hpayload
  obtain ⟨-, -, hmembers⟩ := Json.validate_obj.1 (canonicalBytes_eq_ok.1 hraw).1
  refine ⟨_, Check.bind_eq_ok.2 ⟨_, canonicalBytes_eq_ok.2 ⟨?_, rfl⟩, rfl⟩⟩
  refine Json.validate_obj.2 ⟨by decide, show 14 ≤ 1024 by decide, fun member hmember => ?_⟩
  rcases List.mem_append.1 hmember with hmember | hmember
  · rcases List.mem_append.1 hmember with hmember | hmember
    · exact hmembers member (List.mem_append_left _ hmember)
    · rw [List.mem_singleton.1 hmember]
      exact ⟨show "signature".utf8ByteSize ≤ 65536 by decide, validate_text (by decide) hsignature⟩
  · exact hmembers member (List.mem_append_right _ hmember)

/-- An update that was made is accepted for the same set and bundle. -/
theorem MadeOf.verify {keys : KeyPair crypto} {unsigned : Update}
    (h : MadeOf lib crypto operatorSet bundle keys requireBurnIn update unsigned)
    (htrusted : keys.publicKey ∈ trusted.flatMap Text.splitMany) :
    verifyOperatorSetUpdate lib crypto update operatorSet bundle trusted = .ok unsigned.proposedOperatorSet := by
  obtain ⟨record, hrecord⟩ := h.bundle_ok
  obtain ⟨current, hcurrent, hnetwork, hprevious⟩ := h.current
  obtain ⟨payload, hpayload, hupdate⟩ := h.signed
  obtain ⟨updateHash, hupdateHash⟩ := exists_recordHash_signed hpayload (isShort_signature keys payload)
  obtain ⟨proposedBytes, hproposedBytes, -⟩ := Check.bind_eq_ok.1 h.proposedHash
  have hchecked := @verifyUpdateSignature_signed lib crypto trusted keys unsigned payload hpayload htrusted
  generalize hsigned : Json.str (String.ofList (Base85.b85encode (crypto.sign keys.seed payload))) = signature at *
  have hmember : ∀ key value, (key, value) ∈ unsigned.members → ∀ default,
      Json.getD key default (unsigned.members ++ [("signature", signature)] ++ Update.lastMembers keys.publicKey)
        = value := by
    intro key value hmem default
    simp only [Update.members, List.mem_cons, List.not_mem_nil, or_false, Prod.mk.injEq] at hmem
    rcases hmem with ⟨rfl, rfl⟩ | ⟨rfl, rfl⟩ | ⟨rfl, rfl⟩ | ⟨rfl, rfl⟩ | ⟨rfl, rfl⟩ | ⟨rfl, rfl⟩ | ⟨rfl, rfl⟩ |
      ⟨rfl, rfl⟩ | ⟨rfl, rfl⟩ <;> rfl
  have hmem : ∀ key value, (key, value) ∈ [("burn_in_required", Json.bool unsigned.burnInRequired),
      ("candidate_bundle_hash", .str unsigned.candidateBundleHash), ("network", .str unsigned.network),
      ("previous_operator_set_hash", .str unsigned.previousOperatorSetHash),
      ("proposed_operator_set", unsigned.proposedOperatorSet.toJson),
      ("proposed_operator_set_hash", .str unsigned.proposedOperatorSetHash)] → (key, value) ∈ unsigned.members := by
    intro key value hmem
    simp only [Update.members, List.mem_cons, List.not_mem_nil, or_false] at hmem ⊢
    tauto
  rw [hupdate, verifyOperatorSetUpdate, hchecked, Check.ok_bind, hcurrent, Check.ok_bind,
    hmember "network" (.str unsigned.network) (hmem _ _ (by simp)), lib.str_text, Check.require_of hnetwork,
    Check.ok_bind, hprevious, Check.ok_bind,
    hmember "previous_operator_set_hash" (.str unsigned.previousOperatorSetHash) (hmem _ _ (by simp)),
    Check.require_of rfl, Check.ok_bind, h.bundleHash, Check.ok_bind,
    hmember "candidate_bundle_hash" (.str unsigned.candidateBundleHash) (hmem _ _ (by simp)), Check.require_of rfl,
    Check.ok_bind, hmember "burn_in_required" (.bool unsigned.burnInRequired) (hmem _ _ (by simp)), Json.truthy, h.burnIn,
    hrecord, Check.ok_bind, h.operator, Check.ok_bind, h.proposed, Check.ok_bind, h.proposedHash, Check.ok_bind,
    hmember "proposed_operator_set_hash" (.str unsigned.proposedOperatorSetHash) (hmem _ _ (by simp)),
    Check.require_of rfl, Check.ok_bind,
    hmember "proposed_operator_set" unsigned.proposedOperatorSet.toJson (hmem _ _ (by simp)), hproposedBytes,
    Check.ok_bind, Check.ok_bind, Check.require_of rfl, Check.ok_bind, hupdateHash]
  rfl

/-! ## Another node port -/

/-- Two sets that differ in the node port at most. -/
def SameButPort (members members' : List (String × Json)) : Prop :=
  ∀ key, key ≠ "node_port" → AssocList.get? key members = AssocList.get? key members'

theorem SameButPort.getD (h : SameButPort members members') {key : String} (hkey : key ≠ "node_port")
    (default : Json) : Json.getD key default members = Json.getD key default members' := by
  rw [Json.getD, Json.getD, h key hkey]

theorem SameButPort.operatorSetData (h : SameButPort members members') :
    operatorSetData lib (.obj members) = operatorSetData lib (.obj members') := by
  unfold OperatorAdmission.operatorSetData networkOf
  simp only [Json.asObject, Check.ok_bind]
  rw [h.getD (by decide), h.getD (by decide), h.getD (by decide), h.getD (by decide), h.getD (by decide)]

/-- Another port is read as it is, and nothing else changes. -/
theorem SameButPort.readAs (h : SameButPort members members') (hread : ReadAs lib members items fanout set)
    {port : Int} (hne : port ≠ 0) (hport : Json.getD "node_port" .null members' = .int port) :
    ReadAs lib members' items fanout { set with nodePort := port } := by
  obtain ⟨hlisted, hmin, hfanout, hmax, hdomains, hoperators, hnetwork, -⟩ := hread
  unfold networkOf at hnetwork
  rw [h.getD (by decide)] at hlisted hmin hfanout hdomains hnetwork
  exact ⟨hlisted, hmin, hfanout, hmax, hdomains, hoperators, hnetwork, nodePortOf_int hne hport⟩

/-- Whether an update is accepted does not depend on the port. -/
theorem SameButPort.verifyOperatorSetUpdate (h : SameButPort members members')
    (hset : normalizeOperatorSet lib (.obj members) = .ok set) {port : Int} (hne : port ≠ 0)
    (hport : Json.getD "node_port" .null members' = .int port) (hnonempty : members ≠ []) (hnonempty' : members' ≠ []) :
    verifyOperatorSetUpdate lib crypto update (.obj members') bundle trusted
      = verifyOperatorSetUpdate lib crypto update (.obj members) bundle trusted := by
  obtain ⟨items, fanout, hread⟩ := normalizeOperatorSet_obj.1 hset
  have hset' : normalizeOperatorSet lib (.obj members') = .ok { set with nodePort := port } :=
    normalizeOperatorSet_obj.2 ⟨items, fanout, h.readAs hread hne hport⟩
  have hcurrent : currentData lib (.obj members') = currentData lib (.obj members) := by
    rw [currentData, currentData, hset, hset']
    rfl
  have hadd : operatorSetWithCandidate lib (.obj members') = operatorSetWithCandidate lib (.obj members) := by
    funext operator
    rw [operatorSetWithCandidate, operatorSetWithCandidate, h.operatorSetData]
  have htrue : ∀ {list : List (String × Json)}, list ≠ [] → (Json.obj list).truthy = true := by
    intro list hlist
    cases list with
    | nil => exact absurd rfl hlist
    | cons member rest => rfl
  have hmirrors : requiredMirrors lib (.obj members') = requiredMirrors lib (.obj members) := by
    funext bundle
    rw [requiredMirrors, requiredMirrors, if_pos (htrue hnonempty), if_pos (htrue hnonempty')]
    simp only [Json.asObject, Check.ok_bind]
    rw [h.getD (by decide), h.getD (by decide)]
  have hbundle : verifyCandidateBundle lib crypto bundle (.obj members')
      = verifyCandidateBundle lib crypto bundle (.obj members) := by
    funext requireBurnIn
    unfold verifyCandidateBundle
    rw [hmirrors, hadd, htrue hnonempty, htrue hnonempty']
  unfold OperatorAdmission.verifyOperatorSetUpdate
  rw [hcurrent, hadd, hbundle]

/-! ## Accepted updates -/

theorem operatorRecord_toJson_injective : Function.Injective OperatorRecord.toJson := by
  have htexts : ∀ {urls urls' : List String}, urls.map Json.str = urls'.map Json.str → urls = urls' :=
    fun h => List.map_injective_iff.2 (fun _ _ h => Json.str.inj h) h
  intro a b h
  obtain ⟨name, url, publicKey, mirrors, archives⟩ := a
  obtain ⟨name', url', publicKey', mirrors', archives'⟩ := b
  simp only [OperatorRecord.toJson, Json.obj.injEq, List.cons.injEq, Prod.mk.injEq, Json.arr.injEq, Json.str.injEq,
    true_and, and_true] at h
  obtain ⟨hmirrors, hname, harchives, hkey, hurl⟩ := h
  rw [hname, hurl, hkey, htexts hmirrors, htexts harchives]

theorem operatorSet_toJson_injective : Function.Injective OperatorSet.toJson := by
  intro a b h
  obtain ⟨network, nodePort, minRootMirrors, fanout, domains, operators⟩ := a
  obtain ⟨network', nodePort', minRootMirrors', fanout', domains', operators'⟩ := b
  simp only [OperatorSet.toJson, Json.obj.injEq, List.cons.injEq, Prod.mk.injEq, Json.arr.injEq, Json.str.injEq,
    Json.int.injEq, true_and, and_true] at h
  obtain ⟨hmin, hnetwork, hport, hfanout, hdomains, hoperators⟩ := h
  have hdomains' : domains = domains' := List.map_injective_iff.2 (fun _ _ h => Json.str.inj h) hdomains
  rw [hmin, hnetwork, hport, hfanout, hdomains', List.map_injective_iff.2 operatorRecord_toJson_injective hoperators]

/-- The set that an update proposes. -/
def Proposes (update : Json) (proposed : OperatorSet) : Prop :=
  update.item "proposed_operator_set" = .ok proposed.toJson

theorem Proposes.eq {proposed' : OperatorSet} (h : Proposes update proposed) (h' : Proposes update proposed') :
    proposed = proposed' :=
  operatorSet_toJson_injective (Except.ok.inj (h.symm.trans h'))

/-- What is known where an update was accepted. -/
structure Accepted (lib : TextLibrary) (update operatorSet : Json) (proposed : OperatorSet) : Prop where
  proposes : Proposes update proposed
  added : ∃ members items fanout set candidate, operatorSet = .obj members ∧ ReadAs lib members items fanout set ∧
    Added lib members items set candidate proposed

/-- An accepted update proposes what is computed from the set. -/
theorem accepted_of_verify
    (h : verifyOperatorSetUpdate lib crypto update operatorSet bundle trusted = .ok proposed) :
    Accepted lib update operatorSet proposed := by
  unfold verifyOperatorSetUpdate at h
  split at h
  · next listed =>
    obtain ⟨hchecked, h⟩ := Check.check_bind_eq_ok.1 h
    obtain ⟨current, hcurrent, h⟩ := Check.bind_eq_ok.1 h
    obtain ⟨-, h⟩ := Check.check_bind_eq_ok.1 h
    obtain ⟨previousHash, -, h⟩ := Check.bind_eq_ok.1 h
    obtain ⟨-, h⟩ := Check.check_bind_eq_ok.1 h
    obtain ⟨bundleHash, -, h⟩ := Check.bind_eq_ok.1 h
    obtain ⟨-, h⟩ := Check.check_bind_eq_ok.1 h
    obtain ⟨record, -, h⟩ := Check.bind_eq_ok.1 h
    obtain ⟨operator, -, h⟩ := Check.bind_eq_ok.1 h
    obtain ⟨computed, hcomputed, h⟩ := Check.bind_eq_ok.1 h
    obtain ⟨hash, -, h⟩ := Check.bind_eq_ok.1 h
    obtain ⟨-, h⟩ := Check.check_bind_eq_ok.1 h
    obtain ⟨computedBytes, hcomputedBytes, h⟩ := Check.bind_eq_ok.1 h
    obtain ⟨listedBytes, hlistedBytes, h⟩ := Check.bind_eq_ok.1 h
    obtain ⟨hsame, h⟩ := Check.check_bind_eq_ok.1 h
    obtain ⟨updateHash, -, h⟩ := Check.bind_eq_ok.1 h
    obtain rfl := Except.ok.inj h
    rw [Check.require_eq_ok] at hsame
    rw [← hsame] at hlistedBytes
    have hproposed := canonicalBytes_inj hlistedBytes hcomputedBytes
    obtain ⟨hfields, -⟩ := Check.check_bind_eq_ok.1 hchecked
    refine ⟨?_, ?_⟩
    · -- the member is there, as it is one of the required fields
      rw [requireFields, Check.require_eq_ok, List.filter_eq_nil_iff] at hfields
      have hsome := hfields "proposed_operator_set" (by decide)
      rw [Option.isNone_iff_eq_none] at hsome
      obtain ⟨value, hvalue⟩ := Option.ne_none_iff_exists'.1 hsome
      rw [Json.getD, hvalue, Option.getD_some] at hproposed
      rw [Proposes, Json.item, hvalue, hproposed]
      rfl
    · obtain ⟨set, hset, -⟩ := Check.bind_eq_ok.1 hcurrent
      obtain ⟨members, rfl⟩ := exists_obj_of_normalizeOperatorSet hset
      obtain ⟨items, fanout, hread⟩ := normalizeOperatorSet_obj.1 hset
      obtain ⟨candidate, -, hadded⟩ := added_of_operatorSetWithCandidate hread hcomputed
      exact ⟨members, items, fanout, set, candidate, rfl, hread, hadded⟩
  · cases h

/-- Sets for which one update is accepted have the same network, number of mirrors and operators. -/
theorem same_of_accepted {operatorSet' bundle' : Json} {proposed' : OperatorSet} {trusted' : List String}
    (hset : normalizeOperatorSet lib operatorSet = .ok set) (hset' : normalizeOperatorSet lib operatorSet' = .ok set')
    (h : verifyOperatorSetUpdate lib crypto update operatorSet bundle trusted = .ok proposed)
    (h' : verifyOperatorSetUpdate lib crypto update operatorSet' bundle' trusted' = .ok proposed') :
    set.network = set'.network ∧ set.minRootMirrors = set'.minRootMirrors ∧ set.operators = set'.operators := by
  obtain ⟨hproposes, members, items, fanout, found, candidate, rfl, hread, hadded⟩ := accepted_of_verify h
  obtain ⟨hproposes', members', items', fanout', found', candidate', rfl, hread', hadded'⟩ := accepted_of_verify h'
  obtain rfl := hproposes.eq hproposes'
  obtain rfl : found = set := Except.ok.inj ((normalizeOperatorSet_obj.2 ⟨items, fanout, hread⟩).symm.trans hset)
  obtain rfl : found' = set' :=
    Except.ok.inj ((normalizeOperatorSet_obj.2 ⟨items', fanout', hread'⟩).symm.trans hset')
  have hoperators := hadded.operators.symm.trans hadded'.operators
  exact ⟨hadded.network.symm.trans hadded'.network, hadded.minRootMirrors.symm.trans hadded'.minRootMirrors,
    (List.append_inj' hoperators rfl).1⟩

/-! ## Sequences of updates -/

/-- `apply-update --in-place` for one update after the other, each with its bundle and the trusted keys. -/
def applyUpdates (lib : TextLibrary) (crypto : Crypto) : Json → List (Json × Json × List String) → Except String Json
  | operatorSet, [] => pure operatorSet
  | operatorSet, (update, bundle, trusted) :: rest => do
      let proposed ← verifyOperatorSetUpdate lib crypto update operatorSet bundle trusted
      applyUpdates lib crypto proposed.toJson rest

/-- The number of operators in a set. -/
def operatorCount : Json → Nat
  | .obj members =>
      match Json.getD "operators" .null members with
      | .arr items => items.length
      | _ => 0
  | _ => 0

theorem operatorCount_toJson (set : OperatorSet) : operatorCount set.toJson = set.operators.length :=
  List.length_map ..

/-- An accepted update adds one operator. -/
theorem Accepted.length_operators (h : Accepted lib update operatorSet proposed) :
    proposed.operators.length = operatorCount operatorSet + 1 := by
  obtain ⟨-, members, items, fanout, set, candidate, rfl, hread, hadded⟩ := h
  have hcount : operatorCount (.obj members) = items.length := by
    have hlisted := hread.listed
    unfold operatorItems at hlisted
    split at hlisted
    · next item rest hget =>
      cases hlisted
      rw [operatorCount, hget]
    · cases hlisted
  rw [hadded.operators, List.length_append, length_normalizeOperators hread.operators, hcount, List.length_singleton]

/-- Updates that are applied from a set on propose larger sets. -/
theorem lt_of_applyUpdates {updates : List (Json × Json × List String)} {final : Json}
    (h : applyUpdates lib crypto operatorSet updates = .ok final) :
    ∀ applied ∈ updates, ∃ proposed, Proposes applied.1 proposed ∧
      operatorCount operatorSet < proposed.operators.length := by
  induction updates generalizing operatorSet with
  | nil => exact fun _ happlied => absurd happlied List.not_mem_nil
  | cons applied rest ih =>
    obtain ⟨update, bundle, trusted⟩ := applied
    obtain ⟨proposed, hverify, hrest⟩ := Check.bind_eq_ok.1 h
    have haccepted := accepted_of_verify hverify
    have hlength := haccepted.length_operators
    refine List.forall_mem_cons.2 ⟨⟨proposed, haccepted.proposes, by omega⟩, fun applied happlied => ?_⟩
    obtain ⟨proposed', hproposes', hlt⟩ := ih hrest applied happlied
    rw [operatorCount_toJson] at hlt
    exact ⟨proposed', hproposes', by omega⟩

/-- **No update is applied twice.** -/
theorem nodup_of_applyUpdates {updates : List (Json × Json × List String)} {final : Json}
    (h : applyUpdates lib crypto operatorSet updates = .ok final) : (updates.map Prod.fst).Nodup := by
  induction updates generalizing operatorSet with
  | nil => exact List.nodup_nil
  | cons applied rest ih =>
    obtain ⟨update, bundle, trusted⟩ := applied
    obtain ⟨proposed, hverify, hrest⟩ := Check.bind_eq_ok.1 h
    rw [List.map_cons, List.nodup_cons]
    refine ⟨fun hagain => ?_, ih hrest⟩
    obtain ⟨applied, happlied, heq⟩ := List.mem_map.1 hagain
    obtain ⟨proposed', hproposes', hlt⟩ := lt_of_applyUpdates hrest applied happlied
    rw [heq] at hproposes'
    rw [operatorCount_toJson, (accepted_of_verify hverify).proposes.eq hproposes'] at hlt
    exact lt_irrefl _ hlt

end OperatorAdmission
