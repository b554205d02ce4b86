import InternationalDollar.AdmissionUpdates
import InternationalDollar.ProtocolLimits

set_option autoImplicit false

/-! # Admissions (`operator_admission`)

An admission is a set, a bundle, and the update that a maintainer made of them. `settled` says what holds of it: the update is
accepted for the set, which fields of the set stay, when the set after it is read as it is, for which other sets the update is
accepted, and that no sequence applies it twice. -/

namespace OperatorAdmission

open OperatorSet

/-- A set that was read, a bundle, and an update that a maintainer made of them. -/
structure Admission (lib : TextLibrary) (crypto : Crypto) where
  members : List (String × Json)
  sorted : (members.map Prod.fst).Pairwise (· < ·)
  set : OperatorSet
  normalized : normalizeOperatorSet lib (.obj members) = .ok set
  bundle : Json
  maintainer : KeyPair crypto
  signingPublicKey : String
  strip_signingPublicKey : Text.strip signingPublicKey = maintainer.publicKey
  createdAt : Int
  requireBurnIn : Bool
  update : Json
  made : makeOperatorSetUpdate lib crypto (.obj members) bundle maintainer.privateKey signingPublicKey createdAt
    requireBurnIn = .ok update

/-- The bundle carries a signature by a key. -/
def SignedBy (lib : TextLibrary) (crypto : Crypto) (publicKey : String) (bundle : Json) : Prop :=
  ∃ members payload, bundle = .obj members ∧
    signaturePayload bundleSignatureDomain (.obj (Json.popMember "candidate_signature" members)) = .ok payload ∧
    verifySignature lib crypto publicKey (Json.getD "candidate_signature" .null members) payload = .ok true

namespace Admission

variable {lib : TextLibrary} {crypto : Crypto} (a : Admission lib crypto)

/-- The candidate, as the bundle names it. -/
def candidate : Except String OperatorRecord := do
  let operator ← a.bundle.item "operator"
  normalizeOperatorRecord lib operator a.set.minRootMirrors

/-! ## What is claimed of an admission -/

/-- The update is accepted for the set and the bundle, where the maintainer is trusted. -/
def Verifies : Prop :=
  ∀ trusted : List String, a.maintainer.publicKey ∈ trusted.flatMap Text.splitMany →
    ∃ proposed, verifyOperatorSetUpdate lib crypto a.update (.obj a.members) a.bundle trusted = .ok proposed

/-- The proposed set is the one that was read with the candidate, whose key signed the bundle. -/
def Appends : Prop :=
  ∃ candidate, a.candidate = .ok candidate ∧ SignedBy lib crypto candidate.publicKey a.bundle ∧
    Proposes a.update { a.set with operators := a.set.operators ++ [candidate] }

/-- The proposed set is read as it is. -/
def IsFixed : Prop :=
  ∃ proposed, Proposes a.update proposed ∧ normalizeOperatorSet lib proposed.toJson = .ok proposed

/-- The update is accepted for no other set. -/
def IsForOneSet : Prop :=
  ∀ operatorSet set bundle trusted proposed, normalizeOperatorSet lib operatorSet = .ok set →
    verifyOperatorSetUpdate lib crypto a.update operatorSet bundle trusted = .ok proposed → set = a.set

/-- An admission changes nothing but the list of operators, once and for one set. -/
structure Holds : Prop where
  verifies : a.Verifies
  appends : a.Appends
  isFixed : a.IsFixed
  isForOneSet : a.IsForOneSet
  appliedOnce : ∀ operatorSet updates final, applyUpdates lib crypto operatorSet updates = .ok final →
    (updates.map Prod.fst).Nodup

/-! ## Conditions -/

/-- The node port is that of the network, the fan-out is missing or not zero, the domains are missing or not empty, and no
    address of the candidate has blanks at its ends. -/
def KeepsFields : Prop :=
  a.set.nodePort = defaultNodePort a.set.network ∧ KeepsFanout a.members ∧ KeepsDomains a.members ∧
    ∀ candidate, a.candidate = .ok candidate → IsTidy candidate

/-- No operator of the set has a blank name or an address with a blank at its end, nor has the candidate, and the domains
    are read as they are. -/
def IsSettled : Prop :=
  (∀ record ∈ a.set.operators, record.name ≠ "" ∧ Text.strip record.url = record.url) ∧
    (∀ candidate, a.candidate = .ok candidate →
      Text.strip (operatorUrl lib (.str candidate.url)) = operatorUrl lib (.str candidate.url)) ∧
    asDomainList lib (.arr (a.set.operatorCoreDomains.map .str)) = .ok a.set.operatorCoreDomains

/-! ## Proofs -/

variable {a}

theorem signedBy_of_verifyCandidateBundle {bundle operatorSet operator : Json} {requireBurnIn : Bool}
    {record candidate : OperatorRecord} {minRootMirrors : Int}
    (h : verifyCandidateBundle lib crypto bundle operatorSet requireBurnIn = .ok record)
    (hoperator : bundle.item "operator" = .ok operator)
    (hcandidate : normalizeOperatorRecord lib operator minRootMirrors = .ok candidate) :
    SignedBy lib crypto candidate.publicKey bundle := by
  unfold verifyCandidateBundle at h
  split at h
  · next members =>
    obtain ⟨-, h⟩ := Check.check_bind_eq_ok.1 h
    obtain ⟨-, h⟩ := Check.check_bind_eq_ok.1 h
    obtain ⟨version, -, h⟩ := Check.bind_eq_ok.1 h
    obtain ⟨-, h⟩ := Check.check_bind_eq_ok.1 h
    obtain ⟨-, h⟩ := Check.check_bind_eq_ok.1 h
    obtain ⟨asked, -, h⟩ := Check.bind_eq_ok.1 h
    obtain ⟨read, -, h⟩ := Check.bind_eq_ok.1 h
    obtain ⟨hsigned, -⟩ := Check.check_bind_eq_ok.1 h
    obtain ⟨-, hsigned⟩ := Check.check_bind_eq_ok.1 hsigned
    obtain ⟨fields, hfields, hsigned⟩ := Check.bind_eq_ok.1 hsigned
    obtain ⟨hkey, hsigned⟩ := Check.check_bind_eq_ok.1 hsigned
    obtain ⟨-, hsigned⟩ := Check.check_bind_eq_ok.1 hsigned
    obtain ⟨payload, hpayload, hsigned⟩ := Check.bind_eq_ok.1 hsigned
    obtain ⟨valid, hvalid, hsigned⟩ := Check.bind_eq_ok.1 hsigned
    rw [Check.require_eq_ok] at hkey hsigned
    rw [getD_eq_of_item hoperator] at hfields
    obtain ⟨-, operatorMembers, rfl, hpublic⟩ := normalizeOperatorRecord_spec hcandidate
    cases hfields
    rw [hsigned, hkey, ← hpublic] at hvalid
    exact ⟨members, payload, rfl, hpayload, hvalid⟩
  · cases h

theorem exists_made (a : Admission lib crypto) : ∃ unsigned,
    MadeOf lib crypto (.obj a.members) a.bundle a.maintainer a.requireBurnIn a.update unsigned :=
  exists_madeOf a.strip_signingPublicKey a.made

/-- The candidate and the set with it. -/
theorem exists_added (a : Admission lib crypto) : ∃ items fanout candidate proposed,
    ReadAs lib a.members items fanout a.set ∧ a.candidate = .ok candidate ∧ IsCandidate candidate ∧
      SignedBy lib crypto candidate.publicKey a.bundle ∧ Proposes a.update proposed ∧
      Added lib a.members items a.set candidate proposed := by
  obtain ⟨unsigned, hmade⟩ := a.exists_made
  obtain ⟨items, fanout, hread⟩ := normalizeOperatorSet_obj.1 a.normalized
  obtain ⟨candidate, hcandidate, hadded⟩ := added_of_operatorSetWithCandidate hread hmade.proposed
  obtain ⟨record, hrecord⟩ := hmade.bundle_ok
  obtain ⟨payload, -, hupdate⟩ := hmade.signed
  refine ⟨items, fanout, candidate, unsigned.proposedOperatorSet, hread,
    Check.bind_eq_ok.2 ⟨_, hmade.operator, hcandidate⟩, (normalizeOperatorRecord_spec hcandidate).1,
    signedBy_of_verifyCandidateBundle hrecord hmade.operator hcandidate, ?_, hadded⟩
  rw [hupdate]
  rfl

theorem verifies (a : Admission lib crypto) : a.Verifies := by
  intro trusted htrusted
  obtain ⟨unsigned, hmade⟩ := a.exists_made
  exact ⟨_, hmade.verify htrusted⟩

theorem appends_iff : a.Appends ↔ a.KeepsFields := by
  obtain ⟨items, fanout, candidate, proposed, -, hcandidate, hshape, hsigned, hproposes, hadded⟩ := a.exists_added
  have hiff := hadded.eq_iff hshape
  unfold Appends KeepsFields
  simp only [hcandidate, Except.ok.injEq, exists_eq_left', forall_eq']
  rw [← hiff]
  constructor
  · exact fun h => hproposes.eq h.2
  · rintro rfl
    exact ⟨hsigned, hproposes⟩

theorem isFixed_iff : a.IsFixed ↔ a.IsSettled := by
  obtain ⟨items, fanout, candidate, proposed, hread, hcandidate, hshape, -, hproposes, hadded⟩ := a.exists_added
  unfold IsFixed IsSettled
  simp only [hcandidate, Except.ok.injEq, forall_eq']
  rw [← hadded.fixed_iff hshape hread]
  constructor
  · rintro ⟨proposed', hproposes', hfixed⟩
    rwa [hproposes.eq hproposes']
  · exact fun hfixed => ⟨proposed, hproposes, hfixed⟩

/-- The same update is accepted for the set with another node port. -/
theorem not_isForOneSet (a : Admission lib crypto) : ¬ a.IsForOneSet := by
  intro hone
  obtain ⟨port, hzero, hport⟩ : ∃ port : Int, port ≠ 0 ∧ port ≠ a.set.nodePort := by
    by_cases h : a.set.nodePort = 1
    · exact ⟨2, by decide, by omega⟩
    · exact ⟨1, by decide, by omega⟩
  have hsame : SameButPort a.members (Json.putMember "node_port" (.int port) a.members) := by
    intro key hkey
    rw [Json.get?_putMember a.sorted, if_neg (Ne.symm hkey)]
  have hget : Json.getD "node_port" .null (Json.putMember "node_port" (.int port) a.members) = .int port := by
    rw [Json.getD_putMember a.sorted, if_pos rfl]
  obtain ⟨items, fanout, hread⟩ := normalizeOperatorSet_obj.1 a.normalized
  have hset := normalizeOperatorSet_obj.2 ⟨items, fanout, hsame.readAs hread hzero hget⟩
  have hnonempty : a.members ≠ [] := by
    rintro hempty
    have hlisted := hread.listed
    rw [hempty] at hlisted
    cases hlisted
  have hnonempty' : Json.putMember "node_port" (.int port) a.members ≠ [] := by
    intro hempty
    rw [hempty] at hget
    cases hget
  -- the maintainer's key is one text, without commas
  obtain ⟨unsigned, hmade⟩ := a.exists_made
  have htrusted : a.maintainer.publicKey ∈ [a.maintainer.publicKey].flatMap Text.splitMany := by
    rw [List.flatMap_singleton, splitMany_publicKey]
    exact List.mem_singleton_self _
  have hverify := hmade.verify htrusted
  rw [← hsame.verifyOperatorSetUpdate a.normalized hzero hget hnonempty hnonempty'] at hverify
  have heq := hone _ _ _ _ _ hset hverify
  exact hport (congrArg OperatorSet.nodePort heq)

/-- Every set for which the update is accepted has the network, the mirror minimum and the operators of the set. -/
theorem same_of_verify (a : Admission lib crypto) {operatorSet bundle : Json} {set : OperatorSet}
    {trusted : List String} {proposed : OperatorSet} (hset : normalizeOperatorSet lib operatorSet = .ok set)
    (h : verifyOperatorSetUpdate lib crypto a.update operatorSet bundle trusted = .ok proposed) :
    set.network = a.set.network ∧ set.minRootMirrors = a.set.minRootMirrors ∧ set.operators = a.set.operators := by
  have htrusted : a.maintainer.publicKey ∈ [a.maintainer.publicKey].flatMap Text.splitMany := by
    rw [List.flatMap_singleton, splitMany_publicKey]
    exact List.mem_singleton_self _
  obtain ⟨own, hown⟩ := a.verifies [a.maintainer.publicKey] htrusted
  exact same_of_accepted hset a.normalized h hown

/-- **What an admission changes.** The update is accepted. The proposed set is the one that was read with the candidate
exactly where the set keeps its fields, and is read as it is exactly where it is settled. The update is always accepted for
another set, too, but only for one with the same network, mirror minimum and operators; and no sequence applies it twice. -/
theorem settled (a : Admission lib crypto) : ¬ a.Holds ∧ a.Verifies ∧ (a.Appends ↔ a.KeepsFields) ∧
    (a.IsFixed ↔ a.IsSettled) ∧ ¬ a.IsForOneSet ∧
    (∀ operatorSet set bundle trusted proposed, normalizeOperatorSet lib operatorSet = .ok set →
      verifyOperatorSetUpdate lib crypto a.update operatorSet bundle trusted = .ok proposed →
      set.network = a.set.network ∧ set.minRootMirrors = a.set.minRootMirrors ∧ set.operators = a.set.operators) ∧
    ∀ operatorSet updates final, applyUpdates lib crypto operatorSet updates = .ok final →
      (updates.map Prod.fst).Nodup :=
  ⟨fun h => a.not_isForOneSet h.isForOneSet, a.verifies, appends_iff, isFixed_iff, a.not_isForOneSet,
    fun _ _ _ _ _ hset h => a.same_of_verify hset h, fun _ _ _ h => nodup_of_applyUpdates h⟩

end Admission

/-! ## An admission that loses the node port -/

/-- The functions of the standard library on the values of the sample. -/
def sampleText : TextLibrary where
  str
    | .null => "None"
    | .bool b => if b then "True" else "False"
    | .int n => Text.decimal n
    | .str s => s
    | .arr _ => "[]"
    | .obj _ => "\x7b\x7d"
  lower := Text.lower
  urlparse text :=
    match Text.dropPrefix? "https://".toList text.toList with
    | some rest => .ok ⟨"https", some (String.ofList (rest.takeWhile (· ≠ '/'))), .ok none, ""⟩
    | none => .ok ⟨"", none, .ok none, ""⟩
  str_text _ := rfl
  str_ne v h := by
    cases v with
    | null => cases h
    | bool b => cases b <;> decide
    | int n =>
      obtain ⟨c, cs, hrender, -⟩ := Json.exists_render_cons (.int n)
      have hdigits : Json.renderInt n = c :: cs := hrender
      intro hempty
      have hchars : (String.ofList (Json.renderInt n)).toList = [] := congrArg String.toList hempty
      rw [String.toList_ofList, hdigits] at hchars
      cases hchars
    | str s => exact of_decide_eq_true h
    | arr =>
      show "[]" ≠ ""
      decide
    | obj =>
      show "\x7b\x7d" ≠ ""
      decide
  lower_ascii _ _ := rfl
  urlparse_empty parsed h := by
    cases h
    rfl

/-- The set of the sample: one operator, no mirrors asked for, and a node port that is not that of the network. -/
def sampleMembers : List (String × Json) :=
  [("min_root_mirrors", .int 0), ("network", .str "testnet"), ("node_port", .int 19999),
    ("operators", .arr [(OperatorRecord.mk "primary" "https://primary.example" "key" [] []).toJson])]

def sampleSet : OperatorSet where
  network := "testnet"
  nodePort := 19999
  minRootMirrors := 0
  operatorAppendFanout := 5
  operatorCoreDomains := defaultOperatorCoreDomains
  operators := [⟨"primary", "https://primary.example", "key", [], []⟩]

theorem sampleSet_normalized : normalizeOperatorSet sampleText (.obj sampleMembers) = .ok sampleSet := by
  rfl

/-- The operator of the sample's candidate. -/
def sampleCandidate (publicKey : String) : OperatorRecord where
  name := "candidate"
  url := "https://candidate.example"
  publicKey := publicKey
  mirrors := []
  proofArchives := []

/-- The bundle of the sample, before and after it is signed. -/
def sampleBundle (publicKey : String) (signature : List (String × Json)) : List (String × Json) :=
  [("admission_stage", .str "burn_in_passed")] ++ signature ++
    [("candidate_signature_algorithm", .str signatureAlgorithm),
      ("candidate_signing_public_key", .str publicKey), ("network", .str "testnet"),
      ("operator", (sampleCandidate publicKey).toJson), ("type", .str bundleType), ("version", .int 1)]

section Sample

variable {crypto : Crypto} {keys : KeyPair crypto}

theorem fits_sampleOperator {name url publicKey : String} (hname : IsShort name) (hurl : IsShort url)
    (hkey : IsShort publicKey) : Fits 2 (OperatorRecord.mk name url publicKey [] []).toJson := by
  refine Fits.object (show 5 ≤ 1024 by decide) ?_
  simp only [List.forall_mem_cons]
  exact ⟨⟨by decide, Fits.texts (Nat.zero_le _) (by simp)⟩, ⟨by decide, .text hname⟩,
    ⟨by decide, Fits.texts (Nat.zero_le _) (by simp)⟩, ⟨by decide, .text hkey⟩, ⟨by decide, .text hurl⟩, by simp⟩

theorem operatorUrl_sample : operatorUrl sampleText (.str "https://candidate.example") = "https://candidate.example" := by
  rfl

theorem urlparse_sample : sampleText.urlparse "https://candidate.example"
    = .ok ⟨"https", some "candidate.example", .ok none, ""⟩ := by
  rfl

theorem normalizeHttpUrl_sample (label : String) :
    normalizeHttpUrl sampleText label (.str "https://candidate.example") = .ok "https://candidate.example" := by
  rw [normalizeHttpUrl, operatorUrl_sample, urlparse_sample, Check.ok_bind, Check.require_of (by decide), Check.ok_bind, Check.require_of rfl]
  rfl

theorem normalizeOperatorRecord_sample :
    normalizeOperatorRecord sampleText (sampleCandidate keys.publicKey).toJson 0
      = .ok (sampleCandidate keys.publicKey) := by
  have hkey : Text.strip (sampleText.str (.str keys.publicKey)) = keys.publicKey := by
    rw [sampleText.str_text, keys.strip_publicKey]
  have hdecode : Check.orRaise (decodePublicKey keys.publicKey) "operator public_key must be an indpk3 key"
      = .ok (crypto.publicKeyFromSeed keys.seed) := by
    rw [keys.decodePublicKey_publicKey]
    rfl
  have hfields : requireFields [("mirrors", Json.arr ([].map .str)), ("name", .str "candidate"),
      ("proof_archives", .arr ([].map .str)), ("public_key", .str keys.publicKey),
      ("url", .str "https://candidate.example")] ["mirrors", "name", "proof_archives", "public_key", "url"] "operator"
        = .ok () := Check.require_of rfl _
  have hname : Text.strip (sampleText.str (.str "candidate")) = "candidate" := rfl
  rw [OperatorRecord.toJson, sampleCandidate, normalizeOperatorRecord, hfields, Check.ok_bind]
  simp only [Json.getD, AssocList.get?, String.reduceEq, if_true, if_false, Option.getD_some]
  rw [hname, Check.require_of (by decide), Check.ok_bind, normalizeHttpUrl_sample, Check.ok_bind, hkey, hdecode,
    Check.ok_bind]
  rfl

/-- The set with the candidate of the sample has the default node port. -/
def sampleProposed (publicKey : String) : OperatorSet :=
  { sampleSet with
    nodePort := 18888
    operators := sampleSet.operators ++ [sampleCandidate publicKey] }

theorem publicKey_ne (keys : KeyPair crypto) {text : String} (h : text.length < 47) : keys.publicKey ≠ text := by
  rintro rfl
  rw [keys.length_publicKey] at h
  exact lt_irrefl _ h

theorem httpOrigin_sample : httpOrigin sampleText "https://candidate.example" = .ok "https://candidate.example:443" := by
  rfl

theorem checkUrls_sample (kind : String) :
    checkUrls sampleText 0 kind "candidate" "https://candidate.example" [] = .ok () := by
  rw [checkUrls, Check.require_of (by decide), Check.ok_bind, httpOrigin_sample, Check.ok_bind]
  rfl

theorem isRead_sampleCandidate (keys : KeyPair crypto) : IsRead sampleText 0 (sampleCandidate keys.publicKey) where
  strip_name := show Text.strip "candidate" = "candidate" from rfl
  url_ne := by
    show "https://candidate.example" ≠ ""
    decide
  rstrip_url := show Text.rstripChar '/' "https://candidate.example" = "https://candidate.example" from rfl
  publicKey_ne := publicKey_ne keys (by decide)
  strip_publicKey := keys.strip_publicKey
  strip_urls _ h := absurd h List.not_mem_nil
  mirrors := checkUrls_sample _
  proofArchives := checkUrls_sample _

theorem operatorSetWithCandidate_sample (keys : KeyPair crypto) :
    operatorSetWithCandidate sampleText (.obj sampleMembers) (sampleCandidate keys.publicKey).toJson
      = .ok (sampleProposed keys.publicKey) := by
  have hbase : operatorSetData sampleText (.obj sampleMembers) = .ok ⟨"testnet", 0, 5,
      defaultOperatorCoreDomains.map .str, sampleSet.operators.map OperatorRecord.toJson⟩ := rfl
  have hnames : identities "name" (sampleSet.operators.map OperatorRecord.toJson) = .ok [.str "primary"] := rfl
  have hurls : addresses (sampleSet.operators.map OperatorRecord.toJson) = .ok ["https://primary.example"] := rfl
  have hkeys : identities "public_key" (sampleSet.operators.map OperatorRecord.toJson) = .ok [.str "key"] := rfl
  have hne : keys.publicKey ≠ "key" := publicKey_ne keys (by decide)
  have hname : Json.str (sampleCandidate keys.publicKey).name ∉ [Json.str "primary"] := by
    simp [sampleCandidate]
  have hurl : Text.rstripChar '/' (sampleCandidate keys.publicKey).url ∉ ["https://primary.example"] := by
    rw [(isRead_sampleCandidate keys).rstrip_url]
    simp [sampleCandidate]
  have hkey : Json.str (sampleCandidate keys.publicKey).publicKey ∉ [Json.str "key"] := by
    simp [sampleCandidate, hne]
  have hrecord : normalizeOperator sampleText 0 1 (sampleCandidate keys.publicKey).toJson
      = .ok (sampleCandidate keys.publicKey) :=
    (normalizeOperator_toJson_iff (isRead_sampleCandidate keys)).2
      ⟨show "candidate" ≠ "" by decide, show Text.strip "https://candidate.example" = _ from rfl⟩
  rw [operatorSetWithCandidate, hbase, Check.ok_bind]
  dsimp only
  rw [normalizeOperatorRecord_sample, Check.ok_bind, hnames, Check.ok_bind, hurls, Check.ok_bind, hkeys, Check.ok_bind,
    Check.require_of hname, Check.ok_bind, Check.require_of hurl, Check.ok_bind, Check.require_of hkey, Check.ok_bind]
  refine normalizeOperatorSet_obj.2 ⟨sampleSet.operators.map OperatorRecord.toJson ++
    [(sampleCandidate keys.publicKey).toJson], 5, rfl, rfl, rfl, rfl, asDomainList_default, ?_, rfl, rfl⟩
  refine normalizeOperators_append.2 ⟨sampleSet.operators, [sampleCandidate keys.publicKey], rfl, ?_, rfl⟩
  refine Check.bind_eq_ok.2 ⟨_, hrecord, Check.check_bind_eq_ok.2 ⟨Check.require_of ?_ _, rfl⟩⟩
  simp [SharesIdentity, sampleSet, sampleCandidate, hne]

theorem fits_sampleBundle (keys : KeyPair crypto) {signature : List (String × Json)}
    (hlength : signature.length ≤ 1) (h : ∀ member ∈ signature, IsShort member.1 ∧ Fits 2 member.2) :
    Fits 3 (.obj (sampleBundle keys.publicKey signature)) := by
  have hkey := keys.isShort_publicKey
  refine Fits.object ?_ ?_
  · rw [sampleBundle, List.length_append, List.length_append]
    show 1 + signature.length + 6 ≤ 1024
    omega
  · simp only [sampleBundle, List.forall_mem_append, List.forall_mem_cons]
    exact ⟨⟨⟨⟨by decide, .text (by decide)⟩, by simp⟩, h⟩, ⟨by decide, .text (by decide)⟩,
      ⟨by decide, .text hkey⟩, ⟨by decide, .text (by decide)⟩,
      ⟨by decide, fits_sampleOperator (by decide) (by decide) hkey⟩, ⟨by decide, .text (by decide)⟩,
      ⟨by decide, .number (by decide)⟩, by simp⟩

theorem getD_sampleBundle {publicKey key : String} {value : Json} (signature default : Json)
    (h : (key, value) ∈ [("admission_stage", Json.str "burn_in_passed"),
      ("candidate_signature_algorithm", .str signatureAlgorithm), ("candidate_signing_public_key", .str publicKey),
      ("network", .str "testnet"), ("operator", (sampleCandidate publicKey).toJson), ("type", .str bundleType),
      ("version", .int 1)]) :
    Json.getD key default (sampleBundle publicKey [("candidate_signature", signature)]) = value := by
  simp only [List.mem_cons, List.not_mem_nil, or_false, Prod.mk.injEq] at h
  rcases h with ⟨rfl, rfl⟩ | ⟨rfl, rfl⟩ | ⟨rfl, rfl⟩ | ⟨rfl, rfl⟩ | ⟨rfl, rfl⟩ | ⟨rfl, rfl⟩ | ⟨rfl, rfl⟩ <;> rfl

theorem verifyCandidateSignature_sample (keys : KeyPair crypto) {payload : Bytes}
    (hpayload : signaturePayload bundleSignatureDomain (.obj (sampleBundle keys.publicKey [])) = .ok payload) :
    verifyCandidateSignature sampleText crypto (sampleBundle keys.publicKey [("candidate_signature",
      .str (String.ofList (Base85.b85encode (crypto.sign keys.seed payload))))]) = .ok () := by
  have hsigned := @verifySignature_sign sampleText crypto keys payload
  generalize Json.str (String.ofList (Base85.b85encode (crypto.sign keys.seed payload))) = signature at *
  have hpop : Json.popMember "candidate_signature" (sampleBundle keys.publicKey [("candidate_signature", signature)])
      = sampleBundle keys.publicKey [] := by
    simp [Json.popMember, sampleBundle]
  have hkey : Text.strip (sampleText.str (.str keys.publicKey)) = keys.publicKey := by
    rw [sampleText.str_text, keys.strip_publicKey]
  have hsignature : Json.getD "candidate_signature" .null
      (sampleBundle keys.publicKey [("candidate_signature", signature)]) = signature := rfl
  have hfields : requireFields (sampleBundle keys.publicKey [("candidate_signature", signature)])
      ["candidate_signature", "candidate_signature_algorithm", "candidate_signing_public_key"] "candidate bundle"
        = .ok () := Check.require_of rfl _
  have hoperator : Json.getD "public_key" (.str "") [("mirrors", Json.arr ([].map .str)), ("name", .str "candidate"),
      ("proof_archives", .arr ([].map .str)), ("public_key", .str keys.publicKey),
      ("url", .str "https://candidate.example")] = .str keys.publicKey := rfl
  have hmember : ∀ key value default, (key, value) ∈ [("admission_stage", Json.str "burn_in_passed"),
      ("candidate_signature_algorithm", .str signatureAlgorithm),
      ("candidate_signing_public_key", .str keys.publicKey), ("network", .str "testnet"),
      ("operator", (sampleCandidate keys.publicKey).toJson), ("type", .str bundleType), ("version", .int 1)] →
      Json.getD key default (sampleBundle keys.publicKey [("candidate_signature", signature)]) = value :=
    fun key value default h => getD_sampleBundle signature default h
  rw [verifyCandidateSignature, hpop, hfields, Check.ok_bind,
    hmember "candidate_signing_public_key" (.str keys.publicKey) _ (by simp),
    hmember "operator" (sampleCandidate keys.publicKey).toJson _ (by simp),
    hmember "candidate_signature_algorithm" (.str signatureAlgorithm) _ (by simp), hsignature, hpayload]
  dsimp only
  rw [OperatorRecord.toJson, sampleCandidate, Json.asObject, Check.ok_bind, hoperator, hkey, Check.require_of rfl,
    Check.ok_bind, Check.require_of rfl, Check.ok_bind, Check.ok_bind, hsigned, Check.ok_bind, Check.require_of rfl]

theorem verifyCandidateBundle_sample (keys : KeyPair crypto) {payload : Bytes}
    (hpayload : signaturePayload bundleSignatureDomain (.obj (sampleBundle keys.publicKey [])) = .ok payload) :
    verifyCandidateBundle sampleText crypto (.obj (sampleBundle keys.publicKey [("candidate_signature",
      .str (String.ofList (Base85.b85encode (crypto.sign keys.seed payload))))])) (.obj sampleMembers) false
        = .ok (sampleCandidate keys.publicKey) := by
  have hsigned := verifyCandidateSignature_sample keys hpayload
  have hfits : Fits 3 (.obj (sampleBundle keys.publicKey [("candidate_signature",
      .str (String.ofList (Base85.b85encode (crypto.sign keys.seed payload))))])) := by
    refine fits_sampleBundle keys le_rfl ?_
    simp only [List.forall_mem_singleton]
    exact ⟨by decide, .text (isShort_signature keys payload)⟩
  generalize Json.str (String.ofList (Base85.b85encode (crypto.sign keys.seed payload))) = signature at *
  have hfields : requireFields (sampleBundle keys.publicKey [("candidate_signature", signature)])
      ["admission_stage", "network", "operator", "type", "version"] "candidate bundle" = .ok () :=
    Check.require_of rfl _
  have hmember : ∀ key value default, (key, value) ∈ [("admission_stage", Json.str "burn_in_passed"),
      ("candidate_signature_algorithm", .str signatureAlgorithm),
      ("candidate_signing_public_key", .str keys.publicKey), ("network", .str "testnet"),
      ("operator", (sampleCandidate keys.publicKey).toJson), ("type", .str bundleType), ("version", .int 1)] →
      Json.getD key default (sampleBundle keys.publicKey [("candidate_signature", signature)]) = value :=
    fun key value default h => getD_sampleBundle signature default h
  have hmirrors : requiredMirrors sampleText (.obj sampleMembers)
      (sampleBundle keys.publicKey [("candidate_signature", signature)]) = .ok 0 := by
    rw [requiredMirrors, hmember "network" (.str "testnet") _ (by simp)]
    rfl
  have hstage : Text.strip (sampleText.str (.str "burn_in_passed")) = "burn_in_passed" := rfl
  have htruthy : (Json.obj sampleMembers).truthy = true := rfl
  rw [verifyCandidateBundle, hfields, Check.ok_bind, hmember "type" (.str bundleType) _ (by simp),
    hmember "version" (.int 1) _ (by simp), hmember "admission_stage" (.str "burn_in_passed") _ (by simp),
    hmember "operator" (sampleCandidate keys.publicKey).toJson _ (by simp), Check.require_of rfl, Check.ok_bind]
  dsimp only
  rw [Json.toInt, Check.ok_bind, Check.require_of rfl, Check.ok_bind, hstage, Check.require_of (by decide),
    Check.ok_bind, hmirrors, Check.ok_bind, normalizeOperatorRecord_sample, Check.ok_bind, hsigned, Check.ok_bind,
    if_neg (by decide), if_pos htruthy, operatorSetWithCandidate_sample]
  rw [recordHash, hfits.sha3Json_eq (by decide)]
  rfl

/-- The data of the sample's set. -/
def sampleData : SetData where
  network := "testnet"
  minRootMirrors := 0
  operatorAppendFanout := 5
  operatorCoreDomains := defaultOperatorCoreDomains.map .str
  operators := sampleSet.operators.map OperatorRecord.toJson

theorem currentData_sample : currentData sampleText (.obj sampleMembers) = .ok sampleData := by
  rfl

theorem fits_domains : Fits 2 (.arr (defaultOperatorCoreDomains.map .str)) := by
  refine Fits.texts (by decide) ?_
  simp only [defaultOperatorCoreDomains, List.forall_mem_cons]
  exact ⟨by decide, by decide, by simp⟩

theorem fits_primary : Fits 2 (OperatorRecord.mk "primary" "https://primary.example" "key" [] []).toJson :=
  fits_sampleOperator (by decide) (by decide) (by decide)

theorem fits_sampleData : Fits 4 sampleData.toJson := by
  refine Fits.object (show 5 ≤ 1024 by decide) ?_
  simp only [List.forall_mem_cons]
  refine ⟨⟨by decide, .number (by decide)⟩, ⟨by decide, .text (by decide)⟩, ⟨by decide, .number (by decide)⟩,
    ⟨by decide, fits_domains.mono (by decide)⟩, ⟨by decide, Fits.list (by decide) ?_⟩, by simp⟩
  exact List.forall_mem_singleton.2 fits_primary

theorem fits_sampleProposed (keys : KeyPair crypto) : Fits 4 (sampleProposed keys.publicKey).toJson := by
  have hoperators : ∀ item ∈ (sampleProposed keys.publicKey).operators.map OperatorRecord.toJson, Fits 2 item := by
    rw [sampleProposed, sampleSet, List.map_append, List.map_singleton, List.forall_mem_append]
    exact ⟨List.forall_mem_singleton.2 fits_primary, List.forall_mem_singleton.2
      (fits_sampleOperator (by decide) (by decide) keys.isShort_publicKey)⟩
  refine Fits.object (show 6 ≤ 1024 by decide) ?_
  simp only [List.forall_mem_cons]
  exact ⟨⟨by decide, .number (show (0 : Int).natAbs ≤ _ by decide)⟩,
    ⟨by decide, .text (show IsShort "testnet" by decide)⟩, ⟨by decide, .number (show (18888 : Int).natAbs ≤ _ by decide)⟩,
    ⟨by decide, .number (show (5 : Int).natAbs ≤ _ by decide)⟩, ⟨by decide, fits_domains.mono (by decide)⟩,
    ⟨by decide, Fits.list (show 2 ≤ 100000 by decide) hoperators⟩, by simp⟩

theorem isShort_sha3Hex (data : Bytes) : IsShort (crypto.sha3Hex data) :=
  (crypto.isHex32_sha3Hex data).isShort

/-- The sample's update can be signed. -/
theorem exists_payload_sample (keys : KeyPair crypto) (bundleHash previousHash proposedHash : Bytes) :
    ∃ payload, signaturePayload updateSignatureDomain (.obj (Update.members ⟨false, crypto.sha3Hex bundleHash,
      (sampleCandidate keys.publicKey).toJson, 0, "testnet", crypto.sha3Hex previousHash,
      sampleProposed keys.publicKey, crypto.sha3Hex proposedHash⟩ ++ Update.lastMembers keys.publicKey)) = .ok payload := by
  refine Fits.exists_signaturePayload (show Fits 5 _ from ?_) (by decide) _
  refine Fits.object (show 13 ≤ 1024 by decide) ?_
  simp only [Update.members, Update.lastMembers, List.cons_append, List.nil_append, List.forall_mem_cons]
  exact ⟨⟨by decide, .text (by decide)⟩, ⟨by decide, .bool _⟩, ⟨by decide, .text (isShort_sha3Hex _)⟩,
    ⟨by decide, (fits_sampleOperator (by decide) (by decide) keys.isShort_publicKey).mono (by decide)⟩,
    ⟨by decide, .number (by decide)⟩, ⟨by decide, .text (by decide)⟩, ⟨by decide, .text (isShort_sha3Hex _)⟩,
    ⟨by decide, fits_sampleProposed keys⟩, ⟨by decide, .text (isShort_sha3Hex _)⟩, ⟨by decide, .text (by decide)⟩,
    ⟨by decide, .text keys.isShort_publicKey⟩, ⟨by decide, .text (by decide)⟩, ⟨by decide, .number (by decide)⟩, by simp⟩

/-- A maintainer with the candidate's own key admits the candidate of the sample. -/
theorem exists_sampleAdmission (keys : KeyPair crypto) : ∃ a : Admission sampleText crypto, a.members = sampleMembers := by
  obtain ⟨payload, hpayload⟩ : ∃ payload, signaturePayload bundleSignatureDomain
      (.obj (sampleBundle keys.publicKey [])) = .ok payload :=
    Fits.exists_signaturePayload (@fits_sampleBundle crypto keys [] (Nat.zero_le 1) (by simp)) (by decide) _
  have hverified := verifyCandidateBundle_sample keys hpayload
  have hfits : Fits 3 (.obj (sampleBundle keys.publicKey [("candidate_signature",
      .str (String.ofList (Base85.b85encode (crypto.sign keys.seed payload))))])) := by
    refine fits_sampleBundle keys le_rfl ?_
    simp only [List.forall_mem_singleton]
    exact ⟨by decide, .text (isShort_signature keys payload)⟩
  generalize Json.str (String.ofList (Base85.b85encode (crypto.sign keys.seed payload))) = signature at *
  have hoperator : (Json.obj (sampleBundle keys.publicKey [("candidate_signature", signature)])).item "operator"
      = .ok (sampleCandidate keys.publicKey).toJson := rfl
  obtain ⟨updatePayload, hupdate⟩ := exists_payload_sample keys
    (Json.obj (sampleBundle keys.publicKey [("candidate_signature", signature)])).bytes sampleData.toJson.bytes
    (sampleProposed keys.publicKey).toJson.bytes
  obtain ⟨update, hmade⟩ : ∃ update, makeOperatorSetUpdate sampleText crypto (.obj sampleMembers)
      (.obj (sampleBundle keys.publicKey [("candidate_signature", signature)])) keys.privateKey keys.publicKey 0 false
        = .ok update := by
    rw [makeOperatorSetUpdate, hverified, Check.ok_bind, hoperator, Check.ok_bind, operatorSetWithCandidate_sample,
      Check.ok_bind, currentData_sample, Check.ok_bind, recordHash, hfits.sha3Json_eq (by decide), Check.ok_bind,
      recordHash, fits_sampleData.sha3Json_eq (by decide), Check.ok_bind, recordHash,
      (fits_sampleProposed keys).sha3Json_eq (by decide), Check.ok_bind, signOperatorSetUpdate, keys.strip_publicKey]
    dsimp only
    rw [show sampleData.network = "testnet" from rfl, hupdate, Check.ok_bind, KeyPair.privateKey,
      signWithKey_encodePrivateKey crypto keys.length_seed]
    exact ⟨_, rfl⟩
  exact ⟨{
    members := sampleMembers
    sorted := by decide
    set := sampleSet
    normalized := sampleSet_normalized
    bundle := .obj (sampleBundle keys.publicKey [("candidate_signature", signature)])
    maintainer := keys
    signingPublicKey := keys.publicKey
    strip_signingPublicKey := keys.strip_publicKey
    createdAt := 0
    requireBurnIn := false
    update := update
    made := hmade }, rfl⟩

/-- The sample loses its node port, 19999: the proposed set has the default of the network. -/
theorem not_holds_sample : ¬ ∀ (lib : TextLibrary) (crypto : Crypto) (a : Admission lib crypto), a.Holds := by
  intro hall
  obtain ⟨keys, -⟩ := KeyPair.exists_of_seed sampleCrypto (List.replicate 32 0) List.length_replicate
  obtain ⟨a, hmembers⟩ := exists_sampleAdmission keys
  have hset : a.set = sampleSet := by
    have hread := a.normalized
    rw [hmembers, sampleSet_normalized] at hread
    exact (Except.ok.inj hread).symm
  have hport := (Admission.appends_iff.1 (hall sampleText sampleCrypto a).appends).1
  rw [hset] at hport
  exact absurd hport (by decide)

end Sample

end OperatorAdmission
