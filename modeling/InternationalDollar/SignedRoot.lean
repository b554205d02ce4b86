import InternationalDollar.Keys
import InternationalDollar.SpendClaim

set_option autoImplicit false

/-! # Signed roots (`transparency_client`)

An operator signs the size and the root of its log together with the root of its spend map.
`verify_makeSignedRoot` says that the roots an operator makes with its own key pair verify. -/

/-- `LOG_ROOT_TYPE`. -/
def logRootType : String := "ind.transparency_root.v3"

/-- `LOG_HASH_ALGORITHM`. -/
def logHashAlgorithm : String := "sha3_256"

/-- `LOG_TREE_ALGORITHM`. -/
def logTreeAlgorithm : String := "CT_STYLE_SHA3_256_V3"

/-- `LEGACY_LOG_TREE_ALGORITHM`. -/
def legacyLogTreeAlgorithm : String := "RFC6962_SHA3_256_PYMERKLE_V3"

/-- `LOG_SPEND_MAP_ALGORITHM`. -/
def logSpendMapAlgorithm : String := "IND_SPARSE_SPEND_MAP_SHA3_256_V3"

/-- `LOG_SIGNATURE_ALGORITHM`. -/
def logSignatureAlgorithm : String := "ED25519_BASE85"

/-- `LOG_ROOT_SIGNATURE_DOMAIN`. -/
def logRootSignatureDomain : String := "IND_TRANSPARENCY_ROOT_V3"

/-- A signed root. The spend-map fields may be absent. -/
structure SignedRoot where
  type : String
  version : Int
  logId : String
  treeAlgorithm : String
  hashAlgorithm : String
  signatureAlgorithm : String
  treeSize : Int
  rootHash : String
  spendMapAlgorithm : Option String
  spendMapRoot : Option String
  spendMapSize : Option Int
  timestamp : Int
  operatorPublicKey : String
  signature : String
deriving DecidableEq

namespace SignedRoot

/-- A member that is written only where it is present. -/
def optionalMember (name : String) : Option Json → List (String × Json)
  | none => []
  | some value => [(name, value)]

/-- The members of a root between its signature fields and the end. -/
def lastMembers (root : SignedRoot) : List (String × Json) :=
  [("signature_algorithm", .str root.signatureAlgorithm)] ++
    optionalMember "spend_map_algorithm" (root.spendMapAlgorithm.map .str) ++
    optionalMember "spend_map_root" (root.spendMapRoot.map .str) ++
    optionalMember "spend_map_size" (root.spendMapSize.map .int) ++
    [("timestamp", .int root.timestamp), ("tree_algorithm", .str root.treeAlgorithm),
      ("tree_size", .int root.treeSize), ("type", .str root.type), ("version", .int root.version)]

/-- The root as a JSON object, with or without its signature. -/
def members (root : SignedRoot) (signature : Option String) : Json :=
  .obj ([("hash_algorithm", .str root.hashAlgorithm), ("log_id", .str root.logId),
    ("operator_public_key", .str root.operatorPublicKey), ("root_hash", .str root.rootHash)] ++
    optionalMember "signature" (signature.map .str) ++ root.lastMembers)

/-- The root as a JSON object. -/
def toJson (root : SignedRoot) : Json :=
  root.members (some root.signature)

end SignedRoot

/-! ## Operator signatures -/

/-- `log_id_from_public_key`. -/
def logIdFromPublicKey (crypto : Crypto) (publicKey : String) : String :=
  crypto.sha3Hex (Text.utf8 (Text.strip publicKey))

/-- `signature_payload`. -/
def signaturePayload (domain : String) (data : Json) : Except String Bytes := do
  let payload ← canonicalBytes data
  pure (Text.utf8 "IND-SIGNATURE-V3:" ++ Text.utf8 domain ++ Text.utf8 "\n" ++ payload)

/-- `_sign_operator_payload`. -/
def signOperatorPayload (crypto : Crypto) (privateKey : String) (payload : Bytes) :
    Except String String := do
  let privateKey := Text.strip privateKey
  Check.require ((Text.dropPrefix? privateKeyPrefix privateKey.toList).isSome)
    "operator signing key must be an indsk3 Ed25519 key"
  let signature ← signWithKey crypto privateKey payload
  pure (String.ofList (Base85.b85encode signature))

/-- `_verify_operator_payload`. -/
def verifyOperatorPayload (crypto : Crypto) (publicKey signature : String) (payload : Bytes)
    (signatureAlgorithm : String) : Except String Bool :=
  match Base85.b85decode (Text.strip signature).toList with
  | none => pure false
  | some signatureBytes =>
      if Text.strip signatureAlgorithm = logSignatureAlgorithm ∧
          (Text.dropPrefix? publicKeyPrefix (Text.strip publicKey).toList).isSome then
        verifyKeySignature crypto (Text.strip publicKey) signatureBytes payload
      else pure false

namespace SignedRoot

/-- `root_signature_payload`. -/
def rootSignaturePayload (root : SignedRoot) : Except String Bytes :=
  signaturePayload logRootSignatureDomain (root.members none)

/-- `signed_root_id`. -/
def signedRootId (crypto : Crypto) (root : SignedRoot) : Except String String :=
  sha3Json crypto root.toJson

/-- The root record before it is signed. -/
def unsigned (crypto : Crypto) (treeSize : Int) (rootHash : String) (timestamp : Int)
    (publicKey spendMapRoot : String) (spendMapSize : Int) : SignedRoot where
  type := logRootType
  version := logVersion
  logId := logIdFromPublicKey crypto publicKey
  treeAlgorithm := logTreeAlgorithm
  hashAlgorithm := logHashAlgorithm
  signatureAlgorithm := logSignatureAlgorithm
  treeSize := treeSize
  rootHash := Text.lower rootHash
  spendMapAlgorithm := some logSpendMapAlgorithm
  spendMapRoot := some (Text.lower spendMapRoot)
  spendMapSize := some spendMapSize
  timestamp := timestamp
  operatorPublicKey := publicKey
  signature := ""

/-- `make_signed_root`, given a spend-map root. -/
def makeSignedRoot (crypto : Crypto) (treeSize : Int) (rootHash : String) (timestamp : Int)
    (privateKey publicKey spendMapRoot : String) (spendMapSize : Int) :
    Except String SignedRoot := do
  let root := unsigned crypto treeSize rootHash timestamp publicKey spendMapRoot spendMapSize
  let payload ← root.rootSignaturePayload
  let signature ← signOperatorPayload crypto privateKey payload
  pure { root with signature := signature }

/-- The part of `verify_signed_root` about the spend-map fields. -/
def verifySpendMapFields (root : SignedRoot) : Except String Unit :=
  match root.spendMapAlgorithm, root.spendMapRoot, root.spendMapSize with
  | none, none, none => .ok ()
  | some algorithm, some spendMapRoot, some size => do
      Check.require (algorithm = logSpendMapAlgorithm)
        "unsupported transparency spend-map algorithm"
      let _ ← hex32 spendMapRoot "transparency spend-map root hash"
      requireMin size 0 "transparency spend-map size"
  | _, _, _ => .error "incomplete transparency spend-map commitment"

/-- `verify_signed_root`. `acceptLegacy` is the setting that admits the former name of the tree
    algorithm; an empty operator key is none. -/
def verifySignedRoot (crypto : Crypto) (acceptLegacy : Bool) (root : SignedRoot)
    (operatorPublicKey : Option String) : Except String Unit := do
  Check.require (root.type = logRootType ∧ root.version = logVersion)
    "unsupported transparency root version"
  Check.require (root.treeAlgorithm = logTreeAlgorithm ∨
    (acceptLegacy = true ∧ root.treeAlgorithm = legacyLogTreeAlgorithm))
    "unsupported transparency tree algorithm"
  Check.require (root.hashAlgorithm = logHashAlgorithm) "unsupported transparency hash algorithm"
  Check.require (root.signatureAlgorithm = logSignatureAlgorithm)
    "unsupported transparency root signature algorithm"
  requireMin root.treeSize 0 "transparency tree size"
  requireMin root.timestamp 0 "transparency root timestamp"
  let _ ← hex32 root.rootHash "transparency root hash"
  root.verifySpendMapFields
  let publicKey := Text.strip root.operatorPublicKey
  Check.require (∀ expected ∈ operatorPublicKey, expected = "" ∨ publicKey = Text.strip expected)
    "transparency root was signed by an unexpected operator"
  Check.require (root.logId = logIdFromPublicKey crypto publicKey)
    "transparency root log id does not match operator key"
  let payload ← root.rootSignaturePayload
  let valid ← verifyOperatorPayload crypto publicKey root.signature payload root.signatureAlgorithm
  Check.require (valid = true) "invalid transparency root signature"

/-- What a root satisfies that `verify_signed_root` accepts, apart from its signature. -/
structure Verified (root : SignedRoot) : Prop where
  treeSize_nonneg : 0 ≤ root.treeSize
  timestamp_nonneg : 0 ≤ root.timestamp
  rootHash_hex : IsHex32 root.rootHash
  spendMapRoot_hex : ∀ text ∈ root.spendMapRoot, IsHex32 text
  spendMapSize_nonneg : ∀ size ∈ root.spendMapSize, 0 ≤ size

theorem verified_of_verify {crypto : Crypto} {acceptLegacy : Bool} {root : SignedRoot}
    {operatorPublicKey : Option String} {u : Unit}
    (h : root.verifySignedRoot crypto acceptLegacy operatorPublicKey = .ok u) : root.Verified := by
  simp only [verifySignedRoot, Check.bind_eq_ok, Check.require_eq_ok, requireMin_eq_ok,
    hex32_eq_ok, ↓existsAndEq, and_true, exists_const] at h
  obtain ⟨-, -, -, -, htree, htime, hroot, _, hfields, -⟩ := h
  unfold verifySpendMapFields at hfields
  split at hfields
  · next hnone hroot' hsize => exact ⟨htree, htime, hroot, by simp [hroot'], by simp [hsize]⟩
  · next hsome hroot' hsize =>
    simp only [Check.bind_eq_ok, hex32_eq_ok, requireMin_eq_ok, ↓existsAndEq, and_true] at hfields
    obtain ⟨_, -, hhex, hmin⟩ := hfields
    refine ⟨htree, htime, hroot, ?_, ?_⟩
    · rintro text ht
      rw [hroot'] at ht
      rwa [← Option.some.inj ht]
    · rintro size hs
      rw [hsize] at hs
      rwa [← Option.some.inj hs]
  · cases hfields

end SignedRoot

/-! ## The roots an operator makes -/

theorem isSpace_of_mem_publicKeyPrefix : ∀ c ∈ publicKeyPrefix, Text.isSpace c = false := by
  have hall : publicKeyPrefix.all (fun c => !Text.isSpace c) = true := by decide
  simpa using hall

theorem isSpace_of_mem_privateKeyPrefix : ∀ c ∈ privateKeyPrefix, Text.isSpace c = false := by
  have hall : privateKeyPrefix.all (fun c => !Text.isSpace c) = true := by decide
  simpa using hall

theorem strip_ofList {cs : List Char} (h : ∀ c ∈ cs, Text.isSpace c = false) :
    Text.strip (String.ofList cs) = String.ofList cs := by
  rw [Text.strip, String.toList_ofList, Text.trim_eq_self _ _ h]

theorem isSpace_of_mem_b85encode (data : Bytes) :
    ∀ c ∈ Base85.b85encode data, Text.isSpace c = false :=
  fun c hc => isSpace_of_mem_base85 c (Base85.b85encode_mem _ c hc)

theorem KeyPair.strip_publicKey {crypto : Crypto} (keys : KeyPair crypto) :
    Text.strip keys.publicKey = keys.publicKey := by
  refine strip_ofList (fun c hc => ?_)
  rcases List.mem_append.1 hc with hc | hc
  · exact isSpace_of_mem_publicKeyPrefix c hc
  · exact isSpace_of_mem_b85encode _ c hc

theorem KeyPair.strip_privateKey {crypto : Crypto} (keys : KeyPair crypto) :
    Text.strip keys.privateKey = keys.privateKey := by
  refine strip_ofList (fun c hc => ?_)
  rcases List.mem_append.1 hc with hc | hc
  · exact isSpace_of_mem_privateKeyPrefix c hc
  · exact isSpace_of_mem_b85encode _ c hc

theorem KeyPair.length_publicKey {crypto : Crypto} (keys : KeyPair crypto) :
    keys.publicKey.length = 47 := by
  have hkey := crypto.length_publicKeyFromSeed keys.seed
  rw [KeyPair.publicKey, encodePublicKey, String.length_ofList, List.length_append,
    Base85.b85encode_eq (by rw [hkey]), Base85.length_encodeGroups, hkey]
  rfl

theorem signOperatorPayload_eq {crypto : Crypto} (keys : KeyPair crypto) (payload : Bytes) :
    signOperatorPayload crypto keys.privateKey payload
      = .ok (String.ofList (Base85.b85encode (crypto.sign keys.seed payload))) := by
  have hprefix : (Text.dropPrefix? privateKeyPrefix keys.privateKey.toList).isSome := by
    rw [KeyPair.privateKey, encodePrivateKey, String.toList_ofList, dropPrefix?_append]
    rfl
  have hsign : signWithKey crypto keys.privateKey payload = .ok (crypto.sign keys.seed payload) :=
    signWithKey_encodePrivateKey crypto keys.length_seed payload
  simp [signOperatorPayload, keys.strip_privateKey, hprefix, hsign, Check.require]

/-- The text of a signature is read back. -/
theorem b85decode_strip_b85encode (raw : Bytes) :
    Base85.b85decode (Text.strip (String.ofList (Base85.b85encode raw))).toList = some raw := by
  rw [strip_ofList (isSpace_of_mem_b85encode _), String.toList_ofList]
  exact Base85.b85decode_b85encode raw

theorem verifyOperatorPayload_sign {crypto : Crypto} (keys : KeyPair crypto) (payload : Bytes) :
    verifyOperatorPayload crypto keys.publicKey
      (String.ofList (Base85.b85encode (crypto.sign keys.seed payload))) payload
      logSignatureAlgorithm = .ok true := by
  have hprefix : (Text.dropPrefix? publicKeyPrefix keys.publicKey.toList).isSome := by
    rw [KeyPair.publicKey, encodePublicKey, String.toList_ofList, dropPrefix?_append]
    rfl
  have halgorithm : Text.strip logSignatureAlgorithm = logSignatureAlgorithm := by decide
  rw [verifyOperatorPayload, b85decode_strip_b85encode]
  simp only [keys.strip_publicKey, hprefix, halgorithm, and_self, if_true,
    keys.verifyKeySignature_sign]

namespace SignedRoot

/-- A key pair can sign every root within the limits. -/
theorem exists_makeSignedRoot {crypto : Crypto} (keys : KeyPair crypto) {treeSize timestamp : Int}
    {rootHash spendMapRoot : String} {spendMapSize : Int}
    (hnumbers : ∀ n ∈ [treeSize, timestamp, spendMapSize], n.natAbs ≤ jsonLimits.maxIntegerAbs)
    (hroot : rootHash.length = 64) (hmap : spendMapRoot.length = 64) :
    ∃ root, makeSignedRoot crypto treeSize rootHash timestamp keys.privateKey keys.publicKey
      spendMapRoot spendMapSize = .ok root := by
  simp only [List.forall_mem_cons] at hnumbers
  obtain ⟨n1, n2, n3, -⟩ := hnumbers
  have hkey : keys.publicKey.length ≤ 16384 := by
    rw [keys.length_publicKey]
    decide
  have hlog : (logIdFromPublicKey crypto keys.publicKey).length ≤ 16384 := by
    rw [logIdFromPublicKey, (crypto.isHex32_sha3Hex _).1]
    decide
  have hroot' : (Text.lower rootHash).length ≤ 16384 := by
    rw [Text.length_lower, hroot]
    decide
  have hmap' : (Text.lower spendMapRoot).length ≤ 16384 := by
    rw [Text.length_lower, hmap]
    decide
  have hvalid : ((unsigned crypto treeSize rootHash timestamp keys.publicKey spendMapRoot
      spendMapSize).members none).validate jsonLimits "protocol object" 0 = .ok () := by
    have hlen : 13 ≤ jsonLimits.maxObjectKeys := by decide
    refine Json.validate_obj.2 ⟨by decide, hlen, ?_⟩
    simp only [unsigned, lastMembers, optionalMember, Option.map_some, Option.map_none,
      List.cons_append, List.nil_append, List.forall_mem_cons]
    have htext : ∀ s : String, s.length ≤ 16384 →
        (Json.str s).validate jsonLimits "protocol object" (0 + 1) = .ok () :=
      fun s hs => validate_text (by decide) hs
    have hnumber : ∀ n : Int, n.natAbs ≤ jsonLimits.maxIntegerAbs →
        (Json.int n).validate jsonLimits "protocol object" (0 + 1) = .ok () :=
      fun n hn => validate_number (by decide) hn
    exact ⟨⟨by decide, htext _ (by decide)⟩, ⟨by decide, htext _ hlog⟩, ⟨by decide, htext _ hkey⟩,
      ⟨by decide, htext _ hroot'⟩, ⟨by decide, htext _ (by decide)⟩, ⟨by decide, htext _ (by decide)⟩,
      ⟨by decide, htext _ hmap'⟩, ⟨by decide, hnumber _ n3⟩, ⟨by decide, hnumber _ n2⟩,
      ⟨by decide, htext _ (by decide)⟩, ⟨by decide, hnumber _ n1⟩, ⟨by decide, htext _ (by decide)⟩,
      ⟨by decide, hnumber _ (by decide)⟩, by simp⟩
  exact ⟨_, Check.bind_eq_ok.2 ⟨_, Check.bind_eq_ok.2 ⟨_, canonicalBytes_eq_ok.2 ⟨hvalid, rfl⟩,
    rfl⟩, Check.bind_eq_ok.2 ⟨_, signOperatorPayload_eq keys _, rfl⟩⟩⟩

theorem length_optionalMember_le (name : String) (value : Option Json) :
    (optionalMember name value).length ≤ 1 := by
  cases value with
  | none => exact Nat.zero_le 1
  | some json => exact le_rfl

/-- A root that can be signed has an id, where its signature is not too long. -/
theorem exists_signedRootId {crypto : Crypto} {root : SignedRoot} {payload : Bytes}
    (h : root.rootSignaturePayload = .ok payload) (hsignature : root.signature.length ≤ 16384) :
    ∃ id, root.signedRootId crypto = .ok id := by
  obtain ⟨_, hbytes, -⟩ := Check.bind_eq_ok.1 h
  obtain ⟨hdepth, -, hmembers⟩ := Json.validate_obj.1 (canonicalBytes_eq_ok.1 hbytes).1
  have hlast : root.lastMembers.length ≤ 9 := by
    have halgorithm := length_optionalMember_le "spend_map_algorithm"
      (root.spendMapAlgorithm.map .str)
    have hroot := length_optionalMember_le "spend_map_root" (root.spendMapRoot.map .str)
    have hsize := length_optionalMember_le "spend_map_size" (root.spendMapSize.map .int)
    simp only [lastMembers, List.length_append, List.length_cons, List.length_nil]
    omega
  have hvalid : root.toJson.validate jsonLimits "protocol object" 0 = .ok () := by
    refine Json.validate_obj.2 ⟨hdepth, ?_, ?_⟩
    · have hkeys : 14 ≤ jsonLimits.maxObjectKeys := by decide
      simp only [optionalMember, Option.map_some, List.length_append, List.length_cons,
        List.length_nil]
      omega
    · intro member hmember
      simp only [optionalMember, Option.map_some, Option.map_none, List.append_nil,
        List.mem_append, List.mem_singleton] at hmember hmembers
      rcases hmember with (hmember | rfl) | hmember
      · exact hmembers member (Or.inl hmember)
      · have hname : "signature".utf8ByteSize ≤ jsonLimits.maxStringBytes := by decide
        exact ⟨hname, validate_text (by decide) hsignature⟩
      · exact hmembers member (Or.inr hmember)
  exact ⟨_, Check.bind_eq_ok.2 ⟨_, canonicalBytes_eq_ok.2 ⟨hvalid, rfl⟩, rfl⟩⟩

/-- **A root made with a key pair verifies**, for whoever expects that key or no key. -/
theorem verify_makeSignedRoot {crypto : Crypto} (keys : KeyPair crypto) {treeSize timestamp : Int}
    {rootHash spendMapRoot : String} {spendMapSize : Int} {root : SignedRoot}
    (hmake : makeSignedRoot crypto treeSize rootHash timestamp keys.privateKey keys.publicKey
      spendMapRoot spendMapSize = .ok root)
    (htree : 0 ≤ treeSize) (htime : 0 ≤ timestamp) (hroot : IsHex32 rootHash)
    (hmap : IsHex32 spendMapRoot) (hsize : 0 ≤ spendMapSize) (acceptLegacy : Bool)
    {expected : Option String} (hexpected : ∀ key ∈ expected, Text.strip key = keys.publicKey) :
    root.verifySignedRoot crypto acceptLegacy expected = .ok () := by
  obtain ⟨payload, hpayload, hmake⟩ := Check.bind_eq_ok.1 hmake
  obtain ⟨signature, hsignature, hmake⟩ := Check.bind_eq_ok.1 hmake
  rw [signOperatorPayload_eq] at hsignature
  cases hsignature
  cases hmake
  have hverify := verifyOperatorPayload_sign keys payload
  have hfields : verifySpendMapFields { unsigned crypto treeSize rootHash timestamp keys.publicKey
      spendMapRoot spendMapSize with
      signature := String.ofList (Base85.b85encode (crypto.sign keys.seed payload)) } = .ok () := by
    simp [verifySpendMapFields, unsigned, hmap.lower, hsize]
  simp only [verifySignedRoot, Check.bind_eq_ok, Check.require_eq_ok, requireMin_eq_ok,
    hex32_eq_ok, ↓existsAndEq, and_true, exists_const]
  refine ⟨⟨rfl, rfl⟩, Or.inl rfl, rfl, rfl, htree, htime, hroot.lower, (), hfields, ?_, ?_, payload,
    hpayload, ?_⟩
  · intro key hkey
    rw [hexpected key hkey]
    exact Or.inr keys.strip_publicKey
  · simp [unsigned, keys.strip_publicKey, logIdFromPublicKey]
  · rw [show Text.strip (unsigned crypto treeSize rootHash timestamp keys.publicKey spendMapRoot
      spendMapSize).operatorPublicKey = keys.publicKey from keys.strip_publicKey]
    exact hverify

end SignedRoot
