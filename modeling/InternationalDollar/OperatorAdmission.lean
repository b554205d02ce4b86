import InternationalDollar.OperatorSet
import InternationalDollar.SignedRoot

set_option autoImplicit false

/-! # Admission of operators (`operator_admission`)

A candidate signs an admission bundle with the key of the operator. A maintainer signs an update of the operator set that
names the bundle and the set after it, and whoever applies the update computes that set again. -/

namespace OperatorAdmission

open OperatorSet

variable (lib : TextLibrary) (crypto : Crypto)

/-- `BUNDLE_TYPE`. -/
def bundleType : String := "ind.operator_admission_bundle.v3"

/-- `UPDATE_TYPE`. -/
def updateType : String := "ind.operator_set_update.v3"

/-- `BUNDLE_SIGNATURE_DOMAIN`. -/
def bundleSignatureDomain : String := "IND_OPERATOR_ADMISSION_BUNDLE_V3"

/-- `UPDATE_SIGNATURE_DOMAIN`. -/
def updateSignatureDomain : String := "IND_OPERATOR_SET_UPDATE_V3"

/-- `SIGNATURE_ALGORITHM`. -/
def signatureAlgorithm : String := "ED25519_BASE85"

/-- `VALID_STAGES`. -/
def validStages : List String :=
  ["gui_node", "candidate_mirror", "burn_in_passed"]

/-- `record_hash`. -/
def recordHash (data : Json) : Except String String :=
  sha3Json crypto data

/-- `_require_fields`. The fields are listed in order. -/
def requireFields (record : List (String × Json)) (fields : List String) (label : String) : Except String Unit :=
  let missing := fields.filter fun field => (AssocList.get? field record).isNone
  Check.require (missing = [])
    (label ++ " is missing required fields: " ++ String.intercalate ", " missing)

/-! ## Operator records -/

/-- `_normalize_http_url`. -/
def normalizeHttpUrl (label : String) (value : Json) : Except String String := do
  let value := operatorUrl lib value
  let parsed ← lib.urlparse value
  Check.require (hasHttpHost parsed) (label ++ " must be an http(s) URL")
  Check.require (parsed.fragment = "") (label ++ " must not contain a URL fragment")
  pure value

/-- `[_normalize_http_url(item, label) for item in items]`. -/
def normalizeHttpUrls (label : String) : List Json → Except String (List String)
  | [] => pure []
  | item :: rest => do
      let url ← normalizeHttpUrl lib label item
      let urls ← normalizeHttpUrls label rest
      pure (url :: urls)

/-- `_origin_count`. -/
def originCount (urls : List String) : Except String Nat := do
  let origins ← httpOrigins lib urls
  pure (dedupe (origins.filter (· ≠ ""))).length

/-- `normalize_operator_record`. -/
def normalizeOperatorRecord (operator : Json) (minRootMirrors : Int) : Except String OperatorRecord :=
  match operator with
  | .obj members => do
      requireFields members ["mirrors", "name", "proof_archives", "public_key", "url"] "operator"
      let name := Text.strip (lib.str (Json.getD "name" (.str "") members))
      Check.require (name ≠ "") "operator name is required"
      let url ← normalizeHttpUrl lib "operator append URL" (Json.getD "url" .null members)
      let publicKey := Text.strip (lib.str (Json.getD "public_key" (.str "") members))
      let _ ← Check.orRaise (decodePublicKey publicKey) "operator public_key must be an indpk3 key"
      let items ← (Json.getD "mirrors" .null members).elements
      let mirrors ← normalizeHttpUrls lib "operator mirror" items
      let mirrors := dedupe mirrors
      let items ← (Json.getD "proof_archives" .null members).elements
      let archives ← normalizeHttpUrls lib "operator proof archive" items
      let archives := dedupe archives
      Check.require (minRootMirrors ≤ mirrors.length)
        ("operator has " ++ Text.decimal mirrors.length ++ " mirror(s), needs " ++ Text.decimal minRootMirrors)
      Check.require (minRootMirrors ≤ archives.length)
        ("operator has " ++ Text.decimal archives.length ++ " proof archive(s), needs "
          ++ Text.decimal minRootMirrors)
      let operatorOrigin ← httpOrigin lib url
      let mirrorOrigins ← httpOrigins lib mirrors
      Check.require (operatorOrigin ∉ mirrorOrigins) "operator mirror must not share append API origin"
      let archiveOrigins ← httpOrigins lib archives
      Check.require (operatorOrigin ∉ archiveOrigins) "operator proof archive must not share append API origin"
      let count ← originCount lib mirrors
      Check.require (minRootMirrors ≤ count) "operator mirrors must use independent HTTP origins"
      let count ← originCount lib archives
      Check.require (minRootMirrors ≤ count) "operator proof archives must use independent HTTP origins"
      pure ⟨name, url, publicKey, mirrors, archives⟩
  | _ => .error "operator must be a JSON object"

/-! ## Sets with a candidate -/

/-- What `_operator_set_data` keeps of a set. -/
structure SetData where
  network : String
  minRootMirrors : Int
  operatorAppendFanout : Int
  operatorCoreDomains : List Json
  operators : List Json

/-- The data as a JSON object. -/
def SetData.toJson (data : SetData) : Json :=
  .obj [("min_root_mirrors", .int data.minRootMirrors), ("network", .str data.network),
    ("operator_append_fanout", .int data.operatorAppendFanout),
    ("operator_core_domains", .arr data.operatorCoreDomains), ("operators", .arr data.operators)]

/-- `_operator_set_data`. -/
def operatorSetData (operatorSet : Json) : Except String SetData := do
  let members ← operatorSet.asObject
  let minRootMirrors ← (Json.getD "min_root_mirrors" (.int 2) members).toInt
  let fanout ← ((Json.getD "operator_append_fanout" .null members).orElse (.int defaultOperatorAppendFanout)).toInt
  let domains ← ((Json.getD "operator_core_domains" .null members).orElse
    (.arr (defaultOperatorCoreDomains.map .str))).elements
  let operators ← ((Json.getD "operators" .null members).orElse (.arr [])).elements
  pure ⟨networkOf lib members, minRootMirrors, fanout, domains, operators⟩

/-- A value that a set can hold. -/
def hashable : Json → Except String Json
  | .arr _ => .error "unhashable type: 'list'"
  | .obj _ => .error "unhashable type: 'dict'"
  | value => .ok value

/-- `{item[key] for item in operators}`. -/
def identities (key : String) : List Json → Except String (List Json)
  | [] => pure []
  | item :: rest => do
      let value ← item.item key
      let value ← hashable value
      let values ← identities key rest
      pure (value :: values)

/-- `{item["url"].rstrip("/") for item in operators}`. -/
def addresses : List Json → Except String (List String)
  | [] => pure []
  | item :: rest => do
      let value ← item.item "url"
      let value ← value.asText
      let values ← addresses rest
      pure (Text.rstripChar '/' value :: values)

/-- `operator_set_with_candidate`. -/
def operatorSetWithCandidate (operatorSet operator : Json) : Except String OperatorSet := do
  let base ← operatorSetData lib operatorSet
  let candidate ← normalizeOperatorRecord lib operator base.minRootMirrors
  let names ← identities "name" base.operators
  let urls ← addresses base.operators
  let keys ← identities "public_key" base.operators
  Check.require (.str candidate.name ∉ names) ("operator name already exists: " ++ candidate.name)
  Check.require (Text.rstripChar '/' candidate.url ∉ urls)
    ("operator append URL already exists: " ++ candidate.url)
  Check.require (.str candidate.publicKey ∉ keys) "operator public_key already exists"
  normalizeOperatorSet lib { base with operators := base.operators ++ [candidate.toJson] }.toJson

/-! ## Bundles -/

/-- `_verify_signature`. -/
def verifySignature (publicKey : String) (signature : Json) (payload : Bytes) : Except String Bool :=
  match Base85.b85decode (Text.strip (lib.str signature)).toList with
  | none => pure false
  | some signatureBytes => verifyKeySignature crypto publicKey signatureBytes payload

/-- `verify_candidate_signature`. -/
def verifyCandidateSignature (bundle : List (String × Json)) : Except String Unit := do
  requireFields bundle ["candidate_signature", "candidate_signature_algorithm", "candidate_signing_public_key"]
    "candidate bundle"
  let publicKey := Text.strip (lib.str (Json.getD "candidate_signing_public_key" (.str "") bundle))
  let operator ← (Json.getD "operator" (.obj []) bundle).asObject
  Check.require (publicKey = Text.strip (lib.str (Json.getD "public_key" (.str "") operator)))
    "candidate signing key must match operator public_key"
  Check.require (Json.getD "candidate_signature_algorithm" .null bundle = .str signatureAlgorithm)
    "candidate bundle uses an unsupported signature algorithm"
  let payload ← signaturePayload bundleSignatureDomain (.obj (Json.popMember "candidate_signature" bundle))
  let valid ← verifySignature lib crypto publicKey (Json.getD "candidate_signature" .null bundle) payload
  Check.require (valid = true) "candidate bundle signature is invalid"

/-- The `status` member of a member of a bundle. -/
def statusOf (key : String) (bundle : List (String × Json)) : Except String String := do
  let members ← (Json.getD key (.obj []) bundle).asObject
  pure (lib.str (Json.getD "status" (.str "unknown") members))

/-- The part of `verify_candidate_bundle` that asks for the burn-in. -/
def checkBurnIn (stage : String) (bundle : List (String × Json)) : Except String Unit := do
  let uptimeStatus ← statusOf lib "uptime_proof" bundle
  let auditStatus ← statusOf lib "audit_report" bundle
  Check.require (stage = "burn_in_passed") "candidate must complete mirror/auditor burn-in first"
  Check.require (uptimeStatus = "passed" ∧ auditStatus = "passed")
    "candidate bundle must include passed uptime and audit status"

/-- The network of the set against that of the bundle, and the number of mirrors that the set asks for. -/
def requiredMirrors (operatorSet : Json) (bundle : List (String × Json)) : Except String Int :=
  if operatorSet.truthy then do
    let members ← operatorSet.asObject
    let minRootMirrors ← (Json.getD "min_root_mirrors" (.int 2) members).toInt
    Check.require (lib.str (Json.getD "network" (.str "") members) = lib.str (Json.getD "network" (.str "") bundle))
      "candidate network does not match operator set"
    pure minRootMirrors
  else pure 2

/-- `verify_candidate_bundle` with the signature required and without the live probe. What it returns is the operator. -/
def verifyCandidateBundle (bundle operatorSet : Json) (requireBurnIn : Bool) : Except String OperatorRecord :=
  match bundle with
  | .obj members => do
      requireFields members ["admission_stage", "network", "operator", "type", "version"] "candidate bundle"
      let version := Json.getD "version" .null members
      Check.require (Json.getD "type" .null members = .str bundleType) "unsupported candidate bundle version"
      let version ← version.toInt
      Check.require (version = 1) "unsupported candidate bundle version"
      let stage := Text.strip (lib.str (Json.getD "admission_stage" (.str "") members))
      Check.require (stage ∈ validStages) "candidate bundle has an unsupported admission stage"
      let minRootMirrors ← requiredMirrors lib operatorSet members
      let operator ← normalizeOperatorRecord lib (Json.getD "operator" .null members) minRootMirrors
      verifyCandidateSignature lib crypto members
      if requireBurnIn then checkBurnIn lib stage members else pure ()
      if operatorSet.truthy then do
        let _ ← operatorSetWithCandidate lib operatorSet operator.toJson
        pure ()
      else pure ()
      let _ ← recordHash crypto (.obj members)
      pure operator
  | _ => .error "candidate bundle must be a JSON object"

/-! ## Updates -/

/-- An update before it is signed. -/
structure Update where
  burnInRequired : Bool
  candidateBundleHash : String
  candidateOperator : Json
  createdAt : Int
  network : String
  previousOperatorSetHash : String
  proposedOperatorSet : OperatorSet
  proposedOperatorSetHash : String

namespace Update

/-- The members of an update before `signature`. -/
def members (update : Update) : List (String × Json) :=
  [("action", .str "add_operator"), ("burn_in_required", .bool update.burnInRequired),
    ("candidate_bundle_hash", .str update.candidateBundleHash), ("candidate_operator", update.candidateOperator),
    ("created_at", .int update.createdAt), ("network", .str update.network),
    ("previous_operator_set_hash", .str update.previousOperatorSetHash),
    ("proposed_operator_set", update.proposedOperatorSet.toJson),
    ("proposed_operator_set_hash", .str update.proposedOperatorSetHash)]

/-- The members of an update after `signature`. -/
def lastMembers (signingPublicKey : String) : List (String × Json) :=
  [("signature_algorithm", .str signatureAlgorithm), ("signing_public_key", .str signingPublicKey),
    ("type", .str updateType), ("version", .int 1)]

end Update

/-- `sign_operator_set_update`. -/
def signOperatorSetUpdate (update : Update) (privateKey publicKey : String) : Except String Json := do
  let publicKey := Text.strip publicKey
  let payload ← signaturePayload updateSignatureDomain (.obj (update.members ++ Update.lastMembers publicKey))
  let signature ← signWithKey crypto privateKey payload
  let signature := String.ofList (Base85.b85encode signature)
  pure (.obj (update.members ++ [("signature", .str signature)] ++ Update.lastMembers publicKey))

/-- `_operator_set_data` of a set that was normalised. -/
def currentData (operatorSet : Json) : Except String SetData := do
  let current ← normalizeOperatorSet lib operatorSet
  operatorSetData lib current.toJson

/-- `make_operator_set_update`. The time is the one that was given, or else that of the clock. -/
def makeOperatorSetUpdate (operatorSet bundle : Json) (signingPrivateKey signingPublicKey : String) (createdAt : Int)
    (requireBurnIn : Bool) : Except String Json := do
  let _ ← verifyCandidateBundle lib crypto bundle operatorSet requireBurnIn
  let operator ← bundle.item "operator"
  let proposed ← operatorSetWithCandidate lib operatorSet operator
  let current ← currentData lib operatorSet
  let bundleHash ← recordHash crypto bundle
  let previousHash ← recordHash crypto current.toJson
  let proposedHash ← recordHash crypto proposed.toJson
  signOperatorSetUpdate crypto
    ⟨requireBurnIn, bundleHash, operator, createdAt, current.network, previousHash, proposed, proposedHash⟩
    signingPrivateKey signingPublicKey

/-- The part of `verify_operator_set_update` about the update alone. -/
def verifyUpdateSignature (update : List (String × Json)) (trustedSigningKeys : List String) :
    Except String Unit := do
  requireFields update ["action", "candidate_bundle_hash", "candidate_operator", "network",
    "previous_operator_set_hash", "proposed_operator_set", "proposed_operator_set_hash", "signature",
    "signature_algorithm", "signing_public_key", "type", "version"] "operator-set update"
  Check.require (Json.getD "type" .null update = .str updateType) "unsupported operator-set update version"
  let version ← (Json.getD "version" .null update).toInt
  Check.require (version = 1) "unsupported operator-set update version"
  Check.require (Json.getD "action" .null update = .str "add_operator") "unsupported operator-set update action"
  let signingPublicKey := Text.strip (lib.str (Json.getD "signing_public_key" .null update))
  Check.require (signingPublicKey ∈ trustedSigningKeys.flatMap Text.splitMany)
    "operator-set update was signed by an untrusted key"
  Check.require (Json.getD "signature_algorithm" .null update = .str signatureAlgorithm)
    "operator-set update uses an unsupported signature algorithm"
  let payload ← signaturePayload updateSignatureDomain (.obj (Json.popMember "signature" update))
  let valid ← verifySignature lib crypto signingPublicKey (Json.getD "signature" .null update) payload
  Check.require (valid = true) "operator-set update signature is invalid"

/-- `verify_operator_set_update`. What it returns is the proposed set. -/
def verifyOperatorSetUpdate (update operatorSet bundle : Json) (trustedSigningKeys : List String) :
    Except String OperatorSet :=
  match update with
  | .obj members => do
      verifyUpdateSignature lib crypto members trustedSigningKeys
      let current ← currentData lib operatorSet
      Check.require (lib.str (Json.getD "network" .null members) = current.network)
        "operator-set update network does not match current set"
      let previousHash ← recordHash crypto current.toJson
      Check.require (Json.getD "previous_operator_set_hash" .null members = .str previousHash)
        "operator-set update does not match the current operator set"
      let bundleHash ← recordHash crypto bundle
      Check.require (Json.getD "candidate_bundle_hash" .null members = .str bundleHash)
        "operator-set update does not match the candidate bundle"
      let _ ← verifyCandidateBundle lib crypto bundle operatorSet
        (Json.getD "burn_in_required" (.bool true) members).truthy
      let operator ← bundle.item "operator"
      let proposed ← operatorSetWithCandidate lib operatorSet operator
      let proposedHash ← recordHash crypto proposed.toJson
      Check.require (Json.getD "proposed_operator_set_hash" .null members = .str proposedHash)
        "operator-set update proposed hash is wrong"
      let proposedBytes ← canonicalBytes proposed.toJson
      let listedBytes ← canonicalBytes (Json.getD "proposed_operator_set" .null members)
      Check.require (proposedBytes = listedBytes) "operator-set update proposed set is not canonical"
      let _ ← recordHash crypto (.obj members)
      pure proposed
  | _ => .error "operator-set update must be a JSON object"

end OperatorAdmission
