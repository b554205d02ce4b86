import InternationalDollar.Lib.JsonValues

set_option autoImplicit false

/-! # Operator sets (`render_operator_env`)

An operator set is a JSON file that names the operators and how many of them are asked. `normalize_operator_set` reads
it with its defaults. -/

/-- A record of an operator. -/
structure OperatorRecord where
  name : String
  url : String
  publicKey : String
  mirrors : List String
  proofArchives : List String
deriving DecidableEq

/-- The record as a JSON object. -/
def OperatorRecord.toJson (operator : OperatorRecord) : Json :=
  .obj [("mirrors", .arr (operator.mirrors.map .str)), ("name", .str operator.name),
    ("proof_archives", .arr (operator.proofArchives.map .str)), ("public_key", .str operator.publicKey),
    ("url", .str operator.url)]

/-- An operator set that was read. -/
structure OperatorSet where
  network : String
  nodePort : Int
  minRootMirrors : Int
  operatorAppendFanout : Int
  operatorCoreDomains : List String
  operators : List OperatorRecord
deriving DecidableEq

namespace OperatorSet

/-- The set as a JSON object. -/
def toJson (set : OperatorSet) : Json :=
  .obj [("min_root_mirrors", .int set.minRootMirrors), ("network", .str set.network),
    ("node_port", .int set.nodePort), ("operator_append_fanout", .int set.operatorAppendFanout),
    ("operator_core_domains", .arr (set.operatorCoreDomains.map .str)),
    ("operators", .arr (set.operators.map OperatorRecord.toJson))]

/-- `DEFAULT_OPERATOR_APPEND_FANOUT`. -/
def defaultOperatorAppendFanout : Int := 5

/-- `DEFAULT_OPERATOR_CORE_DOMAINS`. -/
def defaultOperatorCoreDomains : List String :=
  ["international-dollar.com", "internetofthebots.com"]

/-- `DEFAULT_NODE_PORTS.get(network, 8888)`. -/
def defaultNodePort (network : String) : Int :=
  if network = "mainnet" then 8888 else if network = "testnet" then 18888 else 8888

variable (lib : TextLibrary)

/-- `_as_list`. -/
def asList : Json → Except String (List String)
  | .null => pure []
  | .arr items => pure ((items.map fun item => Text.strip (lib.str item)).filter (· ≠ ""))
  | _ => .error "operator mirrors and proof_archives must be lists"

/-- The form of a domain in `_as_domain_list`. -/
def cleanDomain (text : String) : String :=
  let domain := Text.stripChar '.' (lib.lower (Text.strip text))
  match Text.dropPrefix? ['*', '.'] domain.toList with
  | some rest => String.ofList rest
  | none => domain

/-- `_as_domain_list`. -/
def asDomainList : Json → Except String (List String)
  | .null => pure defaultOperatorCoreDomains
  | .arr items => pure (dedupe ((items.map fun item => cleanDomain lib (lib.str item)).filter (· ≠ "")))
  | _ => .error "operator_core_domains must be a list"

/-- Whether an address is one of a web server. -/
def hasHttpHost (parsed : UrlParts) : Bool :=
  (parsed.scheme = "http" || parsed.scheme = "https") && parsed.hostname.getD "" ≠ ""

/-- `_http_origin`. -/
def httpOrigin (value : String) : Except String String := do
  let parsed ← lib.urlparse (Text.strip value)
  if hasHttpHost parsed then do
    let port ← parsed.port
    let port := port.getD (if parsed.scheme = "https" then 443 else 80)
    pure (parsed.scheme ++ "://" ++ lib.lower (parsed.hostname.getD "") ++ ":" ++ Text.decimal port)
  else pure ""

/-- `[_http_origin(url) for url in urls]`. -/
def httpOrigins : List String → Except String (List String)
  | [] => pure []
  | url :: rest => do
      let origin ← httpOrigin lib url
      let origins ← httpOrigins rest
      pure (origin :: origins)

/-- The name of an operator, which is numbered if it has none. -/
def operatorName (index : Nat) (name : Json) : String :=
  Text.strip (lib.str (name.orElse (.str ("operator-" ++ Text.decimal (index + 1)))))

/-- The address of an operator. -/
def operatorUrl (url : Json) : String :=
  Text.rstripChar '/' (Text.strip (lib.str (url.orElse (.str ""))))

/-- The checks of `normalize_operator_set` on mirrors or archives. -/
def checkUrls (minRootMirrors : Int) (kind name url : String) (urls : List String) : Except String Unit := do
  Check.require (minRootMirrors ≤ urls.length)
    (name ++ " has " ++ Text.decimal urls.length ++ " " ++ kind ++ "(s), needs " ++ Text.decimal minRootMirrors)
  let operatorOrigin ← httpOrigin lib url
  let origins ← httpOrigins lib urls
  Check.require (¬ (operatorOrigin ≠ "" ∧ operatorOrigin ∈ origins))
    (name ++ " " ++ kind ++ " must not share the operator append HTTP origin")

/-- A round of the loop of `normalize_operator_set`, but for the comparison with the operators before. -/
def normalizeOperator (minRootMirrors : Int) (index : Nat) (item : Json) : Except String OperatorRecord :=
  match item with
  | .obj members => do
      let name := operatorName lib index (Json.getD "name" .null members)
      let url := operatorUrl lib (Json.getD "url" .null members)
      let publicKey := Text.strip (lib.str ((Json.getD "public_key" .null members).orElse (.str "")))
      let mirrors ← asList lib (Json.getD "mirrors" .null members)
      let archives ← asList lib (Json.getD "proof_archives" .null members)
      Check.require (url ≠ "") (name ++ " is missing append url")
      Check.require (publicKey ≠ "") (name ++ " is missing public_key")
      checkUrls lib minRootMirrors "mirror" name url mirrors
      checkUrls lib minRootMirrors "proof archive" name url archives
      pure ⟨name, url, publicKey, mirrors, archives⟩
  | _ => .error ("operator " ++ Text.decimal index ++ " must be an object")

/-- Whether two operators share a name, an address or a key. -/
def SharesIdentity (a b : OperatorRecord) : Prop :=
  a.name = b.name ∨ a.url = b.url ∨ a.publicKey = b.publicKey

instance (a b : OperatorRecord) : Decidable (SharesIdentity a b) :=
  inferInstanceAs (Decidable (_ ∨ _ ∨ _))

/-- The loop of `normalize_operator_set`, with the operators before. -/
def normalizeOperators (minRootMirrors : Int) : List OperatorRecord → List Json → Except String (List OperatorRecord)
  | _, [] => pure []
  | seen, item :: rest => do
      let operator ← normalizeOperator lib minRootMirrors seen.length item
      Check.require (∀ other ∈ seen, ¬ SharesIdentity operator other)
        (operator.name ++ " duplicates another operator identity")
      let operators ← normalizeOperators minRootMirrors (seen ++ [operator]) rest
      pure (operator :: operators)

/-- The operators of a set, of which there must be one. -/
def operatorItems : Json → Except String (List Json)
  | .arr (item :: items) => pure (item :: items)
  | _ => .error "operator set must include at least one operator"

/-- `str(data.get("network") or "testnet")`. -/
def networkOf (members : List (String × Json)) : String :=
  lib.str ((Json.getD "network" .null members).orElse (.str "testnet"))

/-- `int(data.get("node_port") or DEFAULT_NODE_PORTS.get(network, 8888))`. -/
def nodePortOf (network : String) (members : List (String × Json)) : Except String Int :=
  ((Json.getD "node_port" .null members).orElse (.int (defaultNodePort network))).toInt

/-- `normalize_operator_set`. -/
def normalizeOperatorSet (data : Json) : Except String OperatorSet :=
  match data with
  | .obj members => do
      let operators ← operatorItems (Json.getD "operators" .null members)
      let minRootMirrors ← (Json.getD "min_root_mirrors" (.int 2) members).toInt
      let fanout ← (Json.getD "operator_append_fanout" (.int defaultOperatorAppendFanout) members).toInt
      let domains ← asDomainList lib (Json.getD "operator_core_domains" .null members)
      let normalized ← normalizeOperators lib minRootMirrors [] operators
      let network := networkOf lib members
      let nodePort ← nodePortOf network members
      pure ⟨network, nodePort, minRootMirrors, max 1 fanout, domains, normalized⟩
  | _ => .error "operator set must be a JSON object"

/-! ## What is read -/

variable {lib} {members : List (String × Json)} {data : Json} {set : OperatorSet} {min : Int} {index : Nat}
  {seen operators : List OperatorRecord} {items : List Json}

/-- The parts of a set that was read. -/
structure ReadAs (lib : TextLibrary) (members : List (String × Json)) (items : List Json) (fanout : Int)
    (set : OperatorSet) : Prop where
  listed : operatorItems (Json.getD "operators" .null members) = .ok items
  minRootMirrors : (Json.getD "min_root_mirrors" (.int 2) members).toInt = .ok set.minRootMirrors
  appendFanout : (Json.getD "operator_append_fanout" (.int defaultOperatorAppendFanout) members).toInt = .ok fanout
  operatorAppendFanout : set.operatorAppendFanout = max 1 fanout
  domains : asDomainList lib (Json.getD "operator_core_domains" .null members) = .ok set.operatorCoreDomains
  operators : normalizeOperators lib set.minRootMirrors [] items = .ok set.operators
  network : set.network = networkOf lib members
  nodePort : nodePortOf set.network members = .ok set.nodePort

theorem normalizeOperatorSet_obj :
    normalizeOperatorSet lib (.obj members) = .ok set ↔ ∃ items fanout, ReadAs lib members items fanout set := by
  constructor
  · intro h
    obtain ⟨items, hitems, h⟩ := Check.bind_eq_ok.1 h
    obtain ⟨minRootMirrors, hmin, h⟩ := Check.bind_eq_ok.1 h
    obtain ⟨fanout, hfanout, h⟩ := Check.bind_eq_ok.1 h
    obtain ⟨domains, hdomains, h⟩ := Check.bind_eq_ok.1 h
    obtain ⟨operators, hoperators, h⟩ := Check.bind_eq_ok.1 h
    obtain ⟨nodePort, hport, h⟩ := Check.bind_eq_ok.1 h
    cases h
    exact ⟨items, fanout, hitems, hmin, hfanout, rfl, hdomains, hoperators, rfl, hport⟩
  · rintro ⟨items, fanout, hitems, hmin, hfanout, hmax, hdomains, hoperators, hnetwork, hport⟩
    rw [normalizeOperatorSet, hitems, Check.ok_bind, hmin, Check.ok_bind, hfanout, Check.ok_bind, hdomains,
      Check.ok_bind, hoperators, Check.ok_bind]
    dsimp only
    rw [← hnetwork, hport, Check.ok_bind, ← hmax]
    rfl

theorem exists_obj_of_normalizeOperatorSet (h : normalizeOperatorSet lib data = .ok set) :
    ∃ members, data = .obj members := by
  cases data with
  | obj members => exact ⟨members, rfl⟩
  | null | bool | int | str | arr => cases h

/-- The operators of a list are read one after the other. -/
theorem normalizeOperators_append {more : List Json} :
    normalizeOperators lib min seen (items ++ more) = .ok operators ↔
      ∃ first last, normalizeOperators lib min seen items = .ok first ∧
        normalizeOperators lib min (seen ++ first) more = .ok last ∧ operators = first ++ last := by
  induction items generalizing seen operators with
  | nil =>
    simp only [List.nil_append, normalizeOperators, Check.pure_eq_ok]
    simp
  | cons item rest ih =>
    constructor
    · intro h
      obtain ⟨operator, hoperator, h⟩ := Check.bind_eq_ok.1 h
      obtain ⟨hnew, h⟩ := Check.check_bind_eq_ok.1 h
      obtain ⟨all, hall, h⟩ := Check.bind_eq_ok.1 h
      cases h
      obtain ⟨first, last, hfirst, hlast, rfl⟩ := ih.1 hall
      refine ⟨operator :: first, last, ?_, ?_, rfl⟩
      · rw [normalizeOperators, hoperator, Check.ok_bind, hnew, Check.ok_bind, hfirst]
        rfl
      · rwa [List.append_cons]
    · rintro ⟨_, last, h, hlast, rfl⟩
      obtain ⟨operator, hoperator, h⟩ := Check.bind_eq_ok.1 h
      obtain ⟨hnew, h⟩ := Check.check_bind_eq_ok.1 h
      obtain ⟨first, hfirst, h⟩ := Check.bind_eq_ok.1 h
      cases h
      rw [List.append_cons] at hlast
      rw [List.cons_append, normalizeOperators, hoperator, Check.ok_bind, hnew, Check.ok_bind,
        ih.2 ⟨first, last, hfirst, hlast, rfl⟩]
      rfl

theorem length_normalizeOperators (h : normalizeOperators lib min seen items = .ok operators) :
    operators.length = items.length := by
  induction items generalizing seen operators with
  | nil =>
    cases h
    rfl
  | cons item rest ih =>
    obtain ⟨operator, -, h⟩ := Check.bind_eq_ok.1 h
    obtain ⟨-, h⟩ := Check.check_bind_eq_ok.1 h
    obtain ⟨more, hmore, h⟩ := Check.bind_eq_ok.1 h
    cases h
    rw [List.length_cons, List.length_cons, ih hmore]

end OperatorSet
