import InternationalDollar.Lib.Text
import Mathlib.Data.List.Sort

set_option autoImplicit false

/-! # Fan-out of an append to several operators (`transparency_client.MultiTransparencySubmitter`)

A node hands every transfer announcement to a few of its configured transparency operators. Which
ones is decided per announcement: operators under a core domain come first, the others follow in
an order given by a hash of the announcement. An inactive core operator uses up a place of the
fan-out, an inactive other operator is passed over and replaced by the next.

The loop is modelled over an arbitrary world `W` that the operators' answers depend on and change,
so that one definition serves a single answer and a whole network of operators. -/

/-! ## Configuration -/

def DEFAULT_OPERATOR_APPEND_FANOUT : Int := 5

def MAX_OPERATOR_APPEND_FANOUT : Int := 50

def DEFAULT_OPERATOR_CORE_DOMAINS : List String :=
  ["international-dollar.com", "internetofthebots.com"]

/-- One configured operator: the identity `operator_identity` finds for it, the address its
    client talks to and the label of its client class. -/
structure Operator where
  logId : String
  operatorPublicKey : String
  url : String
  sourceLabel : String
deriving DecidableEq

/-- `_clamp_operator_append_fanout`; `none` is a value that is no integer. -/
def clampOperatorAppendFanout (value : Option Int) : Nat :=
  (max 1 (min MAX_OPERATOR_APPEND_FANOUT (value.getD DEFAULT_OPERATOR_APPEND_FANOUT))).toNat

/-- One entry of the core-domain list, reduced to its host name. -/
def normalizeCoreDomain (domain : String) : String :=
  let value := Text.lower (Text.strip domain)
  let value := if (Text.after? "://".toList value.toList).isSome then Text.urlHostname value else value
  let host := (value.toList.takeWhile (fun c => c ≠ '/')).takeWhile (fun c => c ≠ ':')
  let host := Text.trim (fun c => c = '.') host
  String.ofList ((Text.dropPrefix? "*.".toList host).getD host)

/-- `_normalize_operator_core_domains`: first occurrences, empty entries left out. -/
def normalizeOperatorCoreDomains (domains : List String) : List String :=
  ((domains.map normalizeCoreDomain).filter (fun d => d ≠ "")).reverse.dedup.reverse

/-- Strip, lower and drop final dots, as `_hostname_matches_domain` does with both its texts. -/
def canonicalHostname (host : String) : List Char :=
  ((Text.lower (Text.strip host)).toList.reverse.dropWhile (fun c => c = '.')).reverse

/-- `_hostname_matches_domain`: equal, or a subdomain. -/
def hostnameMatchesDomain (hostname domain : String) : Bool :=
  let hostname := canonicalHostname hostname
  let domain := canonicalHostname domain
  !hostname.isEmpty && !domain.isEmpty &&
    (hostname = domain || (Text.dropPrefix? ('.' :: domain).reverse hostname.reverse).isSome)

/-- `_operator_matches_core_domain`. -/
def operatorMatchesCoreDomain (operator : Operator) (coreDomains : List String) : Bool :=
  coreDomains.any (hostnameMatchesDomain (Text.urlHostname operator.url))

/-- `MultiTransparencySubmitter.__init__`: what the constructor keeps. -/
structure MultiTransparencySubmitter where
  operators : List Operator
  appendFanout : Nat
  coreDomains : List String

/-- `MultiTransparencySubmitter(operators, append_fanout=…, core_domains=…)`. -/
def multiTransparencySubmitter (operators : List Operator) (appendFanout : Option Int)
    (coreDomains : List String) : MultiTransparencySubmitter where
  operators := operators
  appendFanout := clampOperatorAppendFanout appendFanout
  coreDomains := normalizeOperatorCoreDomains
    (if coreDomains.isEmpty then DEFAULT_OPERATOR_CORE_DOMAINS else coreDomains)

/-! ## Candidates -/

/-- `_operator_selection_key`: the place of an operator in the rotation for the announcement whose
    canonical text is `seed`. -/
def operatorSelectionKey (sha3 : Bytes → Bytes) (seed : String) (operator : Operator) : String :=
  let label :=
    if operator.logId ≠ "" then operator.logId
    else if operator.operatorPublicKey ≠ "" then operator.operatorPublicKey
    else if operator.url ≠ "" then operator.url
    else operator.sourceLabel
  Text.hex (sha3 (Text.utf8 (seed ++ "\n" ++ label)))

namespace MultiTransparencySubmitter

variable (sub : MultiTransparencySubmitter)

/-- Whether an operator is pinned into the append pool. -/
def isCore (operator : Operator) : Bool :=
  operatorMatchesCoreDomain operator sub.coreDomains

/-- `_append_operator_candidates`. -/
def appendOperatorCandidates (sha3 : Bytes → Bytes) (seed : String) : List Operator :=
  if sub.operators.length ≤ sub.appendFanout then sub.operators
  else
    sub.operators.filter sub.isCore ++
      (sub.operators.filter (fun o => !sub.isCore o)).insertionSort
        (fun a b => operatorSelectionKey sha3 seed a ≤ operatorSelectionKey sha3 seed b)

/-- `operator_append_target_count`. -/
def operatorAppendTargetCount : Nat :=
  min sub.appendFanout sub.operators.length

end MultiTransparencySubmitter

/-! ## The append loop -/

/-- What an operator's status endpoint does when it is asked before an append. -/
inductive StatusAnswer where
  | noMethod
  | raises (error : String)
  | reports (state : Option String)

/-- `str(status.get("state", "active")).strip().lower()`. -/
def statusState (state : Option String) : String :=
  Text.lower (Text.strip (state.getD "active"))

/-- The operators as a node meets them during one append: their status, and the effect and answer
    of an append request in a world `W`. `accepted` reads the flag of a response. -/
structure Endpoints (W R : Type) where
  status : Operator → StatusAnswer
  submit : Operator → W → Except String R × W
  accepted : R → Bool

/-- The record `submit_transfer_announcement_to_all` keeps for one operator. -/
structure SubmitResult (R : Type) where
  logId : String
  operatorPublicKey : String
  accepted : Bool
  response : Option R
  error : String

/-- What the loop does with a candidate once its status is known. -/
inductive Attempt where
  | skip
  | fail (error : String)
  | call

variable {W R : Type}

/-- An inactive operator outside the core domains is skipped, one inside them fails. -/
def Endpoints.attempt (env : Endpoints W R) (isCore : Operator → Bool) (operator : Operator) :
    Attempt :=
  match env.status operator with
  | .noMethod => .call
  | .raises error => .fail error
  | .reports state =>
      if statusState state = "active" then .call
      else if isCore operator then
        .fail ("operator is " ++
          if statusState state = "" then "not active" else statusState state)
      else .skip

/-- The record of a request that raised. -/
def failedResult (operator : Operator) (error : String) : SubmitResult R where
  logId := operator.logId
  operatorPublicKey := operator.operatorPublicKey
  accepted := false
  response := none
  error := error

/-- The record of an answered or failed append request. -/
def Endpoints.resultOf (env : Endpoints W R) (operator : Operator) :
    Except String R → SubmitResult R
  | .ok response =>
      { logId := operator.logId
        operatorPublicKey := operator.operatorPublicKey
        accepted := env.accepted response
        response := some response
        error := "" }
  | .error error => failedResult operator error

/-- The loop over the candidates; `selected` counts the places that are used up. -/
def submitLoop (env : Endpoints W R) (isCore : Operator → Bool) (limit : Nat) :
    List Operator → Nat → W → List (SubmitResult R) × W
  | [], _, w => ([], w)
  | operator :: rest, selected, w =>
      if limit ≤ selected then ([], w)
      else
        match env.attempt isCore operator with
        | .skip => submitLoop env isCore limit rest selected w
        | .fail error =>
            let tail := submitLoop env isCore limit rest (selected + 1) w
            (failedResult operator error :: tail.1, tail.2)
        | .call =>
            let answer := env.submit operator w
            let tail := submitLoop env isCore limit rest (selected + 1) answer.2
            (env.resultOf operator answer.1 :: tail.1, tail.2)

/-- `submit_transfer_announcement_to_all`. -/
def MultiTransparencySubmitter.submitTransferAnnouncementToAll (sub : MultiTransparencySubmitter)
    (sha3 : Bytes → Bytes) (env : Endpoints W R) (seed : String) (w : W) :
    List (SubmitResult R) × W :=
  submitLoop env sub.isCore sub.operatorAppendTargetCount
    (sub.appendOperatorCandidates sha3 seed) 0 w
