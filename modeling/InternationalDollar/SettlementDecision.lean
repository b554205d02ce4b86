import InternationalDollar.SettlementQuery

set_option autoImplicit false

/-! # What the settlement peers decide

The responses of the settlement peers are taken in one after the other, in the order in which they arrive,
and each may bring messages that change the store. The loop stops at the first conflict that the store
reports; otherwise it counts what the peers said, and a count does not depend on the order. -/

namespace LocalStore

variable {store : LocalStore} {tokenId : String} {c : StatusContext}

/-- `decision["decision"]`. -/
inductive DecisionKind where
  | settle
  | await
  | conflict
deriving DecidableEq

/-- The kind of a decision, without its reason. -/
def Decision.kind : Decision → DecisionKind
  | .settle _ => .settle
  | .await _ => .await
  | .conflict _ => .conflict

/-- The response of a peer. -/
def PeerResult.response : PeerResult → Option SettlementResponse
  | .unanswered _ => none
  | .answered response _ _ => some response

/-- What a response counts as, unless the store reports a conflict. -/
def SettlementResponse.verdict (response : SettlementResponse) (tokenId : String) : Verdict :=
  if response.tokenId ≠ tokenId then .failure "wrong_token"
  else if response.conflict then .failure "unproved_conflict"
  else if response.matchesQuery then .confirmation
  else if response.localTransferHash ≠ "" then
    .divergent response.localTransferHash response.status
  else .failure response.status

/-- What came of asking a peer, unless the store reports a conflict. -/
def PeerResult.verdict (tokenId : String) : PeerResult → Verdict
  | .unanswered status => .failure status
  | .answered response _ _ => response.verdict tokenId

/-- The store after every response was taken in. -/
def takeIn (store : LocalStore) (tokenId : String) : List PeerResult → LocalStore
  | [] => store
  | .unanswered _ :: rest => store.takeIn tokenId rest
  | .answered response ingestion c :: rest =>
      (store.reconcilePeer ingestion c tokenId response).2.takeIn tokenId rest

/-- Whether the store reports a conflict of the token at one of the looks: after the messages of one of the
    responses, or at the end. -/
def reportsConflict (store : LocalStore) (tokenId : String) (c : StatusContext) :
    List PeerResult → Bool
  | [] => (store.localConflictStatus c tokenId).1
  | .unanswered _ :: rest => store.reportsConflict tokenId c rest
  | .answered response ingestion look :: rest =>
      (store.reconcilePeer ingestion look tokenId response).1 = .conflict ||
        (store.reconcilePeer ingestion look tokenId response).2.reportsConflict tokenId c rest

/-- What the loop counts when it takes in every response. -/
def tallyOf (tokenId : String) (results : List PeerResult) : Tally :=
  results.foldl (fun tally result => tally.count (result.verdict tokenId)) ⟨0, [], []⟩

/-! ## One response -/

theorem verdict_ne_conflict (response : SettlementResponse) (tokenId : String) :
    response.verdict tokenId ≠ .conflict := by
  unfold SettlementResponse.verdict
  split
  · simp
  split
  · simp
  split
  · simp
  split
  · simp
  · simp

/-- Without a conflict the verdict on a response does not depend on the store. -/
theorem reconcilePeer_cases (store : LocalStore) (ingestion : PeerMessage → Ingestion)
    (look : StatusContext) (tokenId : String) (response : SettlementResponse) :
    (store.reconcilePeer ingestion look tokenId response).1 = .conflict ∨
      (store.reconcilePeer ingestion look tokenId response).1 = response.verdict tokenId := by
  unfold reconcilePeer SettlementResponse.verdict
  split
  · exact Or.inr rfl
  · simp only
    split
    · exact Or.inl rfl
    · exact Or.inr rfl

/-! ## The loop -/

/-- The loop stops at a conflict, or it counts every response. -/
theorem countPeers_cases (store : LocalStore) (tokenId : String) (c : StatusContext) (tally : Tally)
    (results : List PeerResult) :
    ((store.countPeers tokenId tally results).1 = none ∧
        store.reportsConflict tokenId c results = true) ∨
      (store.countPeers tokenId tally results = (some (results.foldl
          (fun tally result => tally.count (result.verdict tokenId)) tally),
          store.takeIn tokenId results) ∧
        store.reportsConflict tokenId c results
          = ((store.takeIn tokenId results).localConflictStatus c tokenId).1) := by
  induction results generalizing store tally with
  | nil => exact Or.inr ⟨rfl, rfl⟩
  | cons result rest ih =>
    cases result with
    | unanswered status => exact ih store (tally.count (.failure status))
    | answered response ingestion look =>
      have hcases := reconcilePeer_cases store ingestion look tokenId response
      have hne := verdict_ne_conflict response tokenId
      have hverdict : (PeerResult.answered response ingestion look).verdict tokenId
        = response.verdict tokenId := rfl
      unfold countPeers reportsConflict takeIn
      rw [List.foldl_cons, hverdict]
      generalize store.reconcilePeer ingestion look tokenId response = turn at hcases ⊢
      generalize response.verdict tokenId = expected at hcases hne ⊢
      obtain ⟨verdict, store'⟩ := turn
      rcases hcases with rfl | rfl
      · exact Or.inl ⟨rfl, rfl⟩
      · have hrest := ih store' (tally.count verdict)
        cases verdict with
        | conflict => exact absurd rfl hne
        | confirmation | divergent hash status | failure status => simpa using hrest

theorem confirmations_foldl (tokenId : String) (results : List PeerResult) (tally : Tally) :
    (results.foldl (fun tally result => tally.count (result.verdict tokenId)) tally).confirmations
      = tally.confirmations
        + results.countP fun result => result.verdict tokenId = .confirmation := by
  induction results generalizing tally with
  | nil => rfl
  | cons result rest ih =>
    rw [List.foldl_cons, ih, List.countP_cons]
    cases hverdict : result.verdict tokenId with
    | confirmation =>
      simp only [Tally.count, decide_true, if_true]
      omega
    | conflict | divergent hash status | failure status => simp [Tally.count]

theorem divergent_foldl (tokenId : String) (results : List PeerResult) (tally : Tally) :
    (results.foldl (fun tally result => tally.count (result.verdict tokenId)) tally).divergent = [] ↔
      tally.divergent = [] ∧
        ∀ result ∈ results, ∀ hash status, result.verdict tokenId ≠ .divergent hash status := by
  induction results generalizing tally with
  | nil => simp
  | cons result rest ih =>
    rw [List.foldl_cons, ih, List.forall_mem_cons]
    cases hverdict : result.verdict tokenId with
    | divergent hash status => simp [Tally.count]
    | conflict | confirmation | failure status => simp [Tally.count]

/-! ## The decision -/

/-- With the quorum in force and peers to ask, the decision rests on the conflicts that the store reports
    and on what the loop counts. -/
theorem kind_reconcile {settings : SettlementSettings} (henabled : settings.enabled = true)
    (hpeers : ¬ (0 < settings.minConfirmations ∧ settings.peerCount = 0)) (query : SettlementQuery)
    (results : List PeerResult) :
    (store.reconcileV3SettlementCandidate settings query results c).1.kind =
      if store.reportsConflict query.tokenId c results then .conflict
      else if (tallyOf query.tokenId results).divergent = [] ∧
        settings.minConfirmations ≤ (tallyOf query.tokenId results).confirmations then .settle
      else .await := by
  have hdisabled : ¬ settings.enabled = false := by simp [henabled]
  unfold reconcileV3SettlementCandidate tallyOf
  rw [if_neg hdisabled, if_neg hpeers]
  rcases countPeers_cases store query.tokenId c ⟨0, [], []⟩ results with
    ⟨hnone, hreports⟩ | ⟨hsome, hreports⟩
  · generalize store.countPeers query.tokenId ⟨0, [], []⟩ results = turn at hnone ⊢
    obtain ⟨counted, store'⟩ := turn
    obtain rfl : counted = none := hnone
    rw [if_pos hreports]
    rfl
  · rw [hsome, hreports]
    simp only
    generalize (store.takeIn query.tokenId results).localConflictStatus c query.tokenId = look
    obtain ⟨conflict, store'⟩ := look
    generalize results.foldl _ _ = tally
    cases conflict with
    | true => rfl
    | false =>
      by_cases hdivergent : tally.divergent = []
      · by_cases hquorum : settings.minConfirmations ≤ tally.confirmations
        · simp [hdivergent, hquorum, Decision.kind]
        · simp only [hdivergent, hquorum, ne_eq, not_true_eq_false, if_false, and_false,
            Bool.false_eq_true]
          split <;> rfl
      · simp [hdivergent, Decision.kind]

theorem kind_of_no_peers {settings : SettlementSettings} (henabled : settings.enabled = true)
    (hpeers : 0 < settings.minConfirmations ∧ settings.peerCount = 0) (query : SettlementQuery)
    (results : List PeerResult) :
    (store.reconcileV3SettlementCandidate settings query results c).1.kind = .await := by
  have hdisabled : ¬ settings.enabled = false := by simp [henabled]
  unfold reconcileV3SettlementCandidate
  rw [if_neg hdisabled, if_pos hpeers]
  rfl

theorem verdict_eq_confirmation {result : PeerResult} :
    result.verdict tokenId = .confirmation ↔ ∃ response, result.response = some response ∧
      response.tokenId = tokenId ∧ response.conflict = false ∧ response.matchesQuery = true := by
  cases result with
  | unanswered status => simp [PeerResult.verdict, PeerResult.response]
  | answered response ingestion look =>
    simp only [PeerResult.verdict, PeerResult.response, SettlementResponse.verdict,
      Option.some.injEq, exists_eq_left']
    by_cases htoken : response.tokenId = tokenId
    · cases hconflict : response.conflict with
      | true => simp [htoken]
      | false =>
        cases hmatches : response.matchesQuery with
        | true => simp [htoken]
        | false =>
          simp only [htoken, ne_eq, not_true_eq_false, if_false, Bool.false_eq_true, and_false, iff_false]
          split <;> simp
    · simp [htoken]

theorem verdict_eq_divergent {result : PeerResult} {response : SettlementResponse}
    (hresponse : result.response = some response) (htoken : response.tokenId = tokenId)
    (hconflict : response.conflict = false) (hmatches : response.matchesQuery = false)
    (hhash : response.localTransferHash ≠ "") :
    result.verdict tokenId = .divergent response.localTransferHash response.status := by
  cases result with
  | unanswered status => cases hresponse
  | answered answer ingestion look =>
    obtain rfl : answer = response := Option.some.inj hresponse
    simp [PeerResult.verdict, SettlementResponse.verdict, htoken, hconflict, hmatches, hhash]

/-- Apart from failures a verdict depends on the response alone. -/
theorem verdict_congr {result result' : PeerResult} (h : result'.response = result.response)
    {verdict : Verdict} (hverdict : ∀ status, verdict ≠ .failure status) :
    result'.verdict tokenId = verdict ↔ result.verdict tokenId = verdict := by
  cases result with
  | unanswered status =>
    cases result' with
    | unanswered status' =>
      exact iff_of_false (fun heq => hverdict _ heq.symm) (fun heq => hverdict _ heq.symm)
    | answered response' ingestion' look' => cases h
  | answered response ingestion look =>
    cases result' with
    | unanswered status' => cases h
    | answered response' ingestion' look' =>
      obtain rfl : response' = response := Option.some.inj h
      rfl

theorem confirmations_tallyOf (results : List PeerResult) : (tallyOf tokenId results).confirmations
    = results.countP fun result => result.verdict tokenId = .confirmation := by
  rw [tallyOf, confirmations_foldl, Nat.zero_add]

theorem divergent_tallyOf (results : List PeerResult) : (tallyOf tokenId results).divergent = [] ↔
    ∀ result ∈ results, ∀ hash status, result.verdict tokenId ≠ .divergent hash status := by
  rw [tallyOf, divergent_foldl]
  exact and_iff_right rfl

/-- Where the store reports no conflict at any look, it reports none at the last. -/
theorem localConflictStatus_takeIn {results : List PeerResult}
    (h : store.reportsConflict tokenId c results = false) :
    ((store.takeIn tokenId results).localConflictStatus c tokenId).1 = false := by
  rcases countPeers_cases store tokenId c ⟨0, [], []⟩ results with ⟨-, hreports⟩ | ⟨-, hreports⟩
  · cases h.symm.trans hreports
  · exact hreports.symm.trans h

/-- A query for a token. -/
def sampleSettlementQuery : SettlementQuery :=
  ⟨"a", "1x1", "bill", "tip", "previous", 1, "key", "log", "operator"⟩

/-- A look at the store. -/
def sampleLook : StatusContext :=
  ⟨⟨fun _ _ => true, fun _ => true, ConflictProof.proofHash, fun _ => []⟩, 0, none, none⟩

/-- A peer that claims to match the query and shows a tip. -/
def sampleAnswer (localTransferHash : String) : PeerResult :=
  .answered ⟨"a", "1x1", "verified", "", some 1, localTransferHash, true, false, "", []⟩
    (fun _ => ⟨sampleLook.verification, 0, [], false, none⟩) sampleLook

/-- One peer, whose confirmation is needed. -/
def sampleSettings : SettlementSettings :=
  ⟨true, 1, 1, false⟩

theorem kind_sampleAnswer (localTransferHash : String) :
    ((initial true 0 false).reconcileV3SettlementCandidate sampleSettings sampleSettlementQuery
      [sampleAnswer localTransferHash] sampleLook).1.kind = .settle := by
  rfl

end LocalStore
