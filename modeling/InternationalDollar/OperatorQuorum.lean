import InternationalDollar.Submitter
import Mathlib.Data.Finset.Card
import Mathlib.Data.Finset.Dedup

set_option autoImplicit false

/-! # Operator finality over honest operators (`store.INDLocalStore`, finality policy)

A node calls a transfer final once enough distinct operators prove it. The threshold is set by
`operator_finality_min_proofs`, or derived from the number of operators an append is sent to. This
file states what that threshold buys when every operator is honest, that is keeps at most one
transfer for a spend key: **two conflicting transfers cannot both become final exactly when twice
the threshold exceeds the number of distinct operators a submission can reach**.

The network is a map from log ids to the claims each honest operator holds (`Ledgers`); a
submission is one run of the append loop against it, under an arbitrary pattern of statuses and
failures. Submissions by different nodes are just further submissions. -/

/-! ## The policy -/

/-- The settings of `INDLocalStore` that decide operator finality. -/
structure FinalitySettings where
  requireTransparency : Bool
  submitter : Option MultiTransparencySubmitter
  operatorFinalityMinProofs : Int

namespace FinalitySettings

variable (cfg : FinalitySettings)

/-- `_append_operator_target_count_v3`. -/
def appendOperatorTargetCountV3 : Int :=
  match cfg.submitter with
  | none => 0
  | some sub => sub.operatorAppendTargetCount

/-- `_validate_operator_finality_policy_v3`. -/
def validateOperatorFinalityPolicyV3 : Except String Unit :=
  if !cfg.requireTransparency then .ok ()
  else
    let operatorCount := cfg.appendOperatorTargetCountV3
    let configured := cfg.operatorFinalityMinProofs
    if operatorCount > 0 ∧ configured ≠ 0 ∧ configured > operatorCount then
      .error ("IND_OPERATOR_FINALITY_MIN_PROOFS must not exceed the selected " ++
        "append-capable operator fanout; use 0 to derive the threshold")
    else .ok ()

/-- `_operator_finality_required_proofs_v3`. -/
def operatorFinalityRequiredProofsV3 : Int :=
  let configured := cfg.operatorFinalityMinProofs
  if configured > 0 then configured
  else
    let operatorCount := cfg.appendOperatorTargetCountV3
    if operatorCount ≤ 0 then 1 else operatorCount / 2 + 1

end FinalitySettings

/-- A finality policy that the store's constructor accepted. -/
structure FinalityPolicy extends FinalitySettings where
  valid : toFinalitySettings.validateOperatorFinalityPolicyV3 = .ok ()

/-! ## Honest operators -/

/-- A transfer announcement as the operators see it: its canonical text, and spend key and hash of
    the transfer it announces. -/
structure AnnouncedTransfer where
  seed : String
  spendKey : String
  transferHash : String

/-- The honest operators: for each log the one transfer it holds for a spend key, and the appends
    that were requested from it. -/
structure Ledgers where
  claims : String → String → Option String
  asked : List (String × AnnouncedTransfer)

/-- No operator holds or was asked anything. -/
def Ledgers.empty : Ledgers where
  claims := fun _ _ => none
  asked := []

/-- What becomes of an append request: it is processed and answered, processed while the answer is
    lost, or never arrives. -/
inductive Delivery where
  | answered
  | answerLost
  | lost

/-- One call of `submit_transfer_announcement_to_all`: the announcement, and how every operator
    behaves while the call runs. -/
structure Submission where
  announcement : AnnouncedTransfer
  status : Operator → StatusAnswer
  delivery : Operator → Delivery

/-- Record that an append was requested. -/
def Ledgers.request (w : Ledgers) (operator : Operator) (a : AnnouncedTransfer) : Ledgers :=
  { w with asked := (operator.logId, a) :: w.asked }

/-- The claims after an honest operator processed an append: the first transfer stays. -/
def Ledgers.record (w : Ledgers) (operator : Operator) (a : AnnouncedTransfer) : Ledgers :=
  { w with
    claims := fun o k =>
      if o = operator.logId ∧ k = a.spendKey then
        some ((w.claims operator.logId a.spendKey).getD a.transferHash)
      else w.claims o k }

/-- An honest operator accepts an append unless it holds another transfer for the spend key. -/
def honestSubmit (s : Submission) (operator : Operator) (w : Ledgers) :
    Except String Bool × Ledgers :=
  let w := w.request operator s.announcement
  match s.delivery operator with
  | .lost => (.error "unreachable", w)
  | .answerLost => (.error "timed out", w.record operator s.announcement)
  | .answered =>
      let w' := w.record operator s.announcement
      if w'.claims operator.logId s.announcement.spendKey = some s.announcement.transferHash then
        (.ok true, w')
      else (.error "conflicting spend is rejected", w')

/-- The honest operators as the endpoints of one submission. -/
def Submission.endpoints (s : Submission) : Endpoints Ledgers Bool where
  status := s.status
  submit := honestSubmit s
  accepted := id

namespace FinalitySettings

variable (sha3 : Bytes → Bytes) (cfg : FinalitySettings)

/-- The ledgers after one submission. -/
def submit (w : Ledgers) (s : Submission) : Ledgers :=
  match cfg.submitter with
  | none => w
  | some sub => (sub.submitTransferAnnouncementToAll sha3 s.endpoints s.announcement.seed w).2

/-- The ledgers after a run of submissions, oldest first. -/
def run (submissions : List Submission) : Ledgers :=
  submissions.foldl (submit sha3 cfg) Ledgers.empty

/-- The log ids of the configured operators. -/
def logIds : Finset String :=
  match cfg.submitter with
  | none => ∅
  | some sub => (sub.operators.map Operator.logId).toFinset

/-- The operators that were asked for the transfer `hash` of `key` and can prove it. -/
def logProofs (w : Ledgers) (key hash : String) : Finset String :=
  cfg.logIds.filter (fun o =>
    (w.asked.any (fun r => r.1 = o ∧ r.2.spendKey = key ∧ r.2.transferHash = hash)) ∧
      w.claims o key = some hash)

/-- At some point of the run enough distinct operators prove the transfer. -/
def ReachesFinality (submissions : List Submission) (key hash : String) : Prop :=
  ∃ pre, pre <+: submissions ∧
    cfg.operatorFinalityRequiredProofsV3 ≤ (cfg.logProofs (run sha3 cfg pre) key hash).card

/-- No two conflicting transfers become final in any run. -/
def QuorumsIntersect : Prop :=
  ∀ (submissions : List Submission) (key hash hash' : String), hash ≠ hash' →
    ¬ (ReachesFinality sha3 cfg submissions key hash ∧
      ReachesFinality sha3 cfg submissions key hash')

/-- The operators that some submission can reach: all of them, unless the core operators alone
    fill the fan-out. -/
def reachable : Finset String :=
  match cfg.submitter with
  | none => ∅
  | some sub =>
      let core := sub.operators.filter sub.isCore
      if sub.operators.length ≤ sub.appendFanout ∨ core.length < sub.appendFanout then
        (sub.operators.map Operator.logId).toFinset
      else ((core.take sub.appendFanout).map Operator.logId).toFinset

end FinalitySettings

/-! ## The append loop -/

section Loop

variable {W R : Type} (env : Endpoints W R) (isCore : Operator → Bool) (limit : Nat)

/-- What every request that the loop makes preserves, the loop preserves. -/
theorem submitLoop_preserves (P : W → Prop) (ops : List Operator)
    (h : ∀ op ∈ ops, env.attempt isCore op = .call → ∀ w, P w → P (env.submit op w).2)
    (selected : Nat) (w : W) (hw : P w) : P (submitLoop env isCore limit ops selected w).2 := by
  induction ops generalizing selected w with
  | nil => exact hw
  | cons op rest ih =>
    have hrest := fun op' hop' => h op' (List.mem_cons_of_mem op hop')
    rw [submitLoop]
    split
    · exact hw
    · split
      · exact ih hrest selected w hw
      · exact ih hrest (selected + 1) w hw
      · next hcall => exact ih hrest (selected + 1) _ (h op List.mem_cons_self hcall w hw)

/-- Core operators use up their places whatever their status: behind enough of them the loop
    reaches nobody. -/
theorem submitLoop_append_core (core rest : List Operator) (hcore : ∀ op ∈ core, isCore op = true)
    (selected : Nat) (hlimit : limit ≤ selected + core.length) (w : W) :
    submitLoop env isCore limit (core ++ rest) selected w
      = submitLoop env isCore limit core selected w := by
  induction core generalizing selected w with
  | nil =>
    cases rest with
    | nil => rfl
    | cons op rest =>
      have hl : limit ≤ selected := by simpa using hlimit
      simp only [List.nil_append, submitLoop, if_pos hl]
  | cons op core ih =>
    have hop : isCore op = true := hcore op List.mem_cons_self
    have hskip : env.attempt isCore op ≠ .skip := by
      rw [Endpoints.attempt]
      split
      · simp
      · simp
      · split
        · simp
        · simp
    have ih' := fun w => ih (fun op' hop' => hcore op' (List.mem_cons_of_mem op hop'))
      (selected + 1) (by rw [List.length_cons] at hlimit; omega) w
    rw [List.cons_append, submitLoop, submitLoop]
    split
    · rfl
    · split
      · next h => exact absurd h hskip
      · simp only [ih']
      · simp only [ih']

end Loop

/-! ## What a submission does to honest ledgers -/

theorem Ledgers.record_claims_self (w : Ledgers) (op : Operator) (a : AnnouncedTransfer) :
    (w.record op a).claims op.logId a.spendKey
      = some ((w.claims op.logId a.spendKey).getD a.transferHash) := by
  simp [Ledgers.record]

/-- A recorded claim never changes. -/
theorem Ledgers.record_claims_of_some {w : Ledgers} {o k h : String} (op : Operator)
    (a : AnnouncedTransfer) (hc : w.claims o k = some h) : (w.record op a).claims o k = some h := by
  simp only [Ledgers.record]
  split
  · next hk =>
    obtain ⟨rfl, rfl⟩ := hk
    rw [hc]
    rfl
  · exact hc

theorem Ledgers.record_claims_of_ne {o : String} (w : Ledgers) (op : Operator)
    (a : AnnouncedTransfer) (h : o ≠ op.logId) (k : String) :
    (w.record op a).claims o k = w.claims o k := by
  simp [Ledgers.record, h]

/-- The ledgers after an honest operator was asked are those with the request noted, and possibly
    with the transfer recorded. -/
theorem honestSubmit_eq (s : Submission) (op : Operator) (w : Ledgers) :
    (honestSubmit s op w).2 = w.request op s.announcement ∨
      (honestSubmit s op w).2 = (w.request op s.announcement).record op s.announcement := by
  simp only [honestSubmit]
  split
  · exact Or.inl rfl
  · exact Or.inr rfl
  · split
    · exact Or.inr rfl
    · exact Or.inr rfl

/-- Ledgers only grow: claims stay and requests are kept. -/
structure Ledgers.Le (w w' : Ledgers) : Prop where
  claims : ∀ o k h, w.claims o k = some h → w'.claims o k = some h
  asked : ∀ r ∈ w.asked, r ∈ w'.asked

theorem Ledgers.Le.refl (w : Ledgers) : w.Le w :=
  ⟨fun _ _ _ h => h, fun _ h => h⟩

theorem Ledgers.Le.trans {w w' w'' : Ledgers} (h : w.Le w') (h' : w'.Le w'') : w.Le w'' :=
  ⟨fun o k x hx => h'.claims o k x (h.claims o k x hx), fun r hr => h'.asked r (h.asked r hr)⟩

theorem honestSubmit_le (s : Submission) (op : Operator) (w : Ledgers) :
    w.Le (honestSubmit s op w).2 := by
  rcases honestSubmit_eq s op w with h | h
  · rw [h]
    exact ⟨fun _ _ _ hc => hc, fun r hr => List.mem_cons_of_mem _ hr⟩
  · rw [h]
    exact ⟨fun o k x hc => Ledgers.record_claims_of_some op _ hc,
      fun r hr => List.mem_cons_of_mem _ hr⟩

theorem honestSubmit_asked (s : Submission) (op : Operator) (w : Ledgers) :
    (honestSubmit s op w).2.asked = (op.logId, s.announcement) :: w.asked := by
  rcases honestSubmit_eq s op w with h | h
  · rw [h]; rfl
  · rw [h]; rfl

namespace FinalitySettings

variable (sha3 : Bytes → Bytes) (cfg : FinalitySettings)

/-- The operators that a submission may ask: a list whose log ids are all reachable. -/
theorem submit_eq_submitLoop (sub : MultiTransparencySubmitter) (hsub : cfg.submitter = some sub)
    (s : Submission) (w : Ledgers) :
    ∃ ops, (∀ op ∈ ops, op.logId ∈ cfg.reachable) ∧
      submit sha3 cfg w s
        = (submitLoop s.endpoints sub.isCore sub.operatorAppendTargetCount ops 0 w).2 := by
  simp only [submit, hsub, MultiTransparencySubmitter.submitTransferAnnouncementToAll]
  by_cases hall : sub.operators.length ≤ sub.appendFanout ∨
      (sub.operators.filter sub.isCore).length < sub.appendFanout
  · refine ⟨sub.appendOperatorCandidates sha3 s.announcement.seed, fun op hop => ?_, rfl⟩
    have hmem : op ∈ sub.operators := by
      rw [MultiTransparencySubmitter.appendOperatorCandidates] at hop
      split at hop
      · exact hop
      · rw [List.mem_append, List.mem_insertionSort, List.mem_filter, List.mem_filter] at hop
        rcases hop with hop | hop
        · exact hop.1
        · exact hop.1
    simp only [reachable, hsub, if_pos hall, List.mem_toFinset, List.mem_map]
    exact ⟨op, hmem, rfl⟩
  · obtain ⟨hlen, hcore⟩ := not_or.1 hall
    refine ⟨(sub.operators.filter sub.isCore).take sub.appendFanout, fun op hop => ?_, ?_⟩
    · simp only [reachable, hsub, if_neg hall, List.mem_toFinset, List.mem_map]
      exact ⟨op, hop, rfl⟩
    · have hcut := List.take_append_drop sub.appendFanout (sub.operators.filter sub.isCore)
      rw [MultiTransparencySubmitter.appendOperatorCandidates, if_neg hlen, ← hcut,
        List.append_assoc, hcut]
      refine congrArg Prod.snd (submitLoop_append_core _ _ _ _ _ (fun op hop => ?_) 0 ?_ w)
      · exact (List.mem_filter.1 (List.mem_of_mem_take hop)).2
      · rw [MultiTransparencySubmitter.operatorAppendTargetCount, List.length_take]
        omega

theorem submit_le (w : Ledgers) (s : Submission) : w.Le (submit sha3 cfg w s) := by
  cases hsub : cfg.submitter with
  | none =>
    simp only [submit, hsub]
    exact Ledgers.Le.refl w
  | some sub =>
    obtain ⟨ops, -, h⟩ := submit_eq_submitLoop sha3 cfg sub hsub s w
    rw [h]
    exact submitLoop_preserves _ _ _ (fun w' => w.Le w') ops
      (fun op _ _ w' hw' => hw'.trans (honestSubmit_le s op w')) 0 w (Ledgers.Le.refl w)

/-- Only reachable operators are ever asked. -/
theorem submit_asked_reachable (w : Ledgers) (s : Submission)
    (hw : ∀ r ∈ w.asked, r.1 ∈ cfg.reachable) :
    ∀ r ∈ (submit sha3 cfg w s).asked, r.1 ∈ cfg.reachable := by
  cases hsub : cfg.submitter with
  | none =>
    simp only [submit, hsub]
    exact hw
  | some sub =>
    obtain ⟨ops, hops, h⟩ := submit_eq_submitLoop sha3 cfg sub hsub s w
    rw [h]
    refine submitLoop_preserves _ _ _ (fun w' => ∀ r ∈ w'.asked, r.1 ∈ cfg.reachable) ops
      (fun op hop _ w' hw' r hr => ?_) 0 w hw
    change r ∈ (honestSubmit s op w').2.asked at hr
    rw [honestSubmit_asked] at hr
    rcases List.mem_cons.1 hr with rfl | hr
    · exact hops op hop
    · exact hw' r hr

/-! ## Whole runs -/

theorem run_append (pre post : List Submission) :
    run sha3 cfg (pre ++ post) = post.foldl (submit sha3 cfg) (run sha3 cfg pre) :=
  List.foldl_append

theorem foldl_submit_le (submissions : List Submission) (w : Ledgers) :
    w.Le (submissions.foldl (submit sha3 cfg) w) := by
  induction submissions generalizing w with
  | nil => exact Ledgers.Le.refl w
  | cons s rest ih => exact (submit_le sha3 cfg w s).trans (ih _)

theorem run_asked_reachable (submissions : List Submission) :
    ∀ r ∈ (run sha3 cfg submissions).asked, r.1 ∈ cfg.reachable := by
  induction submissions using List.reverseRecOn with
  | nil => simp [run, Ledgers.empty]
  | append_singleton pre s ih =>
    rw [run_append]
    exact submit_asked_reachable sha3 cfg _ s ih

theorem mem_logProofs {w : Ledgers} {o key hash : String} :
    o ∈ cfg.logProofs w key hash ↔ o ∈ cfg.logIds ∧
      (∃ r ∈ w.asked, r.1 = o ∧ r.2.spendKey = key ∧ r.2.transferHash = hash) ∧
      w.claims o key = some hash := by
  simp only [logProofs, Finset.mem_filter, List.any_eq_true, decide_eq_true_eq]

theorem logProofs_mono {w w' : Ledgers} (h : w.Le w') (key hash : String) :
    cfg.logProofs w key hash ⊆ cfg.logProofs w' key hash := by
  intro o ho
  obtain ⟨hid, ⟨r, hr, heq⟩, hc⟩ := (mem_logProofs cfg).1 ho
  exact (mem_logProofs cfg).2 ⟨hid, ⟨r, h.asked r hr, heq⟩, h.claims _ _ _ hc⟩

/-- Finality reached on the way is still reached at the end. -/
theorem ReachesFinality.at_end {submissions : List Submission} {key hash : String}
    (h : ReachesFinality sha3 cfg submissions key hash) :
    cfg.operatorFinalityRequiredProofsV3
      ≤ (cfg.logProofs (run sha3 cfg submissions) key hash).card := by
  obtain ⟨pre, ⟨post, rfl⟩, hcard⟩ := h
  rw [run_append]
  have hmono := Finset.card_le_card
    (logProofs_mono cfg (foldl_submit_le sha3 cfg post (run sha3 cfg pre)) key hash)
  omega

/-- Honest operators that prove one of two conflicting transfers do not prove the other. -/
theorem disjoint_logProofs (w : Ledgers) (key : String) {hash hash' : String} (hne : hash ≠ hash') :
    Disjoint (cfg.logProofs w key hash) (cfg.logProofs w key hash') := by
  rw [Finset.disjoint_left]
  intro o ho ho'
  have h := ((mem_logProofs cfg).1 ho).2.2
  have h' := ((mem_logProofs cfg).1 ho').2.2
  exact hne (Option.some.inj (h.symm.trans h'))

theorem logProofs_subset_reachable (submissions : List Submission) (key hash : String) :
    cfg.logProofs (run sha3 cfg submissions) key hash ⊆ cfg.reachable := by
  intro o ho
  obtain ⟨-, ⟨r, hr, heq, -⟩, -⟩ := (mem_logProofs cfg).1 ho
  rw [← heq]
  exact run_asked_reachable sha3 cfg submissions r hr

/-- Two thresholds that do not fit beside each other into the reachable operators intersect. -/
theorem quorumsIntersect_of_lt
    (h : (cfg.reachable.card : Int) < 2 * cfg.operatorFinalityRequiredProofsV3) :
    QuorumsIntersect sha3 cfg := by
  rintro submissions key hash hash' hne ⟨h1, h2⟩
  have hc1 := h1.at_end
  have hc2 := h2.at_end
  have hunion := Finset.card_union_of_disjoint
    (disjoint_logProofs cfg (run sha3 cfg submissions) key hne)
  have hsub := Finset.card_le_card (Finset.union_subset
    (logProofs_subset_reachable sha3 cfg submissions key hash)
    (logProofs_subset_reachable sha3 cfg submissions key hash'))
  omega

end FinalitySettings

/-! ## A run in which two conflicting transfers become final -/

/-- A submission during which the operators of one log are the only active ones. -/
def onlyActive (a : AnnouncedTransfer) (o : String) : Submission where
  announcement := a
  status := fun op => .reports (some (if op.logId = o then "active" else "recovering"))
  delivery := fun _ => .answered

theorem attempt_onlyActive_self {a : AnnouncedTransfer} {op : Operator} {o : String}
    (isCore : Operator → Bool) (h : op.logId = o) :
    (onlyActive a o).endpoints.attempt isCore op = .call := by
  have hs : statusState (some "active") = "active" := by decide +kernel
  simp [Endpoints.attempt, Submission.endpoints, onlyActive, h, hs]

theorem attempt_onlyActive_ne {a : AnnouncedTransfer} {op : Operator} {o : String}
    (isCore : Operator → Bool) (h : op.logId ≠ o) :
    (onlyActive a o).endpoints.attempt isCore op
      = if isCore op then .fail "operator is recovering" else .skip := by
  have hs : statusState (some "recovering") = "recovering" := by decide +kernel
  simp [Endpoints.attempt, Submission.endpoints, onlyActive, h, hs]

/-- The transfer is held and provable at one operator. -/
def Provable (w : Ledgers) (a : AnnouncedTransfer) (o : String) : Prop :=
  (∃ r ∈ w.asked, r.1 = o ∧ r.2.spendKey = a.spendKey ∧ r.2.transferHash = a.transferHash) ∧
    w.claims o a.spendKey = some a.transferHash

theorem Provable.of_le {w w' : Ledgers} {a : AnnouncedTransfer} {o : String} (h : Provable w a o)
    (hle : w.Le w') : Provable w' a o := by
  obtain ⟨⟨r, hr, heq⟩, hc⟩ := h
  exact ⟨⟨r, hle.asked r hr, heq⟩, hle.claims _ _ _ hc⟩

theorem provable_honestSubmit (w : Ledgers) (a : AnnouncedTransfer) (op : Operator)
    (hfree : (w.claims op.logId a.spendKey).getD a.transferHash = a.transferHash) :
    Provable (honestSubmit (onlyActive a op.logId) op w).2 a op.logId := by
  have hclaim : ((w.request op a).record op a).claims op.logId a.spendKey = some a.transferHash := by
    rw [Ledgers.record_claims_self, Ledgers.request, hfree]
  have heq : (honestSubmit (onlyActive a op.logId) op w).2 = (w.request op a).record op a := by
    simp only [honestSubmit, onlyActive, hclaim, if_true]
  rw [heq]
  exact ⟨⟨_, List.mem_cons_self, rfl, rfl, rfl⟩, hclaim⟩

/-- The loop finds the only active operator as long as the core operators before it leave a
    place. -/
theorem provable_submitLoop {a : AnnouncedTransfer} {o : String} (isCore : Operator → Bool)
    (limit : Nat) (ops : List Operator) (hmem : o ∈ ops.map Operator.logId) (selected : Nat)
    (hroom : selected + (ops.takeWhile (fun op => op.logId ≠ o)).countP isCore < limit)
    (w : Ledgers) (hfree : (w.claims o a.spendKey).getD a.transferHash = a.transferHash) :
    Provable (submitLoop (onlyActive a o).endpoints isCore limit ops selected w).2 a o := by
  induction ops generalizing selected with
  | nil => simp at hmem
  | cons op rest ih =>
    have hplace : ¬ limit ≤ selected := by omega
    rw [submitLoop, if_neg hplace]
    by_cases hop : op.logId = o
    · rw [attempt_onlyActive_self isCore hop]
      subst hop
      exact submitLoop_preserves _ _ _ (fun w' => Provable w' a op.logId) rest
        (fun op' _ _ w' hw' => hw'.of_le (honestSubmit_le _ op' w')) _ _
        (provable_honestSubmit w a op hfree)
    · have hrest : o ∈ rest.map Operator.logId := by
        rcases List.mem_cons.1 hmem with h | h
        · exact absurd h.symm hop
        · exact h
      rw [List.takeWhile_cons_of_pos (by simpa using hop), List.countP_cons] at hroom
      rw [attempt_onlyActive_ne isCore hop]
      cases hcore : isCore op with
      | true =>
        rw [hcore, if_pos rfl] at hroom
        exact ih hrest (selected + 1) (by omega)
      | false =>
        rw [hcore, if_neg Bool.false_ne_true, Nat.add_zero] at hroom
        exact ih hrest selected hroom

namespace FinalitySettings

variable (sha3 : Bytes → Bytes) (cfg : FinalitySettings)

/-- A member of the first `n` elements comes after fewer than `n` others. -/
theorem length_takeWhile_lt {ops : List Operator} {n : Nat} {o : String}
    (h : o ∈ (ops.take n).map Operator.logId) :
    (ops.takeWhile (fun op => op.logId ≠ o)).length < n := by
  induction ops generalizing n with
  | nil => simp at h
  | cons op rest ih =>
    cases n with
    | zero => simp at h
    | succ n =>
      by_cases hop : op.logId = o
      · rw [List.takeWhile_cons_of_neg (by simpa using hop)]
        exact Nat.succ_pos n
      · rw [List.takeWhile_cons_of_pos (by simpa using hop), List.length_cons]
        rw [List.take_succ_cons, List.map_cons, List.mem_cons] at h
        rcases h with h | h
        · exact absurd h.symm hop
        · exact Nat.succ_lt_succ (ih h)

/-- The candidates before a reachable operator leave a place for it. -/
theorem reachable_has_room {sub : MultiTransparencySubmitter} (hsub : cfg.submitter = some sub)
    (seed : String) {o : String} (ho : o ∈ cfg.reachable) :
    o ∈ (sub.appendOperatorCandidates sha3 seed).map Operator.logId ∧
      ((sub.appendOperatorCandidates sha3 seed).takeWhile (fun op => op.logId ≠ o)).countP
        sub.isCore < sub.operatorAppendTargetCount := by
  simp only [reachable, hsub] at ho
  rw [MultiTransparencySubmitter.appendOperatorCandidates,
    MultiTransparencySubmitter.operatorAppendTargetCount]
  by_cases hlen : sub.operators.length ≤ sub.appendFanout
  · -- every operator is a candidate and there is a place for each
    rw [if_pos (Or.inl hlen), List.mem_toFinset] at ho
    rw [if_pos hlen, Nat.min_eq_right hlen]
    refine ⟨ho, lt_of_le_of_lt List.countP_le_length (length_takeWhile_lt ?_)⟩
    rwa [List.take_length]
  · have hmin : min sub.appendFanout sub.operators.length = sub.appendFanout := by omega
    rw [if_neg hlen, hmin]
    by_cases hcore : (sub.operators.filter sub.isCore).length < sub.appendFanout
    · -- only core operators can use up a place before the operator's turn
      rw [if_pos (Or.inr hcore), List.mem_toFinset] at ho
      refine ⟨?_, lt_of_le_of_lt ?_ hcore⟩
      · obtain ⟨op, hop, rfl⟩ := List.mem_map.1 ho
        refine List.mem_map_of_mem ?_
        rw [List.mem_append, List.mem_insertionSort, List.mem_filter, List.mem_filter]
        cases hc : sub.isCore op with
        | true => exact Or.inl ⟨hop, rfl⟩
        | false => exact Or.inr ⟨hop, rfl⟩
      · refine le_trans (List.takeWhile_sublist _).countP_le ?_
        rw [List.countP_append]
        have hrest : List.countP sub.isCore ((sub.operators.filter
            (fun o => !sub.isCore o)).insertionSort (fun a b =>
              operatorSelectionKey sha3 seed a ≤ operatorSelectionKey sha3 seed b)) = 0 := by
          rw [List.countP_eq_zero]
          intro op hop
          rw [List.mem_insertionSort, List.mem_filter] at hop
          simpa using hop.2
        rw [hrest, Nat.add_zero]
        exact List.countP_le_length
    · -- the core operators fill the fan-out, and the operator is one of the first of them
      rw [if_neg (not_or.2 ⟨hlen, hcore⟩), List.mem_toFinset] at ho
      have htake : ((sub.operators.filter sub.isCore ++
          (sub.operators.filter (fun o => !sub.isCore o)).insertionSort (fun a b =>
            operatorSelectionKey sha3 seed a ≤ operatorSelectionKey sha3 seed b)).take
              sub.appendFanout) = (sub.operators.filter sub.isCore).take sub.appendFanout :=
        List.take_append_of_le_length (by omega)
      rw [← htake] at ho
      refine ⟨?_, lt_of_le_of_lt List.countP_le_length (length_takeWhile_lt ho)⟩
      obtain ⟨op, hop, rfl⟩ := List.mem_map.1 ho
      exact List.mem_map_of_mem (List.mem_of_mem_take hop)

/-- Activating one reachable operator makes the transfer provable there. -/
theorem provable_submit {sub : MultiTransparencySubmitter} (hsub : cfg.submitter = some sub)
    (a : AnnouncedTransfer) {o : String} (ho : o ∈ cfg.reachable) (w : Ledgers)
    (hfree : (w.claims o a.spendKey).getD a.transferHash = a.transferHash) :
    Provable (submit sha3 cfg w (onlyActive a o)) a o := by
  obtain ⟨hmem, hroom⟩ := reachable_has_room sha3 cfg hsub a.seed ho
  simp only [submit, hsub]
  exact provable_submitLoop sub.isCore _ _ hmem 0 (by rwa [Nat.zero_add]) w hfree

/-- Activating one operator leaves the claims of the others alone. -/
theorem submit_onlyActive_claims (a : AnnouncedTransfer) {o o' : String} (h : o' ≠ o) (w : Ledgers)
    (k : String) : (submit sha3 cfg w (onlyActive a o)).claims o' k = w.claims o' k := by
  cases hsub : cfg.submitter with
  | none => simp only [submit, hsub]
  | some sub =>
    simp only [submit, hsub]
    refine submitLoop_preserves _ _ _ (fun w' => w'.claims o' k = w.claims o' k) _
      (fun op _ hcall w' hw' => ?_) 0 w rfl
    have hop : op.logId = o := by
      by_contra hne
      rw [attempt_onlyActive_ne sub.isCore hne] at hcall
      split at hcall <;> exact Attempt.noConfusion hcall
    change (honestSubmit (onlyActive a o) op w').2.claims o' k = w.claims o' k
    rcases honestSubmit_eq (onlyActive a o) op w' with he | he
    · rw [he]
      exact hw'
    · rw [he, Ledgers.record_claims_of_ne _ _ _ (by rw [hop]; exact h)]
      exact hw'

/-- Submissions that activate one operator after the other make the transfer provable at each of
    them and leave the claims of all others alone. -/
theorem foldl_onlyActive {sub : MultiTransparencySubmitter} (hsub : cfg.submitter = some sub)
    (a : AnnouncedTransfer) (os : List String) (hos : ∀ o ∈ os, o ∈ cfg.reachable) (w : Ledgers)
    (hfree : ∀ o ∈ os, (w.claims o a.spendKey).getD a.transferHash = a.transferHash) :
    (∀ o ∈ os, Provable ((os.map (onlyActive a)).foldl (submit sha3 cfg) w) a o) ∧
      ∀ o, o ∉ os → ∀ k,
        ((os.map (onlyActive a)).foldl (submit sha3 cfg) w).claims o k = w.claims o k := by
  induction os generalizing w with
  | nil => simp
  | cons p rest ih =>
    rw [List.map_cons, List.foldl_cons]
    have hp : Provable (submit sha3 cfg w (onlyActive a p)) a p :=
      provable_submit sha3 cfg hsub a (hos p List.mem_cons_self) w (hfree p List.mem_cons_self)
    have hfree' : ∀ o ∈ rest, ((submit sha3 cfg w (onlyActive a p)).claims o a.spendKey).getD
        a.transferHash = a.transferHash := by
      intro o ho
      by_cases hop : o = p
      · rw [hop, hp.2]
        rfl
      · rw [submit_onlyActive_claims sha3 cfg a hop]
        exact hfree o (List.mem_cons_of_mem p ho)
    obtain ⟨ih1, ih2⟩ := ih (fun o ho => hos o (List.mem_cons_of_mem p ho)) _ hfree'
    refine ⟨fun o ho => ?_, fun o ho k => ?_⟩
    · rcases List.mem_cons.1 ho with rfl | ho
      · exact hp.of_le (foldl_submit_le sha3 cfg _ _)
      · exact ih1 o ho
    · rw [List.mem_cons, not_or] at ho
      rw [ih2 o ho.2 k, submit_onlyActive_claims sha3 cfg a ho.1]

theorem reachable_subset_logIds : cfg.reachable ⊆ cfg.logIds := by
  intro o ho
  cases hsub : cfg.submitter with
  | none => simp [reachable, hsub] at ho
  | some sub =>
    simp only [reachable, hsub] at ho
    simp only [logIds, hsub]
    split at ho
    · exact ho
    · rw [List.mem_toFinset, List.mem_map] at ho ⊢
      obtain ⟨op, hop, rfl⟩ := ho
      exact ⟨op, (List.mem_filter.1 (List.mem_of_mem_take hop)).1, rfl⟩

theorem reachesFinality_of_provable {submissions : List Submission} {a : AnnouncedTransfer}
    {os : Finset String} (hos : os ⊆ cfg.reachable)
    (hcard : cfg.operatorFinalityRequiredProofsV3 ≤ (os.card : Int))
    (h : ∀ o ∈ os, Provable (run sha3 cfg submissions) a o) :
    ReachesFinality sha3 cfg submissions a.spendKey a.transferHash := by
  refine ⟨submissions, List.prefix_refl _, le_trans hcard (Int.ofNat_le.2 (Finset.card_le_card ?_))⟩
  intro o ho
  exact (mem_logProofs cfg).2 ⟨reachable_subset_logIds cfg (hos ho), h o ho⟩

theorem required_pos : 0 < cfg.operatorFinalityRequiredProofsV3 := by
  simp only [operatorFinalityRequiredProofsV3]
  split
  · assumption
  · split
    · exact Int.one_pos
    · omega

/-- **Two thresholds that fit beside each other into the reachable operators do not intersect**:
    one half is asked for one transfer while all others are inactive, and the other half for the
    conflicting transfer. -/
theorem not_quorumsIntersect_of_le
    (h : 2 * cfg.operatorFinalityRequiredProofsV3 ≤ (cfg.reachable.card : Int)) :
    ¬ QuorumsIntersect sha3 cfg := by
  intro hsafe
  have hpos := cfg.required_pos
  obtain ⟨q, hq⟩ : ∃ q : Nat, (q : Int) = cfg.operatorFinalityRequiredProofsV3 :=
    ⟨_, Int.toNat_of_nonneg hpos.le⟩
  cases hsub : cfg.submitter with
  | none =>
    have : cfg.reachable = ∅ := by simp only [reachable, hsub]
    rw [this, Finset.card_empty] at h
    omega
  | some sub =>
    obtain ⟨A, hA, hAcard⟩ := Finset.exists_subset_card_eq (s := cfg.reachable) (n := q) (by omega)
    have hrest : q ≤ (cfg.reachable \ A).card := by
      rw [Finset.card_sdiff_of_subset hA]
      omega
    obtain ⟨B, hB, hBcard⟩ := Finset.exists_subset_card_eq hrest
    let a : AnnouncedTransfer := ⟨"a", "spend key", "first transfer"⟩
    let b : AnnouncedTransfer := ⟨"b", "spend key", "second transfer"⟩
    obtain ⟨hfirst, hframe⟩ := foldl_onlyActive sha3 cfg hsub a A.toList
      (fun o ho => hA (Finset.mem_toList.1 ho)) Ledgers.empty (fun _ _ => rfl)
    have hBA : ∀ o ∈ B, o ∉ A.toList := fun o ho ho' =>
      (Finset.mem_sdiff.1 (hB ho)).2 (Finset.mem_toList.1 ho')
    obtain ⟨hsecond, -⟩ := foldl_onlyActive sha3 cfg hsub b B.toList
      (fun o ho => (Finset.mem_sdiff.1 (hB (Finset.mem_toList.1 ho))).1)
      (run sha3 cfg (A.toList.map (onlyActive a))) (fun o ho => by
        rw [run, hframe o (hBA o (Finset.mem_toList.1 ho))]
        rfl)
    have hend := run_append sha3 cfg (A.toList.map (onlyActive a)) (B.toList.map (onlyActive b))
    refine hsafe (A.toList.map (onlyActive a) ++ B.toList.map (onlyActive b)) "spend key"
      "first transfer" "second transfer" (by decide) ⟨?_, ?_⟩
    · refine reachesFinality_of_provable sha3 cfg (a := a) hA (by omega) (fun o ho => ?_)
      rw [hend]
      exact (hfirst o (Finset.mem_toList.2 ho)).of_le (foldl_submit_le sha3 cfg _ _)
    · refine reachesFinality_of_provable sha3 cfg (a := b)
        (fun o ho => (Finset.mem_sdiff.1 (hB ho)).1) (by omega) (fun o ho => ?_)
      rw [hend]
      exact hsecond o (Finset.mem_toList.2 ho)

end FinalitySettings

/-- **Operator finality is safe exactly when two thresholds cannot be met side by side.** For every
    accepted policy, no two conflicting transfers become final in any run if and only if twice the
    required number of proofs exceeds the number of distinct operators a submission can reach. -/
theorem quorumsIntersect_iff (sha3 : Bytes → Bytes) (policy : FinalityPolicy) :
    policy.QuorumsIntersect sha3 ↔
      (policy.reachable.card : Int) < 2 * policy.operatorFinalityRequiredProofsV3 := by
  constructor
  · intro hsafe
    by_contra hle
    exact FinalitySettings.not_quorumsIntersect_of_le sha3 _ (by omega) hsafe
  · exact FinalitySettings.quorumsIntersect_of_lt sha3 _

/-- Six operators outside the core domains under the default fan-out and the derived threshold. -/
def sixOperators : FinalityPolicy where
  requireTransparency := true
  submitter := some (multiTransparencySubmitter
    (["a", "b", "c", "d", "e", "f"].map (fun n => ⟨n, n, "https://" ++ n ++ ".example", "HTTP"⟩))
    none [])
  operatorFinalityMinProofs := 0
  valid := by decide +kernel

/-- Three of six operators prove one transfer and the other three its double spend: the threshold
    is derived from the fan-out of five, not from the six configured operators. -/
theorem sixOperators_not_quorumsIntersect :
    ¬ sixOperators.QuorumsIntersect (fun data => data) := by
  have hcard : 2 * sixOperators.operatorFinalityRequiredProofsV3
      ≤ (sixOperators.reachable.card : Int) := by decide +kernel
  exact FinalitySettings.not_quorumsIntersect_of_le _ _ hcard
