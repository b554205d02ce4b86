import InternationalDollar.Lib.AssocList

set_option autoImplicit false

/-! # The append validation queue (`transparency_server`, AppendValidationQueue)

Requests wait in one queue for each peer, and the workers serve the peers in turn. Every attempt to
admit a job and every attempt to take one holds the condition's lock, so a run is a sequence of
attempts, by any threads in any order; an attempt that has to wait leaves the queue as it was and is
made again. -/

/-- The queue. The counter, the ready peers and the queues are updated separately. -/
structure AppendValidationQueue (Peer Job : Type) where
  queueMax : Nat
  perIpQueueMax : Nat
  queues : List (Peer × List Job)
  readyPeers : List Peer
  queuedCount : Int
  closed : Bool

namespace AppendValidationQueue

variable {Peer Job : Type}

/-- What a thread asks for. -/
inductive Event (Peer Job : Type) where
  | admitJob (peer : Peer) (job : Job)
  | nextJob
  | close

/-- What it gets: a job was admitted, the attempt failed or has to wait, a worker got a job, or a worker
    got `None` and ends. -/
inductive Outcome (Peer Job : Type) where
  | admitted (peer : Peer) (job : Job)
  | refused
  | took (peer : Peer) (job : Job)
  | ended
  | waits
  | done

/-- A new queue. -/
def new (Peer Job : Type) (queueMax perIpQueueMax : Nat) : AppendValidationQueue Peer Job where
  queueMax := queueMax
  perIpQueueMax := perIpQueueMax
  queues := []
  readyPeers := []
  queuedCount := 0
  closed := false

variable [DecidableEq Peer]

/-- The jobs of a peer. -/
def queueOf (q : AppendValidationQueue Peer Job) (peer : Peer) : List Job :=
  (AssocList.get? peer q.queues).getD []

/-- One attempt of `_admit`. -/
def admitJob (q : AppendValidationQueue Peer Job) (peer : Peer) (job : Job) :
    Outcome Peer Job × AppendValidationQueue Peer Job :=
  if q.closed then (.refused, q)
  else
    let peerQueue := q.queueOf peer
    if q.queuedCount < q.queueMax ∧ peerQueue.length < q.perIpQueueMax then
      (.admitted peer job,
        { q with
          queues := AssocList.put peer (peerQueue ++ [job]) q.queues
          queuedCount := q.queuedCount + 1
          readyPeers := if peerQueue = [] then q.readyPeers ++ [peer] else q.readyPeers })
    else (.refused, q)

/-- The loop of `_next_job` over the ready peers. -/
def nextJobFrom (q : AppendValidationQueue Peer Job) :
    List Peer → Outcome Peer Job × AppendValidationQueue Peer Job
  | [] => (if q.closed then .ended else .waits, { q with readyPeers := [] })
  | peer :: ready =>
      match q.queueOf peer with
      | [] => nextJobFrom { q with queues := AssocList.pop peer q.queues } ready
      | job :: rest =>
          (.took peer job,
            { q with
              queuedCount := q.queuedCount - 1
              readyPeers := if rest = [] then ready else ready ++ [peer]
              queues :=
                if rest = [] then AssocList.pop peer q.queues else AssocList.put peer rest q.queues })

/-- `_next_job`. -/
def nextJob (q : AppendValidationQueue Peer Job) : Outcome Peer Job × AppendValidationQueue Peer Job :=
  nextJobFrom q q.readyPeers

/-- One step of any thread. -/
def step (q : AppendValidationQueue Peer Job) :
    Event Peer Job → Outcome Peer Job × AppendValidationQueue Peer Job
  | .admitJob peer job => q.admitJob peer job
  | .nextJob => q.nextJob
  | .close => (.done, { q with closed := true })

/-- The outcomes of a run and the queue after it. -/
def run (q : AppendValidationQueue Peer Job) :
    List (Event Peer Job) → List (Outcome Peer Job) × AppendValidationQueue Peer Job
  | [] => ([], q)
  | e :: events =>
      let after := run (q.step e).2 events
      ((q.step e).1 :: after.1, after.2)

@[simp]
theorem step_admitJob (q : AppendValidationQueue Peer Job) (peer : Peer) (job : Job) :
    q.step (.admitJob peer job) = q.admitJob peer job := rfl

@[simp]
theorem step_nextJob (q : AppendValidationQueue Peer Job) : q.step .nextJob = q.nextJob := rfl

@[simp]
theorem step_close (q : AppendValidationQueue Peer Job) :
    q.step .close = (.done, { q with closed := true }) := rfl

theorem run_cons (q : AppendValidationQueue Peer Job) (e : Event Peer Job)
    (events : List (Event Peer Job)) :
    q.run (e :: events) = ((q.step e).1 :: ((q.step e).2.run events).1, ((q.step e).2.run events).2) :=
  rfl

/-- The job of a peer that an outcome admitted. -/
def Outcome.admittedOf (peer : Peer) : Outcome Peer Job → Option Job
  | .admitted p job => if p = peer then some job else none
  | _ => none

/-- The job of a peer that a worker got. -/
def Outcome.tookOf (peer : Peer) : Outcome Peer Job → Option Job
  | .took p job => if p = peer then some job else none
  | _ => none

/-! ## The invariant -/

/-- How the counter and the ready peers follow the queues. -/
structure Consistent (q : AppendValidationQueue Peer Job) : Prop where
  nodup : (q.queues.map Prod.fst).Nodup
  count_eq : q.queuedCount = AssocList.total List.length q.queues
  count_le : q.queuedCount ≤ q.queueMax
  length_le : ∀ peer, (q.queueOf peer).length ≤ q.perIpQueueMax
  ready_nodup : q.readyPeers.Nodup
  mem_ready : ∀ peer, peer ∈ q.readyPeers ↔ q.queueOf peer ≠ []

theorem consistent_new (queueMax perIpQueueMax : Nat) :
    (new Peer Job queueMax perIpQueueMax).Consistent where
  nodup := List.nodup_nil
  count_eq := rfl
  count_le := Int.natCast_nonneg _
  length_le := fun _ => Nat.zero_le _
  ready_nodup := List.nodup_nil
  mem_ready := fun _ => ⟨fun h => (nomatch h), fun h => absurd rfl h⟩

/-- What an attempt to admit a job can do. -/
theorem admitJob_cases (q : AppendValidationQueue Peer Job) (peer : Peer) (job : Job) :
    q.admitJob peer job = (.refused, q) ∨
      q.closed = false ∧ q.queuedCount < q.queueMax ∧ (q.queueOf peer).length < q.perIpQueueMax ∧
        q.admitJob peer job = (.admitted peer job,
          { q with
            queues := AssocList.put peer (q.queueOf peer ++ [job]) q.queues
            queuedCount := q.queuedCount + 1
            readyPeers := if q.queueOf peer = [] then q.readyPeers ++ [peer] else q.readyPeers }) := by
  unfold admitJob
  by_cases hclosed : q.closed = true
  · exact Or.inl (if_pos hclosed)
  · by_cases hroom : q.queuedCount < q.queueMax ∧ (q.queueOf peer).length < q.perIpQueueMax
    · refine Or.inr ⟨by simpa using hclosed, hroom.1, hroom.2, ?_⟩
      rw [if_neg hclosed, if_pos hroom]
    · left
      rw [if_neg hclosed, if_neg hroom]

/-- What a worker gets from a consistent queue: the first job of the first ready peer. -/
theorem Consistent.nextJob_cases {q : AppendValidationQueue Peer Job} (h : q.Consistent) :
    q.readyPeers = [] ∧ q.nextJob = (if q.closed then .ended else .waits, q) ∨
      ∃ peer ready job rest, q.readyPeers = peer :: ready ∧ q.queueOf peer = job :: rest ∧
        q.nextJob = (.took peer job,
          { q with
            queuedCount := q.queuedCount - 1
            readyPeers := if rest = [] then ready else ready ++ [peer]
            queues :=
              if rest = [] then AssocList.pop peer q.queues else AssocList.put peer rest q.queues }) := by
  unfold nextJob
  cases hready : q.readyPeers with
  | nil =>
    refine Or.inl ⟨rfl, ?_⟩
    rw [nextJobFrom, ← hready]
  | cons peer ready =>
    right
    have hqueue : q.queueOf peer ≠ [] := by
      rw [← h.mem_ready, hready]
      exact List.mem_cons_self
    cases hjobs : q.queueOf peer with
    | nil => exact absurd hjobs hqueue
    | cons job rest =>
      refine ⟨peer, ready, job, rest, rfl, hjobs, ?_⟩
      rw [nextJobFrom, hjobs]

/-- The jobs of every peer after a job was admitted. -/
theorem getD_put (queues : List (Peer × List Job)) (peer peer' : Peer) (jobs : List Job) :
    (AssocList.get? peer' (AssocList.put peer jobs queues)).getD []
      = if peer' = peer then jobs else (AssocList.get? peer' queues).getD [] := by
  rw [AssocList.get?_put]
  split
  · rfl
  · rfl

/-- The jobs of every peer after one was taken. -/
theorem getD_take {queues : List (Peer × List Job)} (hnodup : (queues.map Prod.fst).Nodup)
    (peer peer' : Peer) (rest : List Job) :
    (AssocList.get? peer'
        (if rest = [] then AssocList.pop peer queues else AssocList.put peer rest queues)).getD []
      = if peer' = peer then rest else (AssocList.get? peer' queues).getD [] := by
  by_cases hrest : rest = []
  · rw [if_pos hrest, AssocList.get?_pop hnodup]
    split
    · exact hrest.symm
    · rfl
  · rw [if_neg hrest, getD_put]

theorem length_queueOf_le_total (q : AppendValidationQueue Peer Job) (peer : Peer) :
    (q.queueOf peer).length ≤ AssocList.total List.length q.queues := by
  unfold queueOf
  cases hjobs : AssocList.get? peer q.queues with
  | none => exact Nat.zero_le _
  | some jobs => exact AssocList.le_total hjobs

theorem Consistent.admitJob {q : AppendValidationQueue Peer Job} (h : q.Consistent) (peer : Peer)
    (job : Job) : (q.admitJob peer job).2.Consistent := by
  rcases q.admitJob_cases peer job with hsame | ⟨-, hcount, hlength, hafter⟩
  · rw [hsame]
    exact h
  rw [hafter]
  have htotal := @AssocList.total_put _ _ _ peer (q.queueOf peer ++ [job]) q.queues List.length
  have hold : (AssocList.get? peer q.queues).elim 0 List.length = (q.queueOf peer).length := by
    unfold queueOf
    cases AssocList.get? peer q.queues <;> rfl
  rw [hold, List.length_append, List.length_singleton] at htotal
  refine ⟨AssocList.nodup_put h.nodup, ?_, ?_, ?_, ?_, ?_⟩
  · have := h.count_eq
    simp only
    omega
  · simp only
    omega
  · intro peer'
    change ((AssocList.get? peer' (AssocList.put peer _ q.queues)).getD []).length ≤ _
    rw [getD_put]
    split
    · rw [List.length_append, List.length_singleton]
      exact hlength
    · exact h.length_le peer'
  · change (if q.queueOf peer = [] then q.readyPeers ++ [peer] else q.readyPeers).Nodup
    split
    · next hempty =>
      rw [List.nodup_append]
      refine ⟨h.ready_nodup, List.nodup_singleton peer, ?_⟩
      rintro p hp _ hmem rfl
      rw [List.mem_singleton.1 hmem, h.mem_ready] at hp
      exact hp hempty
    · exact h.ready_nodup
  · intro peer'
    change peer' ∈ (if q.queueOf peer = [] then q.readyPeers ++ [peer] else q.readyPeers) ↔
      (AssocList.get? peer' (AssocList.put peer _ q.queues)).getD [] ≠ []
    rw [getD_put]
    by_cases hpeer : peer' = peer
    · subst hpeer
      rw [if_pos rfl]
      refine iff_of_true ?_ (by simp)
      split
      · exact List.mem_append_right _ List.mem_cons_self
      · next hnonempty => exact (h.mem_ready peer').2 hnonempty
    · rw [if_neg hpeer]
      refine Iff.trans ?_ (h.mem_ready peer')
      split
      · simp [hpeer]
      · rfl

theorem Consistent.nextJob {q : AppendValidationQueue Peer Job} (h : q.Consistent) :
    q.nextJob.2.Consistent := by
  rcases h.nextJob_cases with ⟨-, hsame⟩ | ⟨peer, ready, job, rest, hready, hjobs, hafter⟩
  · rw [hsame]
    exact h
  rw [hafter]
  have hnodup := h.ready_nodup
  rw [hready, List.nodup_cons] at hnodup
  have hget : (AssocList.get? peer q.queues).elim 0 List.length = rest.length + 1 := by
    have hjobs := hjobs
    unfold queueOf at hjobs
    cases hitem : AssocList.get? peer q.queues with
    | none =>
      rw [hitem] at hjobs
      exact nomatch hjobs
    | some jobs =>
      rw [hitem] at hjobs
      obtain rfl : jobs = job :: rest := hjobs
      rfl
  refine ⟨?_, ?_, ?_, ?_, ?_, ?_⟩
  · change ((if rest = [] then AssocList.pop peer q.queues
      else AssocList.put peer rest q.queues).map Prod.fst).Nodup
    split
    · exact AssocList.nodup_pop h.nodup
    · exact AssocList.nodup_put h.nodup
  · have hcount := h.count_eq
    change q.queuedCount - 1 = ((AssocList.total List.length (if rest = [] then
      AssocList.pop peer q.queues else AssocList.put peer rest q.queues) : Nat) : Int)
    by_cases hrest : rest = []
    · have htotal := @AssocList.total_pop _ _ _ peer q.queues List.length
      rw [hget, hrest, List.length_nil] at htotal
      rw [if_pos hrest]
      omega
    · have htotal := @AssocList.total_put _ _ _ peer rest q.queues List.length
      rw [hget] at htotal
      rw [if_neg hrest]
      omega
  · have := h.count_le
    simp only
    omega
  · intro peer'
    change ((AssocList.get? peer' _).getD []).length ≤ _
    rw [getD_take h.nodup]
    split
    · have := h.length_le peer
      rw [hjobs, List.length_cons] at this
      exact Nat.le_of_succ_le this
    · exact h.length_le peer'
  · change (if rest = [] then ready else ready ++ [peer]).Nodup
    split
    · exact hnodup.2
    · rw [List.nodup_append]
      refine ⟨hnodup.2, List.nodup_singleton peer, ?_⟩
      rintro p hp _ hmem rfl
      exact hnodup.1 (List.mem_singleton.1 hmem ▸ hp)
  · intro peer'
    change peer' ∈ (if rest = [] then ready else ready ++ [peer]) ↔
      (AssocList.get? peer' _).getD [] ≠ []
    rw [getD_take h.nodup]
    by_cases hpeer : peer' = peer
    · subst hpeer
      rw [if_pos rfl]
      by_cases hrest : rest = []
      · rw [if_pos hrest]
        exact iff_of_false hnodup.1 (fun hne => hne hrest)
      · rw [if_neg hrest]
        exact iff_of_true (List.mem_append_right _ List.mem_cons_self) hrest
    · rw [if_neg hpeer]
      have hold := h.mem_ready peer'
      rw [hready, List.mem_cons, or_iff_right hpeer] at hold
      refine Iff.trans ?_ hold
      split
      · rfl
      · simp [hpeer]

/-- Every step of every thread keeps the queue consistent. -/
theorem Consistent.step {q : AppendValidationQueue Peer Job} (h : q.Consistent)
    (e : Event Peer Job) : (q.step e).2.Consistent := by
  cases e with
  | admitJob peer job => exact h.admitJob peer job
  | nextJob => exact h.nextJob
  | close => exact { h with }

theorem Consistent.run {q : AppendValidationQueue Peer Job} (h : q.Consistent)
    (events : List (Event Peer Job)) : (q.run events).2.Consistent := by
  induction events generalizing q with
  | nil => exact h
  | cons e events ih => exact ih (h.step e)

theorem limits_nextJobFrom (q : AppendValidationQueue Peer Job) (ready : List Peer) :
    (q.nextJobFrom ready).2.queueMax = q.queueMax
      ∧ (q.nextJobFrom ready).2.perIpQueueMax = q.perIpQueueMax := by
  induction ready generalizing q with
  | nil => exact ⟨rfl, rfl⟩
  | cons peer ready ih =>
    rw [nextJobFrom]
    split
    · exact ih _
    · exact ⟨rfl, rfl⟩

/-- The limits are set once. -/
theorem limits_run (q : AppendValidationQueue Peer Job) (events : List (Event Peer Job)) :
    (q.run events).2.queueMax = q.queueMax ∧ (q.run events).2.perIpQueueMax = q.perIpQueueMax := by
  induction events generalizing q with
  | nil => exact ⟨rfl, rfl⟩
  | cons e events ih =>
    have hstep : (q.step e).2.queueMax = q.queueMax
        ∧ (q.step e).2.perIpQueueMax = q.perIpQueueMax := by
      cases e with
      | admitJob peer job =>
        rcases q.admitJob_cases peer job with h | ⟨-, -, -, h⟩ <;> simp [step, h]
      | nextJob => exact limits_nextJobFrom q q.readyPeers
      | close => exact ⟨rfl, rfl⟩
    obtain ⟨hmax, hper⟩ := ih (q.step e).2
    exact ⟨hmax.trans hstep.1, hper.trans hstep.2⟩

/-! ## First in, first out -/

/-- What a run admitted of a peer is what the workers got, followed by what still waits: nothing is
    lost, nothing is taken twice, and each peer's jobs are taken in their order. -/
def FirstInFirstOut (events : List (Event Peer Job)) (q : AppendValidationQueue Peer Job) : Prop :=
  ∀ peer, q.queueOf peer ++ (q.run events).1.filterMap (Outcome.admittedOf peer)
    = (q.run events).1.filterMap (Outcome.tookOf peer) ++ (q.run events).2.queueOf peer

theorem Consistent.queueOf_step {q : AppendValidationQueue Peer Job} (h : q.Consistent)
    (e : Event Peer Job) (peer : Peer) :
    q.queueOf peer ++ ((q.step e).1.admittedOf peer).toList
      = ((q.step e).1.tookOf peer).toList ++ (q.step e).2.queueOf peer := by
  cases e with
  | admitJob p job =>
    rcases q.admitJob_cases p job with hsame | ⟨-, -, -, hafter⟩
    · simp [hsame, Outcome.admittedOf, Outcome.tookOf]
    · simp only [step_admitJob, hafter, Outcome.admittedOf, Outcome.tookOf, Option.toList_none, List.nil_append]
      change _ = (AssocList.get? peer (AssocList.put p _ q.queues)).getD []
      rw [getD_put]
      by_cases hp : p = peer
      · simp [hp]
      · rw [if_neg hp, if_neg (Ne.symm hp), Option.toList_none, List.append_nil]
        rfl
  | nextJob =>
    rcases h.nextJob_cases with ⟨-, hsame⟩ | ⟨p, ready, job, rest, -, hjobs, hafter⟩
    · rw [step_nextJob, hsame]
      split <;> simp [Outcome.admittedOf, Outcome.tookOf]
    · simp only [step_nextJob, hafter, Outcome.admittedOf, Outcome.tookOf, Option.toList_none, List.append_nil]
      change _ = _ ++ (AssocList.get? peer _).getD []
      rw [getD_take h.nodup]
      by_cases hp : p = peer
      · subst hp
        simp [hjobs]
      · rw [if_neg hp, if_neg (Ne.symm hp), Option.toList_none, List.nil_append]
        rfl
  | close => simp [Outcome.admittedOf, Outcome.tookOf, queueOf]

theorem filterMap_cons_toList {α β : Type} (f : α → Option β) (a : α) (as : List α) :
    (a :: as).filterMap f = (f a).toList ++ as.filterMap f := by
  cases h : f a with
  | none => rw [List.filterMap_cons_none h, Option.toList_none, List.nil_append]
  | some b => rw [List.filterMap_cons_some h, Option.toList_some, List.singleton_append]

theorem Consistent.firstInFirstOut {q : AppendValidationQueue Peer Job} (h : q.Consistent)
    (events : List (Event Peer Job)) : FirstInFirstOut events q := by
  intro peer
  induction events generalizing q with
  | nil => exact List.append_nil _
  | cons e events ih =>
    rw [run_cons, filterMap_cons_toList, filterMap_cons_toList, ← List.append_assoc, h.queueOf_step e peer,
      List.append_assoc, ih (h.step e), List.append_assoc]

/-! ## After the queue is closed -/

/-- A worker of a closed queue gets `None` exactly when no job waits, and does not have to wait
    itself. -/
def EndsWhenEmpty (q : AppendValidationQueue Peer Job) : Prop :=
  ((q.nextJob).1 = .ended ↔ q.closed = true ∧ ∀ peer, q.queueOf peer = []) ∧
    (q.closed = true → (q.nextJob).1 ≠ .waits) ∧ (q.queuedCount = 0 ↔ ∀ peer, q.queueOf peer = [])

/-- As many calls as jobs wait take them all. -/
def Drains (q : AppendValidationQueue Peer Job) : Prop :=
  ∀ outcome ∈ (q.run (List.replicate q.queuedCount.toNat .nextJob)).1,
    ∃ peer job, outcome = .took peer job

theorem Consistent.queuedCount_eq_zero_iff {q : AppendValidationQueue Peer Job} (h : q.Consistent) :
    q.queuedCount = 0 ↔ ∀ peer, q.queueOf peer = [] := by
  constructor
  · intro hzero peer
    have := q.length_queueOf_le_total peer
    have hcount := h.count_eq
    exact List.length_eq_zero_iff.1 (by omega)
  · intro hempty
    rw [h.count_eq, Int.natCast_eq_zero]
    refine List.sum_eq_zero ?_
    intro n hmem
    obtain ⟨item, hitem, rfl⟩ := List.mem_map.1 hmem
    have := hempty item.1
    rw [queueOf, AssocList.get?_eq_some_of_mem h.nodup hitem] at this
    rw [show item.2 = [] from this, List.length_nil]

theorem Consistent.readyPeers_eq_nil_iff {q : AppendValidationQueue Peer Job} (h : q.Consistent) :
    q.readyPeers = [] ↔ ∀ peer, q.queueOf peer = [] := by
  rw [List.eq_nil_iff_forall_not_mem]
  refine forall_congr' fun peer => ?_
  rw [h.mem_ready, not_not]

theorem Consistent.endsWhenEmpty {q : AppendValidationQueue Peer Job} (h : q.Consistent) :
    EndsWhenEmpty q := by
  refine ⟨?_, ?_, h.queuedCount_eq_zero_iff⟩
  · rw [← h.readyPeers_eq_nil_iff]
    rcases h.nextJob_cases with ⟨hready, hafter⟩ | ⟨peer, ready, job, rest, hready, -, hafter⟩
    · rw [hafter, hready]
      cases q.closed <;> simp
    · rw [hafter, hready]
      simp
  · intro hclosed
    rcases h.nextJob_cases with ⟨-, hafter⟩ | ⟨peer, ready, job, rest, -, -, hafter⟩
    · rw [hafter, hclosed]
      simp
    · rw [hafter]
      simp

theorem Consistent.drains {q : AppendValidationQueue Peer Job} (h : q.Consistent) : Drains q := by
  unfold Drains
  -- the induction is on the number of jobs that wait, each call takes one of them
  generalize hn : q.queuedCount.toNat = n
  induction n generalizing q with
  | zero => exact fun _ hmem => nomatch hmem
  | succ n ih =>
    rcases h.nextJob_cases with ⟨hready, -⟩ | ⟨peer, ready, job, rest, -, -, hafter⟩
    · have hzero := h.queuedCount_eq_zero_iff.2 (h.readyPeers_eq_nil_iff.1 hready)
      rw [hzero] at hn
      exact nomatch hn
    · intro outcome hmem
      rw [List.replicate_succ, run_cons, List.mem_cons] at hmem
      rcases hmem with rfl | hmem
      · exact ⟨peer, job, by rw [step_nextJob, hafter]⟩
      · refine ih (h.step .nextJob) ?_ outcome hmem
        rw [step_nextJob, hafter]
        simp only
        omega

/-! ## Rotation -/

/-- The peer is served before the other one. -/
def ServedBefore (peer other : Peer) (ready : List Peer) : Prop :=
  ∃ before after, ready = before ++ peer :: after ∧ other ∉ before

omit [DecidableEq Peer] in
theorem ServedBefore.append {peer other : Peer} {ready : List Peer}
    (h : ServedBefore peer other ready) (later : List Peer) :
    ServedBefore peer other (ready ++ later) := by
  obtain ⟨before, after, rfl, hother⟩ := h
  exact ⟨before, after ++ later, by simp, hother⟩

/-- A step serves the peer, or leaves it before the other one, which then was not served. -/
theorem Consistent.servedBefore_step {q : AppendValidationQueue Peer Job} (h : q.Consistent)
    {peer other : Peer} (hbefore : ServedBefore peer other q.readyPeers)
    (e : Event Peer Job) :
    (∃ job, (q.step e).1 = .took peer job) ∨
      ServedBefore peer other (q.step e).2.readyPeers ∧ ∀ job, (q.step e).1 ≠ .took other job := by
  cases e with
  | admitJob p job =>
    right
    rcases q.admitJob_cases p job with hsame | ⟨-, -, -, hafter⟩
    · rw [step_admitJob, hsame]
      exact ⟨hbefore, fun _ h => nomatch h⟩
    · rw [step_admitJob, hafter]
      refine ⟨?_, fun _ h => nomatch h⟩
      simp only
      split
      · exact hbefore.append [p]
      · exact hbefore
  | nextJob =>
    obtain ⟨before, after, hready, hother⟩ := hbefore
    rcases h.nextJob_cases with ⟨hnil, -⟩ | ⟨p, ready, job, rest, hcons, -, hafter⟩
    · simp [hready] at hnil
    rw [hready] at hcons
    cases before with
    | nil =>
      rw [List.nil_append, List.cons.injEq] at hcons
      exact Or.inl ⟨job, by rw [step_nextJob, hafter, hcons.1]⟩
    | cons b before =>
      rw [List.cons_append, List.cons.injEq] at hcons
      obtain ⟨rfl, rfl⟩ := hcons
      rw [List.mem_cons, not_or] at hother
      have hrest : ServedBefore peer other (before ++ peer :: after) :=
        ⟨before, after, rfl, hother.2⟩
      right
      rw [step_nextJob, hafter]
      refine ⟨?_, fun _ htook => hother.1 (by injection htook with hp; exact hp.symm)⟩
      simp only
      split
      · exact hrest
      · exact hrest.append _
  | close => exact Or.inr ⟨hbefore, fun _ h => nomatch h⟩

theorem Consistent.servedBefore_run {q : AppendValidationQueue Peer Job} (h : q.Consistent)
    {peer other : Peer} (hbefore : ServedBefore peer other q.readyPeers)
    (events : List (Event Peer Job)) :
    (∃ job, .took peer job ∈ (q.run events).1) ∨
      ServedBefore peer other (q.run events).2.readyPeers := by
  induction events generalizing q with
  | nil => exact Or.inr hbefore
  | cons e events ih =>
    rw [run_cons]
    rcases h.servedBefore_step hbefore e with ⟨job, htook⟩ | ⟨hstill, -⟩
    · exact Or.inl ⟨job, htook ▸ List.mem_cons_self⟩
    · rcases ih (h.step e) hstill with ⟨job, hmem⟩ | hstill
      · exact Or.inl ⟨job, List.mem_cons_of_mem _ hmem⟩
      · exact Or.inr hstill

/-- Between two jobs of one peer, every other peer that was ready after the first of them got a job. -/
def Rotates (q : AppendValidationQueue Peer Job) : Prop :=
  ∀ first between second peer job job',
    (q.step first).1 = .took peer job →
    (((q.step first).2.run between).2.step second).1 = .took peer job' →
    ∀ other, other ≠ peer → other ∈ (q.step first).2.readyPeers →
      ∃ taken, .took other taken ∈ ((q.step first).2.run between).1

/-- A worker that gets a job of a peer leaves every other ready peer before it. -/
theorem Consistent.servedBefore_of_took {q : AppendValidationQueue Peer Job} (h : q.Consistent)
    {e : Event Peer Job} {peer other : Peer} {job : Job} (htook : (q.step e).1 = .took peer job)
    (hne : other ≠ peer) (hother : other ∈ (q.step e).2.readyPeers) :
    ServedBefore other peer (q.step e).2.readyPeers := by
  cases e with
  | admitJob p job' =>
    rcases q.admitJob_cases p job' with hsame | ⟨-, -, -, hafter⟩
    · rw [step_admitJob, hsame] at htook
      exact nomatch htook
    · rw [step_admitJob, hafter] at htook
      exact nomatch htook
  | nextJob =>
    rcases h.nextJob_cases with ⟨-, hsame⟩ | ⟨p, ready, job', rest, hready, -, hafter⟩
    · rw [step_nextJob, hsame] at htook
      split at htook <;> exact nomatch htook
    · rw [step_nextJob, hafter] at htook hother ⊢
      injection htook with hp
      subst hp
      have hnodup := h.ready_nodup
      rw [hready, List.nodup_cons] at hnodup
      simp only at hother ⊢
      -- the peer itself is at most the last one now
      have hmem : other ∈ ready := by
        split at hother
        · exact hother
        · simpa [hne] using hother
      have hbefore : ServedBefore other p ready := by
        obtain ⟨before, after, rfl⟩ := List.append_of_mem hmem
        exact ⟨before, after, rfl, fun hp => hnodup.1 (List.mem_append_left _ hp)⟩
      split
      · exact hbefore
      · exact hbefore.append _
  | close => exact nomatch htook

theorem Consistent.rotates {q : AppendValidationQueue Peer Job} (h : q.Consistent) : Rotates q := by
  intro first between second peer job job' hfirst hsecond other hne hready
  have hbefore := h.servedBefore_of_took hfirst hne hready
  have hafter := (h.step first).run between
  rcases (h.step first).servedBefore_run hbefore between with htaken | hstill
  · exact htaken
  · rcases hafter.servedBefore_step hstill second with ⟨taken, htaken⟩ | ⟨-, hnot⟩
    · rw [hsecond] at htaken
      injection htaken with hp
      exact absurd hp.symm hne
    · exact absurd hsecond (hnot job')

/-- Whatever peers, workers and `close` do, in any order: the counter and the ready peers follow the
    queues within the limits, the jobs of a peer are taken once each and in their order, a closed
    queue is emptied before a worker ends, and the workers rotate over the peers. -/
theorem validatesInTurn (queueMax perIpQueueMax : Nat) (events : List (Event Peer Job)) :
    let q := ((new Peer Job queueMax perIpQueueMax).run events).2
    (q.Consistent ∧ q.queueMax = queueMax ∧ q.perIpQueueMax = perIpQueueMax) ∧
      (∀ peer, ((new Peer Job queueMax perIpQueueMax).run events).1.filterMap (Outcome.admittedOf peer)
        = ((new Peer Job queueMax perIpQueueMax).run events).1.filterMap (Outcome.tookOf peer)
          ++ q.queueOf peer) ∧
      EndsWhenEmpty q ∧ Drains q ∧ Rotates q := by
  have hnew := @consistent_new Peer Job _ queueMax perIpQueueMax
  have h := hnew.run events
  exact ⟨⟨h, limits_run _ events⟩, fun peer => hnew.firstInFirstOut events peer, h.endsWhenEmpty,
    h.drains, h.rotates⟩

end AppendValidationQueue
