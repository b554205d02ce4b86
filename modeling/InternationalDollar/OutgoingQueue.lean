import InternationalDollar.Lib.Runs
import Mathlib.Data.List.Sort

set_option autoImplicit false

/-! # The outgoing queue

Queued transfers are files `transaction_<n>.json` of one directory. Any number of threads write
files, one paced send at a time works through them, and for every hand-off that failed a background
retry keeps the path and the message in memory. All of them name a file by its path, and the number
of a new file is one more than the largest number there is.

`safe_of_reaches` says when no transfer is lost in any interleaving. -/

namespace OutgoingQueue

variable {Message : Type}

/-! ## Files -/

/-- The files of the directory, by the number in their name. -/
abbrev Files (Message : Type) := List (Nat × Message)

namespace Files

/-- The content of a file. -/
def read (path : Nat) (files : Files Message) : Option Message :=
  List.lookup path files

/-- `os.remove`; nothing happens where there is no file. -/
def delete (path : Nat) (files : Files Message) : Files Message :=
  files.filter fun f => f.1 != path

/-- `_write_json`: the file is replaced as a whole. -/
def write (path : Nat) (message : Message) (files : Files Message) : Files Message :=
  (path, message) :: files.delete path

/-- The name of a file. -/
def name (path : Nat) : String :=
  "transaction_" ++ toString path ++ ".json"

/-- `transaction_files`, in the order of the names. -/
def transactionFiles (files : Files Message) : List Nat :=
  (files.map Prod.fst).insertionSort fun a b => name a ≤ name b

/-- `next_transaction_path`. -/
def nextTransactionPath (files : Files Message) : Nat :=
  (files.map Prod.fst).foldl max 0 + 1

end Files

/-! ### Reading after a change -/

namespace Files

@[simp] theorem read_delete_self (path : Nat) (files : Files Message) :
    (files.delete path).read path = none := by
  unfold read delete
  rw [List.lookup_eq_none_iff]
  intro f hf
  have := (List.mem_filter.1 hf).2
  simp only [bne_iff_ne, ne_eq] at this
  exact bne_iff_ne.2 fun h => this h.symm

theorem read_delete_of_ne {path other : Nat} (files : Files Message) (h : other ≠ path) :
    (files.delete path).read other = files.read other := by
  unfold read delete
  induction files with
  | nil => rfl
  | cons f rest ih =>
    obtain ⟨p, m⟩ := f
    by_cases hp : p = path
    · rw [List.filter_cons_of_neg (by simp [hp]), ih, List.lookup_cons, hp, beq_false_of_ne h]
    · rw [List.filter_cons_of_pos (by simp [hp]), List.lookup_cons, List.lookup_cons, ih]

@[simp] theorem read_write_self (path : Nat) (message : Message) (files : Files Message) :
    (files.write path message).read path = some message := by
  unfold read write
  rw [List.lookup_cons_self]

theorem read_write_of_ne {path other : Nat} (message : Message) (files : Files Message)
    (h : other ≠ path) : (files.write path message).read other = files.read other := by
  have := read_delete_of_ne files h
  unfold read write at *
  rw [List.lookup_cons, beq_false_of_ne h, this]

theorem le_foldl_max (numbers : List Nat) (first : Nat) :
    first ≤ numbers.foldl max first ∧ ∀ k ∈ numbers, k ≤ numbers.foldl max first := by
  induction numbers generalizing first with
  | nil => exact ⟨le_rfl, fun _ h => nomatch h⟩
  | cons n rest ih =>
    obtain ⟨hfirst, hrest⟩ := ih (max first n)
    refine ⟨(le_max_left first n).trans hfirst, fun k hk => ?_⟩
    rcases List.mem_cons.1 hk with rfl | hk
    · exact (le_max_right first k).trans hfirst
    · exact hrest k hk

/-- A new file has a name of its own, so writing it adds one file. -/
theorem write_next (files : Files Message) (message : Message) :
    files.write files.nextTransactionPath message = (files.nextTransactionPath, message) :: files := by
  rw [write, delete, List.filter_eq_self.2]
  intro f hf
  have hle := (le_foldl_max (files.map Prod.fst) 0).2 f.1 (List.mem_map_of_mem hf)
  rw [bne_iff_ne, nextTransactionPath]
  omega

end Files

/-! ## Threads -/

/-- Where a background retry is: asleep, after it saw its file, or after it handed its message to a
    peer. -/
inductive RetryPhase where
  | sleeping
  | checked
  | dispatched
deriving DecidableEq

/-- A run of `_run_queued_gossip_retry`. -/
structure Retry (Message : Type) where
  path : Nat
  message : Message
  attempts : Nat
  phase : RetryPhase

/-- Where `send_queued_bills_paced` is. `todo` are the paths that are left of the last listing,
    `deferred` the ones it gave to retries. -/
inductive Sender (Message : Type) where
  | idle
  | ready (todo deferred : List Nat)
  | dropping (path : Nat) (content : Option Message) (todo deferred : List Nat)
  | sending (path : Nat) (message : Message) (todo deferred : List Nat)
  | removing (path : Nat) (message : Message) (todo deferred : List Nat)

/-- The directory and the threads. `writers` have chosen a path and not written yet, `retryPaths` are
    the paths of `_queued_gossip_retries`. `returned` are the writes that returned and `handed` the
    messages that a peer took, both only recorded. -/
structure State (Message : Type) where
  files : Files Message
  writers : List (Nat × Message)
  sender : Sender Message
  retries : List (Retry Message)
  retryPaths : List Nat
  returned : List (Nat × Message)
  handed : List Message

/-- A directory before any thread runs. -/
def State.initial (files : Files Message) : State Message :=
  ⟨files, [], .idle, [], [], [], []⟩

/-- What the queue does not decide: whether `_prepare_queued_gossip_for_broadcast` accepts a message
    whenever it is read, and the setting `WALLET_QUEUED_RETRY_MAX_ATTEMPTS`. -/
structure Config (Message : Type) where
  accepts : Message → Bool
  maxAttempts : Nat

/-- What can happen next. `start` to `remove` are the steps of the paced send, which gives up (`stop`)
    at a deadline or when it is cancelled; the number in the others says which thread moves. -/
inductive Event (Message : Type) where
  | choose (message : Message)
  | write (i : Nat)
  | start
  | list
  | prepare (accepted : Bool)
  | stop
  | broadcast (ok : Bool)
  | drop
  | remove
  | retryWake (i : Nat)
  | retryBroadcast (i : Nat) (ok : Bool)
  | retryRemove (i : Nat)

namespace State

/-- `_schedule_queued_gossip_retry`: one retry for a path at a time. -/
def schedule (config : Config Message) (path : Nat) (message : Message) (s : State Message) :
    State Message :=
  if path ∈ s.retryPaths then s
  else { s with
    retries := s.retries ++ [⟨path, message, max 1 config.maxAttempts, .sleeping⟩]
    retryPaths := path :: s.retryPaths }

/-- A retry ends. -/
def endRetry (i : Nat) (r : Retry Message) (s : State Message) : State Message :=
  { s with
    retries := s.retries.eraseIdx i
    retryPaths := s.retryPaths.filter fun p => p != r.path }

/-- A retry goes on in another phase. -/
def setRetry (i : Nat) (r : Retry Message) (s : State Message) : State Message :=
  { s with retries := s.retries.set i r }

end State

/-- One step of one thread. -/
def step (config : Config Message) (s : State Message) : Event Message → Option (State Message)
  | .choose message =>
      some { s with writers := s.writers ++ [(s.files.nextTransactionPath, message)] }
  | .write i => do
      let (path, message) ← s.writers[i]?
      pure { s with
        files := s.files.write path message
        writers := s.writers.eraseIdx i
        returned := (path, message) :: s.returned }
  | .start =>
      match s.sender with
      | .idle => some { s with sender := .ready [] [] }
      | _ => none
  | .list =>
      match s.sender with
      | .ready [] deferred =>
          match s.files.transactionFiles.filter fun p => !deferred.contains p with
          | [] => some { s with sender := .idle }
          | todo => some { s with sender := .ready todo deferred }
      | _ => none
  | .prepare accepted =>
      match s.sender with
      | .ready (path :: todo) deferred =>
          match s.files.read path with
          | some message =>
              if accepted then some { s with sender := .sending path message todo deferred }
              else if config.accepts message then none
              else some { s with sender := .dropping path (some message) todo deferred }
          | none => some { s with sender := .dropping path none todo deferred }
      | _ => none
  | .stop =>
      match s.sender with
      | .ready _ _ => some { s with sender := .idle }
      | .sending _ _ _ _ => some { s with sender := .idle }
      | _ => none
  | .broadcast ok =>
      match s.sender with
      | .sending path message todo deferred =>
          if ok then
            some { s with
              sender := .removing path message todo deferred
              handed := message :: s.handed }
          else some { s.schedule config path message with sender := .ready todo (path :: deferred) }
      | _ => none
  | .drop =>
      match s.sender with
      | .dropping path _ todo deferred =>
          some { s with files := s.files.delete path, sender := .ready todo deferred }
      | _ => none
  | .remove =>
      match s.sender with
      | .removing path _ todo deferred =>
          some { s with files := s.files.delete path, sender := .ready todo deferred }
      | _ => none
  | .retryWake i =>
      match s.retries[i]? with
      | some r =>
          match r.phase with
          | .sleeping =>
              match s.files.read r.path with
              | some _ => some (s.setRetry i { r with phase := .checked })
              | none => some (s.endRetry i r)
          | _ => none
      | none => none
  | .retryBroadcast i ok =>
      match s.retries[i]? with
      | some r =>
          match r.phase with
          | .checked =>
              if ok then
                some { s.setRetry i { r with phase := .dispatched } with
                  handed := r.message :: s.handed }
              else if r.attempts ≤ 1 then some (s.endRetry i r)
              else some (s.setRetry i { r with attempts := r.attempts - 1, phase := .sleeping })
          | _ => none
      | none => none
  | .retryRemove i =>
      match s.retries[i]? with
      | some r =>
          match r.phase with
          | .dispatched => some { s.endRetry i r with files := s.files.delete r.path }
          | _ => none
      | none => none

/-! ## What threads hold -/

namespace Sender

/-- The sender has read a file and will not read it again before it goes on. -/
def Holds : Sender Message → Nat → Option Message → Prop
  | dropping path content _ _, p, c => p = path ∧ c = content
  | sending path message _ _, p, c => p = path ∧ c = some message
  | removing path message _ _, p, c => p = path ∧ c = some message
  | _, _, _ => False

/-- The sender is about to delete a file, after what it read there. -/
def Deletes : Sender Message → Nat → Option Message → Prop
  | dropping path content _ _, p, c => p = path ∧ c = content
  | removing path message _ _, p, c => p = path ∧ c = some message
  | _, _, _ => False

theorem Deletes.holds {sender : Sender Message} {p : Nat} {c : Option Message}
    (h : sender.Deletes p c) : sender.Holds p c := by
  cases sender with
  | dropping => exact h
  | removing => exact h
  | idle => exact h
  | ready => exact h
  | sending => exact h.elim

end Sender

namespace State

/-- A thread keeps a path, and the content that it has read there. -/
def Holds (s : State Message) (p : Nat) (c : Option Message) : Prop :=
  s.sender.Holds p c ∨ ∃ r ∈ s.retries, p = r.path ∧ c = some r.message

/-- A thread is about to delete a file, after the content that it has read there. -/
def Deletes (s : State Message) (p : Nat) (c : Option Message) : Prop :=
  s.sender.Deletes p c ∨
    ∃ r ∈ s.retries, r.phase = .dispatched ∧ p = r.path ∧ c = some r.message

theorem Deletes.holds {s : State Message} {p : Nat} {c : Option Message} (h : s.Deletes p c) :
    s.Holds p c := by
  rcases h with h | ⟨r, hr, -, hp⟩
  · exact .inl h.holds
  · exact .inr ⟨r, hr, hp⟩

/-- The event is the sender's reading of a file. -/
def Reads (s : State Message) (e : Event Message) (p : Nat) : Prop :=
  ∃ accepted todo deferred, e = .prepare accepted ∧ s.sender = .ready (p :: todo) deferred

/-- A message that was queued and accepted, and that no peer has taken. -/
def Live (config : Config Message) (s : State Message) (w : Nat × Message) : Prop :=
  w ∈ s.returned ∧ config.accepts w.2 = true ∧ w.2 ∉ s.handed

/-- No live message is lost. -/
structure Safe (config : Config Message) (s : State Message) : Prop where
  readable : ∀ w, s.Live config w → ∃ p, s.files.read p = some w.2
  separate : ∀ v w, s.Live config v → s.Live config w → v.1 = w.1 → v.2 = w.2
  deletes : ∀ p c, s.Deletes p c → s.files.read p = none ∨ s.files.read p = c

/-- A write is undisturbed when there is no file at its path and no thread holds the path. -/
def Undisturbed (s : State Message) : Event Message → Prop
  | .write i => ∀ p m, s.writers[i]? = some (p, m) →
      s.files.read p = none ∧ ∀ c, ¬ s.Holds p c
  | _ => True

end State

/-! ## What a step does -/

/-- What a step changes: it writes a file, or it deletes the file of a thread that is about to, or
    it leaves the files and only what threads hold and what peers have taken changes. A thread takes
    up a file only when the sender reads it, and peers are given only what a thread holds. -/
inductive Change (config : Config Message) (s t : State Message) (e : Event Message) : Prop where
  | write (i p : Nat) (m : Message) :
      e = .write i → s.writers[i]? = some (p, m) → t.files = s.files.write p m →
      t.returned = (p, m) :: s.returned → t.handed = s.handed →
      (∀ q c, t.Holds q c → s.Holds q c) → (∀ q c, t.Deletes q c → s.Deletes q c) →
      Change config s t e
  | delete (p : Nat) (c : Option Message) :
      s.Deletes p c → t.files = s.files.delete p → t.returned = s.returned →
      t.handed = s.handed →
      (∀ q c, t.Holds q c → s.Holds q c) → (∀ q c, t.Deletes q c → s.Deletes q c) →
      Change config s t e
  | other :
      t.files = s.files → t.returned = s.returned → s.handed ⊆ t.handed →
      (∀ m ∈ t.handed, m ∈ s.handed ∨ ∃ p, s.Holds p (some m)) →
      (∀ q c, t.Holds q c → s.Holds q c ∨ (c = s.files.read q ∧ s.Reads e q)) →
      (∀ q m, t.Deletes q (some m) →
        s.Deletes q (some m) ∨ m ∈ t.handed ∨ config.accepts m = false) →
      Change config s t e

/-- A step of the sender alone. -/
theorem Change.of_sender {config : Config Message} {s : State Message} {e : Event Message}
    (x : Sender Message)
    (hholds : ∀ q c, x.Holds q c → s.sender.Holds q c ∨ (c = s.files.read q ∧ s.Reads e q))
    (hdeletes : ∀ q m, x.Deletes q (some m) →
      s.sender.Deletes q (some m) ∨ config.accepts m = false) :
    Change config s { s with sender := x } e := by
  refine .other rfl rfl (List.Subset.refl _) (fun _ hm => .inl hm) ?_ ?_
  · rintro q c (hc | hc)
    · exact (hholds q c hc).imp_left .inl
    · exact .inl (.inr hc)
  · rintro q m (hm | hm)
    · exact (hdeletes q m hm).imp .inl .inr
    · exact .inl (.inr hm)

/-- A retry that ends holds nothing any more. -/
theorem holds_endRetry {s : State Message} {i : Nat} (r : Retry Message) {q : Nat}
    {c : Option Message} (h : (s.endRetry i r).Holds q c) : s.Holds q c :=
  h.imp_right fun ⟨r', hr', hp⟩ => ⟨r', List.mem_of_mem_eraseIdx hr', hp⟩

theorem deletes_endRetry {s : State Message} {i : Nat} (r : Retry Message) {q : Nat}
    {c : Option Message} (h : (s.endRetry i r).Deletes q c) : s.Deletes q c :=
  h.imp_right fun ⟨r', hr', hp⟩ => ⟨r', List.mem_of_mem_eraseIdx hr', hp⟩

/-- A retry that goes on keeps its path and its message, and deletes its file only after it handed the
    message to a peer. -/
theorem Change.of_setRetry {config : Config Message} {s t : State Message} {e : Event Message}
    {i : Nat} {r r' : Retry Message} (hr : s.retries[i]? = some r)
    (hretries : t.retries = s.retries.set i r')
    (hpath : r'.path = r.path) (hmessage : r'.message = r.message)
    (hfiles : t.files = s.files) (hreturned : t.returned = s.returned)
    (hsender : t.sender = s.sender) (hhanded : s.handed ⊆ t.handed)
    (hnew : ∀ m ∈ t.handed, m = r.message ∨ m ∈ s.handed)
    (hphase : r'.phase = .dispatched → r'.message ∈ t.handed) : Change config s t e := by
  refine .other hfiles hreturned hhanded (fun m hm => ?_) ?_ ?_
  · rcases hnew m hm with rfl | hold
    · exact .inr ⟨r.path, .inr ⟨r, List.mem_of_getElem? hr, rfl, rfl⟩⟩
    · exact .inl hold
  · rintro q c (hc | ⟨x, hx, hp⟩)
    · rw [hsender] at hc
      exact .inl (.inl hc)
    · rw [hretries] at hx
      rcases List.mem_or_eq_of_mem_set hx with hold | rfl
      · exact .inl (.inr ⟨x, hold, hp⟩)
      · rw [hpath, hmessage] at hp
        exact .inl (.inr ⟨r, List.mem_of_getElem? hr, hp⟩)
  · rintro q m (hm | ⟨x, hx, hdispatched, hp, hm⟩)
    · rw [hsender] at hm
      exact .inl (.inl hm)
    · rw [hretries] at hx
      rcases List.mem_or_eq_of_mem_set hx with hold | rfl
      · exact .inl (.inr ⟨x, hold, hdispatched, hp, hm⟩)
      · rw [Option.some.inj hm]
        exact .inr (.inl (hphase hdispatched))

/-- A new retry takes over the path and the message of the sender. -/
theorem holds_schedule {config : Config Message} {s : State Message} {path : Nat}
    {message : Message} {r : Retry Message} (h : r ∈ (s.schedule config path message).retries) :
    r ∈ s.retries ∨ (r.path = path ∧ r.message = message ∧ r.phase = .sleeping) := by
  unfold State.schedule at h
  split at h
  · exact .inl h
  · rcases List.mem_append.1 h with hold | hnew
    · exact .inl hold
    · obtain rfl := List.mem_singleton.1 hnew
      exact .inr ⟨rfl, rfl, rfl⟩

@[simp] theorem files_schedule (config : Config Message) (s : State Message) (path : Nat)
    (message : Message) : (s.schedule config path message).files = s.files := by
  unfold State.schedule
  split <;> rfl

@[simp] theorem returned_schedule (config : Config Message) (s : State Message) (path : Nat)
    (message : Message) : (s.schedule config path message).returned = s.returned := by
  unfold State.schedule
  split <;> rfl

@[simp] theorem handed_schedule (config : Config Message) (s : State Message) (path : Nat)
    (message : Message) : (s.schedule config path message).handed = s.handed := by
  unfold State.schedule
  split <;> rfl

/-- **What one step of one thread can change.** -/
theorem step_change {config : Config Message} {s t : State Message} {e : Event Message}
    (h : step config s e = some t) : Change config s t e := by
  cases e with
  | choose message =>
    obtain rfl := Option.some.inj h
    exact .other rfl rfl (List.Subset.refl _) (fun _ hm => .inl hm) (fun _ _ hc => .inl hc)
      (fun _ _ hm => .inl hm)
  | write i =>
    obtain ⟨⟨p, m⟩, hw, hrest⟩ := Option.bind_eq_some_iff.1 h
    obtain rfl := Option.some.inj hrest
    exact .write i p m rfl hw rfl rfl rfl (fun _ _ hc => hc) (fun _ _ hc => hc)
  | start =>
    simp only [step] at h
    split at h
    · obtain rfl := Option.some.inj h
      exact .of_sender _ (fun _ _ hc => hc.elim) (fun _ _ hm => hm.elim)
    · cases h
  | list =>
    simp only [step] at h
    split at h
    · split at h
      · obtain rfl := Option.some.inj h
        exact .of_sender _ (fun _ _ hc => hc.elim) (fun _ _ hm => hm.elim)
      · obtain rfl := Option.some.inj h
        exact .of_sender _ (fun _ _ hc => hc.elim) (fun _ _ hm => hm.elim)
    · cases h
  | prepare accepted =>
    simp only [step] at h
    split at h
    · next path todo deferred hready =>
      have hreads : s.Reads (.prepare accepted) path := ⟨accepted, todo, deferred, rfl, hready⟩
      split at h
      · next message hread =>
        split_ifs at h with haccepted hrejected
        · obtain rfl := Option.some.inj h
          refine .of_sender _ (fun q c hc => .inr ?_) (fun _ _ hm => hm.elim)
          rw [hc.1, hc.2, hread]
          exact ⟨rfl, hreads⟩
        · obtain rfl := Option.some.inj h
          refine .of_sender _ (fun q c hc => .inr ?_) (fun q m hm => .inr ?_)
          · rw [hc.1, hc.2, hread]
            exact ⟨rfl, hreads⟩
          · rw [Option.some.inj hm.2]
            exact Bool.eq_false_iff.2 hrejected
      · next hread =>
        obtain rfl := Option.some.inj h
        refine .of_sender _ (fun q c hc => .inr ?_) (fun q m hm => nomatch hm.2)
        rw [hc.1, hc.2, hread]
        exact ⟨rfl, hreads⟩
    · cases h
  | stop =>
    simp only [step] at h
    split at h
    · obtain rfl := Option.some.inj h
      exact .of_sender _ (fun _ _ hc => hc.elim) (fun _ _ hm => hm.elim)
    · obtain rfl := Option.some.inj h
      exact .of_sender _ (fun _ _ hc => hc.elim) (fun _ _ hm => hm.elim)
    · cases h
  | broadcast ok =>
    simp only [step] at h
    split at h
    · next path message todo deferred hsender =>
      split_ifs at h with hok
      · obtain rfl := Option.some.inj h
        refine .other rfl rfl (List.subset_cons_self _ _) (fun m hm => ?_) ?_ ?_
        · rcases List.mem_cons.1 hm with rfl | hold
          · refine .inr ⟨path, .inl ?_⟩
            rw [hsender]
            exact ⟨rfl, rfl⟩
          · exact .inl hold
        · rintro q c (hc | hc)
          · refine .inl (.inl ?_)
            rw [hsender]
            exact hc
          · exact .inl (.inr hc)
        · rintro q m (hm | hm)
          · rw [Option.some.inj hm.2]
            exact .inr (.inl List.mem_cons_self)
          · exact .inl (.inr hm)
      · obtain rfl := Option.some.inj h
        refine .other (files_schedule _ _ _ _) (returned_schedule _ _ _ _) ?_ ?_ ?_ ?_
        · show s.handed ⊆ (s.schedule config path message).handed
          rw [handed_schedule]
          exact List.Subset.refl _
        · intro m hm
          change m ∈ (s.schedule config path message).handed at hm
          rw [handed_schedule] at hm
          exact .inl hm
        · rintro q c (hc | ⟨r, hr, hp, hc⟩)
          · exact hc.elim
          · rcases holds_schedule hr with hold | ⟨hpath, hmessage, -⟩
            · exact .inl (.inr ⟨r, hold, hp, hc⟩)
            · refine .inl (.inl ?_)
              rw [hsender]
              exact ⟨hp.trans hpath, hc.trans (congrArg some hmessage)⟩
        · rintro q m (hm | ⟨r, hr, hphase, hp⟩)
          · exact hm.elim
          · rcases holds_schedule hr with hold | ⟨-, -, hsleeping⟩
            · exact .inl (.inr ⟨r, hold, hphase, hp⟩)
            · rw [hsleeping] at hphase
              cases hphase
    · cases h
  | drop =>
    simp only [step] at h
    split at h
    · next path content todo deferred hsender =>
      obtain rfl := Option.some.inj h
      refine .delete path content (.inl ?_) rfl rfl rfl ?_ ?_
      · rw [hsender]
        exact ⟨rfl, rfl⟩
      · exact fun q c hc => .inr (hc.resolve_left fun hc => hc.elim)
      · exact fun q c hc => .inr (hc.resolve_left fun hc => hc.elim)
    · cases h
  | remove =>
    simp only [step] at h
    split at h
    · next path message todo deferred hsender =>
      obtain rfl := Option.some.inj h
      refine .delete path (some message) (.inl ?_) rfl rfl rfl ?_ ?_
      · rw [hsender]
        exact ⟨rfl, rfl⟩
      · exact fun q c hc => .inr (hc.resolve_left fun hc => hc.elim)
      · exact fun q c hc => .inr (hc.resolve_left fun hc => hc.elim)
    · cases h
  | retryWake i =>
    simp only [step] at h
    split at h
    · next r hr =>
      split at h
      · split at h
        · obtain rfl := Option.some.inj h
          exact .of_setRetry hr rfl rfl rfl rfl rfl rfl (List.Subset.refl _)
            (fun _ hm => .inr hm) (fun hp => nomatch hp)
        · obtain rfl := Option.some.inj h
          exact .other rfl rfl (List.Subset.refl _) (fun _ hm => .inl hm)
            (fun q c hc => .inl (holds_endRetry r hc)) (fun q m hm => .inl (deletes_endRetry r hm))
      · cases h
    · cases h
  | retryBroadcast i ok =>
    simp only [step] at h
    split at h
    · next r hr =>
      split at h
      · split_ifs at h with hok hlast
        · obtain rfl := Option.some.inj h
          exact .of_setRetry hr rfl rfl rfl rfl rfl rfl (List.subset_cons_self _ _)
            (fun _ hm => List.mem_cons.1 hm) (fun _ => List.mem_cons_self)
        · obtain rfl := Option.some.inj h
          exact .other rfl rfl (List.Subset.refl _) (fun _ hm => .inl hm)
            (fun q c hc => .inl (holds_endRetry r hc)) (fun q m hm => .inl (deletes_endRetry r hm))
        · obtain rfl := Option.some.inj h
          exact .of_setRetry hr rfl rfl rfl rfl rfl rfl (List.Subset.refl _)
            (fun _ hm => .inr hm) (fun hp => nomatch hp)
      · cases h
    · cases h
  | retryRemove i =>
    simp only [step] at h
    split at h
    · next r hr =>
      split at h
      · next hphase =>
        obtain rfl := Option.some.inj h
        refine .delete r.path (some r.message)
          (.inr ⟨r, List.mem_of_getElem? hr, hphase, rfl, rfl⟩) rfl rfl rfl
          (fun q c hc => holds_endRetry r hc) (fun q c hc => deletes_endRetry r hc)
      · cases h
    · cases h

/-! ## Runs -/

/-- The invariant of undisturbed runs: where a thread holds a path, the file is the one it read or is
    gone; what a thread deletes was handed to a peer or is not accepted; and a live message is in the
    file that it was written to. -/
structure Kept (config : Config Message) (s : State Message) : Prop where
  held : ∀ p c, s.Holds p c → s.files.read p = none ∨ s.files.read p = c
  done : ∀ p m, s.Deletes p (some m) → m ∈ s.handed ∨ config.accepts m = false
  live : ∀ w, s.Live config w → s.files.read w.1 = some w.2

theorem kept_initial (config : Config Message) (files : Files Message) :
    Kept config (State.initial files) where
  held := fun _ _ h => h.elim (fun h => h.elim) fun ⟨_, hr, _⟩ => nomatch hr
  done := fun _ _ h => h.elim (fun h => h.elim) fun ⟨_, hr, _⟩ => nomatch hr
  live := fun _ h => nomatch h.1

theorem Kept.safe {config : Config Message} {s : State Message} (h : Kept config s) :
    s.Safe config where
  readable := fun w hw => ⟨w.1, h.live w hw⟩
  separate := fun v w hv hw hvw => by
    have hread := h.live v hv
    rw [hvw, h.live w hw] at hread
    exact (Option.some.inj hread).symm
  deletes := fun p c hc => h.held p c hc.holds

/-- An undisturbed step keeps the invariant. -/
theorem Kept.step {config : Config Message} {s t : State Message} {e : Event Message}
    (h : Kept config s) (hfree : s.Undisturbed e) (hstep : step config s e = some t) :
    Kept config t := by
  cases step_change hstep with
  | write i p m he hw hfiles hreturned hhanded hholds hdeletes =>
    subst he
    obtain ⟨hnone, hnotheld⟩ := hfree p m hw
    refine ⟨fun q c hc => ?_, fun q m' hm => ?_, fun w hlive => ?_⟩
    · have hold := hholds q c hc
      have hne : q ≠ p := fun hqp => hnotheld c (hqp ▸ hold)
      rw [hfiles, Files.read_write_of_ne m s.files hne]
      exact h.held q c hold
    · rw [hhanded]
      exact h.done q m' (hdeletes q _ hm)
    · obtain ⟨hmem, haccepts, hnot⟩ := hlive
      rw [hreturned] at hmem
      rw [hhanded] at hnot
      rcases List.mem_cons.1 hmem with rfl | hold
      · rw [hfiles, Files.read_write_self]
      · have hread := h.live w ⟨hold, haccepts, hnot⟩
        have hne : w.1 ≠ p := by
          intro hwp
          rw [hwp, hnone] at hread
          cases hread
        rw [hfiles, Files.read_write_of_ne m s.files hne, hread]
  | delete p c hc hfiles hreturned hhanded hholds hdeletes =>
    refine ⟨fun q d hd => ?_, fun q m hm => ?_, fun w hlive => ?_⟩
    · rw [hfiles]
      by_cases hqp : q = p
      · rw [hqp, Files.read_delete_self]
        exact .inl rfl
      · rw [Files.read_delete_of_ne s.files hqp]
        exact h.held q d (hholds q d hd)
    · rw [hhanded]
      exact h.done q m (hdeletes q _ hm)
    · obtain ⟨hmem, haccepts, hnot⟩ := hlive
      rw [hreturned] at hmem
      rw [hhanded] at hnot
      have hread := h.live w ⟨hmem, haccepts, hnot⟩
      -- the deleted file held what its thread had read, which is not live
      have hne : w.1 ≠ p := by
        rintro rfl
        rcases h.held _ c hc.holds with hgone | hsame
        · rw [hgone] at hread
          cases hread
        · rw [hread] at hsame
          subst hsame
          rcases h.done _ _ hc with hdone | hrejected
          · exact hnot hdone
          · rw [haccepts] at hrejected
            cases hrejected
      rw [hfiles, Files.read_delete_of_ne s.files hne, hread]
  | other hfiles hreturned hhanded _ hholds hdeletes =>
    refine ⟨fun q c hc => ?_, fun q m hm => ?_, fun w hlive => ?_⟩
    · rw [hfiles]
      rcases hholds q c hc with hold | ⟨hread, -⟩
      · exact h.held q c hold
      · exact .inr hread.symm
    · rcases hdeletes q m hm with hold | hrest
      · exact (h.done q m hold).imp_left fun hin => hhanded hin
      · exact hrest
    · obtain ⟨hmem, haccepts, hnot⟩ := hlive
      rw [hreturned] at hmem
      rw [hfiles]
      exact h.live w ⟨hmem, haccepts, fun hin => hnot (hhanded hin)⟩

/-- A queue that accepts every text, with the default number of retries. -/
def sampleConfig : Config String := ⟨fun _ => true, 12⟩

/-- A transfer that was written and not sent yet. -/
def queuedState : State String :=
  ⟨[(1, "a")], [], .idle, [], [], [(1, "a")], []⟩

theorem reaches_queuedState :
    Runs.Reaches (step sampleConfig) State.Undisturbed (State.initial []) queuedState := by
  have hchosen : Runs.Reaches (step sampleConfig) State.Undisturbed (State.initial [])
      ⟨[], [(1, "a")], .idle, [], [], [], []⟩ :=
    Runs.Reaches.refl.next (e := .choose "a") trivial rfl
  refine hchosen.next (e := .write 0) ?_ rfl
  intro p m hwriter
  obtain ⟨rfl, rfl⟩ := Prod.mk.inj (Option.some.inj hwriter)
  exact ⟨rfl, fun c hc => hc.elim (fun hc => hc.elim) fun ⟨_, hr, _⟩ => nomatch hr⟩

/-- A hand-off that fails leaves a retry asleep. A second send hands the transfer off, its number is
    taken by the next one, and the retry wakes up. -/
def lateRetry : List (Event String) :=
  [.choose "a", .write 0, .start, .list, .prepare true, .broadcast false, .list,
    .start, .list, .prepare true, .broadcast true, .remove, .list,
    .choose "b", .write 0, .retryWake 0, .retryBroadcast 0 true, .retryRemove 0]

end OutgoingQueue
