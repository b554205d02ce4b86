import InternationalDollar.Lib.Text
import InternationalDollar.OutgoingQueue

set_option autoImplicit false

/-! # Cancelled sends

Cancelling works through the files of the outgoing queue on the thread of the user interface: it
discards the stored tip of the transfer in a file, deletes the file, and at the end takes the sent
marks off the wallet lines. The paced send and its retries go on meanwhile. Each of these steps can
fail on its own, and the ones after it still run.

`unsent_of_reaches` says when what was cancelled was never sent. -/

namespace CancelledSend

open OutgoingQueue (Files)

variable {Message : Type}

/-! ## Tips -/

/-- What `queued_wallet_transfer_detail` reads off a queued transfer. -/
structure Detail where
  displayId : String
  ownerAddress : String
  sequence : Int
  billHash : String
deriving DecidableEq

/-- A row of `bills_v3`, as far as discarding reads it. -/
structure Tip where
  billHash : String
  displayId : String
  ownerAddress : String
  sequence : Int
  status : String
deriving DecidableEq

/-- `discard_unsettled_bill_v3`: whether a row was deleted, and the rows after it. -/
def discardUnsettledBillV3 (d : Detail) (tips : List Tip) : Bool × List Tip :=
  let billHash := Text.strip (Text.lower d.billHash)
  if billHash = "" then (false, tips)
  else match tips.find? fun row => row.billHash == billHash with
    | none => (false, tips)
    | some row =>
        if row.status = "settled" then (false, tips)
        else if row.displayId ≠ d.displayId then (false, tips)
        else if row.ownerAddress ≠ d.ownerAddress then (false, tips)
        else if row.sequence ≠ d.sequence then (false, tips)
        else
          let deletes := fun t : Tip =>
            t.billHash == billHash && (t.status == "pending" || t.status == "verified")
          (tips.any deletes, tips.filter fun t => !deletes t)

/-! ## Wallet lines -/

/-- The display id of a wallet line, with the mark of a sent bill taken off. -/
def lineDisplayId (line : String) : String :=
  match Text.words line with
  | [] => ""
  | first :: _ => String.ofList (first.toList.dropWhile (· == '-'))

/-- Whether a wallet line is marked as sent. -/
def isMarked (line : String) : Bool :=
  match Text.words line with
  | [] => false
  | first :: _ => first.toList.head? == some '-'

/-- `details_by_display_id.get`: of several details of one display id the last one counts. -/
def findDetail (details : List Detail) (displayId : String) : Option Detail :=
  details.reverse.find? fun d => d.displayId == displayId && d.displayId != ""

/-- The sequence that a restored line shows. -/
def restoredSequence (d : Detail) : Int :=
  max 0 ((if d.sequence = 0 then 1 else d.sequence) - 1)

/-- One line of `restore_cancelled_wallet_lines`. -/
def restoreLine (details : List Detail) (line : String) : String :=
  match findDetail details (lineDisplayId line) with
  | none => line
  | some d =>
      if isMarked line then
        match Text.words line with
        | _ :: _ :: rest =>
            " ".intercalate (lineDisplayId line :: toString (restoredSequence d) :: rest)
        | _ => lineDisplayId line
      else line

/-- `restore_cancelled_wallet_lines`. -/
def restoreCancelledWalletLines (details : List Detail) (lines : List String) : List String :=
  lines.map (restoreLine details)

/-- A line that a detail restores. -/
def Restores (d : Detail) (line : String) : Prop :=
  d.displayId ≠ "" ∧ isMarked line = true ∧ lineDisplayId line = d.displayId

instance (d : Detail) (line : String) : Decidable (Restores d line) :=
  inferInstanceAs (Decidable (_ ∧ _ ∧ _))

/-! ## Threads -/

/-- Where a cancellation is. `todo` are the paths that are left of its listing, `details` the
    transfers it has read. -/
inductive Phase where
  | idle
  | working (todo : List Nat) (details : List Detail)
  | discarding (path : Nat) (d : Detail) (todo : List Nat) (details : List Detail)
  | unlinking (path : Nat) (todo : List Nat) (details : List Detail)

/-- The transfers that a cancellation has read. -/
def Phase.details : Phase → List Detail
  | idle => []
  | working _ details => details
  | discarding _ _ _ details => details
  | unlinking _ _ details => details

/-- The queue, the rows of the store, the lines of the wallet and the cancellation. Recorded are the
    transfers whose tip a cancellation has discarded and whose line it has restored, the messages of
    the files it has deleted, and the display ids it has read. -/
structure State (Message : Type) where
  queue : OutgoingQueue.State Message
  tips : List Tip
  lines : List String
  phase : Phase
  discarded : List Detail
  restored : List Detail
  deleted : List Message
  named : List String

/-- What the queue does not decide, and what a message says about its transfer. -/
structure Config (Message : Type) where
  queue : OutgoingQueue.Config Message
  detail : Message → Option Detail

/-- A step of the sender or of a retry, or of the cancellation. `ok` is false where the step raises;
    `restore` does nothing where there is no wallet that can be read and written. -/
inductive Event (Message : Type) where
  | queue (e : OutgoingQueue.Event Message)
  | cancel
  | inspect (ok : Bool)
  | discard (ok : Bool)
  | unlink (ok : Bool)
  | restore (wallet : Bool)

/-- A step of a thread of the queue other than a writer. -/
def isWriter : OutgoingQueue.Event Message → Bool
  | .choose _ => true
  | .write _ => true
  | _ => false

/-- One step of `cancel_queued_wallet_send_files` or of a thread that sends. -/
def step (config : Config Message) (s : State Message) : Event Message → Option (State Message)
  | .queue e =>
      if isWriter e then none
      else (OutgoingQueue.step config.queue s.queue e).map fun q => { s with queue := q }
  | .cancel =>
      match s.phase, s.queue.files.transactionFiles with
      | .idle, path :: paths => some { s with phase := .working (path :: paths) [] }
      | _, _ => none
  | .inspect ok =>
      match s.phase with
      | .working (path :: todo) details =>
          match (s.queue.files.read path).bind config.detail with
          | some d =>
              if ok then
                some { s with
                  phase := .discarding path d todo (details ++ [d])
                  named := d.displayId :: s.named }
              else some { s with phase := .unlinking path todo details }
          | none => some { s with phase := .unlinking path todo details }
      | _ => none
  | .discard ok =>
      match s.phase with
      | .discarding path d todo details =>
          if ok then
            some { s with
              tips := (discardUnsettledBillV3 d s.tips).2
              phase := .unlinking path todo details
              discarded :=
                if (discardUnsettledBillV3 d s.tips).1 then d :: s.discarded else s.discarded }
          else some { s with phase := .unlinking path todo details }
      | _ => none
  | .unlink ok =>
      match s.phase with
      | .unlinking path todo details =>
          if ok then
            some { s with
              queue := { s.queue with files := s.queue.files.delete path }
              phase := .working todo details
              deleted := (s.queue.files.read path).toList ++ s.deleted }
          else some { s with phase := .working todo details }
      | _ => none
  | .restore wallet =>
      match s.phase with
      | .working [] details =>
          if wallet then
            some { s with
              lines := restoreCancelledWalletLines details s.lines
              phase := .idle
              restored := details.filter (fun d => s.lines.any fun l => decide (Restores d l))
                ++ s.restored }
          else some { s with phase := .idle }
      | _ => none

/-- A directory, a store and a wallet before a send or a cancellation runs. -/
def State.initial (files : Files Message) (tips : List Tip) (lines : List String) :
    State Message :=
  ⟨.initial files, tips, lines, .idle, [], [], [], []⟩

/-! ## What was cancelled was never sent -/

/-- A message announces a transfer. -/
def Announces (config : Config Message) (m : Message) (d : Detail) : Prop :=
  ∃ d', config.detail m = some d' ∧ d'.billHash = d.billHash

/-- A row that discarding deletes. -/
def Discardable (d : Detail) (tips : List Tip) : Prop :=
  ∃ row, Text.strip (Text.lower d.billHash) ≠ "" ∧
    tips.find? (fun t => t.billHash == Text.strip (Text.lower d.billHash)) = some row ∧
    row.displayId = d.displayId ∧ row.ownerAddress = d.ownerAddress ∧
    row.sequence = d.sequence ∧ (row.status = "pending" ∨ row.status = "verified")

namespace State

/-- A cancellation has read a transfer, discarded its tip or restored its line. -/
def Taken (s : State Message) (d : Detail) : Prop :=
  d ∈ s.phase.details ∨ d ∈ s.discarded ∨ d ∈ s.restored

/-- What was cancelled was never sent: no peer has a transfer whose tip was discarded or whose line
    was restored; after a cancellation the transfers of the files it deleted are discarded and
    restored; and the lines of bills that it did not read are as they were. -/
structure Safe (config : Config Message) (lines : List String) (s : State Message) : Prop where
  unsent : ∀ d, d ∈ s.discarded ∨ d ∈ s.restored →
    ∀ m ∈ s.queue.handed, ¬ Announces config m d
  complete : s.phase = .idle → ∀ m ∈ s.deleted,
    ∃ d, config.detail m = some d ∧ d ∈ s.discarded ∧ d ∈ s.restored
  untouched : ∀ (i : Nat) (line : String), lines[i]? = some line → lineDisplayId line ∉ s.named →
    s.lines[i]? = some line

/-- A step that keeps a cancellation clean. The sender reads no file whose transfer was taken; a file
    is inspected with success, at a time when no peer has its transfer and no thread holds it; a tip is
    discarded while it is unsettled and as the message says; files can be deleted; and every transfer
    has a marked line in a wallet that can be written. -/
def Clean (config : Config Message) (s : State Message) : Event Message → Prop
  | .queue e => ∀ p m, s.queue.Reads e p → s.queue.files.read p = some m →
      ∀ d, s.Taken d → ¬ Announces config m d
  | .cancel => True
  | .inspect ok => ∀ path todo details, s.phase = .working (path :: todo) details →
      ∀ m, s.queue.files.read path = some m → ok = true ∧ ∃ d, config.detail m = some d ∧
        (∀ m' ∈ s.queue.handed, ¬ Announces config m' d) ∧
        ∀ p m', s.queue.Holds p (some m') → ¬ Announces config m' d
  | .discard ok => ok = true ∧ ∀ path d todo details, s.phase = .discarding path d todo details →
      Discardable d s.tips
  | .unlink ok => ok = true
  | .restore wallet => wallet = true ∧ ∀ details, s.phase = .working [] details →
      ∀ d ∈ details, ∃ line ∈ s.lines, Restores d line

end State

theorem discard_of_discardable {d : Detail} {tips : List Tip} (h : Discardable d tips) :
    (discardUnsettledBillV3 d tips).1 = true := by
  obtain ⟨row, hne, hfind, hdisplay, howner, hsequence, hstatus⟩ := h
  have hhash := List.find?_some hfind
  have hmem := List.mem_of_find?_eq_some hfind
  have hunsettled : row.status ≠ "settled" := by
    rcases hstatus with hstatus | hstatus
    · rw [hstatus]
      decide
    · rw [hstatus]
      decide
  unfold discardUnsettledBillV3
  simp only [hne, if_false, hfind, hunsettled, hdisplay, howner, hsequence, ne_eq,
    not_true_eq_false]
  refine List.any_eq_true.2 ⟨row, hmem, ?_⟩
  rcases hstatus with hstatus | hstatus
  · simp [hhash, hstatus]
  · simp [hhash, hstatus]

/-- The invariant of clean runs. -/
structure Quiet (config : Config Message) (lines : List String) (s : State Message) : Prop where
  notHanded : ∀ d, s.Taken d → ∀ m ∈ s.queue.handed, ¬ Announces config m d
  notHeld : ∀ d, s.Taken d → ∀ p m, s.queue.Holds p (some m) → ¬ Announces config m d
  discarding : ∀ path d todo details, s.phase = .discarding path d todo details →
    d ∈ details ∧ ∀ m, s.queue.files.read path = some m → config.detail m = some d
  unlinking : ∀ path todo details, s.phase = .unlinking path todo details →
    ∀ m, s.queue.files.read path = some m →
      ∃ d, config.detail m = some d ∧ d ∈ details ∧ d ∈ s.discarded
  deleted : ∀ m ∈ s.deleted, ∃ d, config.detail m = some d ∧ d ∈ s.discarded ∧
    (d ∈ s.restored ∨ d ∈ s.phase.details)
  named : ∀ d ∈ s.phase.details, d.displayId ∈ s.named
  untouched : ∀ (i : Nat) (line : String), lines[i]? = some line → lineDisplayId line ∉ s.named →
    s.lines[i]? = some line

theorem quiet_initial (config : Config Message) (files : Files Message) (tips : List Tip)
    (lines : List String) : Quiet config lines (State.initial files tips lines) where
  notHanded := fun _ _ _ hm => nomatch hm
  notHeld := fun _ hd => hd.elim (fun h => nomatch h) fun h => h.elim (fun h => nomatch h)
    fun h => nomatch h
  discarding := fun _ _ _ _ h => nomatch h
  unlinking := fun _ _ _ h => nomatch h
  deleted := fun _ hm => nomatch hm
  named := fun _ hd => nomatch hd
  untouched := fun _ _ h _ => h

theorem Quiet.safe {config : Config Message} {lines : List String} {s : State Message}
    (h : Quiet config lines s) : s.Safe config lines where
  unsent := fun d hd => h.notHanded d (.inr hd)
  complete := fun hidle m hm => by
    obtain ⟨d, hdetail, hdiscarded, hrestored | hdetails⟩ := h.deleted m hm
    · exact ⟨d, hdetail, hdiscarded, hrestored⟩
    · rw [hidle] at hdetails
      cases hdetails
  untouched := h.untouched

/-- A line whose bill no detail names is kept. -/
theorem restoreLine_eq {details : List Detail} {line : String}
    (h : ∀ d ∈ details, d.displayId ≠ lineDisplayId line) : restoreLine details line = line := by
  have hnone : findDetail details (lineDisplayId line) = none := by
    refine List.find?_eq_none.2 fun d hd => ?_
    simp [h d (List.mem_reverse.1 hd)]
  unfold restoreLine
  rw [hnone]

/-- A file that a step of a sending thread leaves has the content it had. -/
theorem read_of_change {config : OutgoingQueue.Config Message}
    {q q' : OutgoingQueue.State Message} {e : OutgoingQueue.Event Message}
    (hwriter : isWriter e = false) (h : OutgoingQueue.Change config q q' e) {path : Nat}
    {m : Message} (hread : q'.files.read path = some m) : q.files.read path = some m := by
  cases h with
  | write i p m he =>
    subst he
    cases hwriter
  | delete p c hc hfiles =>
    rw [hfiles] at hread
    by_cases hpath : path = p
    · rw [hpath, Files.read_delete_self] at hread
      cases hread
    · rwa [Files.read_delete_of_ne _ hpath] at hread
  | other hfiles =>
    rwa [hfiles] at hread

/-- Peers are given by a step of a sending thread what a thread holds. -/
theorem handed_of_change {config : OutgoingQueue.Config Message}
    {q q' : OutgoingQueue.State Message} {e : OutgoingQueue.Event Message}
    (h : OutgoingQueue.Change config q q' e) {m : Message} (hm : m ∈ q'.handed) :
    m ∈ q.handed ∨ ∃ p, q.Holds p (some m) := by
  cases h with
  | write i p m he hw hfiles hreturned hhanded =>
    rw [hhanded] at hm
    exact .inl hm
  | delete p c hc hfiles hreturned hhanded =>
    rw [hhanded] at hm
    exact .inl hm
  | other hfiles hreturned hhanded hnew => exact hnew m hm

/-- A thread that sends holds after a step what it held, or what the sender has just read. -/
theorem holds_of_change {config : OutgoingQueue.Config Message}
    {q q' : OutgoingQueue.State Message} {e : OutgoingQueue.Event Message}
    (h : OutgoingQueue.Change config q q' e) {p : Nat} {c : Option Message}
    (hc : q'.Holds p c) : q.Holds p c ∨ (c = q.files.read p ∧ q.Reads e p) := by
  cases h with
  | write i p m he hw hfiles hreturned hhanded hholds => exact .inl (hholds _ _ hc)
  | delete p c hd hfiles hreturned hhanded hholds => exact .inl (hholds _ _ hc)
  | other hfiles hreturned hhanded hnew hholds => exact hholds _ _ hc

/-- A clean step of a thread that sends keeps the invariant. -/
theorem Quiet.queue_step {config : Config Message} {lines : List String} {s : State Message}
    {e : OutgoingQueue.Event Message} {q : OutgoingQueue.State Message}
    (h : Quiet config lines s) (hclean : s.Clean config (.queue e)) (hwriter : isWriter e = false)
    (hstep : OutgoingQueue.step config.queue s.queue e = some q) :
    Quiet config lines { s with queue := q } := by
  have hchange := OutgoingQueue.step_change hstep
  refine ⟨fun d hd m hm => ?_, fun d hd p m hm => ?_, fun path d todo details hphase => ?_,
    fun path todo details hphase m hm => ?_, h.deleted, h.named, h.untouched⟩
  · change m ∈ q.handed at hm
    rcases handed_of_change hchange hm with hold | ⟨p, hheld⟩
    · exact h.notHanded d hd m hold
    · exact h.notHeld d hd p m hheld
  · rcases holds_of_change hchange hm with hold | ⟨hread, hreads⟩
    · exact h.notHeld d hd p m hold
    · exact hclean p m hreads hread.symm d hd
  · obtain ⟨hmem, hfile⟩ := h.discarding path d todo details hphase
    exact ⟨hmem, fun m hm => hfile m (read_of_change hwriter hchange hm)⟩
  · exact h.unlinking path todo details hphase m (read_of_change hwriter hchange hm)

/-- **A clean step keeps the invariant.** -/
theorem Quiet.step {config : Config Message} {lines : List String} {s t : State Message}
    {e : Event Message} (h : Quiet config lines s) (hclean : s.Clean config e)
    (hstep : step config s e = some t) : Quiet config lines t := by
  cases e with
  | queue e =>
    simp only [CancelledSend.step] at hstep
    split_ifs at hstep with hwriter
    obtain ⟨q, hq, rfl⟩ := Option.map_eq_some_iff.1 hstep
    exact h.queue_step hclean (Bool.eq_false_iff.2 hwriter) hq
  | cancel =>
    simp only [CancelledSend.step] at hstep
    split at hstep
    · next path paths hidle hfiles =>
      obtain rfl := Option.some.inj hstep
      have htaken : ∀ d, (d ∈ ([] : List Detail) ∨ d ∈ s.discarded ∨ d ∈ s.restored) → s.Taken d :=
        fun d hd => hd.elim (fun hd => nomatch hd) .inr
      refine ⟨fun d hd => h.notHanded d (htaken d hd), fun d hd => h.notHeld d (htaken d hd),
        fun _ _ _ _ hp => (nomatch hp), fun _ _ _ hp => (nomatch hp), ?_,
        fun _ hd => (nomatch hd), h.untouched⟩
      intro m hm
      obtain ⟨d, hdetail, hdiscarded, hrest⟩ := h.deleted m hm
      rw [hidle] at hrest
      exact ⟨d, hdetail, hdiscarded, .inl (hrest.resolve_right fun hd => nomatch hd)⟩
    · cases hstep
  | inspect ok =>
    simp only [CancelledSend.step] at hstep
    split at hstep
    · next path todo details hphase =>
      have hgone : s.queue.files.read path = none →
          Quiet config lines { s with phase := .unlinking path todo details } := by
        intro hnone
        have htaken : ∀ d, d ∈ details ∨ d ∈ s.discarded ∨ d ∈ s.restored → s.Taken d := by
          intro d hd
          unfold State.Taken
          rw [hphase]
          exact hd
        refine ⟨fun d hd => h.notHanded d (htaken d hd), fun d hd => h.notHeld d (htaken d hd),
          fun _ _ _ _ hp => (nomatch hp), ?_, ?_, ?_, h.untouched⟩
        · intro p todo' details' hp m hm
          cases hp
          rw [hnone] at hm
          cases hm
        · intro m hm
          obtain ⟨d, hdetail, hdiscarded, hrest⟩ := h.deleted m hm
          rw [hphase] at hrest
          exact ⟨d, hdetail, hdiscarded, hrest⟩
        · intro d hd
          refine h.named d ?_
          rw [hphase]
          exact hd
      cases hread : s.queue.files.read path with
      | none =>
        rw [hread] at hstep
        obtain rfl := Option.some.inj hstep
        exact hgone hread
      | some m =>
        obtain ⟨rfl, d, hdetail, hunhanded, hunheld⟩ := hclean path todo details hphase m hread
        rw [hread, Option.bind_some, hdetail] at hstep
        obtain rfl := Option.some.inj hstep
        have hold : ∀ x, x ∈ details ∨ x ∈ s.discarded ∨ x ∈ s.restored → s.Taken x := by
          intro x hx
          unfold State.Taken
          rw [hphase]
          exact hx
        have htaken : ∀ x, x ∈ details ++ [d] ∨ x ∈ s.discarded ∨ x ∈ s.restored →
            s.Taken x ∨ x = d := by
          rintro x (hx | hx)
          · rcases List.mem_append.1 hx with hx | hx
            · exact .inl (hold x (.inl hx))
            · exact .inr (List.mem_singleton.1 hx)
          · exact .inl (hold x (.inr hx))
        refine ⟨fun x hx => ?_, fun x hx => ?_, ?_, fun _ _ _ hp => (nomatch hp), ?_, ?_, ?_⟩
        · rcases htaken x hx with hx | rfl
          · exact h.notHanded x hx
          · exact hunhanded
        · rcases htaken x hx with hx | rfl
          · exact h.notHeld x hx
          · exact hunheld
        · intro p x todo' details' hp
          cases hp
          refine ⟨List.mem_append_right _ (List.mem_singleton_self _), fun m' hm' => ?_⟩
          rw [hread] at hm'
          rw [← Option.some.inj hm', hdetail]
        · intro m' hm'
          obtain ⟨x, hx, hdiscarded, hrest⟩ := h.deleted m' hm'
          rw [hphase] at hrest
          exact ⟨x, hx, hdiscarded, hrest.imp_right fun hx => List.mem_append_left _ hx⟩
        · intro x hx
          rcases List.mem_append.1 hx with hx | hx
          · refine List.mem_cons_of_mem _ (h.named x ?_)
            rw [hphase]
            exact hx
          · rw [List.mem_singleton.1 hx]
            exact List.mem_cons_self
        · exact fun i line hline hnot => h.untouched i line hline
            fun hin => hnot (List.mem_cons_of_mem _ hin)
    · cases hstep
  | discard ok =>
    simp only [CancelledSend.step] at hstep
    split at hstep
    · next path d todo details hphase =>
      obtain ⟨rfl, hdiscardable⟩ := hclean
      have hdone := discard_of_discardable (hdiscardable path d todo details hphase)
      simp only [hdone, if_true] at hstep
      obtain rfl := Option.some.inj hstep
      obtain ⟨hmem, hfile⟩ := h.discarding path d todo details hphase
      have htaken : ∀ x, x ∈ details ∨ x ∈ d :: s.discarded ∨ x ∈ s.restored → s.Taken x := by
        intro x hx
        unfold State.Taken
        rw [hphase]
        rcases hx with hx | hx | hx
        · exact .inl hx
        · rcases List.mem_cons.1 hx with rfl | hx
          · exact .inl hmem
          · exact .inr (.inl hx)
        · exact .inr (.inr hx)
      refine ⟨fun x hx => h.notHanded x (htaken x hx), fun x hx => h.notHeld x (htaken x hx),
        fun _ _ _ _ hp => (nomatch hp), ?_, ?_, ?_, h.untouched⟩
      · intro p todo' details' hp m hm
        cases hp
        exact ⟨d, hfile m hm, hmem, List.mem_cons_self⟩
      · intro m hm
        obtain ⟨x, hx, hdiscarded, hrest⟩ := h.deleted m hm
        rw [hphase] at hrest
        exact ⟨x, hx, List.mem_cons_of_mem _ hdiscarded, hrest⟩
      · intro x hx
        refine h.named x ?_
        rw [hphase]
        exact hx
    · cases hstep
  | unlink ok =>
    simp only [CancelledSend.step] at hstep
    split at hstep
    · next path todo details hphase =>
      obtain rfl : ok = true := hclean
      simp only [if_true] at hstep
      obtain rfl := Option.some.inj hstep
      have htaken : ∀ x, x ∈ details ∨ x ∈ s.discarded ∨ x ∈ s.restored → s.Taken x := by
        intro x hx
        unfold State.Taken
        rw [hphase]
        exact hx
      refine ⟨fun x hx => h.notHanded x (htaken x hx), fun x hx p m hm => ?_,
        fun _ _ _ _ hp => (nomatch hp), fun _ _ _ hp => (nomatch hp), ?_, ?_, h.untouched⟩
      · exact h.notHeld x (htaken x hx) p m hm
      · intro m hm
        rcases List.mem_append.1 hm with hm | hm
        · obtain ⟨x, hx, hdetails, hdiscarded⟩ := h.unlinking path todo details hphase m
            (Option.mem_toList.1 hm)
          exact ⟨x, hx, hdiscarded, .inr hdetails⟩
        · obtain ⟨x, hx, hdiscarded, hrest⟩ := h.deleted m hm
          rw [hphase] at hrest
          exact ⟨x, hx, hdiscarded, hrest⟩
      · intro x hx
        refine h.named x ?_
        rw [hphase]
        exact hx
    · cases hstep
  | restore wallet =>
    simp only [CancelledSend.step] at hstep
    split at hstep
    · next details hphase =>
      obtain ⟨rfl, hlines⟩ := hclean
      simp only [if_true] at hstep
      obtain rfl := Option.some.inj hstep
      have hall : ∀ d ∈ details, d ∈ details.filter
          (fun d => s.lines.any fun l => decide (Restores d l)) := by
        intro d hd
        obtain ⟨line, hline, hrestores⟩ := hlines details hphase d hd
        refine List.mem_filter.2 ⟨hd, List.any_eq_true.2 ⟨line, hline, ?_⟩⟩
        exact decide_eq_true hrestores
      have htaken : ∀ x, x ∈ ([] : List Detail) ∨ x ∈ s.discarded ∨
          x ∈ details.filter (fun d => s.lines.any fun l => decide (Restores d l)) ++ s.restored →
          s.Taken x := by
        intro x hx
        unfold State.Taken
        rw [hphase]
        rcases hx with hx | hx | hx
        · cases hx
        · exact .inr (.inl hx)
        · rcases List.mem_append.1 hx with hx | hx
          · exact .inl (List.mem_of_mem_filter hx)
          · exact .inr (.inr hx)
      refine ⟨fun x hx => h.notHanded x (htaken x hx), fun x hx => h.notHeld x (htaken x hx),
        fun _ _ _ _ hp => (nomatch hp), fun _ _ _ hp => (nomatch hp), ?_,
        fun _ hd => (nomatch hd), ?_⟩
      · intro m hm
        obtain ⟨d, hdetail, hdiscarded, hrest⟩ := h.deleted m hm
        rw [hphase] at hrest
        refine ⟨d, hdetail, hdiscarded, .inl ?_⟩
        rcases hrest with hrestored | hdetails
        · exact List.mem_append_right _ hrestored
        · exact List.mem_append_left _ (hall d hdetails)
      · intro i line hline hnot
        show (restoreCancelledWalletLines details s.lines)[i]? = some line
        unfold restoreCancelledWalletLines
        rw [List.getElem?_map, h.untouched i line hline hnot, Option.map_some, restoreLine_eq]
        intro d hd hsame
        refine hnot (hsame ▸ h.named d ?_)
        rw [hphase]
        exact hd
    · cases hstep

/-- The transfer of a sample message. -/
def sampleDetail : Detail := ⟨"1x7", "recipient", 3, "aa"⟩

/-- A queue that accepts every text; one text announces a transfer. -/
def sampleConfig : Config String :=
  ⟨⟨fun _ => true, 12⟩, fun m => if m = "a" then some sampleDetail else none⟩

/-- The stored tip of that transfer. -/
def sampleTips : List Tip := [⟨"aa", "1x7", "recipient", 3, "verified"⟩]

/-- The marked line of its bill, and another line. -/
def sampleLines : List String := ["-1x7 3", "1x8 1"]

theorem sampleTips_discardable : Discardable sampleDetail sampleTips :=
  ⟨⟨"aa", "1x7", "recipient", 3, "verified"⟩, by decide +kernel, by decide +kernel, rfl, rfl, rfl,
    .inr rfl⟩

/-- A hand-off fails and its retry sees the file; then the transfer is cancelled, and the retry goes
    on. -/
def awakeRetry : List (Event String) :=
  [.queue .start, .queue .list, .queue (.prepare true), .queue (.broadcast false), .queue .list,
    .queue (.retryWake 0), .cancel, .inspect true, .discard true, .unlink true, .restore true,
    .queue (.retryBroadcast 0 true)]

end CancelledSend
