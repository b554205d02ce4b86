import InternationalDollar.CheckpointIndex
import InternationalDollar.Lib.OrderedCommit
import InternationalDollar.WalletSpend

set_option autoImplicit false

/-! # Spending many bills (`wallet_services`, `spend_wallet_bills_batch`)

A pool of workers prepares the spends, in any order, while the commits are made in the order of the lines.
A commit is two writes, to the store and to the outgoing queue. If the second fails, the line ends with an
error although its new tip is stored, and the bill can be neither sent nor spent again.

`spendsOneByOne_of_reaches` says what holds of every run in which this does not happen and in which no
commit reaches into the token of a later line. -/

/-- `recipient_address`: one for all lines, one for each line, or one for each display id. -/
inductive Recipients where
  | one (address : String)
  | listed (addresses : List String)
  | byDisplayId (addresses : String → Option String)

/-- `_batch_recipient_address`. -/
def Recipients.batchRecipientAddress (index : Nat) (displayId : String) :
    Recipients → Except String String
  | .one address => .ok address
  | .listed addresses => Check.ofOption addresses[index]? "list index out of range"
  | .byDisplayId addresses => Check.ofOption (addresses displayId) ("'" ++ displayId ++ "'")

/-- What the caller and the machine say about the number of workers. -/
structure PoolSettings where
  workers : Option Int
  environment : Option Int
  cpuCount : Option Nat

/-- `wallet_sign_worker_count`. -/
def PoolSettings.walletSignWorkerCount (settings : PoolSettings) (batchSize : Nat) : Nat :=
  if batchSize ≤ 1 then 1
  else
    let chosen := (settings.workers.or settings.environment).getD (min (settings.cpuCount.getD 1) 4)
    (max 1 (min (batchSize : Int) chosen)).toNat

theorem PoolSettings.walletSignWorkerCount_pos (settings : PoolSettings) (batchSize : Nat) :
    0 < settings.walletSignWorkerCount batchSize := by
  unfold walletSignWorkerCount
  split
  · exact Nat.one_pos
  · exact Int.lt_toNat.2 (Int.lt_of_lt_of_le Int.one_pos (le_max_left _ _))

/-- The entry of a line in the list that is returned. -/
structure SpendResult where
  displayId : Option String
  state : Option TokenState
  historyTimestamp : Option Int
  error : Option String

/-- The turn of a line: its result, and the store and the queue before and after it. -/
structure Turn where
  before : SpendWorld
  after : SpendWorld
  result : SpendResult

/-- A call of `spend_wallet_bills_batch`, and which writes fail. -/
structure Batch (Proofs : Type) where
  node : WalletNode Proofs
  walletLines : List String
  items : List WalletItem
  recipients : Recipients
  proofBundle : Option (ProofBundle Proofs)
  timestamp : Option Int
  storeFault : Nat → Option String
  queueFault : Nat → Option String

/-- The tables of a store that derives the columns of a bill from the bill. -/
structure WalletStore {Proofs : Type} (n : WalletNode Proofs) where
  tables : BillTables
  displays : ∀ displayId, n.Displays tables displayId

namespace Batch

variable {Proofs : Type} (b : Batch Proofs)

/-- The display ids of the lines. -/
def displayIds : List (Option String) :=
  b.items.map (WalletItem.displayId b.node.store.node.crypto)

/-- The lines that fail before they are submitted: those without a display id, and repeated ones. -/
def given (index : Nat) : Option (Except String PreparedSpend) :=
  match b.displayIds[index]? with
  | none | some none => some (.error "wallet bill is not spendable")
  | some (some displayId) =>
      if some displayId ∈ b.displayIds.take index then
        some (.error ("duplicate bill selected: " ++ displayId))
      else none

/-- `prepare_index`. -/
def prepareIndex (index : Nat) (world : SpendWorld) : Except String PreparedSpend := do
  let item ← Check.ofOption b.items[index]? "list index out of range"
  let recipient ← b.recipients.batchRecipientAddress index
    ((item.displayId b.node.store.node.crypto).getD "")
  let prepared ← b.node.prepareSpendWalletBillV3 b.walletLines item recipient b.proofBundle b.timestamp
    world.tables
  Check.ofOption prepared "bill is not spendable or is not settled"

/-- The result of a line that fails. -/
def failed (index : Nat) (error : String) : SpendResult :=
  ⟨b.displayIds[index]?.join, none, none, some error⟩

/-- One turn of the loop of `commit_ready_results`. -/
def commitIndex (index : Nat) (payload : Except String PreparedSpend) (world : SpendWorld) :
    SpendWorld × Turn :=
  match payload with
  | .error error => (world, ⟨world, world, b.failed index error⟩)
  | .ok prepared =>
      match b.node.commitPreparedWalletSpendV3 (b.storeFault index) (b.queueFault index) prepared world with
      | (.ok state, after) => (after, ⟨world, after,
          ⟨b.displayIds[index]?.join, some state, some prepared.historyTimestamp, none⟩⟩)
      | (.error error, after) => (after, ⟨world, after, b.failed index error⟩)

/-- The lines as the tasks of a pool. -/
def plan : OrderedCommit.Plan SpendWorld (Except String PreparedSpend) Turn where
  total := b.items.length
  given := b.given
  prepare := b.prepareIndex
  commit := b.commitIndex

/-- The number of workers of the pool. -/
def workerCount (settings : PoolSettings) : Nat :=
  settings.walletSignWorkerCount b.plan.submitted.length

/-- The states of a batch. -/
abbrev State := OrderedCommit.State SpendWorld (Except String PreparedSpend) Turn

/-! ## What is claimed of a batch -/

/-- How a turn ends: with an error and no change, or with a state, its new tip stored and one announcement
    of it queued. -/
def TurnEnds (turn : Turn) : Prop :=
  (turn.result.error.isSome = true ∧ turn.result.state = none ∧ turn.after = turn.before) ∨
    (turn.result.error = none ∧ ∃ source prepared t, turn.result.state = some prepared.state ∧
      PreparedSpend.Extends b.node source prepared t ∧
      b.node.Committed prepared turn.before turn.after)

/-- The turns follow each other. -/
def Trail : SpendWorld → List Turn → SpendWorld → Prop
  | first, [], last => first = last
  | first, turn :: rest, last => turn.before = first ∧ Trail turn.after rest last

/-- The display ids that were spent. -/
def spent (turns : List Turn) : List String :=
  (turns.filterMap fun turn => turn.result.state).map TokenState.displayId

/-- A batch spends one by one. -/
structure SpendsOneByOne (settings : PoolSettings) (first : SpendWorld) (s : State) : Prop where
  displayIds_eq : s.results.map (fun turn => turn.result.displayId) = b.displayIds.take s.results.length
  trail : Trail first s.results s.world
  ends : ∀ turn ∈ s.results, b.TurnEnds turn
  spentOnce : (spent s.results).Nodup
  bounded : ∀ events t, Runs.exec (b.plan.step (b.workerCount settings)) (b.plan.initial first) events = some t →
    events.length ≤ 4 * b.items.length
  returns : (∀ e, b.plan.step (b.workerCount settings) s e = none) →
    s.results.length = b.items.length ∧ s.world = (b.plan.oneWorker first).world ∧
      s.results = (b.plan.oneWorker first).results

/-- Where the two writes of a commit are made, both are, and the new tip is apart from the later lines: no
    row with the display id of one of them is of its token, and no row of another token is kept under its
    hash. -/
structure CommitsApart (index : Nat) (prepared : PreparedSpend) (world : SpendWorld) : Prop where
  queued : b.queueFault index = none ∨
    ∀ hash world', b.node.storePrepared (b.storeFault index) prepared world ≠ (.ok hash, world')
  token : ∀ item ∈ world.tables.billsV3, item.2.tokenId = prepared.state.tokenId →
    item.2.displayId ≠ prepared.state.displayId → some item.2.displayId ∉ b.displayIds.drop (index + 1)
  hash : ∀ item ∈ world.tables.billsV3,
    prepared.bill.billHash b.node.store.node b.node.clock = .ok item.1 →
      item.2.tokenId = prepared.state.tokenId

/-- What a step has to meet: the commits are apart. -/
def Undisturbed (s : State) : OrderedCommit.Event → Prop
  | .commit => ∀ prepared, b.plan.nextReady s = some (.ok prepared) →
      b.CommitsApart s.next prepared s.world
  | _ => True

variable {b} {settings : PoolSettings} {first : SpendWorld} {s t : State}

/-! ## Lines and display ids -/

theorem given_eq_none {index : Nat} : b.given index = none ↔
    ∃ displayId, b.displayIds[index]? = some (some displayId) ∧
      some displayId ∉ b.displayIds.take index := by
  unfold given
  cases hdisplay : b.displayIds[index]? with
  | none => simp
  | some display =>
    cases display with
    | none => simp
    | some displayId => simp

/-- A line that is not submitted fails. -/
theorem ne_ok_of_given {index : Nat} {payload : Except String PreparedSpend} {prepared : PreparedSpend}
    (h : b.given index = some payload) : payload ≠ .ok prepared := by
  rintro rfl
  unfold given at h
  cases hdisplay : b.displayIds[index]? with
  | none =>
    rw [hdisplay] at h
    exact nomatch h
  | some display =>
    rw [hdisplay] at h
    cases display with
    | none => exact nomatch h
    | some displayId =>
      dsimp only at h
      split at h <;> exact nomatch h

theorem displayIds_getElem? {index : Nat} {displayId : String}
    (h : b.displayIds[index]? = some (some displayId)) :
    ∃ item, b.items[index]? = some item ∧ item.displayId b.node.store.node.crypto = some displayId := by
  rw [displayIds, List.getElem?_map, Option.map_eq_some_iff] at h
  exact h

/-- A later line that is submitted has another display id. -/
theorem ne_of_given {index later : Nat} {displayId laterId : String} (hlt : index < later)
    (hdisplay : b.displayIds[index]? = some (some displayId))
    (hlater : b.displayIds[later]? = some (some laterId)) (hgiven : b.given later = none) :
    displayId ≠ laterId := by
  rintro rfl
  obtain ⟨_, hid, hnot⟩ := given_eq_none.1 hgiven
  rw [hlater, Option.some.injEq, Option.some.injEq] at hid
  subst hid
  refine hnot (List.mem_of_getElem? (i := index) ?_)
  rw [List.getElem?_take, if_pos hlt, hdisplay]

theorem prepareIndex_eq_ok {index : Nat} {world : SpendWorld} {prepared : PreparedSpend}
    (h : b.prepareIndex index world = .ok prepared) :
    ∃ item recipient, b.items[index]? = some item ∧
      b.node.prepareSpendWalletBillV3 b.walletLines item recipient b.proofBundle b.timestamp world.tables
        = .ok (some prepared) := by
  simp only [prepareIndex, Check.bind_eq_ok, Check.ofOption_eq_ok] at h
  obtain ⟨item, hitem, recipient, -, found, hfound, rfl⟩ := h
  exact ⟨item, recipient, hitem, hfound⟩

/-- A line is prepared to the same after the commit of a tip that is apart from it. -/
theorem prepareIndex_congr {index : Nat} {displayId : String} {world world' : SpendWorld}
    {prepared : PreparedSpend} (hdisplay : b.displayIds[index]? = some (some displayId))
    (hstored : b.node.Stored prepared world.tables world'.tables)
    (hapart : ∀ billHash, prepared.bill.billHash b.node.store.node b.node.clock = .ok billHash →
      world.tables.Apart displayId prepared.state billHash) :
    b.prepareIndex index world' = b.prepareIndex index world := by
  obtain ⟨item, hitem, hid⟩ := displayIds_getElem? hdisplay
  obtain ⟨billHash, blob, status, tip, hhash, -, -, htables⟩ := hstored
  have hresolve : b.node.resolveWalletBillV3 world'.tables (WalletNode.walletAddress b.walletLines) item
      = b.node.resolveWalletBillV3 world.tables (WalletNode.walletAddress b.walletLines) item := by
    rw [htables]
    exact WalletNode.resolveWalletBillV3_writeBill hid (hapart billHash hhash)
  have hevidence : world'.tables.evidence = world.tables.evidence := by
    rw [htables]
    rfl
  simp only [prepareIndex, hitem, Check.ofOption, Check.ok_bind]
  refine bind_congr fun recipient => ?_
  rw [WalletNode.prepareSpendWalletBillV3_congr hevidence hresolve]

/-! ## A turn -/

section Turn

variable {index : Nat} {payload : Except String PreparedSpend} {prepared : PreparedSpend}
  {world after : SpendWorld} {state : TokenState} {error : String}

theorem commitIndex_of_ok
    (h : b.node.commitPreparedWalletSpendV3 (b.storeFault index) (b.queueFault index) prepared world
      = (.ok state, after)) :
    b.commitIndex index (.ok prepared) world = (after, ⟨world, after,
      ⟨b.displayIds[index]?.join, some state, some prepared.historyTimestamp, none⟩⟩) := by
  simp only [commitIndex, h]

theorem commitIndex_of_error
    (h : b.node.commitPreparedWalletSpendV3 (b.storeFault index) (b.queueFault index) prepared world
      = (.error error, after)) :
    b.commitIndex index (.ok prepared) world = (after, ⟨world, after, b.failed index error⟩) := by
  simp only [commitIndex, h]

/-- What a turn leads to: the line fails, or its spend is committed. -/
theorem commitIndex_cases (index : Nat) (payload : Except String PreparedSpend) (world : SpendWorld) :
    (∃ error after, b.commitIndex index payload world
        = (after, ⟨world, after, b.failed index error⟩) ∧
      ((∀ prepared, payload = .ok prepared → b.queueFault index = none ∨
        ∀ hash world', b.node.storePrepared (b.storeFault index) prepared world ≠ (.ok hash, world')) →
          after = world)) ∨
      ∃ prepared after, payload = .ok prepared ∧ b.node.Committed prepared world after ∧
        b.commitIndex index payload world = (after, ⟨world, after, ⟨b.displayIds[index]?.join,
          some prepared.state, some prepared.historyTimestamp, none⟩⟩) := by
  cases payload with
  | error error => exact Or.inl ⟨error, world, rfl, fun _ => rfl⟩
  | ok prepared =>
    cases hcommit : b.node.commitPreparedWalletSpendV3 (b.storeFault index) (b.queueFault index) prepared
        world with
    | mk result after =>
      cases result with
      | error error =>
        exact Or.inl ⟨error, after, commitIndex_of_error hcommit, fun hqueued =>
          WalletNode.eq_of_commitPrepared_eq_error hcommit (hqueued prepared rfl)⟩
      | ok state =>
        obtain ⟨rfl, hcommitted⟩ := WalletNode.commitPrepared_eq_ok hcommit
        exact Or.inr ⟨prepared, after, rfl, hcommitted, commitIndex_of_ok hcommit⟩

end Turn

/-! ## The invariant of a batch -/

theorem trail_concat {turns : List Turn} {turn : Turn} {world : SpendWorld} (h : Trail first turns world)
    (hturn : turn.before = world) : Trail first (turns ++ [turn]) turn.after := by
  induction turns generalizing first with
  | nil => exact ⟨hturn.trans h.symm, rfl⟩
  | cons earlier rest ih => exact ⟨h.1, ih h.2⟩

theorem spent_concat (turns : List Turn) (turn : Turn) :
    spent (turns ++ [turn]) = spent turns ++ (turn.result.state.map TokenState.displayId).toList := by
  unfold spent
  rw [List.filterMap_append, List.map_append]
  cases hstate : turn.result.state <;> simp [hstate]

/-- What holds of a batch at any time. -/
structure Kept (b : Batch Proofs) (first : SpendWorld) (s : State) : Prop where
  follows : b.plan.Follows first s
  displays : ∀ task displayId, s.next ≤ task → b.displayIds[task]? = some (some displayId) →
    b.given task = none → b.node.Displays s.world.tables displayId
  displayIds_eq : s.results.map (fun turn => turn.result.displayId) = b.displayIds.take s.results.length
  trail : Trail first s.results s.world
  ends : ∀ turn ∈ s.results, b.TurnEnds turn
  spentOnce : (spent s.results).Nodup
  spent_mem : ∀ displayId ∈ spent s.results, some displayId ∈ b.displayIds.take s.next

theorem Kept.initial (b : Batch Proofs) (hrows : ∀ displayId, b.node.Displays first.tables displayId) :
    Kept b first (b.plan.initial first) where
  follows := .initial _ _
  displays _ displayId _ _ _ := hrows displayId
  displayIds_eq := rfl
  trail := rfl
  ends _ h := nomatch h
  spentOnce := List.nodup_nil
  spent_mem _ h := nomatch h

/-- What is committed was prepared for a line that was submitted. -/
theorem Kept.extends (h : Kept b first s) {prepared : PreparedSpend}
    (hready : b.plan.nextReady s = some (.ok prepared)) :
    b.displayIds[s.next]? = some (some prepared.state.displayId) ∧ b.given s.next = none ∧
      ∃ source t, prepared.Extends b.node source t := by
  obtain ⟨-, hvalue⟩ := h.follows.nextReady hready
  cases hgiven : b.given s.next with
  | some payload =>
    have hpayload : payload = .ok prepared := by
      rw [hvalue, OrderedCommit.Plan.value]
      show _ = (b.given s.next).getD _
      rw [hgiven, Option.getD_some]
    exact absurd hpayload (ne_ok_of_given hgiven)
  | none =>
    obtain ⟨displayId, hdisplay, -⟩ := given_eq_none.1 hgiven
    have hprepare : b.prepareIndex s.next s.world = .ok prepared := by
      rw [hvalue, OrderedCommit.Plan.value]
      show _ = (b.given s.next).getD _
      rw [hgiven, Option.getD_none]
      rfl
    obtain ⟨item, recipient, hitem, hprepared⟩ := prepareIndex_eq_ok hprepare
    obtain ⟨item', hitem', hid⟩ := displayIds_getElem? hdisplay
    rw [hitem, Option.some.injEq] at hitem'
    subst hitem'
    obtain ⟨source, t, hextends, hstate⟩ := WalletNode.extends_of_prepare hid
      (h.displays s.next displayId le_rfl hdisplay hgiven) hprepared
    exact ⟨by rw [hstate, hdisplay], rfl, source, t, hextends⟩

/-- The new tip is apart from the later lines. -/
theorem CommitsApart.apart {prepared : PreparedSpend} {world : SpendWorld} {index later : Nat}
    {laterId billHash : String} (h : b.CommitsApart index prepared world)
    (hdisplay : b.displayIds[index]? = some (some prepared.state.displayId)) (hlt : index < later)
    (hlater : b.displayIds[later]? = some (some laterId)) (hgiven : b.given later = none)
    (hhash : prepared.bill.billHash b.node.store.node b.node.clock = .ok billHash) :
    world.tables.Apart laterId prepared.state billHash := by
  have hne := ne_of_given hlt hdisplay hlater hgiven
  refine ⟨hne, fun item hitem hid htoken => ?_, fun item hitem hkey => h.hash item hitem (by rw [hkey, hhash])⟩
  refine h.token item hitem htoken (by rw [hid]; exact hne.symm) ?_
  rw [hid, List.mem_iff_getElem?]
  refine ⟨later - (index + 1), ?_⟩
  rw [List.getElem?_drop, Nat.add_sub_cancel' hlt, hlater]

/-- The rows of a later line are as they were. -/
theorem displays_of_stored {prepared : PreparedSpend} {tables tables' : BillTables} {displayId : String}
    (h : b.node.Displays tables displayId) (hstored : b.node.Stored prepared tables tables')
    (hne : prepared.state.displayId ≠ displayId) : b.node.Displays tables' displayId := by
  obtain ⟨billHash, blob, status, tip, -, -, -, rfl⟩ := hstored
  intro item hitem hid
  rcases AssocList.mem_of_mem_put hitem with hmem | rfl
  · exact h item hmem hid
  · exact absurd hid hne

/-- A turn is added. -/
theorem Kept.add (h : Kept b first s) {payload : Except String PreparedSpend} (turn : Turn)
    (hready : b.plan.nextReady s = some payload)
    (hcommit : b.commitIndex s.next payload s.world = (turn.after, turn)) (hbefore : turn.before = s.world)
    (hdisplay : turn.result.displayId = b.displayIds[s.next]?.join) (hstable : b.plan.Stable s payload)
    (hrows : ∀ task displayId, s.next < task → b.displayIds[task]? = some (some displayId) →
      b.given task = none → b.node.Displays turn.after.tables displayId)
    (hends : b.TurnEnds turn)
    (hspent : ∀ state, turn.result.state = some state →
      b.displayIds[s.next]? = some (some state.displayId) ∧ b.given s.next = none) :
    Kept b first (b.plan.commitNext payload s) := by
  have hlt : s.next < b.displayIds.length := by
    rw [displayIds, List.length_map]
    exact (h.follows.nextReady hready).1
  have hworld : (b.plan.commitNext payload s).world = turn.after := congrArg Prod.fst hcommit
  have hresults : (b.plan.commitNext payload s).results = s.results ++ [turn] :=
    congrArg (fun done => s.results ++ [done.2]) hcommit
  have htake : b.displayIds.take (s.next + 1) = b.displayIds.take s.next ++ [b.displayIds[s.next]?.join] := by
    rw [List.take_add_one, List.getElem?_eq_getElem hlt]
    rfl
  refine ⟨h.follows.commitNext hready hstable, fun task displayId hle => ?_, ?_, ?_, ?_, ?_, ?_⟩
  · rw [OrderedCommit.Plan.next_commitNext] at hle
    rw [hworld]
    exact hrows task displayId hle
  · rw [hresults, List.map_append, h.displayIds_eq, List.length_append]
    show _ = b.displayIds.take (s.next + 1)
    rw [htake, List.map_singleton, hdisplay]
    rfl
  · rw [hresults, hworld]
    exact trail_concat h.trail hbefore
  · rw [hresults]
    intro t ht
    rcases List.mem_append.1 ht with hmem | hmem
    · exact h.ends t hmem
    · rw [List.mem_singleton.1 hmem]
      exact hends
  · -- The display id of the line is not among those of the lines before it, which hold all that was spent.
    rw [hresults, spent_concat]
    cases hstate : turn.result.state with
    | none => simpa using h.spentOnce
    | some state =>
      obtain ⟨hid, hgiven⟩ := hspent state hstate
      obtain ⟨_, hid', hnot⟩ := given_eq_none.1 hgiven
      rw [hid, Option.some.injEq, Option.some.injEq] at hid'
      subst hid'
      refine h.spentOnce.append (List.nodup_singleton _) fun displayId hmem hlast => ?_
      rw [Option.map_some, Option.toList_some, List.mem_singleton] at hlast
      exact hnot (hlast ▸ h.spent_mem displayId hmem)
  · rw [hresults, spent_concat, OrderedCommit.Plan.next_commitNext, htake]
    intro displayId hmem
    rcases List.mem_append.1 hmem with hold | hnew
    · exact List.mem_append_left _ (h.spent_mem displayId hold)
    · cases hstate : turn.result.state with
      | none =>
        rw [hstate] at hnew
        exact nomatch hnew
      | some state =>
        rw [hstate, Option.map_some, Option.toList_some, List.mem_singleton] at hnew
        rw [(hspent state hstate).1, Option.join_some, hnew]
        exact List.mem_append_right _ (List.mem_singleton_self _)

/-- **One turn keeps what holds of a batch.** -/
theorem Kept.commitNext (h : Kept b first s) {payload : Except String PreparedSpend}
    (hready : b.plan.nextReady s = some payload)
    (hapart : ∀ prepared, payload = .ok prepared → b.CommitsApart s.next prepared s.world) :
    Kept b first (b.plan.commitNext payload s) := by
  rcases commitIndex_cases s.next payload s.world with
    ⟨error, after, hcommit, hkept⟩ | ⟨prepared, after, rfl, hcommitted, hcommit⟩
  · obtain rfl := hkept fun prepared hpayload => (hapart prepared hpayload).queued
    refine h.add ⟨s.world, s.world, b.failed s.next error⟩ hready hcommit rfl rfl (fun task _ _ => ?_) (fun task displayId hlt => ?_) ?_
      fun state hstate => ?_
    · show b.prepareIndex task (b.commitIndex s.next payload s.world).1 = _
      rw [hcommit]
      rfl
    · exact h.displays task displayId hlt.le
    · exact Or.inl ⟨rfl, rfl, rfl⟩
    · exact nomatch hstate
  · obtain ⟨hdisplay, hgiven, source, t, hextends⟩ := h.extends hready
    have hcommits := hapart prepared rfl
    refine h.add ⟨s.world, after, ⟨b.displayIds[s.next]?.join, some prepared.state,
      some prepared.historyTimestamp, none⟩⟩ hready hcommit rfl rfl (fun task hlt hnone => ?_)
      (fun task displayId hlt hid hnone => ?_) ?_ fun state hstate => ?_
    · obtain ⟨displayId, hid, -⟩ := given_eq_none.1 hnone
      show b.prepareIndex task (b.commitIndex s.next (.ok prepared) s.world).1 = _
      rw [hcommit]
      exact prepareIndex_congr hid hcommitted.stored fun billHash hhash =>
        hcommits.apart hdisplay hlt hid hnone hhash
    · exact displays_of_stored (h.displays task displayId hlt.le hid hnone) hcommitted.stored
        (ne_of_given hlt hdisplay hid hnone)
    · exact Or.inr ⟨rfl, source, prepared, t, rfl, hextends, hcommitted⟩
    · cases hstate
      exact ⟨hdisplay, hgiven⟩

/-- One step of the pool keeps it. -/
theorem Kept.step (h : Kept b first s) {workers : Nat} {e : OrderedCommit.Event} (he : b.Undisturbed s e)
    (hstep : b.plan.step workers s e = some t) : Kept b first t := by
  by_cases hcommit : e = .commit
  · subst hcommit
    obtain ⟨payload, hready, rfl⟩ := Option.map_eq_some_iff.1 hstep
    refine h.commitNext hready fun prepared hpayload => he prepared ?_
    rw [hready, hpayload]
  · obtain ⟨hworld, hresults⟩ := OrderedCommit.Plan.step_frame hstep hcommit
    have hnext : t.next = s.next := congrArg List.length hresults
    refine ⟨h.follows.step hstep fun heq => absurd heq hcommit, ?_, ?_, ?_, ?_, ?_, ?_⟩
    · rw [hnext, hworld]
      exact h.displays
    · rw [hresults]
      exact h.displayIds_eq
    · rw [hresults, hworld]
      exact h.trail
    · rw [hresults]
      exact h.ends
    · rw [hresults]
      exact h.spentOnce
    · rw [hresults, hnext]
      exact h.spent_mem

section Sample

open BillV3 (sampleCachedBill)

/-- A wallet at a fixed time. -/
def sampleWallet : WalletNode Unit := ⟨sampleEvidenceStore, true, 5000⟩

/-- The head of the sample bill, which does not look at its transfers but for their number. -/
theorem exists_writeHead_sample {transfers : List Transfer} (hfew : transfers.length ≤ 1) :
    ∃ head, BillV3.writeHead { sampleCachedBill with recentTransfers := transfers } = .ok head ∧
      head.length ≤ 2000 := by
  have hreturns : ∀ n : Fin 2, Check.returns (do
      let head ← BillV3.writeHead
        { sampleCachedBill with recentTransfers := List.replicate n Transfer.sampleSpend }
      Check.require (head.length ≤ 2000) "") = true := by
    decide +kernel
  obtain ⟨_, hwritten⟩ := Check.returns_iff.1 (hreturns ⟨transfers.length, Nat.lt_succ_of_le hfew⟩)
  obtain ⟨head, hhead, hlength⟩ := Check.bind_eq_ok.1 hwritten
  refine ⟨head, ?_, Check.require_eq_ok.1 hlength⟩
  rw [BillV3.writeHead] at hhead ⊢
  rw [List.length_replicate] at hhead
  exact hhead

/-- The sample bill is written, with or without a transfer more, and has a hash. -/
theorem exists_blob_sample {transfers : List Transfer} (hfew : transfers.length ≤ 1)
    (h : ∀ t ∈ transfers, ∃ hash, t.transferHash sampleCrypto 5000 = .ok hash) :
    ∃ blob hash,
      BillV3.encodeBill sampleNode { sampleCachedBill with recentTransfers := transfers } 5000 = .ok blob ∧
      BillV3.billHash sampleNode { sampleCachedBill with recentTransfers := transfers } 5000 = .ok hash := by
  have hvalid : Check.returns (do
      sampleCachedBill.genesisRef.validateGenesisRef sampleNode.toNodePolicy
        sampleCachedBill.genesisRef.networkId
      sampleCachedBill.checkpointCore.validateCheckpointCore sampleNode.crypto
        sampleCachedBill.checkpointCore.networkId) = true := by
    decide +kernel
  obtain ⟨⟨⟩, hvalid⟩ := Check.returns_iff.1 hvalid
  obtain ⟨hgenesis, hcore⟩ := Check.check_bind_eq_ok.1 hvalid
  obtain ⟨head, hhead, hlength⟩ := exists_writeHead_sample hfew
  obtain ⟨written, htransfers, hwritten⟩ := ArchiveSegment.fits_encodeTransfers sampleCrypto 5000 _ h
  obtain ⟨blob, hblob, hsize⟩ := BinaryV3.fits_encodeEnvelope "IND3BILL" rfl (show (0 : Int) ≤ 1 by decide) (by decide)
    (show (head ++ written).length ≤ 2732 by rw [List.length_append]; omega)
  have hencode : BillV3.encodeBill sampleNode { sampleCachedBill with recentTransfers := transfers } 5000
      = .ok blob :=
    Check.bind_eq_ok.2 ⟨(), rfl, Check.bind_eq_ok.2 ⟨(), Check.require_eq_ok.2 ⟨rfl, rfl⟩,
      Check.bind_eq_ok.2 ⟨_, BillV3.encodeBillBody_eq_ok.2 ⟨hgenesis, hcore, head, written, hhead, htransfers,
        rfl⟩, hblob⟩⟩⟩
  obtain ⟨digest, hdigest, -⟩ := BinaryV3.exists_objectHash sampleCrypto billType blob (by decide) (by decide)
    (hsize.trans (by decide))
  exact ⟨blob, Text.hex digest, hencode, Check.bind_eq_ok.2 ⟨blob, hencode,
    Check.bind_eq_ok.2 ⟨digest, hdigest, rfl⟩⟩⟩

/-- A store with the sample bill only. -/
def sampleTables (billHash : String) (blob : Bytes) : BillTables where
  evidence := ⟨[], [], []⟩
  billsV3 := [(billHash, ⟨sampleCachedBill.tokenId, "100x3", sampleCachedBill.checkpointCore.ownerAddress, 1,
    sampleCachedBill.checkpointCore.checkpointHash, sampleCachedBill.proofBundleRef.proofBundleHash, blob, 3000,
    3000, .settled⟩)]
  billTipsV3 := []

/-- The owner pays with the sample bill. -/
def sampleBatch (keys : KeyPair sampleCrypto) (queueFault : Option String) : Batch Unit where
  node := sampleWallet
  walletLines := [keys.address, keys.privateKey, keys.publicKey]
  items := [.bill sampleCachedBill]
  recipients := .one "x36QeHmmQoeHfGMW7jgh3KgNLb2cKdR4x"
  proofBundle := none
  timestamp := none
  storeFault _ := none
  queueFault _ := queueFault

theorem exists_decoded_sample : ∃ blob hash, BillV3.billHash sampleNode sampleCachedBill 5000 = .ok hash ∧
    BillV3.decodeBill sampleWallet.store.inflate blob = .ok sampleCachedBill := by
  obtain ⟨blob, hash, hblob, hhash⟩ := @exists_blob_sample [] (Nat.zero_le 1) fun t ht => nomatch ht
  refine ⟨blob, hash, hhash, decodeBill_encodeBill hblob ?_ fun t ht => nomatch ht⟩
  exact ⟨rfl, rfl, rfl, isHashText_sampleToken, canonical_sampleGenesisRef,
    ⟨rfl, rfl, rfl, isHashText_sampleToken, canonical_sampleGenesisRef.genesisHash,
      canonical_sampleCore.displayIdHash, isHashText_zeroHash, fun text h => (nomatch h),
      canonical_sampleCore.checkpointHash⟩,
    ⟨rfl, rfl, rfl, isHashText_zeroHash, isHashText_zeroHash⟩⟩

theorem strip_owner_sample : Text.strip sampleCachedBill.checkpointCore.ownerAddress
    = sampleCachedBill.checkpointCore.ownerAddress := by
  decide +kernel

/-- The owner prepares the spend of the sample bill. -/
theorem exists_prepared_sample : ∃ (keys : KeyPair sampleCrypto) (prepared : PreparedSpend) (t : Transfer),
    (∀ tables : BillTables, tables.evidence = ⟨[], [], []⟩ →
      sampleWallet.prepareSpendWalletBillV3 [keys.address, keys.privateKey, keys.publicKey]
        (.bill sampleCachedBill) "x36QeHmmQoeHfGMW7jgh3KgNLb2cKdR4x" none none tables = .ok (some prepared)) ∧
    prepared.Extends sampleWallet sampleCachedBill t ∧ t.senderAddress = sampleCachedBill.checkpointCore.ownerAddress ∧
    t.sequence = 2 ∧ t.previousHash = sampleCachedBill.checkpointCore.lastTransferHash ∧
    ∃ hash, t.transferHash sampleCrypto 5000 = .ok hash := by
  obtain ⟨keys, howner, hverify, t, hash, ht, hspends⟩ := BillV3.exists_spend_sampleCachedBill
  have hcached := BillV3.cachedBillState_of_verify hverify
  obtain ⟨hvalid, hclock, -⟩ :=
    BaseState.verifyTransferSequence_eq_ok.1 (BillV3.verifyBillState_eq_ok.1 hverify).2.2
  have hdone : ∃ next, BaseState.replayTransfer sampleCrypto sampleCachedBill.tokenId 1 5000 5000 true
      sampleCachedBill.checkpointCore.initialState t = .ok next :=
    ⟨_, BaseState.replayTransfer_eq_ok.2 ⟨hash, hspends, rfl⟩⟩
  obtain ⟨next, hnext⟩ := hdone
  have hcreated : BillV3.createTransferFromCachedBill sampleNode sampleCachedBill keys.privateKey keys.publicKey
      "x36QeHmmQoeHfGMW7jgh3KgNLb2cKdR4x" .null none (some 1) (some sampleCachedBill.checkpointCore.initialState)
      5000 = .ok (sampleCachedBill.append t, next.tokenStateFromV3State sampleCachedBill.tokenId) := by
    refine (BillV3.createTransferFromCachedBill_eq_ok hcached (Or.inr rfl) hvalid hclock).2
      ⟨t, next, ?_, ?_, rfl, rfl⟩
    · exact (BaseState.createTransfer_verified (decodePrivateKey_encodePrivateKey keys.length_seed)
        keys.decodePublicKey_publicKey _ _ _ t).1 ht
    · exact (BaseState.replayTransfer_verified.1 hnext).2
  obtain ⟨blob, _, hblob, -⟩ := @exists_blob_sample [t] le_rfl fun u hu => by
    rw [List.mem_singleton.1 hu]
    exact ⟨hash, hspends.hash_eq⟩
  have hmessage : ∃ message, sampleWallet.createTransferAnnouncement (sampleCachedBill.append t) none []
      = .ok message :=
    ⟨_, Check.bind_eq_ok.2 ⟨(), rfl, Check.bind_eq_ok.2 ⟨(), rfl, Check.bind_eq_ok.2 ⟨none, rfl,
      Check.bind_eq_ok.2 ⟨[], rfl, Check.bind_eq_ok.2 ⟨blob, hblob, rfl⟩⟩⟩⟩⟩⟩
  obtain ⟨message, hmessage⟩ := hmessage
  have hprepared : sampleWallet.prepareBill [keys.address, keys.privateKey, keys.publicKey]
      "x36QeHmmQoeHfGMW7jgh3KgNLb2cKdR4x" none none ⟨[], [], []⟩ sampleCachedBill
      = .ok (some ⟨sampleCachedBill.append t, message,
          next.tokenStateFromV3State sampleCachedBill.tokenId,
          WalletNode.latestBillTransferTimestamp (sampleCachedBill.append t)⟩) := by
    have haddress : WalletNode.walletAddress [keys.address, keys.privateKey, keys.publicKey]
        = sampleCachedBill.checkpointCore.ownerAddress := by
      rw [WalletNode.walletAddress, howner, strip_owner_sample]
    have hkeys : WalletNode.walletKeys [keys.address, keys.privateKey, keys.publicKey]
        = .ok (keys.privateKey, keys.publicKey) := by
      rw [WalletNode.walletKeys, keys.strip_privateKey, keys.strip_publicKey]
    refine Check.bind_eq_ok.2 ⟨_, hcached, ?_⟩
    rw [if_neg (by rw [haddress]; exact fun h => h.2 rfl)]
    exact Check.bind_eq_ok.2 ⟨_, hkeys, Check.bind_eq_ok.2 ⟨none, rfl, Check.bind_eq_ok.2 ⟨_, hcreated,
      Check.bind_eq_ok.2 ⟨none, rfl, Check.bind_eq_ok.2 ⟨message, hmessage, rfl⟩⟩⟩⟩⟩
  obtain ⟨t', hextends⟩ := WalletNode.extends_of_prepareBill hprepared
  obtain rfl : t = t' := by
    have htransfers := congrArg BillV3.recentTransfers hextends.bill_eq
    exact (List.cons.inj htransfers).1
  refine ⟨keys, _, t, fun tables hevidence => ?_, hextends, hspends.sender_eq, hspends.sequence_eq,
    hspends.previousHash_eq, hash, hspends.hash_eq⟩
  have haddress : sampleWallet.validateWalletAddress
      (WalletNode.walletAddress [keys.address, keys.privateKey, keys.publicKey]) = .ok () := by
    rw [WalletNode.walletAddress, howner, strip_owner_sample, ← howner, WalletNode.validateWalletAddress]
    split
    · rfl
    · exact Check.bind_eq_ok.2 ⟨_, Check.bind_eq_ok.2 ⟨(), Check.require_of keys.isAddress_address _, rfl⟩, rfl⟩
  refine Check.bind_eq_ok.2 ⟨(), haddress, ?_⟩
  show sampleWallet.prepareBill _ _ _ _ tables.evidence sampleCachedBill = _
  rw [hevidence]
  exact hprepared

theorem spendableRow_sampleTables (billHash : String) (blob : Bytes) :
    (sampleTables billHash blob).spendableRow true "100x3" sampleCachedBill.checkpointCore.ownerAddress
      = (sampleTables billHash blob).billsV3.head? := by
  simp [BillTables.spendableRow, sampleTables, Select.first, Select.orderBy, BillTables.spendableStatuses,
    BillTables.isNewest, BillTables.hasMaterializedNewerV3Branch]

/-- The store takes the spend of the sample bill. -/
theorem exists_stored_sample : ∃ (keys : KeyPair sampleCrypto) (prepared : PreparedSpend) (tables : BillTables),
    (∀ displayId, sampleWallet.Displays tables displayId) ∧
    (∀ item ∈ tables.billsV3, item.2.sequence = 1 ∧ item.2.tokenId = prepared.state.tokenId) ∧
    (∀ fault world, world.tables = tables →
      (sampleBatch keys fault).prepareIndex 0 world = .ok prepared) ∧ prepared.state.sequence = 2 ∧
    ∀ queue, ∃ hash after, sampleWallet.storePrepared none prepared ⟨tables, queue⟩ = (.ok hash, after) := by
  obtain ⟨keys, prepared, t, hprepared, hextends, hsender, hsequence, hprevious, hash, hhash⟩ :=
    exists_prepared_sample
  obtain ⟨blob, billHash, -, hdecode⟩ := exists_decoded_sample
  obtain ⟨-, -, hverify, -⟩ := BillV3.exists_spend_sampleCachedBill
  have hcached := BillV3.cachedBillState_of_verify hverify
  refine ⟨keys, prepared, sampleTables billHash blob, ?_, ?_, ?_, ?_, ?_⟩
  · intro displayId item hitem hid bill hbill
    rw [sampleTables, List.mem_singleton] at hitem
    subst hitem
    obtain rfl : sampleCachedBill = bill := Except.ok.inj (hdecode.symm.trans hbill)
    exact hid
  · intro item hitem
    rw [sampleTables, List.mem_singleton] at hitem
    subst hitem
    exact ⟨rfl, hextends.tokenId_eq.symm⟩
  · intro fault world htables
    exact Check.bind_eq_ok.2 ⟨_, rfl, Check.bind_eq_ok.2 ⟨_, rfl, Check.bind_eq_ok.2
      ⟨some prepared, hprepared world.tables (by rw [htables]; rfl), rfl⟩⟩⟩
  · rw [hextends.sequence_eq, hsequence]
  · intro queue
    obtain ⟨newBlob, newHash, hblob, hnew⟩ := @exists_blob_sample [t] le_rfl fun u hu => by
      rw [List.mem_singleton.1 hu]
      exact ⟨hash, hhash⟩
    have hcurrent : sampleWallet.ensurePreparedWalletSpendIsCurrent prepared (sampleTables billHash blob)
        = .ok () := by
      have hdisplay : Text.strip prepared.state.displayId = "100x3" := by
        rw [hextends.displayId_strip, hextends.displayId_eq]
        rfl
      have hstrip : Text.strip t.senderAddress = sampleCachedBill.checkpointCore.ownerAddress := by
        rw [hsender, strip_owner_sample]
      have hfound : sampleWallet.getSpendableBillV3ByDisplayId (sampleTables billHash blob) "100x3"
          sampleCachedBill.checkpointCore.ownerAddress = .ok (some sampleCachedBill) := by
        show sampleWallet.decodeRow ((sampleTables billHash blob).spendableRow true "100x3" _) = _
        rw [spendableRow_sampleTables]
        exact Check.bind_eq_ok.2 ⟨_, hdecode, rfl⟩
      unfold WalletNode.ensurePreparedWalletSpendIsCurrent
      rw [hextends.getLast?, hdisplay]
      refine Check.bind_eq_ok.2 ⟨t, rfl, ?_⟩
      rw [hstrip]
      exact Check.bind_eq_ok.2 ⟨(), Check.require_of ⟨by decide, by decide⟩ _, Check.bind_eq_ok.2
        ⟨_, hfound, Check.bind_eq_ok.2 ⟨_, rfl, Check.bind_eq_ok.2 ⟨_, hcached, Check.bind_eq_ok.2
          ⟨(), Check.require_of hsequence.symm _, Check.require_of hprevious.symm _⟩⟩⟩⟩⟩
    obtain ⟨input, hinput⟩ := (Transfer.hashed_of_transferHash hhash).exists_spendKeyInput
    have hkey : t.spendKeyForTransfer sampleCrypto = .ok (sampleCrypto.sha3Hex input) :=
      Transfer.spendKeyForTransfer_eq_ok.2 ⟨input, hinput, rfl⟩
    have hbill : prepared.bill = { sampleCachedBill with recentTransfers := [t] } := hextends.bill_eq
    have htip : ∀ status, ∃ tip,
        sampleEvidenceStore.billTipRecordV3 prepared.bill prepared.state status 5000 = .ok tip := by
      intro status
      rw [EvidenceStore.billTipRecordV3, hextends.getLast?]
      exact ⟨_, Check.bind_eq_ok.2 ⟨_, hkey, Check.bind_eq_ok.2 ⟨hash, hhash, rfl⟩⟩⟩
    rw [← hbill] at hblob hnew
    have hstored : ∃ after, sampleWallet.storeCachedBillV3 none prepared.bill prepared.state .verified
        (sampleTables billHash blob) = (.ok newHash, after) := by
      obtain ⟨tip, htip⟩ := htip (strongerBillV3Status
        ((AssocList.get? newHash (sampleTables billHash blob).billsV3).map fun row => row.status) .verified)
      exact ⟨_, Effect.bind_eq_ok.2 ⟨newHash, _, Effect.lift_eq_ok.2 ⟨hnew, rfl⟩, Effect.bind_eq_ok.2
        ⟨_, _, rfl, Effect.bind_eq_ok.2 ⟨newBlob, _, Effect.lift_eq_ok.2 ⟨hblob, rfl⟩,
          Effect.bind_eq_ok.2 ⟨tip, _, Effect.lift_eq_ok.2 ⟨htip, rfl⟩, rfl⟩⟩⟩⟩⟩
    obtain ⟨after, hafter⟩ := hstored
    refine ⟨newHash, { tables := after, queue }, ?_⟩
    unfold WalletNode.storePrepared
    rw [Effect.read_bind, hcurrent, Effect.lift_ok_bind, WalletNode.onTables, Effect.focus, hafter]

theorem displayIds_sampleBatch (keys : KeyPair sampleCrypto) (fault : Option String) :
    (sampleBatch keys fault).displayIds = [some "100x3"] := by
  have hdisplay : Text.strip "100x3" = "100x3" := by decide +kernel
  show [WalletItem.displayId _ (.bill sampleCachedBill)] = _
  rw [WalletItem.displayId]
  show [if Text.strip "100x3" = "" then none else some (Text.strip "100x3")] = _
  rw [hdisplay, if_neg (by decide)]

theorem given_sampleBatch (keys : KeyPair sampleCrypto) (fault : Option String) :
    (sampleBatch keys fault).given 0 = none :=
  given_eq_none.2 ⟨"100x3", by rw [displayIds_sampleBatch]; rfl, fun h => nomatch h⟩

end Sample

end Batch
