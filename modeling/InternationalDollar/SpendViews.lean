import InternationalDollar.StoreWrites

set_option autoImplicit false

/-! # What the store offers for spending

`get_spendable_bill_v3_by_display_id` and `spendable_bill_v3_display_ids` offer bills by their status
and by the newest sequence of the token. `bill_v3_confidence` also asks for stored conflict proofs. The
three views agree on an owner exactly when no bill that is offered belongs to a token with an open
conflict, and no token hides another one behind a shared display id. -/

namespace LocalStore

variable {store : LocalStore} {v : Verification} {now : Int}

/-! ## Rows are written in time -/

/-- No row was written after a time. -/
def UpdatedBy (store : LocalStore) (time : Int) : Prop :=
  ∀ row ∈ store.bills, row.updatedAt ≤ time

theorem updatedBy_storeBillV3Conn (h : store.UpdatedBy now) (bill : StoreBill)
    (status : BillStatus) : (store.storeBillV3Conn bill status now).UpdatedBy now := by
  intro row hrow
  rcases mem_storeBillV3Conn.1 hrow with ⟨hold, -⟩ | rfl
  · exact h row hold
  · exact le_of_eq (storedRow_updatedAt bill status)

theorem updatedBy_call (h : store.UpdatedBy now) (c : Call) : (store.call now c).UpdatedBy now := by
  refine call_keeps (P := fun s => s.UpdatedBy now) c h (fun _ _ hs => hs) ?_
    (fun _ bill status hs => updatedBy_storeBillV3Conn hs bill status) ?_ ?_ ?_
  · intro s s' hs hdrops row hrow
    exact hs row (hdrops.bills ▸ hrow)
  · intro s conflict hs row hrow
    exact hs row (insertConflict_bills conflict ▸ hrow)
  · intro s bill hs row hrow
    rcases mem_settleRow hrow with hold | ⟨old, -, -, -, rfl⟩
    · exact hs row hold
    · exact le_rfl
  · intro s kept hs hkept row hrow
    exact hs row (hkept.subset hrow)

/-- No row is younger than the clock. -/
def Timely (store : LocalStore) : Prop :=
  store.UpdatedBy store.clock

theorem timely_step {event : Event} {store' : LocalStore} (h : store.Timely)
    (hstep : store.step event = some store') : store'.Timely := by
  obtain ⟨hclock, rfl⟩ := step_eq hstep
  exact updatedBy_call (fun row hrow => (h row hrow).trans hclock) event.call

theorem timely_initial (quorum : Bool) (required : Nat) (embedded : Bool) :
    (initial quorum required embedded).Timely := by
  intro row (hrow : row ∈ [])
  exact absurd hrow List.not_mem_nil

theorem Reachable.timely (h : store.Reachable) : store.Timely := by
  obtain ⟨quorum, required, embedded, hreach⟩ := h
  exact hreach.invariant (fun _ _ _ hs _ hstep => timely_step hs hstep) (timely_initial _ _ _)

/-! ## The newest rows of a token -/

theorem isNewest_iff {row : BillRow} : store.isNewest row = true ↔
    ∀ other ∈ store.bills, other.bill.tokenId = row.bill.tokenId →
      other.bill.sequence ≤ row.bill.sequence := by
  unfold isNewest hasMaterializedNewerV3Branch
  simp

/-- The rows that `bill_v3_confidence` counts as rows of an owner: an empty owner is no owner. -/
def Counted (ownerAddress : String) (row : BillRow) : Prop :=
  ownerAddress = "" ∨ row.bill.ownerAddress = ownerAddress

/-- A newest row of a token that counts for an owner. -/
structure NewestRow (store : LocalStore) (tokenId ownerAddress : String) (row : BillRow) : Prop where
  mem : row ∈ store.bills
  token : row.bill.tokenId = tokenId
  counted : Counted ownerAddress row
  newest : store.isNewest row = true

/-- No stored proof of conflict stops an owner's rows of a token. -/
def Clear (store : LocalStore) (v : Verification) (tokenId ownerAddress : String) : Prop :=
  (∀ row, ¬ store.OpenConflict v tokenId row) ∨
    ∃ row, store.NewestRow tokenId ownerAddress row ∧ row.status = .settled

/-- A row that may be offered under a display id. -/
def listed (store : LocalStore) (displayId ownerAddress : String) (row : BillRow) : Bool :=
  decide (row.bill.displayId = displayId ∧ row.bill.ownerAddress = ownerAddress ∧
    row.status ∈ store.spendableBillV3Statuses) && store.isNewest row

/-- The leftmost listed row of the least order: larger sequences, better statuses, shorter encodings and
    younger rows come first. -/
def ListedFirst (store : LocalStore) (displayId ownerAddress : String) (row : BillRow) : Prop :=
  row ∈ (store.bills.filter (store.listed displayId ownerAddress)).argmin spendableOrder

theorem listed_iff {displayId ownerAddress : String} {row : BillRow} :
    store.listed displayId ownerAddress row = true ↔
      row.bill.displayId = displayId ∧ row.bill.ownerAddress = ownerAddress ∧
        row.status ∈ store.spendableBillV3Statuses ∧ store.isNewest row = true := by
  unfold listed
  simp only [Bool.and_eq_true, decide_eq_true_eq, and_assoc]

theorem ListedFirst.listed {displayId ownerAddress : String} {row : BillRow}
    (h : store.ListedFirst displayId ownerAddress row) :
    row ∈ store.bills ∧ store.listed displayId ownerAddress row = true :=
  List.mem_filter.1 (List.argmin_mem h)

theorem ListedFirst.newestRow {displayId ownerAddress : String} {row : BillRow}
    (h : store.ListedFirst displayId ownerAddress row) :
    store.NewestRow row.bill.tokenId ownerAddress row := by
  obtain ⟨hmem, hlisted⟩ := h.listed
  obtain ⟨-, howner, -, hnewest⟩ := listed_iff.1 hlisted
  exact ⟨hmem, rfl, Or.inr howner, hnewest⟩

theorem getSpendableBillV3ByDisplayId_eq {displayId ownerAddress : String} :
    store.getSpendableBillV3ByDisplayId displayId ownerAddress
      = ((store.bills.filter (store.listed displayId ownerAddress)).argmin spendableOrder).map
          BillRow.bill := by
  unfold getSpendableBillV3ByDisplayId
  dsimp only
  rw [Select.first_eq_argmin, List.filter_filter]
  congr 3
  funext row
  unfold listed
  rw [Bool.and_comm]

/-- What is spendable under a display id is the bill of the row that is listed first. -/
theorem getSpendableBillV3ByDisplayId_eq_some {displayId ownerAddress : String} {bill : StoreBill} :
    store.getSpendableBillV3ByDisplayId displayId ownerAddress = some bill ↔
      ∃ row, store.ListedFirst displayId ownerAddress row ∧ row.bill = bill := by
  rw [getSpendableBillV3ByDisplayId_eq, Option.map_eq_some_iff]
  rfl

theorem isSome_getSpendable_iff {displayId ownerAddress : String} :
    (store.getSpendableBillV3ByDisplayId displayId ownerAddress).isSome = true ↔
      ∃ row ∈ store.bills, store.listed displayId ownerAddress row = true := by
  rw [getSpendableBillV3ByDisplayId_eq, Option.isSome_map, Option.isSome_iff_ne_none, ne_eq,
    List.argmin_eq_none, List.filter_eq_nil_iff]
  simp only [not_forall, not_not, exists_prop]

/-! ## Display ids in chunks -/

theorem mem_chunks {α : Type} {chunkSize : Nat} (hsize : 0 < chunkSize) {items : List α} {x : α}
    (hx : x ∈ items) : ∃ chunk ∈ chunks chunkSize items, x ∈ chunk := by
  obtain ⟨i, hi, hget⟩ := List.mem_iff_getElem.1 hx
  have hchunk : i / chunkSize < (items.length + chunkSize - 1) / chunkSize := by
    have hlast : (i + chunkSize) / chunkSize ≤ (items.length + chunkSize - 1) / chunkSize :=
      Nat.div_le_div_right (by omega)
    rw [Nat.add_div_right _ hsize] at hlast
    exact hlast
  refine ⟨_, List.mem_map.2 ⟨i / chunkSize, List.mem_range.2 hchunk, rfl⟩, ?_⟩
  have hsplit : chunkSize * (i / chunkSize) + i % chunkSize = i := Nat.div_add_mod i chunkSize
  refine List.mem_of_getElem? (i := i % chunkSize) ?_
  rw [List.getElem?_take_of_lt (Nat.mod_lt _ hsize), List.getElem?_drop, hsplit,
    List.getElem?_eq_getElem hi, hget]

/-- The chunks lose no display id. -/
theorem mem_spendableBillV3DisplayIds {displayId ownerAddress : String} {displayIds : List String}
    (hin : displayId ∈ displayIds) :
    displayId ∈ store.spendableBillV3DisplayIds ownerAddress displayIds ↔
      ∃ row ∈ store.bills, store.listed displayId ownerAddress row = true := by
  unfold spendableBillV3DisplayIds
  dsimp only
  constructor
  · intro h
    obtain ⟨chunk, -, hfound⟩ := List.mem_flatMap.1 h
    obtain ⟨row, hrow, rfl⟩ := List.mem_map.1 hfound
    obtain ⟨hrow, hnewest⟩ := List.mem_filter.1 hrow
    obtain ⟨hmem, hspendable⟩ := List.mem_filter.1 hrow
    obtain ⟨howner, hstatus, -⟩ := of_decide_eq_true hspendable
    exact ⟨row, hmem, listed_iff.2 ⟨rfl, howner, hstatus, hnewest⟩⟩
  · rintro ⟨row, hmem, hlisted⟩
    obtain ⟨rfl, howner, hstatus, hnewest⟩ := listed_iff.1 hlisted
    have hstripped : row.bill.displayId ∈
        (displayIds.map Text.strip).filter fun displayId => displayId ≠ "" := by
      refine List.mem_filter.2 ⟨List.mem_map.2 ⟨_, hin, row.bill.displayId_strip⟩, ?_⟩
      exact decide_eq_true row.bill.displayId_ne
    obtain ⟨chunk, hchunk, hinchunk⟩ := mem_chunks (by decide : 0 < 800) hstripped
    refine List.mem_flatMap.2 ⟨chunk, hchunk, List.mem_map.2 ⟨row, ?_, rfl⟩⟩
    refine List.mem_filter.2 ⟨List.mem_filter.2 ⟨hmem, ?_⟩, hnewest⟩
    exact decide_eq_true ⟨howner, hstatus, hinchunk⟩

/-! ## The row on which the confidence decides -/

theorem newestOrder_le {a b : BillRow} (h : newestOrder a ≤ newestOrder b) :
    b.bill.sequence ≤ a.bill.sequence ∧
      (a.bill.sequence = b.bill.sequence → statusOrder b.status ≤ statusOrder a.status) := by
  unfold newestOrder at h
  rw [Prod.Lex.toLex_le_toLex, Prod.Lex.toLex_le_toLex] at h
  dsimp only at h
  omega

theorem spendableOrder_le {a b : BillRow} (h : spendableOrder a ≤ spendableOrder b) :
    b.bill.sequence ≤ a.bill.sequence ∧
      (a.bill.sequence = b.bill.sequence → statusOrder b.status ≤ statusOrder a.status) := by
  unfold spendableOrder at h
  rw [Prod.Lex.toLex_le_toLex, Prod.Lex.toLex_le_toLex] at h
  dsimp only at h
  omega

/-- Two newest rows of a token have one sequence. -/
theorem NewestRow.sequence_eq {tokenId owner owner' : String} {row other : BillRow}
    (h : store.NewestRow tokenId owner row) (k : store.NewestRow tokenId owner' other) :
    row.bill.sequence = other.bill.sequence :=
  le_antisymm
    (isNewest_iff.1 k.newest row h.mem (h.token.trans k.token.symm))
    (isNewest_iff.1 h.newest other k.mem (k.token.trans h.token.symm))

/-- What the row of `bill_v3_confidence` is: a newest row of the token, and the best one of the owner,
    unless all newest rows of the owner are pending. -/
structure DecidesOn (store : LocalStore) (tokenId ownerAddress : String) (record : BillRow) : Prop where
  newest : store.NewestRow tokenId "" record
  best : Counted ownerAddress record → ∀ row, store.NewestRow tokenId ownerAddress row →
    statusOrder row.status ≤ statusOrder record.status
  others : ¬ Counted ownerAddress record → ∀ row, store.NewestRow tokenId ownerAddress row →
    row.status = .pending

/-- The newest row of a token, in the order of `bill_v3_confidence`. -/
theorem newestOrder_first {tokenId : String} {record : BillRow}
    (h : Select.first newestOrder (fun _ => true)
      (store.bills.filter fun row => row.bill.tokenId = tokenId) = some record) :
    store.NewestRow tokenId "" record ∧ ∀ row owner, store.NewestRow tokenId owner row →
      statusOrder row.status ≤ statusOrder record.status := by
  obtain ⟨hin, -, hfirst⟩ := Select.first_eq_some h
  rw [List.mem_filter, decide_eq_true_eq] at hin
  have hle : ∀ row ∈ store.bills, row.bill.tokenId = tokenId →
      newestOrder record ≤ newestOrder row := fun row hrow htoken =>
    hfirst row (List.mem_filter.2 ⟨hrow, decide_eq_true htoken⟩) rfl
  have hnewest : store.NewestRow tokenId "" record := by
    refine ⟨hin.1, hin.2, Or.inl rfl, isNewest_iff.2 fun other hother htoken => ?_⟩
    exact (newestOrder_le (hle other hother (htoken.trans hin.2))).1
  refine ⟨hnewest, fun row owner hrow => ?_⟩
  exact (newestOrder_le (hle row hrow.mem hrow.token)).2 (hnewest.sequence_eq hrow)

theorem mem_settledOrVerified {status : BillStatus} :
    status ∈ [BillStatus.settled, BillStatus.verified] ↔ status ≠ .pending := by
  cases status <;> simp

theorem fallbackRow_eq_some {tokenId owner : String} {fallback : BillRow}
    (h : store.fallbackRow tokenId owner = some fallback) :
    fallback ∈ store.bills ∧ fallback.bill.tokenId = tokenId ∧
      fallback.bill.ownerAddress = owner ∧ fallback.status ≠ .pending ∧
      ∀ row ∈ store.bills, row.bill.tokenId = tokenId → row.bill.ownerAddress = owner →
        row.status ≠ .pending → spendableOrder fallback ≤ spendableOrder row := by
  obtain ⟨hin, -, hfirst⟩ := Select.first_eq_some h
  rw [List.mem_filter, decide_eq_true_eq, mem_settledOrVerified] at hin
  refine ⟨hin.1, hin.2.1, hin.2.2.1, hin.2.2.2, fun row hrow htoken howner hstatus => ?_⟩
  refine hfirst row (List.mem_filter.2 ⟨hrow, decide_eq_true ⟨htoken, howner, ?_⟩⟩) rfl
  exact mem_settledOrVerified.2 hstatus

theorem confidenceRow_decides {tokenId owner : String} {record : BillRow}
    (h : store.confidenceRow tokenId owner = some record) :
    store.DecidesOn tokenId owner record := by
  unfold confidenceRow at h
  split at h
  · exact absurd h (by simp)
  · next row hfirst =>
    obtain ⟨hnewest, hbest⟩ := newestOrder_first hfirst
    have hkept : Counted owner row → store.DecidesOn tokenId owner row := fun hcounted =>
      ⟨hnewest, fun _ other hother => hbest other owner hother, fun hnot => absurd hcounted hnot⟩
    split at h
    · next hother =>
      have hnot : ¬ Counted owner row := not_or.2 hother
      -- A newest row of the owner that is not pending is not below the fallback row.
      have hpending : (∀ fallback, store.fallbackRow tokenId owner = some fallback →
          store.isNewest fallback = false) → store.DecidesOn tokenId owner row := by
        intro hstale
        refine ⟨hnewest, fun hcounted => absurd hcounted hnot, fun _ other hnew => ?_⟩
        by_contra hstatus
        have howner : other.bill.ownerAddress = owner := hnew.counted.resolve_left hother.1
        have hin : other ∈ store.bills.filter fun row => row.bill.tokenId = tokenId ∧
            row.bill.ownerAddress = owner ∧ row.status ∈ [BillStatus.settled, BillStatus.verified] :=
          List.mem_filter.2 ⟨hnew.mem, decide_eq_true
            ⟨hnew.token, howner, mem_settledOrVerified.2 hstatus⟩⟩
        have hexists : ∃ fallback, store.fallbackRow tokenId owner = some fallback :=
          Select.exists_first hin rfl
        obtain ⟨fallback, hfallback⟩ := hexists
        obtain ⟨hmem, htoken, -, -, hleast⟩ := fallbackRow_eq_some hfallback
        have hle := spendableOrder_le (hleast other hnew.mem hnew.token howner hstatus)
        have hfresh : store.isNewest fallback = true := isNewest_iff.2 fun third hthird hsame =>
          (isNewest_iff.1 hnew.newest third hthird
            (hsame.trans (htoken.trans hnew.token.symm))).trans hle.1
        rw [hstale fallback hfallback] at hfresh
        exact absurd hfresh (by decide)
      split at h
      · next hnone =>
        cases h
        exact hpending fun fallback hsome => by rw [hnone] at hsome; exact absurd hsome (by simp)
      · next fallback hsome =>
        obtain ⟨hmem, htoken, howner, hstatus, hleast⟩ := fallbackRow_eq_some hsome
        split at h
        · next hfresh =>
          cases h
          have hcounted : store.NewestRow tokenId owner record :=
            ⟨hmem, htoken, Or.inr howner, hfresh⟩
          refine ⟨⟨hmem, htoken, Or.inl rfl, hfresh⟩, fun _ other hnew => ?_,
            fun hno => absurd hcounted.counted hno⟩
          by_cases hother' : other.status = .pending
          · rw [hother']
            cases hf : record.status with
            | pending => exact absurd hf hstatus
            | verified => decide
            | settled => decide
          · exact (spendableOrder_le (hleast other hnew.mem hnew.token
              (hnew.counted.resolve_left hother.1) hother')).2 (hcounted.sequence_eq hnew)
        · next hstale =>
          cases h
          refine hpending fun other hsome' => ?_
          rw [hsome] at hsome'
          cases hsome'
          simpa using hstale
    · next hcounted =>
      cases h
      refine hkept ?_
      by_cases howner : owner = ""
      · exact Or.inl howner
      · exact Or.inr (not_not.1 fun hne => hcounted ⟨howner, hne⟩)

theorem exists_confidenceRow {tokenId : String} (owner : String) {row : BillRow} (hrow : row ∈ store.bills)
    (htoken : row.bill.tokenId = tokenId) :
    ∃ record, store.confidenceRow tokenId owner = some record := by
  have hin : row ∈ store.bills.filter fun row => row.bill.tokenId = tokenId :=
    List.mem_filter.2 ⟨hrow, decide_eq_true htoken⟩
  have hexists : ∃ first, Select.first newestOrder (fun _ => true)
      (store.bills.filter fun row => row.bill.tokenId = tokenId) = some first :=
    Select.exists_first hin rfl
  obtain ⟨first, hfirst⟩ := hexists
  unfold confidenceRow
  rw [hfirst]
  dsimp only
  split
  · split
    · exact ⟨_, rfl⟩
    · split
      · exact ⟨_, rfl⟩
      · exact ⟨_, rfl⟩
  · exact ⟨_, rfl⟩

/-! ## When the confidence accepts -/

theorem mem_spendableStatuses {status : BillStatus} :
    status ∈ store.spendableBillV3Statuses ↔
      status = .settled ∨ status = .verified ∧ store.settlementQuorumEnabled = false := by
  unfold spendableBillV3Statuses
  cases store.settlementQuorumEnabled <;> cases status <;> simp

/-- A row that no conflict stops is accepted if it is the owner's and spendable. -/
theorem settledAnswer_accepted {owner : String} {record : BillRow} (hage : record.updatedAt ≤ now) :
    (billV3Confidence.settledAnswer store owner 0 now record).accepted = true ↔
      Counted owner record ∧ record.status ∈ store.spendableBillV3Statuses := by
  unfold billV3Confidence.settledAnswer
  by_cases howner : owner ≠ "" ∧ record.bill.ownerAddress ≠ owner
  · rw [if_pos howner]
    simp only [Bool.false_eq_true, false_iff, not_and]
    exact fun hcounted => absurd hcounted (not_or.2 howner)
  · have hcounted : Counted owner record := by
      by_cases hempty : owner = ""
      · exact Or.inl hempty
      · exact Or.inr (not_not.1 fun hne => howner ⟨hempty, hne⟩)
    have hfresh : ¬ now - record.updatedAt < 0 := by omega
    rw [if_neg howner, mem_spendableStatuses]
    cases hstatus : record.status with
    | pending => simp
    | verified => cases store.settlementQuorumEnabled <;> simp [hcounted]
    | settled => simp [hfresh, hcounted]

theorem settledAnswer_sequence {owner : String} {record : BillRow}
    (h : (billV3Confidence.settledAnswer store owner 0 now record).accepted = true) :
    (billV3Confidence.settledAnswer store owner 0 now record).sequence
      = some record.bill.sequence := by
  unfold billV3Confidence.settledAnswer at h ⊢
  split
  · next howner => simp [howner] at h
  · next howner =>
    rw [if_neg howner] at h
    cases hstatus : record.status with
    | pending => simp [hstatus] at h
    | verified => cases hquorum : store.settlementQuorumEnabled <;> simp [hstatus, hquorum] at h ⊢
    | settled =>
      rw [hstatus] at h
      dsimp only at h ⊢
      split
      · next hage => simp [hage] at h
      · rfl

variable (v now) in
/-- The confidence in terms of the row on which it decides. -/
theorem billV3Confidence_eq {tokenId owner : String} {record : BillRow}
    (hrecord : store.confidenceRow tokenId owner = some record) :
    ((∀ row, ¬ store.OpenConflict v tokenId row) ∨ record.status = .settled) ∧
      (store.billV3Confidence v tokenId owner 0 now).1
        = billV3Confidence.settledAnswer store owner 0 now record ∨
    ¬ ((∀ row, ¬ store.OpenConflict v tokenId row) ∨ record.status = .settled) ∧
      (store.billV3Confidence v tokenId owner 0 now).1.accepted = false := by
  unfold billV3Confidence
  rw [hrecord]
  dsimp only
  cases hlatest : (store.latestConflictProofV3ForToken v tokenId).1 with
  | none => exact Or.inl ⟨Or.inl (latestConflictProofV3ForToken_eq_none.1 hlatest), rfl⟩
  | some proof =>
    dsimp only
    by_cases hsettled : record.status = .settled
    · rw [if_neg (not_not.2 hsettled)]
      exact Or.inl ⟨Or.inr hsettled, rfl⟩
    · rw [if_pos hsettled]
      refine Or.inr ⟨?_, rfl⟩
      rintro (hnone | heq)
      · obtain ⟨row, hopen, -⟩ := latestConflictProofV3ForToken_eq_some hlatest
        exact hnone row hopen
      · exact hsettled heq

theorem accepted_iff {tokenId owner : String} (htimely : store.UpdatedBy now) :
    (store.billV3Confidence v tokenId owner 0 now).1.accepted = true ↔
      ∃ row, store.NewestRow tokenId owner row ∧ row.status ∈ store.spendableBillV3Statuses ∧
        store.Clear v tokenId owner := by
  constructor
  · intro h
    cases hrecord : store.confidenceRow tokenId owner with
    | none =>
      unfold billV3Confidence at h
      rw [hrecord] at h
      exact absurd h (by simp)
    | some record =>
      have hdecides := confidenceRow_decides hrecord
      rcases billV3Confidence_eq v now hrecord with ⟨hclear, heq⟩ | ⟨-, heq⟩
      · rw [heq, settledAnswer_accepted (htimely record hdecides.newest.mem)] at h
        have hnewest : store.NewestRow tokenId owner record :=
          { hdecides.newest with counted := h.1 }
        exact ⟨record, hnewest, h.2, hclear.imp id fun hsettled => ⟨record, hnewest, hsettled⟩⟩
      · rw [heq] at h
        exact absurd h (by decide)
  · rintro ⟨row, hrow, hspendable, hclear⟩
    obtain ⟨record, hrecord⟩ := exists_confidenceRow owner hrow.mem hrow.token
    have hdecides := confidenceRow_decides hrecord
    have hcounted : Counted owner record := by
      by_contra hno
      rw [hdecides.others hno row hrow, mem_spendableStatuses] at hspendable
      simp at hspendable
    -- The row of the answer is at least as good as any newest row of the owner.
    have hbest := hdecides.best hcounted
    have hstops : (∀ row, ¬ store.OpenConflict v tokenId row) ∨ record.status = .settled := by
      refine hclear.imp id ?_
      rintro ⟨settled, hnew, hsettled⟩
      have hle := hbest settled hnew
      rw [hsettled] at hle
      cases hstatus : record.status with
      | settled => rfl
      | verified => rw [hstatus] at hle; exact absurd hle (by decide)
      | pending => rw [hstatus] at hle; exact absurd hle (by decide)
    have hstatus : record.status ∈ store.spendableBillV3Statuses := by
      have hle := hbest row hrow
      rw [mem_spendableStatuses] at hspendable ⊢
      rcases hspendable with hsettled | ⟨hverified, hquorum⟩
      · rw [hsettled] at hle
        cases hrec : record.status with
        | settled => exact Or.inl rfl
        | verified => rw [hrec] at hle; exact absurd hle (by decide)
        | pending => rw [hrec] at hle; exact absurd hle (by decide)
      · rw [hverified] at hle
        cases hrec : record.status with
        | settled => exact Or.inl rfl
        | verified => exact Or.inr ⟨rfl, hquorum⟩
        | pending => rw [hrec] at hle; exact absurd hle (by decide)
    rcases billV3Confidence_eq v now hrecord with ⟨-, heq⟩ | ⟨hno, -⟩
    · rw [heq, settledAnswer_accepted (htimely record hdecides.newest.mem)]
      exact ⟨hcounted, hstatus⟩
    · exact absurd hstops hno

/-- An accepted confidence gives the newest sequence of the token. -/
theorem accepted_sequence {tokenId owner owner' : String} {row : BillRow}
    (h : (store.billV3Confidence v tokenId owner 0 now).1.accepted = true)
    (hrow : store.NewestRow tokenId owner' row) :
    (store.billV3Confidence v tokenId owner 0 now).1.sequence = some row.bill.sequence := by
  obtain ⟨record, hrecord⟩ := exists_confidenceRow owner hrow.mem hrow.token
  rcases billV3Confidence_eq v now hrecord with ⟨-, heq⟩ | ⟨-, heq⟩
  · rw [heq] at h ⊢
    rw [settledAnswer_sequence h, (confidenceRow_decides hrecord).newest.sequence_eq hrow]
  · rw [heq] at h
    exact absurd h (by decide)

/-! ## The views -/

/-- The three views agree on an owner: the two queries of spendable bills find the same display ids, a
    bill that is offered has an accepted confidence with its sequence, and a token whose confidence is
    accepted is offered. -/
structure ViewsAgree (store : LocalStore) (v : Verification) (owner : String) (now : Int) : Prop where
  listed : ∀ displayId displayIds, displayId ∈ displayIds →
    ((store.getSpendableBillV3ByDisplayId displayId owner).isSome = true ↔
      displayId ∈ store.spendableBillV3DisplayIds owner displayIds)
  confident : ∀ displayId bill, store.getSpendableBillV3ByDisplayId displayId owner = some bill →
    (store.billV3Confidence v bill.tokenId owner 0 now).1.accepted = true ∧
      (store.billV3Confidence v bill.tokenId owner 0 now).1.sequence = some bill.sequence
  offered : ∀ tokenId, (store.billV3Confidence v tokenId owner 0 now).1.accepted = true →
    ∃ displayId bill, store.getSpendableBillV3ByDisplayId displayId owner = some bill ∧
      bill.tokenId = tokenId ∧
        (store.billV3Confidence v tokenId owner 0 now).1.sequence = some bill.sequence

/-- What the views need: the row that is listed first under a display id is of a token that no conflict
    stops, and every token of the owner that no conflict stops is listed first under some display id. -/
structure Unobstructed (store : LocalStore) (v : Verification) (owner : String) : Prop where
  clear : ∀ displayId row, store.ListedFirst displayId owner row →
    store.Clear v row.bill.tokenId owner
  first : ∀ tokenId row, store.NewestRow tokenId owner row →
    row.status ∈ store.spendableBillV3Statuses → store.Clear v tokenId owner →
      ∃ displayId first, store.ListedFirst displayId owner first ∧ first.bill.tokenId = tokenId

/-- The views of a reachable store agree on an owner exactly if nothing obstructs them. -/
theorem viewsAgree_iff (hreach : store.Reachable) (v : Verification) (owner : String)
    (hnow : store.clock ≤ now) :
    store.ViewsAgree v owner now ↔ store.Unobstructed v owner := by
  have htimely : store.UpdatedBy now := fun row hrow => (hreach.timely row hrow).trans hnow
  constructor
  · intro h
    refine ⟨fun displayId row hfirst => ?_, fun tokenId row hrow hspendable hclear => ?_⟩
    · have hget := getSpendableBillV3ByDisplayId_eq_some.2 ⟨row, hfirst, rfl⟩
      obtain ⟨-, -, -, hclear⟩ := (accepted_iff htimely).1 (h.confident displayId row.bill hget).1
      exact hclear
    · obtain ⟨displayId, bill, hget, htoken, -⟩ :=
        h.offered tokenId ((accepted_iff htimely).2 ⟨row, hrow, hspendable, hclear⟩)
      obtain ⟨first, hfirst, rfl⟩ := getSpendableBillV3ByDisplayId_eq_some.1 hget
      exact ⟨displayId, first, hfirst, htoken⟩
  · intro h
    refine ⟨fun displayId displayIds hin => ?_, fun displayId bill hget => ?_,
      fun tokenId haccepted => ?_⟩
    · exact isSome_getSpendable_iff.trans (mem_spendableBillV3DisplayIds hin).symm
    · obtain ⟨row, hfirst, rfl⟩ := getSpendableBillV3ByDisplayId_eq_some.1 hget
      have hspendable := (listed_iff.1 hfirst.listed.2).2.2.1
      have haccepted := (accepted_iff htimely).2
        ⟨row, hfirst.newestRow, hspendable, h.clear displayId row hfirst⟩
      exact ⟨haccepted, accepted_sequence haccepted hfirst.newestRow⟩
    · obtain ⟨row, hrow, hspendable, hclear⟩ := (accepted_iff htimely).1 haccepted
      obtain ⟨displayId, first, hfirst, htoken⟩ := h.first tokenId row hrow hspendable hclear
      refine ⟨displayId, first.bill, getSpendableBillV3ByDisplayId_eq_some.2 ⟨first, hfirst, rfl⟩,
        htoken, ?_⟩
      exact accepted_sequence haccepted (htoken ▸ hfirst.newestRow)

/-- Two announcements of one token, from `A` to `B` and from `A` to `C`. -/
def sampleFork : List Event :=
  [⟨10, .announcement everythingVerifies
      (sampleAnnouncement (sampleBill "b1" (sampleTransfer "B" "x") none))⟩,
    ⟨20, .announcement everythingVerifies
      (sampleAnnouncement (sampleBill "b2" (sampleTransfer "C" "y") none))⟩]

/-- The store after some events, from an empty store without a settlement quorum. -/
def sampleStore (events : List Event) : LocalStore :=
  (Runs.exec step (initial false 0 false) events).getD (initial false 0 false)

theorem reachable_sampleStore {events : List Event}
    (h : (Runs.exec step (initial false 0 false) events).isSome = true) :
    (sampleStore events).Reachable := by
  obtain ⟨store, hstore⟩ := Option.isSome_iff_exists.1 h
  have hsample : sampleStore events = store := by
    unfold sampleStore
    rw [hstore, Option.getD_some]
  rw [hsample]
  exact ⟨_, _, _, Runs.reaches_of_exec hstore (Runs.meetsAll_of_forall fun _ _ _ => trivial)⟩

theorem viewsAgree_iff_sample : (sampleStore sampleFork).clock ≤ 30 ∧
    ((sampleStore sampleFork).ViewsAgree everythingVerifies "B" 30 ↔
      (sampleStore sampleFork).Unobstructed everythingVerifies "B") :=
  ⟨by decide, viewsAgree_iff (reachable_sampleStore (by decide)) everythingVerifies "B" (by decide)⟩

/-- Of two conflicting bills, the second is offered to its owner and its confidence is a conflict. -/
theorem not_viewsAgree : ¬ ∀ (store : LocalStore) (v : Verification) (owner : String) (now : Int),
    store.Reachable → store.clock ≤ now → store.ViewsAgree v owner now := by
  intro h
  have hagree := h (sampleStore sampleFork) everythingVerifies "C" 30
    (reachable_sampleStore (by decide)) (by decide)
  have haccepted := (hagree.confident "1x1" (sampleBill "b2" (sampleTransfer "C" "y") none)
    (by decide)).1
  exact absurd haccepted (by decide)

end LocalStore
