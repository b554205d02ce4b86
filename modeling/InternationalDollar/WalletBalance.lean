import InternationalDollar.Keys
import InternationalDollar.KnownRanges
import InternationalDollar.Lib.Dict
import InternationalDollar.Lib.Lines
import InternationalDollar.SpendViews

set_option autoImplicit false

/-! # The balance of a wallet (`wallet_services`)

The wallet marks the bills that it has sent, so that the rows of the store which are not newer stay hidden.
The list of bills on offer and the balance both apply this rule, each in its own loop. They part on a line
without a sequence: its bill is not on offer at all, but the balance takes the missing sequence for no
line. -/

namespace WalletServices

variable (crypto : Crypto) (int : String → Option Int)

/-! ## Sent lines -/

/-- `wallet_line_display_id`. -/
def walletLineDisplayId (line : String) : Option String :=
  if (Text.words line).isEmpty then none
  else if Check.returns (parseDisplayId crypto (CancelledSend.lineDisplayId line)
      "wallet bill display id") then some (CancelledSend.lineDisplayId line)
  else none

/-- `wallet_line_is_sent`. -/
def walletLineIsSent (line : String) : Bool :=
  CancelledSend.isMarked line && (walletLineDisplayId crypto line).isSome

/-- One turn of the loop of `wallet_sent_sequences`. A line without a sequence outweighs all others. -/
def addSent (sent : List (String × Option Int)) (line : String) : List (String × Option Int) :=
  match walletLineIsSent crypto line, walletLineDisplayId crypto line with
  | true, some displayId =>
      match AssocList.get? displayId sent, KnownRanges.lineSequence int line with
      | none, sequence => AssocList.put displayId sequence sent
      | some _, none => AssocList.put displayId none sent
      | some (some known), some sequence => AssocList.put displayId (some (max known sequence)) sent
      | some none, some _ => sent
  | _, _ => sent

/-- `wallet_sent_sequences`. -/
def walletSentSequences (lines : List String) : List (String × Option Int) :=
  (KnownRanges.walletBillLines crypto lines).foldl (addSent crypto int) []

/-- Whether a row stays visible. -/
def isVisible (sent : List (String × Option Int)) (record : BillRow) : Bool :=
  match AssocList.get? (Text.strip record.bill.displayId) sent with
  | none => true
  | some none => false
  | some (some sentSequence) => sentSequence < record.bill.sequence

/-- `filter_locally_sent_records`. -/
def filterLocallySentRecords (records : List BillRow) (lines : List String) : List BillRow :=
  let sent := walletSentSequences crypto int lines
  if sent.isEmpty then records else records.filter (isVisible sent)

/-! ## The bills on offer -/

variable (store : LocalStore) (address : String)

/-- `wallet_metadata_records` without a limit, which is also `wallet_count_records`. -/
def walletMetadataRecords (statuses : List BillStatus) : List BillRow :=
  if isAddress crypto address = true then
    KnownRanges.billV3MetadataRecordsForOwner crypto store address statuses
  else []

/-- `spendable_wallet_metadata_records`. -/
def spendableWalletMetadataRecords (lines : List String) : List BillRow :=
  filterLocallySentRecords crypto int
    (walletMetadataRecords crypto store address store.spendableBillV3Statuses) lines

/-- `spendable_wallet_display_ids`. -/
def spendableWalletDisplayIds (displayIds : List String) : List String :=
  if (displayIds.filter fun displayId => Text.strip displayId ≠ "").isEmpty = true ∨
      ¬ isAddress crypto address = true then []
  else store.spendableBillV3DisplayIds address displayIds

/-! ## The balance -/

/-- `wallet_display_value`. -/
def walletDisplayValue (displayId : String) : Int :=
  let text :=
    match (Text.strip displayId).toList with
    | '-' :: rest => rest
    | cs => cs
  match parseDisplayId crypto (String.ofList text) "display id" with
  | .ok parsed => parsed.1
  | .error _ => 0

/-- The counters of `wallet_balance_counts`. -/
structure BalanceCounts where
  spendable : Int → Nat
  pending : Int → Nat

/-- `spendable_counts[value] += 1`. -/
def BalanceCounts.addSpendable (counts : BalanceCounts) (value : Int) : BalanceCounts :=
  { counts with spendable := fun v => if v = value then counts.spendable v + 1 else counts.spendable v }

/-- `pending_counts[value] += 1`. -/
def BalanceCounts.addPending (counts : BalanceCounts) (value : Int) : BalanceCounts :=
  { counts with pending := fun v => if v = value then counts.pending v + 1 else counts.pending v }

/-- One turn of the loop of `wallet_balance_counts`. -/
def countRecord (values : List Int) (sent : List (String × Option Int)) (counts : BalanceCounts)
    (record : BillRow) : BalanceCounts :=
  let value := walletDisplayValue crypto record.bill.displayId
  if value ∉ values then counts
  else if record.status = .pending then counts.addPending value
  else if record.status ∉ store.spendableBillV3Statuses then
    if record.status = .verified then counts.addPending value else counts
  else
    match AssocList.get? (Text.strip record.bill.displayId) sent with
    | some (some sentSequence) =>
        if record.bill.sequence ≤ sentSequence then counts else counts.addSpendable value
    | _ =>
        -- `get` returns the same for a line without a sequence as for no line
        counts.addSpendable value

/-- What `wallet_balance_counts` returns. -/
structure WalletBalance where
  billCounts : List (Int × Nat)
  pendingBillCounts : List (Int × Nat)
  balance : Int

/-- `wallet_balance_counts`. -/
def walletBalanceCounts (lines : List String) (values : List Int) : WalletBalance :=
  let counts := (walletMetadataRecords crypto store address [.settled, .verified, .pending]).foldl
    (countRecord crypto store values (walletSentSequences crypto int lines)) ⟨fun _ => 0, fun _ => 0⟩
  let keys := dedupBy id [] values
  { billCounts := keys.map fun value => (value, counts.spendable value)
    pendingBillCounts := keys.map fun value => (value, counts.pending value)
    balance := (keys.map fun value => value * counts.spendable value).sum }

/-! ## The two loops -/

/-- The balance counts the bills on offer, and each of them can be spent. -/
structure BalanceAgrees (lines : List String) (values : List Int) : Prop where
  counts : ∀ value ∈ values,
    AssocList.get? value (walletBalanceCounts crypto int store address lines values).billCounts =
      some ((spendableWalletMetadataRecords crypto int store address lines).countP fun record =>
        walletDisplayValue crypto record.bill.displayId = value)
  listed : ∀ record ∈ spendableWalletMetadataRecords crypto int store address lines,
    ∀ displayIds, record.bill.displayId ∈ displayIds →
      record.bill.displayId ∈ spendableWalletDisplayIds crypto store address displayIds

/-- No line marks a bill as sent without a sequence, of those that the store would offer and the balance
    counts. -/
def NumbersSends (lines : List String) (values : List Int) : Prop :=
  ∀ line ∈ KnownRanges.walletBillLines crypto lines, walletLineIsSent crypto line = true →
    KnownRanges.lineSequence int line = none →
    ∀ record ∈ walletMetadataRecords crypto store address store.spendableBillV3Statuses,
      walletDisplayValue crypto record.bill.displayId ∈ values →
        walletLineDisplayId crypto line ≠ some record.bill.displayId

variable {crypto int store address}

/-! ## Sent lines without a sequence -/

theorem get?_addSent {sent : List (String × Option Int)} {line displayId : String} :
    AssocList.get? displayId (addSent crypto int sent line) = some none ↔
      AssocList.get? displayId sent = some none ∨
        walletLineIsSent crypto line = true ∧ walletLineDisplayId crypto line = some displayId ∧
          KnownRanges.lineSequence int line = none := by
  unfold addSent
  cases hsent : walletLineIsSent crypto line with
  | false => simp
  | true =>
    cases hid : walletLineDisplayId crypto line with
    | none => simp
    | some named =>
      simp only [Option.some.injEq, true_and]
      by_cases hnamed : displayId = named
      · subst hnamed
        cases hget : AssocList.get? displayId sent with
        | none =>
          cases hsequence : KnownRanges.lineSequence int line with
          | none => simp [AssocList.get?_put]
          | some sequence => simp [AssocList.get?_put]
        | some known =>
          cases hsequence : KnownRanges.lineSequence int line with
          | none => simp [AssocList.get?_put]
          | some sequence =>
            cases known with
            | none => simp [hget]
            | some known => simp [AssocList.get?_put]
      · have hput : ∀ sequence, AssocList.get? displayId (AssocList.put named sequence sent)
            = AssocList.get? displayId sent := fun sequence => by
          rw [AssocList.get?_put, if_neg hnamed]
        have hne : named ≠ displayId := Ne.symm hnamed
        split <;> simp [hput, hne]

theorem get?_walletSentSequences {lines : List String} {displayId : String} :
    AssocList.get? displayId (walletSentSequences crypto int lines) = some none ↔
      ∃ line ∈ KnownRanges.walletBillLines crypto lines, walletLineIsSent crypto line = true ∧
        walletLineDisplayId crypto line = some displayId ∧
          KnownRanges.lineSequence int line = none := by
  have hfold : ∀ (items : List String) (sent : List (String × Option Int)),
      AssocList.get? displayId (items.foldl (addSent crypto int) sent) = some none ↔
        AssocList.get? displayId sent = some none ∨ ∃ line ∈ items,
          walletLineIsSent crypto line = true ∧ walletLineDisplayId crypto line = some displayId ∧
            KnownRanges.lineSequence int line = none := by
    intro items
    induction items with
    | nil => simp
    | cons line rest ih =>
      intro sent
      rw [List.foldl_cons, ih, get?_addSent, or_assoc]
      simp only [List.mem_cons, exists_eq_or_imp]
  rw [walletSentSequences, hfold]
  simp [AssocList.get?]

/-! ## Counting -/

variable (crypto store) in
/-- Whether a record is on offer under a denomination that the balance shows. -/
def isCounted (values : List Int) (value : Int) (record : BillRow) : Bool :=
  decide (walletDisplayValue crypto record.bill.displayId = value ∧ value ∈ values ∧
    record.status ∈ store.spendableBillV3Statuses)

/-- Whether the mark of a sent line hides a record from the balance. -/
def isPassedOver (sent : List (String × Option Int)) (record : BillRow) : Bool :=
  match AssocList.get? (Text.strip record.bill.displayId) sent with
  | some (some sentSequence) => record.bill.sequence ≤ sentSequence
  | _ => false

theorem not_mem_pending : BillStatus.pending ∉ store.spendableBillV3Statuses := by
  unfold LocalStore.spendableBillV3Statuses
  split <;> decide

theorem countRecord_spendable (values : List Int) (sent : List (String × Option Int))
    (counts : BalanceCounts) (record : BillRow) (value : Int) :
    (countRecord crypto store values sent counts record).spendable value = counts.spendable value +
      if isCounted crypto store values value record && !isPassedOver sent record then 1 else 0 := by
  unfold countRecord isCounted isPassedOver
  dsimp only
  by_cases hvalue : walletDisplayValue crypto record.bill.displayId ∈ values
  · rw [if_neg (not_not.2 hvalue)]
    by_cases hpending : record.status = .pending
    · rw [if_pos hpending, hpending]
      simp [BalanceCounts.addPending, not_mem_pending]
    · rw [if_neg hpending]
      by_cases hspendable : record.status ∈ store.spendableBillV3Statuses
      · rw [if_neg (not_not.2 hspendable)]
        have hadd : (counts.addSpendable (walletDisplayValue crypto record.bill.displayId)).spendable value
            = counts.spendable value +
              if walletDisplayValue crypto record.bill.displayId = value ∧ value ∈ values ∧
                record.status ∈ store.spendableBillV3Statuses then 1 else 0 := by
          unfold BalanceCounts.addSpendable
          by_cases heq : walletDisplayValue crypto record.bill.displayId = value
          · subst heq
            simp [hvalue, hspendable]
          · simp [heq, Ne.symm heq]
        cases hget : AssocList.get? (Text.strip record.bill.displayId) sent with
        | none => simpa using hadd
        | some known =>
          cases known with
          | none => simpa using hadd
          | some sentSequence =>
            by_cases hle : record.bill.sequence ≤ sentSequence
            · simp [hle]
            · simpa [hle] using hadd
      · rw [if_pos hspendable]
        split <;> simp [hspendable, BalanceCounts.addPending]
  · rw [if_pos hvalue]
    have hnot : ¬ (walletDisplayValue crypto record.bill.displayId = value ∧ value ∈ values ∧
        record.status ∈ store.spendableBillV3Statuses) := by
      rintro ⟨rfl, hin, -⟩
      exact hvalue hin
    simp [hnot]

theorem foldl_countRecord_spendable (values : List Int) (sent : List (String × Option Int))
    (records : List BillRow) (counts : BalanceCounts) (value : Int) :
    (records.foldl (countRecord crypto store values sent) counts).spendable value
      = counts.spendable value + records.countP fun record =>
        isCounted crypto store values value record && !isPassedOver sent record := by
  induction records generalizing counts with
  | nil => rfl
  | cons record rest ih =>
    rw [List.foldl_cons, ih, countRecord_spendable, List.countP_cons]
    omega

/-- A row that the query on the rows of an owner lists, whatever its status. -/
def isListedFor (crypto : Crypto) (store : LocalStore) (address : String) (row : BillRow) : Bool :=
  decide (row.bill.ownerAddress = address) &&
    (Check.returns (parseDisplayId crypto row.bill.displayId "display id") &&
      !((row.status = .settled ∨ row.status = .verified) &&
        store.hasMaterializedNewerV3Branch row.bill.tokenId row.bill.sequence))

/-- Counting in the answer of the query is counting in the table. -/
theorem countP_metadata (statuses : List BillStatus) (p : BillRow → Bool) :
    (KnownRanges.billV3MetadataRecordsForOwner crypto store address statuses).countP p
      = store.bills.countP fun row =>
        p row && (isListedFor crypto store address row && decide (row.status ∈ statuses)) := by
  unfold KnownRanges.billV3MetadataRecordsForOwner Select.orderBy
  rw [List.countP_filter, (List.perm_insertionSort _ _).countP_eq, List.countP_filter]
  refine List.countP_congr fun row _ => ?_
  simp only [isListedFor, Bool.and_eq_true, decide_eq_true_eq]
  tauto

/-- The records of a status that can be spent are among those that the balance looks at. -/
theorem countP_balance (values : List Int) (value : Int) (p : BillRow → Bool) :
    (walletMetadataRecords crypto store address [.settled, .verified, .pending]).countP
        (fun record => isCounted crypto store values value record && p record)
      = (walletMetadataRecords crypto store address store.spendableBillV3Statuses).countP
        fun record => isCounted crypto store values value record && p record := by
  unfold walletMetadataRecords
  split
  · rw [countP_metadata, countP_metadata]
    refine List.countP_congr fun row _ => ?_
    have hall : row.status ∈ [BillStatus.settled, .verified, .pending] := by
      cases row.status <;> decide
    cases hcounted : isCounted crypto store values value row with
    | false => simp only [Bool.false_and]
    | true =>
      have hspendable := (of_decide_eq_true hcounted).2.2
      simp only [decide_eq_true hall, decide_eq_true hspendable]
  · rfl

theorem get?_map_of_mem {keys : List Int} (f : Int → Nat) {value : Int} (h : value ∈ keys) :
    AssocList.get? value (keys.map fun key => (key, f key)) = some (f value) := by
  induction keys with
  | nil => cases h
  | cons key rest ih =>
    rw [List.map_cons, AssocList.get?]
    split
    · next heq => rw [heq]
    · next hne => exact ih ((List.mem_cons.1 h).resolve_left (Ne.symm hne))

theorem get?_billCounts {lines : List String} {values : List Int} {value : Int} (h : value ∈ values) :
    AssocList.get? value (walletBalanceCounts crypto int store address lines values).billCounts
      = some ((walletMetadataRecords crypto store address store.spendableBillV3Statuses).countP
        fun record => isCounted crypto store values value record &&
          !isPassedOver (walletSentSequences crypto int lines) record) := by
  have hkey : value ∈ dedupBy id [] values := by
    obtain ⟨other, hother, heq⟩ := exists_mem_dedupBy id [] h List.not_mem_nil
    exact (show other = value from heq) ▸ hother
  simp only [walletBalanceCounts]
  rw [get?_map_of_mem _ hkey, foldl_countRecord_spendable, Nat.zero_add, countP_balance]

/-! ## Where the loops part -/

theorem filterLocallySentRecords_eq (records : List BillRow) (lines : List String) :
    filterLocallySentRecords crypto int records lines
      = records.filter (isVisible (walletSentSequences crypto int lines)) := by
  unfold filterLocallySentRecords
  dsimp only
  split
  · next hempty =>
    rw [List.isEmpty_iff.1 hempty]
    exact (List.filter_eq_self.2 fun _ _ => rfl).symm
  · rfl

/-- The two loops decide alike, but for a record that a line without a sequence marks as sent. -/
theorem isVisible_eq (sent : List (String × Option Int)) (record : BillRow) :
    isVisible sent record = (!isPassedOver sent record &&
      !decide (AssocList.get? record.bill.displayId sent = some none)) := by
  unfold isVisible isPassedOver
  rw [record.bill.displayId_strip]
  cases AssocList.get? record.bill.displayId sent with
  | none => rfl
  | some known =>
    cases known with
    | none => rfl
    | some sentSequence =>
      by_cases hle : record.bill.sequence ≤ sentSequence
      · simp [hle]
      · simp [hle, not_le.1 hle]

/-- A condition that holds as often as a weaker one holds where the weaker one does. -/
theorem of_countP_eq {α : Type} {p q : α → Bool} {l : List α} (hpq : ∀ a ∈ l, p a = true → q a = true)
    (h : l.countP p = l.countP q) : ∀ a ∈ l, q a = true → p a = true := by
  induction l with
  | nil => exact fun _ ha => nomatch ha
  | cons x rest ih =>
    have hrest : ∀ a ∈ rest, p a = true → q a = true := fun a ha => hpq a (List.mem_cons_of_mem _ ha)
    have hle := List.countP_mono_left hrest
    have hx := hpq x List.mem_cons_self
    rw [List.countP_cons, List.countP_cons] at h
    have hhead : q x = true → p x = true := by
      intro hqx
      by_contra hpx
      rw [if_neg hpx, if_pos hqx] at h
      omega
    have htail : rest.countP p = rest.countP q := by
      by_cases hpx : p x = true
      · rw [if_pos hpx, if_pos (hx hpx)] at h
        omega
      · rw [if_neg hpx, if_neg fun hqx => hpx (hhead hqx)] at h
        omega
    intro a ha hqa
    rcases List.mem_cons.1 ha with rfl | ha
    · exact hhead hqa
    · exact ih hrest htail a ha hqa

theorem mem_walletMetadataRecords {statuses : List BillStatus} {record : BillRow}
    (h : record ∈ walletMetadataRecords crypto store address statuses) :
    isAddress crypto address = true ∧ record ∈ store.bills ∧ record.bill.ownerAddress = address ∧
      record.status ∈ statuses ∧
      ((record.status = .settled ∨ record.status = .verified) → store.isNewest record = true) := by
  unfold walletMetadataRecords KnownRanges.billV3MetadataRecordsForOwner at h
  split at h
  · next haddress =>
    obtain ⟨hmem, hkept⟩ := List.mem_filter.1 h
    obtain ⟨hrow, hquery⟩ := List.mem_filter.1 (Select.mem_orderBy.1 hmem)
    obtain ⟨howner, hstatus⟩ := of_decide_eq_true hquery
    refine ⟨haddress, hrow, howner, hstatus, fun hsettled => ?_⟩
    have hnewest := (Bool.and_eq_true_iff.1 hkept).2
    rw [decide_eq_true hsettled, Bool.true_and] at hnewest
    exact hnewest
  · cases h

/-- Every bill on offer is one that the store offers for spending. -/
theorem mem_spendableWalletDisplayIds {lines : List String} {record : BillRow}
    (h : record ∈ spendableWalletMetadataRecords crypto int store address lines)
    {displayIds : List String} (hin : record.bill.displayId ∈ displayIds) :
    record.bill.displayId ∈ spendableWalletDisplayIds crypto store address displayIds := by
  rw [spendableWalletMetadataRecords, filterLocallySentRecords_eq] at h
  obtain ⟨haddress, hrow, howner, hstatus, hnewest⟩ :=
    mem_walletMetadataRecords (List.mem_filter.1 h).1
  have hsettled : record.status = .settled ∨ record.status = .verified := by
    cases hcase : record.status with
    | settled => exact Or.inl rfl
    | verified => exact Or.inr rfl
    | pending => exact absurd (hcase ▸ hstatus) not_mem_pending
  have hnonempty : ¬ ((displayIds.filter fun displayId => Text.strip displayId ≠ "").isEmpty = true ∨
      ¬ isAddress crypto address = true) := by
    rintro (hempty | hnot)
    · have hmem : record.bill.displayId ∈
          displayIds.filter fun displayId => Text.strip displayId ≠ "" := by
        refine List.mem_filter.2 ⟨hin, decide_eq_true ?_⟩
        rw [record.bill.displayId_strip]
        exact record.bill.displayId_ne
      rw [List.isEmpty_iff.1 hempty] at hmem
      cases hmem
    · exact hnot haddress
  rw [spendableWalletDisplayIds, if_neg hnonempty, LocalStore.mem_spendableBillV3DisplayIds hin]
  exact ⟨record, hrow, LocalStore.listed_iff.2 ⟨rfl, howner, hstatus, hnewest hsettled⟩⟩

/-- Among the records that can be spent, being counted is a matter of the denomination. -/
theorem isCounted_eq {values : List Int} {value : Int} (h : value ∈ values) {record : BillRow}
    (hrecord : record ∈ walletMetadataRecords crypto store address store.spendableBillV3Statuses) :
    isCounted crypto store values value record
      = decide (walletDisplayValue crypto record.bill.displayId = value) := by
  obtain ⟨-, -, -, hstatus, -⟩ := mem_walletMetadataRecords hrecord
  simp only [isCounted, h, hstatus, and_true]

/-- The two counts of a denomination, over the records that the store would offer. -/
theorem counts_iff {lines : List String} {values : List Int} {value : Int} (h : value ∈ values) :
    AssocList.get? value (walletBalanceCounts crypto int store address lines values).billCounts =
        some ((spendableWalletMetadataRecords crypto int store address lines).countP fun record =>
          walletDisplayValue crypto record.bill.displayId = value) ↔
      ∀ record ∈ walletMetadataRecords crypto store address store.spendableBillV3Statuses,
        walletDisplayValue crypto record.bill.displayId = value →
          AssocList.get? record.bill.displayId (walletSentSequences crypto int lines) ≠ some none := by
  rw [get?_billCounts h, spendableWalletMetadataRecords, filterLocallySentRecords_eq, List.countP_filter,
    Option.some.injEq]
  constructor
  · intro hcount record hrecord hvalue hmarked
    -- a visible record is counted, so equal counts say that a counted one is visible
    have hvisible := of_countP_eq (fun other hother hoffer => ?_) hcount.symm record hrecord ?_
    · rw [Bool.and_eq_true, isVisible_eq, Bool.and_eq_true, decide_eq_true hmarked] at hvisible
      exact absurd hvisible.2.2 (by decide)
    · rw [Bool.and_eq_true, isVisible_eq, Bool.and_eq_true] at hoffer
      rw [isCounted_eq h hother, Bool.and_eq_true]
      exact ⟨hoffer.1, hoffer.2.1⟩
    · rw [isCounted_eq h hrecord, Bool.and_eq_true]
      refine ⟨decide_eq_true hvalue, ?_⟩
      rw [isPassedOver, record.bill.displayId_strip, hmarked]
      rfl
  · intro hunmarked
    refine List.countP_congr fun record hrecord => ?_
    rw [isCounted_eq h hrecord, isVisible_eq]
    by_cases hvalue : walletDisplayValue crypto record.bill.displayId = value
    · rw [decide_eq_false (hunmarked record hrecord hvalue), Bool.not_false, Bool.and_true]
    · rw [decide_eq_false hvalue, Bool.false_and, Bool.false_and]

/-- The balance agrees with the bills on offer exactly when no bill that both would show is marked by a
    line without a sequence. -/
theorem balanceAgrees_iff (crypto : Crypto) (int : String → Option Int) (store : LocalStore)
    (address : String) (lines : List String) (values : List Int) :
    BalanceAgrees crypto int store address lines values ↔
      NumbersSends crypto int store address lines values := by
  constructor
  · intro hagrees line hline hsent hsequence record hrecord hvalue hnamed
    refine (counts_iff hvalue).1 (hagrees.counts _ hvalue) record hrecord rfl ?_
    exact get?_walletSentSequences.2 ⟨line, hline, hsent, hnamed, hsequence⟩
  · intro hnumbers
    refine ⟨fun value hvalue => (counts_iff hvalue).2 fun record hrecord heq hmarked => ?_,
      fun record hrecord displayIds hin => mem_spendableWalletDisplayIds hrecord hin⟩
    obtain ⟨line, hline, hsent, hnamed, hsequence⟩ := get?_walletSentSequences.1 hmarked
    exact hnumbers line hline hsent hsequence record hrecord (heq ▸ hvalue) hnamed

/-! ## A mark without a sequence -/

/-- A store with one settled bill. -/
def oneBillStore (address : String) : LocalStore :=
  { LocalStore.initial false 0 false with
    bills := [⟨LocalStore.sampleBill "b" (LocalStore.sampleTransfer address "h") none, 0, 0, .settled⟩] }

theorem walletDisplayValue_sample (crypto : Crypto) : walletDisplayValue crypto "1x1" = 1 := rfl

theorem mem_metadata_oneBillStore (keys : KeyPair sampleCrypto) :
    ⟨LocalStore.sampleBill "b" (LocalStore.sampleTransfer keys.address "h") none, 0, 0, .settled⟩ ∈
      walletMetadataRecords sampleCrypto (oneBillStore keys.address) keys.address
        (oneBillStore keys.address).spendableBillV3Statuses := by
  rw [walletMetadataRecords, if_pos keys.isAddress_address, KnownRanges.billV3MetadataRecordsForOwner]
  refine List.mem_filter.2 ⟨Select.mem_orderBy.2 (List.mem_filter.2 ⟨List.mem_singleton_self _, ?_⟩), ?_⟩
  · exact decide_eq_true ⟨rfl, List.mem_cons_self⟩
  · have hparse : parseDisplayId sampleCrypto "1x1" "display id" = .ok (1, 1) := rfl
    rw [LocalStore.hasMaterializedNewerV3Branch]
    simp [oneBillStore, LocalStore.sampleBill, hparse, Check.returns]

/-- **The balance counts a bill that the wallet hides as sent.** -/
theorem not_balanceAgrees : ¬ ∀ (crypto : Crypto) (int : String → Option Int) (store : LocalStore)
    (address : String) (lines : List String) (values : List Int),
    BalanceAgrees crypto int store address lines values := by
  intro h
  obtain ⟨keys, -⟩ := KeyPair.exists_of_seed sampleCrypto (List.replicate 32 0) List.length_replicate
  -- the line of the wallet has no second word
  have hagrees := h sampleCrypto Text.intOfText (oneBillStore keys.address) keys.address
    [keys.address, "private", "public", "-1x1"] [1]
  have hlines : KnownRanges.walletBillLines sampleCrypto
      [keys.address, "private", "public", "-1x1"] = ["-1x1"] := rfl
  have hmarked : AssocList.get? "1x1" (walletSentSequences sampleCrypto Text.intOfText
      [keys.address, "private", "public", "-1x1"]) = some none :=
    get?_walletSentSequences.2 ⟨"-1x1", hlines ▸ List.mem_singleton_self _, rfl, rfl, rfl⟩
  exact (counts_iff (List.mem_singleton_self 1)).1 (hagrees.counts 1 (List.mem_singleton_self 1)) _
    (mem_metadata_oneBillStore keys) (walletDisplayValue_sample sampleCrypto) hmarked

end WalletServices
