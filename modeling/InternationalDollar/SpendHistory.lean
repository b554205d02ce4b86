import InternationalDollar.BillState
import Mathlib.Data.List.Basic

set_option autoImplicit false

/-! # Histories of a bill

A history leads from one state to another by transfers that each spend the state reached before it. The
rules that a list of transfers obeys as a whole (sequence numbers, timestamps, the daily limit, owners
and hashes) are read off the history, whatever the segments in which the transfers are stored. -/

/-- Transfers that lead from one state to another. -/
inductive SpendHistory (crypto : Crypto) (networkId now clock : Int) :
    BaseState → List Transfer → BaseState → Prop
  | nil (state : BaseState) : SpendHistory crypto networkId now clock state [] state
  | cons {state final : BaseState} {t : Transfer} {rest : List Transfer} {hash : String}
      (hspends : Spends crypto t.tokenId networkId now clock state t hash)
      (hrest : SpendHistory crypto networkId now clock (state.advance t hash) rest final) :
      SpendHistory crypto networkId now clock state (t :: rest) final

namespace SpendHistory

variable {crypto : Crypto} {tokenId : String} {networkId now clock : Int} {state mid final : BaseState}
  {transfers more : List Transfer} {t : Transfer} {hash : String}

theorem of_replay (h : BaseState.replayTransfers crypto tokenId networkId now clock true state transfers
    = .ok final) : SpendHistory crypto networkId now clock state transfers final := by
  induction transfers generalizing state with
  | nil =>
    cases h
    exact .nil _
  | cons t rest ih =>
    obtain ⟨next, hnext, hrest⟩ := Check.bind_eq_ok.1 h
    obtain ⟨hash, hspends, rfl⟩ := BaseState.replayTransfer_eq_ok.1 hnext
    rw [← hspends.tokenId_eq] at hspends
    exact .cons hspends (ih hrest)

theorem append (h : SpendHistory crypto networkId now clock state transfers mid)
    (k : SpendHistory crypto networkId now clock mid more final) :
    SpendHistory crypto networkId now clock state (transfers ++ more) final := by
  induction h with
  | nil => exact k
  | cons hspends _ ih => exact .cons hspends (ih k)

theorem value_eq (h : SpendHistory crypto networkId now clock state transfers final) :
    final.value = state.value ∧ final.displayId = state.displayId := by
  induction h with
  | nil => exact ⟨rfl, rfl⟩
  | cons _ _ ih => exact ih

/-! ## Sequence numbers and timestamps -/

theorem sequence_eq (h : SpendHistory crypto networkId now clock state transfers final) :
    ∀ i (hi : i < transfers.length), transfers[i].sequence = state.sequence + 1 + i := by
  induction h with
  | nil => exact fun i hi => absurd hi (Nat.not_lt_zero i)
  | @cons state _ t rest hash hspends _ ih =>
    intro i hi
    cases i with
    | zero =>
      show t.sequence = state.sequence + 1 + 0
      rw [hspends.sequence_eq, Int.add_zero]
    | succ i =>
      have hi' : i < rest.length := Nat.lt_of_succ_lt_succ hi
      show rest[i].sequence = _
      rw [ih i hi']
      show state.sequence + 1 + 1 + (i : Int) = _
      push_cast
      omega

/-- Every transfer of a history is later than the state it starts from. -/
theorem timestamp_gt (h : SpendHistory crypto networkId now clock state transfers final) :
    ∀ t ∈ transfers, state.lastTransferTimestamp < t.timestamp := by
  induction h with
  | nil => exact fun t ht => absurd ht List.not_mem_nil
  | cons hspends _ ih =>
    intro u hu
    rcases List.mem_cons.1 hu with rfl | hu
    · exact hspends.timestamp_gt
    · exact lt_trans hspends.timestamp_gt (ih u hu)

theorem timestamps_increase (h : SpendHistory crypto networkId now clock state transfers final) :
    transfers.Pairwise fun t u => t.timestamp < u.timestamp := by
  induction h with
  | nil => exact .nil
  | cons _ hrest ih => exact .cons (fun u hu => hrest.timestamp_gt u hu) ih

/-! ## The daily limit -/

/-- The number of transfers on a day. -/
def onDay (transfers : List Transfer) (day : Int) : Nat :=
  transfers.countP fun t => t.timestamp / 86400 = day

theorem onDay_cons (t : Transfer) (rest : List Transfer) (day : Int) :
    onDay (t :: rest) day = onDay rest day + if t.timestamp / 86400 = day then 1 else 0 := by
  unfold onDay
  rw [List.countP_cons]
  simp

/-- No transfer of a history is on a day before the last day of the state. -/
theorem onDay_eq_zero (h : SpendHistory crypto networkId now clock state transfers final) {day : Int}
    (hday : day < state.lastTransferTimestamp / 86400) : onDay transfers day = 0 := by
  unfold onDay
  rw [List.countP_eq_zero]
  intro t ht hon
  have hle : state.lastTransferTimestamp / 86400 ≤ t.timestamp / 86400 :=
    Int.ediv_le_ediv (by decide) (h.timestamp_gt t ht).le
  rw [of_decide_eq_true hon] at hle
  omega

/-- What a state has counted for a day. -/
def counted (state : BaseState) (day : Int) : Int :=
  if day = state.lastTransferDay then state.transfersInLastDay else 0

theorem counted_advance (state : BaseState) (t : Transfer) (hash : String) (day : Int) :
    counted (state.advance t hash) day
      = if t.timestamp / 86400 = day then counted state day + 1 else 0 := by
  unfold counted BaseState.advance
  by_cases hon : t.timestamp / 86400 = day
  · rw [if_pos hon, if_pos hon.symm, hon]
    split
    · rfl
    · rfl
  · rw [if_neg hon, if_neg fun heq => hon heq.symm]

theorem counted_advance_le (hspends : Spends crypto tokenId networkId now clock state t hash)
    (day : Int) : counted (state.advance t hash) day ≤ maxTransfersPerBillPerDay := by
  unfold counted
  split
  · exact hspends.dayCount_le
  · decide

/-- A day with transfers takes its share of the limit on top of what the state has counted for it. -/
theorem onDay_add_le (h : SpendHistory crypto networkId now clock state transfers final)
    (hday : state.lastTransferDay = state.lastTransferTimestamp / 86400) {day : Int}
    (hpos : 0 < onDay transfers day) :
    onDay transfers day + counted state day ≤ maxTransfersPerBillPerDay := by
  induction h with
  | nil => exact absurd hpos (Nat.lt_irrefl 0)
  | @cons state _ t rest hash hspends hrest ih =>
    have hlater := ih rfl
    have hcounted := counted_advance state t hash day
    rw [onDay_cons] at hpos ⊢
    by_cases hon : t.timestamp / 86400 = day
    · rw [if_pos hon] at hcounted ⊢
      -- The counter after the transfer is one more than what the state has counted for the day.
      by_cases hzero : onDay rest day = 0
      · have hle := counted_advance_le hspends day
        rw [hzero]
        omega
      · have hle := hlater (Nat.pos_of_ne_zero hzero)
        push_cast
        omega
    · rw [if_neg hon] at hcounted hpos ⊢
      have hle := hlater hpos
      -- Days do not come back: the transfer is on a later day than the state.
      have hnot : day ≠ state.lastTransferDay := by
        intro heq
        have hstate : state.lastTransferTimestamp / 86400 ≤ t.timestamp / 86400 :=
          Int.ediv_le_ediv (by decide) hspends.timestamp_gt.le
        have hzero : onDay rest day = 0 := hrest.onDay_eq_zero (by
          show day < t.timestamp / 86400
          omega)
        omega
      have hnone : counted state day = 0 := if_neg hnot
      push_cast
      omega

/-- Whatever counters a history starts with, no day has more transfers than allowed. -/
theorem onDay_le (h : SpendHistory crypto networkId now clock state transfers final)
    (hcount : 0 ≤ state.transfersInLastDay) (day : Int) :
    onDay transfers day ≤ maxTransfersPerBillPerDay := by
  cases h with
  | nil => exact (by decide : (0 : Int) ≤ maxTransfersPerBillPerDay)
  | @cons _ _ t rest hash hspends hrest =>
    have hlater : 0 < onDay rest day → onDay rest day + counted (state.advance t hash) day
        ≤ maxTransfersPerBillPerDay := hrest.onDay_add_le rfl
    have hcounted := counted_advance state t hash day
    have hnonneg : 0 ≤ counted state day := by
      unfold counted
      split
      · exact hcount
      · exact le_rfl
    have hle := counted_advance_le hspends day
    rw [onDay_cons]
    by_cases hzero : onDay rest day = 0
    · rw [hzero]
      by_cases hon : t.timestamp / 86400 = day
      · rw [if_pos hon] at hcounted ⊢
        omega
      · rw [if_neg hon]
        decide
    · have hrestle := hlater (Nat.pos_of_ne_zero hzero)
      by_cases hon : t.timestamp / 86400 = day
      · rw [if_pos hon] at hcounted ⊢
        push_cast
        omega
      · rw [if_neg hon] at hcounted ⊢
        push_cast
        omega

/-! ## Owners and hashes -/

/-- Every transfer is signed under a key of the recipient of the transfer before it. -/
theorem signed (h : SpendHistory crypto networkId now clock state transfers final) :
    ∀ e ∈ transfers.zip (state.ownerAddress :: transfers.map (·.recipientAddress)),
      publicKeyMatchesAddress crypto e.1.senderPublicKey e.2 = true ∧
        e.1.verifyTransferSignature crypto clock = .ok () := by
  induction h with
  | nil => exact fun e he => absurd he List.not_mem_nil
  | @cons state _ t rest _ hspends _ ih =>
    intro e he
    rw [List.map_cons, List.zip_cons_cons] at he
    rcases List.mem_cons.1 he with rfl | he
    · refine ⟨?_, hspends.signature_valid⟩
      show publicKeyMatchesAddress crypto t.senderPublicKey state.ownerAddress = true
      rw [← hspends.sender_eq]
      obtain ⟨_, hkey, -⟩ := Check.bind_eq_ok.1 hspends.signature_valid
      exact Check.require_eq_ok.1 hkey
    · exact ih e he

/-- Every transfer names the hash of the transfer before it. -/
theorem linked (h : SpendHistory crypto networkId now clock state transfers final) :
    ∃ hashes : List String, transfers.map (·.transferHash crypto clock) = hashes.map .ok ∧
      ∀ e ∈ transfers.zip (state.lastTransferHash :: hashes), e.1.previousHash = e.2 := by
  induction h with
  | nil => exact ⟨[], rfl, fun e he => absurd he List.not_mem_nil⟩
  | @cons state _ t rest hash hspends _ ih =>
    obtain ⟨hashes, hmap, hlinks⟩ := ih
    refine ⟨hash :: hashes, ?_, fun e he => ?_⟩
    · rw [List.map_cons, List.map_cons, hmap, hspends.hash_eq]
    · rw [List.zip_cons_cons] at he
      rcases List.mem_cons.1 he with rfl | he
      · exact hspends.previousHash_eq
      · exact hlinks e he

end SpendHistory

/-- The rules a list of transfers obeys that starts from the first owner of a bill and its genesis
    hash. -/
structure ObeysTransferRules (crypto : Crypto) (clock : Int) (ownerAddress genesisHash : String)
    (transfers : List Transfer) : Prop where
  sequences : ∀ i (hi : i < transfers.length), transfers[i].sequence = i + 1
  timestamps : transfers.Pairwise fun t u => t.timestamp < u.timestamp
  daily : ∀ day, (SpendHistory.onDay transfers day : Int) ≤ maxTransfersPerBillPerDay
  signed : ∀ e ∈ transfers.zip (ownerAddress :: transfers.map (·.recipientAddress)),
    publicKeyMatchesAddress crypto e.1.senderPublicKey e.2 = true ∧
      e.1.verifyTransferSignature crypto clock = .ok ()
  linked : ∃ hashes : List String, transfers.map (·.transferHash crypto clock) = hashes.map .ok ∧
    ∀ e ∈ transfers.zip (genesisHash :: hashes), e.1.previousHash = e.2

theorem SpendHistory.obeysTransferRules {crypto : Crypto} {networkId now clock : Int}
    {state final : BaseState} {transfers : List Transfer}
    (h : SpendHistory crypto networkId now clock state transfers final)
    (hsequence : state.sequence = 0) (hcount : 0 ≤ state.transfersInLastDay) :
    ObeysTransferRules crypto clock state.ownerAddress state.lastTransferHash transfers := by
  refine ⟨fun i hi => ?_, h.timestamps_increase, h.onDay_le hcount, h.signed, h.linked⟩
  rw [h.sequence_eq i hi, hsequence]
  omega
