import InternationalDollar.Transfer

set_option autoImplicit false

/-! # Bill states and their replay (`protocol_v3`)

The state a bill is in after some transfers: who owns it, the hash the next transfer has to name,
and the counters that limit transfers per day. `replayTransferSequenceFromState` is the state
machine of a bill: it folds a list of transfers over a state and raises at the first transfer that
does not spend the state reached so far. -/

/-! ## Display ids -/

/-- A non-empty list of ASCII digits without a leading zero. -/
def isCanonicalDecimal (cs : List Char) : Bool :=
  cs.all Char.isDigit && !cs.isEmpty && (cs.length == 1 || cs.head? != some '0')

/-- `_display_id_hash`. -/
def DisplayId.displayIdHash (crypto : Crypto) (displayId label : String) : Except String String := do
  Check.require (displayId.toList = Text.trim Text.isSpace displayId.toList) ("invalid " ++ label)
  let payload ← Check.ofOption (BinaryV3.asciiEncode displayId) ("invalid " ++ label)
  pure (crypto.sha3Hex payload)

/-- `parse_display_id`: value and serial. -/
def parseDisplayId (crypto : Crypto) (displayId label : String) : Except String (Int × Int) := do
  let _ ← DisplayId.displayIdHash crypto displayId label
  let head := displayId.toList.takeWhile (fun c => c ≠ 'x')
  match displayId.toList.dropWhile (fun c => c ≠ 'x') with
  | [] => .error (labelled label "must be formatted as valuexserial")
  | _ :: tail =>
      Check.require (head ≠ [] ∧ tail ≠ [] ∧ 'x' ∉ tail)
        (labelled label "must be formatted as valuexserial")
      Check.require (head.all Char.isDigit ∧ tail.all Char.isDigit)
        (labelled label "must be formatted as valuexserial")
      Check.require (isCanonicalDecimal head) (labelled label "value must be canonical")
      Check.require (isCanonicalDecimal tail) (labelled label "serial must be canonical")
      let value ← validateBillValue (Nat.ofDigitChars 10 head 0) (labelled label "value")
      let serial ← validateBillSerial value (Nat.ofDigitChars 10 tail 0) (labelled label "serial")
      pure (value, serial)

/-- `f"{value}x{serial}"`. -/
def formatDisplayId (value serial : Int) : String :=
  String.ofList (Json.renderInt value ++ 'x' :: Json.renderInt serial)

/-- `_validate_display_id_value`. -/
def validateDisplayIdValue (crypto : Crypto) (displayId : String) (value : Int) (label : String) :
    Except String (Int × Int) := do
  let parsed ← parseDisplayId crypto displayId label
  Check.require (parsed.1 = value) (labelled label "value prefix does not match bill value")
  pure parsed

/-- `_validate_display_id_issue_index`. -/
def validateDisplayIdIssueIndex (crypto : Crypto) (displayId : String) (value issueIndex : Int)
    (label : String) : Except String (Int × Int) := do
  let parsed ← validateDisplayIdValue crypto displayId value label
  let issueIndex ← validateBillSerial value issueIndex (labelled label "issue index")
  Check.require (parsed.2 = issueIndex) (labelled label "serial does not match genesis issue index")
  pure parsed

theorem digitChar_of_isDigit {c : Char} (h : c.isDigit = true) :
    c.toNat - 48 < 10 ∧ Nat.digitChar (c.toNat - 48) = c := by
  have hrange : 48 ≤ c.toNat ∧ c.toNat ≤ 57 := by
    simpa [Char.isDigit, UInt32.le_iff_toNat_le] using h
  have hall : ∀ n, n < 10 → (Nat.digitChar n).toNat = 48 + n := by decide
  refine ⟨by omega, Json.char_toNat_inj ?_⟩
  rw [hall _ (by omega)]
  omega

/-- Digits read after a positive number are the digits of the result after those of the number. -/
theorem toDigits_ofDigitChars_pos (cs : List Char) (acc : Nat) (hacc : 0 < acc)
    (hcs : ∀ c ∈ cs, c.isDigit = true) :
    Nat.toDigits 10 (Nat.ofDigitChars 10 cs acc) = Nat.toDigits 10 acc ++ cs := by
  induction cs generalizing acc with
  | nil => simp
  | cons c cs ih =>
    obtain ⟨hlt, hchar⟩ := digitChar_of_isDigit (hcs c List.mem_cons_self)
    have hdigit : Nat.toDigits 10 (c.toNat - 48) = [c] := by
      rw [Nat.toDigits_of_lt_base hlt, hchar]
    rw [Nat.ofDigitChars_cons, show '0'.toNat = 48 from rfl,
      ih _ (by omega) (fun d hd => hcs d (List.mem_cons_of_mem c hd)),
      ← Nat.toDigits_append_toDigits (by decide) hacc hlt, hdigit, List.append_assoc]
    rfl

/-- A canonical decimal is the decimal text of its value. -/
theorem toDigits_of_isCanonicalDecimal {cs : List Char} (h : isCanonicalDecimal cs = true) :
    Nat.toDigits 10 (Nat.ofDigitChars 10 cs 0) = cs := by
  simp only [isCanonicalDecimal, Bool.and_eq_true, List.all_eq_true, Bool.or_eq_true, beq_iff_eq,
    bne_iff_ne, Bool.not_eq_true'] at h
  obtain ⟨⟨hdigits, hne⟩, hlead⟩ := h
  cases cs with
  | nil => simp at hne
  | cons c cs =>
    obtain ⟨hlt, hchar⟩ := digitChar_of_isDigit (hdigits c List.mem_cons_self)
    have hrest := fun d hd => hdigits d (List.mem_cons_of_mem c hd)
    rw [Nat.ofDigitChars_cons, show '0'.toNat = 48 from rfl]
    rcases Nat.eq_zero_or_pos (c.toNat - 48) with hzero | hpos
    · -- a leading zero stands alone
      have hc : c = '0' := by rw [← hchar, hzero]; rfl
      have hcs : cs = [] := by
        rcases hlead with hlen | hhead
        · simpa using hlen
        · exact absurd (congrArg some hc) hhead
      subst hc hcs
      decide
    · rw [toDigits_ofDigitChars_pos cs _ (by omega) hrest,
        Nat.toDigits_of_lt_base (by omega), Nat.mul_zero, Nat.zero_add, hchar]
      rfl

/-- **A display id is the text of the value and serial it parses to.** -/
theorem eq_formatDisplayId_of_parse {crypto : Crypto} {displayId label : String} {value serial : Int}
    (h : parseDisplayId crypto displayId label = .ok (value, serial)) :
    displayId = formatDisplayId value serial := by
  unfold parseDisplayId at h
  obtain ⟨_, -, h⟩ := Check.bind_eq_ok.1 h
  have hsplit := List.takeWhile_append_dropWhile (p := fun c => decide (c ≠ 'x'))
    (l := displayId.toList)
  have hfirst := List.head?_dropWhile_not (fun c => decide (c ≠ 'x')) displayId.toList
  generalize displayId.toList.takeWhile (fun c => decide (c ≠ 'x')) = head at h hsplit
  generalize displayId.toList.dropWhile (fun c => decide (c ≠ 'x')) = rest at h hsplit hfirst
  cases rest with
  | nil => exact nomatch h
  | cons sep tail =>
    have hsep : sep = 'x' := by simpa using hfirst
    simp only [Check.bind_eq_ok, Check.require_eq_ok, validateBillValue_eq_ok,
      validateBillSerial_eq_ok, Check.pure_eq_ok, exists_const, ↓existsAndEq, and_true,
      Prod.mk.injEq] at h
    obtain ⟨-, -, hhead, htail, -, -, hvalue, hserial⟩ := h
    rw [formatDisplayId, ← hvalue, ← hserial, ← String.ofList_toList (s := displayId), ← hsplit,
      hsep]
    simp only [Json.renderInt, toDigits_of_isCanonicalDecimal hhead,
      toDigits_of_isCanonicalDecimal htail]

theorem displayIdHash_label {crypto : Crypto} {displayId label hash : String}
    (h : DisplayId.displayIdHash crypto displayId label = .ok hash) (label' : String) :
    DisplayId.displayIdHash crypto displayId label' = .ok hash := by
  simp only [DisplayId.displayIdHash, Check.bind_eq_ok, Check.require_eq_ok, Check.ofOption_eq_ok,
    Check.pure_eq_ok] at h ⊢
  exact h

/-- The label of a check enters its errors only. -/
theorem parseDisplayId_label {crypto : Crypto} {displayId label : String} {parsed : Int × Int}
    (h : parseDisplayId crypto displayId label = .ok parsed) (label' : String) :
    parseDisplayId crypto displayId label' = .ok parsed := by
  unfold parseDisplayId at h ⊢
  obtain ⟨hash, hhash, h⟩ := Check.bind_eq_ok.1 h
  refine Check.bind_eq_ok.2 ⟨hash, displayIdHash_label hhash label', ?_⟩
  generalize displayId.toList.dropWhile (fun c => decide (c ≠ 'x')) = rest at h ⊢
  cases rest with
  | nil => exact nomatch h
  | cons sep tail =>
    simp only [Check.bind_eq_ok, Check.require_eq_ok, validateBillValue_eq_ok,
      validateBillSerial_eq_ok, Check.pure_eq_ok] at h ⊢
    exact h

/-- Value and serial of a display id are those of an issued bill. -/
theorem isBillSerial_of_parse {crypto : Crypto} {displayId label : String} {value serial : Int}
    (h : parseDisplayId crypto displayId label = .ok (value, serial)) :
    IsBillSerial value serial := by
  unfold parseDisplayId at h
  obtain ⟨_, -, h⟩ := Check.bind_eq_ok.1 h
  generalize displayId.toList.dropWhile (fun c => decide (c ≠ 'x')) = rest at h
  cases rest with
  | nil => exact nomatch h
  | cons sep tail =>
    simp only [Check.bind_eq_ok, validateBillValue_eq_ok, validateBillSerial_eq_ok,
      Check.pure_eq_ok, ↓existsAndEq, and_true, Prod.mk.injEq] at h
    obtain ⟨_, -, _, -, _, -, _, -, -, hserial, rfl, rfl⟩ := h
    exact hserial

/-! ## States -/

/-- The state of a bill. -/
structure BaseState where
  sequence : Int
  ownerAddress : String
  lastTransferHash : String
  lastTransferTimestamp : Int
  lastTransferDay : Int
  transfersInLastDay : Int
  displayId : String
  value : Int
deriving DecidableEq

namespace BaseState

/-- `_validate_base_state`. -/
def validateBaseState (crypto : Crypto) (state : BaseState) : Except String Unit := do
  requireMin state.sequence 0 "V3 base sequence"
  let _ ← validateAddress crypto state.ownerAddress "V3 base owner address"
  let _ ← hex32 state.lastTransferHash "V3 base last transfer hash"
  requireMin state.lastTransferTimestamp 0 "V3 base timestamp"
  requireMin state.lastTransferDay 0 "V3 base day"
  requireMin state.transfersInLastDay 0 "V3 base day count"
  let value ← validateBillValue state.value "V3 base value"
  let _ ← validateDisplayIdValue crypto state.displayId value "V3 base display id"

/-- What `_validate_base_state` establishes. -/
structure Valid (crypto : Crypto) (state : BaseState) : Prop where
  sequence_nonneg : 0 ≤ state.sequence
  owner_valid : isAddress crypto state.ownerAddress = true
  lastTransferHash_hex : IsHex32 state.lastTransferHash
  lastTransferTimestamp_nonneg : 0 ≤ state.lastTransferTimestamp
  lastTransferDay_nonneg : 0 ≤ state.lastTransferDay
  transfersInLastDay_nonneg : 0 ≤ state.transfersInLastDay
  value_valid : IsBillValue state.value
  displayId_valid : ∃ serial, parseDisplayId crypto state.displayId "V3 base display id"
    = .ok (state.value, serial)

theorem validateBaseState_eq_ok {crypto : Crypto} {state : BaseState} {u : Unit} :
    validateBaseState crypto state = .ok u ↔ state.Valid crypto := by
  simp only [validateBaseState, validateAddress, validateDisplayIdValue, bind_pure_comp,
    bind_map_left, Check.bind_eq_ok, Check.require_eq_ok, requireMin_eq_ok, hex32_eq_ok,
    validateBillValue_eq_ok, Check.map_eq_ok, ↓existsAndEq, and_true, true_and, exists_const,
    exists_and_right, Prod.exists]
  constructor
  · rintro ⟨h1, h2, h3, h4, h5, h6, h7, h8⟩
    exact ⟨h1, h2, h3, h4, h5, h6, h7, by simpa using h8⟩
  · rintro ⟨h1, h2, h3, h4, h5, h6, h7, h8⟩
    exact ⟨h1, h2, h3, h4, h5, h6, h7, by simpa using h8⟩

/-- The state after a transfer that spends `state`. -/
def advance (state : BaseState) (t : Transfer) (hash : String) : BaseState :=
  { state with
    sequence := state.sequence + 1
    ownerAddress := t.recipientAddress
    lastTransferHash := hash
    lastTransferTimestamp := t.timestamp
    lastTransferDay := t.timestamp / 86400
    transfersInLastDay :=
      if t.timestamp / 86400 = state.lastTransferDay then state.transfersInLastDay + 1 else 1 }

/-- One round of the loop of `_replay_transfer_sequence_from_state`. -/
def replayTransfer (crypto : Crypto) (tokenId : String) (networkId : Int) (now clock : Int)
    (verifySignatures : Bool) (state : BaseState) (t : Transfer) : Except String BaseState := do
  Transfer.validateTransferShape crypto t networkId true now
  Check.require (t.tokenId = tokenId) "TransferV3 references a different bill"
  Check.require (t.sequence = state.sequence + 1) "TransferV3 sequence gap"
  Check.require (t.previousHash = state.lastTransferHash) "TransferV3 does not extend the current tip"
  Check.require (t.senderAddress = state.ownerAddress) "TransferV3 sender is not the current owner"
  requireMin t.timestamp 0 "TransferV3 timestamp"
  Check.require (state.lastTransferTimestamp < t.timestamp)
    "TransferV3 timestamps must be strictly increasing"
  Check.require (t.timestamp ≤ now + maxTransferFutureSkewSeconds)
    "TransferV3 timestamp is too far in the future"
  let dayCount :=
    if t.timestamp / 86400 = state.lastTransferDay then state.transfersInLastDay + 1 else 1
  Check.require (dayCount ≤ maxTransfersPerBillPerDay) "BillV3 exceeds daily transfer limit"
  if verifySignatures then
    Transfer.verifyTransferSignature crypto t clock
  else
    Check.require (publicKeyMatchesAddress crypto t.senderPublicKey t.senderAddress = true)
      "TransferV3 sender key does not match sender address"
  let hash ← Transfer.transferHash crypto t clock
  pure (state.advance t hash)

/-- The loop of `_replay_transfer_sequence_from_state`. -/
def replayTransfers (crypto : Crypto) (tokenId : String) (networkId : Int) (now clock : Int)
    (verifySignatures : Bool) : BaseState → List Transfer → Except String BaseState
  | state, [] => .ok state
  | state, t :: rest => do
      let next ← replayTransfer crypto tokenId networkId now clock verifySignatures state t
      replayTransfers crypto tokenId networkId now clock verifySignatures next rest

/-- `_replay_transfer_sequence_from_state`. -/
def replayTransferSequenceFromState (crypto : Crypto) (tokenId : String) (state : BaseState)
    (transfers : List Transfer) (networkId : Int) (now clock : Int) (verifySignatures : Bool) :
    Except String BaseState := do
  validateBaseState crypto state
  let time ← currentTime now
  replayTransfers crypto tokenId networkId time clock verifySignatures state transfers

/-- `verify_transfer_sequence_from_state`. -/
def verifyTransferSequenceFromState (crypto : Crypto) (tokenId : String) (state : BaseState)
    (transfers : List Transfer) (networkId : Int) (now clock : Int) : Except String BaseState :=
  replayTransferSequenceFromState crypto tokenId state transfers networkId now clock true

end BaseState

/-- What one accepted round of the replay establishes: the transfer spends the state. -/
structure Spends (crypto : Crypto) (tokenId : String) (networkId now clock : Int)
    (state : BaseState) (t : Transfer) (hash : String) : Prop where
  shape : t.WellShaped crypto networkId true now
  tokenId_eq : t.tokenId = tokenId
  sequence_eq : t.sequence = state.sequence + 1
  previousHash_eq : t.previousHash = state.lastTransferHash
  sender_eq : t.senderAddress = state.ownerAddress
  timestamp_gt : state.lastTransferTimestamp < t.timestamp
  dayCount_le : (state.advance t hash).transfersInLastDay ≤ maxTransfersPerBillPerDay
  signature_valid : t.verifyTransferSignature crypto clock = .ok ()
  hash_eq : t.transferHash crypto clock = .ok hash

namespace BaseState

theorem replayTransfer_eq_ok {crypto : Crypto} {tokenId : String} {networkId now clock : Int}
    {state next : BaseState} {t : Transfer} :
    replayTransfer crypto tokenId networkId now clock true state t = .ok next ↔
      ∃ hash, Spends crypto tokenId networkId now clock state t hash ∧
        next = state.advance t hash := by
  simp only [replayTransfer, bind_pure_comp, Check.bind_eq_ok, Check.require_eq_ok,
    requireMin_eq_ok, Transfer.validateTransferShape_eq_ok, Check.map_eq_ok, exists_const,
    if_true]
  constructor
  · rintro ⟨h1, h2, h3, h4, h5, -, h6, -, h7, ⟨⟩, h8, hash, h9, rfl⟩
    exact ⟨hash, ⟨h1, h2, h3, h4, h5, h6, h7, h8, h9⟩, rfl⟩
  · rintro ⟨hash, ⟨h1, h2, h3, h4, h5, h6, h7, h8, h9⟩, rfl⟩
    exact ⟨h1, h2, h3, h4, h5, h1.timestamp_nonneg, h6, h1.timestamp_le, h7, (), h8, hash, h9, rfl⟩

theorem one_le_advance_transfersInLastDay {crypto : Crypto} {state : BaseState}
    (h : state.Valid crypto) (t : Transfer) (hash : String) :
    1 ≤ (state.advance t hash).transfersInLastDay := by
  have := h.transfersInLastDay_nonneg
  simp only [BaseState.advance]
  split <;> omega

/-- A spent state is followed by a valid one. -/
theorem Valid.advance {crypto : Crypto} {tokenId : String} {networkId now clock : Int}
    {state : BaseState} {t : Transfer} {hash : String} (hstate : state.Valid crypto)
    (h : Spends crypto tokenId networkId now clock state t hash) :
    (state.advance t hash).Valid crypto where
  sequence_nonneg := Int.le_add_one hstate.sequence_nonneg
  owner_valid := h.shape.recipient_valid
  lastTransferHash_hex := (Transfer.hashed_of_transferHash h.hash_eq).hash_hex
  lastTransferTimestamp_nonneg := h.shape.timestamp_nonneg
  lastTransferDay_nonneg := Int.ediv_nonneg h.shape.timestamp_nonneg (by decide)
  transfersInLastDay_nonneg :=
    le_trans (by decide) (one_le_advance_transfersInLastDay hstate t hash)
  value_valid := hstate.value_valid
  displayId_valid := hstate.displayId_valid

/-- What is known of the state that a replay ends in. -/
structure Replayed (crypto : Crypto) (state final : BaseState) (n : Nat) : Prop where
  valid : final.Valid crypto
  sequence_eq : final.sequence = state.sequence + n
  displayId_eq : final.displayId = state.displayId
  value_eq : final.value = state.value
  lastTransferTimestamp_le : state.lastTransferTimestamp + n ≤ final.lastTransferTimestamp
  transfersInLastDay_pos : 0 < n → 1 ≤ final.transfersInLastDay

/-- Every replay preserves validity, value and display id and counts the transfers. -/
theorem replayed_of_replayTransfers {crypto : Crypto} {tokenId : String} {networkId now clock : Int}
    {transfers : List Transfer} {state final : BaseState} (hstate : state.Valid crypto)
    (h : replayTransfers crypto tokenId networkId now clock true state transfers = .ok final) :
    Replayed crypto state final transfers.length := by
  induction transfers generalizing state with
  | nil =>
    cases h
    exact ⟨hstate, by simp, rfl, rfl, by simp, fun hn => absurd hn (lt_irrefl 0)⟩
  | cons t rest ih =>
    obtain ⟨next, hnext, hrest⟩ := Check.bind_eq_ok.1 h
    obtain ⟨hash, hspends, rfl⟩ := replayTransfer_eq_ok.1 hnext
    have hr := ih (hstate.advance hspends) hrest
    refine ⟨hr.valid, ?_, hr.displayId_eq, hr.value_eq, ?_, fun _ => ?_⟩
    · rw [hr.sequence_eq, List.length_cons]
      change state.sequence + 1 + _ = _
      push_cast
      omega
    · have h1 := hr.lastTransferTimestamp_le
      have h2 := hspends.timestamp_gt
      change t.timestamp + _ ≤ _ at h1
      rw [List.length_cons]
      push_cast
      omega
    · cases rest with
      | nil =>
        cases hrest
        exact one_le_advance_transfersInLastDay hstate t hash
      | cons u rest => exact hr.transfersInLastDay_pos (Nat.succ_pos _)

end BaseState
