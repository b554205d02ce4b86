import InternationalDollar.Transfer
import Mathlib.Data.List.Sort
import Mathlib.Data.Prod.Lex
import Mathlib.Data.String.Basic

set_option autoImplicit false

/-! # Spend claims (`transparency_client`)

A spend claim says under which spend key an operator accepted which transfer. It may carry the
transfer itself, which then has to be signed and to agree with the claim. `normalizeSpendClaim` is
the validator every claim passes through; what it returns passes again at every later time
(`normalizeSpendClaim_mono`). -/

/-- `LOG_VERSION`. -/
def logVersion : Int := 3

/-- `ind.transparency_spend_claim.v3`. -/
def spendClaimType : String := "ind.transparency_spend_claim.v3"

/-- A transfer body as JSON: a TransferV3, or anything that is not the text of one. -/
inductive TransferBody where
  | v3 (transfer : Transfer)
  | other (data : Json) (notV3 : ∀ t : Transfer, data ≠ t.toJson)
deriving DecidableEq

/-- The body as a JSON value. -/
def TransferBody.toJson : TransferBody → Json
  | .v3 transfer => transfer.toJson
  | .other data _ => data

theorem TransferBody.toJson_inj {a b : TransferBody} (h : a.toJson = b.toJson) : a = b := by
  cases a with
  | v3 t =>
    cases b with
    | v3 u => rw [Transfer.toJson_inj h]
    | other data hdata => exact absurd h.symm (hdata t)
  | other data hdata =>
    cases b with
    | v3 u => exact absurd h (hdata u)
    | other data' _ => cases h; rfl

/-- A spend claim record. -/
structure SpendClaim where
  type : String
  version : Int
  logId : String
  spendKey : String
  tokenId : String
  previousHash : String
  sequence : Int
  senderAddress : String
  senderPublicKey : String
  transferHash : String
  transferLeafIndex : Int
  acceptedAt : Int
  transfer : Option TransferBody
deriving DecidableEq

namespace SpendClaim

/-- The members of a claim after its token id. -/
def tailMembers (claim : SpendClaim) : List (String × Json) :=
  [("transfer_hash", .str claim.transferHash),
    ("transfer_leaf_index", .int claim.transferLeafIndex), ("type", .str claim.type),
    ("version", .int claim.version)]

/-- The claim as a JSON object. -/
def toJson (claim : SpendClaim) : Json :=
  .obj ([("accepted_at", .int claim.acceptedAt), ("log_id", .str claim.logId),
    ("previous_hash", .str claim.previousHash), ("sender_address", .str claim.senderAddress),
    ("sender_public_key", .str claim.senderPublicKey), ("sequence", .int claim.sequence),
    ("spend_key", .str claim.spendKey), ("token_id", .str claim.tokenId)] ++
      match claim.transfer with
      | none => claim.tailMembers
      | some body => ("transfer", body.toJson) :: claim.tailMembers)

/-- The JSON object determines the claim. -/
theorem toJson_inj {a b : SpendClaim} (h : a.toJson = b.toJson) : a = b := by
  obtain ⟨ta, va, la, ka, ia, pa, qa, sa, ya, ha, xa, ca, bodyA⟩ := a
  obtain ⟨tb, vb, lb, kb, ib, pb, qb, sb, yb, hb, xb, cb, bodyB⟩ := b
  cases bodyA with
  | none =>
    cases bodyB with
    | none =>
      simp only [toJson, tailMembers, Json.obj.injEq, List.cons_append, List.nil_append,
        List.cons.injEq, Prod.mk.injEq, Json.str.injEq, Json.int.injEq, true_and, and_true] at h
      simp only [mk.injEq]
      tauto
    | some body => simp [toJson, tailMembers] at h
  | some body =>
    cases bodyB with
    | none => simp [toJson, tailMembers] at h
    | some body' =>
      simp only [toJson, tailMembers, Json.obj.injEq, List.cons_append, List.nil_append,
        List.cons.injEq, Prod.mk.injEq, Json.str.injEq, Json.int.injEq, true_and, and_true] at h
      simp only [mk.injEq, Option.some.injEq]
      have hbody : body = body' := TransferBody.toJson_inj (by tauto)
      tauto

/-- Claims with texts of moderate length are within the limits, if their body is. -/
theorem validate_toJson {claim : SpendClaim} {label : String} {depth : Nat}
    (hdepth : depth + 1 ≤ jsonLimits.maxDepth)
    (htexts : ∀ s ∈ [claim.type, claim.logId, claim.spendKey, claim.tokenId, claim.previousHash,
      claim.senderAddress, claim.senderPublicKey, claim.transferHash], s.length ≤ 16384)
    (hnumbers : ∀ n ∈ [claim.version, claim.sequence, claim.transferLeafIndex, claim.acceptedAt],
      n.natAbs ≤ jsonLimits.maxIntegerAbs)
    (hbody : ∀ body ∈ claim.transfer,
      body.toJson.validate jsonLimits label (depth + 1) = .ok ()) :
    claim.toJson.validate jsonLimits label depth = .ok () := by
  simp only [List.forall_mem_cons] at htexts hnumbers
  obtain ⟨t1, t2, t3, t4, t5, t6, t7, t8, -⟩ := htexts
  obtain ⟨n1, n2, n3, n4, -⟩ := hnumbers
  have htail : ∀ e ∈ claim.tailMembers, e.1.utf8ByteSize ≤ jsonLimits.maxStringBytes ∧
      e.2.validate jsonLimits label (depth + 1) = .ok () := by
    simp only [tailMembers, List.forall_mem_cons]
    exact ⟨⟨by decide, validate_text hdepth t8⟩, ⟨by decide, validate_number hdepth n3⟩,
      ⟨by decide, validate_text hdepth t1⟩, ⟨by decide, validate_number hdepth n1⟩, by simp⟩
  refine Json.validate_obj.2 ⟨Nat.le_of_succ_le hdepth, ?_, ?_⟩
  · cases claim.transfer with
    | none => exact show 12 ≤ 1024 by decide
    | some body => exact show 13 ≤ 1024 by decide
  · rw [List.forall_mem_append]
    refine ⟨?_, ?_⟩
    · simp only [List.forall_mem_cons]
      exact ⟨⟨by decide, validate_number hdepth n4⟩, ⟨by decide, validate_text hdepth t2⟩,
        ⟨by decide, validate_text hdepth t5⟩, ⟨by decide, validate_text hdepth t6⟩,
        ⟨by decide, validate_text hdepth t7⟩, ⟨by decide, validate_number hdepth n2⟩,
        ⟨by decide, validate_text hdepth t3⟩, ⟨by decide, validate_text hdepth t4⟩, by simp⟩
    · cases hb : claim.transfer with
      | none => exact htail
      | some body =>
        have hname : "transfer".utf8ByteSize ≤ jsonLimits.maxStringBytes := by decide
        exact List.forall_mem_cons.2 ⟨⟨hname, hbody body hb⟩, htail⟩

/-! ## Order -/

/-- `_spend_claim_sort_key`. -/
def sortKey (claim : SpendClaim) : String ×ₗ String ×ₗ Int ×ₗ Int :=
  toLex (claim.spendKey, toLex (claim.transferHash, toLex (claim.transferLeafIndex,
    claim.acceptedAt)))

/-- The order of claims in a slot. -/
def Before (a b : SpendClaim) : Prop := a.sortKey ≤ b.sortKey

instance : DecidableRel Before := fun a b => inferInstanceAs (Decidable (a.sortKey ≤ b.sortKey))

instance : Std.Total Before := ⟨fun a b => le_total a.sortKey b.sortKey⟩

instance : IsTrans SpendClaim Before := ⟨fun a _ _ => le_trans (a := a.sortKey)⟩

/-- `sorted(claims, key=_spend_claim_sort_key)`. -/
def sorted (claims : List SpendClaim) : List SpendClaim :=
  claims.insertionSort Before

theorem sorted_sorted (claims : List SpendClaim) : sorted (sorted claims) = sorted claims :=
  List.Pairwise.insertionSort_eq (List.pairwise_insertionSort Before claims)

@[simp] theorem mem_sorted {claims : List SpendClaim} {claim : SpendClaim} :
    claim ∈ sorted claims ↔ claim ∈ claims :=
  List.mem_insertionSort Before

/-! ## Normal form -/

/-- The signature check of a body, with the hash and the spend key of the transfer. Only V3
    transfers carry a signature that can be verified. -/
def verifyBody (crypto : Crypto) (clock : Int) (body : TransferBody) :
    Except String (Transfer × String × String) :=
  match body with
  | .other _ _ => .error "invalid transfer signature"
  | .v3 t => do
      t.validateTransferShape crypto t.networkId true clock
      t.verifyTransferSignature crypto clock
      let hash ← t.transferHash crypto clock
      let spendKey ← t.spendKeyForTransfer crypto
      pure (t, hash, spendKey)

/-- The comparison of a body with the claim that carries it. -/
def checkBody (crypto : Crypto) (clock : Int) (claim : SpendClaim) (body : TransferBody) :
    Except String Unit := do
  let (t, hash, spendKey) ← Check.orRaise (verifyBody crypto clock body)
    "transparency spend claim transfer signature is invalid"
  Check.require (hash = claim.transferHash) "transparency spend claim transfer hash mismatch"
  Check.require (spendKey = claim.spendKey) "transparency spend claim transfer spend key mismatch"
  Check.require (t.tokenId = claim.tokenId) "transparency spend claim transfer token_id mismatch"
  Check.require (t.previousHash = claim.previousHash)
    "transparency spend claim transfer previous_hash mismatch"
  Check.require (t.senderAddress = claim.senderAddress)
    "transparency spend claim transfer sender_address mismatch"
  Check.require (t.senderPublicKey = claim.senderPublicKey)
    "transparency spend claim transfer sender_public_key mismatch"
  Check.require (t.sequence = claim.sequence)
    "transparency spend claim transfer sequence mismatch"

/-- The fields of a claim in their normal form. -/
def normalFields (claim : SpendClaim) : SpendClaim :=
  { claim with
    logId := Text.strip claim.logId
    spendKey := Text.lower claim.spendKey
    tokenId := Text.strip claim.tokenId
    previousHash := Text.lower claim.previousHash
    senderAddress := Text.strip claim.senderAddress
    senderPublicKey := Text.strip claim.senderPublicKey
    transferHash := Text.lower claim.transferHash }

/-- `_normalize_spend_claim`. `_hex32` turns its argument into a text first; a claim holds the text
    here. -/
def normalizeSpendClaim (crypto : Crypto) (clock : Int) (claim : SpendClaim) :
    Except String SpendClaim := do
  Check.require (claim.type = spendClaimType ∧ claim.version = logVersion)
    "unsupported transparency spend claim version"
  let _ ← hex32 claim.spendKey "spend key"
  let _ ← hex32 claim.previousHash "transparency spend claim previous hash"
  requireMin claim.sequence 1 "transparency spend claim sequence"
  let _ ← hex32 claim.transferHash "transparency spend claim transfer hash"
  requireMin claim.transferLeafIndex 0 "transparency spend claim leaf index"
  requireMin claim.acceptedAt 0 "transparency spend claim accepted_at"
  match claim.transfer with
  | none => pure claim.normalFields
  | some body => do
      checkBody crypto clock claim.normalFields body
      pure claim.normalFields

/-- What a claim satisfies that `_normalize_spend_claim` accepts. -/
structure WellFormed (crypto : Crypto) (clock : Int) (claim : SpendClaim) : Prop where
  type_eq : claim.type = spendClaimType
  version_eq : claim.version = logVersion
  spendKey_hex : IsHex32 claim.spendKey
  previousHash_hex : IsHex32 claim.previousHash
  sequence_pos : 1 ≤ claim.sequence
  transferHash_hex : IsHex32 claim.transferHash
  leafIndex_nonneg : 0 ≤ claim.transferLeafIndex
  acceptedAt_nonneg : 0 ≤ claim.acceptedAt
  body_valid : ∀ body ∈ claim.transfer, checkBody crypto clock claim.normalFields body = .ok ()

variable {crypto : Crypto} {clock clock' : Int} {claim normal : SpendClaim}

theorem normalizeSpendClaim_eq_ok :
    normalizeSpendClaim crypto clock claim = .ok normal ↔
      WellFormed crypto clock claim ∧ claim.normalFields = normal := by
  have hbody : ((match claim.transfer with
      | none => pure claim.normalFields
      | some body => do
          checkBody crypto clock claim.normalFields body
          pure claim.normalFields) : Except String SpendClaim) = .ok normal ↔
      (∀ body ∈ claim.transfer, checkBody crypto clock claim.normalFields body = .ok ()) ∧
        claim.normalFields = normal := by
    cases claim.transfer with
    | none => simp
    | some body => simp
  simp only [normalizeSpendClaim, Check.bind_eq_ok, Check.require_eq_ok, requireMin_eq_ok,
    hex32_eq_ok, ↓existsAndEq, and_true, exists_const, hbody]
  constructor
  · rintro ⟨⟨h1, h2⟩, h3, h4, h5, h6, h7, h8, h9, h10⟩
    exact ⟨⟨h1, h2, h3, h4, h5, h6, h7, h8, h9⟩, h10⟩
  · rintro ⟨h, hnormal⟩
    exact ⟨⟨h.type_eq, h.version_eq⟩, h.spendKey_hex, h.previousHash_hex, h.sequence_pos,
      h.transferHash_hex, h.leafIndex_nonneg, h.acceptedAt_nonneg, h.body_valid, hnormal⟩

@[simp] theorem normalFields_normalFields : claim.normalFields.normalFields = claim.normalFields := by
  simp [normalFields]

/-- What a body says does not depend on the clock, as long as its transfer is not too far ahead. -/
theorem verifyBody_notAhead {t : Transfer} {result : Transfer × String × String} (hclock : t.NotAhead clock')
    (h : verifyBody crypto clock (.v3 t) = .ok result) : verifyBody crypto clock' (.v3 t) = .ok result := by
  obtain ⟨_, hshape, h⟩ := Check.bind_eq_ok.1 h
  obtain ⟨_, hsignature, h⟩ := Check.bind_eq_ok.1 h
  obtain ⟨_, hhash, hkey⟩ := Check.bind_eq_ok.1 h
  have hother := hclock.wellShaped (Transfer.validateTransferShape_eq_ok.1 hshape)
  exact Check.bind_eq_ok.2 ⟨(), Transfer.validateTransferShape_eq_ok.2 hother,
    Check.bind_eq_ok.2 ⟨(), hclock.verifyTransferSignature hsignature,
    Check.bind_eq_ok.2 ⟨_, hclock.transferHash hhash, hkey⟩⟩⟩

/-- A body that agrees with a claim is a transfer with the claim's hash. -/
theorem exists_transfer_of_checkBody {body : TransferBody} (h : checkBody crypto clock claim body = .ok ()) :
    ∃ t, body = .v3 t ∧ t.NotAhead clock ∧ t.transferHash crypto clock = .ok claim.transferHash := by
  obtain ⟨result, hverify, h⟩ := Check.bind_eq_ok.1 h
  obtain ⟨_, hsame, -⟩ := Check.bind_eq_ok.1 h
  replace hverify := Check.orRaise_eq_ok.1 hverify
  cases body with
  | other data hdata => cases hverify
  | v3 t =>
    obtain ⟨_, hshape, h⟩ := Check.bind_eq_ok.1 hverify
    obtain ⟨_, -, h⟩ := Check.bind_eq_ok.1 h
    obtain ⟨hash, hhash, h⟩ := Check.bind_eq_ok.1 h
    obtain ⟨_, -, h⟩ := Check.bind_eq_ok.1 h
    obtain rfl := Check.pure_eq_ok.1 h
    refine ⟨t, rfl, (Transfer.validateTransferShape_eq_ok.1 hshape).notAhead, ?_⟩
    have heq : hash = claim.transferHash := Check.require_eq_ok.1 hsame
    rw [hhash, heq]

theorem checkBody_notAhead {t : Transfer} (hclock : t.NotAhead clock')
    (h : checkBody crypto clock claim (.v3 t) = .ok ()) : checkBody crypto clock' claim (.v3 t) = .ok () := by
  obtain ⟨result, hverify, hrest⟩ := Check.bind_eq_ok.1 h
  exact Check.bind_eq_ok.2 ⟨result,
    Check.orRaise_eq_ok.2 (verifyBody_notAhead hclock (Check.orRaise_eq_ok.1 hverify)), hrest⟩

theorem checkBody_mono {body : TransferBody} (h : checkBody crypto clock claim body = .ok ())
    (hle : clock ≤ clock') (hmax : clock' ≤ maxProtocolTimestamp) :
    checkBody crypto clock' claim body = .ok () := by
  obtain ⟨t, rfl, hclock, -⟩ := exists_transfer_of_checkBody h
  exact checkBody_notAhead (hclock.mono hle hmax) h

theorem WellFormed.mono (h : WellFormed crypto clock claim) (hle : clock ≤ clock')
    (hmax : clock' ≤ maxProtocolTimestamp) : WellFormed crypto clock' claim where
  __ := h
  body_valid := fun body hbody => checkBody_mono (h.body_valid body hbody) hle hmax

theorem WellFormed.normalFields (h : WellFormed crypto clock claim) :
    WellFormed crypto clock claim.normalFields where
  type_eq := h.type_eq
  version_eq := h.version_eq
  spendKey_hex := h.spendKey_hex.lower
  previousHash_hex := h.previousHash_hex.lower
  sequence_pos := h.sequence_pos
  transferHash_hex := h.transferHash_hex.lower
  leafIndex_nonneg := h.leafIndex_nonneg
  acceptedAt_nonneg := h.acceptedAt_nonneg
  body_valid := by
    rw [normalFields_normalFields]
    exact h.body_valid

/-- **A normal form is normal at every later time.** -/
theorem normalizeSpendClaim_mono (h : normalizeSpendClaim crypto clock claim = .ok normal)
    (hle : clock ≤ clock') (hmax : clock' ≤ maxProtocolTimestamp) :
    normalizeSpendClaim crypto clock' normal = .ok normal := by
  rw [normalizeSpendClaim_eq_ok] at h
  obtain ⟨hwell, rfl⟩ := h
  rw [normalizeSpendClaim_eq_ok]
  exact ⟨hwell.normalFields.mono hle hmax, normalFields_normalFields⟩

end SpendClaim
