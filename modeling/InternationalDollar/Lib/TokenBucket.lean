import Mathlib.Algebra.Order.Field.Basic
import Mathlib.Tactic.Linarith
import Mathlib.Tactic.Ring

set_option autoImplicit false

/-! # Token buckets

A bucket holds at most `burst` tokens and gains `rate` tokens for each unit of time. It stores how many it
held when it was last filled up; `level` is what it holds at any later time. Filling up does not change
the level (`level_refill`), taking tokens lowers it by what is taken (`level_consume`), and waiting raises
it by no more than the rate allows (`level_le_add`). -/

/-- A token bucket. -/
structure TokenBucket (K : Type) where
  rate : K
  burst : K
  tokens : K
  updatedAt : K

namespace TokenBucket

variable {K : Type} [Field K] [LinearOrder K]

/-- Fill up to the present. -/
def refill (b : TokenBucket K) (now : K) : TokenBucket K :=
  if max 0 (now - b.updatedAt) = 0 then b
  else
    { b with
      tokens := min b.burst (b.tokens + max 0 (now - b.updatedAt) * b.rate)
      updatedAt := now }

/-- How long until the bucket holds as many tokens. -/
def retryAfter (b : TokenBucket K) (cost : K) : K :=
  if max 0 (cost - b.tokens) ≤ 0 then 0 else max 0 (cost - b.tokens) / b.rate

/-- Take tokens. -/
def consume (b : TokenBucket K) (cost : K) : TokenBucket K :=
  { b with tokens := max 0 (b.tokens - cost) }

/-- What the bucket holds at a time after it was last filled up. -/
def level (b : TokenBucket K) (now : K) : K :=
  min b.burst (b.tokens + (now - b.updatedAt) * b.rate)

/-- The numbers of a bucket fit together. -/
structure Valid (b : TokenBucket K) : Prop where
  rate_pos : 0 < b.rate
  tokens_nonneg : 0 ≤ b.tokens
  tokens_le : b.tokens ≤ b.burst

@[simp] theorem refill_rate (b : TokenBucket K) (now : K) : (b.refill now).rate = b.rate := by
  unfold refill
  split <;> rfl

@[simp] theorem refill_burst (b : TokenBucket K) (now : K) : (b.refill now).burst = b.burst := by
  unfold refill
  split <;> rfl

@[simp] theorem consume_rate (b : TokenBucket K) (cost : K) : (b.consume cost).rate = b.rate := rfl

@[simp] theorem consume_burst (b : TokenBucket K) (cost : K) : (b.consume cost).burst = b.burst := rfl

@[simp] theorem consume_updatedAt (b : TokenBucket K) (cost : K) :
    (b.consume cost).updatedAt = b.updatedAt := rfl

theorem level_le_burst (b : TokenBucket K) (now : K) : b.level now ≤ b.burst :=
  min_le_left _ _

variable [IsStrictOrderedRing K] {b : TokenBucket K} {now later cost : K}

theorem refill_updatedAt (h : b.updatedAt ≤ now) : (b.refill now).updatedAt = now := by
  unfold refill
  split
  · next hzero =>
    rw [max_eq_right (sub_nonneg.2 h)] at hzero
    exact (sub_eq_zero.1 hzero).symm
  · rfl

theorem refill_tokens (hb : b.Valid) (h : b.updatedAt ≤ now) :
    (b.refill now).tokens = b.level now := by
  unfold refill level
  rw [max_eq_right (sub_nonneg.2 h)]
  split
  · next hzero =>
    rw [hzero, zero_mul, add_zero, min_eq_right hb.tokens_le]
  · rfl

omit [IsStrictOrderedRing K] in
theorem level_updatedAt (hb : b.Valid) : b.level b.updatedAt = b.tokens := by
  rw [level, sub_self, zero_mul, add_zero, min_eq_right hb.tokens_le]

theorem level_nonneg (hb : b.Valid) (h : b.updatedAt ≤ now) : 0 ≤ b.level now := by
  have hburst : 0 ≤ b.burst := hb.tokens_nonneg.trans hb.tokens_le
  have hgain : 0 ≤ (now - b.updatedAt) * b.rate := mul_nonneg (sub_nonneg.2 h) hb.rate_pos.le
  exact le_min hburst (add_nonneg hb.tokens_nonneg hgain)

theorem Valid.refill (hb : b.Valid) (h : b.updatedAt ≤ now) : (b.refill now).Valid where
  rate_pos := by
    rw [refill_rate]
    exact hb.rate_pos
  tokens_nonneg := by
    rw [refill_tokens hb h]
    exact level_nonneg hb h
  tokens_le := by
    rw [refill_tokens hb h, refill_burst]
    exact level_le_burst b now

theorem Valid.consume (hb : b.Valid) (hcost : 0 ≤ cost) : (b.consume cost).Valid where
  rate_pos := hb.rate_pos
  tokens_nonneg := le_max_left _ _
  tokens_le := max_le (hb.tokens_nonneg.trans hb.tokens_le)
    ((sub_le_self _ hcost).trans hb.tokens_le)

/-- Filling up and looking at the clock later is looking at the clock later. -/
theorem level_refill (hb : b.Valid) (h : b.updatedAt ≤ now) (hlater : now ≤ later) :
    (b.refill now).level later = b.level later := by
  have hgain : 0 ≤ (later - now) * b.rate := mul_nonneg (sub_nonneg.2 hlater) hb.rate_pos.le
  have hsplit : (later - b.updatedAt) * b.rate
      = (now - b.updatedAt) * b.rate + (later - now) * b.rate := by ring
  rw [level, refill_burst, refill_tokens hb h, refill_updatedAt h, refill_rate, level, level, hsplit,
    min_add, ← min_assoc, min_eq_left (le_add_of_nonneg_right hgain), add_assoc]

/-- Taking tokens that are there lowers the level at that time by what is taken. -/
theorem level_consume (hb : b.Valid) (hcost : 0 ≤ cost) (hle : cost ≤ b.tokens) :
    (b.consume cost).level b.updatedAt = b.tokens - cost := by
  have htokens : (b.consume cost).tokens = b.tokens - cost := max_eq_right (sub_nonneg.2 hle)
  have hlevel := level_updatedAt (hb.consume hcost)
  rw [consume_updatedAt] at hlevel
  rw [hlevel, htokens]

/-- A bucket gains no more than the rate allows. -/
theorem level_le_add (hb : b.Valid) (hlater : now ≤ later) :
    b.level later ≤ b.level now + (later - now) * b.rate := by
  have hgain : 0 ≤ (later - now) * b.rate := mul_nonneg (sub_nonneg.2 hlater) hb.rate_pos.le
  have hsplit : (later - b.updatedAt) * b.rate
      = (now - b.updatedAt) * b.rate + (later - now) * b.rate := by ring
  rw [level, level, hsplit, min_add]
  refine le_min ((min_le_left _ _).trans (le_add_of_nonneg_right hgain)) ?_
  rw [add_assoc]
  exact min_le_right _ _

/-- A bucket never waits for longer than it has to, nor says so. -/
theorem retryAfter_nonneg (hb : b.Valid) : 0 ≤ b.retryAfter cost := by
  unfold retryAfter
  split
  · exact le_rfl
  · exact div_nonneg (le_max_left _ _) hb.rate_pos.le

theorem retryAfter_pos_iff (hb : b.Valid) : 0 < b.retryAfter cost ↔ b.tokens < cost := by
  unfold retryAfter
  constructor
  · intro h
    split at h
    · exact absurd h (lt_irrefl _)
    · next hmissing =>
      by_contra hle
      exact hmissing (max_le le_rfl (sub_nonpos.2 (not_lt.1 hle)))
  · intro h
    have hmissing : 0 < max 0 (cost - b.tokens) := lt_max_of_lt_right (sub_pos.2 h)
    rw [if_neg (not_le.2 hmissing)]
    exact div_pos hmissing hb.rate_pos

/-- After the wait that a bucket asks for it holds enough, if it ever can. -/
theorem le_level_of_retryAfter (hb : b.Valid) (hburst : cost ≤ b.burst)
    (hwait : b.updatedAt + b.retryAfter cost ≤ later) : cost ≤ b.level later := by
  refine le_min hburst ?_
  have hgain : (b.retryAfter cost) * b.rate ≤ (later - b.updatedAt) * b.rate :=
    mul_le_mul_of_nonneg_right (by linarith) hb.rate_pos.le
  by_cases hlt : b.tokens < cost
  · have hmissing : b.retryAfter cost * b.rate = cost - b.tokens := by
      have hpos : 0 < max 0 (cost - b.tokens) := lt_max_of_lt_right (sub_pos.2 hlt)
      rw [retryAfter, if_neg (not_le.2 hpos), div_mul_cancel₀ _ hb.rate_pos.ne',
        max_eq_right (sub_pos.2 hlt).le]
    linarith
  · have hnonneg : 0 ≤ b.retryAfter cost * b.rate :=
      mul_nonneg (retryAfter_nonneg hb) hb.rate_pos.le
    linarith

end TokenBucket
