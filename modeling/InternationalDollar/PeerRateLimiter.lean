import InternationalDollar.Lib.AssocList
import InternationalDollar.Lib.Select
import InternationalDollar.Lib.TokenBucket
import Mathlib.Algebra.Order.Ring.Rat

set_option autoImplicit false

/-! # Rate limits for peers (`node_client`, `PeerRateLimiter`)

Every call is charged to three token buckets of its lane: one for all peers, one for the subnet and one
for the address. Times and tokens are rational numbers. The table of buckets is bounded, and what it drops
comes back full. -/

namespace PeerRateLimiter

/-- What a bucket counts. -/
inductive Scope where
  | global
  | subnet
  | ip
  deriving DecidableEq

/-- The key of a bucket. -/
structure Key where
  scope : Scope
  lane : String
  name : String
  deriving DecidableEq

/-- The limiter without its table. The limits are a rate and a burst for each lane and scope. The two
    functions on addresses belong to the network layer. -/
structure Config where
  maxEntries : Nat
  limits : String → Scope → ℚ × ℚ
  normalizedIp : String → String
  subnetKey : String → String

/-- `self.buckets`. -/
abbrev Buckets : Type := List (Key × TokenBucket ℚ)

/-- `RateLimitDecision`. -/
structure RateLimitDecision where
  allowed : Bool
  retryAfterSeconds : ℚ

/-- `TokenBucket.__init__`. -/
def newBucket (rate burst now : ℚ) : TokenBucket ℚ where
  rate := max (1 / 1000) rate
  burst := max 1 burst
  tokens := max 1 burst
  updatedAt := now

/-- `_lane_for_bucket`. -/
def laneForBucket (bucket : String) : String :=
  if bucket = "gossip" ∨ bucket = "root_gossip" then "gossip"
  else if bucket = "evidence" ∨ bucket = "evidence_verification" then "evidence"
  else if bucket = "equivocation_gossip" ∨ bucket = "critical" then "critical"
  else if bucket = "gossip_decode_error" ∨ bucket = "invalid" then "invalid"
  else "control"

/-- `_trim`: the buckets that were used last stay. -/
def trim (maxEntries : Nat) (buckets : Buckets) : Buckets :=
  ((Select.orderBy (fun item => item.2.updatedAt) buckets).take (buckets.length - maxEntries)).foldl
    (fun kept item => AssocList.pop item.1 kept) buckets

/-- `check` as it is called: `bucket` is the name of the lane, the time is read from the clock. -/
structure Call where
  peer : String
  bucket : String
  cost : ℚ
  now : ℚ

section Check

variable (cfg : Config)

/-- `_keys_for`. -/
def keysFor (peer lane : String) : List Key :=
  let peer := cfg.normalizedIp peer
  [⟨.global, lane, "*"⟩, ⟨.subnet, lane, cfg.subnetKey peer⟩, ⟨.ip, lane, peer⟩]

/-- `_bucket_for`: the bucket, filled up, and the table with it. -/
def bucketFor (buckets : Buckets) (key : Key) (now : ℚ) : TokenBucket ℚ × Buckets :=
  let limit := cfg.limits key.lane key.scope
  let bucket := ((AssocList.get? key buckets).getD (newBucket limit.1 limit.2 now)).refill now
  (bucket, AssocList.put key bucket buckets)

/-- One round of the loop of `check` over the keys. -/
def visit (cost now : ℚ) (visited : Buckets × ℚ) (key : Key) : Buckets × ℚ :=
  let found := bucketFor cfg visited.1 key now
  (found.2, max visited.2 (found.1.retryAfter cost))

/-- `bucket.consume(cost)` for a bucket of the table. -/
def consumeFrom (cost : ℚ) (buckets : Buckets) (key : Key) : Buckets :=
  match AssocList.get? key buckets with
  | some bucket => AssocList.put key (bucket.consume cost) buckets
  | none => buckets

/-- The buckets that a call is charged to. -/
def Call.keys (c : Call) : List Key :=
  keysFor cfg c.peer (laneForBucket c.bucket)

/-- What a call costs. -/
def Call.charge (c : Call) : ℚ :=
  max 1 c.cost

/-- `check`: the table after the call and the decision. -/
def check (buckets : Buckets) (c : Call) : Buckets × RateLimitDecision :=
  let visited := (c.keys cfg).foldl (visit cfg c.charge c.now) (buckets, 0)
  if 0 < visited.2 then
    (trim cfg.maxEntries visited.1, { allowed := false, retryAfterSeconds := max (1 / 10) visited.2 })
  else
    (trim cfg.maxEntries ((c.keys cfg).foldl (consumeFrom c.charge) visited.1),
      { allowed := true, retryAfterSeconds := 0 })

/-- The calls of a run, each with the table before it. -/
def log : Buckets → List Call → List (Buckets × Call)
  | _, [] => []
  | buckets, c :: rest => (buckets, c) :: log (check cfg buckets c).1 rest

/-! ## Budgets -/

/-- The rate of a bucket, with its floor. -/
def Config.rate (key : Key) : ℚ :=
  max (1 / 1000) (cfg.limits key.lane key.scope).1

/-- The burst of a bucket, with its floor. -/
def Config.burst (key : Key) : ℚ :=
  max 1 (cfg.limits key.lane key.scope).2

/-- What a bucket would hold at a time: a bucket that is not in the table is full. -/
def budget (buckets : Buckets) (key : Key) (now : ℚ) : ℚ :=
  match AssocList.get? key buckets with
  | some bucket => bucket.level now
  | none => cfg.burst key

/-- What a call takes from a bucket. -/
def taken (buckets : Buckets) (c : Call) (key : Key) : ℚ :=
  if (check cfg buckets c).2.allowed ∧ key ∈ c.keys cfg then c.charge else 0

/-- A call does not make the table forget what a bucket has given away: the bucket is in the table after
    the call, or it is full. -/
def Keeps (buckets : Buckets) (c : Call) (key : Key) : Prop :=
  (AssocList.get? key (check cfg buckets c).1).isSome ∨
    budget cfg buckets key c.now - taken cfg buckets c key = cfg.burst key

/-- The table holds each bucket once, with the limits of its key, and none from the future. -/
structure Fits (buckets : Buckets) (now : ℚ) : Prop where
  nodup : (buckets.map Prod.fst).Nodup
  valid : ∀ key bucket, AssocList.get? key buckets = some bucket → bucket.Valid ∧
    bucket.rate = cfg.rate key ∧ bucket.burst = cfg.burst key ∧ bucket.updatedAt ≤ now

end Check

variable {cfg : Config} {buckets : Buckets} {key : Key} {now later : ℚ}

theorem rate_pos : 0 < cfg.rate key :=
  lt_max_of_lt_left (by norm_num)

theorem one_le_burst : 1 ≤ cfg.burst key :=
  le_max_left _ _

theorem one_le_charge (c : Call) : 1 ≤ c.charge :=
  le_max_left _ _

theorem valid_newBucket (rate burst now : ℚ) : (newBucket rate burst now).Valid where
  rate_pos := lt_max_of_lt_left (by norm_num)
  tokens_nonneg := zero_le_one.trans (le_max_left _ _)
  tokens_le := le_rfl

theorem fits_nil (now : ℚ) : Fits cfg [] now where
  nodup := List.nodup_nil
  valid := fun _ _ h => nomatch h

theorem Fits.mono (h : Fits cfg buckets now) (hlater : now ≤ later) : Fits cfg buckets later where
  nodup := h.nodup
  valid := fun key bucket hget => by
    obtain ⟨hvalid, hrate, hburst, hupdated⟩ := h.valid key bucket hget
    exact ⟨hvalid, hrate, hburst, hupdated.trans hlater⟩

theorem Fits.put (h : Fits cfg buckets now) {bucket : TokenBucket ℚ} (hvalid : bucket.Valid)
    (hrate : bucket.rate = cfg.rate key) (hburst : bucket.burst = cfg.burst key)
    (hupdated : bucket.updatedAt ≤ now) : Fits cfg (AssocList.put key bucket buckets) now where
  nodup := AssocList.nodup_put h.nodup
  valid := by
    intro other found hget
    rw [AssocList.get?_put] at hget
    split at hget
    · next heq =>
      obtain rfl := Option.some.inj hget
      exact heq ▸ ⟨hvalid, hrate, hburst, hupdated⟩
    · exact h.valid other found hget

theorem budget_of_get? {bucket : TokenBucket ℚ} (h : AssocList.get? key buckets = some bucket) :
    budget cfg buckets key now = bucket.level now := by
  rw [budget, h]

theorem budget_of_none (h : AssocList.get? key buckets = none) :
    budget cfg buckets key now = cfg.burst key := by
  rw [budget, h]

theorem budget_le_burst (h : Fits cfg buckets now) : budget cfg buckets key later ≤ cfg.burst key := by
  cases hget : AssocList.get? key buckets with
  | none => rw [budget_of_none hget]
  | some bucket =>
    rw [budget_of_get? hget, ← (h.valid key bucket hget).2.2.1]
    exact bucket.level_le_burst later

theorem budget_nonneg (h : Fits cfg buckets now) (hlater : now ≤ later) :
    0 ≤ budget cfg buckets key later := by
  cases hget : AssocList.get? key buckets with
  | none =>
    rw [budget_of_none hget]
    exact zero_le_one.trans one_le_burst
  | some bucket =>
    obtain ⟨hvalid, -, -, hupdated⟩ := h.valid key bucket hget
    rw [budget_of_get? hget]
    exact TokenBucket.level_nonneg hvalid (hupdated.trans hlater)

/-- A budget grows no faster than its rate. -/
theorem budget_le_add (h : Fits cfg buckets now) {time : ℚ} (hlater : time ≤ later) :
    budget cfg buckets key later ≤ budget cfg buckets key time + (later - time) * cfg.rate key := by
  cases hget : AssocList.get? key buckets with
  | none =>
    rw [budget_of_none hget, budget_of_none hget]
    exact le_add_of_nonneg_right (mul_nonneg (sub_nonneg.2 hlater) rate_pos.le)
  | some bucket =>
    obtain ⟨hvalid, hrate, -, -⟩ := h.valid key bucket hget
    rw [budget_of_get? hget, budget_of_get? hget, ← hrate]
    exact TokenBucket.level_le_add hvalid hlater

/-- A full budget stays full. -/
theorem budget_eq_burst (h : Fits cfg buckets now) {time : ℚ} (hlater : time ≤ later)
    (hfull : budget cfg buckets key time = cfg.burst key) :
    budget cfg buckets key later = cfg.burst key := by
  cases hget : AssocList.get? key buckets with
  | none => exact budget_of_none hget
  | some bucket =>
    obtain ⟨hvalid, -, hburst, -⟩ := h.valid key bucket hget
    rw [budget_of_get? hget] at hfull ⊢
    have hgain : (time - bucket.updatedAt) * bucket.rate ≤ (later - bucket.updatedAt) * bucket.rate :=
      mul_le_mul_of_nonneg_right (by linarith) hvalid.rate_pos.le
    have htime : bucket.burst ≤ bucket.tokens + (time - bucket.updatedAt) * bucket.rate := by
      rw [hburst, ← hfull]
      exact min_le_right _ _
    rw [TokenBucket.level, ← hburst]
    exact min_eq_left (by linarith)

/-! ## The loop over the keys -/

/-- What the first loop of `check` leaves behind: the visited buckets are filled up and no budget has
    changed. -/
structure Visited (cfg : Config) (before : Buckets) (cost now : ℚ) (keys : List Key)
    (visited : Buckets × ℚ) : Prop where
  fits : Fits cfg visited.1 now
  budget_eq : ∀ key later, now ≤ later →
    budget cfg visited.1 key later = budget cfg before key later
  fresh : ∀ key ∈ keys, ∃ bucket, AssocList.get? key visited.1 = some bucket ∧
    bucket.updatedAt = now ∧ bucket.retryAfter cost ≤ visited.2
  pos_iff : 0 < visited.2 ↔ ∃ key ∈ keys, budget cfg before key now < cost

theorem bucketFor_spec (h : Fits cfg buckets now) (key : Key) :
    let found := bucketFor cfg buckets key now
    found.1.Valid ∧ found.1.rate = cfg.rate key ∧ found.1.burst = cfg.burst key ∧
      found.1.updatedAt = now ∧
      ∀ later, now ≤ later → found.1.level later = budget cfg buckets key later := by
  intro found
  cases hget : AssocList.get? key buckets with
  | none =>
    have hnew := valid_newBucket (cfg.limits key.lane key.scope).1 (cfg.limits key.lane key.scope).2 now
    have hfound : found.1 = (newBucket (cfg.limits key.lane key.scope).1
        (cfg.limits key.lane key.scope).2 now).refill now := by
      simp only [found, bucketFor, hget, Option.getD_none]
    rw [hfound]
    refine ⟨hnew.refill le_rfl, TokenBucket.refill_rate _ _, TokenBucket.refill_burst _ _,
      TokenBucket.refill_updatedAt le_rfl, ?_⟩
    intro later hlater
    have hupdated : (newBucket (cfg.limits key.lane key.scope).1 (cfg.limits key.lane key.scope).2
      now).updatedAt ≤ now := le_rfl
    rw [TokenBucket.level_refill hnew hupdated hlater, budget_of_none hget]
    exact min_eq_left (le_add_of_nonneg_right (mul_nonneg (sub_nonneg.2 hlater) hnew.rate_pos.le))
  | some bucket =>
    obtain ⟨hvalid, hrate, hburst, hupdated⟩ := h.valid key bucket hget
    have hfound : found.1 = bucket.refill now := by
      simp only [found, bucketFor, hget, Option.getD_some]
    rw [hfound]
    refine ⟨hvalid.refill hupdated, (TokenBucket.refill_rate _ _).trans hrate,
      (TokenBucket.refill_burst _ _).trans hburst, TokenBucket.refill_updatedAt hupdated, ?_⟩
    intro later hlater
    rw [TokenBucket.level_refill hvalid hupdated hlater, budget_of_get? hget]

theorem Visited.visit {before : Buckets} {cost : ℚ} {keys : List Key} {visited : Buckets × ℚ}
    (h : Visited cfg before cost now keys visited) (key : Key) :
    Visited cfg before cost now (keys ++ [key]) (visit cfg cost now visited key) := by
  obtain ⟨hvalid, hrate, hburst, hupdated, hlevel⟩ := bucketFor_spec h.fits key
  refine ⟨?_, ?_, ?_, ?_⟩
  · exact h.fits.put hvalid hrate hburst hupdated.le
  · intro other later hlater
    rw [← h.budget_eq other later hlater]
    by_cases heq : other = key
    · subst heq
      rw [← hlevel later hlater]
      refine budget_of_get? ?_
      rw [PeerRateLimiter.visit, bucketFor, AssocList.get?_put, if_pos rfl]
    · rw [budget, budget, PeerRateLimiter.visit, bucketFor, AssocList.get?_put, if_neg heq]
  · intro other hother
    by_cases heq : other = key
    · subst heq
      refine ⟨_, ?_, hupdated, le_max_right _ _⟩
      rw [PeerRateLimiter.visit, bucketFor, AssocList.get?_put, if_pos rfl]
    · have hmem : other ∈ keys := by
        rcases List.mem_append.1 hother with hmem | hmem
        · exact hmem
        · exact absurd (List.mem_singleton.1 hmem) heq
      obtain ⟨bucket, hget, hbucket, hretry⟩ := h.fresh other hmem
      refine ⟨bucket, ?_, hbucket, hretry.trans (le_max_left _ _)⟩
      rw [PeerRateLimiter.visit, bucketFor, AssocList.get?_put, if_neg heq, hget]
  · have htokens := TokenBucket.level_updatedAt hvalid
    rw [hupdated, hlevel now le_rfl, h.budget_eq key now le_rfl] at htokens
    rw [PeerRateLimiter.visit, lt_max_iff, h.pos_iff, TokenBucket.retryAfter_pos_iff hvalid, ← htokens]
    simp only [List.mem_append, List.mem_singleton]
    constructor
    · rintro (⟨other, hother, hlt⟩ | hlt)
      · exact ⟨other, Or.inl hother, hlt⟩
      · exact ⟨key, Or.inr rfl, hlt⟩
    · rintro ⟨other, hother | rfl, hlt⟩
      · exact Or.inl ⟨other, hother, hlt⟩
      · exact Or.inr hlt

theorem visited_foldl {before : Buckets} {cost : ℚ} {keys : List Key} {visited : Buckets × ℚ}
    (h : Visited cfg before cost now keys visited) (more : List Key) :
    Visited cfg before cost now (keys ++ more) (more.foldl (visit cfg cost now) visited) := by
  induction more generalizing keys visited with
  | nil => simpa using h
  | cons key rest ih =>
    have := ih (h.visit key)
    rwa [List.append_assoc, List.singleton_append] at this

theorem visited_keys (h : Fits cfg buckets now) (cost : ℚ) (keys : List Key) :
    Visited cfg buckets cost now keys (keys.foldl (visit cfg cost now) (buckets, 0)) := by
  have hstart : Visited cfg buckets cost now [] (buckets, 0) :=
    ⟨h, fun _ _ _ => rfl, fun _ h => (nomatch h), by simp⟩
  simpa using visited_foldl hstart keys

/-! ## Charging and trimming -/

theorem nodup_consumeFrom (cost : ℚ) (h : (buckets.map Prod.fst).Nodup) (key : Key) :
    ((consumeFrom cost buckets key).map Prod.fst).Nodup := by
  unfold consumeFrom
  split
  · exact AssocList.nodup_put h
  · exact h

theorem get?_consumeFrom (cost : ℚ) (key other : Key) :
    AssocList.get? other (consumeFrom cost buckets key) =
      if other = key then (AssocList.get? other buckets).map (·.consume cost)
      else AssocList.get? other buckets := by
  unfold consumeFrom
  split
  · next bucket hget =>
    rw [AssocList.get?_put]
    split
    · next heq => rw [heq, hget, Option.map_some]
    · rfl
  · next hget =>
    split
    · next heq => rw [heq, hget, Option.map_none]
    · rfl

theorem nodup_foldl_consumeFrom (cost : ℚ) (h : (buckets.map Prod.fst).Nodup) (keys : List Key) :
    ((keys.foldl (consumeFrom cost) buckets).map Prod.fst).Nodup := by
  induction keys generalizing buckets with
  | nil => exact h
  | cons key rest ih => exact ih (nodup_consumeFrom cost h key)

theorem get?_foldl_consumeFrom (cost : ℚ) {keys : List Key} (hkeys : keys.Nodup) (key : Key) :
    AssocList.get? key (keys.foldl (consumeFrom cost) buckets) =
      if key ∈ keys then (AssocList.get? key buckets).map (·.consume cost)
      else AssocList.get? key buckets := by
  induction keys generalizing buckets with
  | nil => simp
  | cons first rest ih =>
    obtain ⟨hfirst, hrest⟩ := List.nodup_cons.1 hkeys
    rw [List.foldl_cons, ih hrest, get?_consumeFrom]
    by_cases heq : key = first
    · subst heq
      rw [if_neg hfirst, if_pos rfl, if_pos List.mem_cons_self]
    · rw [if_neg heq]
      simp only [List.mem_cons, heq, false_or]

/-- Trimming drops buckets and changes none. -/
theorem trim_spec (maxEntries : Nat) (h : (buckets.map Prod.fst).Nodup) :
    ((trim maxEntries buckets).map Prod.fst).Nodup ∧
      ∀ key, AssocList.get? key (trim maxEntries buckets) = none ∨
        AssocList.get? key (trim maxEntries buckets) = AssocList.get? key buckets := by
  have hpops : ∀ (items kept : Buckets), (kept.map Prod.fst).Nodup →
      ((items.foldl (fun kept item => AssocList.pop item.1 kept) kept).map Prod.fst).Nodup ∧
        ∀ key,
          AssocList.get? key (items.foldl (fun kept item => AssocList.pop item.1 kept) kept) = none ∨
          AssocList.get? key (items.foldl (fun kept item => AssocList.pop item.1 kept) kept)
            = AssocList.get? key kept := by
    intro items
    induction items with
    | nil => exact fun kept hkept => ⟨hkept, fun _ => Or.inr rfl⟩
    | cons item rest ih =>
      intro kept hkept
      obtain ⟨hnodup, hget⟩ := ih _ (AssocList.nodup_pop hkept)
      refine ⟨hnodup, fun key => ?_⟩
      rcases hget key with h | h
      · exact Or.inl h
      · rw [AssocList.get?_pop hkept] at h
        split at h
        · exact Or.inl h
        · exact Or.inr h
  exact hpops _ buckets h

theorem nodup_keysFor (peer lane : String) : (keysFor cfg peer lane).Nodup := by
  simp [keysFor]

/-! ## One call -/

/-- What one call does: it is allowed exactly if every budget it is charged to covers it, a denied call
    leaves what it does not forget as it was, and an allowed call takes its cost from its three budgets. -/
structure Checked (cfg : Config) (buckets : Buckets) (c : Call) : Prop where
  fits : Fits cfg (check cfg buckets c).1 c.now
  allowed_iff : (check cfg buckets c).2.allowed = true ↔
    ∀ key ∈ c.keys cfg, c.charge ≤ budget cfg buckets key c.now
  budget_eq : ∀ key, Keeps cfg buckets c key → budget cfg (check cfg buckets c).1 key c.now
    = budget cfg buckets key c.now - taken cfg buckets c key
  budget_of_denied : (check cfg buckets c).2.allowed = false → ∀ key later, c.now ≤ later →
    Keeps cfg buckets c key →
      budget cfg (check cfg buckets c).1 key later = budget cfg buckets key later
  covered_of_denied : (check cfg buckets c).2.allowed = false → ∀ key ∈ c.keys cfg,
    c.charge ≤ cfg.burst key → c.charge ≤ budget cfg (check cfg buckets c).1 key
      (c.now + (check cfg buckets c).2.retryAfterSeconds)

theorem Fits.trim (h : Fits cfg buckets now) (maxEntries : Nat) :
    Fits cfg (trim maxEntries buckets) now := by
  obtain ⟨hnodup, hget⟩ := trim_spec maxEntries h.nodup
  refine ⟨hnodup, fun key bucket hbucket => ?_⟩
  rcases hget key with hnone | hsame
  · rw [hnone] at hbucket
    cases hbucket
  · exact h.valid key bucket (hsame ▸ hbucket)

/-- A kept budget after trimming, from the one before. -/
theorem budget_trim (h : Fits cfg buckets now) {maxEntries : Nat}
    (hkept : (AssocList.get? key (trim maxEntries buckets)).isSome ∨
      budget cfg buckets key now = cfg.burst key) (hlater : now ≤ later) :
    budget cfg (trim maxEntries buckets) key later = budget cfg buckets key later := by
  rcases (trim_spec maxEntries h.nodup).2 key with hnone | hsame
  · rw [hnone] at hkept
    rw [budget_of_none hnone]
    exact (budget_eq_burst h hlater (hkept.resolve_left (by simp))).symm
  · rw [budget, budget, hsame]

/-- Charging the visited buckets that cover the cost. -/
theorem Visited.charged {before : Buckets} {cost : ℚ} {keys : List Key} {visited : Buckets × ℚ}
    (h : Visited cfg before cost now keys visited) (hkeys : keys.Nodup) (hcost : 0 ≤ cost)
    (hcovered : ∀ key ∈ keys, cost ≤ budget cfg before key now) :
    Fits cfg (keys.foldl (consumeFrom cost) visited.1) now ∧
      ∀ key, budget cfg (keys.foldl (consumeFrom cost) visited.1) key now
        = budget cfg before key now - if key ∈ keys then cost else 0 := by
  have hget : ∀ key, AssocList.get? key (keys.foldl (consumeFrom cost) visited.1)
      = if key ∈ keys then (AssocList.get? key visited.1).map (·.consume cost)
        else AssocList.get? key visited.1 := get?_foldl_consumeFrom cost hkeys
  refine ⟨⟨nodup_foldl_consumeFrom cost h.fits.nodup keys, ?_⟩, ?_⟩
  · intro key bucket hbucket
    rw [hget] at hbucket
    split at hbucket
    · obtain ⟨old, hold, rfl⟩ := Option.map_eq_some_iff.1 hbucket
      obtain ⟨hvalid, hrate, hburst, hupdated⟩ := h.fits.valid key old hold
      exact ⟨hvalid.consume hcost, hrate, hburst, hupdated⟩
    · exact h.fits.valid key bucket hbucket
  · intro key
    rw [← h.budget_eq key now le_rfl]
    by_cases hmem : key ∈ keys
    · obtain ⟨bucket, hbucket, hupdated, -⟩ := h.fresh key hmem
      have hvalid := (h.fits.valid key bucket hbucket).1
      have htokens : bucket.tokens = budget cfg visited.1 key now := by
        rw [budget_of_get? hbucket, ← hupdated, TokenBucket.level_updatedAt hvalid]
      have hle : cost ≤ bucket.tokens := by
        rw [htokens, h.budget_eq key now le_rfl]
        exact hcovered key hmem
      have hafter := hget key
      rw [if_pos hmem, hbucket, Option.map_some] at hafter
      rw [if_pos hmem, budget_of_get? hafter, ← htokens, ← TokenBucket.level_consume hvalid hcost hle,
        hupdated]
    · rw [if_neg hmem, sub_zero, budget, budget, hget, if_neg hmem]

theorem checked {c : Call} (h : Fits cfg buckets now) (hnow : now ≤ c.now) : Checked cfg buckets c := by
  have hvisited := visited_keys (h.mono hnow) c.charge (c.keys cfg)
  have hkeys : (c.keys cfg).Nodup := nodup_keysFor _ _
  by_cases hdenied : 0 < ((c.keys cfg).foldl (visit cfg c.charge c.now) (buckets, 0)).2
  · have hcheck : check cfg buckets c = (PeerRateLimiter.trim cfg.maxEntries
        ((c.keys cfg).foldl (visit cfg c.charge c.now) (buckets, 0)).1,
        { allowed := false, retryAfterSeconds :=
          max (1 / 10) ((c.keys cfg).foldl (visit cfg c.charge c.now) (buckets, 0)).2 }) := by
      rw [check, if_pos hdenied]
    have htaken : ∀ key, taken cfg buckets c key = 0 := fun key => by
      rw [taken, hcheck, if_neg (by simp)]
    have hkeeps : ∀ key later, c.now ≤ later → Keeps cfg buckets c key →
        budget cfg (check cfg buckets c).1 key later = budget cfg buckets key later := by
      intro key later hlater hkeep
      rw [Keeps, htaken, sub_zero, hcheck, ← hvisited.budget_eq key c.now le_rfl] at hkeep
      rw [hcheck, budget_trim hvisited.fits hkeep hlater, hvisited.budget_eq key later hlater]
    refine ⟨?_, ?_, ?_, fun _ => hkeeps, ?_⟩
    · rw [hcheck]
      exact hvisited.fits.trim _
    · obtain ⟨key, hkey, hlt⟩ := hvisited.pos_iff.1 hdenied
      rw [hcheck]
      exact iff_of_false (by simp) fun hall => absurd (hall key hkey) (not_le.2 hlt)
    · intro key hkeep
      rw [hkeeps key c.now le_rfl hkeep, htaken, sub_zero]
    · intro _ key hkey hburst
      obtain ⟨bucket, hget, hupdated, hretry⟩ := hvisited.fresh key hkey
      obtain ⟨hvalid, -, hbucketBurst, -⟩ := hvisited.fits.valid key bucket hget
      rw [hcheck]
      rcases (trim_spec cfg.maxEntries hvisited.fits.nodup).2 key with hnone | hsame
      · -- a dropped bucket comes back full
        rw [budget_of_none hnone]
        exact hburst
      · rw [budget_of_get? (hsame.trans hget)]
        refine TokenBucket.le_level_of_retryAfter hvalid (hbucketBurst ▸ hburst) ?_
        rw [hupdated]
        exact add_le_add_right (hretry.trans (le_max_right _ _)) _
  · have hcheck : check cfg buckets c = (PeerRateLimiter.trim cfg.maxEntries ((c.keys cfg).foldl
        (consumeFrom c.charge) ((c.keys cfg).foldl (visit cfg c.charge c.now) (buckets, 0)).1),
        { allowed := true, retryAfterSeconds := 0 }) := by
      rw [check, if_neg hdenied]
    have hcovered : ∀ key ∈ c.keys cfg, c.charge ≤ budget cfg buckets key c.now := by
      intro key hkey
      exact not_lt.1 fun hlt => hdenied (hvisited.pos_iff.2 ⟨key, hkey, hlt⟩)
    obtain ⟨hfits, hbudget⟩ := hvisited.charged hkeys (zero_le_one.trans (one_le_charge c)) hcovered
    have htaken : ∀ key, taken cfg buckets c key = if key ∈ c.keys cfg then c.charge else 0 :=
      fun key => by simp only [taken, hcheck, true_and]
    refine ⟨?_, ?_, ?_, ?_, ?_⟩
    · rw [hcheck]
      exact hfits.trim _
    · rw [hcheck]
      exact iff_of_true rfl hcovered
    · intro key hkeep
      rw [Keeps, htaken, hcheck, ← hbudget] at hkeep
      rw [hcheck, budget_trim hfits hkeep le_rfl, hbudget, htaken]
    · intro hfalse
      rw [hcheck] at hfalse
      cases hfalse
    · intro hfalse
      rw [hcheck] at hfalse
      cases hfalse

/-! ## Runs -/

/-- The calls come in the order of the clock. -/
def Ordered (calls : List Call) : Prop :=
  calls.Pairwise fun c d => c.now ≤ d.now

variable (cfg) in
/-- An allowed call in a time window that was charged to a bucket. -/
def counted (key : Key) (start stop : ℚ) (entry : Buckets × Call) : Bool :=
  decide (start ≤ entry.2.now ∧ entry.2.now ≤ stop ∧ key ∈ entry.2.keys cfg) &&
    (check cfg entry.1 entry.2).2.allowed

theorem mem_calls_of_mem_log {calls : List Call} {entry : Buckets × Call}
    (h : entry ∈ log cfg buckets calls) : entry.2 ∈ calls := by
  induction calls generalizing buckets with
  | nil => cases h
  | cons c rest ih =>
    rcases List.mem_cons.1 h with rfl | h
    · exact List.mem_cons_self
    · exact List.mem_cons_of_mem c (ih h)

theorem fits_of_mem_log {calls : List Call} (h : Fits cfg buckets now) (hordered : Ordered calls)
    (hstart : ∀ c ∈ calls, now ≤ c.now) {entry : Buckets × Call}
    (hentry : entry ∈ log cfg buckets calls) : Fits cfg entry.1 entry.2.now := by
  induction calls generalizing buckets now with
  | nil => cases hentry
  | cons c rest ih =>
    obtain ⟨hnext, hrest⟩ := List.pairwise_cons.1 hordered
    have hnow := hstart c List.mem_cons_self
    rcases List.mem_cons.1 hentry with rfl | hentry
    · exact h.mono hnow
    · exact ih (checked h hnow).fits hrest hnext hentry

/-- Inside a window: what was allowed so far and what the bucket still holds come out of what it held and
    what it gained. -/
theorem countP_le {calls : List Call} {start stop : ℚ} (h : Fits cfg buckets now)
    (hordered : Ordered calls) (hcalls : ∀ c ∈ calls, now ≤ c.now) (hstart : start ≤ now)
    (hstop : now ≤ stop) (hkeeps : ∀ entry ∈ log cfg buckets calls, start ≤ entry.2.now →
      entry.2.now ≤ stop → Keeps cfg entry.1 entry.2 key) :
    ((log cfg buckets calls).countP (counted cfg key start stop) : ℚ)
      ≤ budget cfg buckets key now + (stop - now) * cfg.rate key := by
  induction calls generalizing buckets now with
  | nil =>
    have hgain := mul_nonneg (sub_nonneg.2 hstop) (show 0 < cfg.rate key from rate_pos).le
    simpa [log] using add_nonneg (budget_nonneg h le_rfl) hgain
  | cons c rest ih =>
    obtain ⟨hnext, hrest⟩ := List.pairwise_cons.1 hordered
    have hnow := hcalls c List.mem_cons_self
    by_cases hlate : stop < c.now
    · -- every call from here on is behind the window
      have hzero : (log cfg buckets (c :: rest)).countP (counted cfg key start stop) = 0 := by
        rw [List.countP_eq_zero]
        intro entry hentry
        have hentryNow : c.now ≤ entry.2.now := by
          rcases List.mem_cons.1 (mem_calls_of_mem_log hentry) with heq | hmem
          · rw [heq]
          · exact hnext _ hmem
        have hbehind : ¬ entry.2.now ≤ stop := not_le.2 (hlate.trans_le hentryNow)
        simp [counted, hbehind]
      have hgain := mul_nonneg (sub_nonneg.2 hstop) (show 0 < cfg.rate key from rate_pos).le
      rw [hzero, Nat.cast_zero]
      exact add_nonneg (budget_nonneg h le_rfl) hgain
    · have hcheck := checked h hnow
      have hstop' := not_lt.1 hlate
      have hkeep := hkeeps (buckets, c) List.mem_cons_self (hstart.trans hnow) hstop'
      have hafter := hcheck.budget_eq key hkeep
      have htail := ih hcheck.fits hrest hnext (hstart.trans hnow) hstop'
        fun entry hentry => hkeeps entry (List.mem_cons_of_mem _ hentry)
      have hgrow : budget cfg buckets key c.now
          ≤ budget cfg buckets key now + (c.now - now) * cfg.rate key := budget_le_add h hnow
      have htaken : (if counted cfg key start stop (buckets, c) = true then (1 : ℚ) else 0)
          ≤ taken cfg buckets c key := by
        unfold taken
        split
        · next hcounted =>
          simp only [counted, Bool.and_eq_true, decide_eq_true_eq] at hcounted
          rw [if_pos ⟨hcounted.2, hcounted.1.2.2⟩]
          exact one_le_charge c
        · split
          · exact zero_le_one.trans (one_le_charge c)
          · exact le_rfl
      have hcount : ((log cfg buckets (c :: rest)).countP (counted cfg key start stop) : ℚ)
          = (log cfg (check cfg buckets c).1 rest).countP (counted cfg key start stop)
            + if counted cfg key start stop (buckets, c) = true then (1 : ℚ) else 0 := by
        rw [log, List.countP_cons]
        push_cast
        rfl
      have hsplit : (stop - now) * cfg.rate key
          = (stop - c.now) * cfg.rate key + (c.now - now) * cfg.rate key := by ring
      rw [hcount]
      linarith

/-- Up to the window: the calls before it do not count. -/
theorem countP_le_burst {calls : List Call} {start stop : ℚ} (h : Fits cfg buckets now)
    (hordered : Ordered calls) (hcalls : ∀ c ∈ calls, now ≤ c.now) (hnow : now ≤ start)
    (hwindow : start ≤ stop) (hkeeps : ∀ entry ∈ log cfg buckets calls, start ≤ entry.2.now →
      entry.2.now ≤ stop → Keeps cfg entry.1 entry.2 key) :
    ((log cfg buckets calls).countP (counted cfg key start stop) : ℚ)
      ≤ cfg.burst key + (stop - start) * cfg.rate key := by
  induction calls generalizing buckets now with
  | nil =>
    have hgain := mul_nonneg (sub_nonneg.2 hwindow) (show 0 < cfg.rate key from rate_pos).le
    simpa [log] using add_nonneg (zero_le_one.trans one_le_burst) hgain
  | cons c rest ih =>
    obtain ⟨hnext, hrest⟩ := List.pairwise_cons.1 hordered
    have hfirst := hcalls c List.mem_cons_self
    by_cases hbefore : c.now < start
    · have hskip : counted cfg key start stop (buckets, c) = false := by
        simp [counted, not_le.2 hbefore]
      rw [log, List.countP_cons_of_neg (by simp [hskip])]
      exact ih (checked h hfirst).fits hrest hnext hbefore.le
        fun entry hentry => hkeeps entry (List.mem_cons_of_mem _ hentry)
    · have hwithin : ∀ d ∈ c :: rest, start ≤ d.now := by
        intro d hd
        rcases List.mem_cons.1 hd with rfl | hd
        · exact not_lt.1 hbefore
        · exact (not_lt.1 hbefore).trans (hnext d hd)
      have hcount := countP_le (h.mono hnow) hordered hwithin le_rfl hwindow hkeeps
      have hburst : budget cfg buckets key start ≤ cfg.burst key := budget_le_burst h
      linarith

/-- **The limits hold.** In every run in the order of the clock: in a time window in which no call makes the
    table forget what a bucket has given away, no more calls are allowed on a bucket than its burst and its
    rate let through; a denied call leaves every budget that it does not forget as it was, now and later; and
    a denied call whose cost no burst is too small for is allowed when it comes again after the wait that it
    was told, with no other call in between. -/
theorem limits_hold (cfg : Config) (calls : List Call) (hordered : Ordered calls) :
    (∀ key start stop, start ≤ stop →
      (∀ entry ∈ log cfg [] calls, start ≤ entry.2.now → entry.2.now ≤ stop →
        Keeps cfg entry.1 entry.2 key) →
      ((log cfg [] calls).countP (counted cfg key start stop) : ℚ)
        ≤ cfg.burst key + (stop - start) * cfg.rate key) ∧
    ∀ entry ∈ log cfg [] calls, (check cfg entry.1 entry.2).2.allowed = false →
      (∀ key later, entry.2.now ≤ later → Keeps cfg entry.1 entry.2 key →
        budget cfg (check cfg entry.1 entry.2).1 key later = budget cfg entry.1 key later) ∧
      ((∀ key ∈ entry.2.keys cfg, entry.2.charge ≤ cfg.burst key) →
        (check cfg (check cfg entry.1 entry.2).1 { entry.2 with
          now := entry.2.now + (check cfg entry.1 entry.2).2.retryAfterSeconds }).2.allowed = true) := by
  constructor
  · intro key start stop hwindow hkeeps
    cases calls with
    | nil => exact countP_le_burst (fits_nil start) hordered (by simp) le_rfl hwindow hkeeps
    | cons c rest =>
      -- the empty table fits at every time, also before the first call
      refine countP_le_burst (fits_nil (min c.now start)) hordered ?_ (min_le_right _ _) hwindow hkeeps
      intro d hd
      rcases List.mem_cons.1 hd with rfl | hd
      · exact min_le_left _ _
      · exact (min_le_left _ _).trans ((List.pairwise_cons.1 hordered).1 d hd)
  · intro entry hentry hdenied
    have hfits : Fits cfg entry.1 entry.2.now := by
      cases calls with
      | nil => cases hentry
      | cons c rest =>
        refine fits_of_mem_log (fits_nil c.now) hordered ?_ hentry
        intro d hd
        rcases List.mem_cons.1 hd with rfl | hd
        · exact le_rfl
        · exact (List.pairwise_cons.1 hordered).1 d hd
    have hcheck := checked hfits le_rfl
    refine ⟨hcheck.budget_of_denied hdenied, fun hbursts => ?_⟩
    have hwait : 0 ≤ (check cfg entry.1 entry.2).2.retryAfterSeconds := by
      simp only [check]
      split
      · exact (show (0 : ℚ) ≤ 1 / 10 by norm_num).trans (le_max_left _ _)
      · exact le_rfl
    have hagain := checked (c := { entry.2 with
      now := entry.2.now + (check cfg entry.1 entry.2).2.retryAfterSeconds }) hcheck.fits
      (le_add_of_nonneg_right hwait)
    refine hagain.allowed_iff.2 fun key hkey => ?_
    exact hcheck.covered_of_denied hdenied key hkey (hbursts key hkey)

/-! ## A small table -/

/-- Room for the three buckets of one call. -/
def sampleConfig : Config where
  maxEntries := 3
  limits := fun _ scope =>
    match scope with
    | .global => (10, 10)
    | .subnet => (1 / 10, 1)
    | .ip => (1 / 10, 1)
  normalizedIp := id
  subnetKey := fun peer =>
    if peer = "192.0.2.1" then "192.0.2.0/24"
    else if peer = "198.51.100.1" then "198.51.100.0/24"
    else peer

/-- Two calls of one peer, and one of another between them. -/
def sampleCalls : List Call :=
  [{ peer := "192.0.2.1", bucket := "gossip", cost := 1, now := 0 },
    { peer := "198.51.100.1", bucket := "gossip", cost := 1, now := 1 },
    { peer := "192.0.2.1", bucket := "gossip", cost := 1, now := 2 }]

theorem ordered_sampleCalls : Ordered sampleCalls := by
  unfold Ordered sampleCalls
  simp

/-- The bucket for all peers stays in the table. -/
theorem keeps_global : ∀ entry ∈ log sampleConfig [] sampleCalls,
    Keeps sampleConfig entry.1 entry.2 ⟨.global, "gossip", "*"⟩ := by
  have hall : ((log sampleConfig [] sampleCalls).all fun entry => (AssocList.get?
      ⟨.global, "gossip", "*"⟩ (check sampleConfig entry.1 entry.2).1).isSome) = true := by
    decide +kernel
  intro entry hentry
  exact Or.inl (List.all_eq_true.1 hall entry hentry)

theorem limits_hold_sampleCalls : ((log sampleConfig [] sampleCalls).countP
    (counted sampleConfig ⟨.global, "gossip", "*"⟩ 0 2) : ℚ)
      ≤ sampleConfig.burst ⟨.global, "gossip", "*"⟩
        + (2 - 0) * sampleConfig.rate ⟨.global, "gossip", "*"⟩ :=
  (limits_hold sampleConfig sampleCalls ordered_sampleCalls).1 _ 0 2 (by norm_num)
    fun entry hentry _ _ => keeps_global entry hentry

/-- **A forgotten bucket comes back full.** The call of the other peer pushes the bucket of the first one out
    of the table, and within two seconds two calls are allowed where the limit is one and a fifth. -/
theorem not_limits_hold : 3 ≤ sampleConfig.maxEntries ∧ Ordered sampleCalls ∧
    (∀ lane scope, 0 < (sampleConfig.limits lane scope).1 ∧ 0 < (sampleConfig.limits lane scope).2) ∧
    sampleConfig.burst ⟨.ip, "gossip", "192.0.2.1"⟩
        + (2 - 0) * sampleConfig.rate ⟨.ip, "gossip", "192.0.2.1"⟩
      < ((log sampleConfig [] sampleCalls).countP
        (counted sampleConfig ⟨.ip, "gossip", "192.0.2.1"⟩ 0 2) : ℚ) := by
  have hcount : (log sampleConfig [] sampleCalls).countP
      (counted sampleConfig ⟨.ip, "gossip", "192.0.2.1"⟩ 0 2) = 2 := by decide +kernel
  refine ⟨le_rfl, ordered_sampleCalls, ?_, ?_⟩
  · intro lane scope
    cases scope <;> norm_num [sampleConfig]
  · rw [hcount]
    norm_num [sampleConfig, Config.burst, Config.rate]

end PeerRateLimiter
