import InternationalDollar.SpendMap

set_option autoImplicit false

/-! # What the levels of a spend map hold

`spendMapLevels` groups claims by the position of their key and builds a sparse tree over the
slots. `IsMapOf` says what comes out: which claims a slot lists, and that every level holds the
nodes of the tree over the slot hashes. -/

open SparseMerkle

namespace SpendMap

variable {crypto : Crypto} {clock : Int}

/-! ## The claim table -/

/-- No two entries of a table have the same position and transfer hash. -/
def ClaimTable.Distinct (table : ClaimTable) : Prop :=
  table.Pairwise (fun a b => a.1 = b.1 → a.2.transferHash ≠ b.2.transferHash)

theorem ClaimTable.mem_insert {table table' : ClaimTable} {position : Nat} {claim : SpendClaim}
    (h : table.insert position claim = .ok table') (e : Nat × SpendClaim) :
    e ∈ table' ↔ e ∈ table ∨ e = (position, claim) := by
  unfold ClaimTable.insert at h
  split at h
  · cases h
    simp
  · next existing hfind =>
    simp only [Check.check_bind_eq_ok, Check.require_eq_ok, Check.pure_eq_ok] at h
    obtain ⟨hclaim, rfl⟩ := h
    have hmem := List.mem_of_find?_eq_some hfind
    have hpos := List.find?_some hfind
    simp only [decide_eq_true_eq] at hpos
    have heq : (position, claim) = existing := Prod.ext hpos.1.symm hclaim.symm
    rw [heq]
    exact ⟨Or.inl, fun h => h.elim id (fun h => h ▸ hmem)⟩

theorem ClaimTable.distinct_insert {table table' : ClaimTable} {position : Nat}
    {claim : SpendClaim} (h : table.insert position claim = .ok table')
    (hdistinct : table.Distinct) : table'.Distinct := by
  unfold ClaimTable.insert at h
  split at h
  · next hfind =>
    cases h
    refine List.pairwise_append.2 ⟨hdistinct, List.pairwise_singleton _ _, ?_⟩
    intro a ha b hb hpos hhash
    rw [List.mem_singleton] at hb
    subst hb
    have := List.find?_eq_none.1 hfind a ha
    simp [hpos, hhash] at this
  · simp only [Check.check_bind_eq_ok, Check.pure_eq_ok] at h
    obtain ⟨-, rfl⟩ := h
    exact hdistinct

/-- A claim is entered into a table: some input has it as normal form, at this position. -/
def Entered (crypto : Crypto) (clock : Int) (claims : List SpendClaim) (e : Nat × SpendClaim) :
    Prop :=
  ∃ raw ∈ claims, SpendClaim.normalizeSpendClaim crypto clock raw = .ok e.2 ∧
    spendKeyPosition e.2.spendKey = .ok e.1

theorem collectClaims_spec {claims : List SpendClaim} {table table' : ClaimTable}
    (h : collectClaims crypto clock claims table = .ok table') :
    (∀ e, e ∈ table' ↔ e ∈ table ∨ Entered crypto clock claims e) ∧
      (table.Distinct → table'.Distinct) ∧
      ∀ raw ∈ claims, ∃ e : Nat × SpendClaim,
        SpendClaim.normalizeSpendClaim crypto clock raw = .ok e.2 ∧
        spendKeyPosition e.2.spendKey = .ok e.1 := by
  induction claims generalizing table with
  | nil =>
    cases h
    simp [Entered]
  | cons claim rest ih =>
    simp only [collectClaims, Check.bind_eq_ok] at h
    obtain ⟨normal, hnormal, position, hposition, table₁, hinsert, hrest⟩ := h
    obtain ⟨hmem, hdistinct, hall⟩ := ih hrest
    refine ⟨fun e => ?_, fun h => hdistinct (ClaimTable.distinct_insert hinsert h), ?_⟩
    · rw [hmem, ClaimTable.mem_insert hinsert, or_assoc]
      refine or_congr_right ?_
      constructor
      · rintro (rfl | ⟨raw, hraw, hspec⟩)
        · exact ⟨claim, List.mem_cons_self, hnormal, hposition⟩
        · exact ⟨raw, List.mem_cons_of_mem _ hraw, hspec⟩
      · rintro ⟨raw, hraw, hspec⟩
        rcases List.mem_cons.1 hraw with rfl | hraw
        · left
          have hclaim := Except.ok.inj (hspec.1.symm.trans hnormal)
          have hpos : e.1 = position := by
            rw [← hclaim, hspec.2] at hposition
            exact Except.ok.inj hposition
          exact Prod.ext hpos hclaim
        · exact Or.inr ⟨raw, hraw, hspec⟩
    · intro raw hraw
      rcases List.mem_cons.1 hraw with rfl | hraw
      · exact ⟨(position, normal), hnormal, hposition⟩
      · exact hall raw hraw

theorem ClaimTable.mem_slot {table : ClaimTable} {position : Nat} {claim : SpendClaim} :
    claim ∈ table.slot position ↔ (position, claim) ∈ table := by
  rw [ClaimTable.slot, SpendClaim.mem_sorted, List.mem_map]
  constructor
  · rintro ⟨e, he, rfl⟩
    obtain ⟨hmem, hpos⟩ := List.mem_filter.1 he
    have : e.1 = position := by simpa using hpos
    exact this ▸ hmem
  · intro h
    exact ⟨(position, claim), List.mem_filter.2 ⟨h, by simp⟩, rfl⟩

theorem ClaimTable.sorted_slot (table : ClaimTable) (position : Nat) :
    SpendClaim.sorted (table.slot position) = table.slot position :=
  SpendClaim.sorted_sorted _

theorem ClaimTable.Distinct.slot {table : ClaimTable} (h : table.Distinct) (position : Nat) :
    ((table.slot position).map SpendClaim.transferHash).Nodup := by
  have hpairs : ((table.filter (fun e => e.1 = position)).map Prod.snd).Pairwise
      (fun a b => a.transferHash ≠ b.transferHash) := by
    rw [List.pairwise_map]
    refine (h.filter _).imp_of_mem ?_
    intro a b ha hb hab
    have ha' : a.1 = position := by simpa using (List.mem_filter.1 ha).2
    have hb' : b.1 = position := by simpa using (List.mem_filter.1 hb).2
    exact hab (ha'.trans hb'.symm)
  rw [List.Nodup, List.pairwise_map]
  exact hpairs.perm (List.perm_insertionSort SpendClaim.Before _).symm (fun h => h.symm)

theorem ClaimTable.mem_positions {table : ClaimTable} {position : Nat} :
    position ∈ table.map Prod.fst ↔ table.slot position ≠ [] := by
  rw [Ne, List.eq_nil_iff_forall_not_mem, not_forall]
  simp only [ClaimTable.mem_slot, not_not, List.mem_map]
  constructor
  · rintro ⟨e, he, rfl⟩
    exact ⟨e.2, he⟩
  · rintro ⟨claim, h⟩
    exact ⟨_, h, rfl⟩

/-! ## Levels -/

theorem leaves_spec {table : ClaimTable} {positions : List Nat} {level : Level String}
    (h : table.leaves crypto positions = .ok level) :
    (∀ p ∈ positions, ∃ hash, table.slotHash crypto p = .ok hash ∧ level.lookup p = some hash) ∧
      ∀ p, p ∉ positions → level.lookup p = none := by
  induction positions generalizing level with
  | nil =>
    cases h
    simp
  | cons q rest ih =>
    simp only [ClaimTable.leaves, Check.bind_eq_ok, Check.pure_eq_ok] at h
    obtain ⟨hash, hhash, tail, htail, rfl⟩ := h
    obtain ⟨hin, hout⟩ := ih htail
    refine ⟨fun p hp => ?_, fun p hp => ?_⟩
    · by_cases hpq : p = q
      · subst hpq
        exact ⟨hash, hhash, by simp⟩
      · obtain ⟨hash', hslot, hlookup⟩ := hin p ((List.mem_cons.1 hp).resolve_left hpq)
        have hbeq : (p == q) = false := by simpa using hpq
        exact ⟨hash', hslot, by simp only [List.lookup_cons, hbeq, hlookup]⟩
    · rw [List.mem_cons, not_or] at hp
      have hbeq : (p == q) = false := by simpa using hp.1
      simp only [List.lookup_cons, hbeq, hout p hp.2]

theorem levelsFrom_getD (leaf : Nat → String) (n h : Nat) (level : Level String)
    (hlevel : ∀ p, level.get p (emptyHash crypto h) = node (spendMapBranchHash crypto) leaf h p)
    (k : Nat) (hk : k ≤ n) (p : Nat) :
    ((levelsFrom crypto n h level).getD k []).get p (emptyHash crypto (h + k))
      = node (spendMapBranchHash crypto) leaf (h + k) p := by
  induction n generalizing h level k with
  | zero =>
    obtain rfl := Nat.le_zero.1 hk
    exact hlevel p
  | succ n ih =>
    cases k with
    | zero => exact hlevel p
    | succ k =>
      have hup := get_parents (spendMapBranchHash crypto) (emptyLeafHash crypto) leaf h level hlevel
      have := ih (h + 1) _ hup k (Nat.le_of_succ_le_succ hk)
      rw [show h + (k + 1) = h + 1 + k by omega]
      exact this

/-- The leaf hash at a position of a map. -/
def leaf (crypto : Crypto) (map : SpendMap) (position : Nat) : String :=
  map.hashAt crypto 0 position

/-- What `_spend_map_levels` returns for some claims. -/
structure IsMapOf (crypto : Crypto) (clock : Int) (claims : List SpendClaim) (map : SpendMap) :
    Prop where
  mem_iff : ∀ e, e ∈ map.claimsByKey ↔ Entered crypto clock claims e
  distinct : map.claimsByKey.Distinct
  entered : ∀ raw ∈ claims, ∃ e : Nat × SpendClaim,
    SpendClaim.normalizeSpendClaim crypto clock raw = .ok e.2 ∧
    spendKeyPosition e.2.spendKey = .ok e.1
  leaf_slot : ∀ p, map.claimsByKey.slot p ≠ [] →
    map.claimsByKey.slotHash crypto p = .ok (map.leaf crypto p)
  leaf_empty : ∀ p, map.claimsByKey.slot p = [] → map.leaf crypto p = emptyLeafHash crypto
  hashAt_eq : ∀ h ≤ spendMapKeyBits, ∀ p,
    map.hashAt crypto h p = node (spendMapBranchHash crypto) (map.leaf crypto) h p

theorem isMapOf_of_levels {claims : List SpendClaim} {map : SpendMap}
    (h : spendMapLevels crypto clock claims = .ok map) : IsMapOf crypto clock claims map := by
  simp only [spendMapLevels, Check.bind_eq_ok, Check.pure_eq_ok] at h
  obtain ⟨table, htable, leaves, hleaves, rfl⟩ := h
  obtain ⟨hmem, hdistinct, hall⟩ := collectClaims_spec htable
  obtain ⟨hin, hout⟩ := leaves_spec hleaves
  have hzero : ∀ p, leaf crypto ⟨levelsFrom crypto spendMapKeyBits 0 leaves, table⟩ p
      = leaves.get p (emptyHash crypto 0) := fun p => rfl
  refine ⟨fun e => ?_, hdistinct List.Pairwise.nil, hall, fun p hp => ?_, fun p hp => ?_,
    fun k hk p => ?_⟩
  · rw [hmem]
    simp
  · obtain ⟨hash, hslot, hlookup⟩ := hin p (List.mem_dedup.2 (ClaimTable.mem_positions.2 hp))
    rw [hzero, Level.get, hlookup]
    exact hslot
  · have hnot : p ∉ (table.map Prod.fst).dedup := fun hp' =>
      ClaimTable.mem_positions.1 (List.mem_dedup.1 hp') hp
    rw [hzero, Level.get, hout p hnot]
    rfl
  · have := levelsFrom_getD (fun q => leaves.get q (emptyHash crypto 0)) spendMapKeyBits 0 leaves
      (fun q => rfl) k hk p
    rw [Nat.zero_add] at this
    exact this

/-- A slot can be hashed where its claims are within the limits. -/
theorem exists_slotPreimage {spendKey : String} {claims : List SpendClaim}
    (hkey : IsHex32 spendKey) (hlen : claims.length ≤ jsonLimits.maxListItems)
    (hclaims : ∀ c ∈ claims, c.toJson.validate jsonLimits "protocol object" 2 = .ok ()) :
    ∃ preimage, slotPreimage spendKey claims = .ok preimage := by
  obtain ⟨raw, hraw⟩ := Option.isSome_iff_exists.1 hkey.2
  have hitems : (Json.arr ((SpendClaim.sorted claims).map SpendClaim.toJson)).validate jsonLimits
      "protocol object" 1 = .ok () := by
    refine Json.validate_arr.2 ⟨by decide, ?_, fun x hx => ?_⟩
    · rwa [List.length_map, SpendClaim.sorted, List.length_insertionSort]
    · obtain ⟨c, hc, rfl⟩ := List.mem_map.1 hx
      exact hclaims c (SpendClaim.mem_sorted.1 hc)
  have hslot : (slotJson spendKey (SpendClaim.sorted claims)).validate jsonLimits "protocol object"
      0 = .ok () := by
    have htwo : 2 ≤ jsonLimits.maxObjectKeys := by decide
    refine Json.validate_obj.2 ⟨by decide, htwo, ?_⟩
    simp only [List.forall_mem_cons]
    exact ⟨⟨by decide, hitems⟩, ⟨by decide, validate_text (by decide) (by rw [hkey.1]; decide)⟩,
      by simp⟩
  exact ⟨_, Check.bind_eq_ok.2 ⟨raw, Check.ofOption_eq_ok.2 hraw,
    Check.bind_eq_ok.2 ⟨_, canonicalBytes_eq_ok.2 ⟨hslot, rfl⟩, rfl⟩⟩⟩

/-- The leaves of some positions exist where every slot can be hashed. -/
theorem exists_leaves {table : ClaimTable} {positions : List Nat}
    (h : ∀ p ∈ positions, ∃ hash, table.slotHash crypto p = .ok hash) :
    ∃ level, table.leaves crypto positions = .ok level := by
  induction positions with
  | nil => exact ⟨[], rfl⟩
  | cons q rest ih =>
    obtain ⟨hash, hhash⟩ := h q List.mem_cons_self
    obtain ⟨level, hlevel⟩ := ih (fun p hp => h p (List.mem_cons_of_mem q hp))
    exact ⟨(q, hash) :: level, by simp [ClaimTable.leaves, hhash, hlevel]⟩

end SpendMap
