import InternationalDollar.SpendMapProofs
import Mathlib.Data.List.Pairwise

set_option autoImplicit false

/-! # The stored spend map (`transparency_server`)

An operator stores the nodes of its current spend map and the claims that they are made of. A new claim is
entered along the path of its key; where the tables look wrong, they are made anew from all claims.
`Reflects` says that the tables hold the map of some claims. `Reflects.stored` and `reflects_rebuilt` are the
two ways in which they come to. -/

open SparseMerkle SpendMap

/-! ## Slots -/

namespace SpendClaim

variable {crypto : Crypto} {claims claims' : List SpendClaim}

/-- The claims for a key, in their order. -/
def slotOf (claims : List SpendClaim) (spendKey : String) : List SpendClaim :=
  sorted (claims.filter fun c => c.spendKey = spendKey)

/-- The position of a key, for a text that has one. -/
def positionOf (spendKey : String) : Nat :=
  ((Text.intBase16 spendKey).getD 0)

/-- The keys are digests, and no two claims for a key are for one transfer. -/
structure Keyed (claims : List SpendClaim) : Prop where
  digest : ∀ c ∈ claims, IsDigest c.spendKey
  distinct : claims.Pairwise fun a b => a.spendKey = b.spendKey → a.transferHash ≠ b.transferHash

theorem spendKeyPosition_of_digest {spendKey : String} (h : IsDigest spendKey) :
    spendKeyPosition spendKey = .ok (positionOf spendKey) := by
  obtain ⟨bs, hlength, rfl⟩ := h
  have hne : bs ≠ [] := by
    rintro rfl
    cases hlength
  have hhex : hex32 (Text.hex bs) "spend key" = .ok (Text.hex bs) :=
    hex32_eq_ok.2 ⟨isHex32_hex hlength, Text.lower_hex bs⟩
  rw [spendKeyPosition, hhex, Check.ok_bind, positionOf, Text.intBase16_hex hne]
  rfl

theorem positionOf_inj {key key' : String} (h : IsDigest key) (h' : IsDigest key')
    (heq : positionOf key = positionOf key') : key = key' := by
  obtain ⟨bs, hlength, rfl⟩ := h
  obtain ⟨bs', hlength', rfl⟩ := h'
  have hne : ∀ {raw : Bytes}, raw.length = 32 → raw ≠ [] := by
    rintro _ hraw rfl
    cases hraw
  rw [positionOf, positionOf, Text.intBase16_hex (hne hlength), Text.intBase16_hex (hne hlength')] at heq
  rw [Text.bytesValue_inj (hlength.trans hlength'.symm) heq]

theorem positionOf_lt {spendKey : String} (h : IsDigest spendKey) :
    positionOf spendKey < 2 ^ spendMapKeyBits :=
  spendKeyPosition_lt (spendKeyPosition_of_digest h)

theorem mem_slotOf {spendKey : String} {claim : SpendClaim} :
    claim ∈ slotOf claims spendKey ↔ claim ∈ claims ∧ claim.spendKey = spendKey := by
  rw [slotOf, mem_sorted, List.mem_filter, decide_eq_true_eq]

theorem Keyed.perm (h : Keyed claims) (hperm : claims.Perm claims') : Keyed claims' where
  digest := fun c hc => h.digest c (hperm.mem_iff.2 hc)
  distinct := h.distinct.perm hperm fun hab hkey hhash => hab hkey.symm hhash.symm

theorem Keyed.eq_of_hash (h : Keyed claims) {a b : SpendClaim} (ha : a ∈ claims) (hb : b ∈ claims)
    (hkey : a.spendKey = b.spendKey) (hhash : a.transferHash = b.transferHash) : a = b := by
  by_contra hne
  have hsymm : Std.Symm fun a b : SpendClaim => a.spendKey = b.spendKey → a.transferHash ≠ b.transferHash :=
    ⟨fun _ _ hab hkey hhash => hab hkey.symm hhash.symm⟩
  exact h.distinct.forall ha hb hne hkey hhash

/-- A slot does not depend on the order in which the claims are listed. -/
theorem Keyed.slotOf_perm (h : Keyed claims) (hperm : claims.Perm claims') (spendKey : String) :
    slotOf claims spendKey = slotOf claims' spendKey := by
  have hslots : (slotOf claims spendKey).Perm (slotOf claims' spendKey) :=
    (List.perm_insertionSort Before _).trans
      ((hperm.filter _).trans (List.perm_insertionSort Before _).symm)
  refine List.Perm.eq_of_pairwise ?_ (List.pairwise_insertionSort Before _)
    (List.pairwise_insertionSort Before _) hslots
  intro a b ha hb hab hba
  have hkeys : a.sortKey = b.sortKey := le_antisymm hab hba
  obtain ⟨ha, -⟩ := mem_slotOf.1 ha
  obtain ⟨hb, -⟩ := mem_slotOf.1 hb
  simp only [sortKey, toLex_inj, Prod.mk.injEq] at hkeys
  exact h.eq_of_hash ha (hperm.mem_iff.2 hb) hkeys.1 hkeys.2.1

/-! ## Levels -/

/-- The claims with the positions of their keys. -/
def placed (claims : List SpendClaim) : ClaimTable :=
  claims.map fun c => (positionOf c.spendKey, c)

/-- Claims that are normal and have keys of their own are entered one after the other. -/
theorem collectClaims_placed {clock : Int} (done : List SpendClaim)
    (hnormal : ∀ c ∈ claims, normalizeSpendClaim crypto clock c = .ok c) (hkeyed : Keyed (done ++ claims)) :
    collectClaims crypto clock claims (placed done) = .ok (placed (done ++ claims)) := by
  induction claims generalizing done with
  | nil => rw [collectClaims, List.append_nil]; rfl
  | cons c rest ih =>
    obtain ⟨-, -, hdistinct⟩ := List.pairwise_append.1 hkeyed.distinct
    have hdigest := hkeyed.digest c (List.mem_append_right _ List.mem_cons_self)
    have hnew : (placed done).find? (fun e => e.1 = positionOf c.spendKey ∧
        e.2.transferHash = c.transferHash) = none := by
      refine List.find?_eq_none.2 fun e he => ?_
      obtain ⟨d, hd, rfl⟩ := List.mem_map.1 he
      rw [decide_eq_true_eq]
      rintro ⟨hposition, hhash⟩
      have hkey := positionOf_inj (hkeyed.digest d (List.mem_append_left _ hd)) hdigest hposition
      exact hdistinct d hd c List.mem_cons_self hkey hhash
    have hinsert : (placed done).insert (positionOf c.spendKey) c = .ok (placed (done ++ [c])) := by
      rw [ClaimTable.insert, hnew, placed, placed, List.map_append, List.map_singleton]
      rfl
    have hrest : collectClaims crypto clock rest (placed (done ++ [c]))
        = .ok (placed (done ++ [c] ++ rest)) :=
      ih (done ++ [c]) (fun d hd => hnormal d (List.mem_cons_of_mem c hd)) (by rwa [List.append_assoc])
    rw [List.append_assoc] at hrest
    exact Check.bind_eq_ok.2 ⟨c, hnormal c List.mem_cons_self, Check.bind_eq_ok.2 ⟨_,
      spendKeyPosition_of_digest hdigest, Check.bind_eq_ok.2 ⟨_, hinsert, hrest⟩⟩⟩

/-- The slot at the position of a key. -/
theorem slot_placed (h : Keyed claims) {spendKey : String} (hkey : IsDigest spendKey) :
    (placed claims).slot (positionOf spendKey) = slotOf claims spendKey := by
  rw [ClaimTable.slot, slotOf, placed, List.filter_map, List.map_map]
  congr 1
  refine (List.map_id' _).trans (List.filter_congr fun c hc => ?_)
  rw [Function.comp_apply, decide_eq_decide]
  exact ⟨positionOf_inj (h.digest c hc) hkey, congrArg positionOf⟩

theorem slot_placed_eq_nil {p : Nat} (h : ∀ c ∈ claims, positionOf c.spendKey ≠ p) :
    (placed claims).slot p = [] := by
  refine List.eq_nil_iff_forall_not_mem.2 fun c hc => ?_
  obtain ⟨d, hd, heq⟩ := List.mem_map.1 (ClaimTable.mem_slot.1 hc)
  exact h d hd (congrArg Prod.fst heq)

/-- The hash of the slot of a claim's key. -/
theorem slotHash_placed (h : Keyed claims) {c : SpendClaim} (hc : c ∈ claims) :
    (placed claims).slotHash crypto (positionOf c.spendKey)
      = spendMapSlotHash crypto c.spendKey (slotOf claims c.spendKey) := by
  rw [ClaimTable.slotHash, slot_placed h (h.digest c hc)]
  cases hslot : slotOf claims c.spendKey with
  | nil =>
    have hmem := mem_slotOf.2 ⟨hc, rfl⟩
    rw [hslot] at hmem
    cases hmem
  | cons first rest =>
    obtain ⟨-, hkey⟩ := mem_slotOf.1 (hslot ▸ List.mem_cons_self : first ∈ slotOf claims c.spendKey)
    dsimp only
    rw [hkey]

/-- The leaves of the map of some claims. -/
structure IsLeaf (crypto : Crypto) (claims : List SpendClaim) (leaf : Nat → String) : Prop where
  slot : ∀ c ∈ claims, spendMapSlotHash crypto c.spendKey (slotOf claims c.spendKey)
    = .ok (leaf (positionOf c.spendKey))
  empty : ∀ p, (∀ c ∈ claims, positionOf c.spendKey ≠ p) → leaf p = emptyLeafHash crypto

theorem IsLeaf.perm {leaf : Nat → String} (h : IsLeaf crypto claims leaf) (hkeyed : Keyed claims)
    (hperm : claims.Perm claims') : IsLeaf crypto claims' leaf where
  slot := by
    intro c hc
    rw [← hkeyed.slotOf_perm hperm]
    exact h.slot c (hperm.mem_iff.2 hc)
  empty := fun p hp => h.empty p fun c hc => hp c (hperm.mem_iff.1 hc)

/-- **Claims with leaves have a map**, whose nodes are those over the leaves. -/
theorem IsLeaf.exists_levels {clock : Int} {leaf : Nat → String} (h : IsLeaf crypto claims leaf)
    (hkeyed : Keyed claims) (hnormal : ∀ c ∈ claims, normalizeSpendClaim crypto clock c = .ok c) :
    ∃ map, spendMapLevels crypto clock claims = .ok map ∧ map.claimsByKey = placed claims ∧
      ∀ k ≤ spendMapKeyBits, ∀ p, map.hashAt crypto k p = node (spendMapBranchHash crypto) leaf k p := by
  have hcollect := collectClaims_placed [] hnormal hkeyed
  obtain ⟨leaves, hleaves⟩ : ∃ leaves, (placed claims).leaves crypto
      (((placed claims).map Prod.fst).dedup) = .ok leaves := by
    refine exists_leaves fun p hp => ?_
    obtain ⟨e, he, rfl⟩ := List.mem_map.1 (List.mem_dedup.1 hp)
    obtain ⟨c, hc, rfl⟩ := List.mem_map.1 he
    exact ⟨_, (slotHash_placed hkeyed hc).trans (h.slot c hc)⟩
  have hlevels : spendMapLevels crypto clock claims
      = .ok ⟨levelsFrom crypto spendMapKeyBits 0 leaves, placed claims⟩ :=
    Check.bind_eq_ok.2 ⟨_, hcollect, Check.bind_eq_ok.2 ⟨leaves, hleaves, rfl⟩⟩
  have hmap := isMapOf_of_levels hlevels
  refine ⟨_, hlevels, rfl, fun k hk p => (hmap.hashAt_eq k hk p).trans (node_congr _ (fun q => ?_) k p)⟩
  by_cases hq : ∃ c ∈ claims, positionOf c.spendKey = q
  · obtain ⟨c, hc, rfl⟩ := hq
    have hslot : (placed claims).slot (positionOf c.spendKey) ≠ [] := by
      rw [slot_placed hkeyed (hkeyed.digest c hc)]
      exact List.ne_nil_of_mem (mem_slotOf.2 ⟨hc, rfl⟩)
    have hhash := (hmap.leaf_slot _ hslot).symm.trans (slotHash_placed hkeyed hc)
    exact Except.ok.inj (hhash.trans (h.slot c hc))
  · have hnone : ∀ c ∈ claims, positionOf c.spendKey ≠ q := fun c hc hposition => hq ⟨c, hc, hposition⟩
    rw [hmap.leaf_empty q (slot_placed_eq_nil hnone), h.empty q hnone]

end SpendClaim

/-! ## Tables -/

/-- The tables `spend_map_nodes_v3`, `spend_map_claims_v3` and `spend_map_meta_v3`. A node is stored under
    its height and its position; the claims are those that their JSON texts say. -/
structure MapTables where
  nodes : Nat → Nat → Option String
  claims : List SpendClaim
  algorithm : Option String
  mapSize : Option Int
  rootHash : Option String

namespace MapTables

/-- Tables without rows. -/
def empty : MapTables := ⟨fun _ _ => none, [], none, none, none⟩

section Methods

variable (crypto : Crypto)

/-- `_spend_map_hash_at`. -/
def hashAt (m : MapTables) (height position : Nat) : String :=
  (m.nodes height position).getD (emptyHash crypto height)

/-- `_set_spend_map_node`: the hash of an empty subtree is not stored. -/
def setNode (height position : Nat) (hash : String) (m : MapTables) : MapTables :=
  { m with nodes := fun h p =>
      if h = height ∧ p = position then if hash = emptyHash crypto height then none else some hash
      else m.nodes h p }

/-- The loop of `_update_current_spend_map_path` over the heights. -/
def climbPath : Nat → Nat → Nat → String → MapTables → String × MapTables
  | 0, _, _, current, m => (current, m)
  | n + 1, height, position, current, m =>
      let parent := step (spendMapBranchHash crypto) position current (m.hashAt crypto height (position ^^^ 1))
      climbPath n (height + 1) (position / 2) parent (m.setNode crypto (height + 1) (position / 2) parent)

/-- The stores of `_update_current_spend_map_path`, from the leaf of a key upwards. -/
def updatePath (position : Nat) (leafHash : String) (m : MapTables) : String × MapTables :=
  climbPath crypto spendMapKeyBits 0 position leafHash (m.setNode crypto 0 position leafHash)

/-- The nodes of a level are stored. Its positions are different, so their order does not matter. -/
def storeLevel (height : Nat) (level : Level String) (m : MapTables) : MapTables :=
  level.foldr (fun e m => m.setNode crypto height e.1 e.2) m

/-- The levels from a height upwards are stored. -/
def storeLevels : Nat → List (Level String) → MapTables → MapTables
  | _, [], m => m
  | height, level :: rest, m => storeLevels (height + 1) rest (m.storeLevel crypto height level)

/-- `INSERT OR REPLACE INTO spend_map_claims_v3`. -/
def putClaim (claim : SpendClaim) (m : MapTables) : MapTables :=
  { m with claims := m.claims.filter (fun c =>
      ¬ (c.spendKey = claim.spendKey ∧ c.transferHash = claim.transferHash)) ++ [claim] }

/-- The rows of `spend_map_meta_v3` that are read again. -/
def setMeta (mapSize : Int) (rootHash : String) (m : MapTables) : MapTables :=
  { m with algorithm := some logSpendMapAlgorithm, mapSize := some mapSize, rootHash := some rootHash }

/-- The tables that `_rebuild_current_spend_map` writes for some claims and their levels. -/
def rebuilt (claims : List SpendClaim) (map : SpendMap) : MapTables :=
  ((claims.foldl (fun m c => m.putClaim c) empty).storeLevels crypto 0 map.levels).setMeta
    map.totalClaims (map.root crypto)

/-- `_current_spend_map_needs_rebuild`. -/
def needsRebuild (m : MapTables) : Bool :=
  m.algorithm ≠ some logSpendMapAlgorithm ||
    match m.rootHash with
    | none => true
    | some text =>
        match hex32 text "spend-map root" with
        | .error _ => true
        | .ok root =>
            let stored := m.nodes spendMapKeyBits 0
            (if root = spendMapEmptyRoot crypto then stored ≠ none ∧ stored ≠ some (spendMapEmptyRoot crypto)
              else stored ≠ some root) ||
            m.mapSize.getD 0 ≠ m.claims.length

end Methods

variable {crypto : Crypto} {m : MapTables}

theorem hashAt_setNode (height position : Nat) (hash : String) (h p : Nat) :
    (m.setNode crypto height position hash).hashAt crypto h p
      = if h = height ∧ p = position then hash else m.hashAt crypto h p := by
  unfold hashAt setNode
  by_cases hnode : h = height ∧ p = position
  · obtain ⟨rfl, rfl⟩ := hnode
    simp only [and_self, if_true]
    by_cases hempty : hash = emptyHash crypto h
    · rw [if_pos hempty, Option.getD_none, hempty]
    · rw [if_neg hempty, Option.getD_some]
  · simp only [if_neg hnode]

@[simp] theorem claims_setMeta (size : Int) (root : String) : (m.setMeta size root).claims = m.claims := rfl

/-! ## Paths -/

/-- The stored nodes are those over some leaves. -/
def Holds (crypto : Crypto) (leaf : Nat → String) (m : MapTables) : Prop :=
  ∀ k ≤ spendMapKeyBits, ∀ p, m.hashAt crypto k p = node (spendMapBranchHash crypto) leaf k p

theorem Holds.setMeta {leaf : Nat → String} (h : m.Holds crypto leaf) (size : Int) (root : String) :
    (m.setMeta size root).Holds crypto leaf := h

/-- What the stores of nodes leave alone. -/
structure SameRows (m m' : MapTables) : Prop where
  claims : m'.claims = m.claims
  algorithm : m'.algorithm = m.algorithm
  mapSize : m'.mapSize = m.mapSize
  rootHash : m'.rootHash = m.rootHash

theorem sameRows_climbPath (n height position : Nat) (current : String) :
    m.SameRows (climbPath crypto n height position current m).2 := by
  induction n generalizing height position current m with
  | zero => exact ⟨rfl, rfl, rfl, rfl⟩
  | succ n ih =>
    obtain ⟨hclaims, halgorithm, hsize, hroot⟩ := ih (height + 1) (position / 2) _
    exact ⟨hclaims, halgorithm, hsize, hroot⟩

theorem sameRows_updatePath (position : Nat) (leafHash : String) :
    m.SameRows (m.updatePath crypto position leafHash).2 := by
  obtain ⟨hclaims, halgorithm, hsize, hroot⟩ :=
    @sameRows_climbPath crypto (m.setNode crypto 0 position leafHash) spendMapKeyBits 0 position leafHash
  exact ⟨hclaims, halgorithm, hsize, hroot⟩

theorem between_climbPath {leaf : Nat → String} {p n k : Nat} {v : String}
    (h : Between (spendMapBranchHash crypto) leaf (Function.update leaf p v) (k + n) k (m.hashAt crypto)) :
    (climbPath crypto n k (p / 2 ^ k) (node (spendMapBranchHash crypto) (Function.update leaf p v) k
        (p / 2 ^ k)) m).1 = node (spendMapBranchHash crypto) (Function.update leaf p v) (k + n)
        (p / 2 ^ (k + n)) ∧
      Between (spendMapBranchHash crypto) leaf (Function.update leaf p v) (k + n) (k + n)
        ((climbPath crypto n k (p / 2 ^ k) (node (spendMapBranchHash crypto) (Function.update leaf p v) k
          (p / 2 ^ k)) m).2.hashAt crypto) := by
  induction n generalizing k m with
  | zero => exact ⟨rfl, h⟩
  | succ n ih =>
    have hpath : p / 2 ^ k / 2 = p / 2 ^ (k + 1) := by
      rw [Nat.div_div_eq_div_mul, pow_succ]
    have hnext := h.next (by omega) (hashAt_setNode (m := m) (k + 1) (p / 2 ^ k / 2)
      (step (spendMapBranchHash crypto) (p / 2 ^ k) (m.hashAt crypto k (p / 2 ^ k))
        (m.hashAt crypto k (p / 2 ^ k ^^^ 1))))
    have hparent : step (spendMapBranchHash crypto) (p / 2 ^ k)
        (node (spendMapBranchHash crypto) (Function.update leaf p v) k (p / 2 ^ k))
        (m.hashAt crypto k (p / 2 ^ k ^^^ 1))
        = node (spendMapBranchHash crypto) (Function.update leaf p v) (k + 1) (p / 2 ^ (k + 1)) := by
      rw [← hpath, node_update_path, h.below k le_rfl, node_update_of_ne _ _ _ _ _ _ (xor_one_ne _)]
    rw [h.below k le_rfl, hparent, hpath] at hnext
    have harith : k + (n + 1) = k + 1 + n := by omega
    rw [harith] at hnext ⊢
    obtain ⟨hvalue, hbetween⟩ := ih hnext
    rw [climbPath, hparent, hpath]
    exact ⟨hvalue, hbetween⟩

/-- **A path that is made anew turns the nodes over some leaves into those over the changed leaves.** -/
theorem holds_updatePath {leaf : Nat → String} (h : m.Holds crypto leaf) {p : Nat}
    (hp : p < 2 ^ spendMapKeyBits) (v : String) :
    (m.updatePath crypto p v).2.Holds crypto (Function.update leaf p v) ∧
      (m.updatePath crypto p v).1
        = node (spendMapBranchHash crypto) (Function.update leaf p v) spendMapKeyBits 0 := by
  have hleaf := Between.leaf (p := p) (v := v) h (hashAt_setNode (m := m) 0 p v)
  have hclimb := between_climbPath (n := spendMapKeyBits) (k := 0) (by rwa [Nat.zero_add])
  rw [Nat.zero_add, pow_zero, Nat.div_one, node_zero, Function.update_self, Nat.div_eq_of_lt hp] at hclimb
  obtain ⟨hvalue, hbetween⟩ := hclimb
  exact ⟨fun k hk q => hbetween.below k hk q, hvalue⟩

/-! ## Levels -/

theorem hashAt_storeLevel (height : Nat) (level : Level String) (h p : Nat) :
    (m.storeLevel crypto height level).hashAt crypto h p
      = if h = height then (level.lookup p).getD (m.hashAt crypto h p) else m.hashAt crypto h p := by
  induction level with
  | nil => simp [storeLevel]
  | cons e rest ih =>
    show ((m.storeLevel crypto height rest).setNode crypto height e.1 e.2).hashAt crypto h p = _
    rw [hashAt_setNode, ih, List.lookup_cons]
    by_cases hheight : h = height
    · by_cases hp : p = e.1
      · simp [hheight, hp]
      · have hbeq : (p == e.1) = false := by simpa using hp
        simp [hheight, hp, hbeq]
    · simp [hheight]

theorem hashAt_storeLevels (height : Nat) (levels : List (Level String)) (h p : Nat) :
    (m.storeLevels crypto height levels).hashAt crypto h p
      = if height ≤ h then ((levels.getD (h - height) []).lookup p).getD (m.hashAt crypto h p)
        else m.hashAt crypto h p := by
  induction levels generalizing height m with
  | nil => simp [storeLevels]
  | cons level rest ih =>
    rw [storeLevels, ih, hashAt_storeLevel]
    rcases Nat.lt_trichotomy h height with hlt | rfl | hgt
    · simp [Nat.not_le.2 hlt, show ¬ height + 1 ≤ h by omega, show h ≠ height by omega]
    · simp
    · have hsucc : h - height = h - (height + 1) + 1 := by omega
      simp [show height ≤ h by omega, show height + 1 ≤ h by omega, show h ≠ height by omega, hsucc]

theorem sameRows_storeLevels (height : Nat) (levels : List (Level String)) :
    m.SameRows (m.storeLevels crypto height levels) := by
  have hlevel : ∀ {m : MapTables} (height : Nat) (level : Level String),
      m.SameRows (m.storeLevel crypto height level) := by
    intro m height level
    induction level with
    | nil => exact ⟨rfl, rfl, rfl, rfl⟩
    | cons e rest ih => exact ⟨ih.claims, ih.algorithm, ih.mapSize, ih.rootHash⟩
  induction levels generalizing height m with
  | nil => exact ⟨rfl, rfl, rfl, rfl⟩
  | cons level rest ih =>
    have hfirst := hlevel (m := m) height level
    have hrest := ih (m := m.storeLevel crypto height level) (height + 1)
    exact ⟨hrest.claims.trans hfirst.claims, hrest.algorithm.trans hfirst.algorithm,
      hrest.mapSize.trans hfirst.mapSize, hrest.rootHash.trans hfirst.rootHash⟩

/-- Claims with keys of their own are entered one behind the other. -/
theorem foldl_putClaim {claims : List SpendClaim} (hkeyed : SpendClaim.Keyed (m.claims ++ claims)) :
    claims.foldl (fun m c => m.putClaim c) m = { m with claims := m.claims ++ claims } := by
  induction claims generalizing m with
  | nil => simp
  | cons c rest ih =>
    obtain ⟨-, -, hdistinct⟩ := List.pairwise_append.1 hkeyed.distinct
    have hput : m.putClaim c = { m with claims := m.claims ++ [c] } := by
      have hfilter : m.claims.filter (fun d =>
          ¬ (d.spendKey = c.spendKey ∧ d.transferHash = c.transferHash)) = m.claims := by
        refine List.filter_eq_self.2 fun d hd => decide_eq_true ?_
        rintro ⟨hkey, hhash⟩
        exact hdistinct d hd c List.mem_cons_self hkey hhash
      rw [putClaim, hfilter]
    rw [List.foldl_cons, hput, ih]
    · simp
    · simpa using hkeyed

/-! ## Tables that hold a map -/

theorem isDigest_top (leaf : Nat → String) :
    IsDigest (node (spendMapBranchHash crypto) leaf spendMapKeyBits 0) := by
  have hbits : spendMapKeyBits = 255 + 1 := rfl
  rw [hbits, node_succ]
  exact isDigest_sha3Hex crypto _

/-- The tables hold the map of some claims. -/
structure Reflects (crypto : Crypto) (m : MapTables) (claims : List SpendClaim) : Prop where
  keyed : SpendClaim.Keyed claims
  listed : m.claims.Perm claims
  nodes : ∃ leaf, SpendClaim.IsLeaf crypto claims leaf ∧ m.Holds crypto leaf
  root : ∀ text ∈ m.rootHash, Text.lower text = text

theorem reflects_empty : empty.Reflects crypto [] where
  keyed := ⟨fun _ h => absurd h List.not_mem_nil, List.Pairwise.nil⟩
  listed := List.Perm.refl _
  nodes := by
    refine ⟨fun _ => emptyLeafHash crypto, ⟨fun _ h => absurd h List.not_mem_nil, fun _ _ => rfl⟩, ?_⟩
    intro k _ p
    rw [node_empty]
    rfl
  root := fun _ h => absurd h (Option.not_mem_none _)

variable {claims claims' : List SpendClaim}

theorem Reflects.perm (h : m.Reflects crypto claims) (hperm : claims.Perm claims') :
    m.Reflects crypto claims' where
  keyed := h.keyed.perm hperm
  listed := h.listed.trans hperm
  nodes := by
    obtain ⟨leaf, hleaf, hholds⟩ := h.nodes
    exact ⟨leaf, hleaf.perm h.keyed hperm, hholds⟩
  root := h.root

/-- The table of the levels of claims that are normal and have keys of their own. -/
theorem claimsByKey_of_levels {clock : Int} {map : SpendMap} (hkeyed : SpendClaim.Keyed claims)
    (hnormal : ∀ c ∈ claims, SpendClaim.normalizeSpendClaim crypto clock c = .ok c)
    (h : spendMapLevels crypto clock claims = .ok map) : map.claimsByKey = SpendClaim.placed claims := by
  obtain ⟨table, hcollect, h⟩ := Check.bind_eq_ok.1 h
  obtain ⟨leaves, -, h⟩ := Check.bind_eq_ok.1 h
  obtain rfl := Check.pure_eq_ok.1 h
  exact Except.ok.inj (hcollect.symm.trans (SpendClaim.collectClaims_placed [] hnormal hkeyed))

theorem rebuilt_eq {map : SpendMap} (hkeyed : SpendClaim.Keyed claims) : rebuilt crypto claims map
    = (MapTables.storeLevels crypto 0 map.levels { empty with claims := claims }).setMeta map.totalClaims
      (map.root crypto) := by
  rw [rebuilt, foldl_putClaim (m := empty) hkeyed]
  rfl

theorem claims_rebuilt {map : SpendMap} (hkeyed : SpendClaim.Keyed claims) :
    (rebuilt crypto claims map).claims = claims := by
  have hrows : MapTables.SameRows { empty with claims := claims }
      (MapTables.storeLevels crypto 0 map.levels { empty with claims := claims }) :=
    sameRows_storeLevels 0 map.levels
  rw [rebuilt_eq hkeyed]
  exact hrows.claims

theorem hashAt_rebuilt {map : SpendMap} (hkeyed : SpendClaim.Keyed claims) (height position : Nat) :
    (rebuilt crypto claims map).hashAt crypto height position = map.hashAt crypto height position := by
  rw [rebuilt_eq hkeyed]
  show (MapTables.storeLevels crypto 0 map.levels _).hashAt crypto height position = _
  rw [hashAt_storeLevels, if_pos (Nat.zero_le height)]
  rfl

/-- **Tables that are made anew hold the map of the claims.** -/
theorem reflects_rebuilt {clock : Int} {map : SpendMap} (hkeyed : SpendClaim.Keyed claims)
    (hnormal : ∀ c ∈ claims, SpendClaim.normalizeSpendClaim crypto clock c = .ok c)
    (h : spendMapLevels crypto clock claims = .ok map) : (rebuilt crypto claims map).Reflects crypto claims := by
  have hmap := isMapOf_of_levels h
  have htable := claimsByKey_of_levels hkeyed hnormal h
  refine ⟨hkeyed, List.Perm.of_eq (claims_rebuilt hkeyed),
    ⟨map.leaf crypto, ⟨fun c hc => ?_, fun p hp => ?_⟩, fun k hk p => ?_⟩, ?_⟩
  · have hslot : (SpendClaim.placed claims).slot (SpendClaim.positionOf c.spendKey) ≠ [] := by
      rw [SpendClaim.slot_placed hkeyed (hkeyed.digest c hc)]
      exact List.ne_nil_of_mem (SpendClaim.mem_slotOf.2 ⟨hc, rfl⟩)
    rw [← htable] at hslot
    have hhash := hmap.leaf_slot _ hslot
    rwa [htable, SpendClaim.slotHash_placed hkeyed hc] at hhash
  · refine hmap.leaf_empty p ?_
    rw [htable]
    exact SpendClaim.slot_placed_eq_nil hp
  · rw [← hmap.hashAt_eq k hk p, hashAt_rebuilt hkeyed]
  · intro text htext
    obtain rfl : map.root crypto = text := Option.some.inj htext
    rw [hmap.root_eq]
    exact (hmap.isDigest_node _ 0).lower

/-- Tables that were made anew do not look wrong. -/
theorem needsRebuild_rebuilt {clock : Int} {map : SpendMap} (hkeyed : SpendClaim.Keyed claims)
    (hnormal : ∀ c ∈ claims, SpendClaim.normalizeSpendClaim crypto clock c = .ok c)
    (h : spendMapLevels crypto clock claims = .ok map) : (rebuilt crypto claims map).needsRebuild crypto = false := by
  have hmap := isMapOf_of_levels h
  have hdigest : IsDigest (map.root crypto) := by
    rw [hmap.root_eq]
    exact hmap.isDigest_node _ 0
  have hhex : hex32 (map.root crypto) "spend-map root" = .ok (map.root crypto) :=
    hex32_eq_ok.2 ⟨hdigest.isHex32, hdigest.lower⟩
  have hsize : (map.totalClaims : Int) = (rebuilt crypto claims map).claims.length := by
    rw [claims_rebuilt hkeyed, totalClaims, claimsByKey_of_levels hkeyed hnormal h, SpendClaim.placed, List.length_map]
  have htop : ((rebuilt crypto claims map).nodes spendMapKeyBits 0).getD (spendMapEmptyRoot crypto)
      = map.root crypto :=
    hashAt_rebuilt hkeyed spendMapKeyBits 0
  have halgorithm : (rebuilt crypto claims map).algorithm = some logSpendMapAlgorithm := rfl
  have hroot : (rebuilt crypto claims map).rootHash = some (map.root crypto) := rfl
  have hstored : (rebuilt crypto claims map).mapSize = some (map.totalClaims : Int) := rfl
  rw [needsRebuild, halgorithm, hroot, hstored]
  simp only [hhex]
  cases hnode : (rebuilt crypto claims map).nodes spendMapKeyBits 0 with
  | none =>
    rw [hnode, Option.getD_none] at htop
    simp [htop, hsize]
  | some stored =>
    rw [hnode, Option.getD_some] at htop
    simp [htop, hsize]

theorem mem_putClaim {c d : SpendClaim} : d ∈ (m.putClaim c).claims ↔
    (d ∈ m.claims ∧ ¬ (d.spendKey = c.spendKey ∧ d.transferHash = c.transferHash)) ∨ d = c := by
  rw [putClaim, List.mem_append, List.mem_filter, List.mem_singleton, decide_eq_true_eq]

theorem keyed_putClaim {c : SpendClaim} (h : SpendClaim.Keyed m.claims) (hdigest : IsDigest c.spendKey) :
    SpendClaim.Keyed (m.putClaim c).claims where
  digest := by
    intro d hd
    rcases mem_putClaim.1 hd with ⟨hd, -⟩ | rfl
    · exact h.digest d hd
    · exact hdigest
  distinct := by
    refine List.pairwise_append.2 ⟨h.distinct.filter _, List.pairwise_singleton _ _, ?_⟩
    intro a ha b hb hkey hhash
    obtain rfl := List.mem_singleton.1 hb
    exact of_decide_eq_true (List.mem_filter.1 ha).2 ⟨hkey, hhash⟩

/-- The slots of other keys do not see a claim. -/
theorem slotOf_putClaim {c : SpendClaim} {spendKey : String} (hkey : spendKey ≠ c.spendKey) :
    SpendClaim.slotOf (m.putClaim c).claims spendKey = SpendClaim.slotOf m.claims spendKey := by
  rw [SpendClaim.slotOf, SpendClaim.slotOf, putClaim, List.filter_append, List.filter_filter]
  have hnone : [c].filter (fun d => d.spendKey = spendKey) = [] := by
    simp [hkey.symm]
  rw [hnone, List.append_nil]
  congr 1
  refine List.filter_congr fun d _ => ?_
  by_cases hd : d.spendKey = spendKey
  · simp [hd, hkey]
  · simp [hd]

/-- **A claim that is entered along its path turns the map of some claims into the map with the claim.** -/
theorem Reflects.stored (h : m.Reflects crypto claims) {c : SpendClaim} (hdigest : IsDigest c.spendKey)
    {leafHash : String} (hperm : (m.putClaim c).claims.Perm claims')
    (hslot : spendMapSlotHash crypto c.spendKey (SpendClaim.slotOf (m.putClaim c).claims c.spendKey)
      = .ok leafHash) (size : Int) :
    (((m.putClaim c).updatePath crypto (SpendClaim.positionOf c.spendKey) leafHash).2.setMeta size
      ((m.putClaim c).updatePath crypto (SpendClaim.positionOf c.spendKey) leafHash).1).Reflects
        crypto claims' := by
  obtain ⟨leaf, hleaf, hholds⟩ := h.nodes
  have hrows := h.keyed.perm h.listed.symm
  have hkeyed := keyed_putClaim hrows hdigest
  have hpath := holds_updatePath (m := m.putClaim c) hholds (SpendClaim.positionOf_lt hdigest) leafHash
  have hsame : (m.putClaim c).SameRows
      ((m.putClaim c).updatePath crypto (SpendClaim.positionOf c.spendKey) leafHash).2 :=
    sameRows_updatePath _ _
  have hmember : ∀ d ∈ (m.putClaim c).claims, d.spendKey ≠ c.spendKey → d ∈ claims := by
    intro d hd hne
    rcases mem_putClaim.1 hd with ⟨hd, -⟩ | rfl
    · exact h.listed.mem_iff.1 hd
    · exact absurd rfl hne
  have hleaf' : SpendClaim.IsLeaf crypto (m.putClaim c).claims
      (Function.update leaf (SpendClaim.positionOf c.spendKey) leafHash) := by
    constructor
    · intro d hd
      by_cases hkey : d.spendKey = c.spendKey
      · rw [hkey, Function.update_self]
        exact hslot
      · have hposition : SpendClaim.positionOf d.spendKey ≠ SpendClaim.positionOf c.spendKey := fun heq =>
          hkey (SpendClaim.positionOf_inj (hkeyed.digest d hd) hdigest heq)
        rw [Function.update_of_ne hposition, slotOf_putClaim hkey, hrows.slotOf_perm h.listed]
        exact hleaf.slot d (hmember d hd hkey)
    · intro p hp
      have hposition : SpendClaim.positionOf c.spendKey ≠ p := hp c (mem_putClaim.2 (Or.inr rfl))
      rw [Function.update_of_ne hposition.symm]
      refine hleaf.empty p fun d hd heq => ?_
      by_cases hreplaced : d.spendKey = c.spendKey ∧ d.transferHash = c.transferHash
      · rw [hreplaced.1] at heq
        exact hposition heq
      · exact hp d (mem_putClaim.2 (Or.inl ⟨h.listed.mem_iff.2 hd, hreplaced⟩)) heq
  refine ⟨hkeyed.perm hperm, ?_, ⟨_, hleaf'.perm hkeyed hperm, hpath.1.setMeta _ _⟩, ?_⟩
  · rwa [claims_setMeta, hsame.claims]
  · intro text htext
    obtain rfl := Option.some.inj htext
    rw [hpath.2]
    exact (isDigest_top _).lower

/-- **What tables that do not look wrong say.** -/
theorem Reflects.current (h : m.Reflects crypto claims) (hcurrent : m.needsRebuild crypto = false) :
    m.rootHash = some (m.hashAt crypto spendMapKeyBits 0) ∧ m.mapSize.getD 0 = claims.length := by
  unfold needsRebuild at hcurrent
  rw [Bool.or_eq_false_iff] at hcurrent
  obtain ⟨-, hcurrent⟩ := hcurrent
  cases hroot : m.rootHash with
  | none => simp [hroot] at hcurrent
  | some text =>
    simp only [hroot] at hcurrent
    cases hhex : hex32 text "spend-map root" with
    | error e => simp [hhex] at hcurrent
    | ok root =>
      simp only [hhex, Bool.or_eq_false_iff, decide_eq_false_iff_not, not_not] at hcurrent
      obtain ⟨hstored, hsize⟩ := hcurrent
      obtain rfl : root = text := (hex32_eq_ok.1 hhex).2.symm.trans (h.root text hroot)
      refine ⟨congrArg some ?_, ?_⟩
      · unfold hashAt
        split at hstored
        · next hempty =>
          rw [hempty]
          cases hnode : m.nodes spendMapKeyBits 0 with
          | none => rfl
          | some stored =>
            simp only [hnode, ne_eq, reduceCtorEq, not_false_eq_true, true_and, Option.some.injEq,
              decide_eq_false_iff_not, not_not] at hstored
            rw [hstored, Option.getD_some]
        · simp only [ne_eq, decide_eq_false_iff_not, not_not] at hstored
          rw [hstored, Option.getD_some]
      · rw [hsize, h.listed.length_eq]

end MapTables
