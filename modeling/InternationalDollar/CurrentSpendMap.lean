import InternationalDollar.OperatorRecords
import InternationalDollar.Lib.JsonRoundTrip
import InternationalDollar.Lib.Runs

set_option autoImplicit false

/-! # The current spend map of an operator

An operator does not compute its spend map from all claims: it enters each new claim along the path of its key.
`Sound` says that the tables hold the map of the claims that they record. Every record of a claim keeps it where
it returns (`Sound.recordSpendClaim`), and so does every call in which the claims that `publish_root` makes up
for are all recorded. -/

namespace SpendClaim

theorem Keyed.nodup {claims : List SpendClaim} (h : Keyed claims) : claims.Nodup := by
  refine h.distinct.imp fun hab heq => ?_
  subst heq
  exact hab rfl rfl

end SpendClaim

namespace MapTables

/-- A claim that is there already is entered in its own place. -/
theorem perm_putClaim {m : MapTables} (h : SpendClaim.Keyed m.claims) {c : SpendClaim} (hc : c ∈ m.claims) :
    (m.putClaim c).claims.Perm m.claims := by
  have hput := keyed_putClaim h (h.digest c hc)
  refine (List.perm_ext_iff_of_nodup hput.nodup h.nodup).2 fun d => ?_
  rw [mem_putClaim]
  constructor
  · rintro (⟨hd, -⟩ | rfl)
    · exact hd
    · exact hc
  · intro hd
    by_cases hsame : d.spendKey = c.spendKey ∧ d.transferHash = c.transferHash
    · exact Or.inr (h.eq_of_hash hd hc hsame.1 hsame.2)
    · exact Or.inl ⟨hd, hsame⟩

/-- A new claim is entered behind the others. -/
theorem claims_putClaim_of_new {m : MapTables} {c : SpendClaim}
    (h : ∀ d ∈ m.claims, d.spendKey = c.spendKey → d.transferHash ≠ c.transferHash) :
    (m.putClaim c).claims = m.claims ++ [c] := by
  refine congrArg (· ++ [c]) (List.filter_eq_self.2 fun d hd => decide_eq_true ?_)
  rintro ⟨hkey, hhash⟩
  exact h d hd hkey hhash

end MapTables

namespace Storage

variable {backend : Backend} {storage : Storage}

theorem indexClaim_eq_self (h : ∀ row ∈ storage.spendClaims, row.transferLeafIndex.isSome = true)
    (spendKey transferHash : String) (leafIndex : Int) :
    storage.indexClaim backend spendKey transferHash leafIndex = storage := by
  have hrows : storage.spendClaims.map (fun c =>
      if backend.hashEquals c.spendKey spendKey && backend.hashEquals c.transferHash transferHash then
        { c with transferLeafIndex := c.transferLeafIndex.or (some leafIndex) }
      else c) = storage.spendClaims := by
    refine (List.map_congr_left fun row hrow => ?_).trans (List.map_id _)
    obtain ⟨index, hindex⟩ := Option.isSome_iff_exists.1 (h row hrow)
    split
    · rw [hindex, Option.some_or, ← hindex]
      rfl
    · rfl
  rw [indexClaim, hrows]

/-- What the two writes of `_record_spend_claim` do where all claims have leaves: a claim that is there stays,
    another is added. -/
theorem insertClaim_cases (backend : Backend) (h : ∀ row ∈ storage.spendClaims, row.transferLeafIndex.isSome = true)
    (row : SpendClaimRow) (hrow : row.transferLeafIndex.isSome = true) (leafIndex : Int) :
    (∃ old, storage.findClaim backend row.spendKey row.transferHash = some old ∧
      (storage.insertClaim backend row).indexClaim backend row.spendKey row.transferHash leafIndex = storage) ∨
    (storage.findClaim backend row.spendKey row.transferHash = none ∧
      (storage.insertClaim backend row).indexClaim backend row.spendKey row.transferHash leafIndex
        = { storage with spendClaims := storage.spendClaims ++ [row] } ∧
      Storage.findClaim backend row.spendKey row.transferHash
        { storage with spendClaims := storage.spendClaims ++ [row] } = some row) := by
  cases hfind : storage.findClaim backend row.spendKey row.transferHash with
  | some old =>
    refine Or.inl ⟨old, rfl, ?_⟩
    rw [insertClaim, hfind]
    exact indexClaim_eq_self h _ _ _
  | none =>
    refine Or.inr ⟨rfl, ?_, ?_⟩
    · rw [insertClaim, hfind]
      refine indexClaim_eq_self (fun other hother => ?_) _ _ _
      rcases List.mem_append.1 hother with hother | hother
      · exact h other hother
      · rw [List.mem_singleton.1 hother]
        exact hrow
    · have hself : ∀ text, backend.hashEquals text text = true := fun text => Backend.hashEquals_iff.2 rfl
      rw [findClaim] at hfind ⊢
      rw [List.find?_append, hfind]
      simp [hself]

end Storage

namespace OperatorLog

open Effect

variable {ProofBundle : Type} {log : OperatorLog ProofBundle} {clock now : Int} {s t u : OperatorTables}
  {claims claims' : List SpendClaim}

/-- The tables hold the map of the claims that they record. -/
structure Sound (log : OperatorLog ProofBundle) (clock : Int) (s : OperatorTables) (claims : List SpendClaim) :
    Prop extends log.Claimed clock s.storage claims where
  reflects : s.map.Reflects log.node.crypto claims

theorem Sound.setAside (h : log.Sound clock s claims) (haside : s.SetAside u) : log.Sound clock u claims where
  toClaimed := by
    rw [haside.storage]
    exact h.toClaimed
  reflects := by
    rw [haside.map]
    exact h.reflects

/-! ## Rebuilds -/

theorem forEach_insertMapClaim (h : ∀ c ∈ claims, ∃ text, canonicalBytes c.toJson = .ok text) :
    forEach insertMapClaim claims s
      = (.ok (), { s with map := claims.foldl (fun m c => m.putClaim c) s.map }) := by
  induction claims generalizing s with
  | nil => rfl
  | cons c rest ih =>
    obtain ⟨⟨text, htext⟩, hrest⟩ := List.forall_mem_cons.1 h
    have hfirst : insertMapClaim c s = (.ok (), { s with map := s.map.putClaim c }) := by
      rw [insertMapClaim, htext]
      rfl
    exact (bind_of_ok hfirst).trans (ih hrest)

/-- **What `_rebuild_current_spend_map` does**: it makes the tables anew from the records. -/
theorem rebuildCurrentSpendMap_eq {records : List SpendClaim}
    (hrecords : log.spendClaimRecords now none s = (.ok records, t))
    (hnormal : ∀ c ∈ records, SpendClaim.normalizeSpendClaim log.node.crypto now c = .ok c)
    (htext : ∀ c ∈ records, ∃ text, canonicalBytes c.toJson = .ok text) :
    log.rebuildCurrentSpendMap now s = match SpendMap.spendMapLevels log.node.crypto now records with
      | .error e => (.error e, t)
      | .ok map => (.ok (map.root log.node.crypto, map.totalClaims),
          { t with map := MapTables.rebuilt log.node.crypto records map }) := by
  rw [rebuildCurrentSpendMap, bind_of_ok hrecords, SpendMapProof.normalizeClaims_eq_self hnormal, lift_ok_bind]
  cases hlevels : SpendMap.spendMapLevels log.node.crypto now records with
  | error e => rfl
  | ok map =>
    rw [lift_ok_bind, write_bind, bind_of_ok (forEach_insertMapClaim htext)]
    rfl

theorem Claimed.texts (h : log.Claimed clock s.storage claims) :
    ∀ c ∈ claims, ∃ text, canonicalBytes c.toJson = .ok text := by
  intro c hc
  obtain ⟨row, -, hrow⟩ := h.exists_row hc
  exact hrow.text

theorem Claimed.allRecords (h : log.Claimed clock s.storage claims) (hle : clock ≤ now)
    (hmax : now ≤ maxProtocolTimestamp) : ∃ records t,
      log.spendClaimRecords now none s = (.ok records, t) ∧ s.SetAside t ∧ records.Perm claims := by
  obtain ⟨records, t, hrun, haside, hperm⟩ := h.spendClaimRecords hle hmax none
  refine ⟨records, t, hrun, haside, ?_⟩
  simpa using hperm

/-- A rebuild that returns leaves the map of the claims. -/
theorem Claimed.rebuild (h : log.Claimed now s.storage claims) {result : String × Int}
    (hrun : log.rebuildCurrentSpendMap now s = (.ok result, u)) :
    log.Sound now u claims ∧ u.storage = s.storage ∧ u.roots = s.roots := by
  obtain ⟨records, t, hrecords, haside, hperm⟩ := h.allRecords le_rfl h.clock_le
  have hnormal : ∀ c ∈ records, SpendClaim.normalizeSpendClaim log.node.crypto now c = .ok c :=
    fun c hc => h.normal le_rfl h.clock_le c (hperm.mem_iff.1 hc)
  rw [rebuildCurrentSpendMap_eq hrecords hnormal fun c hc => h.texts c (hperm.mem_iff.1 hc)] at hrun
  cases hlevels : SpendMap.spendMapLevels log.node.crypto now records with
  | error e =>
    rw [hlevels] at hrun
    cases hrun
  | ok map =>
    rw [hlevels] at hrun
    obtain ⟨-, rfl⟩ := Prod.mk.inj hrun
    refine ⟨⟨?_, ?_⟩, haside.storage, haside.roots⟩
    · show log.Claimed now t.storage claims
      rw [haside.storage]
      exact h
    · exact (MapTables.reflects_rebuilt (h.keyed.perm hperm.symm) hnormal hlevels).perm hperm

/-- Where the tables hold the map of their claims, the records have a map, and it has the stored nodes. -/
theorem Sound.exists_levels (h : log.Sound clock s claims) (hle : clock ≤ now) (hmax : now ≤ maxProtocolTimestamp)
    {records : List SpendClaim} (hperm : records.Perm claims) :
    ∃ map, SpendMap.spendMapLevels log.node.crypto now records = .ok map ∧ map.totalClaims = claims.length ∧
      ∀ height ≤ spendMapKeyBits, ∀ position,
        s.map.hashAt log.node.crypto height position = map.hashAt log.node.crypto height position := by
  have hkeyed := h.keyed.perm hperm.symm
  obtain ⟨leaf, hleaf, hholds⟩ := (h.reflects.perm hperm.symm).nodes
  obtain ⟨map, hlevels, htable, hnodes⟩ := hleaf.exists_levels hkeyed
    fun c hc => h.normal hle hmax c (hperm.mem_iff.1 hc)
  refine ⟨map, hlevels, ?_, fun height hheight position => ?_⟩
  · rw [SpendMap.totalClaims, htable, SpendClaim.placed, List.length_map, hperm.length_eq]
  · rw [hholds height hheight, hnodes height hheight]

/-- **What the spend map of an operator should say**: `_ensure_current_spend_map` returns the root and the
    number of the claims that `_spend_claim_records` returns, and the stored nodes are those of their map. -/
def Incremental (log : OperatorLog ProofBundle) (now : Int) (s : OperatorTables) : Prop :=
  ∃ records map, (log.spendClaimRecords now none s).1 = .ok records ∧
    SpendMap.spendMapLevels log.node.crypto now records = .ok map ∧
    SpendMap.spendMapRoot log.node.crypto now records = .ok (map.root log.node.crypto) ∧
    (log.ensureCurrentSpendMap now s).1 = .ok (map.root log.node.crypto, records.length) ∧
    ∀ height ≤ spendMapKeyBits, ∀ position,
      s.map.hashAt log.node.crypto height position = map.hashAt log.node.crypto height position ∧
        (log.ensureCurrentSpendMap now s).2.map.hashAt log.node.crypto height position
          = map.hashAt log.node.crypto height position

/-- Where the tables hold the map of their claims, a rebuild returns its root and their number. -/
theorem Sound.rebuild (h : log.Sound clock s claims) (hle : clock ≤ now) (hmax : now ≤ maxProtocolTimestamp) :
    ∃ u, log.rebuildCurrentSpendMap now s
        = (.ok (s.map.hashAt log.node.crypto spendMapKeyBits 0, claims.length), u) ∧
      log.Sound now u claims ∧ u.storage = s.storage ∧ u.roots = s.roots := by
  have hlater : log.Claimed now s.storage claims :=
    h.toClaimed.mono (Storage.Kept.refl _) rfl h.distinct hle hmax
  obtain ⟨records, t, hrecords, haside, hperm⟩ := hlater.allRecords le_rfl hmax
  obtain ⟨map, hlevels, htotal, hnodes⟩ := h.exists_levels hle hmax hperm
  have hrun := rebuildCurrentSpendMap_eq hrecords
    (fun c hc => hlater.normal le_rfl hmax c (hperm.mem_iff.1 hc))
    fun c hc => hlater.texts c (hperm.mem_iff.1 hc)
  rw [hlevels] at hrun
  refine ⟨_, ?_, hlater.rebuild hrun⟩
  rw [hrun, hnodes _ le_rfl, ← htotal]
  rfl

/-- `_ensure_current_spend_map` returns, and leaves the map of the claims. -/
theorem Sound.ensure (h : log.Sound clock s claims) (hle : clock ≤ now) (hmax : now ≤ maxProtocolTimestamp) :
    ∃ u, log.ensureCurrentSpendMap now s
        = (.ok (s.map.hashAt log.node.crypto spendMapKeyBits 0, claims.length), u) ∧
      log.Sound now u claims ∧ u.storage = s.storage ∧ u.roots = s.roots := by
  cases hrebuild : s.map.needsRebuild log.node.crypto with
  | false =>
    obtain ⟨hroot, hsize⟩ := h.reflects.current hrebuild
    have hlater : log.Claimed now s.storage claims :=
      h.toClaimed.mono (Storage.Kept.refl _) rfl h.distinct hle hmax
    refine ⟨s, ?_, ⟨hlater, h.reflects⟩, rfl, rfl⟩
    rw [ensureCurrentSpendMap, read_bind, hrebuild, if_neg Bool.false_ne_true, read_bind, read_bind, hroot, hsize]
    rfl
  | true =>
    rw [ensureCurrentSpendMap, read_bind, hrebuild, if_pos rfl]
    exact h.rebuild hle hmax

/-- Tables that were made anew are not made anew once more. -/
theorem ensureCurrentSpendMap_rebuilt (log : OperatorLog ProofBundle) {records : List SpendClaim} {map : SpendMap}
    (hmap : s.map = MapTables.rebuilt log.node.crypto records map) (hkeyed : SpendClaim.Keyed records)
    (hnormal : ∀ c ∈ records, SpendClaim.normalizeSpendClaim log.node.crypto clock c = .ok c)
    (hlevels : SpendMap.spendMapLevels log.node.crypto clock records = .ok map) (now : Int) :
    log.ensureCurrentSpendMap now s = (.ok (map.root log.node.crypto, map.totalClaims), s) := by
  have hcurrent : s.map.needsRebuild log.node.crypto = false := by
    rw [hmap]
    exact MapTables.needsRebuild_rebuilt hkeyed hnormal hlevels
  have hroot : s.map.rootHash = some (map.root log.node.crypto) := by
    rw [hmap]
    rfl
  have hsize : s.map.mapSize = some (map.totalClaims : Int) := by
    rw [hmap]
    rfl
  rw [ensureCurrentSpendMap, read_bind, hcurrent, if_neg Bool.false_ne_true, read_bind, read_bind, hroot, hsize]
  rfl

/-- **Tables that hold the map of their claims say what they should.** -/
theorem Sound.incremental (h : log.Sound clock s claims) (hle : clock ≤ now)
    (hmax : now ≤ maxProtocolTimestamp) : log.Incremental now s := by
  obtain ⟨records, t, hrecords, -, hperm⟩ := h.allRecords hle hmax
  obtain ⟨map, hlevels, -, hnodes⟩ := h.exists_levels hle hmax hperm
  obtain ⟨u, hensure, hsound, -, -⟩ := h.ensure hle hmax
  obtain ⟨map', hlevels', -, hnodes'⟩ := hsound.exists_levels le_rfl hmax hperm
  obtain rfl := Except.ok.inj (hlevels.symm.trans hlevels')
  refine ⟨records, map, congrArg Prod.fst hrecords, hlevels, Check.bind_eq_ok.2 ⟨map, hlevels, rfl⟩, ?_,
    fun height hheight position => ⟨hnodes height hheight position, ?_⟩⟩
  · rw [hensure, hnodes _ le_rfl, hperm.length_eq]
    rfl
  · rw [hensure]
    exact hnodes' height hheight position

/-! ## Records -/

/-- What `_store_current_spend_map_claim` did. -/
theorem storeCurrentSpendMapClaim_eq_ok {row : SpendClaimRow} {leafIndex : Int} {e : LogEntry} {raw : Bytes}
    {c : SpendClaim} (hfind : s.storage.findEntry log.backend row.transferHash = some e)
    (hraw : e.transferJson = some raw)
    (hrun : log.storeCurrentSpendMapClaim now row leafIndex s = (.ok c, u)) :
    log.storedClaim now (log.claimOf row leafIndex) raw = .ok c ∧ (∃ text, canonicalBytes c.toJson = .ok text) ∧
      ∃ t, s.SetAside t ∧ u = { t with map := s.map.putClaim c } := by
  obtain ⟨_, t, hclaim, hrun⟩ := bind_eq_ok.1 hrun
  obtain ⟨text, _, htext, hrun⟩ := bind_eq_ok.1 hrun
  obtain ⟨hbytes, rfl⟩ := lift_eq_ok.1 htext
  obtain ⟨_, _, hwrite, hrun⟩ := bind_eq_ok.1 hrun
  obtain ⟨rfl, rfl⟩ := pure_eq_ok.1 hrun
  obtain rfl := write_eq_ok.1 hwrite
  rw [currentClaimForMap, read_bind, hfind] at hclaim
  obtain ⟨hvalue, haside⟩ := log.normalizeClaimWithStoredTransfer_spec now (log.claimOf row leafIndex) hraw s
  rw [hclaim] at hvalue haside
  exact ⟨hvalue.symm, ⟨text, hbytes⟩, t, haside, by rw [haside.map]⟩

/-- What `_update_current_spend_map_path` did for the key of a claim in the table. -/
theorem updateCurrentSpendMapPath_eq_ok {spendKey root : String} (hkey : IsDigest spendKey)
    (hmem : ∃ c ∈ s.map.claims, c.spendKey = spendKey)
    (hnormal : ∀ c ∈ s.map.claims, SpendClaim.normalizeSpendClaim log.node.crypto now c = .ok c)
    (hrun : log.updateCurrentSpendMapPath now spendKey s = (.ok root, u)) : ∃ leafHash map,
      SpendMap.spendMapSlotHash log.node.crypto spendKey (SpendClaim.slotOf s.map.claims spendKey) = .ok leafHash ∧
      s.map.updatePath log.node.crypto (SpendClaim.positionOf spendKey) leafHash = (root, map) ∧
      u = { s with map } := by
  have hhex : hex32 spendKey "spend key" = .ok spendKey := hex32_eq_ok.2 ⟨hkey.isHex32, hkey.lower⟩
  have hrows : (s.map.claims.filter fun c => c.spendKey = spendKey) ≠ [] := by
    obtain ⟨c, hc, hsame⟩ := hmem
    exact List.ne_nil_of_mem (List.mem_filter.2 ⟨hc, decide_eq_true hsame⟩)
  have hslot : log.claimsForCurrentSpendKey now spendKey s
      = (.ok (SpendClaim.slotOf s.map.claims spendKey), s) := by
    have hself : SpendMapProof.normalizeClaims log.node.crypto now
        (s.map.claims.filter fun c => c.spendKey = spendKey)
        = .ok (s.map.claims.filter fun c => c.spendKey = spendKey) :=
      SpendMapProof.normalizeClaims_eq_self fun c hc => hnormal c (List.mem_of_mem_filter hc)
    rw [claimsForCurrentSpendKey, hhex, lift_ok_bind, read_bind, if_pos hrows, hself]
    rfl
  have hne : SpendClaim.slotOf s.map.claims spendKey ≠ [] := by
    obtain ⟨c, hc, hsame⟩ := hmem
    exact List.ne_nil_of_mem (SpendClaim.mem_slotOf.2 ⟨hc, hsame⟩)
  rw [updateCurrentSpendMapPath, hhex, lift_ok_bind, bind_of_ok hslot, leafHash, if_pos hne] at hrun
  obtain ⟨leafHash, _, hleaf, hrun⟩ := bind_eq_ok.1 hrun
  obtain ⟨hslotHash, rfl⟩ := lift_eq_ok.1 hleaf
  rw [SpendClaim.spendKeyPosition_of_digest hkey, lift_ok_bind, read_bind, write_bind] at hrun
  obtain ⟨rfl, rfl⟩ := pure_eq_ok.1 hrun
  exact ⟨leafHash, _, hslotHash, Prod.mk.eta.symm, rfl⟩

/-- **What `_record_current_spend_map_claim` does where it returns**: the tables hold the map with the claim of
    the row. -/
theorem recordCurrentSpendMapClaim_eq_ok {row : SpendClaimRow} {leafIndex : Int} {e : LogEntry} {raw : Bytes}
    {result : String × Int} (hreflects : s.map.Reflects log.node.crypto claims) (hkey : IsDigest row.spendKey)
    (hfind : s.storage.findEntry log.backend row.transferHash = some e) (hraw : e.transferJson = some raw)
    (hrun : log.recordCurrentSpendMapClaim now row leafIndex s = (.ok result, u)) : ∃ c,
      log.storedClaim now (log.claimOf row leafIndex) raw = .ok c ∧ (∃ text, canonicalBytes c.toJson = .ok text) ∧
      ∀ claims', log.Claimed now s.storage claims' → (s.map.putClaim c).claims.Perm claims' →
        log.Sound now u claims' ∧ u.storage = s.storage ∧ u.roots = s.roots := by
  rw [recordCurrentSpendMapClaim, read_bind] at hrun
  obtain ⟨c, mid, hstore, hrun⟩ := bind_eq_ok.1 hrun
  obtain ⟨hstored, htext, t, haside, rfl⟩ := storeCurrentSpendMapClaim_eq_ok hfind hraw hstore
  refine ⟨c, hstored, htext, fun claims' hclaimed hperm => ?_⟩
  have htables : log.Claimed now t.storage claims' := by
    rw [haside.storage]
    exact hclaimed
  cases hrebuild : s.map.needsRebuild log.node.crypto with
  | true =>
    rw [hrebuild, if_pos rfl] at hrun
    obtain ⟨hsound, hstorage, hroots⟩ := Claimed.rebuild (s := { t with map := s.map.putClaim c }) htables hrun
    exact ⟨hsound, hstorage.trans haside.storage, hroots.trans haside.roots⟩
  | false =>
    rw [hrebuild, if_neg Bool.false_ne_true] at hrun
    have hclaimKey : c.spendKey = row.spendKey := by
      obtain ⟨body, hnormal⟩ := normalize_of_storedClaim hstored
      obtain ⟨-, hfields⟩ := SpendClaim.normalizeSpendClaim_eq_ok.1 hnormal
      rw [← hfields]
      show Text.lower (log.backend.compared row.spendKey) = _
      rw [compared_of_digest _ hkey, hkey.lower]
    have hdigest : IsDigest c.spendKey := by
      rw [hclaimKey]
      exact hkey
    obtain ⟨root, mid, hpath, hrun⟩ := bind_eq_ok.1 hrun
    obtain ⟨leafHash, map, hslot, hupdate, rfl⟩ := updateCurrentSpendMapPath_eq_ok hdigest
      ⟨c, MapTables.mem_putClaim.2 (Or.inr rfl), rfl⟩
      (fun d hd => hclaimed.normal le_rfl hclaimed.clock_le d (hperm.mem_iff.1 hd)) hpath
    rw [write_bind, read_bind] at hrun
    obtain ⟨-, rfl⟩ := pure_eq_ok.1 hrun
    have hmap := hreflects.stored hdigest hperm hslot (map.claims.length : Int)
    dsimp only at hupdate
    rw [hupdate] at hmap
    exact ⟨⟨htables, hmap⟩, haside.storage, haside.roots⟩

/-- Claims were added, for leaves that meet a condition. -/
def Adds (meets : Int → Prop) (claims claims' : List SpendClaim) : Prop :=
  ∃ added, claims' = claims ++ added ∧ ∀ c ∈ added, meets c.transferLeafIndex

theorem Adds.refl (meets : Int → Prop) (claims : List SpendClaim) : Adds meets claims claims :=
  ⟨[], (List.append_nil _).symm, fun _ h => absurd h List.not_mem_nil⟩

theorem Adds.trans {meets : Int → Prop} {later : List SpendClaim} (h : Adds meets claims claims')
    (k : Adds meets claims' later) : Adds meets claims later := by
  obtain ⟨added, rfl, hadded⟩ := h
  obtain ⟨added', rfl, hadded'⟩ := k
  refine ⟨added ++ added', List.append_assoc _ _ _, fun c hc => ?_⟩
  rcases List.mem_append.1 hc with hc | hc
  · exact hadded c hc
  · exact hadded' c hc

theorem Adds.mono {meets meets' : Int → Prop} (h : Adds meets claims claims')
    (himp : ∀ index, meets index → meets' index) : Adds meets' claims claims' := by
  obtain ⟨added, rfl, hadded⟩ := h
  exact ⟨added, rfl, fun c hc => himp _ (hadded c hc)⟩

theorem Claimed.indexed {storage : Storage} (h : log.Claimed clock storage claims) :
    ∀ row ∈ storage.spendClaims, row.transferLeafIndex.isSome = true := by
  intro row hrow
  obtain ⟨claim, -, hrecorded⟩ := h.exists_claim hrow
  exact Option.isSome_of_eq_some hrecorded.leafIndex

/-- A claim of which the key and the transfer have no row is apart from all claims. -/
theorem Claimed.apart {storage : Storage} (h : log.Claimed clock storage claims) {c : SpendClaim}
    (hfind : storage.findClaim log.backend c.spendKey c.transferHash = none) :
    ∀ d ∈ claims, d.spendKey = c.spendKey → d.transferHash ≠ c.transferHash := by
  intro d hd hkey hhash
  obtain ⟨row, hrow, hrecorded⟩ := h.exists_row hd
  obtain ⟨hspendKey, htransferHash, -⟩ := hrecorded.fields h.clock_le
  refine List.find?_eq_none.1 hfind row hrow ?_
  rw [← hspendKey, ← htransferHash, hkey, hhash, Bool.and_eq_true, Backend.hashEquals_iff, Backend.hashEquals_iff]
  exact ⟨rfl, rfl⟩

/-- **A record that returns keeps the map of the claims**, of which there is at most one more, for the leaf of
    the entry. -/
theorem Sound.recordSpendClaim (h : log.Sound now s claims) {transfer : Transfer} {key hash : String}
    {leafIndex firstSeen : Int} (hkey : IsDigest key) (hhash : IsDigest hash) {e : LogEntry}
    (he : e ∈ s.storage.logEntries) (hentry : log.backend.compared e.entryHash = log.backend.compared hash)
    (hleaf : leafIndex = (e.leafIndex : Int) - 1) {raw : Bytes} (hraw : e.transferJson = some raw)
    (hdated : log.Dated now hash raw) {result : Unit}
    (hrun : log.recordSpendClaim now transfer key hash leafIndex firstSeen s = (.ok result, u)) :
    ∃ claims', log.Sound now u claims' ∧ Adds (· = leafIndex) claims claims' ∧
      u.storage.logEntries = s.storage.logEntries ∧ u.storage.leaf = s.storage.leaf ∧ u.roots = s.roots := by
  let row : SpendClaimRow := ⟨key, transfer.tokenId, transfer.previousHash, transfer.sequence,
    transfer.senderAddress, transfer.senderPublicKey, hash, some leafIndex, firstSeen⟩
  rw [OperatorLog.recordSpendClaim, write_bind, write_bind, read_bind] at hrun
  obtain ⟨persisted, _, hpersisted, hrun⟩ := bind_eq_ok.1 hrun
  obtain ⟨hfound, rfl⟩ := lift_eq_ok.1 hpersisted
  obtain ⟨index, _, hindexed, hrun⟩ := bind_eq_ok.1 hrun
  obtain ⟨hindex, rfl⟩ := lift_eq_ok.1 hindexed
  obtain ⟨stored, mid, hrecord, hrun⟩ := bind_eq_ok.1 hrun
  obtain ⟨-, rfl⟩ := pure_eq_ok.1 hrun
  rw [Check.ofOption_eq_ok] at hfound hindex
  rcases Storage.insertClaim_cases log.backend h.indexed row rfl leafIndex with
    ⟨old, hold, hsame⟩ | ⟨hnone, hadded, hnew⟩
  · -- The claim is there: it is entered in its own place.
    have hstorage : (s.storage.insertClaim log.backend row).indexClaim log.backend key hash leafIndex
      = s.storage := hsame
    rw [hstorage] at hfound hrecord
    obtain rfl : persisted = old := Option.some.inj (hfound.symm.trans hold)
    obtain ⟨claim, hclaim, hrow⟩ := h.exists_claim (List.mem_of_find?_eq_some hfound)
    obtain ⟨e', he', hhash', hindex', raw', hraw', hstored⟩ := hrow.stored
    obtain rfl : claim.transferLeafIndex = index := Option.some.inj (hrow.leafIndex.symm.trans hindex)
    obtain ⟨c, hc, -, hsound⟩ := recordCurrentSpendMapClaim_eq_ok h.reflects hrow.spendKey
      (h.distinct.findEntry he' hhash') hraw' hrecord
    obtain rfl : c = claim := Except.ok.inj (hc.symm.trans (hstored now le_rfl h.clock_le))
    have hlisted := h.reflects.listed
    have hput := MapTables.perm_putClaim (h.keyed.perm hlisted.symm) (hlisted.mem_iff.2 hclaim)
    obtain ⟨hsound, hkept, hroots⟩ := hsound claims h.toClaimed (hput.trans hlisted)
    refine ⟨claims, hsound, Adds.refl _ _, ?_, ?_, hroots⟩
    · rw [hkept]
    · rw [hkept]
  · -- The claim is new: it is entered behind the others.
    have hstorage : (s.storage.insertClaim log.backend row).indexClaim log.backend key hash leafIndex
      = { s.storage with spendClaims := s.storage.spendClaims ++ [row] } := hadded
    rw [hstorage] at hfound hrecord
    obtain rfl : persisted = row := Option.some.inj (hfound.symm.trans hnew)
    obtain rfl : leafIndex = index := Option.some.inj hindex
    obtain ⟨c, hc, htext, hsound⟩ := recordCurrentSpendMapClaim_eq_ok
      (s := { s with storage := { s.storage with spendClaims := s.storage.spendClaims ++ [row] } })
      h.reflects hkey (h.distinct.findEntry he hentry) hraw hrecord
    obtain ⟨body, hnormal⟩ := normalize_of_storedClaim hc
    obtain ⟨-, hfields⟩ := SpendClaim.normalizeSpendClaim_eq_ok.1 hnormal
    have hleafIndex : c.transferLeafIndex = leafIndex := by
      rw [← hfields]
      rfl
    have hcompared : Text.lower (log.claimOf row leafIndex).transferHash = hash := by
      show Text.lower (log.backend.compared hash) = hash
      rw [compared_of_digest _ hhash, hhash.lower]
    have hrow : log.Recorded now s.storage row c := by
      refine ⟨hkey, hhash, congrArg some hleafIndex.symm, ⟨e, he, hentry, hleafIndex.trans hleaf, raw, hraw, ?_⟩,
        htext⟩
      intro later hle hmax
      rw [hleafIndex]
      refine storedClaim_later hc ?_ hle hmax
      rw [hcompared]
      exact hdated
    obtain ⟨hspendKey, htransferHash, -⟩ := hrow.fields h.clock_le
    have hapart : ∀ d ∈ claims, d.spendKey = c.spendKey → d.transferHash ≠ c.transferHash := by
      refine h.apart ?_
      rw [hspendKey, htransferHash]
      exact hnone
    have hclaimed : log.Claimed now { s.storage with spendClaims := s.storage.spendClaims ++ [row] }
        (claims ++ [c]) := by
      have hrows : List.Forall₂ (log.Recorded now s.storage) (s.storage.spendClaims ++ [row]) (claims ++ [c]) :=
        List.rel_append h.recorded (List.Forall₂.cons hrow List.Forall₂.nil)
      have hkept : s.storage.Kept { s.storage with spendClaims := s.storage.spendClaims ++ [row] } :=
        Storage.kept_of_logEntries rfl
      refine ⟨h.clock_le, h.distinct, hrows.imp fun _ _ hr => hr.mono hkept le_rfl, ?_, ?_⟩
      · intro d hd
        rcases List.mem_append.1 hd with hd | hd
        · exact h.keyed.digest d hd
        · rw [List.mem_singleton.1 hd, hspendKey]
          exact hkey
      · refine List.pairwise_append.2 ⟨h.keyed.distinct, List.pairwise_singleton _ _, fun d hd d' hd' => ?_⟩
        rw [List.mem_singleton.1 hd']
        exact hapart d hd
    have hlisted := h.reflects.listed
    have hput := MapTables.claims_putClaim_of_new (m := s.map) (c := c) fun d hd =>
      hapart d (hlisted.mem_iff.1 hd)
    obtain ⟨hsound, hkept, hroots⟩ := hsound (claims ++ [c]) hclaimed (by
      rw [hput]
      exact hlisted.append_right _)
    refine ⟨claims ++ [c], hsound, ⟨[c], rfl, fun d hd => ?_⟩, ?_, ?_, hroots⟩
    · rw [List.mem_singleton.1 hd]
      exact hleafIndex
    · rw [hkept]
    · rw [hkept]

end OperatorLog
