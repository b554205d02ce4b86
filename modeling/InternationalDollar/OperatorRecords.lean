import InternationalDollar.OperatorLog
import Mathlib.Data.List.Perm.Basic

set_option autoImplicit false

/-! # The claims in the tables of an operator

A row of `spend_claims` and the body in the entry of its transfer make a claim. `Recorded` says that they make
one claim at every later time, and `Claimed` that all rows do. Then `_spend_claim_records` returns these claims
(`Claimed.spendClaimRecords`). -/

/-! ## Entries -/

namespace Storage

variable {backend : Backend} {s u : Storage}

/-- No two entries compare equal. -/
def Distinct (backend : Backend) (s : Storage) : Prop :=
  s.logEntries.Pairwise fun e f => backend.compared e.entryHash ≠ backend.compared f.entryHash

theorem Distinct.eq (h : s.Distinct backend) {e f : LogEntry} (he : e ∈ s.logEntries) (hf : f ∈ s.logEntries)
    (heq : backend.compared e.entryHash = backend.compared f.entryHash) : e = f := by
  by_contra hne
  have hsymm : Std.Symm fun e f : LogEntry =>
      backend.compared e.entryHash ≠ backend.compared f.entryHash := ⟨fun _ _ h => h.symm⟩
  exact List.Pairwise.forall h he hf hne heq

/-- An entry is the only one that a search for its hash can find. -/
theorem Distinct.find?_eq (h : s.Distinct backend) {e : LogEntry} (he : e ∈ s.logEntries) {p : LogEntry → Bool}
    (hp : p e = true)
    (honly : ∀ f, p f = true → backend.compared f.entryHash = backend.compared e.entryHash) :
    s.logEntries.find? p = some e := by
  obtain ⟨f, hfind⟩ := Option.isSome_iff_exists.1 (List.find?_isSome.2 ⟨e, he, hp⟩)
  rw [hfind, h.eq (List.mem_of_find?_eq_some hfind) he (honly f (List.find?_some hfind))]

theorem Distinct.findEntry (h : s.Distinct backend) {e : LogEntry} (he : e ∈ s.logEntries) {hash : String}
    (heq : backend.compared e.entryHash = backend.compared hash) : s.findEntry backend hash = some e :=
  h.find?_eq he (Backend.hashEquals_iff.2 heq) fun _ hf => (Backend.hashEquals_iff.1 hf).trans heq.symm

/-- Entries keep their leaves and their bodies. -/
def Kept (s u : Storage) : Prop :=
  ∀ e ∈ s.logEntries, ∀ raw, e.transferJson = some raw →
    ∃ f ∈ u.logEntries, f.entryHash = e.entryHash ∧ f.leafIndex = e.leafIndex ∧ f.transferJson = some raw

theorem Kept.refl (s : Storage) : s.Kept s :=
  fun e he _ hraw => ⟨e, he, rfl, rfl, hraw⟩

theorem kept_of_logEntries (h : u.logEntries = s.logEntries) : s.Kept u := by
  intro e he raw hraw
  rw [h]
  exact ⟨e, he, rfl, rfl, hraw⟩

end Storage

namespace OperatorTables

/-- Only entries were set aside. -/
structure SetAside (s u : OperatorTables) : Prop where
  storage : u.storage = s.storage
  map : u.map = s.map
  roots : u.roots = s.roots

theorem SetAside.refl (s : OperatorTables) : s.SetAside s :=
  ⟨rfl, rfl, rfl⟩

theorem SetAside.trans {s t u : OperatorTables} (h : s.SetAside t) (k : t.SetAside u) : s.SetAside u :=
  ⟨k.storage.trans h.storage, k.map.trans h.map, k.roots.trans h.roots⟩

end OperatorTables

namespace OperatorLog

open Effect

variable {ProofBundle : Type} {log : OperatorLog ProofBundle}

/-! ## Claims with a body -/

/-- The claim that a row makes with a stored body. -/
def storedClaim (log : OperatorLog ProofBundle) (now : Int) (claim : SpendClaim) (raw : Bytes) :
    Except String SpendClaim := do
  let plain ← SpendClaim.normalizeSpendClaim log.node.crypto now claim
  pure ((log.withBody now claim raw).toOption.getD plain)

theorem setAside_quarantine (hash : String) (s : OperatorTables) : s.SetAside (quarantine hash s) :=
  ⟨rfl, rfl, rfl⟩

/-- **What `_normalize_claim_with_stored_transfer` does** for an entry with a body. -/
theorem normalizeClaimWithStoredTransfer_spec (log : OperatorLog ProofBundle) (now : Int) (claim : SpendClaim)
    {e : LogEntry} {raw : Bytes} (hraw : e.transferJson = some raw) (s : OperatorTables) :
    (log.normalizeClaimWithStoredTransfer now claim (some e) s).1 = log.storedClaim now claim raw ∧
      s.SetAside (log.normalizeClaimWithStoredTransfer now claim (some e) s).2 := by
  unfold normalizeClaimWithStoredTransfer storedClaim
  cases hplain : SpendClaim.normalizeSpendClaim log.node.crypto now claim with
  | error error => exact ⟨rfl, OperatorTables.SetAside.refl s⟩
  | ok plain =>
    rw [lift_ok_bind, Check.ok_bind]
    simp only [hraw]
    cases log.withBody now claim raw with
    | ok c => exact ⟨rfl, OperatorTables.SetAside.refl s⟩
    | error error => exact ⟨rfl, setAside_quarantine e.entryHash s⟩

section StoredClaims

variable {now now' : Int} {claim c : SpendClaim} {raw : Bytes}

theorem withBody_eq_ok : log.withBody now claim raw = .ok c ↔ ∃ body, readBody raw = .ok body ∧
    SpendClaim.normalizeSpendClaim log.node.crypto now { claim with transfer := some body } = .ok c := by
  rw [withBody, Check.bind_eq_ok]

theorem storedClaim_eq_ok : log.storedClaim now claim raw = .ok c ↔
    ∃ plain, SpendClaim.normalizeSpendClaim log.node.crypto now claim = .ok plain ∧
      (log.withBody now claim raw).toOption.getD plain = c := by
  simp only [storedClaim, Check.bind_eq_ok, Check.pure_eq_ok]

/-- A stored claim is the claim of the row or the claim with the body, in its normal form. -/
theorem normalize_of_storedClaim (h : log.storedClaim now claim raw = .ok c) : ∃ body,
    SpendClaim.normalizeSpendClaim log.node.crypto now { claim with transfer := body } = .ok c := by
  obtain ⟨plain, hplain, hc⟩ := storedClaim_eq_ok.1 h
  cases hbody : log.withBody now claim raw with
  | error error =>
    rw [hbody] at hc
    obtain rfl : plain = c := hc
    exact ⟨claim.transfer, hplain⟩
  | ok with_body =>
    rw [hbody] at hc
    obtain rfl : with_body = c := hc
    obtain ⟨body, -, hnormal⟩ := withBody_eq_ok.1 hbody
    exact ⟨some body, hnormal⟩

/-- A text that is no transfer with a hash, or one that is dated at most the skew ahead. -/
def Dated (log : OperatorLog ProofBundle) (now : Int) (hash : String) (raw : Bytes) : Prop :=
  ∀ t clock, readBody raw = .ok (.v3 t) → t.transferHash log.node.crypto clock = .ok hash → t.NotAhead now

/-- **A stored claim stays the same.** A body that is refused now is refused later, as it is not refused for
    its date. -/
theorem storedClaim_later (h : log.storedClaim now claim raw = .ok c)
    (hdated : log.Dated now (Text.lower claim.transferHash) raw) (hle : now ≤ now')
    (hmax : now' ≤ maxProtocolTimestamp) : log.storedClaim now' claim raw = .ok c := by
  obtain ⟨plain, hplain, hc⟩ := storedClaim_eq_ok.1 h
  have hlater : SpendClaim.normalizeSpendClaim log.node.crypto now' claim = .ok plain := by
    obtain ⟨hwell, hfields⟩ := SpendClaim.normalizeSpendClaim_eq_ok.1 hplain
    exact SpendClaim.normalizeSpendClaim_eq_ok.2 ⟨hwell.mono hle hmax, hfields⟩
  refine storedClaim_eq_ok.2 ⟨plain, hlater, ?_⟩
  cases hbody : log.withBody now claim raw with
  | ok normal =>
    rw [hbody] at hc
    obtain ⟨body, hread, hnormal⟩ := withBody_eq_ok.1 hbody
    obtain ⟨hwell, hfields⟩ := SpendClaim.normalizeSpendClaim_eq_ok.1 hnormal
    rw [withBody_eq_ok.2 ⟨body, hread, SpendClaim.normalizeSpendClaim_eq_ok.2 ⟨hwell.mono hle hmax, hfields⟩⟩]
    exact hc
  | error error =>
    rw [hbody] at hc
    cases hbody' : log.withBody now' claim raw with
    | error error => exact hc
    | ok normal =>
      obtain ⟨body, hread, hnormal⟩ := withBody_eq_ok.1 hbody'
      obtain ⟨hwell, hfields⟩ := SpendClaim.normalizeSpendClaim_eq_ok.1 hnormal
      have hcheck := hwell.body_valid body rfl
      obtain ⟨t, rfl, -, hhash⟩ := SpendClaim.exists_transfer_of_checkBody hcheck
      have hearlier : SpendClaim.WellFormed log.node.crypto now { claim with transfer := some (.v3 t) } := by
        refine { hwell with body_valid := ?_ }
        rintro _ ⟨⟩
        exact SpendClaim.checkBody_notAhead (hdated t now' hread hhash) hcheck
      rw [withBody_eq_ok.2 ⟨_, hread, SpendClaim.normalizeSpendClaim_eq_ok.2 ⟨hearlier, hfields⟩⟩] at hbody
      cases hbody

end StoredClaims

/-! ## Rows with their claims -/

/-- The claim of a row: with the entry of its transfer, the row makes it at every later time. -/
structure Recorded (log : OperatorLog ProofBundle) (clock : Int) (storage : Storage) (row : SpendClaimRow)
    (claim : SpendClaim) : Prop where
  spendKey : IsDigest row.spendKey
  transferHash : IsDigest row.transferHash
  leafIndex : row.transferLeafIndex = some claim.transferLeafIndex
  stored : ∃ e ∈ storage.logEntries, log.backend.compared e.entryHash = log.backend.compared row.transferHash ∧
    claim.transferLeafIndex = (e.leafIndex : Int) - 1 ∧ ∃ raw, e.transferJson = some raw ∧
      ∀ now, clock ≤ now → now ≤ maxProtocolTimestamp →
        log.storedClaim now (log.claimOf row claim.transferLeafIndex) raw = .ok claim
  text : ∃ text, canonicalBytes claim.toJson = .ok text

/-- Each row has its claim, and no two claims for a key are for one transfer. -/
structure Claimed (log : OperatorLog ProofBundle) (clock : Int) (storage : Storage) (claims : List SpendClaim) :
    Prop where
  clock_le : clock ≤ maxProtocolTimestamp
  distinct : storage.Distinct log.backend
  recorded : List.Forall₂ (log.Recorded clock storage) storage.spendClaims claims
  keyed : SpendClaim.Keyed claims

theorem compared_of_digest (backend : Backend) {text : String} (h : IsDigest text) :
    backend.compared text = text := by
  obtain ⟨bytes, hlength, rfl⟩ := h
  exact backend.compared_hex hlength

section Recorded

variable {clock now : Int} {storage storage' : Storage} {row : SpendClaimRow} {claim : SpendClaim}

theorem Recorded.mono (h : log.Recorded clock storage row claim) (hkept : storage.Kept storage')
    (hle : clock ≤ now) : log.Recorded now storage' row claim := by
  obtain ⟨e, he, hhash, hindex, raw, hraw, hstored⟩ := h.stored
  obtain ⟨f, hf, hsame, hleaf, hbody⟩ := hkept e he raw hraw
  refine { h with stored := ⟨f, hf, ?_, ?_, raw, hbody, fun later hlater => hstored later (hle.trans hlater)⟩ }
  · rw [hsame, hhash]
  · rw [hleaf, hindex]

/-- A claim has the key and the hash of its row, and is normal. -/
theorem Recorded.fields (h : log.Recorded clock storage row claim) (hmax : clock ≤ maxProtocolTimestamp) :
    claim.spendKey = row.spendKey ∧ claim.transferHash = row.transferHash ∧
      SpendClaim.normalizeSpendClaim log.node.crypto clock claim = .ok claim := by
  obtain ⟨e, -, -, -, raw, -, hstored⟩ := h.stored
  obtain ⟨body, hnormal⟩ := normalize_of_storedClaim (hstored clock le_rfl hmax)
  obtain ⟨-, hfields⟩ := SpendClaim.normalizeSpendClaim_eq_ok.1 hnormal
  refine ⟨?_, ?_, SpendClaim.normalizeSpendClaim_mono hnormal le_rfl hmax⟩
  · rw [← hfields]
    show Text.lower (log.backend.compared row.spendKey) = _
    rw [compared_of_digest _ h.spendKey, h.spendKey.lower]
  · rw [← hfields]
    show Text.lower (log.backend.compared row.transferHash) = _
    rw [compared_of_digest _ h.transferHash, h.transferHash.lower]

end Recorded

/-! ## All claims -/

section Claimed

variable {clock now : Int} {storage storage' : Storage} {claims : List SpendClaim} {s : OperatorTables}

theorem Claimed.mono (h : log.Claimed clock storage claims) (hkept : storage.Kept storage')
    (hrows : storage'.spendClaims = storage.spendClaims) (hdistinct : storage'.Distinct log.backend)
    (hle : clock ≤ now) (hmax : now ≤ maxProtocolTimestamp) : log.Claimed now storage' claims where
  clock_le := hmax
  distinct := hdistinct
  recorded := by
    rw [hrows]
    exact h.recorded.imp fun _ _ hrow => hrow.mono hkept hle
  keyed := h.keyed

/-- Every claim has its row. -/
theorem Claimed.exists_row (h : log.Claimed clock storage claims) {claim : SpendClaim} (hclaim : claim ∈ claims) :
    ∃ row ∈ storage.spendClaims, log.Recorded clock storage row claim := by
  obtain ⟨i, hi, rfl⟩ := List.mem_iff_getElem.1 hclaim
  have hrow : i < storage.spendClaims.length := by
    rw [h.recorded.length_eq]
    exact hi
  exact ⟨_, List.getElem_mem hrow, (List.forall₂_iff_get.1 h.recorded).2 i hrow hi⟩

theorem Claimed.exists_claim (h : log.Claimed clock storage claims) {row : SpendClaimRow}
    (hrow : row ∈ storage.spendClaims) : ∃ claim ∈ claims, log.Recorded clock storage row claim := by
  obtain ⟨i, hi, rfl⟩ := List.mem_iff_getElem.1 hrow
  have hclaim : i < claims.length := by
    rw [← h.recorded.length_eq]
    exact hi
  exact ⟨_, List.getElem_mem hclaim, (List.forall₂_iff_get.1 h.recorded).2 i hi hclaim⟩

theorem Claimed.normal (h : log.Claimed clock storage claims) (hle : clock ≤ now)
    (hmax : now ≤ maxProtocolTimestamp) :
    ∀ claim ∈ claims, SpendClaim.normalizeSpendClaim log.node.crypto now claim = .ok claim := by
  intro claim hclaim
  obtain ⟨row, -, hrow⟩ := h.exists_row hclaim
  obtain ⟨-, -, hnormal⟩ := hrow.fields h.clock_le
  exact SpendClaim.normalizeSpendClaim_mono hnormal hle hmax

/-- The loop over rows with their claims. -/
theorem Claimed.collectRecords (h : log.Claimed clock storage claims) (hle : clock ≤ now)
    (hmax : now ≤ maxProtocolTimestamp) {items : List (SpendClaimRow × Int)} {records : List SpendClaim}
    (hitems : List.Forall₂ (fun (item : SpendClaimRow × Int) claim => log.Recorded clock storage item.1 claim ∧
      item.2 = claim.transferLeafIndex) items records) (hs : s.storage = storage) :
    ∃ t, log.collectRecords now items s = (.ok records, t) ∧ s.SetAside t := by
  induction hitems generalizing s with
  | nil => exact ⟨s, rfl, OperatorTables.SetAside.refl s⟩
  | @cons item claim items records hitem _ ih =>
    obtain ⟨row, leafIndex⟩ := item
    obtain ⟨hrow, hleaf⟩ : log.Recorded clock storage row claim ∧ leafIndex = claim.transferLeafIndex := hitem
    obtain ⟨e, he, hhash, hindex, raw, hraw, hstored⟩ := hrow.stored
    have hjoined : log.joinedEntry s.storage row leafIndex = some e := by
      rw [hs]
      refine h.distinct.find?_eq he ?_ fun f hf => ?_
      · rw [Bool.and_eq_true, Backend.hashEquals_iff, beq_iff_eq]
        exact ⟨hhash, by omega⟩
      · rw [Bool.and_eq_true, Backend.hashEquals_iff] at hf
        exact hf.1.trans hhash.symm
    obtain ⟨hvalue, haside⟩ := log.normalizeClaimWithStoredTransfer_spec now (log.claimOf row leafIndex) hraw s
    rw [hleaf, hstored now hle hmax, ← hleaf] at hvalue
    obtain ⟨t, ht, hrest⟩ := ih (haside.storage.trans hs)
    refine ⟨t, ?_, haside.trans hrest⟩
    rw [OperatorLog.collectRecords, read_bind, hjoined]
    rw [bind_of_ok (Prod.ext hvalue rfl), bind_of_ok ht]
    rfl

/-- The rows with a leaf below a size have the claims with a leaf below it. -/
theorem Claimed.indexedRows (h : log.Claimed clock storage claims) (treeSize : Option Int) :
    ∃ records, List.Forall₂ (fun (item : SpendClaimRow × Int) claim => log.Recorded clock storage item.1 claim ∧
        item.2 = claim.transferLeafIndex) (OperatorLog.indexedRows storage treeSize) records ∧
      records.Perm (claims.filter fun c => ∀ size ∈ treeSize, c.transferLeafIndex < size) := by
  have hall : List.Forall₂ (fun (item : SpendClaimRow × Int) claim =>
      log.Recorded clock storage item.1 claim ∧ item.2 = claim.transferLeafIndex)
      (storage.spendClaims.filterMap fun row => row.transferLeafIndex.map fun leafIndex => (row, leafIndex))
      (claims.filterMap some) := by
    refine List.rel_filterMap ?_ h.recorded
    intro row claim hrow
    simp only [hrow.leafIndex]
    exact Option.Rel.some ⟨hrow, rfl⟩
  rw [List.filterMap_some] at hall
  refine List.perm_comp_forall₂ (List.perm_insertionSort _ _) (List.rel_filter ?_ hall)
  rintro item claim ⟨-, hindex⟩
  simp only [decide_eq_true_eq]
  rw [hindex]

/-- **What `_spend_claim_records` returns**: the claims with a leaf below a size, in its order. -/
theorem Claimed.spendClaimRecords (h : log.Claimed clock s.storage claims) (hle : clock ≤ now)
    (hmax : now ≤ maxProtocolTimestamp) (treeSize : Option Int) :
    ∃ records t, log.spendClaimRecords now treeSize s = (.ok records, t) ∧ s.SetAside t ∧
      records.Perm (claims.filter fun c => ∀ size ∈ treeSize, c.transferLeafIndex < size) := by
  obtain ⟨records, hitems, hperm⟩ := h.indexedRows treeSize
  obtain ⟨t, ht, haside⟩ := h.collectRecords (s := s) hle hmax hitems rfl
  exact ⟨records, t, ht, haside, hperm⟩

end Claimed

end OperatorLog
