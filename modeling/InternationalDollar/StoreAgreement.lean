import InternationalDollar.InMemoryRoots
import InternationalDollar.LocalBlacklist

set_option autoImplicit false

/-! # Agreement of the two observed-root stores

The two stores hold the same rows after every sequence of calls that both treat alike. The proof follows
the tables: roots and evidence, key records, statuses. -/

variable {crypto : Crypto}

/-! ## Which calls are treated alike -/

namespace ObservedRoots

/-- Among the rows of one time, those that the cut takes have the smaller root ids. -/
def CutAlike (rows : List (PeerRow crypto)) (k : Nat) : Prop :=
  ∀ a ∈ (Select.orderBy PeerRow.receivedAt rows).take k,
    ∀ b ∈ (Select.orderBy PeerRow.receivedAt rows).drop k,
      a.receivedAt = b.receivedAt → a.root.id ≤ b.root.id

/-- Both stores prune the same rows: there is no cap, no overflow, nothing but evidence, or no evidence
    at all and the cut does not fall between rows of one time that the root ids order otherwise. -/
def PrunedAlike (store : ObservedRoots crypto) (meets : PeerRow crypto → Bool) (cap : Int) : Prop :=
  let matching := store.peerObservedRoots.filter meets
  cap ≤ 0 ∨ (matching.length : Int) ≤ cap ∨
    (∀ row ∈ matching, row.root.id ∈ store.evidenceRootIds) ∨
    (∀ row ∈ matching, row.root.id ∉ store.evidenceRootIds) ∧
      CutAlike matching (matching.length - cap.toNat)

/-- The rows beside the evidence are within the cap. -/
def WithinCap (store : ObservedRoots crypto) (meets : PeerRow crypto → Bool) (cap : Int) : Prop :=
  cap ≤ 0 ∨ ((store.peerObservedRoots.filter fun row =>
    meets row && row.root.id ∉ store.evidenceRootIds).length : Int) ≤ cap

/-- No other stored root has the id of a root: its hash collides with none. -/
def IdFree (store : ObservedRoots crypto) (root : MirroredRoot crypto) : Prop :=
  ∀ stored, store.Stores stored → stored.id = root.id → stored = root

/-- A peer root is pruned alike: where it is stored already the database has nothing to prune, and where
    it is new both prunes take the same rows. -/
def PeerRootAlike (store : ObservedRoots crypto) (root : MirroredRoot crypto) (peerId : String)
    (receivedAt cap : Int) (total : Option Int) : Prop :=
  let ofPeer := fun row : PeerRow crypto => row.peerId = peerId && row.root.logId = root.logId
  let ofLog := fun row : PeerRow crypto => decide (row.root.logId = root.logId)
  if store.peerObservedRoots.any fun row => row.root.id = root.id ∧ row.peerId = peerId then
    store.WithinCap ofPeer cap ∧ ∀ all ∈ total, store.WithinCap ofLog all
  else
    let inserted : ObservedRoots crypto :=
      { store with peerObservedRoots := store.peerObservedRoots ++ [⟨root, peerId, receivedAt⟩] }
    inserted.PrunedAlike ofPeer cap ∧
      ∀ all ∈ total, (inserted.prunePeerRoots peerId root.logId cap).PrunedAlike ofLog all

/-- A revocation has its hash for itself and is not of the time of the latest one of its key. -/
def RevocationAlike (store : ObservedRoots crypto) (record : KeyRevocation) : Prop :=
  ∀ row ∈ store.operatorKeyRevocations,
    (record.keyRevocationId crypto = .ok row.1 → row.2 = record) ∧
    (row.2.logId = record.logId → row.2.revokedPublicKey = record.revokedPublicKey →
      row.2.revocationTimestamp = record.revocationTimestamp →
      row.2 = record ∨ ∃ later ∈ store.operatorKeyRevocations, later.2.logId = record.logId ∧
        later.2.revokedPublicKey = record.revokedPublicKey ∧
        record.revocationTimestamp < later.2.revocationTimestamp)

/-- The call is one that the two stores treat alike. -/
def TreatedAlike (store : ObservedRoots crypto) : StoreCall crypto → Prop
  | .recordRoot root _ => store.IdFree root
  | .recordPeerRoot root peerId receivedAt cap total =>
      store.IdFree root ∧ store.PeerRootAlike root peerId receivedAt cap total
  | .markUnresponsive logId key reason updatedAt =>
      -- a blacklisted operator keeps its row only in memory
      ∀ row, store.status logId = some row → row.status = .blacklisted →
        row.operatorPublicKey = key ∧ row.reason = some reason ∧ row.updatedAt = updatedAt
  | .markBlacklisted logId _ _ _ _ =>
      -- the time of the last check is kept only by the database
      ∀ row, store.status logId = some row → row.lastSuccessfulConsistencyAt = none
  | .recordKeyRevocation record => store.RevocationAlike record
  | _ => True

end ObservedRoots

/-! ## Pruning -/

section Prune

open ObservedRoots

variable {s : ObservedRoots crypto} {m : InMemoryRoots crypto} {meets : PeerRow crypto → Bool}
  {cap : Int}

/-- The rows that the database drops are the oldest ones beside the evidence, beyond the cap. -/
theorem mem_dropped {rows : List (PeerRow crypto)} (hnodup : rows.Nodup) {row : PeerRow crypto} :
    row ∈ (Select.orderBy (fun row : PeerRow crypto => -row.receivedAt) rows.reverse).drop cap.toNat ↔
      row ∈ (Select.orderBy PeerRow.receivedAt rows).take (rows.length - cap.toNat) := by
  rw [Select.orderBy_neg_reverse PeerRow.receivedAt hnodup, List.drop_reverse, List.mem_reverse,
    Select.length_orderBy]

/-- A cap that is not exceeded drops nothing. -/
theorem dropped_eq_nil {rows : List (PeerRow crypto)} (h : (rows.length : Int) ≤ cap) :
    (Select.orderBy (fun row : PeerRow crypto => -row.receivedAt) rows.reverse).drop cap.toNat = [] := by
  refine List.drop_of_length_le ?_
  rw [Select.length_orderBy, List.length_reverse]
  omega

/-- The prune of the database touches the peer roots only. -/
theorem prunePeerRows_spec (s : ObservedRoots crypto) (meets : PeerRow crypto → Bool) (cap : Int) :
    ∃ rows, rows.Sublist s.peerObservedRoots ∧
      s.prunePeerRows meets cap = { s with peerObservedRoots := rows } := by
  unfold ObservedRoots.prunePeerRows
  split
  · exact ⟨_, List.Sublist.refl _, rfl⟩
  · exact ⟨_, List.filter_sublist, rfl⟩

/-- Within the cap the database prunes nothing. -/
theorem prunePeerRows_of_withinCap (h : s.WithinCap meets cap) : s.prunePeerRows meets cap = s := by
  unfold ObservedRoots.prunePeerRows
  split
  · rfl
  · next hcap =>
    simp only [dropped_eq_nil (h.resolve_left hcap), List.not_mem_nil, not_false_eq_true,
      decide_true, List.filter_true]

/-- **Where the condition holds, both stores prune the same rows.** -/
theorem prunePeerRows_alike (hpeers : m.peerRoots = s.peerObservedRoots)
    (hevidence : m.equivocations = s.equivocationEvidence)
    (hkeys : (s.peerObservedRoots.map PeerRow.key).Nodup) (h : s.PrunedAlike meets cap) :
    ∃ rows, rows.Sublist s.peerObservedRoots ∧
      s.prunePeerRows meets cap = { s with peerObservedRoots := rows } ∧
      m.prunePeerRows meets cap = { m with peerRoots := rows } := by
  obtain ⟨rows, hsub, hs⟩ := prunePeerRows_spec s meets cap
  refine ⟨rows, hsub, hs, ?_⟩
  have hbound : m.evidenceBound = s.evidenceRootIds := by
    unfold InMemoryRoots.evidenceBound ObservedRoots.evidenceRootIds
    rw [hevidence]
  have hrows : rows = (s.prunePeerRows meets cap).peerObservedRoots := by rw [hs]
  subst hrows
  unfold ObservedRoots.prunePeerRows InMemoryRoots.prunePeerRows
  rw [hpeers, hbound]
  by_cases hcap : cap ≤ 0
  · rw [if_pos hcap, if_pos hcap, ← hpeers]
  rw [if_neg hcap, if_neg hcap]
  have hnodup : s.peerObservedRoots.Nodup := List.Nodup.of_map _ hkeys
  -- the candidates of the database are the matching rows of the memory beside the evidence
  have hcandidates : (s.peerObservedRoots.filter fun row =>
      meets row && row.root.id ∉ s.evidenceRootIds)
      = (s.peerObservedRoots.filter meets).filter fun row => row.root.id ∉ s.evidenceRootIds := by
    rw [List.filter_filter]
    exact List.filter_congr fun row _ => Bool.and_comm _ _
  rw [hcandidates]
  let matching := s.peerObservedRoots.filter meets
  let free := matching.filter fun row => row.root.id ∉ s.evidenceRootIds
  have hfree : free.Nodup := (hnodup.filter _).filter _
  have hsubset : ∀ row ∈ free, row ∈ s.peerObservedRoots := fun row hrow =>
    List.mem_of_mem_filter (List.mem_of_mem_filter hrow)
  have hfreeLength : free.length ≤ matching.length := List.length_filter_le _ _
  by_cases hover : (matching.length : Int) - cap ≤ 0
  · rw [if_pos hover]
    have hnone := @dropped_eq_nil _ cap free (by omega)
    change m = { m with peerRoots := s.peerObservedRoots.filter (· ∉ List.drop cap.toNat
      (Select.orderBy (fun row : PeerRow crypto => -row.receivedAt) free.reverse)) }
    rw [hnone]
    simp [← hpeers]
  rw [if_neg hover]
  refine congrArg (fun rows => { m with peerRoots := rows }) (List.filter_congr fun row hrow => ?_)
  have hiff : row.key ∈ ((Select.orderBy (fun row : PeerRow crypto =>
        (toLex (row.receivedAt, row.root.id) : Int ×ₗ String)) free).take
          ((matching.length : Int) - cap).toNat).map PeerRow.key ↔
      row ∈ (Select.orderBy (fun row : PeerRow crypto => -row.receivedAt) free.reverse).drop
        cap.toNat := by
    rw [mem_dropped hfree]
    have hkeyed : row.key ∈ ((Select.orderBy (fun row : PeerRow crypto =>
          (toLex (row.receivedAt, row.root.id) : Int ×ₗ String)) free).take
            ((matching.length : Int) - cap).toNat).map PeerRow.key ↔
        row ∈ (Select.orderBy (fun row : PeerRow crypto =>
          (toLex (row.receivedAt, row.root.id) : Int ×ₗ String)) free).take
            ((matching.length : Int) - cap).toNat := by
      constructor
      · intro hin
        obtain ⟨other, hother, hkey⟩ := List.mem_map.1 hin
        have hmem := hsubset other (Select.mem_orderBy.1 (List.mem_of_mem_take hother))
        exact List.inj_on_of_nodup_map hkeys hmem hrow hkey ▸ hother
      · exact List.mem_map_of_mem
    rw [hkeyed]
    rcases h with h | h | h | ⟨h, hcut⟩
    · exact absurd h hcap
    · exact absurd (by change (matching.length : Int) ≤ cap at h; omega) hover
    · -- nothing but evidence
      have hnone : free = [] := List.filter_eq_nil_iff.2 fun row hrow => by simpa using h row hrow
      rw [hnone]
      simp [Select.orderBy]
    · have hall : free = matching :=
        List.filter_eq_self.2 fun row hrow => decide_eq_true (h row hrow)
      have hk : ((matching.length : Int) - cap).toNat = matching.length - cap.toNat := by omega
      rw [hall] at hfree ⊢
      rw [hk]
      exact Select.mem_take_orderBy_lex (fun row : PeerRow crypto => row.root.id) hfree hcut
  exact decide_eq_decide.2 (not_congr hiff)

end Prune

/-! ## Roots and evidence -/

/-- Both stores hold the same roots and the same evidence. -/
structure SameRoots (s : ObservedRoots crypto) (m : InMemoryRoots crypto) : Prop where
  roots : m.roots = s.observedRoots
  peerRoots : m.peerRoots = s.peerObservedRoots
  equivocations : m.equivocations = s.equivocationEvidence
  peerKeys : (s.peerObservedRoots.map PeerRow.key).Nodup
  ids : ∀ a b, s.Stores a → s.Stores b → a.id = b.id → a = b

namespace SameRoots

variable {s : ObservedRoots crypto} {m : InMemoryRoots crypto}

theorem candidates_eq (h : SameRoots s m) (logId : String) : m.candidates logId = s.observedOf logId := by
  unfold InMemoryRoots.candidates ObservedRoots.observedOf
  rw [h.roots]

theorem latestRoot_eq (h : SameRoots s m) (logId : String) : m.latestRoot logId = s.latestRoot logId := by
  unfold InMemoryRoots.latestRoot
  rw [Select.getLast?_orderBy, h.candidates_eq]
  rfl

theorem observedPosition_eq (h : SameRoots s m) (logId : String) :
    m.observedPosition logId = s.observedPosition logId := by
  unfold InMemoryRoots.observedPosition ObservedRoots.observedPosition
  rw [h.candidates_eq]

/-- One root for each id is every root, as no two stored roots have one id. -/
theorem mem_rootsForLog (h : SameRoots s m) {logId : String} {root : MirroredRoot crypto} :
    root ∈ m.rootsForLog logId ↔ root ∈ s.rootsForLog logId := by
  have hall : m.candidates logId ++ (m.peerRoots.map PeerRow.root).filter
      (fun root => root.logId = logId) = s.rootsForLog logId := by
    unfold InMemoryRoots.candidates ObservedRoots.rootsForLog
    rw [h.roots, h.peerRoots, List.filter_append]
  unfold InMemoryRoots.rootsForLog
  rw [hall]
  constructor
  · intro hin
    exact (mem_of_mem_foldl_dictPut hin).resolve_left (by simp)
  · intro hin
    obtain ⟨other, hother, hid⟩ :=
      exists_mem_foldl_dictPut (fun root : MirroredRoot crypto => root.id) [] (Or.inr hin)
    have hstored := (mem_of_mem_foldl_dictPut hother).resolve_left (by simp)
    have heq := h.ids other root (ObservedRoots.stores_of_mem_rootsForLog hstored).1
      (ObservedRoots.stores_of_mem_rootsForLog hin).1 hid
    exact heq ▸ hother

theorem isSome_findEquivocation (h : SameRoots s m) (root : MirroredRoot crypto) :
    (m.findEquivocation root).isSome = (s.findEquivocation root).isSome := by
  unfold InMemoryRoots.findEquivocation ObservedRoots.findEquivocation
  rw [Bool.eq_iff_iff, List.findSome?_isSome_iff, List.findSome?_isSome_iff]
  simp only [h.mem_rootsForLog]

/-- Roots beside the new one come from the store. -/
theorem ids_insert (h : SameRoots s m) {root : MirroredRoot crypto} (hfree : s.IdFree root)
    {t : ObservedRoots crypto} (hstores : ∀ stored, t.Stores stored → s.Stores stored ∨ stored = root) :
    ∀ a b, t.Stores a → t.Stores b → a.id = b.id → a = b := by
  intro a b ha hb hid
  rcases hstores a ha with ha | rfl
  · rcases hstores b hb with hb | rfl
    · exact h.ids a b ha hb hid
    · exact hfree a ha hid
  · rcases hstores b hb with hb | rfl
    · exact (hfree b hb hid.symm).symm
    · rfl

/-- Both stores have the same observed roots after the call. -/
theorem recordRoot_alike (h : SameRoots s m) (root : MirroredRoot crypto) (sourceIdentity : String) :
    ∃ rows, s.recordRoot root sourceIdentity = { s with observedRoots := rows } ∧
      m.recordRoot root sourceIdentity = { m with roots := rows } := by
  unfold ObservedRoots.recordRoot InMemoryRoots.recordRoot
  rw [h.roots]
  split
  · exact ⟨s.observedRoots, rfl, by rw [← h.roots]⟩
  · exact ⟨_, rfl, rfl⟩

/-- Both stores have the same peer roots after the call, each of them stored before or new. -/
theorem recordPeerRoot_alike (h : SameRoots s m) {root : MirroredRoot crypto} {peerId : String}
    {receivedAt cap : Int} {total : Option Int}
    (halike : s.PeerRootAlike root peerId receivedAt cap total) :
    ∃ rows, s.recordPeerRoot root peerId receivedAt cap total = { s with peerObservedRoots := rows } ∧
      m.recordPeerRoot root peerId receivedAt cap total = { m with peerRoots := rows } ∧
      (rows.map PeerRow.key).Nodup := by
  unfold ObservedRoots.recordPeerRoot InMemoryRoots.recordPeerRoot
  unfold ObservedRoots.PeerRootAlike at halike
  rw [h.peerRoots]
  by_cases hany : (s.peerObservedRoots.any fun row =>
      decide (row.root.id = root.id ∧ row.peerId = peerId)) = true
  · -- the root is stored: the memory returns and the database has nothing to prune
    simp only [if_pos hany] at halike ⊢
    obtain ⟨hpeer, htotal⟩ := halike
    refine ⟨s.peerObservedRoots, ?_, by rw [← h.peerRoots], h.peerKeys⟩
    unfold ObservedRoots.prunePeerRoots ObservedRoots.prunePeerRootsForLog
    rw [prunePeerRows_of_withinCap hpeer]
    cases total with
    | none => rfl
    | some all => exact prunePeerRows_of_withinCap (htotal all rfl)
  · simp only [if_neg hany] at halike ⊢
    obtain ⟨hpeer, htotal⟩ := halike
    let new : PeerRow crypto := ⟨root, peerId, receivedAt⟩
    have hkeys : ((s.peerObservedRoots ++ [new]).map PeerRow.key).Nodup := by
      rw [List.map_append, List.map_singleton, ← List.concat_eq_append]
      refine h.peerKeys.concat fun hin => hany ?_
      obtain ⟨row, hrow, hkey⟩ := List.mem_map.1 hin
      exact List.any_eq_true.2 ⟨row, hrow, decide_eq_true (Prod.mk.inj hkey)⟩
    obtain ⟨rows, hsub, hs, hm⟩ := prunePeerRows_alike
      (s := { s with peerObservedRoots := s.peerObservedRoots ++ [new] })
      (m := { m with peerRoots := s.peerObservedRoots ++ [new] }) rfl h.equivocations hkeys hpeer
    have hrowKeys : (rows.map PeerRow.key).Nodup := (hsub.map PeerRow.key).nodup hkeys
    unfold ObservedRoots.prunePeerRoots at htotal
    rw [hs] at htotal
    unfold ObservedRoots.prunePeerRoots InMemoryRoots.prunePeerRoots
    rw [hs, hm]
    cases total with
    | none => exact ⟨rows, rfl, rfl, hrowKeys⟩
    | some all =>
      obtain ⟨rest, hsub', hs', hm'⟩ := prunePeerRows_alike
        (s := { s with peerObservedRoots := rows }) (m := { m with peerRoots := rows }) rfl
        h.equivocations hrowKeys (htotal all rfl)
      exact ⟨rest, hs', hm', (hsub'.map PeerRow.key).nodup hrowKeys⟩

/-- An evidence is saved by both stores or by none. -/
theorem saveEquivocationEvidence_alike (h : SameRoots s m) (acceptLegacy : Bool)
    (row : EvidenceRow crypto) :
    (∃ e, (row.checkCollisionType >>= fun _ => s.saveEquivocationEvidence acceptLegacy row) = .error e ∧
      m.saveEquivocationEvidence acceptLegacy row = .error e) ∨
    ∃ rows, (row.checkCollisionType >>= fun _ => s.saveEquivocationEvidence acceptLegacy row)
        = .ok { s with equivocationEvidence := rows } ∧
      m.saveEquivocationEvidence acceptLegacy row = .ok { m with equivocations := rows } := by
  unfold InMemoryRoots.saveEquivocationEvidence ObservedRoots.saveEquivocationEvidence
  rw [h.equivocations]
  cases row.checkCollisionType with
  | error e => exact Or.inl ⟨e, rfl, rfl⟩
  | ok =>
    cases ObservedRoots.makeEquivocationProof acceptLegacy row.rootA row.rootB with
    | error e => exact Or.inl ⟨e, rfl, rfl⟩
    | ok =>
      refine Or.inr ⟨if row ∈ s.equivocationEvidence then s.equivocationEvidence
        else s.equivocationEvidence ++ [row], ?_, ?_⟩
      · split <;> rfl
      · split
        · exact congrArg Except.ok (by rw [← h.equivocations])
        · rfl

end SameRoots

/-! ## Key records -/

/-- Both stores hold the same key records, and no two revocations are the latest of one key. -/
structure SameKeyRecords (s : ObservedRoots crypto) (m : InMemoryRoots crypto) : Prop where
  keyRotations : m.keyRotations = s.operatorKeyRotations
  keyRevocations : m.keyRevocations = s.operatorKeyRevocations
  revocationIds : ∀ row ∈ s.operatorKeyRevocations, row.2.keyRevocationId crypto = .ok row.1
  latestUnique : ∀ a ∈ s.operatorKeyRevocations, ∀ b ∈ s.operatorKeyRevocations,
    a.2.logId = b.2.logId → a.2.revokedPublicKey = b.2.revokedPublicKey →
    a.2.revocationTimestamp = b.2.revocationTimestamp →
    (∀ c ∈ s.operatorKeyRevocations, c.2.logId = a.2.logId →
      c.2.revokedPublicKey = a.2.revokedPublicKey →
      c.2.revocationTimestamp ≤ a.2.revocationTimestamp) → a.2 = b.2

/-- The latest rotation that the loop finds is below a size exactly when all rotations of the log are. -/
theorem all_latestRotation (logId : String) (records : List KeyRotation) (size : Int) :
    ((InMemoryRoots.latestRotation logId records).all fun latest =>
        latest.effectiveFromTreeSize < size) = true ↔
      ∀ record ∈ records, record.logId = logId → record.effectiveFromTreeSize < size := by
  suffices hfold : ∀ found : Option KeyRotation,
      ((records.foldl (fun latest record => if record.logId = logId ∧ (latest.all fun found =>
          found.effectiveFromTreeSize < record.effectiveFromTreeSize) = true then some record
          else latest) found).all fun latest => latest.effectiveFromTreeSize < size) = true ↔
        (found.all fun found => found.effectiveFromTreeSize < size) = true ∧
          ∀ record ∈ records, record.logId = logId → record.effectiveFromTreeSize < size by
    exact (hfold none).trans (and_iff_right rfl)
  induction records with
  | nil => simp
  | cons record rest ih =>
    intro found
    rw [List.foldl_cons, ih, List.forall_mem_cons, ← and_assoc]
    refine and_congr_left fun _ => ?_
    by_cases hlog : record.logId = logId
    · cases found with
      | none => simp [hlog]
      | some found =>
        by_cases hlt : found.effectiveFromTreeSize < record.effectiveFromTreeSize
        · simp only [hlog, Option.all_some, hlt, decide_true, and_self, if_true, decide_eq_true_eq,
            forall_const]
          omega
        · simp only [hlog, Option.all_some, hlt, decide_false, Bool.false_eq_true, and_false, if_false,
            decide_eq_true_eq, forall_const]
          omega
    · simp [hlog]

namespace SameKeyRecords

variable {s : ObservedRoots crypto} {m : InMemoryRoots crypto}

theorem keyRotationsForLog_eq (h : SameKeyRecords s m) (logId : String) :
    m.keyRotationsForLog logId = s.keyRotationsForLog logId := by
  unfold InMemoryRoots.keyRotationsForLog ObservedRoots.keyRotationsForLog
  rw [h.keyRotations]

/-- The first revocation of the largest time is the last one, as there is only one. -/
theorem keyRevocationForKey_eq (h : SameKeyRecords s m) (logId publicKey : String) :
    m.keyRevocationForKey logId publicKey = s.keyRevocationForKey logId publicKey := by
  let records := (s.operatorKeyRevocations.map Prod.snd).filter fun record =>
    record.logId = logId && record.revokedPublicKey = publicKey
  have hmem : ∀ record ∈ records, ∃ row ∈ s.operatorKeyRevocations, row.2 = record ∧
      record.logId = logId ∧ record.revokedPublicKey = publicKey := by
    intro record hrecord
    obtain ⟨hin, hmeets⟩ := List.mem_filter.1 hrecord
    obtain ⟨row, hrow, rfl⟩ := List.mem_map.1 hin
    simp only [Bool.and_eq_true, decide_eq_true_eq] at hmeets
    exact ⟨row, hrow, rfl, hmeets⟩
  unfold InMemoryRoots.keyRevocationForKey ObservedRoots.keyRevocationForKey
  rw [h.keyRevocations, Select.getLast?_orderBy, Select.first_eq_argmin]
  change records.reverse.argmax _ = records.argmin _
  cases hlast : records.reverse.argmax KeyRevocation.revocationTimestamp with
  | none =>
    have hnil : records = [] := List.reverse_eq_nil_iff.1 (List.argmax_eq_none.1 hlast)
    rw [hnil]
    rfl
  | some a =>
    have ha : a ∈ records := List.mem_reverse.1 (List.argmax_mem hlast)
    have hle : ∀ c ∈ records, c.revocationTimestamp ≤ a.revocationTimestamp := fun c hc =>
      List.le_of_mem_argmax (List.mem_reverse.2 hc) hlast
    let latestFirst := fun record : KeyRevocation => -record.revocationTimestamp
    cases hfirst : records.argmin latestFirst with
    | none => exact absurd (List.argmin_eq_none.1 hfirst) (List.ne_nil_of_mem ha)
    | some b =>
      have hb : b ∈ records := List.argmin_mem hfirst
      have hba : latestFirst b ≤ latestFirst a := List.le_of_mem_argmin ha hfirst
      have hba : -b.revocationTimestamp ≤ -a.revocationTimestamp := hba
      have hab := hle b hb
      obtain ⟨rowA, hrowA, rfl, hlogA, hkeyA⟩ := hmem a ha
      obtain ⟨rowB, hrowB, rfl, hlogB, hkeyB⟩ := hmem b hb
      refine congrArg some (h.latestUnique rowA hrowA rowB hrowB (hlogA.trans hlogB.symm)
        (hkeyA.trans hkeyB.symm) (by omega) fun c hc hlog hkey => hle c.2 ?_)
      refine List.mem_filter.2 ⟨List.mem_map_of_mem hc, ?_⟩
      simp only [Bool.and_eq_true, decide_eq_true_eq]
      exact ⟨hlog.trans hlogA, hkey.trans hkeyA⟩

/-- A rotation is recorded by both stores or by none. -/
theorem recordKeyRotation_alike (h : SameKeyRecords s m) (record : KeyRotation) :
    (∃ e, s.recordKeyRotation record = .error e ∧ m.recordKeyRotation record = .error e) ∨
    ∃ rows, s.recordKeyRotation record = .ok { s with operatorKeyRotations := rows } ∧
      m.recordKeyRotation record = .ok { m with keyRotations := rows } := by
  unfold InMemoryRoots.recordKeyRotation ObservedRoots.recordKeyRotation
  rw [h.keyRotations]
  cases record.verifyKeyRotation crypto none with
  | error e => exact Or.inl ⟨e, rfl, rfl⟩
  | ok =>
  cases record.keyRotationId crypto with
  | error e => exact Or.inl ⟨e, rfl, rfl⟩
  | ok recordHash =>
    simp only [Check.ok_bind]
    have hfound : (AssocList.get? recordHash s.operatorKeyRotations).isSome = true ↔
        (s.operatorKeyRotations.any fun row => row.1 = recordHash) = true := by
      rw [AssocList.get?_eq_find?, Option.isSome_map, List.find?_isSome, List.any_eq_true]
    by_cases hany : (s.operatorKeyRotations.any fun row => row.1 = recordHash) = true
    · rw [if_pos hany, if_pos (hfound.2 hany)]
      exact Or.inr ⟨s.operatorKeyRotations, rfl, congrArg Except.ok (by rw [← h.keyRotations])⟩
    · rw [if_neg hany, if_neg fun hsome => hany (hfound.1 hsome)]
      have hlatest := all_latestRotation record.logId (s.operatorKeyRotations.map Prod.snd)
        record.effectiveFromTreeSize
      rw [List.forall_mem_map] at hlatest
      have hnew : recordHash ∉ s.operatorKeyRotations.map Prod.fst := by
        intro hin
        obtain ⟨row, hrow, hkey⟩ := List.mem_map.1 hin
        exact hany (List.any_eq_true.2 ⟨row, hrow, decide_eq_true hkey⟩)
      rw [AssocList.put_of_not_mem hnew]
      by_cases hmonotone : ∀ row ∈ s.operatorKeyRotations, row.2.logId = record.logId →
          row.2.effectiveFromTreeSize < record.effectiveFromTreeSize
      · rw [Check.require_of hmonotone, Check.require_of (hlatest.2 hmonotone)]
        exact Or.inr ⟨_, rfl, rfl⟩
      · unfold Check.require
        rw [if_neg hmonotone, if_neg fun hall => hmonotone (hlatest.1 hall)]
        exact Or.inl ⟨_, rfl, rfl⟩

/-- A revocation is recorded by both stores or by none. -/
theorem recordKeyRevocation_alike (h : SameKeyRecords s m) {record : KeyRevocation}
    (halike : s.RevocationAlike record) :
    (∃ e, s.recordKeyRevocation record = .error e ∧ m.recordKeyRevocation record = .error e) ∨
    ∃ rows, s.recordKeyRevocation record = .ok { s with operatorKeyRevocations := rows } ∧
      m.recordKeyRevocation record = .ok { m with keyRevocations := rows } ∧
      (rows = s.operatorKeyRevocations ∨ ∃ recordHash, record.keyRevocationId crypto = .ok recordHash ∧
        recordHash ∉ s.operatorKeyRevocations.map Prod.fst ∧
        rows = s.operatorKeyRevocations ++ [(recordHash, record)]) := by
  have hrotation : AssocList.get? record.rotationRecordHash m.keyRotations
      = s.keyRotationByHash record.rotationRecordHash := by
    rw [AssocList.get?_eq_find?, h.keyRotations]
    rfl
  unfold InMemoryRoots.recordKeyRevocation ObservedRoots.recordKeyRevocation
  rw [hrotation, h.keyRevocations]
  cases s.keyRotationByHash record.rotationRecordHash with
  | none => exact Or.inl ⟨_, rfl, rfl⟩
  | some rotation =>
  simp only [Check.ofOption, Check.ok_bind]
  cases record.verifyKeyRevocation crypto rotation with
  | error e => exact Or.inl ⟨e, rfl, rfl⟩
  | ok =>
  cases hhash : record.keyRevocationId crypto with
  | error e => exact Or.inl ⟨e, rfl, rfl⟩
  | ok recordHash =>
    simp only [Check.ok_bind]
    refine Or.inr ?_
    by_cases hany : (s.operatorKeyRevocations.any fun row => row.1 = recordHash) = true
    · -- the row that is there has the hash and so is the record
      rw [if_pos hany]
      refine ⟨s.operatorKeyRevocations, rfl, congrArg Except.ok ?_, Or.inl rfl⟩
      obtain ⟨row, hrow⟩ := Option.isSome_iff_exists.1
        (List.find?_isSome.2 (List.any_eq_true.1 hany))
      have hkey : row.1 = recordHash := by
        simpa using List.find?_some hrow
      have hsame := (halike row (List.mem_of_find?_eq_some hrow)).1 (hkey ▸ hhash)
      have hget : AssocList.get? recordHash s.operatorKeyRevocations = some record := by
        rw [AssocList.get?_eq_find?, hrow, Option.map_some, hsame]
      rw [AssocList.put_of_get? hget]
    · rw [if_neg hany]
      have hnew : recordHash ∉ s.operatorKeyRevocations.map Prod.fst := by
        intro hin
        obtain ⟨row, hrow, hkey⟩ := List.mem_map.1 hin
        exact hany (List.any_eq_true.2 ⟨row, hrow, decide_eq_true hkey⟩)
      rw [AssocList.put_of_not_mem hnew]
      exact ⟨_, rfl, rfl, Or.inr ⟨recordHash, rfl, hnew, rfl⟩⟩

/-- A revocation that is not of the time of the latest one leaves a single latest one. -/
theorem append_revocation (h : SameKeyRecords s m) {record : KeyRevocation} {recordHash : String}
    (halike : s.RevocationAlike record) (hhash : record.keyRevocationId crypto = .ok recordHash)
    (hnew : recordHash ∉ s.operatorKeyRevocations.map Prod.fst) :
    SameKeyRecords
      { s with operatorKeyRevocations := s.operatorKeyRevocations ++ [(recordHash, record)] }
      { m with keyRevocations := s.operatorKeyRevocations ++ [(recordHash, record)] } := by
  -- no stored row is the record, and none that is of its time is the latest
  have hother : ∀ row ∈ s.operatorKeyRevocations, row.2.logId = record.logId →
      row.2.revokedPublicKey = record.revokedPublicKey →
      row.2.revocationTimestamp = record.revocationTimestamp →
      ∃ later ∈ s.operatorKeyRevocations, later.2.logId = record.logId ∧
        later.2.revokedPublicKey = record.revokedPublicKey ∧
        record.revocationTimestamp < later.2.revocationTimestamp := by
    intro row hrow hlog hkey htime
    refine ((halike row hrow).2 hlog hkey htime).resolve_left fun hsame => hnew ?_
    have hid := h.revocationIds row hrow
    rw [hsame, hhash] at hid
    exact Except.ok.inj hid ▸ List.mem_map_of_mem hrow
  refine ⟨h.keyRotations, rfl, ?_, ?_⟩
  · intro row hrow
    rcases List.mem_append.1 hrow with hrow | hrow
    · exact h.revocationIds row hrow
    · rw [List.mem_singleton.1 hrow]
      exact hhash
  · intro a ha b hb hlog hkey htime hlatest
    rcases List.mem_append.1 ha with ha | ha
    · rcases List.mem_append.1 hb with hb | hb
      · exact h.latestUnique a ha b hb hlog hkey htime fun c hc =>
          hlatest c (List.mem_append_left _ hc)
      · rw [List.mem_singleton.1 hb] at hlog hkey htime
        obtain ⟨later, hin, hlog', hkey', hlt⟩ := hother a ha hlog hkey htime
        have hle := hlatest later (List.mem_append_left _ hin) (hlog'.trans hlog.symm)
          (hkey'.trans hkey.symm)
        exact absurd (lt_of_lt_of_le hlt hle) (by rw [htime]; exact lt_irrefl _)
    · rcases List.mem_append.1 hb with hb | hb
      · rw [List.mem_singleton.1 ha] at hlog hkey htime hlatest
        obtain ⟨later, hin, hlog', hkey', hlt⟩ := hother b hb hlog.symm hkey.symm htime.symm
        exact absurd hlt (not_lt.2 (hlatest later (List.mem_append_left _ hin) hlog' hkey'))
      · rw [List.mem_singleton.1 ha, List.mem_singleton.1 hb]

end SameKeyRecords

/-! ## Statuses -/

namespace ObservedRoots

variable {s : ObservedRoots crypto} {logId key : String} {time : Int}

theorem logId_of_status {row : OperatorStatus} (h : s.status logId = some row) : row.logId = logId :=
  of_decide_eq_true (List.find?_some (p := fun row : OperatorStatus => decide (row.logId = logId)) h)

/-- The status of a log after an insertion that updates. -/
theorem status_upsertStatus (new : OperatorStatus) (update : OperatorStatus → OperatorStatus)
    (other : String) :
    (s.upsertStatus new update).status other =
      if other = new.logId then
        some (match s.status new.logId with
          | none => new
          | some old => { update old with logId := new.logId })
      else s.status other := by
  by_cases hother : other = new.logId
  · subst hother
    rw [if_pos rfl]
    obtain ⟨row, hrow, ⟨hnone, rfl⟩ | ⟨old, hold, rfl⟩⟩ := status_upsertStatus_self s new update
    · rw [hrow, hnone]
    · rw [hrow, hold, logId_of_status hold]
  · rw [if_neg hother, status_upsertStatus_ne (Ne.symm hother)]

end ObservedRoots

/-- Both stores answer alike about the status of every log. Only a blacklisted log has an evidence. -/
structure SameStatuses (s : SQLiteRoots crypto) (m : InMemoryRoots crypto) : Prop where
  answers : ∀ logId, m.status logId = s.operatorAnswer logId
  evidence : ∀ logId answer, m.status logId = some answer → answer.status ≠ .blacklisted →
    answer.evidenceId = none

namespace SameStatuses

variable {s : SQLiteRoots crypto} {m : InMemoryRoots crypto} {logId key : String} {time : Int}

theorem status_setStatus (answer : OperatorAnswer) (other : String) :
    (m.setStatus answer).status other = if other = answer.logId then some answer else m.status other :=
  AssocList.get?_put

/-- A write of one status to both stores. -/
theorem write (h : SameStatuses s m) {new : OperatorStatus} {update : OperatorStatus → OperatorStatus}
    {evidenceIds : String → Option String} {answer : OperatorAnswer} (hlog : answer.logId = new.logId)
    (hothers : ∀ other, other ≠ new.logId → evidenceIds other = s.evidenceIds other)
    (hanswer : answer = ⟨match s.status new.logId with
        | none => new
        | some old => { update old with logId := new.logId }, evidenceIds new.logId⟩)
    (hevidence : answer.status ≠ .blacklisted → answer.evidenceId = none) :
    SameStatuses ⟨s.toObservedRoots.upsertStatus new update, evidenceIds⟩ (m.setStatus answer) := by
  constructor
  · intro other
    have hold := h.answers other
    unfold SQLiteRoots.operatorAnswer at *
    rw [status_setStatus, ObservedRoots.status_upsertStatus, hlog]
    by_cases hother : other = new.logId
    · rw [if_pos hother, if_pos hother, hother, hanswer]
      rfl
    · rw [if_neg hother, if_neg hother, hold]
      simp only [hothers other hother]
  · intro other found hfound
    rw [status_setStatus] at hfound
    split at hfound
    · exact Option.some.inj hfound ▸ hevidence
    · exact h.evidence other found hfound

theorem markActive (h : SameStatuses s m) :
    SameStatuses ⟨s.toObservedRoots.markActive logId key time, Function.update s.evidenceIds logId none⟩
      (m.markActive logId key time) := by
  refine h.write rfl (fun other hother => Function.update_of_ne (show other ≠ logId from hother) _ _)
    ?_ fun _ => rfl
  rw [Function.update_self]
  cases s.status logId <;> rfl

theorem markBlacklisted {reason evidenceId : String} (h : SameStatuses s m)
    (hlast : ∀ row, s.status logId = some row → row.lastSuccessfulConsistencyAt = none) :
    SameStatuses ⟨s.toObservedRoots.markBlacklisted logId key reason time,
        Function.update s.evidenceIds logId (some evidenceId)⟩
      (m.markBlacklisted logId key reason evidenceId time) := by
  refine h.write rfl (fun other hother => Function.update_of_ne (show other ≠ logId from hother) _ _)
    ?_ fun hstatus => absurd rfl hstatus
  rw [Function.update_self]
  cases hstatus : s.status logId with
  | none => rfl
  | some old => simp [hlast old hstatus]

/-- What the memory has of a log that the database has a row of. -/
theorem status_eq_some (h : SameStatuses s m) {row : OperatorStatus} (hrow : s.status logId = some row) :
    m.status logId = some ⟨row, s.evidenceIds logId⟩ := by
  rw [h.answers, SQLiteRoots.operatorAnswer, hrow]
  rfl

theorem markUnresponsive {reason : String} (h : SameStatuses s m)
    (hkept : ∀ row, s.status logId = some row → row.status = .blacklisted →
      row.operatorPublicKey = key ∧ row.reason = some reason ∧ row.updatedAt = time) :
    SameStatuses ⟨s.toObservedRoots.markUnresponsive logId key reason time,
        if (s.status logId).isSome then s.evidenceIds
        else Function.update s.evidenceIds logId none⟩
      (m.markUnresponsive logId key reason time) := by
  cases hstatus : s.status logId with
  | none =>
    have hnone : m.status logId = none := by
      rw [h.answers, SQLiteRoots.operatorAnswer, hstatus]
      rfl
    unfold InMemoryRoots.markUnresponsive
    rw [hnone]
    refine h.write rfl (fun other hother => Function.update_of_ne (show other ≠ logId from hother) _ _)
      ?_ fun _ => rfl
    simp [hstatus]
  | some old =>
    have hsome := h.status_eq_some hstatus
    rw [Option.isSome_some, if_pos rfl]
    by_cases hblack : old.status = .blacklisted
    · -- the row of a blacklisted operator is written with what it holds
      obtain ⟨hkey, hreason, htime⟩ := hkept old hstatus hblack
      have hsame : m.markUnresponsive logId key reason time = m := by
        unfold InMemoryRoots.markUnresponsive
        rw [hsome, if_pos (by simp [hblack])]
      rw [hsame]
      refine ⟨fun other => ?_, h.evidence⟩
      rw [h.answers other]
      unfold SQLiteRoots.operatorAnswer ObservedRoots.markUnresponsive
      rw [ObservedRoots.status_upsertStatus]
      by_cases hother : other = logId
      · subst hother
        have hlog := ObservedRoots.logId_of_status hstatus
        rw [if_pos rfl, hstatus]
        simp only [Option.map_some, hblack, ← hkey, ← hreason, ← htime]
        rw [← hlog]
        obtain ⟨_, _, _, _, _, _⟩ := old
        cases hblack
        rfl
      · rw [if_neg hother]
    · unfold InMemoryRoots.markUnresponsive
      rw [hsome, if_neg (by simp [hblack])]
      refine h.write rfl (fun _ _ => rfl) ?_ fun _ => rfl
      have hnone : s.evidenceIds logId = none := h.evidence logId _ hsome hblack
      simp [hstatus, hblack, hnone]

end SameStatuses

/-! ## The two stores side by side -/

/-- The database and the memory, each after the same calls. -/
structure StorePair (crypto : Crypto) where
  database : SQLiteRoots crypto
  memory : InMemoryRoots crypto

namespace StorePair

def empty : StorePair crypto := ⟨SQLiteRoots.empty, InMemoryRoots.empty⟩

/-- One call to both stores. -/
def step (acceptLegacy : Bool) (pair : StorePair crypto) (c : StoreCall crypto) :
    Option (StorePair crypto) :=
  some ⟨pair.database.apply acceptLegacy c, pair.memory.apply acceptLegacy c⟩

/-- Both stores give the same answers. -/
structure SameAnswers (pair : StorePair crypto) : Prop where
  latestRoot : ∀ logId, pair.memory.latestRoot logId = pair.database.latestRoot logId
  observedPosition : ∀ logId, pair.memory.observedPosition logId = pair.database.observedPosition logId
  rootsForLog : ∀ logId root,
    root ∈ pair.memory.rootsForLog logId ↔ root ∈ pair.database.rootsForLog logId
  findEquivocation : ∀ root,
    (pair.memory.findEquivocation root).isSome = (pair.database.findEquivocation root).isSome
  status : ∀ logId, pair.memory.status logId = pair.database.operatorAnswer logId
  keyRotationsForLog : ∀ logId,
    pair.memory.keyRotationsForLog logId = pair.database.keyRotationsForLog logId
  keyRevocationForKey : ∀ logId publicKey,
    pair.memory.keyRevocationForKey logId publicKey = pair.database.keyRevocationForKey logId publicKey

/-- The invariant: both stores hold the same rows. -/
structure SameRows (pair : StorePair crypto) : Prop where
  roots : SameRoots pair.database.toObservedRoots pair.memory
  records : SameKeyRecords pair.database.toObservedRoots pair.memory
  statuses : SameStatuses pair.database pair.memory

variable {pair next : StorePair crypto} {acceptLegacy : Bool}

theorem sameRows_empty : (empty : StorePair crypto).SameRows where
  roots := by
    refine ⟨rfl, rfl, rfl, .nil, ?_⟩
    rintro a b (⟨row, hrow, -⟩ | ⟨row, hrow, -⟩)
    · exact nomatch hrow
    · exact nomatch hrow
  records := ⟨rfl, rfl, fun _ h => (nomatch h), fun _ h => (nomatch h)⟩
  statuses := ⟨fun _ => rfl, fun _ _ h => nomatch h⟩

/-- Stores with the same rows give the same answers. -/
theorem SameRows.sameAnswers (h : pair.SameRows) : pair.SameAnswers where
  latestRoot := h.roots.latestRoot_eq
  observedPosition := h.roots.observedPosition_eq
  rootsForLog _ _ := h.roots.mem_rootsForLog
  findEquivocation := h.roots.isSome_findEquivocation
  status := h.statuses.answers
  keyRotationsForLog := h.records.keyRotationsForLog_eq
  keyRevocationForKey := h.records.keyRevocationForKey_eq

theorem upsertStatus_spec (s : ObservedRoots crypto) (new : OperatorStatus)
    (update : OperatorStatus → OperatorStatus) :
    ∃ rows, s.upsertStatus new update = { s with operatorStatus := rows } := by
  unfold ObservedRoots.upsertStatus
  split <;> exact ⟨_, rfl⟩

/-- A write of a status leaves roots and key records alone. -/
theorem SameRows.setStatus {s : SQLiteRoots crypto} {m : InMemoryRoots crypto}
    (h : SameRows ⟨s, m⟩) {new : OperatorStatus} {update : OperatorStatus → OperatorStatus}
    {evidenceIds : String → Option String} {m' : InMemoryRoots crypto}
    (hm : ∃ statuses, m' = { m with statuses := statuses })
    (hstatuses : SameStatuses ⟨s.toObservedRoots.upsertStatus new update, evidenceIds⟩ m') :
    SameRows ⟨⟨s.toObservedRoots.upsertStatus new update, evidenceIds⟩, m'⟩ := by
  obtain ⟨rows, hs⟩ := upsertStatus_spec s.toObservedRoots new update
  obtain ⟨statuses, rfl⟩ := hm
  obtain ⟨hroots, hrecords, -⟩ := h
  refine ⟨?_, ?_, hstatuses⟩
  · change SameRoots (s.toObservedRoots.upsertStatus new update) _
    rw [hs]
    exact ⟨hroots.1, hroots.2, hroots.3, hroots.4, hroots.5⟩
  · change SameKeyRecords (s.toObservedRoots.upsertStatus new update) _
    rw [hs]
    exact ⟨hrecords.1, hrecords.2, hrecords.3, hrecords.4⟩

section Calls

variable {s t : SQLiteRoots crypto} {m n : InMemoryRoots crypto} {c : StoreCall crypto}

/-- A call that returns in both stores. -/
theorem SameRows.of_ok (h : SameRows ⟨t, n⟩) (hs : s.call acceptLegacy c = .ok t)
    (hm : m.call acceptLegacy c = .ok n) :
    SameRows ⟨s.apply acceptLegacy c, m.apply acceptLegacy c⟩ := by
  unfold SQLiteRoots.apply InMemoryRoots.apply
  rw [hs, hm]
  exact h

/-- A call that raises in both stores. -/
theorem SameRows.of_error (h : SameRows ⟨s, m⟩) {e : String} (hs : s.call acceptLegacy c = .error e)
    (hm : m.call acceptLegacy c = .error e) :
    SameRows ⟨s.apply acceptLegacy c, m.apply acceptLegacy c⟩ := by
  unfold SQLiteRoots.apply InMemoryRoots.apply
  rw [hs, hm]
  exact h

end Calls

/-- A call that both stores treat alike keeps their rows the same. -/
theorem SameRows.step (h : pair.SameRows) {c : StoreCall crypto}
    (halike : pair.database.toObservedRoots.TreatedAlike c)
    (hstep : pair.step acceptLegacy c = some next) : next.SameRows := by
  obtain ⟨s, m⟩ := pair
  have hboth := h
  obtain ⟨hroots, hrecords, hstatuses⟩ := h
  cases hstep
  cases c with
  | recordRoot root sourceIdentity =>
    have hids := hroots.ids_insert halike (t := s.recordRoot root sourceIdentity)
      fun _ => ObservedRoots.stores_recordRoot
    obtain ⟨rows, hs, hm⟩ := hroots.recordRoot_alike root sourceIdentity
    change SameRows ⟨⟨s.recordRoot root sourceIdentity, s.evidenceIds⟩,
      m.recordRoot root sourceIdentity⟩
    rw [hs] at hids ⊢
    rw [hm]
    exact ⟨⟨rfl, hroots.2, hroots.3, hroots.4, hids⟩, ⟨hrecords.1, hrecords.2, hrecords.3, hrecords.4⟩,
      hstatuses.1, hstatuses.2⟩
  | recordPeerRoot root peerId receivedAt cap total =>
    have hids := hroots.ids_insert halike.1 (t := s.recordPeerRoot root peerId receivedAt cap total)
      fun _ => ObservedRoots.stores_recordPeerRoot
    obtain ⟨rows, hs, hm, hkeys⟩ := hroots.recordPeerRoot_alike halike.2
    change SameRows ⟨⟨s.recordPeerRoot root peerId receivedAt cap total, s.evidenceIds⟩,
      m.recordPeerRoot root peerId receivedAt cap total⟩
    rw [hs] at hids ⊢
    rw [hm]
    exact ⟨⟨hroots.1, rfl, hroots.3, hkeys, hids⟩, ⟨hrecords.1, hrecords.2, hrecords.3, hrecords.4⟩,
      hstatuses.1, hstatuses.2⟩
  | saveEquivocationEvidence row =>
    have hcall : s.call acceptLegacy (.saveEquivocationEvidence row) = (row.checkCollisionType >>=
        fun _ => s.saveEquivocationEvidence acceptLegacy row) >>= fun saved =>
          pure ⟨saved, s.evidenceIds⟩ := (bind_assoc _ _ _).symm
    obtain ⟨e, hs, hm⟩ | ⟨rows, hs, hm⟩ := hroots.saveEquivocationEvidence_alike acceptLegacy row
    · rw [hs] at hcall
      exact hboth.of_error hcall hm
    · rw [hs] at hcall
      refine SameRows.of_ok ?_ hcall hm
      refine ⟨?_, ?_, hstatuses.1, hstatuses.2⟩
      · exact ⟨hroots.1, hroots.2, rfl, hroots.4, hroots.5⟩
      · exact ⟨hrecords.1, hrecords.2, hrecords.3, hrecords.4⟩
  | markActive logId key checkedAt => exact hboth.setStatus ⟨_, rfl⟩ hstatuses.markActive
  | markUnresponsive logId key reason updatedAt =>
    refine hboth.setStatus ?_ (hstatuses.markUnresponsive halike)
    change ∃ statuses, m.markUnresponsive logId key reason updatedAt = _
    unfold InMemoryRoots.markUnresponsive
    split
    · exact ⟨m.statuses, rfl⟩
    · exact ⟨_, rfl⟩
  | markBlacklisted logId key reason evidenceId updatedAt =>
    exact hboth.setStatus ⟨_, rfl⟩ (hstatuses.markBlacklisted halike)
  | recordKeyRotation record =>
    have hcall : s.call acceptLegacy (.recordKeyRotation record) = s.recordKeyRotation record >>=
        fun saved => pure ⟨saved, s.evidenceIds⟩ := rfl
    obtain ⟨e, hs, hm⟩ | ⟨rows, hs, hm⟩ := hrecords.recordKeyRotation_alike record
    · rw [hs] at hcall
      exact hboth.of_error hcall hm
    · rw [hs] at hcall
      refine SameRows.of_ok ?_ hcall hm
      refine ⟨?_, ?_, hstatuses.1, hstatuses.2⟩
      · exact ⟨hroots.1, hroots.2, hroots.3, hroots.4, hroots.5⟩
      · exact ⟨rfl, hrecords.2, hrecords.3, hrecords.4⟩
  | recordKeyRevocation record =>
    have hcall : s.call acceptLegacy (.recordKeyRevocation record) = s.recordKeyRevocation record >>=
        fun saved => pure ⟨saved, s.evidenceIds⟩ := rfl
    obtain ⟨e, hs, hm⟩ | ⟨rows, hs, hm, hrows⟩ := hrecords.recordKeyRevocation_alike halike
    · rw [hs] at hcall
      exact hboth.of_error hcall hm
    · rw [hs] at hcall
      refine SameRows.of_ok ?_ hcall hm
      refine ⟨?_, ?_, hstatuses.1, hstatuses.2⟩
      · exact ⟨hroots.1, hroots.2, hroots.3, hroots.4, hroots.5⟩
      · rcases hrows with rfl | ⟨recordHash, hhash, hnew, rfl⟩
        · exact ⟨hrecords.1, rfl, hrecords.3, hrecords.4⟩
        · exact hrecords.append_revocation halike hhash hnew

/-- **The two stores give the same answers after every sequence of calls that both treat alike.** -/
theorem sameAnswers_of_reaches (acceptLegacy : Bool) {pair : StorePair crypto}
    (h : Runs.Reaches (step acceptLegacy) (fun pair c => pair.database.toObservedRoots.TreatedAlike c)
      empty pair) : pair.SameAnswers :=
  (h.invariant (fun _ _ _ hrows halike hstep => hrows.step halike hstep) sameRows_empty).sameAnswers

/-! ## Two runs -/

/-- A root is seen on a mirror and then sent by a peer. -/
theorem sameAnswers_observedRoot : ∃ (root : MirroredRoot MirroredBundles.parityCrypto)
    (pair : StorePair MirroredBundles.parityCrypto),
    pair.memory.latestRoot root.logId = some root ∧ pair.SameAnswers := by
  obtain ⟨root, -⟩ := VerifierClient.exists_oneLeafRoot
  let pair : StorePair MirroredBundles.parityCrypto :=
    ⟨⟨{ ObservedRoots.empty with observedRoots := [⟨root, "mirror-a"⟩] }, fun _ => none⟩,
      { InMemoryRoots.empty with roots := [⟨root, "mirror-a"⟩] }⟩
  have hfirst : step true empty (.recordRoot root "mirror-a") = some pair := rfl
  have hnew : (empty : StorePair MirroredBundles.parityCrypto).database.toObservedRoots.TreatedAlike
      (.recordRoot root "mirror-a") := by
    rintro stored (⟨row, hrow, -⟩ | ⟨row, hrow, -⟩)
    · exact nomatch hrow
    · exact nomatch hrow
  have hfree : pair.database.toObservedRoots.IdFree root := by
    rintro stored (⟨row, hrow, hroot⟩ | ⟨row, hrow, -⟩) -
    · rw [List.mem_singleton.1 hrow] at hroot
      exact hroot.symm
    · exact nomatch hrow
  have hprune : pair.database.toObservedRoots.PeerRootAlike root "peer" 5 1 none := by
    refine ⟨Or.inr (Or.inl ?_), fun _ h => (nomatch h)⟩
    exact_mod_cast List.length_filter_le _ _
  have hrows : pair.SameRows := sameRows_empty.step hnew hfirst
  obtain ⟨rows, -, hm, -⟩ := hrows.roots.recordPeerRoot_alike hprune
  have halike : pair.database.toObservedRoots.TreatedAlike (.recordPeerRoot root "peer" 5 1 none) :=
    ⟨hfree, hprune⟩
  have hsecond : step true pair (.recordPeerRoot root "peer" 5 1 none) =
      some ⟨pair.database.apply true (.recordPeerRoot root "peer" 5 1 none),
        pair.memory.recordPeerRoot root "peer" 5 1 none⟩ := rfl
  have hreaches : Runs.Reaches (step true)
      (fun pair c => pair.database.toObservedRoots.TreatedAlike c) empty _ :=
    Runs.Reaches.next (Runs.Reaches.refl.next hnew hfirst) halike hsecond
  refine ⟨root, _, ?_, sameAnswers_of_reaches true hreaches⟩
  change (pair.memory.recordPeerRoot root "peer" 5 1 none).latestRoot root.logId = some root
  rw [hm]
  change (Select.orderBy _ ([root].filter fun root' => root'.logId = root.logId)).getLast? = some root
  simp [Select.orderBy]

/-- An operator that was checked is blacklisted: the database remembers the time of the check. -/
theorem not_sameAnswers : ¬ ∀ (crypto : Crypto) (acceptLegacy : Bool) (pair : StorePair crypto),
    Runs.Reaches (step acceptLegacy) (fun _ _ => True) empty pair → pair.SameAnswers := by
  intro hall
  have hexec : Runs.exec (step true) (empty : StorePair sampleCrypto)
      [.markActive "a" "key" 10, .markBlacklisted "a" "key" "offline" "e" 20] = some _ := rfl
  have hstatus := (hall sampleCrypto true _ (Runs.reaches_of_exec hexec
    (Runs.meetsAll_of_forall fun _ _ _ => trivial))).status "a"
  exact absurd hstatus (by decide)

end StorePair
