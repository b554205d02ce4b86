import InternationalDollar.Lib.Runs
import InternationalDollar.RootVerifier

set_option autoImplicit false

/-! # Bundles on mirrored roots (`proof_bundle_v3`, `store`)

A proof bundle is built on the root that the mirrors call current, and is checked against the root
that the mirrors record for the bundle's time. The two files of a mirror differ on heartbeat roots,
which an operator signs over an unchanged tree: they become `latest.json` and stay out of the history.
`verifiable_of_reaches` says that bundles stay verifiable in every run in which each bundle is built
on the root that the mirrors recorded first for its tree state; `not_verifiable_heartbeat` is a run
with a bundle on a heartbeat. -/

/-! ## The operator -/

/-- An honest operator: its roots have strictly increasing times, commit to one tree of each size,
    and are signed with its key. No two of them share an id. -/
structure HonestOperator (crypto : Crypto) where
  publicKey : String
  roots : List (MirroredRoot crypto)
  increasing : roots.Pairwise fun a b => a.timestamp < b.timestamp
  appendOnly : ∀ a ∈ roots, ∀ b ∈ roots, a.treeSize = b.treeSize → a.fingerprint = b.fingerprint
  id_inj : ∀ a ∈ roots, ∀ b ∈ roots, a.id = b.id → a = b
  verified : ∀ root ∈ roots, ∀ acceptLegacy,
    root.verifySignedRoot crypto acceptLegacy none = .ok ()
  signer : ∀ root ∈ roots, root.logId = logIdFromPublicKey crypto publicKey ∧
    Text.strip root.operatorPublicKey = Text.strip publicKey

namespace HonestOperator

variable {crypto : Crypto} {operator : HonestOperator crypto}

theorem eq_of_timestamp {a b : MirroredRoot crypto} (ha : a ∈ operator.roots)
    (hb : b ∈ operator.roots) (h : a.timestamp = b.timestamp) : a = b := by
  have hnodup : (operator.roots.map fun root => root.timestamp).Nodup :=
    List.pairwise_map.2 (operator.increasing.imp fun hlt => ne_of_lt hlt)
  exact List.inj_on_of_nodup_map hnodup ha hb h

end HonestOperator

/-! ## A verifier that follows the operator -/

namespace RootVerifier

variable {crypto : Crypto} {operator : HonestOperator crypto} {verifier : RootVerifier crypto}

/-- The verifier expects the operator's key or none, has seen no roots but the operator's, has not
    blacklisted it, and gets consistency proofs from it. -/
structure Follows (verifier : RootVerifier crypto) (operator : HonestOperator crypto) : Prop where
  key : ∀ key ∈ verifier.operatorPublicKey, key = "" ∨ key = operator.publicKey
  observed : ∀ row ∈ verifier.observed, row.2 ∈ operator.roots
  trusted : ∀ root ∈ operator.roots, root.logId ∉ verifier.blacklisted
  consistent : ∀ a ∈ operator.roots, ∀ b ∈ operator.roots, a.treeSize < b.treeSize →
    verifier.consistent a b = true

theorem Follows.verify_lineage (h : verifier.Follows operator) {root : MirroredRoot crypto}
    (hroot : root ∈ operator.roots) : verifier.verifySignedRootForLineage root = .ok () := by
  rw [verifySignedRootForLineage, operator.verified root hroot, Check.ok_bind]
  split
  · rfl
  · next key hkey =>
    refine Check.require_of ?_ _
    rcases h.key key hkey with rfl | rfl
    · exact Or.inl rfl
    · exact Or.inr (operator.signer root hroot)

variable (operator) in
theorem detectMirrorDisagreement_eq_ok {acceptLegacy : Bool}
    {seen roots : List (MirroredRoot crypto)} (hseen : ∀ root ∈ seen, root ∈ operator.roots)
    (hroots : ∀ root ∈ roots, root ∈ operator.roots) :
    detectMirrorDisagreement acceptLegacy seen roots = .ok () := by
  induction roots generalizing seen with
  | nil => rfl
  | cons root rest ih =>
    obtain ⟨hroot, hrest⟩ := List.forall_mem_cons.1 hroots
    rw [detectMirrorDisagreement, operator.verified root hroot, Check.ok_bind, Check.require_of,
      Check.ok_bind, Check.require_of, Check.ok_bind]
    · exact ih (List.forall_mem_cons.2 ⟨hroot, hseen⟩) hrest
    · intro previous hprevious
      have hmem := hseen previous (List.mem_of_find?_eq_some hprevious)
      have hkey := List.find?_some hprevious
      exact operator.appendOnly previous hmem root hroot (of_decide_eq_true hkey).2
    · intro previous hprevious
      have hmem := hseen previous (List.mem_of_find?_eq_some hprevious)
      have hkey := List.find?_some hprevious
      rw [operator.eq_of_timestamp hmem hroot (of_decide_eq_true hkey).2]

theorem equivocationCollisionType_eq_none {a b : MirroredRoot crypto} (ha : a ∈ operator.roots)
    (hb : b ∈ operator.roots) : equivocationCollisionType a b = none := by
  have htree : ¬ (a.treeSize = b.treeSize ∧ a.fingerprint ≠ b.fingerprint) :=
    fun h => h.2 (operator.appendOnly a ha b hb h.1)
  have htime : ¬ (a.timestamp = b.timestamp ∧ a.fingerprint ≠ b.fingerprint) :=
    fun h => h.2 (by rw [operator.eq_of_timestamp ha hb h.1])
  simp only [equivocationCollisionType, if_neg htree, if_neg htime, ite_self]

theorem Follows.recordRoot (h : verifier.Follows operator) {root : MirroredRoot crypto}
    (hroot : root ∈ operator.roots) (source : Nat) :
    (verifier.recordRoot source root).Follows operator := by
  unfold RootVerifier.recordRoot
  split
  · exact h
  · refine { h with observed := fun row hrow => ?_ }
    rcases List.mem_append.1 hrow with hrow | hrow
    · exact h.observed row hrow
    · rwa [List.mem_singleton.1 hrow]

theorem Follows.observeRoot (h : verifier.Follows operator) {root : MirroredRoot crypto}
    (hroot : root ∈ operator.roots) (source : Nat) :
    verifier.observeRoot source root = .ok (verifier.recordRoot source root) := by
  rw [RootVerifier.observeRoot, h.verify_lineage hroot, Check.ok_bind,
    Check.require_of (h.trusted root hroot), Check.ok_bind, Check.require_of, Check.ok_bind]
  · cases hlatest : verifier.latestObserved root.logId with
    | none => rfl
    | some previous =>
      have hprevious : previous ∈ operator.roots := by
        have hmem := List.argmax_mem hlatest
        rw [List.mem_reverse] at hmem
        obtain ⟨row, hrow, rfl⟩ := List.mem_map.1 (List.mem_of_mem_filter hmem)
        exact h.observed row hrow
      have hhash : previous.treeSize = root.treeSize → previous.rootHash = root.rootHash := by
        intro hsize
        have hfingerprint := operator.appendOnly previous hprevious root hroot hsize
        simp only [MirroredRoot.fingerprint, Prod.mk.injEq] at hfingerprint
        exact hfingerprint.2.1
      simp only [Check.require_of hhash, Check.ok_bind,
        Check.require_of (h.consistent previous hprevious root hroot),
        Check.require_of (h.consistent root hroot previous hprevious)]
      rfl
  · exact fun row hrow => equivocationCollisionType_eq_none (h.observed row hrow) hroot

theorem Follows.observeRoots (h : verifier.Follows operator)
    {roots : List (Nat × MirroredRoot crypto)} (hroots : ∀ row ∈ roots, row.2 ∈ operator.roots) :
    ∃ verifier', verifier.observeRoots roots = .ok verifier' := by
  induction roots generalizing verifier with
  | nil => exact ⟨_, rfl⟩
  | cons row rest ih =>
    obtain ⟨hrow, hrest⟩ := List.forall_mem_cons.1 hroots
    obtain ⟨verifier', hok⟩ := ih (h.recordRoot hrow row.1) hrest
    refine ⟨verifier', ?_⟩
    rw [RootVerifier.observeRoots, h.observeRoot hrow, Check.ok_bind]
    exact hok

/-- A mirror whose history holds a root, and only roots of the operator, finds it at its time. -/
theorem rootAt_timestamp {mirror : RootMirror crypto} {root : MirroredRoot crypto}
    (hsigned : ∀ item ∈ mirror.history, item ∈ operator.roots) (hroot : root ∈ mirror.history) :
    mirror.rootAt root.timestamp = .ok root := by
  have hmem : root ∈ mirror.history.filter fun item => root.timestamp ≤ item.timestamp :=
    List.mem_filter.2 ⟨hroot, decide_eq_true le_rfl⟩
  obtain ⟨found, hfound⟩ : ∃ found, (mirror.history.filter fun item =>
      root.timestamp ≤ item.timestamp).argmin MirroredRoot.order = some found := by
    refine Option.ne_none_iff_exists'.1 fun hnone => ?_
    rw [List.argmin_eq_none.1 hnone] at hmem
    exact List.not_mem_nil hmem
  have hle := MirroredRoot.timestamp_le_of_order (List.le_of_mem_argmin hmem hfound)
  obtain ⟨hin, hge⟩ := List.mem_filter.1 (List.argmin_mem hfound)
  have heq := operator.eq_of_timestamp (hsigned found hin) (hsigned root hroot)
    (le_antisymm hle (of_decide_eq_true hge))
  rw [RootMirror.rootAt, hfound, heq]
  rfl

variable {mirrors : List (RootMirror crypto)} {root : MirroredRoot crypto} {leafIndex : Int}

/-- Answers that are all one root of the operator agree and are observed. -/
theorem Follows.agree (h : verifier.Follows operator) (hroot : root ∈ operator.roots)
    {rows : List (Nat × MirroredRoot crypto)} (hall : ∀ row ∈ rows, row.2 = root) :
    detectMirrorDisagreement verifier.acceptLegacy [] (rows.map Prod.snd) = .ok () ∧
      ∃ verifier', verifier.observeRoots rows = .ok verifier' := by
  have hmem : ∀ row ∈ rows, row.2 ∈ operator.roots := fun row hrow => by rwa [hall row hrow]
  refine ⟨detectMirrorDisagreement_eq_ok operator (fun _ hseen => absurd hseen List.not_mem_nil) ?_,
    h.observeRoots hmem⟩
  intro item hitem
  obtain ⟨row, hrow, rfl⟩ := List.mem_map.1 hitem
  exact hmem row hrow

/-- A choice from several copies of one root is that root. -/
theorem choice_of_all {rows : List (Nat × MirroredRoot crypto)} {choice : Option (MirroredRoot crypto)}
    (hpos : 0 < rows.length) (hall : ∀ row ∈ rows, row.2 = root)
    (hnone : choice = none → rows.map Prod.snd = [])
    (hmem : ∀ item ∈ choice, item ∈ rows.map Prod.snd) : choice = some root := by
  cases choice with
  | none =>
    rw [List.map_eq_nil_iff.1 (hnone rfl)] at hpos
    exact absurd hpos (lt_irrefl 0)
  | some found =>
    obtain ⟨row, hrow, rfl⟩ := List.mem_map.1 (hmem found rfl)
    rw [hall row hrow]

/-- The verifier's settings fit its mirrors. -/
structure Configured (verifier : RootVerifier crypto) (mirrors : List (RootMirror crypto)) :
    Prop where
  minMirrors_pos : 1 ≤ verifier.minMirrors
  minMirrors_le : verifier.minMirrors ≤ mirrors.length
  maxRootLagSeconds_nonneg : 0 ≤ verifier.maxRootLagSeconds

theorem Follows.rootContainingLeaf (h : verifier.Follows operator)
    (hlag : 0 ≤ verifier.maxRootLagSeconds) {mirror : RootMirror crypto}
    (hsigned : ∀ item ∈ mirror.history, item ∈ operator.roots) (hroot : root ∈ mirror.history)
    (hleaf : leafIndex < root.treeSize) (turns : Nat) :
    verifier.rootContainingLeaf mirror root.timestamp (leafIndex + 1) (turns + 1) root.timestamp []
      = .ok root := by
  rw [RootVerifier.rootContainingLeaf, rootAt_timestamp hsigned hroot, Check.ok_bind,
    h.verify_lineage (hsigned root hroot), Check.ok_bind, Check.require_of List.not_mem_nil,
    Check.ok_bind, Int.sub_self, Check.require_of le_rfl, Check.ok_bind, Check.require_of hlag,
    Check.ok_bind, if_pos (show leafIndex + 1 ≤ root.treeSize by omega)]
  rfl

/-- Mirrors that all record a root, and only roots of the operator, give that root for each leaf
    below its size. -/
theorem Follows.mirroredRootContainingLeaf (h : verifier.Follows operator)
    (hconfigured : verifier.Configured mirrors)
    (hsigned : ∀ mirror ∈ mirrors, ∀ item ∈ mirror.history, item ∈ operator.roots)
    (hroot : ∀ mirror ∈ mirrors, root ∈ mirror.history) (hleaf : leafIndex < root.treeSize) :
    ∃ verifier', verifier.mirroredRootContainingLeaf mirrors root.timestamp leafIndex
      = .ok (root, verifier') := by
  have hroots : verifier.rootsContainingLeaf mirrors root.timestamp leafIndex
      = mirrors.zipIdx.map fun place => (place.2, root) := by
    rw [rootsContainingLeaf, ← List.filterMap_eq_map]
    refine List.filterMap_congr fun place hplace => ?_
    have hmirror : place.1 ∈ mirrors := List.fst_mem_of_mem_zipIdx hplace
    simp only [h.rootContainingLeaf hconfigured.maxRootLagSeconds_nonneg (hsigned _ hmirror)
      (hroot _ hmirror) hleaf]
    rfl
  have hlength : (verifier.rootsContainingLeaf mirrors root.timestamp leafIndex).length
      = mirrors.length := by
    rw [hroots, List.length_map, List.length_zipIdx]
  have hpos : 0 < mirrors.length :=
    lt_of_lt_of_le hconfigured.minMirrors_pos hconfigured.minMirrors_le
  have hall : ∀ row ∈ verifier.rootsContainingLeaf mirrors root.timestamp leafIndex,
      row.2 = root := by
    intro row hrow
    rw [hroots] at hrow
    obtain ⟨place, -, rfl⟩ := List.mem_map.1 hrow
    rfl
  have hoperator : root ∈ operator.roots := by
    have hmirror := List.getElem_mem hpos
    exact hsigned _ hmirror root (hroot _ hmirror)
  obtain ⟨hagree, verifier', hobserve⟩ := h.agree hoperator hall
  have hfirst := choice_of_all (hlength.symm ▸ hpos) hall
    (List.argmin_eq_none (f := MirroredRoot.order)).1 fun _ hitem => List.argmin_mem hitem
  refine ⟨verifier', ?_⟩
  simp only [RootVerifier.mirroredRootContainingLeaf, hlength,
    Check.require_of hconfigured.minMirrors_le, hagree, hobserve, hfirst, Check.ofOption,
    Check.ok_bind]
  rfl

theorem Follows.currentRoot (h : verifier.Follows operator) (hroot : root ∈ operator.roots)
    {mirror : RootMirror crypto} {now : Int} (hlatest : mirror.latest = some root)
    (hfresh : verifier.validateCurrentRootFreshness root now = .ok ())
    (hlater : ∀ row ∈ verifier.observed,
      row.2.treeSize ≤ root.treeSize ∧ row.2.timestamp ≤ root.timestamp) :
    verifier.currentRoot mirror now = .usable root := by
  have hrows : ∀ row ∈ (verifier.observed.map Prod.snd).filter fun row => row.logId = root.logId,
      row.treeSize ≤ root.treeSize ∧ row.timestamp ≤ root.timestamp := by
    intro row hrow
    obtain ⟨place, hplace, rfl⟩ := List.mem_map.1 (List.mem_of_mem_filter hrow)
    exact hlater place hplace
  have hsize : ¬ ((verifier.observed.map Prod.snd).filter fun row => row.logId = root.logId).any
      fun row => root.treeSize < row.treeSize := by
    intro hany
    obtain ⟨row, hrow, hlt⟩ := List.any_eq_true.1 hany
    exact not_lt.2 (hrows row hrow).1 (of_decide_eq_true hlt)
  have htime : ¬ ((verifier.observed.map Prod.snd).filter fun row => row.logId = root.logId).any
      fun row => root.timestamp < row.timestamp := by
    intro hany
    obtain ⟨row, hrow, hlt⟩ := List.any_eq_true.1 hany
    exact not_lt.2 (hrows row hrow).2 (of_decide_eq_true hlt)
  have hfound : mirror.latestRoot = .ok root := by rw [RootMirror.latestRoot, hlatest]
  have hpure : (pure root : Except String (MirroredRoot crypto)) = .ok root := rfl
  simp only [RootVerifier.currentRoot, hfound, h.verify_lineage hroot, hfresh, Check.ok_bind, hpure,
    if_neg hsize, if_neg htime]

/-- Where all mirrors show one fresh root of the operator, a verifier takes it. -/
theorem Follows.currentMirroredRoot (h : verifier.Follows operator)
    (hconfigured : verifier.Configured mirrors) (hroot : root ∈ operator.roots) {now : Int}
    (hlatest : ∀ mirror ∈ mirrors, mirror.latest = some root)
    (hfresh : verifier.validateCurrentRootFreshness root now = .ok ())
    (hlater : ∀ row ∈ verifier.observed,
      row.2.treeSize ≤ root.treeSize ∧ row.2.timestamp ≤ root.timestamp) :
    ∃ verifier', verifier.currentMirroredRoot mirrors now = .ok (root, verifier') := by
  have hall : ∀ places : List (RootMirror crypto × Nat), (∀ place ∈ places, place.1 ∈ mirrors) →
      verifier.currentRootsOfMirrors now places = .ok (places.map fun place => (place.2, root)) := by
    intro places hplaces
    induction places with
    | nil => rfl
    | cons place rest ih =>
      obtain ⟨hplace, hrest⟩ := List.forall_mem_cons.1 hplaces
      have hcurrent := h.currentRoot hroot (hlatest place.1 hplace) hfresh hlater
      rw [currentRootsOfMirrors]
      simp only [hcurrent, ih hrest, Check.ok_bind]
      rfl
  have hroots := hall mirrors.zipIdx fun place hplace => List.fst_mem_of_mem_zipIdx hplace
  have hrows : ∀ row ∈ mirrors.zipIdx.map fun place => (place.2, root), row.2 = root := by
    intro row hrow
    obtain ⟨place, -, rfl⟩ := List.mem_map.1 hrow
    rfl
  obtain ⟨hagree, verifier', hobserve⟩ := h.agree hroot hrows
  have hlength : (mirrors.zipIdx.map fun place => (place.2, root)).length = mirrors.length := by
    rw [List.length_map, List.length_zipIdx]
  have hpos : 0 < mirrors.length :=
    lt_of_lt_of_le hconfigured.minMirrors_pos hconfigured.minMirrors_le
  have hlast := choice_of_all (hlength.symm ▸ hpos) hrows
    (fun hnone => List.reverse_eq_nil_iff.1 ((List.argmax_eq_none
      (f := fun item : MirroredRoot crypto => (toLex (item.treeSize, item.timestamp) : Int ×ₗ Int))).1
      hnone))
    fun _ hitem => List.mem_reverse.1 (List.argmax_mem hitem)
  refine ⟨verifier', ?_⟩
  simp only [RootVerifier.currentMirroredRoot, currentRootsFromMirrors, hroots, hlength,
    Check.require_of hconfigured.minMirrors_le, hagree, hobserve, Check.ok_bind]
  show Check.ofOption _ _ >>= _ = _
  rw [hlast]
  rfl

end RootVerifier

/-! ## Mirrors of the operator's roots -/

namespace RootMirror

variable {crypto : Crypto} {operator : HonestOperator crypto} {mirror : RootMirror crypto}
  {root other : MirroredRoot crypto}

/-- A mirror to which the operator's roots are published in the order of time. -/
structure Mirrors (mirror : RootMirror crypto) (operator : HonestOperator crypto) : Prop where
  history : ∀ item ∈ mirror.history, item ∈ operator.roots
  latest : ∀ item ∈ mirror.latest, item ∈ operator.roots ∧ mirror.HasState item
  last : ∀ item ∈ mirror.history, ∃ current ∈ mirror.latest, item.timestamp ≤ current.timestamp

theorem HasState.congr (h : mirror.HasState root) (hkey : root.stateKey = other.stateKey) :
    mirror.HasState other := by
  obtain ⟨item, hitem, hitemKey⟩ := h
  exact ⟨item, hitem, hitemKey.trans hkey⟩

theorem mirrors_empty : (empty : RootMirror crypto).Mirrors operator where
  history := fun _ h => absurd h List.not_mem_nil
  latest := fun _ h => nomatch h
  last := fun _ h => absurd h List.not_mem_nil

section Publish

variable {forceHistorical : Bool}

/-- Roots published in the order of time become `latest.json`. -/
theorem latest_publishRoot (horder : ∀ current ∈ mirror.latest, current.order ≤ root.order) :
    (mirror.publishRoot root forceHistorical).latest = some root := by
  unfold RootMirror.publishRoot
  cases hlatest : mirror.latest with
  | none => rfl
  | some current => exact if_pos (horder current hlatest)

theorem mem_history_publishRoot
    (h : other ∈ (mirror.publishRoot root forceHistorical).history) :
    other ∈ mirror.history ∨ other = root := by
  change other ∈ (if _ then _ else _) at h
  split at h
  · exact (List.mem_append.1 h).imp_right List.mem_singleton.1
  · exact Or.inl h

theorem mem_history_publishRoot_of_mem (h : other ∈ mirror.history) :
    other ∈ (mirror.publishRoot root forceHistorical).history := by
  show other ∈ if _ then _ else _
  split
  · exact List.mem_append_left _ h
  · exact h

/-- A root of a new tree state enters the history. -/
theorem mem_history_publishRoot_of_new (hid : ∀ item ∈ mirror.history, item.id = root.id → item = root)
    (hnew : ¬ mirror.HasState root) : root ∈ (mirror.publishRoot root forceHistorical).history := by
  have hstate : ∀ item ∈ mirror.history, item.stateKey ≠ root.stateKey :=
    fun item hitem hkey => hnew ⟨item, hitem, hkey⟩
  have hids : ¬ (mirror.history.any fun item => item.id = root.id) := by
    intro hany
    obtain ⟨item, hitem, hsame⟩ := List.any_eq_true.1 hany
    exact hstate item hitem (by rw [hid item hitem (of_decide_eq_true hsame)])
  have hstates : (mirror.history.any fun item => item.stateKey = root.stateKey) = false := by
    rw [List.any_eq_false]
    intro item hitem
    simpa using hstate item hitem
  have happend : shouldAppendHistoricalRoot root mirror.history forceHistorical = true := by
    rw [shouldAppendHistoricalRoot, if_neg hids, hstates]
    cases forceHistorical <;> rfl
  show root ∈ if _ then _ else _
  rw [if_pos happend]
  exact List.mem_append_right _ List.mem_cons_self

theorem Mirrors.publishRoot (h : mirror.Mirrors operator) (hroot : root ∈ operator.roots)
    (horder : ∀ current ∈ mirror.latest, current.order ≤ root.order) :
    (mirror.publishRoot root forceHistorical).Mirrors operator where
  history := by
    intro item hitem
    rcases mem_history_publishRoot hitem with hitem | rfl
    · exact h.history item hitem
    · exact hroot
  latest := by
    intro item hitem
    rw [latest_publishRoot horder] at hitem
    cases hitem
    refine ⟨hroot, ?_⟩
    by_cases hstate : mirror.HasState root
    · obtain ⟨item, hitem, hkey⟩ := hstate
      exact ⟨item, mem_history_publishRoot_of_mem hitem, hkey⟩
    · exact ⟨root, mem_history_publishRoot_of_new
        (fun item hitem => operator.id_inj item (h.history item hitem) root hroot) hstate, rfl⟩
  last := by
    intro item hitem
    refine ⟨root, latest_publishRoot horder, ?_⟩
    rcases mem_history_publishRoot hitem with hitem | rfl
    · obtain ⟨current, hcurrent, hle⟩ := h.last item hitem
      exact hle.trans (MirroredRoot.timestamp_le_of_order (horder current hcurrent))
    · exact le_rfl

theorem Mirrors.first_publishRoot (h : mirror.Mirrors operator)
    (horder : ∀ current ∈ mirror.latest, current.order ≤ root.order)
    (hfirst : mirror.RecordedFirst other) :
    (mirror.publishRoot root forceHistorical).RecordedFirst other := by
  refine ⟨mem_history_publishRoot_of_mem hfirst.mem, fun item hitem hkey => ?_⟩
  rcases mem_history_publishRoot hitem with hitem | rfl
  · exact hfirst.le item hitem hkey
  · obtain ⟨current, hcurrent, hle⟩ := h.last other hfirst.mem
    exact hle.trans (MirroredRoot.timestamp_le_of_order (horder current hcurrent))

/-- Publication adds at most the tree state of its root, which the mirror then records first. -/
theorem Mirrors.state_publishRoot (h : mirror.Mirrors operator) (hroot : root ∈ operator.roots)
    (hstate : (mirror.publishRoot root forceHistorical).HasState other) :
    mirror.HasState other ∨ (¬ mirror.HasState root ∧ root.stateKey = other.stateKey ∧
      (mirror.publishRoot root forceHistorical).RecordedFirst root) := by
  obtain ⟨item, hitem, hkey⟩ := hstate
  rcases mem_history_publishRoot hitem with hitem | rfl
  · exact Or.inl ⟨item, hitem, hkey⟩
  by_cases hold : mirror.HasState item
  · exact Or.inl (hold.congr hkey)
  refine Or.inr ⟨hold, hkey, mem_history_publishRoot_of_new
    (fun old hmem => operator.id_inj old (h.history old hmem) item hroot) hold, ?_⟩
  intro second hsecond hsame
  rcases mem_history_publishRoot hsecond with hsecond | rfl
  · exact absurd ⟨second, hsecond, hsame⟩ hold
  · exact le_rfl

end Publish

section Compact

variable {keepRootIds : List String}

theorem mem_history_compact
    (h : other ∈ (mirror.compactStaticMirror keepRootIds).history) :
    other ∈ mirror.history ∨ mirror.latest = some other :=
  mem_of_mem_compacted (mem_history_compactStaticMirror.1 h)

theorem Mirrors.compact (h : mirror.Mirrors operator) :
    (mirror.compactStaticMirror keepRootIds).Mirrors operator where
  history := by
    intro item hitem
    rcases mem_history_compact hitem with hitem | hlatest
    · exact h.history item hitem
    · exact (h.latest item hlatest).1
  latest := by
    intro item (hitem : item ∈ mirror.latest)
    obtain ⟨hsigned, -⟩ := h.latest item hitem
    obtain ⟨kept, hkept, hid⟩ := exists_latest_compacted keepRootIds hitem
    have hmem := mem_history_compactStaticMirror.2 hkept
    have heq : kept = item := by
      refine operator.id_inj kept ?_ item hsigned hid
      rcases mem_history_compact hmem with hkept | hlatest
      · exact h.history kept hkept
      · exact (h.latest kept hlatest).1
    exact ⟨hsigned, kept, hmem, by rw [heq]⟩
  last := by
    intro item hitem
    rcases mem_history_compact hitem with hitem | hlatest
    · exact h.last item hitem
    · exact ⟨item, hlatest, le_rfl⟩

/-- What a mirror records first for a tree state outlives a compaction. -/
theorem Mirrors.first_compact (h : mirror.Mirrors operator) (hfirst : mirror.RecordedFirst root) :
    (mirror.compactStaticMirror keepRootIds).RecordedFirst root := by
  obtain ⟨kept, hkept, first, hin, same, hsame, hid, hsameId, hkey, hle⟩ :=
    exists_mem_compacted hfirst.mem
  have hsameEq : same = root :=
    operator.id_inj same (h.history same hsame) root (h.history root hfirst.mem) hsameId
  rw [hsameEq] at hkey hle
  have htime := le_antisymm (MirroredRoot.timestamp_le_of_order hle) (hfirst.le first hin hkey)
  have hfirstEq := operator.eq_of_timestamp (h.history first hin) (h.history root hfirst.mem) htime
  have hkeptMem := mem_history_compactStaticMirror.2 hkept
  have hkeptSigned : kept ∈ operator.roots := by
    rcases mem_of_mem_compacted hkept with hmem | hlatest
    · exact h.history kept hmem
    · exact (h.latest kept hlatest).1
  have hkeptEq : kept = root := by
    rw [← hfirstEq]
    exact operator.id_inj kept hkeptSigned first (h.history first hin) hid
  refine ⟨hkeptEq ▸ hkeptMem, fun item hitem hitemKey => ?_⟩
  rcases mem_history_compact hitem with hitem | hlatest
  · exact hfirst.le item hitem hitemKey
  · obtain ⟨current, hcurrent, hlast⟩ := h.last root hfirst.mem
    cases hlatest.symm.trans hcurrent
    exact hlast

theorem Mirrors.state_compact (h : mirror.Mirrors operator)
    (hstate : (mirror.compactStaticMirror keepRootIds).HasState root) : mirror.HasState root := by
  obtain ⟨item, hitem, hkey⟩ := hstate
  rcases mem_history_compact hitem with hitem | hlatest
  · exact ⟨item, hitem, hkey⟩
  · exact (h.latest item hlatest).2.congr hkey

end Compact

end RootMirror

/-! ## Bundles -/

/-- What a proof bundle says about its root: the signed root and the leaf of the checkpoint. -/
structure MirroredBundle (crypto : Crypto) where
  signedRoot : MirroredRoot crypto
  leafIndex : Int
deriving DecidableEq

/-- `_verify_mirrored_root`. -/
def verifyMirroredRoot {crypto : Crypto} (bundle : MirroredBundle crypto)
    (verifier : RootVerifier crypto) (mirrors : List (RootMirror crypto)) : Except String Unit := do
  let (mirrored, _) ← verifier.mirroredRootContainingLeaf mirrors bundle.signedRoot.timestamp
    bundle.leafIndex
  Check.require (mirrored.id = bundle.signedRoot.id)
    "proof bundle signed root was not mirrored exactly"

/-- The mirrors of an operator and the bundles built on them so far. -/
structure MirroredBundles (crypto : Crypto) where
  mirrors : List (RootMirror crypto)
  bundles : List (MirroredBundle crypto)

namespace MirroredBundles

variable {crypto : Crypto}

/-- A root is published on a mirror, a mirror is compacted, or a bundle is built on the current root
    of some verifier. -/
inductive Event (crypto : Crypto) where
  | publish (place : Nat) (root : MirroredRoot crypto) (forceHistorical : Bool)
  | compact (place : Nat) (keepRootIds : List String)
  | build (verifier : RootVerifier crypto) (now : Int) (root : MirroredRoot crypto)
      (leafIndex : Int)

/-- One event. Each mirror gets the operator's roots in the order of time. The proof loop of
    `_submit_checkpoint_core_v3` builds a bundle on a current root that contains its leaf. -/
def step (operator : HonestOperator crypto) (s : MirroredBundles crypto) :
    Event crypto → Option (MirroredBundles crypto)
  | .publish place root forceHistorical =>
      match s.mirrors[place]? with
      | none => none
      | some mirror =>
          if root ∈ operator.roots ∧ ∀ current ∈ mirror.latest, current.timestamp ≤ root.timestamp
          then some { s with mirrors := s.mirrors.set place (mirror.publishRoot root forceHistorical) }
          else none
  | .compact place keepRootIds =>
      match s.mirrors[place]? with
      | none => none
      | some mirror =>
          some { s with mirrors := s.mirrors.set place (mirror.compactStaticMirror keepRootIds) }
  | .build verifier now root leafIndex =>
      match verifier.currentMirroredRoot s.mirrors now with
      | .error _ => none
      | .ok (current, _) =>
          if current = root ∧ leafIndex + 1 ≤ root.treeSize then
            some { s with bundles := s.bundles ++ [⟨root, leafIndex⟩] }
          else none

/-- Mirrors without roots, and no bundle. -/
def initial (crypto : Crypto) (count : Nat) : MirroredBundles crypto :=
  ⟨List.replicate count RootMirror.empty, []⟩

/-- No heartbeat enters: a mirror that does not have a tree state yet gets it with the root on which
    its bundles are built, and a bundle is built on the root that the mirrors recorded first for its
    tree state. -/
def NoHeartbeat (s : MirroredBundles crypto) : Event crypto → Prop
  | .publish place root _ => ∀ mirror ∈ s.mirrors[place]?, ¬ mirror.HasState root →
      ∀ bundle ∈ s.bundles, bundle.signedRoot.stateKey = root.stateKey → bundle.signedRoot = root
  | .compact _ _ => True
  | .build _ _ root _ => ∀ mirror ∈ s.mirrors, mirror.HasState root → mirror.RecordedFirst root

/-- Where all mirrors have the tree state of a bundle, every verifier gets back exactly its root and
    accepts it. -/
def Verifiable (operator : HonestOperator crypto) (s : MirroredBundles crypto) : Prop :=
  ∀ bundle ∈ s.bundles, (∀ mirror ∈ s.mirrors, mirror.HasState bundle.signedRoot) →
    ∀ verifier : RootVerifier crypto, verifier.Follows operator → verifier.Configured s.mirrors →
      (∃ verifier', verifier.mirroredRootContainingLeaf s.mirrors bundle.signedRoot.timestamp
        bundle.leafIndex = .ok (bundle.signedRoot, verifier')) ∧
      verifyMirroredRoot bundle verifier s.mirrors = .ok ()

/-- What holds along a run without heartbeats. -/
structure Kept (operator : HonestOperator crypto) (s : MirroredBundles crypto) : Prop where
  mirrors : ∀ mirror ∈ s.mirrors, mirror.Mirrors operator
  leaf : ∀ bundle ∈ s.bundles, bundle.leafIndex < bundle.signedRoot.treeSize
  first : ∀ bundle ∈ s.bundles, ∀ mirror ∈ s.mirrors, mirror.HasState bundle.signedRoot →
    mirror.RecordedFirst bundle.signedRoot

variable {operator : HonestOperator crypto} {s t : MirroredBundles crypto}

theorem kept_initial (count : Nat) : (initial crypto count).Kept operator where
  mirrors := by
    intro mirror hmirror
    rw [List.eq_of_mem_replicate hmirror]
    exact RootMirror.mirrors_empty
  leaf := fun _ h => absurd h List.not_mem_nil
  first := fun _ h => absurd h List.not_mem_nil

theorem Kept.verifiable (h : s.Kept operator) : s.Verifiable operator := by
  intro bundle hbundle hstate verifier hfollows hconfigured
  have hroot : ∀ mirror ∈ s.mirrors, bundle.signedRoot ∈ mirror.history :=
    fun mirror hmirror => (h.first bundle hbundle mirror hmirror (hstate mirror hmirror)).mem
  obtain ⟨verifier', hok⟩ := hfollows.mirroredRootContainingLeaf hconfigured
    (fun mirror hmirror => (h.mirrors mirror hmirror).history) hroot (h.leaf bundle hbundle)
  refine ⟨⟨verifier', hok⟩, ?_⟩
  rw [verifyMirroredRoot, hok, Check.ok_bind]
  exact Check.require_of rfl _

/-- Replacing one mirror by one that keeps what it recorded first. -/
theorem Kept.set (h : s.Kept operator) {place : Nat} {mirror mirror' : RootMirror crypto}
    (hplace : s.mirrors[place]? = some mirror) (hmirror' : mirror'.Mirrors operator)
    (hfirst : ∀ root, mirror.RecordedFirst root → mirror'.RecordedFirst root)
    (hstate : ∀ bundle ∈ s.bundles, mirror'.HasState bundle.signedRoot →
      mirror.HasState bundle.signedRoot ∨ mirror'.RecordedFirst bundle.signedRoot) :
    Kept operator { s with mirrors := s.mirrors.set place mirror' } where
  mirrors := by
    intro other hother
    rcases List.mem_or_eq_of_mem_set hother with hother | rfl
    · exact h.mirrors other hother
    · exact hmirror'
  leaf := h.leaf
  first := by
    intro bundle hbundle other hother hotherState
    rcases List.mem_or_eq_of_mem_set hother with hother | rfl
    · exact h.first bundle hbundle other hother hotherState
    rcases hstate bundle hbundle hotherState with hold | hnew
    · exact hfirst _ (h.first bundle hbundle mirror (List.mem_of_getElem? hplace) hold)
    · exact hnew

theorem Kept.step (h : s.Kept operator) {event : Event crypto} (hmeets : s.NoHeartbeat event)
    (hstep : step operator s event = some t) : t.Kept operator := by
  cases event with
  | publish place root forceHistorical =>
    cases hplace : s.mirrors[place]? with
    | none => simp only [MirroredBundles.step, hplace, reduceCtorEq] at hstep
    | some mirror =>
      simp only [MirroredBundles.step, hplace, Option.ite_none_right_eq_some,
        Option.some.injEq] at hstep
      obtain ⟨⟨hroot, htime⟩, rfl⟩ := hstep
      have hmirror := h.mirrors mirror (List.mem_of_getElem? hplace)
      have horder : ∀ current ∈ mirror.latest, current.order ≤ root.order := by
        intro current hcurrent
        rcases lt_or_eq_of_le (htime current hcurrent) with hlt | heq
        · exact Prod.Lex.toLex_le_toLex.2 (Or.inl hlt)
        · rw [operator.eq_of_timestamp (hmirror.latest current hcurrent).1 hroot heq]
      refine h.set hplace (hmirror.publishRoot hroot horder)
        (fun _ hfirst => hmirror.first_publishRoot horder hfirst) fun bundle hbundle hstate => ?_
      rcases hmirror.state_publishRoot hroot hstate with hold | ⟨hnew, hkey, hfirst⟩
      · exact Or.inl hold
      · rw [hmeets mirror hplace hnew bundle hbundle hkey.symm]
        exact Or.inr hfirst
  | compact place keepRootIds =>
    cases hplace : s.mirrors[place]? with
    | none => simp only [MirroredBundles.step, hplace, reduceCtorEq] at hstep
    | some mirror =>
      simp only [MirroredBundles.step, hplace, Option.some.injEq] at hstep
      subst hstep
      have hmirror := h.mirrors mirror (List.mem_of_getElem? hplace)
      exact h.set hplace hmirror.compact (fun _ hfirst => hmirror.first_compact hfirst)
        fun _ _ hstate => Or.inl (hmirror.state_compact hstate)
  | build verifier now root leafIndex =>
    cases hcurrent : verifier.currentMirroredRoot s.mirrors now with
    | error error => simp only [MirroredBundles.step, hcurrent, reduceCtorEq] at hstep
    | ok result =>
      simp only [MirroredBundles.step, hcurrent, Option.ite_none_right_eq_some,
        Option.some.injEq] at hstep
      obtain ⟨⟨-, hleaf⟩, rfl⟩ := hstep
      refine ⟨h.mirrors, fun bundle hbundle => ?_, fun bundle hbundle => ?_⟩
      · rcases List.mem_append.1 hbundle with hbundle | hbundle
        · exact h.leaf bundle hbundle
        · rw [List.mem_singleton.1 hbundle]
          exact Int.lt_of_add_one_le hleaf
      · rcases List.mem_append.1 hbundle with hbundle | hbundle
        · exact h.first bundle hbundle
        · rw [List.mem_singleton.1 hbundle]
          exact hmeets

/-- **Bundles built on recorded roots stay verifiable**, whatever is published and compacted later. -/
theorem verifiable_of_reaches (operator : HonestOperator crypto) (count : Nat)
    (h : Runs.Reaches (step operator) NoHeartbeat (initial crypto count) s) :
    s.Verifiable operator :=
  Kept.verifiable (h.invariant (fun _ _ _ hkept hmeets hstep => hkept.step hmeets hstep)
    (kept_initial count))

/-! ## A heartbeat -/

/-- A stand-in for the primitives that hashes to the parity of the length and accepts one signature
    for all messages. -/
def parityCrypto : Crypto where
  sha3_256 := fun data => List.replicate 32 (UInt8.ofNat (data.length % 2))
  publicKeyFromSeed := fun _ => List.replicate 32 0
  sign := fun _ _ => List.replicate 64 0
  verify := fun _ signature _ => signature == List.replicate 64 0
  length_sha3_256 := fun _ => List.length_replicate
  length_publicKeyFromSeed := fun _ => List.length_replicate
  length_sign := fun _ _ => List.length_replicate
  verify_sign := fun _ _ _ => beq_self_eq_true _

theorem parityCrypto_ne {a b : Bytes} (h : b.length = a.length + 1) :
    parityCrypto.sha3Hex a ≠ parityCrypto.sha3Hex b := by
  intro hsame
  have hbytes : List.replicate 32 (UInt8.ofNat (a.length % 2))
      = List.replicate 32 (UInt8.ofNat (b.length % 2)) := Text.hex_injective hsame
  obtain ⟨-, hparity | hparity⟩ := List.replicate_inj.1 hbytes
  · exact absurd hparity (by decide)
  rcases Nat.mod_two_eq_zero_or_one a.length with heven | hodd
  · rw [h, Nat.add_mod, heven] at hparity
    exact absurd hparity (by decide)
  · rw [h, Nat.add_mod, hodd] at hparity
    exact absurd hparity (by decide)

/-- The root of a tree with one leaf, signed at some time. -/
def oneLeafRoot (publicKey : String) (timestamp : Int) : SignedRoot :=
  { SignedRoot.unsigned parityCrypto 1 (Text.hex (List.replicate 32 0)) timestamp publicKey
      (Text.hex (List.replicate 32 0)) 0 with
    signature := String.ofList (Base85.b85encode (List.replicate 64 0)) }

/-- A root signed at time 1000 is one byte longer than one signed at time 100. -/
theorem length_oneLeafRoot (publicKey : String) :
    (oneLeafRoot publicKey 1000).toJson.bytes.length
      = (oneLeafRoot publicKey 100).toJson.bytes.length + 1 := by
  have h100 : (Json.renderInt 100).length = 3 := by decide
  have h1000 : (Json.renderInt 1000).length = 4 := by decide
  simp only [Json.bytes, Json.asciiBytes, SignedRoot.toJson, SignedRoot.members,
    SignedRoot.lastMembers, SignedRoot.optionalMember, oneLeafRoot, SignedRoot.unsigned,
    Option.map_some, List.cons_append, List.nil_append, Json.render, Json.renderMembers,
    Json.renderMoreMembers, List.length_map, List.length_cons, List.length_append, h100, h1000]
  omega

/-- The root of a tree of any size, with a spend-map size. -/
def sizedRoot (publicKey : String) (root : Bytes) (treeSize timestamp spendMapSize : Int) : SignedRoot :=
  { SignedRoot.unsigned parityCrypto treeSize (Text.hex root) timestamp publicKey
      (Text.hex (List.replicate 32 0)) spendMapSize with
    signature := String.ofList (Base85.b85encode (List.replicate 64 0)) }

/-- Operators sign such roots, and everybody verifies them. -/
theorem sizedRoot_spec (keys : KeyPair parityCrypto) {root : Bytes} (hroot : root.length = 32)
    {treeSize timestamp spendMapSize : Int} (htree : 0 ≤ treeSize)
    (htreeMax : treeSize.natAbs ≤ jsonLimits.maxIntegerAbs)
    (hnonneg : 0 ≤ timestamp) (hmax : timestamp.natAbs ≤ jsonLimits.maxIntegerAbs)
    (hsize : 0 ≤ spendMapSize) (hsizeMax : spendMapSize.natAbs ≤ jsonLimits.maxIntegerAbs) :
    (∀ acceptLegacy, (sizedRoot keys.publicKey root treeSize timestamp spendMapSize).verifySignedRoot
      parityCrypto acceptLegacy none = .ok ()) ∧
    ∃ signed : MirroredRoot parityCrypto,
      signed.toSignedRoot = sizedRoot keys.publicKey root treeSize timestamp spendMapSize ∧
      signed.id = parityCrypto.sha3Hex signed.toSignedRoot.toJson.bytes := by
  have hhex : IsHex32 (Text.hex (List.replicate 32 0)) := isHex32_hex List.length_replicate
  have hhexRoot : IsHex32 (Text.hex root) := isHex32_hex hroot
  have hnumbers : ∀ n ∈ [treeSize, timestamp, spendMapSize], n.natAbs ≤ jsonLimits.maxIntegerAbs := by
    simp only [List.forall_mem_cons]
    exact ⟨htreeMax, hmax, hsizeMax, fun _ h => absurd h List.not_mem_nil⟩
  obtain ⟨made, hmade⟩ := SignedRoot.exists_makeSignedRoot keys hnumbers hhexRoot.1 hhex.1
  have hmadeOk := hmade
  obtain ⟨payload, hpayload, hsigned⟩ := Check.bind_eq_ok.1 hmade
  rw [signOperatorPayload_eq] at hsigned
  have heq : sizedRoot keys.publicKey root treeSize timestamp spendMapSize = made := Except.ok.inj hsigned
  have hsignature : (String.ofList (Base85.b85encode (List.replicate 64 0))).length ≤ 16384 := by
    decide +kernel
  have hid : ∃ id, (sizedRoot keys.publicKey root treeSize timestamp spendMapSize).signedRootId parityCrypto
      = .ok id :=
    SignedRoot.exists_signedRootId hpayload hsignature
  rw [heq]
  refine ⟨fun acceptLegacy => SignedRoot.verify_makeSignedRoot keys hmadeOk htree hnonneg
    hhexRoot hhex hsize acceptLegacy (fun _ h => nomatch h), ?_⟩
  obtain ⟨id, hid⟩ := heq ▸ hid
  obtain ⟨bytes, hbytes, hhash⟩ := Check.bind_eq_ok.1 hid
  refine ⟨⟨made, id, hid⟩, rfl, ?_⟩
  cases hhash
  rw [(canonicalBytes_eq_ok.1 hbytes).2]

/-- The same with a spend-map size. -/
def leafRoot (publicKey : String) (timestamp spendMapSize : Int) : SignedRoot :=
  { SignedRoot.unsigned parityCrypto 1 (Text.hex (List.replicate 32 0)) timestamp publicKey
      (Text.hex (List.replicate 32 0)) spendMapSize with
    signature := String.ofList (Base85.b85encode (List.replicate 64 0)) }

theorem leafRoot_spec (keys : KeyPair parityCrypto) {timestamp spendMapSize : Int}
    (hnonneg : 0 ≤ timestamp) (hmax : timestamp.natAbs ≤ jsonLimits.maxIntegerAbs)
    (hsize : 0 ≤ spendMapSize) (hsizeMax : spendMapSize.natAbs ≤ jsonLimits.maxIntegerAbs) :
    (∀ acceptLegacy, (leafRoot keys.publicKey timestamp spendMapSize).verifySignedRoot parityCrypto
      acceptLegacy none = .ok ()) ∧
    ∃ root : MirroredRoot parityCrypto,
      root.toSignedRoot = leafRoot keys.publicKey timestamp spendMapSize ∧
      root.id = parityCrypto.sha3Hex root.toSignedRoot.toJson.bytes :=
  sizedRoot_spec keys List.length_replicate (show (0 : Int) ≤ 1 by decide) (by decide) hnonneg hmax hsize hsizeMax

theorem oneLeafRoot_spec (keys : KeyPair parityCrypto) (timestamp : Int) (hnonneg : 0 ≤ timestamp)
    (hmax : timestamp.natAbs ≤ jsonLimits.maxIntegerAbs) :
    (∀ acceptLegacy, (oneLeafRoot keys.publicKey timestamp).verifySignedRoot parityCrypto acceptLegacy
      none = .ok ()) ∧
    ∃ root : MirroredRoot parityCrypto, root.toSignedRoot = oneLeafRoot keys.publicKey timestamp ∧
      root.id = parityCrypto.sha3Hex root.toSignedRoot.toJson.bytes :=
  leafRoot_spec keys hnonneg hmax le_rfl (by decide)

/-- An operator that signs a heartbeat over an unchanged tree. -/
theorem exists_heartbeat : ∃ (operator : HonestOperator parityCrypto)
    (root heartbeat : MirroredRoot parityCrypto), operator.roots = [root, heartbeat] ∧
      root.toSignedRoot = oneLeafRoot operator.publicKey 100 ∧
      heartbeat.toSignedRoot = oneLeafRoot operator.publicKey 1000 := by
  obtain ⟨keys, -⟩ := KeyPair.exists_of_seed parityCrypto (List.replicate 32 0)
    List.length_replicate
  obtain ⟨hverified, root, hroot, hrootId⟩ := oneLeafRoot_spec keys 100 (by decide) (by decide)
  obtain ⟨hverified', heartbeat, hheartbeat, hheartbeatId⟩ :=
    oneLeafRoot_spec keys 1000 (by decide) (by decide)
  have hids : root.id ≠ heartbeat.id := by
    intro hsame
    rw [hrootId, hheartbeatId, hroot, hheartbeat] at hsame
    exact parityCrypto_ne (length_oneLeafRoot keys.publicKey) hsame
  have hcases : ∀ {motive : MirroredRoot parityCrypto → Prop}, motive root → motive heartbeat →
      ∀ r ∈ [root, heartbeat], motive r := by
    intro motive hfirst hsecond r hr
    rcases List.mem_pair.1 hr with rfl | rfl
    · exact hfirst
    · exact hsecond
  have hfingerprint : root.fingerprint = heartbeat.fingerprint := by
    simp only [MirroredRoot.fingerprint, hroot, hheartbeat]
    rfl
  refine ⟨{
    publicKey := keys.publicKey
    roots := [root, heartbeat]
    increasing := by
      rw [List.pairwise_pair, hroot, hheartbeat]
      show (100 : Int) < 1000
      decide
    appendOnly := hcases (hcases (fun _ => rfl) fun _ => hfingerprint)
      (hcases (fun _ => hfingerprint.symm) fun _ => rfl)
    id_inj := hcases (hcases (fun _ => rfl) fun h => absurd h hids)
      (hcases (fun h => absurd h.symm hids) fun _ => rfl)
    verified := hcases (hroot ▸ hverified) (hheartbeat ▸ hverified')
    signer := hcases ?_ ?_ }, root, heartbeat, rfl, hroot, hheartbeat⟩
  · rw [hroot]
    exact ⟨rfl, rfl⟩
  · rw [hheartbeat]
    exact ⟨rfl, rfl⟩

/-- A verifier with two mirrors that has seen nothing. -/
def sampleVerifier : RootVerifier parityCrypto where
  acceptLegacy := false
  operatorPublicKey := none
  minMirrors := 2
  maxRootLagSeconds := 120
  maxCurrentRootAgeSeconds := 300
  currentRootFutureSkewSeconds := 120
  consistent := fun _ _ => true
  observed := []
  blacklisted := []

theorem sampleVerifier_follows (operator : HonestOperator parityCrypto) :
    sampleVerifier.Follows operator where
  key := fun _ h => nomatch h
  observed := fun _ h => absurd h List.not_mem_nil
  trusted := fun _ _ => List.not_mem_nil
  consistent := fun _ _ _ _ _ => rfl

theorem sampleVerifier_configured (a b : RootMirror parityCrypto) :
    sampleVerifier.Configured [a, b] where
  minMirrors_pos := by decide
  minMirrors_le := le_rfl
  maxRootLagSeconds_nonneg := by decide

/-- The first root of a mirror enters both files. -/
theorem publishRoot_empty (root : MirroredRoot crypto) :
    (RootMirror.empty : RootMirror crypto).publishRoot root false = ⟨some root, [root]⟩ := by
  simp [RootMirror.publishRoot, RootMirror.empty, RootMirror.shouldAppendHistoricalRoot]

/-- A later root of the same tree state becomes `latest.json` only. -/
theorem publishRoot_heartbeat {root heartbeat : MirroredRoot crypto}
    (horder : root.order ≤ heartbeat.order) (hstate : root.stateKey = heartbeat.stateKey) :
    (⟨some root, [root]⟩ : RootMirror crypto).publishRoot heartbeat false
      = ⟨some heartbeat, [root]⟩ := by
  simp [RootMirror.publishRoot, RootMirror.shouldAppendHistoricalRoot, horder, hstate]

/-- The first of two mirrors gets a root, then the second. -/
theorem step_publish_first {operator : HonestOperator crypto} {root : MirroredRoot crypto}
    (hroot : root ∈ operator.roots) :
    step operator (initial crypto 2) (.publish 0 root false)
        = some ⟨[⟨some root, [root]⟩, RootMirror.empty], []⟩ ∧
      step operator ⟨[⟨some root, [root]⟩, RootMirror.empty], []⟩ (.publish 1 root false)
        = some ⟨[⟨some root, [root]⟩, ⟨some root, [root]⟩], []⟩ := by
  have hempty : (RootMirror.empty : RootMirror crypto).latest = none := rfl
  constructor <;> simp [step, initial, hroot, publishRoot_empty, hempty, List.replicate_succ]

/-- Both mirrors get a heartbeat. -/
theorem step_publish_heartbeat {operator : HonestOperator crypto}
    {root heartbeat : MirroredRoot crypto} (hmem : heartbeat ∈ operator.roots)
    (htime : root.timestamp < heartbeat.timestamp) (hstate : root.stateKey = heartbeat.stateKey) :
    step operator ⟨[⟨some root, [root]⟩, ⟨some root, [root]⟩], []⟩ (.publish 0 heartbeat false)
        = some ⟨[⟨some heartbeat, [root]⟩, ⟨some root, [root]⟩], []⟩ ∧
      step operator ⟨[⟨some heartbeat, [root]⟩, ⟨some root, [root]⟩], []⟩
          (.publish 1 heartbeat false)
        = some ⟨[⟨some heartbeat, [root]⟩, ⟨some heartbeat, [root]⟩], []⟩ := by
  have horder : root.order ≤ heartbeat.order := Prod.Lex.toLex_le_toLex.2 (Or.inl htime)
  constructor <;>
    simp [step, hmem, le_of_lt htime, publishRoot_heartbeat horder hstate]

/-- A bundle is built on the root that both mirrors show. -/
theorem step_build {operator : HonestOperator parityCrypto} {root : MirroredRoot parityCrypto}
    {a b : RootMirror parityCrypto} (now : Int) (hroot : root ∈ operator.roots)
    (ha : a.latest = some root) (hb : b.latest = some root) (hsize : root.treeSize = 1)
    (hfresh : sampleVerifier.validateCurrentRootFreshness root now = .ok ()) :
    step operator ⟨[a, b], []⟩ (.build sampleVerifier now root 0)
      = some ⟨[a, b], [⟨root, 0⟩]⟩ := by
  have hlatest : ∀ mirror ∈ [a, b], mirror.latest = some root := by
    intro mirror hmirror
    rcases List.mem_pair.1 hmirror with rfl | rfl
    · exact ha
    · exact hb
  obtain ⟨verifier', hcurrent⟩ := (sampleVerifier_follows operator).currentMirroredRoot
    (sampleVerifier_configured a b) hroot hlatest hfresh fun _ h => absurd h List.not_mem_nil
  simp [step, hcurrent, hsize]

/-- A bundle on the first root of its tree is verifiable. -/
theorem verifiable_recorded : ∃ (operator : HonestOperator parityCrypto)
    (s : MirroredBundles parityCrypto), s.bundles ≠ [] ∧ s.Verifiable operator := by
  obtain ⟨operator, root, heartbeat, hroots, hroot, -⟩ := exists_heartbeat
  have hmem : root ∈ operator.roots := hroots ▸ List.mem_cons_self
  obtain ⟨hfirst, hsecond⟩ := step_publish_first hmem
  have hbuild := step_build 150 hmem (a := ⟨some root, [root]⟩) (b := ⟨some root, [root]⟩)
    rfl rfl (by rw [hroot]; rfl) (by rw [RootVerifier.validateCurrentRootFreshness, hroot]; rfl)
  have hnew : ∀ (mirrors : List (RootMirror parityCrypto)) (place : Nat),
      NoHeartbeat ⟨mirrors, []⟩ (.publish place root false) :=
    fun _ _ _ _ _ _ hbundle => absurd hbundle List.not_mem_nil
  have hrecorded : NoHeartbeat ⟨[⟨some root, [root]⟩, ⟨some root, [root]⟩], []⟩
      (.build sampleVerifier 150 root 0) := by
    intro mirror hmirror _
    have hhistory : mirror.history = [root] := by
      rcases List.mem_pair.1 hmirror with rfl | rfl <;> rfl
    refine ⟨hhistory ▸ List.mem_cons_self, fun item hitem _ => ?_⟩
    rw [hhistory] at hitem
    rw [List.mem_singleton.1 hitem]
  exact ⟨operator, _, List.cons_ne_nil _ _, verifiable_of_reaches operator 2
    (((Runs.Reaches.refl.next (hnew _ 0) hfirst).next (hnew _ 1) hsecond).next hrecorded hbuild)⟩

/-- A bundle on a heartbeat is not. -/
theorem not_verifiable_heartbeat :
    ¬ ∀ (crypto : Crypto) (operator : HonestOperator crypto) (count : Nat)
      (s : MirroredBundles crypto),
      Runs.Reaches (step operator) (fun _ _ => True) (initial crypto count) s →
        s.Verifiable operator := by
  intro hall
  obtain ⟨operator, root, heartbeat, hroots, hroot, hheartbeat⟩ := exists_heartbeat
  have hmem : root ∈ operator.roots := hroots ▸ List.mem_cons_self
  have hmem' : heartbeat ∈ operator.roots := hroots ▸ List.mem_cons_of_mem _ List.mem_cons_self
  have hstate : root.stateKey = heartbeat.stateKey := by
    simp only [MirroredRoot.stateKey, hroot, hheartbeat]
    rfl
  have htime : root.timestamp < heartbeat.timestamp := by
    rw [hroot, hheartbeat]
    exact (by decide : (100 : Int) < 1000)
  obtain ⟨hfirst, hsecond⟩ := step_publish_first hmem
  obtain ⟨hthird, hfourth⟩ := step_publish_heartbeat hmem' htime hstate
  have hbuild := step_build 1100 hmem' (a := ⟨some heartbeat, [root]⟩)
    (b := ⟨some heartbeat, [root]⟩) rfl rfl (by rw [hheartbeat]; rfl)
    (by rw [RootVerifier.validateCurrentRootFreshness, hheartbeat]; rfl)
  have hsafe := hall parityCrypto operator 2 _ (((((Runs.Reaches.refl.next trivial hfirst).next
    trivial hsecond).next trivial hthird).next trivial hfourth).next trivial hbuild)
  have hhas : ∀ mirror ∈ ([⟨some heartbeat, [root]⟩, ⟨some heartbeat, [root]⟩] :
      List (RootMirror parityCrypto)), mirror.HasState heartbeat := by
    intro mirror hmirror
    rcases List.mem_pair.1 hmirror with rfl | rfl <;> exact ⟨root, List.mem_cons_self, hstate⟩
  obtain ⟨⟨verifier', hok⟩, -⟩ := hsafe _ List.mem_cons_self hhas sampleVerifier
    (sampleVerifier_follows operator) (sampleVerifier_configured _ _)
  -- neither history has a root at the time of the heartbeat
  have hnone : (⟨some heartbeat, [root]⟩ : RootMirror parityCrypto).rootAt heartbeat.timestamp
      = .error "mirror has no historical root for timestamp" := by
    rw [RootMirror.rootAt, List.filter_cons_of_neg (by simpa using htime)]
    rfl
  have hroots' : sampleVerifier.rootsContainingLeaf [⟨some heartbeat, [root]⟩,
      ⟨some heartbeat, [root]⟩] heartbeat.timestamp 0 = [] := by
    have herror : sampleVerifier.rootContainingLeaf ⟨some heartbeat, [root]⟩ heartbeat.timestamp
        (0 + 1) ([root].length + 1) heartbeat.timestamp []
        = .error "mirror has no historical root for timestamp" := by
      rw [RootVerifier.rootContainingLeaf, hnone]
      rfl
    simp only [RootVerifier.rootsContainingLeaf, List.zipIdx_cons, List.zipIdx_nil,
      List.filterMap_cons, List.filterMap_nil, herror]
  rw [RootVerifier.mirroredRootContainingLeaf, hroots'] at hok
  cases hok

end MirroredBundles
