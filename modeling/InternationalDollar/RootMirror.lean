import InternationalDollar.Lib.Dict
import InternationalDollar.Lib.Select
import InternationalDollar.SignedRoot
import Mathlib.Data.Prod.Lex
import Mathlib.Data.String.Basic

set_option autoImplicit false

/-! # Static root mirrors (`root_streamer`, `transparency_client`)

A static mirror is a directory with two files: `latest.json` holds the root published last, and
`roots.jsonl` the history, in which each tree state appears once unless the publisher forces more. A
verifier takes the current root from the first file and looks roots up by time in the second. -/

/-! ## Roots as mirrors hold them -/

/-- A signed root that has a canonical form, with its id. -/
structure MirroredRoot (crypto : Crypto) extends SignedRoot where
  id : String
  id_eq : toSignedRoot.signedRootId crypto = .ok id
deriving DecidableEq

namespace MirroredRoot

variable {crypto : Crypto}

theorem ext_root {a b : MirroredRoot crypto} (h : a.toSignedRoot = b.toSignedRoot) : a = b := by
  obtain ⟨_, _, ha⟩ := a
  obtain ⟨_, _, hb⟩ := b
  cases h
  cases ha.symm.trans hb
  rfl

/-- `root_state_key`. -/
def stateKey (root : MirroredRoot crypto) : Int × String × String :=
  (root.treeSize, root.rootHash, root.spendMapRoot.getD "")

/-- `_root_fingerprint`. -/
def fingerprint (root : MirroredRoot crypto) : Int × String × Option String × Int :=
  (root.treeSize, root.rootHash, root.spendMapRoot, root.spendMapSize.getD 0)

/-- The sort key of the roots of one mirror. -/
def order (root : MirroredRoot crypto) : Int ×ₗ Int :=
  toLex (root.timestamp, root.treeSize)

theorem timestamp_le_of_order {a b : MirroredRoot crypto} (h : a.order ≤ b.order) :
    a.timestamp ≤ b.timestamp := by
  rcases Prod.Lex.toLex_le_toLex.1 h with h | h
  · exact le_of_lt h
  · exact le_of_eq h.1

theorem stateKey_of_fingerprint {a b : MirroredRoot crypto} (h : a.fingerprint = b.fingerprint) :
    a.stateKey = b.stateKey := by
  simp only [fingerprint, Prod.mk.injEq] at h
  simp only [stateKey, h]

end MirroredRoot

/-! ## The files of a mirror -/

/-- A static mirror: `latest.json` and `roots.jsonl`. -/
structure RootMirror (crypto : Crypto) where
  latest : Option (MirroredRoot crypto)
  history : List (MirroredRoot crypto)

namespace RootMirror

variable {crypto : Crypto}

/-- A mirror directory before the first root. -/
def empty : RootMirror crypto := ⟨none, []⟩

/-- `_should_append_historical_root`. -/
def shouldAppendHistoricalRoot (root : MirroredRoot crypto)
    (historicalRoots : List (MirroredRoot crypto)) (forceHistorical : Bool) : Bool :=
  if historicalRoots.any fun item => item.id = root.id then false
  else if forceHistorical then true
  else !historicalRoots.any fun item => item.stateKey = root.stateKey

/-- `StaticRootMirrorWriter.publish_root`. -/
def publishRoot (mirror : RootMirror crypto) (root : MirroredRoot crypto)
    (forceHistorical : Bool) : RootMirror crypto where
  latest := match mirror.latest with
    | none => some root
    | some current => if current.order ≤ root.order then some root else some current
  history :=
    if shouldAppendHistoricalRoot root mirror.history forceHistorical then
      mirror.history ++ [root]
    else mirror.history

/-- One root of the loop that fills `by_state`: the earliest root of each tree state stays. -/
def keepEarliest (byState : List (MirroredRoot crypto)) (root : MirroredRoot crypto) :
    List (MirroredRoot crypto) :=
  match byState.find? fun item => item.stateKey = root.stateKey with
  | none => dictPut MirroredRoot.stateKey byState root
  | some current =>
      if root.order < current.order then dictPut MirroredRoot.stateKey byState root else byState

/-- The roots that a compaction keeps, before they are sorted. -/
def compacted (mirror : RootMirror crypto) (keepRootIds : List String) :
    List (MirroredRoot crypto) :=
  let roots := dedupBy MirroredRoot.id [] mirror.history
  let byState := roots.foldl keepEarliest []
  let compacted := byState.foldl (dictPut MirroredRoot.id) []
  let kept := (roots.filter fun root => root.id ∈ keepRootIds).foldl (dictPut MirroredRoot.id)
    compacted
  mirror.latest.toList.foldl (dictPut MirroredRoot.id) kept

/-- `compact_static_mirror`. -/
def compactStaticMirror (mirror : RootMirror crypto) (keepRootIds : List String) :
    RootMirror crypto where
  latest := mirror.latest
  history := (mirror.compacted keepRootIds).insertionSort fun a b =>
    toLex (a.order, a.id) ≤ toLex (b.order, b.id)

/-- `root_at`: the first root of the history at a time or after it. -/
def rootAt (mirror : RootMirror crypto) (timestamp : Int) : Except String (MirroredRoot crypto) :=
  Check.ofOption ((mirror.history.filter fun root => timestamp ≤ root.timestamp).argmin
    MirroredRoot.order) "mirror has no historical root for timestamp"

/-- `latest_root`: `latest.json`, and the last root of the history without that file. -/
def latestRoot (mirror : RootMirror crypto) : Except String (MirroredRoot crypto) :=
  match mirror.latest with
  | some root => .ok root
  | none => Check.ofOption (mirror.history.reverse.argmax MirroredRoot.order)
      "mirror has no signed roots"

/-- The mirror records the tree state of a root. -/
def HasState (mirror : RootMirror crypto) (root : MirroredRoot crypto) : Prop :=
  ∃ item ∈ mirror.history, item.stateKey = root.stateKey

/-- The root is the earliest that the mirror records for its tree state. -/
structure RecordedFirst (mirror : RootMirror crypto) (root : MirroredRoot crypto) : Prop where
  mem : root ∈ mirror.history
  le : ∀ item ∈ mirror.history, item.stateKey = root.stateKey → root.timestamp ≤ item.timestamp

end RootMirror

/-! ## What compaction keeps -/

namespace RootMirror

variable {crypto : Crypto} {mirror : RootMirror crypto} {root : MirroredRoot crypto}

theorem mem_of_mem_foldl_keepEarliest {roots byState : List (MirroredRoot crypto)}
    (h : root ∈ roots.foldl keepEarliest byState) : root ∈ byState ∨ root ∈ roots := by
  induction roots generalizing byState with
  | nil => exact Or.inl h
  | cons item rest ih =>
    rcases ih h with h | h
    · have hput : root ∈ dictPut MirroredRoot.stateKey byState item ∨ root ∈ byState := by
        unfold keepEarliest at h
        split at h
        · exact Or.inl h
        · split at h
          · exact Or.inl h
          · exact Or.inr h
      rcases hput with h | h
      · rcases mem_of_mem_dictPut h with h | rfl
        · exact Or.inl h
        · exact Or.inr List.mem_cons_self
      · exact Or.inl h
    · exact Or.inr (List.mem_cons_of_mem _ h)

theorem exists_mem_dictPut_state {byState : List (MirroredRoot crypto)} {item : MirroredRoot crypto}
    (hle : ∀ r ∈ byState, r.stateKey = item.stateKey → item.order ≤ r.order)
    (h : root ∈ byState ∨ root = item) :
    ∃ r ∈ dictPut MirroredRoot.stateKey byState item,
      r.stateKey = root.stateKey ∧ r.order ≤ root.order := by
  unfold dictPut
  split
  · next hany =>
    obtain ⟨other, hother, hkey⟩ := List.any_eq_true.1 hany
    rcases h with h | rfl
    · refine ⟨_, List.mem_map.2 ⟨root, h, rfl⟩, ?_⟩
      split
      · next hsame => exact ⟨hsame.symm, hle root h hsame⟩
      · exact ⟨rfl, le_rfl⟩
    · exact ⟨root, List.mem_map.2 ⟨other, hother, if_pos (of_decide_eq_true hkey)⟩, rfl, le_rfl⟩
  · exact ⟨root, by simpa using h, rfl, le_rfl⟩

theorem nodup_keepEarliest {byState : List (MirroredRoot crypto)} {item : MirroredRoot crypto}
    (h : (byState.map MirroredRoot.stateKey).Nodup) :
    ((keepEarliest byState item).map MirroredRoot.stateKey).Nodup := by
  unfold keepEarliest
  split
  · exact nodup_dictPut h
  · split
    · exact nodup_dictPut h
    · exact h

theorem exists_mem_keepEarliest {byState : List (MirroredRoot crypto)} {item : MirroredRoot crypto}
    (hnodup : (byState.map MirroredRoot.stateKey).Nodup) (h : root ∈ byState ∨ root = item) :
    ∃ r ∈ keepEarliest byState item, r.stateKey = root.stateKey ∧ r.order ≤ root.order := by
  unfold keepEarliest
  split
  · next hnone =>
    refine exists_mem_dictPut_state (fun r hr hkey => ?_) h
    exact absurd (decide_eq_true hkey) (List.find?_eq_none.1 hnone r hr)
  · next current hcurrent =>
    have hmem := List.mem_of_find?_eq_some hcurrent
    have hkey : current.stateKey = item.stateKey := by simpa using List.find?_some hcurrent
    split
    · next hlt =>
      refine exists_mem_dictPut_state (fun r hr hrkey => ?_) h
      have heq := List.inj_on_of_nodup_map hnodup hr hmem (hrkey.trans hkey.symm)
      rw [heq]
      exact le_of_lt hlt
    · next hle =>
      rcases h with h | rfl
      · exact ⟨root, h, rfl, le_rfl⟩
      · exact ⟨current, hmem, hkey, not_lt.1 hle⟩

/-- Each tree state keeps a root that is at least as early. -/
theorem exists_mem_foldl_keepEarliest {roots : List (MirroredRoot crypto)}
    (byState : List (MirroredRoot crypto))
    (hnodup : (byState.map MirroredRoot.stateKey).Nodup) (h : root ∈ byState ∨ root ∈ roots) :
    ∃ r ∈ roots.foldl keepEarliest byState,
      r.stateKey = root.stateKey ∧ r.order ≤ root.order := by
  induction roots generalizing byState root with
  | nil => exact ⟨root, by simpa using h, rfl, le_rfl⟩
  | cons item rest ih =>
    have hstep : (root ∈ byState ∨ root = item) ∨ root ∈ rest := by
      rw [List.mem_cons] at h
      exact or_assoc.2 h
    rcases hstep with hstep | hrest
    · obtain ⟨r, hr, hkey, hle⟩ := exists_mem_keepEarliest hnodup hstep
      obtain ⟨r', hr', hkey', hle'⟩ := ih _ (nodup_keepEarliest hnodup) (Or.inl hr)
      exact ⟨r', hr', hkey'.trans hkey, hle'.trans hle⟩
    · exact ih _ (nodup_keepEarliest hnodup) (Or.inr hrest)

theorem mem_history_compactStaticMirror {keepRootIds : List String} :
    root ∈ (mirror.compactStaticMirror keepRootIds).history ↔ root ∈ mirror.compacted keepRootIds :=
  (List.perm_insertionSort _ _).mem_iff

/-- A compaction adds nothing but the root of `latest.json`. -/
theorem mem_of_mem_compacted {keepRootIds : List String} (h : root ∈ mirror.compacted keepRootIds) :
    root ∈ mirror.history ∨ mirror.latest = some root := by
  unfold compacted at h
  rcases mem_of_mem_foldl_dictPut h with h | h
  · rcases mem_of_mem_foldl_dictPut h with h | h
    · rcases mem_of_mem_foldl_dictPut h with h | h
      · exact absurd h List.not_mem_nil
      · rcases mem_of_mem_foldl_keepEarliest h with h | h
        · exact absurd h List.not_mem_nil
        · exact Or.inl (mem_of_mem_dedupBy h)
    · exact Or.inl (mem_of_mem_dedupBy (List.mem_of_mem_filter h))
  · exact Or.inr (Option.mem_toList.1 h)

/-- For each root of the history a compaction keeps the id of a root of the same tree state that is
    at least as early. -/
theorem exists_mem_compacted {keepRootIds : List String} (h : root ∈ mirror.history) :
    ∃ kept ∈ mirror.compacted keepRootIds, ∃ first ∈ mirror.history, ∃ same ∈ mirror.history,
      kept.id = first.id ∧ same.id = root.id ∧ first.stateKey = same.stateKey ∧
        first.order ≤ same.order := by
  obtain ⟨same, hsame, hid⟩ := exists_mem_dedupBy MirroredRoot.id [] h List.not_mem_nil
  obtain ⟨first, hfirst, hkey, hle⟩ := exists_mem_foldl_keepEarliest [] List.nodup_nil (Or.inr hsame)
  -- the three dictionaries that follow keep the id of `first`
  obtain ⟨a, ha, haid⟩ := exists_mem_foldl_dictPut MirroredRoot.id [] (Or.inr hfirst)
  obtain ⟨b, hb, hbid⟩ := exists_mem_foldl_dictPut MirroredRoot.id _ (Or.inl ha)
  obtain ⟨kept, hkept, hkid⟩ := exists_mem_foldl_dictPut MirroredRoot.id _ (Or.inl hb)
  have hfirst' : first ∈ mirror.history := by
    rcases mem_of_mem_foldl_keepEarliest hfirst with h | h
    · exact absurd h List.not_mem_nil
    · exact mem_of_mem_dedupBy h
  exact ⟨kept, hkept, first, hfirst', same, mem_of_mem_dedupBy hsame,
    hkid.trans (hbid.trans haid), hid, hkey, hle⟩

/-- The id of `latest.json` is in the history after a compaction. -/
theorem exists_latest_compacted (keepRootIds : List String) (h : root ∈ mirror.latest) :
    ∃ kept ∈ mirror.compacted keepRootIds, kept.id = root.id :=
  exists_mem_foldl_dictPut MirroredRoot.id _ (Or.inr (Option.mem_toList.2 h))

end RootMirror
