import InternationalDollar.OperatorStorage

set_option autoImplicit false

/-! # The numbering of leaves

The invariant behind Merkle proofs and range reads: leaf ids are `1` to the row count, every log
entry points to the leaf that holds its hash, and no hash has two entries. `Outcome` says once what a
committed append can do to the tables; every invariant is derived from it. -/

namespace Storage

/-- The hashes of the log entries with their leaf ids. -/
def index (s : Storage) : List (String × Nat) :=
  s.logEntries.map fun e => (e.entryHash, e.leafIndex)

/-- Leaf ids are gap-free, entries point to the leaves that hold their hashes, and every hash has at
    most one entry. -/
structure Numbered (s : Storage) : Prop where
  ids : s.leaf.map Leaf.id = List.range' 1 s.leaf.length
  indexed : ∀ e ∈ s.index, ∃ l ∈ s.leaf, l.id = e.2 ∧ Text.fromhex e.1 = some l.entry
  distinct : s.index.Pairwise fun e f => Text.fromhex e.1 ≠ Text.fromhex f.1

/-- Existing leaves and indices stay as they are. -/
structure Extends (s u : Storage) : Prop where
  leaf : s.leaf <+: u.leaf
  index : s.index <+: u.index

theorem Extends.refl (s : Storage) : s.Extends s :=
  ⟨List.prefix_rfl, List.prefix_rfl⟩

theorem Extends.trans {s t u : Storage} (h : s.Extends t) (k : t.Extends u) : s.Extends u :=
  ⟨h.leaf.trans k.leaf, h.index.trans k.index⟩

/-- What `fillLogEntry` writes is not part of the index. -/
theorem index_fillLogEntry (backend : Backend) (entryHash : String)
    (entryJson transferJson : Option Bytes) (s : Storage) :
    (s.fillLogEntry backend entryHash entryJson transferJson).index = s.index := by
  unfold index fillLogEntry
  rw [List.map_map]
  refine List.map_congr_left fun e _ => ?_
  by_cases he : backend.hashEquals e.entryHash entryHash = true
  · simp [he]
  · simp [he]

theorem findEntry_eq_none {backend : Backend} {entryHash : String} {s : Storage} :
    s.findEntry backend entryHash = none ↔
      ∀ e ∈ s.index, backend.hashEquals e.1 entryHash = false := by
  simp [findEntry, index]

theorem mem_index_of_findEntry {backend : Backend} {entryHash : String} {s : Storage}
    {e : LogEntry} (h : s.findEntry backend entryHash = some e) :
    (e.entryHash, e.leafIndex) ∈ s.index :=
  List.mem_map.2 ⟨e, List.mem_of_find?_eq_some h, rfl⟩

/-- A claim that was just inserted, or was there, is found. -/
theorem findClaim_insertClaim (backend : Backend) (row : SpendClaimRow) (s : Storage) :
    ((s.insertClaim backend row).findClaim backend row.spendKey row.transferHash).isSome := by
  unfold insertClaim
  cases hfind : s.findClaim backend row.spendKey row.transferHash with
  | some c => simp [hfind]
  | none =>
    have hself : ∀ text, backend.hashEquals text text = true := by
      intro text
      cases backend <;> simp [Backend.hashEquals]
    simp [findClaim, List.find?_append, hself]

theorem findClaim_indexClaim {backend : Backend} {spendKey transferHash : String}
    {leafIndex : Int} {s : Storage} (h : (s.findClaim backend spendKey transferHash).isSome) :
    ((s.indexClaim backend spendKey transferHash leafIndex).findClaim backend spendKey
      transferHash).isSome := by
  simp only [findClaim, List.find?_isSome] at h ⊢
  obtain ⟨c, hc, hkey⟩ := h
  refine ⟨{ c with transferLeafIndex := c.transferLeafIndex.or (some leafIndex) }, ?_, hkey⟩
  exact List.mem_map.2 ⟨c, hc, if_pos hkey⟩

/-- The tables that the numbering is about. -/
structure SameNumbering (s u : Storage) : Prop where
  leaf : u.leaf = s.leaf
  lastLeafId : u.lastLeafId = s.lastLeafId
  index : u.index = s.index

theorem sameNumbering_insertClaim (backend : Backend) (row : SpendClaimRow) (s : Storage) :
    s.SameNumbering (s.insertClaim backend row) := by
  unfold insertClaim
  split
  · exact ⟨rfl, rfl, rfl⟩
  · exact ⟨rfl, rfl, rfl⟩

theorem sameNumbering_indexClaim (backend : Backend) (spendKey transferHash : String)
    (leafIndex : Int) (s : Storage) :
    s.SameNumbering (s.indexClaim backend spendKey transferHash leafIndex) :=
  ⟨rfl, rfl, rfl⟩

end Storage

/-! ## Hash columns -/

namespace Backend

/-- A rollback loses nothing of the numbering when the counter did not move. -/
theorem rollback_eq {backend : Backend} {s u : Storage}
    (h : backend = mariadb → u.lastLeafId = s.lastLeafId) : backend.rollback s u = s := by
  cases backend with
  | sqlite => rfl
  | mariadb =>
    show { s with lastLeafId := u.lastLeafId } = s
    rw [h rfl]

theorem trimEnd_trimEnd (text : String) : trimEnd (trimEnd text) = trimEnd text := by
  unfold trimEnd
  rw [String.toList_ofList, List.reverse_reverse, List.dropWhile_idempotent]

/-- Texts that compare equal with the stored form compare equal with the text. -/
theorem hashEquals_hashColumn {backend : Backend} {text stored : String}
    (h : backend.hashColumn text = .ok stored) (other : String)
    (hne : backend.hashEquals other text = false) : backend.hashEquals other stored = false := by
  cases backend with
  | sqlite =>
    cases h
    exact hne
  | mariadb =>
    obtain ⟨-, heq⟩ := Check.check_bind_eq_ok.1 h
    obtain rfl := Check.pure_eq_ok.1 heq
    show (trimEnd other == trimEnd (trimEnd text)) = false
    rw [trimEnd_trimEnd]
    exact hne

end Backend

/-! ## What an append does -/

/-- What a transaction of `append_log_entry_conn` does to the tables: it finds the entry of the
    hash, or it adds a leaf and an entry. -/
inductive Outcome (backend : Backend) (s : Storage) (entryHash : String) (entryBytes : Bytes) :
    Stored → Storage → Prop where
  | duplicate {e : LogEntry} {u : Storage} :
      s.findEntry backend entryHash = some e → s.SameNumbering u →
      Outcome backend s entryHash entryBytes ⟨true, e.leafIndex, s.leaf.length⟩ u
  | fresh {leafHash : Bytes} {text : String} {u : Storage} :
      s.findEntry backend entryHash = none → backend.hashColumn entryHash = .ok text →
      u.leaf = s.leaf ++ [⟨s.lastLeafId + 1, entryBytes, leafHash⟩] →
      u.lastLeafId = s.lastLeafId + 1 → u.index = s.index ++ [(text, s.lastLeafId + 1)] →
      Outcome backend s entryHash entryBytes ⟨false, s.lastLeafId + 1, s.leaf.length + 1⟩ u

theorem Outcome.congr {backend : Backend} {s u v : Storage} {entryHash : String}
    {entryBytes : Bytes} {stored : Stored} (h : Outcome backend s entryHash entryBytes stored u)
    (huv : u.SameNumbering v) : Outcome backend s entryHash entryBytes stored v := by
  cases h with
  | duplicate hfind hsame =>
    exact .duplicate hfind ⟨huv.leaf.trans hsame.leaf, huv.lastLeafId.trans hsame.lastLeafId,
      huv.index.trans hsame.index⟩
  | fresh hfind htext hleaf hlast hindex =>
    exact .fresh hfind htext (huv.leaf.trans hleaf) (huv.lastLeafId.trans hlast)
      (huv.index.trans hindex)

section Faults

open Transaction

variable {backend : Backend} {s : Storage} {entryHash : String} {entryBytes : Bytes}

/-- No statement has changed the tables, and if an InnoDB transaction is to add a leaf, its
    connection is lost within the next `j` statements and the one after them, or not within `k`. -/
def Before (backend : Backend) (s : Storage) (entryHash : String) (j k : Nat)
    (session : Session Storage) : Prop :=
  session.tables = s ∧ (backend = .mariadb → s.findEntry backend entryHash = none →
    ∀ n, session.fault = some n → n ≤ j ∨ k ≤ n)

/-- The append is done, and an InnoDB transaction that added a leaf keeps its connection for `k` more
    statements. -/
def After (backend : Backend) (s : Storage) (entryHash : String) (entryBytes : Bytes) (k : Nat)
    (stored : Stored) (session : Session Storage) : Prop :=
  Outcome backend s entryHash entryBytes stored session.tables ∧
    (backend = .mariadb → s.findEntry backend entryHash = none →
      ∀ n, session.fault = some n → k ≤ n)

/-- A rollback of the session restores the tables. -/
def Undone (backend : Backend) (s : Storage) (session : Session Storage) : Prop :=
  backend.rollback s session.tables = s

theorem Before.undone {j k : Nat} {session : Session Storage}
    (h : Before backend s entryHash j k session) : Undone backend s session :=
  Backend.rollback_eq fun _ => by rw [h.1]

/-- One statement later, when it changed nothing. -/
theorem Before.next {j k : Nat} {session : Session Storage}
    (h : Before backend s entryHash (j + 1) (k + 1) session) (hfault : session.fault ≠ some 0) :
    Before backend s entryHash j k ⟨session.tables, session.fault.map (· - 1)⟩ := by
  refine ⟨h.1, fun hback hfresh n hn => ?_⟩
  have := h.2 hback hfresh _ (fault_of_next hfault hn)
  omega

/-- A session in which the append is done is undone by a rollback, unless an InnoDB transaction has
    added a leaf. -/
theorem After.undone {k : Nat} {stored : Stored} {session : Session Storage}
    (h : After backend s entryHash entryBytes k stored session)
    (hlost : backend = .mariadb → s.findEntry backend entryHash ≠ none) :
    Undone backend s session := by
  refine Backend.rollback_eq fun hback => ?_
  cases h.1 with
  | duplicate hfind hsame => exact hsame.lastLeafId
  | fresh hfind => exact absurd hfind (hlost hback)

theorem After.undone_of_lost {k : Nat} {stored : Stored} {session : Session Storage}
    (h : After backend s entryHash entryBytes (k + 1) stored session)
    (hfault : session.fault = some 0) : Undone backend s session :=
  h.undone fun hback hfresh => absurd (h.2 hback hfresh 0 hfault) (by omega)

/-- One statement later, when it did not touch the numbering. -/
theorem After.next {k : Nat} {stored : Stored} {session : Session Storage} {tables : Storage}
    (h : After backend s entryHash entryBytes (k + 1) stored session)
    (hsame : session.tables.SameNumbering tables) (hfault : session.fault ≠ some 0) :
    After backend s entryHash entryBytes k stored ⟨tables, session.fault.map (· - 1)⟩ := by
  refine ⟨h.1.congr hsame, fun hback hfresh n hn => ?_⟩
  have := h.2 hback hfresh _ (fault_of_next hfault hn)
  omega

/-- The entry of a new leaf is accepted: its hash fits and is fresh, and so is its leaf id. -/
theorem insertLogEntry_eq {row : LogEntry} {text : String} {u : Storage}
    (hfresh : s.findEntry backend row.entryHash = none)
    (htext : backend.hashColumn row.entryHash = .ok text)
    (hids : ∀ e ∈ s.index, e.2 < row.leafIndex) (hu : u.logEntries = s.logEntries) :
    u.insertLogEntry backend row =
      (.ok (), { u with logEntries := u.logEntries ++ [{ row with entryHash := text }] }) := by
  have hnone : (u.logEntries.any fun e =>
      backend.hashEquals e.entryHash text || e.leafIndex == row.leafIndex) = false := by
    rw [hu, List.any_eq_false]
    intro e he
    have hmem : (e.entryHash, e.leafIndex) ∈ s.index := List.mem_map.2 ⟨e, he, rfl⟩
    have hhash : backend.hashEquals e.entryHash text = false :=
      Backend.hashEquals_hashColumn htext _ (Storage.findEntry_eq_none.1 hfresh _ hmem)
    have hid : e.leafIndex ≠ row.leafIndex := Nat.ne_of_lt (hids _ hmem)
    simp [hhash, hid]
  unfold Storage.insertLogEntry
  rw [htext]
  simp only [hnone, Bool.false_eq_true, if_false]

/-- **The append of one hash**, with `k` statements of its transaction still to come. -/
theorem appendLogEntryConn_triple {leafHash : Bytes} {submittedAt : Int} {entryKind : String}
    {entryJson transferJson : Option Bytes} (k : Nat)
    (hids : ∀ e ∈ s.index, e.2 ≤ s.lastLeafId)
    (hfits : s.findEntry backend entryHash = none →
      ∃ text, backend.hashColumn entryHash = .ok text) :
    Triple (Before backend s entryHash 1 (k + 4))
      (appendLogEntryConn backend entryHash entryBytes leafHash submittedAt entryKind entryJson
        transferJson)
      (After backend s entryHash entryBytes k) (Undone backend s) := by
  refine Triple.bind (R := fun existing session => existing = s.findEntry backend entryHash ∧
    Before backend s entryHash 0 (k + 3) session) (Triple.query (fun _ h _ => h.undone) ?_) ?_
  · intro session h hfault
    exact ⟨congrArg _ h.1, h.next hfault⟩
  intro existing
  cases existing with
  | some e =>
    -- the hash has an entry: only JSON columns change
    have hsame : ∀ session : Session Storage, s.SameNumbering session.tables →
        Undone backend s session :=
      fun session h => Backend.rollback_eq fun _ => h.lastLeafId
    refine Triple.bind (R := fun _ session => s.findEntry backend entryHash = some e ∧
      s.SameNumbering session.tables) ?_ ?_
    · unfold fillExisting
      by_cases hjson : (transferJson.isSome || entryJson.isSome) = true
      · rw [if_pos hjson]
        refine Triple.update (fun _ h _ => h.2.undone) ?_
        rintro session ⟨hfind, htables, -⟩ -
        rw [htables]
        exact ⟨hfind.symm, rfl, rfl, Storage.index_fillLogEntry _ _ _ _ _⟩
      · rw [if_neg hjson]
        refine Triple.ret ?_
        rintro session ⟨hfind, htables, -⟩
        rw [htables]
        exact ⟨hfind.symm, rfl, rfl, rfl⟩
    · intro _
      refine Triple.bind (R := fun size session => size = s.leaf.length ∧
        s.findEntry backend entryHash = some e ∧ s.SameNumbering session.tables)
        (Triple.query (fun session h _ => hsame session h.2) ?_) ?_
      · rintro session ⟨hfind, h⟩ -
        exact ⟨congrArg List.length h.leaf, hfind, h⟩
      · intro size
        refine Triple.ret ?_
        rintro session ⟨rfl, hfind, h⟩
        refine ⟨.duplicate hfind h, fun _ hfresh => ?_⟩
        rw [hfind] at hfresh
        cases hfresh
  | none =>
    refine Triple.bind (R := fun leafIndex session => leafIndex = s.lastLeafId + 1 ∧
      s.findEntry backend entryHash = none ∧
      session.tables = (s.insertLeaf entryBytes leafHash).2 ∧
      (backend = .mariadb → ∀ n, session.fault = some n → k + 2 ≤ n))
      (Triple.statement (fun _ h _ => h.2.undone) ?_ (fun _ _ _ _ he => nomatch he)) ?_
    · rintro session leafIndex ⟨hfind, htables, hfault⟩ hne hok
      refine ⟨?_, hfind.symm, by rw [htables], fun hback n hn => ?_⟩
      · rw [htables] at hok
        exact (Except.ok.inj hok).symm
      · have := hfault hback hfind.symm _ (fault_of_next hne hn)
        omega
    · intro leafIndex
      refine Triple.bind (R := fun _ session => leafIndex = s.lastLeafId + 1 ∧
        Outcome backend s entryHash entryBytes ⟨false, leafIndex, s.leaf.length + 1⟩
          session.tables ∧ session.tables.leaf.length = s.leaf.length + 1 ∧
        (backend = .mariadb → ∀ n, session.fault = some n → k + 1 ≤ n)) ?_ ?_
      · refine Triple.statement ?_ ?_ ?_
        · rintro session ⟨-, -, -, hfault⟩ hlost
          exact Backend.rollback_eq fun hback => absurd (hfault hback 0 hlost) (by omega)
        · rintro session _ ⟨rfl, hfind, htables, hfault⟩ hne -
          obtain ⟨text, htext⟩ := hfits hfind
          rw [insertLogEntry_eq hfind htext (fun e he => Nat.lt_succ_of_le (hids e he))
            (by rw [htables]; rfl), htables]
          refine ⟨rfl, .fresh hfind htext rfl rfl ?_, ?_, fun hback n hn => ?_⟩
          · simp [Storage.index, Storage.insertLeaf]
          · simp [Storage.insertLeaf]
          · have := hfault hback _ (fault_of_next hne hn)
            omega
        · rintro session _ ⟨rfl, hfind, htables, hfault⟩ hne herror
          obtain ⟨text, htext⟩ := hfits hfind
          rw [insertLogEntry_eq hfind htext (fun e he => Nat.lt_succ_of_le (hids e he))
            (by rw [htables]; rfl)] at herror
          cases herror
      · intro _
        refine Triple.bind (R := fun size session => size = s.leaf.length + 1 ∧
          leafIndex = s.lastLeafId + 1 ∧
          After backend s entryHash entryBytes k ⟨false, leafIndex, size⟩ session)
          (Triple.query ?_ ?_) ?_
        · rintro session ⟨-, -, -, hfault⟩ hlost
          exact Backend.rollback_eq fun hback => absurd (hfault hback 0 hlost) (by omega)
        · rintro session ⟨hindex, houtcome, hsize, hfault⟩ hne
          rw [hsize]
          refine ⟨rfl, hindex, houtcome, fun hback _ n hn => ?_⟩
          have := hfault hback _ (fault_of_next hne hn)
          omega
        · intro size
          exact Triple.ret fun session h => h.2.2

/-- Recording the claim of a transfer keeps what the append did. It takes five statements. -/
theorem recordSpendClaim_triple (server : AppendServer) {t : Transfer}
    {spendKey transferHash : String} {leafIndex firstSeen : Int} {stored : Stored}
    (hback : server.backend = backend) :
    Triple (After backend s entryHash entryBytes 6 stored)
      (server.recordSpendClaim t spendKey transferHash leafIndex firstSeen)
      (fun _ => After backend s entryHash entryBytes 1 stored) (Undone backend s) := by
  subst hback
  let found : Storage → Prop := fun u =>
    (u.findClaim server.backend spendKey transferHash).isSome = true
  refine Triple.bind (R := fun _ => After server.backend s entryHash entryBytes 5 stored)
    (Triple.query (fun _ h => h.undone_of_lost) fun _ h => h.next ⟨rfl, rfl, rfl⟩) fun _ => ?_
  refine Triple.bind (R := fun _ session => After server.backend s entryHash entryBytes 4 stored
    session ∧ found session.tables) (Triple.update (fun _ h => h.undone_of_lost) ?_) fun _ => ?_
  · intro session h hne
    exact ⟨h.next (Storage.sameNumbering_insertClaim _ _ _) hne,
      Storage.findClaim_insertClaim server.backend ⟨spendKey, t.tokenId, t.previousHash, t.sequence,
        t.senderAddress, t.senderPublicKey, transferHash, some leafIndex, firstSeen⟩ _⟩
  refine Triple.bind (R := fun _ session => After server.backend s entryHash entryBytes 3 stored
    session ∧ found session.tables) (Triple.update (fun _ h => h.1.undone_of_lost) ?_) fun _ => ?_
  · rintro session ⟨h, hfound⟩ hne
    exact ⟨h.next (Storage.sameNumbering_indexClaim _ _ _ _ _) hne,
      Storage.findClaim_indexClaim hfound⟩
  refine Triple.bind (R := fun persisted session => persisted.isSome = true ∧
    After server.backend s entryHash entryBytes 2 stored session)
    (Triple.query (fun _ h => h.1.undone_of_lost) ?_) fun persisted => ?_
  · rintro session ⟨h, hfound⟩ hne
    exact ⟨hfound, h.next ⟨rfl, rfl, rfl⟩ hne⟩
  refine Triple.bind (R := fun _ => After server.backend s entryHash entryBytes 2 stored)
    (Triple.lift (fun _ _ h _ => h.2) ?_) fun _ => ?_
  · rintro session e ⟨hsome, -⟩ herror
    rw [Check.require_of hsome] at herror
    cases herror
  exact Triple.update (fun _ h => h.undone_of_lost) fun _ h => h.next ⟨rfl, rfl, rfl⟩

/-- The whole transaction of an entry hash. -/
theorem appendEntryConn_triple (server : AppendServer) (entryBytes : Bytes) (submittedAt : Int)
    (entryKind : String) (entryJson transferJson : Option Bytes) (hids : ∀ e ∈ s.index, e.2 ≤ s.lastLeafId)
    (hfits : s.findEntry server.backend entryHash = none →
      ∃ text, server.backend.hashColumn entryHash = .ok text) :
    Triple (Before server.backend s entryHash 1 5)
      (server.appendEntryConn entryHash entryBytes submittedAt entryKind entryJson transferJson)
      (fun result session => ∃ stored, result = AppendServer.answer entryHash none stored ∧
        After server.backend s entryHash entryBytes 1 stored session)
      (Undone server.backend s) := by
  refine Triple.bind (R := After server.backend s entryHash entryBytes 1)
    (appendLogEntryConn_triple 1 hids hfits) fun stored => ?_
  exact Triple.ret fun session h => ⟨stored, rfl, h⟩

/-- The whole transaction of a transfer announcement. -/
theorem appendTransferConn_triple (server : AppendServer) (t : Transfer) (spendKey : String)
    (submittedAt : Int) (hbytes : Text.fromhex entryHash = some entryBytes)
    (hids : ∀ e ∈ s.index, e.2 ≤ s.lastLeafId)
    (hfits : s.findEntry server.backend entryHash = none →
      ∃ text, server.backend.hashColumn entryHash = .ok text) :
    Triple (Before server.backend s entryHash 2 11)
      (server.appendTransferConn t spendKey entryHash submittedAt)
      (fun result session => ∃ stored,
        result = AppendServer.answer entryHash (some spendKey) stored ∧
        After server.backend s entryHash entryBytes 1 stored session)
      (Undone server.backend s) := by
  refine Triple.bind (R := fun _ => Before server.backend s entryHash 1 10)
    (Triple.query (fun _ h _ => h.undone) fun _ h => h.next) fun conflict => ?_
  refine Triple.bind (R := fun _ => Before server.backend s entryHash 1 10)
    (Triple.lift (fun _ _ h _ => h) fun _ _ h _ => h.undone) fun _ => ?_
  refine Triple.bind (R := fun bytes session => bytes = entryBytes ∧
    Before server.backend s entryHash 1 10 session)
    (Triple.lift ?_ fun _ _ h _ => h.undone) fun bytes => ?_
  · intro session bytes h hok
    rw [Check.ofOption_eq_ok, hbytes] at hok
    exact ⟨(Option.some.inj hok).symm, h⟩
  refine Triple.bind (R := fun _ session => bytes = entryBytes ∧
    Before server.backend s entryHash 1 10 session)
    (Triple.lift (fun _ _ h _ => h) fun _ _ h _ => h.2.undone) fun transferJson => ?_
  refine Triple.bind (R := After server.backend s entryHash entryBytes 6) ?_ fun stored => ?_
  · rintro session ⟨rfl, h⟩
    exact appendLogEntryConn_triple 6 hids hfits session h
  refine Triple.bind (R := fun _ => After server.backend s entryHash entryBytes 1 stored)
    (recordSpendClaim_triple server rfl) fun _ => ?_
  exact Triple.ret fun session h => ⟨stored, rfl, h⟩

end Faults

/-! ## Hashes of calls -/

/-- A text is what its column keeps, with blanks behind it. -/
theorem Backend.exists_trimEnd_append (text : String) :
    ∃ blanks, text.toList = (Backend.trimEnd text).toList ++ blanks ∧ ∀ c ∈ blanks, c = ' ' := by
  refine ⟨(text.toList.reverse.takeWhile (· == ' ')).reverse, ?_, ?_⟩
  · rw [Backend.trimEnd, String.toList_ofList, ← List.reverse_append,
      List.takeWhile_append_dropWhile, List.reverse_reverse]
  · intro c hc
    have := List.mem_takeWhile_imp (List.mem_reverse.1 hc)
    simpa using this

/-- Among the texts of a hash that fit into a column of InnoDB, one is kept. -/
theorem Backend.trimEnd_eq_hex {text : String} {bytes : Bytes}
    (hbytes : Text.fromhex text = some bytes) (hlength : bytes.length = 32)
    (hlower : Text.lower text = text) (hfits : (Backend.trimEnd text).length ≤ 64) :
    Backend.trimEnd text = Text.hex bytes := by
  obtain ⟨blanks, happend, hblanks⟩ := Backend.exists_trimEnd_append text
  have hkept : Text.fromhex (Backend.trimEnd text) = some bytes := by
    rw [Text.fromhex, happend] at hbytes
    exact Text.fromhexChars_of_append_blanks hblanks hbytes
  have hlong := Text.length_of_fromhexChars hkept
  rw [String.length_toList] at hlong
  refine Text.eq_hex_of_fromhex hkept (by omega) ?_
  refine Text.lower_eq_self_iff.2 fun c hc => Text.lower_eq_self_iff.1 hlower c ?_
  rw [happend]
  exact List.mem_append_left _ hc

namespace AppendServer

namespace Request

/-- The hash that a call looks up, with its bytes; none where it raises before its transaction. -/
def hash (server : AppendServer) : Request → Option (String × Bytes)
  | entry entryHash _ transfer _ data _ =>
      match prepareEntry entryHash transfer data with
      | .ok (entryBytes, _) => some (Text.lower entryHash, entryBytes)
      | .error _ => none
  | announcement clock t _ _ =>
      match server.prepareTransfer clock t with
      | .ok (entryHash, _) => (Text.fromhex entryHash).map fun entryBytes => (entryHash, entryBytes)
      | .error _ => none

/-- The statement at which the connection of a call is lost. -/
def fault : Request → Option Nat
  | entry _ _ _ _ _ fault => fault
  | announcement _ _ _ fault => fault

/-- The number of the statement that inserts a leaf, from zero. -/
def leafStatement : Request → Nat
  | entry .. => 1
  | announcement .. => 2

/-- The number of statements of a transaction that inserts a leaf, its commit included. -/
def statements : Request → Nat
  | entry .. => 5
  | announcement .. => 11

/-- A call that keeps the numbering. SQLite: its hash has no entry under another spelling. InnoDB: if
    its hash has no entry yet, it fits into the column, and the connection is not lost between the
    insert of the leaf and the commit. -/
structure Regular (server : AppendServer) (s : Storage) (r : Request) : Prop where
  sqlite : server.backend = .sqlite → ∀ text bytes, r.hash server = some (text, bytes) →
    ∀ e ∈ s.index, Text.fromhex e.1 = some bytes → e.1 = text
  mariadb : server.backend = .mariadb → ∀ text bytes, r.hash server = some (text, bytes) →
    s.findEntry server.backend text = none →
      (Backend.trimEnd text).length ≤ 64 ∧
      ∀ n, r.fault = some n → n ≤ r.leafStatement ∨ r.statements ≤ n

/-- The text of a hash is 32 bytes of lower-case hexadecimal. -/
theorem hash_spec {server : AppendServer} {r : Request} {text : String} {bytes : Bytes}
    (h : r.hash server = some (text, bytes)) :
    Text.fromhex text = some bytes ∧ bytes.length = 32 ∧ Text.lower text = text := by
  cases r with
  | entry entryHash submittedAt transfer kind data fault =>
    cases hprepare : prepareEntry entryHash transfer data with
    | error e => simp [hash, hprepare] at h
    | ok prepared =>
      simp only [hash, hprepare] at h
      obtain ⟨bs, hbs, hrest⟩ := Check.bind_eq_ok.1 hprepare
      obtain ⟨transferJson, -, hrest⟩ := Check.bind_eq_ok.1 hrest
      obtain ⟨entryJson, -, hrest⟩ := Check.bind_eq_ok.1 hrest
      obtain rfl := Check.pure_eq_ok.1 hrest
      obtain ⟨rfl, rfl⟩ := Prod.mk.inj (Option.some.inj h)
      obtain ⟨raw, hraw, hchecked⟩ := Check.bind_eq_ok.1 hbs
      obtain ⟨hlength, hpure⟩ := Check.check_bind_eq_ok.1 hchecked
      obtain rfl := Check.pure_eq_ok.1 hpure
      exact ⟨Check.ofOption_eq_ok.1 hraw, Check.require_eq_ok.1 hlength, Text.lower_lower _⟩
  | announcement clock t submittedAt fault =>
    cases hprepare : server.prepareTransfer clock t with
    | error e => simp [hash, hprepare] at h
    | ok prepared =>
      simp only [hash, hprepare] at h
      obtain ⟨hashText, hhash, hrest⟩ := Check.bind_eq_ok.1 hprepare
      obtain ⟨spendKey, -, hrest⟩ := Check.bind_eq_ok.1 hrest
      obtain rfl := Check.pure_eq_ok.1 hrest
      obtain ⟨raw, hraw, heq⟩ := Option.map_eq_some_iff.1 h
      obtain ⟨rfl, rfl⟩ := Prod.mk.inj heq
      obtain ⟨encoded, -, hdigest⟩ := Check.bind_eq_ok.1 hhash
      obtain ⟨digest, -, hpure⟩ := Check.bind_eq_ok.1 hdigest
      have htext := Check.pure_eq_ok.1 hpure
      have hlen := (Transfer.hashed_of_transferHash hhash).hash_hex.1
      rw [← htext, Text.fromhex_hex] at hraw
      obtain rfl := Option.some.inj hraw
      rw [← htext, Text.length_hex] at hlen
      exact ⟨by rw [← htext, Text.fromhex_hex], by omega, by rw [← htext, Text.lower_hex]⟩

end Request

/-- **What a regular call does**: its transaction commits an append, or the tables stay. -/
theorem step_cases {server : AppendServer} {s : Storage} {r : Request}
    (hids : ∀ e ∈ s.index, e.2 ≤ s.lastLeafId) (hregular : r.Regular server s) :
    (∃ text bytes spendKey stored, r.hash server = some (text, bytes) ∧
      (server.step s r).1 = .ok (answer text spendKey stored) ∧
      Outcome server.backend s text bytes stored (server.step s r).2) ∨
    ∃ e, server.step s r = (.error e, s) := by
  have hfits : ∀ text bytes, r.hash server = some (text, bytes) →
      s.findEntry server.backend text = none →
      ∃ column, server.backend.hashColumn text = .ok column := by
    intro text bytes hhash hfresh
    cases hback : server.backend with
    | sqlite => exact ⟨text, rfl⟩
    | mariadb =>
      exact ⟨_, Check.check_bind_eq_ok.2
        ⟨Check.require_of (hregular.mariadb hback _ _ hhash hfresh).1 _, rfl⟩⟩
  have hbefore : ∀ text bytes, r.hash server = some (text, bytes) →
      Before server.backend s text r.leafStatement r.statements ⟨s, r.fault⟩ :=
    fun text bytes hhash =>
      ⟨rfl, fun hback hfresh n hn => (hregular.mariadb hback _ _ hhash hfresh).2 n hn⟩
  cases r with
  | entry entryHash submittedAt transfer kind data fault =>
    cases hprepare : prepareEntry entryHash transfer data with
    | error e => exact .inr ⟨e, by simp only [step, appendEntryHash, hprepare]⟩
    | ok prepared =>
      obtain ⟨bytes, transferJson, entryJson⟩ := prepared
      have hhash : (Request.entry entryHash submittedAt transfer kind data fault).hash server
          = some (Text.lower entryHash, bytes) := by
        simp only [Request.hash, hprepare]
      have hstep : server.step s (.entry entryHash submittedAt transfer kind data fault)
          = (server.appendEntryConn (Text.lower entryHash) bytes submittedAt kind entryJson
            transferJson).run server.backend.rollback fault s := by
        simp only [step, appendEntryHash, hprepare]
      have hstart : Before server.backend s (Text.lower entryHash) 1 5 ⟨s, fault⟩ :=
        hbefore _ _ hhash
      have hrun := (appendEntryConn_triple server bytes submittedAt kind entryJson transferJson hids
        (hfits _ _ hhash)).run server.backend.rollback hstart
        fun _ session h hlost => h.elim fun _ h => h.2.undone_of_lost hlost
      rcases hrun with ⟨_, session, ⟨stored, rfl, hafter⟩, hrun⟩ | ⟨e, session, hundone, hrun⟩
      · rw [hstep, hrun]
        exact .inl ⟨_, bytes, none, stored, hhash, rfl, hafter.1⟩
      · rw [hstep, hrun, hundone]
        exact .inr ⟨e, rfl⟩
  | announcement clock t submittedAt fault =>
    cases hprepare : server.prepareTransfer clock t with
    | error e => exact .inr ⟨e, by simp only [step, appendTransferAnnouncement, hprepare]⟩
    | ok prepared =>
      obtain ⟨entryHash, spendKey⟩ := prepared
      have hhash : ∃ bytes, (Request.announcement clock t submittedAt fault).hash server
          = some (entryHash, bytes) ∧ Text.fromhex entryHash = some bytes := by
        obtain ⟨hashText, htransfer, hrest⟩ := Check.bind_eq_ok.1 hprepare
        obtain ⟨key, -, hrest⟩ := Check.bind_eq_ok.1 hrest
        obtain ⟨rfl, -⟩ := Prod.mk.inj (Check.pure_eq_ok.1 hrest)
        obtain ⟨bytes, hbytes⟩ := Option.isSome_iff_exists.1
          (Transfer.hashed_of_transferHash htransfer).hash_hex.2
        refine ⟨bytes, ?_, hbytes⟩
        simp only [Request.hash, hprepare, hbytes, Option.map_some]
      obtain ⟨bytes, hhash, hbytes⟩ := hhash
      have hstep : server.step s (.announcement clock t submittedAt fault)
          = (server.appendTransferConn t spendKey entryHash submittedAt).run
            server.backend.rollback fault s := by
        simp only [step, appendTransferAnnouncement, hprepare]
      have hstart : Before server.backend s entryHash 2 11 ⟨s, fault⟩ := hbefore _ _ hhash
      have hrun := (appendTransferConn_triple server t spendKey submittedAt hbytes hids
        (hfits _ _ hhash)).run server.backend.rollback hstart
        fun _ session h hlost => h.elim fun _ h => h.2.undone_of_lost hlost
      rcases hrun with ⟨_, session, ⟨stored, rfl, hafter⟩, hrun⟩ | ⟨e, session, hundone, hrun⟩
      · rw [hstep, hrun]
        exact .inl ⟨_, bytes, some spendKey, stored, hhash, rfl, hafter.1⟩
      · rw [hstep, hrun, hundone]
        exact .inr ⟨e, rfl⟩

end AppendServer

/-! ## The numbering over a run -/

namespace Storage

/-- The numbering, with the counter of leaf ids and, on InnoDB, the one spelling of every hash. -/
structure Counted (backend : Backend) (s : Storage) : Prop extends s.Numbered where
  lastLeafId : s.lastLeafId = s.leaf.length
  spelling : backend = .mariadb → ∀ e ∈ s.index, ∀ bytes, Text.fromhex e.1 = some bytes →
    e.1 = Text.hex bytes

theorem counted_empty (backend : Backend) : Counted backend Storage.empty where
  ids := rfl
  indexed := fun _ he => nomatch he
  distinct := List.Pairwise.nil
  lastLeafId := rfl
  spelling := fun _ _ he => nomatch he

/-- The leaf of an entry is one of the leaves counted. -/
theorem Numbered.mem_ids {s : Storage} (h : s.Numbered) {e : String × Nat} (he : e ∈ s.index) :
    1 ≤ e.2 ∧ e.2 ≤ s.leaf.length := by
  obtain ⟨l, hl, hid, -⟩ := h.indexed e he
  have hmem : l.id ∈ s.leaf.map Leaf.id := List.mem_map_of_mem hl
  rw [h.ids, List.mem_range'_1] at hmem
  omega

end Storage

/-- An entry for a hash that has none under any spelling keeps the entries distinct. -/
theorem Storage.Counted.fresh {backend : Backend} {s u : Storage} {column : String}
    {bytes leafHash : Bytes} (h : s.Counted backend)
    (hkept : Text.fromhex column = some bytes)
    (hspelling : backend = .mariadb → column = Text.hex bytes)
    (hnew : ∀ e ∈ s.index, Text.fromhex e.1 ≠ some bytes)
    (hleaf : u.leaf = s.leaf ++ [⟨s.lastLeafId + 1, bytes, leafHash⟩])
    (hlast : u.lastLeafId = s.lastLeafId + 1)
    (hindex : u.index = s.index ++ [(column, s.lastLeafId + 1)]) : u.Counted backend where
  ids := by
    rw [hleaf, List.map_append, List.length_append, h.ids, List.length_singleton,
      List.range'_concat, h.lastLeafId]
    simp [Nat.add_comm]
  indexed := by
    intro e he
    rw [hindex] at he
    rw [hleaf]
    rcases List.mem_append.1 he with hold | hlastEntry
    · obtain ⟨l, hl, hid, hentry⟩ := h.indexed e hold
      exact ⟨l, List.mem_append_left _ hl, hid, hentry⟩
    · obtain rfl := List.mem_singleton.1 hlastEntry
      exact ⟨_, List.mem_append_right _ (List.mem_singleton_self _), rfl, hkept⟩
  distinct := by
    rw [hindex, List.pairwise_append]
    refine ⟨h.distinct, List.pairwise_singleton _ _, fun e he f hf => ?_⟩
    obtain rfl := List.mem_singleton.1 hf
    rw [hkept]
    exact hnew e he
  lastLeafId := by
    rw [hlast, hleaf, List.length_append, h.lastLeafId]
    rfl
  spelling := by
    intro hback e he other hother
    rw [hindex] at he
    rcases List.mem_append.1 he with hold | hlastEntry
    · exact h.spelling hback e hold other hother
    · obtain rfl := List.mem_singleton.1 hlastEntry
      rw [hkept] at hother
      obtain rfl := Option.some.inj hother
      exact hspelling hback

theorem Storage.Counted.congr {backend : Backend} {s u : Storage} (h : s.Counted backend)
    (hsame : s.SameNumbering u) : u.Counted backend where
  ids := by rw [hsame.leaf, h.ids]
  indexed := by
    rw [hsame.index, hsame.leaf]
    exact h.indexed
  distinct := by
    rw [hsame.index]
    exact h.distinct
  lastLeafId := by rw [hsame.lastLeafId, hsame.leaf, h.lastLeafId]
  spelling := by
    rw [hsame.index]
    exact h.spelling

/-- An append keeps the numbering, where no entry has another spelling of its hash on SQLite, and
    the hash fits into its column on InnoDB. -/
theorem Storage.Counted.outcome {backend : Backend} {s u : Storage} {text : String}
    {bytes : Bytes} {stored : Stored} (h : s.Counted backend)
    (houtcome : Outcome backend s text bytes stored u) (hbytes : Text.fromhex text = some bytes)
    (hlength : bytes.length = 32) (hlower : Text.lower text = text)
    (hsqlite : backend = .sqlite → ∀ e ∈ s.index, Text.fromhex e.1 = some bytes → e.1 = text)
    (hmariadb : backend = .mariadb → s.findEntry backend text = none →
      (Backend.trimEnd text).length ≤ 64) :
    u.Counted backend ∧ s.Extends u ∧ 1 ≤ stored.leafIndex ∧
      stored.leafIndex ≤ stored.treeSize := by
  cases houtcome with
  | duplicate hfind hsame =>
    have hid := h.mem_ids (Storage.mem_index_of_findEntry hfind)
    refine ⟨h.congr hsame, ⟨?_, ?_⟩, hid⟩
    · exact hsame.leaf ▸ List.prefix_rfl
    · exact hsame.index ▸ List.prefix_rfl
  | @fresh leafHash column _ hfind hcolumn hleaf hlast hindex =>
    have hnone := Storage.findEntry_eq_none.1 hfind
    have hextends : s.Extends u := ⟨by rw [hleaf]; exact List.prefix_append _ _,
      by rw [hindex]; exact List.prefix_append _ _⟩
    have hid : 1 ≤ s.lastLeafId + 1 ∧ s.lastLeafId + 1 ≤ s.leaf.length + 1 := by
      rw [h.lastLeafId]
      omega
    refine ⟨?_, hextends, hid⟩
    cases backend with
    | sqlite =>
      obtain rfl := Except.ok.inj hcolumn
      refine h.fresh hbytes (fun hback => nomatch hback) (fun e he hsame => ?_) hleaf hlast hindex
      have heq : Backend.sqlite.hashEquals e.1 text = true :=
        beq_iff_eq.2 (hsqlite rfl e he hsame)
      rw [hnone e he] at heq
      cases heq
    | mariadb =>
      have hhex := Backend.trimEnd_eq_hex hbytes hlength hlower (hmariadb rfl hfind)
      obtain ⟨-, hpure⟩ := Check.check_bind_eq_ok.1 hcolumn
      have hkept : column = Text.hex bytes := (Check.pure_eq_ok.1 hpure).symm.trans hhex
      refine h.fresh (by rw [hkept, Text.fromhex_hex]) (fun _ => hkept) (fun e he hsame => ?_)
        hleaf hlast hindex
      have heq : Backend.mariadb.hashEquals e.1 text = true := by
        show (Backend.trimEnd e.1 == Backend.trimEnd text) = true
        rw [h.spelling rfl e he _ hsame, ← hhex, Backend.trimEnd_trimEnd]
        exact beq_self_eq_true _
      rw [hnone e he] at heq
      cases heq

namespace AppendServer

/-- What one call may do to a numbering. -/
structure ExactStep (server : AppendServer) (s : Storage) (r : Request) : Prop where
  numbered : (server.step s r).2.Numbered
  extended : s.Extends (server.step s r).2
  below : ∀ result, (server.step s r).1 = .ok result →
    0 ≤ result.leafIndex ∧ result.leafIndex < result.treeSize

/-- **A regular call keeps the numbering.** -/
theorem step_counted {server : AppendServer} {s : Storage} {r : Request}
    (h : s.Counted server.backend) (hregular : r.Regular server s) :
    (server.step s r).2.Counted server.backend ∧ server.ExactStep s r := by
  have hids : ∀ e ∈ s.index, e.2 ≤ s.lastLeafId := by
    intro e he
    rw [h.lastLeafId]
    exact (h.mem_ids he).2
  rcases step_cases hids hregular with
    ⟨text, bytes, spendKey, stored, hhash, hresult, houtcome⟩ | ⟨e, hstep⟩
  · obtain ⟨hbytes, hlength, hlower⟩ := Request.hash_spec hhash
    obtain ⟨hcounted, hextends, hone, hsize⟩ := h.outcome houtcome hbytes hlength hlower
      (fun hback => hregular.sqlite hback text bytes hhash)
      (fun hback hfresh => (hregular.mariadb hback text bytes hhash hfresh).1)
    refine ⟨hcounted, hcounted.toNumbered, hextends, fun result hok => ?_⟩
    obtain rfl := Except.ok.inj (hresult.symm.trans hok)
    show 0 ≤ (stored.leafIndex : Int) - 1 ∧ (stored.leafIndex : Int) - 1 < stored.treeSize
    omega
  · rw [hstep]
    refine ⟨h, ?_, ?_, ?_⟩
    · rw [hstep]
      exact h.toNumbered
    · rw [hstep]
      exact Storage.Extends.refl s
    · intro result hok
      rw [hstep] at hok
      cases hok

/-- Every call of a list is regular in the state it is made in. -/
def RegularRun (server : AppendServer) : Storage → List Request → Prop
  | _, [] => True
  | s, r :: rest => r.Regular server s ∧ RegularRun server (server.step s r).2 rest

/-- Every call of a list keeps the numbering, and the tables of every later state extend those of
    every earlier one. -/
def ExactRun (server : AppendServer) (s : Storage) (requests : List Request) : Prop :=
  ∀ earlier later, requests = earlier ++ later →
    (server.runAll s earlier).Numbered ∧
    (server.runAll s earlier).Extends (server.runAll s requests) ∧
    ∀ r ∈ later.head?, server.ExactStep (server.runAll s earlier) r

theorem runAll_cons (server : AppendServer) (s : Storage) (r : Request) (rest : List Request) :
    server.runAll s (r :: rest) = server.runAll (server.step s r).2 rest :=
  rfl

theorem extends_runAll {server : AppendServer} {s : Storage} {requests : List Request}
    (h : s.Counted server.backend) (hregular : server.RegularRun s requests) :
    s.Extends (server.runAll s requests) := by
  induction requests generalizing s with
  | nil => exact Storage.Extends.refl s
  | cons r rest ih =>
    obtain ⟨hcounted, hstep⟩ := step_counted h hregular.1
    exact hstep.extended.trans (ih hcounted hregular.2)

theorem exactRun_of_counted {server : AppendServer} {s : Storage} {requests : List Request}
    (h : s.Counted server.backend) (hregular : server.RegularRun s requests) :
    server.ExactRun s requests := by
  induction requests generalizing s with
  | nil =>
    intro earlier later heq
    obtain ⟨rfl, rfl⟩ := List.append_eq_nil_iff.1 heq.symm
    exact ⟨h.toNumbered, Storage.Extends.refl s, fun r hr => nomatch hr⟩
  | cons r rest ih =>
    intro earlier later heq
    obtain ⟨hcounted, hstep⟩ := step_counted h hregular.1
    cases earlier with
    | nil =>
      refine ⟨h.toNumbered, extends_runAll h hregular, fun first hfirst => ?_⟩
      rw [List.nil_append] at heq
      rw [← heq, List.head?_cons, Option.mem_some_iff] at hfirst
      rw [← hfirst]
      exact hstep
    | cons first earlier =>
      obtain ⟨rfl, hrest⟩ := List.cons.inj heq
      exact ih hcounted hregular.2 earlier later hrest

/-- **A run of regular calls on an empty storage numbers its leaves exactly.** -/
theorem exactRun (server : AppendServer) (requests : List Request)
    (hregular : server.RegularRun Storage.empty requests) :
    server.ExactRun Storage.empty requests :=
  exactRun_of_counted (Storage.counted_empty _) hregular

/-! ## A gap -/

/-- An operator on a backend, with the sample cryptography. -/
def sample (backend : Backend) : AppendServer := ⟨backend, sampleCrypto, id⟩

/-- The call that appends the hash of 32 equal bytes. -/
def sampleEntry (byte : UInt8) (fault : Option Nat) : Request :=
  .entry (Text.hex (List.replicate 32 byte)) 1700000000 none "transfer" none fault

theorem hash_sampleEntry (server : AppendServer) (byte : UInt8) (fault : Option Nat) :
    (sampleEntry byte fault).hash server
      = some (Text.hex (List.replicate 32 byte), List.replicate 32 byte) := by
  have hprepare : prepareEntry (Text.hex (List.replicate 32 byte)) none none
      = .ok (List.replicate 32 byte, none, none) := by
    have hfromhex : Text.fromhex (Text.lower (Text.hex (List.replicate 32 byte)))
        = some (List.replicate 32 byte) := by
      rw [Text.lower_hex, Text.fromhex_hex]
    unfold prepareEntry decodeEntryHash
    rw [hfromhex]
    rfl
  simp only [sampleEntry, Request.hash, hprepare, Text.lower_hex]

/-- The run of two appends, of which nothing breaks off, has an exact numbering on InnoDB. -/
theorem exactRun_sample : (sample .mariadb).ExactRun Storage.empty
    [sampleEntry 17 none, sampleEntry 34 none] := by
  have hregular : ∀ s byte, (sampleEntry byte none).Regular (sample .mariadb) s := by
    intro s byte
    refine ⟨fun hback => (nomatch hback), fun _ text bytes hhash _ => ⟨?_, fun n hn => nomatch hn⟩⟩
    rw [hash_sampleEntry] at hhash
    obtain ⟨rfl, -⟩ := Prod.mk.inj (Option.some.inj hhash)
    obtain ⟨blanks, happend, -⟩ := Backend.exists_trimEnd_append
      (Text.hex (List.replicate 32 byte))
    have hlength := congrArg List.length happend
    rw [List.length_append, String.length_toList, String.length_toList, Text.length_hex,
      List.length_replicate] at hlength
    omega
  exact exactRun _ _ ⟨hregular _ _, hregular _ _, trivial⟩

/-- On InnoDB an append that is rolled back after its leaf leaves a gap: the next leaf has id 2. -/
theorem not_exactRun_of_rollback : ¬ ∀ (server : AppendServer) (requests : List Request),
    server.ExactRun Storage.empty requests := by
  intro hall
  obtain ⟨hnumbered, -, -⟩ := hall (sample .mariadb) [sampleEntry 17 (some 2), sampleEntry 34 none]
    _ [] (List.append_nil _).symm
  have hids : ((sample .mariadb).runAll Storage.empty
      [sampleEntry 17 (some 2), sampleEntry 34 none]).leaf.map Leaf.id = [2] := by
    decide +kernel
  have hgap := hnumbered.ids
  rw [hids, ← List.length_map Leaf.id, hids] at hgap
  cases hgap

end AppendServer
