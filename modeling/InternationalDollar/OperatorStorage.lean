import InternationalDollar.Transfer
import InternationalDollar.Lib.Transaction

set_option autoImplicit false

/-! # Operator storage

The tables into which an operator appends, on its two backends. Every append is one transaction; it
can break off at any statement. SQLite then restores the counter of leaf ids with the tables, InnoDB
keeps it. The writer lock makes appends follow each other, so a run is a list of transactions.

The leaf ids are the positions of the Merkle tree and the row count is its size. `exact_run` says
when a run keeps the two together. -/

/-- The backends of `operator_storage`. -/
inductive Backend where
  | sqlite
  | mariadb
deriving DecidableEq, Repr

/-- A row of `leaf`. -/
structure Leaf where
  id : Nat
  entry : Bytes
  hash : Bytes
deriving DecidableEq

/-- A row of `log_entries`. JSON texts are kept as their UTF-8 bytes. -/
structure LogEntry where
  entryHash : String
  leafIndex : Nat
  submittedAt : Int
  entryKind : String
  entryJson : Option Bytes
  transferJson : Option Bytes
deriving DecidableEq

/-- A row of `spend_claims`. -/
structure SpendClaimRow where
  spendKey : String
  tokenId : String
  previousHash : String
  sequence : Int
  senderAddress : String
  senderPublicKey : String
  transferHash : String
  transferLeafIndex : Option Int
  firstSeen : Int
deriving DecidableEq

/-- The tables, and the last leaf id that the database has given out. -/
structure Storage where
  leaf : List Leaf
  lastLeafId : Nat
  logEntries : List LogEntry
  spendClaims : List SpendClaimRow
deriving DecidableEq

/-- A storage after `init_schema`. -/
def Storage.empty : Storage := ⟨[], 0, [], []⟩

namespace Backend

/-- A text as a `CHAR(64)` column of MariaDB keeps it: without the blanks at its end. -/
def trimEnd (text : String) : String :=
  String.ofList (text.toList.reverse.dropWhile (· == ' ')).reverse

/-- The text that the column of a hash stores. -/
def hashColumn : Backend → String → Except String String
  | sqlite, text => .ok text
  | mariadb, text => do
      Check.require ((trimEnd text).length ≤ 64) "Data too long for column"
      pure (trimEnd text)

/-- Whether the column of a hash equals a text. -/
def hashEquals : Backend → String → String → Bool
  | sqlite, stored, text => stored == text
  | mariadb, stored, text => trimEnd stored == trimEnd text

/-- The tables after a rollback: InnoDB keeps the counter of leaf ids. -/
def rollback : Backend → Storage → Storage → Storage
  | sqlite, before, _ => before
  | mariadb, before, working => { before with lastLeafId := working.lastLeafId }

end Backend

namespace Storage

/-- `SELECT ... FROM log_entries WHERE entry_hash = ?`. -/
def findEntry (backend : Backend) (entryHash : String) (s : Storage) : Option LogEntry :=
  s.logEntries.find? fun e => backend.hashEquals e.entryHash entryHash

/-- `INSERT INTO leaf`, and the new row's id. -/
def insertLeaf (entryBytes leafHash : Bytes) (s : Storage) : Except String Nat × Storage :=
  (.ok (s.lastLeafId + 1), { s with
    leaf := s.leaf ++ [⟨s.lastLeafId + 1, entryBytes, leafHash⟩]
    lastLeafId := s.lastLeafId + 1 })

/-- `INSERT INTO log_entries`, with the primary key and the unique leaf index. -/
def insertLogEntry (backend : Backend) (row : LogEntry) (s : Storage) :
    Except String Unit × Storage :=
  match backend.hashColumn row.entryHash with
  | .error e => (.error e, s)
  | .ok text =>
      if s.logEntries.any fun e => backend.hashEquals e.entryHash text || e.leafIndex == row.leafIndex
      then (.error "UNIQUE constraint failed", s)
      else (.ok (), { s with logEntries := s.logEntries ++ [{ row with entryHash := text }] })

/-- `UPDATE log_entries SET transfer_json = COALESCE(transfer_json, ?), ...`. The kind of an entry
    is never null. -/
def fillLogEntry (backend : Backend) (entryHash : String) (entryJson transferJson : Option Bytes)
    (s : Storage) : Storage :=
  { s with logEntries := s.logEntries.map fun e =>
      if backend.hashEquals e.entryHash entryHash then
        { e with
          transferJson := e.transferJson.or transferJson
          entryJson := e.entryJson.or entryJson }
      else e }

/-- The claims of a spend key and a transfer. -/
def findClaim (backend : Backend) (spendKey transferHash : String) (s : Storage) :
    Option SpendClaimRow :=
  s.spendClaims.find? fun c =>
    backend.hashEquals c.spendKey spendKey && backend.hashEquals c.transferHash transferHash

/-- `INSERT OR IGNORE INTO spend_claims`. -/
def insertClaim (backend : Backend) (row : SpendClaimRow) (s : Storage) : Storage :=
  match s.findClaim backend row.spendKey row.transferHash with
  | some _ => s
  | none => { s with spendClaims := s.spendClaims ++ [row] }

/-- `UPDATE spend_claims SET transfer_leaf_index = COALESCE(transfer_leaf_index, ?)`. -/
def indexClaim (backend : Backend) (spendKey transferHash : String) (leafIndex : Int)
    (s : Storage) : Storage :=
  { s with spendClaims := s.spendClaims.map fun c =>
      if backend.hashEquals c.spendKey spendKey && backend.hashEquals c.transferHash transferHash then
        { c with transferLeafIndex := c.transferLeafIndex.or (some leafIndex) }
      else c }

/-- The first claim that spends the same key with another transfer. -/
def conflictingClaim (backend : Backend) (spendKey transferHash : String) (s : Storage) :
    Option SpendClaimRow :=
  s.spendClaims.find? fun c =>
    backend.hashEquals c.spendKey spendKey && !backend.hashEquals c.transferHash transferHash

end Storage

/-! ## Appends -/

/-- What `append_log_entry_conn` returns. -/
structure Stored where
  duplicate : Bool
  leafIndex : Nat
  treeSize : Nat
deriving DecidableEq

/-- The update of an entry that is there already, which runs only when there is a text to add. -/
def fillExisting (backend : Backend) (entryHash : String) (entryJson transferJson : Option Bytes) :
    Transaction Storage Unit :=
  if transferJson.isSome || entryJson.isSome then
    Transaction.update (Storage.fillLogEntry backend entryHash entryJson transferJson)
  else pure ()

/-- `append_log_entry_conn`. -/
def appendLogEntryConn (backend : Backend) (entryHash : String) (entryBytes leafHash : Bytes)
    (submittedAt : Int) (entryKind : String) (entryJson transferJson : Option Bytes) :
    Transaction Storage Stored := do
  let existing ← Transaction.query (Storage.findEntry backend entryHash)
  match existing with
  | some e => do
      fillExisting backend entryHash entryJson transferJson
      let treeSize ← Transaction.query fun s => s.leaf.length
      pure ⟨true, e.leafIndex, treeSize⟩
  | none => do
      let leafIndex ← Transaction.statement (Storage.insertLeaf entryBytes leafHash)
      Transaction.statement (Storage.insertLogEntry backend
        ⟨entryHash, leafIndex, submittedAt, entryKind, entryJson, transferJson⟩)
      let treeSize ← Transaction.query fun s => s.leaf.length
      pure ⟨false, leafIndex, treeSize⟩

/-- What the server answers to an accepted append. -/
structure Accepted where
  duplicate : Bool
  entryHash : String
  leafIndex : Int
  treeSize : Int
  spendKey : Option String
deriving DecidableEq

/-- An append server: its backend, the cryptography of the protocol and the hash of the Merkle
    tree's leaves. -/
structure AppendServer where
  backend : Backend
  crypto : Crypto
  hashBuff : Bytes → Bytes

namespace AppendServer

/-- `canonical_json(value) if value is not None else None`. -/
def optionalJson : Option Json → Except String (Option Bytes)
  | none => .ok none
  | some data => do
      let raw ← canonicalBytes data
      pure (some raw)

/-- The checks of `append_entry_hash` before its transaction. -/
def decodeEntryHash (entryHash : String) : Except String Bytes := do
  let raw ← Check.ofOption (Text.fromhex entryHash) "invalid transparency entry hash"
  Check.require (raw.length = 32) "invalid transparency entry hash length"
  pure raw

/-- The answer to what a transaction of `append_log_entry_conn` stored. -/
def answer (entryHash : String) (spendKey : Option String) (stored : Stored) : Accepted :=
  ⟨stored.duplicate, entryHash, (stored.leafIndex : Int) - 1, stored.treeSize, spendKey⟩

/-- What `append_entry_hash` computes before its transaction: the entry and the two JSON texts. -/
def prepareEntry (entryHash : String) (transfer entry : Option Json) :
    Except String (Bytes × Option Bytes × Option Bytes) := do
  let entryBytes ← decodeEntryHash (Text.lower entryHash)
  let transferJson ← optionalJson transfer
  let entryJson ← optionalJson entry
  pure (entryBytes, transferJson, entryJson)

/-- The transaction of `append_entry_hash`, and the answer. -/
def appendEntryConn (server : AppendServer) (entryHash : String) (entryBytes : Bytes)
    (submittedAt : Int) (entryKind : String) (entryJson transferJson : Option Bytes) :
    Transaction Storage Accepted := do
  let stored ← appendLogEntryConn server.backend entryHash entryBytes
    (server.hashBuff entryBytes) submittedAt
    (if entryKind = "" then "transfer" else entryKind) entryJson transferJson
  pure (answer entryHash none stored)

/-- `append_entry_hash`. -/
def appendEntryHash (server : AppendServer) (entryHash : String) (submittedAt : Int)
    (transfer : Option Json) (entryKind : String) (entry : Option Json) (fault : Option Nat)
    (s : Storage) : Except String Accepted × Storage :=
  match prepareEntry entryHash transfer entry with
  | .error e => (.error e, s)
  | .ok (entryBytes, transferJson, entryJson) =>
      (server.appendEntryConn (Text.lower entryHash) entryBytes submittedAt entryKind entryJson
        transferJson).run server.backend.rollback fault s

/-- `_record_spend_claim`. The tables of the spend map are not among the tables here; the last
    statement stands for what is written there, and for all that can fail there. -/
def recordSpendClaim (server : AppendServer) (t : Transfer) (spendKey transferHash : String)
    (leafIndex firstSeen : Int) : Transaction Storage Unit := do
  let _ ← Transaction.query (Storage.findClaim server.backend spendKey transferHash)
  Transaction.update (Storage.insertClaim server.backend ⟨spendKey, t.tokenId,
    t.previousHash, t.sequence, t.senderAddress, t.senderPublicKey, transferHash, some leafIndex,
    firstSeen⟩)
  Transaction.update (Storage.indexClaim server.backend spendKey transferHash leafIndex)
  let persisted ← Transaction.query (Storage.findClaim server.backend spendKey transferHash)
  Transaction.lift (Check.require persisted.isSome "spend claim was not recorded")
  Transaction.update id

/-- The transaction of `append_transfer_announcement`. -/
def appendTransferConn (server : AppendServer) (t : Transfer) (spendKey entryHash : String)
    (submittedAt : Int) : Transaction Storage Accepted := do
  let conflict ← Transaction.query (Storage.conflictingClaim server.backend spendKey entryHash)
  Transaction.lift (Check.require conflict.isNone "conflicting spend is rejected")
  let entryBytes ← Transaction.lift
    (Check.ofOption (Text.fromhex entryHash) "non-hexadecimal number found")
  let transferJson ← Transaction.lift (canonicalBytes t.toJson)
  let stored ← appendLogEntryConn server.backend entryHash entryBytes
    (server.hashBuff entryBytes) submittedAt "transfer" none (some transferJson)
  server.recordSpendClaim t spendKey entryHash ((stored.leafIndex : Int) - 1) submittedAt
  pure (answer entryHash (some spendKey) stored)

/-- The hash and the spend key of the transfer of an announcement. -/
def prepareTransfer (server : AppendServer) (clock : Int) (t : Transfer) :
    Except String (String × String) := do
  let entryHash ← t.transferHash server.crypto clock
  let spendKey ← t.spendKeyForTransfer server.crypto
  pure (entryHash, spendKey)

/-- `append_transfer_announcement`, for an announcement that was verified and whose last transfer is
    `t`. What it refuses before reaches no table. -/
def appendTransferAnnouncement (server : AppendServer) (clock : Int) (t : Transfer)
    (submittedAt : Int) (fault : Option Nat) (s : Storage) : Except String Accepted × Storage :=
  match server.prepareTransfer clock t with
  | .error e => (.error e, s)
  | .ok (entryHash, spendKey) =>
      (server.appendTransferConn t spendKey entryHash submittedAt).run
        server.backend.rollback fault s

/-- A call of one of the two appends, and the statement at which its connection is lost. -/
inductive Request where
  | entry (entryHash : String) (submittedAt : Int) (transfer : Option Json) (entryKind : String)
      (entry : Option Json) (fault : Option Nat)
  | announcement (clock : Int) (t : Transfer) (submittedAt : Int) (fault : Option Nat)

/-- The answer to a call, and the tables after it. -/
def step (server : AppendServer) (s : Storage) : Request → Except String Accepted × Storage
  | .entry entryHash submittedAt transfer entryKind entry fault =>
      server.appendEntryHash entryHash submittedAt transfer entryKind entry fault s
  | .announcement clock t submittedAt fault =>
      server.appendTransferAnnouncement clock t submittedAt fault s

/-- The tables after a list of calls. -/
def runAll (server : AppendServer) (s : Storage) (requests : List Request) : Storage :=
  requests.foldl (fun s r => (server.step s r).2) s

end AppendServer
