import InternationalDollar.Lib.Lines
import InternationalDollar.SettlementQuery

set_option autoImplicit false

/-! # Status responses

A peer answers a list of references with three lines for a bill that it does not know and four for one
that it knows, and nothing between the entries. The reader drops empty lines, so every line of an entry
has to hold something: the entries come apart again because references are trimmed and not empty, and
because no sequence reads like the status of an unknown bill. -/

namespace LocalStore

open Text

/-! ## The response -/

/-- The placeholder of an owner that is not known. -/
def unknownOwner : String := "x"

/-- `REQUEST_INVALID`. -/
def requestInvalid : String := "invalid"

/-- The lines of one reference in `_status_lines_for_refs`. -/
def recordLines (ref : String) : Option StatusRecord → List String
  | none => [ref, unknownOwner, requestInvalid]
  | some record =>
      [record.displayId, if record.ownerAddress = "" then unknownOwner else record.ownerAddress,
        record.sequence.elim "" decimal, record.status]

/-- The references with their records, each looked up in the store that the lookup before has left. -/
def sentEntries (store : LocalStore) :
    List (String × StatusContext) → List (String × Option StatusRecord) × LocalStore
  | [] => ([], store)
  | (ref, c) :: rest =>
      let (record, store') := store.statusRecordForRef c ref
      let (entries, store'') := sentEntries store' rest
      ((ref, record) :: entries, store'')

/-- `_status_lines_for_refs`. -/
def statusLinesForRefs (store : LocalStore) (lookups : List (String × StatusContext)) : String :=
  joinLines ((store.sentEntries lookups).1.flatMap fun entry => recordLines entry.1 entry.2)

/-! ## Its reader -/

/-- A record of `_parse_status_response`. -/
structure ParsedStatus where
  ref : String
  displayId : String
  ownerAddress : String
  sequence : Option Int
  status : String
deriving DecidableEq

/-- The loop of `_parse_status_response`. -/
def parseEntries : List String → List ParsedStatus
  | [] => []
  | [ref] => [⟨ref, ref, "", none, "malformed_response"⟩]
  | [ref, _] => [⟨ref, ref, "", none, "malformed_response"⟩]
  | ref :: owner :: sequence :: rest =>
      if owner = unknownOwner ∧ sequence = requestInvalid then
        ⟨ref, ref, "", none, requestInvalid⟩ :: parseEntries rest
      else
        match rest with
        | [] => [⟨ref, ref, "", none, "malformed_response"⟩]
        | status :: later =>
            ⟨ref, ref, if status = "conflict" then "" else owner, intOfText sequence, status⟩ ::
              parseEntries later

/-- `_parse_status_response`. -/
def parseStatusResponse (raw : String) : List ParsedStatus :=
  parseEntries (((splitlines raw).map strip).filter (· ≠ ""))

/-! ## What is read -/

/-- What is read of a reference is what was sent. An entry that is no conflict can have been sent without
    an owner; then nothing is said of the owner that is read. -/
inductive ReadsAs (ref : String) : Option StatusRecord → ParsedStatus → Prop where
  | unknown {got : ParsedStatus} (displayId : got.displayId = ref) (sequence : got.sequence = none)
      (status : got.status = requestInvalid) (owner : got.ownerAddress = "") : ReadsAs ref none got
  | known {record : StatusRecord} {got : ParsedStatus} (displayId : got.displayId = record.displayId)
      (sequence : got.sequence = record.sequence) (status : got.status = record.status)
      (conflict : record.status = "conflict" → got.ownerAddress = "")
      (owner : record.status ≠ "conflict" → record.ownerAddress ≠ "" →
        got.ownerAddress = record.ownerAddress) : ReadsAs ref (some record) got

/-- A response gives one record for each reference, in order. -/
def ReadsBack (store : LocalStore) (lookups : List (String × StatusContext)) : Prop :=
  List.Forall₂ (fun entry got => ReadsAs entry.1 entry.2 got) (store.sentEntries lookups).1
    (parseStatusResponse (store.statusLinesForRefs lookups))

/-- A record whose texts are lines. -/
structure Sendable (record : StatusRecord) : Prop where
  displayId : IsLine record.displayId
  owner : record.ownerAddress ≠ "" → IsLine record.ownerAddress
  sequence : record.sequence ≠ none
  status : IsLine record.status

/-- The display ids and the addresses of the stored bills are lines. -/
def SendsLines (store : LocalStore) : Prop :=
  ∀ row ∈ store.bills, IsLine row.bill.displayId ∧ IsLine row.bill.ownerAddress

/-- So are the texts of the issued checkpoint and of the token of a reference. -/
def StatusContext.SendsLines (c : StatusContext) : Prop :=
  (∀ record ∈ c.issuedCheckpoint, Sendable record) ∧ ∀ record ∈ c.token, Sendable record

variable {store : LocalStore} {c : StatusContext} {v : Verification}

theorem settledAnswer_level_isLine (ownerAddress : String) (minSettledSeconds now : Int)
    (record : BillRow) :
    IsLine (billV3Confidence.settledAnswer store ownerAddress minSettledSeconds now record).level := by
  unfold billV3Confidence.settledAnswer
  split
  · decide
  · split
    · decide
    · split
      · show IsLine "verified"
        decide
      · show IsLine "verified"
        decide
    · split
      · decide
      · show IsLine "strong_local"
        decide

theorem billV3Confidence_level_isLine (tokenId ownerAddress : String) (minSettledSeconds now : Int) :
    IsLine (store.billV3Confidence v tokenId ownerAddress minSettledSeconds now).1.level := by
  unfold billV3Confidence
  split
  · show IsLine "unknown"
    decide
  · next record _ =>
    rcases store.latestConflictProofV3ForToken v tokenId with ⟨conflict, store'⟩
    cases conflict with
    | none => exact settledAnswer_level_isLine _ _ _ _
    | some proof =>
      by_cases hsettled : record.status ≠ .settled
      · simp only [if_pos hsettled]
        show IsLine "conflict"
        decide
      · simp only [if_neg hsettled]
        exact settledAnswer_level_isLine _ _ _ _

/-! ## Records are lines -/

theorem sendable_conflict {displayId : String} (h : IsLine displayId) (tokenId : String)
    (proof : ConflictProof) : Sendable (conflictStatusRecordV3 tokenId displayId proof) where
  displayId := h
  owner := fun hne => absurd rfl hne
  sequence := fun heq => nomatch heq
  status := by
    show IsLine "conflict"
    decide

theorem sendable_statusRecordForBillV3Row {row : BillRow} (h : IsLine row.bill.displayId)
    (howner : IsLine row.bill.ownerAddress) : Sendable (store.statusRecordForBillV3Row c row).1 := by
  have hconfidence : ∀ s : LocalStore, Sendable (statusRecordForBillV3Row.confidenceRecord c row s).1 :=
    fun s => ⟨h, fun _ => howner, fun heq => (nomatch heq), billV3Confidence_level_isLine _ _ _ _⟩
  unfold statusRecordForBillV3Row
  rcases store.latestConflictProofV3ForToken c.verification row.bill.tokenId with ⟨conflict, store'⟩
  cases conflict with
  | none => exact hconfidence store'
  | some proof =>
    by_cases hsettled : row.status ≠ .settled
    · simp only [if_pos hsettled]
      exact sendable_conflict h _ proof
    · simp only [if_neg hsettled]
      exact hconfidence store'

theorem sendable_statusRecordForRef (h : store.SendsLines) (hc : c.SendsLines) {ref : String}
    (href : IsLine ref) : ∀ record ∈ (store.statusRecordForRef c ref).1, Sendable record := by
  have hissued : ∀ issued ∈ c.issuedCheckpoint, Sendable issued := hc.1
  unfold statusRecordForRef
  rw [href.2, if_neg href.ne_empty]
  cases hrow : store.billV3RowForRef ref with
  | some row =>
    have hmem : row ∈ store.bills := by
      rcases Option.or_eq_some_iff.1 hrow with hfound | ⟨-, hfound⟩
      · exact (List.mem_filter.1 (Select.first_eq_some hfound).1).1
      · exact (List.mem_filter.1 (Select.first_eq_some hfound).1).1
    intro record hrecord
    cases hrecord
    exact sendable_statusRecordForBillV3Row (h row hmem).1 (h row hmem).2
  | none =>
    dsimp only
    rcases store.latestConflictProofV3ForToken c.verification ref with ⟨conflict, store'⟩
    cases hcheckpoint : c.issuedCheckpoint with
    | none =>
      cases conflict with
      | some proof =>
        intro record hrecord
        cases hrecord
        exact sendable_conflict href _ proof
      | none => exact hc.2
    | some issued =>
      have hsendable : Sendable issued := hissued issued hcheckpoint
      cases conflict with
      | some proof =>
        intro record hrecord
        cases hrecord
        exact sendable_conflict hsendable.displayId _ proof
      | none =>
        dsimp only
        rcases store'.latestConflictProofV3ForToken c.verification issued.tokenId with ⟨conflict', store''⟩
        cases conflict' with
        | some proof =>
          intro record hrecord
          cases hrecord
          exact sendable_conflict hsendable.displayId _ proof
        | none =>
          intro record hrecord
          cases hrecord
          exact hsendable

/-! ## Lookups keep the bills -/

theorem bills_billV3Confidence (tokenId ownerAddress : String) (minSettledSeconds now : Int) :
    (store.billV3Confidence v tokenId ownerAddress minSettledSeconds now).2.bills = store.bills := by
  unfold billV3Confidence
  split
  · rfl
  · exact (dropsConflicts_latest store v tokenId).bills

theorem bills_statusRecordForBillV3Row (row : BillRow) :
    (store.statusRecordForBillV3Row c row).2.bills = store.bills := by
  have hbills := (dropsConflicts_latest store c.verification row.bill.tokenId).bills
  unfold statusRecordForBillV3Row
  rcases hlatest : store.latestConflictProofV3ForToken c.verification row.bill.tokenId
    with ⟨conflict, store'⟩
  rw [hlatest] at hbills
  have hconfidence : (statusRecordForBillV3Row.confidenceRecord c row store').2.bills = store.bills :=
    (bills_billV3Confidence _ _ _ _).trans hbills
  cases conflict with
  | none => exact hconfidence
  | some proof =>
    by_cases hsettled : row.status ≠ .settled
    · simp only [if_pos hsettled]
      exact hbills
    · simp only [if_neg hsettled]
      exact hconfidence

theorem bills_statusRecordForRef (ref : String) :
    (store.statusRecordForRef c ref).2.bills = store.bills := by
  unfold statusRecordForRef
  dsimp only
  by_cases hempty : strip ref = ""
  · rw [if_pos hempty]
  · rw [if_neg hempty]
    cases store.billV3RowForRef (strip ref) with
    | some row => exact bills_statusRecordForBillV3Row row
    | none =>
      dsimp only
      have hbills := (dropsConflicts_latest store c.verification (strip ref)).bills
      rcases hlatest : store.latestConflictProofV3ForToken c.verification (strip ref) with ⟨conflict, store'⟩
      rw [hlatest] at hbills
      cases conflict with
      | some proof => exact hbills
      | none =>
        cases c.issuedCheckpoint with
        | none => exact hbills
        | some issued =>
          have hbills' := (dropsConflicts_latest store' c.verification issued.tokenId).bills
          dsimp only
          rcases hlatest' : store'.latestConflictProofV3ForToken c.verification issued.tokenId
            with ⟨conflict', store''⟩
          rw [hlatest'] at hbills'
          cases conflict' with
          | some proof => exact hbills'.trans hbills
          | none => exact hbills'.trans hbills

/-! ## The entries come apart -/

/-- Every record that is sent is made of lines. -/
theorem sendable_sentEntries (h : store.SendsLines) {lookups : List (String × StatusContext)}
    (hlookups : ∀ lookup ∈ lookups, IsLine lookup.1 ∧ lookup.2.SendsLines) :
    ∀ entry ∈ (store.sentEntries lookups).1, IsLine entry.1 ∧ ∀ record ∈ entry.2, Sendable record := by
  induction lookups generalizing store with
  | nil => exact fun _ hentry => absurd hentry List.not_mem_nil
  | cons lookup rest ih =>
    obtain ⟨ref, c⟩ := lookup
    rw [List.forall_mem_cons] at hlookups
    obtain ⟨⟨href, hc⟩, hrest⟩ := hlookups
    have hstore : (store.statusRecordForRef c ref).2.SendsLines :=
      fun row hrow => h row (bills_statusRecordForRef ref ▸ hrow)
    exact List.forall_mem_cons.2 ⟨⟨href, sendable_statusRecordForRef h hc href⟩, ih hstore hrest⟩

theorem isLine_recordLines {ref : String} {record : Option StatusRecord} (href : IsLine ref)
    (h : ∀ r ∈ record, Sendable r) : ∀ line ∈ recordLines ref record, IsLine line := by
  have hunknown : IsLine unknownOwner := by decide
  cases record with
  | none =>
    simp only [recordLines, List.forall_mem_cons]
    exact ⟨href, hunknown, by decide, fun _ hline => absurd hline List.not_mem_nil⟩
  | some record =>
    have hsendable : Sendable record := h record rfl
    have howner : IsLine (if record.ownerAddress = "" then unknownOwner else record.ownerAddress) := by
      by_cases hempty : record.ownerAddress = ""
      · rwa [if_pos hempty]
      · rw [if_neg hempty]
        exact hsendable.owner hempty
    have hsequence : IsLine (record.sequence.elim "" decimal) := by
      obtain ⟨n, hn⟩ := Option.ne_none_iff_exists'.1 hsendable.sequence
      rw [hn]
      exact isLine_decimal n
    simp only [recordLines, List.forall_mem_cons]
    exact ⟨hsendable.displayId, howner, hsequence, hsendable.status,
      fun _ hline => absurd hline List.not_mem_nil⟩

/-- The reader takes the lines of one entry off the front. -/
theorem parseEntries_recordLines {ref : String} {record : Option StatusRecord}
    (h : ∀ r ∈ record, Sendable r) (rest : List String) :
    ∃ got, parseEntries (recordLines ref record ++ rest) = got :: parseEntries rest ∧
      ReadsAs ref record got := by
  cases record with
  | none =>
    refine ⟨⟨ref, ref, "", none, requestInvalid⟩, ?_, .unknown rfl rfl rfl rfl⟩
    show parseEntries (ref :: unknownOwner :: requestInvalid :: rest) = _
    rw [parseEntries.eq_def]
    exact if_pos ⟨rfl, rfl⟩
  | some record =>
    obtain ⟨n, hn⟩ := Option.ne_none_iff_exists'.1 (h record rfl).sequence
    have hread : intOfText (record.sequence.elim "" decimal) = some n := by
      rw [hn]
      exact intOfText_decimal n
    -- A sequence is read as a number, and the status of an unknown bill is none.
    have hknown : record.sequence.elim "" decimal ≠ requestInvalid := by
      intro heq
      have hnone : intOfText requestInvalid = none := by decide
      rw [heq, hnone] at hread
      exact nomatch hread
    refine ⟨⟨record.displayId, record.displayId, if record.status = "conflict" then "" else
      if record.ownerAddress = "" then unknownOwner else record.ownerAddress,
      intOfText (record.sequence.elim "" decimal), record.status⟩, ?_, ?_⟩
    · show parseEntries (record.displayId :: _ :: _ :: record.status :: rest) = _
      rw [parseEntries.eq_def]
      exact if_neg fun hunknown => hknown hunknown.2
    · refine .known rfl (hread.trans hn.symm) rfl (fun hconflict => if_pos hconflict) fun hno howner => ?_
      exact (if_neg hno).trans (if_neg howner)

theorem parseEntries_flatMap {entries : List (String × Option StatusRecord)}
    (h : ∀ entry ∈ entries, ∀ record ∈ entry.2, Sendable record) :
    List.Forall₂ (fun entry got => ReadsAs entry.1 entry.2 got) entries
      (parseEntries (entries.flatMap fun entry => recordLines entry.1 entry.2)) := by
  induction entries with
  | nil => exact .nil
  | cons entry rest ih =>
    rw [List.forall_mem_cons] at h
    obtain ⟨got, hparse, hgot⟩ := parseEntries_recordLines h.1
      (rest.flatMap fun entry => recordLines entry.1 entry.2)
    rw [List.flatMap_cons, hparse]
    exact .cons hgot (ih h.2)

/-- A lookup that verifies nothing and finds at most an issued checkpoint. -/
def sampleContext (issued : Option StatusRecord) : StatusContext where
  verification := ⟨fun _ _ => true, fun _ => true, fun proof => proof.proofHash, fun _ => []⟩
  now := 0
  issuedCheckpoint := issued
  token := none

theorem sendsLines_sampleContext {issued : Option StatusRecord} (h : ∀ record ∈ issued, Sendable record) :
    (sampleContext issued).SendsLines :=
  ⟨h, fun _ hnone => nomatch hnone⟩

end LocalStore
