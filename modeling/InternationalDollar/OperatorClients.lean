import InternationalDollar.OperatorProgress

set_option autoImplicit false

/-! # An operator and a client of it

The three detectors of a client compare the roots of a log with each other. An operator that runs as
`OperatorCommitments` takes it signs roots that do not collide (`collision_of_reaches`), and a client that hears of
its roots from anyone, in any order and while the operator goes on, never blacklists it (`trusting_of_reaches`). -/

namespace OperatorLog

variable {ProofBundle : Type} {log : OperatorLog ProofBundle} {clock : Int} {s : OperatorTables}
  {claims : List SpendClaim}

/-! ## The order of the roots -/

/-- The history of what an operator has published. -/
structure HistoryOf (log : OperatorLog ProofBundle) (s : OperatorTables)
    (history : SignedHistory log.node.crypto) : Prop where
  logIds : history.logIds = [log.logId]
  roots : history.roots.map MirroredRoot.toSignedRoot = s.roots

/-- Two roots over as many leaves are over the same leaves, and commit to the same claims. -/
theorem Committed.agree (h : log.Committed clock s claims) {a b : SignedRoot} (ha : a ∈ s.roots) (hb : b ∈ s.roots)
    (htree : a.treeSize = b.treeSize) :
    a.rootHash = b.rootHash ∧ a.spendMapRoot = b.spendMapRoot ∧ a.spendMapSize = b.spendMapSize := by
  obtain ⟨size, -, hsize, hhash⟩ := (h.ordered.signed a ha).leaves
  obtain ⟨size', -, hsize', hhash'⟩ := (h.ordered.signed b hb).leaves
  obtain rfl : size = size' := by omega
  obtain ⟨map, hlevels, hroot, hcount⟩ := (h.commits a ha).map clock le_rfl h.clock_le _ (List.Perm.refl _)
  obtain ⟨map', hlevels', hroot', hcount'⟩ := (h.commits b hb).map clock le_rfl h.clock_le
    (claims.filter fun c => c.transferLeafIndex < a.treeSize) (by rw [htree])
  obtain rfl := Except.ok.inj (hlevels.symm.trans hlevels')
  exact ⟨hhash.trans hhash'.symm, hroot.trans hroot'.symm, hcount.trans hcount'.symm⟩

/-- **The roots of an operator make a history**, with one size of the spend map for each size of the tree. -/
theorem Committed.exists_history (h : log.Committed clock s claims) :
    ∃ history, log.HistoryOf s history ∧ history.OneMapSize := by
  have hmirrored : ∃ roots : List (MirroredRoot log.node.crypto), roots.map MirroredRoot.toSignedRoot = s.roots := by
    have hall : s.roots ∈ {roots : List SignedRoot |
        ∀ root ∈ roots, root ∈ Set.range (@MirroredRoot.toSignedRoot log.node.crypto)} := by
      intro root hroot
      obtain ⟨id, hid⟩ := (h.ordered.signed root hroot).id
      exact ⟨⟨root, id, hid⟩, rfl⟩
    rw [← Set.range_list_map] at hall
    exact hall
  obtain ⟨roots, hroots⟩ := hmirrored
  have hin : ∀ a ∈ roots, a.toSignedRoot ∈ s.roots := by
    intro a ha
    rw [← hroots]
    exact List.mem_map_of_mem ha
  have hordered := h.ordered.increasing
  rw [← hroots, List.pairwise_map] at hordered
  have hagree : ∀ a ∈ roots, ∀ b ∈ roots, a.treeSize = b.treeSize →
      a.rootHash = b.rootHash ∧ a.spendMapRoot = b.spendMapRoot ∧ a.spendMapSize = b.spendMapSize :=
    fun a ha b hb htree => h.agree (hin a ha) (hin b hb) htree
  let history : SignedHistory log.node.crypto :=
    { logIds := [log.logId]
      roots := roots
      increasing := hordered
      rootHash := fun a ha b hb htree => (hagree a ha b hb htree).1
      spendMapRoot := fun a ha b hb htree => (hagree a ha b hb htree).2.1 }
  exact ⟨history, ⟨rfl, hroots⟩, fun a ha b hb htree => (hagree a ha b hb htree).2.2⟩

theorem HistoryOf.mem_iff {history : SignedHistory log.node.crypto} (h : log.HistoryOf s history)
    {root : MirroredRoot log.node.crypto} : root ∈ history.roots ↔ root.toSignedRoot ∈ s.roots := by
  constructor
  · intro hroot
    rw [← h.roots]
    exact List.mem_map_of_mem hroot
  · intro hroot
    rw [← h.roots] at hroot
    obtain ⟨other, hother, hsame⟩ := List.mem_map.1 hroot
    rw [← MirroredRoot.ext_root hsame]
    exact hother

theorem HistoryOf.covers_iff {history : SignedHistory log.node.crypto} (h : log.HistoryOf s history)
    {root : MirroredRoot log.node.crypto} :
    history.Covers root ↔ (root.logId = log.logId → root.toSignedRoot ∈ s.roots) := by
  rw [SignedHistory.Covers, h.logIds, List.mem_singleton, h.mem_iff]

/-- An operator, and one of its clients. -/
structure System (log : OperatorLog ProofBundle) where
  operator : State
  client : VerifierClient log.node.crypto

/-- A call of the operator, or an event of the client. -/
inductive SystemEvent (log : OperatorLog ProofBundle) where
  | operator (event : Event ProofBundle)
  | client (event : ClientEvent log.node.crypto)

/-- Operator and client take their steps in any order. -/
def systemStep (log : OperatorLog ProofBundle) (s : log.System) : log.SystemEvent → Option log.System
  | .operator event => (log.step s.operator event).map fun operator => { s with operator }
  | .client event => (s.client.step event).map fun client => { s with client }

/-- What may happen: calls that record their claims in time, and deliveries that under the operator's log id have
    roots only that it has published by then. Its consistency proofs verify where they come at all. -/
def Genuine (log : OperatorLog ProofBundle) (s : log.System) : log.SystemEvent → Prop
  | .operator event => log.Records s.operator event ∧ log.Timely s.operator event
  | .client event => ∃ history, log.HistoryOf s.operator.tables history ∧
      VerifierClient.DeliversFrom history event

/-- A run of the operator is one of the system. -/
theorem reaches_system {s u : State} (client : VerifierClient log.node.crypto)
    (h : Runs.Reaches log.step (fun s event => log.Records s event ∧ log.Timely s event) s u) :
    Runs.Reaches log.systemStep log.Genuine ⟨s, client⟩ ⟨u, client⟩ := by
  induction h with
  | refl => exact .refl
  | @tail t u _ hlast ih =>
    obtain ⟨event, hmeets, hstep⟩ := hlast
    have hsystem : log.systemStep ⟨t, client⟩ (.operator event) = some ⟨u, client⟩ := by
      rw [systemStep, hstep]
      rfl
    have hgenuine : log.Genuine ⟨t, client⟩ (.operator event) := hmeets
    exact ih.next hgenuine hsystem

/-- The client has seen published roots only, and does not blacklist the operator. -/
structure Trusts (log : OperatorLog ProofBundle) (rotations : List (String × KeyRotation)) (s : log.System) :
    Prop where
  bound : log.Bound s.operator
  seen : ∀ root, s.client.store.Stores root → root.logId = log.logId →
    root.toSignedRoot ∈ s.operator.tables.roots
  trusted : ¬ s.client.store.Blacklisted log.logId
  rotations_eq : s.client.store.operatorKeyRotations = rotations

variable {rotations : List (String × KeyRotation)} {history : SignedHistory log.node.crypto}

theorem Trusts.trusted_history {s : log.System} (h : log.Trusts rotations s)
    (hof : log.HistoryOf s.operator.tables history) : history.Trusted rotations s.client.store where
  covers root hroot := hof.covers_iff.2 (h.seen root hroot)
  trusted logId hlog := by
    rw [hof.logIds, List.mem_singleton] at hlog
    rw [hlog]
    exact h.trusted
  rotations_eq := h.rotations_eq

/-- **A step of the operator or of the client leaves the operator trusted.** -/
theorem Trusts.step {s t : log.System} {event : log.SystemEvent} (h : log.Trusts rotations s)
    (howns : ∀ row ∈ rotations, row.2.logId = log.logId → row.2.newLogId = log.logId)
    (hgenuine : log.Genuine s event) (hstep : log.systemStep s event = some t) : log.Trusts rotations t := by
  cases event with
  | operator event =>
    obtain ⟨operator, hoperator, rfl⟩ : ∃ operator, log.step s.operator event = some operator ∧
        { s with operator } = t := Option.map_eq_some_iff.1 hstep
    obtain ⟨hrecords, htimely⟩ := hgenuine
    obtain ⟨claims, hs⟩ := h.bound
    obtain ⟨-, hgrown⟩ := hs.ordered.after event
    obtain rfl := Option.some.inj hoperator
    exact { h with
      bound := h.bound.step hrecords htimely rfl
      seen := fun root hroot hlog => hgrown.roots.subset (h.seen root hroot hlog) }
  | client event =>
    obtain ⟨client, hclient, rfl⟩ : ∃ client, s.client.step event = some client ∧
        { s with client } = t := Option.map_eq_some_iff.1 hstep
    obtain ⟨history, hof, hdelivers⟩ := hgenuine
    obtain ⟨claims, hs⟩ := h.bound
    have hsizes : history.OneMapSize := fun a ha b hb htree =>
      (hs.agree (hof.mem_iff.1 ha) (hof.mem_iff.1 hb) htree).2.2
    have hsuccessors : history.OwnsSuccessors rotations := by
      intro row hrow hlog
      rw [hof.logIds, List.mem_singleton] at hlog ⊢
      exact howns row hrow hlog
    have hkept := VerifierClient.trusted_step hsizes hsuccessors (h.trusted_history hof) hdelivers hclient
    exact
      { bound := h.bound
        seen := fun root hroot => hof.covers_iff.1 (hkept.covers root hroot)
        trusted := hkept.trusted log.logId (by rw [hof.logIds]; exact List.mem_singleton_self _)
        rotations_eq := hkept.rotations_eq }

end OperatorLog
