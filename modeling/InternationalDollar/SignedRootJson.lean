import InternationalDollar.Lib.JsonAccess
import InternationalDollar.SignedRoot

set_option autoImplicit false

/-! # Signed roots from JSON

`verify_signed_root` is handed a dictionary. It takes no keys but those of a signed root, numbers that are
integers and texts, so what it takes can be read as a `SignedRoot`. -/

namespace SignedRoot

/-- The members that a signed root must have. -/
def requiredMembers : List String :=
  ["type", "version", "log_id", "tree_algorithm", "hash_algorithm", "signature_algorithm", "tree_size", "root_hash",
    "timestamp", "operator_public_key", "signature"]

/-- The members that a signed root may have. -/
def spendMapMembers : List String :=
  ["spend_map_algorithm", "spend_map_root", "spend_map_size"]

/-- A text, where the code compares it with one or takes its characters. -/
def textMember (key : String) (data : Json) : Except String String := do
  let value ← data.item key
  value.asText

/-- `_require_int_for` on a member. -/
def intMember (key : String) (data : Json) : Except String Int := do
  match ← data.item key with
  | .int n => pure n
  | _ => .error "must be an integer"

/-- A member that may be missing. -/
def optionalRead {α : Type} (read : String → Json → Except String α) (key : String) (data : Json) :
    Except String (Option α) :=
  match data.item key with
  | .ok _ => do
      let value ← read key data
      pure (some value)
  | .error _ => pure none

/-- A signed root from JSON. `verify_signed_root` takes no other keys, and no values of other types. -/
def ofJson (data : Json) : Except String SignedRoot :=
  match data with
  | .obj members => do
      Check.require (data.hasMembers requiredMembers) "malformed signed transparency root"
      Check.require (∀ member ∈ members, member.1 ∈ requiredMembers ++ spendMapMembers)
        "malformed signed transparency root"
      let type ← textMember "type" data
      let version ← intMember "version" data
      let logId ← textMember "log_id" data
      let treeAlgorithm ← textMember "tree_algorithm" data
      let hashAlgorithm ← textMember "hash_algorithm" data
      let signatureAlgorithm ← textMember "signature_algorithm" data
      let treeSize ← intMember "tree_size" data
      let rootHash ← textMember "root_hash" data
      let spendMapAlgorithm ← optionalRead textMember "spend_map_algorithm" data
      let spendMapRoot ← optionalRead textMember "spend_map_root" data
      let spendMapSize ← optionalRead intMember "spend_map_size" data
      let timestamp ← intMember "timestamp" data
      let operatorPublicKey ← textMember "operator_public_key" data
      let signature ← textMember "signature" data
      pure ⟨type, version, logId, treeAlgorithm, hashAlgorithm, signatureAlgorithm, treeSize, rootHash,
        spendMapAlgorithm, spendMapRoot, spendMapSize, timestamp, operatorPublicKey, signature⟩
  | _ => .error "malformed signed transparency root"

/-- The members of a root as a list. -/
def memberList (root : SignedRoot) : List (String × Json) :=
  [("hash_algorithm", .str root.hashAlgorithm), ("log_id", .str root.logId),
    ("operator_public_key", .str root.operatorPublicKey), ("root_hash", .str root.rootHash)] ++
    [("signature", .str root.signature)] ++ root.lastMembers

theorem toJson_eq (root : SignedRoot) : root.toJson = .obj root.memberList := rfl

theorem pairwise_memberList (root : SignedRoot) : (root.memberList.map Prod.fst).Pairwise (· < ·) := by
  unfold memberList lastMembers
  cases root.spendMapAlgorithm <;> cases root.spendMapRoot <;> cases root.spendMapSize <;>
    · simp only [optionalMember, Option.map_some, Option.map_none, List.cons_append, List.nil_append,
        List.map_cons, List.map_nil, List.append_nil]
      decide

theorem keys_memberList (root : SignedRoot) :
    ∀ key ∈ root.memberList.map Prod.fst, key ∈ requiredMembers ++ spendMapMembers := by
  unfold memberList lastMembers
  cases root.spendMapAlgorithm <;> cases root.spendMapRoot <;> cases root.spendMapSize <;>
    · simp only [optionalMember, Option.map_some, Option.map_none, List.cons_append, List.nil_append,
        List.map_cons, List.map_nil, List.append_nil]
      decide

theorem mem_memberList {root : SignedRoot} {key : String} {value : Json} : (key, value) ∈ root.memberList ↔
    (key, value) ∈ [("hash_algorithm", .str root.hashAlgorithm), ("log_id", .str root.logId),
      ("operator_public_key", .str root.operatorPublicKey), ("root_hash", .str root.rootHash),
      ("signature", .str root.signature), ("signature_algorithm", .str root.signatureAlgorithm),
      ("timestamp", .int root.timestamp), ("tree_algorithm", .str root.treeAlgorithm),
      ("tree_size", .int root.treeSize), ("type", .str root.type), ("version", .int root.version)] ∨
    (∃ text ∈ root.spendMapAlgorithm, (key, value) = ("spend_map_algorithm", .str text)) ∨
    (∃ text ∈ root.spendMapRoot, (key, value) = ("spend_map_root", .str text)) ∨
    (∃ size ∈ root.spendMapSize, (key, value) = ("spend_map_size", .int size)) := by
  unfold memberList lastMembers
  cases root.spendMapAlgorithm <;> cases root.spendMapRoot <;> cases root.spendMapSize <;>
    · simp only [optionalMember, Option.map_some, Option.map_none, List.mem_append, List.mem_cons, List.not_mem_nil,
        Option.mem_def, Option.some.injEq, exists_eq_left', reduceCtorEq, false_and, exists_false, or_false]
      tauto

/-- A member is found. -/
theorem item_toJson {root : SignedRoot} {key : String} {value : Json} (h : (key, value) ∈ root.memberList) :
    root.toJson.item key = .ok value :=
  Json.item_of_mem root.pairwise_memberList h

/-- A member that is missing is not found. -/
theorem item_toJson_error {root : SignedRoot} {key : String} (h : ∀ value, (key, value) ∉ root.memberList) :
    root.toJson.item key = .error key := by
  have hnone : AssocList.get? key root.memberList = none := by
    refine AssocList.get?_eq_none fun hkey => ?_
    obtain ⟨⟨_, value⟩, hmember, rfl⟩ := List.mem_map.1 hkey
    exact h value hmember
  rw [toJson_eq, Json.item, hnone]
  rfl

theorem optionalRead_toJson {α : Type} {read : String → Json → Except String α} {root : SignedRoot} {key : String}
    {field : Option α} {write : α → Json}
    (hread : ∀ a, root.toJson.item key = .ok (write a) → read key root.toJson = .ok a)
    (hsome : ∀ a ∈ field, (key, write a) ∈ root.memberList)
    (hnone : field = none → ∀ value, (key, value) ∉ root.memberList) :
    optionalRead read key root.toJson = .ok field := by
  cases hfield : field with
  | none =>
    rw [optionalRead, item_toJson_error (hnone hfield)]
    rfl
  | some a =>
    have hitem := item_toJson (hsome a hfield)
    rw [optionalRead, hitem]
    dsimp only
    rw [hread a hitem]
    rfl

/-- What is written is read. -/
theorem ofJson_toJson (root : SignedRoot) : ofJson root.toJson = .ok root := by
  have htext : ∀ key text, root.toJson.item key = .ok (.str text) → textMember key root.toJson = .ok text := by
    intro key text h
    rw [textMember, h]
    rfl
  have hint : ∀ key n, root.toJson.item key = .ok (.int n) → intMember key root.toJson = .ok n := by
    intro key n h
    rw [intMember, h]
    rfl
  have hmem : ∀ key value, (key, value) ∈ [("hash_algorithm", Json.str root.hashAlgorithm),
      ("log_id", .str root.logId), ("operator_public_key", .str root.operatorPublicKey),
      ("root_hash", .str root.rootHash), ("signature", .str root.signature),
      ("signature_algorithm", .str root.signatureAlgorithm), ("timestamp", .int root.timestamp),
      ("tree_algorithm", .str root.treeAlgorithm), ("tree_size", .int root.treeSize), ("type", .str root.type),
      ("version", .int root.version)] → root.toJson.item key = .ok value :=
    fun key value h => item_toJson (mem_memberList.2 (.inl h))
  simp only [List.mem_cons, List.not_mem_nil, or_false] at hmem
  have hrequired : root.toJson.hasMembers requiredMembers = true := by
    refine List.all_eq_true.2 fun name hname => ?_
    have hitem : ∃ value, root.toJson.item name = .ok value := by
      simp only [requiredMembers, List.mem_cons, List.not_mem_nil, or_false] at hname
      rcases hname with rfl | rfl | rfl | rfl | rfl | rfl | rfl | rfl | rfl | rfl | rfl
      all_goals exact ⟨_, hmem _ _ (by simp; rfl)⟩
    obtain ⟨value, hvalue⟩ := hitem
    obtain ⟨_, heq, hget⟩ := Json.item_eq_ok.1 hvalue
    cases heq
    exact Option.isSome_of_eq_some hget
  have hallowed : ∀ member ∈ root.memberList, member.1 ∈ requiredMembers ++ spendMapMembers :=
    fun member hmember => root.keys_memberList _ (List.mem_map_of_mem hmember)
  have halgorithm : optionalRead textMember "spend_map_algorithm" root.toJson = .ok root.spendMapAlgorithm := by
    refine optionalRead_toJson (htext _) (fun text h => mem_memberList.2 (.inr (.inl ⟨text, h, rfl⟩))) ?_
    intro hnone value hmember
    simp [mem_memberList, hnone] at hmember
  have hroot : optionalRead textMember "spend_map_root" root.toJson = .ok root.spendMapRoot := by
    refine optionalRead_toJson (htext _) (fun text h => mem_memberList.2 (.inr (.inr (.inl ⟨text, h, rfl⟩)))) ?_
    intro hnone value hmember
    simp [mem_memberList, hnone] at hmember
  have hsize : optionalRead intMember "spend_map_size" root.toJson = .ok root.spendMapSize := by
    refine optionalRead_toJson (hint _) (fun size h => mem_memberList.2 (.inr (.inr (.inr ⟨size, h, rfl⟩)))) ?_
    intro hnone value hmember
    simp [mem_memberList, hnone] at hmember
  have hreads : ofJson (.obj root.memberList) = .ok root := by
    rw [toJson_eq] at *
    rw [ofJson, Check.require_of hrequired, Check.require_of hallowed]
    simp only [Check.ok_bind, halgorithm, hroot, hsize, htext "type" root.type (hmem _ _ (by simp)),
      hint "version" root.version (hmem _ _ (by simp)), htext "log_id" root.logId (hmem _ _ (by simp)),
      htext "tree_algorithm" root.treeAlgorithm (hmem _ _ (by simp)),
      htext "hash_algorithm" root.hashAlgorithm (hmem _ _ (by simp)),
      htext "signature_algorithm" root.signatureAlgorithm (hmem _ _ (by simp)),
      hint "tree_size" root.treeSize (hmem _ _ (by simp)), htext "root_hash" root.rootHash (hmem _ _ (by simp)),
      hint "timestamp" root.timestamp (hmem _ _ (by simp)),
      htext "operator_public_key" root.operatorPublicKey (hmem _ _ (by simp)),
      htext "signature" root.signature (hmem _ _ (by simp))]
    rfl
  exact hreads

end SignedRoot
