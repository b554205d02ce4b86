import InternationalDollar.SpendMapLevels

set_option autoImplicit false

/-! # Spend-map proofs against a signed root

A proof for a spend key is sound: a signed root of some claims accepts no other list of claims for
the key than the claims it commits to, as long as no two of the inputs that prover and map hash
collide.

It is complete up to one slip. A spend key is checked to be 64 characters that `bytes.fromhex`
reads, and `bytes.fromhex` skips blanks, so a key of 31 bytes and two blanks passes and denotes the
same number as the key with a zero byte in front. Claims under both share a slot, and the proof
built for either is rejected. `proofsExact_iff` says that sharing a slot is the only way to fail. -/

open SparseMerkle SpendMap

/-! ## Digests -/

/-- A hash text as `sha3_hex` writes it. -/
def IsDigest (text : String) : Prop :=
  ∃ bs : Bytes, bs.length = 32 ∧ text = Text.hex bs

theorem isDigest_sha3Hex (crypto : Crypto) (data : Bytes) : IsDigest (crypto.sha3Hex data) :=
  ⟨_, crypto.length_sha3_256 data, rfl⟩

theorem IsDigest.isHex32 {text : String} (h : IsDigest text) : IsHex32 text := by
  obtain ⟨bs, hlen, rfl⟩ := h
  exact isHex32_hex hlen

theorem IsDigest.lower {text : String} (h : IsDigest text) : Text.lower text = text := by
  obtain ⟨bs, -, rfl⟩ := h
  exact Text.lower_hex bs

theorem sha3_eq_of_sha3Hex {crypto : Crypto} {a b : Bytes}
    (h : crypto.sha3Hex a = crypto.sha3Hex b) : crypto.sha3_256 a = crypto.sha3_256 b :=
  Text.hex_injective h

namespace SpendMap

/-- Digests determine a branch preimage, and no other texts of 64 characters make it: with fewer
    than 32 bytes on one side the preimage would be too short. -/
theorem branchPreimage_inj {a b c d : String} (ha : IsHex32 a) (hb : IsHex32 b)
    (hla : Text.lower a = a) (hlb : Text.lower b = b) (hc : IsDigest c) (hd : IsDigest d)
    (h : branchPreimage a b = branchPreimage c d) : a = c ∧ b = d := by
  obtain ⟨rawA, hrawA⟩ := Option.isSome_iff_exists.1 ha.2
  obtain ⟨rawB, hrawB⟩ := Option.isSome_iff_exists.1 hb.2
  obtain ⟨rawC, hlenC, rfl⟩ := hc
  obtain ⟨rawD, hlenD, rfl⟩ := hd
  simp only [branchPreimage, hrawA, hrawB, Text.fromhex_hex, Option.getD_some] at h
  have hpair := List.append_cancel_left h
  have hA := Text.length_of_fromhexChars hrawA
  have hB := Text.length_of_fromhexChars hrawB
  rw [String.length_toList] at hA hB
  have hsum := congrArg List.length hpair
  rw [List.length_append, List.length_append, hlenC, hlenD] at hsum
  have ha64 := ha.1
  have hb64 := hb.1
  obtain ⟨hAC, hBD⟩ := List.append_inj hpair (by omega)
  constructor
  · rw [← hAC]
    exact Text.eq_hex_of_fromhex hrawA (by omega) hla
  · rw [← hBD]
    exact Text.eq_hex_of_fromhex hrawB (by omega) hlb

theorem spendKeyPosition_lt {spendKey : String} {p : Nat} (h : spendKeyPosition spendKey = .ok p) :
    p < 2 ^ spendMapKeyBits := by
  simp only [spendKeyPosition, Check.bind_eq_ok, hex32_eq_ok, ↓existsAndEq, and_true,
    Check.ofOption_eq_ok] at h
  obtain ⟨hhex, hint⟩ := h
  obtain ⟨bs, hbs⟩ := Option.isSome_iff_exists.1 hhex.lower.2
  have hlen := Text.length_of_fromhexChars hbs
  rw [String.length_toList, hhex.lower.1] at hlen
  rw [Text.value_eq_of_fromhex hbs hint]
  calc Text.bytesValue bs 0 < 256 ^ bs.length := Text.bytesValue_lt bs
    _ ≤ 256 ^ 32 := Nat.pow_le_pow_right (by decide) (by omega)
    _ = 2 ^ spendMapKeyBits := by decide

/-! ## Slots -/

theorem slotJson_bytes (spendKey : String) (claims : List SpendClaim) :
    ∃ rest, (slotJson spendKey claims).bytes = 123 :: rest :=
  ⟨_, rfl⟩

theorem slotJson_inj {k l : String} {xs ys : List SpendClaim}
    (h : slotJson k xs = slotJson l ys) : k = l ∧ xs = ys := by
  simp only [slotJson, Json.obj.injEq, List.cons.injEq, Prod.mk.injEq, Json.arr.injEq,
    Json.str.injEq, true_and, and_true] at h
  exact ⟨h.2, List.map_injective_iff.2 (fun _ _ => SpendClaim.toJson_inj) h.1⟩

theorem slotPreimage_ne_emptyLeaf {spendKey : String} {claims : List SpendClaim} {preimage : Bytes}
    (h : slotPreimage spendKey claims = .ok preimage) : preimage ≠ emptyLeafPreimage := by
  simp only [slotPreimage, Check.bind_eq_ok, Check.pure_eq_ok] at h
  obtain ⟨bs, -, slot, -, rfl⟩ := h
  intro heq
  have htake := congrArg (List.take 15) heq
  rw [List.take_append_of_le_length (by decide +kernel)] at htake
  revert htake
  decide +kernel

/-- Two keys of one position with one slot preimage are the same text over the same claims. -/
theorem slotPreimage_inj {k l : String} {xs ys : List SpendClaim} {p : Nat} {preimage : Bytes}
    (hk : spendKeyPosition k = .ok p) (hl : spendKeyPosition l = .ok p)
    (hx : slotPreimage k xs = .ok preimage) (hy : slotPreimage l ys = .ok preimage) :
    k = l ∧ SpendClaim.sorted xs = SpendClaim.sorted ys := by
  simp only [slotPreimage, Check.bind_eq_ok, Check.ofOption_eq_ok, Check.pure_eq_ok] at hx hy
  obtain ⟨rawK, hrawK, slotK, hslotK, rfl⟩ := hx
  obtain ⟨rawL, hrawL, slotL, hslotL, heq⟩ := hy
  replace heq := (List.append_cancel_left heq).symm
  have hvalue : ∀ {key : String} {raw : Bytes}, Text.fromhex key = some raw →
      spendKeyPosition key = .ok p → Text.bytesValue raw 0 = p := by
    intro key raw hraw hpos
    simp only [spendKeyPosition, Check.bind_eq_ok, hex32_eq_ok, ↓existsAndEq, and_true,
      Check.ofOption_eq_ok] at hpos
    exact (Text.value_eq_of_fromhex (by rw [Text.fromhex_lower, hraw]) hpos.2).symm
  have hsame : Text.bytesValue rawK 0 = Text.bytesValue rawL 0 :=
    (hvalue hrawK hk).trans (hvalue hrawL hl).symm
  -- a longer key would take the opening brace of the slot for its next byte
  have hbrace : ∀ {key : String} {zs : List SpendClaim} {slot : Bytes},
      canonicalBytes (slotJson key (SpendClaim.sorted zs)) = .ok slot → ∃ rest, slot = 123 :: rest := by
    intro key zs slot hslot
    rw [← (canonicalBytes_eq_ok.1 hslot).2]
    exact slotJson_bytes _ _
  have hshorter : ∀ {a b s t : Bytes}, a ++ s = b ++ t → (∃ rest, s = 123 :: rest) →
      Text.bytesValue a 0 = Text.bytesValue b 0 → b.length ≤ a.length := by
    rintro a b s t heq ⟨rest, rfl⟩ hval
    by_contra hlt
    obtain ⟨more, rfl, hmore⟩ | ⟨more, rfl, hmore⟩ := List.append_eq_append_iff.1 heq
    · cases more with
      | nil => simp at hlt
      | cons c more =>
        have hc : c = 123 := by
          have := congrArg List.head? hmore
          simpa using this.symm
        have hgrow : Text.bytesValue a 0 < Text.bytesValue (a ++ c :: more) 0 :=
          Text.bytesValue_lt_append more (by rw [hc]; decide)
        omega
    · rw [List.length_append] at hlt
      omega
  have hlen : rawK.length = rawL.length :=
    le_antisymm (hshorter heq.symm (hbrace hslotL) hsame.symm)
      (hshorter heq (hbrace hslotK) hsame)
  obtain ⟨-, hslot⟩ := List.append_inj heq hlen
  subst hslot
  exact slotJson_inj (canonicalBytes_inj hslotK hslotL)

/-! ## The nodes of a map -/

section Nodes

variable {crypto : Crypto} {clock : Int} {claims : List SpendClaim} {map : SpendMap}

/-- The preimage of the slot at a position. -/
theorem IsMapOf.slot_preimage (h : IsMapOf crypto clock claims map) {p : Nat} {first : SpendClaim}
    {rest : List SpendClaim} (hslot : map.claimsByKey.slot p = first :: rest) :
    ∃ preimage, slotPreimage first.spendKey (first :: rest) = .ok preimage ∧
      map.leaf crypto p = crypto.sha3Hex preimage := by
  have hleaf := h.leaf_slot p (by rw [hslot]; exact List.cons_ne_nil _ _)
  rw [ClaimTable.slotHash, hslot] at hleaf
  obtain ⟨preimage, hpreimage, hhash⟩ := Check.bind_eq_ok.1 hleaf
  exact ⟨preimage, hpreimage, (Except.ok.inj hhash).symm⟩

theorem IsMapOf.isDigest_node (h : IsMapOf crypto clock claims map) (k q : Nat) :
    IsDigest (node (spendMapBranchHash crypto) (map.leaf crypto) k q) := by
  cases k with
  | succ k => exact isDigest_sha3Hex crypto _
  | zero =>
    rw [node_zero]
    cases hslot : map.claimsByKey.slot q with
    | nil =>
      rw [h.leaf_empty q hslot]
      exact isDigest_sha3Hex crypto _
    | cons first rest =>
      obtain ⟨preimage, -, hleaf⟩ := h.slot_preimage hslot
      rw [hleaf]
      exact isDigest_sha3Hex crypto _

theorem IsMapOf.root_eq (h : IsMapOf crypto clock claims map) :
    map.root crypto = node (spendMapBranchHash crypto) (map.leaf crypto) spendMapKeyBits 0 :=
  h.hashAt_eq _ le_rfl 0

/-- The claims of a slot are the normal forms of the claims whose key has its position. -/
theorem IsMapOf.mem_slot (h : IsMapOf crypto clock claims map) {p : Nat} {claim : SpendClaim} :
    claim ∈ map.claimsByKey.slot p ↔ (∃ raw ∈ claims,
      SpendClaim.normalizeSpendClaim crypto clock raw = .ok claim) ∧
        spendKeyPosition claim.spendKey = .ok p := by
  rw [ClaimTable.mem_slot, h.mem_iff]
  constructor
  · rintro ⟨raw, hraw, hnormal, hpos⟩
    exact ⟨⟨raw, hraw, hnormal⟩, hpos⟩
  · rintro ⟨⟨raw, hraw, hnormal⟩, hpos⟩
    exact ⟨raw, hraw, hnormal, hpos⟩

end Nodes

end SpendMap

/-! ## Audit paths -/

section AuditPaths

variable {crypto : Crypto}

theorem siblingSide_eq_left (position : Nat) : siblingSide position = "left" ↔ ¬ position % 2 = 0 := by
  unfold siblingSide
  split
  · next h => simp [h]
  · next h => simp [h]

/-- The siblings that an audit path lists. -/
def siblingsOf (path : List AuditStep) : List String :=
  path.map (fun step => Text.lower step.hash)

theorem climb_of_climbAuditPath {path : List AuditStep} {position : Nat} {current top : String}
    (h : SpendMapProof.climbAuditPath crypto path position current = .ok top) :
    climb (spendMapBranchHash crypto) position current (siblingsOf path) = top ∧
      ∀ step ∈ path, IsHex32 step.hash := by
  induction path generalizing position current with
  | nil =>
    cases h
    exact ⟨rfl, by simp⟩
  | cons head rest ih =>
    simp only [SpendMapProof.climbAuditPath, Check.bind_eq_ok, hex32_eq_ok, ↓existsAndEq, and_true,
      Check.require_eq_ok, exists_const] at h
    obtain ⟨hhex, hside, hrest⟩ := h
    obtain ⟨hclimb, hall⟩ := ih hrest
    refine ⟨?_, List.forall_mem_cons.2 ⟨hhex, hall⟩⟩
    rw [← hclimb, siblingsOf, List.map_cons, climb, step, siblingsOf]
    congr 1
    rw [hside]
    simp only [siblingSide_eq_left]
    split <;> simp_all

theorem climbAuditPath_auditPathFrom {hashAt : Nat → Nat → String} {leaf : Nat → String}
    (n h p : Nat) (current : String)
    (hnode : ∀ k < h + n, ∀ q, hashAt k q = node (spendMapBranchHash crypto) leaf k q)
    (hdigest : ∀ k q, IsDigest (node (spendMapBranchHash crypto) leaf k q)) :
    SpendMapProof.climbAuditPath crypto (auditPathFrom hashAt n h p) p current
      = .ok (climb (spendMapBranchHash crypto) p current
          (siblings (spendMapBranchHash crypto) leaf n h p)) := by
  induction n generalizing h p current with
  | zero => rfl
  | succ n ih =>
    have hsib := hnode h (by omega) (p ^^^ 1)
    have hrest := fun current => ih (h + 1) (p / 2) current (fun k hk q => hnode k (by omega) q)
    have hlower := (hdigest h (p ^^^ 1)).lower
    have hhex : hex32 (node (spendMapBranchHash crypto) leaf h (p ^^^ 1)) "spend-map sibling hash"
        = .ok (node (spendMapBranchHash crypto) leaf h (p ^^^ 1)) :=
      hex32_eq_ok.2 ⟨(hdigest h (p ^^^ 1)).isHex32, hlower⟩
    rw [auditPathFrom, siblings, climb, step, hsib, SpendMapProof.climbAuditPath, hhex,
      Check.ok_bind, Check.require_of rfl, Check.ok_bind, hrest]
    simp only [siblingSide_eq_left]
    split <;> simp_all

theorem length_auditPathFrom (hashAt : Nat → Nat → String) (n h p : Nat) :
    (auditPathFrom hashAt n h p).length = n := by
  induction n generalizing h p with
  | zero => rfl
  | succ n ih => rw [auditPathFrom, List.length_cons, ih]

/-- Every pair on a path of hexadecimal siblings is made of such texts in lower case. -/
theorem mem_climbPairs {path : List AuditStep} {position : Nat} {current : String}
    (hpath : ∀ step ∈ path, IsHex32 step.hash) (hcurrent : IsDigest current)
    (x : String × String)
    (hx : x ∈ climbPairs (spendMapBranchHash crypto) position current (siblingsOf path)) :
    (IsHex32 x.1 ∧ Text.lower x.1 = x.1) ∧ IsHex32 x.2 ∧ Text.lower x.2 = x.2 := by
  induction path generalizing position current with
  | nil => exact absurd hx (by simp [siblingsOf, climbPairs])
  | cons head rest ih =>
    obtain ⟨hhead, hrest⟩ := List.forall_mem_cons.1 hpath
    rw [siblingsOf, List.map_cons, climbPairs, List.mem_cons] at hx
    rcases hx with rfl | hx
    · split
      · exact ⟨⟨hcurrent.isHex32, hcurrent.lower⟩, hhead.lower, Text.lower_lower _⟩
      · exact ⟨⟨hhead.lower, Text.lower_lower _⟩, hcurrent.isHex32, hcurrent.lower⟩
    · refine ih hrest ?_ hx
      unfold step
      split
      · exact isDigest_sha3Hex crypto _
      · exact isDigest_sha3Hex crypto _

end AuditPaths

/-! ## Checks on the claims of a proof -/

namespace SpendMapProof

theorem normalizeClaims_eq_self {crypto : Crypto} {clock : Int} {claims : List SpendClaim}
    (h : ∀ c ∈ claims, SpendClaim.normalizeSpendClaim crypto clock c = .ok c) :
    normalizeClaims crypto clock claims = .ok claims := by
  induction claims with
  | nil => rfl
  | cons c rest ih =>
    obtain ⟨hc, hrest⟩ := List.forall_mem_cons.1 h
    rw [normalizeClaims, hc, Check.ok_bind, ih hrest]
    rfl

theorem checkClaims_eq_ok {root : SignedRoot} {spendKey : String} {claims : List SpendClaim}
    {seen : List String} {u : Unit} :
    checkClaims root spendKey claims seen = .ok u ↔
      (∀ c ∈ claims, c.logId = root.logId ∧ c.spendKey = spendKey ∧
        c.transferLeafIndex < root.treeSize ∧ c.transferHash ∉ seen) ∧
      (claims.map SpendClaim.transferHash).Nodup := by
  induction claims generalizing seen with
  | nil => simp [checkClaims]
  | cons c rest ih =>
    rw [List.forall_mem_cons, List.map_cons, List.nodup_cons]
    simp only [checkClaims, Check.check_bind_eq_ok, Check.require_eq_ok, ih, List.mem_cons, not_or]
    constructor
    · rintro ⟨h1, h2, h3, h4, hrest, hnodup⟩
      refine ⟨⟨⟨h1, h2, h3, h4⟩, fun d hd => ?_⟩, ?_, hnodup⟩
      · obtain ⟨g1, g2, g3, -, g4⟩ := hrest d hd
        exact ⟨g1, g2, g3, g4⟩
      · intro hmem
        obtain ⟨d, hd, heq⟩ := List.mem_map.1 hmem
        exact (hrest d hd).2.2.2.1 heq
    · rintro ⟨⟨⟨h1, h2, h3, h4⟩, hrest⟩, hnot, hnodup⟩
      refine ⟨h1, h2, h3, h4, fun d hd => ?_, hnodup⟩
      obtain ⟨g1, g2, g3, g4⟩ := hrest d hd
      exact ⟨g1, g2, g3, fun heq => hnot (List.mem_map.2 ⟨d, hd, heq⟩), g4⟩

/-- What an accepted proof shows. -/
theorem verify_eq_ok {crypto : Crypto} {acceptLegacy : Bool} {clock : Int} {proof : SpendMapProof}
    {root : SignedRoot} {claims : List SpendClaim} :
    verifySpendMapProof crypto acceptLegacy clock proof root = .ok claims ↔
      root.verifySignedRoot crypto acceptLegacy none = .ok () ∧ checkHeader proof root = .ok () ∧
      ∃ shown, normalizeClaims crypto clock proof.claims.toList = .ok shown ∧
        checkClaims root proof.spendKey shown [] = .ok () ∧
        ∃ preimage, slotPreimage proof.spendKey shown = .ok preimage ∧
        ∃ position, spendKeyPosition proof.spendKey = .ok position ∧
        proof.auditPath.length = spendMapKeyBits ∧
        ∃ top, climbAuditPath crypto proof.auditPath position (crypto.sha3Hex preimage) = .ok top ∧
        root.spendMapRoot = some top ∧ SpendClaim.sorted shown = claims := by
  simp only [verifySpendMapProof, spendMapSlotHash, Check.bind_eq_ok, Check.require_eq_ok,
    Check.pure_eq_ok, exists_const]
  constructor
  · rintro ⟨_, h1, _, h2, shown, h3, _, h4, _, ⟨preimage, h5, rfl⟩, position, h6, h7, top, h8, h9,
      h10⟩
    exact ⟨h1, h2, shown, h3, h4, preimage, h5, position, h6, h7, top, h8, h9, h10⟩
  · rintro ⟨h1, h2, shown, h3, h4, preimage, h5, position, h6, h7, top, h8, h9, h10⟩
    exact ⟨(), h1, (), h2, shown, h3, (), h4, _, ⟨preimage, h5, rfl⟩, position, h6, h7, top, h8, h9,
      h10⟩

/-- An accepted proof shows no transfer twice. -/
theorem nodup_of_verify {crypto : Crypto} {acceptLegacy : Bool} {clock : Int} {proof : SpendMapProof}
    {root : SignedRoot} {shown : List SpendClaim}
    (h : proof.verifySpendMapProof crypto acceptLegacy clock root = .ok shown) :
    (shown.map SpendClaim.transferHash).Nodup := by
  obtain ⟨-, -, listed, -, hcheck, -, -, -, -, -, -, -, -, rfl⟩ := verify_eq_ok.1 h
  obtain ⟨-, hnodup⟩ := checkClaims_eq_ok.1 hcheck
  exact ((List.perm_insertionSort SpendClaim.Before listed).map _).nodup_iff.2 hnodup

/-- The inputs that the verifier of a proof hashes. -/
def hashedInputs (crypto : Crypto) (clock : Int) (proof : SpendMapProof) :
    Except String (List Bytes) := do
  let claims ← normalizeClaims crypto clock proof.claims.toList
  let preimage ← slotPreimage proof.spendKey claims
  let position ← spendKeyPosition proof.spendKey
  pure (preimage :: (climbPairs (spendMapBranchHash crypto) position (crypto.sha3Hex preimage)
    (siblingsOf proof.auditPath)).map (fun x => branchPreimage x.1 x.2))

end SpendMapProof

/-! ## Proofs against a root of the map -/

/-- Claims in normal form with the map of them, and a signed root that commits to the map. -/
structure CommittedMap (crypto : Crypto) (acceptLegacy : Bool) where
  clock : Int
  clock_le : clock ≤ maxProtocolTimestamp
  claims : List SpendClaim
  normal : ∀ c ∈ claims, SpendClaim.normalizeSpendClaim crypto clock c = .ok c
  map : SpendMap
  map_eq : spendMapLevels crypto clock claims = .ok map
  root : SignedRoot
  root_valid : root.verifySignedRoot crypto acceptLegacy none = .ok ()
  algorithm_eq : root.spendMapAlgorithm = some logSpendMapAlgorithm
  spendMapRoot_eq : root.spendMapRoot = some (map.root crypto)
  spendMapSize_eq : root.spendMapSize = some (map.totalClaims : Int)
  logId_eq : ∀ c ∈ claims, c.logId = root.logId
  leafIndex_lt : ∀ c ∈ claims, c.transferLeafIndex < root.treeSize

namespace CommittedMap

variable {crypto : Crypto} {acceptLegacy : Bool} (m : CommittedMap crypto acceptLegacy)

/-- The inputs that are hashed to compute the map. -/
def Hashes (input : Bytes) : Prop :=
  input = emptyLeafPreimage ∨
    (∃ p first rest, m.map.claimsByKey.slot p = first :: rest ∧
      slotPreimage first.spendKey (first :: rest) = .ok input) ∨
    ∃ h < spendMapKeyBits, ∃ p,
      input = branchPreimage (m.map.hashAt crypto h (2 * p)) (m.map.hashAt crypto h (2 * p + 1))

/-- No input that the verifier of the proof hashes collides with one hashed for the map. -/
def NoCollision (clock : Int) (proof : SpendMapProof) : Prop :=
  ∀ inputs, proof.hashedInputs crypto clock = .ok inputs → ∀ x ∈ inputs, ∀ y, m.Hashes y →
    crypto.sha3_256 x = crypto.sha3_256 y → x = y

/-- A list holds exactly the claims for a key. -/
def IsClaimsFor (spendKey : String) (claims : List SpendClaim) : Prop :=
  ∀ c, c ∈ claims ↔ c ∈ m.claims ∧ c.spendKey = spendKey

/-- A key that has claims has a proof, which is accepted from then on and returns its claims. -/
def Complete (spendKey : String) : Prop :=
  (∃ c ∈ m.claims, c.spendKey = spendKey) →
    ∀ clock, m.clock ≤ clock → clock ≤ maxProtocolTimestamp →
    ∃ proof claims,
      SpendMapProof.buildSpendMapProof crypto m.clock m.claims spendKey m.root.treeSize = .ok proof ∧
      proof.verifySpendMapProof crypto acceptLegacy clock m.root = .ok claims ∧
      m.IsClaimsFor spendKey claims

/-- Every accepted proof for a key shows exactly its claims. -/
def Sound (spendKey : String) : Prop :=
  ∀ clock proof claims, proof.spendKey = spendKey → m.NoCollision clock proof →
    proof.verifySpendMapProof crypto acceptLegacy clock m.root = .ok claims →
    m.IsClaimsFor spendKey claims ∧ claims ≠ []

/-- If the key has claims, no other key text among the claims has its position. -/
def KeyUnshared (spendKey : String) : Prop :=
  (∃ c ∈ m.claims, c.spendKey = spendKey) → ∀ c ∈ m.claims,
    spendKeyPosition c.spendKey = spendKeyPosition spendKey → c.spendKey = spendKey

theorem isMapOf : IsMapOf crypto m.clock m.claims m.map :=
  isMapOf_of_levels m.map_eq

/-- The claims of a slot are the claims whose key has its position. -/
theorem mem_slot {p : Nat} {c : SpendClaim} :
    c ∈ m.map.claimsByKey.slot p ↔ c ∈ m.claims ∧ spendKeyPosition c.spendKey = .ok p := by
  rw [m.isMapOf.mem_slot]
  constructor
  · rintro ⟨⟨raw, hraw, hnormal⟩, hpos⟩
    have := Except.ok.inj ((m.normal raw hraw).symm.trans hnormal)
    exact ⟨this ▸ hraw, hpos⟩
  · rintro ⟨hc, hpos⟩
    exact ⟨⟨c, hc, m.normal c hc⟩, hpos⟩

theorem exists_position {c : SpendClaim} (hc : c ∈ m.claims) :
    ∃ p, spendKeyPosition c.spendKey = .ok p := by
  obtain ⟨e, hnormal, hpos⟩ := m.isMapOf.entered c hc
  rw [← Except.ok.inj ((m.normal c hc).symm.trans hnormal)] at hpos
  exact ⟨e.1, hpos⟩

/-- The key of a claim is already in its normal form. -/
theorem spendKey_normal {c : SpendClaim} (hc : c ∈ m.claims) :
    hex32 c.spendKey "spend key" = .ok c.spendKey := by
  have hnormal := m.normal c hc
  rw [SpendClaim.normalizeSpendClaim_eq_ok] at hnormal
  obtain ⟨hwell, hfields⟩ := hnormal
  exact hex32_eq_ok.2 ⟨hwell.spendKey_hex, congrArg SpendClaim.spendKey hfields⟩

/-- **Soundness.** The path of an accepted proof is the path of the map, so the proof starts from
    the slot that the map holds at the position of the key. -/
theorem sound (spendKey : String) : m.Sound spendKey := by
  rintro clock proof claims rfl hfree hverify
  rw [SpendMapProof.verify_eq_ok] at hverify
  obtain ⟨-, hheader, shown, hshown, hcheck, preimage, hpreimage, position, hposition, hlen, top,
    htop, hroot, rfl⟩ := hverify
  rw [SpendMapProof.checkClaims_eq_ok] at hcheck
  obtain ⟨hclimb, hhex⟩ := climb_of_climbAuditPath htop
  have hmap := m.isMapOf
  have hinputs := hfree _ (by
    rw [SpendMapProof.hashedInputs, hshown, Check.ok_bind, hpreimage, Check.ok_bind, hposition]
    rfl)
  have hzero : position / 2 ^ spendMapKeyBits = 0 :=
    Nat.div_eq_of_lt (spendKeyPosition_lt hposition)
  have htarget : climb (spendMapBranchHash crypto) position (crypto.sha3Hex preimage)
      (siblingsOf proof.auditPath) = node (spendMapBranchHash crypto) (m.map.leaf crypto)
        (0 + spendMapKeyBits) (position / 2 ^ spendMapKeyBits) := by
    rw [hclimb, hzero, Nat.zero_add, ← hmap.root_eq]
    exact Option.some.inj (hroot.symm.trans m.spendMapRoot_eq)
  obtain ⟨hleaf, -⟩ := eq_of_climb_eq (spendMapBranchHash crypto) (m.map.leaf crypto)
    spendMapKeyBits 0 position _ _ (by rw [siblingsOf, List.length_map, hlen])
    (fun x hx k q hk hbranch => by
      have hpair := mem_climbPairs hhex (isDigest_sha3Hex crypto preimage) x hx
      refine branchPreimage_inj hpair.1.1 hpair.2.1 hpair.1.2 hpair.2.2 (hmap.isDigest_node _ _)
        (hmap.isDigest_node _ _) (hinputs _ (List.mem_cons_of_mem _ (List.mem_map.2 ⟨x, hx, rfl⟩))
          _ (Or.inr (Or.inr ⟨k, by omega, q, ?_⟩)) (sha3_eq_of_sha3Hex hbranch))
      rw [hmap.hashAt_eq k (by omega), hmap.hashAt_eq k (by omega)]) htarget
  rw [node_zero] at hleaf
  cases hslot : m.map.claimsByKey.slot position with
  | nil =>
    -- the leaf is empty, but its hash is the hash of a slot
    rw [hmap.leaf_empty position hslot] at hleaf
    have := hinputs _ List.mem_cons_self _ (Or.inl rfl) (sha3_eq_of_sha3Hex hleaf)
    exact absurd this (slotPreimage_ne_emptyLeaf hpreimage)
  | cons first rest =>
    obtain ⟨preimage', hpreimage', hhash⟩ := hmap.slot_preimage hslot
    rw [hhash] at hleaf
    have heq := hinputs _ List.mem_cons_self _ (Or.inr (Or.inl ⟨position, first, rest, hslot,
      hpreimage'⟩)) (sha3_eq_of_sha3Hex hleaf)
    subst heq
    have hfirst : first ∈ m.map.claimsByKey.slot position := by
      rw [hslot]
      exact List.mem_cons_self
    obtain ⟨-, hsame⟩ := slotPreimage_inj hposition (m.mem_slot.1 hfirst).2 hpreimage hpreimage'
    have hsorted : SpendClaim.sorted shown = m.map.claimsByKey.slot position := by
      rw [hsame, ← hslot, ClaimTable.sorted_slot]
    refine ⟨fun c => ?_, ?_⟩
    · rw [hsorted, m.mem_slot]
      constructor
      · rintro ⟨hc, hpos⟩
        have hmem : c ∈ SpendClaim.sorted shown := by
          rw [hsorted]
          exact m.mem_slot.2 ⟨hc, hpos⟩
        exact ⟨hc, (hcheck.1 c (SpendClaim.mem_sorted.1 hmem)).2.1⟩
      · rintro ⟨hc, hkey⟩
        exact ⟨hc, by rw [hkey]; exact hposition⟩
    · rw [hsorted, hslot]
      exact List.cons_ne_nil _ _

/-- **Completeness**, unless the key shares its slot. -/
theorem complete {spendKey : String} (hunshared : m.KeyUnshared spendKey) :
    m.Complete spendKey := by
  rintro ⟨c, hc, rfl⟩ clock hle hmax
  have hmap := m.isMapOf
  obtain ⟨p, hp⟩ := m.exists_position hc
  have hnormal := m.spendKey_normal hc
  have hcslot : c ∈ m.map.claimsByKey.slot p := m.mem_slot.2 ⟨hc, hp⟩
  have hkeys : ∀ d ∈ m.map.claimsByKey.slot p, d.spendKey = c.spendKey := by
    intro d hd
    obtain ⟨hd, hdpos⟩ := m.mem_slot.1 hd
    exact hunshared ⟨c, hc, rfl⟩ d hd (hdpos.trans hp.symm)
  have hclaims : SpendMapProof.normalizeClaims crypto clock (m.map.claimsByKey.slot p)
      = .ok (m.map.claimsByKey.slot p) :=
    SpendMapProof.normalizeClaims_eq_self (fun d hd =>
      SpendClaim.normalizeSpendClaim_mono (m.normal d (m.mem_slot.1 hd).1) hle hmax)
  have hcheck : SpendMapProof.checkClaims m.root c.spendKey (m.map.claimsByKey.slot p) []
      = .ok () := by
    refine SpendMapProof.checkClaims_eq_ok.2 ⟨fun d hd => ?_, hmap.distinct.slot p⟩
    have hd' := (m.mem_slot.1 hd).1
    exact ⟨m.logId_eq d hd', hkeys d hd, m.leafIndex_lt d hd', List.not_mem_nil⟩
  obtain ⟨preimage, hpreimage, hleaf⟩ : ∃ preimage,
      slotPreimage c.spendKey (m.map.claimsByKey.slot p) = .ok preimage ∧
        m.map.leaf crypto p = crypto.sha3Hex preimage := by
    cases hslot : m.map.claimsByKey.slot p with
    | nil =>
      rw [hslot] at hcslot
      exact absurd hcslot List.not_mem_nil
    | cons first rest =>
      rw [← hkeys first (by rw [hslot]; exact List.mem_cons_self)]
      exact hmap.slot_preimage hslot
  have hzero : p / 2 ^ spendMapKeyBits = 0 := Nat.div_eq_of_lt (spendKeyPosition_lt hp)
  have hclimb := climbAuditPath_auditPathFrom spendMapKeyBits 0 p (crypto.sha3Hex preimage)
    (fun k hk q => hmap.hashAt_eq k (by omega) q) hmap.isDigest_node
  rw [← hleaf, ← node_zero (spendMapBranchHash crypto) (m.map.leaf crypto) p,
    climb_siblings, hzero, Nat.zero_add, ← hmap.root_eq, node_zero, hleaf] at hclimb
  refine ⟨SpendMapProof.ofClaims c.spendKey p m.root.treeSize m.map.totalClaims
    (m.map.claimsByKey.slot p) (m.map.hashAt crypto), m.map.claimsByKey.slot p, ?_, ?_, ?_⟩
  · rw [SpendMapProof.buildSpendMapProof, hnormal, Check.ok_bind, hp, Check.ok_bind, m.map_eq,
      Check.ok_bind, Check.require_of (ClaimTable.mem_positions.2 (List.ne_nil_of_mem hcslot))]
    rfl
  · rw [SpendMapProof.verify_eq_ok]
    refine ⟨m.root_valid, ?_, _, hclaims, hcheck, preimage, hpreimage, p, hp,
      length_auditPathFrom _ _ _ _, _, hclimb, m.spendMapRoot_eq, ClaimTable.sorted_slot _ _⟩
    have htree := (SignedRoot.verified_of_verify m.root_valid).treeSize_nonneg
    simp only [SpendMapProof.checkHeader, SpendMapProof.ofClaims, Check.bind_eq_ok,
      Check.require_eq_ok, requireMin_eq_ok, m.algorithm_eq, m.spendMapRoot_eq, m.spendMapSize_eq,
      exists_const]
    exact ⟨⟨trivial, trivial⟩, trivial, ⟨rfl, rfl, rfl⟩, trivial, htree, htree, trivial,
      Int.natCast_nonneg _, trivial, Check.require_of (List.ne_nil_of_mem hcslot) _⟩
  · intro d
    rw [m.mem_slot]
    constructor
    · rintro ⟨hd, hpos⟩
      exact ⟨hd, hkeys d (m.mem_slot.2 ⟨hd, hpos⟩)⟩
    · rintro ⟨hd, hkey⟩
      exact ⟨hd, by rw [hkey]; exact hp⟩

/-- A proof that is built for a key with a shared slot lists a claim with another key. -/
theorem not_complete_of_shared {spendKey : String} {c d : SpendClaim} (hc : c ∈ m.claims)
    (hkey : c.spendKey = spendKey) (hd : d ∈ m.claims)
    (hpos : spendKeyPosition d.spendKey = spendKeyPosition spendKey) (hne : d.spendKey ≠ spendKey) :
    ¬ m.Complete spendKey := by
  subst hkey
  intro hcomplete
  obtain ⟨proof, claims, hbuild, hverify, -⟩ := hcomplete ⟨c, hc, rfl⟩ m.clock le_rfl m.clock_le
  obtain ⟨p, hp⟩ := m.exists_position hc
  simp only [SpendMapProof.buildSpendMapProof, m.spendKey_normal hc, hp, m.map_eq, Check.ok_bind,
    Check.check_bind_eq_ok, Check.pure_eq_ok] at hbuild
  obtain ⟨-, rfl⟩ := hbuild
  rw [SpendMapProof.verify_eq_ok] at hverify
  obtain ⟨-, -, shown, hshown, hcheck, -⟩ := hverify
  have hself : SpendMapProof.normalizeClaims crypto m.clock (m.map.claimsByKey.slot p)
      = .ok (m.map.claimsByKey.slot p) :=
    SpendMapProof.normalizeClaims_eq_self (fun e he => m.normal e (m.mem_slot.1 he).1)
  obtain rfl := Except.ok.inj (hself.symm.trans hshown)
  rw [SpendMapProof.checkClaims_eq_ok] at hcheck
  exact hne (hcheck.1 d (m.mem_slot.2 ⟨hd, hpos.trans hp⟩)).2.1

/-- **Proofs for a key are complete and binding if and only if the key does not share its slot.** -/
theorem proofsExact_iff (spendKey : String) :
    (m.Complete spendKey ∧ m.Sound spendKey) ↔ m.KeyUnshared spendKey := by
  constructor
  · rintro ⟨hcomplete, -⟩ ⟨c, hc, hkey⟩ d hd hpos
    by_contra hne
    exact m.not_complete_of_shared hc hkey hd hpos hne hcomplete
  · intro hunshared
    exact ⟨m.complete hunshared, m.sound spendKey⟩

end CommittedMap

/-- Every spend map of an operator's claims can be put under a root of that operator. -/
theorem CommittedMap.exists_of_levels {crypto : Crypto} (acceptLegacy : Bool) {clock : Int}
    (keys : KeyPair crypto) (treeSize : Int) {claims : List SpendClaim} {map : SpendMap}
    (hclock : clock ≤ maxProtocolTimestamp)
    (hnormal : ∀ c ∈ claims, SpendClaim.normalizeSpendClaim crypto clock c = .ok c)
    (hmap : spendMapLevels crypto clock claims = .ok map)
    (htree : 0 ≤ treeSize) (htreeMax : treeSize.natAbs ≤ jsonLimits.maxIntegerAbs)
    (hsize : (map.totalClaims : Int).natAbs ≤ jsonLimits.maxIntegerAbs)
    (hlog : ∀ c ∈ claims, c.logId = logIdFromPublicKey crypto keys.publicKey)
    (hleaf : ∀ c ∈ claims, c.transferLeafIndex < treeSize) :
    ∃ m : CommittedMap crypto acceptLegacy, m.claims = claims := by
  have hdigest : IsDigest (map.root crypto) := by
    rw [(isMapOf_of_levels hmap).root_eq]
    exact (isMapOf_of_levels hmap).isDigest_node _ _
  have hroot64 : IsHex32 (map.root crypto) := hdigest.isHex32
  have hnumbers : ∀ n ∈ [treeSize, 0, (map.totalClaims : Int)],
      n.natAbs ≤ jsonLimits.maxIntegerAbs := by
    simp only [List.forall_mem_cons]
    exact ⟨htreeMax, by decide, hsize, by simp⟩
  obtain ⟨root, hmake⟩ := SignedRoot.exists_makeSignedRoot keys hnumbers hroot64.1 hroot64.1
  have hvalid : root.verifySignedRoot crypto acceptLegacy none = .ok () :=
    SignedRoot.verify_makeSignedRoot keys hmake htree le_rfl hroot64 hroot64
      (Int.natCast_nonneg _) acceptLegacy (by simp)
  obtain ⟨_, -, hsigned⟩ := Check.bind_eq_ok.1 hmake
  obtain ⟨signature, -, heq⟩ := Check.bind_eq_ok.1 hsigned
  obtain rfl := Except.ok.inj heq
  exact ⟨{
    clock := clock
    clock_le := hclock
    claims := claims
    normal := hnormal
    map := map
    map_eq := hmap
    root := _
    root_valid := hvalid
    algorithm_eq := rfl
    spendMapRoot_eq := congrArg some hdigest.lower
    spendMapSize_eq := rfl
    logId_eq := hlog
    leafIndex_lt := hleaf }, rfl⟩

/-! ## Two keys that share a slot -/

/-- A claim without a body, under a given key. -/
def plainClaim (logId spendKey transferHash : String) : SpendClaim where
  type := spendClaimType
  version := logVersion
  logId := logId
  spendKey := spendKey
  tokenId := "bill"
  previousHash := transferHash
  sequence := 1
  senderAddress := "sender"
  senderPublicKey := "key"
  transferHash := transferHash
  transferLeafIndex := 0
  acceptedAt := 0
  transfer := none

/-- 31 bytes in hexadecimal. -/
def shortKey : String := String.ofList (List.replicate 62 '1')

/-- The short key with a zero byte in front. -/
def zeroKey : String := "00" ++ shortKey

/-- The short key with two blanks behind it. -/
def blankKey : String := shortKey ++ "  "

/-- Two hash texts. -/
def hashA : String := String.ofList (List.replicate 64 'a')

/-- The other hash text. -/
def hashB : String := String.ofList (List.replicate 64 'b')

theorem plainClaim_normal {crypto : Crypto} {clock : Int} {logId spendKey transferHash : String}
    (hlog : Text.strip logId = logId) (hkey : IsHex32 spendKey) (hhash : IsHex32 transferHash)
    (hkeyLower : Text.lower spendKey = spendKey) (hhashLower : Text.lower transferHash = transferHash) :
    SpendClaim.normalizeSpendClaim crypto clock (plainClaim logId spendKey transferHash)
      = .ok (plainClaim logId spendKey transferHash) := by
  refine SpendClaim.normalizeSpendClaim_eq_ok.2 ⟨⟨rfl, rfl, hkey, hhash, le_rfl, hhash, le_rfl,
    le_rfl, fun body hbody => nomatch hbody⟩, ?_⟩
  have hbill : Text.strip "bill" = "bill" := by decide +kernel
  have hsender : Text.strip "sender" = "sender" := by decide +kernel
  have hpublic : Text.strip "key" = "key" := by decide +kernel
  simp only [SpendClaim.normalFields, plainClaim, hlog, hkeyLower, hhashLower, hbill, hsender,
    hpublic]

theorem plainClaim_validate {logId spendKey transferHash label : String}
    (hlog : logId.length ≤ 16384) (hkey : spendKey.length ≤ 16384)
    (hhash : transferHash.length ≤ 16384) :
    (plainClaim logId spendKey transferHash).toJson.validate jsonLimits label 2 = .ok () := by
  refine SpendClaim.validate_toJson (by decide) ?_ ?_ (fun body hbody => nomatch hbody)
  · simp only [plainClaim, List.forall_mem_cons]
    exact ⟨by decide, hlog, hkey, by decide, hhash, by decide, by decide, hhash, by simp⟩
  · simp only [plainClaim, List.forall_mem_cons]
    exact ⟨by decide, by decide, by decide, by decide, by simp⟩

/-- Some signed root commits to a claim under each of the two keys. -/
theorem exists_sharedSlot (crypto : Crypto) (acceptLegacy : Bool) :
    ∃ m : CommittedMap crypto acceptLegacy, ∃ c ∈ m.claims, ∃ d ∈ m.claims,
      c.spendKey = zeroKey ∧ d.spendKey = blankKey := by
  obtain ⟨keys, -⟩ := KeyPair.exists_of_seed crypto (List.replicate 32 0) (by simp)
  let logId := logIdFromPublicKey crypto keys.publicKey
  have hlog : IsDigest logId := isDigest_sha3Hex crypto _
  have hlogLen : logId.length ≤ 16384 := by
    rw [hlog.isHex32.1]
    decide
  have hlogStrip : Text.strip logId = logId := by
    obtain ⟨bs, -, hbs⟩ := hlog
    rw [hbs, Text.strip_hex]
  have hA : IsHex32 hashA := isHex32_of_chars rfl rfl
  have hB : IsHex32 hashB := isHex32_of_chars rfl rfl
  have hzero : IsHex32 zeroKey := ⟨by decide +kernel, by decide +kernel⟩
  have hblank : IsHex32 blankKey := ⟨by decide +kernel, by decide +kernel⟩
  let c := plainClaim logId zeroKey hashA
  let d := plainClaim logId blankKey hashB
  have hc : SpendClaim.normalizeSpendClaim crypto 0 c = .ok c :=
    plainClaim_normal hlogStrip hzero hA (by decide +kernel) (by decide +kernel)
  have hd : SpendClaim.normalizeSpendClaim crypto 0 d = .ok d :=
    plainClaim_normal hlogStrip hblank hB (by decide +kernel) (by decide +kernel)
  obtain ⟨p, hp⟩ := Check.returns_iff.1
    (show Check.returns (spendKeyPosition zeroKey) = true by decide +kernel)
  have hp' : spendKeyPosition blankKey = .ok p := by
    rw [show spendKeyPosition blankKey = spendKeyPosition zeroKey by decide +kernel, hp]
  have htable : collectClaims crypto 0 [c, d] [] = .ok [(p, c), (p, d)] := by
    have hne : hashA ≠ hashB := by decide +kernel
    refine Check.bind_eq_ok.2 ⟨c, hc, Check.bind_eq_ok.2 ⟨p, hp, Check.bind_eq_ok.2
      ⟨[(p, c)], rfl, Check.bind_eq_ok.2 ⟨d, hd, Check.bind_eq_ok.2 ⟨p, hp', Check.bind_eq_ok.2
        ⟨[(p, c), (p, d)], ?_, rfl⟩⟩⟩⟩⟩⟩
    simp [ClaimTable.insert, c, d, plainClaim, hne]
  have hmem : ∀ e ∈ ClaimTable.slot [(p, c), (p, d)] p, IsHex32 e.spendKey ∧
      e.toJson.validate jsonLimits "protocol object" 2 = .ok () := by
    intro e he
    rcases List.mem_cons.1 (ClaimTable.mem_slot.1 he) with heq | heq
    · rw [(Prod.mk.inj heq).2]
      exact ⟨hzero, plainClaim_validate hlogLen (by decide +kernel) (by decide +kernel)⟩
    · rw [(Prod.mk.inj (List.mem_singleton.1 heq)).2]
      exact ⟨hblank, plainClaim_validate hlogLen (by decide +kernel) (by decide +kernel)⟩
  have hlen : (ClaimTable.slot [(p, c), (p, d)] p).length ≤ jsonLimits.maxListItems := by
    rw [ClaimTable.slot, SpendClaim.sorted, List.length_insertionSort, List.length_map]
    exact le_trans (List.length_filter_le _ _) (show 2 ≤ 100000 by decide)
  have hslot : ∃ hash, ClaimTable.slotHash crypto [(p, c), (p, d)] p = .ok hash := by
    unfold ClaimTable.slotHash
    cases hs : ClaimTable.slot [(p, c), (p, d)] p with
    | nil =>
      have hin : c ∈ ClaimTable.slot [(p, c), (p, d)] p := ClaimTable.mem_slot.2 List.mem_cons_self
      rw [hs] at hin
      exact absurd hin List.not_mem_nil
    | cons first rest =>
      rw [hs] at hmem hlen
      obtain ⟨preimage, hpreimage⟩ := exists_slotPreimage (hmem first List.mem_cons_self).1 hlen
        (fun e he => (hmem e he).2)
      exact ⟨_, Check.bind_eq_ok.2 ⟨preimage, hpreimage, rfl⟩⟩
  have hpositions : ∀ q ∈ ([(p, c), (p, d)].map Prod.fst).dedup,
      ∃ hash, ClaimTable.slotHash crypto [(p, c), (p, d)] q = .ok hash := by
    intro q hq
    have hqp : q = p := by simpa using hq
    rw [hqp]
    exact hslot
  obtain ⟨level, hlevel⟩ := exists_leaves hpositions
  let map : SpendMap := ⟨levelsFrom crypto spendMapKeyBits 0 level, [(p, c), (p, d)]⟩
  have hmap : spendMapLevels crypto 0 [c, d] = .ok map :=
    Check.bind_eq_ok.2 ⟨_, htable, Check.bind_eq_ok.2 ⟨level, hlevel, rfl⟩⟩
  obtain ⟨m, hm⟩ := CommittedMap.exists_of_levels acceptLegacy keys 1
    (show (0 : Int) ≤ maxProtocolTimestamp by decide) (by simp [hc, hd]) hmap (by decide)
    (by decide) (show (2 : Int).natAbs ≤ jsonLimits.maxIntegerAbs by decide)
    (by simp [c, d, plainClaim, logId]) (by simp [c, d, plainClaim])
  refine ⟨m, c, ?_, d, ?_, rfl, rfl⟩ <;> simp [hm]

/-- The proofs of that root are not exact for the first of the two keys. -/
theorem sharedSlot_not_exact :
    ¬ ∀ (m : CommittedMap sampleCrypto true) (spendKey : String),
      m.Complete spendKey ∧ m.Sound spendKey := by
  intro hall
  obtain ⟨m, c, hc, d, hd, hckey, hdkey⟩ := exists_sharedSlot sampleCrypto true
  refine m.not_complete_of_shared hc hckey hd ?_ ?_ (hall m zeroKey).1
  · rw [hdkey]
    decide +kernel
  · rw [hdkey]
    decide +kernel
