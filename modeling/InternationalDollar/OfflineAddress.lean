import InternationalDollar.Keys

set_option autoImplicit false

/-! # Addresses in the offline tool (`genesis_manifest_v3_offline`)

The tool that writes the genesis manifest runs without the node's packages and brings its own base 58,
key texts and address rules. Each of its functions equals the node's, so the addresses it derives are
the node's addresses and its validator accepts exactly the texts the node's does. -/

namespace OfflineTool

/-- The loop of `b58encode` over the number. -/
def digits (number : Nat) (chars : List Char) : List Char :=
  if number = 0 then chars
  else digits (number / 58) (Base58.digitChar (number % 58) :: chars)
termination_by number
decreasing_by omega

/-- The loop of `b58encode` over the bytes, which ends at the first that is not zero. -/
def leadingZeros : Bytes → Nat → Nat
  | [], pad => pad
  | byte :: rest, pad => if byte = 0 then leadingZeros rest (pad + 1) else pad

/-- `b58encode`. -/
def b58encode (data : Bytes) : List Char :=
  List.replicate (leadingZeros data 0) '1' ++ digits (Text.bytesValue data 0) []

/-- `fixed_base58`. -/
def fixedBase58 (data : Bytes) (length : Nat) : Except String (List Char) := do
  let encoded := b58encode data
  Check.require (encoded.length ≤ length) "address checksum encoding overflow"
  pure (List.replicate (length - encoded.length) '1' ++ encoded)

/-- `b85_decode`. -/
def b85Decode (text : List Char) (length : Nat) (label : String) : Except String Bytes := do
  Check.require (text = Text.trim Text.isSpace text) ("invalid " ++ label)
  let raw ← Check.ofOption (Base85.b85decode text) ("invalid " ++ label)
  Check.require (raw.length = length)
    (labelled label ("must decode to exactly " ++ toString length ++ " bytes"))
  pure raw

/-- `encode_public_key`. -/
def encodePublicKey (publicKey : Bytes) : Except String String := do
  Check.require (publicKey.length = 32) "public key must be exactly 32 bytes"
  pure (String.ofList (publicKeyPrefix ++ Base85.b85encode publicKey))

/-- `decode_public_key`. -/
def decodePublicKey (text : String) : Except String Bytes := do
  let digits ← Check.ofOption (Text.dropPrefix? publicKeyPrefix text.toList) "invalid V3 public key"
  b85Decode digits 32 "V3 public key"

/-- The checksum of a payload in `address_from_public_key` and `validate_address`. -/
def checksum (crypto : Crypto) (payload : List Char) : Except String (List Char) :=
  let checksumDigest :=
    crypto.sha3_256 (Text.utf8 "IND-address-checksum:v3:" ++ Json.asciiBytes payload)
  fixedBase58 (checksumDigest.take addressChecksumBytes) addressChecksumChars

/-- `address_from_public_key`. -/
def addressFromPublicKey (crypto : Crypto) (publicKeyText : String) : Except String String := do
  let publicKey ← decodePublicKey publicKeyText
  let digest := crypto.sha3_256 (Text.utf8 "IND-address-v3:ed25519:" ++ publicKey)
  let payload := (b58encode digest).take addressPayloadChars
  let checksum ← checksum crypto payload
  pure (addressText payload checksum)

/-- `validate_address`. -/
def validateAddress (crypto : Crypto) (address label : String) : Except String String := do
  Check.require (address = Text.strip address) ("invalid " ++ label)
  let chars := address.toList
  Check.require (chars.length = addressLength) ("invalid " ++ label)
  Check.require (chars.take 2 = ['x', '3'] ∧ chars.drop 32 = ['x']) ("invalid " ++ label)
  let payload := (chars.drop 2).take addressPayloadChars
  let sum := (chars.drop (2 + addressPayloadChars)).take addressChecksumChars
  Check.require ((payload ++ sum).all (· ∈ Base58.alphabet) = true) ("invalid " ++ label)
  let expected ← checksum crypto payload
  Check.require (sum = expected) ("invalid " ++ label)
  pure address

/-! ## The base-58 text -/

/-- The bound on the number of digits is never reached. -/
theorem digits_eq_prependDigits (fuel : Nat) {number : Nat} (chars : List Char)
    (h : number < 58 ^ fuel) : digits number chars = Base58.prependDigits fuel number chars := by
  induction fuel generalizing number chars with
  | zero =>
    have hzero : number = 0 := by
      rw [pow_zero] at h
      omega
    rw [digits, if_pos hzero, Base58.prependDigits]
  | succ fuel ih =>
    rw [digits, Base58.prependDigits]
    by_cases hzero : number = 0
    · rw [if_pos hzero, if_pos hzero]
    · have hlt : number / 58 < 58 ^ fuel := by
        rw [Nat.div_lt_iff_lt_mul (by decide), ← pow_succ]
        exact h
      rw [if_neg hzero, if_neg hzero, ih _ hlt]

theorem leadingZeros_eq (data : Bytes) (pad : Nat) :
    leadingZeros data pad = pad + (data.takeWhile fun b => b = 0).length := by
  induction data generalizing pad with
  | nil => rfl
  | cons byte rest ih =>
    by_cases hzero : byte = 0
    · rw [leadingZeros, if_pos hzero, ih, List.takeWhile_cons_of_pos (by simpa using hzero),
        List.length_cons]
      omega
    · rw [leadingZeros, if_neg hzero, List.takeWhile_cons_of_neg (by simpa using hzero)]
      rfl

/-- The tool's base 58 is the standard one. -/
theorem b58encode_eq (data : Bytes) : b58encode data = Base58.b58encode data := by
  have hlt : Text.bytesValue data 0 < 58 ^ (2 * data.length) := by
    calc Text.bytesValue data 0 < 256 ^ data.length := Text.bytesValue_lt data
      _ ≤ (58 ^ 2) ^ data.length := Nat.pow_le_pow_left (by decide) _
      _ = 58 ^ (2 * data.length) := (pow_mul 58 2 data.length).symm
  rw [b58encode, Base58.b58encode, leadingZeros_eq, Nat.zero_add, digits_eq_prependDigits _ [] hlt]

/-- The tool leaves out the check of the payload's digits, which a base-58 text passes. -/
theorem checksum_eq (crypto : Crypto) {payload : List Char}
    (h : ∀ c ∈ payload, c ∈ Base58.alphabet) :
    checksum crypto payload = addressChecksum crypto payload := by
  have hall : payload.all (· ∈ Base58.alphabet) = true := by
    rw [List.all_eq_true]
    exact fun c hc => decide_eq_true (h c hc)
  rw [addressChecksum, Check.require_of hall]
  simp only [checksum, fixedBase58, b58encode_eq]
  rfl

end OfflineTool

/-! ## Two derivations and two validators -/

/-- `address_from_public_key` of the node on a key text. -/
def addressFromPublicKeyText (crypto : Crypto) (publicKeyText : String) : Except String String := do
  let publicKey ← decodePublicKey publicKeyText
  addressFromPublicKey crypto publicKey

/-- No digit of base 58 is a blank. -/
theorem isSpace_of_mem_base58 : ∀ c ∈ Base58.alphabet, Text.isSpace c = false := by
  have hall : Base58.alphabet.all (fun c => !Text.isSpace c) = true := by decide +kernel
  simpa using hall

/-- An address passes the test for blanks at its ends, which `validate_address` makes first. -/
theorem strip_of_isAddress {crypto : Crypto} {address : String}
    (h : isAddress crypto address = true) : address = Text.strip address := by
  have hmem := (mem_base58_of_isAddress h).2
  rw [Text.strip, Text.trim_eq_self _ _ fun c hc => isSpace_of_mem_base58 c (hmem c hc),
    String.ofList_toList]

/-- The node and the tool derive one address from a key text. -/
theorem OfflineTool.addressFromPublicKey_eq (crypto : Crypto) (publicKeyText : String) :
    OfflineTool.addressFromPublicKey crypto publicKeyText
      = addressFromPublicKeyText crypto publicKeyText := by
  have hdecode : OfflineTool.decodePublicKey publicKeyText = decodePublicKey publicKeyText := rfl
  rw [OfflineTool.addressFromPublicKey, addressFromPublicKeyText, hdecode]
  refine congrArg _ (funext fun publicKey => ?_)
  simp only [OfflineTool.b58encode_eq]
  rw [← addressPayload, OfflineTool.checksum_eq crypto (addressPayload_mem crypto publicKey)]
  rfl

/-- What the tool accepts is an address of the node. -/
theorem OfflineTool.validateAddress_eq_ok {crypto : Crypto} {address label found : String} :
    OfflineTool.validateAddress crypto address label = .ok found ↔
      isAddress crypto address = true ∧ address = found := by
  simp only [OfflineTool.validateAddress, Check.bind_eq_ok,
    Check.require_eq_ok, Check.pure_eq_ok, exists_const]
  constructor
  · rintro ⟨-, hlen, ⟨hhead, hlast⟩, hmem, expected, hexpected, rfl, rfl⟩
    have hpayload : ∀ c ∈ (address.toList.drop 2).take addressPayloadChars, c ∈ Base58.alphabet := by
      intro c hc
      exact of_decide_eq_true (List.all_eq_true.1 hmem c (List.mem_append_left _ hc))
    rw [OfflineTool.checksum_eq crypto hpayload] at hexpected
    refine ⟨?_, rfl⟩
    simp only [isAddress, hlen, hhead, hlast, hmem, hexpected, decide_true, Bool.and_self]
  · rintro ⟨h, rfl⟩
    have hstrip := strip_of_isAddress h
    simp only [isAddress, Bool.and_eq_true, decide_eq_true_eq] at h
    obtain ⟨⟨⟨⟨hlen, hhead⟩, hlast⟩, hmem⟩, hsum⟩ := h
    have hpayload : ∀ c ∈ (address.toList.drop 2).take addressPayloadChars, c ∈ Base58.alphabet := by
      intro c hc
      exact of_decide_eq_true (List.all_eq_true.1 hmem c (List.mem_append_left _ hc))
    obtain ⟨expected, hexpected, -, -⟩ := exists_addressChecksum crypto hpayload
    rw [hexpected] at hsum
    refine ⟨hstrip, hlen, ⟨hhead, hlast⟩, hmem, expected, ?_, of_decide_eq_true hsum, rfl⟩
    rw [OfflineTool.checksum_eq crypto hpayload]
    exact hexpected

theorem validateAddress_eq_ok {crypto : Crypto} {address label found : String} :
    validateAddress crypto address label = .ok found ↔
      isAddress crypto address = true ∧ address = found := by
  simp only [validateAddress, Check.check_bind_eq_ok, Check.require_eq_ok, Check.pure_eq_ok]

/-- **Derived addresses are valid and the two derivations agree.** -/
theorem addresses_agree (crypto : Crypto) :
    (∀ publicKey : Bytes, publicKey.length = 32 → ∃ address publicKeyText,
      address.toList.length = 33 ∧
      addressFromPublicKey crypto publicKey = .ok address ∧
      OfflineTool.encodePublicKey publicKey = .ok publicKeyText ∧
      addressFromPublicKeyText crypto publicKeyText = .ok address ∧
      OfflineTool.addressFromPublicKey crypto publicKeyText = .ok address ∧
      ∀ label, validateAddress crypto address label = .ok address ∧
        OfflineTool.validateAddress crypto address label = .ok address) ∧
    (∀ publicKeyText, OfflineTool.addressFromPublicKey crypto publicKeyText
      = addressFromPublicKeyText crypto publicKeyText) ∧
    ∀ address label label' found, validateAddress crypto address label = .ok found ↔
      OfflineTool.validateAddress crypto address label' = .ok found := by
  refine ⟨fun publicKey hlen => ?_, OfflineTool.addressFromPublicKey_eq crypto, ?_⟩
  · obtain ⟨address, haddress, hvalid⟩ := exists_addressFromPublicKey crypto publicKey
    have htext : addressFromPublicKeyText crypto (encodePublicKey publicKey) = .ok address := by
      rw [addressFromPublicKeyText, decodePublicKey_encodePublicKey hlen]
      exact haddress
    have hencode : OfflineTool.encodePublicKey publicKey = .ok (encodePublicKey publicKey) := by
      rw [OfflineTool.encodePublicKey, Check.require_of hlen]
      rfl
    refine ⟨address, encodePublicKey publicKey, (ascii_of_isAddress hvalid).1, haddress, hencode,
      htext, ?_, fun label => ?_⟩
    · rw [OfflineTool.addressFromPublicKey_eq]
      exact htext
    · exact ⟨validateAddress_eq_ok.2 ⟨hvalid, rfl⟩,
        OfflineTool.validateAddress_eq_ok.2 ⟨hvalid, rfl⟩⟩
  · intro address label label' found
    rw [validateAddress_eq_ok, OfflineTool.validateAddress_eq_ok]
