import InternationalDollar.Lib.Base58
import InternationalDollar.Lib.Base85
import InternationalDollar.Protocol

set_option autoImplicit false

/-! # Key texts and addresses (`keys_v3`)

Ed25519 keys are written in base 85 after a prefix. An address is a piece of the base-58 hash of the
public key and a checksum of that piece. The results say that the texts the program derives itself
pass its own validators, whatever the key. -/

/-- `PUBLIC_KEY_PREFIX`. -/
def publicKeyPrefix : List Char := "indpk3:".toList

/-- `PRIVATE_KEY_PREFIX`. -/
def privateKeyPrefix : List Char := "indsk3:".toList

/-- `ADDRESS_PAYLOAD_CHARS`. -/
def addressPayloadChars : Nat := 24

/-- `ADDRESS_CHECKSUM_CHARS`. -/
def addressChecksumChars : Nat := 6

/-- `ADDRESS_CHECKSUM_BYTES`. -/
def addressChecksumBytes : Nat := 4

/-- `ADDRESS_LENGTH`. -/
def addressLength : Nat := 33

/-! ## Key texts -/

/-- `_b85_decode`. A character outside ASCII is no digit of base 85. -/
def b85DecodeText (text : List Char) (length : Nat) (label : String) : Except String Bytes := do
  Check.require (text = Text.trim Text.isSpace text) ("invalid " ++ label)
  let raw ← Check.ofOption (Base85.b85decode text) ("invalid " ++ label)
  Check.require (raw.length = length)
    (labelled label ("must decode to exactly " ++ toString length ++ " bytes"))
  pure raw

/-- `encode_public_key`. -/
def encodePublicKey (publicKey : Bytes) : String :=
  String.ofList (publicKeyPrefix ++ Base85.b85encode publicKey)

/-- `decode_public_key`. -/
def decodePublicKey (publicKeyText : String) : Except String Bytes := do
  let text ← Check.ofOption (Text.dropPrefix? publicKeyPrefix publicKeyText.toList)
    "invalid V3 public key"
  b85DecodeText text 32 "V3 public key"

/-- `encode_private_key`. -/
def encodePrivateKey (privateSeed : Bytes) : String :=
  String.ofList (privateKeyPrefix ++ Base85.b85encode privateSeed)

/-- `decode_private_key`. -/
def decodePrivateKey (privateKeyText : String) : Except String Bytes := do
  let text ← Check.ofOption (Text.dropPrefix? privateKeyPrefix privateKeyText.toList)
    "invalid V3 private key"
  b85DecodeText text 32 "V3 private key"

/-! ## Addresses -/

/-- `_address_payload`. -/
def addressPayload (crypto : Crypto) (publicKey : Bytes) : List Char :=
  (Base58.b58encode (crypto.sha3_256 (Text.utf8 "IND-address-v3:ed25519:" ++ publicKey))).take
    addressPayloadChars

/-- `_fixed_base58`. -/
def fixedBase58 (data : Bytes) (length : Nat) : Except String (List Char) := do
  let encoded := Base58.b58encode data
  Check.require (encoded.length ≤ length) "address checksum encoding overflow"
  pure (List.replicate (length - encoded.length) '1' ++ encoded)

/-- `_address_checksum`. -/
def addressChecksum (crypto : Crypto) (payload : List Char) : Except String (List Char) := do
  Check.require (payload.all (· ∈ Base58.alphabet) = true) "invalid V3 address payload"
  let digest := crypto.sha3_256 (Text.utf8 "IND-address-checksum:v3:" ++ Json.asciiBytes payload)
  fixedBase58 (digest.take addressChecksumBytes) addressChecksumChars

/-- The address text over a payload. -/
def addressText (payload checksum : List Char) : String :=
  String.ofList ('x' :: '3' :: (payload ++ (checksum ++ ['x'])))

/-- `address_from_public_key` on raw key bytes. -/
def addressFromPublicKey (crypto : Crypto) (publicKey : Bytes) : Except String String := do
  let payload := addressPayload crypto publicKey
  let checksum ← addressChecksum crypto payload
  pure (addressText payload checksum)

/-- `is_address`. -/
def isAddress (crypto : Crypto) (address : String) : Bool :=
  let chars := address.toList
  let payload := (chars.drop 2).take addressPayloadChars
  let checksum := (chars.drop (2 + addressPayloadChars)).take addressChecksumChars
  decide (chars.length = addressLength) && decide (chars.take 2 = ['x', '3']) &&
    decide (chars.drop 32 = ['x']) &&
    (payload ++ checksum).all (· ∈ Base58.alphabet) &&
    match addressChecksum crypto payload with
    | .ok expected => decide (checksum = expected)
    | .error _ => false

/-- `validate_address`. An address in the sense of `is_address` has no blanks at its ends. -/
def validateAddress (crypto : Crypto) (address label : String) : Except String String := do
  Check.require (isAddress crypto address = true) ("invalid " ++ label)
  pure address

/-- `public_key_matches_address`. -/
def publicKeyMatchesAddress (crypto : Crypto) (publicKeyText address : String) : Bool :=
  match decodePublicKey publicKeyText >>= addressFromPublicKey crypto with
  | .ok derived => isAddress crypto address && derived == address
  | .error _ => false

/-- `verify`. -/
def verifyKeySignature (crypto : Crypto) (publicKeyText : String) (signature message : Bytes) :
    Except String Bool := do
  let publicKey ← decodePublicKey publicKeyText
  pure (decide (signature.length = 64) && crypto.verify publicKey signature message)

/-- `sign`, which verifies the signature it made. -/
def signWithKey (crypto : Crypto) (privateKeyText : String) (message : Bytes) :
    Except String Bytes := do
  let seed ← decodePrivateKey privateKeyText
  let signature := crypto.sign seed message
  Check.require (crypto.verify (crypto.publicKeyFromSeed seed) signature message = true)
    "Ed25519 sign-then-verify failed"
  pure signature

/-! ## Derived texts are valid -/

theorem dropPrefix?_append (p cs : List Char) : Text.dropPrefix? p (p ++ cs) = some cs := by
  induction p with
  | nil => rfl
  | cons c p ih => simp [Text.dropPrefix?, ih]

theorem isSpace_of_mem_base85 : ∀ c ∈ Base85.alphabet, Text.isSpace c = false := by
  have hall : Base85.alphabet.all (fun c => !Text.isSpace c) = true := by decide +kernel
  simpa using hall

theorem b85DecodeText_b85encode {raw : Bytes} (h : raw.length = 32) (label : String) :
    b85DecodeText (Base85.b85encode raw) 32 label = .ok raw := by
  have htrim : Text.trim Text.isSpace (Base85.b85encode raw) = Base85.b85encode raw :=
    Text.trim_eq_self _ _ (fun c hc => isSpace_of_mem_base85 c (Base85.b85encode_mem _ c hc))
  simp [b85DecodeText, htrim, Base85.b85decode_b85encode, h]

/-- Every raw public key survives its text. -/
theorem decodePublicKey_encodePublicKey {publicKey : Bytes} (h : publicKey.length = 32) :
    decodePublicKey (encodePublicKey publicKey) = .ok publicKey := by
  simp [decodePublicKey, encodePublicKey, String.toList_ofList, dropPrefix?_append,
    b85DecodeText_b85encode h]

theorem length_of_decodePublicKey {text : String} {raw : Bytes}
    (h : decodePublicKey text = .ok raw) : raw.length = 32 := by
  simp only [decodePublicKey, b85DecodeText, Check.bind_eq_ok, Check.require_eq_ok,
    Check.pure_eq_ok] at h
  obtain ⟨_, -, _, -, _, -, _, hlen, rfl⟩ := h
  exact hlen

/-- Every private seed survives its text. -/
theorem decodePrivateKey_encodePrivateKey {seed : Bytes} (h : seed.length = 32) :
    decodePrivateKey (encodePrivateKey seed) = .ok seed := by
  simp [decodePrivateKey, encodePrivateKey, String.toList_ofList, dropPrefix?_append,
    b85DecodeText_b85encode h]

theorem signWithKey_encodePrivateKey (crypto : Crypto) {seed : Bytes} (h : seed.length = 32)
    (message : Bytes) :
    signWithKey crypto (encodePrivateKey seed) message = .ok (crypto.sign seed message) := by
  simp [signWithKey, decodePrivateKey_encodePrivateKey h, crypto.verify_sign seed message h]

theorem one_mem_base58 : '1' ∈ Base58.alphabet := by decide +kernel

theorem addressPayload_mem (crypto : Crypto) (publicKey : Bytes) :
    ∀ c ∈ addressPayload crypto publicKey, c ∈ Base58.alphabet :=
  fun c hc => Base58.b58encode_mem _ c (List.mem_of_mem_take hc)

theorem length_addressPayload (crypto : Crypto) (publicKey : Bytes) :
    (addressPayload crypto publicKey).length = 24 := by
  have := Base58.length_le_length_b58encode
    (crypto.sha3_256 (Text.utf8 "IND-address-v3:ed25519:" ++ publicKey))
  rw [crypto.length_sha3_256] at this
  rw [addressPayload, List.length_take, addressPayloadChars]
  omega

/-- A payload of base-58 digits has a checksum: four bytes never overflow six characters. -/
theorem exists_addressChecksum (crypto : Crypto) {payload : List Char}
    (h : ∀ c ∈ payload, c ∈ Base58.alphabet) :
    ∃ checksum, addressChecksum crypto payload = .ok checksum ∧ checksum.length = 6 ∧
      ∀ c ∈ checksum, c ∈ Base58.alphabet := by
  have hlen : ((crypto.sha3_256 (Text.utf8 "IND-address-checksum:v3:" ++
      Json.asciiBytes payload)).take addressChecksumBytes).length = 4 := by
    rw [List.length_take, crypto.length_sha3_256]
    rfl
  have hsix := Base58.length_b58encode_le_six hlen
  refine ⟨_, by simp only [addressChecksum, Check.check_bind_eq_ok, Check.require_eq_ok,
    fixedBase58, Check.pure_eq_ok]; exact ⟨by simpa using h, hsix, rfl⟩, ?_, ?_⟩
  · rw [List.length_append, List.length_replicate, addressChecksumChars]
    omega
  · intro c hc
    rcases List.mem_append.1 hc with hc | hc
    · rw [List.eq_of_mem_replicate hc]
      exact one_mem_base58
    · exact Base58.b58encode_mem _ c hc

/-- **The address of any public key is derived without failing and passes validation.** -/
theorem exists_addressFromPublicKey (crypto : Crypto) (publicKey : Bytes) :
    ∃ address, addressFromPublicKey crypto publicKey = .ok address ∧
      isAddress crypto address = true := by
  have hmem := addressPayload_mem crypto publicKey
  have hplen := length_addressPayload crypto publicKey
  obtain ⟨checksum, hcheck, hclen, hcmem⟩ := exists_addressChecksum crypto hmem
  refine ⟨addressText (addressPayload crypto publicKey) checksum, by simp [addressFromPublicKey,
    hcheck], ?_⟩
  generalize addressPayload crypto publicKey = payload at *
  have htake : (payload ++ (checksum ++ ['x'])).take addressPayloadChars = payload := by
    rw [List.take_append_of_le_length (by rw [hplen]; decide), List.take_of_length_le]
    rw [hplen]
    decide
  have hdrop : (payload ++ (checksum ++ ['x'])).drop addressPayloadChars = checksum ++ ['x'] := by
    rw [List.drop_append, List.drop_of_length_le (by rw [hplen]; decide), hplen]
    rfl
  have hsum : (checksum ++ ['x']).take addressChecksumChars = checksum := by
    rw [List.take_append_of_le_length (by rw [hclen]; decide), List.take_of_length_le]
    rw [hclen]
    decide
  have hlast : (payload ++ (checksum ++ ['x'])).drop 30 = ['x'] := by
    rw [← List.append_assoc, List.drop_append, List.drop_of_length_le (by simp [hplen, hclen])]
    simp [hplen, hclen]
  have hdrop2 : ('x' :: '3' :: (payload ++ (checksum ++ ['x']))).drop (2 + addressPayloadChars)
      = checksum ++ ['x'] := by
    rw [← List.drop_drop]
    exact hdrop
  simp only [isAddress, addressText, String.toList_ofList, hdrop2, hsum]
  simpa [htake, hcheck, hlast, hplen, hclen, addressLength] using ⟨hmem, hcmem⟩

theorem ascii_of_mem_base58 : Json.IsAscii Base58.alphabet := by
  decide +kernel

/-- An address is 33 digits of base 58: its frame consists of such digits, too. -/
theorem mem_base58_of_isAddress {crypto : Crypto} {address : String}
    (h : isAddress crypto address = true) :
    address.toList.length = 33 ∧ ∀ c ∈ address.toList, c ∈ Base58.alphabet := by
  simp only [isAddress, Bool.and_eq_true, List.all_eq_true, decide_eq_true_eq] at h
  obtain ⟨⟨⟨⟨hlen, hhead⟩, hlast⟩, hmem⟩, -⟩ := h
  generalize address.toList = chars at *
  refine ⟨hlen, fun c hc => ?_⟩
  have hsplit : chars = chars.take 2 ++ ((chars.drop 2).take 24 ++ ((chars.drop 26).take 6 ++
      chars.drop 32)) := by
    have h1 : chars.drop 26 = (chars.drop 26).take 6 ++ chars.drop 32 := by
      conv_lhs => rw [← List.take_append_drop 6 (chars.drop 26), List.drop_drop]
    have h2 : chars.drop 2 = (chars.drop 2).take 24 ++ chars.drop 26 := by
      conv_lhs => rw [← List.take_append_drop 24 (chars.drop 2), List.drop_drop]
    rw [← h1, ← h2, List.take_append_drop]
  have hframe : 'x' ∈ Base58.alphabet ∧ '3' ∈ Base58.alphabet := by decide +kernel
  rw [hsplit, hhead, hlast] at hc
  simp only [List.mem_append, List.mem_cons, List.not_mem_nil, or_false] at hc
  rcases hc with (rfl | rfl) | hc | hc | rfl
  · exact hframe.1
  · exact hframe.2
  · exact hmem c (List.mem_append_left _ hc)
  · exact hmem c (List.mem_append_right _ hc)
  · exact hframe.1

/-- An address is 33 ASCII characters. -/
theorem ascii_of_isAddress {crypto : Crypto} {address : String}
    (h : isAddress crypto address = true) :
    address.toList.length = 33 ∧ Json.IsAscii address.toList := by
  obtain ⟨hlen, hmem⟩ := mem_base58_of_isAddress h
  exact ⟨hlen, fun c hc => ascii_of_mem_base58 c (hmem c hc)⟩

/-- A key pair and its address: what a participant holds. -/
structure KeyPair (crypto : Crypto) where
  seed : Bytes
  length_seed : seed.length = 32
  address : String
  address_eq : addressFromPublicKey crypto (crypto.publicKeyFromSeed seed) = .ok address

namespace KeyPair

variable {crypto : Crypto} (keys : KeyPair crypto)

/-- The key pair of a seed. -/
theorem exists_of_seed (crypto : Crypto) (seed : Bytes) (h : seed.length = 32) :
    ∃ keys : KeyPair crypto, keys.seed = seed := by
  obtain ⟨address, haddress, -⟩ := exists_addressFromPublicKey crypto (crypto.publicKeyFromSeed seed)
  exact ⟨⟨seed, h, address, haddress⟩, rfl⟩

/-- The text of the private key. -/
def privateKey : String := encodePrivateKey keys.seed

/-- The text of the public key. -/
def publicKey : String := encodePublicKey (crypto.publicKeyFromSeed keys.seed)

theorem decodePublicKey_publicKey :
    decodePublicKey keys.publicKey = .ok (crypto.publicKeyFromSeed keys.seed) :=
  decodePublicKey_encodePublicKey (crypto.length_publicKeyFromSeed _)

theorem isAddress_address : isAddress crypto keys.address = true := by
  obtain ⟨address, haddress, hvalid⟩ :=
    exists_addressFromPublicKey crypto (crypto.publicKeyFromSeed keys.seed)
  have : keys.address = address := Except.ok.inj (keys.address_eq.symm.trans haddress)
  rwa [this]

theorem publicKeyMatchesAddress_address :
    publicKeyMatchesAddress crypto keys.publicKey keys.address = true := by
  have hderived : (decodePublicKey keys.publicKey >>= addressFromPublicKey crypto)
      = .ok keys.address :=
    Check.bind_eq_ok.2 ⟨_, keys.decodePublicKey_publicKey, keys.address_eq⟩
  simp [publicKeyMatchesAddress, hderived, keys.isAddress_address]

theorem verifyKeySignature_sign (message : Bytes) :
    verifyKeySignature crypto keys.publicKey (crypto.sign keys.seed message) message = .ok true := by
  simp [verifyKeySignature, keys.decodePublicKey_publicKey, crypto.length_sign,
    crypto.verify_sign _ _ keys.length_seed]

end KeyPair
