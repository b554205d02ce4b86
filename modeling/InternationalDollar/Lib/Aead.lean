import InternationalDollar.Lib.Text

set_option autoImplicit false

/-! # Authenticated encryption

A cipher with associated data: what is encrypted is decrypted back under the same key, nonce and data, and
a ciphertext is longer than its plaintext by a tag. What else may be decrypted is a matter of the keys and
the ciphertexts at hand: no function on bytes rejects all that was not encrypted under its key. -/

/-- AES-GCM or ChaCha20-Poly1305; `none` where `decrypt` raises `InvalidTag`. -/
structure Aead where
  encrypt : (key nonce plaintext associated : Bytes) → Bytes
  decrypt : (key nonce ciphertext associated : Bytes) → Option Bytes
  decrypt_encrypt : ∀ key nonce plaintext associated,
    decrypt key nonce (encrypt key nonce plaintext associated) associated = some plaintext
  length_encrypt : ∀ key nonce plaintext associated,
    (encrypt key nonce plaintext associated).length = plaintext.length + 16

namespace Aead

variable (cipher : Aead) {key nonce plaintext plaintext' ciphertext associated : Bytes}

/-- What is decrypted from a ciphertext of a text is that text. -/
theorem eq_of_decrypt_encrypt
    (h : cipher.decrypt key nonce (cipher.encrypt key nonce plaintext associated) associated
      = some plaintext') : plaintext = plaintext' := by
  rw [cipher.decrypt_encrypt] at h
  exact Option.some.inj h

/-! ## A cipher to run -/

/-- The first bytes of a key and the last bytes of a nonce. -/
def plainTag (key nonce : Bytes) : Bytes :=
  (key ++ List.replicate 8 0).take 8 ++ (nonce.reverse ++ List.replicate 8 0).take 8

theorem length_plainTag (key nonce : Bytes) : (plainTag key nonce).length = 16 := by
  simp only [plainTag, List.length_append, List.length_take, List.length_reverse, List.length_replicate]
  omega

theorem plainTag_ne_of_head {a b : UInt8} (h : a ≠ b) (key key' nonce nonce' : Bytes) :
    plainTag (a :: key) nonce ≠ plainTag (b :: key') nonce' :=
  fun heq => h (List.cons.inj heq).1

/-- The text in front of the tag, if it is the tag of the nonce and the key. -/
def plainDecrypt (key nonce ciphertext : Bytes) : Option Bytes :=
  if ciphertext.drop (ciphertext.length - 16) = plainTag key nonce then
    some (ciphertext.take (ciphertext.length - 16))
  else none

theorem plainDecrypt_append (plaintext : Bytes) {tag : Bytes} (h : tag.length = 16) :
    plainDecrypt key nonce (plaintext ++ tag) = if tag = plainTag key nonce then some plaintext else none := by
  have hlength : (plaintext ++ tag).length - 16 = plaintext.length := by
    rw [List.length_append, h, Nat.add_sub_cancel]
  rw [plainDecrypt, hlength, List.drop_left, List.take_left]

/-- Texts with a tag, not encrypted. -/
def plain : Aead where
  encrypt key nonce plaintext _ := plaintext ++ plainTag key nonce
  decrypt key nonce ciphertext _ := plainDecrypt key nonce ciphertext
  decrypt_encrypt key nonce plaintext _ := by
    rw [plainDecrypt_append _ (length_plainTag key nonce), if_pos rfl]
  length_encrypt key nonce plaintext _ := by
    rw [List.length_append, length_plainTag]

/-- Under another tag nothing is decrypted. -/
theorem plain_decrypt_of_ne {key' nonce' associated' : Bytes}
    (h : plainTag key nonce ≠ plainTag key' nonce') :
    plain.decrypt key' nonce' (plain.encrypt key nonce plaintext associated) associated' = none :=
  (plainDecrypt_append plaintext (length_plainTag key nonce)).trans (if_neg h)

end Aead
