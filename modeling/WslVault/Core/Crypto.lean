import WslVault.Base.Base64
import WslVault.Base.Except
import WslVault.Core.Error

/-!
# Envelope encryption

The cipher of `crates/wslvault-core/src/crypto`: AES-256-GCM over a fresh nonce, which
stands in front of the ciphertext, in base64. Of AES-GCM, a parameter, only correctness is
assumed.
-/

namespace WslVault.Core

open Base

abbrev Bytes := List UInt8

/-- `[u8; n]`. -/
abbrev Block (n : Nat) := { bytes : Bytes // bytes.length = n }

namespace Block

def ofSlice (n : Nat) (bytes : Bytes) : Option (Block n) :=
  if h : bytes.length = n then some ⟨bytes, h⟩ else none

@[simp] theorem ofSlice_val {n : Nat} (b : Block n) : ofSlice n b.val = some b := by
  rw [ofSlice, dif_pos b.property]

def repeated (n : Nat) (b : UInt8) : Block n := ⟨List.replicate n b, List.length_replicate⟩

end Block

abbrev Key := Block 32

abbrev Nonce := Block 12

def asBytes (s : String) : Bytes := s.toList.flatMap String.utf8EncodeChar

theorem asBytes_injective : Function.Injective asBytes := by
  intro s t h
  have hbytes : s.toList.utf8Encode = t.toList.utf8Encode := congrArg List.toByteArray h
  rw [← String.toByteArray_ofList, ← String.toByteArray_ofList, String.toByteArray_inj] at hbytes
  exact String.toList_inj.mp (String.ofList_injective hbytes)

structure Aes256Gcm where
  encrypt : Key → Nonce → (msg aad : Bytes) → Option Bytes
  decrypt : Key → Nonce → (ciphertext aad : Bytes) → Option Bytes
  decrypt_encrypt : ∀ {key nonce msg aad ciphertext},
    encrypt key nonce msg aad = some ciphertext → decrypt key nonce ciphertext aad = some msg

section Envelope

variable (aes : Aes256Gcm)

/-- `encrypt_with_dek`, given what the nonce generator returned. -/
def encryptWithDek (nonce : Option Nonce) (dek : Key) (plaintext aad : Bytes) :
    Except VaultError String :=
  match nonce with
  | none => .error (.encryptionFailed "CSPRNG nonce generation failed")
  | some nonce =>
    match aes.encrypt dek nonce plaintext aad with
    | none => .error (.encryptionFailed "AES-256-GCM encryption failed")
    | some ciphertext => .ok (Base64.encode (nonce.val ++ ciphertext))

def decryptWithDek (dek : Key) (ciphertextB64 : String) (aad : Bytes) : Except VaultError Bytes :=
  match Base64.decode ciphertextB64 with
  | none => .error .decryptionFailed
  | some combined =>
    match Block.ofSlice 12 (combined.take 12) with
    -- fewer than twelve bytes
    | none => .error .decryptionFailed
    | some nonce =>
      match aes.decrypt dek nonce (combined.drop 12) aad with
      | none => .error .decryptionFailed
      | some plaintext => .ok plaintext

theorem decryptWithDek_encode (dek : Key) (nonce : Nonce) (ciphertext aad : Bytes) :
    decryptWithDek aes dek (Base64.encode (nonce.val ++ ciphertext)) aad =
      okOr (aes.decrypt dek nonce ciphertext aad) .decryptionFailed := by
  have htake : (nonce.val ++ ciphertext).take 12 = nonce.val := List.take_left' nonce.property
  have hdrop : (nonce.val ++ ciphertext).drop 12 = ciphertext := List.drop_left' nonce.property
  simp only [decryptWithDek, Base64.decode_encode, htake, hdrop, Block.ofSlice_val]
  cases aes.decrypt dek nonce ciphertext aad with
  | none => rfl
  | some plaintext => rfl

variable {aes} {nonce : Option Nonce} {dek : Key} {plaintext aad : Bytes} {text : String}
  (h : encryptWithDek aes nonce dek plaintext aad = .ok text)
include h

theorem encryptWithDek_eq_ok :
    ∃ n ciphertext, aes.encrypt dek n plaintext aad = some ciphertext ∧
      text = Base64.encode (n.val ++ ciphertext) := by
  unfold encryptWithDek at h
  split at h
  · cases h
  · next n =>
    split at h
    · cases h
    · next ciphertext henc =>
      cases h
      exact ⟨n, ciphertext, henc, rfl⟩

theorem decryptWithDek_encryptWithDek : decryptWithDek aes dek text aad = .ok plaintext := by
  obtain ⟨n, ciphertext, henc, rfl⟩ := encryptWithDek_eq_ok h
  rw [decryptWithDek_encode, aes.decrypt_encrypt henc]
  rfl

end Envelope

/-! ## A transparent cipher

It leaves the message as it is and puts a tag in front, so a key or associated
data with another tag is found out on decryption. Runs are evaluated with it.
-/

/-- The first byte of the key and the length of the associated data. -/
def transparentTag (key : Key) (aad : Bytes) : Bytes := [key.val.headD 0, .ofNat aad.length]

def Aes256Gcm.transparent : Aes256Gcm where
  encrypt key _ msg aad := some (transparentTag key aad ++ msg)
  decrypt key _ ciphertext aad :=
    if transparentTag key aad <+: ciphertext then
      some (ciphertext.drop (transparentTag key aad).length)
    else none
  decrypt_encrypt := by
    rintro key nonce msg aad ciphertext ⟨⟩
    rw [if_pos (List.prefix_append _ _), List.drop_left]

end WslVault.Core
