import Gusto.Lib.Base64
import Gusto.Lib.Utf16
import Gusto.Lib.Utf8

/-!
# The token vault

`TokenVaultService`: how the Swiggy token of a user is encrypted before it is stored, and decrypted again.

Strings are lists of UTF-16 code units, so that they need not be well-formed.  The cipher is a parameter;
`Aes256Gcm` says what is relied on.
-/

set_option autoImplicit false

namespace Gusto.Auth

def IV_LENGTH_BYTES : ℕ := 12

/-- AES-256-GCM of `node:crypto`; the tag comes after the ciphertext. -/
structure Crypto where
  createCipheriv : (key iv plaintext : List UInt8) → Except String (List UInt8 × List UInt8)
  createDecipheriv : (key iv authTag ciphertext : List UInt8) → Except String (List UInt8)

/-- **The assumptions** on the cipher. -/
structure Aes256Gcm (crypto : Crypto) : Prop where
  accepts {key iv : List UInt8} (plaintext : List UInt8) :
    key.length = 32 → iv.length = IV_LENGTH_BYTES →
      ∃ ciphertext authTag, crypto.createCipheriv key iv plaintext = .ok (ciphertext, authTag)
  inverts {key iv plaintext ciphertext authTag : List UInt8} :
    crypto.createCipheriv key iv plaintext = .ok (ciphertext, authTag) →
      crypto.createDecipheriv key iv authTag ciphertext = .ok plaintext

/-- What of the environment the vault reads, with the check of its schema. -/
structure VaultEnv where
  MCP_TOKEN_ENCRYPTION_KEY : List UInt16
  refine : (Base64.decode MCP_TOKEN_ENCRYPTION_KEY).length = 32

namespace TokenVaultService

def dot : UInt16 := 0x2E

def malformed : String := "Malformed encrypted token: expected 'iv.authTag.ciphertext'"

section

variable (crypto : Crypto) (env : VaultEnv)

def key : List UInt8 := Base64.decode env.MCP_TOKEN_ENCRYPTION_KEY

-- `iv` is what `randomBytes` draws
def encrypt (iv : List UInt8) (rawToken : List UInt16) : Except String (List UInt16) := do
  let (ciphertext, authTag) ←
    crypto.createCipheriv (key env) iv (Utf8.encode (Utf16.decodeLossy rawToken))
  return [dot].intercalate [Base64.encode iv, Base64.encode authTag, Base64.encode ciphertext]

def decrypt (encryptedToken : List UInt16) : Except String (List UInt16) :=
  match encryptedToken.splitOn dot with
  | [ivB64, authTagB64, ciphertextB64] => do
    let plaintext ←
      crypto.createDecipheriv (key env) (Base64.decode ivB64) (Base64.decode authTagB64)
        (Base64.decode ciphertextB64)
    return Utf16.encode (Utf8.decodeLossy plaintext)
  | _ => .error malformed

end

/-! ### The format -/

section

variable {crypto : Crypto} {env : VaultEnv} {iv : List UInt8} {x s : List UInt16}

/-- No part of an encrypted token contains the separator. -/
theorem splitOn_parts (parts : List (List UInt8)) (h : parts ≠ []) :
    ([dot].intercalate (parts.map Base64.encode)).splitOn dot = parts.map Base64.encode := by
  refine List.splitOn_intercalate dot ?_ (List.map_eq_nil_iff.not.mpr h)
  intro part hpart
  obtain ⟨bs, -, rfl⟩ := List.mem_map.mp hpart
  exact Base64.not_mem_encode (by decide +kernel) (by decide)

/-- What the parts of an encrypted token are decrypted to. -/
theorem decrypt_parts (authTag ciphertext : List UInt8) :
    decrypt crypto env
        ([dot].intercalate [Base64.encode iv, Base64.encode authTag, Base64.encode ciphertext]) =
      (crypto.createDecipheriv (key env) iv authTag ciphertext).map
        fun plaintext => Utf16.encode (Utf8.decodeLossy plaintext) := by
  have hsplit : ([dot].intercalate
        [Base64.encode iv, Base64.encode authTag, Base64.encode ciphertext]).splitOn dot =
      [Base64.encode iv, Base64.encode authTag, Base64.encode ciphertext] :=
    splitOn_parts [iv, authTag, ciphertext] (List.cons_ne_nil _ _)
  rw [decrypt, hsplit]
  simp only [Base64.decode_encode]
  cases crypto.createDecipheriv (key env) iv authTag ciphertext with
  | error e => rfl
  | ok plaintext => rfl

/-- A string that is not made of three parts is refused. -/
theorem decrypt_malformed (h : (s.splitOn dot).length ≠ 3) :
    decrypt crypto env s = .error malformed := by
  rw [decrypt]
  split
  · rename_i ivB64 authTagB64 ciphertextB64 hparts
    exact absurd (congrArg List.length hparts) h
  · rfl

/-- Any string at all comes back, with U+FFFD for the surrogates that stand alone. -/
theorem decrypt_encrypt (hgcm : Aes256Gcm crypto) (hiv : iv.length = IV_LENGTH_BYTES) :
    (encrypt crypto env iv x >>= decrypt crypto env) =
      .ok (Utf16.encode (Utf16.decodeLossy x)) := by
  obtain ⟨ciphertext, authTag, hcipher⟩ :=
    hgcm.accepts (Utf8.encode (Utf16.decodeLossy x)) env.refine hiv
  have hdecipher := hgcm.inverts hcipher
  have hencrypt : encrypt crypto env iv x = .ok ([dot].intercalate
      [Base64.encode iv, Base64.encode authTag, Base64.encode ciphertext]) := by
    rw [encrypt, key, hcipher]
    rfl
  rw [hencrypt]
  show decrypt crypto env _ = _
  rw [decrypt_parts, key, hdecipher]
  show Except.ok (Utf16.encode (Utf8.decodeLossy (Utf8.encode _))) = _
  rw [Utf8.decodeLossy_encode]

end

/-! ### A vault of zeros -/

/-- The tag of AES-256-GCM, where the key and the initialisation vector are zeros and the plaintext is
empty. -/
def zeroTag : List UInt8 :=
  [0x53, 0x0F, 0x8A, 0xFB, 0xC7, 0x45, 0x36, 0xB9, 0xA9, 0x63, 0xB4, 0xF1, 0xC4, 0xCB, 0x73, 0x8B]

/-- A cipher that does nothing to the plaintext and always has this tag. -/
def zeroCrypto : Crypto where
  createCipheriv key iv plaintext :=
    if key.length = 32 ∧ iv.length = IV_LENGTH_BYTES then .ok (plaintext, zeroTag) else .error "Invalid"
  createDecipheriv key iv authTag ciphertext :=
    if key.length = 32 ∧ iv.length = IV_LENGTH_BYTES ∧ authTag = zeroTag then .ok ciphertext
    else .error "Unsupported state or unable to authenticate data"

theorem zeroCrypto_gcm : Aes256Gcm zeroCrypto where
  accepts plaintext hkey hiv := ⟨plaintext, zeroTag, if_pos ⟨hkey, hiv⟩⟩
  inverts {key iv plaintext ciphertext authTag} h := by
    rw [zeroCrypto] at h
    dsimp only at h
    split at h
    · rename_i hlen
      cases h
      exact if_pos ⟨hlen.1, hlen.2, rfl⟩
    · cases h

theorem zeroKey_length : (Base64.decode (Base64.encode (List.replicate 32 0))).length = 32 := by
  rw [Base64.decode_encode, List.length_replicate]

def zeroEnv : VaultEnv := ⟨Base64.encode (List.replicate 32 0), zeroKey_length⟩

/-! ### The round trip -/

/-- **The vault returns what it was given**, and accepts nothing that is not made of three parts. -/
theorem round_trips (crypto : Crypto) (env : VaultEnv) (hgcm : Aes256Gcm crypto) :
    (∀ (x : List Char) (iv : List UInt8), iv.length = IV_LENGTH_BYTES →
      (encrypt crypto env iv (Utf16.encode x) >>= decrypt crypto env) = .ok (Utf16.encode x)) ∧
    ∀ s : List UInt16, (s.splitOn dot).length ≠ 3 →
      decrypt crypto env s =
        .error "Malformed encrypted token: expected 'iv.authTag.ciphertext'" := by
  refine ⟨fun x iv hiv => ?_, fun s hs => decrypt_malformed hs⟩
  rw [decrypt_encrypt hgcm hiv, Utf16.decodeLossy_encode]

theorem round_trips_zero :
    (encrypt zeroCrypto zeroEnv (List.replicate 12 0) [] >>= decrypt zeroCrypto zeroEnv) = .ok [] ∧
      encrypt zeroCrypto zeroEnv (List.replicate 12 0) [] =
        .ok (Base64.units "AAAAAAAAAAAAAAAA.Uw+K+8dFNrmpY7TxxMtziw==.") ∧
      decrypt zeroCrypto zeroEnv (Base64.units "Uw+K+8dFNrmpY7TxxMtziw==.") =
        .error "Malformed encrypted token: expected 'iv.authTag.ciphertext'" :=
  have h := round_trips zeroCrypto zeroEnv zeroCrypto_gcm
  ⟨h.1 [] (List.replicate 12 0) rfl, by decide +kernel, h.2 _ (by decide +kernel)⟩

end TokenVaultService

end Gusto.Auth
