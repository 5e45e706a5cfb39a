-- SUMMARY: The AES-GCM encryptor of TOTP secrets: its key map, the framing of a ciphertext, and every way of refusing one.
import Sulis.Model.Base64
import Sulis.Totp.Types

/-!
# Encryption of secrets

`totp/encrypt.go`. A Go string is a sequence of bytes, so the methods are on byte
strings. AES-GCM is a parameter, and a key stands for the AEAD made from it. Where the
source would panic, by slicing past the end or by a nonce of the wrong size, the
model has no result.
-/

namespace Sulis.Totp

/-- AES-256-GCM with no additional data. -/
class AES where
  /-- `AEAD.Seal(nil, nonce, plaintext, nil)` -/
  sealWith : (key nonce plaintext : Bytes) → Bytes
  /-- `AEAD.Open(nil, nonce, sealed, nil)`, without a result if it fails. -/
  openWith : (key nonce sealed : Bytes) → Option Bytes

/-- `aesKeySize` -/
def aesKeySize : Nat := 32

/-- `aesKeyIDSize` -/
def aesKeyIDSize : Nat := 8

/-- `AEAD.NonceSize` -/
def nonceSize : Nat := 12

/-- `AESEncryptor`, whose map is listed with the last entry first. -/
structure AESEncryptor where
  current : Bytes
  currentID : Bytes
  keys : List (Bytes × Bytes)
  deriving DecidableEq, Repr

/-- `errCiphertextTruncated` -/
def errCiphertextTruncated : Err := .other "totp: ciphertext truncated"

/-- `errUnknownKeyID` -/
def errUnknownKeyID : Err := .other "totp: unknown encryption key id"

/-- `raw[:n]` and `raw[n:]`, which panic past the end. -/
def slice (raw : Bytes) (n : Nat) : Option (Bytes × Bytes) :=
  if n ≤ raw.length then some (raw.take n, raw.drop n) else none

/-- The label of a fingerprint. -/
def keyIDLabel : Bytes := "sulis/totp/aes-key-id".toList.map (fun c => UInt8.ofNat c.toNat)

/-- A byte string as the characters of its bytes. -/
def bytesToChars (bs : Bytes) : List Char := bs.map (fun b => Char.ofNat b.toNat)

/-- The bytes of ASCII characters. -/
def charsToBytes (cs : List Char) : Bytes := cs.map (fun c => UInt8.ofNat c.toNat)

section

variable [Platform]

/-- `keyFingerprint` -/
def keyFingerprint (key : Bytes) : Bytes := (Platform.hmacSHA256 key keyIDLabel).take aesKeyIDSize

/-- The loop of `NewAESEncryptor` over the keys after the first. -/
def addKeys : List Bytes → AESEncryptor → Except Err AESEncryptor
  | [], e => .ok e
  | k :: rest, e =>
    if k.length ≠ aesKeySize then
      .error (.other ("totp: encryption key must be " ++ toString aesKeySize ++ " bytes, got " ++
        toString k.length))
    else addKeys rest { e with keys := (keyFingerprint k, k) :: e.keys }

/-- `NewAESEncryptor` -/
def newAESEncryptor (key : Bytes) (rotated : List Bytes) : Except Err AESEncryptor :=
  addKeys (key :: rotated) ⟨key, keyFingerprint key, []⟩

end

namespace AESEncryptor

variable [AES] (e : AESEncryptor)

/-- `Encrypt`, with the nonce it draws. -/
def encrypt (nonce plaintext : Bytes) : Bytes :=
  charsToBytes (base64StdEncode (e.currentID ++ (nonce ++ AES.sealWith e.current nonce plaintext)))

/-- `AEAD.Open` panics if the nonce does not have the size it was made for. -/
def openChecked (key nonce sealed : Bytes) : Option (Except Err Bytes) :=
  if nonce.length ≠ nonceSize then none
  else
    match AES.openWith key nonce sealed with
    | some plaintext => some (.ok plaintext)
    | none =>
      some (.error (.wrap "totp: decrypting secret" (.other "cipher: message authentication failed")))

/-- `Decrypt` -/
def decrypt (ciphertext : Bytes) : Option (Except Err Bytes) :=
  match base64StdDecode (bytesToChars ciphertext) with
  | none => some (.error (.wrap "totp: decoding ciphertext" (.other "illegal base64 data")))
  | some raw =>
    if raw.length < aesKeyIDSize then some (.error errCiphertextTruncated)
    else do
      let (id, rest) ← slice raw aesKeyIDSize
      match e.keys.lookup id with
      | none => some (.error errUnknownKeyID)
      | some key =>
        if rest.length < nonceSize then some (.error errCiphertextTruncated)
        else do
          let (nonce, sealed) ← slice rest nonceSize
          openChecked key nonce sealed

end AESEncryptor

end Sulis.Totp
