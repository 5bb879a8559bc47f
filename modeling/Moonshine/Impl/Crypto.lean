import Moonshine.Framework.Bytes
import Moonshine.Impl.Stream.Context

/-!
# AES-128, `crypto.rs`

The ciphers of the `aes_gcm` and `cbc` crates are parameters (`Aes128Gcm`,
`Aes128Cbc`); `encrypt`, `decrypt` and `encryptCbc` are the functions `crypto.rs`
makes of them.
-/

namespace Moonshine.Impl

open Moonshine.Framework

/-- The cipher: it works in place, with a detached 16-byte tag, and decryption
inverts encryption. -/
structure Aes128Gcm where
  /-- `encrypt_in_place_detached` with a key and nonce: the buffer afterwards
  and the tag. -/
  encryptInPlaceDetached : (key nonce buffer : List Byte) → Option (List Byte × List Byte)
  /-- `decrypt_in_place_detached` with a key, nonce and tag: the buffer
  afterwards. -/
  decryptInPlaceDetached : (key nonce buffer tag : List Byte) → Option (List Byte)
  encrypt_length : ∀ key nonce buffer out, encryptInPlaceDetached key nonce buffer = some out →
    out.1.length = buffer.length ∧ out.2.length = 16
  decrypt_encrypt : ∀ key nonce buffer out, encryptInPlaceDetached key nonce buffer = some out →
    decryptInPlaceDetached key nonce out.1 out.2 = some buffer

/-- CBC with PKCS#7 padding: `encrypt_padded` with a key and IV, into a buffer
with room for the padding. -/
structure Aes128Cbc where
  encryptPadded : (key iv data : List Byte) → List Byte
  encryptPadded_length : ∀ key iv data,
    (encryptPadded key iv data).length = (data.length / 16 + 1) * 16

namespace Crypto

/-- `Key::from_slice`: it panics on any other length. -/
def keyFromSlice (key : List Byte) : Outcome (List Byte) :=
  if key.length = 16 then .ok key else .panic

/-- `crypto::encrypt`: the ciphertext and the tag. -/
def encrypt (g : Aes128Gcm) (plaintext key iv : List Byte) : Outcome (List Byte × List Byte) := do
  let key ← keyFromSlice key
  Outcome.ofOption (g.encryptInPlaceDetached key iv plaintext)

/-- `crypto::decrypt`. -/
def decrypt (g : Aes128Gcm) (ciphertext key iv tag : List Byte) : Outcome (List Byte) := do
  let key ← keyFromSlice key
  Outcome.ofOption (g.decryptInPlaceDetached key iv ciphertext tag)

/-- `crypto::encrypt_cbc`: a key or IV of another length is an error. -/
def encryptCbc (c : Aes128Cbc) (data key iv : List Byte) : Outcome (List Byte) :=
  if key.length ≠ 16 then .err
  else if iv.length ≠ 16 then .err
  else .ok (c.encryptPadded key iv data)

end Crypto

end Moonshine.Impl
