/-
  THE `ring` CRATE, as far as the gateway uses it.  What it computes is a parameter; the results
  that need more than that say what they assume of it.
-/
import Featherbit.Rust.Std

namespace Featherbit

/-- `hmac::Algorithm`. -/
inductive HmacAlgorithm where
  | sha1
  | sha256
  | sha512
deriving DecidableEq

/-- `ring::hmac`: the tag of a message under a key. -/
class Hmac where
  sign : HmacAlgorithm → Bytes → Bytes → Bytes

/-- `hmac::verify`. -/
def Hmac.verify [Hmac] (algorithm : HmacAlgorithm) (key message tag : Bytes) : Bool :=
  Hmac.sign algorithm key message = tag

/-- A tag that is the message itself. -/
abbrev echoTag : Hmac where
  sign _ _ message := message

/-- `digest(&SHA256, bytes)`. -/
class Sha256 where
  digest : Bytes → Bytes
  digest_length : ∀ bytes, (digest bytes).length = 32

/-- `aead::NONCE_LEN`. -/
def nonceLen : Nat := 12

/-- `aead::Nonce`. -/
abbrev Nonce := {bytes : Bytes // bytes.length = nonceLen}

/-- `Nonce::try_assume_unique_for_key`. -/
def tryNonce (bytes : Bytes) : Option Nonce :=
  if h : bytes.length = nonceLen then some ⟨bytes, h⟩ else none

theorem tryNonce_val (nonce : Nonce) : tryNonce nonce.val = some nonce := dif_pos nonce.property

/-- A key for `AES_256_GCM`. -/
abbrev AeadKey := {bytes : Bytes // bytes.length = 32}

/-- `aead::AES_256_GCM` with no associated data. -/
class Aes256Gcm where
  /-- `seal_in_place_append_tag` -/
  sealInPlace : AeadKey → Nonce → Bytes → Bytes
  /-- `open_in_place` -/
  openInPlace : AeadKey → Nonce → Bytes → Option Bytes
  sealInPlace_length : ∀ key nonce plaintext,
    (sealInPlace key nonce plaintext).length = plaintext.length + 16
  open_seal : ∀ key nonce plaintext,
    openInPlace key nonce (sealInPlace key nonce plaintext) = some plaintext

/-- A digest that is the message, cut or filled up with zeros. -/
abbrev cutDigest : Sha256 where
  digest bytes := (bytes ++ List.replicate 32 0).take 32
  digest_length bytes := by
    rw [List.length_take, List.length_append, List.length_replicate]
    omega

/-- A cipher that adds the first half of the key as the tag. -/
abbrev keyTagged : Aes256Gcm where
  sealInPlace key _ plaintext := plaintext ++ key.val.take 16
  openInPlace key _ message :=
    if message.drop (message.length - 16) = key.val.take 16 then
      some (message.take (message.length - 16))
    else none
  sealInPlace_length key nonce plaintext := by
    rw [List.length_append, List.length_take, key.property]
    rfl
  open_seal key nonce plaintext := by
    have htag : (key.val.take 16).length = 16 := by
      rw [List.length_take, key.property]
      rfl
    rw [List.length_append, htag, Nat.add_sub_cancel, List.drop_left, if_pos rfl, List.take_left]

end Featherbit
