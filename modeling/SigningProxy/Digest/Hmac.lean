import SigningProxy.Digest.Sha256

/-!
# Keyed digests

The digest of a message under a key: the key, filled up to a block, goes before the message and,
differently masked, before the digest of that.
-/

namespace SigningProxy.Hmac

/-- The key filled up to one block of 64 bytes; a longer one is replaced by its digest first. -/
def blockKey (key : List UInt8) : List UInt8 :=
  let short := if 64 < key.length then Sha256.digest key else key
  short ++ List.replicate (64 - short.length) 0

/-- The authentication code of a message: 32 bytes. -/
def mac (key message : List UInt8) : List UInt8 :=
  let inner := Sha256.digest ((blockKey key).map (· ^^^ 0x36) ++ message)
  Sha256.digest ((blockKey key).map (· ^^^ 0x5c) ++ inner)

@[simp] theorem length_mac (key message : List UInt8) : (mac key message).length = 32 :=
  Sha256.length_digest _

end SigningProxy.Hmac
