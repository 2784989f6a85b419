import AuthWebauthn.Ngx
import AuthWebauthn.Data.Cbor

namespace AuthWebauthn

/-! nxe-json, nxe-jwx, OpenSSL, and the URI and base64url decoders of the nginx
core.  None of them is part of the repository: they are parameters, and a result that relies
on how one behaves says so in a hypothesis.
-/

/-- The key types that the assertion check tells apart. -/
inductive PkeyType where
  | ec
  | rsa
  | ed25519
  | other
deriving DecidableEq

structure Externals where
  Json : Type
  jsonParseUntrusted : Bytes → Option Json
  jsonIsObject : Json → Bool
  jsonObjectGet : Json → Bytes → Option Json
  jsonString : Json → Option Bytes
  jsonBoolean : Json → Option Bool
  /-- One call that looks a member up and reads it as a string. -/
  jsonObjectGetString : Json → Bytes → Option Bytes
  /-- `EVP_Digest` with SHA-256; the digest's length is the one it reports. -/
  evpDigestSha256 : Bytes → Option Bytes
  Pkey : Type
  d2iPubkey : Bytes → Option Pkey
  pkeyBaseId : Pkey → PkeyType
  /-- The first argument says whether the data is hashed with SHA-256 first. -/
  digestVerifyInit : Bool → Pkey → Bool
  /-- `EVP_DigestVerify` on signature and data: 1 is a valid signature, 0 an
  invalid one, anything else an error. -/
  digestVerify : Bool → Pkey → Bytes → Bytes → Int
  decodeBase64url : Bytes → Option Bytes
  unescapeUri : Bytes → Bytes
  /-- Algorithm, claims and key to a compact token. -/
  jwxEncode : Bytes → Bytes → Bytes → Option Bytes
  Token : Type
  jwxDecode : Bytes → Option Token
  Jwks : Type
  jwksParse : Bytes → Option Jwks
  jwksParseKeyval : Bytes → Option Jwks
  jwsVerify : Token → Jwks → Bool
  tokenPayload : Token → Option Json
  claimsGetString : Json → Bytes → Option Bytes
  claimsGetInteger : Json → Bytes → Option Int64

/-- What the admin command links in addition: libcbor and the OpenSSL calls that
build a public key. -/
structure AdminExternals extends Externals where
  /-- The item at the start of the input, and how many bytes it takes. -/
  cborLoad : Bytes → Option (Cbor.Item × Nat)
  /-- A prime256v1 key from an uncompressed point. -/
  ecPkey : Bytes → Option Pkey
  ed25519Pkey : Bytes → Option Pkey
  /-- From the big-endian modulus and exponent. -/
  rsaPkey : Bytes → Bytes → Option Pkey
  i2dPubkey : Pkey → Option Bytes

end AuthWebauthn
