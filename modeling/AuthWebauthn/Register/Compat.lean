import AuthWebauthn.Ngx
import Mathlib.Data.Option.Basic

namespace AuthWebauthn

/-! `ngx_compat.c`, which the command links in place of the nginx core.  The bits that
are not yet written stand at the low end of a C `int`, which wraps around.
-/

/-- `none` is the source's -1. -/
def compatB64urlChar (char : UInt8) : Option Int32 :=
  if 65 ≤ char ∧ char ≤ 90 then some (char.toUInt32.toInt32 - 65)
  else if 97 ≤ char ∧ char ≤ 122 then some (char.toUInt32.toInt32 - 97 + 26)
  else if 48 ≤ char ∧ char ≤ 57 then some (char.toUInt32.toInt32 - 48 + 52)
  else if char = 45 then some 62
  else if char = 95 then some 63
  else none

def compatDecodeLoop (buf bits : Int32) : Bytes → Option Bytes
  | [] => some []
  | char :: rest =>
      -- padding is skipped wherever it stands
      if char = 61 then compatDecodeLoop buf bits rest
      else
        match compatB64urlChar char with
        | none => none
        | some value =>
            let next := (buf <<< 6) ||| value
            if bits + 6 ≥ 8 then
              (compatDecodeLoop next (bits + 6 - 8) rest).map
                (((next >>> (bits + 6 - 8)) &&& 0xff).toUInt32.toUInt8 :: ·)
            else compatDecodeLoop next (bits + 6) rest

def compatDecodeBase64url (src : Bytes) : Option Bytes := compatDecodeLoop 0 0 src

end AuthWebauthn
