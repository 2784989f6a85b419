import Mathlib.Data.List.Basic

namespace AuthWebauthn

abbrev Bytes := List UInt8

/-- The bytes of a literal of the source. -/
def ascii (text : String) : Bytes := text.toByteArray.data.toList

/-- The `ngx_int_t` results that the library functions return. -/
inductive Rc where
  | ok
  | error
  | declined
deriving DecidableEq

end AuthWebauthn
