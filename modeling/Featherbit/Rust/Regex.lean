/-
  REGULAR EXPRESSIONS (the `regex` crate), with what the nodes use of it left open.
-/
import Featherbit.Rust.Std

namespace Featherbit

/-- The `regex` crate. -/
class RegexEngine where
  Regex : Type
  /-- a pattern that does not compile says why -/
  new : String → Except String Regex
  isMatch : Regex → String → Bool
  /-- the first match, rewritten by the template -/
  replace : Regex → String → String → String

end Featherbit
