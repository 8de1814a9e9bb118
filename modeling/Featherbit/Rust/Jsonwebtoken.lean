/-
  THE `jsonwebtoken` CRATE, as far as the gateway uses it.

  Which tokens a key verifies is a parameter; of the claims of a verified token only that they are
  JSON values is known.
-/
import Featherbit.Json.Text

namespace Featherbit

/-- `jsonwebtoken::Algorithm`. -/
inductive JwtAlgorithm where
  | hs256 | hs384 | hs512
  | es256 | es384
  | rs256 | rs384 | rs512
  | ps256 | ps384 | ps512
  | edDSA
deriving DecidableEq

/-- `Validation`: what the gateway sets of it, the other fields being those of `Validation::new`. -/
structure JwtValidation where
  algorithms : List JwtAlgorithm
  validateExp : Bool
  validateAud : Bool
deriving DecidableEq

/-- `decode_header`, `decode` and the keys. -/
class JsonWebToken where
  DecodingKey : Type
  fromRsaComponents : String → String → Except String DecodingKey
  fromEcComponents : String → String → Except String DecodingKey
  /-- the `kid` of the header -/
  decodeHeader : String → Except String (Option String)
  /-- the claims of a token verified at a time -/
  decode : UInt64 → String → DecodingKey → JwtValidation → Except String (HashMap Json)
  decode_canonical : ∀ {now token key validation claims}, decode now token key validation = .ok claims →
    ∀ (k : String) (v : Json), claims[k]? = some v → v.Canonical

export JsonWebToken (DecodingKey)

/-- One token in the world, with the claims it was issued for. -/
abbrev oneToken (issued : String) (kid : Option String) (claims : HashMap Json)
    (hclaims : ∀ (k : String) (v : Json), claims[k]? = some v → v.Canonical) : JsonWebToken where
  DecodingKey := String × String
  fromRsaComponents n e := .ok (n, e)
  fromEcComponents x y := .ok (x, y)
  decodeHeader token := if token = issued then .ok kid else .error "InvalidToken"
  decode _ token _ _ := if token = issued then .ok claims else .error "InvalidSignature"
  decode_canonical := by
    intro now token key validation found h
    split at h
    · rw [← Except.ok.inj h]
      exact hclaims
    · cases h

end Featherbit
