/-
  ENCRYPTED SESSION COOKIES (`plugins/util/cookie_session.rs`).

  A payload is sealed together with its expiry under a key made from the configured secret.  The
  clock and the nonce are arguments.  What is sealed is opened again until it expires
  (`openCookie_sealCookie`).
-/
import Featherbit.Lib.Wire
import Featherbit.Rust.Base64
import Featherbit.Rust.Ring

namespace Featherbit

/-- Failure opening a sealed cookie. -/
inductive CookieError where
  | malformed
  | badSeal
  | expired
deriving DecidableEq

/-- `Display`. -/
def CookieError.text : CookieError → String
  | malformed => "malformed cookie"
  | badSeal => "cookie failed authentication"
  | expired => "cookie expired"

/-- Seals and opens session cookies with a fixed derived key. -/
structure CookieSealer where
  keyBytes : AeadKey
deriving DecidableEq

/-- `a.saturating_add(b)` on `u64`. -/
def saturatingAdd (a b : UInt64) : UInt64 :=
  if a.toNat + b.toNat < 2 ^ 64 then a + b else UInt64.ofNat (2 ^ 64 - 1)

namespace CookieSealer

/-- `CookieSealer::new`. -/
def new [Sha256] (secret : String) : CookieSealer where
  keyBytes := ⟨Sha256.digest (asBytes secret), Sha256.digest_length _⟩

variable [Aes256Gcm] [Base64Url] (sealer : CookieSealer)

/-- `seal`, at a time and with a nonce. -/
def sealCookie (now : UInt64) (nonce : Nonce) (payload : Bytes) (ttl : UInt64) : String :=
  let expiry := saturatingAdd now ttl
  let plaintext := Wire.be 8 expiry.toNat ++ payload
  Base64Url.encode (nonce.val ++ Aes256Gcm.sealInPlace sealer.keyBytes nonce plaintext)

/-- What a value decrypts to: the first half of `open`. -/
def decrypt (value : String) : Except CookieError Bytes :=
  match Base64Url.decode (asBytes value) with
  | none => .error .malformed
  | some raw =>
  -- nonce, tag and expiry
  if raw.length < nonceLen + 16 + 8 then .error .malformed
  else
  match tryNonce (raw.take nonceLen) with
  | none => .error .malformed
  | some nonce =>
  match Aes256Gcm.openInPlace sealer.keyBytes nonce (raw.drop nonceLen) with
  | none => .error .badSeal
  | some plaintext => if plaintext.length < 8 then .error .badSeal else .ok plaintext

/-- `open`, at a time. -/
def openCookie (now : UInt64) (value : String) : Except CookieError Bytes := do
  let plaintext ← sealer.decrypt value
  let expiry := UInt64.ofNat (Wire.fromBe (plaintext.take 8))
  if expiry < now then .error .expired else .ok (plaintext.drop 8)

theorem decrypt_sealCookie (issued : UInt64) (nonce : Nonce) (payload : Bytes) (ttl : UInt64) :
    sealer.decrypt (sealer.sealCookie issued nonce payload ttl) =
      .ok (Wire.be 8 (saturatingAdd issued ttl).toNat ++ payload) := by
  have hplain : (Wire.be 8 (saturatingAdd issued ttl).toNat ++ payload).length =
      8 + payload.length := by
    rw [List.length_append, Wire.length_be]
  have hlong : ¬ (nonce.val ++ Aes256Gcm.sealInPlace sealer.keyBytes nonce
      (Wire.be 8 (saturatingAdd issued ttl).toNat ++ payload)).length < nonceLen + 16 + 8 := by
    rw [List.length_append, nonce.property, Aes256Gcm.sealInPlace_length, hplain]
    omega
  unfold decrypt sealCookie
  simp only [Base64Url.decode_encode]
  rw [if_neg hlong, List.take_left' nonce.property, List.drop_left' nonce.property, tryNonce_val]
  show (match Aes256Gcm.openInPlace sealer.keyBytes nonce _ with
    | none => _
    | some plaintext => _) = _
  rw [Aes256Gcm.open_seal]
  exact if_neg (by omega)

/-- What is sealed is opened until it expires. -/
theorem openCookie_sealCookie (issued now : UInt64) (nonce : Nonce) (payload : Bytes) (ttl : UInt64) :
    sealer.openCookie now (sealer.sealCookie issued nonce payload ttl) =
      if saturatingAdd issued ttl < now then .error .expired else .ok payload := by
  have hexpiry : Wire.fromBe (Wire.be 8 (saturatingAdd issued ttl).toNat) =
      (saturatingAdd issued ttl).toNat := by
    rw [Wire.fromBe_be]
    exact Nat.mod_eq_of_lt (UInt64.toNat_lt _)
  have hlen : (Wire.be 8 (saturatingAdd issued ttl).toNat).length = 8 := Wire.length_be _ _
  rw [openCookie, decrypt_sealCookie]
  show (if UInt64.ofNat (Wire.fromBe ((Wire.be 8 (saturatingAdd issued ttl).toNat ++ payload).take 8)) <
    now then _ else _) = _
  rw [List.take_left' hlen, List.drop_left' hlen, hexpiry, UInt64.ofNat_toNat]

end CookieSealer

/-! ## Cookie texts -/

/-- `SameSite` attribute of a `Set-Cookie` header. -/
inductive SameSite where
  | strict
  | lax
  | none
deriving DecidableEq

def SameSite.asStr : SameSite → String
  | strict => "Strict"
  | lax => "Lax"
  | none => "None"

/-- Attributes for building a `Set-Cookie` header value. -/
structure CookieAttrs where
  path : String := "/"
  /-- `Max-Age` in seconds; `none` omits it, `0` deletes the cookie -/
  maxAge : Option UInt64 := Option.none
  httpOnly : Bool := true
  secure : Bool := true
  sameSite : SameSite := .lax
deriving DecidableEq

/-- `build_set_cookie`. -/
def buildSetCookie (name value : String) (attrs : CookieAttrs) : String :=
  name ++ "=" ++ value ++ "; Path=" ++ attrs.path ++
    (match attrs.maxAge with
      | some maxAge => "; Max-Age=" ++ showNat maxAge.toNat
      | none => "") ++
    (if attrs.httpOnly then "; HttpOnly" else "") ++
    (if attrs.secure then "; Secure" else "") ++
    "; SameSite=" ++ attrs.sameSite.asStr

/-- `path_covers`. -/
def pathCovers (cookiePath requestPath : String) : Bool :=
  let cp := trimEndMatches '/' cookiePath
  cp = "" || requestPath = cp || startsWith requestPath (cp ++ "/")

/-- The value of a `name=value` pair of that name. -/
def cookieOf (name pair : String) : Option String :=
  match splitOnceChar '=' (trim pair) with
  | some (k, v) => if k = name then some v else none
  | none => none

/-- `read_cookie`. -/
def readCookie (cookieHeader name : String) : Option String :=
  (splitChar ';' cookieHeader).findSome? (cookieOf name)

namespace Rfc4648
theorem mem_digits_of_mem_encode {c : Char} : ∀ octets : List Nat, (∀ x ∈ octets, x < 256) →
    c ∈ encode urlSafe octets → c ∈ digits urlSafe
  | [], _, h => by cases h
  | [x], hx, h => by
    have hx := hx x (by simp)
    rcases List.mem_append.mp h with h | h
    · simp only [List.mem_cons, List.not_mem_nil, or_false] at h
      rcases h with rfl | rfl
      · exact digit_mem (by omega)
      · exact digit_mem (by omega)
    · cases h
  | [x, y], hx, h => by
    have hx' := hx x (by simp)
    have hy := hx y (by simp)
    rcases List.mem_append.mp h with h | h
    · simp only [List.mem_cons, List.not_mem_nil, or_false] at h
      rcases h with rfl | rfl | rfl <;> exact digit_mem (by omega)
    · cases h
  | x :: y :: z :: rest, hx, h => by
    have hx' := hx x (by simp)
    have hy := hx y (by simp)
    have hz := hx z (by simp)
    simp only [encode, List.mem_cons] at h
    rcases h with rfl | rfl | rfl | rfl | h
    any_goals exact digit_mem (by omega)
    exact mem_digits_of_mem_encode rest (fun w hw => hx w (by simp [hw])) h
where
  digit_mem {n : Nat} (hn : n < 64) : digit urlSafe n ∈ digits urlSafe := by
    revert n
    decide +kernel

theorem mem_digits_encodeBytes (bytes : Bytes) :
    ∀ c ∈ (encodeBytes urlSafe bytes).toList, c ∈ digits urlSafe := by
  intro c hc
  rw [encodeBytes, String.toList_ofList] at hc
  refine mem_digits_of_mem_encode (bytes.map UInt8.toNat) (fun x hx => ?_) hc
  obtain ⟨b, -, rfl⟩ := List.mem_map.mp hx
  exact b.toNat_lt

end Rfc4648

/-- The header with one cookie. -/
theorem readCookie_single {name value : String} (hname : ∀ c ∈ name.toList, c ∈ Rfc4648.digits Rfc4648.urlSafe)
    (hvalue : ∀ c ∈ value.toList, c ∈ Rfc4648.digits Rfc4648.urlSafe) :
    readCookie (name ++ "=" ++ value) name = some value := by
  have hplain : ∀ c ∈ Rfc4648.digits Rfc4648.urlSafe, c ≠ ';' ∧ c ≠ '=' ∧ isWhitespace c = false := by
    have hdigits : ∀ i : Fin (Rfc4648.digits Rfc4648.urlSafe).length,
        (fun c => c ≠ ';' ∧ c ≠ '=' ∧ isWhitespace c = false) ((Rfc4648.digits Rfc4648.urlSafe).get i) := by
      decide +kernel
    intro c hc
    obtain ⟨i, rfl⟩ := List.mem_iff_get.mp hc
    exact hdigits i
  have hlist : (name ++ "=" ++ value).toList = name.toList ++ '=' :: value.toList := by simp
  have hall : ∀ c ∈ (name ++ "=" ++ value).toList, c ≠ ';' ∧ isWhitespace c = false := by
    intro c hc
    rw [hlist] at hc
    rcases List.mem_append.mp hc with hc | hc
    · exact ⟨(hplain c (hname c hc)).1, (hplain c (hname c hc)).2.2⟩
    · rcases List.mem_cons.mp hc with rfl | hc
      · decide
      · exact ⟨(hplain c (hvalue c hc)).1, (hplain c (hvalue c hc)).2.2⟩
  have hsplit : splitChar ';' (name ++ "=" ++ value) = [name ++ "=" ++ value] := by
    unfold splitChar
    rw [List.splitOn, List.splitOnP_eq_singleton fun c hc => by simpa using (hall c hc).1]
    exact congrArg (fun s => [s]) String.ofList_toList
  have htrim : trim (name ++ "=" ++ value) = name ++ "=" ++ value :=
    trim_eq_self fun c hc => (hall c hc).2
  have honce : splitOnceChar '=' (name ++ "=" ++ value) = some (name, value) :=
    splitOnceChar_append (fun h => (hplain '=' (hname '=' h)).2.1 rfl) value
  unfold readCookie cookieOf
  rw [hsplit, List.findSome?_cons, htrim, honce]
  simp
/-- `delete_cookie`. -/
def deleteCookie (name path : String) : String :=
  buildSetCookie name "" { path := path, maxAge := some 0 }

example : readCookie "a=1; session=xyz; b=2" "session" = some "xyz" := by decide +kernel

example : pathCovers "/app_a" "/app_ab" = false := by decide +kernel

end Featherbit
