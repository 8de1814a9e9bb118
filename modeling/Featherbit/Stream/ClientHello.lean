/-
  CLIENTHELLO MESSAGES, AND WHAT IS READ OUT OF THEM.

  `ClientHello.encode` is the wire form of a ClientHello that fits one TLS record: five levels of
  length prefixes around lists of any length.  `extractSni` decodes every one of them
  (`extractSni_encode`): whatever the session id, the suites, the compression methods and the other
  extensions are, each is skipped by exactly its encoded size, and the answer is that of the first
  host_name entry of the server_name extension.
-/
import Featherbit.Stream.Sni

namespace Featherbit

open Wire (At be)

/-- A vector with a length prefix of `k` bytes. -/
def vec (k : Nat) (data : Bytes) : Bytes := be k data.length ++ data

@[simp] theorem length_vec (k : Nat) (data : Bytes) : (vec k data).length = k + data.length := by
  simp [vec]

/-- One entry of a server_name list. -/
structure ServerName where
  nameType : UInt8
  name : Bytes
deriving DecidableEq

namespace ServerName

def isHostName (entry : ServerName) : Bool := entry.nameType = 0x00

def encode (entry : ServerName) : Bytes := entry.nameType :: vec 2 entry.name

end ServerName

/-- An extension of a ClientHello: server_name, or any other. -/
inductive Extension where
  | serverName (names : List ServerName)
  | other (extType : UInt16) (data : Bytes) (notServerName : extType ≠ 0x0000)

namespace Extension

def extType : Extension → UInt16
  | serverName _ => 0x0000
  | other extType _ _ => extType

def data : Extension → Bytes
  | serverName names => vec 2 (names.flatMap ServerName.encode)
  | other _ data _ => data

def encode (ext : Extension) : Bytes := be 2 ext.extType.toNat ++ vec 2 ext.data

/-- The list of a server_name extension. -/
def names? : Extension → Option (List ServerName)
  | serverName names => some names
  | other _ _ _ => none

end Extension

/-- The fields of a ClientHello, before any length is known to fit. -/
structure ClientHelloFields where
  /-- the minor version of the record header -/
  recordMinor : UInt8
  legacyVersion : Bytes
  random : Bytes
  sessionId : Bytes
  cipherSuites : Bytes
  compressionMethods : Bytes
  /-- `none`: the message ends before the extensions block -/
  extensions : Option (List Extension)

namespace ClientHelloFields

variable (hello : ClientHelloFields)

/-- The extensions block. -/
def extensionsBlock : Bytes :=
  match hello.extensions with
  | none => []
  | some exts => vec 2 (exts.flatMap Extension.encode)

/-- The handshake body. -/
def body : Bytes :=
  hello.legacyVersion ++ (hello.random ++ (vec 1 hello.sessionId ++ (vec 2 hello.cipherSuites ++
    (vec 1 hello.compressionMethods ++ hello.extensionsBlock))))

/-- The handshake message: a ClientHello header and the body. -/
def handshake : Bytes := 0x01 :: vec 3 hello.body

/-- The record. -/
def encode : Bytes := 0x16 :: 0x03 :: hello.recordMinor :: vec 2 hello.handshake

end ClientHelloFields

/-- A ClientHello within the length limits of TLS, in one record. -/
structure ClientHello extends ClientHelloFields where
  legacyVersion_length : legacyVersion.length = 2
  random_length : random.length = 32
  sessionId_length : sessionId.length ≤ 32
  compressionMethods_length : compressionMethods.length < 2 ^ 8
  /-- a record carries at most 2^14 bytes, so every longer prefix has room for its length -/
  record_length : toClientHelloFields.handshake.length ≤ 2 ^ 14

/-- The list of the first server_name extension. -/
def ClientHello.serverNames (hello : ClientHello) : Option (List ServerName) :=
  (hello.extensions.getD []).findSome? Extension.names?

/-! ## Reading what was written -/

section Read

variable {buf data : Bytes} {p n : Nat}

theorem be16_of_at (h : At buf p (be 2 n)) (hn : n < 2 ^ 16) : be16 buf p = some n := by
  have hlo : buf[p + 1]? = some (UInt8.ofNat (n / 256 ^ 0)) := h.tail.getElem?
  refine be16_eq_some.mpr ⟨_, _, h.getElem?, hlo, ?_⟩
  simp only [UInt8.toNat_ofNat']
  omega

theorem be24_of_at (h : At buf p (be 3 n)) (hn : n < 2 ^ 24) : be24 buf p = some n := by
  have hmid : buf[p + 1]? = some (UInt8.ofNat (n / 256 ^ 1)) := h.tail.getElem?
  have hlo : buf[p + 2]? = some (UInt8.ofNat (n / 256 ^ 0)) := h.tail.tail.getElem?
  refine be24_eq_some.mpr ⟨_, _, _, h.getElem?, hmid, hlo, ?_⟩
  simp only [UInt8.toNat_ofNat']
  omega

/-- A vector of one length byte. -/
theorem getElem?_of_at_vec (h : At buf p (vec 1 data)) (hdata : data.length < 2 ^ 8) :
    buf[p]?.map UInt8.toNat = some data.length := by
  have hlen : buf[p]? = some (UInt8.ofNat (data.length / 256 ^ 0)) :=
    (show At buf p (_ :: data) from h).getElem?
  rw [hlen, Option.map_some, UInt8.toNat_ofNat']
  congr 1
  omega

/-- A vector of two length bytes. -/
theorem be16_of_at_vec (h : At buf p (vec 2 data)) (hdata : data.length < 2 ^ 16) :
    be16 buf p = some data.length :=
  be16_of_at h.left hdata

theorem at_data_of_vec {k : Nat} (h : At buf p (vec k data)) : At buf (p + k) data := by
  have hright := h.right
  rw [Wire.length_be] at hright
  exact hright

end Read

/-! ## The two loops -/

section Loops

variable {buf : Bytes} {p : Nat}

/-- The answer of a server_name list: that of its first host_name. -/
def hostName (names : List ServerName) : SniResult :=
  match names.find? ServerName.isHostName with
  | none => .notPresent
  | some entry => hostNameAnswer entry.name

/-- The name loop, run on an encoded list. -/
theorem scanNames_of_at {names : List ServerName} {listEnd : Nat}
    (h : At buf p (names.flatMap ServerName.encode))
    (hend : listEnd = p + (names.flatMap ServerName.encode).length)
    (hlen : (names.flatMap ServerName.encode).length < 2 ^ 16) :
    scanNames buf listEnd p = hostName names := by
  induction names generalizing p with
  | nil =>
    rw [hend, scanNames, if_neg (by simp)]
    rfl
  | cons entry names ih =>
    rw [List.flatMap_cons] at h hlen hend
    have hentry : At buf p (entry.nameType :: vec 2 entry.name) := h.left
    have hrest := h.right
    have hsize : entry.encode.length = 3 + entry.name.length := by
      simp only [ServerName.encode, List.length_cons, length_vec]
      omega
    rw [List.length_append, hsize] at hlen hend
    rw [hsize] at hrest
    have hname : At buf (p + 3) entry.name := at_data_of_vec (p := p + 1) hentry.tail
    have hin := hname.length_le
    rw [scanNames, if_pos (by omega), be16_of_at_vec hentry.tail (by omega), hentry.getElem?]
    dsimp only
    rw [if_neg (by omega), if_neg (by omega), hostName, List.find?_cons]
    by_cases htype : entry.nameType = 0x00
    · have hhost : entry.isHostName = true := decide_eq_true htype
      rw [if_pos (by rw [htype]), hhost, hname.slice]
    · have hhost : entry.isHostName = false := decide_eq_false htype
      have hnext : At buf (p + 3 + entry.name.length) (names.flatMap ServerName.encode) := by
        rw [Nat.add_assoc]
        exact hrest
      rw [if_neg (by simpa using htype), hhost]
      exact ih hnext (by omega) (by omega)

theorem parseServerName_of_at {names : List ServerName} {bodyEnd : Nat}
    (h : At buf p (vec 2 (names.flatMap ServerName.encode)))
    (hend : bodyEnd = p + 2 + (names.flatMap ServerName.encode).length)
    (hlen : (names.flatMap ServerName.encode).length < 2 ^ 16) :
    parseServerName buf p bodyEnd = hostName names := by
  have hdata := at_data_of_vec h
  have hin := hdata.length_le
  rw [parseServerName, be16_of_at_vec h hlen]
  dsimp only
  rw [if_neg (by omega), if_neg (by omega), scanNames_of_at hdata rfl hlen]

/-- The answer of a list of extensions: that of the first server_name. -/
def firstServerName (exts : List Extension) : SniResult :=
  match exts.findSome? Extension.names? with
  | none => .notPresent
  | some names => hostName names

/-- The extensions loop, run on an encoded list. -/
theorem scanExtensions_of_at {exts : List Extension} {extEnd : Nat}
    (h : At buf p (exts.flatMap Extension.encode))
    (hend : extEnd = p + (exts.flatMap Extension.encode).length)
    (hlen : (exts.flatMap Extension.encode).length < 2 ^ 16) :
    scanExtensions buf extEnd p = firstServerName exts := by
  induction exts generalizing p with
  | nil =>
    rw [hend, scanExtensions, if_neg (by simp)]
    rfl
  | cons ext exts ih =>
    rw [List.flatMap_cons] at h hlen hend
    -- where the fields of the first extension lie
    have htype : At buf p (be 2 ext.extType.toNat) := h.left.left
    have hvec : At buf (p + 2) (vec 2 ext.data) := by
      have hright := h.left.right
      rw [Wire.length_be] at hright
      exact hright
    have hrest := h.right
    have hsize : ext.encode.length = 4 + ext.data.length := by
      simp only [Extension.encode, List.length_append, Wire.length_be, length_vec]
      omega
    rw [List.length_append, hsize] at hlen hend
    rw [hsize] at hrest
    have hdata : At buf (p + 4) ext.data := at_data_of_vec (p := p + 2) hvec
    have hin := hdata.length_le
    rw [scanExtensions, if_pos (by omega), be16_of_at htype ext.extType.toNat_lt,
      be16_of_at_vec hvec (by omega)]
    dsimp only
    rw [if_neg (by omega), if_neg (by omega), firstServerName, List.findSome?_cons]
    -- the loop ends at a server_name and goes on after any other
    cases ext with
    | serverName names =>
      have hnames : (Extension.serverName names).data.length =
          2 + (names.flatMap ServerName.encode).length := length_vec _ _
      rw [if_pos (by rfl)]
      exact parseServerName_of_at hdata (by omega) (by omega)
    | other extType data notServerName =>
      have hne : ¬ extType.toNat = 0x0000 := fun h => notServerName (UInt16.toNat_inj.mp h)
      have hnext : At buf (p + 4 + data.length) (exts.flatMap Extension.encode) := by
        rw [Nat.add_assoc]
        exact hrest
      rw [if_neg (by exact hne)]
      exact ih hnext (by rw [hend, ← Nat.add_assoc, ← Nat.add_assoc]) (by omega)

end Loops

/-! ## The whole message -/

section Encode

variable {buf : Bytes} (hello : ClientHello)

theorem ClientHello.length_body : hello.body.length =
    38 + hello.sessionId.length + hello.cipherSuites.length +
      hello.compressionMethods.length + hello.extensionsBlock.length := by
  simp only [ClientHelloFields.body, List.length_append, length_vec, hello.legacyVersion_length,
    hello.random_length]
  omega

theorem ClientHello.length_handshake : hello.handshake.length = 4 + hello.body.length := by
  simp only [ClientHelloFields.handshake, List.length_cons, length_vec]
  omega

/-- The body of a received ClientHello begins at offset 9. -/
theorem ClientHello.body_at (h : At buf 0 hello.encode) : At buf 9 hello.body := by
  have hhandshake : At buf 5 hello.handshake := at_data_of_vec h.tail.tail.tail
  exact at_data_of_vec hhandshake.tail

theorem handshakeEnd_of_at (h : At buf 0 hello.encode) :
    handshakeEnd buf = .ok (9 + hello.body.length) := by
  have hbody := (hello.body_at h).length_le
  have hrecord := hello.record_length
  have hsize := hello.length_handshake
  have hvec : At buf 3 (vec 2 hello.handshake) := h.tail.tail.tail
  have hhandshake : At buf 5 (0x01 :: vec 3 hello.body) := at_data_of_vec hvec
  have h0 : buf[0]? = some 0x16 := h.getElem?
  have h1 : buf[1]? = some 0x03 := h.tail.getElem?
  unfold handshakeEnd
  rw [if_neg (by omega), if_neg (by simp [h0]), if_neg (by simp [h1]),
    be16_of_at_vec hvec (by omega)]
  dsimp only
  rw [if_neg (by rw [maxRecordLen]; omega), if_neg (by omega),
    if_neg (by simp [hhandshake.getElem?]), be24_of_at hhandshake.tail.left (by omega)]
  dsimp only
  congr 1
  omega

/-- Where the extensions block of a received ClientHello is. -/
theorem ClientHello.extensions_at (h : At buf 0 hello.encode) :
    skipFields buf (9 + hello.body.length) =
      some (9 + hello.body.length - hello.extensionsBlock.length) ∧
    At buf (9 + hello.body.length - hello.extensionsBlock.length) hello.extensionsBlock := by
  have hlen := hello.length_body
  have hrecord := hello.record_length
  have hsize := hello.length_handshake
  have hsession_len := hello.sessionId_length
  have hsession : At buf 43 (vec 1 hello.sessionId ++ (vec 2 hello.cipherSuites ++
      (vec 1 hello.compressionMethods ++ hello.extensionsBlock))) := by
    have hrest := (hello.body_at h).right.right
    rw [hello.legacyVersion_length, hello.random_length] at hrest
    exact hrest
  have hciphers := hsession.right
  rw [length_vec] at hciphers
  have hcompression := hciphers.right
  rw [length_vec] at hcompression
  have hexts := hcompression.right
  rw [length_vec] at hexts
  constructor
  · refine skipFields_eq_some.mpr ⟨hello.sessionId.length, hello.cipherSuites.length,
      hello.compressionMethods.length, getElem?_of_at_vec hsession.left (by omega), ?_, ?_,
      by omega, by omega⟩
    · rw [show 44 + hello.sessionId.length = 43 + (1 + hello.sessionId.length) by omega]
      exact be16_of_at_vec hciphers.left (by omega)
    · rw [show 46 + hello.sessionId.length + hello.cipherSuites.length =
        43 + (1 + hello.sessionId.length) + (2 + hello.cipherSuites.length) by omega]
      exact getElem?_of_at_vec hcompression.left hello.compressionMethods_length
  · rw [show 9 + hello.body.length - hello.extensionsBlock.length =
      43 + (1 + hello.sessionId.length) + (2 + hello.cipherSuites.length) +
        (1 + hello.compressionMethods.length) by omega]
    exact hexts

/-- The answer for a received ClientHello. -/
theorem extractSni_of_at (h : At buf 0 hello.encode) :
    extractSni buf = firstServerName (hello.extensions.getD []) := by
  obtain ⟨hskip, hexts⟩ := hello.extensions_at h
  have hlen := hello.length_body
  have hrecord := hello.record_length
  have hsize := hello.length_handshake
  rw [extractSni, handshakeEnd_of_at hello h]
  dsimp only
  rw [hskip]
  dsimp only
  unfold readExtensions
  unfold ClientHelloFields.extensionsBlock at hexts hlen ⊢
  cases he : hello.extensions with
  | none => rw [if_pos (by simp)]; rfl
  | some exts =>
    simp only [he, length_vec, Option.getD_some] at hexts hlen ⊢
    rw [if_neg (by omega), be16_of_at_vec hexts (by omega)]
    dsimp only
    exact scanExtensions_of_at (at_data_of_vec hexts) (by omega) (by omega)

/-- **Every well-formed ClientHello is decoded.**  Whatever follows it in the buffer: the answer is
    the first host_name, lower-cased, when that is non-empty UTF-8; and `notPresent` when there is
    no server_name extension, or no host_name in it. -/
theorem extractSni_encode (rest : Bytes) :
    (∀ names entry s, hello.serverNames = some names →
      names.find? ServerName.isHostName = some entry → entry.name = asBytes s → s ≠ "" →
      extractSni (hello.encode ++ rest) = .found (toAsciiLowercase s)) ∧
    (hello.serverNames = none → extractSni (hello.encode ++ rest) = .notPresent) ∧
    (∀ names, hello.serverNames = some names → names.find? ServerName.isHostName = none →
      extractSni (hello.encode ++ rest) = .notPresent) := by
  have hanswer := extractSni_of_at hello (Wire.at_zero hello.encode rest)
  rw [firstServerName] at hanswer
  change extractSni _ = match hello.serverNames with | none => _ | some names => _ at hanswer
  rw [hanswer]
  refine ⟨fun names entry s hnames hentry hname hs => ?_, fun hnone => ?_, fun names hnames hnone => ?_⟩
  · rw [hnames]
    simp only [hostName, hentry, hostNameAnswer, hname, fromUtf8_asBytes, if_pos hs]
  · rw [hnone]
  · rw [hnames]
    simp only [hostName, hnone]

end Encode

/-- A ClientHello for `Example.COM`, with another extension before the server_name. -/
def exampleHello : ClientHello where
  recordMinor := 0x01
  legacyVersion := [0x03, 0x03]
  random := List.replicate 32 0x00
  sessionId := []
  cipherSuites := [0x00, 0x2f]
  compressionMethods := [0x00]
  extensions := some [.other 0x0017 [] (by decide),
    .serverName [⟨0x01, []⟩, ⟨0x00, asBytes "Example.COM"⟩]]
  legacyVersion_length := rfl
  random_length := rfl
  sessionId_length := by decide
  compressionMethods_length := by decide
  record_length := by decide

theorem extractSni_encode_exampleHello :
    extractSni (exampleHello.encode ++ []) = .found "example.com" :=
  (extractSni_encode exampleHello []).1 _ ⟨0x00, asBytes "Example.COM"⟩ "Example.COM" rfl (by decide)
    rfl (by decide)

end Featherbit
