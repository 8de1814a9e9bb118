/-
  MD5 (RFC 1321), as a library: the digest of a message of any number of bits.

  The text of the RFC, step by step.  A message is a list of bits; a byte has its most significant bit first,
  a word its byte of low order first.  Of the table `T` only the sine is said; that a list of numbers is that
  table is decided by integers (`T_eq_of_isFloor`).

  What follows the definitions is about messages of whole bytes: where their bytes and words are found again
  (`byteAt_toBits`), and that the padding ends where it should (`length_padded`, `eq_zeros`).
-/
import Featherbit.Lib.SineTable

namespace Rfc1321

/-! ## Bits, bytes and words -/

/-- The bits of a byte. -/
def byteBits (n : ℕ) : List Bool := (List.range 8).map fun i => n.testBit (7 - i)

/-- The bits of a word. -/
def wordBits (n : ℕ) : List Bool := (List.range 4).flatMap fun k => byteBits (n / 256 ^ k % 256)

/-- The number that bits stand for. -/
def ofBits (bits : List Bool) : ℕ := bits.foldl (fun n bit => 2 * n + bit.toNat) 0

def byteAt (bits : List Bool) (n : ℕ) : ℕ := ofBits ((bits.drop (8 * n)).take 8)

/-- `M[n]`. -/
def wordAt (bits : List Bool) (n : ℕ) : UInt32 :=
  UInt32.ofNat (byteAt bits (4 * n) + byteAt bits (4 * n + 1) * 2 ^ 8 + byteAt bits (4 * n + 2) * 2 ^ 16 +
    byteAt bits (4 * n + 3) * 2 ^ 24)

/-! ## Step 1: padding bits -/

/-- How many zeros come after the one, up to 448 bits modulo 512. -/
def zeros (length : ℕ) : ℕ := (447 + 512 - length % 512) % 512

def padded (message : List Bool) : List Bool :=
  message ++ true :: List.replicate (zeros message.length) false

/-! ## Step 2: the length -/

/-- The padded message and its length before the padding, of which only the 64 bits of low order are used:
    two words, the one of low order first. -/
def withLength (message : List Bool) : List Bool :=
  padded message ++ (wordBits (message.length % 2 ^ 32) ++ wordBits (message.length / 2 ^ 32 % 2 ^ 32))

/-! ## Step 3: the buffer -/

structure Registers where
  A : UInt32
  B : UInt32
  C : UInt32
  D : UInt32

def initial : Registers where
  A := 0x67452301
  B := 0xefcdab89
  C := 0x98badcfe
  D := 0x10325476

/-! ## Step 4: the blocks of 16 words -/

def F (x y z : UInt32) : UInt32 := x &&& y ||| ~~~x &&& z

def G (x y z : UInt32) : UInt32 := x &&& z ||| y &&& ~~~z

def H (x y z : UInt32) : UInt32 := x ^^^ y ^^^ z

def I (x y z : UInt32) : UInt32 := y ^^^ (x ||| ~~~z)

/-- The integer part of `4294967296 * abs (sin i)`, `i` in radians. -/
noncomputable def T (i : ℕ) : UInt32 := UInt32.ofNat ⌊(4294967296 : ℕ) * abs (Real.sin i)⌋₊

/-- `x <<< s`, circular. -/
def rotate (x : UInt32) (s : ℕ) : UInt32 := ⟨x.toBitVec.rotateLeft s⟩

/-- The registers that an operation takes for `a`, `b`, `c` and `d`. -/
inductive Places where
  | ABCD
  | DABC
  | CDAB
  | BCDA
deriving DecidableEq

/-- `[abcd k s i]`, in a round with its own function. -/
structure Operation where
  f : UInt32 → UInt32 → UInt32 → UInt32
  places : Places
  k : ℕ
  s : ℕ
  i : ℕ

/-- `a = b + ((a + f(b, c, d) + X[k] + T[i]) <<< s)`. -/
noncomputable def operate (X : ℕ → UInt32) (r : Registers) (op : Operation) : Registers :=
  let a (a b c d : UInt32) := b + rotate (a + op.f b c d + X op.k + T op.i) op.s
  match op.places with
  | .ABCD => { r with A := a r.A r.B r.C r.D }
  | .DABC => { r with D := a r.D r.A r.B r.C }
  | .CDAB => { r with C := a r.C r.D r.A r.B }
  | .BCDA => { r with B := a r.B r.C r.D r.A }

def round (f : UInt32 → UInt32 → UInt32 → UInt32) (rows : List (Places × ℕ × ℕ × ℕ)) : List Operation :=
  rows.map fun (places, k, s, i) => ⟨f, places, k, s, i⟩

open Places in
def operations : List Operation :=
  round F [
    (ABCD,  0,  7,  1), (DABC,  1, 12,  2), (CDAB,  2, 17,  3), (BCDA,  3, 22,  4),
    (ABCD,  4,  7,  5), (DABC,  5, 12,  6), (CDAB,  6, 17,  7), (BCDA,  7, 22,  8),
    (ABCD,  8,  7,  9), (DABC,  9, 12, 10), (CDAB, 10, 17, 11), (BCDA, 11, 22, 12),
    (ABCD, 12,  7, 13), (DABC, 13, 12, 14), (CDAB, 14, 17, 15), (BCDA, 15, 22, 16)] ++
  round G [
    (ABCD,  1,  5, 17), (DABC,  6,  9, 18), (CDAB, 11, 14, 19), (BCDA,  0, 20, 20),
    (ABCD,  5,  5, 21), (DABC, 10,  9, 22), (CDAB, 15, 14, 23), (BCDA,  4, 20, 24),
    (ABCD,  9,  5, 25), (DABC, 14,  9, 26), (CDAB,  3, 14, 27), (BCDA,  8, 20, 28),
    (ABCD, 13,  5, 29), (DABC,  2,  9, 30), (CDAB,  7, 14, 31), (BCDA, 12, 20, 32)] ++
  round H [
    (ABCD,  5,  4, 33), (DABC,  8, 11, 34), (CDAB, 11, 16, 35), (BCDA, 14, 23, 36),
    (ABCD,  1,  4, 37), (DABC,  4, 11, 38), (CDAB,  7, 16, 39), (BCDA, 10, 23, 40),
    (ABCD, 13,  4, 41), (DABC,  0, 11, 42), (CDAB,  3, 16, 43), (BCDA,  6, 23, 44),
    (ABCD,  9,  4, 45), (DABC, 12, 11, 46), (CDAB, 15, 16, 47), (BCDA,  2, 23, 48)] ++
  round I [
    (ABCD,  0,  6, 49), (DABC,  7, 10, 50), (CDAB, 14, 15, 51), (BCDA,  5, 21, 52),
    (ABCD, 12,  6, 53), (DABC,  3, 10, 54), (CDAB, 10, 15, 55), (BCDA,  1, 21, 56),
    (ABCD,  8,  6, 57), (DABC, 15, 10, 58), (CDAB,  6, 15, 59), (BCDA, 13, 21, 60),
    (ABCD,  4,  6, 61), (DABC, 11, 10, 62), (CDAB,  2, 15, 63), (BCDA,  9, 21, 64)]

/-- Block `i`, and the registers as they were before it. -/
noncomputable def block (bits : List Bool) (r : Registers) (i : ℕ) : Registers :=
  let X (j : ℕ) := wordAt bits (i * 16 + j)
  let r' := operations.foldl (operate X) r
  { A := r'.A + r.A, B := r'.B + r.B, C := r'.C + r.C, D := r'.D + r.D }

/-! ## Step 5: output -/

/-- The bytes of a word, the one of low order first. -/
def wordBytes (w : UInt32) : List UInt8 := (List.range 4).map fun k => UInt8.ofNat (w.toNat / 256 ^ k)

/-- The digest of a message. -/
noncomputable def md5 (message : List Bool) : List UInt8 :=
  let bits := withLength message
  let r := (List.range (bits.length / 32 / 16)).foldl (block bits) initial
  wordBytes r.A ++ wordBytes r.B ++ wordBytes r.C ++ wordBytes r.D

/-! ## Messages of bytes -/

/-- The bits of bytes. -/
def toBits (bytes : List UInt8) : List Bool := bytes.flatMap fun b => byteBits b.toNat

theorem length_byteBits (n : ℕ) : (byteBits n).length = 8 := by
  rw [byteBits, List.length_map, List.length_range]

theorem ofBits_byteBits : ∀ n < 256, ofBits (byteBits n) = n := by decide +kernel

theorem toBits_append (bytes more : List UInt8) : toBits (bytes ++ more) = toBits bytes ++ toBits more :=
  List.flatMap_append

theorem length_toBits (bytes : List UInt8) : (toBits bytes).length = 8 * bytes.length := by
  induction bytes with
  | nil => rfl
  | cons b bytes ih =>
    rw [toBits, List.flatMap_cons, List.length_append, length_byteBits, ← toBits, ih, List.length_cons]
    omega

/-- A byte of a message is found where it was put. -/
theorem byteAt_toBits (bytes : List UInt8) (n : ℕ) : byteAt (toBits bytes) n = (bytes.getD n 0).toNat := by
  induction n generalizing bytes with
  | zero =>
    cases bytes with
    | nil => rfl
    | cons b bytes =>
      show ofBits ((byteBits b.toNat ++ toBits bytes).take 8) = b.toNat
      rw [List.take_left' (length_byteBits _), ofBits_byteBits _ b.toNat_lt]
  | succ n ih =>
    cases bytes with
    | nil => rfl
    | cons b bytes =>
      have hdrop : (toBits (b :: bytes)).drop (8 * (n + 1)) = (toBits bytes).drop (8 * n) := by
        show (byteBits b.toNat ++ toBits bytes).drop (8 * (n + 1)) = _
        rw [show 8 * (n + 1) = (byteBits b.toNat).length + 8 * n by rw [length_byteBits]; omega,
          List.drop_length_add_append]
      have hrest := ih bytes
      unfold byteAt at hrest ⊢
      rw [hdrop, hrest, List.getD_cons_succ]

theorem length_padded (message : List Bool) : (padded message).length % 512 = 448 := by
  rw [padded, List.length_append, List.length_cons, List.length_replicate, zeros]
  omega

/-- There is one number of zeros below 512 that fits. -/
theorem eq_zeros {length k : ℕ} (hk : k < 512) (h : (length + 1 + k) % 512 = 448) : k = zeros length := by
  rw [zeros]
  omega

/-! ## The table -/

theorem T_eq_of_isFloor {i : ℕ} {value : UInt32} (h : SineTable.isFloor 4294967296 i value.toNat = true) :
    T i = value := by
  rw [T, SineTable.floor_sin h, UInt32.ofNat_toNat]

end Rfc1321
