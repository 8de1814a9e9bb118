/-
  THE MD5 OF `sls-logger` (`md5` of `plugins/native/sls_logger.rs`) is the one of RFC 1321.

  The code works on bytes and moves the four values of its state along by one place in every step; the RFC
  works on bits and keeps its registers where they are, while the operations take them in turn.

  1. **The message** (`toBits_paddedMessage`) — the bits of the padded bytes are the padded bits.
  2. **A block** (`rounds_eq`) — after `i` steps the state is the registers, as operation `i` takes them
     (`taken`); 64 steps on they are in their places again.
  3. **The digest** (`md5_eq`) — block after block.
-/
import Featherbit.Lib.Md5
import Featherbit.Rust.Std

namespace Featherbit

namespace SlsLogger

open Rfc1321 (toBits byteBits wordBits wordAt byteAt padded withLength Registers Places operate operations
  wordBytes)

/-! ## The code -/

def S : List ℕ := [
  7, 12, 17, 22, 7, 12, 17, 22, 7, 12, 17, 22, 7, 12, 17, 22, 5, 9, 14, 20, 5, 9, 14, 20, 5,
  9, 14, 20, 5, 9, 14, 20, 4, 11, 16, 23, 4, 11, 16, 23, 4, 11, 16, 23, 4, 11, 16, 23, 6, 10,
  15, 21, 6, 10, 15, 21, 6, 10, 15, 21, 6, 10, 15, 21]

def K : List UInt32 := [
  0xd76aa478, 0xe8c7b756, 0x242070db, 0xc1bdceee, 0xf57c0faf, 0x4787c62a, 0xa8304613,
  0xfd469501, 0x698098d8, 0x8b44f7af, 0xffff5bb1, 0x895cd7be, 0x6b901122, 0xfd987193,
  0xa679438e, 0x49b40821, 0xf61e2562, 0xc040b340, 0x265e5a51, 0xe9b6c7aa, 0xd62f105d,
  0x02441453, 0xd8a1e681, 0xe7d3fbc8, 0x21e1cde6, 0xc33707d6, 0xf4d50d87, 0x455a14ed,
  0xa9e3e905, 0xfcefa3f8, 0x676f02d9, 0x8d2a4c8a, 0xfffa3942, 0x8771f681, 0x6d9d6122,
  0xfde5380c, 0xa4beea44, 0x4bdecfa9, 0xf6bb4b60, 0xbebfbc70, 0x289b7ec6, 0xeaa127fa,
  0xd4ef3085, 0x04881d05, 0xd9d4d039, 0xe6db99e5, 0x1fa27cf8, 0xc4ac5665, 0xf4292244,
  0x432aff97, 0xab9423a7, 0xfc93a039, 0x655b59c3, 0x8f0ccc92, 0xffeff47d, 0x85845dd1,
  0x6fa87e4f, 0xfe2ce6e0, 0xa3014314, 0x4e0811a1, 0xf7537e82, 0xbd3af235, 0x2ad7d2bb,
  0xeb86d391]

/-- The four values `a`, `b`, `c` and `d`. -/
abbrev State := UInt32 × UInt32 × UInt32 × UInt32

/-- `u32::from_le_bytes`. -/
def fromLeBytes (b0 b1 b2 b3 : UInt8) : UInt32 :=
  UInt32.ofNat (b0.toNat + b1.toNat * 2 ^ 8 + b2.toNat * 2 ^ 16 + b3.toNat * 2 ^ 24)

/-- `to_le_bytes`, of a number of `size` bytes. -/
def toLeBytes (size n : ℕ) : Bytes := (List.range size).map fun k => UInt8.ofNat (n / 256 ^ k)

def rotateLeft (x : UInt32) (n : ℕ) : UInt32 := ⟨x.toBitVec.rotateLeft n⟩

/-- `chunk.chunks_exact(size)`: what is left over at the end is no chunk. -/
def chunksExact (size : ℕ) (bytes : Bytes) : List Bytes :=
  (List.range (bytes.length / size)).map fun i => (bytes.drop (i * size)).take size

/-- `while msg.len() % 64 != 56 { msg.push(0) }`, at most `fuel` times. -/
def pushZeros : ℕ → Bytes → Bytes
  | 0, msg => msg
  | fuel + 1, msg => if msg.length % 64 ≠ 56 then pushZeros fuel (msg ++ [0]) else msg

def paddedMessage (input : Bytes) : Bytes :=
  let bitLen := UInt64.ofNat input.length * 8
  pushZeros 64 (input ++ [0x80]) ++ toLeBytes 8 bitLen.toNat

/-- The 16 words of a chunk. -/
def words (chunk : Bytes) : List UInt32 :=
  (List.range 16).map fun i => fromLeBytes (chunk.getD (i * 4) 0) (chunk.getD (i * 4 + 1) 0)
    (chunk.getD (i * 4 + 2) 0) (chunk.getD (i * 4 + 3) 0)

/-- The function of step `i`, and the word that it takes. -/
def mix (i : ℕ) (b c d : UInt32) : UInt32 × ℕ :=
  if i ≤ 15 then ((b &&& c) ||| (~~~b &&& d), i)
  else if i ≤ 31 then ((d &&& b) ||| (~~~d &&& c), (5 * i + 1) % 16)
  else if i ≤ 47 then (b ^^^ c ^^^ d, (3 * i + 5) % 16)
  else (c ^^^ (b ||| ~~~d), (7 * i) % 16)

/-- Step `i` of a chunk. -/
def step (m : List UInt32) (state : State) (i : ℕ) : State :=
  let (a, b, c, d) := state
  let (f, g) := mix i b c d
  let f := f + a + K.getD i 0 + m.getD g 0
  (d, b + rotateLeft f (S.getD i 0), b, c)

def chunkStep (state : State) (chunk : Bytes) : State :=
  let (a0, b0, c0, d0) := state
  let (a, b, c, d) := (List.range 64).foldl (step (words chunk)) state
  (a0 + a, b0 + b, c0 + c, d0 + d)

/-- `md5`. -/
def md5 (input : Bytes) : Bytes :=
  let (a0, b0, c0, d0) := (chunksExact 64 (paddedMessage input)).foldl chunkStep
    (0x67452301, 0xefcdab89, 0x98badcfe, 0x10325476)
  toLeBytes 4 a0.toNat ++ toLeBytes 4 b0.toNat ++ toLeBytes 4 c0.toNat ++ toLeBytes 4 d0.toNat

/-- `md5_hex_upper`. -/
def md5HexUpper (data : Bytes) : String :=
  String.ofList ((md5 data).flatMap fun b =>
    ["0123456789ABCDEF".toList.getD (b.toNat / 16) '0', "0123456789ABCDEF".toList.getD (b.toNat % 16) '0'])

/-! ## The message -/

/-- The loop has pushed as many zeros as were wanting. -/
theorem pushZeros_eq (fuel : ℕ) (msg : Bytes) (hfuel : (56 + 64 - msg.length % 64) % 64 ≤ fuel) :
    pushZeros fuel msg = msg ++ List.replicate ((56 + 64 - msg.length % 64) % 64) 0 := by
  induction fuel generalizing msg with
  | zero =>
    rw [Nat.le_zero.mp hfuel]
    exact (List.append_nil msg).symm
  | succ fuel ih =>
    rw [pushZeros]
    by_cases hlen : msg.length % 64 = 56
    · have hnone : (56 + 64 - msg.length % 64) % 64 = 0 := by rw [hlen]
      rw [if_neg (not_not.mpr hlen), hnone]
      exact (List.append_nil msg).symm
    · -- one zero more, and one less is wanting
      have hnext : (56 + 64 - msg.length % 64) % 64 =
          (56 + 64 - (msg ++ [(0 : UInt8)]).length % 64) % 64 + 1 := by
        rw [List.length_append, List.length_singleton]
        omega
      rw [if_pos hlen, ih (msg ++ [0]) (by omega), hnext, List.append_assoc, List.replicate_succ,
        List.singleton_append]

theorem toBits_zeros (n : ℕ) : toBits (List.replicate n 0) = List.replicate (8 * n) false := by
  induction n with
  | zero => rfl
  | succ n ih =>
    rw [List.replicate_succ, Nat.mul_succ, Nat.add_comm, List.replicate_add, ← ih]
    rfl

/-- The bytes of a word are its bits. -/
theorem toBits_toLeBytes (n : ℕ) : toBits (toLeBytes 4 n) = wordBits n := by
  unfold toBits toLeBytes wordBits
  rw [List.flatMap_map]
  congr 1

theorem toLeBytes_eight (n : ℕ) :
    toLeBytes 8 n = toLeBytes 4 (n % 2 ^ 32) ++ toLeBytes 4 (n / 2 ^ 32 % 2 ^ 32) := by
  have hbyte : ∀ m m' : ℕ, m % 256 = m' % 256 → UInt8.ofNat m = UInt8.ofNat m' := by
    intro m m' h
    apply UInt8.toNat_inj.mp
    rw [UInt8.toNat_ofNat', UInt8.toNat_ofNat']
    exact h
  show [_, _, _, _, _, _, _, _] = [_, _, _, _] ++ [_, _, _, _]
  simp only [List.cons_append, List.nil_append, List.cons.injEq, and_true]
  refine ⟨hbyte _ _ ?_, hbyte _ _ ?_, hbyte _ _ ?_, hbyte _ _ ?_, hbyte _ _ ?_, hbyte _ _ ?_,
    hbyte _ _ ?_, hbyte _ _ ?_⟩
  all_goals omega

/-- **The message.** -/
theorem toBits_paddedMessage (input : Bytes) : toBits (paddedMessage input) = withLength (toBits input) := by
  have hlength := Rfc1321.length_toBits input
  have hbitLen : (UInt64.ofNat input.length * 8).toNat = (toBits input).length % 2 ^ 64 := by
    rw [UInt64.toNat_mul, UInt64.toNat_ofNat', hlength, show (8 : UInt64).toNat = 8 from rfl]
    omega
  have hone : toBits [0x80] = true :: List.replicate 7 false := by decide
  obtain ⟨z, hz⟩ : ∃ z, z = (56 + 64 - (input ++ [(0x80 : UInt8)]).length % 64) % 64 := ⟨_, rfl⟩
  have hzeros : 7 + 8 * z = Rfc1321.zeros (toBits input).length := by
    rw [List.length_append, List.length_singleton] at hz
    apply Rfc1321.eq_zeros
    · omega
    · omega
  have hpushed := pushZeros_eq 64 (input ++ [0x80]) (by omega)
  rw [← hz] at hpushed
  unfold paddedMessage withLength padded
  dsimp only
  rw [hpushed, hbitLen, toLeBytes_eight, Rfc1321.toBits_append, Rfc1321.toBits_append,
    Rfc1321.toBits_append, Rfc1321.toBits_append, toBits_toLeBytes, toBits_toLeBytes, toBits_zeros, hone,
    ← hzeros, List.replicate_add, List.append_assoc (toBits input), List.cons_append]
  -- the bits of the length that are left out do not matter
  rw [show (toBits input).length % 2 ^ 64 % 2 ^ 32 = (toBits input).length % 2 ^ 32 by omega,
    show (toBits input).length % 2 ^ 64 / 2 ^ 32 % 2 ^ 32 = (toBits input).length / 2 ^ 32 % 2 ^ 32 by omega]

/-! ## A block -/

/-- The function of a round, and the word of a step. -/
def roundF (i : ℕ) : UInt32 → UInt32 → UInt32 → UInt32 :=
  if i ≤ 15 then Rfc1321.F else if i ≤ 31 then Rfc1321.G else if i ≤ 47 then Rfc1321.H else Rfc1321.I

def wordOf (i : ℕ) : ℕ :=
  if i ≤ 15 then i else if i ≤ 31 then (5 * i + 1) % 16 else if i ≤ 47 then (3 * i + 5) % 16
  else (7 * i) % 16

def placesOf (i : ℕ) : Places :=
  if i % 4 = 0 then .ABCD else if i % 4 = 1 then .DABC else if i % 4 = 2 then .CDAB else .BCDA

/-- Operation `i`, counted from zero. -/
def operation (i : ℕ) : Rfc1321.Operation := ⟨roundF i, placesOf i, wordOf i, S.getD i 0, i + 1⟩

theorem operations_eq : operations = (List.range 64).map operation := rfl

theorem mix_eq (i : ℕ) (b c d : UInt32) : mix i b c d = (roundF i b c d, wordOf i) := by
  unfold mix roundF wordOf
  split_ifs
  · rfl
  · rw [Rfc1321.G, UInt32.and_comm b d, UInt32.and_comm c]
  · rfl
  · rfl

theorem wordOf_lt {i : ℕ} (hi : i < 64) : wordOf i < 16 := by
  unfold wordOf
  split_ifs <;> omega

/-- The table. -/
theorem T_eq {i : ℕ} (hi : i < 64) : Rfc1321.T (i + 1) = K.getD i 0 := by
  have hall : ∀ i < 64, SineTable.isFloor 4294967296 (i + 1) (K.getD i 0).toNat = true := by
    decide +kernel
  exact Rfc1321.T_eq_of_isFloor (hall i hi)

/-- The registers, as operation `i` takes them. -/
def taken (i : ℕ) (r : Registers) : State :=
  match placesOf i with
  | .ABCD => (r.A, r.B, r.C, r.D)
  | .DABC => (r.D, r.A, r.B, r.C)
  | .CDAB => (r.C, r.D, r.A, r.B)
  | .BCDA => (r.B, r.C, r.D, r.A)

theorem placesOf_succ (i : ℕ) :
    (placesOf i = .ABCD ∧ placesOf (i + 1) = .DABC) ∨ (placesOf i = .DABC ∧ placesOf (i + 1) = .CDAB) ∨
      (placesOf i = .CDAB ∧ placesOf (i + 1) = .BCDA) ∨ (placesOf i = .BCDA ∧ placesOf (i + 1) = .ABCD) := by
  unfold placesOf
  obtain h | h | h | h : i % 4 = 0 ∨ i % 4 = 1 ∨ i % 4 = 2 ∨ i % 4 = 3 := by omega
  · rw [h, show (i + 1) % 4 = 1 by omega]
    exact Or.inl ⟨rfl, rfl⟩
  · rw [h, show (i + 1) % 4 = 2 by omega]
    exact Or.inr (Or.inl ⟨rfl, rfl⟩)
  · rw [h, show (i + 1) % 4 = 3 by omega]
    exact Or.inr (Or.inr (Or.inl ⟨rfl, rfl⟩))
  · rw [h, show (i + 1) % 4 = 0 by omega]
    exact Or.inr (Or.inr (Or.inr ⟨rfl, rfl⟩))

/-- A step is an operation. -/
theorem step_taken {m : List UInt32} {X : ℕ → UInt32} (hX : ∀ j < 16, m.getD j 0 = X j) {i : ℕ}
    (hi : i < 64) (r : Registers) : step m (taken i r) i = taken (i + 1) (operate X r (operation i)) := by
  have hstep : ∀ a b c d : UInt32, step m (a, b, c, d) i = (d, b + Rfc1321.rotate
      (a + roundF i b c d + X (wordOf i) + Rfc1321.T (i + 1)) (S.getD i 0), b, c) := by
    intro a b c d
    have hsum : roundF i b c d + a + K.getD i 0 + X (wordOf i) =
        a + roundF i b c d + X (wordOf i) + K.getD i 0 := by
      rw [UInt32.add_comm (roundF i b c d) a, UInt32.add_assoc, UInt32.add_comm (K.getD i 0),
        ← UInt32.add_assoc]
    unfold step
    dsimp only
    rw [mix_eq, hX _ (wordOf_lt hi), hsum, T_eq hi]
    rfl
  -- what was `d` is taken for `a` next, and so on
  unfold taken operate operation
  dsimp only
  rcases placesOf_succ i with ⟨hi, hnext⟩ | ⟨hi, hnext⟩ | ⟨hi, hnext⟩ | ⟨hi, hnext⟩
  · rw [hi, hnext]
    exact hstep r.A r.B r.C r.D
  · rw [hi, hnext]
    exact hstep r.D r.A r.B r.C
  · rw [hi, hnext]
    exact hstep r.C r.D r.A r.B
  · rw [hi, hnext]
    exact hstep r.B r.C r.D r.A

/-- **A block.**  The state after some steps is the registers after as many operations. -/
theorem rounds_eq {m : List UInt32} {X : ℕ → UInt32} (hX : ∀ j < 16, m.getD j 0 = X j) (r : Registers)
    {n : ℕ} (hn : n ≤ 64) : (List.range n).foldl (step m) (taken 0 r) =
      taken n (((List.range n).map operation).foldl (operate X) r) := by
  induction n with
  | zero => rfl
  | succ n ih =>
    rw [List.range_succ, List.foldl_append, ih (by omega), List.map_append, List.foldl_append]
    exact step_taken hX (by omega) _

/-- The words of chunk `i`. -/
theorem words_getD (bytes : Bytes) (i : ℕ) {j : ℕ} (hj : j < 16) :
    (words ((bytes.drop (i * 64)).take 64)).getD j 0 = wordAt (toBits bytes) (i * 16 + j) := by
  have hbyte : ∀ k < 64, ((bytes.drop (i * 64)).take 64).getD k 0 = bytes.getD (i * 64 + k) 0 := by
    intro k hk
    rw [List.getD_eq_getElem?_getD, List.getD_eq_getElem?_getD, List.getElem?_take_of_lt hk,
      List.getElem?_drop]
  have hword : (words ((bytes.drop (i * 64)).take 64)).getD j 0 =
      fromLeBytes (((bytes.drop (i * 64)).take 64).getD (j * 4) 0)
        (((bytes.drop (i * 64)).take 64).getD (j * 4 + 1) 0)
        (((bytes.drop (i * 64)).take 64).getD (j * 4 + 2) 0)
        (((bytes.drop (i * 64)).take 64).getD (j * 4 + 3) 0) := by
    unfold words
    rw [List.getD_eq_getElem?_getD, List.getElem?_map, List.getElem?_range hj]
    rfl
  rw [hword, hbyte _ (by omega), hbyte _ (by omega), hbyte _ (by omega), hbyte _ (by omega)]
  unfold fromLeBytes wordAt
  rw [Rfc1321.byteAt_toBits, Rfc1321.byteAt_toBits, Rfc1321.byteAt_toBits, Rfc1321.byteAt_toBits,
    show 4 * (i * 16 + j) = i * 64 + j * 4 by ring]
  rfl

/-- In their places. -/
theorem taken_zero (r : Registers) : taken 0 r = (r.A, r.B, r.C, r.D) := rfl

theorem taken_last (r : Registers) : taken 64 r = (r.A, r.B, r.C, r.D) := rfl

theorem chunkStep_eq (bytes : Bytes) (i : ℕ) (r : Registers) :
    chunkStep (taken 0 r) ((bytes.drop (i * 64)).take 64) =
      taken 0 (Rfc1321.block (toBits bytes) r i) := by
  have hrounds := rounds_eq (fun j hj => words_getD bytes i hj) r (Nat.le_refl 64)
  rw [← operations_eq, taken_last] at hrounds
  have hstate := taken_zero r
  rw [taken_zero (Rfc1321.block _ _ _)]
  unfold chunkStep Rfc1321.block
  dsimp only
  rw [hrounds]
  rw [hstate]
  dsimp only
  rw [UInt32.add_comm r.A, UInt32.add_comm r.B, UInt32.add_comm r.C, UInt32.add_comm r.D]

theorem chunks_eq (bytes : Bytes) (n : ℕ) (r : Registers) :
    ((List.range n).map fun i => (bytes.drop (i * 64)).take 64).foldl chunkStep (taken 0 r) =
      taken 0 ((List.range n).foldl (Rfc1321.block (toBits bytes)) r) := by
  induction n with
  | zero => rfl
  | succ n ih =>
    rw [List.range_succ, List.map_append, List.foldl_append, ih, List.foldl_append, List.map_singleton,
      List.foldl_cons, List.foldl_nil, List.foldl_cons, List.foldl_nil, chunkStep_eq]

/-- **The digest.**  The code computes the MD5 of RFC 1321, of the bits of any bytes. -/
theorem md5_eq (input : Bytes) : md5 input = Rfc1321.md5 (toBits input) := by
  have hblocks : (toBits (paddedMessage input)).length / 32 / 16 = (paddedMessage input).length / 64 := by
    rw [Rfc1321.length_toBits]
    omega
  have hchunks := chunks_eq (paddedMessage input) ((paddedMessage input).length / 64) Rfc1321.initial
  rw [taken_zero, taken_zero (List.foldl _ _ _)] at hchunks
  unfold md5 Rfc1321.md5 chunksExact
  dsimp only
  rw [← toBits_paddedMessage, hblocks]
  generalize (List.range ((paddedMessage input).length / 64)).foldl
    (Rfc1321.block (toBits (paddedMessage input))) Rfc1321.initial = r at hchunks ⊢
  unfold Rfc1321.initial at hchunks
  dsimp only at hchunks
  rw [hchunks]
  rfl

example : md5HexUpper (asBytes "abc") = "900150983CD24FB0D6963F7D28E17F72" := by decide +kernel

end SlsLogger

end Featherbit
