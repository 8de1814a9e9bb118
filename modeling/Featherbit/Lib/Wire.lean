/-
  BYTE STRINGS READ BY POSITION, as a library.

  A parser that indexes its buffer knows what it reads only by where it reads it.  `At buf p seg`
  says that the bytes `seg` lie in `buf` from position `p` on; a message written as a
  concatenation is taken apart with `At.left`/`At.right`, a field at a time, and each field is
  read with `At.getElem?` or `At.slice`.

  `be k n` is the big-endian form of `n` in `k` bytes, `fromBe` reads it.
-/
import Mathlib

namespace Wire

/-! ## What lies where -/

section At

variable {α : Type*} {buf x y : List α} {p : Nat} {a : α}

/-- The segment lies in the buffer from position `p` on. -/
def At (buf : List α) (p : Nat) (seg : List α) : Prop :=
  ∃ pre post, pre.length = p ∧ buf = pre ++ (seg ++ post)

theorem at_zero (x rest : List α) : At (x ++ rest) 0 x := ⟨[], rest, rfl, rfl⟩

theorem At.length_le (h : At buf p x) : p + x.length ≤ buf.length := by
  obtain ⟨pre, post, rfl, rfl⟩ := h
  simp only [List.length_append]
  omega

theorem At.left (h : At buf p (x ++ y)) : At buf p x := by
  obtain ⟨pre, post, hpre, rfl⟩ := h
  exact ⟨pre, y ++ post, hpre, by rw [List.append_assoc]⟩

theorem At.right (h : At buf p (x ++ y)) : At buf (p + x.length) y := by
  obtain ⟨pre, post, rfl, rfl⟩ := h
  exact ⟨pre ++ x, post, List.length_append, by simp only [List.append_assoc]⟩

theorem At.tail (h : At buf p (a :: x)) : At buf (p + 1) x :=
  At.right (x := [a]) h

theorem At.getElem? (h : At buf p (a :: x)) : buf[p]? = some a := by
  obtain ⟨pre, post, rfl, rfl⟩ := h
  simp

/-- The slice of a segment's length is the segment. -/
theorem At.slice (h : At buf p x) : (buf.drop p).take x.length = x := by
  obtain ⟨pre, post, rfl, rfl⟩ := h
  rw [List.drop_left, List.take_left]

end At

/-! ## Big-endian numbers -/

/-- `n` in `k` bytes, the most significant first. -/
def be : Nat → Nat → List UInt8
  | 0, _ => []
  | k + 1, n => UInt8.ofNat (n / 256 ^ k) :: be k n

@[simp] theorem length_be (k n : Nat) : (be k n).length = k := by
  induction k with
  | zero => rfl
  | succ k ih => rw [be, List.length_cons, ih]

/-- The number some bytes are the big-endian form of. -/
def fromBe (bytes : List UInt8) : Nat := bytes.foldl (fun n b => n * 256 + b.toNat) 0

theorem foldl_be (k n start : Nat) :
    (be k n).foldl (fun n b => n * 256 + b.toNat) start = start * 256 ^ k + n % 256 ^ k := by
  induction k generalizing start with
  | zero => simp [be, Nat.mod_one]
  | succ k ih =>
    have hdigit : (UInt8.ofNat (n / 256 ^ k)).toNat = n / 256 ^ k % 256 := rfl
    have hsplit : n % 256 ^ (k + 1) = n % 256 ^ k + 256 ^ k * (n / 256 ^ k % 256) :=
      Nat.mod_pow_succ
    rw [be, List.foldl_cons, ih, hdigit, hsplit, Nat.pow_succ]
    ring

theorem fromBe_be (k n : Nat) : fromBe (be k n) = n % 256 ^ k := by
  rw [fromBe, foldl_be, Nat.zero_mul, Nat.zero_add]

end Wire
