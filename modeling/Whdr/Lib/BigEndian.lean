import Mathlib.Data.List.Basic
import Mathlib.Data.Nat.Bitwise
import Mathlib.Tactic.Ring

/-! Numbers as bytes, the most significant first, written and read with shifts in an integer
type of limited width. -/
namespace BigEndian

/-- The `width` low bytes of `n`. -/
def bytes (width n : Nat) : List UInt8 :=
  (List.range width).reverse.map fun i => UInt8.ofNat ((n >>> (i * 8)) &&& 0xff)

/-- Shift a byte in, modulo `size`. -/
def shiftIn (size v : Nat) (b : UInt8) : Nat := ((v <<< 8) ||| b.toNat) % size

@[simp] theorem length_bytes (width n : Nat) : (bytes width n).length = width := by
  simp [bytes]

theorem bytes_succ (width n : Nat) :
    bytes (width + 1) n = UInt8.ofNat (n / 256 ^ width % 256) :: bytes width n := by
  have low : (n >>> (width * 8)) &&& 0xff = n / 256 ^ width % 256 := by
    rw [Nat.shiftRight_eq_div_pow, Nat.mul_comm, Nat.pow_mul, Nat.and_two_pow_sub_one_eq_mod _ 8]
  rw [bytes, List.range_succ, List.reverse_append, List.reverse_singleton, List.singleton_append,
    List.map_cons, low]
  rfl

theorem toNat_ofNat_mod (n : Nat) : (UInt8.ofNat (n % 256)).toNat = n % 256 := by
  rw [UInt8.toNat_ofNat']
  omega

theorem shiftIn_eq {size v : Nat} {b : UInt8} (fits : v * 256 + b.toNat < size) :
    shiftIn size v b = v * 256 + b.toNat := by
  have byte : b.toNat < 2 ^ 8 := b.toNat_lt
  rw [shiftIn, ← Nat.shiftLeft_add_eq_or_of_lt byte, Nat.shiftLeft_eq, Nat.mod_eq_of_lt fits]

/-- Reading goes on from what was read, as long as the whole number fits. -/
theorem foldl_bytes {size : Nat} (width n v : Nat)
    (fits : v * 256 ^ width + n % 256 ^ width < size) :
    (bytes width n).foldl (shiftIn size) v = v * 256 ^ width + n % 256 ^ width := by
  induction width generalizing v with
  | zero => simp [bytes, Nat.mod_one]
  | succ width ih =>
    have split : n % 256 ^ (width + 1) = n % 256 ^ width + 256 ^ width * (n / 256 ^ width % 256) :=
      Nat.mod_pow_succ
    have whole : v * 256 ^ (width + 1) + n % 256 ^ (width + 1) =
        (v * 256 + n / 256 ^ width % 256) * 256 ^ width + n % 256 ^ width := by
      rw [split]
      ring
    rw [whole] at fits ⊢
    have positive : 0 < 256 ^ width := Nat.pow_pos (by decide)
    have first : v * 256 + (UInt8.ofNat (n / 256 ^ width % 256)).toNat < size := by
      rw [toNat_ofNat_mod]
      calc v * 256 + n / 256 ^ width % 256
          ≤ (v * 256 + n / 256 ^ width % 256) * 256 ^ width := Nat.le_mul_of_pos_right _ positive
        _ < size := Nat.lt_of_le_of_lt (Nat.le_add_right _ _) fits
    rw [bytes_succ, List.foldl_cons, shiftIn_eq first, toNat_ofNat_mod, ih _ fits]

/-- A number that fits both the bytes and the integer type is read back. -/
theorem read_bytes {size width n : Nat} (fitsBytes : n < 256 ^ width) (fits : n < size) :
    (bytes width n).foldl (shiftIn size) 0 = n := by
  have same : 0 * 256 ^ width + n % 256 ^ width = n := by
    rw [Nat.zero_mul, Nat.zero_add, Nat.mod_eq_of_lt fitsBytes]
  rw [foldl_bytes width n 0 (same.symm ▸ fits), same]

end BigEndian
