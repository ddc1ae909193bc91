import Whdr.Lib.Json

/-! The texts of a 128-bit identifier: written with hyphens in lower case, read with or
without hyphens, in braces or as a URN. -/
namespace UuidText

open Json (hexDigit hexValue hexValue_hexDigit)

/-- The last `width` hexadecimal digits of a number. -/
def hexChars : Nat → Nat → List Char
  | 0, _ => []
  | width + 1, n => hexDigit (n / 16 ^ width) :: hexChars width n

def hyphenated (n : Nat) : List Char :=
  hexChars 8 (n / 16 ^ 24) ++ '-' :: (hexChars 4 (n / 16 ^ 20) ++ '-' ::
    (hexChars 4 (n / 16 ^ 16) ++ '-' :: (hexChars 4 (n / 16 ^ 12) ++ '-' :: hexChars 12 n)))

def readHex (cs : List Char) : Option Nat :=
  cs.foldlM (fun n c => (hexValue c).map (n * 16 + ·)) 0

/-- Hyphens at their four places and nowhere else. -/
def readHyphenated (cs : List Char) : Option Nat :=
  if [8, 13, 18, 23].all fun i => cs[i]? == some '-' then
    readHex (cs.take 8 ++ ((cs.drop 9).take 4 ++ ((cs.drop 14).take 4 ++
      ((cs.drop 19).take 4 ++ cs.drop 24))))
  else none

def parse (cs : List Char) : Option Nat :=
  match cs.length with
  | 32 => readHex cs
  | 36 => readHyphenated cs
  | 38 =>
    if cs.head? = some '\x7b' ∧ cs.getLast? = some '\x7d' then readHyphenated (cs.drop 1).dropLast
    else none
  | 45 =>
    if cs.take 9 = ['u', 'r', 'n', ':', 'u', 'u', 'i', 'd', ':'] then readHyphenated (cs.drop 9)
    else none
  | _ => none

/-! ## What is written is read back -/

theorem length_hexChars (width n : Nat) : (hexChars width n).length = width := by
  induction width with
  | zero => rfl
  | succ width ih => rw [hexChars, List.length_cons, ih]

theorem hexChars_append (width more n : Nat) :
    hexChars width (n / 16 ^ more) ++ hexChars more n = hexChars (width + more) n := by
  induction width with
  | zero => rw [hexChars, List.nil_append, Nat.zero_add]
  | succ width ih =>
    rw [hexChars, List.cons_append, ih, Nat.succ_add, hexChars, Nat.div_div_eq_div_mul,
      ← Nat.pow_add, Nat.add_comm more]

theorem foldlM_hexChars (width n start : Nat) :
    (hexChars width n).foldlM (fun n c => (hexValue c).map (n * 16 + ·)) start =
      some (start * 16 ^ width + n % 16 ^ width) := by
  induction width generalizing start with
  | zero => simp [hexChars, Nat.mod_one]
  | succ width ih =>
    rw [hexChars, List.foldlM_cons, hexValue_hexDigit, Option.map_some]
    simp only [Option.bind_eq_bind, Option.bind_some]
    rw [ih, Nat.mod_pow_succ, Nat.pow_succ]
    congr 1
    rw [Nat.add_mul, Nat.mul_assoc, Nat.mul_comm 16 (16 ^ width), Nat.add_assoc,
      Nat.mul_comm (n / 16 ^ width % 16), Nat.add_comm (n % 16 ^ width)]

theorem readHex_hexChars (width n : Nat) : readHex (hexChars width n) = some (n % 16 ^ width) := by
  rw [readHex, foldlM_hexChars, Nat.zero_mul, Nat.zero_add]

theorem parse_hyphenated {n : Nat} (small : n < 2 ^ 128) : parse (hyphenated n) = some n := by
  have len : (hyphenated n).length = 36 := by simp [hyphenated, length_hexChars]
  -- the five groups are read as one number of 32 digits
  have groups : hexChars 8 (n / 16 ^ 24) ++ (hexChars 4 (n / 16 ^ 20) ++ (hexChars 4 (n / 16 ^ 16) ++
      (hexChars 4 (n / 16 ^ 12) ++ hexChars 12 n))) = hexChars 32 n := by
    rw [hexChars_append 4 12, hexChars_append 4 16, hexChars_append 4 20, hexChars_append 8 24]
  have places : ([8, 13, 18, 23].all fun i => (hyphenated n)[i]? == some '-') = true := by
    simp [hyphenated, length_hexChars, List.getElem?_append]
  have digits : (hyphenated n).take 8 ++ (((hyphenated n).drop 9).take 4 ++
      (((hyphenated n).drop 14).take 4 ++ (((hyphenated n).drop 19).take 4 ++
        (hyphenated n).drop 24))) = hexChars 32 n := by
    rw [← groups]
    rfl
  rw [parse, len, readHyphenated, if_pos places, digits, readHex_hexChars, Nat.mod_eq_of_lt (by omega)]
  rfl

end UuidText
