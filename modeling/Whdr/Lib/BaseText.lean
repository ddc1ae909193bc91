import Whdr.Lib.Json

/-! Bytes written in base 16, and in base 64 with padding. -/
namespace BaseText

open Json (hexDigit hexValue hexValue_hexDigit)

/-! ## Base 16 -/

def hex (bytes : List UInt8) : List Char :=
  bytes.flatMap fun b => [hexDigit (b.toNat / 16), hexDigit b.toNat]

def readHex : List Char → Option (List UInt8)
  | [] => some []
  | [_] => none
  | a :: b :: rest => do
    let high ← hexValue a
    let low ← hexValue b
    return UInt8.ofNat (high * 16 + low) :: (← readHex rest)

theorem ofNat_eq {n : Nat} {b : UInt8} (same : n % 256 = b.toNat) : UInt8.ofNat n = b := by
  rw [← UInt8.toNat_inj, UInt8.toNat_ofNat']
  exact same

theorem readHex_hex (bytes : List UInt8) : readHex (hex bytes) = some bytes := by
  induction bytes with
  | nil => rfl
  | cons b rest ih =>
    have byte : UInt8.ofNat (b.toNat / 16 % 16 * 16 + b.toNat % 16) = b := by
      have := b.toNat_lt
      exact ofNat_eq (by omega)
    change readHex (hexDigit (b.toNat / 16) :: hexDigit b.toNat :: hex rest) = _
    simp only [readHex, hexValue_hexDigit, Option.bind_eq_bind, Option.bind_some, ih, byte]
    rfl

theorem mem_hex {bytes : List UInt8} {c : Char} (mem : c ∈ hex bytes) : ∃ n, c = hexDigit n := by
  obtain ⟨b, _, isDigit⟩ := List.mem_flatMap.mp mem
  simp only [List.mem_cons, List.not_mem_nil, or_false] at isDigit
  obtain rfl | rfl := isDigit
  · exact ⟨_, rfl⟩
  · exact ⟨_, rfl⟩

/-! ## Base 64 -/

def alphabet : List Char :=
  "ABCDEFGHIJKLMNOPQRSTUVWXYZabcdefghijklmnopqrstuvwxyz0123456789+/".toList

def digit (n : Nat) : Char := alphabet.getD (n % 64) 'A'

def digitValue (c : Char) : Option Nat := alphabet.idxOf? c

/-- Three bytes make four digits. -/
def base64 : List UInt8 → List Char
  | a :: b :: c :: rest =>
    digit (a.toNat / 4) :: digit (a.toNat * 16 + b.toNat / 16) ::
      digit (b.toNat * 4 + c.toNat / 64) :: digit c.toNat :: base64 rest
  | [a, b] => [digit (a.toNat / 4), digit (a.toNat * 16 + b.toNat / 16), digit (b.toNat * 4), '=']
  | [a] => [digit (a.toNat / 4), digit (a.toNat * 16), '=', '=']
  | [] => []

/-- The last group, which ends with padding: the bits this stands for are zero. -/
def readPadded (a b c : Char) : Option (List UInt8) := do
  let x ← digitValue a
  let y ← digitValue b
  if c = '=' then
    if y % 16 = 0 then some [UInt8.ofNat (x * 4 + y / 16)] else none
  else
    let z ← digitValue c
    if z % 4 = 0 then some [UInt8.ofNat (x * 4 + y / 16), UInt8.ofNat (y * 16 + z / 4)] else none

def readBase64 : List Char → Option (List UInt8)
  | a :: b :: c :: d :: rest =>
    if d = '=' then if rest.isEmpty then readPadded a b c else none
    else do
      let x ← digitValue a
      let y ← digitValue b
      let z ← digitValue c
      let w ← digitValue d
      return UInt8.ofNat (x * 4 + y / 16) :: UInt8.ofNat (y * 16 + z / 4) ::
        UInt8.ofNat (z * 64 + w) :: (← readBase64 rest)
  | [] => some []
  | _ => none

theorem digitValue_digit (n : Nat) : digitValue (digit n) = some (n % 64) := by
  have table : ∀ i < 64, digitValue (alphabet.getD i 'A') = some i := by decide +kernel
  exact table _ (Nat.mod_lt _ (by decide))

theorem digit_ne_pad (n : Nat) : digit n ≠ '=' := by
  intro pad
  have value := digitValue_digit n
  rw [pad] at value
  cases value

theorem readBase64_base64 (bytes : List UInt8) : readBase64 (base64 bytes) = some bytes := by
  fun_induction base64 bytes with
  | case1 a b c rest ih =>
    have := a.toNat_lt
    have := b.toNat_lt
    have := c.toNat_lt
    rw [readBase64, if_neg (digit_ne_pad _)]
    simp only [digitValue_digit, Option.bind_eq_bind, Option.bind_some, ih]
    congr 3
    · exact ofNat_eq (by omega)
    · exact ofNat_eq (by omega)
    · exact congrArg (· :: rest) (ofNat_eq (by omega))
  | case2 a b =>
    have := a.toNat_lt
    have := b.toNat_lt
    rw [readBase64, if_pos rfl, List.isEmpty_nil, if_pos rfl, readPadded]
    simp only [digitValue_digit, Option.bind_eq_bind, Option.bind_some, digit_ne_pad, ↓reduceIte]
    rw [if_pos (by omega)]
    congr 2
    · exact ofNat_eq (by omega)
    · exact congrArg (· :: []) (ofNat_eq (by omega))
  | case3 a =>
    have := a.toNat_lt
    rw [readBase64, if_pos rfl, List.isEmpty_nil, if_pos rfl, readPadded]
    simp only [digitValue_digit, Option.bind_eq_bind, Option.bind_some, ↓reduceIte]
    rw [if_pos (by omega)]
    exact congrArg (fun b => some [b]) (ofNat_eq (by omega))
  | case4 => rfl

theorem mem_base64 {bytes : List UInt8} {c : Char} (mem : c ∈ base64 bytes) :
    c = '=' ∨ ∃ n, c = digit n := by
  fun_induction base64 bytes with
  | case1 x y z rest ih =>
    simp only [List.mem_cons] at mem
    obtain rfl | rfl | rfl | rfl | mem := mem
    · exact .inr ⟨_, rfl⟩
    · exact .inr ⟨_, rfl⟩
    · exact .inr ⟨_, rfl⟩
    · exact .inr ⟨_, rfl⟩
    · exact ih mem
  | case2 x y =>
    simp only [List.mem_cons, List.not_mem_nil, or_false] at mem
    obtain rfl | rfl | rfl | rfl := mem
    · exact .inr ⟨_, rfl⟩
    · exact .inr ⟨_, rfl⟩
    · exact .inr ⟨_, rfl⟩
    · exact .inl rfl
  | case3 x =>
    simp only [List.mem_cons, List.not_mem_nil, or_false] at mem
    obtain rfl | rfl | rfl | rfl := mem
    · exact .inr ⟨_, rfl⟩
    · exact .inr ⟨_, rfl⟩
    · exact .inl rfl
    · exact .inl rfl
  | case4 => cases mem

end BaseText
