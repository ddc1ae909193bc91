import Mathlib.Algebra.Group.Int.Defs
import Mathlib.Data.List.Basic
import Mathlib.Data.String.Basic

/-! JSON values, their compact text and a reader of that text. A text is its list of
characters, and a number that is not an integer is kept as its text. -/

inductive Json
  | null
  | bool (b : Bool)
  | num (n : Int)
  | float (text : String)
  | str (s : String)
  | arr (items : List Json)
  | obj (fields : List (String × Json))

namespace Json

/-! ## Writing -/

def hexDigit (n : Nat) : Char := Nat.digitChar (n % 16)

/-- Control characters, the quote and the backslash are escaped, all else is itself. -/
def escape (c : Char) : List Char :=
  if c = '\x22' then ['\\', '\x22']
  else if c = '\\' then ['\\', '\\']
  else if c = '\x08' then ['\\', 'b']
  else if c = '\x0c' then ['\\', 'f']
  else if c = '\n' then ['\\', 'n']
  else if c = '\r' then ['\\', 'r']
  else if c = '\t' then ['\\', 't']
  else if c.toNat < 32 then ['\\', 'u', '0', '0', hexDigit (c.toNat / 16), hexDigit c.toNat]
  else [c]

def renderStr (s : String) : List Char := '\x22' :: (s.toList.flatMap escape ++ ['\x22'])

def renderInt : Int → List Char
  | .ofNat n => Nat.toDigits 10 n
  | .negSucc n => '-' :: Nat.toDigits 10 (n + 1)

mutual

/-- The text without blanks. -/
def render : Json → List Char
  | null => ['n', 'u', 'l', 'l']
  | bool true => ['t', 'r', 'u', 'e']
  | bool false => ['f', 'a', 'l', 's', 'e']
  | num n => renderInt n
  | float text => text.toList
  | str s => renderStr s
  | arr [] => ['[', ']']
  | arr (j :: rest) => '[' :: (render j ++ renderItems rest ++ [']'])
  | obj [] => ['\x7b', '\x7d']
  | obj ((key, j) :: rest) =>
    '\x7b' :: (renderStr key ++ ':' :: (render j ++ renderFields rest ++ ['\x7d']))

/-- The items after the first. -/
def renderItems : List Json → List Char
  | [] => []
  | j :: rest => ',' :: (render j ++ renderItems rest)

def renderFields : List (String × Json) → List Char
  | [] => []
  | (key, j) :: rest => ',' :: (renderStr key ++ ':' :: (render j ++ renderFields rest))

end

mutual

/-- Integers of 64 bits, signed or not, and no other number, and at most so many arrays and objects
one in the other. -/
def FitsIn : Nat → Json → Prop
  | _, null | _, bool _ | _, str _ => True
  | _, num n => -2 ^ 63 ≤ n ∧ n < 2 ^ 64
  | _, float _ => False
  | levels, arr items => 0 < levels ∧ FitsItems (levels - 1) items
  | levels, obj fields => 0 < levels ∧ FitsFields (levels - 1) fields

def FitsItems : Nat → List Json → Prop
  | _, [] => True
  | levels, j :: rest => j.FitsIn levels ∧ FitsItems levels rest

def FitsFields : Nat → List (String × Json) → Prop
  | _, [] => True
  | levels, (_, j) :: rest => j.FitsIn levels ∧ FitsFields levels rest

end

/-- Nested as deep as `serde_json` reads: it stops at the 128th level. -/
abbrev Fits (j : Json) : Prop := j.FitsIn 127

section
variable {levels : Nat}

@[simp] theorem fits_null : FitsIn levels null := trivial

@[simp] theorem fits_str (s : String) : FitsIn levels (str s) := trivial

@[simp] theorem fits_num (n : Int) : FitsIn levels (num n) ↔ -2 ^ 63 ≤ n ∧ n < 2 ^ 64 := by
  rw [FitsIn]

@[simp] theorem fits_arr (items : List Json) :
    FitsIn (levels + 1) (arr items) ↔ FitsItems levels items := by
  simp [FitsIn]

@[simp] theorem fits_obj (fields : List (String × Json)) :
    FitsIn (levels + 1) (obj fields) ↔ FitsFields levels fields := by
  simp [FitsIn]

@[simp] theorem fitsFields_nil : FitsFields levels [] := trivial

@[simp] theorem fitsFields_cons (key : String) (j : Json) (fields : List (String × Json)) :
    FitsFields levels ((key, j) :: fields) ↔ j.FitsIn levels ∧ FitsFields levels fields := by
  rw [FitsFields]

end

/-! ## No text of a value has a line break in it -/

theorem digitChar_safe : ∀ d < 16, (Nat.digitChar d).toNat ≠ 10 := by decide

theorem hexDigit_ne (n : Nat) : hexDigit n ≠ '\n' := by
  have safe := digitChar_safe (n % 16) (Nat.mod_lt _ (by decide))
  intro eq
  rw [hexDigit] at eq
  rw [eq] at safe
  exact safe rfl

theorem newline_escape (c : Char) : '\n' ∉ escape c := by
  unfold escape
  split
  · decide
  split
  · decide
  split
  · decide
  split
  · decide
  split
  · decide
  split
  · decide
  split
  · decide
  split
  · simp only [List.mem_cons, List.not_mem_nil, or_false, not_or]
    exact ⟨by decide, by decide, by decide, by decide, (hexDigit_ne _).symm, (hexDigit_ne _).symm⟩
  · rename_i notNewline _ _ _
    simpa [eq_comm] using notNewline

theorem newline_renderStr (s : String) : '\n' ∉ renderStr s := by
  simp only [renderStr, List.mem_cons, List.mem_append, List.mem_flatMap, List.not_mem_nil, or_false,
    not_or]
  refine ⟨by decide, ?_, by decide⟩
  rintro ⟨c, _, mem⟩
  exact newline_escape c mem

theorem newline_toDigits (n : Nat) : '\n' ∉ Nat.toDigits 10 n := fun mem =>
  absurd (Nat.isDigit_of_mem_toDigits (by decide) (by decide) mem) (by decide)

theorem newline_renderInt (n : Int) : '\n' ∉ renderInt n := by
  cases n with
  | ofNat n => exact newline_toDigits n
  | negSucc n =>
    rw [renderInt, List.mem_cons, not_or]
    exact ⟨by decide, newline_toDigits _⟩

mutual

theorem newline_render (j : Json) {levels : Nat} (fits : j.FitsIn levels) : '\n' ∉ j.render := by
  match j with
  | null => rw [render]; decide
  | bool true => rw [render]; decide
  | bool false => rw [render]; decide
  | num n => rw [render]; exact newline_renderInt n
  | float _ => exact fits.elim
  | str s => rw [render]; exact newline_renderStr s
  | arr [] => rw [render]; decide
  | arr (j :: rest) =>
    rw [FitsIn, FitsItems] at fits
    obtain ⟨_, fits⟩ := fits
    have first := newline_render j fits.1
    have others := newline_renderItems rest fits.2
    simp [render, first, others]
  | obj [] => rw [render]; decide
  | obj ((key, j) :: rest) =>
    rw [FitsIn, FitsFields] at fits
    obtain ⟨_, fits⟩ := fits
    have name := newline_renderStr key
    have first := newline_render j fits.1
    have others := newline_renderFields rest fits.2
    simp [render, name, first, others]

theorem newline_renderItems (items : List Json) {levels : Nat} (fits : FitsItems levels items) :
    '\n' ∉ renderItems items := by
  match items with
  | [] => rw [renderItems]; decide
  | j :: rest =>
    rw [FitsItems] at fits
    have first := newline_render j fits.1
    have others := newline_renderItems rest fits.2
    simp [renderItems, first, others]

theorem newline_renderFields (fields : List (String × Json)) {levels : Nat}
    (fits : FitsFields levels fields) : '\n' ∉ renderFields fields := by
  match fields with
  | [] => rw [renderFields]; decide
  | (key, j) :: rest =>
    rw [FitsFields] at fits
    have name := newline_renderStr key
    have first := newline_render j fits.1
    have others := newline_renderFields rest fits.2
    simp [renderFields, name, first, others]

end

/-! ## Reading -/

def isBlank (c : Char) : Bool := c = ' ' || c = '\n' || c = '\r' || c = '\t'

def skipBlanks (cs : List Char) : List Char := cs.dropWhile isBlank

def hexValue (c : Char) : Option Nat :=
  if '0' ≤ c ∧ c ≤ '9' then some (c.toNat - 48)
  else if 'a' ≤ c ∧ c ≤ 'f' then some (c.toNat - 87)
  else if 'A' ≤ c ∧ c ≤ 'F' then some (c.toNat - 55)
  else none

/-- The character `\uXXXX` names, which is not half of a surrogate pair. -/
def fromHex (a b c d : Char) : Option Char := do
  let n := ((← hexValue a) * 16 + (← hexValue b)) * 256 + (← hexValue c) * 16 + (← hexValue d)
  if n < 0xd800 ∨ 0xdfff < n then some (Char.ofNat n) else none

def unescape (c : Char) : Option Char :=
  if c = '\x22' ∨ c = '\\' ∨ c = '/' then some c
  else if c = 'b' then some '\x08'
  else if c = 'f' then some '\x0c'
  else if c = 'n' then some '\n'
  else if c = 'r' then some '\r'
  else if c = 't' then some '\t'
  else none

/-- A string up to its closing quote, and what follows. -/
def readStr : List Char → Option (List Char × List Char)
  | [] => none
  | '\x22' :: rest => some ([], rest)
  | '\\' :: 'u' :: a :: b :: c :: d :: rest => do
    let ch ← fromHex a b c d
    let (chars, rest) ← readStr rest
    some (ch :: chars, rest)
  | '\\' :: c :: rest => do
    let ch ← unescape c
    let (chars, rest) ← readStr rest
    some (ch :: chars, rest)
  | c :: rest =>
    if c.toNat < 32 then none
    else do
      let (chars, rest) ← readStr rest
      some (c :: chars, rest)

/-- An unsigned integer, without a zero in front. -/
def readNat (cs : List Char) : Option (Nat × List Char) :=
  match cs.takeWhile Char.isDigit with
  | [] => none
  | '0' :: _ :: _ => none
  | digits => some (Nat.ofDigitChars 10 digits 0, cs.dropWhile Char.isDigit)

mutual

/-- A value and what follows it. Every call reads a character, so the length of the text is
fuel enough. -/
def readValue : Nat → List Char → Option (Json × List Char)
  | 0, _ => none
  | fuel + 1, cs =>
    match skipBlanks cs with
    | 'n' :: 'u' :: 'l' :: 'l' :: rest => some (null, rest)
    | 't' :: 'r' :: 'u' :: 'e' :: rest => some (bool true, rest)
    | 'f' :: 'a' :: 'l' :: 's' :: 'e' :: rest => some (bool false, rest)
    | '\x22' :: rest => (readStr rest).map fun (chars, rest) => (str (String.ofList chars), rest)
    | '[' :: rest =>
      match skipBlanks rest with
      | ']' :: rest => some (arr [], rest)
      | rest => (readItems fuel rest).map fun (items, rest) => (arr items, rest)
    | '\x7b' :: rest =>
      match skipBlanks rest with
      | '\x7d' :: rest => some (obj [], rest)
      | rest => (readFields fuel rest).map fun (fields, rest) => (obj fields, rest)
    | '-' :: rest => (readNat rest).map fun (n, rest) => (num (-n), rest)
    | rest => (readNat rest).map fun (n, rest) => (num n, rest)

/-- The items up to the closing bracket. -/
def readItems : Nat → List Char → Option (List Json × List Char)
  | 0, _ => none
  | fuel + 1, cs => do
    let (j, rest) ← readValue fuel cs
    match skipBlanks rest with
    | ']' :: rest => some ([j], rest)
    | ',' :: rest => (readItems fuel rest).map fun (items, rest) => (j :: items, rest)
    | _ => none

def readFields : Nat → List Char → Option (List (String × Json) × List Char)
  | 0, _ => none
  | fuel + 1, cs =>
    match skipBlanks cs with
    | '\x22' :: rest => do
      let (key, rest) ← readStr rest
      match skipBlanks rest with
      | ':' :: rest =>
        let (j, rest) ← readValue fuel rest
        match skipBlanks rest with
        | '\x7d' :: rest => some ([(String.ofList key, j)], rest)
        | ',' :: rest =>
          (readFields fuel rest).map fun (fields, rest) => ((String.ofList key, j) :: fields, rest)
        | _ => none
      | _ => none
    | _ => none

end

/-- The value a whole text is, with blanks around it or not. -/
def read (cs : List Char) : Option Json := do
  let (j, rest) ← readValue (cs.length + 1) cs
  if (skipBlanks rest).isEmpty then some j else none

/-! ## The reader inverts the writer -/

theorem hexValue_digitChar : ∀ d < 16, hexValue (Nat.digitChar d) = some d := by decide

theorem hexValue_hexDigit (n : Nat) : hexValue (hexDigit n) = some (n % 16) :=
  hexValue_digitChar _ (Nat.mod_lt _ (by decide))

theorem fromHex_control {c : Char} (control : c.toNat < 32) :
    fromHex '0' '0' (hexDigit (c.toNat / 16)) (hexDigit c.toNat) = some c := by
  have zero : hexValue '0' = some 0 := by decide
  have value : ((0 * 16 + 0) * 256 + c.toNat / 16 % 16 * 16 + c.toNat % 16) = c.toNat := by omega
  simp only [fromHex, hexValue_hexDigit, zero, Option.bind_eq_bind, Option.bind_some, value]
  rw [if_pos (by omega), Char.ofNat_toNat]

theorem readStr_escape (c : Char) (rest : List Char) :
    readStr (escape c ++ rest) = (readStr rest).map fun (chars, rest) => (c :: chars, rest) := by
  unfold escape
  split
  · rename_i eq
    cases h : readStr rest <;> simp [readStr, unescape, eq, h]
  split
  · rename_i eq
    cases h : readStr rest <;> simp [readStr, unescape, eq, h]
  split
  · rename_i eq
    cases h : readStr rest <;> simp [readStr, unescape, eq, h]
  split
  · rename_i eq
    cases h : readStr rest <;> simp [readStr, unescape, eq, h]
  split
  · rename_i eq
    cases h : readStr rest <;> simp [readStr, unescape, eq, h]
  split
  · rename_i eq
    cases h : readStr rest <;> simp [readStr, unescape, eq, h]
  split
  · rename_i eq
    cases h : readStr rest <;> simp [readStr, unescape, eq, h]
  split
  · rename_i control
    cases h : readStr rest <;> simp [readStr, fromHex_control control, h]
  · rename_i slash _ _ _ _ _ control
    cases h : readStr rest <;> simp [readStr, slash, control, h]

theorem readStr_chars (chars rest : List Char) :
    readStr (chars.flatMap escape ++ '\x22' :: rest) = some (chars, rest) := by
  induction chars with
  | nil => simp [readStr]
  | cons c chars ih =>
    rw [List.flatMap_cons, List.append_assoc, readStr_escape, ih]
    rfl

/-- The text that follows a number does not go on with it. -/
def Stops (rest : List Char) : Prop := ∀ c ∈ rest.head?, c.isDigit = false

theorem toDigits_zero_front (n : Nat) (c : Char) (cs : List Char) :
    Nat.toDigits 10 n ≠ '0' :: c :: cs := by
  induction n using Nat.strong_induction_on generalizing c cs with
  | _ n ih =>
    intro eq
    by_cases small : n < 10
    · rw [Nat.toDigits_of_lt_base small] at eq
      exact absurd (congrArg List.length eq) (by simp)
    · rw [Nat.toDigits_of_base_le (by decide) (by omega)] at eq
      cases front : Nat.toDigits 10 (n / 10) with
      | nil => exact Nat.toDigits_ne_nil front
      | cons d ds =>
        rw [front, List.cons_append, List.cons.injEq] at eq
        obtain ⟨rfl, eq⟩ := eq
        cases ds with
        | cons e es => exact ih (n / 10) (by omega) e es front
        | nil =>
          have value : Nat.ofDigitChars 10 (Nat.toDigits 10 (n / 10)) 0 = n / 10 :=
            Nat.ofDigitChars_ten_toDigits
          rw [front] at value
          have zero : Nat.ofDigitChars 10 ['0'] 0 = 0 := by decide
          omega

theorem split_digits {digits rest : List Char} (all : ∀ c ∈ digits, c.isDigit = true)
    (stops : Stops rest) : (digits ++ rest).takeWhile Char.isDigit = digits ∧
      (digits ++ rest).dropWhile Char.isDigit = rest := by
  induction digits with
  | nil =>
    cases rest with
    | nil => exact ⟨rfl, rfl⟩
    | cons c rest => simp [stops c rfl]
  | cons c digits ih =>
    have first := all c List.mem_cons_self
    have others := ih fun d mem => all d (List.mem_cons_of_mem _ mem)
    simp [first, others]

theorem readNat_toDigits (n : Nat) {rest : List Char} (stops : Stops rest) :
    readNat (Nat.toDigits 10 n ++ rest) = some (n, rest) := by
  obtain ⟨taken, dropped⟩ := split_digits (fun c mem =>
    Nat.isDigit_of_mem_toDigits (b := 10) (n := n) (by decide) (by decide) mem) stops
  unfold readNat
  rw [taken, dropped]
  split
  · rename_i eq
    exact absurd eq Nat.toDigits_ne_nil
  · rename_i eq
    exact absurd eq (toDigits_zero_front n _ _)
  · rw [Nat.ofDigitChars_ten_toDigits]

theorem skipBlanks_cons {c : Char} (notBlank : isBlank c = false) (cs : List Char) :
    skipBlanks (c :: cs) = c :: cs := by
  rw [skipBlanks, List.dropWhile_cons, notBlank]
  rfl

/-- A digit starts a number. -/
theorem readValue_digit (fuel : Nat) {c : Char} (digit : c.isDigit = true) (cs : List Char) :
    readValue (fuel + 1) (c :: cs) = (readNat (c :: cs)).map fun (n, rest) => (num n, rest) := by
  have notBlank : isBlank c = false := by
    rw [isBlank]
    by_contra blank
    simp only [Bool.not_eq_false, Bool.or_eq_true, decide_eq_true_eq] at blank
    obtain ((rfl | rfl) | rfl) | rfl := blank <;> cases digit
  simp only [readValue, skipBlanks_cons notBlank]
  split
  all_goals first
    | rfl
    | (rename_i eq; obtain ⟨rfl, _⟩ := List.cons.inj eq; cases digit)

theorem stops_cons {c : Char} (notDigit : c.isDigit = false) (rest : List Char) :
    Stops (c :: rest) := by
  rintro d ⟨⟩
  exact notDigit

theorem stops_renderItems (items : List Json) (rest : List Char) :
    Stops (renderItems items ++ ']' :: rest) := by
  cases items with
  | nil => rw [renderItems]; exact stops_cons (by decide) _
  | cons j items => rw [renderItems]; exact stops_cons (by decide) _

theorem stops_renderFields (fields : List (String × Json)) (rest : List Char) :
    Stops (renderFields fields ++ '\x7d' :: rest) := by
  cases fields with
  | nil => rw [renderFields]; exact stops_cons (by decide) _
  | cons field fields => rw [renderFields]; exact stops_cons (by decide) _

theorem readValue_int (fuel : Nat) (n : Int) {rest : List Char} (stops : Stops rest) :
    readValue (fuel + 1) (renderInt n ++ rest) = some (num n, rest) := by
  cases n with
  | ofNat n =>
    have read := readNat_toDigits n stops
    rw [renderInt]
    cases digits : Nat.toDigits 10 n with
    | nil => exact absurd digits Nat.toDigits_ne_nil
    | cons c cs =>
      have digit : c.isDigit = true := Nat.isDigit_of_mem_toDigits (b := 10) (n := n) (by decide)
        (by decide) (digits ▸ List.mem_cons_self)
      rw [digits] at read
      rw [List.cons_append] at read ⊢
      rw [readValue_digit fuel digit, read]
      rfl
  | negSucc n =>
    have read := readNat_toDigits (n + 1) stops
    rw [renderInt, List.cons_append]
    simp only [readValue, skipBlanks_cons (c := '-') (by decide), read, Option.map_some]
    rfl

theorem renderStr_append (s : String) (rest : List Char) :
    renderStr s ++ rest = '\x22' :: (s.toList.flatMap escape ++ '\x22' :: rest) := by
  rw [renderStr, List.cons_append, List.append_assoc, List.singleton_append]

/-- No value starts with a closing bracket. -/
theorem render_head (j : Json) {levels : Nat} (fits : j.FitsIn levels) :
    ∃ c cs, j.render = c :: cs ∧ isBlank c = false ∧ c ≠ ']' := by
  match j with
  | null => exact ⟨_, _, by rw [render], by decide, by decide⟩
  | bool true => exact ⟨_, _, by rw [render], by decide, by decide⟩
  | bool false => exact ⟨_, _, by rw [render], by decide, by decide⟩
  | num (.ofNat n) =>
    rw [render, renderInt]
    cases digits : Nat.toDigits 10 n with
    | nil => exact absurd digits Nat.toDigits_ne_nil
    | cons c cs =>
      have digit : c.isDigit = true := Nat.isDigit_of_mem_toDigits (b := 10) (n := n) (by decide)
        (by decide) (digits ▸ List.mem_cons_self)
      refine ⟨c, cs, rfl, ?_, ?_⟩
      · by_contra blank
        simp only [isBlank, Bool.not_eq_false, Bool.or_eq_true, decide_eq_true_eq] at blank
        obtain ((rfl | rfl) | rfl) | rfl := blank <;> cases digit
      · rintro rfl
        cases digit
  | num (.negSucc n) => exact ⟨_, _, by rw [render, renderInt], by decide, by decide⟩
  | float _ => exact fits.elim
  | str s => exact ⟨_, _, by rw [render, renderStr], by decide, by decide⟩
  | arr [] => exact ⟨_, _, by rw [render], by decide, by decide⟩
  | arr (j :: rest) => exact ⟨_, _, by rw [render], by decide, by decide⟩
  | obj [] => exact ⟨_, _, by rw [render], by decide, by decide⟩
  | obj ((key, j) :: rest) => exact ⟨_, _, by rw [render], by decide, by decide⟩

/-- The opening bracket is followed by a value, so the items are read. -/
theorem readValue_arr {fuel : Nat} {j : Json} {levels : Nat} (fits : j.FitsIn levels)
    (more : List Char) : readValue (fuel + 1) ('[' :: (j.render ++ more)) =
      (readItems fuel (j.render ++ more)).map fun (items, rest) => (arr items, rest) := by
  obtain ⟨c, cs, head, notBlank, ne⟩ := render_head j fits
  rw [head, List.cons_append]
  simp only [readValue, skipBlanks_cons (c := '[') (by decide), skipBlanks_cons notBlank]
  split
  · rename_i eq
    exact absurd (List.cons.inj eq).1 ne
  · rfl

theorem readValue_obj (fuel : Nat) (key : String) (more : List Char) :
    readValue (fuel + 1) ('\x7b' :: (renderStr key ++ more)) =
      (readFields fuel (renderStr key ++ more)).map fun (fields, rest) => (obj fields, rest) := by
  rw [renderStr_append]
  simp only [readValue, skipBlanks_cons (c := '\x7b') (by decide),
    skipBlanks_cons (c := '\x22') (by decide)]
  rfl

mutual

/-- Enough fuel reads a value back and stops where it ends. -/
theorem readValue_render (fuel : Nat) (j : Json) {levels : Nat} (fits : j.FitsIn levels)
    (rest : List Char) (stops : Stops rest) (enough : j.render.length ≤ fuel) :
    readValue fuel (j.render ++ rest) = some (j, rest) := by
  obtain ⟨first, others, head, _⟩ := render_head j fits
  obtain ⟨fuel, rfl⟩ : ∃ n, fuel = n + 1 := by
    rw [head, List.length_cons] at enough
    exact ⟨fuel - 1, by omega⟩
  match j with
  | null => simp [render, readValue, skipBlanks, isBlank]
  | bool true => simp [render, readValue, skipBlanks, isBlank]
  | bool false => simp [render, readValue, skipBlanks, isBlank]
  | num n => rw [render]; exact readValue_int fuel n stops
  | float _ => exact fits.elim
  | str s =>
    rw [render, renderStr_append]
    simp [readValue, skipBlanks, isBlank, readStr_chars]
  | arr [] => simp [render, readValue, skipBlanks, isBlank]
  | arr (j :: items) =>
    rw [FitsIn, FitsItems] at fits
    obtain ⟨_, fits⟩ := fits
    rw [render, List.length_cons, List.length_append, List.length_append, List.length_singleton]
      at enough
    have back := readItems_render fuel j fits.1 items fits.2 rest (by omega)
    rw [render, List.cons_append, List.append_assoc, List.append_assoc, List.singleton_append,
      readValue_arr fits.1, back]
    rfl
  | obj [] => simp [render, readValue, skipBlanks, isBlank]
  | obj ((key, j) :: fields) =>
    rw [FitsIn, FitsFields] at fits
    obtain ⟨_, fits⟩ := fits
    simp only [render, List.length_cons, List.length_append, List.length_nil] at enough
    have back := readFields_render fuel key j fits.1 fields fits.2 rest (by omega)
    rw [render, List.cons_append, List.append_assoc, List.cons_append, List.append_assoc,
      List.append_assoc, List.singleton_append, readValue_obj, back]
    rfl

theorem readItems_render (fuel : Nat) (j : Json) {levels : Nat} (fits : j.FitsIn levels)
    (items : List Json) (fitsItems : FitsItems levels items) (rest : List Char)
    (enough : j.render.length + (renderItems items).length + 1 ≤ fuel) :
    readItems fuel (j.render ++ (renderItems items ++ ']' :: rest)) = some (j :: items, rest) := by
  obtain ⟨fuel, rfl⟩ : ∃ n, fuel = n + 1 := ⟨fuel - 1, by omega⟩
  have first := readValue_render fuel j fits _ (stops_renderItems items rest) (by omega)
  simp only [readItems, first, Option.bind_eq_bind, Option.bind_some]
  match items with
  | [] => simp [renderItems, skipBlanks, isBlank]
  | next :: items =>
    rw [FitsItems] at fitsItems
    rw [renderItems, List.length_cons, List.length_append] at enough
    have others := readItems_render fuel next fitsItems.1 items fitsItems.2 rest (by omega)
    rw [renderItems, List.cons_append, List.append_assoc, skipBlanks_cons (by decide)]
    simp [others]

theorem readFields_render (fuel : Nat) (key : String) (j : Json) {levels : Nat}
    (fits : j.FitsIn levels) (fields : List (String × Json)) (fitsFields : FitsFields levels fields) (rest : List Char)
    (enough : j.render.length + (renderFields fields).length + 1 ≤ fuel) :
    readFields fuel
      (renderStr key ++ ':' :: (j.render ++ (renderFields fields ++ '\x7d' :: rest))) =
        some ((key, j) :: fields, rest) := by
  obtain ⟨fuel, rfl⟩ : ∃ n, fuel = n + 1 := ⟨fuel - 1, by omega⟩
  have first := readValue_render fuel j fits _ (stops_renderFields fields rest) (by omega)
  rw [renderStr_append]
  simp only [readFields, skipBlanks_cons (c := '\x22') (by decide), readStr_chars,
    skipBlanks_cons (c := ':') (by decide), first, Option.bind_eq_bind, Option.bind_some,
    String.ofList_toList]
  match fields with
  | [] => simp [renderFields, skipBlanks, isBlank]
  | (next, k) :: fields =>
    rw [FitsFields] at fitsFields
    simp only [renderFields, List.length_cons, List.length_append] at enough
    have others := readFields_render fuel next k fitsFields.1 fields fitsFields.2 rest (by omega)
    rw [renderFields, List.cons_append, List.append_assoc, List.cons_append, List.append_assoc,
      skipBlanks_cons (by decide)]
    simp [others]

end

theorem read_render (j : Json) (fits : j.Fits) : read j.render = some j := by
  have back := readValue_render (j.render.length + 1) j fits [] (by rintro c ⟨⟩) (by omega)
  rw [List.append_nil] at back
  have rest : skipBlanks [] = [] := rfl
  rw [read, back]
  simp [rest]

end Json
