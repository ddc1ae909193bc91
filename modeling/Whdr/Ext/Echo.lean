import Whdr.Ext.Unauthenticated

/-! What the Teams validation echoes, and for which tokens it is the token. -/
namespace Whdr.Ext.Teams

/-- A letter, a digit or one of `-._~`. -/
def unreserved (b : UInt8) : Bool :=
  (97 ≤ b && b ≤ 122) || (65 ≤ b && b ≤ 90) || (48 ≤ b && b ≤ 57) ||
    b == 45 || b == 46 || b == 95 || b == 126

/-- How a byte is written in a query. -/
inductive Written : UInt8 → List UInt8 → Prop
  | plain {b : UInt8} : unreserved b = true → Written b [b]
  | plus : Written 32 [43]
  | escaped {b x y : UInt8} : unreserved b = false → hexByte x = some (b.toNat / 16) →
      hexByte y = some (b.toNat % 16) → Written b [37, x, y]

/-- The percent-encodings of some bytes. -/
inductive PercentEncoding : List UInt8 → List UInt8 → Prop
  | nil : PercentEncoding [] []
  | cons {b : UInt8} {bytes piece rest : List UInt8} : Written b piece →
      PercentEncoding bytes rest → PercentEncoding (b :: bytes) (piece ++ rest)

/-- The value is a percent-encoding of the token's UTF-8. -/
def Encodes (token value : String) : Prop := PercentEncoding (asBytes token) (asBytes value)

/-- Two hexadecimal digits come first. -/
def TwoDigits (bytes : List UInt8) : Prop :=
  ∃ x y after, bytes = x :: y :: after ∧ (hexByte x).isSome = true ∧ (hexByte y).isSome = true

/-- Every `%` without two digits after it stays a `%`, between what the bytes before it and the
bytes after it decode to. -/
def KeepsPercent (bytes : List UInt8) : Prop :=
  ∀ front rest, bytes = front ++ 37 :: rest → ¬ TwoDigits rest →
    ∃ before after, percentDecode front = some before ∧ percentDecode rest = some after ∧
      percentDecode bytes = some (before ++ '%' :: after)

/-- A `%`, a plus and a digit. -/
def SignedEscape (bytes : List UInt8) : Prop :=
  ∃ front y back, bytes = front ++ 37 :: 43 :: y :: back ∧ (hexByte y).isSome = true

/-! ## One step of the decoder -/

variable {b x y : UInt8} {n : Nat} {bytes front rest after : List UInt8}

theorem percentDecode_plus (rest : List UInt8) :
    percentDecode (43 :: rest) = (percentDecode rest).map (' ' :: ·) := by
  rw [percentDecode.eq_def]
  rfl

theorem percentDecode_byte (notPlus : b ≠ 43) (notPercent : b ≠ 37) :
    percentDecode (b :: rest) = (percentDecode rest).map (Char.ofNat b.toNat :: ·) := by
  rw [percentDecode.eq_def]
  simp only [notPlus, notPercent, ↓reduceIte]

theorem percentDecode_hex (hex : fromStrRadix x y = some n)
    (between : after.head?.any isContinuation = false) :
    percentDecode (37 :: x :: y :: after) = (percentDecode after).map (Char.ofNat n :: ·) := by
  rw [percentDecode.eq_def]
  simp [hex, between]

theorem percentDecode_literal
    (between : ∀ x y after, rest = x :: y :: after → after.head?.any isContinuation = false)
    (notHex : ∀ x y after, rest = x :: y :: after → fromStrRadix x y = none) :
    percentDecode (37 :: rest) = (percentDecode rest).map ('%' :: ·) := by
  rw [percentDecode.eq_def]
  obtain _ | ⟨x, _ | ⟨y, after⟩⟩ := rest
  · rfl
  · rfl
  · simp [between x y after rfl, notHex x y after rfl]

theorem hexByte_lt (digit : hexByte b = some n) : n < 16 := by
  unfold hexByte at digit
  simp only [UInt8.le_iff_toNat_le, UInt8.reduceToNat] at digit
  split_ifs at digit with decimal lower upper
  · have := Option.some.inj digit
    omega
  · have := Option.some.inj digit
    omega
  · have := Option.some.inj digit
    omega

theorem fromStrRadix_plus (y : UInt8) : fromStrRadix 43 y = hexByte y := rfl

theorem fromStrRadix_digits {m : Nat} (first : hexByte x = some m) (second : hexByte y = some n) :
    fromStrRadix x y = some (m * 16 + n) := by
  have notPlus : x ≠ 43 := by
    rintro rfl
    cases first
  rw [fromStrRadix, if_neg notPlus, first, second]
  rfl

/-- Only two digits, or a plus and a digit, are read as a number. -/
theorem fromStrRadix_none (notDigits : ¬ TwoDigits (x :: y :: after))
    (notSigned : ¬ SignedEscape (37 :: x :: y :: after)) : fromStrRadix x y = none := by
  by_cases plus : x = 43
  · subst plus
    rw [fromStrRadix_plus, ← Option.not_isSome_iff_eq_none]
    intro digit
    exact notSigned ⟨[], y, after, rfl, digit⟩
  · rw [fromStrRadix, if_neg plus]
    cases first : hexByte x with
    | none => rfl
    | some m =>
      cases second : hexByte y with
      | none => rfl
      | some n => exact (notDigits ⟨x, y, after, rfl, by simp [first], by simp [second]⟩).elim

/-! ## A literal percent -/

theorem CutsCharacter.append_right (cuts : CutsCharacter front) (rest : List UInt8) :
    CutsCharacter (front ++ rest) := by
  obtain ⟨before, x, y, c, back, rfl, inside⟩ := cuts
  exact ⟨before, x, y, c, back ++ rest, by simp, inside⟩

theorem CutsCharacter.append_left (cuts : CutsCharacter rest) (front : List UInt8) :
    CutsCharacter (front ++ rest) := by
  obtain ⟨before, x, y, c, back, rfl, inside⟩ := cuts
  exact ⟨front ++ before, x, y, c, back, by simp, inside⟩

theorem SignedEscape.append_left (signed : SignedEscape rest) (front : List UInt8) :
    SignedEscape (front ++ rest) := by
  obtain ⟨before, y, back, rfl, digit⟩ := signed
  exact ⟨front ++ before, y, back, by simp, digit⟩

/-- Where no character is cut, the slice after a `%` ends between two. -/
theorem between_of_not_cuts (whole : ¬ CutsCharacter (37 :: rest)) :
    ∀ x y after, rest = x :: y :: after → after.head?.any isContinuation = false := by
  rintro x y after rfl
  cases after with
  | nil => rfl
  | cons c back =>
    rw [← Bool.not_eq_true]
    intro inside
    exact whole ⟨[], x, y, c, back, rfl, inside⟩

/-- What is decoded before a `%` does not depend on what follows: no escape holds a `%`. -/
theorem percentDecode_split {before later : List Char}
    (whole : ¬ CutsCharacter (front ++ 37 :: rest)) (first : percentDecode front = some before)
    (second : percentDecode (37 :: rest) = some later) :
    percentDecode (front ++ 37 :: rest) = some (before ++ later) := by
  induction front using percentDecode.induct generalizing before with
  | case1 =>
    cases first
    exact second
  | case2 front ih =>
    rw [percentDecode_plus] at first
    obtain ⟨before, decoded, rfl⟩ := Option.map_eq_some_iff.mp first
    rw [List.cons_append, percentDecode_plus, ih _ decoded]
    · rfl
    · exact fun cuts => whole (cuts.append_left [43])
  | case3 x y after inside ne =>
    rw [percentDecode.eq_def] at first
    simp [inside] at first
  | case4 x y after between hex isHex ne ih =>
    rw [percentDecode_hex isHex (by simpa using between)] at first
    obtain ⟨before, decoded, rfl⟩ := Option.map_eq_some_iff.mp first
    have between := between_of_not_cuts whole x y (after ++ 37 :: rest) rfl
    rw [List.cons_append, List.cons_append, List.cons_append, percentDecode_hex isHex between,
      ih _ decoded]
    · rfl
    · exact fun cuts => whole (cuts.append_left [37, x, y])
  | case5 x y after between notHex ne ih =>
    have literal {more : List UInt8} (whole : ¬ CutsCharacter (37 :: x :: y :: more)) :
        percentDecode (37 :: x :: y :: more) = (percentDecode (x :: y :: more)).map ('%' :: ·) := by
      apply percentDecode_literal (between_of_not_cuts whole)
      rintro _ _ _ ⟨rfl, rfl, rfl⟩
      exact notHex
    rw [literal fun cuts => whole (cuts.append_right _)] at first
    obtain ⟨before, decoded, rfl⟩ := Option.map_eq_some_iff.mp first
    rw [List.cons_append, List.cons_append, List.cons_append] at whole ⊢
    rw [literal whole, ← List.cons_append, ← List.cons_append, ih _ decoded]
    · rfl
    · exact fun cuts => whole (cuts.append_left [37])
  | case6 front short ne ih =>
    rw [percentDecode_literal (fun x y after eq => (short x y after eq).elim)
      (fun x y after eq => (short x y after eq).elim)] at first
    obtain ⟨before, decoded, rfl⟩ := Option.map_eq_some_iff.mp first
    rw [List.cons_append] at whole ⊢
    rw [percentDecode_literal (between_of_not_cuts whole), ih _ decoded]
    · rfl
    · exact fun cuts => whole (cuts.append_left [37])
    · -- the second `%` is one of the two bytes after the first
      intro x y after eq
      rw [Option.eq_none_iff_forall_ne_some]
      intro n hex
      obtain ⟨neX, neY⟩ := fromStrRadix_ne hex
      obtain _ | ⟨a, _ | ⟨c, more⟩⟩ := front
      · exact neX (List.cons.inj eq).1.symm
      · exact neY (List.cons.inj (List.cons.inj eq).2).1.symm
      · exact short a c more rfl
  | case7 b front notPlus notPercent ih =>
    rw [percentDecode_byte notPlus notPercent] at first
    obtain ⟨before, decoded, rfl⟩ := Option.map_eq_some_iff.mp first
    rw [List.cons_append, percentDecode_byte notPlus notPercent, ih _ decoded]
    · rfl
    · exact fun cuts => whole (cuts.append_left [b])

theorem percentDecode_some (whole : ¬ CutsCharacter bytes) :
    ∃ token, percentDecode bytes = some token := by
  rw [← percentDecode_none_iff] at whole
  exact Option.ne_none_iff_exists'.mp whole

/-- What is cut ends the process, and what is signed is decoded though it has no two digits. -/
theorem keepsPercent_iff (bytes : List UInt8) :
    (∃ token, percentDecode bytes = some token) ∧ KeepsPercent bytes ↔
      ¬ CutsCharacter bytes ∧ ¬ SignedEscape bytes := by
  constructor
  · rintro ⟨⟨token, decoded⟩, keeps⟩
    have whole : ¬ CutsCharacter bytes := by
      rw [← percentDecode_none_iff, decoded]
      exact Option.some_ne_none token
    refine ⟨whole, ?_⟩
    rintro ⟨front, y, back, rfl, digit⟩
    obtain ⟨n, isDigit⟩ := Option.isSome_iff_exists.mp digit
    have notDigits : ¬ TwoDigits (43 :: y :: back) := by
      rintro ⟨_, _, _, ⟨rfl, rfl, rfl⟩, none, _⟩
      cases none
    obtain ⟨before, after, isBefore, _, literal⟩ := keeps front _ rfl notDigits
    have whole' : ¬ CutsCharacter (37 :: 43 :: y :: back) := fun cuts => whole (cuts.append_left front)
    have between := between_of_not_cuts whole' 43 y back rfl
    obtain ⟨rest, isRest⟩ := percentDecode_some fun cuts => whole' (cuts.append_left [37, 43, y])
    have second := percentDecode_hex ((fromStrRadix_plus y).trans isDigit) between
    rw [isRest, Option.map_some] at second
    rw [percentDecode_split whole isBefore second, Option.some.injEq, List.append_cancel_left_eq,
      List.cons.injEq] at literal
    have other : ∀ n < 16, Char.ofNat n ≠ '%' := by decide
    exact other n (hexByte_lt isDigit) literal.1
  · rintro ⟨whole, unsigned⟩
    refine ⟨percentDecode_some whole, ?_⟩
    rintro front rest rfl notDigits
    obtain ⟨before, first⟩ := percentDecode_some fun cuts => whole (cuts.append_right (37 :: rest))
    have whole' : ¬ CutsCharacter (37 :: rest) := fun cuts => whole (cuts.append_left front)
    obtain ⟨after, second⟩ := percentDecode_some fun cuts => whole' (cuts.append_left [37])
    refine ⟨before, after, first, second, percentDecode_split whole first ?_⟩
    rw [percentDecode_literal (between_of_not_cuts whole'), second, Option.map_some]
    rintro x y after rfl
    exact fromStrRadix_none notDigits fun signed => unsigned (signed.append_left front)

/-! ## The token behind an encoding -/

theorem unreserved_byte (plain : unreserved b = true) :
    b ≠ 43 ∧ b ≠ 37 ∧ isContinuation b = false := by
  refine ⟨?_, ?_, ?_⟩
  · rintro rfl
    cases plain
  · rintro rfl
    cases plain
  · rw [← Bool.not_eq_true]
    intro inside
    simp only [unreserved, isContinuation, Bool.or_eq_true, Bool.and_eq_true, decide_eq_true_eq,
      beq_iff_eq, UInt8.le_iff_toNat_le, UInt8.lt_iff_toNat_lt, ← UInt8.toNat_inj,
      UInt8.reduceToNat] at plain inside
    omega

/-- An encoding begins a character. -/
theorem PercentEncoding.head {value : List UInt8} (encoding : PercentEncoding bytes value) :
    value.head?.any isContinuation = false := by
  cases encoding with
  | nil => rfl
  | cons written rest =>
    cases written with
    | plain isPlain => exact (unreserved_byte isPlain).2.2
    | plus => rfl
    | escaped => rfl

/-- Decoding an encoding takes every byte for a character. -/
theorem percentDecode_encoding {value : List UInt8} (encoding : PercentEncoding bytes value) :
    percentDecode value = some (bytes.map fun b => Char.ofNat b.toNat) := by
  induction encoding with
  | nil => rfl
  | @cons b bytes piece rest written encoding ih =>
    cases written with
    | plain isPlain =>
      obtain ⟨notPlus, notPercent, _⟩ := unreserved_byte isPlain
      rw [List.singleton_append, percentDecode_byte notPlus notPercent, ih]
      rfl
    | plus =>
      rw [List.singleton_append, percentDecode_plus, ih]
      rfl
    | escaped _ first second =>
      have hex := fromStrRadix_digits first second
      rw [Nat.div_add_mod'] at hex
      change percentDecode (37 :: _ :: _ :: rest) = _
      rw [percentDecode_hex hex encoding.head, ih]
      rfl

theorem utf8Size_eq_one_iff {c : Char} : c.utf8Size = 1 ↔ c.toNat < 128 := by
  rw [Char.utf8Size_eq_one_iff, UInt32.le_iff_toNat_le]
  exact Nat.lt_succ_iff.symm

/-- A character of one byte is that byte. -/
theorem utf8EncodeChar_map {c : Char} (ascii : c.toNat < 128) :
    ((String.utf8EncodeChar c).map fun b => Char.ofNat b.toNat) = [c] := by
  have byte : c.val.toUInt8.toNat = c.toNat := by
    rw [UInt32.toNat_toUInt8, Char.toNat_val]
    exact Nat.mod_eq_of_lt (by omega)
  rw [String.utf8EncodeChar_eq_singleton (utf8Size_eq_one_iff.mpr ascii), List.map_singleton, byte,
    Char.ofNat_toNat]

theorem length_flatMap_encode (chars : List Char) :
    chars.length ≤ (chars.flatMap String.utf8EncodeChar).length := by
  induction chars with
  | nil => exact Nat.le_refl 0
  | cons c rest ih =>
    have := c.utf8Size_pos
    rw [List.flatMap_cons, List.length_append, String.length_utf8EncodeChar, List.length_cons]
    omega

/-- The bytes are the characters exactly if there is one for each. -/
theorem encode_map_iff (chars : List Char) :
    ((chars.flatMap String.utf8EncodeChar).map fun b => Char.ofNat b.toNat) = chars ↔
      ∀ c ∈ chars, c.toNat < 128 := by
  induction chars with
  | nil => simp
  | cons c rest ih =>
    rw [List.flatMap_cons, List.map_append, List.forall_mem_cons, ← ih]
    constructor
    · intro eq
      have length := congrArg List.length eq
      have atLeast := length_flatMap_encode rest
      have pos := c.utf8Size_pos
      rw [List.length_append, List.length_map, List.length_map, String.length_utf8EncodeChar,
        List.length_cons] at length
      have ascii : c.toNat < 128 := utf8Size_eq_one_iff.mp (by omega)
      rw [utf8EncodeChar_map ascii] at eq
      exact ⟨ascii, (List.cons.inj eq).2⟩
    · rintro ⟨ascii, same⟩
      rw [utf8EncodeChar_map ascii, same]
      rfl

theorem percentDecode_encodes_iff {token value : String} (encodes : Encodes token value) :
    percentDecode (asBytes value) = some token.toList ↔ ∀ c ∈ token.toList, c.toNat < 128 := by
  rw [percentDecode_encoding encodes, Option.some.injEq]
  exact encode_map_iff token.toList

/-! ## The echo -/

variable {query : Option String} {value : String}

theorem validationToken_panic (found : rawToken query = some value)
    (cut : percentDecode (asBytes value) = none) : validationToken query = .error .panic := by
  simp only [validationToken, found, cut]

theorem validationToken_some {chars : List Char} (found : rawToken query = some value)
    (decoded : percentDecode (asBytes value) = some chars) :
    validationToken query = .ok (some (String.ofList chars)) := by
  simp only [validationToken, found, decoded]

theorem validationToken_ok_iff (query : Option String) :
    (∃ token, validationToken query = .ok token) ↔
      ∀ value, rawToken query = some value → ¬ CutsCharacter (asBytes value) := by
  cases found : rawToken query with
  | none => simp [validationToken, found]
  | some value =>
    simp only [Option.some.injEq, forall_eq', ← percentDecode_none_iff]
    cases decoded : percentDecode (asBytes value) with
    | none => simp [validationToken_panic found decoded]
    | some chars => simp [validationToken_some found decoded]

theorem handle_echo_iff {crates : Crates} {m : DispatchMsg} {token : String}
    (may : mayValidate m = true) (found : rawToken m.query = some value) :
    handleTeamsDispatch crates (.dispatch m) = .ok (validationReply token, []) ↔
      percentDecode (asBytes value) = some token.toList := by
  rw [handleTeamsDispatch, if_pos may]
  cases decoded : percentDecode (asBytes value) with
  | none => simp [validationToken_panic found decoded]
  | some chars =>
    simp only [validationToken_some found decoded, validationReply, Except.ok.injEq, Prod.mk.injEq,
      HttpReply.mk.injEq, true_and, and_true, Option.some.injEq]
    rw [← String.toList_inj, String.toList_ofList]

/-- A token is echoed as it is exactly if it is ASCII. The decoder returns for a value, and
keeps every percent that begins no escape, exactly if the value has no escape that cuts a
character and none with a sign. -/
theorem echo_exact_iff (crates : Crates) :
    (∀ token value, Encodes token value →
        (percentDecode (asBytes value) = some token.toList ↔ ∀ c ∈ token.toList, c.toNat < 128) ∧
        ∀ m : DispatchMsg, mayValidate m = true → rawToken m.query = some value →
          (handleTeamsDispatch crates (.dispatch m) = .ok (validationReply token, []) ↔
            ∀ c ∈ token.toList, c.toNat < 128)) ∧
      (∀ value, (∃ token, percentDecode (asBytes value) = some token) ∧
          KeepsPercent (asBytes value) ↔
        ¬ CutsCharacter (asBytes value) ∧ ¬ SignedEscape (asBytes value)) ∧
      ∀ query, (∃ token, validationToken query = .ok token) ↔
        ∀ value, rawToken query = some value → ¬ CutsCharacter (asBytes value) := by
  refine ⟨?_, fun value => keepsPercent_iff (asBytes value), validationToken_ok_iff⟩
  intro token value encodes
  refine ⟨percentDecode_encodes_iff encodes, ?_⟩
  intro m may found
  rw [handle_echo_iff may found, percentDecode_encodes_iff encodes]

theorem encodes_space : Encodes "a b" "a+b" := by
  have token : asBytes "a b" = [97, 32, 98] := by decide
  have value : asBytes "a+b" = [97] ++ ([43] ++ ([98] ++ [])) := by decide
  rw [Encodes, token, value]
  exact .cons (.plain rfl) (.cons .plus (.cons (.plain rfl) .nil))

theorem echo_exact_iff_space :
    Encodes "a b" "a+b" ∧ percentDecode (asBytes "a+b") = some "a b".toList := by
  have ascii : ("a b".toList.all fun c => c.toNat < 128) = true := by decide
  have same := ((echo_exact_iff plainCrates).1 "a b" "a+b" encodes_space).1
  exact ⟨encodes_space, same.mpr fun c mem => by simpa using List.all_eq_true.mp ascii c mem⟩

theorem encodes_accent : Encodes "é" "%C3%A9" := by
  have token : asBytes "é" = [195, 169] := by decide
  have value : asBytes "%C3%A9" = [37, 67, 51] ++ ([37, 65, 57] ++ []) := by decide
  rw [Encodes, token, value]
  exact .cons (.escaped rfl rfl rfl) (.cons (.escaped rfl rfl rfl) .nil)

/-- A letter of two bytes comes back as two letters, a slice may end inside it, and a sign is
taken for a digit. -/
theorem echo_not_exact :
    (Encodes "é" "%C3%A9" ∧ percentDecode (asBytes "%C3%A9") = some "Ã©".toList ∧
        "Ã©".toList ≠ "é".toList) ∧
      validationToken (some "validationToken=%aé") = .error .panic ∧
      percentDecode (asBytes "%+a") = some "\n".toList ∧ ¬ KeepsPercent (asBytes "%+a") := by
  have signed : percentDecode (asBytes "%+a") = some "\n".toList := by decide
  refine ⟨⟨encodes_accent, by decide, by decide⟩, ?_, signed, ?_⟩
  · have found : rawToken (some "validationToken=%aé") = some "%aé" := by decide
    exact validationToken_panic found (by decide)
  · intro keeps
    exact ((keepsPercent_iff _).mp ⟨⟨_, signed⟩, keeps⟩).2 ⟨[], 97, [], by decide, by decide⟩

end Whdr.Ext.Teams
