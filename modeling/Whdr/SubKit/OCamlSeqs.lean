import Whdr.SubKit.TextKits

/-! A u64 on its way through the OCaml kit (frame.ml, resume.ml): the number in an event frame,
the signed cursor, and the number in the next subscribe frame. -/
namespace Whdr.Kits.OCaml

/-! ## Numbers in and out of yojson -/

/-- The values of `Yojson.Safe` that the kit reads and writes. -/
inductive Yojson
  | int (i : Int)
  | intlit (text : Text)
  | string (s : String)
  | list (items : List Yojson)
  | assoc (fields : List (String × Yojson))

/-- An integer in a text is an `Int` if it fits the native `int` of 63 bits; any other keeps
its literal. -/
def ofLiteral (n : Int) : Yojson :=
  if -2 ^ 62 ≤ n ∧ n < 2 ^ 62 then .int n else .intlit (Json.renderInt n)

def decimal (text : Text) : Option Nat :=
  if text ≠ [] ∧ text.all Char.isDigit then some (Nat.ofDigitChars 10 text 0) else none

/-- `Int64.of_string` of decimal digits, after a sign or the `0u` of an unsigned number. -/
def int64OfString : Text → Option Int
  | '0' :: 'u' :: text => do
    let n ← decimal text
    if n < 2 ^ 64 then some (int64 n) else none
  | '-' :: text => do
    let n ← decimal text
    if n ≤ 2 ^ 63 then some (-n) else none
  | text => do
    let n ← decimal text
    if n < 2 ^ 63 then some n else none

def int64OfDecimal (s : Text) : Option Int :=
  match int64OfString s with
  | some n => some n
  | none => int64OfString ('0' :: 'u' :: s)

/-- `to_int64`, without the floats. -/
def ofYojson : Yojson → Option Int
  | .int i => some i
  | .intlit s => int64OfDecimal s
  | .string _ | .list _ | .assoc _ => none

inductive ClientMsg
  | subscribe (patterns : List String) (afterSeq : Option Int)
  | unsubscribe (patterns : List String)
  | ping

def clientMsgToJson : ClientMsg → Yojson
  | .subscribe patterns afterSeq =>
    let base := [("type", .string "subscribe"), ("patterns", .list (patterns.map .string))]
    let base := match afterSeq with
      | some s => base ++ [("replay", .assoc [("after_seq", .intlit (Json.renderInt s))])]
      | none => base
    .assoc base
  | .unsubscribe patterns =>
    .assoc [("type", .string "unsubscribe"), ("patterns", .list (patterns.map .string))]
  | .ping => .assoc [("type", .string "ping")]

/-- yojson escapes the delete character too. -/
def escape (c : Char) : Text :=
  if c = '\x7f' then ['\\', 'u', '0', '0', '7', 'f'] else Json.escape c

def quoted (s : String) : Text := '\x22' :: (s.toList.flatMap escape ++ ['\x22'])

mutual

/-- `Yojson.Safe.to_string`; a literal is written as it is. -/
def write : Yojson → Text
  | .int i => Json.renderInt i
  | .intlit text => text
  | .string s => quoted s
  | .list [] => ['[', ']']
  | .list (v :: rest) => '[' :: (write v ++ writeItems rest ++ [']'])
  | .assoc [] => ['\x7b', '\x7d']
  | .assoc ((key, v) :: rest) =>
    '\x7b' :: (quoted key ++ ':' :: (write v ++ writeFields rest ++ ['\x7d']))

def writeItems : List Yojson → Text
  | [] => []
  | v :: rest => ',' :: (write v ++ writeItems rest)

def writeFields : List (String × Yojson) → Text
  | [] => []
  | (key, v) :: rest => ',' :: (quoted key ++ ':' :: (write v ++ writeFields rest))

end

def clientMsgToString (m : ClientMsg) : Text := write (clientMsgToJson m)

/-! ## Reading a number -/

theorem isDigit_toDigits {n : Nat} {c : Char} (mem : c ∈ Nat.toDigits 10 n) : c.isDigit = true :=
  Nat.isDigit_of_mem_toDigits (by decide) (by decide) mem

theorem decimal_toDigits (n : Nat) : decimal (Nat.toDigits 10 n) = some n := by
  have digits : (Nat.toDigits 10 n).all Char.isDigit = true :=
    List.all_eq_true.mpr fun _ => isDigit_toDigits
  rw [decimal, if_pos ⟨Nat.toDigits_ne_nil, digits⟩, Nat.ofDigitChars_ten_toDigits]

theorem int64OfString_toDigits (n : Nat) :
    int64OfString (Nat.toDigits 10 n) = if n < 2 ^ 63 then some (n : Int) else none := by
  have read := decimal_toDigits n
  have digits : ∀ c ∈ Nat.toDigits 10 n, c.isDigit = true := fun _ => isDigit_toDigits
  revert read digits
  generalize Nat.toDigits 10 n = text
  intro read digits
  unfold int64OfString
  split
  · exact absurd (digits 'u' (by simp)) (by decide)
  · exact absurd (digits '-' (by simp)) (by decide)
  · rw [read]
    rfl

theorem int64OfString_unsigned (n : Nat) :
    int64OfString ('0' :: 'u' :: Nat.toDigits 10 n) =
      if n < 2 ^ 64 then some (int64 n) else none := by
  rw [int64OfString, decimal_toDigits]
  rfl

theorem int64OfDecimal_toDigits (n : Nat) :
    int64OfDecimal (Nat.toDigits 10 n) = if n < 2 ^ 64 then some (int64 n) else none := by
  rw [int64OfDecimal, int64OfString_toDigits, int64OfString_unsigned]
  by_cases small : n < 2 ^ 63
  · rw [if_pos small, if_pos (by omega), int64_small small]
  · rw [if_neg small]

theorem int64OfDecimal_minus (n : Nat) :
    int64OfDecimal ('-' :: Nat.toDigits 10 n) = if n ≤ 2 ^ 63 then some (-n : Int) else none := by
  have signed : int64OfString ('-' :: Nat.toDigits 10 n) =
      if n ≤ 2 ^ 63 then some (-n : Int) else none := by
    rw [int64OfString, decimal_toDigits]
    rfl
  have unsigned : int64OfString ('0' :: 'u' :: '-' :: Nat.toDigits 10 n) = none := by
    have sign : ¬('-' :: Nat.toDigits 10 n).all Char.isDigit = true := by simp
    rw [int64OfString, decimal, if_neg fun both => sign both.2]
    rfl
  rw [int64OfDecimal, signed, unsigned]
  split
  · rename_i small
    simp_all
  · rename_i large
    simp_all

/-- Whichever way a number takes, the kit reads what the model of its frames does. -/
theorem ofYojson_ofLiteral (n : Int) : ofYojson (ofLiteral n) = toInt64 (.num n) := by
  unfold ofLiteral
  split
  · rename_i native
    cases n with
    | ofNat n =>
      have small : n < 2 ^ 62 := by
        have := native.2
        simp only [Int.ofNat_eq_natCast] at this
        omega
      have read : toInt64 (.num n) = some (int64 n) := if_pos (show n < 2 ^ 64 by omega)
      rw [Int.ofNat_eq_natCast, read, int64_small (show n < 2 ^ 63 by omega)]
      rfl
    | negSucc n =>
      have small : n < 2 ^ 63 := by omega
      exact (if_pos small).symm
  · rename_i wide
    cases n with
    | ofNat n => exact int64OfDecimal_toDigits n
    | negSucc n =>
      refine (int64OfDecimal_minus (n + 1)).trans ?_
      by_cases small : n < 2 ^ 63
      · rw [if_pos (show n + 1 ≤ 2 ^ 63 by omega)]
        exact (if_pos small).symm
      · rw [if_neg (show ¬n + 1 ≤ 2 ^ 63 by omega)]
        exact (if_neg small).symm

/-! ## Two events and the subscribe frame after them -/

/-- The subscribe frame with the text `afterSeq` for the cursor. -/
def subscribeText (patterns : List String) (afterSeq : Text) : Text :=
  "\x7b\"type\":\"subscribe\",\"patterns\":".toList ++ write (.list (patterns.map .string)) ++
    ",\"replay\":\x7b\"after_seq\":".toList ++ afterSeq ++ "\x7d\x7d".toList

/-- What the u64s of two events, `c` recorded before `s`, should come to: the test for a fresh
id, the cursor after it and the text sent with it are those of the unsigned numbers. -/
def Faithful (r : Resume) (c s : StampedEvent) (patterns : List String) : Prop :=
  ∃ old new, parseServerFrame (Wire.toJson (SubServerMsg.event c)) = some (.event old) ∧
    parseServerFrame (Wire.toJson (SubServerMsg.event s)) = some (.event new) ∧
    (r.record old.id old.seq).shouldProcess new.id new.seq = decide (s.seq > c.seq) ∧
    ((r.record old.id old.seq).record new.id new.seq).cursor = int64 (max c.seq s.seq) ∧
    clientMsgToString (.subscribe patterns
      (some ((r.record old.id old.seq).record new.id new.seq).cursor)) =
        subscribeText patterns (Nat.toDigits 10 (max c.seq s.seq))

/-- The numbers of an event are u64. -/
structure U64 (e : StampedEvent) : Prop where
  seq : e.seq < 2 ^ 64
  tsMs : e.tsMs < 2 ^ 64

theorem parse_event {e : StampedEvent} (u64 : U64 e) :
    parseServerFrame (Wire.toJson (SubServerMsg.event e)) =
      some (.event { Rust.deliveredEvent e with seq := int64 e.seq, tsMs := int64 e.tsMs }) := by
  have seq : toInt64 (.num e.seq) = some (int64 e.seq) := if_pos u64.seq
  have tsMs : toInt64 (.num e.tsMs) = some (int64 e.tsMs) := if_pos u64.tsMs
  simp [parseServerFrame, Wire.toJson, Wire.tag, Wire.uuid, str, i64, List.lookup_cons, seq, tsMs,
    Rust.deliveredEvent]

theorem subscribe_text (patterns : List String) (cursor : Int) :
    clientMsgToString (.subscribe patterns (some cursor)) =
      subscribeText patterns (Json.renderInt cursor) := by
  have front : '\x7b' :: (quoted "type" ++ ':' :: (quoted "subscribe" ++
      ',' :: (quoted "patterns" ++ [':']))) =
      "\x7b\"type\":\"subscribe\",\"patterns\":".toList := by decide
  have back : ',' :: (quoted "replay" ++ ':' :: '\x7b' :: (quoted "after_seq" ++ [':'])) =
      ",\"replay\":\x7b\"after_seq\":".toList := by decide
  have ends : ['\x7d', '\x7d'] = "\x7d\x7d".toList := by decide
  unfold subscribeText
  rw [← front, ← back, ← ends]
  simp only [clientMsgToString, clientMsgToJson, write, writeFields, List.cons_append,
    List.nil_append, List.append_nil, List.append_assoc]

/-! ## Signed and unsigned -/

theorem int64_large {n : Nat} (large : 2 ^ 63 ≤ n) (u64 : n < 2 ^ 64) :
    int64 n = (n : Int) - 2 ^ 64 := by
  rw [int64, BitVec.toInt_ofNat', Int.bmod_def]
  omega

/-- The signed test is the unsigned one for two numbers on the same side of 2^63. -/
theorem signed_lt_iff {c s : Nat} (c64 : c < 2 ^ 64) (s64 : s < 2 ^ 64) :
    (int64 c < int64 s ↔ c < s) ↔ (c < 2 ^ 63 ↔ s < 2 ^ 63) := by
  by_cases cSmall : c < 2 ^ 63
  · by_cases sSmall : s < 2 ^ 63
    · rw [int64_small cSmall, int64_small sSmall]
      omega
    · rw [int64_small cSmall, int64_large (by omega) s64]
      omega
  · by_cases sSmall : s < 2 ^ 63
    · rw [int64_large (by omega) c64, int64_small sSmall]
      omega
    · rw [int64_large (by omega) c64, int64_large (by omega) s64]
      omega

/-- What is printed of a cursor is the number it stands for, below 2^63 only. -/
theorem printed_iff {n : Nat} (u64 : n < 2 ^ 64) :
    Json.renderInt (int64 n) = Nat.toDigits 10 n ↔ n < 2 ^ 63 := by
  constructor
  · intro printed
    by_contra large
    obtain ⟨k, negative⟩ : ∃ k, int64 n = .negSucc k := by
      rw [int64_large (by omega) u64]
      exact ⟨2 ^ 64 - 1 - n, by omega⟩
    rw [negative, Json.renderInt] at printed
    have sign : '-' ∈ Nat.toDigits 10 n := printed ▸ List.mem_cons_self
    exact absurd (isDigit_toDigits sign) (by decide)
  · intro small
    rw [int64_small small]
    rfl

theorem subscribeText_inj {patterns : List String} {a b : Text}
    (same : subscribeText patterns a = subscribeText patterns b) : a = b := by
  unfold subscribeText at same
  exact List.append_cancel_left (List.append_cancel_right same)

/-- Whatever the kit had loaded and recorded before `c`, the u64s of `c` and of an event `s`
with a fresh id survive just when both are below 2^63. -/
theorem u64_faithful_iff (earlier : Nat) {r : Resume} {c s : StampedEvent}
    (loaded : r.cursor = int64 earlier) (before : earlier ≤ c.seq) (cU64 : U64 c) (sU64 : U64 s)
    (other : (Rust.deliveredEvent s).id ≠ (Rust.deliveredEvent c).id)
    (fresh : (Rust.deliveredEvent s).id ∉ r.seen) (patterns : List String) :
    Faithful r c s patterns ↔ c.seq < 2 ^ 63 ∧ s.seq < 2 ^ 63 := by
  constructor
  · rintro ⟨old, new, -, -, -, cursor, text⟩
    have largest : max c.seq s.seq < 2 ^ 64 := max_lt cU64.seq sU64.seq
    rw [cursor, subscribe_text] at text
    have small := (printed_iff largest).mp (subscribeText_inj text)
    exact max_lt_iff.mp small
  · rintro ⟨cSmall, sSmall⟩
    have first : max r.cursor (int64 c.seq) = (c.seq : Int) := by
      rw [loaded, int64_small (by omega : earlier < 2 ^ 63), int64_small cSmall]
      omega
    have second : max (c.seq : Int) (int64 s.seq) = ((max c.seq s.seq : Nat) : Int) := by
      rw [int64_small sSmall]
      omega
    have unseen : (Rust.deliveredEvent s).id ∉
        (r.record (Rust.deliveredEvent c).id (int64 c.seq)).seen := by
      intro seen
      exact (seen_record seen).elim other fresh
    refine ⟨_, _, parse_event cU64, parse_event sU64, ?_, ?_, ?_⟩
    · simp only [Resume.shouldProcess, record_cursor, first, int64_small sSmall]
      simp [unseen]
    · rw [record_cursor, record_cursor, first, second, int64_small (max_lt cSmall sSmall)]
    · rw [subscribe_text, record_cursor, record_cursor, first, second]
      rfl

/-- An event of seq 7 and one of seq 9 on a new kit. -/
theorem u64_faithful_small :
    Faithful ⟨0, [], [], 8192⟩ ⟨7, 1, 0, "c", ""⟩ ⟨9, 2, 0, "c", ""⟩ [">"] :=
  (u64_faithful_iff 0 rfl (by decide) ⟨by decide, by decide⟩ ⟨by decide, by decide⟩
    (by decide) (by simp) [">"]).mpr ⟨by decide, by decide⟩

/-- On a new kit the first event of seq 2^63 is not processed, and the next subscribe frame
still has `after_seq` 0. -/
theorem u64_half_lost :
    ¬Faithful ⟨0, [], [], 8192⟩ ⟨0, 1, 0, "c", ""⟩ ⟨2 ^ 63, 2, 0, "c", ""⟩ [">"] := by
  rintro ⟨old, new, oldParsed, newParsed, process, -⟩
  rw [parse_event ⟨by decide, by decide⟩, Option.some.injEq, Frame.event.injEq]
    at oldParsed newParsed
  subst oldParsed newParsed
  revert process
  decide

end Whdr.Kits.OCaml
