import Mathlib.Data.List.Infix
import Whdr.Lib.Json
import Whdr.Server.TokenAtomicity

/-! The texts of the token store: a minted token, its hash, and the file the toml crate
prints for the map (mint_token, record_for, hash_token and persist in token_store.rs). The
digest is the sha2 crate's, the time chrono's: both come from outside. -/
namespace Whdr.TokenStore

open Json (hexDigit)

/-! ## Tokens and hashes -/

def base64Alphabet : List Char :=
  "ABCDEFGHIJKLMNOPQRSTUVWXYZabcdefghijklmnopqrstuvwxyz0123456789-_".toList

def base64Char (n : Nat) : Char := base64Alphabet.getD (n % 64) 'A'

/-- `URL_SAFE_NO_PAD.encode`: three bytes make four characters. -/
def urlSafeNoPad : List UInt8 → List Char
  | a :: b :: c :: rest =>
    base64Char (a.toNat / 4) :: base64Char (a.toNat * 16 + b.toNat / 16) ::
      base64Char (b.toNat * 4 + c.toNat / 64) :: base64Char c.toNat :: urlSafeNoPad rest
  | [a, b] =>
    [base64Char (a.toNat / 4), base64Char (a.toNat * 16 + b.toNat / 16), base64Char (b.toNat * 4)]
  | [a] => [base64Char (a.toNat / 4), base64Char (a.toNat * 16)]
  | [] => []

def mintToken (bytes : List UInt8) : String := "tok_" ++ String.ofList (urlSafeNoPad bytes)

/-- `hex::encode`. -/
def hexEncode (bytes : List UInt8) : List Char :=
  bytes.flatMap fun b => [hexDigit (b.toNat / 16), hexDigit b.toNat]

def hashToken (sha256 : String → List UInt8) (token : String) : String :=
  "sha256:" ++ String.ofList (hexEncode (sha256 token))

/-- The characters `to_rfc3339` prints a UTC time with. -/
def rfc3339Char (c : Char) : Bool :=
  c.isDigit || c == '-' || c == ':' || c == 'T' || c == '.' || c == '+'

/-- What a minting draws: 32 random bytes, and the time of the clock. -/
structure Draw where
  bytes : List UInt8
  created : String
  full : bytes.length = 32
  time : created.toList.all rfc3339Char = true

def Draw.minted (d : Draw) : Minted := ⟨mintToken d.bytes, d.created⟩

theorem base64Char_nameChar (n : Nat) : nameChar (base64Char n) = true := by
  have table : ∀ i < 64, nameChar (base64Alphabet.getD i 'A') = true := by decide +kernel
  exact table _ (Nat.mod_lt _ (by decide))

theorem urlSafeNoPad_nameChar (bytes : List UInt8) :
    ∀ c ∈ urlSafeNoPad bytes, nameChar c = true := by
  intro c mem
  fun_induction urlSafeNoPad bytes with
  | case1 x y z rest ih =>
    simp only [List.mem_cons] at mem
    obtain rfl | rfl | rfl | rfl | mem := mem
    · exact base64Char_nameChar _
    · exact base64Char_nameChar _
    · exact base64Char_nameChar _
    · exact base64Char_nameChar _
    · exact ih mem
  | case2 x y =>
    simp only [List.mem_cons, List.not_mem_nil, or_false] at mem
    obtain rfl | rfl | rfl := mem <;> exact base64Char_nameChar _
  | case3 x =>
    simp only [List.mem_cons, List.not_mem_nil, or_false] at mem
    obtain rfl | rfl := mem <;> exact base64Char_nameChar _
  | case4 => cases mem

theorem mintToken_toList (bytes : List UInt8) :
    (mintToken bytes).toList = 't' :: 'o' :: 'k' :: '_' :: urlSafeNoPad bytes := by
  simp [mintToken]

theorem mintToken_nameChar (bytes : List UInt8) :
    ∀ c ∈ (mintToken bytes).toList, nameChar c = true := by
  have lead : ∀ c ∈ "tok_".toList, nameChar c = true := by simp [nameChar]
  intro c mem
  simp only [mintToken, String.toList_append, String.toList_ofList, List.mem_append] at mem
  obtain mem | mem := mem
  · exact lead c mem
  · exact urlSafeNoPad_nameChar bytes c mem

/-- A token could be a name. -/
theorem mintToken_valid (bytes : List UInt8) : validateName (mintToken bytes) = .ok () := by
  have all : (mintToken bytes).toList.all nameChar = true :=
    List.all_eq_true.mpr (mintToken_nameChar bytes)
  have nonempty : (mintToken bytes).toList.isEmpty = false := by rw [mintToken_toList]; rfl
  simp only [validateName, nonempty, all, Bool.not_true, Bool.or_false, Bool.false_eq_true, if_false]

/-! ## The file -/

/-- A character a TOML basic string holds as it is. -/
def plainChar (c : Char) : Bool := 32 ≤ c.toNat && c.toNat < 127 && c != '"' && c != '\\'

/-- The names are bare keys, and the strings need no escapes. -/
def Plain (tokens : Tokens) : Prop :=
  ∀ name record, tokens.get? name = some record →
    validateName name = .ok () ∧ record.hash.toList.all plainChar = true ∧
      record.created.toList.all plainChar = true

/-- One table for each token, with an empty line between two. -/
def tomlText (tokens : Tokens) : String :=
  "\n".intercalate (tokens.entries.map fun (name, record) => oneTable name record)

/-- The toml crate on plain maps: what it prints, and that it reads it back. -/
structure Toml.Documented (toml : Toml) : Prop where
  text : ∀ tokens, Plain tokens → toml.toStringPretty tokens = tomlText tokens
  read : ∀ tokens, Plain tokens → toml.fromStr (tomlText tokens) = some tokens

/-! ## The file as characters -/

variable {sha256 : String → List UInt8}

def hashKey : List Char := "\nhash = \"".toList

def createdKey : List Char := "\ncreated = \"".toList

/-- A table after its header, up to the quote that ends its last line. -/
def bodyChars (record : TokenRecord) : List Char :=
  hashKey ++ (record.hash.toList ++ '"' :: (createdKey ++ (record.created.toList ++ ['"'])))

/-- The tables, each after a line end of its own. -/
def tableLines : List (String × TokenRecord) → List Char
  | [] => []
  | (name, record) :: rest =>
    '\n' :: '[' :: (name.toList ++ ']' :: (bodyChars record ++ '\n' :: tableLines rest))

theorem oneTable_toList (name : String) (record : TokenRecord) :
    (oneTable name record).toList =
      '[' :: (name.toList ++ ']' :: (bodyChars record ++ ['\n'])) := by
  have opening : "[".toList = ['['] := rfl
  have hash : "]\nhash = \"".toList = ']' :: hashKey := rfl
  have created : "\"\ncreated = \"".toList = '"' :: createdKey := rfl
  have closing : "\"\n".toList = ['"', '\n'] := rfl
  rw [oneTable, bodyChars]
  simp only [String.toList_append]
  rw [opening, hash, created, closing]
  simp only [List.append_assoc, List.cons_append, List.nil_append]

/-- The file is its tables less the first line end. -/
theorem newline_intercalate (e : String × TokenRecord) (rest : List (String × TokenRecord)) :
    '\n' :: ['\n'].intercalate ((e :: rest).map fun (name, record) => (oneTable name record).toList)
      = tableLines (e :: rest) := by
  induction rest generalizing e with
  | nil =>
    simp [oneTable_toList, tableLines]
  | cons f rest ih =>
    rw [tableLines, ← ih f]
    simp [oneTable_toList, List.intercalate_cons_cons]

theorem tomlText_toList (tokens : Tokens) :
    (tomlText tokens).toList = (tableLines tokens.entries).tail := by
  rw [tomlText, String.toList_intercalate, List.map_map]
  cases tokens.entries with
  | nil => rfl
  | cons e rest => rw [← newline_intercalate]; rfl

/-! ## Where a token can stand in it -/

theorem before_separator {w xs ys : List Char} {c : Char} (fresh : c ∉ w)
    (starts : w <+: xs ++ c :: ys) : w <+: xs := by
  induction xs generalizing w with
  | nil =>
    cases w with
    | nil => exact List.nil_prefix
    | cons a w =>
      obtain ⟨rfl, _⟩ := List.cons_prefix_cons.mp starts
      exact absurd List.mem_cons_self fresh
  | cons x xs ih =>
    cases w with
    | nil => exact List.nil_prefix
    | cons a w =>
      obtain ⟨rfl, rest⟩ := List.cons_prefix_cons.mp starts
      have fresh : c ∉ w := fun mem => fresh (List.mem_cons_of_mem _ mem)
      exact List.cons_prefix_cons.mpr ⟨rfl, ih fresh rest⟩

/-- A word without the separator is on one side of it. -/
theorem beside_separator {w xs ys : List Char} {c : Char} (fresh : c ∉ w)
    (inside : w <:+: xs ++ c :: ys) : w <:+: xs ∨ w <:+: ys := by
  induction xs with
  | nil =>
    obtain starts | inside := List.infix_cons_iff.mp inside
    · exact .inl (before_separator fresh starts).isInfix
    · exact .inr inside
  | cons x xs ih =>
    obtain starts | inside := List.infix_cons_iff.mp inside
    · exact .inl (before_separator fresh starts).isInfix
    · obtain left | right := ih inside
      · exact .inl (left.trans (List.infix_cons (List.infix_refl xs)))
      · exact .inr right

/-- A record as record_for makes it. -/
def Written (sha256 : String → List UInt8) (record : TokenRecord) : Prop :=
  (∃ token, record.hash = hashToken sha256 token) ∧ record.created.toList.all rfc3339Char = true

theorem hexDigit_plain (n : Nat) : plainChar (hexDigit n) = true ∧ hexDigit n ≠ '_' := by
  have table : ∀ d < 16, plainChar (Nat.digitChar d) = true ∧ Nat.digitChar d ≠ '_' := by decide
  exact table _ (Nat.mod_lt _ (by decide))

theorem hashToken_plain (token : String) :
    ∀ c ∈ (hashToken sha256 token).toList, plainChar c = true ∧ c ≠ '_' := by
  have lead : ∀ c ∈ "sha256:".toList, plainChar c = true ∧ c ≠ '_' := by simp [plainChar]
  intro c mem
  simp only [hashToken, String.toList_append, String.toList_ofList, List.mem_append] at mem
  obtain mem | mem := mem
  · exact lead c mem
  · obtain ⟨b, _, mem⟩ := List.mem_flatMap.mp mem
    simp only [List.mem_cons, List.not_mem_nil, or_false] at mem
    obtain rfl | rfl := mem <;> exact hexDigit_plain _

theorem rfc3339Char_plain {c : Char} (time : rfc3339Char c = true) :
    plainChar c = true ∧ c ≠ '_' := by
  simp only [rfc3339Char, Bool.or_eq_true, beq_iff_eq] at time
  obtain ((((digit | rfl) | rfl) | rfl) | rfl) | rfl := time
  · have range : 48 ≤ c.toNat ∧ c.toNat ≤ 57 := Char.isDigit_iff_toNat.mp digit
    have apart : ∀ d : Char, d.toNat < 48 ∨ 57 < d.toNat → c ≠ d := by
      rintro d outside rfl
      omega
    refine ⟨?_, apart _ (by decide)⟩
    simp only [plainChar, Bool.and_eq_true, decide_eq_true_eq, bne_iff_ne]
    exact ⟨⟨⟨by omega, by omega⟩, apart _ (by decide)⟩, apart _ (by decide)⟩
  · decide
  · decide
  · decide
  · decide
  · decide

/-- What record_for wrote needs no escapes and has no underscore. -/
theorem Written.plain {record : TokenRecord} (written : Written sha256 record) :
    (∀ c ∈ record.hash.toList, plainChar c = true ∧ c ≠ '_') ∧
      ∀ c ∈ record.created.toList, plainChar c = true ∧ c ≠ '_' := by
  obtain ⟨⟨token, hash⟩, time⟩ := written
  constructor
  · rw [hash]
    exact hashToken_plain token
  · intro c mem
    exact rfc3339Char_plain (List.all_eq_true.mp time c mem)

theorem bodyChars_underscore {record : TokenRecord} (written : Written sha256 record) :
    '_' ∉ bodyChars record := by
  have hash : '_' ∉ hashKey := by decide
  have created : '_' ∉ createdKey := by decide
  intro mem
  simp only [bodyChars, List.mem_append, List.mem_cons, List.not_mem_nil, or_false] at mem
  obtain mem | mem | quote | mem | mem | quote := mem
  · exact hash mem
  · exact (written.plain.1 _ mem).2 rfl
  · exact absurd quote (by decide)
  · exact created mem
  · exact (written.plain.2 _ mem).2 rfl
  · exact absurd quote (by decide)

/-- A token's characters but the underscore stand elsewhere too; the separators stand in no
token, and the underscore in names alone. -/
theorem token_in_lines (bytes : List UInt8) {entries : List (String × TokenRecord)}
    (written : ∀ e ∈ entries, Written sha256 e.2)
    (inside : (mintToken bytes).toList <:+: tableLines entries) :
    ∃ e ∈ entries, (mintToken bytes).toList <:+: e.1.toList := by
  have separator : ∀ c, nameChar c = false → c ∉ (mintToken bytes).toList := by
    intro c no mem
    rw [mintToken_nameChar bytes c mem] at no
    cases no
  have underscore : '_' ∈ (mintToken bytes).toList := by simp [mintToken_toList]
  induction entries with
  | nil =>
    rw [tableLines, List.infix_nil] at inside
    rw [inside] at underscore
    cases underscore
  | cons e rest ih =>
    obtain ⟨name, record⟩ := e
    have written_rest : ∀ e ∈ rest, Written sha256 e.2 := fun e mem =>
      written e (List.mem_cons_of_mem _ mem)
    -- the first line end and the bracket, then name, body and the other tables
    have inside : (mintToken bytes).toList <:+: ['\n'] ++ '[' :: (name.toList ++ ']' ::
        (bodyChars record ++ '\n' :: tableLines rest)) := inside
    obtain inside | inside := beside_separator (separator '[' (by decide)) inside
    · exact absurd (inside.subset underscore) (by decide)
    obtain inside | inside := beside_separator (separator ']' (by decide)) inside
    · exact ⟨(name, record), List.mem_cons_self, inside⟩
    obtain inside | inside := beside_separator (separator '\n' (by decide)) inside
    · exact absurd (inside.subset underscore) (bodyChars_underscore (written _ List.mem_cons_self))
    · obtain ⟨e, mem, inside⟩ := ih written_rest inside
      exact ⟨e, List.mem_cons_of_mem _ mem, inside⟩

/-- A token value stands in the file only inside a name. -/
theorem token_in_text (bytes : List UInt8) {tokens : Tokens}
    (written : ∀ name record, tokens.get? name = some record → Written sha256 record)
    (inside : (mintToken bytes).toList <:+: (tomlText tokens).toList) :
    ∃ name record, tokens.get? name = some record ∧
      (mintToken bytes).toList <:+: name.toList := by
  rw [tomlText_toList] at inside
  have inside := inside.trans (List.tail_suffix _).isInfix
  obtain ⟨⟨name, record⟩, mem, inside⟩ := token_in_lines bytes
    (fun e mem => written e.1 e.2 ((tokens.get?_eq_some_iff _ _).mpr mem)) inside
  exact ⟨name, record, (tokens.get?_eq_some_iff _ _).mpr mem, inside⟩

/-- Every name stands in the file. -/
theorem name_in_text {tokens : Tokens} {name : String} {record : TokenRecord}
    (found : tokens.get? name = some record) : name.toList <:+: (tomlText tokens).toList := by
  rw [tokens.get?_eq_some_iff] at found
  rw [tomlText_toList]
  generalize tokens.entries = entries at found ⊢
  induction entries with
  | nil => cases found
  | cons e rest ih =>
    obtain ⟨other, r⟩ := e
    obtain same | found := List.mem_cons.mp found
    · cases same
      exact ⟨['['], ']' :: (bodyChars record ++ '\n' :: tableLines rest), by simp [tableLines]⟩
    · have later : tableLines rest <:+ (tableLines ((other, r) :: rest)).tail :=
        ⟨'[' :: (other.toList ++ ']' :: (bodyChars r ++ ['\n'])), by simp [tableLines]⟩
      exact (ih found).trans ((List.tail_suffix _).trans later).isInfix

/-! ## Reading it back -/

theorem nameChar_of_valid {name : String} (valid : validateName name = .ok ()) :
    ∀ c ∈ name.toList, nameChar c = true := by
  by_cases bad : (name.toList.isEmpty || !name.toList.all nameChar) = true
  · rw [validateName, if_pos bad] at valid
    cases valid
  · have all : name.toList.all nameChar = true := by simp_all
    exact List.all_eq_true.mp all

theorem plain_of_written {tokens : Tokens}
    (valid : ∀ name record, tokens.get? name = some record → validateName name = .ok ())
    (written : ∀ name record, tokens.get? name = some record → Written sha256 record) :
    Plain tokens := by
  intro name record found
  have plain := (written name record found).plain
  exact ⟨valid name record found, List.all_eq_true.mpr fun c mem => (plain.1 c mem).1,
    List.all_eq_true.mpr fun c mem => (plain.2 c mem).1⟩

theorem tomlText_blank {tokens : Tokens} (blank : isBlank (tomlText tokens) = true) :
    tokens = .empty := by
  obtain ⟨entries, ascending⟩ := tokens
  cases entries with
  | nil => rfl
  | cons e rest =>
    rw [isBlank, tomlText_toList] at blank
    exact absurd blank (by simp [tableLines, whiteSpace])

theorem Toml.Documented.roundTrips {toml : Toml} (crate : toml.Documented) {tokens : Tokens}
    (plain : Plain tokens) : toml.RoundTrips tokens := by
  constructor
  · rw [crate.text tokens plain]
    exact crate.read tokens plain
  · rw [crate.text tokens plain]
    exact tomlText_blank

/-- Two texts are cut at their first separator. -/
theorem at_separator {c : Char} {xs ys as bs : List Char} (left : c ∉ xs) (right : c ∉ ys)
    (same : xs ++ c :: as = ys ++ c :: bs) : xs = ys ∧ as = bs := by
  induction xs generalizing ys with
  | nil =>
    cases ys with
    | nil => exact ⟨rfl, (List.cons.inj same).2⟩
    | cons y ys => exact absurd ((List.cons.inj same).1 ▸ List.mem_cons_self) right
  | cons x xs ih =>
    cases ys with
    | nil => exact absurd ((List.cons.inj same).1 ▸ List.mem_cons_self) left
    | cons y ys =>
      obtain ⟨rfl, tail⟩ := List.cons.inj same
      have left : c ∉ xs := fun mem => left (List.mem_cons_of_mem _ mem)
      have right : c ∉ ys := fun mem => right (List.mem_cons_of_mem _ mem)
      obtain ⟨rfl, rest⟩ := ih left right tail
      exact ⟨rfl, rest⟩

def Unquoted (record : TokenRecord) : Prop :=
  '"' ∉ record.hash.toList ∧ '"' ∉ record.created.toList

theorem bodyChars_injective {r q : TokenRecord} {xs ys : List Char} (hr : Unquoted r)
    (hq : Unquoted q) (same : bodyChars r ++ xs = bodyChars q ++ ys) : r = q ∧ xs = ys := by
  obtain ⟨rhash, rcreated⟩ := r
  obtain ⟨qhash, qcreated⟩ := q
  simp only [bodyChars, List.append_assoc, List.append_cancel_left_eq, List.cons_append,
    List.nil_append] at same
  obtain ⟨hash, same⟩ := at_separator hr.1 hq.1 same
  obtain ⟨created, rest⟩ := at_separator hr.2 hq.2 (List.append_cancel_left same)
  rw [String.toList_inj] at hash created
  exact ⟨(TokenRecord.mk.injEq ..).mpr ⟨hash, created⟩, rest⟩

theorem tableLines_injective {es fs : List (String × TokenRecord)}
    (plainE : ∀ e ∈ es, ']' ∉ e.1.toList ∧ Unquoted e.2)
    (plainF : ∀ e ∈ fs, ']' ∉ e.1.toList ∧ Unquoted e.2)
    (same : tableLines es = tableLines fs) : es = fs := by
  induction es generalizing fs with
  | nil =>
    cases fs with
    | nil => rfl
    | cons f fs => cases same
  | cons e es ih =>
    cases fs with
    | nil => cases same
    | cons f fs =>
      obtain ⟨headE, restE⟩ := List.forall_mem_cons.mp plainE
      obtain ⟨headF, restF⟩ := List.forall_mem_cons.mp plainF
      simp only [tableLines, List.cons.injEq, true_and] at same
      obtain ⟨name, same⟩ := at_separator headE.1 headF.1 same
      obtain ⟨record, same⟩ := bodyChars_injective headE.2 headF.2 same
      have rest := ih restE restF (List.cons.inj same).2
      rw [String.toList_inj] at name
      rw [rest, Prod.ext name record]

/-- Plain maps with the same text are the same map. -/
theorem tomlText_injective {tokens others : Tokens} (plain : Plain tokens)
    (plain' : Plain others) (same : tomlText tokens = tomlText others) : tokens = others := by
  have separated : ∀ {tokens : Tokens}, Plain tokens →
      ∀ e ∈ tokens.entries, ']' ∉ e.1.toList ∧ Unquoted e.2 := by
    intro tokens plain e mem
    obtain ⟨valid, hash, created⟩ := plain e.1 e.2 ((tokens.get?_eq_some_iff _ _).mpr mem)
    refine ⟨?_, ?_, ?_⟩
    · intro bracket
      exact absurd (nameChar_of_valid valid _ bracket) (by decide)
    · intro quote
      exact absurd (List.all_eq_true.mp hash _ quote) (by decide)
    · intro quote
      exact absurd (List.all_eq_true.mp created _ quote) (by decide)
  have chars := congrArg String.toList same
  rw [tomlText_toList, tomlText_toList] at chars
  obtain ⟨es, ascE⟩ := tokens
  obtain ⟨fs, ascF⟩ := others
  have lines : tableLines es = tableLines fs := by
    cases es with
    | nil =>
      cases fs with
      | nil => rfl
      | cons f fs => cases chars
    | cons e es =>
      cases fs with
      | nil => cases chars
      | cons f fs =>
        simp only [tableLines, List.tail_cons] at chars ⊢
        rw [chars]
  have entries := tableLines_injective (separated plain) (separated plain') lines
  subst entries
  rfl

open Classical in
/-- A crate that prints the documented text and finds the map it printed. -/
noncomputable def printedToml : Toml where
  toStringPretty := tomlText
  fromStr text :=
    if printed : ∃ tokens, Plain tokens ∧ tomlText tokens = text then some printed.choose else none

theorem printedToml_documented : printedToml.Documented := by
  constructor
  · intro tokens _
    rfl
  · intro tokens plain
    have printed : ∃ others, Plain others ∧ tomlText others = tomlText tokens :=
      ⟨tokens, plain, rfl⟩
    have found := tomlText_injective printed.choose_spec.1 plain printed.choose_spec.2
    simp only [printedToml, printed, dite_true, found]

end Whdr.TokenStore
