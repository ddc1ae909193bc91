import Whdr.Proto.Wire

/-! Messages as lines of JSON (ndjson.rs). -/
namespace Whdr.Ndjson

open Serde (once required omittable defaulted tagged struct list ofOption map ofMap nullable
  nat_num list_arr map_ofMap)
open Wire
open Json (FitsIn FitsItems FitsFields)

/-- The characters of `char::is_whitespace`. -/
def isWhitespace (c : Char) : Bool :=
  let n := c.toNat
  (9 ≤ n && n ≤ 13) || n == 0x20 || n == 0x85 || n == 0xa0 || n == 0x1680 ||
    (0x2000 ≤ n && n ≤ 0x200a) || n == 0x2028 || n == 0x2029 || n == 0x202f || n == 0x205f ||
    n == 0x3000

def trim (line : List Char) : List Char :=
  ((line.dropWhile isWhitespace).reverse.dropWhile isWhitespace).reverse

inductive NdjsonError
  | malformedJson
  deriving DecidableEq, Repr

variable {α : Type} [Wire α] {levels : Nat}

def encodeLine (m : α) : List Char := (toJson m).render ++ ['\n']

/-- `read` is the parser of `serde_json`. -/
def decodeLine (read : List Char → Option Json) (line : List Char) :
    Except NdjsonError (Option α) :=
  let trimmed := trim line
  if trimmed = [] then .ok none
  else
    match (read trimmed).bind ofJson with
    | some m => .ok (some m)
    | none => .error .malformedJson

/-! ## Texts -/

theorem fits_nat {n size : Nat} (small : n < size) (narrow : size ≤ 2 ^ 64) :
    FitsIn levels (.num n) := by
  rw [FitsIn]
  omega

theorem fitsItems_map {β : Type} (encode : β → Json) (items : List β)
    (fits : ∀ b ∈ items, (encode b).FitsIn levels) : FitsItems levels (items.map encode) := by
  induction items with
  | nil => rw [List.map_nil, FitsItems]; trivial
  | cons b items ih =>
    rw [List.map_cons, FitsItems]
    exact ⟨fits b List.mem_cons_self, ih fun c mem => fits c (List.mem_cons_of_mem _ mem)⟩

theorem fits_strings (items : List String) : (strings items).FitsIn (levels + 1) := by
  rw [strings, Json.fits_arr]
  exact fitsItems_map _ _ fun _ _ => Json.fits_str _

theorem fits_headers (headers : OrdMap String String) :
    (ofMap .str headers).FitsIn (levels + 1) := by
  rw [ofMap, Json.fits_obj]
  induction headers.entries with
  | nil => exact Json.fitsFields_nil
  | cons entry entries ih =>
    rw [List.map_cons, Json.fitsFields_cons]
    exact ⟨Json.fits_str _, ih⟩

theorem fits_option (text : Option String) : (ofOption .str text).FitsIn levels := by
  cases text <;> simp [ofOption]

theorem ofUuid_uuid {id : Uuid} (small : id < uuidSize) : ofUuid (uuid id) = some id := by
  simp only [ofUuid, uuid, Serde.string_str, Option.bind_some, String.toList_ofList]
  exact UuidText.parse_hyphenated small

theorem events_back (events : List Event) :
    list (struct ofEvent) (.arr (events.map fun e => .obj (eventFields e))) = some events :=
  list_arr events fun e _ => by simp [struct, ofEvent, eventFields, required, once]

theorem tokens_back {tokens : List TokenSummary} (small : ∀ t ∈ tokens, t.activeConns < u64Size) :
    list (struct ofTokenSummary) (.arr (tokens.map tokenSummary)) = some tokens :=
  list_arr tokens fun t mem => by
    simp [struct, ofTokenSummary, tokenSummary, required, once, nat_num (small t mem)]

theorem headers_back (headers : OrdMap String String) :
    map Serde.string (ofMap .str headers) = some headers :=
  map_ofMap headers fun _ => rfl

theorem httpReply_back {http : HttpReply} (small : http.status < u16Size) :
    struct ofHttpReply (httpReply http) = some http := by
  simp [struct, ofHttpReply, httpReply, required, defaulted, once, nat_num small, headers_back]

theorem replay_back {replay : Option ReplayRequest} (small : ∀ r ∈ replay, r.afterSeq < u64Size) :
    nullable (struct ofReplayRequest) (ofOption replayRequest replay) = some replay := by
  cases replay with
  | none => rfl
  | some r =>
    simp [nullable, ofOption, replayRequest, struct, ofReplayRequest, required, once,
      nat_num (small r rfl)]

theorem level_back (level : LogLevel) : ofLogLevel (.str (levelName level)) = some level := by
  cases level <;> rfl

theorem closingReason_back (reason : ClosingReason) :
    ofClosingReason (closingReason reason) = some reason := by
  cases reason <;> rfl

theorem fits_event (e : Event) : (Json.obj (eventFields e)).FitsIn (levels + 1) := by
  simp [eventFields]

theorem fits_httpReply {http : HttpReply} (small : http.status < u16Size) :
    (httpReply http).FitsIn (levels + 2) := by
  simp [httpReply, fits_nat small (by decide), fits_headers]

theorem fits_replay {replay : Option ReplayRequest} (small : ∀ r ∈ replay, r.afterSeq < u64Size) :
    (ofOption replayRequest replay).FitsIn (levels + 1) := by
  cases replay with
  | none => simp [ofOption]
  | some r => simp [ofOption, replayRequest, fits_nat (small r rfl) (by decide)]

theorem fits_tokenSummary {t : TokenSummary} (small : t.activeConns < u64Size) :
    (tokenSummary t).FitsIn (levels + 1) := by
  simp [tokenSummary, fits_nat small (by decide)]

theorem fits_tag (name : String) (fields : Serde.Fields) :
    (tag name fields).FitsIn (levels + 1) ↔ FitsFields levels fields := by
  simp [tag]

/-! ## Each message is read back -/

/-- An encoder whose objects the decoder reads back. -/
class LawfulWire (α : Type) [Wire α] : Prop where
  back : ∀ {levels : Nat} (m : α), InRangeTo levels m → ofJson (toJson m) = some m
  fits : ∀ {levels : Nat} (m : α), InRangeTo (levels + 2) m → (toJson m).FitsIn (levels + 3)
  isTagged : ∀ m : α, ∃ name fields, toJson m = tag name fields

attribute [local simp] tagged once required omittable defaulted

instance : LawfulWire ExtMsg where
  back m inRange := by
    cases m with
    | register protocol id paths channels info =>
      simp [toJson, ofJson, tag, nat_num inRange.1, strings]
    | result reqId http events =>
      simp [toJson, ofJson, tag, ofUuid_uuid inRange.1, httpReply_back inRange.2, events_back]
    | event ev => simp [toJson, ofJson, tag, ofEvent, eventFields]
    | log level msg => simp [toJson, ofJson, tag, level_back]
  fits {levels} m inRange := by
    cases m with
    | register protocol id paths channels info =>
      have number : FitsIn (levels + 2) (.num protocol) := fits_nat inRange.1 (by decide)
      simp [toJson, fits_tag, number, fits_strings, fits_option, inRange.2]
    | result reqId http events =>
      have items : FitsItems (levels + 1) (events.map fun e => .obj (eventFields e)) :=
        fitsItems_map _ events fun e _ => fits_event e
      simp [toJson, fits_tag, uuid, fits_httpReply inRange.2, items]
    | event ev => simp [toJson, fits_tag, eventFields]
    | log level msg => simp [toJson, fits_tag]
  isTagged m := by cases m <;> exact ⟨_, _, rfl⟩

instance : LawfulWire SrvMsg where
  back m inRange := by
    cases m with
    | dispatch m => simp [toJson, ofJson, tag, ofUuid_uuid inRange, headers_back]
    | shutdown => simp [toJson, ofJson, tag]
  fits m inRange := by
    cases m with
    | dispatch m => simp [toJson, fits_tag, uuid, fits_option, fits_headers]
    | shutdown => simp [toJson, fits_tag]
  isTagged m := by cases m <;> exact ⟨_, _, rfl⟩

instance : LawfulWire SubClientMsg where
  back m inRange := by
    cases m with
    | subscribe patterns replay => simp [toJson, ofJson, tag, strings, replay_back inRange]
    | unsubscribe patterns => simp [toJson, ofJson, tag, strings]
    | ping => simp [toJson, ofJson, tag]
  fits m inRange := by
    cases m with
    | subscribe patterns replay =>
      simp [toJson, fits_tag, fits_strings, fits_replay inRange]
    | unsubscribe patterns => simp [toJson, fits_tag, fits_strings]
    | ping => simp [toJson, fits_tag]
  isTagged m := by cases m <;> exact ⟨_, _, rfl⟩

instance : LawfulWire SubServerMsg where
  back m inRange := by
    cases m with
    | event e =>
      obtain ⟨id, seq, tsMs⟩ := inRange
      simp [toJson, ofJson, tag, ofUuid_uuid id, nat_num seq, nat_num tsMs]
    | replayed throughSeq => simp [toJson, ofJson, tag, nat_num inRange]
    | replayGap fromSeq earliestSeq =>
      simp [toJson, ofJson, tag, nat_num inRange.1, nat_num inRange.2]
    | lagged dropped => simp [toJson, ofJson, tag, nat_num inRange]
    | closing reason => simp [toJson, ofJson, tag, closingReason_back]
    | _ => simp [toJson, ofJson, tag]
  fits m inRange := by
    cases m with
    | event e =>
      obtain ⟨_, seq, tsMs⟩ := inRange
      simp [toJson, fits_tag, uuid, fits_nat seq (by decide), fits_nat tsMs (by decide)]
    | replayed throughSeq => simp [toJson, fits_tag, fits_nat inRange (by decide)]
    | replayGap fromSeq earliestSeq =>
      simp [toJson, fits_tag, fits_nat inRange.1 (by decide),
        fits_nat inRange.2 (by decide)]
    | lagged dropped => simp [toJson, fits_tag, fits_nat inRange (by decide)]
    | closing reason => cases reason <;> simp [toJson, fits_tag, closingReason]
    | _ => simp [toJson, fits_tag]
  isTagged m := by cases m <;> exact ⟨_, _, rfl⟩

instance : LawfulWire ControlRequest where
  back m _ := by cases m <;> simp [toJson, ofJson, tag]
  fits m _ := by cases m <;> simp [toJson, fits_tag]
  isTagged m := by cases m <;> exact ⟨_, _, rfl⟩

instance : LawfulWire ControlResponse where
  back m inRange := by
    cases m with
    | tokens tokens => simp [toJson, ofJson, tag, tokens_back inRange]
    | _ => simp [toJson, ofJson, tag]
  fits {levels} m inRange := by
    cases m with
    | status status =>
      have free : status.json.FitsIn (levels + 2) := inRange
      simp [toJson, fits_tag, free]
    | tokens tokens =>
      have items : FitsItems (levels + 1) (tokens.map tokenSummary) :=
        fitsItems_map tokenSummary tokens fun t mem => fits_tokenSummary (inRange t mem)
      simp [toJson, fits_tag, items]
    | _ => simp [toJson, fits_tag]
  isTagged m := by cases m <;> exact ⟨_, _, rfl⟩

/-! ## Lines -/

/-- An object's text starts and ends with a brace. -/
theorem render_tag (name : String) (fields : Serde.Fields) :
    ∃ inside, (tag name fields).render = '\x7b' :: (inside ++ ['\x7d']) := by
  refine ⟨Json.renderStr "type" ++ ':' :: ((Json.str name).render ++ Json.renderFields fields), ?_⟩
  simp [tag, Json.render]

theorem trim_braces (inside : List Char) :
    trim ('\x7b' :: (inside ++ ['\x7d'])) = '\x7b' :: (inside ++ ['\x7d']) := by
  have front : isWhitespace '\x7b' = false := by decide
  have back : isWhitespace '\x7d' = false := by decide
  simp [trim, front, back]

theorem trim_newline (inside : List Char) :
    trim ('\x7b' :: (inside ++ ['\x7d']) ++ ['\n']) = '\x7b' :: (inside ++ ['\x7d']) := by
  have front : isWhitespace '\x7b' = false := by decide
  have back : isWhitespace '\x7d' = false := by decide
  have newline : isWhitespace '\n' = true := by decide
  simp [trim, front, back, newline]

/-- The messages of one type whose free values nest at most so many levels are read back, one by
one and as a stream of lines. -/
def RoundTrips (read : List Char → Option Json) (levels : Nat) (α : Type) [Wire α] : Prop :=
  (∀ m : α, InRangeTo levels m →
    (encodeLine m).count '\n' = 1 ∧ (encodeLine m).getLast? = some '\n' ∧
      decodeLine read (encodeLine m) = .ok (some m)) ∧
  ∀ ms : List α, (∀ m ∈ ms, InRangeTo levels m) →
    ((ms.flatMap encodeLine).splitOn '\n').map (decodeLine read) =
      ms.map (fun m => .ok (some m)) ++ [.ok none]

section
variable [LawfulWire α] {read : List Char → Option Json}
  (correct : ∀ j : Json, j.FitsIn (levels + 3) → read j.render = some j)

include correct in
/-- A line decodes with its line break and without. -/
theorem decodeLine_line {m : α} (inRange : InRangeTo (levels + 2) m) :
    decodeLine read (toJson m).render = .ok (some m) ∧
      decodeLine read (encodeLine m) = .ok (some m) := by
  obtain ⟨name, fields, isTag⟩ := LawfulWire.isTagged m
  obtain ⟨inside, braces⟩ := render_tag name fields
  rw [← isTag] at braces
  have found : (read (toJson m).render).bind ofJson = some m := by
    rw [correct _ (LawfulWire.fits m inRange), Option.bind_some, LawfulWire.back m inRange]
  rw [braces] at found
  simp only [decodeLine, encodeLine, braces, trim_braces, trim_newline, found, List.cons_ne_nil,
    if_false, and_self]

theorem newline_toJson {m : α} (inRange : InRangeTo (levels + 2) m) : '\n' ∉ (toJson m).render :=
  Json.newline_render _ (LawfulWire.fits m inRange)

/-- The lines of a stream are the texts of its messages, and then nothing. -/
theorem splitOn_lines (ms : List α) (inRange : ∀ m ∈ ms, InRangeTo (levels + 2) m) :
    (ms.flatMap encodeLine).splitOn '\n' = ms.map (fun m => (toJson m).render) ++ [[]] := by
  induction ms with
  | nil => rfl
  | cons m ms ih =>
    have first := newline_toJson (inRange m List.mem_cons_self)
    have others := ih fun n mem => inRange n (List.mem_cons_of_mem _ mem)
    rw [List.flatMap_cons, encodeLine, List.append_assoc, List.singleton_append,
      List.splitOn_append_cons_self_of_not_mem first, others]
    rfl

include correct in
theorem roundTrips : RoundTrips read (levels + 2) α := by
  constructor
  · intro m inRange
    refine ⟨?_, ?_, (decodeLine_line correct inRange).2⟩
    · rw [encodeLine, List.count_append, List.count_eq_zero.mpr (newline_toJson inRange)]
      rfl
    · rw [encodeLine, List.getLast?_append]
      rfl
  · intro ms inRange
    rw [splitOn_lines ms inRange, List.map_append, List.map_map]
    congr 1
    apply List.map_congr_left
    intro m mem
    exact (decodeLine_line correct (inRange m mem)).1

/-- As deep as `serde_json` reads. -/
theorem decodeLine_render (reads : ∀ j : Json, j.Fits → read j.render = some j) {m : α}
    (inRange : InRange m) : decodeLine read (toJson m).render = .ok (some m) ∧
      decodeLine read (encodeLine m) = .ok (some m) :=
  decodeLine_line reads inRange

end

/-- Every message of the six types is one line that decodes to it, and so is every stream
of them: as deep as free values nest, with whatever reads JSON correctly one level deeper. -/
theorem ndjson_round_trip (read : List Char → Option Json) (levels : Nat) (deep : 2 ≤ levels)
    (correct : ∀ j : Json, j.FitsIn (levels + 1) → read j.render = some j) :
    RoundTrips read levels ExtMsg ∧ RoundTrips read levels SrvMsg ∧
      RoundTrips read levels ControlRequest ∧ RoundTrips read levels ControlResponse ∧
      RoundTrips read levels SubClientMsg ∧ RoundTrips read levels SubServerMsg := by
  obtain ⟨rest, rfl⟩ := Nat.exists_eq_add_of_le' deep
  exact ⟨roundTrips correct, roundTrips correct, roundTrips correct, roundTrips correct,
    roundTrips correct, roundTrips correct⟩

/-- The reader of the library is one, at the depth of `serde_json`. -/
theorem ndjson_round_trip_read :
    (∀ j : Json, j.FitsIn (126 + 1) → Json.read j.render = some j) ∧
      RoundTrips Json.read 126 ExtMsg ∧ RoundTrips Json.read 126 SrvMsg ∧
      RoundTrips Json.read 126 ControlRequest ∧ RoundTrips Json.read 126 ControlResponse ∧
      RoundTrips Json.read 126 SubClientMsg ∧ RoundTrips Json.read 126 SubServerMsg :=
  ⟨Json.read_render, ndjson_round_trip Json.read 126 (by decide) Json.read_render⟩

end Whdr.Ndjson
