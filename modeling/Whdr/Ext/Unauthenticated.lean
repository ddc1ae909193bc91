import Whdr.Ext.Handlers

/-! Requests without a valid credential, and what stops an extension that gets one. -/
namespace Whdr.Ext

open Wire (InRange InRangeTo)

inductive Handler
  | github
  | hmac (config : Hmac.HmacConfig)
  | teams

def described (text : String) : Serde.Value :=
  ⟨.obj [("description", .str text)], by simp [Serde.Canonical, Serde.CanonicalFields]⟩

/-- What each `main` passes to `run_extension`. -/
def extension (crates : Crates) : Handler → Extension
  | .github => ⟨"github", ["gh"], [], described "GitHub webhook extension",
      Github.handleGithubDispatch crates⟩
  | .hmac config => ⟨"hmac", [], [config.channelPrefix],
      described "Generic HMAC signature-verification webhook extension",
      Hmac.handleHmacDispatch crates config⟩
  | .teams => ⟨"teams", [], [], described "Microsoft Teams webhook extension",
      Teams.handleTeamsDispatch crates⟩

/-- The request's signature is right for its body, or an item's client state is the secret. -/
def Authenticated (crates : Crates) (handler : Handler) (m : DispatchMsg) (body : List UInt8) :
    Prop :=
  ∃ secret, m.secret = some secret ∧
    match handler with
    | .github => Github.signed crates m secret body = true
    | .hmac config => ∃ header signature, headerValue m.headers config.header = some header ∧
        Hmac.signature config header = some signature ∧
        Hmac.provided crates config signature =
          some (crates.mac config.algorithm (asBytes secret) body)
    | .teams => ∃ parsed values item, crates.fromSlice body = some parsed ∧
        (get parsed.json "value").bind asArray = some values ∧ item ∈ values ∧
        Teams.clientState item = secret

/-- The dispatch carries this body. -/
def Carries (crates : Crates) (m : DispatchMsg) (body : List UInt8) : Prop :=
  m.bodyB64 = crates.b64Encode body

namespace Teams

/-- A `%`, and three bytes on a byte inside a character. -/
def CutsCharacter (bytes : List UInt8) : Prop :=
  ∃ front x y c back, bytes = front ++ 37 :: x :: y :: c :: back ∧ isContinuation c = true

/-- The token the handler is to echo, as it is in the query. -/
def tokenOf (m : DispatchMsg) : Option String := if mayValidate m then rawToken m.query else none

/-- The token can be decoded, or there is none and the body is JSON. -/
def Harmless (crates : Crates) (m : DispatchMsg) (body : List UInt8) : Prop :=
  match tokenOf m with
  | some value => ¬ CutsCharacter (asBytes value)
  | none => (crates.fromSlice body).isSome = true

theorem not_cuts_nil : ¬ CutsCharacter [] := by
  rintro ⟨front, x, y, c, back, eq, _⟩
  exact absurd (congrArg List.length eq) (by simp)

/-- A byte that is no `%` changes nothing. -/
theorem cuts_cons {b : UInt8} (ne : b ≠ 37) (rest : List UInt8) :
    CutsCharacter (b :: rest) ↔ CutsCharacter rest := by
  constructor
  · rintro ⟨front, x, y, c, back, eq, inside⟩
    cases front with
    | nil => exact absurd (List.cons.inj eq).1 ne
    | cons first front => exact ⟨front, x, y, c, back, (List.cons.inj eq).2, inside⟩
  · rintro ⟨front, x, y, c, back, rfl, inside⟩
    exact ⟨b :: front, x, y, c, back, rfl, inside⟩

/-- A `%` whose slice ends between characters changes nothing. -/
theorem cuts_percent {rest : List UInt8}
    (whole : ∀ x y c back, rest = x :: y :: c :: back → isContinuation c = false) :
    CutsCharacter (37 :: rest) ↔ CutsCharacter rest := by
  constructor
  · rintro ⟨front, x, y, c, back, eq, inside⟩
    cases front with
    | nil =>
      rw [whole x y c back (List.cons.inj eq).2] at inside
      cases inside
    | cons first front => exact ⟨front, x, y, c, back, (List.cons.inj eq).2, inside⟩
  · rintro ⟨front, x, y, c, back, rfl, inside⟩
    exact ⟨37 :: front, x, y, c, back, rfl, inside⟩

theorem hexByte_ne {b : UInt8} {n : Nat} (digit : hexByte b = some n) : b ≠ 37 := by
  rintro rfl
  cases digit

theorem fromStrRadix_ne {x y : UInt8} {n : Nat} (hex : fromStrRadix x y = some n) :
    x ≠ 37 ∧ y ≠ 37 := by
  unfold fromStrRadix at hex
  split at hex
  · rename_i plus
    exact ⟨by rw [plus]; decide, hexByte_ne hex⟩
  · obtain ⟨a, first, more⟩ := Option.bind_eq_some_iff.mp hex
    obtain ⟨b, second, _⟩ := Option.bind_eq_some_iff.mp more
    exact ⟨hexByte_ne first, hexByte_ne second⟩

/-- Decoding panics exactly at a slice that ends inside a character: what it skips holds no
other `%`. -/
theorem percentDecode_none_iff (bytes : List UInt8) :
    percentDecode bytes = none ↔ CutsCharacter bytes := by
  induction bytes using percentDecode.induct with
  | case1 => simp [percentDecode, not_cuts_nil]
  | case2 rest ih =>
    rw [percentDecode.eq_def]
    simp only [↓reduceIte, Option.map_eq_none_iff, ih]
    rw [cuts_cons (by decide)]
  | case3 x y after inside ne =>
    rw [percentDecode.eq_def]
    simp only [ne, inside, ↓reduceIte, true_iff]
    cases after with
    | nil => cases inside
    | cons c back => exact ⟨[], x, y, c, back, rfl, inside⟩
  | case4 x y after whole hex isHex ne ih =>
    obtain ⟨neX, neY⟩ := fromStrRadix_ne isHex
    have between : ∀ x' y' c back, x :: y :: after = x' :: y' :: c :: back →
        isContinuation c = false := by
      rintro _ _ c back ⟨rfl, rfl, rfl⟩
      simpa using whole
    rw [percentDecode.eq_def]
    simp only [ne, whole, isHex, ↓reduceIte, Bool.false_eq_true, Option.map_eq_none_iff, ih]
    rw [cuts_percent between, cuts_cons neX, cuts_cons neY]
  | case5 x y after whole notHex ne ih =>
    have between : ∀ x' y' c back, x :: y :: after = x' :: y' :: c :: back →
        isContinuation c = false := by
      rintro _ _ c back ⟨rfl, rfl, rfl⟩
      simpa using whole
    rw [percentDecode.eq_def]
    simp only [ne, whole, notHex, ↓reduceIte, Bool.false_eq_true, Option.map_eq_none_iff, ih]
    rw [cuts_percent between]
  | case6 rest short ne ih =>
    rw [percentDecode.eq_def]
    simp only [ne, ↓reduceIte]
    rw [cuts_percent fun x y c back eq => (short x y (c :: back) eq).elim, ← ih,
      Option.map_eq_none_iff]
  | case7 b rest notPlus notPercent ih =>
    rw [percentDecode.eq_def]
    simp only [notPlus, notPercent, ↓reduceIte, Option.map_eq_none_iff, ih]
    rw [cuts_cons notPercent]

end Teams

/-! ## When each handler answers -/

section
variable {crates : Crates} {m : DispatchMsg} {body : List UInt8}
  (b64 : ∀ bytes, crates.b64Decode (crates.b64Encode bytes) = some bytes)

include b64 in
theorem decodeBody_ok (carries : Carries crates m body) :
    decodeBodyB64 crates m.bodyB64 = .ok body := by
  rw [decodeBodyB64, carries, b64]

include b64 in
/-- The body is only parsed once its signature is right. -/
theorem github_answers (carries : Carries crates m body)
    (unsigned : ¬ Authenticated crates .github m body) :
    (Github.handleGithubDispatch crates (.dispatch m)).isOk = true := by
  simp only [Github.handleGithubDispatch, decodeBody_ok b64 carries, bind, Except.bind]
  cases secret : m.secret with
  | none => rfl
  | some secret' =>
    have wrong : Github.signed crates m secret' body = false := by
      by_contra right
      exact unsigned ⟨secret', secret, by simpa using right⟩
    dsimp only
    rw [wrong]
    rfl

include b64 in
/-- Nothing here fails on a body. -/
theorem hmac_answers (config : Hmac.HmacConfig) (carries : Carries crates m body) :
    (Hmac.handleHmacDispatch crates config (.dispatch m)).isOk = true := by
  simp only [Hmac.handleHmacDispatch, decodeBody_ok b64 carries, bind, Except.bind]
  split
  · rfl
  split
  · rfl
  split
  · rfl
  split
  · rfl
  split <;> rfl

include b64 in
/-- A notification is answered exactly if its body parses, before anything is checked. -/
theorem notification_answers_iff (carries : Carries crates m body) :
    (Teams.notification crates m).isOk = true ↔ (crates.fromSlice body).isSome = true := by
  simp only [Teams.notification, decodeBody_ok b64 carries, bind, Except.bind]
  cases crates.fromSlice body with
  | none => simp [Except.isOk, Except.toBool]
  | some parsed =>
    dsimp only
    split
    · exact ⟨fun _ => rfl, fun _ => rfl⟩
    split
    · exact ⟨fun _ => rfl, fun _ => rfl⟩
    split <;> exact ⟨fun _ => rfl, fun _ => rfl⟩

include b64 in
theorem teams_answers_iff (carries : Carries crates m body) :
    (Teams.handleTeamsDispatch crates (.dispatch m)).isOk = true ↔
      Teams.Harmless crates m body := by
  simp only [Teams.handleTeamsDispatch, Teams.Harmless, Teams.tokenOf]
  split
  · rw [Teams.validationToken]
    cases Teams.rawToken m.query with
    | none => exact notification_answers_iff b64 carries
    | some value =>
      dsimp only
      rw [← Teams.percentDecode_none_iff]
      cases Teams.percentDecode (asBytes value) <;> simp [Except.isOk, Except.toBool]
  · exact notification_answers_iff b64 carries

end

/-- Whatever requests come without a valid credential, the github and hmac extensions answer
each with one result until the shutdown; the teams extension does exactly if each is
harmless. -/
theorem unauthenticated_served_iff (read : List Char → Option Json)
    (correct : ∀ j : Json, j.Fits → read j.render = some j) (crates : Crates)
    (b64 : ∀ bytes, crates.b64Decode (crates.b64Encode bytes) = some bytes) (handler : Handler)
    (msgs : List SrvMsg) (inRange : ∀ m ∈ msgs, InRange m) (bodyOf : DispatchMsg → List UInt8)
    (carries : ∀ m ∈ requested msgs, Carries crates m (bodyOf m))
    (unauthenticated : ∀ m ∈ requested msgs, ¬ Authenticated crates handler m (bodyOf m)) :
    Serves read (extension crates handler) msgs ↔
      (handler = .teams → ∀ m ∈ requested msgs, Teams.Harmless crates m (bodyOf m)) := by
  rw [serves_iff correct msgs inRange]
  cases handler with
  | github =>
    refine ⟨fun _ => (by rintro ⟨⟩), fun _ m mem => ?_⟩
    exact github_answers b64 (carries m mem) (unauthenticated m mem)
  | hmac config =>
    refine ⟨fun _ => (by rintro ⟨⟩), fun _ m mem => ?_⟩
    exact hmac_answers b64 config (carries m mem)
  | teams =>
    simp only [forall_const]
    exact forall₂_congr fun m mem => teams_answers_iff b64 (carries m mem)

/-! ## Two requests with an empty body -/

/-- Crates that agree with the real ones on empty bytes. -/
def plainCrates : Crates where
  b64Encode bytes := String.ofList (bytes.map fun b => Char.ofNat b.toNat)
  b64Decode text := some (text.toList.map fun c => UInt8.ofNat c.toNat)
  hexEncode bytes := String.ofList (bytes.flatMap fun b => UuidText.hexChars 2 b.toNat)
  hexDecode text := if text.isEmpty then some [] else none
  mac _ _ _ := []
  fromSlice bytes := (Json.read (bytes.map fun b => Char.ofNat b.toNat)).bind Serde.value

theorem plainCrates_b64 (bytes : List UInt8) :
    plainCrates.b64Decode (plainCrates.b64Encode bytes) = some bytes := by
  simp only [plainCrates, String.toList_ofList, List.map_map]
  congr 1
  refine List.map_id'' (fun b => ?_) bytes
  have valid : b.toNat.isValidChar := .inl (Nat.lt_trans b.toNat_lt (by decide))
  have same : (Char.ofNat b.toNat).toNat = b.toNat := by
    rw [Char.ofNat, dif_pos valid]
    rfl
  dsimp only [Function.comp]
  rw [same, UInt8.ofNat_toNat]

def emptyPost (secret : Option String) : DispatchMsg :=
  ⟨0, "POST", "/hook", none, .empty, "", secret⟩

theorem unauthenticated_served_iff_no_secret :
    Serves Json.read (extension plainCrates .github) [.dispatch (emptyPost none), .shutdown] :=
  (unauthenticated_served_iff Json.read Json.read_render plainCrates plainCrates_b64 .github
    [.dispatch (emptyPost none), .shutdown] (by simp [InRange, InRangeTo, emptyPost, Wire.uuidSize])
    (fun _ => []) (by simp [requested, Carries, emptyPost, plainCrates])
    (by
      rintro m mem ⟨secret, isSome, _⟩
      rw [List.mem_singleton.mp mem] at isSome
      cases isSome)).mpr (by rintro ⟨⟩)

/-- An empty body ends the teams extension, whoever sends it. -/
theorem teams_stopped_by_empty_body :
    ¬ ∀ m : DispatchMsg, m.reqId < Wire.uuidSize → Carries plainCrates m [] →
      ¬ Authenticated plainCrates .teams m [] →
      Serves Json.read (extension plainCrates .teams) [.dispatch m] := by
  intro all
  have served := all (emptyPost (some "secret")) (by decide) rfl (by
    rintro ⟨_, _, parsed, _, _, parses, _⟩
    cases parses)
  rw [serves_iff Json.read_render _
    (by simp [InRange, InRangeTo, emptyPost, Wire.uuidSize])] at served
  have answered := served (emptyPost (some "secret")) List.mem_cons_self
  cases answered

end Whdr.Ext
