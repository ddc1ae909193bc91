import Whdr.Ext.Signing

/-! The github extension emits for signed bodies only, and on channels of its own. -/
namespace Whdr.Ext.Github

open Grammar (Plain validateChannel_ok_iff)

variable {crates : Crates} {m : DispatchMsg} {body : List UInt8}

/-- There is a secret, and the signature header is the signature of the body. -/
def Authentic (crates : Crates) (m : DispatchMsg) (body : List UInt8) : Prop :=
  ∃ secret, m.secret = some secret ∧ headerValue m.headers "x-hub-signature-256" =
    some ("sha256=" ++ crates.hexEncode (crates.mac .sha256 (asBytes secret) body))

def eventToken (m : DispatchMsg) : String :=
  channelToken ((headerValue m.headers "x-github-event").getD "unknown")

/-- The action of a webhook, if it is a string. -/
def actionOf (parsed : Serde.Value) : Option String := (get parsed.json "action").bind asStr

def channelOf (m : DispatchMsg) (parsed : Serde.Value) : String :=
  match actionOf parsed with
  | some action => "github." ++ eventToken m ++ "." ++ channelToken action
  | none => "github." ++ eventToken m

/-! ## Tokens -/

theorem channelToken_plain (input : String) : Plain (channelToken input) := by
  unfold channelToken
  dsimp only
  split
  · decide
  · rename_i nonempty
    rw [List.isEmpty_iff] at nonempty
    exact Hmac.channelToken_plain nonempty

theorem channelToken_nonempty (input : String) : (channelToken input).isEmpty = false := by
  have := (channelToken_plain input).1
  simpa using this

theorem tokens_channelOf (m : DispatchMsg) (parsed : Serde.Value) :
    tokens (channelOf m parsed) =
      "github" :: eventToken m :: ((actionOf parsed).map channelToken).toList := by
  have github : Plain "github" := by decide
  have two : tokens ("github." ++ eventToken m) = ["github", eventToken m] := by
    rw [show "github." = "github" ++ "." from rfl, Grammar.tokens_dot,
      Namespaces.tokens_plain github, eventToken, Namespaces.tokens_plain (channelToken_plain _)]
    rfl
  rw [channelOf]
  cases actionOf parsed with
  | none => exact two
  | some action =>
    dsimp only
    rw [Grammar.tokens_dot, two, Namespaces.tokens_plain (channelToken_plain action)]
    rfl

theorem channelOf_owned (m : DispatchMsg) (parsed : Serde.Value) :
    validateEmittedChannel (channelOf m parsed) "github" ["github", "gh"] [] = .ok () := by
  have github : Plain "github" := by decide
  rw [validateEmittedChannel_ok_iff, validateChannel_ok_iff, firstChannelSegment, tokens_channelOf]
  refine ⟨⟨List.cons_ne_nil _ _, ?_⟩, .inl List.mem_cons_self⟩
  intro t mem
  obtain rfl | rfl | mem := by simpa only [List.mem_cons] using mem
  · exact github
  · exact channelToken_plain _
  · obtain ⟨action, _, rfl⟩ := Option.map_eq_some_iff.mp (Option.mem_toList.mp mem)
    exact channelToken_plain action

/-! ## Dispatches -/

theorem signed_iff {secret : String} :
    signed crates m secret body = true ↔ headerValue m.headers "x-hub-signature-256" =
      some ("sha256=" ++ crates.hexEncode (crates.mac .sha256 (asBytes secret) body)) := by
  rw [signed, beq_iff_eq, githubSignature, hmacSha256Hex]
  cases headerValue m.headers "x-hub-signature-256" with
  | none =>
    simp only [Option.getD_none, reduceCtorEq, iff_false]
    intro empty
    exact absurd (congrArg String.toList empty) (by simp)
  | some header => simp

theorem handle_unauthentic (isBody : crates.b64Decode m.bodyB64 = some body)
    (forged : ¬ Authentic crates m body) :
    ∃ text, handleGithubDispatch crates (.dispatch m) = .ok (textReply 401 text, []) := by
  simp only [handleGithubDispatch, decodeBodyB64, isBody, bind, Except.bind, pure, Except.pure]
  cases isSecret : m.secret with
  | none => exact ⟨_, rfl⟩
  | some secret =>
    have unsigned : signed crates m secret body = false := by
      rw [← Bool.not_eq_true]
      intro isSigned
      exact forged ⟨secret, isSecret, signed_iff.mp isSigned⟩
    exact ⟨"invalid signature", by simp only [unsigned, Bool.not_false, if_true]⟩

/-- A signed body that is JSON is answered with one event, any other is an error. -/
theorem handle_authentic (isBody : crates.b64Decode m.bodyB64 = some body)
    (authentic : Authentic crates m body) :
    handleGithubDispatch crates (.dispatch m) =
      match crates.fromSlice body with
      | none => .error (.error "parse github webhook json")
      | some parsed => .ok (textReply 200 "ok", [⟨channelOf m parsed, crates.b64Encode body⟩]) := by
  obtain ⟨secret, isSecret, isHeader⟩ := authentic
  have isSigned := signed_iff.mpr isHeader
  simp only [handleGithubDispatch, decodeBodyB64, isBody, isSecret, isSigned, bind, Except.bind,
    pure, Except.pure, Bool.not_true, Bool.false_eq_true, if_false]
  cases crates.fromSlice body with
  | none => rfl
  | some parsed =>
    dsimp only
    rw [channelOf, actionOf]
    cases (get parsed.json "action").bind asStr with
    | none => rfl
    | some action =>
      simp only [Option.map_some, channelToken_nonempty, Bool.false_eq_true, if_false]
      rfl

/-- Events come from authentic dispatches only: one, with the body, on a channel of the
extension made of the event and the action. Every other dispatch with a body is refused. -/
theorem github_events_authentic (crates : Crates) (lawful : crates.Lawful) (m : DispatchMsg)
    (body : List UInt8) (isBody : crates.b64Decode m.bodyB64 = some body) :
    (∀ reply events, handleGithubDispatch crates (.dispatch m) = .ok (reply, events) →
      events ≠ [] → Authentic crates m body ∧
        ∃ parsed e, crates.fromSlice body = some parsed ∧ events = [e] ∧
          crates.b64Decode e.payloadB64 = some body ∧
          tokens e.channel =
            "github" :: eventToken m :: ((actionOf parsed).map channelToken).toList ∧
          validateEmittedChannel e.channel "github" ["github", "gh"] [] = .ok ()) ∧
      (¬ Authentic crates m body →
        ∃ text, handleGithubDispatch crates (.dispatch m) = .ok (textReply 401 text, [])) := by
  refine ⟨?_, handle_unauthentic isBody⟩
  intro reply events answered some
  by_cases authentic : Authentic crates m body
  · refine ⟨authentic, ?_⟩
    rw [handle_authentic isBody authentic] at answered
    cases parses : crates.fromSlice body with
    | none =>
      rw [parses] at answered
      cases answered
    | some parsed =>
      rw [parses] at answered
      cases answered
      exact ⟨parsed, _, rfl, rfl, lawful.base64 body, tokens_channelOf m parsed,
        channelOf_owned m parsed⟩
  · obtain ⟨text, eq⟩ := handle_unauthentic isBody authentic
    rw [eq] at answered
    cases answered
    exact absurd rfl some

/-! ## One webhook -/

def opened : Json := .obj [("action", .str "Opened.")]

def openedSignature : String :=
  "sha256=" ++ asciiCrates.hexEncode (asciiCrates.mac .sha256 (asBytes "s") (bytesOf opened.render))

def webhook : DispatchMsg :=
  ⟨0, "POST", "/github", none,
    ⟨[("X-GitHub-Event", "issues"), ("X-Hub-Signature-256", openedSignature)],
      List.pairwise_pair.mpr (by decide)⟩,
    asciiCrates.b64Encode (bytesOf opened.render), some "s"⟩

theorem webhook_header : headerValue webhook.headers "x-hub-signature-256" = some openedSignature := by
  have other : eqIgnoreAsciiCase "X-GitHub-Event" "x-hub-signature-256" = false := by decide
  have same : eqIgnoreAsciiCase "X-Hub-Signature-256" "x-hub-signature-256" = true := by decide
  simp only [headerValue, webhook, List.find?_cons, other, same, Option.map_some]

theorem webhook_event : eventToken webhook = "issues" := by
  have same : eqIgnoreAsciiCase "X-GitHub-Event" "x-github-event" = true := by decide
  have found : headerValue webhook.headers "x-github-event" = some "issues" := by
    simp only [headerValue, webhook, List.find?_cons, same, Option.map_some]
  rw [eventToken, found]
  decide

theorem opened_parses : ∃ parsed, asciiCrates.fromSlice (bytesOf opened.render) = some parsed ∧
    actionOf parsed = some "Opened." := by
  have ascii : (opened.render.all fun c => c.toNat < 128) = true := by decide
  have fits : opened.Fits := by simp [opened]
  have parses := asciiCrates_fromSlice (by simpa using ascii)
  rw [Json.read_render _ fits, Option.bind_some, Serde.value] at parses
  have canonical : Serde.Canonical opened := by
    simp [opened, Serde.Canonical, Serde.CanonicalFields]
  refine ⟨_, parses, ?_⟩
  simp only [actionOf, Serde.normalize_canonical _ canonical]
  rfl

theorem github_events_authentic_webhook :
    ∃ e, handleGithubDispatch asciiCrates (.dispatch webhook) = .ok (textReply 200 "ok", [e]) ∧
      asciiCrates.b64Decode e.payloadB64 = some (bytesOf opened.render) ∧
      tokens e.channel = ["github", "issues", "opened"] := by
  have isBody : asciiCrates.b64Decode webhook.bodyB64 = some (bytesOf opened.render) :=
    asciiCrates_lawful.base64 _
  have authentic : Authentic asciiCrates webhook (bytesOf opened.render) := ⟨"s", rfl, webhook_header⟩
  obtain ⟨parsed, parses, action⟩ := opened_parses
  have answered := handle_authentic isBody authentic
  rw [parses] at answered
  dsimp only at answered
  obtain ⟨-, parsed', e, parses', eq, holds, isChannel, -⟩ :=
    (github_events_authentic asciiCrates asciiCrates_lawful webhook _ isBody).1 _ _ answered
      (List.cons_ne_nil _ _)
  obtain rfl : parsed = parsed' := Option.some.inj (parses.symm.trans parses')
  rw [eq] at answered
  refine ⟨e, answered, holds, ?_⟩
  rw [isChannel, webhook_event, action]
  decide

end Whdr.Ext.Github
