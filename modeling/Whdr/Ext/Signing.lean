import Whdr.Ext.Channels
import Whdr.Ext.Encodings
import Whdr.Ext.Unauthenticated
import Whdr.Server.Namespaces

/-! The hmac extension accepts what its signer signs and nothing else, and emits under the
prefix it registered. -/
namespace Whdr.Ext.Hmac

open Grammar (Plain IsChannel validateChannel_ok_iff)
open Ndjson (trim isWhitespace)

variable {crates : Crates} {config : HmacConfig} {m : DispatchMsg} {body : List UInt8}
variable {secret header : String}

/-- The header is the configured prefix and, but for white space around it, a text that decodes
to the MAC. -/
def Verifies (crates : Crates) (config : HmacConfig) (secret : String) (body : List UInt8)
    (header : String) : Prop :=
  ∃ rest, header.toList = (config.sigPrefix.getD "").toList ++ rest ∧
    config.encoding.decode crates (String.ofList (trim rest)) =
      some (crates.mac config.algorithm (asBytes secret) body)

/-- The dispatch has a secret and a signature header that verifies. -/
def Accepted (crates : Crates) (config : HmacConfig) (m : DispatchMsg) (body : List UInt8) : Prop :=
  ∃ secret header, m.secret = some secret ∧ headerValue m.headers config.header = some header ∧
    Verifies crates config secret body header

/-! ## Signatures -/

theorem stripPrefix_eq_some_iff {text front rest : String} :
    stripPrefix text front = some rest ↔ text.toList = front.toList ++ rest.toList := by
  rw [stripPrefix]
  split
  · rename_i isFront
    obtain ⟨more, eq⟩ := List.isPrefixOf_iff_prefix.mp isFront
    rw [← eq, Option.some.injEq, List.drop_left, List.append_cancel_left_eq, ← String.toList_inj,
      String.toList_ofList]
  · rename_i notFront
    simp only [reduceCtorEq, false_iff]
    intro eq
    exact notFront (List.isPrefixOf_iff_prefix.mpr ⟨_, eq.symm⟩)

theorem signature_eq_some_iff {rest : String} :
    signature config header = some rest ↔
      header.toList = (config.sigPrefix.getD "").toList ++ rest.toList := by
  rw [signature]
  cases config.sigPrefix with
  | some front => exact stripPrefix_eq_some_iff
  | none => simp [String.toList_inj]

/-- The three steps of the handler decide whether a header verifies. -/
theorem verifies_iff :
    Verifies crates config secret body header ↔
      ∃ rest, signature config header = some rest ∧ provided crates config rest =
        some (crates.mac config.algorithm (asBytes secret) body) := by
  simp only [signature_eq_some_iff, provided, Verifies]
  constructor
  · rintro ⟨rest, eq, decoded⟩
    exact ⟨String.ofList rest, by simpa using eq, by simpa using decoded⟩
  · rintro ⟨rest, eq, decoded⟩
    exact ⟨rest.toList, eq, decoded⟩

theorem trim_solid {text : List Char} (solid : ∀ c ∈ text, isWhitespace c = false) :
    trim text = text := by
  have stays {text : List Char} (solid : ∀ c ∈ text, isWhitespace c = false) :
      text.dropWhile isWhitespace = text := by
    cases text with
    | nil => rfl
    | cons c rest => exact List.dropWhile_cons_of_neg (by simp [solid c List.mem_cons_self])
  rw [trim, stays solid, stays (by simpa using solid), List.reverse_reverse]

theorem decode_encode (lawful : crates.Lawful) (encoding : Encoding) (bytes : List UInt8) :
    encoding.decode crates (String.ofList (trim (encoding.encode crates bytes).toList)) =
      some bytes := by
  cases encoding with
  | hex =>
    rw [Encoding.encode, trim_solid (lawful.hexSolid bytes), String.ofList_toList]
    exact lawful.hex bytes
  | base64 =>
    rw [Encoding.encode, trim_solid (lawful.base64Solid bytes), String.ofList_toList]
    exact lawful.base64 bytes

/-- What is signed verifies. -/
theorem sign_verifies (lawful : crates.Lawful) (config : HmacConfig) (secret : String)
    (body : List UInt8) : Verifies crates config secret body (sign crates config secret body) := by
  refine ⟨_, ?_, decode_encode lawful config.encoding _⟩
  rw [sign]
  cases config.sigPrefix with
  | some front => exact String.toList_append
  | none => rfl

/-! ## Dispatches -/

theorem handle_verified (isBody : crates.b64Decode m.bodyB64 = some body)
    (isSecret : m.secret = some secret)
    (isHeader : headerValue m.headers config.header = some header)
    (verifies : Verifies crates config secret body header) :
    handleHmacDispatch crates config (.dispatch m) = .ok (textReply 200 "ok",
      [⟨deriveChannel config.channelPrefix m.path, crates.b64Encode body⟩]) := by
  obtain ⟨rest, isSignature, isProvided⟩ := verifies_iff.mp verifies
  simp only [handleHmacDispatch, decodeBodyB64, isBody, isSecret, isHeader, isSignature, isProvided,
    bind, Except.bind, ne_eq, not_true_eq_false, ↓reduceIte]
  rfl

theorem handle_refused (isBody : crates.b64Decode m.bodyB64 = some body)
    (refused : ¬ Accepted crates config m body) :
    ∃ text, handleHmacDispatch crates config (.dispatch m) = .ok (textReply 401 text, []) := by
  simp only [handleHmacDispatch, decodeBodyB64, isBody, bind, Except.bind, pure, Except.pure]
  cases isSecret : m.secret with
  | none => exact ⟨_, rfl⟩
  | some secret =>
    cases isHeader : headerValue m.headers config.header with
    | none => exact ⟨_, rfl⟩
    | some header =>
      cases isSignature : signature config header with
      | none => exact ⟨"malformed signature", by simp only [isSignature]⟩
      | some rest =>
        cases isProvided : provided crates config rest with
        | none => exact ⟨"malformed signature", by simp only [isSignature, isProvided]⟩
        | some bytes =>
          have other : bytes ≠ crates.mac config.algorithm (asBytes secret) body := by
            intro same
            apply refused
            exact ⟨secret, header, isSecret, isHeader,
              verifies_iff.mpr ⟨rest, isSignature, by rw [isProvided, same]⟩⟩
          refine ⟨"invalid signature", ?_⟩
          simp only [isSignature, isProvided, if_pos other]

/-! ## Channels -/

theorem channelToken_plain {segment : List Char} (some : channelToken segment ≠ []) :
    Plain (String.ofList (channelToken segment)) := by
  constructor
  · intro empty
    exact some (by simpa using congrArg String.toList empty)
  · intro c mem
    rw [String.toList_ofList] at mem
    obtain ⟨d, _, rfl⟩ := List.mem_map.mp (mem_of_mem_trimMatches mem)
    exact Grammar.plainChar_iff.mp (tokenChar_plain d)

/-- A channel of the grammar under a prefix. -/
def Under (pre channel : String) : Prop :=
  validateChannel channel = .ok () ∧ channelIsInPrefix channel pre = true

theorem Under.push {pre channel token : String} (under : Under pre channel) (plain : Plain token) :
    Under pre (channel ++ "." ++ token) := by
  obtain ⟨valid, isIn⟩ := under
  constructor
  · rw [validateChannel_ok_iff, Grammar.tokens_dot, Namespaces.tokens_plain plain]
    obtain ⟨_, all⟩ := validateChannel_ok_iff.mp valid
    refine ⟨by simp, fun t mem => ?_⟩
    obtain mem | mem := List.mem_append.mp mem
    · exact all t mem
    · rw [List.mem_singleton.mp mem]
      exact plain
  · rw [channelIsInPrefix_iff]
    right
    obtain rfl | ⟨rest, eq⟩ := channelIsInPrefix_iff.mp isIn
    · exact ⟨token.toList, by simp [String.toList_append]⟩
    · exact ⟨rest ++ '.' :: token.toList, by simp [String.toList_append, eq]⟩

theorem deriveChannel_under {pre : String} (valid : validateChannel pre = .ok ()) (path : String) :
    Under pre (deriveChannel pre path) := by
  have start : Under pre pre := ⟨valid, Namespaces.channelIsInPrefix_self pre⟩
  rw [deriveChannel]
  -- one segment after the other keeps the channel under the prefix
  generalize (path.toList.splitOn '/').drop 2 = segments
  suffices all : ∀ channel, Under pre channel → Under pre (segments.foldl (fun channel segment =>
      let token := channelToken segment
      if token.isEmpty then channel else channel ++ "." ++ String.ofList token) channel) from
    all pre start
  induction segments with
  | nil => exact fun _ under => under
  | cons segment rest ih =>
    intro channel under
    rw [List.foldl_cons]
    apply ih
    dsimp only
    split
    · exact under
    · rename_i some
      exact under.push (channelToken_plain (by simpa using some))

/-- Whatever has an event is accepted, and its event is under the prefix. -/
theorem handle_events {reply : HttpReply} {events : List Event}
    (answered : handleHmacDispatch crates config (.dispatch m) = .ok (reply, events)) :
    ∀ e ∈ events, e.channel = deriveChannel config.channelPrefix m.path := by
  intro e mem
  cases isBody : crates.b64Decode m.bodyB64 with
  | none =>
    simp only [handleHmacDispatch, decodeBodyB64, isBody, bind, Except.bind] at answered
    cases answered
  | some body =>
    by_cases accepted : Accepted crates config m body
    · obtain ⟨secret, header, isSecret, isHeader, verifies⟩ := accepted
      rw [handle_verified isBody isSecret isHeader verifies] at answered
      cases answered
      rw [List.mem_singleton.mp mem]
    · obtain ⟨text, eq⟩ := handle_refused isBody accepted
      rw [eq] at answered
      cases answered
      cases mem

/-- What is signed is answered with one event that holds the body, a header is answered with an
event exactly if it verifies, and everything else is refused. The events are on channels the
registration owns. -/
theorem sign_verify_agree (crates : Crates) (lawful : crates.Lawful) (config : HmacConfig)
    (m : DispatchMsg) :
    (∀ body, crates.b64Decode m.bodyB64 = some body →
      (∀ secret, m.secret = some secret →
        headerValue m.headers config.header = some (sign crates config secret body) →
        ∃ e, handleHmacDispatch crates config (.dispatch m) = .ok (textReply 200 "ok", [e]) ∧
          crates.b64Decode e.payloadB64 = some body) ∧
      (∀ secret header, m.secret = some secret →
        headerValue m.headers config.header = some header →
        ((∃ reply e, handleHmacDispatch crates config (.dispatch m) = .ok (reply, [e])) ↔
          Verifies crates config secret body header)) ∧
      (¬ Accepted crates config m body →
        ∃ text, handleHmacDispatch crates config (.dispatch m) = .ok (textReply 401 text, []))) ∧
    ∀ id routes existing claims, validateRegistrationClaims id routes existing claims
        (extension crates (.hmac config)).channels = .ok () →
      ∀ reply events, handleHmacDispatch crates config (.dispatch m) = .ok (reply, events) →
        ∀ e ∈ events, validateEmittedChannel e.channel id claims
          (extension crates (.hmac config)).channels = .ok () := by
  refine ⟨fun body isBody => ⟨?_, ?_, handle_refused isBody⟩, ?_⟩
  · intro secret isSecret isHeader
    exact ⟨_, handle_verified isBody isSecret isHeader (sign_verifies lawful config secret body),
      lawful.base64 body⟩
  · intro secret header isSecret isHeader
    constructor
    · rintro ⟨reply, e, answered⟩
      by_contra fails
      have refused : ¬ Accepted crates config m body := by
        rintro ⟨secret', header', isSecret', isHeader', verifies⟩
        rw [isSecret, Option.some.injEq] at isSecret'
        rw [isHeader, Option.some.injEq] at isHeader'
        rw [isSecret', isHeader'] at fails
        exact fails verifies
      obtain ⟨text, eq⟩ := handle_refused isBody refused
      rw [eq] at answered
      cases answered
    · intro verifies
      exact ⟨_, _, handle_verified isBody isSecret isHeader verifies⟩
  · intro id routes existing claims accepted reply events answered e mem
    have valid := Namespaces.validPrefix_of_ok accepted config.channelPrefix List.mem_cons_self
    obtain ⟨isChannel, isIn⟩ := deriveChannel_under valid m.path
    rw [handle_events answered e mem, validateEmittedChannel_ok_iff]
    exact ⟨isChannel, .inr ⟨config.channelPrefix, List.mem_cons_self, isIn⟩⟩

/-! ## One provider -/

def provider : HmacConfig := ⟨"X-Signature", .sha256, .hex, some "sha256=", "hmac"⟩

/-- A signed `hi` under the key `s`. -/
def signedPost : DispatchMsg :=
  ⟨0, "POST", "/hmac/Stripe", none,
    OrdMap.empty.insert "x-signature" (sign asciiCrates provider "s" (bytesOf ['h', 'i'])),
    asciiCrates.b64Encode (bytesOf ['h', 'i']), some "s"⟩

theorem sign_verify_agree_provider :
    ∃ e, handleHmacDispatch asciiCrates provider (.dispatch signedPost) =
        .ok (textReply 200 "ok", [e]) ∧
      asciiCrates.b64Decode e.payloadB64 = some (bytesOf ['h', 'i']) ∧
      validateEmittedChannel e.channel "hmac" ["hmac"] ["hmac"] = .ok () := by
  have agrees := sign_verify_agree asciiCrates asciiCrates_lawful provider signedPost
  have found : headerValue signedPost.headers provider.header =
      some (sign asciiCrates provider "s" (bytesOf ['h', 'i'])) := by
    have same : eqIgnoreAsciiCase "x-signature" "X-Signature" = true := by decide
    change ([("x-signature", _)].find? fun entry => eqIgnoreAsciiCase entry.1 "X-Signature").map
      Prod.snd = _
    simp only [List.find?_cons, same, Option.map_some]
  obtain ⟨e, answered, holds⟩ :=
    (agrees.1 (bytesOf ['h', 'i']) (asciiCrates_lawful.base64 _)).1 "s" rfl found
  have registered : validateRegistrationClaims "hmac" .empty .empty ["hmac"] ["hmac"] = .ok () := by
    decide
  exact ⟨e, answered, holds,
    agrees.2 "hmac" .empty .empty ["hmac"] registered _ _ answered e List.mem_cons_self⟩

end Whdr.Ext.Hmac
