import Whdr.Ext.GithubEvents
import Whdr.Ingest.Origins

/-! What the extensions of the kit publish came in as a genuine webhook: the claim of the
handlers about a dispatch, carried back to the request that the daemon was sent. -/
namespace Whdr.Ingest

open Whdr.Configuration (Config)
open Dispatch (owned)
open Ext (Crates Handler asBytes eqIgnoreAsciiCase headerValue get asArray textReply)
open Runs (Reaches exec guarded reaches_of_exec)
open Wire (toJson u16Size)

variable {setup : Setup} {crates : Crates} {s : State} {m : DispatchMsg} {body : List UInt8}
  {reply : HttpReply} {events : List Event}

/-! ## Handlers -/

/-- The credential of a dispatch is right for the body under the secret. -/
def Proves (crates : Crates) (handler : Handler) (m : DispatchMsg) (body : List UInt8)
    (secret : String) : Prop :=
  match handler with
  | .github => headerValue m.headers "x-hub-signature-256" =
      some ("sha256=" ++ crates.hexEncode (crates.mac .sha256 (asBytes secret) body))
  | .hmac config => ∃ header, headerValue m.headers config.header = some header ∧
      Ext.Hmac.Verifies crates config secret body header
  | .teams => ∃ parsed values, crates.fromSlice body = some parsed ∧
      (get parsed.json "value").bind asArray = some values ∧
      ∀ item ∈ values, Ext.Teams.clientState item = secret

theorem collect_events {secret : String} {items : List Json} {start events : List Event}
    (collected : Ext.Teams.collect crates secret body items start = some events) :
    (∀ item ∈ items, Ext.Teams.clientState item = secret) ∧
      ∀ e ∈ events, e ∈ start ∨ e.payloadB64 = crates.b64Encode body := by
  induction items generalizing start with
  | nil =>
    cases collected
    exact ⟨fun _ mem => absurd mem List.not_mem_nil, fun _ mem => .inl mem⟩
  | cons item rest ih =>
    simp only [Ext.Teams.collect] at collected
    split at collected
    · cases collected
    · rename_i same
      have same : Ext.Teams.clientState item = secret := by simpa using same
      split at collected
      · obtain ⟨others, from'⟩ := ih collected
        refine ⟨List.forall_mem_cons.mpr ⟨same, others⟩, fun e mem => ?_⟩
        obtain before | eq := from' e mem
        · obtain before | last := List.mem_append.mp before
          · exact .inl before
          · rw [List.mem_singleton.mp last]
            exact .inr rfl
        · exact .inr eq
      · obtain ⟨others, from'⟩ := ih collected
        exact ⟨List.forall_mem_cons.mpr ⟨same, others⟩, from'⟩

theorem github_proves (isBody : crates.b64Decode m.bodyB64 = some body)
    (answered : Ext.Github.handleGithubDispatch crates (.dispatch m) = .ok (reply, events))
    (emits : events ≠ []) : (∃ secret, m.secret = some secret ∧ Proves crates .github m body secret) ∧
      ∀ e ∈ events, e.payloadB64 = crates.b64Encode body := by
  by_cases authentic : Ext.Github.Authentic crates m body
  · refine ⟨authentic, ?_⟩
    rw [Ext.Github.handle_authentic isBody authentic] at answered
    cases parses : crates.fromSlice body with
    | none =>
      rw [parses] at answered
      cases answered
    | some parsed =>
      rw [parses] at answered
      cases answered
      exact List.forall_mem_singleton.mpr rfl
  · obtain ⟨text, eq⟩ := Ext.Github.handle_unauthentic isBody authentic
    rw [eq] at answered
    cases answered
    exact absurd rfl emits

theorem hmac_proves {config : Ext.Hmac.HmacConfig} (isBody : crates.b64Decode m.bodyB64 = some body)
    (answered : Ext.Hmac.handleHmacDispatch crates config (.dispatch m) = .ok (reply, events))
    (emits : events ≠ []) :
    (∃ secret, m.secret = some secret ∧ Proves crates (.hmac config) m body secret) ∧
      ∀ e ∈ events, e.payloadB64 = crates.b64Encode body := by
  by_cases accepted : Ext.Hmac.Accepted crates config m body
  · obtain ⟨secret, header, isSecret, isHeader, verifies⟩ := accepted
    rw [Ext.Hmac.handle_verified isBody isSecret isHeader verifies] at answered
    cases answered
    exact ⟨⟨secret, isSecret, header, isHeader, verifies⟩, List.forall_mem_singleton.mpr rfl⟩
  · obtain ⟨text, eq⟩ := Ext.Hmac.handle_refused isBody accepted
    rw [eq] at answered
    cases answered
    exact absurd rfl emits

theorem notification_proves (isBody : crates.b64Decode m.bodyB64 = some body)
    (answered : Ext.Teams.notification crates m = .ok (reply, events)) (emits : events ≠ []) :
    (∃ secret, m.secret = some secret ∧ Proves crates .teams m body secret) ∧
      ∀ e ∈ events, e.payloadB64 = crates.b64Encode body := by
  simp only [Ext.Teams.notification, Ext.decodeBodyB64, isBody, bind, Except.bind, pure,
    Except.pure] at answered
  split at answered
  · cases answered
  rename_i parsed parses
  split at answered
  · cases answered
    exact absurd rfl emits
  rename_i secret isSecret
  split at answered
  · cases answered
    exact absurd rfl emits
  rename_i values isValues
  split at answered
  · cases answered
    exact absurd rfl emits
  rename_i collected isCollected
  cases answered
  obtain ⟨all, from'⟩ := collect_events isCollected
  refine ⟨⟨secret, isSecret, parsed, values, parses, isValues, all⟩, fun e mem => ?_⟩
  obtain start | eq := from' e mem
  · cases start
  · exact eq

theorem teams_proves (isBody : crates.b64Decode m.bodyB64 = some body)
    (answered : Ext.Teams.handleTeamsDispatch crates (.dispatch m) = .ok (reply, events))
    (emits : events ≠ []) : (∃ secret, m.secret = some secret ∧ Proves crates .teams m body secret) ∧
      ∀ e ∈ events, e.payloadB64 = crates.b64Encode body := by
  simp only [Ext.Teams.handleTeamsDispatch] at answered
  split at answered
  · split at answered
    · cases answered
    · cases answered
      exact absurd rfl emits
    · exact notification_proves isBody answered emits
  · exact notification_proves isBody answered emits

theorem handler_proves {handler : Handler} (isBody : crates.b64Decode m.bodyB64 = some body)
    (answered : (Ext.extension crates handler).handleDispatch (.dispatch m) = .ok (reply, events))
    (emits : events ≠ []) :
    (∃ secret, m.secret = some secret ∧ Proves crates handler m body secret) ∧
      ∀ e ∈ events, e.payloadB64 = crates.b64Encode body := by
  cases handler with
  | github => exact github_proves isBody answered emits
  | hmac config => exact hmac_proves isBody answered emits
  | teams => exact teams_proves isBody answered emits

theorem notification_status (answered : Ext.Teams.notification crates m = .ok (reply, events)) :
    reply.status < u16Size := by
  simp only [Ext.Teams.notification, bind, Except.bind, pure, Except.pure] at answered
  split at answered
  · cases answered
  split at answered
  · cases answered
  split at answered
  · cases answered
    decide
  split at answered
  · cases answered
    decide
  split at answered <;>
  · cases answered
    decide

theorem handler_status (handler : Handler) (msg : SrvMsg) (reply : HttpReply) (events : List Event)
    (answered : (Ext.extension crates handler).handleDispatch msg = .ok (reply, events)) :
    reply.status < u16Size := by
  cases msg with
  | shutdown => cases handler <;> cases answered <;> decide
  | dispatch m =>
    cases handler with
    | github =>
      simp only [Ext.extension, Ext.Github.handleGithubDispatch, bind, Except.bind, pure,
        Except.pure] at answered
      split at answered
      · cases answered
      split at answered
      · cases answered
        decide
      split at answered
      · cases answered
        decide
      split at answered
      · cases answered
      · cases answered
        decide
    | hmac config =>
      simp only [Ext.extension, Ext.Hmac.handleHmacDispatch, bind, Except.bind, pure,
        Except.pure] at answered
      split at answered
      · cases answered
      split at answered
      · cases answered
        decide
      split at answered
      · cases answered
        decide
      split at answered
      · cases answered
        decide
      split at answered
      · cases answered
        decide
      split at answered <;>
      · cases answered
        decide
    | teams =>
      simp only [Ext.extension, Ext.Teams.handleTeamsDispatch] at answered
      split at answered
      · split at answered
        · cases answered
        · cases answered
          exact show 200 < u16Size by decide
        · exact notification_status answered
      · exact notification_status answered

/-- The loop of an extension of the repository. -/
def kitOf (crates : Crates) (handler : Handler) : Kit :=
  ⟨(Ext.extension crates handler).handleDispatch, handler_status handler⟩

/-! ## Requests -/

/-- One of the request's headers has this name, in any case, and this text. -/
def HasHeader (http : HttpLibrary) (request : HttpRequest) (name text : String) : Prop :=
  ∃ header ∈ request.headers, eqIgnoreAsciiCase header.1 name = true ∧ http.toStr header.2 = some text

/-- A webhook that shows it knows the secret: a signature of its body in a header, or the secret
in every item of its body. -/
def Genuine (http : HttpLibrary) (crates : Crates) (handler : Handler) (request : HttpRequest)
    (secret : String) : Prop :=
  match handler with
  | .github => HasHeader http request "x-hub-signature-256"
      ("sha256=" ++ crates.hexEncode (crates.mac .sha256 (asBytes secret) request.body))
  | .hmac config => ∃ text, HasHeader http request config.header text ∧
      Ext.Hmac.Verifies crates config secret request.body text
  | .teams => ∃ parsed values, crates.fromSlice request.body = some parsed ∧
      (get parsed.json "value").bind asArray = some values ∧
      ∀ item ∈ values, Ext.Teams.clientState item = secret

theorem toLower_toLower (c : Char) : c.toLower.toLower = c.toLower := by
  have kept {d : Char} (other : ¬ ('A' ≤ d ∧ d ≤ 'Z')) : d.toLower = d := dif_neg other
  by_cases upper : 'A' ≤ c ∧ c ≤ 'Z'
  · apply kept
    rintro ⟨-, high⟩
    have low := (Grammar.isLower_iff.mp (Ext.isLower_toLower upper.1 upper.2)).1
    exact absurd (low.trans high) (by decide)
  · rw [kept upper, kept upper]

theorem eqIgnoreAsciiCase_lower (a b : String) :
    eqIgnoreAsciiCase (toAsciiLowercase a) b = eqIgnoreAsciiCase a b := by
  simp only [eqIgnoreAsciiCase, toAsciiLowercase, String.toList_ofList, List.map_map]
  congr 1
  apply List.map_congr_left
  intro c _
  exact toLower_toLower c

/-- What a handler finds in the headers of a dispatch was in the request. -/
theorem hasHeader {http : HttpLibrary} {request : HttpRequest} {name text : String}
    (found : headerValue (headerMapToBtree http request.headers) name = some text) :
    HasHeader http request name text := by
  obtain ⟨entry, isEntry, rfl⟩ := Option.map_eq_some_iff.mp found
  have mem := Serde.mem_ofEntries (List.mem_of_find?_eq_some isEntry)
  have named := List.find?_some isEntry
  obtain ⟨header, inside, made⟩ := List.mem_filterMap.mp mem
  obtain ⟨value, isValue, rfl⟩ := Option.map_eq_some_iff.mp made
  exact ⟨header, inside, (eqIgnoreAsciiCase_lower _ _).symm.trans named, isValue⟩

theorem genuine_of_proves {http : HttpLibrary} {request : HttpRequest} {handler : Handler}
    {reqId : Uuid} {given : Option String} {secret : String}
    (proves : Proves crates handler (dispatchMsg http crates.b64Encode request reqId given)
      request.body secret) : Genuine http crates handler request secret := by
  cases handler with
  | github => exact hasHeader proves
  | hmac config =>
    obtain ⟨header, isHeader, verifies⟩ := proves
    exact ⟨header, hasHeader isHeader, verifies⟩
  | teams => exact proves

/-- A batch of an extension of the repository is the body of a webhook that was routed to it,
which knew the secret configured for it. -/
theorem Valid.genuine {b : Batch} {handler : Handler} (valid : Valid setup s)
    (lawful : crates.Lawful) (base64 : setup.b64Encode = crates.b64Encode)
    (correct : ∀ j : Json, j.Fits → setup.read j.render = some j) (mem : b ∈ s.fanned)
    (runs : setup.programs b.generation = .kit (kitOf crates handler)) (emits : b.events ≠ []) :
    ∃ n q l config secret, b.request = some n ∧ s.fannedFor n = [b] ∧
      s.requests.get? n = some q ∧ s.links.get? b.generation = some l ∧
      Routed s q.http b.generation ∧ config ∈ s.configs ∧
      config.secrets.get? l.handle.id = some secret ∧
      Genuine setup.http crates handler q.http secret ∧
      ∀ e ∈ b.events, crates.b64Decode e.payloadB64 = some q.http.body := by
  obtain ⟨-, ⟨-, free⟩ | ⟨n, q, reply, isFor, found, emitted, once⟩⟩ :=
    (valid.sound correct).batches b mem
  · rw [runs] at free
    cases free
  · obtain ⟨g, l, events, answer, batch⟩ := emitted
    obtain rfl : b = ⟨g, some n, owned l.handle events⟩ :=
      List.singleton_inj.mp (once.symm.trans batch)
    obtain ⟨reqId, config, inForce, handled⟩ := answer.handled _ runs
    rw [base64] at handled
    have isBody : crates.b64Decode (dispatchMsg setup.http crates.b64Encode q.http reqId
        (config.secrets.get? l.handle.id)).bodyB64 = some q.http.body := lawful.base64 _
    have some : events ≠ [] := by
      rintro rfl
      exact emits rfl
    obtain ⟨⟨secret, isSecret, proves⟩, payload⟩ := handler_proves isBody handled some
    refine ⟨n, q, l, config, secret, rfl, batch, found, answer.link, answer.routed, inForce,
      isSecret, genuine_of_proves proves, fun e inside => ?_⟩
    rw [payload e (List.mem_filter.mp inside).1]
    exact lawful.base64 _

/-- In every order of steps: what an extension of the repository publishes is the body of a
webhook that was routed to it, published once, which knew the secret configured for it. -/
theorem published_genuine (setup : Setup) (crates : Crates) (lawful : crates.Lawful)
    (base64 : setup.b64Encode = crates.b64Encode)
    (correct : ∀ j : Json, j.Fits → setup.read j.render = some j) (s : State)
    (run : Reaches Starts (step setup) (fun _ _ => True) s) (b : Batch) (mem : b ∈ s.fanned)
    (handler : Handler) (runs : setup.programs b.generation = .kit (kitOf crates handler))
    (emits : b.events ≠ []) :
    ∃ n q l config secret, b.request = some n ∧ s.fannedFor n = [b] ∧
      s.requests.get? n = some q ∧ s.links.get? b.generation = some l ∧
      Routed s q.http b.generation ∧ config ∈ s.configs ∧
      config.secrets.get? l.handle.id = some secret ∧
      Genuine setup.http crates handler q.http secret ∧
      ∀ e ∈ b.events, crates.b64Decode e.payloadB64 = some q.http.body := by
  have valid : Valid setup s := run.invariant (Valid setup) (fun _ starts => starts_valid starts)
    fun _ _ _ _ valid _ hs => step_valid valid hs
  exact valid.genuine lawful base64 correct mem runs emits

/-! ## One provider -/

def signing : Setup :=
  ⟨asciiHttp, Ext.asciiCrates.b64Encode, Json.read,
    fun _ => .kit (kitOf Ext.asciiCrates (.hmac Ext.Hmac.provider))⟩

def keyed : Config := { Config.default with secrets := OrdMap.empty.insert "hmac" "s" }

def keyedStart : State := { started with config := keyed, configs := [keyed] }

/-- `hi`, signed under the key `s`. -/
def signedHi : HttpRequest :=
  ⟨"POST", "/hmac/Stripe", none,
    [("X-Signature", asBytes (Ext.Hmac.sign Ext.asciiCrates Ext.Hmac.provider "s"
      (Ext.bytesOf ['h', 'i'])))], Ext.bytesOf ['h', 'i']⟩

def hiEvent : Event := ⟨"hmac.stripe", Ext.asciiCrates.b64Encode (Ext.bytesOf ['h', 'i'])⟩

def oneSignedPost : List Action :=
  [.start ⟨"hmac", "hmac", 7, ["hmac"], ["hmac"]⟩,
    .setTables ⟨OrdMap.empty.insert "hmac" "hmac", OrdMap.empty.insert "hmac" 7, [], []⟩,
    .arrive 0 signedHi,
    .request 0 .ingest, .request 0 .findRoute, .request 0 .findHandle, .request 0 .cloneConfig,
    .request 0 (.reserve 1),
    .request 0 .send, .link 7 .write,
    .link 7 (.print (toJson (ExtMsg.result 1 (textReply 200 "ok") [hiEvent])).render),
    .link 7 .readLine, .link 7 .sendResult, .request 0 .receive]

theorem published_genuine_signed_post :
    ∃ s b, Reaches Starts (step signing) (fun _ _ => True) s ∧ b ∈ s.fanned ∧ b.events = [hiEvent] ∧
      ∃ n q l config secret, b.request = some n ∧ s.fannedFor n = [b] ∧
        s.requests.get? n = some q ∧ s.links.get? b.generation = some l ∧
        Routed s q.http b.generation ∧ config ∈ s.configs ∧
        config.secrets.get? l.handle.id = some secret ∧
        Genuine signing.http Ext.asciiCrates (.hmac Ext.Hmac.provider) q.http secret ∧
        ∀ e ∈ b.events, Ext.asciiCrates.b64Decode e.payloadB64 = some q.http.body := by
  have ran : (exec (guarded (fun _ _ => True) (step signing)) keyedStart oneSignedPost).map
      (fun s => s.fanned) = some [⟨7, some 0, [hiEvent]⟩] := by decide +kernel
  obtain ⟨s, hs, fanned⟩ := Option.map_eq_some_iff.mp ran
  have run : Reaches Starts (step signing) (fun _ _ => True) s :=
    reaches_of_exec oneSignedPost (.start ⟨rfl, rfl, rfl, rfl, rfl⟩) hs
  have mem : ⟨7, some 0, [hiEvent]⟩ ∈ s.fanned := fanned ▸ List.mem_singleton.mpr rfl
  exact ⟨s, ⟨7, some 0, [hiEvent]⟩, run, mem, rfl,
    published_genuine signing Ext.asciiCrates Ext.asciiCrates_lawful rfl Json.read_render s run _ mem
      (.hmac Ext.Hmac.provider) rfl (List.cons_ne_nil _ _)⟩

end Whdr.Ingest
