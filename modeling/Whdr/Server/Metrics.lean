import Whdr.Lib.Serde
import Whdr.Server.DaemonSteps
import Whdr.Server.Subscribers

/-! The status document of the daemon (status_json in daemon.rs) and the metrics page
rendered from it (metrics.rs). A text is its list of characters. -/
namespace Whdr.Metrics

open Daemon (State)
open Lifecycle (ExtHandle)

/-! ## Status -/

/-- What the counters of a handle read when the document is made. -/
structure Readings where
  pid : Option Nat
  path : String
  restarts : Nat
  inFlight : Nat
  protocolErrors : Nat
  namespaceViolations : Nat
  consecutiveTimeouts : Nat
  eventsEmitted : Nat
  lastEventAtMs : Nat
  deriving DecidableEq, Repr

def number (n : Nat) : Json := .num (.ofNat n)

def strings (items : List String) : Json := .arr (items.map .str)

/-- `last_event_at_ms`: zero is no event yet. -/
def lastEventAt (at_ : Nat) : Option Nat := if at_ = 0 then none else some at_

def readyRow (handle : ExtHandle) (r : Readings) : Json :=
  .obj [("candidate_id", .str handle.candidateId), ("id", .str handle.id),
    ("state", .str "Ready"), ("pid", Serde.ofOption number r.pid), ("path", .str r.path),
    ("restarts", number r.restarts), ("paths", strings handle.paths),
    ("channels", strings handle.channels), ("in_flight", number r.inFlight),
    ("protocol_errors", number r.protocolErrors),
    ("namespace_violations", number r.namespaceViolations),
    ("consecutive_timeouts", number r.consecutiveTimeouts),
    ("events_emitted", number r.eventsEmitted),
    ("last_event_at_ms", Serde.ofOption number (lastEventAt r.lastEventAtMs))]

def failedRow (id reason : String) : Json :=
  .obj [("id", .str id), ("state", .str "Failed"), ("reason", .str reason)]

def subscriberRow (sub : Subscriber) : Json :=
  .obj [("name", .str sub.name), ("remote_addr", Serde.ofOption .str sub.remoteAddr),
    ("patterns", strings (sub.patterns.map (·.value))),
    ("delivered", number sub.queue.delivered), ("dropped", number sub.queue.dropped)]

def deliveryStatus (registry : SubscriberRegistry) : Json :=
  match registry.delivery with
  | some log => .obj [("enabled", .bool true), ("head_seq", number log.head),
      ("floor_seq", number log.floor), ("retained_events", number log.retainedCount),
      ("retained_bytes", number log.retainedBytes),
      ("persist_errors", number registry.persistErrors)]
  | none => .obj [("enabled", .bool false)]

/-- The rows of the extension tables and of the connections, each in the order its hash map
gives them. -/
structure Listing (s : State) (registry : SubscriberRegistry) where
  ready : List ExtHandle
  failed : List (String × String)
  subscribers : List Subscriber
  readyRows : ready.Perm s.tables.extensions.values
  failedRows : failed.Perm s.tables.failedExtensions.entries
  subscriberRows : subscribers.Perm registry.subscribers.values

/-- Every map in the order of its keys. -/
def Listing.inOrder (s : State) (registry : SubscriberRegistry) : Listing s registry :=
  ⟨_, _, _, .refl _, .refl _, .refl _⟩

/-- The two extension tables are read in `s` under both locks, the other tables after it, in
`later`. -/
def statusJson {s : State} {registry : SubscriberRegistry} (rows : Listing s registry)
    (later : State) (readings : ExtHandle → Readings) (uptimeMs : Nat) : Json :=
  .obj [("uptime_ms", number uptimeMs),
    ("extensions", .arr (rows.ready.map (fun handle => readyRow handle (readings handle)) ++
      rows.failed.map fun (id, reason) => failedRow id reason)),
    ("subscribers", .arr (rows.subscribers.map subscriberRow)),
    ("global", .obj [("routes", number later.tables.routes.size),
      ("unavailable_routes", number later.tables.unavailableRoutes.size),
      ("channel_prefixes", number later.tables.channelPrefixes.size),
      ("subscriber_count", number rows.subscribers.length)]),
    ("delivery", deliveryStatus registry)]

/-! ## Page -/

/-- `value[key]`: null where there is no such field. -/
def index (j : Json) (key : String) : Json :=
  match j with
  | .obj fields => ((fields.find? fun field => field.1 == key).map Prod.snd).getD .null
  | _ => .null

def asArray : Json → List Json
  | .arr items => items
  | _ => []

def asU64 : Json → Option Nat
  | .num (.ofNat n) => some n
  | _ => none

def isNull : Json → Bool
  | .null => true
  | _ => false

/-- One call of `gauge`. -/
structure Gauge where
  name : String
  labels : List (String × String)
  value : Json

/-- `str::replace` of one character. -/
def replaceChar (source : Char) (target : List Char) (text : List Char) : List Char :=
  text.flatMap fun c => if c = source then target else [c]

def escapeLabel (value : String) : List Char :=
  replaceChar '\n' ['\\', 'n'] (replaceChar '"' ['\\', '"']
    (replaceChar '\\' ['\\', '\\'] value.toList))

def renderLabels : List (String × String) → List Char
  | [] => []
  | [(key, value)] => key.toList ++ '=' :: '"' :: (escapeLabel value ++ ['"'])
  | (key, value) :: rest =>
    key.toList ++ '=' :: '"' :: (escapeLabel value ++ '"' :: ',' :: renderLabels rest)

/-- A number or a text is printed, anything else makes no line. -/
def Gauge.rendered (g : Gauge) : Option (List Char) :=
  match g.value with
  | .num n => some (Json.renderInt n)
  | .float text | .str text => some text.toList
  | .null | .bool _ | .arr _ | .obj _ => none

/-- The line before its value. -/
def Gauge.series (g : Gauge) : List Char :=
  g.name.toList ++ if g.labels = [] then [] else '\x7b' :: (renderLabels g.labels ++ ['\x7d'])

def Gauge.line (g : Gauge) : Option (List Char) :=
  g.rendered.map fun text => g.series ++ ' ' :: text

def Gauge.render (g : Gauge) : List Char :=
  match g.line with
  | some line => line ++ ['\n']
  | none => []

def extensionMetrics : List (String × String) :=
  [("whdr_ext_restarts", "restarts"), ("whdr_ext_in_flight", "in_flight"),
    ("whdr_ext_protocol_errors", "protocol_errors"),
    ("whdr_ext_namespace_violations", "namespace_violations"),
    ("whdr_ext_consecutive_timeouts", "consecutive_timeouts"),
    ("whdr_ext_events_emitted", "events_emitted"),
    ("whdr_ext_last_event_at_ms", "last_event_at_ms")]

def extensionGauges (ext : Json) : List Gauge :=
  match Serde.string (index ext "id") with
  | none => []
  | some id =>
    let labels := [("ext", id)]
    let up := if Serde.string (index ext "state") = some "Ready" then number 1 else number 0
    ⟨"whdr_ext_up", labels, up⟩ :: extensionMetrics.filterMap fun (metric, field) =>
      if isNull (index ext field) then none else some ⟨metric, labels, index ext field⟩

/-- A name with the sums over its connections. -/
structure NameRow where
  name : String
  delivered : Nat
  dropped : Nat
  connections : Nat
  deriving DecidableEq, Repr

def addRow (delivered dropped : Nat) (name : String) : List NameRow → List NameRow
  | [] => [⟨name, delivered, dropped, 1⟩]
  | row :: rest =>
    if row.name = name then
      ⟨row.name, row.delivered + delivered, row.dropped + dropped, row.connections + 1⟩ :: rest
    else row :: addRow delivered dropped name rest

def byName (subscribers : List Json) : List NameRow :=
  subscribers.foldl (fun rows subscriber =>
    match Serde.string (index subscriber "name") with
    | none => rows
    | some name =>
      addRow ((asU64 (index subscriber "delivered")).getD 0)
        ((asU64 (index subscriber "dropped")).getD 0) name rows) []

def NameRow.gauges (row : NameRow) : List Gauge :=
  [⟨"whdr_subscriber_delivered", [("name", row.name)], number row.delivered⟩,
    ⟨"whdr_subscriber_dropped", [("name", row.name)], number row.dropped⟩,
    ⟨"whdr_subscriber_connections", [("name", row.name)], number row.connections⟩]

def globalGauges (global : Json) : List Gauge :=
  [("whdr_routes", "routes"), ("whdr_unavailable_routes", "unavailable_routes"),
    ("whdr_channel_prefixes", "channel_prefixes"),
    ("whdr_subscriber_count", "subscriber_count")].map fun (metric, field) =>
      ⟨metric, [], index global field⟩

def deliveryMetrics : List (String × String) :=
  [("whdr_delivery_head_seq", "head_seq"), ("whdr_delivery_floor_seq", "floor_seq"),
    ("whdr_delivery_retained_events", "retained_events"),
    ("whdr_delivery_retained_bytes", "retained_bytes"),
    ("whdr_delivery_persist_errors", "persist_errors")]

def deliveryGauges : Json → List Gauge
  | .obj fields =>
    let enabled := match index (.obj fields) "enabled" with
      | .bool true => number 1
      | _ => number 0
    ⟨"whdr_delivery_enabled", [], enabled⟩ :: deliveryMetrics.filterMap fun (metric, field) =>
      (fields.find? fun entry => entry.1 == field).map fun entry => ⟨metric, [], entry.2⟩
  | _ => []

def gauges (status : Json) : List Gauge :=
  ⟨"whdr_uptime_ms", [], index status "uptime_ms"⟩ ::
    ((asArray (index status "extensions")).flatMap extensionGauges ++
      ((byName (asArray (index status "subscribers"))).flatMap NameRow.gauges ++
        (globalGauges (index status "global") ++ deliveryGauges (index status "delivery"))))

def renderPrometheus (status : Json) : List Char := (gauges status).flatMap Gauge.render

/-! ## Series -/

/-- A label value up to its quote, without its escapes. -/
def readLabel : List Char → Option (List Char × List Char)
  | [] => none
  | '"' :: rest => some ([], rest)
  | '\\' :: e :: rest => (readLabel rest).map fun (value, left) =>
    ((if e = 'n' then '\n' else e) :: value, left)
  | c :: rest => (readLabel rest).map fun (value, left) => (c :: value, left)

abbrev Labels := List (List Char × List Char)

def readLabels : Nat → List Char → Option Labels
  | 0, _ => none
  | fuel + 1, cs =>
    match cs.dropWhile (· ≠ '=') with
    | '=' :: '"' :: rest =>
      match readLabel rest with
      | some (value, '\x7d' :: _) => some [(cs.takeWhile (· ≠ '='), value)]
      | some (value, ',' :: rest) =>
        (readLabels fuel rest).map fun more => (cs.takeWhile (· ≠ '='), value) :: more
      | _ => none
    | _ => none

def metricChar (c : Char) : Bool := c.isAlphanum || c == '_'

/-- The metric name of a line and its label set. -/
def seriesOf (line : List Char) : Option (List Char × Labels) :=
  match line.dropWhile metricChar with
  | '\x7b' :: rest => (readLabels line.length rest).map fun labels =>
    (line.takeWhile metricChar, labels)
  | ' ' :: _ => some (line.takeWhile metricChar, [])
  | _ => none

def pageLines (text : List Char) : List (List Char) := (text.splitOn '\n').filter (· ≠ [])

/-- No two lines have the same metric name and the same label set. -/
def NoRepeats (text : List Char) : Prop := ((pageLines text).map seriesOf).Nodup

/-! ## Reading a line back -/

def escapeChar (c : Char) : List Char :=
  if c = '\\' then ['\\', '\\'] else if c = '"' then ['\\', '"']
  else if c = '\n' then ['\\', 'n'] else [c]

/-- The three replacements do not meet. -/
theorem escapeLabel_eq (value : String) : escapeLabel value = value.toList.flatMap escapeChar := by
  simp only [escapeLabel, replaceChar, List.flatMap_assoc]
  congr 1
  funext c
  by_cases backslash : c = '\\'
  · subst backslash
    decide
  · by_cases quote : c = '"'
    · subst quote
      decide
    · simp [escapeChar, backslash, quote]

theorem newline_escapeLabel (value : String) : '\n' ∉ escapeLabel value := by
  rw [escapeLabel_eq, List.mem_flatMap]
  rintro ⟨c, _, mem⟩
  simp only [escapeChar] at mem
  split at mem
  · exact absurd mem (by decide)
  · split at mem
    · exact absurd mem (by decide)
    · split at mem
      · exact absurd mem (by decide)
      · rename_i notNewline
        exact notNewline (List.mem_singleton.mp mem).symm

theorem readLabel_escape (value : String) (rest : List Char) :
    readLabel (escapeLabel value ++ '"' :: rest) = some (value.toList, rest) := by
  rw [escapeLabel_eq]
  induction value.toList with
  | nil => rfl
  | cons c cs ih =>
    rw [List.flatMap_cons, List.append_assoc]
    by_cases backslash : c = '\\'
    · simp [escapeChar, backslash, readLabel, ih]
    · by_cases quote : c = '"'
      · simp [escapeChar, quote, readLabel, ih]
      · by_cases newline : c = '\n'
        · simp [escapeChar, newline, readLabel, ih]
        · simp [escapeChar, backslash, quote, newline, readLabel, ih]

/-- A gauge of the page: a number under a metric name, with plain label keys. -/
structure WellFormed (g : Gauge) : Prop where
  value : ∃ n, g.value = number n
  name : g.name.toList.all metricChar = true
  keys : ∀ label ∈ g.labels, label.1.toList.all metricChar = true
  few : g.labels.length ≤ 1

def Gauge.key (g : Gauge) : List Char × Labels :=
  (g.name.toList, g.labels.map fun (key, value) => (key.toList, value.toList))

theorem key_injective {g h : Gauge} (same : g.key = h.key) :
    g.name = h.name ∧ g.labels = h.labels := by
  obtain ⟨name, labels⟩ := Prod.mk.inj same
  refine ⟨String.toList_inj.mp name, ?_⟩
  have injective : Function.Injective fun (label : String × String) =>
      (label.1.toList, label.2.toList) := by
    intro a b eq
    obtain ⟨first, second⟩ := Prod.mk.inj eq
    exact Prod.ext (String.toList_inj.mp first) (String.toList_inj.mp second)
  exact List.map_injective_iff.mpr injective labels

theorem takes_key {p : Char → Bool} {key : List Char} {stop : Char} {rest : List Char}
    (all : key.all p = true) (stops : p stop = false) :
    (key ++ stop :: rest).takeWhile p = key ∧
      (key ++ stop :: rest).dropWhile p = stop :: rest := by
  rw [List.all_eq_true] at all
  rw [List.takeWhile_append_of_pos all, List.dropWhile_append_of_pos all]
  simp [stops]

theorem readLabels_one {key : String} (plain : key.toList.all metricChar = true) (value : String)
    (fuel : Nat) (rest : List Char) :
    readLabels (fuel + 1) (renderLabels [(key, value)] ++ '\x7d' :: rest) =
      some [(key.toList, value.toList)] := by
  have apart : key.toList.all (· ≠ '=') = true := by
    rw [List.all_eq_true] at plain ⊢
    intro c mem
    have fine := plain c mem
    by_cases eq : c = '='
    · rw [eq] at fine
      exact absurd fine (by decide)
    · simpa using eq
  obtain ⟨taken, left⟩ := @takes_key (· ≠ '=') key.toList '='
    ('"' :: (escapeLabel value ++ '"' :: '\x7d' :: rest)) apart (by decide)
  have text : renderLabels [(key, value)] ++ '\x7d' :: rest =
      key.toList ++ '=' :: '"' :: (escapeLabel value ++ '"' :: '\x7d' :: rest) := by
    simp [renderLabels]
  rw [text, readLabels, taken, left]
  simp only [readLabel_escape]

theorem series_line {g : Gauge} (wf : WellFormed g) {line : List Char} (isLine : g.line = some line) :
    seriesOf line = some g.key ∧ '\n' ∉ line ∧ line ≠ [] := by
  obtain ⟨name, labels, value⟩ := g
  obtain ⟨⟨n, isNumber⟩, isName, keys, few⟩ := wf
  dsimp only at isNumber isName keys few
  subst isNumber
  cases isLine
  have digits : '\n' ∉ Json.renderInt (.ofNat n) := Json.newline_renderInt _
  have unbroken : ∀ text : List Char, text.all metricChar = true → '\n' ∉ text := by
    intro text all mem
    exact absurd (List.all_eq_true.mp all _ mem) (by decide)
  obtain _ | ⟨⟨key, label⟩, _ | ⟨other, more⟩⟩ := labels
  · obtain ⟨taken, left⟩ := @takes_key metricChar name.toList ' '
      (Json.renderInt (.ofNat n)) isName (by decide)
    refine ⟨?_, ?_, by simp⟩
    · simp only [Gauge.series, if_true, List.append_nil, seriesOf, taken, left]
      rfl
    · rw [Gauge.series, if_pos rfl, List.append_nil, List.mem_append, List.mem_cons]
      rintro (mem | blank | mem)
      · exact unbroken _ isName mem
      · exact absurd blank (by decide)
      · exact digits mem
  · have isKey := keys (key, label) List.mem_cons_self
    dsimp only at isKey
    have text : (Gauge.mk name [(key, label)] (number n)).series ++ ' ' ::
        Json.renderInt (.ofNat n) = name.toList ++ '\x7b' :: (renderLabels [(key, label)] ++
          '\x7d' :: ' ' :: Json.renderInt (.ofNat n)) := by
      simp [Gauge.series]
    dsimp only
    rw [text]
    obtain ⟨taken, left⟩ := @takes_key metricChar name.toList '\x7b' (renderLabels [(key, label)] ++
      '\x7d' :: ' ' :: Json.renderInt (.ofNat n)) isName (by decide)
    refine ⟨?_, ?_, by simp⟩
    · rw [seriesOf, left, taken, List.length_append, List.length_cons, ← Nat.add_assoc]
      simp only [readLabels_one isKey]
      rfl
    · simp only [renderLabels, List.mem_append, List.mem_cons, List.not_mem_nil, or_false]
      rintro (mem | brace | (mem | equals | quote | mem | quote) | brace | blank | mem)
      · exact unbroken _ isName mem
      · exact absurd brace (by decide)
      · exact unbroken _ isKey mem
      · exact absurd equals (by decide)
      · exact absurd quote (by decide)
      · exact newline_escapeLabel label mem
      · exact absurd quote (by decide)
      · exact absurd brace (by decide)
      · exact absurd blank (by decide)
      · exact digits mem
  · simp only [List.length_cons] at few
    omega

theorem gauge_line {g : Gauge} (wf : WellFormed g) : ∃ line, g.line = some line := by
  obtain ⟨n, isNumber⟩ := wf.value
  exact ⟨_, by rw [Gauge.line, Gauge.rendered, isNumber, number]; rfl⟩

/-- The lines of the page are the lines of its gauges. -/
theorem pageLines_gauges {gs : List Gauge} (wf : ∀ g ∈ gs, WellFormed g) :
    (pageLines (gs.flatMap Gauge.render)).map seriesOf = gs.map fun g => some g.key := by
  have split : (gs.flatMap Gauge.render).splitOn '\n' = gs.filterMap Gauge.line ++ [[]] := by
    induction gs with
    | nil => rfl
    | cons g gs ih =>
      have first := wf g List.mem_cons_self
      obtain ⟨line, isLine⟩ := gauge_line first
      have rest := ih fun h mem => wf h (List.mem_cons_of_mem _ mem)
      have unbroken := (series_line first isLine).2.1
      rw [List.flatMap_cons, Gauge.render, isLine, List.filterMap_cons, isLine]
      dsimp only
      rw [List.append_assoc, List.singleton_append,
        List.splitOn_append_cons_self_of_not_mem unbroken, rest]
      rfl
  rw [pageLines, split]
  clear split
  induction gs with
  | nil => rfl
  | cons g gs ih =>
    have first := wf g List.mem_cons_self
    obtain ⟨line, isLine⟩ := gauge_line first
    obtain ⟨series, -, nonempty⟩ := series_line first isLine
    have rest := ih fun h mem => wf h (List.mem_cons_of_mem _ mem)
    rw [List.filterMap_cons, isLine]
    dsimp only
    rw [List.cons_append, List.filter_cons_of_pos (by simpa using nonempty), List.map_cons, rest,
      series, List.map_cons]

/-- A page repeats no series when its gauges are about different ones. -/
theorem noRepeats_iff {gs : List Gauge} (wf : ∀ g ∈ gs, WellFormed g) :
    NoRepeats (gs.flatMap Gauge.render) ↔ (gs.map Gauge.key).Nodup := by
  have keys : (gs.map fun g => some g.key) = (gs.map Gauge.key).map some := by
    rw [List.map_map]
    rfl
  rw [NoRepeats, pageLines_gauges wf, keys, List.nodup_map_iff (Option.some_injective _)]

end Whdr.Metrics
