import Mathlib.Algebra.Order.BigOperators.Group.List
import Mathlib.Data.List.Nodup
import Whdr.Lib.SessionSteps
import Whdr.SubKit.KitsAgree

/-! A server of a later protocol: its frames have fields the kits do not know, in any order, and
some are of types the kits do not know. The kits make of them what they make of the rest. -/
namespace Whdr.Kits

open Serde (Fields required tagged once_filter lookup_filter)
open SubscribeFrames (Kit)
open Sessions (Ignores Matches)
open Wire (toJson ofJson tag uuid)

variable {handler : Handler} {capacity : Nat} {lib : Library}

/-! ## Fields among others -/

/-- Some kit takes the field for one of this name: Go reads names in any case. -/
def isNamed (name : String) (field : String × Json) : Bool := Go.foldName field.1 = Go.foldName name

/-- The one field of the name. -/
def Alone (fields : Fields) (name : String) (j : Json) : Prop :=
  fields.filter (isNamed name) = [(name, j)]

section
variable {fields : Fields} {name : String} {j : Json}

theorem isNamed_self (name : String) (j : Json) : isNamed name (name, j) = true :=
  decide_eq_true rfl

theorem Alone.once (alone : Alone fields name j) : Serde.once fields name = some (some j) := by
  rw [← once_filter (isNamed name) (isNamed_self name), alone]
  simp [Serde.once]

theorem Alone.lookup (alone : Alone fields name j) : fields.lookup name = some j := by
  rw [← lookup_filter (isNamed name) (isNamed_self name), alone]
  simp

theorem Alone.last (alone : Alone fields name j) : Kits.last fields name = some j := by
  rw [Kits.last, ← lookup_filter (isNamed name) (isNamed_self name), List.filter_reverse, alone]
  simp

theorem Alone.field {α : Type} (alone : Alone fields name j) (present : j ≠ .null)
    (decode : Json → Option α) (zero : α) : Go.field fields name decode zero = decode j := by
  have only : Go.field fields name decode zero = Go.field [(name, j)] name decode zero := by
    rw [← alone, Go.field, Go.field, List.foldlM_filter]
    congr 1
    funext value given
    split <;> simp [isNamed, *]
  rw [only]
  cases j with
  | null => exact absurd rfl present
  | _ => simp [Go.field]

/-- Of the fields without a tag, too. -/
theorem Alone.untagged (alone : Alone fields name j) (other : name ≠ "type") :
    Serde.once (fields.filter fun field => field.1 ≠ "type") name = some (some j) := by
  rw [once_filter _ (by simpa using fun _ => other)]
  exact alone.once

end

/-! ## Messages of a later protocol -/

def fieldsOf (m : SubServerMsg) : Fields :=
  match toJson m with
  | .obj fields => fields
  | _ => []

/-- The fields of the message, and others. -/
def Carries (fields : Fields) (m : SubServerMsg) : Prop :=
  ∀ field ∈ fieldsOf m, Alone fields field.1 field.2

def kinds : List String :=
  ["welcome", "ok", "error", "event", "replayed", "replay_gap", "lagged", "pong", "closing"]

/-- A message of a later protocol: one of this protocol with more fields, or one of a type that
this protocol does not have. -/
inductive Later
  | extended (m : SubServerMsg) (fields : Fields) (carries : Carries fields m)
  | foreign (kind : String) (fields : Fields) (tagged : Alone fields "type" (.str kind))
      (new : kind ∉ kinds)

namespace Later

def json : Later → Json
  | .extended _ fields _ | .foreign _ fields _ _ => .obj fields

def text (l : Later) : Text := l.json.render

/-- The message as far as this protocol has it. -/
def plain : Later → Option SubServerMsg
  | .extended m _ _ => some m
  | .foreign _ _ _ _ => none

/-- The library reads it, and the transport takes it. -/
structure Passes (lib : Library) (l : Later) : Prop where
  sendable : ∀ m ∈ l.plain, Sendable m
  fits : l.json.Fits
  takes : lib.Takes l.text

end Later

/-! ## Each kit -/

/-- The kit makes the message of its fields, and nothing of a type it does not know. -/
structure Tolerant {F : Type} (parse : Json → Option F) (frame : SubServerMsg → F) : Prop where
  reads : ∀ m fields, Sendable m → Carries fields m → parse (.obj fields) = some (frame m)
  skips : ∀ kind fields, Alone fields "type" (.str kind) → kind ∉ kinds → parse (.obj fields) = none

attribute [local simp] fieldsOf toJson tag uuid Wire.closingReason frameOf Rust.deliveredEvent

attribute [local simp] pythonKit Python.parseFrame Python.asStr Python.asInt in
theorem python_tolerant : Tolerant pythonKit.parse (frameOf pythonKit.reason) where
  reads m fields _ carries := by
    have given : ∀ field ∈ fieldsOf m, last fields field.1 = some field.2 :=
      fun field mem => (carries field mem).last
    cases m with
    | closing r =>
      simp at given
      cases r <;> simp [given]
    | _ =>
      simp at given
      simp [given]
  skips kind fields tagged new := by
    simp only [kinds, List.mem_cons, not_or] at new
    simp [tagged.last, new]

attribute [local simp] typescriptKit TypeScript.parseServerFrame TypeScript.asString
  TypeScript.closingReason in
theorem typescript_tolerant : Tolerant typescriptKit.parse (frameOf typescriptKit.reason) where
  reads m fields sendable carries := by
    have given : ∀ field ∈ fieldsOf m, last fields field.1 = some field.2 :=
      fun field mem => (carries field mem).last
    cases m with
    | event e =>
      simp at given
      simp [given, asNumber_small sendable.2.1, asNumber_small sendable.2.2]
    | replayed throughSeq =>
      simp at given
      simp [given, asNumber_small sendable]
    | replayGap fromSeq earliestSeq =>
      simp at given
      simp [given, asNumber_small sendable.1, asNumber_small sendable.2]
    | lagged dropped =>
      simp at given
      simp [given, asNumber_small sendable]
    | closing r =>
      simp at given
      cases r <;> simp [given]
    | _ =>
      simp at given
      simp [given]
  skips kind fields tagged new := by
    simp only [kinds, List.mem_cons, not_or] at new
    simp [tagged.last, new]

attribute [local simp] ocamlKit OCaml.parseServerFrame OCaml.str OCaml.i64 OCaml.closingReason in
theorem ocaml_tolerant : Tolerant ocamlKit.parse (frameOf ocamlKit.reason) where
  reads m fields sendable carries := by
    have given : ∀ field ∈ fieldsOf m, fields.lookup field.1 = some field.2 :=
      fun field mem => (carries field mem).lookup
    cases m with
    | event e =>
      simp at given
      simp [given, toInt64_small sendable.2.1, toInt64_small sendable.2.2]
    | replayed throughSeq =>
      simp at given
      simp [given, toInt64_small sendable]
    | replayGap fromSeq earliestSeq =>
      simp at given
      simp [given, toInt64_small sendable.1, toInt64_small sendable.2]
    | lagged dropped =>
      simp at given
      simp [given, toInt64_small sendable]
    | closing r =>
      simp at given
      cases r <;> simp [given]
    | _ =>
      simp at given
      simp [given]
  skips kind fields tagged new := by
    simp only [kinds, List.mem_cons, not_or] at new
    simp [tagged.lookup, new]

theorem present (m : SubServerMsg) : ∀ field ∈ fieldsOf m, field.2 ≠ .null := by
  cases m with
  | closing r => cases r <;> simp
  | _ => simp

attribute [local simp] goKit Go.parseFrame Go.string Go.uint64 in
theorem go_tolerant : Tolerant goKit.parse (frameOf goKit.reason) where
  reads m fields sendable carries := by
    have given : ∀ field ∈ fieldsOf m, ∀ (α : Type) (decode : Json → Option α) (zero : α),
        Go.field fields field.1 decode zero = decode field.2 :=
      fun field mem α decode zero => (carries field mem).field (present m field mem) decode zero
    have number {n : Nat} (small : n < 2 ^ 53) : Serde.nat u64Size (.num n) = some n :=
      Serde.nat_num (small_u64 small)
    cases m with
    | event e =>
      simp at given
      simp [given, number sendable.2.1, number sendable.2.2]
    | replayed throughSeq =>
      simp at given
      simp [given, number sendable]
    | replayGap fromSeq earliestSeq =>
      simp at given
      simp [given, number sendable.1, number sendable.2]
    | lagged dropped =>
      simp at given
      simp [given, number sendable]
    | closing r =>
      simp at given
      cases r <;> simp [given]
    | _ =>
      simp at given
      simp [given]
  skips kind fields tagged new := by
    have type : Go.field fields "type" Serde.string "" = some kind :=
      tagged.field (by rintro ⟨⟩) Serde.string ""
    simp only [kinds, List.mem_cons, not_or] at new
    simp [type, new]

theorem rust_tolerant : Tolerant ofJson (fun m : SubServerMsg => m) where
  reads m fields sendable carries := by
    have typed : ∀ kind, Serde.once fields "type" = some (some (.str kind)) →
        tagged "type" (.obj fields) = some (kind, fields.filter fun field => field.1 ≠ "type") :=
      fun kind once => by simp only [tagged, once]
    have tag : ∀ field ∈ fieldsOf m, Serde.once fields field.1 = some (some field.2) :=
      fun field mem => (carries field mem).once
    have given : ∀ field ∈ fieldsOf m, field.1 ≠ "type" → ∀ (α : Type) (decode : Json → Option α),
        required (fields.filter fun field => field.1 ≠ "type") field.1 decode = decode field.2 := by
      intro field mem other α decode
      simp only [required, (carries field mem).untagged other]
    have number {n : Nat} (small : n < 2 ^ 53) : Serde.nat u64Size (.num n) = some n :=
      Serde.nat_num (small_u64 small)
    cases m with
    | event e =>
      have id := Ndjson.ofUuid_uuid sendable.1
      simp at given tag id
      simp [ofJson, typed, tag, given, id, number sendable.2.1, number sendable.2.2]
    | replayed throughSeq =>
      simp at given tag
      simp [ofJson, typed, tag, given, number sendable]
    | replayGap fromSeq earliestSeq =>
      simp at given tag
      simp [ofJson, typed, tag, given, number sendable.1, number sendable.2]
    | lagged dropped =>
      simp at given tag
      simp [ofJson, typed, tag, given, number sendable]
    | closing r =>
      have reason := Ndjson.closingReason_back r
      simp at given tag reason
      simp [ofJson, typed, tag, given, reason]
    | _ =>
      simp at given tag
      simp [ofJson, typed, tag, given]
  skips kind fields tagged new := by
    simp only [kinds, List.mem_cons, not_or] at new
    simp [ofJson, Serde.tagged, tagged.once, new]

/-! ## Runs -/

section
variable {F : Type} {parse : Json → Option F} {frame : SubServerMsg → F} {l : Later}

theorem recv_skipped (tolerant : Tolerant parse frame) (correct : lib.Correct)
    (passes : l.Passes lib) (unknown : l.plain = none) : recv lib parse l.text = .skipped := by
  cases l with
  | extended m fields carries => cases unknown
  | foreign kind fields tagged new =>
    have parsed := tolerant.skips kind fields tagged new
    rw [recv, if_pos passes.takes, Later.text, correct _ passes.fits, Option.bind_some, Later.json,
      parsed]

theorem recv_plain (tolerant : Tolerant parse frame) (correct : lib.Correct)
    (passes : l.Passes lib) {m : SubServerMsg} (known : l.plain = some m) :
    recv lib parse l.text = .frame (frame m) := by
  cases l with
  | foreign kind fields tagged new => cases known
  | extended m fields carries =>
    cases known
    have parsed := tolerant.reads m fields (passes.sendable m rfl) carries
    rw [recv, if_pos passes.takes, Later.text, correct _ passes.fits, Option.bind_some, Later.json,
      parsed]

end

theorem text_ignores {k : TextKit} (lawful : k.Lawful)
    (tolerant : Tolerant k.parse (frameOf k.reason)) (correct : lib.Correct) {l : Later}
    (passes : l.Passes lib) :
    Ignores (k.client lib handler) (machine handler capacity) Later.text Later.plain
      (Alike (Holds capacity)) l where
  skips new := recv_skipped tolerant correct passes new
  reads m known :=
    { message := ⟨frameOf k.reason m, m, recv_plain tolerant correct passes known, rfl,
        isWelcome_frameOf k.reason m, fun _ _ alike => text_follows lawful m alike⟩
      connected := fun _ _ alike => alike.connected alike.resume.cursor }

theorem rust_ignores (correct : lib.Correct) {l : Later} (passes : l.Passes lib) :
    Ignores (Rust.client lib handler) (machine handler capacity) Later.text Later.plain
      (Alike (RustHolds capacity)) l where
  skips new := recv_skipped rust_tolerant correct passes new
  reads m known :=
    { message := ⟨m, m, recv_plain rust_tolerant correct passes known, rfl, rfl,
        fun _ _ alike => rust_follows (passes.sendable m known) alike⟩
      connected := fun _ _ alike => alike.connected alike.resume.holds.cursor }

/-! ## The texts -/

def fieldSize (field : String × Json) : Nat :=
  size (Json.renderStr field.1) + size field.2.render + 2

theorem size_renderFields (fields : Fields) :
    size (Json.renderFields fields) = (fields.map fieldSize).sum := by
  induction fields with
  | nil => rw [Json.renderFields]; rfl
  | cons field rest ih =>
    have comma : Char.utf8Size ',' = 1 := rfl
    have colon : Char.utf8Size ':' = 1 := rfl
    simp only [Json.renderFields, size_cons, size_append, ih, List.map_cons, List.sum_cons,
      fieldSize, comma, colon]
    omega

theorem size_obj {fields : Fields} (some : fields ≠ []) :
    size (Json.obj fields).render = (fields.map fieldSize).sum + 1 := by
  cases fields with
  | nil => exact absurd rfl some
  | cons field rest =>
    have opening : Char.utf8Size '\x7b' = 1 := rfl
    have closing : Char.utf8Size '\x7d' = 1 := rfl
    have colon : Char.utf8Size ':' = 1 := rfl
    have none : size [] = 0 := rfl
    simp only [Json.render, size_cons, size_append, size_renderFields, List.map_cons, List.sum_cons,
      fieldSize, opening, closing, colon, none]
    omega

theorem Alone.mem {fields : Fields} {name : String} {j : Json} (alone : Alone fields name j) :
    (name, j) ∈ fields := by
  have inside : (name, j) ∈ fields.filter (isNamed name) := by
    rw [alone]
    exact List.mem_singleton.mpr rfl
  exact (List.mem_filter.mp inside).1

theorem fieldsOf_nodup (m : SubServerMsg) : (fieldsOf m).Nodup := by
  apply List.Nodup.of_map Prod.fst
  cases m with
  | closing r => cases r <;> simp
  | _ => simp

theorem render_fieldsOf (m : SubServerMsg) : toJson m = .obj (fieldsOf m) ∧ fieldsOf m ≠ [] := by
  cases m <;> exact ⟨rfl, List.cons_ne_nil _ _⟩

/-- More fields make a longer text. -/
theorem size_plain {l : Later} {m : SubServerMsg} (known : l.plain = some m) :
    size (frameText m) ≤ size l.text := by
  cases l with
  | foreign kind fields tagged new => cases known
  | extended m fields carries =>
    cases known
    obtain ⟨rendered, some⟩ := render_fieldsOf m
    have inside : fieldsOf m ⊆ fields := fun field mem => (carries field mem).mem
    have more : fields ≠ [] := fun none => some (List.subset_nil.mp (none ▸ inside))
    obtain ⟨same, perm, sub⟩ := List.subperm_of_subset (fieldsOf_nodup m) inside
    rw [Later.text, Later.json, frameText, rendered, size_obj some, size_obj more,
      (perm.map fieldSize).symm.sum_eq]
    exact Nat.add_le_add_right ((sub.map fieldSize).sum_le_sum fun _ _ => Nat.zero_le _) 1

theorem passes_plain {l : Later} {m : SubServerMsg} (passes : l.Passes lib)
    (known : l.plain = some m) : lib.Passes m where
  sendable := passes.sendable m known
  takes limit isLimit := Nat.le_trans (size_plain known) (passes.takes limit isLimit)

/-! ## Runs -/

/-- A run up to the messages not read of the connection it stopped in. -/
def course (run : Outcome) : List Act × Option Nat := (run.1, run.2.map Prod.fst)

theorem text_run_later {k : TextKit} (lawful : k.Lawful)
    (tolerant : Tolerant k.parse (frameOf k.reason)) (correct : lib.Correct)
    {sessions : List (List Later)} (passes : ∀ ls ∈ sessions, ∀ l ∈ ls, l.Passes lib)
    {s : Loop Resume} {t : Loop Window} (alike : Alike (Holds capacity) s t) :
    course (outcome ((k.client lib handler).run (sessions.map (List.map Later.text)) s)) =
      course (outcome ((machine handler capacity).run
        (sessions.map (List.filterMap Later.plain)) t)) := by
  obtain ⟨state, stop⟩ := Sessions.run_ignores (a := k.client lib handler)
    (b := machine handler capacity) lawful.closed
    (fun ls inside l mem => text_ignores lawful tolerant correct (passes ls inside l mem)) alike
  exact Prod.ext state.acts stop

theorem run_later_machine (setup : Setup) (correct : ∀ kit, (setup.library kit).Correct)
    (sessions : List (List Later)) (kit : Kit)
    (passes : ∀ ls ∈ sessions, ∀ l ∈ ls, l.Passes (setup.transport kit)) :
    course (setup.run (sessions.map (List.map Later.text)) kit) =
      course (outcome ((machine setup.handler (window setup.capacity kit)).run
        (sessions.map (List.filterMap Later.plain)) ⟨⟨setup.cursor.value, []⟩, []⟩)) := by
  have libCorrect := transport_correct correct kit
  have cursor := setup.cursor.held kit
  cases kit with
  | rust =>
    have start := rust_start setup.cursor.value setup.capacity
    obtain ⟨state, stop⟩ := Sessions.run_ignores
      (a := Rust.client (setup.transport .rust) setup.handler)
      (b := machine setup.handler (window setup.capacity .rust)) rfl
      (fun ls inside l mem => rust_ignores libCorrect (passes ls inside l mem)) start
    exact Prod.ext state.acts stop
  | go =>
    simp only [Setup.run, go_client]
    exact text_run_later go_lawful go_tolerant libCorrect passes
      (holds_start cursor (go_capacity _ 0))
  | python =>
    have limit : max (max (setup.capacity : Int) 1) 1 = (window setup.capacity .python : Nat) := by
      simp only [window]
      omega
    simp only [Setup.run, python_client]
    exact text_run_later python_lawful python_tolerant libCorrect passes (holds_start cursor limit)
  | typescript =>
    simp only [Setup.run, typescript_client]
    exact text_run_later typescript_lawful typescript_tolerant libCorrect passes
      (holds_start cursor (other_capacity _))
  | ocaml =>
    simp only [Setup.run, ocaml_client]
    exact text_run_later ocaml_lawful ocaml_tolerant libCorrect passes
      (holds_start cursor (other_capacity _))

/-- With a server of a later protocol, every kit makes the run it makes with a server of this
protocol that sends the messages this protocol has: the same calls, the same cursors saved
and sent, and a stop in the same connection, if any. -/
theorem kits_tolerate_later (setup : Setup) (correct : ∀ kit, (setup.library kit).Correct)
    (sessions : List (List Later)) (kit : Kit)
    (passes : ∀ ls ∈ sessions, ∀ l ∈ ls, l.Passes (setup.transport kit)) :
    course (setup.run (sessions.map (List.map Later.text)) kit) =
      course (setup.run (texts (sessions.map (List.filterMap Later.plain))) kit) := by
  have plain : ∀ ms ∈ sessions.map (List.filterMap Later.plain), ∀ m ∈ ms,
      (setup.transport kit).Passes m := by
    intro ms inside m mem
    obtain ⟨ls, insideLs, rfl⟩ := List.mem_map.mp inside
    obtain ⟨l, memL, known⟩ := List.mem_filterMap.mp mem
    exact passes_plain (passes ls insideLs l memL) known
  rw [run_later_machine setup correct sessions kit passes, run_machine setup correct _ kit plain]

/-- A welcome with a version in front, a frame of statistics, and an event with a trace and its
fields in another order. -/
def tracedEvent : List (List Later) :=
  [[.extended (.welcome "sub") [("version", .num 3), ("name", .str "sub"), ("type", .str "welcome")]
      (List.forall_mem_cons.mpr ⟨rfl, List.forall_mem_singleton.mpr rfl⟩),
    .foreign "stats" [("type", .str "stats"), ("seq", .str "none")] rfl (by decide),
    .extended (.event ⟨1, 1, 0, "c", ""⟩)
      [("seq", .num 1), ("payload_b64", .str ""), ("trace", .obj [("type", .null)]), ("ts_ms", .num 0),
        ("type", .str "event"), ("channel", .str "c"), ("id", uuid 1)]
      (by simp only [Carries, fieldsOf, toJson, tag, List.forall_mem_cons]
          exact ⟨rfl, rfl, rfl, rfl, rfl, rfl, List.forall_mem_nil _⟩)]]

theorem tracedEvent_passes (kit : Kit) :
    ∀ ls ∈ tracedEvent, ∀ l ∈ ls, l.Passes ((shipped 1).transport kit) := by
  have short : ∀ ls ∈ tracedEvent, ∀ l ∈ ls, size l.text ≤ 2 ^ 20 := by decide +kernel
  have fits : ∀ ls ∈ tracedEvent, ∀ l ∈ ls, l.json.Fits := by
    simp [tracedEvent, Later.json, uuid, Json.Fits]
  have sendable : ∀ ls ∈ tracedEvent, ∀ l ∈ ls, ∀ m ∈ l.plain, Sendable m := by
    simp [tracedEvent, Later.plain, Sendable, Wire.uuidSize]
  intro ls inside l mem
  exact ⟨sendable ls inside l mem, fits ls inside l mem,
    fun limit isLimit => Nat.le_trans (short ls inside l mem) (shipped_limit 1 kit limit isLimit)⟩

theorem kits_tolerate_later_traced :
    (∀ kit, ((shipped 1).library kit).Correct) ∧
      (∀ ls ∈ tracedEvent, ∀ l ∈ ls, l.Passes ((shipped 1).transport .go)) ∧
      course ((shipped 1).run (tracedEvent.map (List.map Later.text)) .go) =
        course ((shipped 1).run (texts (tracedEvent.map (List.filterMap Later.plain))) .go) :=
  ⟨shipped_correct 1, tracedEvent_passes .go,
    kits_tolerate_later (shipped 1) (shipped_correct 1) tracedEvent .go (tracedEvent_passes .go)⟩

end Whdr.Kits
