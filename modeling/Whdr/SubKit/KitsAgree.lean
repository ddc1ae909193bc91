import Whdr.SubKit.TextKits

/-! The five kits make the same run. -/
namespace Whdr.Kits

open SubscribeFrames (Kit)
open Wire (toJson tag uuidSize)

variable {handler : Handler} {capacity : Nat} {lib : Library}

/-! ## All five -/

/-- The dedup window a kit makes of a capacity: Go takes its default for none. -/
def window (capacity : Nat) : Kit → Nat
  | .go => if capacity = 0 then 8192 else capacity
  | _ => max capacity 1

def texts (sessions : List (List SubServerMsg)) : List (List Text) :=
  sessions.map (List.map frameText)

theorem holds_start {cursor limit : Int} {n : Nat} (same : cursor = n) (isLimit : limit = capacity) :
    Alike (Holds capacity) ⟨⟨cursor, [], [], limit⟩, []⟩ ⟨⟨n, []⟩, []⟩ where
  resume := ⟨same, rfl, fun _ => Iff.rfl, List.nodup_nil, Nat.zero_le _, isLimit⟩
  acts := rfl

theorem rust_start (cursor capacity : Nat) :
    Alike (RustHolds (window capacity .rust)) (Rust.start cursor capacity) ⟨⟨cursor, []⟩, []⟩ := by
  have limit : max (max capacity 1) 1 = window capacity .rust := by
    simp only [window]
    omega
  refine ⟨⟨fun _ mem => ?_, (holds_start rfl (congrArg Int.ofNat limit)).resume⟩, rfl⟩
  obtain inside | inside := mem <;> cases inside

theorem go_capacity (capacity : Nat) (cursor : Int) :
    (Go.start cursor capacity).resume.capacity = window capacity .go := by
  simp only [Go.start, Go.newResumeState, Go.defaultDedupWindow, window]
  split <;> split <;> split <;> omega

theorem other_capacity (capacity : Nat) : max 1 (max 1 (capacity : Int)) = (max capacity 1 : Nat) := by
  omega

theorem transport_correct {setup : Setup} (correct : ∀ kit, (setup.library kit).Correct) (kit : Kit) :
    (setup.transport kit).Correct := by
  cases kit <;> exact correct _

/-- The run of a text kit is the machine's. -/
theorem text_run {k : TextKit} (lawful : k.Lawful) (correct : lib.Correct)
    {sessions : List (List SubServerMsg)} (passes : ∀ ms ∈ sessions, ∀ m ∈ ms, lib.Passes m)
    {s : Loop Resume} {t : Loop Window} (alike : Alike (Holds capacity) s t) :
    outcome ((k.client lib handler).run (texts sessions) s) =
      outcome ((machine handler capacity).run sessions t) := by
  obtain ⟨state, stop⟩ := Sessions.run_agrees (text_simulates lawful correct) passes alike
  exact Prod.ext state.acts stop

theorem run_machine (setup : Setup) (correct : ∀ kit, (setup.library kit).Correct)
    (sessions : List (List SubServerMsg)) (kit : Kit)
    (passes : ∀ ms ∈ sessions, ∀ m ∈ ms, (setup.transport kit).Passes m) :
    setup.run (texts sessions) kit =
      outcome ((machine setup.handler (window setup.capacity kit)).run sessions
        ⟨⟨setup.cursor.value, []⟩, []⟩) := by
  have libCorrect := transport_correct correct kit
  have cursor := setup.cursor.held kit
  cases kit with
  | rust =>
    have start := rust_start setup.cursor.value setup.capacity
    obtain ⟨state, stop⟩ := Sessions.run_agrees (rust_simulates libCorrect) passes start
    exact Prod.ext state.acts stop
  | go =>
    simp only [Setup.run, go_client]
    exact text_run go_lawful libCorrect passes (holds_start cursor (go_capacity _ 0))
  | python =>
    have limit : max (max (setup.capacity : Int) 1) 1 = (window setup.capacity .python : Nat) := by
      simp only [window]
      omega
    simp only [Setup.run, python_client]
    exact text_run python_lawful libCorrect passes (holds_start cursor limit)
  | typescript =>
    simp only [Setup.run, typescript_client]
    exact text_run typescript_lawful libCorrect passes (holds_start cursor (other_capacity _))
  | ocaml =>
    simp only [Setup.run, ocaml_client]
    exact text_run ocaml_lawful libCorrect passes (holds_start cursor (other_capacity _))

theorem window_positive {capacity : Nat} (positive : 0 < capacity) (kit : Kit) :
    window capacity kit = capacity := by
  cases kit with
  | go => exact if_neg (Nat.ne_of_gt positive)
  | rust | python | typescript | ocaml => exact Nat.max_eq_left positive

/-- All kits make the same calls with the same arguments, save the same cursors, send the same
cursors and stop at the same message: for every handler, cursor and dedup capacity but zero,
and for all connections of messages with numbers below 2^53 that the transports take. -/
theorem kits_agree (setup : Setup) (correct : ∀ kit, (setup.library kit).Correct)
    (positive : 0 < setup.capacity) (sessions : List (List SubServerMsg))
    (sendable : ∀ ms ∈ sessions, ∀ m ∈ ms, Sendable m)
    (takes : ∀ kit, ∀ ms ∈ sessions, ∀ m ∈ ms, (setup.transport kit).Takes (frameText m))
    (kit other : Kit) : setup.run (texts sessions) kit = setup.run (texts sessions) other := by
  have same (kit : Kit) := run_machine setup correct sessions kit
    fun ms inside m mem => ⟨sendable ms inside m mem, takes kit ms inside m mem⟩
  rw [same kit, same other, window_positive positive, window_positive positive]

/-! ## Where they differ -/

/-- The limits the libraries come with, in bytes: 16 MiB for a frame of tungstenite, 1 MiB for
a message of websockets, 100 MiB for one of ws. -/
def shippedLimit : Kit → Option Nat
  | .rust => some (16 * 2 ^ 20)
  | .python => some (2 ^ 20)
  | .typescript => some (100 * 2 ^ 20)
  | .go | .ocaml => none

/-- The default settings, a handler that never fails, and all events. -/
def shipped (capacity : Nat) : Setup where
  library kit := ⟨Json.read, shippedLimit kit⟩
  readLimit := 0
  handler _ _ := false
  cursor := ⟨0, fun kit => by cases kit <;> rfl⟩
  capacity

theorem shipped_correct (capacity : Nat) (kit : Kit) : ((shipped capacity).library kit).Correct :=
  Json.read_render

theorem shipped_limit (capacity : Nat) (kit : Kit) :
    ∀ limit ∈ ((shipped capacity).transport kit).limit, 2 ^ 20 ≤ limit := by
  intro limit isLimit
  cases kit with
  | go =>
    have wide : 2 ^ 20 ≤ Go.defaultReadLimit := by decide
    rw [Setup.transport, Go.dial, shipped, if_pos (Int.le_refl 0)] at isLimit
    cases isLimit
    exact wide
  | ocaml => cases isLimit
  | rust | python | typescript =>
    cases isLimit
    decide

/-- One connection on which the first event's id comes again with the third. -/
def repeatedId : List (List SubServerMsg) :=
  [[.welcome "sub", .event ⟨1, 1, 0, "c", ""⟩, .event ⟨2, 2, 0, "c", ""⟩, .event ⟨3, 1, 0, "c", ""⟩]]

theorem repeatedId_sendable : ∀ ms ∈ repeatedId, ∀ m ∈ ms, Sendable m := by
  simp [repeatedId, Sendable, uuidSize]

theorem repeatedId_takes (capacity : Nat) (kit : Kit) :
    ∀ ms ∈ repeatedId, ∀ m ∈ ms, ((shipped capacity).transport kit).Takes (frameText m) := by
  have short : ∀ ms ∈ repeatedId, ∀ m ∈ ms, size (frameText m) ≤ 2 ^ 20 := by decide +kernel
  intro ms inside m mem limit isLimit
  exact Nat.le_trans (short ms inside m mem) (shipped_limit capacity kit limit isLimit)

theorem kits_agree_repeated :
    (∀ kit, ((shipped 1).library kit).Correct) ∧
      (∀ ms ∈ repeatedId, ∀ m ∈ ms, Sendable m) ∧
      (shipped 1).run (texts repeatedId) .go = (shipped 1).run (texts repeatedId) .rust :=
  ⟨shipped_correct 1, repeatedId_sendable,
    kits_agree (shipped 1) (shipped_correct 1) (by decide) repeatedId repeatedId_sendable
      (repeatedId_takes 1) .go .rust⟩

/-- With no dedup capacity the Go kit remembers 8192 ids and the others one. -/
theorem repeatedId_differs :
    (shipped 0).run (texts repeatedId) .go ≠ (shipped 0).run (texts repeatedId) .rust := by
  have same (kit : Kit) := run_machine (shipped 0) (shipped_correct 0) repeatedId kit
    fun ms inside m mem =>
      ⟨repeatedId_sendable ms inside m mem, repeatedId_takes 0 kit ms inside m mem⟩
  rw [same .go, same .rust]
  decide +kernel

/-- One connection with one event. -/
def oneEvent (e : StampedEvent) : List (List SubServerMsg) := [[.welcome "sub", .event e]]

theorem oneEvent_sendable {e : StampedEvent} (sendable : Sendable (.event e)) :
    ∀ ms ∈ oneEvent e, ∀ m ∈ ms, Sendable m :=
  List.forall_mem_singleton.mpr
    (List.forall_mem_cons.mpr ⟨trivial, List.forall_mem_singleton.mpr sendable⟩)

/-- The Rust kit handles an event of up to 16 MiB. -/
theorem rust_handles {e : StampedEvent} (sendable : Sendable (.event e)) (positive : 0 < e.seq)
    (short : size (frameText (.event e)) ≤ 16 * 2 ^ 20) :
    (shipped 1).run (texts (oneEvent e)) .rust =
      ([.subscribe 0, .call (.onEvent (Rust.deliveredEvent e)), .save e.seq], none) := by
  have welcome : size (frameText (.welcome "sub")) ≤ 16 * 2 ^ 20 := by decide
  have takes : ∀ ms ∈ oneEvent e, ∀ m ∈ ms, ((shipped 1).transport .rust).Takes (frameText m) := by
    refine List.forall_mem_singleton.mpr
      (List.forall_mem_cons.mpr ⟨?_, List.forall_mem_singleton.mpr ?_⟩)
    · rintro _ ⟨⟩
      exact welcome
    · rintro _ ⟨⟩
      exact short
  have fresh : Window.fresh ⟨0, []⟩ (Rust.deliveredEvent e) = true := by
    rw [fresh_iff]
    exact ⟨Int.natCast_pos.mpr positive, List.not_mem_nil⟩
  rw [run_machine (shipped 1) (shipped_correct 1) _ .rust fun ms inside m mem =>
    ⟨oneEvent_sendable sendable ms inside m mem, takes ms inside m mem⟩]
  have handled : (machine (shipped 1).handler 1).dispatch (.event e) ⟨⟨0, []⟩, [.subscribe 0]⟩ =
      .next ⟨Window.handled ⟨0, []⟩ 1 (Rust.deliveredEvent e),
        [.subscribe 0, .call (.onEvent (Rust.deliveredEvent e)), .save e.seq]⟩ :=
    if_pos fresh
  exact congrArg outcome (Sessions.Client.run_next (c := machine (shipped 1).handler 1)
    (w := .welcome "sub") (s := ⟨⟨0, []⟩, []⟩) rfl rfl rfl handled rfl)

theorem python_broken {w m : Text} {name : String} {s : Loop Resume}
    (opened : recv lib Python.parseFrame w = .frame (.welcome name))
    (lost : recv lib Python.parseFrame m = .broken) :
    (Python.client lib handler).run [[w, m]] s = (s.act (.subscribe s.resume.cursor), none) :=
  Sessions.Client.run_broken (c := Python.client lib handler) (f := Frame.welcome name) opened rfl
    lost rfl

/-- The Python kit ends its session at a message over a mebibyte. -/
theorem python_gives_up {e : StampedEvent} (long : 2 ^ 20 < size (frameText (.event e))) :
    (shipped 1).run (texts (oneEvent e)) .python = ([.subscribe 0], none) := by
  have opened : recv ((shipped 1).transport .python) Python.parseFrame (frameText (.welcome "sub")) =
      .frame (.welcome "sub") := by
    refine recv_frame (shipped_correct 1 .python) ⟨trivial, ?_⟩ rfl
    rintro _ ⟨⟩
    decide
  have tooLong : ¬ ((shipped 1).transport .python).Takes (frameText (.event e)) := by
    intro takes
    have short : size (frameText (.event e)) ≤ 2 ^ 20 := takes _ rfl
    omega
  have gone : recv ((shipped 1).transport .python) Python.parseFrame (frameText (.event e)) =
      .broken := by
    rw [recv, if_neg tooLong]
  exact congrArg outcome (python_broken opened gone)

/-- An event with a mebibyte of base64. -/
def largeEvent : StampedEvent := ⟨1, 1, 0, "c", String.ofList (List.replicate (2 ^ 20) 'A')⟩

theorem size_append (a b : Text) : size (a ++ b) = size a + size b := by
  simp [size]

theorem size_cons (c : Char) (cs : Text) : size (c :: cs) = c.utf8Size + size cs := by
  simp [size]

theorem escape_letters (n : Nat) :
    (List.replicate n 'A').flatMap Json.escape = List.replicate n 'A' := by
  induction n with
  | zero => rfl
  | succ n ih =>
    rw [List.replicate_succ, List.flatMap_cons, ih]
    rfl

theorem size_letters (n : Nat) : size (List.replicate n 'A') = n := by
  induction n with
  | zero => rfl
  | succ n ih =>
    rw [List.replicate_succ, size_cons, ih, Nat.add_comm]
    rfl

theorem size_largeEvent : size (frameText (.event largeEvent)) = 2 ^ 20 + 109 := by
  have payload : size (Json.renderStr largeEvent.payloadB64) = 2 ^ 20 + 2 := by
    rw [largeEvent, Json.renderStr, String.toList_ofList, escape_letters, size_cons, size_append,
      size_letters]
    rfl
  simp only [frameText, toJson, tag, Json.render, Json.renderFields, size_cons, size_append, payload]
  decide +kernel

/-- The Go kit takes a dedup capacity of zero for its default, and the Python transport takes no
message of more than a mebibyte. -/
theorem kits_differ :
    (∃ sessions, (∀ ms ∈ sessions, ∀ m ∈ ms, Sendable m) ∧
      (∀ kit, ∀ ms ∈ sessions, ∀ m ∈ ms, ((shipped 0).transport kit).Takes (frameText m)) ∧
      (shipped 0).run (texts sessions) .go ≠ (shipped 0).run (texts sessions) .rust) ∧
    ∃ sessions, (∀ ms ∈ sessions, ∀ m ∈ ms, Sendable m) ∧
      (shipped 1).run (texts sessions) .python ≠ (shipped 1).run (texts sessions) .rust := by
  have sendable : Sendable (.event largeEvent) := show _ ∧ _ ∧ _ by decide
  have long : 2 ^ 20 < size (frameText (.event largeEvent)) := by
    rw [size_largeEvent]
    decide
  have short : size (frameText (.event largeEvent)) ≤ 16 * 2 ^ 20 := by
    rw [size_largeEvent]
    decide
  refine ⟨⟨repeatedId, repeatedId_sendable, repeatedId_takes 0, repeatedId_differs⟩,
    ⟨oneEvent largeEvent, oneEvent_sendable sendable, ?_⟩⟩
  rw [python_gives_up long, rust_handles sendable (by decide) short]
  intro same
  have lengths := congrArg (fun run : Outcome => run.1.length) same
  cases lengths

end Whdr.Kits
