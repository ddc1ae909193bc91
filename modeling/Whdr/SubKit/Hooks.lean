import Whdr.SubKit.TextKits

/-! What a hook throws, on its way out of the run loop: `callHook`, `#runSession` and `run` of
subscriber.ts, `_dispatch_control`, `_run_session` and `run` of _subscriber.py. -/
namespace Whdr.Hooks

open Kits (Text Call Resume Library TextKit)
open Sessions (Flow)

variable {Exn E : Type}

/-! ## The loop with hooks that throw -/

/-- What leaves a session: an error of the kit, a `HandlerError` or a `CursorStoreError` with
its cause, or something thrown, as it is. -/
inductive Failure (E Exn : Type)
  | kit (e : E)
  | handler (message : String) (cause : Exn)
  | cursorStore (message : String) (cause : Exn)
  | thrown (x : Exn)
  deriving DecidableEq, Repr

/-- What a hook threw, if the failure is a hook's. -/
def Failure.cause : Failure E Exn → Option Exn
  | .handler _ x | .thrown x => some x
  | .cursorStore _ _ | .kit _ => none

/-- What a run does: it connects and subscribes, a hook returns or throws, the store saves a
cursor or throws. -/
inductive Step (Exn : Type)
  | connect
  | subscribe (afterSeq : Int)
  | returned (c : Call)
  | threw (c : Call) (x : Exn)
  | saved (cursor : Int)
  | unsaved (cursor : Int) (x : Exn)
  deriving DecidableEq, Repr

/-- What the hooks and the store throw, which may depend on all that was done before. -/
structure App (Exn : Type) where
  hooks : List (Step Exn) → Call → Option Exn
  save : List (Step Exn) → Int → Option Exn

structure Loop (Exn : Type) where
  resume : Resume
  steps : List (Step Exn)
  deriving DecidableEq, Repr

def Loop.step (s : Loop Exn) (a : Step Exn) : Loop Exn := { s with steps := s.steps ++ [a] }

/-- What a kit makes of the things its hooks and its store throw, and which failures leave
its run loop. -/
structure HookKit (Exn : Type) where
  kit : TextKit
  hookThrew : Call → Exn → Failure kit.Error Exn
  saveThrew : Exn → Failure kit.Error Exn
  fatal : Failure kit.Error Exn → Bool

/-- A turn of the run loop: what the connection brings, and whether the abort signal is set
before and after it. -/
structure Turn (E : Type) where
  abortedBefore : Bool
  connection : Except E (List Text)
  abortedAfter : Bool

inductive Outcome (E Exn : Type)
  | running
  | returned
  | failed (e : Failure E Exn)
  deriving DecidableEq, Repr

namespace HookKit

variable (k : HookKit Exn) (lib : Library) (app : App Exn)

def call (s : Loop Exn) (c : Call)
    (after : Loop Exn → Flow (Loop Exn) (Failure k.kit.Error Exn)) :
    Flow (Loop Exn) (Failure k.kit.Error Exn) :=
  match app.hooks s.steps c with
  | some x => .ends (s.step (.threw c x)) (.error (k.hookThrew c x))
  | none => after (s.step (.returned c))

/-- `record` after a handled event, then `save`. -/
def record (s : Loop Exn) (ev : Kits.Delivered) : Flow (Loop Exn) (Failure k.kit.Error Exn) :=
  let resume := s.resume.record ev.id ev.seq
  match app.save s.steps resume.cursor with
  | some x => .ends ⟨resume, s.steps ++ [.unsaved resume.cursor x]⟩ (.error (k.saveThrew x))
  | none => .next ⟨resume, s.steps ++ [.saved resume.cursor]⟩

def reconnect (s : Loop Exn) : Flow (Loop Exn) (Failure k.kit.Error Exn) :=
  .ends s (k.kit.reconnect.mapError .kit)

def dispatch (frame : Kits.Frame k.kit.Reason) (s : Loop Exn) :
    Flow (Loop Exn) (Failure k.kit.Error Exn) :=
  match frame with
  | .event ev =>
    if s.resume.shouldProcess ev.id ev.seq then
      k.call app s (.onEvent ev) fun s => k.record app s ev
    else .next s
  | .replayed throughSeq => k.call app s (.onReplayed throughSeq) .next
  | .replayGap fromSeq earliestSeq => k.call app s (.onReplayGap fromSeq earliestSeq) .next
  | .lagged dropped => k.call app s (.onLagged dropped) k.reconnect
  | .error op msg =>
    if op = "replay" then k.call app s (.onReplayUnavailable msg) .next else .next s
  | .closing reason =>
    if k.kit.isRevoked reason then .ends s (.error (.kit k.kit.revoked)) else k.reconnect s
  | .welcome _ | .ok _ | .pong => .next s

def client : Sessions.Client Text (Loop Exn) where
  Frame := Kits.Frame k.kit.Reason
  Error := Failure k.kit.Error Exn
  recv := Kits.recv lib k.kit.parse
  opens := Kits.Frame.isWelcome
  connected s := s.step (.subscribe s.resume.cursor)
  dispatch := k.dispatch app
  broken := .kit k.kit.broken
  closed := .kit k.kit.closed
  fatal := k.fatal

def runSession (connection : Except k.kit.Error (List Text)) (s : Loop Exn) :
    Loop Exn × Except (Failure k.kit.Error Exn) Unit :=
  match connection with
  | .error e => (s, .error (.kit e))
  | .ok messages =>
    let (s, result, _) := (k.client lib app).runSession messages s
    (s, result)

/-- A fatal failure is thrown on, even after an abort. -/
def run : List (Turn k.kit.Error) → Loop Exn → Loop Exn × Outcome k.kit.Error Exn
  | [], s => (s, .running)
  | turn :: more, s =>
    if turn.abortedBefore then (s, .returned)
    else
      match k.runSession lib app turn.connection (s.step .connect) with
      | (s, .error e) =>
        if k.fatal e then (s, .failed e)
        else if turn.abortedAfter then (s, .returned)
        else run more s
      | (s, .ok ()) => if turn.abortedAfter then (s, .returned) else run more s

end HookKit

/-! ## TypeScript and Python -/

/-- The constructors of `HandlerError` and `CursorStoreError` put the text of the cause in
their message, and making that text may itself throw. -/
def wrap (describe : Exn → Except Exn String) (before : String)
    (wrapper : String → Exn → Failure E Exn) (x : Exn) : Failure E Exn :=
  match describe x with
  | .ok text => wrapper (before ++ text) x
  | .error y => .thrown y

def handlerError (describe : Exn → Except Exn String) : Exn → Failure E Exn :=
  wrap describe "event handler failed: " .handler

def cursorStoreError (describe : Exn → Except Exn String) : Exn → Failure E Exn :=
  wrap describe "cursor store failed: " .cursorStore

namespace TypeScript

/-- `whdrError` says of a thrown value whether it is a `WhdrError`, and then its `fatal`. -/
def fatal (whdrError : Exn → Option Bool) : Failure Kits.TypeScript.Error Exn → Bool
  | .kit e => e.fatal
  | .handler _ _ | .cursorStore _ _ => true
  | .thrown x => whdrError x = some true

def callHook (whdrError : Exn → Option Bool) (describe : Exn → Except Exn String) (x : Exn) :
    Failure E Exn :=
  if (whdrError x).isSome then .thrown x else handlerError describe x

def hookKit (whdrError : Exn → Option Bool) (describe : Exn → Except Exn String) :
    HookKit Exn where
  kit := Kits.typescriptKit
  hookThrew _ x := callHook whdrError describe x
  saveThrew x := cursorStoreError describe x
  fatal := fatal whdrError

end TypeScript

namespace Python

inductive Kind
  | subscriberError (isFatal : Bool)
  | exception
  | cancelled
  | baseException
  deriving DecidableEq, Repr

/-- `run` catches a `SubscriberError` that is not fatal and nothing else. -/
def leavesRun (kind : Exn → Kind) : Failure Kits.Python.Error Exn → Bool
  | .kit e => e.leavesRun
  | .handler _ _ | .cursorStore _ _ => true
  | .thrown x => kind x ≠ .subscriberError false

/-- `except Exception` around `on_event` and around `save`. -/
def exceptException (kind : Exn → Kind) (wrapper : Exn → Failure E Exn) (x : Exn) :
    Failure E Exn :=
  match kind x with
  | .subscriberError _ | .exception => wrapper x
  | .cancelled | .baseException => .thrown x

/-- `_dispatch_control` has nothing around the other hooks. -/
def hookRaised (kind : Exn → Kind) (describe : Exn → Except Exn String) :
    Call → Exn → Failure E Exn
  | .onEvent _ => exceptException kind (handlerError describe)
  | .onReplayed _ | .onReplayGap _ _ | .onLagged _ | .onReplayUnavailable _ => .thrown

def hookKit (kind : Exn → Kind) (describe : Exn → Except Exn String) : HookKit Exn where
  kit := Kits.pythonKit
  hookThrew := hookRaised kind describe
  saveThrew := exceptException kind (cursorStoreError describe)
  fatal := leavesRun kind

/-- `run` of Python has no abort signal. -/
def run (kind : Exn → Kind) (describe : Exn → Except Exn String) (lib : Library) (app : App Exn)
    (connections : List (Except Kits.Python.Error (List Text))) (s : Loop Exn) :
    Loop Exn × Outcome Kits.Python.Error Exn :=
  (hookKit kind describe).run lib app (connections.map (⟨false, ·, false⟩)) s

end Python

/-! ## Hooks that fail as the kits' loops know it -/

/-- Without what is thrown, and without the connecting. -/
def acts (steps : List (Step Exn)) : List Kits.Act :=
  steps.filterMap fun
    | .subscribe afterSeq => some (.subscribe afterSeq)
    | .returned c | .threw c _ => some (.call c)
    | .saved cursor | .unsaved cursor _ => some (.save cursor)
    | .connect => none

/-- The hooks throw `x` where the handler fails, and the store never does. -/
def failing (handler : Kits.Handler) (x : Exn) : App Exn where
  hooks steps c := if handler (acts steps) c then some x else none
  save _ _ := none

/-- The kit takes `x` for an error of the application. -/
structure HookKit.Takes (k : HookKit Exn) (x : Exn) : Prop where
  kit : ∀ e, k.fatal (.kit e) = k.kit.fatal e
  event : ∀ ev, k.fatal (k.hookThrew (.onEvent ev) x) = k.kit.fatal k.kit.eventFailed
  signal : ∀ c, (∀ ev, c ≠ .onEvent ev) →
    k.fatal (k.hookThrew c x) = k.kit.fatal k.kit.hookFailed

/-- The same state without the throws. -/
structure Shows (s : Loop Exn) (t : Kits.Loop Resume) : Prop where
  resume : s.resume = t.resume
  acts : acts s.steps = t.acts

section Plain

variable {k : HookKit Exn} {lib : Library} {handler : Kits.Handler} {x : Exn}

theorem Shows.step {s : Loop Exn} {t : Kits.Loop Resume} (alike : Shows s t) {a : Step Exn}
    {b : Kits.Act} (same : Hooks.acts [a] = [b]) : Shows (s.step a) (t.act b) := by
  refine ⟨alike.resume, ?_⟩
  simp only [Loop.step, Kits.Loop.act, Hooks.acts, List.filterMap_append] at same ⊢
  rw [same, ← alike.acts]
  rfl

/-- Both go on alike, or both end and stop alike. -/
abbrev Keeps (k : HookKit Exn) (lib : Library) (handler : Kits.Handler) (x : Exn) :=
  Sessions.Follows (k.client lib (failing handler x)) (k.kit.client lib handler) Shows

theorem call_keeps {s : Loop Exn} {t : Kits.Loop Resume} (alike : Shows s t) {c : Call}
    {failed : k.kit.Error} {after : Loop Exn → Flow (Loop Exn) (Failure k.kit.Error Exn)}
    {after' : Kits.Loop Resume → Flow (Kits.Loop Resume) k.kit.Error}
    (fatal : k.fatal (k.hookThrew c x) = k.kit.fatal failed)
    (goes : Keeps k lib handler x (after (s.step (.returned c))) (after' (t.act (.call c)))) :
    Keeps k lib handler x (k.call (failing handler x) s c after)
      (t.hook handler c failed after') := by
  unfold HookKit.call Kits.Loop.hook
  simp only [failing, alike.acts]
  cases handler t.acts c with
  | true => exact ⟨alike.step rfl, fatal⟩
  | false => exact goes

theorem dispatch_keeps (takes : k.Takes x) (frame : Kits.Frame k.kit.Reason) {s : Loop Exn}
    {t : Kits.Loop Resume} (alike : Shows s t) :
    Keeps k lib handler x (k.dispatch (failing handler x) frame s)
      (k.kit.dispatch handler frame t) := by
  have again {s : Loop Exn} {t : Kits.Loop Resume} (alike : Shows s t) :
      Keeps k lib handler x (k.reconnect s) (.ends t k.kit.reconnect) := by
    refine ⟨alike, ?_⟩
    cases reconnect : k.kit.reconnect with
    | ok => rfl
    | error e => exact takes.kit e
  cases frame with
  | event ev =>
    simp only [HookKit.dispatch, TextKit.dispatch, alike.resume]
    split
    · refine call_keeps alike (takes.event ev) ?_
      obtain ⟨resume, acts⟩ := alike.step (a := .returned (.onEvent ev)) rfl
      refine ⟨congrArg (·.record ev.id ev.seq) resume, ?_⟩
      simp only [Kits.Loop.record, ← acts, ← resume, Hooks.acts, List.filterMap_append]
      rfl
    · exact alike
  | replayed | replayGap => exact call_keeps alike (takes.signal _ (by simp)) (alike.step rfl)
  | lagged dropped =>
    simp only [HookKit.dispatch, TextKit.dispatch]
    refine call_keeps alike (takes.signal _ (by simp)) ?_
    exact again (alike.step rfl)
  | error op msg =>
    simp only [HookKit.dispatch, TextKit.dispatch]
    split
    · exact call_keeps alike (takes.signal _ (by simp)) (alike.step rfl)
    · exact alike
  | closing reason =>
    simp only [HookKit.dispatch, TextKit.dispatch]
    split
    · exact ⟨alike, takes.kit _⟩
    · exact again alike
  | welcome | ok | pong => exact alike

/-- With hooks that only throw such an `x`, the sessions are those of the kit's loop, as far as
they are made of frames. -/
theorem plain_simulates (takes : k.Takes x) :
    Sessions.Simulates (k.client lib (failing handler x)) (k.kit.client lib handler) id
      (fun m => ∃ f, Kits.recv lib k.kit.parse m = .frame f) Shows where
  message := by
    rintro m ⟨f, got⟩
    exact ⟨f, f, got, got, rfl, fun s t alike => dispatch_keeps takes f alike⟩
  connected s t alike := by
    refine alike.step (b := .subscribe t.resume.cursor) ?_
    rw [alike.resume]
    rfl
  closed := takes.kit _

end Plain

theorem typescript_plain {whdrError : Exn → Option Bool} {describe : Exn → Except Exn String}
    {x : Exn} {text : String} (other : whdrError x = none) (made : describe x = .ok text)
    (lib : Library) (handler : Kits.Handler) :
    Sessions.Simulates ((TypeScript.hookKit whdrError describe).client lib (failing handler x))
      (Kits.TypeScript.client lib handler) id
      (fun m => ∃ f, Kits.recv lib Kits.TypeScript.parseServerFrame m = .frame f) Shows := by
  rw [Kits.typescript_client]
  have wrapped (c : Call) : (TypeScript.hookKit whdrError describe).hookThrew c x =
      .handler ("event handler failed: " ++ text) x := by
    simp [TypeScript.hookKit, TypeScript.callHook, handlerError, wrap, other, made]
  refine plain_simulates ⟨fun _ => rfl, fun ev => ?_, fun c _ => ?_⟩
  · rw [wrapped]
    rfl
  · rw [wrapped]
    rfl

theorem python_plain {kind : Exn → Python.Kind} {describe : Exn → Except Exn String}
    {x : Exn} {text : String} (plain : kind x = .exception) (made : describe x = .ok text)
    (lib : Library) (handler : Kits.Handler) :
    Sessions.Simulates ((Python.hookKit kind describe).client lib (failing handler x))
      (Kits.Python.client lib handler) id
      (fun m => ∃ f, Kits.recv lib Kits.Python.parseFrame m = .frame f) Shows := by
  rw [Kits.python_client]
  refine plain_simulates ⟨fun _ => rfl, fun ev => ?_, fun c signal => ?_⟩
  · have wrapped : (Python.hookKit kind describe).hookThrew (.onEvent ev) x =
        .handler ("event handler failed: " ++ text) x := by
      simp [Python.hookKit, Python.hookRaised, Python.exceptException, handlerError, wrap, plain,
        made]
    rw [wrapped]
    rfl
  · have bare : (Python.hookKit kind describe).hookThrew c x = .thrown x := by
      cases c with
      | onEvent ev => exact absurd rfl (signal ev)
      | _ => rfl
    rw [bare]
    simp [Python.hookKit, Python.leavesRun, plain, Kits.pythonKit, Kits.Python.Error.leavesRun]

/-! ## What a failed hook should do to the run -/

/-- The seqs of the events whose handler returned. -/
def handled (steps : List (Step Exn)) : List Int :=
  steps.filterMap fun
    | .returned (.onEvent ev) => some ev.seq
    | _ => none

def saved (steps : List (Step Exn)) : List Int :=
  steps.filterMap fun
    | .saved cursor => some cursor
    | _ => none

/-- Whatever hook throws in the run, and whatever it throws, nothing is done after it, the run
fails with it, and the cursor saved last is that of the event handled last. -/
def EndsRun (r : Loop Exn × Outcome E Exn) : Prop :=
  ∀ before c x after, r.1.steps = before ++ .threw c x :: after →
    after = [] ∧ (∃ e, r.2 = .failed e ∧ e.cause = some x) ∧
      (saved before).getLast? = (handled before).getLast?

/-! ## Quiet sessions -/

variable {keeps : Prop}

/-- No hook has thrown and, as long as the store `keeps` what it is given, every handled event
is saved. -/
structure Quiet (keeps : Prop) (steps : List (Step Exn)) : Prop where
  silent : ∀ c x, .threw c x ∉ steps
  saves : keeps → saved steps = handled steps

theorem Quiet.step {steps : List (Step Exn)} (quiet : Quiet keeps steps) {a : Step Exn}
    (silent : ∀ c x, a ≠ .threw c x) (saves : saved [a] = handled [a]) :
    Quiet keeps (steps ++ [a]) where
  silent c x mem := by
    rcases List.mem_append.mp mem with old | new
    · exact quiet.silent c x old
    · exact silent c x (List.mem_singleton.mp new).symm
  saves all := by
    have old := quiet.saves all
    simp only [saved, handled, List.filterMap_append] at saves old ⊢
    rw [old, saves]

theorem Quiet.signal {steps : List (Step Exn)} (quiet : Quiet keeps steps) {c : Call}
    (signal : ∀ ev, c ≠ .onEvent ev) : Quiet keeps (steps ++ [.returned c]) := by
  refine quiet.step (by simp) ?_
  cases c with
  | onEvent ev => exact absurd rfl (signal ev)
  | _ => rfl

namespace HookKit

variable {k : HookKit Exn} {lib : Library} {app : App Exn}

/-- How a session ends in which no hook had thrown: quietly, by a hook that throws, or by the
store. -/
inductive Ending (k : HookKit Exn) (keeps : Prop) :
    List (Step Exn) → Except (Failure k.kit.Error Exn) Unit → Prop
  | quiet {steps result} (quiet : Quiet keeps steps) : Ending k keeps steps result
  | threw {before c x} (quiet : Quiet keeps before) :
      Ending k keeps (before ++ [.threw c x]) (.error (k.hookThrew c x))
  | unsaved {before cursor x} (silent : ∀ c y, .threw c y ∉ before ++ [.unsaved cursor x]) :
      Ending k keeps (before ++ [.unsaved cursor x]) (.error (k.saveThrew x))

/-- The session is still quiet, or ends as it may. -/
def Goes (k : HookKit Exn) (keeps : Prop) : Flow (Loop Exn) (Failure k.kit.Error Exn) → Prop
  | .next s => Quiet keeps s.steps
  | .ends s result => Ending k keeps s.steps result

theorem call_goes {s : Loop Exn} {c : Call}
    {after : Loop Exn → Flow (Loop Exn) (Failure k.kit.Error Exn)} (quiet : Quiet keeps s.steps)
    (goes : Goes k keeps (after (s.step (.returned c)))) : Goes k keeps (k.call app s c after) := by
  unfold call
  split
  · exact .threw quiet
  · exact goes

theorem dispatch_goes {frame : Kits.Frame k.kit.Reason} {s : Loop Exn}
    (quiet : Quiet keeps s.steps) : Goes k keeps (k.dispatch app frame s) := by
  cases frame with
  | event ev =>
    simp only [dispatch]
    split
    · rename_i process
      refine call_goes quiet ?_
      have cursor : (s.resume.record ev.id ev.seq).cursor = ev.seq := by
        simp only [Resume.shouldProcess, Bool.and_eq_true, decide_eq_true_eq] at process
        rw [Kits.record_cursor, max_eq_right (Int.le_of_lt process.1)]
      simp only [record, Loop.step, cursor]
      split
      · refine .unsaved fun c x mem => ?_
        have old : .threw c x ∈ s.steps := by simpa using mem
        exact quiet.silent c x old
      · -- the save makes up for the event just handled
        refine ⟨fun c x mem => ?_, fun all => ?_⟩
        · have old : .threw c x ∈ s.steps := by simpa using mem
          exact quiet.silent c x old
        · simpa [saved, handled] using quiet.saves all
    · exact quiet
  | replayed | replayGap => exact call_goes quiet (quiet.signal (by simp))
  | lagged => exact call_goes quiet (.quiet (quiet.signal (by simp)))
  | error op msg =>
    simp only [dispatch]
    split
    · exact call_goes quiet (quiet.signal (by simp))
    · exact quiet
  | closing reason =>
    simp only [dispatch]
    split
    · exact .quiet quiet
    · exact .quiet quiet
  | welcome | ok | pong => exact quiet

theorem serve_ending (messages : List Text) {s : Loop Exn} (quiet : Quiet keeps s.steps) :
    Ending k keeps ((k.client lib app).serve messages s).1.steps
      ((k.client lib app).serve messages s).2.1 := by
  induction messages generalizing s with
  | nil => exact .quiet quiet
  | cons m rest ih =>
    unfold Sessions.Client.serve
    split
    · rename_i f _
      have goes : Goes k keeps ((k.client lib app).dispatch f s) := dispatch_goes quiet
      split
      · rename_i t next
        rw [next] at goes
        exact ih goes
      · rename_i t result ends
        rw [ends] at goes
        exact goes
    · exact ih quiet
    · exact .quiet quiet

theorem runSession_ending (lib : Library) (app : App Exn)
    (connection : Except k.kit.Error (List Text)) {s : Loop Exn} (quiet : Quiet keeps s.steps) :
    Ending k keeps (k.runSession lib app connection s).1.steps
      (k.runSession lib app connection s).2 := by
  unfold runSession
  split
  · exact .quiet quiet
  · dsimp only [Sessions.Client.runSession]
    split
    · exact .quiet quiet
    · exact serve_ending _ (quiet.step (by simp) rfl)

/-! ## Runs -/

theorem call_extends {base : List (Step Exn)} {s : Loop Exn} {c : Call}
    {after : Loop Exn → Flow (Loop Exn) (Failure k.kit.Error Exn)} (old : base <+: s.steps)
    (longer : base <+: (after (s.step (.returned c))).state.steps) :
    base <+: (k.call app s c after).state.steps := by
  unfold call
  split
  · exact old.trans (List.prefix_append _ _)
  · exact longer

theorem dispatch_extends {base : List (Step Exn)} (frame : Kits.Frame k.kit.Reason) (s : Loop Exn)
    (old : base <+: s.steps) : base <+: (k.dispatch app frame s).state.steps := by
  have called (a : Step Exn) : base <+: (s.step a).steps := old.trans (List.prefix_append _ _)
  cases frame with
  | event ev =>
    simp only [dispatch]
    split
    · refine call_extends old ?_
      simp only [record]
      split <;> exact (called _).trans (List.prefix_append _ _)
    · exact old
  | replayed | replayGap | lagged => exact call_extends old (called _)
  | error op msg =>
    simp only [dispatch]
    split
    · exact call_extends old (called _)
    · exact old
  | closing reason =>
    simp only [dispatch]
    split <;> exact old
  | welcome | ok | pong => exact old

theorem runSession_extends (lib : Library) (app : App Exn)
    (connection : Except k.kit.Error (List Text)) (s : Loop Exn) :
    s.steps <+: (k.runSession lib app connection s).1.steps := by
  unfold runSession
  split
  · exact List.prefix_refl _
  · dsimp only [Sessions.Client.runSession]
    split
    · exact List.prefix_refl _
    · exact Sessions.Client.serve_invariant (c := k.client lib app) (P := (s.steps <+: ·.steps))
        dispatch_extends _ (List.prefix_append _ _)

/-- A turn: the run was aborted, or a session fails it, or it goes on or returns after one. -/
theorem run_cases (lib : Library) (app : App Exn) (turn : Turn k.kit.Error)
    (more : List (Turn k.kit.Error)) (s : Loop Exn) :
    k.run lib app (turn :: more) s = (s, .returned) ∨
      ∃ t result, k.runSession lib app turn.connection (s.step .connect) = (t, result) ∧
        ((∃ e, result = .error e ∧ k.fatal e = true ∧
            k.run lib app (turn :: more) s = (t, .failed e)) ∨
          ((∀ e, result = .error e → k.fatal e = false) ∧
            (k.run lib app (turn :: more) s = (t, .returned) ∨
              k.run lib app (turn :: more) s = k.run lib app more t))) := by
  rw [run]
  split
  · exact .inl rfl
  · right
    obtain ⟨t, result⟩ := k.runSession lib app turn.connection (s.step .connect)
    refine ⟨t, result, rfl, ?_⟩
    cases result with
    | ok =>
      right
      refine ⟨by simp, ?_⟩
      dsimp only
      split
      · exact .inl rfl
      · exact .inr rfl
    | error e =>
      dsimp only
      split
      · rename_i fatal
        exact .inl ⟨e, rfl, fatal, rfl⟩
      · rename_i transient
        right
        refine ⟨by rintro _ ⟨⟩; simpa using transient, ?_⟩
        split
        · exact .inl rfl
        · exact .inr rfl

/-- A run fails only after it has connected. -/
theorem run_extends (lib : Library) (app : App Exn) (turns : List (Turn k.kit.Error))
    (s : Loop Exn) :
    s.steps <+: (k.run lib app turns s).1.steps ∧
      ∀ e, (k.run lib app turns s).2 = .failed e → (k.run lib app turns s).1.steps ≠ s.steps := by
  induction turns generalizing s with
  | nil => exact ⟨List.prefix_refl _, fun e => by simp [run]⟩
  | cons turn more ih =>
    obtain aborted | ⟨t, result, session, rest⟩ := run_cases lib app turn more s
    · rw [aborted]
      exact ⟨List.prefix_refl _, fun e => by simp⟩
    · have connected : (s.step .connect).steps <+: t.steps := by
        have longer := runSession_extends lib app turn.connection (s.step .connect)
        rwa [session] at longer
      have reached : (s.step .connect).steps <+: (k.run lib app (turn :: more) s).1.steps := by
        obtain ⟨e, -, -, stops⟩ | ⟨-, stops | goes⟩ := rest
        · rwa [stops]
        · rwa [stops]
        · rw [goes]
          exact connected.trans (ih t).1
      refine ⟨(List.prefix_append _ _).trans reached, fun e _ same => ?_⟩
      have length := reached.length_le
      rw [same] at length
      simp [Loop.step] at length

/-- A hook that throws and is not fatal is not the end of the run. -/
theorem transient_throw {turns : List (Turn k.kit.Error)} {s : Loop Exn}
    {before : List (Step Exn)} {c : Call} {x : Exn} (threw : s.steps = before ++ [.threw c x]) :
    ¬EndsRun (k.run lib app turns s) := by
  intro ends
  obtain ⟨⟨after, reached⟩, failed⟩ := run_extends lib app turns s
  have cut : (k.run lib app turns s).1.steps = before ++ .threw c x :: after := by
    rw [← reached, threw, List.append_assoc]
    rfl
  obtain ⟨none, ⟨e, fails, -⟩, -⟩ := ends before c x after cut
  refine failed e fails ?_
  rw [← reached, none, List.append_nil]

/-- What is thrown, by a hook or the store, leaves the run, and a hook's failure still names
it. -/
def Stops (k : HookKit Exn) : Step Exn → Prop
  | .threw c x => k.fatal (k.hookThrew c x) = true ∧ (k.hookThrew c x).cause = some x
  | .unsaved _ x => k.fatal (k.saveThrew x) = true
  | .connect | .subscribe _ | .returned _ | .saved _ => True

theorem endsRun_silent {r : Loop Exn × Outcome E Exn} (silent : ∀ c x, .threw c x ∉ r.1.steps) :
    EndsRun r := by
  intro before c x after cut
  have mem : .threw c x ∈ r.1.steps := by simp [cut]
  exact absurd mem (silent c x)

/-- The only throw is the last step. -/
theorem threw_last {steps before after : List (Step Exn)} {c d : Call} {x y : Exn}
    (silent : ∀ c x, .threw c x ∉ steps)
    (cut : steps ++ [.threw d y] = before ++ .threw c x :: after) :
    before = steps ∧ c = d ∧ x = y ∧ after = [] := by
  rcases List.append_eq_append_iff.mp cut with ⟨mid, eq, tail⟩ | ⟨mid, eq, tail⟩
  · cases mid with
    | nil => simp_all
    | cons a mid => simp at tail
  · cases mid with
    | nil => simp_all
    | cons a mid =>
      obtain ⟨rfl, -⟩ := List.cons.inj tail
      exact absurd (by simp [eq]) (silent c x)

theorem endsRun_threw {t : Loop Exn} {before : List (Step Exn)} {c : Call} {x : Exn}
    {e : Failure E Exn} (steps : t.steps = before ++ [.threw c x]) (quiet : Quiet True before)
    (cause : e.cause = some x) : EndsRun (t, Outcome.failed e) := by
  intro left d y after cut
  obtain ⟨rfl, rfl, rfl, none⟩ := threw_last quiet.silent (steps.symm.trans cut)
  exact ⟨none, ⟨e, rfl, cause⟩, congrArg List.getLast? (quiet.saves trivial)⟩

/-- The session of a turn, and what becomes of the run after it. -/
theorem turn_ending (lib : Library) (app : App Exn) (turn : Turn k.kit.Error)
    (more : List (Turn k.kit.Error)) {s : Loop Exn} (quiet : Quiet keeps s.steps) :
    k.run lib app (turn :: more) s = (s, .returned) ∨
      ∃ t result, Ending k keeps t.steps result ∧
        t.steps <+: (k.run lib app (turn :: more) s).1.steps ∧
        ((∃ e, result = .error e ∧ k.fatal e = true ∧
            k.run lib app (turn :: more) s = (t, .failed e)) ∨
          ((∀ e, result = .error e → k.fatal e = false) ∧
            (k.run lib app (turn :: more) s = (t, .returned) ∨
              k.run lib app (turn :: more) s = k.run lib app more t))) := by
  obtain aborted | ⟨t, result, session, rest⟩ := run_cases lib app turn more s
  · exact .inl aborted
  · have ending := runSession_ending lib app turn.connection (s := s.step .connect)
      (quiet.step (by simp) rfl)
    rw [session] at ending
    refine .inr ⟨t, result, ending, ?_, rest⟩
    obtain ⟨e, -, -, fails⟩ | ⟨-, returns | goes⟩ := rest
    · simp only [fails, List.prefix_refl]
    · simp only [returns, List.prefix_refl]
    · rw [goes]
      exact (run_extends lib app more t).1

/-- If all that is thrown stops the run, a hook that throws ends it. -/
theorem endsRun_of_stops {turns : List (Turn k.kit.Error)} {s : Loop Exn}
    (quiet : Quiet True s.steps) (stops : ∀ a ∈ (k.run lib app turns s).1.steps, Stops k a) :
    EndsRun (k.run lib app turns s) := by
  induction turns generalizing s with
  | nil => exact endsRun_silent quiet.silent
  | cons turn more ih =>
    obtain aborted | ⟨⟨resume, steps⟩, result, ending, reached, rest⟩ :=
      turn_ending lib app turn more quiet
    · rw [aborted]
      exact endsRun_silent quiet.silent
    · cases ending with
      | quiet quiet =>
        obtain ⟨e, -, -, fails⟩ | ⟨-, returns | goes⟩ := rest
        · rw [fails]
          exact endsRun_silent quiet.silent
        · rw [returns]
          exact endsRun_silent quiet.silent
        · rw [goes] at stops ⊢
          exact ih quiet stops
      | @threw before c x quiet =>
        obtain ⟨fatal, cause⟩ := stops (.threw c x) (reached.subset (by simp))
        obtain ⟨e, ⟨⟩, -, fails⟩ | ⟨transient, -⟩ := rest
        · rw [fails]
          exact endsRun_threw rfl quiet cause
        · exact absurd fatal (by simp [transient _ rfl])
      | @unsaved before cursor x silent =>
        have fatal : k.fatal (k.saveThrew x) = true :=
          stops (.unsaved cursor x) (reached.subset (by simp))
        obtain ⟨e, -, -, fails⟩ | ⟨transient, -⟩ := rest
        · rw [fails]
          exact endsRun_silent silent
        · exact absurd fatal (by simp [transient _ rfl])

/-- If every hook that throws ends the run, all they threw stops it. -/
theorem stops_of_endsRun {turns : List (Turn k.kit.Error)} {s : Loop Exn}
    (quiet : Quiet False s.steps) (ends : EndsRun (k.run lib app turns s)) {c : Call} {x : Exn}
    (threw : .threw c x ∈ (k.run lib app turns s).1.steps) : Stops k (.threw c x) := by
  induction turns generalizing s with
  | nil => exact absurd threw (quiet.silent c x)
  | cons turn more ih =>
    obtain aborted | ⟨⟨resume, steps⟩, result, ending, reached, rest⟩ :=
      turn_ending lib app turn more quiet
    · rw [aborted] at threw
      exact absurd threw (quiet.silent c x)
    · -- the steps after which the run goes on, if it does, are without a throw
      have goes_on (silent : ∀ c x, .threw c x ∉ steps) : Stops k (.threw c x) := by
        obtain ⟨e, -, -, fails⟩ | ⟨-, returns | goes⟩ := rest
        · rw [fails] at threw
          exact absurd threw (silent c x)
        · rw [returns] at threw
          exact absurd threw (silent c x)
        · rw [goes] at ends threw
          exact ih ⟨silent, False.elim⟩ ends threw
      cases ending with
      | quiet quiet => exact goes_on quiet.silent
      | unsaved silent => exact goes_on silent
      | @threw before d y quiet =>
        obtain ⟨e, ⟨⟩, fatal, fails⟩ | ⟨-, returns | goes⟩ := rest
        · rw [fails] at ends threw
          obtain ⟨-, ⟨e, failed, cause⟩, -⟩ := ends before d y [] rfl
          obtain rfl := Outcome.failed.inj failed
          rcases List.mem_append.mp threw with old | new
          · exact absurd old (quiet.silent c x)
          · obtain ⟨rfl, rfl⟩ := Step.threw.inj (List.mem_singleton.mp new)
            exact ⟨fatal, cause⟩
        · rw [returns] at ends
          obtain ⟨-, ⟨e, failed, -⟩, -⟩ := ends before d y [] rfl
          cases failed
        · rw [goes] at ends
          exact absurd ends (transient_throw rfl)

end HookKit

/-! ## Which throws stop the two kits -/

/-- A hook may throw a fatal `WhdrError`, or any other value with a text; the text of what the
store throws has to be made too. -/
def TypeScript.Stops (whdrError : Exn → Option Bool) (describe : Exn → Except Exn String) :
    Step Exn → Prop
  | .threw _ x => whdrError x = some true ∨ whdrError x = none ∧ ∃ text, describe x = .ok text
  | .unsaved _ x => ∀ y, describe x = .error y → whdrError y = some true
  | .connect | .subscribe _ | .returned _ | .saved _ => True

/-- A hook other than `on_event` may not raise a `SubscriberError` that is not fatal. -/
def Python.Stops (kind : Exn → Kind) (describe : Exn → Except Exn String) : Step Exn → Prop
  | .threw (.onEvent _) x =>
    match kind x with
    | .subscriberError _ | .exception =>
      ∀ y, describe x = .error y → y = x ∧ kind x ≠ .subscriberError false
    | .cancelled | .baseException => True
  | .threw (.onReplayed _) x | .threw (.onReplayGap _ _) x | .threw (.onLagged _) x
  | .threw (.onReplayUnavailable _) x => kind x ≠ .subscriberError false
  | .unsaved _ x =>
    match kind x with
    | .subscriberError _ | .exception =>
      ∀ y, describe x = .error y → kind y ≠ .subscriberError false
    | .cancelled | .baseException => True
  | .connect | .subscribe _ | .returned _ | .saved _ => True

attribute [local simp] HookKit.Stops TypeScript.Stops TypeScript.hookKit TypeScript.callHook
  TypeScript.fatal handlerError cursorStoreError wrap Failure.cause in
theorem typescript_stops (whdrError : Exn → Option Bool) (describe : Exn → Except Exn String)
    (a : Step Exn) :
    (TypeScript.hookKit whdrError describe).Stops a ↔ TypeScript.Stops whdrError describe a := by
  cases a with
  | threw c x =>
    cases isError : whdrError x with
    | some fatal => simp [isError]
    | none =>
      cases text : describe x with
      | ok => simp [isError, text]
      | error y =>
        -- no value is both a fatal `WhdrError` and none
        have other : whdrError y = some true → y ≠ x := by
          rintro fatal rfl
          simp [isError] at fatal
        simpa [isError, text] using other
  | unsaved cursor x => cases text : describe x <;> simp [text]
  | _ => exact Iff.rfl

attribute [local simp] HookKit.Stops Python.Stops Python.hookKit Python.hookRaised Python.leavesRun
  Python.exceptException handlerError cursorStoreError wrap Failure.cause in
theorem python_stops (kind : Exn → Python.Kind) (describe : Exn → Except Exn String)
    (a : Step Exn) :
    (Python.hookKit kind describe).Stops a ↔ Python.Stops kind describe a := by
  cases a with
  | threw c x =>
    cases c with
    | onEvent ev =>
      have raised (y : Exn) : kind y ≠ .subscriberError false ∧ y = x ↔
          y = x ∧ kind x ≠ .subscriberError false := by
        constructor
        · rintro ⟨fatal, rfl⟩
          exact ⟨rfl, fatal⟩
        · rintro ⟨rfl, fatal⟩
          exact ⟨fatal, rfl⟩
      cases text : describe x with
      | ok => cases isA : kind x <;> simp [isA, text]
      | error y =>
        cases isA : kind x with
        | subscriberError | exception => simpa [isA, text] using raised y
        | cancelled | baseException => simp [isA]
    | _ => simp
  | unsaved cursor x => cases isA : kind x <;> cases text : describe x <;> simp [isA, text]
  | _ => exact Iff.rfl

/-! ## Any hook failure -/

/-- Whatever the hooks do in a run of either kit: if each thing thrown in it stops the kit, a
hook that throws ends the run, and a hook that ends it threw such a thing. -/
theorem hook_failure_ends_run {J P : Type} (whdrError : J → Option Bool)
    (describe : J → Except J String) (kind : P → Python.Kind) (str : P → Except P String)
    (lib : Library) (resume : Resume) :
    (∀ app turns, let r := (TypeScript.hookKit whdrError describe).run lib app turns ⟨resume, []⟩
      ((∀ a ∈ r.1.steps, TypeScript.Stops whdrError describe a) → EndsRun r) ∧
      (EndsRun r → ∀ c x, .threw c x ∈ r.1.steps →
        TypeScript.Stops whdrError describe (.threw c x))) ∧
    ∀ app connections, let r := Python.run kind str lib app connections ⟨resume, []⟩
      ((∀ a ∈ r.1.steps, Python.Stops kind str a) → EndsRun r) ∧
      (EndsRun r → ∀ c x, .threw c x ∈ r.1.steps → Python.Stops kind str (.threw c x)) := by
  have start {X : Type} (keeps : Prop) : Quiet keeps ([] : List (Step X)) := ⟨by simp, fun _ => rfl⟩
  refine ⟨fun app turns => ⟨fun stops => ?_, fun ends c x threw => ?_⟩,
    fun app connections => ⟨fun stops => ?_, fun ends c x threw => ?_⟩⟩
  · exact HookKit.endsRun_of_stops (start True) fun a mem =>
      (typescript_stops whdrError describe a).mpr (stops a mem)
  · exact (typescript_stops whdrError describe _).mp
      (HookKit.stops_of_endsRun (start False) ends threw)
  · exact HookKit.endsRun_of_stops (start True) fun a mem =>
      (python_stops kind str a).mpr (stops a mem)
  · exact (python_stops kind str _).mp (HookKit.stops_of_endsRun (start False) ends threw)

/-! ## Two connections with a `replayed` frame each -/

/-- A message `w` is a welcome, `e` an event, `r` the end of a replay. -/
def letters : Library where
  read
    | ['w'] => some (.obj [("type", .str "welcome"), ("name", .str "alice")])
    | ['e'] => some (.obj [("type", .str "event"), ("id", .str "a"), ("seq", .num 7),
        ("ts_ms", .num 0), ("channel", .str "c"), ("payload_b64", .str "")])
    | ['r'] => some (.obj [("type", .str "replayed"), ("through_seq", .num 7)])
    | _ => none
  limit := none

def connections (E : Type) : List (Except E (List Text)) :=
  [.ok [['w'], ['e'], ['r']], .ok [['w'], ['r']]]

def turns (E : Type) : List (Turn E) := (connections E).map (⟨false, ·, false⟩)

/-- The hook on the `replayed` frame throws, and nothing else. -/
def replayedThrows (x : Exn) : App Exn where
  hooks _ c :=
    match c with
    | .onReplayed _ => some x
    | _ => none
  save _ _ := none

/-- What is done until the hook throws. -/
def untilThrow : List (Step Exn) :=
  [.connect, .subscribe 0, .returned (.onEvent ⟨"a", 7, 0, "c", ""⟩), .saved 7]

/-- A string thrown from a hook of TypeScript, and a plain exception in Python. -/
theorem hook_failure_ends_run_replayed :
    EndsRun ((TypeScript.hookKit (fun _ => none) .ok).run letters (replayedThrows "no")
      (turns _) (⟨⟨0, [], [], 8⟩, []⟩ : Loop String)) ∧
    EndsRun (Python.run (fun _ => .exception) .ok letters (replayedThrows "no") (connections _)
      (⟨⟨0, [], [], 8⟩, []⟩ : Loop String)) := by
  obtain ⟨typescript, python⟩ := hook_failure_ends_run (fun _ => none) .ok
    (fun _ => .exception) .ok letters ⟨0, [], [], 8⟩ (J := String) (P := String)
  refine ⟨(typescript _ _).1 ?_, (python _ _).1 ?_⟩
  · have steps : ((TypeScript.hookKit (fun _ => none) .ok).run letters (replayedThrows "no")
        (turns _) (⟨⟨0, [], [], 8⟩, []⟩ : Loop String)).1.steps =
          untilThrow ++ [.threw (.onReplayed 7) "no"] := by rfl
    simp [steps, untilThrow, TypeScript.Stops]
  · have steps : (Python.run (fun _ => .exception) .ok letters (replayedThrows "no")
        (connections _) (⟨⟨0, [], [], 8⟩, []⟩ : Loop String)).1.steps =
          untilThrow ++ [.threw (.onReplayed 7) "no"] := by rfl
    simp [steps, untilThrow, Python.Stops]

/-- A `ConnectionClosedError` thrown from the hook, by a client of the application's own, is
taken for one of the kit's own connection: both kits connect again and call the hook again. -/
theorem connection_error_reconnects :
    ¬EndsRun ((TypeScript.hookKit (fun e => some e.fatal) fun _ => .ok "").run letters
      (replayedThrows .connectionClosed) (turns _)
      (⟨⟨0, [], [], 8⟩, []⟩ : Loop Kits.TypeScript.Error)) ∧
    ¬EndsRun (Python.run (fun e => .subscriberError e.leavesRun) (fun _ => .ok "") letters
      (replayedThrows .connectionClosed) (connections _)
      (⟨⟨0, [], [], 8⟩, []⟩ : Loop Kits.Python.Error)) := by
  constructor
  · intro ends
    have last := (ends untilThrow (.onReplayed 7) .connectionClosed
      [.connect, .subscribe 7, .threw (.onReplayed 7) .connectionClosed] rfl).1
    cases last
  · intro ends
    have last := (ends untilThrow (.onReplayed 7) .connectionClosed
      [.connect, .subscribe 7, .threw (.onReplayed 7) .connectionClosed] rfl).1
    cases last

end Whdr.Hooks
