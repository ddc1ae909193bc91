import Whdr.SubKit.KitMachine

/-! The Go, Python, TypeScript and OCaml kits, which deduplicate by the text of an id, follow
the machine. -/
namespace Whdr.Kits

open Sessions (Flow Follows Simulates)
open Wire (toJson tag uuid)

variable {handler : Handler} {capacity : Nat}

/-! ## The kits that compare texts -/

/-- What the other kits differ in: the reading of a frame, and the errors with which a session
ends. -/
structure TextKit where
  Reason : Type
  Error : Type
  parse : Json → Option (Frame Reason)
  reason : ClosingReason → Reason
  isRevoked : Reason → Bool
  eventFailed : Error
  hookFailed : Error
  revoked : Error
  reconnect : Except Error Unit
  broken : Error
  closed : Error
  fatal : Error → Bool

namespace TextKit

def dispatch (k : TextKit) (handler : Handler) (frame : Frame k.Reason) (s : Loop Resume) :
    Flow (Loop Resume) k.Error :=
  match frame with
  | .event ev =>
    if s.resume.shouldProcess ev.id ev.seq then
      s.hook handler (.onEvent ev) k.eventFailed fun s => .next (s.record ev)
    else .next s
  | .replayed throughSeq => s.hook handler (.onReplayed throughSeq) k.hookFailed .next
  | .replayGap fromSeq earliestSeq =>
    s.hook handler (.onReplayGap fromSeq earliestSeq) k.hookFailed .next
  | .lagged dropped =>
    s.hook handler (.onLagged dropped) k.hookFailed fun s => .ends s k.reconnect
  | .error op msg =>
    if op = "replay" then s.hook handler (.onReplayUnavailable msg) k.hookFailed .next
    else .next s
  | .closing reason =>
    if k.isRevoked reason then .ends s (.error k.revoked) else .ends s k.reconnect
  | .welcome _ | .ok _ | .pong => .next s

def client (k : TextKit) (lib : Library) (handler : Handler) :
    Sessions.Client Text (Loop Resume) where
  Frame := Frame k.Reason
  Error := k.Error
  recv := recv lib k.parse
  opens := Frame.isWelcome
  connected s := s.act (.subscribe s.resume.cursor)
  dispatch := k.dispatch handler
  broken := k.broken
  closed := k.closed
  fatal := k.fatal

end TextKit

/-- The frame of a message. -/
def frameOf {Reason : Type} (reason : ClosingReason → Reason) : SubServerMsg → Frame Reason
  | .welcome name => .welcome name
  | .ok op => .ok op
  | .error op msg => .error op msg
  | .event e => .event (Rust.deliveredEvent e)
  | .replayed throughSeq => .replayed throughSeq
  | .replayGap fromSeq earliestSeq => .replayGap fromSeq earliestSeq
  | .lagged dropped => .lagged dropped
  | .pong => .pong
  | .closing r => .closing (reason r)

/-- The kit reads what the server sends, stops on a failed hook and a revoked token, and
otherwise connects again. -/
structure TextKit.Lawful (k : TextKit) : Prop where
  parses : ∀ m, Sendable m → k.parse (toJson m) = some (frameOf k.reason m)
  revokes : ∀ r, k.isRevoked (k.reason r) = Client.closingIsFatal r
  eventFailed : k.fatal k.eventFailed = true
  hookFailed : k.fatal k.hookFailed = true
  revoked : k.fatal k.revoked = true
  reconnect : ∀ e, k.reconnect = .error e → k.fatal e = false
  closed : k.fatal k.closed = false

theorem stops_reconnect {k : TextKit} (lawful : k.Lawful) (lib : Library) (handler : Handler) :
    (k.client lib handler).stops k.reconnect = false := by
  cases ends : k.reconnect with
  | ok => rfl
  | error e => exact lawful.reconnect e ends

theorem text_follows {k : TextKit} (lawful : k.Lawful) {lib : Library} (m : SubServerMsg)
    {s : Loop Resume} {t : Loop Window} (alike : Alike (Holds capacity) s t) :
    Follows (k.client lib handler) (machine handler capacity) (Alike (Holds capacity))
      (k.dispatch handler (frameOf k.reason m) s) (Machine.step handler capacity m t) := by
  cases m with
  | event e =>
    have process := shouldProcess_fresh alike.resume (Rust.deliveredEvent e)
    simp only [TextKit.dispatch, frameOf, Machine.step, process]
    split
    · rename_i fresh
      refine hook_follows (a := k.client lib handler) alike lawful.eventFailed fun called => ?_
      have recorded := holds_record alike.resume fresh
      exact called.saves recorded recorded.cursor
    · exact alike
  | replayed | replayGap =>
    exact hook_follows (a := k.client lib handler) alike lawful.hookFailed fun called => called
  | lagged =>
    simp only [TextKit.dispatch, frameOf, Machine.step]
    refine hook_follows (a := k.client lib handler) alike lawful.hookFailed fun called => ?_
    exact ⟨called, stops_reconnect lawful lib handler⟩
  | error op msg =>
    simp only [TextKit.dispatch, frameOf, Machine.step]
    split
    · exact hook_follows (a := k.client lib handler) alike lawful.hookFailed fun called => called
    · exact alike
  | closing r =>
    simp only [TextKit.dispatch, frameOf, lawful.revokes]
    cases r with
    | revoked => exact ⟨alike, lawful.revoked⟩
    | shutdown => exact ⟨alike, stops_reconnect lawful lib handler⟩
  | welcome | ok | pong => exact alike

theorem isWelcome_frameOf {Reason : Type} (reason : ClosingReason → Reason) (m : SubServerMsg) :
    (frameOf reason m).isWelcome = Rust.isWelcome m := by
  cases m <;> rfl

theorem text_simulates {k : TextKit} (lawful : k.Lawful) {lib : Library} (correct : lib.Correct) :
    Simulates (k.client lib handler) (machine handler capacity) frameText lib.Passes
      (Alike (Holds capacity)) where
  message m passes :=
    ⟨frameOf k.reason m, m, recv_frame correct passes (lawful.parses m passes.sendable), rfl,
      isWelcome_frameOf k.reason m, fun _ _ alike => text_follows lawful m alike⟩
  connected _ _ alike := alike.connected alike.resume.cursor
  closed := lawful.closed

/-! ## Each of the four -/

variable {lib : Library}

def goKit : TextKit where
  Reason := String
  Error := Go.Error
  parse := Go.parseFrame
  reason
    | .shutdown => "shutdown"
    | .revoked => "revoked"
  isRevoked reason := reason = "revoked"
  eventFailed := .handler
  hookFailed := .handler
  revoked := .revoked
  reconnect := .error .reconnect
  broken := .connClosed
  closed := .connClosed
  fatal := Go.isFatal

theorem go_client : Go.client lib handler = goKit.client lib handler := by
  have same : Go.dispatch handler = goKit.dispatch handler := by
    funext frame s
    cases frame with
    | event ev =>
      simp only [Go.dispatch, TextKit.dispatch]
      cases s.resume.shouldProcess ev.id ev.seq <;> rfl
    | closing reason =>
      simp only [Go.dispatch, TextKit.dispatch, goKit, decide_eq_true_eq]
    | _ => rfl
  simp only [Go.client, TextKit.client, same]
  rfl

attribute [local simp] toJson tag uuid Wire.closingReason frameOf Rust.deliveredEvent

attribute [local simp] goKit Go.parseFrame Go.string Go.uint64 Go.field Go.foldName Go.foldRune in
theorem go_lawful : goKit.Lawful where
  parses m sendable := by
    have number {n : Nat} (small : n < 2 ^ 53) : Serde.nat u64Size (.num n) = some n :=
      Serde.nat_num (small_u64 small)
    cases m with
    | event e =>
      obtain ⟨-, seq, tsMs⟩ := sendable
      simp [number seq, number tsMs]
    | replayed throughSeq => simp [number sendable]
    | replayGap fromSeq earliestSeq => simp [number sendable.1, number sendable.2]
    | lagged dropped => simp [number sendable]
    | closing r => cases r <;> simp
    | _ => simp
  revokes r := by cases r <;> rfl
  eventFailed := rfl
  hookFailed := rfl
  revoked := rfl
  reconnect _ := by rintro ⟨⟩; rfl
  closed := rfl

def pythonKit : TextKit where
  Reason := String
  Error := Python.Error
  parse := Python.parseFrame
  reason
    | .shutdown => "shutdown"
    | .revoked => "revoked"
  isRevoked reason := reason = "revoked"
  eventFailed := .handler
  hookFailed := .application
  revoked := .revoked
  reconnect := .ok ()
  broken := .connectionClosed
  closed := .connectionClosed
  fatal := Python.Error.leavesRun

theorem python_client : Python.client lib handler = pythonKit.client lib handler := by
  have same : Python.dispatch handler = pythonKit.dispatch handler := by
    funext frame s
    cases frame with
    | closing reason =>
      simp only [Python.dispatch, Python.dispatchControl, TextKit.dispatch, pythonKit,
        decide_eq_true_eq]
    | _ => rfl
  simp only [Python.client, TextKit.client, same]
  rfl

theorem python_lawful : pythonKit.Lawful where
  parses m _ := by
    cases m with
    | closing r => cases r <;> rfl
    | _ => rfl
  revokes r := by cases r <;> rfl
  eventFailed := rfl
  hookFailed := rfl
  revoked := rfl
  reconnect _ := by rintro ⟨⟩
  closed := rfl

def typescriptKit : TextKit where
  Reason := ClosingReason
  Error := TypeScript.Error
  parse := TypeScript.parseServerFrame
  reason r := r
  isRevoked reason := reason = .revoked
  eventFailed := .handler
  hookFailed := .handler
  revoked := .revoked
  reconnect := .ok ()
  broken := .connectionClosed
  closed := .connectionClosed
  fatal := TypeScript.Error.fatal

theorem typescript_client : TypeScript.client lib handler = typescriptKit.client lib handler := by
  have same : TypeScript.dispatch handler = typescriptKit.dispatch handler := by
    funext frame s
    cases frame with
    | closing reason => cases reason <;> rfl
    | _ => rfl
  simp only [TypeScript.client, TextKit.client, same]
  rfl

theorem nearest_small {n : Nat} (small : n < 2 ^ 53) : TypeScript.nearest n = n := by
  have unit : n.log2 - 52 = 0 := by
    by_cases zero : n = 0
    · subst zero
      rfl
    · have := (Nat.log2_lt zero).mpr small
      omega
  simp only [TypeScript.nearest, unit, Nat.pow_zero, Nat.div_one, Nat.mod_one, Nat.mul_one]
  rfl

theorem asNumber_small {n : Nat} (small : n < 2 ^ 53) :
    TypeScript.asNumber (.num n) = some (n : Int) := by
  have finite : n < TypeScript.infinity := Nat.lt_trans small (by decide)
  rw [TypeScript.asNumber, Int.natAbs_natCast, nearest_small small, if_pos finite]
  cases n with
  | zero => rfl
  | succ n => rw [Int.sign_natCast_of_ne_zero (Nat.succ_ne_zero n), Int.one_mul]

attribute [local simp] typescriptKit TypeScript.parseServerFrame last List.lookup_cons in
theorem typescript_lawful : typescriptKit.Lawful where
  parses m sendable := by
    cases m with
    | event e =>
      obtain ⟨-, seq, tsMs⟩ := sendable
      simp [TypeScript.asString, asNumber_small seq, asNumber_small tsMs]
    | replayed throughSeq => simp [asNumber_small sendable]
    | replayGap fromSeq earliestSeq =>
      simp [asNumber_small sendable.1, asNumber_small sendable.2]
    | lagged dropped => simp [asNumber_small sendable]
    | closing r => cases r <;> rfl
    | _ => rfl
  revokes r := by cases r <;> rfl
  eventFailed := rfl
  hookFailed := rfl
  revoked := rfl
  reconnect _ := by rintro ⟨⟩
  closed := rfl

def ocamlKit : TextKit where
  Reason := OCaml.ClosingReason
  Error := OCaml.Error
  parse := OCaml.parseServerFrame
  reason
    | .shutdown => .shutdown
    | .revoked => .revoked
  isRevoked := OCaml.closingIsFatal
  eventFailed := .handler
  hookFailed := .handler
  revoked := .revoked
  reconnect := .ok ()
  broken := .transport
  closed := .connectionClosed
  fatal := OCaml.Error.isFatal

theorem ocaml_client : OCaml.client lib handler = ocamlKit.client lib handler := by
  have same : OCaml.dispatch handler = ocamlKit.dispatch handler := by
    funext frame s
    cases frame <;> rfl
  simp only [OCaml.client, TextKit.client, same]
  rfl

theorem int64_small {n : Nat} (small : n < 2 ^ 63) : OCaml.int64 n = n := by
  rw [OCaml.int64, BitVec.toInt_ofNat', Int.bmod_eq_of_le]
  · omega
  · omega

theorem toInt64_small {n : Nat} (small : n < 2 ^ 53) : OCaml.toInt64 (.num n) = some (n : Int) := by
  have inside : n < 2 ^ 64 := by omega
  have bits : OCaml.int64 n = n := int64_small (by omega)
  exact (if_pos inside).trans (congrArg some bits)

attribute [local simp] ocamlKit OCaml.parseServerFrame OCaml.str OCaml.i64 List.lookup_cons in
theorem ocaml_lawful : ocamlKit.Lawful where
  parses m sendable := by
    cases m with
    | event e =>
      obtain ⟨-, seq, tsMs⟩ := sendable
      simp [toInt64_small seq, toInt64_small tsMs]
    | replayed throughSeq => simp [toInt64_small sendable]
    | replayGap fromSeq earliestSeq =>
      simp [toInt64_small sendable.1, toInt64_small sendable.2]
    | lagged dropped => simp [toInt64_small sendable]
    | closing r => cases r <;> rfl
    | _ => rfl
  revokes r := by cases r <;> rfl
  eventFailed := rfl
  hookFailed := rfl
  revoked := rfl
  reconnect _ := by rintro ⟨⟩
  closed := rfl

end Whdr.Kits
