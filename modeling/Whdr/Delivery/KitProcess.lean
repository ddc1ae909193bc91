import Whdr.Delivery.KitNetwork

/-! What one frame makes of a kit's process: every kit reads it as the machine does, and
of what it did the store and the handler keep account. -/
namespace Whdr.KitNetwork

open Kits
open Sessions (Flow Simulates Reads)
open SubscribeFrames (Kit)

/-! ## The kits follow the machine -/

/-- `H` says which window a dedup state stands for. -/
structure Lawful (p : Process) (lib : Library) (capacity : Nat) (H : p.Resume → Window → Prop) :
    Prop where
  simulates : ∀ handler, Simulates (p.client handler) (machine handler capacity) frameText
    lib.Passes (Alike H)
  lost : ∀ handler text, ¬ lib.Takes text → (p.client handler).recv text = .broken
  starts : ∀ cursor : Nat, Alike H (p.start cursor) ⟨⟨cursor, []⟩, []⟩

theorem text_lawful {k : TextKit} (lawful : k.Lawful) {lib : Library} (correct : lib.Correct)
    {capacity : Nat} {client : Handler → Sessions.Client Text (Loop Resume)}
    (same : ∀ handler, client handler = k.client lib handler) {start : Int → Loop Resume}
    (starts : ∀ cursor : Nat, Alike (Holds capacity) (start cursor) ⟨⟨cursor, []⟩, []⟩) :
    Lawful ⟨Resume, client, start⟩ lib capacity (Holds capacity) where
  simulates handler := by
    dsimp only
    rw [same handler]
    exact text_simulates lawful correct
  lost handler text tooLong := by
    dsimp only
    rw [same handler]
    exact if_neg tooLong
  starts := starts

theorem kit_lawful {lib : Library} (correct : lib.Correct) (capacity : Nat) (kit : Kit) :
    ∃ H, Lawful (process lib capacity kit) lib (window capacity kit) H := by
  cases kit with
  | rust =>
    exact ⟨_, fun _ => rust_simulates correct, fun _ _ tooLong => if_neg tooLong,
      fun c => rust_start c capacity⟩
  | go =>
    exact ⟨_, text_lawful go_lawful correct (fun _ => go_client)
      fun c => holds_start rfl (go_capacity capacity 0)⟩
  | python =>
    have limit : max (max (capacity : Int) 1) 1 = (window capacity .python : Nat) := by
      simp only [window]
      omega
    exact ⟨_, text_lawful python_lawful correct (fun _ => python_client)
      fun c => holds_start rfl limit⟩
  | typescript =>
    exact ⟨_, text_lawful typescript_lawful correct (fun _ => typescript_client)
      fun c => holds_start rfl (other_capacity capacity)⟩
  | ocaml =>
    exact ⟨_, text_lawful ocaml_lawful correct (fun _ => ocaml_client)
      fun c => holds_start rfl (other_capacity capacity)⟩

/-- A new process has seen nothing. -/
theorem resume_start {capacity : Nat} (positive : 0 < capacity) (cursor : Nat) :
    RustHolds capacity (ResumeState.new cursor capacity) ⟨cursor, []⟩ := by
  have one : max capacity 1 = capacity := Nat.max_eq_left positive
  have start := (rust_start cursor capacity).resume
  simp only [window, one, Rust.start] at start
  exact start

theorem window_pos (capacity : Nat) (kit : Kit) : 0 < window capacity kit := by
  cases kit with
  | go =>
    simp only [window]
    split
    · decide
    · rename_i some
      exact Nat.pos_of_ne_zero some
  | rust | python | typescript | ocaml => exact Nat.lt_of_lt_of_le Nat.one_pos (Nat.le_max_right _ 1)

/-! ## One frame -/

/-- Calls that hand over no event, and subscribe frames. -/
def Quiet (acts : List Act) : Prop :=
  ∀ a ∈ acts, (∀ ev, a ≠ .call (.onEvent ev)) ∧ ∀ n, a ≠ .save n

variable {capacity : Nat} {w : Window} {acts : List Act}

/-- What a frame makes of an open connection. A frame that is handled to the end changes
the client as it does in the network. -/
inductive Reading (capacity : Nat) (w : Window) (acts : List Act) :
    SubServerMsg → Bool → Flow (Bool × Loop Window) Machine.Stop → Prop
  | handled (e : StampedEvent) : w.fresh (Rust.deliveredEvent e) = true →
      Reading capacity w acts (.event e) false (.next (true,
        ⟨w.handled capacity (Rust.deliveredEvent e),
          acts ++ [.call (.onEvent (Rust.deliveredEvent e)), .save e.seq]⟩))
  | failed (e : StampedEvent) (result : Except Machine.Stop Unit) :
      w.fresh (Rust.deliveredEvent e) = true →
      Reading capacity w acts (.event e) true (.ends (true,
        ⟨w, acts ++ [.call (.onEvent (Rust.deliveredEvent e))]⟩) result)
  | quiet (msg : SubServerMsg) (fails : Bool) (new : List Act) : Quiet new →
      (∀ c : Client, RustHolds capacity c.resume w → Sendable msg → c.onFrame msg = (c, .more)) →
      (∀ n, .subscribe n ∉ new) →
      Reading capacity w acts msg fails (.next (true, ⟨w, acts ++ new⟩))
  | ends (msg : SubServerMsg) (fails : Bool) (new : List Act) (result : Except Machine.Stop Unit) :
      Quiet new → Reading capacity w acts msg fails (.ends (true, ⟨w, acts ++ new⟩) result)

theorem quiet_nil : Quiet [] := by rintro _ ⟨⟩

theorem quiet_call {c : Call} (other : ∀ ev, c ≠ .onEvent ev) : Quiet [.call c] := by
  intro a mem
  obtain rfl := List.mem_singleton.mp mem
  exact ⟨fun ev same => other ev (Act.call.inj same), by rintro _ ⟨⟩⟩

/-- A hook that is told of something ends the session if it fails. -/
theorem reading_hook {msg : SubServerMsg} {c : Call} (other : ∀ ev, c ≠ .onEvent ev) (fails : Bool)
    (more : ∀ client : Client, client.onFrame msg = (client, .more))
    (step : Machine.step (hooks fails) capacity msg ⟨w, acts⟩ =
      Loop.hook ⟨w, acts⟩ (hooks fails) c .handler .next) :
    Reading capacity w acts msg fails
      ((machine (hooks fails) capacity).read msg (true, ⟨w, acts⟩)) := by
  simp only [Sessions.Client.read, machine, step, Loop.hook, hooks, if_true]
  cases fails with
  | true => exact .ends msg true _ _ (quiet_call other)
  | false => exact .quiet msg false _ (quiet_call other) (fun client _ _ => more client) (by simp)

theorem machine_reads (msg : SubServerMsg) (fails : Bool) :
    Reading capacity w acts msg fails
      ((machine (hooks fails) capacity).read msg (true, ⟨w, acts⟩)) := by
  have still : ∀ {msg}, (∀ c : Client, RustHolds capacity c.resume w → Sendable msg →
      c.onFrame msg = (c, .more)) → Reading capacity w acts msg fails (.next (true, ⟨w, acts⟩)) := by
    intro msg more
    have same : Reading capacity w acts msg fails (.next (true, ⟨w, acts ++ []⟩)) :=
      .quiet msg fails [] quiet_nil more fun _ => List.not_mem_nil
    rwa [List.append_nil] at same
  cases msg with
  | event e =>
    cases fresh : w.fresh (Rust.deliveredEvent e) with
    | false =>
      simp only [Sessions.Client.read, machine, Machine.step, fresh, Bool.false_eq_true, if_false,
        if_true]
      refine still fun c holds sendable => ?_
      have process : c.resume.shouldProcess e.id e.seq = false :=
        (shouldProcess_asText holds.ids sendable.1 e.seq).symm.trans
          ((shouldProcess_fresh holds.holds (Rust.deliveredEvent e)).trans fresh)
      simp only [Client.onFrame, Client.handle, process, Bool.false_eq_true, if_false]
    | true =>
      simp only [Sessions.Client.read, machine, Machine.step, fresh, Loop.hook, hooks, if_true]
      cases fails with
      | true => exact .failed e _ fresh
      | false =>
        have done : Reading capacity w acts (.event e) false _ := .handled e fresh
        rwa [List.append_cons] at done
  | replayed throughSeq => exact reading_hook (by simp) fails (fun _ => rfl) rfl
  | replayGap fromSeq earliestSeq => exact reading_hook (by simp) fails (fun _ => rfl) rfl
  | lagged dropped =>
    simp only [Sessions.Client.read, machine, Machine.step, Loop.hook, hooks, if_true]
    cases fails <;> exact .ends _ _ _ _ (quiet_call (by simp))
  | error op msg =>
    by_cases replay : op = "replay"
    · exact reading_hook (c := .onReplayUnavailable msg) (by simp) fails (fun _ => rfl)
        (if_pos replay)
    · simp only [Sessions.Client.read, machine, Machine.step, replay, if_false, if_true]
      exact still fun _ _ _ => rfl
  | closing reason =>
    have ends (result : Except Machine.Stop Unit) :
        Reading capacity w acts (.closing reason) fails (.ends (true, ⟨w, acts⟩) result) := by
      have same : Reading capacity w acts (.closing reason) fails
          (.ends (true, ⟨w, acts ++ []⟩) result) := .ends _ fails [] result quiet_nil
      rwa [List.append_nil] at same
    cases reason <;> exact ends _
  | welcome name => exact still fun _ _ _ => rfl
  | ok op => exact still fun _ _ _ => rfl
  | pong => exact still fun _ _ _ => rfl

end Whdr.KitNetwork
