import Mathlib.Data.List.Dedup
import Mathlib.Data.List.Induction
import Whdr.SubKit.Kits

/-! Which events a client handles: at most once, in the order of their seqs, with the ids
of the last ones remembered (resume.rs and the event branch of `run_session`, lib.rs). -/
namespace Whdr.Handling

/-- An event frame, and whether `on_event` succeeds if it is called with it. -/
structure Frame where
  id : Uuid
  seq : Nat
  succeeds : Bool
  deriving DecidableEq, Repr

/-- `handled`: the events whose handler succeeded. `saved`: the cursors given to the store. -/
structure State where
  resume : ResumeState
  handled : List (Uuid × Nat)
  saved : List Nat
  deriving DecidableEq, Repr

def State.ids (s : State) : List Uuid := s.handled.map Prod.fst

def State.seqs (s : State) : List Nat := s.handled.map Prod.snd

def start (cursor capacity : Nat) : State := ⟨ResumeState.new cursor capacity, [], []⟩

/-- The event branch: a handler that fails leaves the state as it is. -/
def onEvent (s : State) (f : Frame) : State :=
  if s.resume.shouldProcess f.id f.seq then
    if f.succeeds then
      let resume := s.resume.record f.id f.seq
      ⟨resume, s.handled ++ [(f.id, f.seq)], s.saved ++ [resume.cursor]⟩
    else s
  else s

/-- The state outlives a session. -/
def run (cursor capacity : Nat) (sessions : List (List Frame)) : State :=
  sessions.foldl (fun s frames => frames.foldl onEvent s) (start cursor capacity)

/-- The last `k` of the ids, each at its last place. -/
def lastDistinct (k : Nat) (ids : List Uuid) : List Uuid :=
  ids.dedup.drop (ids.dedup.length - k)

/-! ## The window -/

variable {r : ResumeState} {id x : Uuid} {seq k : Nat} {ids : List Uuid}

/-- `ids` are all the ids recorded: the queue is the end of them, and the set is the queue. -/
structure Remembers (k : Nat) (ids : List Uuid) (r : ResumeState) : Prop where
  limit : r.capacity = k
  bound : r.order.length ≤ k
  suffix : ∃ front, ids = front ++ r.order ∧ (front ≠ [] → r.order.length = k)
  nodup : r.order.Nodup
  seen : ∀ x, x ∈ r.seen ↔ x ∈ r.order

theorem record_window (r : ResumeState) (id : Uuid) (seq : Nat) :
    (r.record id seq).order = (r.remember id).order ∧ (r.record id seq).seen = (r.remember id).seen ∧
      (r.record id seq).capacity = (r.remember id).capacity := by
  unfold ResumeState.record
  dsimp only
  split
  · exact ⟨rfl, rfl, rfl⟩
  · exact ⟨rfl, rfl, rfl⟩

theorem Remembers.remember (h : Remembers k ids r) (new : id ∉ r.seen) :
    Remembers k (ids ++ [id]) (r.remember id) := by
  obtain ⟨front, cut, full⟩ := h.suffix
  have absent : id ∉ r.order := fun mem => new ((h.seen id).mpr mem)
  have nodup : (r.order ++ [id]).Nodup := by
    simp only [List.nodup_append, h.nodup, true_and, List.mem_singleton]
    exact ⟨by simp, fun a mem b isNew same => absent (isNew ▸ same ▸ mem)⟩
  have unseen : r.seen.contains id = false := by simpa using new
  obtain ⟨old, rest, queue⟩ : ∃ old rest, r.order ++ [id] = old :: rest := by
    cases r.order <;> exact ⟨_, _, rfl⟩
  have members : ∀ x, x ∈ id :: r.seen ↔ x ∈ old :: rest := by
    intro x
    rw [← queue, List.mem_cons, List.mem_append, List.mem_singleton, h.seen, Or.comm]
  have length : rest.length = r.order.length := by
    have := congrArg List.length queue
    simpa using this.symm
  have bound := h.bound
  rw [queue] at nodup
  simp only [ResumeState.remember, unseen, queue, Bool.false_eq_true, if_false, h.limit,
    List.length_cons, length]
  split
  · -- the queue was full: its front goes, and no other id with it
    rename_i overfull
    refine ⟨rfl, by dsimp only; omega, ⟨front ++ [old], ?_, fun _ => by dsimp only; omega⟩, ?_, ?_⟩
    · rw [cut, List.append_assoc, queue, List.append_assoc]
      rfl
    · exact (List.nodup_cons.mp nodup).2
    · intro x
      simp only [List.mem_filter, members, List.mem_cons, bne_iff_ne]
      constructor
      · rintro ⟨rfl | mem, ne⟩
        · exact absurd rfl ne
        · exact mem
      · intro mem
        exact ⟨.inr mem, fun eq => (List.nodup_cons.mp nodup).1 (eq ▸ mem)⟩
  · rename_i room
    refine ⟨rfl, by dsimp only [List.length_cons]; omega, ⟨front, ?_, ?_⟩, nodup, members⟩
    · rw [cut, List.append_assoc, queue]
    · intro some
      have := full some
      omega

theorem Remembers.record (h : Remembers k ids r) (new : id ∉ r.seen) (seq : Nat) :
    Remembers k (ids ++ [id]) (r.record id seq) := by
  obtain ⟨limit, bound, suffix, nodup, seen⟩ := h.remember new
  obtain ⟨order, set, capacity⟩ := record_window r id seq
  rw [← order] at bound suffix nodup seen
  rw [← set] at seen
  exact ⟨capacity.trans limit, bound, suffix, nodup, seen⟩

theorem Remembers.lastDistinct (h : Remembers k ids r) : r.order = lastDistinct k ids := by
  obtain ⟨front, cut, full⟩ := h.suffix
  rw [Handling.lastDistinct]
  by_cases none : front = []
  · have all : ids = r.order := by simpa [none] using cut
    have bound := h.bound
    rw [all, List.dedup_eq_self.mpr h.nodup, show r.order.length - k = 0 by omega, List.drop_zero]
  · -- the queue is the end of the ids, so nothing in it is dropped for a later place
    have end' : r.order <:+ ids.dedup := by
      rw [cut, List.dedup_append, List.dedup_eq_self.mpr h.nodup]
      exact List.suffix_union_right front r.order
    rw [← full none]
    exact List.suffix_iff_eq_drop.mp end'

/-! ## Runs -/

variable {cursor capacity : Nat} {s : State} {f : Frame} {frames : List Frame}

structure Valid (cursor capacity : Nat) (frames : List Frame) (s : State) : Prop where
  ascending : (cursor :: s.seqs).Pairwise (· < ·)
  cursor : s.resume.cursor = s.seqs.getLast?.getD cursor
  saved : s.saved = s.seqs
  given : ∀ p ∈ s.handled, ∃ f ∈ frames, p = (f.id, f.seq)
  window : Remembers (max capacity 1) s.ids s.resume

theorem start_valid (cursor capacity : Nat) : Valid cursor capacity [] (start cursor capacity) := by
  constructor
  · exact List.pairwise_singleton _ _
  · rfl
  · rfl
  · exact fun p mem => absurd mem List.not_mem_nil
  · exact ⟨rfl, Nat.zero_le _, ⟨[], rfl, fun none => absurd rfl none⟩, .nil, fun _ => Iff.rfl⟩

/-- Every seq handled is at most the cursor. -/
theorem Valid.below (valid : Valid cursor capacity frames s) :
    ∀ q ∈ cursor :: s.seqs, q ≤ s.resume.cursor := by
  have last : (cursor :: s.seqs).getLast? = some s.resume.cursor := by
    rw [List.getLast?_cons, valid.cursor]
  obtain ⟨front, cut⟩ := List.getLast?_eq_some_iff.mp last
  intro q mem
  have ascending := valid.ascending
  rw [cut] at mem ascending
  obtain mem | rfl := List.mem_append.mp mem |>.imp_right List.mem_singleton.mp
  · exact Nat.le_of_lt ((List.pairwise_append.mp ascending).2.2 q mem _ (List.mem_singleton_self _))
  · exact Nat.le_refl _

theorem onEvent_valid (valid : Valid cursor capacity frames s) :
    Valid cursor capacity (frames ++ [f]) (onEvent s f) := by
  have given : ∀ p ∈ s.handled, ∃ g ∈ frames ++ [f], p = (g.id, g.seq) := by
    intro p mem
    obtain ⟨g, isFrame, eq⟩ := valid.given p mem
    exact ⟨g, List.mem_append_left _ isFrame, eq⟩
  unfold onEvent
  split
  · split
    · rename_i fresh _
      rw [ResumeState.shouldProcess, Bool.and_eq_true, decide_eq_true_eq, Bool.not_eq_true',
        ← Bool.not_eq_true, List.contains_iff_mem] at fresh
      obtain ⟨later, new⟩ := fresh
      have cursor' : (s.resume.record f.id f.seq).cursor = f.seq := by
        rw [ResumeState.record_cursor]
        omega
      constructor
      · rw [State.seqs, List.map_append, ← List.cons_append]
        refine List.pairwise_append.mpr ⟨valid.ascending, List.pairwise_singleton _ _, ?_⟩
        intro q mem last isLast
        rw [List.mem_singleton.mp isLast]
        exact Nat.lt_of_le_of_lt (valid.below q mem) later
      · rw [State.seqs, List.map_append, cursor']
        simp
      · dsimp only
        rw [State.seqs, List.map_append, cursor', valid.saved]
        rfl
      · intro p mem
        obtain mem | rfl := List.mem_append.mp mem |>.imp_right List.mem_singleton.mp
        · exact given p mem
        · exact ⟨f, List.mem_append_right _ (List.mem_singleton_self _), rfl⟩
      · have := valid.window.record new f.seq
        rwa [State.ids, List.map_append]
    · exact ⟨valid.ascending, valid.cursor, valid.saved, given, valid.window⟩
  · exact ⟨valid.ascending, valid.cursor, valid.saved, given, valid.window⟩

theorem run_eq_foldl (cursor capacity : Nat) (sessions : List (List Frame)) :
    run cursor capacity sessions = sessions.flatten.foldl onEvent (start cursor capacity) :=
  List.foldl_flatten.symm

theorem foldl_valid (cursor capacity : Nat) (frames : List Frame) :
    Valid cursor capacity frames (frames.foldl onEvent (start cursor capacity)) := by
  induction frames using List.reverseRecOn with
  | nil => exact start_valid cursor capacity
  | append_singleton frames f ih =>
    rw [List.foldl_append]
    exact onEvent_valid ih

/-- Frames of one id carry one seq. -/
def Labelled (frames : List Frame) : Prop := ∀ f ∈ frames, ∀ g ∈ frames, f.id = g.id → f.seq = g.seq

instance (frames : List Frame) : Decidable (Labelled frames) :=
  inferInstanceAs (Decidable (∀ f ∈ frames, ∀ g ∈ frames, f.id = g.id → f.seq = g.seq))

theorem Valid.once (valid : Valid cursor capacity frames s) (labelled : Labelled frames) :
    s.ids.Nodup := by
  have seqs : s.seqs.Pairwise (· < ·) := (List.pairwise_cons.mp valid.ascending).2
  rw [State.seqs, List.pairwise_map] at seqs
  rw [State.ids, List.Nodup, List.pairwise_map]
  refine seqs.imp_of_mem fun {p q} isP isQ lt same => ?_
  obtain ⟨f, isF, rfl⟩ := valid.given p isP
  obtain ⟨g, isG, rfl⟩ := valid.given q isQ
  exact Nat.ne_of_lt lt (labelled f isF g isG same)

/-- Handled events ascend from the initial cursor and are saved one by one; no id is handled
twice as long as an id has one seq; and the window holds the ids handled last. -/
theorem handled_at_most_once (cursor capacity : Nat) (sessions : List (List Frame)) :
    let s := run cursor capacity sessions
    (s.seqs.Pairwise (· < ·) ∧ ∀ q ∈ s.seqs, cursor < q) ∧
    (s.saved = s.seqs ∧ s.saved.Pairwise (· ≤ ·)) ∧
    (Labelled sessions.flatten → s.ids.Nodup) ∧
    s.resume.order = lastDistinct (max capacity 1) s.ids ∧
    ∀ x, x ∈ s.resume.seen ↔ x ∈ s.resume.order := by
  intro s
  have valid : Valid cursor capacity sessions.flatten s := by
    rw [show s = _ from run_eq_foldl cursor capacity sessions]
    exact foldl_valid cursor capacity sessions.flatten
  obtain ⟨above, ascending⟩ := List.pairwise_cons.mp valid.ascending
  refine ⟨⟨ascending, above⟩, ⟨valid.saved, ?_⟩, valid.once, valid.window.lastDistinct,
    valid.window.seen⟩
  rw [valid.saved]
  exact ascending.imp Nat.le_of_lt

/-- An id that is relabelled is handled again once it has left a window of one. -/
theorem handled_at_most_once_relabelled :
    let sessions : List (List Frame) := [[⟨1, 5, true⟩, ⟨1, 5, true⟩], [⟨2, 6, true⟩, ⟨1, 7, true⟩]]
    (run 4 1 sessions).saved = [5, 6, 7] ∧ (run 4 1 sessions).resume.order = [1] ∧
      (run 4 1 (sessions.map fun frames => frames.take 1)).ids.Nodup := by
  intro sessions
  have law := handled_at_most_once 4 1 (sessions.map fun frames => frames.take 1)
  exact ⟨by decide, by decide, law.2.2.1 (by decide)⟩

/-- A capacity of zero is raised to one. -/
theorem window_of_zero : ¬ ∀ cursor capacity sessions,
    (run cursor capacity sessions).resume.order =
      lastDistinct capacity (run cursor capacity sessions).ids := by
  intro all
  exact absurd (all 0 0 [[⟨1, 1, true⟩]]) (by decide)

/-! ## The run loop of the client -/

open Kits (Act Loop Handler Library)

/-- The cursors among what a client did. -/
def saves (acts : List Act) : List Int :=
  acts.filterMap fun
    | .save cursor => some cursor
    | _ => none

/-- The loop is where some event frames lead. -/
def Follows (cursor capacity : Nat) (loop : Loop ResumeState) : Prop :=
  ∃ frames, loop.resume = (run cursor capacity [frames]).resume ∧
    saves loop.acts = (run cursor capacity [frames]).saved.map Int.ofNat

theorem saves_append (acts : List Act) (act : Act) :
    saves (acts ++ [act]) = saves acts ++ saves [act] := List.filterMap_append

theorem run_snoc (cursor capacity : Nat) (frames : List Frame) (f : Frame) :
    run cursor capacity [frames ++ [f]] = onEvent (run cursor capacity [frames]) f := by
  rw [run_eq_foldl, run_eq_foldl, List.flatten_singleton, List.flatten_singleton, List.foldl_append]
  rfl

theorem hook_follows {loop : Loop ResumeState} {handler : Handler} {call : Kits.Call}
    {E : Type} {failed : E} {after : Loop ResumeState → Sessions.Flow (Loop ResumeState) E}
    (follows : Follows cursor capacity loop)
    (goesOn : ∀ called, called.resume = loop.resume → Follows cursor capacity called →
      Follows cursor capacity (after called).state) :
    Follows cursor capacity (loop.hook handler call failed after).state := by
  have called : Follows cursor capacity (loop.act (.call call)) := by
    obtain ⟨frames, resume, saved⟩ := follows
    refine ⟨frames, resume, ?_⟩
    rw [Loop.act, saves_append, saved]
    exact List.append_nil _
  unfold Loop.hook
  split
  · exact called
  · exact goesOn _ rfl called

theorem dispatch_follows {loop : Loop ResumeState} (handler : Handler) (msg : SubServerMsg)
    (follows : Follows cursor capacity loop) :
    Follows cursor capacity (Kits.Rust.dispatch handler msg loop).state := by
  unfold Kits.Rust.dispatch
  cases msg with
  | event e =>
    dsimp only
    split
    · rename_i fresh
      refine hook_follows follows fun called same ⟨frames, resume, saved⟩ => ?_
      have handled : run cursor capacity [frames ++ [⟨e.id, e.seq, true⟩]] =
          ⟨called.resume.record e.id e.seq, (run cursor capacity [frames]).handled ++ [(e.id, e.seq)],
            (run cursor capacity [frames]).saved ++ [(called.resume.record e.id e.seq).cursor]⟩ := by
        rw [run_snoc, onEvent, ← resume, same, if_pos fresh]
        rfl
      refine ⟨frames ++ [⟨e.id, e.seq, true⟩], ?_, ?_⟩
      · rw [handled]
        rfl
      · rw [handled]
        change saves (called.acts ++ [_]) = _
        rw [saves_append, saved, List.map_append]
        rfl
    · exact follows
  | replayed | replayGap | lagged => exact hook_follows follows fun _ _ kept => kept
  | error op msg =>
    dsimp only
    split
    · exact hook_follows follows fun _ _ kept => kept
    · exact follows
  | closing reason =>
    dsimp only
    split
    · exact follows
    · exact follows
  | welcome | ok | pong => exact follows

/-- Whatever the connections carry and the handler does, the Rust client is where some
event frames lead. -/
theorem client_follows (lib : Library) (handler : Handler) (cursor capacity : Nat)
    (connections : List (List Kits.Text)) :
    Follows cursor (max capacity 1)
      ((Kits.Rust.client lib handler).run connections (Kits.Rust.start cursor capacity)).1 := by
  apply Sessions.Client.run_invariant
  · rintro loop ⟨frames, resume, saved⟩
    refine ⟨frames, resume, ?_⟩
    change saves (loop.acts ++ [_]) = _
    rw [saves_append, saved]
    exact List.append_nil _
  · exact fun msg loop follows => dispatch_follows handler msg follows
  · exact ⟨[], rfl, rfl⟩

end Whdr.Handling
