import Whdr.SubKit.Kits

/-! The machine over the server's messages that every kit follows, and the Rust kit. -/
namespace Whdr.Kits

open Sessions (Flow Follows Simulates)
open Wire (toJson uuidSize)

/-! ## The machine -/

/-- The cursor and the ids handled last. -/
structure Window where
  cursor : Int
  recent : List String
  deriving DecidableEq, Repr

namespace Window

def fresh (w : Window) (ev : Delivered) : Bool :=
  decide (ev.seq > w.cursor) && !w.recent.contains ev.id

/-- The last `capacity` ids are kept. -/
def handled (w : Window) (capacity : Nat) (ev : Delivered) : Window :=
  let recent := w.recent ++ [ev.id]
  ⟨ev.seq, recent.drop (recent.length - capacity)⟩

end Window

namespace Machine

inductive Stop
  | revoked
  | handler
  | closed
  deriving DecidableEq, Repr

def Stop.isFatal : Stop → Bool
  | .revoked | .handler => true
  | .closed => false

def step (handler : Handler) (capacity : Nat) (msg : SubServerMsg) (s : Loop Window) :
    Flow (Loop Window) Stop :=
  match msg with
  | .event e =>
    let ev := Rust.deliveredEvent e
    if s.resume.fresh ev then
      s.hook handler (.onEvent ev) .handler fun s =>
        .next ⟨s.resume.handled capacity ev, s.acts ++ [.save ev.seq]⟩
    else .next s
  | .replayed throughSeq => s.hook handler (.onReplayed throughSeq) .handler .next
  | .replayGap fromSeq earliestSeq =>
    s.hook handler (.onReplayGap fromSeq earliestSeq) .handler .next
  | .lagged dropped => s.hook handler (.onLagged dropped) .handler fun s => .ends s (.ok ())
  | .error op msg =>
    if op = "replay" then s.hook handler (.onReplayUnavailable msg) .handler .next else .next s
  | .closing .revoked => .ends s (.error .revoked)
  | .closing .shutdown => .ends s (.ok ())
  | .welcome _ | .ok _ | .pong => .next s

end Machine

def machine (handler : Handler) (capacity : Nat) : Sessions.Client SubServerMsg (Loop Window) where
  Frame := SubServerMsg
  Error := Machine.Stop
  recv := .frame
  opens := Rust.isWelcome
  connected s := s.act (.subscribe s.resume.cursor)
  dispatch := Machine.step handler capacity
  broken := .closed
  closed := .closed
  fatal := Machine.Stop.isFatal

/-! ## Following it -/

variable {R M : Type} {H : R → Window → Prop} {handler : Handler} {capacity : Nat}

/-- Equal acts, and dedup states that stand for each other. -/
structure Alike (H : R → Window → Prop) (s : Loop R) (t : Loop Window) : Prop where
  resume : H s.resume t.resume
  acts : s.acts = t.acts

theorem Alike.act {s : Loop R} {t : Loop Window} (alike : Alike H s t) (a : Act) :
    Alike H (s.act a) (t.act a) where
  resume := alike.resume
  acts := by rw [Loop.act, Loop.act, alike.acts]

theorem Alike.saves {s : Loop R} {t : Loop Window} (alike : Alike H s t) {r : R} {w : Window}
    (resume : H r w) {cursor seq : Int} (same : cursor = seq) :
    Alike H ⟨r, s.acts ++ [.save cursor]⟩ ⟨w, t.acts ++ [.save seq]⟩ where
  resume := resume
  acts := by rw [alike.acts, same]

theorem Alike.connected {s : Loop R} {t : Loop Window} (alike : Alike H s t) {cursor : Int}
    (same : cursor = t.resume.cursor) :
    Alike H (s.act (.subscribe cursor)) (t.act (.subscribe t.resume.cursor)) :=
  same ▸ alike.act _

/-- A hook is called by both, and fails for both. -/
theorem hook_follows {a : Sessions.Client M (Loop R)} {s : Loop R} {t : Loop Window}
    (alike : Alike H s t) {c : Call} {failed : a.Error} (fatal : a.fatal failed = true)
    {p : Loop R → Flow (Loop R) a.Error} {q : Loop Window → Flow (Loop Window) Machine.Stop}
    (follows : Alike H (s.act (.call c)) (t.act (.call c)) → Follows a (machine handler capacity)
      (Alike H) (p (s.act (.call c))) (q (t.act (.call c)))) :
    Follows a (machine handler capacity) (Alike H) (s.hook handler c failed p)
      (t.hook handler c .handler q) := by
  have called := alike.act (.call c)
  simp only [Loop.hook, alike.acts]
  cases handler t.acts c with
  | true => exact ⟨called, fatal⟩
  | false => exact follows called

/-! ## Dedup state -/

theorem remember_cursor (r : Resume) (id : String) : (r.remember id).cursor = r.cursor := by
  unfold Resume.remember
  split
  · rfl
  · dsimp only
    split
    · split <;> rfl
    · rfl

theorem record_cursor (r : Resume) (id : String) (seq : Int) :
    (r.record id seq).cursor = max r.cursor seq := by
  simp only [Resume.record, remember_cursor]
  split
  · rename_i later
    exact (max_eq_right (Int.le_of_lt later)).symm
  · rename_i earlier
    rw [remember_cursor]
    exact (max_eq_left (Int.not_lt.mp earlier)).symm

theorem seen_record {r : Resume} {id x : String} {seq : Int} (seen : x ∈ (r.record id seq).seen) :
    x = id ∨ x ∈ r.seen := by
  have kept : (r.record id seq).seen = (r.remember id).seen := by
    simp only [Resume.record]
    split <;> rfl
  rw [kept] at seen
  revert seen
  unfold Resume.remember
  split
  · exact .inr
  · dsimp only
    split
    · split
      · exact fun seen => List.mem_cons.mp (List.mem_filter.mp seen).1
      · exact List.mem_cons.mp
    · exact List.mem_cons.mp

/-- A text dedup state that stands for a window: the set is the set of the queue. -/
structure Holds (capacity : Nat) (r : Resume) (w : Window) : Prop where
  cursor : r.cursor = w.cursor
  order : r.order = w.recent
  seen : ∀ id, id ∈ r.seen ↔ id ∈ r.order
  nodup : r.order.Nodup
  bound : r.order.length ≤ capacity
  capacity : r.capacity = capacity

theorem shouldProcess_fresh {r : Resume} {w : Window} (holds : Holds capacity r w) (ev : Delivered) :
    r.shouldProcess ev.id ev.seq = w.fresh ev := by
  have member : r.seen.contains ev.id = w.recent.contains ev.id := by
    rw [Bool.eq_iff_iff, List.contains_iff_mem, List.contains_iff_mem, holds.seen, holds.order]
  rw [Resume.shouldProcess, Window.fresh, holds.cursor, member]

theorem fresh_iff (w : Window) (ev : Delivered) :
    w.fresh ev = true ↔ w.cursor < ev.seq ∧ ev.id ∉ w.recent := by
  simp [Window.fresh]

/-- Remembering a new id keeps the last ids of the queue and their set. -/
theorem holds_record {r : Resume} {w : Window} (holds : Holds capacity r w) {ev : Delivered}
    (fresh : w.fresh ev = true) : Holds capacity (r.record ev.id ev.seq) (w.handled capacity ev) := by
  obtain ⟨later, new⟩ := (fresh_iff w ev).mp fresh
  obtain ⟨cursor, seen, order, limit⟩ := r
  obtain ⟨sameCursor, sameOrder, sameSeen, nodup, bound, sameLimit⟩ := holds
  dsimp only at sameCursor sameOrder sameSeen nodup bound sameLimit
  subst sameCursor sameOrder sameLimit
  have unseen : seen.contains ev.id = false := by
    rw [← Bool.not_eq_true, List.contains_iff_mem, sameSeen]
    exact new
  -- the queue with the new id behind, and its front
  obtain ⟨old, rest, queue⟩ : ∃ old rest, w.recent ++ [ev.id] = old :: rest := by
    cases w.recent <;> exact ⟨_, _, rfl⟩
  have members : ∀ id, id ∈ ev.id :: seen ↔ id ∈ old :: rest := by
    intro id
    rw [← queue, List.mem_cons, List.mem_append, List.mem_singleton, sameSeen, Or.comm]
  have distinct : (old :: rest).Nodup := by
    rw [← queue]
    simp only [List.nodup_append, nodup, true_and, List.mem_singleton]
    exact ⟨by simp, fun a inside b isNew same => new (isNew ▸ same ▸ inside)⟩
  have length : (old :: rest).length = w.recent.length + 1 := by rw [← queue, List.length_append]; rfl
  simp only [Resume.record, Resume.remember, unseen, queue, Window.handled, Bool.false_eq_true,
    if_false]
  by_cases full : ((old :: rest).length : Int) > capacity
  · have one : (old :: rest).length - capacity = 1 := by omega
    simp only [full, if_true, later, one, List.drop_one, List.tail_cons]
    refine ⟨rfl, rfl, fun id => ?_, distinct.of_cons, ?_, rfl⟩
    · have front : old ∉ rest := (List.nodup_cons.mp distinct).1
      simp only [List.mem_filter, members, bne_iff_ne, List.mem_cons]
      constructor
      · rintro ⟨rfl | inside, other⟩
        · exact absurd rfl other
        · exact inside
      · intro inside
        exact ⟨.inr inside, fun same => front (same ▸ inside)⟩
    · rw [List.length_cons] at length
      dsimp only
      omega
  · have none : (old :: rest).length - capacity = 0 := by omega
    simp only [full, if_false, later, if_true, none, List.drop_zero]
    refine ⟨rfl, rfl, members, distinct, ?_, rfl⟩
    dsimp only
    omega

/-! ## Messages -/

/-- A message with an id of 128 bits and other numbers below 2^53. -/
def Sendable : SubServerMsg → Prop
  | .event e => e.id < uuidSize ∧ e.seq < 2 ^ 53 ∧ e.tsMs < 2 ^ 53
  | .replayed throughSeq => throughSeq < 2 ^ 53
  | .replayGap fromSeq earliestSeq => fromSeq < 2 ^ 53 ∧ earliestSeq < 2 ^ 53
  | .lagged dropped => dropped < 2 ^ 53
  | .welcome _ | .ok _ | .error _ _ | .pong | .closing _ => True

theorem small_u64 {n : Nat} (small : n < 2 ^ 53) : n < u64Size := Nat.lt_trans small (by decide)

theorem sendable_inRange {m : SubServerMsg} (sendable : Sendable m) : Wire.InRange m := by
  cases m with
  | event e => exact ⟨sendable.1, small_u64 sendable.2.1, small_u64 sendable.2.2⟩
  | replayGap fromSeq earliestSeq => exact ⟨small_u64 sendable.1, small_u64 sendable.2⟩
  | replayed throughSeq => exact small_u64 sendable
  | lagged dropped => exact small_u64 sendable
  | _ => trivial

/-- The text the server sends for a message. -/
def frameText (m : SubServerMsg) : Text := (toJson m).render

/-- The library reads back what fits, and the transport takes the message. -/
structure Library.Passes (lib : Library) (m : SubServerMsg) : Prop where
  sendable : Sendable m
  takes : lib.Takes (frameText m)

def Library.Correct (lib : Library) : Prop := ∀ j : Json, j.Fits → lib.read j.render = some j

theorem recv_frame {F : Type} {lib : Library} {parse : Json → Option F} {m : SubServerMsg} {f : F}
    (correct : lib.Correct) (passes : lib.Passes m) (parsed : parse (toJson m) = some f) :
    recv lib parse (frameText m) = .frame f := by
  have read : lib.read (frameText m) = some (toJson m) :=
    correct _ (Ndjson.LawfulWire.fits m (sendable_inRange passes.sendable))
  rw [recv, if_pos passes.takes, read, Option.bind_some, parsed]

/-! ## Rust -/

def idText (id : Uuid) : String := String.ofList (UuidText.hyphenated id)

theorem idText_inj {a b : Uuid} (smallA : a < uuidSize) (smallB : b < uuidSize)
    (same : idText a = idText b) : a = b := by
  have chars : UuidText.hyphenated a = UuidText.hyphenated b := by
    simpa [idText] using congrArg String.toList same
  have parsed := UuidText.parse_hyphenated smallA
  rw [chars, UuidText.parse_hyphenated smallB] at parsed
  exact (Option.some.inj parsed).symm

/-- The dedup state with its ids as text. -/
def asText (r : ResumeState) : Resume :=
  ⟨r.cursor, r.seen.map idText, r.order.map idText, r.capacity⟩

def Ids (r : ResumeState) : Prop := ∀ id, id ∈ r.seen ∨ id ∈ r.order → id < uuidSize

theorem contains_idText {ids : List Uuid} {id : Uuid} (small : ∀ x ∈ ids, x < uuidSize)
    (smallId : id < uuidSize) : (ids.map idText).contains (idText id) = ids.contains id := by
  rw [Bool.eq_iff_iff, List.contains_iff_mem, List.contains_iff_mem, List.mem_map]
  constructor
  · rintro ⟨x, mem, same⟩
    rwa [← idText_inj (small x mem) smallId same]
  · intro mem
    exact ⟨id, mem, rfl⟩

theorem filter_idText {ids : List Uuid} {old : Uuid} (small : ∀ x ∈ ids, x < uuidSize)
    (smallOld : old < uuidSize) :
    (ids.map idText).filter (· != idText old) = (ids.filter (· != old)).map idText := by
  rw [List.filter_map]
  congr 1
  apply List.filter_congr
  intro x mem
  rw [Function.comp_apply, Bool.eq_iff_iff, bne_iff_ne, bne_iff_ne]
  exact ⟨fun other same => other (congrArg idText same),
    fun other same => other (idText_inj (small x mem) smallOld same)⟩

theorem shouldProcess_asText {r : ResumeState} (ids : Ids r) {id : Uuid} (small : id < uuidSize)
    (seq : Nat) : (asText r).shouldProcess (idText id) seq = r.shouldProcess id seq := by
  rw [Resume.shouldProcess, ResumeState.shouldProcess, asText,
    contains_idText (fun x mem => ids x (.inl mem)) small]
  simp

theorem remember_asText {r : ResumeState} (ids : Ids r) {id : Uuid} (small : id < uuidSize) :
    (asText r).remember (idText id) = asText (r.remember id) ∧ Ids (r.remember id) := by
  obtain ⟨cursor, seen, order, limit⟩ := r
  have inSeen : ∀ x ∈ id :: seen, x < uuidSize :=
    List.forall_mem_cons.mpr ⟨small, fun x mem => ids x (.inl mem)⟩
  simp only [Resume.remember, ResumeState.remember, asText,
    contains_idText (fun x mem => ids x (.inl mem)) small]
  cases seen.contains id with
  | true => exact ⟨rfl, ids⟩
  | false =>
    obtain ⟨old, rest, queue⟩ : ∃ old rest, order ++ [id] = old :: rest := by
      cases order <;> exact ⟨_, _, rfl⟩
    have texts : order.map idText ++ [idText id] = idText old :: rest.map idText := by
      rw [← List.map_singleton, ← List.map_append, queue, List.map_cons]
    have inOrder : ∀ x ∈ old :: rest, x < uuidSize := by
      rw [← queue]
      intro x mem
      obtain mem | mem := List.mem_append.mp mem
      · exact ids x (.inr mem)
      · exact List.mem_singleton.mp mem ▸ small
    have length : ((idText old :: rest.map idText).length : Int) > limit ↔
        (old :: rest).length > limit := by
      simp only [List.length_cons, List.length_map]
      omega
    simp only [texts, queue, length, Bool.false_eq_true, if_false]
    by_cases full : (old :: rest).length > limit
    · have evicted := filter_idText inSeen (inOrder old List.mem_cons_self)
      simp only [full, if_true]
      refine ⟨congrArg (fun seen => (⟨cursor, seen, rest.map idText, limit⟩ : Resume)) evicted,
        fun x mem => ?_⟩
      obtain mem | mem := mem
      · exact inSeen x (List.mem_filter.mp mem).1
      · exact inOrder x (List.mem_cons_of_mem _ mem)
    · simp only [full, if_false]
      refine ⟨rfl, fun x mem => ?_⟩
      obtain mem | mem := mem
      · exact inSeen x mem
      · exact inOrder x mem

theorem record_asText {r : ResumeState} (ids : Ids r) {id : Uuid} (small : id < uuidSize)
    (seq : Nat) :
    (asText r).record (idText id) seq = asText (r.record id seq) ∧ Ids (r.record id seq) := by
  obtain ⟨same, kept⟩ := remember_asText ids small
  simp only [Resume.record, ResumeState.record, same]
  by_cases later : seq > (r.remember id).cursor
  · have laterInt : (seq : Int) > (asText (r.remember id)).cursor := Int.ofNat_lt.mpr later
    rw [if_pos later, if_pos laterInt]
    exact ⟨rfl, kept⟩
  · have notInt : ¬ (seq : Int) > (asText (r.remember id)).cursor :=
      fun h => later (Int.ofNat_lt.mp h)
    rw [if_neg later, if_neg notInt]
    exact ⟨rfl, kept⟩

/-- The Rust state stands for a window if its text does. -/
structure RustHolds (capacity : Nat) (r : ResumeState) (w : Window) : Prop where
  ids : Ids r
  holds : Holds capacity (asText r) w

theorem rust_follows {lib : Library} {m : SubServerMsg} (sendable : Sendable m)
    {s : Loop ResumeState} {t : Loop Window} (alike : Alike (RustHolds capacity) s t) :
    Follows (Rust.client lib handler) (machine handler capacity) (Alike (RustHolds capacity))
      (Rust.dispatch handler m s) (Machine.step handler capacity m t) := by
  cases m with
  | event e =>
    obtain ⟨ids, holds⟩ := alike.resume
    have agree := shouldProcess_fresh holds (Rust.deliveredEvent e)
    have process : s.resume.shouldProcess e.id e.seq = t.resume.fresh (Rust.deliveredEvent e) :=
      (shouldProcess_asText ids sendable.1 e.seq).symm.trans agree
    simp only [Rust.dispatch, Machine.step, process]
    split
    · rename_i fresh
      refine hook_follows (a := Rust.client lib handler) alike rfl fun called => ?_
      obtain ⟨text, kept⟩ := record_asText ids sendable.1 e.seq
      have recorded := holds_record holds fresh
      have saved : ((s.resume.record e.id e.seq).cursor : Int) = e.seq :=
        (congrArg Resume.cursor text).symm.trans recorded.cursor
      exact called.saves ⟨kept, text ▸ recorded⟩ saved
    · exact alike
  | replayed | replayGap =>
    exact hook_follows (a := Rust.client lib handler) alike rfl fun called => called
  | lagged =>
    simp only [Rust.dispatch, Machine.step]
    refine hook_follows (a := Rust.client lib handler) alike rfl fun called => ?_
    exact ⟨called, rfl⟩
  | error op msg =>
    simp only [Rust.dispatch, Machine.step]
    split
    · exact hook_follows (a := Rust.client lib handler) alike rfl fun called => called
    · exact alike
  | closing reason =>
    cases reason with
    | revoked => exact ⟨alike, rfl⟩
    | shutdown => exact ⟨alike, rfl⟩
  | welcome | ok | pong => exact alike

theorem rust_simulates {lib : Library} (correct : lib.Correct) :
    Simulates (Rust.client lib handler) (machine handler capacity) frameText lib.Passes
      (Alike (RustHolds capacity)) where
  message m passes :=
    ⟨m, m, recv_frame correct passes (Ndjson.LawfulWire.back m (sendable_inRange passes.sendable)),
      rfl, rfl, fun _ _ alike => rust_follows passes.sendable alike⟩
  connected _ _ alike := alike.connected alike.resume.holds.cursor
  closed := rfl

end Whdr.Kits
