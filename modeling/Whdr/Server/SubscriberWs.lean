import Whdr.Server.Subscribers

/-! How a connection task answers one client frame (subscriber_ws.rs). -/
namespace Whdr.SubscriberWs

open DeliveryLog (Table readAfter)

/-- u64 addition. An overflow panics (`none`) in a build with overflow checks and
wraps in one without. -/
def addU64 (checks : Bool) (a b : Nat) : Option Nat :=
  if a + b < u64Size then some (a + b)
  else if checks then none
  else some ((a + b) % u64Size)

/-- `floor != 0 && replay.after_seq + 1 < floor`. -/
def predatesFloor (checks : Bool) (afterSeq floor : Nat) : Option Bool :=
  if floor = 0 then some false
  else (addU64 checks afterSeq 1).map fun next => decide (next < floor)

/-- The frames streamed to the sink, from the counters loaded and the rows the scan
found. `none` is a panic of the connection task. -/
def replayFrames (checks : Bool) (afterSeq : Nat) (patterns : List Pattern) (floor head : Nat)
    (table : Table) : Option (List SubServerMsg) :=
  (predatesFloor checks afterSeq floor).map fun gap =>
    let effectiveAfter := if gap then floor - 1 else afterSeq
    let rows := (readAfter table effectiveAfter (some patterns)).takeWhile fun row =>
      decide (row.seq ≤ head)
    .ok "subscribe" ::
      ((if gap then [.replayGap afterSeq floor] else []) ++ rows.map .event ++ [.replayed head])

/-- The loads of one replay, in the order the handler makes them. -/
inductive Replaying
  | registered
  | floorLoaded (floor : Nat)
  | headLoaded (floor head : Nat)
  deriving DecidableEq, Repr

def pushControl (r : SubscriberRegistry) (id : Nat) (msg : SubServerMsg) : SubscriberRegistry :=
  r.modify id fun sub => { sub with queue := sub.queue.pushControl msg }

/-- The patterns of a request that parse, as the handler collects them for a replay. -/
def requested (patterns : List String) : List Pattern :=
  patterns.filterMap fun p => (Pattern.new p).toOption

/-- One client frame. The second component is the replay still to be streamed: its
cursor and its parsed patterns. -/
def handleSubscriberText (r : SubscriberRegistry) (id : Nat) :
    SubClientMsg → SubscriberRegistry × Option (Nat × List Pattern)
  | .subscribe patterns replay =>
    match r.subscribe id patterns with
    | .error msg => (pushControl r id (.error "subscribe" msg), none)
    | .ok r =>
      match replay with
      | none => (pushControl r id (.ok "subscribe"), none)
      | some replay =>
        match r.delivery with
        | none =>
          -- Live subscription is active; replay is simply refused.
          let r := pushControl r id (.ok "subscribe")
          (pushControl r id (.error "replay" "durable delivery is not enabled"), none)
        | some _ =>
          (r, some (replay.afterSeq, requested patterns))
  | .unsubscribe patterns =>
    (pushControl (r.unsubscribe id patterns) id (.ok "unsubscribe"), none)
  | .ping => (pushControl r id .pong, none)

theorem requested_of_parsed {patterns : List String} {parsed : List Pattern}
    (h : SubscriberRegistry.parsePatterns patterns = .ok parsed) : requested patterns = parsed := by
  induction patterns generalizing parsed with
  | nil => cases h; rfl
  | cons pattern rest ih =>
    simp only [SubscriberRegistry.parsePatterns] at h
    split at h
    · cases h
    · rename_i first hfirst
      split at h
      · cases h
      · rename_i more hmore
        cases h
        rw [requested, List.filterMap_cons, hfirst, ← ih hmore]
        rfl

/-- A subscribe with replay either registers every pattern, or reports the first that
does not parse and registers none. -/
theorem handle_subscribe (r : SubscriberRegistry) {shared : DeliveryLog.Shared}
    (hd : r.delivery = some shared) (id afterSeq : Nat) (patterns : List String) :
    handleSubscriberText r id (.subscribe patterns (some ⟨afterSeq⟩)) =
      (r.modify id fun sub =>
        { sub with patterns := SubscriberRegistry.addPatterns sub.patterns (requested patterns) },
        some (afterSeq, requested patterns)) ∨
    ∃ msg, handleSubscriberText r id (.subscribe patterns (some ⟨afterSeq⟩)) =
      (pushControl r id (.error "subscribe" msg), none) := by
  simp only [handleSubscriberText, SubscriberRegistry.subscribe]
  cases hp : SubscriberRegistry.parsePatterns patterns with
  | error msg => exact .inr ⟨msg, rfl⟩
  | ok parsed =>
    have same := (SubscriberRegistry.modify_same r id fun sub =>
      { sub with patterns := SubscriberRegistry.addPatterns sub.patterns parsed }).1
    simp only [same, hd, requested_of_parsed hp]
    exact .inl trivial

/-! ## The streamed rows -/

/-- Cutting an ascending list at a bound keeps exactly what is within it. -/
theorem mem_takeWhile_le {rows : List StampedEvent}
    (asc : rows.Pairwise (fun a b => a.seq < b.seq)) (head : Nat) (row : StampedEvent) :
    row ∈ rows.takeWhile (fun row => decide (row.seq ≤ head)) ↔ row ∈ rows ∧ row.seq ≤ head := by
  induction rows with
  | nil => simp
  | cons first rest ih =>
    obtain ⟨below, asc⟩ := List.pairwise_cons.mp asc
    by_cases le : first.seq ≤ head
    · simp only [List.takeWhile_cons, le, decide_true, ↓reduceIte, List.mem_cons, ih asc]
      constructor
      · rintro (rfl | ⟨hm, hl⟩)
        · exact ⟨.inl rfl, le⟩
        · exact ⟨.inr hm, hl⟩
      · rintro ⟨rfl | hm, hl⟩
        · exact .inl rfl
        · exact .inr ⟨hm, hl⟩
    · simp only [List.takeWhile_cons, le, decide_false, Bool.false_eq_true, ↓reduceIte,
        List.not_mem_nil, false_iff, not_and, Nat.not_le]
      intro hm
      obtain rfl | hm := List.mem_cons.mp hm
      · omega
      · have := below row hm
        omega

variable {checks : Bool} {afterSeq floor head : Nat} {patterns : List Pattern} {table : Table}
  {frames : List SubServerMsg}

theorem pos_of_predates (gap : predatesFloor checks afterSeq floor = some true) : 0 < floor := by
  unfold predatesFloor at gap
  split at gap
  · cases gap
  · omega

/-- What the handler streams, given how the gap test came out. -/
theorem replayFrames_eq (h : replayFrames checks afterSeq patterns floor head table = some frames) :
    ∃ gap : Bool, predatesFloor checks afterSeq floor = some gap ∧
      eventsOf frames = (readAfter table (if gap then floor - 1 else afterSeq)
        (some patterns)).takeWhile (fun row => decide (row.seq ≤ head)) ∧
      frames = .ok "subscribe" :: ((if gap then [.replayGap afterSeq floor] else []) ++
        (eventsOf frames).map .event ++ [.replayed head]) := by
  obtain ⟨gap, hg, rfl⟩ := Option.map_eq_some_iff.mp h
  refine ⟨gap, hg, ?_⟩
  have events : ∀ rows : List StampedEvent,
      eventsOf (.ok "subscribe" :: ((if gap then [.replayGap afterSeq floor] else []) ++
        rows.map .event ++ [.replayed head])) = rows := by
    intro rows
    cases gap <;> simp [eventsOf, List.filterMap_map]
  dsimp only
  rw [events]
  exact ⟨rfl, rfl⟩

theorem mem_replayed {gap : Bool} {row : StampedEvent}
    (he : eventsOf frames = (readAfter table (if gap then floor - 1 else afterSeq)
      (some patterns)).takeWhile (fun row => decide (row.seq ≤ head))) :
    row ∈ eventsOf frames ↔ table.get? row.seq = some (DeliveryLog.stored row) ∧
      min ((if gap then floor - 1 else afterSeq) + 1) (u64Size - 1) ≤ row.seq ∧
      row.seq ≤ head ∧ anyMatches patterns row.channel = true := by
  rw [he, mem_takeWhile_le (DeliveryLog.readAfter_ascending _ _ _), DeliveryLog.mem_readAfter]
  tauto

/-- A replayed event is a retained row within the head that a pattern matches. -/
theorem replayed_row (h : replayFrames checks afterSeq patterns floor head table = some frames)
    {row : StampedEvent} (hr : row ∈ eventsOf frames) :
    table.get? row.seq = some (DeliveryLog.stored row) ∧ row.seq ≤ head ∧
      anyMatches patterns row.channel = true := by
  obtain ⟨gap, _, he, _⟩ := replayFrames_eq h
  obtain ⟨mem, _, le, matched⟩ := (mem_replayed he).mp hr
  exact ⟨mem, le, matched⟩

theorem replayed_ascending (h : replayFrames checks afterSeq patterns floor head table = some frames) :
    (eventsOf frames).Pairwise fun a b => a.seq < b.seq := by
  obtain ⟨gap, _, he, _⟩ := replayFrames_eq h
  rw [he]
  exact (DeliveryLog.readAfter_ascending _ _ _).sublist (List.takeWhile_sublist _)

/-- When no row lies below the floor, every matching row of the window is replayed. -/
theorem replay_covers (h : replayFrames checks afterSeq patterns floor head table = some frames)
    (lowest : ∀ k e, table.get? k = some e → floor ≤ k) {row : StampedEvent}
    (mem : table.get? row.seq = some (DeliveryLog.stored row)) (lo : afterSeq < row.seq)
    (hi : row.seq ≤ head) (matched : anyMatches patterns row.channel = true) :
    row ∈ eventsOf frames := by
  obtain ⟨gap, _, he, _⟩ := replayFrames_eq h
  have above := lowest _ _ mem
  refine (mem_replayed he).mpr ⟨mem, ?_, hi, matched⟩
  cases gap
  · simp only [Bool.false_eq_true, ↓reduceIte]; omega
  · simp only [↓reduceIte]; omega

/-- Only an overflow of `after_seq + 1` keeps the frames from being produced. -/
theorem overflow_of_panic
    (h : replayFrames checks afterSeq patterns floor head table = none) :
    u64Size ≤ afterSeq + 1 := by
  by_contra lt
  have lt : afterSeq + 1 < u64Size := by omega
  simp only [replayFrames, predatesFloor, addU64, lt, ↓reduceIte, Option.map_some,
    Option.map_eq_none_iff] at h
  split at h <;> cases h

end Whdr.SubscriberWs
