import Whdr.Server.LogSteps
import Whdr.Server.SubscriberWs

/-! One replay against a log that goes on writing and pruning. The handler loads the
floor, then the head, then scans; any write may fall between these. -/
namespace Whdr.Replay

open DeliveryLog SubscriberWs
open Runs (Reaches exec guarded reaches_of_exec)

/-- What a finished replay loaded, and what it streamed. -/
structure Observed where
  floor : Nat
  head : Nat
  table : Table
  frames : Option (List SubServerMsg)
  deriving DecidableEq

inductive Handler
  | loading (stage : Replaying)
  | served (o : Observed)
  deriving DecidableEq

structure State where
  log : Live
  handler : Handler
  deriving DecidableEq

inductive Action
  | log (a : LogAction)
  | loadFloor
  | loadHead
  | readRows

variable (valueLen : StoredEvent → Nat) (checks : Bool) (afterSeq : Nat) (patterns : List Pattern)

def step (s : State) : Action → Option State
  | .log a => (s.log.step valueLen a).map fun l => { s with log := l }
  | .loadFloor =>
    match s.handler with
    | .loading .registered =>
      some { s with handler := .loading (.floorLoaded s.log.shared.floor) }
    | _ => none
  | .loadHead =>
    match s.handler with
    | .loading (.floorLoaded floor) =>
      some { s with handler := .loading (.headLoaded floor s.log.shared.head) }
    | _ => none
  | .readRows =>
    match s.handler with
    | .loading (.headLoaded floor head) =>
      let table := s.log.shared.db
      some { s with handler := .served ⟨floor, head, table,
        replayFrames checks afterSeq patterns floor head table⟩ }
    | _ => none

/-- An open log, and a subscribe with replay whose patterns are registered. -/
def Starts (s : State) : Prop :=
  Opened valueLen s.log.shared ∧ s.log.writer = .idle ∧ s.handler = .loading .registered

/-! ## What a replay promises -/

/-- The frames account for every seq of the window: it is streamed, or retained and
matched by no pattern, or inside a gap the client is told of. -/
structure Accounts (table : Table) (head : Nat) (frames : List SubServerMsg) : Prop where
  shape : ∃ gap : List SubServerMsg, gap.length ≤ 1 ∧
    (∀ f ∈ gap, ∃ fromSeq earliest, f = .replayGap fromSeq earliest) ∧
    frames = .ok "subscribe" :: (gap ++ (eventsOf frames).map .event ++ [.replayed head])
  ascending : (eventsOf frames).Pairwise fun a b => a.seq < b.seq
  window : ∀ e ∈ eventsOf frames, afterSeq < e.seq ∧ e.seq ≤ head
  covered : ∀ s, afterSeq < s → s ≤ head →
    (∃ e ∈ eventsOf frames, e.seq = s) ∨
    (∃ row, table.get? s = some row ∧ anyMatches patterns row.channel = false) ∨
    (∃ fromSeq earliest, .replayGap fromSeq earliest ∈ frames ∧ fromSeq < s ∧ s < earliest)

/-- Nothing overflows and nothing is lost silently. -/
def Observed.Sound (o : Observed) : Prop :=
  (o.floor ≠ 0 → afterSeq + 1 < u64Size) ∧
    ∃ frames, o.frames = some frames ∧ Accounts afterSeq patterns o.table o.head frames

/-- `after_seq + 1` stays in range, or it is never computed and the saturated scan
does not start on a matching row. -/
def Observed.InRange (o : Observed) : Prop :=
  afterSeq + 1 < u64Size ∨
    (o.floor = 0 ∧ ∀ row, o.table.get? afterSeq = some row → afterSeq ≤ o.head →
      anyMatches patterns row.channel = false)

/-- The window is empty, or the scan found a row no later than the first seq wanted
or than the floor the gap is measured by. -/
def Observed.Retained (o : Observed) : Prop :=
  o.head ≤ afterSeq ∨
    ∃ low row, o.table.first? = some (low, row) ∧ (low ≤ afterSeq + 1 ∨ low ≤ o.floor)

/-! ## What the loads have in common -/

/-- The scan sees every row up to the head loaded, from some seq on. -/
structure Consistent (o : Observed) (low last : Nat) : Prop where
  pos : 1 ≤ low
  spans : Spans o.table low last
  floor : o.floor ≤ o.head
  head : o.head ≤ last

/-- What a handler knows of the head counter, which is now `head`. -/
def Loaded (head : Nat) : Handler → Prop
  | .loading .registered => True
  | .loading (.floorLoaded floor) => floor ≤ head
  | .loading (.headLoaded floor loaded) => floor ≤ loaded ∧ loaded ≤ head
  | .served o => (∃ low last, Consistent o low last) ∧
      o.frames = replayFrames checks afterSeq patterns o.floor o.head o.table

structure Valid (s : State) : Prop where
  log : ∃ low last, s.log.Valid low last
  loaded : Loaded checks afterSeq patterns s.log.shared.head s.handler

variable {valueLen checks afterSeq patterns} {s t : State}

theorem starts_valid (h : Starts valueLen s) : Valid checks afterSeq patterns s := by
  obtain ⟨opened, idle, registered⟩ := h
  obtain ⟨low, last, hv⟩ := opened_valid opened
  refine ⟨⟨low, last, ?_⟩, ?_⟩
  · obtain ⟨⟨shared, writer⟩, handler⟩ := s
    simp only at idle
    rw [idle]
    exact hv
  · rw [registered]
    trivial

/-- The head never moves back, so what was loaded stays consistent. -/
theorem Loaded.mono {head head' : Nat} {handler : Handler}
    (h : Loaded checks afterSeq patterns head handler) (le : head ≤ head') :
    Loaded checks afterSeq patterns head' handler := by
  cases handler with
  | served o => exact h
  | loading stage =>
    cases stage with
    | registered => trivial
    | floorLoaded floor => exact Nat.le_trans h le
    | headLoaded floor loaded => exact ⟨h.1, Nat.le_trans h.2 le⟩

theorem step_valid (hv : Valid checks afterSeq patterns s) {a : Action}
    (hs : step valueLen checks afterSeq patterns s a = some t) :
    Valid checks afterSeq patterns t := by
  obtain ⟨⟨low, last, log⟩, loaded⟩ := hv
  cases a with
  | log a =>
    obtain ⟨l, hl, rfl⟩ := Option.map_eq_some_iff.mp hs
    obtain ⟨low', last', log', _, _, le⟩ := DeliveryLog.step_valid log hl
    exact ⟨⟨low', last', log'⟩, loaded.mono le⟩
  | loadFloor =>
    simp only [step] at hs
    split at hs
    · cases hs
      exact ⟨⟨low, last, log⟩, log.floor⟩
    · cases hs
  | loadHead =>
    simp only [step] at hs
    split at hs
    · rename_i floor hh
      cases hs
      have le : floor ≤ s.log.shared.head := by simpa [Loaded, hh] using loaded
      exact ⟨⟨low, last, log⟩, le, Nat.le_refl _⟩
    · cases hs
  | readRows =>
    simp only [step] at hs
    split at hs
    · rename_i floor head hh
      cases hs
      have le : floor ≤ head ∧ head ≤ s.log.shared.head := by simpa [Loaded, hh] using loaded
      have committed := log.head_le
      exact ⟨⟨low, last, log⟩,
        ⟨low, last, log.pos, log.spans, le.1, by simp only; omega⟩, rfl⟩
    · cases hs

/-! ## When the promise is kept -/

/-- The rows retained, by the least key of the table. -/
theorem Consistent.first? {o : Observed} {low last : Nat} (hc : Consistent o low last)
    (rows : low ≤ last) : ∃ row, o.table.first? = some (low, row) := by
  obtain ⟨row, hrow⟩ := (hc.spans low).mpr ⟨Nat.le_refl _, rows⟩
  cases hf : o.table.first? with
  | none => rw [o.table.first?_eq_none hf] at hrow; cases hrow
  | some first =>
    obtain ⟨k, e⟩ := first
    obtain ⟨mem, least⟩ := o.table.first?_eq_some hf
    have upper := least low row hrow
    have lower := (hc.spans k).mp ⟨e, mem⟩
    have eq : k = low := by omega
    exact ⟨e, by rw [eq]⟩

theorem Consistent.retained_iff {o : Observed} {low last : Nat} (hc : Consistent o low last) :
    o.Retained afterSeq ↔ o.head ≤ afterSeq ∨ low ≤ afterSeq + 1 ∨ low ≤ o.floor := by
  have head := hc.head
  have floor := hc.floor
  constructor
  · rintro (window | ⟨k, row, hf, h⟩)
    · exact .inl window
    · have mem := (hc.spans k).mp ⟨row, (o.table.first?_eq_some hf).1⟩
      exact .inr (by omega)
  · intro h
    by_cases window : o.head ≤ afterSeq
    · exact .inl window
    · have rows : low ≤ last := by omega
      obtain ⟨row, hf⟩ := hc.first? rows
      exact .inr ⟨low, row, hf, by omega⟩

/-- A streamed window is accounted for exactly when its rows are all retained. -/
theorem covered_iff {o : Observed} {low last start : Nat} (hc : Consistent o low last)
    {frames : List SubServerMsg}
    (events : ∀ row, row ∈ eventsOf frames ↔ o.table.get? row.seq = some (stored row) ∧
      start ≤ row.seq ∧ row.seq ≤ o.head ∧ anyMatches patterns row.channel = true)
    {s : Nat} (lo : start ≤ s) (hi : s ≤ o.head) :
    ((∃ e ∈ eventsOf frames, e.seq = s) ∨
      ∃ row, o.table.get? s = some row ∧ anyMatches patterns row.channel = false) ↔ low ≤ s := by
  have head := hc.head
  constructor
  · rintro (⟨e, he, rfl⟩ | ⟨row, hr, _⟩)
    · exact ((hc.spans _).mp ⟨_, ((events e).mp he).1⟩).1
    · exact ((hc.spans _).mp ⟨_, hr⟩).1
  · intro le
    obtain ⟨row, hr⟩ := (hc.spans s).mpr ⟨le, by omega⟩
    cases hm : anyMatches patterns row.channel with
    | false => exact .inr ⟨row, hr, hm⟩
    | true => exact .inl ⟨row.stamp s, (events _).mpr ⟨hr, lo, hi, hm⟩, rfl⟩

theorem mem_replayGap {floor head fromSeq earliest : Nat} {gap : Bool}
    {events : List StampedEvent} :
    SubServerMsg.replayGap fromSeq earliest ∈ SubServerMsg.ok "subscribe" ::
      ((if gap then [.replayGap afterSeq floor] else []) ++ events.map .event ++
        [.replayed head]) ↔
    gap = true ∧ fromSeq = afterSeq ∧ earliest = floor := by
  cases gap <;> simp

/-- With a gap frame everything below the floor is accounted for, so the rows from
the floor on decide. -/
theorem accounts_gap_iff {o : Observed} {low last : Nat} (hc : Consistent o low last)
    {frames : List SubServerMsg} (hf : replayFrames checks afterSeq patterns o.floor o.head o.table =
      some frames) (hg : predatesFloor checks afterSeq o.floor = some true)
    (range : afterSeq + 1 < u64Size) (below : afterSeq + 1 < o.floor) :
    Accounts afterSeq patterns o.table o.head frames ↔ low ≤ o.floor := by
  obtain ⟨gap, hg', he, shape⟩ := replayFrames_eq hf
  obtain rfl : gap = true := by simpa [hg] using hg'.symm
  have events : ∀ row, row ∈ eventsOf frames ↔ _ := fun row => mem_replayed he
  simp only [↓reduceIte] at events
  have isGap : ∀ {fromSeq earliest}, .replayGap fromSeq earliest ∈ frames ↔
      fromSeq = afterSeq ∧ earliest = o.floor := by
    intro fromSeq earliest
    rw [shape, mem_replayGap]
    exact and_iff_right rfl
  have covers := fun {s : Nat} => covered_iff (s := s) hc events
  have floor := hc.floor
  constructor
  · intro acc
    refine (covers (by omega) floor).mp ?_
    obtain h | h | ⟨a, b, hm, _, hi⟩ := acc.covered o.floor (by omega) floor
    · exact .inl h
    · exact .inr h
    · have := isGap.mp hm
      omega
  · intro retained
    refine ⟨⟨[.replayGap afterSeq o.floor], by simp, by simp, shape⟩, ?_, ?_, ?_⟩
    · exact replayed_ascending hf
    · intro e hm
      obtain ⟨hr, lo, hi, _⟩ := (events e).mp hm
      exact ⟨by omega, hi⟩
    · intro s lo hi
      by_cases inGap : s < o.floor
      · exact .inr (.inr ⟨afterSeq, o.floor, isGap.mpr ⟨rfl, rfl⟩, lo, inGap⟩)
      · obtain streamed | unmatched := (covers (s := s) (by omega) hi).mpr (by omega)
        · exact .inl streamed
        · exact .inr (.inl unmatched)

/-- Without one the rows right after the cursor decide. -/
theorem accounts_noGap_iff {o : Observed} {low last : Nat} (hc : Consistent o low last)
    {frames : List SubServerMsg} (hf : replayFrames checks afterSeq patterns o.floor o.head o.table =
      some frames) (hg : predatesFloor checks afterSeq o.floor = some false)
    (u64 : afterSeq < u64Size) :
    Accounts afterSeq patterns o.table o.head frames ↔
      (afterSeq + 1 < u64Size ∨ ∀ row, o.table.get? afterSeq = some row → afterSeq ≤ o.head →
        anyMatches patterns row.channel = false) ∧
      (o.head ≤ afterSeq ∨ low ≤ afterSeq + 1) := by
  obtain ⟨gap, hg', he, shape⟩ := replayFrames_eq hf
  obtain rfl : gap = false := by simpa [hg] using hg'.symm
  have events : ∀ row, row ∈ eventsOf frames ↔ _ := fun row => mem_replayed he
  simp only [Bool.false_eq_true, ↓reduceIte] at events
  have noGap : ∀ fromSeq earliest, .replayGap fromSeq earliest ∉ frames := by
    intro fromSeq earliest hm
    rw [shape] at hm
    exact absurd (mem_replayGap.mp hm).1 (by decide)
  have covers := fun {s : Nat} => covered_iff (s := s) hc events
  constructor
  · intro acc
    refine ⟨?_, ?_⟩
    · by_cases range : afterSeq + 1 < u64Size
      · exact .inl range
      · refine .inr fun row hr le => ?_
        -- The saturated scan starts at the cursor itself.
        by_contra hm
        have mem : row.stamp afterSeq ∈ eventsOf frames :=
          (events _).mpr ⟨hr, by simp only [StoredEvent.stamp]; omega, le, eq_true_of_ne_false hm⟩
        exact absurd (acc.window _ mem).1 (Nat.lt_irrefl _)
    · by_cases window : o.head ≤ afterSeq
      · exact .inl window
      · refine .inr ((covers (by omega) (by omega)).mp ?_)
        obtain h | h | ⟨a, b, hm, _⟩ := acc.covered (afterSeq + 1) (by omega) (by omega)
        · exact .inl h
        · exact .inr h
        · exact absurd hm (noGap a b)
  · rintro ⟨range, retained⟩
    refine ⟨⟨[], by simp, by simp, by simpa using shape⟩, ?_, ?_, ?_⟩
    · exact replayed_ascending hf
    · intro e hm
      obtain ⟨hr, lo, hi, matched⟩ := (events e).mp hm
      refine ⟨?_, hi⟩
      obtain range | none := range
      · omega
      · by_contra le
        have eq : e.seq = afterSeq := by omega
        have := none (stored e) (by rw [← eq]; exact hr) (by omega)
        simp only [stored, matched] at this
        cases this
    · intro s lo hi
      obtain streamed | unmatched := (covers (s := s) (by omega) hi).mpr (by omega)
      · exact .inl streamed
      · exact .inr (.inl unmatched)

theorem Observed.sound_iff_accounts {o : Observed} {frames : List SubServerMsg}
    (range : o.floor ≠ 0 → afterSeq + 1 < u64Size) (hf : o.frames = some frames) :
    o.Sound afterSeq patterns ↔ Accounts afterSeq patterns o.table o.head frames := by
  unfold Observed.Sound
  simp only [hf, Option.some.injEq, exists_eq_left']
  exact and_iff_right range

/-- A replay keeps its promise exactly when the cursor is in range and the rows it
needs are still there. -/
theorem sound_iff {o : Observed} {low last : Nat} (hc : Consistent o low last)
    (hf : o.frames = replayFrames checks afterSeq patterns o.floor o.head o.table)
    (u64 : afterSeq < u64Size) :
    o.Sound afterSeq patterns ↔ o.InRange afterSeq patterns ∧ o.Retained afterSeq := by
  have pos := hc.pos
  have floor := hc.floor
  rw [hc.retained_iff]
  by_cases range : afterSeq + 1 < u64Size
  · have gap : predatesFloor checks afterSeq o.floor =
        some (decide (o.floor ≠ 0 ∧ afterSeq + 1 < o.floor)) := by
      by_cases zero : o.floor = 0 <;> simp [predatesFloor, addU64, range, zero]
    obtain ⟨frames, hframes⟩ : ∃ frames,
        replayFrames checks afterSeq patterns o.floor o.head o.table = some frames := by
      simp [replayFrames, gap]
    rw [Observed.sound_iff_accounts (fun _ => range) (hf.trans hframes)]
    by_cases below : afterSeq + 1 < o.floor
    · have hg : predatesFloor checks afterSeq o.floor = some true := by
        rw [gap]; simp only [Option.some.injEq, decide_eq_true_eq]; omega
      rw [accounts_gap_iff hc hframes hg range below]
      simp only [Observed.InRange, range, true_or, true_and]
      omega
    · have hg : predatesFloor checks afterSeq o.floor = some false := by
        rw [gap]; simp only [Option.some.injEq, decide_eq_false_iff_not]; omega
      rw [accounts_noGap_iff hc hframes hg u64]
      simp only [Observed.InRange, range, true_or, true_and]
      omega
  · by_cases zero : o.floor = 0
    · have hg : predatesFloor checks afterSeq o.floor = some false := by
        simp [predatesFloor, zero]
      obtain ⟨frames, hframes⟩ : ∃ frames,
          replayFrames checks afterSeq patterns o.floor o.head o.table = some frames := by
        simp [replayFrames, hg]
      rw [Observed.sound_iff_accounts (absurd zero) (hf.trans hframes),
        accounts_noGap_iff hc hframes hg u64]
      simp only [Observed.InRange, range, zero, true_and, false_or, and_congr_right_iff]
      omega
    · -- The addition is computed and overflows.
      simp [Observed.Sound, Observed.InRange, range, zero]

/-- In any run, a replay is sound exactly when `after_seq + 1` is in range and the
window is empty or still starts with a retained row: what is lost with the floor at
0, or between the floor's load and the scan, is lost silently. -/
theorem replay_sound_iff (valueLen : StoredEvent → Nat) (checks : Bool) (afterSeq : Nat)
    (patterns : List Pattern) (u64 : afterSeq < u64Size) (s : State) (o : Observed)
    (h : Reaches (Starts valueLen) (step valueLen checks afterSeq patterns) (fun _ _ => True) s)
    (served : s.handler = .served o) :
    o.Sound afterSeq patterns ↔ o.InRange afterSeq patterns ∧ o.Retained afterSeq := by
  have valid : Valid checks afterSeq patterns s :=
    h.invariant _ (fun _ => starts_valid) fun _ _ _ _ hv _ hs => step_valid hv hs
  have loaded := valid.loaded
  rw [served] at loaded
  obtain ⟨⟨low, last, hc⟩, hf⟩ := loaded
  exact sound_iff hc hf u64

/-- One event appended to a new log and kept for a day, then `actions`. -/
def afterAppend (actions : List Action) : List Action :=
  [.log (.commitRows id [⟨"dev.one", "MQ=="⟩] 0), .log .storeHead, .log .raiseFloor] ++ actions

def newLog : State := ⟨⟨⟨.empty, 0, 0, 0, 0, ⟨86400, 2 ^ 30, 1000000⟩⟩, .idle⟩, .loading .registered⟩

theorem newLog_starts : Starts (fun _ => 90) newLog := by
  refine ⟨⟨.empty, 1, 0, ⟨86400, 2 ^ 30, 1000000⟩, none, 0, by decide, ?_, rfl⟩, rfl, rfl⟩
  intro k
  simp only [OrdMap.get?_empty, reduceCtorEq, exists_false, false_iff]
  omega

def loads : List Action := [.loadFloor, .loadHead, .readRows]

/-- Within its window the event is streamed. -/
theorem replay_sound_iff_retained :
    ∃ (s : State) (o : Observed),
      Reaches (Starts fun _ => 90) (step (fun _ => 90) true 0 [⟨">", rfl⟩]) (fun _ _ => True) s ∧
      s.handler = .served o ∧ o.Sound 0 [⟨">", rfl⟩] := by
  have run : (exec (guarded (fun _ _ => True) (step (fun _ => 90) true 0 [⟨">", rfl⟩])) newLog
      (afterAppend loads)).map State.handler = some (.served ⟨1, 1,
        OrdMap.empty.insert 1 ⟨0, 0, "dev.one", "MQ=="⟩,
        some [.ok "subscribe", .event ⟨1, 0, 0, "dev.one", "MQ=="⟩, .replayed 1]⟩) := by decide
  obtain ⟨s, hs, served⟩ := Option.map_eq_some_iff.mp run
  have hr := reaches_of_exec _ (.start newLog_starts) hs
  refine ⟨s, _, hr, served, (replay_sound_iff _ true 0 _ (by decide) s _ hr served).mpr ?_⟩
  exact ⟨.inl (by decide), .inr ⟨1, _, rfl, .inl (by decide)⟩⟩

/-- After a day it is pruned and the floor is 0: neither it nor a gap is streamed. -/
theorem pruned_event_lost_silently :
    ¬ ∀ (valueLen : StoredEvent → Nat) (checks : Bool) (afterSeq : Nat) (patterns : List Pattern),
      afterSeq < u64Size → ∀ (s : State) (o : Observed),
      Reaches (Starts valueLen) (step valueLen checks afterSeq patterns) (fun _ _ => True) s →
      s.handler = .served o → o.Sound afterSeq patterns := by
  intro claim
  have run : (exec (guarded (fun _ _ => True) (step (fun _ => 90) true 0 [⟨">", rfl⟩])) newLog
      (afterAppend ([.log (.commitPrune 86500000), .log .storePruned] ++ loads))).map State.handler =
        some (.served ⟨0, 1, .empty, some [.ok "subscribe", .replayed 1]⟩) := by decide
  obtain ⟨s, hs, served⟩ := Option.map_eq_some_iff.mp run
  have hr := reaches_of_exec _ (.start newLog_starts) hs
  obtain ⟨_, frames, hf, acc⟩ := claim _ true 0 _ (by decide) s _ hr served
  cases hf
  obtain ⟨e, he, _⟩ | ⟨row, hr, _⟩ | ⟨a, b, hm, _⟩ := acc.covered 1 (by decide) (by decide)
  · simp [eventsOf] at he
  · cases hr
  · simp at hm

end Whdr.Replay
