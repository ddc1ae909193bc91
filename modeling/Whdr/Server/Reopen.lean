import Whdr.Lib.Runs
import Whdr.Server.LogSpec

/-! The log over any number of opens of one file. Only the table outlives a close;
the head is rebuilt from the rows that survive. -/
namespace Whdr.DeliveryLog.Reopen

open Runs (Reaches exec guarded reaches_of_exec)

inductive Handle
  | closed (file : Table)
  | opened (log : Shared)
  deriving DecidableEq

def Handle.table : Handle → Table
  | .closed file => file
  | .opened log => log.db

/-- The file, open or not, and every seq a successful append has returned, in order. -/
structure State where
  handle : Handle
  assigned : List Nat
  deriving DecidableEq

inductive Op
  | openLog (limits : Limits) (fault : Option OpenFault) (nowMs : Nat)
  | append (fault : Option AppendFault) (mint : Nat → Uuid) (events : List Event) (tsMs : Nat)
  | prune (fault : Option PruneFault) (nowMs : Nat)
  | close

def created : State := ⟨.closed .empty, []⟩

variable (valueLen : StoredEvent → Nat)

/-- Each operation may fail; a failed open leaves the file closed. -/
def step (s : State) : Op → Option State
  | .openLog limits fault nowMs =>
    match s.handle with
    | .closed file =>
      match DeliveryLog.openLog valueLen limits fault nowMs file with
      | .ok log => some { s with handle := .opened log }
      | .error _ => some s
    | .opened _ => none
  | .append fault mint events tsMs =>
    match s.handle with
    | .opened log =>
      match log.append valueLen fault mint events tsMs with
      | (.ok rows, log) => some ⟨.opened log, s.assigned ++ rows.map StampedEvent.seq⟩
      | (.error _, log) => some { s with handle := .opened log }
    | .closed _ => none
  | .prune fault nowMs =>
    match s.handle with
    | .opened log => some { s with handle := .opened (log.pruneBlocking valueLen fault nowMs).2 }
    | .closed _ => none
  | .close =>
    match s.handle with
    | .opened log => some { s with handle := .closed log.db }
    | .closed _ => none

/-- The head can be rebuilt: a row survives in the file, or no seq was ever assigned. -/
def Recoverable (s : State) : Op → Prop
  | .openLog _ _ _ => s.handle.table.entries ≠ [] ∨ s.assigned = []
  | _ => True

instance (s : State) (op : Op) : Decidable (Recoverable s op) :=
  match op with
  | .openLog _ _ _ =>
    inferInstanceAs (Decidable (s.handle.table.entries ≠ [] ∨ s.assigned = []))
  | .append _ _ _ _ | .prune _ _ | .close => isTrue trivial

/-- `last` is the last seq ever assigned, whether or not its row survives. -/
structure Valid (s : State) (low last : Nat) : Prop where
  bound : low ≤ last + 1
  spans : Spans s.handle.table low last
  head : ∀ log, s.handle = .opened log → log.head = last
  below : ∀ q ∈ s.assigned, q ≤ last
  fresh : s.assigned = [] → last = 0 ∧ low = 1
  ascending : s.assigned.Pairwise (· < ·)

theorem created_valid : Valid created 1 0 where
  bound := Nat.le_refl _
  spans := by
    intro k
    constructor
    · rintro ⟨e, he⟩; simp [created, Handle.table] at he
    · omega
  head := by intro log h; cases h
  below := by intro q hq; cases hq
  fresh := fun _ => ⟨rfl, rfl⟩
  ascending := .nil

variable {valueLen} {s t : State} {low last : Nat}

/-- What an operation leaves behind, by the outcome of the call it makes. A failed append
leaves the log as it was. -/
inductive Steps (valueLen : StoredEvent → Nat) (s : State) : Op → State → Prop
  | opened {limits fault nowMs file log} (closed : s.handle = .closed file)
      (ok : DeliveryLog.openLog valueLen limits fault nowMs file = .ok log) :
      Steps valueLen s (.openLog limits fault nowMs) { s with handle := .opened log }
  | refused {limits fault nowMs} : Steps valueLen s (.openLog limits fault nowMs) s
  | appended {fault mint events tsMs log rows log'} (opened : s.handle = .opened log)
      (ok : log.append valueLen fault mint events tsMs = (.ok rows, log')) :
      Steps valueLen s (.append fault mint events tsMs)
        ⟨.opened log', s.assigned ++ rows.map StampedEvent.seq⟩
  | failed {fault mint events tsMs} : Steps valueLen s (.append fault mint events tsMs) s
  | pruned {fault nowMs log} (opened : s.handle = .opened log) :
      Steps valueLen s (.prune fault nowMs)
        { s with handle := .opened (log.pruneBlocking valueLen fault nowMs).2 }
  | closed {log} (opened : s.handle = .opened log) :
      Steps valueLen s .close { s with handle := .closed log.db }

theorem step_cases {op : Op} (hs : step valueLen s op = some t) : Steps valueLen s op t := by
  cases op with
  | openLog limits fault nowMs =>
    simp only [step] at hs
    split at hs
    · rename_i file closed
      split at hs
      · rename_i log ok
        cases hs
        exact .opened closed ok
      · cases hs
        exact .refused
    · cases hs
  | append fault mint events tsMs =>
    simp only [step] at hs
    split at hs
    · rename_i log opened
      split at hs
      · rename_i rows log' ok
        cases hs
        exact .appended opened ok
      · rename_i f log' err
        cases hs
        rw [append_error err, ← opened]
        exact .failed
    · cases hs
  | prune fault nowMs =>
    simp only [step] at hs
    split at hs
    · rename_i log opened
      cases hs
      exact .pruned opened
    · cases hs
  | close =>
    simp only [step] at hs
    split at hs
    · rename_i log opened
      cases hs
      exact .closed opened
    · cases hs

/-- A successful open keeps the rows from some seq on and recovers the head. -/
theorem openLog_valid (hv : Valid s low last) {file : Table} (hf : s.handle = .closed file)
    (rec : file.entries ≠ [] ∨ s.assigned = []) {limits : Limits} {fault : Option OpenFault}
    {nowMs : Nat} {log : Shared}
    (ho : DeliveryLog.openLog valueLen limits fault nowMs file = .ok log) :
    ∃ low', Valid { s with handle := .opened log } low' last := by
  have spans : Spans file low last := by simpa [hf, Handle.table] using hv.spans
  have head : (recover valueLen limits file).head = last := by
    rw [recover_head_spans valueLen limits spans]
    split
    · rfl
    · rename_i empty
      obtain rows | none := rec
      · obtain ⟨⟨k, e⟩, rest, he⟩ := List.exists_cons_of_ne_nil rows
        have := (spans k).mp ⟨e, (file.get?_eq_some_iff k e).mpr (by simp [he])⟩
        omega
      · exact (hv.fresh none).1.symm
  obtain rfl := openLog_ok ho
  have spans' : Spans (recover valueLen limits file).db low last := by
    rw [recover_db]; exact spans
  obtain ⟨cut, lo, hi, hc⟩ := pruneBlocking_spans valueLen none nowMs spans' hv.bound
  refine ⟨cut, hi, hc, ?_, hv.below, ?_, hv.ascending⟩
  · intro log h
    cases h
    rw [pruneBlocking_head, head]
  · intro none
    obtain ⟨hl, hlow⟩ := hv.fresh none
    exact ⟨hl, by omega⟩

/-- A successful append assigns numbers above every earlier one. -/
theorem append_valid (hv : Valid s low last) {log log' : Shared} (hl : s.handle = .opened log)
    {fault : Option AppendFault} {mint : Nat → Uuid} {events : List Event} {tsMs : Nat}
    {rows : List StampedEvent}
    (ha : log.append valueLen fault mint events tsMs = (.ok rows, log')) :
    Valid ⟨.opened log', s.assigned ++ rows.map StampedEvent.seq⟩ low (last + events.length) := by
  have head := hv.head log hl
  have spans : Spans log.db low last := by simpa [hl, Handle.table] using hv.spans
  obtain ⟨rfl, db, head'⟩ := append_ok ha
  rw [head] at db head'
  simp only [head, stampRows_seq]
  refine ⟨by have := hv.bound; omega, ?_, ?_, ?_, ?_, ?_⟩
  · change Spans log'.db _ _
    rw [db]
    exact insertRows_spans spans hv.bound
  · intro l h
    cases h
    exact head'
  · intro q hq
    obtain old | new := List.mem_append.mp hq
    · have := hv.below q old; omega
    · have := List.mem_range'_1.mp new; omega
  · intro none
    obtain ⟨old, new⟩ := List.append_eq_nil_iff.mp none
    obtain ⟨hlast, hlow⟩ := hv.fresh old
    have empty : events.length = 0 := by simpa using new
    exact ⟨by omega, hlow⟩
  · refine List.pairwise_append.mpr ⟨hv.ascending, List.pairwise_lt_range', ?_⟩
    intro q hq r hr
    have old := hv.below q hq
    have new := List.mem_range'_1.mp hr
    omega

theorem step_valid (hv : Valid s low last) {op : Op} (rec : Recoverable s op)
    (hs : step valueLen s op = some t) : ∃ low' last', Valid t low' last' := by
  cases step_cases hs with
  | @opened limits fault nowMs file log closed ok =>
    have rec' : file.entries ≠ [] ∨ s.assigned = [] := by
      simpa [Recoverable, closed, Handle.table] using rec
    obtain ⟨low', h⟩ := openLog_valid hv closed rec' ok
    exact ⟨low', last, h⟩
  | appended opened ok => exact ⟨low, _, append_valid hv opened ok⟩
  | @pruned fault nowMs log opened =>
    have spans : Spans log.db low last := by simpa [opened, Handle.table] using hv.spans
    obtain ⟨cut, lo, hi, hc⟩ := pruneBlocking_spans valueLen fault nowMs spans hv.bound
    refine ⟨cut, last, hi, hc, ?_, hv.below, ?_, hv.ascending⟩
    · intro l h
      cases h
      rw [pruneBlocking_head, hv.head log opened]
    · intro none
      obtain ⟨hl, hlow⟩ := hv.fresh none
      exact ⟨hl, by omega⟩
  | @closed log opened =>
    have spans : Spans log.db low last := by simpa [opened, Handle.table] using hv.spans
    exact ⟨low, last, hv.bound, spans, nofun, hv.below, hv.fresh, hv.ascending⟩
  | refused | failed => exact ⟨low, last, hv⟩

/-- As long as every open finds a row, or comes before the first append, no seq is
assigned twice and each is above all earlier ones, across closes and prunes. -/
theorem seqs_never_reused (valueLen : StoredEvent → Nat) (s : State)
    (h : Reaches (· = created) (step valueLen) Recoverable s) : s.assigned.Pairwise (· < ·) := by
  have valid : ∃ low last, Valid s low last := by
    refine h.invariant (fun s => ∃ low last, Valid s low last) ?_ ?_
    · rintro _ rfl
      exact ⟨1, 0, created_valid⟩
    · rintro s op t _ ⟨low, last, hv⟩ rec hs
      exact step_valid hv rec hs
  obtain ⟨low, last, hv⟩ := valid
  exact hv.ascending

/-- One event appended, the file closed and reopened, one more event appended. -/
def reopenOps (pruneMs : Nat) : List Op :=
  let limits : Limits := ⟨86400, 2 ^ 30, 1000000⟩
  let event : Event := ⟨"dev.one", "MQ=="⟩
  [.openLog limits none 0, .append none id [event] 1000, .prune none pruneMs, .close,
    .openLog limits none pruneMs, .append none id [event] pruneMs]

/-- The second lifetime continues at 2 when the first row is within its window. -/
theorem seqs_never_reused_reopen :
    ∃ s, Reaches (· = created) (step fun _ => 90) Recoverable s ∧
      s.assigned = [1, 2] ∧ s.assigned.Pairwise (· < ·) := by
  have run : (exec (guarded Recoverable (step fun _ => 90)) created (reopenOps 2000)).map
      State.assigned = some [1, 2] := by decide
  obtain ⟨s, hs, ha⟩ := Option.map_eq_some_iff.mp run
  have hr : Reaches (· = created) (step fun _ => 90) Recoverable s :=
    reaches_of_exec _ (.start rfl) hs
  exact ⟨s, hr, ha, seqs_never_reused _ s hr⟩

/-- The row expires before the close: the second lifetime assigns 1 again. -/
theorem seq_reused_after_expiry :
    ¬ ∀ (valueLen : StoredEvent → Nat) (s : State),
      Reaches (· = created) (step valueLen) (fun _ _ => True) s → s.assigned.Pairwise (· < ·) := by
  intro claim
  have run : (exec (guarded (fun _ _ => True) (step fun _ => 90)) created
      (reopenOps 86500000)).map State.assigned = some [1, 1] := by decide
  obtain ⟨s, hs, ha⟩ := Option.map_eq_some_iff.mp run
  have asc := claim _ s (reaches_of_exec _ (.start rfl) hs)
  rw [ha] at asc
  exact absurd asc (by decide)

end Whdr.DeliveryLog.Reopen
