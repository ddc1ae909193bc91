import Whdr.Proto.Ndjson
import Whdr.Server.LogInvariant
import Whdr.Server.RegistryOps
import Whdr.Server.Stamping
import Whdr.Server.SubscriberWs

/-! Frames pushed when an event is fanned out and frames replayed from its row, over any number
of server lifetimes on one file. -/
namespace Whdr.LiveReplay

open DeliveryLog
open Runs (Reaches exec guarded reaches_of_exec)
open SubscriberRegistry (offer withDelivery append_outcome)
open SubscriberWs (replayFrames replayed_row)
open Serde (required once nat struct)
open Wire (toJson uuid ofUuid uuidSize)

/-! ## Rows and frames as text -/

/-- `serde_json::to_vec` of a row's value. -/
def storedJson (e : StoredEvent) : Json :=
  .obj [("id", uuid e.id), ("ts_ms", .num e.tsMs), ("channel", .str e.channel),
    ("payload_b64", .str e.payloadB64)]

def ofStored (fields : Serde.Fields) : Option StoredEvent := do
  let id ← required fields "id" ofUuid
  let tsMs ← required fields "ts_ms" (nat u64Size)
  let channel ← required fields "channel" Serde.string
  let payloadB64 ← required fields "payload_b64" Serde.string
  return ⟨id, tsMs, channel, payloadB64⟩

/-- The table as the file has it, a text a row. -/
def texts (table : Table) : OrdMap Nat (List Char) :=
  table.mapValues fun _ e => (storedJson e).render

/-- `read_after` over the texts of the rows. `none` is an error of `from_slice`. -/
def readAfterText (read : List Char → Option Json) (texts : OrdMap Nat (List Char))
    (afterSeq : Nat) (patterns : List Pattern) : Option (List StampedEvent) := do
  let rows ← (texts.startingAt (min (afterSeq + 1) (u64Size - 1))).mapM fun (seq, text) =>
    ((read text).bind (struct ofStored)).map fun e => e.stamp seq
  return rows.filter fun row => anyMatches patterns row.channel

/-- `serde_json::to_string` of a message, taken from the queue or of a replay. -/
def encode (msg : SubServerMsg) : List Char := (toJson msg).render

/-! ## Lifetimes -/

inductive Server
  | stopped (file : Table)
  | running (r : SubscriberRegistry)

def Server.table : Server → Table
  | .stopped file => file
  | .running r => (r.delivery.map Shared.db).getD .empty

/-- The server and the events fanned out from the log whose rows were not pruned since. -/
structure State where
  server : Server
  persisted : List StampedEvent

inductive Op
  | boot (limits : Limits) (fault : Option OpenFault) (nowMs : Nat)
  | fanout (call : FanoutCall)
  | task (op : RegistryOp)
  | prune (fault : Option PruneFault) (nowMs : Nat)
  | stop

def created : State := ⟨.stopped .empty, []⟩

/-- Forget the events whose rows are gone. -/
def State.keep (s : State) (server : Server) : State :=
  ⟨server, s.persisted.filter fun e => (server.table.get? e.seq).isSome⟩

section
variable (valueLen : StoredEvent → Nat) (textLen : SubServerMsg → Nat)

def step (s : State) : Op → Option State
  | .boot limits fault nowMs =>
    match s.server with
    | .stopped file =>
      match openLog valueLen limits fault nowMs file with
      | .ok log => some (s.keep (.running (withDelivery log)))
      | .error _ => some s
    | .running _ => none
  | .fanout call =>
    match s.server with
    | .running r =>
      let (frames, r) := r.fanout valueLen textLen call
      some ⟨.running r, s.persisted ++ if call.appendFails then [] else frames⟩
    | .stopped _ => none
  | .task op =>
    match s.server with
    | .running r => some { s with server := .running (r.apply op) }
    | .stopped _ => none
  | .prune fault nowMs =>
    match s.server with
    | .running r =>
      match r.delivery with
      | some log =>
        some (s.keep (.running
          { r with delivery := some (log.pruneBlocking valueLen fault nowMs).2 }))
      | none => none
    | .stopped _ => none
  | .stop =>
    match s.server with
    | .running r => some { s with server := .stopped (Server.running r).table }
    | .stopped _ => none

/-- What a fan-out is given are values of the source's types. -/
def Typed (_ : State) : Op → Prop
  | .fanout call => (∀ i < call.events.length, call.mint i < uuidSize) ∧ call.tsMs < u64Size
  | _ => True

instance (s : State) (op : Op) : Decidable (Typed s op) :=
  match op with
  | .fanout call => inferInstanceAs
      (Decidable ((∀ i < call.events.length, call.mint i < uuidSize) ∧ call.tsMs < u64Size))
  | .boot _ _ _ | .task _ | .prune _ _ | .stop => isTrue trivial

/-! ## The table holds what was fanned out -/

/-- The rows of the table are the persisted events, in order, and none is above the head. -/
structure Valid (s : State) : Prop where
  rows : s.server.table.entries = s.persisted.map fun e => (e.seq, stored e)
  open_ : ∀ r, s.server = .running r →
    ∃ log, r.delivery = some log ∧ ∀ e ∈ s.persisted, e.seq ≤ log.head
  typed : ∀ e ∈ s.persisted, e.id < uuidSize ∧ e.tsMs < u64Size

end

variable {valueLen : StoredEvent → Nat} {textLen : SubServerMsg → Nat} {s t : State}

theorem created_valid : Valid created where
  rows := rfl
  open_ := by rintro r ⟨⟩
  typed := by rintro e ⟨⟩

/-- Every binding of the one is a binding of the other. -/
def Within (small large : Table) : Prop := ∀ k v, small.get? k = some v → large.get? k = some v

theorem pruneLoop_within (limits : Limits) (nowMs passes : Nat) (p : Pruning) :
    Within (pruneLoop valueLen limits nowMs passes p).table p.table := by
  induction passes generalizing p with
  | zero => exact fun _ _ bound => bound
  | succ passes ih =>
    unfold pruneLoop
    split
    · exact fun _ _ bound => bound
    · split
      · intro k v bound
        have erased := ih _ k v bound
        rw [OrdMap.get?_erase] at erased
        split at erased
        · cases erased
        · exact erased
      · exact fun _ _ bound => bound

theorem prune_within (fault : Option PruneFault) (nowMs : Nat) (log : Shared) :
    Within (log.pruneBlocking valueLen fault nowMs).2.db log.db := by
  unfold Shared.pruneBlocking
  dsimp only
  split
  · exact fun _ _ bound => bound
  · exact pruneLoop_within _ _ _ _

/-- A table within another one holds the same rows at the keys it has. -/
theorem within_entries {small large : Table} (within : Within small large) :
    small.entries = large.entries.filter fun e => (small.get? e.1).isSome := by
  have same : small = large.retain fun k _ => (small.get? k).isSome := by
    apply OrdMap.ext_get?
    intro k
    apply Option.ext
    intro v
    rw [OrdMap.get?_retain_eq_some]
    constructor
    · intro bound
      exact ⟨within k v bound, by rw [bound]; rfl⟩
    · rintro ⟨bound, isSome⟩
      obtain ⟨w, kept⟩ := Option.isSome_iff_exists.mp isSome
      have also := within k w kept
      rw [bound] at also
      cases also
      exact kept
  exact congrArg OrdMap.entries same

theorem keep_valid (valid : Valid s) {r : SubscriberRegistry} {log : Shared}
    (delivery : r.delivery = some log) (within : Within log.db s.server.table)
    (bounds : ∀ e ∈ s.persisted, e.seq ≤ log.head) : Valid (s.keep (.running r)) where
  rows := by
    have table : (Server.running r).table = log.db := by simp [Server.table, delivery]
    simp only [State.keep, table]
    rw [within_entries within, valid.rows, List.filter_map]
    rfl
  open_ := by
    rintro r' ⟨⟩
    exact ⟨log, delivery, fun e mem => bounds e (List.mem_filter.mp mem).1⟩
  typed := fun e mem => valid.typed e (List.mem_filter.mp mem).1

/-- The recovered head is at least every key. -/
theorem le_recover_head (limits : Limits) {table : Table} {k : Nat} {v : StoredEvent}
    (bound : table.get? k = some v) : k ≤ (recover valueLen limits table).head := by
  rw [recover, scan_head]
  cases last : table.entries.getLast? with
  | none =>
    have nil : table.entries = [] := List.getLast?_eq_none_iff.mp last
    rw [OrdMap.get?_eq_some_iff, nil] at bound
    cases bound
  | some entry =>
    obtain ⟨j, w⟩ := entry
    exact (table.last_eq_some last).2 k v bound

theorem get?_persisted (valid : Valid s) {e : StampedEvent} (mem : e ∈ s.persisted) :
    s.server.table.get? e.seq = some (stored e) := by
  rw [OrdMap.get?_eq_some_iff, valid.rows]
  exact List.mem_map_of_mem mem

theorem boot_valid (valid : Valid s) {file : Table} (isStopped : s.server = .stopped file)
    {limits : Limits} {fault : Option OpenFault} {nowMs : Nat} {log : Shared}
    (opens : openLog valueLen limits fault nowMs file = .ok log) :
    Valid (s.keep (.running (withDelivery log))) := by
  obtain rfl := openLog_ok opens
  refine keep_valid valid rfl ?_ ?_
  · have within := @prune_within valueLen none nowMs (recover valueLen limits file)
    rw [recover_db] at within
    rw [isStopped]
    exact within
  · intro e mem
    rw [pruneBlocking_head]
    have bound := get?_persisted valid mem
    rw [isStopped] at bound
    exact le_recover_head limits bound

/-- What a fan-out leaves in the log: nothing new, or the rows it offers. -/
theorem fanout_outcome (r : SubscriberRegistry) {log : Shared} (delivery : r.delivery = some log)
    (call : FanoutCall) :
    ∃ log', (r.fanout valueLen textLen call).2.delivery = some log' ∧
      ((if call.appendFails then [] else (r.fanout valueLen textLen call).1) = [] ∧ log' = log ∨
      (if call.appendFails then [] else (r.fanout valueLen textLen call).1) =
          stampRows log.head call.tsMs call.mint call.events ∧
        log'.db = insertRows log.db (stampRows log.head call.tsMs call.mint call.events) ∧
        log'.head = log.head + call.events.length) := by
  unfold SubscriberRegistry.fanout
  split
  · exact ⟨log, delivery, .inl ⟨by simp, rfl⟩⟩
  · rename_i nonempty
    dsimp only [SubscriberRegistry.deliver]
    obtain ⟨fails, f, error⟩ | ⟨holds, rows, log', ok⟩ :=
      @append_outcome valueLen log call nonempty
    · refine ⟨log, ?_, .inl ⟨by simp [fails], rfl⟩⟩
      simp only [SubscriberRegistry.stamp, delivery, error, SubscriberRegistry.stampInMemory]
    · obtain ⟨isRows, db, head⟩ := append_ok ok
      refine ⟨log', ?_, .inr ?_⟩
      · simp only [SubscriberRegistry.stamp, delivery, ok]
      · simp only [SubscriberRegistry.stamp, delivery, ok, holds]
        exact ⟨isRows, isRows ▸ db, head⟩

theorem stampRows_typed {base tsMs : Nat} {mint : Nat → Uuid} {events : List Event}
    (ids : ∀ i < events.length, mint i < uuidSize) (time : tsMs < u64Size) {e : StampedEvent}
    (mem : e ∈ stampRows base tsMs mint events) : e.id < uuidSize ∧ e.tsMs < u64Size := by
  rw [stampRows, List.mem_mapIdx] at mem
  obtain ⟨i, inside, rfl⟩ := mem
  exact ⟨ids i inside, time⟩

theorem fanout_valid (valid : Valid s) {r : SubscriberRegistry} (isRunning : s.server = .running r)
    {call : FanoutCall} (typed : Typed s (.fanout call)) :
    Valid ⟨.running (r.fanout valueLen textLen call).2, s.persisted ++
      if call.appendFails then [] else (r.fanout valueLen textLen call).1⟩ := by
  obtain ⟨log, delivery, below⟩ := valid.open_ r isRunning
  have before : log.db.entries = s.persisted.map fun e => (e.seq, stored e) := by
    have rows := valid.rows
    simpa [isRunning, Server.table, delivery] using rows
  obtain ⟨log', after, outcome⟩ := @fanout_outcome valueLen textLen r log delivery call
  obtain ⟨none, rfl⟩ | ⟨rows, db, head⟩ := outcome
  · rw [none, List.append_nil]
    refine ⟨?_, ?_, valid.typed⟩
    · simpa [Server.table, after] using before
    · rintro r' ⟨⟩
      exact ⟨log', after, below⟩
  · rw [rows]
    refine ⟨?_, ?_, ?_⟩
    · have above : ∀ e ∈ log.db.entries,
          ∀ row ∈ stampRows log.head call.tsMs call.mint call.events, e.1 < row.seq := by
        rw [before]
        intro entry mem row memRow
        obtain ⟨e, memE, rfl⟩ := List.mem_map.mp mem
        have old := below e memE
        have new := (stampRows_bounds memRow).1
        dsimp only
        omega
      have entries := insertRows_entries _ (stampRows_ascending _ _ _ _) above
      simp only [Server.table, after, Option.map_some, Option.getD_some, db, entries, before,
        List.map_append]
    · rintro r' ⟨⟩
      refine ⟨log', after, fun e mem => ?_⟩
      rw [head]
      obtain old | new := List.mem_append.mp mem
      · exact Nat.le_trans (below e old) (Nat.le_add_right _ _)
      · exact (stampRows_bounds new).2
    · intro e mem
      obtain old | new := List.mem_append.mp mem
      · exact valid.typed e old
      · exact stampRows_typed typed.1 typed.2 new

theorem step_valid (valid : Valid s) {op : Op} (typed : Typed s op)
    (hs : step valueLen textLen s op = some t) : Valid t := by
  cases op with
  | boot limits fault nowMs =>
    simp only [step] at hs
    split at hs
    · rename_i file isStopped
      split at hs
      · rename_i log opens
        cases hs
        exact boot_valid valid isStopped opens
      · cases hs
        exact valid
    · cases hs
  | fanout call =>
    simp only [step] at hs
    split at hs
    · rename_i r isRunning
      cases hs
      exact fanout_valid valid isRunning typed
    · cases hs
  | task op =>
    simp only [step] at hs
    split at hs
    · rename_i r isRunning
      cases hs
      have same := (r.apply_same op).1
      refine ⟨?_, ?_, valid.typed⟩
      · have rows := valid.rows
        rw [isRunning] at rows
        simpa [Server.table, same] using rows
      · rintro r' ⟨⟩
        rw [same]
        exact valid.open_ r isRunning
    · cases hs
  | prune fault nowMs =>
    simp only [step] at hs
    split at hs
    · rename_i r isRunning
      split at hs
      · rename_i log delivery
        cases hs
        obtain ⟨log', isLog, below⟩ := valid.open_ r isRunning
        rw [delivery] at isLog
        cases isLog
        refine keep_valid valid rfl ?_ ?_
        · have table : s.server.table = log.db := by simp [isRunning, Server.table, delivery]
          rw [table]
          exact prune_within fault nowMs log
        · intro e mem
          rw [pruneBlocking_head]
          exact below e mem
      · cases hs
    · cases hs
  | stop =>
    simp only [step] at hs
    split at hs
    · rename_i r isRunning
      cases hs
      refine ⟨?_, by rintro r' ⟨⟩, valid.typed⟩
      rw [← isRunning]
      exact valid.rows
    · cases hs

/-! ## Reading the rows back -/

section
variable {read : List Char → Option Json}
  (correct : ∀ j : Json, j.Fits → read j.render = some j)

include correct in
theorem read_stored {e : StoredEvent} (id : e.id < uuidSize) (tsMs : e.tsMs < u64Size) :
    (read (storedJson e).render).bind (struct ofStored) = some e := by
  have fits : (storedJson e).Fits := by
    simp [storedJson, uuid, Ndjson.fits_nat tsMs (by decide)]
  rw [correct _ fits, Option.bind_some]
  simp [storedJson, struct, ofStored, required, once, Ndjson.ofUuid_uuid id, Serde.nat_num tsMs]

include correct in
/-- The texts of the rows decode to the rows. -/
theorem decode_rows (entries : List (Nat × StoredEvent))
    (typed : ∀ entry ∈ entries, entry.2.id < uuidSize ∧ entry.2.tsMs < u64Size) :
    (entries.map fun entry => (entry.1, (storedJson entry.2).render)).mapM (fun (seq, text) =>
        ((read text).bind (struct ofStored)).map fun e => e.stamp seq) =
      some (entries.map fun entry => entry.2.stamp entry.1) := by
  induction entries with
  | nil => rfl
  | cons entry rest ih =>
    have first := typed entry List.mem_cons_self
    have others := ih fun e mem => typed e (List.mem_cons_of_mem _ mem)
    rw [List.map_cons, List.mapM_cons, others]
    dsimp only
    rw [read_stored correct first.1 first.2]
    rfl

theorem filter_rows (entries : List (Nat × StoredEvent)) (patterns : List Pattern) :
    (entries.map fun entry => entry.2.stamp entry.1).filter
        (fun row => anyMatches patterns row.channel) =
      entries.filterMap fun (seq, e) =>
        if anyMatches patterns e.channel then some (e.stamp seq) else none := by
  induction entries with
  | nil => rfl
  | cons entry rest ih =>
    rw [List.map_cons, List.filter_cons, List.filterMap_cons, ih]
    by_cases matched : anyMatches patterns entry.2.channel = true
    · simp [matched, StoredEvent.stamp]
    · simp [matched, StoredEvent.stamp]

include correct in
/-- Every row decodes, so the scan over the texts is the scan over the rows. -/
theorem readAfterText_texts (valid : Valid s) (afterSeq : Nat) (patterns : List Pattern) :
    readAfterText read (texts s.server.table) afterSeq patterns =
      some (readAfter s.server.table afterSeq (some patterns)) := by
  have typed : ∀ entry ∈ s.server.table.startingAt (min (afterSeq + 1) (u64Size - 1)),
      entry.2.id < uuidSize ∧ entry.2.tsMs < u64Size := by
    intro entry mem
    have row := (List.mem_filter.mp mem).1
    rw [valid.rows] at row
    obtain ⟨e, memE, rfl⟩ := List.mem_map.mp row
    exact valid.typed e memE
  have start : (texts s.server.table).startingAt (min (afterSeq + 1) (u64Size - 1)) =
      (s.server.table.startingAt (min (afterSeq + 1) (u64Size - 1))).map
        fun entry => (entry.1, (storedJson entry.2).render) := by
    simp only [texts, OrdMap.mapValues, OrdMap.startingAt, List.filter_map]
    rfl
  rw [readAfterText, start, decode_rows correct _ typed]
  simp only [Option.bind_eq_bind, Option.bind_some, pure, filter_rows, readAfter, Option.all_some]

end

/-! ## Live and replayed -/

/-- A row of the table is a persisted event. -/
theorem mem_persisted (valid : Valid s) {row : StampedEvent}
    (bound : s.server.table.get? row.seq = some (stored row)) : row ∈ s.persisted := by
  rw [OrdMap.get?_eq_some_iff, valid.rows] at bound
  obtain ⟨e, memE, eq⟩ := List.mem_map.mp bound
  obtain ⟨seq, same⟩ := Prod.mk.inj eq
  have isRow : e = row := by
    rw [← stamp_stored e, ← stamp_stored row, same, seq]
  exact isRow ▸ memE

theorem persisted_unique (valid : Valid s) {e row : StampedEvent} (memE : e ∈ s.persisted)
    (memRow : row ∈ s.persisted) (seq : row.seq = e.seq) : row = e := by
  have one := get?_persisted valid memRow
  rw [seq, get?_persisted valid memE] at one
  rw [← stamp_stored row, ← stamp_stored e, Option.some.inj one, seq]

/-- The row was read from the log, or it is the event of a replayed frame. -/
def Replayed (table : Table) (afterSeq : Nat) (patterns : List Pattern) (rows : List StampedEvent)
    (row : StampedEvent) : Prop :=
  row ∈ rows ∨ ∃ checks floor head frames,
    replayFrames checks afterSeq patterns floor head table = some frames ∧ .event row ∈ frames

/-- After any lifetimes, the log read from below a persisted event's seq returns the event
exactly if a fan-out pushes it to a connection with the same patterns, what is read or replayed
at that seq has the text of the message pushed, and the seqs ascend. -/
theorem live_replay_agree (read : List Char → Option Json)
    (correct : ∀ j : Json, j.Fits → read j.render = some j) (valueLen : StoredEvent → Nat)
    (textLen : SubServerMsg → Nat) (s : State)
    (reached : Reaches (· = created) (step valueLen textLen) Typed s) (patterns : List Pattern)
    (e : StampedEvent) (persisted : e ∈ s.persisted) (afterSeq : Nat) (below : afterSeq < e.seq) :
    ∃ rows live, readAfterText read (texts s.server.table) afterSeq patterns = some rows ∧
      rows.Pairwise (fun a b => a.seq < b.seq) ∧
      (∀ sub : Subscriber, sub.patterns = patterns → offer textLen sub e =
        if e ∈ rows then { sub with queue := sub.queue.pushEvent textLen live } else sub) ∧
      ∀ row, Replayed s.server.table afterSeq patterns rows row → row.seq = e.seq →
        encode (.event row) = encode live := by
  have valid : Valid s := by
    refine reached.invariant Valid ?_ ?_
    · rintro _ rfl
      exact created_valid
    · intro s op t _ valid typed hs
      exact step_valid valid typed hs
  have returned : e ∈ readAfter s.server.table afterSeq (some patterns) ↔
      anyMatches patterns e.channel = true := by
    rw [mem_readAfter]
    refine ⟨fun found => found.2.2, fun matched => ⟨get?_persisted valid persisted, ?_, matched⟩⟩
    exact Nat.le_trans (Nat.min_le_left _ _) below
  refine ⟨_, .event e, readAfterText_texts correct valid afterSeq patterns,
    readAfter_ascending _ _ _, ?_, ?_⟩
  · rintro sub rfl
    simp only [offer, returned]
  · intro row replayed seq
    have bound : s.server.table.get? row.seq = some (stored row) := by
      obtain mem | ⟨checks, floor, head, frames, isReplay, mem⟩ := replayed
      · exact (mem_readAfter.mp mem).1
      · exact (replayed_row isReplay (mem_eventsOf.mpr mem)).1
    rw [persisted_unique valid persisted (mem_persisted valid bound) seq]

/-- One event in the first lifetime, read in the second. -/
def rebootOps : List Op :=
  let limits : Limits := ⟨86400, 2 ^ 30, 1000000⟩
  [.boot limits none 0, .fanout ⟨[⟨"dev.one", "MQ=="⟩], id, 1000, none, 0⟩, .stop,
    .boot limits none 2000]

theorem live_replay_agree_rebooted :
    ∃ s e, Reaches (· = created) (step (fun _ => 90) fun _ => 90) Typed s ∧ e ∈ s.persisted ∧
      ∃ rows live,
        readAfterText Json.read (texts s.server.table) 0 [⟨"dev.>", by decide⟩] = some rows ∧
        rows.Pairwise (fun a b => a.seq < b.seq) ∧
        (∀ sub : Subscriber, sub.patterns = [⟨"dev.>", by decide⟩] → offer (fun _ => 90) sub e =
          if e ∈ rows then { sub with queue := sub.queue.pushEvent (fun _ => 90) live }
          else sub) ∧
        ∀ row, Replayed s.server.table 0 [⟨"dev.>", by decide⟩] rows row → row.seq = e.seq →
          encode (.event row) = encode live := by
  have run : (exec (guarded Typed (step (fun _ => 90) fun _ => 90)) created rebootOps).map
      State.persisted = some [⟨1, 0, 1000, "dev.one", "MQ=="⟩] := by decide
  obtain ⟨s, hs, held⟩ := Option.map_eq_some_iff.mp run
  have reached : Reaches (· = created) (step (fun _ => 90) fun _ => 90) Typed s :=
    reaches_of_exec _ (.start rfl) hs
  have mem : (⟨1, 0, 1000, "dev.one", "MQ=="⟩ : StampedEvent) ∈ s.persisted := by
    rw [held]
    exact List.mem_cons_self
  exact ⟨s, _, reached, mem, live_replay_agree Json.read Json.read_render _ _ s reached _ _ mem 0
    (by decide)⟩

end Whdr.LiveReplay
