import Mathlib.Algebra.GroupWithZero.Nat
import Whdr.Lib.OrdMap
import Whdr.Proto.Messages

/-! The durable delivery log (delivery_log.rs): one redb table from seq to stored
event, and counters that live in memory only. A redb transaction is a copy of the
table that replaces it at commit. -/
namespace Whdr.DeliveryLog

structure StoredEvent where
  id : Uuid
  tsMs : Nat
  channel : String
  payloadB64 : String
  deriving DecidableEq, Repr

def StoredEvent.stamp (e : StoredEvent) (seq : Nat) : StampedEvent :=
  ⟨seq, e.id, e.tsMs, e.channel, e.payloadB64⟩

def stored (e : StampedEvent) : StoredEvent := ⟨e.id, e.tsMs, e.channel, e.payloadB64⟩

theorem stamp_stored (e : StampedEvent) : (stored e).stamp e.seq = e := rfl

/-- The `events` table. -/
abbrev Table := OrdMap Nat StoredEvent

structure Limits where
  retentionSecs : Nat
  maxBytes : Nat
  maxEvents : Nat
  deriving DecidableEq, Repr

/-- The open log. A u64 counter is a Nat: it grows by one per event. -/
structure Shared where
  db : Table
  head : Nat
  floor : Nat
  retainedCount : Nat
  retainedBytes : Nat
  limits : Limits
  deriving DecidableEq

section
/- The length of `serde_json::to_vec` of a stored event. -/
variable (valueLen : StoredEvent → Nat)

/-! ## Append -/

/-- The `?` operators of `append_blocking`, all before its first counter store. -/
inductive AppendFault
  | serialize (offset : Nat)
  | beginWrite
  | openTable
  | insert (offset : Nat)
  | commit
  deriving DecidableEq, Repr

/-- A fault at a row is only met when the batch has that row. -/
def AppendFault.reached (rows : Nat) : AppendFault → Bool
  | .serialize offset | .insert offset => offset < rows
  | .beginWrite | .openTable | .commit => true

/-- The stamping loop: `mint` is `Uuid::new_v4` at each offset. -/
def stampRows (base tsMs : Nat) (mint : Nat → Uuid) (events : List Event) : List StampedEvent :=
  events.mapIdx fun offset event =>
    ⟨base + 1 + offset, mint offset, tsMs, event.channel, event.payloadB64⟩

def insertRows (table : Table) (rows : List StampedEvent) : Table :=
  rows.foldl (fun table row => table.insert row.seq (stored row)) table

def Shared.commitRows (s : Shared) (rows : List StampedEvent) : Shared :=
  { s with db := insertRows s.db rows }

def Shared.storeHead (s : Shared) (head : Nat) : Shared := { s with head := head }

/-- `floor.compare_exchange(0, stamped[0].seq)`. -/
def Shared.raiseFloor (s : Shared) (rows : List StampedEvent) : Shared :=
  match rows with
  | [] => s
  | row :: _ => if s.floor = 0 then { s with floor := row.seq } else s

def Shared.addRetained (s : Shared) (rows : List StampedEvent) : Shared :=
  { s with
    retainedCount := s.retainedCount + rows.length
    retainedBytes := s.retainedBytes + (rows.map fun row => valueLen (stored row)).sum }

def Shared.appendBlocking (fault : Option AppendFault) (mint : Nat → Uuid) (events : List Event)
    (tsMs : Nat) (s : Shared) : Except AppendFault (List StampedEvent) × Shared :=
  let base := s.head
  let stamped := stampRows base tsMs mint events
  match fault.filter (AppendFault.reached events.length) with
  | some f => (.error f, s)
  | none =>
    let s := s.commitRows stamped
    let s := s.storeHead (base + stamped.length)
    let s := s.raiseFloor stamped
    (.ok stamped, s.addRetained valueLen stamped)

def Shared.append (fault : Option AppendFault) (mint : Nat → Uuid) (events : List Event)
    (tsMs : Nat) (s : Shared) : Except AppendFault (List StampedEvent) × Shared :=
  if events = [] then (.ok [], s) else s.appendBlocking valueLen fault mint events tsMs

/-! ## Read -/

/-- `read_after`, over the snapshot its read transaction opened. The start of the
range is a saturating u64 addition. -/
def readAfter (table : Table) (afterSeq : Nat) (patterns : Option (List Pattern)) :
    List StampedEvent :=
  (table.startingAt (min (afterSeq + 1) (u64Size - 1))).filterMap fun (seq, e) =>
    if patterns.all (anyMatches · e.channel) then some (e.stamp seq) else none

/-! ## Prune -/

/-- The `?` operators of `prune_blocking`; a row step names how many rows were
removed before it. -/
inductive PruneFault
  | beginWrite
  | openTable
  | front (removed : Nat)
  | remove (removed : Nat)
  | commit
  deriving DecidableEq, Repr

def PruneFault.reached (pruned : Nat) : PruneFault → Bool
  | .front removed => removed ≤ pruned
  | .remove removed => removed < pruned
  | .beginWrite | .openTable | .commit => true

/-- The locals of the prune loop. -/
structure Pruning where
  table : Table
  count : Nat
  bytes : Nat
  pruned : Nat
  deriving DecidableEq

/-- Whether the front row is past the TTL or a cap is exceeded. -/
def shed (limits : Limits) (nowMs : Nat) (front : StoredEvent) (p : Pruning) : Bool :=
  decide ((nowMs - front.tsMs) / 1000 > limits.retentionSecs) ||
    decide (p.count > limits.maxEvents) || decide (p.bytes > limits.maxBytes)

/-- The prune loop. Every pass removes a row, so the row count bounds the passes. -/
def pruneLoop (limits : Limits) (nowMs : Nat) : Nat → Pruning → Pruning
  | 0, p => p
  | passes + 1, p =>
    match p.table.first? with
    | none => p
    | some (seq, front) =>
      if shed limits nowMs front p then
        pruneLoop limits nowMs passes
          ⟨p.table.erase seq, p.count - 1, p.bytes - valueLen front, p.pruned + 1⟩
      else p

def Shared.pruning (s : Shared) (nowMs : Nat) : Pruning :=
  pruneLoop valueLen s.limits nowMs s.db.size ⟨s.db, s.retainedCount, s.retainedBytes, 0⟩

/-- The least retained seq, 0 for an empty table. -/
def lowest (table : Table) : Nat := (table.first?.map Prod.fst).getD 0

def Shared.commitPrune (s : Shared) (p : Pruning) : Shared := { s with db := p.table }

def Shared.storePruned (s : Shared) (p : Pruning) : Shared :=
  { s with retainedCount := p.count, retainedBytes := p.bytes, floor := lowest p.table }

def Shared.pruneBlocking (fault : Option PruneFault) (nowMs : Nat) (s : Shared) :
    Except PruneFault Nat × Shared :=
  let p := s.pruning valueLen nowMs
  match fault.filter (PruneFault.reached p.pruned) with
  | some f => (.error f, s)
  | none => (.ok p.pruned, (s.commitPrune p).storePruned p)

/-! ## Open -/

inductive OpenFault
  | file
  | scan
  | prune (fault : PruneFault)
  deriving DecidableEq, Repr

/-- One item of the recovery scan. -/
def scanRow (s : Shared) (item : Nat × StoredEvent) : Shared :=
  { s with
    floor := if s.floor = 0 then item.1 else s.floor
    head := item.1
    retainedCount := s.retainedCount + 1
    retainedBytes := s.retainedBytes + valueLen item.2 }

/-- The counters of a fresh open come from the rows that survive in the file. -/
def recover (limits : Limits) (table : Table) : Shared :=
  table.entries.foldl (scanRow valueLen) ⟨table, 0, 0, 0, 0, limits⟩

/-- `DeliveryLog::open` on the file whose table is `table`: recover, then one prune
pass. An error leaves no open log and the table as it was. -/
def openLog (limits : Limits) (fault : Option OpenFault) (nowMs : Nat) (table : Table) :
    Except OpenFault Shared :=
  match fault with
  | some .file => .error .file
  | some .scan => .error .scan
  | some (.prune f) =>
    match (recover valueLen limits table).pruneBlocking valueLen (some f) nowMs with
    | (.ok _, s) => .ok s
    | (.error e, _) => .error (.prune e)
  | none => .ok ((recover valueLen limits table).pruneBlocking valueLen none nowMs).2

end

end Whdr.DeliveryLog
