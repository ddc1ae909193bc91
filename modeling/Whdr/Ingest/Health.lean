import Whdr.Ingest.Pipes

/-! A daemon whose extensions are up: each step of its tasks and of the children leaves less to
do, and leaves the extensions up. -/
namespace Whdr.Ingest

open Ndjson (decodeLine decodeLine_render)
open Wire (toJson uuidSize)

variable {setup : Setup} {s t : State} {n : Nat} {q q' : Request} {g h reqId : Uuid} {l l' : Link}

/-! ## A daemon at work -/

/-- The steps of the daemon's tasks and of the children. The rest comes from outside: requests
and clients that go away, timeouts, lifecycle and reloads. -/
def Inner : Action → Prop
  | .request _ .timeout | .request _ .sendFails | .request _ .cancel => False
  | .request _ _ => True
  | .link _ .shutdown | .link _ .clear => False
  | .link _ _ => True
  | _ => False

/-- The generation is in the table, its reader goes on, and it was never told to shut down. -/
structure Working (tables : Tables) (g : Uuid) (l : Link) : Prop where
  reading : l.reading = true
  listed : tables.extensions.get? l.handle.id = some g
  queue : SrvMsg.shutdown ∉ l.queue
  stdin : (toJson SrvMsg.shutdown).render ∉ l.stdin

def Up (s : State) (g : Uuid) : Prop := ∃ l, s.links.get? g = some l ∧ Working s.tables g l

/-- The request is reserved with the generation, or on its way to it by tables that were in
force. -/
def Bound (s : State) (q : Request) (g : Uuid) : Prop :=
  (∃ reqId, q.ticket = some (g, reqId)) ∨ q.stage.early = true ∧ Routed s q.http g

/-- The handler replies to the request, under any id and with the secret of any configuration that
was in force. -/
def RepliesTo (setup : Setup) (s : State) (child : Kit) (l : Link) (http : HttpRequest) : Prop :=
  ∀ reqId, ∀ config ∈ s.configs, (child.handle (.dispatch (dispatchMsg setup.http setup.b64Encode
    http reqId (config.secrets.get? l.handle.id)))).isOk = true

/-- All children are of the kit, and those that are up reply to the requests there are for them. -/
structure Steady (setup : Setup) (s : State) : Prop where
  kits : AllKit setup
  replies : ∀ g child l n q, setup.programs g = .kit child → s.links.get? g = some l →
    Working s.tables g l → s.requests.get? n = some q → Bound s q g →
    RepliesTo setup s child l q.http

/-- The message was or will be sent, and its result is to come. -/
def Stage.awaiting : Stage → Bool
  | .sending _ | .waiting => true
  | _ => false

/-- The generation that has to answer the request. -/
def Request.generation (q : Request) : Option Uuid :=
  match q.stage with
  | .handled g | .cloned g _ => some g
  | .sending _ | .waiting => q.ticket.map Prod.fst
  | _ => none

/-- Every generation that is listed or owes an answer is up, no reservation was dropped under
its request, and the ids are not used up. -/
structure Healthy (s : State) : Prop where
  listed : ∀ extId g, s.tables.extensions.get? extId = some g → Up s g
  owing : ∀ n q g, s.requests.get? n = some q → q.generation = some g → Up s g
  awaited : ∀ n q, s.requests.get? n = some q → q.stage.awaiting = true → q.slot = none →
    senderAlive s n q = true
  ids : s.requests.size < uuidSize

/-! ## What is left to do -/

def Stage.work : Stage → Nat
  | .arrived => 12
  | .keyed _ => 11
  | .routed _ => 10
  | .handled _ => 9
  | .cloned _ _ => 8
  | .sending _ => 7
  | .waiting => 2
  | .timedOut | .fanning _ => 1
  | .answered _ | .dropped => 0

def Link.work (l : Link) : Nat :=
  4 * l.queue.length + 3 * (l.stdin.length - l.stdout.length) +
    2 * (l.stdout.length - l.linesRead) + if l.reader.isSome then 1 else 0

def State.work (s : State) : Nat :=
  s.requests.total (fun q => q.stage.work) + s.links.total Link.work

theorem work_put {p : Request} (found : s.requests.get? n = some q) :
    (s.put n p).work + q.stage.work = s.work + p.stage.work := by
  have sum := OrdMap.total_insert_old (fun q => q.stage.work) s.requests p found
  simp only [State.work, State.put]
  omega

theorem work_putLink {k : Link} (link : s.links.get? g = some l) :
    (s.putLink g k).work + l.work = s.work + k.work := by
  have sum := OrdMap.total_insert_old Link.work s.links k link
  simp only [State.work, State.putLink]
  omega

theorem put_work {p : Request} (found : s.requests.get? n = some q)
    (less : p.stage.work < q.stage.work) : (s.put n p).work < s.work := by
  have sum := work_put (p := p) found
  omega

theorem answer_work {response : Response} (found : s.requests.get? n = some q)
    (some : 0 < q.stage.work) : (answer s n q response).work < s.work :=
  put_work found some

theorem work_release (s : State) (q : Request) : (release s q).work = s.work := by
  unfold release
  split
  · rfl
  · rename_i g reqId _
    split
    · rfl
    · rename_i l link
      have sum := work_putLink (k := { l with window := (l.window.remove reqId).2 }) link
      have same : Link.work { l with window := (l.window.remove reqId).2 } = l.work := rfl
      omega

theorem Stage.work_early {stage : Stage} (early : stage.early = true) : 0 < stage.work := by
  cases stage with
  | arrived | keyed | routed | handled | cloned => exact Nat.succ_pos _
  | sending | waiting | timedOut | fanning | answered | dropped => cases early

theorem Forward.work {http : HttpRequest} {stage next : Stage}
    (ahead : Forward s http stage next) :
    next.work < stage.work := by
  cases ahead with
  | key | route | handle | clone => exact Nat.lt_succ_self _

theorem Forward.early {http : HttpRequest} {stage next : Stage}
    (ahead : Forward s http stage next) :
    stage.early = true ∧ next.early = true := by
  cases ahead with
  | key | route | handle | clone => exact ⟨rfl, rfl⟩

/-- A handler that goes on by itself has less to do. -/
theorem advance_work {a : RequestAction} (inner : Inner (.request n a))
    (found : s.requests.get? n = some q) (hs : advance setup s n q a = some t) : t.work < s.work := by
  cases advance_moves hs with
  | decline _ response early => exact answer_work found (Stage.work_early early)
  | forward _ stage ahead => exact put_work found ahead.work
  | reserve g reqId config l window stage _ _ link =>
    have link_sum := work_putLink (k := { l with window := window.insert reqId n }) link
    have same : Link.work { l with window := window.insert reqId n } = l.work := rfl
    have less := put_work (s := s.putLink g { l with window := window.insert reqId n })
      (p := { q with
        stage := .sending (.dispatch (dispatchMsg setup.http setup.b64Encode q.http reqId
          (config.secrets.get? l.handle.id))),
        ticket := some (g, reqId) }) found (by rw [stage]; exact Nat.lt_succ_self _)
    omega
  | send g reqId l msg stage ticket link =>
    -- what the request has less, the channel has not quite more
    have link_sum := work_putLink (k := { l with queue := l.queue ++ [msg] }) link
    have more : Link.work { l with queue := l.queue ++ [msg] } = l.work + 4 := by
      simp only [Link.work, List.length_append, List.length_singleton]
      omega
    have sum := work_put (s := s.putLink g { l with queue := l.queue ++ [msg] })
      (p := { q with stage := .waiting }) found
    rw [stage] at sum
    simp only [Stage.work] at sum
    omega
  | receive g reqId l result events violations stage slot ticket link =>
    have link_sum := work_putLink (k := { l with namespaceViolations := violations }) link
    have same : Link.work { l with namespaceViolations := violations } = l.work := rfl
    have less := put_work (s := s.putLink g { l with namespaceViolations := violations })
      (p := { q with stage := .fanning result.http, slot := none }) found
      (by rw [stage]; exact Nat.lt_succ_self _)
    change (State.put (s.putLink g _) n _).work < s.work
    omega
  | removePending stage =>
    have found' : (release s q).requests.get? n = some q :=
      (congrArg (·.get? n) (release_requests s q)).trans found
    have less : (answer (release s q) n q (errorResponse .timeout)).work < (release s q).work :=
      answer_work found' (by rw [stage]; exact Nat.succ_pos _)
    rwa [work_release] at less
  | dead stage => exact answer_work found (by rw [stage]; exact Nat.succ_pos _)
  | respond reply stage => exact answer_work found (by rw [stage]; exact Nat.succ_pos _)
  | sendFails | timeout | cancelReserved | cancel => exact inner.elim

/-- A line read leaves the pipes as they are. -/
theorem readLine_pipes (setup : Setup) (s : State) (g : Uuid) (l : Link) (line : Line) :
    (readLine setup s g l line).1.queue = l.queue ∧
      (readLine setup s g l line).1.stdin = l.stdin ∧
      (readLine setup s g l line).1.stdout = l.stdout ∧
      (readLine setup s g l line).1.linesRead = l.linesRead + 1 := by
  unfold readLine
  dsimp only
  split
  · exact ⟨rfl, rfl, rfl, rfl⟩
  · split
    · split <;> exact ⟨rfl, rfl, rfl, rfl⟩
    all_goals exact ⟨rfl, rfl, rfl, rfl⟩

theorem sendResult_work {result : ExtResult} (link : s.links.get? g = some l)
    (reader : l.reader = some (n, result)) : (sendResult s g l n result).work < s.work := by
  have sum := work_putLink (k := { l with reader := none }) link
  have less : Link.work { l with reader := none } + 1 = l.work := by
    simp [Link.work, reader]
  unfold sendResult
  dsimp only
  split
  · rename_i q found
    split
    · have same := work_put (p := { q with slot := some result }) found
      dsimp only at same
      omega
    · omega
  · omega

/-- So has a task or a child. -/
theorem runLink_work {a : LinkAction} (inner : Inner (.link g a)) (valid : Valid setup s)
    (flows : Flows s) (kits : AllKit setup) (link : s.links.get? g = some l)
    (hs : runLink setup s g l a = some t) : t.work < s.work := by
  obtain ⟨child, isKit⟩ := kits g
  have printed := kit_printed valid link isKit
  have read := (flows g l link).read
  have lowers : ∀ l' : Link, l'.work < l.work → (s.putLink g l').work < s.work := by
    intro l' less
    have sum := work_putLink (k := l') link
    omega
  cases a with
  | write =>
    simp only [runLink] at hs
    split at hs
    · cases hs
    · rename_i msg rest queue
      cases hs
      apply lowers
      simp only [Link.work, queue, List.length_cons, List.length_append, List.length_nil]
      omega
  | print line =>
    simp only [runLink] at hs
    split at hs
    · rename_i prints
      cases hs
      apply lowers
      -- the child has no more results than it was sent lines
      rw [isKit, Program.prints] at prints
      have bound := (List.isPrefixOf_iff_prefix.mp prints).length_le
      have all := serve_length_le setup.read child.handle l.stdin
      simp only [List.length_append, List.length_singleton, List.length_map] at bound
      simp only [Link.work, List.length_append, List.length_singleton]
      omega
    · cases hs
  | readLine => 
    simp only [runLink] at hs
    split at hs
    · rename_i ready
      split at hs
      · cases hs
      · rename_i line at'
        cases hs
        have short := (List.getElem?_eq_some_iff.mp at').1
        simp only [Bool.and_eq_true, Option.isNone_iff_eq_none] at ready
        obtain ⟨queue, stdin, stdout, linesRead⟩ := readLine_pipes setup s g l line
        have one : (if (readLine setup s g l line).1.reader.isSome then 1 else 0) ≤ 1 := by
          split <;> omega
        apply lowers
        simp only [Link.work, queue, stdin, stdout, linesRead, ready.2, Option.isSome_none]
        simp only [Bool.false_eq_true, if_false]
        omega
    · cases hs
  | sendResult =>
    simp only [runLink] at hs
    split at hs
    · cases hs
    · rename_i n result reader
      cases hs
      exact sendResult_work link reader
  | shutdown | clear => exact inner.elim

/-! ## The daemon stays at work -/

/-- The sender of the request's oneshot is here. -/
def Reserves (l : Link) (reqId : Uuid) (n : Nat) : Prop :=
  l.window.pending.get? reqId = some n ∨ ∃ result, l.reader = some (n, result)

theorem senderAlive_iff : senderAlive s n q = true ↔
    ∃ g reqId l, q.ticket = some (g, reqId) ∧ s.links.get? g = some l ∧ Reserves l reqId n := by
  unfold senderAlive
  split
  · rename_i noTicket
    simp [noTicket]
  · rename_i g reqId ticket
    split
    · rename_i gone
      simp [ticket, gone]
    · rename_i l link
      cases reader : l.reader with
      | none => simp [ticket, link, Reserves, reader]
      | some held => simp [ticket, link, Reserves, reader, Prod.ext_iff]

theorem Healthy.of_eq (healthy : Healthy s) (tables : t.tables = s.tables) (links : t.links = s.links)
    (requests : t.requests = s.requests) : Healthy t := by
  have up : ∀ g, Up s g → Up t g := by
    rintro g ⟨l, link, working⟩
    exact ⟨l, links ▸ link, tables ▸ working⟩
  refine ⟨fun extId g listed => up g (healthy.listed extId g (tables ▸ listed)),
    fun n q g found owes => up g (healthy.owing n q g (requests ▸ found) owes),
    fun n q found awaits empty => ?_, requests ▸ healthy.ids⟩
  have alive := healthy.awaited n q (requests ▸ found) awaits empty
  rw [senderAlive_iff] at alive ⊢
  rwa [links]

theorem Healthy.put (healthy : Healthy s) (found : s.requests.get? n = some q)
    (owing : ∀ g, q'.generation = some g → Up s g)
    (awaited : q'.stage.awaiting = true → q'.slot = none → senderAlive s n q' = true) :
    Healthy (s.put n q') := by
  refine ⟨healthy.listed, fun m p g foundP owes => ?_, fun m p foundP awaits empty => ?_, ?_⟩
  · rw [State.put, OrdMap.get?_insert] at foundP
    split at foundP
    · cases foundP
      exact owing g owes
    · exact healthy.owing m p g foundP owes
  · rw [State.put, OrdMap.get?_insert] at foundP
    split at foundP
    · rename_i same
      cases foundP
      subst same
      exact awaited awaits empty
    · exact healthy.awaited m p foundP awaits empty
  · have same := s.requests.size_insert_old q' found
    simp only [State.put, same]
    exact healthy.ids

/-- A generation goes on, and what it holds for a waiting request it still holds. -/
theorem Healthy.putLink (healthy : Healthy s) (link : s.links.get? g = some l)
    (working : Working s.tables g l → Working s.tables g l')
    (holds : ∀ n q reqId, s.requests.get? n = some q → q.ticket = some (g, reqId) →
      q.stage.awaiting = true → q.slot = none → Reserves l reqId n → Reserves l' reqId n) :
    Healthy (s.putLink g l') := by
  have up : ∀ h, Up s h → Up (s.putLink g l') h := by
    rintro h ⟨k, found, works⟩
    by_cases same : h = g
    · subst same
      rw [link] at found
      cases found
      exact ⟨l', s.links.get?_insert_self h l', working works⟩
    · exact ⟨k, (s.links.get?_insert_ne l' same).trans found, works⟩
  refine ⟨fun extId h listed => up h (healthy.listed extId h listed),
    fun n q h found owes => up h (healthy.owing n q h found owes),
    fun n q found awaits empty => ?_, healthy.ids⟩
  obtain ⟨h, reqId, k, ticket, found', reserves⟩ :=
    senderAlive_iff.mp (healthy.awaited n q found awaits empty)
  rw [senderAlive_iff]
  by_cases same : h = g
  · subst same
    rw [link] at found'
    cases found'
    exact ⟨h, reqId, l', ticket, s.links.get?_insert_self h l',
      holds n q reqId found ticket awaits empty reserves⟩
  · exact ⟨h, reqId, k, ticket, (s.links.get?_insert_ne l' same).trans found', reserves⟩

/-- A request that owes nothing any more gives its reservation up. -/
theorem Healthy.release (healthy : Healthy s) (valid : Valid setup s)
    (found : s.requests.get? n = some q) (over' : q.stage.awaiting = false) :
    Healthy (release s q) := by
  unfold Ingest.release
  split
  · exact healthy
  · rename_i g reqId ticket
    split
    · exact healthy
    · rename_i l link
      apply healthy.putLink link
      · rintro ⟨reading, listed, queue, stdin⟩
        exact ⟨reading, listed, queue, stdin⟩
      · intro m p r foundP ticketP awaits empty reserves
        obtain entry | reader := reserves
        · -- ids are not shared
          have apart : r ≠ reqId := by
            rintro rfl
            obtain rfl := valid.distinct n m q p g g r found foundP ticket ticketP
            rw [found] at foundP
            cases foundP
            rw [over'] at awaits
            cases awaits
          refine .inl ?_
          rw [DispatchWindow.remove_pending, OrdMap.get?_erase, if_neg apart]
          exact entry
        · exact .inr reader

theorem Healthy.answer {response : Response} (healthy : Healthy s)
    (found : s.requests.get? n = some q) : Healthy (answer s n q response) := by
  apply healthy.put found
  · rintro g ⟨⟩
  · rintro ⟨⟩

theorem Healthy.forward {stage : Stage} (healthy : Healthy s)
    (found : s.requests.get? n = some q) (ahead : Forward s q.http q.stage stage) :
    Healthy (s.put n { q with stage := stage }) := by
  generalize old : q.stage = before at ahead
  cases ahead with
  | key | route =>
    apply healthy.put found
    · rintro g ⟨⟩
    · rintro ⟨⟩
  | handle extId g listed =>
    apply healthy.put found
    · rintro h ⟨⟩
      exact healthy.listed extId g listed
    · rintro ⟨⟩
  | clone g =>
    apply healthy.put found
    · rintro h ⟨⟩
      exact healthy.owing n q g found (by rw [Request.generation, old])
    · rintro ⟨⟩

/-- The ids of the other requests are other ids. -/
theorem unused_ne (unused : s.unused reqId = true) (found : s.requests.get? n = some q)
    (ticket : q.ticket = some (g, h)) : h ≠ reqId := by
  have inside : q ∈ s.requests.values := (s.requests.mem_values_iff q).mpr ⟨n, found⟩
  have differs := List.all_eq_true.mp unused q inside
  rw [ticket] at differs
  simpa using differs

theorem advance_healthy {a : RequestAction} (inner : Inner (.request n a)) (healthy : Healthy s)
    (valid : Valid setup s) (found : s.requests.get? n = some q)
    (hs : advance setup s n q a = some t) : Healthy t := by
  cases advance_moves hs with
  | decline => exact healthy.answer found
  | forward _ stage ahead => exact healthy.forward found ahead
  | reserve g reqId config l window stage unused small link room =>
    have pending := reserveInFlight_pending room
    have next : Healthy (s.putLink g { l with window := window.insert reqId n }) := by
      apply healthy.putLink link
      · rintro ⟨reading, listed, queue, stdin⟩
        exact ⟨reading, listed, queue, stdin⟩
      · intro m p r foundP ticket awaits empty reserves
        obtain entry | reader := reserves
        · refine .inl ?_
          rw [DispatchWindow.insert_pending, pending,
            OrdMap.get?_insert_ne _ _ (unused_ne unused foundP ticket)]
          exact entry
        · exact .inr reader
    apply next.put found
    · rintro h ⟨⟩
      apply next.owing n q g found
      rw [Request.generation, stage]
    · intro awaits empty
      rw [senderAlive_iff]
      refine ⟨g, reqId, _, rfl, s.links.get?_insert_self g _, .inl ?_⟩
      rw [DispatchWindow.insert_pending, OrdMap.get?_insert_self]
  | send g reqId l msg stage ticket link room =>
    have told := (valid.requests n q found).told
    simp only [Told, stage] at told
    obtain ⟨_, _, _, _, _, _, _, _, eq⟩ := told
    have next : Healthy (s.putLink g { l with queue := l.queue ++ [msg] }) := by
      apply healthy.putLink link
      · rintro ⟨reading, listed, queue, stdin⟩
        refine ⟨reading, listed, fun mem => ?_, stdin⟩
        obtain mem | mem := List.mem_append.mp mem
        · exact queue mem
        · rw [← List.mem_singleton.mp mem] at eq
          cases eq
      · exact fun _ _ _ _ _ _ _ reserves => reserves
    apply next.put found
    · intro h owes
      apply next.owing n q h found
      rwa [Request.generation, stage]
    · intro awaits empty
      exact next.awaited n q found (by rw [stage]; rfl) empty
  | receive g reqId l result events violations stage slot ticket link =>
    have next : Healthy (s.putLink g { l with namespaceViolations := violations }) := by
      apply healthy.putLink link
      · rintro ⟨reading, listed, queue, stdin⟩
        exact ⟨reading, listed, queue, stdin⟩
      · exact fun _ _ _ _ _ _ _ reserves => reserves
    have put : Healthy ((s.putLink g { l with namespaceViolations := violations }).put n
        { q with stage := .fanning result.http, slot := none }) := by
      apply next.put found
      · rintro g ⟨⟩
      · rintro ⟨⟩
    exact put.of_eq rfl rfl rfl
  | removePending stage =>
    have next := healthy.release valid found (by rw [stage]; rfl)
    exact next.answer ((congrArg (·.get? n) (release_requests s q)).trans found)
  | dead => exact healthy.answer found
  | respond => exact healthy.answer found
  | sendFails | timeout | cancelReserved | cancel => exact inner.elim

/-- The reader of a working generation goes on, and keeps the sender of what it read. -/
theorem readLine_healthy {child : Kit} {line : Line} (healthy : Healthy s) (valid : Valid setup s)
    (correct : ∀ j : Json, j.Fits → setup.read j.render = some j)
    (link : s.links.get? g = some l) (isKit : setup.programs g = .kit child)
    (idle : l.reader = none) (at' : l.stdout[l.linesRead]? = some line) :
    Healthy (s.putLink g (readLine setup s g l line).1) := by
  obtain ⟨_, m, reply, events, _, _, back⟩ := kit_next valid correct link isKit at'
  apply healthy.putLink link
  · rintro ⟨reading, listed, queue, stdin⟩
    unfold readLine
    dsimp only
    rw [if_neg (not_not.mpr listed), back]
    dsimp only
    split <;> exact ⟨reading, listed, queue, stdin⟩
  · intro n q r found ticket awaits empty reserves
    obtain entry | ⟨result, reader⟩ := reserves
    · unfold readLine
      dsimp only
      split
      · exact .inl entry
      · rw [back]
        dsimp only
        by_cases same : r = m.reqId
        · -- this is its result
          subst same
          have removed : (l.window.remove m.reqId).1 = some n :=
            DispatchWindow.remove_found.trans entry
          split
          · rename_i i window eq
            rw [eq] at removed
            cases removed
            exact .inr ⟨_, rfl⟩
          · rename_i window eq
            rw [eq] at removed
            cases removed
        · have stays : (l.window.remove m.reqId).2.pending.get? r = some n := by
            rw [DispatchWindow.remove_pending, OrdMap.get?_erase, if_neg same]
            exact entry
          split
          · rename_i eq
            rw [eq] at stays
            exact .inl stays
          · rename_i eq
            rw [eq] at stays
            exact .inl stays
    · rw [idle] at reader
      cases reader

theorem Stage.reserved_of_awaiting {stage : Stage} (awaits : stage.awaiting = true) :
    stage.reserved = true := by
  cases stage with
  | sending | waiting => rfl
  | arrived | keyed | routed | handled | cloned | timedOut | fanning | answered | dropped =>
    cases awaits

theorem sendResult_healthy {result : ExtResult} (healthy : Healthy s)
    (link : s.links.get? g = some l) (reader : l.reader = some (n, result)) :
    Healthy (sendResult s g l n result) := by
  have working : Working s.tables g l → Working s.tables g { l with reader := none } := by
    rintro ⟨reading, listed, queue, stdin⟩
    exact ⟨reading, listed, queue, stdin⟩
  -- only the request whose result this is loses its sender
  have others : ∀ m r, m ≠ n → Reserves l r m → Reserves { l with reader := none } r m := by
    rintro m r apart (entry | ⟨_, held⟩)
    · exact .inl entry
    · rw [reader] at held
      cases held
      exact absurd rfl apart
  unfold sendResult
  dsimp only
  split
  · rename_i q found
    split
    · have first : Healthy (s.put n { q with slot := some result }) := by
        apply healthy.put found
        · exact fun h owes => healthy.owing n q h found owes
        · rintro _ ⟨⟩
      have next : Healthy ((s.put n { q with slot := some result }).putLink g
          { l with reader := none }) := by
        apply first.putLink link working
        intro m p r foundP _ _ empty reserves
        apply others m r _ reserves
        rintro rfl
        rw [State.put, OrdMap.get?_insert_self] at foundP
        cases foundP
        cases empty
      exact next.of_eq rfl rfl rfl
    · rename_i free
      apply healthy.putLink link working
      intro m p r foundP _ awaits _ reserves
      apply others m r _ reserves
      rintro rfl
      have same : s.requests.get? m = some q := found
      rw [same] at foundP
      cases foundP
      exact free (Stage.reserved_of_awaiting awaits)
  · rename_i gone
    apply healthy.putLink link working
    intro m p r foundP _ _ _ reserves
    apply others m r _ reserves
    rintro rfl
    have none : s.requests.get? m = none := gone
    rw [none] at foundP
    cases foundP

theorem runLink_healthy {a : LinkAction} (inner : Inner (.link g a)) (healthy : Healthy s)
    (valid : Valid setup s) (correct : ∀ j : Json, j.Fits → setup.read j.render = some j)
    (kits : AllKit setup) (link : s.links.get? g = some l)
    (hs : runLink setup s g l a = some t) : Healthy t := by
  obtain ⟨child, isKit⟩ := kits g
  cases a with
  | write =>
    simp only [runLink] at hs
    split at hs
    · cases hs
    · rename_i msg rest queue
      cases hs
      apply healthy.putLink link
      · rintro ⟨reading, listed, quiet, stdin⟩
        rw [queue, List.mem_cons, not_or] at quiet
        refine ⟨reading, listed, quiet.2, fun mem => ?_⟩
        obtain mem | mem := List.mem_append.mp mem
        · exact stdin mem
        · -- the line of another message is another line
          have sent := (valid.links g l link).queue msg (queue ▸ List.mem_cons_self)
          obtain rfl | ⟨n, q, reqId, found, ticket, config, _, rfl⟩ := sent
          · exact quiet.1 rfl
          · have small := ((valid.requests n q found).routed g reqId ticket).2
            have one := (decodeLine_render correct (m := SrvMsg.dispatch (dispatchMsg setup.http
              setup.b64Encode q.http reqId (config.secrets.get? l.handle.id))) small).1
            rw [← List.mem_singleton.mp mem,
              (decodeLine_render correct (m := SrvMsg.shutdown) trivial).1] at one
            cases one
      · exact fun _ _ _ _ _ _ _ reserves => reserves
  | print line =>
    simp only [runLink] at hs
    split at hs
    · cases hs
      apply healthy.putLink link
      · rintro ⟨reading, listed, queue, stdin⟩
        exact ⟨reading, listed, queue, stdin⟩
      · exact fun _ _ _ _ _ _ _ reserves => reserves
    · cases hs
  | readLine =>
    simp only [runLink] at hs
    split at hs
    · rename_i ready
      split at hs
      · cases hs
      · rename_i line at'
        cases hs
        simp only [Bool.and_eq_true, Option.isNone_iff_eq_none] at ready
        exact (readLine_healthy healthy valid correct link isKit ready.2 at').of_eq rfl rfl rfl
    · cases hs
  | sendResult =>
    simp only [runLink] at hs
    split at hs
    · cases hs
    · rename_i n result reader
      cases hs
      exact sendResult_healthy healthy link reader
  | shutdown | clear => exact inner.elim

end Whdr.Ingest
