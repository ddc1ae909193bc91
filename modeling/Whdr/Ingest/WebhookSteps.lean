import Whdr.Ingest.Tickets

/-! Every step of the webhooks keeps what is known of them. -/
namespace Whdr.Ingest

open Whdr.Configuration (Config)
open Lifecycle (ExtHandle)
open Dispatch (owned filter_owned owned_owned)
open Ndjson (decodeLine)
open Wire (toJson uuidSize)

variable {setup : Setup} {s t : State} {n m : Nat} {q q' : Request} {g h reqId : Uuid} {l l' : Link}

/-! ## What a step of a handler can do -/

/-- The request has no reservation yet. -/
def Stage.early : Stage → Bool
  | .arrived | .keyed _ | .routed _ | .handled _ | .cloned _ _ => true
  | _ => false

/-- What the daemon answers without a reservation. -/
inductive Declined (s : State) (http : HttpRequest) : Response → Prop
  | tooLarge : s.config.limits.maxBodyBytes < http.body.length →
      Declined s http (statusResponse 413)
  | noRoute : routeKeyFromPath http.path = none → Declined s http (statusResponse 404)
  | notFound : Declined s http (errorResponse .notFound)
  | starting : Declined s http (errorResponse .starting)
  | busy : Declined s http (errorResponse .busy)

/-- The next stage on the way to a reservation. -/
inductive Forward (s : State) (http : HttpRequest) : Stage → Stage → Prop
  | key (routeKey : String) : routeKeyFromPath http.path = some routeKey →
      Forward s http .arrived (.keyed routeKey)
  | route (routeKey extId : String) : s.tables.routes.get? routeKey = some extId →
      Forward s http (.keyed routeKey) (.routed extId)
  | handle (extId : String) (g : Uuid) : s.tables.extensions.get? extId = some g →
      Forward s http (.routed extId) (.handled g)
  | clone (g : Uuid) : Forward s http (.handled g) (.cloned g s.config)

/-- All that a step of the handler can do. -/
inductive Moves (setup : Setup) (s : State) (n : Nat) (q : Request) :
    RequestAction → State → Prop
  | decline (a : RequestAction) (response : Response) : q.stage.early = true →
      Declined s q.http response → Moves setup s n q a (answer s n q response)
  | forward (a : RequestAction) (stage : Stage) : Forward s q.http q.stage stage →
      Moves setup s n q a (s.put n { q with stage := stage })
  | reserve (g reqId : Uuid) (config : Config) (l : Link) (window : DispatchWindow) :
      q.stage = .cloned g config → s.unused reqId = true → reqId < uuidSize →
      s.links.get? g = some l →
      l.window.reserveInFlight config.limits.maxInFlight = some window →
      Moves setup s n q (.reserve reqId)
        ((s.putLink g { l with window := window.insert reqId n }).put n
          { q with
              stage := .sending (.dispatch (dispatchMsg setup.http setup.b64Encode q.http reqId
                (config.secrets.get? l.handle.id))),
              ticket := some (g, reqId) })
  | send (g reqId : Uuid) (l : Link) (msg : SrvMsg) : q.stage = .sending msg →
      q.ticket = some (g, reqId) → s.links.get? g = some l → l.queue.length < l.capacity →
      Moves setup s n q .send
        ((s.putLink g { l with queue := l.queue ++ [msg] }).put n { q with stage := .waiting })
  | sendFails (msg : SrvMsg) : q.stage = .sending msg →
      Moves setup s n q .sendFails (answer (release s q) n q (errorResponse .dead))
  | receive (g reqId : Uuid) (l : Link) (result : ExtResult) (events : List Event)
      (violations : Nat) : q.stage = .waiting → q.slot = some result →
      q.ticket = some (g, reqId) → s.links.get? g = some l →
      filterOwnedEvents l.handle.id l.handle.paths l.handle.channels l.namespaceViolations
        result.events = (events, violations) →
      Moves setup s n q .receive
        (State.put { s.putLink g { l with namespaceViolations := violations } with
            fanned := s.fanned ++ [Batch.mk g (some n) events] }
          n { q with stage := .fanning result.http, slot := none })
  | timeout : q.stage = .waiting →
      Moves setup s n q .timeout (s.put n { q with stage := .timedOut })
  | removePending : q.stage = .timedOut →
      Moves setup s n q .removePending (answer (release s q) n q (errorResponse .timeout))
  | dead : q.stage = .waiting → q.slot = none → senderAlive s n q = false →
      Moves setup s n q .dead (answer s n q (errorResponse .dead))
  | respond (reply : HttpReply) : q.stage = .fanning reply →
      Moves setup s n q .respond (answer s n q (httpReplyToResponse setup.http reply))
  | cancelReserved : q.stage.reserved = true →
      Moves setup s n q .cancel ((release s q).put n { q with stage := .dropped, slot := none })
  | cancel : (∀ msg, q.stage ≠ .sending msg) →
      Moves setup s n q .cancel (s.put n { q with stage := .dropped, slot := none })

theorem unroutedError_declined (http : HttpRequest) (routeKey : String) :
    Declined s http (errorResponse (s.unroutedError routeKey)) := by
  unfold State.unroutedError
  split
  · exact .starting
  · exact .notFound

theorem advance_moves {a : RequestAction} (hs : advance setup s n q a = some t) :
    Moves setup s n q a t := by
  cases a with
  | ingest =>
    simp only [advance] at hs
    split at hs
    · rename_i stage
      have early : q.stage.early = true := by rw [stage]; rfl
      split at hs
      · rename_i large
        cases hs
        exact .decline _ _ early (.tooLarge large)
      · split at hs
        · rename_i noKey
          cases hs
          exact .decline _ _ early (.noRoute noKey)
        · rename_i routeKey key
          cases hs
          apply Moves.forward
          rw [stage]
          exact .key routeKey key
    · cases hs
  | findRoute =>
    simp only [advance] at hs
    split at hs
    · rename_i routeKey stage
      split at hs
      · rename_i extId route
        cases hs
        apply Moves.forward
        rw [stage]
        exact .route routeKey extId route
      · cases hs
        exact .decline _ _ (by rw [stage]; rfl) (unroutedError_declined _ _)
    · cases hs
  | findHandle =>
    simp only [advance] at hs
    split at hs
    · rename_i extId stage
      split at hs
      · rename_i g listed
        cases hs
        apply Moves.forward
        rw [stage]
        exact .handle extId g listed
      · cases hs
        exact .decline _ _ (by rw [stage]; rfl) .starting
    · cases hs
  | cloneConfig =>
    simp only [advance] at hs
    split at hs
    · rename_i g stage
      cases hs
      apply Moves.forward
      rw [stage]
      exact .clone g
    · cases hs
  | reserve reqId =>
    simp only [advance] at hs
    split at hs
    · rename_i g config stage
      unfold reserve at hs
      split at hs
      · cases hs
      rename_i fresh
      simp only [Bool.not_eq_true', Bool.not_eq_false, Bool.and_eq_true, decide_eq_true_eq] at fresh
      split at hs
      · cases hs
      · rename_i l link
        split at hs
        · cases hs
          exact .decline _ _ (by rw [stage]; rfl) .busy
        · rename_i window room
          cases hs
          exact .reserve g reqId config l window stage fresh.1 fresh.2 link room
    · cases hs
  | send =>
    simp only [advance] at hs
    split at hs
    · rename_i msg stage
      unfold send at hs
      split at hs
      · cases hs
      · rename_i g reqId ticket
        split at hs
        · cases hs
        · rename_i l link
          split at hs
          · rename_i room
            cases hs
            exact .send g reqId l msg stage ticket link room
          · cases hs
    · cases hs
  | sendFails =>
    simp only [advance] at hs
    split at hs
    · rename_i msg stage
      cases hs
      exact .sendFails msg stage
    · cases hs
  | receive =>
    simp only [advance] at hs
    split at hs
    · rename_i result stage slot
      unfold receive at hs
      split at hs
      · cases hs
      · rename_i g reqId ticket
        split at hs
        · cases hs
        · rename_i l link
          cases hs
          exact .receive g reqId l result _ _ stage slot ticket link rfl
    · cases hs
  | timeout =>
    simp only [advance] at hs
    split at hs
    · rename_i stage
      split at hs
      · cases hs
        exact .timeout stage
      · cases hs
    · cases hs
  | removePending =>
    simp only [advance] at hs
    split at hs
    · rename_i stage
      cases hs
      exact .removePending stage
    · cases hs
  | dead =>
    simp only [advance] at hs
    split at hs
    · rename_i stage
      split at hs
      · rename_i gone
        cases hs
        simp only [Bool.and_eq_true, Option.isNone_iff_eq_none, Bool.not_eq_true'] at gone
        exact .dead stage gone.1 gone.2
      · cases hs
    · cases hs
  | respond =>
    simp only [advance] at hs
    split at hs
    · rename_i reply stage
      cases hs
      exact .respond reply stage
    · cases hs
  | cancel =>
    cases stage : q.stage with
    | answered | timedOut | dropped =>
      simp only [advance, stage] at hs
      cases hs
    | sending | waiting =>
      simp only [advance, stage, Option.some.injEq] at hs
      exact hs ▸ .cancelReserved (by rw [stage]; rfl)
    | arrived | keyed | routed | handled | cloned | fanning =>
      simp only [advance, stage, Option.some.injEq] at hs
      refine hs ▸ .cancel fun msg sending => ?_
      rw [stage] at sending
      cases sending

/-! ## Changes of one request or one link -/

theorem Grows.refl (s : State) : Grows s s where
  configs := List.Subset.refl _
  tabled := List.Subset.refl _
  links _ l link := ⟨l, link, rfl, List.Subset.refl _⟩
  requests _ q found := ⟨q, found, rfl, fun _ ticket => ticket⟩

theorem grows_put (found : s.requests.get? n = some q) (http : q'.http = q.http)
    (keeps : ∀ ticket, q.ticket = some ticket → q'.ticket = some ticket) :
    Grows s (s.put n q') where
  configs := List.Subset.refl _
  tabled := List.Subset.refl _
  links g l link := ⟨l, link, rfl, List.Subset.refl _⟩
  requests m p other := by
    by_cases same : m = n
    · subst same
      rw [found] at other
      cases other
      exact ⟨q', s.requests.get?_insert_self m q', http, keeps⟩
    · exact ⟨p, (s.requests.get?_insert_ne q' same).trans other, rfl, fun _ ticket => ticket⟩

theorem grows_putLink (found : s.links.get? g = some l) (handle : l'.handle = l.handle)
    (more : l.stdout ⊆ l'.stdout) : Grows s (s.putLink g l') where
  configs := List.Subset.refl _
  tabled := List.Subset.refl _
  links h k other := by
    by_cases same : h = g
    · subst same
      rw [found] at other
      cases other
      exact ⟨l', s.links.get?_insert_self h l', handle, more⟩
    · exact ⟨k, (s.links.get?_insert_ne l' same).trans other, rfl, List.Subset.refl _⟩
  requests n q found := ⟨q, found, rfl, fun _ ticket => ticket⟩

/-- Where no ticket changes, no two requests get one id. -/
theorem Valid.distinct_put (valid : Valid setup s) (found : s.requests.get? n = some q)
    (ticket : q'.ticket = q.ticket) (i j : Nat) (p p' : Request) (e f r : Uuid)
    (one : (s.put n q').requests.get? i = some p) (two : (s.put n q').requests.get? j = some p')
    (has₁ : p.ticket = some (e, r)) (has₂ : p'.ticket = some (f, r)) : i = j := by
  have before : ∀ {m p}, (s.put n q').requests.get? m = some p →
      ∃ p', s.requests.get? m = some p' ∧ p'.ticket = p.ticket := by
    intro m p other
    rw [State.put, OrdMap.get?_insert] at other
    split at other
    · rename_i same
      cases other
      exact ⟨q, same ▸ found, ticket.symm⟩
    · exact ⟨p, other, rfl⟩
  obtain ⟨p₁, found₁, same₁⟩ := before one
  obtain ⟨p₂, found₂, same₂⟩ := before two
  exact valid.distinct i j p₁ p₂ e f r found₁ found₂ (same₁.trans has₁) (same₂.trans has₂)

/-- The request goes on without a new ticket. -/
theorem Valid.put (valid : Valid setup s) (found : s.requests.get? n = some q)
    (http : q'.http = q.http) (ticket : q'.ticket = q.ticket) (told : Told setup s n q')
    (held : ∀ result, q'.slot = some result → Held setup s q' result) :
    Valid setup (s.put n q') := by
  have grows : Grows s (s.put n q') := grows_put found http fun _ has => ticket.trans has
  have old := valid.requests n q found
  have next : RequestValid setup (s.put n q') n q' := by
    refine ⟨told.grows grows rfl, fun g reqId has => ?_, fun result slot => ?_⟩
    · obtain ⟨routed, small⟩ := old.routed g reqId (ticket ▸ has)
      rw [http]
      exact ⟨routed.grows grows, small⟩
    · exact (held result slot).grows grows fun _ has => has
  refine ⟨valid.config, valid.tables, fun m p other => ?_, valid.distinct_put found ticket,
    fun g l link => (valid.links g l link).grows grows,
    fun b mem => (valid.fanned b mem).grows grows⟩
  rw [State.put, OrdMap.get?_insert] at other
  split at other
  · rename_i same
    cases other
    exact same ▸ next
  · exact (valid.requests m p other).grows grows rfl

/-- A request is answered, and its slot is emptied. -/
theorem Valid.answer {response : Response} (valid : Valid setup s)
    (found : s.requests.get? n = some q) (accounted : Accounted setup s n q response) :
    Valid setup (answer s n q response) :=
  valid.put found rfl rfl accounted (by rintro _ ⟨⟩)

theorem Valid.refuse {response : Response} (valid : Valid setup s)
    (found : s.requests.get? n = some q) (nothing : s.fannedFor n = [])
    (refusal : Refusal s q.http response) : Valid setup (Ingest.answer s n q response) :=
  valid.answer found (.inl ⟨nothing, refusal⟩)

theorem Valid.putLink (valid : Valid setup s) (found : s.links.get? g = some l)
    (handle : l'.handle = l.handle) (more : l.stdout ⊆ l'.stdout) (next : LinkValid setup s g l') :
    Valid setup (s.putLink g l') := by
  have grows : Grows s (s.putLink g l') := grows_putLink found handle more
  refine ⟨valid.config, valid.tables, fun m p other => (valid.requests m p other).grows grows rfl,
    valid.distinct, fun h k other => ?_, fun b mem => (valid.fanned b mem).grows grows⟩
  rw [State.putLink, OrdMap.get?_insert] at other
  split at other
  · rename_i same
    cases other
    exact same ▸ next.grows grows
  · exact (valid.links h k other).grows grows

/-- Fewer entries in the window, and nothing else of the link. -/
theorem Valid.putWindow {window : DispatchWindow} (valid : Valid setup s)
    (found : s.links.get? g = some l)
    (fewer : ∀ reqId n, window.pending.get? reqId = some n → l.window.pending.get? reqId = some n) :
    Valid setup (s.putLink g { l with window := window }) := by
  have old := valid.links g l found
  refine valid.putLink found rfl (List.Subset.refl _)
    ⟨old.queue, old.stdin, old.stdout, fun reqId n entry => ?_, old.reader⟩
  exact old.pending reqId n (fewer reqId n entry)

theorem remove_fewer {window : DispatchWindow} {reqId other : Uuid} {n : Nat}
    (entry : (window.remove reqId).2.pending.get? other = some n) :
    window.pending.get? other = some n := by
  rw [DispatchWindow.remove_pending, OrdMap.get?_erase] at entry
  split at entry
  · cases entry
  · exact entry

theorem Valid.release (valid : Valid setup s) : Valid setup (release s q) := by
  unfold Ingest.release
  split
  · exact valid
  · split
    · exact valid
    · rename_i found
      exact valid.putWindow found fun _ _ => remove_fewer

theorem release_requests (s : State) (q : Request) : (release s q).requests = s.requests := by
  unfold release
  split
  · rfl
  · split <;> rfl

theorem release_fanned (s : State) (q : Request) : (release s q).fanned = s.fanned := by
  unfold release
  split
  · rfl
  · split <;> rfl

/-! ## The handler of a request -/

/-- A reservation under a new id. -/
theorem Valid.reserved {msg : SrvMsg} (valid : Valid setup s)
    (found : s.requests.get? n = some q) (free : q.ticket = none) (unused : s.unused reqId = true)
    (small : reqId < uuidSize) (nothing : s.fannedFor n = []) (routed : Routed s q.http g)
    (link : s.links.get? g = some l) (message : MessageOf setup s l.handle q.http reqId msg) :
    Valid setup (s.put n { q with stage := .sending msg, ticket := some (g, reqId) }) := by
  have old := valid.requests n q found
  have grows : Grows s (s.put n { q with stage := .sending msg, ticket := some (g, reqId) }) :=
    grows_put found rfl fun ticket has => by rw [free] at has; cases has
  have next : RequestValid setup (s.put n { q with stage := .sending msg, ticket := some (g, reqId) })
      n { q with stage := .sending msg, ticket := some (g, reqId) } := by
    refine ⟨⟨nothing, g, reqId, l, rfl, link, message.grows grows⟩, ?_, fun result slot => ?_⟩
    · rintro _ _ ⟨⟩
      exact ⟨routed.grows grows, small⟩
    · obtain ⟨_, _, _, _, has, _⟩ := old.held result slot
      rw [free] at has
      cases has
  -- no other request has the id
  have other : ∀ m p h, m ≠ n → s.requests.get? m = some p → p.ticket ≠ some (h, reqId) := by
    intro m p h _ foundP has
    have inside : p ∈ s.requests.values := (s.requests.mem_values_iff p).mpr ⟨m, foundP⟩
    have differs := List.all_eq_true.mp unused p inside
    rw [has] at differs
    simp at differs
  refine ⟨valid.config, valid.tables, fun m p found' => ?_, fun i j p p' e f r one two has₁ has₂ => ?_,
    fun g l link => (valid.links g l link).grows grows,
    fun b mem => (valid.fanned b mem).grows grows⟩
  · rw [State.put, OrdMap.get?_insert] at found'
    split at found'
    · rename_i same
      cases found'
      exact same ▸ next
    · exact (valid.requests m p found').grows grows rfl
  · rw [State.put, OrdMap.get?_insert] at one two
    split at one <;> split at two
    · rename_i same same'
      exact same.trans same'.symm
    · rename_i same apart
      cases one
      cases has₁
      exact absurd has₂ (other j p' f apart two)
    · rename_i apart same
      cases two
      cases has₂
      exact absurd has₁ (other i p e apart one)
    · exact valid.distinct i j p p' e f r one two has₁ has₂

theorem reserveInFlight_pending {window next : DispatchWindow} {max : Nat}
    (room : window.reserveInFlight max = some next) : next.pending = window.pending := by
  unfold DispatchWindow.reserveInFlight at room
  split at room
  · cases room
  · cases room
    rfl

theorem Valid.reserve {config : Config} {window : DispatchWindow} (valid : Valid setup s)
    (found : s.requests.get? n = some q) (stage : q.stage = .cloned g config)
    (unused : s.unused reqId = true) (small : reqId < uuidSize) (link : s.links.get? g = some l)
    (room : l.window.reserveInFlight config.limits.maxInFlight = some window) :
    Valid setup ((s.putLink g { l with window := window.insert reqId n }).put n { q with
      stage := .sending (.dispatch (dispatchMsg setup.http setup.b64Encode q.http reqId
        (config.secrets.get? l.handle.id)))
      ticket := some (g, reqId) }) := by
  have told := (valid.requests n q found).told
  simp only [Told, stage] at told
  obtain ⟨nothing, free, routed, inForce⟩ := told
  have message : MessageOf setup s l.handle q.http reqId (.dispatch (dispatchMsg setup.http
      setup.b64Encode q.http reqId (config.secrets.get? l.handle.id))) := ⟨config, inForce, rfl⟩
  have next := valid.reserved found free unused small nothing routed link message
  have old := next.links g l link
  refine next.putLink link rfl (List.Subset.refl _)
    ⟨old.queue, old.stdin, old.stdout, fun r m entry => ?_, old.reader⟩
  rw [DispatchWindow.insert_pending, reserveInFlight_pending room, OrdMap.get?_insert] at entry
  split at entry
  · rename_i same
    cases entry
    exact ⟨_, OrdMap.get?_insert_self _ _ _, by rw [same]⟩
  · exact old.pending r m entry

theorem Valid.send {msg : SrvMsg} (valid : Valid setup s) (found : s.requests.get? n = some q)
    (stage : q.stage = .sending msg) (ticket : q.ticket = some (g, reqId))
    (link : s.links.get? g = some l) :
    Valid setup ((s.putLink g { l with queue := l.queue ++ [msg] }).put n
      { q with stage := .waiting }) := by
  have told := (valid.requests n q found).told
  simp only [Told, stage] at told
  obtain ⟨nothing, g', reqId', l', ticket', link', message⟩ := told
  cases ticket.symm.trans ticket'
  cases link.symm.trans link'
  have old := valid.links g l link
  have sent : Sent setup s g l.handle msg := .inr ⟨n, q, reqId, found, ticket, message⟩
  have next : Valid setup (s.putLink g { l with queue := l.queue ++ [msg] }) := by
    refine valid.putLink link rfl (List.Subset.refl _)
      ⟨fun other mem => ?_, old.stdin, old.stdout, old.pending, old.reader⟩
    obtain mem | mem := List.mem_append.mp mem
    · exact old.queue other mem
    · exact List.mem_singleton.mp mem ▸ sent
  exact next.put found rfl rfl nothing (next.requests n q found).held

/-- A batch for the request that has none. -/
theorem Valid.fan {b : Batch} {q' : Request} {reply : HttpReply} (valid : Valid setup s)
    (found : s.requests.get? n = some q) (http : q'.http = q.http) (ticket : q'.ticket = q.ticket)
    (stage : q'.stage = .fanning reply) (slot : q'.slot = none) (isFor : b.request = some n)
    (emits : ∃ l, s.links.get? b.generation = some l ∧ ∀ e ∈ b.events, l.handle.owns e.channel)
    (replied : Replied setup { s with fanned := s.fanned ++ [b] } n q' reply) :
    Valid setup ({ s with fanned := s.fanned ++ [b] }.put n q') := by
  have grows : Grows s ({ s with fanned := s.fanned ++ [b] }.put n q') := by
    obtain ⟨configs, tabled, links, requests⟩ := grows_put found http fun _ has => ticket.trans has
    exact ⟨configs, tabled, links, requests⟩
  have others : ∀ m, m ≠ n →
      ({ s with fanned := s.fanned ++ [b] }.put n q').fannedFor m = s.fannedFor m := by
    intro m ne
    have apart : ¬ b.request = some m := by
      rw [isFor, Option.some.injEq]
      exact fun same => ne same.symm
    simp [State.fannedFor, State.put, apart]
  have next : RequestValid setup ({ s with fanned := s.fanned ++ [b] }.put n q') n q' := by
    have old := valid.requests n q found
    refine ⟨?_, fun g reqId has => ?_, fun result full => ?_⟩
    · simp only [Told, stage]
      exact replied
    · obtain ⟨routed, small⟩ := old.routed g reqId (ticket ▸ has)
      rw [http]
      exact ⟨routed.grows grows, small⟩
    · rw [slot] at full
      cases full
  refine ⟨valid.config, valid.tables, fun m p other => ?_, valid.distinct_put found ticket,
    fun g l link => (valid.links g l link).grows grows, fun c mem => ?_⟩
  · rw [State.put, OrdMap.get?_insert] at other
    split at other
    · rename_i same
      cases other
      exact same ▸ next
    · rename_i ne
      exact (valid.requests m p other).grows grows (others m ne)
  · obtain mem | mem := List.mem_append.mp mem
    · exact (valid.fanned c mem).grows grows
    · rw [List.mem_singleton.mp mem]
      refine BatchValid.grows ⟨emits, fun m has => ?_, fun none => ?_⟩ grows
      · rw [isFor] at has
        cases has
        exact ⟨q, found⟩
      · rw [isFor] at none
        cases none

theorem owned_owns (handle : ExtHandle) (events : List Event) :
    ∀ e ∈ owned handle events, handle.owns e.channel :=
  fun _ mem => of_decide_eq_true (List.mem_filter.mp mem).2

theorem Valid.receive {result : ExtResult} {events : List Event} {violations : Nat}
    (valid : Valid setup s) (found : s.requests.get? n = some q) (stage : q.stage = .waiting)
    (slot : q.slot = some result) (ticket : q.ticket = some (g, reqId))
    (link : s.links.get? g = some l)
    (filtered : filterOwnedEvents l.handle.id l.handle.paths l.handle.channels
      l.namespaceViolations result.events = (events, violations)) :
    Valid setup (State.put { s.putLink g { l with namespaceViolations := violations } with
        fanned := s.fanned ++ [Batch.mk g (some n) events] }
      n { q with stage := .fanning result.http, slot := none }) := by
  have nothing : s.fannedFor n = [] := by
    have told := (valid.requests n q found).told
    simpa only [Told, stage] using told
  obtain ⟨g', reqId', l', printed', ticket', link', printed, eq⟩ :=
    (valid.requests n q found).held result slot
  cases ticket.symm.trans ticket'
  cases link.symm.trans link'
  have kept : events = owned l.handle printed' := by
    have first := congrArg Prod.fst filtered
    rw [filter_owned, eq, owned_owned] at first
    exact first.symm
  subst kept
  have old := valid.links g l link
  have next : Valid setup (s.putLink g { l with namespaceViolations := violations }) :=
    valid.putLink link rfl (List.Subset.refl _)
      ⟨old.queue, old.stdin, old.stdout, old.pending, old.reader⟩
  have link' := s.links.get?_insert_self g { l with namespaceViolations := violations }
  refine next.fan (b := ⟨g, some n, owned l.handle printed'⟩) found rfl rfl rfl rfl rfl
    ⟨_, link', owned_owns l.handle printed'⟩ ⟨g, reqId, _, printed', ticket, link', printed, ?_⟩
  have before : s.fanned.filter (fun b => b.request = some n) = [] := nothing
  simp [State.fannedFor, State.putLink, before]

/-- Until it has a reply nothing is fanned out for a request. -/
theorem Told.nothing (told : Told setup s n q)
    (going : q.stage.early = true ∨ q.stage.reserved = true) : s.fannedFor n = [] := by
  cases stage : q.stage with
  | arrived | keyed | routed | handled | cloned | sending =>
    simp only [Told, stage] at told
    exact told.1
  | waiting | timedOut =>
    simp only [Told, stage] at told
    exact told
  | fanning | answered | dropped =>
    rw [stage] at going
    obtain early | reserved := going
    · cases early
    · cases reserved

/-- Nothing was fanned out for the request, or its reply was. -/
theorem Told.fanned (told : Told setup s n q) :
    s.fannedFor n = [] ∨ ∃ reply, Replied setup s n q reply := by
  cases stage : q.stage with
  | arrived | keyed | routed | handled | cloned =>
    exact .inl (told.nothing (.inl (by rw [stage]; rfl)))
  | sending | waiting | timedOut => exact .inl (told.nothing (.inr (by rw [stage]; rfl)))
  | fanning reply =>
    simp only [Told, stage] at told
    exact .inr ⟨reply, told⟩
  | answered response =>
    simp only [Told, stage] at told
    obtain ⟨nothing, _⟩ | ⟨reply, replied, _⟩ := told
    · exact .inl nothing
    · exact .inr ⟨reply, replied⟩
  | dropped =>
    simp only [Told, stage] at told
    exact told

theorem Declined.refusal {http : HttpRequest} {response : Response}
    (declined : Declined s http response) (inForce : s.config ∈ s.configs) :
    Refusal s http response := by
  cases declined with
  | tooLarge large => exact .tooLarge s.config inForce large
  | noRoute noKey => exact .noRoute noKey
  | notFound => exact .error .notFound
  | starting => exact .error .starting
  | busy => exact .error .busy

/-- What the next stage says of the request. -/
theorem Forward.told {stage : Stage} (ahead : Forward s q.http q.stage stage)
    (valid : Valid setup s) (told : Told setup s n q) :
    Told setup s n { q with stage := stage } := by
  unfold Told at told
  generalize q.stage = before at ahead told
  cases ahead with
  | key routeKey key => exact ⟨told.1, told.2, key⟩
  | route routeKey extId route =>
    obtain ⟨nothing, free, key⟩ := told
    exact ⟨nothing, free, routeKey, key, s.tables, valid.tables, route⟩
  | handle extId g listed =>
    obtain ⟨nothing, free, routeKey, key, tables, inForce, route⟩ := told
    exact ⟨nothing, free, routeKey, extId, key, ⟨tables, inForce, route⟩,
      ⟨s.tables, valid.tables, listed⟩⟩
  | clone g =>
    obtain ⟨nothing, free, routed⟩ := told
    exact ⟨nothing, free, routed, valid.config⟩

theorem advance_valid {a : RequestAction} (valid : Valid setup s)
    (found : s.requests.get? n = some q) (hs : advance setup s n q a = some t) : Valid setup t := by
  have held := (valid.requests n q found).held
  have told := (valid.requests n q found).told
  have released : (release s q).requests.get? n = some q :=
    (congrArg (·.get? n) (release_requests s q)).trans found
  have unfanned : s.fannedFor n = [] → (release s q).fannedFor n = [] :=
    (congrArg (List.filter _) (release_fanned s q)).trans
  cases advance_moves hs with
  | decline _ response early declined =>
    exact valid.refuse found (told.nothing (.inl early)) (declined.refusal valid.config)
  | forward _ stage ahead => exact valid.put found rfl rfl (ahead.told valid told) held
  | reserve g reqId config l window stage unused small link room =>
    exact valid.reserve found stage unused small link room
  | send g reqId l msg stage ticket link => exact valid.send found stage ticket link
  | sendFails msg stage =>
    have nothing := told.nothing (.inr (by rw [stage]; rfl))
    exact valid.release.refuse released (unfanned nothing) (.error .dead)
  | receive g reqId l result events violations stage slot ticket link filtered =>
    exact valid.receive found stage slot ticket link filtered
  | timeout stage =>
    have nothing := told.nothing (.inr (by rw [stage]; rfl))
    exact valid.put found rfl rfl nothing held
  | removePending stage =>
    have nothing := told.nothing (.inr (by rw [stage]; rfl))
    exact valid.release.refuse released (unfanned nothing) (.error .timeout)
  | dead stage =>
    have nothing := told.nothing (.inr (by rw [stage]; rfl))
    exact valid.refuse found nothing (.error .dead)
  | respond reply stage =>
    simp only [Told, stage] at told
    exact valid.answer found (.inr ⟨reply, told, rfl⟩)
  | cancelReserved reserved =>
    have nothing := told.nothing (.inr reserved)
    exact valid.release.put released rfl rfl (.inl (unfanned nothing)) (by rintro _ ⟨⟩)
  | cancel => exact valid.put found rfl rfl told.fanned (by rintro _ ⟨⟩)

/-! ## The tasks of a generation -/

theorem serve_append (read : Line → Option Json) (handle : SrvMsg → Ext.DispatchResult)
    (lines more : List Line) :
    (Ext.serve read handle lines).1 <+: (Ext.serve read handle (lines ++ more)).1 := by
  induction lines with
  | nil => exact List.nil_prefix
  | cons line rest ih =>
    simp only [List.cons_append, Ext.serve]
    split
    · exact List.prefix_refl _
    · exact ih
    · exact List.prefix_refl _
    · split
      · exact List.prefix_refl _
      · exact List.cons_prefix_cons.mpr ⟨rfl, ih⟩

theorem sendResult_valid {result : ExtResult} (valid : Valid setup s)
    (link : s.links.get? g = some l) (reader : l.reader = some (n, result)) :
    Valid setup (sendResult s g l n result) := by
  have old := valid.links g l link
  obtain ⟨q, found, held⟩ := old.reader n result reader
  have next : Valid setup (s.putLink g { l with reader := none }) :=
    valid.putLink link rfl (List.Subset.refl _)
      ⟨old.queue, old.stdin, old.stdout, old.pending, by rintro _ _ ⟨⟩⟩
  have grows : Grows s (s.putLink g { l with reader := none }) :=
    grows_putLink link rfl (List.Subset.refl _)
  have found' : (s.putLink g { l with reader := none }).requests.get? n = some q := found
  simp only [sendResult, found']
  split
  · refine next.put found rfl rfl (next.requests n q found).told ?_
    rintro _ ⟨⟩
    exact held.grows grows fun _ has => has
  · exact next

/-- Batches of Event lines. -/
theorem Valid.fanLine {bs : List Batch} (valid : Valid setup s)
    (lines : ∀ b ∈ bs, b.request = none ∧ BatchValid setup s b) :
    Valid setup { s with fanned := s.fanned ++ bs } := by
  have same : ∀ n, State.fannedFor { s with fanned := s.fanned ++ bs } n = s.fannedFor n := by
    intro n
    have none : bs.filter (fun b => b.request = some n) = [] := by
      rw [List.filter_eq_nil_iff]
      intro b mem
      simp [(lines b mem).1]
    simp only [State.fannedFor, List.filter_append, none, List.append_nil]
  have grows : Grows s { s with fanned := s.fanned ++ bs } :=
    ⟨List.Subset.refl _, List.Subset.refl _, (Grows.refl s).links, (Grows.refl s).requests⟩
  refine ⟨valid.config, valid.tables, fun n q found => (valid.requests n q found).grows grows (same n),
    valid.distinct, fun g l link => (valid.links g l link).grows grows, fun b mem => ?_⟩
  obtain mem | mem := List.mem_append.mp mem
  · exact (valid.fanned b mem).grows grows
  · exact (lines b mem).2.grows grows

/-- A Result line gives the sender of its entry to the reader; no line adds an entry. -/
theorem readLine_link {line : Line} (valid : Valid setup s) (link : s.links.get? g = some l)
    (mem : line ∈ l.stdout) :
    (readLine setup s g l line).1.handle = l.handle ∧
      (readLine setup s g l line).1.stdout = l.stdout ∧
      LinkValid setup s g (readLine setup s g l line).1 := by
  have old := valid.links g l link
  have same : ∀ l' : Link, l'.handle = l.handle ∧ l'.queue = l.queue ∧ l'.stdin = l.stdin ∧
      l'.stdout = l.stdout ∧ l'.window = l.window ∧ l'.reader = l.reader →
      l'.handle = l.handle ∧ l'.stdout = l.stdout ∧ LinkValid setup s g l' := by
    rintro l' ⟨handle, queue, stdin, stdout, window, reader⟩
    refine ⟨handle, stdout, ?_, ?_, ?_, ?_, ?_⟩
    · rw [handle, queue]
      exact old.queue
    · rw [handle, stdin]
      exact old.stdin
    · rw [stdout, stdin]
      exact old.stdout
    · rw [window]
      exact old.pending
    · rw [reader]
      exact old.reader
  unfold readLine
  dsimp only
  split
  · exact same _ ⟨rfl, rfl, rfl, rfl, rfl, rfl⟩
  · split
    · rename_i reqId reply events decodes
      split
      · rename_i n window removed
        have window_eq : window = (l.window.remove reqId).2 := by rw [removed]
        have entry : l.window.pending.get? reqId = some n := by
          rw [← DispatchWindow.remove_found, removed]
        refine ⟨rfl, rfl, old.queue, old.stdin, old.stdout, fun r m has => ?_, ?_⟩
        · exact old.pending r m (remove_fewer (window_eq ▸ has))
        · rintro _ _ ⟨⟩
          obtain ⟨q, found, ticket⟩ := old.pending reqId n entry
          exact ⟨q, found, g, reqId, l, events, ticket, link, ⟨line, mem, decodes⟩,
            filter_owned _ events⟩
      · rename_i window removed
        have window_eq : window = l.window := by
          have absent : l.window.pending.get? reqId = none := by
            rw [← DispatchWindow.remove_found, removed]
          rw [DispatchWindow.remove_absent absent] at removed
          exact (congrArg Prod.snd removed).symm
        exact same _ ⟨rfl, rfl, rfl, rfl, window_eq, rfl⟩
    all_goals exact same _ ⟨rfl, rfl, rfl, rfl, rfl, rfl⟩

/-- Only an Event line makes a batch. -/
theorem readLine_batch {line : Line} {b : Batch} (link : s.links.get? g = some l)
    (mem : line ∈ l.stdout) (made : (readLine setup s g l line).2 = some b) :
    b.request = none ∧ BatchValid setup s b := by
  unfold readLine at made
  dsimp only at made
  split at made
  · cases made
  · split at made
    · split at made <;> cases made
    · rename_i ev decodes
      cases made
      have kept : (filterOwnedEvents l.handle.id l.handle.paths l.handle.channels
          l.namespaceViolations [ev]).1 = owned l.handle [ev] := filter_owned _ [ev]
      rw [kept]
      exact ⟨rfl, ⟨l, link, owned_owns l.handle [ev]⟩, by rintro _ ⟨⟩,
        fun _ => ⟨l, ev, link, ⟨line, mem, decodes⟩, rfl⟩⟩
    all_goals cases made

theorem runLink_valid {a : LinkAction} (valid : Valid setup s) (link : s.links.get? g = some l)
    (hs : runLink setup s g l a = some t) : Valid setup t := by
  have old := valid.links g l link
  cases a with
  | write =>
    simp only [runLink] at hs
    split at hs
    · cases hs
    · rename_i msg rest queue
      cases hs
      have sent := old.queue msg (queue ▸ List.mem_cons_self)
      refine valid.putLink link rfl (List.Subset.refl _) ⟨fun other mem => ?_, fun line mem => ?_,
        fun child isKit => ?_, old.pending, old.reader⟩
      · exact old.queue other (queue ▸ List.mem_cons_of_mem _ mem)
      · obtain mem | mem := List.mem_append.mp mem
        · exact old.stdin line mem
        · exact ⟨msg, List.mem_singleton.mp mem, sent⟩
      · exact (old.stdout child isKit).trans ((serve_append _ _ _ _).map _)
  | shutdown =>
    simp only [runLink] at hs
    split at hs
    · cases hs
      refine valid.putLink link rfl (List.Subset.refl _)
        ⟨fun other mem => ?_, old.stdin, old.stdout, old.pending, old.reader⟩
      obtain mem | mem := List.mem_append.mp mem
      · exact old.queue other mem
      · exact .inl (List.mem_singleton.mp mem)
    · cases hs
  | print line =>
    simp only [runLink] at hs
    split at hs
    · rename_i prints
      cases hs
      refine valid.putLink link rfl (List.subset_append_left _ _)
        ⟨old.queue, old.stdin, fun child isKit => ?_, old.pending, ?_⟩
      · rw [isKit, Program.prints] at prints
        exact List.isPrefixOf_iff_prefix.mp prints
      · exact old.reader
    · cases hs
  | readLine =>
    simp only [runLink] at hs
    split at hs
    · split at hs
      · cases hs
      · rename_i line isLine
        cases hs
        have mem : line ∈ l.stdout := List.mem_of_getElem? isLine
        obtain ⟨handle, stdout, next⟩ := readLine_link valid link mem
        have put := valid.putLink link handle (stdout ▸ List.Subset.refl _) next
        have grows := grows_putLink link handle (stdout ▸ List.Subset.refl _)
        refine put.fanLine fun b made => ?_
        obtain ⟨none, made⟩ := readLine_batch link mem (Option.mem_toList.mp made)
        exact ⟨none, made.grows grows⟩
    · cases hs
  | sendResult =>
    simp only [runLink] at hs
    split at hs
    · cases hs
    · rename_i n result reader
      cases hs
      exact sendResult_valid valid link reader
  | clear =>
    cases hs
    refine valid.putWindow link fun r n entry => ?_
    rw [DispatchWindow.clear_pending] at entry
    cases entry

/-! ## Every step -/

theorem arrive_valid {http : HttpRequest} (valid : Valid setup s)
    (fresh : s.requests.get? n = none) : Valid setup (s.put n ⟨http, .arrived, none, none⟩) := by
  have grows : Grows s (s.put n ⟨http, .arrived, none, none⟩) := by
    refine ⟨List.Subset.refl _, List.Subset.refl _, (Grows.refl s).links, fun m q found => ?_⟩
    have ne : m ≠ n := by
      rintro rfl
      rw [fresh] at found
      cases found
    exact ⟨q, (s.requests.get?_insert_ne _ ne).trans found, rfl, fun _ ticket => ticket⟩
  have nothing : s.fannedFor n = [] := by
    rw [State.fannedFor, List.filter_eq_nil_iff]
    intro b mem isFor
    obtain ⟨q, found⟩ := (valid.fanned b mem).known n (of_decide_eq_true isFor)
    rw [fresh] at found
    cases found
  refine ⟨valid.config, valid.tables, fun m q found => ?_, fun i j p p' e f r one two => ?_,
    fun g l link => (valid.links g l link).grows grows,
    fun b mem => (valid.fanned b mem).grows grows⟩
  · rw [State.put, OrdMap.get?_insert] at found
    split at found
    · rename_i same
      cases found
      subst same
      exact ⟨⟨nothing, rfl⟩, by rintro _ _ ⟨⟩, by rintro _ ⟨⟩⟩
    · exact (valid.requests m q found).grows grows rfl
  · rw [State.put, OrdMap.get?_insert] at one two
    intro has₁ has₂
    split at one
    · cases one
      cases has₁
    · split at two
      · cases two
        cases has₂
      · exact valid.distinct i j p p' e f r one two has₁ has₂

theorem start_valid {l : Link} (valid : Valid setup s) (fresh : s.links.get? g = none)
    (next : LinkValid setup s g l) : Valid setup (s.putLink g l) := by
  have grows : Grows s (s.putLink g l) := by
    refine ⟨List.Subset.refl _, List.Subset.refl _, fun h k link => ?_, (Grows.refl s).requests⟩
    have ne : h ≠ g := by
      rintro rfl
      rw [fresh] at link
      cases link
    exact ⟨k, (s.links.get?_insert_ne _ ne).trans link, rfl, List.Subset.refl _⟩
  refine ⟨valid.config, valid.tables, fun n q found => (valid.requests n q found).grows grows rfl,
    valid.distinct, fun h k link => ?_, fun b mem => (valid.fanned b mem).grows grows⟩
  rw [State.putLink, OrdMap.get?_insert] at link
  split at link
  · rename_i same
    cases link
    exact same ▸ next.grows grows
  · exact (valid.links h k link).grows grows

theorem step_valid {a : Action} (valid : Valid setup s) (hs : step setup s a = some t) :
    Valid setup t := by
  cases a with
  | arrive n http =>
    simp only [step] at hs
    split at hs
    · cases hs
    · rename_i fresh
      cases hs
      exact arrive_valid valid (by simpa using fresh)
  | request n a =>
    obtain ⟨q, found, hs⟩ := Option.bind_eq_some_iff.mp hs
    exact advance_valid valid found hs
  | link g a =>
    obtain ⟨l, link, hs⟩ := Option.bind_eq_some_iff.mp hs
    exact runLink_valid valid link hs
  | start handle =>
    simp only [step] at hs
    split at hs
    · cases hs
    · rename_i fresh
      cases hs
      refine start_valid valid (by simpa using fresh) ⟨?_, ?_, fun _ _ => List.nil_prefix, ?_, ?_⟩
      · rintro _ ⟨⟩
      · rintro _ ⟨⟩
      · rintro _ _ ⟨⟩
      · rintro _ _ ⟨⟩
  | setTables tables =>
    cases hs
    have grows : Grows s { s with tables := tables, tabled := tables :: s.tabled } :=
      ⟨List.Subset.refl _, List.subset_cons_self _ _, (Grows.refl s).links, (Grows.refl s).requests⟩
    exact ⟨valid.config, List.mem_cons_self,
      fun n q found => (valid.requests n q found).grows grows rfl, valid.distinct,
      fun g l link => (valid.links g l link).grows grows,
      fun b mem => (valid.fanned b mem).grows grows⟩
  | reload config =>
    cases hs
    have grows : Grows s { s with config := config, configs := config :: s.configs } :=
      ⟨List.subset_cons_self _ _, List.Subset.refl _, (Grows.refl s).links, (Grows.refl s).requests⟩
    exact ⟨List.mem_cons_self, valid.tables,
      fun n q found => (valid.requests n q found).grows grows rfl, valid.distinct,
      fun g l link => (valid.links g l link).grows grows,
      fun b mem => (valid.fanned b mem).grows grows⟩

theorem starts_valid (starts : Starts s) : Valid setup s := by
  obtain ⟨configs, tabled, links, requests, fanned⟩ := starts
  refine ⟨configs ▸ List.mem_cons_self, tabled ▸ List.mem_cons_self, ?_, ?_, ?_, ?_⟩
  · rw [requests]
    rintro _ _ ⟨⟩
  · rw [requests]
    rintro _ _ _ _ _ _ _ ⟨⟩
  · rw [links]
    rintro _ _ ⟨⟩
  · rw [fanned]
    rintro _ ⟨⟩

end Whdr.Ingest
