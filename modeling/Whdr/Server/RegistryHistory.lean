import Whdr.Server.DispatchCourse
import Whdr.Server.RegistryOps

/-! Any history of calls on one registry, and what a connection should see of it: the
patterns it asked for and the events that match them. -/
namespace Whdr.RegistryHistory

open DeliveryLog (StoredEvent Shared append_ok)
open Dispatch (eventOf stampRows_events stampInMemory_events)
open SubscriberRegistry

inductive Call
  | insert (reg : SubscriberRegistration)
  | remove (id : Nat)
  | subscribe (id : Nat) (patterns : List String)
  | unsubscribe (id : Nat) (patterns : List String)
  | fanout (call : FanoutCall)

/-- A call with the id an `insert` returned, the error a `subscribe` returned and the
frames a `fanout` serialized. -/
structure Entry where
  call : Call
  inserted : Option Nat
  error : Option String
  frames : List StampedEvent

/-- A registry without connections, with or without a log. -/
def start (delivery : Option Shared) : SubscriberRegistry := { new with delivery := delivery }

section
variable (valueLen : StoredEvent → Nat) (textLen : SubServerMsg → Nat)

def answer (r : SubscriberRegistry) (c : Call) : Entry × SubscriberRegistry :=
  match c with
  | .insert reg => (⟨c, some (r.insert reg).1, none, []⟩, (r.insert reg).2)
  | .remove id => (⟨c, none, none, []⟩, r.remove id)
  | .subscribe id patterns =>
    match r.subscribe id patterns with
    | .error msg => (⟨c, none, some msg, []⟩, r)
    | .ok r => (⟨c, none, none, []⟩, r)
  | .unsubscribe id patterns => (⟨c, none, none, []⟩, r.unsubscribe id patterns)
  | .fanout call =>
    (⟨c, none, none, (r.fanout valueLen textLen call).1⟩, (r.fanout valueLen textLen call).2)

/-- The entries of a history and the registry after it. -/
def history (r : SubscriberRegistry) (cs : List Call) : List Entry × SubscriberRegistry :=
  cs.foldl (fun (entries, r) c =>
    let (entry, r) := answer valueLen textLen r c
    (entries ++ [entry], r)) ([], r)

end

/-! ## What a connection should see -/

def validPattern (pattern : String) : Bool := (validatePattern pattern).isOk

/-- Its registration, the patterns it holds and the events it is to be offered. -/
structure View where
  registration : SubscriberRegistration
  patterns : List String
  offered : List StampedEvent

/-- New patterns come last, each once. -/
def View.add (v : View) (patterns : List String) : View :=
  { v with patterns := v.patterns ++ (patterns.filter (· ∉ v.patterns)).eraseDups }

def View.drop (v : View) (patterns : List String) : View :=
  { v with patterns := v.patterns.filter (· ∉ patterns) }

def View.wants (v : View) (channel : String) : Bool :=
  v.patterns.any fun pattern => match channelMatches channel pattern with
    | .ok matched => matched
    | .error _ => false

/-- The view of connection `id` after one more entry. A message with an invalid pattern is
not accepted. -/
def View.next (id : Nat) (v : Option View) (e : Entry) : Option View :=
  match e.call with
  | .insert reg => if e.inserted = some id then some ⟨reg, [], []⟩ else v
  | .remove other => if other = id then none else v
  | .subscribe other patterns =>
    if other = id ∧ patterns.all validPattern then v.map fun v => v.add patterns else v
  | .unsubscribe other patterns => if other = id then v.map fun v => v.drop patterns else v
  | .fanout _ => v.map fun v =>
    { v with offered := v.offered ++ e.frames.filter fun frame => v.wants frame.channel }

def viewOf (id : Nat) (entries : List Entry) : Option View :=
  entries.foldl (View.next id) none

/-- The connection is as its view says: the same patterns, and one `push_event` for every
event offered. -/
structure Shows (textLen : SubServerMsg → Nat) (sub : Subscriber) (v : View) : Prop where
  patterns : sub.patterns.map Pattern.value = v.patterns
  nodup : v.patterns.Nodup
  queue : sub.queue = v.registration.queue.pushEvents textLen (v.offered.map .event)

/-- Both are gone, or the one shows the other. -/
def Agree (textLen : SubServerMsg → Nat) : Option Subscriber → Option View → Prop
  | none, none => True
  | some sub, some v => Shows textLen sub v
  | _, _ => False

/-- What the caller was told: a `subscribe` fails exactly if a pattern is invalid, and a
`fanout` serializes one frame for each event of its batch, in order. -/
def Entry.Told (e : Entry) : Prop :=
  match e.call with
  | .subscribe _ patterns => e.error.isSome = !patterns.all validPattern
  | .fanout call => e.frames.map eventOf = call.events
  | _ => True

/-! ## The operations -/

variable {valueLen : StoredEvent → Nat} {textLen : SubServerMsg → Nat} {r : SubscriberRegistry}
  {sub : Subscriber} {v : View}

theorem pattern_new_ok {value : String} {p : Pattern} (h : Pattern.new value = .ok p) :
    p.value = value ∧ validPattern value = true := by
  unfold Pattern.new at h
  split at h
  · rename_i valid
    cases h
    exact ⟨rfl, by rw [validPattern, valid]; rfl⟩
  · cases h

theorem pattern_new_error {value : String} {err : ChannelError} (h : Pattern.new value = .error err) :
    validPattern value = false := by
  unfold Pattern.new at h
  split at h
  · cases h
  · rename_i invalid
    rw [validPattern, invalid]
    rfl

/-- A list parses exactly if every pattern is valid. -/
theorem parsePatterns_spec (patterns : List String) :
    (∃ msg, parsePatterns patterns = .error msg ∧ patterns.all validPattern = false) ∨
    ∃ parsed, parsePatterns patterns = .ok parsed ∧ patterns.all validPattern = true ∧
      parsed.map Pattern.value = patterns := by
  induction patterns with
  | nil => exact .inr ⟨[], rfl, rfl, rfl⟩
  | cons pattern rest ih =>
    simp only [parsePatterns, List.all_cons]
    cases first : Pattern.new pattern with
    | error err => exact .inl ⟨_, rfl, by rw [pattern_new_error first]; rfl⟩
    | ok p =>
      obtain ⟨value, valid⟩ := pattern_new_ok first
      rw [valid, Bool.true_and]
      obtain ⟨msg, more, invalid⟩ | ⟨parsed, more, allValid, same⟩ := ih
      · exact .inl ⟨msg, by rw [more], invalid⟩
      · exact .inr ⟨p :: parsed, by rw [more], allValid, by rw [List.map_cons, value, same]⟩

theorem mem_map_value {ps : List Pattern} {p : Pattern} : p.value ∈ ps.map Pattern.value ↔ p ∈ ps := by
  rw [List.mem_map]
  constructor
  · rintro ⟨q, mem, eq⟩
    cases p
    cases q
    cases eq
    exact mem
  · exact fun mem => ⟨p, mem, rfl⟩

/-- Pushing what is not there yet adds each new pattern once, in order. -/
theorem addPatterns_values (existing parsed : List Pattern) :
    (addPatterns existing parsed).map Pattern.value = existing.map Pattern.value ++
      ((parsed.map Pattern.value).filter (· ∉ existing.map Pattern.value)).eraseDups := by
  unfold addPatterns
  induction parsed generalizing existing with
  | nil => simp
  | cons p rest ih =>
    rw [List.foldl_cons, ih]
    by_cases mem : p ∈ existing
    · have known : p.value ∈ existing.map Pattern.value := mem_map_value.mpr mem
      simp only [if_pos mem, List.map_cons, List.filter_cons, known, not_true_eq_false, decide_false,
        Bool.false_eq_true, if_false]
    · have new : p.value ∉ existing.map Pattern.value := fun h => mem (mem_map_value.mp h)
      simp only [if_neg mem, List.map_cons, List.filter_cons, new, not_false_eq_true, decide_true,
        if_true, List.eraseDups_cons, List.map_append, List.map_nil, List.append_assoc,
        List.singleton_append, List.filter_filter]
      congr 4
      funext q
      simp only [List.mem_append, List.mem_singleton]
      by_cases eq : q = p.value <;> simp [eq]

theorem addPatterns_nodup {existing : List Pattern} (parsed : List Pattern)
    (nodup : (existing.map Pattern.value).Nodup) :
    ((addPatterns existing parsed).map Pattern.value).Nodup := by
  unfold addPatterns
  induction parsed generalizing existing with
  | nil => exact nodup
  | cons p rest ih =>
    rw [List.foldl_cons]
    apply ih
    split
    · exact nodup
    · rename_i new
      rw [List.map_append]
      refine List.nodup_append.mpr ⟨nodup, List.pairwise_singleton _ _, ?_⟩
      rintro held mem value eq rfl
      rw [List.map_singleton, List.mem_singleton] at eq
      exact new (mem_map_value.mp (eq ▸ mem))

/-- A pattern is dropped by its value. -/
theorem dropPatterns_values (existing : List Pattern) (patterns : List String) :
    (existing.filter fun p => !patterns.any (· == p.value)).map Pattern.value =
      (existing.map Pattern.value).filter (· ∉ patterns) := by
  rw [List.filter_map]
  congr 1
  apply List.filter_congr
  intro p _
  simp [List.any_beq']

theorem wants_eq_anyMatches (shows : Shows textLen sub v) (channel : String) :
    v.wants channel = anyMatches sub.patterns channel := by
  rw [View.wants, ← shows.patterns, List.any_map]
  rfl

/-! ## What a call does to one connection -/

theorem shows_add {parsed : List Pattern} (shows : Shows textLen sub v) :
    Shows textLen { sub with patterns := addPatterns sub.patterns parsed }
      (v.add (parsed.map Pattern.value)) where
  patterns := by
    rw [addPatterns_values, shows.patterns]
    rfl
  nodup := by
    have nodup := addPatterns_nodup parsed (shows.patterns ▸ shows.nodup)
    rwa [addPatterns_values, shows.patterns] at nodup
  queue := shows.queue

theorem shows_drop (shows : Shows textLen sub v) (patterns : List String) :
    Shows textLen
      { sub with patterns := sub.patterns.filter fun p => !patterns.any (· == p.value) }
      (v.drop patterns) where
  patterns := by
    rw [dropPatterns_values, shows.patterns]
    rfl
  nodup := shows.nodup.filter _
  queue := shows.queue

/-- The batch is offered as the patterns held then decide. -/
theorem shows_deliver (shows : Shows textLen sub v) (frames : List StampedEvent) :
    Shows textLen (frames.foldl (offer textLen) sub)
      { v with offered := v.offered ++ frames.filter fun frame => v.wants frame.channel } := by
  rw [foldl_offer]
  refine ⟨shows.patterns, shows.nodup, ?_⟩
  have same : offeredTo sub frames = frames.filter fun frame => v.wants frame.channel := by
    apply List.filter_congr
    intro frame _
    rw [wants_eq_anyMatches shows]
  dsimp only
  rw [same, shows.queue, List.map_append, OutboundQueue.pushEvents, OutboundQueue.pushEvents,
    OutboundQueue.pushEvents, List.foldl_append]

theorem agree_map {entry : Option Subscriber} {view : Option View} {f : Subscriber → Subscriber}
    {g : View → View} (agree : Agree textLen entry view)
    (keeps : ∀ sub v, Shows textLen sub v → Shows textLen (f sub) (g v)) :
    Agree textLen (entry.map f) (view.map g) := by
  cases entry <;> cases view
  · trivial
  · exact agree.elim
  · exact agree.elim
  · exact keeps _ _ agree

/-- One frame for each event of the batch. -/
theorem fanout_events (r : SubscriberRegistry) (call : FanoutCall) :
    (r.fanout valueLen textLen call).1.map eventOf = call.events := by
  unfold fanout
  split
  · rename_i empty
    rw [empty]
    rfl
  · dsimp only
    unfold stamp
    split
    · split
      · rename_i appended
        rw [(append_ok appended).1, stampRows_events]
      · exact stampInMemory_events _ _ _ _
    · exact stampInMemory_events _ _ _ _

theorem get?_fanout (r : SubscriberRegistry) (call : FanoutCall) (id : Nat) :
    (r.fanout valueLen textLen call).2.subscribers.get? id =
      (r.subscribers.get? id).map fun sub =>
        (r.fanout valueLen textLen call).1.foldl (offer textLen) sub := by
  unfold fanout
  split
  · simp
  · dsimp only
    rw [get?_deliver, stamp_subscribers]

/-- A subscribe with an invalid pattern returns an error and the registry as it was. -/
theorem answer_invalid (r : SubscriberRegistry) (id : Nat) {patterns : List String}
    (invalid : patterns.all validPattern = false) :
    ∃ msg, answer valueLen textLen r (.subscribe id patterns) =
      (⟨.subscribe id patterns, none, some msg, []⟩, r) := by
  obtain ⟨msg, fails, _⟩ | ⟨parsed, _, valid, _⟩ := parsePatterns_spec patterns
  · exact ⟨msg, by simp only [answer, subscribe, fails]⟩
  · rw [invalid] at valid
    cases valid

theorem answer_told (r : SubscriberRegistry) (c : Call) : (answer valueLen textLen r c).1.Told := by
  cases c with
  | insert reg => trivial
  | remove id => trivial
  | subscribe id patterns =>
    obtain ⟨msg, fails, invalid⟩ | ⟨parsed, parses, valid, _⟩ := parsePatterns_spec patterns
    · simp [answer, subscribe, fails, Entry.Told, invalid]
    · simp [answer, subscribe, parses, Entry.Told, valid]
  | unsubscribe id patterns => trivial
  | fanout call => exact fanout_events r call

/-- Every call keeps each connection as its view says. -/
theorem answer_agree {view : Option View} {id : Nat} (c : Call)
    (agree : Agree textLen (r.subscribers.get? id) view) :
    Agree textLen ((answer valueLen textLen r c).2.subscribers.get? id)
      (View.next id view (answer valueLen textLen r c).1) := by
  cases c with
  | insert reg =>
    simp only [answer, SubscriberRegistry.insert, View.next, OrdMap.get?_insert, Option.some.injEq,
      eq_comm (a := id)]
    split
    · exact ⟨rfl, .nil, rfl⟩
    · exact agree
  | remove other =>
    simp only [answer, remove, View.next, OrdMap.get?_erase, eq_comm (a := id)]
    split
    · trivial
    · exact agree
  | subscribe other patterns =>
    obtain ⟨msg, fails, invalid⟩ | ⟨parsed, parses, valid, rfl⟩ := parsePatterns_spec patterns
    · simp only [answer, subscribe, fails, View.next, invalid, Bool.false_eq_true, and_false,
        if_false]
      exact agree
    · simp only [answer, subscribe, parses, View.next, valid, and_true, get?_modify,
        eq_comm (a := id)]
      split
      · rename_i self
        rw [self]
        exact agree_map agree fun _ _ => shows_add
      · exact agree
  | unsubscribe other patterns =>
    simp only [answer, unsubscribe, View.next, get?_modify, eq_comm (a := id)]
    split
    · rename_i self
      rw [self]
      exact agree_map agree fun _ _ shows => shows_drop shows patterns
    · exact agree
  | fanout call =>
    simp only [answer, View.next, get?_fanout]
    exact agree_map agree fun _ _ shows => shows_deliver shows _

/-! ## Whole histories -/

theorem history_append (r : SubscriberRegistry) (cs : List Call) (c : Call) :
    history valueLen textLen r (cs ++ [c]) =
      ((history valueLen textLen r cs).1 ++
        [(answer valueLen textLen (history valueLen textLen r cs).2 c).1],
      (answer valueLen textLen (history valueLen textLen r cs).2 c).2) := by
  simp only [history, List.foldl_append, List.foldl_cons, List.foldl_nil]

theorem answer_call (r : SubscriberRegistry) (c : Call) :
    (answer valueLen textLen r c).1.call = c := by
  cases c with
  | subscribe id patterns =>
    simp only [answer]
    split <;> rfl
  | _ => rfl

/-- After any history every connection holds the patterns of its accepted messages, each
once, and was offered the events that matched them, one frame an event, the same frame as
every other connection. A subscribe with an invalid pattern fails and changes nothing. -/
theorem fanout_delivers_matches (valueLen : StoredEvent → Nat) (textLen : SubServerMsg → Nat)
    (delivery : Option Shared) (cs : List Call) :
    let (entries, r) := history valueLen textLen (start delivery) cs
    entries.map Entry.call = cs ∧ (∀ e ∈ entries, e.Told) ∧
      (∀ id, Agree textLen (r.subscribers.get? id) (viewOf id entries)) ∧
      ∀ id patterns, patterns.all validPattern = false →
        ∃ msg, answer valueLen textLen r (.subscribe id patterns) =
          (⟨.subscribe id patterns, none, some msg, []⟩, r) := by
  dsimp only
  refine ⟨?_, ?_, ?_, fun id _ invalid => answer_invalid _ id invalid⟩
  -- each by induction on the history, whose last call is answered from the registry before it
  · induction cs using List.reverseRecOn with
    | nil => rfl
    | append_singleton cs c ih =>
      rw [history_append, List.map_append, ih, List.map_singleton, answer_call]
  · induction cs using List.reverseRecOn with
    | nil => exact fun _ mem => absurd mem List.not_mem_nil
    | append_singleton cs c ih =>
      rw [history_append]
      intro e mem
      obtain mem | mem := List.mem_append.mp mem
      · exact ih e mem
      · rw [List.mem_singleton.mp mem]
        exact answer_told _ c
  · intro id
    induction cs using List.reverseRecOn with
    | nil => trivial
    | append_singleton cs c ih =>
      rw [history_append, viewOf, List.foldl_append]
      exact answer_agree c ih

end Whdr.RegistryHistory
