import Whdr.Server.TokenText

/-! Every history of successful token commands on one file, with reloads in between: who a
presented token is, which commands are refused, and what stands in the file. -/
namespace Whdr.TokenStore

/-- What the caller of a successful command saw. -/
inductive Event
  | issued (name token : String)
  | revoked (name : String)
  | reloaded
  deriving DecidableEq, Repr

def Event.name : Event → Option String
  | .issued name _ | .revoked name => some name
  | .reloaded => none

def Event.token : Event → Option String
  | .issued _ token => some token
  | .revoked _ | .reloaded => none

/-- The store in memory and its file. -/
structure Site where
  store : Store
  disk : Disk

section
variable (toml : Toml) (sha256 : String → List UInt8) (path : StorePath)

/-- From no file on, commands that succeeded and loads of the file they wrote. -/
inductive History : List Event → Site → Prop
  | start (tmp : Option DiskFile) : History [] ⟨⟨path, .empty⟩, ⟨none, tmp⟩⟩
  | add {events : List Event} {site : Site} {store : Store} {disk : Disk} {name token : String}
      (draw : Draw) : History events site →
      site.store.mutate toml (hashToken sha256) (.add name draw.minted) none site.disk =
        (.ok (some token), store, disk) →
      History (events ++ [.issued name token]) ⟨store, disk⟩
  | rotate {events : List Event} {site : Site} {store : Store} {disk : Disk}
      {name token : String} (draw : Draw) : History events site →
      site.store.mutate toml (hashToken sha256) (.rotate name draw.minted) none site.disk =
        (.ok (some token), store, disk) →
      History (events ++ [.issued name token]) ⟨store, disk⟩
  | revoke {events : List Event} {site : Site} {store : Store} {disk : Disk} {name : String} :
      History events site →
      site.store.mutate toml (hashToken sha256) (.revoke name) none site.disk =
        (.ok none, store, disk) →
      History (events ++ [.revoked name]) ⟨store, disk⟩
  | reload {events : List Event} {site : Site} {store : Store} : History events site →
      loadOrEmpty toml site.store.path site.disk = .ok store →
      History (events ++ [.reloaded]) { site with store := store }

/-- The command returns an error, with every write to the file succeeding. -/
def Fails (site : Site) (m : Mutation) : Prop :=
  ∃ msg, (site.store.mutate toml (hashToken sha256) m none site.disk).1 = .err msg

end

/-- The token is the one of the latest issue for the name, and the name was not revoked
after it. -/
def Holder (events : List Event) (name token : String) : Prop :=
  ∃ before after, events = before ++ .issued name token :: after ∧
    ∀ later ∈ after, later.name ≠ some name

def Existing (events : List Event) (name : String) : Prop := ∃ token, Holder events name token

/-- No two of these strings have one digest. -/
def CollisionFree (sha256 : String → List UInt8) (strings : List String) : Prop :=
  ∀ s ∈ strings, ∀ t ∈ strings, hashToken sha256 s = hashToken sha256 t → s = t

instance (sha256 : String → List UInt8) (strings : List String) :
    Decidable (CollisionFree sha256 strings) := inferInstanceAs (Decidable (∀ s ∈ strings, _))

variable {toml : Toml} {sha256 : String → List UInt8} {path : StorePath}
  {events : List Event} {site : Site} {store : Store} {disk : Disk} {name token : String}
  {tokens new : Tokens}

/-! ## Who holds a name -/

theorem holder_append (event : Event) :
    Holder (events ++ [event]) name token ↔
      event = .issued name token ∨ (event.name ≠ some name ∧ Holder events name token) := by
  constructor
  · rintro ⟨before, after, eq, quiet⟩
    induction after using List.reverseRecOn with
    | nil =>
      obtain ⟨_, same⟩ := List.append_inj' eq rfl
      exact .inl (List.cons.inj same).1
    | append_singleton after last _ =>
      rw [← List.cons_append, ← List.append_assoc] at eq
      obtain ⟨same, tail⟩ := List.append_inj' eq rfl
      cases tail
      have notLast := quiet event (by simp)
      exact .inr ⟨notLast, before, after, same, fun later mem => quiet later (by simp [mem])⟩
  · rintro (rfl | ⟨other, before, after, rfl, quiet⟩)
    · exact ⟨events, [], rfl, by simp⟩
    · refine ⟨before, after ++ [event], by simp, ?_⟩
      intro later mem
      obtain mem | mem := List.mem_append.mp mem
      · exact quiet later mem
      · rw [List.mem_singleton.mp mem]
        exact other

theorem Holder.mem_tokens (holder : Holder events name token) :
    token ∈ events.filterMap Event.token := by
  obtain ⟨before, after, rfl, _⟩ := holder
  simp [Event.token]

/-- Distinct tokens have one holder each. -/
theorem Holder.unique {other : String} (distinct : (events.filterMap Event.token).Nodup)
    (holder : Holder events name token) (holder' : Holder events other token) :
    name = other := by
  induction events using List.reverseRecOn with
  | nil =>
    obtain ⟨before, after, eq, _⟩ := holder
    simp at eq
  | append_singleton events event ih =>
    rw [List.filterMap_append, List.nodup_append] at distinct
    obtain ⟨distinct, -, apart⟩ := distinct
    rw [holder_append] at holder holder'
    -- an old token cannot be the one just issued
    have fresh : ∀ {n m}, Holder events n token → event ≠ .issued m token := by
      rintro n m old rfl
      exact apart token old.mem_tokens token (by simp [Event.token]) rfl
    obtain rfl | ⟨_, old⟩ := holder
    · obtain same | ⟨_, old⟩ := holder'
      · exact (Event.issued.inj same).1
      · exact absurd rfl (fresh old)
    · obtain same | ⟨_, old'⟩ := holder'
      · exact absurd same (fresh old)
      · exact ih distinct old old'

/-! ## One command -/

/-- A command that succeeded edited the map, handed back its token and wrote the file. -/
theorem mutate_ok {s : Store} {m : Mutation} {old : Disk} {reply : Option String}
    {hash : String → String}
    (done : s.mutate toml hash m none old = (.ok reply, store, disk)) :
    ∃ new, m.edit hash s.tokens = .ok new ∧ reply = m.token ∧
      store = { s with tokens := new } ∧ disk.file = some ⟨toml.toStringPretty new, 0o600⟩ := by
  cases edit : m.edit hash s.tokens with
  | error msg =>
    rw [mutate_refused edit] at done
    cases done
  | ok new =>
    rw [mutate_edited edit] at done
    obtain ⟨outcome, rfl, rfl⟩ : _ ∧ _ ∧ _ := by simpa only [Prod.mk.injEq] using done
    refine ⟨new, rfl, ?_, rfl, persist_file _ none old⟩
    rw [persist_outcome] at outcome
    exact (Outcome.ok.inj outcome).symm

theorem fails_iff {m : Mutation} :
    Fails toml sha256 site m ↔ ∃ msg, m.edit (hashToken sha256) site.store.tokens = .error msg := by
  cases edit : m.edit (hashToken sha256) site.store.tokens with
  | error msg =>
    simp only [Fails, mutate_refused edit, Outcome.err.injEq, Except.error.injEq]
  | ok new =>
    simp only [Fails, mutate_edited edit, persist_outcome, Outcome.map, reduceCtorEq, exists_false]

/-- The map holds a record for each name that has a holder, and no other. -/
structure Records (sha256 : String → List UInt8) (events : List Event) (tokens : Tokens) :
    Prop where
  held : ∀ n t, Holder events n t →
    ∃ record, tokens.get? n = some record ∧ record.hash = hashToken sha256 t
  record : ∀ n record, tokens.get? n = some record →
    validateName n = .ok () ∧ record.created.toList.all rfc3339Char = true ∧
      ∃ t, Holder events n t ∧ record.hash = hashToken sha256 t

theorem Records.written (records : Records sha256 events tokens) (n : String)
    (record : TokenRecord) (found : tokens.get? n = some record) : Written sha256 record := by
  obtain ⟨-, time, t, -, hash⟩ := records.record n record found
  exact ⟨⟨t, hash⟩, time⟩

theorem Records.plain (records : Records sha256 events tokens) : Plain tokens :=
  plain_of_written (fun n record found => (records.record n record found).1) records.written

theorem Records.existing_iff (records : Records sha256 events tokens) (n : String) :
    Existing events n ↔ ∃ record, tokens.get? n = some record := by
  constructor
  · rintro ⟨t, holder⟩
    obtain ⟨record, found, -⟩ := records.held n t holder
    exact ⟨record, found⟩
  · rintro ⟨record, found⟩
    obtain ⟨-, -, t, holder, -⟩ := records.record n record found
    exact ⟨t, holder⟩

/-- An add and a rotate bind the name to the fresh record. -/
theorem Records.issue (records : Records sha256 events tokens)
    (valid : validateName name = .ok ()) (draw : Draw) :
    Records sha256 (events ++ [.issued name draw.minted.token])
      (tokens.insert name (recordFor (hashToken sha256) draw.minted)) := by
  constructor
  · intro n t holder
    rw [OrdMap.get?_insert]
    obtain same | ⟨other, old⟩ := (holder_append _).mp holder
    · obtain ⟨rfl, rfl⟩ := Event.issued.inj same
      exact ⟨_, if_pos rfl, rfl⟩
    · have ne : n ≠ name := by
        rintro rfl
        exact other rfl
      rw [if_neg ne]
      exact records.held n t old
  · intro n record found
    rw [OrdMap.get?_insert] at found
    split at found
    · rename_i eq
      cases found
      exact ⟨eq ▸ valid, draw.time, draw.minted.token,
        (holder_append _).mpr (.inl (by rw [eq])), rfl⟩
    · rename_i ne
      obtain ⟨validN, time, t, holder, hash⟩ := records.record n record found
      have other : (Event.issued name draw.minted.token).name ≠ some n := by
        simpa [Event.name] using Ne.symm ne
      exact ⟨validN, time, t, (holder_append _).mpr (.inr ⟨other, holder⟩), hash⟩

theorem Records.revoke (records : Records sha256 events tokens) :
    Records sha256 (events ++ [.revoked name]) (tokens.erase name) := by
  constructor
  · intro n t holder
    rw [OrdMap.get?_erase]
    obtain same | ⟨other, old⟩ := (holder_append _).mp holder
    · cases same
    · have ne : n ≠ name := by
        rintro rfl
        exact other rfl
      rw [if_neg ne]
      exact records.held n t old
  · intro n record found
    rw [OrdMap.get?_erase] at found
    split at found
    · cases found
    · rename_i ne
      obtain ⟨validN, time, t, holder, hash⟩ := records.record n record found
      have other : (Event.revoked name).name ≠ some n := by
        simpa [Event.name] using Ne.symm ne
      exact ⟨validN, time, t, (holder_append _).mpr (.inr ⟨other, holder⟩), hash⟩

theorem Records.reload (records : Records sha256 events tokens) :
    Records sha256 (events ++ [.reloaded]) tokens := by
  constructor
  · intro n t holder
    obtain same | ⟨-, old⟩ := (holder_append _).mp holder
    · cases same
    · exact records.held n t old
  · intro n record found
    obtain ⟨valid, time, t, holder, hash⟩ := records.record n record found
    exact ⟨valid, time, t, (holder_append _).mpr (.inr ⟨nofun, holder⟩), hash⟩

/-! ## Whole histories -/

/-- The records follow the events, and the file is the map's text. -/
structure Agrees (sha256 : String → List UInt8) (path : StorePath) (events : List Event)
    (site : Site) : Prop where
  path : site.store.path = path
  records : Records sha256 events site.store.tokens
  file : (site.disk.file = none ∧ site.store.tokens = .empty) ∨
    site.disk.file = some ⟨tomlText site.store.tokens, 0o600⟩

theorem agrees_start (tmp : Option DiskFile) :
    Agrees sha256 path [] ⟨⟨path, .empty⟩, ⟨none, tmp⟩⟩ := by
  refine ⟨rfl, ⟨?_, ?_⟩, .inl ⟨rfl, rfl⟩⟩
  · rintro n t ⟨before, after, eq, _⟩
    simp at eq
  · intro n record found
    rw [OrdMap.get?_empty] at found
    cases found

/-- A command that wrote records leaves their text in the file. -/
theorem agrees_written (crate : toml.Documented) (records : Records sha256 events new)
    (file : disk.file = some ⟨toml.toStringPretty new, 0o600⟩) :
    Agrees sha256 path events ⟨⟨path, new⟩, disk⟩ := by
  refine ⟨rfl, records, .inr ?_⟩
  rw [file, crate.text new records.plain]

/-- A load finds the map that is in memory. -/
theorem Agrees.loads (crate : toml.Documented) (agrees : Agrees sha256 path events site) :
    loadOrEmpty toml path site.disk = .ok site.store := by
  obtain ⟨⟨storePath, tokens⟩, disk⟩ := site
  obtain ⟨rfl, records, ⟨file, rfl⟩ | file⟩ := agrees
  · change disk.file = none at file
    simp only [loadOrEmpty, file]
  · rw [← crate.text tokens records.plain] at file
    exact holds_of_written (crate.roundTrips records.plain) file

theorem history_agrees (crate : toml.Documented) (history : History toml sha256 path events site) :
    Agrees sha256 path events site := by
  induction history with
  | start tmp => exact agrees_start tmp
  | add draw _ done ih =>
    obtain ⟨new, edit, reply, rfl, file⟩ := mutate_ok done
    obtain ⟨name, minted, same, valid, absent, rfl⟩ | ⟨_, _, _, same, _⟩ | ⟨_, _, same, _⟩ :=
      edit_ok edit
    · cases same
      cases reply
      rw [ih.path]
      exact agrees_written crate (ih.records.issue valid draw) file
    · cases same
    · cases same
  | rotate draw _ done ih =>
    obtain ⟨new, edit, reply, rfl, file⟩ := mutate_ok done
    obtain ⟨_, _, same, _⟩ | ⟨name, minted, record, same, valid, found, rfl⟩ | ⟨_, _, same, _⟩ :=
      edit_ok edit
    · cases same
    · cases same
      cases reply
      rw [ih.path]
      exact agrees_written crate (ih.records.issue valid draw) file
    · cases same
  | revoke _ done ih =>
    obtain ⟨new, edit, reply, rfl, file⟩ := mutate_ok done
    obtain ⟨_, _, same, _⟩ | ⟨_, _, _, same, _⟩ | ⟨name, record, same, found, rfl⟩ := edit_ok edit
    · cases same
    · cases same
    · cases same
      rw [ih.path]
      exact agrees_written crate ih.records.revoke file
  | reload _ loaded ih =>
    rw [ih.path, ih.loads crate] at loaded
    cases loaded
    exact ⟨ih.path, ih.records.reload, ih.file⟩

/-- The entry a presented token is found under is its holder's. -/
theorem Records.holder_of_hash (records : Records sha256 events tokens)
    (free : CollisionFree sha256 (token :: events.filterMap Event.token)) {record : TokenRecord}
    (found : tokens.get? name = some record) (hash : record.hash = hashToken sha256 token) :
    Holder events name token := by
  obtain ⟨-, -, t, holder, written⟩ := records.record name record found
  have same := free t (List.mem_cons_of_mem _ holder.mem_tokens) token List.mem_cons_self
    (written.symm.trans hash)
  exact same ▸ holder

theorem authenticate_iff (records : Records sha256 events store.tokens)
    (distinct : (events.filterMap Event.token).Nodup)
    (free : CollisionFree sha256 (token :: events.filterMap Event.token)) :
    store.authenticate (hashToken sha256) token = some name ↔ Holder events name token := by
  let matching : String × TokenRecord → Bool := fun e => e.2.hash == hashToken sha256 token
  have owns : ∀ e, store.tokens.entries.find? matching = some e → Holder events e.1 token := by
    rintro ⟨n, record⟩ found
    have hash := List.find?_some found
    have bound := (store.tokens.get?_eq_some_iff n record).mpr (List.mem_of_find?_eq_some found)
    exact records.holder_of_hash free bound (beq_iff_eq.mp hash)
  change (store.tokens.entries.find? matching).map Prod.fst = some name ↔ _
  rw [Option.map_eq_some_iff]
  constructor
  · rintro ⟨e, found, rfl⟩
    exact owns e found
  · intro holder
    obtain ⟨record, bound, hash⟩ := records.held name token holder
    have mem := (store.tokens.get?_eq_some_iff name record).mp bound
    have matches_ : matching (name, record) = true := beq_iff_eq.mpr hash
    obtain ⟨e, found⟩ := Option.isSome_iff_exists.mp
      (List.find?_isSome.mpr ⟨(name, record), mem, matches_⟩)
    exact ⟨e, found, (owns e found).unique distinct holder⟩

theorem add_fails_iff (records : Records sha256 events site.store.tokens) (minted : Minted) :
    Fails toml sha256 site (.add name minted) ↔
      validateName name ≠ .ok () ∨ Existing events name := by
  rw [fails_iff, records.existing_iff]
  cases valid : validateName name with
  | error msg => simp [Mutation.edit, valid]
  | ok _ =>
    cases found : site.store.tokens.get? name with
    | none => simp [Mutation.edit, valid, found]
    | some record => simp [Mutation.edit, valid, found]

/-- The names in the map are valid, so the check of the name refuses no rotation. -/
theorem rotate_fails_iff (records : Records sha256 events site.store.tokens) (minted : Minted) :
    Fails toml sha256 site (.rotate name minted) ↔ ¬ Existing events name := by
  rw [fails_iff, records.existing_iff]
  cases found : site.store.tokens.get? name with
  | none =>
    cases valid : validateName name with
    | error msg => simp [Mutation.edit, valid]
    | ok _ => simp [Mutation.edit, valid, found]
  | some record =>
    have valid := (records.record name record found).1
    simp [Mutation.edit, valid, found]

theorem revoke_fails_iff (records : Records sha256 events site.store.tokens) :
    Fails toml sha256 site (.revoke name) ↔ ¬ Existing events name := by
  rw [fails_iff, records.existing_iff]
  cases found : site.store.tokens.get? name with
  | none => simp [Mutation.edit, found]
  | some record => simp [Mutation.edit, found]

theorem token_inside_name (agrees : Agrees sha256 path events site) (bytes : List UInt8)
    {file : DiskFile} (written : site.disk.file = some file)
    (inside : (mintToken bytes).toList <:+: file.text.toList) :
    ∃ n, Existing events n ∧ (mintToken bytes).toList <:+: n.toList := by
  obtain ⟨none, _⟩ | text := agrees.file
  · rw [none] at written
    cases written
  · rw [text] at written
    cases written
    obtain ⟨n, record, found, within⟩ := token_in_text bytes agrees.records.written inside
    exact ⟨n, (agrees.records.existing_iff n).mpr ⟨record, found⟩, within⟩

theorem issued_minted (history : History toml sha256 path events site) :
    ∀ t ∈ events.filterMap Event.token, ∃ bytes : List UInt8, t = mintToken bytes := by
  induction history with
  | start tmp => simp
  | add draw _ done ih | rotate draw _ done ih =>
    obtain ⟨new, edit, reply, -, -⟩ := mutate_ok done
    cases reply
    intro t mem
    rw [List.filterMap_append, List.mem_append] at mem
    obtain old | fresh := mem
    · exact ih t old
    · exact ⟨draw.bytes, List.mem_singleton.mp fresh⟩
  | revoke _ _ ih | reload _ _ ih =>
    intro t mem
    rw [List.filterMap_append, List.mem_append] at mem
    obtain old | fresh := mem
    · exact ih t old
    · simp [Event.token] at fresh

/-- After every history a token authenticates its holder and nobody else, an add fails
exactly for invalid and existing names, a rotate and a revoke for those that do not exist,
and a token value stands in the file only inside the name of an existing token. -/
theorem authentication_follows_history (toml : Toml) (sha256 : String → List UInt8)
    (path : StorePath) (events : List Event) (site : Site) (crate : toml.Documented)
    (history : History toml sha256 path events site)
    (distinct : (events.filterMap Event.token).Nodup) :
    (∀ t n, CollisionFree sha256 (t :: events.filterMap Event.token) →
      (site.store.authenticate (hashToken sha256) t = some n ↔ Holder events n t)) ∧
    (∀ n (draw : Draw), Fails toml sha256 site (.add n draw.minted) ↔
      validateName n ≠ .ok () ∨ Existing events n) ∧
    (∀ n (draw : Draw), Fails toml sha256 site (.rotate n draw.minted) ↔ ¬ Existing events n) ∧
    (∀ n, Fails toml sha256 site (.revoke n) ↔ ¬ Existing events n) ∧
    (∀ t ∈ events.filterMap Event.token, ∃ bytes : List UInt8, t = mintToken bytes) ∧
    ∀ file, site.disk.file = some file → ∀ bytes : List UInt8,
      (mintToken bytes).toList <:+: file.text.toList →
      ∃ n, Existing events n ∧ (mintToken bytes).toList <:+: n.toList := by
  have agrees := history_agrees crate history
  refine ⟨?_, ?_, ?_, ?_, issued_minted history, ?_⟩
  · intro t n free
    exact authenticate_iff agrees.records distinct free
  · intro n draw
    exact add_fails_iff agrees.records draw.minted
  · intro n draw
    exact rotate_fails_iff agrees.records draw.minted
  · intro n
    exact revoke_fails_iff agrees.records
  · intro file written bytes inside
    exact token_inside_name agrees bytes written inside

/-! ## Two tokens -/

theorem History.add_goes_on (history : History toml sha256 path events site) (name : String)
    (draw : Draw) (fine : ¬ Fails toml sha256 site (.add name draw.minted)) :
    ∃ next, History toml sha256 path (events ++ [.issued name draw.minted.token]) next := by
  cases edit : Mutation.edit (hashToken sha256) site.store.tokens (.add name draw.minted) with
  | error msg => exact absurd (fails_iff.mpr ⟨msg, edit⟩) fine
  | ok new => exact ⟨_, .add draw history (mutate_edited edit)⟩

theorem History.rotate_goes_on (history : History toml sha256 path events site) (name : String)
    (draw : Draw) (fine : ¬ Fails toml sha256 site (.rotate name draw.minted)) :
    ∃ next, History toml sha256 path (events ++ [.issued name draw.minted.token]) next := by
  cases edit : Mutation.edit (hashToken sha256) site.store.tokens (.rotate name draw.minted) with
  | error msg => exact absurd (fails_iff.mpr ⟨msg, edit⟩) fine
  | ok new => exact ⟨_, .rotate draw history (mutate_edited edit)⟩

def firstToken : String := "tok_AAECAwQFBgcICQoLDA0ODxAREhMUFRYXGBkaGxwdHh8"

def secondToken : String := "tok_ICEiIyQlJicoKSorLC0uLzAxMjM0NTY3ODk6Ozw9Pj8"

def firstDraw : Draw where
  bytes := (List.range 32).map UInt8.ofNat
  created := "2026-07-05T04:00:00.000000001+00:00"
  full := by decide
  time := by decide

def secondDraw : Draw where
  bytes := (List.range 32).map fun i => UInt8.ofNat (32 + i)
  created := "2026-07-05T04:00:01.000000001+00:00"
  full := by decide
  time := by decide

/-- The digests of the two tokens. -/
def twoDigests (token : String) : List UInt8 :=
  if token = firstToken then
    [140, 244, 137, 232, 211, 253, 43, 31, 217, 237, 61, 240, 147, 143, 55, 236, 241, 53, 187,
      243, 116, 187, 139, 57, 210, 21, 48, 202, 208, 103, 155, 101]
  else if token = secondToken then
    [233, 250, 132, 140, 148, 172, 39, 102, 9, 9, 227, 92, 40, 221, 121, 123, 118, 165, 184, 7,
      213, 184, 41, 20, 15, 232, 184, 67, 70, 60, 26, 251]
  else []

theorem firstDraw_token : firstDraw.minted.token = firstToken := by decide +kernel

theorem secondDraw_token : secondDraw.minted.token = secondToken := by decide +kernel

theorem first_issue : ∃ site, History printedToml twoDigests oneTokenPath
    [.issued "ci" firstToken] site := by
  have start : History printedToml twoDigests oneTokenPath [] _ := .start none
  have agrees := history_agrees printedToml_documented start
  have next := start.add_goes_on "ci" firstDraw <| by
    rw [add_fails_iff agrees.records]
    rintro (invalid | ⟨t, before, after, eq, _⟩)
    · exact invalid (by decide)
    · simp at eq
  exact firstDraw_token ▸ next

/-- The name of a second token is the value of the first, which is then in the file. -/
theorem name_puts_token_in_file :
    ¬ ∀ (toml : Toml) (sha256 : String → List UInt8) (path : StorePath) (events : List Event)
      (site : Site), toml.Documented → History toml sha256 path events site →
      (events.filterMap Event.token).Nodup →
      CollisionFree sha256 (events.filterMap Event.token) →
      ∀ file, site.disk.file = some file → ∀ token ∈ events.filterMap Event.token,
        ¬ token.toList <:+: file.text.toList := by
  intro claim
  obtain ⟨site, history⟩ := first_issue
  have agrees := history_agrees printedToml_documented history
  have fine : ¬ Fails printedToml twoDigests site (.add firstToken secondDraw.minted) := by
    rw [add_fails_iff agrees.records]
    rintro (invalid | ⟨t, holder⟩)
    · exact invalid (by decide +kernel)
    · change Holder ([] ++ [.issued "ci" firstToken]) firstToken t at holder
      obtain same | ⟨-, before, after, eq, -⟩ := (holder_append _).mp holder
      · exact absurd (Event.issued.inj same).1 (by decide)
      · simp at eq
  obtain ⟨next, history⟩ := history.add_goes_on firstToken secondDraw fine
  rw [secondDraw_token] at history
  have agrees := history_agrees printedToml_documented history
  obtain ⟨record, found, -⟩ := agrees.records.held firstToken secondToken
    ((holder_append _).mpr (.inl rfl))
  obtain ⟨-, empty⟩ | file := agrees.file
  · rw [empty, OrdMap.get?_empty] at found
    cases found
  · exact claim _ _ _ _ _ printedToml_documented history (by decide) (by decide +kernel) _ file
      firstToken (by decide) (name_in_text found)

/-- After a rotation the new token is its name's, and the old one is nobody's. -/
theorem authentication_follows_rotation :
    ∃ site, History printedToml twoDigests oneTokenPath
        [.issued "ci" firstToken, .issued "ci" secondToken] site ∧
      site.store.authenticate (hashToken twoDigests) secondToken = some "ci" ∧
      ∀ name, site.store.authenticate (hashToken twoDigests) firstToken ≠ some name := by
  obtain ⟨site, history⟩ := first_issue
  have agrees := history_agrees printedToml_documented history
  have fine : ¬ Fails printedToml twoDigests site (.rotate "ci" secondDraw.minted) := by
    rw [rotate_fails_iff agrees.records, not_not]
    exact ⟨firstToken, [], [], rfl, by simp⟩
  obtain ⟨next, history⟩ := history.rotate_goes_on "ci" secondDraw fine
  rw [secondDraw_token] at history
  have follows := authentication_follows_history _ _ _ _ _ printedToml_documented history
    (by decide)
  refine ⟨next, history, ?_, ?_⟩
  · exact (follows.1 secondToken "ci" (by decide +kernel)).mpr ((holder_append _).mpr (.inl rfl))
  · intro name found
    have holder := (follows.1 firstToken name (by decide +kernel)).mp found
    obtain same | ⟨other, old⟩ := (holder_append _).mp holder
    · exact absurd (Event.issued.inj same).2 (by decide)
    · change Holder ([] ++ [.issued "ci" firstToken]) name firstToken at old
      obtain same | ⟨-, before, after, eq, -⟩ := (holder_append _).mp old
      · exact other (congrArg some (Event.issued.inj same).1)
      · simp at eq

end Whdr.TokenStore
