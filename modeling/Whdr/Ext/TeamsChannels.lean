import Whdr.Ext.Channels
import Whdr.Ext.Encodings
import Whdr.Ext.Unauthenticated
import Whdr.Server.ChannelClaims

/-! Which resources of a Teams notification become channels the server accepts. -/
namespace Whdr.Ext.Teams

open Grammar (InClass Plain IsChannel validateChannel_ok_iff)

/-- What becomes a dot. -/
def separator (c : Char) : Bool := c == '/' || c == '.' || c == ':'

/-- Something other than separators, and no three separators in a row inside. -/
def Clean (resource : List Char) : Prop :=
  (∃ c ∈ resource, separator c = false) ∧
    ∀ front x y z back, resource = front ++ x :: y :: z :: back →
      separator x = true → separator y = true → separator z = true →
      (∀ c ∈ front, separator c = true) ∨ ∀ c ∈ back, separator c = true

/-- The extension registers its id and no prefix. -/
def Owned (channel : String) : Prop := validateEmittedChannel channel "teams" ["teams"] [] = .ok ()

/-! ## Pieces between dots -/

/-- Every piece after the first one has a character. -/
def later (text : List Char) : Prop := ∀ piece ∈ (text.splitOn '.').tail, piece ≠ []

/-- Every piece has a character. -/
def whole (text : List Char) : Prop := ∀ piece ∈ text.splitOn '.', piece ≠ []

variable {text rest front mid back : List Char} {c : Char}

theorem later_nil : later [] := by
  simp [later]

theorem not_whole_nil : ¬ whole [] := by
  simp [whole]

theorem later_dot : later ('.' :: rest) ↔ whole rest := by
  simp [later, whole, List.splitOn_cons_eq_if_modifyHead]

theorem not_whole_dot : ¬ whole ('.' :: rest) := by
  simp [whole, List.splitOn_cons_eq_if_modifyHead]

theorem later_char (ne : c ≠ '.') : later (c :: rest) ↔ later rest := by
  rw [later, later, List.splitOn_cons_eq_if_modifyHead, if_neg (by simpa using ne)]
  cases rest.splitOn '.' <;> rfl

theorem whole_char (ne : c ≠ '.') : whole (c :: rest) ↔ later rest := by
  rw [later, whole, List.splitOn_cons_eq_if_modifyHead, if_neg (by simpa using ne)]
  cases pieces : rest.splitOn '.' with
  | nil => exact absurd pieces (by simp)
  | cons first more => simp

/-! ## Doubled dots -/

/-- No dot at the end and no three in a row. -/
def Tame (text : List Char) : Prop := text.getLast? ≠ some '.' ∧ ¬ ['.', '.', '.'] <:+: text

theorem replaceDots_dot (single : rest.head? ≠ some '.') :
    replaceDots ('.' :: rest) = '.' :: replaceDots rest := by
  cases rest with
  | nil => rfl
  | cons d more =>
    rw [replaceDots.eq_def]
    split
    · rename_i eq
      simp only [List.cons.injEq, true_and] at eq
      exact absurd (by rw [eq.1]; rfl) single
    · rename_i eq
      simp only [List.cons.injEq] at eq
      rw [← eq.1, ← eq.2]
    · contradiction

theorem replaceDots_char (ne : c ≠ '.') : replaceDots (c :: rest) = c :: replaceDots rest := by
  rw [replaceDots.eq_def]
  split
  · rename_i eq
    exact absurd (List.cons.inj eq).1 ne
  · rename_i eq
    simp only [List.cons.injEq] at eq
    rw [← eq.1, ← eq.2]
  · contradiction

theorem replaceDots_whole :
    whole (replaceDots text) ↔ text ≠ [] ∧ text.head? ≠ some '.' ∧ later (replaceDots text) := by
  cases text with
  | nil => simp [replaceDots, not_whole_nil]
  | cons c rest =>
    by_cases dot : c = '.'
    · subst dot
      have leads : ∃ more, replaceDots ('.' :: rest) = '.' :: more := by
        cases rest with
        | nil => exact ⟨_, rfl⟩
        | cons d more =>
          by_cases double : d = '.'
          · subst double
            exact ⟨_, rfl⟩
          · exact ⟨_, replaceDots_dot (by simpa using double)⟩
      obtain ⟨more, eq⟩ := leads
      simp [eq, not_whole_dot]
    · rw [replaceDots_char dot, whole_char dot, later_char dot]
      simp [dot]

theorem getLast?_dot : ('.' :: rest).getLast? ≠ some '.' ↔ rest ≠ [] ∧ rest.getLast? ≠ some '.' := by
  cases rest with
  | nil => simp
  | cons d more => simp [List.getLast?_cons_cons]

theorem tame_char (ne : c ≠ '.') : Tame (c :: rest) ↔ Tame rest := by
  have last : (c :: rest).getLast? ≠ some '.' ↔ rest.getLast? ≠ some '.' := by
    cases rest with
    | nil => simp [ne]
    | cons d more => simp [List.getLast?_cons_cons]
  rw [Tame, Tame, last, List.infix_cons_iff]
  simp [ne.symm]

theorem tame_single (single : rest.head? ≠ some '.') :
    Tame ('.' :: rest) ↔ rest ≠ [] ∧ Tame rest := by
  have start : ¬ ['.', '.', '.'] <+: '.' :: rest := by
    rintro ⟨more, eq⟩
    exact single (by rw [← (List.cons.inj eq).2]; rfl)
  rw [Tame, Tame, getLast?_dot, List.infix_cons_iff, and_assoc]
  simp only [start, false_or]

theorem tame_double :
    Tame ('.' :: '.' :: rest) ↔ rest ≠ [] ∧ rest.head? ≠ some '.' ∧ Tame rest := by
  by_cases triple : rest.head? = some '.'
  · obtain ⟨more, rfl⟩ := List.head?_eq_some_iff.mp triple
    have dots : ['.', '.', '.'] <:+: '.' :: '.' :: '.' :: more := ⟨[], more, rfl⟩
    simp [Tame, dots]
  · have start : ¬ ['.', '.', '.'] <+: '.' :: '.' :: rest := by
      rintro ⟨more, eq⟩
      exact triple (by rw [← (List.cons.inj (List.cons.inj eq).2).2]; rfl)
    have tail := tame_single triple
    rw [Tame, getLast?_dot, List.infix_cons_iff]
    simp only [start, false_or, ne_eq, List.cons_ne_nil, not_false_eq_true, true_and]
    rw [← Tame, tail]
    simp [triple]

theorem later_replaceDots (text : List Char) : later (replaceDots text) ↔ Tame text := by
  induction text using replaceDots.induct with
  | case1 rest ih =>
    rw [replaceDots, later_dot, replaceDots_whole, ih, tame_double]
  | case2 c rest notDouble ih =>
    by_cases dot : c = '.'
    · subst dot
      have single : rest.head? ≠ some '.' := by
        intro double
        obtain ⟨more, rfl⟩ := List.head?_eq_some_iff.mp double
        exact notDouble more rfl rfl
      rw [replaceDots_dot single, later_dot, replaceDots_whole, ih, tame_single single]
      simp [single]
    · rw [replaceDots_char dot, later_char dot, ih, tame_char dot]
  | case3 => simp [replaceDots, later_nil, Tame]

/-! ## Resources -/

theorem resourceChar_dot : resourceChar c = '.' ↔ separator c = true := by
  unfold resourceChar
  split
  · rename_i isSeparator
    simpa [separator] using isSeparator
  · rename_i notSeparator
    have plain : tokenChar c ≠ '.' := by
      intro dot
      have := tokenChar_plain c
      rw [dot] at this
      exact absurd this (by decide)
    simpa [separator, plain] using notSeparator

theorem resourceChar_plain (ne : resourceChar c ≠ '.') : plainChar (resourceChar c) = true := by
  unfold resourceChar at ne ⊢
  split at ne
  · exact absurd rfl ne
  · rename_i notSeparator
    rw [if_neg notSeparator]
    exact tokenChar_plain c

/-- The resource as its characters are mapped, without the dots at its ends. -/
def trimmed (resource : List Char) : List Char := trimMatches '.' (resource.map resourceChar)

theorem mapped_dots {resource : List Char} :
    (∀ x ∈ resource.map resourceChar, x = '.') ↔ ∀ c ∈ resource, separator c = true := by
  simp [resourceChar_dot]

/-- Three dots in a row come from three separators. -/
theorem separators_of_dots {resource a b : List Char}
    (dots : resource.map resourceChar = a ++ '.' :: '.' :: '.' :: b) :
    ∃ front x y z back, resource = front ++ x :: y :: z :: back ∧ front.map resourceChar = a ∧
      back.map resourceChar = b ∧ separator x = true ∧ separator y = true ∧ separator z = true := by
  obtain ⟨front, more, rfl, atFront, rest⟩ := List.map_eq_append_iff.mp dots
  obtain ⟨x, more, rfl, isX, rest⟩ := List.map_eq_cons_iff.mp rest
  obtain ⟨y, more, rfl, isY, rest⟩ := List.map_eq_cons_iff.mp rest
  obtain ⟨z, back, rfl, isZ, atBack⟩ := List.map_eq_cons_iff.mp rest
  exact ⟨front, x, y, z, back, rfl, atFront, atBack, resourceChar_dot.mp isX,
    resourceChar_dot.mp isY, resourceChar_dot.mp isZ⟩

theorem tame_of_clean {resource : List Char} (clean : Clean resource) :
    trimmed resource ≠ [] ∧ Tame (trimmed resource) := by
  obtain ⟨⟨c, mem, notSeparator⟩, inside⟩ := clean
  obtain ⟨before, after, cut, isDot, isDot', first, last⟩ :=
    trimMatches_split '.' (resource.map resourceChar)
  rw [← trimmed] at cut first last
  refine ⟨fun none => ?_, last, ?_⟩
  · -- otherwise only dots were trimmed
    have dots : ∀ x ∈ resource.map resourceChar, x = '.' := by
      intro x isIn
      rw [cut, none, List.append_nil] at isIn
      exact (List.mem_append.mp isIn).elim (isDot x) (isDot' x)
    rw [mapped_dots.mp dots c mem] at notSeparator
    cases notSeparator
  · rintro ⟨a, b, dots⟩
    rw [← dots] at cut first last
    have spread : resource.map resourceChar =
        (before ++ a) ++ '.' :: '.' :: '.' :: (b ++ after) := by
      rw [cut]
      simp
    obtain ⟨front, x, y, z, back, eq, atFront, atBack, isX, isY, isZ⟩ := separators_of_dots spread
    -- a dot of `a` or `b` would have been trimmed
    obtain all | all := inside front x y z back eq isX isY isZ
    · have dots := mapped_dots.mpr all
      rw [atFront] at dots
      cases a with
      | nil => exact first rfl
      | cons d a => exact first (by simp [dots d (by simp)])
    · have dots := mapped_dots.mpr all
      rw [atBack] at dots
      cases back' : b.getLast? with
      | none =>
        rw [List.getLast?_eq_none_iff.mp back'] at last
        exact last (by simp)
      | some d =>
        have isIn : d ∈ b ++ after := List.mem_append_left _ (List.mem_of_getLast? back')
        apply last
        rw [List.getLast?_append, back', dots d isIn]
        rfl

theorem clean_of_tame {resource : List Char} (some : trimmed resource ≠ [])
    (tame : Tame (trimmed resource)) : Clean resource := by
  obtain ⟨before, after, cut, _, _, first, _⟩ := trimMatches_split '.' (resource.map resourceChar)
  rw [← trimmed] at cut first
  constructor
  · obtain ⟨d, rest, eq⟩ := List.exists_cons_of_ne_nil some
    have isIn : d ∈ resource.map resourceChar := by
      rw [cut, eq]
      simp
    obtain ⟨c, mem, rfl⟩ := List.mem_map.mp isIn
    refine ⟨c, mem, ?_⟩
    rw [← Bool.not_eq_true, ← resourceChar_dot]
    intro dot
    exact first (by rw [eq, dot]; rfl)
  · rintro front x y z back rfl isX isY isZ
    by_contra neither
    rw [not_or, ← mapped_dots, ← mapped_dots] at neither
    obtain ⟨starts, ends⟩ := neither
    have spread : (front ++ x :: y :: z :: back).map resourceChar =
        front.map resourceChar ++ ['.', '.', '.'] ++ back.map resourceChar := by
      simp [resourceChar_dot.mpr isX, resourceChar_dot.mpr isY, resourceChar_dot.mpr isZ]
    have kept := @trimMatches_append '.' (front.map resourceChar) ['.', '.', '.']
      (back.map resourceChar) (by simpa using starts) (by simpa using ends)
    apply tame.2
    rw [trimmed, spread, kept]
    exact ⟨_, _, rfl⟩

theorem clean_iff (resource : List Char) :
    Clean resource ↔ trimmed resource ≠ [] ∧ Tame (trimmed resource) :=
  ⟨tame_of_clean, fun ⟨nonempty, tame⟩ => clean_of_tame nonempty tame⟩

theorem mem_replaceDots {x : Char} (mem : x ∈ replaceDots text) : x ∈ text := by
  induction text using replaceDots.induct with
  | case1 rest ih =>
    rw [replaceDots, List.mem_cons] at mem
    obtain rfl | mem := mem
    · exact List.mem_cons_self
    · exact List.mem_cons_of_mem _ (List.mem_cons_of_mem _ (ih mem))
  | case2 c rest notDouble ih =>
    rw [replaceDots.eq_def] at mem
    split at mem
    · rename_i more eq
      obtain ⟨rfl, rfl⟩ := List.cons.inj eq
      exact (notDouble more rfl rfl).elim
    · rename_i eq
      obtain ⟨rfl, rfl⟩ := List.cons.inj eq
      obtain rfl | mem := List.mem_cons.mp mem
      · exact List.mem_cons_self
      · exact List.mem_cons_of_mem _ (ih mem)
    · contradiction
  | case3 => exact mem

theorem mem_pieces {piece : List Char} {x : Char} (isPiece : piece ∈ text.splitOn '.')
    (mem : x ∈ piece) : x ∈ text ∧ x ≠ '.' := by
  induction text generalizing piece with
  | nil =>
    rw [List.splitOn_nil, List.mem_singleton] at isPiece
    rw [isPiece] at mem
    cases mem
  | cons c rest ih =>
    have later {piece : List Char} (isPiece : piece ∈ rest.splitOn '.') (mem : x ∈ piece) :
        x ∈ c :: rest ∧ x ≠ '.' :=
      (ih isPiece mem).imp_left (List.mem_cons_of_mem c)
    rw [List.splitOn_cons_eq_if_modifyHead] at isPiece
    split at isPiece
    · obtain rfl | isPiece := List.mem_cons.mp isPiece
      · cases mem
      · exact later isPiece mem
    · rename_i ne
      cases pieces : rest.splitOn '.' with
      | nil => exact absurd pieces (by simp)
      | cons first more =>
        rw [pieces, List.modifyHead_cons, List.mem_cons] at isPiece
        obtain rfl | isPiece := isPiece
        · obtain rfl | mem := List.mem_cons.mp mem
          · exact ⟨List.mem_cons_self, by simpa using ne⟩
          · exact later (pieces ▸ List.mem_cons_self) mem
        · exact later (pieces ▸ List.mem_cons_of_mem _ isPiece) mem

/-- All that is left is in the grammar, so what counts is that no piece is empty. -/
theorem isChannel_resource_iff (resource : String) :
    IsChannel (tokens (resourceToChannel resource)) ↔ Clean resource.toList := by
  have inGrammar : ∀ piece ∈ (replaceDots (trimmed resource.toList)).splitOn '.',
      ∀ x ∈ piece, InClass x := by
    intro piece isPiece x mem
    obtain ⟨isIn, ne⟩ := mem_pieces isPiece mem
    obtain ⟨c, _, rfl⟩ := List.mem_map.mp (mem_of_mem_trimMatches (mem_replaceDots isIn))
    exact Grammar.plainChar_iff.mp (resourceChar_plain ne)
  have channel : IsChannel (tokens (resourceToChannel resource)) ↔
      whole (replaceDots (trimmed resource.toList)) := by
    rw [IsChannel, tokens, resourceToChannel, String.toList_ofList, ← trimmed]
    simp only [Plain, List.mem_map, forall_exists_index, and_imp, forall_apply_eq_imp_iff₂,
      String.toList_ofList, whole]
    constructor
    · rintro ⟨-, all⟩ piece isPiece none
      exact (all piece isPiece).1 (by rw [none])
    · intro all
      refine ⟨by simp, fun piece isPiece => ⟨fun none => ?_, inGrammar piece isPiece⟩⟩
      exact all piece isPiece (by simpa using congrArg String.toList none)
  obtain ⟨_, _, _, _, _, first, _⟩ := trimMatches_split '.' (resource.toList.map resourceChar)
  rw [channel, replaceDots_whole, later_replaceDots, clean_iff]
  simp only [trimmed, ne_eq, first, not_false_eq_true, true_and]

theorem owned_iff (resource : String) :
    Owned ("teams." ++ resourceToChannel resource) ↔ Clean resource.toList := by
  generalize rest : resourceToChannel resource = name
  have single : tokens "teams" = ["teams"] := by decide
  have cut : tokens ("teams." ++ name) = "teams" :: tokens name := by
    rw [show "teams." = "teams" ++ "." from rfl, Grammar.tokens_dot, single, List.singleton_append]
  have first : firstChannelSegment ("teams." ++ name) = "teams" := by
    rw [firstChannelSegment, cut, List.headD_cons]
  have teams : Plain "teams" := by decide
  rw [← isChannel_resource_iff, rest, Owned, validateEmittedChannel_ok_iff, validateChannel_ok_iff,
    first, cut]
  simp only [IsChannel, List.mem_cons, forall_eq_or_imp, teams, true_and, Grammar.tokens_ne_nil,
    ne_eq, not_false_eq_true, List.cons_ne_nil, true_or, and_true]

/-! ## Notifications -/

variable {crates : Crates} {m : DispatchMsg}

def resourceOf (item : Json) : Option String := (get item "resource").bind asStr

/-- The dispatch has no token to echo, and its body is a notification of these items, each
with the right client state. -/
def Notifies (crates : Crates) (m : DispatchMsg) (items : List Json) : Prop :=
  tokenOf m = none ∧ ∃ body parsed secret, crates.b64Decode m.bodyB64 = some body ∧
    crates.fromSlice body = some parsed ∧ m.secret = some secret ∧
    (get parsed.json "value").bind asArray = some items ∧ ∀ item ∈ items, clientState item = secret

theorem Notifies.unique {items items' : List Json} (notifies : Notifies crates m items)
    (notifies' : Notifies crates m items') : items = items' := by
  obtain ⟨_, body, parsed, _, decoded, parses, _, isItems, _⟩ := notifies
  obtain ⟨_, body', parsed', _, decoded', parses', _, isItems', _⟩ := notifies'
  obtain rfl : body = body' := Option.some.inj (decoded.symm.trans decoded')
  obtain rfl : parsed = parsed' := Option.some.inj (parses.symm.trans parses')
  exact Option.some.inj (isItems.symm.trans isItems')

theorem collect_eq (secret : String) (body : List UInt8) (items : List Json) (events : List Event) :
    collect crates secret body items events =
      if ∀ item ∈ items, clientState item = secret then
        some (events ++ (items.filterMap resourceOf).map fun resource =>
          ⟨"teams." ++ resourceToChannel resource, crates.b64Encode body⟩)
      else none := by
  induction items generalizing events with
  | nil => simp [collect]
  | cons item rest ih =>
    unfold collect
    by_cases right : clientState item = secret
    · rw [if_neg (not_not.mpr right)]
      simp only [List.forall_mem_cons, right, true_and]
      cases found : resourceOf item with
      | none =>
        rw [List.filterMap_cons_none found, ← ih]
        rw [resourceOf] at found
        rw [found]
      | some resource =>
        have added := ih (events ++ [⟨"teams." ++ resourceToChannel resource, crates.b64Encode body⟩])
        rw [List.append_assoc] at added
        rw [List.filterMap_cons_some found, List.map_cons, ← List.singleton_append, ← added]
        rw [resourceOf] at found
        rw [found]
    · simp [right]

/-- A dispatch without a token to echo is a notification. -/
theorem handle_notification (none : tokenOf m = none) :
    handleTeamsDispatch crates (.dispatch m) = notification crates m := by
  unfold tokenOf at none
  simp only [handleTeamsDispatch]
  split
  · rename_i may
    rw [if_pos may] at none
    rw [validationToken, none]
  · rfl

theorem handle_token {value : String} {reply : HttpReply} {events : List Event}
    (some : tokenOf m = some value)
    (answered : handleTeamsDispatch crates (.dispatch m) = .ok (reply, events)) : events = [] := by
  unfold tokenOf at some
  split at some
  · rename_i may
    rw [handleTeamsDispatch, if_pos may, validationToken, some] at answered
    dsimp only at answered
    split at answered
    · cases answered
    · rename_i token eq
      cases answered
      rfl
    · rename_i eq
      split at eq <;> cases eq
  · cases some

/-- Only a notification that passes every check has events. -/
theorem notification_events {reply : HttpReply} {events : List Event}
    (answered : notification crates m = .ok (reply, events)) (some' : events ≠ [])
    (token : tokenOf m = none) :
    ∃ items, Notifies crates m items ∧ events.map Event.channel =
      (items.filterMap resourceOf).map fun resource => "teams." ++ resourceToChannel resource := by
  simp only [notification, decodeBodyB64, bind, Except.bind, pure, Except.pure] at answered
  cases decoded : crates.b64Decode m.bodyB64 with
  | none => simp [decoded] at answered
  | some body =>
    rw [decoded] at answered
    dsimp only at answered
    cases parses : crates.fromSlice body with
    | none => simp [parses] at answered
    | some parsed =>
      rw [parses] at answered
      dsimp only at answered
      cases isSecret : m.secret with
      | none =>
        rw [isSecret] at answered
        cases answered
        exact absurd rfl some'
      | some secret =>
        rw [isSecret] at answered
        dsimp only at answered
        cases isItems : (get parsed.json "value").bind asArray with
        | none =>
          rw [isItems] at answered
          cases answered
          exact absurd rfl some'
        | some items =>
          rw [isItems] at answered
          dsimp only at answered
          rw [collect_eq] at answered
          by_cases right : ∀ item ∈ items, clientState item = secret
          · rw [if_pos right] at answered
            cases answered
            refine ⟨items, ⟨token, body, parsed, secret, decoded, parses, isSecret, isItems, right⟩, ?_⟩
            simp [Function.comp_def]
          · rw [if_neg right] at answered
            cases answered
            exact absurd rfl some'

/-- The channels of the events are those of the resources of an accepted notification. -/
theorem emits_iff {channel : String} :
    (∃ reply events, handleTeamsDispatch crates (.dispatch m) = .ok (reply, events) ∧
        ∃ e ∈ events, e.channel = channel) ↔
      ∃ items, Notifies crates m items ∧
        ∃ resource ∈ items.filterMap resourceOf, channel = "teams." ++ resourceToChannel resource := by
  constructor
  · rintro ⟨reply, events, answered, e, mem, rfl⟩
    cases token : tokenOf m with
    | some value =>
      rw [handle_token token answered] at mem
      cases mem
    | none =>
      rw [handle_notification token] at answered
      obtain ⟨items, notifies, eq⟩ := notification_events answered (List.ne_nil_of_mem mem) token
      have channel := List.mem_map_of_mem (f := Event.channel) mem
      rw [eq] at channel
      obtain ⟨resource, isResource, same⟩ := List.mem_map.mp channel
      exact ⟨items, notifies, resource, isResource, same.symm⟩
  · rintro ⟨items, ⟨token, body, parsed, secret, decoded, parses, isSecret, isItems, right⟩,
      resource, mem, rfl⟩
    refine ⟨textReply 202 "accepted", _, ?_, _, List.mem_map_of_mem
      (f := fun resource => Event.mk ("teams." ++ resourceToChannel resource)
        (crates.b64Encode body)) mem, rfl⟩
    rw [handle_notification token]
    simp only [notification, decodeBodyB64, decoded, bind, Except.bind, parses, isSecret, isItems,
      collect_eq, List.nil_append]
    rw [if_pos right]
    rfl

/-- A resource becomes a channel of the grammar exactly if it is clean, and every event of a
dispatch is on a channel of the extension exactly if the resources notified are. -/
theorem teams_channels_owned_iff (crates : Crates) (m : DispatchMsg) :
    (∀ resource, IsChannel (tokens (resourceToChannel resource)) ↔ Clean resource.toList) ∧
      ((∀ reply events, handleTeamsDispatch crates (.dispatch m) = .ok (reply, events) →
          ∀ e ∈ events, Owned e.channel) ↔
        ∀ items, Notifies crates m items →
          ∀ resource ∈ items.filterMap resourceOf, Clean resource.toList) := by
  refine ⟨isChannel_resource_iff, ?_⟩
  constructor
  · intro owned items notifies resource mem
    obtain ⟨reply, events, answered, e, isEvent, channel⟩ :=
      emits_iff.mpr ⟨items, notifies, resource, mem, rfl⟩
    have := owned reply events answered e isEvent
    rwa [channel, owned_iff] at this
  · intro clean reply events answered e mem
    obtain ⟨items, notifies, resource, isResource, channel⟩ :=
      emits_iff.mp ⟨reply, events, answered, e, mem, rfl⟩
    rw [channel, owned_iff]
    exact clean items notifies resource isResource

/-! ## One notification -/

def itemOf (resource : String) : Json :=
  .obj [("clientState", .str "s"), ("resource", .str resource)]

def valueOf (resource : String) : Json := .obj [("value", .arr [itemOf resource])]

def notified (resource : String) : DispatchMsg :=
  ⟨0, "POST", "/teams", none, .empty, asciiCrates.b64Encode (bytesOf (valueOf resource).render),
    some "s"⟩

theorem valueOf_canonical (resource : String) : Serde.Canonical (valueOf resource) := by
  have sorted : ("clientState" : String) < "resource" := by decide
  simp only [valueOf, itemOf, Serde.Canonical, Serde.CanonicalItems, Serde.CanonicalFields,
    and_true]
  exact ⟨List.pairwise_singleton _ _, List.pairwise_pair.mpr sorted⟩

theorem notified_notifies {resource : String}
    (ascii : ((valueOf resource).render.all fun c => c.toNat < 128) = true) :
    Notifies asciiCrates (notified resource) [itemOf resource] := by
  have fits : (valueOf resource).Fits := by
    simp [valueOf, itemOf, Json.FitsItems]
  have parses := asciiCrates_fromSlice (by simpa using ascii)
  rw [Json.read_render _ fits, Option.bind_some, Serde.value] at parses
  have noToken : tokenOf (notified resource) = none := ite_self none
  refine ⟨noToken, _, _, "s", asciiCrates_lawful.base64 _, parses, rfl, ?_, ?_⟩
  · simp only [Serde.normalize_canonical _ (valueOf_canonical resource)]
    rfl
  · intro item mem
    rw [List.mem_singleton.mp mem]
    rfl

theorem teams_channels_owned_iff_clean :
    Notifies asciiCrates (notified "teams//a.b/") [itemOf "teams//a.b/"] ∧
      ∀ reply events, handleTeamsDispatch asciiCrates (.dispatch (notified "teams//a.b/")) =
        .ok (reply, events) → ∀ e ∈ events, Owned e.channel := by
  have notifies : Notifies asciiCrates (notified "teams//a.b/") [itemOf "teams//a.b/"] :=
    notified_notifies (by decide)
  refine ⟨notifies, (teams_channels_owned_iff asciiCrates (notified "teams//a.b/")).2.mpr ?_⟩
  intro items also resource mem
  rw [also.unique notifies] at mem
  have isResource : resource = "teams//a.b/" := List.mem_singleton.mp mem
  rw [isResource, ← owned_iff, Owned]
  decide

/-- Three separators in a row leave an empty token. -/
theorem resource_dropped :
    ¬ ∀ (m : DispatchMsg) (reply : HttpReply) (events : List Event),
      handleTeamsDispatch asciiCrates (.dispatch m) = .ok (reply, events) →
        ∀ e ∈ events, Owned e.channel := by
  intro all
  have notifies : Notifies asciiCrates (notified "a///b") [itemOf "a///b"] :=
    notified_notifies (by decide)
  obtain ⟨reply, events, answered, e, mem, channel⟩ :=
    emits_iff.mpr ⟨_, notifies, "a///b", List.mem_cons_self, rfl⟩
  have owned := all (notified "a///b") reply events answered e mem
  rw [channel] at owned
  have refused : ¬ Owned ("teams." ++ resourceToChannel "a///b") := by
    rw [Owned]
    decide
  exact refused owned

end Whdr.Ext.Teams
