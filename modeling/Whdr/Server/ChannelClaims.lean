import Whdr.Lib.OrdMap
import Whdr.Proto.Messages

/-! Which channels an extension may emit on, and which claims a registration may
make (channel_claims.rs). An error is the outermost text of its chain. -/
namespace Whdr

/-- `split('.').next()`; a split is never empty. -/
def firstChannelSegment (channel : String) : String := (tokens channel).headD ""

/-- The channel itself, or the channel goes on with a dot. -/
def channelIsInPrefix (channel pre : String) : Bool :=
  channel == pre ||
    (channel.toList.dropPrefix? pre.toList).any fun suffix => suffix.head? == some '.'

def channelPrefixesOverlap (left right : String) : Bool :=
  channelIsInPrefix left right || channelIsInPrefix right left

def validatePathClaim (claim : String) : Except String Unit :=
  if claim.toList.isEmpty || claim.toList.contains '/' || !claim.toList.all plainChar then
    .error ("invalid path claim: " ++ claim)
  else .ok ()

def validateEmittedChannel (channel extId : String) (claims registeredPrefixes : List String) :
    Except String Unit :=
  match validateChannel channel with
  | .error _ => .error ("invalid event channel: " ++ channel)
  | .ok () =>
    if claims.any (· == firstChannelSegment channel) ||
        registeredPrefixes.any (channelIsInPrefix channel) then .ok ()
    else .error ("channel " ++ channel ++ " is not owned by extension " ++ extId)

/-- The events kept, and the violation counter after counting the others. -/
def filterOwnedEvents (extId : String) (paths registeredPrefixes : List String)
    (violations : Nat) (events : List Event) : List Event × Nat :=
  events.foldl (fun (kept, count) event =>
    match validateEmittedChannel event.channel extId paths registeredPrefixes with
    | .ok () => (kept ++ [event], count)
    | .error _ => (kept, count + 1)) ([], violations)

/-! ## Registration -/

section
variable (id : String) (routes existingPrefixes : OrdMap String String)

/-- One pass of the loop over path claims; `seen` are the claims before this one. A
route collides whoever owns it. The prefix reported is the least that collides: the
source reports the first of its hash order. -/
def checkClaim (seen : List String) (claim : String) : Except String Unit :=
  match validatePathClaim claim with
  | .error msg => .error msg
  | .ok () =>
    if claim ∈ seen then .error ("duplicate path claim: " ++ claim)
    else match routes.get? claim with
    | some owner => .error ("path collision: " ++ claim ++ " already claimed by " ++ owner)
    | none =>
      match existingPrefixes.entries.find? fun (pre, owner) =>
        owner ≠ id && firstChannelSegment pre == claim with
      | some (pre, owner) => .error ("path claim " ++ claim ++ " collides with channel prefix " ++
          pre ++ " owned by " ++ owner)
      | none => .ok ()

def checkClaims (seen : List String) : List String → Except String Unit
  | [] => .ok ()
  | claim :: rest =>
    match checkClaim id routes existingPrefixes seen claim with
    | .error msg => .error msg
    | .ok () => checkClaims (claim :: seen) rest

/-- One pass of the loop over channel prefixes. -/
def checkPrefix (seen : List String) (pre : String) : Except String Unit :=
  match validateChannel pre with
  | .error _ => .error ("invalid channel prefix: " ++ pre)
  | .ok () =>
    match seen.find? (channelPrefixesOverlap pre) with
    | some other => .error ("channel prefix " ++ pre ++ " collides with channel prefix " ++ other)
    | none =>
      match (routes.get? (firstChannelSegment pre)).filter (· ≠ id) with
      | some owner => .error ("channel prefix " ++ pre ++ " collides with route " ++
          firstChannelSegment pre ++ " owned by " ++ owner)
      | none =>
        match existingPrefixes.entries.find? fun (existing, owner) =>
          owner ≠ id && channelPrefixesOverlap pre existing with
        | some (existing, owner) => .error ("channel prefix " ++ pre ++
            " collides with channel prefix " ++ existing ++ " owned by " ++ owner)
        | none => .ok ()

def checkPrefixes (seen : List String) : List String → Except String Unit
  | [] => .ok ()
  | pre :: rest =>
    match checkPrefix id routes existingPrefixes seen pre with
    | .error msg => .error msg
    | .ok () => checkPrefixes (seen ++ [pre]) rest

def validateRegistrationClaims (claims channelPrefixes : List String) : Except String Unit :=
  match checkClaims id routes existingPrefixes [] claims with
  | .error msg => .error msg
  | .ok () => checkPrefixes id routes existingPrefixes [] channelPrefixes

end

/-! ## Channels under a prefix -/

theorem channelIsInPrefix_iff {channel pre : String} :
    channelIsInPrefix channel pre = true ↔
      channel = pre ∨ ∃ rest, channel.toList = pre.toList ++ '.' :: rest := by
  simp only [channelIsInPrefix, Bool.or_eq_true, beq_iff_eq, Option.any_eq_true]
  apply or_congr_right
  constructor
  · rintro ⟨suffix, hd, dot⟩
    obtain ⟨front, eq, same⟩ := List.dropPrefix?_eq_some_iff.mp hd
    obtain ⟨rest, rfl⟩ := List.head?_eq_some_iff.mp dot
    exact ⟨rest, by rw [eq, eq_of_beq same]⟩
  · rintro ⟨rest, eq⟩
    exact ⟨'.' :: rest, List.dropPrefix?_eq_some_iff.mpr ⟨_, eq, beq_self_eq_true _⟩, rfl⟩

/-- A channel starts with the first segment of every prefix it is in. -/
theorem firstChannelSegment_of_isInPrefix {channel pre : String}
    (h : channelIsInPrefix channel pre = true) :
    firstChannelSegment channel = firstChannelSegment pre := by
  obtain rfl | ⟨rest, eq⟩ := channelIsInPrefix_iff.mp h
  · rfl
  · have nonempty := List.splitOnP_ne_nil (· == '.') pre.toList
    have cut := @List.splitOnP_append_cons _ (· == '.') pre.toList rest '.' rfl
    simp only [firstChannelSegment, tokens, eq, List.splitOn_eq_splitOnP, cut]
    cases hs : List.splitOnP (· == '.') pre.toList with
    | nil => exact absurd hs nonempty
    | cons first more => rfl

/-- Of two strings that both continue into one with a dot, one continues into the other. -/
theorem overlap_of_both {left right more rest : List Char}
    (h : left ++ '.' :: more = right ++ '.' :: rest) :
    left = right ∨ (∃ s, left = right ++ '.' :: s) ∨ ∃ s, right = left ++ '.' :: s := by
  obtain ⟨mid, eq, cut⟩ | ⟨mid, eq, cut⟩ := List.append_eq_append_iff.mp h
  · cases mid with
    | nil => exact .inl (by simpa using eq.symm)
    | cons c s =>
      obtain ⟨rfl, _⟩ := List.cons.inj cut
      exact .inr (.inr ⟨s, eq⟩)
  · cases mid with
    | nil => exact .inl (by simpa using eq)
    | cons c s =>
      obtain ⟨rfl, _⟩ := List.cons.inj cut
      exact .inr (.inl ⟨s, eq⟩)

/-- Prefixes of one channel overlap. -/
theorem channelPrefixesOverlap_of_isInPrefix {channel left right : String}
    (hl : channelIsInPrefix channel left = true) (hr : channelIsInPrefix channel right = true) :
    channelPrefixesOverlap left right = true := by
  rw [channelPrefixesOverlap, Bool.or_eq_true]
  obtain rfl | ⟨more, hm⟩ := channelIsInPrefix_iff.mp hl
  · exact .inl hr
  · obtain rfl | ⟨rest, hs⟩ := channelIsInPrefix_iff.mp hr
    · exact .inr hl
    · obtain eq | longer | longer := overlap_of_both (hm.symm.trans hs)
      · exact .inl (channelIsInPrefix_iff.mpr (.inl (String.toList_inj.mp eq)))
      · exact .inl (channelIsInPrefix_iff.mpr (.inr longer))
      · exact .inr (channelIsInPrefix_iff.mpr (.inr longer))

/-! ## What the checks accept -/

theorem validateEmittedChannel_ok_iff {channel extId : String} {claims prefixes : List String} :
    validateEmittedChannel channel extId claims prefixes = .ok () ↔
      validateChannel channel = .ok () ∧
        (firstChannelSegment channel ∈ claims ∨
          ∃ pre ∈ prefixes, channelIsInPrefix channel pre = true) := by
  unfold validateEmittedChannel
  split
  · rename_i invalid
    simp [invalid]
  · rename_i valid
    split
    · rename_i owned
      simpa [valid] using owned
    · rename_i foreign
      simpa [valid] using foreign

section
variable {id : String} {routes existing : OrdMap String String}
  {seen claims prefixes : List String} {claim pre : String}

theorem checkClaim_ok_iff : checkClaim id routes existing seen claim = .ok () ↔
    validatePathClaim claim = .ok () ∧ claim ∉ seen ∧ routes.get? claim = none ∧
      ∀ pre owner, existing.get? pre = some owner → owner ≠ id →
        firstChannelSegment pre ≠ claim := by
  unfold checkClaim
  split
  · rename_i invalid
    simp [invalid]
  · rename_i valid
    split
    · rename_i dup
      simp [dup]
    · rename_i fresh
      split
      · rename_i owner taken
        simp [taken]
      · rename_i free
        split
        · rename_i pre owner found
          have mem := List.mem_of_find?_eq_some found
          have hit := List.find?_some found
          simp only [Bool.and_eq_true, decide_eq_true_eq, beq_iff_eq] at hit
          simp only [reduceCtorEq, false_iff]
          rintro ⟨_, _, _, apart⟩
          exact apart pre owner ((existing.get?_eq_some_iff pre owner).mpr mem) hit.1 hit.2
        · rename_i none
          have apart := List.find?_eq_none.mp none
          simp only [true_iff]
          refine ⟨valid, fresh, free, fun pre owner bound foreign first => ?_⟩
          have := apart (pre, owner) ((existing.get?_eq_some_iff pre owner).mp bound)
          simp [foreign, first] at this

theorem checkPrefix_ok_iff : checkPrefix id routes existing seen pre = .ok () ↔
    validateChannel pre = .ok () ∧ (∀ other ∈ seen, channelPrefixesOverlap pre other = false) ∧
      (∀ owner, routes.get? (firstChannelSegment pre) = some owner → owner = id) ∧
      ∀ other owner, existing.get? other = some owner → owner ≠ id →
        channelPrefixesOverlap pre other = false := by
  unfold checkPrefix
  split
  · rename_i invalid
    simp [invalid]
  · rename_i valid
    split
    · rename_i other found
      have mem := List.mem_of_find?_eq_some found
      have hit := List.find?_some found
      simp only [reduceCtorEq, false_iff]
      rintro ⟨_, apart, _⟩
      simp [apart other mem] at hit
    · rename_i fresh
      split
      · rename_i owner taken
        obtain ⟨bound, foreign⟩ := Option.filter_eq_some_iff.mp taken
        simp only [reduceCtorEq, false_iff]
        rintro ⟨_, _, own, _⟩
        simp [own owner bound] at foreign
      · rename_i free
        have own : ∀ owner, routes.get? (firstChannelSegment pre) = some owner → owner = id := by
          intro owner bound
          simpa [bound, Option.filter] using free
        split
        · rename_i other owner found
          have mem := List.mem_of_find?_eq_some found
          have hit := List.find?_some found
          simp only [Bool.and_eq_true, decide_eq_true_eq] at hit
          simp only [reduceCtorEq, false_iff]
          rintro ⟨_, _, _, apart⟩
          have := apart other owner ((existing.get?_eq_some_iff other owner).mpr mem) hit.1
          simp [this] at hit
        · rename_i none
          have apart := List.find?_eq_none.mp none
          have disjoint := List.find?_eq_none.mp fresh
          simp only [true_iff]
          refine ⟨valid, fun other mem => by simpa using disjoint other mem, own,
            fun other owner bound foreign => ?_⟩
          have := apart (other, owner) ((existing.get?_eq_some_iff other owner).mp bound)
          simpa [foreign] using this

theorem checkClaims_ok (h : checkClaims id routes existing seen claims = .ok ()) :
    ∀ claim ∈ claims, ∃ before, checkClaim id routes existing before claim = .ok () := by
  induction claims generalizing seen with
  | nil => simp
  | cons claim rest ih =>
    unfold checkClaims at h
    split at h
    · cases h
    · rename_i first
      intro c mem
      cases List.mem_cons.mp mem with
      | inl eq => exact ⟨seen, eq ▸ first⟩
      | inr mem => exact ih h c mem

theorem checkPrefixes_ok (h : checkPrefixes id routes existing seen prefixes = .ok ()) :
    ∀ pre ∈ prefixes, ∃ before, checkPrefix id routes existing before pre = .ok () := by
  induction prefixes generalizing seen with
  | nil => simp
  | cons pre rest ih =>
    unfold checkPrefixes at h
    split at h
    · cases h
    · rename_i first
      intro p mem
      cases List.mem_cons.mp mem with
      | inl eq => exact ⟨seen, eq ▸ first⟩
      | inr mem => exact ih h p mem

/-- An accepted registration meets no row of another extension, and no route at all. -/
structure NoCollision (id : String) (routes existing : OrdMap String String)
    (claims prefixes : List String) : Prop where
  routeFree : ∀ claim ∈ claims, routes.get? claim = none
  claimApart : ∀ claim ∈ claims, ∀ pre owner, existing.get? pre = some owner → owner ≠ id →
    firstChannelSegment pre ≠ claim
  prefixApart : ∀ pre ∈ prefixes, ∀ owner, routes.get? (firstChannelSegment pre) = some owner →
    owner = id
  prefixDisjoint : ∀ pre ∈ prefixes, ∀ other owner, existing.get? other = some owner →
    owner ≠ id → channelPrefixesOverlap pre other = false

theorem noCollision_of_ok
    (h : validateRegistrationClaims id routes existing claims prefixes = .ok ()) :
    NoCollision id routes existing claims prefixes := by
  unfold validateRegistrationClaims at h
  split at h
  · cases h
  · rename_i claimsOk
    constructor
    · intro claim mem
      obtain ⟨before, ok⟩ := checkClaims_ok claimsOk claim mem
      exact (checkClaim_ok_iff.mp ok).2.2.1
    · intro claim mem
      obtain ⟨before, ok⟩ := checkClaims_ok claimsOk claim mem
      exact (checkClaim_ok_iff.mp ok).2.2.2
    · intro pre mem
      obtain ⟨before, ok⟩ := checkPrefixes_ok h pre mem
      exact (checkPrefix_ok_iff.mp ok).2.2.1
    · intro pre mem
      obtain ⟨before, ok⟩ := checkPrefixes_ok h pre mem
      exact (checkPrefix_ok_iff.mp ok).2.2.2

end

theorem filterOwnedEvents_events (extId : String) (paths prefixes : List String) (count : Nat)
    (events : List Event) :
    (filterOwnedEvents extId paths prefixes count events).1 = events.filter fun event =>
      validateEmittedChannel event.channel extId paths prefixes = .ok () := by
  unfold filterOwnedEvents
  suffices kept : ∀ acc : List Event × Nat, (events.foldl (fun (kept, count) event =>
      match validateEmittedChannel event.channel extId paths prefixes with
      | .ok () => (kept ++ [event], count)
      | .error _ => (kept, count + 1)) acc).1 = acc.1 ++ events.filter fun event =>
        validateEmittedChannel event.channel extId paths prefixes = .ok () by
    simpa using kept ([], count)
  induction events with
  | nil => simp
  | cons event rest ih =>
    intro acc
    rw [List.foldl_cons, ih]
    cases owned : validateEmittedChannel event.channel extId paths prefixes <;> simp [owned]

end Whdr
