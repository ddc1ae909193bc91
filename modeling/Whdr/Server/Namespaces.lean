import Whdr.Proto.Grammar
import Whdr.Server.Exclusivity

/-! The namespaces of registrations accepted one after the other: no channel is in
two of them, and a registration is refused only for a channel in one of them. -/
namespace Whdr.Namespaces

open Grammar (Plain IsChannel validateChannel_ok_iff tokens_join)
open Lifecycle (Registration newHandle Apart Routed insertAll get?_insertAll apart_of_noCollision)

/-- The id is the first claim, the aliases follow. -/
def claims (reg : Registration) : List String := reg.id :: reg.paths

/-- An event on the channel passes the reader of this registration. -/
def Owns (reg : Registration) (channel : String) : Prop :=
  validateEmittedChannel channel reg.id (claims reg) reg.channels = .ok ()

structure Tables where
  routes : OrdMap String String
  prefixes : OrdMap String String

def Tables.new : Tables := ⟨.empty, .empty⟩

/-- The daemon's state, as far as the check of the claims reads it. -/
def Tables.state (t : Tables) : Lifecycle.State :=
  { Lifecycle.State.new with routes := t.routes, channelPrefixes := t.prefixes }

/-- The check of the claims, then the rows of the newcomer. -/
def accept (t : Tables) (reg : Registration) : Except String Tables :=
  match validateRegistrationClaims reg.id t.routes t.prefixes (claims reg) reg.channels with
  | .error msg => .error msg
  | .ok () => .ok ⟨insertAll t.routes (claims reg) reg.id, insertAll t.prefixes reg.channels reg.id⟩

def acceptAll (t : Tables) : List Registration → Except String Tables
  | [] => .ok t
  | reg :: rest =>
    match accept t reg with
    | .error msg => .error msg
    | .ok u => acceptAll u rest

/-- What a registration can be refused for without looking at the tables. -/
structure WellFormed (reg : Registration) : Prop where
  claimsValid : ∀ claim ∈ claims reg, validatePathClaim claim = .ok ()
  claimsOnce : (claims reg).Nodup
  prefixesValid : ∀ pre ∈ reg.channels, validateChannel pre = .ok ()
  prefixesApart : reg.channels.Pairwise fun left right => channelPrefixesOverlap left right = false

/-- The rows are those of the registrations accepted so far. -/
structure Filled (t : Tables) (done : List Registration) : Prop where
  routes : ∀ key owner, t.routes.get? key = some owner ↔
    ∃ reg ∈ done, reg.id = owner ∧ key ∈ claims reg
  prefixes : ∀ key owner, t.prefixes.get? key = some owner ↔
    ∃ reg ∈ done, reg.id = owner ∧ key ∈ reg.channels
  claimsValid : ∀ reg ∈ done, ∀ claim ∈ claims reg, validatePathClaim claim = .ok ()
  prefixesValid : ∀ reg ∈ done, ∀ pre ∈ reg.channels, validateChannel pre = .ok ()

variable {t u : Tables} {done rs : List Registration} {reg other : Registration}
  {id channel claim pre : String} {routes existing : OrdMap String String}
  {seen names prefixes : List String}

/-! ## Checks that pass -/

theorem channelPrefixesOverlap_comm (left right : String) :
    channelPrefixesOverlap left right = channelPrefixesOverlap right left := Bool.or_comm _ _

theorem checkClaims_pass (valid : ∀ claim ∈ names, validatePathClaim claim = .ok ())
    (once : names.Nodup) (fresh : ∀ claim ∈ names, claim ∉ seen)
    (free : ∀ claim ∈ names, routes.get? claim = none)
    (apart : ∀ claim ∈ names, ∀ pre owner, existing.get? pre = some owner → owner ≠ id →
      firstChannelSegment pre ≠ claim) :
    checkClaims id routes existing seen names = .ok () := by
  induction names generalizing seen with
  | nil => rfl
  | cons claim rest ih =>
    obtain ⟨new, once⟩ := List.nodup_cons.mp once
    rw [List.forall_mem_cons] at valid fresh free apart
    have ok : checkClaim id routes existing seen claim = .ok () :=
      checkClaim_ok_iff.mpr ⟨valid.1, fresh.1, free.1, apart.1⟩
    rw [checkClaims, ok]
    apply ih valid.2 once _ free.2 apart.2
    intro c mem
    rw [List.mem_cons, not_or]
    exact ⟨fun eq => new (eq ▸ mem), fresh.2 c mem⟩

theorem checkPrefixes_pass (valid : ∀ pre ∈ prefixes, validateChannel pre = .ok ())
    (once : prefixes.Pairwise fun left right => channelPrefixesOverlap left right = false)
    (fresh : ∀ pre ∈ prefixes, ∀ before ∈ seen, channelPrefixesOverlap pre before = false)
    (own : ∀ pre ∈ prefixes, ∀ owner, routes.get? (firstChannelSegment pre) = some owner →
      owner = id)
    (apart : ∀ pre ∈ prefixes, ∀ other owner, existing.get? other = some owner → owner ≠ id →
      channelPrefixesOverlap pre other = false) :
    checkPrefixes id routes existing seen prefixes = .ok () := by
  induction prefixes generalizing seen with
  | nil => rfl
  | cons pre rest ih =>
    obtain ⟨new, once⟩ := List.pairwise_cons.mp once
    rw [List.forall_mem_cons] at valid fresh own apart
    have ok : checkPrefix id routes existing seen pre = .ok () :=
      checkPrefix_ok_iff.mpr ⟨valid.1, fresh.1, own.1, apart.1⟩
    rw [checkPrefixes, ok]
    apply ih valid.2 once _ own.2 apart.2
    intro p mem before earlier
    rw [List.mem_append, List.mem_singleton] at earlier
    obtain earlier | rfl := earlier
    · exact fresh.2 p mem before earlier
    · rw [channelPrefixesOverlap_comm]
      exact new p mem

/-- Well formed and without a collision, a registration passes. -/
theorem validate_of_noCollision (formed : WellFormed reg)
    (free : NoCollision reg.id routes existing (claims reg) reg.channels) :
    validateRegistrationClaims reg.id routes existing (claims reg) reg.channels = .ok () := by
  rw [validateRegistrationClaims, checkClaims_pass formed.claimsValid formed.claimsOnce
    (fun _ _ => List.not_mem_nil) free.routeFree free.claimApart]
  exact checkPrefixes_pass formed.prefixesValid formed.prefixesApart
    (fun _ _ _ mem => absurd mem List.not_mem_nil) free.prefixApart free.prefixDisjoint

theorem validClaim_of_ok
    (ok : validateRegistrationClaims id routes existing names prefixes = .ok ()) :
    ∀ claim ∈ names, validatePathClaim claim = .ok () := by
  unfold validateRegistrationClaims at ok
  split at ok
  · cases ok
  · rename_i claimsOk
    intro claim mem
    obtain ⟨before, passed⟩ := checkClaims_ok claimsOk claim mem
    exact (checkClaim_ok_iff.mp passed).1

theorem validPrefix_of_ok
    (ok : validateRegistrationClaims id routes existing names prefixes = .ok ()) :
    ∀ pre ∈ prefixes, validateChannel pre = .ok () := by
  unfold validateRegistrationClaims at ok
  split at ok
  · cases ok
  · intro pre mem
    obtain ⟨before, passed⟩ := checkPrefixes_ok ok pre mem
    exact (checkPrefix_ok_iff.mp passed).1

/-! ## What a registration owns -/

theorem validatePathClaim_ok_iff : validatePathClaim claim = .ok () ↔ Plain claim := by
  have slash : '/' ∈ claim.toList → ¬ ∀ c ∈ claim.toList, Grammar.InClass c := by
    intro mem all
    exact absurd (Grammar.plainChar_iff.mpr (all '/' mem)) (by decide)
  simp only [validatePathClaim, Plain, ← Grammar.plainChar_iff] at slash ⊢
  split
  · rename_i refused
    simp only [Bool.or_eq_true, List.isEmpty_iff, List.contains_eq_mem, decide_eq_true_eq,
      Bool.not_eq_true', List.all_eq_false] at refused
    simp only [reduceCtorEq, false_iff]
    rintro ⟨some, all⟩
    obtain (empty | mem) | ⟨c, mem, odd⟩ := refused
    · exact some (String.toList_eq_nil_iff.mp empty)
    · exact slash mem all
    · exact odd (all c mem)
  · rename_i passed
    simp only [Bool.or_eq_true, List.isEmpty_iff, List.contains_eq_mem, decide_eq_true_eq,
      Bool.not_eq_true', List.all_eq_false, not_or, not_exists, not_and, not_not] at passed
    simp only [true_iff]
    exact ⟨fun eq => passed.1.1 (String.toList_eq_nil_iff.mpr eq), passed.2⟩

theorem tokens_plain (plain : Plain claim) : tokens claim = [claim] := by
  have single : Grammar.join [claim] = claim := String.intercalate_singleton
  have cut := tokens_join (List.cons_ne_nil claim []) fun t mem => by
    rw [List.mem_singleton.mp mem]
    exact Grammar.PatternToken.undotted (.inl plain)
  rwa [single] at cut

/-- A claim is a channel of its own. -/
theorem owns_claim (mem : claim ∈ claims reg) (valid : validatePathClaim claim = .ok ()) :
    Owns reg claim := by
  have plain := validatePathClaim_ok_iff.mp valid
  have cut := tokens_plain plain
  refine validateEmittedChannel_ok_iff.mpr ⟨validateChannel_ok_iff.mpr ?_, .inl ?_⟩
  · rw [cut]
    exact ⟨List.cons_ne_nil _ _, fun t mem => List.mem_singleton.mp mem ▸ plain⟩
  · rw [firstChannelSegment, cut]
    exact mem

theorem owns_under_claim (valid : validateChannel channel = .ok ())
    (mem : firstChannelSegment channel ∈ claims reg) : Owns reg channel :=
  validateEmittedChannel_ok_iff.mpr ⟨valid, .inl mem⟩

theorem owns_under (valid : validateChannel channel = .ok ()) (mem : pre ∈ reg.channels)
    (isIn : channelIsInPrefix channel pre = true) : Owns reg channel :=
  validateEmittedChannel_ok_iff.mpr ⟨valid, .inr ⟨pre, mem, isIn⟩⟩

theorem channelIsInPrefix_self (pre : String) : channelIsInPrefix pre pre = true :=
  channelIsInPrefix_iff.mpr (.inl rfl)

/-! ## The tables -/

theorem accept_ok (ok : accept t reg = .ok u) :
    validateRegistrationClaims reg.id t.routes t.prefixes (claims reg) reg.channels = .ok () ∧
      u = ⟨insertAll t.routes (claims reg) reg.id, insertAll t.prefixes reg.channels reg.id⟩ := by
  unfold accept at ok
  split at ok
  · cases ok
  · rename_i valid
    exact ⟨valid, (Except.ok.inj ok).symm⟩

/-- A name is in use as soon as one registration has it. -/
theorem Filled.id_ne (filled : Filled t done)
    (free : NoCollision reg.id t.routes t.prefixes (claims reg) reg.channels)
    (mem : other ∈ done) : other.id ≠ reg.id := by
  intro eq
  have taken := (filled.routes reg.id other.id).mpr ⟨other, mem, rfl, eq ▸ List.mem_cons_self⟩
  rw [free.routeFree reg.id List.mem_cons_self] at taken
  cases taken

theorem Filled.accept (filled : Filled t done) (ok : accept t reg = .ok u) :
    Filled u (done ++ [reg]) := by
  obtain ⟨valid, rfl⟩ := accept_ok ok
  have free := noCollision_of_ok valid
  constructor
  · intro key owner
    rw [get?_insertAll]
    simp only [List.mem_append, List.mem_singleton, or_and_right, exists_or, exists_eq_left]
    rw [← filled.routes]
    split
    · rename_i mine
      simp [free.routeFree key mine, mine]
    · rename_i old
      simp [old]
  · intro key owner
    rw [get?_insertAll]
    simp only [List.mem_append, List.mem_singleton, or_and_right, exists_or, exists_eq_left]
    rw [← filled.prefixes]
    split
    · rename_i mine
      have fresh : t.prefixes.get? key ≠ some owner := by
        intro row
        obtain ⟨before, mem, isOwner, _⟩ := (filled.prefixes key owner).mp row
        have apart := free.prefixDisjoint key mine key owner row
          (isOwner ▸ filled.id_ne free mem)
        simp [channelPrefixesOverlap, channelIsInPrefix_self] at apart
      simp [fresh, mine]
    · rename_i old
      simp [old]
  · intro r mem claim isClaim
    obtain mem | rfl := List.mem_append.mp mem |>.imp_right List.mem_singleton.mp
    · exact filled.claimsValid r mem claim isClaim
    · exact validClaim_of_ok valid claim isClaim
  · intro r mem pre isPrefix
    obtain mem | rfl := List.mem_append.mp mem |>.imp_right List.mem_singleton.mp
    · exact filled.prefixesValid r mem pre isPrefix
    · exact validPrefix_of_ok valid pre isPrefix

def Disjoint (r s : Registration) : Prop := ∀ channel, ¬ (Owns r channel ∧ Owns s channel)

/-- Whoever passes the checks shares no channel with those accepted before. -/
theorem Filled.disjoint (filled : Filled t done) (ok : Namespaces.accept t reg = .ok u)
    (mem : other ∈ done) : Disjoint other reg := by
  have free := noCollision_of_ok (accept_ok ok).1
  have routed : Routed t.state (newHandle "" other 0) := by
    constructor
    · intro path isPath
      exact (filled.routes path other.id).mpr ⟨other, mem, rfl, isPath⟩
    · intro pre isPrefix
      exact (filled.prefixes pre other.id).mpr ⟨other, mem, rfl, isPrefix⟩
  have apart : Apart (newHandle "" reg 0) (newHandle "" other 0) :=
    apart_of_noCollision (s := t.state) free routed (filled.id_ne free mem)
  rintro channel ⟨his, mine⟩
  exact apart.not_both mine his

theorem Filled.acceptAll (filled : Filled t done) (apart : done.Pairwise Disjoint)
    (ok : Namespaces.acceptAll t rs = .ok u) :
    Filled u (done ++ rs) ∧ (done ++ rs).Pairwise Disjoint := by
  induction rs generalizing t done with
  | nil =>
    cases ok
    rw [List.append_nil]
    exact ⟨filled, apart⟩
  | cons reg rest ih =>
    unfold Namespaces.acceptAll at ok
    split at ok
    · cases ok
    · rename_i v first
      have apart : (done ++ [reg]).Pairwise Disjoint := by
        refine List.pairwise_append.mpr ⟨apart, List.pairwise_singleton _ _, ?_⟩
        intro r mem s isLast
        rw [List.mem_singleton.mp isLast]
        exact filled.disjoint first mem
      have := ih (filled.accept first) apart ok
      rwa [List.append_assoc, List.singleton_append] at this

theorem filled_new : Filled .new [] := by
  constructor <;> simp [Tables.new]

/-- Without a channel in common there is no row to collide with. -/
theorem Filled.noCollision (filled : Filled t done) (formed : WellFormed reg)
    (apart : ∀ other ∈ done, Disjoint reg other) :
    NoCollision reg.id t.routes t.prefixes (claims reg) reg.channels := by
  constructor
  · intro claim mem
    by_contra taken
    obtain ⟨owner, row⟩ := Option.ne_none_iff_exists'.mp taken
    obtain ⟨other, isOther, -, his⟩ := (filled.routes claim owner).mp row
    exact apart other isOther claim ⟨owns_claim mem (formed.claimsValid claim mem),
      owns_claim his (filled.claimsValid other isOther claim his)⟩
  · rintro claim mem pre owner row - rfl
    obtain ⟨other, isOther, -, his⟩ := (filled.prefixes pre owner).mp row
    have valid := filled.prefixesValid other isOther pre his
    exact apart other isOther pre ⟨owns_under_claim valid mem,
      owns_under valid his (channelIsInPrefix_self pre)⟩
  · intro pre mem owner row
    obtain ⟨other, isOther, -, his⟩ := (filled.routes _ owner).mp row
    have valid := formed.prefixesValid pre mem
    exact absurd ⟨owns_under valid mem (channelIsInPrefix_self pre),
      owns_under_claim valid his⟩ (apart other isOther pre)
  · intro pre mem existing owner row _
    obtain ⟨other, isOther, -, his⟩ := (filled.prefixes existing owner).mp row
    have mine := formed.prefixesValid pre mem
    have valid := filled.prefixesValid other isOther existing his
    rw [channelPrefixesOverlap, Bool.or_eq_false_iff]
    constructor
    · rw [← Bool.not_eq_true]
      intro isIn
      exact apart other isOther pre ⟨owns_under mine mem (channelIsInPrefix_self pre),
        owns_under mine his isIn⟩
    · rw [← Bool.not_eq_true]
      intro isIn
      exact apart other isOther existing ⟨owns_under valid mem isIn,
        owns_under valid his (channelIsInPrefix_self existing)⟩

/-- The namespaces accepted are disjoint, and a well formed registration is refused only for
a channel that one of them has. -/
theorem accepted_namespaces_disjoint (accepted : acceptAll .new rs = .ok t) :
    rs.Pairwise Disjoint ∧
      ∀ reg msg, WellFormed reg → accept t reg = .error msg →
        ∃ channel, Owns reg channel ∧ ∃ other ∈ rs, Owns other channel := by
  obtain ⟨filled, apart⟩ := filled_new.acceptAll List.Pairwise.nil accepted
  rw [List.nil_append] at filled apart
  refine ⟨apart, fun reg msg formed refused => ?_⟩
  by_contra unshared
  have free := filled.noCollision formed fun other mem channel both =>
    unshared ⟨channel, both.1, other, mem, both.2⟩
  rw [accept, validate_of_noCollision formed free] at refused
  cases refused

/-- `ab` and `abc` are apart; a prefix below the claim `dev` is refused. -/
theorem accepted_namespaces_disjoint_beside :
    ∃ t, acceptAll .new [⟨"dev", [], ["ab"]⟩, ⟨"deva", ["abc"], ["ci.ab"]⟩] = .ok t ∧
      Disjoint ⟨"dev", [], ["ab"]⟩ ⟨"deva", ["abc"], ["ci.ab"]⟩ ∧
      ∃ msg channel, accept t ⟨"hook", [], ["dev.build"]⟩ = .error msg ∧
        Owns ⟨"hook", [], ["dev.build"]⟩ channel := by
  let rs : List Registration := [⟨"dev", [], ["ab"]⟩, ⟨"deva", ["abc"], ["ci.ab"]⟩]
  let late : Registration := ⟨"hook", [], ["dev.build"]⟩
  have run : (acceptAll .new rs).isOk = true := by decide
  have refused : ((acceptAll .new rs).bind (accept · late)).isOk = false := by decide
  have formed : WellFormed late := ⟨by decide, by decide, by decide, by decide⟩
  cases ok : acceptAll .new rs with
  | error msg =>
    rw [ok] at run
    cases run
  | ok t =>
    have both := accepted_namespaces_disjoint ok
    rw [ok] at refused
    cases no : accept t late with
    | ok u =>
      rw [Except.bind, no] at refused
      cases refused
    | error msg =>
      obtain ⟨channel, mine, -⟩ := both.2 late msg formed no
      exact ⟨t, rfl, List.rel_of_pairwise_cons both.1 List.mem_cons_self, msg, channel, no, mine⟩

end Whdr.Namespaces
