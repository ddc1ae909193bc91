import Mathlib.Data.List.Induction
import Whdr.Lib.OrdMap
import Whdr.Proto.Messages

/-! When a candidate that exits is started again, and when it is given up
(`next_respawn_delay` of daemon.rs). An instant is a number of nanoseconds. -/
namespace Whdr.Respawn

structure Limits where
  crashloopThreshold : Nat
  crashloopWindowMs : Nat
  deriving DecidableEq, Repr

/-- `restarts` counts the delays given, `recentExits` is the deque, oldest first. -/
structure SupervisorState where
  restarts : Nat
  recentExits : List Nat
  deriving DecidableEq, Repr

def SupervisorState.default : SupervisorState := ⟨0, []⟩

def initialRespawnBackoffMs : Nat := 250

def maxRespawnBackoffMs : Nat := 30000

def saturatingMul (a b : Nat) : Nat := min (a * b) (u64Size - 1)

/-- `1u64 << shift`: the bits above are lost. -/
def shiftOne (shift : Nat) : Nat := (1 <<< shift) % u64Size

namespace Limits

def threshold (limits : Limits) : Nat := max limits.crashloopThreshold 1

def windowMs (limits : Limits) : Nat := max limits.crashloopWindowMs 1

def crashloopReason (limits : Limits) : String :=
  "extension entered crashloop: " ++ toString limits.threshold ++ " exits within " ++
    toString limits.windowMs ++ "ms"

/-- `now.duration_since(exit) <= window`; the difference saturates at zero. -/
def within (limits : Limits) (now exit : Nat) : Bool := now - exit ≤ limits.windowMs * 1000000

end Limits

/-- The exit at `now` is counted first. A candidate given up is an error with the reason that
is recorded; its exits stay in the deque. -/
def nextRespawnDelay (limits : Limits) (id : String) (now : Nat)
    (supervisor : OrdMap String SupervisorState) :
    Except String Nat × OrdMap String SupervisorState :=
  let state := (supervisor.get? id).getD .default
  let recentExits := state.recentExits.dropWhile (fun exit => !limits.within now exit) ++ [now]
  if limits.threshold ≤ recentExits.length then
    (.error limits.crashloopReason, supervisor.insert id ⟨state.restarts, recentExits⟩)
  else
    let shift := min state.restarts 7
    (.ok (min (saturatingMul initialRespawnBackoffMs (shiftOne shift)) maxRespawnBackoffMs),
      supervisor.insert id ⟨state.restarts + 1, recentExits⟩)

/-! ## Calls one after the other -/

/-- Who exited, and when. -/
abbrev Exit := String × Nat

/-- `delays` are the delays given so far, each with its candidate. -/
structure State where
  supervisor : OrdMap String SupervisorState
  delays : List (String × Nat)
  deriving DecidableEq

def step (limits : Limits) (s : State) (exit : Exit) : State :=
  match nextRespawnDelay limits exit.1 exit.2 s.supervisor with
  | (.ok delay, supervisor) => ⟨supervisor, s.delays ++ [(exit.1, delay)]⟩
  | (.error _, supervisor) => ⟨supervisor, s.delays⟩

def run (limits : Limits) (exits : List Exit) : State :=
  exits.foldl (step limits) ⟨.empty, []⟩

/-- The instants at which one candidate exited. -/
def exitsOf (id : String) (exits : List Exit) : List Nat :=
  (exits.filter (·.1 == id)).map Prod.snd

def State.delaysOf (s : State) (id : String) : List Nat :=
  (s.delays.filter (·.1 == id)).map Prod.snd

def State.stateOf (s : State) (id : String) : SupervisorState :=
  (s.supervisor.get? id).getD .default

/-- The delay after `k` delays. -/
def backoff (k : Nat) : Nat := min (250 * 2 ^ min k 7) 30000

/-! ## The deque and the shift -/

variable {limits : Limits} {now later : Nat} {deque instants : List Nat} {s : State}
  {id : String} {exits : List Exit}

/-- Neither the shift nor the product leaves 64 bits. -/
theorem product_fits (k : Nat) : min k 7 < 64 ∧ 250 * 2 ^ min k 7 < u64Size := by
  have small : min k 7 ≤ 7 := Nat.min_le_right _ _
  have factor : 2 ^ min k 7 ≤ 2 ^ 7 := Nat.pow_le_pow_right (by decide) small
  have fits : 250 * 2 ^ 7 < u64Size := by decide
  exact ⟨by omega, by omega⟩

theorem delay_eq_backoff (k : Nat) :
    min (saturatingMul initialRespawnBackoffMs (shiftOne (min k 7))) maxRespawnBackoffMs =
      backoff k := by
  obtain ⟨_, fits⟩ := product_fits k
  have shifted : shiftOne (min k 7) = 2 ^ min k 7 := by
    rw [shiftOne, Nat.one_shiftLeft, Nat.mod_eq_of_lt (by omega)]
  rw [backoff, saturatingMul, shifted, initialRespawnBackoffMs, maxRespawnBackoffMs]
  omega

theorem backoff_mono {j k : Nat} (le : j ≤ k) : backoff j ≤ backoff k := by
  have shift : min j 7 ≤ min k 7 := by omega
  have factor : 2 ^ min j 7 ≤ 2 ^ min k 7 := Nat.pow_le_pow_right (by decide) shift
  rw [backoff, backoff]
  omega

theorem within_of_later (le : now ≤ later) {exit : Nat} (isIn : limits.within later exit = true) :
    limits.within now exit = true := by
  rw [Limits.within, decide_eq_true_eq] at isIn ⊢
  omega

/-- In ascending order the exits out of the window stand in front. -/
theorem dropWhile_window (sorted : deque.Pairwise (· ≤ ·)) :
    deque.dropWhile (fun exit => !limits.within now exit) = deque.filter (limits.within now) := by
  induction deque with
  | nil => rfl
  | cons exit rest ih =>
    obtain ⟨least, sorted⟩ := List.pairwise_cons.mp sorted
    cases isIn : limits.within now exit with
    | false => simp [isIn, ih sorted]
    | true =>
      have all : ∀ e ∈ rest, limits.within now e = true := by
        intro e mem
        have := least e mem
        rw [Limits.within, decide_eq_true_eq] at isIn ⊢
        omega
      simp [isIn, List.filter_eq_self.mpr all]

/-- What the deque keeps of all the exits: whatever can still be in a window. -/
structure Keeps (limits : Limits) (instants deque : List Nat) : Prop where
  sublist : deque.Sublist instants
  windows : ∀ now, (∀ t ∈ instants, t ≤ now) →
    deque.filter (limits.within now) = instants.filter (limits.within now)

theorem Keeps.exit (keeps : Keeps limits instants deque)
    (sorted : (instants ++ [now]).Pairwise (· ≤ ·)) :
    deque.dropWhile (fun exit => !limits.within now exit) ++ [now] =
        (instants ++ [now]).filter (limits.within now) ∧
      Keeps limits (instants ++ [now])
        (deque.dropWhile (fun exit => !limits.within now exit) ++ [now]) := by
  obtain ⟨before, -, last⟩ := List.pairwise_append.mp sorted
  have newest : ∀ t ∈ instants, t ≤ now := fun t mem => last t mem now (List.mem_singleton_self _)
  have here : limits.within now now = true := by simp [Limits.within]
  have window : deque.dropWhile (fun exit => !limits.within now exit) ++ [now] =
      (instants ++ [now]).filter (limits.within now) := by
    rw [dropWhile_window (before.sublist keeps.sublist), keeps.windows now newest,
      List.filter_append, List.filter_singleton, here]
    rfl
  refine ⟨window, ?_⟩
  rw [window]
  refine ⟨List.filter_sublist, fun later newest => ?_⟩
  rw [List.filter_filter]
  apply List.filter_congr
  intro t mem
  have le := newest now (List.mem_append_right _ (List.mem_singleton_self _))
  cases isIn : limits.within later t with
  | false => rfl
  | true => rw [within_of_later le isIn]; rfl

/-! ## What the calls keep -/

/-- For one candidate: the deque, the counter and the delays given. -/
structure Tracks (limits : Limits) (id : String) (exits : List Exit) (s : State) : Prop where
  keeps : Keeps limits (exitsOf id exits) (s.stateOf id).recentExits
  restarts : (s.stateOf id).restarts = (s.delaysOf id).length
  delays : s.delaysOf id = (List.range (s.delaysOf id).length).map backoff

theorem exitsOf_append (exits : List Exit) (exit : Exit) :
    exitsOf id (exits ++ [exit]) =
      if exit.1 = id then exitsOf id exits ++ [exit.2] else exitsOf id exits := by
  by_cases own : exit.1 = id
  · simp [exitsOf, List.filter_append, own]
  · simp [exitsOf, List.filter_append, own]

theorem run_append (exits : List Exit) (exit : Exit) :
    run limits (exits ++ [exit]) = step limits (run limits exits) exit := by
  rw [run, List.foldl_append]
  rfl

/-- The exits in the window that ends now, this one included. -/
def inWindow (limits : Limits) (id : String) (now : Nat) (exits : List Exit) : List Nat :=
  (exitsOf id exits ++ [now]).filter (limits.within now)

/-- One call for the candidate, with its deque as a window over all its exits. -/
theorem nextRespawnDelay_window (tracks : Tracks limits id exits s)
    (sorted : (exitsOf id exits ++ [now]).Pairwise (· ≤ ·)) :
    nextRespawnDelay limits id now s.supervisor =
      if limits.threshold ≤ (inWindow limits id now exits).length then
        (.error limits.crashloopReason,
          s.supervisor.insert id ⟨(s.delaysOf id).length, inWindow limits id now exits⟩)
      else
        (.ok (backoff (s.delaysOf id).length),
          s.supervisor.insert id ⟨(s.delaysOf id).length + 1, inWindow limits id now exits⟩) := by
  have window := (tracks.keeps.exit sorted).1
  have restarts := tracks.restarts
  rw [State.stateOf] at window restarts
  simp only [nextRespawnDelay, window, restarts, delay_eq_backoff, inWindow]
  exact if_congr Iff.rfl rfl rfl

/-- A call writes the row of its own candidate only. -/
theorem nextRespawnDelay_other {other : String} (ne : id ≠ other)
    (supervisor : OrdMap String SupervisorState) :
    (nextRespawnDelay limits other now supervisor).2.get? id = supervisor.get? id := by
  unfold nextRespawnDelay
  dsimp only
  split
  · exact supervisor.get?_insert_ne _ ne
  · exact supervisor.get?_insert_ne _ ne

theorem step_other {exit : Exit} (ne : id ≠ exit.1) (tracks : Tracks limits id exits s) :
    Tracks limits id (exits ++ [exit]) (step limits s exit) := by
  have row := @nextRespawnDelay_other limits exit.2 id exit.1 ne s.supervisor
  have state : (step limits s exit).stateOf id = s.stateOf id := by
    unfold step State.stateOf
    split <;> rename_i answer <;> rw [answer] at row <;> rw [row]
  have delays : (step limits s exit).delaysOf id = s.delaysOf id := by
    unfold step
    split
    · simp [State.delaysOf, List.filter_append, ne.symm]
    · rfl
  constructor
  · rw [exitsOf_append, if_neg ne.symm, state]
    exact tracks.keeps
  · rw [state, delays]
    exact tracks.restarts
  · rw [delays]
    exact tracks.delays

theorem step_own (tracks : Tracks limits id exits s)
    (sorted : (exitsOf id exits ++ [now]).Pairwise (· ≤ ·)) :
    Tracks limits id (exits ++ [(id, now)]) (step limits s (id, now)) := by
  have keeps : Keeps limits (exitsOf id (exits ++ [(id, now)])) (inWindow limits id now exits) := by
    obtain ⟨window, keeps⟩ := tracks.keeps.exit sorted
    rw [exitsOf_append, if_pos rfl, inWindow, ← window]
    exact keeps
  have answer := nextRespawnDelay_window tracks sorted
  by_cases crashloop : limits.threshold ≤ (inWindow limits id now exits).length
  · rw [if_pos crashloop] at answer
    have after : step limits s (id, now) = ⟨s.supervisor.insert id
        ⟨(s.delaysOf id).length, inWindow limits id now exits⟩, s.delays⟩ := by
      rw [step, answer]
    rw [after]
    refine ⟨?_, ?_, tracks.delays⟩
    · simpa [State.stateOf] using keeps
    · simp [State.stateOf, State.delaysOf]
  · rw [if_neg crashloop] at answer
    have after : step limits s (id, now) = ⟨s.supervisor.insert id
        ⟨(s.delaysOf id).length + 1, inWindow limits id now exits⟩,
        s.delays ++ [(id, backoff (s.delaysOf id).length)]⟩ := by
      rw [step, answer]
    have delays : (step limits s (id, now)).delaysOf id =
        s.delaysOf id ++ [backoff (s.delaysOf id).length] := by
      simp [after, State.delaysOf, List.filter_append]
    refine ⟨?_, ?_, ?_⟩
    · simpa [after, State.stateOf] using keeps
    · rw [delays, after]
      simp [State.stateOf]
    · rw [delays, List.length_append, List.length_singleton, List.range_succ, List.map_append,
        ← tracks.delays]
      rfl

theorem run_tracks (sorted : (exitsOf id exits).Pairwise (· ≤ ·)) :
    Tracks limits id exits (run limits exits) := by
  induction exits using List.reverseRecOn with
  | nil => exact ⟨⟨.slnil, fun _ _ => rfl⟩, rfl, rfl⟩
  | append_singleton exits exit ih =>
    rw [run_append]
    rw [exitsOf_append] at sorted
    by_cases own : exit.1 = id
    · rw [if_pos own] at sorted
      obtain ⟨_, now⟩ := exit
      cases own
      exact step_own (ih (List.pairwise_append.mp sorted).1) sorted
    · rw [if_neg own] at sorted
      exact step_other (Ne.symm own) (ih sorted)

/-- The call for the exit at `now`, after any calls for this candidate and others. It gives up
exactly if the window that ends at `now` holds enough exits; else the delay doubles with each
delay given before, up to the cap. -/
theorem respawn_policy (limits : Limits) (exits : List Exit) (id : String) (now : Nat)
    (sorted : (exitsOf id exits ++ [now]).Pairwise (· ≤ ·)) :
    let s := run limits exits
    let answer := (nextRespawnDelay limits id now s.supervisor).1
    let k := (s.delaysOf id).length
    ((∃ reason, answer = .error reason) ↔ max limits.crashloopThreshold 1 ≤
      ((exitsOf id exits ++ [now]).filter fun t =>
        now - t ≤ max limits.crashloopWindowMs 1 * 1000000).length) ∧
    (∀ delay, answer = .ok delay → delay = min (250 * 2 ^ min k 7) 30000) ∧
    ((run limits (exits ++ [(id, now)])).delaysOf id).Pairwise (· ≤ ·) ∧
    min k 7 < 64 ∧ 250 * 2 ^ min k 7 < u64Size := by
  intro s answer k
  have tracks : Tracks limits id exits s := run_tracks (List.pairwise_append.mp sorted).1
  have given := nextRespawnDelay_window tracks sorted
  have after := step_own tracks sorted
  refine ⟨?_, ?_, ?_, product_fits k⟩
  · change _ ↔ limits.threshold ≤ (inWindow limits id now exits).length
    simp only [answer, given]
    split
    · rename_i crashloop
      simpa using crashloop
    · rename_i respawn
      simpa using respawn
  · intro delay
    simp only [answer, given]
    split
    · intro eq
      cases eq
    · intro eq
      cases eq
      rfl
  · rw [run_append, after.delays, List.pairwise_map]
    exact List.pairwise_lt_range.imp fun lt => backoff_mono (Nat.le_of_lt lt)

/-- Three exits within the window of a second; the fourth comes after it. -/
theorem respawn_policy_window :
    let s := run ⟨3, 1000⟩ [("dev", 0), ("ci", 5), ("dev", 1000000000)]
    (∃ reason, (nextRespawnDelay ⟨3, 1000⟩ "dev" 1000000000 s.supervisor).1 = .error reason) ∧
      (nextRespawnDelay ⟨3, 1000⟩ "dev" 2000000001 s.supervisor).1 = .ok 1000 ∧
      s.delaysOf "dev" = [250, 500] := by
  have law := respawn_policy ⟨3, 1000⟩ [("dev", 0), ("ci", 5), ("dev", 1000000000)] "dev" 1000000000
    (by decide)
  exact ⟨law.1.mpr (by decide), by rfl, by rfl⟩

end Whdr.Respawn
