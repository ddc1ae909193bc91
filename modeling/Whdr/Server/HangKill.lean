import Mathlib.Data.List.Induction
import Whdr.Lib.OrdMap
import Whdr.Lib.Runs
import Whdr.Proto.Messages

/-! Hang detection of one extension generation (`ExtHandle::dispatch` and the Result branch
of the reader, daemon.rs). A step is a branch without an await: the timeout branch counts,
compares and sends; the Result branch removes the entry and resets the counter. The command
channel of the supervisor has room. -/
namespace Whdr.HangKill

open Runs (Reaches exec guarded reaches_of_exec)

/-- A dispatch whose future waits. `hangKillThreshold` is that of the config it read when it
began; `pending`: its entry is in the window. -/
structure Waiting where
  hangKillThreshold : Nat
  pending : Bool
  deriving DecidableEq, Repr

/-- A timeout since the last accepted Result: the threshold in force for its dispatch, and
whether it sent a command. -/
structure Counted where
  threshold : Nat
  killed : Bool
  deriving DecidableEq, Repr

/-- `commands`: the reasons of the `KillAndRespawn`s sent. `streak` records, oldest first,
the timeouts since the last accepted Result; no step reads it. -/
structure State where
  hangKillThreshold : Nat
  dispatches : OrdMap Uuid Waiting
  consecutiveTimeouts : Nat
  commands : List String
  streak : List Counted
  deriving DecidableEq

inductive Action
  | reload (hangKillThreshold : Nat)
  | dispatch (r : Uuid)
  | result (r : Uuid)
  | timeout (r : Uuid)
  | finish (r : Uuid)
  deriving DecidableEq, Repr

def Waiting.threshold (d : Waiting) : Nat := max d.hangKillThreshold 1

/-- The timeout branch of `dispatch`; `wait` has removed the entry. -/
def timeout (s : State) (r : Uuid) (d : Waiting) : State :=
  let timeouts := s.consecutiveTimeouts + 1
  let killed := decide (timeouts = d.threshold)
  { s with
    dispatches := s.dispatches.erase r
    consecutiveTimeouts := timeouts
    commands := s.commands ++
      if killed then [toString timeouts ++ " consecutive dispatch timeouts"] else []
    streak := s.streak ++ [⟨d.threshold, killed⟩] }

/-- A Result line: accepted if its entry is in the window, late or unknown otherwise. -/
def result (s : State) (r : Uuid) : State :=
  match s.dispatches.get? r with
  | some d =>
    if d.pending then
      { s with
        dispatches := s.dispatches.insert r { d with pending := false }
        consecutiveTimeouts := 0
        streak := [] }
    else s
  | none => s

/-- A future that does not time out gets its result, finds its sender gone or is dropped. -/
def step (s : State) : Action → Option State
  | .reload hangKillThreshold => some { s with hangKillThreshold := hangKillThreshold }
  | .dispatch r =>
    if (s.dispatches.get? r).isSome then none
    else some { s with dispatches := s.dispatches.insert r ⟨s.hangKillThreshold, true⟩ }
  | .result r => some (result s r)
  | .timeout r => (s.dispatches.get? r).map (timeout s r)
  | .finish r => some { s with dispatches := s.dispatches.erase r }

/-- A new generation. -/
def Starts (s : State) : Prop :=
  s.dispatches = .empty ∧ s.consecutiveTimeouts = 0 ∧ s.commands = [] ∧ s.streak = []

/-! ## The property and its condition -/

/-- A timeout that brings the streak to its threshold finds a command sent in the streak, or
sends one. -/
def Detected (streak : List Counted) : Prop :=
  ∀ i c, streak[i]? = some c → c.threshold ≤ i + 1 →
    ∃ j d, j ≤ i ∧ streak[j]? = some d ∧ d.killed = true

/-- The first dispatch of a streak whose threshold is at most its place in the streak has a
threshold of exactly its place. -/
def FirstExact (streak : List Counted) : Prop :=
  ∀ i c, streak[i]? = some c → c.threshold ≤ i + 1 →
    (∀ j d, j < i → streak[j]? = some d → j + 1 < d.threshold) → c.threshold = i + 1

def kills (streak : List Counted) : Nat := streak.countP Counted.killed

/-- No dispatch times out that had a lower threshold than one before it in the streak. -/
def Rising (s : State) : Action → Prop
  | .timeout r => ∀ d ∈ s.dispatches.get? r, ∀ c ∈ s.streak, c.threshold ≤ d.threshold
  | _ => True

instance (s : State) (a : Action) : Decidable (Rising s a) :=
  match a with
  | .timeout r =>
    inferInstanceAs (Decidable (∀ d ∈ s.dispatches.get? r, ∀ c ∈ s.streak, c.threshold ≤ d.threshold))
  | .reload _ | .dispatch _ | .result _ | .finish _ => isTrue trivial

/-! ## The counter -/

/-- The counter numbers the timeouts of the streak, and a timeout sends exactly if its number
is its threshold. -/
structure Valid (s : State) : Prop where
  counter : s.consecutiveTimeouts = s.streak.length
  numbered : ∀ i c, s.streak[i]? = some c → c.killed = decide (i + 1 = c.threshold)
  positive : ∀ c ∈ s.streak, 1 ≤ c.threshold

variable {s t : State} {a : Action} {streak : List Counted}

/-- A step leaves the streak and the counter alone, ends the streak or adds a timeout to it. -/
theorem step_streak (hs : step s a = some t) :
    (t.streak = s.streak ∧ t.consecutiveTimeouts = s.consecutiveTimeouts) ∨
      (t.streak = [] ∧ t.consecutiveTimeouts = 0) ∨
      ∃ r, ∃ d ∈ s.dispatches.get? r, a = .timeout r ∧
        t.consecutiveTimeouts = s.consecutiveTimeouts + 1 ∧
        t.streak = s.streak ++
          [⟨d.threshold, decide (s.consecutiveTimeouts + 1 = d.threshold)⟩] := by
  cases a with
  | reload n | finish r =>
    cases hs
    exact .inl ⟨rfl, rfl⟩
  | dispatch r =>
    simp only [step] at hs
    split at hs
    · cases hs
    · cases hs
      exact .inl ⟨rfl, rfl⟩
  | result r =>
    cases hs
    unfold result
    split
    · split
      · exact .inr (.inl ⟨rfl, rfl⟩)
      · exact .inl ⟨rfl, rfl⟩
    · exact .inl ⟨rfl, rfl⟩
  | timeout r =>
    obtain ⟨d, found, rfl⟩ := Option.map_eq_some_iff.mp hs
    exact .inr (.inr ⟨r, d, found, rfl, rfl, rfl⟩)

theorem getElem?_snoc {c e : Counted} {i : Nat} (at' : (streak ++ [e])[i]? = some c) :
    streak[i]? = some c ∨ i = streak.length ∧ c = e := by
  by_cases inside : i < streak.length
  · rw [List.getElem?_append_left inside] at at'
    exact .inl at'
  · rw [List.getElem?_append_right (by omega), List.getElem?_singleton] at at'
    split at at'
    · exact .inr ⟨by omega, (Option.some.inj at').symm⟩
    · cases at'

theorem step_valid (valid : Valid s) (hs : step s a = some t) : Valid t := by
  obtain ⟨same, counter⟩ | ⟨none, counter⟩ | ⟨r, d, _, _, counter, more⟩ := step_streak hs
  · exact ⟨by rw [same, counter, valid.counter], same ▸ valid.numbered, same ▸ valid.positive⟩
  · constructor
    · rw [none, counter]
      rfl
    · intro i c at'
      simp [none] at at'
    · simp [none]
  · constructor
    · rw [counter, more, valid.counter, List.length_append]
      rfl
    · intro i c at'
      rw [more] at at'
      obtain before | ⟨rfl, rfl⟩ := getElem?_snoc at'
      · exact valid.numbered i c before
      · rw [valid.counter]
    · intro c mem
      rw [more, List.mem_append, List.mem_singleton] at mem
      obtain before | rfl := mem
      · exact valid.positive c before
      · exact Nat.le_max_right _ _

theorem reaches_valid {ok : State → Action → Prop} (reached : Reaches Starts step ok s) :
    Valid s := by
  refine reached.invariant Valid ?_ fun s a t _ valid _ hs => step_valid valid hs
  rintro s ⟨_, counter, _, none⟩
  constructor
  · rw [counter, none]
    rfl
  · intro i c at'
    simp [none] at at'
  · simp [none]

/-! ## What a streak shows -/

theorem detected_of_firstExact (valid : Valid s) (first : FirstExact s.streak) :
    Detected s.streak := by
  intro i
  induction i using Nat.strong_induction_on with
  | _ i ih =>
    intro c at' reached
    by_cases earlier : ∃ j d, j < i ∧ s.streak[j]? = some d ∧ d.threshold ≤ j + 1
    · obtain ⟨j, d, lt, atJ, low⟩ := earlier
      obtain ⟨k, e, le, atK, killed⟩ := ih j lt d atJ low
      exact ⟨k, e, by omega, atK, killed⟩
    · have exactly : c.threshold = i + 1 := by
        apply first i c at' reached
        intro j d lt atJ
        by_contra low
        exact earlier ⟨j, d, lt, atJ, by omega⟩
      refine ⟨i, c, Nat.le_refl _, at', ?_⟩
      rw [valid.numbered i c at', exactly]
      exact decide_eq_true rfl

theorem firstExact_of_detected (valid : Valid s) (detected : Detected s.streak) :
    FirstExact s.streak := by
  intro i c at' reached before
  obtain ⟨j, d, le, atJ, killed⟩ := detected i c at' reached
  have exactly : j + 1 = d.threshold := by
    rw [valid.numbered j d atJ] at killed
    exact of_decide_eq_true killed
  obtain rfl | lt := Nat.eq_or_lt_of_le le
  · rw [at'] at atJ
    cases atJ
    exact exactly.symm
  · have := before j d lt atJ
    omega

/-- Under one threshold the command is sent at one place. -/
theorem kills_unchanged {n : Nat} (positive : 1 ≤ n)
    (numbered : ∀ i c, streak[i]? = some c → c.killed = decide (i + 1 = c.threshold))
    (unchanged : ∀ c ∈ streak, c.threshold = n) :
    kills streak = if n ≤ streak.length then 1 else 0 := by
  induction streak using List.reverseRecOn with
  | nil =>
    rw [List.length_nil, if_neg (by omega)]
    rfl
  | append_singleton streak c ih =>
    have last : c.killed = decide (streak.length + 1 = n) := by
      have same := unchanged c (List.mem_append_right _ (List.mem_singleton_self _))
      have := numbered streak.length c (by simp)
      rwa [same] at this
    have before : kills streak = if n ≤ streak.length then 1 else 0 := by
      apply ih
      · intro i d at'
        apply numbered i d
        rw [List.getElem?_append_left (List.getElem?_eq_some_iff.mp at').1]
        exact at'
      · exact fun d mem => unchanged d (List.mem_append_left _ mem)
    rw [kills] at before ⊢
    rw [List.countP_append, List.countP_singleton, before, last, List.length_append,
      List.length_singleton]
    by_cases here : streak.length + 1 = n
    · simp [here]
      omega
    · by_cases earlier : n ≤ streak.length
      · simp [here, earlier]
        omega
      · have later : ¬ n ≤ streak.length + 1 := by omega
        simp [here, earlier, later]

/-- Thresholds that do not fall cannot be jumped over. -/
theorem firstExact_of_rising (valid : Valid s)
    (rising : s.streak.Pairwise fun c d => c.threshold ≤ d.threshold) : FirstExact s.streak := by
  intro i c at' reached before
  cases i with
  | zero =>
    have := valid.positive c (List.mem_of_getElem? at')
    omega
  | succ k =>
    obtain ⟨inside, eq⟩ := List.getElem?_eq_some_iff.mp at'
    have prior := before k s.streak[k] (by omega) (List.getElem?_eq_getElem (by omega))
    have le := List.pairwise_iff_getElem.mp rising k (k + 1) (by omega) inside (by omega)
    rw [eq] at le
    omega

theorem reaches_rising (reached : Reaches Starts step Rising s) :
    s.streak.Pairwise fun c d => c.threshold ≤ d.threshold := by
  refine reached.invariant (fun s => s.streak.Pairwise fun c d => c.threshold ≤ d.threshold) ?_ ?_
  · rintro s ⟨_, _, _, none⟩
    rw [none]
    exact .nil
  · intro s a t _ rising ok hs
    obtain ⟨same, _⟩ | ⟨none, _⟩ | ⟨r, d, found, rfl, _, more⟩ := step_streak hs
    · rw [same]
      exact rising
    · rw [none]
      exact .nil
    · rw [more]
      refine List.pairwise_append.mpr ⟨rising, List.pairwise_singleton _ _, ?_⟩
      intro c mem e isLast
      rw [List.mem_singleton.mp isLast]
      exact ok d found c mem

/-- In every state of every run: the streak so far was detected exactly if no threshold in it
was jumped over, which no run does whose thresholds do not fall within a streak; and a streak
under one threshold sends one command, when it reaches it. -/
theorem hang_detected {ok : State → Action → Prop} (reached : Reaches Starts step ok s) :
    (Detected s.streak ↔ FirstExact s.streak) ∧
      (∀ n, 1 ≤ n → (∀ c ∈ s.streak, c.threshold = n) →
        kills s.streak = if n ≤ s.streak.length then 1 else 0) ∧
      (Reaches Starts step Rising s → Detected s.streak) := by
  have valid := reaches_valid reached
  refine ⟨⟨firstExact_of_detected valid, detected_of_firstExact valid⟩, ?_, ?_⟩
  · intro n positive unchanged
    exact kills_unchanged positive valid.numbered unchanged
  · intro rising
    exact detected_of_firstExact valid (firstExact_of_rising valid (reaches_rising rising))

/-- Two dispatches time out, then one that began after the reload. -/
def threeTimeouts (after : Nat) : List Action :=
  [.dispatch 1, .dispatch 2, .timeout 1, .timeout 2, .reload after, .dispatch 3, .timeout 3]

def idle (hangKillThreshold : Nat) : State := ⟨hangKillThreshold, .empty, 0, [], []⟩

theorem idle_starts (n : Nat) : Starts (idle n) := ⟨rfl, rfl, rfl, rfl⟩

theorem hang_detected_unchanged :
    ∃ s, Reaches Starts step Rising s ∧ s.commands = ["3 consecutive dispatch timeouts"] ∧
      Detected s.streak ∧ kills s.streak = 1 := by
  have run : (exec (guarded Rising step) (idle 3) (threeTimeouts 3)).map
      (fun s => (s.commands, s.streak)) = some (["3 consecutive dispatch timeouts"],
        [⟨3, false⟩, ⟨3, false⟩, ⟨3, true⟩]) := by decide
  obtain ⟨s, hs, both⟩ := Option.map_eq_some_iff.mp run
  obtain ⟨commands, streak⟩ := Prod.mk.inj both
  have reached : Reaches Starts step Rising s := reaches_of_exec _ (.start (idle_starts 3)) hs
  have law := hang_detected reached
  refine ⟨s, reached, commands, law.2.2 reached, ?_⟩
  have once := law.2.1 3 (by decide) (by rw [streak]; decide)
  rwa [streak] at once ⊢

/-- A reload lowers the threshold under the counter, which has passed it. -/
theorem streak_missed :
    ¬ ∀ s, Reaches Starts step (fun _ _ => True) s → Detected s.streak := by
  intro all
  have run : (exec (guarded (fun _ _ => True) step) (idle 3) (threeTimeouts 1)).map
      State.streak = some [⟨3, false⟩, ⟨3, false⟩, ⟨1, false⟩] := by decide
  obtain ⟨s, hs, streak⟩ := Option.map_eq_some_iff.mp run
  have detected := all s (reaches_of_exec _ (.start (idle_starts 3)) hs)
  rw [streak] at detected
  obtain ⟨j, d, le, at', killed⟩ := detected 2 ⟨1, false⟩ rfl (by decide)
  have none : ∀ d ∈ [⟨3, false⟩, ⟨3, false⟩, (⟨1, false⟩ : Counted)], d.killed = false := by decide
  rw [none d (List.mem_of_getElem? at')] at killed
  cases killed

end Whdr.HangKill
