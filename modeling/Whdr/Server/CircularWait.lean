import Whdr.Server.TableLocks

/-! Tasks on the table locks do not wait for each other in a circle, as long as no
registration asks for a table that a task before it on `extensions` has still to ask for. -/
namespace Whdr.TableLocks

open FairLocks
open Runs (Reaches exec guarded reaches_of_exec)

variable {s : State Lock Section} {D : Nat → Prop} {t r v : Nat} {l : Lock}

/-! ## One waiting task -/

/-- The task waits in the `join!` of a registration. -/
def Registering (s : State Lock Section) (t : Nat) : Prop :=
  (∃ p, s.now t = .await tables :: p) ∧ ∀ l ∈ tables, ⟨t, .write⟩ ∈ s.queue l

theorem Registering.mem_line (reg : Registering s t) (table : l ∈ tables) : t ∈ s.line l :=
  mem_waiters.mpr ⟨.write, reg.2 l table⟩

/-- The task waits for one lock, the highest of those it is in line for. -/
structure WaitsAt (s : State Lock Section) (t : Nat) (k : Lock) : Prop where
  now : ∃ p, s.now t = .await [k] :: p
  highest : ∀ l, t ∈ s.line l → l = k ∨ level l < level k
  last : t ∈ s.line .extensions → k ≠ .extensions →
    asksBefore .channelPrefixes .extensions (s.now t) = false → k = .channelPrefixes

theorem waiting_cases (valid : Valid Section.instrs s) (waits : WaitsFor s t v) :
    Registering s t ∨ ∃ k, WaitsAt s t k := by
  obtain ⟨ls, p, now, _⟩ := waits
  have climbs : Climbs (.await ls :: p) := by
    obtain none | ⟨sec, inside⟩ := valid.within t
    · rw [now] at none
      cases none
    · rw [now] at inside
      exact sections_climb sec _ ((List.mem_tails _ _).mpr inside)
  have inLine : ∀ l, t ∈ s.line l → ∃ q ∈ owed p, q.1 = l := by
    intro l mem
    obtain ⟨m, mem⟩ := valid.mem_line.mp mem
    rw [now] at mem
    exact ⟨(l, m), mem, rfl⟩
  obtain ⟨rfl, requests⟩ | ⟨k, _, rfl, highest, last⟩ := climbs
  · refine .inl ⟨⟨p, now⟩, fun l table => ?_⟩
    rw [valid.queued, now]
    exact requests l table
  · refine .inr ⟨k, ⟨p, now⟩, fun l mem => ?_, fun mem => ?_⟩
    · obtain ⟨q, inside, rfl⟩ := inLine l mem
      exact highest q inside
    · rw [now]
      exact last (inLine _ mem)

theorem WaitsAt.waits (at' : WaitsAt s t l) (waits : WaitsFor s t v) : Before (s.line l) v t := by
  obtain ⟨ls, p, now, k, mem, _, before⟩ := waits
  obtain ⟨p', now'⟩ := at'.now
  rw [now] at now'
  cases now'
  rw [← List.mem_singleton.mp mem]
  exact before

/-! ## A circle -/

section
variable (valid : Valid Section.instrs s)
  (circle : ∀ t, D t → ∃ u, D u ∧ WaitsFor s t u)
include valid circle

/-- The first of the circle in a line waits at a higher lock, or in a registration. -/
theorem first_waits_above (hr : D r) (mem : r ∈ s.line l)
    (first : ∀ w, D w → ¬ Before (s.line l) w r) :
    Registering s r ∨ ∃ k, WaitsAt s r k ∧ level l < level k := by
  obtain ⟨u, hu, waits⟩ := circle r hr
  obtain reg | ⟨k, at'⟩ := waiting_cases valid waits
  · exact .inl reg
  · obtain rfl | above := at'.highest l mem
    · exact absurd (at'.waits waits) (first u hu)
    · exact .inr ⟨k, at', above⟩

/-- Without a registration the circle would climb for ever. -/
theorem registering_of_circle (ht : D t) : ∃ r, D r ∧ Registering s r := by
  by_contra none
  have climbs : ∀ n t k, D t → WaitsAt s t k → level k + n < 3 := by
    intro n
    induction n with
    | zero =>
      intro t k _ _
      cases k <;> decide
    | succ n ih =>
      intro t k ht at'
      obtain ⟨u, hu, waits⟩ := circle t ht
      obtain ⟨g, hg, mem, _, first⟩ :=
        exists_first D (valid.nodup k) (at'.waits waits).mem.1 hu
      obtain reg | ⟨k', at', above⟩ := first_waits_above valid circle hg mem first
      · exact absurd ⟨g, hg, reg⟩ none
      · have := ih g k' hg at'
        omega
  obtain ⟨u, hu, waits⟩ := circle t ht
  obtain reg | ⟨k, at'⟩ := waiting_cases valid waits
  · exact none ⟨t, ht, reg⟩
  · have := climbs 3 t k ht at'
    omega

variable (follows : Follows .extensions s) (hr : D r) (reg : Registering s r)
  (first : ∀ w, D w ∧ Registering s w → ¬ Before (s.line .extensions) w r)
include follows hr reg first

/-- The registration that is first on `extensions` is first on its other tables. -/
theorem first_on_tables (table : l ∈ tables) (top : level l = 2) (hv : D v) :
    ¬ Before (s.line l) v r := by
  intro before
  obtain ⟨g, hg, mem, place, ahead⟩ :=
    exists_first D (valid.nodup l) (reg.mem_line table) hr
  have regG : Registering s g := by
    obtain reg | ⟨k, _, above⟩ := first_waits_above valid circle hg mem ahead
    · exact reg
    · have : level k ≤ 2 := by cases k <;> decide
      omega
  have ne : g ≠ r := by
    rintro rfl
    exact ahead v hv before
  have isIn (w : Nat) (reg : Registering s w) : w ∈ s.line .extensions := reg.mem_line (by decide)
  obtain order | order := before_total (isIn g regG) (isIn r reg) ne
  · exact first g ⟨hg, regG⟩ order
  · have other : l ≠ .extensions := by
      rintro rfl
      cases top
    have writes : ⟨g, .write⟩ ∈ s.queue .extensions := regG.2 _ (by decide)
    have behind := (follows g l other writes mem r order).2 (reg.mem_line table)
    exact ahead r hr behind

/-- It is first on `extensions` too: whoever stands before it there has asked for the
tables already, and would have to wait behind it. -/
theorem first_on_extensions (hv : D v) : ¬ Before (s.line .extensions) v r := by
  intro before
  obtain ⟨f, hf, mem, place, ahead⟩ := exists_first D (valid.nodup _) before.mem.1 hv
  have ne : f ≠ r := by
    rintro rfl
    exact ahead v hv before
  have order : Before (s.line .extensions) f r := by
    obtain order | order := before_total mem (reg.mem_line (by decide)) ne
    · exact order
    · exact absurd order (ahead r hr)
  obtain regF | ⟨k, at', above⟩ := first_waits_above valid circle hf mem ahead
  · exact first f ⟨hf, regF⟩ order
  · have other : k ≠ .extensions := by
      rintro rfl
      cases above
    have writes : ⟨r, .write⟩ ∈ s.queue .extensions := reg.2 _ (by decide)
    obtain ⟨none, behind⟩ := follows r .channelPrefixes (by decide) writes
      (reg.mem_line (by decide)) f order
    obtain rfl := at'.last mem other none
    obtain ⟨u, hu, waits⟩ := circle f hf
    have mem : f ∈ s.line .channelPrefixes := (at'.waits waits).mem.2
    exact first_on_tables valid circle follows hr reg first (by decide) rfl hf (behind mem)

end

theorem no_circle (valid : Valid Section.instrs s) (follows : Follows .extensions s) :
    ¬ CircularWait s := by
  rintro ⟨D, ⟨t, ht⟩, circle⟩
  obtain ⟨r, hr, reg⟩ := registering_of_circle valid circle ht
  have mem : r ∈ s.line .extensions := reg.mem_line (by decide)
  obtain ⟨r, ⟨hr, reg⟩, _, _, first⟩ := exists_first (fun t => D t ∧ Registering s t)
    (valid.nodup .extensions) mem ⟨hr, reg⟩
  obtain ⟨v, hv, ls, p, now, l, inside, _, before⟩ := circle r hr
  have table : l ∈ tables := by
    obtain ⟨p', now'⟩ := reg.1
    rw [now] at now'
    cases now'
    exact inside
  by_cases top : level l = 2
  · exact first_on_tables valid circle follows hr reg first table top hv before
  · have : l = .extensions := by
      cases l with
      | extensions => rfl
      | _ => simp [tables, level] at table top
    subst this
    exact first_on_extensions valid circle follows hr reg first hv before

/-- In every run in which a task asks for a lock while a request of its own still waits
only if no task before that request has still to ask for the lock, nobody waits in a circle. -/
theorem no_circular_wait (run : Reaches (· = State.new) step AsksInOrder s) : ¬ CircularWait s := by
  obtain ⟨valid, follows⟩ := reaches_valid sections_closed extensions_first run
  exact no_circle valid follows

/-- A registration asks for its tables once the status before it has asked for all of
them; it waits for `extensions`, which the status is about to give back. -/
def registrationBehindStatus : List (Action Routine) :=
  [.spawn .statusJson, .spawn (.startExtension .ready)] ++ List.replicate 15 (.run 0) ++
    List.replicate 8 (.run 1)

theorem no_circular_wait_behind_status :
    ∃ s, exec (guarded AsksInOrder step) .new registrationBehindStatus = some s ∧
      WaitsFor s 1 0 ∧ ¬ CircularWait s := by
  have run : (exec (guarded AsksInOrder step) .new registrationBehindStatus).any
      (fun s => decide (WaitsFor s 1 0)) = true := by decide
  obtain ⟨s, hs, waits⟩ := (Option.any_eq_true _ _).mp run
  exact ⟨s, hs, of_decide_eq_true waits, no_circular_wait (reaches_of_exec _ (.start rfl) hs)⟩

theorem circular_of_exec (actions : List (Action Routine))
    (run : (exec (guarded (fun _ _ => True) step) .new actions).any
      (fun s => decide (WaitsFor s 0 1 ∧ WaitsFor s 1 0)) = true) :
    ¬ ∀ s, Reaches (· = State.new) step (fun _ _ => True) s → ¬ CircularWait s := by
  intro claim
  obtain ⟨s, hs, waits⟩ := (Option.any_eq_true _ _).mp run
  obtain ⟨here, there⟩ := of_decide_eq_true waits
  apply claim s (reaches_of_exec _ (.start rfl) hs)
  refine ⟨fun t => t = 0 ∨ t = 1, ⟨0, .inl rfl⟩, ?_⟩
  rintro t (rfl | rfl)
  · exact ⟨1, .inr rfl, here⟩
  · exact ⟨0, .inl rfl, there⟩

/-- The status holds `extensions`; the registration queues for it and gets the other two;
the status comes to `routes`. -/
theorem status_blocks_registration :
    ¬ ∀ s, Reaches (· = State.new) step (fun _ _ => True) s → ¬ CircularWait s :=
  circular_of_exec ([.spawn .statusJson, .spawn (.startExtension .ready)] ++
    List.replicate 3 (.run 0) ++ List.replicate 8 (.run 1) ++ List.replicate 3 (.run 0)) (by decide)

-- Two registrations whose polls interleave do without the status.
example : ¬ ∀ s, Reaches (· = State.new) step (fun _ _ => True) s → ¬ CircularWait s :=
  circular_of_exec ([.spawn (.startExtension .ready), .spawn (.startExtension .ready)] ++
    List.replicate 6 (.run 0) ++ List.replicate 8 (.run 1) ++ List.replicate 2 (.run 0))
    (by decide)

end Whdr.TableLocks
