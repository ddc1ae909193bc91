import Whdr.Delivery.KitProcess
import Whdr.Delivery.ServerSide

/-! What the acts of a kit tell: which cursor its store holds, which events were handled
to the end, and above which cursor each call was made. -/
namespace Whdr.KitNetwork

open Kits

variable {cursor : Nat} {acts new : List Act} {n m : Network.State} {e : StampedEvent}

/-! ## Saved cursors and completed calls -/

theorem saves_quiet (quiet : Quiet new) : Handling.saves new = [] := by
  rw [Handling.saves, List.filterMap_eq_nil_iff]
  intro a mem
  have other := (quiet a mem).2
  cases a with
  | save n => exact absurd rfl (other n)
  | call c => rfl
  | subscribe n => rfl

theorem stored_append (cursor : Nat) (acts new : List Act) (unsaved : Handling.saves new = []) :
    stored cursor (acts ++ new) = stored cursor acts := by
  rw [stored, stored, Handling.saves, List.filterMap_append]
  exact congrArg (List.getLastD · _) ((congrArg _ unsaved).trans (List.append_nil _))

theorem stored_save (cursor : Nat) (acts : List Act) (n : Int) :
    stored cursor (acts ++ [.save n]) = n := by
  rw [stored, Handling.saves, List.filterMap_append]
  exact List.getLastD_concat

/-- A call that was not completed stays so unless a save follows. -/
theorem completed_append (behind : ∀ n, new.head? ≠ some (.save n)) :
    completed (acts ++ new) = completed acts ++ completed new := by
  fun_induction completed acts with
  | case1 ev n rest ih => simp only [List.cons_append, completed, ih]
  | case2 a rest other ih =>
    rw [List.cons_append, ← ih, completed]
    intro ev n more isCall follows
    cases rest with
    | nil => exact behind n (by rw [show new = .save n :: more from follows]; rfl)
    | cons b rest =>
      obtain ⟨rfl, _⟩ := List.cons.inj follows
      exact other ev n rest isCall rfl
  | case3 => rfl

theorem completed_quiet (quiet : Quiet new) : completed new = [] := by
  induction new with
  | nil => rfl
  | cons a rest ih =>
    have others : Quiet rest := fun b mem => quiet b (List.mem_cons_of_mem _ mem)
    rw [completed, ih others]
    intro ev n more isCall
    exact absurd isCall ((quiet a List.mem_cons_self).1 ev)

theorem quiet_behind (quiet : Quiet new) (n : Int) : new.head? ≠ some (.save n) :=
  fun first => (quiet _ (List.mem_of_mem_head? first)).2 n rfl

theorem quiet_take (quiet : Quiet new) (k : Nat) : Quiet (new.take k) :=
  fun a mem => quiet a (List.mem_of_mem_take mem)

/-! ## The account of a history -/

/-- Every call is of a committed event above the cursor saved before it. -/
def CallsAbove (cursor : Nat) (p : Plane) (acts : List Act) : Prop :=
  ∀ before ev after, acts = before ++ .call (.onEvent ev) :: after →
    stored cursor before < ev.seq ∧ ∃ row, p.Committed row ∧ ev = Rust.deliveredEvent row

/-- The client of the network is where the history of the kit leads. -/
structure Recorded (cursor : Nat) (n : Network.State) (acts : List Act) : Prop where
  reached : (n.client.resume.cursor : Int) = stored cursor acts
  handled : n.client.handled.map Rust.deliveredEvent = completed acts
  below : ∀ ev ∈ completed acts, ev.seq ≤ stored cursor acts
  once : (completed acts).Pairwise fun a b => a.seq < b.seq
  calls : CallsAbove cursor n.plane acts

theorem calls_append {p : Plane} (old : CallsAbove cursor p acts)
    (later : ∀ before ev after, new = before ++ .call (.onEvent ev) :: after →
      stored cursor (acts ++ before) < ev.seq ∧
        ∃ row, p.Committed row ∧ ev = Rust.deliveredEvent row) :
    CallsAbove cursor p (acts ++ new) := by
  intro before ev after same
  obtain ⟨more, rfl, inNew⟩ | ⟨more, inOld, rest⟩ := List.append_eq_append_iff.mp same
  · exact later more ev after inNew
  · cases more with
    | nil =>
      rw [List.append_nil] at inOld
      subst inOld
      have first := later [] ev after rest.symm
      rwa [List.append_nil] at first
    | cons a more =>
      obtain ⟨rfl, _⟩ := List.cons.inj rest
      exact old before ev more inOld

/-- Calls of no event and subscribe frames change nothing. -/
theorem Recorded.quiet (h : Recorded cursor n acts) (quiet : Quiet new) :
    Recorded cursor n (acts ++ new) := by
  have same : stored cursor (acts ++ new) = stored cursor acts :=
    stored_append cursor acts new (saves_quiet quiet)
  have done : completed (acts ++ new) = completed acts := by
    rw [completed_append (quiet_behind quiet), completed_quiet quiet, List.append_nil]
  refine ⟨same ▸ h.reached, done ▸ h.handled, ?_, done ▸ h.once, calls_append h.calls ?_⟩
  · rw [done, same]
    exact h.below
  · intro before ev after inNew
    have mem : Act.call (.onEvent ev) ∈ new := by
      rw [inNew]
      exact List.mem_append_right _ List.mem_cons_self
    exact absurd rfl ((quiet _ mem).1 ev)

/-- `on_event` is called, and nothing more is known. -/
theorem Recorded.started (h : Recorded cursor n acts) (committed : n.plane.Committed e)
    (fresh : n.client.resume.cursor < e.seq) :
    Recorded cursor n (acts ++ [.call (.onEvent (Rust.deliveredEvent e))]) := by
  have same : stored cursor (acts ++ [.call (.onEvent (Rust.deliveredEvent e))]) =
      stored cursor acts := stored_append cursor acts _ rfl
  have done : completed (acts ++ [.call (.onEvent (Rust.deliveredEvent e))]) = completed acts := by
    rw [completed_append (by rintro _ ⟨⟩)]
    exact List.append_nil _
  refine ⟨same ▸ h.reached, done ▸ h.handled, ?_, done ▸ h.once, calls_append h.calls ?_⟩
  · rw [done, same]
    exact h.below
  · intro before ev after single
    cases before with
    | nil =>
      obtain ⟨⟨rfl⟩, _⟩ := List.cons.inj single
      rw [List.append_nil, ← h.reached]
      exact ⟨Int.ofNat_lt.mpr fresh, e, committed, rfl⟩
    | cons a before =>
      obtain ⟨_, none⟩ := List.cons.inj single
      exact absurd none.symm (List.append_ne_nil_of_right_ne_nil _ (List.cons_ne_nil _ _))

/-- The cursor of a handled event is saved. -/
theorem Recorded.done (h : Recorded cursor n acts) (committed : n.plane.Committed e)
    (fresh : n.client.resume.cursor < e.seq) (plane : m.plane = n.plane)
    (reached : m.client.resume.cursor = e.seq)
    (handled : m.client.handled = n.client.handled ++ [e]) :
    Recorded cursor m
      (acts ++ [.call (.onEvent (Rust.deliveredEvent e)), .save e.seq]) := by
  have started := h.started committed fresh
  have split : acts ++ [.call (.onEvent (Rust.deliveredEvent e)), .save e.seq] =
      (acts ++ [.call (.onEvent (Rust.deliveredEvent e))]) ++ [.save e.seq] :=
    List.append_cons acts _ _
  have stored : stored cursor (acts ++ [.call (.onEvent (Rust.deliveredEvent e)), .save e.seq]) =
      e.seq := by
    rw [split, stored_save]
  have done : completed (acts ++ [.call (.onEvent (Rust.deliveredEvent e)), .save e.seq]) =
      completed acts ++ [Rust.deliveredEvent e] :=
    completed_append (by rintro _ ⟨⟩)
  have lower : ∀ ev ∈ completed acts, ev.seq < e.seq := by
    intro ev mem
    have below := h.below ev mem
    rw [← h.reached] at below
    exact Int.lt_of_le_of_lt below (Int.ofNat_lt.mpr fresh)
  refine ⟨by rw [stored, reached], ?_, ?_, ?_, ?_⟩
  · rw [handled, List.map_append, h.handled, done]
    rfl
  · rw [done, stored]
    intro ev mem
    obtain old | new := List.mem_append.mp mem
    · exact Int.le_of_lt (lower ev old)
    · exact Int.le_of_eq (congrArg Delivered.seq (List.mem_singleton.mp new))
  · rw [done, List.pairwise_append]
    refine ⟨h.once, List.pairwise_singleton _ _, fun ev mem last new => ?_⟩
    exact (List.mem_singleton.mp new) ▸ lower ev mem
  · rw [split, plane]
    refine calls_append started.calls fun before ev after single => ?_
    cases before with
    | nil => cases single
    | cons a before =>
      obtain ⟨_, none⟩ := List.cons.inj single
      exact absurd none.symm (List.append_ne_nil_of_right_ne_nil _ (List.cons_ne_nil _ _))

end Whdr.KitNetwork
