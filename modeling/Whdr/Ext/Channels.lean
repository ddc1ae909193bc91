import Mathlib.Data.List.TakeWhile
import Whdr.Ext.Kit
import Whdr.Proto.Grammar

/-! What the extensions make channel tokens of: characters mapped into the grammar and
trimmed at both ends. -/
namespace Whdr.Ext

variable {c : Char} {front mid back text : List Char}

/-! ## Characters -/

theorem isLower_toLower (lo : 'A' ≤ c) (hi : c ≤ 'Z') : c.toLower.isLower = true := by
  have lower : c.toLower.val = c.val + 32 := congrArg Char.val (dif_pos ⟨lo, hi⟩)
  have lo' : 65 ≤ c.toNat := UInt32.le_iff_toNat_le.mp lo
  have hi' : c.toNat ≤ 90 := UInt32.le_iff_toNat_le.mp hi
  have shifted : (c.val + 32).toNat = c.toNat + 32 := by
    rw [UInt32.toNat_add]
    exact Nat.mod_eq_of_lt (by change c.toNat + 32 < 2 ^ 32; omega)
  rw [Grammar.isLower_iff, Char.le_def, Char.le_def, lower, UInt32.le_iff_toNat_le,
    UInt32.le_iff_toNat_le, shifted]
  exact ⟨by change 97 ≤ c.toNat + 32; omega, by change c.toNat + 32 ≤ 122; omega⟩

theorem tokenChar_plain (c : Char) : plainChar (tokenChar c) = true := by
  unfold tokenChar
  split
  · rename_i kept
    simpa [Grammar.plainChar_iff, Grammar.InClass, or_assoc] using kept
  · split
    · rename_i upper
      rw [Bool.and_eq_true, decide_eq_true_eq, decide_eq_true_eq] at upper
      rw [plainChar, isLower_toLower upper.1 upper.2]
      rfl
    · rfl

/-! ## Trimming -/

/-- A character that stays keeps all that follows it. -/
theorem dropWhile_append_of_mem (some : ∃ x ∈ front, x ≠ c) (back : List Char) :
    (front ++ back).dropWhile (· == c) = front.dropWhile (· == c) ++ back := by
  obtain ⟨x, mem, ne⟩ := some
  rw [List.dropWhile_append, if_neg]
  rw [List.isEmpty_iff, List.dropWhile_eq_nil_iff]
  exact fun all => ne (by simpa using all x mem)

theorem trimMatches_append (starts : ∃ x ∈ front, x ≠ c) (ends : ∃ x ∈ back, x ≠ c) :
    trimMatches c (front ++ mid ++ back) =
      front.dropWhile (· == c) ++ mid ++ (back.reverse.dropWhile (· == c)).reverse := by
  have reversed : ∃ x ∈ back.reverse, x ≠ c := by simpa using ends
  rw [trimMatches, List.append_assoc, dropWhile_append_of_mem starts, ← List.append_assoc,
    List.reverse_append, dropWhile_append_of_mem reversed, List.reverse_append,
    List.reverse_reverse]

theorem head?_dropWhile_ne (c : Char) (text : List Char) :
    (text.dropWhile (· == c)).head? ≠ some c := by
  intro first
  have := List.head?_dropWhile_not (· == c) text
  rw [first] at this
  simp at this

theorem takeWhile_eq (c : Char) (text : List Char) : ∀ x ∈ text.takeWhile (· == c), x = c := by
  intro x mem
  simpa using List.mem_takeWhile_imp mem

/-- What trimming takes away, and that it leaves nothing more to take. -/
theorem trimMatches_split (c : Char) (text : List Char) :
    ∃ before after, text = before ++ trimMatches c text ++ after ∧ (∀ x ∈ before, x = c) ∧
      (∀ x ∈ after, x = c) ∧ (trimMatches c text).head? ≠ some c ∧
      (trimMatches c text).getLast? ≠ some c := by
  have last : (trimMatches c text).getLast? ≠ some c := by
    rw [trimMatches, List.getLast?_reverse]
    exact head?_dropWhile_ne c _
  have right : text.dropWhile (· == c) = trimMatches c text ++
      ((text.dropWhile (· == c)).reverse.takeWhile (· == c)).reverse := by
    rw [trimMatches, ← List.reverse_append, List.takeWhile_append_dropWhile, List.reverse_reverse]
  refine ⟨text.takeWhile (· == c), ((text.dropWhile (· == c)).reverse.takeWhile (· == c)).reverse,
    ?_, takeWhile_eq c text, ?_, ?_, last⟩
  · rw [List.append_assoc, ← right, List.takeWhile_append_dropWhile]
  · intro x mem
    exact takeWhile_eq c _ x (List.mem_reverse.mp mem)
  · intro first
    have : (text.dropWhile (· == c)).head? = some c := by
      rw [right, List.head?_append, first]
      rfl
    exact head?_dropWhile_ne c text this

theorem mem_of_mem_trimMatches {x : Char} (mem : x ∈ trimMatches c text) : x ∈ text := by
  obtain ⟨before, after, cut, -⟩ := trimMatches_split c text
  rw [cut]
  exact List.mem_append_left _ (List.mem_append_right _ mem)

end Whdr.Ext
