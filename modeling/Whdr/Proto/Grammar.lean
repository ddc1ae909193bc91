import Whdr.Proto.Channel

/-! The channel grammar: what a channel and a pattern are, when one matches the
other, and that `channel_matches` decides it. -/
namespace Whdr.Grammar

/-- `[a-z0-9_-]` -/
def InClass (c : Char) : Prop :=
  ('a' ≤ c ∧ c ≤ 'z') ∨ ('0' ≤ c ∧ c ≤ '9') ∨ c = '_' ∨ c = '-'

def Plain (token : String) : Prop := token ≠ "" ∧ ∀ c ∈ token.toList, InClass c

def join (ts : List String) : String := ".".intercalate ts

def IsChannel (ts : List String) : Prop := ts ≠ [] ∧ ∀ t ∈ ts, Plain t

def PatternToken (t : String) : Prop := Plain t ∨ t = "*" ∨ t = ">"

def IsPattern (ts : List String) : Prop :=
  ts ≠ [] ∧ (∀ t ∈ ts, PatternToken t) ∧ ∀ t ∈ ts.dropLast, t ≠ ">"

/-- The tokens of a pattern against the tokens of a channel. -/
inductive Matches : List String → List String → Prop
  | done : Matches [] []
  | token {t ps cs} : Plain t → Matches ps cs → Matches (t :: ps) (t :: cs)
  | any {t ps cs} : Matches ps cs → Matches ("*" :: ps) (t :: cs)
  | tail {t cs} : Matches [">"] (t :: cs)

/-! ## Tokens -/

theorem isLower_iff {c : Char} : c.isLower = true ↔ 'a' ≤ c ∧ c ≤ 'z' := by
  change (decide ('a' ≤ c) && decide (c ≤ 'z')) = true ↔ _
  rw [Bool.and_eq_true, decide_eq_true_eq, decide_eq_true_eq]

theorem plainChar_iff {c : Char} : plainChar c = true ↔ InClass c := by
  simp only [plainChar, isLower_iff, Char.isDigit, InClass, Bool.or_eq_true, Bool.and_eq_true,
    decide_eq_true_eq, beq_iff_eq, or_assoc, Char.le_def]

theorem validPlainToken_iff {token : String} : validPlainToken token = true ↔ Plain token := by
  simp [validPlainToken, Plain, plainChar_iff]

instance (token : String) : Decidable (Plain token) := decidable_of_iff _ validPlainToken_iff

instance (t : String) : Decidable (PatternToken t) :=
  inferInstanceAs (Decidable (Plain t ∨ t = "*" ∨ t = ">"))

instance (ts : List String) : Decidable (IsChannel ts) :=
  inferInstanceAs (Decidable (ts ≠ [] ∧ ∀ t ∈ ts, Plain t))

instance (ts : List String) : Decidable (IsPattern ts) :=
  inferInstanceAs (Decidable
    (ts ≠ [] ∧ (∀ t ∈ ts, PatternToken t) ∧ ∀ t ∈ ts.dropLast, t ≠ ">"))

theorem Plain.ne_of_mem {token : String} (plain : Plain token) {c : Char}
    (mem : c ∈ token.toList) : c ≠ '.' ∧ c ≠ '*' ∧ c ≠ '>' := by
  have inClass := plainChar_iff.mpr (plain.2 c mem)
  refine ⟨?_, ?_, ?_⟩ <;> rintro rfl <;> exact absurd inClass (by decide)

theorem Plain.ne_wildcard {token : String} (plain : Plain token) : token ≠ "*" ∧ token ≠ ">" := by
  constructor <;> rintro rfl
  · exact (plain.ne_of_mem (List.mem_singleton_self '*')).2.1 rfl
  · exact (plain.ne_of_mem (List.mem_singleton_self '>')).2.2 rfl

theorem PatternToken.undotted {t : String} (shape : PatternToken t) : '.' ∉ t.toList := by
  obtain plain | rfl | rfl := shape
  · exact fun mem => (plain.ne_of_mem mem).1 rfl
  · decide
  · decide

theorem PatternToken.ne_empty {t : String} (shape : PatternToken t) : t ≠ "" := by
  obtain plain | rfl | rfl := shape
  · exact plain.1
  · decide
  · decide

theorem tokens_join {ts : List String} (nonempty : ts ≠ []) (undotted : ∀ t ∈ ts, '.' ∉ t.toList) :
    tokens (join ts) = ts := by
  have cut : (['.'].intercalate (ts.map String.toList)).splitOn '.' = ts.map String.toList := by
    apply List.splitOn_intercalate
    · simpa using undotted
    · simpa using nonempty
  rw [tokens, join, String.toList_intercalate]
  rw [show ".".toList = ['.'] from rfl, cut]
  simp

theorem join_tokens (s : String) : join (tokens s) = s := by
  apply String.toList_inj.mp
  rw [join, tokens, String.toList_intercalate, List.map_map]
  have parts : String.toList ∘ String.ofList = id := by funext l; simp
  rw [parts, List.map_id, show ".".toList = ['.'] from rfl, List.intercalate_splitOn]

theorem tokens_ne_nil (s : String) : tokens s ≠ [] := by
  simp [tokens]

theorem tokens_dot (a b : String) : tokens (a ++ "." ++ b) = tokens a ++ tokens b := by
  have cut : (a ++ "." ++ b).toList = a.toList ++ '.' :: b.toList := by simp
  rw [tokens, cut, List.splitOn_append_cons_self, List.map_append]
  rfl

/-- The one list of tokens that a string can be joined from. -/
theorem joined_iff {shape : List String → Prop} (nonempty : ∀ ts, shape ts → ts ≠ [])
    (undotted : ∀ ts, shape ts → ∀ t ∈ ts, '.' ∉ t.toList) {s : String} :
    (∃ ts, shape ts ∧ s = join ts) ↔ shape (tokens s) := by
  constructor
  · rintro ⟨ts, is, rfl⟩
    rwa [tokens_join (nonempty ts is) (undotted ts is)]
  · intro is
    exact ⟨tokens s, is, (join_tokens s).symm⟩

theorem tokens_empty : tokens "" = [""] := by decide

/-! ## What validation accepts -/

theorem forM_ok_iff {ε α : Type} {f : α → Except ε Unit} {xs : List α} :
    xs.forM f = .ok () ↔ ∀ x ∈ xs, f x = .ok () := by
  induction xs with
  | nil => simp [pure, Except.pure]
  | cons x xs ih =>
    rw [List.forM]
    cases first : f x with
    | error e => simp [bind, Except.bind, first]
    | ok u => simpa [bind, Except.bind, first] using ih

theorem validateChannelToken_ok_iff {token : String} :
    validateChannelToken token = .ok () ↔ Plain token := by
  unfold validateChannelToken
  split
  · rename_i empty
    simp [empty, Plain]
  · split
    · rename_i wildcard
      simp only [reduceCtorEq, false_iff]
      intro plain
      exact wildcard.elim plain.ne_wildcard.1 plain.ne_wildcard.2
    · simp [← validPlainToken_iff]

theorem validateChannel_ok_iff {channel : String} :
    validateChannel channel = .ok () ↔ IsChannel (tokens channel) := by
  unfold validateChannel
  split
  · rename_i empty
    simp [empty, tokens_empty, IsChannel, Plain]
  · rw [forM_ok_iff]
    simp only [validateChannelToken_ok_iff, IsChannel, tokens_ne_nil, ne_eq, not_false_eq_true,
      true_and]

theorem validatePatternTokens_ok_iff {ts : List String} :
    validatePatternTokens ts = .ok () ↔
      (∀ t ∈ ts, PatternToken t) ∧ ∀ t ∈ ts.dropLast, t ≠ ">" := by
  induction ts with
  | nil => simp [validatePatternTokens]
  | cons token rest ih =>
    unfold validatePatternTokens
    split
    · rename_i empty
      simp only [reduceCtorEq, false_iff]
      rintro ⟨shape, _⟩
      exact (shape token List.mem_cons_self).ne_empty empty
    · split
      · rename_i tail
        split
        · rename_i more
          simp only [reduceCtorEq, false_iff]
          rintro ⟨_, last⟩
          rw [List.dropLast_cons_of_ne_nil more] at last
          exact last token List.mem_cons_self tail
        · rename_i last
          simp [not_not.mp last, tail, validatePatternTokens, PatternToken]
      · rename_i noTail
        -- from here the token is accepted in every place or in none
        have rests : (∀ t ∈ (token :: rest).dropLast, t ≠ ">") ↔ ∀ t ∈ rest.dropLast, t ≠ ">" := by
          cases rest <;> simp [noTail]
        rw [rests, List.forall_mem_cons]
        split
        · rename_i any
          rw [ih]
          simp [any, PatternToken]
        · rename_i noAny
          split
          · rename_i odd
            have : ¬ Plain token := by simpa [← validPlainToken_iff] using odd
            simp [PatternToken, this, noAny, noTail]
          · rename_i plain
            have : Plain token := by simpa [← validPlainToken_iff] using plain
            rw [ih]
            simp [PatternToken, this]

theorem validatePattern_ok_iff {pattern : String} :
    validatePattern pattern = .ok () ↔ IsPattern (tokens pattern) := by
  unfold validatePattern
  split
  · rename_i empty
    simp [empty, tokens_empty, IsPattern, PatternToken, Plain]
  · rw [validatePatternTokens_ok_iff]
    simp only [IsPattern, tokens_ne_nil, ne_eq, not_false_eq_true, true_and]

/-! ## What the loop decides -/

theorem not_matches_nil {p : String} {ps : List String} : ¬ Matches (p :: ps) [] := by
  rintro ⟨⟩

theorem matches_any {t : String} {ps cs : List String} :
    Matches ("*" :: ps) (t :: cs) ↔ Matches ps cs := by
  constructor
  · intro rel
    generalize eq : "*" = p at rel
    cases rel with
    | token plain rel => exact absurd eq.symm plain.ne_wildcard.1
    | any rel => exact rel
    | tail => exact absurd eq (by decide)
  · exact .any

theorem matches_plain {p t : String} {ps cs : List String} (plain : Plain p) :
    Matches (p :: ps) (t :: cs) ↔ t = p ∧ Matches ps cs := by
  constructor
  · intro rel
    cases rel with
    | token _ rel => exact ⟨rfl, rel⟩
    | any rel => exact absurd rfl plain.ne_wildcard.1
    | tail => exact absurd rfl plain.ne_wildcard.2
  · rintro ⟨rfl, rel⟩
    exact .token plain rel

/-- `ci` channel tokens are used up by the `pi` pattern tokens before `rest`. -/
theorem matchTokens_iff {cs rest : List String} {pi ci : Nat} (inside : ci ≤ cs.length)
    (first : pi = 0 → ci < cs.length) (shape : ∀ t ∈ rest, PatternToken t)
    (last : ∀ t ∈ rest.dropLast, t ≠ ">") :
    matchTokens cs pi ci rest = true ↔ Matches rest (cs.drop ci) := by
  induction rest generalizing pi ci with
  | nil =>
    rw [matchTokens, beq_iff_eq]
    constructor
    · rintro rfl
      rw [List.drop_length]
      exact .done
    · intro rel
      generalize eq : cs.drop ci = left at rel
      cases rel
      have := List.drop_eq_nil_iff.mp eq
      omega
  | cons token rest ih =>
    have next (used : ci < cs.length) : matchTokens cs (pi + 1) (ci + 1) rest = true ↔
        Matches rest (cs.drop (ci + 1)) := by
      apply ih used (by omega) (fun t mem => shape t (List.mem_cons_of_mem _ mem))
      intro t mem
      cases rest with
      | nil => cases mem
      | cons r rs => exact last t (List.mem_cons_of_mem _ mem)
    have atEnd (ended : ¬ ci < cs.length) : ¬ Matches (token :: rest) (cs.drop ci) := by
      rw [List.drop_of_length_le (by omega)]
      exact not_matches_nil
    unfold matchTokens
    split
    · rename_i tail
      have alone : rest = [] := by
        by_contra more
        rw [List.dropLast_cons_of_ne_nil more] at last
        exact last token List.mem_cons_self tail
      subst tail alone
      rw [Bool.or_eq_true, decide_eq_true_eq, beq_iff_eq]
      by_cases used : ci < cs.length
      · rw [List.drop_eq_getElem_cons used]
        exact ⟨fun _ => .tail, fun _ => .inl used⟩
      · exact ⟨fun h => absurd (h.elim id first) used, fun rel => absurd rel (atEnd used)⟩
    · rename_i noTail
      split
      · rename_i any
        split
        · rename_i ended
          simpa using atEnd (by omega)
        · rename_i used
          have used : ci < cs.length := by omega
          rw [next used, List.drop_eq_getElem_cons used, any, matches_any]
      · rename_i noAny
        have plain : Plain token := by
          obtain plain | any | tail := shape token List.mem_cons_self
          · exact plain
          · exact absurd any noAny
          · exact absurd tail noTail
        by_cases used : ci < cs.length
        · rw [List.drop_eq_getElem_cons used, matches_plain plain, List.getElem?_eq_getElem used]
          split
          · rename_i other
            have other : cs[ci] ≠ token := by simpa using other
            simp [other]
          · rename_i same
            have same : cs[ci] = token := by simpa using same
            rw [next used]
            simp [same]
        · rw [List.getElem?_eq_none (by omega)]
          simpa using atEnd used

theorem matchTokens_ok_iff {cs ps : List String} (channel : IsChannel cs) (pattern : IsPattern ps) :
    matchTokens cs 0 0 ps = true ↔ Matches ps cs := by
  have some := List.length_pos_of_ne_nil channel.1
  exact matchTokens_iff (Nat.zero_le _) (fun _ => some) pattern.2.1 pattern.2.2

theorem channelMatches_error_iff {channel pattern : String} :
    (∃ err, channelMatches channel pattern = .error err) ↔
      validateChannel channel ≠ .ok () ∨ validatePattern pattern ≠ .ok () := by
  unfold channelMatches
  cases validateChannel channel with
  | error e => simp [bind, Except.bind]
  | ok u =>
    cases validatePattern pattern with
    | error e => simp [bind, Except.bind]
    | ok v => simp [bind, Except.bind, pure, Except.pure]

theorem channelMatches_join {cs ps : List String} (channel : IsChannel cs)
    (pattern : IsPattern ps) :
    channelMatches (join cs) (join ps) = .ok (matchTokens cs 0 0 ps) := by
  have cut := tokens_join channel.1 fun t mem => PatternToken.undotted (.inl (channel.2 t mem))
  have cutPattern := tokens_join pattern.1 fun t mem => (pattern.2.1 t mem).undotted
  have okChannel : validateChannel (join cs) = .ok () := by
    rwa [validateChannel_ok_iff, cut]
  have okPattern : validatePattern (join ps) = .ok () := by
    rwa [validatePattern_ok_iff, cutPattern]
  simp [channelMatches, okChannel, okPattern, cut, cutPattern, bind, Except.bind, pure, Except.pure]

/-- Validation accepts the grammar, and `channel_matches` decides it. -/
theorem channelMatches_decides (channel pattern : String) :
    (validateChannel channel = .ok () ↔ ∃ cs, IsChannel cs ∧ channel = join cs) ∧
    (validatePattern pattern = .ok () ↔ ∃ ps, IsPattern ps ∧ pattern = join ps) ∧
    ((∃ err, channelMatches channel pattern = .error err) ↔
      validateChannel channel ≠ .ok () ∨ validatePattern pattern ≠ .ok ()) ∧
    ∀ cs ps, IsChannel cs → IsPattern ps → channel = join cs → pattern = join ps →
      ∃ b, channelMatches channel pattern = .ok b ∧ (b = true ↔ Matches ps cs) := by
  refine ⟨?_, ?_, channelMatches_error_iff, ?_⟩
  · rw [validateChannel_ok_iff, joined_iff]
    · exact fun cs is => is.1
    · exact fun cs is t mem => PatternToken.undotted (.inl (is.2 t mem))
  · rw [validatePattern_ok_iff, joined_iff]
    · exact fun ps is => is.1
    · exact fun ps is t mem => (is.2.1 t mem).undotted
  · rintro cs ps isChannel isPattern rfl rfl
    exact ⟨_, channelMatches_join isChannel isPattern, matchTokens_ok_iff isChannel isPattern⟩

theorem channelMatches_decides_tail :
    ∃ b, channelMatches "dev.build.ok" "dev.>" = .ok b ∧
      (b = true ↔ Matches ["dev", ">"] ["dev", "build", "ok"]) :=
  (channelMatches_decides "dev.build.ok" "dev.>").2.2.2 ["dev", "build", "ok"] ["dev", ">"]
    (by decide) (by decide) (by decide) (by decide)

end Whdr.Grammar
