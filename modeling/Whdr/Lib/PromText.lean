import Whdr.Lib.Json

/-! The Prometheus text format, as far as samples with whole numbers need it: how a sample is
written as a line, and a strict reader of lines and pages. A text is its list of characters. -/
namespace PromText

structure Sample where
  name : String
  labels : List (String × String)
  value : Nat
  deriving DecidableEq, Repr

/-! ## Writing -/

def escape (c : Char) : List Char :=
  if c = '\\' then ['\\', '\\'] else if c = '"' then ['\\', '"']
  else if c = '\n' then ['\\', 'n'] else [c]

def writeLabel (label : String × String) : List Char :=
  label.1.toList ++ '=' :: '"' :: (label.2.toList.flatMap escape ++ ['"'])

def writeLabels : List (String × String) → List Char
  | [] => []
  | [label] => writeLabel label
  | label :: rest => writeLabel label ++ ',' :: writeLabels rest

def write (s : Sample) : List Char :=
  s.name.toList ++ (if s.labels = [] then [] else '\x7b' :: (writeLabels s.labels ++ ['\x7d'])) ++
    ' ' :: Nat.toDigits 10 s.value

/-! ## Reading -/

def labelStart (c : Char) : Bool := c.isAlpha || c == '_'

def labelChar (c : Char) : Bool := labelStart c || c.isDigit

def metricStart (c : Char) : Bool := labelStart c || c == ':'

def metricChar (c : Char) : Bool := metricStart c || c.isDigit

/-- A name, with what may stand in front and what may follow. -/
def readName (start char : Char → Bool) : List Char → Option (String × List Char)
  | [] => none
  | c :: rest =>
    if start c then some (String.ofList (c :: rest.takeWhile char), rest.dropWhile char) else none

/-- A label value up to its quote. A backslash stands before a backslash, a quote or an `n`. -/
def readValue : List Char → Option (List Char × List Char)
  | [] => none
  | '"' :: rest => some ([], rest)
  | '\\' :: '\\' :: rest => (readValue rest).map fun (value, left) => ('\\' :: value, left)
  | '\\' :: '"' :: rest => (readValue rest).map fun (value, left) => ('"' :: value, left)
  | '\\' :: 'n' :: rest => (readValue rest).map fun (value, left) => ('\n' :: value, left)
  | '\\' :: _ => none
  | c :: rest => (readValue rest).map fun (value, left) => (c :: value, left)

/-- The labels behind the opening brace. Every label takes a character, so the length of the
text is fuel enough. -/
def readLabels : Nat → List Char → Option (List (String × String) × List Char)
  | 0, _ => none
  | fuel + 1, cs =>
    match readName labelStart labelChar cs with
    | some (key, '=' :: '"' :: rest) =>
      match readValue rest with
      | some (value, ',' :: rest) =>
        (readLabels fuel rest).map fun (more, left) => ((key, String.ofList value) :: more, left)
      | some (value, '\x7d' :: rest) => some ([(key, String.ofList value)], rest)
      | _ => none
    | _ => none

def readNumber (name : String) (labels : List (String × String)) : List Char → Option Sample
  | ' ' :: rest =>
    match Json.readNat rest with
    | some (value, []) => some ⟨name, labels, value⟩
    | _ => none
  | _ => none

def readLine (line : List Char) : Option Sample :=
  match readName metricStart metricChar line with
  | some (name, '\x7b' :: rest) =>
    (readLabels rest.length rest).bind fun (labels, left) => readNumber name labels left
  | some (name, rest) => readNumber name [] rest
  | none => none

/-- An empty line and a comment are no sample. -/
def isSample : List Char → Bool
  | [] => false
  | c :: _ => c ≠ '#'

/-- All the samples of a page, if every line that should be one is. -/
def readPage (text : List Char) : Option (List Sample) :=
  ((text.splitOn '\n').filter isSample).mapM readLine

/-! ## Round trip -/

/-- The name and the label names are such. -/
def isName (start char : Char → Bool) (name : String) : Bool :=
  match name.toList with
  | [] => false
  | c :: rest => start c && rest.all char

structure Sample.Valid (s : Sample) : Prop where
  name : isName metricStart metricChar s.name = true
  labels : ∀ label ∈ s.labels, isName labelStart labelChar label.1 = true

theorem readName_append {start char : Char → Bool} {name : String}
    (valid : isName start char name = true) (stop : Char) (stops : char stop = false)
    (rest : List Char) :
    readName start char (name.toList ++ stop :: rest) = some (name, stop :: rest) := by
  unfold isName at valid
  split at valid
  · cases valid
  · rename_i c more isList
    obtain ⟨first, others⟩ := Bool.and_eq_true_iff.mp valid
    rw [List.all_eq_true] at others
    rw [isList, List.cons_append, readName, if_pos first, List.takeWhile_append_of_pos others,
      List.dropWhile_append_of_pos others]
    simp [stops, ← isList]

theorem readValue_escape (value rest : List Char) :
    readValue (value.flatMap escape ++ '"' :: rest) = some (value, rest) := by
  induction value with
  | nil => rfl
  | cons c cs ih =>
    rw [List.flatMap_cons, List.append_assoc]
    by_cases backslash : c = '\\'
    · simp [escape, backslash, readValue, ih]
    · by_cases quote : c = '"'
      · simp [escape, quote, readValue, ih]
      · by_cases newline : c = '\n'
        · simp [escape, newline, readValue, ih]
        · simp [escape, backslash, quote, newline, readValue, ih]

theorem readLabels_write {labels : List (String × String)} (some_ : labels ≠ [])
    (valid : ∀ label ∈ labels, isName labelStart labelChar label.1 = true) {fuel : Nat}
    (enough : labels.length ≤ fuel) (rest : List Char) :
    readLabels fuel (writeLabels labels ++ '\x7d' :: rest) = some (labels, rest) := by
  induction labels generalizing fuel with
  | nil => exact absurd rfl some_
  | cons label labels ih =>
    obtain ⟨key, value⟩ := label
    obtain ⟨isKey, others⟩ := List.forall_mem_cons.mp valid
    obtain ⟨fuel, rfl⟩ : ∃ n, fuel = n + 1 := ⟨fuel - 1, by simp at enough; omega⟩
    have name (more : List Char) :
        readName labelStart labelChar (key.toList ++ '=' :: '"' :: more) =
          some (key, '=' :: '"' :: more) := readName_append isKey '=' (by decide) _
    cases labels with
    | nil =>
      rw [writeLabels, writeLabel, readLabels]
      simp only [List.append_assoc, List.cons_append, List.nil_append, name, readValue_escape,
        String.ofList_toList]
    | cons next labels =>
      have more : readLabels fuel (writeLabels (next :: labels) ++ '\x7d' :: rest) =
          some (next :: labels, rest) := ih (by simp) others (by simpa using enough)
      rw [writeLabels, writeLabel, readLabels]
      · simp only [List.append_assoc, List.cons_append, List.nil_append, name, readValue_escape,
          more, String.ofList_toList, Option.map_some]
      · simp

theorem readNumber_digits (name : String) (labels : List (String × String)) (n : Nat) :
    readNumber name labels (' ' :: Nat.toDigits 10 n) = some ⟨name, labels, n⟩ := by
  have read : Json.readNat (Nat.toDigits 10 n ++ []) = some (n, []) :=
    Json.readNat_toDigits n (by simp [Json.Stops])
  rw [List.append_nil] at read
  simp only [readNumber, read]

theorem length_writeLabels (labels : List (String × String)) :
    labels.length ≤ (writeLabels labels).length := by
  induction labels with
  | nil => exact Nat.le_refl _
  | cons label labels ih =>
    have one : 1 ≤ (writeLabel label).length := by
      simp [writeLabel]
      omega
    cases labels with
    | nil => simpa [writeLabels] using one
    | cons next labels =>
      rw [writeLabels]
      · simp only [List.length_append, List.length_cons] at ih ⊢
        omega
      · simp

/-- A sample is read back from its line. -/
theorem readLine_write {s : Sample} (valid : s.Valid) : readLine (write s) = some s := by
  obtain ⟨name, labels, value⟩ := s
  obtain ⟨isName, isKey⟩ := valid
  by_cases none : labels = []
  · subst none
    have front := readName_append isName ' ' (by decide) (Nat.toDigits 10 value)
    simp only [write, if_true, List.append_nil, readLine, front]
    exact readNumber_digits name [] value
  · have text : write ⟨name, labels, value⟩ = name.toList ++ '\x7b' ::
        (writeLabels labels ++ '\x7d' :: ' ' :: Nat.toDigits 10 value) := by
      simp [write, none]
    have front := readName_append isName '\x7b' (by decide)
      (writeLabels labels ++ '\x7d' :: ' ' :: Nat.toDigits 10 value)
    have enough : labels.length ≤
        (writeLabels labels ++ '\x7d' :: ' ' :: Nat.toDigits 10 value).length := by
      have := length_writeLabels labels
      rw [List.length_append]
      omega
    rw [text, readLine, front]
    change (readLabels _ _).bind _ = _
    rw [readLabels_write none isKey enough]
    exact readNumber_digits name labels value

/-! ## Pages -/

theorem newline_escape (c : Char) : '\n' ∉ escape c := by
  unfold escape
  split
  · decide
  · split
    · decide
    · split
      · decide
      · rename_i notNewline
        exact fun mem => notNewline (List.mem_singleton.mp mem).symm

theorem newline_name {start char : Char → Bool} {name : String}
    (valid : isName start char name = true) (apart : start '\n' = false ∧ char '\n' = false) :
    '\n' ∉ name.toList := by
  unfold isName at valid
  split at valid
  · cases valid
  · rename_i c rest isList
    obtain ⟨first, others⟩ := Bool.and_eq_true_iff.mp valid
    rw [isList, List.mem_cons]
    rintro (rfl | mem)
    · simp [apart.1] at first
    · have := List.all_eq_true.mp others _ mem
      simp [apart.2] at this

theorem newline_writeLabels {labels : List (String × String)}
    (valid : ∀ label ∈ labels, isName labelStart labelChar label.1 = true) :
    '\n' ∉ writeLabels labels := by
  have one {label : String × String} (isKey : isName labelStart labelChar label.1 = true) :
      '\n' ∉ writeLabel label := by
    simp only [writeLabel, List.mem_append, List.mem_cons, List.mem_flatMap, List.not_mem_nil,
      or_false]
    rintro (mem | equals | quote | ⟨c, -, mem⟩ | quote)
    · exact newline_name isKey (by decide) mem
    · exact absurd equals (by decide)
    · exact absurd quote (by decide)
    · exact newline_escape c mem
    · exact absurd quote (by decide)
  induction labels with
  | nil => simp [writeLabels]
  | cons label labels ih =>
    obtain ⟨isKey, others⟩ := List.forall_mem_cons.mp valid
    cases labels with
    | nil => exact one isKey
    | cons next labels =>
      rw [writeLabels, List.mem_append, List.mem_cons]
      · rintro (mem | comma | mem)
        · exact one isKey mem
        · exact absurd comma (by decide)
        · exact ih others mem
      · simp

/-- The line of a sample is one line. -/
theorem newline_write {s : Sample} (valid : s.Valid) : '\n' ∉ write s := by
  have digits : '\n' ∉ Nat.toDigits 10 s.value := Json.newline_toDigits _
  have name := newline_name valid.name (by decide)
  have labels := newline_writeLabels valid.labels
  unfold write
  split
  · simp [name, digits]
  · simp [name, labels, digits]

/-- It is neither empty nor a comment. -/
theorem isSample_write {s : Sample} (valid : s.Valid) : isSample (write s) = true := by
  have isName := valid.name
  unfold PromText.isName at isName
  split at isName
  · cases isName
  · rename_i c rest isList
    have start := (Bool.and_eq_true_iff.mp isName).1
    rw [write, isList]
    simp only [List.cons_append, isSample, decide_eq_true_eq]
    rintro rfl
    exact absurd start (by decide)

/-- The samples of a page are read back from their lines. -/
theorem readPage_write {samples : List Sample} (valid : ∀ s ∈ samples, s.Valid) :
    readPage (samples.flatMap fun s => write s ++ ['\n']) = some samples := by
  have lines : ((samples.flatMap fun s => write s ++ ['\n']).splitOn '\n').filter isSample =
      samples.map write := by
    induction samples with
    | nil => rfl
    | cons s rest ih =>
      obtain ⟨first, others⟩ := List.forall_mem_cons.mp valid
      rw [List.flatMap_cons, List.append_assoc, List.singleton_append,
        List.splitOn_append_cons_self_of_not_mem (newline_write first),
        List.filter_cons_of_pos (isSample_write first), ih others, List.map_cons]
  have read : (samples.map write).mapM readLine = some samples := by
    clear lines
    induction samples with
    | nil => rfl
    | cons s rest ih =>
      obtain ⟨first, others⟩ := List.forall_mem_cons.mp valid
      rw [List.map_cons, List.mapM_cons, readLine_write first, ih others]
      rfl
  rw [readPage, lines, read]

end PromText
