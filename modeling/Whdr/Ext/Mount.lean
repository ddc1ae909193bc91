import Whdr.Ext.Signing

/-! The mount the server routes a request by (`route_key_from_path`, ingest.rs), and the path
segments the hmac extension makes its channel of. -/
namespace Whdr

def routeKeyFromPath (path : String) : Option String :=
  (((path.toList.dropWhile (· == '/')).splitOn '/').find? fun segment => !segment.isEmpty).map
    String.ofList

namespace Ext.Hmac

open Grammar (Plain)

variable {path : String} {k : String}

/-- The pieces of a path after the first one that is not empty. -/
def afterMount (path : String) : List (List Char) :=
  ((path.toList.splitOn '/').dropWhile List.isEmpty).drop 1

/-- The slashes in front of the mount. -/
def leading (path : String) : Nat := (path.toList.takeWhile (· == '/')).length

def tokensOf (segments : List (List Char)) : List String :=
  ((segments.map channelToken).filter (· ≠ [])).map String.ofList

/-- A channel and the tokens below it. -/
def below (channel : String) (tokens : List String) : String :=
  tokens.foldl (fun channel token => channel ++ "." ++ token) channel

/-- The channel the server's routing asks for. -/
def mountedChannel (channelPrefix path : String) : String :=
  below channelPrefix (tokensOf (afterMount path))

/-- Two pieces are in front of the segments after the mount: the mount is behind one slash, or a
piece too many or too few makes no token. -/
def SecondPiece (path k : String) : Prop :=
  leading path = 1 ∨ (2 ≤ leading path ∧ channelToken k.toList = []) ∨
    (leading path = 0 ∧ ∀ piece ∈ (afterMount path).head?, channelToken piece = [])

/-! ## Pieces -/

theorem splitOn_leading (text : List Char) :
    text.splitOn '/' = List.replicate (text.takeWhile (· == '/')).length [] ++
      (text.dropWhile (· == '/')).splitOn '/' := by
  induction text with
  | nil => rfl
  | cons c rest ih =>
    by_cases slash : c = '/'
    · subst slash
      rw [List.splitOn_cons_eq_if_modifyHead, if_pos (beq_self_eq_true _), ih]
      rfl
    · simp [slash]

/-- What follows the slashes begins with a character of the mount. -/
theorem splitOn_mount {text : List Char} (starts : text.head? ≠ some '/') (some : text ≠ []) :
    ∃ first rest, text.splitOn '/' = first :: rest ∧ first ≠ [] := by
  obtain ⟨c, more, rfl⟩ := List.exists_cons_of_ne_nil some
  rw [List.splitOn_cons_eq_if_modifyHead, if_neg (by simpa using starts)]
  cases pieces : more.splitOn '/' with
  | nil => exact absurd pieces (by simp)
  | cons first rest => exact ⟨c :: first, rest, rfl, by simp⟩

/-- The path of a routed request: slashes, the mount, and the pieces after it. -/
theorem pieces_routed (routed : routeKeyFromPath path = some k) :
    path.toList.splitOn '/' =
      List.replicate (leading path) [] ++ k.toList :: afterMount path ∧ k.toList ≠ [] := by
  have cut := splitOn_leading path.toList
  have starts := head?_dropWhile_ne '/' path.toList
  unfold routeKeyFromPath at routed
  generalize path.toList.dropWhile (· == '/') = text at routed cut starts
  obtain ⟨segment, found, rfl⟩ := Option.map_eq_some_iff.mp routed
  have nonempty : text ≠ [] := by
    rintro rfl
    cases found
  obtain ⟨first, rest, pieces, isMount⟩ := splitOn_mount starts nonempty
  rw [pieces] at cut found
  rw [List.find?_cons_of_pos (by simpa using isMount), Option.some.injEq] at found
  subst found
  have skips : (List.replicate (leading path) [] ++ first :: rest).dropWhile List.isEmpty =
      first :: rest := by
    rw [List.dropWhile_append_of_pos (by simp), List.dropWhile_cons_of_neg (by simpa using isMount)]
  rw [String.toList_ofList, afterMount, cut, ← leading, skips]
  exact ⟨rfl, isMount⟩

/-! ## Tokens -/

theorem deriveChannel_below (channelPrefix path : String) :
    deriveChannel channelPrefix path =
      below channelPrefix (tokensOf ((path.toList.splitOn '/').drop 2)) := by
  rw [deriveChannel]
  generalize (path.toList.splitOn '/').drop 2 = segments
  induction segments generalizing channelPrefix with
  | nil => rfl
  | cons segment rest ih =>
    rw [List.foldl_cons, ih]
    by_cases empty : channelToken segment = []
    · simp [tokensOf, empty]
    · simp [tokensOf, below, empty]

theorem tokensOf_plain {segments : List (List Char)} : ∀ t ∈ tokensOf segments, Plain t := by
  intro t mem
  obtain ⟨token, isToken, rfl⟩ := List.mem_map.mp mem
  obtain ⟨isToken, nonempty⟩ := List.mem_filter.mp isToken
  obtain ⟨segment, _, rfl⟩ := List.mem_map.mp isToken
  exact channelToken_plain (by simpa using nonempty)

theorem tokens_below (channel : String) {ts : List String} (plain : ∀ t ∈ ts, Plain t) :
    tokens (below channel ts) = tokens channel ++ ts := by
  induction ts generalizing channel with
  | nil => rw [below, List.foldl_nil, List.append_nil]
  | cons t ts ih =>
    rw [List.forall_mem_cons] at plain
    change tokens (below (channel ++ "." ++ t) ts) = _
    rw [ih _ plain.2, Grammar.tokens_dot, Namespaces.tokens_plain plain.1, List.append_assoc]
    rfl

/-- A channel tells its tokens. -/
theorem below_inj {channel : String} {ts us : List String} (first : ∀ t ∈ ts, Plain t)
    (second : ∀ t ∈ us, Plain t) : below channel ts = below channel us ↔ ts = us := by
  constructor
  · intro same
    have cut := congrArg tokens same
    rwa [tokens_below _ first, tokens_below _ second, List.append_cancel_left_eq] at cut
  · exact congrArg _

theorem tokensOf_cons (segment : List Char) (rest : List (List Char)) :
    tokensOf (segment :: rest) =
      if channelToken segment = [] then tokensOf rest
      else String.ofList (channelToken segment) :: tokensOf rest := by
  by_cases empty : channelToken segment = []
  · simp [tokensOf, empty]
  · simp [tokensOf, empty]

theorem tokensOf_cons_eq_iff {segment : List Char} {rest : List (List Char)} :
    tokensOf (segment :: rest) = tokensOf rest ↔ channelToken segment = [] := by
  rw [tokensOf_cons]
  split
  · rename_i empty
    simp [empty]
  · rename_i nonempty
    simp [nonempty]

theorem tokensOf_empty (n : Nat) (rest : List (List Char)) :
    tokensOf (List.replicate n [] ++ rest) = tokensOf rest := by
  induction n with
  | zero => rfl
  | succ n ih =>
    have none : channelToken [] = [] := rfl
    rw [List.replicate_succ, List.cons_append, tokensOf_cons, if_pos none, ih]

/-! ## The two splits -/

/-- What the extension skips is the empty piece and the mount. -/
theorem tokens_drop_iff (routed : routeKeyFromPath path = some k) :
    tokensOf ((path.toList.splitOn '/').drop 2) = tokensOf (afterMount path) ↔
      SecondPiece path k := by
  obtain ⟨pieces, -⟩ := pieces_routed routed
  rw [pieces, SecondPiece]
  match leading path with
  | 0 =>
    change tokensOf ((afterMount path).drop 1) = _ ↔ _
    cases afterMount path with
    | nil => simp
    | cons piece rest =>
      rw [List.drop_one, List.tail_cons, eq_comm, tokensOf_cons_eq_iff]
      simp
  | 1 => simp
  | n + 2 =>
    change tokensOf (List.replicate n [] ++ k.toList :: afterMount path) = _ ↔ _
    rw [tokensOf_empty, tokensOf_cons_eq_iff]
    simp

theorem follows_mount_iff (routed : routeKeyFromPath path = some k) (channelPrefix : String) :
    deriveChannel channelPrefix path = mountedChannel channelPrefix path ↔ SecondPiece path k := by
  rw [deriveChannel_below, mountedChannel, below_inj tokensOf_plain tokensOf_plain,
    tokens_drop_iff routed]

/-- Empty pieces make no token. -/
theorem tokensOf_filter (segments : List (List Char)) :
    tokensOf (segments.filter (· ≠ [])) = tokensOf segments := by
  induction segments with
  | nil => rfl
  | cons segment rest ih =>
    by_cases empty : segment = []
    · have none : channelToken [] = [] := rfl
      rw [List.filter_cons_of_neg (by simpa using empty), ih, empty, tokensOf_cons, if_pos none]
    · rw [List.filter_cons_of_pos (by simpa using empty), tokensOf_cons, tokensOf_cons, ih]

/-- The server routes by the first segment. The channel is the prefix and the tokens of the
segments after that one exactly if it is the second piece of the path, as far as tokens tell;
such paths of one mount with the same segments after it have one channel. -/
theorem channel_follows_mount (channelPrefix : String) {path k : String}
    (routed : routeKeyFromPath path = some k) :
    path.toList.splitOn '/' = List.replicate (leading path) [] ++ k.toList :: afterMount path ∧
      (deriveChannel channelPrefix path = mountedChannel channelPrefix path ↔
        SecondPiece path k) ∧
      ∀ path', routeKeyFromPath path' = some k →
        (afterMount path').filter (· ≠ []) = (afterMount path).filter (· ≠ []) →
        SecondPiece path k → SecondPiece path' k →
        deriveChannel channelPrefix path' = deriveChannel channelPrefix path := by
  refine ⟨(pieces_routed routed).1, follows_mount_iff routed channelPrefix, ?_⟩
  intro path' routed' same second second'
  rw [(follows_mount_iff routed channelPrefix).mpr second,
    (follows_mount_iff routed' channelPrefix).mpr second', mountedChannel, mountedChannel,
    ← tokensOf_filter (afterMount path'), same, tokensOf_filter]

theorem channel_follows_mount_stripe :
    routeKeyFromPath "/hmac//Stripe/" = some "hmac" ∧
      deriveChannel "hmac" "/hmac//Stripe/" = mountedChannel "hmac" "/hmac//Stripe/" := by
  have routed : routeKeyFromPath "/hmac//Stripe/" = some "hmac" := by decide
  exact ⟨routed, (channel_follows_mount "hmac" routed).2.1.mpr (.inl (by decide))⟩

/-- A second slash puts the mount into the channel. -/
theorem mount_repeated :
    routeKeyFromPath "//hmac/stripe" = some "hmac" ∧
      mountedChannel "hmac" "//hmac/stripe" = "hmac.stripe" ∧
      deriveChannel "hmac" "//hmac/stripe" = "hmac.hmac.stripe" ∧
      routeKeyFromPath "/hmac/stripe" = some "hmac" ∧
      afterMount "/hmac/stripe" = afterMount "//hmac/stripe" ∧
      deriveChannel "hmac" "/hmac/stripe" = "hmac.stripe" := by
  decide

end Ext.Hmac

end Whdr
