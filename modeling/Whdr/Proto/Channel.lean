import Mathlib.Data.String.Basic

/-! Channel names, subscription patterns and how they match (channel.rs). -/
namespace Whdr

inductive ChannelError
  | empty
  | emptyToken
  | invalidToken (token : String)
  | wildcardInChannel
  | tailWildcardNotFinal
  deriving DecidableEq, Repr

def ChannelError.message : ChannelError → String
  | .empty => "empty channel"
  | .emptyToken => "empty token"
  | .invalidToken token => "invalid token: " ++ token
  | .wildcardInChannel => "wildcard is not valid in channels"
  | .tailWildcardNotFinal => "'>' wildcard must be the final pattern token"

/-- `split('.')`: the pieces between dots, one empty piece for the empty string. -/
def tokens (s : String) : List String := (s.toList.splitOn '.').map String.ofList

/-- The byte test of the source: no byte of a non-ASCII character passes it. -/
def plainChar (c : Char) : Bool := c.isLower || c.isDigit || c == '_' || c == '-'

def validPlainToken (token : String) : Bool :=
  !token.toList.isEmpty && token.toList.all plainChar

def validateChannelToken (token : String) : Except ChannelError Unit :=
  if token = "" then .error .emptyToken
  else if token = "*" ∨ token = ">" then .error .wildcardInChannel
  else if !validPlainToken token then .error (.invalidToken token)
  else .ok ()

def validateChannel (channel : String) : Except ChannelError Unit :=
  if channel = "" then .error .empty
  else (tokens channel).forM validateChannelToken

/-- `>` is refused unless it is the last token, that is unless `rest` is empty. -/
def validatePatternTokens : List String → Except ChannelError Unit
  | [] => .ok ()
  | token :: rest =>
    if token = "" then .error .emptyToken
    else if token = ">" then
      if rest ≠ [] then .error .tailWildcardNotFinal else validatePatternTokens rest
    else if token = "*" then validatePatternTokens rest
    else if !validPlainToken token then .error (.invalidToken token)
    else validatePatternTokens rest

def validatePattern (pattern : String) : Except ChannelError Unit :=
  if pattern = "" then .error .empty
  else validatePatternTokens (tokens pattern)

/-- The loop of `channel_matches`: `pi` counts pattern tokens, `ci` channel tokens. -/
def matchTokens (channelTokens : List String) : Nat → Nat → List String → Bool
  | _, ci, [] => ci == channelTokens.length
  | pi, ci, token :: rest =>
    if token = ">" then decide (ci < channelTokens.length) || pi == 0
    else if token = "*" then
      if ci ≥ channelTokens.length then false
      else matchTokens channelTokens (pi + 1) (ci + 1) rest
    else
      if channelTokens[ci]? ≠ some token then false
      else matchTokens channelTokens (pi + 1) (ci + 1) rest

def channelMatches (channel pattern : String) : Except ChannelError Bool := do
  validateChannel channel
  validatePattern pattern
  return matchTokens (tokens channel) 0 0 (tokens pattern)

/-- A pattern string that passed validation. -/
structure Pattern where
  value : String
  valid : validatePattern value = .ok ()

instance : DecidableEq Pattern := fun p q =>
  decidable_of_iff (p.value = q.value) <| by
    cases p; cases q; simp

def Pattern.new (value : String) : Except ChannelError Pattern :=
  match h : validatePattern value with
  | .ok () => .ok ⟨value, h⟩
  | .error err => .error err

def Pattern.matches (p : Pattern) (channel : String) : Except ChannelError Bool :=
  channelMatches channel p.value

/-- `patterns.iter().any(|p| p.matches(channel).unwrap_or(false))`, the test of
live fan-out and of replay alike. -/
def anyMatches (patterns : List Pattern) (channel : String) : Bool :=
  patterns.any fun p => match p.matches channel with
    | .ok b => b
    | .error _ => false

theorem anyMatches_mono {ps qs : List Pattern} (sub : ∀ p ∈ ps, p ∈ qs) {channel : String}
    (h : anyMatches ps channel = true) : anyMatches qs channel = true := by
  obtain ⟨p, hp, hm⟩ := List.any_eq_true.mp h
  exact List.any_eq_true.mpr ⟨p, sub p hp, hm⟩

end Whdr
