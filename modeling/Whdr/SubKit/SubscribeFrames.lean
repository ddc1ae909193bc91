import Whdr.Proto.Ndjson

/-! The subscribe frames of the five client kits and what the server reads in them. -/
namespace Whdr.SubscribeFrames

open Serde (Fields once required omittable defaulted tagged struct list nullable nat_num)
open Wire (toJson ofJson strings)
open Ndjson (fits_nat fits_strings)

inductive Kit
  | rust
  | go
  | python
  | typescript
  | ocaml
  deriving DecidableEq, Repr

/-! ## What each kit builds -/

/-- `subscribe_msg` of whdr-sub-kit (connection.rs), serialized as the server's own type. -/
def subscribeMsg (patterns : List String) (afterSeq : Option Nat) : SubClientMsg :=
  .subscribe patterns (afterSeq.map ReplayRequest.mk)

namespace Go

structure ReplayRequest where
  afterSeq : Nat

/-- The envelope of every client message (frames.go). -/
structure ClientMsg where
  type : String
  patterns : List String
  replay : Option ReplayRequest

def subscribeMsg (patterns : List String) (cursor : Nat) (replay : Bool) : ClientMsg :=
  ⟨"subscribe", patterns, if replay then some ⟨cursor⟩ else none⟩

/-- `json.Marshal`: `omitempty` leaves out a slice without elements and a nil pointer. -/
def marshal (msg : ClientMsg) : Json :=
  .obj (("type", .str msg.type) ::
    ((if msg.patterns.isEmpty then [] else [("patterns", strings msg.patterns)]) ++
      match msg.replay with
      | none => []
      | some r => [("replay", .obj [("after_seq", .num r.afterSeq)])]))

end Go

/-- `subscribe_message` (_frames.py). -/
def Python.subscribeMessage (patterns : List String) (afterSeq : Option Nat) : Json :=
  let msg : Fields := [("type", .str "subscribe"), ("patterns", strings patterns)]
  match afterSeq with
  | none => .obj msg
  | some afterSeq => .obj (msg ++ [("replay", .obj [("after_seq", .num afterSeq)])])

/-- `subscribeFrame` (frames.ts). -/
def TypeScript.subscribeFrame (patterns : List String) (afterSeq : Option Nat) : Json :=
  match afterSeq with
  | none => .obj [("type", .str "subscribe"), ("patterns", strings patterns)]
  | some afterSeq => .obj [("type", .str "subscribe"), ("patterns", strings patterns),
      ("replay", .obj [("after_seq", .num afterSeq)])]

/-- `client_msg_to_json` of a `Subscribe` (frame.ml). -/
def OCaml.subscribe (patterns : List String) (afterSeq : Option Nat) : Json :=
  let base : Fields := [("type", .str "subscribe"), ("patterns", strings patterns)]
  let base := match afterSeq with
    | some s => base ++ [("replay", .obj [("after_seq", .num s)])]
    | none => base
  .obj base

/-- The value a kit hands to its JSON library to subscribe, from a cursor or live only. -/
def Kit.frame (patterns : List String) (afterSeq : Option Nat) : Kit → Json
  | .rust => toJson (subscribeMsg patterns afterSeq)
  | .go => Go.marshal (Go.subscribeMsg patterns (afterSeq.getD 0) afterSeq.isSome)
  | .python => Python.subscribeMessage patterns afterSeq
  | .typescript => TypeScript.subscribeFrame patterns afterSeq
  | .ocaml => OCaml.subscribe patterns afterSeq

/-- The `serde_json::from_str` of `handle_subscriber_text`; `none` closes the connection. -/
def serverReads (read : List Char → Option Json) (text : List Char) : Option SubClientMsg :=
  (read text).bind ofJson

/-! ## What the server reads -/

variable {patterns : List String} {afterSeq : Option Nat}

/-- What the server's decoder makes of a frame's fields. -/
def understood (patterns : List String) (afterSeq : Option Nat) (frame : Json) : Prop :=
  ofJson frame = some (subscribeMsg patterns afterSeq)

attribute [local simp] tagged once required omittable defaulted

/-- The fields every kit but one sends, with the cursor if there is one. -/
def sent (patterns : List String) : Option Nat → Json
  | none => .obj [("type", .str "subscribe"), ("patterns", strings patterns)]
  | some afterSeq => .obj [("type", .str "subscribe"), ("patterns", strings patterns),
      ("replay", .obj [("after_seq", .num afterSeq)])]

theorem sent_understood (small : ∀ s ∈ afterSeq, s < 2 ^ 53) :
    understood patterns afterSeq (sent patterns afterSeq) := by
  cases afterSeq with
  | none => simp [understood, sent, ofJson, strings, subscribeMsg]
  | some s =>
    have cursor : s < u64Size := Nat.lt_trans (small s rfl) (by decide)
    simp [understood, sent, ofJson, strings, subscribeMsg, nullable, struct, Wire.ofReplayRequest,
      nat_num cursor]

theorem rust_inRange (small : ∀ s ∈ afterSeq, s < 2 ^ 53) :
    Wire.InRange (subscribeMsg patterns afterSeq) := by
  intro r mem
  obtain ⟨s, isSome, rfl⟩ := Option.map_eq_some_iff.mp mem
  exact Nat.lt_trans (small s isSome) (by decide)

theorem rust_understood (small : ∀ s ∈ afterSeq, s < 2 ^ 53) :
    understood patterns afterSeq (Kit.frame patterns afterSeq .rust) :=
  Ndjson.LawfulWire.back _ (rust_inRange small)

theorem go_sent (nonempty : patterns ≠ []) :
    Kit.frame patterns afterSeq .go = sent patterns afterSeq := by
  cases patterns with
  | nil => exact absurd rfl nonempty
  | cons pattern rest => cases afterSeq <;> rfl

/-- Without the field `patterns` there is no message. -/
theorem go_empty_rejected : ofJson (α := SubClientMsg) (Kit.frame [] afterSeq .go) = none := by
  cases afterSeq <;> simp [Kit.frame, Go.marshal, Go.subscribeMsg, ofJson]

theorem other_sent {kit : Kit} (notRust : kit ≠ .rust) (notGo : kit ≠ .go) :
    kit.frame patterns afterSeq = sent patterns afterSeq := by
  cases kit with
  | rust => exact absurd rfl notRust
  | go => exact absurd rfl notGo
  | python => cases afterSeq <;> rfl
  | typescript => cases afterSeq <;> rfl
  | ocaml => cases afterSeq <;> rfl

/-- A frame is understood unless the Go kit left its list out. -/
theorem frame_understood_iff (kit : Kit) (small : ∀ s ∈ afterSeq, s < 2 ^ 53) :
    (understood patterns afterSeq (kit.frame patterns afterSeq) ↔ kit = .go → patterns ≠ []) ∧
      (ofJson (α := SubClientMsg) (kit.frame patterns afterSeq) = none ↔
        kit = .go ∧ patterns = []) := by
  by_cases bad : kit = .go ∧ patterns = []
  · obtain ⟨rfl, rfl⟩ := bad
    simp [understood, go_empty_rejected]
  · have good : understood patterns afterSeq (kit.frame patterns afterSeq) := by
      by_cases rust : kit = .rust
      · rw [rust]
        exact rust_understood small
      · by_cases go : kit = .go
        · rw [go, go_sent fun nil => bad ⟨go, nil⟩]
          exact sent_understood small
        · rw [other_sent rust go]
          exact sent_understood small
    refine ⟨⟨fun _ go nil => bad ⟨go, nil⟩, fun _ => good⟩, ?_⟩
    rw [understood] at good
    simp [good, bad]

theorem fits_sent (small : ∀ s ∈ afterSeq, s < 2 ^ 53) : (sent patterns afterSeq).Fits := by
  cases afterSeq with
  | none => simp [sent, fits_strings]
  | some s => simp [sent, fits_strings, fits_nat (small s rfl) (by decide)]

theorem fits_goEmpty (small : ∀ s ∈ afterSeq, s < 2 ^ 53) : (Kit.frame [] afterSeq .go).Fits := by
  cases afterSeq with
  | none => simp [Kit.frame, Go.marshal, Go.subscribeMsg]
  | some s => simp [Kit.frame, Go.marshal, Go.subscribeMsg, fits_nat (small s rfl) (by decide)]

theorem fits_frame (kit : Kit) (small : ∀ s ∈ afterSeq, s < 2 ^ 53) :
    (kit.frame patterns afterSeq).Fits := by
  by_cases rust : kit = .rust
  · rw [rust]
    apply Ndjson.LawfulWire.fits
    exact rust_inRange small
  · by_cases go : kit = .go
    · rw [go]
      by_cases nil : patterns = []
      · rw [nil]
        exact fits_goEmpty small
      · rw [go_sent nil]
        exact fits_sent small
    · rw [other_sent rust go]
      exact fits_sent small

/-- Whatever JSON libraries write and read correctly, the server reads the patterns and the
cursor of a kit's subscribe frame exactly if the kit is not Go's or the list is not empty, and
otherwise rejects the frame. -/
theorem subscribe_understood_iff (read : List Char → Option Json) (print : Kit → Json → List Char)
    (correct : ∀ kit (j : Json), j.Fits → read (print kit j) = some j)
    (kit : Kit) (patterns : List String) (afterSeq : Option Nat)
    (small : ∀ s ∈ afterSeq, s < 2 ^ 53) :
    (serverReads read (print kit (kit.frame patterns afterSeq)) =
        some (.subscribe patterns (afterSeq.map ReplayRequest.mk)) ↔ kit = .go → patterns ≠ []) ∧
      (serverReads read (print kit (kit.frame patterns afterSeq)) = none ↔
        kit = .go ∧ patterns = []) := by
  rw [serverReads, correct kit _ (fits_frame kit small), Option.bind_some]
  exact frame_understood_iff kit small

/-- Every kit writing without blanks, and a list that is not empty. -/
theorem subscribe_understood_iff_one_pattern :
    (∀ (_ : Kit) (j : Json), j.Fits → Json.read j.render = some j) ∧
      serverReads Json.read (Kit.frame ["github.>"] (some 7) .go).render =
        some (.subscribe ["github.>"] (some ⟨7⟩)) :=
  ⟨fun _ => Json.read_render,
    (subscribe_understood_iff Json.read (fun _ => Json.render) (fun _ => Json.read_render) .go
      ["github.>"] (some 7) (by rintro _ ⟨⟩; decide)).1.mpr (by decide)⟩

/-- The Go kit's frame for an empty list is rejected. -/
theorem go_empty_list_rejected :
    ¬ ∀ kit (patterns : List String) (cursor : Nat), cursor < 2 ^ 53 →
      serverReads Json.read (Kit.frame patterns (some cursor) kit).render =
        some (.subscribe patterns (some ⟨cursor⟩)) := by
  intro all
  have text := all .go [] 0 (by decide)
  rw [serverReads, Json.read_render _ (fits_goEmpty (by rintro _ ⟨⟩; decide)), Option.bind_some,
    go_empty_rejected] at text
  cases text

end Whdr.SubscribeFrames
