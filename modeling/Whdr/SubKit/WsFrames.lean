import Whdr.Lib.BigEndian

/-! The WebSocket frames of the OCaml kit (connection.ml): what `write_frame` writes and what
`read_frame` reads in a stream of bytes. -/
namespace Whdr.WsFrames

abbrev Bytes := List UInt8

/-! ## Writing -/

/-- The key is four bytes. -/
def maskPayload (key s : Bytes) : Bytes := s.mapIdx fun i b => b ^^^ key.getD (i &&& 3) 0

/-- `Char.chr` raises `Invalid_argument` on a number that is no byte. -/
def charChr (n : Nat) : Option UInt8 := if n < 256 then some (UInt8.ofNat n) else none

/-- What `write_frame` hands to the channel, with the key it made up. -/
def writeFrame (key : Bytes) (opcode : Nat) (payload : Bytes) : Option Bytes := do
  let len := payload.length
  let b0 ← charChr (0x80 ||| opcode)
  let length ←
    if len < 126 then do
      let b1 ← charChr (0x80 ||| len)
      some [b1]
    else if len < 65536 then do
      let b1 ← charChr (0x80 ||| 126)
      some [b1, UInt8.ofNat ((len >>> 8) &&& 0xff), UInt8.ofNat (len &&& 0xff)]
    else do
      let b1 ← charChr (0x80 ||| 127)
      some (b1 :: BigEndian.bytes 8 len)
  some (b0 :: (length ++ key ++ maskPayload key payload))

/-! ## Reading -/

/-- `End_of_file`, or the `Invalid_argument` of `Bytes.create`. -/
inductive ReadError
  | endOfFile
  | invalidArgument
  deriving DecidableEq, Repr

/-- What reads bytes from the channel. -/
abbrev Read := StateT Bytes (Except ReadError)

/-- The largest size of a string is left out. -/
def readExactly (n : Int) : Read Bytes := fun ic =>
  if n = 0 then .ok ([], ic)
  else if n < 0 then .error .invalidArgument
  else if ic.length < n.toNat then .error .endOfFile
  else .ok (ic.take n.toNat, ic.drop n.toNat)

def readByte : Read Nat
  | [] => .error .endOfFile
  | b :: ic => .ok (b.toNat, ic)

/-- The signed number of 63 bits. -/
def int63 (n : Nat) : Int := if n < 2 ^ 62 then n else (n : Int) - 2 ^ 63

def readLength (len0 : Nat) : Read Int :=
  if len0 < 126 then return len0
  else if len0 = 126 then do
    let s ← readExactly 2
    return (((s.getD 0 0).toNat <<< 8) ||| (s.getD 1 0).toNat : Nat)
  else do
    let s ← readExactly 8
    return int63 (s.foldl (BigEndian.shiftIn (2 ^ 63)) 0)

def readKey (masked : Bool) : Read Bytes := if masked then readExactly 4 else pure []

/-- One frame, its opcode and its payload. The final bit is not looked at. -/
def readFrame : Read (Nat × Bytes) := do
  let b0 ← readByte
  let b1 ← readByte
  let opcode := b0 &&& 0x0f
  let masked := decide (b1 &&& 0x80 ≠ 0)
  let len0 := b1 &&& 0x7f
  let len ← readLength len0
  let key ← readKey masked
  let payload ← readExactly len
  return (opcode, if masked then maskPayload key payload else payload)

/-! ## The frames of RFC 6455 -/

/-- How many bytes the length takes after the second byte. -/
def extended (len : Nat) : Nat := if len < 126 then 0 else if len < 65536 then 2 else 8

/-- The seven bits of the length in the second byte. -/
def shortLength (len : Nat) : Nat := if len < 126 then len else if len < 65536 then 126 else 127

/-- A frame as RFC 6455 has it, with the final bit, the mask key of a client, an opcode and
the payload. -/
def frame (fin : Bool) (key : Option Bytes) (opcode : Nat) (payload : Bytes) : Bytes :=
  UInt8.ofNat ((if fin then 0x80 else 0) + opcode) ::
    UInt8.ofNat ((if key.isSome then 0x80 else 0) + shortLength payload.length) ::
    (BigEndian.bytes (extended payload.length) payload.length ++
      match key with
      | some key => key ++ maskPayload key payload
      | none => payload)

/-! ## The mask -/

theorem length_maskPayload (key s : Bytes) : (maskPayload key s).length = s.length := by
  simp [maskPayload]

/-- Byte `i` is XORed with byte `i mod 4` of the key. -/
theorem getElem?_maskPayload (key s : Bytes) (i : Nat) :
    (maskPayload key s)[i]? = s[i]?.map fun b => b ^^^ key.getD (i % 4) 0 := by
  have low : i &&& 3 = i % 4 := Nat.and_two_pow_sub_one_eq_mod i 2
  rw [maskPayload, List.getElem?_mapIdx, low]

theorem mask_twice (key s : Bytes) : maskPayload key (maskPayload key s) = s := by
  refine List.ext_getElem (by simp [length_maskPayload]) fun i _ _ => ?_
  simp only [maskPayload, List.getElem_mapIdx, UInt8.xor_assoc, UInt8.xor_self, UInt8.xor_zero]

/-! ## Reading a frame back -/

theorem bind_ok {α β : Type} {x : Read α} {f : α → Read β} {a : α} {ic rest : Bytes}
    (read : x ic = .ok (a, rest)) : (x >>= f) ic = f a rest := by
  change Except.bind (x ic) _ = _
  rw [read]
  rfl

theorem readExactly_append {s : Bytes} {n : Int} (size : n = s.length) (rest : Bytes) :
    readExactly n (s ++ rest) = .ok (s, rest) := by
  subst size
  unfold readExactly
  split
  · rename_i zero
    have empty : s = [] := by simpa using zero
    simp [empty]
  · simp

theorem int63_small {n : Nat} (small : n < 2 ^ 62) : int63 n = n := if_pos small

/-- The length is read back, in all three encodings. -/
theorem readLength_extended {len : Nat} (small : len < 2 ^ 62) (rest : Bytes) :
    readLength (shortLength len) (BigEndian.bytes (extended len) len ++ rest) =
      .ok ((len : Int), rest) := by
  unfold shortLength extended
  by_cases one : len < 126
  · simp only [if_pos one, readLength]
    rfl
  · by_cases three : len < 65536
    · have read := readExactly_append (s := BigEndian.bytes 2 len) (n := 2) (by simp) rest
      have two : BigEndian.bytes 2 len =
          [UInt8.ofNat (len / 256 % 256), UInt8.ofNat (len % 256)] := by
        rw [BigEndian.bytes_succ 1, BigEndian.bytes_succ 0]
        simp [BigEndian.bytes]
      have low : len % 256 < 2 ^ 8 := by omega
      simp only [if_neg one, if_pos three, readLength, lt_self_iff_false, if_false, if_true]
      rw [bind_ok read, two]
      simp only [List.getD_cons_zero, List.getD_cons_succ, BigEndian.toNat_ofNat_mod]
      rw [← Nat.shiftLeft_add_eq_or_of_lt low, Nat.shiftLeft_eq]
      have whole : len / 256 % 256 * 2 ^ 8 + len % 256 = len := by omega
      rw [whole]
      rfl
    · have read := readExactly_append (s := BigEndian.bytes 8 len) (n := 8)
        (by simp) rest
      have number : (BigEndian.bytes 8 len).foldl (BigEndian.shiftIn (2 ^ 63)) 0 = len :=
        BigEndian.read_bytes (by omega) (by omega)
      simp only [if_neg one, if_neg three, readLength]
      rw [if_neg (by decide), if_neg (by decide), bind_ok read, number, int63_small small]
      rfl

theorem shortLength_lt (len : Nat) : shortLength len < 128 := by
  unfold shortLength
  split
  · omega
  · split <;> omega

/-- The opcode in the first byte, with and without the final bit. -/
theorem first_byte : ∀ n < 16, (0 + n) &&& 0x0f = n ∧ (0x80 + n) &&& 0x0f = n := by decide

/-- The mask bit and the length in the second byte. -/
theorem second_byte : ∀ n < 128, (0 + n) &&& 0x80 = 0 ∧ (0x80 + n) &&& 0x80 ≠ 0 ∧
    (0 + n) &&& 0x7f = n ∧ (0x80 + n) &&& 0x7f = n := by decide

theorem toNat_byte (high : Bool) {n : Nat} (small : n < 128) :
    (UInt8.ofNat ((if high then 0x80 else 0) + n)).toNat = (if high then 0x80 else 0) + n := by
  rw [UInt8.toNat_ofNat']
  split <;> omega

/-- The frame is read back whatever follows it, with or without a mask and the final bit. -/
theorem readFrame_frame (fin : Bool) {key : Option Bytes} {opcode : Nat} {payload : Bytes}
    (four : ∀ k ∈ key, k.length = 4) (nibble : opcode < 16) (small : payload.length < 2 ^ 62)
    (rest : Bytes) :
    readFrame (frame fin key opcode payload ++ rest) = .ok ((opcode, payload), rest) := by
  have op : ((if fin then 0x80 else 0) + opcode) &&& 0x0f = opcode := by
    cases fin
    · exact (first_byte opcode nibble).1
    · exact (first_byte opcode nibble).2
  obtain ⟨clear, set, plain, masked⟩ := second_byte _ (shortLength_lt payload.length)
  have b0 := toNat_byte fin (show opcode < 128 by omega)
  have b1 := toNat_byte key.isSome (shortLength_lt payload.length)
  simp only [frame, List.cons_append, List.append_assoc]
  unfold readFrame
  rw [bind_ok rfl, bind_ok rfl, b0, b1, op]
  cases key with
  | none =>
    simp only [Option.isSome_none, Bool.false_eq_true, if_false, clear, plain]
    rw [bind_ok (readLength_extended small _), bind_ok rfl, bind_ok (readExactly_append rfl rest)]
    rfl
  | some key =>
    have size : (4 : Int) = key.length := by rw [four key rfl]; rfl
    have keyRead (rest : Bytes) : readKey true (key ++ rest) = .ok (key, rest) :=
      readExactly_append size rest
    have length : (payload.length : Int) = (maskPayload key payload).length := by
      rw [length_maskPayload]
    simp only [Option.isSome_some, if_true, masked, List.append_assoc]
    rw [bind_ok (readLength_extended small _), decide_eq_true set,
      bind_ok (keyRead _), bind_ok (readExactly_append length rest)]
    simp only [mask_twice, if_true]
    rfl

/-! ## What is read is taken from the stream -/

theorem of_bind_ok {α β : Type} {x : Read α} {f : α → Read β} {b : β} {ic rest : Bytes}
    (read : (x >>= f) ic = .ok (b, rest)) :
    ∃ a mid, x ic = .ok (a, mid) ∧ f a mid = .ok (b, rest) := by
  change Except.bind (x ic) _ = _ at read
  cases first : x ic with
  | error e =>
    rw [first] at read
    cases read
  | ok p =>
    rw [first] at read
    exact ⟨p.1, p.2, rfl, read⟩

theorem readExactly_le {n : Int} {s ic rest : Bytes} (read : readExactly n ic = .ok (s, rest)) :
    rest.length ≤ ic.length := by
  unfold readExactly at read
  split at read
  · cases read
    exact Nat.le_refl _
  · split at read
    · cases read
    · split at read
      · cases read
      · cases read
        rw [List.length_drop]
        omega

theorem readByte_lt {n : Nat} {ic rest : Bytes} (read : readByte ic = .ok (n, rest)) :
    rest.length < ic.length := by
  cases ic with
  | nil => cases read
  | cons b ic =>
    cases read
    exact Nat.lt_succ_self _

theorem readLength_le {len0 : Nat} {len : Int} {ic rest : Bytes}
    (read : readLength len0 ic = .ok (len, rest)) : rest.length ≤ ic.length := by
  unfold readLength at read
  split at read
  · cases read
    exact Nat.le_refl _
  · split at read
    all_goals
      obtain ⟨s, mid, exactly, done⟩ := of_bind_ok read
      cases done
      exact readExactly_le exactly

theorem readKey_le {masked : Bool} {key ic rest : Bytes}
    (read : readKey masked ic = .ok (key, rest)) : rest.length ≤ ic.length := by
  cases masked with
  | true => exact readExactly_le (n := 4) read
  | false =>
    cases read
    exact Nat.le_refl _

theorem readFrame_shorter {f : Nat × Bytes} {ic rest : Bytes}
    (read : readFrame ic = .ok (f, rest)) : rest.length < ic.length := by
  obtain ⟨b0, ic₁, first, read⟩ := of_bind_ok read
  obtain ⟨b1, ic₂, second, read⟩ := of_bind_ok read
  obtain ⟨len, ic₃, length, read⟩ := of_bind_ok read
  obtain ⟨key, ic₄, key, read⟩ := of_bind_ok read
  obtain ⟨payload, ic₅, payload, done⟩ := of_bind_ok read
  cases done
  have := readByte_lt first
  have := readByte_lt second
  have := readLength_le length
  have := readKey_le key
  have := readExactly_le payload
  omega

/-! ## Writing a frame -/

theorem length_frame (fin : Bool) (key : Bytes) (opcode : Nat) (payload : Bytes) :
    (frame fin (some key) opcode payload).length =
      2 + extended payload.length + key.length + payload.length := by
  simp only [frame, List.length_cons, List.length_append, BigEndian.length_bytes,
    length_maskPayload]
  omega

/-- The masked payload stands behind the header and the key. -/
theorem frame_payload (fin : Bool) {key : Bytes} (four : key.length = 4) (opcode : Nat)
    (payload : Bytes) (i : Nat) :
    (frame fin (some key) opcode payload)[2 + extended payload.length + 4 + i]? =
      (maskPayload key payload)[i]? := by
  have header : frame fin (some key) opcode payload =
      (UInt8.ofNat ((if fin then 0x80 else 0) + opcode) ::
        UInt8.ofNat (0x80 + shortLength payload.length) ::
        (BigEndian.bytes (extended payload.length) payload.length ++ key)) ++
        maskPayload key payload := by
    simp [frame]
  rw [header, List.getElem?_append_right]
  · congr 1
    simp only [List.length_cons, List.length_append, BigEndian.length_bytes, four]
    omega
  · simp only [List.length_cons, List.length_append, BigEndian.length_bytes, four]
    omega

theorem high_bit : ∀ n < 128, charChr (0x80 ||| n) = some (UInt8.ofNat (0x80 + n)) := by decide

/-- The frame of a client has the final bit and a mask. -/
theorem writeFrame_frame {opcode : Nat} (nibble : opcode < 16) (key payload : Bytes) :
    writeFrame key opcode payload = some (frame true (some key) opcode payload) := by
  have b0 := high_bit opcode (by omega)
  have b1 := high_bit _ (shortLength_lt payload.length)
  unfold shortLength at b1
  simp only [writeFrame, frame, shortLength, extended, b0]
  by_cases one : payload.length < 126
  · simp only [if_pos one] at b1 ⊢
    simp [b1, BigEndian.bytes]
  · by_cases three : payload.length < 65536
    · simp only [if_neg one, if_pos three] at b1 ⊢
      rw [b1]
      simp [BigEndian.bytes, List.range_succ]
    · simp only [if_neg one, if_neg three] at b1 ⊢
      rw [b1]
      simp

/-- What the kit writes as a frame, its payload masked byte by byte, it reads back as that frame,
and nothing of what follows. -/
theorem write_read_frame {opcode : Nat} (nibble : opcode < 16) {key : Bytes}
    (four : key.length = 4) {payload : Bytes} (small : payload.length < 2 ^ 62) :
    (∃ bytes, writeFrame key opcode payload = some bytes ∧
      bytes.length = 2 + extended payload.length + 4 + payload.length ∧
      (∀ i, bytes[2 + extended payload.length + 4 + i]? =
        payload[i]?.map fun b => b ^^^ key.getD (i % 4) 0) ∧
      ∀ rest, readFrame (bytes ++ rest) = .ok ((opcode, payload), rest)) ∧
    maskPayload key (maskPayload key payload) = payload := by
  refine ⟨⟨_, writeFrame_frame nibble key payload, ?_, ?_, ?_⟩, mask_twice key payload⟩
  · rw [length_frame, four]
  · intro i
    rw [frame_payload true four opcode payload i, getElem?_maskPayload]
  · exact readFrame_frame true (by simpa using four) nibble small

/-- The boundaries of the three encodings of a length. -/
example : [125, 126, 65535, 65536].map extended = [0, 2, 2, 8] := by decide

/-- A text frame with the shortest payload that takes two more bytes for its length. -/
theorem write_read_frame_126 :
    (∃ bytes, writeFrame [1, 2, 3, 4] 1 (List.replicate 126 7) = some bytes ∧
      bytes.length = 2 + extended (List.replicate 126 (7 : UInt8)).length + 4 +
        (List.replicate 126 (7 : UInt8)).length ∧
      (∀ i, bytes[2 + extended (List.replicate 126 (7 : UInt8)).length + 4 + i]? =
        (List.replicate 126 (7 : UInt8))[i]?.map fun b => b ^^^ [1, 2, 3, 4].getD (i % 4) 0) ∧
      ∀ rest, readFrame (bytes ++ rest) = .ok ((1, List.replicate 126 7), rest)) ∧
    maskPayload [1, 2, 3, 4] (maskPayload [1, 2, 3, 4] (List.replicate 126 7)) =
      List.replicate 126 7 :=
  write_read_frame (by decide) rfl (by simp)

end Whdr.WsFrames
