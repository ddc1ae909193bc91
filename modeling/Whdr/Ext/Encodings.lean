import Whdr.Ext.Kit
import Whdr.Lib.BaseText

/-! What the handlers rely on of the two encodings, and crates that have it. -/
namespace Whdr.Ext

open Ndjson (isWhitespace)

/-- Decoding undoes encoding, and what is encoded holds no white space. -/
structure Crates.Lawful (crates : Crates) : Prop where
  hex : ∀ bytes, crates.hexDecode (crates.hexEncode bytes) = some bytes
  base64 : ∀ bytes, crates.b64Decode (crates.b64Encode bytes) = some bytes
  hexSolid : ∀ bytes, ∀ c ∈ (crates.hexEncode bytes).toList, isWhitespace c = false
  base64Solid : ∀ bytes, ∀ c ∈ (crates.b64Encode bytes).toList, isWhitespace c = false

/-- Crates that agree with the real ones on bodies in ASCII; the MAC is that of `hi` under the
key `s` with SHA-256. -/
def asciiCrates : Crates where
  b64Encode bytes := String.ofList (BaseText.base64 bytes)
  b64Decode text := BaseText.readBase64 text.toList
  hexEncode bytes := String.ofList (BaseText.hex bytes)
  hexDecode text := BaseText.readHex text.toList
  mac _ _ _ := [186, 61, 253, 107, 144, 160, 80, 75, 68, 207, 212, 50, 112, 123, 19, 133, 0, 88,
    229, 170, 164, 240, 145, 188, 169, 86, 198, 160, 246, 96, 15, 17]
  fromSlice bytes := (Json.read (bytes.map fun b => Char.ofNat b.toNat)).bind Serde.value

theorem isWhitespace_hexDigit (n : Nat) : isWhitespace (Json.hexDigit n) = false := by
  have table : ∀ i < 16, isWhitespace (Nat.digitChar i) = false := by decide
  exact table _ (Nat.mod_lt _ (by decide))

theorem isWhitespace_digit (n : Nat) : isWhitespace (BaseText.digit n) = false := by
  have table : ∀ i < 64, isWhitespace (BaseText.alphabet.getD i 'A') = false := by decide +kernel
  exact table _ (Nat.mod_lt _ (by decide))

theorem asciiCrates_lawful : asciiCrates.Lawful where
  hex bytes := by
    simp only [asciiCrates, String.toList_ofList]
    exact BaseText.readHex_hex bytes
  base64 bytes := by
    simp only [asciiCrates, String.toList_ofList]
    exact BaseText.readBase64_base64 bytes
  hexSolid bytes c mem := by
    simp only [asciiCrates, String.toList_ofList] at mem
    obtain ⟨n, rfl⟩ := BaseText.mem_hex mem
    exact isWhitespace_hexDigit n
  base64Solid bytes c mem := by
    simp only [asciiCrates, String.toList_ofList] at mem
    obtain rfl | ⟨n, rfl⟩ := BaseText.mem_base64 mem
    · decide
    · exact isWhitespace_digit n

/-- The bytes of a text in ASCII. -/
def bytesOf (text : List Char) : List UInt8 := text.map fun c => UInt8.ofNat c.toNat

theorem asciiCrates_fromSlice {text : List Char} (ascii : ∀ c ∈ text, c.toNat < 128) :
    asciiCrates.fromSlice (bytesOf text) = (Json.read text).bind Serde.value := by
  have back : (bytesOf text).map (fun b => Char.ofNat b.toNat) = text := by
    rw [bytesOf, List.map_map]
    conv_rhs => rw [← List.map_id text]
    apply List.map_congr_left
    intro c mem
    have small : c.toNat < 256 := by
      have := ascii c mem
      omega
    rw [Function.comp_apply, UInt8.toNat_ofNat_of_lt' small, Char.ofNat_toNat]
    rfl
  simp only [asciiCrates, back]

end Whdr.Ext
