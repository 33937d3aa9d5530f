/-
# Reading encoded text back

The bytes of a text are read as this text (`Utf8.decodeLossy_encode`). The lead byte of a character
gives the highest bits of its value and says which bytes may follow (`lead?_of_owed_one` and so on);
each of the bytes that follow gives six more bits (`continuation_cons`).
-/
import Mathlib
import TrafficReplay.Text.Utf8

namespace TrafficReplay.Utf8

/-- The byte that continues a character with the lowest six bits of a number. -/
def continuing (n : Nat) : UInt8 :=
  UInt8.ofNat (n % 64 + 128)

theorem toNat_continuing (n : Nat) : (continuing n).toNat = n % 64 + 128 :=
  UInt8.toNat_ofNat_of_lt' (show n % 64 + 128 < 256 by omega)

theorem continuation_cons {low high : UInt8} {n : Nat} (hlow : low.toNat ≤ n % 64 + 128)
    (hhigh : n % 64 + 128 ≤ high.toNat) (owed bits : Nat) (text : Bytes) :
    continuation (owed + 1) bits low high (continuing n :: text)
      = continuation owed (bits * 64 + n % 64) 0x80 0xBF text := by
  have hbounds : low ≤ continuing n ∧ continuing n ≤ high := by
    rw [UInt8.le_iff_toNat_le, UInt8.le_iff_toNat_le, toNat_continuing]
    exact ⟨hlow, hhigh⟩
  have hbits : (n % 64 + 128) % 64 = n % 64 := by omega
  rw [continuation, if_pos hbounds, toNat_continuing, hbits]

theorem continuation_cons' (n owed bits : Nat) (text : Bytes) :
    continuation (owed + 1) bits 0x80 0xBF (continuing n :: text)
      = continuation owed (bits * 64 + n % 64) 0x80 0xBF text :=
  continuation_cons (show 128 ≤ _ by omega) (show _ ≤ 191 by omega) owed bits text

theorem lead?_of_owed_one {bits : Nat} (h : 2 ≤ bits) (h' : bits < 32) :
    lead? (UInt8.ofNat (bits + 192)) = some ⟨bits, 1, 0x80, 0xBF⟩ := by
  interval_cases bits <;> rfl

theorem lead?_of_owed_two {bits : Nat} (h : bits < 16) :
    lead? (UInt8.ofNat (bits + 224))
      = some ⟨bits, 2, if bits = 0 then 0xA0 else 0x80, if bits = 13 then 0x9F else 0xBF⟩ := by
  interval_cases bits <;> rfl

theorem lead?_of_owed_three {bits : Nat} (h : bits < 5) :
    lead? (UInt8.ofNat (bits + 240))
      = some ⟨bits, 3, if bits = 0 then 0x90 else 0x80, if bits = 4 then 0x8F else 0xBF⟩ := by
  interval_cases bits <;> rfl

theorem readChar_of_lead? {b : UInt8} {lead : Lead} (h : 0x80 ≤ b.toNat)
    (hl : lead? b = some lead) (text : Bytes) :
    readChar b text =
      ((continuation lead.owed lead.bits lead.low lead.high text).1.map Char.ofNat,
        (continuation lead.owed lead.bits lead.low lead.high text).2) := by
  have hb : ¬b < 0x80 := by
    rw [UInt8.lt_iff_toNat_lt]
    exact Nat.not_lt.mpr h
  rw [readChar, if_neg hb, hl]

theorem le_toNat_ofNat {n m : Nat} (h : n + m < 256) (hm : 128 ≤ m) :
    128 ≤ (UInt8.ofNat (n + m)).toNat := by
  have heq : (UInt8.ofNat (n + m)).toNat = n + m := UInt8.toNat_ofNat_of_lt' h
  omega

section Characters

variable {value : Nat}

theorem readChar_of_one (h : value < 128) (rest : Bytes) :
    readChar (UInt8.ofNat value) rest = (some (Char.ofNat value), rest) := by
  have hv : (UInt8.ofNat value).toNat = value :=
    UInt8.toNat_ofNat_of_lt' (show value < 256 by omega)
  have hb : UInt8.ofNat value < 0x80 := by
    rw [UInt8.lt_iff_toNat_lt, hv]
    exact h
  rw [readChar, if_pos hb, hv]

theorem readChar_of_two (h : 128 ≤ value) (h' : value < 2048) (rest : Bytes) :
    readChar (UInt8.ofNat (value / 64 % 32 + 192)) (continuing value :: rest)
      = (some (Char.ofNat value), rest) := by
  have hbits : value / 64 % 32 = value / 64 := by omega
  have hlead := lead?_of_owed_one (show 2 ≤ value / 64 by omega) (by omega)
  have hvalue : value / 64 * 64 + value % 64 = value := by omega
  rw [hbits, readChar_of_lead? (le_toNat_ofNat (by omega) (by omega)) hlead, continuation_cons',
    continuation, hvalue]
  rfl

theorem readChar_of_three (h : 2048 ≤ value) (h' : value < 65536)
    (hvalid : value < 0xD800 ∨ 0xDFFF < value) (rest : Bytes) :
    readChar (UInt8.ofNat (value / 4096 % 16 + 224))
        (continuing (value / 64) :: continuing value :: rest)
      = (some (Char.ofNat value), rest) := by
  have hbits : value / 4096 % 16 = value / 4096 := by omega
  have hlead := lead?_of_owed_two (show value / 4096 < 16 by omega)
  have hvalue : (value / 4096 * 64 + value / 64 % 64) * 64 + value % 64 = value := by omega
  rw [hbits, readChar_of_lead? (le_toNat_ofNat (by omega) (by omega)) hlead,
    continuation_cons _ _, continuation_cons', continuation, hvalue]
  · rfl
  · dsimp only
    split
    · show 160 ≤ value / 64 % 64 + 128
      omega
    · show 128 ≤ value / 64 % 64 + 128
      omega
  · dsimp only
    split
    · show value / 64 % 64 + 128 ≤ 159
      omega
    · show value / 64 % 64 + 128 ≤ 191
      omega

/-- The bounds of the second byte rule out what three bytes hold and what is beyond U+10FFFF. -/
theorem readChar_of_four (h : 65536 ≤ value) (h' : value < 0x110000) (rest : Bytes) :
    readChar (UInt8.ofNat (value / 262144 % 8 + 240))
        (continuing (value / 4096) :: continuing (value / 64) :: continuing value :: rest)
      = (some (Char.ofNat value), rest) := by
  have hbits : value / 262144 % 8 = value / 262144 := by omega
  have hlead := lead?_of_owed_three (show value / 262144 < 5 by omega)
  have hvalue : ((value / 262144 * 64 + value / 4096 % 64) * 64 + value / 64 % 64) * 64 + value % 64
      = value := by
    omega
  rw [hbits, readChar_of_lead? (le_toNat_ofNat (by omega) (by omega)) hlead,
    continuation_cons _ _, continuation_cons', continuation_cons', continuation, hvalue]
  · rfl
  · dsimp only
    split
    · show 144 ≤ value / 4096 % 64 + 128
      omega
    · show 128 ≤ value / 4096 % 64 + 128
      omega
  · dsimp only
    split
    · show value / 4096 % 64 + 128 ≤ 143
      omega
    · show value / 4096 % 64 + 128 ≤ 191
      omega

end Characters

theorem readChar_utf8EncodeChar (c : Char) (rest : Bytes) :
    ∃ b bytes, String.utf8EncodeChar c = b :: bytes ∧
      readChar b (bytes ++ rest) = (some c, rest) := by
  have hvalid := c.valid
  have hc : Char.ofNat c.val.toNat = c := Char.ofNat_toNat c
  rw [UInt32.isValidChar, Nat.isValidChar] at hvalid
  rw [String.utf8EncodeChar]
  generalize c.val.toNat = value at hvalid hc
  rw [← hc]
  split
  · exact ⟨_, _, rfl, readChar_of_one (by omega) rest⟩
  split
  · exact ⟨_, _, rfl, readChar_of_two (by omega) (by omega) rest⟩
  split
  · exact ⟨_, _, rfl, readChar_of_three (by omega) (by omega) (by omega) rest⟩
  · exact ⟨_, _, rfl, readChar_of_four (by omega) (by omega) rest⟩

theorem readCharsAfter_utf8EncodeChar (done : List (Option Char)) (c : Char) (rest : Bytes) :
    readCharsAfter done (String.utf8EncodeChar c ++ rest)
      = readCharsAfter (some c :: done) rest := by
  obtain ⟨b, bytes, hb, hread⟩ := readChar_utf8EncodeChar c rest
  rw [hb, List.cons_append, readCharsAfter, hread]

theorem readCharsAfter_flatMap (done : List (Option Char)) (chars : List Char) :
    readCharsAfter done (chars.flatMap String.utf8EncodeChar) = done.reverse ++ chars.map some := by
  induction chars generalizing done with
  | nil => simp [readCharsAfter]
  | cons c chars ih =>
    rw [List.flatMap_cons, readCharsAfter_utf8EncodeChar, ih]
    simp

theorem readChars_encode (text : String) : readChars (encode text) = text.toList.map some := by
  rw [readChars, encode, readCharsAfter_flatMap]
  rfl

/-- **Encoded text is read back.** -/
theorem decodeLossy_encode (text : String) : decodeLossy (encode text) = text := by
  rw [decodeLossy, readChars_encode, List.map_map]
  have hid : (fun c : Option Char => c.getD replacement) ∘ some = id := rfl
  rw [hid, List.map_id, String.ofList_toList]

theorem encode_eq_nil_iff {text : String} : encode text = [] ↔ text = "" := by
  rw [encode, List.flatMap_eq_nil_iff]
  constructor
  · intro h
    rw [← String.toList_eq_nil_iff]
    refine List.eq_nil_iff_forall_not_mem.mpr fun c hc => ?_
    exact String.utf8EncodeChar_ne_nil (h c hc)
  · rintro rfl
    simp

theorem flatMap_utf8EncodeChar_of_ascii {chars : List Char} (h : ∀ c ∈ chars, c.toNat < 128) :
    chars.flatMap String.utf8EncodeChar = chars.map fun c => UInt8.ofNat c.toNat := by
  induction chars with
  | nil => rfl
  | cons c chars ih =>
    have hc : c.val.toNat ≤ 127 := Nat.le_of_lt_succ (h c List.mem_cons_self)
    have hchars : ∀ c ∈ chars, c.toNat < 128 := fun d hd => h d (List.mem_cons_of_mem c hd)
    rw [List.flatMap_cons, List.map_cons, ih hchars, String.utf8EncodeChar, if_pos hc]
    rfl

end TrafficReplay.Utf8
