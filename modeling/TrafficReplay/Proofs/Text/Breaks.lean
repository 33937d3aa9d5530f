/-
# Line breaks and blanks in texts

Text without a line break has no byte that is one, and bytes without a line break are read as such
text whatever they are: so it is with each byte that is a character of its own
(`Utf8.notMem_encode`, `Utf8.notMem_decodeLossy`), for each longer character has a value of 64 at
least (`Utf8.le_of_lead?`). Digits have neither line breaks nor blanks (`notMem_toString`).
-/
import TrafficReplay.Calendar
import TrafficReplay.Proofs.Record.Lines
import TrafficReplay.Proofs.Text.Utf8

namespace TrafficReplay

/-- The text has no line break. -/
def Unbroken (text : String) : Prop :=
  '\n' ∉ text.toList

instance (text : String) : Decidable (Unbroken text) :=
  inferInstanceAs (Decidable ('\n' ∉ text.toList))

@[simp] theorem unbroken_append_iff {text other : String} :
    Unbroken (text ++ other) ↔ Unbroken text ∧ Unbroken other := by
  rw [Unbroken, String.toList_append, List.mem_append, not_or]
  rfl

namespace Utf8

theorem encode_append (text other : String) :
    encode (text ++ other) = encode text ++ encode other := by
  rw [encode, encode, encode, String.toList_append, List.flatMap_append]

theorem encode_join (texts : List String) :
    encode (String.join texts) = (texts.map encode).flatten := by
  rw [encode, String.toList_join, List.flatMap_assoc, ← List.flatMap_def]
  rfl

theorem encode_injective : Function.Injective encode :=
  Function.LeftInverse.injective decodeLossy_encode

/-- The byte stands for itself only: it is below all letters, and it is not zero. -/
def IsPlain (b : UInt8) : Prop :=
  0 < b.toNat ∧ b.toNat < 64

instance (b : UInt8) : Decidable (IsPlain b) :=
  inferInstanceAs (Decidable (_ ∧ _))

variable {b : UInt8}

/-! ## Encoding -/

theorem ne_ofNat {n : Nat} (hn : n < 256) (h : n ≠ b.toNat) : b ≠ UInt8.ofNat n := by
  intro he
  have hn' : b.toNat = (UInt8.ofNat n).toNat := congrArg UInt8.toNat he
  rw [UInt8.toNat_ofNat_of_lt' hn] at hn'
  exact h hn'.symm

theorem notMem_utf8EncodeChar (hb : IsPlain b) {c : Char} (h : c ≠ Char.ofNat b.toNat) :
    b ∉ String.utf8EncodeChar c := by
  have hlt := hb.2
  have hc : c.val.toNat ≠ b.toNat := fun he => h (by rw [← he]; exact (Char.ofNat_toNat c).symm)
  rw [String.utf8EncodeChar]
  generalize c.val.toNat = value at hc
  -- all bytes of a longer character are beyond ASCII
  have hrest (n : Nat) : b ≠ UInt8.ofNat (n % 64 + 128) := ne_ofNat (by omega) (by omega)
  split
  · simp only [List.mem_singleton]
    exact ne_ofNat (by omega) hc
  split
  · simp only [List.mem_cons, List.not_mem_nil, or_false, not_or]
    exact ⟨ne_ofNat (by omega) (by omega), hrest _⟩
  split
  · simp only [List.mem_cons, List.not_mem_nil, or_false, not_or]
    exact ⟨ne_ofNat (by omega) (by omega), hrest _, hrest _⟩
  · simp only [List.mem_cons, List.not_mem_nil, or_false, not_or]
    exact ⟨ne_ofNat (by omega) (by omega), hrest _, hrest _, hrest _⟩

theorem notMem_encode (hb : IsPlain b) {text : String} (h : Char.ofNat b.toNat ∉ text.toList) :
    b ∉ encode text := by
  intro hmem
  obtain ⟨c, hc, hin⟩ := List.mem_flatMap.mp hmem
  refine notMem_utf8EncodeChar hb ?_ hin
  rintro rfl
  exact h hc

theorem newline_notMem_encode {text : String} (h : Unbroken text) : newline ∉ encode text :=
  notMem_encode (by decide) h

/-! ## Decoding -/

theorem le_of_continuation {owed bits value : Nat} {low high : UInt8} {text : Bytes}
    (h : (continuation owed bits low high text).1 = some value) : bits * 64 ^ owed ≤ value := by
  induction owed generalizing bits low high text with
  | zero =>
    rw [continuation] at h
    cases h
    simp
  | succ owed ih =>
    cases text with
    | nil => cases h
    | cons b text =>
      rw [continuation] at h
      split at h
      · refine Nat.le_trans ?_ (ih h)
        rw [Nat.pow_succ', ← Nat.mul_assoc]
        exact Nat.mul_le_mul_right _ (Nat.le_add_right _ _)
      · cases h

/-- Where the lead byte gives no bits, the bounds of the byte behind it ask for some. -/
theorem le_of_continuation_zero {owed value : Nat} {low high : UInt8} {text : Bytes}
    (hlow : 0x90 ≤ low.toNat) (hhigh : high.toNat ≤ 0xBF)
    (h : (continuation (owed + 2) 0 low high text).1 = some value) : 64 ≤ value := by
  cases text with
  | nil => cases h
  | cons b text =>
    rw [continuation] at h
    split at h
    · next hb =>
      rw [UInt8.le_iff_toNat_le, UInt8.le_iff_toNat_le] at hb
      have hbits : 1 ≤ 0 * 64 + b.toNat % 64 := by omega
      have hpow : 64 ≤ 64 ^ (owed + 1) := Nat.le_self_pow (Nat.succ_ne_zero owed) 64
      exact hpow.trans ((Nat.le_mul_of_pos_left _ hbits).trans (le_of_continuation h))
    · cases h

theorem le_of_lead? {b : UInt8} {lead : Lead} {value : Nat} {text : Bytes}
    (hl : lead? b = some lead)
    (h : (continuation lead.owed lead.bits lead.low lead.high text).1 = some value) :
    64 ≤ value := by
  have hbits (hpos : 1 ≤ lead.bits) (howed : lead.owed ≠ 0) : 64 ≤ value :=
    (Nat.le_self_pow howed 64).trans
      ((Nat.le_mul_of_pos_left _ hpos).trans (le_of_continuation h))
  rw [lead?] at hl
  simp only [UInt8.le_iff_toNat_le] at hl
  split_ifs at hl with htwo hE0 hED hthree hF0 hfour hF4
  · cases hl
    have hb : 194 ≤ b.toNat ∧ b.toNat ≤ 223 := htwo
    exact hbits (show 1 ≤ b.toNat % 32 by omega) (Nat.succ_ne_zero 0)
  · cases hl
    exact le_of_continuation_zero (by decide) (by decide) h
  · cases hl
    exact hbits (by decide) (by decide)
  · cases hl
    have hb : 225 ≤ b.toNat ∧ b.toNat ≤ 239 := hthree
    exact hbits (show 1 ≤ b.toNat % 16 by omega) (Nat.succ_ne_zero 1)
  · cases hl
    exact le_of_continuation_zero (by decide) (by decide) h
  · cases hl
    have hb : 241 ≤ b.toNat ∧ b.toNat ≤ 243 := hfour
    exact hbits (show 1 ≤ b.toNat % 8 by omega) (Nat.succ_ne_zero 2)
  · cases hl
    exact hbits (by decide) (by decide)

theorem ofNat_ne (hb : IsPlain b) {value : Nat} (h : value ≠ b.toNat) :
    Char.ofNat value ≠ Char.ofNat b.toNat := by
  intro he
  have hval := congrArg Char.toNat he
  obtain ⟨hpos, hlt⟩ := hb
  have hvalid : b.toNat.isValidChar := .inl (by omega)
  rw [Char.toNat_ofNat, Char.toNat_ofNat, if_pos hvalid] at hval
  split at hval
  · exact h hval
  · exact Nat.ne_of_lt hpos hval

theorem continuation_suffix (owed bits : Nat) (low high : UInt8) (text : Bytes) :
    (continuation owed bits low high text).2 <:+ text := by
  induction owed generalizing bits low high text with
  | zero => exact List.suffix_rfl
  | succ owed ih =>
    cases text with
    | nil => exact List.suffix_rfl
    | cons b text =>
      rw [continuation]
      split
      · exact (ih _ _ _ text).trans (List.suffix_cons b text)
      · exact List.suffix_rfl

theorem readChar_suffix (b : UInt8) (text : Bytes) : (readChar b text).2 <:+ text := by
  rw [readChar]
  split
  · exact List.suffix_rfl
  · split
    · exact List.suffix_rfl
    · exact continuation_suffix _ _ _ _ text

theorem readChar_ne (hb : IsPlain b) {first : UInt8} (hne : first ≠ b) (text : Bytes) :
    (readChar first text).1 ≠ some (Char.ofNat b.toNat) := by
  intro h
  rw [readChar] at h
  split at h
  · refine ofNat_ne hb ?_ (Option.some.inj h)
    intro hv
    exact hne (UInt8.toNat_inj.mp hv)
  · split at h
    · cases h
    · next lead hl =>
      obtain ⟨value, hvalue, hc⟩ := Option.map_eq_some_iff.mp h
      have hle := le_of_lead? hl hvalue
      have hlt := hb.2
      exact ofNat_ne hb (by omega) hc

theorem notMem_readCharsAfter (hb : IsPlain b) {bytes : Bytes} {done : List (Option Char)}
    (h : b ∉ bytes) (hdone : some (Char.ofNat b.toNat) ∉ done) :
    some (Char.ofNat b.toNat) ∉ readCharsAfter done bytes := by
  fun_induction readCharsAfter done bytes with
  | case1 done => simpa using hdone
  | case2 done first text next ih =>
    obtain ⟨hfirst, htext⟩ := not_or.mp (mt List.mem_cons.mpr h)
    refine ih (fun hmem => htext ((readChar_suffix first text).subset hmem)) ?_
    rw [List.mem_cons]
    exact not_or.mpr ⟨Ne.symm (readChar_ne hb (Ne.symm hfirst) text), hdone⟩

theorem notMem_decodeLossy (hb : IsPlain b) {bytes : Bytes} (h : b ∉ bytes) :
    Char.ofNat b.toNat ∉ (decodeLossy bytes).toList := by
  rw [decodeLossy, String.toList_ofList, List.mem_map]
  rintro ⟨c, hc, he⟩
  cases c with
  | none =>
    have hvalue : (0xFFFD : Nat) = b.toNat := by
      by_contra hne
      exact ofNat_ne hb hne he
    have hlt := hb.2
    omega
  | some c =>
    have hread := notMem_readCharsAfter hb h List.not_mem_nil
    rw [← show c = Char.ofNat b.toNat from he] at hread
    exact hread hc

end Utf8

/-! ## Numbers -/

/-- The signs of digits in any base; the last one stands for digits that have none. -/
def digitSigns : List Char :=
  ['0', '1', '2', '3', '4', '5', '6', '7', '8', '9', 'a', 'b', 'c', 'd', 'e', 'f', '*']

theorem digitChar_mem (n : Nat) : n.digitChar ∈ digitSigns := by
  by_cases h : n < 16
  · interval_cases n <;> decide
  · have hstar : n.digitChar = '*' := by
      unfold Nat.digitChar
      repeat rw [if_neg (by omega)]
    rw [hstar]
    decide

theorem mem_digitSigns {base n : Nat} (hb : 1 < base) {c : Char} (h : c ∈ Nat.toDigits base n) :
    c ∈ digitSigns := by
  rw [Nat.toDigits_eq_if hb] at h
  split at h
  · rw [List.mem_singleton.mp h]
    exact digitChar_mem n
  · next hle =>
    rcases List.mem_append.mp h with h | h
    · exact mem_digitSigns hb h
    · rw [List.mem_singleton.mp h]
      exact digitChar_mem _
termination_by n
decreasing_by exact Nat.div_lt_self (by omega) hb

theorem notMem_toDigits {base : Nat} (hb : 1 < base) {c : Char} (hc : c ∉ digitSigns) (n : Nat) :
    c ∉ Nat.toDigits base n :=
  fun h => hc (mem_digitSigns hb h)

theorem notMem_toString {c : Char} (hc : c ∉ digitSigns) (n : Nat) : c ∉ (toString n).toList := by
  rw [Nat.toString_eq_repr, Nat.toList_repr]
  exact notMem_toDigits (by decide) hc n

theorem unbroken_toString (n : Nat) : Unbroken (toString n) :=
  notMem_toString (by decide) n

end TrafficReplay
