/-
# Decoders of bits

Compressed data are read bit by bit, the lowest bit of each byte first. A decoder takes what it
needs from a cursor; it is short of bits when the data end before it is done, and it finds the data
corrupt when they follow no rule. What a decoder leaves is never more than what it was given
(`Shrinking`), and decoders built from such decoders keep to that.
-/
import TrafficReplay.Text.Utf8

namespace TrafficReplay.Gzip

/-- A place in a compressed file: the bits of the byte that was begun, the bytes behind it, and how
many bytes were begun since the portions in which the file is read began. -/
structure Cursor where
  pending : List Bool
  bytes : Bytes
  offset : Nat
  deriving Repr, DecidableEq

namespace Cursor

def size (cursor : Cursor) : Nat :=
  cursor.pending.length + 8 * cursor.bytes.length

def bitsOf (b : UInt8) : List Bool :=
  (List.range 8).map b.toNat.testBit

def bit? (cursor : Cursor) : Option (Bool × Cursor) :=
  match cursor.pending, cursor.bytes with
  | b :: pending, _ => some (b, { cursor with pending })
  | [], byte :: bytes => some (byte.toNat.testBit 0, ⟨(bitsOf byte).tail, bytes, cursor.offset + 1⟩)
  | [], [] => none

def aligned (cursor : Cursor) : Cursor :=
  { cursor with pending := [] }

def drop (cursor : Cursor) (n : Nat) : Cursor :=
  ⟨[], cursor.bytes.drop n, cursor.offset + n⟩

def portionSize : Nat := 32768

/-- The cursor behind a field of that many bytes. What the field lacks when a portion is used up is
taken from the file at once if it is no less than a portion; then portions begin anew behind it. -/
def dropField (cursor : Cursor) (n : Nat) : Cursor :=
  let inPortion := (portionSize - cursor.offset % portionSize) % portionSize
  if inPortion + portionSize ≤ n then ⟨[], cursor.bytes.drop n, 0⟩ else cursor.drop n

theorem size_of_bit? {cursor rest : Cursor} {b : Bool} (h : cursor.bit? = some (b, rest)) :
    rest.size + 1 = cursor.size := by
  obtain ⟨pending, bytes, offset⟩ := cursor
  match pending, bytes with
  | b :: pending, _ =>
    simp only [bit?, Option.some.injEq, Prod.mk.injEq] at h
    rw [← h.2]
    simp only [size, List.length_cons]
    omega
  | [], byte :: bytes =>
    simp only [bit?, Option.some.injEq, Prod.mk.injEq] at h
    rw [← h.2]
    simp only [size, bitsOf, List.length_tail, List.length_map, List.length_range, List.length_cons,
      List.length_nil]
    omega
  | [], [] => simp [bit?] at h

theorem size_drop_le (cursor : Cursor) (n : Nat) : (cursor.drop n).size ≤ cursor.size := by
  simp only [drop, size, List.length_nil, List.length_drop]
  omega

theorem size_dropField_le (cursor : Cursor) (n : Nat) :
    (cursor.dropField n).size ≤ cursor.size := by
  unfold dropField
  simp only
  split
  · exact cursor.size_drop_le n
  · exact cursor.size_drop_le n

theorem size_aligned_le (cursor : Cursor) : cursor.aligned.size ≤ cursor.size := by
  simp [aligned, size]

end Cursor

/-- What decoding comes to. -/
inductive Decoded (α : Type)
  /-- A value, and the place behind it. -/
  | found (value : α) (rest : Cursor)
  /-- The data end before the value does. -/
  | short
  /-- The data follow no rule; `offset` tells how many bytes were begun, as a cursor counts them. -/
  | corrupt (offset : Nat)
  deriving Repr

def Decoder (α : Type) := Cursor → Decoded α

namespace Decoder

variable {α β : Type}

instance : Monad Decoder where
  pure a := fun cursor => .found a cursor
  bind d f := fun cursor =>
    match d cursor with
    | .found a rest => f a rest
    | .short => .short
    | .corrupt offset => .corrupt offset

def reject : Decoder α :=
  fun cursor => .corrupt cursor.offset

def bit : Decoder Bool := fun cursor =>
  match cursor.bit? with
  | some (b, rest) => .found b rest
  | none => .short

def bits : Nat → Decoder Nat
  | 0 => pure 0
  | n + 1 => do
    let low ← bit
    let high ← bits n
    return low.toNat + 2 * high

def align : Decoder Unit :=
  fun cursor => .found () cursor.aligned

/-- What the decoder leaves is not more than what it was given. -/
def Shrinking (d : Decoder α) : Prop :=
  ∀ ⦃cursor : Cursor⦄ ⦃a : α⦄ ⦃rest : Cursor⦄, d cursor = .found a rest → rest.size ≤ cursor.size

theorem Shrinking.pure (a : α) : Shrinking (Pure.pure a : Decoder α) := by
  intro cursor b rest h
  cases h
  exact Nat.le_refl _

theorem Shrinking.reject : Shrinking (Decoder.reject : Decoder α) := by
  intro cursor b rest h
  cases h

theorem Shrinking.bind {d : Decoder α} {f : α → Decoder β} (hd : Shrinking d)
    (hf : ∀ a, Shrinking (f a)) :
    Shrinking (d >>= f) := by
  intro cursor b rest h
  simp only [Bind.bind] at h
  split at h
  · next a middle hm => exact Nat.le_trans (hf a h) (hd hm)
  · cases h
  · cases h

theorem bit_eq_found {cursor rest : Cursor} {b : Bool} (h : bit cursor = .found b rest) :
    cursor.bit? = some (b, rest) := by
  simp only [bit] at h
  split at h
  · next hb => cases h; exact hb
  · cases h

theorem Shrinking.bit : Shrinking Decoder.bit := by
  intro cursor b rest h
  have := Cursor.size_of_bit? (bit_eq_found h)
  omega

theorem Shrinking.bits (n : Nat) : Shrinking (Decoder.bits n) := by
  induction n with
  | zero => exact .pure 0
  | succ n ih => exact .bind .bit fun _ => .bind ih fun _ => .pure _

theorem Shrinking.align : Shrinking Decoder.align := by
  intro cursor u rest h
  cases h
  exact cursor.size_aligned_le

end Decoder

end TrafficReplay.Gzip
