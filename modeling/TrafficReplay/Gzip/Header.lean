/-
# Headers of compressed data

Each member of a compressed file begins with a header: two bytes that mark it, the method, flags,
six bytes that nothing here depends on, and then what the flags announce: extra data behind their
length, a file name and a comment that end with a zero, and a check of all that stands in front of
it. A header that is read takes some bytes (`Header.size_read_lt`), so a file has finitely many
members.
-/
import TrafficReplay.Checksum
import TrafficReplay.Fault
import TrafficReplay.Gzip.Decoder

namespace TrafficReplay.Gzip

def number16 (low high : UInt8) : Nat :=
  low.toNat + 256 * high.toNat

namespace Header

/-- The bit that tells that the header ends with a check of itself. -/
def checkFlag : Nat := 1

/-- The bit that tells that the header holds extra data. -/
def extraFlag : Nat := 2

/-- The bit that tells that the header holds a file name. -/
def nameFlag : Nat := 3

/-- The bit that tells that the header holds a comment. -/
def commentFlag : Nat := 4

def reservedFlags : Nat := 0x20

def tells (flags : UInt8) (flag : Nat) : Bool :=
  flags.toNat.testBit flag

/-- The most bytes that a file name or a comment can have. -/
def longestText : Nat := 65535

/-- The place behind the first ten bytes, and the flags in them. The bytes are looked at only when
all of them are there. -/
def readFixed (cursor : Cursor) : Except Fault (UInt8 × Cursor) :=
  match cursor.bytes with
  | m₁ :: m₂ :: method :: flags :: _ :: _ :: _ :: _ :: _ :: _ :: _ =>
    if m₁ ≠ 0x1F ∨ m₂ ≠ 0x8B ∨ method ≠ 8 ∨ reservedFlags ≤ flags.toNat then .error .invalidHeader
    else .ok (flags, cursor.drop 10)
  | _ => .error .unexpectedEnd

def skipExtra (flags : UInt8) (cursor : Cursor) : Except Fault Cursor :=
  if tells flags extraFlag then
    match cursor.bytes with
    | low :: high :: rest =>
      if rest.length < number16 low high then .error .unexpectedEnd
      else .ok ((cursor.drop 2).dropField (number16 low high))
    | _ => .error .unexpectedEnd
  else .ok cursor

def skipText (flags : UInt8) (flag : Nat) (cursor : Cursor) : Except Fault Cursor :=
  if tells flags flag then
    let length := (cursor.bytes.takeWhile (· ≠ 0)).length
    if longestText < length then .error .headerFieldTooLong
    else if cursor.bytes.length ≤ length then .error .unexpectedEnd
    else .ok (cursor.drop (length + 1))
  else .ok cursor

/-- The place behind the check of the header that starts at `start`, if it agrees. -/
def compareCheck (flags : UInt8) (start cursor : Cursor) : Except Fault Cursor :=
  if tells flags checkFlag then
    match cursor.bytes with
    | low :: high :: _ =>
      let check := Checksum.crc32 (start.bytes.take (start.bytes.length - cursor.bytes.length))
      if check.toNat % 0x10000 = number16 low high then .ok (cursor.drop 2)
      else .error .checksumMismatch
    | _ => .error .unexpectedEnd
  else .ok cursor

/-- Reads a header: the place behind it, or what is wrong with it. -/
def read (cursor : Cursor) : Except Fault Cursor := do
  let (flags, fixed) ← readFixed cursor
  let extra ← skipExtra flags fixed
  let name ← skipText flags nameFlag extra
  let comment ← skipText flags commentFlag name
  compareCheck flags cursor comment

theorem size_readFixed_lt {cursor rest : Cursor} {flags : UInt8}
    (h : readFixed cursor = .ok (flags, rest)) :
    rest.size < cursor.size := by
  unfold readFixed at h
  split at h
  · next hb =>
    split at h
    · cases h
    · simp only [Except.ok.injEq, Prod.mk.injEq] at h
      simp only [← h.2, Cursor.drop, Cursor.size, hb, List.length_nil, List.length_drop,
        List.length_cons]
      omega
  · cases h

theorem size_skipExtra_le {cursor rest : Cursor} {flags : UInt8}
    (h : skipExtra flags cursor = .ok rest) :
    rest.size ≤ cursor.size := by
  unfold skipExtra at h
  split at h
  · split at h
    · split at h
      · cases h
      · simp only [Except.ok.injEq] at h
        exact h ▸ Nat.le_trans (Cursor.size_dropField_le _ _) (Cursor.size_drop_le _ _)
    · cases h
  · cases h; exact Nat.le_refl _

theorem size_skipText_le {cursor rest : Cursor} {flags : UInt8} {flag : Nat}
    (h : skipText flags flag cursor = .ok rest) : rest.size ≤ cursor.size := by
  unfold skipText at h
  split at h
  · simp only at h
    split at h
    · cases h
    · split at h
      · cases h
      · cases h; exact Cursor.size_drop_le _ _
  · cases h; exact Nat.le_refl _

theorem size_compareCheck_le {start cursor rest : Cursor} {flags : UInt8}
    (h : compareCheck flags start cursor = .ok rest) : rest.size ≤ cursor.size := by
  unfold compareCheck at h
  split at h
  · split at h
    · simp only at h
      split at h
      · cases h; exact Cursor.size_drop_le _ _
      · cases h
    · cases h
  · cases h; exact Nat.le_refl _

/-- A header takes some bytes. -/
theorem size_read_lt {cursor rest : Cursor} (h : read cursor = .ok rest) :
    rest.size < cursor.size := by
  simp only [read, bind, Except.bind] at h
  split at h
  · cases h
  · next start hf =>
    obtain ⟨flags, fixed⟩ := start
    simp only at h
    split at h
    · cases h
    · next extra he =>
      split at h
      · cases h
      · next name hn =>
        split at h
        · cases h
        · next comment hc =>
          exact Nat.lt_of_le_of_lt (size_compareCheck_le h) <|
            Nat.lt_of_le_of_lt (size_skipText_le hc) <| Nat.lt_of_le_of_lt (size_skipText_le hn) <|
            Nat.lt_of_le_of_lt (size_skipExtra_le he) (size_readFixed_lt hf)

end Header

end TrafficReplay.Gzip
