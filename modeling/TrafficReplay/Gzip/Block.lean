/-
# Blocks of compressed data

Compressed data are a row of blocks. A block says whether it is the last one and what it holds:
bytes as they are, or items spelled in a code, which is either a fixed one or told at the start of
the block. An item is a byte, a copy of bytes that came before, or the end of the block.
-/
import TrafficReplay.Gzip.Code

namespace TrafficReplay.Gzip

/-- The two codes of a block: one for bytes, lengths of copies and the end, the other for distances
of copies. -/
structure Codes where
  literals : Code
  distances : Code
  deriving Repr, DecidableEq

/-- One item of a block. -/
inductive Item
  | literal (byte : UInt8)
  | copy (length distance : Nat)
  | blockEnd
  deriving Repr, DecidableEq

/-- What a block holds. -/
inductive Content
  /-- Bytes as they are. -/
  | stored
  /-- Items in the fixed codes. -/
  | fixed
  /-- Items in codes of its own. -/
  | dynamic
  deriving Repr, DecidableEq

namespace Item

/-- The least copy length of each length symbol, and how many bits tell how much more it is. -/
def lengthSymbols : Array (Nat × Nat) :=
  #[(3, 0), (4, 0), (5, 0), (6, 0), (7, 0), (8, 0), (9, 0), (10, 0), (11, 1), (13, 1), (15, 1),
    (17, 1), (19, 2), (23, 2), (27, 2), (31, 2), (35, 3), (43, 3), (51, 3), (59, 3), (67, 4),
    (83, 4), (99, 4), (115, 4),
    (131, 5), (163, 5), (195, 5), (227, 5), (258, 0)]

/-- The least distance of each distance symbol, and how many bits tell how much more it is. -/
def distanceSymbols : Array (Nat × Nat) :=
  #[(1, 0), (2, 0), (3, 0), (4, 0), (5, 1), (7, 1), (9, 2), (13, 2), (17, 3), (25, 3), (33, 4),
    (49, 4), (65, 5), (97, 5), (129, 6), (193, 6), (257, 7), (385, 7), (513, 8), (769, 8),
    (1025, 9), (1537, 9), (2049, 10), (3073, 10), (4097, 11), (6145, 11), (8193, 12), (12289, 12),
    (16385, 13), (24577, 13)]

/-- The symbol that ends a block; smaller ones are bytes and greater ones lengths. -/
def blockEndSymbol : Nat := 256

/-- Reads what a table says of a symbol. Symbols without an entry are found corrupt. -/
def readMeasure (symbols : Array (Nat × Nat)) (symbol : Nat) : Decoder Nat :=
  match symbols[symbol]? with
  | none => Decoder.reject
  | some (least, width) => do
    let more ← Decoder.bits width
    return least + more

def readCopy (distances : Code) (symbol : Nat) : Decoder Item := do
  let length ← readMeasure lengthSymbols (symbol - (blockEndSymbol + 1))
  let distance ← readMeasure distanceSymbols (← distances.read)
  return .copy length distance

def readAfter (distances : Code) (symbol : Nat) : Decoder Item :=
  if symbol < blockEndSymbol then return .literal (UInt8.ofNat symbol)
  else if symbol = blockEndSymbol then return .blockEnd
  else readCopy distances symbol

/-- Reads an item. -/
def read (codes : Codes) : Decoder Item := do
  readAfter codes.distances (← codes.literals.read)

theorem shrinking_readMeasure (symbols : Array (Nat × Nat)) (symbol : Nat) :
    (readMeasure symbols symbol).Shrinking := by
  unfold readMeasure
  split
  · exact .reject
  · exact .bind (.bits _) fun _ => .pure _

theorem shrinking_readAfter (distances : Code) (symbol : Nat) :
    (readAfter distances symbol).Shrinking := by
  unfold readAfter
  split
  · exact .pure _
  · split
    · exact .pure _
    · exact .bind (shrinking_readMeasure _ _) fun _ =>
        .bind distances.shrinking_read fun _ => .bind (shrinking_readMeasure _ _) fun _ => .pure _

/-- An item takes a bit at least. -/
theorem size_lt_of_read {codes : Codes} {cursor rest : Cursor} {item : Item}
    (h : read codes cursor = .found item rest) : rest.size < cursor.size := by
  simp only [read, Bind.bind] at h
  split at h
  · next symbol middle hm =>
    exact Nat.lt_of_le_of_lt (shrinking_readAfter _ _ h) (Code.size_lt_of_read hm)
  · cases h
  · cases h

end Item

namespace Codes

def fixed : Codes where
  literals := Code.ofLengths
    (List.replicate 144 8 ++ List.replicate 112 9 ++ List.replicate 24 7 ++ List.replicate 8 8)
  distances := Code.ofLengths (List.replicate 32 5)

/-- The order in which the lengths of the words for lengths are told. -/
def lengthOrder : List Nat :=
  [16, 17, 18, 0, 8, 7, 9, 6, 10, 5, 11, 4, 12, 3, 13, 2, 14, 1, 15]

/-- Puts told lengths in the order of their symbols; what is not told is zero. -/
def inOrder (told : List Nat) : List Nat :=
  (List.range lengthOrder.length).map fun symbol =>
    ((lengthOrder.zip told).find? (·.1 = symbol)).elim 0 (·.2)

def readTold : Nat → Decoder (List Nat)
  | 0 => return []
  | n + 1 => do
    let first ← Decoder.bits 3
    return first :: (← readTold n)

/-- The symbols that repeat a length: which length, the least number of times, and the bits that
tell how many times more. -/
def repetition? (symbol : Nat) (previous : Option Nat) : Option (Nat × Nat × Nat) :=
  if symbol = 16 then previous.map fun length => (length, 3, 2)
  else if symbol = 17 then some (0, 3, 3)
  else some (0, 11, 7)

theorem pos_of_repetition? {symbol length least width : Nat} {previous : Option Nat}
    (h : repetition? symbol previous = some (length, least, width)) : 0 < least := by
  unfold repetition? at h
  split at h
  · obtain ⟨_, _, he⟩ := Option.map_eq_some_iff.1 h
    simp only [Prod.mk.injEq] at he
    omega
  · split at h <;> simp only [Option.some.injEq, Prod.mk.injEq] at h <;> omega

/-- Reads the lengths still missing, with repetitions; `previous` is the one read last. -/
def readLengths (code : Code) (missing : Nat) (previous : Option Nat) : Decoder (List Nat) :=
  match missing with
  | 0 => return []
  | missing + 1 => do
    let symbol ← code.read
    if symbol < 16 then
      return symbol :: (← readLengths code missing (some symbol))
    else match _h : repetition? symbol previous with
      | none => Decoder.reject
      | some (length, least, width) => do
        let more ← Decoder.bits width
        if missing + 1 < least + more then Decoder.reject
        else
          return List.replicate (least + more) length ++
            (← readLengths code (missing + 1 - (least + more)) (some length))
termination_by missing
decreasing_by
  · omega
  · have := pos_of_repetition? _h
    omega

/-- The code of a list of lengths, if it is one: complete, or of one bit at most where that is
allowed. -/
def readCode (lengths : List Nat) (singleAllowed : Bool) : Decoder Code :=
  if Code.isComplete lengths || (singleAllowed && Code.isSingle lengths) then
    return Code.ofLengths lengths
  else Decoder.reject

def mostLiterals : Nat := 286

def mostDistances : Nat := 30

def readDynamic : Decoder Codes := do
  let literals := 257 + (← Decoder.bits 5)
  let distances := 1 + (← Decoder.bits 5)
  let told := 4 + (← Decoder.bits 4)
  if mostLiterals < literals || mostDistances < distances then Decoder.reject
  else
    let lengthCode ← readCode (inOrder (← readTold told)) false
    let lengths ← readLengths lengthCode (literals + distances) none
    let distanceCode ← readCode (lengths.drop literals) true
    let literalCode ← readCode (lengths.take literals) true
    return ⟨literalCode, distanceCode⟩

theorem shrinking_readTold (n : Nat) : (readTold n).Shrinking := by
  induction n with
  | zero => exact .pure _
  | succ n ih => exact .bind (.bits 3) fun _ => .bind ih fun _ => .pure _

theorem shrinking_readLengths (code : Code) (missing : Nat) (previous : Option Nat) :
    (readLengths code missing previous).Shrinking := by
  induction missing using Nat.strongRecOn generalizing previous with
  | ind missing ih =>
    unfold readLengths
    split
    · exact .pure _
    · next missing =>
      refine .bind code.shrinking_read fun symbol => ?_
      split
      · exact .bind (ih missing (by omega) _) fun _ => .pure _
      · split
        · exact .reject
        · next length least width hr =>
          have := pos_of_repetition? hr
          refine .bind (.bits _) fun more => ?_
          split
          · exact .reject
          · exact .bind (ih _ (by omega) _) fun _ => .pure _

theorem shrinking_readCode (lengths : List Nat) (singleAllowed : Bool) :
    (readCode lengths singleAllowed).Shrinking := by
  unfold readCode
  split
  · exact .pure _
  · exact .reject

theorem shrinking_readDynamic : readDynamic.Shrinking := by
  refine .bind (.bits 5) fun _ => .bind (.bits 5) fun _ => .bind (.bits 4) fun _ => ?_
  dsimp only
  split
  · exact .reject
  · exact .bind (shrinking_readTold _) fun _ => .bind (shrinking_readCode _ _) fun _ =>
      .bind (shrinking_readLengths _ _ _) fun _ => .bind (shrinking_readCode _ _) fun _ =>
      .bind (shrinking_readCode _ _) fun _ => .pure _

end Codes

/-- What the start of a block says: whether it is the last one, and what it holds. -/
structure BlockStart where
  isLast : Bool
  content : Content
  deriving Repr, DecidableEq

/-- Reads the start of a block. -/
def BlockStart.read : Decoder BlockStart := do
  let isLast ← Decoder.bit
  match ← Decoder.bits 2 with
  | 0 => return ⟨isLast, .stored⟩
  | 1 => return ⟨isLast, .fixed⟩
  | 2 => return ⟨isLast, .dynamic⟩
  | _ => Decoder.reject

/-- The start of a block takes a bit at least. -/
theorem BlockStart.size_lt_of_read {cursor rest : Cursor} {start : BlockStart}
    (h : BlockStart.read cursor = .found start rest) : rest.size < cursor.size := by
  simp only [BlockStart.read, Bind.bind] at h
  split at h
  · next b middle hb =>
    have hbit := Cursor.size_of_bit? (Decoder.bit_eq_found hb)
    split at h
    · next n last hn =>
      have := Decoder.Shrinking.bits 2 hn
      split at h <;> cases h <;> omega
    · cases h
    · cases h
  · cases h
  · cases h

/-- Reads how many bytes a block holds as they are: the number, and its complement as a check. -/
def readStoredLength : Decoder Nat := do
  Decoder.align
  let length ← Decoder.bits 16
  let complement ← Decoder.bits 16
  if length + complement = 0xFFFF then return length else Decoder.reject

theorem shrinking_readStoredLength : readStoredLength.Shrinking := by
  refine .bind .align fun _ => .bind (.bits 16) fun _ => .bind (.bits 16) fun _ => ?_
  split
  · exact .pure _
  · exact .reject

end TrafficReplay.Gzip
