/-
# Compressed files

A compressed file is a row of members, each one with a header, compressed data, and a trailer with a
check and the length of what it holds. Reading the file gives what all members hold, one after the
other; a fault lets everything pass that was handed on in front of it. A file whose first header is
broken cannot be opened at all.
-/
import TrafficReplay.Delivery
import TrafficReplay.Gzip.Header
import TrafficReplay.Gzip.Inflate

namespace TrafficReplay.Gzip

/-- What a compressed file holds, and the fault that reading it ends with, if it does. -/
structure Unpacked where
  bytes : Bytes
  fault : Option Fault
  deriving Repr, DecidableEq

def number32 (b₁ b₂ b₃ b₄ : UInt8) : Nat :=
  number16 b₁ b₂ + 0x10000 * number16 b₃ b₄

/-- Reads the trailer of a member that holds `contents`: the place behind it, or a fault. -/
def readTrailer (contents : Bytes) (cursor : Cursor) : Except Fault Cursor :=
  match cursor.bytes with
  | c₁ :: c₂ :: c₃ :: c₄ :: l₁ :: l₂ :: l₃ :: l₄ :: _ =>
    if number32 c₁ c₂ c₃ c₄ = (Checksum.crc32 contents).toNat ∧
        number32 l₁ l₂ l₃ l₄ = contents.length % 0x100000000 then .ok (cursor.drop 8)
    else .error .checksumMismatch
  | _ => .error .unexpectedEnd

theorem size_readTrailer_le {contents : Bytes} {cursor rest : Cursor}
    (h : readTrailer contents cursor = .ok rest) : rest.size ≤ cursor.size := by
  unfold readTrailer at h
  split at h
  · split at h
    · cases h; exact Cursor.size_drop_le _ _
    · cases h
  · cases h

/-- Reads compressed data and trailer of a member, and then the members behind it. -/
def readMembers (cursor : Cursor) : Unpacked :=
  match _hi : inflate cursor .empty with
  | .short output => ⟨output.toBytes, some .incompleteData⟩
  | .corrupt output => ⟨output.handedOn, some .corruptData⟩
  | .complete output after =>
    match _ht : readTrailer output.toBytes after with
    | .error fault => ⟨output.toBytes, some fault⟩
    | .ok next =>
      if next.bytes = [] then ⟨output.toBytes, none⟩
      else match _hh : Header.read next with
        | .error fault => ⟨output.toBytes, some fault⟩
        | .ok rest =>
          let others := readMembers rest
          { others with bytes := output.toBytes ++ others.bytes }
termination_by cursor.size
decreasing_by
  exact Nat.lt_of_lt_of_le (Header.size_read_lt _hh) <|
    Nat.le_trans (size_readTrailer_le _ht) (size_le_of_inflate _hi)

/-- What a compressed file holds, unless its first header is broken. -/
def unpack? (file : Bytes) : Option Unpacked :=
  match Header.read ⟨[], file, 0⟩ with
  | .ok cursor => some (readMembers cursor)
  | .error _ => none

/-- What is left of it if the bytes behind those that were unpacked cannot be read. That fault is
met where the bytes would end otherwise, and the last `withheld` of the unpacked bytes are lost to
it; what is wrong with the bytes in front of it is found before. -/
def Unpacked.interruptedBy (unpacked : Unpacked) (fault : Fault) (withheld : Nat) : Unpacked :=
  match unpacked.fault with
  | none | some .incompleteData | some .unexpectedEnd =>
    ⟨unpacked.bytes.take (unpacked.bytes.length - withheld), some fault⟩
  | some _ => unpacked

/-- What reading the file gives: its contents, and then the fault if there is one. -/
def Unpacked.deliveries (unpacked : Unpacked) : List Delivery :=
  .portion unpacked.bytes :: (unpacked.fault.map Delivery.failed).toList

end TrafficReplay.Gzip
