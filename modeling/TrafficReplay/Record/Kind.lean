/-
# Kinds of records

A record is a request, a response, or something else, told by the first byte of its metadata. The
kind keeps the byte, so that turning it back into a tag gives the byte that was read
(`Kind.tag_ofTag`).
-/
namespace TrafficReplay

/-- What a record is. -/
inductive Kind
  | request
  | response
  /-- Any other tag; zero stands for a record without metadata. -/
  | other (tag : UInt8)
  deriving Repr, DecidableEq

namespace Kind

def requestTag : UInt8 := 0x31

def responseTag : UInt8 := 0x32

/-- The kind that a tag stands for. -/
def ofTag (tag : UInt8) : Kind :=
  if tag = requestTag then request
  else if tag = responseTag then response
  else other tag

/-- The tag of a kind. -/
def tag : Kind → UInt8
  | request => requestTag
  | response => responseTag
  | other tag => tag

theorem tag_ofTag (tag : UInt8) : (ofTag tag).tag = tag := by
  unfold ofTag
  split
  · simp [Kind.tag, *]
  · split <;> simp [Kind.tag, *]

def name : Kind → String
  | request => "Request"
  | response => "Response"
  | other tag => "Other(" ++ toString tag.toNat ++ ")"

end Kind

end TrafficReplay
