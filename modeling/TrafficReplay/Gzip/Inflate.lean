/-
# Decompression

`Gzip.inflate` decodes block after block up to the end of the last one, and gives what it has
decoded also when the data end too early or are corrupt. Every item and every block takes at least a
bit, which is why decoding comes to an end.
-/
import TrafficReplay.Gzip.Block
import TrafficReplay.Gzip.Output

namespace TrafficReplay.Gzip

/-- What decompression comes to, each with the data decoded so far. -/
inductive Inflated
  /-- All is decoded; `rest` is the place behind it. -/
  | complete (output : Output) (rest : Cursor)
  /-- The data end too early. -/
  | short (output : Output)
  /-- The data follow no rule. -/
  | corrupt (output : Output)
  deriving Repr

def inflateItems (codes : Codes) (cursor : Cursor) (output : Output) : Inflated :=
  match _h : Item.read codes cursor with
  | .short => .short output
  | .corrupt offset => .corrupt (output.reach offset)
  | .found .blockEnd rest => .complete (output.reach rest.offset) rest
  | .found (.literal byte) rest => inflateItems codes rest ((output.reach rest.offset).push byte)
  | .found (.copy length distance) rest =>
    inflateItems codes rest ((output.reach rest.offset).copy distance length)
termination_by cursor.size
decreasing_by all_goals exact Item.size_lt_of_read _h

def inflateStored (cursor : Cursor) (output : Output) : Nat → Inflated
  | 0 => .complete output cursor
  | n + 1 =>
    match cursor.bytes with
    | [] => .short output
    | byte :: bytes =>
      inflateStored ⟨[], bytes, cursor.offset + 1⟩ ((output.reach (cursor.offset + 1)).push byte) n

def inflateContent (content : Content) (cursor : Cursor) (output : Output) : Inflated :=
  match content with
  | .fixed => inflateItems .fixed cursor output
  | .dynamic =>
    match Codes.readDynamic cursor with
    | .short => .short output
    | .corrupt offset => .corrupt (output.reach offset)
    | .found codes rest => inflateItems codes rest output
  | .stored =>
    match readStoredLength cursor with
    | .short => .short output
    | .corrupt offset => .corrupt (output.reach offset)
    | .found length rest => inflateStored rest output length

theorem size_le_of_inflateItems {codes : Codes} {cursor rest : Cursor} {output output' : Output}
    (h : inflateItems codes cursor output = .complete output' rest) : rest.size ≤ cursor.size := by
  fun_induction inflateItems codes cursor output with
  | case1 | case2 => cases h
  | case3 cursor output rest' hr =>
    cases h
    exact Nat.le_of_lt (Item.size_lt_of_read hr)
  | case4 cursor output byte rest' hr ih | case5 cursor output length distance rest' hr ih =>
    exact Nat.le_trans (ih h) (Nat.le_of_lt (Item.size_lt_of_read hr))

theorem size_le_of_inflateStored {n : Nat} {cursor rest : Cursor} {output output' : Output}
    (h : inflateStored cursor output n = .complete output' rest) : rest.size ≤ cursor.size := by
  induction n generalizing cursor output with
  | zero => cases h; exact Nat.le_refl _
  | succ n ih =>
    simp only [inflateStored] at h
    split at h
    · cases h
    · next byte bytes hb =>
      have := ih h
      simp only [Cursor.size, hb, List.length_cons, List.length_nil] at *
      omega

theorem size_le_of_inflateContent {content : Content} {cursor rest : Cursor}
    {output output' : Output}
    (h : inflateContent content cursor output = .complete output' rest) :
    rest.size ≤ cursor.size := by
  unfold inflateContent at h
  split at h
  · exact size_le_of_inflateItems h
  · split at h
    · cases h
    · cases h
    · next codes middle hm =>
      exact Nat.le_trans (size_le_of_inflateItems h) (Codes.shrinking_readDynamic hm)
  · split at h
    · cases h
    · cases h
    · next length middle hm =>
      exact Nat.le_trans (size_le_of_inflateStored h) (shrinking_readStoredLength hm)

/-- Decodes block after block up to the end of the last one. -/
def inflate (cursor : Cursor) (output : Output) : Inflated :=
  match _hs : BlockStart.read cursor with
  | .short => .short output
  | .corrupt offset => .corrupt (output.reach offset)
  | .found start middle =>
    match _hc : inflateContent start.content middle output with
    | .short output => .short output
    | .corrupt output => .corrupt output
    | .complete output rest => if start.isLast then .complete output rest else inflate rest output
termination_by cursor.size
decreasing_by
  exact Nat.lt_of_le_of_lt (size_le_of_inflateContent _hc) (BlockStart.size_lt_of_read _hs)

theorem size_le_of_inflate {cursor rest : Cursor} {output output' : Output}
    (h : inflate cursor output = .complete output' rest) : rest.size ≤ cursor.size := by
  fun_induction inflate cursor output with
  | case1 | case2 => cases h
  | case3 | case4 => cases h
  | case5 cursor output start middle hs output₁ rest₁ hc hl =>
    cases h
    exact Nat.le_of_lt
      (Nat.lt_of_le_of_lt (size_le_of_inflateContent hc) (BlockStart.size_lt_of_read hs))
  | case6 cursor output start middle hs output₁ rest₁ hc hl ih =>
    have := ih h
    have := size_le_of_inflateContent hc
    have := BlockStart.size_lt_of_read hs
    omega

end TrafficReplay.Gzip
