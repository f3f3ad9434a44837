import ChipEight.Keyboard.Held

/-!
# Typed bytes

What a terminal sends for its keys: a character as itself, a key without a character
as an escape sequence, and a character typed with alt behind an escape.
-/

set_option autoImplicit false

namespace ChipEight.TerminalEvent

/-- Leaves out the parameters of an escape sequence and the byte that ends it. -/
def afterSequence : List UInt8 → List UInt8
  | [] => []
  | byte :: rest => if byte < 0x40 then afterSequence rest else rest

theorem length_afterSequence (bytes : List UInt8) :
    (afterSequence bytes).length ≤ bytes.length := by
  induction bytes with
  | nil => simp [afterSequence]
  | cons byte rest ih =>
    unfold afterSequence
    split
    · exact Nat.le_succ_of_le ih
    · exact Nat.le_succ rest.length

/-- The events that bytes from a terminal tell of. Bytes of a character beyond ASCII
tell of keys that no layout knows. -/
def ofBytes : List UInt8 → List TerminalEvent
  | [] => []
  | 0x1b :: 0x5b :: rest =>
    have := length_afterSequence rest
    .other :: ofBytes (afterSequence rest)
  | 0x1b :: 0x4f :: rest =>
    have := length_afterSequence rest
    .other :: ofBytes (afterSequence rest)
  | [0x1b] => [.escape]
  | 0x1b :: byte :: rest => ofTyped (Char.ofNat byte.toNat) :: ofBytes rest
  | byte :: rest =>
    (if byte < 0x80 then ofTyped (Char.ofNat byte.toNat) else .other) :: ofBytes rest
termination_by bytes => bytes.length
decreasing_by all_goals simp; try omega

end ChipEight.TerminalEvent
