import ChipEight.Proofs.Screen.Counting
import Mathlib.Algebra.Group.Nat.Defs
import Mathlib.Data.Nat.BinaryRec

/-!
# Packed pictures

Eight pixels in a row share a byte, the leftmost as its most significant bit. So every bit of a
packed picture is a pixel, and the picture can be got back from its bytes.
-/

set_option autoImplicit false

namespace ChipEight.Screen

/-! ## Bits of a byte -/

theorem testBit_zero_double_add (value : Nat) (bit : Bool) :
    (2 * value + bit.toNat).testBit 0 = bit := by
  rw [← Nat.bit_val, Nat.testBit_bit_zero]

theorem testBit_succ_double_add (value : Nat) (bit : Bool) (place : Nat) :
    (2 * value + bit.toNat).testBit (place + 1) = value.testBit place := by
  rw [← Nat.bit_val, Nat.testBit_add_one, Nat.bit_div_two]

/-- A number written bit by bit from the left has these bits and no other. -/
theorem foldl_bits (bit : Nat → Bool) (width : Nat) :
    let value := (List.range width).foldl (fun value place => 2 * value + (bit place).toNat) 0
    value < 2 ^ width ∧ ∀ place < width, value.testBit (width - 1 - place) = bit place := by
  induction width with
  | zero => exact ⟨Nat.one_pos, nofun⟩
  | succ width ih =>
      obtain ⟨small, bits⟩ := ih
      have last := (bit width).toNat_le
      rw [List.range_succ, List.foldl_append, List.foldl_cons, List.foldl_nil]
      refine ⟨by rw [Nat.pow_succ]; omega, fun place inside => ?_⟩
      -- The bit written last is the lowest, and the earlier ones have moved up by one.
      rcases Nat.eq_or_lt_of_le (Nat.le_of_lt_succ inside) with rfl | before
      · rw [Nat.add_sub_cancel, Nat.sub_self, testBit_zero_double_add]
      · have left : width + 1 - 1 - place = width - 1 - place + 1 := by omega
        rw [left, testBit_succ_double_add, bits place before]

theorem eq_of_testBit_eq {first second : UInt8}
    (same : ∀ place < 8, first.toNat.testBit (7 - place) = second.toNat.testBit (7 - place)) :
    first = second := by
  apply UInt8.toNat_inj.mp
  apply Nat.eq_of_testBit_eq
  intro place
  rcases Nat.lt_or_ge place 8 with inside | past
  · have mirrored := same (7 - place) (by omega)
    rwa [Nat.sub_sub_self (Nat.le_of_lt_succ inside)] at mirrored
  -- A byte has no bit past its eighth.
  · have width : 2 ^ 8 ≤ 2 ^ place := Nat.pow_le_pow_right (by decide) past
    have beyond : ∀ byte : UInt8, byte.toNat.testBit place = false := fun byte =>
      Nat.testBit_lt_two_pow (Nat.lt_of_lt_of_le byte.toNat_lt width)
    rw [beyond first, beyond second]

theorem countP_testBit_mirrored (byte : UInt8) :
    ((List.range 8).countP fun place => byte.toNat.testBit (7 - place)) =
      (List.range 8).countP fun place => byte.toNat.testBit place := by
  have mirrored : ((List.range 8).map (7 - ·)).Perm (List.range 8) := by decide
  rw [← mirrored.countP_eq, List.countP_map]
  rfl

/-! ## Bytes of a picture -/

theorem testBit_packedByte (screen : Screen) (x y : Nat) {column : Nat} (inside : column < 8) :
    (screen.packedByte x y).toNat.testBit (7 - column) = screen.get (x + column) y := by
  obtain ⟨small, bits⟩ := foldl_bits (fun column => screen.get (x + column) y) 8
  rw [packedByte, UInt8.toNat_ofNat_of_lt' small]
  exact bits column inside

theorem packed_eq (screen : Screen) :
    screen.packed = (List.range 256).map fun place =>
      screen.packedByte (8 * (place % 8)) (place / 8) :=
  flatMap_range_rows (fun y place => screen.packedByte (8 * place) y) (by decide) 32

theorem length_packed (screen : Screen) : screen.packed.length = 256 := by
  rw [packed_eq, List.length_map, List.length_range]

/-- The bit of packed bytes that stands for a pixel, which is counted row after row; past the last
byte it is unset. -/
def packedBit (bytes : List UInt8) (position : Nat) : Bool :=
  (bytes.getD (position / 8) 0).toNat.testBit (7 - position % 8)

theorem packedBit_packed (screen : Screen) {x y : Nat} (inside : x < 64 ∧ y < 32) :
    packedBit screen.packed (y * 64 + x) = screen.get x y := by
  have within : (y * 64 + x) / 8 < 256 := by omega
  have column : 8 * ((y * 64 + x) / 8 % 8) + (y * 64 + x) % 8 = x := by omega
  have row : (y * 64 + x) / 8 / 8 = y := by omega
  rw [packedBit, packed_eq, List.getD_eq_getElem?_getD, List.getElem?_map,
    List.getElem?_range within, Option.map_some, Option.getD_some,
    testBit_packedByte _ _ _ (Nat.mod_lt _ (by decide)), column, row]

theorem packedBit_packed_of_lt (screen : Screen) {position : Nat} (inside : position < 2048) :
    packedBit screen.packed position = screen.get (position % 64) (position / 64) := by
  have shown : position % 64 < 64 ∧ position / 64 < 32 := by omega
  rw [← packedBit_packed screen shown, Nat.div_add_mod']

theorem get_ofPacked (bytes : List UInt8) {x y : Nat} (inside : x < 64 ∧ y < 32) :
    (ofPacked bytes).get x y = packedBit bytes (y * 64 + x) := by
  simp only [get, dif_pos inside, ofPacked, Vector.getElem_ofFn, packedBit]

theorem packedBit_replicate_zero (count position : Nat) :
    packedBit (List.replicate count 0) position = false := by
  have zero : (List.replicate count (0 : UInt8)).getD (position / 8) 0 = 0 := by
    rw [List.getD_eq_getElem?_getD, List.getElem?_replicate]
    split <;> rfl
  rw [packedBit, zero]
  exact Nat.zero_testBit _

/-- Equally many bytes with the same bits are the same bytes. -/
theorem eq_of_packedBit_eq {first second : List UInt8} (even : first.length = second.length)
    (same : ∀ position < 8 * first.length,
      packedBit first position = packedBit second position) :
    first = second := by
  apply List.ext_getElem even
  intro byte inFirst inSecond
  apply eq_of_testBit_eq
  intro place inside
  have here := same (8 * byte + place) (by omega)
  have quotient : (8 * byte + place) / 8 = byte := by omega
  have remainder : (8 * byte + place) % 8 = place := by omega
  simpa only [packedBit, quotient, remainder, List.getD_eq_getElem?_getD,
    List.getElem?_eq_getElem inFirst, List.getElem?_eq_getElem inSecond,
    Option.getD_some] using here

theorem ofPacked_packed (screen : Screen) : ofPacked screen.packed = screen := by
  apply eq_of_get_eq
  intro x right y low
  rw [get_ofPacked _ ⟨right, low⟩, packedBit_packed screen ⟨right, low⟩]

theorem packed_injective : Function.Injective packed :=
  Function.LeftInverse.injective ofPacked_packed

/-! ## Set bits of a picture -/

/-- How many bits of bytes are set. -/
def oneBits : List UInt8 → Nat
  | [] => 0
  | byte :: later =>
    ((List.range 8).countP fun place => byte.toNat.testBit place) + oneBits later

theorem countP_packedByte (screen : Screen) (x y : Nat) :
    ((List.range 8).countP fun bit => screen.get (x + bit) y) =
      (List.range 8).countP fun place => (screen.packedByte x y).toNat.testBit place := by
  rw [← countP_testBit_mirrored]
  apply List.countP_congr
  intro bit among
  rw [testBit_packedByte _ _ _ (List.mem_range.mp among)]

/-- The bytes at any places of the packed form have as many set bits as there are set pixels in
these places. -/
theorem countP_bytes (screen : Screen) (places : List Nat) :
    ((places.flatMap fun place => (List.range 8).map fun bit =>
        (8 * (place % 8) + bit, place / 8)).countP fun (x, y) => screen.get x y) =
      oneBits (places.map fun place => screen.packedByte (8 * (place % 8)) (place / 8)) := by
  induction places with
  | nil => rfl
  | cons place later ih =>
      rw [List.flatMap_cons, List.countP_append, ih, List.map_cons, oneBits, List.countP_map,
        ← countP_packedByte]
      rfl

theorem positions_of_bytes :
    positions = (List.range 256).flatMap fun place =>
      (List.range 8).map fun bit => (8 * (place % 8) + bit, place / 8) := by
  rw [positions_eq, flatMap_range_rows _ (by decide)]
  apply List.map_congr_left
  intro position _
  have column : 8 * (position / 8 % 8) + position % 8 = position % 64 := by omega
  have row : position / 8 / 8 = position / 64 := by omega
  rw [column, row]

theorem litCount_eq_oneBits (screen : Screen) : screen.litCount = oneBits screen.packed := by
  rw [litCount_eq, positions_of_bytes, countP_bytes, packed_eq]

end ChipEight.Screen
