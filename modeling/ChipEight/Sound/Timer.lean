/-!
# Sound timer

An eight-bit count of how many sixtieths of a second are still to be heard. The
machine sets it and the audio side counts it down; both hold a handle to the same
counter. A counter made on its own is reached by its own handle only.
-/

set_option autoImplicit false

namespace ChipEight

structure SoundTimer where
  value : UInt8
deriving DecidableEq, Repr

namespace SoundTimer

def silent : SoundTimer := ⟨0⟩

def decrement (timer : SoundTimer) : SoundTimer :=
  if timer.value = 0 then timer else ⟨timer.value - 1⟩

theorem toNat_decrement (timer : SoundTimer) :
    timer.decrement.value.toNat = timer.value.toNat - 1 := by
  unfold decrement
  split
  case isTrue zero => rw [zero]; rfl
  case isFalse running =>
      have positive : 0 < timer.value.toNat :=
        Nat.pos_of_ne_zero fun zero => running (UInt8.toNat_inj.mp zero)
      exact UInt8.toNat_sub_of_le timer.value 1 (UInt8.le_iff_toNat_le.mpr positive)

/-- Names one counter among several. Copies of a handle name the same counter. -/
structure Handle where
  index : Nat
deriving DecidableEq, Repr

/-- All counters made so far, the oldest first. -/
structure Counters where
  timers : List SoundTimer := []
deriving DecidableEq, Repr

namespace Counters

def create (counters : Counters) : Handle × Counters :=
  (⟨counters.timers.length⟩, ⟨counters.timers ++ [silent]⟩)

def timer (counters : Counters) (handle : Handle) : SoundTimer :=
  counters.timers.getD handle.index silent

def put (counters : Counters) (handle : Handle) (timer : SoundTimer) : Counters :=
  ⟨counters.timers.set handle.index timer⟩

/-- Counts the counter of a handle down by one and tells what it holds then. Reading
and storing are one action. -/
def decrement (counters : Counters) (handle : Handle) : UInt8 × Counters :=
  let lowered := (counters.timer handle).decrement
  (lowered.value, counters.put handle lowered)

end Counters

end SoundTimer

end ChipEight
