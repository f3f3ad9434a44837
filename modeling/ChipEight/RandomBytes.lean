/-!
# Random bytes

An endless sequence of bytes with the count of those already drawn. Every draw
gives the next byte and moves on by one.
-/

set_option autoImplicit false

namespace ChipEight

/-- A sequence of bytes, `drawn` of which are used up. -/
structure RandomBytes where
  byte : Nat → UInt8
  drawn : Nat := 0

namespace RandomBytes

def next (source : RandomBytes) : UInt8 := source.byte source.drawn

def advance (source : RandomBytes) : RandomBytes := { source with drawn := source.drawn + 1 }

/-- The low bytes of a 64-bit counter that starts at `start` and grows by `increment`
at every draw. -/
def counter (start increment : UInt64) : RandomBytes where
  byte position := (start + UInt64.ofNat position * increment).toUInt8

/-- Spreads the bits of a 64-bit number over all of its bits. -/
def mix (value : UInt64) : UInt64 :=
  let value := (value ^^^ (value >>> 30)) * 0xbf58476d1ce4e5b9
  let value := (value ^^^ (value >>> 27)) * 0x94d049bb133111eb
  value ^^^ (value >>> 31)

/-- Bytes that look random, fixed by the seed: the mixed values of a counter. They stand in for
the generator that the command seeds, which gives other bytes for the same seed. -/
def ofSeed (seed : UInt64) : RandomBytes where
  byte position := (mix (seed + UInt64.ofNat (position + 1) * 0x9e3779b97f4a7c15)).toUInt8

end RandomBytes

end ChipEight
