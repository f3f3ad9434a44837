/-!
# Font

The glyphs of the sixteen hexadecimal digits, four pixels wide and five high, as
sprites one after the other.
-/

set_option autoImplicit false

namespace ChipEight.Font

def glyphHeight : Nat := 5

def address : UInt16 := 0x0000

/-- The glyphs of the digits 0 to F in order. -/
def glyphs : List UInt8 :=
  [0xf0, 0x90, 0x90, 0x90, 0xf0,
   0x20, 0x60, 0x20, 0x20, 0x70,
   0xf0, 0x10, 0xf0, 0x80, 0xf0,
   0xf0, 0x10, 0xf0, 0x10, 0xf0,
   0x90, 0x90, 0xf0, 0x10, 0x10,
   0xf0, 0x80, 0xf0, 0x10, 0xf0,
   0xf0, 0x80, 0xf0, 0x90, 0xf0,
   0xf0, 0x10, 0x20, 0x40, 0x40,
   0xf0, 0x90, 0xf0, 0x90, 0xf0,
   0xf0, 0x90, 0xf0, 0x10, 0xf0,
   0xf0, 0x90, 0xf0, 0x90, 0x90,
   0xe0, 0x90, 0xe0, 0x90, 0xe0,
   0xf0, 0x80, 0x80, 0x80, 0xf0,
   0xe0, 0x90, 0x90, 0x90, 0xe0,
   0xf0, 0x80, 0xf0, 0x80, 0xf0,
   0xf0, 0x80, 0xf0, 0x80, 0x80]

theorem length_glyphs : glyphs.length = 16 * glyphHeight := rfl

end ChipEight.Font
