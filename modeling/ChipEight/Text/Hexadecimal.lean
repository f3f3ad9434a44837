/-!
# Hexadecimal text

Numbers written with a fixed count of hexadecimal digits. A number below
`16 ^ width` is written in full; of a larger one only the low digits are kept.
-/

set_option autoImplicit false

namespace ChipEight.Text

def lastDigit (number : Nat) : Fin 16 := ⟨number % 16, Nat.mod_lt number (by decide)⟩

def lowerHexDigit (value : Fin 16) : Char :=
  if value.val < 10 then Char.ofNat ('0'.toNat + value.val)
  else Char.ofNat ('a'.toNat + (value.val - 10))

def upperHexDigit (value : Fin 16) : Char :=
  if value.val < 10 then Char.ofNat ('0'.toNat + value.val)
  else Char.ofNat ('A'.toNat + (value.val - 10))

/-- The low `width` digits of a number, most significant first. -/
def hexDigits : (width number : Nat) → List Char
  | 0, _ => []
  | width + 1, number => hexDigits width (number / 16) ++ [lowerHexDigit (lastDigit number)]

/-- A number after `0x`, padded with zeros to `width` digits. -/
def hexLiteral (width number : Nat) : String :=
  String.ofList ('0' :: 'x' :: hexDigits width number)

/-- The value of a digit of either case. -/
def hexValue? (digit : Char) : Option (Fin 16) :=
  (List.finRange 16).find? fun value =>
    lowerHexDigit value == digit || upperHexDigit value == digit

/-- Reads digits as one number, most significant first; `none` at any other character. -/
def hexNumber? (digits : List Char) : Option Nat :=
  digits.foldlM (fun number digit => (hexValue? digit).map (number * 16 + ·.val)) 0

end ChipEight.Text
