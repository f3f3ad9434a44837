/-!
# Keyboard layouts

Which character of a keyboard stands for which key of the hexadecimal keypad. Upper
and lower case letters stand for the same key.
-/

set_option autoImplicit false

namespace ChipEight

/-- Characters in lower case, each with its key. -/
structure KeyLayout where
  entries : List (Char × Fin 16)
deriving DecidableEq, Repr

namespace KeyLayout

/-- The layout with the given characters at the keys 0 to F in order. -/
def ofCharacters (characters : List Char) : KeyLayout :=
  ⟨characters.zip (List.finRange 16)⟩

/-- Every key at its own hexadecimal digit. -/
def literal : KeyLayout :=
  ofCharacters
    ['0', '1', '2', '3', '4', '5', '6', '7', '8', '9', 'a', 'b', 'c', 'd', 'e', 'f']

/-- The left side of a keyboard in the shape of the keypad:

    1 2 3 4      1 2 3 C
    q w e r  for 4 5 6 D
    a s d f      7 8 9 E
    z x c v      A 0 B F
-/
def conventional : KeyLayout :=
  ofCharacters
    ['x', '1', '2', '3', 'q', 'w', 'e', 'a', 's', 'd', 'z', 'c', '4', 'r', 'f', 'v']

/-- The key that a character stands for. Only the letters A to Z have a lower case here. -/
def key? (layout : KeyLayout) (character : Char) : Option (Fin 16) :=
  layout.entries.lookup character.toLower

end KeyLayout

end ChipEight
