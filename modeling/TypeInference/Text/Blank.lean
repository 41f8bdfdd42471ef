import TypeInference.Text.CharacterRange

/-!
# Blanks

The characters with the property White_Space, and the text between the blanks
around it.
-/

namespace TypeInference

namespace Text

/-- The code points with the property White_Space. -/
def blankRanges : List CharacterRange :=
  [⟨0x9, 0xd⟩, ⟨0x20, 0x20⟩, ⟨0x85, 0x85⟩, ⟨0xa0, 0xa0⟩, ⟨0x1680, 0x1680⟩, ⟨0x2000, 0x200a⟩,
    ⟨0x2028, 0x2029⟩, ⟨0x202f, 0x202f⟩, ⟨0x205f, 0x205f⟩, ⟨0x3000, 0x3000⟩]

def isBlank (character : Char) : Bool :=
  CharacterRange.anyContains blankRanges character.toNat

/-- A text without the blanks at both of its ends. -/
def trim (text : String) : String :=
  let front := text.toList.dropWhile isBlank
  String.ofList (front.reverse.dropWhile isBlank).reverse

end Text

end TypeInference
