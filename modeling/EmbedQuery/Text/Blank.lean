import EmbedQuery.Text.Ranges

/-!
# Blanks

The characters with the Unicode property White_Space. They separate tokens and mean nothing else.
The zero-width space U+200B and the byte order mark U+FEFF are not among them.
-/

namespace EmbedQuery.Text

/-- The code points of blanks. -/
def blankRanges : Ranges := [
  (0x09, 0x0D), (0x20, 0x20), (0x85, 0x85), (0xA0, 0xA0), (0x1680, 0x1680), (0x2000, 0x200A),
  (0x2028, 0x2029), (0x202F, 0x202F), (0x205F, 0x205F), (0x3000, 0x3000)
]

/-- Blanks separate tokens. -/
def isBlank (c : Char) : Bool := covers blankRanges c.toNat

end EmbedQuery.Text
