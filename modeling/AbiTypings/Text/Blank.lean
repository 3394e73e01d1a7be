import AbiTypings.Text.Ranges

/-!
# Blank characters

The characters of the Unicode property `White_Space`, together with the four information
separators. A class name is cut at runs of them.
-/

namespace AbiTypings.Text

def blankRanges : Ranges :=
  [(0x9, 0xd), (0x1c, 0x20), (0x85, 0x85), (0xa0, 0xa0), (0x1680, 0x1680), (0x2000, 0x200a),
   (0x2028, 0x2029), (0x202f, 0x202f), (0x205f, 0x205f), (0x3000, 0x3000)]

def isBlank (c : Char) : Bool := blankRanges.has c

end AbiTypings.Text
