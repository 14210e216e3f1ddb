/-!
# Blank characters and trimming

A character is blank when the Unicode property `White_Space` holds of it.  Trimming removes the
blank characters at both ends of a text and nothing between them.
-/

namespace SigmaCatalog.Text

/-- The characters with the Unicode property `White_Space`. -/
def isBlank (c : Char) : Bool :=
  let n := c.toNat
  (9 ≤ n && n ≤ 13) || n == 0x20 || n == 0x85 || n == 0xA0 || n == 0x1680 ||
    (0x2000 ≤ n && n ≤ 0x200A) || n == 0x2028 || n == 0x2029 || n == 0x202F ||
    n == 0x205F || n == 0x3000

def trimStart (text : List Char) : List Char :=
  text.dropWhile isBlank

/-- The text without the blank characters at either end. -/
def trimChars (text : List Char) : List Char :=
  (trimStart (trimStart text).reverse).reverse

def trim (text : String) : String :=
  String.ofList (trimChars text.toList)

def isBlankText (text : String) : Bool :=
  text.toList.all isBlank

end SigmaCatalog.Text
