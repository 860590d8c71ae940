/-!
Blank characters (the Unicode White_Space property) and trimming them from both ends of a text.
-/

namespace SoftConfirm.Text

-- Membership in White_Space. The zero-width space and the byte-order mark are not in it.
def isBlank (c : Char) : Bool :=
  let n := c.toNat
  (0x09 ≤ n && n ≤ 0x0D) || n == 0x20 || n == 0x85 || n == 0xA0 || n == 0x1680 ||
    (0x2000 ≤ n && n ≤ 0x200A) || n == 0x2028 || n == 0x2029 || n == 0x202F || n == 0x205F ||
    n == 0x3000

def trimChars (cs : List Char) : List Char :=
  ((cs.dropWhile isBlank).reverse.dropWhile isBlank).reverse

-- The text without the blank characters at its two ends.
def trim (s : String) : String := String.ofList (trimChars s.toList)

theorem toList_trim (s : String) : (trim s).toList = trimChars s.toList := by
  simp [trim]

end SoftConfirm.Text
