/-!
# Blanks

The White_Space property of Unicode, and texts trimmed by it.
-/

namespace SqlTree.Text

/-- The characters with the White_Space property. -/
def isBlank (c : Char) : Bool :=
  let n := c.toNat
  (9 ≤ n && n ≤ 13) || n == 0x20 || n == 0x85 || n == 0xA0 || n == 0x1680 ||
    (0x2000 ≤ n && n ≤ 0x200A) || n == 0x2028 || n == 0x2029 || n == 0x202F || n == 0x205F ||
    n == 0x3000

def trimLeft (cs : List Char) : List Char := cs.dropWhile isBlank

def trimRight (cs : List Char) : List Char := (trimLeft cs.reverse).reverse

def trimChars (cs : List Char) : List Char := trimRight (trimLeft cs)

/-- The text without the blanks at its two ends. -/
def trim (s : String) : String := .ofList (trimChars s.toList)

@[simp] theorem trimLeft_nil : trimLeft [] = [] := rfl

@[simp] theorem trimChars_nil : trimChars [] = [] := rfl

end SqlTree.Text
