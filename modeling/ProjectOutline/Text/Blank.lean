/-!
White space as Unicode's `White_Space` property defines it, and trimming of text by it. Zero width
space, the byte order mark and the information separators are not in the property, so trimming keeps
them.
-/

namespace ProjectOutline.Text

/-- The characters of the `White_Space` property. -/
def isBlank (c : Char) : Bool :=
  let n := c.toNat
  (9 ≤ n && n ≤ 13) || n == 0x20 || n == 0x85 || n == 0xA0 || n == 0x1680 ||
    (0x2000 ≤ n && n ≤ 0x200A) || n == 0x2028 || n == 0x2029 || n == 0x202F || n == 0x205F ||
    n == 0x3000

/-- Drops the longest suffix whose members satisfy `p`. -/
def dropTail {α : Type} (p : α → Bool) (xs : List α) : List α :=
  (xs.reverse.dropWhile p).reverse

/-- A list of characters without the blanks at its two ends. -/
def trimChars (cs : List Char) : List Char :=
  dropTail isBlank (cs.dropWhile isBlank)

/-- A text without the blanks at its two ends. -/
def trim (s : String) : String :=
  String.ofList (trimChars s.toList)

def trimTail (c : Char) (s : String) : String :=
  String.ofList (dropTail (· == c) s.toList)

@[simp]
theorem dropTail_nil {α : Type} (p : α → Bool) : dropTail p [] = [] := rfl

@[simp]
theorem trim_empty : trim "" = "" := rfl

end ProjectOutline.Text
