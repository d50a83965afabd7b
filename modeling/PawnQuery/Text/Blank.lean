/-!
# Blank text

The characters that carry the Unicode property `White_Space`, and lines made of nothing else.
A report line that is blank holds no record.
-/

namespace PawnQuery.Text

/-- The character has the Unicode property `White_Space`. -/
def isBlank (c : Char) : Bool :=
  let n := c.toNat
  (0x09 ≤ n && n ≤ 0x0D) || n == 0x20 || n == 0x85 || n == 0xA0 || n == 0x1680 ||
  (0x2000 ≤ n && n ≤ 0x200A) || n == 0x2028 || n == 0x2029 || n == 0x202F || n == 0x205F ||
  n == 0x3000

def allBlank (line : List Char) : Bool :=
  line.all isBlank

@[simp] theorem allBlank_nil : allBlank [] = true := rfl

@[simp] theorem allBlank_cons (c : Char) (line : List Char) :
    allBlank (c :: line) = (isBlank c && allBlank line) := rfl

end PawnQuery.Text
