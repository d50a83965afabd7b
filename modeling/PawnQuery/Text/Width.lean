import PawnQuery.Text.Property.Printable
import PawnQuery.Text.Property.Wide

/-!
# Width of texts

How many columns a text takes on a terminal.  Sequences that control the terminal take none, nor do
controls and marks that join the character before them; ideographs and pictures take two.
-/

namespace PawnQuery.Text

/-! ## Characters -/

/-- Marks in front of numbers that take no column although they join nothing. -/
def uncountedMarks : List Nat := [0x605, 0x70F, 0x890, 0x891, 0x8E2, 0xA8FA]

def leadingFiller : Nat := 0x115F

/-- A vowel or final consonant that completes the syllable before it. -/
def completesSyllable (n : Nat) : Bool :=
  (0x1160 ≤ n && n ≤ 0x11FF) || (0xD7B0 ≤ n && n ≤ 0xD7C6) || (0xD7CB ≤ n && n ≤ 0xD7FB)

def charWidth (c : Char) : Nat :=
  let n := c.toNat
  if 0x20 ≤ n ∧ n < 0x7F then 1
  else if n < 0xA0 then 0
  else if n = leadingFiller then 2
  else if completesSyllable n || uncountedMarks.contains n then 0
  else if defaultIgnorable.contains c || graphemeExtend.contains c then 0
  else if wide.contains c then 2
  else 1

/-! ## Control sequences -/

/-- The text behind an operating system command, which ends with a bell or with an escape and a
backslash. -/
def afterCommand (last : Char) : List Char → List Char
  | [] => []
  | c :: rest =>
    if c = '\x07' ∨ (c = '\\' ∧ last = '\x1b') then rest else afterCommand c rest

def endsSequence (c : Char) : Bool := 0x40 ≤ c.toNat && c.toNat ≤ 0x7E

def afterEscape : List Char → List Char
  | [] => []
  | '[' :: rest => (rest.dropWhile fun c => !endsSequence c).drop 1
  | ']' :: rest => afterCommand ']' rest
  | _ :: rest => rest

theorem length_afterCommand_le (last : Char) (text : List Char) :
    (afterCommand last text).length ≤ text.length := by
  induction text generalizing last with
  | nil => simp [afterCommand]
  | cons c rest ih =>
    unfold afterCommand
    split
    · simp
    · exact Nat.le_succ_of_le (ih c)

theorem length_afterEscape_le (text : List Char) : (afterEscape text).length ≤ text.length := by
  unfold afterEscape
  split
  · simp
  · next rest =>
    simp only [List.length_drop, List.length_cons]
    have := (List.dropWhile_sublist (fun c => !endsSequence c) (l := rest)).length_le
    omega
  · next rest => exact Nat.le_succ_of_le (length_afterCommand_le ']' rest)
  · simp

inductive Glyph where
  | shown (c : Char)
  | control (sequence : List Char)
deriving DecidableEq, Repr, Inhabited

def glyphs : List Char → List Glyph
  | [] => []
  | c :: rest =>
    if c = '\x1b' then
      let after := afterEscape rest
      .control (c :: rest.take (rest.length - after.length)) :: glyphs after
    else .shown c :: glyphs rest
termination_by text => text.length
decreasing_by
  · have := length_afterEscape_le rest
    simp only [List.length_cons]
    omega
  · simp

namespace Glyph

def shown? : Glyph → Option Char
  | .shown c => some c
  | .control _ => none

def width : Glyph → Nat
  | .shown c => charWidth c
  | .control _ => 0

end Glyph

def displayWidth (text : List Char) : Nat := (glyphs text).foldl (fun total g => total + g.width) 0

@[simp] theorem displayWidth_nil : displayWidth [] = 0 := by simp [displayWidth, glyphs]

end PawnQuery.Text
