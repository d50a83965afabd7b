/-!
# Numbers that are not finite

The compiler prints a constant such as a division by zero as the bare word `Infinity` or `NaN`,
which JSON does not know.  Before a line is read, such words become `0.0`.  A word is a longest
stretch of ASCII letters, digits and underscores; words inside strings stay.  The line is read
once, left to right.
-/

namespace PawnQuery.Report

def isWordChar (c : Char) : Bool :=
  ('a' ≤ c && c ≤ 'z') || ('A' ≤ c && c ≤ 'Z') || ('0' ≤ c && c ≤ '9') || c == '_'

def nonFiniteWords : List (List Char) := ["Infinity".toList, "NaN".toList]

def finiteWord : List Char := "0.0".toList

inductive Zone where
  /-- Outside of strings, with the word under way, its latest character first. -/
  | outside (word : List Char)
  | inside
  | escaped
deriving DecidableEq, Repr

structure Rewriting where
  /-- What was written, the latest character first. -/
  output : List Char := []
  zone : Zone := .outside []
deriving DecidableEq, Repr

namespace Rewriting

/-- What a finished word becomes; the word and the answer have their latest character first. -/
def settleWord (word : List Char) : List Char :=
  if nonFiniteWords.contains word.reverse then finiteWord.reverse else word

def push (r : Rewriting) (c : Char) : Rewriting :=
  match r.zone with
  | .outside word =>
    if isWordChar c then ⟨r.output, .outside (c :: word)⟩
    else
      let output := c :: (settleWord word ++ r.output)
      if c = '"' then ⟨output, .inside⟩ else ⟨output, .outside []⟩
  | .inside =>
    let output := c :: r.output
    if c = '\\' then ⟨output, .escaped⟩
    else if c = '"' then ⟨output, .outside []⟩
    else ⟨output, .inside⟩
  | .escaped => ⟨c :: r.output, .inside⟩

def finish (r : Rewriting) : List Char :=
  match r.zone with
  | .outside word => (settleWord word ++ r.output).reverse
  | _ => r.output.reverse

end Rewriting

/-- The line with every bare word for a number that is not finite written as zero. -/
def normalizeNonFinite (line : List Char) : List Char :=
  (line.foldl Rewriting.push {}).finish

@[simp] theorem normalizeNonFinite_nil : normalizeNonFinite [] = [] := rfl

end PawnQuery.Report
