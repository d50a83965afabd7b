import Mathlib.Data.List.Induction
import PawnQuery.Proofs.Report.NonFinite

/-!
# The pieces of a line

Any text, a JSON text or not, falls into string literals, longest words and single marks.  A literal
that is not closed goes on to the end.  Mending replaces the words for numbers that are not finite
and leaves every other piece as it is.
-/

namespace PawnQuery.Report

/-! ## Pieces -/

/-- What stands behind the quote that opens a literal, up to a quote that is not escaped.  A cut
literal ends in a backslash that escapes nothing. -/
inductive Inside : (cut : Bool) → List Char → Prop where
  | empty : Inside false []
  | cut : Inside true ['\\']
  | plain {c : Char} (quote : c ≠ '"') (backslash : c ≠ '\\') {isCut : Bool} {body : List Char}
      (more : Inside isCut body) : Inside isCut (c :: body)
  | escape {c : Char} {isCut : Bool} {body : List Char} (more : Inside isCut body) :
      Inside isCut ('\\' :: c :: body)

inductive Piece where
  | literal (text : List Char)
  | word (letters : List Char)
  | mark (c : Char)
deriving DecidableEq, Repr

namespace Piece

def text : Piece → List Char
  | .literal text => text
  | .word letters => letters
  | .mark c => [c]

/-- The text of the piece when the line is mended. -/
def mended : Piece → List Char
  | .word letters => if letters ∈ nonFiniteWords then finiteWord else letters
  | piece => piece.text

end Piece

inductive Splits : List Char → List Piece → Prop where
  | nil : Splits [] []
  | closed {body rest : List Char} {pieces : List Piece} (inside : Inside false body)
      (others : Splits rest pieces) :
      Splits ('"' :: (body ++ '"' :: rest)) (.literal ('"' :: (body ++ ['"'])) :: pieces)
  | unclosed {isCut : Bool} {body : List Char} (inside : Inside isCut body) :
      Splits ('"' :: body) [.literal ('"' :: body)]
  | word {word rest : List Char} {pieces : List Piece} (nonempty : word ≠ [])
      (isWord : ∀ c ∈ word, isWordChar c = true) (ends : EndsWord rest)
      (others : Splits rest pieces) : Splits (word ++ rest) (.word word :: pieces)
  | mark {c : Char} {rest : List Char} {pieces : List Piece} (mark : isWordChar c = false)
      (quote : c ≠ '"') (others : Splits rest pieces) : Splits (c :: rest) (.mark c :: pieces)

/-! ## Every text falls into pieces -/

/-- What follows the quote that opens a literal: the literal is closed, or the text ends in it. -/
inductive Opened : List Char → Prop where
  | closed {body : List Char} (rest : List Char) (inside : Inside false body) :
      Opened (body ++ '"' :: rest)
  | unclosed {isCut : Bool} {body : List Char} (inside : Inside isCut body) : Opened body

namespace Opened

theorem append (first : List Char) {text : List Char}
    (grow : ∀ {isCut body}, Inside isCut body → Inside isCut (first ++ body))
    (opened : Opened text) : Opened (first ++ text) := by
  cases opened with
  | closed rest inside =>
    rw [← List.append_assoc]
    exact .closed rest (grow inside)
  | unclosed inside => exact .unclosed (grow inside)

theorem cons {c : Char} (backslash : c ≠ '\\') {text : List Char} (opened : Opened text) :
    Opened (c :: text) := by
  by_cases quote : c = '"'
  · exact quote ▸ .closed text .empty
  · exact append [c] (.plain quote backslash) opened

end Opened

theorem opened (text : List Char) : Opened text := by
  induction text using List.twoStepInduction with
  | nil => exact .unclosed .empty
  | singleton c =>
    by_cases backslash : c = '\\'
    · exact backslash ▸ .unclosed .cut
    · exact .cons backslash (.unclosed .empty)
  | cons_cons c d text behindBoth behindOne =>
    by_cases backslash : c = '\\'
    · exact backslash ▸ .append ['\\', d] .escape behindBoth
    · exact .cons backslash (behindOne d)

theorem endsWord_dropWhile (text : List Char) : EndsWord (text.dropWhile isWordChar) := by
  intro c head
  have := List.head?_dropWhile_not isWordChar text
  simp_all

theorem exists_splits (text : List Char) : ∃ pieces, Splits text pieces := by
  induction size : text.length using Nat.strongRecOn generalizing text with
  | ind size inductionHypothesis =>
    subst size
    cases text with
    | nil => exact ⟨[], .nil⟩
    | cons c text =>
      by_cases quote : c = '"'
      · subst quote
        cases opened text with
        | closed rest inside =>
          obtain ⟨pieces, others⟩ := inductionHypothesis _ (by simp; omega) rest rfl
          exact ⟨_, .closed inside others⟩
        | unclosed inside => exact ⟨_, .unclosed inside⟩
      cases first : isWordChar c with
      | false =>
        obtain ⟨pieces, others⟩ := inductionHypothesis _ (by simp) text rfl
        exact ⟨_, .mark first quote others⟩
      | true =>
        have shorter : (text.dropWhile isWordChar).length < (c :: text).length :=
          Nat.lt_succ_of_le (List.dropWhile_suffix _).length_le
        obtain ⟨pieces, others⟩ := inductionHypothesis _ shorter _ rfl
        have letters : ∀ d ∈ c :: text.takeWhile isWordChar, isWordChar d = true :=
          List.forall_mem_cons.mpr ⟨first, List.all_eq_true.mp List.all_takeWhile⟩
        have splits :=
          Splits.word (List.cons_ne_nil _ _) letters (endsWord_dropWhile text) others
        rw [List.cons_append, List.takeWhile_append_dropWhile] at splits
        exact ⟨_, splits⟩

/-! ## Mending piece by piece -/

/-- Within a literal everything stays. -/
theorem rewriteFrom_literal {body : List Char} (inside : Inside false body) (rest : List Char) :
    rewriteFrom .inside (body ++ '"' :: rest) = body ++ '"' :: normalizeNonFinite rest := by
  generalize cut : false = isCut at inside
  induction inside with
  | empty => rw [List.nil_append, rewriteFrom_inside]; rfl
  | cut => cases cut
  | plain quote backslash _ inductionHypothesis =>
    rw [List.cons_append, rewriteFrom_inside_of_ne quote backslash, inductionHypothesis cut]
    rfl
  | escape _ inductionHypothesis =>
    rw [List.cons_append, List.cons_append, rewriteFrom_escape, inductionHypothesis cut]
    rfl

theorem rewriteFrom_unclosed {isCut : Bool} {body : List Char} (inside : Inside isCut body) :
    rewriteFrom .inside body = body := by
  induction inside with
  | empty | cut => rfl
  | plain quote backslash _ inductionHypothesis =>
    rw [rewriteFrom_inside_of_ne quote backslash, inductionHypothesis]
  | escape _ inductionHypothesis => rw [rewriteFrom_escape, inductionHypothesis]

theorem normalizeNonFinite_quote (text : List Char) :
    normalizeNonFinite ('"' :: text) = '"' :: rewriteFrom .inside text := by
  rw [normalizeNonFinite_eq, rewriteFrom_outside]
  rfl

theorem normalizeNonFinite_letters {letters rest : List Char}
    (areLetters : ∀ c ∈ letters, isWordChar c = true) (ends : EndsWord rest) :
    normalizeNonFinite (letters ++ rest) =
      (Piece.word letters).mended ++ normalizeNonFinite rest := by
  rw [normalizeNonFinite_eq (letters ++ rest), rewriteFrom_word areLetters ends, List.append_nil,
    Rewriting.settleWord, List.reverse_reverse]
  by_cases listed : letters ∈ nonFiniteWords <;> simp [Piece.mended, listed]

/-- A line is mended by mending its words. -/
theorem Splits.mends {text : List Char} {pieces : List Piece} (splits : Splits text pieces) :
    text = pieces.flatMap Piece.text ∧
      normalizeNonFinite text = pieces.flatMap Piece.mended := by
  induction splits with
  | nil => exact ⟨rfl, rfl⟩
  | closed inside _ inductionHypothesis =>
    obtain ⟨sameText, mended⟩ := inductionHypothesis
    rw [normalizeNonFinite_quote, rewriteFrom_literal inside, mended]
    simp [Piece.text, Piece.mended, ← sameText]
  | unclosed inside =>
    rw [normalizeNonFinite_quote, rewriteFrom_unclosed inside]
    simp [Piece.text, Piece.mended]
  | word _ isWord ends _ inductionHypothesis =>
    obtain ⟨sameText, mended⟩ := inductionHypothesis
    rw [normalizeNonFinite_letters isWord ends, mended]
    simp [Piece.text, ← sameText]
  | mark mark quote _ inductionHypothesis =>
    obtain ⟨sameText, mended⟩ := inductionHypothesis
    rw [normalizeNonFinite_mark mark quote, mended]
    simp [Piece.text, Piece.mended, ← sameText]

/-! ## Mending twice -/

theorem endsWord_normalizeNonFinite {rest : List Char} (ends : EndsWord rest) :
    EndsWord (normalizeNonFinite rest) := by
  cases rest with
  | nil => exact ends
  | cons c rest =>
    have mark : isWordChar c = false := ends c rfl
    rw [normalizeNonFinite_eq, rewriteFrom_outside, mark]
    exact ends

/-- What was mended needs no mending. -/
theorem normalizeNonFinite_idempotent (text : List Char) :
    normalizeNonFinite (normalizeNonFinite text) = normalizeNonFinite text := by
  obtain ⟨pieces, splits⟩ := exists_splits text
  induction splits with
  | nil => rfl
  | closed inside _ inductionHypothesis =>
    rw [normalizeNonFinite_quote, rewriteFrom_literal inside, normalizeNonFinite_quote,
      rewriteFrom_literal inside, inductionHypothesis]
  | unclosed inside =>
    rw [normalizeNonFinite_quote, rewriteFrom_unclosed inside, normalizeNonFinite_quote,
      rewriteFrom_unclosed inside]
  | @word letters rest _ _ isWord ends _ inductionHypothesis =>
    have endsMended := endsWord_normalizeNonFinite ends
    rw [normalizeNonFinite_letters isWord ends]
    by_cases listed : letters ∈ nonFiniteWords
    · have plain : ∀ c ∈ finiteWord, IsPlain c := isPlain_of_all (by decide)
      simp only [Piece.mended, if_pos listed]
      rw [normalizeNonFinite_plain plain endsMended, inductionHypothesis]
    · have kept : (Piece.word letters).mended = letters := if_neg listed
      rw [kept, normalizeNonFinite_letters isWord endsMended, kept, inductionHypothesis]
  | mark mark quote _ inductionHypothesis =>
    rw [normalizeNonFinite_mark mark quote, normalizeNonFinite_mark mark quote,
      inductionHypothesis]

end PawnQuery.Report
