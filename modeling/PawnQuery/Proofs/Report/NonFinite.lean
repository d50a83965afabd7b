import PawnQuery.Proofs.Json.Skipping
import PawnQuery.Report.NonFinite

/-!
# Mending the numbers of a report

A line of a report is a JSON text but for the numbers that are not finite.  To mend it is to mend
the document that it spells: such a number becomes a zero with the same sign, and all else, blanks
and strings included, stays as it is.  The reader of a line does not know the grammar, so the proof
has to show that it always knows whether it is inside a string, and that no other word of a document
is taken for one of a number that is not finite.
-/

namespace PawnQuery.Report

open PawnQuery.Json

/-! ## What is left of a line -/

/-- What the rest of a line becomes when the reader has come to a zone. -/
def rewriteFrom (zone : Zone) (text : List Char) : List Char :=
  (text.foldl Rewriting.push ⟨[], zone⟩).finish

theorem normalizeNonFinite_eq (text : List Char) :
    normalizeNonFinite text = rewriteFrom (.outside []) text := rfl

namespace Rewriting

theorem push_onto (output base : List Char) (zone : Zone) (c : Char) :
    push ⟨output ++ base, zone⟩ c =
      ⟨(push ⟨output, zone⟩ c).output ++ base, (push ⟨output, zone⟩ c).zone⟩ := by
  cases zone with
  | outside word =>
    simp only [push]
    split
    · rfl
    · split <;> simp
  | inside =>
    simp only [push]
    split
    · rfl
    · split <;> rfl
  | escaped => rfl

theorem foldl_push_onto (text output base : List Char) (zone : Zone) :
    (text.foldl push ⟨output ++ base, zone⟩).finish =
      base.reverse ++ (text.foldl push ⟨output, zone⟩).finish := by
  induction text generalizing output zone with
  | nil => cases zone <;> simp [finish]
  | cons c text inductionHypothesis =>
    rw [List.foldl_cons, push_onto, inductionHypothesis]
    rfl

end Rewriting

theorem rewriteFrom_output (output text : List Char) (zone : Zone) :
    (text.foldl Rewriting.push ⟨output, zone⟩).finish = output.reverse ++ rewriteFrom zone text :=
  Rewriting.foldl_push_onto text [] output zone

/-- A word goes on, or it is settled by what follows it. -/
theorem rewriteFrom_outside (word text : List Char) (c : Char) :
    rewriteFrom (.outside word) (c :: text) =
      if isWordChar c then rewriteFrom (.outside (c :: word)) text
      else (Rewriting.settleWord word).reverse ++
        c :: rewriteFrom (if c = '"' then .inside else .outside []) text := by
  rw [rewriteFrom, List.foldl_cons]
  simp only [Rewriting.push]
  split
  · rfl
  · split <;> simp [rewriteFrom_output]

theorem rewriteFrom_inside (text : List Char) (c : Char) :
    rewriteFrom .inside (c :: text) =
      c :: rewriteFrom
        (if c = '\\' then .escaped else if c = '"' then .outside [] else .inside) text := by
  rw [rewriteFrom, List.foldl_cons]
  simp only [Rewriting.push]
  split
  · simp [rewriteFrom_output]
  · split <;> simp [rewriteFrom_output]

theorem rewriteFrom_escaped (text : List Char) (c : Char) :
    rewriteFrom .escaped (c :: text) = c :: rewriteFrom .inside text := by
  rw [rewriteFrom, List.foldl_cons]
  simp [Rewriting.push, rewriteFrom_output]

/-! ## Words and marks -/

/-- No word goes on into the rest of the line. -/
def EndsWord (rest : List Char) : Prop := ∀ c ∈ rest.head?, isWordChar c = false

theorem isWordChar_of_isSpace {c : Char} (space : isSpace c = true) : isWordChar c = false := by
  obtain rfl | rfl | rfl | rfl := isSpace_iff.mp space <;> decide

theorem endsWord_of_bounded {rest : List Char} (bounded : Bounded rest) : EndsWord rest := by
  intro c head
  obtain space | rfl | rfl | rfl := bounded c head
  · exact isWordChar_of_isSpace space
  all_goals decide

theorem rewriteFrom_of_endsWord (word : List Char) {rest : List Char} (ends : EndsWord rest) :
    rewriteFrom (.outside word) rest =
      (Rewriting.settleWord word).reverse ++ normalizeNonFinite rest := by
  cases rest with
  | nil => simp [rewriteFrom, Rewriting.finish]
  | cons c rest =>
    have mark : isWordChar c = false := ends c rfl
    rw [normalizeNonFinite_eq (c :: rest), rewriteFrom_outside, rewriteFrom_outside, mark]
    rfl

theorem rewriteFrom_word {word rest : List Char} (isWord : ∀ c ∈ word, isWordChar c = true)
    (ends : EndsWord rest) (before : List Char) :
    rewriteFrom (.outside before) (word ++ rest) =
      (Rewriting.settleWord (word.reverse ++ before)).reverse ++ normalizeNonFinite rest := by
  induction word generalizing before with
  | nil => exact rewriteFrom_of_endsWord before ends
  | cons c word inductionHypothesis =>
    have first : isWordChar c = true := isWord c List.mem_cons_self
    rw [List.cons_append, rewriteFrom_outside, if_pos first,
      inductionHypothesis fun d member => isWord d (List.mem_cons_of_mem c member)]
    simp

/-- A character that belongs to no word and begins no string stays. -/
theorem normalizeNonFinite_mark {c : Char} (mark : isWordChar c = false) (quote : c ≠ '"')
    (rest : List Char) : normalizeNonFinite (c :: rest) = c :: normalizeNonFinite rest := by
  rw [normalizeNonFinite_eq (c :: rest), rewriteFrom_outside, mark]
  simp only [if_neg quote]
  rfl

/-! ## Texts without a word for a number that is not finite -/

/-- The character is in no such word and begins no string. -/
def IsPlain (c : Char) : Prop := c ≠ '"' ∧ c ≠ 'I' ∧ c ≠ 'N'

instance (c : Char) : Decidable (IsPlain c) := inferInstanceAs (Decidable (_ ∧ _ ∧ _))

theorem isPlain_of_all {text : List Char} (all : text.all (fun c => decide (IsPlain c)) = true) :
    ∀ c ∈ text, IsPlain c := by
  simpa using all

theorem settleWord_of_isPlain {word : List Char} (plain : ∀ c ∈ word, IsPlain c) :
    Rewriting.settleWord word = word := by
  unfold Rewriting.settleWord
  split
  next nonFinite =>
    exfalso
    have reversed : ∀ c ∈ word.reverse, IsPlain c := fun c member =>
      plain c (List.mem_reverse.mp member)
    have listed : word.reverse ∈ nonFiniteWords := by simpa using nonFinite
    simp only [nonFiniteWords, List.mem_cons, List.not_mem_nil, or_false] at listed
    obtain infinity | notANumber := listed
    · exact (reversed 'I' (by rw [infinity]; decide)).2.1 rfl
    · exact (reversed 'N' (by rw [notANumber]; decide)).2.2 rfl
  next => rfl

theorem rewriteFrom_of_isPlain {text rest : List Char} (plain : ∀ c ∈ text, IsPlain c)
    (ends : EndsWord rest) {word : List Char} (plainWord : ∀ c ∈ word, IsPlain c) :
    rewriteFrom (.outside word) (text ++ rest) =
      word.reverse ++ (text ++ normalizeNonFinite rest) := by
  induction text generalizing word with
  | nil =>
    rw [List.nil_append, rewriteFrom_of_endsWord word ends, settleWord_of_isPlain plainWord]
    rfl
  | cons c text inductionHypothesis =>
    have first : IsPlain c := plain c List.mem_cons_self
    have others : ∀ d ∈ text, IsPlain d := fun d member => plain d (List.mem_cons_of_mem c member)
    rw [List.cons_append, rewriteFrom_outside]
    split
    · rw [inductionHypothesis others (List.forall_mem_cons.mpr ⟨first, plainWord⟩)]
      simp
    · rw [if_neg first.1, settleWord_of_isPlain plainWord,
        inductionHypothesis others (by simp)]
      simp

theorem normalizeNonFinite_plain {text rest : List Char} (plain : ∀ c ∈ text, IsPlain c)
    (ends : EndsWord rest) : normalizeNonFinite (text ++ rest) = text ++ normalizeNonFinite rest :=
  rewriteFrom_of_isPlain plain ends (by simp)

/-! ## Strings -/

theorem ne_of_isSome_hexDigit? {c : Char} (digit : (hexDigit? c).isSome = true) :
    c ≠ '"' ∧ c ≠ '\\' := by
  constructor <;> rintro rfl <;> exact absurd digit (by decide)

theorem isSome_hexDigit?_of_hexQuad? {a b c d : Char} (digits : (hexQuad? a b c d).isSome = true) :
    (hexDigit? a).isSome = true ∧ (hexDigit? b).isSome = true ∧ (hexDigit? c).isSome = true ∧
      (hexDigit? d).isSome = true := by
  obtain ⟨value, reads⟩ := Option.isSome_iff_exists.mp digits
  simp only [hexQuad?, Option.bind_eq_bind, Option.bind_eq_some_iff] at reads
  obtain ⟨_, first, _, second, _, third, _, fourth, _⟩ := reads
  simp [first, second, third, fourth]

theorem rewriteFrom_inside_of_ne {c : Char} (quote : c ≠ '"') (backslash : c ≠ '\\')
    (text : List Char) : rewriteFrom .inside (c :: text) = c :: rewriteFrom .inside text := by
  rw [rewriteFrom_inside, if_neg backslash, if_neg quote]

theorem rewriteFrom_escape (c : Char) (text : List Char) :
    rewriteFrom .inside ('\\' :: c :: text) = '\\' :: c :: rewriteFrom .inside text := by
  rw [rewriteFrom_inside, if_pos rfl, rewriteFrom_escaped]

/-- Inside a string everything stays up to the closing quote. -/
theorem rewriteFrom_body {body : List Char} (isBody : IsBody body) (rest : List Char) :
    rewriteFrom .inside (body ++ '"' :: rest) = body ++ '"' :: normalizeNonFinite rest := by
  induction isBody with
  | empty => exact rewriteFrom_inside rest '"'
  | plain visible quote backslash more inductionHypothesis =>
    rw [List.cons_append, rewriteFrom_inside_of_ne quote backslash, inductionHypothesis]
    rfl
  | short escape more inductionHypothesis =>
    rw [List.cons_append, List.cons_append, rewriteFrom_escape, inductionHypothesis]
    rfl
  | unit digits more inductionHypothesis =>
    obtain ⟨first, second, third, fourth⟩ := isSome_hexDigit?_of_hexQuad? digits
    simp only [List.cons_append]
    rw [rewriteFrom_escape,
      rewriteFrom_inside_of_ne (ne_of_isSome_hexDigit? first).1 (ne_of_isSome_hexDigit? first).2,
      rewriteFrom_inside_of_ne (ne_of_isSome_hexDigit? second).1 (ne_of_isSome_hexDigit? second).2,
      rewriteFrom_inside_of_ne (ne_of_isSome_hexDigit? third).1 (ne_of_isSome_hexDigit? third).2,
      rewriteFrom_inside_of_ne (ne_of_isSome_hexDigit? fourth).1 (ne_of_isSome_hexDigit? fourth).2,
      inductionHypothesis]

theorem normalizeNonFinite_string {body : List Char} (isBody : IsBody body) (rest : List Char) :
    normalizeNonFinite ('"' :: (body ++ '"' :: rest)) =
      '"' :: (body ++ '"' :: normalizeNonFinite rest) := by
  rw [normalizeNonFinite_eq ('"' :: _), rewriteFrom_outside, if_neg (by decide), if_pos rfl,
    rewriteFrom_body isBody]
  rfl

/-! ## Numbers -/

/-- A number as a report spells it: as JSON does, or a word for one that is not finite. -/
inductive IsReportNumber : List Char → Prop where
  | finite {spelling : List Char} (isNumber : IsNumber spelling) : IsReportNumber spelling
  | infinity : IsReportNumber "Infinity".toList
  | negativeInfinity : IsReportNumber "-Infinity".toList
  | notANumber : IsReportNumber "NaN".toList
  | negativeNotANumber : IsReportNumber "-NaN".toList

/-- A number that is not finite becomes zero and keeps its sign. -/
def finiteSpelling (spelling : List Char) : List Char :=
  if spelling = "Infinity".toList ∨ spelling = "NaN".toList then "0.0".toList
  else if spelling = "-Infinity".toList ∨ spelling = "-NaN".toList then "-0.0".toList
  else spelling

theorem isPlain_of_isDigit {c : Char} (digit : IsDigit c) : IsPlain c := by
  refine ⟨?_, ?_, ?_⟩ <;> rintro rfl <;> exact absurd digit (by decide)

theorem isPlain_of_isDigits {digits : List Char} (isDigits : IsDigits digits) :
    ∀ c ∈ digits, IsPlain c :=
  fun c member => isPlain_of_isDigit (isDigits.2 c member)

theorem isPlain_of_mark {e : Char} (mark : e = 'e' ∨ e = 'E') : IsPlain e := by
  obtain rfl | rfl := mark <;> exact ⟨by decide, by decide, by decide⟩

theorem isPlain_of_isMagnitude {digits : List Char} (magnitude : IsMagnitude digits) :
    ∀ c ∈ digits, IsPlain c := by
  obtain ⟨isWhole, isFraction, isExponent⟩ := magnitude
  refine List.forall_mem_append.mpr ⟨List.forall_mem_append.mpr ⟨?_, ?_⟩, ?_⟩
  · obtain rfl | ⟨isDigits, -⟩ := isWhole
    · exact List.forall_mem_singleton.mpr (isPlain_of_isDigit (by decide))
    · exact isPlain_of_isDigits isDigits
  · cases isFraction with
    | absent => simp
    | point isDigits =>
      exact List.forall_mem_cons.mpr
        ⟨⟨by decide, by decide, by decide⟩, isPlain_of_isDigits isDigits⟩
  · cases isExponent with
    | absent => simp
    | power mark isSign isDigits =>
      refine List.forall_mem_cons.mpr ⟨isPlain_of_mark mark,
        List.forall_mem_append.mpr ⟨?_, isPlain_of_isDigits isDigits⟩⟩
      obtain rfl | rfl | rfl := isSign <;> exact isPlain_of_all (by decide)

theorem isPlain_of_isNumber {spelling : List Char} (isNumber : IsNumber spelling) :
    ∀ c ∈ spelling, IsPlain c := by
  cases isNumber with
  | positive magnitude => exact isPlain_of_isMagnitude magnitude
  | negative magnitude =>
    exact List.forall_mem_cons.mpr
      ⟨⟨by decide, by decide, by decide⟩, isPlain_of_isMagnitude magnitude⟩

theorem finiteSpelling_of_isNumber {spelling : List Char} (isNumber : IsNumber spelling) :
    finiteSpelling spelling = spelling := by
  have plain := isPlain_of_isNumber isNumber
  have infinite : ∀ word : List Char, 'I' ∈ word → spelling ≠ word := by
    rintro word member rfl
    exact (plain 'I' member).2.1 rfl
  have notANumber : ∀ word : List Char, 'N' ∈ word → spelling ≠ word := by
    rintro word member rfl
    exact (plain 'N' member).2.2 rfl
  simp only [finiteSpelling]
  rw [if_neg, if_neg]
  · rintro (equal | equal)
    · exact infinite _ (by decide) equal
    · exact notANumber _ (by decide) equal
  · rintro (equal | equal)
    · exact infinite _ (by decide) equal
    · exact notANumber _ (by decide) equal

theorem isNumber_finiteSpelling {spelling : List Char} (isNumber : IsReportNumber spelling) :
    IsNumber (finiteSpelling spelling) := by
  have zero : IsMagnitude "0.0".toList :=
    @IsMagnitude.parts ['0'] ['.', '0'] [] (.inl rfl)
      (.point ⟨by decide, List.forall_mem_singleton.mpr (by decide)⟩) .absent
  cases isNumber with
  | finite isNumber => rwa [finiteSpelling_of_isNumber isNumber]
  | infinity | notANumber => exact .positive zero
  | negativeInfinity | negativeNotANumber => exact .negative zero

theorem normalizeNonFinite_word {word rest : List Char} (listed : word ∈ nonFiniteWords)
    (ends : EndsWord rest) :
    normalizeNonFinite (word ++ rest) = finiteWord ++ normalizeNonFinite rest := by
  have areWords : ∀ word ∈ nonFiniteWords, word.all isWordChar = true := by decide
  have isWord : ∀ c ∈ word, isWordChar c = true := List.all_eq_true.mp (areWords word listed)
  rw [normalizeNonFinite_eq (word ++ rest), rewriteFrom_word isWord ends, List.append_nil]
  simp [Rewriting.settleWord, listed]

/-- A number is mended where it stands. -/
theorem normalizeNonFinite_number {spelling rest : List Char} (isNumber : IsReportNumber spelling)
    (ends : EndsWord rest) :
    normalizeNonFinite (spelling ++ rest) = finiteSpelling spelling ++ normalizeNonFinite rest := by
  have minus : ∀ word : List Char,
      normalizeNonFinite ('-' :: (word ++ rest)) = '-' :: normalizeNonFinite (word ++ rest) :=
    fun word => normalizeNonFinite_mark (by decide) (by decide) _
  cases isNumber with
  | finite isNumber =>
    rw [finiteSpelling_of_isNumber isNumber]
    exact normalizeNonFinite_plain (isPlain_of_isNumber isNumber) ends
  | infinity | notANumber => exact normalizeNonFinite_word (by decide) ends
  | negativeInfinity =>
    exact (minus "Infinity".toList).trans
      (congrArg _ (normalizeNonFinite_word (by decide) ends))
  | negativeNotANumber =>
    exact (minus "NaN".toList).trans (congrArg _ (normalizeNonFinite_word (by decide) ends))

/-! ## Between documents -/

theorem normalizeNonFinite_blank {c : Char} (space : isSpace c = true) (rest : List Char) :
    normalizeNonFinite (c :: rest) = c :: normalizeNonFinite rest := by
  refine normalizeNonFinite_mark (isWordChar_of_isSpace space) ?_ rest
  rintro rfl
  exact absurd space (by decide)

theorem normalizeNonFinite_gap {text rest : List Char} (gap : Gap text rest) :
    Gap (normalizeNonFinite text) (normalizeNonFinite rest) := by
  induction gap with
  | none => exact .none
  | blank space more inductionHypothesis =>
    rw [normalizeNonFinite_blank space]
    exact .blank space inductionHypothesis

theorem normalizeNonFinite_gap_mark {c : Char} (mark : isWordChar c = false) (quote : c ≠ '"')
    {text rest : List Char} (gap : Gap text (c :: rest)) :
    Gap (normalizeNonFinite text) (c :: normalizeNonFinite rest) := by
  rw [← normalizeNonFinite_mark mark quote]
  exact normalizeNonFinite_gap gap

theorem normalizeNonFinite_separated {first : Bool} {text rest : List Char}
    (separated : Separated first text rest) :
    Separated first (normalizeNonFinite text) (normalizeNonFinite rest) := by
  cases separated with
  | first gap => exact .first (normalizeNonFinite_gap gap)
  | next comma gap =>
    exact .next (normalizeNonFinite_gap_mark (by decide) (by decide) comma)
      (normalizeNonFinite_gap gap)

/-! ## Documents -/

mutual

def mend : Document → Document
  | .null => .null
  | .bool b => .bool b
  | .number spelling => .number (finiteSpelling spelling)
  | .string body => .string body
  | .array items => .array (mendItems items)
  | .object members => .object (mendMembers members)

def mendItems : List Document → List Document
  | [] => []
  | d :: items => mend d :: mendItems items

def mendMembers : List (List Char × Document) → List (List Char × Document)
  | [] => []
  | (name, d) :: members => (name, mend d) :: mendMembers members

end

mutual

/-- To mend the text of a document is to mend the document. -/
theorem written_mend {d : Document} {text rest : List Char} (ends : EndsWord rest) :
    Written IsReportNumber d text rest →
      Written IsNumber (mend d) (normalizeNonFinite text) (normalizeNonFinite rest)
  | .null => by
    have kept := @normalizeNonFinite_plain "null".toList rest (isPlain_of_all (by decide)) ends
    exact kept ▸ Written.null
  | .true => by
    have kept := @normalizeNonFinite_plain "true".toList rest (isPlain_of_all (by decide)) ends
    exact kept ▸ Written.true
  | .false => by
    have kept := @normalizeNonFinite_plain "false".toList rest (isPlain_of_all (by decide)) ends
    exact kept ▸ Written.false
  | .number spelled => by
    rw [normalizeNonFinite_number spelled ends]
    exact .number (isNumber_finiteSpelling spelled)
  | .string isBody => by
    rw [normalizeNonFinite_string isBody]
    exact .string isBody
  | .array inside => by
    rw [normalizeNonFinite_mark (by decide) (by decide)]
    exact .array (written_mendItems inside)
  | .object inside => by
    rw [normalizeNonFinite_mark (by decide) (by decide)]
    exact .object (written_mendMembers inside)

theorem written_mendItems {first : Bool} {items : List Document} {text rest : List Char} :
    WrittenItems IsReportNumber first items text rest →
      WrittenItems IsNumber first (mendItems items) (normalizeNonFinite text)
        (normalizeNonFinite rest)
  | .closed gap => .closed (normalizeNonFinite_gap_mark (by decide) (by decide) gap)
  | .item separated written others =>
    .item (normalizeNonFinite_separated separated)
      (written_mend (endsWord_of_bounded (bounded_of_items others)) written)
      (written_mendItems others)

theorem written_mendMembers {first : Bool} {members : List (List Char × Document)}
    {text rest : List Char} :
    WrittenMembers IsReportNumber first members text rest →
      WrittenMembers IsNumber first (mendMembers members) (normalizeNonFinite text)
        (normalizeNonFinite rest)
  | .closed gap => .closed (normalizeNonFinite_gap_mark (by decide) (by decide) gap)
  | .member separated isBody colon gap written others =>
    .member (normalizeNonFinite_string isBody _ ▸ normalizeNonFinite_separated separated) isBody
      (normalizeNonFinite_gap_mark (by decide) (by decide) colon) (normalizeNonFinite_gap gap)
      (written_mend (endsWord_of_bounded (bounded_of_members others)) written)
      (written_mendMembers others)

end

/-! ## Texts that stay -/

/-- The text stays as it is up to its rest. -/
def Kept (text rest : List Char) : Prop :=
  ∃ head, text = head ++ rest ∧ normalizeNonFinite text = head ++ normalizeNonFinite rest

theorem Kept.refl (rest : List Char) : Kept rest rest := ⟨[], rfl, rfl⟩

theorem Kept.trans {text middle rest : List Char} (first : Kept text middle)
    (second : Kept middle rest) : Kept text rest := by
  obtain ⟨before, equal, kept⟩ := first
  obtain ⟨behind, equalBehind, keptBehind⟩ := second
  exact ⟨before ++ behind, by rw [equal, equalBehind, List.append_assoc],
    by rw [kept, keptBehind, List.append_assoc]⟩

theorem kept_mark {c : Char} (mark : isWordChar c = false) (quote : c ≠ '"') (rest : List Char) :
    Kept (c :: rest) rest :=
  ⟨[c], rfl, normalizeNonFinite_mark mark quote rest⟩

theorem kept_plain {text rest : List Char} (plain : ∀ c ∈ text, IsPlain c) (ends : EndsWord rest) :
    Kept (text ++ rest) rest :=
  ⟨text, rfl, normalizeNonFinite_plain plain ends⟩

theorem kept_string {body : List Char} (isBody : IsBody body) (rest : List Char) :
    Kept ('"' :: (body ++ '"' :: rest)) rest :=
  ⟨'"' :: (body ++ ['"']), by simp, by rw [normalizeNonFinite_string isBody]; simp⟩

theorem kept_gap {text rest : List Char} (gap : Gap text rest) : Kept text rest := by
  induction gap with
  | none => exact .refl _
  | blank space more inductionHypothesis =>
    exact Kept.trans ⟨[_], rfl, normalizeNonFinite_blank space _⟩ inductionHypothesis

theorem kept_separated {first : Bool} {text rest : List Char}
    (separated : Separated first text rest) : Kept text rest := by
  cases separated with
  | first gap => exact kept_gap gap
  | next comma gap =>
    exact (kept_gap comma).trans ((kept_mark (by decide) (by decide) _).trans (kept_gap gap))

mutual

/-- Where all numbers are finite, nothing is mended. -/
theorem kept_written {d : Document} {text rest : List Char} (ends : EndsWord rest) :
    Written IsNumber d text rest → Kept text rest
  | .null => @kept_plain "null".toList rest (isPlain_of_all (by decide)) ends
  | .true => @kept_plain "true".toList rest (isPlain_of_all (by decide)) ends
  | .false => @kept_plain "false".toList rest (isPlain_of_all (by decide)) ends
  | .number spelled => kept_plain (isPlain_of_isNumber spelled) ends
  | .string isBody => kept_string isBody rest
  | .array inside => (kept_mark (by decide) (by decide) _).trans (kept_items inside)
  | .object inside => (kept_mark (by decide) (by decide) _).trans (kept_members inside)

theorem kept_items {first : Bool} {items : List Document} {text rest : List Char} :
    WrittenItems IsNumber first items text rest → Kept text rest
  | .closed gap => (kept_gap gap).trans (kept_mark (by decide) (by decide) rest)
  | .item separated written others =>
    (kept_separated separated).trans
      ((kept_written (endsWord_of_bounded (bounded_of_items others)) written).trans
        (kept_items others))

theorem kept_members {first : Bool} {members : List (List Char × Document)}
    {text rest : List Char} : WrittenMembers IsNumber first members text rest → Kept text rest
  | .closed gap => (kept_gap gap).trans (kept_mark (by decide) (by decide) rest)
  | .member separated isBody colon gap written others =>
    (kept_separated separated).trans <| (kept_string isBody _).trans <| (kept_gap colon).trans <|
      (kept_mark (by decide) (by decide) _).trans <| (kept_gap gap).trans <|
        (kept_written (endsWord_of_bounded (bounded_of_members others)) written).trans
          (kept_members others)

end

theorem normalizeNonFinite_of_isText {d : Document} {text : List Char}
    (isText : Document.IsText IsNumber d text) : normalizeNonFinite text = text := by
  obtain ⟨start, rest, before, written, behind⟩ := isText
  have ends : EndsWord rest := endsWord_of_bounded (bounded_of_gap_nil behind)
  obtain ⟨head, equal, kept⟩ :=
    (kept_gap before).trans ((kept_written ends written).trans (kept_gap behind))
  rw [kept, equal, normalizeNonFinite_nil]

/-- A line that is a JSON text but for numbers that are not finite is mended to a JSON text of the
mended document, which passes the check of its syntax.  A JSON text stays as it is. -/
theorem normalizeNonFinite_mends :
    (∀ d text, Document.IsText IsReportNumber d text →
        Document.IsText IsNumber (mend d) (normalizeNonFinite text) ∧
          ∃ rest, skipValue (normalizeNonFinite text) = .ok rest ∧ readEnd rest = .ok ()) ∧
      ∀ d text, Document.IsText IsNumber d text → normalizeNonFinite text = text := by
  constructor
  · rintro d text ⟨start, rest, before, written, behind⟩
    have ends : EndsWord rest := endsWord_of_bounded (bounded_of_gap_nil behind)
    have isText : Document.IsText IsNumber (mend d) (normalizeNonFinite text) :=
      ⟨_, _, normalizeNonFinite_gap before, written_mend ends written,
        normalizeNonFinite_gap behind⟩
    exact ⟨isText, exists_isText_iff.mp ⟨_, isText⟩⟩
  · exact fun d text => normalizeNonFinite_of_isText

/-- Two numbers are mended behind a string that ends in an escaped quote and a backslash. -/
theorem normalizeNonFinite_mends_list :
    Document.IsText IsReportNumber
        (.array [.string "NaN\\\"\\\\".toList, .number "-Infinity".toList, .number "NaN".toList])
        "[\"NaN\\\"\\\\\", -Infinity,NaN ]".toList ∧
      Document.IsText IsNumber
        (.array [.string "NaN\\\"\\\\".toList, .number "-0.0".toList, .number "0.0".toList])
        "[\"NaN\\\"\\\\\", -0.0,0.0 ]".toList ∧
      normalizeNonFinite "[\"NaN\\\"\\\\\", -0.0,0.0 ]".toList =
        "[\"NaN\\\"\\\\\", -0.0,0.0 ]".toList := by
  have body : IsBody "NaN\\\"\\\\".toList := by
    iterate 3 refine .plain (by decide) (by decide) (by decide) ?_
    exact .short (by decide) (.short (by decide) .empty)
  have third : WrittenItems IsReportNumber false [.number "NaN".toList] ",NaN ]".toList [] :=
    .item (.next .none .none) (.number .notANumber) (.closed (.blank (by decide) .none))
  have given : Document.IsText IsReportNumber
      (.array [.string "NaN\\\"\\\\".toList, .number "-Infinity".toList, .number "NaN".toList])
      "[\"NaN\\\"\\\\\", -Infinity,NaN ]".toList :=
    ⟨_, [], .none, .array (.item (.first .none) (.string body)
      (.item (.next .none (.blank (by decide) .none)) (.number .negativeInfinity) third)), .none⟩
  have mended := (normalizeNonFinite_mends.1 _ _ given).1
  exact ⟨given, mended, normalizeNonFinite_mends.2 _ _ mended⟩

end PawnQuery.Report
