import Mathlib.Data.List.Basic
import PawnQuery.Proofs.Report.LinePieces
import PawnQuery.Report.LineScan

/-!
# Mending bytes is mending text

The scan over the bytes of a line gives the bytes of the mended line.  It never reads beyond the
line, and it cuts only between characters.  Where it is outside of strings, what is before it falls
into a part that is copied or replaced already and a tail that waits to be copied.
-/

namespace PawnQuery.Report

/-! ## The bytes of characters -/

@[simp] theorem utf8_nil : utf8 [] = [] := rfl

@[simp] theorem utf8_cons (c : Char) (text : List Char) :
    utf8 (c :: text) = String.utf8EncodeChar c ++ utf8 text := rfl

@[simp] theorem utf8_append (first text : List Char) :
    utf8 (first ++ text) = utf8 first ++ utf8 text := List.flatMap_append

theorem utf8_injective {first text : List Char} (same : utf8 first = utf8 text) :
    first = text := by
  have encoded : (String.ofList first).toByteArray = (String.ofList text).toByteArray := by
    rw [String.toByteArray_ofList, String.toByteArray_ofList]
    exact congrArg List.toByteArray same
  exact String.ofList_injective (String.toByteArray_inj.mp encoded)

/-- The bytes of a character. -/
inductive Encodes (c : Char) : List UInt8 → Prop where
  | ascii {b : UInt8} (small : b < 0x80) (same : b.toNat = c.toNat) : Encodes c [b]
  | wide {b : UInt8} {bs : List UInt8} (large : 0x80 ≤ c.toNat) (begins : 0xC0 ≤ b)
      (follows : ∀ d ∈ bs, 0x80 ≤ d) : Encodes c (b :: bs)

theorem encodes_utf8EncodeChar (c : Char) : Encodes c (String.utf8EncodeChar c) := by
  have begins {n : Nat} (least : 0xC0 ≤ n) (small : n < 0x100) : 0xC0 ≤ UInt8.ofNat n := by
    rw [UInt8.le_iff_toNat_le, UInt8.toNat_ofNat']
    exact Nat.le_trans least (Nat.le_of_eq (Nat.mod_eq_of_lt small).symm)
  have follows (n : Nat) : 0x80 ≤ UInt8.ofNat (n % 64 + 0x80) := by
    rw [UInt8.le_iff_toNat_le, UInt8.toNat_ofNat']
    show 0x80 ≤ _
    omega
  have same : c.val.toNat = c.toNat := rfl
  unfold String.utf8EncodeChar
  simp only [same]
  split
  · refine .ascii ?_ ?_
    · rw [UInt8.lt_iff_toNat_lt, UInt8.toNat_ofNat']
      show _ < 0x80
      omega
    · rw [UInt8.toNat_ofNat']
      omega
  split
  · exact .wide (by omega) (begins (by omega) (by omega))
      (List.forall_mem_singleton.mpr (follows _))
  split
  · exact .wide (by omega) (begins (by omega) (by omega))
      (List.forall_mem_cons.mpr ⟨follows _, List.forall_mem_singleton.mpr (follows _)⟩)
  · exact .wide (by omega) (begins (by omega) (by omega))
      (List.forall_mem_cons.mpr ⟨follows _, List.forall_mem_cons.mpr
        ⟨follows _, List.forall_mem_singleton.mpr (follows _)⟩⟩)

/-- The codes of ASCII letters, digits and the underscore. -/
def IsWordCode (n : Nat) : Prop :=
  ((0x61 ≤ n ∧ n ≤ 0x7A ∨ 0x41 ≤ n ∧ n ≤ 0x5A) ∨ 0x30 ≤ n ∧ n ≤ 0x39) ∨ n = 0x5F

theorem IsWordCode.small {n : Nat} (isWord : IsWordCode n) : n < 0x80 := by
  unfold IsWordCode at isWord
  omega

theorem isWordByte_iff (b : UInt8) : isWordByte b = true ↔ IsWordCode b.toNat := by
  simp only [isWordByte, Bool.or_eq_true, Bool.and_eq_true, decide_eq_true_eq, beq_iff_eq,
    UInt8.le_iff_toNat_le, ← UInt8.toNat_inj]
  exact Iff.rfl

theorem isWordChar_iff (c : Char) : isWordChar c = true ↔ IsWordCode c.toNat := by
  simp only [isWordChar, Bool.or_eq_true, Bool.and_eq_true, decide_eq_true_eq, beq_iff_eq,
    Char.le_def, UInt32.le_iff_toNat_le, Char.ext_iff, ← UInt32.toNat_inj]
  exact Iff.rfl

section

variable {c : Char} {bs : List UInt8} (encodes : Encodes c bs)

include encodes

theorem Encodes.toNat_eq {b : UInt8} (among : b ∈ bs) (small : b < 0x80) :
    b.toNat = c.toNat := by
  cases encodes with
  | ascii _ same => exact List.mem_singleton.mp among ▸ same
  | wide _ begins follows =>
    exfalso
    rw [UInt8.lt_iff_toNat_lt] at small
    have large : UInt8.toNat 0x80 ≤ b.toNat := by
      cases among with
      | head => exact Nat.le_trans (by decide) (UInt8.le_iff_toNat_le.mp begins)
      | tail _ among => exact UInt8.le_iff_toNat_le.mp (follows b among)
    omega

theorem Encodes.isWordByte_eq_false (mark : isWordChar c = false) {b : UInt8} (among : b ∈ bs) :
    isWordByte b = false := by
  rw [← Bool.not_eq_true, isWordByte_iff]
  intro isWord
  rw [encodes.toNat_eq among (UInt8.lt_iff_toNat_lt.mpr isWord.small), ← isWordChar_iff, mark]
    at isWord
  cases isWord

theorem Encodes.exists_cons : ∃ b others, bs = b :: others ∧ ∀ d ∈ others, 0x80 ≤ d := by
  cases encodes with
  | ascii => exact ⟨_, [], rfl, by simp⟩
  | wide _ _ follows => exact ⟨_, _, rfl, follows⟩

theorem Encodes.ne_ascii {d : Char} (other : c ≠ d) {b : UInt8} (small : b < 0x80)
    (ascii : b.toNat = d.toNat) : b ∉ bs := fun among =>
  other (Char.toNat_inj.mp ((encodes.toNat_eq among small).symm.trans ascii))

theorem Encodes.exists_letter (letter : isWordChar c = true) :
    ∃ b, bs = [b] ∧ isWordByte b = true := by
  cases encodes with
  | ascii small same => exact ⟨_, rfl, by rwa [isWordByte_iff, same, ← isWordChar_iff]⟩
  | wide large => exact absurd ((isWordChar_iff c).mp letter).small (Nat.not_lt_of_le large)

end

/-! ## Cutting between characters -/

theorem isBoundary_utf8 (before rest : List Char) :
    isBoundary (utf8 before ++ utf8 rest) (utf8 before).length = true := by
  unfold isBoundary
  rw [List.getElem?_append_right (Nat.le_refl _), Nat.sub_self]
  cases rest with
  | nil => simp
  | cons c rest =>
    have encodes := encodes_utf8EncodeChar c
    rw [utf8_cons]
    generalize String.utf8EncodeChar c = bs at encodes
    cases encodes with
    | ascii small => simp [small]
    | wide _ begins => simp [begins]

/-- Between characters any part of a text can be cut out. -/
theorem slice?_utf8 (first part rest : List Char) :
    slice? (utf8 (first ++ part ++ rest)) (utf8 first).length (utf8 (first ++ part)).length =
      some (utf8 part) := by
  have start := isBoundary_utf8 first (part ++ rest)
  have stop := isBoundary_utf8 (first ++ part) rest
  rw [← utf8_append] at start stop
  rw [← List.append_assoc] at start
  rw [slice?, if_pos ⟨by simp, start, stop⟩, utf8_append (first ++ part), List.take_left' rfl,
    utf8_append first, List.drop_left' rfl]

/-! ## Words at a place -/

theorem beginsWord?_append (before rest : List UInt8) :
    beginsWord? (before ++ rest) before.length =
      some (before.getLast?.all fun b => !isWordByte b) := by
  obtain rfl | ⟨first, b, rfl⟩ := before.eq_nil_or_concat
  · rfl
  · simp [beginsWord?]

/-- A longest stretch is told by what is in it and by what follows it. -/
theorem takeWhile_eq_iff {p : α → Bool} {word list : List α} (letters : ∀ a ∈ word, p a = true) :
    list.takeWhile p = word ↔ word <+: list ∧ ∀ a ∈ list[word.length]?, p a = false := by
  induction word generalizing list with
  | nil => cases list <;> simp [List.takeWhile_cons]
  | cons a word inductionHypothesis =>
    obtain ⟨first, others⟩ := List.forall_mem_cons.mp letters
    cases list with
    | nil => simp
    | cons b list =>
      have more : list.takeWhile p = word ↔
          word <+: list ∧ ∀ a ∈ list[word.length]?, p a = false :=
        inductionHypothesis others
      by_cases same : a = b
      · subst same
        simp [first, more]
      · have differs : b ≠ a := fun equal => same equal.symm
        by_cases letter : p b = true <;> simp [letter, same, differs]

theorem NonFinite.letters (word : NonFinite) : ∀ c ∈ word.name, isWordChar c = true :=
  List.all_eq_true.mp (by cases word <;> rfl)

theorem NonFinite.letterBytes (word : NonFinite) : ∀ b ∈ word.bytes, isWordByte b = true :=
  List.all_eq_true.mp (by cases word <;> rfl)

/-- The word for a number that is not finite which is the whole word here. -/
def standing (before rest : List UInt8) : Option NonFinite :=
  if before.getLast?.all fun b => !isWordByte b then
    NonFinite.all.find? fun word => decide (rest.takeWhile isWordByte = word.bytes)
  else none

theorem nonFiniteAt?_append (before rest : List UInt8) :
    nonFiniteAt? (before ++ rest) before.length = some (standing before rest) := by
  have stands (word : NonFinite) : (word.bytes.isPrefixOf rest &&
      ((before ++ rest)[before.length + word.bytes.length]?).all fun b => !isWordByte b) =
        decide (rest.takeWhile isWordByte = word.bytes) := by
    rw [Bool.eq_iff_iff, Bool.and_eq_true, decide_eq_true_eq, takeWhile_eq_iff word.letterBytes,
      List.isPrefixOf_iff_prefix, List.getElem?_append_right (Nat.le_add_right _ _)]
    simp [Option.all_eq_true]
  have suffix : suffix? (before ++ rest) before.length = some rest := by simp [suffix?]
  rw [nonFiniteAt?, beginsWord?_append, standing]
  cases before.getLast?.all fun b => !isWordByte b with
  | false => rfl
  | true => simp [suffix, stands]

/-! ## One byte -/

namespace LineScan

/-- Goes on where this much has been read and this much is left. -/
def scanAt (before rest : List UInt8) (s : LineScan) : Option LineScan :=
  scan (before ++ rest) before.length s

variable {before rest : List UInt8} {b : UInt8} {s : LineScan}

theorem scanAt_nil : scanAt before [] s = some s := by
  rw [scanAt, scan]
  simp

theorem scanAt_inside (inString : s.inString = true) :
    scanAt before (b :: rest) s = scanAt (before ++ [b]) rest (s.passInside b) := by
  rw [scanAt, scan]
  simp [scanAt, inString]

theorem scanAt_quote (outside : s.inString = false) :
    scanAt before (0x22 :: rest) s = scanAt (before ++ [0x22]) rest { s with inString := true } := by
  rw [scanAt, scan]
  simp [scanAt, outside]

theorem scanAt_pass (outside : s.inString = false) (quote : b ≠ 0x22)
    (no : nonFiniteAt? (before ++ b :: rest) before.length = some none) :
    scanAt before (b :: rest) s = scanAt (before ++ [b]) rest s := by
  rw [scanAt, scan]
  simp [scanAt, outside, quote, no]

theorem scanAt_replace (outside : s.inString = false) (quote : b ≠ 0x22) {word : NonFinite}
    {replaced : LineScan}
    (here : nonFiniteAt? (before ++ b :: rest) before.length = some (some word))
    (replaces : s.replace? (before ++ b :: rest) before.length word = some replaced) :
    scanAt before (b :: rest) s =
      scan (before ++ b :: rest) (before.length + word.bytes.length) replaced := by
  rw [scanAt, scan]
  simp [outside, quote, here, replaces]

/-! ## Strings -/

theorem scanAt_plain {bs : List UInt8} (inString : s.inString = true) (unescaped : s.escaped = false)
    (plain : ∀ b ∈ bs, b ≠ 0x5C ∧ b ≠ 0x22) :
    scanAt before (bs ++ rest) s = scanAt (before ++ bs) rest s := by
  induction bs generalizing before with
  | nil => simp
  | cons b bs inductionHypothesis =>
    obtain ⟨first, others⟩ := List.forall_mem_cons.mp plain
    have stays : s.passInside b = s := by simp [passInside, unescaped, first]
    rw [List.cons_append, scanAt_inside inString, stays, inductionHypothesis others,
      List.append_assoc, List.singleton_append]

theorem plain_of_le {bs : List UInt8} (large : ∀ b ∈ bs, 0x80 ≤ b) :
    ∀ b ∈ bs, b ≠ 0x5C ∧ b ≠ 0x22 := by
  intro b among
  constructor <;> rintro rfl <;> exact absurd (large _ among) (by decide)

/-- Behind the quote that opens a literal its text is passed, whatever follows a backslash. -/
theorem scanAt_literal {isCut : Bool} {body : List Char} (inside : Inside isCut body)
    (output : List UInt8) (copied : Nat) :
    scanAt before (utf8 body ++ rest) ⟨output, copied, true, false⟩ =
      scanAt (before ++ utf8 body) rest ⟨output, copied, true, isCut⟩ := by
  induction inside generalizing before with
  | empty => simp
  | cut => exact scanAt_inside rfl
  | @plain c quote backslash _ body _ inductionHypothesis =>
    have encodes := encodes_utf8EncodeChar c
    have plain : ∀ b ∈ String.utf8EncodeChar c, b ≠ 0x5C ∧ b ≠ 0x22 := fun b among =>
      ⟨fun equal => encodes.ne_ascii backslash (by decide) (by decide) (equal ▸ among),
        fun equal => encodes.ne_ascii quote (by decide) (by decide) (equal ▸ among)⟩
    rw [utf8_cons, List.append_assoc, scanAt_plain rfl rfl plain, inductionHypothesis,
      List.append_assoc]
  | @escape c _ body _ inductionHypothesis =>
    -- Only the first byte of the character is escaped, but the others are no marks of their own.
    obtain ⟨b, bs, equal, follows⟩ := (encodes_utf8EncodeChar c).exists_cons
    have bytes : utf8 ('\\' :: c :: body) = 0x5C :: b :: (bs ++ utf8 body) := by
      rw [utf8_cons, utf8_cons, equal]
      rfl
    have behind : ((⟨output, copied, true, false⟩ : LineScan).passInside 0x5C).passInside b =
        ⟨output, copied, true, false⟩ := rfl
    rw [bytes, List.cons_append, scanAt_inside rfl, List.cons_append, scanAt_inside rfl, behind,
      List.append_assoc bs, scanAt_plain rfl rfl (plain_of_le follows), inductionHypothesis]
    simp

/-! ## Words and marks -/

theorem scanAt_of_standing (outside : s.inString = false) (quote : b ≠ 0x22)
    (none : standing before (b :: rest) = none) :
    scanAt before (b :: rest) s = scanAt (before ++ [b]) rest s :=
  scanAt_pass outside quote ((nonFiniteAt?_append _ _).trans (congrArg some none))

theorem scanAt_marks {bs : List UInt8} (outside : s.inString = false)
    (marks : ∀ b ∈ bs, isWordByte b = false ∧ b ≠ 0x22) :
    scanAt before (bs ++ rest) s = scanAt (before ++ bs) rest s := by
  induction bs generalizing before with
  | nil => simp
  | cons b bs inductionHypothesis =>
    obtain ⟨⟨mark, quote⟩, others⟩ := List.forall_mem_cons.mp marks
    have none : standing before (b :: (bs ++ rest)) = none := by
      have empty (word : NonFinite) : [] ≠ word.bytes := by cases word <;> decide
      simp [standing, mark, empty]
    rw [List.cons_append, scanAt_of_standing outside quote none, inductionHypothesis others,
      List.append_assoc, List.singleton_append]

theorem ne_quote_of_isWordByte {b : UInt8} (letter : isWordByte b = true) : b ≠ 0x22 := by
  rintro rfl
  exact absurd letter (by decide)

/-- No word begins within a word. -/
theorem scanAt_letters {bs : List UInt8} (outside : s.inString = false)
    (letters : ∀ b ∈ bs, isWordByte b = true) (letter : isWordByte b = true) :
    scanAt (before ++ [b]) (bs ++ rest) s = scanAt (before ++ b :: bs) rest s := by
  induction bs generalizing before b with
  | nil => rfl
  | cons d bs inductionHypothesis =>
    obtain ⟨first, others⟩ := List.forall_mem_cons.mp letters
    have none : standing (before ++ [b]) (d :: (bs ++ rest)) = none := by
      simp [standing, letter]
    rw [List.cons_append, scanAt_of_standing outside (ne_quote_of_isWordByte first) none,
      inductionHypothesis others first, List.append_assoc, List.singleton_append]

end LineScan

/-! ## Words of a text -/

/-- No word of what was read goes on into the rest. -/
def Fresh (before rest : List Char) : Prop :=
  ∀ c ∈ before.getLast?, isWordChar c = true → EndsWord rest

theorem fresh_append {before part : List Char} {c : Char} (mark : isWordChar c = false)
    (rest : List Char) (last : part.getLast? = some c) : Fresh (before ++ part) rest := by
  intro d isLast letter
  rw [List.getLast?_append, last] at isLast
  cases isLast
  rw [mark] at letter
  cases letter

/-- A word begins behind a mark. -/
theorem mark_of_fresh {before letters rest : List Char} (nonempty : letters ≠ [])
    (areLetters : ∀ c ∈ letters, isWordChar c = true) (fresh : Fresh before (letters ++ rest)) :
    ∀ c ∈ before.getLast?, isWordChar c = false := by
  intro c last
  by_contra letter
  rw [Bool.not_eq_false] at letter
  obtain ⟨d, others, rfl⟩ := List.exists_cons_of_ne_nil nonempty
  have mark := fresh c last letter d rfl
  rw [areLetters d List.mem_cons_self] at mark
  cases mark

theorem all_getLast?_utf8 {before : List Char}
    (mark : ∀ c ∈ before.getLast?, isWordChar c = false) :
    ((utf8 before).getLast?.all fun b => !isWordByte b) = true := by
  obtain rfl | ⟨first, c, rfl⟩ := before.eq_nil_or_concat
  · rfl
  · have encodes := encodes_utf8EncodeChar c
    rw [List.concat_eq_append, utf8_append, List.getLast?_append, Option.all_eq_true]
    intro b last
    obtain ⟨d, others, equal, -⟩ := encodes.exists_cons
    have among : b ∈ String.utf8EncodeChar c := by
      refine List.mem_of_getLast? ?_
      simpa [equal, List.getLast?_cons] using last
    simp [encodes.isWordByte_eq_false (mark c (by simp)) among]

theorem isWordByte_of_letters {letters : List Char}
    (areLetters : ∀ c ∈ letters, isWordChar c = true) :
    ∀ b ∈ utf8 letters, isWordByte b = true := by
  intro b among
  obtain ⟨c, listed, among⟩ := List.mem_flatMap.mp among
  obtain ⟨d, equal, letter⟩ := (encodes_utf8EncodeChar c).exists_letter (areLetters c listed)
  rw [equal, List.mem_singleton] at among
  exact among ▸ letter

theorem takeWhile_utf8 {letters rest : List Char}
    (areLetters : ∀ c ∈ letters, isWordChar c = true) (ends : EndsWord rest) :
    (utf8 letters ++ utf8 rest).takeWhile isWordByte = utf8 letters := by
  refine (takeWhile_eq_iff (isWordByte_of_letters areLetters)).mpr ⟨List.prefix_append _ _, ?_⟩
  intro b next
  rw [List.getElem?_append_right (Nat.le_refl _), Nat.sub_self] at next
  cases rest with
  | nil => simp at next
  | cons c rest =>
    have encodes := encodes_utf8EncodeChar c
    refine encodes.isWordByte_eq_false (ends c rfl) ?_
    obtain ⟨d, others, equal, -⟩ := encodes.exists_cons
    rw [utf8_cons, equal] at next
    cases next
    exact equal ▸ List.mem_cons_self

/-- At the beginning of a word it is told whether it stands for a number that is not finite. -/
theorem standing_utf8 {before letters rest : List Char}
    (mark : ∀ c ∈ before.getLast?, isWordChar c = false)
    (areLetters : ∀ c ∈ letters, isWordChar c = true) (ends : EndsWord rest) :
    standing (utf8 before) (utf8 letters ++ utf8 rest) =
      NonFinite.all.find? fun word => decide (letters = word.name) := by
  have same (word : NonFinite) : utf8 letters = word.bytes ↔ letters = word.name :=
    ⟨utf8_injective, congrArg utf8⟩
  rw [standing, if_pos (all_getLast?_utf8 mark), takeWhile_utf8 areLetters ends]
  simp only [same]

theorem exists_letters {letters : List Char} (nonempty : letters ≠ [])
    (areLetters : ∀ c ∈ letters, isWordChar c = true) :
    ∃ b bs, utf8 letters = b :: bs ∧ isWordByte b = true ∧ ∀ d ∈ bs, isWordByte d = true := by
  have areBytes := isWordByte_of_letters areLetters
  cases bytes : utf8 letters with
  | nil => exact absurd (utf8_injective bytes) nonempty
  | cons b bs =>
    rw [bytes] at areBytes
    exact ⟨b, bs, rfl, List.forall_mem_cons.mp areBytes⟩

theorem mem_nonFiniteWords_iff {letters : List Char} :
    letters ∈ nonFiniteWords ↔ ∃ word : NonFinite, letters = word.name := by
  constructor
  · intro listed
    obtain ⟨word, -, same⟩ := List.mem_map.mp
      (show letters ∈ NonFinite.all.map NonFinite.name from listed)
    exact ⟨word, same.symm⟩
  · rintro ⟨word, rfl⟩
    cases word <;> decide

/-! ## The scan of a text -/

namespace LineScan

/-- What becomes of a line of which `done` is mended, `tail` waits to be copied and `rest` is left. -/
def mendAt? (output : List UInt8) (done tail rest : List Char) : Option (List UInt8) :=
  (scanAt (utf8 (done ++ tail)) (utf8 rest) ⟨output, (utf8 done).length, false, false⟩).bind
    (·.finish? (utf8 (done ++ tail ++ rest)))

variable {output : List UInt8} {done tail rest : List Char}

/-- In the end the tail is copied; where nothing was replaced, it is the whole line. -/
theorem finish?_eq (start : done = [] → output = []) (inString escaped : Bool) :
    finish? ⟨output, (utf8 done).length, inString, escaped⟩ (utf8 (done ++ tail)) =
      some (output ++ utf8 tail) := by
  unfold finish?
  by_cases none : done = []
  · simp [none, start none]
  · have cut := slice?_utf8 done tail []
    rw [List.append_nil] at cut
    have some : (utf8 done).length ≠ 0 := fun empty =>
      none (utf8_injective (List.length_eq_zero_iff.mp empty))
    rw [if_neg some, cut]
    rfl

theorem mendAt?_nil (start : done = [] → output = []) :
    mendAt? output done tail [] = some (output ++ utf8 tail) := by
  rw [mendAt?, utf8_nil, scanAt_nil, List.append_nil]
  exact finish?_eq start _ _

theorem mendAt?_pass (part : List Char)
    (passes : ∀ s : LineScan, s.inString = false → s.escaped = false →
      scanAt (utf8 (done ++ tail)) (utf8 part ++ utf8 rest) s =
        scanAt (utf8 (done ++ tail) ++ utf8 part) (utf8 rest) s) :
    mendAt? output done tail (part ++ rest) = mendAt? output done (tail ++ part) rest := by
  rw [mendAt?, mendAt?, utf8_append part, passes _ rfl rfl]
  simp

theorem mendAt?_mark {c : Char} (mark : isWordChar c = false) (quote : c ≠ '"') :
    mendAt? output done tail (c :: rest) = mendAt? output done (tail ++ [c]) rest := by
  have encodes := encodes_utf8EncodeChar c
  refine mendAt?_pass [c] fun s outside _ => scanAt_marks outside fun b among => ?_
  rw [utf8_cons, utf8_nil, List.append_nil] at among
  refine ⟨encodes.isWordByte_eq_false mark among, ?_⟩
  rintro rfl
  exact encodes.ne_ascii quote (by decide) (by decide) among

theorem utf8_quote (text : List Char) : utf8 ('"' :: text) = 0x22 :: utf8 text := rfl

theorem mendAt?_closed {body : List Char} (inside : Inside false body) :
    mendAt? output done tail ('"' :: (body ++ '"' :: rest)) =
      mendAt? output done (tail ++ '"' :: (body ++ ['"'])) rest := by
  have passed : mendAt? output done tail ('"' :: (body ++ ['"']) ++ rest) =
      mendAt? output done (tail ++ '"' :: (body ++ ['"'])) rest := mendAt?_pass _ ?_
  · simpa using passed
  · rintro ⟨output, copied, inString, escaped⟩ outside unescaped
    cases outside
    cases unescaped
    have closes : (⟨output, copied, true, false⟩ : LineScan).passInside 0x22 =
        ⟨output, copied, false, false⟩ := rfl
    have bytes : utf8 ('"' :: (body ++ ['"'])) = 0x22 :: (utf8 body ++ [0x22]) := by
      rw [utf8_quote, utf8_append]
      rfl
    rw [bytes, List.cons_append, List.append_assoc, scanAt_quote rfl, scanAt_literal inside,
      List.singleton_append, scanAt_inside rfl, closes]
    simp

theorem mendAt?_unclosed {isCut : Bool} {body : List Char} (inside : Inside isCut body)
    (start : done = [] → output = []) :
    mendAt? output done tail ('"' :: body) = some (output ++ utf8 (tail ++ '"' :: body)) := by
  have passed : scanAt (utf8 (done ++ tail) ++ [0x22]) (utf8 body ++ [])
      ⟨output, (utf8 done).length, true, false⟩ = _ := scanAt_literal inside output _
  rw [List.append_nil] at passed
  rw [mendAt?, utf8_quote, scanAt_quote rfl, passed, scanAt_nil, List.append_assoc]
  exact finish?_eq start _ _

/-- A word for a number that is finite is passed. -/
theorem mendAt?_kept {letters : List Char} (nonempty : letters ≠ [])
    (areLetters : ∀ c ∈ letters, isWordChar c = true)
    (mark : ∀ c ∈ (done ++ tail).getLast?, isWordChar c = false) (ends : EndsWord rest)
    (finite : letters ∉ nonFiniteWords) :
    mendAt? output done tail (letters ++ rest) = mendAt? output done (tail ++ letters) rest := by
  refine mendAt?_pass letters fun s outside _ => ?_
  have none : standing (utf8 (done ++ tail)) (utf8 letters ++ utf8 rest) = none := by
    rw [standing_utf8 mark areLetters ends, List.find?_eq_none]
    intro word _ same
    exact finite (mem_nonFiniteWords_iff.mpr ⟨word, by simpa using same⟩)
  obtain ⟨b, bs, bytes, first, others⟩ := exists_letters nonempty areLetters
  rw [bytes] at none ⊢
  exact (scanAt_of_standing outside (ne_quote_of_isWordByte first) none).trans
    (scanAt_letters outside others first)

/-- A word for a number that is not finite is replaced, and the tail is copied before it. -/
theorem mendAt?_replaced {word : NonFinite}
    (mark : ∀ c ∈ (done ++ tail).getLast?, isWordChar c = false) (ends : EndsWord rest) :
    mendAt? output done tail (word.name ++ rest) =
      mendAt? (output ++ utf8 tail ++ utf8 finiteWord) (done ++ tail ++ word.name) [] rest := by
  have nonempty : word.name ≠ [] := by cases word <;> nofun
  have stands : standing (utf8 (done ++ tail)) (utf8 word.name ++ utf8 rest) = some word := by
    rw [standing_utf8 mark word.letters ends]
    cases word <;> rfl
  have here := nonFiniteAt?_append (utf8 (done ++ tail)) (utf8 word.name ++ utf8 rest)
  rw [stands] at here
  have replaces : replace? ⟨output, (utf8 done).length, false, false⟩
      (utf8 (done ++ tail) ++ (utf8 word.name ++ utf8 rest)) (utf8 (done ++ tail)).length word =
        some ⟨output ++ utf8 tail ++ utf8 finiteWord,
          (utf8 (done ++ tail)).length + word.bytes.length, false, false⟩ := by
    rw [replace?, ← utf8_append, ← utf8_append, slice?_utf8]
    rfl
  have goesOn : scanAt (utf8 (done ++ tail)) (utf8 word.name ++ utf8 rest)
      ⟨output, (utf8 done).length, false, false⟩ =
        scan (utf8 (done ++ tail) ++ (utf8 word.name ++ utf8 rest))
          ((utf8 (done ++ tail)).length + word.bytes.length)
          ⟨output ++ utf8 tail ++ utf8 finiteWord,
            (utf8 (done ++ tail)).length + word.bytes.length, false, false⟩ := by
    obtain ⟨b, bs, bytes, first, -⟩ := exists_letters nonempty word.letters
    rw [bytes, List.cons_append] at here replaces ⊢
    exact scanAt_replace rfl (ne_quote_of_isWordByte first) here replaces
  rw [mendAt?, mendAt?, utf8_append word.name, goesOn]
  simp [scanAt, NonFinite.bytes, Nat.add_assoc]

/-- Outside of strings the rest is mended piece by piece. -/
theorem mendAt?_splits {pieces : List Piece} (splits : Splits rest pieces)
    (fresh : Fresh (done ++ tail) rest) (start : done = [] → output = []) :
    mendAt? output done tail rest =
      some (output ++ utf8 tail ++ utf8 (pieces.flatMap Piece.mended)) := by
  induction splits generalizing output done tail with
  | nil =>
    rw [mendAt?_nil start]
    simp
  | @closed body rest pieces inside _ inductionHypothesis =>
    have behind : Fresh (done ++ (tail ++ '"' :: (body ++ ['"']))) rest := by
      rw [← List.append_assoc]
      exact fresh_append (c := '"') (by decide) rest (by simp [List.getLast?_cons])
    rw [mendAt?_closed inside, inductionHypothesis behind start]
    simp [Piece.mended, Piece.text]
  | unclosed inside =>
    rw [mendAt?_unclosed inside start]
    simp [Piece.mended, Piece.text]
  | @word letters rest pieces nonempty areLetters ends _ inductionHypothesis =>
    have mark := mark_of_fresh nonempty areLetters fresh
    by_cases listed : letters ∈ nonFiniteWords
    · obtain ⟨word, rfl⟩ := mem_nonFiniteWords_iff.mp listed
      rw [mendAt?_replaced mark ends,
        inductionHypothesis (fun _ _ _ => ends) fun empty => by simp_all]
      simp [Piece.mended, listed]
    · rw [mendAt?_kept nonempty areLetters mark ends listed,
        inductionHypothesis (fun _ _ _ => ends) start]
      simp [Piece.mended, listed]
  | @mark c rest pieces mark quote _ inductionHypothesis =>
    have behind : Fresh (done ++ (tail ++ [c])) rest := by
      rw [← List.append_assoc]
      exact fresh_append mark rest rfl
    rw [mendAt?_mark mark quote, inductionHypothesis behind start]
    simp [Piece.mended, Piece.text]

end LineScan

/-! ## The mended line -/

theorem scanLine?_utf8 (text : List Char) :
    scanLine? (utf8 text) = some (utf8 (normalizeNonFinite text)) := by
  obtain ⟨pieces, splits⟩ := exists_splits text
  have mended := @LineScan.mendAt?_splits [] [] [] text pieces splits (fun c last => by cases last)
    fun _ => rfl
  rw [splits.mends.2]
  exact mended

theorem occurs_iff {part bytes : List UInt8} : occurs part bytes = true ↔ part <:+: bytes := by
  induction bytes with
  | nil => simp [occurs, List.isEmpty_iff]
  | cons b bytes inductionHypothesis =>
    rw [occurs, Bool.or_eq_true, List.isPrefixOf_iff_prefix, inductionHypothesis,
      List.infix_cons_iff]

/-- Where no such word is found, a scan would change nothing. -/
theorem normalizeNonFinite_of_absent {text : List Char}
    (absent : ∀ word : NonFinite, ¬ word.bytes <:+: utf8 text) :
    normalizeNonFinite text = text := by
  obtain ⟨pieces, splits⟩ := exists_splits text
  obtain ⟨sameText, mended⟩ := splits.mends
  have same : ∀ piece ∈ pieces, piece.mended = piece.text := by
    rintro (literal | letters | c) listed
    case word =>
      refine if_neg fun nonFinite => ?_
      obtain ⟨word, rfl⟩ := mem_nonFiniteWords_iff.mp nonFinite
      obtain ⟨before, behind, rfl⟩ := List.append_of_mem listed
      refine absent word
        ⟨utf8 (before.flatMap Piece.text), utf8 (behind.flatMap Piece.text), ?_⟩
      simp [sameText, Piece.text, NonFinite.bytes]
    all_goals rfl
  rw [mended, List.flatMap_congr same, ← sameText]

/-- Whether the line is scanned or not does not show. -/
theorem mendLine?_utf8 (text : List Char) :
    mendLine? (utf8 text) = some (utf8 (normalizeNonFinite text)) := by
  unfold mendLine?
  split
  · exact scanLine?_utf8 text
  next absent =>
    rw [normalizeNonFinite_of_absent]
    intro word found
    refine absent (List.any_eq_true.mpr ⟨word, ?_, occurs_iff.mpr found⟩)
    cases word <;> decide

/-- A line falls into pieces, and for all its pieces the mended line is that of the mended pieces.
The scan over its bytes always gives the bytes of the mended line, as does the scan that is left out
where no word is found.  A mended line needs no mending. -/
theorem mends_pieces (text : List Char) :
    (∃ pieces, Splits text pieces) ∧
    (∀ pieces, Splits text pieces → text = pieces.flatMap Piece.text ∧
      normalizeNonFinite text = pieces.flatMap Piece.mended) ∧
    scanLine? (utf8 text) = some (utf8 (normalizeNonFinite text)) ∧
    mendLine? (utf8 text) = some (utf8 (normalizeNonFinite text)) ∧
    normalizeNonFinite (normalizeNonFinite text) = normalizeNonFinite text :=
  ⟨exists_splits text, fun _ splits => splits.mends, scanLine?_utf8 text, mendLine?_utf8 text,
    normalizeNonFinite_idempotent text⟩

/-- A word right behind a literal, one behind a letter that is not ASCII, and one in a literal that
is not closed. -/
theorem mends_pieces_sample :
    Splits "\"\\\"\"NaNéInfinity\"NaN".toList
        [.literal "\"\\\"\"".toList, .word "NaN".toList, .mark 'é', .word "Infinity".toList,
          .literal "\"NaN".toList] ∧
      normalizeNonFinite "\"\\\"\"NaNéInfinity\"NaN".toList = "\"\\\"\"0.0é0.0\"NaN".toList := by
  have unclosed : Splits "\"NaN".toList [.literal "\"NaN".toList] :=
    .unclosed (.plain (by decide) (by decide) (.plain (by decide) (by decide)
      (.plain (by decide) (by decide) .empty)))
  have second : Splits ("Infinity".toList ++ "\"NaN".toList) _ :=
    .word nofun NonFinite.infinity.letters (fun c head => by cases head; decide) unclosed
  have first : Splits ("NaN".toList ++ 'é' :: _) _ :=
    .word nofun NonFinite.notANumber.letters (fun c head => by cases head; decide)
      (.mark (by decide) (by decide) second)
  have splits := @Splits.closed ['\\', '"'] _ _ (.escape .empty) first
  exact ⟨splits, ((mends_pieces _).2.1 _ splits).2⟩

end PawnQuery.Report
