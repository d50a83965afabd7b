import PawnQuery.Proofs.Json.Tokens

/-!
# Reading numbers

A number ends where the text can no longer be read as part of it.  Up to there it is the same
number whatever follows, which is why its value can be told from its spelling alone.
-/

namespace PawnQuery.Json

/-! ## What a number cannot go on with -/

def NoDigit (rest : List Char) : Prop := ∀ c ∈ rest.head?, ¬ IsDigit c

def NoMark (rest : List Char) : Prop := ∀ c ∈ rest.head?, c ≠ 'e' ∧ c ≠ 'E'

def NoPoint (rest : List Char) : Prop := rest.head? ≠ some '.'

/-- An exponent stops in front of the rest, or there is none. -/
def StopsExponent (exponent rest : List Char) : Prop :=
  NoDigit rest ∧ (exponent = [] → NoMark rest)

def StopsFraction (fraction exponent rest : List Char) : Prop :=
  StopsExponent exponent rest ∧ (fraction = [] → exponent = [] → NoPoint rest)

theorem noDigit_nil : NoDigit [] := by simp [NoDigit]

theorem stopsFraction_nil (fraction exponent : List Char) : StopsFraction fraction exponent [] :=
  ⟨⟨noDigit_nil, fun _ => by simp [NoMark]⟩, fun _ _ => by simp [NoPoint]⟩

/-- Every text begins with digits, if only with none, up to where there is no further one. -/
theorem exists_digits (text : List Char) :
    ∃ digits rest, text = digits ++ rest ∧ (∀ c ∈ digits, IsDigit c) ∧ NoDigit rest := by
  induction text with
  | nil => exact ⟨[], [], rfl, by simp, noDigit_nil⟩
  | cons c text inductionHypothesis =>
    by_cases digit : IsDigit c
    · obtain ⟨digits, rest, rfl, isDigits, stops⟩ := inductionHypothesis
      exact ⟨c :: digits, rest, rfl, List.forall_mem_cons.mpr ⟨digit, isDigits⟩, stops⟩
    · exact ⟨[], c :: text, rfl, by simp, by simpa [NoDigit] using digit⟩

theorem exists_value_of_isDigit {c : Char} (digit : IsDigit c) : ∃ d, decimalDigit? c = some d :=
  Option.isSome_iff_exists.mp digit

theorem IsDigits.exists_cons {digits : List Char} (isDigits : IsDigits digits) :
    ∃ c others d, digits = c :: others ∧ decimalDigit? c = some d ∧ ∀ x ∈ others, IsDigit x := by
  obtain ⟨nonempty, all⟩ := isDigits
  obtain ⟨c, others, rfl⟩ := List.exists_cons_of_ne_nil nonempty
  obtain ⟨first, behind⟩ := List.forall_mem_cons.mp all
  obtain ⟨d, value⟩ := exists_value_of_isDigit first
  exact ⟨c, others, d, rfl, value, behind⟩

theorem decimalDigit?_of_not_isDigit {c : Char} (other : ¬ IsDigit c) : decimalDigit? c = none := by
  simpa [IsDigit] using other

/-! ## Digits -/

section Digits

variable {digits : List Char} (isDigits : ∀ c ∈ digits, IsDigit c)

include isDigits

theorem readWhole_digits (s : Significand) :
    ∃ after, ∀ rest, NoDigit rest → readWhole s (digits ++ rest) = (after, rest) := by
  induction digits generalizing s with
  | nil =>
    refine ⟨s, fun rest stops => ?_⟩
    cases rest with
    | nil => rfl
    | cons c rest => simp [readWhole, decimalDigit?_of_not_isDigit (stops c rfl)]
  | cons c digits inductionHypothesis =>
    obtain ⟨first, others⟩ := List.forall_mem_cons.mp isDigits
    obtain ⟨d, value⟩ := exists_value_of_isDigit first
    obtain ⟨after, reads⟩ := inductionHypothesis others (s.pushWhole d)
    exact ⟨after, fun rest stops => by simp [readWhole, value, reads rest stops]⟩

theorem readFraction_digits (s : Significand) :
    ∃ after, ∀ rest, NoDigit rest → readFraction s (digits ++ rest) = (after, rest) := by
  induction digits generalizing s with
  | nil =>
    refine ⟨s, fun rest stops => ?_⟩
    cases rest with
    | nil => rfl
    | cons c rest => simp [readFraction, decimalDigit?_of_not_isDigit (stops c rfl)]
  | cons c digits inductionHypothesis =>
    obtain ⟨first, others⟩ := List.forall_mem_cons.mp isDigits
    obtain ⟨d, value⟩ := exists_value_of_isDigit first
    obtain ⟨after, reads⟩ := inductionHypothesis others (s.pushFraction d)
    exact ⟨after, fun rest stops => by simp [readFraction, value, reads rest stops]⟩

theorem skipDigits_digits {rest : List Char} (stops : NoDigit rest) :
    skipDigits (digits ++ rest) = rest := by
  induction digits with
  | nil =>
    cases rest with
    | nil => rfl
    | cons c rest => simp [skipDigits, decimalDigit?_of_not_isDigit (stops c rfl)]
  | cons c digits inductionHypothesis =>
    obtain ⟨first, others⟩ := List.forall_mem_cons.mp isDigits
    have digit : (decimalDigit? c).isSome = true := first
    rw [List.cons_append, skipDigits, List.dropWhile_cons, if_pos digit]
    exact inductionHypothesis others

/-- An exponent is counted out, or some of its digits are left over. -/
theorem readExponentDigits_digits (value : Nat) :
    (∃ exponent, ∀ rest, NoDigit rest →
        readExponentDigits value (digits ++ rest) = (some exponent, rest)) ∨
      ∃ left : List Char, (∀ c ∈ left, IsDigit c) ∧
        ∀ rest, readExponentDigits value (digits ++ rest) = (none, left ++ rest) := by
  induction digits generalizing value with
  | nil =>
    refine .inl ⟨value, fun rest stops => ?_⟩
    cases rest with
    | nil => rfl
    | cons c rest => simp [readExponentDigits, decimalDigit?_of_not_isDigit (stops c rfl)]
  | cons c digits inductionHypothesis =>
    obtain ⟨first, others⟩ := List.forall_mem_cons.mp isDigits
    obtain ⟨d, digit⟩ := exists_value_of_isDigit first
    by_cases great : greatestExponent < value * 10 + d
    · exact .inr ⟨digits, others, fun rest => by simp [readExponentDigits, digit, great]⟩
    · obtain ⟨exponent, reads⟩ | ⟨left, isLeft, reads⟩ :=
        inductionHypothesis others (value * 10 + d)
      · exact .inl ⟨exponent, fun rest stops => by
          simp [readExponentDigits, digit, great, reads rest stops]⟩
      · exact .inr ⟨left, isLeft, fun rest => by
          simp [readExponentDigits, digit, great, reads rest]⟩

end Digits

/-! ## Numbers that are the same whatever follows -/

/-- What is read of a text is the same number, or none, whatever rest follows it that stops it. -/
def Settled (read : List Char → Step Number) (text : List Char) (stops : List Char → Prop) : Prop :=
  ∃ number : Option Number, ∀ rest, stops rest →
    (read (text ++ rest)).toOption = number.map fun n => (n, rest)

variable (negative : Bool) (s : Significand)

theorem settled_makeReal (power : Int) (text : List Char) (stops : List Char → Prop)
    (read : List Char → Step Number)
    (reads : ∀ rest, stops rest → read (text ++ rest) = makeReal negative s power rest) :
    Settled read text stops := by
  refine ⟨(Decimal.Binary64.ofDecimal negative s.digits power).map .real, fun rest stopped => ?_⟩
  rw [reads rest stopped, makeReal]
  cases Decimal.Binary64.ofDecimal negative s.digits power <;> rfl

/-- Reads the digits of an exponent; `down` says that its sign is a minus. -/
def readPower (down : Bool) : List Char → Step Number
  | [] => .error (.before .endInValue [])
  | c :: rest =>
    match decimalDigit? c with
    | none => .error (.past .invalidNumber (c :: rest))
    | some d =>
      match readExponentDigits d rest with
      | (some e, rest) =>
        makeReal negative s (if down then s.power - (e : Int) else s.power + (e : Int)) rest
      | (none, rest) =>
        if s.digits ≠ 0 ∧ ¬ down then .error (.before .numberOutOfRange rest)
        else .ok (.real (.zero negative), skipDigits rest)

theorem readExponent_sign {sign : List Char} (isSign : IsSign sign) :
    ∃ down, ∀ text, (∀ c ∈ text.head?, c ≠ '+' ∧ c ≠ '-') →
      readExponent negative s (sign ++ text) = readPower negative s down text := by
  obtain rfl | rfl | rfl := isSign
  · refine ⟨false, fun text unsigned => ?_⟩
    cases text with
    | nil => rfl
    | cons c text =>
      obtain ⟨plus, minus⟩ := unsigned c rfl
      rw [List.nil_append, readExponent]
      · rfl
      · simpa using plus
      · simpa using minus
  · exact ⟨false, fun text _ => rfl⟩
  · exact ⟨true, fun text _ => rfl⟩

theorem settled_readPower (down : Bool) {digits : List Char} (isDigits : IsDigits digits) :
    Settled (readPower negative s down) digits NoDigit := by
  obtain ⟨c, digits, d, rfl, digit, others⟩ := isDigits.exists_cons
  obtain ⟨exponent, reads⟩ | ⟨left, isLeft, reads⟩ := readExponentDigits_digits others d
  · let power := if down then s.power - (exponent : Int) else s.power + (exponent : Int)
    exact settled_makeReal negative s power _ _ _ fun rest stops => by
      simp [readPower, digit, reads rest stops, power]
  · by_cases great : s.digits ≠ 0 ∧ ¬ down
    · exact ⟨none, fun rest _ => by simp [readPower, digit, reads rest, great, Except.toOption]⟩
    · exact ⟨some (.real (.zero negative)), fun rest stops => by
        simp only [List.cons_append, readPower, digit, reads rest, if_neg great,
          skipDigits_digits isLeft stops]
        rfl⟩

theorem head?_ne_of_isDigits {digits : List Char} (isDigits : IsDigits digits) {c : Char}
    (other : ¬ IsDigit c) (rest : List Char) : ∀ x ∈ (digits ++ rest).head?, x ≠ c := by
  obtain ⟨first, digits, d, rfl, digit, -⟩ := isDigits.exists_cons
  rintro x member rfl
  cases member
  exact other (Option.isSome_iff_exists.mpr ⟨d, digit⟩)

theorem settled_readExponent {sign digits : List Char} (isSign : IsSign sign)
    (isDigits : IsDigits digits) : Settled (readExponent negative s) (sign ++ digits) NoDigit := by
  obtain ⟨down, reads⟩ := readExponent_sign negative s isSign
  obtain ⟨number, settled⟩ := settled_readPower negative s down isDigits
  refine ⟨number, fun rest stops => ?_⟩
  rw [List.append_assoc, reads _ fun c member =>
    ⟨head?_ne_of_isDigits isDigits (by decide) rest c member,
      head?_ne_of_isDigits isDigits (by decide) rest c member⟩]
  exact settled rest stops

theorem readAfterFraction_of_noMark {rest : List Char} (stops : NoMark rest) :
    readAfterFraction negative s rest = makeReal negative s s.power rest := by
  unfold readAfterFraction
  split
  · exact absurd rfl (stops 'e' rfl).1
  · exact absurd rfl (stops 'E' rfl).2
  · rfl

theorem settled_readAfterFraction {exponent : List Char} (isExponent : IsExponent exponent) :
    Settled (readAfterFraction negative s) exponent (StopsExponent exponent) := by
  cases isExponent with
  | absent =>
    exact settled_makeReal negative s s.power _ _ _ fun rest stops =>
      readAfterFraction_of_noMark negative s (stops.2 rfl)
  | power mark isSign isDigits =>
    obtain ⟨number, settled⟩ := settled_readExponent negative s isSign isDigits
    refine ⟨number, fun rest stops => ?_⟩
    obtain rfl | rfl := mark <;> exact settled rest stops.1

theorem noDigit_exponent {exponent rest : List Char} (isExponent : IsExponent exponent)
    (stops : NoDigit rest) : NoDigit (exponent ++ rest) := by
  cases isExponent with
  | absent => exact stops
  | power mark isSign isDigits =>
    rintro c member
    cases member
    obtain rfl | rfl := mark <;> decide

theorem settled_makeInteger (text : List Char) (stops : List Char → Prop)
    (read : List Char → Step Number)
    (reads : ∀ rest, stops rest → read (text ++ rest) = makeInteger negative s rest) :
    Settled read text stops := by
  by_cases full : s.full = true
  · exact settled_makeReal negative s s.power _ _ _ fun rest stopped => by
      simp [reads rest stopped, makeInteger, full]
  by_cases positive : ¬ negative
  · exact ⟨some (.int s.digits), fun rest stopped => by
      simp [reads rest stopped, makeInteger, full, positive, Except.toOption]⟩
  by_cases small : s.digits ≠ 0 ∧ s.digits ≤ greatestMagnitude
  · exact ⟨some (.int (-(s.digits : Int))), fun rest stopped => by
      simp [reads rest stopped, makeInteger, full, positive, small, Except.toOption]⟩
  · exact settled_makeReal true s 0 _ _ _ fun rest stopped => by
      simp [reads rest stopped, makeInteger, full, positive, small]

theorem readPoint_digits {digits : List Char} (isDigits : IsDigits digits) :
    ∃ after, ∀ rest, NoDigit rest →
      readPoint negative s (digits ++ rest) = readAfterFraction negative after rest := by
  obtain ⟨after, reads⟩ := readFraction_digits isDigits.2 { s with full := false }
  obtain ⟨c, digits, d, rfl, digit, -⟩ := isDigits.exists_cons
  refine ⟨after, fun rest stops => ?_⟩
  have reads := reads rest stops
  rw [List.cons_append] at reads ⊢
  simp [readPoint, digit, reads]

theorem readAfterWhole_of_stops {rest : List Char} (mark : NoMark rest) (point : NoPoint rest) :
    readAfterWhole negative s rest = makeInteger negative s rest := by
  unfold readAfterWhole
  split
  · exact absurd rfl point
  · exact absurd rfl (mark 'e' rfl).1
  · exact absurd rfl (mark 'E' rfl).2
  · rfl

theorem settled_readAfterWhole {fraction exponent : List Char} (isFraction : IsFraction fraction)
    (isExponent : IsExponent exponent) :
    Settled (readAfterWhole negative s) (fraction ++ exponent)
      (StopsFraction fraction exponent) := by
  cases isFraction with
  | absent =>
    cases isExponent with
    | absent =>
      exact settled_makeInteger negative s _ _ _ fun rest stops =>
        readAfterWhole_of_stops negative s (stops.1.2 rfl) (stops.2 rfl rfl)
    | power mark isSign isDigits =>
      obtain ⟨number, settled⟩ := settled_readExponent negative s isSign isDigits
      refine ⟨number, fun rest stops => ?_⟩
      obtain rfl | rfl := mark <;> exact settled rest stops.1.1
  | @point digits isDigits =>
    obtain ⟨after, reads⟩ := readPoint_digits negative s isDigits
    obtain ⟨number, settled⟩ := settled_readAfterFraction negative after isExponent
    refine ⟨number, fun rest stops => ?_⟩
    have point : readAfterWhole negative s ('.' :: digits ++ exponent ++ rest) =
        readPoint negative s (digits ++ (exponent ++ rest)) := by
      simp [readAfterWhole]
    rw [point, reads _ (noDigit_exponent isExponent stops.1.1)]
    exact settled rest stops.1

theorem noDigit_fraction {fraction rest : List Char} (isFraction : IsFraction fraction)
    (stops : NoDigit rest) : NoDigit (fraction ++ rest) := by
  cases isFraction with
  | absent => exact stops
  | point isDigits =>
    rintro c member
    cases member
    decide

theorem readNumber_whole {whole : List Char} (isWhole : IsWhole whole) :
    ∃ after, ∀ rest, NoDigit rest →
      readNumber negative (whole ++ rest) = readAfterWhole negative after rest := by
  obtain rfl | ⟨isDigits, first⟩ := isWhole
  · refine ⟨⟨0, 0, false⟩, fun rest stops => ?_⟩
    cases rest with
    | nil => rfl
    | cons c rest => simp [readNumber, decimalDigit?_of_not_isDigit (stops c rfl)]
  · obtain ⟨c, digits, d, rfl, value, others⟩ := isDigits.exists_cons
    obtain ⟨after, reads⟩ := readWhole_digits others ⟨d, 0, false⟩
    have nonzero : c ≠ '0' := by simpa using first
    refine ⟨after, fun rest stops => ?_⟩
    rw [List.cons_append, readNumber]
    · simp [value, reads rest stops]
    · exact nonzero

theorem settled_readNumber {whole fraction exponent : List Char} (isWhole : IsWhole whole)
    (isFraction : IsFraction fraction) (isExponent : IsExponent exponent) :
    Settled (readNumber negative) (whole ++ fraction ++ exponent)
      (StopsFraction fraction exponent) := by
  obtain ⟨after, reads⟩ := readNumber_whole negative isWhole
  obtain ⟨number, settled⟩ := settled_readAfterWhole negative after isFraction isExponent
  refine ⟨number, fun rest stops => ?_⟩
  have noDigit : NoDigit (fraction ++ (exponent ++ rest)) :=
    noDigit_fraction isFraction (noDigit_exponent isExponent stops.1.1)
  rw [List.append_assoc, List.append_assoc, reads _ noDigit, ← List.append_assoc]
  exact settled rest stops

/-! ## Passing over numbers -/

theorem skipAfterFraction_exponent {exponent rest : List Char} (isExponent : IsExponent exponent)
    (stops : StopsExponent exponent rest) : skipAfterFraction (exponent ++ rest) = .ok rest := by
  cases isExponent with
  | absent =>
    rw [List.nil_append]
    unfold skipAfterFraction
    split
    · exact absurd rfl (stops.2 rfl 'e' rfl).1
    · exact absurd rfl (stops.2 rfl 'E' rfl).2
    · rfl
  | @power e sign digits mark isSign isDigits =>
    have skips : skipExponent (sign ++ (digits ++ rest)) = .ok rest := by
      have unsigned := @head?_ne_of_isDigits digits isDigits
      obtain ⟨c, digits, d, rfl, digit, others⟩ := isDigits.exists_cons
      have plus : c ≠ '+' := unsigned (by decide) rest c rfl
      have minus : c ≠ '-' := unsigned (by decide) rest c rfl
      obtain rfl | rfl | rfl := isSign <;>
        simp [skipExponent, digit, skipDigits_digits others stops.1, plus, minus]
    obtain rfl | rfl := mark <;> simpa [skipAfterFraction] using skips

theorem skipAfterWhole_point {digits rest : List Char} (isDigits : IsDigits digits)
    (stops : NoDigit rest) : skipAfterWhole ('.' :: (digits ++ rest)) = skipAfterFraction rest := by
  have behind := skipDigits_digits isDigits.2 stops
  obtain ⟨c, digits, d, rfl, digit, -⟩ := isDigits.exists_cons
  rw [List.cons_append] at behind ⊢
  simp [skipAfterWhole, digit, behind]

theorem skipAfterWhole_fraction {fraction exponent rest : List Char}
    (isFraction : IsFraction fraction) (isExponent : IsExponent exponent)
    (stops : StopsFraction fraction exponent rest) :
    skipAfterWhole (fraction ++ (exponent ++ rest)) = .ok rest := by
  have skips := skipAfterFraction_exponent isExponent stops.1
  cases isFraction with
  | absent =>
    have point : NoPoint (exponent ++ rest) := by
      cases isExponent with
      | absent => exact stops.2 rfl rfl
      | power mark isSign isDigits => obtain rfl | rfl := mark <;> simp [NoPoint]
    rw [List.nil_append]
    unfold skipAfterWhole
    split
    next equal => simp [equal, NoPoint] at point
    next => exact skips
  | point isDigits =>
    exact (skipAfterWhole_point isDigits (noDigit_exponent isExponent stops.1.1)).trans skips

theorem skipNumber_whole {whole rest : List Char} (isWhole : IsWhole whole)
    (stops : NoDigit rest) : skipNumber (whole ++ rest) = skipAfterWhole rest := by
  obtain rfl | ⟨isDigits, first⟩ := isWhole
  · cases rest with
    | nil => rfl
    | cons c rest => simp [skipNumber, decimalDigit?_of_not_isDigit (stops c rfl)]
  · obtain ⟨c, digits, d, rfl, value, others⟩ := isDigits.exists_cons
    have nonzero : c ≠ '0' := by simpa using first
    rw [List.cons_append, skipNumber]
    · simp [value, skipDigits_digits others stops]
    · exact nonzero

theorem skipNumber_parts {whole fraction exponent rest : List Char} (isWhole : IsWhole whole)
    (isFraction : IsFraction fraction) (isExponent : IsExponent exponent)
    (stops : StopsFraction fraction exponent rest) :
    skipNumber (whole ++ fraction ++ exponent ++ rest) = .ok rest := by
  rw [List.append_assoc, List.append_assoc, skipNumber_whole isWhole]
  · exact skipAfterWhole_fraction isFraction isExponent stops
  · exact noDigit_fraction isFraction (noDigit_exponent isExponent stops.1.1)

/-! ## What is no number -/

def Fails (outcome : Except ε α) : Prop := ∀ a, outcome ≠ .ok a

theorem fails_error (e : ε) : Fails (.error e : Except ε α) := by simp [Fails]

theorem fails_readPower (down : Bool) {text : List Char} (noDigit : NoDigit text) :
    Fails (readPower negative s down text) := by
  cases text with
  | nil => exact fails_error _
  | cons c text =>
    rw [readPower, decimalDigit?_of_not_isDigit (noDigit c rfl)]
    exact fails_error _

/-- Behind the sign of an exponent there has to be a digit. -/
theorem exists_sign (text : List Char) :
    ∃ sign behind, IsSign sign ∧ text = sign ++ behind ∧
      (NoDigit behind →
        (∀ negative s, Fails (readExponent negative s text)) ∧ Fails (skipExponent text)) := by
  have skipped {text : List Char} (noDigit : NoDigit text) :
      Fails (skipExponent ('+' :: text)) ∧ Fails (skipExponent ('-' :: text)) := by
    cases text with
    | nil => exact ⟨fails_error _, fails_error _⟩
    | cons c text =>
      simp [skipExponent, decimalDigit?_of_not_isDigit (noDigit c rfl), fails_error]
  cases text with
  | nil =>
    exact ⟨[], [], .inl rfl, rfl, fun _ => ⟨fun _ _ => fails_error _, fails_error _⟩⟩
  | cons c text =>
    by_cases plus : c = '+'
    · subst plus
      exact ⟨['+'], text, .inr (.inl rfl), rfl, fun noDigit =>
        ⟨fun negative s => fails_readPower negative s false noDigit, (skipped noDigit).1⟩⟩
    by_cases minus : c = '-'
    · subst minus
      exact ⟨['-'], text, .inr (.inr rfl), rfl, fun noDigit =>
        ⟨fun negative s => fails_readPower negative s true noDigit, (skipped noDigit).2⟩⟩
    refine ⟨[], c :: text, .inl rfl, rfl, fun noDigit => ⟨fun negative s => ?_, ?_⟩⟩
    · obtain ⟨down, reads⟩ := readExponent_sign negative s (.inl rfl)
      have power := reads (c :: text) (by simpa using ⟨plus, minus⟩)
      rw [List.nil_append] at power
      exact power ▸ fails_readPower negative s down noDigit
    · simp [skipExponent, plus, minus, decimalDigit?_of_not_isDigit (noDigit c rfl), fails_error]

theorem exponent_or_fails {text : List Char} (noDigit : NoDigit text) :
    (∃ exponent rest, text = exponent ++ rest ∧ IsExponent exponent ∧
        StopsExponent exponent rest) ∨
      (∀ negative s, Fails (readAfterFraction negative s text) ∧
        Fails (readAfterWhole negative s text)) ∧ Fails (skipAfterFraction text) := by
  by_cases unmarked : NoMark text
  · exact .inl ⟨[], text, rfl, .absent, noDigit, fun _ => unmarked⟩
  obtain ⟨e, text, mark, rfl⟩ : ∃ e rest, (e = 'e' ∨ e = 'E') ∧ text = e :: rest := by
    cases text with
    | nil => simp [NoMark] at unmarked
    | cons e text =>
      exact ⟨e, text, by simpa [NoMark, Decidable.or_iff_not_imp_left] using unmarked, rfl⟩
  obtain ⟨sign, behind, isSign, rfl, fails⟩ := exists_sign text
  obtain ⟨digits, rest, rfl, isDigits, stops⟩ := exists_digits behind
  by_cases nonempty : digits = []
  · subst nonempty
    obtain ⟨reads, skips⟩ := fails stops
    obtain rfl | rfl := mark <;>
      exact .inr ⟨fun negative s => ⟨reads negative s, reads negative s⟩, skips⟩
  · refine .inl ⟨e :: (sign ++ digits), rest, by simp, .power mark isSign ⟨nonempty, isDigits⟩,
      stops, by simp⟩

/-- Behind its first digits a number goes on with a fraction and an exponent, or is refused. -/
theorem fraction_or_fails {text : List Char} (noDigit : NoDigit text) :
    (∃ fraction exponent rest, text = fraction ++ (exponent ++ rest) ∧ IsFraction fraction ∧
        IsExponent exponent ∧ StopsFraction fraction exponent rest) ∨
      (∀ negative s, Fails (readAfterWhole negative s text)) ∧ Fails (skipAfterWhole text) := by
  by_cases point : NoPoint text
  · obtain ⟨exponent, rest, rfl, isExponent, stops⟩ | ⟨reads, skips⟩ := exponent_or_fails noDigit
    · exact .inl ⟨[], exponent, rest, rfl, .absent, isExponent, stops, fun _ none => by
        simpa [none] using point⟩
    · refine .inr ⟨fun negative s => (reads negative s).2, ?_⟩
      unfold skipAfterWhole
      split
      next => exact absurd rfl point
      next => exact skips
  · obtain ⟨behind, rfl⟩ : ∃ behind, text = '.' :: behind := by
      cases text with
      | nil => simp [NoPoint] at point
      | cons c behind => exact ⟨behind, by simpa [NoPoint] using point⟩
    obtain ⟨digits, behind, rfl, isDigits, stops⟩ := exists_digits behind
    by_cases nonempty : digits = []
    · subst nonempty
      cases behind with
      | nil => exact .inr ⟨fun _ _ => fails_error _, fails_error _⟩
      | cons c behind =>
        have other := decimalDigit?_of_not_isDigit (stops c rfl)
        exact .inr ⟨fun negative s => by simp [readAfterWhole, readPoint, other, fails_error],
          by simp [skipAfterWhole, other, fails_error]⟩
    · have isDigits : IsDigits digits := ⟨nonempty, isDigits⟩
      obtain ⟨exponent, rest, rfl, isExponent, stops⟩ | ⟨reads, skips⟩ := exponent_or_fails stops
      · exact .inl ⟨'.' :: digits, exponent, rest, by simp, .point isDigits, isExponent, stops,
          by simp⟩
      · refine .inr ⟨fun negative s => ?_, ?_⟩
        · obtain ⟨after, point⟩ := readPoint_digits negative s isDigits
          have whole : readAfterWhole negative s ('.' :: (digits ++ behind)) =
            readPoint negative s (digits ++ behind) := rfl
          rw [whole, point behind stops]
          exact (reads negative after).1
        · exact skipAfterWhole_point isDigits stops ▸ skips

/-- Every text begins with a number, or none can be read or passed over there. -/
theorem number_or_fails (text : List Char) :
    (∃ whole fraction exponent rest, text = whole ++ fraction ++ exponent ++ rest ∧
        IsWhole whole ∧ IsFraction fraction ∧ IsExponent exponent ∧
        StopsFraction fraction exponent rest) ∨
      (∀ negative, Fails (readNumber negative text)) ∧ Fails (skipNumber text) := by
  obtain ⟨digits, behind, rfl, isDigits, stops⟩ := exists_digits text
  by_cases isWhole : IsWhole digits
  · obtain ⟨fraction, exponent, rest, rfl, isFraction, isExponent, stops⟩ | ⟨reads, skips⟩ :=
      fraction_or_fails stops
    · exact .inl ⟨digits, fraction, exponent, rest, by simp, isWhole, isFraction, isExponent, stops⟩
    · refine .inr ⟨fun negative => ?_, ?_⟩
      · obtain ⟨after, whole⟩ := readNumber_whole negative isWhole
        exact whole behind stops ▸ reads negative after
      · exact skipNumber_whole isWhole stops ▸ skips
  · have shape : digits = [] ∨ ∃ c more, digits = '0' :: c :: more := by
      cases digits with
      | nil => exact .inl rfl
      | cons c digits =>
        obtain rfl : c = '0' := Decidable.byContradiction fun nonzero =>
          isWhole (.inr ⟨⟨by simp, isDigits⟩, by simpa using nonzero⟩)
        cases digits with
        | nil => exact absurd (.inl rfl) isWhole
        | cons d digits => exact .inr ⟨d, digits, rfl⟩
    refine .inr ?_
    obtain rfl | ⟨c, more, rfl⟩ := shape
    · cases behind with
      | nil => exact ⟨fun _ => fails_error _, fails_error _⟩
      | cons c behind =>
        have other := decimalDigit?_of_not_isDigit (stops c rfl)
        have nonzero : c ≠ '0' := by
          rintro rfl
          cases other
        constructor
        · intro negative
          rw [List.nil_append, readNumber]
          · simp [other, fails_error]
          · exact nonzero
        · rw [List.nil_append, skipNumber]
          · simp [other, fails_error]
          · exact nonzero
    · obtain ⟨d, digit⟩ := exists_value_of_isDigit (isDigits c (by simp))
      exact ⟨fun negative => by simp [readNumber, digit, fails_error],
        by simp [skipNumber, digit, fails_error]⟩

/-! ## Numbers in a text -/

theorem toOption_eq_some {outcome : Except ε α} {a : α} :
    outcome.toOption = some a ↔ outcome = .ok a := by
  cases outcome <;> simp [Except.toOption]

/-- What is read as a number is spelled as one, and would be the same number by itself. -/
theorem magnitude_of_readNumber {text rest : List Char} {n : Number}
    (reads : readNumber negative text = .ok (n, rest)) :
    ∃ digits, IsMagnitude digits ∧ text = digits ++ rest ∧
      readNumber negative digits = .ok (n, []) := by
  obtain ⟨whole, fraction, exponent, behind, rfl, isWhole, isFraction, isExponent, stops⟩ |
    ⟨fails, -⟩ := number_or_fails text
  · obtain ⟨number, settled⟩ := settled_readNumber negative isWhole isFraction isExponent
    -- The number does not depend on what is behind it, so nothing may be behind it.
    have here := settled behind stops
    rw [toOption_eq_some.mpr reads] at here
    obtain ⟨n', rfl, equal⟩ := Option.map_eq_some_iff.mp here.symm
    cases equal
    refine ⟨_, .parts isWhole isFraction isExponent, rfl, ?_⟩
    have alone := settled [] (stopsFraction_nil fraction exponent)
    rw [List.append_nil] at alone
    exact toOption_eq_some.mp alone
  · exact absurd reads (fails negative _)

theorem stopsFraction_of_bounded {rest : List Char} (bounded : Bounded rest)
    (fraction exponent : List Char) : StopsFraction fraction exponent rest := by
  cases rest with
  | nil => exact stopsFraction_nil fraction exponent
  | cons c rest =>
    have mark : ¬ IsDigit c ∧ (c ≠ 'e' ∧ c ≠ 'E') ∧ c ≠ '.' := by
      obtain space | rfl | rfl | rfl := bounded c rfl
      · obtain rfl | rfl | rfl | rfl := isSpace_iff.mp space <;> decide
      all_goals decide
    obtain ⟨digit, exponentMark, point⟩ := mark
    exact ⟨⟨by simpa [NoDigit] using digit, fun _ => by simpa [NoMark] using exponentMark⟩,
      fun _ _ => by simpa [NoPoint] using point⟩

/-- Where a document can end, a number ends too. -/
theorem readNumber_of_bounded {digits rest : List Char} {n : Number}
    (magnitude : IsMagnitude digits) (bounded : Bounded rest)
    (alone : readNumber negative digits = .ok (n, [])) :
    readNumber negative (digits ++ rest) = .ok (n, rest) := by
  obtain ⟨isWhole, isFraction, isExponent⟩ := magnitude
  obtain ⟨number, settled⟩ := settled_readNumber negative isWhole isFraction isExponent
  have single := settled [] (stopsFraction_nil _ _)
  rw [List.append_nil, toOption_eq_some.mpr alone] at single
  obtain ⟨n', rfl, equal⟩ := Option.map_eq_some_iff.mp single.symm
  cases equal
  exact toOption_eq_some.mp (settled rest (stopsFraction_of_bounded bounded _ _))

theorem magnitude_of_skipNumber {text rest : List Char} (skips : skipNumber text = .ok rest) :
    ∃ digits, IsMagnitude digits ∧ text = digits ++ rest := by
  obtain ⟨whole, fraction, exponent, behind, rfl, isWhole, isFraction, isExponent, stops⟩ |
    ⟨-, fails⟩ := number_or_fails text
  · rw [skipNumber_parts isWhole isFraction isExponent stops] at skips
    cases skips
    exact ⟨_, .parts isWhole isFraction isExponent, rfl⟩
  · exact absurd skips (fails _)

theorem skipNumber_of_bounded {digits rest : List Char} (magnitude : IsMagnitude digits)
    (bounded : Bounded rest) : skipNumber (digits ++ rest) = .ok rest := by
  obtain ⟨isWhole, isFraction, isExponent⟩ := magnitude
  exact skipNumber_parts isWhole isFraction isExponent (stopsFraction_of_bounded bounded _ _)

end PawnQuery.Json
