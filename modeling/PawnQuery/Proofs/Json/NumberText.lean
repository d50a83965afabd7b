import PawnQuery.Json.Writer
import PawnQuery.Proofs.Json.Values

/-!
# What is written of numbers

An integer is written as it is read.  A fraction is written by its significant digits, in full or
with an exponent; either is a number as JSON knows it.
-/

namespace PawnQuery.Json

open PawnQuery.Decimal (Binary64 Digits Interval Layout digitText digitsOf dropTrailingZeros)

/-! ## Integers -/

theorem decimalDigit?_digitChar {d : Nat} (small : d < 10) :
    decimalDigit? d.digitChar = some d := by
  revert d
  decide

theorem readWhole_append {s after : Significand} {text : List Char}
    (reads : readWhole s text = (after, [])) (rest : List Char) :
    readWhole s (text ++ rest) = readWhole after rest := by
  induction text generalizing s with
  | nil =>
    cases reads
    rfl
  | cons c text inductionHypothesis =>
    rw [readWhole] at reads
    rw [List.cons_append, readWhole]
    split at reads
    next => exact inductionHypothesis reads
    next => cases reads

/-- The digits of a positive number do not begin with a zero, and read back as the number if it
fits. -/
theorem readWhole_toDigits {n : Nat} (positive : 0 < n) :
    ∃ c more d, Nat.toDigits 10 n = c :: more ∧ decimalDigit? c = some d ∧ c ≠ '0' ∧
      (n ≤ greatestInteger → readWhole ⟨d, 0, false⟩ more = (⟨n, 0, false⟩, [])) := by
  induction n using Nat.strongRecOn with
  | _ n inductionHypothesis =>
    by_cases single : n < 10
    · have value := decimalDigit?_digitChar single
      refine ⟨n.digitChar, [], n, Nat.toDigits_of_lt_base single, value, fun zero => ?_,
        fun _ => rfl⟩
      rw [zero] at value
      cases value
      exact absurd positive (lt_irrefl 0)
    · have less : n / 10 < n := by omega
      obtain ⟨c, more, d, digits, first, nonzero, reads⟩ :=
        inductionHypothesis (n / 10) less (by omega)
      refine ⟨c, more ++ [(n % 10).digitChar], d, ?_, first, nonzero, fun small => ?_⟩
      · rw [Nat.toDigits_of_base_le (by decide) (by omega), digits]
        rfl
      · have last : decimalDigit? (n % 10).digitChar = some (n % 10) :=
          decimalDigit?_digitChar (Nat.mod_lt n (by decide))
        have whole : n / 10 * 10 + n % 10 = n := by omega
        have fits : ¬ greatestInteger < n := Nat.not_lt.mpr small
        rw [readWhole_append (reads (by omega))]
        simp [readWhole, last, Significand.pushWhole, whole, fits]

theorem isDigit_of_mem_toDigits {n : Nat} {c : Char} (listed : c ∈ Nat.toDigits 10 n) :
    IsDigit c := by
  have digit := Nat.isDigit_of_mem_toDigits (by decide) (by decide) listed
  have range : '0' ≤ c ∧ c ≤ '9' := by
    simpa [Char.isDigit, Char.le_def, UInt32.le_iff_toNat_le] using digit
  simp [IsDigit, decimalDigit?, range]

theorem isDigits_toDigits (n : Nat) : IsDigits (Nat.toDigits 10 n) :=
  ⟨List.ne_nil_of_length_pos Nat.length_toDigits_pos, fun _ => isDigit_of_mem_toDigits⟩

theorem isMagnitude_toDigits (n : Nat) : IsMagnitude (Nat.toDigits 10 n) := by
  have whole : IsWhole (Nat.toDigits 10 n) := by
    obtain rfl | positive := Nat.eq_zero_or_pos n
    · exact .inl rfl
    · obtain ⟨c, more, d, digits, -, nonzero, -⟩ := readWhole_toDigits positive
      exact .inr ⟨isDigits_toDigits n, by simpa [digits] using nonzero⟩
  have parts := IsMagnitude.parts whole .absent .absent
  rwa [List.append_nil, List.append_nil] at parts

theorem readNumber_toDigits {n : Nat} (small : n ≤ greatestInteger) (negative : Bool) :
    readNumber negative (Nat.toDigits 10 n) = makeInteger negative ⟨n, 0, false⟩ [] := by
  obtain rfl | positive := Nat.eq_zero_or_pos n
  · rfl
  · obtain ⟨c, more, d, digits, first, nonzero, reads⟩ := readWhole_toDigits positive
    rw [digits, readNumber]
    · simp [first, reads small, readAfterWhole]
    · exact nonzero

theorem text_ofNat (n : Nat) : (Number.int (.ofNat n)).text.toList = Nat.toDigits 10 n :=
  Nat.toList_repr

theorem text_negSucc (n : Nat) :
    (Number.int (.negSucc n)).text.toList = '-' :: Nat.toDigits 10 (n + 1) := by
  have sign : (Number.int (.negSucc n)).text = "-" ++ (n + 1).repr := rfl
  rw [sign, String.toList_append, Nat.toList_repr]
  rfl

theorem isNumber_int (i : Int) : IsNumber (Number.int i).text.toList := by
  cases i with
  | ofNat n => exact text_ofNat n ▸ .positive (isMagnitude_toDigits n)
  | negSucc n => exact text_negSucc n ▸ .negative (isMagnitude_toDigits (n + 1))

theorem denotes_int {i : Int} (inRange : (Number.int i).InRange) (depth : Nat) :
    Denotes depth (.number (Number.int i).text.toList) (.number (.int i)) := by
  obtain ⟨least, greatest⟩ := inRange
  cases i with
  | ofNat n =>
    have small : n ≤ greatestInteger := by simpa using greatest
    rw [text_ofNat]
    exact .positive ((readNumber_toDigits small false).trans rfl)
  | negSucc n =>
    have small : n + 1 ≤ greatestMagnitude := by omega
    have reads := readNumber_toDigits (Nat.le_trans small (by decide)) true
    have fits : (n + 1 : Nat) ≠ 0 ∧ n + 1 ≤ greatestMagnitude := ⟨Nat.succ_ne_zero n, small⟩
    rw [text_negSucc]
    refine .negative (reads.trans ?_)
    simp only [makeInteger, Bool.false_eq_true, not_true, if_false, if_pos fits]
    rfl

/-! ## Significant digits -/

/-- Digits of a decimal, the first of them not zero. -/
structure Significant (digits : List Nat) : Prop where
  leading : ∃ d more, digits = d :: more ∧ d ≠ 0
  small : ∀ d ∈ digits, d ≤ 9

namespace Significant

variable {digits : List Nat} (significant : Significant digits)

include significant

theorem append_zeros (count : Nat) : Significant (digits ++ List.replicate count 0) := by
  obtain ⟨⟨d, more, rfl, nonzero⟩, small⟩ := significant
  refine ⟨⟨d, _, rfl, nonzero⟩, fun e listed => ?_⟩
  obtain listed | listed := List.mem_append.mp listed
  · exact small e listed
  · exact (List.eq_of_mem_replicate listed).symm ▸ Nat.zero_le 9

theorem take {count : Nat} (some : 0 < count) : Significant (digits.take count) := by
  obtain ⟨⟨d, more, rfl, nonzero⟩, small⟩ := significant
  obtain ⟨count, rfl⟩ := Nat.exists_eq_add_one.mpr some
  exact ⟨⟨d, more.take count, rfl, nonzero⟩, fun e listed => small e (List.mem_of_mem_take listed)⟩

theorem withoutTrailingZeros : Significant (dropTrailingZeros digits) := by
  obtain ⟨⟨d, more, rfl, nonzero⟩, small⟩ := significant
  have kept : dropTrailingZeros (d :: more) = d :: (more.reverse.dropWhile (· == 0)).reverse := by
    rw [dropTrailingZeros, List.reverse_cons, List.dropWhile_append]
    split
    next none => simp [nonzero, List.isEmpty_iff.mp none]
    next => simp
  refine ⟨⟨d, _, kept, nonzero⟩, fun e listed => small e ?_⟩
  have sublist := List.dropWhile_sublist (l := (d :: more).reverse) (· == 0)
  simpa [or_comm] using sublist.subset (List.mem_reverse.mp listed)

end Significant

theorem IsDigit.range {c : Char} (digit : IsDigit c) :
    '0'.toNat ≤ c.toNat ∧ c.toNat ≤ '0'.toNat + 9 := by
  obtain ⟨d, digit⟩ := Option.isSome_iff_exists.mp digit
  unfold decimalDigit? at digit
  split at digit
  next range => exact range
  next => cases digit

theorem significant_digitsOf {n : Nat} (positive : 0 < n) : Significant (digitsOf n) := by
  obtain ⟨c, more, d, digits, first, nonzero, -⟩ := readWhole_toDigits positive
  have leading : c.toNat - '0'.toNat ≠ 0 := by
    have digit : IsDigit c := by simp [IsDigit, first]
    have range := digit.range
    have other : c.toNat ≠ '0'.toNat := fun same => nonzero (Char.toNat_inj.mp same)
    omega
  refine ⟨⟨_, _, by rw [digitsOf, digits]; rfl, leading⟩, fun d listed => ?_⟩
  obtain ⟨c, among, rfl⟩ := List.mem_map.mp listed
  have range := (isDigit_of_mem_toDigits among).range
  omega

/-! ## Texts of digits -/

theorem toList_digitText (digits : List Nat) :
    (digitText digits).toList = digits.map fun d => Char.ofNat ('0'.toNat + d) :=
  String.toList_ofList

theorem isDigits_digitText {digits : List Nat} (some : digits ≠ []) (small : ∀ d ∈ digits, d ≤ 9) :
    IsDigits (digitText digits).toList := by
  have digit : ∀ d ≤ 9, IsDigit (Char.ofNat ('0'.toNat + d)) := by decide
  rw [toList_digitText]
  refine ⟨by simpa using some, fun c listed => ?_⟩
  obtain ⟨d, among, rfl⟩ := List.mem_map.mp listed
  exact digit d (small d among)

theorem Significant.isWhole {digits : List Nat} (significant : Significant digits) :
    IsWhole (digitText digits).toList := by
  have nonzeroDigit : ∀ d ≤ 9, d ≠ 0 → Char.ofNat ('0'.toNat + d) ≠ '0' := by decide
  obtain ⟨⟨d, more, rfl, nonzero⟩, small⟩ := significant
  refine .inr ⟨isDigits_digitText (List.cons_ne_nil d more) small, ?_⟩
  rw [toList_digitText]
  simpa using nonzeroDigit d (small d List.mem_cons_self) nonzero

theorem isDigits_zero : IsDigits ['0'] :=
  ⟨List.cons_ne_nil _ _, List.forall_mem_singleton.mpr rfl⟩

theorem isMagnitude_point {whole fraction : List Char} (isWhole : IsWhole whole)
    (isDigits : IsDigits fraction) : IsMagnitude (whole ++ '.' :: fraction) := by
  have parts := IsMagnitude.parts isWhole (.point isDigits) .absent
  rwa [List.append_nil] at parts

/-! ## Fractions -/

section Layout

variable {layout : Layout} {d : Digits} (significant : Significant d.digits)

include significant

theorem isMagnitude_positional (full : layout.leastPositional ≤ d.power ∧
    d.power ≤ layout.greatestPositional) : IsMagnitude (layout.render d).toList := by
  rw [Layout.render, if_pos full]
  by_cases large : 0 ≤ d.power
  · have padded := significant.append_zeros (d.power.toNat + 1 - d.digits.length)
    have isWhole := (padded.take (Nat.succ_pos d.power.toNat)).isWhole
    simp only [if_pos large, String.toList_append, List.append_assoc]
    refine isMagnitude_point isWhole ?_
    split
    next => exact isDigits_zero
    next some =>
      exact isDigits_digitText (by simpa using some) fun e listed =>
        padded.small e (List.mem_of_mem_drop listed)
  · obtain ⟨first, more, digits, -⟩ := significant.leading
    have zero : IsWhole ['0'] := .inl rfl
    simp only [if_neg large, String.toList_append]
    refine isMagnitude_point zero (isDigits_digitText (by simp [digits]) fun e listed => ?_)
    obtain listed | listed := List.mem_append.mp listed
    · exact (List.eq_of_mem_replicate listed).symm ▸ Nat.zero_le 9
    · exact significant.small e listed

theorem isMagnitude_scientific (mark : layout.exponentMark = 'e')
    (exponent : ¬ (layout.leastPositional ≤ d.power ∧ d.power ≤ layout.greatestPositional)) :
    IsMagnitude (layout.render d).toList := by
  have isWhole := (significant.take Nat.one_pos).isWhole
  have isFraction : IsFraction
      (if (d.digits.drop 1).isEmpty then "" else "." ++ digitText (d.digits.drop 1)).toList := by
    split
    next => exact .absent
    next some =>
      rw [String.toList_append]
      exact .point (isDigits_digitText (by simpa using some) fun e listed =>
        significant.small e (List.mem_of_mem_drop listed))
  have isSign : IsSign (if d.power < 0 then "-" else "+").toList := by
    split
    · exact .inr (.inr rfl)
    · exact .inr (.inl rfl)
  have isExponent := IsExponent.power (.inl rfl) isSign (isDigits_toDigits d.power.natAbs)
  have power : (toString d.power.natAbs).toList = Nat.toDigits 10 d.power.natAbs :=
    Nat.toList_repr
  have letter : 'e'.toString.toList = ['e'] := by decide
  rw [Layout.render, if_neg exponent, mark]
  simpa only [String.toList_append, power, letter, List.append_assoc, List.cons_append,
    List.nil_append] using IsMagnitude.parts isWhole isFraction isExponent

end Layout

/-- Of the decimals that single out a number other than zero none is zero. -/
theorem shortest_ne_zero {i : Interval} (positive : i.value ≠ 0) (power : Int)
    (done more : Nat) : (i.shortest power done more).1 ≠ 0 := by
  induction more generalizing done with
  | zero => exact positive
  | succ more inductionHypothesis =>
    rw [Interval.shortest]
    split
    next n _ =>
      split
      next => exact inductionHypothesis (done + 1)
      next nonzero => exact nonzero
    next => exact inductionHypothesis (done + 1)

theorem significant_shortest {x : Binary64} (nonzero : x.isZero = false) :
    Significant x.shortest.digits := by
  have value : x.interval.value ≠ 0 := by
    have mantissa : x.mantissa ≠ 0 := by simpa [Binary64.isZero] using nonzero
    have unit : (Decimal.scaled 1 1 (x.exponent - 2)).1 ≠ 0 := by
      unfold Decimal.scaled
      split
      · simp
      · exact Nat.one_ne_zero
    exact Nat.mul_ne_zero (Nat.mul_ne_zero (by decide) mantissa) unit
  have positive := shortest_ne_zero value
    (Decimal.leadingPower x.interval.value x.interval.den) 0 18
  exact (significant_digitsOf (Nat.pos_of_ne_zero positive)).withoutTrailingZeros

theorem isNumber_real (x : Binary64) : IsNumber (Number.real x).text.toList := by
  have isMagnitude :
      IsMagnitude (if x.isZero then "0.0" else numberLayout.render x.shortest).toList := by
    split
    next => exact isMagnitude_point (.inl rfl) isDigits_zero
    next some =>
      have significant := significant_shortest (by simpa using some)
      by_cases full : numberLayout.leastPositional ≤ x.shortest.power ∧
          x.shortest.power ≤ numberLayout.greatestPositional
      · exact isMagnitude_positional significant full
      · exact isMagnitude_scientific significant rfl full
  rw [Number.text, Binary64.text, String.toList_append]
  split
  next => exact .negative isMagnitude
  next => exact .positive isMagnitude

end PawnQuery.Json
