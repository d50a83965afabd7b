import PawnQuery.Proofs.Json.Numerals

/-!
# What is read of a document

The reader gives a value just where the grammar has a document that denotes it.  A reader takes as
much of a number as it can, so it agrees with the grammar only where a document can end.
-/

namespace PawnQuery.Json

/-! ## How documents begin -/

theorem head_of_isMagnitude {digits : List Char} (magnitude : IsMagnitude digits) :
    ∃ c more, digits = c :: more ∧ IsDigit c := by
  obtain ⟨isWhole, -, -⟩ := magnitude
  obtain rfl | ⟨⟨nonempty, isDigits⟩, -⟩ := isWhole
  · exact ⟨'0', _, rfl, by decide⟩
  · obtain ⟨c, more, rfl⟩ := List.exists_cons_of_ne_nil nonempty
    exact ⟨c, _, rfl, isDigits c List.mem_cons_self⟩

theorem head_of_isNumber {spelling : List Char} (isNumber : IsNumber spelling) :
    ∃ c more, spelling = c :: more ∧ (c = '-' ∨ IsDigit c) := by
  cases isNumber with
  | positive magnitude =>
    obtain ⟨c, more, equal, digit⟩ := head_of_isMagnitude magnitude
    exact ⟨c, more, equal, .inr digit⟩
  | negative magnitude => exact ⟨'-', _, rfl, .inl rfl⟩

theorem visible_of_isDigit {c : Char} (digit : IsDigit c) : isSpace c = false ∧ c ≠ ']' := by
  refine ⟨eq_false_of_ne_true fun space => ?_, ?_⟩
  · obtain rfl | rfl | rfl | rfl := isSpace_iff.mp space <;> exact absurd digit (by decide)
  · rintro rfl
    exact absurd digit (by decide)

/-- A document begins with no blank and with no end of a list. -/
theorem Written.head {d : Document} {text rest : List Char}
    (written : Written IsNumber d text rest) :
    ∃ c more, text = c :: more ∧ isSpace c = Bool.false ∧ c ≠ ']' := by
  cases written with
  | number spelled =>
    obtain ⟨c, more, rfl, rfl | digit⟩ := head_of_isNumber spelled
    · exact ⟨'-', _, rfl, by decide, by decide⟩
    · exact ⟨c, _, rfl, visible_of_isDigit digit⟩
  | _ => exact ⟨_, _, rfl, by decide, by decide⟩

/-! ## Lengths -/

theorem Gap.length_le {text rest : List Char} (gap : Gap text rest) :
    rest.length ≤ text.length := by
  induction gap with
  | none => exact Nat.le_refl _
  | blank space more inductionHypothesis => exact Nat.le_succ_of_le inductionHypothesis

theorem Separated.length_le {first : Bool} {text rest : List Char}
    (separated : Separated first text rest) : rest.length ≤ text.length := by
  cases separated with
  | first gap => exact gap.length_le
  | next comma gap =>
    have before := comma.length_le
    have behind := gap.length_le
    rw [List.length_cons] at before
    omega

mutual

theorem Written.length_lt {d : Document} {text rest : List Char} :
    Written IsNumber d text rest → rest.length < text.length
  | .null | .true | .false => by
    simp only [List.length_cons]
    omega
  | .number spelled => by
    obtain ⟨c, more, rfl, -⟩ := head_of_isNumber spelled
    simp only [List.length_append, List.length_cons]
    omega
  | .string isBody => by
    simp only [List.length_append, List.length_cons]
    omega
  | .array inside | .object inside => by
    have shorter := inside.length_lt
    rw [List.length_cons]
    omega

theorem WrittenItems.length_lt {first : Bool} {items : List Document} {text rest : List Char} :
    WrittenItems IsNumber first items text rest → rest.length < text.length
  | .closed gap => gap.length_le
  | .item separated written others => by
    have before := separated.length_le
    have item := written.length_lt
    have behind := others.length_lt
    omega

theorem WrittenMembers.length_lt {first : Bool} {members : List (List Char × Document)}
    {text rest : List Char} :
    WrittenMembers IsNumber first members text rest → rest.length < text.length
  | .closed gap => gap.length_le
  | .member separated isBody colon gap written others => by
    have before := separated.length_le
    have mark := colon.length_le
    have blanks := gap.length_le
    have value := written.length_lt
    have behind := others.length_lt
    simp only [List.length_cons, List.length_append] at before mark
    omega

end

/-! ## Reading what is written -/

theorem readValue_gap {text start : List Char} (gap : Gap text start) (fuel depth : Nat) :
    readValue (fuel + 1) depth text = readValue (fuel + 1) depth start := by
  rw [readValue, readValue, skipSpace_of_gap gap]

theorem readValue_minus (fuel depth : Nat) (text : List Char) :
    readValue (fuel + 1) depth ('-' :: text) =
      (readNumber true text).map fun (n, rest) => (.number n, rest) := by
  rw [readValue, skipSpace_cons (by decide)]
  rfl

theorem readValue_digit {c : Char} (digit : IsDigit c) (fuel depth : Nat) (text : List Char) :
    readValue (fuel + 1) depth (c :: text) =
      (readNumber false (c :: text)).map fun (n, rest) => (.number n, rest) := by
  have isDigit : (decimalDigit? c).isSome = true := digit
  rw [readValue, skipSpace_cons (visible_of_isDigit digit).1]
  split
  next equal => cases equal
  case h_9 equal =>
    cases equal
    exact if_pos isDigit
  all_goals
    rename_i equal
    cases equal
    exact absurd digit (by decide)

theorem readValue_number {depth : Nat} {spelling rest : List Char} {v : Value}
    (denotes : Denotes depth (.number spelling) v) (bounded : Bounded rest)
    (spelled : IsNumber spelling) (fuel : Nat) :
    readValue (fuel + 1) depth (spelling ++ rest) = .ok (v, rest) := by
  cases denotes with
  | positive reads =>
    obtain magnitude | magnitude := spelled
    · have behind := readNumber_of_bounded false magnitude bounded reads
      obtain ⟨c, more, rfl, digit⟩ := head_of_isMagnitude magnitude
      rw [List.cons_append] at behind ⊢
      rw [readValue_digit digit, behind]
      rfl
    · cases reads
  | negative reads =>
    cases spelled with
    | positive magnitude =>
      obtain ⟨c, more, equal, digit⟩ := head_of_isMagnitude magnitude
      cases equal
      exact absurd digit (by decide)
    | negative magnitude =>
      rw [List.cons_append, readValue_minus, readNumber_of_bounded true magnitude bounded reads]
      rfl

mutual

/-- Where a document stands that denotes a value, the value is read.  Every step of the reader but
the first takes a character, or the step before it does. -/
theorem readValue_of_written {d : Document} {text rest : List Char} {depth fuel : Nat} {v : Value}
    (denotes : Denotes depth d v) (bounded : Bounded rest)
    (fueled : 2 * text.length ≤ fuel + 2 * rest.length + 2) :
    Written IsNumber d text rest → readValue (fuel + 1) depth text = .ok (v, rest)
  | .null => by
    cases denotes
    rw [readValue, skipSpace_cons (by decide)]
    rfl
  | .true | .false => by
    cases denotes
    rw [readValue, skipSpace_cons (by decide)]
    rfl
  | .number spelled => readValue_number denotes bounded spelled fuel
  | .string isBody => by
    cases denotes with
    | string spells =>
      rw [readValue, skipSpace_cons (by decide)]
      simp only [readString_of_spells spells]
      rfl
  | .array inside => by
    cases denotes with
    | array values =>
      have shorter := inside.length_lt
      rw [List.length_cons] at fueled
      obtain ⟨fuel, rfl⟩ : ∃ less, fuel = less + 1 := ⟨fuel - 1, by omega⟩
      rw [readValue, skipSpace_cons (by decide)]
      exact readItems_of_written values (by omega) inside
  | .object inside => by
    cases denotes with
    | object values =>
      have shorter := inside.length_lt
      rw [List.length_cons] at fueled
      obtain ⟨fuel, rfl⟩ : ∃ less, fuel = less + 1 := ⟨fuel - 1, by omega⟩
      rw [readValue, skipSpace_cons (by decide)]
      exact readMembers_of_written values (by omega) inside

theorem readItems_of_written {first : Bool} {items : List Document} {text rest : List Char}
    {depth fuel : Nat} {values done : List Value} (denotes : DenotesItems depth items values)
    (fueled : 2 * text.length ≤ fuel + 2 * rest.length + 1) :
    WrittenItems IsNumber first items text rest →
      readItems (fuel + 1) depth first done text = .ok (.array (done.reverse ++ values), rest)
  | .closed gap => by
    cases denotes
    rw [readItems, nextItem_eq_finished.mpr gap, List.append_nil]
  | .item separated written others => by
    cases denotes with
    | cons value values =>
      -- The item takes a character, which pays for this step and for its own.
      have before := separated.length_le
      have item := written.length_lt
      have behind := others.length_lt
      obtain ⟨fuel, rfl⟩ : ∃ less, fuel = less + 1 := ⟨fuel - 1, by omega⟩
      have reads := readValue_of_written value (bounded_of_items others)
        (by omega : _ ≤ fuel + _ + 2) written
      obtain ⟨c, more, rfl, visible, closing⟩ := written.head
      rw [readItems, nextItem_of_separated separated visible closing]
      simp only [reads]
      rw [readItems_of_written values (by omega) others]
      simp

theorem readMembers_of_written {first : Bool} {members : List (List Char × Document)}
    {text rest : List Char} {depth fuel : Nat} {done values : List Member}
    (denotes : DenotesMembers depth done members values)
    (fueled : 2 * text.length ≤ fuel + 2 * rest.length + 1) :
    WrittenMembers IsNumber first members text rest →
      readMembers (fuel + 1) depth first done text = .ok (.object values, rest)
  | .closed gap => by
    cases denotes
    rw [readMembers, nextMember_eq_finished.mpr gap]
  | .member separated isBody colon gap written others => by
    cases denotes with
    | cons spells value values =>
      have before := separated.length_le
      have mark := colon.length_le
      have blanks := gap.length_le
      have item := written.length_lt
      have behind := others.length_lt
      simp only [List.length_cons, List.length_append] at before mark
      obtain ⟨fuel, rfl⟩ : ∃ less, fuel = less + 1 := ⟨fuel - 1, by omega⟩
      have reads := readValue_of_written value (bounded_of_members others)
        (by omega : _ ≤ fuel + _ + 2) written
      rw [readMembers, nextMember_eq_name.mpr separated]
      simp only [readString_of_spells spells, readColon_eq_ok.mpr colon, readValue_gap gap, reads]
      exact readMembers_of_written values (by omega) others

end

/-! ## What is read is written -/

variable {depth : Nat} {text rest : List Char} {v : Value}

theorem written_of_word {word : List Char} {constant : Value}
    (reads : (readWord word text).map (fun rest => (constant, rest)) = .ok (v, rest)) :
    text = word ++ rest ∧ v = constant := by
  obtain ⟨behind, word, equal⟩ := map_eq_ok.mp reads
  cases equal
  exact ⟨readWord_eq_ok.mp word, rfl⟩

theorem written_of_negative
    (reads : (readNumber true text).map (fun (n, rest) => (Value.number n, rest)) =
      .ok (v, rest)) :
    ∃ d, Written IsNumber d ('-' :: text) rest ∧ Denotes depth d v := by
  obtain ⟨⟨n, behind⟩, number, equal⟩ := map_eq_ok.mp reads
  cases equal
  obtain ⟨digits, magnitude, rfl, alone⟩ := magnitude_of_readNumber true number
  exact ⟨_, .number (.negative magnitude), .negative alone⟩

theorem written_of_positive
    (reads : (readNumber false text).map (fun (n, rest) => (Value.number n, rest)) =
      .ok (v, rest)) :
    ∃ d, Written IsNumber d text rest ∧ Denotes depth d v := by
  obtain ⟨⟨n, behind⟩, number, equal⟩ := map_eq_ok.mp reads
  cases equal
  obtain ⟨digits, magnitude, rfl, alone⟩ := magnitude_of_readNumber false number
  exact ⟨_, .number (.positive magnitude), .positive alone⟩

mutual

/-- What is read stands in the text as a document that denotes it. -/
theorem written_of_readValue {depth : Nat} {text rest : List Char} {v : Value} :
    (fuel : Nat) → readValue fuel depth text = .ok (v, rest) →
      ∃ d start, Gap text start ∧ Written IsNumber d start rest ∧ Denotes depth d v
  | 0, reads => by
    rw [readValue] at reads
    cases reads
  | fuel + 1, reads => by
    have gap := gap_skipSpace text
    rw [readValue] at reads
    split at reads
    next => cases reads
    next rest equal =>
      obtain ⟨rfl, rfl⟩ := written_of_word reads
      exact ⟨_, _, gap, equal ▸ .null, .null⟩
    next rest equal =>
      obtain ⟨rfl, rfl⟩ := written_of_word reads
      exact ⟨_, _, gap, equal ▸ .true, .bool⟩
    next rest equal =>
      obtain ⟨rfl, rfl⟩ := written_of_word reads
      exact ⟨_, _, gap, equal ▸ .false, .bool⟩
    next rest equal =>
      obtain ⟨⟨s, behind⟩, string, same⟩ := map_eq_ok.mp reads
      cases same
      obtain ⟨body, chars, rfl, spells, rfl⟩ := readString_eq_ok.mp string
      exact ⟨_, _, gap, equal ▸ .string spells.isBody, .string spells⟩
    next rest equal =>
      obtain ⟨d, written, denotes⟩ := written_of_negative reads
      exact ⟨d, _, gap, equal ▸ written, denotes⟩
    next inside equal =>
      split at reads
      next => cases reads
      next depth =>
        obtain ⟨items, values, inside, denotes, rfl⟩ := written_of_readItems fuel reads
        exact ⟨_, _, gap, equal ▸ .array inside, .array denotes⟩
    next inside equal =>
      split at reads
      next => cases reads
      next depth =>
        obtain ⟨members, values, inside, denotes, rfl⟩ := written_of_readMembers fuel reads
        exact ⟨_, _, gap, equal ▸ .object inside, .object denotes⟩
    next equal =>
      split at reads
      next =>
        obtain ⟨d, written, denotes⟩ := written_of_positive reads
        exact ⟨d, _, gap, equal ▸ written, denotes⟩
      next => cases reads

theorem written_of_readItems {depth : Nat} {first : Bool} {done : List Value}
    {text rest : List Char} {v : Value} :
    (fuel : Nat) → readItems fuel depth first done text = .ok (v, rest) →
      ∃ items values, WrittenItems IsNumber first items text rest ∧
        DenotesItems depth items values ∧ v = .array (done.reverse ++ values)
  | 0, reads => by
    rw [readItems] at reads
    cases reads
  | fuel + 1, reads => by
    rw [readItems] at reads
    split at reads
    next => cases reads
    next finished =>
      cases reads
      exact ⟨[], [], .closed (nextItem_eq_finished.mp finished), .nil, by simp⟩
    next start item =>
      split at reads
      next => cases reads
      next value middle valueReads =>
        obtain ⟨d, start, gap, written, denotes⟩ := written_of_readValue fuel valueReads
        obtain ⟨items, values, others, denotesOthers, rfl⟩ := written_of_readItems fuel reads
        have separated := (separated_of_nextItem item).trans gap
        exact ⟨d :: items, value :: values, .item separated written others,
          .cons denotes denotesOthers, by simp⟩

theorem written_of_readMembers {depth : Nat} {first : Bool} {done : List Member}
    {text rest : List Char} {v : Value} :
    (fuel : Nat) → readMembers fuel depth first done text = .ok (v, rest) →
      ∃ members values, WrittenMembers IsNumber first members text rest ∧
        DenotesMembers depth done members values ∧ v = .object values
  | 0, reads => by
    rw [readMembers] at reads
    cases reads
  | fuel + 1, reads => by
    rw [readMembers] at reads
    split at reads
    next => cases reads
    next finished =>
      cases reads
      exact ⟨[], done, .closed (nextMember_eq_finished.mp finished), .nil, rfl⟩
    next member =>
      split at reads
      next => cases reads
      next nameReads =>
        obtain ⟨name, chars, rfl, spells, rfl⟩ := readString_eq_ok.mp nameReads
        split at reads
        next => cases reads
        next colonReads =>
          split at reads
          next => cases reads
          next valueReads =>
            obtain ⟨d, start, gap, written, denotes⟩ := written_of_readValue fuel valueReads
            obtain ⟨members, values, others, denotesOthers, rfl⟩ :=
              written_of_readMembers fuel reads
            exact ⟨(name, d) :: members, values,
              .member (nextMember_eq_name.mp member) spells.isBody
                (readColon_eq_ok.mp colonReads) gap written others,
              .cons spells denotes denotesOthers, rfl⟩

end

/-- A value is read just where a document stands that denotes it, if a document can end there. -/
theorem readValue_eq_ok {fuel : Nat} (bounded : Bounded rest)
    (fueled : 2 * text.length ≤ fuel + 1) :
    readValue fuel depth text = .ok (v, rest) ↔
      ∃ d start, Gap text start ∧ Written IsNumber d start rest ∧ Denotes depth d v := by
  constructor
  · exact written_of_readValue fuel
  · rintro ⟨d, start, gap, written, denotes⟩
    have shorter := written.length_lt
    have before := gap.length_le
    obtain ⟨fuel, rfl⟩ : ∃ less, fuel = less + 1 := ⟨fuel - 1, by omega⟩
    rw [readValue_gap gap]
    exact readValue_of_written denotes bounded (by omega) written

end PawnQuery.Json
