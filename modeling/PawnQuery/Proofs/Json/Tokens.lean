import PawnQuery.Proofs.Json.Grammar

/-!
# Reading tokens

Blanks, words, strings and the marks between documents are read just where the grammar has them.
-/

namespace PawnQuery.Json

/-! ## Steps -/

theorem map_eq_ok {outcome : Except ε α} {f : α → β} {b : β} :
    outcome.map f = .ok b ↔ ∃ a, outcome = .ok a ∧ f a = b := by
  cases outcome <;> simp [Except.map]

theorem bind_eq_ok {outcome : Except ε α} {f : α → Except ε β} {b : β} :
    outcome.bind f = .ok b ↔ ∃ a, outcome = .ok a ∧ f a = .ok b := by
  cases outcome <;> simp [Except.bind]

theorem mapError_eq_ok {outcome : Except ε α} {f : ε → δ} {a : α} :
    outcome.mapError f = .ok a ↔ outcome = .ok a := by
  cases outcome with
  | error e => exact ⟨nofun, nofun⟩
  | ok b =>
    have mapped : (Except.ok b : Except ε α).mapError f = .ok b := rfl
    rw [mapped, Except.ok.injEq, Except.ok.injEq]

/-! ## Blanks and words -/

theorem isSpace_iff {c : Char} :
    isSpace c = true ↔ c = ' ' ∨ c = '\n' ∨ c = '\t' ∨ c = '\r' := by
  simp [isSpace, or_assoc]

theorem gap_skipSpace (text : List Char) : Gap text (skipSpace text) := by
  induction text with
  | nil => exact .none
  | cons c text inductionHypothesis =>
    unfold skipSpace at inductionHypothesis ⊢
    rw [List.dropWhile_cons]
    split
    next space => exact .blank space inductionHypothesis
    next => exact .none

theorem skipSpace_of_gap {text rest : List Char} (gap : Gap text rest) :
    skipSpace text = skipSpace rest := by
  induction gap with
  | none => rfl
  | blank space more inductionHypothesis =>
    rw [← inductionHypothesis, skipSpace, List.dropWhile_cons, if_pos space]
    rfl

theorem skipSpace_cons {c : Char} (visible : isSpace c = false) (rest : List Char) :
    skipSpace (c :: rest) = c :: rest := by
  rw [skipSpace, List.dropWhile_cons, if_neg (by simp [visible])]

theorem Gap.trans {text middle rest : List Char} (before : Gap text middle)
    (behind : Gap middle rest) : Gap text rest := by
  induction before with
  | none => exact behind
  | blank space more inductionHypothesis => exact .blank space (inductionHypothesis behind)

/-- Blanks are passed over up to a character that is none. -/
theorem skipSpace_eq_cons {c : Char} (visible : isSpace c = false) {text rest : List Char} :
    skipSpace text = c :: rest ↔ Gap text (c :: rest) := by
  constructor
  · intro equal
    exact equal ▸ gap_skipSpace text
  · intro gap
    rw [skipSpace_of_gap gap, skipSpace_cons visible]

theorem readWord_eq_ok {word text rest : List Char} :
    readWord word text = .ok rest ↔ text = word ++ rest := by
  induction word generalizing text with
  | nil => simp [readWord]
  | cons w word inductionHypothesis =>
    cases text with
    | nil => simp [readWord]
    | cons c text =>
      simp only [readWord, List.cons_append, List.cons.injEq]
      split
      next same => simp [same, inductionHypothesis]
      next differs => simp [differs]

/-! ## Strings -/

theorem isTrailing_of_isLeading {unit : Nat} (leading : isLeading unit = true) :
    isTrailing unit = false := by
  simp only [isLeading, isTrailing, Bool.and_eq_true, Bool.and_eq_false_iff, decide_eq_true_eq,
    decide_eq_false_iff_not] at leading ⊢
  omega

theorem Spells.isBody {body chars : List Char} (spells : Spells body chars) : IsBody body := by
  induction spells with
  | empty => exact .empty
  | plain visible quote backslash more inductionHypothesis =>
    exact .plain visible quote backslash inductionHypothesis
  | short escape more inductionHypothesis => exact .short (by simp [escape]) inductionHypothesis
  | unit digits whole trailing more inductionHypothesis =>
    exact .unit (by simp [digits]) inductionHypothesis
  | pair digits leading others trailing more inductionHypothesis =>
    exact .unit (by simp [digits]) (.unit (by simp [others]) inductionHypothesis)

theorem readStringFrom_of_spells {body chars : List Char} (spells : Spells body chars)
    (done rest : List Char) :
    readStringFrom done (body ++ '"' :: rest) =
      .ok (String.ofList (done.reverse ++ chars), rest) := by
  induction spells generalizing done with
  | empty => simp [readStringFrom]
  | plain visible quote backslash more inductionHypothesis =>
    rw [List.cons_append, readStringFrom, if_neg (Nat.not_lt.mpr visible), inductionHypothesis]
    · simp
    · exact quote
    · exact backslash
  | @short c x body chars escape more inductionHypothesis =>
    have other : c ≠ 'u' := by
      rintro rfl
      cases escape
    simp only [List.cons_append]
    rw [readStringFrom]
    · simp [escape, inductionHypothesis]
    · exact other
  | unit digits whole trailing more inductionHypothesis =>
    simp [readStringFrom, digits, whole, trailing, inductionHypothesis]
  | pair digits leading others trailing more inductionHypothesis =>
    simp [readStringFrom, digits, leading, isTrailing_of_isLeading leading, others, trailing,
      inductionHypothesis]

theorem spells_of_readStringFrom {done text : List Char} {s : String} {rest : List Char}
    (reads : readStringFrom done text = .ok (s, rest)) :
    ∃ body chars, text = body ++ '"' :: rest ∧ Spells body chars ∧
      s = String.ofList (done.reverse ++ chars) := by
  fun_induction readStringFrom done text with
  | case2 done rest =>
    cases reads
    exact ⟨[], [], rfl, .empty, by simp⟩
  | case7 done a b c d first digits trailing leading e f g h after second others
      trailingSecond inductionHypothesis =>
    obtain ⟨body, chars, rfl, spells, rfl⟩ := inductionHypothesis reads
    exact ⟨_, _, rfl, .pair digits leading others trailingSecond spells, by simp⟩
  | case10 done a b c d after value digits trailing leading inductionHypothesis =>
    obtain ⟨body, chars, rfl, spells, rfl⟩ := inductionHypothesis reads
    exact ⟨_, _, rfl,
      .unit digits (eq_false_of_ne_true leading) (eq_false_of_ne_true trailing) spells, by simp⟩
  | case12 done c after other x escape inductionHypothesis =>
    obtain ⟨body, chars, rfl, spells, rfl⟩ := inductionHypothesis reads
    exact ⟨_, _, rfl, .short escape spells, by simp⟩
  | case15 done c after quote backslash visible inductionHypothesis =>
    obtain ⟨body, chars, rfl, spells, rfl⟩ := inductionHypothesis reads
    exact ⟨_, _, rfl, .plain (Nat.le_of_not_lt visible) quote backslash spells, by simp⟩
  | _ => cases reads

theorem readString_of_spells {body chars : List Char} (spells : Spells body chars)
    (rest : List Char) : readString (body ++ '"' :: rest) = .ok (String.ofList chars, rest) :=
  readStringFrom_of_spells spells [] rest

/-- A string is read just where a body that spells it stands, up to its closing quote. -/
theorem readString_eq_ok {text rest : List Char} {s : String} :
    readString text = .ok (s, rest) ↔
      ∃ body chars, text = body ++ '"' :: rest ∧ Spells body chars ∧ s = String.ofList chars := by
  constructor
  · exact spells_of_readStringFrom
  · rintro ⟨body, chars, rfl, spells, rfl⟩
    exact readString_of_spells spells rest

theorem skipString_of_isBody {body : List Char} (isBody : IsBody body) (rest : List Char) :
    skipString (body ++ '"' :: rest) = .ok rest := by
  induction isBody with
  | empty => simp [skipString]
  | plain visible quote backslash more inductionHypothesis =>
    rw [List.cons_append, skipString, if_neg (Nat.not_lt.mpr visible), inductionHypothesis]
    · exact quote
    · exact backslash
  | @short c body escape more inductionHypothesis =>
    obtain ⟨x, escape⟩ := Option.isSome_iff_exists.mp escape
    have other : c ≠ 'u' := by
      rintro rfl
      cases escape
    simp only [List.cons_append]
    rw [skipString]
    · simp [escape, inductionHypothesis]
    · exact other
  | unit digits more inductionHypothesis =>
    obtain ⟨value, digits⟩ := Option.isSome_iff_exists.mp digits
    simp [skipString, digits, inductionHypothesis]

/-- A string is passed over just where a body stands, up to its closing quote. -/
theorem skipString_eq_ok {text rest : List Char} :
    skipString text = .ok rest ↔ ∃ body, text = body ++ '"' :: rest ∧ IsBody body := by
  constructor
  · intro skips
    fun_induction skipString text with
    | case2 rest =>
      cases skips
      exact ⟨[], rfl, .empty⟩
    | case5 a b c d after value digits inductionHypothesis =>
      obtain ⟨body, rfl, isBody⟩ := inductionHypothesis skips
      exact ⟨_, rfl, .unit (by simp [digits]) isBody⟩
    | case7 c after other x escape inductionHypothesis =>
      obtain ⟨body, rfl, isBody⟩ := inductionHypothesis skips
      exact ⟨_, rfl, .short (by simp [escape]) isBody⟩
    | case10 c after quote backslash visible inductionHypothesis =>
      obtain ⟨body, rfl, isBody⟩ := inductionHypothesis skips
      exact ⟨_, rfl, .plain (Nat.le_of_not_lt visible) quote backslash isBody⟩
    | _ => cases skips
  · rintro ⟨body, rfl, isBody⟩
    exact skipString_of_isBody isBody rest

/-! ## Marks -/

theorem Separated.trans {first : Bool} {text middle rest : List Char}
    (before : Separated first text middle) (behind : Gap middle rest) :
    Separated first text rest := by
  cases before with
  | first gap => exact .first (gap.trans behind)
  | next comma gap => exact .next comma (gap.trans behind)

theorem readColon_eq_ok {text rest : List Char} :
    readColon text = .ok rest ↔ Gap text (':' :: rest) := by
  rw [← skipSpace_eq_cons (by decide), readColon]
  split <;> simp_all

theorem nextItem_eq_finished {first : Bool} {text rest : List Char} :
    nextItem first text = .ok (.finished rest) ↔ Gap text (']' :: rest) := by
  rw [← skipSpace_eq_cons (by decide)]
  fun_cases nextItem first text <;> simp_all

theorem separated_of_nextItem {first : Bool} {text rest : List Char}
    (next : nextItem first text = .ok (.item rest)) : Separated first text rest := by
  unfold nextItem at next
  split at next
  next => cases next
  next => cases next
  next c behind _ equal =>
    have gap : Gap text (c :: behind) := equal ▸ gap_skipSpace text
    split at next
    next isFirst =>
      cases next
      exact isFirst ▸ .first gap
    next isLater =>
      split at next
      next comma =>
        subst comma
        split at next
        next => cases next
        next => cases next
        next =>
          cases next
          exact eq_false_of_ne_true isLater ▸ .next gap (gap_skipSpace behind)
      next => cases next

theorem nextItem_of_separated {first : Bool} {text : List Char} {c : Char} {rest : List Char}
    (separated : Separated first text (c :: rest)) (visible : isSpace c = false)
    (closing : c ≠ ']') : nextItem first text = .ok (.item (c :: rest)) := by
  cases separated with
  | first gap =>
    rw [nextItem, (skipSpace_eq_cons visible).mpr gap]
    simp
  | next comma gap =>
    rw [nextItem, (skipSpace_eq_cons (by decide)).mpr comma]
    simp [(skipSpace_eq_cons visible).mpr gap, closing]

theorem nextMember_eq_finished {first : Bool} {text rest : List Char} :
    nextMember first text = .ok (.finished rest) ↔ Gap text ('\x7d' :: rest) := by
  rw [← skipSpace_eq_cons (by decide)]
  fun_cases nextMember first text <;> simp_all

theorem nextMember_eq_name {first : Bool} {text rest : List Char} :
    nextMember first text = .ok (.name rest) ↔ Separated first text ('"' :: rest) := by
  constructor
  · intro next
    unfold nextMember at next
    split at next
    next => cases next
    next => cases next
    next c behind _ equal =>
      have gap : Gap text (c :: behind) := equal ▸ gap_skipSpace text
      split at next
      next isFirst =>
        split at next
        next quote =>
          cases next
          exact isFirst ▸ quote ▸ .first gap
        next => cases next
      next isLater =>
        split at next
        next comma =>
          subst comma
          split at next
          next => cases next
          next after quote =>
            cases next
            exact eq_false_of_ne_true isLater ▸ .next gap (quote ▸ gap_skipSpace behind)
          next => cases next
          next => cases next
        next => cases next
  · intro separated
    cases separated with
    | first gap =>
      rw [nextMember, (skipSpace_eq_cons (by decide)).mpr gap]
      simp
    | next comma gap =>
      rw [nextMember, (skipSpace_eq_cons (by decide)).mpr comma]
      simp [(skipSpace_eq_cons (by decide)).mpr gap]

/-! ## Where documents end -/

theorem bounded_of_separated {text rest : List Char} (separated : Separated false text rest) :
    Bounded text := by
  cases separated with
  | next comma gap =>
    cases comma with
    | none => simp [Bounded]
    | blank space more => simp [Bounded, space]

theorem bounded_of_gap {text rest : List Char} (gap : Gap text rest) (bounded : Bounded rest) :
    Bounded text := by
  cases gap with
  | none => exact bounded
  | blank space more => simp [Bounded, space]

variable {numbers : List Char → Prop}

theorem bounded_of_items {items : List Document} {text rest : List Char}
    (inside : WrittenItems numbers false items text rest) : Bounded text := by
  cases inside with
  | closed gap => exact bounded_of_gap gap (by simp [Bounded])
  | item separated written others => exact bounded_of_separated separated

theorem bounded_of_members {members : List (List Char × Document)} {text rest : List Char}
    (inside : WrittenMembers numbers false members text rest) : Bounded text := by
  cases inside with
  | closed gap => exact bounded_of_gap gap (by simp [Bounded])
  | member separated isBody colon gap written others => exact bounded_of_separated separated

theorem bounded_of_gap_nil {text : List Char} (gap : Gap text []) : Bounded text :=
  bounded_of_gap gap (by simp [Bounded])

end PawnQuery.Json
