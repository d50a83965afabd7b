import PawnQuery.Proofs.Json.Reader

/-!
# What is passed over

A value that is passed over is checked for its syntax by a loop that keeps a stack of what is still
open.  It accepts just the documents of the grammar: the stack stands for the lists and objects
whose ends are still to come, and the loop reads on in them item by item.
-/

namespace PawnQuery.Json

/-! ## What is still open -/

/-- The lists and objects of a stack go on and end in turn.  In the innermost one nothing stands yet
if `first` says so. -/
inductive Closes : (first : Bool) → List Frame → List Char → List Char → Prop where
  | done {first : Bool} {rest : List Char} : Closes first [] rest rest
  | list {first : Bool} {items : List Document} {outer : List Frame} {text middle rest : List Char}
      (inside : WrittenItems IsNumber first items text middle)
      (more : Closes false outer middle rest) : Closes first (.list :: outer) text rest
  | object {first : Bool} {members : List (List Char × Document)} {outer : List Frame}
      {text middle rest : List Char} (inside : WrittenMembers IsNumber first members text middle)
      (more : Closes false outer middle rest) : Closes first (.object :: outer) text rest

/-- What stands in front of a value in a list or object, behind its separator. -/
inductive Leads : Frame → List Char → List Char → Prop where
  | list {text : List Char} : Leads .list text text
  | object {text name behind value : List Char} (gap : Gap text ('"' :: (name ++ '"' :: behind)))
      (isBody : IsBody name) (colon : Gap behind (':' :: value)) : Leads .object text value

theorem skipName_eq_ok {text value : List Char} :
    skipName text = .ok value ↔ Leads .object text value := by
  constructor
  · intro skips
    unfold skipName at skips
    split at skips
    next behind equal =>
      split at skips
      next => cases skips
      next string =>
        obtain ⟨name, rfl, isBody⟩ := skipString_eq_ok.mp string
        exact .object (equal ▸ gap_skipSpace text) isBody (readColon_eq_ok.mp skips)
    next => cases skips
    next => cases skips
  · intro leads
    cases leads with
    | object gap isBody colon =>
      rw [skipName, (skipSpace_eq_cons (by decide)).mpr gap]
      simp only [skipString_of_isBody isBody, readColon_eq_ok.mpr colon]

theorem skipToValue_eq_ok {frame : Frame} {text value : List Char} :
    skipToValue frame text = .ok value ↔ Leads frame text value := by
  cases frame with
  | list =>
    constructor
    · intro skips
      cases skips
      exact .list
    · rintro ⟨⟩
      rfl
  | object => exact skipName_eq_ok

theorem Closes.closed {first : Bool} {frame : Frame} {outer : List Frame}
    {text middle rest : List Char}
    (gap : Gap text (frame.closing :: middle)) (more : Closes false outer middle rest) :
    Closes first (frame :: outer) text rest := by
  cases frame with
  | list => exact .list (.closed gap) more
  | object => exact .object (.closed gap) more

/-- A frame goes on with a value, behind its separator and what else stands in front of it. -/
theorem Closes.cons {first : Bool} {frame : Frame} {outer : List Frame} {d : Document}
    {text separator value start middle rest : List Char}
    (separated : Separated first text separator)
    (leads : Leads frame separator value) (gap : Gap value start)
    (written : Written IsNumber d start middle)
    (closes : Closes false (frame :: outer) middle rest) :
    Closes first (frame :: outer) text rest := by
  cases leads with
  | list =>
    cases closes with
    | list inside more => exact .list (.item (separated.trans gap) written inside) more
  | object before isBody colon =>
    cases closes with
    | object inside more =>
      exact .object (.member (separated.trans before) isBody colon gap written inside) more

/-! ## Passing over values is sound -/

/-- Closing brackets end frames of the stack.  What is left of it is open, and the text goes on with
a value in its innermost frame. -/
theorem closes_of_skipClosings {fuel : Nat} {closable : Bool} {stack stack' : List Frame}
    {text rest : List Char} (fueled : text.length < fuel)
    (skips : skipClosings fuel closable stack text = .ok (stack', rest)) :
    (stack' = [] ∧ Closes (!closable) stack text rest) ∨
      ∃ frame outer, stack' = frame :: outer ∧
        ∀ value start middle final d, Leads frame rest value → Gap value start →
          Written IsNumber d start middle → Closes false (frame :: outer) middle final →
            Closes (!closable) stack text final := by
  induction fuel generalizing closable stack text with
  | zero => omega
  | succ fuel inductionHypothesis =>
    cases stack with
    | nil =>
      cases skips
      exact .inl ⟨rfl, .done⟩
    | cons frame outer =>
      have gap := gap_skipSpace text
      rw [skipClosings] at skips
      split at skips
      next => cases skips
      next c behind equal =>
        rw [equal] at gap
        split at skips
        next closing =>
          subst closing
          have shorter := gap.length_le
          rw [List.length_cons] at shorter
          obtain ⟨rfl, closes⟩ | ⟨inner, others, rfl, goesOn⟩ :=
            inductionHypothesis (by omega) skips
          · exact .inl ⟨rfl, .closed gap closes⟩
          · exact .inr ⟨inner, others, rfl, fun value start middle final d leads before written
              closes => .closed gap (goesOn value start middle final d leads before written closes)⟩
        next =>
          refine .inr ⟨frame, outer, ?_⟩
          split at skips
          next isLater =>
            subst isLater
            split at skips
            next comma =>
              subst comma
              cases skips
              exact ⟨rfl, fun value start middle final d leads before written closes =>
                .cons (.next gap .none) leads before written closes⟩
            next => cases skips
          next isFirst =>
            cases skips
            rw [Bool.not_eq_true] at isFirst
            subst isFirst
            exact ⟨rfl, fun value start middle final d leads before written closes =>
              .cons (.first gap) leads before written closes⟩

/-- A value without parts is one itself; behind an opening bracket the parts of one follow. -/
theorem written_of_skipAtom {text rest : List Char} {opened : Option Frame}
    (skips : skipAtom text = .ok (opened, rest)) {outer : List Frame} {final : List Char}
    (closes : Closes (!opened.isNone) (opened.toList ++ outer) rest final) :
    ∃ d start middle, Gap text start ∧ Written IsNumber d start middle ∧
      Closes false outer middle final := by
  have gap := gap_skipSpace text
  unfold skipAtom at skips
  split at skips
  next => cases skips
  next equal =>
    rw [equal] at gap
    obtain ⟨behind, word, same⟩ := map_eq_ok.mp skips
    cases same
    exact ⟨.null, _, _, gap, readWord_eq_ok.mp word ▸ .null, closes⟩
  next equal =>
    rw [equal] at gap
    obtain ⟨behind, word, same⟩ := map_eq_ok.mp skips
    cases same
    exact ⟨.bool true, _, _, gap, readWord_eq_ok.mp word ▸ .true, closes⟩
  next equal =>
    rw [equal] at gap
    obtain ⟨behind, word, same⟩ := map_eq_ok.mp skips
    cases same
    exact ⟨.bool false, _, _, gap, readWord_eq_ok.mp word ▸ .false, closes⟩
  next equal =>
    rw [equal] at gap
    obtain ⟨behind, string, same⟩ := map_eq_ok.mp skips
    cases same
    obtain ⟨body, rfl, isBody⟩ := skipString_eq_ok.mp string
    exact ⟨.string body, _, _, gap, .string isBody, closes⟩
  next equal =>
    rw [equal] at gap
    obtain ⟨behind, number, same⟩ := map_eq_ok.mp skips
    cases same
    obtain ⟨digits, magnitude, rfl⟩ := magnitude_of_skipNumber number
    exact ⟨_, _, _, gap, @Written.number _ ('-' :: digits) _ (.negative magnitude), closes⟩
  next equal =>
    rw [equal] at gap
    cases skips
    cases closes with
    | list inside more => exact ⟨_, _, _, gap, .array inside, more⟩
  next equal =>
    rw [equal] at gap
    cases skips
    cases closes with
    | object inside more => exact ⟨_, _, _, gap, .object inside, more⟩
  next equal =>
    rw [equal] at gap
    split at skips
    next =>
      obtain ⟨behind, number, same⟩ := map_eq_ok.mp skips
      cases same
      obtain ⟨digits, magnitude, positive⟩ := magnitude_of_skipNumber number
      rw [positive] at gap
      exact ⟨_, _, _, gap, .number (.positive magnitude), closes⟩
    next => cases skips

/-- What is passed over is a document, and what was open behind it ends. -/
theorem written_of_skipWithin {fuel : Nat} {stack : List Frame} {text rest : List Char}
    (skips : skipWithin fuel stack text = .ok rest) :
    ∃ d start middle, Gap text start ∧ Written IsNumber d start middle ∧
      Closes false stack middle rest := by
  induction fuel generalizing stack text with
  | zero => cases skips
  | succ fuel inductionHypothesis =>
    rw [skipWithin] at skips
    split at skips
    next => cases skips
    next opened behind atom =>
      refine written_of_skipAtom atom ?_
      dsimp only at skips
      split at skips
      next => cases skips
      next closings =>
        cases skips
        obtain ⟨-, closes⟩ | ⟨_, _, impossible, -⟩ := closes_of_skipClosings (by omega) closings
        · exact closes
        · cases impossible
      next frame outer due closings =>
        split at skips
        next => cases skips
        next value leads =>
          obtain ⟨d, start, middle, gap, written, closes⟩ := inductionHypothesis skips
          obtain ⟨impossible, -⟩ | ⟨_, _, same, goesOn⟩ :=
            closes_of_skipClosings (by omega) closings
          · cases impossible
          · cases same
            exact goesOn _ _ _ _ _ (skipToValue_eq_ok.mp leads) gap written closes

theorem written_of_skipValue {text rest : List Char} (skips : skipValue text = .ok rest) :
    ∃ d start, Gap text start ∧ Written IsNumber d start rest := by
  obtain ⟨d, start, middle, gap, written, closes⟩ := written_of_skipWithin skips
  cases closes
  exact ⟨d, start, gap, written⟩

/-! ## Documents are passed over -/

/-- Goes on behind a value or an opening bracket. -/
def resume (fuel : Nat) (closable : Bool) (stack : List Frame) (text : List Char) :
    Except Halt (List Char) :=
  match skipClosings (text.length + 1) closable stack text with
  | .error halt => .error halt
  | .ok ([], rest) => .ok rest
  | .ok (frame :: outer, rest) =>
    match skipToValue frame rest with
    | .error halt => .error halt
    | .ok rest => skipWithin fuel (frame :: outer) rest

theorem skipWithin_succ (fuel : Nat) (stack : List Frame) (text : List Char) :
    skipWithin (fuel + 1) stack text =
      (skipAtom text).bind fun (opened, rest) =>
        resume fuel opened.isNone (opened.toList ++ stack) rest := by
  rw [skipWithin]
  cases skipAtom text with
  | error halt => rfl
  | ok next => rfl

theorem skipClosings_fuel {fuel more : Nat} {closable : Bool} {stack : List Frame}
    {text : List Char} (fueled : text.length < fuel) :
    skipClosings (fuel + more) closable stack text = skipClosings fuel closable stack text := by
  induction fuel generalizing closable stack text with
  | zero => omega
  | succ fuel inductionHypothesis =>
    have reassoc : fuel + 1 + more = fuel + more + 1 := by omega
    cases stack with
    | nil => rw [reassoc, skipClosings, skipClosings] <;> simp
    | cons frame outer =>
      have shorter := (gap_skipSpace text).length_le
      rw [reassoc, skipClosings, skipClosings]
      split
      next => rfl
      next c rest equal =>
        rw [equal, List.length_cons] at shorter
        rw [inductionHypothesis (by omega)]

theorem Frame.visible_closing (frame : Frame) : isSpace frame.closing = false := by
  cases frame <;> decide

theorem resume_closed (fuel : Nat) (closable : Bool) {frame : Frame} (outer : List Frame)
    {text middle : List Char} (gap : Gap text (frame.closing :: middle)) :
    resume fuel closable (frame :: outer) text = resume fuel true outer middle := by
  have shorter := gap.length_le
  rw [List.length_cons] at shorter
  obtain ⟨more, longer⟩ := Nat.exists_eq_add_of_le shorter
  have skips : skipClosings (text.length + 1) closable (frame :: outer) text =
      skipClosings (middle.length + 1) true outer middle := by
    rw [skipClosings, (skipSpace_eq_cons frame.visible_closing).mpr gap]
    simp only [if_true]
    rw [longer, skipClosings_fuel (Nat.lt_succ_self _)]
  rw [resume, skips, resume]

theorem Leads.trans {frame : Frame} {text middle value : List Char} (gap : Gap text middle)
    (leads : Leads frame middle value) : ∃ before, Leads frame text before ∧ Gap before value := by
  cases leads with
  | list => exact ⟨text, .list, gap⟩
  | object before isBody colon => exact ⟨value, .object (gap.trans before) isBody colon, .none⟩

theorem Leads.length_le {frame : Frame} {text value : List Char} (leads : Leads frame text value) :
    value.length ≤ text.length := by
  cases leads with
  | list => exact Nat.le_refl _
  | object gap isBody colon =>
    have before := gap.length_le
    have behind := colon.length_le
    simp only [List.length_cons, List.length_append] at before behind
    omega

theorem resume_separated (fuel : Nat) {first : Bool} {frame : Frame} (outer : List Frame)
    {text rest value : List Char} {c : Char} (separated : Separated first text (c :: rest))
    (visible : isSpace c = false) (closing : c ≠ frame.closing)
    (leads : Leads frame (c :: rest) value) :
    ∃ before, Gap before value ∧ before.length ≤ text.length ∧
      resume fuel (!first) (frame :: outer) text = skipWithin fuel (frame :: outer) before := by
  cases separated with
  | first gap =>
    have skips : skipClosings (text.length + 1) false (frame :: outer) text =
        .ok (frame :: outer, c :: rest) := by
      rw [skipClosings, (skipSpace_eq_cons visible).mpr gap]
      simp [closing]
    refine ⟨value, .none, Nat.le_trans leads.length_le gap.length_le, ?_⟩
    rw [Bool.not_true, resume, skips]
    simp only [skipToValue_eq_ok.mpr leads]
  | @next _ middle _ comma gap =>
    have other : ',' ≠ frame.closing := by cases frame <;> decide
    have skips : skipClosings (text.length + 1) true (frame :: outer) text =
        .ok (frame :: outer, middle) := by
      rw [skipClosings, (skipSpace_eq_cons (by decide)).mpr comma]
      simp [other]
    obtain ⟨before, leads, gap⟩ := leads.trans gap
    have shorter := comma.length_le
    rw [List.length_cons] at shorter
    have behind := leads.length_le
    refine ⟨before, gap, by omega, ?_⟩
    rw [Bool.not_false, resume, skips]
    simp only [skipToValue_eq_ok.mpr leads]

theorem skipAtom_gap {text start : List Char} (gap : Gap text start) :
    skipAtom text = skipAtom start := by
  rw [skipAtom, skipAtom, skipSpace_of_gap gap]

theorem skipAtom_number {spelling rest : List Char} (spelled : IsNumber spelling)
    (bounded : Bounded rest) : skipAtom (spelling ++ rest) = .ok (none, rest) := by
  cases spelled with
  | positive magnitude =>
    have behind := skipNumber_of_bounded magnitude bounded
    obtain ⟨c, more, rfl, digit⟩ := head_of_isMagnitude magnitude
    have isDigit : (decimalDigit? c).isSome = true := digit
    rw [List.cons_append] at behind ⊢
    rw [skipAtom, skipSpace_cons (visible_of_isDigit digit).1]
    split
    next equal => cases equal
    case h_9 equal =>
      cases equal
      rw [if_pos isDigit, behind]
      rfl
    all_goals
      rename_i equal
      cases equal
      exact absurd digit (by decide)
  | negative magnitude =>
    rw [List.cons_append, skipAtom, skipSpace_cons (by decide)]
    simp only [skipNumber_of_bounded magnitude bounded]
    rfl

variable {rest : List Char}

/-- The rest of the stack can be closed, whatever the fuel, if it is enough. -/
def Resumes (stack : List Frame) (middle rest : List Char) : Prop :=
  ∀ fuel, middle.length < fuel → resume fuel true stack middle = .ok rest

theorem skipWithin_atom {fuel : Nat} {stack : List Frame} {text start middle : List Char}
    (gap : Gap text start) (shorter : middle.length < start.length) (fueled : text.length < fuel)
    (resumes : Resumes stack middle rest) (atom : skipAtom start = .ok (none, middle)) :
    skipWithin fuel stack text = .ok rest := by
  have before := gap.length_le
  obtain ⟨fuel, rfl⟩ : ∃ less, fuel = less + 1 := ⟨fuel - 1, by omega⟩
  rw [skipWithin_succ, skipAtom_gap gap, atom]
  exact resumes fuel (by omega)

theorem skipWithin_open {fuel : Nat} {stack : List Frame} {text start inside : List Char}
    {frame : Frame} (gap : Gap text start) (shorter : inside.length < start.length)
    (fueled : text.length < fuel) (atom : skipAtom start = .ok (some frame, inside))
    (resumes : ∀ fuel, inside.length < fuel →
      resume fuel false (frame :: stack) inside = .ok rest) :
    skipWithin fuel stack text = .ok rest := by
  have before := gap.length_le
  obtain ⟨fuel, rfl⟩ : ∃ less, fuel = less + 1 := ⟨fuel - 1, by omega⟩
  rw [skipWithin_succ, skipAtom_gap gap, atom]
  exact resumes fuel (by omega)

mutual

/-- Where a document stands, it is passed over, and the stack is gone on with behind it. -/
theorem skipWithin_of_written {d : Document} {fuel : Nat} {stack : List Frame}
    {text start middle : List Char} (gap : Gap text start) (bounded : Bounded middle)
    (fueled : text.length < fuel) (resumes : Resumes stack middle rest) :
    Written IsNumber d start middle → skipWithin fuel stack text = .ok rest
  | .null | .true | .false => by
    refine skipWithin_atom gap ?_ fueled resumes rfl
    simp only [List.length_cons]
    omega
  | .number spelled =>
    skipWithin_atom gap (Written.number spelled).length_lt fueled resumes
      (skipAtom_number spelled bounded)
  | .string isBody => by
    refine skipWithin_atom gap (@Written.string IsNumber _ _ isBody).length_lt fueled resumes ?_
    rw [skipAtom, skipSpace_cons (by decide)]
    simp only [skipString_of_isBody isBody]
    rfl
  | .array inside =>
    skipWithin_open gap (Nat.lt_succ_self _) fueled rfl fun _ fueled =>
      resume_of_items fueled resumes inside
  | .object inside =>
    skipWithin_open gap (Nat.lt_succ_self _) fueled rfl fun _ fueled =>
      resume_of_members fueled resumes inside

theorem resume_of_items {first : Bool} {items : List Document} {fuel : Nat} {stack : List Frame}
    {text middle : List Char} (fueled : text.length < fuel) (resumes : Resumes stack middle rest) :
    WrittenItems IsNumber first items text middle →
      resume fuel (!first) (.list :: stack) text = .ok rest
  | .closed gap => by
    have shorter := gap.length_le
    rw [List.length_cons] at shorter
    rw [resume_closed fuel _ stack gap]
    exact resumes fuel (by omega)
  | .item separated written others => by
    obtain ⟨c, more, rfl, visible, closing⟩ := written.head
    obtain ⟨before, gap, shorter, equal⟩ :=
      @resume_separated fuel _ .list stack _ _ _ _ separated visible closing .list
    rw [equal]
    exact skipWithin_of_written gap (bounded_of_items others) (by omega)
      (fun _ fueled => resume_of_items fueled resumes others) written

theorem resume_of_members {first : Bool} {members : List (List Char × Document)} {fuel : Nat}
    {stack : List Frame} {text middle : List Char} (fueled : text.length < fuel)
    (resumes : Resumes stack middle rest) :
    WrittenMembers IsNumber first members text middle →
      resume fuel (!first) (.object :: stack) text = .ok rest
  | .closed gap => by
    have shorter := gap.length_le
    rw [List.length_cons] at shorter
    rw [resume_closed fuel _ stack gap]
    exact resumes fuel (by omega)
  | .member separated isBody colon gap written others => by
    obtain ⟨before, behind, shorter, equal⟩ :=
      resume_separated fuel stack separated (by decide) (by decide) (.object .none isBody colon)
    rw [equal]
    exact skipWithin_of_written (behind.trans gap) (bounded_of_members others) (by omega)
      (fun _ fueled => resume_of_members fueled resumes others) written

end

theorem skipValue_eq_ok {text rest : List Char} (bounded : Bounded rest) :
    skipValue text = .ok rest ↔ ∃ d start, Gap text start ∧ Written IsNumber d start rest := by
  constructor
  · exact written_of_skipValue
  · rintro ⟨d, start, gap, written⟩
    refine skipWithin_of_written gap bounded ?_ ?_ written
    · rw [fuelFor]
      omega
    · intro fuel _
      rfl

theorem readEnd_eq_ok {text : List Char} : readEnd text = .ok () ↔ Gap text [] := by
  constructor
  · intro ends
    have gap := gap_skipSpace text
    unfold readEnd at ends
    split at ends
    next empty => exact empty ▸ gap
    next => cases ends
  · intro gap
    rw [readEnd, skipSpace_of_gap gap]
    rfl

/-- A whole text passes the check of its syntax just if it spells a document. -/
theorem exists_isText_iff {text : List Char} :
    (∃ d, Document.IsText IsNumber d text) ↔
      ∃ rest, skipValue text = .ok rest ∧ readEnd rest = .ok () := by
  constructor
  · rintro ⟨d, start, rest, before, written, behind⟩
    exact ⟨rest, (skipValue_eq_ok (bounded_of_gap_nil behind)).mpr ⟨d, start, before, written⟩,
      readEnd_eq_ok.mpr behind⟩
  · rintro ⟨rest, skips, ends⟩
    obtain ⟨d, start, before, written⟩ := written_of_skipValue skips
    exact ⟨d, start, rest, before, written, readEnd_eq_ok.mp ends⟩

end PawnQuery.Json
