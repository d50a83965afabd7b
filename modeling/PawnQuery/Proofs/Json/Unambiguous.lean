import PawnQuery.Proofs.Json.Skipping

/-!
# A text spells one document

The readers are functions, so the text tells where a document begins and where it ends.  From that
it follows, part by part, that no text spells two documents.
-/

namespace PawnQuery.Json

/-! ## Forms -/

namespace Document

/-- What a document is, without its parts. -/
inductive Form where
  | null
  | bool (value : Bool)
  | number
  | string
  | array
  | object

def form : Document → Form
  | .null => .null
  | .bool b => .bool b
  | .number _ => .number
  | .string _ => .string
  | .array _ => .array
  | .object _ => .object

end Document

def formOf (c : Char) : Document.Form :=
  if c = 'n' then .null
  else if c = 't' then .bool true
  else if c = 'f' then .bool false
  else if c = '"' then .string
  else if c = '[' then .array
  else if c = '\x7b' then .object
  else .number

theorem formOf_of_isDigit {c : Char} (digit : IsDigit c) : formOf c = .number := by
  have other (mark : Char) (none : ¬ IsDigit mark) : c ≠ mark := fun same => none (same ▸ digit)
  simp [formOf, other 'n' (by decide), other 't' (by decide), other 'f' (by decide),
    other '"' (by decide), other '[' (by decide), other '\x7b' (by decide)]

theorem Written.form_eq {d : Document} {c : Char} {text rest : List Char}
    (written : Written IsNumber d (c :: text) rest) : d.form = formOf c := by
  -- The text of a number is not given by its constructor, so the index has to be a variable.
  generalize whole : c :: text = start at written
  cases written with
  | number spelled =>
    obtain ⟨e, more, rfl, rfl | digit⟩ := head_of_isNumber spelled
    · cases whole
      rfl
    · cases whole
      exact (formOf_of_isDigit digit).symm
  | _ =>
    cases whole
    rfl

theorem Written.same_form {d other : Document} {text rest restOther : List Char}
    (written : Written IsNumber d text rest) (writtenOther : Written IsNumber other text restOther) :
    other.form = d.form := by
  obtain ⟨c, more, rfl, -⟩ := written.head
  rw [written.form_eq, writtenOther.form_eq]

/-! ## Places -/

/-- Behind blanks there is one place where a document can begin. -/
theorem Gap.start_unique {d other : Document} {text start rest startOther restOther : List Char}
    (gap : Gap text start) (written : Written IsNumber d start rest)
    (gapOther : Gap text startOther) (writtenOther : Written IsNumber other startOther restOther) :
    start = startOther := by
  obtain ⟨c, more, rfl, visible, -⟩ := written.head
  obtain ⟨e, moreOther, rfl, visibleOther, -⟩ := writtenOther.head
  rw [← (skipSpace_eq_cons visible).mpr gap, (skipSpace_eq_cons visibleOther).mpr gapOther]

/-- A document that can end behind itself ends at one place. -/
theorem Written.rest_unique {d other : Document} {text rest restOther : List Char}
    (written : Written IsNumber d text rest) (bounded : Bounded rest)
    (writtenOther : Written IsNumber other text restOther) (boundedOther : Bounded restOther) :
    rest = restOther := by
  have skips := (skipValue_eq_ok bounded).mpr ⟨d, text, .none, written⟩
  rw [(skipValue_eq_ok boundedOther).mpr ⟨other, text, .none, writtenOther⟩] at skips
  exact (Except.ok.inj skips).symm

theorem Separated.start_unique {first : Bool} {d other : Document}
    {text start rest startOther restOther : List Char}
    (separated : Separated first text start) (written : Written IsNumber d start rest)
    (separatedOther : Separated first text startOther)
    (writtenOther : Written IsNumber other startOther restOther) : start = startOther := by
  obtain ⟨c, more, rfl, visible, closing⟩ := written.head
  obtain ⟨e, moreOther, rfl, visibleOther, closingOther⟩ := writtenOther.head
  have next := nextItem_of_separated separated visible closing
  rw [nextItem_of_separated separatedOther visibleOther closingOther] at next
  cases next
  rfl

/-- Where a list is closed no item follows. -/
theorem not_separated_of_closed {first : Bool} {d : Document} {text behind start rest : List Char}
    (gap : Gap text (']' :: behind)) (separated : Separated first text start)
    (written : Written IsNumber d start rest) : False := by
  obtain ⟨c, more, rfl, visible, closing⟩ := written.head
  have next := nextItem_of_separated separated visible closing
  rw [nextItem_eq_finished.mpr gap] at next
  cases next

/-- The name of the next member is one, and so is the place behind it. -/
theorem name_unique {first : Bool} {text name behind nameOther behindOther : List Char}
    (separated : Separated first text ('"' :: (name ++ '"' :: behind))) (isBody : IsBody name)
    (separatedOther : Separated first text ('"' :: (nameOther ++ '"' :: behindOther)))
    (isBodyOther : IsBody nameOther) : name = nameOther ∧ behind = behindOther := by
  have next := nextMember_eq_name.mpr separated
  rw [nextMember_eq_name.mpr separatedOther] at next
  have same : nameOther ++ '"' :: behindOther = name ++ '"' :: behind := by injections
  have skips := skipString_of_isBody isBody behind
  rw [← same, skipString_of_isBody isBodyOther] at skips
  cases skips
  exact ⟨(List.append_cancel_right same).symm, rfl⟩

/-! ## Documents -/

mutual

/-- A text up to its rest spells one document. -/
theorem Written.unique {d other : Document} {text rest : List Char} :
    Written IsNumber d text rest → Written IsNumber other text rest → d = other
  | .null, writtenOther => by
    have same := Written.same_form .null writtenOther
    cases other <;> cases same
    rfl
  | .true, writtenOther => by
    have same := Written.same_form .true writtenOther
    cases other <;> cases same
    rfl
  | .false, writtenOther => by
    have same := Written.same_form .false writtenOther
    cases other <;> cases same
    rfl
  | .number spelled, writtenOther => by
    have same := Written.same_form (.number spelled) writtenOther
    cases other <;> cases same
    generalize equal : _ ++ rest = text at writtenOther
    cases writtenOther
    exact congrArg _ (List.append_cancel_right equal)
  | .string isBody, writtenOther => by
    have same := Written.same_form (.string isBody) writtenOther
    cases other <;> cases same
    generalize equal : '"' :: _ = text at writtenOther
    cases writtenOther
    exact congrArg _ (List.append_cancel_right (List.cons.inj equal).2)
  | .array inside, writtenOther => by
    have same := Written.same_form (.array inside) writtenOther
    cases other <;> cases same
    cases writtenOther with
    | array insideOther => exact congrArg _ (inside.unique insideOther)
  | .object inside, writtenOther => by
    have same := Written.same_form (.object inside) writtenOther
    cases other <;> cases same
    cases writtenOther with
    | object insideOther => exact congrArg _ (inside.unique insideOther)

theorem WrittenItems.unique {first : Bool} {items others : List Document} {text rest : List Char} :
    WrittenItems IsNumber first items text rest → WrittenItems IsNumber first others text rest →
      items = others
  | .closed gap, writtenOther => by
    cases writtenOther with
    | closed => rfl
    | item separated written => exact (not_separated_of_closed gap separated written).elim
  | .item separated written more, writtenOther => by
    cases writtenOther with
    | closed gap => exact (not_separated_of_closed gap separated written).elim
    | item separatedOther writtenOther moreOther =>
      obtain rfl := separated.start_unique written separatedOther writtenOther
      obtain rfl := written.rest_unique (bounded_of_items more) writtenOther
        (bounded_of_items moreOther)
      rw [written.unique writtenOther, more.unique moreOther]

theorem WrittenMembers.unique {first : Bool} {members others : List (List Char × Document)}
    {text rest : List Char} :
    WrittenMembers IsNumber first members text rest →
      WrittenMembers IsNumber first others text rest → members = others
  | .closed gap, writtenOther => by
    cases writtenOther with
    | closed => rfl
    | member separated =>
      have next := nextMember_eq_name.mpr separated
      rw [nextMember_eq_finished.mpr gap] at next
      cases next
  | .member separated isBody colon gap written more, writtenOther => by
    cases writtenOther with
    | closed gap =>
      have next := nextMember_eq_name.mpr separated
      rw [nextMember_eq_finished.mpr gap] at next
      cases next
    | member separatedOther isBodyOther colonOther gapOther writtenOther moreOther =>
      obtain ⟨rfl, rfl⟩ := name_unique separated isBody separatedOther isBodyOther
      have value := readColon_eq_ok.mpr colon
      rw [readColon_eq_ok.mpr colonOther] at value
      cases value
      obtain rfl := gap.start_unique written gapOther writtenOther
      obtain rfl := written.rest_unique (bounded_of_members more) writtenOther
        (bounded_of_members moreOther)
      rw [written.unique writtenOther, more.unique moreOther]

end

theorem Document.IsText.unique {d other : Document} {text : List Char}
    (isText : d.IsText IsNumber text) (isTextOther : other.IsText IsNumber text) : d = other := by
  obtain ⟨start, rest, before, written, behind⟩ := isText
  obtain ⟨_, _, beforeOther, writtenOther, behindOther⟩ := isTextOther
  obtain rfl := before.start_unique written beforeOther writtenOther
  obtain rfl := written.rest_unique (bounded_of_gap_nil behind) writtenOther
    (bounded_of_gap_nil behindOther)
  exact written.unique writtenOther

end PawnQuery.Json
