import PawnQuery.Proofs.Json.Alike
import PawnQuery.Proofs.Json.Unambiguous
import PawnQuery.Proofs.Report.Acceptance
import PawnQuery.Proofs.Report.NonFinite

/-!
# Lines that say the same

How a line is spelled does not show in what is read of it: blanks, the order of members and the
spelling of strings may change, and members that mean nothing to an envelope may be added.  A text
spells one document, so it is enough to look at documents.
-/

namespace PawnQuery.Report

open PawnQuery.Json

/-! ## Entries of an envelope -/

/-- A member with the name that its spelling stands for. -/
def NamedAs (m : List Char × Document) (e : String × Document) : Prop :=
  ∃ chars, Spells m.1 chars ∧ e = (String.ofList chars, m.2)

variable {members others : List (List Char × Document)} {entries moved : List (String × Document)}

theorem named_iff : Named members entries ↔ List.Forall₂ NamedAs members entries := by
  constructor
  · intro named
    induction named with
    | nil => exact .nil
    | cons spells _ inductionHypothesis => exact .cons ⟨_, spells, rfl⟩ inductionHypothesis
  · intro each
    induction each with
    | nil => exact .nil
    | cons first _ inductionHypothesis =>
      obtain ⟨chars, spells, rfl⟩ := first
      exact .cons spells inductionHypothesis

/-- The entries have the same name and equivalent documents. -/
def SameEntry (e f : String × Document) : Prop := e.1 = f.1 ∧ Equivalent e.2 f.2

theorem named_of_corresponds (corresponds : List.Forall₂ Corresponds members others)
    (named : Named members entries) :
    ∃ moved, Named others moved ∧ List.Forall₂ SameEntry entries moved := by
  induction corresponds generalizing entries with
  | nil =>
    cases named
    exact ⟨[], .nil, .nil⟩
  | @cons m n _ _ first _ inductionHypothesis =>
    cases named with
    | cons spells more =>
      obtain ⟨moved, namedMoved, same⟩ := inductionHypothesis more
      exact ⟨(String.ofList _, n.2) :: moved, .cons (first.1.spells_iff.mp spells) namedMoved,
        .cons ⟨rfl, first.2⟩ same⟩

theorem documentsOf_cons (name : String) (e : String × Document) :
    documentsOf name (e :: entries) =
      if e.1 = name then e.2 :: documentsOf name entries else documentsOf name entries := by
  by_cases called : e.1 = name <;> simp [documentsOf, called]

theorem documentsOf_of_same (name : String) (same : List.Forall₂ SameEntry entries moved) :
    List.Forall₂ Equivalent (documentsOf name entries) (documentsOf name moved) := by
  induction same with
  | nil => exact .nil
  | cons first _ inductionHypothesis =>
    rw [documentsOf_cons, documentsOf_cons, ← first.1]
    split
    · exact .cons first.2 inductionHypothesis
    · exact inductionHypothesis

theorem documentsOf_perm (name : String) (reordered : entries.Perm moved) :
    (documentsOf name entries).Perm (documentsOf name moved) :=
  (reordered.filter _).map _

/-! ## What an envelope says and carries -/

theorem says_iff {d : Document} {kind : String} :
    Says d kind ↔ Denotes 0 d (.string kind) := by
  constructor
  · rintro ⟨spells⟩
    exact .string spells
  · intro denotes
    cases denotes with
    | string spells => exact .string spells

theorem says_iff_of_equivalent {d other : Document} (equivalent : Equivalent d other)
    {kind : String} : Says d kind ↔ Says other kind := by
  rw [says_iff, says_iff]
  exact equivalent 0 (.string kind)

theorem carries_of_equivalent {documents moved : List Document} {payload : Value}
    (equivalent : List.Forall₂ Equivalent documents moved) (carries : Carries documents payload) :
    Carries moved payload := by
  cases carries with
  | absent =>
    cases equivalent
    exact .absent
  | present denotes =>
    cases equivalent with
    | cons first more =>
      cases more
      exact .present ((first _ _).mp denotes)

theorem carries_of_perm {documents moved : List Document} {payload : Value}
    (reordered : documents.Perm moved) (carries : Carries documents payload) :
    Carries moved payload := by
  cases carries with
  | absent =>
    rw [reordered.nil_eq.symm]
    exact .absent
  | present denotes =>
    rw [List.perm_singleton.mp reordered.symm]
    exact .present denotes

/-! ## Envelopes that are alike -/

variable {kind : String} {payload : Value}

theorem IsEnvelope.of_corresponds (corresponds : List.Forall₂ Corresponds members others)
    (isEnvelope : IsEnvelope (.object members) kind payload) :
    IsEnvelope (.object others) kind payload := by
  cases isEnvelope with
  | object named single speaks carries =>
    obtain ⟨moved, namedMoved, same⟩ := named_of_corresponds corresponds named
    have kinds := documentsOf_of_same "kind" same
    rw [single] at kinds
    generalize only : documentsOf "kind" moved = documents at kinds
    cases kinds with
    | cons first more =>
      cases more
      exact .object namedMoved only ((says_iff_of_equivalent first).mp speaks)
        (carries_of_equivalent (documentsOf_of_same "payload" same) carries)

theorem IsEnvelope.of_perm (reordered : members.Perm others)
    (isEnvelope : IsEnvelope (.object members) kind payload) :
    IsEnvelope (.object others) kind payload := by
  cases isEnvelope with
  | object named single speaks carries =>
    obtain ⟨moved, each, perm⟩ := List.perm_comp_forall₂ reordered.symm (named_iff.mp named)
    have kinds := documentsOf_perm "kind" perm
    rw [single, List.perm_singleton] at kinds
    exact .object (named_iff.mpr each) kinds speaks
      (carries_of_perm (documentsOf_perm "payload" perm).symm carries)

theorem IsEnvelope.of_equivalent {items moved : List Document}
    (equivalent : List.Forall₂ Equivalent items moved)
    (isEnvelope : IsEnvelope (.array items) kind payload) :
    IsEnvelope (.array moved) kind payload := by
  cases isEnvelope with
  | list speaks carries =>
    cases equivalent with
    | cons first more =>
      exact .list ((says_iff_of_equivalent first).mp speaks) (carries_of_equivalent more carries)

/-- Documents that are alike are the same envelopes. -/
theorem isEnvelope_iff_of_alike {d other : Document} (alike : Alike d other) :
    IsEnvelope d kind payload ↔ IsEnvelope other kind payload := by
  cases alike with
  | array inside =>
    have equivalent := inside.forall₂
    exact ⟨.of_equivalent equivalent,
      .of_equivalent (forall₂_symm .symm equivalent)⟩
  | object _ inside reordered =>
    have corresponds := inside.forall₂
    exact ⟨fun isEnvelope => .of_perm reordered (.of_corresponds corresponds isEnvelope),
      fun isEnvelope => .of_corresponds (forall₂_symm .symm corresponds)
        (.of_perm reordered.symm isEnvelope)⟩
  | null | bool | number | string =>
    constructor <;> intro isEnvelope <;> cases isEnvelope

/-! ## Further members -/

/-- Members with other names than the two of an envelope are added, wherever they stand. -/
inductive Adds : List (List Char × Document) → List (List Char × Document) → Prop where
  | nil : Adds [] []
  | keep {m : List Char × Document} {members others : List (List Char × Document)}
      (more : Adds members others) : Adds (m :: members) (m :: others)
  | add {name chars : List Char} {d : Document} {members others : List (List Char × Document)}
      (spells : Spells name chars) (kind : String.ofList chars ≠ "kind")
      (payload : String.ofList chars ≠ "payload") (more : Adds members others) :
      Adds members ((name, d) :: others)

/-- The entries that an envelope looks at are the same. -/
def SameFields (entries moved : List (String × Document)) : Prop :=
  documentsOf "kind" entries = documentsOf "kind" moved ∧
    documentsOf "payload" entries = documentsOf "payload" moved

theorem sameFields_cons (e : String × Document) (same : SameFields entries moved) :
    SameFields (e :: entries) (e :: moved) := by
  simp only [SameFields, documentsOf_cons, same.1, same.2, and_self]

theorem sameFields_add {name : String} (kind : name ≠ "kind") (payload : name ≠ "payload")
    (d : Document) (same : SameFields entries moved) : SameFields entries ((name, d) :: moved) := by
  simp only [SameFields, documentsOf_cons, if_neg kind, if_neg payload]
  exact same

theorem Adds.named (adds : Adds members others) (named : Named members entries) :
    ∃ moved, Named others moved ∧ SameFields entries moved := by
  induction adds generalizing entries with
  | nil => exact ⟨entries, named, rfl, rfl⟩
  | keep _ inductionHypothesis =>
    cases named with
    | cons spells more =>
      obtain ⟨moved, namedMoved, same⟩ := inductionHypothesis more
      exact ⟨_, .cons spells namedMoved, sameFields_cons _ same⟩
  | add spells kind payload _ inductionHypothesis =>
    obtain ⟨moved, namedMoved, same⟩ := inductionHypothesis named
    exact ⟨_, .cons spells namedMoved, sameFields_add kind payload _ same⟩

theorem Adds.named_rev (adds : Adds members others) (named : Named others moved) :
    ∃ entries, Named members entries ∧ SameFields entries moved := by
  induction adds generalizing moved with
  | nil => exact ⟨moved, named, rfl, rfl⟩
  | keep _ inductionHypothesis =>
    cases named with
    | cons spells more =>
      obtain ⟨entries, namedEntries, same⟩ := inductionHypothesis more
      exact ⟨_, .cons spells namedEntries, sameFields_cons _ same⟩
  | add spells kind payload _ inductionHypothesis =>
    cases named with
    | cons spellsMoved more =>
      obtain ⟨entries, namedEntries, same⟩ := inductionHypothesis more
      rw [string_unique spells spellsMoved] at kind payload
      exact ⟨entries, namedEntries, sameFields_add kind payload _ same⟩

theorem isEnvelope_iff_of_adds (adds : Adds members others) :
    IsEnvelope (.object members) kind payload ↔ IsEnvelope (.object others) kind payload := by
  constructor
  · intro isEnvelope
    cases isEnvelope with
    | object named single speaks carries =>
      obtain ⟨moved, namedMoved, kinds, payloads⟩ := adds.named named
      exact .object namedMoved (kinds.symm.trans single) speaks (payloads ▸ carries)
  · intro isEnvelope
    cases isEnvelope with
    | object named single speaks carries =>
      obtain ⟨entries, namedEntries, kinds, payloads⟩ := adds.named_rev named
      exact .object namedEntries (kinds.trans single) speaks (payloads ▸ carries)

/-! ## Lines -/

theorem encloses_iff_of_isText {d : Document} {line : List Char}
    (isText : d.IsText IsNumber line) :
    Encloses line kind payload ↔ IsEnvelope d kind payload := by
  rw [Encloses, normalizeNonFinite_of_isText isText]
  constructor
  · rintro ⟨other, isTextOther, isEnvelope⟩
    rwa [isText.unique isTextOther]
  · intro isEnvelope
    exact ⟨d, isText, isEnvelope⟩

/-- The lines are decoded to the same record, or are of the same unknown kind, or are malformed. -/
def SameOutcome (line other : List Char) : Prop :=
  (∀ r, decodeLine line = .ok r ↔ decodeLine other = .ok r) ∧
    ∀ kind, decodeLine line = .error (.unknownKind kind) ↔
      decodeLine other = .error (.unknownKind kind)

theorem sameOutcome_of_isEnvelope {d e : Document} {line other : List Char}
    (isText : d.IsText IsNumber line) (isTextOther : e.IsText IsNumber other)
    (same : ∀ kind payload, IsEnvelope d kind payload ↔ IsEnvelope e kind payload) :
    SameOutcome line other := by
  have encloses (kind : String) (payload : Value) :
      Encloses line kind payload ↔ Encloses other kind payload := by
    rw [encloses_iff_of_isText isText, encloses_iff_of_isText isTextOther, same]
  constructor
  · intro r
    simp only [decodeLine_eq_ok_iff, encloses]
  · intro kind
    simp only [decodeLine_eq_unknownKind_iff, encloses]

/-- Neither the spelling of a line shows in what it is decoded to, nor members of its envelope that
have no meaning. -/
theorem decodeLine_respelled :
    (∀ d other line lineOther, Alike d other → d.IsText IsNumber line →
      other.IsText IsNumber lineOther → SameOutcome line lineOther) ∧
    ∀ members others line lineOther, Adds members others →
      (Document.object members).IsText IsNumber line →
      (Document.object others).IsText IsNumber lineOther → SameOutcome line lineOther :=
  ⟨fun _ _ _ _ alike isText isTextOther => sameOutcome_of_isEnvelope isText isTextOther
      fun _ _ => isEnvelope_iff_of_alike alike,
    fun _ _ _ _ adds isText isTextOther => sameOutcome_of_isEnvelope isText isTextOther
      fun _ _ => isEnvelope_iff_of_adds adds⟩

/-! ## An envelope in other words -/

theorem spells_kind : Spells "kind".toList "kind".toList := spells_plain (by simp)

theorem spells_payload : Spells "payload".toList "payload".toList := spells_plain (by simp)

theorem spells_tags : Spells "tags".toList "tags".toList := spells_plain (by simp)

/-- The members of an envelope with no tags. -/
def noTags : List (List Char × Document) :=
  [("kind".toList, .string "tags".toList), ("payload".toList, .array [])]

theorem written_noTags {first : Bool} {text : List Char}
    (separated : Separated first text "\"kind\":\"tags\",\"payload\":[]\x7d".toList) :
    WrittenMembers IsNumber first noTags text [] :=
  .member separated spells_kind.isBody .none .none (.string spells_tags.isBody)
    (.member (.next .none .none) spells_payload.isBody .none .none (.array (.closed .none))
      (.closed .none))

theorem isText_noTags :
    (Document.object noTags).IsText IsNumber "\x7b\"kind\":\"tags\",\"payload\":[]\x7d".toList :=
  ⟨_, [], .none, .object (written_noTags (.first .none)), .none⟩

/-- A member is put in front of the envelope. -/
theorem isText_extended {name value : List Char} (isBody : IsBody name) (isBodyValue : IsBody value) :
    (Document.object ((name, .string value) :: noTags)).IsText IsNumber
      ('\x7b' :: '"' :: (name ++ '"' :: ':' :: '"' :: (value ++ '"' ::
        ",\"kind\":\"tags\",\"payload\":[]\x7d".toList))) :=
  ⟨_, [], .none, .object (.member (.first .none) isBody .none .none (.string isBodyValue)
    (written_noTags (.next .none .none))), .none⟩

theorem decodeLine_noTags :
    decodeLine "\x7b\"kind\":\"tags\",\"payload\":[]\x7d".toList = .ok (.symbols .tag []) := by
  decide +kernel

/-- A unit that is no part of a pair. -/
theorem isBody_unpaired : IsBody "\\ud800".toList := .unit (by decide) .empty

/-- The members of an envelope may be swapped, its kind may be called so with an escape, and a
member may be added whose value stands for no characters. -/
theorem decodeLine_respelled_tags :
    decodeLine "\x7b\"payload\":[], \"\\u006bind\":\"tags\"\x7d".toList =
        .ok (.symbols .tag []) ∧
      decodeLine "\x7b\"x\":\"\\ud800\",\"kind\":\"tags\",\"payload\":[]\x7d".toList =
        .ok (.symbols .tag []) := by
  obtain ⟨respelled, extended⟩ := decodeLine_respelled
  have digits : hexQuad? '0' '0' '6' 'b' = some 0x6B := by decide
  have plain : Spells "ind".toList "ind".toList := spells_plain (by simp)
  have escaped : Spells "\\u006bind".toList "kind".toList :=
    .unit digits (by decide) (by decide) plain
  have distinct : Distinct noTags :=
    List.pairwise_pair.mpr (not_sameString spells_kind spells_payload (by decide))
  have alike : Alike (.object noTags)
      (.object [("payload".toList, .array []), ("\\u006bind".toList, .string "tags".toList)]) :=
    .object distinct
      (.cons (sameString_of_spells spells_kind escaped)
        (.string (.refl spells_tags.isBody))
        (.cons (.refl spells_payload.isBody) (.array .nil) .nil))
      (.swap _ _ _)
  have isTextRespelled : Document.IsText IsNumber
      (.object [("payload".toList, .array []), ("\\u006bind".toList, .string "tags".toList)])
      "\x7b\"payload\":[], \"\\u006bind\":\"tags\"\x7d".toList :=
    ⟨_, [], .none, .object (.member (.first .none) spells_payload.isBody .none .none
      (.array (.closed .none)) (.member (.next .none (.blank (by decide) .none)) escaped.isBody .none
        .none (.string spells_tags.isBody) (.closed .none))), .none⟩
  have spellsName : Spells "x".toList "x".toList := spells_plain (by simp)
  exact ⟨((respelled _ _ _ _ alike isText_noTags isTextRespelled).1 _).mp decodeLine_noTags,
    ((extended _ _ _ _ (.add spellsName (by decide) (by decide) (.keep (.keep .nil))) isText_noTags
      (isText_extended spellsName.isBody isBody_unpaired)).1 _).mp decodeLine_noTags⟩

/-- A member whose name stands for no characters cannot be passed over. -/
theorem decodeLine_unpaired_name :
    (Document.object noTags).IsText IsNumber
        "\x7b\"kind\":\"tags\",\"payload\":[]\x7d".toList ∧
      (Document.object (("\\ud800".toList, .string []) :: noTags)).IsText IsNumber
        "\x7b\"\\ud800\":\"\",\"kind\":\"tags\",\"payload\":[]\x7d".toList ∧
      ¬ SameString "\\ud800".toList "kind".toList ∧ ¬ SameString "\\ud800".toList "payload".toList ∧
      ¬ SameOutcome "\x7b\"kind\":\"tags\",\"payload\":[]\x7d".toList
        "\x7b\"\\ud800\":\"\",\"kind\":\"tags\",\"payload\":[]\x7d".toList := by
  have unnamed {other chars : List Char} (spells : Spells other chars)
      (first : chars.flatMap codeUnits ≠ [0xD800]) : ¬ SameString "\\ud800".toList other := by
    rintro ⟨units, has, hasOther⟩
    have unpaired : HasUnits "\\ud800".toList [0xD800] := .unit (by decide) .empty
    exact first (spells.hasUnits.unique (has.unique unpaired ▸ hasOther))
  refine ⟨isText_noTags, isText_extended isBody_unpaired .empty, unnamed spells_kind (by decide),
    unnamed spells_payload (by decide), fun same => ?_⟩
  have reads := (same.1 _).mp decodeLine_noTags
  have fails : (decodeLine
      "\x7b\"\\ud800\":\"\",\"kind\":\"tags\",\"payload\":[]\x7d".toList).toOption = none := by
    decide +kernel
  rw [reads] at fails
  cases fails

end PawnQuery.Report
