import PawnQuery.Proofs.Json.Skipping
import PawnQuery.Report.Envelope

/-!
# Which lines are envelopes

An envelope is an object in which one member is called `kind` and at most one is called `payload`,
or a list of the two.  Of the other members only the syntax matters, but every name must be
readable.  The reader of envelopes goes through the members once with a draft, and accepts just the
texts of these documents.
-/

namespace PawnQuery.Report

open PawnQuery.Json

/-! ## Envelopes as documents -/

/-- A string that says this. -/
inductive Says : Document → String → Prop where
  | string {body chars : List Char} (spells : Spells body chars) :
      Says (.string body) (String.ofList chars)

/-- The members of an object under the names that their spellings stand for. -/
inductive Named : List (List Char × Document) → List (String × Document) → Prop where
  | nil : Named [] []
  | cons {body chars : List Char} {d : Document} {members : List (List Char × Document)}
      {entries : List (String × Document)} (spells : Spells body chars)
      (others : Named members entries) :
      Named ((body, d) :: members) ((String.ofList chars, d) :: entries)

/-- The documents of the members called so. -/
def documentsOf (name : String) (entries : List (String × Document)) : List Document :=
  (entries.filter fun e => e.1 = name).map (·.2)

/-- A payload, or null in its place. -/
inductive Carries : List Document → Value → Prop where
  | absent : Carries [] .null
  | present {d : Document} {v : Value} (denotes : Denotes (depthLimit - 1) d v) : Carries [d] v

/-- The document is an envelope of this kind and payload. -/
inductive IsEnvelope : Document → String → Value → Prop where
  | object {members : List (List Char × Document)} {entries : List (String × Document)}
      {d : Document} {kind : String} {payload : Value} (named : Named members entries)
      (single : documentsOf "kind" entries = [d]) (speaks : Says d kind)
      (carries : Carries (documentsOf "payload" entries) payload) :
      IsEnvelope (.object members) kind payload
  | list {d : Document} {documents : List Document} {kind : String} {payload : Value}
      (speaks : Says d kind) (carries : Carries documents payload) :
      IsEnvelope (.array (d :: documents)) kind payload

namespace Envelope

/-! ## Drafts -/

/-- A field of a draft takes at most one document, and that only while it is empty. -/
inductive Takes {α : Type} (reads : Document → α → Prop) :
    Option α → List Document → Option α → Prop where
  | nothing {field : Option α} : Takes reads field [] field
  | value {d : Document} {a : α} (read : reads d a) : Takes reads none [d] (some a)

/-- The members with these names change a draft so. -/
def Fills (draft : Draft) (entries : List (String × Document)) (after : Draft) : Prop :=
  Takes Says draft.kind (documentsOf "kind" entries) after.kind ∧
    Takes (Denotes (depthLimit - 1)) draft.payload (documentsOf "payload" entries) after.payload

theorem takes_append {reads : Document → α → Prop} {before after : Option α}
    {first others : List Document} :
    Takes reads before (first ++ others) after ↔
      ∃ middle, Takes reads before first middle ∧ Takes reads middle others after := by
  constructor
  · intro takes
    cases first with
    | nil => exact ⟨before, .nothing, takes⟩
    | cons d first =>
      generalize equal : d :: first ++ others = documents at takes
      cases takes with
      | nothing => cases equal
      | value read =>
        obtain ⟨rfl, empty⟩ := List.cons.inj equal
        obtain ⟨rfl, rfl⟩ := List.append_eq_nil_iff.mp empty
        exact ⟨_, .value read, .nothing⟩
  · rintro ⟨middle, first, others⟩
    cases first with
    | nothing => exact others
    | value read =>
      cases others
      exact .value read

theorem fills_cons {draft after : Draft} {e : String × Document}
    {entries : List (String × Document)} :
    Fills draft (e :: entries) after ↔
      ∃ middle, Fills draft [e] middle ∧ Fills middle entries after := by
  have apart (name : String) : documentsOf name (e :: entries) =
      documentsOf name [e] ++ documentsOf name entries := by
    rw [documentsOf, ← List.singleton_append, List.filter_append, List.map_append]
    rfl
  simp only [Fills, apart, takes_append]
  constructor
  · rintro ⟨⟨kind, kindFirst, kindOthers⟩, payload, payloadFirst, payloadOthers⟩
    exact ⟨⟨kind, payload⟩, ⟨kindFirst, payloadFirst⟩, kindOthers, payloadOthers⟩
  · rintro ⟨middle, ⟨kindFirst, payloadFirst⟩, kindOthers, payloadOthers⟩
    exact ⟨⟨_, kindFirst, kindOthers⟩, _, payloadFirst, payloadOthers⟩

theorem fills_nil {draft after : Draft} : Fills draft [] after ↔ after = draft := by
  obtain ⟨kind, payload⟩ := draft
  constructor
  · rintro ⟨takesKind, takesPayload⟩
    obtain ⟨kind', payload'⟩ := after
    cases takesKind
    cases takesPayload
    rfl
  · rintro rfl
    exact ⟨.nothing, .nothing⟩

theorem fills_kind {draft after : Draft} {d : Document} :
    Fills draft [("kind", d)] after ↔
      draft.kind = none ∧ ∃ kind, Says d kind ∧ after = { draft with kind := some kind } := by
  obtain ⟨kind, payload⟩ := draft
  constructor
  · rintro ⟨takesKind, takesPayload⟩
    obtain ⟨kind', payload'⟩ := after
    cases takesKind with
    | value speaks =>
      cases takesPayload
      exact ⟨rfl, _, speaks, rfl⟩
  · rintro ⟨rfl, kind, speaks, rfl⟩
    exact ⟨.value speaks, .nothing⟩

theorem fills_payload {draft after : Draft} {d : Document} :
    Fills draft [("payload", d)] after ↔
      draft.payload = none ∧
        ∃ v, Denotes (depthLimit - 1) d v ∧ after = { draft with payload := some v } := by
  obtain ⟨kind, payload⟩ := draft
  constructor
  · rintro ⟨takesKind, takesPayload⟩
    obtain ⟨kind', payload'⟩ := after
    cases takesPayload with
    | value denotes =>
      cases takesKind
      exact ⟨rfl, _, denotes, rfl⟩
  · rintro ⟨rfl, v, denotes, rfl⟩
    exact ⟨.nothing, .value denotes⟩

theorem fills_other {draft after : Draft} {name : String} {d : Document} (kind : name ≠ "kind")
    (payload : name ≠ "payload") : Fills draft [(name, d)] after ↔ after = draft := by
  have passed (other : String) (differs : name ≠ other) : documentsOf other [(name, d)] = [] := by
    simp [documentsOf, differs]
  rw [Fills, passed _ kind, passed _ payload]
  exact fills_nil

/-! ## Reading members -/

variable {text rest : List Char}

theorem readKind_eq_ok {kind : String} :
    readKind text = .ok (kind, rest) ↔
      ∃ d start, Gap text start ∧ Written IsNumber d start rest ∧ Says d kind := by
  constructor
  · intro reads
    have gap := gap_skipSpace text
    unfold readKind at reads
    split at reads
    next equal =>
      rw [equal] at gap
      obtain ⟨body, chars, rfl, spells, rfl⟩ := readString_eq_ok.mp reads
      exact ⟨_, _, gap, .string spells.isBody, .string spells⟩
    next => cases reads
  · rintro ⟨d, start, gap, written, speaks⟩
    cases speaks with
    | string spells =>
      cases written with
      | string isBody =>
        rw [readKind, (skipSpace_eq_cons (by decide)).mpr gap]
        exact readString_of_spells spells rest

theorem readPayload_eq_ok {payload : Value} (bounded : Bounded rest) :
    readPayload text = .ok (payload, rest) ↔
      ∃ d start, Gap text start ∧ Written IsNumber d start rest ∧
        Denotes (depthLimit - 1) d payload :=
  readValue_eq_ok bounded (by rw [fuelFor]; omega)

/-- A field is read behind a colon and put into the draft. -/
theorem readField_eq_ok {α : Type} {read : List Char → Step α} {accepts : Document → α → Prop}
    (put : α → Draft) {after : Draft}
    (reads : ∀ value a, read value = .ok (a, rest) ↔
      ∃ d start, Gap value start ∧ Written IsNumber d start rest ∧ accepts d a) :
    ((readColon text).bind read).map (fun field => (put field.1, field.2)) =
        .ok (after, rest) ↔
      ∃ d value start, Gap text (':' :: value) ∧ Gap value start ∧
        Written IsNumber d start rest ∧ ∃ a, accepts d a ∧ after = put a := by
  simp only [map_eq_ok, bind_eq_ok]
  constructor
  · rintro ⟨⟨a, behind⟩, ⟨value, colon, field⟩, equal⟩
    cases equal
    obtain ⟨d, start, gap, written, accepted⟩ := (reads value a).mp field
    exact ⟨d, value, start, readColon_eq_ok.mp colon, gap, written, a, accepted, rfl⟩
  · rintro ⟨d, value, start, colon, gap, written, a, accepted, rfl⟩
    have field := (reads value a).mpr ⟨d, start, gap, written, accepted⟩
    exact ⟨(a, rest), ⟨value, readColon_eq_ok.mpr colon, field⟩, rfl⟩

theorem readMember_eq_ok {draft after : Draft} {name : String} (bounded : Bounded rest) :
    readMember draft name text = .ok (after, rest) ↔
      ∃ d value start, Gap text (':' :: value) ∧ Gap value start ∧ Written IsNumber d start rest ∧
        Fills draft [(name, d)] after := by
  unfold readMember
  by_cases kind : name = "kind"
  · subst kind
    simp only [if_pos, fills_kind]
    by_cases empty : draft.kind = none
    · simp only [empty, Option.isSome_none, Bool.false_eq_true, if_false, true_and]
      exact readField_eq_ok (fun kind => { draft with kind := some kind }) fun _ _ => readKind_eq_ok
    · have taken : draft.kind.isSome = true := Option.isSome_iff_ne_none.mpr empty
      simp [taken, empty]
  by_cases payload : name = "payload"
  · subst payload
    simp only [if_neg kind, if_pos, fills_payload]
    by_cases empty : draft.payload = none
    · simp only [empty, Option.isSome_none, Bool.false_eq_true, if_false, true_and]
      exact readField_eq_ok (fun v => { draft with payload := some v }) fun _ _ =>
        readPayload_eq_ok bounded
    · have taken : draft.payload.isSome = true := Option.isSome_iff_ne_none.mpr empty
      simp [taken, empty]
  simp only [if_neg kind, if_neg payload, fills_other kind payload, map_eq_ok, bind_eq_ok]
  constructor
  · rintro ⟨behind, ⟨value, colon, skips⟩, equal⟩
    cases equal
    obtain ⟨d, start, gap, written⟩ := (skipValue_eq_ok bounded).mp skips
    exact ⟨d, value, start, readColon_eq_ok.mp colon, gap, written, rfl⟩
  · rintro ⟨d, value, start, colon, gap, written, rfl⟩
    exact ⟨rest, ⟨value, readColon_eq_ok.mpr colon,
      (skipValue_eq_ok bounded).mpr ⟨d, start, gap, written⟩⟩, rfl⟩

/-- The draft makes an envelope at the end of its object. -/
def Makes (draft : Draft) (envelope : Envelope) : Prop :=
  draft.kind = some envelope.kind ∧ draft.payload.getD .null = envelope.payload

theorem written_of_readMembers {fuel : Nat} {first : Bool} {draft : Draft} {envelope : Envelope}
    (reads : readMembers fuel first draft text = .ok (envelope, rest)) :
    ∃ members entries after, WrittenMembers IsNumber first members text rest ∧
      Named members entries ∧ Fills draft entries after ∧ Makes after envelope := by
  induction fuel generalizing first draft text with
  | zero => cases reads
  | succ fuel inductionHypothesis =>
    rw [readMembers] at reads
    split at reads
    next => cases reads
    next finished =>
      split at reads
      next kind equal =>
        cases reads
        exact ⟨[], [], draft, .closed (nextMember_eq_finished.mp finished), .nil,
          fills_nil.mpr rfl, equal, rfl⟩
      next => cases reads
    next member =>
      split at reads
      next => cases reads
      next nameReads =>
        obtain ⟨name, chars, rfl, spells, rfl⟩ := readString_eq_ok.mp nameReads
        split at reads
        next => cases reads
        next middle behind memberReads =>
          obtain ⟨members, entries, after, others, named, fills, makes⟩ :=
            inductionHypothesis reads
          obtain ⟨d, value, start, colon, gap, written, fillsFirst⟩ :=
            (readMember_eq_ok (bounded_of_members others)).mp memberReads
          exact ⟨_, _, after,
            .member (nextMember_eq_name.mp member) spells.isBody colon gap written others,
            .cons spells named, fills_cons.mpr ⟨middle, fillsFirst, fills⟩, makes⟩

/-- Members whose draft makes an envelope are read.  Each takes a character at least. -/
theorem readMembers_of_written {members : List (List Char × Document)} {first : Bool}
    {entries : List (String × Document)} {draft after : Draft} {envelope : Envelope} {fuel : Nat}
    (written : WrittenMembers IsNumber first members text rest) (named : Named members entries)
    (fills : Fills draft entries after) (makes : Makes after envelope)
    (fueled : text.length < fuel) :
    readMembers fuel first draft text = .ok (envelope, rest) := by
  obtain ⟨fuel, rfl⟩ : ∃ less, fuel = less + 1 := ⟨fuel - 1, by omega⟩
  induction named generalizing first draft text fuel with
  | nil =>
    obtain rfl := fills_nil.mp fills
    obtain ⟨kind, payload⟩ := makes
    cases written with
    | closed gap =>
      rw [readMembers, nextMember_eq_finished.mpr gap]
      simp only [kind, payload]
  | cons spells named inductionHypothesis =>
    obtain ⟨middle, fillsFirst, fills⟩ := fills_cons.mp fills
    cases written with
    | member separated isBody colon gap written others =>
      -- The fuel that is left is still more than the text behind the member.
      have shorter := separated.length_le
      have item := written.length_lt
      have before := gap.length_le
      have mark := colon.length_le
      simp only [List.length_cons, List.length_append] at shorter mark
      obtain ⟨fuel, rfl⟩ : ∃ less, fuel = less + 1 := ⟨fuel - 1, by omega⟩
      have reads := (readMember_eq_ok (bounded_of_members others)).mpr
        ⟨_, _, _, colon, gap, written, fillsFirst⟩
      rw [readMembers, nextMember_eq_name.mpr separated]
      simp only [readString_of_spells spells, reads]
      exact inductionHypothesis others fills fuel (by omega)

theorem readListEnd_eq_ok : readListEnd text = .ok rest ↔ Gap text (']' :: rest) := by
  rw [← skipSpace_eq_cons (by decide)]
  unfold readListEnd
  split
  · simp_all
  · split <;> simp_all
  · simp_all
  · simp_all

theorem written_of_readList {envelope : Envelope} (reads : readList text = .ok (envelope, rest)) :
    ∃ d documents, WrittenItems IsNumber true (d :: documents) text rest ∧
      Says d envelope.kind ∧ Carries documents envelope.payload := by
  unfold readList at reads
  split at reads
  next => cases reads
  next => cases reads
  next item =>
    split at reads
    next => cases reads
    next kindReads =>
      obtain ⟨d, start, gap, written, speaks⟩ := readKind_eq_ok.mp kindReads
      have separated := (separated_of_nextItem item).trans gap
      split at reads
      next => cases reads
      next finished =>
        cases reads
        exact ⟨d, [], .item separated written (.closed (nextItem_eq_finished.mp finished)), speaks,
          .absent⟩
      next second =>
        split at reads
        next => cases reads
        next payloadReads =>
          obtain ⟨behind, ends, equal⟩ := map_eq_ok.mp reads
          cases equal
          have closed := readListEnd_eq_ok.mp ends
          obtain ⟨payload, start, gap, writtenPayload, denotes⟩ :=
            (readPayload_eq_ok (bounded_of_gap closed (by simp [Bounded]))).mp payloadReads
          exact ⟨d, [payload], .item separated written
            (.item ((separated_of_nextItem second).trans gap) writtenPayload (.closed closed)),
            speaks, .present denotes⟩

theorem readList_of_written {d : Document} {documents : List Document} {kind : String}
    {payload : Value} (written : WrittenItems IsNumber true (d :: documents) text rest)
    (speaks : Says d kind) (carries : Carries documents payload) :
    readList text = .ok (⟨kind, payload⟩, rest) := by
  cases written with
  | item separated written others =>
    have reads := readKind_eq_ok.mpr ⟨d, _, .none, written, speaks⟩
    obtain ⟨c, more, rfl, visible, closing⟩ := written.head
    unfold readList
    rw [nextItem_of_separated separated visible closing]
    simp only [reads]
    cases carries with
    | absent =>
      cases others with
      | closed gap => rw [nextItem_eq_finished.mpr gap]
    | present denotes =>
      cases others with
      | item separated written others =>
        cases others with
        | closed gap =>
          have bounded := bounded_of_gap gap (by simp [Bounded])
          have reads := (readPayload_eq_ok bounded).mpr ⟨_, _, .none, written, denotes⟩
          obtain ⟨c, more, rfl, visible, closing⟩ := written.head
          rw [nextItem_of_separated separated visible closing]
          simp only [reads, readListEnd_eq_ok.mpr gap]
          rfl

/-! ## Reading envelopes -/

/-- The documents that fill an empty draft are those of an envelope. -/
theorem fills_empty_iff {entries : List (String × Document)} {kind : String} {payload : Value} :
    (∃ after, Fills {} entries after ∧ Makes after ⟨kind, payload⟩) ↔
      ∃ d, documentsOf "kind" entries = [d] ∧ Says d kind ∧
        Carries (documentsOf "payload" entries) payload := by
  simp only [Fills, Makes]
  generalize documentsOf "kind" entries = kinds
  generalize documentsOf "payload" entries = payloads
  constructor
  · rintro ⟨⟨kind', payload'⟩, ⟨takesKind, takesPayload⟩, rfl, rfl⟩
    cases takesKind with
    | value speaks =>
      cases takesPayload with
      | nothing => exact ⟨_, rfl, speaks, .absent⟩
      | value denotes => exact ⟨_, rfl, speaks, .present denotes⟩
  · rintro ⟨d, rfl, speaks, carries⟩
    cases carries with
    | absent => exact ⟨⟨some kind, none⟩, ⟨.value speaks, .nothing⟩, rfl, rfl⟩
    | present denotes =>
      exact ⟨⟨some kind, some payload⟩, ⟨.value speaks, .value denotes⟩, rfl, rfl⟩

theorem read_eq_ok {kind : String} {payload : Value} :
    read text = .ok (⟨kind, payload⟩, rest) ↔
      ∃ d start, Gap text start ∧ Written IsNumber d start rest ∧ IsEnvelope d kind payload := by
  constructor
  · intro reads
    have gap := gap_skipSpace text
    unfold read at reads
    split at reads
    next equal =>
      rw [equal] at gap
      obtain ⟨d, documents, written, speaks, carries⟩ := written_of_readList reads
      exact ⟨_, _, gap, .array written, .list speaks carries⟩
    next equal =>
      rw [equal] at gap
      obtain ⟨members, entries, after, written, named, fills, makes⟩ :=
        written_of_readMembers reads
      obtain ⟨d, single, speaks, carries⟩ := fills_empty_iff.mp ⟨after, fills, makes⟩
      exact ⟨_, _, gap, .object written, .object named single speaks carries⟩
    next => cases reads
  · rintro ⟨d, start, gap, written, isEnvelope⟩
    cases isEnvelope with
    | object named single speaks carries =>
      cases written with
      | object written =>
        obtain ⟨after, fills, makes⟩ := fills_empty_iff.mpr ⟨_, single, speaks, carries⟩
        rw [read, (skipSpace_eq_cons (by decide)).mpr gap]
        exact readMembers_of_written written named fills makes (Nat.lt_succ_self _)
    | list speaks carries =>
      cases written with
      | array written =>
        rw [read, (skipSpace_eq_cons (by decide)).mpr gap]
        exact readList_of_written written speaks carries

/-- A line is read as an envelope just if it is the text of one. -/
theorem parse_eq_ok {line : List Char} {kind : String} {payload : Value} :
    parse line = .ok ⟨kind, payload⟩ ↔
      ∃ d, Document.IsText IsNumber d line ∧ IsEnvelope d kind payload := by
  have outcome : parse line = .ok ⟨kind, payload⟩ ↔
      ∃ rest, read line = .ok (⟨kind, payload⟩, rest) ∧ readEnd rest = .ok () := by
    rw [parse, mapError_eq_ok]
    cases read line with
    | error halt => exact ⟨nofun, nofun⟩
    | ok next =>
      obtain ⟨envelope, rest⟩ := next
      simp only [map_eq_ok, Except.ok.injEq, Prod.mk.injEq]
      constructor
      · rintro ⟨_, ends, rfl⟩
        exact ⟨rest, ⟨rfl, rfl⟩, ends⟩
      · rintro ⟨_, ⟨rfl, rfl⟩, ends⟩
        exact ⟨(), ends, rfl⟩
  rw [outcome]
  constructor
  · rintro ⟨rest, reads, ends⟩
    obtain ⟨d, start, gap, written, isEnvelope⟩ := read_eq_ok.mp reads
    exact ⟨d, ⟨start, rest, gap, written, readEnd_eq_ok.mp ends⟩, isEnvelope⟩
  · rintro ⟨d, ⟨start, rest, gap, written, ends⟩, isEnvelope⟩
    exact ⟨rest, read_eq_ok.mpr ⟨d, start, gap, written, isEnvelope⟩, readEnd_eq_ok.mpr ends⟩

end Envelope

end PawnQuery.Report
