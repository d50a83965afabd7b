import PawnQuery.Proofs.Json.NumberText

/-!
# What is written

The text of a value spells a document, on one line as well as with one item or member a line.  If
its numbers are all integers the document denotes the value; so what is written can be read back,
wherever a document can end.
-/

namespace PawnQuery.Json

/-! ## Strings -/

/-- What is written of a string between its quotes. -/
def escaped (s : String) : List Char := s.toList.flatMap escapeChar

theorem renderString_eq (s : String) : renderString s = '"' :: (escaped s ++ ['"']) := rfl

theorem hexQuad?_hexChar {n : Nat} (control : n < 0x20) :
    hexQuad? '0' '0' (hexChar (n / 16)) (hexChar (n % 16)) = some n := by
  revert n
  decide

theorem spells_escapeChar (c : Char) {body chars : List Char} (more : Spells body chars) :
    Spells (escapeChar c ++ body) (c :: chars) := by
  unfold escapeChar
  split_ifs with quote backslash visible backspace tab newline feed carriage
  · subst quote
    exact .short rfl more
  · subst backslash
    exact .short rfl more
  · exact .plain visible quote backslash more
  · subst backspace
    exact .short rfl more
  · subst tab
    exact .short rfl more
  · subst newline
    exact .short rfl more
  · subst feed
    exact .short rfl more
  · subst carriage
    exact .short rfl more
  · have small : c.toNat < 0x20 := Nat.lt_of_not_le visible
    have leading : isLeading c.toNat = false := by
      simp only [isLeading, Bool.and_eq_false_iff, decide_eq_false_iff_not]
      omega
    have trailing : isTrailing c.toNat = false := by
      simp only [isTrailing, Bool.and_eq_false_iff, decide_eq_false_iff_not]
      omega
    have unit := Spells.unit (hexQuad?_hexChar small) leading trailing more
    rwa [Char.ofNat_toNat] at unit

theorem spells_escaped (s : String) : Spells (escaped s) s.toList := by
  unfold escaped
  induction s.toList with
  | nil => exact .empty
  | cons c chars inductionHypothesis => exact spells_escapeChar c inductionHypothesis

/-! ## Values -/

mutual

/-- The document that the text of a value spells. -/
def spell : Value → Document
  | .null => .null
  | .bool b => .bool b
  | .number n => .number n.text.toList
  | .string s => .string (escaped s)
  | .array items => .array (spellItems items)
  | .object members => .object (spellMembers members)

def spellItems : List Value → List Document
  | [] => []
  | v :: items => spell v :: spellItems items

def spellMembers : List (String × Value) → List (List Char × Document)
  | [] => []
  | (name, v) :: members => (escaped name, spell v) :: spellMembers members

end

variable {numbers : List Char → Prop}

theorem WrittenItems.behind_comma {d : Document} {items : List Document} {text rest : List Char}
    (inside : WrittenItems numbers true (d :: items) text rest) :
    WrittenItems numbers Bool.false (d :: items) (',' :: text) rest := by
  cases inside with
  | item separated written others =>
    cases separated with
    | first gap => exact .item (.next .none gap) written others

theorem WrittenMembers.behind_comma {m : List Char × Document}
    {members : List (List Char × Document)} {text rest : List Char}
    (inside : WrittenMembers numbers true (m :: members) text rest) :
    WrittenMembers numbers Bool.false (m :: members) (',' :: text) rest := by
  cases inside with
  | member separated isBody colon gap written others =>
    cases separated with
    | first before => exact .member (.next .none before) isBody colon gap written others

theorem written_string (s : String) (rest : List Char) :
    Written numbers (.string (escaped s)) (renderString s ++ rest) rest := by
  rw [renderString_eq, List.cons_append, List.append_assoc]
  exact .string (spells_escaped s).isBody

theorem isNumber_text : (n : Number) → IsNumber n.text.toList
  | .int i => isNumber_int i
  | .real x => isNumber_real x

/-! ## On one line -/

mutual

/-- The text of a value spells its document. -/
theorem written_renderChars (rest : List Char) :
    (v : Value) → Written IsNumber (spell v) (v.renderChars ++ rest) rest
  | .null => .null
  | .bool Bool.true => .true
  | .bool Bool.false => .false
  | .number n => .number (isNumber_text n)
  | .string s => written_string s rest
  | .array items => .array (written_renderItems rest items)
  | .object members => .object (written_renderMembers rest members)

theorem written_renderItems (rest : List Char) :
    (items : List Value) →
      WrittenItems IsNumber Bool.true (spellItems items) (Value.renderItems items ++ rest) rest
  | [] => .closed .none
  | [v] => by
    have item := written_renderChars (']' :: rest) v
    rw [Value.renderItems, List.append_assoc]
    exact .item (.first .none) item (.closed .none)
  | v :: w :: items => by
    have item := written_renderChars (',' :: (Value.renderItems (w :: items) ++ rest)) v
    have behind := written_renderItems rest (w :: items)
    rw [Value.renderItems, List.append_assoc]
    · exact .item (.first .none) item behind.behind_comma
    · simp

theorem written_renderMembers (rest : List Char) :
    (members : List (String × Value)) →
      WrittenMembers IsNumber Bool.true (spellMembers members) (Value.renderMembers members ++ rest)
        rest
  | [] => .closed .none
  | [(name, v)] => by
    have value := written_renderChars ('\x7d' :: rest) v
    have text : Value.renderMembers [(name, v)] ++ rest =
        '"' :: (escaped name ++ '"' :: ':' :: (v.renderChars ++ '\x7d' :: rest)) := by
      simp [Value.renderMembers, renderString_eq]
    rw [text]
    exact .member (.first .none) (spells_escaped name).isBody .none .none value (.closed .none)
  | (name, v) :: m :: members => by
    have value := written_renderChars (',' :: (Value.renderMembers (m :: members) ++ rest)) v
    have behind := written_renderMembers rest (m :: members)
    have text : Value.renderMembers ((name, v) :: m :: members) ++ rest =
        '"' :: (escaped name ++ '"' :: ':' ::
          (v.renderChars ++ ',' :: (Value.renderMembers (m :: members) ++ rest))) := by
      simp [Value.renderMembers, renderString_eq]
    rw [text]
    exact .member (.first .none) (spells_escaped name).isBody .none .none value behind.behind_comma

end

theorem isText_render (v : Value) : (spell v).IsText IsNumber v.render.toList := by
  have written := written_renderChars [] v
  rw [Value.render, String.toList_ofList]
  exact ⟨_, [], .none, by simpa using written, .none⟩

/-! ## One item a line -/

theorem gap_blank {blank : List Char} (spaces : ∀ c ∈ blank, isSpace c = true) (rest : List Char) :
    Gap (blank ++ rest) rest := by
  induction blank with
  | nil => exact .none
  | cons c blank inductionHypothesis =>
    obtain ⟨first, others⟩ := List.forall_mem_cons.mp spaces
    exact .blank first (inductionHypothesis others)

theorem gap_newLine (level : Nat) (rest : List Char) : Gap (Value.newLine level ++ rest) rest := by
  refine gap_blank (List.forall_mem_cons.mpr ⟨rfl, fun c listed => ?_⟩) rest
  rw [List.eq_of_mem_replicate listed]
  rfl

mutual

theorem written_prettyChars (level : Nat) (rest : List Char) :
    (v : Value) → Written IsNumber (spell v) (v.prettyChars level ++ rest) rest
  | .null => .null
  | .bool Bool.true => .true
  | .bool Bool.false => .false
  | .number n => .number (isNumber_text n)
  | .string s => written_string s rest
  | .array [] => .array (.closed .none)
  | .array (v :: items) => .array (written_prettyItems level rest (v :: items))
  | .object [] => .object (.closed .none)
  | .object (m :: members) => .object (written_prettyMembers level rest (m :: members))

theorem written_prettyItems (level : Nat) (rest : List Char) :
    (items : List Value) →
      WrittenItems IsNumber Bool.true (spellItems items) (Value.prettyItems level items ++ rest)
        rest
  | [] => by
    rw [Value.prettyItems, List.append_assoc]
    exact .closed (gap_newLine level _)
  | [v] => by
    have item := written_prettyChars (level + 1) (Value.newLine level ++ ']' :: rest) v
    simp only [Value.prettyItems, List.append_assoc, List.singleton_append]
    exact .item (.first (gap_newLine _ _)) item (.closed (gap_newLine level _))
  | v :: w :: items => by
    have item := written_prettyChars (level + 1)
      (',' :: (Value.prettyItems level (w :: items) ++ rest)) v
    have behind := written_prettyItems level rest (w :: items)
    simp only [Value.prettyItems, List.append_assoc, List.cons_append]
    exact .item (.first (gap_newLine _ _)) item behind.behind_comma

theorem written_prettyMembers (level : Nat) (rest : List Char) :
    (members : List (String × Value)) →
      WrittenMembers IsNumber Bool.true (spellMembers members)
        (Value.prettyMembers level members ++ rest) rest
  | [] => by
    rw [Value.prettyMembers, List.append_assoc]
    exact .closed (gap_newLine level _)
  | [(name, v)] => by
    have value := written_prettyChars (level + 1) (Value.newLine level ++ '\x7d' :: rest) v
    have text : Value.prettyMembers level [(name, v)] ++ rest =
        Value.newLine (level + 1) ++ '"' :: (escaped name ++ '"' :: ':' :: ' ' ::
          (v.prettyChars (level + 1) ++ (Value.newLine level ++ '\x7d' :: rest))) := by
      simp [Value.prettyMembers, renderString_eq]
    rw [text]
    exact .member (.first (gap_newLine _ _)) (spells_escaped name).isBody .none
      (.blank rfl .none) value (.closed (gap_newLine level _))
  | (name, v) :: m :: members => by
    have value := written_prettyChars (level + 1)
      (',' :: (Value.prettyMembers level (m :: members) ++ rest)) v
    have behind := written_prettyMembers level rest (m :: members)
    have text : Value.prettyMembers level ((name, v) :: m :: members) ++ rest =
        Value.newLine (level + 1) ++ '"' :: (escaped name ++ '"' :: ':' :: ' ' ::
          (v.prettyChars (level + 1) ++ ',' ::
            (Value.prettyMembers level (m :: members) ++ rest))) := by
      simp [Value.prettyMembers, renderString_eq]
    rw [text]
    exact .member (.first (gap_newLine _ _)) (spells_escaped name).isBody .none
      (.blank rfl .none) value behind.behind_comma

end

/-- The text of a value with one item or member a line, up to blanks behind it. -/
theorem isText_pretty (v : Value) {behind : List Char} (gap : Gap behind []) :
    (spell v).IsText IsNumber (v.pretty.toList ++ behind) := by
  rw [Value.pretty, String.toList_ofList]
  exact ⟨_, behind, .none, written_prettyChars 0 behind v, gap⟩

/-! ## Reading back -/

/-- All numbers in the value are integers. -/
inductive Integral : Value → Prop where
  | null : Integral .null
  | bool {b : Bool} : Integral (.bool b)
  | int {i : Int} : Integral (.number (.int i))
  | string {s : String} : Integral (.string s)
  | array {items : List Value} (inside : ∀ v ∈ items, Integral v) : Integral (.array items)
  | object {members : List Member} (inside : ∀ m ∈ members, Integral m.2) :
      Integral (.object members)

theorem denotes_string (s : String) (depth : Nat) :
    Denotes depth (.string (escaped s)) (.string s) := by
  have denotes : Denotes depth (.string (escaped s)) (.string (String.ofList s.toList)) :=
    .string (spells_escaped s)
  rwa [String.ofList_toList] at denotes

mutual

theorem denotes_spell {depth : Nat} : (v : Value) → Orderly depth v → Integral v →
    Denotes depth (spell v) v
  | .null, _, _ => .null
  | .bool _, _, _ => .bool
  | .number (.int i), orderly, _ => by
    cases orderly with
    | number inRange => exact denotes_int inRange depth
  | .number (.real x), _, integral => by cases integral
  | .string s, _, _ => denotes_string s depth
  | .array items, orderly, integral => by
    cases integral with
    | array integral =>
      cases orderly with
      | array orderly => exact .array (denotes_spellItems items orderly integral)
  | .object members, orderly, integral => by
    cases integral with
    | object integral =>
      cases orderly with
      | object ascending orderly =>
        have inside := denotes_spellMembers [] members orderly integral
        rw [Value.insertAll_of_ascending (by simpa using ascending), List.nil_append] at inside
        exact .object inside

theorem denotes_spellItems {depth : Nat} :
    (items : List Value) → (∀ v ∈ items, Orderly depth v) → (∀ v ∈ items, Integral v) →
      DenotesItems depth (spellItems items) items
  | [], _, _ => .nil
  | v :: items, orderly, integral => by
    obtain ⟨orderly, orderlyOthers⟩ := List.forall_mem_cons.mp orderly
    obtain ⟨integral, integralOthers⟩ := List.forall_mem_cons.mp integral
    exact .cons (denotes_spell v orderly integral)
      (denotes_spellItems items orderlyOthers integralOthers)

/-- Members in any order denote the members in the order of their names. -/
theorem denotes_spellMembers {depth : Nat} (done : List Member) :
    (members : List (String × Value)) → (∀ m ∈ members, Orderly depth m.2) →
      (∀ m ∈ members, Integral m.2) →
        DenotesMembers depth done (spellMembers members) (Value.insertAll done members)
  | [], _, _ => .nil
  | (name, v) :: members, orderly, integral => by
    obtain ⟨orderly, orderlyOthers⟩ := List.forall_mem_cons.mp orderly
    obtain ⟨integral, integralOthers⟩ := List.forall_mem_cons.mp integral
    have others := denotes_spellMembers (Value.insertMember name v done) members orderlyOthers
      integralOthers
    refine .cons (spells_escaped name) (denotes_spell v orderly integral) ?_
    rw [String.ofList_toList]
    exact others

end

end PawnQuery.Json
