import PawnQuery.Json.Reader

/-!
# The grammar of documents

What a JSON text is, apart from any way of reading it.  A text spells a document: numbers, strings
and names as they stand in the text, members in the order of the text.  The rules relate a document
to the text that it stands at the beginning of and to what is left of the text behind it, so no rule
has to take a text apart.  Which spellings are numbers is left open, since reports have more of them
than JSON knows.

A document in turn denotes a value if its numbers are in range, its code units pair up and its lists
and objects do not nest too deep; of members that share a name the last one counts.
-/

namespace PawnQuery.Json

/-- A document as its text spells it. -/
inductive Document where
  | null
  | bool (value : Bool)
  | number (spelling : List Char)
  | string (body : List Char)
  | array (items : List Document)
  | object (members : List (List Char × Document))

/-! ## Tokens -/

/-- Blanks, up to the rest of a text. -/
inductive Gap : List Char → List Char → Prop where
  | none {rest : List Char} : Gap rest rest
  | blank {c : Char} {text rest : List Char} (space : isSpace c = true) (more : Gap text rest) :
      Gap (c :: text) rest

def IsDigit (c : Char) : Prop := (decimalDigit? c).isSome = true

instance (c : Char) : Decidable (IsDigit c) := inferInstanceAs (Decidable (_ = true))

/-- Digits, one at least. -/
def IsDigits (text : List Char) : Prop := text ≠ [] ∧ ∀ c ∈ text, IsDigit c

/-- The digits in front of the point; only zero begins with a zero. -/
def IsWhole (text : List Char) : Prop :=
  text = ['0'] ∨ IsDigits text ∧ text.head? ≠ some '0'

/-- The point and the digits behind it, if there is a point. -/
inductive IsFraction : List Char → Prop where
  | absent : IsFraction []
  | point {digits : List Char} (some : IsDigits digits) : IsFraction ('.' :: digits)

def IsSign (text : List Char) : Prop := text = [] ∨ text = ['+'] ∨ text = ['-']

/-- The exponent and its sign, if there is an exponent. -/
inductive IsExponent : List Char → Prop where
  | absent : IsExponent []
  | power {e : Char} {sign digits : List Char} (mark : e = 'e' ∨ e = 'E') (isSign : IsSign sign)
      (some : IsDigits digits) : IsExponent (e :: (sign ++ digits))

inductive IsMagnitude : List Char → Prop where
  | parts {whole fraction exponent : List Char} (isWhole : IsWhole whole)
      (isFraction : IsFraction fraction) (isExponent : IsExponent exponent) :
      IsMagnitude (whole ++ fraction ++ exponent)

inductive IsNumber : List Char → Prop where
  | positive {digits : List Char} (magnitude : IsMagnitude digits) : IsNumber digits
  | negative {digits : List Char} (magnitude : IsMagnitude digits) : IsNumber ('-' :: digits)

/-- What may stand between the quotes of a string. -/
inductive IsBody : List Char → Prop where
  | empty : IsBody []
  | plain {c : Char} {body : List Char} (visible : 0x20 ≤ c.toNat) (quote : c ≠ '"')
      (backslash : c ≠ '\\') (more : IsBody body) : IsBody (c :: body)
  | short {c : Char} {body : List Char} (escape : (shortEscape? c).isSome = true)
      (more : IsBody body) : IsBody ('\\' :: c :: body)
  | unit {a b c d : Char} {body : List Char} (digits : (hexQuad? a b c d).isSome = true)
      (more : IsBody body) : IsBody ('\\' :: 'u' :: a :: b :: c :: d :: body)

/-! ## Texts -/

/-- What stands in front of an item or member: blanks, and a comma unless it is the first. -/
inductive Separated : (first : Bool) → List Char → List Char → Prop where
  | first {text rest : List Char} (gap : Gap text rest) : Separated true text rest
  | next {text middle rest : List Char} (comma : Gap text (',' :: middle)) (gap : Gap middle rest) :
      Separated false text rest

mutual

/-- A document stands at the beginning of a text, the rest of the text behind it. -/
inductive Written (numbers : List Char → Prop) : Document → List Char → List Char → Prop where
  | null {rest : List Char} : Written numbers .null ('n' :: 'u' :: 'l' :: 'l' :: rest) rest
  | true {rest : List Char} : Written numbers (.bool true) ('t' :: 'r' :: 'u' :: 'e' :: rest) rest
  | false {rest : List Char} :
      Written numbers (.bool false) ('f' :: 'a' :: 'l' :: 's' :: 'e' :: rest) rest
  | number {spelling rest : List Char} (spelled : numbers spelling) :
      Written numbers (.number spelling) (spelling ++ rest) rest
  | string {body rest : List Char} (isBody : IsBody body) :
      Written numbers (.string body) ('"' :: (body ++ '"' :: rest)) rest
  | array {items : List Document} {text rest : List Char}
      (inside : WrittenItems numbers Bool.true items text rest) :
      Written numbers (.array items) ('[' :: text) rest
  | object {members : List (List Char × Document)} {text rest : List Char}
      (inside : WrittenMembers numbers Bool.true members text rest) :
      Written numbers (.object members) ('\x7b' :: text) rest

inductive WrittenItems (numbers : List Char → Prop) :
    (first : Bool) → List Document → List Char → List Char → Prop where
  | closed {first : Bool} {text rest : List Char} (gap : Gap text (']' :: rest)) :
      WrittenItems numbers first [] text rest
  | item {first : Bool} {d : Document} {items : List Document} {text start middle rest : List Char}
      (separated : Separated first text start) (written : Written numbers d start middle)
      (others : WrittenItems numbers Bool.false items middle rest) :
      WrittenItems numbers first (d :: items) text rest

inductive WrittenMembers (numbers : List Char → Prop) :
    (first : Bool) → List (List Char × Document) → List Char → List Char → Prop where
  | closed {first : Bool} {text rest : List Char} (gap : Gap text ('\x7d' :: rest)) :
      WrittenMembers numbers first [] text rest
  | member {first : Bool} {name : List Char} {d : Document} {members : List (List Char × Document)}
      {text behind value start middle rest : List Char}
      (separated : Separated first text ('"' :: (name ++ '"' :: behind))) (isBody : IsBody name)
      (colon : Gap behind (':' :: value)) (gap : Gap value start)
      (written : Written numbers d start middle)
      (others : WrittenMembers numbers Bool.false members middle rest) :
      WrittenMembers numbers first ((name, d) :: members) text rest

end

def Document.IsText (numbers : List Char → Prop) (d : Document) (text : List Char) : Prop :=
  ∃ start rest, Gap text start ∧ Written numbers d start rest ∧ Gap rest []

/-- A document can end here: nothing follows, or a blank or a mark that belongs to no document. -/
def Bounded (rest : List Char) : Prop :=
  ∀ c ∈ rest.head?, isSpace c = true ∨ c = ',' ∨ c = ']' ∨ c = '\x7d'

/-! ## Values -/

/-- The characters that the body of a string stands for.  Code units outside the basic plane come in
pairs. -/
inductive Spells : List Char → List Char → Prop where
  | empty : Spells [] []
  | plain {c : Char} {body chars : List Char} (visible : 0x20 ≤ c.toNat) (quote : c ≠ '"')
      (backslash : c ≠ '\\') (more : Spells body chars) : Spells (c :: body) (c :: chars)
  | short {c x : Char} {body chars : List Char} (escape : shortEscape? c = some x)
      (more : Spells body chars) : Spells ('\\' :: c :: body) (x :: chars)
  | unit {a b c d : Char} {value : Nat} {body chars : List Char}
      (digits : hexQuad? a b c d = some value) (whole : isLeading value = false)
      (trailing : isTrailing value = false) (more : Spells body chars) :
      Spells ('\\' :: 'u' :: a :: b :: c :: d :: body) (Char.ofNat value :: chars)
  | pair {a b c d e f g h : Char} {first second : Nat} {body chars : List Char}
      (digits : hexQuad? a b c d = some first) (leading : isLeading first = true)
      (others : hexQuad? e f g h = some second) (trailing : isTrailing second = true)
      (more : Spells body chars) :
      Spells ('\\' :: 'u' :: a :: b :: c :: d :: '\\' :: 'u' :: e :: f :: g :: h :: body)
        (pairChar first second :: chars)

mutual

/-- The value of a document whose lists and objects nest at most `depth` deep. -/
inductive Denotes : (depth : Nat) → Document → Value → Prop where
  | null {depth : Nat} : Denotes depth .null .null
  | bool {depth : Nat} {b : Bool} : Denotes depth (.bool b) (.bool b)
  | positive {depth : Nat} {digits : List Char} {n : Number}
      (reads : readNumber false digits = .ok (n, [])) :
      Denotes depth (.number digits) (.number n)
  | negative {depth : Nat} {digits : List Char} {n : Number}
      (reads : readNumber true digits = .ok (n, [])) :
      Denotes depth (.number ('-' :: digits)) (.number n)
  | string {depth : Nat} {body chars : List Char} (spells : Spells body chars) :
      Denotes depth (.string body) (.string (String.ofList chars))
  | array {depth : Nat} {items : List Document} {values : List Value}
      (inside : DenotesItems depth items values) :
      Denotes (depth + 1) (.array items) (.array values)
  | object {depth : Nat} {members : List (List Char × Document)} {values : List Member}
      (inside : DenotesMembers depth [] members values) :
      Denotes (depth + 1) (.object members) (.object values)

inductive DenotesItems : (depth : Nat) → List Document → List Value → Prop where
  | nil {depth : Nat} : DenotesItems depth [] []
  | cons {depth : Nat} {d : Document} {items : List Document} {v : Value} {values : List Value}
      (item : Denotes depth d v) (others : DenotesItems depth items values) :
      DenotesItems depth (d :: items) (v :: values)

/-- The members of an object, those behind others that are done already. -/
inductive DenotesMembers :
    (depth : Nat) → (done : List Member) → List (List Char × Document) → List Member → Prop where
  | nil {depth : Nat} {done : List Member} : DenotesMembers depth done [] done
  | cons {depth : Nat} {name chars : List Char} {d : Document}
      {members : List (List Char × Document)} {v : Value} {done values : List Member}
      (spells : Spells name chars) (value : Denotes depth d v)
      (others : DenotesMembers depth (Value.insertMember (String.ofList chars) v done) members
        values) :
      DenotesMembers depth done ((name, d) :: members) values

end

end PawnQuery.Json
