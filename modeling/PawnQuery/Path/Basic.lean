/-!
# Paths

A path keeps the text it was given.  Two paths name the same place when their components agree:
repeated and trailing slashes and single dots do not count, except that a dot in front of a
relative path is a component of its own.  Nothing is looked up: two dots stay two dots.
-/

namespace PawnQuery

/-- A path as it was written. -/
structure Path where
  text : String
deriving DecidableEq, Repr, Inhabited

namespace Path

inductive Component where
  | root
  /-- A dot in front of a relative path. -/
  | here
  | up
  | name (text : String)
deriving DecidableEq, Repr

/-! ## Pieces between slashes -/

/-- The pieces of a text between its slashes; at least one. -/
def pieces : List Char → List (List Char)
  | [] => [[]]
  | c :: rest =>
    if c = '/' then [] :: pieces rest
    else
      match pieces rest with
      | [] => [[c]]
      | piece :: more => (c :: piece) :: more

def joinPieces : List (List Char) → List Char
  | [] => []
  | [piece] => piece
  | piece :: more => piece ++ '/' :: joinPieces more

/-- A piece that is no step: nothing, or a dot. -/
def isIdle (piece : List Char) : Bool :=
  piece == [] || piece == ['.']

def step? (piece : List Char) : Option Component :=
  if isIdle piece then none
  else if piece = ['.', '.'] then some .up
  else some (.name (String.ofList piece))

/-- What a path begins with, apart from its steps. -/
inductive Lead where
  | none
  | root
  | here
deriving DecidableEq, Repr

def splitLead : List Char → Lead × List Char
  | '/' :: rest => (.root, rest)
  | ['.'] => (.here, [])
  | '.' :: '/' :: rest => (.here, '/' :: rest)
  | rest => (.none, rest)

def Lead.components : Lead → List Component
  | .none => []
  | .root => [.root]
  | .here => [.here]

def Lead.text : Lead → List Char
  | .none => []
  | .root => ['/']
  | .here => ['.']

/-! ## Components -/

def components (p : Path) : List Component :=
  let (lead, body) := splitLead p.text.toList
  lead.components ++ (pieces body).filterMap step?

/-- The two paths agree component by component. -/
def Same (p q : Path) : Prop := p.components = q.components

instance (p q : Path) : Decidable (p.Same q) :=
  inferInstanceAs (Decidable (p.components = q.components))

def same (p q : Path) : Bool := p.components == q.components

@[simp] theorem same_iff {p q : Path} : p.same q = true ↔ p.Same q := by
  simp [same, Same]

theorem Same.refl (p : Path) : p.Same p := rfl

theorem Same.symm {p q : Path} (h : p.Same q) : q.Same p := Eq.symm h

theorem Same.trans {p q r : Path} (h : p.Same q) (k : q.Same r) : p.Same r := Eq.trans h k

/-- The path lies in `base` or is `base`, component by component. -/
def startsWith (p base : Path) : Bool :=
  base.components.isPrefixOf p.components

def isAbsolute (p : Path) : Bool :=
  match p.text.toList with
  | '/' :: _ => true
  | _ => false

def isEmpty (p : Path) : Bool := p.text.isEmpty

def fileName? (p : Path) : Option String :=
  match p.components.getLast? with
  | some (.name text) => some text
  | _ => none

/-! ## Parent and join -/

/-- The path without its last component, or none if there is no component to take away. -/
def parent? (p : Path) : Option Path :=
  let (lead, body) := splitLead p.text.toList
  match (pieces body).reverse.dropWhile isIdle with
  | _ :: before =>
    some ⟨String.ofList (lead.text ++ joinPieces (before.dropWhile isIdle).reverse)⟩
  | [] => if lead = .here then some ⟨""⟩ else none

/-- `q` seen from `p`: itself if it is absolute, else behind `p` and a slash. -/
def join (p q : Path) : Path :=
  if q.isAbsolute then q
  else if p.isEmpty || p.text.toList.getLast? == some '/' then ⟨p.text ++ q.text⟩
  else ⟨p.text ++ "/" ++ q.text⟩

def joinText (p : Path) (name : String) : Path := p.join ⟨name⟩

def Component.text : Component → String
  | .root => "/"
  | .here => "."
  | .up => ".."
  | .name text => text

def extend (p : Path) (steps : List Component) : Path :=
  steps.foldl (fun q s => q.joinText s.text) p

/-- The path as seen from the root, given the directory it is relative to.  Dots and repeated
slashes go, a trailing slash and two slashes in front stay, and nothing is looked up. -/
def absolute (directory p : Path) : Path :=
  let steps :=
    match p.components with
    | .here :: rest => rest
    | steps => steps
  let base : Path × List Component :=
    if p.isAbsolute then
      match p.text.toList with
      | '/' :: '/' :: '/' :: _ => (⟨""⟩, steps)
      | '/' :: '/' :: _ => (⟨"//"⟩, steps.drop 1)
      | _ => (⟨""⟩, steps)
    else (directory, steps)
  let q := base.1.extend base.2
  if p.text.toList.getLast? = some '/' then q.joinText "" else q

end Path

end PawnQuery
