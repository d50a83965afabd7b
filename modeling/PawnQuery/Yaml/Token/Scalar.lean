import PawnQuery.Yaml.Token.Basic

/-!
# Scalars

Plain and quoted scalars may go on over several lines: a line break inside reads as a blank, and of
several breaks in a row the first is dropped.  Block scalars keep their lines or fold them.
-/

namespace PawnQuery.Yaml.Token

/-! ## Gaps -/

/-- Blanks and line breaks between two stretches of a scalar. -/
structure Gap where
  blanks : List Char := []
  first : List Char := []
  others : List Char := []
  broken : Bool := false
deriving Repr, Inhabited

def foldBreaks (first others : List Char) : List Char :=
  if first = ['\n'] then (if others.isEmpty then [' '] else others) else first ++ others

def Gap.text (g : Gap) : List Char :=
  if g.broken then foldBreaks g.first g.others else g.blanks.reverse

/-- Passes over blanks and line breaks; behind a line break no tab may stand before column
`indent`. -/
def readGap (indent : Nat) : (fuel : Nat) → Gap → Cursor → Except Fault (Gap × Cursor)
  | 0, g, c => .ok (g, c)
  | fuel + 1, g, c =>
    match c.rest with
    | [] => .ok (g, c)
    | x :: _ =>
      if isBlank x then
        if g.broken then
          if x = '\t' ∧ c.column < indent then .error .tabInIndentation
          else readGap indent fuel g c.skip
        else readGap indent fuel { g with blanks := x :: g.blanks } c.skip
      else if isBreak x then
        let (after, read) := c.readBreak
        if g.broken then readGap indent fuel { g with others := g.others ++ read } after
        else readGap indent fuel { g with blanks := [], first := read, broken := true } after
      else .ok (g, c)

/-! ## Quoted scalars -/

def hexValue? (digits : List Char) : Option Nat :=
  digits.foldlM
    (fun n d =>
      if '0' ≤ d ∧ d ≤ '9' then some (n * 16 + (d.toNat - 0x30))
      else if 'a' ≤ d ∧ d ≤ 'f' then some (n * 16 + (d.toNat - 0x57))
      else if 'A' ≤ d ∧ d ≤ 'F' then some (n * 16 + (d.toNat - 0x37))
      else none)
    0

def namedEscape? : Char → Option Char
  | '0' => some '\x00'
  | 'a' => some '\x07'
  | 'b' => some '\x08'
  | 't' => some '\t'
  | '\t' => some '\t'
  | 'n' => some '\n'
  | 'v' => some '\x0b'
  | 'f' => some '\x0c'
  | 'r' => some '\r'
  | 'e' => some '\x1b'
  | ' ' => some ' '
  | '"' => some '"'
  | '/' => some '/'
  | '\\' => some '\\'
  | 'N' => some (Char.ofNat 0x85)
  | '_' => some (Char.ofNat 0xA0)
  | 'L' => some (Char.ofNat 0x2028)
  | 'P' => some (Char.ofNat 0x2029)
  | _ => none

def codeLength? : Char → Option Nat
  | 'x' => some 2
  | 'u' => some 4
  | 'U' => some 8
  | _ => none

def readEscape (c : Cursor) : Except Fault (Char × Cursor) :=
  match c.rest with
  | [] => .error .badEscape
  | x :: rest =>
    match namedEscape? x with
    | some e => .ok (e, c.skip)
    | none =>
      match codeLength? x with
      | none => .error .badEscape
      | some length =>
        let digits := rest.take length
        match hexValue? digits with
        | none => .error .badEscape
        | some n =>
          if digits.length = length ∧ (n < 0xD800 ∨ 0xDFFF < n) ∧ n ≤ 0x10FFFF then
            .ok (Char.ofNat n, c.skipMany (length + 1))
          else .error .badEscape

/-- Reads a stretch of a quoted scalar up to a blank, a line break or the closing quote.  What is
read has the latest first; the flag says that a line break behind a backslash ended it. -/
def readQuotedRun (quote : Char) :
    (fuel : Nat) → List Char → Cursor → Except Fault (List Char × Cursor × Bool)
  | 0, acc, c => .ok (acc, c, false)
  | fuel + 1, acc, c =>
    match c.rest with
    | [] => .ok (acc, c, false)
    | x :: rest =>
      if isBlank x || isBreak x then .ok (acc, c, false)
      else if x = quote then
        if quote = '\x27' ∧ rest.head? = some '\x27' then
          readQuotedRun quote fuel ('\x27' :: acc) c.skip.skip
        else .ok (acc, c, false)
      else if quote = '"' ∧ x = '\\' then
        if rest.head?.any isBreak then .ok (acc, c.skip.readBreak.1, true)
        else
          match readEscape c.skip with
          | .error fault => .error fault
          | .ok (e, after) => readQuotedRun quote fuel (e :: acc) after
      else readQuotedRun quote fuel (x :: acc) c.skip

def readQuoted (quote : Char) :
    (fuel : Nat) → List Char → Cursor → Except Fault (String × Cursor)
  | 0, _, _ => .error .unendedQuote
  | fuel + 1, acc, c =>
    if c.atDocumentMark then .error .documentMarkInQuote
    else if c.rest.isEmpty then .error .unendedQuote
    else
      match readQuotedRun quote c.rest.length acc c with
      | .error fault => .error fault
      | .ok (acc, after, escaped) =>
        if after.rest.head? == some quote then
          .ok (String.ofList acc.reverse, after.skip)
        else
          match readGap 0 after.rest.length { broken := escaped } after with
          | .error fault => .error fault
          | .ok (gap, after) => readQuoted quote fuel (gap.text.reverse ++ acc) after

/-! ## Plain scalars -/

def readPlainRun (inFlow : Bool) :
    (fuel : Nat) → List Char → Cursor → Except Fault (List Char × Cursor)
  | 0, acc, c => .ok (acc, c)
  | fuel + 1, acc, c =>
    match c.rest with
    | [] => .ok (acc, c)
    | x :: rest =>
      if isBlank x || isBreak x then .ok (acc, c)
      else if inFlow && x == ':' && rest.head?.any (fun d => isFlowIndicator d || d == '?') then
        .error .unexpectedColon
      else if (x == ':' && atBlankOrEnd rest) || (inFlow && isFlowIndicator x) then .ok (acc, c)
      else readPlainRun inFlow fuel (x :: acc) c.skip

/-- Reads a plain scalar whose lines are indented by `indent` columns at least.  `gap` is what
stands before the next stretch; the flag says that the scalar was followed by a line break. -/
def readPlain (inFlow : Bool) (indent : Nat) :
    (fuel : Nat) → List Char → Gap → Cursor → Except Fault (String × Cursor × Bool)
  | 0, acc, gap, c => .ok (String.ofList acc.reverse, c, gap.broken)
  | fuel + 1, acc, gap, c =>
    if c.atDocumentMark || c.rest.head? == some '#' then
      .ok (String.ofList acc.reverse, c, gap.broken)
    else
      match readPlainRun inFlow c.rest.length [] c with
      | .error fault => .error fault
      | .ok (run, after) =>
        let joined := if run.isEmpty then acc else run ++ gap.text.reverse ++ acc
        let before : Gap := if run.isEmpty then gap else {}
        if after.rest.head?.any (fun x => isBlank x || isBreak x) then
          match readGap indent after.rest.length before after with
          | .error fault => .error fault
          | .ok (gap, after) =>
            if !inFlow && after.column < indent then
              .ok (String.ofList joined.reverse, after, gap.broken)
            else readPlain inFlow indent fuel joined gap after
        else .ok (String.ofList joined.reverse, after, before.broken)

/-! ## Block scalars -/

inductive Chomping where
  | strip
  | clip
  | keep
deriving DecidableEq, Repr

def chomping? : Char → Option Chomping
  | '+' => some .keep
  | '-' => some .strip
  | _ => none

def readBlockHeader (c : Cursor) : Except Fault (Chomping × Nat × Cursor) :=
  let digit? (x : Char) : Option Nat := if x.isDigit then some (x.toNat - 0x30) else none
  let increment (c : Cursor) : Except Fault (Nat × Cursor) :=
    match c.rest.head?.bind digit? with
    | none => .ok (0, c)
    | some 0 => .error .badBlockHeader
    | some n => .ok (n, c.skip)
  let chomp (c : Cursor) : Option Chomping × Cursor :=
    match c.rest.head?.bind chomping? with
    | none => (none, c)
    | some k => (some k, c.skip)
  match chomp c with
  | (some k, after) => (increment after).map fun (n, after) => (k, n, after)
  | (none, _) =>
    (increment c).map fun (n, after) =>
      if n = 0 then (.clip, 0, after)
      else
        let (k, after) := chomp after
        (k.getD .clip, n, after)

/-- Passes over indentation and empty lines.  Gives what the line breaks read as, the greatest
column that was reached, and the place. -/
def readBlockBreaks (indent : Nat) :
    (fuel : Nat) → List Char → Nat → Cursor → Except Fault (List Char × Nat × Cursor)
  | 0, breaks, widest, c => .ok (breaks, widest, c)
  | fuel + 1, breaks, widest, c =>
    let spaces := (c.rest.takeWhile (· == ' ')).length
    let c := c.skipMany (if indent = 0 then spaces else min spaces (indent - c.column))
    let widest := max widest c.column
    if (indent = 0 ∨ c.column < indent) ∧ c.rest.head? = some '\t' then .error .tabInIndentation
    else if c.rest.head?.any isBreak then
      let (after, read) := c.readBreak
      readBlockBreaks indent fuel (breaks ++ read) widest after
    else .ok (breaks, widest, c)

structure BlockLines where
  text : List Char := []
  /-- What the break of the last line reads as. -/
  lead : List Char := []
  /-- What the breaks of the empty lines behind it read as. -/
  empty : List Char := []
  blank : Bool := false

def readBlockLines (literal : Bool) (indent : Nat) :
    (fuel : Nat) → BlockLines → Cursor → Except Fault (BlockLines × Cursor)
  | 0, b, c => .ok (b, c)
  | fuel + 1, b, c =>
    if c.column ≠ indent ∨ c.rest.isEmpty then .ok (b, c)
    else
      let blank := c.rest.head?.any isBlank
      let joint :=
        if !literal && b.lead == ['\n'] && !b.blank && !blank then
          (if b.empty.isEmpty then [' '] else []) ++ b.empty
        else b.lead ++ b.empty
      let line := c.rest.takeWhile fun x => !isBreak x
      let (after, lead) := (c.skipMany line.length).readBreak
      match readBlockBreaks indent after.rest.length.succ [] 0 after with
      | .error fault => .error fault
      | .ok (empty, _, after) =>
        readBlockLines literal indent fuel
          ⟨line.reverse ++ joint.reverse ++ b.text, lead, empty, blank⟩ after

/-- Reads a block scalar behind its indicator; `parent` is the number of columns that its lines
must be indented by at least. -/
def readBlock (literal : Bool) (parent : Nat) (c : Cursor) : Except Fault (String × Cursor) := do
  let (chomping, increment, after) ← readBlockHeader c
  let after := after.skipWhile isBlank
  let after :=
    if after.rest.head? = some '#' then after.skipWhile fun x => !isBreak x else after
  if !atLineEnd after.rest then throw .badBlockHeader
  let (start, _) := after.readBreak
  let given := if increment = 0 then 0 else (parent - 1) + increment
  let (empty, widest, first) ← readBlockBreaks given start.rest.length.succ [] 0 start
  let indent := if given = 0 then max (max widest parent) 1 else given
  let (b, last) ← readBlockLines literal indent first.rest.length.succ { empty := empty } first
  let tail :=
    match chomping with
    | .strip => []
    | .clip => b.lead
    | .keep => b.lead ++ b.empty
  return (String.ofList (b.text.reverse ++ tail), last)

end PawnQuery.Yaml.Token
