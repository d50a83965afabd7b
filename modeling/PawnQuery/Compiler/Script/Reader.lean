import PawnQuery.Compiler.Script.Basic

/-!
# Reading scripts

A script is cut into words and signs first, then the words are put together to commands.  Reading
never fails: what is not understood is skipped.
-/

namespace PawnQuery.Compiler.Script

/-! ## Words -/

def isNameChar (c : Char) : Bool := c.isAlphanum || c == '_'

def trimOfText : List Char → Trim
  | '#' :: '#' :: '*' :: mark => .throughLast (String.ofList mark)
  | '#' :: '*' :: mark => .throughFirst (String.ofList mark)
  | '%' :: '%' :: mark => .fromFirst (String.ofList mark.dropLast)
  | '%' :: mark => .fromLast (String.ofList mark.dropLast)
  | _ => .nothing

/-- Reads a parameter behind its dollar sign; none if there is no parameter. -/
def readParameter (quoted : Bool) (text : List Char) : Option Part × List Char :=
  match text with
  | '\x7b' :: rest =>
    let inside := rest.takeWhile (· != '\x7d')
    let after := (rest.dropWhile (· != '\x7d')).drop 1
    match inside with
    | ['@'] | ['*'] | ['#'] | ['$'] | ['?'] =>
      (some (.parameter (String.ofList inside) .nothing quoted), after)
    | _ =>
      let name := String.ofList (inside.takeWhile isNameChar)
      (some (.parameter name (trimOfText (inside.dropWhile isNameChar)) quoted), after)
  | c :: rest =>
    if c = '@' ∨ c = '*' ∨ c = '#' ∨ c = '$' ∨ c = '?' ∨ c = '!' ∨ c.isDigit then
      (some (.parameter c.toString .nothing quoted), rest)
    else if isNameChar c then
      (some (.parameter (String.ofList (text.takeWhile isNameChar)) .nothing quoted),
        text.dropWhile isNameChar)
    else (none, text)
  | [] => (none, [])

/-- Parts, the latest first, with some text added at the end. -/
def addText (parts : List Part) (text : String) : List Part :=
  match parts with
  | .text before :: more => .text (before ++ text) :: more
  | _ => .text text :: parts

def addParameter (parts : List Part) : Option Part → List Part
  | some part => part :: parts
  | none => addText parts "$"

/-- The sign that commands are enclosed in whose output is put in. -/
def backquote : Char := Char.ofNat 0x60

/-- Reads a text in double quotes behind the opening one; parts have the latest first. -/
def readQuoted : (fuel : Nat) → List Part → List Char → List Part × List Char
  | 0, parts, text => (parts, text)
  | _, parts, [] => (parts, [])
  | _, parts, '"' :: rest => (parts, rest)
  | fuel + 1, parts, '\\' :: c :: rest =>
    if c = '"' ∨ c = '\\' ∨ c = '$' ∨ c = backquote then
      readQuoted fuel (addText parts c.toString) rest
    else if c = '\n' then readQuoted fuel parts rest
    else readQuoted fuel (addText parts (String.ofList ['\\', c])) rest
  | fuel + 1, parts, '$' :: rest =>
    let (part, rest) := readParameter true rest
    readQuoted fuel (addParameter parts part) rest
  | fuel + 1, parts, c :: rest => readQuoted fuel (addText parts c.toString) rest

def endsWord (c : Char) : Bool :=
  c == ' ' || c == '\t' || c == '\n' || c == ';' || c == '&' || c == '|' || c == '>' || c == '<'

def readWord : (fuel : Nat) → Word → List Char → Word × List Char
  | 0, word, text => (word, text)
  | _, word, [] => (word, [])
  | fuel + 1, word, c :: rest =>
    if endsWord c then (word, c :: rest)
    else if c = '\x27' then
      let inside := rest.takeWhile (· != '\x27')
      let after := (rest.dropWhile (· != '\x27')).drop 1
      readWord fuel ⟨addText word.parts (String.ofList inside), true⟩ after
    else if c = '"' then
      let (parts, after) := readQuoted (rest.length + 1) word.parts rest
      readWord fuel ⟨parts, true⟩ after
    else if c = '\\' then
      match rest with
      | d :: after =>
        if d = '\n' then readWord fuel word after
        else readWord fuel ⟨addText word.parts d.toString, true⟩ after
      | [] => (word, [])
    else if c = '$' then
      let (part, after) := readParameter false rest
      readWord fuel ⟨addParameter word.parts part, word.quoted⟩ after
    else readWord fuel ⟨addText word.parts c.toString, word.quoted⟩ rest

def wordAt (text : List Char) : Word × List Char :=
  let (word, rest) := readWord (text.length + 1) {} text
  (⟨word.parts.reverse, word.quoted⟩, rest)

/-! ## Texts inside a script -/

/-- The lines in front of the first one that is `mark`, and what is behind that one. -/
def splitHere (mark : List Char) : (fuel : Nat) → List Char → List Char → List Char × List Char
  | 0, done, rest => (done, rest)
  | _, done, [] => (done, [])
  | fuel + 1, done, text =>
    let line := text.takeWhile (· != '\n')
    let rest := (text.dropWhile (· != '\n')).drop 1
    if line = mark then (done, rest) else splitHere mark fuel (done ++ line ++ ['\n']) rest

def readHere (text : List Char) : String × List Char :=
  let (word, rest) := wordAt (text.dropWhile fun c => c == '-' || c == ' ')
  let mark := word.parts.flatMap fun
    | .text t => t.toList
    | .parameter name _ _ => '$' :: name.toList
  let line := rest.takeWhile (· != '\n')
  let below := (rest.dropWhile (· != '\n')).drop 1
  let (inside, after) := splitHere mark (below.length + 1) [] below
  (String.ofList inside, line ++ '\n' :: after)

/-! ## Tokens -/

def readSign : List Char → Option (Token × List Char)
  | '&' :: '&' :: after => some (.andThen, after)
  | '|' :: '|' :: after => some (.orElse, after)
  | '>' :: '&' :: '2' :: after => some (.redirection (.join .output .diagnostics), after)
  | '1' :: '>' :: '&' :: '2' :: after => some (.redirection (.join .output .diagnostics), after)
  | '2' :: '>' :: '&' :: '1' :: after => some (.redirection (.join .diagnostics .output), after)
  | '<' :: '<' :: after =>
    let (text, after) := readHere after
    some (.redirection (.here text), after)
  | '<' :: after => some (.redirection (.here ""), (wordAt (after.dropWhile (· == ' '))).2)
  | '1' :: '>' :: after | '>' :: after => some (.redirection (.discard .output), target after)
  | '2' :: '>' :: after => some (.redirection (.discard .diagnostics), target after)
  | _ => none
where
  target (text : List Char) : List Char :=
    (wordAt (text.dropWhile fun c => c == ' ' || c == '>')).2

def readTokens : (fuel : Nat) → List Token → List Char → List Token
  | 0, done, _ => done.reverse
  | _, done, [] => done.reverse
  | fuel + 1, done, c :: rest =>
    if c = ' ' ∨ c = '\t' then readTokens fuel done rest
    else if c = '\n' ∨ c = ';' then readTokens fuel (.stop :: done) rest
    else if c = '#' then readTokens fuel done (rest.dropWhile (· != '\n'))
    else
      match readSign (c :: rest) with
      | some (token, after) => readTokens fuel (token :: done) after
      | none =>
        if endsWord c then readTokens fuel done rest
        else
          let (word, after) := wordAt (c :: rest)
          readTokens fuel (.word word :: done) after

/-! ## Commands -/

def readSimple (words : List Word) (redirections : List Redirection) :
    List Token → (List Word × List Redirection) × List Token
  | .word w :: rest => readSimple (w :: words) redirections rest
  | .redirection r :: rest => readSimple words (r :: redirections) rest
  | rest => ((words.reverse, redirections.reverse), rest)

def closers : List String := ["done", "fi", "else", "then", "do", "elif"]

/-- All arguments of the script, each a word of its own. -/
def allArguments : Word := ⟨[.parameter "@" .nothing true], true⟩

mutual

/-- Reads a list of commands up to a word that closes it. -/
def readCommands : (fuel : Nat) → (done : List Command) → List Token →
    List Command × List Token
  | 0, done, tokens => (done.reverse, tokens)
  | _, done, [] => (done.reverse, [])
  | fuel + 1, done, .stop :: rest => readCommands fuel done rest
  | fuel + 1, done, t :: rest =>
    if t.plain?.any closers.contains then (done.reverse, t :: rest)
    else
      let (first, after) := readOne fuel (t :: rest)
      let (command, after) := readChain fuel first after
      readCommands fuel (command :: done) after

def readChain : (fuel : Nat) → Command → List Token → Command × List Token
  | 0, first, tokens => (first, tokens)
  | fuel + 1, first, .andThen :: rest =>
    let (second, rest) := readOne fuel rest
    readChain fuel (.both first second) rest
  | fuel + 1, first, .orElse :: rest =>
    let (second, rest) := readOne fuel rest
    readChain fuel (.either first second) rest
  | _, first, rest => (first, rest)

def readOne : (fuel : Nat) → List Token → Command × List Token
  | 0, tokens => (.simple [] [], tokens.drop 1)
  | _, [] => (.simple [] [], [])
  | fuel + 1, t :: rest =>
    match t.plain? with
    | some "for" => readLoop fuel rest
    | some "if" => readChoice fuel rest
    | _ =>
      match readSimple [] [] (t :: rest) with
      | (([], []), rest) => (.simple [] [], rest.drop 1)
      | ((words, redirections), rest) => (.simple words redirections, rest)

def readLoop : (fuel : Nat) → List Token → Command × List Token
  | 0, tokens => (.simple [] [], tokens)
  | _, [] => (.simple [] [], [])
  | fuel + 1, name :: rest =>
    let (values, rest) :=
      match rest with
      | t :: more =>
        if t.plain? = some "in" then
          let ((values, _), rest) := readSimple [] [] more
          (values, rest)
        else ([allArguments], rest)
      | [] => ([], [])
    let (body, rest) := readBody fuel rest
    (.each (name.plain?.getD "") values body, rest)

def readBody : (fuel : Nat) → List Token → List Command × List Token
  | 0, tokens => ([], tokens)
  | _, [] => ([], [])
  | fuel + 1, t :: rest =>
    if t = .stop then readBody fuel rest
    else if t.plain? = some "do" then
      let (body, rest) := readCommands fuel [] rest
      (body, rest.drop 1)
    else ([], t :: rest)

def readChoice : (fuel : Nat) → List Token → Command × List Token
  | 0, tokens => (.simple [] [], tokens)
  | fuel + 1, tokens =>
    let (condition, rest) := readCommands fuel [] tokens
    let (thenBody, rest) := readCommands fuel [] (rest.drop 1)
    match rest with
    | [] => (.choose condition thenBody [], [])
    | t :: more =>
      match t.plain? with
      | some "else" =>
        let (elseBody, rest) := readCommands fuel [] more
        (.choose condition thenBody elseBody, rest.drop 1)
      | some "elif" =>
        let (other, rest) := readChoice fuel more
        (.choose condition thenBody [other], rest)
      | _ => (.choose condition thenBody [], more)

end

def parse (text : String) : List Command :=
  let chars := text.toList
  let tokens := readTokens (chars.length + 1) [] chars
  (readCommands (4 * tokens.length + 4) [] tokens).1

end PawnQuery.Compiler.Script
