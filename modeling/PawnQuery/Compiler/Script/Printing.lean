/-!
# What scripts write

The two commands that write text, `echo` and `printf`, with their backslash escapes and formats.
Escapes can spell bytes that are no text, so what is written is bytes.
-/

namespace PawnQuery.Compiler.Script

def bytesOf (text : String) : List UInt8 := text.toUTF8.toList

def readOctal (count : Nat) (text : List Char) : Nat × List Char :=
  let digits := (text.take count).takeWhile fun c => '0' ≤ c && c ≤ '7'
  (digits.foldl (fun n c => n * 8 + (c.toNat - 0x30)) 0, text.drop digits.length)

def escape? : Char → Option UInt8
  | 'n' => some 0x0A
  | 't' => some 0x09
  | 'r' => some 0x0D
  | 'a' => some 0x07
  | 'b' => some 0x08
  | 'f' => some 0x0C
  | 'v' => some 0x0B
  | '\\' => some 0x5C
  | _ => none

def isOctal (c : Char) : Bool := '0' ≤ c && c ≤ '7'

/-- The bytes of a text with backslash escapes carried out, and whether one of them ended it; a
zero may stand in front of octal digits. -/
def unescape : (fuel : Nat) → List UInt8 → List Char → List UInt8 × Bool
  | 0, done, _ => (done, false)
  | _, done, [] => (done, false)
  | fuel + 1, done, '\\' :: c :: rest =>
    match escape? c with
    | some byte => unescape fuel (done ++ [byte]) rest
    | none =>
      if c = 'c' then (done, true)
      else if isOctal c then
        let (n, rest) := readOctal 3 (if c = '0' then rest else c :: rest)
        unescape fuel (done ++ [UInt8.ofNat n]) rest
      else unescape fuel (done ++ bytesOf (String.ofList ['\\', c])) rest
  | fuel + 1, done, c :: rest => unescape fuel (done ++ bytesOf c.toString) rest

def unescapeAll (text : String) : List UInt8 × Bool :=
  unescape (text.length + 1) [] text.toList

def echoBytes (words : List String) : List UInt8 :=
  let (words, newline) :=
    match words with
    | "-n" :: rest => (rest, false)
    | words => (words, true)
  let (bytes, ended) := unescapeAll (" ".intercalate words)
  if newline && !ended then bytes ++ [0x0A] else bytes

/-- Carries out a format once; gives the words that were not used. -/
def formatOnce : (fuel : Nat) → List UInt8 → List Char → List String → List UInt8 × List String
  | 0, done, _, words => (done, words)
  | _, done, [], words => (done, words)
  | fuel + 1, done, '%' :: c :: rest, words =>
    match c with
    | '%' => formatOnce fuel (done ++ [0x25]) rest words
    | 's' => formatOnce fuel (done ++ bytesOf (words.headD "")) rest (words.drop 1)
    | 'd' | 'i' | 'u' => formatOnce fuel (done ++ bytesOf (words.headD "0")) rest (words.drop 1)
    | 'b' => formatOnce fuel (done ++ (unescapeAll (words.headD "")).1) rest (words.drop 1)
    | c => formatOnce fuel (done ++ bytesOf (String.ofList ['%', c])) rest words
  | fuel + 1, done, '\\' :: c :: rest, words =>
    match escape? c with
    | some byte => formatOnce fuel (done ++ [byte]) rest words
    | none =>
      if isOctal c then
        let (n, rest) := readOctal 3 (c :: rest)
        formatOnce fuel (done ++ [UInt8.ofNat n]) rest words
      else if c = '"' then formatOnce fuel (done ++ [0x22]) rest words
      else formatOnce fuel (done ++ bytesOf (String.ofList ['\\', c])) rest words
  | fuel + 1, done, c :: rest, words => formatOnce fuel (done ++ bytesOf c.toString) rest words

def formatAll (format : List Char) : (fuel : Nat) → List UInt8 → List String → List UInt8
  | 0, done, _ => done
  | fuel + 1, done, words =>
    let (done, left) := formatOnce (format.length + 1) done format words
    if left.isEmpty || left.length == words.length then done
    else formatAll format fuel done left

def formatBytes (words : List String) : List UInt8 :=
  match words with
  | [] => []
  | "--" :: format :: rest => formatAll format.toList (rest.length + 1) [] rest
  | format :: rest => formatAll format.toList (rest.length + 1) [] rest

end PawnQuery.Compiler.Script
