/-!
# Reading bytes as text

Bytes are read as UTF-8.  Where they are not UTF-8, each longest stretch that could still have
begun a character is replaced by one replacement character, so that reading never fails and
never loses its place.  The reader works byte by byte and can stop between any two of them.
-/

namespace PawnQuery.Text

def replacement : Char := Char.ofNat 0xFFFD

inductive Pending where
  | start
  /-- `missing` more bytes are wanted, the next of them between `low` and `high`; `value` holds
  the bits read so far. -/
  | inside (missing : Nat) (value : Nat) (low high : Nat)
deriving DecidableEq, Repr

structure Utf8Reader where
  /-- The characters read, the latest first. -/
  output : List Char := []
  pending : Pending := .start
deriving DecidableEq, Repr

namespace Utf8Reader

def first (output : List Char) (b : Nat) : Utf8Reader :=
  if b < 0x80 then ⟨Char.ofNat b :: output, .start⟩
  else if 0xC2 ≤ b ∧ b ≤ 0xDF then ⟨output, .inside 1 (b - 0xC0) 0x80 0xBF⟩
  else if b = 0xE0 then ⟨output, .inside 2 0 0xA0 0xBF⟩
  else if b = 0xED then ⟨output, .inside 2 0xD 0x80 0x9F⟩
  else if 0xE1 ≤ b ∧ b ≤ 0xEF then ⟨output, .inside 2 (b - 0xE0) 0x80 0xBF⟩
  else if b = 0xF0 then ⟨output, .inside 3 0 0x90 0xBF⟩
  else if 0xF1 ≤ b ∧ b ≤ 0xF3 then ⟨output, .inside 3 (b - 0xF0) 0x80 0xBF⟩
  else if b = 0xF4 then ⟨output, .inside 3 4 0x80 0x8F⟩
  else ⟨replacement :: output, .start⟩

/-- Reads one more byte.  A byte that cannot continue the character under way ends it as
unreadable and begins the next one. -/
def push (reader : Utf8Reader) (byte : UInt8) : Utf8Reader :=
  let b := byte.toNat
  match reader.pending with
  | .start => first reader.output b
  | .inside missing value low high =>
    if low ≤ b ∧ b ≤ high then
      let value := value * 64 + (b - 0x80)
      if missing ≤ 1 then ⟨Char.ofNat value :: reader.output, .start⟩
      else ⟨reader.output, .inside (missing - 1) value 0x80 0xBF⟩
    else first (replacement :: reader.output) b

def finish (reader : Utf8Reader) : List Char :=
  match reader.pending with
  | .start => reader.output.reverse
  | .inside .. => (replacement :: reader.output).reverse

end Utf8Reader

def decodeLossy (bytes : List UInt8) : List Char :=
  (bytes.foldl Utf8Reader.push {}).finish

def byteLength (text : List Char) : Nat :=
  text.foldl (fun n c => n + c.utf8Size) 0

@[simp] theorem decodeLossy_nil : decodeLossy [] = [] := rfl

@[simp] theorem byteLength_nil : byteLength [] = 0 := rfl

end PawnQuery.Text
