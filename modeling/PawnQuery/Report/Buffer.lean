import PawnQuery.Report.Decode
import PawnQuery.Text.Utf8

/-!
# Collecting a report

A report arrives in chunks of bytes.  The buffer keeps them without carriage returns, up to a
limit, so that neither the line end convention nor the cutting into chunks shows in its text.
-/

namespace PawnQuery.Report

/-- The number of bytes kept unless another limit is set: 32 MiB. -/
def defaultLimit : Nat := 32 * 1024 * 1024

structure Buffer where
  bytes : Array UInt8 := #[]
  limit : Nat := defaultLimit
  /-- Something had to be left out because of the limit. -/
  truncated : Bool := false
deriving Repr, Inhabited, DecidableEq

inductive StreamEnd where
  | closed
  | failed (reason : String)
deriving DecidableEq, Repr, Inhabited

/-- What a stream delivers: chunks of bytes, one a read, and its end.  An empty chunk is an end
too. -/
structure ByteStream where
  chunks : List (List UInt8) := []
  ending : StreamEnd := .closed
deriving DecidableEq, Repr, Inhabited

namespace ByteStream

def ofText (text : String) : ByteStream :=
  ⟨[text.toUTF8.toList], .closed⟩

end ByteStream

namespace Buffer

def pushByte (b : Buffer) (byte : UInt8) : Buffer :=
  if byte = 0x0D then b
  else if b.bytes.size < b.limit then { b with bytes := b.bytes.push byte }
  else { b with truncated := true }

def push (b : Buffer) (chunk : List UInt8) : Buffer :=
  chunk.foldl pushByte b

/-- Reads a stream to its end.  Gives the number of bytes read, or why reading failed. -/
def fillFrom (b : Buffer) (ending : StreamEnd) (total : Nat) :
    List (List UInt8) → Buffer × Except String Nat
  | [] =>
    match ending with
    | .closed => (b, .ok total)
    | .failed reason => (b, .error reason)
  | [] :: _ => (b, .ok total)
  | chunk :: rest => (b.push chunk).fillFrom ending (total + chunk.length) rest

def fill (b : Buffer) (stream : ByteStream) : Buffer × Except String Nat :=
  b.fillFrom stream.ending 0 stream.chunks

def text (b : Buffer) : List Char :=
  Text.decodeLossy b.bytes.toList

def length (b : Buffer) : Nat := b.bytes.size

def isEmpty (b : Buffer) : Bool := b.bytes.isEmpty

def clear (b : Buffer) : Buffer := { b with bytes := #[], truncated := false }

@[simp] theorem push_nil (b : Buffer) : b.push [] = b := rfl

theorem push_append (b : Buffer) (first second : List UInt8) :
    b.push (first ++ second) = (b.push first).push second := by
  simp [push, List.foldl_append]

@[simp] theorem length_clear (b : Buffer) : b.clear.length = 0 := rfl

end Buffer

end PawnQuery.Report
