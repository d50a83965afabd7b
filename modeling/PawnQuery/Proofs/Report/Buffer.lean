import Mathlib.Data.List.Basic
import PawnQuery.Report.Buffer

/-!
# What a buffer keeps

A buffer keeps the first bytes of all that it was given, carriage returns left out, however they
were cut into chunks.  A stream that is read to its end gives what it delivers before it ends,
whichever way it ends.
-/

namespace PawnQuery.Report

/-- The bytes that are kept as long as there is room. -/
def withoutReturns (bytes : List UInt8) : List UInt8 := bytes.filter (· != 0x0D)

/-- The bytes of the reads before the first empty one. -/
def deliveredBy (chunks : List (List UInt8)) : List UInt8 :=
  (chunks.takeWhile (!·.isEmpty)).flatten

/-- The bytes that a stream delivers before it ends. -/
def ByteStream.delivered (stream : ByteStream) : List UInt8 := deliveredBy stream.chunks

@[simp] theorem deliveredBy_nil : deliveredBy [] = [] := rfl

@[simp] theorem deliveredBy_empty (rest : List (List UInt8)) : deliveredBy ([] :: rest) = [] := rfl

@[simp] theorem deliveredBy_cons (byte : UInt8) (chunk : List UInt8) (rest : List (List UInt8)) :
    deliveredBy ((byte :: chunk) :: rest) = (byte :: chunk) ++ deliveredBy rest := rfl

theorem ByteStream.delivered_ofText (text : String) :
    (ofText text).delivered = text.toUTF8.toList := by
  rw [ofText, delivered]
  cases text.toUTF8.toList <;> simp

@[simp] theorem withoutReturns_nil : withoutReturns [] = [] := rfl

theorem withoutReturns_append (bytes more : List UInt8) :
    withoutReturns (bytes ++ more) = withoutReturns bytes ++ withoutReturns more :=
  List.filter_append bytes more

namespace Buffer

/-- The buffer holds these bytes, as far as it has room for them. -/
structure Keeps (b : Buffer) (limit : Nat) (bytes : List UInt8) : Prop where
  room : b.limit = limit
  held : b.bytes.toList = bytes.take limit

theorem keeps_new (limit : Nat) : ({ limit := limit } : Buffer).Keeps limit [] :=
  ⟨rfl, (List.take_nil).symm⟩

theorem Keeps.pushByte {b : Buffer} {limit : Nat} {bytes : List UInt8} (keeps : b.Keeps limit bytes)
    (byte : UInt8) : (b.pushByte byte).Keeps limit (bytes ++ withoutReturns [byte]) := by
  have size : b.bytes.size = min limit bytes.length := by
    rw [← Array.length_toList, keeps.held, List.length_take]
  unfold Buffer.pushByte
  split_ifs with returns room
  · subst returns
    simpa [withoutReturns] using keeps
  · have kept : withoutReturns [byte] = [byte] := by simp [withoutReturns, returns]
    rw [keeps.room, size] at room
    refine ⟨keeps.room, ?_⟩
    rw [Array.toList_push, keeps.held, kept, List.take_of_length_le (by omega),
      List.take_of_length_le (by simp; omega)]
  · rw [keeps.room, size] at room
    exact ⟨keeps.room, by rw [List.take_append_of_le_length (by omega)]; exact keeps.held⟩

theorem Keeps.push {b : Buffer} {limit : Nat} {bytes : List UInt8} (keeps : b.Keeps limit bytes)
    (chunk : List UInt8) : (b.push chunk).Keeps limit (bytes ++ withoutReturns chunk) := by
  induction chunk generalizing b bytes with
  | nil => simpa using keeps
  | cons byte chunk inductionHypothesis =>
    have pushed := inductionHypothesis (keeps.pushByte byte)
    rwa [List.append_assoc, ← withoutReturns_append] at pushed

/-- Reading goes on to the end of the stream or up to where it fails. -/
theorem Keeps.fillFrom {b : Buffer} {limit : Nat} {bytes : List UInt8} (keeps : b.Keeps limit bytes)
    (ending : StreamEnd) (total : Nat) (chunks : List (List UInt8)) :
    (b.fillFrom ending total chunks).1.Keeps limit
      (bytes ++ withoutReturns (deliveredBy chunks)) := by
  induction chunks generalizing b bytes total with
  | nil => cases ending <;> simpa [Buffer.fillFrom] using keeps
  | cons chunk rest inductionHypothesis =>
    cases chunk with
    | nil => simpa [Buffer.fillFrom] using keeps
    | cons byte chunk =>
      have filled := inductionHypothesis (keeps.push (byte :: chunk))
        (total + (byte :: chunk).length)
      rwa [List.append_assoc, ← withoutReturns_append] at filled

/-- A new buffer filled from a stream holds the first bytes that the stream delivers. -/
theorem text_fill (limit : Nat) (stream : ByteStream) :
    (({ limit := limit } : Buffer).fill stream).1.text =
      Text.decodeLossy ((withoutReturns stream.delivered).take limit) := by
  have filled := (keeps_new limit).fillFrom stream.ending 0 stream.chunks
  unfold Buffer.text Buffer.fill
  rw [filled.held]
  rfl

end Buffer

end PawnQuery.Report
