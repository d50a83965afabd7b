import Mathlib.Data.List.Basic
import PawnQuery.Text.Utf8

/-!
# Line feeds in bytes read as text

A line feed is a line feed wherever it stands among the bytes: no character under way swallows it,
and no other byte is read as one.  So a text falls into lines exactly where its bytes do, readable
or not.  The invariant behind it: the bits of a character under way are those of no control
character, whichever byte comes next.
-/

namespace PawnQuery.Text

/-- A character of several bytes is under way, or none. -/
def Pending.Sound : Pending → Prop
  | .start => True
  | .inside _ value low _ => 0x80 ≤ low ∧ 0x90 ≤ value * 64 + low

namespace Utf8Reader

/-- The reader with `base` read before all that it has read. -/
def onto (reader : Utf8Reader) (base : List Char) : Utf8Reader :=
  ⟨reader.output ++ base, reader.pending⟩

/-! ## What was read before -/

theorem first_onto (output base : List Char) (b : Nat) :
    first (output ++ base) b = (first output b).onto base := by
  unfold first
  simp only [apply_ite fun reader : Utf8Reader => reader.onto base]
  rfl

/-- What was read before has no part in what a byte is read as. -/
theorem push_onto (reader : Utf8Reader) (base : List Char) (byte : UInt8) :
    (reader.onto base).push byte = (reader.push byte).onto base := by
  obtain ⟨output, pending⟩ := reader
  cases pending with
  | start => exact first_onto output base byte.toNat
  | inside missing value low high =>
    simp only [onto, push]
    split
    · split <;> rfl
    · exact first_onto (replacement :: output) base byte.toNat

theorem foldl_push_onto (bytes : List UInt8) (reader : Utf8Reader) (base : List Char) :
    bytes.foldl push (reader.onto base) = (bytes.foldl push reader).onto base := by
  induction bytes generalizing reader with
  | nil => rfl
  | cons byte bytes inductionHypothesis =>
    rw [List.foldl_cons, push_onto, inductionHypothesis, List.foldl_cons]

theorem finish_onto (reader : Utf8Reader) (base : List Char) :
    (reader.onto base).finish = base.reverse ++ reader.finish := by
  obtain ⟨output, pending⟩ := reader
  cases pending <;> simp [onto, finish]

/-! ## One byte -/

/-- A byte is a character, or it is unreadable, or it begins a character. -/
inductive Reads (b : Nat) (output : List Char) : Utf8Reader → Prop where
  | character (ascii : b < 0x80) : Reads b output ⟨Char.ofNat b :: output, .start⟩
  | unreadable (high : 0x80 ≤ b) : Reads b output ⟨replacement :: output, .start⟩
  | begins (high : 0x80 ≤ b) {pending : Pending} (sound : pending.Sound) :
      Reads b output ⟨output, pending⟩

theorem reads_first (output : List Char) (b : Nat) : Reads b output (first output b) := by
  unfold first
  refine iteInduction (fun ascii => .character ascii) fun other => ?_
  have high : 0x80 ≤ b := Nat.le_of_not_lt other
  repeat refine iteInduction (fun _ => .begins high ⟨by omega, by omega⟩) fun _ => ?_
  exact .unreadable high

theorem Reads.sound {b : Nat} {output : List Char} {reader : Utf8Reader}
    (reads : Reads b output reader) : reader.pending.Sound := by
  cases reads with
  | character | unreadable => trivial
  | begins _ sound => exact sound

theorem sound_new : ({} : Utf8Reader).pending.Sound := trivial

theorem sound_push {reader : Utf8Reader} (sound : reader.pending.Sound) (byte : UInt8) :
    (reader.push byte).pending.Sound := by
  obtain ⟨output, pending⟩ := reader
  cases pending with
  | start => exact (reads_first output byte.toNat).sound
  | inside missing value low high =>
    simp only [push]
    split
    · split
      · trivial
      · simp only [Pending.Sound] at sound ⊢
        omega
    · exact (reads_first (replacement :: output) byte.toNat).sound

theorem first_newline (output : List Char) : first output 0x0A = ⟨'\n' :: output, .start⟩ := rfl

/-- A line feed ends what was read so far, and the character under way with it. -/
theorem push_newline {reader : Utf8Reader} (sound : reader.pending.Sound) :
    reader.push 0x0A = ({} : Utf8Reader).onto ('\n' :: reader.finish.reverse) := by
  obtain ⟨output, pending⟩ := reader
  cases pending with
  | start => simp [push, first_newline, finish, onto]
  | inside missing value low high =>
    have stops : ¬ (low ≤ (0x0A : UInt8).toNat ∧ (0x0A : UInt8).toNat ≤ high) := by
      simp only [Pending.Sound] at sound
      have : (0x0A : UInt8).toNat = 0x0A := rfl
      omega
    simp only [push, if_neg stops]
    simp [first_newline, finish, onto]

theorem ofNat_ne_newline {n : Nat} (other : n ≠ 0x0A) : Char.ofNat n ≠ '\n' := by
  intro equal
  by_cases valid : n.isValidChar
  · have read : Char.ofNat n = Char.ofNatAux n valid := dif_pos valid
    rw [read] at equal
    exact other (congrArg Char.toNat equal)
  · have read : Char.ofNat n = ⟨0, .inl (by decide)⟩ := dif_neg valid
    rw [read] at equal
    cases equal

theorem Reads.count_newline {b : Nat} {output : List Char} {reader : Utf8Reader}
    (reads : Reads b output reader) :
    reader.output.count '\n' = output.count '\n' + if b = 0x0A then 1 else 0 := by
  cases reads with
  | character =>
    by_cases feed : b = 0x0A
    · subst feed
      exact List.count_cons_self
    · rw [if_neg feed]
      exact List.count_cons_of_ne (ofNat_ne_newline feed)
  | unreadable high =>
    rw [if_neg (by omega)]
    exact List.count_cons_of_ne (by decide)
  | begins high =>
    rw [if_neg (by omega), Nat.add_zero]

/-- Only a line feed is read as one. -/
theorem count_newline_push {reader : Utf8Reader} (sound : reader.pending.Sound) (byte : UInt8) :
    (reader.push byte).output.count '\n' =
      reader.output.count '\n' + if byte = 0x0A then 1 else 0 := by
  have number : byte = 0x0A ↔ byte.toNat = 0x0A := by
    rw [← UInt8.toNat_inj]
    rfl
  simp only [number]
  obtain ⟨output, pending⟩ := reader
  cases pending with
  | start => exact (reads_first output byte.toNat).count_newline
  | inside missing value low high =>
    simp only [Pending.Sound] at sound
    by_cases continues : low ≤ byte.toNat ∧ byte.toNat ≤ high
    · have other : byte.toNat ≠ 0x0A := by omega
      have read : Char.ofNat (value * 64 + (byte.toNat - 0x80)) ≠ '\n' :=
        ofNat_ne_newline (by omega)
      simp only [push, if_pos continues, if_neg other, Nat.add_zero]
      split
      · exact List.count_cons_of_ne read
      · rfl
    · simp only [push, if_neg continues]
      rw [(reads_first _ _).count_newline, List.count_cons_of_ne (by decide)]

/-! ## Many bytes -/

theorem sound_foldl_push {reader : Utf8Reader} (sound : reader.pending.Sound)
    (bytes : List UInt8) : (bytes.foldl push reader).pending.Sound := by
  induction bytes generalizing reader with
  | nil => exact sound
  | cons byte bytes inductionHypothesis => exact inductionHypothesis (sound_push sound byte)

theorem count_newline_foldl_push {reader : Utf8Reader} (sound : reader.pending.Sound)
    (bytes : List UInt8) :
    (bytes.foldl push reader).output.count '\n' =
      reader.output.count '\n' + bytes.count 0x0A := by
  induction bytes generalizing reader with
  | nil => simp
  | cons byte bytes inductionHypothesis =>
    rw [List.foldl_cons, inductionHypothesis (sound_push sound byte), count_newline_push sound,
      List.count_cons]
    simp only [beq_iff_eq]
    omega

theorem count_newline_finish (reader : Utf8Reader) :
    reader.finish.count '\n' = reader.output.count '\n' := by
  obtain ⟨output, pending⟩ := reader
  cases pending with
  | start => exact List.count_reverse
  | inside => exact List.count_reverse.trans (List.count_cons_of_ne (by decide))

end Utf8Reader

/-- Bytes on both sides of a line feed are read independently of each other. -/
theorem decodeLossy_append_newline (before rest : List UInt8) :
    decodeLossy (before ++ 0x0A :: rest) = decodeLossy before ++ '\n' :: decodeLossy rest := by
  have sound := Utf8Reader.sound_foldl_push Utf8Reader.sound_new before
  rw [decodeLossy, List.foldl_append, List.foldl_cons, Utf8Reader.push_newline sound,
    Utf8Reader.foldl_push_onto, Utf8Reader.finish_onto]
  simp [decodeLossy]

/-- A text has as many line feeds as its bytes. -/
theorem count_newline_decodeLossy (bytes : List UInt8) :
    (decodeLossy bytes).count '\n' = bytes.count 0x0A := by
  rw [decodeLossy, Utf8Reader.count_newline_finish,
    Utf8Reader.count_newline_foldl_push Utf8Reader.sound_new]
  simp

end PawnQuery.Text
