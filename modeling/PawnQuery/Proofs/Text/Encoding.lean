import Mathlib.Data.List.Basic
import PawnQuery.Proofs.Text.Utf8

/-!
# Text written as bytes

The bytes of a text are read as that text.  A character of several bytes begins with one that tells
how many follow and which of them may come first; each of those then adds six bits.
-/

namespace PawnQuery.Text

namespace Utf8Reader

variable {output : List Char} {value low high : Nat}

/-! ## Bytes that continue a character -/

/-- A byte that is not the first one of a character holds six of its bits. -/
theorem toNat_following (n : Nat) : (UInt8.ofNat (n % 64 + 128)).toNat = n % 64 + 0x80 := by
  rw [UInt8.toNat_ofNat']
  omega

theorem push_inside {missing n : Nat} (least : low ≤ n % 64 + 0x80)
    (greatest : n % 64 + 0x80 ≤ high) :
    push ⟨output, .inside (missing + 2) value low high⟩ (.ofNat (n % 64 + 128)) =
      ⟨output, .inside (missing + 1) (value * 64 + n % 64) 0x80 0xBF⟩ := by
  have more : ¬ missing + 2 ≤ 1 := by omega
  simp only [push, toNat_following, if_pos (And.intro least greatest), if_neg more,
    Nat.add_sub_cancel]
  rfl

theorem push_last {n : Nat} (least : low ≤ n % 64 + 0x80) (greatest : n % 64 + 0x80 ≤ high) :
    push ⟨output, .inside 1 value low high⟩ (.ofNat (n % 64 + 128)) =
      ⟨Char.ofNat (value * 64 + n % 64) :: output, .start⟩ := by
  simp only [push, toNat_following, if_pos (And.intro least greatest), if_pos (Nat.le_refl 1),
    Nat.add_sub_cancel]

/-! ## Bytes that begin a character -/

theorem first_two {n : Nat} (least : 0x80 ≤ n) (small : n < 0x800) :
    first output (n / 64 + 0xC0) = ⟨output, .inside 1 (n / 64) 0x80 0xBF⟩ := by
  have wide : ¬ n / 64 + 0xC0 < 0x80 := by omega
  have range : 0xC2 ≤ n / 64 + 0xC0 ∧ n / 64 + 0xC0 ≤ 0xDF := by omega
  rw [first, if_neg wide, if_pos range, Nat.add_sub_cancel]

/-- The first of three bytes keeps the second from spelling what two bytes could, or a surrogate. -/
theorem first_three {n : Nat} (least : 0x800 ≤ n) (small : n < 0x10000)
    (valid : n < 0xD800 ∨ 0xDFFF < n) :
    ∃ low high, low ≤ n / 64 % 64 + 0x80 ∧ n / 64 % 64 + 0x80 ≤ high ∧
      first output (n / 4096 + 0xE0) = ⟨output, .inside 2 (n / 4096) low high⟩ := by
  have wide : ¬ n / 4096 + 0xE0 < 0x80 := by omega
  have two : ¬ (0xC2 ≤ n / 4096 + 0xE0 ∧ n / 4096 + 0xE0 ≤ 0xDF) := by omega
  rw [first, if_neg wide, if_neg two]
  split
  next lowest =>
    have none : n / 4096 = 0 := by omega
    exact ⟨0xA0, 0xBF, by omega, by omega, by rw [none]⟩
  split
  next surrogates =>
    have same : n / 4096 = 0xD := by omega
    exact ⟨0x80, 0x9F, by omega, by omega, by rw [same]⟩
  next =>
    have range : 0xE1 ≤ n / 4096 + 0xE0 ∧ n / 4096 + 0xE0 ≤ 0xEF := by omega
    exact ⟨0x80, 0xBF, by omega, by omega, by rw [if_pos range, Nat.add_sub_cancel]⟩

theorem first_four {n : Nat} (least : 0x10000 ≤ n) (valid : n < 0x110000) :
    ∃ low high, low ≤ n / 4096 % 64 + 0x80 ∧ n / 4096 % 64 + 0x80 ≤ high ∧
      first output (n / 262144 + 0xF0) = ⟨output, .inside 3 (n / 262144) low high⟩ := by
  have wide : ¬ n / 262144 + 0xF0 < 0x80 := by omega
  have two : ¬ (0xC2 ≤ n / 262144 + 0xF0 ∧ n / 262144 + 0xF0 ≤ 0xDF) := by omega
  have three : ¬ (0xE1 ≤ n / 262144 + 0xF0 ∧ n / 262144 + 0xF0 ≤ 0xEF) := by omega
  rw [first, if_neg wide, if_neg two, if_neg (by omega), if_neg (by omega), if_neg three]
  split
  next lowest =>
    have none : n / 262144 = 0 := by omega
    exact ⟨0x90, 0xBF, by omega, by omega, by rw [none]⟩
  split
  next range => exact ⟨0x80, 0xBF, by omega, by omega, by rw [Nat.add_sub_cancel]⟩
  next =>
    have same : n / 262144 = 4 := by omega
    exact ⟨0x80, 0x8F, by omega, by omega, by rw [same]; rfl⟩

/-! ## Whole characters -/

theorem foldl_push_utf8EncodeChar (c : Char) (output : List Char) :
    (String.utf8EncodeChar c).foldl push ⟨output, .start⟩ = ⟨c :: output, .start⟩ := by
  have range : c.toNat < 0xD800 ∨ 0xDFFF < c.toNat ∧ c.toNat < 0x110000 := c.valid
  have whole : ∀ n, n = c.toNat → Char.ofNat n = c := by
    rintro n rfl
    exact Char.ofNat_toNat c
  have same : c.val.toNat = c.toNat := rfl
  unfold String.utf8EncodeChar
  simp only [same]
  generalize c.toNat = n at *
  split
  next ascii =>
    have small : n < 0x80 := by omega
    have code : (UInt8.ofNat n).toNat = n := by
      rw [UInt8.toNat_ofNat']
      omega
    show first output (UInt8.ofNat n).toNat = _
    rw [code, first, if_pos small, whole n rfl]
  split
  next wide small =>
    have code : (UInt8.ofNat (n / 64 % 32 + 192)).toNat = n / 64 + 0xC0 := by
      rw [UInt8.toNat_ofNat']
      omega
    show push (first output (UInt8.ofNat (n / 64 % 32 + 192)).toNat) _ = _
    rw [code, first_two (by omega) (by omega), push_last, whole]
    all_goals omega
  split
  next wide small =>
    have code : (UInt8.ofNat (n / 4096 % 16 + 224)).toNat = n / 4096 + 0xE0 := by
      rw [UInt8.toNat_ofNat']
      omega
    obtain ⟨low, high, least, greatest, begins⟩ :=
      @first_three output n (by omega) (by omega) (by omega)
    show push (push (first output (UInt8.ofNat (n / 4096 % 16 + 224)).toNat) _) _ = _
    rw [code, begins, push_inside, push_last, whole]
    all_goals omega
  next wide =>
    have code : (UInt8.ofNat (n / 262144 % 8 + 240)).toNat = n / 262144 + 0xF0 := by
      rw [UInt8.toNat_ofNat']
      omega
    obtain ⟨low, high, least, greatest, begins⟩ :=
      @first_four output n (by omega) (by omega)
    show push (push (push (first output (UInt8.ofNat (n / 262144 % 8 + 240)).toNat) _) _) _ = _
    rw [code, begins, push_inside, push_inside, push_last, whole]
    all_goals omega

theorem foldl_push_flatMap (text output : List Char) :
    (text.flatMap String.utf8EncodeChar).foldl push ⟨output, .start⟩ =
      ⟨text.reverse ++ output, .start⟩ := by
  induction text generalizing output with
  | nil => rfl
  | cons c text inductionHypothesis =>
    rw [List.flatMap_cons, List.foldl_append, foldl_push_utf8EncodeChar, inductionHypothesis]
    simp

end Utf8Reader

/-- The bytes of a text are read as the text. -/
theorem decodeLossy_flatMap (text : List Char) :
    decodeLossy (text.flatMap String.utf8EncodeChar) = text := by
  rw [decodeLossy, Utf8Reader.foldl_push_flatMap]
  simp [Utf8Reader.finish]

end PawnQuery.Text
