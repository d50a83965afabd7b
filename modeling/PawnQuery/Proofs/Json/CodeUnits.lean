import PawnQuery.Proofs.Json.Tokens

/-!
# Spellings of strings

The body of a string spells UTF-16 code units, one escape or character after the other.  Two bodies
with the same code units stand for the same characters, or neither of them stands for any, since
units outside the basic plane must come in pairs.
-/

namespace PawnQuery.Json

/-! ## The code units of a character -/

def codeUnits (c : Char) : List Nat :=
  if c.toNat < 0x10000 then [c.toNat]
  else [0xD800 + (c.toNat - 0x10000) / 0x400, 0xDC00 + (c.toNat - 0x10000) % 0x400]

theorem isLeading_iff {unit : Nat} : isLeading unit = true ↔ 0xD800 ≤ unit ∧ unit ≤ 0xDBFF := by
  simp [isLeading]

theorem isTrailing_iff {unit : Nat} : isTrailing unit = true ↔ 0xDC00 ≤ unit ∧ unit ≤ 0xDFFF := by
  simp [isTrailing]

theorem not_isLeading_iff {unit : Nat} :
    isLeading unit = false ↔ unit < 0xD800 ∨ 0xDBFF < unit := by
  rw [← Bool.not_eq_true, isLeading_iff]
  omega

theorem not_isTrailing_iff {unit : Nat} :
    isTrailing unit = false ↔ unit < 0xDC00 ∨ 0xDFFF < unit := by
  rw [← Bool.not_eq_true, isTrailing_iff]
  omega

theorem toNat_range (c : Char) : c.toNat < 0xD800 ∨ 0xDFFF < c.toNat ∧ c.toNat < 0x110000 :=
  c.valid

/-- A character has one code unit, which is no surrogate, or it has a pair of them. -/
inductive Units (c : Char) : List Nat → Prop where
  | one (leading : isLeading c.toNat = false) (trailing : isTrailing c.toNat = false) :
      Units c [c.toNat]
  | two {first second : Nat} (leading : isLeading first = true) (trailing : isTrailing second = true)
      (pair : pairChar first second = c) : Units c [first, second]

theorem units_codeUnits (c : Char) : Units c (codeUnits c) := by
  have range := toNat_range c
  unfold codeUnits
  split
  · exact .one (not_isLeading_iff.mpr (by omega)) (not_isTrailing_iff.mpr (by omega))
  · refine .two (isLeading_iff.mpr (by omega)) (isTrailing_iff.mpr (by omega)) ?_
    have code : (0xD800 + (c.toNat - 0x10000) / 0x400 - 0xD800) * 0x400 +
        (0xDC00 + (c.toNat - 0x10000) % 0x400 - 0xDC00) + 0x10000 = c.toNat := by omega
    rw [pairChar, code, Char.ofNat_toNat]

theorem toNat_ofNat {n : Nat} (valid : n.isValidChar) : (Char.ofNat n).toNat = n := by
  rw [Char.ofNat, dif_pos valid]
  rfl

theorem codeUnits_ofNat {value : Nat} (small : value < 0x10000) (leading : isLeading value = false)
    (trailing : isTrailing value = false) : codeUnits (Char.ofNat value) = [value] := by
  have valid : value.isValidChar := by
    rw [not_isLeading_iff] at leading
    rw [not_isTrailing_iff] at trailing
    show _ ∨ _
    omega
  rw [codeUnits, toNat_ofNat valid, if_pos small]

theorem codeUnits_pairChar {first second : Nat} (leading : isLeading first = true)
    (trailing : isTrailing second = true) :
    codeUnits (pairChar first second) = [first, second] := by
  rw [isLeading_iff] at leading
  rw [isTrailing_iff] at trailing
  have valid : ((first - 0xD800) * 0x400 + (second - 0xDC00) + 0x10000).isValidChar := by
    show _ ∨ _
    omega
  rw [codeUnits, pairChar, toNat_ofNat valid, if_neg (by omega)]
  simp only [List.cons.injEq, and_true]
  omega

theorem exists_codeUnits (c : Char) :
    ∃ unit units, codeUnits c = unit :: units ∧ isTrailing unit = false := by
  have units := units_codeUnits c
  cases equal : codeUnits c with
  | nil =>
    rw [equal] at units
    cases units
  | cons unit others =>
    rw [equal] at units
    cases units with
    | one _ trailing => exact ⟨_, _, rfl, trailing⟩
    | two leading => exact ⟨_, _, rfl, isTrailing_of_isLeading leading⟩

/-- The code units of a text tell its first character. -/
theorem codeUnits_append_inj {c other : Char} {units rest : List Nat}
    (same : codeUnits c ++ units = codeUnits other ++ rest) : c = other ∧ units = rest := by
  have first := units_codeUnits c
  have second := units_codeUnits other
  generalize codeUnits c = mine at first same
  generalize codeUnits other = yours at second same
  cases first with
  | one leading =>
    cases second with
    | one =>
      obtain ⟨code, others⟩ := List.cons.inj same
      exact ⟨Char.toNat_inj.mp code, others⟩
    | two leadingOther =>
      rw [(List.cons.inj same).1, leadingOther] at leading
      cases leading
  | two leading _ pair =>
    cases second with
    | one leadingOther =>
      rw [← (List.cons.inj same).1, leading] at leadingOther
      cases leadingOther
    | two _ _ pairOther =>
      simp only [List.cons_append, List.nil_append, List.cons.injEq] at same
      obtain ⟨rfl, rfl, others⟩ := same
      exact ⟨pair.symm.trans pairOther, others⟩

/-! ## The code units of a body -/

/-- The code units that the body of a string spells, in pairs or not. -/
inductive HasUnits : List Char → List Nat → Prop where
  | empty : HasUnits [] []
  | plain {c : Char} {body : List Char} {units : List Nat} (visible : 0x20 ≤ c.toNat)
      (quote : c ≠ '"') (backslash : c ≠ '\\') (more : HasUnits body units) :
      HasUnits (c :: body) (codeUnits c ++ units)
  | short {c x : Char} {body : List Char} {units : List Nat} (escape : shortEscape? c = some x)
      (more : HasUnits body units) : HasUnits ('\\' :: c :: body) (codeUnits x ++ units)
  | unit {a b c d : Char} {value : Nat} {body : List Char} {units : List Nat}
      (digits : hexQuad? a b c d = some value) (more : HasUnits body units) :
      HasUnits ('\\' :: 'u' :: a :: b :: c :: d :: body) (value :: units)

theorem exists_hasUnits {body : List Char} (isBody : IsBody body) :
    ∃ units, HasUnits body units := by
  induction isBody with
  | empty => exact ⟨_, .empty⟩
  | plain visible quote backslash _ inductionHypothesis =>
    exact inductionHypothesis.imp' _ fun _ => .plain visible quote backslash
  | short escape _ inductionHypothesis =>
    obtain ⟨x, escape⟩ := Option.isSome_iff_exists.mp escape
    exact inductionHypothesis.imp' _ fun _ => .short escape
  | unit digits _ inductionHypothesis =>
    obtain ⟨value, digits⟩ := Option.isSome_iff_exists.mp digits
    exact inductionHypothesis.imp' _ fun _ => .unit digits

theorem HasUnits.unique {body : List Char} {units others : List Nat} (has : HasUnits body units)
    (hasOther : HasUnits body others) : units = others := by
  induction has generalizing others with
  | empty =>
    cases hasOther
    rfl
  | plain visible quote backslash _ inductionHypothesis =>
    cases hasOther with
    | plain _ _ _ more => rw [inductionHypothesis more]
    | short | unit => exact absurd rfl backslash
  | short escape _ inductionHypothesis =>
    cases hasOther with
    | plain _ _ backslash => exact absurd rfl backslash
    | short escapeOther more =>
      cases escape.symm.trans escapeOther
      rw [inductionHypothesis more]
    | unit => cases escape
  | unit digits _ inductionHypothesis =>
    cases hasOther with
    | plain _ _ backslash => exact absurd rfl backslash
    | short escape => cases escape
    | unit digitsOther more =>
      cases digits.symm.trans digitsOther
      rw [inductionHypothesis more]

theorem hexDigit?_lt {c : Char} {digit : Nat} (reads : hexDigit? c = some digit) : digit < 16 := by
  unfold hexDigit? at reads
  have nine : '9'.toNat = 0x39 := rfl
  have small : 'f'.toNat = 0x66 := rfl
  have large : 'F'.toNat = 0x46 := rfl
  split at reads
  next range =>
    have upper : c.toNat ≤ '9'.toNat := range.2
    cases reads
    omega
  split at reads
  next range =>
    have upper : c.toNat ≤ 'f'.toNat := range.2
    cases reads
    omega
  split at reads
  next range =>
    have upper : c.toNat ≤ 'F'.toNat := range.2
    cases reads
    omega
  next => cases reads

theorem hexQuad?_lt {a b c d : Char} {value : Nat} (reads : hexQuad? a b c d = some value) :
    value < 0x10000 := by
  simp only [hexQuad?, Option.bind_eq_bind, Option.bind_eq_some_iff, Option.pure_def,
    Option.some.injEq] at reads
  obtain ⟨w, first, x, second, y, third, z, fourth, rfl⟩ := reads
  have := hexDigit?_lt first
  have := hexDigit?_lt second
  have := hexDigit?_lt third
  have := hexDigit?_lt fourth
  omega

/-- A body that stands for characters has their code units. -/
theorem Spells.hasUnits {body chars : List Char} (spells : Spells body chars) :
    HasUnits body (chars.flatMap codeUnits) := by
  induction spells with
  | empty => exact .empty
  | plain visible quote backslash _ inductionHypothesis =>
    exact .plain visible quote backslash inductionHypothesis
  | short escape _ inductionHypothesis => exact .short escape inductionHypothesis
  | unit digits whole trailing _ inductionHypothesis =>
    rw [List.flatMap_cons, codeUnits_ofNat (hexQuad?_lt digits) whole trailing]
    exact .unit digits inductionHypothesis
  | pair digits leading others trailing _ inductionHypothesis =>
    rw [List.flatMap_cons, codeUnits_pairChar leading trailing]
    exact .unit digits (.unit others inductionHypothesis)

theorem exists_of_codeUnits_append {c : Char} {units : List Nat} {chars : List Char}
    (same : codeUnits c ++ units = chars.flatMap codeUnits) :
    ∃ others, chars = c :: others ∧ units = others.flatMap codeUnits := by
  cases chars with
  | nil =>
    obtain ⟨unit, more, equal, -⟩ := exists_codeUnits c
    rw [equal] at same
    cases same
  | cons x others =>
    obtain ⟨rfl, rest⟩ := codeUnits_append_inj same
    exact ⟨others, rfl, rest⟩

theorem codeUnits_append_ne {c : Char} {units rest : List Nat} {trail : Nat}
    (trailing : isTrailing trail = true) : codeUnits c ++ units ≠ trail :: rest := by
  intro same
  obtain ⟨unit, others, equal, other⟩ := exists_codeUnits c
  rw [equal] at same
  rw [(List.cons.inj same).1, trailing] at other
  cases other

/-- A body with the code units of characters stands for them.  A trailing unit in front of them can
only come from an escape. -/
theorem HasUnits.spells {body : List Char} {units : List Nat} (has : HasUnits body units)
    (chars : List Char) :
    (units = chars.flatMap codeUnits → Spells body chars) ∧
      ∀ trail, isTrailing trail = true → units = trail :: chars.flatMap codeUnits →
        ∃ e f g h more, body = '\\' :: 'u' :: e :: f :: g :: h :: more ∧
          hexQuad? e f g h = some trail ∧ Spells more chars := by
  -- A pair of units takes two escapes, so what is left after the first of them is told as well.
  induction has generalizing chars with
  | empty =>
    refine ⟨fun same => ?_, fun trail _ same => by cases same⟩
    cases chars with
    | nil => exact .empty
    | cons c chars =>
      obtain ⟨unit, others, equal, -⟩ := exists_codeUnits c
      rw [List.flatMap_cons, equal] at same
      cases same
  | plain visible quote backslash _ inductionHypothesis =>
    refine ⟨fun same => ?_, fun trail trailing same => absurd same (codeUnits_append_ne trailing)⟩
    obtain ⟨others, rfl, rest⟩ := exists_of_codeUnits_append same
    exact .plain visible quote backslash ((inductionHypothesis others).1 rest)
  | short escape _ inductionHypothesis =>
    refine ⟨fun same => ?_, fun trail trailing same => absurd same (codeUnits_append_ne trailing)⟩
    obtain ⟨others, rfl, rest⟩ := exists_of_codeUnits_append same
    exact .short escape ((inductionHypothesis others).1 rest)
  | unit digits _ inductionHypothesis =>
    refine ⟨fun same => ?_, fun trail trailing same => ?_⟩
    · cases chars with
      | nil => cases same
      | cons x chars =>
        have units := units_codeUnits x
        rw [List.flatMap_cons] at same
        generalize codeUnits x = first at units same
        cases units with
        | one leading trailing =>
          obtain ⟨rfl, rest⟩ := List.cons.inj same
          have spells := Spells.unit digits leading trailing ((inductionHypothesis chars).1 rest)
          rwa [Char.ofNat_toNat] at spells
        | two leading trailing pair =>
          obtain ⟨rfl, rest⟩ := List.cons.inj same
          obtain ⟨e, f, g, h, more, rfl, others, spells⟩ :=
            (inductionHypothesis chars).2 _ trailing rest
          exact pair ▸ .pair digits leading others trailing spells
    · obtain ⟨rfl, rest⟩ := List.cons.inj same
      exact ⟨_, _, _, _, _, rfl, digits, (inductionHypothesis chars).1 rest⟩

/-! ## The same string -/

/-- Two bodies spell the same string: they have the same code units. -/
def SameString (body other : List Char) : Prop := ∃ units, HasUnits body units ∧ HasUnits other units

theorem SameString.refl {body : List Char} (isBody : IsBody body) : SameString body body := by
  obtain ⟨units, has⟩ := exists_hasUnits isBody
  exact ⟨units, has, has⟩

theorem SameString.symm {body other : List Char} (same : SameString body other) :
    SameString other body := by
  obtain ⟨units, has, hasOther⟩ := same
  exact ⟨units, hasOther, has⟩

theorem SameString.spells_iff {body other chars : List Char} (same : SameString body other) :
    Spells body chars ↔ Spells other chars := by
  have carry {body other : List Char} (same : SameString body other) (spells : Spells body chars) :
      Spells other chars := by
    obtain ⟨units, has, hasOther⟩ := same
    exact (hasOther.spells chars).1 (has.unique spells.hasUnits)
  exact ⟨carry same, carry same.symm⟩

theorem sameString_of_spells {body other chars : List Char} (spells : Spells body chars)
    (spellsOther : Spells other chars) : SameString body other :=
  ⟨_, spells.hasUnits, spellsOther.hasUnits⟩

theorem string_unique {body chars other : List Char} (spells : Spells body chars)
    (spellsOther : Spells body other) : String.ofList chars = String.ofList other := by
  have reads := readString_of_spells spells []
  rw [readString_of_spells spellsOther] at reads
  exact (congrArg Prod.fst (Except.ok.inj reads)).symm

theorem spells_plain {text : List Char}
    (plain : ∀ c ∈ text, 0x20 ≤ c.toNat ∧ c ≠ '"' ∧ c ≠ '\\') : Spells text text := by
  induction text with
  | nil => exact .empty
  | cons c text inductionHypothesis =>
    obtain ⟨⟨visible, quote, backslash⟩, others⟩ := List.forall_mem_cons.mp plain
    exact .plain visible quote backslash (inductionHypothesis others)

theorem not_sameString {body other chars charsOther : List Char} (spells : Spells body chars)
    (spellsOther : Spells other charsOther) (differ : chars ≠ charsOther) :
    ¬ SameString body other := fun same =>
  differ (String.ofList_injective (string_unique (same.spells_iff.mp spells) spellsOther))

end PawnQuery.Json
