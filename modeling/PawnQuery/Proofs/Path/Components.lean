import PawnQuery.Path.Basic
import PawnQuery.Registry.EntryPoint

/-!
# Components of joined paths

A path's components are its lead and the steps that its text names between slashes.  To put a slash
and a text behind a path adds the steps of that text, and the parent of a path that ends in a name
has all its components but that name.  So the main file of a workspace can be told by its components
alone.
-/

namespace PawnQuery.Path

/-- The steps that a text names between its slashes. -/
def steps (text : List Char) : List Component := (pieces text).filterMap step?

def componentsOf (text : List Char) : List Component :=
  (splitLead text).1.components ++ steps (splitLead text).2

/-- The component is what its own text names. -/
def Component.IsStep (c : Component) : Prop :=
  '/' ∉ c.text.toList ∧ step? c.text.toList = some c

variable {p q : Path} {text rest piece : List Char} {parts more : List (List Char)} {c : Component}

theorem components_eq (p : Path) : p.components = componentsOf p.text.toList := rfl

/-! ## Pieces -/

theorem pieces_ne_nil (text : List Char) : pieces text ≠ [] := by
  induction text with
  | nil => simp [pieces]
  | cons c rest inductionHypothesis =>
    unfold pieces
    split
    · simp
    · split <;> simp

theorem pieces_append_slash (text rest : List Char) :
    pieces (text ++ '/' :: rest) = pieces text ++ pieces rest := by
  induction text with
  | nil => simp [pieces]
  | cons c text inductionHypothesis =>
    obtain ⟨piece, more, cut⟩ := List.exists_cons_of_ne_nil (pieces_ne_nil text)
    rw [List.cons_append, pieces, pieces, inductionHypothesis, cut]
    split <;> rfl

theorem slash_not_mem_of_mem_pieces (member : piece ∈ pieces text) : '/' ∉ piece := by
  induction text generalizing piece with
  | nil =>
    obtain rfl := List.mem_singleton.mp member
    exact List.not_mem_nil
  | cons c text inductionHypothesis =>
    obtain ⟨first, more, cut⟩ := List.exists_cons_of_ne_nil (pieces_ne_nil text)
    rw [pieces, cut] at member
    rw [cut] at inductionHypothesis
    split at member
    next =>
      obtain rfl | later := List.mem_cons.mp member
      · exact List.not_mem_nil
      · exact inductionHypothesis later
    next other =>
      obtain rfl | later := List.mem_cons.mp member
      · have clean := inductionHypothesis List.mem_cons_self
        exact fun inside => (List.mem_cons.mp inside).elim (fun same => other same.symm) clean
      · exact inductionHypothesis (List.mem_cons_of_mem _ later)

theorem pieces_of_slash_not_mem (clean : '/' ∉ piece) : pieces piece = [piece] := by
  induction piece with
  | nil => rfl
  | cons c piece inductionHypothesis =>
    rw [List.mem_cons, not_or] at clean
    rw [pieces, inductionHypothesis clean.2, if_neg (Ne.symm clean.1)]

theorem joinPieces_append (present : parts ≠ []) (others : more ≠ []) :
    joinPieces (parts ++ more) = joinPieces parts ++ '/' :: joinPieces more := by
  induction parts with
  | nil => exact absurd rfl present
  | cons first parts inductionHypothesis =>
    obtain ⟨next, later, rfl⟩ := List.exists_cons_of_ne_nil others
    cases parts with
    | nil => rfl
    | cons second parts =>
      have joined := inductionHypothesis (List.cons_ne_nil _ _)
      simp only [List.cons_append, joinPieces, List.append_assoc] at joined ⊢
      rw [joined]

theorem joinPieces_pieces (text : List Char) : joinPieces (pieces text) = text := by
  induction text with
  | nil => rfl
  | cons c text inductionHypothesis =>
    obtain ⟨first, more, cut⟩ := List.exists_cons_of_ne_nil (pieces_ne_nil text)
    rw [pieces, cut]
    rw [cut] at inductionHypothesis
    split
    next slash =>
      rw [slash, joinPieces, inductionHypothesis]
      · rfl
      · exact List.cons_ne_nil _ _
    next => cases more <;> simpa [joinPieces] using inductionHypothesis

theorem pieces_joinPieces (present : parts ≠ []) (clean : ∀ piece ∈ parts, '/' ∉ piece) :
    pieces (joinPieces parts) = parts := by
  induction parts with
  | nil => exact absurd rfl present
  | cons first parts inductionHypothesis =>
    have firstClean := pieces_of_slash_not_mem (clean first List.mem_cons_self)
    cases parts with
    | nil => exact firstClean
    | cons second parts =>
      have others := inductionHypothesis (List.cons_ne_nil _ _)
        fun piece member => clean piece (List.mem_cons_of_mem _ member)
      rw [joinPieces, pieces_append_slash, firstClean, others]
      · rfl
      · exact List.cons_ne_nil _ _

/-! ## Steps -/

theorem step?_of_isIdle (idle : isIdle piece = true) : step? piece = none := if_pos idle

theorem exists_step? (counts : isIdle piece = false) : ∃ c, step? piece = some c := by
  unfold step?
  rw [if_neg (by simp [counts])]
  split
  · exact ⟨_, rfl⟩
  · exact ⟨_, rfl⟩

theorem text_of_step? (steps : step? piece = some c) : c.text.toList = piece := by
  unfold step? at steps
  split at steps
  · cases steps
  · split at steps <;> cases steps
    · next up => exact up.symm
    · exact String.toList_ofList

theorem isStep_of_mem_steps (member : c ∈ steps text) : c.IsStep := by
  obtain ⟨piece, inside, steps⟩ := List.mem_filterMap.mp member
  unfold Component.IsStep
  rw [text_of_step? steps]
  exact ⟨slash_not_mem_of_mem_pieces inside, steps⟩

theorem steps_append_slash (text rest : List Char) :
    steps (text ++ '/' :: rest) = steps text ++ steps rest := by
  rw [steps, pieces_append_slash, List.filterMap_append]
  rfl

theorem steps_text (step : c.IsStep) : steps c.text.toList = [c] := by
  rw [steps, pieces_of_slash_not_mem step.1, List.filterMap_cons_some step.2, List.filterMap_nil]

theorem filterMap_step?_dropWhile (parts : List (List Char)) :
    (parts.dropWhile isIdle).filterMap step? = parts.filterMap step? := by
  induction parts with
  | nil => rfl
  | cons piece parts inductionHypothesis =>
    by_cases idle : isIdle piece = true
    · rw [List.dropWhile_cons_of_pos idle, inductionHypothesis,
        List.filterMap_cons_none (step?_of_isIdle idle)]
    · rw [List.dropWhile_cons_of_neg idle]

/-! ## Leads -/

theorem text_splitLead (text : List Char) :
    (splitLead text).1.text ++ (splitLead text).2 = text := by
  unfold splitLead
  split <;> rfl

theorem splitLead_of_plain (relative : ∀ rest, text ≠ '/' :: rest) (named : text ≠ ['.'])
    (away : ∀ rest, text ≠ '.' :: '/' :: rest) : splitLead text = (.none, text) := by
  unfold splitLead
  split
  · exact absurd rfl (relative _)
  · exact absurd rfl named
  · exact absurd rfl (away _)
  · rfl

/-- What follows the first slash behind a path does not change the path's lead. -/
theorem splitLead_append_slash (present : text ≠ []) (rest : List Char) :
    splitLead (text ++ '/' :: rest) = ((splitLead text).1, (splitLead text).2 ++ '/' :: rest) := by
  obtain ⟨c, tail, rfl⟩ := List.exists_cons_of_ne_nil present
  by_cases absolute : c = '/'
  · subst absolute
    rfl
  by_cases dot : c = '.'
  · subst dot
    cases tail with
    | nil => rfl
    | cons d tail =>
      by_cases slash : d = '/'
      · subst slash
        rfl
      · rw [splitLead_of_plain, splitLead_of_plain] <;> simp [slash]
  · rw [splitLead_of_plain, splitLead_of_plain] <;> simp [absolute, dot]

theorem componentsOf_append_slash (present : text ≠ []) (rest : List Char) :
    componentsOf (text ++ '/' :: rest) = componentsOf text ++ steps rest := by
  rw [componentsOf, splitLead_append_slash present, steps_append_slash, componentsOf,
    List.append_assoc]

theorem componentsOf_text (step : c.IsStep) : componentsOf c.text.toList = [c] := by
  have splits : splitLead c.text.toList = (.none, c.text.toList) := by
    refine splitLead_of_plain (fun rest equal => ?_) (fun equal => ?_) fun rest equal => ?_
    · exact step.1 (equal ▸ List.mem_cons_self)
    · have none : step? ['.'] = none := step?_of_isIdle rfl
      rw [← equal, step.2] at none
      cases none
    · exact step.1 (equal ▸ List.mem_cons_of_mem _ List.mem_cons_self)
  rw [componentsOf, splits]
  exact steps_text step

theorem componentsOf_append (front rest : List Char) :
    componentsOf ((front ++ ['/']) ++ rest) = componentsOf (front ++ ['/']) ++ steps rest := by
  rw [List.append_assoc, List.singleton_append]
  by_cases absent : front = []
  · subst absent
    rfl
  · rw [componentsOf_append_slash absent, componentsOf_append_slash absent]
    exact congrArg (· ++ steps rest) (List.append_nil _).symm

theorem componentsOf_ne_nil (present : text ≠ []) : componentsOf text ≠ [] := by
  obtain ⟨c, tail, rfl⟩ := List.exists_cons_of_ne_nil present
  unfold componentsOf splitLead
  split
  · simp [Lead.components]
  · simp [Lead.components]
  · simp [Lead.components]
  next relative named away =>
    obtain ⟨piece, more, cut⟩ := List.exists_cons_of_ne_nil (pieces_ne_nil tail)
    have slash : c ≠ '/' := fun same => relative tail (by rw [same])
    have first : pieces (c :: tail) = (c :: piece) :: more := by
      rw [pieces, if_neg slash, cut]
    have counts : isIdle (c :: piece) = false := by
      refine Bool.eq_false_iff.mpr fun idle => ?_
      have dot : c = '.' ∧ piece = [] := by simpa [isIdle] using idle
      obtain ⟨rfl, rfl⟩ := dot
      cases tail with
      | nil => exact named rfl
      | cons d rest =>
        by_cases slash : d = '/'
        · exact away rest (by rw [slash])
        · obtain ⟨piece, more, cutRest⟩ := List.exists_cons_of_ne_nil (pieces_ne_nil rest)
          rw [pieces, if_neg slash, cutRest] at cut
          cases cut
    obtain ⟨step, counted⟩ := exists_step? counts
    simp [Lead.components, steps, first, counted]

theorem isStep_of_name_mem {name : String} (member : .name name ∈ p.components) :
    (Component.name name).IsStep := by
  rw [components_eq, componentsOf] at member
  obtain leading | inside := List.mem_append.mp member
  · generalize (splitLead p.text.toList).1 = lead at leading
    cases lead <;> simp [Lead.components] at leading
  · exact isStep_of_mem_steps inside

/-! ## Joined paths -/

/-- A relative path behind a path that is not empty adds its steps. -/
theorem components_join (present : p.text.toList ≠ []) (relative : q.isAbsolute = false) :
    (p.join q).components = p.components ++ steps q.text.toList := by
  have nonempty : p.isEmpty = false := by
    rw [isEmpty, Bool.eq_false_iff, ne_eq, String.isEmpty_iff]
    exact fun empty => present (by rw [empty]; rfl)
  unfold join
  rw [if_neg (by simp [relative]), nonempty, Bool.false_or]
  split
  next ends =>
    obtain ⟨front, text⟩ := List.getLast?_eq_some_iff.mp (beq_iff_eq.mp ends)
    rw [components_eq, components_eq, String.toList_append, text]
    exact componentsOf_append front _
  next =>
    rw [components_eq, components_eq, String.toList_append, String.toList_append,
      List.append_assoc]
    exact componentsOf_append_slash present _

theorem Same.text_eq_nil (same : p.Same q) (empty : p.text.toList = []) : q.text.toList = [] := by
  refine Decidable.byContradiction fun present => componentsOf_ne_nil present ?_
  rw [← components_eq, ← same, components_eq, empty]
  rfl

/-- The same text behind two spellings of a path spells one path. -/
theorem joinText_congr (same : p.Same q) (name : String) :
    (p.joinText name).Same (q.joinText name) := by
  by_cases absolute : (⟨name⟩ : Path).isAbsolute = true
  · simp only [joinText, join, if_pos absolute]
    exact .refl _
  rw [Bool.not_eq_true] at absolute
  by_cases present : p.text.toList = []
  · have texts : p.text = q.text :=
      String.toList_inj.mp (present.trans (same.text_eq_nil present).symm)
    simp only [joinText, join, isEmpty, texts]
    exact .refl _
  · have other : q.text.toList ≠ [] := fun empty => present (same.symm.text_eq_nil empty)
    rw [Same, joinText, joinText, components_join present absolute, components_join other absolute,
      same]

theorem isAbsolute_eq_false (clean : '/' ∉ p.text.toList) : p.isAbsolute = false := by
  unfold isAbsolute
  split
  next text => exact absurd (text ▸ List.mem_cons_self) clean
  next => rfl

theorem components_joinText (p : Path) (step : c.IsStep) :
    (p.joinText c.text).components = p.components ++ [c] := by
  by_cases empty : p.text = ""
  · have alone : p.joinText c.text = ⟨c.text⟩ := by
      simp [joinText, join, isEmpty, empty]
    have nothing : p.components = [] := by rw [components_eq, empty]; rfl
    rw [alone, nothing]
    exact componentsOf_text step
  · have present : p.text.toList ≠ [] := by simpa using empty
    rw [joinText, components_join (q := ⟨c.text⟩) present (isAbsolute_eq_false step.1),
      steps_text step]

theorem components_extend (p : Path) (all : List Component) (areSteps : ∀ c ∈ all, c.IsStep) :
    (p.extend all).components = p.components ++ all := by
  unfold extend
  induction all generalizing p with
  | nil => exact (List.append_nil _).symm
  | cons c all inductionHypothesis =>
    have others := inductionHypothesis (p.joinText c.text)
      fun d member => areSteps d (List.mem_cons_of_mem _ member)
    rw [List.foldl_cons, others, components_joinText p (areSteps c List.mem_cons_self),
      List.append_assoc]
    rfl

/-! ## Paths as seen from the root -/

theorem exists_text_of_isAbsolute (absolute : p.isAbsolute = true) :
    ∃ rest, p.text.toList = '/' :: rest := by
  unfold isAbsolute at absolute
  split at absolute
  next rest text => exact ⟨rest, text⟩
  next => cases absolute

theorem components_joinText_empty (present : p.components ≠ []) :
    (p.joinText "").components = p.components := by
  have nonempty : p.text.toList ≠ [] := by
    intro empty
    rw [components_eq, empty] at present
    exact present rfl
  rw [joinText, components_join (q := ⟨""⟩) nonempty rfl]
  exact List.append_nil _

/-- An absolute path is the same path when it is seen from the root. -/
theorem same_absolute (directory : Path) (absolute : p.isAbsolute = true) :
    p.Same (Path.absolute directory p) := by
  obtain ⟨rest, text⟩ := exists_text_of_isAbsolute absolute
  have components : p.components = .root :: steps rest := by
    rw [components_eq, text]
    rfl
  have named : ∀ c ∈ steps rest, c.IsStep := fun c member => isStep_of_mem_steps member
  -- Two slashes in front are kept, but they are one component like any number of them.
  have fromRoot : ((⟨""⟩ : Path).extend (.root :: steps rest)).components =
      .root :: steps rest := by
    have first : (⟨""⟩ : Path).extend (.root :: steps rest) = (⟨"/"⟩ : Path).extend (steps rest) :=
      rfl
    rw [first, components_extend _ _ named]
    rfl
  have fromSlashes : ((⟨"//"⟩ : Path).extend (steps rest)).components = .root :: steps rest := by
    rw [components_extend _ _ named]
    rfl
  unfold Same Path.absolute
  simp only [components, absolute, if_true, List.drop_one, List.tail_cons]
  split
  · split <;> rw [components_joinText_empty] <;> simp [fromRoot, fromSlashes]
  · split <;> simp [fromRoot, fromSlashes]
/-! ## Parents -/

/-- The pieces up to the last step but one, without those that are no steps behind it. -/
def keptPieces (before : List (List Char)) : List (List Char) := (before.dropWhile isIdle).reverse

variable {last : List Char} {before : List (List Char)}

theorem exists_keptPieces_append (cut : parts.reverse.dropWhile isIdle = last :: before) :
    ∃ others, others ≠ [] ∧ parts = keptPieces before ++ others := by
  have all : parts.reverse = parts.reverse.takeWhile isIdle ++ last :: before := by
    rw [← cut, List.takeWhile_append_dropWhile]
  have behind : before.reverse = keptPieces before ++ (before.takeWhile isIdle).reverse := by
    rw [keptPieces, ← List.reverse_append, List.takeWhile_append_dropWhile]
  generalize parts.reverse.takeWhile isIdle = idle at all
  refine ⟨(before.takeWhile isIdle).reverse ++ last :: idle.reverse, by simp, ?_⟩
  rw [← List.reverse_reverse parts, all, ← List.append_assoc, ← behind]
  simp

theorem steps_keptPieces (cut : parts.reverse.dropWhile isIdle = last :: before) :
    parts.filterMap step? = (keptPieces before).filterMap step? ++ (step? last).toList := by
  have reversed : parts.reverse.filterMap step? = (last :: before).filterMap step? := by
    rw [← cut, filterMap_step?_dropWhile]
  rw [List.filterMap_reverse] at reversed
  rw [← List.reverse_reverse (parts.filterMap step?), reversed, keptPieces, List.filterMap_reverse,
    filterMap_step?_dropWhile]
  cases step : step? last <;> simp [step]

theorem joinPieces_keptPieces_ne_nil (clean : ∀ piece ∈ keptPieces before, '/' ∉ piece)
    (present : keptPieces before ≠ []) : joinPieces (keptPieces before) ≠ [] := by
  intro empty
  have alone : keptPieces before = [[]] := by
    rw [← pieces_joinPieces present clean, empty]
    rfl
  have first : before.dropWhile isIdle = [[]] := by
    rw [← List.reverse_reverse (before.dropWhile isIdle)]
    exact congrArg List.reverse alone
  have counts := List.head?_dropWhile_not isIdle before
  rw [first] at counts
  cases counts

/-- The parent of a path that ends in a name has all its components but the name. -/
theorem components_of_parent? {name : String} (parent : p.parent? = some q)
    (named : p.fileName? = some name) : p.components = q.components ++ [.name name] := by
  have whole := text_splitLead p.text.toList
  have all : p.components = (splitLead p.text.toList).1.components ++
      steps (splitLead p.text.toList).2 := rfl
  unfold parent? at parent
  generalize splits : splitLead p.text.toList = split at parent all whole
  obtain ⟨lead, body⟩ := split
  simp only at parent all whole
  unfold fileName? at named
  cases cut : (pieces body).reverse.dropWhile isIdle with
  | nil =>
    have none : steps body = [] := by
      have reversed := filterMap_step?_dropWhile (pieces body).reverse
      rw [cut, List.filterMap_reverse] at reversed
      exact List.reverse_eq_nil_iff.mp reversed.symm
    rw [all, none, List.append_nil] at named
    cases lead <;> cases named
  | cons last before =>
    rw [cut] at parent
    obtain rfl := Option.some.inj parent
    obtain ⟨others, remain, split⟩ := exists_keptPieces_append cut
    have clean : ∀ piece ∈ keptPieces before, '/' ∉ piece := by
      intro piece member
      have inside : piece ∈ pieces body := split ▸ List.mem_append_left _ member
      exact slash_not_mem_of_mem_pieces inside
    have parentComponents : componentsOf (lead.text ++ joinPieces (keptPieces before)) =
        lead.components ++ (keptPieces before).filterMap step? := by
      by_cases none : keptPieces before = []
      · rw [none]
        cases lead <;> rfl
      · have present : lead.text ++ joinPieces (keptPieces before) ≠ [] :=
          List.append_ne_nil_of_right_ne_nil _ (joinPieces_keptPieces_ne_nil clean none)
        have follows := splitLead_append_slash present (joinPieces others)
        rw [List.append_assoc, ← joinPieces_append none remain, ← split, joinPieces_pieces, whole,
          splits, Prod.mk.injEq] at follows
        obtain ⟨sameLead, rest⟩ := follows
        have joined : joinPieces (keptPieces before) ++ '/' :: joinPieces others = body := by
          rw [← joinPieces_append none remain, ← split, joinPieces_pieces]
        rw [componentsOf, ← sameLead, List.append_cancel_right (joined.trans rest).symm, steps,
          pieces_joinPieces none clean]
    have found : p.components =
        componentsOf (lead.text ++ joinPieces (keptPieces before)) ++ (step? last).toList := by
      rw [all, steps, steps_keptPieces cut, parentComponents, List.append_assoc]
    have counts : isIdle last = false := by
      have first := List.head?_dropWhile_not isIdle (pieces body).reverse
      rwa [cut] at first
    obtain ⟨c, step⟩ := exists_step? counts
    rw [found, step, Option.toList_some, List.getLast?_concat] at named
    rw [found, step, Option.toList_some]
    split at named <;> cases named
    next same =>
      rw [Option.some.inj same, components_eq, String.toList_ofList]
      rfl

/-! ## Entry points -/

end PawnQuery.Path

namespace PawnQuery.Registry

variable {path root : Path} {file : String} {mainFile : Option String}

theorem same_of_liesDirectlyIn (lies : liesDirectlyIn path root file = true) :
    path.Same (root.joinText file) := by
  unfold liesDirectlyIn at lies
  rw [Bool.and_eq_true, beq_iff_eq] at lies
  obtain ⟨parented, named⟩ := lies
  obtain ⟨parent, found, same⟩ := (Option.any_eq_true _ _).mp parented
  have components := Path.components_of_parent? found named
  have step : (Path.Component.name file).IsStep := Path.isStep_of_name_mem (p := path) (by
    rw [components]
    exact List.mem_append_right _ (List.mem_singleton_self _))
  calc path.components
      = parent.components ++ [.name file] := components
    _ = root.components ++ [.name file] := by rw [Path.same_iff.mp same]
    _ = (root.joinText file).components := (Path.components_joinText root step).symm

/-- A workspace is entered at its folder and at its main file as seen from the folder. -/
theorem isEntryPoint_iff : isEntryPoint path root mainFile = true ↔
    path.Same root ∨ ∃ file, mainFile = some file ∧ path.Same (root.joinText file) := by
  unfold isEntryPoint
  rw [Bool.or_eq_true, Path.same_iff, Option.any_eq_true]
  refine or_congr Iff.rfl (exists_congr fun file => and_congr Iff.rfl ?_)
  rw [Bool.or_eq_true, Path.same_iff]
  exact ⟨fun either => either.elim same_of_liesDirectlyIn id, .inr⟩

end PawnQuery.Registry
