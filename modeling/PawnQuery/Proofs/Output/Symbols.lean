import PawnQuery.Output.Symbols
import PawnQuery.Proofs.Json.NamesDiffer
import PawnQuery.Proofs.Json.Unambiguous
import PawnQuery.Proofs.Report.RoundTrip
import PawnQuery.Proofs.Symbols.Findings

/-!
# What a listing of symbols says

The answer for programs is one document.  Each symbol in it is what is written of the symbol alone,
with the name of its category in front.  The members of a symbol that have no meaning are written
too, and one of them may have the name that the category stands under.  That name is then repeated;
no other name is.
-/

namespace PawnQuery

open PawnQuery.Json
open PawnQuery.Report (Category Record Symbol SymbolDraft decodeLine decodeLines)
open PawnQuery.Symbols (Findings SymbolTable)

/-! ## Symbols of a report -/

namespace Report

theorem Reads.exists_line {number : Nat} {lines : List (List Char)} {records : List Record}
    {warnings : List Warning} (reads : Reads number lines records warnings) {r : Record}
    (listed : r ∈ records) : ∃ line, decodeLine line = .ok r := by
  induction reads with
  | finished => cases listed
  | line gives _ inductionHypothesis =>
    obtain here | later := List.mem_append.mp listed
    · cases gives with
      | record _ holds =>
        obtain rfl := List.mem_singleton.mp here
        exact ⟨_, holds⟩
      | nothing | warning => cases here
    · exact inductionHypothesis later

/-- Lists and objects inside a symbol nest less deep than those in the line it was read from. -/
theorem isRead_of_decodeLine {line : List Char} {c : Category} {list : List Symbol}
    (reads : decodeLine line = .ok (.symbols c list)) : ∀ s ∈ list, s.IsRead (122 + 2) := by
  obtain ⟨payload, encloses, reads⟩ := decodeLine_eq_ok_iff.mp reads
  have orderly : Orderly (122 + 4) payload := encloses.orderly
  obtain ⟨read, reads, same⟩ := map_eq_ok.mp reads
  cases same
  exact Symbol.isRead_of_readList orderly reads

theorem Symbol.IsRead.complete {depth : Nat} {s : Symbol} (isRead : s.IsRead depth)
    (c : Category) : (SymbolTable.complete c s).IsRead depth := by
  rw [Findings.complete_eq]
  exact ⟨isRead.line, isRead.value, isRead.ascending, isRead.unknown, isRead.orderly⟩

end Report

theorem Symbols.Findings.isRead_symbols (report : List Char) (c : Category) :
    ∀ s ∈ (ofReport report).symbols.symbols c, s.IsRead (122 + 2) := by
  intro s listed
  rw [symbols_ofReport] at listed
  obtain ⟨given, carried, rfl⟩ := List.mem_map.mp listed
  refine Report.Symbol.IsRead.complete ?_ c
  unfold lastCarried at carried
  cases last : ((decodeLines report).records.filterMap (Record.symbols? c)).getLast? with
  | none =>
    rw [last] at carried
    cases carried
  | some list =>
    rw [last] at carried
    obtain ⟨r, among, carries⟩ := List.mem_filterMap.mp (List.mem_of_getLast? last)
    obtain ⟨line, reads⟩ := (Report.reads_outcomesFrom 1 (Text.lines report)).exists_line among
    cases r with
    | symbols category list =>
      rw [Record.symbols?] at carries
      split at carries
      next =>
        cases carries
        exact Report.isRead_of_decodeLine reads given carried
      next => cases carries
    | _ => cases carries

/-! ## Listings -/

namespace Output

/-- The symbols that are listed, each with its category: those of one category, or all. -/
def listed (table : SymbolTable) (only : Option Category) : List (Category × Symbol) :=
  table.entries.filter fun e => only = none ∨ only = some e.1

/-- The document of a listed symbol: the name of its category, and then the members that are written
of the symbol alone. -/
def IsEntry (e : Category × Symbol) (d : Document) : Prop :=
  ∃ own, (Document.object own).IsText IsNumber e.2.toValue.render.toList ∧
    d = .object (("kind".toList, .string e.1.name.toList) :: own)

theorem items_eq_map_listed (table : SymbolTable) (only : Option Category) :
    (listedCategories only).flatMap (fun c => (table.symbols c).map (symbolEntry c)) =
      (listed table only).map fun e => symbolEntry e.1 e.2 := by
  cases only with
  | none => simp [listed, listedCategories, SymbolTable.entries, List.map_flatMap, Function.comp_def]
  | some c =>
    cases c <;>
      simp [listed, listedCategories, SymbolTable.entries, Category.all, List.filter_map,
        Function.comp_def]

theorem mem_symbols_of_mem_listed {table : SymbolTable} {only : Option Category}
    {e : Category × Symbol} (among : e ∈ listed table only) : e.2 ∈ table.symbols e.1 := by
  obtain ⟨c, -, inside⟩ := List.mem_flatMap.mp (List.mem_filter.mp among).1
  obtain ⟨s, listed, rfl⟩ := List.mem_map.mp inside
  exact listed

theorem spell_symbolEntry (c : Category) (s : Symbol) :
    spell (symbolEntry c s) =
      .object (("kind".toList, .string c.name.toList) :: spellMembers s.members) := by
  have kind : escaped "kind" = "kind".toList := by decide
  have name : escaped c.name = c.name.toList := by cases c <;> decide
  rw [symbolEntry, spell, spellMembers, spell, kind, name]

theorem isEntry_spell (e : Category × Symbol) : IsEntry e (spell (symbolEntry e.1 e.2)) :=
  ⟨_, isText_render e.2.toValue, spell_symbolEntry e.1 e.2⟩

/-- The name that the category stands under has no other meaning in a symbol. -/
theorem namesDiffer_symbolEntry {depth : Nat} {s : Symbol} (isRead : s.IsRead (depth + 2))
    (c : Category) :
    NamesDiffer (spell (symbolEntry c s)) ↔ ∀ m ∈ s.extra, m.1 ≠ "kind" := by
  have inside : ∀ m ∈ s.members, NamesDiffer (spell m.2) := fun m listed =>
    (isRead.takes_and_orderly listed).2.namesDiffer
  have own : (s.members.map Prod.fst).Nodup := isRead.composed.nodup
  have known : ∀ m ∈ s.known, m.1 ≠ "kind" := by
    intro m listed same
    have meant := isRead.composed.name_mem listed
    rw [same] at meant
    exact absurd meant (by decide)
  rw [symbolEntry, namesDiffer_spell_object, List.map_cons, List.nodup_cons, List.forall_mem_cons,
    and_iff_left (And.intro .string inside), and_iff_left own, s.members_eq, List.mem_map]
  constructor
  · intro absent m listed same
    exact absent ⟨m, List.mem_append_right s.known listed, same⟩
  · rintro absent ⟨m, listed, same⟩
    exact (List.mem_append.mp listed).elim (known m · same) (absent m · same)

/-- Only the name that the category stands under can be repeated. -/
theorem namesDiffer_symbolsDocument {depth : Nat} {table : SymbolTable}
    (isRead : ∀ c, ∀ s ∈ table.symbols c, s.IsRead (depth + 2)) (context : Path)
    (only : Option Category) :
    NamesDiffer (spell (symbolsDocument context table only)) ↔
      ∀ e ∈ listed table only, ∀ m ∈ e.2.extra, m.1 ≠ "kind" := by
  have path : NamesDiffer (spell (Report.pathValue context)) := .string
  have apart : ["context", "symbols"].Nodup := by decide
  rw [symbolsDocument, items_eq_map_listed, namesDiffer_spell_object]
  simp only [List.map_cons, List.map_nil, apart, true_and, List.forall_mem_cons, path,
    List.not_mem_nil, false_implies, implies_true, and_true, namesDiffer_spell_array,
    List.forall_mem_map]
  exact forall₂_congr fun e among =>
    namesDiffer_symbolEntry (isRead e.1 e.2 (mem_symbols_of_mem_listed among)) e.1

theorem isText_symbols (screen : Screen) (context : Path) (table : SymbolTable)
    (only : Option Category) :
    (spell (symbolsDocument context table only)).IsText IsNumber
      (symbols .json screen context table only).toList := by
  have ended : (symbols .json screen context table only).toList =
      (symbolsDocument context table only).pretty.toList ++ ['\n'] := String.toList_append
  rw [ended]
  exact isText_pretty _ (.blank rfl .none)

/-- The answer for programs that lists symbols of a report spells one document: the path of the
context and the symbols that are listed, in the order of the table.  Each of them is what is written
of it alone, behind the name of its category.  No object repeats a name, unless a symbol was
reported with a member that is called as the category is. -/
theorem listing_spells_symbols (report : List Char) (screen : Screen) (context : Path)
    (only : Option Category) :
    let table := (Findings.ofReport report).symbols
    let text := (symbols .json screen context table only).toList
    ∃ path items, Spells path context.text.toList ∧
      List.Forall₂ IsEntry (listed table only) items ∧
      let d := Document.object [("context".toList, .string path), ("symbols".toList, .array items)]
      d.IsText IsNumber text ∧ (∀ other, other.IsText IsNumber text → other = d) ∧
        (NamesDiffer d ↔ ∀ e ∈ listed table only, ∀ m ∈ e.2.extra, m.1 ≠ "kind") := by
  intro table text
  let items := (listed table only).map fun e => spell (symbolEntry e.1 e.2)
  have spelled : spell (symbolsDocument context table only) = .object
      [("context".toList, .string (escaped context.text)), ("symbols".toList, .array items)] := by
    rw [symbolsDocument, items_eq_map_listed, spell, spellMembers, spellMembers, spell,
      spellItems_eq_map, List.map_map]
    rfl
  have isText := isText_symbols screen context table only
  have names := namesDiffer_symbolsDocument (Findings.isRead_symbols report) context only
  rw [spelled] at isText names
  refine ⟨escaped context.text, items, spells_escaped context.text, ?_, isText,
    fun other isTextOther => isTextOther.unique isText, names⟩
  rw [List.forall₂_map_right_iff, List.forall₂_same]
  exact fun e _ => isEntry_spell e

/-- A function was reported with a kind of its own. -/
def ownKindReport : List Char :=
  "\x7b\"kind\":\"functions\",\"payload\":[\x7b\"name\":\"Foo\",\"kind\":\"weird\"\x7d]\x7d\n".toList

/-- The listing of a function that was reported with a kind of its own has two kinds in one
object. -/
theorem listing_repeats_kind :
    let table := (Findings.ofReport ownKindReport).symbols
    let text := (symbols .json {} ⟨"/w"⟩ table none).toList
    (∃ d : Document, d.IsText IsNumber text) ∧ ∀ d, d.IsText IsNumber text → ¬ NamesDiffer d := by
  intro table text
  have isText := isText_symbols {} ⟨"/w"⟩ table none
  refine ⟨⟨_, isText⟩, fun d isTextOther differ => ?_⟩
  rw [isTextOther.unique isText] at differ
  have apart := (namesDiffer_symbolsDocument (Findings.isRead_symbols ownKindReport) _ _).mp differ
  have repeated : ∃ e ∈ listed table none, ∃ m ∈ e.2.extra, m.1 = "kind" := by decide +kernel
  obtain ⟨e, among, m, extra, same⟩ := repeated
  exact apart e among m extra same

end Output

end PawnQuery
