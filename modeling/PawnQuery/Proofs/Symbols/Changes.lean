import PawnQuery.Proofs.Symbols.Findings

/-!
# What a table shows of its changes

The lists of a table are replaced and the table is completed, in any order.  Each list is the one
that its category was last given; of what happened since then only completions show, and only in
descriptions that were given empty.  Completing a table once more adds nothing.
-/

namespace PawnQuery.Symbols

open PawnQuery.Report

/-- What can happen to a table. -/
inductive Change where
  | symbols (category : Category) (list : List Symbol)
  | includedFiles (files : List IncludedFile)
  | completion
deriving DecidableEq

namespace Change

/-- The list that a change gives to a category. -/
def symbols? (c : Category) : Change → Option (List Symbol)
  | .symbols category list => if category = c then some list else none
  | _ => none

def includedFiles? : Change → Option (List IncludedFile)
  | .includedFiles files => some files
  | _ => none

end Change

namespace SymbolTable

def change (t : SymbolTable) : Change → SymbolTable
  | .symbols category list => t.setSymbols category list
  | .includedFiles files => t.setIncludedFiles files
  | .completion => t.finalize

def ofChanges (changes : List Change) : SymbolTable := changes.foldl change {}

theorem ofChanges_append_cons (before later : List Change) (last : Change) :
    ofChanges (before ++ last :: later) = later.foldl change ((ofChanges before).change last) := by
  simp [ofChanges, List.foldl_append]

/-! ## Completion -/

theorem describe_detail (c : Category) (s : Symbol) (detail : String) :
    describe c { s with detail := detail } = describe c s := by
  cases c <;> rfl

/-- A description does not depend on the one there was, so it is made up once. -/
theorem complete_complete (c : Category) (s : Symbol) : complete c (complete c s) = complete c s := by
  by_cases empty : s.detail = ""
  · have once : complete c s = { s with detail := describe c s } := by
      rw [Findings.complete_eq, if_pos empty]
    rw [once, Findings.complete_eq]
    simp only [describe_detail, ite_self]
  · have same : complete c s = s := complete_of_detail (by simpa using empty)
    rw [same, same]

theorem ext_views {t other : SymbolTable} (symbols : ∀ c, t.symbols c = other.symbols c)
    (files : t.includedFiles = other.includedFiles) : t = other := by
  obtain ⟨_, _, _, _, _, _, _⟩ := t
  obtain ⟨_, _, _, _, _, _, _⟩ := other
  have constants := symbols .constant
  have tags := symbols .tag
  have enumerators := symbols .enumerator
  have globals := symbols .variable
  have functions := symbols .function
  have substitutes := symbols .substitute
  simp_all [SymbolTable.symbols]

theorem finalize_finalize (t : SymbolTable) : t.finalize.finalize = t.finalize := by
  refine ext_views (fun c => ?_) rfl
  rw [symbols_finalize, symbols_finalize, List.map_map]
  exact List.map_congr_left fun s _ => complete_complete c s

/-! ## Changes one after the other -/

theorem symbols_change (c : Category) (t : SymbolTable) (change : Change) :
    (t.change change).symbols c =
      ((change.symbols? c).getD (t.symbols c)).map fun s =>
        if change = .completion then complete c s else s := by
  cases change with
  | symbols category list =>
    by_cases same : category = c
    · subst same
      simp [SymbolTable.change, Change.symbols?]
    · simp [SymbolTable.change, Change.symbols?, same, Ne.symm same]
  | includedFiles files => simp [SymbolTable.change, Change.symbols?]
  | completion => simp [SymbolTable.change, Change.symbols?]

theorem includedFiles_change (t : SymbolTable) (change : Change) :
    (t.change change).includedFiles = change.includedFiles?.getD t.includedFiles := by
  cases change with
  | symbols category list => exact includedFiles_setSymbols t category list
  | includedFiles files => rfl
  | completion => exact includedFiles_finalize t

/-- Changes that give a category no list do to its symbols what a completion does, or nothing. -/
theorem symbols_foldl_change {c : Category} {later : List Change}
    (last : ∀ change ∈ later, change.symbols? c = none) (t : SymbolTable) :
    (later.foldl change t).symbols c =
      (t.symbols c).map fun s => if .completion ∈ later then complete c s else s := by
  induction later generalizing t with
  | nil => simp
  | cons next later inductionHypothesis =>
    obtain ⟨none, others⟩ := List.forall_mem_cons.mp last
    rw [List.foldl_cons, inductionHypothesis others, symbols_change, none, List.map_map]
    refine List.map_congr_left fun s _ => ?_
    by_cases now : next = .completion
    · by_cases again : .completion ∈ later
      · simp [now, again, complete_complete]
      · simp [now, again]
    · simp [now, Ne.symm now]

theorem symbols_ofChanges_of_lastGiven {c : Category} {changes later : List Change}
    {list : List Symbol} (given : LastGiven (Change.symbols? c) changes list later) :
    (ofChanges changes).symbols c =
      list.map fun s =>
        { s with detail := if s.detail = "" ∧ .completion ∈ later then describe c s
                           else s.detail } := by
  obtain ⟨⟨before, change, rfl, gives⟩, last⟩ := given
  have apart : change ≠ .completion := by
    rintro rfl
    cases gives
  rw [ofChanges_append_cons, symbols_foldl_change last, symbols_change, gives, List.map_map]
  refine List.map_congr_left fun s _ => ?_
  by_cases completed : .completion ∈ later
  · simp [apart, completed, Findings.complete_eq]
  · simp [apart, completed]

theorem symbols_ofChanges_of_never {c : Category} {changes : List Change}
    (never : ∀ change ∈ changes, change.symbols? c = none) :
    (ofChanges changes).symbols c = [] := by
  rw [ofChanges, symbols_foldl_change never]
  cases c <;> rfl

theorem includedFiles_ofChanges (changes : List Change) :
    (ofChanges changes).includedFiles =
      (lastGiven? Change.includedFiles? changes).getD [] :=
  view_foldl_apply (fun t : SymbolTable => t.includedFiles) _ includedFiles_change changes {}

/-! ## Views -/

theorem length_entries (t : SymbolTable) : t.entries.length = t.length := by
  simp [entries, length, Category.all, Nat.add_assoc]

theorem isEmpty_iff (t : SymbolTable) :
    t.isEmpty = true ↔ t.entries = [] ∧ t.includedFiles = [] := by
  rw [isEmpty, ← length_entries]
  simp [and_comm]

theorem find?_eq_some_iff (t : SymbolTable) (name : String) (e : Category × Symbol) :
    t.find? name = some e ↔
      e.2.name = name ∧ ∃ before later, t.entries = before ++ e :: later ∧
        ∀ other ∈ before, other.2.name ≠ name := by
  simp [find?, List.find?_eq_some_iff_append]

theorem find?_eq_none_iff (t : SymbolTable) (name : String) :
    t.find? name = none ↔ ∀ e ∈ t.entries, e.2.name ≠ name := by
  simp [find?]

/-- The views of a table agree on what is in it. -/
structure ViewsAgree (t : SymbolTable) : Prop where
  entries : t.entries =
    (t.symbols .constant).map (Category.constant, ·) ++ (t.symbols .tag).map (Category.tag, ·) ++
      (t.symbols .enumerator).map (Category.enumerator, ·) ++
      (t.symbols .variable).map (Category.variable, ·) ++
      (t.symbols .function).map (Category.function, ·) ++
      (t.symbols .substitute).map (Category.substitute, ·)
  length : t.length = t.entries.length
  found : ∀ name e, t.find? name = some e ↔
    e.2.name = name ∧ ∃ before later, t.entries = before ++ e :: later ∧
      ∀ other ∈ before, other.2.name ≠ name
  missing : ∀ name, t.find? name = none ↔ ∀ e ∈ t.entries, e.2.name ≠ name
  isEmpty : t.isEmpty = true ↔ t.entries = [] ∧ t.includedFiles = []

theorem viewsAgree (t : SymbolTable) : t.ViewsAgree where
  entries := by simp [entries, Category.all]
  length := t.length_entries.symm
  found := t.find?_eq_some_iff
  missing := t.find?_eq_none_iff
  isEmpty := t.isEmpty_iff

/-- Each list of symbols is the one that its category was last given, and a description differs from
the given one only where that is empty and the table was completed since.  A list that is given
touches no other, completing once more adds nothing, and all views of the table agree. -/
theorem table_follows_last_lists (changes : List Change) :
    let t := ofChanges changes
    (∀ c,
        (∃ list later, LastGiven (Change.symbols? c) changes list later ∧
          t.symbols c = list.map fun s =>
            { s with detail := if s.detail = "" ∧ .completion ∈ later then describe c s
                               else s.detail }) ∨
        ((∀ list, .symbols c list ∉ changes) ∧ t.symbols c = [])) ∧
      t.includedFiles = (lastGiven? Change.includedFiles? changes).getD [] ∧
      (∀ c list, (t.setSymbols c list).includedFiles = t.includedFiles ∧
        ∀ d, (t.setSymbols c list).symbols d = if d = c then list else t.symbols d) ∧
      (∀ files, (t.setIncludedFiles files).includedFiles = files ∧
        ∀ d, (t.setIncludedFiles files).symbols d = t.symbols d) ∧
      t.finalize.finalize = t.finalize ∧ t.ViewsAgree := by
  intro t
  refine ⟨fun c => ?_, includedFiles_ofChanges changes, fun c list => ?_, fun files => ?_,
    t.finalize_finalize, t.viewsAgree⟩
  · obtain ⟨list, later, given⟩ | never := lastGiven_or_never (Change.symbols? c) changes
    · exact .inl ⟨list, later, given, symbols_ofChanges_of_lastGiven given⟩
    · refine .inr ⟨fun list listed => ?_, symbols_ofChanges_of_never never⟩
      simpa [Change.symbols?] using never _ listed
  · refine ⟨includedFiles_setSymbols t c list, fun d => ?_⟩
    by_cases same : d = c
    · subst same
      simp
    · simp [same]
  · exact ⟨rfl, symbols_setIncludedFiles t files⟩

/-- Functions are given twice and the table is completed in between: only the constant, which was
given before, is described. -/
example :
    let given : List Change :=
      [.symbols .function [⟨"old", none, none, none, none, [], "", []⟩],
        .symbols .constant [⟨"limit", none, none, none, none, [], "", []⟩], .completion,
        .symbols .function [⟨"new", none, none, none, none, [], "", []⟩]]
    (ofChanges given).entries.map (fun e => (e.1, e.2.name, e.2.detail)) =
      [(.constant, "limit", "const limit"), (.function, "new", "")] := by
  decide +kernel

end SymbolTable

end PawnQuery.Symbols
