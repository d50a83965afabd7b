import PawnQuery.Report.Kind
import PawnQuery.Report.Shape

/-!
# Records of a report

What the compiler says about a script: diagnostics, included files and declared symbols.  Members
of a diagnostic or symbol that have no meaning here are kept, so nothing that was reported is
lost.
-/

namespace PawnQuery.Report

open PawnQuery.Json

/-! ## Diagnostics -/

structure Diagnostic where
  file : Option Path := none
  line : Option Nat := none
  severity : Option String := none
  number : Option Nat := none
  message : String := ""
  /-- Members without a meaning here, sorted by name. -/
  extra : List Member := []
deriving DecidableEq, Repr, Inhabited

namespace Diagnostic

def withMember (d : Diagnostic) (m : Member) : Shaped Diagnostic :=
  match m.1 with
  | "file" => do return { d with file := ← readOptional readPath m.2 }
  | "line" => do return { d with line := ← readOptional readUnsigned32 m.2 }
  | "severity" => do return { d with severity := ← readOptional readText m.2 }
  | "number" => do return { d with number := ← readOptional readUnsigned32 m.2 }
  | "message" => do return { d with message := ← readText m.2 }
  | _ => .ok { d with extra := d.extra ++ [m] }

def ofValue : Value → Shaped Diagnostic
  | .object members => members.foldlM withMember {}
  | v => refuse v .diagnostic

end Diagnostic

def optionalMember (name : String) (write : α → Value) (value : Option α) : List Member :=
  value.toList.map fun v => (name, write v)

def pathValue (p : Path) : Value := .string p.text

def natValue (n : Nat) : Value := .number (.int n)

namespace Diagnostic

/-- The members of a diagnostic: those with a meaning in their order, then the others. -/
def members (d : Diagnostic) : List Member :=
  optionalMember "file" pathValue d.file ++ optionalMember "line" natValue d.line ++
    optionalMember "severity" .string d.severity ++ optionalMember "number" natValue d.number ++
    [("message", .string d.message)] ++ d.extra

def toValue (d : Diagnostic) : Value := .object d.members

end Diagnostic

/-! ## Included files -/

structure IncludedFile where
  path : Path
deriving DecidableEq, Repr, Inhabited

namespace IncludedFile

/-- Reads an included file: its path, or an object that holds its path. -/
def ofValue (v : Value) : Shaped IncludedFile :=
  match v with
  | .string s => .ok ⟨⟨s⟩⟩
  | .object members =>
    match Value.member? members "file_path" with
    | some (.string s) => .ok ⟨⟨s⟩⟩
    | _ => .error (.noAlternative .includedFile)
  | _ => .error (.noAlternative .includedFile)

def toValue (f : IncludedFile) : Value := .object [("file_path", pathValue f.path)]

end IncludedFile

/-! ## Parameters -/

structure Parameter where
  name : String
  tag : Option String := none
deriving DecidableEq, Repr, Inhabited

namespace Parameter

/-- Reads a parameter: its name, or an object that holds its name and perhaps its tag. -/
def ofValue (v : Value) : Shaped Parameter :=
  match v with
  | .string s => .ok ⟨s, none⟩
  | .object members =>
    match Value.member? members "name", Value.member? members "tag" with
    | some (.string name), none => .ok ⟨name, none⟩
    | some (.string name), some .null => .ok ⟨name, none⟩
    | some (.string name), some (.string tag) => .ok ⟨name, some tag⟩
    | _, _ => .error (.noAlternative .parameter)
  | _ => .error (.noAlternative .parameter)

def toValue (p : Parameter) : Value :=
  .object (("name", .string p.name) :: optionalMember "tag" .string p.tag)

end Parameter

/-! ## Symbols -/

structure Symbol where
  name : String
  tag : Option String := none
  file : Option Path := none
  line : Option Nat := none
  value : Option Value := none
  parameters : List Parameter := []
  /-- A summary on one line; empty until one is composed. -/
  detail : String := ""
  /-- Members without a meaning here, sorted by name. -/
  extra : List Member := []
deriving DecidableEq, Repr, Inhabited

structure SymbolDraft where
  name : Option String := none
  rest : Symbol := ⟨"", none, none, none, none, [], "", []⟩
deriving DecidableEq, Repr

namespace SymbolDraft

def withMember (d : SymbolDraft) (m : Member) : Shaped SymbolDraft :=
  match m.1 with
  | "name" => do return { d with name := some (← readText m.2) }
  | "tag" => do return { d with rest := { d.rest with tag := ← readOptional readText m.2 } }
  | "file" => do return { d with rest := { d.rest with file := ← readOptional readPath m.2 } }
  | "line" => do
    return { d with rest := { d.rest with line := ← readOptional readUnsigned32 m.2 } }
  | "value" => do return { d with rest := { d.rest with value := ← readOptional .ok m.2 } }
  | "parameters" => do
    return { d with rest := { d.rest with parameters := ← readList Parameter.ofValue m.2 } }
  | "detail" => do return { d with rest := { d.rest with detail := ← readText m.2 } }
  | _ => .ok { d with rest := { d.rest with extra := d.rest.extra ++ [m] } }

def finish (d : SymbolDraft) : Shaped Symbol :=
  match d.name with
  | some name => .ok { d.rest with name := name }
  | none => .error (.missingMember "name")

end SymbolDraft

namespace Symbol

def ofValue : Value → Shaped Symbol
  | .object members => do (← members.foldlM SymbolDraft.withMember {}).finish
  | v => refuse v .symbol

def parameterMember (s : Symbol) : List Member :=
  if s.parameters.isEmpty then []
  else [("parameters", .array (s.parameters.map Parameter.toValue))]

def detailMember (s : Symbol) : List Member :=
  if s.detail.isEmpty then [] else [("detail", .string s.detail)]

def members (s : Symbol) : List Member :=
  [("name", .string s.name)] ++ optionalMember "tag" .string s.tag ++
    optionalMember "file" pathValue s.file ++ optionalMember "line" natValue s.line ++
    optionalMember "value" id s.value ++ s.parameterMember ++ s.detailMember ++ s.extra

def toValue (s : Symbol) : Value := .object s.members

end Symbol

/-! ## Records -/

inductive Record where
  | diagnostic (diagnostic : Diagnostic)
  | includedFiles (files : List IncludedFile)
  | symbols (category : Category) (list : List Symbol)
deriving DecidableEq, Repr, Inhabited

namespace Record

def kind : Record → Kind
  | .diagnostic _ => .diagnostic
  | .includedFiles _ => .includedFiles
  | .symbols category _ => .symbols category

def ofPayload (kind : Kind) (payload : Value) : Shaped Record :=
  match kind with
  | .diagnostic => (Diagnostic.ofValue payload).map .diagnostic
  | .includedFiles => (readList IncludedFile.ofValue payload).map .includedFiles
  | .symbols category => (readList Symbol.ofValue payload).map (.symbols category)

def items : Record → List Value
  | .diagnostic d => [d.toValue]
  | .includedFiles files => files.map IncludedFile.toValue
  | .symbols _ list => list.map Symbol.toValue

theorem kind_of_ofPayload {kind : Kind} {payload : Value} {r : Record}
    (h : ofPayload kind payload = .ok r) : r.kind = kind := by
  cases kind with
  | diagnostic =>
    simp only [ofPayload] at h
    cases e : Diagnostic.ofValue payload <;> simp_all [Except.map]
    subst h; rfl
  | includedFiles =>
    simp only [ofPayload] at h
    cases e : readList IncludedFile.ofValue payload <;> simp_all [Except.map]
    subst h; rfl
  | symbols category =>
    simp only [ofPayload] at h
    cases e : readList Symbol.ofValue payload <;> simp_all [Except.map]
    subst h; rfl

end Record

end PawnQuery.Report
