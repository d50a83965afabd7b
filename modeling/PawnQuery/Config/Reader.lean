import PawnQuery.Config.Basic

/-!
# Reading configurations

A configuration is a record of records and lists, whatever form it is written in.  A form says how
its documents are taken as texts, numbers, lists and records; the members that make up a
configuration are the same for all forms.  Members that have no meaning are passed over.
-/

namespace PawnQuery.Config

open PawnQuery.Workspace (Descriptor)

structure Members (δ ε : Type) where
  given : List (String × δ)
  /-- What is wrong if a member that is needed is not among them. -/
  missing : String → ε
  /-- What is wrong although every member given can be read. -/
  surplus : Option ε := none

/-- How documents `δ` of one form are read, with faults `ε`. -/
structure Form (δ ε : Type) where
  text : δ → Except ε String
  path : δ → Except ε Path
  boolean : δ → Except ε Bool
  /-- A natural number below 2 ^ 64. -/
  size : δ → Except ε Nat
  items : δ → Except ε (List δ)
  /-- The document holds no value, where one may be missing. -/
  isAbsent : δ → Except ε Bool
  record : (title : String) → (names : List String) → δ → Except ε (Members δ ε)

namespace Form

variable {δ ε : Type}

def optional {α : Type} (f : Form δ ε) (read : δ → Except ε α) (doc : δ) :
    Except ε (Option α) :=
  (f.isAbsent doc).bind fun absent => if absent then .ok none else (read doc).map some

def list {α : Type} (f : Form δ ε) (read : δ → Except ε α) (doc : δ) : Except ε (List α) :=
  (f.items doc).bind fun items => items.mapM read

def fold {α : Type} (f : Form δ ε) (title : String) (names : List String)
    (take : α → String → δ → Except ε α) (start : α) (finish : Members δ ε → α → Except ε β)
    (doc : δ) : Except ε β := do
  let members ← f.record title names doc
  let filled ← members.given.foldlM (fun a m => take a m.1 m.2) start
  let result ← finish members filled
  match members.surplus with
  | some fault => throw fault
  | none => return result

/-! ## Workspaces -/

structure DescriptorDraft where
  root : Option Path := none
  name : Option String := none
  mainFile : Option String := none
  options : Option (List String) := none

def takeDescriptor (f : Form δ ε) (d : DescriptorDraft) (name : String) (doc : δ) :
    Except ε DescriptorDraft :=
  match name with
  | "root" => (f.path doc).map fun p => { d with root := some p }
  | "name" => (f.optional f.text doc).map fun s => { d with name := s }
  | "main-file" => (f.optional f.text doc).map fun s => { d with mainFile := s }
  | "options" => (f.optional (f.list f.text) doc).map fun l => { d with options := l }
  | _ => .ok d

def descriptor (f : Form δ ε) (doc : δ) : Except ε Descriptor :=
  f.fold "WorkspaceDescriptor" ["root", "name", "main-file", "options"] f.takeDescriptor {}
    (fun members d =>
      match d.root with
      | some root => .ok ⟨root, d.name, d.mainFile, d.options⟩
      | none => .error (members.missing "root"))
    doc

/-! ## Configurations -/

def takeCompiler (f : Form δ ε) (c : CompilerSection) (name : String) (doc : δ) :
    Except ε CompilerSection :=
  match name with
  | "path" => (f.path doc).map fun p => { c with directory := p }
  | "executable" => (f.text doc).map fun s => { c with executable := s }
  | "options" => (f.list f.text doc).map fun l => { c with options := l }
  | _ => .ok c

def compilerSection (f : Form δ ε) (doc : δ) : Except ε CompilerSection :=
  f.fold "CompilerSettings" ["path", "executable", "options"] f.takeCompiler {}
    (fun _ c => .ok c) doc

def takeConfig (f : Form δ ε) (c : Config) (name : String) (doc : δ) : Except ε Config :=
  match name with
  | "compiler" => (f.compilerSection doc).map fun s => { c with compiler := s }
  | "workspace-support" => (f.boolean doc).map fun b => { c with workspaceSupport := b }
  | "max-output-bytes" => (f.size doc).map fun n => { c with outputLimit := n }
  | "workspaces" => (f.list f.descriptor doc).map fun l => { c with workspaces := l }
  | _ => .ok c

def config (f : Form δ ε) (doc : δ) : Except ε Config :=
  f.fold "ParserConfig" ["compiler", "workspace-support", "max-output-bytes", "workspaces"]
    f.takeConfig {} (fun _ c => .ok c) doc

end Form

end PawnQuery.Config
