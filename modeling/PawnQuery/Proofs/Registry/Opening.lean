import PawnQuery.Proofs.Engine.Replayed
import PawnQuery.Proofs.Engine.Starting

/-!
# Opening workspaces

A workspace is registered with a fresh context, the context gets its main file, and with the main
file its first invocation begins.  While nothing else happens the registry that comes of this can be
written down: new contexts are numbered in the order of the descriptors, and what was in store
before stays as it was.
-/

namespace PawnQuery

open PawnQuery.Compiler (Invocation)
open PawnQuery.Files (FileTree)
open PawnQuery.Registry (Assignment)
open PawnQuery.Workspace (Descriptor)

namespace Workspace.Descriptor

variable (d : Descriptor) (general : Context.Settings) (files : FileTree)

/-- The context that a workspace is registered with. -/
def freshContext : Context :=
  .workspace d.root { general with options := d.options.getD general.options } .registry

/-- The invocation that a workspace begins with, if it has a main file. -/
def firstInvocation? : Option Invocation :=
  let file := d.effectiveMainFile files
  if file = "" then none
  else some (.ofTarget (d.root.joinText file) (d.options.getD general.options))

/-- The context of a workspace that has just got its main file and begun its first invocation. -/
def openedContext : Context :=
  { d.freshContext general with
    mainFile := d.effectiveMainFile files
    progress := if d.effectiveMainFile files = "" then 0 else 1 }

theorem mainFile?_openedContext {d : Descriptor} {files : FileTree}
    (named : d.effectiveMainFile files ≠ "") :
    (d.openedContext general files).mainFile? = some (d.effectiveMainFile files) := by
  have present : (d.effectiveMainFile files).isEmpty = false := by
    simpa [String.isEmpty_iff] using named
  simp only [Context.mainFile?, openedContext]
  exact if_neg (by simp [present])

theorem begin_freshContext :
    ((d.freshContext general).setMainFile (d.effectiveMainFile files) true).begin =
      (d.openedContext general files, d.firstInvocation? general files) := by
  by_cases empty : d.effectiveMainFile files = "" <;>
    simp [Context.setMainFile, Context.begin, Context.inProgress, Context.target?,
      Context.mainFile?, freshContext, Context.workspace, openedContext, firstInvocation?, empty]

end Workspace.Descriptor

namespace Registry

variable {r : Registry} {old later : List Context} {c : Context}

/-- The registry with workspaces opened one after the other. -/
def withOpened (r : Registry) (contexts : Descriptor → Context) (ds : List Descriptor) : Registry :=
  { r with
    store := r.store ++ ds.map contexts
    registered := r.registered.insertAll ((ds.zipIdx r.store.length).map fun e => (e.1.root, e.2))
    workspaces := r.workspaces.insertAll (ds.map fun d => (d.root, d)) }

@[simp] theorem withOpened_nil (r : Registry) (contexts : Descriptor → Context) :
    r.withOpened contexts [] = r := by
  simp [withOpened]

theorem withOpened_cons (r : Registry) (contexts : Descriptor → Context) (d : Descriptor)
    (ds : List Descriptor) :
    r.withOpened contexts (d :: ds) = (r.withOpened contexts [d]).withOpened contexts ds := by
  simp [withOpened]

theorem exists_last {α : Type} {P : α → Prop} [DecidablePred P] {all : List α}
    (some : ∃ a ∈ all, P a) :
    ∃ earlier last later, all = earlier ++ last :: later ∧ P last ∧ ∀ a ∈ later, ¬ P a := by
  induction all with
  | nil => simp at some
  | cons first all inductionHypothesis =>
    by_cases behind : ∃ a ∈ all, P a
    · obtain ⟨earlier, last, later, rfl, holds, latest⟩ := inductionHypothesis behind
      exact ⟨first :: earlier, last, later, rfl, holds, latest⟩
    · have holds : P first := by simpa [behind] using some
      exact ⟨[], first, all, rfl, holds, fun a member holds => behind ⟨a, member, holds⟩⟩

/-- Of the workspaces that are opened in one folder the last one stays, with a context that was not
in store before. -/
theorem withOpened_of_last (r : Registry) (contexts : Descriptor → Context)
    (earlier : List Descriptor) {after : List Descriptor} {last : Descriptor} {key : Path}
    (same : last.root.Same key) (latest : ∀ d ∈ after, ¬ d.root.Same key) :
    let opened := r.withOpened contexts (earlier ++ last :: after)
    let id := r.store.length + earlier.length
    opened.workspaces.get? key = some last ∧ opened.contextAt? key = some id ∧
      r.context? id = none ∧ opened.context? id = some (contexts last) := by
  intro opened id
  refine ⟨?_, ?_, List.getElem?_eq_none (Nat.le_add_right _ _), ?_⟩
  · simp only [opened, withOpened, List.map_append, List.map_cons]
    refine Path.Map.get?_insertAll_of_last _ same fun e member => ?_
    obtain ⟨d, inside, rfl⟩ := List.mem_map.mp member
    exact latest d inside
  · simp only [opened, withOpened, contextAt?, List.zipIdx_append, List.zipIdx_cons,
      List.map_append, List.map_cons]
    refine Path.Map.get?_insertAll_of_last _ same fun e member => ?_
    obtain ⟨numbered, inside, rfl⟩ := List.mem_map.mp member
    exact latest _ (List.fst_mem_of_mem_zipIdx inside)
  · simp [opened, id, withOpened, context?]

/-- In folders that differ every workspace stays that is opened. -/
theorem withOpened_of_apart (r : Registry) (contexts : Descriptor → Context)
    {ds earlier later : List Descriptor} {d : Descriptor}
    (apart : ds.Pairwise fun d e => ¬ d.root.Same e.root) (split : ds = earlier ++ d :: later) :
    let opened := r.withOpened contexts ds
    let id := r.store.length + earlier.length
    opened.workspaces.get? d.root = some d ∧ opened.contextAt? d.root = some id ∧
      r.context? id = none ∧ opened.context? id = some (contexts d) := by
  subst split
  refine r.withOpened_of_last contexts earlier (.refl d.root) fun e member same => ?_
  exact (List.pairwise_cons.mp (List.pairwise_append.mp apart).2.1).1 e member same.symm

theorem context?_withOpened {r : Registry} {id : ContextId} (found : r.context? id = some c)
    (contexts : Descriptor → Context) (ds : List Descriptor) :
    (r.withOpened contexts ds).context? id = some c := by
  obtain ⟨inside, -⟩ := List.getElem?_eq_some_iff.mp found
  simp only [withOpened, context?]
  rw [List.getElem?_append_left inside]
  exact found

/-- Folders in which nothing is opened stand for what they stood for. -/
theorem withOpened_of_absent (r : Registry) (contexts : Descriptor → Context)
    {ds : List Descriptor} {key : Path} (absent : ∀ d ∈ ds, ¬ d.root.Same key) :
    (r.withOpened contexts ds).workspaces.get? key = r.workspaces.get? key ∧
      (r.withOpened contexts ds).contextAt? key = r.contextAt? key := by
  constructor
  · refine Path.Map.get?_insertAll_of_absent _ fun e member => ?_
    obtain ⟨d, inside, rfl⟩ := List.mem_map.mp member
    exact absent d inside
  · refine Path.Map.get?_insertAll_of_absent _ fun e member => ?_
    obtain ⟨numbered, inside, rfl⟩ := List.mem_map.mp member
    exact absent _ (List.fst_mem_of_mem_zipIdx inside)

/-- The main files that workspaces are to get whose contexts are numbered from `first` on. -/
def mainFiles (files : FileTree) (first : ContextId) (ds : List Descriptor) : List Assignment :=
  (ds.zipIdx first).map fun e => ⟨e.2, e.1.effectiveMainFile files⟩

theorem register_eq (r : Registry) (d : Descriptor) (files : FileTree) :
    r.register d files = (r.withOpened (·.freshContext r.settings) [d],
      ⟨r.store.length, d.effectiveMainFile files⟩) := rfl

theorem changeContext_of_store (store : r.store = old ++ c :: later) (change : Context.Change) :
    r.changeContext old.length change = { r with store := old ++ c.apply change :: later } := by
  have found : r.context? old.length = some c := by simp [context?, store]
  simp [changeContext, found, setContext, store]

end Registry

namespace Engine.State

variable {s : State} {r : Registry} {begun : List Activity}

/-- The first invocations of workspaces whose contexts are numbered from `first` on. -/
def firstLaunches (general : Context.Settings) (files : FileTree) (first : ContextId)
    (ds : List Descriptor) : List Activity :=
  (ds.zipIdx first).filterMap fun e => (e.1.firstInvocation? general files).map (.launch e.2)

theorem firstLaunches_cons (general : Context.Settings) (files : FileTree) (first : ContextId)
    (d : Descriptor) (ds : List Descriptor) :
    firstLaunches general files first (d :: ds) =
      firstLaunches general files first [d] ++ firstLaunches general files (first + 1) ds := by
  rw [firstLaunches, List.zipIdx_cons, ← List.singleton_append, List.filterMap_append]
  rfl

/-! ## Sections -/

theorem assignMainFile_eq (s : State) (id : ContextId) (file : String) (reparse : Bool) :
    s.assignMainFile id file reparse =
      { s with registry := s.registry.apply (.context id (.setMainFile file reparse)) } := by
  simp only [assignMainFile, Registry.apply, Registry.changeContext]
  cases s.registry.context? id <;> rfl

theorem startInvocation_eq (s : State) (id : ContextId) :
    s.startInvocation id = ({ s with registry := s.registry.apply (.context id .begin) },
      (((s.registry.context? id).bind fun c => c.begin.2).map (.launch id)).toList) := by
  simp only [startInvocation, Registry.apply, Registry.changeContext, Context.apply]
  cases found : s.registry.context? id with
  | none => rfl
  | some c =>
    obtain equal | ⟨target, _, _, equal⟩ := c.begin_cases
    · simp [equal, Registry.setContext_self found]
    · simp [equal]

/-- A fresh context gets its main file and begins its first invocation. -/
theorem NextFree.leads_assign_next (free : s.NextFree) {d : Descriptor} {old later : List Context}
    (store : r.store = old ++ d.freshContext r.settings :: later) (rest : List Assignment)
    (added : List Descriptor) (begun : List Activity) :
    Leads s.taskCount
      (s.atWork r (.assign (⟨old.length, d.effectiveMainFile s.files⟩ :: rest) added) begun)
      (s.atWork { r with store := old ++ d.openedContext r.settings s.files :: later }
        (.assign rest added) (begun ++ firstLaunches r.settings s.files old.length [d])) := by
  let file := d.effectiveMainFile s.files
  let named := (d.freshContext r.settings).setMainFile file true
  let after : Registry := { r with store := old ++ named :: later }
  have begins : named.begin =
      (d.openedContext r.settings s.files, d.firstInvocation? r.settings s.files) :=
    d.begin_freshContext r.settings s.files
  have naming : Leads s.taskCount (s.atWork r (.assign (⟨old.length, file⟩ :: rest) added) begun)
      (s.atWork after (.request old.length rest added) begun) := by
    refine free.leads_atWork_alone ?_
    simp only [turn, assignNext, assignMainFile_eq, registry_atWork, Registry.apply,
      Registry.changeContext_of_store store]
    rfl
  refine naming.trans (free.leads_atWork ?_)
  have stored : after.store = old ++ named :: later := rfl
  have found : after.context? old.length = some named := by simp [Registry.context?, stored]
  have launches : ((d.firstInvocation? r.settings s.files).map (Activity.launch old.length)).toList =
      firstLaunches r.settings s.files old.length [d] := by
    cases first : d.firstInvocation? r.settings s.files <;> simp [firstLaunches, first]
  simp only [turn, startInvocation_eq, registry_atWork, Registry.apply, found, Option.bind_some,
    Registry.changeContext_of_store stored, Context.apply, begins, launches]
  rfl

theorem NextFree.leads_assign (free : s.NextFree) {ds : List Descriptor} {old : List Context}
    (store : r.store = old ++ ds.map (·.freshContext r.settings)) (added : List Descriptor)
    (begun : List Activity) :
    Leads s.taskCount
      (s.atWork r (.assign (Registry.mainFiles s.files old.length ds) added) begun)
      (s.atWork { r with store := old ++ ds.map (·.openedContext r.settings s.files) }
        (.assign [] added) (begun ++ firstLaunches r.settings s.files old.length ds)) := by
  induction ds generalizing old r begun with
  | nil =>
    obtain rfl : r.store = old := by simpa using store
    simpa [Registry.mainFiles, firstLaunches] using Leads.refl _ _
  | cons d ds inductionHypothesis =>
    let next : Registry :=
      { r with store :=
          old ++ d.openedContext r.settings s.files :: ds.map (·.freshContext r.settings) }
    have first := free.leads_assign_next store (Registry.mainFiles s.files (old.length + 1) ds)
      added begun
    have stored : next.store = (old ++ [d.openedContext r.settings s.files]) ++
        ds.map (·.freshContext next.settings) := List.append_cons ..
    have others := inductionHypothesis stored
      (begun ++ firstLaunches r.settings s.files old.length [d])
    rw [List.length_append, List.length_singleton, List.append_assoc, List.append_assoc,
      ← firstLaunches_cons] at others
    exact first.trans others

theorem NextFree.leads_assigned (free : s.NextFree) (r : Registry) (added : List Descriptor)
    (begun : List Activity) :
    Leads s.taskCount (s.atWork r (.assign [] added) begun) (s.atWork r (.enroll added) begun) := by
  refine free.leads_atWork_alone ?_
  rw [atWork, withRegistry_foldl_begin]
  rfl

/-- The first workspaces are registered with fresh contexts one after the other. -/
theorem NextFree.leads_register (free : s.NextFree) (r : Registry) (todo : List Descriptor)
    (made : List Assignment) (begun : List Activity) :
    Leads s.taskCount (s.atWork r (.register todo made) begun)
      (s.atWork (r.withOpened (·.freshContext r.settings) todo)
        (.register [] (made ++ Registry.mainFiles s.files r.store.length todo)) begun) := by
  induction todo generalizing r made with
  | nil => simpa [Registry.mainFiles] using Leads.refl _ _
  | cons d todo inductionHypothesis =>
    let next := r.withOpened (·.freshContext r.settings) [d]
    have first : Leads s.taskCount (s.atWork r (.register (d :: todo) made) begun)
        (s.atWork next (.register todo (made ++ [⟨r.store.length, d.effectiveMainFile s.files⟩]))
          begun) := by
      refine free.leads_atWork_alone ?_
      simp only [turn, registerNext, registry_atWork, files_atWork, Registry.register_eq]
      rfl
    have others := inductionHypothesis next
      (made ++ [⟨r.store.length, d.effectiveMainFile s.files⟩])
    rw [Registry.withOpened_cons]
    refine first.trans ?_
    simpa [next, Registry.mainFiles, Registry.withOpened] using others

/-- Workspaces are opened one after the other, each with its first invocation. -/
theorem NextFree.leads_enroll (free : s.NextFree) (r : Registry) (added : List Descriptor)
    (begun : List Activity) :
    Leads s.taskCount (s.atWork r (.enroll added) begun)
      (s.atWork (r.withOpened (·.openedContext r.settings s.files) added) (.enroll [])
        (begun ++ firstLaunches r.settings s.files r.store.length added)) := by
  induction added generalizing r begun with
  | nil => simpa [firstLaunches] using Leads.refl _ _
  | cons d added inductionHypothesis =>
    let fresh := r.withOpened (·.freshContext r.settings) [d]
    let opened := r.withOpened (·.openedContext r.settings s.files) [d]
    have registers : Leads s.taskCount (s.atWork r (.enroll (d :: added)) begun)
        (s.atWork fresh (.assign (Registry.mainFiles s.files r.store.length [d]) added) begun) := by
      refine free.leads_atWork_alone ?_
      simp only [turn, enrollNext, registry_atWork, files_atWork, Registry.register_eq]
      rfl
    have stored : fresh.store = r.store ++ [d].map (·.freshContext fresh.settings) := rfl
    have assigns := free.leads_assign stored added begun
    have others := inductionHypothesis opened
      (begun ++ firstLaunches r.settings s.files r.store.length [d])
    have length : opened.store.length = r.store.length + 1 := List.length_append
    rw [length] at others
    rw [Registry.withOpened_cons, firstLaunches_cons, ← List.append_assoc]
    exact registers.trans (assigns.trans ((free.leads_assigned opened added _).trans others))

/-! ## Closing and opening -/

theorem NextFree.concludesWith_update (free : s.NextFree) (removed : List Path)
    (added : List Descriptor) :
    s.ConcludesWith (.update removed added)
      ((s.registry.detach removed).withOpened (·.openedContext s.registry.settings s.files) added)
      .done (firstLaunches s.registry.settings s.files s.registry.store.length added) := by
  have detaches : Leads s.taskCount (s.atWork s.registry (.detach removed added) [])
      (s.atWork (s.registry.detach removed) (.enroll added) []) := free.leads_atWork_alone rfl
  have enrolls := free.leads_enroll (s.registry.detach removed) added []
  have settings : (s.registry.detach removed).settings = s.registry.settings :=
    s.registry.settings_apply (.tables (.detach removed))
  rw [settings, Registry.store_detach, List.nil_append] at enrolls
  exact concludesWith_of_leads
    (detaches.trans (enrolls.trans (free.leads_concluded (by simp only [turn, enrollNext]))))

end Engine.State

end PawnQuery
