import Cadence.Foundation.Journal
import Cadence.Foundation.Parts
import Cadence.Io.PlatformFilesystem

/-!
# Files do not see each other

What happens to a file is decided by the calls of the file objects that have it open, and by nothing
else: not by the use of other files, and not by what becomes of its name. A path that is removed and
created anew leads to a new file, while those who have the old one open go on with it.
-/

namespace Cadence.FileIsolation

open StepSystem PlatformFilesystem

variable {Location : Type} {resolve : Path → Location}
  {store next last : FileStore Location} {action : Action} {actions : List Action} {inode : Nat}

/-! ### One file -/

/-- The step of a file that an action is. -/
def onInode (resolve : Path → Location) (inode : Nat) (store : FileStore Location) :
    Action → Option SharedFile.Action
  | .create _ _ _ | .unlink _ _ => none
  | .open' loc path outcome =>
      if outcome = none ∧ store.names (resolve path) = some (.file inode) then some (.attach loc)
      else none
  | .call loc call =>
      if (store.objects loc).map FileObject.inode = some inode then some (.call loc call) else none
  | .destroy loc steps =>
      if (store.objects loc).map FileObject.inode = some inode then some (.destroy loc steps)
      else none

theorem onInode_call {loc opened : Nat} {call : BufferedResults.Call}
    (hopened : (store.objects loc).map FileObject.inode = some opened) :
    onInode resolve inode store (.call loc call) =
      if opened = inode then some (.call loc call) else none := by
  simp [onInode, hopened]

theorem onInode_destroy {loc opened : Nat} {steps : List LibraryStep}
    (hopened : (store.objects loc).map FileObject.inode = some opened) :
    onInode resolve inode store (.destroy loc steps) =
      if opened = inode then some (.destroy loc steps) else none := by
  simp [onInode, hopened]

/-- The file has the same file objects as before, or fewer. -/
def KeepsObjects (file next : SharedFile) : Prop :=
  ∀ loc, file.sessions loc = none → next.sessions loc = none

theorem keepsObjects_call {file next : SharedFile} {loc : Nat} {call : BufferedResults.Call}
    (hcall : file.call loc call = some next) : KeepsObjects file next := by
  obtain ⟨old, hold, hmap⟩ := Option.bind_eq_some_iff.mp hcall
  obtain ⟨session, _, rfl⟩ := Option.map_eq_some_iff.mp hmap
  intro other hnone
  have hne : other ≠ loc := by
    rintro rfl
    cases hold.symm.trans hnone
  exact (ObjectStore.put_of_ne hne).trans hnone

theorem keepsObjects_destroy {file next : SharedFile} {loc : Nat} {steps : List LibraryStep}
    (hdestroy : file.destroy loc steps = some next) : KeepsObjects file next := by
  obtain ⟨closed, hcall, rfl⟩ := Option.map_eq_some_iff.mp hdestroy
  intro other hnone
  by_cases heq : other = loc
  · rw [heq]
    exact ObjectStore.remove_self
  · exact (ObjectStore.remove_of_ne heq).trans (keepsObjects_call hcall other hnone)

theorem sessions_of_objects_none {loc : Nat} (hnone : store.objects loc = none) :
    (fileAt store inode).sessions loc = none := by
  simp [fileAt, hnone]

theorem fileAt_withFile_self {file : SharedFile} (hinode : inode < store.inodes.length)
    (hkeeps : KeepsObjects (fileAt store inode) file) :
    fileAt (withFile store inode file) inode = file := by
  have hcontent : (fileAt (withFile store inode file) inode).content = file.content := by
    simp [fileAt, withFile, hinode]
  have hsessions : (fileAt (withFile store inode file) inode).sessions = file.sessions := by
    funext loc
    cases hobject : store.objects loc with
    | none =>
        rw [hkeeps loc (sessions_of_objects_none hobject)]
        simp [fileAt, withFile, hobject]
    | some object =>
        by_cases heq : object.inode = inode
        · cases hsession : file.sessions loc <;> simp [fileAt, withFile, hobject, heq, hsession]
        · rw [hkeeps loc (by simp [fileAt, hobject, heq])]
          simp [fileAt, withFile, hobject, heq]
  exact (SharedFile.mk.injEq ..).mpr ⟨hcontent, hsessions⟩

theorem fileAt_withFile_of_ne {file : SharedFile} {other : Nat} (hne : other ≠ inode) :
    fileAt (withFile store other file) inode = fileAt store inode := by
  rw [fileAt, fileAt, SharedFile.mk.injEq]
  constructor
  · simp [withFile, List.getElem?_set_ne hne]
  · funext loc
    cases hobject : store.objects loc with
    | none => simp [withFile, hobject]
    | some object =>
        by_cases heq : object.inode = other
        · cases hsession : file.sessions loc <;>
            simp [withFile, hobject, heq, hsession, hne]
        · simp [withFile, hobject, heq]

/-- A step of a file object is a step of the file that it has open. -/
theorem fileAt_onFile {loc : Nat} {f : SharedFile → Option SharedFile}
    (hf : ∀ file next, f file = some next → KeepsObjects file next)
    (hstep : onFile store loc f = some next) :
    next.inodes.length = store.inodes.length ∧ ∃ opened,
      (store.objects loc).map FileObject.inode = some opened ∧
      (opened < store.inodes.length → f (fileAt store opened) = some (fileAt next opened)) ∧
      ∀ inode, inode ≠ opened → fileAt next inode = fileAt store inode := by
  obtain ⟨object, hobject, hmap⟩ := Option.bind_eq_some_iff.mp hstep
  obtain ⟨file, hfile, rfl⟩ := Option.map_eq_some_iff.mp hmap
  refine ⟨List.length_set, object.inode, by rw [hobject]; rfl, fun hvalid => ?_, fun inode hne => ?_⟩
  · rw [fileAt_withFile_self hvalid (hf _ _ hfile)]
    exact hfile
  · exact fileAt_withFile_of_ne hne.symm

theorem fileAt_put {loc opened : Nat} {session : BufferedResults.Session} {inodes : List (List Byte)}
    {names : ObjectStore Location DirEntry} (hfree : store.objects loc = none)
    (hcontent : inodes.getD inode [] = store.inodes.getD inode []) :
    fileAt ⟨names, inodes, store.objects.put loc ⟨opened, session⟩⟩ inode =
      if opened = inode then
        { fileAt store inode with sessions := (fileAt store inode).sessions.put loc session }
      else fileAt store inode := by
  have hsessions : (fileAt ⟨names, inodes, store.objects.put loc ⟨opened, session⟩⟩ inode).sessions =
      if opened = inode then (fileAt store inode).sessions.put loc session
      else (fileAt store inode).sessions := by
    funext other
    by_cases heq : other = loc
    · subst heq
      by_cases hinode : opened = inode
      · simp [fileAt, hinode]
      · simp [fileAt, hinode, hfree]
    · by_cases hinode : opened = inode
      · simp [fileAt, hinode, ObjectStore.put_of_ne heq]
      · simp [fileAt, hinode, ObjectStore.put_of_ne heq]
  split
  next hinode =>
    rw [if_pos hinode] at hsessions
    exact (SharedFile.mk.injEq ..).mpr ⟨hcontent, hsessions⟩
  next hinode =>
    rw [if_neg hinode] at hsessions
    exact (SharedFile.mk.injEq ..).mpr ⟨hcontent, hsessions⟩

theorem names_of_onFile {loc : Nat} {f : SharedFile → Option SharedFile}
    (hstep : onFile store loc f = some next) : next.names = store.names := by
  obtain ⟨object, _, hmap⟩ := Option.bind_eq_some_iff.mp hstep
  obtain ⟨file, _, rfl⟩ := Option.map_eq_some_iff.mp hmap
  rfl

variable [DecidableEq Location]

/-- What a call of the file system adds to the journal of the names. -/
def change (resolve : Path → Location) (store : FileStore Location) :
    Action → Option (Journal.Entry Location)
  | .create _ path outcome =>
      if outcome = none ∧ store.names (resolve path) = none then some (.append (resolve path))
      else none
  | .unlink path outcome =>
      if outcome = none ∧ store.names (resolve path) ≠ none then
        some (.drop fun place => place = resolve path)
      else none
  | .open' _ _ _ | .call _ _ | .destroy _ _ => none

/-- What an action does. -/
inductive Effect (resolve : Path → Location) (store : FileStore Location) :
    Action → FileStore Location → Prop where
  | raises (action : Action) (hinode : ∀ inode, onInode resolve inode store action = none)
      (hchange : change resolve store action = none) : Effect resolve store action store
  | creates (loc : Nat) (path : Path) (hfree : store.objects loc = none)
      (hname : store.names (resolve path) = none) :
      Effect resolve store (.create loc path none) {
        names := store.names.put (resolve path) (.file store.inodes.length)
        inodes := store.inodes ++ [[]]
        objects := store.objects.put loc ⟨store.inodes.length, .opened []⟩ }
  | opens (loc : Nat) (path : Path) (inode : Nat) (hfree : store.objects loc = none)
      (hname : store.names (resolve path) = some (.file inode)) :
      Effect resolve store (.open' loc path none) { store with
        objects := store.objects.put loc ⟨inode, .opened (store.inodes.getD inode [])⟩ }
  | unlinks (path : Path) (hname : store.names (resolve path) ≠ none) :
      Effect resolve store (.unlink path none)
        { store with names := store.names.remove (resolve path) }
  | calls (loc : Nat) (call : BufferedResults.Call) (next : FileStore Location)
      (hcall : onFile store loc (fun file => file.call loc call) = some next) :
      Effect resolve store (.call loc call) next
  | destroys (loc : Nat) (steps : List LibraryStep) (next : FileStore Location)
      (hdestroy : onFile store loc (fun file => file.destroy loc steps) = some next) :
      Effect resolve store (.destroy loc steps) next

theorem effect_of_step (hstep : step resolve store action = some next) :
    Effect resolve store action next := by
  cases action with
  | create loc path outcome =>
      obtain ⟨hfree, hnext⟩ := Option.ite_none_right_eq_some.mp hstep
      obtain rfl := Option.some.inj hnext
      cases outcome with
      | some errno => exact .raises _ (fun _ => rfl) rfl
      | none =>
          cases hname : store.names (resolve path) with
          | none =>
              simp only [PlatformFilesystem.create, hname, orUnchanged]
              exact .creates loc path hfree hname
          | some entry =>
              simp only [PlatformFilesystem.create, hname, orUnchanged]
              exact .raises _ (fun _ => rfl) (by simp [change, hname])
  | open' loc path outcome =>
      obtain ⟨hfree, hnext⟩ := Option.ite_none_right_eq_some.mp hstep
      obtain rfl := Option.some.inj hnext
      cases outcome with
      | some errno => exact .raises _ (fun _ => rfl) rfl
      | none =>
          cases hname : store.names (resolve path) with
          | none =>
              simp only [PlatformFilesystem.open', hname, orUnchanged]
              exact .raises _ (fun _ => by simp [onInode, hname]) rfl
          | some entry =>
              cases entry with
              | directory =>
                  simp only [PlatformFilesystem.open', hname, orUnchanged]
                  exact .raises _ (fun _ => by simp [onInode, hname]) rfl
              | file inode =>
                  simp only [PlatformFilesystem.open', hname, orUnchanged]
                  exact .opens loc path inode hfree hname
  | unlink path outcome =>
      obtain rfl := Option.some.inj hstep
      cases outcome with
      | some errno => exact .raises _ (fun _ => rfl) rfl
      | none =>
          cases hname : store.names (resolve path) with
          | none =>
              simp only [PlatformFilesystem.unlink, hname, orUnchanged]
              exact .raises _ (fun _ => rfl) (by simp [change, hname])
          | some entry =>
              simp only [PlatformFilesystem.unlink, hname, orUnchanged]
              exact .unlinks path (by simp [hname])
  | call loc call => exact .calls loc call next hstep
  | destroy loc steps => exact .destroys loc steps next hstep

/-- A file is independent of all that the file system does otherwise. -/
theorem independent_onInode (resolve : Path → Location) (inode : Nat) :
    Independent (step resolve) SharedFile.step (fun store => fileAt store inode)
      (onInode resolve inode) (fun store => inode < store.inodes.length) where
  kept store action next hvalid hstep := by
    cases effect_of_step hstep with
    | raises => exact hvalid
    | creates => exact Nat.lt_of_lt_of_le hvalid (List.length_append ▸ Nat.le_add_right _ _)
    | opens => exact hvalid
    | unlinks => exact hvalid
    | calls loc call _ hcall =>
        rw [(fileAt_onFile (fun _ _ => keepsObjects_call) hcall).1]
        exact hvalid
    | destroys loc steps _ hdestroy =>
        rw [(fileAt_onFile (fun _ _ => keepsObjects_destroy) hdestroy).1]
        exact hvalid
  moves store action next action' hvalid hstep hpart := by
    cases effect_of_step hstep with
    | raises _ hinode => cases (hinode inode).symm.trans hpart
    | creates => cases hpart
    | unlinks => cases hpart
    | opens loc path opened hfree hname =>
        obtain ⟨⟨_, hfile⟩, hattach⟩ := Option.ite_none_right_eq_some.mp hpart
        obtain rfl : opened = inode := by simpa [hname] using hfile
        obtain rfl := Option.some.inj hattach
        rw [SharedFile.step, fileAt_put hfree rfl, if_pos rfl]
        rfl
    | calls loc call _ hcall =>
        obtain ⟨_, opened, hopened, hmoves, _⟩ :=
          fileAt_onFile (fun _ _ => keepsObjects_call) hcall
        rw [onInode_call hopened] at hpart
        obtain ⟨rfl, haction⟩ := Option.ite_none_right_eq_some.mp hpart
        rw [← Option.some.inj haction]
        exact hmoves hvalid
    | destroys loc steps _ hdestroy =>
        obtain ⟨_, opened, hopened, hmoves, _⟩ :=
          fileAt_onFile (fun _ _ => keepsObjects_destroy) hdestroy
        rw [onInode_destroy hopened] at hpart
        obtain ⟨rfl, haction⟩ := Option.ite_none_right_eq_some.mp hpart
        rw [← Option.some.inj haction]
        exact hmoves hvalid
  stays store action next hvalid hstep hpart := by
    cases effect_of_step hstep with
    | raises => rfl
    | unlinks => rfl
    | creates loc path hfree hname =>
        rw [fileAt_put hfree (by simp [List.getElem?_append_left hvalid]), if_neg (Nat.ne_of_gt hvalid)]
    | opens loc path opened hfree hname =>
        have hne : opened ≠ inode := by
          rintro rfl
          simp [onInode, hname] at hpart
        rw [fileAt_put hfree rfl, if_neg hne]
    | calls loc call _ hcall =>
        obtain ⟨_, opened, hopened, _, hstays⟩ :=
          fileAt_onFile (fun _ _ => keepsObjects_call) hcall
        rw [onInode_call hopened] at hpart
        refine hstays inode fun heq => ?_
        rw [if_pos heq.symm] at hpart
        cases hpart
    | destroys loc steps _ hdestroy =>
        obtain ⟨_, opened, hopened, _, hstays⟩ :=
          fileAt_onFile (fun _ _ => keepsObjects_destroy) hdestroy
        rw [onInode_destroy hopened] at hpart
        refine hstays inode fun heq => ?_
        rw [if_pos heq.symm] at hpart
        cases hpart

/-- **Isolation.** Whatever a run does, a file and the file objects that have it open come out as they
would if the calls on them had been the only ones. -/
theorem file_runs_alone (resolve : Path → Location) (hinode : inode < store.inodes.length)
    (hrun : run (step resolve) store actions = some last) :
    run SharedFile.step (fileAt store inode)
      (concerning (step resolve) (onInode resolve inode) store actions) =
        some (fileAt last inode) :=
  (independent_onInode resolve inode).run_concerning hinode hrun

/-- Two files, of one byte each. -/
def twoFiles : FileStore Path where
  names := ObjectStore.put (ObjectStore.put (fun _ => none) "a" (.file 0)) "b" (.file 1)
  inodes := [[1], [2]]
  objects _ := none

/-- A file is written to, removed and created anew while it is open, next to another that is read. -/
def replaced : List (Action) :=
  [.open' 0 "a" none, .open' 1 "b" none, .call 0 (.write [7], [.buffer 1]), .unlink "a" none,
    .create 2 "a" none, .call 1 (.read [0], [.fetch 1 (.ok 1)]), .destroy 0 [.handOver 1]]

def afterReplaced : FileStore Path := (run (step id) twoFiles replaced).get (by rfl)

theorem file_runs_alone_replaced :
    run SharedFile.step (fileAt twoFiles 0)
      (concerning (step id) (onInode id 0) twoFiles replaced) = some (fileAt afterReplaced 0) :=
  file_runs_alone id (by decide) (Option.some_get _).symm

/-! ### Names -/

/-- No file has two names, and a number that is not in use yet stands for no file. -/
structure Apart (store : FileStore Location) : Prop where
  valid : ∀ place inode, store.names place = some (.file inode) → inode < store.inodes.length
  distinct : ∀ place place' inode, store.names place = some (.file inode) →
    store.names place' = some (.file inode) → place = place'

omit [DecidableEq Location] in
theorem Apart.of_names (hapart : Apart store) (hnames : next.names = store.names)
    (hlength : next.inodes.length = store.inodes.length) : Apart next where
  valid place inode hname := hlength ▸ hapart.valid place inode (hnames ▸ hname)
  distinct place place' inode hname hname' :=
    hapart.distinct place place' inode (hnames ▸ hname) (hnames ▸ hname')

theorem Apart.of_step (hapart : Apart store) (hstep : step resolve store action = some next) :
    Apart next := by
  cases effect_of_step hstep with
  | raises => exact hapart
  | opens => exact hapart.of_names rfl rfl
  | calls _ _ _ hcall =>
      exact hapart.of_names (names_of_onFile hcall)
        (fileAt_onFile (fun _ _ => keepsObjects_call) hcall).1
  | destroys _ _ _ hdestroy =>
      exact hapart.of_names (names_of_onFile hdestroy)
        (fileAt_onFile (fun _ _ => keepsObjects_destroy) hdestroy).1
  | unlinks path _ =>
      have hold {place : Location} {inode : Nat}
          (hname : (store.names.remove (resolve path)) place = some (.file inode)) :
          store.names place = some (.file inode) := by
        by_cases heq : place = resolve path
        · rw [heq, ObjectStore.remove_self] at hname
          cases hname
        · exact (ObjectStore.remove_of_ne heq).symm.trans hname
      exact ⟨fun place inode hname => hapart.valid place inode (hold hname),
        fun place place' inode hname hname' =>
          hapart.distinct place place' inode (hold hname) (hold hname')⟩
  | creates loc path _ hname =>
      have hcases {place : Location} {inode : Nat}
          (hplace : (store.names.put (resolve path) (.file store.inodes.length)) place =
            some (.file inode)) :
          place = resolve path ∧ inode = store.inodes.length ∨
            place ≠ resolve path ∧ store.names place = some (.file inode) := by
        by_cases heq : place = resolve path
        · rw [heq, ObjectStore.put_self] at hplace
          exact .inl ⟨heq, (DirEntry.file.inj (Option.some.inj hplace)).symm⟩
        · exact .inr ⟨heq, (ObjectStore.put_of_ne heq).symm.trans hplace⟩
      refine ⟨fun place inode hplace => ?_, fun place place' inode hplace hplace' => ?_⟩
      · rw [List.length_append, List.length_singleton]
        rcases hcases hplace with ⟨_, rfl⟩ | ⟨_, hold⟩
        · exact Nat.lt_succ_self _
        · exact Nat.lt_succ_of_lt (hapart.valid place inode hold)
      · rcases hcases hplace with ⟨hat, hnew⟩ | ⟨_, hold⟩ <;>
          rcases hcases hplace' with ⟨hat', hnew'⟩ | ⟨_, hold'⟩
        · rw [hat, hat']
        · exact absurd (hapart.valid place' inode hold') (hnew ▸ Nat.lt_irrefl _)
        · exact absurd (hapart.valid place inode hold) (hnew' ▸ Nat.lt_irrefl _)
        · exact hapart.distinct place place' inode hold hold'

/-- What the file system answers when it is asked for a path. -/
structure Answers (resolve : Path → Location) (store : FileStore Location) (held : Location → Prop) :
    Prop where
  isFile : ∀ path, isFile resolve store path = .ok true ↔ held (resolve path)
  exists' : ∀ path, exists' resolve store path = true ↔
    held (resolve path) ∨ isDirectory resolve store path = .ok true

end Cadence.FileIsolation
