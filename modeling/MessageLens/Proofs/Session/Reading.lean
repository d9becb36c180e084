import MessageLens.Proofs.File.Writes
import MessageLens.Proofs.Operation
import MessageLens.Session.Project

/-!
# What reading files depends on

Reading the settings and the messages of a project looks at the options, the files and what is known
of the project, and setting up watches looks at the watches besides. So what becomes of these is the
same in sessions that differ in anything else, such as the order in which buffers are attached, or
what has been watched before.
-/

namespace MessageLens.Session
set_option autoImplicit false

open Operation

variable {τ : Type} {s t : Session τ}

/-- Two sessions have the same options and see the same files. -/
structure SameFiles (s t : Session τ) : Prop where
  options : t.options = s.options
  workspace : t.workspace = s.workspace.written t.workspace.writes

namespace SameFiles

theorem stamp? (same : SameFiles s t) : t.workspace.stamp? = s.workspace.stamp? := by
  rw [same.workspace, Workspace.stamp?_written]

theorem isFile (same : SameFiles s t) : t.workspace.isFile = s.workspace.isFile := by
  rw [same.workspace, Workspace.isFile_written]

theorem loadMessages (same : SameFiles s t) :
    loadMessages t.workspace = loadMessages s.workspace := by
  rw [same.workspace, loadMessages_written]

theorem loadSettings (same : SameFiles s t) (root : Path) :
    loadSettings t.workspace root t.options.marker =
      loadSettings s.workspace root s.options.marker := by
  rw [same.options, same.workspace, loadSettings_written]

end SameFiles

/-- Besides, they know the same of their project. -/
structure SameProject (s t : Session τ) : Prop extends SameFiles s t where
  project : t.project = s.project

/-! ## Relations that reading respects -/

/-- A relation between sessions that reading the project cannot tell apart. -/
structure Unseen (R : Session τ → Session τ → Prop) : Prop where
  same : ∀ ⦃s t⦄, R s t → SameProject s t
  emit : ∀ e, Respects R (Session.emit e : SessionOperation τ Unit)
  project : ∀ f, Respects R (projectPart.change f : SessionOperation τ Unit)

/-- Setting up watches cannot tell them apart either. -/
structure UnseenByWatches (R : Session τ → Session τ → Prop) : Prop extends Unseen R where
  clear : Respects R (watcherPart.change (·.clear) : SessionOperation τ Unit)
  watch : ∀ p callback, Respects R (Session.watch p callback : SessionOperation τ Unit)

theorem attempt_respects {R : Session τ → Session τ → Prop} {ε α : Type}
    (cause : ε → SessionFailure) (x : Except ε α) :
    Respects R (attempt cause x : SessionOperation τ α) := by
  cases x with
  | ok a => exact Respects.pure a
  | error e => exact Respects.throw (cause e)

namespace Unseen

variable {R : Session τ → Session τ → Prop}

theorem read (unseen : Unseen R) :
    Respects R (projectPart.read : SessionOperation τ ProjectState) :=
  Respects.read fun _ _ related => (unseen.same related).project.symm

theorem loadLocale (unseen : Unseen R) (locale : String) :
    Respects R (Session.loadLocale locale : SessionOperation τ Unit) := by
  refine Respects.get_bind (fun s t related => ?_) fun s => ?_
  · have same := unseen.same related
    rw [same.project, same.loadMessages]
  · cases s.project.root with
    | none => exact Respects.throw _
    | some root =>
      cases s.project.settings with
      | none => exact Respects.throw _
      | some settings =>
        exact Respects.bind (attempt_respects _ _) fun _ =>
          (Respects.forM (fun _ => unseen.emit _) _).bind fun _ => unseen.project _

theorem loadAllLocales (unseen : Unseen R) :
    Respects R (Session.loadAllLocales : SessionOperation τ Unit) :=
  unseen.read.bind fun _ => Respects.ite (Respects.forM unseen.loadLocale _) (Respects.pure ())

theorem readSettings (unseen : Unseen R) (root : Path) :
    Respects R (Session.readSettings root : SessionOperation τ (Option ProjectSettings)) := by
  refine Respects.get_bind (fun s t related => ?_) fun s => ?_
  · rw [(unseen.same related).loadSettings]
  · refine (attempt_respects _ _).bind fun r => ?_
    cases r with
    | ok settings => exact Respects.pure _
    | error record => exact (unseen.emit _).bind fun _ => Respects.pure _

end Unseen

namespace UnseenByWatches

variable {R : Session τ → Session τ → Prop}

theorem watchSettingsFile (unseen : UnseenByWatches R) :
    Respects R (Session.watchSettingsFile : SessionOperation τ Unit) := by
  refine unseen.clear.bind fun _ => Respects.get_bind (fun s t related => ?_) fun s => ?_
  · have same := unseen.same related
    rw [same.project, same.options]
  · cases s.project.root with
    | none => exact Respects.pure ()
    | some root => exact unseen.watch _ _

theorem watchLocale (unseen : UnseenByWatches R) (root : Path) (settings : ProjectSettings)
    (locale : String) :
    Respects R (Session.watchLocale root settings locale : SessionOperation τ Unit) := by
  refine Respects.get_bind (fun s t related => ?_) fun s => ?_
  · rw [(unseen.same related).isFile]
  · exact (attempt_respects _ _).bind fun _ =>
      Respects.ite (unseen.watch _ _) (Respects.pure ())

theorem setUpWatches (unseen : UnseenByWatches R) :
    Respects R (Session.setUpWatches : SessionOperation τ Unit) := by
  refine unseen.watchSettingsFile.bind fun _ => unseen.read.bind fun p => ?_
  split
  · exact Respects.forM (unseen.watchLocale _ _) _
  · exact Respects.pure ()

theorem applySettings (unseen : UnseenByWatches R) (settings : ProjectSettings) :
    Respects R (Session.applySettings settings : SessionOperation τ Unit) :=
  (unseen.project _).bind fun _ => unseen.loadAllLocales.bind fun _ => unseen.setUpWatches

end UnseenByWatches

end MessageLens.Session
