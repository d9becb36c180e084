import MessageLens.Annotation.Resolve
import MessageLens.Reference.Scan
import MessageLens.Session.State

/-!
# Drawing the previews of a session

The annotations of a buffer are those of the references in its text, resolved in the displayed
locale. They replace what the session has drawn in the buffer before.
-/

namespace MessageLens.Session
set_option autoImplicit false

variable {τ : Type}

/-- The annotations of a text under the options and the project of a session. -/
def annotationsOfText (s : Session τ) (text : String) : List Annotation :=
  resolveReferences s.options.virtualText s.project.currentMessages s.project.messages
    s.project.locales (findReferences s.options.receiver text)

/-- The annotations of a buffer, not drawn. -/
def annotationsFor (id : Handle) : SessionOperation τ (List Annotation) := do
  let b ← buffer id
  return (← get).annotationsOfText b.text

/-- Empties the namespace of the session in a buffer. -/
def clearBuffer (id : Handle) : SessionOperation τ Unit := do
  emit (.cleared id)
  let layer := (← get).layer
  hostPart.change (·.clearLayer id layer)

/-- Draws annotations in a buffer in place of what the namespace of the session held; the number
drawn. -/
def render (id : Handle) (annotations : List Annotation) : SessionOperation τ Nat := do
  emit (.cleared id)
  let s ← get
  let r := (Host.surface id s.layer).render s.host annotations
  hostPart.change fun _ => r.state
  r.records.forM fun record => emit (.logged record)
  if r.failed then throw .noSuchLine
  return r.placed

/-- Brings the annotations of a buffer up to date, if the session is enabled and the buffer open. -/
def updateBuffer (id : Handle) : SessionOperation τ Unit := do
  let s ← get
  if s.enabled && s.host.isValid id then
    if s.project.isDetected then discard (render id (← annotationsFor id))
    else clearBuffer id

/-- Brings the annotations of every attached buffer up to date. -/
def updateAll : SessionOperation τ Unit := do (← get).attached.forM updateBuffer

end MessageLens.Session
