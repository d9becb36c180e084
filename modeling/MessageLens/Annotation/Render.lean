import MessageLens.Annotation.Basic
import MessageLens.Journal
import MessageLens.Text.Quoted

/-!
# Drawing annotations

A surface draws annotations in a namespace of a buffer and may refuse one where it is asked for.
Rendering replaces what the namespace holds: each annotation is drawn inline, or at the end of its
line when that is refused, or dropped with a log record when that is refused too.
-/

namespace MessageLens
set_option autoImplicit false

variable {σ : Type}

/-- What a surface answers when it is asked to draw an annotation. -/
inductive Drawing (σ : Type) where
  | drawn (s : σ)
  | refused (s : σ) (reason : String)
  /-- The annotation names a line that cannot even be looked up. -/
  | failed (s : σ)

/-- What rendering needs of a surface with states `σ`, for one namespace of one buffer. -/
structure Surface (σ : Type) where
  /-- Empties the namespace. -/
  clear : σ → σ
  /-- Draws an annotation where it asks to be. -/
  place : σ → Annotation → Drawing σ

/-- The outcome of rendering: the state reached, the number of annotations drawn, the log records,
and whether it ended early. -/
structure Rendering (σ : Type) where
  state : σ
  placed : Nat := 0
  records : List LogRecord := []
  failed : Bool := false

/-- The log record of an annotation that was refused twice. -/
def droppedRecord (a : Annotation) (reason : String) : LogRecord :=
  ⟨.debug, "render.annotations",
    "Dropped annotation for " ++ quoted a.key ++ " at line " ++ toString a.line ++ ": " ++ reason⟩

namespace Surface

/-- Draws one annotation inline or at the end of its line. -/
def draw (surface : Surface σ) (s : σ) (a : Annotation) : Drawing σ :=
  match surface.place s a with
  | .refused s _ => surface.place s a.atEndOfLine
  | answer => answer

/-- Draws annotations in turn. -/
def drawAll (surface : Surface σ) (s : σ) : List Annotation → Rendering σ
  | [] => { state := s }
  | a :: rest =>
    match surface.draw s a with
    | .drawn s =>
      let r := surface.drawAll s rest
      { r with placed := r.placed + 1 }
    | .refused s reason =>
      let r := surface.drawAll s rest
      { r with records := droppedRecord a reason :: r.records }
    | .failed s => { state := s, failed := true }

/-- Replaces the contents of the namespace by `annotations`. -/
def render (surface : Surface σ) (s : σ) (annotations : List Annotation) : Rendering σ :=
  surface.drawAll (surface.clear s) annotations

end Surface

end MessageLens
