import Stencil.Layout
import Stencil.Outline.Growth
import Stencil.Program.Compile
import Stencil.Program.Machine

namespace Stencil

/-!
# Templates

From a document with markers to a rendered text: the markers make an outline, the
document is laid out around them, both are compiled, and the program is run on a
payload.  Markers can also be compiled without a document.
-/

/-- A compiled document with what it was compiled from. -/
structure Template where
  outline : Outline
  order : List ScopeId
  layout : Layout
  program : Program

namespace Template

/-- Compile a document. -/
def compile (source : Source) (settings : Settings) : Except Error Template := do
  let outline ← Outline.ofMarkers source.markers settings.unterminated
  let layout ← Layout.ofText outline source.text
  let program ← Program.compile outline outline.order layout settings
  .ok ⟨outline, outline.order, layout, program⟩

/-- Compile a document whose formatters have to exist in a registry. -/
def compileChecked (source : Source) (settings : Settings) (registry : Registry) :
    Except Error Template := do
  let template ← compile source settings
  template.program.check registry
  .ok template

/-- The fragments of one rendering. -/
def fragments (template : Template) (data : Value) (registry : Registry) :
    Except Error (List Fragment) :=
  template.program.run data registry

/-- Render a template on a payload. -/
def render (template : Template) (data : Value) (registry : Registry) : Except Error String :=
  (template.fragments data registry).map Fragment.documentText

end Template

/-- Compile markers with text around them only. -/
def compileMarkers (markers : List Marker) (before after : String) (settings : Settings) :
    Except Error Program := do
  let outline ← Outline.ofMarkers markers settings.unterminated
  Program.compile outline outline.order (Layout.surrounding before after) settings

end Stencil
