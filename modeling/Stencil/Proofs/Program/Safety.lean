import Stencil.Proofs.Layout.Nesting
import Stencil.Proofs.Layout.Ranges
import Stencil.Proofs.Program.Failure
import Stencil.Proofs.Program.Tables

namespace Stencil

open Outline (PlainMarkers)

/-!
# Nothing stops the program

A document is rendered or refused with an error, whatever its text, its markers, the
payload and the registry are.  On the way no scope, slot, value or place of the text is
asked for that does not exist.  This takes plain conditions: where two searches are
mistaken for one, a marker can be taken to end a repetition whose rows it also begins,
and then the text up to it is asked for from a place behind it.
-/

namespace Template

/-- All that could stop the program on a document does not. -/
structure Safe (source : Source) (settings : Settings) : Prop where
  /-- A path has a last segment. -/
  paths : ∀ marker read, Outline.readMarker marker = .ok read → read.path.segments ≠ []
  /-- A walk stands at a scope, and keys lead to scopes. -/
  walks : ∀ walk, Outline.Underway (Outline.inDocumentOrder source.markers) walk →
    Outline.Walking walk
  /-- An outline names scopes it has, and asks a text it fits for places it has. -/
  outlines : ∀ outline, Outline.ofMarkers source.markers settings.unterminated = .ok outline →
    Outline.Enclosed outline ∧ (Layout.Fits outline source.text →
      Layout.Readable outline source.text)
  /-- A run finds its values and insertions. -/
  programs : ∀ template, compile source settings = .ok template → template.program.Tidy
  /-- What cannot be compiled is reported. -/
  refused : ∀ error, compile source settings = .error error → error.Reported
  /-- What cannot be rendered uses a formatter that does not exist. -/
  rendered : ∀ template, compile source settings = .ok template → ∀ data registry error,
    template.render data registry = .error error →
      ∃ name path suggestion, error = .missingFormatter name path suggestion

/-- The same of markers with text around them only. -/
structure SafeSurrounded (markers : List Marker) (settings : Settings) : Prop where
  programs : ∀ before after program, compileMarkers markers before after settings = .ok program →
    program.Tidy
  refused : ∀ before after error, compileMarkers markers before after settings = .error error →
    error.Reported
  rendered : ∀ before after program,
    compileMarkers markers before after settings = .ok program → ∀ data registry error,
      program.run data registry = .error error →
        ∃ name path suggestion, error = .missingFormatter name path suggestion

variable {source : Source} {settings : Settings} {template : Template} {error : Error}

/-- A text is laid out or refused with an error. -/
theorem reported_of_ofText {markers : List Marker} {growth : Outline.Growth}
    (plain : PlainMarkers markers)
    (grown : markers.foldlM Outline.grow Outline.Growth.start = .ok growth) {text : String}
    (run : Layout.ofText growth.outline text = .error error) : error.Reported := by
  cases error with
  | stopped start stop =>
    have fits := (Layout.asked_of_stopped run).1
    have ends : Outline.EndsAt (· ≤ Text.byteSize text.toList) growth.outline :=
      Layout.endsAt_of_fits grown fun occurrence listed =>
        (Layout.offsetFault?_eq_none.mp (fits occurrence listed)).1
    rcases Layout.refusal_of_ofText (Layout.orderly_of_growth plain grown)
      (Outline.registered_of_growth grown) ends fits run with ⟨_, _, _, _, impossible⟩
    cases impossible
  | _ => exact trivial

theorem reported_of_compile (plain : PlainMarkers source.markers)
    (run : compile source settings = .error error) : error.Reported := by
  rcases bind_eq_error.mp run with fails | ⟨outline, outlined, run⟩
  · exact Outline.reported_of_ofMarkers fails
  rcases Outline.ofMarkers_eq_ok outlined with ⟨growth, grown, rfl⟩
  rcases bind_eq_error.mp run with fails | ⟨layout, -, run⟩
  · exact reported_of_ofText plain.ordered grown fails
  rcases bind_eq_error.mp run with fails | ⟨program, -, impossible⟩
  · exact Program.reported_of_compile fails
  · cases impossible

/-- If the formatters exist, a template is rendered. -/
theorem missing_of_render (compiled : compile source settings = .ok template) {data : Value}
    {registry : Registry} (run : template.render data registry = .error error) :
    ∃ name path suggestion, error = .missingFormatter name path suggestion := by
  have fails := ((dependable_of_compile compiled).fails data registry error).mp
    (map_eq_error.mp run)
  exact Program.missing_of_check fails

theorem tidy_of_compile (compiled : compile source settings = .ok template) :
    template.program.Tidy := by
  rcases compile_eq_ok compiled with ⟨outlined, laidOut, programmed⟩
  have coherent := Outline.coherent_of_ofMarkers outlined
  exact (Program.compile_eq_ok programmed).tidy coherent
    (Program.hosted_of_ofText coherent laidOut)

theorem safeSurrounded (markers : List Marker) (settings : Settings) :
    SafeSurrounded markers settings where
  programs before after program compiled := by
    rcases compileMarkers_eq_ok compiled with ⟨outline, outlined, programmed⟩
    have coherent := Outline.coherent_of_ofMarkers outlined
    exact (Program.compile_eq_ok programmed).tidy coherent
      (Program.hosted_surrounding coherent before after)
  refused before after error run := by
    rcases bind_eq_error.mp run with fails | ⟨outline, -, fails⟩
    · exact Outline.reported_of_ofMarkers fails
    · exact Program.reported_of_compile fails
  rendered before after program compiled data registry error run := by
    exact Program.missing_of_check
      (((dependable_of_compileMarkers compiled).fails data registry error).mp run)

/-- No document with plain conditions stops the program. -/
theorem safe_of_plain (source : Source) (settings : Settings)
    (plain : PlainMarkers source.markers) :
    Safe source settings ∧ SafeSurrounded source.markers settings := by
  refine ⟨⟨?_, ?_, ?_, ?_, ?_, ?_⟩, safeSurrounded source.markers settings⟩
  · intro marker read reading
    exact Outline.segments_ne_nil (Outline.readMarker_eq_ok reading).2
  · intro walk underway
    exact underway.walking
  · intro outline outlined
    refine ⟨(Outline.coherent_of_ofMarkers outlined).enclosed, fun fits => ?_⟩
    rcases Outline.ofMarkers_eq_ok outlined with ⟨growth, grown, rfl⟩
    exact Layout.readable_of_fits plain.ordered grown fits
  · intro template compiled
    exact tidy_of_compile compiled
  · intro error run
    exact reported_of_compile plain run
  · intro template compiled data registry error run
    exact missing_of_render compiled run

/-- Whether all markers of a document stand within its text. -/
def fitsText (source : Source) (policy : Unterminated) : Bool :=
  match Outline.ofMarkers source.markers policy with
  | .ok outline =>
    (outline.occurrences.toList.findSome? (Layout.offsetFault? source.text.toList)).isNone
  | .error _ => false

theorem exists_of_fitsText {policy : Unterminated} (fits : fitsText source policy = true) :
    ∃ outline, Outline.ofMarkers source.markers policy = .ok outline ∧
      Layout.Fits outline source.text := by
  unfold fitsText at fits
  cases outlined : Outline.ofMarkers source.markers policy with
  | error fault => simp [outlined] at fits
  | ok outline =>
    simp only [outlined, Option.isNone_iff_eq_none] at fits
    exact ⟨outline, rfl, Layout.fits_of_findSome? fits⟩

theorem safe_of_plain_yard : PlainMarkers Layout.yardSource.markers ∧
    ∃ outline template,
      Outline.ofMarkers Layout.yardSource.markers .permissive = .ok outline ∧
        Layout.Fits outline Layout.yardSource.text ∧
        Layout.Readable outline Layout.yardSource.text ∧
        compile Layout.yardSource {} = .ok template ∧ template.program.Tidy := by
  have plain : PlainMarkers Layout.yardSource.markers := by decide +kernel
  have safe := (safe_of_plain Layout.yardSource {} plain).1
  rcases exists_of_fitsText (by decide +kernel : fitsText Layout.yardSource .permissive = true) with
    ⟨outline, outlined, fits⟩
  rcases exists_of_isOk (by decide +kernel : (compile Layout.yardSource {}).isOk = true) with
    ⟨template, compiled⟩
  exact ⟨plain, outline, template, outlined, fits, (safe.outlines outline outlined).2 fits, compiled,
    safe.programs template compiled⟩

/-! ### A document that stops the program -/

/-- The last marker is taken to end one repetition and begins another, since one search
looks like two attributes, and it stands before the second row of the first has ended. -/
def confusedSource : Source :=
  ⟨"0123456789", [⟨0, "d.x[a=\"q'].y[].w[b='c\"].z[i].v"⟩,
    ⟨5, "d.x[a='q'].y[k].w[b='c'].z[i+1].v"⟩, ⟨9, "d.x[a='q'].y[k].w[b='c'].z[i+1].v"⟩]⟩

/-- Whether compiling a document stops for some range of its text. -/
def stopsAt (source : Source) (start stop : Nat) : Bool :=
  match compile source {} with
  | .ok _ => false
  | .error error => error = .stopped start stop

theorem compile_of_stopsAt {start stop : Nat} (stops : stopsAt source start stop = true) :
    compile source {} = .error (.stopped start stop) := by
  unfold stopsAt at stops
  cases outcome : compile source {} with
  | ok template => simp [outcome] at stops
  | error fault =>
    rw [outcome] at stops
    rw [of_decide_eq_true stops]

/-- A document stops the program at a range that it asks of its text. -/
theorem exists_asked_of_stopped {start stop : Nat}
    (stopped : compile source settings = .error (.stopped start stop)) :
    ∃ outline, Outline.ofMarkers source.markers settings.unterminated = .ok outline ∧
      Layout.Fits outline source.text ∧
      Layout.Sweep.Asked outline (Text.byteSize source.text.toList) start stop := by
  rcases bind_eq_error.mp stopped with fails | ⟨outline, outlined, run⟩
  · exact absurd (Outline.reported_of_ofMarkers fails) id
  rcases bind_eq_error.mp run with fails | ⟨layout, -, run⟩
  · exact ⟨outline, outlined, Layout.asked_of_stopped fails⟩
  rcases bind_eq_error.mp run with fails | ⟨program, -, impossible⟩
  · exact absurd (Program.reported_of_compile fails) id
  · cases impossible

/-- Text that begins at 9 and ends at 5 is asked for. -/
theorem stopped_at_confusion :
    compile confusedSource {} = .error (.stopped 9 5) ∧ ¬ Safe confusedSource {} := by
  have stopped := compile_of_stopsAt (by decide +kernel : stopsAt confusedSource 9 5 = true)
  refine ⟨stopped, fun safe => ?_⟩
  rcases exists_asked_of_stopped stopped with ⟨outline, outlined, fits, asked⟩
  have cuts := ((safe.outlines outline outlined).2 fits).ranges 9 5 asked
  exact absurd cuts.forward (by decide)

end Template

end Stencil
