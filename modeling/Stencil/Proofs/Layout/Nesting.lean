import Stencil.Proofs.Layout.Refusal

namespace Stencil.Layout

open Outline (Rooted Registered Coherent ofMarkers)

/-!
# Repetitions of a laid out document are nested

A repetition reaches from the marker that opens it to the marker that closes it.  In
a document that is not refused any two of them are apart or one lies in the other, as
their dimensions do, and a value that is not left out stands in all repetitions
around its scope.
-/

variable {outline : Outline} {occurrence : Occurrence} {sweep after : Sweep}
  {markers : List Marker}

/-- The points at which a repetition is opened and closed. -/
def span? (outline : Outline) (id : ScopeId) : Option (Nat × Nat) :=
  outline.scopes[id]?.bind fun scope => scope.closing?.map fun closing =>
    (scope.opened.point, closing.point)

/-- One repetition begins no later and ends no earlier than another. -/
def Covers (outer inner : Nat × Nat) : Prop := outer.1 ≤ inner.1 ∧ inner.2 ≤ outer.2

/-- Two repetitions have no marker in common unless one covers the other. -/
def Apart (outline : Outline) : Prop :=
  ∀ left right first second, left ≠ right → span? outline left = some first →
    span? outline right = some second →
      first.2 < second.1 ∨ second.2 < first.1 ∨ Covers first second ∨ Covers second first

/-- Repetitions that are nested like their dimensions, and values within them. -/
structure WellNested (outline : Outline) (layout : Layout) : Prop where
  overlap : ∀ left right first second, left ≠ right → span? outline left = some first →
    span? outline right = some second →
      first.2 ≤ second.1 ∨ second.2 ≤ first.1 ∨ Covers first second ∨ Covers second first
  inside : ∀ outer inner first second, outer ≠ inner → span? outline outer = some first →
    span? outline inner = some second →
      (Covers first second ↔ outer ∈ outline.ancestry inner ∨
        first = second ∧ inner ∈ outline.ancestry outer)
  values : ∀ (id : Nat) slot, outline.slots[id]? = some slot → layout.omits id = false →
    ∀ around span, around ∈ outline.ancestry slot.scope → span? outline around = some span →
      span.1 ≤ slot.place.point ∧ slot.place.point < span.2

/-! ## Spans -/

theorem span?_eq_some {id : ScopeId} {span : Nat × Nat} : span? outline id = some span ↔
    ∃ scope closing, outline.scopes[id]? = some scope ∧ scope.closing? = some closing ∧
      span = (scope.opened.point, closing.point) := by
  unfold span?
  simp only [Option.bind_eq_some_iff, Option.map_eq_some_iff]
  constructor
  · rintro ⟨scope, found, closing, ended, same⟩
    exact ⟨scope, closing, found, ended, same.symm⟩
  · rintro ⟨scope, closing, found, ended, same⟩
    exact ⟨scope, found, closing, ended, same.symm⟩

theorem openBehind_iff {id : ScopeId} {span : Nat × Nat} (spans : span? outline id = some span)
    (point : Nat) : OpenBehind outline point id ↔ span.1 ≤ point ∧ point < span.2 := by
  rcases span?_eq_some.mp spans with ⟨scope, closing, found, ended, rfl⟩
  constructor
  · rintro ⟨other, place, foundOther, endedOther, begun, going⟩
    rw [found] at foundOther
    cases foundOther
    rw [ended] at endedOther
    cases endedOther
    exact ⟨begun, going⟩
  · rintro ⟨begun, going⟩
    exact ⟨scope, closing, found, ended, begun, going⟩

/-- A repetition is opened before it is closed, both at markers. -/
theorem span?_bounds (registered : Registered markers outline) {id : ScopeId} {span : Nat × Nat}
    (spans : span? outline id = some span) :
    span.1 < span.2 ∧ span.2 ≤ outline.occurrences.size := by
  rcases span?_eq_some.mp spans with ⟨scope, closing, found, ended, rfl⟩
  have there := Outline.closingOf_eq found
  rw [ended] at there
  refine ⟨registered.order id scope closing found there, ?_⟩
  rcases (registered.closing id closing).mp there with ⟨index, occurrence, listed, -, rfl⟩
  exact (Array.getElem?_eq_some_iff.mp listed).1

theorem hasEnd_of_span? {id : ScopeId} {span : Nat × Nat} (spans : span? outline id = some span) :
    outline.scopeIs Scope.hasEnd id = true := by
  rcases span?_eq_some.mp spans with ⟨scope, closing, found, ended, -⟩
  rw [Outline.scopeIs_eq found, Scope.hasEnd, ended]
  rfl

/-- No repetition begins at the marker that ends another. -/
theorem span?_apart (registered : Registered markers outline) (orderly : Orderly outline)
    {left right : ScopeId} {first second : Nat × Nat} (spans : span? outline left = some first)
    (otherSpans : span? outline right = some second) : first.2 ≠ second.1 := by
  intro touch
  rcases span?_eq_some.mp spans with ⟨scope, closing, found, ended, rfl⟩
  rcases span?_eq_some.mp otherSpans with ⟨other, place, foundOther, endedOther, rfl⟩
  have there := Outline.closingOf_eq found
  rw [ended] at there
  rcases (registered.closing left closing).mp there with ⟨index, occurrence, listed, closes, rfl⟩
  have opens := (registered.mem_opens_iff listed foundOther
    (Outline.isArray_of_closing? endedOther)).mpr touch.symm
  have member : occurrence ∈ outline.occurrences.toList :=
    Array.mem_toList_iff.mpr (Array.mem_of_getElem? listed)
  have none := (orderly.ends occurrence member (List.ne_nil_of_mem closes)).1
  rw [none] at opens
  cases opens

/-! ## Repetitions that are read together -/

namespace Sweep

/-- The repetitions around one that is being read are being read. -/
theorem Nested.around {reading : List ScopeId} (nested : Nested outline reading)
    {inner outer : ScopeId} (member : inner ∈ reading) (around : outer ∈ outline.ancestry inner)
    (ends : outline.scopeIs Scope.hasEnd outer = true) : outer ∈ reading := by
  rcases List.append_of_mem member with ⟨front, back, rfl⟩
  have own := nested front inner ⟨back, by simp⟩
  have listed : outer ∈ outline.repetitionsAround inner := List.mem_filter.mpr ⟨around, ends⟩
  rw [← own] at listed
  rcases List.mem_append.mp listed with before | same
  · exact List.mem_append_left _ before
  · rw [List.mem_singleton.mp same]
    exact member

/-- Of two repetitions being read one lies in the other. -/
theorem Nested.comparable {reading : List ScopeId} (nested : Nested outline reading)
    {left right : ScopeId} (first : left ∈ reading) (second : right ∈ reading)
    (differ : left ≠ right) : left ∈ outline.ancestry right ∨ right ∈ outline.ancestry left := by
  have earlier : ∀ (front back : List ScopeId) (last other : ScopeId),
      reading = front ++ last :: back → other ∈ front → other ∈ outline.ancestry last := by
    intro front back last other split member
    have own := nested front last ⟨back, by simp [split]⟩
    have listed := List.mem_append_left [last] member
    rw [own] at listed
    exact (List.mem_filter.mp listed).1
  rcases List.append_of_mem first with ⟨front, back, split⟩
  rw [split] at second
  rcases List.mem_append.mp second with before | behind
  · exact .inr (earlier front back left right split before)
  · rcases List.mem_cons.mp behind with same | later
    · exact absurd same.symm differ
    · rcases List.append_of_mem later with ⟨between, rest, further⟩
      refine .inl (earlier (front ++ left :: between) rest right left ?_ (by simp))
      rw [split, further]
      simp

/-- At every point of a document that is read, the repetitions open there are nested. -/
theorem exists_reading (rooted : Rooted outline) (registered : Registered markers outline)
    (swept : outline.occurrences.toList.foldlM (pass outline) start = .ok sweep) {point : Nat}
    (within : point ≤ outline.occurrences.size) :
    ∃ reading, Nested outline reading ∧ ∀ id, id ∈ reading ↔ OpenBehind outline point id := by
  rw [← List.take_append_drop point outline.occurrences.toList] at swept
  rcases foldlM_append_eq_ok.mp swept with ⟨there, ran, -⟩
  have reads := reads_of_run rooted registered (List.take_prefix _ _) ran
  rw [List.length_take, Array.length_toList, Nat.min_eq_left within] at reads
  exact ⟨there.reading, reads.nested, reads.reading⟩

/-! ## Values -/

/-- A host is found only where the repetitions around a scope are being read. -/
theorem mem_of_hostOf? {chain bounded reading : List ScopeId} {host : Option ScopeId}
    (within : bounded ⊆ chain) (hosted : hostOf? chain bounded reading = some host) :
    bounded ⊆ reading := by
  unfold hostOf? at hosted
  split at hosted
  · next same =>
    rw [same]
    exact List.Subset.refl _
  · split at hosted
    · next shorter =>
      intro id member
      have listed := within member
      rw [shorter.2] at listed
      exact List.mem_of_mem_take listed
    · cases hosted

theorem repetitionsAround_subset (outline : Outline) (id : ScopeId) :
    outline.repetitionsAround id ⊆ outline.dimensionsAround id := by
  intro other member
  rcases List.mem_filter.mp member with ⟨around, ends⟩
  refine List.mem_filter.mpr ⟨around, ?_⟩
  rcases Outline.scopeIs_eq_true.mp ends with ⟨scope, found, closed⟩
  rcases Option.isSome_iff_exists.mp closed with ⟨closing, ended⟩
  rw [Outline.scopeIs_eq found, Outline.isArray_of_closing? ended]

/-- The slots with hosts stand in the repetitions around their scopes. -/
def Housed (outline : Outline) (sweep : Sweep) : Prop :=
  ∀ id host, (id, host) ∈ sweep.plan.hosts → ∀ slot, outline.slots[id]? = some slot →
    ∀ around ∈ outline.repetitionsAround slot.scope, OpenBehind outline slot.place.point around

/-- A marker gives a host to its own slot only. -/
theorem hosts_of_pass (run : pass outline sweep occurrence = .ok after) :
    ∀ id host, (id, host) ∈ after.plan.hosts → (id, host) ∈ sweep.plan.hosts ∨
      occurrence.slot = some id ∧ ∃ slot, outline.slots[id]? = some slot ∧
        hostOf? (outline.dimensionsAround slot.scope) (outline.repetitionsAround slot.scope)
          after.reading = some host := by
  by_cases skips : sweep.Skips occurrence.offset
  · rw [pass_of_skips skips] at run
    rcases skip_eq_ok.mp run with ⟨-, -, rfl⟩
    intro id host listed
    refine .inl ?_
    unfold passed at listed
    split at listed <;> exact listed
  · rw [pass_of_not_skips skips] at run
    rcases read_eq_ok.mp run with ⟨closed, opened, first, second, third⟩
    have ends : closed.plan.hosts = sweep.plan.hosts := by
      refine foldlM_induction (motive := fun state => state.plan.hosts = sweep.plan.hosts)
        (fun before scope after _ same run => ?_) rfl first
      rcases close_eq_ok.mp run with ⟨row, rest, -, -, rfl⟩
      exact same
    have starts : opened.plan.hosts = sweep.plan.hosts := by
      refine foldlM_induction (motive := fun state => state.plan.hosts = sweep.plan.hosts)
        (fun before id after _ same run => ?_) ends second
      rcases openRow_eq_ok.mp run with ⟨scope, -, -, -, rfl⟩
      exact same
    cases itsSlot : occurrence.slot with
    | none =>
      rw [itsSlot] at third
      cases foldlM_nil_eq_ok.mp third
      intro id host listed
      rw [starts] at listed
      exact .inl listed
    | some own =>
      rw [itsSlot] at third
      rcases foldlM_cons_eq_ok.mp third with ⟨between, inserts, done⟩
      cases foldlM_nil_eq_ok.mp done
      rcases insert_eq_ok.mp inserts with ⟨slot, host, found, hosted, -, rfl⟩
      intro id other listed
      rcases List.mem_cons.mp listed with new | old
      · cases new
        refine .inr ⟨rfl, slot, found, ?_⟩
        rw [reading_inserted]
        exact hosted
      · have known : (id, other) ∈ opened.plan.hosts := old
        rw [starts] at known
        exact .inl known

theorem housed_of_run (rooted : Rooted outline) (registered : Registered markers outline)
    (swept : outline.occurrences.toList.foldlM (pass outline) start = .ok sweep) :
    Housed outline sweep := by
  refine foldlM_induction_along (motive := fun _ sweep => Housed outline sweep)
    (fun taken occurrence before after within ran housed run => ?_)
    (fun _ _ impossible => by cases impossible) swept
  intro id host listed slot found around member
  rcases hosts_of_pass run id host listed with old | ⟨itsSlot, own, foundOwn, hosted⟩
  · exact housed id host old slot found around member
  · have here := getElem?_of_isPrefix within
    rcases registered.placed taken.length occurrence id here itsSlot with
      ⟨placed, foundPlaced, place, -⟩
    rw [found] at foundOwn foundPlaced
    cases foundOwn
    cases foundPlaced
    have ranOn : (taken ++ [occurrence]).foldlM (pass outline) start = .ok after :=
      foldlM_concat_eq_ok.mpr ⟨before, ran, run⟩
    have reads := reads_of_run rooted registered within ranOn
    rw [List.length_append] at reads
    rw [place]
    exact (reads.reading around).mp
      (mem_of_hostOf? (repetitionsAround_subset outline slot.scope) hosted member)

end Sweep

/-! ## Documents -/

/-- A layout leaves out the slots that a plan dropped. -/
theorem omits_ofPlan (outline : Outline) (plan : Plan) (cs : List Char) {id : SlotId}
    (bound : id < outline.slots.size) :
    (ofPlan outline plan cs).omits id = plan.dropped.contains id := by
  simp [omits, ofPlan, slotText, bound]

theorem host_ofPlan (outline : Outline) (plan : Plan) (cs : List Char) {id : SlotId}
    (bound : id < outline.slots.size) :
    (ofPlan outline plan cs).host outline id = plan.host id := by
  simp [host, ofPlan, slotText, bound]

/-- A repetition around another covers it. -/
theorem covers_of_mem_ancestry (rooted : Rooted outline) (registered : Registered markers outline)
    (swept : outline.occurrences.toList.foldlM (Sweep.pass outline) Sweep.start = .ok sweep)
    {outer inner : ScopeId} {first second : Nat × Nat} (spans : span? outline outer = some first)
    (otherSpans : span? outline inner = some second) (around : outer ∈ outline.ancestry inner) :
    Covers first second := by
  have bounds := span?_bounds registered otherSpans
  -- While the inner one is open, so is the outer one.
  have together : ∀ point, second.1 ≤ point → point < second.2 → first.1 ≤ point ∧ point < first.2 := by
    intro point begun going
    rcases Sweep.exists_reading rooted registered swept (Nat.le_of_lt (going.trans_le bounds.2)) with
      ⟨reading, nested, member⟩
    have inside := (member inner).mpr ((openBehind_iff otherSpans point).mpr ⟨begun, going⟩)
    have outside := nested.around inside around (hasEnd_of_span? spans)
    exact (openBehind_iff spans point).mp ((member outer).mp outside)
  have atStart := together second.1 (Nat.le_refl _) bounds.1
  have atEnd := together (second.2 - 1) (Nat.le_sub_one_of_lt bounds.1) (by omega)
  exact ⟨atStart.1, by omega⟩

/-- Of two repetitions that overlap one lies in the other. -/
theorem comparable_of_overlap (rooted : Rooted outline) (registered : Registered markers outline)
    (swept : outline.occurrences.toList.foldlM (Sweep.pass outline) Sweep.start = .ok sweep)
    {left right : ScopeId} {first second : Nat × Nat} (differ : left ≠ right)
    (spans : span? outline left = some first) (otherSpans : span? outline right = some second)
    (before : first.1 < second.2) (behind : second.1 < first.2) :
    left ∈ outline.ancestry right ∨ right ∈ outline.ancestry left := by
  have bounds := span?_bounds registered spans
  have otherBounds := span?_bounds registered otherSpans
  have within : max first.1 second.1 ≤ outline.occurrences.size := by omega
  rcases Sweep.exists_reading rooted registered swept within with ⟨reading, nested, member⟩
  apply nested.comparable _ _ differ
  · rw [member, openBehind_iff spans]
    omega
  · rw [member, openBehind_iff otherSpans]
    omega

theorem wellNested_of_registered (coherent : Coherent outline)
    (registered : Registered markers outline) {text : String} {layout : Layout}
    (laid : ofText outline text = .ok layout) : WellNested outline layout := by
  have rooted := coherent.rooted
  rcases ofText_eq_ok.mp laid with ⟨-, plan, made, rfl⟩
  have placed := (placed_of_make coherent made).2
  rcases bind_eq_ok.mp made with ⟨sweep, swept, finished⟩
  rcases finish_eq_ok.mp finished with ⟨-, -, rfl⟩
  constructor
  · intro left right first second differ spans otherSpans
    have bounds := span?_bounds registered spans
    have otherBounds := span?_bounds registered otherSpans
    by_cases overlap : first.1 < second.2 ∧ second.1 < first.2
    · rcases comparable_of_overlap rooted registered swept differ spans otherSpans overlap.1
        overlap.2 with around | around
      · exact .inr (.inr (.inl
          (covers_of_mem_ancestry rooted registered swept spans otherSpans around)))
      · exact .inr (.inr (.inr
          (covers_of_mem_ancestry rooted registered swept otherSpans spans around)))
    · omega
  · intro outer inner first second differ spans otherSpans
    have otherBounds := span?_bounds registered otherSpans
    constructor
    · intro covers
      have overlap : first.1 < second.2 ∧ second.1 < first.2 := by
        rcases covers with ⟨starts, stops⟩
        omega
      rcases comparable_of_overlap rooted registered swept differ spans otherSpans overlap.1
        overlap.2 with around | around
      · exact .inl around
      · have back := covers_of_mem_ancestry rooted registered swept otherSpans spans around
        refine .inr ⟨?_, around⟩
        exact Prod.ext (Nat.le_antisymm covers.1 back.1) (Nat.le_antisymm back.2 covers.2)
    · rintro (around | ⟨same, -⟩)
      · exact covers_of_mem_ancestry rooted registered swept spans otherSpans around
      · rw [same]
        exact ⟨Nat.le_refl _, Nat.le_refl _⟩
  · intro id slot found kept around span member spans
    have bound := (Array.getElem?_eq_some_iff.mp found).1
    have hosted : ∃ host, (id, host) ∈ sweep.plan.hosts := by
      rcases placed id bound with dropped | hosted
      · rw [omits_ofPlan outline _ _ bound, List.contains_iff_mem.mpr dropped] at kept
        cases kept
      · exact hosted
    rcases hosted with ⟨host, listed⟩
    have listedAround : around ∈ outline.repetitionsAround slot.scope :=
      List.mem_filter.mpr ⟨member, hasEnd_of_span? spans⟩
    exact (openBehind_iff spans _).mp (Sweep.housed_of_run rooted registered swept id host listed
      slot found around listedAround)

theorem apart_of_wellNested (registered : Registered markers outline) (orderly : Orderly outline)
    {layout : Layout} (nested : WellNested outline layout) : Apart outline := by
  intro left right first second differ spans otherSpans
  have noTouch := span?_apart registered orderly spans otherSpans
  have noTouchBack := span?_apart registered orderly otherSpans spans
  rcases nested.overlap left right first second differ spans otherSpans with before | behind | covers
  · exact .inl (Nat.lt_of_le_of_ne before noTouch)
  · exact .inr (.inl (Nat.lt_of_le_of_ne behind noTouchBack))
  · exact .inr (.inr covers)

/-- Every document that is laid out is nested.  If its conditions are plain, no marker
ends one repetition and begins another, and a document whose markers stand within the
text is refused for its nesting only. -/
theorem ofText_nested {policy : Unterminated} (accepted : ofMarkers markers policy = .ok outline)
    (text : String) :
    (∀ layout, ofText outline text = .ok layout → WellNested outline layout ∧
        (Outline.PlainMarkers markers → Apart outline)) ∧
      ∀ error, Outline.PlainMarkers markers → Fits outline text →
        ofText outline text = .error error → Refusal error := by
  have coherent := Outline.coherent_of_ofMarkers accepted
  rcases Outline.ofMarkers_eq_ok accepted with ⟨growth, grown, rfl⟩
  have registered := Outline.registered_of_growth grown
  constructor
  · intro layout laid
    have nested := wellNested_of_registered coherent registered laid
    exact ⟨nested, fun plain =>
      apart_of_wellNested registered (orderly_of_growth plain.ordered grown) nested⟩
  · intro error plain fits refused
    have ends : Outline.EndsAt (· ≤ Text.byteSize text.toList) growth.outline :=
      endsAt_of_fits grown fun occurrence listed =>
        (offsetFault?_eq_none.mp (fits occurrence listed)).1
    exact refusal_of_ofText (orderly_of_growth plain.ordered grown) registered ends fits refused

/-- Two repetitions beside each other in a third, and a value behind them. -/
def yardSource : Source :=
  ⟨"<0,1;2 3,4><5>6", [⟨1, "d.rows[r].a[i].n"⟩, ⟨3, "d.rows[r].a[i+1].n"⟩,
    ⟨5, "d.rows[r].b[j].n"⟩, ⟨7, "d.rows[r].b[j+1].n"⟩, ⟨11, "d.rows[r+1].n"⟩, ⟨14, "d.n"⟩]⟩

theorem ofText_nested_yard : ∃ outline layout,
    ofMarkers yardSource.markers .strict = .ok outline ∧
      Outline.PlainMarkers yardSource.markers ∧ ofText outline yardSource.text = .ok layout ∧
      WellNested outline layout ∧ Apart outline := by
  have plain : Outline.PlainMarkers yardSource.markers := by decide +kernel
  have laysOut : (ofMarkers yardSource.markers .strict >>= fun outline =>
      ofText outline yardSource.text).isOk = true := by decide +kernel
  rcases exists_of_isOk laysOut with ⟨layout, laid⟩
  rcases bind_eq_ok.mp laid with ⟨outline, accepted, laid⟩
  rcases (ofText_nested accepted yardSource.text).1 layout laid with ⟨nested, apart⟩
  exact ⟨outline, layout, accepted, plain, laid, nested, apart plain⟩

/-! ### Two documents that are nested otherwise -/

/-- Two dimensions that are opened by one marker and closed by another. -/
def twinMarkers : List Marker := [⟨0, "d.m[i][j].v"⟩, ⟨5, "d.m[i+1][j+1].v"⟩]

/-- A marker that is taken to close one repetition and opens another, since one search
looks like two attributes. -/
def crossedMarkers : List Marker :=
  [⟨0, "d.x[a=\"q'].y[].w[b='c\"].z[i].v"⟩, ⟨5, "d.x[a='q'].y[k].w[b='c'].z[i+1].v"⟩,
    ⟨9, "d.x[a='q'].y[k+1].v"⟩]

/-- Two repetitions of a document that is laid out, and whether the first lies around the
second or the second around the first. -/
def spansOf (markers : List Marker) (left right : ScopeId) :
    Option (Option (Nat × Nat) × Option (Nat × Nat) × Bool × Bool) :=
  (ofMarkers markers .permissive).toOption.bind fun outline =>
    (ofText outline "0123456789").toOption.map fun _ =>
      (span? outline left, span? outline right, (outline.ancestry right).contains left,
        (outline.ancestry left).contains right)

theorem exists_of_spansOf {left right : ScopeId} {first second : Option (Nat × Nat)}
    {around within : Bool} (shown : spansOf markers left right = some (first, second, around, within)) :
    ∃ outline layout, ofMarkers markers .permissive = .ok outline ∧
      ofText outline "0123456789" = .ok layout ∧ span? outline left = first ∧
      span? outline right = second ∧ (outline.ancestry right).contains left = around ∧
      (outline.ancestry left).contains right = within := by
  unfold spansOf at shown
  cases accepted : ofMarkers markers .permissive with
  | error fault =>
    rw [accepted] at shown
    cases shown
  | ok outline =>
    rw [accepted] at shown
    cases laid : ofText outline "0123456789" with
    | error fault =>
      simp only [Except.toOption, Option.bind_some, laid] at shown
      cases shown
    | ok layout =>
      simp only [Except.toOption, Option.bind_some, laid, Option.map_some, Option.some.injEq,
        Prod.mk.injEq] at shown
      exact ⟨outline, layout, rfl, laid, shown.1, shown.2.1, shown.2.2.1, shown.2.2.2⟩

/-- Spans alone do not tell which of two repetitions lies in the other, and with searches
that are mistaken for attributes they need not be nested at all. -/
theorem spans_unlike_dimensions :
    (∃ outline layout, ofMarkers twinMarkers .permissive = .ok outline ∧
      ofText outline "0123456789" = .ok layout ∧
      ¬ ∀ outer inner first second, outer ≠ inner → span? outline outer = some first →
        span? outline inner = some second →
          (Covers first second ↔ outer ∈ outline.ancestry inner)) ∧
    ∃ outline layout, ofMarkers crossedMarkers .permissive = .ok outline ∧
      ofText outline "0123456789" = .ok layout ∧ ¬ Apart outline := by
  have twins : spansOf twinMarkers 2 1 = some (some (1, 2), some (1, 2), false, true) := by
    decide +kernel
  have crossed : spansOf crossedMarkers 2 4 = some (some (1, 2), some (2, 3), false, false) := by
    decide +kernel
  constructor
  · rcases exists_of_spansOf twins with ⟨outline, layout, accepted, laid, first, second, none, -⟩
    refine ⟨outline, layout, accepted, laid, fun alike => ?_⟩
    have around := (alike 2 1 _ _ (by decide) first second).mp ⟨Nat.le_refl _, Nat.le_refl _⟩
    rw [List.contains_iff_mem.mpr around] at none
    cases none
  · rcases exists_of_spansOf crossed with ⟨outline, layout, accepted, laid, first, second, -, -⟩
    refine ⟨outline, layout, accepted, laid, fun apart => ?_⟩
    have impossible := apart 2 4 _ _ (by decide) first second
    unfold Covers at impossible
    omega

end Stencil.Layout
