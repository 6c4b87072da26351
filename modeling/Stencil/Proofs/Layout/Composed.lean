import Stencil.Proofs.Layout.Nesting
import Stencil.Proofs.Layout.Splicing

namespace Stencil.Layout

open Outline (Rooted Registered Coherent Joins ofMarkers)

/-!
# The layout of two documents, one behind the other

The layout of both gives every repetition and every value the text and the host that it
has in the layout of its own document.  What the first document leaves behind its last
marker comes before the first text of the second; without markers in the second it
follows the document.
-/

variable {move : Relocation} {outline one two both : Outline} {plan first second all : Plan}
  {cs ds : List Char} {between : Sweep} {last role wholeRole other : Role}

/-! ## Layouts of plans -/

theorem openingText_ofPlan (outline : Outline) (plan : Plan) (cs : List Char) (id : ScopeId) :
    (ofPlan outline plan cs).openingText id = cut plan cs (.opening id) := by
  unfold openingText row?
  by_cases listed : Role.opening id ∈ plan.pieces.map Piece.role
  · rw [ofPlan, lookup_rowText? plan cs listed]
    rfl
  · rw [ofPlan, lookup_rowText?_eq_none plan cs listed, cut_of_not_mem listed]
    rfl

theorem separatorText_ofPlan (outline : Outline) (plan : Plan) (cs : List Char) {id : ScopeId}
    (begun : Role.separator id ∈ plan.pieces.map Piece.role →
      Role.opening id ∈ plan.pieces.map Piece.role) :
    (ofPlan outline plan cs).separatorText id = cut plan cs (.separator id) := by
  unfold separatorText row?
  by_cases listed : Role.opening id ∈ plan.pieces.map Piece.role
  · rw [ofPlan, lookup_rowText? plan cs listed]
    rfl
  · rw [ofPlan, lookup_rowText?_eq_none plan cs listed,
      cut_of_not_mem fun separates => listed (begun separates)]
    rfl

theorem leading_ofPlan (outline : Outline) (plan : Plan) (cs : List Char) {id : SlotId}
    (bound : id < outline.slots.size) :
    (ofPlan outline plan cs).leading id = cut plan cs (.leading id) := by
  simp [leading, ofPlan, slotText, bound]

/-- A document that is laid out. -/
structure Document (cs : List Char) (outline : Outline) (plan : Plan) : Prop where
  coherent : Coherent outline
  registered : ∃ markers, Registered markers outline
  made : Plan.make outline (Text.byteSize cs) = .ok plan
  planned : Planned outline (Text.byteSize cs) plan
  cuttable : Cuttable cs plan

theorem document_of_ofText {markers : List Marker} {policy : Unterminated} {text : String}
    {layout : Layout} (accepted : ofMarkers markers policy = .ok outline)
    (laid : ofText outline text = .ok layout) :
    ∃ plan, layout = ofPlan outline plan text.toList ∧ Document text.toList outline plan := by
  rcases exists_plan_of_ofText accepted laid with ⟨plan, rfl, made, planned, cuttable⟩
  exact ⟨plan, rfl, Outline.coherent_of_ofMarkers accepted,
    ⟨_, Outline.registered_of_ofMarkers accepted⟩, made, planned, cuttable⟩

/-- The roles of a plan are those of its outline, and one more for what is left. -/
theorem Document.roleOf (document : Document cs outline plan) {piece : Piece}
    (listed : piece ∈ plan.pieces) : piece.role.Of outline ∨ piece.role = lastRole outline := by
  rcases document.registered with ⟨markers, registered⟩
  have member := List.mem_map_of_mem (f := Piece.role) listed
  rw [document.planned.roles] at member
  rcases List.mem_append.mp member with drawn | last
  · rcases List.mem_flatMap.mp drawn with ⟨occurrence, unskipped, role⟩
    exact .inl (roleOf_of_mem registered ((Sweep.unskipped_sublist _ _).subset unskipped) role)
  · exact .inr (List.mem_singleton.mp last)

theorem lastRole_eq (outline : Outline) : lastRole outline = .before ∨ lastRole outline = .after := by
  unfold lastRole
  split
  · exact .inl rfl
  · exact .inr rfl

theorem Role.Of.ne_lastRole {role : Role} (own : role.Of one) (outline : Outline) :
    role ≠ lastRole outline := by
  rintro rfl
  rcases lastRole_eq outline with last | last <;> rw [last] at own <;> exact own

theorem role_lastRole (move : Relocation) (outline : Outline) :
    move.numbers.role (lastRole outline) = lastRole outline := by
  rcases lastRole_eq outline with last | last <;> rw [last] <;> rfl

/-! ## The layout of a part -/

/-- A layout of a part and one of the whole.  Some texts of the part have more before
them in the whole. -/
structure Laid (move : Renumbering) (lead : Role → String) (part whole : Outline)
    (own all : Layout) : Prop where
  opening : ∀ id, part.scopeIs Scope.isArray id = true →
    all.openingText (move.scope id) = lead (.opening id) ++ own.openingText id
  separator : ∀ id, part.scopeIs Scope.isArray id = true →
    all.separatorText (move.scope id) = own.separatorText id
  leading : ∀ id, id < part.slots.size →
    all.leading (move.slot id) = lead (.leading id) ++ own.leading id
  omits : ∀ id, id < part.slots.size → all.omits (move.slot id) = own.omits id
  host : ∀ id, id < part.slots.size →
    all.host whole (move.slot id) = (own.host part id).map move.scope

/-- What is cut and seated alike is laid out alike. -/
theorem laid_of_cut {move : Renumbering} {part whole : Outline} {own : Plan} {lead : Role → String}
    (texts : ∀ role : Role, role.Of part →
      cut all ds (move.role role) = lead role ++ cut own cs role)
    (separators : ∀ id, lead (.separator id) = "")
    (within : ∀ id, id < part.slots.size → move.slot id < whole.slots.size)
    (planned : Planned part (Text.byteSize cs) own)
    (wholePlanned : Planned whole (Text.byteSize ds) all)
    (dropped : ∀ id, id < part.slots.size →
      all.dropped.contains (move.slot id) = own.dropped.contains id)
    (hosts : ∀ id, id < part.slots.size →
      all.host (move.slot id) = (own.host id).map move.scope) :
    Laid move lead part whole (ofPlan part own cs) (ofPlan whole all ds) where
  opening id array := by
    rw [openingText_ofPlan, openingText_ofPlan]
    exact texts (.opening id) array
  separator id array := by
    rw [separatorText_ofPlan _ _ _ (planned.begun id),
      separatorText_ofPlan _ _ _ (wholePlanned.begun _)]
    have same := texts (.separator id) array
    rw [separators, String.empty_append] at same
    exact same
  leading id bound := by
    rw [leading_ofPlan _ _ _ bound, leading_ofPlan _ _ _ (within id bound)]
    exact texts (.leading id) bound
  omits id bound := by
    rw [omits_ofPlan _ _ _ bound, omits_ofPlan _ _ _ (within id bound)]
    exact dropped id bound
  host id bound := by
    rw [host_ofPlan _ _ _ bound, host_ofPlan _ _ _ (within id bound)]
    exact hosts id bound

/-- The role of the first piece of the second document, alone and in the whole: one of
its markers, or of a document without any. -/
structure Splice (move : Relocation) (one two : Outline) (role wholeRole : Role) : Prop where
  kinds : role.Of two ∧ wholeRole = move.numbers.role role ∧ two.occurrences ≠ #[] ∨
    two.occurrences = #[] ∧ role = .before ∧ wholeRole = lastRole one
  begins : ∀ id, role ≠ .separator id

theorem Splice.ne_first (splice : Splice move one two role wholeRole)
    (joins : Joins move one two both) (own : other.Of one) : other ≠ wholeRole := by
  rcases splice.kinds with ⟨theirs, rfl, -⟩ | ⟨-, -, rfl⟩
  · exact Ne.symm (role_ne_of_joins joins own theirs)
  · exact own.ne_lastRole one

/-- A document without markers has no roles. -/
theorem not_roleOf_of_nil (document : Document ds two second) (none : two.occurrences = #[]) :
    ¬ other.Of two := by
  intro own
  rcases document.registered with ⟨markers, registered⟩
  have noArrays : ∀ id, two.scopeIs Scope.isArray id = true → False := by
    intro id array
    rcases registered.exists_opens array with ⟨index, occurrence, found, -⟩
    rw [none] at found
    cases found
  cases other with
  | opening id => exact noArrays id own
  | separator id => exact noArrays id own
  | leading id =>
    have listed := document.coherent.listed
    rw [none] at listed
    have bound : id < two.slots.size := own
    have empty : two.slots.size = 0 := List.range_eq_nil.mp listed.symm
    rw [empty] at bound
    exact Nat.not_lt_zero _ bound
  | before | after => exact own

/-- The text around a document is what is left behind its last marker. -/
theorem Document.before (document : Document cs outline plan) :
    (ofPlan outline plan cs).before =
      if outline.occurrences.isEmpty then cut plan cs (lastRole outline) else "" := by
  show cut plan cs .before = _
  by_cases empty : outline.occurrences.isEmpty = true
  · rw [if_pos empty, lastRole_of_empty empty]
  · rw [if_neg empty]
    apply cut_of_not_mem
    intro listed
    rcases List.mem_map.mp listed with ⟨piece, member, role⟩
    rcases document.roleOf member with own | last
    · rw [role] at own
      exact own
    · rw [role, lastRole_of_nonempty (Bool.eq_false_of_not_eq_true empty)] at last
      cases last

theorem Document.after (document : Document cs outline plan) :
    (ofPlan outline plan cs).after =
      if outline.occurrences.isEmpty then "" else cut plan cs (lastRole outline) := by
  show cut plan cs .after = _
  by_cases empty : outline.occurrences.isEmpty = true
  · rw [if_pos empty]
    apply cut_of_not_mem
    intro listed
    rcases List.mem_map.mp listed with ⟨piece, member, role⟩
    rcases document.roleOf member with own | last
    · rw [role] at own
      exact own
    · rw [role, lastRole_of_empty empty] at last
      cases last
  · rw [if_neg empty, lastRole_of_nonempty (Bool.eq_false_of_not_eq_true empty)]

/-- The plans of two documents, one behind the other, and of both. -/
structure Composed (move : Relocation) (cs ds : List Char) (one two both : Outline)
    (between : Sweep) (role wholeRole : Role) (first second all : Plan) : Prop where
  joins : Joins move one two both
  offset : move.offset = Text.byteSize cs
  spliced : Spliced move (Text.byteSize cs) between (lastRole one) role wholeRole first second all
  splice : Splice move one two role wholeRole
  drawn : Drawn one.occurrences.toList between.plan
  first : Document cs one first
  second : Document ds two second
  whole : Document (cs ++ ds) both all

variable (composed : Composed move cs ds one two both between role wholeRole first second all)

include composed

theorem Composed.slots : both.slots.size = one.slots.size + two.slots.size := by
  rw [composed.joins.slots, Array.size_append, Array.size_map]

theorem Composed.roleOf {piece : Piece} (listed : piece ∈ between.plan.pieces) :
    piece.role.Of one := by
  rcases composed.first.registered with ⟨markers, registered⟩
  rcases composed.drawn.roles piece listed with ⟨occurrence, member, played⟩
  exact roleOf_of_mem registered member played

theorem Composed.host_lt {seat : SlotId × Option ScopeId} (listed : seat ∈ first.hosts) :
    seat.1 < move.slot := by
  rcases composed.first.registered with ⟨markers, registered⟩
  rw [composed.spliced.first] at listed
  rcases composed.drawn.hosts seat listed with ⟨occurrence, member, slot⟩
  rw [composed.joins.slot]
  exact slot_lt_of_registered registered occurrence member _ slot

theorem Composed.dropped_lt {id : SlotId} (listed : id ∈ first.dropped) : id < move.slot := by
  rcases composed.first.registered with ⟨markers, registered⟩
  rw [composed.spliced.first] at listed
  rcases composed.drawn.dropped id listed with ⟨occurrence, member, slot⟩
  rw [composed.joins.slot]
  exact slot_lt_of_registered registered occurrence member _ slot

theorem Composed.cut_splice :
    cut all (cs ++ ds) wholeRole = cut first cs (lastRole one) ++ cut second ds role :=
  composed.spliced.cut_splice composed.first.cuttable composed.second.cuttable
    (fun _ listed => composed.splice.ne_first composed.joins (composed.roleOf listed))
    fun _ listed => (composed.roleOf listed).ne_lastRole one

/-- The first document is laid out in the whole as it is alone. -/
theorem Composed.laid_first :
    Laid Relocation.stay.numbers (fun _ => "") one both (ofPlan one first cs)
      (ofPlan both all (cs ++ ds)) := by
  apply laid_of_cut
  · intro other own
    rw [Relocation.role_stay, String.empty_append]
    apply composed.spliced.cut_first composed.first.cuttable (own.ne_lastRole one)
      (composed.splice.ne_first composed.joins own)
    intro piece listed
    rcases composed.second.roleOf listed with theirs | last
    · exact role_ne_of_joins composed.joins own theirs
    · rw [last, role_lastRole]
      exact Ne.symm (own.ne_lastRole two)
  · intro id
    rfl
  · intro id bound
    show id < both.slots.size
    rw [composed.slots]
    exact Nat.lt_of_lt_of_le bound (Nat.le_add_right _ _)
  · exact composed.first.planned
  · exact composed.whole.planned
  · intro id bound
    exact composed.spliced.dropped_first (by rw [composed.joins.slot]; exact bound)
  · intro id bound
    show all.host id = (first.host id).map fun scope => scope
    rw [Option.map_id']
    exact composed.spliced.host_first (by rw [composed.joins.slot]; exact bound)

/-- A text before that of one role, and nothing before those of others. -/
def leadOf (text : String) (role other : Role) : String := if other = role then text else ""

/-- So is the second, but for what the first leaves: that comes before its first piece. -/
theorem Composed.laid_second :
    Laid move.numbers (leadOf (cut first cs (lastRole one)) role) two both (ofPlan two second ds)
      (ofPlan both all (cs ++ ds)) := by
  have differ : ∀ {other : Role}, other.Of two → other ≠ role →
      wholeRole ≠ move.numbers.role other := by
    intro other own differs same
    rcases composed.splice.kinds with ⟨-, whole, -⟩ | ⟨none, -, -⟩
    · rw [whole] at same
      exact differs (Relocation.role_injective composed.joins.second.injective same).symm
    · exact not_roleOf_of_nil composed.second none own
  apply laid_of_cut
  · intro other own
    unfold leadOf
    by_cases same : other = role
    · rw [if_pos same, same, ← composed.cut_splice]
      rcases composed.splice.kinds with ⟨-, whole, -⟩ | ⟨none, -, -⟩
      · rw [whole]
      · exact absurd own (not_roleOf_of_nil composed.second none)
    · rw [if_neg same, String.empty_append]
      exact composed.spliced.cut_second composed.joins.second.injective composed.offset
        (fun piece listed => Ne.symm
          (role_ne_of_joins composed.joins (composed.roleOf listed) own)) (Ne.symm same)
        (differ own same)
  · intro id
    unfold leadOf
    rw [if_neg]
    exact Ne.symm (composed.splice.begins id)
  · intro id bound
    show id + move.slot < both.slots.size
    rw [composed.slots, composed.joins.slot, Nat.add_comm]
    exact Nat.add_lt_add_left bound _
  · exact composed.second.planned
  · exact composed.whole.planned
  · intro id _
    exact composed.spliced.dropped_second (fun id listed => composed.dropped_lt listed) id
  · intro id _
    exact composed.spliced.host_second (fun seat listed => composed.host_lt listed) id

/-- The text around both documents, if bodies without markers are empty. -/
theorem Composed.surround (body otherBody : String) (empty : one.occurrences = #[] → body = "")
    (otherEmpty : two.occurrences = #[] → otherBody = "") :
    (ofPlan both all (cs ++ ds)).before ++ (body ++ if two.occurrences.isEmpty then "" else
        cut first cs (lastRole one) ++ otherBody) ++ (ofPlan both all (cs ++ ds)).after =
      (ofPlan one first cs).before ++ body ++ (ofPlan one first cs).after ++
        ((ofPlan two second ds).before ++ otherBody ++ (ofPlan two second ds).after) := by
  rw [composed.whole.before, composed.whole.after, composed.first.before, composed.first.after,
    composed.second.before, composed.second.after]
  rcases composed.splice.kinds with ⟨own, whole, some⟩ | ⟨none, before, whole⟩
  · -- What is left of the whole is left of the second document.
    have otherNonempty : two.occurrences.isEmpty = false := by simpa using some
    have nonempty : both.occurrences.isEmpty = false := by
      rw [composed.joins.occurrences]
      simp [some]
    have last : cut all (cs ++ ds) (lastRole both) = cut second ds (lastRole two) := by
      rw [lastRole_of_nonempty nonempty, lastRole_of_nonempty otherNonempty]
      show cut all (cs ++ ds) (move.numbers.role .after) = cut second ds .after
      apply composed.spliced.cut_second composed.joins.second.injective composed.offset
      · intro piece listed same
        have impossible := composed.roleOf listed
        rw [same] at impossible
        exact impossible
      · rintro rfl
        exact own
      · intro same
        rw [whole] at same
        have after : role = .after := Relocation.role_injective composed.joins.second.injective same
        rw [after] at own
        exact own
    rw [nonempty, otherNonempty, last]
    cases alone : one.occurrences.isEmpty with
    | true => simp [empty (by simpa using alone), String.append_assoc]
    | false => simp [String.append_assoc]
  · have otherNone : two.occurrences.isEmpty = true := by rw [none]; rfl
    have same : both.occurrences.isEmpty = one.occurrences.isEmpty := by
      rw [composed.joins.occurrences, none]
      simp
    have last : lastRole both = wholeRole := by rw [whole, lastRole, same, lastRole]
    have otherLast : lastRole two = role := by rw [before, lastRole_of_empty otherNone]
    rw [same, otherNone, last, composed.cut_splice, otherLast, otherEmpty none]
    cases alone : one.occurrences.isEmpty with
    | true => simp [empty (by simpa using alone)]
    | false => simp [String.append_assoc]

omit composed

/-! ## Documents that are laid out -/

/-- The first piece of a document is one of its first marker, whose value is emitted. -/
structure FirstPiece (outline : Outline) (layout : Layout) (role : Role) (occurrence : Occurrence) :
    Prop where
  begins : Outline.Begins outline occurrence
  ends : occurrence.closes = []
  head : (rolesOf occurrence).head? = some role
  kept : layout.omits 0 = false
  host : occurrence.opens = [] → layout.host outline 0 = none

/-- All markers of a text that is laid out stand in it. -/
theorem offset_le_of_ofText {markers : List Marker} {policy : Unterminated} {text : String}
    {layout : Layout} (accepted : ofMarkers markers policy = .ok outline)
    (laid : ofText outline text = .ok layout) :
    ∀ marker ∈ markers, marker.offset ≤ Text.byteSize text.toList := by
  intro marker member
  rcases ofText_eq_ok.mp laid with ⟨faultless, -⟩
  have ordered : marker ∈ Outline.inDocumentOrder markers := mem_orderBy.mpr member
  rw [← (Outline.registered_of_ofMarkers accepted).recorded] at ordered
  rcases List.mem_map.mp ordered with ⟨occurrence, listed, rfl⟩
  exact (offsetFault?_eq_none.mp (fits_of_findSome? faultless occurrence listed)).1

variable {markers otherMarkers : List Marker} {policy : Unterminated} {text otherText : String}
  {own their whole : Layout} {occurrence : Occurrence} {occurrences : List Occurrence}

/-- The first marker of a document begins it and closes nothing. -/
theorem begins_of_ofMarkers (accepted : ofMarkers markers policy = .ok outline)
    (plain : Outline.PlainMarkers markers)
    (split : outline.occurrences.toList = occurrence :: occurrences) :
    Outline.Begins outline occurrence ∧ occurrence.closes = [] := by
  rcases Outline.ofMarkers_eq_ok accepted with ⟨growth, grown, rfl⟩
  have begins := Outline.begins_of_growth plain.ordered grown split
  refine ⟨begins, ?_⟩
  by_contra closes
  have listed : occurrence ∈ growth.outline.occurrences.toList := by rw [split]; exact .head _
  have impossible := Outline.slot_eq_none_of_closes grown occurrence listed closes
  rw [begins.slot] at impossible
  cases impossible

section Cases

variable (joins : Joins move one two both) (offset : move.offset = Text.byteSize cs)
  (document : Document cs one first) (otherDocument : Document ds two second)
  (wholeDocument : Document (cs ++ ds) both all)

include joins offset document otherDocument wholeDocument

/-- A document without markers behind another. -/
theorem composed_of_nil (none : two.occurrences = #[]) :
    ∃ between,
      Composed move cs ds one two both between .before (lastRole one) first second all := by
  rcases document.registered with ⟨_, registered⟩
  have made := wholeDocument.made
  rw [Text.byteSize_append] at made
  rcases spliced_of_nil joins document.coherent wholeDocument.coherent.rooted registered
    document.made otherDocument.made made none with ⟨between, spliced, drawn⟩
  exact ⟨between, joins, offset, spliced,
    ⟨.inr ⟨none, rfl, rfl⟩, fun _ => Role.noConfusion⟩, drawn, document, otherDocument,
    wholeDocument⟩

/-- A document with markers behind another.  Its first value is emitted in both. -/
theorem composed_of_cons (split : two.occurrences.toList = occurrence :: occurrences)
    (begins : Outline.Begins two occurrence) (ends : occurrence.closes = [])
    (kept : second.dropped.contains 0 = false → all.dropped.contains (0 + move.slot) = false) :
    ∃ between role,
      Composed move cs ds one two both between role (move.numbers.role role) first second all ∧
        FirstPiece two (ofPlan two second ds) role occurrence := by
  rcases document.registered with ⟨_, registered⟩
  rcases otherDocument.registered with ⟨_, otherRegistered⟩
  have made := wholeDocument.made
  rw [Text.byteSize_append] at made
  have listed : occurrence ∈ two.occurrences.toList := by rw [split]; exact .head _
  have bound : 0 < two.slots.size :=
    slot_lt_of_registered otherRegistered occurrence listed 0 begins.slot
  rcases spliced_of_cons joins document.coherent otherDocument.coherent
    wholeDocument.coherent.rooted registered otherRegistered document.made otherDocument.made made
    offset split begins.slot ends (by simpa using kept) with ⟨between, role, spliced, head, drawn⟩
  have played : role ∈ rolesOf occurrence := List.mem_of_mem_head? head
  have splice : Splice move one two role (move.numbers.role role) := by
    refine ⟨.inl ⟨roleOf_of_mem otherRegistered listed played, rfl, ?_⟩, ?_⟩
    · intro none
      rw [none] at listed
      cases listed
    · rintro id rfl
      simp [rolesOf, ends] at played
  rcases seated_first_of_make otherDocument.coherent split begins ends otherDocument.made with
    ⟨emitted, top⟩
  refine ⟨between, role,
    ⟨joins, offset, spliced, splice, drawn, document, otherDocument, wholeDocument⟩,
    begins, ends, head, ?_, fun opens => ?_⟩
  · rw [omits_ofPlan _ _ _ bound]
    simpa using emitted
  · rw [host_ofPlan _ _ _ bound]
    exact top opens

end Cases

/-- Two documents and both, one behind the other, if they have no repetition in common
and the second keeps its values. -/
theorem exists_composed (outlined : ofMarkers markers policy = .ok one)
    (otherOutlined : ofMarkers otherMarkers policy = .ok two)
    (bothOutlined : ofMarkers (markers ++
      otherMarkers.map (Marker.shift (Text.byteSize text.toList))) policy = .ok both)
    (laid : ofText one text = .ok own) (otherLaid : ofText two otherText = .ok their)
    (bothLaid : ofText both (text ++ otherText) = .ok whole)
    (plain : Outline.PlainMarkers markers) (otherPlain : Outline.PlainMarkers otherMarkers)
    (apart : ∀ id left right,
      Outline.Reaches (markers ++ otherMarkers.map (Marker.shift (Text.byteSize text.toList)))
        left id →
      Outline.Reaches (markers ++ otherMarkers.map (Marker.shift (Text.byteSize text.toList)))
        right id →
      left < markers.length → markers.length ≤ right → both.scopeIs Scope.isArray id = false)
    (kept : ∀ id, id < two.slots.size → their.omits id = false →
      whole.omits (id + one.slots.size) = false) :
    ∃ move between role wholeRole first second all,
      own = ofPlan one first text.toList ∧ their = ofPlan two second otherText.toList ∧
      whole = ofPlan both all (text.toList ++ otherText.toList) ∧
      Composed move text.toList otherText.toList one two both between role wholeRole first
        second all ∧
      ∀ occurrence more, two.occurrences.toList = occurrence :: more →
        FirstPiece two their role occurrence := by
  rcases Outline.joins_of_ofMarkers outlined otherOutlined bothOutlined plain otherPlain
    (offset_le_of_ofText outlined laid) apart with ⟨move, offset, joins⟩
  rcases document_of_ofText outlined laid with ⟨first, rfl, document⟩
  rcases document_of_ofText otherOutlined otherLaid with ⟨second, rfl, otherDocument⟩
  rcases document_of_ofText bothOutlined bothLaid with ⟨all, rfl, wholeDocument⟩
  rw [String.toList_append] at wholeDocument kept ⊢
  cases split : two.occurrences.toList with
  | nil =>
    rcases composed_of_nil joins offset document otherDocument wholeDocument
      (Array.toList_eq_nil_iff.mp split) with ⟨between, composed⟩
    exact ⟨move, between, .before, lastRole one, first, second, all, rfl, rfl, rfl, composed,
      fun _ _ impossible => nomatch impossible⟩
  | cons occurrence more =>
    rcases begins_of_ofMarkers otherOutlined otherPlain split with ⟨begins, ends⟩
    rcases otherDocument.registered with ⟨_, otherRegistered⟩
    have bound : 0 < two.slots.size := slot_lt_of_registered otherRegistered occurrence
      (by rw [split]; exact .head _) 0 begins.slot
    have wholeBound : 0 + one.slots.size < both.slots.size := by
      rw [joins.slots, Array.size_append, Array.size_map, Nat.zero_add]
      exact Nat.lt_add_of_pos_right bound
    have keeps := kept 0 bound
    rw [omits_ofPlan _ _ _ bound, omits_ofPlan _ _ _ wholeBound, ← joins.slot] at keeps
    rcases composed_of_cons joins offset document otherDocument wholeDocument split begins ends
      keeps with ⟨between, role, composed, piece⟩
    refine ⟨move, between, role, move.numbers.role role, first, second, all, rfl, rfl, rfl, composed, ?_⟩
    rintro other rest ⟨⟩
    exact piece

end Stencil.Layout
