import Stencil.Proofs.Layout.Refusal
import Stencil.Proofs.Layout.Roles

namespace Stencil.Layout

open Outline (Rooted Registered Coherent ofMarkers)

/-!
# Static text is neither lost nor repeated

The pieces of a document follow each other from its beginning to its end.  A piece
begins where the one before it ends, unless a row is skipped between them: then the
one before it is a separator and ends where a repetition is closed.  So a document
whose repetitions have no ends is all of its pieces, one after the other.
-/

variable {outline : Outline} {occurrence : Occurrence} {sweep after : Sweep}
  {markers : List Marker}

/-! ## Literals in the order of the document -/

/-- The text between the rows of a repetition; empty if the layout has none. -/
def separatorText (layout : Layout) (scope : ScopeId) : String :=
  ((layout.row? scope).map RowText.separator).getD ""

/-- The text before the first row of a repetition; empty if the layout has none. -/
def openingText (layout : Layout) (scope : ScopeId) : String :=
  ((layout.row? scope).map RowText.opening).getD ""

/-- The literals before and at a marker: the separators of the repetitions it ends,
innermost first, the openings of those it begins, outermost first, and the text before
its value. -/
def literalsAt (layout : Layout) (occurrence : Occurrence) : List String :=
  occurrence.closes.reverse.map layout.separatorText ++
    occurrence.opens.map layout.openingText ++ occurrence.slot.toList.map layout.leading

/-- All literals of a document: the text before it, those at the markers that are not
skipped, and the text behind it. -/
def literals (outline : Outline) (layout : Layout) : List String :=
  layout.before ::
    ((Sweep.unskipped outline .start outline.occurrences.toList).flatMap layout.literalsAt ++
      [layout.after])

/-- A repetition is closed at this offset. -/
def ClosedAt (outline : Outline) (place : Nat) : Prop :=
  ∃ id closing, outline.closingOf id = some closing ∧ closing.offset = place

/-- What begins at one offset goes on where the piece before it ended, or behind a row
that is skipped there. -/
def Follows (outline : Outline) (stop start : Nat) : Prop :=
  stop = start ∨ ClosedAt outline stop ∧ stop ≤ start

/-- Some literals are slices of a text in this order, with gaps only where repetitions
are closed. -/
structure Conserved (outline : Outline) (cs : List Char) (ranges : List (Nat × Nat))
    (texts : List String) : Prop where
  slices : List.Forall₂ (fun range text => Text.slice? range.1 range.2 cs = some text.toList)
    ranges texts
  begins : ranges.head?.map Prod.fst = some 0
  ends : ranges.getLast?.map Prod.snd = some (Text.byteSize cs)
  apart : ranges.Pairwise fun left right => left.2 ≤ right.1
  gaps : ranges.IsChain fun left right => Follows outline left.2 right.1

theorem Follows.le {stop start : Nat} (follows : Follows outline stop start) : stop ≤ start := by
  rcases follows with same | ⟨-, behind⟩
  · exact Nat.le_of_eq same
  · exact behind

/-! ## Pieces of a sweep -/

namespace Sweep

/-- The pieces assigned so far follow each other from the beginning, and the sweep goes
on behind the last of them. -/
structure Joined (outline : Outline) (sweep : Sweep) : Prop where
  chain : sweep.plan.pieces.IsChain fun left right => Follows outline left.stop right.start
  first : ∀ piece ∈ sweep.plan.pieces.head?, piece.start = 0
  here : ∀ piece ∈ sweep.plan.pieces.getLast?, Follows outline piece.stop sweep.position
  echo : sweep.echo ≠ none → ∀ piece ∈ sweep.plan.pieces.getLast?, ClosedAt outline piece.stop
  fresh : sweep.plan.pieces = [] → sweep.position = 0 ∧ sweep.echo = none ∧ sweep.rows = []

/-- One more piece behind the others. -/
theorem Joined.assigned (joined : Joined outline sweep) (role : Role) (stop : Nat) {start : Nat}
    (follows : ∀ piece ∈ sweep.plan.pieces.getLast?, Follows outline piece.stop start)
    (begins : sweep.plan.pieces = [] → start = 0) :
    ((sweep.assign role start stop).plan.pieces.IsChain fun left right =>
        Follows outline left.stop right.start) ∧
      ∀ piece ∈ (sweep.assign role start stop).plan.pieces.head?, piece.start = 0 := by
  constructor
  · refine List.isChain_append.mpr ⟨joined.chain, List.IsChain.singleton _, ?_⟩
    intro piece last next single
    cases single
    exact follows piece last
  · intro piece head
    cases pieces : sweep.plan.pieces with
    | nil =>
      simp only [assign, pieces, List.nil_append] at head
      cases head
      exact begins pieces
    | cons early more =>
      simp only [assign, pieces, List.cons_append] at head
      cases head
      exact joined.first _ (by rw [pieces]; rfl)

theorem getLast?_assign (sweep : Sweep) (role : Role) (start stop : Nat) {piece : Piece}
    (last : piece ∈ (sweep.assign role start stop).plan.pieces.getLast?) : piece.stop = stop := by
  simp only [assign, List.getLast?_concat] at last
  cases last
  rfl

theorem pieces_assign_ne_nil (sweep : Sweep) (role : Role) (start stop : Nat) :
    (sweep.assign role start stop).plan.pieces ≠ [] := by
  simp [assign]

/-- Taking the text up to a marker. -/
theorem Joined.taken (joined : Joined outline sweep) (role : Role) (place : Nat) :
    Joined outline { sweep.assign role sweep.position place with echo := none } where
  chain := (joined.assigned role place joined.here fun empty => (joined.fresh empty).1).1
  first := (joined.assigned role place joined.here fun empty => (joined.fresh empty).1).2
  here _ last := .inl (getLast?_assign sweep role sweep.position place last)
  echo impossible := absurd rfl impossible
  fresh impossible := absurd impossible (pieces_assign_ne_nil sweep role sweep.position place)

theorem Joined.opened (joined : Joined outline sweep) (scope : Scope) (id : ScopeId)
    (place : Nat) : Joined outline (sweep.opened scope id place) := by
  have taken := joined.taken (.opening id) place
  exact ⟨taken.chain, taken.first, taken.here, taken.echo,
    fun impossible => absurd impossible (pieces_assign_ne_nil _ _ _ _)⟩

theorem Joined.inserted (joined : Joined outline sweep) (id : SlotId) (host : Option ScopeId)
    (place : Nat) : Joined outline (sweep.inserted id host place) := by
  have taken := joined.taken (.leading id) place
  exact ⟨taken.chain, taken.first, taken.here, taken.echo,
    fun impossible => absurd impossible (pieces_assign_ne_nil _ _ _ _)⟩

/-- Ending a repetition.  If another was ended here already, its separator came up to
this marker and nothing is left. -/
theorem Joined.closed (joined : Joined outline sweep) {row : OpenRow} {rest : List OpenRow}
    (rows : sweep.rows = row :: rest) {place : Nat} (closes : ClosedAt outline place)
    (upTo : sweep.position ≤ place ∨ ∀ piece ∈ sweep.plan.pieces.getLast?, piece.stop = place) :
    Joined outline (sweep.closed row rest place) := by
  have nonempty : sweep.plan.pieces ≠ [] := by
    intro empty
    rw [(joined.fresh empty).2.2] at rows
    cases rows
  have follows : ∀ piece ∈ sweep.plan.pieces.getLast?,
      Follows outline piece.stop (min sweep.position place) := by
    intro piece last
    rcases Nat.le_total sweep.position place with before | behind
    · rw [Nat.min_eq_left before]
      exact joined.here piece last
    · rw [Nat.min_eq_right behind]
      rcases upTo with before | same
      · have follows := joined.here piece last
        rw [Nat.le_antisymm before behind] at follows
        exact follows
      · exact .inl (same piece last)
  have pieces := joined.assigned (.separator row.scope) place follows
    fun empty => absurd empty nonempty
  refine ⟨pieces.1, pieces.2, fun piece last => ?_, fun _ piece last => ?_, fun impossible => ?_⟩
  · rw [getLast?_assign _ _ _ _ last]
    exact .inr ⟨closes, Nat.le_max_right _ _⟩
  · rw [getLast?_assign _ _ _ _ last]
    exact closes
  · exact absurd impossible (pieces_assign_ne_nil _ _ _ _)

theorem Joined.skipped (joined : Joined outline sweep) {place : Nat} (skips : sweep.Skips place)
    (slot : Option SlotId) : Joined outline ((sweep.passed place).skipped slot) := by
  unfold passed
  by_cases before : place < sweep.position
  · rw [if_pos before]
    exact ⟨joined.chain, joined.first, joined.here, joined.echo, joined.fresh⟩
  · have echo : sweep.echo = some place := skips.resolve_left before
    rw [if_neg before]
    refine ⟨joined.chain, joined.first, fun piece last => ?_, joined.echo, fun empty => ?_⟩
    · have ended := joined.echo (by simp [echo]) piece last
      exact .inr ⟨ended, (joined.here piece last).le.trans (Nat.le_of_not_lt before)⟩
    · have none := (joined.fresh empty).2.1
      rw [echo] at none
      cases none

theorem Joined.pass (registered : Registered markers outline) (joined : Joined outline sweep)
    {index : Nat} (found : outline.occurrences[index]? = some occurrence)
    (run : pass outline sweep occurrence = .ok after) : Joined outline after := by
  by_cases skips : sweep.Skips occurrence.offset
  · rw [pass_of_skips skips] at run
    rcases skip_eq_ok.mp run with ⟨-, -, rfl⟩
    exact joined.skipped skips _
  · have forward := Nat.le_of_not_lt fun before => skips (.inl before)
    rw [pass_of_not_skips skips] at run
    rcases read_eq_ok.mp run with ⟨closed, opened, first, second, third⟩
    have ends : Joined outline closed ∧ (closed.position ≤ occurrence.offset ∨
        ∀ piece ∈ closed.plan.pieces.getLast?, piece.stop = occurrence.offset) := by
      refine foldlM_induction (motive := fun state => Joined outline state ∧
        (state.position ≤ occurrence.offset ∨
          ∀ piece ∈ state.plan.pieces.getLast?, piece.stop = occurrence.offset))
        (fun before scope after member holds run => ?_) ⟨joined, .inl forward⟩ first
      rcases close_eq_ok.mp run with ⟨row, rest, rows, -, rfl⟩
      have listed := List.mem_reverse.mp member
      have closes : ClosedAt outline occurrence.offset :=
        ⟨scope, _, registered.closingOf_of_closes found listed, rfl⟩
      exact ⟨holds.1.closed rows closes holds.2,
        .inr fun piece last => getLast?_assign _ _ _ _ last⟩
    have starts : Joined outline opened := by
      refine foldlM_induction (fun before id after _ joined run => ?_) ends.1 second
      rcases openRow_eq_ok.mp run with ⟨scope, -, -, -, rfl⟩
      exact joined.opened scope id _
    refine foldlM_induction (fun before id after _ joined run => ?_) starts third
    rcases insert_eq_ok.mp run with ⟨slot, host, -, -, -, rfl⟩
    exact joined.inserted id host _

theorem joined_start (outline : Outline) : Joined outline start where
  chain := .nil
  first _ impossible := by cases impossible
  here _ impossible := by cases impossible
  echo _ _ impossible := by cases impossible
  fresh _ := ⟨rfl, rfl, rfl⟩

theorem joined_of_run (registered : Registered markers outline)
    (swept : outline.occurrences.toList.foldlM (pass outline) start = .ok sweep) :
    Joined outline sweep :=
  foldlM_induction_along (motive := fun _ sweep => Joined outline sweep)
    (fun _ _ _ _ within _ joined run => joined.pass registered (getElem?_of_isPrefix within) run)
    (joined_start outline) swept

end Sweep

/-! ## Texts of pieces -/

variable {plan : Plan} {cs : List Char}

theorem cut_of_not_mem {role : Role} (idle : role ∉ plan.pieces.map Piece.role) :
    cut plan cs role = "" := by
  have unknown : plan.piece? role = none := by
    apply List.find?_eq_none.mpr
    intro piece listed same
    exact idle (List.mem_map.mpr ⟨piece, listed, by simpa using same⟩)
  rw [cut, unknown]
  rfl

/-- The text of a role is the slice of its piece. -/
theorem slice_of_piece (once : (plan.pieces.map Piece.role).Nodup) {piece : Piece}
    (listed : piece ∈ plan.pieces) (forward : piece.start ≤ piece.stop)
    (starts : Text.isBoundary piece.start cs = true) (stops : Text.isBoundary piece.stop cs = true) :
    Text.slice? piece.start piece.stop cs = some (cut plan cs piece.role).toList := by
  rcases Text.exists_slice forward starts stops with ⟨inner, sliced⟩
  rw [cut, piece?_of_mem once listed, Option.bind_some, sliced]
  simp

theorem lookup_rowText? (plan : Plan) (cs : List Char) {scope : ScopeId} {pieces : List Piece}
    (listed : Role.opening scope ∈ pieces.map Piece.role) :
    (pieces.filterMap (rowText? plan cs)).lookup scope =
      some ⟨cut plan cs (.opening scope), cut plan cs (.separator scope)⟩ := by
  induction pieces with
  | nil => cases listed
  | cons piece rest ih =>
    rw [List.map_cons, List.mem_cons] at listed
    have onward : piece.role ≠ .opening scope →
        (rest.filterMap (rowText? plan cs)).lookup scope =
          some ⟨cut plan cs (.opening scope), cut plan cs (.separator scope)⟩ :=
      fun differs => ih (listed.resolve_left fun same => differs same.symm)
    cases role : piece.role with
    | opening other =>
      rw [List.filterMap_cons_some (by simp only [rowText?, role]; rfl), List.lookup_cons]
      by_cases same : scope = other
      · subst same
        simp
      · rw [beq_eq_false_iff_ne.mpr same]
        exact onward fun equal => same (Role.opening.inj (equal.symm.trans role))
    | separator other | leading other | before | after =>
      rw [List.filterMap_cons_none (by simp only [rowText?, role])]
      exact onward (by rw [role]; exact Role.noConfusion)

theorem lookup_rowText?_eq_none (plan : Plan) (cs : List Char) {scope : ScopeId}
    {pieces : List Piece} (idle : Role.opening scope ∉ pieces.map Piece.role) :
    (pieces.filterMap (rowText? plan cs)).lookup scope = none := by
  rw [List.lookup_eq_none_iff]
  intro entry listed
  rcases List.mem_filterMap.mp listed with ⟨piece, member, made⟩
  unfold rowText? at made
  split at made
  · next other role =>
    cases made
    have differs : scope ≠ other := by
      rintro rfl
      exact idle (List.mem_map.mpr ⟨piece, member, role⟩)
    simpa using differs
  · cases made

/-- The literals at a marker are the texts of its roles. -/
theorem literalsAt_ofPlan (slots : ∀ slot ∈ occurrence.slot, slot < outline.slots.size)
    (begun : ∀ scope, Role.separator scope ∈ plan.pieces.map Piece.role →
      Role.opening scope ∈ plan.pieces.map Piece.role)
    (listed : ∀ role ∈ rolesOf occurrence, role ∈ plan.pieces.map Piece.role) :
    (ofPlan outline plan cs).literalsAt occurrence = (rolesOf occurrence).map (cut plan cs) := by
  unfold literalsAt rolesOf
  simp only [List.map_append, List.map_map]
  congr 1
  · congr 1
    · apply List.map_congr_left
      intro scope member
      have ended := listed (.separator scope) (by
        simp only [rolesOf, List.mem_append, List.mem_map]
        exact .inl (.inl ⟨scope, member, rfl⟩))
      unfold separatorText row?
      rw [ofPlan, lookup_rowText? plan cs (begun scope ended)]
      rfl
    · apply List.map_congr_left
      intro scope member
      have opened := listed (.opening scope) (by
        simp only [rolesOf, List.mem_append, List.mem_map]
        exact .inl (.inr ⟨scope, member, rfl⟩))
      unfold openingText row?
      rw [ofPlan, lookup_rowText? plan cs opened]
      rfl
  · apply List.map_congr_left
    intro slot member
    have bound := slots slot (Option.mem_toList.mp member)
    simp [leading, ofPlan, slotText, bound]

/-! ## Documents -/

/-- The offsets of a piece. -/
def Piece.range (piece : Piece) : Nat × Nat := (piece.start, piece.stop)

/-- The role of the last piece of a document. -/
def lastRole (outline : Outline) : Role := if outline.occurrences.isEmpty then .before else .after

theorem lastRole_of_empty {outline : Outline} (empty : outline.occurrences.isEmpty = true) :
    lastRole outline = .before :=
  if_pos empty

theorem lastRole_of_nonempty {outline : Outline} (nonempty : outline.occurrences.isEmpty = false) :
    lastRole outline = .after :=
  if_neg (Bool.not_eq_true _ ▸ nonempty)

/-- A plan of a document: pieces for the roles of the markers that are not skipped and
one behind them. -/
structure Planned (outline : Outline) (length : Nat) (plan : Plan) : Prop where
  roles : plan.pieces.map Piece.role =
    (Sweep.unskipped outline .start outline.occurrences.toList).flatMap rolesOf ++
      [lastRole outline]
  once : (plan.pieces.map Piece.role).Nodup
  begun : ∀ scope, Role.separator scope ∈ plan.pieces.map Piece.role →
    Role.opening scope ∈ plan.pieces.map Piece.role
  chain : plan.pieces.IsChain fun left right => Follows outline left.stop right.start
  first : ∀ piece ∈ plan.pieces.head?, piece.start = 0
  last : ∀ piece ∈ plan.pieces.getLast?, piece.stop = length

theorem lastRole_not_mem (outline : Outline) (occurrences : List Occurrence) :
    lastRole outline ∉ occurrences.flatMap rolesOf := by
  intro listed
  rcases List.mem_flatMap.mp listed with ⟨occurrence, -, member⟩
  unfold lastRole at member
  split at member <;> simp [rolesOf] at member

theorem planned_of_make (coherent : Coherent outline) (registered : Registered markers outline)
    {length : Nat} (made : Plan.make outline length = .ok plan) : Planned outline length plan := by
  rcases bind_eq_ok.mp made with ⟨sweep, swept, finished⟩
  rcases finish_eq_ok.mp finished with ⟨-, within, rfl⟩
  have joined := Sweep.joined_of_run registered swept
  have begun := Sweep.begun_of_run swept
  have roles := Sweep.roles_of_run swept
  have further := Sweep.roles_assign sweep (lastRole outline) sweep.position length
  have pieces := joined.assigned (lastRole outline) length joined.here
    fun empty => (joined.fresh empty).1
  have separates : ∀ scope, Role.separator scope ≠ lastRole outline := by
    intro scope
    unfold lastRole
    split <;> exact Role.noConfusion
  rw [roles] at further
  show Planned outline length (sweep.assign (lastRole outline) sweep.position length).plan
  refine ⟨further, ?_, ?_, pieces.1, pieces.2, fun piece last => ?_⟩
  · show (sweep.assign (lastRole outline) sweep.position length).roles.Nodup
    rw [further]
    have sublist : (Sweep.unskipped outline .start outline.occurrences.toList).Sublist
        outline.occurrences.toList := Sweep.unskipped_sublist _ _
    refine List.nodup_append.mpr
      ⟨(sublist.flatMap rolesOf).nodup (nodup_roles coherent registered), by simp, ?_⟩
    intro role member other same equal
    rw [equal, List.mem_singleton.mp same] at member
    exact lastRole_not_mem outline _ member
  · show ∀ scope, _ ∈ (sweep.assign (lastRole outline) sweep.position length).roles →
      _ ∈ (sweep.assign (lastRole outline) sweep.position length).roles
    intro scope listed
    rw [further, ← roles] at listed ⊢
    rcases List.mem_append.mp listed with old | new
    · exact List.mem_append_left _ (begun.ended scope old)
    · exact absurd (List.mem_singleton.mp new) (separates scope)
  · exact Sweep.getLast?_assign _ _ _ _ last

/-- All pieces of a plan lie between two characters of the text. -/
theorem boundaries_of_make (registered : Registered markers outline) {fits : Nat → Prop}
    (ends : Outline.EndsAt fits outline) (begins : fits 0) {length : Nat} (stops : fits length)
    (here : ∀ occurrence ∈ outline.occurrences.toList, fits occurrence.offset)
    (made : Plan.make outline length = .ok plan) :
    ∀ piece ∈ plan.pieces, piece.start ≤ piece.stop ∧ fits piece.start ∧ fits piece.stop := by
  rcases bind_eq_ok.mp made with ⟨sweep, swept, finished⟩
  rcases finish_eq_ok.mp finished with ⟨-, within, rfl⟩
  have stands := Sweep.stands_of_run registered ends begins here (List.prefix_refl _) swept
  exact stands.assigned within stands.position stops

theorem pairwise_of_isChain {ranges : List (Nat × Nat)} (forward : ∀ range ∈ ranges, range.1 ≤ range.2)
    (chain : ranges.IsChain fun left right => left.2 ≤ right.1) :
    ranges.Pairwise fun left right => left.2 ≤ right.1 := by
  induction ranges with
  | nil => exact .nil
  | cons range rest ih =>
    have tail := ih (fun other member => forward other (.tail _ member)) chain.tail
    refine List.pairwise_cons.mpr ⟨fun other member => ?_, tail⟩
    cases rest with
    | nil => cases member
    | cons next more =>
      have touch := (List.isChain_cons_cons.mp chain).1
      rcases List.mem_cons.mp member with rfl | later
      · exact touch
      · have nextForward := forward next (.tail _ (.head _))
        have behind := (List.pairwise_cons.mp tail).1 other later
        exact touch.trans (nextForward.trans behind)

theorem conserved_of_slices {ranges : List (Nat × Nat)} {texts : List String}
    (slices : List.Forall₂ (fun range text => Text.slice? range.1 range.2 cs = some text.toList)
      ranges texts)
    (begins : ranges.head?.map Prod.fst = some 0)
    (ends : ranges.getLast?.map Prod.snd = some (Text.byteSize cs))
    (gaps : ranges.IsChain fun left right => Follows outline left.2 right.1) :
    Conserved outline cs ranges texts := by
  refine ⟨slices, begins, ends, pairwise_of_isChain ?_ (gaps.imp fun _ _ follows => follows.le), gaps⟩
  intro range member
  rcases List.forall₂_iff_get.mp slices with ⟨length, each⟩
  rcases List.mem_iff_get.mp member with ⟨index, rfl⟩
  exact (Text.slice?_eq_some.mp (each index.1 index.2 (length ▸ index.2))).1

/-- Without gaps the literals are the text. -/
theorem Conserved.join {text : String} {ranges : List (Nat × Nat)} {texts : List String}
    (conserved : Conserved outline text.toList ranges texts)
    (endless : ∀ id, outline.scopeIs Scope.hasEnd id = false) : String.join texts = text := by
  have open_ : ∀ place, ¬ ClosedAt outline place := by
    rintro place ⟨id, closing, ended, -⟩
    have none := endless id
    rw [Outline.scopeIs_hasEnd, ended] at none
    cases none
  have touch : ranges.IsChain fun left right => left.2 = right.1 :=
    conserved.gaps.imp fun _ _ follows => follows.resolve_right fun gap => open_ _ gap.1
  rcases Option.map_eq_some_iff.mp conserved.begins with ⟨first, head, atStart⟩
  rcases Option.map_eq_some_iff.mp conserved.ends with ⟨last, tail, atEnd⟩
  have cut : List.Forall₂ (fun range piece => Text.slice? range.1 range.2 text.toList = some piece)
      ranges (texts.map String.toList) := List.forall₂_map_right_iff.mpr conserved.slices
  have whole := Text.slice?_flatten cut head tail touch
  rw [atStart, atEnd, Text.slice?_whole] at whole
  apply String.toList_injective
  rw [String.toList_join, List.flatMap_def]
  exact (Option.some.inj whole).symm

/-- The texts of the pieces are slices of the text. -/
theorem slices_of_pieces (once : (plan.pieces.map Piece.role).Nodup)
    (fits : ∀ piece ∈ plan.pieces, piece.start ≤ piece.stop ∧
      Text.isBoundary piece.start cs = true ∧ Text.isBoundary piece.stop cs = true) :
    List.Forall₂ (fun range text => Text.slice? range.1 range.2 cs = some text.toList)
      (plan.pieces.map Piece.range) (plan.pieces.map (cut plan cs ∘ Piece.role)) := by
  rw [List.forall₂_map_left_iff, List.forall₂_map_right_iff, List.forall₂_same]
  intro piece listed
  rcases fits piece listed with ⟨forward, starts, stops⟩
  exact slice_of_piece once listed forward starts stops

/-- The literals at the markers, and the text of the last piece, are the texts of all
pieces. -/
theorem literals_of_pieces {length : Nat} (planned : Planned outline length plan)
    (slots : ∀ occurrence ∈ outline.occurrences.toList, ∀ slot ∈ occurrence.slot,
      slot < outline.slots.size) :
    (Sweep.unskipped outline .start outline.occurrences.toList).flatMap
        (ofPlan outline plan cs).literalsAt ++ [cut plan cs (lastRole outline)] =
      plan.pieces.map (cut plan cs ∘ Piece.role) := by
  have roles := congrArg (List.map (cut plan cs)) planned.roles
  rw [List.map_map, List.map_append, List.map_flatMap] at roles
  rw [roles]
  congr 1
  apply List.flatMap_congr
  intro occurrence member
  apply literalsAt_ofPlan (slots occurrence ((Sweep.unskipped_sublist _ _).subset member))
    planned.begun
  intro role played
  rw [planned.roles]
  exact List.mem_append_left _ (List.mem_flatMap.mpr ⟨occurrence, member, played⟩)

/-- A document without markers is one piece. -/
theorem conserved_of_isEmpty (planned : Planned outline (Text.byteSize cs) plan)
    (empty : outline.occurrences.isEmpty = true) :
    ∃ ranges, Conserved outline cs ranges (literals outline (ofPlan outline plan cs)) := by
  have none : outline.occurrences.toList = [] := by simpa using empty
  have role : lastRole outline = .before := if_pos empty
  have roles := planned.roles
  rw [none, role] at roles
  have single : ∃ piece, plan.pieces = [piece] ∧ piece.role = .before := by
    simpa [Sweep.unskipped, List.map_eq_singleton_iff] using roles
  rcases single with ⟨piece, pieces, played⟩
  have starts : piece.start = 0 := planned.first piece (by rw [pieces]; rfl)
  have stops : piece.stop = Text.byteSize cs := planned.last piece (by rw [pieces]; rfl)
  have before : Text.slice? 0 (Text.byteSize cs) cs = some (cut plan cs .before).toList := by
    have slice := slice_of_piece planned.once (by rw [pieces]; exact .head _)
      (by rw [starts]; exact Nat.zero_le _) (by rw [starts]; exact Text.isBoundary_zero cs)
      (by rw [stops]; exact Text.isBoundary_byteSize cs)
    rw [starts, stops, played] at slice
    exact slice
  have idle : Role.after ∉ plan.pieces.map Piece.role := by
    rw [pieces]
    simp [played]
  have behind : Text.slice? (Text.byteSize cs) (Text.byteSize cs) cs =
      some (cut plan cs .after).toList := by
    rw [Text.slice?_empty (Text.isBoundary_byteSize cs), cut_of_not_mem idle]
    rfl
  refine ⟨[(0, Text.byteSize cs), (Text.byteSize cs, Text.byteSize cs)], ?_⟩
  apply conserved_of_slices _ rfl rfl
  · exact List.isChain_cons_cons.mpr ⟨.inl rfl, .singleton _⟩
  · rw [literals, none]
    exact .cons before (.cons behind .nil)

/-- Before the first piece of a document with markers there is nothing. -/
theorem conserved_of_not_isEmpty (planned : Planned outline (Text.byteSize cs) plan)
    (slots : ∀ occurrence ∈ outline.occurrences.toList, ∀ slot ∈ occurrence.slot,
      slot < outline.slots.size)
    (fits : ∀ piece ∈ plan.pieces, piece.start ≤ piece.stop ∧
      Text.isBoundary piece.start cs = true ∧ Text.isBoundary piece.stop cs = true)
    (filled : outline.occurrences.isEmpty = false) :
    ∃ ranges, Conserved outline cs ranges (literals outline (ofPlan outline plan cs)) := by
  have role : lastRole outline = .after := if_neg (by simp [filled])
  have idle : Role.before ∉ plan.pieces.map Piece.role := by
    rw [planned.roles, role]
    simp [rolesOf]
  have nonempty : plan.pieces ≠ [] := by
    intro empty
    have roles := planned.roles
    rw [empty] at roles
    simp at roles
  have texts := @literals_of_pieces _ _ cs _ planned slots
  rw [role] at texts
  refine ⟨(0, 0) :: plan.pieces.map Piece.range, ?_⟩
  apply conserved_of_slices
  · refine .cons ?_ ?_
    · show _ = some (cut plan cs .before).toList
      rw [Text.slice?_empty (Text.isBoundary_zero cs), cut_of_not_mem idle]
      rfl
    · have slices := slices_of_pieces planned.once fits
      rw [← texts] at slices
      exact slices
  · rfl
  · rcases List.getLast?_isSome.mpr nonempty |> Option.isSome_iff_exists.mp with ⟨last, found⟩
    have stops := planned.last last found
    cases pieces : plan.pieces with
    | nil => exact absurd pieces nonempty
    | cons piece rest =>
      rw [List.map_cons, List.getLast?_cons_cons, ← List.map_cons, List.getLast?_map, ← pieces,
        found]
      exact congrArg some stops
  · refine List.isChain_cons.mpr ⟨fun range head => ?_, (List.isChain_map _).mpr planned.chain⟩
    rw [List.head?_map] at head
    rcases Option.map_eq_some_iff.mp head with ⟨piece, first, rfl⟩
    exact .inl (planned.first piece first).symm

/-- A document that is laid out has a plan, with pieces that lie in the text. -/
theorem exists_plan_of_ofText {policy : Unterminated} {text : String} {layout : Layout}
    (accepted : ofMarkers markers policy = .ok outline) (laid : ofText outline text = .ok layout) :
    ∃ plan, layout = ofPlan outline plan text.toList ∧
      Plan.make outline (Text.byteSize text.toList) = .ok plan ∧
      Planned outline (Text.byteSize text.toList) plan ∧
      ∀ piece ∈ plan.pieces, piece.start ≤ piece.stop ∧
        Text.isBoundary piece.start text.toList = true ∧
          Text.isBoundary piece.stop text.toList = true := by
  have coherent := Outline.coherent_of_ofMarkers accepted
  rcases Outline.ofMarkers_eq_ok accepted with ⟨growth, grown, rfl⟩
  have registered := Outline.registered_of_growth grown
  rcases ofText_eq_ok.mp laid with ⟨faultless, plan, made, rfl⟩
  have boundary : ∀ occurrence ∈ growth.outline.occurrences.toList,
      Text.isBoundary occurrence.offset text.toList = true := fun occurrence listed =>
    (offsetFault?_eq_none.mp (fits_of_findSome? faultless occurrence listed)).2
  have ends : Outline.EndsAt (fun place => Text.isBoundary place text.toList = true)
      growth.outline := endsAt_of_fits grown boundary
  exact ⟨plan, rfl, made, planned_of_make coherent registered made,
    boundaries_of_make registered ends (Text.isBoundary_zero _) (Text.isBoundary_byteSize _)
      boundary made⟩

/-- The literals of every document that is laid out are slices of its text in this
order, with gaps only where repetitions are closed; if none is, they are the text. -/
theorem literals_conserved {policy : Unterminated} {text : String} {layout : Layout}
    (accepted : ofMarkers markers policy = .ok outline) (laid : ofText outline text = .ok layout) :
    (∃ ranges, Conserved outline text.toList ranges (literals outline layout)) ∧
      ((∀ id, outline.scopeIs Scope.hasEnd id = false) →
        String.join (literals outline layout) = text) := by
  rcases exists_plan_of_ofText accepted laid with ⟨plan, rfl, made, planned, fits⟩
  have slots := slot_lt_of_registered (Outline.registered_of_ofMarkers accepted)
  have conserved : ∃ ranges, Conserved outline text.toList ranges
      (literals outline (ofPlan outline plan text.toList)) := by
    cases empty : outline.occurrences.isEmpty with
    | true => exact conserved_of_isEmpty planned empty
    | false => exact conserved_of_not_isEmpty planned slots fits empty
  refine ⟨conserved, fun endless => ?_⟩
  rcases conserved with ⟨ranges, conserved⟩
  exact conserved.join endless

/-- Two rows of a repetition, of which the second is skipped, within others. -/
def ledgerSource : Source :=
  ⟨"<b>1é,1é;x:2 3</b>!", [⟨3, "d.rows[r].n"⟩, ⟨6, "d.rows[r].m"⟩, ⟨7, "d.rows[r+1].n"⟩,
    ⟨10, "d.rows[r+1].m"⟩, ⟨13, "d.bare[k].n"⟩, ⟨15, "d.name"⟩]⟩

/-- The same without ends. -/
def endlessSource : Source := ⟨"<b>1é,1é</b>", [⟨3, "d.rows[r].n"⟩, ⟨6, "d.rows[r].m"⟩]⟩

theorem literals_conserved_ledger :
    (∃ outline layout, ofMarkers ledgerSource.markers .permissive = .ok outline ∧
      ofText outline ledgerSource.text = .ok layout ∧
      ∃ ranges, Conserved outline ledgerSource.text.toList ranges (literals outline layout)) ∧
    ∃ outline layout, ofMarkers endlessSource.markers .permissive = .ok outline ∧
      ofText outline endlessSource.text = .ok layout ∧
      String.join (literals outline layout) = endlessSource.text := by
  have laysOut : (ofMarkers ledgerSource.markers .permissive >>= fun outline =>
      ofText outline ledgerSource.text).isOk = true := by decide +kernel
  have endless : (ofMarkers endlessSource.markers .permissive >>= fun outline =>
      if outline.scopes.toList.all fun scope => !scope.hasEnd then ofText outline endlessSource.text
      else .error (.stopped 0 0)).isOk = true := by decide +kernel
  constructor
  · rcases exists_of_isOk laysOut with ⟨layout, laid⟩
    rcases bind_eq_ok.mp laid with ⟨outline, accepted, laid⟩
    exact ⟨outline, layout, accepted, laid, (literals_conserved accepted laid).1⟩
  · rcases exists_of_isOk endless with ⟨layout, laid⟩
    rcases bind_eq_ok.mp laid with ⟨outline, accepted, laid⟩
    split at laid
    · next none =>
      refine ⟨outline, layout, accepted, laid, (literals_conserved accepted laid).2 fun id => ?_⟩
      unfold Outline.scopeIs
      cases found : outline.scopes[id]? with
      | none => rfl
      | some scope =>
        have listed := Array.mem_toList_iff.mpr (Array.mem_of_getElem? found)
        simpa using List.all_eq_true.mp none scope listed
    · cases laid

end Stencil.Layout
