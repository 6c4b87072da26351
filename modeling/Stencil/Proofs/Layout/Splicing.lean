import Stencil.Proofs.Layout.Behind

namespace Stencil.Layout

/-!
# Texts in the plan of two documents

Each role has in the whole the text that it has in its own document.  One text is
longer: that of the first piece of the second document begins with what the first
document leaves behind its last marker.
-/

variable {move : Relocation} {plan : Plan} {size : Nat} {first second all : Plan}

/-! ## Texts of roles -/

theorem piece?_followedBy (front back : Plan) (role : Role) :
    (front.followedBy back).piece? role = (front.piece? role).or (back.piece? role) :=
  List.find?_append

theorem piece?_single (role other : Role) (start stop : Nat)
    (hosts : List (SlotId × Option ScopeId)) :
    (Plan.single role start stop hosts).piece? other =
      if role = other then some ⟨role, start, stop⟩ else none := by
  by_cases same : role = other <;> simp [Plan.piece?, Plan.single, same]

theorem piece?_eq_none {role : Role} (idle : ∀ piece ∈ plan.pieces, piece.role ≠ role) :
    plan.piece? role = none :=
  List.find?_eq_none.mpr fun piece listed same => idle piece listed (by simpa using same)

variable {cs ds : List Char} {between : Sweep} {last role wholeRole other : Role}

/-- Both ends of the pieces of a plan lie in a text, in order. -/
def Cuttable (cs : List Char) (plan : Plan) : Prop :=
  ∀ piece ∈ plan.pieces, piece.start ≤ piece.stop ∧
    Text.isBoundary piece.start cs = true ∧ Text.isBoundary piece.stop cs = true

theorem le_byteSize_of_isBoundary {place : Nat} (boundary : Text.isBoundary place cs = true) :
    place ≤ Text.byteSize cs := by
  rcases Option.isSome_iff_exists.mp boundary with ⟨parts, cut⟩
  rcases Text.cutAt?_eq_some cut with ⟨whole, size⟩
  rw [← whole, Text.byteSize_append, size]
  exact Nat.le_add_right _ _

/-- Before the second document a role has the text that it has in the first alone. -/
theorem Spliced.cut_first
    (spliced : Spliced move size between last role wholeRole first second all)
    (fits : Cuttable cs first) (notLast : other ≠ last) (notWhole : other ≠ wholeRole)
    (idle : ∀ piece ∈ second.pieces, move.numbers.role piece.role ≠ other) :
    cut all (cs ++ ds) other = cut first cs other := by
  rcases spliced.parts with ⟨stop, hosts, rest, parts, whole⟩
  have none : (move.numbers.plan rest).piece? other = none := by
    apply piece?_eq_none
    intro piece listed
    rcases List.mem_map.mp listed with ⟨own, member, rfl⟩
    exact idle own (by rw [parts]; exact List.mem_append_right _ member)
  have pieces : all.piece? other = first.piece? other := by
    rw [whole, spliced.first, piece?_followedBy, piece?_followedBy, piece?_followedBy, none,
      piece?_single, piece?_single, if_neg (Ne.symm notWhole), if_neg (Ne.symm notLast),
      Option.or_none, Option.or_none]
  unfold cut
  rw [pieces]
  cases found : first.piece? other with
  | none => rfl
  | some piece =>
    have within := le_byteSize_of_isBoundary (fits piece (List.mem_of_find?_eq_some found)).2.2
    rw [Option.bind_some, Option.bind_some, Text.slice?_append_left ds within]

/-- Behind the first document a role has the text that it has in the second alone. -/
theorem Spliced.cut_second
    (spliced : Spliced move (Text.byteSize cs) between last role wholeRole first second all)
    (injective : Function.Injective move.scope) (offset : move.offset = Text.byteSize cs)
    (idle : ∀ piece ∈ between.plan.pieces, piece.role ≠ move.numbers.role other) (differs : role ≠ other)
    (notWhole : wholeRole ≠ move.numbers.role other) :
    cut all (cs ++ ds) (move.numbers.role other) = cut second ds other := by
  rcases spliced.parts with ⟨stop, hosts, rest, parts, whole⟩
  have pieces : all.piece? (move.numbers.role other) = (second.piece? other).map move.numbers.piece := by
    rw [whole, parts, piece?_followedBy, piece?_followedBy, piece?_followedBy,
      piece?_eq_none idle, piece?_single, piece?_single, if_neg notWhole, if_neg differs,
      Renumbering.piece?_plan (Relocation.role_injective injective)]
    rfl
  unfold cut
  rw [pieces]
  cases second.piece? other with
  | none => rfl
  | some piece =>
    rw [Option.map_some, Option.bind_some, Option.bind_some]
    show String.ofList ((Text.slice? (piece.start + move.offset) (piece.stop + move.offset)
      (cs ++ ds)).getD []) = _
    rw [offset, Text.slice?_append_right]

/-- The text behind the last marker of the first document and that of the first piece of
the second are one text. -/
theorem Spliced.cut_splice
    (spliced : Spliced move (Text.byteSize cs) between last role wholeRole first second all)
    (fits : Cuttable cs first) (otherFits : Cuttable ds second)
    (idle : ∀ piece ∈ between.plan.pieces, piece.role ≠ wholeRole)
    (notLast : ∀ piece ∈ between.plan.pieces, piece.role ≠ last) :
    cut all (cs ++ ds) wholeRole = cut first cs last ++ cut second ds role := by
  rcases spliced.parts with ⟨stop, hosts, rest, parts, whole⟩
  have tail : first.piece? last = some ⟨last, between.position, Text.byteSize cs⟩ := by
    rw [spliced.first, piece?_followedBy, piece?_eq_none notLast, piece?_single, if_pos rfl]
    rfl
  have head : second.piece? role = some ⟨role, 0, stop⟩ := by
    rw [parts, piece?_followedBy, piece?_single, if_pos rfl]
    rfl
  have joined : all.piece? wholeRole =
      some ⟨wholeRole, between.position, stop + Text.byteSize cs⟩ := by
    rw [whole, piece?_followedBy, piece?_followedBy, piece?_eq_none idle, piece?_single,
      if_pos rfl]
    rfl
  have places := fits _ (List.mem_of_find?_eq_some tail)
  have otherPlaces := otherFits _ (List.mem_of_find?_eq_some head)
  rcases Text.exists_slice places.1 places.2.1 places.2.2 with ⟨behind, left⟩
  rcases Text.exists_slice otherPlaces.1 otherPlaces.2.1 otherPlaces.2.2 with ⟨before, right⟩
  have leftWhole : Text.slice? between.position (Text.byteSize cs) (cs ++ ds) = some behind := by
    rw [Text.slice?_append_left ds (Nat.le_refl _)]
    exact left
  have rightWhole : Text.slice? (Text.byteSize cs) (stop + Text.byteSize cs) (cs ++ ds) =
      some before := by
    have shifted := Text.slice?_append_right cs ds 0 stop
    rw [Nat.zero_add] at shifted
    rw [shifted]
    exact right
  have both : Text.slice? between.position (stop + Text.byteSize cs) (cs ++ ds) =
      some (behind ++ before) := Text.slice?_append leftWhole rightWhole
  simp only [cut, tail, head, joined, Option.bind_some] at left right ⊢
  rw [both, left, right]
  simp [String.ofList_append]

/-! ## Seats of both -/

theorem Spliced.hosts (spliced : Spliced move size between last role wholeRole first second all) :
    all.hosts = second.hosts.map move.numbers.seat ++ first.hosts := by
  rcases spliced.parts with ⟨stop, hosts, rest, rfl, rfl⟩
  rw [spliced.first]
  simp [Plan.followedBy, Plan.single, Renumbering.plan]

theorem Spliced.dropped
    (spliced : Spliced move size between last role wholeRole first second all) :
    all.dropped = second.dropped.map (· + move.slot) ++ first.dropped := by
  rcases spliced.parts with ⟨stop, hosts, rest, rfl, rfl⟩
  rw [spliced.first]
  simp [Plan.followedBy, Plan.single, Renumbering.plan, Relocation.numbers]

/-- Slots of the first document keep their hosts. -/
theorem Spliced.host_first
    (spliced : Spliced move size between last role wholeRole first second all) {id : SlotId}
    (early : id < move.slot) : all.host id = first.host id := by
  have none : (second.hosts.map move.numbers.seat).lookup id = none := by
    rw [List.lookup_eq_none_iff]
    intro seat listed
    rcases List.mem_map.mp listed with ⟨own, -, rfl⟩
    have differs : id ≠ own.1 + move.slot :=
      Nat.ne_of_lt (Nat.lt_of_lt_of_le early (Nat.le_add_left _ _))
    simpa [Renumbering.seat, Relocation.numbers] using differs
  unfold Plan.host
  rw [spliced.hosts, List.lookup_append, none, Option.none_or]

/-- Slots of the second have hosts further on. -/
theorem Spliced.host_second
    (spliced : Spliced move size between last role wholeRole first second all)
    (within : ∀ seat ∈ first.hosts, seat.1 < move.slot) (id : SlotId) :
    all.host (id + move.slot) = (second.host id).map move.scope := by
  have none : first.hosts.lookup (id + move.slot) = none := by
    rw [List.lookup_eq_none_iff]
    intro seat listed
    have differs : id + move.slot ≠ seat.1 :=
      Nat.ne_of_gt (Nat.lt_of_lt_of_le (within seat listed) (Nat.le_add_left _ _))
    simpa using differs
  have moved : (second.hosts.map move.numbers.seat).lookup (id + move.slot) =
      (second.hosts.lookup id).map (Option.map move.scope) :=
    Renumbering.lookup_map_seat move.slot_injective second.hosts id
  unfold Plan.host
  rw [spliced.hosts, List.lookup_append, none, Option.or_none, moved]
  cases second.hosts.lookup id with
  | none => rfl
  | some host => cases host <;> rfl

theorem Spliced.dropped_first
    (spliced : Spliced move size between last role wholeRole first second all) {id : SlotId}
    (early : id < move.slot) : all.dropped.contains id = first.dropped.contains id := by
  rw [Bool.eq_iff_iff, List.contains_iff_mem, List.contains_iff_mem, spliced.dropped,
    List.mem_append]
  constructor
  · rintro (later | own)
    · rcases List.mem_map.mp later with ⟨other, -, rfl⟩
      exact absurd early (Nat.not_lt_of_le (Nat.le_add_left _ _))
    · exact own
  · exact .inr

theorem Spliced.dropped_second
    (spliced : Spliced move size between last role wholeRole first second all)
    (within : ∀ id ∈ first.dropped, id < move.slot) (id : SlotId) :
    all.dropped.contains (id + move.slot) = second.dropped.contains id := by
  rw [Bool.eq_iff_iff, List.contains_iff_mem, List.contains_iff_mem, spliced.dropped,
    List.mem_append]
  constructor
  · rintro (own | early)
    · rcases List.mem_map.mp own with ⟨other, listed, same⟩
      rw [← Nat.add_right_cancel same]
      exact listed
    · exact absurd (within _ early) (Nat.not_lt_of_le (Nat.le_add_left _ _))
  · exact fun own => .inl (List.mem_map_of_mem own)

end Stencil.Layout
