import Mathlib.Data.List.Nodup
import Mathlib.Data.List.Flatten
import Stencil.Proofs.Layout.Standing
import Stencil.Proofs.Text.Slices

namespace Stencil.Layout

open Outline (Rooted Registered Coherent)

/-!
# The pieces of a document and their roles

A marker that is not skipped makes one piece for every repetition it ends, innermost
first, one for every repetition it begins, outermost first, and one for its value.  No
role is played twice, so what a layout says under a role is the text of just one
piece.
-/

variable {outline : Outline} {occurrence : Occurrence} {sweep after : Sweep}
  {markers : List Marker}

/-- The roles of the pieces before and at a marker, in the order of the document. -/
def rolesOf (occurrence : Occurrence) : List Role :=
  occurrence.closes.reverse.map .separator ++ occurrence.opens.map .opening ++
    occurrence.slot.toList.map .leading

namespace Sweep

instance (sweep : Sweep) (place : Nat) : Decidable (sweep.Skips place) :=
  inferInstanceAs (Decidable (_ ∨ _))

/-- Nothing is skipped at the start. -/
theorem not_skips_start (place : Nat) : ¬ start.Skips place := by
  rintro (impossible | impossible)
  · exact Nat.not_lt_zero _ impossible
  · cases impossible

/-- The role of the piece that an action makes. -/
def Action.role : Action → Role
  | .close scope => .separator scope
  | .openRow scope => .opening scope
  | .insert slot => .leading slot

theorem rolesOf_eq_map (occurrence : Occurrence) :
    rolesOf occurrence = (actionsOf occurrence).map Action.role := by
  simp [rolesOf, actionsOf, Function.comp_def, Action.role]

/-- Those of some markers that the sweep does not skip. -/
def unskipped (outline : Outline) : Sweep → List Occurrence → List Occurrence
  | _, [] => []
  | sweep, occurrence :: rest =>
    match pass outline sweep occurrence with
    | .error _ => []
    | .ok after =>
      if sweep.Skips occurrence.offset then unskipped outline after rest
      else occurrence :: unskipped outline after rest

theorem unskipped_append {taken : List Occurrence} :
    ∀ {begun before : Sweep}, taken.foldlM (pass outline) begun = .ok before →
      pass outline before occurrence = .ok after →
        unskipped outline begun (taken ++ [occurrence]) = unskipped outline begun taken ++
          if before.Skips occurrence.offset then [] else [occurrence] := by
  induction taken with
  | nil =>
    intro begun before ran run
    rw [← foldlM_nil_eq_ok.mp ran] at run ⊢
    simp [unskipped, run]
  | cons first rest ih =>
    intro begun before ran run
    rcases foldlM_cons_eq_ok.mp ran with ⟨between, passes, ran⟩
    simp only [List.cons_append, unskipped, passes, ih ran run]
    split <;> simp

theorem unskipped_sublist (occurrences : List Occurrence) :
    ∀ sweep : Sweep, (unskipped outline sweep occurrences).Sublist occurrences := by
  induction occurrences with
  | nil => exact fun _ => List.Sublist.refl _
  | cons occurrence rest ih =>
    intro sweep
    unfold unskipped
    split
    · exact List.nil_sublist _
    · next after _ =>
      split
      · exact (ih after).cons _
      · exact (ih after).cons_cons _

/-! ## Pieces -/

/-- The roles of the pieces assigned so far. -/
def roles (sweep : Sweep) : List Role := sweep.plan.pieces.map Piece.role

theorem roles_assign (sweep : Sweep) (role : Role) (start stop : Nat) :
    (sweep.assign role start stop).roles = sweep.roles ++ [role] := by
  simp [roles, assign]

theorem roles_act {action : Action} (run : act outline occurrence sweep action = .ok after) :
    after.roles = sweep.roles ++ [action.role] := by
  cases action with
  | close scope =>
    rcases close_eq_ok.mp run with ⟨row, rest, -, rfl, rfl⟩
    exact roles_assign sweep (.separator row.scope) (min sweep.position occurrence.offset)
      occurrence.offset
  | openRow id =>
    rcases openRow_eq_ok.mp run with ⟨scope, -, -, -, rfl⟩
    exact roles_assign sweep (.opening id) sweep.position occurrence.offset
  | insert id =>
    rcases insert_eq_ok.mp run with ⟨slot, host, -, -, -, rfl⟩
    exact roles_assign sweep (.leading id) sweep.position occurrence.offset

theorem roles_read (run : read outline occurrence sweep = .ok after) :
    after.roles = sweep.roles ++ rolesOf occurrence := by
  rw [read_eq_actions] at run
  rw [rolesOf_eq_map]
  refine foldlM_induction_from_nil
    (motive := fun taken state => state.roles = sweep.roles ++ taken.map Action.role)
    (fun taken action before after same run => ?_) _ (by simp) run
  rw [roles_act run, same, List.map_append, List.map_singleton, List.append_assoc]

/-- A skipped marker makes no piece. -/
theorem pieces_skip (skips : sweep.Skips occurrence.offset)
    (run : pass outline sweep occurrence = .ok after) :
    after.plan.pieces = sweep.plan.pieces ∧ after.rows = sweep.rows := by
  rw [pass_of_skips skips] at run
  rcases skip_eq_ok.mp run with ⟨-, -, rfl⟩
  unfold passed
  split <;> exact ⟨rfl, rfl⟩

theorem roles_of_run {taken : List Occurrence}
    (run : taken.foldlM (pass outline) start = .ok sweep) :
    sweep.roles = (unskipped outline start taken).flatMap rolesOf := by
  refine foldlM_induction_along
    (motive := fun taken sweep => sweep.roles = (unskipped outline start taken).flatMap rolesOf)
    (fun taken occurrence before after _ ran same run => ?_) rfl run
  rw [unskipped_append ran run, List.flatMap_append, ← same]
  split
  · next skips =>
    rw [List.flatMap_nil, List.append_nil, roles, (pieces_skip skips run).1]
    rfl
  · next reads =>
    rw [pass_of_not_skips reads] at run
    rw [List.flatMap_singleton]
    exact roles_read run

/-! ## Openings -/

/-- Repetitions that are being read or have been ended have an opening. -/
structure Begun (sweep : Sweep) : Prop where
  rows : ∀ row ∈ sweep.rows, Role.opening row.scope ∈ sweep.roles
  ended : ∀ scope, Role.separator scope ∈ sweep.roles → Role.opening scope ∈ sweep.roles

/-- One more role, and what it ends has an opening. -/
theorem Begun.ended_concat (begun : Begun sweep) {role : Role}
    (opens : ∀ scope, role = .separator scope → Role.opening scope ∈ sweep.roles) :
    ∀ scope, Role.separator scope ∈ sweep.roles ++ [role] →
      Role.opening scope ∈ sweep.roles ++ [role] := by
  intro scope listed
  refine List.mem_append_left _ ?_
  rcases List.mem_append.mp listed with old | new
  · exact begun.ended scope old
  · exact opens scope (List.mem_singleton.mp new).symm

theorem Begun.closed (begun : Begun sweep) {row : OpenRow} {rest : List OpenRow}
    (rows : sweep.rows = row :: rest) (place : Nat) : Begun (sweep.closed row rest place) := by
  have more : (sweep.closed row rest place).roles = sweep.roles ++ [.separator row.scope] :=
    roles_assign sweep _ _ _
  refine ⟨fun other listed => ?_, ?_⟩
  · rw [more]
    exact List.mem_append_left _ (begun.rows other (by rw [rows]; exact .tail _ listed))
  · rw [more]
    refine begun.ended_concat fun scope same => ?_
    cases same
    exact begun.rows row (by rw [rows]; exact .head _)

theorem scope_of_rowOf? {scope : Scope} {id : ScopeId} {place : Nat} {row : OpenRow}
    (made : rowOf? scope id place = some row) : row.scope = id := by
  unfold rowOf? at made
  split at made
  · rcases Option.map_eq_some_iff.mp made with ⟨closing, -, rfl⟩
    rfl
  · cases made

theorem Begun.opened (begun : Begun sweep) (scope : Scope) (id : ScopeId) (place : Nat) :
    Begun (sweep.opened scope id place) := by
  have more : (sweep.opened scope id place).roles = sweep.roles ++ [.opening id] :=
    roles_assign sweep _ _ _
  refine ⟨fun row listed => ?_, ?_⟩
  · rw [more]
    rcases List.mem_append.mp listed with new | old
    · rw [scope_of_rowOf? (Option.mem_toList.mp new)]
      exact List.mem_append_right _ (.head _)
    · exact List.mem_append_left _ (begun.rows row old)
  · rw [more]
    exact begun.ended_concat fun scope impossible => nomatch impossible

theorem Begun.inserted (begun : Begun sweep) (id : SlotId) (host : Option ScopeId) (place : Nat) :
    Begun (sweep.inserted id host place) := by
  have more : (sweep.inserted id host place).roles = sweep.roles ++ [.leading id] :=
    roles_assign sweep _ _ _
  refine ⟨fun row listed => ?_, ?_⟩
  · rw [more]
    have known : row.scope ∈ (extendTail place sweep.rows).map OpenRow.scope :=
      List.mem_map_of_mem listed
    rw [reading_extendTail] at known
    rcases List.mem_map.mp known with ⟨earlier, listedEarlier, named⟩
    rw [← named]
    exact List.mem_append_left _ (begun.rows earlier listedEarlier)
  · rw [more]
    exact begun.ended_concat fun scope impossible => nomatch impossible

theorem Begun.pass (begun : Begun sweep) (run : pass outline sweep occurrence = .ok after) :
    Begun after := by
  by_cases skips : sweep.Skips occurrence.offset
  · rcases pieces_skip skips run with ⟨pieces, rows⟩
    have same : after.roles = sweep.roles := congrArg (List.map Piece.role) pieces
    exact ⟨by rw [rows, same]; exact begun.rows, by rw [same]; exact begun.ended⟩
  · rw [pass_of_not_skips skips] at run
    rcases read_eq_ok.mp run with ⟨closed, opened, first, second, third⟩
    have ends : Begun closed := by
      refine foldlM_induction (fun before scope after _ begun run => ?_) begun first
      rcases close_eq_ok.mp run with ⟨row, rest, rows, -, rfl⟩
      exact begun.closed rows _
    have starts : Begun opened := by
      refine foldlM_induction (fun before id after _ begun run => ?_) ends second
      rcases openRow_eq_ok.mp run with ⟨scope, -, -, -, rfl⟩
      exact begun.opened scope id _
    refine foldlM_induction (fun before id after _ begun run => ?_) starts third
    rcases insert_eq_ok.mp run with ⟨slot, host, -, -, -, rfl⟩
    exact begun.inserted id host _

theorem begun_of_run {taken : List Occurrence}
    (run : taken.foldlM (pass outline) start = .ok sweep) : Begun sweep := by
  refine foldlM_induction (fun before occurrence after _ begun run => begun.pass run) ?_ run
  exact ⟨fun _ impossible => (by cases impossible), fun _ impossible => (by cases impossible)⟩

end Sweep

/-! ## Roles are played once -/

theorem nodup_rolesOf (registered : Registered markers outline)
    (listed : occurrence ∈ outline.occurrences.toList) : (rolesOf occurrence).Nodup := by
  have closes := (List.nodup_flatMap.mp registered.closesOnce).1 occurrence listed
  have opensOnce := Outline.nodup_arrays outline
  rw [← registered.arrays] at opensOnce
  have opens := (List.nodup_flatMap.mp opensOnce).1 occurrence listed
  unfold rolesOf
  rw [List.nodup_append, List.nodup_append]
  refine ⟨⟨?_, ?_, ?_⟩, ?_, ?_⟩
  · exact (List.nodup_reverse.mpr closes).map fun _ _ same => Role.separator.inj same
  · exact opens.map fun _ _ same => Role.opening.inj same
  · simp
  · cases occurrence.slot <;> simp
  · intro role member other last
    rcases List.mem_map.mp last with ⟨slot, -, rfl⟩
    rcases List.mem_append.mp member with ends | starts
    · rcases List.mem_map.mp ends with ⟨scope, -, rfl⟩
      exact Role.noConfusion
    · rcases List.mem_map.mp starts with ⟨scope, -, rfl⟩
      exact Role.noConfusion

/-- No two markers end or begin one repetition or insert one value. -/
theorem nodup_roles (coherent : Coherent outline) (registered : Registered markers outline) :
    (outline.occurrences.toList.flatMap rolesOf).Nodup := by
  have closes := (List.nodup_flatMap.mp registered.closesOnce).2
  have opensOnce := Outline.nodup_arrays outline
  rw [← registered.arrays] at opensOnce
  have opens := (List.nodup_flatMap.mp opensOnce).2
  have slotsOnce : (outline.occurrences.toList.flatMap fun occurrence =>
      occurrence.slot.toList).Nodup := by
    rw [← List.filterMap_eq_flatMap_toList, coherent.listed]
    exact List.nodup_range
  have slots := (List.nodup_flatMap.mp slotsOnce).2
  refine List.nodup_flatMap.mpr
    ⟨fun occurrence listed => nodup_rolesOf registered listed, ?_⟩
  refine ((closes.and opens).and slots).imp ?_
  rintro left right ⟨⟨closesApart, opensApart⟩, slotsApart⟩ role first second
  cases role with
  | separator scope =>
    apply closesApart (a := scope)
    · simpa [rolesOf] using first
    · simpa [rolesOf] using second
  | opening scope =>
    apply opensApart (a := scope)
    · simpa [rolesOf] using first
    · simpa [rolesOf] using second
  | leading slot =>
    apply slotsApart (a := slot)
    · simpa [rolesOf] using first
    · simpa [rolesOf] using second
  | before => simp [rolesOf] at first
  | after => simp [rolesOf] at first

/-- The piece that plays a role is found under it. -/
theorem piece?_of_mem {plan : Plan} (once : (plan.pieces.map Piece.role).Nodup) {piece : Piece}
    (listed : piece ∈ plan.pieces) : plan.piece? piece.role = some piece := by
  rcases List.append_of_mem listed with ⟨front, back, split⟩
  unfold Plan.piece?
  rw [split, List.map_append, List.map_cons, List.nodup_append] at once
  refine List.find?_eq_some_iff_append.mpr ⟨by simp, front, back, split, fun other member => ?_⟩
  have differs := once.2.2 other.role (List.mem_map_of_mem member) piece.role (.head _)
  simpa using differs

end Stencil.Layout
