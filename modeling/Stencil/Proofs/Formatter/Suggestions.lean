import Stencil.Formatter.Registry
import Stencil.Proofs.Text.ByteOrder
import Stencil.Proofs.Text.EditDistance

namespace Stencil.Registry

open Text (Distance distance_editDistance editDistance lowerCase bytes)

/-!
# Suggested names

A name that is suggested for another one is a registered name with the least distance to it,
and one that is near enough to be a misspelling.  Among names of that distance it is the one
that comes first.  No name is suggested only if none is near enough.
-/

variable {registry : Registry}

/-! ## Names -/

/-- The registered names are those that are listed. -/
theorem contains_iff {name : String} : registry.contains name = true ↔ name ∈ registry.names := by
  unfold contains find? names
  rw [List.lookup_isSome_iff, List.mem_map]
  constructor
  · rintro ⟨item, listed, same⟩
    exact ⟨item, listed, (beq_iff_eq.mp same).symm⟩
  · rintro ⟨item, listed, rfl⟩
    exact ⟨item, listed, beq_self_eq_true _⟩

theorem ascending_names (registry : Registry) : registry.names.Pairwise (· < ·) :=
  List.pairwise_map.mpr registry.ascending

/-! ## The first of the least distances -/

theorem nearest?_eq_none {items : List (Nat × String)} (none : nearest? items = none) :
    items = [] := by
  cases items with
  | nil => rfl
  | cons item rest =>
    unfold nearest? at none
    split at none
    · cases none
    · split at none <;> cases none

/-- What is nearest is nearer than all in front of it, and no farther than all behind. -/
theorem nearest?_eq_some {items : List (Nat × String)} {best : Nat × String}
    (found : nearest? items = some best) : ∃ front back, items = front ++ best :: back ∧
      (∀ other ∈ front, best.1 < other.1) ∧ ∀ other ∈ back, best.1 ≤ other.1 := by
  induction items generalizing best with
  | nil => cases found
  | cons item rest ih =>
    unfold nearest? at found
    split at found
    · next none =>
      cases found
      rw [nearest?_eq_none none]
      exact ⟨[], [], rfl, by simp, by simp⟩
    · next later behind =>
      rcases ih behind with ⟨front, back, rfl, nearer, farther⟩
      split at found
      · next less =>
        cases found
        exact ⟨item :: front, back, rfl, List.forall_mem_cons.mpr ⟨less, nearer⟩, farther⟩
      · next noLess =>
        cases found
        have own : item.1 ≤ later.1 := Nat.le_of_not_lt noLess
        refine ⟨[], _, rfl, by simp, List.forall_mem_append.mpr
          ⟨fun other listed => own.trans (nearer other listed).le, List.forall_mem_cons.mpr
            ⟨own, fun other listed => own.trans (farther other listed)⟩⟩⟩

/-! ## Suggestions -/

/-- A registered name that is suggested for a wanted text, with its distance from that. -/
structure Nearest (registry : Registry) (wanted : List Char) (found : String) (count : Nat) :
    Prop where
  registered : registry.contains found = true
  distance : Distance wanted (lowerCase found.toList) count
  /-- So many edits may be a slip. -/
  near : count ≤ max 2 (wanted.length / 3)
  least : ∀ other, registry.contains other = true →
    ∀ edits, Distance wanted (lowerCase other.toList) edits → count ≤ edits
  first : ∀ other, registry.contains other = true → other ≠ found →
    Distance wanted (lowerCase other.toList) count → bytes found < bytes other

theorem Nearest.unique {wanted : List Char} {found other : String} {count edits : Nat}
    (one : registry.Nearest wanted found count) (two : registry.Nearest wanted other edits) :
    found = other := by
  have same : count = edits := le_antisymm
    (one.least other two.registered edits two.distance)
    (two.least found one.registered count one.distance)
  subst same
  by_contra different
  exact List.lt_asymm (one.first other two.registered (Ne.symm different) two.distance)
    (two.first found one.registered different one.distance)

/-- The registered names that are near enough to a wanted text, with their distances. -/
def candidates (registry : Registry) (wanted : List Char) : List (Nat × String) :=
  (registry.names.map fun candidate =>
    (editDistance wanted (lowerCase candidate.toList), candidate)).filter
      fun item => item.1 ≤ tolerance wanted

theorem suggest?_eq (registry : Registry) (name : String) : registry.suggest? name =
    (nearest? (registry.candidates (lowerCase name.toList))).map Prod.snd := rfl

theorem mem_candidates {wanted : List Char} {item : Nat × String} :
    item ∈ registry.candidates wanted ↔ registry.contains item.2 = true ∧
      Distance wanted (lowerCase item.2.toList) item.1 ∧ item.1 ≤ max 2 (wanted.length / 3) := by
  rw [candidates, List.mem_filter, decide_eq_true_iff, tolerance, max_comm, List.mem_map,
    ← and_assoc, contains_iff]
  refine and_congr_left' ⟨?_, fun ⟨listed, distance⟩ => ⟨item.2, listed, ?_⟩⟩
  · rintro ⟨candidate, listed, rfl⟩
    exact ⟨listed, distance_editDistance _ _⟩
  · rw [(distance_editDistance wanted (lowerCase item.2.toList)).unique distance]

/-- Candidates come in the order of their bytes. -/
theorem ascending_candidates (registry : Registry) (wanted : List Char) :
    (registry.candidates wanted).Pairwise fun left right => bytes left.2 < bytes right.2 := by
  refine List.Pairwise.filter _ (List.pairwise_map.mpr ?_)
  exact registry.ascending_names.imp Text.bytes_lt_iff.mpr

theorem nearest_of_suggest? {name found : String}
    (suggested : registry.suggest? name = some found) :
    ∃ count, registry.Nearest (lowerCase name.toList) found count := by
  rw [suggest?_eq] at suggested
  rcases Option.map_eq_some_iff.mp suggested with ⟨best, nearest, rfl⟩
  rcases nearest?_eq_some nearest with ⟨front, back, split, nearer, farther⟩
  have own := mem_candidates.mp (split ▸ List.mem_append_right front (.head back))
  -- A name that is too far to be a candidate is farther than the best one.
  have placed : ∀ other, registry.contains other = true →
      ∀ edits, Distance (lowerCase name.toList) (lowerCase other.toList) edits →
        edits ≤ best.1 → (edits, other) ∈ front ++ best :: back := by
    intro other registered edits distance within
    rw [← split]
    exact mem_candidates.mpr ⟨registered, distance, within.trans own.2.2⟩
  have ordered := registry.ascending_candidates (lowerCase name.toList)
  rw [split, List.pairwise_append, List.pairwise_cons] at ordered
  refine ⟨best.1, own.1, own.2.1, own.2.2, ?_, ?_⟩
  · intro other registered edits distance
    by_contra less
    rcases List.mem_append.mp (placed other registered edits distance (Nat.le_of_not_le less)) with
      before | behind
    · exact less (nearer _ before).le
    · rcases List.mem_cons.mp behind with rfl | behind
      · exact less le_rfl
      · exact less (farther _ behind)
  · intro other registered different distance
    rcases List.mem_append.mp (placed other registered best.1 distance le_rfl) with before | behind
    · exact absurd (nearer _ before) (lt_irrefl _)
    · rcases List.mem_cons.mp behind with itself | behind
      · exact absurd (congrArg Prod.snd itself) different
      · exact ordered.2.1.1 _ behind

/-- Without a suggestion no registered name is near enough. -/
theorem tolerance_lt_of_suggest? {name : String} (none : registry.suggest? name = none)
    {other : String} (registered : registry.contains other = true) {edits : Nat}
    (distance : Distance (lowerCase name.toList) (lowerCase other.toList) edits) :
    max 2 ((lowerCase name.toList).length / 3) < edits := by
  rw [suggest?_eq, Option.map_eq_none_iff] at none
  by_contra within
  have listed : (edits, other) ∈ registry.candidates (lowerCase name.toList) :=
    mem_candidates.mpr ⟨registered, distance, Nat.le_of_not_lt within⟩
  rw [nearest?_eq_none none] at listed
  cases listed

/-- What is suggested for a name is the nearest registered one, and something is suggested
just if some registered name is near enough. -/
theorem suggestion_is_nearest (registry : Registry) (name : String) :
    (∀ found, registry.suggest? name = some found ↔
      ∃ count, registry.Nearest (lowerCase name.toList) found count) ∧
    ((registry.suggest? name).isSome = true ↔
      ∃ other, registry.contains other = true ∧
        ∃ edits ≤ max 2 ((lowerCase name.toList).length / 3),
          Distance (lowerCase name.toList) (lowerCase other.toList) edits) := by
  constructor
  · refine fun found => ⟨nearest_of_suggest?, fun ⟨count, nearest⟩ => ?_⟩
    cases suggested : registry.suggest? name with
    | none =>
      have far := tolerance_lt_of_suggest? suggested nearest.registered nearest.distance
      exact absurd nearest.near (Nat.not_le_of_lt far)
    | some other =>
      rcases nearest_of_suggest? suggested with ⟨_, otherNearest⟩
      rw [otherNearest.unique nearest]
  · constructor
    · intro suggested
      rcases Option.isSome_iff_exists.mp suggested with ⟨found, suggested⟩
      rcases nearest_of_suggest? suggested with ⟨count, nearest⟩
      exact ⟨found, nearest.registered, count, nearest.near, nearest.distance⟩
    · rintro ⟨other, registered, edits, within, distance⟩
      cases suggested : registry.suggest? name with
      | none =>
        have far := tolerance_lt_of_suggest? suggested registered distance
        exact absurd within (Nat.not_le_of_lt far)
      | some found => rfl

/-- Case makes no difference, and of two names that are as near the first one is suggested. -/
example : ((empty.register "shout" fun value _ => value).register "Shouts" fun value _ =>
    value).suggest? "shoutt" = some "Shouts" := by decide +kernel

end Stencil.Registry
