import Stencil.Proofs.Marker.Names
import Stencil.Proofs.Outline.Lookups
import Stencil.Proofs.Outline.Origins

namespace Stencil

/-!
# Attributes are used in one way

An attribute is used as an object, or as an array that is iterated over or searched, but
under one scope not in both ways.  What is compared are keys: the key of an object against
those of attributes used as arrays, and the other way round.  A key of an attribute ends
in its name and a key of a group in a bracket, so a key tells the scope it was used from
and the name, even where conditions are written so that keys of groups are confused.
-/

/-- The attribute, if that is what is reached. -/
def Access.field? : Access → Option String
  | .field name => some name
  | .whole => none
  | .search _ _ => none

theorem Access.field?_eq_some {access : Access} {name : String} :
    access.field? = some name ↔ access = .field name := by
  cases access <;> simp [field?]

/-- A scope that is an attribute used as an object. -/
def Scope.IsObject (name : String) (scope : Scope) : Prop :=
  scope.isArray = false ∧ scope.access = .field name

instance (name : String) (scope : Scope) : Decidable (scope.IsObject name) :=
  decidable_of_iff (scope.isArray = false ∧ scope.access.field? = some name)
    (and_congr_right fun _ => Access.field?_eq_some)

/-- A scope that iterates over an attribute or searches it. -/
def Scope.IsArrayOf (name : String) (scope : Scope) : Prop :=
  scope.isArray = true ∧ scope.access = .field name ∨
    ∃ conditions, scope.access = .search (some name) conditions

namespace Outline

open Marker (Step)

variable {growth : Growth} {progress : Progress} {step : Step} {after : Walk}
  {markers : List Marker} {name : String}

/-! ## Steps -/

/-- A step to an attribute as an object. -/
def AsObject (name : String) (step : Step) : Prop := step = .object name

/-- A step that iterates over an attribute or searches it. -/
def AsArray (name : String) (step : Step) : Prop :=
  ∃ use, step = .group name true use ∧ terminates step = false

/-- Behind some markers, a marker stands before this step of its path. -/
def StandsBefore (earlier : List Marker) (marker : Marker) (step : Step) (walk : Walk) : Prop :=
  ∃ begun read front back, earlier.foldlM grow Growth.start = .ok begun ∧
    readMarker marker = .ok read ∧ read.path.steps.1 = front ++ step :: back ∧
    front.foldlM walkStep (begun, beginWalk begun marker) = .ok walk ∧ walk.2.lost = false

/-- One of some markers takes a step from a scope to another. -/
def Uses (markers : List Marker) (parent : ScopeId) (step : Step) : Prop :=
  ∃ earlier marker later walk after, markers = earlier ++ marker :: later ∧
    StandsBefore earlier marker step walk ∧ walk.2.scope = parent ∧
    walkStep walk step = .ok after ∧ after.2.lost = false

theorem Uses.further {parent : ScopeId} (uses : Uses markers parent step) (more : List Marker) :
    Uses (markers ++ more) parent step := by
  rcases uses with ⟨earlier, marker, later, walk, after, rfl, rest⟩
  exact ⟨earlier, marker, later ++ more, walk, after, by simp, rest⟩

/-- A name as it is read from a path. -/
structure Named (name : String) : Prop where
  point : '.' ∉ name.toList
  bracket : ']' ∉ name.toList

theorem named_of_mem_steps {marker : Marker} {read : ReadMarker}
    (reading : readMarker marker = .ok read) (member : step ∈ read.path.steps.1)
    (follows : step.footprint.name = some name) : Named name := by
  have path := (readMarker_eq_ok reading).2
  refine Marker.forall_followed (motive := Named) (fun segment listed => ⟨fun point => ?_, ?_⟩) member
    follows
  · exact ((Marker.read_of_readPath path segment listed).name _ point).1 rfl
  · exact Marker.not_mem_bracket_of_readPath path segment listed

theorem StandsBefore.named {earlier : List Marker} {marker : Marker} {walk : Walk}
    (stands : StandsBefore earlier marker step walk) (follows : step.footprint.name = some name) :
    Named name := by
  rcases stands with ⟨begun, read, front, back, -, reading, split, -, -⟩
  refine named_of_mem_steps reading ?_ follows
  rw [split]
  exact List.mem_append_right _ (.head _)

theorem Uses.named {parent : ScopeId} (uses : Uses markers parent step)
    (follows : step.footprint.name = some name) : Named name := by
  rcases uses with ⟨earlier, marker, later, walk, after, -, stands, -⟩
  exact stands.named follows

theorem AsArray.name_footprint (array : AsArray name step) : step.footprint.name = some name := by
  rcases array with ⟨use, rfl, -⟩
  rfl

/-! ## Keys -/

theorem toList_attributeKey (key name : String) :
    (attributeKey key name).toList = key.toList ++ '.' :: name.toList := by
  simp [attributeKey]

/-- The key of an attribute tells the scope and the name. -/
theorem attributeKey_inj {key otherKey other : String} (named : Named name) (otherNamed : Named other)
    (same : attributeKey key name = attributeKey otherKey other) :
    key = otherKey ∧ name = other := by
  have texts := congrArg String.toList same
  rw [toList_attributeKey, toList_attributeKey] at texts
  rcases List.append_eq_append_iff.mp texts with ⟨more, keys, names⟩ | ⟨more, keys, names⟩
  · cases more with
    | nil =>
      rw [List.append_nil] at keys
      exact ⟨(String.toList_inj.mp keys).symm, String.toList_inj.mp (List.cons.inj names).2⟩
    | cons c rest =>
      refine absurd ?_ named.point
      rw [(List.cons.inj names).2]
      exact List.mem_append_right _ (.head _)
  · cases more with
    | nil =>
      rw [List.append_nil] at keys
      exact ⟨String.toList_inj.mp keys, (String.toList_inj.mp (List.cons.inj names).2).symm⟩
    | cons c rest =>
      refine absurd ?_ otherNamed.point
      rw [(List.cons.inj names).2]
      exact List.mem_append_right _ (.head _)

/-- The key of a group ends in a bracket. -/
theorem getLast?_groupKey (name : String) (follows : Bool) (use : Marker.GroupUse) :
    (Step.group name follows use).groupKey.toList.getLast? = some ']' := by
  cases use with
  | search conditions =>
    show ("[" ++ Condition.listText conditions ++ "]").toList.getLast? = some ']'
    rw [String.toList_append]
    exact List.getLast?_concat
  | loop | terminate => simp [Step.groupKey]

/-- A key that is one of an attribute was made by a step to it as an object. -/
theorem eq_object_of_key {key otherKey : String} (named : Named name)
    (own : ∀ name, step.footprint.name = some name → Named name)
    (same : key ++ step.attributeKey ++ step.groupKey = attributeKey otherKey name) :
    key = otherKey ∧ step = .object name := by
  cases step with
  | object other =>
    have keys : attributeKey key other = attributeKey otherKey name := by
      rw [← same]
      simp [Step.attributeKey, Step.groupKey, attributeKey]
    rcases attributeKey_inj (own other rfl) named keys with ⟨rfl, rfl⟩
    exact ⟨rfl, rfl⟩
  | group other follows use =>
    have last := congrArg (fun key => key.toList.getLast?) same
    simp only [toList_attributeKey, String.toList_append] at last
    rw [List.getLast?_append, getLast?_groupKey, List.getLast?_append_of_ne_nil _
      (List.cons_ne_nil _ _), Option.some_or] at last
    have inside : ']' ∈ '.' :: name.toList := List.mem_of_getLast? last.symm
    rcases List.mem_cons.mp inside with impossible | inside
    · cases impossible
    · exact absurd inside named.bracket

theorem groupKey_of_repeats (repeated : repeats step = true) : step.groupKey = "[]" := by
  match step, repeated with
  | .group _ _ (.loop _ _), _ => rfl

/-- A key that is one of a dimension was made by a step that repeats. -/
theorem repeats_of_key {other : Step} {key otherKey : String}
    (own : ∀ name, step.footprint.name = some name → Named name)
    (otherOwn : ∀ name, other.footprint.name = some name → Named name) (written : step.Written)
    (goes : terminates step = false) (repeated : repeats other = true)
    (same : key ++ step.attributeKey ++ step.groupKey =
      otherKey ++ other.attributeKey ++ other.groupKey) : repeats step = true := by
  match step, own, written, goes, same with
  | .object name, own, _, _, same =>
    have plain : otherKey ++ other.attributeKey ++ other.groupKey = attributeKey key name := by
      rw [← same]
      simp [Step.attributeKey, Step.groupKey, attributeKey]
    rw [(eq_object_of_key (own name rfl) otherOwn plain).2] at repeated
    cases repeated
  | .group name follows (.search conditions), _, written, _, same =>
    -- In front of the last bracket stands a condition, and not the bracket that begins the group.
    rw [groupKey_of_repeats repeated] at same
    have texts := congrArg String.toList same
    have brackets : "[]".toList = ['['] ++ [']'] := rfl
    simp only [Step.groupKey, String.toList_append, brackets, ← List.append_assoc] at texts
    have last := congrArg List.getLast? (List.append_inj' texts rfl).1
    rcases written.searches name follows conditions rfl with ⟨nonempty, each⟩
    exact absurd (last.trans List.getLast?_concat)
      (Condition.getLast?_listText_ne nonempty each _)
  | .group _ _ (.loop _ _), _, _, _, _ => rfl

theorem key_ne_empty (key : String) (step : Step) :
    key ++ step.attributeKey ++ step.groupKey ≠ "" := by
  intro empty
  have text := congrArg String.toList empty
  rw [String.toList_append, String.toList_append, List.append_assoc, Step.toList_key] at text
  cases step <;>
    simp [Step.footprint, Marker.Footprint.text, Marker.Footprint.nameText,
      Marker.Footprint.groupText] at text

theorem keyAt_ne_empty (progress : Progress) (step : Step) : progress.keyAt step ≠ "" :=
  key_ne_empty progress.key step

/-! ## Keys and scopes -/

/-- The key of a scope; that of the payload is empty. -/
def KeyOf (growth : Growth) (id : ScopeId) (key : String) : Prop :=
  id = root ∧ key = "" ∨ growth.find? key = some id

/-- Every scope has one key, and no key is that of two scopes. -/
structure Unambiguous (growth : Growth) : Prop where
  inside : KeysInside growth
  filled : growth.find? "" = none
  once : ∀ key other id, growth.find? key = some id → growth.find? other = some id → key = other

theorem unambiguous_start : Unambiguous Growth.start where
  inside := keysInside_start
  filled := rfl
  once _ _ _ impossible := by cases impossible

theorem KeyOf.key_eq {id : ScopeId} {key other : String} (keyed : KeyOf growth id key)
    (unambiguous : Unambiguous growth) (otherKeyed : KeyOf growth id other) : key = other := by
  rcases keyed with ⟨rfl, rfl⟩ | known
  · rcases otherKeyed with ⟨-, rfl⟩ | known
    · rfl
    · exact absurd known (unambiguous.inside _)
  · rcases otherKeyed with ⟨rfl, -⟩ | otherKnown
    · exact absurd known (unambiguous.inside _)
    · exact unambiguous.once _ _ _ known otherKnown

theorem KeyOf.scope_eq {id other : ScopeId} {key : String} (keyed : KeyOf growth id key)
    (unambiguous : Unambiguous growth) (otherKeyed : KeyOf growth other key) : id = other := by
  have filled : ∀ {id}, growth.find? "" ≠ some id := by
    intro id known
    rw [unambiguous.filled] at known
    cases known
  rcases keyed with ⟨rfl, rfl⟩ | known
  · rcases otherKeyed with ⟨rfl, -⟩ | known
    · rfl
    · exact absurd known filled
  · rcases otherKeyed with ⟨-, rfl⟩ | otherKnown
    · exact absurd known filled
    · exact Option.some.inj (known.symm.trans otherKnown)

theorem Taken.find?_eq_some (taking : Taken growth progress step after) {key : String} {id : Nat}
    (known : growth.find? key = some id) : after.1.find? key = some id := by
  cases taking with
  | astray | missing | found | narrowed | ended => exact known
  | made arrayKey onTrack unknown =>
    rw [find?_addScope, if_neg]
    · exact known
    · rintro rfl
      rw [unknown] at known
      cases known

theorem KeyOf.onward {id : ScopeId} {key : String} (keyed : KeyOf growth id key)
    (taking : Taken growth progress step after) : KeyOf after.1 id key :=
  keyed.imp_right taking.find?_eq_some

theorem KeyOf.run {steps : List Step} {before after : Walk} {id : ScopeId} {key : String}
    (keyed : KeyOf before.1 id key) (run : steps.foldlM walkStep before = .ok after) :
    KeyOf after.1 id key :=
  foldlM_induction (motive := fun walk => KeyOf walk.1 id key)
    (fun _ _ _ _ keyed taking => keyed.onward (taken_of_walkStep taking)) keyed run

theorem Taken.unambiguous (taking : Taken growth progress step after) (sound : Sound growth)
    (unambiguous : Unambiguous growth) : Unambiguous after.1 := by
  have inside := taking.keysInside sound.coherent.rooted unambiguous.inside
  cases taking with
  | astray | missing | found | narrowed | ended => exact ⟨inside, unambiguous.filled, unambiguous.once⟩
  | made arrayKey onTrack unknown =>
    have fresh : ∀ {key}, growth.find? key ≠ some growth.outline.scopes.size :=
      fun known => Nat.lt_irrefl _ (sound.known _ _ known)
    refine ⟨inside, ?_, fun key other id known otherKnown => ?_⟩
    · rw [find?_addScope, if_neg (keyAt_ne_empty progress step).symm]
      exact unambiguous.filled
    · rw [find?_addScope] at known otherKnown
      split at known
      · cases known
        split at otherKnown
        · next first second => exact first.trans second.symm
        · exact absurd otherKnown fresh
      · split at otherKnown
        · cases otherKnown
          exact absurd known fresh
        · exact unambiguous.once key other id known otherKnown

/-- The walk stands at the scope of its key. -/
theorem Taken.keyOf (taking : Taken growth progress step after)
    (keyed : progress.lost = false → KeyOf growth progress.scope progress.key)
    (onTrack : after.2.lost = false) : KeyOf after.1 after.2.scope after.2.key := by
  cases taking with
  | astray lost => exact keyed onTrack
  | missing => cases onTrack
  | found id _ known => exact .inr known
  | narrowed id name follows iterator conditions _ known => exact .inr known
  | made =>
    refine .inr ?_
    show (growth.addScope _ _ _).find? (progress.keyAt step) = _
    rw [find?_addScope, if_pos rfl]
    rfl
  | ended id name follows iterator _ known => exact .inr known

/-! ## What a step compares -/

/-- A step would use an attribute in one way that is used in the other. -/
def Mixes (growth : Growth) (progress : Progress) (step : Step) (name : String) : Prop :=
  AsObject name step ∧ attributeKey progress.key name ∈ growth.arrayKeys ∨
    AsArray name step ∧ (growth.find? (attributeKey progress.key name)).isSome = true

/-- A scope is made where the attribute is not used in the other way. -/
structure Makes (growth : Growth) (progress : Progress) (step : Step) (made : Growth) : Prop where
  apart : ∀ name, ¬ Mixes growth progress step name
  made : made = growth.addScope (progress.keyAt step) (scopeMade growth progress step)
    (progress.arrayKeyAt step)

/-- A step mixes up only the use of the attribute that it names. -/
theorem refuses_iff (goes : terminates step = false) :
    growth.refuses progress step = true ↔ Mixes growth progress step (nameMade step) := by
  match step, goes with
  | .object own, _ =>
    constructor
    · exact fun marked => .inl ⟨rfl, List.contains_iff_mem.mp marked⟩
    · rintro (⟨-, marked⟩ | ⟨⟨use, impossible, -⟩, -⟩)
      · exact List.contains_iff_mem.mpr marked
      · cases impossible
  | .group own follows use, goes =>
    constructor
    · intro used
      rcases Bool.and_eq_true_iff.mp used with ⟨rfl, found⟩
      exact .inr ⟨⟨use, rfl, goes⟩, found⟩
    · rintro (⟨impossible, -⟩ | ⟨⟨_, same, -⟩, used⟩)
      · cases impossible
      · cases same
        exact used

theorem Mixes.name_eq (mixes : Mixes growth progress step name) : nameMade step = name := by
  rcases mixes with ⟨rfl, -⟩ | ⟨⟨use, rfl, -⟩, -⟩
  · rfl
  · rfl

/-- Where a step does not find a scope it makes one, and the attribute is not used in the
other way. -/
theorem makes_of_walkStep (onTrack : progress.lost = false)
    (unknown : growth.find? (progress.keyAt step) = none) (opening : progress.closing = false)
    (run : walkStep (growth, progress) step = .ok after) : Makes growth progress step after.1 := by
  rcases made_of_walkStep onTrack unknown opening run with ⟨goes, accepted, rfl⟩
  refine ⟨fun other mixes => ?_, rfl⟩
  rw [← mixes.name_eq, ← refuses_iff goes, accepted] at mixes
  cases mixes

/-! ## What is refused -/

variable {path : String}

/-- A step is refused for mixed use only where the attribute is used in the other way. -/
theorem mixes_of_conflict
    (run : walkStep (growth, progress) step = .error (.conflictingUse path name)) :
    progress.lost = false ∧ path = progress.marker.path ∧ Mixes growth progress step name := by
  rcases walkStep_eq_error run with ⟨onTrack, ⟨goes, refused, same⟩ | ⟨_, _, impossible⟩⟩
  · cases same
    exact ⟨onTrack, rfl, (refuses_iff goes).mp refused⟩
  · cases impossible

end Outline

end Stencil
