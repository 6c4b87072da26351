import Stencil.Proofs.Meaning.Levels
import Stencil.Proofs.Outline.Relocation

namespace Stencil.Meaning

open Program (Member)
open Outline (Rooted)

/-!
# Bindings of a part of a document

The scopes of a part are reached in the whole as they are alone, from the same scopes in
the same way.  So if they are bound to the same values around a body, they are so in it,
and what is inserted has the same text.
-/

/-! ## Objects -/

variable {objects : List Member} {object : Member}

theorem foldl_bindObject_of_ne {id : ScopeId} (elsewhere : ∀ object ∈ objects, object.id ≠ id) :
    ∀ outer : Bindings, objects.foldl Rendering.bindObject outer id = outer id := by
  induction objects with
  | nil => exact fun _ => rfl
  | cons object more ih =>
    intro outer
    rw [List.foldl_cons, ih fun other member => elsewhere other (.tail _ member)]
    exact if_neg (Ne.symm (elsewhere object (.head _)))

/-- An object is bound to what its parent leads to. -/
theorem foldl_bindObject_of_mem (turn : Outline.InTurn objects)
    (smaller : ∀ object ∈ objects, object.parent < object.id) (listed : object ∈ objects)
    (outer : Bindings) :
    objects.foldl Rendering.bindObject outer object.id =
      object.scope.access.reach (objects.foldl Rendering.bindObject outer object.parent) := by
  rcases List.append_of_mem listed with ⟨front, back, rfl⟩
  rw [Outline.InTurn, List.pairwise_append, List.pairwise_cons] at turn
  have later : ∀ other ∈ back, other.id ≠ object.id ∧ other.id ≠ object.parent := turn.2.1.1
  have parent : object.parent ≠ object.id := Nat.ne_of_lt (smaller object listed)
  rw [List.foldl_append, List.foldl_cons,
    foldl_bindObject_of_ne fun other member => (later other member).1,
    foldl_bindObject_of_ne fun other member => (later other member).2]
  show (if object.id = object.id then _ else _) =
    object.scope.access.reach (if object.parent = object.id then _ else _)
  rw [if_pos rfl, if_neg parent]

namespace Rendering

variable {rendering : Rendering} {body : Option ScopeId}

theorem mem_objectsIn : object ∈ rendering.objectsIn body ↔
    rendering.outline.scopes[object.id]? = some object.scope ∧
      object.scope.parent = some object.parent ∧
      rendering.outline.dimensionAround? object.parent = body ∧ object.scope.isArray = false := by
  unfold objectsIn scopesIn
  rw [List.mem_filter, Outline.mem_members, List.mem_range, Bool.not_eq_true']
  constructor
  · rintro ⟨⟨-, found, link, around⟩, kind⟩
    exact ⟨found, link, around, kind⟩
  · rintro ⟨found, link, around, kind⟩
    exact ⟨⟨Outline.lt_size_of_getElem? found, found, link, around⟩, kind⟩

theorem bindObjects_of_mem (rooted : Rooted rendering.outline)
    (listed : object ∈ rendering.objectsIn body) (outer : Bindings) :
    rendering.bindObjects body outer object.id =
      object.scope.access.reach (rendering.bindObjects body outer object.parent) := by
  have smaller : ∀ object ∈ rendering.objectsIn body, object.parent < object.id := by
    intro other member
    rcases mem_objectsIn.mp member with ⟨found, link, -⟩
    exact rooted.parent_lt found link
  have rising := (Outline.pairwise_members rendering.outline body).filter
    fun member => !member.scope.isArray
  exact foldl_bindObject_of_mem (Outline.inTurn_of_rising rising smaller) smaller listed outer

theorem bindObjects_of_ne {id : ScopeId}
    (elsewhere : ∀ object ∈ rendering.objectsIn body, object.id ≠ id) (outer : Bindings) :
    rendering.bindObjects body outer id = outer id :=
  foldl_bindObject_of_ne elsewhere outer

end Rendering

/-! ## Bindings of what is carried -/

/-- Scopes are bound to what the scopes are bound to that they are carried to. -/
def AgreeAlong (move : ScopeId → ScopeId) (part : Outline) (own all : Bindings) : Prop :=
  ∀ id, id < part.scopes.size → all (move id) = own id

section

variable {move : ScopeId → ScopeId} {part whole : Rendering} {own all : Bindings}

theorem AgreeAlong.bind (agree : AgreeAlong move part.outline own all)
    (injective : Function.Injective move) (id : ScopeId) (value : Option Value) :
    AgreeAlong move part.outline (own.bind id value) (all.bind (move id) value) := by
  intro other bound
  unfold Bindings.bind
  by_cases same : other = id
  · rw [if_pos same, if_pos (congrArg move same)]
  · rw [if_neg same, if_neg fun equal => same (injective equal)]
    exact agree other bound

theorem agreeAlong_start (carries : Outline.Carries move part.outline whole.outline)
    (payload : Value) :
    AgreeAlong move part.outline (Bindings.start (fun _ => none) payload)
      (Bindings.start (fun _ => none) payload) := by
  have begun : AgreeAlong move part.outline (fun _ => none) (fun _ => none) := fun _ _ => rfl
  have bound := begun.bind carries.injective Outline.root (some payload)
  rw [carries.payload] at bound
  exact bound

theorem AgreeAlong.bindObjects (agree : AgreeAlong move part.outline own all)
    (carries : Outline.Carries move part.outline whole.outline) (rooted : Rooted part.outline)
    (wholeRooted : Rooted whole.outline) (body : Option ScopeId) :
    AgreeAlong move part.outline (part.bindObjects body own)
      (whole.bindObjects (body.map move) all) := by
  intro id
  induction id using Nat.strongRecOn with
  | ind id ih =>
    intro bound
    have found := Array.getElem?_eq_getElem bound
    rcases carries.scopes id _ found with ⟨image, foundImage, same⟩
    by_cases listed : ∃ object ∈ part.objectsIn body, object.id = id
    · rcases listed with ⟨object, listed, rfl⟩
      rcases Rendering.mem_objectsIn.mp listed with ⟨foundSame, link, around, kind⟩
      rw [found] at foundSame
      have equal := Option.some.inj foundSame
      rw [equal] at same
      have smaller := rooted.parent_lt (found.trans (congrArg some equal)) link
      have parentBound := smaller.trans bound
      have imageListed : (⟨move object.id, image, move object.parent⟩ : Member) ∈
          whole.objectsIn (body.map move) := by
        refine Rendering.mem_objectsIn.mpr ⟨foundImage, ?_, ?_, ?_⟩
        · rw [same.parent, link]
          rfl
        · rw [carries.dimensionAround? rooted wholeRooted parentBound, around]
        · rw [same.repeated, kind]
      have reached := Rendering.bindObjects_of_mem wholeRooted imageListed all
      rw [reached, Rendering.bindObjects_of_mem rooted listed, ih _ smaller parentBound,
        same.access]
    · have imageFree : ∀ object ∈ whole.objectsIn (body.map move), object.id ≠ move id := by
        intro object member equal
        rcases Rendering.mem_objectsIn.mp member with ⟨foundOther, link, around, kind⟩
        rw [equal, foundImage] at foundOther
        have image := Option.some.inj foundOther
        rw [image] at same
        have parentLink := same.parent
        rw [link] at parentLink
        rcases Option.map_eq_some_iff.mp parentLink.symm with ⟨parent, ownLink, named⟩
        rw [← named, carries.dimensionAround? rooted wholeRooted
          ((rooted.parent_lt found ownLink).trans bound)] at around
        apply listed
        refine ⟨⟨id, part.outline.scopes[id], parent⟩, Rendering.mem_objectsIn.mpr
          ⟨found, ownLink, Option.map_injective carries.injective around, ?_⟩, rfl⟩
        rw [← same.repeated, kind]
      rw [Rendering.bindObjects_of_ne imageFree,
        Rendering.bindObjects_of_ne fun object member equal => listed ⟨object, member, equal⟩]
      exact agree id bound

/-- Above a scope lie the same scopes. -/
theorem above_image (carries : Outline.Carries move part.outline whole.outline)
    (rooted : Rooted part.outline) (up : Nat) :
    ∀ {id : Nat}, id < part.outline.scopes.size →
      above whole.setting.parentOf up (move id) =
          (above part.setting.parentOf up id).map move ∧
        ∀ outer, above part.setting.parentOf up id = some outer →
          outer < part.outline.scopes.size := by
  induction up with
  | zero =>
    intro id bound
    exact ⟨rfl, fun outer same => Option.some.inj same ▸ bound⟩
  | succ up ih =>
    intro id bound
    have found := Array.getElem?_eq_getElem bound
    rcases carries.scopes id _ found with ⟨image, foundImage, same⟩
    have link : part.setting.parentOf id = part.outline.scopes[id].parent :=
      Rendering.setting_parentOf found
    have imageLink : whole.setting.parentOf (move id) = (part.outline.scopes[id].parent).map move :=
      (Rendering.setting_parentOf foundImage).trans same.parent
    unfold above
    rw [link, imageLink]
    cases parent : part.outline.scopes[id].parent with
    | none => exact ⟨rfl, fun outer impossible => nomatch impossible⟩
    | some parent => exact ih ((rooted.parent_lt found parent).trans bound)

theorem AgreeAlong.fieldAbove (agree : AgreeAlong move part.outline own all)
    (carries : Outline.Carries move part.outline whole.outline) (rooted : Rooted part.outline)
    {id : Nat} (bound : id < part.outline.scopes.size) :
    fieldAbove whole.setting.parentOf all (move id) =
      Meaning.fieldAbove part.setting.parentOf own id := by
  funext up name
  rcases above_image carries rooted up bound with ⟨same, within⟩
  unfold Meaning.fieldAbove
  rw [same]
  cases reached : above part.setting.parentOf up id with
  | none => rfl
  | some outer =>
    rw [Option.map_some, Option.bind_some, Option.bind_some, agree outer (within outer reached)]

/-- A value has the text that it has where its scope is carried to. -/
theorem AgreeAlong.insertedText (agree : AgreeAlong move part.outline own all)
    (carries : Outline.Carries move part.outline whole.outline) (rooted : Rooted part.outline)
    (registry : whole.registry = part.registry) (escape : whole.escape = part.escape) {id : Nat}
    (bound : id < part.outline.scopes.size) (field : String) (calls : List Formatter.Call) :
    insertedText whole.setting all (move id) field calls =
      Meaning.insertedText part.setting own id field calls := by
  have sameRegistry : whole.setting.registry = part.setting.registry := registry
  have sameEscape : whole.setting.escape = part.setting.escape := escape
  unfold Meaning.insertedText
  rw [agree id bound, agree.fieldAbove carries rooted bound, sameRegistry, sameEscape]

end

/-! ## Bindings of a part -/

/-- In the whole the scopes of a part are bound as they are alone. -/
def Agrees (move : Relocation) (part : Outline) (own all : Bindings) : Prop :=
  ∀ id, id < part.scopes.size → all (move.scope id) = own id

variable {move : Relocation} {part whole : Rendering} {own all : Bindings}

theorem Agrees.along {outline : Outline} (agrees : Agrees move outline own all) :
    AgreeAlong move.scope outline own all := agrees

theorem Agrees.bind (agrees : Agrees move part.outline own all)
    (embeds : move.Embeds part.outline whole.outline) (id : ScopeId) (value : Option Value) :
    Agrees move part.outline (own.bind id value) (all.bind (move.scope id) value) :=
  agrees.along.bind embeds.injective id value

theorem agrees_start (embeds : move.Embeds part.outline whole.outline) (payload : Value) :
    Agrees move part.outline (Bindings.start (fun _ => none) payload)
      (Bindings.start (fun _ => none) payload) :=
  agreeAlong_start embeds.carries payload

theorem Agrees.bindObjects (agrees : Agrees move part.outline own all)
    (embeds : move.Embeds part.outline whole.outline) (rooted : Rooted part.outline)
    (wholeRooted : Rooted whole.outline) (body : Option ScopeId) :
    Agrees move part.outline (part.bindObjects body own)
      (whole.bindObjects (body.map move.scope) all) :=
  agrees.along.bindObjects embeds.carries rooted wholeRooted body

/-- A value of a part has the text that it has alone. -/
theorem Agrees.insertedText (agrees : Agrees move part.outline own all)
    (embeds : move.Embeds part.outline whole.outline) (rooted : Rooted part.outline)
    (registry : whole.registry = part.registry) (escape : whole.escape = part.escape) {id : Nat}
    (bound : id < part.outline.scopes.size) (field : String) (calls : List Formatter.Call) :
    insertedText whole.setting all (move.scope id) field calls =
      Meaning.insertedText part.setting own id field calls :=
  agrees.along.insertedText embeds.carries rooted registry escape bound field calls

end Stencil.Meaning
