import Mathlib.Data.List.Chain
import Stencil.Marker.Step
import Stencil.Proofs.Condition.Written

namespace Stencil.Marker

/-!
# What a key shows of a sequence of steps

Scopes are found again by the text of the steps that lead to them.  Of a step the
text shows an attribute, a group, or both: its footprint.  The footprints can be
read off the text again, as long as names hold no points or brackets and it can
be told where a list of conditions ends.
-/

/-- What the key of a step shows. -/
structure Footprint where
  /-- The attribute the step follows. -/
  name : Option String
  /-- The text between the brackets. -/
  group : Option String
  deriving DecidableEq

/-- The text between the brackets of a group. -/
def GroupUse.text : GroupUse → String
  | .search conditions => Condition.listText conditions
  | .loop _ _ => ""
  | .terminate _ => ""

def Step.footprint : Step → Footprint
  | .object name => ⟨some name, none⟩
  | .group name follows use => ⟨if follows then some name else none, some use.text⟩

namespace Footprint

def nameText (footprint : Footprint) : List Char :=
  match footprint.name with
  | some name => '.' :: name.toList
  | none => []

def groupText (footprint : Footprint) : List Char :=
  match footprint.group with
  | some text => '[' :: (text.toList ++ [']'])
  | none => []

/-- The text of a footprint in a key. -/
def text (footprint : Footprint) : List Char := footprint.nameText ++ footprint.groupText

end Footprint

/-- A key shows the footprint of its step. -/
theorem Step.toList_key (step : Step) :
    step.attributeKey.toList ++ step.groupKey.toList = step.footprint.text := by
  match step with
  | .object name =>
    simp [attributeKey, groupKey, footprint, Footprint.text, Footprint.nameText,
      Footprint.groupText]
  | .group name follows (.search conditions) =>
    cases follows <;>
      simp [attributeKey, groupKey, footprint, GroupUse.text, Footprint.text,
        Footprint.nameText, Footprint.groupText]
  | .group name follows (.loop iterator conditions) =>
    cases follows <;>
      simp [attributeKey, groupKey, footprint, GroupUse.text, Footprint.text,
        Footprint.nameText, Footprint.groupText]
  | .group name follows (.terminate iterator) =>
    cases follows <;>
      simp [attributeKey, groupKey, footprint, GroupUse.text, Footprint.text,
        Footprint.nameText, Footprint.groupText]

/-! ## Reading footprints off a key -/

/-- The text of a group: nothing, or that of some conditions. -/
def GroupText (text : String) : Prop :=
  text = "" ∨ ∃ conditions, conditions ≠ [] ∧ Condition.Legible conditions ∧
    text = Condition.listText conditions

/-- A footprint that can be told from what stands around it. -/
structure Footprint.Readable (footprint : Footprint) : Prop where
  shows : footprint.name.isSome ∨ footprint.group.isSome
  name : ∀ name, footprint.name = some name → ∀ c ∈ name.toList, c ≠ '.' ∧ c ≠ '['
  group : ∀ text, footprint.group = some text → GroupText text

/-- A group of its own only comes behind another group. -/
def Footprint.Before (left right : Footprint) : Prop :=
  left.group.isNone → right.name.isSome

/-- Footprints that can be read off their text. -/
structure Readable (footprints : List Footprint) : Prop where
  each : ∀ footprint ∈ footprints, footprint.Readable
  ordered : footprints.IsChain Footprint.Before

/-- The text of footprints. -/
def keyText (footprints : List Footprint) : List Char := footprints.flatMap Footprint.text

theorem Readable.tail {footprint : Footprint} {rest : List Footprint}
    (readable : Readable (footprint :: rest)) : Readable rest :=
  ⟨fun other member => readable.each other (.tail _ member), readable.ordered.tail⟩

/-- A character that may stand in a name. -/
def NamePart (c : Char) : Prop := c ≠ '.' ∧ c ≠ '['

theorem keyText_head {footprints : List Footprint} (readable : Readable footprints) :
    Text.StopsAt NamePart (keyText footprints) := by
  intro c rest shown
  cases footprints with
  | nil => cases shown
  | cons footprint more =>
    obtain ⟨shows, -, -⟩ := readable.each footprint (.head _)
    simp only [keyText, List.flatMap_cons, Footprint.text, Footprint.nameText,
      Footprint.groupText] at shown
    cases named : footprint.name with
    | some name =>
      rw [named] at shown
      exact fun part => part.1 (List.head_eq_of_cons_eq shown).symm
    | none =>
      cases group : footprint.group with
      | some text =>
        rw [named, group] at shown
        exact fun part => part.2 (List.head_eq_of_cons_eq shown).symm
      | none => simp [named, group] at shows

/-- The text of a group ends at its bracket. -/
theorem groupText_split {text other : String} {back more : List Char} (group : GroupText text)
    (otherGroup : GroupText other)
    (same : text.toList ++ ']' :: back = other.toList ++ ']' :: more) :
    text = other ∧ back = more := by
  -- A condition does not begin with the bracket that would end an empty group.
  have unlike : ∀ {conditions : List Condition} {back more : List Char}, conditions ≠ [] →
      Condition.Legible conditions →
      (Condition.listText conditions).toList ++ ']' :: back = ']' :: more → False := by
    intro conditions back more nonempty legible same
    obtain ⟨condition, rest, rfl⟩ := List.exists_cons_of_ne_nil nonempty
    obtain ⟨names, -, named, operand⟩ := (legible.written condition (.head _)).operand
    rw [Condition.toList_listText_cons, Condition.toList_text, operand] at same
    cases path : (Operand.text (.field (names.map String.ofList))).toList with
    | nil =>
      rw [path] at same
      cases comparison : condition.comparison <;>
        simp [comparison, Comparison.symbol] at same
    | cons c rest =>
      have part := Condition.isPathPart_of_mem_text named (path ▸ .head _ : c ∈ _)
      rw [path] at same
      have first : c = ']' := List.head_eq_of_cons_eq same
      rw [first] at part
      revert part
      decide
  rcases group with rfl | ⟨conditions, nonempty, legible, rfl⟩
  · rcases otherGroup with rfl | ⟨others, alsoNonempty, otherLegible, rfl⟩
    · exact ⟨rfl, List.tail_eq_of_cons_eq same⟩
    · exact (unlike alsoNonempty otherLegible same.symm).elim
  · rcases otherGroup with rfl | ⟨others, alsoNonempty, otherLegible, rfl⟩
    · exact (unlike nonempty legible same).elim
    · obtain ⟨alike, tails⟩ :=
        Condition.listText_split nonempty alsoNonempty legible otherLegible same
      exact ⟨Condition.listText_eq_of_alike alike, tails⟩

/-- The group of a footprint and what follows are told by the text behind the
name. -/
theorem group_split {left right : Footprint} {rest more : List Footprint}
    (readable : Readable (left :: rest)) (alsoReadable : Readable (right :: more))
    (bare : left.group.isNone → ∀ c tail, keyText rest = c :: tail → c = '.')
    (alsoBare : right.group.isNone → ∀ c tail, keyText more = c :: tail → c = '.')
    (same : left.groupText ++ keyText rest = right.groupText ++ keyText more) :
    left.group = right.group ∧ keyText rest = keyText more := by
  unfold Footprint.groupText at same
  cases group : left.group with
  | none =>
    cases other : right.group with
    | none =>
      rw [group, other] at same
      exact ⟨rfl, same⟩
    | some text =>
      rw [group, other] at same
      exact absurd (bare (by simp [group]) '[' _ same) (by decide)
  | some text =>
    cases other : right.group with
    | none =>
      rw [group, other] at same
      exact absurd (alsoBare (by simp [other]) '[' _ same.symm) (by decide)
    | some otherText =>
      rw [group, other] at same
      have closed := (readable.each left (.head _)).group text group
      have alsoClosed := (alsoReadable.each right (.head _)).group otherText other
      have inner : text.toList ++ ']' :: keyText rest = otherText.toList ++ ']' :: keyText more := by
        simpa using List.tail_eq_of_cons_eq same
      obtain ⟨texts, tails⟩ := groupText_split closed alsoClosed inner
      exact ⟨by rw [texts], tails⟩

/-- Behind a footprint without group the text goes on with a point. -/
theorem Readable.bare {left : Footprint} {rest : List Footprint}
    (readable : Readable (left :: rest)) (alone : left.group.isNone) :
    ∀ c tail, keyText rest = c :: tail → c = '.' := by
  intro c tail shown
  cases rest with
  | nil => cases shown
  | cons next more =>
    have before := (List.isChain_cons_cons.mp readable.ordered).1 alone
    obtain ⟨name, named⟩ := Option.isSome_iff_exists.mp before
    simp only [keyText, List.flatMap_cons, Footprint.text, Footprint.nameText,
      named] at shown
    exact (List.head_eq_of_cons_eq shown).symm

/-- Where the name of a footprint ends. -/
theorem Readable.endsName {footprint : Footprint} {rest : List Footprint}
    (readable : Readable (footprint :: rest)) :
    Text.StopsAt NamePart (footprint.groupText ++ keyText rest) := by
  intro c tail shown
  unfold Footprint.groupText at shown
  cases group : footprint.group with
  | none =>
    rw [group] at shown
    exact keyText_head readable.tail c tail shown
  | some text =>
    rw [group] at shown
    exact fun part => part.2 (List.head_eq_of_cons_eq shown).symm

/-- The name of the first footprint and what follows are told by the text. -/
theorem name_eq_of_text_eq {left right : Footprint} {rest more : List Footprint}
    (readable : Readable (left :: rest)) (alsoReadable : Readable (right :: more))
    (same : left.text ++ keyText rest = right.text ++ keyText more) :
    left.name = right.name ∧
      left.groupText ++ keyText rest = right.groupText ++ keyText more := by
  have readableLeft := readable.each left (.head _)
  have readableRight := alsoReadable.each right (.head _)
  -- A footprint without a name begins with a bracket, one with a name with a point.
  have unlike : ∀ {named bare : Footprint} {name : String} {behind before : List Char},
      named.name = some name → bare.name = none → bare.Readable →
      named.text ++ behind = bare.text ++ before → False := by
    intro named bare name behind before isNamed isBare shown same
    obtain ⟨text, group⟩ := Option.isSome_iff_exists.mp
      (shown.shows.resolve_left (by simp [isBare]))
    simp [Footprint.text, Footprint.nameText, Footprint.groupText, isNamed, isBare, group] at same
  cases named : left.name with
  | some name =>
    cases alsoNamed : right.name with
    | some otherName =>
      simp only [Footprint.text, Footprint.nameText, named, alsoNamed, List.append_assoc,
        List.cons_append, List.cons.injEq, true_and] at same
      obtain ⟨names, behind⟩ := Text.run_split (readableLeft.name name named)
        (readableRight.name otherName alsoNamed) readable.endsName alsoReadable.endsName same
      exact ⟨by rw [String.toList_inj.mp names], behind⟩
    | none => exact (unlike named alsoNamed readableRight same).elim
  | none =>
    cases alsoNamed : right.name with
    | some otherName => exact (unlike alsoNamed named readableLeft same.symm).elim
    | none =>
      simp only [Footprint.text, Footprint.nameText, named, alsoNamed, List.nil_append] at same
      exact ⟨rfl, same⟩

/-- A key shows one sequence of footprints only. -/
theorem keyText_injective {left right : List Footprint} (readable : Readable left)
    (alsoReadable : Readable right) (same : keyText left = keyText right) : left = right := by
  have nonempty : ∀ {footprint : Footprint} {rest : List Footprint},
      Readable (footprint :: rest) → keyText (footprint :: rest) ≠ [] := by
    intro footprint rest shown empty
    rcases (shown.each footprint (.head _)).shows with named | grouped
    · obtain ⟨name, named⟩ := Option.isSome_iff_exists.mp named
      simp [keyText, Footprint.text, Footprint.nameText, named] at empty
    · obtain ⟨text, grouped⟩ := Option.isSome_iff_exists.mp grouped
      simp [keyText, Footprint.text, Footprint.groupText, grouped] at empty
  induction left generalizing right with
  | nil =>
    cases right with
    | nil => rfl
    | cons other more => exact absurd same.symm (nonempty alsoReadable)
  | cons footprint rest ih =>
    cases right with
    | nil => exact absurd same (nonempty readable)
    | cons other more =>
      obtain ⟨names, behind⟩ := name_eq_of_text_eq readable alsoReadable same
      obtain ⟨groups, tails⟩ :=
        group_split readable alsoReadable readable.bare alsoReadable.bare behind
      have equal : footprint = other := by
        cases footprint
        cases other
        cases names
        cases groups
        rfl
      rw [equal, ih readable.tail alsoReadable.tail tails]

end Stencil.Marker
