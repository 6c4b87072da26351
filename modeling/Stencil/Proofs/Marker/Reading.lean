import Mathlib.Data.List.TakeWhile
import Stencil.Marker.Reader
import Stencil.Proofs.Fallible
import Stencil.Proofs.Marker.Footprint

namespace Stencil.Marker

/-!
# What paths look like that were read

A path is not an arbitrary tree of segments.  Names hold no points and brackets,
since those were cut at; a group without an iterator holds at least one condition;
and the conditions are those of the condition reader.  So the steps of a path have
readable footprints as soon as no bound holds an apostrophe.
-/

/-! ## Lists of results -/

theorem exists_of_mapM_eq_ok {ε α β : Type} {make : α → Except ε β} {items : List α} :
    ∀ {results : List β}, items.mapM make = .ok results →
      ∀ result ∈ results, ∃ item ∈ items, make item = .ok result := by
  induction items with
  | nil =>
    intro results run result member
    rw [mapM_nil_eq_ok.mp run] at member
    cases member
  | cons item more ih =>
    intro results run result member
    obtain ⟨first, rest, made, others, rfl⟩ := mapM_cons_eq_ok.mp run
    rcases List.mem_cons.mp member with rfl | later
    · exact ⟨item, .head _, made⟩
    · obtain ⟨source, listed, madeLater⟩ := ih others result later
      exact ⟨source, .tail _ listed, madeLater⟩

/-- A list read item by item: nothing is lost, and every result was read. -/
theorem of_mapM_eq_some {α β : Type} {make : α → Option β} {items : List α} :
    ∀ {results : List β}, items.mapM make = some results →
      results.length = items.length ∧ ∀ result ∈ results, ∃ item ∈ items, make item = some result := by
  induction items with
  | nil =>
    intro results run
    cases run
    exact ⟨rfl, fun _ member => nomatch member⟩
  | cons item more ih =>
    intro results run
    rw [List.mapM_cons] at run
    obtain ⟨first, made, run⟩ := Option.bind_eq_some_iff.mp run
    obtain ⟨rest, others, run⟩ := Option.bind_eq_some_iff.mp run
    cases run
    obtain ⟨length, each⟩ := ih others
    refine ⟨by simp [length], fun result member => ?_⟩
    rcases List.mem_cons.mp member with rfl | later
    · exact ⟨item, .head _, made⟩
    · obtain ⟨source, listed, madeLater⟩ := each result later
      exact ⟨source, .tail _ listed, madeLater⟩

/-! ## Groups -/

/-- The conditions of a group, that there are some in one without iterator, and that
only an iterator ends a repetition. -/
structure Group.Read (group : Group) : Prop where
  conditions : ∀ condition ∈ group.conditions, ∃ text,
    Condition.read? group.iterator text = some condition
  searches : group.iterator = none → group.conditions ≠ []
  ends : group.terminates = true → group.iterator.isSome = true

theorem splitParts_ne_nil (brackets : Text.Brackets) (separator : Char) (scan : Text.Scan)
    (cs : List Char) : Text.splitParts brackets separator scan cs ≠ [] := by
  cases cs with
  | nil => simp [Text.splitParts]
  | cons c rest =>
    unfold Text.splitParts
    split
    · simp
    · split <;> simp

theorem read_of_readGroup? {content : List Char} {group : Group}
    (made : readGroup? content = some group) : group.Read := by
  unfold readGroup? at made
  generalize parts : Text.splitParts .arguments ',' .start content = tokens at made
  simp only at made
  match named : iteratorsOf tokens, made with
  | [], made =>
    obtain ⟨conditions, read, rfl⟩ := Option.map_eq_some_iff.mp made
    obtain ⟨length, each⟩ := of_mapM_eq_some read
    refine ⟨fun condition member => ?_, fun _ empty => ?_, fun impossible => nomatch impossible⟩
    · obtain ⟨text, -, made⟩ := each condition member
      exact ⟨text, made⟩
    · -- Without iterators every item is a condition, and there is at least one item.
      have all : conditionsOf tokens = tokens := by
        unfold conditionsOf
        rw [List.filter_eq_self]
        intro token member
        have none := List.filterMap_eq_nil_iff.mp named token member
        simp [none]
      have empty : conditions = [] := empty
      rw [all, empty] at length
      have nothing := List.eq_nil_of_length_eq_zero length.symm
      exact splitParts_ne_nil _ _ _ _ (parts.trans nothing)
  | [(name, terminates)], made =>
    obtain ⟨conditions, read, rfl⟩ := Option.map_eq_some_iff.mp made
    obtain ⟨-, each⟩ := of_mapM_eq_some read
    refine ⟨fun condition member => ?_, (fun impossible => nomatch impossible), fun _ => rfl⟩
    obtain ⟨text, -, made⟩ := each condition member
    exact ⟨text, made⟩
  | _ :: _ :: _, made => cases made

theorem read_of_readGroups {segment : List Char} {fuel : Nat} :
    ∀ {text : List Char} {groups : List Group}, readGroups segment fuel text = .ok groups →
      ∀ group ∈ groups, group.Read := by
  induction fuel with
  | zero =>
    intro text groups run group member
    cases text <;> (cases run; cases member)
  | succ fuel ih =>
    intro text groups run group member
    cases text with
    | nil =>
      cases run
      cases member
    | cons c inner =>
      unfold readGroups at run
      split at run
      · split at run
        · cases run
        · split at run
          · cases run
          · next made =>
            obtain ⟨others, rest, rfl⟩ := map_eq_ok.mp run
            rcases List.mem_cons.mp member with rfl | later
            · exact read_of_readGroup? made
            · exact ih rest group later
      · cases run

/-! ## Names -/

/-- Outside brackets a scan for groups stays where it is until the first
bracket. -/
theorem advance_start {c : Char} (opening : c ≠ '[') :
    Text.Scan.start.advance .groups c = .start := by
  unfold Text.Scan.advance Text.Scan.start Text.Brackets.groups
  simp only
  split
  · next impossible => simp at impossible
  · split
    · next impossible => exact absurd (beq_iff_eq.mp impossible) opening
    · split <;> rfl

/-- A scan outside quotes and brackets is where it began. -/
theorem eq_start_of_isOutside {scan : Text.Scan} (outside : scan.isOutside = true) :
    scan = .start := by
  unfold Text.Scan.isOutside at outside
  obtain ⟨quote, depth⟩ := Bool.and_eq_true_iff.mp outside
  cases scan
  simp only [Option.isNone_iff_eq_none, beq_iff_eq] at quote depth
  rw [quote, depth]
  rfl

theorem splitParts_point (rest : List Char) :
    Text.splitParts .groups '.' .start ('.' :: rest) =
      [] :: Text.splitParts .groups '.' .start rest := by
  have cuts : ('.' == '.' && Text.Scan.start.isOutside) = true := rfl
  rw [Text.splitParts, if_pos cuts, advance_start (by decide)]

/-- A character that does not separate goes into the part behind it. -/
theorem exists_splitParts_cons {scan : Text.Scan} {c : Char}
    (within : ¬ (c == '.' && scan.isOutside) = true) (rest : List Char) :
    ∃ first others,
      Text.splitParts .groups '.' (scan.advance .groups c) rest = first :: others ∧
        Text.splitParts .groups '.' scan (c :: rest) = (c :: first) :: others := by
  obtain ⟨first, others, parts⟩ : ∃ first others,
      Text.splitParts .groups '.' (scan.advance .groups c) rest = first :: others :=
    List.exists_cons_of_ne_nil (splitParts_ne_nil _ _ _ _)
  exact ⟨first, others, parts, by rw [Text.splitParts, if_neg within, parts]⟩

/-- The parts between points have no points before their first bracket. -/
theorem no_point_of_splitParts (cs : List Char) :
    ∀ (scan : Text.Scan),
      (∀ part ∈ (Text.splitParts .groups '.' scan cs).tail,
        '.' ∉ part.takeWhile fun c => !isBracket c) ∧
      (scan = .start → ∀ part ∈ Text.splitParts .groups '.' scan cs,
        '.' ∉ part.takeWhile fun c => !isBracket c) := by
  induction cs with
  | nil =>
    intro scan
    simp [Text.splitParts]
  | cons c rest ih =>
    intro scan
    by_cases cuts : (c == '.' && scan.isOutside) = true
    · obtain ⟨point, outside⟩ := Bool.and_eq_true_iff.mp cuts
      rw [eq_start_of_isOutside outside, beq_iff_eq.mp point, splitParts_point]
      refine ⟨(ih .start).2 rfl, fun _ part member => ?_⟩
      rcases List.mem_cons.mp member with rfl | later
      · simp
      · exact (ih .start).2 rfl part later
    · obtain ⟨first, others, parts, whole⟩ := exists_splitParts_cons cuts rest
      obtain ⟨later, all⟩ := ih (scan.advance .groups c)
      rw [parts] at later all
      rw [whole]
      refine ⟨later, fun atStart part member => ?_⟩
      rcases List.mem_cons.mp member with rfl | behind
      · cases bracket : isBracket c with
        | true => simp [bracket]
        | false =>
          have opening : c ≠ '[' := by
            rintro rfl
            simp [isBracket] at bracket
          have notPoint : c ≠ '.' := by
            rintro rfl
            exact cuts (by rw [atStart]; rfl)
          rw [atStart, advance_start opening] at all
          simp only [List.takeWhile_cons, bracket, Bool.not_false, if_true, List.mem_cons, not_or]
          exact ⟨notPoint.symm, all rfl first (.head _)⟩
      · exact later part behind

/-- A segment that was read: its name holds no points and brackets, and its
groups were read. -/
structure Segment.Read (segment : Segment) : Prop where
  name : ∀ c ∈ segment.name.toList, c ≠ '.' ∧ c ≠ '['
  groups : ∀ group ∈ segment.groups, group.Read

/-- A segment is read as its name, which is all in front of the first square bracket, and the
groups behind. -/
theorem readSegment_eq_ok {raw : List Char} {segment : Segment} :
    readSegment raw = .ok segment ↔
      (raw.takeWhile fun c => !isBracket c) ≠ [] ∧
        segment.name = String.ofList (raw.takeWhile fun c => !isBracket c) ∧
        readGroups raw (raw.dropWhile fun c => !isBracket c).length
          (raw.dropWhile fun c => !isBracket c) = .ok segment.groups := by
  unfold readSegment
  simp only [List.isEmpty_iff]
  constructor
  · intro run
    split at run
    · cases run
    · split at run
      · cases run
      · next named =>
        obtain ⟨groups, made, rfl⟩ := map_eq_ok.mp run
        exact ⟨named, rfl, made⟩
  · rintro ⟨named, name, made⟩
    have nonempty : raw ≠ [] := by
      rintro rfl
      exact named rfl
    rw [if_neg nonempty, if_neg named, made, ← name]
    rfl

theorem read_of_readSegment {raw : List Char} {segment : Segment}
    (point : '.' ∉ raw.takeWhile fun c => !isBracket c) (run : readSegment raw = .ok segment) :
    segment.Read := by
  obtain ⟨-, name, made⟩ := readSegment_eq_ok.mp run
  refine ⟨fun c member => ?_, read_of_readGroups made⟩
  rw [name, String.toList_ofList] at member
  refine ⟨fun same => point (same ▸ member), fun same => ?_⟩
  have outside := List.mem_takeWhile_imp member
  rw [same] at outside
  simp [isBracket] at outside

/-- A path is read from the part in front of its chain: without blanks, and cut at the points,
it gives the segments. -/
theorem readPath_eq_ok {cs : List Char} {path : Path} :
    readPath cs = .ok path ↔
      compact .start (Text.cutFirst .groups ':' .start cs).1 ≠ [] ∧
        (Text.splitParts .groups '.' .start
          (compact .start (Text.cutFirst .groups ':' .start cs).1)).mapM readSegment =
            .ok path.segments ∧
        path.chain = readChainText (Text.cutFirst .groups ':' .start cs).2 := by
  unfold readPath
  simp only [List.isEmpty_iff]
  constructor
  · intro run
    split at run
    · cases run
    · next visible =>
      obtain ⟨segments, made, rfl⟩ := map_eq_ok.mp run
      exact ⟨visible, made, rfl⟩
  · rintro ⟨visible, made, chain⟩
    rw [if_neg visible, made, ← chain]
    rfl

/-- Every segment of a path was read from a part between points. -/
theorem exists_readSegment {cs : List Char} {path : Path} (run : readPath cs = .ok path) :
    ∀ segment ∈ path.segments, ∃ raw ∈ Text.splitParts .groups '.' .start
      (compact .start (Text.cutFirst .groups ':' .start cs).1), readSegment raw = .ok segment :=
  exists_of_mapM_eq_ok (readPath_eq_ok.mp run).2.1

/-- Every segment of a path that was read was read itself. -/
theorem read_of_readPath {cs : List Char} {path : Path} (run : readPath cs = .ok path) :
    ∀ segment ∈ path.segments, segment.Read := by
  intro segment member
  obtain ⟨raw, listed, read⟩ := exists_readSegment run segment member
  exact read_of_readSegment ((no_point_of_splitParts _ .start).2 rfl raw listed) read

end Stencil.Marker
