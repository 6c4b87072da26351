import Stencil.Proofs.Fallible
import Stencil.Settings.Discovery

namespace Stencil.Settings

/-!
# A tree without one of its files

A file is taken out of a tree, while the directory it stood in stays.  Every path that led
elsewhere leads there still, and a path that led to the file leads to nothing.  So the
files that are left are found as before, and they give the same settings.
-/

variable {tree : FileTree} {place : Location} {content : Content} {path : Path}

namespace FileTree

/-! ## Files and directories -/

theorem isDirectory_iff : tree.isDirectory place = true ↔
    place = [] ∨ (∃ other ∈ tree.workingDirectory :: tree.directories, place <+: other) ∨
      ∃ file ∈ tree.files, place <+: file.1 ∧ place ≠ file.1 := by
  simp [isDirectory, or_assoc]

/-- What a directory stands in is a directory. -/
theorem isDirectory_outer {outer : Location} (inside : tree.isDirectory place = true)
    (before : outer <+: place) : tree.isDirectory outer = true := by
  apply isDirectory_iff.mpr
  rcases isDirectory_iff.mp inside with
    rfl | ⟨other, listed, further⟩ | ⟨file, listed, further, apart⟩
  · exact .inl (List.prefix_nil.mp before)
  · exact .inr (.inl ⟨other, listed, before.trans further⟩)
  · refine .inr (.inr ⟨file, listed, before.trans further, fun same => ?_⟩)
    -- A file that was the outer place would have to stand around itself.
    rw [same] at before
    exact apart (further.eq_of_length_le before.length_le)

theorem content?_eq_some : tree.content? place = some content ↔
    tree.isDirectory place = false ∧ tree.files.lookup place = some content := by
  unfold content?
  cases tree.isDirectory place with
  | true => simp
  | false => simp

theorem content?_of_isDirectory (inside : tree.isDirectory place = true) :
    tree.content? place = none := by
  rw [content?, if_pos inside]

/-- There is no file where a directory is. -/
theorem ne_of_isDirectory (held : tree.content? place = some content) {other : Location}
    (inside : tree.isDirectory other = true) : other ≠ place := by
  rintro rfl
  rw [content?_of_isDirectory inside] at held
  cases held

/-! ## Taking a file out -/

/-- The tree without the file at a location.  The directory around it stays. -/
def remove (tree : FileTree) (place : Location) : FileTree :=
  { tree with
    files := tree.files.filter fun file => file.1 != place
    directories := place.dropLast :: tree.directories }

/-- Around the last name is what is around the whole, but for the whole itself. -/
theorem prefix_dropLast_iff (named : place ≠ []) (other : Location) :
    other <+: place.dropLast ↔ other <+: place ∧ other ≠ place := by
  constructor
  · intro before
    refine ⟨before.trans (List.dropLast_prefix place), ?_⟩
    rintro rfl
    have shorter := before.length_le
    have positive := List.length_pos_iff.mpr named
    rw [List.length_dropLast] at shorter
    omega
  · rintro ⟨before, apart⟩
    rw [← List.dropLast_concat_getLast named, List.prefix_concat_iff,
      List.dropLast_concat_getLast named] at before
    exact before.resolve_left apart

/-- No directory goes with the file, and none is new. -/
theorem isDirectory_remove (held : tree.content? place = some content) (other : Location) :
    (tree.remove place).isDirectory other = tree.isDirectory other := by
  rcases content?_eq_some.mp held with ⟨free, found⟩
  have named : place ≠ [] := by
    rintro rfl
    cases free
  have own : (place, content) ∈ tree.files := by
    rcases List.lookup_eq_some_iff.mp found with ⟨front, back, split, -⟩
    rw [split]
    exact List.mem_append_right _ (.head _)
  have around := prefix_dropLast_iff named other
  rw [Bool.eq_iff_iff, isDirectory_iff, isDirectory_iff]
  constructor
  · rintro (root | ⟨outer, listed, before⟩ | ⟨file, listed, before⟩)
    · exact .inl root
    · rcases List.mem_cons.mp listed with rfl | listed
      · exact .inr (.inl ⟨_, .head _, before⟩)
      · rcases List.mem_cons.mp listed with rfl | listed
        · exact .inr (.inr ⟨_, own, around.mp before⟩)
        · exact .inr (.inl ⟨outer, .tail _ listed, before⟩)
    · exact .inr (.inr ⟨file, (List.mem_filter.mp listed).1, before⟩)
  · rintro (root | ⟨outer, listed, before⟩ | ⟨file, listed, before⟩)
    · exact .inl root
    · refine .inr (.inl ⟨outer, ?_, before⟩)
      rcases List.mem_cons.mp listed with rfl | listed
      · exact .head _
      · exact .tail _ (.tail _ listed)
    · by_cases same : file.1 = place
      · rw [same] at before
        exact .inr (.inl ⟨_, .tail _ (.head _), around.mpr before⟩)
      · exact .inr (.inr ⟨file, List.mem_filter.mpr ⟨listed, by simpa using same⟩, before⟩)

/-- Leaving a place out of a table changes nothing elsewhere. -/
theorem lookup_filter_ne (files : List (Location × Content)) (place other : Location) :
    (files.filter fun file => file.1 != place).lookup other =
      if other = place then none else files.lookup other := by
  induction files with
  | nil => simp
  | cons file rest ih =>
    obtain ⟨name, inner⟩ := file
    by_cases gone : name = place
    · by_cases same : other = place
      · simpa [gone, same] using ih
      · simpa [gone, same, List.lookup_cons, beq_eq_false_iff_ne.mpr same] using ih
    · by_cases same : other = name
      · simp [gone, same]
      · simpa [gone, List.lookup_cons, beq_eq_false_iff_ne.mpr same] using ih

/-- The other files hold what they held. -/
theorem content?_remove (held : tree.content? place = some content) (other : Location) :
    (tree.remove place).content? other = if other = place then none else tree.content? other := by
  have kept : (tree.remove place).files.lookup other =
      if other = place then none else tree.files.lookup other :=
    lookup_filter_ne tree.files place other
  unfold content?
  rw [isDirectory_remove held, kept]
  split <;> simp

/-! ## Where paths lead -/

theorem enter_eq_ok {name : String} {inner : Location} : tree.enter place name = .ok inner ↔
    inner = place ++ [name] ∧ name.utf8ByteSize ≤ nameLimit ∧
      (tree.isDirectory inner = true ∨ ∃ content, tree.content? inner = some content) := by
  simp only [enter]
  split
  · next long =>
    simp [Nat.not_le.mpr long]
  · next short =>
    split
    · next there =>
      rw [Bool.or_eq_true, Option.isSome_iff_exists] at there
      constructor
      · intro same
        cases same
        exact ⟨rfl, Nat.not_lt.mp short, there.symm⟩
      · rintro ⟨rfl, -, -⟩
        rfl
    · next absent =>
      rw [Bool.or_eq_true, Option.isSome_iff_exists] at absent
      constructor
      · intro impossible
        cases impossible
      · rintro ⟨rfl, -, there⟩
        exact absurd there.symm absent

/-- A file is the end of every path. -/
theorem follow_file (held : tree.content? place = some content) {parts : List String}
    {target : Location} :
    tree.follow place parts = .ok target ↔ parts = [] ∧ target = place := by
  cases parts with
  | nil => simp [follow, eq_comm]
  | cons part rest => simp [follow, held]

/-- From a directory, a part that leads nowhere else is passed. -/
theorem follow_idle {part : String} (inside : tree.isDirectory place = true)
    (idle : isIdle part = true) (rest : List String) :
    tree.follow place (part :: rest) = tree.follow place rest := by
  rw [follow, content?_of_isDirectory inside, if_neg (by simp), if_pos idle]

theorem follow_up (inside : tree.isDirectory place = true) (rest : List String) :
    tree.follow place (".." :: rest) = tree.follow place.dropLast rest := by
  rw [follow, content?_of_isDirectory inside, if_neg (by simp), if_neg (by decide), if_pos rfl]

/-- A name leads on if one can enter it. -/
theorem follow_name {name : String} {rest : List String} {target : Location}
    (inside : tree.isDirectory place = true) (proper : isIdle name = false)
    (down : name ≠ "..") :
    tree.follow place (name :: rest) = .ok target ↔
      ∃ inner, tree.enter place name = .ok inner ∧ tree.follow inner rest = .ok target := by
  rw [follow, content?_of_isDirectory inside, if_neg (by simp), if_neg (by simp [proper]),
    if_neg down]
  cases tree.enter place name with
  | error fault => simp
  | ok inner => simp

/-- One can enter what one could enter, but not the file taken out. -/
theorem enter_remove (held : tree.content? place = some content) {start inner : Location}
    {name : String} : (tree.remove place).enter start name = .ok inner ↔
      tree.enter start name = .ok inner ∧ inner ≠ place := by
  simp only [enter_eq_ok, isDirectory_remove held, content?_remove held]
  by_cases same : inner = place
  · have free := (content?_eq_some.mp held).1
    simp [same, free]
  · simp [same]

/-- Paths lead from a directory where they led before, but not to the file taken out. -/
theorem follow_remove (held : tree.content? place = some content) {parts : List String}
    {target : Location} : ∀ {start : Location}, tree.isDirectory start = true →
      ((tree.remove place).follow start parts = .ok target ↔
        tree.follow start parts = .ok target ∧ target ≠ place) := by
  induction parts with
  | nil =>
    intro start inside
    have apart := ne_of_isDirectory held inside
    simp only [follow, Except.ok.injEq]
    constructor
    · rintro rfl
      exact ⟨rfl, apart⟩
    · exact And.left
  | cons part rest ih =>
    intro start inside
    have inside' : (tree.remove place).isDirectory start = true :=
      (isDirectory_remove held start).trans inside
    by_cases idle : isIdle part = true
    · rw [follow_idle inside idle, follow_idle inside' idle]
      exact ih inside
    · by_cases up : part = ".."
      · rw [up, follow_up inside, follow_up inside']
        exact ih (isDirectory_outer inside (List.dropLast_prefix start))
      · have proper : isIdle part = false := by simpa using idle
        -- Whatever else is entered is a directory, or a file at which the path has to end.
        have onward : ∀ inner, tree.enter start part = .ok inner → inner ≠ place →
            ((tree.remove place).follow inner rest = .ok target ↔
              tree.follow inner rest = .ok target ∧ target ≠ place) := by
          intro inner entered apart
          rcases (enter_eq_ok.mp entered).2.2 with directory | ⟨other, found⟩
          · exact ih directory
          · have kept := (content?_remove held inner).trans ((if_neg apart).trans found)
            rw [follow_file found, follow_file kept]
            constructor
            · rintro ⟨ends, rfl⟩
              exact ⟨⟨ends, rfl⟩, apart⟩
            · exact And.left
        rw [follow_name inside proper up, follow_name inside' proper up]
        constructor
        · rintro ⟨inner, entered, leads⟩
          rcases (enter_remove held).mp entered with ⟨entered, apart⟩
          rcases (onward inner entered apart).mp leads with ⟨led, different⟩
          exact ⟨⟨inner, entered, led⟩, different⟩
        · rintro ⟨⟨inner, entered, led⟩, different⟩
          have apart : inner ≠ place := by
            rintro rfl
            exact different ((follow_file held).mp led).2
          exact ⟨inner, (enter_remove held).mpr ⟨entered, apart⟩,
            (onward inner entered apart).mpr ⟨led, different⟩⟩

/-- Every path leads where it led, as the root and the place one works in are directories,
but none to the file taken out. -/
theorem locate_remove (held : tree.content? place = some content) {target : Location} :
    (tree.remove place).locate path = .ok target ↔
      tree.locate path = .ok target ∧ target ≠ place := by
  unfold locate
  split
  · simp
  · split
    · simp
    · refine follow_remove held ?_
      split
      · rfl
      · exact isDirectory_iff.mpr (.inr (.inl ⟨_, .head _, List.prefix_refl _⟩))

/-! ## What paths lead to -/

/-- A path leads to a file that holds this. -/
def Holds (tree : FileTree) (path : Path) (content : Content) : Prop :=
  ∃ place, tree.locate path = .ok place ∧ tree.content? place = some content

theorem isFile_iff : tree.isFile path = true ↔ ∃ content, tree.Holds path content := by
  unfold isFile Holds
  cases tree.locate path with
  | error fault => simp
  | ok place => simp [Option.isSome_iff_exists]

theorem read_eq_ok {text : String} :
    tree.read path = .ok text ↔ tree.Holds path (.text text) := by
  unfold read Holds
  cases tree.locate path with
  | error fault => simp
  | ok place =>
    cases found : tree.content? place with
    | none => simp [found]
    | some content => cases content <;> simp [found, Content.read]

/-- The files that are left are found as before, and hold what they held. -/
theorem holds_remove (held : tree.content? place = some content) {inner : Content} :
    (tree.remove place).Holds path inner ↔
      tree.Holds path inner ∧ tree.locate path ≠ .ok place := by
  constructor
  · rintro ⟨target, leads, found⟩
    rcases (locate_remove held).mp leads with ⟨led, apart⟩
    rw [content?_remove held, if_neg apart] at found
    refine ⟨⟨target, led, found⟩, fun same => apart ?_⟩
    exact Except.ok.inj (led.symm.trans same)
  · rintro ⟨⟨target, led, found⟩, elsewhere⟩
    have apart : target ≠ place := by
      rintro rfl
      exact elsewhere led
    refine ⟨target, (locate_remove held).mpr ⟨led, apart⟩, ?_⟩
    rw [content?_remove held, if_neg apart, found]

theorem isFile_remove (held : tree.content? place = some content) :
    (tree.remove place).isFile path = true ↔
      tree.isFile path = true ∧ tree.locate path ≠ .ok place := by
  simp only [isFile_iff, holds_remove held, exists_and_right]

end FileTree

end Stencil.Settings
