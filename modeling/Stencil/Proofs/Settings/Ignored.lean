import Mathlib.Data.List.Find
import Mathlib.Data.List.Infix
import Stencil.Proofs.Settings.Removal

namespace Stencil.Settings

/-!
# Files that are passed over

Two searches look for settings: one in a directory and those around it, one among the
places of the user.  Each stops at the first file it finds.  If the settings of that file
are not to be had, the file is passed over and the next search has its turn; the other
places of the same search are not looked at.

So a file that is passed over is as good as absent just if the same search, without it,
comes to no settings either.  And loading comes to the first settings that any of the
places has just if no search stops in front of some.
-/

variable {reader : String → Option Settings} {tree : FileTree} {environment : Environment}
  {start path : Path} {search : List Path} {place : Location} {content : Content} {settings : Settings}

/-! ## Where the searches look -/

namespace Path

/-- The parts that lead somewhere. -/
def leading (parts : List String) : List String := parts.filter fun part => !isIdle part

/-- The parts of a path that count: those that lead somewhere, and a single point that a
relative path begins with. -/
def components (path : Path) : List String :=
  if path.isPointed then "." :: leading path.parts.tail else leading path.parts

/-- Behind the last part that leads somewhere nothing counts. -/
theorem leading_dropWhile_isIdle (parts : List String) :
    leading (parts.dropWhile isIdle).reverse = leading parts.reverse := by
  induction parts with
  | nil => rfl
  | cons part rest ih =>
    cases idle : isIdle part with
    | true => simpa [idle, leading] using ih
    | false => simp [idle]

/-- The enclosing parts are those left when one part that leads somewhere is left out after
the other. -/
theorem leading_enclosing (parts : List String) :
    leading parts.reverse :: (enclosing parts).map leading =
      (leading parts.reverse).inits.reverse := by
  induction parts with
  | nil => rfl
  | cons part before ih =>
    cases idle : isIdle part with
    | true => simpa [enclosing, idle, leading] using ih
    | false =>
      have last : leading (part :: before).reverse = leading before.reverse ++ [part] := by
        simp [idle, leading]
      have outer : enclosing (part :: before) =
          (before.dropWhile isIdle).reverse :: enclosing before := by
        rw [enclosing, idle, if_neg (by simp)]
      rw [last, List.inits_append, outer, List.map_cons, leading_dropWhile_isIdle, ih]
      simp

theorem isPrefix_of_mem_enclosing {parts outer : List String} (listed : outer ∈ enclosing parts) :
    outer <+: parts.reverse := by
  induction parts with
  | nil => cases listed
  | cons part before ih =>
    rw [List.reverse_cons]
    rw [enclosing] at listed
    split at listed
    · exact (ih listed).trans (List.prefix_append _ _)
    · rcases List.mem_cons.mp listed with rfl | further
      · exact (List.reverse_prefix.mpr (List.dropWhile_suffix _)).trans (List.prefix_append _ _)
      · exact (ih further).trans (List.prefix_append _ _)

/-- What stands around a path that begins with no point begins with none either. -/
theorem not_isPointed_outer {path : Path} (bare : path.isPointed = false) {outer : List String}
    (before : outer <+: path.parts) : Path.isPointed { path with parts := outer } = false := by
  cases outer with
  | nil => simp [isPointed]
  | cons part rest =>
    rcases before with ⟨more, split⟩
    simpa [isPointed, ← split] using bare

/-- A path and what stands around it have the beginnings of the parts that count. -/
theorem components_ancestors (path : Path) :
    path.ancestors.map components = path.components.inits.reverse := by
  rw [ancestors, List.map_cons, List.map_map]
  cases pointed : path.isPointed with
  | true =>
    have inner := leading_enclosing path.parts.tail.reverse
    rw [List.reverse_reverse] at inner
    have relative : path.absolute = false := by
      simpa using (Bool.and_eq_true_iff.mp pointed).1
    have own : components path = "." :: leading path.parts.tail := by
      rw [components, pointed, if_pos rfl]
    have outer (parts : List String) :
        components { path with parts := "." :: parts } = "." :: leading parts := by
      simp [components, isPointed, relative]
    have last : components { path with parts := [] } = [] := by
      simp [components, isPointed, leading]
    rw [own, List.inits_cons, List.reverse_cons, ← List.map_reverse, ← inner, outerParts, pointed,
      if_pos rfl]
    simp [Function.comp_def, outer, last]
  | false =>
    have inner := leading_enclosing path.parts.reverse
    rw [List.reverse_reverse] at inner
    have plain : components path = leading path.parts := by
      rw [components, pointed, if_neg (by simp)]
    rw [plain, ← inner, outerParts, pointed, if_neg (by simp)]
    refine congrArg _ (List.map_congr_left fun outer listed => ?_)
    have before := isPrefix_of_mem_enclosing listed
    rw [List.reverse_reverse] at before
    simp [components, not_isPointed_outer pointed before]

example : (ofText "./reports").ancestors.map text = ["./reports", ".", ""] := by decide +kernel

end Path

/-- Parts that end in a name lead to a file or directory called so. -/
theorem getLast?_of_follow {name : String} (proper : isIdle name = false) (down : name ≠ "..")
    (front : List String) : ∀ {origin : Location},
      tree.follow origin (front ++ [name]) = .ok place → place.getLast? = some name := by
  induction front with
  | nil =>
    intro origin leads
    rw [List.nil_append, FileTree.follow, if_neg (by simp [proper] : ¬ isIdle name = true),
      if_neg down] at leads
    split at leads
    · cases leads
    · split at leads
      · cases leads
      · next inner entered =>
        cases leads
        rw [(FileTree.enter_eq_ok.mp entered).1, List.getLast?_concat]
  | cons part rest ih =>
    intro origin leads
    rw [List.cons_append, FileTree.follow] at leads
    split at leads
    · cases leads
    · split at leads
      · exact ih leads
      · split at leads
        · exact ih leads
        · split at leads
          · cases leads
          · exact ih leads

theorem getLast?_of_locate {front : List String} {name : String} (proper : isIdle name = false)
    (down : name ≠ "..") (ends : path.parts = front ++ [name])
    (leads : tree.locate path = .ok place) : place.getLast? = some name := by
  unfold FileTree.locate at leads
  split at leads
  · cases leads
  · split at leads
    · cases leads
    · rw [ends] at leads
      exact getLast?_of_follow proper down front leads

theorem exists_parts_descend (directory : Path) (names : List String) :
    ∃ front, (directory.descend names).parts = front ++ names :=
  ⟨_, rfl⟩

theorem parts_of_mem_around (listed : path ∈ around start) :
    ∃ front, ∃ name ∈ fileNames, path.parts = front ++ [name] := by
  rcases List.mem_flatMap.mp listed with ⟨directory, -, called⟩
  rcases List.mem_map.mp called with ⟨name, known, rfl⟩
  rcases exists_parts_descend directory [name] with ⟨front, ends⟩
  exact ⟨front, name, known, ends⟩

theorem parts_of_mem_places (listed : path ∈ environment.places) :
    ∃ front, path.parts = front ++ ["config.toml"] := by
  rcases List.mem_map.mp listed with ⟨directory, -, rfl⟩
  rcases exists_parts_descend directory ["tessera", "config.toml"] with ⟨front, ends⟩
  exact ⟨front ++ ["tessera"], by simpa [inSettingsHome] using ends⟩

/-- The searches have no place in common. -/
theorem ne_of_mem {other : Path} (near : path ∈ around start)
    (own : other ∈ environment.places) : path ≠ other := by
  rintro rfl
  rcases parts_of_mem_around near with ⟨front, name, known, ends⟩
  rcases parts_of_mem_places own with ⟨front', ends'⟩
  have same : name = "config.toml" := by
    have last := congrArg List.getLast? (ends.symm.trans ends')
    simpa using last
  rw [same] at known
  revert known
  decide

/-- Nor do they come to one file by different paths. -/
theorem locate_ne_of_mem {other : Path} (near : path ∈ around start)
    (own : other ∈ environment.places) :
    ¬ (tree.locate path = .ok place ∧ tree.locate other = .ok place) := by
  rintro ⟨leads, leads'⟩
  rcases parts_of_mem_around near with ⟨front, name, known, ends⟩
  rcases parts_of_mem_places own with ⟨front', ends'⟩
  have proper : ∀ name ∈ fileNames, isIdle name = false ∧ name ≠ ".." ∧ name ≠ "config.toml" := by
    decide
  rcases proper name known with ⟨visible, down, different⟩
  have last := getLast?_of_locate visible down ends leads
  have last' := getLast?_of_locate (by decide) (by decide) ends' leads'
  exact different (Option.some.inj (last.symm.trans last'))

/-! ## What a file and a search come to -/

/-- The settings of a file, if they are to be had. -/
def settings? (reader : String → Option Settings) (tree : FileTree) (path : Path) :
    Option Settings :=
  (loadFile reader tree path).toOption

theorem settings?_eq_some : settings? reader tree path = some settings ↔
    ∃ text, tree.Holds path (.text text) ∧ reader text = some settings := by
  simp only [← FileTree.read_eq_ok]
  unfold settings? loadFile
  cases tree.read path with
  | error fault => simp [Except.toOption]
  | ok text => cases readable : reader text <;> simp [Except.toOption, readable]

theorem isFile_of_settings? (given : settings? reader tree path = some settings) :
    tree.isFile path = true := by
  rcases settings?_eq_some.mp given with ⟨text, held, -⟩
  exact FileTree.isFile_iff.mpr ⟨_, held⟩

theorem settings?_of_not_isFile (absent : ¬ tree.isFile path = true) :
    settings? reader tree path = none := by
  cases given : settings? reader tree path with
  | none => rfl
  | some settings => exact absurd (isFile_of_settings? given) absent

/-- The other files give the settings they gave. -/
theorem settings?_remove (held : tree.content? place = some content) :
    settings? reader (tree.remove place) path = some settings ↔
      settings? reader tree path = some settings ∧ tree.locate path ≠ .ok place := by
  simp only [settings?_eq_some, FileTree.holds_remove held, and_right_comm, exists_and_right]

theorem settings?_remove_of_ne (held : tree.content? place = some content)
    (elsewhere : tree.locate path ≠ .ok place) :
    settings? reader (tree.remove place) path = settings? reader tree path := by
  ext settings
  rw [settings?_remove held, and_iff_left elsewhere]

theorem firstValid?_eq (paths : List Path) : firstValid? reader tree paths =
    paths.findSome? fun path =>
      (settings? reader tree path).map fun settings => (settings, path) := by
  unfold firstValid? settings?
  congr 1
  funext path
  cases loadFile reader tree path <;> rfl

theorem firstValid?_append (early late : List Path) :
    firstValid? reader tree (early ++ late) =
      (firstValid? reader tree early).or (firstValid? reader tree late) := by
  simp only [firstValid?_eq, List.findSome?_append]

theorem mem_of_firstValid? {paths : List Path}
    (first : firstValid? reader tree paths = some (settings, path)) : path ∈ paths := by
  rw [firstValid?_eq] at first
  rcases List.exists_of_findSome?_eq_some first with ⟨other, listed, given⟩
  rcases Option.map_eq_some_iff.mp given with ⟨own, known, same⟩
  cases same
  exact listed

theorem firstValid?_eq_none {paths : List Path} :
    firstValid? reader tree paths = none ↔
      ∀ path ∈ paths, settings? reader tree path = none := by
  simp [firstValid?_eq]

/-- In front of the file that is found there is none, so its settings are the first ones. -/
theorem firstValid?_of_find? (found : search.find? tree.isFile = some path)
    (given : settings? reader tree path = some settings) :
    firstValid? reader tree search = some (settings, path) := by
  rcases List.find?_eq_some_iff_append.mp found with ⟨-, front, back, rfl, absent⟩
  have nothing : firstValid? reader tree front = none := by
    apply firstValid?_eq_none.mpr
    intro other listed
    exact settings?_of_not_isFile (by simpa using absent other listed)
  rw [firstValid?_append, nothing, Option.none_or, firstValid?_eq, List.findSome?_cons, given]
  rfl

/-- What a search comes to: the settings of the file it finds, and that file. -/
def outcome? (reader : String → Option Settings) (tree : FileTree) (search : List Path) :
    Option (Settings × Path) :=
  firstValid? reader tree (search.find? tree.isFile).toList

theorem outcome?_eq_none : outcome? reader tree search = none ↔
    ∀ other, search.find? tree.isFile = some other → settings? reader tree other = none := by
  simp [outcome?, firstValid?_eq_none]

theorem mem_of_outcome? (comes : outcome? reader tree search = some (settings, path)) :
    path ∈ search :=
  List.mem_of_find?_eq_some (Option.mem_toList.mp (mem_of_firstValid? comes))

/-- A file is found, and passed over because its settings are not to be had. -/
structure PassesOver (reader : String → Option Settings) (tree : FileTree) (search : List Path)
    (path : Path) : Prop where
  found : search.find? tree.isFile = some path
  broken : settings? reader tree path = none

theorem PassesOver.outcome? (passed : PassesOver reader tree search path) :
    outcome? reader tree search = none := by
  apply outcome?_eq_none.mpr
  intro other found
  cases passed.found.symm.trans found
  exact passed.broken

/-- A search passes a file over although another of its places has settings. -/
def Obstructed (reader : String → Option Settings) (tree : FileTree) (search : List Path) :
    Prop :=
  (∃ path, PassesOver reader tree search path) ∧
    ∃ path ∈ search, settings? reader tree path ≠ none

/-- A search comes to the first settings there are in its places, unless it is obstructed. -/
theorem outcome?_eq_firstValid?_iff :
    outcome? reader tree search = firstValid? reader tree search ↔
      ¬ Obstructed reader tree search := by
  cases found : search.find? tree.isFile with
  | none =>
    have nothing : ∀ path ∈ search, settings? reader tree path = none :=
      fun path listed => settings?_of_not_isFile (List.find?_eq_none.mp found path listed)
    have still : ¬ Obstructed reader tree search := by
      rintro ⟨-, path, listed, given⟩
      exact given (nothing path listed)
    simp [still, firstValid?_eq_none.mpr nothing, outcome?_eq_none, found]
  | some path =>
    cases given : settings? reader tree path with
    | none =>
      have passed : PassesOver reader tree search path := ⟨found, given⟩
      rw [passed.outcome?, eq_comm, firstValid?_eq_none]
      constructor
      · rintro nothing ⟨-, other, listed, held⟩
        exact held (nothing other listed)
      · intro free other listed
        by_contra held
        exact free ⟨⟨path, passed⟩, other, listed, held⟩
    | some settings =>
      have free : ¬ Obstructed reader tree search := by
        rintro ⟨⟨other, passed⟩, -⟩
        cases passed.found.symm.trans found
        rw [passed.broken] at given
        cases given
      simp [free, firstValid?_of_find? found given, outcome?, found, firstValid?_eq, given]

/-! ## Loading -/

/-- A file that loading finds and ignores, with the search that finds it.  The user's file
is looked at only if the search around the directory came to nothing. -/
inductive Ignores (reader : String → Option Settings) (tree : FileTree)
    (environment : Environment) (start : Path) : List Path → Path → Prop
  | nearest {path : Path} (passed : PassesOver reader tree (around start) path) :
      Ignores reader tree environment start (around start) path
  | ofUser {path : Path} (further : outcome? reader tree (around start) = none)
      (passed : PassesOver reader tree environment.places path) :
      Ignores reader tree environment start environment.places path

theorem loadBy_eq (reader : String → Option Settings) (tree : FileTree)
    (environment : Environment) (start : Path) : loadBy reader tree environment none start =
      .ok (tryEach reader tree
        ((nearest? tree start).toList ++ (ofUser? tree environment).toList)) :=
  rfl

theorem tryEach_eq_iff {other : FileTree} {paths paths' : List Path} :
    tryEach reader tree paths = tryEach reader other paths' ↔
      firstValid? reader tree paths = firstValid? reader other paths' := by
  unfold tryEach
  cases firstValid? reader tree paths with
  | none => cases firstValid? reader other paths' <;> simp
  | some first =>
    cases firstValid? reader other paths' with
    | none => simp
    | some second => simp [Prod.ext_iff]

/-- Loading looks at the outcome of one search after the other. -/
theorem firstValid?_found : firstValid? reader tree ((nearest? tree start).toList ++
    (ofUser? tree environment).toList) =
      (outcome? reader tree (around start)).or (outcome? reader tree environment.places) :=
  firstValid?_append _ _

/-- What near places do not give is what they and others give in turn, just if they give
nothing and the others give it. -/
theorem eq_or_iff {comes near own : Option (Settings × Path)}
    (apart : ∀ first, near = some first → comes ≠ some first) :
    comes = near.or own ↔ near = none ∧ comes = own := by
  cases near with
  | none => simp
  | some first => simp [apart first rfl]

/-- A search that never comes to a file does not miss it. -/
theorem outcome?_remove (held : tree.content? place = some content)
    (elsewhere : ∀ path ∈ search, tree.locate path ≠ .ok place) :
    outcome? reader (tree.remove place) search = outcome? reader tree search := by
  have files : search.find? (tree.remove place).isFile = search.find? tree.isFile := by
    refine List.find?_congr fun path listed => ?_
    rw [Bool.eq_iff_iff, FileTree.isFile_remove held]
    exact and_iff_left (elsewhere path listed)
  unfold outcome?
  rw [files]
  cases found : search.find? tree.isFile with
  | none => rfl
  | some path =>
    have same : settings? reader (tree.remove place) path = settings? reader tree path :=
      settings?_remove_of_ne held (elsewhere path (List.mem_of_find?_eq_some found))
    simp [firstValid?_eq, same]

/-- Without the file, a search comes to nothing just if the file it then finds has no settings. -/
theorem outcome?_remove_eq_none (held : tree.content? place = some content) :
    outcome? reader (tree.remove place) search = none ↔
      ∀ other, search.find? (tree.remove place).isFile = some other →
        settings? reader tree other = none := by
  rw [outcome?_eq_none]
  refine forall₂_congr fun other found => ?_
  have there := (FileTree.isFile_remove held).mp (List.find?_some found)
  rw [settings?_remove_of_ne held there.2]

theorem exists_content_of_passed (passed : PassesOver reader tree search path)
    (leads : tree.locate path = .ok place) : ∃ content, tree.content? place = some content := by
  rcases FileTree.isFile_iff.mp (List.find?_some passed.found) with ⟨content, target, led, held⟩
  cases leads.symm.trans led
  exact ⟨content, held⟩

/-- A file is ignored.  To take it away changes nothing just if the search that finds it
then finds no file or one without settings.  And the search goes on, so that loading gives
the first settings of all the places, just if no search is obstructed. -/
theorem ignored_file_without_effect (ignored : Ignores reader tree environment start search path)
    (leads : tree.locate path = .ok place) :
    (loadBy reader (tree.remove place) environment none start =
        loadBy reader tree environment none start ↔
      ∀ other, search.find? (tree.remove place).isFile = some other →
        settings? reader tree other = none) ∧
    (loadBy reader tree environment none start =
        .ok (tryEach reader tree (around start ++ environment.places)) ↔
      ¬ Obstructed reader tree (around start) ∧
        ¬ Obstructed reader tree environment.places) := by
  have nothing : outcome? reader tree (around start) = none := by
    cases ignored with
    | nearest passed => exact passed.outcome?
    | ofUser further passed => exact further
  constructor
  · rw [loadBy_eq, loadBy_eq, Except.ok.injEq, tryEach_eq_iff, firstValid?_found, firstValid?_found,
      nothing, Option.none_or]
    cases ignored with
    | nearest passed =>
      rcases exists_content_of_passed passed leads with ⟨content, held⟩
      have near := List.mem_of_find?_eq_some passed.found
      have others : ∀ other ∈ environment.places, tree.locate other ≠ .ok place :=
        fun other own led => locate_ne_of_mem near own ⟨leads, led⟩
      rw [outcome?_remove held others, ← outcome?_remove_eq_none held, eq_comm,
        eq_or_iff fun first near own => ne_of_mem (mem_of_outcome? near) (mem_of_outcome? own) rfl]
      exact and_iff_left rfl
    | ofUser further passed =>
      rcases exists_content_of_passed passed leads with ⟨content, held⟩
      have own := List.mem_of_find?_eq_some passed.found
      have others : ∀ other ∈ around start, tree.locate other ≠ .ok place :=
        fun other near led => locate_ne_of_mem near own ⟨led, leads⟩
      rw [outcome?_remove held others, further, Option.none_or, passed.outcome?,
        ← outcome?_remove_eq_none held]
  · rw [loadBy_eq, Except.ok.injEq, tryEach_eq_iff, firstValid?_found, firstValid?_append, nothing,
      Option.none_or, ← outcome?_eq_firstValid?_iff, ← outcome?_eq_firstValid?_iff, nothing,
      eq_or_iff fun first near own => ne_of_mem (mem_of_firstValid? near) (mem_of_outcome? own) rfl]
    exact and_congr_left fun _ => eq_comm

/-! ## Reports of a quarter -/

/-- The settings of a quarter may not be opened, and those of all reports are no text.  The
user has settings as well. -/
def closedReports : FileTree where
  files := [(["srv", "reports", "q3", ".tessera.toml"], .locked),
    (["srv", "reports", "tessera.toml"], .bytes),
    (["srv", "home", ".config", "tessera", "config.toml"], .text "escape = \"xml\"")]
  directories := []
  workingDirectory := ["srv"]

/-- Settings are kept at home. -/
def clerk : Environment := ⟨some ⟨true, ["srv", "home"]⟩, none⟩

/-- The directory of a quarter, as seen from where one works. -/
def quarter : Path := ⟨false, ["reports", "q3"]⟩

theorem ignored_file_without_effect_reports :
    Ignores read? closedReports clerk quarter (around quarter)
        (quarter.descend [".tessera.toml"]) ∧
      closedReports.locate (quarter.descend [".tessera.toml"]) =
        .ok ["srv", "reports", "q3", ".tessera.toml"] ∧
      load (closedReports.remove ["srv", "reports", "q3", ".tessera.toml"]) clerk none quarter =
        load closedReports clerk none quarter ∧
      load closedReports clerk none quarter = .ok (⟨.permissive, .xml⟩,
        some ⟨true, ["srv", "home", ".config", "tessera", "config.toml"]⟩) := by
  have ignored : Ignores read? closedReports clerk quarter (around quarter)
      (quarter.descend [".tessera.toml"]) :=
    .nearest ⟨by decide +kernel, by decide +kernel⟩
  have leads : closedReports.locate (quarter.descend [".tessera.toml"]) =
      .ok ["srv", "reports", "q3", ".tessera.toml"] := by decide +kernel
  have next : (around quarter).find?
      (closedReports.remove ["srv", "reports", "q3", ".tessera.toml"]).isFile =
        some ⟨false, ["reports", "tessera.toml"]⟩ := by decide +kernel
  refine ⟨ignored, leads, (ignored_file_without_effect ignored leads).1.mpr ?_, by decide +kernel⟩
  intro other found
  cases next.symm.trans found
  decide +kernel

/-- Two files of settings in one directory, of which the preferred one names no encoding. -/
def misspelledReports : FileTree where
  files := [(["srv", "reports", ".tessera.toml"], .text "escape = \"html\""),
    (["srv", "reports", "tessera.toml"], .text "unterminated = \"strict\"")]
  directories := [["srv", "reports", "q3"]]
  workingDirectory := ["srv"]

/-- The preferred file is ignored, and the other one, which is valid, has no say.  Without
the preferred file it has. -/
theorem ignored_file_hides_another :
    Ignores read? misspelledReports clerk quarter (around quarter)
        ⟨false, ["reports", ".tessera.toml"]⟩ ∧
      misspelledReports.locate ⟨false, ["reports", ".tessera.toml"]⟩ =
        .ok ["srv", "reports", ".tessera.toml"] ∧
      load misspelledReports clerk none quarter = .ok ({}, none) ∧
      load (misspelledReports.remove ["srv", "reports", ".tessera.toml"]) clerk none quarter =
        .ok (⟨.strict, .none⟩, some ⟨false, ["reports", "tessera.toml"]⟩) ∧
      tryEach read? misspelledReports (around quarter ++ clerk.places) =
        (⟨.strict, .none⟩, some ⟨false, ["reports", "tessera.toml"]⟩) := by
  refine ⟨.nearest ⟨?_, ?_⟩, ?_, ?_, ?_, ?_⟩
  all_goals decide +kernel

end Stencil.Settings
