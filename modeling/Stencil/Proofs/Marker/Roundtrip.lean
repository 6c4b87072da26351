import Stencil.Proofs.Marker.Inversion
import Stencil.Proofs.Text.Trimming

namespace Stencil.Marker

open Text (Lexeme Brackets Scans Passes Scan isBlank isQuote)
open Text.Lexeme (bareOf write)

/-!
# A written path is read back

Blanks may stand between the lexemes of a path, and formatters may follow behind a colon.
The reader cuts at the first colon outside of brackets, removes the blanks outside of
quotes and is left with the path as its form is written without any.
-/

/-! ## The colon -/

theorem GroupForm.scans_content (form : GroupForm) {separator : Char}
    (separates : separator = ':' ∨ separator = '.') :
    Scans .groups separator 1 form.content 1 := by
  have unquoted : isQuote separator = false := by rcases separates with rfl | rfl <;> rfl
  refine Text.scans_intercalate rfl rfl (fun _ => by decide) fun part listed => ?_
  rcases List.mem_map.mp listed with ⟨item, -, rfl⟩
  exact item.scans rfl rfl rfl unquoted fun _ => by decide

theorem GroupForm.scans (form : GroupForm) {separator : Char}
    (separates : separator = ':' ∨ separator = '.') :
    Scans .groups separator 0 form.lexemes 0 := by
  have other : '[' ≠ separator := by rcases separates with rfl | rfl <;> decide
  refine .bare (fun same => absurd same other) (fun impossible => by cases impossible) ?_
  refine (form.scans_content separates).append ?_
  exact .bare (fun _ => by decide) (fun impossible => by cases impossible) (.done 0)

/-- A scan goes over segments outside of brackets, and over their groups in brackets. -/
theorem SegmentForm.scans (form : SegmentForm) {separator : Char}
    (separates : separator = ':' ∨ separator = '.') :
    Scans .groups separator 0 form.lexemes 0 := by
  have foreign : isSegmentPart separator = false := by rcases separates with rfl | rfl <;> rfl
  have name : Scans .groups separator 0 (bareOf form.name) 0 := by
    refine Text.scans_of_forall (fun c => isSegmentPart c = true)
      (fun c part => ⟨fun _ => rfl, Text.ne_of_kind part rfl, Text.ne_of_kind part rfl,
        fun same => absurd same (Text.ne_of_kind part foreign)⟩)
      (Lexeme.of_bareOf form.plain) fun quote inner listed => ?_
    rcases List.mem_map.mp listed with ⟨c, -, impossible⟩
    cases impossible
  have groups : ∀ groups : List GroupForm,
      Scans .groups separator 0 (groups.flatMap GroupForm.lexemes) 0 := by
    intro groups
    induction groups with
    | nil => exact .done 0
    | cons group more ih => exact (group.scans separates).append ih
  exact name.append (groups form.groups)

/-- No colon of a path stands outside of brackets. -/
theorem PathForm.scans (form : PathForm) : Scans .groups ':' 0 form.lexemes 0 := by
  refine Text.scans_intercalate rfl rfl (fun impossible => absurd impossible (by decide))
    fun part listed => ?_
  rcases List.mem_map.mp listed with ⟨segment, -, rfl⟩
  exact segment.scans (.inl rfl)

/-! ## Blanks -/

theorem compact_inner {depth : Nat} {quote : Char} {inner : List Char} (closed : quote ∉ inner)
    (rest : List Char) :
    compact ⟨depth, some quote⟩ (inner ++ quote :: rest) =
      inner ++ quote :: compact ⟨depth, none⟩ rest := by
  induction inner with
  | nil => simp [compact, Scan.advance]
  | cons c more ih =>
    have other : c ≠ quote := fun same => closed (by rw [same]; exact .head _)
    have onward := ih fun member => closed (.tail _ member)
    simp [compact, Scan.advance, other, onward]

/-- What is left without the blanks is written as the lexemes that are none. -/
theorem compact_write {separator : Char} {depth deep : Nat} {lexemes : List Lexeme}
    (scans : Scans .groups separator depth lexemes deep) :
    compact ⟨depth, none⟩ (write lexemes) = write (lexemes.filter Lexeme.shows) := by
  induction scans with
  | done => rfl
  | @bare depth deep c rest between plain _ ih =>
    have onward : compact ⟨depth, none⟩ (c :: write rest) =
        if !isBlank c then c :: write (rest.filter Lexeme.shows)
        else write (rest.filter Lexeme.shows) := by
      rw [compact, Text.advance_bare plain, ih]
      simp
    show compact ⟨depth, none⟩ (c :: write rest) = _
    rw [onward]
    cases blank : isBlank c with
    | true => rw [List.filter_cons_of_neg (by simp [Lexeme.shows, blank])]; rfl
    | false => rw [List.filter_cons_of_pos (by simp [Lexeme.shows, blank])]; rfl
  | @quoted depth deep quote inner rest quotes counts between closed _ ih =>
    have opens : (Scan.mk depth none).advance .groups quote = ⟨depth, some quote⟩ := by
      have both : (isQuote quote && (Brackets.groups.quotesEverywhere || depth != 0)) = true := by
        rw [quotes, Bool.true_and]
        exact counts
      simp only [Scan.advance, both, if_true]
    have visible : isBlank quote = false := by
      simp only [isQuote, Bool.or_eq_true, beq_iff_eq] at quotes
      rcases quotes with rfl | rfl <;> rfl
    have written : write (.quoted quote inner :: rest) =
        quote :: (inner ++ quote :: write rest) := by
      simp [Lexeme.chars]
    rw [written, compact, opens, compact_inner closed, ih, visible,
      List.filter_cons_of_pos (by rfl)]
    simp [Lexeme.chars]

/-! ## Paths -/

/-- What is written without blanks is cut into its segments. -/
theorem PathForm.splitParts (form : PathForm) :
    Text.splitParts .groups '.' .start (write form.lexemes) =
      form.segments.map fun segment => write segment.lexemes := by
  have passes : ∀ part ∈ form.segments.map fun segment => write segment.lexemes,
      Passes .groups '.' .start part .start := by
    intro part listed
    rcases List.mem_map.mp listed with ⟨segment, -, rfl⟩
    exact (segment.scans (.inr rfl)).passes
  unfold PathForm.lexemes
  rw [Lexeme.write_intercalate, List.map_map]
  rcases List.exists_cons_of_ne_nil form.nonempty with ⟨first, rest, segments⟩
  rw [segments] at passes ⊢
  exact Text.splitParts_intercalate rfl passes

theorem PathForm.write_ne_nil (form : PathForm) : write form.lexemes ≠ [] := by
  rcases List.exists_cons_of_ne_nil form.nonempty with ⟨first, rest, segments⟩
  have begins : write first.lexemes ≠ [] := by
    unfold SegmentForm.lexemes
    rw [Lexeme.write_append, Lexeme.write_bareOf]
    exact List.append_ne_nil_of_left_ne_nil first.nonempty _
  unfold PathForm.lexemes
  rw [Lexeme.write_intercalate, segments]
  cases rest with
  | nil => simpa using begins
  | cons next others =>
    rw [List.map_cons, List.map_cons, List.map_cons, List.map_cons, List.intercalate_cons_cons,
      List.append_assoc]
    exact List.append_ne_nil_of_left_ne_nil begins _

/-- Formatters behind a path. -/
def chainBehind : Option (List Char) → List Char
  | none => []
  | some chain => ':' :: chain

/-- A form itself is written without blanks. -/
theorem PathForm.shows_lexemes (form : PathForm) :
    ∀ lexeme ∈ form.lexemes, lexeme.shows = true := by
  have content : ∀ group : GroupForm, ∀ lexeme ∈ group.content, lexeme.shows = true := by
    intro group lexeme listed
    have of := group.of_content lexeme listed
    cases lexeme with
    | quoted quote inner => rfl
    | bare c =>
      rcases of with part | rfl
      · simp [Lexeme.shows, isBlank_of_isItemPart part]
      · rfl
  intro lexeme listed
  rcases Condition.mem_intercalate listed with point | ⟨part, given, inside⟩
  · rw [List.mem_singleton.mp point]
    rfl
  · rcases List.mem_map.mp given with ⟨segment, -, rfl⟩
    rcases List.mem_append.mp inside with name | groups
    · rcases List.mem_map.mp name with ⟨c, member, rfl⟩
      exact (Bool.and_eq_true_iff.mp (segment.plain c member)).1
    · rcases List.mem_flatMap.mp groups with ⟨group, -, inner⟩
      rcases List.mem_cons.mp inner with rfl | inner
      · rfl
      · rcases List.mem_append.mp inner with inner | closing
        · exact content group lexeme inner
        · rw [List.mem_singleton.mp closing]
          rfl

/-- A path that is written without blanks or with blanks between its lexemes, and with
formatters behind it or without, is read as the segments its form stands for and the
formatters without the blanks around them. -/
theorem readPath_written (form : PathForm) (chain : Option (List Char))
    (visible : ∀ text ∈ chain, ∃ c ∈ text, isBlank c = false) :
    form.lexemes.filter Lexeme.shows = form.lexemes ∧
      ∀ lexemes : List Lexeme, lexemes.filter Lexeme.shows = form.lexemes →
        readPath (write lexemes ++ chainBehind chain) =
          .ok ⟨form.segments.map SegmentForm.segment, chain.map Text.trim⟩ := by
  refine ⟨List.filter_eq_self.mpr form.shows_lexemes, fun lexemes spaced => ?_⟩
  have scans : Scans .groups ':' 0 lexemes 0 := by
    apply Scans.spaced rfl rfl rfl
    rw [spaced]
    exact form.scans
  have compacted : compact .start (write lexemes) = write form.lexemes := by
    rw [← spaced]
    exact compact_write scans
  have cut : Text.cutFirst .groups ':' .start (write lexemes ++ chainBehind chain) =
      (write lexemes, chain) := by
    have passes : Passes .groups ':' .start (write lexemes) .start := scans.passes
    rw [Text.cutFirst_append passes]
    cases chain with
    | none => simp [chainBehind, Text.cutFirst]
    | some text => simp [chainBehind, Text.cutFirst, Scan.isOutside, Scan.start]
  have segments : (form.segments.map fun segment => write segment.lexemes).mapM readSegment =
      .ok (form.segments.map SegmentForm.segment) := by
    apply mapM_eq_ok_of_forall₂
    rw [List.forall₂_map_left_iff, List.forall₂_map_right_iff]
    exact List.forall₂_same.mpr fun segment _ => segment.readSegment
  have behind : readChainText chain = chain.map Text.trim := by
    cases chain with
    | none => rfl
    | some text =>
      have nonempty := Text.trim_ne_nil (visible text rfl)
      simp [readChainText, nonempty]
  unfold readPath
  simp only [cut, compacted, List.isEmpty_eq_false_iff.mpr form.write_ne_nil, Bool.false_eq_true,
    if_false, form.splitParts, segments, behind]
  rfl

/-- A condition in front of the iterator, and one on the place behind it. -/
def crateForm : PathForm where
  segments :=
    [⟨['d'], by decide, List.all_eq_true.mp rfl, []⟩,
      ⟨['r', 'o', 'w', 's'], by decide, List.all_eq_true.mp rfl,
        [⟨[.condition ⟨[['n', 'o', 't', 'e']], by decide, by decide, .unequal,
            .text '\'' ['"', ']', '.', ':', '(', ' ', ','] (by decide) (by decide) (by decide)⟩,
          .iterator ['i'] (by decide) true,
          .condition ⟨[['i']], by decide, by decide, .less, .integer (-2) (by decide)⟩],
          by decide, by decide⟩]⟩,
      ⟨['i', 't', '\'', 's'], by decide, List.all_eq_true.mp rfl, []⟩]
  nonempty := by decide

/-- The path with blanks in it. -/
def spacedCrate : List Lexeme :=
  bareOf " d. rows [note! =".toList ++ [.quoted '\'' "\"].:( ,".toList] ++
    bareOf " , i +1,\n i<- 2].it's ".toList

theorem readPath_written_crate :
    spacedCrate.filter Lexeme.shows = crateForm.lexemes ∧
      readPath " d. rows [note! ='\"].:( ,' , i +1,\n i<- 2].it's : upper ".toList =
        .ok ⟨[⟨"d", []⟩,
          ⟨"rows", [⟨some "i", true, [⟨.field ["note"], .unequal, .string "\"].:( ,"⟩,
            ⟨.position "i", .less, .number (.integer (-2))⟩]⟩]⟩,
          ⟨"it's", []⟩], some "upper".toList⟩ := by
  have spaced : spacedCrate.filter Lexeme.shows = crateForm.lexemes := by decide +kernel
  refine ⟨spaced, ?_⟩
  have visible : ∀ text ∈ some " upper ".toList, ∃ c ∈ text, isBlank c = false := by
    rintro text ⟨⟩
    exact ⟨'u', by decide, rfl⟩
  exact (readPath_written crateForm (some " upper ".toList) visible).2 spacedCrate spaced

end Stencil.Marker
