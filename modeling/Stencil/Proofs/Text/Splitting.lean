import Mathlib.Data.List.Basic
import Stencil.Text.Classes
import Stencil.Text.Splitting

namespace Stencil.Text

/-!
# Characters and quotes

What is written in a marker is a sequence of lexemes: characters that count as what they
are, and texts between quotes in which nothing counts.  A scan that agrees with the lexemes
about what is a quote takes them one by one.  So a text is cut only at separators that are
lexemes themselves and stand outside of brackets, whatever the quoted texts hold.
-/

/-! ## Scans -/

/-- A scan goes over a text from one state to another and meets no separator that counts. -/
inductive Passes (brackets : Brackets) (separator : Char) : Scan → List Char → Scan → Prop
  | done (scan : Scan) : Passes brackets separator scan [] scan
  | step {scan last : Scan} {c : Char} {rest : List Char}
      (between : ¬ (c = separator ∧ scan.isOutside = true))
      (onward : Passes brackets separator (scan.advance brackets c) rest last) :
      Passes brackets separator scan (c :: rest) last

variable {brackets : Brackets} {separator : Char} {scan middle last : Scan}

theorem Passes.append {front back : List Char} (first : Passes brackets separator scan front middle)
    (second : Passes brackets separator middle back last) :
    Passes brackets separator scan (front ++ back) last := by
  induction first with
  | done => exact second
  | step between _ ih => exact .step between (ih second)

/-- A cut comes behind what is passed. -/
theorem cutFirst_append {front : List Char} (passes : Passes brackets separator scan front last)
    (back : List Char) :
    cutFirst brackets separator scan (front ++ back) =
      (front ++ (cutFirst brackets separator last back).1,
        (cutFirst brackets separator last back).2) := by
  induction passes with
  | done => rfl
  | step between _ ih =>
    rw [List.cons_append, cutFirst, if_neg (by simpa using between), ih]
    rfl

/-- Where a text is cut: at the first separator that counts, or nowhere if none does. -/
inductive Cut (brackets : Brackets) (separator : Char) (scan : Scan) :
    List Char → List Char → Option (List Char) → Prop
  | nowhere {cs : List Char} {last : Scan} (passes : Passes brackets separator scan cs last) :
      Cut brackets separator scan cs cs none
  | behind {front : List Char} {last : Scan} (passes : Passes brackets separator scan front last)
      (outside : last.isOutside = true) (back : List Char) :
      Cut brackets separator scan (front ++ separator :: back) front (some back)

/-- A character that is no separator goes to the part in front. -/
theorem Cut.cons {c : Char} {cs front : List Char} {back : Option (List Char)}
    (between : ¬ (c = separator ∧ scan.isOutside = true))
    (cut : Cut brackets separator (scan.advance brackets c) cs front back) :
    Cut brackets separator scan (c :: cs) (c :: front) back := by
  cases cut with
  | nowhere passes => exact .nowhere (.step between passes)
  | behind passes outside back => exact .behind (.step between passes) outside back

theorem cut_cutFirst (brackets : Brackets) (separator : Char) (scan : Scan) (cs : List Char) :
    Cut brackets separator scan cs (cutFirst brackets separator scan cs).1
      (cutFirst brackets separator scan cs).2 := by
  induction cs generalizing scan with
  | nil => exact .nowhere (.done scan)
  | cons c rest ih =>
    rw [cutFirst]
    split
    · next found =>
      have counts : c = separator ∧ scan.isOutside = true := by simpa using found
      rcases counts with ⟨rfl, outside⟩
      exact .behind (.done scan) outside rest
    · next between => exact .cons (by simpa using between) (ih _)

/-- There is one place where a text is cut. -/
theorem Cut.cutFirst {cs front : List Char} {back : Option (List Char)}
    (cut : Cut brackets separator scan cs front back) :
    cutFirst brackets separator scan cs = (front, back) := by
  cases cut with
  | nowhere passes => simpa [Text.cutFirst] using cutFirst_append passes []
  | behind passes outside back =>
    rw [cutFirst_append passes, Text.cutFirst, if_pos (by simp [outside]), List.append_nil]

/-- The part in front of a cut is not cut again. -/
theorem Cut.front {cs front : List Char} {back : Option (List Char)}
    (cut : Cut brackets separator scan cs front back) :
    Cut brackets separator scan front front none := by
  cases cut with
  | nowhere passes => exact .nowhere passes
  | behind passes _ _ => exact .nowhere passes

/-- A text in front of the first of some parts. -/
def prepend (front : List Char) : List (List Char) → List (List Char)
  | [] => [front]
  | part :: parts => (front ++ part) :: parts

theorem splitParts_append {front : List Char} (passes : Passes brackets separator scan front last)
    (back : List Char) :
    splitParts brackets separator scan (front ++ back) =
      prepend front (splitParts brackets separator last back) := by
  induction passes with
  | done scan =>
    cases back with
    | nil => rfl
    | cons c rest =>
      rw [List.nil_append, splitParts]
      split
      · rfl
      · split <;> rfl
  | step between _ ih =>
    rw [List.cons_append, splitParts, if_neg (by simpa using between), ih]
    cases splitParts brackets separator _ back <;> rfl

/-- Parts with separators between them are the parts of the whole. -/
theorem splitParts_intercalate (still : Scan.start.advance brackets separator = .start)
    {part : List Char} {parts : List (List Char)}
    (passes : ∀ part' ∈ part :: parts, Passes brackets separator .start part' .start) :
    splitParts brackets separator .start ([separator].intercalate (part :: parts)) =
      part :: parts := by
  induction parts generalizing part with
  | nil =>
    have whole := splitParts_append (passes part (.head _)) []
    rw [List.append_nil] at whole
    rw [List.intercalate_singleton, whole]
    simp [splitParts, prepend]
  | cons next rest ih =>
    have cut : splitParts brackets separator .start
        (separator :: [separator].intercalate (next :: rest)) =
          [] :: splitParts brackets separator .start ([separator].intercalate (next :: rest)) := by
      rw [splitParts, if_pos (by simp [Scan.isOutside, Scan.start]), still]
    rw [List.intercalate_cons_cons, List.append_assoc, splitParts_append (passes part (.head _)),
      List.singleton_append, cut, ih fun other listed => passes other (.tail _ listed)]
    simp [prepend]

theorem dropLast?_concat (c : Char) (cs : List Char) : dropLast? c (cs ++ [c]) = some cs := by
  simp [dropLast?]

/-- Cutting at every separator is what the library calls splitting on it. -/
theorem splitAll_eq_splitOn (separator : Char) (cs : List Char) :
    splitAll separator cs = cs.splitOn separator := by
  induction cs with
  | nil => rfl
  | cons c rest ih =>
    rw [splitAll, ih, List.splitOn_eq_splitOnP, List.splitOn_eq_splitOnP,
      List.splitOnP_cons_eq_if_modifyHead]
    split
    · rfl
    · cases parts : rest.splitOnP (· == separator) with
      | nil => exact absurd parts (List.splitOnP_ne_nil _ _)
      | cons part parts => rfl

/-! ## Lexemes -/

/-- A character, or a text between quotes. -/
inductive Lexeme where
  | bare (c : Char)
  | quoted (quote : Char) (inner : List Char)
  deriving DecidableEq, Repr

namespace Lexeme

/-- A lexeme as it is written. -/
def chars : Lexeme → List Char
  | bare c => [c]
  | quoted quote inner => quote :: (inner ++ [quote])

/-- Lexemes as they are written. -/
def write (lexemes : List Lexeme) : List Char := lexemes.flatMap chars

/-- Characters, each by itself. -/
def bareOf (cs : List Char) : List Lexeme := cs.map bare

/-- A lexeme that is no blank. -/
def shows : Lexeme → Bool
  | bare c => !isBlank c
  | quoted _ _ => true

/-- A lexeme whose character is of some kind, or whose quotes hold none of themselves. -/
def Of (kind : Char → Prop) : Lexeme → Prop
  | bare c => kind c
  | quoted quote inner => isQuote quote = true ∧ quote ∉ inner

@[simp] theorem write_nil : write [] = [] := rfl

@[simp] theorem write_cons (lexeme : Lexeme) (rest : List Lexeme) :
    write (lexeme :: rest) = lexeme.chars ++ write rest := rfl

@[simp] theorem write_append (front back : List Lexeme) :
    write (front ++ back) = write front ++ write back := List.flatMap_append

@[simp] theorem write_bareOf (cs : List Char) : write (bareOf cs) = cs := by
  simp [write, bareOf, List.flatMap_map, chars]

theorem write_intercalate (separator : Char) (parts : List (List Lexeme)) :
    write ([bare separator].intercalate parts) = [separator].intercalate (parts.map write) := by
  induction parts with
  | nil => rfl
  | cons part more ih =>
    cases more with
    | nil => simp
    | cons next rest =>
      rw [List.intercalate_cons_cons, write_append, write_append, ih, List.map_cons,
        List.map_cons, List.map_cons, List.intercalate_cons_cons]
      rfl

theorem of_bareOf {kind : Char → Prop} {cs : List Char} (each : ∀ c ∈ cs, kind c) :
    ∀ lexeme ∈ bareOf cs, lexeme.Of kind := by
  intro lexeme listed
  rcases List.mem_map.mp listed with ⟨c, member, rfl⟩
  exact each c member

theorem Of.imp {kind other : Char → Prop} (weaker : ∀ c, kind c → other c) {lexeme : Lexeme}
    (of : lexeme.Of kind) : lexeme.Of other := by
  cases lexeme with
  | bare c => exact weaker c of
  | quoted quote inner => exact of

end Lexeme

/-! ## Kinds of characters -/

/-- None of these characters is of a kind. -/
def excludes (kind : Char → Bool) (others : List Char) : Bool := others.all fun c => !kind c

theorem eq_false_of_excludes {kind : Char → Bool} {others : List Char}
    (foreign : excludes kind others = true) : ∀ other ∈ others, kind other = false := by
  intro other listed
  have none := List.all_eq_true.mp foreign other listed
  rwa [Bool.not_eq_true'] at none

/-- A character of a kind is none that is not of it. -/
theorem ne_of_kind {kind : Char → Bool} {c other : Char} (part : kind c = true)
    (foreign : kind other = false) : c ≠ other := by
  rintro rfl
  rw [part] at foreign
  cases foreign

theorem isQuote_of_kind {kind : Char → Bool} {c : Char} (part : kind c = true)
    (apostrophe : kind '\'' = false) (double : kind '"' = false) : isQuote c = false := by
  simp only [isQuote, Bool.or_eq_false_iff, beq_eq_false_iff_ne]
  exact ⟨ne_of_kind part apostrophe, ne_of_kind part double⟩

/-- Blanks are no quotes. -/
theorem isQuote_of_isBlank {c : Char} (blank : isBlank c = true) : isQuote c = false :=
  isQuote_of_kind blank rfl rfl

/-! ## Scanning lexemes -/

/-- How deep a scan is in brackets behind a character. -/
def Brackets.after (brackets : Brackets) (depth : Nat) (c : Char) : Nat :=
  if c == brackets.opening then depth + 1
  else if c == brackets.closing then depth - 1
  else depth

/-- Whether quotes count at some depth. -/
def Brackets.quotesAt (brackets : Brackets) (depth : Nat) : Bool :=
  brackets.quotesEverywhere || depth != 0

theorem advance_bare {depth : Nat} {c : Char}
    (plain : isQuote c = true → brackets.quotesAt depth = false) :
    (Scan.mk depth none).advance brackets c = ⟨brackets.after depth c, none⟩ := by
  have none : (isQuote c && (brackets.quotesEverywhere || depth != 0)) = false := by
    cases quote : isQuote c with
    | false => rfl
    | true => exact plain quote
  simp only [Scan.advance, none, Bool.false_eq_true, if_false, Brackets.after]
  split
  · rfl
  · split <;> rfl

/-- Between quotes everything is passed up to the closing one. -/
theorem passes_inner {depth : Nat} {quote : Char} {inner : List Char} (closed : quote ∉ inner) :
    Passes brackets separator ⟨depth, some quote⟩ (inner ++ [quote]) ⟨depth, none⟩ := by
  induction inner with
  | nil =>
    have closes : (Scan.mk depth (some quote)).advance brackets quote = ⟨depth, none⟩ := by
      simp [Scan.advance]
    refine .step (by simp [Scan.isOutside]) ?_
    rw [closes]
    exact .done _
  | cons c rest ih =>
    have stays : (Scan.mk depth (some quote)).advance brackets c = ⟨depth, some quote⟩ := by
      have other : c ≠ quote := fun same => closed (by rw [same]; exact .head _)
      simp [Scan.advance, other]
    refine .step (by simp [Scan.isOutside]) ?_
    rw [stays]
    exact ih fun member => closed (.tail _ member)

/-- A scan agrees with lexemes about what is a quote, and goes over them from one depth to
another without meeting a separator outside of brackets. -/
inductive Scans (brackets : Brackets) (separator : Char) : Nat → List Lexeme → Nat → Prop
  | done (depth : Nat) : Scans brackets separator depth [] depth
  | bare {depth deep : Nat} {c : Char} {rest : List Lexeme}
      (between : c = separator → depth ≠ 0)
      (plain : isQuote c = true → brackets.quotesAt depth = false)
      (onward : Scans brackets separator (brackets.after depth c) rest deep) :
      Scans brackets separator depth (.bare c :: rest) deep
  | quoted {depth deep : Nat} {quote : Char} {inner : List Char} {rest : List Lexeme}
      (quotes : isQuote quote = true) (counts : brackets.quotesAt depth = true)
      (between : quote ≠ separator) (closed : quote ∉ inner)
      (onward : Scans brackets separator depth rest deep) :
      Scans brackets separator depth (.quoted quote inner :: rest) deep

theorem Scans.append {depth middle deep : Nat} {front back : List Lexeme}
    (first : Scans brackets separator depth front middle)
    (second : Scans brackets separator middle back deep) :
    Scans brackets separator depth (front ++ back) deep := by
  induction first with
  | done => exact second
  | bare between plain _ ih => exact .bare between plain (ih second)
  | quoted quotes counts between closed _ ih =>
    exact .quoted quotes counts between closed (ih second)

theorem Scans.passes {depth deep : Nat} {lexemes : List Lexeme}
    (scans : Scans brackets separator depth lexemes deep) :
    Passes brackets separator ⟨depth, none⟩ (Lexeme.write lexemes) ⟨deep, none⟩ := by
  induction scans with
  | done => exact .done _
  | @bare depth deep c rest between plain _ ih =>
    refine .step (fun outside => between outside.1 ?_) ?_
    · simpa [Scan.isOutside] using outside.2
    · rw [advance_bare plain]
      exact ih
  | @quoted depth deep quote inner rest quotes counts between closed _ ih =>
    have opens : (Scan.mk depth none).advance brackets quote = ⟨depth, some quote⟩ := by
      have both : (isQuote quote && (brackets.quotesEverywhere || depth != 0)) = true := by
        rw [quotes, Bool.true_and]
        exact counts
      simp only [Scan.advance, both, if_true]
    refine .step (fun outside => between outside.1) ?_
    rw [opens]
    exact (passes_inner closed).append ih

/-- Lexemes that are no brackets leave a scan at its depth. -/
theorem scans_of_forall (kind : Char → Prop) {depth : Nat}
    (plain : ∀ c, kind c → (isQuote c = true → brackets.quotesAt depth = false) ∧
      c ≠ brackets.opening ∧ c ≠ brackets.closing ∧ (c = separator → depth ≠ 0))
    {lexemes : List Lexeme} (each : ∀ lexeme ∈ lexemes, lexeme.Of kind)
    (quotes : ∀ quote inner, Lexeme.quoted quote inner ∈ lexemes →
      brackets.quotesAt depth = true ∧ isQuote separator = false) :
    Scans brackets separator depth lexemes depth := by
  induction lexemes with
  | nil => exact .done _
  | cons lexeme rest ih =>
    have onward := ih (fun other listed => each other (.tail _ listed))
      fun quote inner listed => quotes quote inner (.tail _ listed)
    have own := each lexeme (.head _)
    cases lexeme with
    | bare c =>
      rcases plain c own with ⟨unquoted, opening, closing, between⟩
      refine .bare between unquoted ?_
      have same : brackets.after depth c = depth := by simp [Brackets.after, opening, closing]
      rw [same]
      exact onward
    | quoted quote inner =>
      rcases quotes quote inner (.head _) with ⟨counts, other⟩
      refine .quoted own.1 counts ?_ own.2 onward
      rintro rfl
      rw [own.1] at other
      cases other

theorem scans_intercalate {depth : Nat} {mark : Char} (still : brackets.after depth mark = depth)
    (markPlain : isQuote mark = false) (between : mark = separator → depth ≠ 0)
    {parts : List (List Lexeme)}
    (each : ∀ part ∈ parts, Scans brackets separator depth part depth) :
    Scans brackets separator depth ([Lexeme.bare mark].intercalate parts) depth := by
  induction parts with
  | nil => exact .done _
  | cons part more ih =>
    have onward := ih fun other listed => each other (.tail _ listed)
    have own := each part (.head _)
    cases more with
    | nil =>
      rw [List.intercalate_singleton]
      exact own
    | cons next rest =>
      rw [List.intercalate_cons_cons, List.append_assoc]
      refine own.append (.bare between (by simp [markPlain]) ?_)
      rw [still]
      exact onward

/-! ## Blanks between lexemes -/

/-- A scan does not mind blanks. -/
theorem Scans.spaced (opening : isBlank brackets.opening = false)
    (closing : isBlank brackets.closing = false) (separates : isBlank separator = false)
    {depth deep : Nat} {lexemes : List Lexeme}
    (scans : Scans brackets separator depth (lexemes.filter Lexeme.shows) deep) :
    Scans brackets separator depth lexemes deep := by
  induction lexemes generalizing depth with
  | nil => exact scans
  | cons lexeme rest ih =>
    cases shown : lexeme.shows with
    | true =>
      rw [List.filter_cons_of_pos shown] at scans
      cases scans with
      | bare between plain onward => exact .bare between plain (ih onward)
      | quoted quotes counts between closed onward =>
        exact .quoted quotes counts between closed (ih onward)
    | false =>
      rw [List.filter_cons_of_neg (by simp [shown])] at scans
      cases lexeme with
      | quoted quote inner => cases shown
      | bare c =>
        have blank : isBlank c = true := by simpa [Lexeme.shows] using shown
        have differs : ∀ other, isBlank other = false → c ≠ other := by
          rintro other visible rfl
          rw [blank] at visible
          cases visible
        have same : brackets.after depth c = depth := by
          simp [Brackets.after, differs _ opening, differs _ closing]
        refine .bare (fun impossible => absurd impossible (differs _ separates))
          (by simp [isQuote_of_isBlank blank]) ?_
        rw [same]
        exact ih scans

end Stencil.Text
