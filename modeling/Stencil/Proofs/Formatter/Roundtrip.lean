import Stencil.Proofs.Fallible
import Stencil.Proofs.Formatter.Spelling
import Stencil.Proofs.Marker.Inversion

namespace Stencil.Formatter

open Text (Lexeme Brackets Passes isBlank isQuote Trimmed)
open Text.Lexeme (bareOf write)

/-!
# Chains are read as they are spelled

A chain is cut at its colons, a call at its parenthesis and what stands in parentheses at
the commas, each time by a scan of the piece alone.  The pieces of a spelled chain are made
of blanks, names, fields and texts between quotes, and in none of these a separator counts.
So every cut is made where the spelling has put a separator, and the calls that are read
are those that were spelled.
-/

/-! ## Plain texts -/

/-- A text without typographic quotes, written in lexemes of a kind. -/
structure Plain (kind : Char → Bool) (text : List Char) : Prop where
  straight : ∀ c ∈ text, isTypographicQuote c = false
  lexical : ∃ lexemes, (∀ lexeme ∈ lexemes, lexeme.Of fun c => kind c = true) ∧ write lexemes = text

variable {kind : Char → Bool}

theorem plain_of_forall {text : List Char}
    (each : ∀ c ∈ text, kind c = true ∧ isTypographicQuote c = false) : Plain kind text where
  straight c member := (each c member).2
  lexical :=
    ⟨bareOf text, Lexeme.of_bareOf fun c member => (each c member).1, Lexeme.write_bareOf _⟩

theorem Plain.imp {other : Char → Bool} (weaker : ∀ c, kind c = true → other c = true)
    {text : List Char} (plain : Plain kind text) : Plain other text := by
  rcases plain.lexical with ⟨lexemes, each, written⟩
  exact ⟨plain.straight, lexemes, fun lexeme listed => (each lexeme listed).imp weaker, written⟩

theorem Plain.append {front back : List Char} (first : Plain kind front)
    (second : Plain kind back) : Plain kind (front ++ back) := by
  rcases first.lexical with ⟨lexemes, each, rfl⟩
  rcases second.lexical with ⟨others, every, rfl⟩
  refine ⟨fun c member => ?_, lexemes ++ others, fun lexeme listed => ?_, Lexeme.write_append _ _⟩
  · exact (List.mem_append.mp member).elim (first.straight c) (second.straight c)
  · exact (List.mem_append.mp listed).elim (each lexeme) (every lexeme)

theorem plain_intercalate {separator : Char} (own : Plain kind [separator])
    {parts : List (List Char)} (each : ∀ part ∈ parts, Plain kind part) :
    Plain kind ([separator].intercalate parts) := by
  induction parts with
  | nil => exact plain_of_forall fun c impossible => by cases impossible
  | cons part more ih =>
    have onward := ih fun other listed => each other (.tail _ listed)
    cases more with
    | nil =>
      rw [List.intercalate_singleton]
      exact each part (.head _)
    | cons next rest =>
      rw [List.intercalate_cons_cons]
      exact ((each part (.head _)).append own).append onward

/-- A scan for a separator that is not of the kind goes over a plain text. -/
theorem Plain.passes {text : List Char} (plain : Plain kind text) {separator : Char} (depth : Nat)
    (foreign : Text.excludes kind ['\'', '"', '(', ')', separator] = true)
    (unquoted : isQuote separator = false) :
    Passes .arguments separator ⟨depth, none⟩ text ⟨depth, none⟩ := by
  rcases plain.lexical with ⟨lexemes, each, rfl⟩
  simp only [Text.excludes, List.all_cons, List.all_nil, Bool.and_true, Bool.and_eq_true,
    Bool.not_eq_true'] at foreign
  rcases foreign with ⟨apostrophe, double, opening, closing, separates⟩
  refine (Text.scans_of_forall (fun c => kind c = true) (fun c part => ?_) each
    fun quote inner listed => ⟨rfl, unquoted⟩).passes
  refine ⟨fun impossible => ?_, Text.ne_of_kind part opening, Text.ne_of_kind part closing,
    fun same => absurd same (Text.ne_of_kind part separates)⟩
  rw [Text.isQuote_of_kind part apostrophe double] at impossible
  cases impossible

/-- Nothing in a text without typographic quotes has to be straightened. -/
theorem straighten_eq_self {text : List Char}
    (straight : ∀ c ∈ text, isTypographicQuote c = false) : straighten text = text := by
  have same : text.map (fun c => if isTypographicQuote c then '\'' else c) = text.map id :=
    List.map_congr_left fun c member => by simp [straight c member]
  rw [straighten, same, List.map_id]

/-! ## Blanks around a text -/

/-- The characters of the pieces of a call: those of fields, and blanks. -/
def isCallPart (c : Char) : Bool := isBlank c || isFieldPart c

theorem isCallPart_of_isFieldPart {c : Char} (part : isFieldPart c = true) :
    isCallPart c = true := by
  rw [isCallPart, part, Bool.or_true]

theorem Blanks.plain {text : List Char} (blanks : Blanks text) : Plain isCallPart text :=
  plain_of_forall fun c member =>
    ⟨by rw [isCallPart, blanks c member, Bool.true_or],
      isTypographicQuote_of_kind (blanks c member) rfl⟩

theorem Spread.plain {cs text : List Char} (spread : Spread cs text)
    (plain : Plain isFieldPart cs) : Plain isCallPart text := by
  cases spread with
  | intro before after =>
    exact (before.plain.append (plain.imp fun _ => isCallPart_of_isFieldPart)).append after.plain

theorem Spread.trim {cs text : List Char} (spread : Spread cs text) (trimmed : Trimmed cs) :
    Text.trim text = cs := by
  cases spread with
  | intro before after => exact Text.trim_surrounded before trimmed after

theorem Spread.mem {cs text : List Char} (spread : Spread cs text) {c : Char} (member : c ∈ cs) :
    c ∈ text := by
  cases spread with
  | intro before after => exact List.mem_append_left _ (List.mem_append_right _ member)

/-! ## Arguments -/

/-- A word of the characters of fields, or a text between quotes that it does not hold. -/
inductive Atom : List Char → Prop
  | word {cs : List Char} (nonempty : cs ≠ []) (parts : ∀ c ∈ cs, isFieldPart c = true) : Atom cs
  | quoted {quote : Char} {inner : List Char} (quotes : isQuote quote = true)
      (closed : quote ∉ inner) (straight : ∀ c ∈ inner, isTypographicQuote c = false) :
      Atom (quote :: (inner ++ [quote]))

theorem isBlank_of_isQuote {c : Char} (quotes : isQuote c = true) : isBlank c = false := by
  cases blank : isBlank c with
  | false => rfl
  | true =>
    rw [Text.isQuote_of_isBlank blank] at quotes
    cases quotes

theorem Atom.plain {cs : List Char} (atom : Atom cs) : Plain isFieldPart cs := by
  cases atom with
  | word _ parts =>
    exact plain_of_forall fun c member =>
      ⟨parts c member, isTypographicQuote_of_isFieldPart (parts c member)⟩
  | @quoted quote inner quotes closed straight =>
    have own : isTypographicQuote quote = false := isTypographicQuote_of_kind quotes rfl
    refine ⟨fun c member => ?_, [.quoted quote inner], fun lexeme listed => ?_, ?_⟩
    · rcases List.mem_cons.mp member with rfl | behind
      · exact own
      · rcases List.mem_append.mp behind with inside | last
        · exact straight c inside
        · rw [List.mem_singleton.mp last]
          exact own
    · rw [List.mem_singleton.mp listed]
      exact ⟨quotes, closed⟩
    · simp [Lexeme.chars]

theorem Atom.trimmed {cs : List Char} (atom : Atom cs) : Trimmed cs := by
  cases atom with
  | word _ parts =>
    exact Text.trimmed_of_forall fun c member => isBlank_of_isFieldPart (parts c member)
  | @quoted quote inner quotes _ _ =>
    have visible := isBlank_of_isQuote quotes
    refine ⟨fun c head => ?_, fun c last => ?_⟩
    · cases head
      exact visible
    · rw [← List.cons_append, List.getLast?_concat] at last
      cases last
      exact visible

theorem Atom.ne_nil {cs : List Char} (atom : Atom cs) : cs ≠ [] := by
  cases atom with
  | word nonempty _ => exact nonempty
  | quoted _ _ _ => exact List.cons_ne_nil _ _

theorem Atom.visible {cs : List Char} (atom : Atom cs) : ∃ c ∈ cs, isBlank c = false := by
  rcases List.exists_cons_of_ne_nil atom.ne_nil with ⟨first, rest, rfl⟩
  exact ⟨first, .head _, atom.trimmed.first first rfl⟩

theorem written_integer (n : Int) :
    (Argument.literal (.number (.integer n))).written = Numeric.integerText n := by
  simp [Argument.written, Argument.text, Value.json, Number.json]

/-- A text is written between quotes that it does not hold, if there are such. -/
theorem written_string (s : String) : ∃ quote, isQuote quote = true ∧
    (('\'' ∈ s.toList → '"' ∉ s.toList) → quote ∉ s.toList) ∧
    (Argument.literal (.string s)).written = quote :: (s.toList ++ [quote]) := by
  by_cases apostrophe : '\'' ∈ s.toList
  · refine ⟨'"', rfl, fun one => one apostrophe, ?_⟩
    simp [Argument.written, apostrophe]
  · refine ⟨'\'', rfl, fun _ => apostrophe, ?_⟩
    simp [Argument.written, Argument.text, apostrophe]

theorem written_field (up : Nat) (name : String) :
    (Argument.field up name).written = '.' :: (List.replicate up '.' ++ name.toList) := by
  simp [Argument.written, Argument.text, List.replicate_succ]

theorem Argument.Writable.atom {argument : Argument} (writable : argument.Writable) :
    Atom argument.written := by
  cases writable with
  | integer n fits =>
    rw [written_integer]
    rcases Marker.integerText_eq_cons n with ⟨first, rest, shown, -⟩
    refine .word (by rw [shown]; exact List.cons_ne_nil _ _) fun c member => ?_
    exact isFieldPart_of_isItemPart (Marker.isItemPart_of_mem_integerText member)
  | text s one straight =>
    rcases written_string s with ⟨quote, quotes, closed, written⟩
    rw [written]
    exact .quoted quotes (closed one) straight
  | field up name _ parts _ =>
    rw [written_field]
    refine .word (List.cons_ne_nil _ _) fun c member => ?_
    rcases List.mem_cons.mp member with rfl | behind
    · rfl
    · rcases List.mem_append.mp behind with point | inside
      · rw [List.eq_of_mem_replicate point]
        rfl
      · exact parts c inside

theorem readArgument_word {cs : List Char} {first : Char} {rest : List Char}
    (raw : Text.trim cs = first :: rest) (unquoted : isQuote first = false) (other : first ≠ '.') :
    readArgument cs = .ok (.literal (.ofWord (first :: rest))) := by
  simp only [readArgument, raw]
  split
  · next impossible => cases impossible
  · next same =>
    cases same
    cases unquoted
  · next same =>
    cases same
    cases unquoted
  · next same =>
    cases same
    exact absurd rfl other
  · rfl

theorem readArgument_quoted {cs : List Char} {quote : Char} {inner : List Char}
    (raw : Text.trim cs = quote :: (inner ++ [quote])) (quotes : isQuote quote = true) :
    readArgument cs = .ok (.literal (.string (String.ofList inner))) := by
  simp only [isQuote, Bool.or_eq_true, beq_iff_eq] at quotes
  rcases quotes with rfl | rfl
  · simp only [readArgument, raw, readQuoted, Text.dropLast?_concat]
  · simp only [readArgument, raw, readQuoted, Text.dropLast?_concat]

theorem readArgument_field {cs : List Char} {up : Nat} {name : List Char}
    (raw : Text.trim cs = '.' :: (List.replicate up '.' ++ name)) (nonempty : name ≠ [])
    (leads : name.head? ≠ some '.') :
    readArgument cs = .ok (.field up (String.ofList name)) := by
  have points : ('.' :: (List.replicate up '.' ++ name)).dropWhile (· == '.') = name := by
    rw [List.dropWhile_cons_of_pos rfl, List.dropWhile_append_of_pos fun c point => by
      rw [List.eq_of_mem_replicate point]; rfl]
    rcases List.exists_cons_of_ne_nil nonempty with ⟨first, rest, rfl⟩
    exact List.dropWhile_cons_of_neg (by simpa using leads)
  have climbed : ('.' :: (List.replicate up '.' ++ name)).length - name.length - 1 = up := by
    simp only [List.length_cons, List.length_append, List.length_replicate]
    omega
  simp only [readArgument, raw, readField, points, climbed,
    List.isEmpty_eq_false_iff.mpr nonempty, Bool.false_eq_true, if_false]

/-- An argument is read as it is written. -/
theorem Argument.Writable.readArgument {argument : Argument} (writable : argument.Writable)
    {text : List Char} (spread : Spread argument.written text) :
    Formatter.readArgument text = .ok argument := by
  have raw := spread.trim writable.atom.trimmed
  cases writable with
  | integer n fits =>
    rw [written_integer] at raw
    rcases Marker.integerText_eq_cons n with ⟨first, rest, shown, unquoted⟩
    have other : first ≠ '.' := by
      rintro rfl
      have begins : '.' ∈ Numeric.integerText n := by
        rw [shown]
        exact .head _
      rcases Numeric.isDigit_or_sign begins with impossible | impossible
      · cases impossible
      · cases impossible
    rw [readArgument_word (raw.trans shown) unquoted other, ← shown]
    simp only [Value.ofWord, Marker.readInteger?_integerText fits]
  | text s one straight =>
    rcases written_string s with ⟨quote, quotes, -, written⟩
    rw [readArgument_quoted (raw.trans written) quotes, String.ofList_toList]
  | field up name nonempty parts leads =>
    rw [readArgument_field (raw.trans (written_field up name)) nonempty leads, String.ofList_toList]

/-! ## Calls -/

/-- The characters between parentheses outside of quotes. -/
def isListPart (c : Char) : Bool := isCallPart c || c == ','

/-- Of two lists that correspond, each item of the second has one of the first. -/
theorem exists_of_forall₂ {α β : Type} {R : α → β → Prop} {items : List α} {others : List β}
    (each : List.Forall₂ R items others) : ∀ other ∈ others, ∃ item ∈ items, R item other := by
  induction each with
  | nil =>
    intro other impossible
    cases impossible
  | cons related _ ih =>
    intro other listed
    rcases List.mem_cons.mp listed with rfl | behind
    · exact ⟨_, .head _, related⟩
    · rcases ih other behind with ⟨item, member, own⟩
      exact ⟨item, .tail _ member, own⟩

theorem Listed.plain {arguments : List Argument} {inner : List Char}
    (listed : Listed arguments inner) (writable : ∀ argument ∈ arguments, argument.Writable) :
    Plain isListPart inner := by
  have wider : ∀ c, isCallPart c = true → isListPart c = true := by
    intro c part
    rw [isListPart, part, Bool.true_or]
  cases listed with
  | none blank => exact (Blanks.plain blank).imp wider
  | some _ each =>
    apply plain_intercalate
    · exact plain_of_forall fun c member => by
        rw [List.mem_singleton.mp member]
        decide
    · intro part given
      rcases exists_of_forall₂ each part given with ⟨argument, member, spread⟩
      exact (spread.plain (writable argument member).atom.plain).imp wider

/-- Arguments are read as they are listed. -/
theorem Listed.readArguments {arguments : List Argument} {inner : List Char}
    (listed : Listed arguments inner) (writable : ∀ argument ∈ arguments, argument.Writable) :
    Formatter.readArguments inner = .ok arguments := by
  cases listed with
  | none blank =>
    rw [Formatter.readArguments, Text.trim_blanks blank]
    rfl
  | @some arguments parts nonempty each =>
    have passes : ∀ part ∈ parts, Passes .arguments ',' .start part .start := by
      intro part given
      rcases exists_of_forall₂ each part given with ⟨argument, member, spread⟩
      exact (spread.plain (writable argument member).atom.plain).passes 0 rfl rfl
    have read : parts.mapM readArgument = .ok arguments := by
      apply mapM_eq_ok_of_forall₂
      have both := (List.forall₂_and_left _ _).mpr ⟨writable, each⟩
      exact both.imp fun argument part own => own.1.readArgument own.2
    cases each with
    | nil => exact absurd rfl nonempty
    | @cons argument part arguments more spread _ =>
      have visible : ∃ c ∈ [','].intercalate (part :: more), isBlank c = false := by
        rcases (writable argument (.head _)).atom.visible with ⟨c, member, shown⟩
        refine ⟨c, ?_, shown⟩
        cases more with
        | nil =>
          rw [List.intercalate_singleton]
          exact spread.mem member
        | cons next rest =>
          rw [List.intercalate_cons_cons, List.append_assoc]
          exact List.mem_append_left _ (spread.mem member)
      rw [Formatter.readArguments, List.isEmpty_eq_false_iff.mpr (Text.trim_ne_nil visible),
        Text.splitParts_intercalate rfl passes, if_neg Bool.false_ne_true, read]

/-- A call without a parenthesis is a name. -/
theorem readCall_alone {cs raw : List Char} (trimmed : Text.trim cs = raw) (unopened : '(' ∉ raw) :
    readCall cs = makeCall raw [] := by
  have whole : raw.dropWhile (· != '(') = [] := by
    apply List.dropWhile_eq_nil_iff.mpr
    intro c member
    exact bne_iff_ne.mpr fun same => unopened (same ▸ member)
  simp only [readCall, trimmed, whole]

/-- A call with one is a name and arguments. -/
theorem readCall_applied {cs front inner : List Char}
    (trimmed : Text.trim cs = front ++ '(' :: (inner ++ [')'])) (unopened : '(' ∉ front) :
    readCall cs = readArguments inner >>= makeCall (Text.trim front) := by
  have run : ∀ c ∈ front, (c != '(') = true := by
    intro c member
    exact bne_iff_ne.mpr fun same => unopened (same ▸ member)
  have stops : Text.StopsAt (fun c => (c != '(') = true) ('(' :: (inner ++ [')'])) :=
    Text.stopsAt_of_eq_false rfl
  simp only [readCall, trimmed, Text.takeWhile_of_stopsAt run stops,
    Text.dropWhile_of_stopsAt run stops, Text.dropLast?_concat]

theorem Call.Writable.name_atom {call : Call} (writable : call.Writable) :
    Atom call.name.toList := by
  have named := writable.named
  simp only [isFormatterName, Bool.and_eq_true, Bool.not_eq_true',
    List.isEmpty_eq_false_iff] at named
  exact .word named.1 (isFieldPart_of_isFormatterName writable.named)

theorem Call.Writable.unopened {call : Call} (writable : call.Writable) {blanks : List Char}
    (after : Blanks blanks) : '(' ∉ call.name.toList ++ blanks := by
  intro opening
  rcases List.mem_append.mp opening with inside | behind
  · have part := isFieldPart_of_isFormatterName writable.named '(' inside
    cases part
  · have blank := after '(' behind
    cases blank

theorem Call.Writable.makeCall {call : Call} (writable : call.Writable) :
    Formatter.makeCall call.name.toList call.arguments = .ok call := by
  rw [Formatter.makeCall, if_pos writable.named, String.ofList_toList]

/-- A call is read as it is spelled. -/
theorem Spelled.readCall {call : Call} {text : List Char} (spelled : Spelled call text)
    (writable : call.Writable) : Formatter.readCall text = .ok call := by
  have name := writable.name_atom
  cases spelled with
  | alone none spread =>
    have unopened : '(' ∉ call.name.toList ++ [] :=
      writable.unopened fun _ impossible => by cases impossible
    rw [List.append_nil] at unopened
    rw [readCall_alone (spread.trim name.trimmed) unopened, ← none]
    exact writable.makeCall
  | @applied front inner back spread listed behind =>
    cases spread with
    | @intro first last before after =>
      have raw : Text.trim (first ++ call.name.toList ++ last ++ '(' :: (inner ++ ')' :: back)) =
          call.name.toList ++ last ++ '(' :: (inner ++ [')']) := by
        have grouped : first ++ call.name.toList ++ last ++ '(' :: (inner ++ ')' :: back) =
            first ++ (call.name.toList ++ last ++ '(' :: (inner ++ [')'])) ++ back := by simp
        rw [grouped]
        refine Text.trim_surrounded before ⟨fun c head => ?_, fun c final => ?_⟩ behind
        · rcases List.exists_cons_of_ne_nil name.ne_nil with ⟨initial, rest, shown⟩
          rw [shown] at head
          cases head
          exact name.trimmed.first c (by rw [shown]; rfl)
        · rw [← List.cons_append, ← List.append_assoc, List.getLast?_concat] at final
          cases final
          rfl
      have named : Text.trim ([] ++ call.name.toList ++ last) = call.name.toList :=
        Text.trim_surrounded (fun _ impossible => by cases impossible) name.trimmed after
      rw [List.nil_append] at named
      rw [readCall_applied raw (writable.unopened after), listed.readArguments writable.arguments,
        named]
      exact writable.makeCall

/-! ## Chains -/

theorem Spelled.straight {call : Call} {text : List Char} (spelled : Spelled call text)
    (writable : call.Writable) : ∀ c ∈ text, isTypographicQuote c = false := by
  cases spelled with
  | alone _ spread => exact (spread.plain writable.name_atom.plain).straight
  | applied spread listed behind =>
    intro c member
    rcases List.mem_append.mp member with ahead | member
    · exact (spread.plain writable.name_atom.plain).straight c ahead
    · rcases List.mem_cons.mp member with rfl | member
      · rfl
      · rcases List.mem_append.mp member with inside | member
        · exact (listed.plain writable.arguments).straight c inside
        · rcases List.mem_cons.mp member with rfl | after
          · rfl
          · exact (Blanks.plain behind).straight c after

/-- No colon of a call counts: those there are stand between parentheses or quotes. -/
theorem Spelled.passes {call : Call} {text : List Char} (spelled : Spelled call text)
    (writable : call.Writable) : Passes .arguments ':' .start text .start := by
  cases spelled with
  | alone _ spread => exact (spread.plain writable.name_atom.plain).passes 0 rfl rfl
  | applied spread listed behind =>
    refine ((spread.plain writable.name_atom.plain).passes 0 rfl rfl).append ?_
    refine .step (fun impossible => by cases impossible.1) ?_
    refine ((listed.plain writable.arguments).passes 1 rfl rfl).append ?_
    refine .step (fun impossible => by cases impossible.1) ?_
    exact (Blanks.plain behind).passes 0 rfl rfl

/-- A chain is read as the calls it was spelled from, and so are the calls one by one. -/
theorem readChain_spelled {calls : List Call} {texts : List (List Char)} (nonempty : calls ≠ [])
    (writable : ∀ call ∈ calls, call.Writable) (spelled : List.Forall₂ Spelled calls texts) :
    readChain ([':'].intercalate texts) = .ok calls ∧
      ∀ base, Chain.ofTexts base (texts.map String.ofList) = .ok ⟨base, calls⟩ := by
  have both := (List.forall₂_and_left _ _).mpr ⟨writable, spelled⟩
  have straight : ∀ text ∈ texts, ∀ c ∈ text, isTypographicQuote c = false := by
    intro text given
    rcases exists_of_forall₂ spelled text given with ⟨call, member, own⟩
    exact own.straight (writable call member)
  have passes : ∀ text ∈ texts, Passes .arguments ':' .start text .start := by
    intro text given
    rcases exists_of_forall₂ spelled text given with ⟨call, member, own⟩
    exact own.passes (writable call member)
  constructor
  · have whole : straighten ([':'].intercalate texts) = [':'].intercalate texts := by
      apply straighten_eq_self
      intro c member
      rcases Condition.mem_intercalate member with colon | ⟨text, given, inside⟩
      · rw [List.mem_singleton.mp colon]
        rfl
      · exact straight text given c inside
    have read : texts.mapM readCall = .ok calls :=
      mapM_eq_ok_of_forall₂ (both.imp fun call text own => own.2.readCall own.1)
    cases spelled with
    | nil => exact absurd rfl nonempty
    | cons _ _ => rw [readChain, whole, Text.splitParts_intercalate rfl passes, read]
  · intro base
    have read : (texts.map String.ofList).mapM Call.ofText = .ok calls := by
      apply mapM_eq_ok_of_forall₂
      rw [List.forall₂_map_right_iff]
      refine both.imp fun call text own => ?_
      rw [Call.ofText, String.toList_ofList, straighten_eq_self (own.2.straight own.1)]
      exact own.2.readCall own.1
    rw [Chain.ofTexts, read]

/-- A call with arguments of each kind, one without any, and one with nothing in its
parentheses. -/
def sampleCalls : List Call :=
  [⟨"größe_2", [.literal (.number (.integer (-7))), .literal (.string "a'b, (:"),
      .literal (.string "\" :"), .field 1 "a.b"]⟩,
    ⟨"upper", []⟩, ⟨"lower", []⟩]

/-- The arguments of the first as they are spelled. -/
def sampleParts : List (List Char) :=
  [" -7 ".toList, "\"a'b, (:\"".toList, " '\" :'".toList, " ..a.b\n".toList]

def sampleTexts : List (List Char) :=
  [" größe_2 ".toList ++ '(' :: ([','].intercalate sampleParts ++ [')', ' ']), "upper ".toList,
    "lower".toList ++ '(' :: (" ".toList ++ [')'])]

theorem readChain_spelled_sample :
    readChain " größe_2 ( -7 ,\"a'b, (:\", '\" :', ..a.b\n) :upper :lower( )".toList =
        .ok sampleCalls ∧
      ∀ base, Chain.ofTexts base (sampleTexts.map String.ofList) = .ok ⟨base, sampleCalls⟩ := by
  have spread : ∀ cs text front back, text = front ++ cs ++ back → Blanks front → Blanks back →
      Spread cs text := by
    rintro cs text front back rfl before after
    exact .intro before after
  have first : ∀ argument ∈ (sampleCalls.head (by decide)).arguments, argument.Writable := by
    refine List.forall_mem_cons.mpr ⟨.integer (-7) (by decide), List.forall_mem_cons.mpr
      ⟨.text _ (by decide) (Text.eq_false_of_excludes (by decide)), List.forall_mem_cons.mpr
        ⟨.text _ (by decide) (Text.eq_false_of_excludes (by decide)), List.forall_mem_singleton.mpr
          (.field 1 "a.b" (by decide) (List.all_eq_true.mp (by decide)) (by decide))⟩⟩⟩
  have none : ∀ argument ∈ ([] : List Argument), argument.Writable :=
    fun _ impossible => by cases impossible
  have writable : ∀ call ∈ sampleCalls, call.Writable :=
    List.forall_mem_cons.mpr ⟨⟨by decide +kernel, first⟩, List.forall_mem_cons.mpr
      ⟨⟨by decide +kernel, none⟩, List.forall_mem_singleton.mpr ⟨by decide +kernel, none⟩⟩⟩
  have listed : Listed (sampleCalls.head (by decide)).arguments ([','].intercalate sampleParts) :=
    .some (by simp [sampleCalls])
      (.cons (spread _ _ [' '] [' '] (by decide +kernel) (by decide) (by decide))
        (.cons (spread _ _ [] [] (by decide +kernel) (by decide) (by decide))
          (.cons (spread _ _ [' '] [] (by decide +kernel) (by decide) (by decide))
            (.cons (spread _ _ [' '] ['\n'] (by decide +kernel) (by decide) (by decide)) .nil))))
  have spelled : List.Forall₂ Spelled sampleCalls sampleTexts :=
    .cons (.applied (spread _ _ [' '] [' '] (by decide +kernel) (by decide) (by decide)) listed
        (by decide))
      (.cons (.alone rfl (spread _ _ [] [' '] (by decide +kernel) (by decide) (by decide)))
        (.cons (.applied (spread _ _ [] [] (by decide +kernel) (by decide) (by decide))
          (.none (by decide)) (by decide)) .nil))
  exact readChain_spelled (by decide) writable spelled

end Stencil.Formatter
