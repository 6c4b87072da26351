import Mathlib.Data.List.Induction

namespace Stencil

/-!
# Steps that can fail

Markers, steps of a path and pieces of a layout are all taken one after the
other, each step giving a new state or an error.  These are the lemmas by which
a run of such steps is taken apart and by which an invariant of one step becomes
one of the run.
-/

variable {ε α β σ : Type}

theorem bind_eq_ok {first : Except ε α} {next : α → Except ε β} {result : β} :
    (first >>= next) = .ok result ↔ ∃ value, first = .ok value ∧ next value = .ok result := by
  cases first with
  | error e =>
    constructor
    · intro impossible
      cases impossible
    · rintro ⟨value, impossible, -⟩
      cases impossible
  | ok value =>
    constructor
    · intro continued
      exact ⟨value, rfl, continued⟩
    · rintro ⟨other, same, continued⟩
      cases same
      exact continued

theorem bind_eq_error {first : Except ε α} {next : α → Except ε β} {fault : ε} :
    (first >>= next) = .error fault ↔
      first = .error fault ∨ ∃ value, first = .ok value ∧ next value = .error fault := by
  cases first with
  | error other =>
    constructor
    · intro same
      cases same
      exact .inl rfl
    · rintro (same | ⟨value, impossible, -⟩)
      · cases same
        rfl
      · cases impossible
  | ok value =>
    constructor
    · intro continued
      exact .inr ⟨value, rfl, continued⟩
    · rintro (impossible | ⟨other, same, continued⟩)
      · cases impossible
      · cases same
        exact continued

theorem map_eq_error {first : Except ε α} {change : α → β} {fault : ε} :
    first.map change = .error fault ↔ first = .error fault := by
  cases first <;> simp [Except.map]

theorem map_eq_ok {first : Except ε α} {change : α → β} {result : β} :
    first.map change = .ok result ↔ ∃ value, first = .ok value ∧ change value = result := by
  cases first <;> simp [Except.map]

theorem elim_eq_ok {value? : Option α} {fault : ε} {value : α} :
    value?.elim (.error fault) .ok = (.ok value : Except ε α) ↔ value? = some value := by
  cases value? with
  | none => simp
  | some other => simp

theorem exists_of_isOk {outcome : Except ε α} (succeeds : outcome.isOk = true) :
    ∃ value, outcome = .ok value := by
  cases outcome with
  | error e => cases succeeds
  | ok value => exact ⟨value, rfl⟩

theorem eq_ok_of_toOption {outcome : Except ε α} {value : α}
    (shown : outcome.toOption = some value) : outcome = .ok value := by
  cases outcome with
  | error e => cases shown
  | ok other =>
    cases shown
    rfl

theorem foldlM_cons_eq_ok {step : σ → α → Except ε σ} {item : α} {items : List α}
    {before after : σ} :
    (item :: items).foldlM step before = .ok after ↔
      ∃ between, step before item = .ok between ∧ items.foldlM step between = .ok after := by
  rw [List.foldlM_cons, bind_eq_ok]

theorem foldlM_append_eq_ok {step : σ → α → Except ε σ} {front back : List α}
    {before after : σ} :
    (front ++ back).foldlM step before = .ok after ↔
      ∃ between, front.foldlM step before = .ok between ∧
        back.foldlM step between = .ok after := by
  rw [List.foldlM_append, bind_eq_ok]

theorem foldlM_nil_eq_ok {step : σ → α → Except ε σ} {before after : σ} :
    ([] : List α).foldlM step before = .ok after ↔ before = after := by
  rw [List.foldlM_nil]
  constructor
  · intro same
    cases same
    rfl
  · intro same
    rw [same]
    rfl

theorem foldlM_concat_eq_ok {step : σ → α → Except ε σ} {item : α} {items : List α}
    {before after : σ} :
    (items ++ [item]).foldlM step before = .ok after ↔
      ∃ between, items.foldlM step before = .ok between ∧ step between item = .ok after := by
  rw [List.foldlM_append, bind_eq_ok]
  simp only [foldlM_cons_eq_ok, foldlM_nil_eq_ok, exists_eq_right]

/-- A run that fails has a first step that does. -/
theorem foldlM_eq_error {step : σ → α → Except ε σ} {items : List α} {fault : ε} :
    ∀ {start : σ}, items.foldlM step start = .error fault →
      ∃ front item back before, items = front ++ item :: back ∧
        front.foldlM step start = .ok before ∧ step before item = .error fault := by
  induction items with
  | nil =>
    intro start impossible
    cases impossible
  | cons item rest ih =>
    intro start run
    rw [List.foldlM_cons] at run
    rcases bind_eq_error.mp run with first | ⟨between, first, later⟩
    · exact ⟨[], item, rest, start, rfl, foldlM_nil_eq_ok.mpr rfl, first⟩
    · rcases ih later with ⟨front, other, back, before, split, ran, fails⟩
      exact ⟨item :: front, other, back, before, by rw [split]; rfl,
        foldlM_cons_eq_ok.mpr ⟨between, first, ran⟩, fails⟩

/-- What every step preserves a run preserves. -/
theorem foldlM_induction {step : σ → α → Except ε σ} {motive : σ → Prop} {items : List α}
    (preserved : ∀ before item after, item ∈ items → motive before →
      step before item = .ok after → motive after) :
    ∀ {before after : σ}, motive before → items.foldlM step before = .ok after →
      motive after := by
  induction items with
  | nil =>
    intro before after start run
    exact foldlM_nil_eq_ok.mp run ▸ start
  | cons item items ih =>
    intro before after start run
    obtain ⟨between, first, rest⟩ := foldlM_cons_eq_ok.mp run
    exact ih (fun before item after member => preserved before item after (.tail _ member))
      (preserved before item between (.head _) start first) rest

/-- Steps that go along with each other make runs that do. -/
theorem foldlM_map_beside {τ : Type} {step : σ → α → Except ε σ}
    {other : τ → β → Except ε τ} {change : α → β} {beside : σ → τ → Prop} {items : List α}
    (preserved : ∀ before image item after, item ∈ items → beside before image →
      step before item = .ok after →
      ∃ imageAfter, other image (change item) = .ok imageAfter ∧ beside after imageAfter) :
    ∀ {before after : σ} {image : τ}, beside before image → items.foldlM step before = .ok after →
      ∃ imageAfter, (items.map change).foldlM other image = .ok imageAfter ∧
        beside after imageAfter := by
  induction items with
  | nil =>
    intro before after image start run
    exact ⟨image, foldlM_nil_eq_ok.mpr rfl, foldlM_nil_eq_ok.mp run ▸ start⟩
  | cons item items ih =>
    intro before after image start run
    obtain ⟨between, first, rest⟩ := foldlM_cons_eq_ok.mp run
    obtain ⟨imageBetween, firstImage, along⟩ := preserved before image item between (.head _) start
      first
    obtain ⟨imageAfter, restImage, ended⟩ := ih (fun before image item after member =>
      preserved before image item after (.tail _ member)) along rest
    exact ⟨imageAfter, foldlM_cons_eq_ok.mpr ⟨imageBetween, firstImage, restImage⟩, ended⟩

/-- What every step preserves, told of the items already taken, a run
preserves. -/
theorem foldlM_induction_on_taken {step : σ → α → Except ε σ} {motive : List α → σ → Prop}
    (preserved : ∀ taken item before after, motive taken before →
      step before item = .ok after → motive (taken ++ [item]) after)
    (items : List α) :
    ∀ {taken : List α} {before after : σ}, motive taken before →
      items.foldlM step before = .ok after → motive (taken ++ items) after := by
  induction items with
  | nil =>
    intro taken before after start run
    rw [List.append_nil, ← foldlM_nil_eq_ok.mp run]
    exact start
  | cons item items ih =>
    intro taken before after start run
    obtain ⟨between, first, rest⟩ := foldlM_cons_eq_ok.mp run
    have := ih (preserved taken item before between start first) rest
    rwa [List.append_assoc, List.singleton_append] at this

/-- The same for a run that is followed from its beginning. -/
theorem foldlM_induction_from_nil {step : σ → α → Except ε σ} {motive : List α → σ → Prop}
    (preserved : ∀ taken item before after, motive taken before →
      step before item = .ok after → motive (taken ++ [item]) after)
    (items : List α) {before after : σ} (start : motive [] before)
    (run : items.foldlM step before = .ok after) : motive items after :=
  foldlM_induction_on_taken preserved items start run

/-- The same where a step may look at the run that led to it. -/
theorem foldlM_induction_along {step : σ → α → Except ε σ} {motive : List α → σ → Prop}
    {start : σ} {items : List α}
    (preserved : ∀ taken item before after, taken ++ [item] <+: items →
      taken.foldlM step start = .ok before → motive taken before →
      step before item = .ok after → motive (taken ++ [item]) after)
    {after : σ} (begins : motive [] start) (run : items.foldlM step start = .ok after) :
    motive items after := by
  have along : ∀ taken, taken <+: items → ∀ state, taken.foldlM step start = .ok state →
      motive taken state := by
    intro taken
    induction taken using List.reverseRecOn with
    | nil =>
      intro _ state ran
      rw [← foldlM_nil_eq_ok.mp ran]
      exact begins
    | append_singleton front item ih =>
      intro within state ran
      rcases foldlM_concat_eq_ok.mp ran with ⟨before, earlier, stepped⟩
      exact preserved front item before state within earlier
        (ih ((List.prefix_append _ _).trans within) before earlier) stepped
  exact along items (List.prefix_refl _) after run

/-- A mapping that succeeds gives one result for each item. -/
theorem mapM_cons_eq_ok {make : α → Except ε β} {item : α} {items : List α} {results : List β} :
    (item :: items).mapM make = .ok results ↔
      ∃ result rest, make item = .ok result ∧ items.mapM make = .ok rest ∧
        results = result :: rest := by
  rw [List.mapM_cons]
  constructor
  · intro run
    obtain ⟨result, made, run⟩ := bind_eq_ok.mp run
    obtain ⟨rest, others, run⟩ := bind_eq_ok.mp run
    cases run
    exact ⟨result, rest, made, others, rfl⟩
  · rintro ⟨result, rest, made, others, rfl⟩
    rw [made, others]
    rfl

theorem mapM_nil_eq_ok {make : α → Except ε β} {results : List β} :
    ([] : List α).mapM make = .ok results ↔ results = [] := by
  rw [List.mapM_nil]
  constructor
  · intro run
    cases run
    rfl
  · rintro rfl
    rfl

/-- Items are mapped one by one. -/
theorem mapM_eq_ok_of_forall₂ {make : α → Except ε β} {items : List α} {results : List β}
    (each : List.Forall₂ (fun result item => make item = .ok result) results items) :
    items.mapM make = .ok results := by
  induction each with
  | nil => exact mapM_nil_eq_ok.mpr rfl
  | cons made _ ih => exact mapM_cons_eq_ok.mpr ⟨_, _, made, ih, rfl⟩

theorem forM_eq_ok {check : α → Except ε Unit} {items : List α} :
    items.forM check = .ok () ↔ ∀ item ∈ items, check item = .ok () := by
  induction items with
  | nil => exact ⟨(fun _ _ impossible => nomatch impossible), fun _ => rfl⟩
  | cons item items ih =>
    rw [List.forall_mem_cons, ← ih]
    constructor
    · intro run
      rcases bind_eq_ok.mp run with ⟨⟨⟩, first, rest⟩
      exact ⟨first, rest⟩
    · rintro ⟨first, rest⟩
      exact bind_eq_ok.mpr ⟨(), first, rest⟩

/-- A check of all items fails as that of the first item that fails. -/
theorem forM_eq_error {check : α → Except ε Unit} {items : List α} {fault : ε} :
    items.forM check = .error fault ↔ ∃ front item back, items = front ++ item :: back ∧
      (∀ other ∈ front, check other = .ok ()) ∧ check item = .error fault := by
  induction items with
  | nil =>
    constructor
    · intro impossible
      cases impossible
    · rintro ⟨front, item, back, impossible, -⟩
      simp at impossible
  | cons first rest ih =>
    have steps : (first :: rest).forM check = check first >>= fun _ => rest.forM check := rfl
    rw [steps, bind_eq_error]
    constructor
    · rintro (fails | ⟨⟨⟩, passes, later⟩)
      · exact ⟨[], first, rest, rfl, by simp, fails⟩
      · rcases ih.mp later with ⟨front, item, back, rfl, others, fails⟩
        exact ⟨first :: front, item, back, rfl, List.forall_mem_cons.mpr ⟨passes, others⟩, fails⟩
    · rintro ⟨front, item, back, split, others, fails⟩
      rcases List.cons_eq_append_iff.mp split with ⟨rfl, same⟩ | ⟨onward, rfl, rfl⟩
      · cases same
        exact .inl fails
      · rcases List.forall_mem_cons.mp others with ⟨passes, later⟩
        exact .inr ⟨(), passes, ih.mpr ⟨onward, item, back, rfl, later, fails⟩⟩

/-- A mapping that fails does so at some item. -/
theorem mapM_eq_error {make : α → Except ε β} {items : List α} {fault : ε}
    (run : items.mapM make = .error fault) : ∃ item ∈ items, make item = .error fault := by
  induction items with
  | nil => cases run
  | cons item items ih =>
    rw [List.mapM_cons] at run
    rcases bind_eq_error.mp run with first | ⟨result, -, run⟩
    · exact ⟨item, .head _, first⟩
    · rcases bind_eq_error.mp run with later | ⟨results, -, impossible⟩
      · rcases ih later with ⟨other, listed, fails⟩
        exact ⟨other, .tail _ listed, fails⟩
      · cases impossible

end Stencil
