import Mathlib.Data.List.Basic
import Stencil.Sorting

namespace Stencil

/-!
# What ordering leaves alone

Ordering by insertion is stable: elements that may stand in either order keep the
order they have.  So groups that do not overlap are ordered one by one, and how
elements of different ranks were mixed makes no difference.
-/

variable {α β : Type} {atMost : α → α → Bool}

theorem filterMap_insertOrdered {pick : α → Option β} {a : α} {items : List α}
    (level : ∀ b ∈ items, (pick a).isSome → (pick b).isSome → atMost a b = true) :
    (insertOrdered atMost a items).filterMap pick = (a :: items).filterMap pick := by
  induction items with
  | nil => rfl
  | cons b rest ih =>
    unfold insertOrdered
    split
    · rfl
    · next after =>
      have onward := ih fun c member => level c (.tail _ member)
      rw [List.filterMap_cons, onward]
      cases pickedA : pick a with
      | none => simp [List.filterMap_cons, pickedA]
      | some first =>
        cases pickedB : pick b with
        | none => simp [pickedA, pickedB]
        | some second =>
          exact absurd (level b (.head _) (by simp [pickedA]) (by simp [pickedB])) after

/-- Elements among which the order makes no difference are found in the order
they came in. -/
theorem filterMap_orderBy {pick : α → Option β} {items : List α}
    (level : ∀ a ∈ items, ∀ b ∈ items, (pick a).isSome → (pick b).isSome → atMost a b = true) :
    (orderBy atMost items).filterMap pick = items.filterMap pick := by
  induction items with
  | nil => rfl
  | cons a rest ih =>
    have tail := ih fun b member c other => level b (.tail _ member) c (.tail _ other)
    unfold orderBy at tail ⊢
    rw [List.foldr_cons, filterMap_insertOrdered, List.filterMap_cons, List.filterMap_cons, tail]
    intro b member
    exact level a (.head _) b (.tail _ ((perm_orderBy atMost rest).mem_iff.mp member))

/-! ## Groups -/

theorem orderBy_cons (atMost : α → α → Bool) (a : α) (items : List α) :
    orderBy atMost (a :: items) = insertOrdered atMost a (orderBy atMost items) := rfl

theorem mem_orderBy {a : α} {items : List α} : a ∈ orderBy atMost items ↔ a ∈ items :=
  (perm_orderBy atMost items).mem_iff

/-- An element goes before all that it may precede. -/
theorem insertOrdered_append_of_atMost {a : α} {front back : List α}
    (precedes : ∀ b ∈ back, atMost a b = true) :
    insertOrdered atMost a (front ++ back) = insertOrdered atMost a front ++ back := by
  induction front with
  | nil =>
    cases back with
    | nil => rfl
    | cons b rest => simp [insertOrdered, precedes b (.head _)]
  | cons c rest ih =>
    rw [List.cons_append, insertOrdered, insertOrdered]
    split
    · rfl
    · rw [ih, List.cons_append]

/-- An element goes behind all that it must follow. -/
theorem insertOrdered_append_of_not_atMost {a : α} {front back : List α}
    (follows : ∀ b ∈ front, atMost a b = false) :
    insertOrdered atMost a (front ++ back) = front ++ insertOrdered atMost a back := by
  induction front with
  | nil => rfl
  | cons c rest ih =>
    rw [List.cons_append, insertOrdered, if_neg (by simp [follows c (.head _)]),
      ih fun b member => follows b (.tail _ member), List.cons_append]

theorem foldr_insertOrdered_append {items : List α} :
    ∀ {front back : List α}, (∀ a ∈ items, ∀ b ∈ back, atMost a b = true) →
      items.foldr (insertOrdered atMost) (front ++ back) =
        items.foldr (insertOrdered atMost) front ++ back := by
  induction items with
  | nil => intro front back _; rfl
  | cons a rest ih =>
    intro front back precedes
    rw [List.foldr_cons, List.foldr_cons, ih fun b member => precedes b (.tail _ member),
      insertOrdered_append_of_atMost (precedes a (.head _))]

theorem foldr_insertOrdered_of_atMost {items back : List α}
    (precedes : ∀ a ∈ items, ∀ b ∈ back, atMost a b = true) :
    items.foldr (insertOrdered atMost) back = orderBy atMost items ++ back := by
  rw [← List.nil_append back, foldr_insertOrdered_append precedes]
  rfl

theorem foldr_insertOrdered_of_not_atMost {items : List α} :
    ∀ {front back : List α}, (∀ a ∈ items, ∀ b ∈ front, atMost a b = false) →
      items.foldr (insertOrdered atMost) (front ++ back) =
        front ++ items.foldr (insertOrdered atMost) back := by
  induction items with
  | nil => intro front back _; rfl
  | cons a rest ih =>
    intro front back follows
    rw [List.foldr_cons, List.foldr_cons, ih fun b member => follows b (.tail _ member),
      insertOrdered_append_of_not_atMost (follows a (.head _))]

/-- What may come first is ordered first. -/
theorem orderBy_append {front back : List α}
    (precedes : ∀ a ∈ front, ∀ b ∈ back, atMost a b = true) :
    orderBy atMost (front ++ back) = orderBy atMost front ++ orderBy atMost back := by
  rw [← foldr_insertOrdered_of_atMost fun a member b other => precedes a member b
    (mem_orderBy.mp other)]
  exact List.foldr_append

theorem map_insertOrdered {change : α → β} {other : β → β → Bool} {a : α} {items : List α}
    (same : ∀ b ∈ items, other (change a) (change b) = atMost a b) :
    (insertOrdered atMost a items).map change =
      insertOrdered other (change a) (items.map change) := by
  induction items with
  | nil => rfl
  | cons b rest ih =>
    rw [List.map_cons, insertOrdered, insertOrdered, same b (.head _)]
    split
    · rfl
    · rw [List.map_cons, ih fun c member => same c (.tail _ member)]

/-- Ordering depends on what is compared only. -/
theorem map_orderBy {change : α → β} {other : β → β → Bool} {items : List α}
    (same : ∀ a ∈ items, ∀ b ∈ items, other (change a) (change b) = atMost a b) :
    (orderBy atMost items).map change = orderBy other (items.map change) := by
  induction items with
  | nil => rfl
  | cons a rest ih =>
    rw [List.map_cons, orderBy_cons, orderBy_cons, map_insertOrdered, ih]
    · exact fun b member c other => same b (.tail _ member) c (.tail _ other)
    · exact fun b member => same a (.head _) b (.tail _ (mem_orderBy.mp member))

/-- What precedes all behind it and must precede all before it is ordered first. -/
theorem orderBy_append_cons {front back : List α} {a : α}
    (follows : ∀ b ∈ front, atMost b a = false) (precedes : ∀ b ∈ back, atMost a b = true) :
    orderBy atMost (front ++ a :: back) = a :: orderBy atMost (front ++ back) := by
  have first : insertOrdered atMost a (orderBy atMost back) = a :: orderBy atMost back := by
    cases ordered : orderBy atMost back with
    | nil => rfl
    | cons b rest =>
      have member : b ∈ orderBy atMost back := by
        rw [ordered]
        exact .head _
      exact if_pos (precedes b (mem_orderBy.mp member))
  have past : ∀ b ∈ front, ∀ c ∈ [a], atMost b c = false := by
    intro b member c only
    rw [List.mem_singleton.mp only]
    exact follows b member
  have split : orderBy atMost (front ++ a :: back) =
      front.foldr (insertOrdered atMost) ([a] ++ orderBy atMost back) := by
    rw [List.singleton_append, ← first]
    exact List.foldr_append
  rw [split, foldr_insertOrdered_of_not_atMost past]
  exact congrArg (a :: ·) List.foldr_append.symm

/-! ## Ordered lists -/

/-- An element goes into an ordered list where it belongs. -/
theorem pairwise_insertOrdered {ordered : α → α → Prop} {a : α} {items : List α}
    (precedes : ∀ b ∈ items, atMost a b = true → ordered a b)
    (follows : ∀ b ∈ items, atMost a b = false → ordered b a)
    (onward : ∀ b ∈ items, ∀ c ∈ items, atMost a b = true → ordered b c → atMost a c = true)
    (sorted : items.Pairwise ordered) : (insertOrdered atMost a items).Pairwise ordered := by
  induction items with
  | nil => simp [insertOrdered]
  | cons b rest ih =>
    rcases List.pairwise_cons.mp sorted with ⟨first, sortedRest⟩
    unfold insertOrdered
    split
    · next before =>
      refine List.pairwise_cons.mpr ⟨fun c member => ?_, sorted⟩
      apply precedes c member
      rcases List.mem_cons.mp member with rfl | later
      · exact before
      · exact onward b (.head _) c member before (first c later)
    · next behind =>
      have placed := ih (fun c later => precedes c (.tail _ later))
        (fun c later => follows c (.tail _ later))
        (fun c later d further => onward c (.tail _ later) d (.tail _ further)) sortedRest
      refine List.pairwise_cons.mpr ⟨fun c member => ?_, placed⟩
      rcases List.mem_cons.mp ((perm_insertOrdered atMost a rest).mem_iff.mp member) with rfl | later
      · exact follows b (.head _) (by simpa using behind)
      · exact first c later

/-- If of any two elements one may come first, a list is ordered by that. -/
theorem pairwise_orderBy (total : ∀ a b, atMost a b = false → atMost b a = true)
    (transitive : ∀ a b c, atMost a b = true → atMost b c = true → atMost a c = true)
    (items : List α) : (orderBy atMost items).Pairwise fun left right => atMost left right = true := by
  induction items with
  | nil => exact .nil
  | cons a rest ih =>
    apply pairwise_insertOrdered _ _ _ ih
    · exact fun _ _ before => before
    · exact fun b _ behind => total a b behind
    · exact fun b _ c _ before after => transitive a b c before after

/-- How a list was arranged makes no difference if no two of its elements may stand in
either order. -/
theorem orderBy_eq_of_perm (total : ∀ a b, atMost a b = false → atMost b a = true)
    (transitive : ∀ a b c, atMost a b = true → atMost b c = true → atMost a c = true)
    {left right : List α} (perm : left.Perm right)
    (strict : ∀ a ∈ right, ∀ b ∈ right, atMost a b = true → atMost b a = true → a = b) :
    orderBy atMost left = orderBy atMost right := by
  have same : (orderBy atMost left).Perm (orderBy atMost right) :=
    (perm_orderBy atMost left).trans (perm.trans (perm_orderBy atMost right).symm)
  apply List.Perm.eq_of_pairwise _ (pairwise_orderBy total transitive left)
    (pairwise_orderBy total transitive right) same
  intro a b first second before after
  exact strict a (perm.mem_iff.mp (mem_orderBy.mp first)) b (mem_orderBy.mp second) before after

/-! ## Groups with keys -/

/-- Compare by a key. -/
def keyAtMost (key : α → Nat) (left right : α) : Bool := key left ≤ key right

/-- In a list ordered by a key, elements of one key stand as they stood before. -/
theorem pairwise_orderBy_stable (key : α → Nat) {earlier : α → α → Prop} {items : List α}
    (standing : items.Pairwise earlier) :
    (orderBy (keyAtMost key) items).Pairwise fun left right =>
      key left < key right ∨ key left = key right ∧ earlier left right := by
  induction items with
  | nil => exact .nil
  | cons a rest ih =>
    rcases List.pairwise_cons.mp standing with ⟨first, standingRest⟩
    apply pairwise_insertOrdered _ _ _ (ih standingRest)
    · intro b member before
      have before : key a ≤ key b := of_decide_eq_true before
      rcases Nat.lt_or_eq_of_le before with less | same
      · exact .inl less
      · exact .inr ⟨same, first b (mem_orderBy.mp member)⟩
    · intro b _ behind
      exact .inl (Nat.lt_of_not_le (of_decide_eq_false behind))
    · intro b _ c _ before ordered
      have before : key a ≤ key b := of_decide_eq_true before
      have onward : key b ≤ key c := by omega
      exact decide_eq_true (Nat.le_trans before onward)

theorem pairwise_orderBy_key (key : α → Nat) (items : List α) :
    (orderBy (keyAtMost key) items).Pairwise fun left right => key left ≤ key right := by
  have standing : items.Pairwise fun _ _ => True := List.pairwise_of_forall fun _ _ => trivial
  refine (pairwise_orderBy_stable key standing).imp fun ordered => ?_
  omega

/-- Elements of one key keep their order. -/
theorem filter_orderBy_key (key : α → Nat) (place : Nat) (items : List α) :
    (orderBy (keyAtMost key) items).filter (fun a => key a == place) =
      items.filter fun a => key a == place := by
  rw [← List.filterMap_eq_filter]
  apply filterMap_orderBy
  intro a _ b _ first second
  have here : key a = place := by simpa [Option.guard] using first
  have there : key b = place := by simpa [Option.guard] using second
  exact decide_eq_true (Nat.le_of_eq (here.trans there.symm))

/-- Lists ordered by a key are the same if for every key they hold the same elements in
the same order. -/
theorem eq_of_filter_key (key : α → Nat) {left : List α} :
    ∀ {right : List α}, left.Pairwise (fun a b => key a ≤ key b) →
      right.Pairwise (fun a b => key a ≤ key b) →
      (∀ place, left.filter (fun a => key a == place) = right.filter fun a => key a == place) →
      left = right := by
  induction left with
  | nil =>
    intro right _ _ same
    cases right with
    | nil => rfl
    | cons b rest => simpa using same (key b)
  | cons a front ih =>
    intro right rising alsoRising same
    rcases List.pairwise_cons.mp rising with ⟨least, risingFront⟩
    -- The first of the one is in the other as well, so neither comes behind the other.
    have listed : a ∈ right.filter fun b => key b == key a := by
      rw [← same]
      simp
    cases right with
    | nil => cases listed
    | cons b back =>
      rcases List.pairwise_cons.mp alsoRising with ⟨alsoLeast, risingBack⟩
      have otherListed : b ∈ (a :: front).filter fun c => key c == key b := by
        rw [same]
        simp
      have late : key b ≤ key a := by
        rcases List.mem_cons.mp (List.mem_filter.mp listed).1 with rfl | behind
        · exact Nat.le_refl _
        · exact alsoLeast a behind
      have early : key a ≤ key b := by
        rcases List.mem_cons.mp (List.mem_filter.mp otherListed).1 with rfl | behind
        · exact Nat.le_refl _
        · exact least b behind
      have level : key b = key a := Nat.le_antisymm late early
      have heads := same (key a)
      simp only [List.filter_cons, level, beq_self_eq_true, if_true, List.cons.injEq] at heads
      rcases heads with ⟨rfl, -⟩
      rw [ih risingFront risingBack fun place => ?_]
      have here := same place
      simp only [List.filter_cons] at here
      split at here
      · exact (List.cons.inj here).2
      · exact here

/-- Ordering by a key tells lists apart that hold other elements, or elements of one key
in another order, and no others. -/
theorem orderBy_key_eq_iff (key : α → Nat) {left right : List α} :
    orderBy (keyAtMost key) left = orderBy (keyAtMost key) right ↔
      ∀ place, left.filter (fun a => key a == place) = right.filter fun a => key a == place := by
  constructor
  · intro same place
    rw [← filter_orderBy_key, same, filter_orderBy_key]
  · intro same
    apply eq_of_filter_key key (pairwise_orderBy_key key left) (pairwise_orderBy_key key right)
    intro place
    rw [filter_orderBy_key, filter_orderBy_key, same]

/-- Elements that are left out are left out before or after ordering. -/
theorem filter_orderBy (key : α → Nat) (fits : α → Bool) (items : List α) :
    (orderBy (keyAtMost key) items).filter fits = orderBy (keyAtMost key) (items.filter fits) := by
  apply eq_of_filter_key key ((pairwise_orderBy_key key items).filter _) (pairwise_orderBy_key key _)
  intro place
  rw [List.filter_comm, filter_orderBy_key, filter_orderBy_key, List.filter_comm]

theorem filter_key_filter (key : α → Nat) (fits : Nat → Bool) (place : Nat) (items : List α) :
    (items.filter fun a => fits (key a)).filter (fun a => key a == place) =
      if fits place then items.filter fun a => key a == place else [] := by
  rw [List.filter_filter]
  split
  · next fitting =>
    refine List.filter_congr fun a _ => ?_
    by_cases here : key a = place <;> simp [here, fitting]
  · next unfit =>
    refine List.filter_eq_nil_iff.mpr fun a _ both => ?_
    simp only [Bool.and_eq_true, beq_iff_eq] at both
    exact unfit (both.1 ▸ both.2)

/-- An element between those that its key lets stand before it and behind it. -/
theorem orderBy_key_between (key : α → Nat) {earlier later : List α} {a : α}
    (before : ∀ b ∈ earlier, key b ≤ key a) (behind : ∀ b ∈ later, key a ≤ key b) :
    orderBy (keyAtMost key) (earlier ++ a :: later) =
        orderBy (keyAtMost key) earlier ++ a :: orderBy (keyAtMost key) later ∧
      orderBy (keyAtMost key) (earlier ++ later) =
        orderBy (keyAtMost key) earlier ++ orderBy (keyAtMost key) later := by
  constructor
  · rw [orderBy_append, ← List.nil_append (a :: later), orderBy_append_cons]
    · rfl
    · exact fun b impossible => absurd impossible List.not_mem_nil
    · exact fun b member => decide_eq_true (behind b member)
    · intro b member c other
      refine decide_eq_true (Nat.le_trans (before b member) ?_)
      rcases List.mem_cons.mp other with rfl | later
      · exact Nat.le_refl _
      · exact behind c later
  · exact orderBy_append fun b member c other =>
      decide_eq_true (Nat.le_trans (before b member) (behind c other))

/-- With or without an element the others are ordered alike.  It stands behind those of
smaller keys and those of its key that were given before it. -/
theorem exists_orderBy_key_cons (key : α → Nat) (front back : List α) (a : α) :
    ∃ earlier later, earlier.length = (front.filter fun b => key b ≤ key a).length +
        (back.filter fun b => key b < key a).length ∧
      orderBy (keyAtMost key) (front ++ a :: back) = earlier ++ a :: later ∧
        orderBy (keyAtMost key) (front ++ back) = earlier ++ later := by
  have split : ∀ place, ∀ between : List α, (∀ b ∈ between, key b = key a) →
      (front ++ (between ++ back)).filter (fun b => key b == place) =
        (front.filter (fun b => decide (key b ≤ key a)) ++
          back.filter (fun b => decide (key b < key a)) ++ (between ++
            (front.filter (fun b => decide (key a < key b)) ++
              back.filter fun b => decide (key a ≤ key b)))).filter fun b => key b == place := by
    intro place between same
    have own : between.filter (fun b => key b == place) = if key a = place then between else [] := by
      split
      · next here => exact List.filter_eq_self.mpr fun b member => by simp [same b member, here]
      · next there => exact List.filter_eq_nil_iff.mpr fun b member => by simp [same b member, there]
    simp only [List.filter_append, own,
      filter_key_filter key (fun other => decide (other ≤ key a)),
      filter_key_filter key (fun other => decide (other < key a)),
      filter_key_filter key (fun other => decide (key a < other)),
      filter_key_filter key (fun other => decide (key a ≤ other)), decide_eq_true_eq]
    rcases Nat.lt_trichotomy place (key a) with less | rfl | more
    · simp [less, Nat.le_of_lt less, Nat.ne_of_gt less, Nat.not_lt_of_gt less,
        Nat.not_le_of_gt less]
    · simp
    · simp [more, Nat.le_of_lt more, Nat.ne_of_lt more, Nat.not_lt_of_gt more,
        Nat.not_le_of_gt more]
  have before : ∀ b ∈ front.filter (fun b => decide (key b ≤ key a)) ++
      back.filter (fun b => decide (key b < key a)), key b ≤ key a := by
    intro b member
    rcases List.mem_append.mp member with here | there
    · simpa using (List.mem_filter.mp here).2
    · exact Nat.le_of_lt (by simpa using (List.mem_filter.mp there).2)
  have behind : ∀ b ∈ front.filter (fun b => decide (key a < key b)) ++
      back.filter (fun b => decide (key a ≤ key b)), key a ≤ key b := by
    intro b member
    rcases List.mem_append.mp member with here | there
    · exact Nat.le_of_lt (by simpa using (List.mem_filter.mp here).2)
    · simpa using (List.mem_filter.mp there).2
  rcases orderBy_key_between key before behind with ⟨among, without⟩
  refine ⟨_, _, ?_, ((orderBy_key_eq_iff key).mpr fun place => ?_).trans among,
    ((orderBy_key_eq_iff key).mpr fun place => ?_).trans without⟩
  · rw [length_orderBy, List.length_append]
  · exact split place [a] (by simp)
  · exact split place [] (by simp)

variable {ι : Type} {key : ι → Nat} {content : ι → List α}

/-- A group goes between those it follows and those it may precede. -/
theorem foldr_insertOrdered_flatMap {group : ι} {others : List ι}
    (rising : others.Pairwise fun left right => key left ≤ key right)
    (compares : ∀ other ∈ others, ∀ a ∈ content group, ∀ b ∈ content other,
      atMost a b = keyAtMost key group other) :
    (content group).foldr (insertOrdered atMost)
        (others.flatMap fun other => orderBy atMost (content other)) =
      (insertOrdered (keyAtMost key) group others).flatMap
        fun other => orderBy atMost (content other) := by
  induction others with
  | nil => simp [insertOrdered, orderBy]
  | cons other rest ih =>
    rcases List.pairwise_cons.mp rising with ⟨least, risingRest⟩
    cases first : keyAtMost key group other with
    | true =>
      have before : key group ≤ key other := by simpa [keyAtMost] using first
      have apart : ∀ a ∈ content group, ∀ b ∈ (other :: rest).flatMap fun other =>
          orderBy atMost (content other), atMost a b = true := by
        intro a member b listed
        rcases List.mem_flatMap.mp listed with ⟨third, among, inside⟩
        rw [compares third among a member b (mem_orderBy.mp inside)]
        have behind : key other ≤ key third := by
          rcases List.mem_cons.mp among with rfl | later
          · exact Nat.le_refl _
          · exact least third later
        simpa [keyAtMost] using Nat.le_trans before behind
      rw [insertOrdered, if_pos first]
      exact foldr_insertOrdered_of_atMost apart
    | false =>
      rw [insertOrdered, if_neg (by simp [first]), List.flatMap_cons, List.flatMap_cons,
        foldr_insertOrdered_of_not_atMost, ih risingRest]
      · exact fun third among => compares third (.tail _ among)
      · intro a member b inside
        rw [compares other (.head _) a member b (mem_orderBy.mp inside), first]

/-- Groups are ordered by their keys if all their elements compare as the keys
do. -/
theorem orderBy_flatMap {groups : List ι}
    (compares : groups.Pairwise fun left right => ∀ a ∈ content left, ∀ b ∈ content right,
      atMost a b = keyAtMost key left right) :
    orderBy atMost (groups.flatMap content) =
      (orderBy (keyAtMost key) groups).flatMap fun group => orderBy atMost (content group) := by
  induction groups with
  | nil => rfl
  | cons group rest ih =>
    rcases List.pairwise_cons.mp compares with ⟨first, others⟩
    rw [List.flatMap_cons, orderBy, List.foldr_append, orderBy_cons,
      ← foldr_insertOrdered_flatMap (pairwise_orderBy_key key rest), ← ih others]
    · rfl
    · exact fun other member => first other (mem_orderBy.mp member)

/-! ## Two ranks -/

theorem insertOrdered_comm {a b : α} (before : atMost a b = true) (strict : atMost b a = false)
    (through : ∀ c, atMost b c = true → atMost a c = true) (items : List α) :
    insertOrdered atMost a (insertOrdered atMost b items) =
      insertOrdered atMost b (insertOrdered atMost a items) := by
  induction items with
  | nil => simp [insertOrdered, before, strict]
  | cons c rest ih =>
    cases first : atMost b c with
    | true => simp [insertOrdered, before, strict, first, through c first]
    | false =>
      cases second : atMost a c with
      | true => simp [insertOrdered, strict, first, second]
      | false => simp [insertOrdered, first, second, ih]

/-- Two elements that can be inserted in either order. -/
def Commute (atMost : α → α → Bool) (a b : α) : Prop :=
  ∀ items, insertOrdered atMost a (insertOrdered atMost b items) =
    insertOrdered atMost b (insertOrdered atMost a items)

theorem insertOrdered_foldr {b : α} {items : List α}
    (commute : ∀ a ∈ items, Commute atMost a b) (others : List α) :
    insertOrdered atMost b (items.foldr (insertOrdered atMost) others) =
      items.foldr (insertOrdered atMost) (insertOrdered atMost b others) := by
  induction items with
  | nil => rfl
  | cons a rest ih =>
    rw [List.foldr_cons, List.foldr_cons, ← ih fun c member => commute c (.tail _ member),
      commute a (.head _)]

/-- How elements of two ranks were mixed makes no difference. -/
theorem orderBy_filter_append {first : α → Bool} {items : List α}
    (commute : ∀ a ∈ items, ∀ b ∈ items, first a = true → first b = false →
      Commute atMost a b) :
    orderBy atMost (items.filter first ++ items.filter fun a => !first a) =
      orderBy atMost items := by
  induction items with
  | nil => rfl
  | cons a rest ih =>
    have onward := ih fun b member c other => commute b (.tail _ member) c (.tail _ other)
    cases rank : first a with
    | true =>
      rw [List.filter_cons_of_pos rank, List.filter_cons_of_neg (by simp [rank]),
        List.cons_append, orderBy_cons, orderBy_cons, onward]
    | false =>
      rw [List.filter_cons_of_neg (by simp [rank]), List.filter_cons_of_pos (by simp [rank]),
        orderBy_cons, ← onward]
      have past : ∀ b ∈ rest.filter first, Commute atMost b a := by
        intro b member
        obtain ⟨listed, rankOther⟩ := List.mem_filter.mp member
        exact commute b (.tail _ listed) a (.head _) rankOther rank
      unfold orderBy
      rw [List.foldr_append, List.foldr_append]
      exact (insertOrdered_foldr past _).symm

end Stencil
