import QuadStore.Proofs.Merging

/-!
# Equality of binding sets

Two binding sets are compared by how many values they have and by looking up those of the first one
in the second one. A look-up stops at the first column with its name, but all values are counted. So
where a name is repeated, or a value has no name, a set may differ from itself, or from a set that
has the same value for every variable. Sets that hold no such value (`Retrievable`) are equal
exactly if they are the same map: `BindingSet.equality`.
-/

namespace QuadStore
namespace BindingSet

variable {a b c : BindingSet} {v w : Variable} {t : Term}

/-- Each value is the one that is found under its name: none lies behind the last name, and none
under a name that a column before it has. -/
def Retrievable (b : BindingSet) : Prop :=
  ∀ i t, b.values[i]? = some (some t) → ∃ v, b.columns.idxOf? v = some i

/-- Names without repetition, with at most as many values. -/
theorem retrievable_mk {columns : List Variable} {values : List (Option Term)}
    (hnodup : columns.Nodup) (hlength : values.length ≤ columns.length) :
    Retrievable ⟨columns, values⟩ := by
  intro i t hi
  have hlt : i < columns.length := (List.getElem?_eq_some_iff.1 hi).1.trans_le hlength
  exact ⟨columns[i], List.idxOf?_eq_some_iff.2 ⟨hlt, rfl, fun j hj hji =>
    hj.ne ((hnodup.getElem_inj_iff).1 hji)⟩⟩

theorem WellFormed.retrievable (h : b.WellFormed) : b.Retrievable :=
  retrievable_mk h.nodup h.aligned.le

/-! ## Comparing all sets -/

theorem same_iff_forall : a.same b = true ↔
    a.size = b.size ∧ ∀ v t, (v, t) ∈ a.toList → b.get? v = some t := by
  unfold same
  rw [Bool.and_eq_true, beq_iff_eq, List.all_eq_true, Prod.forall]
  simp only [beq_iff_eq]

/-- A variable is looked up in its first column. -/
theorem get?_eq_some_iff_idxOf? : b.get? v = some t ↔
    ∃ i, b.columns.idxOf? v = some i ∧ b.values[i]? = some (some t) := by
  unfold get? getAt?
  simp only [Option.bind_eq_some_iff, Option.join_eq_some_iff]

theorem getElem?_of_idxOf? {i : Nat} (h : b.columns.idxOf? v = some i) :
    b.columns[i]? = some v := by
  obtain ⟨hlt, hv, -⟩ := List.idxOf?_eq_some_iff.1 h
  rw [List.getElem?_eq_getElem hlt, hv]

theorem mem_toList_of_get? (h : b.get? v = some t) : (v, t) ∈ b.toList := by
  obtain ⟨i, hi, hvalue⟩ := get?_eq_some_iff_idxOf?.1 h
  exact mem_toList_iff.2 ⟨i, getElem?_of_idxOf? hi, hvalue⟩

theorem Same.trans (hab : a.Same b) (hbc : b.Same c) : a.Same c := by
  obtain ⟨hsize, hvalues⟩ := same_iff_forall.1 hab
  obtain ⟨hsize', hvalues'⟩ := same_iff_forall.1 hbc
  refine same_iff_forall.2 ⟨hsize.trans hsize', ?_⟩
  intro v t ht
  exact hvalues' v t (mem_toList_of_get? (hvalues v t ht))

/-- A set equals itself if no repeated name hides another value. -/
theorem same_self_iff : a.Same a ↔ ∀ v t, (v, t) ∈ a.toList → a.get? v = some t :=
  same_iff_forall.trans (and_iff_right rfl)

/-! ## Counting values -/

/-- The variables that are bound. -/
def bound (b : BindingSet) : Finset Variable :=
  b.columns.toFinset.filter fun v => (b.get? v).isSome = true

/-- The places that hold a value. -/
def filled (b : BindingSet) : Finset Nat :=
  (Finset.range b.values.length).filter fun i => (b.getAt? i).isSome = true

theorem mem_bound_iff : v ∈ b.bound ↔ ∃ t, b.get? v = some t := by
  unfold bound
  rw [Finset.mem_filter, List.mem_toFinset, Option.isSome_iff_exists]
  apply and_iff_right_of_imp
  intro h
  obtain ⟨t, ht⟩ := h
  exact b.map_toList_sublist.subset (List.mem_map_of_mem (mem_toList_of_get? ht))

theorem mem_filled_iff {i : Nat} : i ∈ b.filled ↔ ∃ t, b.values[i]? = some (some t) := by
  unfold filled getAt?
  rw [Finset.mem_filter, Finset.mem_range, Option.isSome_iff_exists]
  simp only [Option.join_eq_some_iff]
  apply and_iff_right_of_imp
  intro h
  obtain ⟨t, ht⟩ := h
  exact (List.getElem?_eq_some_iff.1 ht).1

/-- The values are counted by their places. -/
theorem card_filled (b : BindingSet) : b.filled.card = b.size := by
  -- the values are what stands at the places from the first one to the last one
  have hvalues : b.values = (List.range b.values.length).map b.getAt? := by
    apply List.ext_getElem?
    intro i
    unfold getAt?
    by_cases hi : i < b.values.length <;> simp [hi]
  unfold filled size
  rw [← List.toFinset_range, List.nodup_range.card_eq_countP]
  conv => rhs; rw [hvalues, List.countP_map]
  exact List.countP_congr fun i _ => by simp

/-- The place at which a variable is looked up. -/
def place (b : BindingSet) (v : Variable) : Nat := (b.columns.idxOf? v).getD 0

theorem place_eq {i : Nat} (h : b.columns.idxOf? v = some i) : b.place v = i := by
  unfold place
  rw [h]
  rfl

theorem place_mem_filled : Set.MapsTo b.place b.bound b.filled := by
  intro v hv
  obtain ⟨t, ht⟩ := mem_bound_iff.1 hv
  obtain ⟨i, hi, hvalue⟩ := get?_eq_some_iff_idxOf?.1 ht
  rw [place_eq hi]
  exact mem_filled_iff.2 ⟨t, hvalue⟩

theorem place_injOn : Set.InjOn b.place b.bound := by
  intro v hv w hw hplace
  obtain ⟨t, ht⟩ := mem_bound_iff.1 hv
  obtain ⟨u, hu⟩ := mem_bound_iff.1 hw
  obtain ⟨i, hi, -⟩ := get?_eq_some_iff_idxOf?.1 ht
  obtain ⟨j, hj, -⟩ := get?_eq_some_iff_idxOf?.1 hu
  rw [place_eq hi, place_eq hj] at hplace
  subst hplace
  exact Option.some.inj ((getElem?_of_idxOf? hi).symm.trans (getElem?_of_idxOf? hj))

/-- A set can be retrieved if each place that holds a value is that of a variable. -/
theorem retrievable_iff_surjOn : b.Retrievable ↔ Set.SurjOn b.place b.bound b.filled := by
  constructor
  · intro h i hi
    obtain ⟨t, ht⟩ := mem_filled_iff.1 hi
    obtain ⟨v, hv⟩ := h i t ht
    exact ⟨v, mem_bound_iff.2 ⟨t, get?_eq_some_iff_idxOf?.2 ⟨i, hv, ht⟩⟩, place_eq hv⟩
  · intro h i t ht
    obtain ⟨v, hv, hplace⟩ := h (mem_filled_iff.2 ⟨t, ht⟩)
    obtain ⟨u, hu⟩ := mem_bound_iff.1 hv
    obtain ⟨j, hj, -⟩ := get?_eq_some_iff_idxOf?.1 hu
    rw [place_eq hj] at hplace
    exact ⟨v, hplace ▸ hj⟩

/-- There are as many values as bound variables exactly if each of them can be retrieved. -/
theorem retrievable_iff_size : b.Retrievable ↔ b.size = b.bound.card := by
  have hle : b.bound.card ≤ b.filled.card :=
    Finset.card_le_card_of_injOn b.place place_mem_filled place_injOn
  rw [retrievable_iff_surjOn, ← card_filled]
  -- there are no fewer places than variables, and as many if each place is one of a variable
  constructor
  · intro h
    exact le_antisymm (Finset.card_le_card_of_surjOn b.place h) hle
  · intro h
    exact Finset.surjOn_of_injOn_of_card_le b.place place_mem_filled place_injOn h.le

/-! ## The set without its superfluous columns -/

/-- Each name once, with what is found under it. -/
def tidy (b : BindingSet) : BindingSet := ⟨b.columns.dedup, b.columns.dedup.map b.get?⟩

theorem wellFormed_tidy (b : BindingSet) : b.tidy.WellFormed :=
  ⟨b.columns.nodup_dedup, List.length_map _⟩

theorem get?_tidy (b : BindingSet) (v : Variable) : b.tidy.get? v = b.get? v := by
  apply Option.ext
  intro t
  rw [get?_eq_some_iff b.wellFormed_tidy.nodup]
  constructor
  · intro h
    obtain ⟨i, hcolumn, hvalue⟩ := h
    unfold tidy at hcolumn hvalue
    dsimp only at hcolumn hvalue
    rw [List.getElem?_map, hcolumn] at hvalue
    exact Option.some.inj hvalue
  · intro h
    have hmem : v ∈ b.columns.dedup :=
      List.mem_dedup.2 (b.map_toList_sublist.subset (List.mem_map_of_mem (mem_toList_of_get? h)))
    obtain ⟨i, hi⟩ := List.mem_iff_getElem?.1 hmem
    refine ⟨i, hi, ?_⟩
    unfold tidy
    rw [List.getElem?_map, hi, Option.map_some, h]

theorem size_tidy (b : BindingSet) : b.tidy.size = b.bound.card := by
  have hbound : b.tidy.bound = b.bound := by
    ext v
    rw [mem_bound_iff, mem_bound_iff, get?_tidy]
  rw [← hbound]
  exact retrievable_iff_size.1 b.wellFormed_tidy.retrievable

/-! ## Comparing sets that can be retrieved -/

theorem Retrievable.mem_iff_get? (h : b.Retrievable) :
    (v, t) ∈ b.toList ↔ b.get? v = some t := by
  refine ⟨?_, mem_toList_of_get?⟩
  intro hmem
  obtain ⟨i, hcolumn, hvalue⟩ := mem_toList_iff.1 hmem
  obtain ⟨w, hw⟩ := h i t hvalue
  obtain rfl := Option.some.inj ((getElem?_of_idxOf? hw).symm.trans hcolumn)
  exact get?_eq_some_iff_idxOf?.2 ⟨i, hw, hvalue⟩

/-- They are the same if they are the same map. -/
theorem Retrievable.same_iff (ha : a.Retrievable) (hb : b.Retrievable) :
    a.Same b ↔ ∀ v, a.get? v = b.get? v := by
  -- the sizes and the pairs are those of sets without superfluous columns
  have htidy : a.Same b ↔ a.tidy.Same b.tidy := by
    unfold Same
    rw [same_iff_forall, same_iff_forall, size_tidy, size_tidy, ← retrievable_iff_size.1 ha,
      ← retrievable_iff_size.1 hb]
    simp only [ha.mem_iff_get?, a.wellFormed_tidy.retrievable.mem_iff_get?, get?_tidy]
  rw [htidy]
  refine (BindingSet.same_iff a.wellFormed_tidy b.wellFormed_tidy).trans ?_
  simp only [get?_tidy]

theorem Retrievable.same_refl (h : a.Retrievable) : a.Same a := (h.same_iff h).2 fun _ => rfl

theorem Retrievable.same_symm (ha : a.Retrievable) (hb : b.Retrievable) (h : a.Same b) :
    b.Same a :=
  (hb.same_iff ha).2 fun v => ((ha.same_iff hb).1 h v).symm

/-- A set that equals the one without its superfluous columns has no value in them. -/
theorem retrievable_of_same_tidy (h : a.Same a.tidy) : a.Retrievable := by
  rw [retrievable_iff_size, ← size_tidy]
  exact (same_iff_forall.1 h).1

/-! ## The sets that are built -/

/-- Sets in which each value can be found are equal exactly if they are the same map, so that their
equality is an equivalence; no other set equals all those that are the same map. Builders, merges
and evaluations give only such sets. To be equal is transitive for all sets. -/
theorem equality (a b c : BindingSet) :
    (a.Same b → b.Same c → a.Same c) ∧
    (a.Same a ↔ ∀ v t, (v, t) ∈ a.toList → a.get? v = some t) ∧
    (a.Retrievable → b.Retrievable →
      a.Same a ∧ (a.Same b → b.Same a) ∧ (a.Same b ↔ ∀ v, a.get? v = b.get? v)) ∧
    ((∀ d : BindingSet, d.Retrievable → (∀ v, a.get? v = d.get? v) → a.Same d) → a.Retrievable) ∧
    (a.columns.Nodup → a.values.length ≤ a.columns.length → a.Retrievable) ∧
    (∀ edits : List Edit, a = empty.build edits → a.Retrievable) ∧
    (∀ pairs : List (Variable × Term), a = ofList pairs → a.Retrievable) ∧
    (b.merge? c = some a → a.Retrievable) ∧
    (∀ (q : Query) (dataset : Dataset), a ∈ q.rows dataset → a.Retrievable) := by
  refine ⟨Same.trans, same_self_iff, ?_, ?_, retrievable_mk, ?_, ?_, ?_, ?_⟩
  · intro ha hb
    exact ⟨ha.same_refl, ha.same_symm hb, ha.same_iff hb⟩
  · intro h
    refine retrievable_of_same_tidy (h a.tidy a.wellFormed_tidy.retrievable fun v => ?_)
    exact (a.get?_tidy v).symm
  · rintro edits rfl
    exact (WellFormed.empty.build edits).retrievable
  · rintro pairs rfl
    exact (WellFormed.ofList pairs).retrievable
  · intro h
    exact (WellFormed.merge? h).retrievable
  · intro q dataset ha
    obtain ⟨row, -, rfl⟩ := List.mem_map.1 ha
    exact (WellFormed.project q.pattern row).retrievable

/-- The order of the columns, and a column without a value, are not seen. -/
theorem equality_reordered :
    let a : BindingSet := ⟨[⟨"x"⟩, ⟨"y"⟩, ⟨"z"⟩], [some (.iri ⟨"p"⟩), none]⟩
    let b : BindingSet := ⟨[⟨"y"⟩, ⟨"x"⟩], [none, some (.iri ⟨"p"⟩)]⟩
    (a.Retrievable ∧ b.Retrievable) ∧ a.Same b ∧ b.Same a ∧ ∀ v, a.get? v = b.get? v := by
  intro a b
  have ha : a.Retrievable := (equality a b a).2.2.2.2.1 (by decide) (by decide)
  have hb : b.Retrievable := (equality b a b).2.2.2.2.1 (by decide) (by decide)
  have hab : a.Same b := by
    show a.same b = true
    decide
  obtain ⟨-, hsymm, hsame⟩ := (equality a b a).2.2.1 ha hb
  exact ⟨⟨ha, hb⟩, hab, hsymm hab, hsame.1 hab⟩

/-- With a name that is repeated, a set may differ from itself and from another one that equals it;
with a value that has no name, it may differ from a set that has the same value everywhere. -/
theorem same_repeated :
    let x : Variable := ⟨"x"⟩
    let p : Option Term := some (.iri ⟨"p"⟩)
    let q : Option Term := some (.iri ⟨"q"⟩)
    (¬ Same ⟨[x, x], [p, q]⟩ ⟨[x, x], [p, q]⟩) ∧
    (Same ⟨[x, x], [p, p]⟩ ⟨[x, ⟨"y"⟩], [p, q]⟩ ∧ ¬ Same ⟨[x, ⟨"y"⟩], [p, q]⟩ ⟨[x, x], [p, p]⟩) ∧
    ((∀ v, get? ⟨[x], [p, q]⟩ v = get? ⟨[x], [p]⟩ v) ∧ ¬ Same ⟨[x], [p, q]⟩ ⟨[x], [p]⟩) := by
  intro x p q
  refine ⟨by unfold Same; decide, ⟨by unfold Same; decide, by unfold Same; decide⟩, ?_,
    by unfold Same; decide⟩
  intro v
  unfold get?
  by_cases hv : v = x
  · rw [hv]
    rfl
  · have hnone : [x].idxOf? v = none := by
      rw [List.idxOf?_eq_none_iff, List.mem_singleton]
      exact hv
    rw [hnone]
    rfl

end BindingSet
end QuadStore
