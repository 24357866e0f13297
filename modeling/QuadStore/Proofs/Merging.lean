import QuadStore.Proofs.Plans

/-!
# Binding sets as maps

A binding set whose names are different, with one value for each, is a partial map from variables to
terms. To set, remove and merge changes the map as the names say; what differs otherwise, the order
of the columns and the columns without a value, is not seen by `same`. So binding sets that agree
are merged as maps are: `BindingSet.merging`.
-/

namespace QuadStore

namespace BindingSet

variable {a b c m : BindingSet} {v w : Variable} {s t : Term}

/-- The names are different, and there is one value, or the lack of one, for each. -/
structure WellFormed (b : BindingSet) : Prop where
  nodup : b.columns.Nodup
  aligned : b.values.length = b.columns.length

theorem WellFormed.empty : empty.WellFormed := ⟨List.nodup_nil, rfl⟩

/-! ## Values in their columns -/

/-- A column has a name and a value. -/
structure HasAt (b : BindingSet) (i : Nat) (v : Variable) (t : Term) : Prop where
  column : b.columns[i]? = some v
  value : b.values[i]? = some (some t)

theorem hasAt_iff {i : Nat} :
    b.HasAt i v t ↔ b.columns[i]? = some v ∧ b.values[i]? = some (some t) :=
  ⟨fun h => ⟨h.column, h.value⟩, fun h => ⟨h.1, h.2⟩⟩

theorem mem_toList_iff : (v, t) ∈ b.toList ↔ ∃ i, b.HasAt i v t := by
  unfold toList
  rw [List.mem_filterMap]
  constructor
  · intro h
    obtain ⟨⟨w, value?⟩, hmem, hvalue⟩ := h
    obtain ⟨i, hi⟩ := List.mem_iff_getElem?.1 hmem
    obtain ⟨hcolumn, hi⟩ := List.getElem?_zip_eq_some.1 hi
    obtain ⟨u, hu, hpair⟩ := Option.map_eq_some_iff.1 hvalue
    obtain ⟨rfl, rfl⟩ := Prod.mk.inj hpair
    exact ⟨i, hcolumn, hi.trans (congrArg some hu)⟩
  · intro h
    obtain ⟨i, hi⟩ := h
    have hzip : (b.columns.zip b.values)[i]? = some (v, some t) :=
      List.getElem?_zip_eq_some.2 ⟨hi.column, hi.value⟩
    exact ⟨(v, some t), List.mem_of_getElem? hzip, rfl⟩

/-- Where no name is repeated, the value of a variable is that of its column. -/
theorem get?_eq_some_iff (h : b.columns.Nodup) : b.get? v = some t ↔ ∃ i, b.HasAt i v t := by
  unfold get? getAt?
  rw [Option.bind_eq_some_iff]
  apply exists_congr
  intro i
  rw [List.idxOf?_eq_some_iff, Option.join_eq_some_iff]
  constructor
  · intro hi
    obtain ⟨⟨hlt, hv, -⟩, hvalue⟩ := hi
    exact ⟨by rw [List.getElem?_eq_getElem hlt, hv], hvalue⟩
  · intro hi
    obtain ⟨hlt, hv⟩ := List.getElem?_eq_some_iff.1 hi.column
    refine ⟨⟨hlt, hv, ?_⟩, hi.value⟩
    intro j hj hvj
    have hij := (h.getElem_inj_iff).1 (hvj.trans hv.symm)
    omega

theorem mem_toList_iff_get? (h : b.columns.Nodup) : (v, t) ∈ b.toList ↔ b.get? v = some t := by
  rw [mem_toList_iff, get?_eq_some_iff h]

/-- The variables that are bound are some of the columns, in their order. -/
theorem map_toList_sublist (b : BindingSet) : (b.toList.map Prod.fst).Sublist b.columns := by
  obtain ⟨columns, values⟩ := b
  unfold toList
  dsimp only
  induction columns generalizing values with
  | nil => exact List.Sublist.refl []
  | cons c columns ih =>
    cases values with
    | nil => exact List.nil_sublist _
    | cons x values =>
      cases x with
      | none => exact (ih values).cons c
      | some t => exact (ih values).cons_cons c

theorem nodup_toList (h : b.columns.Nodup) : b.toList.Nodup :=
  List.Nodup.of_map Prod.fst (h.sublist b.map_toList_sublist)

theorem length_toList (h : b.values.length = b.columns.length) : b.toList.length = b.size := by
  unfold toList size
  rw [List.length_filterMap_eq_countP]
  calc (b.columns.zip b.values).countP (fun p => (p.2.map (p.1, ·)).isSome)
      = (b.columns.zip b.values).countP (Option.isSome ∘ Prod.snd) :=
        List.countP_congr fun p _ => by rw [Option.isSome_map]; rfl
    _ = b.values.countP Option.isSome := by
        rw [← List.countP_map, List.map_snd_zip h.le]

/-- Two sets are the same if they are the same map. -/
theorem same_iff (ha : a.WellFormed) (hb : b.WellFormed) :
    a.same b = true ↔ ∀ v, a.get? v = b.get? v := by
  unfold same
  rw [Bool.and_eq_true, beq_iff_eq, List.all_eq_true, ← length_toList ha.aligned,
    ← length_toList hb.aligned]
  constructor
  · intro h
    obtain ⟨hlength, hvalues⟩ := h
    -- as many different values, and all of them in the other set
    have hsubset : a.toList ⊆ b.toList := by
      intro p hp
      exact (mem_toList_iff_get? hb.nodup).2 (beq_iff_eq.1 (hvalues p hp))
    have hperm := (List.subperm_of_subset (nodup_toList ha.nodup) hsubset).perm_of_length_le
      hlength.ge
    intro v
    apply Option.ext
    intro t
    rw [← mem_toList_iff_get? ha.nodup, ← mem_toList_iff_get? hb.nodup]
    exact hperm.mem_iff
  · intro h
    have hmem : ∀ p, p ∈ a.toList ↔ p ∈ b.toList := by
      intro p
      rw [mem_toList_iff_get? ha.nodup, mem_toList_iff_get? hb.nodup, h]
    refine ⟨?_, ?_⟩
    · exact ((List.perm_ext_iff_of_nodup (nodup_toList ha.nodup) (nodup_toList hb.nodup)).2
        hmem).length_eq
    · intro p hp
      exact beq_iff_eq.2 ((mem_toList_iff_get? hb.nodup).1 ((hmem p).1 hp))

/-! ## Setting and removing -/

theorem WellFormed.set (h : b.WellFormed) (v : Variable) (t : Term) : (b.set v t).WellFormed := by
  unfold BindingSet.set
  split
  · exact ⟨h.nodup, by rw [List.length_set, h.aligned]⟩
  · rename_i hv
    refine ⟨?_, by rw [List.length_append, List.length_append, h.aligned]; rfl⟩
    exact List.nodup_append.2 ⟨h.nodup, List.nodup_singleton v, fun w hw u hu hwu =>
      List.idxOf?_eq_none_iff.1 hv (List.mem_singleton.1 hu ▸ hwu ▸ hw)⟩

theorem get?_set (h : b.WellFormed) (v w : Variable) (t : Term) :
    (b.set v t).get? w = if w = v then some t else b.get? w := by
  have hset := h.set v t
  by_cases hw : w = v
  · rw [if_pos hw, get?_eq_some_iff hset.nodup, hw]
    unfold BindingSet.set
    split
    · rename_i i hi
      obtain ⟨hlt, hv, -⟩ := List.idxOf?_eq_some_iff.1 hi
      exact ⟨i, List.getElem?_eq_some_iff.2 ⟨hlt, hv⟩,
        List.getElem?_set_self (by rw [h.aligned]; exact hlt)⟩
    · exact ⟨b.columns.length, List.getElem?_concat_length,
        by rw [← h.aligned]; exact List.getElem?_concat_length⟩
  · rw [if_neg hw]
    apply Option.ext
    intro u
    rw [get?_eq_some_iff hset.nodup, get?_eq_some_iff h.nodup]
    apply exists_congr
    intro j
    rw [hasAt_iff, hasAt_iff]
    unfold BindingSet.set
    split
    · rename_i i hi
      obtain ⟨hlt, hv, -⟩ := List.idxOf?_eq_some_iff.1 hi
      apply and_congr_right
      intro hj
      have hij : i ≠ j := by
        rintro rfl
        rw [List.getElem?_eq_getElem hlt, hv] at hj
        exact hw (Option.some.inj hj).symm
      rw [List.getElem?_set_ne hij]
    · by_cases hj : j < b.columns.length
      · rw [List.getElem?_append_left hj, List.getElem?_append_left (by rw [h.aligned]; exact hj)]
      · -- behind the columns there is only the new one
        apply iff_of_false
        · intro hnew
          have hmem := List.mem_of_getElem? (List.getElem?_append_right (not_lt.1 hj) ▸ hnew.1)
          exact hw (List.mem_singleton.1 hmem)
        · intro hold
          rw [List.getElem?_eq_none (not_lt.1 hj)] at hold
          exact absurd hold.1 nofun

theorem WellFormed.erase (h : b.WellFormed) (v : Variable) : (b.erase v).WellFormed := by
  unfold BindingSet.erase
  split
  · exact ⟨h.nodup.sublist (List.eraseIdx_sublist _ _), by
      rw [List.length_eraseIdx, List.length_eraseIdx, h.aligned]⟩
  · exact h

/-- The columns that stay, by their places before. -/
theorem hasAt_erase (h : b.WellFormed) :
    (∃ j, (b.erase v).HasAt j w t) ↔ w ≠ v ∧ ∃ j, b.HasAt j w t := by
  unfold BindingSet.erase
  split
  · rename_i i hi
    obtain ⟨hlt, hv, -⟩ := List.idxOf?_eq_some_iff.1 hi
    -- with different names, to have another name is to have another place
    have hne : w ≠ v ∧ (∃ j, b.HasAt j w t) ↔ ∃ j, j ≠ i ∧ b.HasAt j w t := by
      rw [← exists_and_left]
      apply exists_congr
      intro j
      apply and_congr_left
      intro hj
      obtain ⟨hjlt, hw⟩ := List.getElem?_eq_some_iff.1 hj.column
      rw [← hv, ← hw, ne_eq, h.nodup.getElem_inj_iff]
    rw [hne]
    -- the columns behind the one that goes move up by one place
    constructor
    · intro hold
      obtain ⟨j, hj⟩ := hold
      obtain ⟨hcolumn, hvalue⟩ := hj
      dsimp only at hcolumn hvalue
      rw [List.getElem?_eraseIdx] at hcolumn hvalue
      by_cases hji : j < i
      · rw [if_pos hji] at hcolumn hvalue
        exact ⟨j, hji.ne, hcolumn, hvalue⟩
      · rw [if_neg hji] at hcolumn hvalue
        exact ⟨j + 1, by omega, hcolumn, hvalue⟩
    · intro hold
      obtain ⟨j, hji, hj⟩ := hold
      by_cases hlt : j < i
      · refine ⟨j, ?_, ?_⟩
        · exact (List.getElem?_eraseIdx_of_lt hlt).trans hj.column
        · exact (List.getElem?_eraseIdx_of_lt hlt).trans hj.value
      · have hback : j - 1 + 1 = j := by omega
        refine ⟨j - 1, ?_, ?_⟩
        · refine (List.getElem?_eraseIdx_of_ge (by omega)).trans ?_
          rw [hback]
          exact hj.column
        · refine (List.getElem?_eraseIdx_of_ge (by omega)).trans ?_
          rw [hback]
          exact hj.value
  · rename_i hv
    apply (and_iff_right_of_imp _).symm
    intro hold hwv
    obtain ⟨j, hj⟩ := hold
    exact List.idxOf?_eq_none_iff.1 hv (hwv ▸ List.mem_of_getElem? hj.column)

theorem get?_erase (h : b.WellFormed) (v w : Variable) :
    (b.erase v).get? w = if w = v then none else b.get? w := by
  apply Option.ext
  intro t
  rw [get?_eq_some_iff (h.erase v).nodup, hasAt_erase h, ← get?_eq_some_iff h.nodup]
  by_cases hw : w = v
  · rw [if_pos hw]
    exact iff_of_false (fun h => h.1 hw) nofun
  · rw [if_neg hw]
    exact and_iff_right hw

/-! ## Builders -/

/-- What is done to a builder. -/
inductive Edit
  | set (v : Variable) (t : Term)
  | remove (v : Variable)

namespace Edit

/-- The variable that is changed. -/
def target : Edit → Variable
  | set v _ => v
  | remove v => v

/-- The value that it has then. -/
def value? : Edit → Option Term
  | set _ t => some t
  | remove _ => none

def apply (b : BindingSet) : Edit → BindingSet
  | set v t => b.set v t
  | remove v => b.erase v

variable {e : Edit}

theorem eq_set_iff : e = set v t ↔ e.target = v ∧ e.value? = some t := by
  cases e with
  | set w s => rw [set.injEq, target, value?, Option.some.injEq]
  | remove w => exact iff_of_false nofun nofun

end Edit

/-- The set that some edits make of another. -/
def build (b : BindingSet) (edits : List Edit) : BindingSet := edits.foldl Edit.apply b

theorem WellFormed.apply (h : b.WellFormed) (e : Edit) : (e.apply b).WellFormed := by
  cases e with
  | set v t => exact h.set v t
  | remove v => exact h.erase v

theorem get?_apply (h : b.WellFormed) (e : Edit) (w : Variable) :
    (e.apply b).get? w = if w = e.target then e.value? else b.get? w := by
  cases e with
  | set v t => exact get?_set h v w t
  | remove v => exact get?_erase h v w

theorem build_concat (b : BindingSet) (edits : List Edit) (e : Edit) :
    b.build (edits ++ [e]) = e.apply (b.build edits) :=
  List.foldl_concat Edit.apply b e edits

theorem WellFormed.build (h : b.WellFormed) (edits : List Edit) : (b.build edits).WellFormed := by
  induction edits using List.reverseRecOn with
  | nil => exact h
  | append_singleton edits e ih =>
    rw [build_concat]
    exact ih.apply e

/-- A variable is set to a value, and not changed after that. -/
def LastSet (edits : List Edit) (v : Variable) (t : Term) : Prop :=
  ∃ before after, edits = before ++ .set v t :: after ∧ ∀ e ∈ after, e.target ≠ v

theorem lastSet_concat {edits : List Edit} {e : Edit} :
    LastSet (edits ++ [e]) v t ↔ e = .set v t ∨ e.target ≠ v ∧ LastSet edits v t := by
  constructor
  · intro h
    obtain ⟨before, after, hedits, hafter⟩ := h
    obtain rfl | ⟨after, last, rfl⟩ := after.eq_nil_or_concat'
    · exact .inl (List.singleton_inj.1 (List.append_inj' hedits rfl).2)
    · rw [← List.cons_append, ← List.append_assoc] at hedits
      obtain ⟨rfl, hlast⟩ := List.append_inj' hedits rfl
      obtain rfl := List.singleton_inj.1 hlast
      refine .inr ⟨hafter e (List.mem_concat_self), before, after, rfl, ?_⟩
      intro other hother
      exact hafter other (List.mem_append_left _ hother)
  · intro h
    obtain rfl | ⟨hne, before, after, rfl, hafter⟩ := h
    · exact ⟨edits, [], rfl, nofun⟩
    · refine ⟨before, after ++ [e], by rw [List.append_assoc, List.cons_append], ?_⟩
      intro other hother
      obtain hother | hother := List.mem_append.1 hother
      · exact hafter other hother
      · exact List.mem_singleton.1 hother ▸ hne

/-- A variable has the last value that it was set to, or else the one from before the edits. -/
theorem get?_build (h : b.WellFormed) (edits : List Edit) :
    (b.build edits).get? v = some t ↔
      LastSet edits v t ∨ (∀ e ∈ edits, e.target ≠ v) ∧ b.get? v = some t := by
  induction edits using List.reverseRecOn with
  | nil =>
    have hnone : ¬ LastSet [] v t := by
      intro hset
      obtain ⟨before, after, hedits, -⟩ := hset
      exact absurd (List.append_eq_nil_iff.1 hedits.symm).2 nofun
    rw [or_iff_right hnone]
    exact (and_iff_right nofun).symm
  | append_singleton edits e ih =>
    rw [build_concat, get?_apply (h.build edits), lastSet_concat, Edit.eq_set_iff,
      List.forall_mem_append, List.forall_mem_singleton]
    by_cases hv : v = e.target
    · rw [if_pos hv]
      have hv := hv.symm
      simp only [hv, ne_eq, not_true_eq_false, and_false, false_and, or_false, true_and]
    · rw [if_neg hv, ih]
      have hv := Ne.symm hv
      simp only [hv, false_and, false_or, ne_eq, not_false_eq_true, true_and, and_true]

/-! ### Setting the values of a list -/

/-- Setting a value under its name. -/
def Edit.ofPair (p : Variable × Term) : Edit := .set p.1 p.2

theorem lastSet_map_ofPair {pairs : List (Variable × Term)} (h : (pairs.map Prod.fst).Nodup) :
    LastSet (pairs.map Edit.ofPair) v t ↔ (v, t) ∈ pairs := by
  constructor
  · intro hset
    obtain ⟨before, after, hedits, -⟩ := hset
    have hmem : Edit.set v t ∈ pairs.map Edit.ofPair := by
      rw [hedits]
      exact List.mem_append_right _ List.mem_cons_self
    obtain ⟨p, hp, heq⟩ := List.mem_map.1 hmem
    obtain ⟨rfl, rfl⟩ := Edit.set.inj heq
    exact hp
  · intro hmem
    obtain ⟨before, after, rfl⟩ := List.append_of_mem hmem
    refine ⟨before.map Edit.ofPair, after.map Edit.ofPair, by rw [List.map_append]; rfl, ?_⟩
    intro e he hv
    obtain ⟨p, hp, rfl⟩ := List.mem_map.1 he
    rw [List.map_append, List.map_cons] at h
    have hnotMem := (List.nodup_cons.1 (List.nodup_append.1 h).2.1).1
    exact hnotMem (List.mem_map.2 ⟨p, hp, hv⟩)

theorem get?_build_map_ofPair (hb : b.WellFormed) {pairs : List (Variable × Term)}
    (h : (pairs.map Prod.fst).Nodup) :
    (b.build (pairs.map Edit.ofPair)).get? v = some t ↔
      (v, t) ∈ pairs ∨ (∀ p ∈ pairs, p.1 ≠ v) ∧ b.get? v = some t := by
  rw [get?_build hb, lastSet_map_ofPair h, List.forall_mem_map]
  rfl

theorem ofList_eq_build (pairs : List (Variable × Term)) :
    ofList pairs = empty.build (pairs.map Edit.ofPair) := by
  unfold ofList build
  rw [List.foldl_map]
  rfl

theorem WellFormed.ofList (pairs : List (Variable × Term)) : (ofList pairs).WellFormed := by
  rw [ofList_eq_build]
  exact WellFormed.empty.build _

/-- A set without its columns that have no value is the same map. -/
theorem get?_ofList_toList (h : b.columns.Nodup) (v : Variable) :
    (ofList b.toList).get? v = b.get? v := by
  apply Option.ext
  intro t
  rw [ofList_eq_build, get?_build_map_ofPair .empty (h.sublist b.map_toList_sublist),
    mem_toList_iff_get? h]
  exact or_iff_left fun h => absurd h.2 nofun

/-! ## Merging -/

/-- No variable has two values. -/
def Agrees (a b : BindingSet) : Prop := ∀ v s t, a.get? v = some s → b.get? v = some t → s = t

theorem Agrees.symm (h : a.Agrees b) : b.Agrees a := fun v s t hs ht => (h v t s ht hs).symm

theorem isCompatible_iff (h : a.columns.Nodup) : a.isCompatible b = true ↔ a.Agrees b := by
  unfold isCompatible
  rw [List.all_eq_true]
  constructor
  · intro hall v s t hs ht
    have hv := hall (v, s) ((mem_toList_iff_get? h).2 hs)
    exact (beq_iff_eq.1 ((Option.all_eq_true _ _).1 hv t ht)).symm
  · intro hagree p hp
    rw [Option.all_eq_true]
    intro t ht
    exact beq_iff_eq.2 (hagree p.1 p.2 t ((mem_toList_iff_get? h).1 hp) ht).symm

theorem isCompatible_comm (ha : a.columns.Nodup) (hb : b.columns.Nodup) :
    a.isCompatible b = b.isCompatible a := by
  rw [Bool.eq_iff_iff, isCompatible_iff ha, isCompatible_iff hb]
  exact ⟨Agrees.symm, Agrees.symm⟩

/-- To merge is to set what the second one has and the first one has not. -/
theorem merge?_eq (h : a.isCompatible b = true) :
    a.merge? b = some ((ofList a.toList).build
      ((b.toList.filter fun p => !a.contains p.1).map Edit.ofPair)) := by
  unfold merge? build
  rw [if_pos h, List.foldl_map, List.foldl_filter]
  congr 3
  funext r p
  show (if a.contains p.1 = true then r else r.set p.1 p.2) =
    if (!a.contains p.1) = true then r.set p.1 p.2 else r
  cases a.contains p.1 <;> rfl

theorem isSome_merge? (a b : BindingSet) : (a.merge? b).isSome = a.isCompatible b := by
  cases h : a.isCompatible b
  · unfold merge?
    rw [h]
    rfl
  · rw [merge?_eq h]
    rfl

theorem isCompatible_of_merge? (h : a.merge? b = some m) : a.isCompatible b = true := by
  rw [← isSome_merge?, h]
  rfl

theorem WellFormed.merge? (h : a.merge? b = some m) : m.WellFormed := by
  rw [merge?_eq (isCompatible_of_merge? h)] at h
  obtain rfl := Option.some.inj h
  exact (WellFormed.ofList _).build _

/-- What two sets have together. -/
theorem get?_of_merge? (ha : a.WellFormed) (hb : b.WellFormed) (h : a.merge? b = some m) :
    m.get? v = some t ↔ a.get? v = some t ∨ b.get? v = some t := by
  have hcompatible := isCompatible_of_merge? h
  have hagree := (isCompatible_iff ha.nodup).1 hcompatible
  rw [merge?_eq hcompatible] at h
  obtain rfl := Option.some.inj h
  have hnodup : ((b.toList.filter fun p => !a.contains p.1).map Prod.fst).Nodup :=
    (hb.nodup.sublist b.map_toList_sublist).sublist (List.filter_sublist.map Prod.fst)
  rw [get?_build_map_ofPair (.ofList _) hnodup, get?_ofList_toList ha.nodup, List.mem_filter,
    mem_toList_iff_get? hb.nodup]
  -- a value of the second set is set only where the first one has none, and is the same elsewhere
  cases hv : a.get? v with
  | none =>
    have hmissing : (!a.contains v) = true := by
      unfold contains
      rw [hv]
      rfl
    rw [and_iff_left hmissing, or_iff_left fun h => absurd h.2 nofun]
    exact (or_iff_right nofun).symm
  | some s =>
    have hbound : ¬ (!a.contains v) = true := by
      unfold contains
      rw [hv]
      exact nofun
    have hothers : ∀ p ∈ b.toList.filter fun p => !a.contains p.1, p.1 ≠ v := by
      rintro p hp rfl
      exact hbound (List.mem_filter.1 hp).2
    rw [or_iff_right fun h => hbound h.2, and_iff_right hothers]
    exact (or_iff_left_of_imp fun hb => congrArg some (hagree v s t hv hb)).symm

/-- What is merged agrees with a set if both parts do. -/
theorem agrees_of_merge?_iff (ha : a.WellFormed) (hb : b.WellFormed) (h : a.merge? b = some m) :
    m.Agrees c ↔ a.Agrees c ∧ b.Agrees c := by
  constructor
  · intro hm
    refine ⟨?_, ?_⟩
    · intro v s t hs
      exact hm v s t ((get?_of_merge? ha hb h).2 (.inl hs))
    · intro v s t hs
      exact hm v s t ((get?_of_merge? ha hb h).2 (.inr hs))
  · intro hboth v s t hs
    obtain hs | hs := (get?_of_merge? ha hb h).1 hs
    · exact hboth.1 v s t hs
    · exact hboth.2 v s t hs

theorem isSome_merge?_iff (h : a.columns.Nodup) : (a.merge? b).isSome = true ↔ a.Agrees b := by
  rw [isSome_merge?, isCompatible_iff h]

/-! ### Three sets -/

theorem isSome_bind_merge?_left (ha : a.WellFormed) (hb : b.WellFormed) :
    ((a.merge? b).bind (·.merge? c)).isSome = true ↔
      a.Agrees b ∧ a.Agrees c ∧ b.Agrees c := by
  rw [← isSome_merge?_iff ha.nodup]
  cases h : a.merge? b with
  | none => exact iff_of_false nofun fun hall => absurd hall.1 nofun
  | some m =>
    rw [Option.bind_some, isSome_merge?_iff (WellFormed.merge? h).nodup,
      agrees_of_merge?_iff ha hb h]
    exact (and_iff_right rfl).symm

theorem isSome_bind_merge?_right (ha : a.WellFormed) (hb : b.WellFormed) (hc : c.WellFormed) :
    ((b.merge? c).bind (a.merge? ·)).isSome = true ↔
      a.Agrees b ∧ a.Agrees c ∧ b.Agrees c := by
  rw [← isSome_merge?_iff hb.nodup, ← and_assoc]
  cases h : b.merge? c with
  | none => exact iff_of_false nofun fun hall => absurd hall.2 nofun
  | some m =>
    rw [Option.bind_some, isSome_merge?_iff ha.nodup]
    have hparts : m.Agrees a ↔ _ := agrees_of_merge?_iff hb hc h
    constructor
    · intro hm
      obtain ⟨hba, hca⟩ := hparts.1 hm.symm
      exact ⟨⟨hba.symm, hca.symm⟩, rfl⟩
    · intro hall
      exact (hparts.2 ⟨hall.1.1.symm, hall.1.2.symm⟩).symm

theorem get?_of_bind_merge?_left (ha : a.WellFormed) (hb : b.WellFormed) (hc : c.WellFormed)
    (h : (a.merge? b).bind (·.merge? c) = some m) :
    m.get? v = some t ↔ a.get? v = some t ∨ b.get? v = some t ∨ c.get? v = some t := by
  obtain ⟨ab, hab, hm⟩ := Option.bind_eq_some_iff.1 h
  rw [get?_of_merge? (.merge? hab) hc hm, get?_of_merge? ha hb hab, or_assoc]

theorem get?_of_bind_merge?_right (ha : a.WellFormed) (hb : b.WellFormed) (hc : c.WellFormed)
    (h : (b.merge? c).bind (a.merge? ·) = some m) :
    m.get? v = some t ↔ a.get? v = some t ∨ b.get? v = some t ∨ c.get? v = some t := by
  obtain ⟨bc, hbc, hm⟩ := Option.bind_eq_some_iff.1 h
  rw [get?_of_merge? ha (.merge? hbc) hm, get?_of_merge? hb hc hbc]

/-! ### The laws -/

/-- Two sets that are equal when compared. -/
def Same (a b : BindingSet) : Prop := a.same b = true

theorem Same.of_get? (ha : a.WellFormed) (hb : b.WellFormed)
    (h : ∀ v t, a.get? v = some t ↔ b.get? v = some t) : a.Same b :=
  (same_iff ha hb).2 fun v => Option.ext (h v)

/-- Both sets are there or both are not, and if they are there, they are the same. -/
theorem Same.rel {x y : Option BindingSet} (hsome : x.isSome = true ↔ y.isSome = true)
    (h : ∀ m n, x = some m → y = some n → m.Same n) : Option.Rel Same x y := by
  cases x with
  | none =>
    cases y with
    | none => exact .none
    | some n => exact absurd (hsome.2 rfl) nofun
  | some m =>
    cases y with
    | none => exact absurd (hsome.1 rfl) nofun
    | some n => exact .some (h m n rfl rfl)

theorem merge?_comm (ha : a.WellFormed) (hb : b.WellFormed) :
    Option.Rel Same (a.merge? b) (b.merge? a) := by
  apply Same.rel
  · rw [isSome_merge?_iff ha.nodup, isSome_merge?_iff hb.nodup]
    exact ⟨Agrees.symm, Agrees.symm⟩
  · intro m n hm hn
    apply Same.of_get? (.merge? hm) (.merge? hn)
    intro v t
    rw [get?_of_merge? ha hb hm, get?_of_merge? hb ha hn]
    exact or_comm

theorem merge?_assoc (ha : a.WellFormed) (hb : b.WellFormed) (hc : c.WellFormed) :
    Option.Rel Same ((a.merge? b).bind (·.merge? c)) ((b.merge? c).bind (a.merge? ·)) := by
  apply Same.rel
  · rw [isSome_bind_merge?_left ha hb, isSome_bind_merge?_right ha hb hc]
  · intro m n hm hn
    have hmwell : m.WellFormed := by
      obtain ⟨ab, -, hm⟩ := Option.bind_eq_some_iff.1 hm
      exact .merge? hm
    have hnwell : n.WellFormed := by
      obtain ⟨bc, -, hn⟩ := Option.bind_eq_some_iff.1 hn
      exact .merge? hn
    apply Same.of_get? hmwell hnwell
    intro v t
    rw [get?_of_bind_merge?_left ha hb hc hm, get?_of_bind_merge?_right ha hb hc hn]

theorem agrees_empty (a : BindingSet) : a.Agrees empty := nofun

/-- A set that adds nothing to another one leaves it as it is, but for its columns. -/
theorem merge?_eq_of_get? (ha : a.WellFormed) (hb : b.WellFormed) (hc : c.WellFormed)
    (hagrees : a.Agrees b)
    (h : ∀ v t, a.get? v = some t ∨ b.get? v = some t ↔ c.get? v = some t) :
    Option.Rel Same (a.merge? b) (some c) := by
  apply Same.rel
  · exact iff_of_true ((isSome_merge?_iff ha.nodup).2 hagrees) rfl
  · intro m n hm hn
    obtain rfl := Option.some.inj hn
    apply Same.of_get? (.merge? hm) hc
    intro v t
    rw [get?_of_merge? ha hb hm, h]

theorem merge?_empty (ha : a.WellFormed) : Option.Rel Same (a.merge? empty) (some a) := by
  apply merge?_eq_of_get? ha .empty ha a.agrees_empty
  intro v t
  exact or_iff_left nofun

theorem empty_merge? (ha : a.WellFormed) : Option.Rel Same (empty.merge? a) (some a) := by
  apply merge?_eq_of_get? .empty ha ha a.agrees_empty.symm
  intro v t
  exact or_iff_right nofun

/-- The merge of binding sets is the union of maps. -/
structure MergesAsMaps (a b c : BindingSet) : Prop where
  isCompatible_comm : a.isCompatible b = b.isCompatible a
  isCompatible_iff : a.isCompatible b = true ↔ a.Agrees b
  isSome_merge? : (a.merge? b).isSome = a.isCompatible b
  wellFormed : ∀ m, a.merge? b = some m → m.WellFormed
  get?_merge? : ∀ m, a.merge? b = some m →
    ∀ v t, m.get? v = some t ↔ a.get? v = some t ∨ b.get? v = some t
  comm : Option.Rel Same (a.merge? b) (b.merge? a)
  assoc : Option.Rel Same ((a.merge? b).bind (·.merge? c)) ((b.merge? c).bind (a.merge? ·))
  merge?_empty : Option.Rel Same (a.merge? empty) (some a)
  empty_merge? : Option.Rel Same (empty.merge? a) (some a)

/-! ## What comes of builders and evaluations -/

theorem WellFormed.project (p : GraphPattern) (row : Row) :
    (Query.project p.columns row).WellFormed :=
  ⟨p.nodup_columns, List.length_map _⟩

theorem WellFormed.plannedRows {pl : Planner} {p : GraphPattern} {bindings b : BindingSet}
    (h : b ∈ p.plannedRows pl bindings) : b.WellFormed := by
  obtain ⟨u, -, rfl⟩ := List.mem_map.1 h
  exact ⟨p.nodup_columns, by rw [List.length_map, List.length_range]⟩

/-- Binding sets without repeated names are merged as maps, a builder keeps what was set last, and
what builders and evaluations give has no repeated names. -/
theorem merging :
    (∀ a b c : BindingSet, a.WellFormed → b.WellFormed → c.WellFormed → MergesAsMaps a b c) ∧
    (∀ (edits : List Edit) (v : Variable) (t : Term),
      (empty.build edits).get? v = some t ↔ LastSet edits v t) ∧
    (∀ edits : List Edit, (empty.build edits).WellFormed) ∧
    (∀ pairs : List (Variable × Term), (ofList pairs).WellFormed) ∧
    (∀ (q : Query) (dataset : Dataset), ∀ b ∈ q.rows dataset, b.WellFormed) ∧
    (∀ (pl : Planner) (p : GraphPattern) (bindings : BindingSet),
      ∀ b ∈ p.plannedRows pl bindings, b.WellFormed) := by
  refine ⟨?_, ?_, ?_, .ofList, ?_, ?_⟩
  · intro a b c ha hb hc
    exact {
      isCompatible_comm := isCompatible_comm ha.nodup hb.nodup
      isCompatible_iff := isCompatible_iff ha.nodup
      isSome_merge? := isSome_merge? a b
      wellFormed := fun m hm => .merge? hm
      get?_merge? := fun m hm v t => get?_of_merge? ha hb hm
      comm := merge?_comm ha hb
      assoc := merge?_assoc ha hb hc
      merge?_empty := merge?_empty ha
      empty_merge? := empty_merge? ha }
  · intro edits v t
    rw [get?_build .empty]
    exact or_iff_left fun h => absurd h.2 nofun
  · intro edits
    exact WellFormed.empty.build edits
  · intro q dataset b hb
    obtain ⟨row, -, rfl⟩ := List.mem_map.1 hb
    exact .project q.pattern row
  · intro pl p bindings b hb
    exact .plannedRows hb

/-- A variable without a value takes that of the other set, and a third set that agrees with the
first one alone has no place in the merge. -/
theorem merging_unbound :
    let a : BindingSet := ⟨[⟨"x"⟩, ⟨"y"⟩], [some (.iri ⟨"p"⟩), none]⟩
    let b : BindingSet := ⟨[⟨"y"⟩, ⟨"x"⟩], [some (.iri ⟨"q"⟩), some (.iri ⟨"p"⟩)]⟩
    let c : BindingSet := ⟨[⟨"y"⟩, ⟨"z"⟩], [some (.iri ⟨"r"⟩), none]⟩
    (a.WellFormed ∧ b.WellFormed ∧ c.WellFormed) ∧ MergesAsMaps a b c ∧
    (a.merge? b).map toList = some [(⟨"x"⟩, .iri ⟨"p"⟩), (⟨"y"⟩, .iri ⟨"q"⟩)] ∧
    (a.merge? c).map toList = some [(⟨"x"⟩, .iri ⟨"p"⟩), (⟨"y"⟩, .iri ⟨"r"⟩)] ∧
    ((a.merge? b).bind (·.merge? c)).isSome = false := by
  intro a b c
  have ha : a.WellFormed := ⟨by decide, rfl⟩
  have hb : b.WellFormed := ⟨by decide, rfl⟩
  have hc : c.WellFormed := ⟨by decide, rfl⟩
  exact ⟨⟨ha, hb, hc⟩, merging.1 a b c ha hb hc, by decide, by decide, by decide⟩

end BindingSet
end QuadStore
