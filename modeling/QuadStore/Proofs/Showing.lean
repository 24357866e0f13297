import QuadStore.Proofs.Alike
import QuadStore.Proofs.Contents
import QuadStore.Proofs.Extending
import QuadStore.Proofs.Rows
import QuadStore.Proofs.Slots

/-!
# Tuples that show rows

A tuple shows a row if each variable has its value in its slot. The operations on tuples go with
those on rows, one lemma an operation; slots that belong to no variable do not matter.
-/

namespace List

variable {α β : Type} {R : α → β → Prop} {l : List α} {l' : List β}

/-- Related lists that are sorted by related orders stay related. -/
theorem Forall₂.mergeSort (h : Forall₂ R l l') {le : α → α → Bool} {le' : β → β → Bool}
    (hle : ∀ a b, R a b → ∀ c d, R c d → le a c = le' b d) :
    Forall₂ R (l.mergeSort le) (l'.mergeSort le') := by
  obtain ⟨hlength, hzip⟩ := forall₂_iff_zip.1 h
  have hrel : ∀ x ∈ l.zip l', R x.1 x.2 := fun x hx => hzip hx
  have hfst : (l.zip l').map Prod.fst = l := map_fst_zip (le_of_eq hlength)
  have hsnd : (l.zip l').map Prod.snd = l' := map_snd_zip (le_of_eq hlength.symm)
  -- both are what the list of pairs is sorted to
  have hleft := map_mergeSort (r := fun x y => le x.1 y.1) (s := le) (f := Prod.fst)
    (l := l.zip l') fun _ _ _ _ => rfl
  have hright := map_mergeSort (r := fun x y => le x.1 y.1) (s := le') (f := Prod.snd)
    (l := l.zip l') fun x hx y hy => hle _ _ (hrel x hx) _ _ (hrel y hy)
  rw [hfst] at hleft
  rw [hsnd] at hright
  rw [← hleft, ← hright, forall₂_map_left_iff, forall₂_map_right_iff, forall₂_same]
  exact fun x hx => hrel x (mem_mergeSort.1 hx)

theorem Forall₂.any_eq (h : Forall₂ R l l') {p : α → Bool} {q : β → Bool}
    (hpq : ∀ a b, R a b → p a = q b) : l.any p = l'.any q := by
  induction h with
  | nil => rfl
  | cons hab _ ih => rw [any_cons, any_cons, hpq _ _ hab, ih]

theorem Forall₂.exists_of_mem_right (h : Forall₂ R l l') {b : β} (hb : b ∈ l') :
    ∃ a ∈ l, R a b := by
  induction h with
  | nil => cases hb
  | cons hab _ ih =>
    rcases mem_cons.1 hb with rfl | hb
    · exact ⟨_, mem_cons_self, hab⟩
    · obtain ⟨a, ha, hrel⟩ := ih hb
      exact ⟨a, mem_cons_of_mem _ ha, hrel⟩

theorem Forall₂.exists_of_mem_left (h : Forall₂ R l l') {a : α} (ha : a ∈ l) :
    ∃ b ∈ l', R a b :=
  exists_of_mem_right (Forall₂.flip h : Forall₂ (fun b a => R a b) l' l) ha

theorem Forall₂.isEmpty_eq (h : Forall₂ R l l') : l.isEmpty = l'.isEmpty := by
  cases h <;> rfl

end List

namespace QuadStore

/-! ## Rows -/

namespace Row

variable {row r : Row} {v : Variable} {d? : Option Datum}

/-- What is bound is there, or the same was there before. -/
theorem exists_same_of_bindAny? (h : row.bindAny? v d? = some r) {d : Datum} (hd : d? = some d) :
    ∃ e, r.get? v = some e ∧ e.same d = true := by
  subst hd
  rcases bind?_cases row v d with ⟨hnone, -⟩ | ⟨r', hr', hsame, hget⟩
  · rw [bindAny?, hnone] at h
    cases h
  · rw [bindAny?, hr'] at h
    obtain rfl := Option.some.inj h
    rw [hget, if_pos rfl]
    cases hold : row.get? v with
    | none => exact ⟨d, rfl, beq_self_eq_true _⟩
    | some old => exact ⟨old, rfl, beq_iff_eq.2 (hsame old hold)⟩

/-- Binding what is there changes nothing. -/
theorem bindAny?_of_same (h : ∀ d, d? = some d → ∃ e, row.get? v = some e ∧ e.same d = true) :
    row.bindAny? v d? = some row := by
  cases d? with
  | none => rfl
  | some d =>
    obtain ⟨e, he, hsame⟩ := h d rfl
    unfold bindAny? bind?
    dsimp only
    split
    · rename_i old hold
      rw [he] at hold
      exact if_pos (Option.some.inj hold ▸ hsame)
    · rename_i hnone
      rw [he] at hnone
      cases hnone

end Row

/-! ## Cells -/

/-- A cell shows a datum. -/
structure Cell.Shows (d : Dictionary) (c : Cell) (x : Datum) : Prop where
  labeled : c.Labeled d
  datum : c.datum = x

namespace Cell

variable {d : Dictionary} {c : Cell} {x : Datum} {c? c'? : Option Cell} {x? x'? : Option Datum}

theorem shows_computed (x : Datum) : (computed x).Shows d x := ⟨labeled_computed x, rfl⟩

theorem rel_shows_iff : Option.Rel (Shows d) c? x? ↔
    (∀ c, c? = some c → c.Labeled d) ∧ c?.map (·.datum) = x? := by
  cases c? with
  | none => cases x? <;> simp
  | some c =>
    cases x? with
    | none => simp
    | some x =>
      rw [Option.rel_some_some]
      constructor
      · rintro ⟨hlabeled, rfl⟩
        refine ⟨fun c' h => ?_, rfl⟩
        rwa [← Option.some.inj h]
      · rintro ⟨hlabeled, h⟩
        exact ⟨hlabeled c rfl, Option.some.inj h⟩

theorem map_datum_eq (h : Option.Rel (Shows d) c? x?) : c?.map (·.datum) = x? :=
  (rel_shows_iff.1 h).2

theorem rel_map_computed (x? : Option Datum) : Option.Rel (Shows d) (x?.map computed) x? := by
  cases x? with
  | none => exact .none
  | some x => exact .some (shows_computed x)

theorem rel_map_ofBool {b? b'? : Option Bool} (h : b? = b'?) :
    Option.Rel (Shows d) (b?.map fun b => computed (.ofBool b)) (b'?.map .ofBool) := by
  subst h
  cases b? with
  | none => exact .none
  | some b => exact .some (shows_computed _)

/-- An equality with candidates is that of the data. -/
theorem among?_eq (hc : c.Shows d x) {cs : List (Option Cell)} {xs : List (Option Datum)}
    (h : List.Forall₂ (Option.Rel (Shows d)) cs xs) : c.among? cs = x.among? xs := by
  induction h with
  | nil => rfl
  | @cons c'? x'? cs xs hhead _ ih =>
    have hequal : c'?.bind c.equal? = x'?.bind x.equal? := by
      refine hhead.bind_eq fun a b hab => ?_
      rw [equal?_eq hc.labeled hab.labeled, hc.datum, hab.datum]
    rw [among?, Datum.among?, ih, hequal]

end Cell

theorem BinaryOp.rel_combineCells? (op : BinaryOp) {d : Dictionary} {a? b? : Option Cell}
    {x? y? : Option Datum} (ha : Option.Rel (Cell.Shows d) a? x?)
    (hb : Option.Rel (Cell.Shows d) b? y?) :
    Option.Rel (Cell.Shows d) (op.combineCells? a? b?) (op.combine? x? y?) := by
  by_cases hop : op = equal
  · subst hop
    refine ha.bind fun a x hax => hb.bind fun b y hby => Cell.rel_map_ofBool ?_
    rw [Cell.equal?_eq hax.labeled hby.labeled, hax.datum, hby.datum]
  · have hcells : op.combineCells? a? b? =
        (op.combine? (a?.map (·.datum)) (b?.map (·.datum))).map .computed := by
      cases op <;> first | rfl | exact absurd rfl hop
    rw [hcells, Cell.map_datum_eq ha, Cell.map_datum_eq hb]
    exact Cell.rel_map_computed _

theorem UnaryOp.rel_ofCell? (op : UnaryOp) {d : Dictionary} {c : Cell} {x : Datum}
    (h : c.Shows d x) : Option.Rel (Cell.Shows d) (op.ofCell? c) (op.of? x) := by
  obtain rfl := h.datum
  cases op with
  | plus =>
    unfold ofCell? of?
    dsimp only
    split
    · exact .some h
    · exact .none
  | minus | not => exact Cell.rel_map_computed _

namespace Planner

variable {pl : Planner} {c : Cell} {id : TermId} {x : Term}

theorem shows_constant (pl : Planner) (t : Term) :
    (pl.constant t).Shows pl.dictionary (.ofTerm t) :=
  ⟨fun _ hid => Dictionary.lookup?_eq_some_iff.1 hid, rfl⟩

/-- A cell is looked for by the number of its term. -/
theorem number?_eq (hc : c.Labeled pl.dictionary) :
    pl.number? c = pl.dictionary.lookup? c.datum.term := by
  unfold number?
  cases hid : c.id? with
  | none => rfl
  | some id => rw [Option.some_or, Dictionary.lookup?_eq_some_iff.2 (hc id hid)]

theorem resolve?_eq (h : pl.dictionary.resolve id = .ok x) :
    pl.resolve? id = some ⟨.ofTerm x, some id⟩ := by
  unfold resolve?
  rw [h]
  rfl

end Planner

/-! ## Tuples -/

/-- Every variable has its value of the row in its slot of the tuple. -/
structure Tuple.Shows (pl : Planner) (slots : Slots) (t : Tuple) (row : Row) : Prop where
  labeled : t.Labeled pl.dictionary
  get?_eq : ∀ v, ((slots.idxOf? v).bind t.get?).map (·.datum) = row.get? v

namespace Tuple

variable {pl : Planner} {slots : Slots} {t u : Tuple} {row r : Row} {v : Variable} {slot : Nat}
  {c? : Option Cell} {d? : Option Datum}

theorem Shows.rel_get? (h : t.Shows pl slots row) (hslot : slots.idxOf? v = some slot) :
    Option.Rel (Cell.Shows pl.dictionary) (t.get? slot) (row.get? v) := by
  refine Cell.rel_shows_iff.2 ⟨fun c hc => h.labeled slot c hc, ?_⟩
  rw [← h.get?_eq v, hslot, Option.bind_some]

theorem Shows.isSome_eq (h : t.Shows pl slots row) (hslot : slots.idxOf? v = some slot) :
    (t.get? slot).isSome = (row.get? v).isSome := by
  rw [← Cell.map_datum_eq (h.rel_get? hslot), Option.isSome_map]

theorem Shows.get?_eq_none_iff (h : t.Shows pl slots row) (hslot : slots.idxOf? v = some slot) :
    t.get? slot = none ↔ row.get? v = none := by
  rw [← Cell.map_datum_eq (h.rel_get? hslot), Option.map_eq_none_iff]

/-- The terms of the variables of a row are those of their slots. -/
theorem Shows.map_term (h : t.Shows pl slots row) (v : Variable) :
    (row.get? v).map (·.term) = (slots.idxOf? v).bind t.terms := by
  rw [← h.get?_eq v, Option.map_map]
  cases slots.idxOf? v <;> rfl

/-- Two variables do not have one slot. -/
theorem eq_of_idxOf? {w : Variable} (hv : slots.idxOf? v = some slot)
    (hw : slots.idxOf? w = some slot) : v = w := by
  obtain ⟨_, hvslot, -⟩ := List.idxOf?_eq_some_iff.1 hv
  obtain ⟨_, hwslot, -⟩ := List.idxOf?_eq_some_iff.1 hw
  exact hvslot.symm.trans hwslot

/-- What is in the slot differs from a cell exactly if the value of the variable does. -/
theorem Shows.differs_iff (h : t.Shows pl slots row) (hslot : slots.idxOf? v = some slot)
    {c : Cell} {d : Datum} (hc : c.Shows pl.dictionary d) :
    (∃ old, t.get? slot = some old ∧ old.same c = false) ↔
      ∃ old, row.get? v = some old ∧ old.term ≠ d.term := by
  have hold := h.rel_get? hslot
  generalize t.get? slot = e?, row.get? v = old? at hold
  cases hold with
  | none => simp
  | some hshows =>
    simp only [Option.some.injEq, exists_eq_left']
    rw [← Bool.not_eq_true, Cell.same_iff hshows.labeled hc.labeled, hshows.datum, hc.datum]

/-- A tuple with a cell put into a slot shows the row with the value given to the variable. -/
theorem Shows.bound (h : t.Shows pl slots row) (hslot : slots.idxOf? v = some slot) {c : Cell}
    {d : Datum} (hc : c.Shows pl.dictionary d)
    (hu : ∀ i, u.get? i = if i = slot then (t.get? slot).or (some c) else t.get? i)
    (hr : ∀ w, r.get? w = if w = v then (row.get? v).or (some d) else row.get? w) :
    u.Shows pl slots r := by
  refine ⟨fun i e he => ?_, fun w => ?_⟩
  · rw [hu] at he
    split at he
    · rcases Option.or_eq_some_iff.1 he with he | ⟨-, he⟩
      · exact h.labeled slot e he
      · exact Option.some.inj he ▸ hc.labeled
    · exact h.labeled i e he
  · rw [hr]
    split
    · rename_i hw
      rw [hw, hslot, Option.bind_some, hu, if_pos rfl, Option.map_or,
        Cell.map_datum_eq (h.rel_get? hslot), Option.map_some, hc.datum]
    · rename_i hw
      rw [← h.get?_eq w]
      cases hfound : slots.idxOf? w with
      | none => rfl
      | some i =>
        have hi : i ≠ slot := by
          rintro rfl
          exact hw (eq_of_idxOf? hfound hslot)
        rw [Option.bind_some, Option.bind_some, hu, if_neg hi]

/-- Binding a slot goes with binding its variable. -/
theorem Shows.bindAny? (h : t.Shows pl slots row) (hslot : slots.idxOf? v = some slot)
    (hc : Option.Rel (Cell.Shows pl.dictionary) c? d?) :
    Option.Rel (Shows pl slots) (t.bindAny? slot c?) (row.bindAny? v d?) := by
  cases hc with
  | none => exact .some h
  | @some c d hc =>
    have hdiffers := h.differs_iff hslot hc
    rw [Row.bindAny?]
    rcases bindAny?_cases t slot (some c) with ⟨hnone, e, c', he, hc', hne⟩ | ⟨u, hu, hsame, hget⟩
    · obtain rfl := Option.some.inj hc'
      obtain ⟨old, hold, hterm⟩ := hdiffers.1 ⟨e, he, hne⟩
      rcases Row.bind?_cases row v d with ⟨hnone', -⟩ | ⟨r, -, hsame', -⟩
      · rw [hnone, hnone']
        exact .none
      · exact absurd (hsame' old hold) hterm
    · rcases Row.bind?_cases row v d with ⟨-, hne⟩ | ⟨r, hr, -, hget'⟩
      · obtain ⟨e, he, hne⟩ := hdiffers.2 hne
        exact absurd (hsame e c he rfl) (Bool.eq_false_iff.1 hne)
      · rw [hu, hr]
        exact .some (h.bound hslot hc hget hget')

/-! ## Duplicates and orders -/

/-- A slot that belongs to no variable is left as it was. -/
theorem Grows.get?_eq {vs : List Variable} {i : Nat} (h : t.Grows slots vs u)
    (hi : ∀ v, slots.idxOf? v ≠ some i) : u.get? i = t.get? i := by
  cases ht : t.get? i with
  | some c => exact h.keeps i c ht
  | none =>
    by_contra hu
    obtain ⟨v, -, hv⟩ := h.slot i ht hu
    exact hi v hv

/-- Tuples that have grown out of one have the same terms if the rows that they show have. -/
theorem same_eq_of_grows {slots' : Slots} {vs : List Variable} {u' : Tuple} {r' : Row}
    (hslots : slots <+: slots') (hu : t.Grows slots vs u) (hu' : t.Grows slots vs u')
    (hr : u.Shows pl slots' r) (hr' : u'.Shows pl slots' r') : u.same u' = r.same r' := by
  rw [Bool.eq_iff_iff, same_iff hr.labeled hr'.labeled, Row.same_iff]
  constructor
  · intro h v
    rw [hr.map_term, hr'.map_term, h]
  · intro h
    funext i
    by_cases hi : ∃ v, slots'.idxOf? v = some i
    · obtain ⟨v, hv⟩ := hi
      have hterm := h v
      rwa [hr.map_term, hr'.map_term, hv, Option.bind_some, Option.bind_some] at hterm
    · have hslot : ∀ v, slots.idxOf? v ≠ some i := fun v hv =>
        hi ⟨v, Slots.idxOf?_of_prefix hslots hv⟩
      unfold terms
      rw [hu.get?_eq hslot, hu'.get?_eq hslot]

/-- Equality implies equality of the hashes, so that these leave no duplicate out of account. -/
theorem hash_and_same_eq {d : Dictionary} (hash : List (Option Term) → UInt64)
    (ht : t.Labeled d) (hu : u.Labeled d) : (hash t.key == hash u.key && t.same u) = t.same u := by
  cases hsame : t.same u with
  | false => rw [Bool.and_false]
  | true =>
    rw [key_eq_iff.2 ((same_iff ht hu).1 hsame), beq_self_eq_true]
    rfl

theorem forall₂_distinctFrom {R : Tuple → Row → Prop} (hash : List (Option Term) → UInt64)
    (hR : ∀ u r, R u r → ∀ u' r', R u' r' →
      (hash u.key == hash u'.key && u.same u') = r'.same r)
    {us seen : List Tuple} {rs seen' : List Row} (hseen : List.Forall₂ R seen seen')
    (h : List.Forall₂ R us rs) :
    List.Forall₂ R (distinctFrom hash seen us) (Row.distinctFrom seen' rs) := by
  induction h generalizing seen seen' with
  | nil => exact .nil
  | @cons u r us rs hur _ ih =>
    have hany := hseen.any_eq fun u' r' h => hR u' r' h u r hur
    unfold distinctFrom Row.distinctFrom
    rw [hany]
    split
    · exact ih hseen
    · exact .cons hur (ih (.cons hur hseen))

theorem forall₂_sort {R : Tuple → Row → Prop} {directions : List Direction}
    {keys : Tuple → List (Option Cell)} {keys' : Row → List (Option Datum)}
    (hkeys : ∀ u r, R u r → (keys u).map (fun c? => c?.map (·.datum)) = keys' r)
    {us : List Tuple} {rs : List Row} (h : List.Forall₂ R us rs) :
    List.Forall₂ R (sort directions keys us) (Row.sort directions keys' rs) := by
  have hsort : Row.sort directions keys' rs =
      rs.mergeSort fun a b => Row.keysOrder directions (keys' a) (keys' b) != .gt := by
    unfold Row.sort
    rw [← List.map_mergeSort (r := fun a b =>
      Row.keysOrder directions (keys' a) (keys' b) != .gt) fun _ _ _ _ => rfl, List.map_map]
    exact List.map_id _
  rw [sort_eq, hsort]
  refine h.mergeSort fun u r hur u' r' hur' => ?_
  rw [hkeys u r hur, hkeys u' r' hur']

theorem forall₂_slice {R : Tuple → Row → Prop} {us : List Tuple} {rs : List Row}
    (h : List.Forall₂ R us rs) (start : Nat) (length? : Option Nat) :
    List.Forall₂ R (slice start length? us) (Row.slice start length? rs) := by
  cases length? with
  | none => exact List.forall₂_drop start h
  | some n => exact List.forall₂_take n (List.forall₂_drop start h)

/-! ## Projections -/

theorem get?_foldl_enter {slots' : Slots} {vs : List Variable} {first : Nat} {acc : Tuple}
    (hslots : (slots.mapping first vs).2 <+: slots') (hacc : ∀ i, first ≤ i → acc.get? i = none)
    (i : Nat) :
    ((slots.mapping first vs).1.foldl (fun input (inner, outer) =>
      match t.get? outer with
      | some c => input.set inner c
      | none => input) acc).get? i =
      if i < first then acc.get? i
      else vs[i - first]?.bind fun v => (slots'.idxOf? v).bind t.get? := by
  induction vs generalizing slots first acc with
  | nil =>
    show acc.get? i = _
    split
    · rfl
    · rename_i hi
      exact hacc i (not_lt.1 hi)
  | cons v vs ih =>
    have hv := Slots.idxOf?_of_place ((Slots.prefix_mapping _ (first + 1) vs).trans hslots)
    -- the tuple after one more variable
    have hstep : ∀ j, (match t.get? (slots.place v).1 with
        | some c => acc.set first c
        | none => acc).get? j = if j = first then t.get? (slots.place v).1 else acc.get? j := by
      intro j
      cases hc : t.get? (slots.place v).1 with
      | some c => exact get?_set acc first c j
      | none =>
        show acc.get? j = _
        split
        · rename_i hj
          exact hacc j (ge_of_eq hj)
        · rfl
    rw [Slots.mapping, List.foldl_cons, ih hslots]
    · rw [hstep]
      rcases lt_trichotomy i first with hi | rfl | hi
      · rw [if_pos (by omega), if_neg (by omega), if_pos hi]
      · rw [if_pos (by omega), if_pos rfl, if_neg (lt_irrefl _), Nat.sub_self,
          List.getElem?_cons_zero, Option.bind_some, hv, Option.bind_some]
      · obtain ⟨k, rfl⟩ := Nat.exists_eq_add_of_lt hi
        rw [if_neg (by omega), if_neg (by omega),
          show first + k + 1 - (first + 1) = k by omega,
          show first + k + 1 - first = k + 1 by omega, List.getElem?_cons_succ]
    · intro j hj
      rw [hstep, if_neg (by omega)]
      exact hacc j (by omega)

/-- On the way in, each variable has the value that it has outside. -/
theorem get?_enter {slots' : Slots} {vs : List Variable}
    (hslots : (slots.mapping 0 vs).2 <+: slots') (i : Nat) :
    (t.enter (slots.mapping 0 vs).1).get? i =
      vs[i]?.bind fun v => (slots'.idxOf? v).bind t.get? :=
  (get?_foldl_enter hslots (fun _ _ => rfl) i).trans (if_neg (Nat.not_lt_zero i))

/-- On the way in, the values of the variables alone are shown. -/
theorem Shows.enter {slots' inner : Slots} {vs : List Variable} (h : t.Shows pl slots' row)
    (hslots : (slots.mapping 0 vs).2 <+: slots') (hinner : vs <+: inner) :
    (t.enter (slots.mapping 0 vs).1).Shows pl inner (row.restrict vs) := by
  refine ⟨fun i c hc => ?_, fun v => ?_⟩
  · rw [get?_enter hslots] at hc
    obtain ⟨v, -, hc⟩ := Option.bind_eq_some_iff.1 hc
    obtain ⟨slot, -, hc⟩ := Option.bind_eq_some_iff.1 hc
    exact h.labeled slot c hc
  · rw [Row.get?_restrict]
    by_cases hv : v ∈ vs
    · obtain ⟨i, hi⟩ : ∃ i, vs.idxOf? v = some i :=
        Option.ne_none_iff_exists'.1 (mt List.idxOf?_eq_none_iff.1 (not_not.2 hv))
      obtain ⟨hlt, hvi, -⟩ := List.idxOf?_eq_some_iff.1 hi
      rw [if_pos hv, Slots.idxOf?_of_prefix hinner hi, Option.bind_some, get?_enter hslots,
        List.getElem?_eq_getElem hlt, hvi, Option.bind_some]
      exact h.get?_eq v
    · rw [if_neg hv, Option.map_eq_none_iff, Option.bind_eq_none_iff]
      intro i hi
      rw [get?_enter hslots, List.getElem?_eq_none (Slots.length_le_of_idxOf? hinner hv hi),
        Option.bind_none]

/-- A slot of the inner table belongs to a repeated variable if this stands further ahead. -/
theorem idxOf?_ne_of_repeated {pre rest : List Variable} {inner : Slots}
    (hinner : pre ++ v :: rest <+: inner) (hv : v ∈ pre) (w : Variable) :
    inner.idxOf? w ≠ some pre.length := by
  obtain ⟨more, rfl⟩ := hinner
  intro hw
  obtain ⟨_, hwv, hfirst⟩ := List.idxOf?_eq_some_iff.1 hw
  obtain ⟨j, hj, hvj⟩ := List.mem_iff_getElem.1 hv
  refine hfirst j hj ?_
  rw [← hwv, List.getElem_append_left (by simp; omega), List.getElem_append_left hj,
    List.getElem_append_left (by simp), List.getElem_append_right le_rfl]
  simpa using hvj

theorem idxOf?_append_cons {pre rest : List Variable} {inner : Slots}
    (hinner : pre ++ v :: rest <+: inner) (hv : v ∉ pre) : inner.idxOf? v = some pre.length := by
  obtain ⟨more, rfl⟩ := hinner
  refine List.idxOf?_eq_some_iff.2 ⟨by simp, by simp, fun j hj hvj => hv ?_⟩
  rw [List.getElem_append_left (by simp; omega), List.getElem_append_left hj] at hvj
  exact hvj ▸ List.getElem_mem hj

/-- On the way out, the slots of the variables take what these have inside. Those before have been
taken up, and a repeated variable brings nothing new. -/
theorem Shows.leave?_of_prefix {slots' inner : Slots} {pre rest ws : List Variable}
    {inside entered : Tuple} {other : Row} (hinner : pre ++ rest <+: inner)
    (hslots : (slots.mapping pre.length rest).2 <+: slots')
    (hinside : inside.Shows pl inner other) (hgrows : entered.Grows inner ws inside)
    (hentered : ∀ i, entered.get? i = (pre ++ rest)[i]?.bind fun v =>
      (slots'.idxOf? v).bind t.get?)
    (hu : u.Extends t) (h : u.Shows pl slots' r)
    (hpre : ∀ v ∈ pre, ∀ d, other.get? v = some d → ∃ e, r.get? v = some e ∧ e.same d = true) :
    Option.Rel (Shows pl slots') (u.leave? (slots.mapping pre.length rest).1 inside)
      (r.extend? rest other) := by
  induction rest generalizing slots pre u r with
  | nil => exact .some h
  | cons v rest ih =>
    have hcons : (pre ++ [v]) ++ rest = pre ++ v :: rest := List.append_assoc pre [v] rest
    have hlength : (pre ++ [v]).length = pre.length + 1 := List.length_append
    have hv := Slots.idxOf?_of_place
      ((Slots.prefix_mapping (slots.place v).2 (pre.length + 1) rest).trans hslots)
    have hbound : Option.Rel (Shows pl slots')
        (u.bindAny? (slots.place v).1 (inside.get? pre.length))
        (r.bindAny? v (other.get? v)) := by
      by_cases hrepeated : v ∈ pre
      · -- the second slot inside has what the variable has outside
        have hslot : inside.get? pre.length = t.get? (slots.place v).1 := by
          rw [hgrows.get?_eq (idxOf?_ne_of_repeated hinner hrepeated), hentered,
            List.getElem?_append_right le_rfl, Nat.sub_self, List.getElem?_cons_zero,
            Option.bind_some, hv, Option.bind_some]
        have hkept : inside.get? pre.length = none ∨
            u.get? (slots.place v).1 = inside.get? pre.length := by
          rw [hslot]
          cases hc : t.get? (slots.place v).1 with
          | none => exact .inl rfl
          | some c => exact .inr (hu _ c hc)
        rw [bindAny?_of_get? hkept, Row.bindAny?_of_same (hpre v hrepeated)]
        exact .some h
      · exact h.bindAny? hv (hinside.rel_get? (idxOf?_append_cons hinner hrepeated))
    unfold leave? Row.extend?
    rw [Slots.mapping, List.foldlM_cons, List.foldlM_cons]
    refine hbound.and_eq.bind fun next next' h => ?_
    obtain ⟨hnext, hleft, hright⟩ := h
    have hrest : Option.Rel (Shows pl slots')
        (next.leave? ((slots.place v).2.mapping (pre ++ [v]).length rest).1 inside)
        (next'.extend? rest other) :=
      ih (hcons ▸ hinner) (by rwa [hlength]) (by rwa [hcons])
        ((extends_of_bindAny? hleft).trans hu) hnext ?_
    · rwa [hlength] at hrest
    · intro w hw d hd
      rcases List.mem_append.1 hw with hw | hw
      · obtain ⟨e, he, hsame⟩ := hpre w hw d hd
        exact ⟨e, Row.extends_of_bindAny? hright w e he, hsame⟩
      · obtain rfl := List.mem_singleton.1 hw
        exact Row.exists_same_of_bindAny? hright hd

/-- On the way out, the variables that are projected are extended by what they have inside. -/
theorem Shows.leave? {slots' inner : Slots} {vs ws : List Variable} {inside : Tuple} {other : Row}
    (h : t.Shows pl slots' row) (hslots : (slots.mapping 0 vs).2 <+: slots')
    (hinner : vs <+: inner) (hinside : inside.Shows pl inner other)
    (hgrows : (t.enter (slots.mapping 0 vs).1).Grows inner ws inside) :
    Option.Rel (Shows pl slots') (t.leave? (slots.mapping 0 vs).1 inside)
      (row.extend? vs other) := by
  show Option.Rel _ (t.leave? (slots.mapping ([] : List Variable).length vs).1 inside) _
  exact leave?_of_prefix hinner hslots hinside hgrows (get?_enter hslots) (.refl t) h
    fun _ hv => absurd hv List.not_mem_nil

end Tuple
end QuadStore
