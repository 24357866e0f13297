import QuadStore.Proofs.Extending
import QuadStore.Proofs.Scope
import QuadStore.Proofs.SortAgreement

/-!
# Stable sorts

The rows of an ordered pattern are those of the pattern below it, arranged by their keys: the first
key that tells two rows apart decides, in its own direction, and rows that no key tells apart stay
as they were: `Session.Arises.sorts_stably`.

Each direction has its ranks, in the reversed order if it is descending. Lists of values are
compared as the lists of their ranks are.
-/

namespace List

variable {α : Type}

/-- A list is another one arranged by some comparisons of its elements. Each place of the one list
is filled from a place of the other. Of two elements, the first comparison that tells them apart
does not put the one behind above the other; if none does, they are as they were before. -/
def IsStableSort (comparisons : α → α → List Ordering) (l sorted : List α) : Prop :=
  ∃ places : List Nat, places.Perm (range l.length) ∧ sorted.map some = places.map (l[·]?) ∧
    places.Pairwise fun i j => ∀ a ∈ l[i]?, ∀ b ∈ l[j]?,
      (comparisons a b).foldr Ordering.then .eq ≠ .gt ∧
        ((∀ o ∈ comparisons a b, o = .eq) → i < j)

/-- The places from which a sorted list is filled. -/
theorem exists_places_mergeSort {le : α → α → Bool}
    (htrans : ∀ a b c, le a b = true → le b c = true → le a c = true)
    (htotal : ∀ a b, (le a b || le b a) = true) (l : List α) :
    ∃ places : List Nat, places.Perm (range l.length) ∧
      (l.mergeSort le).map some = places.map (l[·]?) ∧
      places.Pairwise fun i j => ∀ a ∈ l[i]?, ∀ b ∈ l[j]?,
        le a b = true ∧ (le b a = true → i < j) := by
  -- each element is sorted together with its place
  let sorted := l.zipIdx.mergeSort (zipIdxLE le)
  have hperm : sorted.Perm l.zipIdx := mergeSort_perm _ _
  have hplaces : (sorted.map Prod.snd).Perm (range l.length) := by
    rw [range_eq_range', ← zipIdx_map_snd 0 l]
    exact hperm.map Prod.snd
  have hsource : ∀ p ∈ sorted, l[p.2]? = some p.1 := fun p hp =>
    mem_zipIdx_iff_getElem?.1 (hperm.mem_iff.1 hp)
  refine ⟨sorted.map Prod.snd, hplaces, ?_, ?_⟩
  · rw [← mergeSort_zipIdx, map_map, map_map]
    exact map_congr_left fun p hp => (hsource p hp).symm
  · have hdistinct : sorted.Pairwise fun p q => p.2 ≠ q.2 :=
      pairwise_map.1 (hplaces.nodup_iff.2 nodup_range)
    have hsorted := pairwise_mergeSort (zipIdxLE_trans htrans) (zipIdxLE_total htotal) l.zipIdx
    rw [pairwise_map]
    refine (hsorted.and hdistinct).imp_of_mem ?_
    rintro ⟨a, i⟩ ⟨b, j⟩ ha hb ⟨hle, hne⟩ a' ha' b' hb'
    obtain rfl := Option.some.inj ((hsource _ ha).symm.trans ha')
    obtain rfl := Option.some.inj ((hsource _ hb).symm.trans hb')
    unfold zipIdxLE at hle
    dsimp only at hle hne ⊢
    split at hle
    · rename_i hab
      refine ⟨hab, fun hba => ?_⟩
      rw [if_pos hba] at hle
      exact lt_of_le_of_ne (of_decide_eq_true hle) hne
    · cases hle

/-- Lists are compared by their first elements, then by the others. -/
theorem cons_compares [LinearOrder α] {o p : Ordering} {a b : α} {l l' : List α}
    (h : o.Compares a b) (hp : p.Compares l l') : (o.then p).Compares (a :: l) (b :: l') := by
  cases o with
  | lt => exact cons_lt_cons_iff.2 (.inl h)
  | gt => exact cons_lt_cons_iff.2 (.inl h)
  | eq =>
    obtain rfl : a = b := h
    cases p with
    | lt => exact cons_lt_cons_iff.2 (.inr ⟨rfl, hp⟩)
    | gt => exact cons_lt_cons_iff.2 (.inr ⟨rfl, hp⟩)
    | eq => exact congrArg (a :: ·) hp

end List

theorem Ordering.foldr_then_eq {os : List Ordering} (h : ∀ o ∈ os, o = .eq) :
    os.foldr Ordering.then .eq = .eq := by
  induction os with
  | nil => rfl
  | cons o os ih =>
    rw [List.foldr_cons, h o List.mem_cons_self, ih fun p hp => h p (List.mem_cons_of_mem _ hp)]
    rfl

namespace QuadStore

/-! ## Sort keys -/

/-- The rank of what a sort key gives, which may be nothing. -/
abbrev KeyRank := WithBot (String ⊕ₗ String ⊕ₗ LiteralRank)

/-- The rank of a sort key in a direction. -/
def Direction.rank (direction : Direction) (x? : Option Datum) : KeyRank ⊕ₗ KeyRankᵒᵈ :=
  match direction with
  | .ascending => Sum.inlₗ (lowRank Datum.rank x?)
  | .descending => Sum.inrₗ (OrderDual.toDual (lowRank Datum.rank x?))

namespace Row

variable {directions : List Direction} {as bs : List (Option Datum)} {a? b? : Option Datum}

theorem keyOrder_compares (direction : Direction) (ha : ∀ a, a? = some a → a.Fits)
    (hb : ∀ b, b? = some b → b.Fits) :
    (keyOrder direction a? b?).Compares (direction.rank a?) (direction.rank b?) := by
  cases direction with
  | ascending => exact Sum.Lex.inl_strictMono.compares.2 (Datum.keyOrder_compares ha hb)
  | descending =>
    exact Sum.Lex.inr_strictMono.compares.2
      (toDual_compares_toDual.2 (Datum.keyOrder_compares hb ha))

/-- The comparisons of two lists of values, key by key. What is missing is below all values, and
under a descending key the comparison is reversed. -/
def comparisons (directions : List Direction) (as bs : List (Option Datum)) : List Ordering :=
  (directions.zip (as.zip bs)).map fun (direction, a?, b?) =>
    match direction with
    | .ascending => Datum.keyOrder a? b?
    | .descending => (Datum.keyOrder a? b?).swap

/-- The first comparison that is not level decides. -/
theorem keysOrder_eq (ha : ∀ a, some a ∈ as → a.Fits) (hb : ∀ b, some b ∈ bs → b.Fits) :
    keysOrder directions as bs = (comparisons directions as bs).foldr Ordering.then .eq := by
  induction directions generalizing as bs with
  | nil => rfl
  | cons direction directions ih =>
    cases as with
    | nil => rfl
    | cons a? as =>
      cases bs with
      | nil => rfl
      | cons b? bs =>
        have hrest := ih (fun a h => ha a (List.mem_cons_of_mem _ h))
          fun b h => hb b (List.mem_cons_of_mem _ h)
        have ha' : ∀ a, a? = some a → a.Fits := fun a h => ha a (h ▸ List.mem_cons_self)
        have hb' : ∀ b, b? = some b → b.Fits := fun b h => hb b (h ▸ List.mem_cons_self)
        show (keyOrder direction a? b?).then (keysOrder directions as bs) = _
        rw [hrest]
        cases direction with
        | ascending => rfl
        | descending =>
          have hswap : Datum.keyOrder b? a? = (Datum.keyOrder a? b?).swap :=
            (Datum.keyOrder_compares hb' ha').inj
              (Ordering.compares_swap.2 (Datum.keyOrder_compares ha' hb'))
          show (Datum.keyOrder b? a?).then _ = _
          rw [hswap]
          rfl

/-- Two lists of values are compared by their ranks. -/
theorem keysOrder_compares (hlength : as.length = bs.length)
    (ha : ∀ a, some a ∈ as → a.Fits) (hb : ∀ b, some b ∈ bs → b.Fits) :
    (keysOrder directions as bs).Compares (List.zipWith Direction.rank directions as)
      (List.zipWith Direction.rank directions bs) := by
  induction directions generalizing as bs with
  | nil => exact rfl
  | cons direction directions ih =>
    cases as with
    | nil =>
      obtain rfl := List.eq_nil_of_length_eq_zero hlength.symm
      exact rfl
    | cons a? as =>
      cases bs with
      | nil => cases hlength
      | cons b? bs =>
        exact List.cons_compares
          (keyOrder_compares direction (fun a h => ha a (h ▸ List.mem_cons_self))
            fun b h => hb b (h ▸ List.mem_cons_self))
          (ih (Nat.succ.inj hlength) (fun a h => ha a (List.mem_cons_of_mem _ h))
            fun b h => hb b (List.mem_cons_of_mem _ h))

/-- To sort by keys is a stable sort by their comparisons. -/
theorem isStableSort_mergeSort {α : Type} {keys : α → List (Option Datum)} {l : List α}
    (hlength : ∀ a ∈ l, (keys a).length = directions.length)
    (hfits : ∀ a ∈ l, ∀ d, some d ∈ keys a → d.Fits) :
    List.IsStableSort (fun a b => comparisons directions (keys a) (keys b)) l
      (((l.map fun a => (keys a, a)).mergeSort fun a b =>
        keysOrder directions a.1 b.1 != .gt).map (·.2)) := by
  let rank (a : α) := List.zipWith Direction.rank directions (keys a)
  have hcompares : ∀ a ∈ l, ∀ b ∈ l,
      (keysOrder directions (keys a) (keys b)).Compares (rank a) (rank b) := fun a ha b hb =>
    keysOrder_compares ((hlength a ha).trans (hlength b hb).symm) (hfits a ha) (hfits b hb)
  -- the elements are put into the order of their ranks
  have hmap : ((l.map fun a => (keys a, a)).mergeSort fun a b =>
      keysOrder directions a.1 b.1 != .gt) =
      (l.mergeSort fun a b => decide (rank a ≤ rank b)).map fun a => (keys a, a) := by
    refine (List.map_mergeSort fun a ha b hb => ?_).symm
    rw [Bool.eq_iff_iff, decide_eq_true_iff, bne_iff_ne, (hcompares a ha b hb).ne_gt]
  rw [hmap, List.map_map, show (Prod.snd ∘ fun a => (keys a, a)) = id from rfl, List.map_id]
  have htrans : ∀ a b c, decide (rank a ≤ rank b) = true → decide (rank b ≤ rank c) = true →
      decide (rank a ≤ rank c) = true := fun a b c hab hbc =>
    decide_eq_true ((of_decide_eq_true hab).trans (of_decide_eq_true hbc))
  have htotal : ∀ a b, (decide (rank a ≤ rank b) || decide (rank b ≤ rank a)) = true := by
    intro a b
    rw [Bool.or_eq_true, decide_eq_true_iff, decide_eq_true_iff]
    exact le_total _ _
  obtain ⟨places, hperm, hfilled, hsorted⟩ := List.exists_places_mergeSort htrans htotal l
  refine ⟨places, hperm, hfilled, hsorted.imp fun h a ha b hb => ?_⟩
  obtain ⟨hle, hlevel⟩ := h a ha b hb
  have hab := hcompares a (List.mem_of_getElem? ha) b (List.mem_of_getElem? hb)
  have heq : keysOrder directions (keys a) (keys b) =
      (comparisons directions (keys a) (keys b)).foldr Ordering.then .eq :=
    keysOrder_eq (hfits a (List.mem_of_getElem? ha)) (hfits b (List.mem_of_getElem? hb))
  rw [← heq]
  refine ⟨hab.ne_gt.2 (of_decide_eq_true hle), fun hall => hlevel (decide_eq_true ?_)⟩
  exact (hab.eq_eq.1 (heq.trans (Ordering.foldr_then_eq hall))).ge

end Row

/-! ## Ordered patterns -/

/-- A tuple whose data are genuine. -/
def Tuple.Genuine (t : Tuple) : Prop := ∀ i c, t.get? i = some c → c.datum.Genuine

/-- A tuple of genuine data shows a row of them. -/
theorem Tuple.Shows.genuine {pl : Planner} {slots : Slots} {t : Tuple} {row : Row}
    (h : t.Shows pl slots row) (ht : t.Genuine) : row.Genuine := by
  intro v d hd
  rw [← h.get?_eq v] at hd
  obtain ⟨c, hc, rfl⟩ := Option.map_eq_some_iff.1 hd
  obtain ⟨i, -, hi⟩ := Option.bind_eq_some_iff.1 hc
  exact ht i c hi

namespace Expression

variable {dataset : Dataset} {keys : List (Direction × Expression)}

theorem evalKeys_eq (dataset : Dataset) (row : Row) (keys : List (Direction × Expression)) :
    evalKeys dataset keys row = keys.map fun key => key.2.eval dataset row := by
  induction keys with
  | nil => simp only [evalKeys, List.map_nil]
  | cons key rest ih => simp only [evalKeys, List.map_cons, ih]

/-- The values of the keys in a row of genuine data are genuine. -/
theorem fits_evalKeys {row : Row} (hrow : row.Genuine) {d : Datum}
    (h : some d ∈ evalKeys dataset keys row) : d.Fits := by
  rw [evalKeys_eq] at h
  obtain ⟨key, -, hkey⟩ := List.mem_map.1 h
  exact (key.2.genuine_eval dataset hrow d hkey).fits

end Expression

namespace GraphPattern

variable {pl : Planner}

/-- The values that the sort keys of an ordered pattern have in a tuple. -/
def keyValues (pl : Planner) (inner : GraphPattern) (keys : List (Direction × Expression))
    (slots : Slots) (t : Tuple) : List (Option Datum) :=
  ((Expression.planKeys pl keys (inner.plan pl slots).slots).run t).map fun c? =>
    c?.map (·.datum)

/-- How an ordered pattern goes with the pattern below it: its rows are a stable sort of those below
by the comparisons of the keys, whatever row of genuine data it is started on, as all rows of an
evaluation are, and its tuples are so in whatever table of slots. -/
structure SortsStably (pl : Planner) (inner : GraphPattern)
    (keys : List (Direction × Expression)) : Prop where
  rows : ∀ row : Row, row.Genuine → ∃ ls os,
    inner.evaluator.Yields pl.reading (inner.evaluator.start pl.reading row) ls ∧
      (orderBy inner keys).evaluator.Yields pl.reading
        ((orderBy inner keys).evaluator.start pl.reading row) os ∧
      List.IsStableSort (fun r s => Row.comparisons (keys.map (·.1))
        (keys.map fun key => key.2.eval pl.reading.dataset r)
        (keys.map fun key => key.2.eval pl.reading.dataset s)) ls os
  tuples : ∀ (slots : Slots) (t : Tuple), t.Labeled pl.dictionary → t.Genuine →
    List.IsStableSort (fun u u' => Row.comparisons (keys.map (·.1))
      (inner.keyValues pl keys slots u) (inner.keyValues pl keys slots u'))
      ((inner.plan pl slots).run t) (((orderBy inner keys).plan pl slots).run t)

theorem isStableSort_rows (inner : GraphPattern) (keys : List (Direction × Expression))
    (dataset : Dataset) {row : Row} (hrow : row.Genuine) :
    List.IsStableSort (fun r s => Row.comparisons (keys.map (·.1))
      (keys.map fun key => key.2.eval dataset r) (keys.map fun key => key.2.eval dataset s))
      (inner.rows dataset row) ((orderBy inner keys).rows dataset row) := by
  rw [GraphPattern.rows]
  simp only [← Expression.evalKeys_eq]
  refine Row.isStableSort_mergeSort (fun r _ => ?_) fun r hr d => ?_
  · rw [Expression.evalKeys_eq, List.length_map, List.length_map]
  · exact Expression.fits_evalKeys (inner.genuine_rows dataset hrow r hr)

theorem isStableSort_plan (inner : GraphPattern) (keys : List (Direction × Expression))
    (hr : pl.reading.view.store.Readable) (slots : Slots) {t : Tuple}
    (hlabeled : t.Labeled pl.dictionary) (hgenuine : t.Genuine) :
    List.IsStableSort (fun u u' => Row.comparisons (keys.map (·.1))
      (inner.keyValues pl keys slots u) (inner.keyValues pl keys slots u'))
      ((inner.plan pl slots).run t) (((orderBy inner keys).plan pl slots).run t) := by
  have hslots := Expression.prefix_planKeys pl keys (inner.plan pl slots).slots
  obtain ⟨row, hshows⟩ := Tuple.exists_shows hlabeled
    (Expression.planKeys pl keys (inner.plan pl slots).slots).slots
  -- the keys have their values of the rows that the tuples show
  have hvalues : ∀ u ∈ (inner.plan pl slots).run t, ∃ r : Row, r.Genuine ∧
      inner.keyValues pl keys slots u = Expression.evalKeys pl.reading.dataset keys r := by
    intro u hu
    obtain ⟨r, hmem, hur⟩ := (inner.shows_plan hr hslots hshows).exists_of_mem_left hu
    exact ⟨r, inner.genuine_rows _ (hshows.genuine hgenuine) r hmem,
      Cell.map_map_datum (Expression.shows_planKeys hr keys (List.prefix_refl _) hur)⟩
  rw [GraphPattern.plan]
  refine Row.isStableSort_mergeSort (fun u hu => ?_) fun u hu d hd => ?_
  · obtain ⟨r, -, hvalue⟩ := hvalues u hu
    rw [hvalue, Expression.evalKeys_eq, List.length_map, List.length_map]
  · obtain ⟨r, hgenuine, hvalue⟩ := hvalues u hu
    rw [hvalue] at hd
    exact Expression.fits_evalKeys hgenuine hd

theorem sortsStably (inner : GraphPattern) (keys : List (Direction × Expression))
    (hr : pl.reading.view.store.Readable) : SortsStably pl inner keys := by
  constructor
  case rows =>
    exact fun row hrow => ⟨_, _, inner.computes_evaluator _ hr row,
      (orderBy inner keys).computes_evaluator _ hr row, inner.isStableSort_rows keys _ hrow⟩
  case tuples =>
    exact fun slots t hlabeled hgenuine =>
      inner.isStableSort_plan keys hr slots hlabeled hgenuine

end GraphPattern

namespace Session

variable {session : Session}

/-- Whatever the session, the stamp and the hash, an ordered pattern sorts what the pattern below it
gives by its keys, and leaves what they do not tell apart in its order. -/
theorem Arises.sorts_stably (h : session.Arises) {s : Store} (hs : session.store? = some s)
    (stamp : Nat) (inferred : Bool) (hash : List (Option Term) → UInt64) (inner : GraphPattern)
    (keys : List (Direction × Expression)) :
    GraphPattern.SortsStably ⟨⟨s.at stamp, inferred⟩, hash⟩ inner keys :=
  inner.sortsStably keys (h.readable s (by rw [← store?_eq, hs]))

/-- Within the transaction, every step twice, by its end from the last one to the first, then by a
key that has no value. -/
theorem sorts_stably_inferring : inferring.Arises ∧ ∃ s, inferring.store? = some s ∧
    GraphPattern.SortsStably ⟨⟨s.at Stamp.pending, true⟩, fun _ => 0⟩ (.union oneStep oneStep)
      [(.descending, .var ⟨"b"⟩), (.ascending, .unary .minus (.var ⟨"a"⟩))] := by
  have harises : inferring.Arises := (Arises.start none {}).after _
  exact ⟨harises, _, rfl, harises.sorts_stably rfl Stamp.pending true (fun _ => 0) _ _⟩

example : inferring.store?.map (fun s =>
    ((GraphPattern.orderBy (.union oneStep oneStep)
      [(.descending, .var ⟨"b"⟩), (.ascending, .unary .minus (.var ⟨"a"⟩))]).plannedRows
      ⟨⟨s.at Stamp.pending, true⟩, fun _ => 0⟩ ⟨[], []⟩).map (·.values)) =
    some [[some (.iri ⟨"o"⟩), some (.iri ⟨"s"⟩)], [some (.iri ⟨"o"⟩), some (.iri ⟨"s"⟩)],
      [some (.iri ⟨"s"⟩), some (.iri ⟨"o"⟩)], [some (.iri ⟨"s"⟩), some (.iri ⟨"o"⟩)]] := by cbv

end Session
end QuadStore
