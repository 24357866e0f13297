import QuadStore.Store.Evaluator

/-!
# Pulls that come to their end

The loops of the evaluators go on until they find a row, and an equation that such a loop satisfies
does not say that it ends. `Evaluator.Pulls` is the course of a pull: each rule is one turn of a
loop, so that a course, being finite, is a pull that ends, and one without an error. What the course
leads to is what is computed: `Evaluator.Pulls.next_eq`.
-/

namespace QuadStore
namespace Evaluator

mutual

/-- A pull in some state ends without an error, with a row or with none, in another state. -/
inductive Pulls : (m : Evaluator) → Reading → m.State → Option Row → m.State → Prop
  -- a quad is looked at and extends the row or not
  | quadOver {p : QuadPattern} {r : Reading} : Pulls (quad p) r none none none
  | quadEnd {p : QuadPattern} {r : Reading} {row : Row} {scan : Index.Scan} :
      r.view.store.index.next? scan = none → Pulls (quad p) r (some (row, scan)) none none
  | quadItem {p : QuadPattern} {r : Reading} {row x : Row} {scan after : Index.Scan} {e : Entry}
      {q : Quad} : r.view.store.index.next? scan = some (e, after) →
      r.view.store.dictionary.resolveQuad e.quad = .ok q → p.bind? row q = some x →
      Pulls (quad p) r (some (row, scan)) (some x) (some (row, after))
  | quadSkip {p : QuadPattern} {r : Reading} {row : Row} {scan after : Index.Scan} {e : Entry}
      {q : Quad} {x? : Option Row} {t : (quad p).State} :
      r.view.store.index.next? scan = some (e, after) →
      r.view.store.dictionary.resolveQuad e.quad = .ok q → p.bind? row q = none →
      Pulls (quad p) r (some (row, after)) x? t → Pulls (quad p) r (some (row, scan)) x? t
  -- the right side of a join goes first, then the next row of the left side
  | joinItem {left right : Evaluator} {r : Reading} {l : left.State} {s s' : right.State}
      {x : Row} :
      Pulls right r s (some x) s' → Pulls (join left right) r ⟨l, some s⟩ (some x) ⟨l, some s'⟩
  | joinTurn {left right : Evaluator} {r : Reading} {l : left.State} {s s' : right.State}
      {x? : Option Row} {t : (join left right).State} : Pulls right r s none s' →
      Pulls (join left right) r ⟨l, none⟩ x? t → Pulls (join left right) r ⟨l, some s⟩ x? t
  | joinEnter {left right : Evaluator} {r : Reading} {l l' : left.State} {x : Row}
      {x? : Option Row} {t : (join left right).State} : Pulls left r l (some x) l' →
      Pulls (join left right) r ⟨l', some (right.start r x)⟩ x? t →
      Pulls (join left right) r ⟨l, none⟩ x? t
  | joinEnd {left right : Evaluator} {r : Reading} {l l' : left.State} :
      Pulls left r l none l' → Pulls (join left right) r ⟨l, none⟩ none ⟨l', none⟩
  -- a left join gives the row that is held back when nothing has extended it
  | leftJoinItem {left right : Evaluator} {r : Reading} {l : left.State} {s s' : right.State}
      {held? : Option Row} {x : Row} : Pulls right r s (some x) s' →
      Pulls (leftJoin left right) r ⟨l, some s, held?⟩ (some x) ⟨l, some s', none⟩
  | leftJoinTurn {left right : Evaluator} {r : Reading} {l : left.State} {s s' : right.State}
      {held? x? : Option Row} {t : (leftJoin left right).State} : Pulls right r s none s' →
      Pulls (leftJoin left right) r ⟨l, none, held?⟩ x? t →
      Pulls (leftJoin left right) r ⟨l, some s, held?⟩ x? t
  | leftJoinHeld {left right : Evaluator} {r : Reading} {l : left.State} {x : Row} :
      Pulls (leftJoin left right) r ⟨l, none, some x⟩ (some x) ⟨l, none, none⟩
  | leftJoinEnter {left right : Evaluator} {r : Reading} {l l' : left.State} {x : Row}
      {x? : Option Row} {t : (leftJoin left right).State} : Pulls left r l (some x) l' →
      Pulls (leftJoin left right) r ⟨l', some (right.start r x), some x⟩ x? t →
      Pulls (leftJoin left right) r ⟨l, none, none⟩ x? t
  | leftJoinEnd {left right : Evaluator} {r : Reading} {l l' : left.State} :
      Pulls left r l none l' → Pulls (leftJoin left right) r ⟨l, none, none⟩ none ⟨l', none, none⟩
  -- a union goes through its first side, then through its second one
  | unionEnter {left right : Evaluator} {r : Reading} {row : Row} {x? : Option Row}
      {t : (union left right).State} :
      Pulls (union left right) r (.first (left.start r row) row) x? t →
      Pulls (union left right) r (.waiting row) x? t
  | unionFirst {left right : Evaluator} {r : Reading} {l l' : left.State} {row x : Row} :
      Pulls left r l (some x) l' →
        Pulls (union left right) r (.first l row) (some x) (.first l' row)
  | unionTurn {left right : Evaluator} {r : Reading} {l l' : left.State} {row : Row}
      {x? : Option Row} {t : (union left right).State} : Pulls left r l none l' →
      Pulls (union left right) r (.second (right.start r row)) x? t →
      Pulls (union left right) r (.first l row) x? t
  | unionSecond {left right : Evaluator} {r : Reading} {s s' : right.State} {x : Row} :
      Pulls right r s (some x) s' → Pulls (union left right) r (.second s) (some x) (.second s')
  | unionEnd {left right : Evaluator} {r : Reading} {s s' : right.State} :
      Pulls right r s none s' → Pulls (union left right) r (.second s) none .over
  | unionOver {left right : Evaluator} {r : Reading} : Pulls (union left right) r .over none .over
  -- a sieve passes an image on, or asks for another row
  | sieveItem {σ : Type} [Inhabited σ] {m : Evaluator} {enter : Row → Row} {begin : Row → σ}
      {image : Dataset → σ → Row → Option Row × σ} {r : Reading} {s s' : m.State}
      {memory memory' : σ} {row x : Row} : Pulls m r s (some row) s' →
      image r.dataset memory row = (some x, memory') →
      Pulls (m.sieve enter begin image) r (s, memory) (some x) (s', memory')
  | sieveSkip {σ : Type} [Inhabited σ] {m : Evaluator} {enter : Row → Row} {begin : Row → σ}
      {image : Dataset → σ → Row → Option Row × σ} {r : Reading} {s s' : m.State}
      {memory memory' : σ} {row : Row} {x? : Option Row} {t : (m.sieve enter begin image).State} :
      Pulls m r s (some row) s' → image r.dataset memory row = (none, memory') →
      Pulls (m.sieve enter begin image) r (s', memory') x? t →
      Pulls (m.sieve enter begin image) r (s, memory) x? t
  | sieveEnd {σ : Type} [Inhabited σ] {m : Evaluator} {enter : Row → Row} {begin : Row → σ}
      {image : Dataset → σ → Row → Option Row × σ} {r : Reading} {s s' : m.State} {memory : σ} :
      Pulls m r s none s' → Pulls (m.sieve enter begin image) r (s, memory) none (s', memory)
  -- a sort asks for all rows first
  | sortEnter {m : Evaluator} {order : Dataset → List Row → List Row} {r : Reading} {s : m.State}
      {rows : List Row} {x? : Option Row} {t : (m.sort order).State} : Drains m r s rows →
      Pulls (m.sort order) r (.sorted (order r.dataset rows)) x? t →
      Pulls (m.sort order) r (.pending s) x? t
  | sortItem {m : Evaluator} {order : Dataset → List Row → List Row} {r : Reading} {x : Row}
      {rows : List Row} : Pulls (m.sort order) r (.sorted (x :: rows)) (some x) (.sorted rows)
  | sortEnd {m : Evaluator} {order : Dataset → List Row → List Row} {r : Reading} :
      Pulls (m.sort order) r (.sorted []) none (.sorted [])
  -- a slice leaves some rows out and closes with the last one allowed
  | sliceOver {m : Evaluator} {start : Nat} {length? : Option Nat} {r : Reading} {s : m.State}
      {toSkip : Nat} :
      Pulls (m.slice start length?) r ⟨s, toSkip, some 0⟩ none ⟨m.closed, toSkip, some 0⟩
  | sliceItem {m : Evaluator} {start : Nat} {length? remaining? : Option Nat} {r : Reading}
      {s s' : m.State} {toSkip left : Nat} {x : Row} : remaining? ≠ some 0 →
      Skips m r toSkip s (some x) left s' →
      Pulls (m.slice start length?) r ⟨s, toSkip, remaining?⟩ (some x)
        ⟨if remaining?.map (· - 1) = some 0 then m.closed else s', left, remaining?.map (· - 1)⟩
  | sliceEnd {m : Evaluator} {start : Nat} {length? remaining? : Option Nat} {r : Reading}
      {s s' : m.State} {toSkip left : Nat} : remaining? ≠ some 0 →
      Skips m r toSkip s none left s' →
      Pulls (m.slice start length?) r ⟨s, toSkip, remaining?⟩ none ⟨s', left, remaining?⟩

/-- Pulls up to the end give some rows. -/
inductive Drains : (m : Evaluator) → Reading → m.State → List Row → Prop
  | nil {m : Evaluator} {r : Reading} {s s' : m.State} : Pulls m r s none s' → Drains m r s []
  | cons {m : Evaluator} {r : Reading} {s s' : m.State} {x : Row} {rows : List Row} :
      Pulls m r s (some x) s' → Drains m r s' rows → Drains m r s (x :: rows)

/-- Pulls of some rows that are left out, and one more pull. -/
inductive Skips : (m : Evaluator) → Reading → Nat → m.State → Option Row → Nat → m.State → Prop
  | last {m : Evaluator} {r : Reading} {s s' : m.State} {x? : Option Row} : Pulls m r s x? s' →
      Skips m r 0 s x? 0 s'
  | skip {m : Evaluator} {r : Reading} {toSkip left : Nat} {s s' t : m.State} {x : Row}
      {x? : Option Row} : Pulls m r s (some x) s' → Skips m r toSkip s' x? left t →
      Skips m r (toSkip + 1) s x? left t
  | short {m : Evaluator} {r : Reading} {toSkip : Nat} {s s' : m.State} : Pulls m r s none s' →
      Skips m r (toSkip + 1) s none (toSkip + 1) s'

end

/-- The answer to a pull that ends without an error. -/
def answer (x? : Option Row) : Pull Corruption Row := x?.elim .done .item

/-- A quad that is found is bound, or the search goes on behind it. -/
theorem nextMatch_of_next? {p : QuadPattern} {row : Row} {r : Reading} {scan after : Index.Scan}
    {e : Entry} {q : Quad} (hnext : r.view.store.index.next? scan = some (e, after))
    (hq : r.view.store.dictionary.resolveQuad e.quad = .ok q) :
    nextMatch p row r scan =
      (p.bind? row q).elim (nextMatch p row r after) fun x => (.item x, some (row, after)) := by
  conv => lhs; rw [nextMatch, hnext]
  dsimp only
  rw [hq]
  dsimp only
  cases p.bind? row q <;> rfl

mutual

/-- A pull that ends is computed. -/
theorem Pulls.next_eq {m : Evaluator} {r : Reading} {s s' : m.State} {x? : Option Row} :
    Pulls m r s x? s' → m.next r s = (answer x?, s')
  -- by induction on the course: one turn of a loop is unfolded, and where the loop goes on, the
  -- rest of the course says what comes of it
  | .quadOver => rfl
  | .quadEnd hnext => by
    show nextMatch _ _ _ _ = _
    rw [nextMatch, hnext]
    rfl
  | .quadItem hnext hq hbind => by
    refine (nextMatch_of_next? hnext hq).trans ?_
    rw [hbind]
    rfl
  | .quadSkip hnext hq hbind hrest => by
    refine ((nextMatch_of_next? hnext hq).trans ?_).trans hrest.next_eq
    rw [hbind]
    rfl
  | .joinItem h => by
    show nextJoin _ _ _ _ _ = _
    rw [nextJoin, h.next_eq]
    rfl
  | .joinTurn h hrest => by
    refine Eq.trans ?_ hrest.next_eq
    show nextJoin _ _ _ _ _ = nextJoin _ _ _ _ _
    rw [nextJoin, h.next_eq]
    rfl
  | .joinEnter h hrest => by
    refine Eq.trans ?_ hrest.next_eq
    show nextJoin _ _ _ _ none = nextJoin _ _ _ _ (some _)
    conv => lhs; rw [nextJoin, h.next_eq]
    rfl
  | .joinEnd h => by
    show nextJoin _ _ _ _ _ = _
    rw [nextJoin, h.next_eq]
    rfl
  | .leftJoinItem h => by
    show nextLeftJoin _ _ _ _ _ _ = _
    rw [nextLeftJoin, h.next_eq]
    rfl
  | .leftJoinTurn h hrest => by
    refine Eq.trans ?_ hrest.next_eq
    show nextLeftJoin _ _ _ _ _ _ = nextLeftJoin _ _ _ _ _ _
    rw [nextLeftJoin, h.next_eq]
    rfl
  | .leftJoinHeld => by
    show nextLeftJoin _ _ _ _ _ _ = _
    rw [nextLeftJoin]
    rfl
  | .leftJoinEnter h hrest => by
    refine Eq.trans ?_ hrest.next_eq
    show nextLeftJoin _ _ _ _ none none = nextLeftJoin _ _ _ _ (some _) (some _)
    conv => lhs; rw [nextLeftJoin, h.next_eq]
    rfl
  | .leftJoinEnd h => by
    show nextLeftJoin _ _ _ _ _ _ = _
    rw [nextLeftJoin, h.next_eq]
    rfl
  | .unionEnter hrest => hrest.next_eq
  | .unionFirst h => by
    show nextFirst _ _ _ _ _ = _
    rw [nextFirst, h.next_eq]
    rfl
  | .unionTurn h hrest => by
    refine Eq.trans ?_ hrest.next_eq
    show nextFirst _ _ _ _ _ = nextSecond _ _ _ _
    rw [nextFirst, h.next_eq]
    rfl
  | .unionSecond h => by
    show nextSecond _ _ _ _ = _
    rw [nextSecond, h.next_eq]
    rfl
  | .unionEnd h => by
    show nextSecond _ _ _ _ = _
    rw [nextSecond, h.next_eq]
    rfl
  | .unionOver => rfl
  | @Pulls.sieveItem _ _ m _ _ image r s _ memory _ _ _ h himage => by
    show nextImage m image r s memory = _
    rw [nextImage, h.next_eq]
    dsimp only [answer, Option.elim_some]
    rw [himage]
    rfl
  | @Pulls.sieveSkip _ _ m _ _ image r s s' memory memory' _ _ _ h himage hrest => by
    refine Eq.trans ?_ hrest.next_eq
    show nextImage m image r s memory = nextImage m image r s' memory'
    rw [nextImage, h.next_eq]
    dsimp only [answer, Option.elim_some]
    rw [himage]
  | @Pulls.sieveEnd _ _ m _ _ image r s _ memory h => by
    show nextImage m image r s memory = _
    rw [nextImage, h.next_eq]
    rfl
  | .sortEnter h hrest => by
    refine Eq.trans ?_ hrest.next_eq
    have hdrain := h.drain_eq []
    simp only [Evaluator.sort]
    rw [hdrain]
    rfl
  | .sortItem => rfl
  | .sortEnd => rfl
  | .sliceOver => rfl
  | .sliceItem hmore h => by
    refine (if_neg hmore).trans ?_
    rw [h.skipThenPull_eq]
    rfl
  | .sliceEnd hmore h => by
    refine (if_neg hmore).trans ?_
    rw [h.skipThenPull_eq]
    rfl

theorem Drains.drain_eq {m : Evaluator} {r : Reading} {s : m.State} {rows : List Row} :
    Drains m r s rows → ∀ before, m.drain r s before = .ok (before ++ rows)
  | .nil h, before => by
    rw [drain, h.next_eq]
    exact congrArg Except.ok (List.append_nil before).symm
  | .cons h hrest, before => by
    rw [drain, h.next_eq]
    exact (hrest.drain_eq _).trans (by rw [List.append_assoc]; rfl)

theorem Skips.skipThenPull_eq {m : Evaluator} {r : Reading} {toSkip left : Nat} {s s' : m.State}
    {x? : Option Row} : Skips m r toSkip s x? left s' →
      Cursor.skipThenPull (m.next r) toSkip s = (answer x?, left, s')
  | .last h => by
    rw [Cursor.skipThenPull, h.next_eq]
  | .skip h hrest => by
    rw [Cursor.skipThenPull, h.next_eq]
    exact hrest.skipThenPull_eq
  | .short h => by
    rw [Cursor.skipThenPull, h.next_eq]
    rfl

end

end Evaluator
end QuadStore
