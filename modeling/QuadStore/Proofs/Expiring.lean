import QuadStore.Proofs.Contents
import QuadStore.Proofs.Pulling

/-!
# Evaluations over changing stores

An evaluation that is pulled bit by bit may read another store at each pull. As long as every entry
of these stores stands for a quad, no pull fails, and only finitely many give a row, whatever the
stores otherwise have to do with each other: `GraphPattern.expires_evaluator`.
-/

namespace QuadStore

/-! ## Look-ups -/

namespace Index

variable {index : Index} {scan : Scan} {e : Entry}

/-- A look-up that finds an entry has fewer entries to look at afterwards. -/
theorem length_of_nextAmong {ids rest : List EntryId}
    (h : index.nextAmong scan ids = some (e, rest)) :
    e ∈ index.entries ∧ rest.length < ids.length := by
  induction ids with
  | nil => exact absurd h (Option.some_ne_none _).symm
  | cons id others ih =>
    unfold nextAmong at h
    have hskip : index.nextAmong scan others = some (e, rest) →
        e ∈ index.entries ∧ rest.length < (id :: others).length := fun hothers =>
      ⟨(ih hothers).1, Nat.lt_succ_of_lt (ih hothers).2⟩
    split at h
    · rename_i found hget
      split at h
      · obtain ⟨rfl, rfl⟩ := Prod.mk.inj (Option.some.inj h)
        exact ⟨mem_of_get? hget, Nat.lt_succ_self _⟩
      · exact hskip h
    · exact hskip h

theorem length_of_next? {after : Scan} (h : index.next? scan = some (e, after)) :
    e ∈ index.entries ∧ after.rest.length < scan.rest.length := by
  obtain ⟨⟨found, rest⟩, hnext, heq⟩ := Option.map_eq_some_iff.1 h
  obtain ⟨rfl, rfl⟩ := Prod.mk.inj heq
  exact length_of_nextAmong hnext

end Index

namespace Evaluator

variable {m left right : Evaluator} {r : Reading}

/-! ## Pulls -/

theorem answer_inj {x? y? : Option Row} (h : answer x? = answer y?) : x? = y? := by
  cases x? <;> cases y? <;> simp_all [answer]

/-- A pull has one end. -/
theorem Pulls.unique {s s' t : m.State} {x? y? : Option Row} (h : m.Pulls r s x? s')
    (h' : m.Pulls r s y? t) : x? = y? ∧ s' = t := by
  obtain ⟨hanswer, hstate⟩ := Prod.mk.inj (h.next_eq.symm.trans h'.next_eq)
  exact ⟨answer_inj hanswer, hstate⟩

/-- From a state, each pull ends without an error, whatever readable store it reads, and after
finitely many rows there is none. -/
inductive Expires (m : Evaluator) : m.State → Prop
  | intro {s : m.State} :
      (∀ r : Reading, r.view.store.Readable → ∃ x? s', m.Pulls r s x? s') →
      (∀ (r : Reading) (x : Row) (s' : m.State), r.view.store.Readable →
        m.Pulls r s (some x) s' → m.Expires s') →
      m.Expires s

namespace Expires

theorem of_pull {s : m.State} (h : ∀ r : Reading, r.view.store.Readable →
    ∃ x? s', m.Pulls r s x? s' ∧ (x? ≠ none → m.Expires s')) : m.Expires s := by
  refine .intro (fun r hr => ?_) fun r x s' hr hpull => ?_
  · obtain ⟨x?, s', hpull, -⟩ := h r hr
    exact ⟨x?, s', hpull⟩
  · obtain ⟨y?, t, hknown, hrest⟩ := h r hr
    obtain ⟨rfl, rfl⟩ := hpull.unique hknown
    exact hrest (Option.some_ne_none x)

theorem pull {s : m.State} (h : m.Expires s) (hr : r.view.store.Readable) :
    ∃ x? s', m.Pulls r s x? s' ∧ (x? ≠ none → m.Expires s') := by
  obtain ⟨hends, hmore⟩ := h
  obtain ⟨x?, s', hpull⟩ := hends r hr
  refine ⟨x?, s', hpull, fun hrow => ?_⟩
  obtain ⟨x, rfl⟩ := Option.ne_none_iff_exists'.1 hrow
  exact hmore r x s' hr hpull

/-- A turn of a loop leads from one state to another. -/
theorem pull_of_turn {s t : m.State} (h : m.Expires t) (hr : r.view.store.Readable)
    (hturn : ∀ x? s', m.Pulls r t x? s' → m.Pulls r s x? s') :
    ∃ x? s', m.Pulls r s x? s' ∧ (x? ≠ none → m.Expires s') := by
  obtain ⟨x?, s', hpull, hrest⟩ := h.pull hr
  exact ⟨x?, s', hturn _ _ hpull, hrest⟩

end Expires

/-- Whatever is read when it begins, an evaluation comes to its end. -/
def AlwaysExpires (m : Evaluator) : Prop :=
  ∀ r : Reading, r.view.store.Readable → ∀ row, m.Expires (m.start r row)

/-! ## Quads -/

/-- Each turn leaves fewer entries to look at. -/
theorem expires_scan (p : QuadPattern) (row : Row) (scan : Index.Scan) :
    (quad p).Expires (some (row, scan)) := by
  refine .of_pull fun r hr => ?_
  cases hnext : r.view.store.index.next? scan with
  | none => exact ⟨none, none, .quadEnd hnext, fun hrow => absurd rfl hrow⟩
  | some found =>
    obtain ⟨e, after⟩ := found
    obtain ⟨hmem, hshorter⟩ := Index.length_of_next? hnext
    obtain ⟨q, hq⟩ := hr.known e hmem
    have hafter := expires_scan p row after
    -- an entry that does not fit the row is passed over in the same pull
    cases hbind : p.bind? row q with
    | some x => exact ⟨some x, some (row, after), .quadItem hnext hq hbind, fun _ => hafter⟩
    | none => exact hafter.pull_of_turn hr fun _ _ => .quadSkip hnext hq hbind
  termination_by scan.rest.length

theorem alwaysExpires_quad (p : QuadPattern) : (quad p).AlwaysExpires := by
  intro r hr row
  show (quad p).Expires ((View.encodeShape? r.view.store.dictionary (p.shape row)).map _)
  cases View.encodeShape? r.view.store.dictionary (p.shape row) with
  | none => exact .of_pull fun r _ => ⟨none, none, .quadOver, fun hrow => absurd rfl hrow⟩
  | some encoded => exact expires_scan p row _

/-! ## Joins -/

theorem Expires.join_right {l : left.State} (hleft : (join left right).Expires ⟨l, none⟩)
    {s : right.State} (h : right.Expires s) : (join left right).Expires ⟨l, some s⟩ := by
  induction h with
  | @intro s hends _ ih =>
    refine .of_pull fun r hr => ?_
    obtain ⟨x?, s', hpull⟩ := hends r hr
    cases x? with
    | none => exact hleft.pull_of_turn hr fun _ _ => .joinTurn hpull
    | some x => exact ⟨some x, ⟨l, some s'⟩, .joinItem hpull, fun _ => ih r x s' hr hpull⟩

theorem Expires.join_left (hright : right.AlwaysExpires) {l : left.State} (h : left.Expires l) :
    (join left right).Expires ⟨l, none⟩ := by
  -- the rows of the left side come to an end, and what the right side makes of each does
  induction h with
  | @intro l hends _ ih =>
    refine .of_pull fun r hr => ?_
    obtain ⟨x?, l', hpull⟩ := hends r hr
    cases x? with
    | none => exact ⟨none, ⟨l', none⟩, .joinEnd hpull, fun hrow => absurd rfl hrow⟩
    | some x =>
      have hentered := (ih r x l' hr hpull).join_right (hright r hr x)
      exact hentered.pull_of_turn hr fun _ _ => .joinEnter hpull

theorem AlwaysExpires.join (hleft : left.AlwaysExpires) (hright : right.AlwaysExpires) :
    (join left right).AlwaysExpires :=
  fun r hr row => .join_left hright (hleft r hr row)

/-- The row that is held back comes after what extends it, if nothing does. -/
theorem Expires.leftJoin_right {l : left.State}
    (hleft : (leftJoin left right).Expires ⟨l, none, none⟩) {s : right.State}
    (h : right.Expires s) (held? : Option Row) :
    (leftJoin left right).Expires ⟨l, some s, held?⟩ := by
  induction h generalizing held? with
  | @intro s hends _ ih =>
    refine .of_pull fun r hr => ?_
    obtain ⟨x?, s', hpull⟩ := hends r hr
    cases x? with
    | none =>
      -- the row on the left is still held back if nothing has extended it
      cases held? with
      | none => exact hleft.pull_of_turn hr fun _ _ => .leftJoinTurn hpull
      | some row =>
        exact ⟨some row, ⟨l, none, none⟩, .leftJoinTurn hpull .leftJoinHeld, fun _ => hleft⟩
    | some x =>
      exact ⟨some x, ⟨l, some s', none⟩, .leftJoinItem hpull, fun _ => ih r x s' hr hpull none⟩

theorem Expires.leftJoin_left (hright : right.AlwaysExpires) {l : left.State}
    (h : left.Expires l) : (leftJoin left right).Expires ⟨l, none, none⟩ := by
  induction h with
  | @intro l hends _ ih =>
    refine .of_pull fun r hr => ?_
    obtain ⟨x?, l', hpull⟩ := hends r hr
    cases x? with
    | none => exact ⟨none, ⟨l', none, none⟩, .leftJoinEnd hpull, fun hrow => absurd rfl hrow⟩
    | some x =>
      have hentered := (ih r x l' hr hpull).leftJoin_right (hright r hr x) (some x)
      exact hentered.pull_of_turn hr fun _ _ => .leftJoinEnter hpull

theorem AlwaysExpires.leftJoin (hleft : left.AlwaysExpires) (hright : right.AlwaysExpires) :
    (leftJoin left right).AlwaysExpires :=
  fun r hr row => .leftJoin_left hright (hleft r hr row)

/-! ## Unions -/

theorem Expires.union_second {s : right.State} (h : right.Expires s) :
    (union left right).Expires (.second s) := by
  induction h with
  | @intro s hends _ ih =>
    refine .of_pull fun r hr => ?_
    obtain ⟨x?, s', hpull⟩ := hends r hr
    cases x? with
    | none => exact ⟨none, .over, .unionEnd hpull, fun hrow => absurd rfl hrow⟩
    | some x => exact ⟨some x, .second s', .unionSecond hpull, fun _ => ih r x s' hr hpull⟩

theorem Expires.union_first (hright : right.AlwaysExpires) (row : Row) {l : left.State}
    (h : left.Expires l) : (union left right).Expires (.first l row) := by
  induction h with
  | @intro l hends _ ih =>
    refine .of_pull fun r hr => ?_
    obtain ⟨x?, l', hpull⟩ := hends r hr
    cases x? with
    | none => exact (hright r hr row).union_second.pull_of_turn hr fun _ _ => .unionTurn hpull
    | some x => exact ⟨some x, .first l' row, .unionFirst hpull, fun _ => ih r x l' hr hpull⟩

theorem AlwaysExpires.union (hleft : left.AlwaysExpires) (hright : right.AlwaysExpires) :
    (union left right).AlwaysExpires := fun _ _ row => .of_pull fun r hr =>
  (Expires.union_first hright row (hleft r hr row)).pull_of_turn hr fun _ _ => .unionEnter

/-! ## Sieves -/

section Sieve

variable {σ : Type} [Inhabited σ] {enter : Row → Row} {begin : Row → σ}
  {image : Dataset → σ → Row → Option Row × σ}

theorem Expires.sieve {s : m.State} (h : m.Expires s) (memory : σ) :
    (m.sieve enter begin image).Expires (s, memory) := by
  induction h generalizing memory with
  | @intro s hends _ ih =>
    refine .of_pull fun r hr => ?_
    obtain ⟨x?, s', hpull⟩ := hends r hr
    cases x? with
    | none => exact ⟨none, (s', memory), .sieveEnd hpull, fun hrow => absurd rfl hrow⟩
    | some x =>
      obtain ⟨y?, memory', himage⟩ : ∃ y? memory', image r.dataset memory x = (y?, memory') :=
        ⟨_, _, rfl⟩
      have hrest := ih r x s' hr hpull memory'
      cases y? with
      | none => exact hrest.pull_of_turn hr fun _ _ => .sieveSkip hpull himage
      | some y => exact ⟨some y, (s', memory'), .sieveItem hpull himage, fun _ => hrest⟩

theorem AlwaysExpires.sieve (h : m.AlwaysExpires) : (m.sieve enter begin image).AlwaysExpires :=
  fun r hr row => (h r hr (enter row)).sieve (begin row)

end Sieve

/-! ## Orders and slices -/

theorem Expires.exists_drains {s : m.State} (h : m.Expires s) (hr : r.view.store.Readable) :
    ∃ rows, m.Drains r s rows := by
  induction h with
  | @intro s hends _ ih =>
    obtain ⟨x?, s', hpull⟩ := hends r hr
    cases x? with
    | none => exact ⟨[], .nil hpull⟩
    | some x =>
      obtain ⟨rows, hrows⟩ := ih r x s' hr hpull
      exact ⟨x :: rows, .cons hpull hrows⟩

theorem expires_sorted (order : Dataset → List Row → List Row) (rows : List Row) :
    (m.sort order).Expires (.sorted rows) := by
  induction rows with
  | nil => exact .of_pull fun r _ => ⟨none, .sorted [], .sortEnd, fun hrow => absurd rfl hrow⟩
  | cons row rows ih => exact .of_pull fun r _ => ⟨some row, .sorted rows, .sortItem, fun _ => ih⟩

theorem AlwaysExpires.sort (h : m.AlwaysExpires) (order : Dataset → List Row → List Row) :
    (m.sort order).AlwaysExpires := fun r hr row => .of_pull fun r' hr' => by
  -- the first pull takes all rows, and reads one store for them
  obtain ⟨rows, hrows⟩ := (h r hr row).exists_drains hr'
  exact (expires_sorted order _).pull_of_turn hr' fun _ _ => .sortEnter hrows

/-- Rows can be left out as long as there are any. -/
theorem Expires.skips {s : m.State} (h : m.Expires s) (hr : r.view.store.Readable)
    (toSkip : Nat) :
    ∃ x? left s', m.Skips r toSkip s x? left s' ∧ (x? ≠ none → left = 0 ∧ m.Expires s') := by
  induction toSkip generalizing s with
  | zero =>
    obtain ⟨x?, s', hpull, hrest⟩ := h.pull hr
    exact ⟨x?, 0, s', .last hpull, fun hrow => ⟨rfl, hrest hrow⟩⟩
  | succ toSkip ih =>
    obtain ⟨x?, s', hpull, hrest⟩ := h.pull hr
    cases x? with
    | none => exact ⟨none, toSkip + 1, s', .short hpull, fun hrow => absurd rfl hrow⟩
    | some x =>
      obtain ⟨y?, left, t, hskips, ht⟩ := ih (hrest (Option.some_ne_none x))
      exact ⟨y?, left, t, .skip hpull hskips, ht⟩

section Slice

variable {start : Nat} {length? : Option Nat}

theorem expires_slice_over (s : m.State) (toSkip : Nat) :
    (m.slice start length?).Expires ⟨s, toSkip, some 0⟩ :=
  .of_pull fun _ _ => ⟨none, _, .sliceOver, fun hrow => absurd rfl hrow⟩

/-- After a row, the slice is closed or goes on with one row less. -/
theorem expires_slice_rest {s : m.State} {remaining? : Option Nat}
    (h : (m.slice start length?).Expires ⟨s, 0, remaining?⟩) :
    (m.slice start length?).Expires
      ⟨if remaining? = some 0 then m.closed else s, 0, remaining?⟩ := by
  split
  · rename_i hlast
    rw [hlast]
    exact expires_slice_over m.closed 0
  · exact h

theorem Expires.slice_rows {s : m.State} (h : m.Expires s) (remaining? : Option Nat) :
    (m.slice start length?).Expires ⟨s, 0, remaining?⟩ := by
  induction h generalizing remaining? with
  | @intro s hends _ ih =>
    by_cases hmore : remaining? = some 0
    · rw [hmore]
      exact expires_slice_over s 0
    · refine .of_pull fun r hr => ?_
      obtain ⟨x?, s', hpull⟩ := hends r hr
      cases x? with
      | none =>
        exact ⟨none, ⟨s', 0, remaining?⟩, .sliceEnd hmore (.last hpull),
          fun hrow => absurd rfl hrow⟩
      | some x =>
        exact ⟨some x, _, .sliceItem hmore (.last hpull),
          fun _ => expires_slice_rest (ih r x s' hr hpull _)⟩

theorem Expires.slice {s : m.State} (h : m.Expires s) (toSkip : Nat) (remaining? : Option Nat) :
    (m.slice start length?).Expires ⟨s, toSkip, remaining?⟩ := by
  by_cases hmore : remaining? = some 0
  · rw [hmore]
    exact expires_slice_over s toSkip
  · refine .of_pull fun r hr => ?_
    obtain ⟨x?, left, s', hskips, hrest⟩ := h.skips hr toSkip
    cases x? with
    | none =>
      exact ⟨none, ⟨s', left, remaining?⟩, .sliceEnd hmore hskips, fun hrow => absurd rfl hrow⟩
    | some x =>
      obtain ⟨rfl, hs'⟩ := hrest (Option.some_ne_none x)
      exact ⟨some x, _, .sliceItem hmore hskips, fun _ => expires_slice_rest (hs'.slice_rows _)⟩

theorem AlwaysExpires.slice (h : m.AlwaysExpires) (start : Nat) (length? : Option Nat) :
    (m.slice start length?).AlwaysExpires :=
  fun r hr row => (h r hr row).slice start length?

end Slice

end Evaluator

/-! ## Patterns -/

/-- Over whatever readable stores a pattern is evaluated, no pull fails, and the rows come to an
end. -/
theorem GraphPattern.expires_evaluator : ∀ p : GraphPattern, p.evaluator.AlwaysExpires
  | quad pattern => Evaluator.alwaysExpires_quad pattern
  | join left right => left.expires_evaluator.join right.expires_evaluator
  | leftJoin left right _ => left.expires_evaluator.leftJoin right.expires_evaluator.sieve
  | filter _ inner => inner.expires_evaluator.sieve
  | union left right => left.expires_evaluator.union right.expires_evaluator
  | extend inner _ _ => inner.expires_evaluator.sieve
  | distinct inner => inner.expires_evaluator.sieve
  | orderBy inner _ => inner.expires_evaluator.sort _
  | slice inner start length? => inner.expires_evaluator.slice start length?
  | project inner _ => inner.expires_evaluator.sieve

end QuadStore
