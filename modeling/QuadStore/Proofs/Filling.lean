import QuadStore.Proofs.Showing

/-!
# Slots filled from quads

A quad pattern is looked up by the numbers of its terms, and a free variable takes the term of a
number into its slot. Over a readable store this gives tuples that show the rows of the pattern:
`QuadPattern.shows_plan`.
-/

namespace List

variable {α β γ : Type} {R : β → γ → Prop}

theorem forall₂_filterMap_same {f : α → Option β} {g : α → Option γ} {l : List α}
    (h : ∀ a ∈ l, Option.Rel R (f a) (g a)) : Forall₂ R (l.filterMap f) (l.filterMap g) := by
  induction l with
  | nil => exact .nil
  | cons a l ih =>
    have hhead := h a mem_cons_self
    have htail := ih fun x hx => h x (mem_cons_of_mem _ hx)
    rw [filterMap_cons, filterMap_cons]
    generalize f a = x, g a = y at hhead
    cases hhead with
    | none => exact htail
    | some hxy => exact .cons hxy htail

end List

namespace QuadStore

variable {pl : Planner} {slots slots' : Slots} {t u : Tuple} {row r : Row} {s : Sought}
  {n : TermId} {x : Term}

/-! ## What is sought -/

/-- A position is sought by the number of its term, or it is a variable whose slot is free. -/
theorem Position.sought?_cases {α : Type} (toTerm : α → Term) (p : Position α)
    (hp : (p.selector pl toTerm slots).2 <+: slots') (ht : t.Shows pl slots' row) :
    (∃ x, p.wanted? row toTerm = some x ∧ (p.selector pl toTerm slots).1.sought? pl t =
        (pl.dictionary.lookup? x).map fun id => ⟨some id, none⟩) ∨
      ∃ v slot, p = .var v ∧ slots'.idxOf? v = some slot ∧ row.get? v = none ∧
        t.get? slot = none ∧ (p.selector pl toTerm slots).1.sought? pl t =
          some ⟨none, some slot⟩ := by
  cases p with
  | given a =>
    refine .inl ⟨toTerm a, rfl, ?_⟩
    show (pl.number? (pl.constant (toTerm a))).map _ = _
    rw [pl.number?_eq (pl.shows_constant _).labeled]
    rfl
  | var v =>
    have hslot := Slots.idxOf?_of_place hp
    have hrel := ht.rel_get? hslot
    show (∃ x, (row.get? v).map (·.term) = some x ∧ Selector.sought? pl t (.slot _) = _) ∨ _
    unfold Selector.sought?
    dsimp only
    cases hc : t.get? (slots.place v).1 with
    | some c =>
      rw [hc] at hrel
      have hdatum := Cell.map_datum_eq hrel
      refine .inl ⟨c.datum.term, by rw [← hdatum]; rfl, ?_⟩
      dsimp only
      rw [pl.number?_eq (ht.labeled _ c hc)]
    | none =>
      refine .inr ⟨v, _, rfl, hslot, (ht.get?_eq_none_iff hslot).1 hc, hc, ?_⟩
      show Selector.sought? pl t (.slot _) = _
      unfold Selector.sought?
      dsimp only
      rw [hc]

/-- What is sought has the number of the term that the position has to be. -/
theorem Position.map_id?_sought? {α : Type} (toTerm : α → Term) (p : Position α)
    (hp : (p.selector pl toTerm slots).2 <+: slots') (ht : t.Shows pl slots' row) :
    ((p.selector pl toTerm slots).1.sought? pl t).map (·.id?) =
      View.encodeTerm? pl.dictionary (p.wanted? row toTerm) := by
  rcases p.sought?_cases toTerm hp ht with ⟨x, hx, hs⟩ | ⟨v, slot, rfl, -, hrow, -, hs⟩
  · rw [hs, hx, Option.map_map]
    rfl
  · rw [hs]
    show _ = View.encodeTerm? _ ((row.get? v).map (·.term))
    rw [hrow]
    rfl

theorem GraphPosition.map_id?_sought? {p : GraphPosition}
    (hp : (p.selector pl slots).2 <+: slots') (ht : t.Shows pl slots' row) :
    ((p.selector pl slots).1.sought? pl t).map (·.id?) =
      View.graphNumber? pl.dictionary (p.shape row) := by
  cases p with
  | any | default => rfl
  | given name =>
    exact Position.map_id?_sought? id (.given name.toTerm) hp ht
  | var v =>
    have hvar := Position.map_id?_sought? id (.var v) hp ht
    refine hvar.trans ?_
    unfold Position.wanted? shape
    dsimp only
    cases row.get? v <;> rfl

/-! ## Filling -/

/-- A tuple that is filled step by step: it shows a row that extends the first one, and what it has
been filled with has numbers. -/
structure Tuple.Filled (pl : Planner) (slots : Slots) (t : Tuple) (row : Row) (u : Tuple)
    (r : Row) : Prop where
  shows : u.Shows pl slots r
  keeps : r.Extends row
  numbered : ∀ i c, t.get? i = none → u.get? i = some c → c.id? ≠ none

/-- A slot is filled by binding it, as numbers tell terms apart. -/
theorem Planner.fill?_eq_bindAny? {slot : Nat}
    (hnumbered : ∀ c, u.get? slot = some c → c.id? ≠ none)
    (hx : pl.dictionary.resolve n = .ok x) :
    pl.fill? u (some slot) n = u.bindAny? slot (some ⟨.ofTerm x, some n⟩) := by
  unfold fill? Tuple.bindAny? Tuple.bind?
  dsimp only
  cases hc : u.get? slot with
  | none => rw [pl.resolve?_eq hx, Option.map_some]
  | some c =>
    obtain ⟨m, hm⟩ := Option.ne_none_iff_exists'.1 (hnumbered c hc)
    unfold Cell.same
    dsimp only
    rw [hm]
    simp

theorem Tuple.Filled.fill? (h : Filled pl slots t row u r) {v : Variable} {slot : Nat}
    (hslot : slots.idxOf? v = some slot) (hfree : t.get? slot = none)
    (hx : pl.dictionary.resolve n = .ok x) :
    Option.Rel (Filled pl slots t row) (pl.fill? u (some slot) n) (r.bindAny? v (some (.ofTerm x)))
    := by
  have hcell : Cell.Shows pl.dictionary ⟨.ofTerm x, some n⟩ (.ofTerm x) :=
    ⟨fun m hm => Option.some.inj hm ▸ hx, rfl⟩
  rw [Planner.fill?_eq_bindAny? (fun c hc => h.numbered slot c hfree hc) hx]
  refine (h.shows.bindAny? hslot (.some hcell)).and_eq.imp fun u' r' ⟨hshows, hu', hr'⟩ => ?_
  refine ⟨hshows, (Row.extends_of_bindAny? hr').trans h.keeps, fun i c hi hc => ?_⟩
  rw [get?_of_bindAny? hu'] at hc
  split at hc
  · rcases Option.or_eq_some_iff.1 hc with hc | ⟨-, hc⟩
    · exact h.numbered slot c hfree hc
    · rw [← Option.some.inj hc]
      exact Option.some_ne_none n
  · exact h.numbered i c hi hc

/-- A position that has been sought is filled as the row is bound, by a number that has been asked
for. -/
theorem Position.rel_fill? {α : Type} (toTerm : α → Term) (p : Position α)
    (hp : (p.selector pl toTerm slots).2 <+: slots') (ht : t.Shows pl slots' row)
    (hs : (p.selector pl toTerm slots).1.sought? pl t = some s)
    (hid : ∀ m, s.id? = some m → m = n) (hx : pl.dictionary.resolve n = .ok x)
    (h : t.Filled pl slots' row u r) :
    Option.Rel (t.Filled pl slots' row) (pl.fill? u s.output? n) (p.bind? r x) := by
  rcases p.sought?_cases toTerm hp ht with
    ⟨y, hy, hsought⟩ | ⟨v, slot, rfl, hslot, -, hfree, hsought⟩
  · rw [hs] at hsought
    obtain ⟨m, hn, rfl⟩ := Option.map_eq_some_iff.1 hsought.symm
    obtain rfl := hid m rfl
    rw [Dictionary.lookup?_eq_some_iff, hx] at hn
    obtain rfl := Except.ok.inj hn
    have hbound : p.bind? r x = some r := by
      cases p with
      | given a => rfl
      | var v =>
        obtain ⟨d, hd, rfl⟩ := Option.map_eq_some_iff.1 hy
        show r.bindAny? v (some (.ofTerm d.term)) = some r
        refine Row.bindAny?_of_same fun e he => ⟨d, h.keeps v d hd, ?_⟩
        rw [← Option.some.inj he]
        exact beq_self_eq_true d.term
    rw [hbound]
    exact .some h
  · rw [hs] at hsought
    obtain rfl := Option.some.inj hsought
    exact h.fill? hslot hfree hx

/-- The variable of a graph is not filled with the default graph. -/
theorem GraphPosition.rel_fill? {p : GraphPosition} {g : GraphName}
    (hp : (p.selector pl slots).2 <+: slots') (ht : t.Shows pl slots' row)
    (hs : (p.selector pl slots).1.sought? pl t = some s)
    (hid : ∀ m, s.id? = some m → m = n) (hg : pl.dictionary.resolveGraph n = .ok g)
    (hnamed : s.output? ≠ none → g ≠ .default) (h : t.Filled pl slots' row u r) :
    Option.Rel (t.Filled pl slots' row) (pl.fill? u s.output? n) (p.bind? r g) := by
  cases p with
  | any | default =>
    obtain rfl := Option.some.inj hs
    exact .some h
  | given name =>
    obtain ⟨m, -, rfl⟩ := Option.map_eq_some_iff.1 hs
    exact .some h
  | var v =>
    have hgraph := Dictionary.lookupGraph?_eq_some_iff.2 hg
    cases hterm : g.toTerm? with
    | some x =>
      unfold Dictionary.lookupGraph? at hgraph
      rw [hterm] at hgraph
      have hbind : (var v).bind? r g = (Position.var v : Position Term).bind? r x := by
        show g.toTerm?.bind _ = _
        rw [hterm]
        rfl
      rw [hbind]
      exact Position.rel_fill? id (.var v) hp ht hs hid
        (Dictionary.lookup?_eq_some_iff.1 hgraph) h
    | none =>
      obtain rfl : g = .default := by
        cases g with
        | default => rfl
        | iri _ | blank _ => cases hterm
      obtain rfl := Option.some.inj hgraph
      have hvar : (Position.selector pl id slots (.var v : Position Term)).1.sought? pl t =
          some s := hs
      rcases Position.sought?_cases id (.var v) hp ht with
        ⟨y, -, hsought⟩ | ⟨w, slot, -, -, -, -, hsought⟩
      · -- the number of the default graph is no term's
        rw [hvar] at hsought
        obtain ⟨m, hn, rfl⟩ := Option.map_eq_some_iff.1 hsought.symm
        obtain rfl := hid m rfl
        exact absurd (Dictionary.lookup?_eq_some_iff.1 hn)
          (Dictionary.resolve_defaultGraph _ _)
      · rw [hvar] at hsought
        obtain rfl := Option.some.inj hsought
        exact absurd rfl (hnamed (Option.some_ne_none slot))

/-! ## Quad patterns -/

variable {p : QuadPattern}

/-- What a quad pattern looks up is the encoded shape of its quads in the row. -/
theorem QuadPattern.map_shape_sought? (hp : (p.selector pl slots).2 <+: slots')
    (ht : t.Shows pl slots' row) :
    ((p.selector pl slots).1.sought? pl t).map (·.shape) =
      View.encodeShape? pl.dictionary (p.shape row) := by
  obtain ⟨-, hr, ho, hg⟩ := p.prefix_selectors pl slots
  have hsubject := p.subject.map_id?_sought? id (((hr.trans ho).trans hg).trans hp) ht
  have hpredicate := p.predicate.map_id?_sought? .iri ((ho.trans hg).trans hp) ht
  have hobject := p.object.map_id?_sought? id (hg.trans hp) ht
  have hgraph := GraphPosition.map_id?_sought? (p := p.graph) hp ht
  unfold shape
  rw [View.encodeShape?_eq_bind, ← hgraph]
  unfold View.shapeOf?
  rw [← hsubject, ← hpredicate, ← hobject]
  unfold QuadSelector.sought? selector
  cases (p.subject.selector pl id slots).1.sought? pl t with
  | none => rfl
  | some s =>
    cases (p.predicate.selector pl .iri _).1.sought? pl t with
    | none => rfl
    | some r =>
      cases (p.object.selector pl id _).1.sought? pl t with
      | none => rfl
      | some o =>
        dsimp only
        cases (p.graph.selector pl _).1.sought? pl t <;> rfl

/-- A quad that has been looked up extends a tuple as it extends the row. -/
theorem QuadPattern.rel_fill? (hp : (p.selector pl slots).2 <+: slots')
    (ht : t.Shows pl slots' row) {sought : QuadSought}
    (hsought : (p.selector pl slots).1.sought? pl t = some sought) {e : EncodedQuad} {q : Quad}
    (hcovers : sought.shape.covers e = true) (hq : pl.dictionary.resolveQuad e = .ok q) :
    Option.Rel (Tuple.Shows pl slots') (sought.fill? pl t e) (p.bind? row q) := by
  obtain ⟨-, hr, ho, hg⟩ := p.prefix_selectors pl slots
  obtain ⟨hsubject, hpredicate, hobject, hgraph⟩ := QuadSelector.sought?_eq_some hsought
  obtain ⟨hqs, hqp, hqo, hqg⟩ := Dictionary.resolveQuad_eq_ok_iff.1 hq
  have hpart : ∀ role m, sought.shape.part? role = some m → m = e.part role := fun role m hm =>
    (EncodedShape.covers_eq_true_iff.1 hcovers role m hm).symm
  have hdefault : e.graph = .defaultGraph ↔ q.graph = .default := by
    constructor
    · intro h
      rw [h] at hqg
      exact (Except.ok.inj hqg).symm
    · intro h
      have hnumber := Dictionary.lookupGraph?_eq_some_iff.2 hqg
      rw [h] at hnumber
      exact (Option.some.inj hnumber).symm
  have hstart : t.Filled pl slots' row t row :=
    ⟨ht, .refl row, fun i c hi hc => by rw [hi] at hc; cases hc⟩
  unfold QuadSought.fill? bind?
  split
  · -- a variable of the graph stands for no default graph
    rename_i hguard
    obtain ⟨houtput, hnumber⟩ := Bool.and_eq_true_iff.1 hguard
    obtain ⟨slot, hslot⟩ := Option.isSome_iff_exists.1 houtput
    obtain ⟨v, hv, -⟩ := GraphPosition.exists_of_selector_eq_slot
      (Selector.eq_slot_of_sought? hgraph hslot)
    have hfails : ∀ r : Row, p.graph.bind? r q.graph = none := by
      intro r
      rw [hdefault.1 (eq_of_beq hnumber)]
      cases hgraph : p.graph with
      | var w => rfl
      | any | default | given _ =>
        rw [hgraph] at hv
        cases hv
    simp [hfails]
  · rename_i hnamed
    refine Option.Rel.imp ?_ fun u r (h : t.Filled pl slots' row u r) => h.shows
    refine (p.subject.rel_fill? id (((hr.trans ho).trans hg).trans hp) ht hsubject (hpart .subject)
      hqs hstart).bind fun a a' ha => ?_
    refine (p.predicate.rel_fill? .iri ((ho.trans hg).trans hp) ht hpredicate (hpart .predicate)
      hqp ha).bind fun b b' hb => ?_
    refine (p.object.rel_fill? id (hg.trans hp) ht hobject (hpart .object) hqo hb).bind
      fun c c' hc => ?_
    refine GraphPosition.rel_fill? hp ht hgraph (hpart .graph) hqg (fun hfree hg => ?_) hc
    -- the slot is free and the graph is not the default one
    refine hnamed (Bool.and_eq_true_iff.2 ⟨Option.isSome_iff_ne_none.2 hfree, ?_⟩)
    exact beq_iff_eq.2 (hdefault.2 hg)

/-- The tuples of a quad pattern show its rows. -/
theorem QuadPattern.shows_plan (hr : pl.reading.view.store.Readable) (p : QuadPattern)
    (hp : (p.plan pl slots).slots <+: slots') (ht : t.Shows pl slots' row) :
    List.Forall₂ (Tuple.Shows pl slots') ((p.plan pl slots).run t)
      (p.rows pl.reading.dataset row) := by
  show List.Forall₂ _ _ ((pl.reading.view.matching pl.reading.inferred (p.shape row)).filterMap _)
  rcases p.plan_cases pl slots with ⟨l, hl, hplan⟩ | hplan
  · -- no quad has a literal as its subject
    have hnone : pl.reading.view.matching pl.reading.inferred (p.shape row) = [] := by
      rw [View.matching_eq .empty hr, Content.asked, List.map_eq_nil_iff, List.filter_eq_nil_iff]
      intro st _ hcovers
      have hsubject : (p.shape row).subject? = some (.literal l) := by
        unfold shape
        rw [hl]
        rfl
      unfold QuadShape.covers at hcovers
      rw [hsubject] at hcovers
      cases hst : st.quad.subject <;> simp [hst, Resource.toTerm] at hcovers
    rw [hplan, hnone]
    exact .nil
  · rw [hplan] at hp ⊢
    have hshape := map_shape_sought? hp ht
    unfold View.matching QuadSelector.tuples
    rw [show View.encodeShape? pl.reading.view.store.dictionary (p.shape row) = _ from hshape.symm]
    dsimp only
    cases hsought : (p.selector pl slots).1.sought? pl t with
    | none => exact .nil
    | some sought =>
      rw [Option.map_some]
      dsimp only
      rw [List.filterMap_filterMap]
      refine List.forall₂_filterMap_same fun e he => ?_
      rw [View.search_eq hr] at he
      obtain ⟨hvisible, hcovers⟩ := List.mem_filter.1 he
      obtain ⟨q, hq⟩ := hr.known e (View.mem_visible.1 hvisible).1
      rw [hq]
      exact rel_fill? hp ht hsought (Bool.and_eq_true_iff.1 hcovers).2 hq

end QuadStore
