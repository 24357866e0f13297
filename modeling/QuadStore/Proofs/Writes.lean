import QuadStore.Proofs.Publishing

/-!
# Writes

What a transaction writes, as changes of a list of quads: an inserted quad comes last, unless it is
there, and the removed ones are filtered out. `Transaction.stage_eq` says that a transaction answers
every write as its content does and shows the content that comes of it.
-/

namespace QuadStore

namespace Content

/-- Appends a quad, unless it is there. An explicit quad takes the place of an inferred one. -/
def insert (c : Content) (q : Quad) (explicit : Bool) : Bool × Content :=
  match c.statements.find? (·.quad == q) with
  | none => (true, { c with statements := c.statements ++ [⟨q, explicit⟩] })
  | some st =>
    if st.explicit || !explicit then (false, c)
    else (true, { c with statements :=
      (c.statements.filter fun st => st.quad != q) ++ [⟨q, explicit⟩] })

/-- Removes a quad that is there and is explicit or inferred as asked. -/
def remove (c : Content) (q : Quad) (explicit : Bool) : Bool × Content :=
  (c.statements.contains ⟨q, explicit⟩,
    { c with statements := c.statements.filter (· != ⟨q, explicit⟩) })

/-- What is not there is not removed. -/
theorem remove_of_not_mem {c : Content} {q : Quad} {explicit : Bool}
    (h : ⟨q, explicit⟩ ∉ c.statements) : c.remove q explicit = (false, c) := by
  have hfilter : c.statements.filter (· != ⟨q, explicit⟩) = c.statements := by
    rw [List.filter_eq_self]
    rintro st hst
    rw [bne_iff_ne]
    rintro rfl
    exact h hst
  have hcontains : c.statements.contains ⟨q, explicit⟩ = false := by
    simpa using h
  unfold remove
  rw [hfilter, hcontains]

/-- Whether a quad is one of those that a removal is about. -/
def isAsked (q : QuadQuery) (explicit : Bool) (st : Statement) : Bool :=
  st.explicit == explicit && q.shapes.any (·.covers st.quad)

/-- Removes the explicit or the inferred quads asked for. -/
def removeMatching (c : Content) (q : QuadQuery) (explicit : Bool) : Nat × Content :=
  (c.statements.countP (isAsked q explicit),
    { c with statements := c.statements.filter fun st => !isAsked q explicit st })

/-- The answer to a write, and the content after it. -/
def write (c : Content) : Write → Answer × Content
  | .insert q explicit => (.flag (c.insert q explicit).1, (c.insert q explicit).2)
  | .remove q => (.flag (c.remove q true).1, (c.remove q true).2)
  | .removeMatching q explicit =>
    (.number (c.removeMatching q explicit).1, (c.removeMatching q explicit).2)
  | .clear contexts =>
    (.number (c.removeMatching { contexts := contexts } true).1,
      (c.removeMatching { contexts := contexts } true).2)
  | .changeNamespaces change => (.done, { c with namespaces := c.namespaces.apply change })

end Content

namespace Transaction

variable {t : Transaction}

/-- What a transaction shows. -/
def content (t : Transaction) : Content := t.view.content t.namespaces

/-! ## Entries and quads -/

/-- A quad that is shown is the quad of one visible entry. -/
theorem mem_statements_iff {st : Statement} :
    st ∈ t.view.statements ↔
      ∃ e ∈ t.view.visible, t.store.dictionary.statement? e = some st :=
  List.mem_filterMap

/-- Two entries that are visible at a stamp and stand for one quad are the same. -/
theorem Sound.eq_of_statement? (h : t.Sound) {stamp : Nat} (hstamp : stamp < Stamp.never)
    {a b : Entry} (ha : a ∈ (t.store.at stamp).visible) (hb : b ∈ (t.store.at stamp).visible)
    {st st' : Statement} (hst : t.store.dictionary.statement? a = some st)
    (hst' : t.store.dictionary.statement? b = some st') (hq : st.quad = st'.quad) : a = b := by
  obtain ⟨hquad, -⟩ := Dictionary.statement?_eq_some_iff.1 hst
  obtain ⟨hquad', -⟩ := Dictionary.statement?_eq_some_iff.1 hst'
  rw [hq] at hquad
  have hmem := View.mem_visible.1 ha
  have hmem' := View.mem_visible.1 hb
  exact h.eq_of_isVisible hstamp hmem.1 hmem'.1
    (Dictionary.resolveQuad_inj hquad hquad') hmem.2 hmem'.2

/-- Removing an entry removes its quad. -/
theorem Sound.statements_stageRemoval (h : t.Sound) {e : Entry} (he : e ∈ t.view.visible)
    {st : Statement} (hst : t.store.dictionary.statement? e = some st) :
    (t.stageRemoval e).view.statements = t.view.statements.filter fun x => x.quad != st.quad := by
  have hdictionary : (t.stageRemoval e).view.store.dictionary = t.store.dictionary :=
    dictionary_stageRemoval t e
  unfold View.statements
  rw [hdictionary, h.visible_stageRemoval he]
  refine List.filterMap_filter_comm ?_
  intro a ha b hb
  rw [Bool.eq_iff_iff, bne_iff_ne, bne_iff_ne, not_iff_not]
  constructor
  · intro hid
    have hmem := (View.mem_visible.1 ha).1
    rw [h.readable.indexed.eq_of_id_eq hmem (View.mem_visible.1 he).1 hid] at hb
    have hb' : t.store.dictionary.statement? e = some b := hb
    rw [Option.some.inj (hb'.symm.trans hst)]
  · intro hq
    rw [h.eq_of_statement? Stamp.pending_lt_never ha he hb hst hq]

/-- Inserting an entry appends its quad. -/
theorem statements_stageInsertion {q : EncodedQuad} {quad : Quad}
    (hq : t.store.dictionary.resolveQuad q = .ok quad) (explicit : Bool) :
    (t.stageInsertion q explicit).view.statements = t.view.statements ++ [⟨quad, explicit⟩] := by
  have hst : t.store.dictionary.statement? (t.store.index.inserted q explicit Stamp.pending) =
      some ⟨quad, explicit⟩ := Dictionary.statement?_eq_some_iff.2 ⟨hq, rfl⟩
  unfold View.statements
  rw [visible_stageInsertion, List.filterMap_append]
  congr 1
  exact List.filterMap_cons_some hst

/-- The live entry of an encoded quad stands for what is found of the quad. -/
theorem Sound.find?_statements (h : t.Sound) {encoded : EncodedQuad} {q : Quad}
    (hq : t.store.dictionary.resolveQuad encoded = .ok q) :
    t.view.statements.find? (·.quad == q) =
      (t.liveEntry? encoded).map fun e => ⟨q, e.explicit⟩ := by
  cases hlive : t.liveEntry? encoded with
  | none =>
    rw [Option.map_none, List.find?_eq_none]
    intro st hst heq
    obtain ⟨e, he, hst⟩ := mem_statements_iff.1 hst
    have hquad := (Dictionary.statement?_eq_some_iff.1 hst).1
    rw [eq_of_beq heq] at hquad
    obtain ⟨hmem, hvisible⟩ := View.mem_visible.1 he
    rw [h.liveEntry?_eq_some_iff.2 ⟨hmem, Dictionary.resolveQuad_inj hquad hq, hvisible⟩] at hlive
    simp at hlive
  | some e =>
    obtain ⟨hmem, hquad, hvisible⟩ := h.liveEntry?_eq_some_iff.1 hlive
    have he : e ∈ t.view.visible := View.mem_visible.2 ⟨hmem, hvisible⟩
    have hst : t.store.dictionary.statement? e = some ⟨q, e.explicit⟩ :=
      Dictionary.statement?_eq_some_iff.2 ⟨by rw [hquad]; exact hq, rfl⟩
    rw [Option.map_some]
    cases hfind : t.view.statements.find? (·.quad == q) with
    | none =>
      have := List.find?_eq_none.1 hfind _ (mem_statements_iff.2 ⟨e, he, hst⟩)
      simp at this
    | some st =>
      obtain ⟨e', he', hst'⟩ := mem_statements_iff.1 (List.mem_of_find?_eq_some hfind)
      have heq : st.quad = q := by simpa using List.find?_some hfind
      have hsame := h.eq_of_statement? Stamp.pending_lt_never he' he hst' hst heq
      rw [hsame] at hst'
      exact hst'.symm.trans hst

theorem namespaces_stageRemoval (t : Transaction) (e : Entry) :
    (t.stageRemoval e).namespaces = t.namespaces := by
  unfold stageRemoval
  split <;> rfl

theorem namespaces_stageInsertion (t : Transaction) (q : EncodedQuad) (explicit : Bool) :
    (t.stageInsertion q explicit).namespaces = t.namespaces := rfl

/-- No quad is shown twice. -/
theorem Sound.eq_of_quad_eq (h : t.Sound) {st st' : Statement} (hst : st ∈ t.view.statements)
    (hst' : st' ∈ t.view.statements) (hq : st.quad = st'.quad) : st = st' := by
  obtain ⟨e, he, hst⟩ := mem_statements_iff.1 hst
  obtain ⟨e', he', hst'⟩ := mem_statements_iff.1 hst'
  rw [h.eq_of_statement? Stamp.pending_lt_never he he' hst hst' hq] at hst
  exact Option.some.inj (hst.symm.trans hst')

/-- No quad is shown twice, at whatever stamp. -/
theorem Sound.nodup_statements_at (h : t.Sound) {stamp : Nat} (hstamp : stamp < Stamp.never) :
    ((t.store.at stamp).statements.map (·.quad)).Nodup := by
  have hvisible : (t.store.at stamp).visible.Pairwise fun a b => a.id ≠ b.id :=
    List.pairwise_map.1 (h.readable.indexed.nodup.sublist (List.filter_sublist.map _))
  rw [List.Nodup, List.pairwise_map]
  unfold View.statements
  rw [List.pairwise_filterMap]
  refine hvisible.imp_of_mem ?_
  intro a b ha hb hne st hst st' hst' hq
  exact hne (congrArg Entry.id (h.eq_of_statement? hstamp ha hb hst hst' hq))

theorem Sound.nodup_statements (h : t.Sound) : (t.view.statements.map (·.quad)).Nodup :=
  h.nodup_statements_at Stamp.pending_lt_never

/-! ## Single quads -/

/-- Learning terms shows nothing new. -/
theorem Sound.content_knowing (h : t.Sound) (q : Quad) : (t.knowing q).content = t.content := by
  have hstatements : (t.knowing q).view.statements = t.view.statements :=
    filterMap_statement?_eq (Dictionary.within_internQuad t.store.dictionary q) rfl
      fun e he => h.readable.known e (View.mem_visible.1 he).1
  exact congrArg (Content.mk · t.namespaces) hstatements

theorem content_stageInsertion {encoded : EncodedQuad} {q : Quad}
    (hq : t.store.dictionary.resolveQuad encoded = .ok q) (explicit : Bool) :
    (t.stageInsertion encoded explicit).content =
      { t.content with statements := t.content.statements ++ [⟨q, explicit⟩] } := by
  unfold content View.content
  rw [statements_stageInsertion hq, namespaces_stageInsertion]

theorem Sound.content_stageRemoval (h : t.Sound) {e : Entry} (he : e ∈ t.view.visible)
    {st : Statement} (hst : t.store.dictionary.statement? e = some st) :
    (t.stageRemoval e).content =
      { t.content with statements := t.content.statements.filter fun x => x.quad != st.quad } := by
  unfold content View.content
  rw [h.statements_stageRemoval he hst, namespaces_stageRemoval]

theorem insert_eq (h : t.Sound) (q : Quad) (explicit : Bool) :
    (t.insert q explicit).1 = (t.content.insert q explicit).1 ∧
      (t.insert q explicit).2.content = (t.content.insert q explicit).2 := by
  have hlearned := (t.stages_knowing q).sound h
  have hknown : (t.knowing q).store.dictionary.resolveQuad (t.store.dictionary.internQuad q).1 =
      .ok q := Dictionary.resolveQuad_internQuad t.store.dictionary q
  have hfind : (t.knowing q).content.statements.find? (·.quad == q) = _ :=
    hlearned.find?_statements hknown
  rw [← h.content_knowing q, insert_eq_knowing]
  unfold Content.insert
  rw [hfind]
  cases hlive : liveEntry? (t.knowing q) (t.store.dictionary.internQuad q).1 with
  | none => exact ⟨rfl, content_stageInsertion hknown explicit⟩
  | some e =>
    rw [Option.map_some]
    dsimp only
    split
    · exact ⟨rfl, rfl⟩
    · obtain ⟨hmem, hquad, hvisible⟩ := hlearned.liveEntry?_eq_some_iff.1 hlive
      have hst : (t.knowing q).store.dictionary.statement? e = some ⟨q, e.explicit⟩ :=
        Dictionary.statement?_eq_some_iff.2 ⟨by rw [hquad]; exact hknown, rfl⟩
      have hremoved := hlearned.content_stageRemoval (View.mem_visible.2 ⟨hmem, hvisible⟩) hst
      rw [← dictionary_stageRemoval (t.knowing q) e] at hknown
      exact ⟨rfl, by rw [content_stageInsertion hknown, hremoved]⟩

theorem remove_eq (h : t.Sound) (q : Quad) (explicit : Bool) :
    (t.remove q explicit).1 = (t.content.remove q explicit).1 ∧
      (t.remove q explicit).2.content = (t.content.remove q explicit).2 := by
  unfold remove
  cases hbind : (t.store.dictionary.lookupQuad? q).bind t.liveEntry? with
  | none =>
    -- whatever is shown has a live entry
    have habsent : ⟨q, explicit⟩ ∉ t.content.statements := by
      intro hmem
      obtain ⟨e, he, hst⟩ := mem_statements_iff.1 hmem
      have hquad := (Dictionary.statement?_eq_some_iff.1 hst).1
      obtain ⟨hmem, hvisible⟩ := View.mem_visible.1 he
      rw [Dictionary.lookupQuad?_eq_some_iff.2 hquad, Option.bind_some,
        h.liveEntry?_eq_some_iff.2 ⟨hmem, rfl, hvisible⟩] at hbind
      simp at hbind
    rw [Content.remove_of_not_mem habsent]
    exact ⟨rfl, rfl⟩
  | some e =>
    obtain ⟨encoded, hencoded, hlive⟩ := Option.bind_eq_some_iff.1 hbind
    have hknown := Dictionary.lookupQuad?_eq_some_iff.1 hencoded
    obtain ⟨hmem, hquad, hvisible⟩ := h.liveEntry?_eq_some_iff.1 hlive
    have he : e ∈ t.view.visible := View.mem_visible.2 ⟨hmem, hvisible⟩
    have hst : t.store.dictionary.statement? e = some ⟨q, e.explicit⟩ :=
      Dictionary.statement?_eq_some_iff.2 ⟨by rw [hquad]; exact hknown, rfl⟩
    have hshown : ⟨q, e.explicit⟩ ∈ t.view.statements := mem_statements_iff.2 ⟨e, he, hst⟩
    dsimp only
    split
    · rename_i hexplicit
      rw [hexplicit] at hshown
      have hcontains : t.content.statements.contains ⟨q, explicit⟩ = true :=
        List.contains_iff_mem.2 hshown
      refine ⟨hcontains.symm, ?_⟩
      rw [h.content_stageRemoval he hst]
      -- no quad is shown twice, so leaving out the quad is leaving out the statement
      refine congrArg (Content.mk · t.namespaces) (List.filter_congr ?_)
      intro st hmem
      rw [Bool.eq_iff_iff, bne_iff_ne, bne_iff_ne, not_iff_not]
      exact ⟨fun hq => h.eq_of_quad_eq hmem hshown hq, fun heq => by rw [heq]⟩
    · rename_i hexplicit
      have habsent : ⟨q, explicit⟩ ∉ t.content.statements := by
        intro hmem
        have := h.eq_of_quad_eq hshown hmem rfl
        exact hexplicit (by injection this)
      rw [Content.remove_of_not_mem habsent]
      exact ⟨rfl, rfl⟩

/-! ## Quads of some shapes -/

theorem dictionary_foldl_stageRemoval (es : List Entry) (t : Transaction) :
    (es.foldl stageRemoval t).store.dictionary = t.store.dictionary ∧
      (es.foldl stageRemoval t).namespaces = t.namespaces := by
  induction es generalizing t with
  | nil => exact ⟨rfl, rfl⟩
  | cons e rest ih =>
    obtain ⟨hdictionary, hnamespaces⟩ := ih (t.stageRemoval e)
    exact ⟨hdictionary.trans (dictionary_stageRemoval t e),
      hnamespaces.trans (namespaces_stageRemoval t e)⟩

/-- What a removal of some shapes does: it removes the entries that it is about and tells how many
they were. -/
structure Removes (t : Transaction) (p : Entry → Bool) (result : Nat × Transaction) : Prop where
  stages : t.Stages result.2
  count : result.1 = t.view.visible.countP p
  visible : result.2.view.visible = t.view.visible.filter fun e => !p e
  dictionary : result.2.store.dictionary = t.store.dictionary
  namespaces : result.2.namespaces = t.namespaces

/-- The entries that a removal of one shape is about are those that are shown, in their order. -/
theorem Sound.filter_search (h : t.Sound) (shape : EncodedShape) (explicit : Bool) :
    (t.store.index.search shape Stamp.pending true).filter (·.explicit == explicit) =
      t.view.visible.filter fun e => e.explicit == explicit && shape.covers e.quad := by
  have hsearch := View.search_eq (v := t.view) h.readable shape true
  rw [show t.store.index.search shape Stamp.pending true = _ from hsearch, List.filter_filter]
  rfl

/-- Some of the entries that are shown all have numbers of their own. -/
theorem Sound.nodup_ids (h : t.Sound) (p : Entry → Bool) :
    ((t.view.visible.filter p).map (·.id)).Nodup :=
  h.readable.indexed.nodup.sublist ((List.filter_sublist.trans List.filter_sublist).map _)

theorem Sound.removeShape (h : t.Sound) (shape : EncodedShape) (explicit : Bool) :
    t.Removes (fun e => e.explicit == explicit && shape.covers e.quad)
      (t.removeShape shape explicit) := by
  obtain ⟨hstages, hvisible⟩ := stages_foldl_stageRemoval h
    (fun e he => (List.mem_filter.1 he).1)
    (h.nodup_ids fun e => e.explicit == explicit && shape.covers e.quad)
  obtain ⟨hdictionary, hnamespaces⟩ := dictionary_foldl_stageRemoval
    (t.view.visible.filter fun e => e.explicit == explicit && shape.covers e.quad) t
  unfold Transaction.removeShape
  rw [h.filter_search]
  refine ⟨hstages, List.countP_eq_length_filter.symm, hvisible.trans ?_, hdictionary, hnamespaces⟩
  refine List.filter_congr ?_
  intro x hx
  congr 1
  rw [Bool.eq_iff_iff, List.contains_iff_mem, List.mem_map]
  constructor
  · rintro ⟨e, he, hid⟩
    obtain ⟨he, hp⟩ := List.mem_filter.1 he
    rwa [h.readable.indexed.eq_of_id_eq (View.mem_visible.1 he).1 (View.mem_visible.1 hx).1 hid]
      at hp
  · intro hp
    exact ⟨x, List.mem_filter.2 ⟨hx, hp⟩, rfl⟩

/-- The quads that a removal leaves are those of the entries that it leaves. -/
theorem Removes.statements {p : Entry → Bool} {result : Nat × Transaction}
    (h : t.Removes p result) {asked : Statement → Bool}
    (hasked : ∀ e ∈ t.view.visible, ∀ st, t.store.dictionary.statement? e = some st →
      p e = asked st) :
    result.2.view.statements = t.view.statements.filter fun st => !asked st := by
  unfold View.statements
  rw [show (View.store _).dictionary = _ from h.dictionary, h.visible]
  refine List.filterMap_filter_comm ?_
  intro e he st hst
  rw [hasked e he st hst]

theorem removeShapes_cons (t : Transaction) (explicit : Bool) (shape : EncodedShape)
    (rest : List EncodedShape) :
    t.removeShapes explicit (shape :: rest) =
      ((t.removeShape shape explicit).1 +
          ((t.removeShape shape explicit).2.removeShapes explicit rest).1,
        ((t.removeShape shape explicit).2.removeShapes explicit rest).2) := rfl

theorem Sound.removeShapes (h : t.Sound) (explicit : Bool) (shapes : List EncodedShape) :
    t.Removes (fun e => e.explicit == explicit && shapes.any (·.covers e.quad))
      (t.removeShapes explicit shapes) := by
  induction shapes generalizing t with
  | nil =>
    refine ⟨.refl, ?_, ?_, rfl, rfl⟩
    · simp [Transaction.removeShapes]
    · simp [Transaction.removeShapes]
  | cons shape rest ih =>
    have hfirst := h.removeShape shape explicit
    have hrest := ih (hfirst.stages.sound h)
    refine ⟨hfirst.stages.trans hrest.stages, ?_, ?_, hrest.dictionary.trans hfirst.dictionary,
      hrest.namespaces.trans hfirst.namespaces⟩
    · rw [removeShapes_cons]
      dsimp only
      rw [hfirst.count, hrest.count, hfirst.visible, List.countP_add_countP_filter]
      congr 1
      funext e
      rw [List.any_cons, Bool.and_or_distrib_left]
    · rw [removeShapes_cons]
      dsimp only
      rw [hrest.visible, hfirst.visible, List.filter_filter]
      refine List.filter_congr ?_
      intro e _
      rw [List.any_cons, Bool.and_or_distrib_left, Bool.not_or, Bool.and_comm]

/-- A removal removes the explicit or the inferred quads asked for. -/
theorem removeMatching_eq (h : t.Sound) (q : QuadQuery) (explicit : Bool) :
    (t.removeMatching q explicit).1 = (t.content.removeMatching q explicit).1 ∧
      (t.removeMatching q explicit).2.content = (t.content.removeMatching q explicit).2 := by
  have hremoves := h.removeShapes explicit (View.shapes t.store.dictionary q)
  have hasked : ∀ e ∈ t.view.visible, ∀ st, t.store.dictionary.statement? e = some st →
      (e.explicit == explicit && (View.shapes t.store.dictionary q).any (·.covers e.quad)) =
        Content.isAsked q explicit st := by
    intro e _ st hst
    obtain ⟨hquad, hexplicit⟩ := Dictionary.statement?_eq_some_iff.1 hst
    unfold Content.isAsked
    rw [hexplicit, View.shapes_eq, List.any_filterMap]
    congr 2
    funext shape
    cases hshape : View.encodeShape? t.store.dictionary shape with
    | none => exact (Dictionary.covers_of_encodeShape?_eq_none hshape hquad).symm
    | some encoded => exact Dictionary.covers_encodeShape? hshape hquad
  unfold removeMatching
  refine ⟨?_, ?_⟩
  · rw [hremoves.count]
    show _ = (t.view.visible.filterMap t.store.dictionary.statement?).countP _
    rw [List.countP_eq_length_filter, List.countP_eq_length_filter,
      ← List.filterMap_filter_comm hasked]
    exact (View.length_filterMap_statement? (v := t.view) h.readable
      fun e he => (List.mem_filter.1 he).1).symm
  · show Content.mk (View.statements _) _ = Content.mk _ _
    rw [hremoves.namespaces]
    rw [hremoves.statements hasked]
    rfl

/-- The live quads are those of the entries that are shown, each once. -/
theorem perm_live (h : t.Sound) :
    t.store.live.entries.Perm (t.view.visible.map fun e => (e.quad, e.id)) := by
  have hkeys : t.store.live.entries.Nodup := List.Nodup.of_map _ t.store.live.nodup
  have hentries : (t.view.visible.map fun e => (e.quad, e.id)).Nodup := by
    refine List.Nodup.of_map (·.2) ?_
    rw [List.map_map]
    exact h.readable.indexed.nodup.sublist (List.filter_sublist.map _)
  rw [List.perm_ext_iff_of_nodup hkeys hentries]
  rintro ⟨q, id⟩
  rw [← Table.get?_eq_some_iff, h.live, List.mem_map]
  constructor
  · rintro ⟨e, he, hid, hquad, hvisible⟩
    exact ⟨e, View.mem_visible.2 ⟨he, hvisible⟩, by rw [hid, hquad]⟩
  · rintro ⟨e, he, heq⟩
    obtain ⟨hquad, hid⟩ := Prod.mk.inj heq
    obtain ⟨he, hvisible⟩ := View.mem_visible.1 he
    exact ⟨e, he, hid, hquad, hvisible⟩

/-- As many quads are live as are shown. -/
theorem size_eq (h : t.Sound) : t.size = t.view.statements.length := by
  show t.store.live.entries.length = _
  rw [(perm_live h).length_eq, List.length_map, View.length_statements (v := t.view) h.readable]

/-- A transaction answers every read from its content. -/
theorem readTransaction_eq (h : t.Sound) (read : Read) :
    Session.readTransaction t read =
      t.content.read Stamp.pending t.store.options.deadline read :=
  View.readAt_eq (v := t.view) _ h.readable (size_eq h) read

/-- A transaction answers a write as its content does and shows what comes of it. -/
theorem stage_eq (h : t.Sound) (change : Write) :
    (Session.stage t change).1 = (t.content.write change).1 ∧
      (Session.stage t change).2.content = (t.content.write change).2 ∧
        t.Stages (Session.stage t change).2 := by
  cases change with
  | insert q explicit =>
    obtain ⟨hanswer, hcontent⟩ := insert_eq h q explicit
    exact ⟨congrArg Answer.flag hanswer, hcontent, stages_insert h q explicit⟩
  | remove q =>
    obtain ⟨hanswer, hcontent⟩ := remove_eq h q true
    exact ⟨congrArg Answer.flag hanswer, hcontent, stages_remove h q true⟩
  | removeMatching q explicit =>
    obtain ⟨hanswer, hcontent⟩ := removeMatching_eq h q explicit
    exact ⟨congrArg Answer.number hanswer, hcontent, (h.removeShapes explicit _).stages⟩
  | clear contexts =>
    obtain ⟨hanswer, hcontent⟩ := removeMatching_eq h { contexts := contexts } true
    exact ⟨congrArg Answer.number hanswer, hcontent, (h.removeShapes true _).stages⟩
  | changeNamespaces change =>
    refine ⟨rfl, ?_, .changeNamespaces change .refl⟩
    show Content.mk _ (Namespaces.applyAll _ (t.namespaceChanges ++ [change])) = Content.mk _ _
    unfold Namespaces.applyAll
    rw [List.foldl_append]
    rfl

end Transaction
end QuadStore
