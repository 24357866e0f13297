import QuadStore.Proofs.Surviving

/-!
# Drafts

A draft is what a transaction amounts to for its writer: the content that it works on, and the
operations that its record will have. It knows neither entries nor stamps nor terms. A quad that
goes leaves its removal in the record, or takes its insertion out of it if the transaction itself
has inserted it. `Transaction.stage_draft` says that a transaction does every write as its draft.
-/

namespace QuadStore

/-! ## What a write takes away and adds -/

namespace Content

/-- The explicit or the inferred quads of some shapes, one shape after the other, each once. -/
def covered (explicit : Bool) : List QuadShape → List Statement → List Statement
  | [], _ => []
  | shape :: rest, statements =>
    let asked := fun st : Statement => st.explicit == explicit && shape.covers st.quad
    statements.filter asked ++ covered explicit rest (statements.filter fun st => !asked st)

/-- The quads that a write takes away, in the order in which it does. -/
def gone (c : Content) : Write → List Statement
  | .insert q explicit =>
    match c.statements.find? (·.quad == q) with
    | none => []
    | some st => if st.explicit || !explicit then [] else [st]
  | .remove q => if (c.remove q true).1 then [⟨q, true⟩] else []
  | .removeMatching q explicit => covered explicit q.shapes c.statements
  | .clear contexts => covered true (QuadQuery.shapes { contexts := contexts }) c.statements
  | .changeNamespaces _ => []

/-- The quads that a write adds. -/
def added (c : Content) : Write → List Statement
  | .insert q explicit => if (c.insert q explicit).1 then [⟨q, explicit⟩] else []
  | _ => []

end Content

/-- The changes of the namespaces that a write makes. -/
def Write.namespaceChanges : Write → List NamespaceChange
  | .changeNamespaces change => [change]
  | _ => []

/-- What is recorded when a quad goes. -/
def Operation.retract (ops : List Operation) (st : Statement) : List Operation :=
  if ofInserted st ∈ ops then ops.erase (ofInserted st) else ops ++ [ofRemoved st]

/-- The content that a transaction works on, and what it will record. -/
@[ext]
structure Draft where
  content : Content
  /-- The operations on quads. -/
  quads : List Operation
  namespaceChanges : List NamespaceChange

namespace Draft

/-- The draft of a transaction that has done nothing. -/
def ofContent (c : Content) : Draft := ⟨c, [], []⟩

/-- The operations of the record. -/
def operations (d : Draft) : List Operation :=
  d.quads ++ d.namespaceChanges.map .changeNamespaces

/-- The answer to a write, and the draft after it. -/
def write (d : Draft) (change : Write) : Answer × Draft :=
  ((d.content.write change).1,
    { content := (d.content.write change).2
      quads := (d.content.gone change).foldl Operation.retract d.quads ++
        (d.content.added change).map Operation.ofInserted
      namespaceChanges := d.namespaceChanges ++ change.namespaceChanges })

/-- Asserts quads one after the other. -/
def assertAll (d : Draft) (quads : List Quad) : Draft :=
  quads.foldl (fun d q => (d.write (.insert q true)).2) d

theorem content_assertAll (d : Draft) (quads : List Quad) :
    (d.assertAll quads).content = quads.foldl (fun c q => (c.insert q true).2) d.content :=
  (List.foldl_hom Draft.content fun _ _ => rfl).symm

end Draft

namespace Transaction

open Operation

variable {t : Transaction}

/-- What a transaction amounts to. -/
def draft (t : Transaction) : Draft := ⟨t.content, t.survivors, t.namespaceChanges⟩

theorem operations_draft (t : Transaction) : t.draft.operations = t.operations := rfl

/-! ## Entries -/

/-- What is recorded when an entry goes: its insertion is taken back if it is staged. -/
theorem survivors_stageRemoval (h : t.Sound) (hr : t.Records) {e : Entry}
    (he : e ∈ t.view.visible) {st : Statement}
    (hst : t.store.dictionary.statement? e = some st) :
    (t.stageRemoval e).survivors = retract t.survivors st := by
  unfold retract
  by_cases hpending : e.since = Stamp.pending
  · obtain ⟨xs, ys, hbefore, hafter⟩ := survivors_stageRemoval_staged h he hst hpending
    -- no insertion of the quad stands before the one that is taken back
    have hnodup := hr.legal.nodup_inserted
    rw [hbefore, filterMap_inserted?_append_inserted, List.nodup_append] at hnodup
    have hfirst : ofInserted st ∉ xs := fun hin => hnodup.2.2 st
      (List.mem_filterMap.2 ⟨_, hin, rfl⟩) st List.mem_cons_self rfl
    rw [hafter, hbefore, if_pos (List.mem_append_right _ List.mem_cons_self),
      List.erase_append_right _ hfirst, List.erase_cons_head]
  · -- an insertion of the quad would be that of another entry, which is staged
    have hnot : ofInserted st ∉ t.survivors := by
      intro hin
      obtain ⟨x, hx, hstaged, hxst⟩ := h.exists_staged (List.mem_filterMap.2 ⟨_, hin, rfl⟩)
      rw [h.eq_of_statement? Stamp.pending_lt_never hx he hxst hst rfl] at hstaged
      exact hpending hstaged
    rw [survivors_stageRemoval_settled h he hst hpending, if_neg hnot]

theorem namespaceChanges_stageRemoval (t : Transaction) (e : Entry) :
    (t.stageRemoval e).namespaceChanges = t.namespaceChanges := by
  unfold stageRemoval
  split <;> rfl

theorem namespaceChanges_foldl_stageRemoval (es : List Entry) (t : Transaction) :
    (es.foldl stageRemoval t).namespaceChanges = t.namespaceChanges := by
  induction es generalizing t with
  | nil => rfl
  | cons e rest ih => rw [List.foldl_cons, ih, namespaceChanges_stageRemoval]

theorem survivors_foldl_stageRemoval (h : t.Sound) (hr : t.Records) {es : List Entry}
    (hes : ∀ e ∈ es, e ∈ t.view.visible) (hnodup : (es.map (·.id)).Nodup) :
    (es.foldl stageRemoval t).survivors =
      (es.filterMap t.store.dictionary.statement?).foldl retract t.survivors := by
  induction es generalizing t with
  | nil => rfl
  | cons e rest ih =>
    rw [List.map_cons, List.nodup_cons] at hnodup
    have he := hes e List.mem_cons_self
    have hremove : t.Stages (t.stageRemoval e) := .remove .refl he
    obtain ⟨st, hst⟩ : ∃ st, t.store.dictionary.statement? e = some st :=
      View.exists_statement? h.readable he
    have hrest : ∀ x ∈ rest, x ∈ (t.stageRemoval e).view.visible := by
      intro x hx
      rw [h.visible_stageRemoval he, List.mem_filter, bne_iff_ne]
      exact ⟨hes x (List.mem_cons_of_mem _ hx), fun heq =>
        hnodup.1 (heq ▸ List.mem_map_of_mem hx)⟩
    rw [List.foldl_cons, ih (hremove.sound h) (hr.stageRemoval h he) hrest hnodup.2,
      survivors_stageRemoval h hr he hst, dictionary_stageRemoval,
      List.filterMap_cons_some hst, List.foldl_cons]

/-! ## Shapes -/

/-- An encoded shape asks for the entries of those quads that the shape asks for. -/
theorem asked_eq {d : Dictionary} {shape : QuadShape} {encoded : EncodedShape}
    (hshape : View.encodeShape? d shape = some encoded) (explicit : Bool) {e : Entry}
    {st : Statement} (hst : d.statement? e = some st) :
    (e.explicit == explicit && encoded.covers e.quad) =
      (st.explicit == explicit && shape.covers st.quad) := by
  obtain ⟨hquad, hexplicit⟩ := Dictionary.statement?_eq_some_iff.1 hst
  rw [Dictionary.covers_encodeShape? hshape hquad, hexplicit]

/-- What is recorded when the quads of a shape go. -/
theorem survivors_removeShape (h : t.Sound) (hr : t.Records) {shape : QuadShape}
    {encoded : EncodedShape}
    (hshape : View.encodeShape? t.store.dictionary shape = some encoded) (explicit : Bool) :
    (t.removeShape encoded explicit).2.survivors =
      (t.view.statements.filter fun st =>
        st.explicit == explicit && shape.covers st.quad).foldl retract t.survivors := by
  have hfiltered : (t.view.visible.filter fun e =>
      e.explicit == explicit && encoded.covers e.quad).filterMap t.store.dictionary.statement? =
        t.view.statements.filter fun st => st.explicit == explicit && shape.covers st.quad :=
    List.filterMap_filter_comm fun _ _ _ hst => asked_eq hshape explicit hst
  unfold removeShape
  rw [h.filter_search]
  dsimp only
  rw [survivors_foldl_stageRemoval h hr (fun e he => (List.mem_filter.1 he).1) (h.nodup_ids _),
    hfiltered]

theorem survivors_removeShapes (h : t.Sound) (hr : t.Records) (explicit : Bool)
    (shapes : List QuadShape) :
    (t.removeShapes explicit
        (shapes.filterMap (View.encodeShape? t.store.dictionary))).2.survivors =
      (Content.covered explicit shapes t.view.statements).foldl retract t.survivors := by
  induction shapes generalizing t with
  | nil => rfl
  | cons shape rest ih =>
    unfold Content.covered
    dsimp only
    cases hshape : View.encodeShape? t.store.dictionary shape with
    | none =>
      -- the shape is left out of those that are looked up, and covers nothing that is shown
      have hnone : ∀ st ∈ t.view.statements,
          (st.explicit == explicit && shape.covers st.quad) = false := by
        intro st hst
        obtain ⟨e, -, hst⟩ := mem_statements_iff.1 hst
        have hquad := (Dictionary.statement?_eq_some_iff.1 hst).1
        rw [Dictionary.covers_of_encodeShape?_eq_none hshape hquad, Bool.and_false]
      have hkept : (t.view.statements.filter fun st =>
          !(st.explicit == explicit && shape.covers st.quad)) = t.view.statements :=
        List.filter_eq_self.2 fun st hst => by rw [hnone st hst]; rfl
      rw [List.filterMap_cons_none hshape, ih h hr, hkept,
        List.filter_eq_nil_iff.2 fun st hst => by rw [hnone st hst]; exact Bool.false_ne_true]
      rfl
    | some encoded =>
      have hfirst := h.removeShape encoded explicit
      have hrest := ih (hfirst.stages.sound h) (hfirst.stages.records h hr)
      have hleft : (t.removeShape encoded explicit).2.view.statements =
          t.view.statements.filter fun st =>
            !(st.explicit == explicit && shape.covers st.quad) :=
        hfirst.statements fun _ _ _ hst => asked_eq hshape explicit hst
      rw [hfirst.dictionary, hleft, survivors_removeShape h hr hshape] at hrest
      rw [List.filterMap_cons_some hshape, removeShapes_cons, List.foldl_append]
      exact hrest

theorem namespaceChanges_removeShapes (t : Transaction) (explicit : Bool)
    (shapes : List EncodedShape) :
    (t.removeShapes explicit shapes).2.namespaceChanges = t.namespaceChanges := by
  induction shapes generalizing t with
  | nil => rfl
  | cons shape rest ih =>
    rw [removeShapes_cons]
    exact (ih _).trans (namespaceChanges_foldl_stageRemoval _ _)

/-! ## Writes -/

theorem namespaceChanges_insert (t : Transaction) (q : Quad) (explicit : Bool) :
    (t.insert q explicit).2.namespaceChanges = t.namespaceChanges := by
  rw [insert_eq_knowing]
  split
  · rfl
  · split
    · rfl
    · exact namespaceChanges_stageRemoval _ _

theorem namespaceChanges_remove (t : Transaction) (q : Quad) (explicit : Bool) :
    (t.remove q explicit).2.namespaceChanges = t.namespaceChanges := by
  unfold remove
  split
  · rfl
  · split
    · exact namespaceChanges_stageRemoval _ _
    · rfl

/-- An inferred quad is taken back before it is asserted. -/
theorem survivors_insert (h : t.Sound) (hr : t.Records) (q : Quad) (explicit : Bool) :
    (t.insert q explicit).2.survivors =
      (t.content.gone (.insert q explicit)).foldl retract t.survivors ++
        (t.content.added (.insert q explicit)).map ofInserted := by
  have hlearn := t.stages_knowing q
  have hsound := hlearn.sound h
  have hknown : (t.knowing q).store.dictionary.resolveQuad (t.store.dictionary.internQuad q).1 =
      .ok q := Dictionary.resolveQuad_internQuad t.store.dictionary q
  -- nothing is recorded of the terms that are learnt, and nothing else is shown
  have hsurvivors : (t.knowing q).survivors = t.survivors :=
    survivors_learn h (Dictionary.within_internQuad t.store.dictionary q)
  have hfind : t.content.statements.find? (·.quad == q) = _ :=
    (congrArg (fun c : Content => c.statements.find? (·.quad == q))
      (h.content_knowing q).symm).trans (hsound.find?_statements hknown)
  unfold Content.gone Content.added
  dsimp only
  rw [← (insert_eq h q explicit).1, hfind, insert_eq_knowing, ← hsurvivors]
  cases hlive : liveEntry? (t.knowing q) (t.store.dictionary.internQuad q).1 with
  | none => exact survivors_stageInsertion hsound hknown explicit
  | some e =>
    rw [Option.map_some]
    dsimp only
    split
    · exact (List.append_nil _).symm
    · obtain ⟨hmem, hquad, hvisible⟩ := hsound.liveEntry?_eq_some_iff.1 hlive
      have he : e ∈ (t.knowing q).view.visible := View.mem_visible.2 ⟨hmem, hvisible⟩
      have hst : (t.knowing q).store.dictionary.statement? e = some ⟨q, e.explicit⟩ :=
        Dictionary.statement?_eq_some_iff.2 ⟨by rw [hquad]; exact hknown, rfl⟩
      have hremove : (t.knowing q).Stages ((t.knowing q).stageRemoval e) := .remove .refl he
      rw [← dictionary_stageRemoval (t.knowing q) e] at hknown
      dsimp only
      rw [survivors_stageInsertion (hremove.sound hsound) hknown,
        survivors_stageRemoval hsound (hlearn.records h hr) he hst]
      rfl

theorem survivors_remove (h : t.Sound) (hr : t.Records) (q : Quad) :
    (t.remove q true).2.survivors = (t.content.gone (.remove q)).foldl retract t.survivors := by
  unfold Content.gone
  dsimp only
  rw [← (remove_eq h q true).1]
  unfold remove
  cases hbind : (t.store.dictionary.lookupQuad? q).bind t.liveEntry? with
  | none => rfl
  | some e =>
    dsimp only
    split
    · rename_i hexplicit
      obtain ⟨encoded, hencoded, hlive⟩ := Option.bind_eq_some_iff.1 hbind
      obtain ⟨hmem, hquad, hvisible⟩ := h.liveEntry?_eq_some_iff.1 hlive
      have hst : t.store.dictionary.statement? e = some ⟨q, true⟩ :=
        Dictionary.statement?_eq_some_iff.2
          ⟨by rw [hquad]; exact Dictionary.lookupQuad?_eq_some_iff.1 hencoded, hexplicit⟩
      exact survivors_stageRemoval h hr (View.mem_visible.2 ⟨hmem, hvisible⟩) hst
    · rfl

theorem survivors_removeMatching (h : t.Sound) (hr : t.Records) (q : QuadQuery) (explicit : Bool) :
    (t.removeMatching q explicit).2.survivors =
      (t.content.gone (.removeMatching q explicit)).foldl retract t.survivors := by
  unfold removeMatching
  rw [View.shapes_eq, survivors_removeShapes h hr]
  rfl

theorem draft_insert (h : t.Sound) (hr : t.Records) (q : Quad) (explicit : Bool) :
    (t.insert q explicit).2.draft = (t.draft.write (.insert q explicit)).2 :=
  Draft.ext (insert_eq h q explicit).2 (survivors_insert h hr q explicit)
    ((namespaceChanges_insert t q explicit).trans (List.append_nil _).symm)

theorem draft_remove (h : t.Sound) (hr : t.Records) (q : Quad) :
    (t.remove q true).2.draft = (t.draft.write (.remove q)).2 :=
  Draft.ext (remove_eq h q true).2 ((survivors_remove h hr q).trans (List.append_nil _).symm)
    ((namespaceChanges_remove t q true).trans (List.append_nil _).symm)

theorem draft_removeMatching (h : t.Sound) (hr : t.Records) (q : QuadQuery) (explicit : Bool) :
    (t.removeMatching q explicit).2.draft = (t.draft.write (.removeMatching q explicit)).2 :=
  Draft.ext (removeMatching_eq h q explicit).2
    ((survivors_removeMatching h hr q explicit).trans (List.append_nil _).symm)
    ((namespaceChanges_removeShapes _ _ _).trans (List.append_nil _).symm)

/-- A transaction does every write as its draft: the answer, the content and what is recorded are
the same. -/
theorem stage_draft (h : t.Sound) (hr : t.Records) (change : Write) :
    (Session.stage t change).1 = (t.draft.write change).1 ∧
      (Session.stage t change).2.draft = (t.draft.write change).2 := by
  refine ⟨(stage_eq h change).1, ?_⟩
  cases change with
  | insert q explicit => exact draft_insert h hr q explicit
  | remove q => exact draft_remove h hr q
  | removeMatching q explicit => exact draft_removeMatching h hr q explicit
  | clear contexts => exact draft_removeMatching h hr { contexts := contexts } true
  | changeNamespaces change =>
    exact Draft.ext (stage_eq h (.changeNamespaces change)).2.1 (List.append_nil _).symm rfl

/-- A quad that has come and gone is not recorded. -/
example : (((Draft.ofContent ⟨[], .empty⟩).assertAll
    [⟨.iri ⟨"s"⟩, ⟨"p"⟩, .iri ⟨"o"⟩, .default⟩]).write
      (.remove ⟨.iri ⟨"s"⟩, ⟨"p"⟩, .iri ⟨"o"⟩, .default⟩)).2.operations = [] := by decide

end Transaction
end QuadStore
