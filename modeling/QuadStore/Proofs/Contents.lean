import QuadStore.Proofs.Dictionary
import QuadStore.Proofs.Index
import QuadStore.Proofs.Lists
import QuadStore.Session.Basic

/-!
# Contents

What a reader can learn from a view: a list of quads, each explicit or inferred, and the
namespaces. `Content` answers every read from these alone, by filters of one list. A view of a
store whose entries all stand for quads answers as its content does, whichever lists the index
keeps and whatever numbers the terms have: `View.readAt_eq`.
-/

namespace QuadStore

/-! ## Asking for quads -/

/-- What the graph of a quad in a context has to be. -/
def GraphShape.ofName (g : GraphName) : GraphShape := (g.toTerm?).elim .default .named

/-- The quads in a context are those whose graph is this one. -/
theorem GraphShape.covers_ofName (g h : GraphName) : (ofName g).covers h = (h == g) := by
  rw [Bool.eq_iff_iff, beq_iff_eq]
  cases g <;> cases h <;> simp [ofName, covers, GraphName.toTerm?, GraphName.isDefault]

/-- What a look-up asks for, context by context. -/
def QuadQuery.shapes (q : QuadQuery) : List QuadShape :=
  let shape : QuadShape := ⟨q.subject?.map (·.toTerm), q.predicate?.map .iri, q.object?, .any⟩
  if q.contexts.isEmpty then [shape]
  else q.contexts.eraseDups.map fun g => { shape with graph := .ofName g }

/-! ## Contents -/

/-- The name of a graph, if it is not the default one. -/
def GraphName.name? : GraphName → Option Resource
  | iri i => some (.iri i)
  | blank b => some (.blank b)
  | default => none

theorem GraphName.name?_eq_some_iff {g : GraphName} {r : Resource} :
    g.name? = some r ↔ g = r.toGraphName := by
  cases g <;> cases r <;> simp [name?, Resource.toGraphName]

/-- A quad that is there, either explicitly or by inference. -/
structure Statement where
  quad : Quad
  explicit : Bool
deriving DecidableEq, Repr

/-- What a reader sees: the quads in the order of their insertion, and the namespaces. -/
structure Content where
  statements : List Statement
  namespaces : Namespaces

namespace Content

/-- The quads of a shape, without the inferred ones if so asked. -/
def asked (c : Content) (inferred : Bool) (shape : QuadShape) : List Quad :=
  (c.statements.filter fun st => (inferred || st.explicit) && shape.covers st.quad).map (·.quad)

/-- The quads that a look-up asks for. -/
def quads (c : Content) (q : QuadQuery) (inferred : Bool) : List Quad :=
  q.shapes.flatMap (c.asked inferred)

/-- The dataset that an evaluation reads. -/
def dataset (c : Content) (inferred : Bool) : Dataset :=
  .ofQuads ((c.statements.filter fun st => inferred || st.explicit).map (·.quad))

/-- The named graphs with at least one quad, in the order of their first one. -/
def contexts (c : Content) : List Resource :=
  (c.statements.filterMap (·.quad.graph.name?)).eraseDups

/-- The answer to an evaluation. -/
def evaluate (c : Content) (pattern : GraphPattern) (bindings : BindingSet) (inferred : Bool)
    (limit? : Option Nat) (deadline : Deadline) : Answer :=
  Session.answer .evaluation (fun query =>
    .rows query.columns (Session.limited limit? (query.pulls (c.dataset inferred) deadline)))
    (Query.ofPattern pattern bindings)

/-- The answer to a read, given the number of the snapshot. -/
def read (c : Content) (number : Nat) (deadline : Deadline) : Read → Answer
  | .number => .number number
  | .quads q inferred limit? => .quads (Session.limited limit? (c.quads q inferred))
  | .contains q => .flag (c.statements.any (·.quad == q))
  | .size => .number c.statements.length
  | .isEmpty => .flag c.statements.isEmpty
  | .count contexts inferred => .number (c.quads { contexts := contexts } inferred).length
  | .contexts => .contexts c.contexts
  | .namespaces => .namespaces c.namespaces
  | .space label => .space (c.namespaces.get? label)
  | .evaluate pattern bindings inferred limit? =>
    c.evaluate pattern bindings inferred limit? deadline
  | .execute pattern bindings inferred limit? =>
    c.evaluate pattern bindings inferred limit? .ahead

end Content

/-! ## Numbers and shapes -/

namespace Dictionary

variable {d : Dictionary}

/-- Asking for a term by its number is asking for the term. -/
theorem all_encodeTerm? {t? : Option Term} {id? : Option TermId}
    (h : View.encodeTerm? d t? = some id?) {id : TermId} {t : Term} (hid : d.resolve id = .ok t) :
    id?.all (· == id) = t?.all (· == t) := by
  cases t? with
  | none =>
    rw [← Option.some.inj h]
    rfl
  | some a =>
    obtain ⟨n, hn, rfl⟩ := Option.map_eq_some_iff.1 h
    rw [lookup?_eq_some_iff] at hn
    simp only [Option.all_some]
    rw [Bool.eq_iff_iff, beq_iff_eq, beq_iff_eq]
    constructor
    · rintro rfl
      exact Except.ok.inj (hn.symm.trans hid)
    · rintro rfl
      exact Option.some.inj ((lookup?_eq_some_iff.2 hn).symm.trans (lookup?_eq_some_iff.2 hid))

/-- A term without a number is in no quad. -/
theorem all_of_encodeTerm?_eq_none {t? : Option Term} (h : View.encodeTerm? d t? = none)
    {id : TermId} {t : Term} (hid : d.resolve id = .ok t) : t?.all (· == t) = false := by
  cases t? with
  | none => simp [View.encodeTerm?] at h
  | some a =>
    have hnone : d.lookup? a = none := Option.map_eq_none_iff.1 h
    simp only [Option.all_some, beq_eq_false_iff_ne]
    rintro rfl
    rw [lookup?_eq_some_iff.2 hid] at hnone
    exact absurd hnone (by simp)

/-- Numbers of graphs are told apart as the graphs are. -/
theorem eq_iff_of_resolveGraph {a b : TermId} {g h : GraphName} (ha : d.resolveGraph a = .ok g)
    (hb : d.resolveGraph b = .ok h) : a = b ↔ g = h := by
  constructor
  · rintro rfl
    exact Except.ok.inj (ha.symm.trans hb)
  · rintro rfl
    exact Option.some.inj ((lookupGraph?_eq_some_iff.2 ha).symm.trans
      (lookupGraph?_eq_some_iff.2 hb))

/-- A graph named by a term has the number of the term. -/
theorem eq_iff_of_resolve {a b : TermId} {g : GraphName} {t : Term}
    (ha : d.resolveGraph a = .ok g) (hb : d.resolve b = .ok t) : b = a ↔ g.toTerm? = some t := by
  rw [← lookupGraph?_eq_some_iff] at ha
  rw [← lookup?_eq_some_iff] at hb
  constructor
  · rintro rfl
    cases g with
    | default =>
      rw [lookup?_eq_some_iff, ← Option.some.inj ha] at hb
      exact absurd hb (resolve_defaultGraph d t)
    | iri i =>
      rw [lookup?_eq_some_iff] at hb
      exact congrArg some (Except.ok.inj ((lookup?_eq_some_iff.1 ha).symm.trans hb))
    | blank n =>
      rw [lookup?_eq_some_iff] at hb
      exact congrArg some (Except.ok.inj ((lookup?_eq_some_iff.1 ha).symm.trans hb))
  · intro hg
    unfold lookupGraph? at ha
    rw [hg] at ha
    exact Option.some.inj (hb.symm.trans ha)

theorem all_graphNumber? {shape : GraphShape} {id? : Option TermId}
    (h : View.graphNumber? d shape = some id?) {id : TermId} {g : GraphName}
    (hid : d.resolveGraph id = .ok g) : id?.all (· == id) = shape.covers g := by
  cases shape with
  | any =>
    rw [← Option.some.inj h]
    rfl
  | default =>
    rw [← Option.some.inj h, Option.all_some, Bool.eq_iff_iff, beq_iff_eq]
    rw [eq_iff_of_resolveGraph (d := d) (g := .default) (by simp [resolveGraph]) hid]
    cases g <;> simp [GraphShape.covers, GraphName.isDefault]
  | named t =>
    obtain ⟨n, hn, rfl⟩ := Option.map_eq_some_iff.1 h
    rw [Option.all_some, Bool.eq_iff_iff, beq_iff_eq,
      eq_iff_of_resolve hid (lookup?_eq_some_iff.1 hn)]
    simp [GraphShape.covers]

theorem covers_of_graphNumber?_eq_none {shape : GraphShape}
    (h : View.graphNumber? d shape = none) {id : TermId} {g : GraphName}
    (hid : d.resolveGraph id = .ok g) : shape.covers g = false := by
  cases shape with
  | any => simp [View.graphNumber?] at h
  | default => simp [View.graphNumber?] at h
  | named t =>
    have hnone : d.lookup? t = none := Option.map_eq_none_iff.1 h
    simp only [GraphShape.covers, beq_eq_false_iff_ne]
    intro hg
    rw [← lookupGraph?_eq_some_iff] at hid
    unfold lookupGraph? at hid
    rw [hg] at hid
    simp [hnone] at hid

theorem shapeOf?_eq_some {s? p? o? : Option Term} {encoded : EncodedShape}
    (h : View.shapeOf? d s? p? o? = some encoded) :
    View.encodeTerm? d s? = some encoded.subject? ∧
      View.encodeTerm? d p? = some encoded.predicate? ∧
        View.encodeTerm? d o? = some encoded.object? ∧ encoded.graph? = none := by
  unfold View.shapeOf? at h
  cases hs : View.encodeTerm? d s? <;> cases hp : View.encodeTerm? d p? <;>
    cases ho : View.encodeTerm? d o? <;> simp_all [bind, Option.bind, pure]
  subst h
  exact ⟨rfl, rfl, rfl, rfl⟩

theorem shapeOf?_eq_none {s? p? o? : Option Term} (h : View.shapeOf? d s? p? o? = none) :
    View.encodeTerm? d s? = none ∨ View.encodeTerm? d p? = none ∨
      View.encodeTerm? d o? = none := by
  unfold View.shapeOf? at h
  cases hs : View.encodeTerm? d s? <;> cases hp : View.encodeTerm? d p? <;>
    cases ho : View.encodeTerm? d o? <;> simp_all [bind, Option.bind, pure]

/-- An encoded shape covers the encoded quads of the quads that the shape covers. -/
theorem covers_encodeShape? {shape : QuadShape} {encoded : EncodedShape}
    (h : View.encodeShape? d shape = some encoded) {e : EncodedQuad} {q : Quad}
    (hq : d.resolveQuad e = .ok q) : encoded.covers e = shape.covers q := by
  obtain ⟨hs, hp, ho, hg⟩ := resolveQuad_eq_ok_iff.1 hq
  unfold View.encodeShape? at h
  split at h
  · rename_i terms graph? hterms hgraph
    obtain ⟨hsubject, hpredicate, hobject, -⟩ := shapeOf?_eq_some hterms
    rw [← Option.some.inj h]
    unfold QuadShape.covers
    rw [← all_encodeTerm? hsubject hs, ← all_encodeTerm? hpredicate hp,
      ← all_encodeTerm? hobject ho, ← all_graphNumber? hgraph hg]
    simp [EncodedShape.covers, Role.all, EncodedShape.part?, EncodedQuad.part, Bool.and_assoc]
  · simp at h

/-- A shape with a term that has no number covers none of the quads. -/
theorem covers_of_encodeShape?_eq_none {shape : QuadShape}
    (h : View.encodeShape? d shape = none) {e : EncodedQuad} {q : Quad}
    (hq : d.resolveQuad e = .ok q) : shape.covers q = false := by
  obtain ⟨hs, hp, ho, hg⟩ := resolveQuad_eq_ok_iff.1 hq
  unfold QuadShape.covers
  unfold View.encodeShape? at h
  cases hterms : View.shapeOf? d shape.subject? shape.predicate? shape.object? with
  | none =>
    rcases shapeOf?_eq_none hterms with hnone | hnone | hnone
    · rw [all_of_encodeTerm?_eq_none hnone hs]
      simp
    · rw [all_of_encodeTerm?_eq_none hnone hp]
      simp
    · rw [all_of_encodeTerm?_eq_none hnone ho]
      simp
  | some terms =>
    cases hgraph : View.graphNumber? d shape.graph with
    | none =>
      rw [covers_of_graphNumber?_eq_none hgraph hg]
      simp
    | some graph? => simp [hterms, hgraph] at h

/-- The quad that an entry stands for. -/
def statement? (d : Dictionary) (e : Entry) : Option Statement :=
  (d.resolveQuad e.quad).toOption.map (⟨·, e.explicit⟩)

theorem statement?_eq_some_iff {e : Entry} {st : Statement} :
    d.statement? e = some st ↔ d.resolveQuad e.quad = .ok st.quad ∧ e.explicit = st.explicit := by
  obtain ⟨q, explicit⟩ := st
  unfold statement?
  cases d.resolveQuad e.quad <;> simp [Except.toOption]

end Dictionary

/-! ## What a view shows -/

/-- A store whose look-ups find all entries, each of which stands for a quad. -/
structure Store.Readable (s : Store) : Prop where
  indexed : s.index.WellFormed
  known : ∀ e ∈ s.index.entries, ∃ q, s.dictionary.resolveQuad e.quad = .ok q

namespace Store.Readable

variable {s s' : Store}

/-- The entries and the terms alone matter. -/
theorem transfer (h : s.Readable) (hindex : s'.index = s.index)
    (hdictionary : s.dictionary.Within s'.dictionary) : s'.Readable := by
  refine ⟨hindex ▸ h.indexed, fun e he => ?_⟩
  rw [hindex] at he
  exact (h.known e he).imp fun _ => hdictionary.resolveQuad

/-- Entries may change but for their numbers and their quads. -/
theorem mapEntries (h : s.Readable) {f : Entry → Entry} (hf : Index.Faithful f)
    (hindex : s'.index = { s.index with entries := s.index.entries.map f })
    (hdictionary : s'.dictionary = s.dictionary) : s'.Readable := by
  refine ⟨hindex ▸ h.indexed.mapEntries hf, fun e he => ?_⟩
  rw [hindex] at he
  obtain ⟨old, hold, rfl⟩ := List.mem_map.1 he
  rw [(hf old).2, hdictionary]
  exact h.known old hold

theorem modify (h : s.Readable) (id : EntryId) {f : Entry → Entry} (hf : Index.Faithful f)
    (hindex : s'.index = s.index.modify id f) (hdictionary : s'.dictionary = s.dictionary) :
    s'.Readable :=
  h.mapEntries (hf.changed id) hindex hdictionary

end Store.Readable

namespace View

/-- The entries that a view shows. -/
def visible (v : View) : List Entry := v.store.index.entries.filter (·.isVisible v.stamp)

/-- The quads that a view shows. -/
def statements (v : View) : List Statement := v.visible.filterMap v.store.dictionary.statement?

variable {v : View}

theorem mem_visible {e : Entry} :
    e ∈ v.visible ↔ e ∈ v.store.index.entries ∧ e.isVisible v.stamp = true :=
  List.mem_filter

/-- A look-up filters the visible entries. -/
theorem search_eq (hr : v.store.Readable) (shape : EncodedShape) (inferred : Bool) :
    v.store.index.search shape v.stamp inferred =
      v.visible.filter fun e => (inferred || e.explicit) && shape.covers e.quad := by
  rw [hr.indexed.search_eq, visible, List.filter_filter]
  rfl

theorem exists_statement? (hr : v.store.Readable) {e : Entry} (he : e ∈ v.visible) :
    ∃ st, v.store.dictionary.statement? e = some st := by
  obtain ⟨q, hq⟩ := hr.known e (mem_visible.1 he).1
  exact ⟨⟨q, e.explicit⟩, Dictionary.statement?_eq_some_iff.2 ⟨hq, rfl⟩⟩

/-- Some visible entries are as many as the quads that they stand for. -/
theorem length_filterMap_statement? (hr : v.store.Readable) {es : List Entry}
    (hes : ∀ e ∈ es, e ∈ v.visible) :
    (es.filterMap v.store.dictionary.statement?).length = es.length := by
  induction es with
  | nil => rfl
  | cons e rest ih =>
    obtain ⟨st, hst⟩ := exists_statement? hr (hes e List.mem_cons_self)
    rw [List.filterMap_cons_some hst, List.length_cons, List.length_cons,
      ih fun x hx => hes x (List.mem_cons_of_mem _ hx)]

theorem length_statements (hr : v.store.Readable) : v.statements.length = v.visible.length :=
  length_filterMap_statement? hr fun _ he => he

/-- The numbers of visible entries all resolve, to the quads that these stand for. -/
theorem mapM_resolveQuad (hr : v.store.Readable) {es : List Entry}
    (hes : ∀ e ∈ es, e ∈ v.visible) :
    (es.mapM fun e => v.store.dictionary.resolveQuad e.quad) =
      .ok ((es.filterMap v.store.dictionary.statement?).map (·.quad)) := by
  induction es with
  | nil => rfl
  | cons e rest ih =>
    obtain ⟨st, hst⟩ := exists_statement? hr (hes e List.mem_cons_self)
    rw [List.mapM_cons, (Dictionary.statement?_eq_some_iff.1 hst).1,
      ih fun x hx => hes x (List.mem_cons_of_mem _ hx), List.filterMap_cons_some hst]
    rfl

/-- A look-up of a shape finds the entries of the quads that the shape covers. -/
theorem filterMap_search (hr : v.store.Readable) {shape : QuadShape} {encoded : EncodedShape}
    (h : encodeShape? v.store.dictionary shape = some encoded) (inferred : Bool) :
    (v.store.index.search encoded v.stamp inferred).filterMap v.store.dictionary.statement? =
      v.statements.filter fun st => (inferred || st.explicit) && shape.covers st.quad := by
  rw [search_eq hr]
  refine List.filterMap_filter_comm ?_
  intro e _ st hst
  obtain ⟨hquad, hexplicit⟩ := Dictionary.statement?_eq_some_iff.1 hst
  rw [Dictionary.covers_encodeShape? h hquad, hexplicit]

/-- No quad is covered by a shape with a term that has no number. -/
theorem filter_of_encodeShape?_eq_none {shape : QuadShape}
    (h : encodeShape? v.store.dictionary shape = none) (inferred : Bool) :
    v.statements.filter (fun st => (inferred || st.explicit) && shape.covers st.quad) = [] := by
  rw [List.filter_eq_nil_iff]
  intro st hst hcovers
  obtain ⟨e, -, hst⟩ := List.mem_filterMap.1 hst
  have hquad := (Dictionary.statement?_eq_some_iff.1 hst).1
  rw [Dictionary.covers_of_encodeShape?_eq_none h hquad, Bool.and_false] at hcovers
  exact Bool.false_ne_true hcovers

/-! ## Reads -/

/-- The content of a view under some namespaces. -/
def content (v : View) (ns : Namespaces) : Content := ⟨v.statements, ns⟩

variable (ns : Namespaces)

theorem matching_eq (hr : v.store.Readable) (inferred : Bool) (shape : QuadShape) :
    v.matching inferred shape = (v.content ns).asked inferred shape := by
  unfold matching Content.asked
  show _ = (v.statements.filter _).map _
  cases hshape : encodeShape? v.store.dictionary shape with
  | none =>
    rw [filter_of_encodeShape?_eq_none hshape]
    rfl
  | some encoded =>
    rw [← filterMap_search hr hshape, List.map_filterMap]
    refine List.filterMap_congr ?_
    intro e _
    unfold Dictionary.statement?
    cases v.store.dictionary.resolveQuad e.quad <;> rfl

/-- An evaluation reads the quads that the view shows. -/
theorem dataset_eq (hr : v.store.Readable) (inferred : Bool) :
    v.dataset inferred = (v.content ns).dataset inferred := by
  have hmatching : v.matching inferred = fun shape =>
      (((v.content ns).statements.filter fun st => inferred || st.explicit).map (·.quad)).filter
        shape.covers := by
    funext shape
    rw [matching_eq ns hr, Content.asked, List.filter_map, List.filter_filter]
    congr 2
    funext st
    exact Bool.and_comm _ _
  unfold dataset Content.dataset
  rw [hmatching]
  rfl

theorem encodeShape?_eq_bind (d : Dictionary) (s? p? o? : Option Term) (graph : GraphShape) :
    encodeShape? d ⟨s?, p?, o?, graph⟩ = (shapeOf? d s? p? o?).bind fun encoded =>
      (graphNumber? d graph).map fun graph? => { encoded with graph? := graph? } := by
  unfold encodeShape?
  cases shapeOf? d s? p? o? <;> cases graphNumber? d graph <;> rfl

theorem graphNumber?_ofName (d : Dictionary) (g : GraphName) :
    graphNumber? d (.ofName g) = (d.lookupGraph? g).map some := by
  cases g <;> rfl

/-- The encoded shapes of a look-up are those of its shapes that have one. -/
theorem shapes_eq (d : Dictionary) (q : QuadQuery) :
    shapes d q = q.shapes.filterMap (encodeShape? d) := by
  unfold shapes QuadQuery.shapes
  cases hterms : shapeOf? d (q.subject?.map (·.toTerm)) (q.predicate?.map .iri) q.object? with
  | none =>
    dsimp only
    split
    · rw [List.filterMap_cons_none (by rw [encodeShape?_eq_bind, hterms]; rfl)]
      rfl
    · rw [List.filterMap_map, eq_comm, List.filterMap_eq_nil_iff]
      intro g _
      rw [Function.comp_apply, encodeShape?_eq_bind, hterms]
      rfl
  | some encoded =>
    obtain ⟨-, -, -, hgraph⟩ := Dictionary.shapeOf?_eq_some hterms
    dsimp only
    split
    · have hany : encodeShape? d
          ⟨q.subject?.map (·.toTerm), q.predicate?.map .iri, q.object?, .any⟩ = some encoded := by
        rw [encodeShape?_eq_bind, hterms, Option.bind_some, graphNumber?, ← hgraph]
        rfl
      rw [List.filterMap_cons_some hany]
      rfl
    · rw [List.filterMap_map, contextNumbers, ← List.filterMap_eraseDups, List.map_filterMap]
      · refine List.filterMap_congr ?_
        intro g _
        rw [Function.comp_apply, encodeShape?_eq_bind, hterms, Option.bind_some,
          graphNumber?_ofName, Option.map_map]
        rfl
      · intro g _ h _ id hg hh
        rw [Dictionary.lookupGraph?_eq_some_iff] at hg hh
        exact Except.ok.inj (hg.symm.trans hh)

/-- The look-ups of the encoded shapes find the entries of the quads asked for. -/
theorem filterMap_entries (hr : v.store.Readable) (q : QuadQuery) (inferred : Bool) :
    ((v.entries (shapes v.store.dictionary q) inferred).filterMap
      v.store.dictionary.statement?).map (·.quad) = (v.content ns).quads q inferred := by
  rw [shapes_eq, Content.quads, entries]
  induction q.shapes with
  | nil => rfl
  | cons shape rest ih =>
    rw [List.flatMap_cons, ← ih, Content.asked]
    show _ = (v.statements.filter _).map _ ++ _
    cases hshape : encodeShape? v.store.dictionary shape with
    | none =>
      rw [List.filterMap_cons_none hshape, filter_of_encodeShape?_eq_none hshape]
      rfl
    | some encoded =>
      rw [List.filterMap_cons_some hshape, List.flatMap_cons, List.filterMap_append,
        List.map_append, filterMap_search hr hshape]

theorem mem_entries (hr : v.store.Readable) {shapes : List EncodedShape} {inferred : Bool}
    {e : Entry} (he : e ∈ v.entries shapes inferred) : e ∈ v.visible := by
  obtain ⟨shape, -, he⟩ := List.mem_flatMap.1 he
  rw [search_eq hr] at he
  exact (List.mem_filter.1 he).1

/-- A look-up gives the quads asked for. -/
theorem quads_eq (hr : v.store.Readable) (q : QuadQuery) (inferred : Bool) :
    v.quads q inferred = .ok ((v.content ns).quads q inferred) := by
  rw [quads, mapM_resolveQuad hr fun e he => mem_entries hr he, filterMap_entries ns hr]

theorem count_eq (hr : v.store.Readable) (q : QuadQuery) (inferred : Bool) :
    v.count q inferred = ((v.content ns).quads q inferred).length := by
  rw [count, ← filterMap_entries ns hr, List.length_map,
    length_filterMap_statement? hr fun e he => mem_entries hr he]

/-- A look-up without restrictions finds all that is visible. -/
theorem search_all (hr : v.store.Readable) : v.store.index.search {} v.stamp true = v.visible := by
  rw [search_eq hr, List.filter_eq_self]
  intro e _
  simp [EncodedShape.covers, Role.all, EncodedShape.part?]

theorem size_eq (hr : v.store.Readable) : v.size = v.statements.length := by
  rw [size, count, length_statements hr, ← search_all hr]
  simp [shapes, shapeOf?, encodeTerm?, entries]

/-- A quad is found by its numbers exactly if it is one of those shown. -/
theorem contains_eq (hr : v.store.Readable) (q : Quad) :
    v.contains q = v.statements.any (·.quad == q) := by
  rw [Bool.eq_iff_iff, List.any_eq_true]
  unfold contains
  constructor
  · intro h
    split at h
    · simp at h
    · rename_i encoded hencoded
      rw [search_eq hr, Bool.not_eq_true', List.isEmpty_eq_false_iff_exists_mem] at h
      obtain ⟨e, he⟩ := h
      obtain ⟨hvisible, hcovers⟩ := List.mem_filter.1 he
      rw [Bool.true_or, Bool.true_and] at hcovers
      obtain ⟨st, hst⟩ := exists_statement? hr hvisible
      refine ⟨st, List.mem_filterMap.2 ⟨e, hvisible, hst⟩, ?_⟩
      have hall := EncodedShape.covers_eq_true_iff.1 hcovers
      have heq : e.quad = encoded := by
        rw [EncodedQuad.mk.injEq]
        exact ⟨hall .subject _ rfl, hall .predicate _ rfl, hall .object _ rfl, hall .graph _ rfl⟩
      have hquad := (Dictionary.statement?_eq_some_iff.1 hst).1
      rw [heq, Dictionary.lookupQuad?_eq_some_iff.1 hencoded] at hquad
      exact beq_iff_eq.2 (Except.ok.inj hquad).symm
  · rintro ⟨st, hmem, heq⟩
    obtain ⟨e, hvisible, hst⟩ := List.mem_filterMap.1 hmem
    have hquad := (Dictionary.statement?_eq_some_iff.1 hst).1
    rw [eq_of_beq heq, ← Dictionary.lookupQuad?_eq_some_iff] at hquad
    rw [hquad]
    dsimp only
    rw [search_eq hr, Bool.not_eq_true', List.isEmpty_eq_false_iff_exists_mem]
    refine ⟨e, List.mem_filter.2 ⟨hvisible, ?_⟩⟩
    simp [EncodedShape.covers, Role.all, EncodedShape.part?, EncodedQuad.part]

/-- The named graph with a number. -/
def namedGraph? (d : Dictionary) (id : TermId) : Option Resource :=
  if id = .defaultGraph then none else (d.resolveResource id).toOption

/-- The number of a named graph resolves to its name, and that of the default graph to none. -/
theorem namedGraph?_eq {d : Dictionary} {id : TermId} {g : GraphName}
    (h : d.resolveGraph id = .ok g) : namedGraph? d id = g.name? := by
  have hdefault := Dictionary.eq_iff_of_resolveGraph h
    (b := .defaultGraph) (h := .default) (by simp [Dictionary.resolveGraph])
  unfold namedGraph?
  cases g with
  | default =>
    rw [if_pos (hdefault.2 rfl)]
    rfl
  | iri i =>
    rw [if_neg fun heq => by simpa using hdefault.1 heq]
    have hterm := Dictionary.lookup?_eq_some_iff.1 (Dictionary.lookupGraph?_eq_some_iff.2 h)
    have hname : d.resolveResource id = .ok (.iri i) :=
      Dictionary.resolveResource_eq_ok_iff.2 hterm
    rw [hname]
    rfl
  | blank b =>
    rw [if_neg fun heq => by simpa using hdefault.1 heq]
    have hterm := Dictionary.lookup?_eq_some_iff.1 (Dictionary.lookupGraph?_eq_some_iff.2 h)
    have hname : d.resolveResource id = .ok (.blank b) :=
      Dictionary.resolveResource_eq_ok_iff.2 hterm
    rw [hname]
    rfl

/-- The named graphs among some that all resolve. -/
theorem mapM_resolveResource {d : Dictionary} {ids : List TermId}
    (hids : ∀ id ∈ ids, ∃ g, d.resolveGraph id = .ok g) :
    (ids.filter (· != .defaultGraph)).mapM d.resolveResource =
      .ok (ids.filterMap (namedGraph? d)) := by
  induction ids with
  | nil => rfl
  | cons id rest ih =>
    have hrest := ih fun x hx => hids x (List.mem_cons_of_mem _ hx)
    obtain ⟨g, hg⟩ := hids id List.mem_cons_self
    by_cases hid : id = .defaultGraph
    · rw [List.filter_cons_of_neg (by simpa using hid), hrest,
        List.filterMap_cons_none (by rw [namedGraph?, if_pos hid])]
    · have hname := namedGraph?_eq hg
      rw [namedGraph?, if_neg hid] at hname
      rw [List.filter_cons_of_pos (by simpa using hid), List.mapM_cons, hrest, List.filterMap_cons,
        namedGraph?, if_neg hid]
      cases hr : d.resolveResource id with
      | ok r => rfl
      | error c =>
        -- a graph that is not the default one has a name
        rw [hr] at hname
        cases g with
        | default =>
          rw [← Dictionary.lookupGraph?_eq_some_iff] at hg
          exact absurd (Option.some.inj hg).symm hid
        | iri i => simp [Except.toOption, GraphName.name?] at hname
        | blank b => simp [Except.toOption, GraphName.name?] at hname

/-- The named graphs that a view shows. -/
theorem contexts_eq (hr : v.store.Readable) : v.contexts = .ok (v.content ns).contexts := by
  have hgraph : ∀ e ∈ v.visible, ∃ g, v.store.dictionary.resolveGraph e.quad.graph = .ok g := by
    intro e he
    obtain ⟨q, hq⟩ := hr.known e (mem_visible.1 he).1
    exact ⟨q.graph, (Dictionary.resolveQuad_eq_ok_iff.1 hq).2.2.2⟩
  rw [contexts, search_all hr, mapM_resolveResource, List.filterMap_eraseDups, List.filterMap_map]
  · congr 2
    show _ = v.statements.filterMap _
    rw [statements, List.filterMap_filterMap]
    refine List.filterMap_congr ?_
    intro e he
    obtain ⟨st, hst⟩ := exists_statement? hr he
    have hquad := (Dictionary.statement?_eq_some_iff.1 hst).1
    rw [hst, Option.bind_some, Function.comp_apply,
      namedGraph?_eq (Dictionary.resolveQuad_eq_ok_iff.1 hquad).2.2.2]
  · intro a ha b hb r har hbr
    obtain ⟨e, he, rfl⟩ := List.mem_map.1 ha
    obtain ⟨f, hf, rfl⟩ := List.mem_map.1 hb
    obtain ⟨g, hg⟩ := hgraph e he
    obtain ⟨h, hh⟩ := hgraph f hf
    rw [namedGraph?_eq hg, GraphName.name?_eq_some_iff] at har
    rw [namedGraph?_eq hh, GraphName.name?_eq_some_iff] at hbr
    rw [Dictionary.eq_iff_of_resolveGraph hg hh, har, hbr]
  · intro id hid
    rw [List.mem_eraseDups] at hid
    obtain ⟨e, he, rfl⟩ := List.mem_map.1 hid
    exact hgraph e he

/-- A view answers every read from its content. -/
theorem readAt_eq (hr : v.store.Readable) {size : Nat} (hsize : size = v.statements.length)
    (read : Read) :
    Session.readAt v size ns read =
      (v.content ns).read v.stamp v.store.options.deadline read := by
  cases read with
  | number => rfl
  | quads q inferred limit? =>
    rw [Session.readAt, quads_eq ns hr]
    rfl
  | contains q =>
    rw [Session.readAt, contains_eq hr]
    rfl
  | size =>
    rw [Session.readAt, hsize]
    rfl
  | isEmpty =>
    rw [Session.readAt, hsize]
    show Answer.flag _ = .flag v.statements.isEmpty
    cases v.statements <;> rfl
  | count contexts inferred =>
    rw [Session.readAt, count_eq ns hr]
    rfl
  | contexts =>
    rw [Session.readAt, contexts_eq ns hr]
    rfl
  | namespaces => rfl
  | space label => rfl
  | evaluate pattern bindings inferred limit? =>
    rw [Session.readAt, Session.evaluate, dataset_eq ns hr]
    rfl
  | execute pattern bindings inferred limit? =>
    rw [Session.readAt, Session.evaluate, dataset_eq ns hr]
    rfl

end View
end QuadStore
