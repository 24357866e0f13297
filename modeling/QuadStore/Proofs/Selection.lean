import QuadStore.Proofs.Restoring
import QuadStore.Proofs.Visibility

/-!
# Selection

A look-up may read any of several lists of the index. `Session.Selects` says that the choice changes
no answer: a reader is answered as by one filter of all entries for each context asked for, whether
or not the terms asked for are known. `Session.Arises.selects` proves it of every session, and that
no quad is given twice while no reserved number is reached. At the number of a bound that is not
set, a quad is: `Session.read_removed_reserved`.
-/

namespace QuadStore

/-! ## What is asked for -/

namespace QuadQuery

/-- The contexts that are asked for one after the other: each of those mentioned, or else any. -/
def askedContexts (query : QuadQuery) : List (Option GraphName) :=
  if query.contexts.isEmpty then [none] else query.contexts.eraseDups.map some

/-- Whether a quad has the parts asked for and is in a context. -/
def admits (query : QuadQuery) (context? : Option GraphName) (q : Quad) : Bool :=
  query.subject?.all (· == q.subject) && query.predicate?.all (· == q.predicate) &&
    query.object?.all (· == q.object) && context?.all (· == q.graph)

/-- The shape of the quads in a context that have the parts asked for. -/
def shapeIn (query : QuadQuery) (context? : Option GraphName) : QuadShape :=
  ⟨query.subject?.map (·.toTerm), query.predicate?.map .iri, query.object?,
    context?.elim .any .ofName⟩

theorem shapes_eq_map (query : QuadQuery) :
    query.shapes = query.askedContexts.map query.shapeIn := by
  unfold shapes askedContexts
  dsimp only
  split
  · rfl
  · rw [List.map_map]
    rfl

/-- Asking for the term of a resource is asking for the resource. -/
theorem beq_toTerm (a b : Resource) : (a.toTerm == b.toTerm) = (a == b) := by
  rw [Bool.eq_iff_iff, beq_iff_eq, beq_iff_eq]
  cases a <;> cases b <;> simp [Resource.toTerm]

theorem covers_shapeIn (query : QuadQuery) (context? : Option GraphName) (q : Quad) :
    (query.shapeIn context?).covers q = query.admits context? q := by
  have hsubject : (query.subject?.map (·.toTerm)).all (· == q.subject.toTerm) =
      query.subject?.all (· == q.subject) := by
    cases query.subject? with
    | none => rfl
    | some r => exact beq_toTerm r q.subject
  have hpredicate : (query.predicate?.map Term.iri).all (· == .iri q.predicate) =
      query.predicate?.all (· == q.predicate) := by
    cases query.predicate? with
    | none => rfl
    | some i =>
      show (Term.iri i == Term.iri q.predicate) = (i == q.predicate)
      rw [Bool.eq_iff_iff, beq_iff_eq, beq_iff_eq, Term.iri.injEq]
  have hgraph : (context?.elim .any GraphShape.ofName).covers q.graph =
      context?.all (· == q.graph) := by
    cases context? with
    | none => rfl
    | some g =>
      show (GraphShape.ofName g).covers q.graph = (g == q.graph)
      rw [GraphShape.covers_ofName, Bool.beq_comm]
  unfold QuadShape.covers shapeIn admits
  dsimp only
  rw [hsubject, hpredicate, hgraph]

end QuadQuery

namespace View

variable {v : View}

/-- The quads that a look-up asks for: those of the visible ones that it admits, in their order, for
one context after the other. -/
def selected (v : View) (query : QuadQuery) (inferred : Bool) : List Quad :=
  query.askedContexts.flatMap fun context? =>
    (v.statements.filter fun st =>
      (inferred || st.explicit) && query.admits context? st.quad).map (·.quad)

theorem quads_content (ns : Namespaces) (query : QuadQuery) (inferred : Bool) :
    (v.content ns).quads query inferred = v.selected query inferred := by
  unfold Content.quads selected
  rw [query.shapes_eq_map, List.flatMap_map]
  refine List.flatMap_congr fun context? _ => ?_
  unfold Content.asked
  simp only [query.covers_shapeIn]
  rfl

/-- The visible entries stand for the visible quads, one by one. -/
theorem forall₂_statements (hr : v.store.Readable) :
    List.Forall₂ (fun e st => v.store.dictionary.resolveQuad e.quad = .ok st.quad ∧
      e.explicit = st.explicit) v.visible v.statements := by
  have hall : ∀ es : List Entry, (∀ e ∈ es, e ∈ v.visible) →
      List.Forall₂ (fun e st => v.store.dictionary.resolveQuad e.quad = .ok st.quad ∧
        e.explicit = st.explicit) es (es.filterMap v.store.dictionary.statement?) := by
    intro es hes
    induction es with
    | nil => exact .nil
    | cons e rest ih =>
      obtain ⟨st, hst⟩ := exists_statement? hr (hes e List.mem_cons_self)
      rw [List.filterMap_cons_some hst]
      exact .cons (Dictionary.statement?_eq_some_iff.1 hst)
        (ih fun x hx => hes x (List.mem_cons_of_mem _ hx))
  exact hall v.visible fun _ he => he

/-- Reading the list of any term asked for finds the same as reading the one that is chosen. -/
theorem found_listOf (hr : v.store.Readable) {shape : EncodedShape} {role : Role} {t : TermId}
    (hrole : shape.part? role = some t) (inferred : Bool) :
    v.store.index.found ⟨shape, v.stamp, inferred, v.store.index.listOf role t⟩ =
      v.store.index.search shape v.stamp inferred := by
  rw [hr.indexed.search_eq]
  exact hr.indexed.found_eq (hr.indexed.holds_listOf hrole)

/-- So does reading all entries. -/
theorem found_entries (hr : v.store.Readable) (shape : EncodedShape) (inferred : Bool) :
    v.store.index.found ⟨shape, v.stamp, inferred, v.store.index.entries.map (·.id)⟩ =
      v.store.index.search shape v.stamp inferred := by
  rw [hr.indexed.search_eq]
  refine hr.indexed.found_eq ⟨fun _ => true, ?_, fun _ _ _ => rfl⟩
  rw [List.filter_eq_self.2 fun _ _ => rfl]

end View

namespace Session

variable {session : Session}

/-- Whether a reader counts the inferred quads when it is asked to. A connection never does. -/
def countsInferred : Reader → Bool → Bool
  | .writer (.connection _), _ => false
  | _, inferred => inferred

theorem askedBy_count (r : Reader) (contexts : List GraphName) (inferred : Bool) :
    askedBy r (.count contexts inferred) = .count contexts (countsInferred r inferred) := by
  cases r with
  | snapshot name => rfl
  | writer w => cases w <;> rfl

/-! ## Answers -/

/-- A reader, who sees a view, is answered from the list of the visible quads alone. -/
structure Selects (session : Session) (r : Reader) (v : View) : Prop where
  /-- The visible entries are in the order in which they have been inserted. -/
  ordered : v.visible.Pairwise fun a b => a.id.number < b.id.number
  /-- They stand for the visible quads, one by one. -/
  resolved : List.Forall₂ (fun e st => v.store.dictionary.resolveQuad e.quad = .ok st.quad ∧
    e.explicit = st.explicit) v.visible v.statements
  /-- A look-up in the index is a filter of the visible entries. -/
  search : ∀ shape inferred, v.store.index.search shape v.stamp inferred =
    v.visible.filter fun e => (inferred || e.explicit) && shape.covers e.quad
  /-- It would find the same in the list of any term asked for, however long it is. -/
  lists : ∀ shape role t inferred, shape.part? role = some t →
    v.store.index.found ⟨shape, v.stamp, inferred, v.store.index.listOf role t⟩ =
      v.store.index.search shape v.stamp inferred
  /-- It would find the same among all entries. -/
  entries : ∀ shape inferred,
    v.store.index.found ⟨shape, v.stamp, inferred, v.store.index.entries.map (·.id)⟩ =
      v.store.index.search shape v.stamp inferred
  /-- A look-up of quads gives those asked for, or the first of them. -/
  quads : ∀ query inferred limit?, session.read r (.quads query inferred limit?) =
    .quads (limited limit? (v.selected query inferred))
  /-- A cursor over them gives them one by one. -/
  cursors : ∀ (snapshot : Snapshot) query inferred n, snapshot.stamp = v.stamp →
    (pullMany v.store (.quads (.ofQuery v.store.dictionary snapshot query inferred)) n).1 =
      drained ((v.selected query inferred).map .quad) n
  /-- The number of quads in some contexts is how many a look-up in them gives. -/
  count : ∀ contexts inferred, session.read r (.count contexts inferred) =
    .number (v.selected { contexts := contexts } (countsInferred r inferred)).length
  /-- A quad is there if it is one of the visible ones. -/
  contains : ∀ q, session.read r (.contains q) = .flag (decide (q ∈ v.statements.map (·.quad)))
  /-- The contexts are the named graphs of the visible quads, each once, where it comes first. -/
  contexts : session.read r .contexts =
    .contexts (v.statements.filterMap (·.quad.graph.name?)).eraseDups
  /-- No quad is visible twice, and no look-up gives one twice, while no reserved number is
  reached. -/
  distinct : session.Reachable → (v.statements.map (·.quad)).Nodup ∧
    ∀ query inferred, (v.selected query inferred).Nodup

/-- Whatever has been done to a store, no answer to a reader depends on the lists of the index. -/
theorem Arises.selects (h : session.Arises) {r : Reader} {v : View}
    (hv : session.view? r = some v) : session.Selects r v := by
  have hr := h.readable_view? hv
  obtain ⟨size, ns, hread⟩ : ∃ size ns, ∀ read,
      session.read r read = readAt v size ns (askedBy r read) := by
    rcases session.answers_cases r with ⟨hnone, -⟩ | ⟨w, size, ns, hw, hread⟩
    · exact absurd (hnone.symm.trans hv).symm (Option.some_ne_none v)
    · obtain rfl := Option.some.inj (hw.symm.trans hv)
      exact ⟨size, ns, hread⟩
  have hquads : ∀ query inferred, v.quads query inferred = .ok (v.selected query inferred) := by
    intro query inferred
    rw [View.quads_eq .empty hr, View.quads_content]
  constructor
  case ordered => exact hr.indexed.ordered.filter _
  case resolved => exact View.forall₂_statements hr
  case search => exact View.search_eq hr
  case lists =>
    intro shape role t inferred hrole
    exact View.found_listOf hr hrole inferred
  case entries => exact View.found_entries hr
  case quads =>
    intro query inferred limit?
    rw [hread, askedBy_eq r rfl, readAt, hquads]
    rfl
  case cursors =>
    intro snapshot query inferred n hstamp
    have hseen : (v.store.at snapshot.stamp).quads query inferred =
        .ok (v.selected query inferred) := by
      rw [hstamp]
      exact hquads query inferred
    exact ((OpenCursor.owes_ofQuery hr snapshot query inferred hseen).pullMany hr n).1
  case count =>
    intro contexts inferred
    rw [hread, askedBy_count, readAt, View.count_eq .empty hr, View.quads_content]
  case contains =>
    intro q
    rw [hread, askedBy_eq r rfl, readAt, View.contains_eq hr]
    refine congrArg Answer.flag ?_
    rw [Bool.eq_iff_iff, decide_eq_true_iff, List.any_eq_true, List.mem_map]
    simp only [beq_iff_eq]
  case contexts =>
    rw [hread, askedBy_eq r rfl, readAt, View.contexts_eq .empty hr]
    rfl
  case distinct =>
    intro hreachable
    have hnodup := hreachable.nodup_statements_view? hv
    refine ⟨hnodup, fun query inferred => ?_⟩
    rw [← View.quads_content .empty]
    exact Content.nodup_quads hnodup query inferred

/-- The transaction that has replaced a quad by an inferred one selects from what it sees. -/
theorem selects_replacing : ∃ v, replacing.Reachable ∧ replacing.Arises ∧
    replacing.view? (.writer .transaction) = some v ∧
      replacing.Selects (.writer .transaction) v ∧
        v.selected { subject? := some (.iri ⟨"s"⟩), contexts := [.iri ⟨"g"⟩, .default, .default] }
          true = [⟨.iri ⟨"s"⟩, ⟨"p"⟩, .iri ⟨"p"⟩, .default⟩] :=
  ⟨_, reachable_replacing, reachable_replacing.arises, rfl,
    reachable_replacing.arises.selects rfl, rfl⟩

/-! ## The reserved number -/

/-- The session whose journal removes a quad at the number of a bound that is not set, after a
transaction has inserted the quad again. -/
def reinserting : Session :=
  unbounded.after [.begin .transaction,
    .write .transaction (.insert ⟨.iri ⟨"s"⟩, ⟨"p"⟩, .iri ⟨"o"⟩, .default⟩ true)]

/-- There, the entry that has been removed is visible next to the one in its place. -/
theorem read_removed_reserved : ∃ v,
    reinserting.view? (.writer .transaction) = some v ∧
      reinserting.read (.writer .transaction) (.quads {} true none) =
        .quads [⟨.iri ⟨"s"⟩, ⟨"p"⟩, .iri ⟨"o"⟩, .default⟩,
          ⟨.iri ⟨"s"⟩, ⟨"p"⟩, .iri ⟨"o"⟩, .default⟩] ∧
        ¬(v.selected {} true).Nodup :=
  ⟨_, rfl, rfl, by decide⟩

end Session
end QuadStore
