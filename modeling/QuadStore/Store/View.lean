import QuadStore.Store.Basic

/-!
# Views

A view is what a store shows at a stamp: at a snapshot, or within the open transaction. All its
reads are filters of the entries that are visible there, in the order of their insertion.
-/

namespace QuadStore

/-- What a look-up of quads asks for; without contexts, the graph may be any. -/
structure QuadQuery where
  subject? : Option Resource := none
  predicate? : Option Iri := none
  object? : Option Term := none
  contexts : List GraphName := []
deriving DecidableEq, Repr

/-- A store as it is at a stamp. -/
structure View where
  store : Store
  stamp : Nat

namespace View

/-! ## Shapes of look-ups -/

/-- The number of a term asked for: none is asked for, or there is none. -/
def encodeTerm? (d : Dictionary) : Option Term → Option (Option TermId)
  | none => some none
  | some t => (d.lookup? t).map some

/-- The shape of some terms in any graph, if they all have a number. -/
def shapeOf? (d : Dictionary) (subject? predicate? object? : Option Term) :
    Option EncodedShape := do
  return { subject? := ← encodeTerm? d subject?, predicate? := ← encodeTerm? d predicate?,
           object? := ← encodeTerm? d object? }

/-- The numbers of those contexts that have one, each once, in the order of first mention. -/
def contextNumbers (d : Dictionary) (contexts : List GraphName) : List TermId :=
  (contexts.filterMap d.lookupGraph?).eraseDups

/-- The shapes of the entries asked for, context by context. -/
def shapes (d : Dictionary) (q : QuadQuery) : List EncodedShape :=
  match shapeOf? d (q.subject?.map (·.toTerm)) (q.predicate?.map .iri) q.object? with
  | none => []
  | some shape =>
    if q.contexts.isEmpty then [shape]
    else (contextNumbers d q.contexts).map fun g => { shape with graph? := some g }

/-! ## Reads -/

/-- The visible entries of some shapes, one shape after the other. -/
def entries (v : View) (shapes : List EncodedShape) (inferred : Bool) : List Entry :=
  shapes.flatMap fun shape => v.store.index.search shape v.stamp inferred

/-- The quads asked for. -/
def quads (v : View) (q : QuadQuery) (inferred : Bool) : Except Corruption (List Quad) :=
  (v.entries (shapes v.store.dictionary q) inferred).mapM fun e =>
    v.store.dictionary.resolveQuad e.quad

/-- How many quads are asked for. -/
def count (v : View) (q : QuadQuery) (inferred : Bool) : Nat :=
  (v.entries (shapes v.store.dictionary q) inferred).length

/-- How many quads there are. -/
def size (v : View) : Nat := v.count {} true

/-- Whether there are no quads. -/
def isEmpty (v : View) : Bool := (v.store.index.search {} v.stamp true).isEmpty

/-- Whether a quad is there. -/
def contains (v : View) (q : Quad) : Bool :=
  match v.store.dictionary.lookupQuad? q with
  | none => false
  | some q =>
    !(v.store.index.search ⟨some q.subject, some q.predicate, some q.object, some q.graph⟩
        v.stamp true).isEmpty

/-- The named graphs with at least one quad, in the order of their first one. -/
def contexts (v : View) : Except Corruption (List Resource) :=
  let graphs := ((v.store.index.search {} v.stamp true).map (·.quad.graph)).eraseDups
  (graphs.filter (· != .defaultGraph)).mapM v.store.dictionary.resolveResource

/-! ## Evaluation -/

/-- The number of the graph that an evaluation asks for. -/
def graphNumber? (d : Dictionary) : GraphShape → Option (Option TermId)
  | .any => some none
  | .default => some (some .defaultGraph)
  | .named t => (d.lookup? t).map some

/-- The shape of encoded quads that stands for a shape of quads, if all terms asked for have a
number. -/
def encodeShape? (d : Dictionary) (shape : QuadShape) : Option EncodedShape :=
  match shapeOf? d shape.subject? shape.predicate? shape.object?, graphNumber? d shape.graph with
  | some encoded, some graph? => some { encoded with graph? := graph? }
  | _, _ => none

/-- The quads of a shape; a term without number is in no quad. -/
def matching (v : View) (inferred : Bool) (shape : QuadShape) : List Quad :=
  match encodeShape? v.store.dictionary shape with
  | some encoded =>
    (v.store.index.search encoded v.stamp inferred).filterMap fun e =>
      (v.store.dictionary.resolveQuad e.quad).toOption
  | none => []

/-- The dataset that an evaluation reads. -/
def dataset (v : View) (inferred : Bool) : Dataset := ⟨v.matching inferred⟩

end View

/-- The view of a snapshot. -/
def Store.at (s : Store) (stamp : Nat) : View := ⟨s, stamp⟩

/-- The view of the latest snapshot. -/
def Store.latest (s : Store) : View := s.at s.current

end QuadStore
