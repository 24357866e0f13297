import QuadStore.Store.Evaluator

/-!
# Plans

A plan evaluates a pattern over tuples, which hold their values by slot. The variables of a pattern
get their slots in a table that grows as the pattern is gone through; a projection has a table of
its own, and copies what its variables have from one table to the other.

A tuple holds terms together with their numbers in the dictionary, if they were found there. Two
numbers are compared in the place of the terms, and duplicates are looked for by a hash.
-/

namespace QuadStore

/-! ## Cells -/

/-- What stands in a slot: a datum, and the number of its term if it was found in the dictionary. -/
structure Cell where
  datum : Datum
  id? : Option TermId
deriving Repr

namespace Cell

/-- A computed datum, which has no number. -/
def computed (d : Datum) : Cell := ⟨d, none⟩

/-- Whether two cells have the same term, which their numbers tell if both have one. -/
def same (a b : Cell) : Bool :=
  match a.id?, b.id? with
  | some i, some j => i == j
  | _, _ => a.datum.same b.datum

/-- The operator `=`. -/
def equal? (a b : Cell) : Option Bool :=
  match a.datum.value?, b.datum.value? with
  | some v, some w => some (v.order? w == some .eq)
  | _, _ =>
    if a.same b then some true
    else if a.datum.literal?.isSome && b.datum.literal?.isSome then
      if a.datum.isKnownLiteral && b.datum.isKnownLiteral then some false else none
    else some false

/-- Whether a cell equals one of some candidates. -/
def among? (c : Cell) : List (Option Cell) → Option Bool
  | [] => some false
  | c? :: rest => Truth.or (c?.bind c.equal?) (c.among? rest)

end Cell

/-- An operator on the cells of two expressions. -/
def BinaryOp.combineCells? (op : BinaryOp) (a? b? : Option Cell) : Option Cell :=
  match op with
  | equal => a?.bind fun a => b?.bind fun b => (a.equal? b).map fun e => .computed (.ofBool e)
  | op => (op.combine? (a?.map (·.datum)) (b?.map (·.datum))).map .computed

/-- An operator on one cell, which a plus sign leaves as it is. -/
def UnaryOp.ofCell? (op : UnaryOp) (c : Cell) : Option Cell :=
  match op with
  | plus => if c.datum.value?.any Xsd.Value.isNumeric then some c else none
  | op => (op.of? c.datum).map .computed

/-! ## Tuples -/

/-- A row by slots. The slots at the end that have no value may be left out. -/
structure Tuple where
  cells : List (Option Cell)
deriving Repr

namespace Tuple

/-- The tuple without values. -/
def empty : Tuple := ⟨[]⟩

/-- What stands in a slot. -/
def get? (t : Tuple) (slot : Nat) : Option Cell := t.cells[slot]?.join

/-- Puts a cell into a slot. -/
def set (t : Tuple) (slot : Nat) (c : Cell) : Tuple :=
  ⟨(t.cells ++ List.replicate (slot + 1 - t.cells.length) none).set slot (some c)⟩

/-- The slots up to the last one that has a value. -/
def boundPrefix (t : Tuple) : List (Option Cell) :=
  (t.cells.reverse.dropWhile Option.isNone).reverse

/-- Whether two slots have the same term, or none. -/
def sameSlot : Option Cell → Option Cell → Bool
  | some a, some b => a.same b
  | none, none => true
  | _, _ => false

/-- Whether two tuples have the same terms in the same slots. -/
def same (a b : Tuple) : Bool := a.boundPrefix.isEqv b.boundPrefix sameSlot

/-- What the hash of a tuple is made of. -/
def key (t : Tuple) : List (Option Term) := t.boundPrefix.map fun c? => c?.map (·.datum.term)

/-- Puts a cell into a slot. A slot that has a value has to have the same term. -/
def bind? (t : Tuple) (slot : Nat) (c : Cell) : Option Tuple :=
  match t.get? slot with
  | some old => if old.same c then some t else none
  | none => some (t.set slot c)

/-- Puts a cell into a slot, if there is one. -/
def bindAny? (t : Tuple) (slot : Nat) (c? : Option Cell) : Option Tuple :=
  match c? with
  | some c => t.bind? slot c
  | none => some t

/-- The values of some slots in the slots that are theirs in another table. -/
def enter (t : Tuple) (mapping : List (Nat × Nat)) : Tuple :=
  mapping.foldl (fun input (inner, outer) =>
    match t.get? outer with
    | some c => input.set inner c
    | none => input) empty

/-- The values that a tuple of another table has for some slots, added to those of the tuple. -/
def leave? (t : Tuple) (mapping : List (Nat × Nat)) (inside : Tuple) : Option Tuple :=
  mapping.foldlM (fun t (inner, outer) => t.bindAny? outer (inside.get? inner)) t

/-- The first tuples of each class of equal ones, apart from those equal to one already seen. A
tuple is compared with those that have the same hash. -/
def distinctFrom (hash : List (Option Term) → UInt64) (seen : List Tuple) : List Tuple → List Tuple
  | [] => []
  | t :: rest =>
    if seen.any fun other => hash other.key == hash t.key && other.same t then
      distinctFrom hash seen rest
    else t :: distinctFrom hash (t :: seen) rest

/-- The tuples in the order of their keys; tuples that are level stay as they were. -/
def sort (directions : List Direction) (keys : Tuple → List (Option Cell)) (ts : List Tuple) :
    List Tuple :=
  let keyed := ts.map fun t => ((keys t).map fun c? => c?.map (·.datum), t)
  (keyed.mergeSort fun a b => Row.keysOrder directions a.1 b.1 != .gt).map (·.2)

/-- The tuples after the first `start`, at most `length?` of them. -/
def slice (start : Nat) (length? : Option Nat) (ts : List Tuple) : List Tuple :=
  let rest := ts.drop start
  match length? with
  | some n => rest.take n
  | none => rest

end Tuple

/-! ## Tables of slots -/

/-- The variables that have a slot, in the order of the slots. Of several slots, the first one is
the variable's. -/
abbrev Slots := List Variable

namespace Slots

/-- The slot of a variable, which gets a new one if it has none, and the table then. -/
def place (slots : Slots) (v : Variable) : Nat × Slots :=
  match slots.idxOf? v with
  | some slot => (slot, slots)
  | none => (slots.length, slots ++ [v])

/-- The slots of some variables, each beside its number among them, counted from `first`. -/
def mapping (slots : Slots) (first : Nat) : List Variable → List (Nat × Nat) × Slots
  | [] => ([], slots)
  | v :: vs =>
    let placed := slots.place v
    let rest := mapping placed.2 (first + 1) vs
    ((first, placed.1) :: rest.1, rest.2)

end Slots

/-- What a tuple is made into, and the table of slots then. -/
structure Plan (α : Type) where
  run : Tuple → α
  slots : Slots

/-! ## Quad patterns -/

/-- What plans are made for: a reading, and a hash by which duplicates are looked for. -/
structure Planner where
  reading : Reading
  hash : List (Option Term) → UInt64

namespace Planner

/-- The dictionary of the store that is read. -/
def dictionary (pl : Planner) : Dictionary := pl.reading.view.store.dictionary

/-- A given term, with its number if it has one. -/
def constant (pl : Planner) (t : Term) : Cell := ⟨.ofTerm t, pl.dictionary.lookup? t⟩

/-- The number by which a cell is looked for. -/
def number? (pl : Planner) (c : Cell) : Option TermId :=
  c.id?.or (pl.dictionary.lookup? c.datum.term)

/-- The term with a number. -/
def resolve? (pl : Planner) (id : TermId) : Option Cell :=
  (pl.dictionary.resolve id).toOption.map fun t => ⟨.ofTerm t, some id⟩

end Planner

/-- What a position of a quad pattern selects. -/
inductive Selector where
  | any
  | defaultGraph
  | constant (c : Cell)
  | slot (slot : Nat)
deriving Repr

/-- What a position has to be for a tuple: it has a number, or it fills a slot, or it may be any. -/
structure Sought where
  id? : Option TermId
  output? : Option Nat
deriving Repr

/-- What a position has to be for a tuple; a term without number is in no quad. -/
def Selector.sought? (pl : Planner) (t : Tuple) : Selector → Option Sought
  | any => some ⟨none, none⟩
  | defaultGraph => some ⟨some .defaultGraph, none⟩
  | constant c => (pl.number? c).map fun id => ⟨some id, none⟩
  | slot i =>
    match t.get? i with
    | some c => (pl.number? c).map fun id => ⟨some id, none⟩
    | none => some ⟨none, some i⟩

/-- Fills a slot with the term of a number. A slot that has been filled has to have this number. -/
def Planner.fill? (pl : Planner) (t : Tuple) (output? : Option Nat) (id : TermId) : Option Tuple :=
  match output? with
  | none => some t
  | some slot =>
    match t.get? slot with
    | some c => if c.id? = some id then some t else none
    | none => (pl.resolve? id).map (t.set slot)

/-- What the positions of a quad pattern have to be for a tuple. -/
structure QuadSought where
  subject : Sought
  predicate : Sought
  object : Sought
  graph : Sought
deriving Repr

namespace QuadSought

/-- The quads to be looked up. -/
def shape (sought : QuadSought) : EncodedShape :=
  ⟨sought.subject.id?, sought.predicate.id?, sought.object.id?, sought.graph.id?⟩

/-- The tuple extended by a quad. A slot of the graph is only filled with named graphs. -/
def fill? (pl : Planner) (sought : QuadSought) (t : Tuple) (q : EncodedQuad) : Option Tuple :=
  if sought.graph.output?.isSome && q.graph == .defaultGraph then none
  else do
    let t ← pl.fill? t sought.subject.output? q.subject
    let t ← pl.fill? t sought.predicate.output? q.predicate
    let t ← pl.fill? t sought.object.output? q.object
    pl.fill? t sought.graph.output? q.graph

end QuadSought

/-- The selectors of a quad pattern. -/
structure QuadSelector where
  subject : Selector
  predicate : Selector
  object : Selector
  graph : Selector
deriving Repr

namespace QuadSelector

/-- What the positions have to be for a tuple, unless there is no such quad. -/
def sought? (pl : Planner) (selector : QuadSelector) (t : Tuple) : Option QuadSought := do
  return ⟨← selector.subject.sought? pl t, ← selector.predicate.sought? pl t,
    ← selector.object.sought? pl t, ← selector.graph.sought? pl t⟩

/-- The tuples that extend a tuple, one for each quad that is found. -/
def tuples (pl : Planner) (selector : QuadSelector) (t : Tuple) : List Tuple :=
  match selector.sought? pl t with
  | some sought =>
    let view := pl.reading.view
    (view.store.index.search sought.shape view.stamp pl.reading.inferred).filterMap fun e =>
      sought.fill? pl t e.quad
  | none => []

end QuadSelector

/-- The selector of a position. -/
def Position.selector {α : Type} (pl : Planner) (toTerm : α → Term) (slots : Slots) :
    Position α → Selector × Slots
  | given a => (.constant (pl.constant (toTerm a)), slots)
  | var v => (.slot (slots.place v).1, (slots.place v).2)

/-- The selector of a graph position. -/
def GraphPosition.selector (pl : Planner) (slots : Slots) : GraphPosition → Selector × Slots
  | any => (.any, slots)
  | default => (.defaultGraph, slots)
  | given name => (.constant (pl.constant name.toTerm), slots)
  | var v => (.slot (slots.place v).1, (slots.place v).2)

/-- The selectors of a quad pattern, and the table of slots then. -/
def QuadPattern.selector (pl : Planner) (p : QuadPattern) (slots : Slots) : QuadSelector × Slots :=
  let s := p.subject.selector pl id slots
  let r := p.predicate.selector pl .iri s.2
  let o := p.object.selector pl id r.2
  let g := p.graph.selector pl o.2
  (⟨s.1, r.1, o.1, g.1⟩, g.2)

/-- The plan of a quad pattern. A literal is the subject of no quad. -/
def QuadPattern.plan (pl : Planner) (p : QuadPattern) (slots : Slots) : Plan (List Tuple) :=
  match p.subject with
  | .given (.literal _) => ⟨fun _ => [], slots⟩
  | _ =>
    let selector := p.selector pl slots
    ⟨selector.1.tuples pl, selector.2⟩

/-! ## Patterns and expressions -/

/-- Whether a condition is true for a tuple. -/
def Tuple.satisfies (t : Tuple) (condition : Tuple → Option Cell) : Bool :=
  Datum.truthOf? ((condition t).map (·.datum)) == some true

mutual

/-- The plan of an expression. -/
def Expression.plan (pl : Planner) : Expression → Slots → Plan (Option Cell)
  | .iri i, slots => ⟨fun _ => some (pl.constant (.iri i)), slots⟩
  | .literal l, slots => ⟨fun _ => some (pl.constant (.literal l)), slots⟩
  | .var v, slots => ⟨fun t => t.get? (slots.place v).1, (slots.place v).2⟩
  | .binary op a b, slots =>
    let f := a.plan pl slots
    let g := b.plan pl f.slots
    ⟨fun t => op.combineCells? (f.run t) (g.run t), g.slots⟩
  | .oneOf needle candidates, slots =>
    let f := needle.plan pl slots
    let g := Expression.planEach pl candidates f.slots
    ⟨fun t => (f.run t).bind fun c => (c.among? (g.run t)).map fun e => .computed (.ofBool e),
      g.slots⟩
  | .unary op operand, slots =>
    let f := operand.plan pl slots
    ⟨fun t => (f.run t).bind op.ofCell?, f.slots⟩
  | .exists pattern, slots =>
    let f := pattern.plan pl slots
    ⟨fun t => some (.computed (.ofBool !(f.run t).isEmpty)), f.slots⟩
  | .bound v, slots =>
    ⟨fun t => some (.computed (.ofBool (t.get? (slots.place v).1).isSome)), (slots.place v).2⟩
  | .ifThenElse condition yes no, slots =>
    let c := condition.plan pl slots
    let f := yes.plan pl c.slots
    let g := no.plan pl f.slots
    ⟨fun t =>
      match Datum.truthOf? ((c.run t).map (·.datum)) with
      | some true => f.run t
      | some false => g.run t
      | none => none, g.slots⟩
  | .coalesce choices, slots =>
    let f := Expression.planEach pl choices slots
    ⟨fun t => (f.run t).findSome? id, f.slots⟩
  | .call function arguments, slots =>
    let f := Expression.planEach pl arguments slots
    ⟨fun t => ((f.run t).mapM id).bind fun cs =>
      (function.evaluate? (cs.map (·.datum))).map .computed, f.slots⟩

/-- The plan of some expressions. -/
def Expression.planEach (pl : Planner) : List Expression → Slots → Plan (List (Option Cell))
  | [], slots => ⟨fun _ => [], slots⟩
  | e :: rest, slots =>
    let f := e.plan pl slots
    let g := Expression.planEach pl rest f.slots
    ⟨fun t => f.run t :: g.run t, g.slots⟩

/-- The plan of some sort keys. -/
def Expression.planKeys (pl : Planner) :
    List (Direction × Expression) → Slots → Plan (List (Option Cell))
  | [], slots => ⟨fun _ => [], slots⟩
  | (_, e) :: rest, slots =>
    let f := e.plan pl slots
    let g := Expression.planKeys pl rest f.slots
    ⟨fun t => f.run t :: g.run t, g.slots⟩

/-- The plan of a condition, which is true if there is none. -/
def Expression.planCondition (pl : Planner) : Option Expression → Slots → Plan Bool
  | none, slots => ⟨fun _ => true, slots⟩
  | some condition, slots =>
    let f := condition.plan pl slots
    ⟨fun t => t.satisfies f.run, f.slots⟩

/-- The plan of a pattern without faults. -/
def GraphPattern.plan (pl : Planner) : GraphPattern → Slots → Plan (List Tuple)
  | .quad pattern, slots => pattern.plan pl slots
  | .join left right, slots =>
    let f := left.plan pl slots
    let g := right.plan pl f.slots
    ⟨fun t => (f.run t).flatMap g.run, g.slots⟩
  | .leftJoin left right condition?, slots =>
    let f := left.plan pl slots
    let g := right.plan pl f.slots
    let c := Expression.planCondition pl condition? g.slots
    ⟨fun t => (f.run t).flatMap fun l =>
      match (g.run l).filter c.run with
      | [] => [l]
      | extended => extended, c.slots⟩
  | .filter condition inner, slots =>
    let f := inner.plan pl slots
    let c := condition.plan pl f.slots
    ⟨fun t => (f.run t).filter (·.satisfies c.run), c.slots⟩
  | .union left right, slots =>
    let f := left.plan pl slots
    let g := right.plan pl f.slots
    ⟨fun t => f.run t ++ g.run t, g.slots⟩
  | .extend inner v value, slots =>
    let f := inner.plan pl slots
    let placed := f.slots.place v
    let c := value.plan pl placed.2
    ⟨fun t => (f.run t).filterMap fun u => u.bindAny? placed.1 (c.run u), c.slots⟩
  | .distinct inner, slots =>
    let f := inner.plan pl slots
    ⟨fun t => Tuple.distinctFrom pl.hash [] (f.run t), f.slots⟩
  | .orderBy inner keys, slots =>
    let f := inner.plan pl slots
    let k := Expression.planKeys pl keys f.slots
    ⟨fun t => Tuple.sort (keys.map (·.1)) k.run (f.run t), k.slots⟩
  | .slice inner start length?, slots =>
    let f := inner.plan pl slots
    ⟨fun t => Tuple.slice start length? (f.run t), f.slots⟩
  | .project inner vs, slots =>
    -- what the table of the projection comes to is of no use outside
    let f := inner.plan pl vs
    let mapping := slots.mapping 0 vs
    ⟨fun t => (f.run (t.enter mapping.1)).filterMap (t.leave? mapping.1), mapping.2⟩

end

/-! ## Evaluations -/

namespace GraphPattern

/-- The tuple that an evaluation begins with: the values given for the columns. -/
def startTuple (pl : Planner) (p : GraphPattern) (bindings : BindingSet) : Tuple :=
  bindings.toList.foldl (fun t (v, x) =>
    match p.columns.idxOf? v with
    | some slot => t.set slot (pl.constant x)
    | none => t) .empty

/-- The rows that an evaluation gives by its plan. The columns have the first slots. -/
def plannedRows (pl : Planner) (p : GraphPattern) (bindings : BindingSet) : List BindingSet :=
  ((p.plan pl p.columns).run (p.startTuple pl bindings)).map fun t =>
    ⟨p.columns, (List.range p.columns.length).map fun slot => (t.get? slot).map (·.datum.term)⟩

end GraphPattern
end QuadStore
