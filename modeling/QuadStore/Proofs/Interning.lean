import QuadStore.Proofs.Dictionary
import QuadStore.Proofs.Lists
import QuadStore.Store.Interner

/-!
# Numbers in the order of first mention

The terms of a dictionary that has learnt some quads are those that the quads mention, in the order
in which each was first mentioned: `Dictionary.terms_learn`. An interner that has learnt the same
quads has the same numbers in its tables: `Interner.represents_learn`.
-/

namespace QuadStore

/-- The terms that a quad mentions, in the order in which they get their numbers. -/
def Quad.terms (q : Quad) : List Term :=
  q.subject.toTerm :: .iri q.predicate :: q.object :: q.graph.toTerm?.toList

/-- The terms that some quads mention, each once, in the order of first mention. -/
def Quad.mentioned (quads : List Quad) : List Term := (quads.flatMap Quad.terms).eraseDups

namespace Dictionary

/-! ## Terms that are added -/

section

variable {d : Dictionary} {t : Term} (h : t ∉ d.terms)

theorem within_append : d.Within (d.append t h) := List.prefix_append _ _

theorem size_append : (d.append t h).size = d.size + 1 := List.length_append

/-- The new term has the next number, and no other number changes its meaning. -/
theorem resolve_append (id : TermId) :
    (d.append t h).resolve id = if id = ⟨d.size + 1⟩ then .ok t else d.resolve id := by
  have hterms : ∀ n, (d.append t h).terms[n]? = if n = d.size then some t else d.terms[n]? := by
    intro n
    unfold append size
    dsimp only
    rw [List.getElem?_append]
    split_ifs with hold hnew hnew
    · omega
    · rfl
    · rw [hnew, Nat.sub_self, List.getElem?_cons_zero]
    · have hrest : [t].length ≤ n - d.terms.length := by
        rw [List.length_singleton]
        omega
      rw [List.getElem?_eq_none hrest, List.getElem?_eq_none (Nat.le_of_not_lt hold)]
  obtain ⟨_ | n⟩ := id
  · -- zero stands for no term, before and after
    rfl
  · unfold resolve
    dsimp only
    rw [hterms]
    simp only [TermId.mk.injEq, Nat.add_right_cancel_iff]
    split_ifs <;> rfl

/-- The new term is looked up at the next number, and every other one as before. -/
theorem lookup?_append (u : Term) :
    (d.append t h).lookup? u = if u = t then some ⟨d.size + 1⟩ else d.lookup? u := by
  split_ifs with hu
  · rw [hu, lookup?_eq_some_iff, resolve_append, if_pos rfl]
  · cases hold : d.lookup? u with
    | some id =>
      rw [lookup?_eq_some_iff] at hold ⊢
      exact (within_append h).resolve hold
    | none =>
      rw [lookup?_eq_none_iff] at hold ⊢
      intro hmem
      rcases List.mem_append.1 hmem with hmem | hmem
      · exact hold hmem
      · exact hu (List.mem_singleton.1 hmem)

end

/-! ## Terms that are known -/

/-- A term that has a number is not given another one. -/
theorem intern_of_lookup? {d : Dictionary} {t : Term} {id : TermId} (h : d.lookup? t = some id) :
    d.intern t = (id, d) := by
  unfold intern
  split
  · rename_i other hother
    rw [h] at hother
    rw [Option.some.inj hother]
  · rename_i hnone
    rw [h] at hnone
    exact absurd hnone (Option.some_ne_none _)

/-- A term that has none is given the next one. -/
theorem intern_of_lookup?_eq_none {d : Dictionary} {t : Term} (h : d.lookup? t = none) :
    d.intern t = (⟨d.size + 1⟩, d.append t (lookup?_eq_none_iff.1 h)) := by
  unfold intern
  split
  · rename_i other hother
    rw [h] at hother
    exact absurd hother (Option.some_ne_none _).symm
  · rfl

/-- A quad whose terms all have numbers adds nothing. -/
theorem internQuad_of_lookupQuad? {d : Dictionary} {q : Quad} {e : EncodedQuad}
    (h : d.lookupQuad? q = some e) : d.internQuad q = (e, d) := by
  obtain ⟨hs, hp, ho, hg⟩ := resolveQuad_eq_ok_iff.1 (lookupQuad?_eq_some_iff.1 h)
  rw [← lookup?_eq_some_iff] at hs hp ho
  rw [← lookupGraph?_eq_some_iff] at hg
  -- the default graph is no term, and has its number without the dictionary
  have hgraph : d.internGraph q.graph = (e.graph, d) := by
    unfold lookupGraph? at hg
    unfold internGraph
    split at hg
    · exact intern_of_lookup? hg
    · rw [Option.some.inj hg]
  unfold internQuad
  rw [intern_of_lookup? hs]
  dsimp only
  rw [intern_of_lookup? hp]
  dsimp only
  rw [intern_of_lookup? ho]
  dsimp only
  rw [hgraph]

/-! ## The order of the terms -/

/-- Gives numbers to the terms of some quads, one quad after the other. -/
def learn (d : Dictionary) (quads : List Quad) : Dictionary :=
  quads.foldl (fun d q => (d.internQuad q).2) d

theorem terms_intern (d : Dictionary) (t : Term) :
    (d.intern t).2.terms = (d.terms ++ [t]).eraseDups := by
  rw [List.eraseDups_concat d.nodup]
  cases hold : d.lookup? t with
  | some id =>
    have hmem : t ∈ d.terms := by
      by_contra hnot
      rw [lookup?_eq_none_iff.2 hnot] at hold
      exact Option.some_ne_none _ hold.symm
    rw [intern_of_lookup? hold, if_pos hmem]
  | none =>
    rw [intern_of_lookup?_eq_none hold, if_neg (lookup?_eq_none_iff.1 hold)]
    rfl

theorem terms_internGraph (d : Dictionary) (g : GraphName) :
    (d.internGraph g).2.terms = (d.terms ++ g.toTerm?.toList).eraseDups := by
  unfold internGraph
  split
  · rename_i t hg
    rw [hg]
    exact terms_intern d t
  · rename_i hg
    rw [hg, Option.toList_none, List.append_nil, List.eraseDups_of_nodup d.nodup]

/-- A quad adds those of its terms that are new. -/
theorem terms_internQuad (d : Dictionary) (q : Quad) :
    (d.internQuad q).2.terms = (d.terms ++ q.terms).eraseDups := by
  simp only [internQuad, Quad.terms]
  rw [terms_internGraph, terms_intern, terms_intern, terms_intern]
  simp only [List.eraseDups_eraseDups_append, List.append_assoc, List.cons_append,
    List.nil_append]

/-- Each new term is numbered when it is first mentioned. -/
theorem terms_learn (d : Dictionary) (quads : List Quad) :
    (d.learn quads).terms = (d.terms ++ quads.flatMap Quad.terms).eraseDups := by
  unfold learn
  induction quads generalizing d with
  | nil => rw [List.flatMap_nil, List.append_nil, List.eraseDups_of_nodup d.nodup, List.foldl_nil]
  | cons q rest ih =>
    rw [List.foldl_cons, ih, terms_internQuad, List.eraseDups_eraseDups_append,
      List.flatMap_cons, List.append_assoc]

/-- The numbers from one on stand for the terms in the order of first mention. -/
theorem resolve_learn_iff {quads : List Quad} {id : TermId} {t : Term} :
    (empty.learn quads).resolve id = .ok t ↔
      ∃ n, id = ⟨n + 1⟩ ∧ (Quad.mentioned quads)[n]? = some t := by
  rw [resolve_eq_ok_iff, terms_learn]
  rfl

theorem learn_append (d : Dictionary) (quads more : List Quad) :
    d.learn (quads ++ more) = (d.learn quads).learn more :=
  List.foldl_append

theorem within_learn (d : Dictionary) (quads : List Quad) : d.Within (d.learn quads) := by
  unfold learn
  induction quads generalizing d with
  | nil => exact .refl d
  | cons q rest ih => exact (within_internQuad d q).trans (ih _)

/-- The numbers by which a quad was encoded when it was learnt stand for it ever after. -/
theorem resolveQuad_learn (d : Dictionary) (before : List Quad) (q : Quad) (later : List Quad) :
    (d.learn (before ++ q :: later)).resolveQuad ((d.learn before).internQuad q).1 = .ok q := by
  rw [learn_append]
  have hkept := within_learn ((d.learn before).internQuad q).2 later
  exact hkept.resolveQuad (resolveQuad_internQuad _ q)

end Dictionary

/-! ## The tables of an interner -/

/-- Setting a new key adds one. -/
theorem Table.size_set_of_get?_eq_none {κ α : Type} [DecidableEq κ] {t : Table κ α} {k : κ}
    (h : t.get? k = none) (v : α) : (t.set k v).size = t.size + 1 := by
  have hk : k ∉ t.entries.map (·.1) := by
    intro hmem
    obtain ⟨⟨j, w⟩, hentry, rfl⟩ := List.mem_map.1 hmem
    rw [Table.get?_eq_some_iff.2 hentry] at h
    exact Option.some_ne_none _ h
  have hkeys := congrArg List.length (Table.map_fst_setIn k v t.entries)
  rw [if_neg hk, List.length_append, List.length_map, List.length_map] at hkeys
  exact hkeys

namespace Interner

theorem resolve_eq_ok_iff {i : Interner} {id : TermId} {c : Cell} :
    i.resolve id = .ok c ↔ i.cells.get? id = some c := by
  unfold resolve
  cases i.cells.get? id <;> simp

theorem resolve_congr {i j : Interner} {id : TermId} (h : i.cells.get? id = j.cells.get? id) :
    i.resolve id = j.resolve id := by
  unfold resolve
  rw [h]

/-- The tables and the counter of an interner are those of a dictionary. -/
structure Represents (i : Interner) (d : Dictionary) : Prop where
  next : i.next = d.size + 1
  numbers : ∀ t, i.lookup? t = d.lookup? t
  /-- A term stands beside its number and the value that is read off it. -/
  cells : ∀ id, i.resolve id = (d.resolve id).map fun t => ⟨.ofTerm t, some id⟩
  size : i.size = d.size

variable {i : Interner} {d : Dictionary}

theorem represents_empty : Represents .empty .empty where
  next := rfl
  numbers := fun _ => rfl
  cells := by
    rintro ⟨_ | n⟩
    · rfl
    · rfl
  size := rfl

/-- The first number after those of a dictionary stands for no term. -/
theorem Represents.cells_next (h : i.Represents d) : i.cells.get? ⟨i.next⟩ = none := by
  refine Option.eq_none_iff_forall_ne_some.2 fun c hc => ?_
  have hcell := h.cells ⟨i.next⟩
  rw [resolve_eq_ok_iff.2 hc] at hcell
  cases hterm : d.resolve ⟨i.next⟩ with
  | error fault =>
    rw [hterm] at hcell
    cases hcell
  | ok t =>
    -- a number that stands for a term is at most the size
    obtain ⟨n, hn, ht⟩ := Dictionary.resolve_eq_ok_iff.1 hterm
    have hsize : n < d.size := (List.getElem?_eq_some_iff.1 ht).1
    rw [h.next, TermId.mk.injEq] at hn
    omega

/-- A new term gets the same number, which stands for it in both tables. -/
theorem Represents.add (h : i.Represents d) {t : Term} (ht : t ∉ d.terms) :
    (i.add t).1 = ⟨d.size + 1⟩ ∧ (i.add t).2.Represents (d.append t ht) := by
  have hnext : (⟨i.next⟩ : TermId) = ⟨d.size + 1⟩ := congrArg TermId.mk h.next
  refine ⟨hnext, ?_, ?_, ?_, ?_⟩
  · rw [Dictionary.size_append, ← h.next]
    rfl
  · intro u
    rw [Dictionary.lookup?_append, ← h.numbers, ← hnext]
    exact Table.get?_set i.numbers t u _
  · intro id
    have hcell : (i.add t).2.cells.get? id =
        if id = ⟨i.next⟩ then some ⟨.ofTerm t, some ⟨i.next⟩⟩ else i.cells.get? id :=
      Table.get?_set i.cells ⟨i.next⟩ id _
    rw [Dictionary.resolve_append, ← hnext]
    split_ifs at hcell ⊢ with hid
    · rw [resolve_eq_ok_iff.2 hcell, hid]
      rfl
    · rw [resolve_congr hcell, h.cells]
  · show (i.cells.set ⟨i.next⟩ _).size = _
    rw [Table.size_set_of_get?_eq_none h.cells_next, Dictionary.size_append]
    exact congrArg (· + 1) h.size

theorem Represents.intern (h : i.Represents d) (t : Term) :
    (i.intern t).1 = (d.intern t).1 ∧ (i.intern t).2.Represents (d.intern t).2 := by
  unfold Interner.intern
  rw [h.numbers t]
  cases hold : d.lookup? t with
  | some id =>
    rw [Dictionary.intern_of_lookup? hold]
    exact ⟨rfl, h⟩
  | none =>
    rw [Dictionary.intern_of_lookup?_eq_none hold]
    exact h.add (Dictionary.lookup?_eq_none_iff.1 hold)

theorem Represents.internGraph (h : i.Represents d) (g : GraphName) :
    (i.internGraph g).1 = (d.internGraph g).1 ∧
      (i.internGraph g).2.Represents (d.internGraph g).2 := by
  unfold Interner.internGraph Dictionary.internGraph
  cases g.toTerm? with
  | none => exact ⟨rfl, h⟩
  | some t => exact h.intern t

/-- A quad is encoded by the same numbers. -/
theorem Represents.internQuad (h : i.Represents d) (q : Quad) :
    (i.internQuad q).1 = (d.internQuad q).1 ∧ (i.internQuad q).2.Represents (d.internQuad q).2 := by
  obtain ⟨hs, h⟩ := h.intern q.subject.toTerm
  obtain ⟨hp, h⟩ := h.intern (.iri q.predicate)
  obtain ⟨ho, h⟩ := h.intern q.object
  obtain ⟨hg, h⟩ := h.internGraph q.graph
  unfold Interner.internQuad Dictionary.internQuad
  dsimp only
  rw [hs, hp, ho, hg]
  exact ⟨rfl, h⟩

/-- An interner represents the dictionary that has learnt the same quads. -/
theorem Represents.learn (h : i.Represents d) (quads : List Quad) :
    (i.learn quads).Represents (d.learn quads) := by
  unfold Interner.learn Dictionary.learn
  induction quads generalizing i d with
  | nil => exact h
  | cons q rest ih => exact ih (h.internQuad q).2

theorem represents_learn (quads : List Quad) :
    (empty.learn quads).Represents (Dictionary.empty.learn quads) :=
  represents_empty.learn quads

/-! ### Reading -/

/-- Whatever is read in the tables of an interner is what a dictionary says, with the value of its
literal beside each term. -/
structure ReadsAs (i : Interner) (d : Dictionary) : Prop where
  term : ∀ id, i.term id = d.resolve id
  get? : ∀ t, i.get? t = (d.lookup? t).map fun id => ⟨.ofTerm t, some id⟩
  lookupGraph? : ∀ g, i.lookupGraph? g = d.lookupGraph? g
  lookupQuad? : ∀ q, i.lookupQuad? q = d.lookupQuad? q
  resolveGraph : ∀ id, i.resolveGraph id = d.resolveGraph id
  resolveQuad : ∀ e, i.resolveQuad e = d.resolveQuad e

namespace Represents

variable (h : i.Represents d)
include h

theorem term_eq (id : TermId) : i.term id = d.resolve id := by
  unfold Interner.term
  rw [h.cells]
  cases d.resolve id <;> rfl

theorem get?_eq (t : Term) : i.get? t = (d.lookup? t).map fun id => ⟨.ofTerm t, some id⟩ := by
  unfold Interner.get?
  rw [h.numbers]
  cases hid : d.lookup? t with
  | none => rfl
  | some id =>
    have hcell := h.cells id
    rw [Dictionary.lookup?_eq_some_iff.1 hid] at hcell
    rw [Option.bind_some, Option.map_some, resolve_eq_ok_iff.1 hcell]

theorem lookupGraph?_eq (g : GraphName) : i.lookupGraph? g = d.lookupGraph? g := by
  unfold Interner.lookupGraph? Dictionary.lookupGraph?
  cases g.toTerm? with
  | none => rfl
  | some t => exact h.numbers t

theorem lookupQuad?_eq (q : Quad) : i.lookupQuad? q = d.lookupQuad? q := by
  unfold Interner.lookupQuad? Dictionary.lookupQuad?
  rw [h.numbers, h.numbers, h.numbers, h.lookupGraph?_eq]

theorem resolveGraph_eq (id : TermId) : i.resolveGraph id = d.resolveGraph id := by
  unfold Interner.resolveGraph Dictionary.resolveGraph
  rewrite [h.term_eq]
  cases d.resolve id with
  | error c => rfl
  | ok t => cases t <;> rfl

theorem resolveQuad_eq (e : EncodedQuad) : i.resolveQuad e = d.resolveQuad e := by
  unfold Interner.resolveQuad Dictionary.resolveQuad Dictionary.resolveResource
    Dictionary.resolveIri
  rw [h.term_eq, h.term_eq, h.term_eq, h.resolveGraph_eq]
  cases d.resolve e.subject with
  | error c => rfl
  | ok s =>
    cases hs : s.toResource with
    | error fault => simp [hs, bind, Except.bind, Except.mapError, throw, throwThe,
        MonadExceptOf.throw]
    | ok subject =>
      cases d.resolve e.predicate with
      | error c => simp [hs, bind, Except.bind, Except.mapError, pure, Except.pure]
      | ok p =>
        cases hp : p.toIri <;> simp [hs, hp, bind, Except.bind, Except.mapError, pure, Except.pure,
          throw, throwThe, MonadExceptOf.throw]

theorem readsAs : i.ReadsAs d :=
  ⟨h.term_eq, h.get?_eq, h.lookupGraph?_eq, h.lookupQuad?_eq, h.resolveGraph_eq, h.resolveQuad_eq⟩

end Represents
end Interner
end QuadStore
