import Mathlib
import QuadStore.Store.Dictionary

/-!
# Numbers of terms

A dictionary looks up and resolves in step: a term has a number exactly if the number resolves to
the term, and the same holds of graphs and of quads. `Dictionary.Within` says that one dictionary
has grown out of another; whatever has a number keeps it.
-/

namespace QuadStore
namespace Dictionary

/-- One dictionary begins with the terms of another. -/
def Within (d d' : Dictionary) : Prop := d.terms <+: d'.terms

theorem Within.refl (d : Dictionary) : d.Within d := List.prefix_refl _

theorem Within.trans {a b c : Dictionary} (hab : a.Within b) (hbc : b.Within c) : a.Within c :=
  List.IsPrefix.trans hab hbc

/-! ## Terms -/

/-- A number resolves to a term exactly if the term is the one before this number in the list. -/
theorem resolve_eq_ok_iff {d : Dictionary} {id : TermId} {t : Term} :
    d.resolve id = .ok t ↔ ∃ n, id = ⟨n + 1⟩ ∧ d.terms[n]? = some t := by
  obtain ⟨number⟩ := id
  cases number with
  | zero => simp [resolve]
  | succ n =>
    simp only [resolve, TermId.mk.injEq, Nat.add_right_cancel_iff, exists_eq_left']
    cases d.terms[n]? <;> simp

/-- A term has a number exactly if the number resolves to it. -/
theorem lookup?_eq_some_iff {d : Dictionary} {t : Term} {id : TermId} :
    d.lookup? t = some id ↔ d.resolve id = .ok t := by
  rw [resolve_eq_ok_iff, lookup?, Option.map_eq_some_iff]
  constructor
  · rintro ⟨n, hn, rfl⟩
    obtain ⟨hlt, heq, -⟩ := List.idxOf?_eq_some_iff.1 hn
    exact ⟨n, rfl, by rw [List.getElem?_eq_getElem hlt, heq]⟩
  · rintro ⟨n, rfl, hn⟩
    obtain ⟨hlt, heq⟩ := List.getElem?_eq_some_iff.1 hn
    refine ⟨n, List.idxOf?_eq_some_iff.2 ⟨hlt, by simp [heq], ?_⟩, rfl⟩
    -- the term stands nowhere else
    intro j hj hjt
    rw [← heq] at hjt
    have := (List.Nodup.getElem_inj_iff d.nodup).1 hjt
    omega

/-- The default graph's number is no term's. -/
theorem resolve_defaultGraph (d : Dictionary) (t : Term) :
    d.resolve .defaultGraph ≠ .ok t := by
  intro h
  obtain ⟨n, hn, -⟩ := resolve_eq_ok_iff.1 h
  simp [TermId.defaultGraph] at hn

/-- A number that resolves resolves to the same term ever after. -/
theorem Within.resolve {d d' : Dictionary} (h : d.Within d') {id : TermId} {t : Term}
    (hr : d.resolve id = .ok t) : d'.resolve id = .ok t := by
  obtain ⟨n, rfl, hn⟩ := resolve_eq_ok_iff.1 hr
  obtain ⟨more, hmore⟩ := h
  refine resolve_eq_ok_iff.2 ⟨n, rfl, ?_⟩
  rw [← hmore, List.getElem?_append_left (List.getElem?_eq_some_iff.1 hn).1, hn]

/-- Giving a number only adds to the dictionary. -/
theorem within_intern (d : Dictionary) (t : Term) : d.Within (d.intern t).2 := by
  unfold intern
  split
  · exact .refl d
  · exact List.prefix_append _ _

/-- The number given to a term resolves to it. -/
theorem resolve_intern (d : Dictionary) (t : Term) :
    (d.intern t).2.resolve (d.intern t).1 = .ok t := by
  unfold intern
  split
  · rename_i id h
    exact lookup?_eq_some_iff.1 h
  · rw [resolve_eq_ok_iff]
    exact ⟨d.size, rfl, by simp [append, size]⟩

/-! ## Graphs -/

/-- A graph has a number exactly if the number resolves to it. -/
theorem lookupGraph?_eq_some_iff {d : Dictionary} {g : GraphName} {id : TermId} :
    d.lookupGraph? g = some id ↔ d.resolveGraph id = .ok g := by
  unfold lookupGraph? resolveGraph
  by_cases hid : id = .defaultGraph
  · subst hid
    cases g <;> simp [GraphName.toTerm?, lookup?_eq_some_iff, resolve_defaultGraph]
  · rw [if_neg hid]
    cases g with
    | default =>
      have hne : TermId.defaultGraph ≠ id := fun h => hid h.symm
      simp only [GraphName.toTerm?, Option.some.injEq, hne, false_iff]
      split <;> simp
    | iri i =>
      simp only [GraphName.toTerm?, lookup?_eq_some_iff]
      split <;> simp_all
    | blank b =>
      simp only [GraphName.toTerm?, lookup?_eq_some_iff]
      split <;> simp_all

theorem within_internGraph (d : Dictionary) (g : GraphName) : d.Within (d.internGraph g).2 := by
  unfold internGraph
  split
  · exact within_intern d _
  · exact .refl d

/-- The number given to a graph resolves to it. -/
theorem resolveGraph_internGraph (d : Dictionary) (g : GraphName) :
    (d.internGraph g).2.resolveGraph (d.internGraph g).1 = .ok g := by
  rw [← lookupGraph?_eq_some_iff]
  cases g with
  | default => rfl
  | iri i => exact lookup?_eq_some_iff.2 (resolve_intern d _)
  | blank b => exact lookup?_eq_some_iff.2 (resolve_intern d _)

theorem Within.resolveGraph {d d' : Dictionary} (h : d.Within d') {id : TermId} {g : GraphName}
    (hr : d.resolveGraph id = .ok g) : d'.resolveGraph id = .ok g := by
  rw [← lookupGraph?_eq_some_iff] at hr ⊢
  cases g with
  | default => exact hr
  | iri i => exact lookup?_eq_some_iff.2 (h.resolve (lookup?_eq_some_iff.1 hr))
  | blank b => exact lookup?_eq_some_iff.2 (h.resolve (lookup?_eq_some_iff.1 hr))

/-! ## Quads -/

theorem resolveResource_eq_ok_iff {d : Dictionary} {id : TermId} {r : Resource} :
    d.resolveResource id = .ok r ↔ d.resolve id = .ok r.toTerm := by
  unfold resolveResource
  cases d.resolve id with
  | error c => simp [bind, Except.bind]
  | ok t => cases t <;> cases r <;> simp [bind, Except.bind, Term.toResource, Resource.toTerm,
      pure, Except.pure, throw, throwThe, MonadExceptOf.throw]

theorem resolveIri_eq_ok_iff {d : Dictionary} {id : TermId} {i : Iri} :
    d.resolveIri id = .ok i ↔ d.resolve id = .ok (.iri i) := by
  unfold resolveIri
  cases d.resolve id with
  | error c => simp [bind, Except.bind]
  | ok t => cases t <;> simp [bind, Except.bind, Term.toIri, pure, Except.pure, throw, throwThe,
      MonadExceptOf.throw]

/-- Numbers resolve to a quad exactly if each resolves to the part that it stands for. -/
theorem resolveQuad_eq_ok_iff {d : Dictionary} {e : EncodedQuad} {q : Quad} :
    d.resolveQuad e = .ok q ↔
      d.resolve e.subject = .ok q.subject.toTerm ∧ d.resolve e.predicate = .ok (.iri q.predicate) ∧
        d.resolve e.object = .ok q.object ∧ d.resolveGraph e.graph = .ok q.graph := by
  obtain ⟨s, p, o, g⟩ := q
  rw [← resolveResource_eq_ok_iff, ← resolveIri_eq_ok_iff]
  unfold resolveQuad
  cases d.resolveResource e.subject <;> cases d.resolveIri e.predicate <;>
    cases d.resolve e.object <;> cases d.resolveGraph e.graph <;>
    simp [bind, Except.bind, pure, Except.pure]

/-- A quad has numbers exactly if these resolve to it. -/
theorem lookupQuad?_eq_some_iff {d : Dictionary} {q : Quad} {e : EncodedQuad} :
    d.lookupQuad? q = some e ↔ d.resolveQuad e = .ok q := by
  obtain ⟨s, p, o, g⟩ := e
  rw [resolveQuad_eq_ok_iff, ← lookup?_eq_some_iff, ← lookup?_eq_some_iff, ← lookup?_eq_some_iff,
    ← lookupGraph?_eq_some_iff]
  unfold lookupQuad?
  cases d.lookup? q.subject.toTerm <;> cases d.lookup? (.iri q.predicate) <;>
    cases d.lookup? q.object <;> cases d.lookupGraph? q.graph <;>
    simp [bind, Option.bind, pure]

/-- Different numbers do not resolve to one quad. -/
theorem resolveQuad_inj {d : Dictionary} {a b : EncodedQuad} {q : Quad}
    (ha : d.resolveQuad a = .ok q) (hb : d.resolveQuad b = .ok q) : a = b := by
  rw [← lookupQuad?_eq_some_iff] at ha hb
  exact Option.some.inj (ha.symm.trans hb)

theorem Within.resolveQuad {d d' : Dictionary} (h : d.Within d') {e : EncodedQuad} {q : Quad}
    (hr : d.resolveQuad e = .ok q) : d'.resolveQuad e = .ok q := by
  rw [resolveQuad_eq_ok_iff] at hr ⊢
  obtain ⟨hs, hp, ho, hg⟩ := hr
  exact ⟨h.resolve hs, h.resolve hp, h.resolve ho, h.resolveGraph hg⟩

theorem within_internQuad (d : Dictionary) (q : Quad) : d.Within (d.internQuad q).2 :=
  (within_intern d _).trans <| (within_intern _ _).trans <|
    (within_intern _ _).trans (within_internGraph _ _)

/-- The numbers given to a quad resolve to it. -/
theorem resolveQuad_internQuad (d : Dictionary) (q : Quad) :
    (d.internQuad q).2.resolveQuad (d.internQuad q).1 = .ok q := by
  rw [resolveQuad_eq_ok_iff]
  simp only [internQuad]
  -- what was numbered first stays so while the other parts are numbered
  have h₂ := within_intern (d.intern q.subject.toTerm).2 (.iri q.predicate)
  have h₃ := within_intern ((d.intern q.subject.toTerm).2.intern (.iri q.predicate)).2 q.object
  have h₄ := within_internGraph
    (((d.intern q.subject.toTerm).2.intern (.iri q.predicate)).2.intern q.object).2 q.graph
  refine ⟨?_, ?_, ?_, resolveGraph_internGraph _ _⟩
  · exact h₄.resolve (h₃.resolve (h₂.resolve (resolve_intern _ _)))
  · exact h₄.resolve (h₃.resolve (resolve_intern _ _))
  · exact h₄.resolve (resolve_intern _ _)

end Dictionary
end QuadStore
