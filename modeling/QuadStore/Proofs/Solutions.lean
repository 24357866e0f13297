import QuadStore.Proofs.Expressions
import QuadStore.Proofs.Rows

/-!
# Solutions of patterns

The meaning of patterns from the bottom up, as a multiset of solutions over the quads that are
there: each side of a join, a union or a projection has solutions of its own, whatever surrounds it.
Patterns with an optional part, an order or a slice are left out.

`Solution.join?` is associative, which is what lets a join be evaluated row by row.
-/

namespace QuadStore

/-! ## Solutions -/

/-- The terms that some variables stand for. -/
def Solution := Variable → Option Term

namespace Solution

/-- No variable stands for a term. -/
def empty : Solution := fun _ => none

/-- One variable stands for a term. -/
def single (v : Variable) (t : Term) : Solution := fun w => if w = v then some t else none

/-- No variable stands for two terms. -/
def Compatible (μ ν : Solution) : Prop := ∀ v, ∀ s ∈ μ v, ∀ t ∈ ν v, s = t

/-- What either of two solutions says. -/
def merge (μ ν : Solution) : Solution := fun v => (μ v).or (ν v)

open Classical in
/-- Two compatible solutions together. -/
noncomputable def join? (μ ν : Solution) : Option Solution :=
  if μ.Compatible ν then some (μ.merge ν) else none

/-- Two solutions together, if there are both of them and they are compatible. -/
noncomputable def joinBoth? (μ? ν? : Option Solution) : Option Solution :=
  μ?.bind fun μ => ν?.bind μ.join?

/-- What a solution says of some variables. -/
def restrict (μ : Solution) (vs : List Variable) : Solution :=
  fun v => if v ∈ vs then μ v else none

/-- A solution in which a variable stands for a computed term, if there is one. -/
def set (μ : Solution) (v : Variable) : Option Term → Solution
  | some t => fun w => if w = v then some t else μ w
  | none => μ

/-- The row of a solution, in which expressions are evaluated. -/
def toRow (μ : Solution) (vs : List Variable) : Row :=
  vs.foldl (fun r v => (r.bindAny? v ((μ v).map .ofTerm)).getD r) .empty

end Solution

/-- The terms of the variables of a row. -/
def Row.terms (row : Row) : Solution := fun v => (row.get? v).map (·.term)

/-! ## Solutions of quad patterns -/

/-- The solution of a position for the term that stands there. -/
def Position.solution? {α : Type} (toTerm : α → Term) (t : Term) : Position α → Option Solution
  | given a => if toTerm a = t then some .empty else none
  | var v => some (.single v t)

/-- The solution of a graph position for a graph. A variable stands for named graphs only. -/
def GraphPosition.solution? (g : GraphName) : GraphPosition → Option Solution
  | any => some .empty
  | default => if g.isDefault then some .empty else none
  | given name => if g.toTerm? = some name.toTerm then some .empty else none
  | var v => g.toTerm?.map (.single v)

/-- The solution of a quad pattern for a quad, in which a repeated variable stands for one term. -/
noncomputable def QuadPattern.solution? (p : QuadPattern) (q : Quad) : Option Solution :=
  let subject? := p.subject.solution? id q.subject.toTerm
  let predicate? := p.predicate.solution? .iri (.iri q.predicate)
  let object? := p.object.solution? id q.object
  let graph? := p.graph.solution? q.graph
  open Solution in joinBoth? (joinBoth? (joinBoth? subject? predicate?) object?) graph?

/-! ## Solutions of graph patterns -/

namespace GraphPattern

open Classical in
/-- The solutions of a pattern over some quads. -/
noncomputable def solutions (quads : List Quad) : GraphPattern → Multiset Solution
  | quad pattern => (quads : Multiset Quad).filterMap pattern.solution?
  | join left right =>
    (left.solutions quads).bind fun μ => (right.solutions quads).filterMap μ.join?
  | union left right => left.solutions quads + right.solutions quads
  | filter condition inner => (inner.solutions quads).filter fun μ =>
      Datum.truthOf? (condition.eval (.ofQuads quads) (μ.toRow inner.inScope)) = some true
  | extend inner v value => (inner.solutions quads).map fun μ =>
      μ.set v ((value.eval (.ofQuads quads) (μ.toRow inner.inScope)).map (·.term))
  | distinct inner => (inner.solutions quads).dedup
  | project inner vs => (inner.solutions quads).map (·.restrict vs)
  | leftJoin _ _ _ | orderBy _ _ | slice _ _ _ => 0

section

variable {quads : List Quad} {left right inner : GraphPattern}

theorem solutions_join : (join left right).solutions quads =
    (left.solutions quads).bind fun μ => (right.solutions quads).filterMap μ.join? := rfl

theorem solutions_union :
    (union left right).solutions quads = left.solutions quads + right.solutions quads := rfl

open Classical in
theorem solutions_filter {condition : Expression} :
    (filter condition inner).solutions quads = (inner.solutions quads).filter fun μ =>
      Datum.truthOf? (condition.eval (.ofQuads quads) (μ.toRow inner.inScope)) = some true := rfl

theorem solutions_extend {v : Variable} {value : Expression} :
    (extend inner v value).solutions quads = (inner.solutions quads).map fun μ =>
      μ.set v ((value.eval (.ofQuads quads) (μ.toRow inner.inScope)).map (·.term)) := rfl

open Classical in
theorem solutions_distinct :
    (distinct inner).solutions quads = (inner.solutions quads).dedup := rfl

theorem solutions_project {vs : List Variable} :
    (project inner vs).solutions quads = (inner.solutions quads).map (·.restrict vs) := rfl

end

/-- The variables that every solution of a pattern binds. -/
def certain : GraphPattern → List Variable
  | quad pattern => pattern.vars
  | join left right => left.certain ++ right.certain
  | union left right => left.certain.filter right.certain.contains
  | project inner vs => vs.filter inner.certain.contains
  | leftJoin inner _ _ | filter _ inner | extend inner _ _ | distinct inner | orderBy inner _ |
    slice inner _ _ => inner.certain

/-- Whether a pattern is built from the operators that have solutions, with expressions that see
nothing but what is certain, and without duplicates to remove among uncertain bindings. -/
def isCompositional : GraphPattern → Bool
  | quad _ => true
  | join left right | union left right => left.isCompositional && right.isCompositional
  | filter condition inner => inner.isCompositional && condition.mentionsOnly inner.certain
  | extend inner _ value => inner.isCompositional && value.mentionsOnly inner.certain
  | distinct inner => inner.isCompositional && inner.inScope.all inner.certain.contains
  | project inner _ => inner.isCompositional
  | leftJoin _ _ _ | orderBy _ _ | slice _ _ _ => false

end GraphPattern

/-! ## Laws of joins -/

namespace Solution

variable {μ ν t : Solution} {v : Variable} {vs : List Variable}

theorem join?_of_compatible (h : μ.Compatible ν) : μ.join? ν = some (μ.merge ν) := if_pos h

theorem join?_of_not_compatible (h : ¬μ.Compatible ν) : μ.join? ν = none := if_neg h

theorem join?_eq_some_iff {ξ : Solution} :
    μ.join? ν = some ξ ↔ μ.Compatible ν ∧ μ.merge ν = ξ := by
  by_cases h : μ.Compatible ν
  · rw [join?_of_compatible h, Option.some.injEq]
    exact (and_iff_right h).symm
  · rw [join?_of_not_compatible h]
    exact ⟨fun heq => (by cases heq), fun heq => absurd heq.1 h⟩

theorem merge_assoc (t μ ν : Solution) : t.merge (μ.merge ν) = (t.merge μ).merge ν :=
  funext fun _ => Option.or_assoc.symm

theorem compatible_merge_iff (t μ ν : Solution) :
    μ.Compatible ν ∧ t.Compatible (μ.merge ν) ↔ t.Compatible μ ∧ (t.merge μ).Compatible ν := by
  -- this holds of each variable on its own
  unfold Compatible merge
  rw [← forall_and, ← forall_and]
  refine forall_congr' fun v => ?_
  cases t v <;> cases μ v <;> cases ν v <;> simp
  grind

/-- Joining is associative. -/
theorem join?_assoc (t μ ν : Solution) :
    (μ.join? ν).bind t.join? = (t.join? μ).bind (·.join? ν) := by
  have hassoc := compatible_merge_iff t μ ν
  by_cases hleft : μ.Compatible ν
  · by_cases hright : t.Compatible μ
    · rw [join?_of_compatible hleft, join?_of_compatible hright, Option.bind_some, Option.bind_some]
      have hiff : t.Compatible (μ.merge ν) ↔ (t.merge μ).Compatible ν := by
        rwa [and_iff_right hleft, and_iff_right hright] at hassoc
      by_cases h : t.Compatible (μ.merge ν)
      · rw [join?_of_compatible h, join?_of_compatible (hiff.1 h), merge_assoc]
      · rw [join?_of_not_compatible h, join?_of_not_compatible (mt hiff.2 h)]
    · rw [join?_of_compatible hleft, join?_of_not_compatible hright, Option.bind_some,
        Option.bind_none]
      exact join?_of_not_compatible fun h => hright (hassoc.1 ⟨hleft, h⟩).1
  · rw [join?_of_not_compatible hleft, Option.bind_none]
    cases hright : t.join? μ with
    | none => rfl
    | some τ =>
      obtain ⟨hcompatible, rfl⟩ := join?_eq_some_iff.1 hright
      exact (join?_of_not_compatible fun h => hleft (hassoc.2 ⟨hcompatible, h⟩).1).symm

theorem joinBoth?_assoc (t? μ? ν? : Option Solution) :
    joinBoth? (joinBoth? t? μ?) ν? = joinBoth? t? (joinBoth? μ? ν?) := by
  cases t? with
  | none => rfl
  | some t =>
    cases μ? with
    | none => rfl
    | some μ =>
      cases ν? with
      | none => simp [joinBoth?]
      | some ν => exact (join?_assoc t μ ν).symm

@[simp]
theorem join?_empty (μ : Solution) : μ.join? .empty = some μ := by
  refine join?_eq_some_iff.2 ⟨fun v s _ t ht => (by cases ht), ?_⟩
  exact funext fun v => Option.or_none

/-- A solution that binds nothing else says no more. -/
theorem merge_apply_of_some {w : Variable} {a : Term} (h : μ.Compatible ν) (ha : ν w = some a) :
    μ.merge ν w = some a := by
  unfold merge
  cases hw : μ w with
  | none => rw [Option.none_or, ha]
  | some b => rw [Option.some_or, h w b hw a ha]

/-- A variable that is not bound yet is set by joining. -/
theorem join?_set (h : μ v = none) (t? : Option Term) :
    μ.join? (empty.set v t?) = some (μ.set v t?) := by
  cases t? with
  | none => exact join?_empty μ
  | some t =>
    refine join?_eq_some_iff.2 ⟨fun w s hs u hu => ?_, funext fun w => ?_⟩
    · simp only [set, empty, Option.mem_def, Option.ite_none_right_eq_some] at hu
      rw [hu.1, h] at hs
      cases hs
    · by_cases hw : w = v
      · simp [merge, set, hw, h]
      · simp [merge, empty, set, hw]

/-- The choice of some variables takes part in a join without the others. -/
theorem join?_restrict (t μ : Solution) (vs : List Variable) :
    ((t.restrict vs).join? μ).bind (fun τ => t.join? (τ.restrict vs)) =
      t.join? (μ.restrict vs) := by
  have hcompatible : (t.restrict vs).Compatible μ ↔ t.Compatible (μ.restrict vs) := by
    refine forall_congr' fun v => ?_
    by_cases hv : v ∈ vs <;> simp [restrict, hv]
  by_cases h : (t.restrict vs).Compatible μ
  · rw [join?_of_compatible h, Option.bind_some]
    refine (join?_eq_some_iff.2 ⟨?_, ?_⟩).trans (join?_of_compatible (hcompatible.1 h)).symm
    · intro v
      have hv := h v
      by_cases hmem : v ∈ vs <;> simp [restrict, merge, hmem] at hv ⊢
      cases hμ : t v <;> cases hν : μ v <;> simp_all
    · funext v
      by_cases hmem : v ∈ vs
      · simp only [restrict, merge, if_pos hmem]
        rw [← Option.or_assoc, Option.or_self]
      · simp only [restrict, merge, if_neg hmem]
  · rw [join?_of_not_compatible h, join?_of_not_compatible (mt hcompatible.2 h)]
    rfl

/-- The choice of one more variable. -/
theorem set_join?_restrict (μ : Solution) (v : Variable) (vs : List Variable) :
    (empty.set v (μ v)).join? (μ.restrict vs) = some (μ.restrict (v :: vs)) := by
  have hset : ∀ w, empty.set v (μ v) w = if w = v then μ v else none := by
    intro w
    cases μ v with
    | none => simp [set, empty]
    | some a => rfl
  refine join?_eq_some_iff.2 ⟨fun w s hs t ht => ?_, funext fun w => ?_⟩
  · rw [hset] at hs
    simp only [restrict, Option.mem_def, Option.ite_none_right_eq_some] at hs ht
    rw [hs.1, hs.2] at ht
    exact Option.some.inj ht.2
  · simp only [merge, hset, restrict, List.mem_cons]
    by_cases hw : w = v
    · subst hw
      by_cases hmem : w ∈ vs <;> simp [hmem]
    · simp [hw]

/-- Distinct solutions of the same variables stay distinct in a join. -/
theorem eq_of_join?_eq {μ' τ : Solution} (hdomain : ∀ w, μ w = none ↔ μ' w = none)
    (h : t.join? μ = some τ) (h' : t.join? μ' = some τ) : μ = μ' := by
  obtain ⟨hcompatible, rfl⟩ := join?_eq_some_iff.1 h
  obtain ⟨hcompatible', heq⟩ := join?_eq_some_iff.1 h'
  funext w
  cases hw : μ w with
  | none => exact ((hdomain w).1 hw).symm
  | some a =>
    obtain ⟨a', ha'⟩ := Option.ne_none_iff_exists'.1 (mt (hdomain w).2 (by simp [hw]))
    have hmerge := congrFun heq w
    rw [merge_apply_of_some hcompatible hw, merge_apply_of_some hcompatible' ha'] at hmerge
    rw [ha', hmerge]

end Solution

/-! ## Rows by their terms -/

theorem Solution.get?_toRow (μ : Solution) (vs : List Variable) (w : Variable) :
    (μ.toRow vs).get? w = if w ∈ vs then (μ w).map .ofTerm else none :=
  Row.get?_foldl_bindAny? _ vs (fun v d h => by cases h) w

namespace Row

variable {row other : Row} {v : Variable} {vs : List Variable}

theorem terms_bind? (row : Row) (v : Variable) (d : Datum) :
    (row.bind? v d).map terms = row.terms.join? (.single v d.term) := by
  rcases bind?_cases row v d with ⟨hnone, old, hold, hne⟩ | ⟨r, hr, hsame, hget⟩
  · rw [hnone]
    refine (Solution.join?_of_not_compatible fun h => hne ?_).symm
    exact h v old.term (by simp [terms, hold]) d.term (by simp [Solution.single])
  · rw [hr, Option.map_some]
    refine (Solution.join?_eq_some_iff.2 ⟨fun w s hs t ht => ?_, funext fun w => ?_⟩).symm
    · obtain ⟨old, hold, rfl⟩ := Option.map_eq_some_iff.1 hs
      simp only [Solution.single, Option.mem_def, Option.ite_none_right_eq_some,
        Option.some.injEq] at ht
      rw [ht.1] at hold
      rw [hsame old hold, ht.2]
    · show ((row.get? w).map (·.term)).or (if w = v then some d.term else none) =
        (r.get? w).map (·.term)
      rw [hget]
      by_cases hw : w = v
      · rw [if_pos hw, if_pos hw, hw]
        cases row.get? v <;> rfl
      · rw [if_neg hw, if_neg hw, Option.or_none]

/-- Binding a variable, if there is a value for it, joins what is set. -/
theorem terms_bindAny? (row : Row) (v : Variable) (d? : Option Datum) :
    (row.bindAny? v d?).map terms = row.terms.join? (Solution.empty.set v (d?.map (·.term))) := by
  cases d? with
  | none => exact (Solution.join?_empty _).symm
  | some d => exact terms_bind? row v d

theorem terms_restrict (row : Row) (vs : List Variable) :
    (row.restrict vs).terms = row.terms.restrict vs := by
  funext w
  unfold terms Solution.restrict
  rw [get?_restrict]
  split <;> rfl

/-- What another row has for some variables is joined. -/
theorem terms_extend? (row : Row) (vs : List Variable) (other : Row) :
    (row.extend? vs other).map terms = row.terms.join? (other.terms.restrict vs) := by
  induction vs generalizing row with
  | nil =>
    have hempty : other.terms.restrict [] = .empty := funext fun w => if_neg List.not_mem_nil
    rw [hempty, Solution.join?_empty]
    rfl
  | cons v vs ih =>
    have hcons : row.extend? (v :: vs) other =
        (row.bindAny? v (other.get? v)).bind fun r => r.extend? vs other := by
      rw [extend?, List.foldlM_cons]
      rfl
    have hrest : (row.extend? (v :: vs) other).map terms =
        ((row.bindAny? v (other.get? v)).map terms).bind (·.join? (other.terms.restrict vs)) := by
      rw [hcons, Option.map_bind, Option.bind_map]
      exact congrArg _ (funext fun r => ih r)
    have hset := Solution.set_join?_restrict other.terms v vs
    rw [hrest, terms_bindAny?, ← Solution.join?_assoc]
    exact congrArg (Option.bind · row.terms.join?) hset

theorem terms_eq_iff {a b : Row} : a.terms = b.terms ↔ a.same b = true := by
  rw [same_iff]
  exact funext_iff

end Row

end QuadStore
