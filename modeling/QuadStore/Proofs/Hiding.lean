import QuadStore.Proofs.Contexts
import QuadStore.Proofs.Renaming
import QuadStore.Proofs.Scope

/-!
# Hidden variables

A projection has a table of slots of its own, so that its variables which are not projected are
nobody else's. They may get other names, wherever the projection stands, and no evaluation tells the
difference: `Session.Arises.hides_locals`.
-/

/-- Two lists that go with a third one, element by element, go with one another. -/
theorem List.Forall₂.of_left {α β γ : Type} {R : α → β → Prop} {S : α → γ → Prop}
    {T : β → γ → Prop} {l : List α} {xs : List β} {ys : List γ} (hR : Forall₂ R l xs)
    (hS : Forall₂ S l ys) (h : ∀ a b c, R a b → S a c → T b c) : Forall₂ T xs ys := by
  induction hR generalizing ys with
  | nil =>
    cases hS
    exact .nil
  | cons hhead _ ih =>
    cases hS with
    | cons hhead' htail => exact .cons (h _ _ _ hhead hhead') (ih htail)

namespace QuadStore

/-- A variable is mentioned in a part itself or in one below it. -/
theorem Part.mentions_iff (part : Part) (v : Variable) :
    part.Mentions v ↔ v ∈ part.names ∨ ∃ child ∈ part.children, child.Mentions v := by
  constructor
  · rintro ⟨inner, hinner, hv⟩
    rcases hinner.cases_head with rfl | ⟨child, hchild, hwithin⟩
    · exact .inl hv
    · exact .inr ⟨child, hchild, inner, hwithin, hv⟩
  · rintro (hv | ⟨child, hchild, hmentions⟩)
    · exact mentions_of_mem_names hv
    · exact hmentions.of_child hchild

namespace GraphPattern

/-- The pattern with one variable in the place of another. -/
def replace (v w : Variable) (p : GraphPattern) : GraphPattern :=
  p.rename fun u => if u = v then w else u

variable {inner : GraphPattern} {vs : List Variable} {v w : Variable}

theorem map_swap_of_not_mem (hv : v ∉ vs) (hw : w ∉ vs) : vs.map (Equiv.swap v w) = vs := by
  conv_rhs => rw [← vs.map_id]
  refine List.map_congr_left fun u hu => Equiv.swap_apply_of_ne_of_ne ?_ ?_
  · rintro rfl
    exact hv hu
  · rintro rfl
    exact hw hu

/-- To put a new variable in the place of another one is to let the two change places. -/
theorem replace_eq_rename_swap {p : GraphPattern} (hw : ¬ (Part.pattern p).Mentions w) :
    p.replace v w = p.rename (Equiv.swap v w) := by
  refine p.rename_congr fun u hu => ?_
  have huw : u ≠ w := by
    rintro rfl
    exact hw hu
  rw [Equiv.swap_apply_def, if_neg huw]

/-- A projection has the same scope and the same plans when a variable that is not projected is
replaced by one that it does not mention. -/
theorem interchangeable_replace (hv : v ∉ vs)
    (hw : ¬ (Part.pattern (.project inner vs)).Mentions w) :
    (project inner vs).Interchangeable ((project inner vs).replace v w) := by
  have hvs := map_swap_of_not_mem hv fun hmem => hw (Part.mentions_of_mem_names hmem)
  have hswap := (Equiv.swap v w).injective
  rw [replace_eq_rename_swap hw]
  constructor
  case inScope => rw [inScope_rename, inScope, hvs]
  case isSome_fault? => rw [fault?_rename hswap, Option.isSome_map]
  case plan =>
    intro pl slots
    -- the table inside begins with variables that keep their names
    have hinner := inner.plan_rename hswap pl vs
    rw [hvs] at hinner
    simp only [rename, plan, hvs, hinner, Plan.rename]

variable {pl : Planner} {p p' : GraphPattern}

/-- Patterns with the same plans have the same rows. -/
theorem forall₂_rows_of_plan_eq (hr : pl.reading.view.store.Readable)
    (h : ∀ slots, p'.plan pl slots = p.plan pl slots) (row : Row) :
    List.Forall₂ (fun r r' : Row => r'.get? = r.get?) (p.rows pl.reading.dataset row)
      (p'.rows pl.reading.dataset row) := by
  have hshows := p.shows_plan hr (List.prefix_refl _)
    (row.shows_toTuple pl (p.prefix_plan pl row.slots))
  have hshows' := p'.shows_plan hr (List.prefix_refl _)
    (row.shows_toTuple pl (p'.prefix_plan pl row.slots))
  -- one list of tuples shows both lists of rows
  rw [h] at hshows'
  refine hshows.of_left hshows' fun t r r' hr' hr'' => funext fun v => ?_
  rw [← hr'.get?_eq v, ← hr''.get?_eq v]

/-- Two patterns that are evaluated alike. Both are accepted; they have the same columns, the same
plans in any table of slots, and rows with the same values one after the other, on whatever row
they are started; and the same comes out of every evaluation. -/
structure EvaluatedAlike (pl : Planner) (bindings : BindingSet) (p p' : GraphPattern) : Prop where
  accepted : p.fault? = none ∧ p'.fault? = none
  columns : p'.columns = p.columns
  plan : ∀ slots, p'.plan pl slots = p.plan pl slots
  plannedRows : p'.plannedRows pl bindings = p.plannedRows pl bindings
  yields : ∀ row, ∃ rows rows',
    p.evaluator.Yields pl.reading (p.evaluator.start pl.reading row) rows ∧
      p'.evaluator.Yields pl.reading (p'.evaluator.start pl.reading row) rows' ∧
        List.Forall₂ (fun r r' : Row => r'.get? = r.get?) rows rows'
  answers : ∀ limit? deadline,
    Session.evaluate pl.reading.view p' bindings pl.reading.inferred limit? deadline =
      Session.evaluate pl.reading.view p bindings pl.reading.inferred limit? deadline

/-- Patterns that may take each other's place are evaluated alike. -/
theorem Interchangeable.evaluatedAlike (h : p.Interchangeable p')
    (hr : pl.reading.view.store.Readable) (haccepted : p.fault? = none) (bindings : BindingSet) :
    EvaluatedAlike pl bindings p p' := by
  have haccepted' : p'.fault? = none := by
    have hfault := h.isSome_fault?
    rw [haccepted, Option.isSome_none] at hfault
    exact Option.isSome_eq_false_iff.1 hfault |> Option.isNone_iff_eq_none.1
  have hcolumns : p'.columns = p.columns := by rw [columns_eq, columns_eq, h.inScope]
  have hrows : p'.plannedRows pl bindings = p.plannedRows pl bindings := by
    unfold plannedRows startTuple
    rw [hcolumns, h.plan]
  constructor
  case accepted => exact ⟨haccepted, haccepted'⟩
  case columns => exact hcolumns
  case plan => exact h.plan pl
  case plannedRows => exact hrows
  case yields =>
    exact fun row => ⟨_, _, p.computes_evaluator pl.reading hr row,
      p'.computes_evaluator pl.reading hr row, forall₂_rows_of_plan_eq hr (h.plan pl) row⟩
  case answers =>
    intro limit? deadline
    obtain ⟨q, hq⟩ := Query.exists_ofPattern haccepted bindings
    obtain ⟨q', hq'⟩ := Query.exists_ofPattern haccepted' bindings
    have hquery : q'.rows pl.reading.dataset = q.rows pl.reading.dataset := by
      rw [← plannedRows_eq hr hq, ← plannedRows_eq hr hq', hrows]
    exact Session.evaluate_eq_of_rows_eq hq hq' hcolumns hquery limit? deadline

end GraphPattern

namespace Session

variable {session : Session}

/-- Wherever a projection stands in an accepted pattern, and whatever else the pattern and the given
values hold: a variable that is not projected may be replaced by one that the projection does not
mention. -/
theorem Arises.hides_locals (h : session.Arises) {s : Store} (hs : session.store? = some s)
    (stamp : Nat) (inferred : Bool) (hash : List (Option Term) → UInt64)
    (c : GraphPattern.Context) {inner : GraphPattern} {vs : List Variable}
    (haccepted : (c.fill (.project inner vs)).fault? = none) {v w : Variable} (hv : v ∉ vs)
    (hw : ¬ (Part.pattern (.project inner vs)).Mentions w) (bindings : BindingSet) :
    GraphPattern.EvaluatedAlike ⟨⟨s.at stamp, inferred⟩, hash⟩ bindings
      (c.fill (.project inner vs)) (c.fill ((GraphPattern.project inner vs).replace v w)) :=
  (c.interchangeable (GraphPattern.interchangeable_replace hv hw)).evaluatedAlike
    (h.readable s (by rw [← store?_eq, hs])) haccepted bindings

/-- Keeps a step if it ends where ways of two steps do. -/
def ofWayEnds : GraphPattern.Context := .filterCondition (.exists .hole) oneStep

/-- The ways of two steps are asked about in a condition. Where they begin is hidden there, and has
the name of a variable that is in scope outside and is given a value. -/
theorem hides_locals_inferring : inferring.Arises ∧
    (ofWayEnds.fill (.project twoSteps [⟨"b"⟩])).fault? = none ∧
    ¬ (Part.pattern (.project twoSteps [⟨"b"⟩])).Mentions ⟨"z"⟩ ∧
    ∃ s, inferring.store? = some s ∧
      GraphPattern.EvaluatedAlike ⟨⟨s.at Stamp.pending, true⟩, fun _ => 0⟩
        ⟨[⟨"a"⟩], [some (.iri ⟨"s"⟩)]⟩ (ofWayEnds.fill (.project twoSteps [⟨"b"⟩]))
        (ofWayEnds.fill ((GraphPattern.project twoSteps [⟨"b"⟩]).replace ⟨"a"⟩ ⟨"z"⟩)) := by
  have harises : inferring.Arises := (Arises.start none {}).after _
  have haccepted : (ofWayEnds.fill (.project twoSteps [⟨"b"⟩])).fault? = none := by decide
  have hnew : ¬ (Part.pattern (.project twoSteps [⟨"b"⟩])).Mentions ⟨"z"⟩ := by
    simp [Part.mentions_iff (.pattern _), Part.mentions_iff (.expression _), Part.names,
      Part.children, twoSteps, QuadPattern.vars, Position.var?, GraphPosition.var?]
  exact ⟨harises, haccepted, hnew, _, rfl, harises.hides_locals rfl Stamp.pending true
    (fun _ => 0) ofWayEnds haccepted (by decide) hnew _⟩

/-- The step is kept for a way that begins where it ends. -/
example : inferring.store?.map (fun s =>
    ((ofWayEnds.fill (.project twoSteps [⟨"b"⟩])).plannedRows
      ⟨⟨s.at Stamp.pending, true⟩, fun _ => 0⟩
      ⟨[⟨"a"⟩], [some (.iri ⟨"s"⟩)]⟩).map (·.values)) =
    some [[some (.iri ⟨"s"⟩), some (.iri ⟨"o"⟩)]] := by rfl

end Session
end QuadStore
