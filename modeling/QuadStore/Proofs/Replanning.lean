import QuadStore.Proofs.Slots

/-!
# Plans that are made again

A part of an expression may be planned more than once, each time with the table that has grown in
between. Its variables have kept their slots, so that the plan does the same every time and the
table is left as it is: `Expression.plan_of_prefix`.
-/

namespace QuadStore

/-! ## Tables that hold the variables -/

namespace Slots

variable {slots table : Slots} {v : Variable}

/-- A variable that has its slot is not placed again. -/
theorem place_of_prefix (h : (slots.place v).2 <+: table) :
    table.place v = ((slots.place v).1, table) := by
  have hslot := idxOf?_of_place h
  unfold place at hslot ⊢
  rw [hslot]

theorem mapping_of_prefix {first : Nat} {vs : List Variable}
    (h : (slots.mapping first vs).2 <+: table) :
    table.mapping first vs = ((slots.mapping first vs).1, table) := by
  induction vs generalizing slots first with
  | nil => rfl
  | cons v vs ih =>
    have hrest : ((slots.place v).2.mapping (first + 1) vs).2 <+: table := h
    have hplace := place_of_prefix ((prefix_mapping _ (first + 1) vs).trans hrest)
    show ((first, (table.place v).1) :: ((table.place v).2.mapping (first + 1) vs).1,
      ((table.place v).2.mapping (first + 1) vs).2) = _
    rw [hplace]
    dsimp only
    rw [ih hrest]
    rfl

end Slots

section

variable {slots table : Slots}

theorem Position.selector_of_prefix {α : Type} {pl : Planner} {toTerm : α → Term} {p : Position α}
    (h : (p.selector pl toTerm slots).2 <+: table) :
    p.selector pl toTerm table = ((p.selector pl toTerm slots).1, table) := by
  cases p with
  | given a => rfl
  | var v =>
    have hplace := Slots.place_of_prefix (v := v) h
    show (Selector.slot (table.place v).1, (table.place v).2) = _
    rw [hplace]
    rfl

theorem GraphPosition.selector_of_prefix {pl : Planner} {p : GraphPosition}
    (h : (p.selector pl slots).2 <+: table) :
    p.selector pl table = ((p.selector pl slots).1, table) := by
  cases p with
  | any | default | given _ => rfl
  | var v =>
    have hplace := Slots.place_of_prefix (v := v) h
    show (Selector.slot (table.place v).1, (table.place v).2) = _
    rw [hplace]
    rfl

theorem QuadPattern.selector_of_prefix {pl : Planner} {p : QuadPattern}
    (h : (p.selector pl slots).2 <+: table) :
    p.selector pl table = ((p.selector pl slots).1, table) := by
  obtain ⟨-, hr, ho, hg⟩ := p.prefix_selectors pl slots
  -- each position is placed after the ones before, whose variables are in the table
  have hobject := hg.trans h
  have hpredicate := ho.trans hobject
  have hsubject := hr.trans hpredicate
  unfold selector
  dsimp only
  rw [Position.selector_of_prefix hsubject]
  dsimp only
  rw [Position.selector_of_prefix hpredicate]
  dsimp only
  rw [Position.selector_of_prefix hobject]
  dsimp only
  rw [GraphPosition.selector_of_prefix h]

theorem QuadPattern.plan_of_prefix {pl : Planner} {p : QuadPattern}
    (h : (p.plan pl slots).slots <+: table) :
    p.plan pl table = ⟨(p.plan pl slots).run, table⟩ := by
  by_cases hliteral : ∃ l, p.subject = .given (.literal l)
  · obtain ⟨l, hl⟩ := hliteral
    unfold plan
    rw [hl]
  · have hplan : ∀ slots, p.plan pl slots =
        ⟨(p.selector pl slots).1.tuples pl, (p.selector pl slots).2⟩ := by
      intro slots
      apply (p.plan_cases pl slots).resolve_left
      intro h
      obtain ⟨l, hl, -⟩ := h
      exact hliteral ⟨l, hl⟩
    rw [hplan] at h
    rw [hplan, hplan, selector_of_prefix h]

end

/-! ## Plans -/

mutual

/-- In a table that holds its variables, an expression is planned as it was before. -/
theorem Expression.plan_of_prefix (pl : Planner) : ∀ (e : Expression) {slots table : Slots},
    (e.plan pl slots).slots <+: table → e.plan pl table = ⟨(e.plan pl slots).run, table⟩
  | .iri _, _, _, _ => by simp only [Expression.plan]
  | .literal _, _, _, _ => by simp only [Expression.plan]
  | .var v, _, _, h => by
    simp only [Expression.plan] at h ⊢
    rw [Slots.place_of_prefix h]
  | .bound v, _, _, h => by
    simp only [Expression.plan] at h ⊢
    rw [Slots.place_of_prefix h]
  | .binary op a b, _, _, h => by
    simp only [Expression.plan] at h ⊢
    have ha := a.plan_of_prefix pl ((b.prefix_plan pl _).trans h)
    rw [ha, b.plan_of_prefix pl h]
  | .oneOf needle candidates, _, _, h => by
    simp only [Expression.plan] at h ⊢
    have hneedle := needle.plan_of_prefix pl
      ((Expression.prefix_planEach pl candidates _).trans h)
    rw [hneedle, Expression.planEach_of_prefix pl candidates h]
  | .unary op operand, _, _, h => by
    simp only [Expression.plan] at h ⊢
    rw [operand.plan_of_prefix pl h]
  | .exists pattern, _, _, h => by
    simp only [Expression.plan] at h ⊢
    rw [pattern.plan_of_prefix pl h]
  | .ifThenElse condition yes no, _, _, h => by
    simp only [Expression.plan] at h ⊢
    have hyes := (no.prefix_plan pl _).trans h
    have hcondition := (yes.prefix_plan pl _).trans hyes
    rw [condition.plan_of_prefix pl hcondition, yes.plan_of_prefix pl hyes,
      no.plan_of_prefix pl h]
  | .coalesce choices, _, _, h => by
    simp only [Expression.plan] at h ⊢
    rw [Expression.planEach_of_prefix pl choices h]
  | .call function arguments, _, _, h => by
    simp only [Expression.plan] at h ⊢
    rw [Expression.planEach_of_prefix pl arguments h]

theorem Expression.planEach_of_prefix (pl : Planner) :
    ∀ (es : List Expression) {slots table : Slots},
      (Expression.planEach pl es slots).slots <+: table →
        Expression.planEach pl es table = ⟨(Expression.planEach pl es slots).run, table⟩
  | [], _, _, _ => by simp only [Expression.planEach]
  | e :: rest, _, _, h => by
    simp only [Expression.planEach] at h ⊢
    have he := e.plan_of_prefix pl ((Expression.prefix_planEach pl rest _).trans h)
    rw [he, Expression.planEach_of_prefix pl rest h]

theorem Expression.planKeys_of_prefix (pl : Planner) :
    ∀ (keys : List (Direction × Expression)) {slots table : Slots},
      (Expression.planKeys pl keys slots).slots <+: table →
        Expression.planKeys pl keys table = ⟨(Expression.planKeys pl keys slots).run, table⟩
  | [], _, _, _ => by simp only [Expression.planKeys]
  | (_, e) :: rest, _, _, h => by
    simp only [Expression.planKeys] at h ⊢
    have he := e.plan_of_prefix pl ((Expression.prefix_planKeys pl rest _).trans h)
    rw [he, Expression.planKeys_of_prefix pl rest h]

theorem Expression.planCondition_of_prefix (pl : Planner) :
    ∀ (condition? : Option Expression) {slots table : Slots},
      (Expression.planCondition pl condition? slots).slots <+: table →
        Expression.planCondition pl condition? table =
          ⟨(Expression.planCondition pl condition? slots).run, table⟩
  | none, _, _, _ => by simp only [Expression.planCondition]
  | some condition, _, _, h => by
    simp only [Expression.planCondition] at h ⊢
    rw [condition.plan_of_prefix pl h]

/-- In a table that holds its variables, a pattern is planned as it was before. -/
theorem GraphPattern.plan_of_prefix (pl : Planner) : ∀ (p : GraphPattern) {slots table : Slots},
    (p.plan pl slots).slots <+: table → p.plan pl table = ⟨(p.plan pl slots).run, table⟩
  | .quad pattern, _, _, h => by
    simp only [GraphPattern.plan] at h ⊢
    exact QuadPattern.plan_of_prefix h
  | .join left right, _, _, h => by
    simp only [GraphPattern.plan] at h ⊢
    have hleft := left.plan_of_prefix pl ((right.prefix_plan pl _).trans h)
    rw [hleft, right.plan_of_prefix pl h]
  | .leftJoin left right condition?, _, _, h => by
    simp only [GraphPattern.plan] at h ⊢
    have hright := (Expression.prefix_planCondition pl condition? _).trans h
    have hleft := (right.prefix_plan pl _).trans hright
    rw [left.plan_of_prefix pl hleft, right.plan_of_prefix pl hright,
      Expression.planCondition_of_prefix pl condition? h]
  | .filter condition inner, _, _, h => by
    simp only [GraphPattern.plan] at h ⊢
    have hinner := inner.plan_of_prefix pl ((condition.prefix_plan pl _).trans h)
    rw [hinner, condition.plan_of_prefix pl h]
  | .union left right, _, _, h => by
    simp only [GraphPattern.plan] at h ⊢
    have hleft := left.plan_of_prefix pl ((right.prefix_plan pl _).trans h)
    rw [hleft, right.plan_of_prefix pl h]
  | .extend inner v value, _, _, h => by
    simp only [GraphPattern.plan] at h ⊢
    have hplace := (value.prefix_plan pl _).trans h
    have hinner := (Slots.prefix_place _ v).trans hplace
    rw [inner.plan_of_prefix pl hinner, Slots.place_of_prefix hplace, value.plan_of_prefix pl h]
  | .distinct inner, _, _, h => by
    simp only [GraphPattern.plan] at h ⊢
    rw [inner.plan_of_prefix pl h]
  | .orderBy inner keys, _, _, h => by
    simp only [GraphPattern.plan] at h ⊢
    have hinner := inner.plan_of_prefix pl ((Expression.prefix_planKeys pl keys _).trans h)
    rw [hinner, Expression.planKeys_of_prefix pl keys h]
  | .slice inner _ _, _, _, h => by
    simp only [GraphPattern.plan] at h ⊢
    rw [inner.plan_of_prefix pl h]
  | .project _ vs, _, _, h => by
    -- the table inside begins anew with the variables of the projection
    simp only [GraphPattern.plan] at h ⊢
    rw [Slots.mapping_of_prefix h]

end

end QuadStore
