import QuadStore.Proofs.Parts
import QuadStore.Store.Plan
import QuadStore.Eval.Fault

/-!
# Contexts

A pattern stands somewhere in a tree: in a side of a join, or in what an expression asks about, at
any depth. Where it stands is a tree with a hole. Patterns with the same scope and the same plans
may take each other's place in any hole: `GraphPattern.Context.interchangeable`.
-/

theorem Option.isSome_orElse {α : Type} (a? b? : Option α) :
    (a? <|> b?).isSome = (a?.isSome || b?.isSome) := by
  cases a? <;> rfl

namespace QuadStore

/-! ## Trees with a hole -/

mutual

/-- A pattern with a hole for a pattern. -/
inductive GraphPattern.Context where
  | hole
  | joinLeft (left : GraphPattern.Context) (right : GraphPattern)
  | joinRight (left : GraphPattern) (right : GraphPattern.Context)
  | leftJoinLeft (left : GraphPattern.Context) (right : GraphPattern)
    (condition? : Option Expression)
  | leftJoinRight (left : GraphPattern) (right : GraphPattern.Context)
    (condition? : Option Expression)
  | leftJoinCondition (left right : GraphPattern) (condition : Expression.Context)
  | filterCondition (condition : Expression.Context) (inner : GraphPattern)
  | filterInner (condition : Expression) (inner : GraphPattern.Context)
  | unionLeft (left : GraphPattern.Context) (right : GraphPattern)
  | unionRight (left : GraphPattern) (right : GraphPattern.Context)
  | extendInner (inner : GraphPattern.Context) (v : Variable) (value : Expression)
  | extendValue (inner : GraphPattern) (v : Variable) (value : Expression.Context)
  | distinct (inner : GraphPattern.Context)
  | orderByInner (inner : GraphPattern.Context) (keys : List (Direction × Expression))
  | orderByKey (inner : GraphPattern) (before : List (Direction × Expression))
    (direction : Direction) (key : Expression.Context) (after : List (Direction × Expression))
  | slice (inner : GraphPattern.Context) (start : Nat) (length? : Option Nat)
  | project (inner : GraphPattern.Context) (vars : List Variable)

/-- An expression with a hole for a pattern. -/
inductive Expression.Context where
  | binaryLeft (op : BinaryOp) (left : Expression.Context) (right : Expression)
  | binaryRight (op : BinaryOp) (left : Expression) (right : Expression.Context)
  | needle (needle : Expression.Context) (candidates : List Expression)
  | candidate (needle : Expression) (before : List Expression) (candidate : Expression.Context)
    (after : List Expression)
  | unary (op : UnaryOp) (operand : Expression.Context)
  | exists (pattern : GraphPattern.Context)
  | condition (condition : Expression.Context) (yes no : Expression)
  | yes (condition : Expression) (yes : Expression.Context) (no : Expression)
  | no (condition yes : Expression) (no : Expression.Context)
  | choice (before : List Expression) (choice : Expression.Context) (after : List Expression)
  | argument (function : Function) (before : List Expression) (argument : Expression.Context)
    (after : List Expression)

end

mutual

/-- The pattern that has another one in its hole. -/
def GraphPattern.Context.fill (p : GraphPattern) : GraphPattern.Context → GraphPattern
  | .hole => p
  | .joinLeft left right => .join (left.fill p) right
  | .joinRight left right => .join left (right.fill p)
  | .leftJoinLeft left right condition? => .leftJoin (left.fill p) right condition?
  | .leftJoinRight left right condition? => .leftJoin left (right.fill p) condition?
  | .leftJoinCondition left right condition => .leftJoin left right (some (condition.fill p))
  | .filterCondition condition inner => .filter (condition.fill p) inner
  | .filterInner condition inner => .filter condition (inner.fill p)
  | .unionLeft left right => .union (left.fill p) right
  | .unionRight left right => .union left (right.fill p)
  | .extendInner inner v value => .extend (inner.fill p) v value
  | .extendValue inner v value => .extend inner v (value.fill p)
  | .distinct inner => .distinct (inner.fill p)
  | .orderByInner inner keys => .orderBy (inner.fill p) keys
  | .orderByKey inner before direction key after =>
    .orderBy inner (before ++ (direction, key.fill p) :: after)
  | .slice inner start length? => .slice (inner.fill p) start length?
  | .project inner vs => .project (inner.fill p) vs

/-- The expression that has a pattern in its hole. -/
def Expression.Context.fill (p : GraphPattern) : Expression.Context → Expression
  | .binaryLeft op a b => .binary op (a.fill p) b
  | .binaryRight op a b => .binary op a (b.fill p)
  | .needle needle candidates => .oneOf (needle.fill p) candidates
  | .candidate needle before candidate after => .oneOf needle (before ++ candidate.fill p :: after)
  | .unary op operand => .unary op (operand.fill p)
  | .exists pattern => .exists (pattern.fill p)
  | .condition condition yes no => .ifThenElse (condition.fill p) yes no
  | .yes condition yes no => .ifThenElse condition (yes.fill p) no
  | .no condition yes no => .ifThenElse condition yes (no.fill p)
  | .choice before choice after => .coalesce (before ++ choice.fill p :: after)
  | .argument function before argument after =>
    .call function (before ++ argument.fill p :: after)

end

/-- Whether a part is a tree with the pattern in its hole. -/
def Part.HasHole (p : GraphPattern) : Part → Prop
  | .pattern whole => ∃ c : GraphPattern.Context, c.fill p = whole
  | .expression whole => ∃ c : Expression.Context, c.fill p = whole

/-- A hole of a part below is a hole. -/
theorem Part.HasHole.of_child {p : GraphPattern} {part child : Part} (h : child.HasHole p)
    (hchild : child ∈ part.children) : part.HasHole p := by
  -- each place of a child has its own constructor of contexts
  cases part with
  | pattern whole =>
    cases whole with
    | quad _ => exact absurd hchild List.not_mem_nil
    | join left right =>
      rcases List.mem_pair.1 hchild with rfl | rfl
      · exact h.imp' (.joinLeft · right) fun c hc => by rw [GraphPattern.Context.fill, hc]
      · exact h.imp' (.joinRight left ·) fun c hc => by rw [GraphPattern.Context.fill, hc]
    | leftJoin left right condition? =>
      simp only [children, List.mem_cons, List.mem_map, Option.mem_toList] at hchild
      rcases hchild with rfl | rfl | ⟨condition, hcondition, rfl⟩
      · exact h.imp' (.leftJoinLeft · right condition?) fun c hc => by
          rw [GraphPattern.Context.fill, hc]
      · exact h.imp' (.leftJoinRight left · condition?) fun c hc => by
          rw [GraphPattern.Context.fill, hc]
      · obtain rfl : condition? = some condition := hcondition
        exact h.imp' (.leftJoinCondition left right ·) fun c hc => by
          rw [GraphPattern.Context.fill, hc]
    | filter condition inner =>
      rcases List.mem_pair.1 hchild with rfl | rfl
      · exact h.imp' (.filterInner condition ·) fun c hc => by rw [GraphPattern.Context.fill, hc]
      · exact h.imp' (.filterCondition · inner) fun c hc => by rw [GraphPattern.Context.fill, hc]
    | union left right =>
      rcases List.mem_pair.1 hchild with rfl | rfl
      · exact h.imp' (.unionLeft · right) fun c hc => by rw [GraphPattern.Context.fill, hc]
      · exact h.imp' (.unionRight left ·) fun c hc => by rw [GraphPattern.Context.fill, hc]
    | extend inner v value =>
      rcases List.mem_pair.1 hchild with rfl | rfl
      · exact h.imp' (.extendInner · v value) fun c hc => by rw [GraphPattern.Context.fill, hc]
      · exact h.imp' (.extendValue inner v ·) fun c hc => by rw [GraphPattern.Context.fill, hc]
    | distinct inner =>
      obtain rfl := List.mem_singleton.1 hchild
      exact h.imp' .distinct fun c hc => by rw [GraphPattern.Context.fill, hc]
    | orderBy inner keys =>
      simp only [children, List.mem_cons, List.mem_map] at hchild
      rcases hchild with rfl | ⟨⟨direction, e⟩, hkey, rfl⟩
      · exact h.imp' (.orderByInner · keys) fun c hc => by rw [GraphPattern.Context.fill, hc]
      · obtain ⟨before, after, rfl⟩ := List.append_of_mem hkey
        exact h.imp' (.orderByKey inner before direction · after) fun c hc => by
          rw [GraphPattern.Context.fill, hc]
    | slice inner start length? =>
      obtain rfl := List.mem_singleton.1 hchild
      exact h.imp' (.slice · start length?) fun c hc => by rw [GraphPattern.Context.fill, hc]
    | project inner vs =>
      obtain rfl := List.mem_singleton.1 hchild
      exact h.imp' (.project · vs) fun c hc => by rw [GraphPattern.Context.fill, hc]
  | expression whole =>
    cases whole with
    | iri _ | literal _ | var _ | bound _ => exact absurd hchild List.not_mem_nil
    | binary op a b =>
      rcases List.mem_pair.1 hchild with rfl | rfl
      · exact h.imp' (.binaryLeft op · b) fun c hc => by rw [Expression.Context.fill, hc]
      · exact h.imp' (.binaryRight op a ·) fun c hc => by rw [Expression.Context.fill, hc]
    | oneOf needle candidates =>
      simp only [children, List.mem_cons, List.mem_map] at hchild
      rcases hchild with rfl | ⟨e, he, rfl⟩
      · exact h.imp' (.needle · candidates) fun c hc => by rw [Expression.Context.fill, hc]
      · obtain ⟨before, after, rfl⟩ := List.append_of_mem he
        exact h.imp' (.candidate needle before · after) fun c hc => by
          rw [Expression.Context.fill, hc]
    | unary op operand =>
      obtain rfl := List.mem_singleton.1 hchild
      exact h.imp' (.unary op ·) fun c hc => by rw [Expression.Context.fill, hc]
    | «exists» operand =>
      obtain rfl := List.mem_singleton.1 hchild
      exact h.imp' .exists fun c hc => by rw [Expression.Context.fill, hc]
    | ifThenElse condition yes no =>
      simp only [children, List.mem_cons, List.not_mem_nil, or_false] at hchild
      rcases hchild with rfl | rfl | rfl
      · exact h.imp' (.condition · yes no) fun c hc => by rw [Expression.Context.fill, hc]
      · exact h.imp' (.yes condition · no) fun c hc => by rw [Expression.Context.fill, hc]
      · exact h.imp' (.no condition yes ·) fun c hc => by rw [Expression.Context.fill, hc]
    | coalesce choices =>
      obtain ⟨e, he, rfl⟩ := List.mem_map.1 hchild
      obtain ⟨before, after, rfl⟩ := List.append_of_mem he
      exact h.imp' (.choice before · after) fun c hc => by rw [Expression.Context.fill, hc]
    | call function arguments =>
      obtain ⟨e, he, rfl⟩ := List.mem_map.1 hchild
      obtain ⟨before, after, rfl⟩ := List.append_of_mem he
      exact h.imp' (.argument function before · after) fun c hc => by
        rw [Expression.Context.fill, hc]

/-- There is a hole wherever a pattern stands in a tree. -/
theorem GraphPattern.Context.exists_fill_eq {p whole : GraphPattern}
    (h : Part.Within (.pattern p) (.pattern whole)) :
    ∃ c : GraphPattern.Context, c.fill p = whole := by
  show Part.HasHole p (.pattern whole)
  -- up from the part, one parent after the other
  refine Relation.ReflTransGen.head_induction_on h ⟨.hole, by rw [fill]⟩ ?_
  exact fun hchild _ hhole => hhole.of_child hchild

/-! ## Taking each other's place -/

/-- Two patterns with the same scope and the same plans, of which one is faulty if the other is. -/
structure GraphPattern.Interchangeable (p p' : GraphPattern) : Prop where
  inScope : p'.inScope = p.inScope
  isSome_fault? : p'.fault?.isSome = p.fault?.isSome
  plan : ∀ pl slots, p'.plan pl slots = p.plan pl slots

/-- Two expressions with the same plans, of which one is faulty if the other is. -/
structure Expression.Interchangeable (e e' : Expression) : Prop where
  isSome_fault? : e'.fault?.isSome = e.fault?.isSome
  plan : ∀ pl slots, e'.plan pl slots = e.plan pl slots

namespace Expression

variable {e e' : Expression}

theorem Interchangeable.isSome_faultIn? (h : e.Interchangeable e')
    (before after : List Expression) :
    (faultIn? (before ++ e' :: after)).isSome = (faultIn? (before ++ e :: after)).isSome := by
  induction before with
  | nil => simp only [List.nil_append, faultIn?, Option.isSome_orElse, h.isSome_fault?]
  | cons _ _ ih => simp only [List.cons_append, faultIn?, Option.isSome_orElse, ih]

theorem Interchangeable.isSome_faultInKeys? (h : e.Interchangeable e') (direction : Direction)
    (before after : List (Direction × Expression)) :
    (faultInKeys? (before ++ (direction, e') :: after)).isSome =
      (faultInKeys? (before ++ (direction, e) :: after)).isSome := by
  induction before with
  | nil => simp only [List.nil_append, faultInKeys?, Option.isSome_orElse, h.isSome_fault?]
  | cons _ _ ih => simp only [List.cons_append, faultInKeys?, Option.isSome_orElse, ih]

theorem Interchangeable.planEach (h : e.Interchangeable e') (pl : Planner)
    (before after : List Expression) (slots : Slots) :
    Expression.planEach pl (before ++ e' :: after) slots =
      Expression.planEach pl (before ++ e :: after) slots := by
  induction before generalizing slots with
  | nil => simp only [List.nil_append, Expression.planEach, h.plan]
  | cons _ _ ih => simp only [List.cons_append, Expression.planEach, ih]

theorem Interchangeable.planKeys (h : e.Interchangeable e') (pl : Planner) (direction : Direction)
    (before after : List (Direction × Expression)) (slots : Slots) :
    Expression.planKeys pl (before ++ (direction, e') :: after) slots =
      Expression.planKeys pl (before ++ (direction, e) :: after) slots := by
  induction before generalizing slots with
  | nil => simp only [List.nil_append, Expression.planKeys, h.plan]
  | cons _ _ ih => simp only [List.cons_append, Expression.planKeys, ih]

end Expression

mutual

/-- What may take the place of a pattern may take it in any hole. -/
theorem GraphPattern.Context.interchangeable {p p' : GraphPattern} (h : p.Interchangeable p') :
    ∀ c : GraphPattern.Context, (c.fill p).Interchangeable (c.fill p')
  | .hole => by
    simp only [GraphPattern.Context.fill]
    exact h
  -- with the hole in a pattern below, the scope is the same because that of the part is
  | .joinLeft c _ | .joinRight _ c | .leftJoinLeft c _ _ | .leftJoinRight _ c _ | .unionLeft c _
  | .unionRight _ c | .filterInner _ c | .orderByInner c _ => by
    have hc := c.interchangeable h
    simp only [GraphPattern.Context.fill]
    constructor
    case inScope => simp only [GraphPattern.inScope, hc.inScope]
    case isSome_fault? =>
      simp only [GraphPattern.fault?, Option.isSome_orElse, hc.isSome_fault?]
    case plan => exact fun pl slots => by simp only [GraphPattern.plan, hc.plan]
  | .distinct c | .slice c _ _ => by
    have hc := c.interchangeable h
    simp only [GraphPattern.Context.fill]
    constructor
    case inScope => simp only [GraphPattern.inScope, hc.inScope]
    case isSome_fault? => simp only [GraphPattern.fault?, hc.isSome_fault?]
    case plan => exact fun pl slots => by simp only [GraphPattern.plan, hc.plan]
  | .extendInner c v _ => by
    have hc := c.interchangeable h
    simp only [GraphPattern.Context.fill]
    constructor
    case inScope => simp only [GraphPattern.inScope, hc.inScope]
    case isSome_fault? =>
      simp only [GraphPattern.fault?, hc.inScope, apply_ite Option.isSome, Option.isSome_orElse,
        hc.isSome_fault?]
    case plan => exact fun pl slots => by simp only [GraphPattern.plan, hc.plan]
  -- a projection shows its own variables, and with the hole in an expression the scope is that of
  -- the parts that stay
  | .project c _ => by
    have hc := c.interchangeable h
    simp only [GraphPattern.Context.fill]
    constructor
    case inScope => simp only [GraphPattern.inScope]
    case isSome_fault? => simp only [GraphPattern.fault?, hc.isSome_fault?]
    case plan => exact fun pl slots => by simp only [GraphPattern.plan, hc.plan]
  | .leftJoinCondition _ _ c => by
    have hc := c.interchangeable h
    simp only [GraphPattern.Context.fill]
    constructor
    case inScope => simp only [GraphPattern.inScope]
    case isSome_fault? =>
      simp only [GraphPattern.fault?, Expression.faultInCondition?, Option.isSome_orElse,
        hc.isSome_fault?]
    case plan =>
      exact fun pl slots => by simp only [GraphPattern.plan, Expression.planCondition, hc.plan]
  | .filterCondition c _ => by
    have hc := c.interchangeable h
    simp only [GraphPattern.Context.fill]
    constructor
    case inScope => simp only [GraphPattern.inScope]
    case isSome_fault? =>
      simp only [GraphPattern.fault?, Option.isSome_orElse, hc.isSome_fault?]
    case plan => exact fun pl slots => by simp only [GraphPattern.plan, hc.plan]
  | .extendValue _ _ c => by
    have hc := c.interchangeable h
    simp only [GraphPattern.Context.fill]
    constructor
    case inScope => simp only [GraphPattern.inScope]
    case isSome_fault? =>
      simp only [GraphPattern.fault?, apply_ite Option.isSome, Option.isSome_orElse,
        hc.isSome_fault?]
    case plan => exact fun pl slots => by simp only [GraphPattern.plan, hc.plan]
  | .orderByKey _ before direction c after => by
    have hc := c.interchangeable h
    simp only [GraphPattern.Context.fill]
    constructor
    case inScope => simp only [GraphPattern.inScope]
    case isSome_fault? =>
      simp only [GraphPattern.fault?, Option.isSome_orElse,
        hc.isSome_faultInKeys? direction before after]
    case plan =>
      exact fun pl slots => by
        simp only [GraphPattern.plan, hc.planKeys, List.map_append, List.map_cons]

theorem Expression.Context.interchangeable {p p' : GraphPattern} (h : p.Interchangeable p') :
    ∀ c : Expression.Context, (c.fill p).Interchangeable (c.fill p')
  | .binaryLeft _ c _ | .binaryRight _ _ c | .needle c _ | .condition c _ _ | .yes _ c _
  | .no _ _ c => by
    have hc := c.interchangeable h
    simp only [Expression.Context.fill]
    constructor
    case isSome_fault? =>
      simp only [Expression.fault?, Option.isSome_orElse, hc.isSome_fault?]
    case plan => exact fun pl slots => by simp only [Expression.plan, hc.plan]
  | .unary _ c => by
    have hc := c.interchangeable h
    simp only [Expression.Context.fill]
    constructor
    case isSome_fault? => simp only [Expression.fault?, hc.isSome_fault?]
    case plan => exact fun pl slots => by simp only [Expression.plan, hc.plan]
  | .exists c => by
    have hc := c.interchangeable h
    simp only [Expression.Context.fill]
    constructor
    case isSome_fault? => simp only [Expression.fault?, hc.isSome_fault?]
    case plan => exact fun pl slots => by simp only [Expression.plan, hc.plan]
  -- among several expressions, the hole is in one of them
  | .candidate _ before c after => by
    have hc := c.interchangeable h
    simp only [Expression.Context.fill]
    constructor
    case isSome_fault? =>
      simp only [Expression.fault?, Option.isSome_orElse, hc.isSome_faultIn? before after]
    case plan => exact fun pl slots => by simp only [Expression.plan, hc.planEach]
  | .choice before c after => by
    have hc := c.interchangeable h
    simp only [Expression.Context.fill]
    constructor
    case isSome_fault? => simp only [Expression.fault?, hc.isSome_faultIn? before after]
    case plan => exact fun pl slots => by simp only [Expression.plan, hc.planEach]
  | .argument function before c after => by
    have hc := c.interchangeable h
    simp only [Expression.Context.fill]
    constructor
    case isSome_fault? =>
      simp only [Expression.fault?, List.length_append, List.length_cons,
        apply_ite Option.isSome, hc.isSome_faultIn? before after]
    case plan => exact fun pl slots => by simp only [Expression.plan, hc.planEach]

end

end QuadStore
