import QuadStore.Proofs.Parts
import QuadStore.Proofs.Slots
import QuadStore.Eval.Fault

/-!
# Renamings

The variables of a tree may be given other names. What a plan does hangs on their slots alone, so
that names which stay apart make no difference to it: `GraphPattern.plan_rename`. A renaming only
concerns the variables that the tree mentions: `GraphPattern.rename_congr`.
-/

theorem List.idxOf?_map {α β : Type} [DecidableEq α] [DecidableEq β] {f : α → β}
    (hf : Function.Injective f) (l : List α) (a : α) : (l.map f).idxOf? (f a) = l.idxOf? a := by
  induction l with
  | nil => rfl
  | cons b l ih =>
    rw [map_cons, idxOf?_cons, idxOf?_cons, ih]
    by_cases h : b = a
    · rw [h, beq_self_eq_true, beq_self_eq_true]
    · rw [beq_false_of_ne h, beq_false_of_ne (hf.ne h)]

theorem Option.map_orElse {α β : Type} (f : α → β) (a? b? : Option α) :
    (a? <|> b?).map f = (a?.map f <|> b?.map f) := by
  cases a? <;> rfl

namespace QuadStore

/-! ## Renaming a tree -/

/-- The position with another name for its variable. -/
def Position.rename {α : Type} (f : Variable → Variable) : Position α → Position α
  | given a => .given a
  | var v => .var (f v)

/-- The graph position with another name for its variable. -/
def GraphPosition.rename (f : Variable → Variable) : GraphPosition → GraphPosition
  | any => .any
  | default => .default
  | given name => .given name
  | var v => .var (f v)

/-- The quad pattern with other names for its variables. -/
def QuadPattern.rename (f : Variable → Variable) (p : QuadPattern) : QuadPattern :=
  ⟨p.subject.rename f, p.predicate.rename f, p.object.rename f, p.graph.rename f⟩

mutual

/-- The expression with other names for its variables. -/
def Expression.rename (f : Variable → Variable) : Expression → Expression
  | .iri i => .iri i
  | .literal l => .literal l
  | .var v => .var (f v)
  | .binary op a b => .binary op (a.rename f) (b.rename f)
  | .oneOf needle candidates => .oneOf (needle.rename f) (Expression.renameEach f candidates)
  | .unary op operand => .unary op (operand.rename f)
  | .exists pattern => .exists (pattern.rename f)
  | .bound v => .bound (f v)
  | .ifThenElse condition yes no => .ifThenElse (condition.rename f) (yes.rename f) (no.rename f)
  | .coalesce choices => .coalesce (Expression.renameEach f choices)
  | .call function arguments => .call function (Expression.renameEach f arguments)

/-- The expressions with other names for their variables. -/
def Expression.renameEach (f : Variable → Variable) : List Expression → List Expression
  | [] => []
  | e :: rest => e.rename f :: Expression.renameEach f rest

/-- The sort keys with other names for their variables. -/
def Expression.renameKeys (f : Variable → Variable) :
    List (Direction × Expression) → List (Direction × Expression)
  | [] => []
  | (direction, e) :: rest => (direction, e.rename f) :: Expression.renameKeys f rest

/-- The condition with other names for its variables. -/
def Expression.renameCondition (f : Variable → Variable) : Option Expression → Option Expression
  | none => none
  | some condition => some (condition.rename f)

/-- The pattern with other names for its variables. -/
def GraphPattern.rename (f : Variable → Variable) : GraphPattern → GraphPattern
  | .quad pattern => .quad (pattern.rename f)
  | .join left right => .join (left.rename f) (right.rename f)
  | .leftJoin left right condition? =>
    .leftJoin (left.rename f) (right.rename f) (Expression.renameCondition f condition?)
  | .filter condition inner => .filter (condition.rename f) (inner.rename f)
  | .union left right => .union (left.rename f) (right.rename f)
  | .extend inner v value => .extend (inner.rename f) (f v) (value.rename f)
  | .distinct inner => .distinct (inner.rename f)
  | .orderBy inner keys => .orderBy (inner.rename f) (Expression.renameKeys f keys)
  | .slice inner start length? => .slice (inner.rename f) start length?
  | .project inner vs => .project (inner.rename f) (vs.map f)

end

/-! ## Mentioned variables -/

namespace Part

/-- The variables that stand in a part itself, not in one below it. -/
def names : Part → List Variable
  | pattern (.quad p) => p.vars
  | pattern (.extend _ v _) => [v]
  | pattern (.project _ vs) => vs
  | expression (.var v) => [v]
  | expression (.bound v) => [v]
  | _ => []

/-- Whether a variable stands somewhere in a part. -/
def Mentions (part : Part) (v : Variable) : Prop :=
  ∃ inner : Part, inner.Within part ∧ v ∈ inner.names

variable {part child : Part} {v : Variable}

theorem mentions_of_mem_names (h : v ∈ part.names) : part.Mentions v := ⟨part, .refl, h⟩

theorem Mentions.of_child (h : child.Mentions v) (hchild : child ∈ part.children) :
    part.Mentions v := by
  obtain ⟨inner, hinner, hv⟩ := h
  exact ⟨inner, .head hchild hinner, hv⟩

end Part

/-! ## Renamings that agree on the mentioned variables -/

section Agreeing

variable {f g : Variable → Variable}

theorem Position.rename_congr {α : Type} (p : Position α) (h : ∀ v, p.var? = some v → f v = g v) :
    p.rename f = p.rename g := by
  cases p with
  | given a => rfl
  | var v => exact congrArg Position.var (h v rfl)

theorem GraphPosition.rename_congr (p : GraphPosition) (h : ∀ v, p.var? = some v → f v = g v) :
    p.rename f = p.rename g := by
  cases p with
  | var v => exact congrArg GraphPosition.var (h v rfl)
  | _ => rfl

theorem QuadPattern.rename_congr (p : QuadPattern) (h : ∀ v ∈ p.vars, f v = g v) :
    p.rename f = p.rename g := by
  have hvar : ∀ v, some v ∈ [p.subject.var?, p.predicate.var?, p.object.var?, p.graph.var?] →
      f v = g v := fun v hv => h v (List.mem_filterMap.2 ⟨some v, hv, rfl⟩)
  unfold rename
  rw [p.subject.rename_congr fun v hv => hvar v (by simp [hv]),
    p.predicate.rename_congr fun v hv => hvar v (by simp [hv]),
    p.object.rename_congr fun v hv => hvar v (by simp [hv]),
    p.graph.rename_congr fun v hv => hvar v (by simp [hv])]

mutual

theorem Expression.rename_congr : ∀ e : Expression,
    (∀ v, (Part.expression e).Mentions v → f v = g v) → e.rename f = e.rename g
  | .iri _, _ => by simp only [Expression.rename]
  | .literal _, _ => by simp only [Expression.rename]
  | .var v, h => by
    simp only [Expression.rename, h v (Part.mentions_of_mem_names (List.mem_singleton_self v))]
  | .bound v, h => by
    simp only [Expression.rename, h v (Part.mentions_of_mem_names (List.mem_singleton_self v))]
  | .binary _ a b, h => by
    simp only [Expression.rename,
      a.rename_congr fun v hv => h v (hv.of_child (by simp [Part.children])),
      b.rename_congr fun v hv => h v (hv.of_child (by simp [Part.children]))]
  | .oneOf needle candidates, h => by
    simp only [Expression.rename,
      needle.rename_congr fun v hv => h v (hv.of_child (by simp [Part.children])),
      Expression.renameEach_congr candidates fun e he v hv =>
        h v (hv.of_child (by simp [Part.children, he]))]
  | .unary _ operand, h => by
    simp only [Expression.rename,
      operand.rename_congr fun v hv => h v (hv.of_child (by simp [Part.children]))]
  | .exists pattern, h => by
    simp only [Expression.rename,
      pattern.rename_congr fun v hv => h v (hv.of_child (by simp [Part.children]))]
  | .ifThenElse condition yes no, h => by
    simp only [Expression.rename,
      condition.rename_congr fun v hv => h v (hv.of_child (by simp [Part.children])),
      yes.rename_congr fun v hv => h v (hv.of_child (by simp [Part.children])),
      no.rename_congr fun v hv => h v (hv.of_child (by simp [Part.children]))]
  | .coalesce choices, h => by
    simp only [Expression.rename, Expression.renameEach_congr choices fun e he v hv =>
      h v (hv.of_child (by simp [Part.children, he]))]
  | .call _ arguments, h => by
    simp only [Expression.rename, Expression.renameEach_congr arguments fun e he v hv =>
      h v (hv.of_child (by simp [Part.children, he]))]

theorem Expression.renameEach_congr : ∀ es : List Expression,
    (∀ e ∈ es, ∀ v, (Part.expression e).Mentions v → f v = g v) →
      Expression.renameEach f es = Expression.renameEach g es
  | [], _ => by simp only [Expression.renameEach]
  | e :: rest, h => by
    simp only [Expression.renameEach, e.rename_congr (h e List.mem_cons_self),
      Expression.renameEach_congr rest fun e' he' => h e' (List.mem_cons_of_mem e he')]

theorem Expression.renameKeys_congr : ∀ keys : List (Direction × Expression),
    (∀ key ∈ keys, ∀ v, (Part.expression key.2).Mentions v → f v = g v) →
      Expression.renameKeys f keys = Expression.renameKeys g keys
  | [], _ => by simp only [Expression.renameKeys]
  | (direction, e) :: rest, h => by
    simp only [Expression.renameKeys, e.rename_congr (h (direction, e) List.mem_cons_self),
      Expression.renameKeys_congr rest fun key hkey => h key (List.mem_cons_of_mem _ hkey)]

theorem Expression.renameCondition_congr : ∀ condition? : Option Expression,
    (∀ e ∈ condition?, ∀ v, (Part.expression e).Mentions v → f v = g v) →
      Expression.renameCondition f condition? = Expression.renameCondition g condition?
  | none, _ => by simp only [Expression.renameCondition]
  | some condition, h => by
    simp only [Expression.renameCondition, condition.rename_congr (h condition rfl)]

/-- What the tree does not mention may be renamed in any way. -/
theorem GraphPattern.rename_congr : ∀ p : GraphPattern,
    (∀ v, (Part.pattern p).Mentions v → f v = g v) → p.rename f = p.rename g
  | .quad pattern, h => by
    simp only [GraphPattern.rename,
      pattern.rename_congr fun v hv => h v (Part.mentions_of_mem_names hv)]
  | .join left right, h => by
    simp only [GraphPattern.rename,
      left.rename_congr fun v hv => h v (hv.of_child (by simp [Part.children])),
      right.rename_congr fun v hv => h v (hv.of_child (by simp [Part.children]))]
  | .leftJoin left right condition?, h => by
    simp only [GraphPattern.rename,
      left.rename_congr fun v hv => h v (hv.of_child (by simp [Part.children])),
      right.rename_congr fun v hv => h v (hv.of_child (by simp [Part.children])),
      Expression.renameCondition_congr condition? fun e he v hv =>
        h v (hv.of_child (by simpa [Part.children] using he))]
  | .filter condition inner, h => by
    simp only [GraphPattern.rename,
      condition.rename_congr fun v hv => h v (hv.of_child (by simp [Part.children])),
      inner.rename_congr fun v hv => h v (hv.of_child (by simp [Part.children]))]
  | .union left right, h => by
    simp only [GraphPattern.rename,
      left.rename_congr fun v hv => h v (hv.of_child (by simp [Part.children])),
      right.rename_congr fun v hv => h v (hv.of_child (by simp [Part.children]))]
  | .extend inner w value, h => by
    simp only [GraphPattern.rename, h w (Part.mentions_of_mem_names (List.mem_singleton_self w)),
      inner.rename_congr fun v hv => h v (hv.of_child (by simp [Part.children])),
      value.rename_congr fun v hv => h v (hv.of_child (by simp [Part.children]))]
  | .distinct inner, h => by
    simp only [GraphPattern.rename,
      inner.rename_congr fun v hv => h v (hv.of_child (by simp [Part.children]))]
  | .orderBy inner keys, h => by
    simp only [GraphPattern.rename,
      inner.rename_congr fun v hv => h v (hv.of_child (by simp [Part.children])),
      Expression.renameKeys_congr keys fun key hkey v hv =>
        h v (hv.of_child (List.mem_cons_of_mem _ (List.mem_map_of_mem hkey)))]
  | .slice inner _ _, h => by
    simp only [GraphPattern.rename,
      inner.rename_congr fun v hv => h v (hv.of_child (by simp [Part.children]))]
  | .project inner vs, h => by
    have hvs : vs.map f = vs.map g :=
      List.map_congr_left fun v hv => h v (Part.mentions_of_mem_names hv)
    simp only [GraphPattern.rename, hvs,
      inner.rename_congr fun v hv => h v (hv.of_child (by simp [Part.children]))]

end

end Agreeing

/-! ## Renamings that keep names apart -/

section Injective

variable {f : Variable → Variable}

/-- The fault with another name for its variable. -/
def PatternFault.rename (f : Variable → Variable) : PatternFault → PatternFault
  | rebound v => .rebound (f v)
  | arity function given => .arity function given

/-- The plan with other names in its table. -/
def Plan.rename {α : Type} (f : Variable → Variable) (plan : Plan α) : Plan α :=
  ⟨plan.run, plan.slots.map f⟩

theorem Slots.place_map (hf : f.Injective) (slots : Slots) (v : Variable) :
    Slots.place (slots.map f) (f v) = ((slots.place v).1, (slots.place v).2.map f) := by
  unfold place
  rw [List.idxOf?_map hf]
  cases slots.idxOf? v with
  | some slot => rfl
  | none => simp

theorem Slots.mapping_map (hf : f.Injective) (slots : Slots) (first : Nat) (vs : List Variable) :
    Slots.mapping (slots.map f) first (vs.map f) =
      ((slots.mapping first vs).1, (slots.mapping first vs).2.map f) := by
  induction vs generalizing slots first with
  | nil => rfl
  | cons v vs ih => simp only [List.map_cons, mapping, place_map hf, ih]

theorem Position.selector_rename (hf : f.Injective) (pl : Planner) {α : Type} (toTerm : α → Term)
    (p : Position α) (slots : Slots) :
    (p.rename f).selector pl toTerm (slots.map f) =
      ((p.selector pl toTerm slots).1, (p.selector pl toTerm slots).2.map f) := by
  cases p with
  | given a => rfl
  | var v => simp only [rename, selector, Slots.place_map hf]

theorem GraphPosition.selector_rename (hf : f.Injective) (pl : Planner) (p : GraphPosition)
    (slots : Slots) :
    (p.rename f).selector pl (slots.map f) =
      ((p.selector pl slots).1, (p.selector pl slots).2.map f) := by
  cases p with
  | var v => simp only [rename, selector, Slots.place_map hf]
  | _ => rfl

theorem QuadPattern.plan_rename (hf : f.Injective) (pl : Planner) (p : QuadPattern)
    (slots : Slots) : (p.rename f).plan pl (slots.map f) = (p.plan pl slots).rename f := by
  have hselector : (p.rename f).selector pl (slots.map f) =
      ((p.selector pl slots).1, (p.selector pl slots).2.map f) := by
    simp only [selector, rename, Position.selector_rename hf, GraphPosition.selector_rename hf]
  have hplan := congrArg (fun s : QuadSelector × Slots => (⟨s.1.tuples pl, s.2⟩ : Plan _)) hselector
  -- a literal as the subject has a plan of its own
  obtain ⟨subject, predicate, object, graph⟩ := p
  cases subject with
  | var v => exact hplan
  | given t =>
    cases t with
    | literal l => rfl
    | _ => exact hplan

theorem QuadPattern.vars_rename (f : Variable → Variable) (p : QuadPattern) :
    (p.rename f).vars = p.vars.map f := by
  have hposition : ∀ {α : Type} (q : Position α), (q.rename f).var? = q.var?.map f := fun q => by
    cases q <;> rfl
  have hgraph : ∀ q : GraphPosition, (q.rename f).var? = q.var?.map f := fun q => by
    cases q <;> rfl
  have hall : [(p.rename f).subject.var?, (p.rename f).predicate.var?, (p.rename f).object.var?,
      (p.rename f).graph.var?] =
        [p.subject.var?, p.predicate.var?, p.object.var?, p.graph.var?].map (Option.map f) := by
    simp only [rename, hposition, hgraph, List.map_cons, List.map_nil]
  unfold vars
  rw [hall, List.filterMap_map, List.map_filterMap]
  rfl

theorem Expression.map_renameKeys (f : Variable → Variable) (keys : List (Direction × Expression)) :
    (renameKeys f keys).map (·.1) = keys.map (·.1) := by
  induction keys with
  | nil => simp only [renameKeys, List.map_nil]
  | cons key rest ih => simp only [renameKeys, List.map_cons, ih]

theorem Expression.length_renameEach (f : Variable → Variable) (es : List Expression) :
    (renameEach f es).length = es.length := by
  induction es with
  | nil => simp only [renameEach]
  | cons e rest ih => simp only [renameEach, List.length_cons, ih]

theorem GraphPattern.inScope_rename (f : Variable → Variable) :
    ∀ p : GraphPattern, (p.rename f).inScope = p.inScope.map f
  | .quad pattern => by simp only [rename, inScope, pattern.vars_rename f]
  | .join left right | .leftJoin left right _ | .union left right => by
    simp only [rename, inScope, left.inScope_rename, right.inScope_rename, List.map_append]
  | .extend inner v _ => by
    simp only [rename, inScope, inner.inScope_rename, List.map_append, List.map_singleton]
  | .filter _ inner | .distinct inner | .orderBy inner _ | .slice inner _ _ => by
    simp only [rename, inScope, inner.inScope_rename]
  | .project _ _ => by simp only [rename, inScope]

mutual

theorem Expression.fault?_rename (hf : f.Injective) :
    ∀ e : Expression, (e.rename f).fault? = e.fault?.map (·.rename f)
  | .iri _ | .literal _ | .var _ | .bound _ => by
    simp only [Expression.rename, Expression.fault?, Option.map_none]
  | .binary _ a b => by
    simp only [Expression.rename, Expression.fault?, a.fault?_rename hf, b.fault?_rename hf,
      Option.map_orElse]
  | .oneOf needle candidates => by
    simp only [Expression.rename, Expression.fault?, needle.fault?_rename hf,
      Expression.faultIn?_renameEach hf candidates, Option.map_orElse]
  | .unary _ operand => by
    simp only [Expression.rename, Expression.fault?, operand.fault?_rename hf]
  | .exists pattern => by
    simp only [Expression.rename, Expression.fault?, pattern.fault?_rename hf]
  | .ifThenElse condition yes no => by
    simp only [Expression.rename, Expression.fault?, condition.fault?_rename hf,
      yes.fault?_rename hf, no.fault?_rename hf, Option.map_orElse]
  | .coalesce choices => by
    simp only [Expression.rename, Expression.fault?, Expression.faultIn?_renameEach hf choices]
  | .call function arguments => by
    simp only [Expression.rename, Expression.fault?, Expression.faultIn?_renameEach hf arguments,
      Expression.length_renameEach]
    split
    · rfl
    · rfl

theorem Expression.faultIn?_renameEach (hf : f.Injective) : ∀ es : List Expression,
    Expression.faultIn? (Expression.renameEach f es) =
      (Expression.faultIn? es).map (·.rename f)
  | [] => by simp only [Expression.renameEach, Expression.faultIn?, Option.map_none]
  | e :: rest => by
    simp only [Expression.renameEach, Expression.faultIn?, e.fault?_rename hf,
      Expression.faultIn?_renameEach hf rest, Option.map_orElse]

theorem Expression.faultInKeys?_renameKeys (hf : f.Injective) :
    ∀ keys : List (Direction × Expression),
      Expression.faultInKeys? (Expression.renameKeys f keys) =
        (Expression.faultInKeys? keys).map (·.rename f)
  | [] => by simp only [Expression.renameKeys, Expression.faultInKeys?, Option.map_none]
  | (_, e) :: rest => by
    simp only [Expression.renameKeys, Expression.faultInKeys?, e.fault?_rename hf,
      Expression.faultInKeys?_renameKeys hf rest, Option.map_orElse]

theorem Expression.faultInCondition?_renameCondition (hf : f.Injective) :
    ∀ condition? : Option Expression,
      Expression.faultInCondition? (Expression.renameCondition f condition?) =
        (Expression.faultInCondition? condition?).map (·.rename f)
  | none => by
    simp only [Expression.renameCondition, Expression.faultInCondition?, Option.map_none]
  | some condition => by
    simp only [Expression.renameCondition, Expression.faultInCondition?,
      condition.fault?_rename hf]

theorem GraphPattern.fault?_rename (hf : f.Injective) :
    ∀ p : GraphPattern, (p.rename f).fault? = p.fault?.map (·.rename f)
  | .quad _ => by simp only [GraphPattern.rename, GraphPattern.fault?, Option.map_none]
  | .join left right | .union left right => by
    simp only [GraphPattern.rename, GraphPattern.fault?, left.fault?_rename hf,
      right.fault?_rename hf, Option.map_orElse]
  | .leftJoin left right condition? => by
    simp only [GraphPattern.rename, GraphPattern.fault?, left.fault?_rename hf,
      right.fault?_rename hf, Expression.faultInCondition?_renameCondition hf condition?,
      Option.map_orElse]
  | .filter condition inner => by
    simp only [GraphPattern.rename, GraphPattern.fault?, inner.fault?_rename hf,
      condition.fault?_rename hf, Option.map_orElse]
  | .extend inner v value => by
    -- names that stay apart are rebound only if they were
    simp only [GraphPattern.rename, GraphPattern.fault?, inner.fault?_rename hf,
      value.fault?_rename hf, inner.inScope_rename, List.contains_iff_mem,
      List.mem_map_of_injective hf]
    split
    · rfl
    · exact (Option.map_orElse _ _ _).symm
  | .distinct inner | .slice inner _ _ | .project inner _ => by
    simp only [GraphPattern.rename, GraphPattern.fault?, inner.fault?_rename hf]
  | .orderBy inner keys => by
    simp only [GraphPattern.rename, GraphPattern.fault?, inner.fault?_rename hf,
      Expression.faultInKeys?_renameKeys hf keys, Option.map_orElse]

end

mutual

theorem Expression.plan_rename (hf : f.Injective) (pl : Planner) : ∀ (e : Expression)
    (slots : Slots), (e.rename f).plan pl (slots.map f) = (e.plan pl slots).rename f
  | .iri _, slots | .literal _, slots => by
    simp only [Expression.rename, Expression.plan, Plan.rename]
  | .var v, slots | .bound v, slots => by
    simp only [Expression.rename, Expression.plan, Plan.rename, Slots.place_map hf]
  | .binary _ a b, slots => by
    simp only [Expression.rename, Expression.plan, Plan.rename, a.plan_rename hf pl,
      b.plan_rename hf pl]
  | .oneOf needle candidates, slots => by
    simp only [Expression.rename, Expression.plan, Plan.rename, needle.plan_rename hf pl,
      Expression.planEach_rename hf pl candidates]
  | .unary _ operand, slots => by
    simp only [Expression.rename, Expression.plan, Plan.rename, operand.plan_rename hf pl]
  | .exists pattern, slots => by
    simp only [Expression.rename, Expression.plan, Plan.rename, pattern.plan_rename hf pl]
  | .ifThenElse condition yes no, slots => by
    simp only [Expression.rename, Expression.plan, Plan.rename, condition.plan_rename hf pl,
      yes.plan_rename hf pl, no.plan_rename hf pl]
  | .coalesce choices, slots => by
    simp only [Expression.rename, Expression.plan, Plan.rename,
      Expression.planEach_rename hf pl choices]
  | .call _ arguments, slots => by
    simp only [Expression.rename, Expression.plan, Plan.rename,
      Expression.planEach_rename hf pl arguments]

theorem Expression.planEach_rename (hf : f.Injective) (pl : Planner) :
    ∀ (es : List Expression) (slots : Slots),
      Expression.planEach pl (Expression.renameEach f es) (slots.map f) =
        (Expression.planEach pl es slots).rename f
  | [], slots => by simp only [Expression.renameEach, Expression.planEach, Plan.rename]
  | e :: rest, slots => by
    simp only [Expression.renameEach, Expression.planEach, Plan.rename, e.plan_rename hf pl,
      Expression.planEach_rename hf pl rest]

theorem Expression.planKeys_rename (hf : f.Injective) (pl : Planner) :
    ∀ (keys : List (Direction × Expression)) (slots : Slots),
      Expression.planKeys pl (Expression.renameKeys f keys) (slots.map f) =
        (Expression.planKeys pl keys slots).rename f
  | [], slots => by simp only [Expression.renameKeys, Expression.planKeys, Plan.rename]
  | (_, e) :: rest, slots => by
    simp only [Expression.renameKeys, Expression.planKeys, Plan.rename, e.plan_rename hf pl,
      Expression.planKeys_rename hf pl rest]

theorem Expression.planCondition_rename (hf : f.Injective) (pl : Planner) :
    ∀ (condition? : Option Expression) (slots : Slots),
      Expression.planCondition pl (Expression.renameCondition f condition?) (slots.map f) =
        (Expression.planCondition pl condition? slots).rename f
  | none, slots => by
    simp only [Expression.renameCondition, Expression.planCondition, Plan.rename]
  | some condition, slots => by
    simp only [Expression.renameCondition, Expression.planCondition, Plan.rename,
      condition.plan_rename hf pl]

/-- The plan of a pattern does the same under other names. -/
theorem GraphPattern.plan_rename (hf : f.Injective) (pl : Planner) : ∀ (p : GraphPattern)
    (slots : Slots), (p.rename f).plan pl (slots.map f) = (p.plan pl slots).rename f
  | .quad pattern, slots => by
    simp only [GraphPattern.rename, GraphPattern.plan, pattern.plan_rename hf pl]
  | .join left right, slots | .union left right, slots => by
    simp only [GraphPattern.rename, GraphPattern.plan, Plan.rename, left.plan_rename hf pl,
      right.plan_rename hf pl]
  | .leftJoin left right condition?, slots => by
    simp only [GraphPattern.rename, GraphPattern.plan, Plan.rename, left.plan_rename hf pl,
      right.plan_rename hf pl, Expression.planCondition_rename hf pl condition?]
  | .filter condition inner, slots => by
    simp only [GraphPattern.rename, GraphPattern.plan, Plan.rename, inner.plan_rename hf pl,
      condition.plan_rename hf pl]
  | .extend inner v value, slots => by
    simp only [GraphPattern.rename, GraphPattern.plan, Plan.rename, inner.plan_rename hf pl,
      Slots.place_map hf, value.plan_rename hf pl]
  | .distinct inner, slots | .slice inner _ _, slots => by
    simp only [GraphPattern.rename, GraphPattern.plan, Plan.rename, inner.plan_rename hf pl]
  | .orderBy inner keys, slots => by
    simp only [GraphPattern.rename, GraphPattern.plan, Plan.rename, inner.plan_rename hf pl,
      Expression.planKeys_rename hf pl keys, Expression.map_renameKeys]
  | .project inner vs, slots => by
    -- the table inside begins with the projected variables, so that it is renamed as a whole
    simp only [GraphPattern.rename, GraphPattern.plan, Plan.rename, inner.plan_rename hf pl,
      Slots.mapping_map hf]

end

end Injective

end QuadStore
