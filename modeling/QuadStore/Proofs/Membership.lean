import QuadStore.Proofs.Coherence
import QuadStore.Proofs.Replanning

/-!
# Membership

An expression is among some others if it is equal to one of them. The test looks at the candidates
one after the other, with the needle evaluated once; a disjunction of equalities, however it is
bracketed, evaluates the needle for each of them. They give the same truth value or the same failure
in every row, and so do their opposites: `Expression.oneOf_eq_disjunction`.
-/

namespace QuadStore

/-! ## Connectives over lists -/

namespace Truth

/-- True if one of some truth values is, false if all are. -/
def any (ts : List (Option Bool)) : Option Bool := ts.foldr or (some false)

/-- False if one of some truth values is, true if all are. -/
def all (ts : List (Option Bool)) : Option Bool := ts.foldr and (some true)

theorem not_or : ∀ x y, not (or x y) = and (not x) (not y) := by decide

theorem not_any (ts : List (Option Bool)) : not (any ts) = all (ts.map not) := by
  induction ts with
  | nil => rfl
  | cons x ts ih =>
    show not (or x (any ts)) = and (not x) (all (ts.map not))
    rw [not_or, ih]

theorem any_cons_none_ne_true {ts : List (Option Bool)} (h : ∀ x ∈ ts, x = none) :
    any (none :: ts) = none := by
  induction ts with
  | nil => rfl
  | cons x ts ih =>
    have hx : x = none := h x List.mem_cons_self
    have hts := ih fun y hy => h y (List.mem_cons_of_mem x hy)
    show or none (any (x :: ts)) = none
    rw [hx, hts]
    rfl

/-- A needle that is missing makes every equality fail, and so their disjunction. -/
theorem bind_any {α : Type} (equal? : α → α → Option Bool) (x? : Option α) {cs : List (Option α)}
    (h : cs ≠ []) :
    (x?.bind fun x => any (cs.map fun c? => c?.bind (equal? x))) =
      any (cs.map fun c? => x?.bind fun x => c?.bind (equal? x)) := by
  cases x? with
  | some x => rfl
  | none =>
    obtain ⟨c?, rest, rfl⟩ := List.exists_cons_of_ne_nil h
    symm
    apply any_cons_none_ne_true
    intro x hx
    obtain ⟨-, -, rfl⟩ := List.mem_map.1 hx
    rfl

end Truth

/-- What an operator does that looks at the truth of its sides alone: it does not matter how several
of it are bracketed, and there is a truth value that adds nothing. -/
structure BinaryOp.IsConnective (op : BinaryOp) (f : Option Bool → Option Bool → Option Bool)
    (unit : Option Bool) : Prop where
  combine : ∀ a? b?, op.combine? a? b? =
    (f (Datum.truthOf? a?) (Datum.truthOf? b?)).map .ofBool
  cells : ∀ a? b?, op.combineCells? a? b? =
    (op.combine? (a?.map (·.datum)) (b?.map (·.datum))).map .computed
  assoc : ∀ x y z, f (f x y) z = f x (f y z)
  unit_left : ∀ x, f unit x = x
  unit_right : ∀ x, f x unit = x

namespace BinaryOp

theorem isConnective_or : or.IsConnective Truth.or (some false) where
  combine _ _ := rfl
  cells _ _ := rfl
  assoc := by decide
  unit_left := by decide
  unit_right := by decide

theorem isConnective_and : and.IsConnective Truth.and (some true) where
  combine _ _ := rfl
  cells _ _ := rfl
  assoc := by decide
  unit_left := by decide
  unit_right := by decide

variable {op : BinaryOp} {f : Option Bool → Option Bool → Option Bool} {unit : Option Bool}

theorem IsConnective.foldr_append (h : op.IsConnective f unit) (xs ys : List (Option Bool)) :
    (xs ++ ys).foldr f unit = f (xs.foldr f unit) (ys.foldr f unit) := by
  induction xs with
  | nil => exact (h.unit_left _).symm
  | cons x xs ih => rw [List.cons_append, List.foldr_cons, List.foldr_cons, ih, h.assoc]

end BinaryOp

/-! ## Truth values of data and of cells -/

namespace Datum

theorem truthOf?_map_ofBool (x : Option Bool) : truthOf? (x.map ofBool) = x := by
  cases x <;> rfl

/-- A boolean, or nothing where there is an error. -/
def IsTruth (d? : Option Datum) : Prop := d? = (truthOf? d?).map ofBool

theorem isTruth_map_ofBool (x : Option Bool) : IsTruth (x.map ofBool) := by
  unfold IsTruth
  rw [truthOf?_map_ofBool]

theorem among?_eq_any (d : Datum) (cs : List (Option Datum)) :
    d.among? cs = Truth.any (cs.map fun c? => c?.bind d.equal?) := by
  induction cs with
  | nil => rfl
  | cons c? cs ih =>
    show Truth.or _ (d.among? cs) = Truth.or _ (Truth.any _)
    rw [ih]

end Datum

namespace Cell

/-- The truth value of what stands in a slot. -/
def truthOf? (c? : Option Cell) : Option Bool := Datum.truthOf? (c?.map (·.datum))

/-- The cell of a truth value. -/
def ofTruth (x : Option Bool) : Option Cell := x.map fun b => computed (.ofBool b)

/-- Whether the cells of two expressions are equal. -/
def equalOf? (a? b? : Option Cell) : Option Bool := a?.bind fun a => b?.bind a.equal?

theorem truthOf?_ofTruth (x : Option Bool) : truthOf? (ofTruth x) = x := by
  cases x <;> rfl

theorem among?_eq_any (c : Cell) (cs : List (Option Cell)) :
    c.among? cs = Truth.any (cs.map fun c? => c?.bind c.equal?) := by
  induction cs with
  | nil => rfl
  | cons c? cs ih =>
    show Truth.or _ (c.among? cs) = Truth.or _ (Truth.any _)
    rw [ih]

theorem combineCells?_equal (a? b? : Option Cell) :
    BinaryOp.equal.combineCells? a? b? = ofTruth (equalOf? a? b?) := by
  cases a? with
  | none => rfl
  | some a => cases b? <;> rfl

theorem bind_ofCell?_not (x : Option Bool) :
    (ofTruth x).bind UnaryOp.not.ofCell? = ofTruth (Truth.not x) := by
  cases x <;> rfl

theorem combineCells?_eq {op : BinaryOp} {f : Option Bool → Option Bool → Option Bool}
    {unit : Option Bool} (h : op.IsConnective f unit) (x y : Option Bool) :
    op.combineCells? (ofTruth x) (ofTruth y) = ofTruth (f x y) := by
  rw [h.cells, h.combine]
  show ((f (truthOf? (ofTruth x)) (truthOf? (ofTruth y))).map _).map _ = _
  rw [truthOf?_ofTruth, truthOf?_ofTruth, Option.map_map]
  rfl

end Cell

namespace Expression

/-! ## Brackets -/

/-- An expression that joins some expressions, in their order, by an operator between two, however
it is bracketed. -/
inductive Nests (op : BinaryOp) : List Expression → Expression → Prop
  | one (e : Expression) : Nests op [e] e
  | both {es fs : List Expression} {a b : Expression} : Nests op es a → Nests op fs b →
      Nests op (es ++ fs) (.binary op a b)

/-- The equality of an expression and a candidate, and the opposite of it. -/
def equals (e f : Expression) : Expression := .binary .equal e f

def differs (e f : Expression) : Expression := .unary .not (e.equals f)

section Nesting

variable {op : BinaryOp} {f : Option Bool → Option Bool → Option Bool} {unit : Option Bool}
  {es fs : List Expression} {d : Expression}

/-- There is no expression that joins no expressions. -/
theorem Nests.ne_nil (h : Nests op es d) : es ≠ [] := by
  induction h with
  | one e => exact List.cons_ne_nil e []
  | both _ _ ih _ => exact List.append_ne_nil_of_left_ne_nil ih _

theorem faultIn?_append (es fs : List Expression) :
    faultIn? (es ++ fs) = (faultIn? es <|> faultIn? fs) := by
  induction es with
  | nil => simp [faultIn?]
  | cons e es ih =>
    simp only [List.cons_append, faultIn?, ih]
    cases e.fault? <;> rfl

/-- The first fault is that of the first part that has one. -/
theorem Nests.fault?_eq (h : Nests op es d) : d.fault? = faultIn? es := by
  induction h with
  | one e => simp [faultIn?]
  | both _ _ iha ihb => rw [fault?, iha, ihb, faultIn?_append]

theorem evalEach_eq_map (dataset : Dataset) (es : List Expression) (row : Row) :
    evalEach dataset es row = es.map fun e => e.eval dataset row := by
  induction es with
  | nil => simp only [evalEach, List.map_nil]
  | cons e es ih => simp only [evalEach, List.map_cons, ih]

/-- The value does not depend on the brackets. -/
theorem Nests.eval_eq (h : Nests op es d) (hop : op.IsConnective f unit) {dataset : Dataset}
    {row : Row} (htruth : ∀ e ∈ es, Datum.IsTruth (e.eval dataset row)) :
    d.eval dataset row =
      ((es.map fun e => Datum.truthOf? (e.eval dataset row)).foldr f unit).map .ofBool := by
  induction h with
  | one e =>
    rw [List.map_singleton, List.foldr_cons, List.foldr_nil, hop.unit_right]
    exact htruth e List.mem_cons_self
  | @both es fs a b _ _ iha ihb =>
    have ha := iha fun e he => htruth e (List.mem_append_left fs he)
    have hb := ihb fun e he => htruth e (List.mem_append_right es he)
    rw [List.map_append, hop.foldr_append, eval, ha, hb, hop.combine, Datum.truthOf?_map_ofBool,
      Datum.truthOf?_map_ofBool]

theorem planEach_append (pl : Planner) (es fs : List Expression) (slots : Slots) :
    planEach pl (es ++ fs) slots =
      ⟨fun t => (planEach pl es slots).run t ++
          (planEach pl fs (planEach pl es slots).slots).run t,
        (planEach pl fs (planEach pl es slots).slots).slots⟩ := by
  induction es generalizing slots with
  | nil => simp only [planEach, List.nil_append]
  | cons e es ih => simp only [planEach, List.cons_append, ih]

theorem length_planEach (pl : Planner) (es : List Expression) (slots : Slots) (t : Tuple) :
    ((planEach pl es slots).run t).length = es.length := by
  induction es generalizing slots with
  | nil => simp only [planEach, List.length_nil]
  | cons e es ih => simp only [planEach, List.length_cons, ih]

/-- The plan does not depend on the brackets. -/
theorem Nests.plan_eq (h : Nests op es d) (hop : op.IsConnective f unit) {pl : Planner}
    (htruth : ∀ e ∈ es, ∀ slots t, ∃ x, (e.plan pl slots).run t = Cell.ofTruth x) (slots : Slots) :
    d.plan pl slots =
      ⟨fun t => Cell.ofTruth ((((planEach pl es slots).run t).map Cell.truthOf?).foldr f unit),
        (planEach pl es slots).slots⟩ := by
  induction h generalizing slots with
  | one e =>
    simp only [planEach]
    suffices hrun : ∀ t, (e.plan pl slots).run t =
        Cell.ofTruth (([(e.plan pl slots).run t].map Cell.truthOf?).foldr f unit) by
      rw [← funext hrun]
    intro t
    obtain ⟨x, hx⟩ := htruth e List.mem_cons_self slots t
    rw [hx, List.map_singleton, List.foldr_cons, List.foldr_nil, hop.unit_right,
      Cell.truthOf?_ofTruth]
  | @both es fs a b _ _ iha ihb =>
    have ha := iha fun e he => htruth e (List.mem_append_left fs he)
    have hb := ihb fun e he => htruth e (List.mem_append_right es he)
    simp only [Expression.plan]
    rw [ha, hb, planEach_append]
    simp only [List.map_append, hop.foldr_append, Cell.combineCells?_eq hop]

end Nesting

/-! ## Comparing with a needle -/

/-- What each candidate is made into: a comparison with the needle, or the opposite of one. -/
structure Compares (e : Expression) (item : Expression → Expression)
    (side : Option Bool → Option Bool) : Prop where
  fault : ∀ f, (item f).fault? = (e.fault? <|> f.fault?)
  eval : ∀ dataset row f, (item f).eval dataset row =
    (side (Datum.equalOf? (e.eval dataset row) (f.eval dataset row))).map .ofBool
  plan : ∀ pl slots f, (item f).plan pl slots =
    ⟨fun t => Cell.ofTruth (side (Cell.equalOf? ((e.plan pl slots).run t)
        ((f.plan pl (e.plan pl slots).slots).run t))),
      (f.plan pl (e.plan pl slots).slots).slots⟩

theorem compares_equals (e : Expression) : e.Compares e.equals id where
  fault f := by rw [equals, fault?]
  eval dataset row f := by rw [equals, Expression.eval, BinaryOp.combine?_equal, id_eq]
  plan pl slots f := by
    rw [equals, Expression.plan]
    simp only [Cell.combineCells?_equal, id_eq]

theorem eval_not {dataset : Dataset} {row : Row} {e : Expression} {x : Option Bool}
    (h : e.eval dataset row = x.map .ofBool) :
    (Expression.unary .not e).eval dataset row = (Truth.not x).map .ofBool := by
  rw [eval, h]
  cases x <;> rfl

theorem plan_not {pl : Planner} {slots table : Slots} {e : Expression} {x : Tuple → Option Bool}
    (h : e.plan pl slots = ⟨fun t => Cell.ofTruth (x t), table⟩) :
    (Expression.unary .not e).plan pl slots =
      ⟨fun t => Cell.ofTruth (Truth.not (x t)), table⟩ := by
  rw [plan, h]
  simp only [Cell.bind_ofCell?_not]

theorem compares_differs (e : Expression) : e.Compares e.differs Truth.not where
  fault f := by rw [differs, fault?, e.compares_equals.fault]
  eval dataset row f := eval_not (e.compares_equals.eval dataset row f)
  plan pl slots f := plan_not (e.compares_equals.plan pl slots f)

section Comparison

variable {e d : Expression} {es : List Expression} {item : Expression → Expression}
  {side : Option Bool → Option Bool} {op : BinaryOp} {f : Option Bool → Option Bool → Option Bool}
  {unit : Option Bool}

/-- The needle is refused in its first place or not at all. -/
theorem Compares.faultIn?_map (hitem : e.Compares item side) (h : es ≠ []) :
    faultIn? (es.map item) = (e.fault? <|> faultIn? es) := by
  induction es with
  | nil => exact absurd rfl h
  | cons c es ih =>
    rw [List.map_cons, faultIn?, faultIn?, hitem.fault]
    cases es with
    | nil =>
      simp only [List.map_nil, faultIn?]
      cases e.fault? <;> cases c.fault? <;> rfl
    | cons c' es =>
      rw [ih (List.cons_ne_nil c' es)]
      cases e.fault? <;> cases c.fault? <;> rfl

/-- After the first comparison the needle has its slots, so that it is planned as before. -/
theorem Compares.planEach_map (hitem : e.Compares item side) {pl : Planner} {slots table : Slots}
    (h : (e.plan pl slots).slots <+: table) :
    planEach pl (es.map item) table =
      ⟨fun t => ((planEach pl es table).run t).map fun c? =>
          Cell.ofTruth (side (Cell.equalOf? ((e.plan pl slots).run t) c?)),
        (planEach pl es table).slots⟩ := by
  induction es generalizing table with
  | nil => simp only [planEach, List.map_nil]
  | cons c es ih =>
    have hrest := ih (h.trans (c.prefix_plan pl table))
    have hneedle := e.plan_of_prefix pl h
    simp only [List.map_cons, planEach]
    rw [hitem.plan, hneedle, hrest]

theorem Compares.planEach_map_of_ne_nil (hitem : e.Compares item side) (h : es ≠ [])
    (pl : Planner) (slots : Slots) :
    planEach pl (es.map item) slots =
      ⟨fun t => ((planEach pl es (e.plan pl slots).slots).run t).map fun c? =>
          Cell.ofTruth (side (Cell.equalOf? ((e.plan pl slots).run t) c?)),
        (planEach pl es (e.plan pl slots).slots).slots⟩ := by
  obtain ⟨c, rest, rfl⟩ := List.exists_cons_of_ne_nil h
  have hrest : planEach pl (rest.map item) _ = _ :=
    hitem.planEach_map (c.prefix_plan pl (e.plan pl slots).slots)
  simp only [List.map_cons, planEach]
  rw [hitem.plan, hrest]

/-- What comparisons with a needle come to that are joined in some way. -/
structure JoinsTo (d e : Expression) (es : List Expression)
    (f : List (Option Bool) → Option Bool) (side : Option Bool → Option Bool) : Prop where
  fault : d.fault? = (e.fault? <|> faultIn? es)
  eval : ∀ dataset row, d.eval dataset row =
    (f ((evalEach dataset es row).map fun d? =>
      side (Datum.equalOf? (e.eval dataset row) d?))).map .ofBool
  plan : ∀ pl slots, d.plan pl slots =
    ⟨fun t => Cell.ofTruth (f (((planEach pl es (e.plan pl slots).slots).run t).map fun c? =>
        side (Cell.equalOf? ((e.plan pl slots).run t) c?))),
      (planEach pl es (e.plan pl slots).slots).slots⟩

theorem Compares.joinsTo (hitem : e.Compares item side) (hop : op.IsConnective f unit)
    (h : Nests op (es.map item) d) : d.JoinsTo e es (·.foldr f unit) side where
  fault := by
    rw [h.fault?_eq, hitem.faultIn?_map (mt (congrArg (List.map item)) h.ne_nil)]
  eval dataset row := by
    have htruth : ∀ c ∈ es.map item, Datum.IsTruth (c.eval dataset row) := by
      intro c hc
      obtain ⟨g, -, rfl⟩ := List.mem_map.1 hc
      rw [hitem.eval]
      exact Datum.isTruth_map_ofBool _
    rw [h.eval_eq hop htruth, evalEach_eq_map, List.map_map, List.map_map]
    congr 2
    apply List.map_congr_left
    intro c _
    show Datum.truthOf? ((item c).eval dataset row) = _
    rw [hitem.eval, Datum.truthOf?_map_ofBool]
    rfl
  plan pl slots := by
    have htruth : ∀ c ∈ es.map item, ∀ slots t, ∃ x, (c.plan pl slots).run t = Cell.ofTruth x := by
      intro c hc slots t
      obtain ⟨g, -, rfl⟩ := List.mem_map.1 hc
      rw [hitem.plan]
      exact ⟨_, rfl⟩
    have hes : es ≠ [] := mt (congrArg (List.map item)) h.ne_nil
    rw [h.plan_eq hop htruth, hitem.planEach_map_of_ne_nil hes]
    simp only [List.map_map, Function.comp_def, Cell.truthOf?_ofTruth]

/-- A missing needle leaves all comparisons without a value, and so their disjunction. -/
theorem joinsTo_oneOf (h : es ≠ []) : (oneOf e es).JoinsTo e es Truth.any id where
  fault := by rw [fault?]
  eval dataset row := by
    have hes : evalEach dataset es row ≠ [] := by
      rw [evalEach_eq_map]
      exact mt List.map_eq_nil_iff.1 h
    rw [eval]
    show _ = (Truth.any ((evalEach dataset es row).map (Datum.equalOf? _))).map Datum.ofBool
    unfold Datum.equalOf?
    rw [← Truth.bind_any _ _ hes, Option.map_bind]
    simp only [Datum.among?_eq_any, Function.comp_def]
  plan pl slots := by
    have hes : ∀ t, (planEach pl es (e.plan pl slots).slots).run t ≠ [] := by
      intro t ht
      apply h
      rw [← List.length_eq_zero_iff, ← length_planEach pl es (e.plan pl slots).slots t, ht]
      rfl
    rw [plan]
    congr 1
    funext t
    show _ = Cell.ofTruth (Truth.any (List.map (Cell.equalOf? _) _))
    unfold Cell.equalOf? Cell.ofTruth
    rw [← Truth.bind_any _ _ (hes t), Option.map_bind]
    simp only [Cell.among?_eq_any, Function.comp_def]

theorem JoinsTo.opposite (h : d.JoinsTo e es Truth.any id) :
    (Expression.unary .not d).JoinsTo e es Truth.all Truth.not where
  fault := by rw [fault?, h.fault]
  eval dataset row := by
    rw [eval_not (h.eval dataset row), Truth.not_any, List.map_map]
    rfl
  plan pl slots := by
    rw [plan_not (h.plan pl slots)]
    simp only [Truth.not_any, List.map_map, Function.comp_def, id_eq]

/-- Two expressions that are refused for the same reason, and that are evaluated and planned
alike. -/
structure Synonymous (a b : Expression) : Prop where
  fault : a.fault? = b.fault?
  eval : ∀ dataset row, a.eval dataset row = b.eval dataset row
  plan : ∀ pl slots, a.plan pl slots = b.plan pl slots

theorem JoinsTo.synonymous {d' : Expression} {f : List (Option Bool) → Option Bool}
    (h : d.JoinsTo e es f side) (h' : d'.JoinsTo e es f side) : d.Synonymous d' where
  fault := by rw [h.fault, h'.fault]
  eval dataset row := by rw [h.eval, h'.eval]
  plan pl slots := by rw [h.plan, h'.plan]

end Comparison

/-- A membership test is a boolean or an error. It is the disjunction of the equalities with its
candidates, however that is bracketed, and its opposite is the conjunction of their opposites. -/
theorem oneOf_eq_disjunction (e : Expression) (es : List Expression) :
    (∀ d, Nests .or (es.map e.equals) d → (oneOf e es).Synonymous d) ∧
    (∀ c, Nests .and (es.map e.differs) c → (Expression.unary .not (oneOf e es)).Synonymous c) ∧
    ∀ dataset row, (oneOf e es).eval dataset row = none ∨
      ∃ b, (oneOf e es).eval dataset row = some (.ofBool b) := by
  refine ⟨?_, ?_, ?_⟩
  · intro d hd
    have hes : es ≠ [] := mt (congrArg (List.map e.equals)) hd.ne_nil
    have hjoin : d.JoinsTo e es Truth.any id :=
      e.compares_equals.joinsTo BinaryOp.isConnective_or hd
    exact (joinsTo_oneOf hes).synonymous hjoin
  · intro c hc
    have hes : es ≠ [] := mt (congrArg (List.map e.differs)) hc.ne_nil
    have hjoin : c.JoinsTo e es Truth.all Truth.not :=
      e.compares_differs.joinsTo BinaryOp.isConnective_and hc
    exact (joinsTo_oneOf hes).opposite.synonymous hjoin
  · intro dataset row
    simp only [eval]
    cases e.eval dataset row with
    | none => exact .inl rfl
    | some d =>
      show (d.among? _).map _ = none ∨ ∃ b, (d.among? _).map _ = _
      cases d.among? (evalEach dataset es row) with
      | none => exact .inl rfl
      | some b => exact .inr ⟨b, rfl⟩

/-- Whether there is any quad. -/
def anyQuad : Expression := .exists (.quad ⟨.var ⟨"s"⟩, .var ⟨"p"⟩, .var ⟨"o"⟩, .any⟩)

/-- A variable without a value, a quotient by zero and a test for quads. -/
def failing : List Expression :=
  [.var ⟨"u"⟩, .binary .divide (.literal (.ofInt 1)) (.literal (.ofInt 0)), anyQuad]

/-- Two candidates fail before one is equal to the needle. -/
theorem oneOf_eq_disjunction_failing :
    let first := anyQuad.equals (.var ⟨"u"⟩)
    let second := anyQuad.equals (.binary .divide (.literal (.ofInt 1)) (.literal (.ofInt 0)))
    let third := anyQuad.equals anyQuad
    let disjunction := Expression.binary .or (.binary .or first second) third
    let conjunction := Expression.binary .and (.unary .not first)
      (.binary .and (.unary .not second) (.unary .not third))
    Nests .or (failing.map anyQuad.equals) disjunction ∧
    Nests .and (failing.map anyQuad.differs) conjunction ∧
    (oneOf anyQuad failing).Synonymous disjunction ∧
    (Expression.unary .not (oneOf anyQuad failing)).Synonymous conjunction ∧
    Datum.truthOf? (disjunction.eval (.ofQuads []) .empty) = some true ∧
    Datum.truthOf? (conjunction.eval (.ofQuads []) .empty) = some false := by
  intro first second third disjunction conjunction
  have hor : Nests .or (failing.map anyQuad.equals) disjunction :=
    .both (.both (.one first) (.one second)) (.one third)
  have hand : Nests .and (failing.map anyQuad.differs) conjunction :=
    .both (.one (.unary .not first)) (.both (.one (.unary .not second)) (.one (.unary .not third)))
  have hmember := oneOf_eq_disjunction anyQuad failing
  exact ⟨hor, hand, hmember.1 _ hor, hmember.2.1 _ hand, by decide +kernel, by decide +kernel⟩

end Expression

end QuadStore
