import QuadStore.Algebra.GraphPattern

/-!
# Faults of patterns

A pattern is refused before its evaluation if somewhere in it a computed variable is in scope in
the pattern that it extends, or a function has a number of arguments outside its arity. Of several
faults the first one counts: of a pattern before its expressions, of a call before its arguments.
-/

namespace QuadStore

/-- What makes a pattern be refused. -/
inductive PatternFault where
  | rebound (v : Variable)
  | arity (function : Function) (given : Nat)
deriving DecidableEq, Repr

/-- What the fault says. -/
def PatternFault.message : PatternFault → String
  | rebound v => v.text ++ " is bound by the pattern it extends"
  | arity function given =>
    let (least, most) := function.arity
    function.name ++ " takes between " ++ toString least ++ " and " ++ toString most ++
      " arguments, " ++ toString given ++ " given"

mutual

/-- The first fault in an expression. -/
def Expression.fault? : Expression → Option PatternFault
  | .iri _ | .literal _ | .var _ | .bound _ => none
  | .binary _ a b => a.fault? <|> b.fault?
  | .oneOf needle candidates => needle.fault? <|> Expression.faultIn? candidates
  | .unary _ operand => operand.fault?
  | .exists pattern => pattern.fault?
  | .ifThenElse condition yes no => condition.fault? <|> yes.fault? <|> no.fault?
  | .coalesce choices => Expression.faultIn? choices
  | .call function arguments =>
    if function.arity.1 ≤ arguments.length && arguments.length ≤ function.arity.2 then
      Expression.faultIn? arguments
    else some (.arity function arguments.length)

/-- The first fault in some expressions. -/
def Expression.faultIn? : List Expression → Option PatternFault
  | [] => none
  | e :: rest => e.fault? <|> Expression.faultIn? rest

/-- The first fault in some sort keys. -/
def Expression.faultInKeys? : List (Direction × Expression) → Option PatternFault
  | [] => none
  | (_, e) :: rest => e.fault? <|> Expression.faultInKeys? rest

/-- The first fault in a condition, if there is one. -/
def Expression.faultInCondition? : Option Expression → Option PatternFault
  | none => none
  | some condition => condition.fault?

/-- The first fault in a pattern. -/
def GraphPattern.fault? : GraphPattern → Option PatternFault
  | .quad _ => none
  | .join left right | .union left right => left.fault? <|> right.fault?
  | .leftJoin left right condition? =>
    left.fault? <|> right.fault? <|> Expression.faultInCondition? condition?
  | .filter condition inner => inner.fault? <|> condition.fault?
  | .extend inner v value =>
    if inner.inScope.contains v then some (.rebound v) else inner.fault? <|> value.fault?
  | .distinct inner | .slice inner _ _ | .project inner _ => inner.fault?
  | .orderBy inner keys => inner.fault? <|> Expression.faultInKeys? keys

end

end QuadStore
