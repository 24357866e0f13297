import Mathlib
import QuadStore.Algebra.GraphPattern

/-!
# Parts

Graph patterns and expressions hold one another, so that both are parts of a tree. A part is below
its parent, and what is somewhere below a part is within it.
-/

namespace QuadStore

/-- A part of a tree of the algebra. -/
inductive Part where
  | pattern (p : GraphPattern)
  | expression (e : Expression)

namespace Part

/-- The parts directly below a part, in the order in which they are looked at. -/
def children : Part → List Part
  | pattern (.quad _) => []
  | pattern (.join left right) => [pattern left, pattern right]
  | pattern (.leftJoin left right condition?) =>
    pattern left :: pattern right :: condition?.toList.map expression
  | pattern (.filter condition inner) => [pattern inner, expression condition]
  | pattern (.union left right) => [pattern left, pattern right]
  | pattern (.extend inner _ value) => [pattern inner, expression value]
  | pattern (.distinct inner) => [pattern inner]
  | pattern (.orderBy inner keys) => pattern inner :: keys.map fun key => expression key.2
  | pattern (.slice inner _ _) => [pattern inner]
  | pattern (.project inner _) => [pattern inner]
  | expression (.iri _) => []
  | expression (.literal _) => []
  | expression (.var _) => []
  | expression (.binary _ a b) => [expression a, expression b]
  | expression (.oneOf needle candidates) => expression needle :: candidates.map expression
  | expression (.unary _ operand) => [expression operand]
  | expression (.exists p) => [pattern p]
  | expression (.bound _) => []
  | expression (.ifThenElse condition yes no) =>
    [expression condition, expression yes, expression no]
  | expression (.coalesce choices) => choices.map expression
  | expression (.call _ arguments) => arguments.map expression

/-- A part is somewhere in another one, or it is the other one. -/
def Within (part whole : Part) : Prop :=
  Relation.ReflTransGen (fun parent child => child ∈ parent.children) whole part

/-- A part that is below another one is smaller. -/
theorem sizeOf_lt_of_mem_children {part child : Part} (h : child ∈ part.children) :
    sizeOf child < sizeOf part := by
  cases part with
  | pattern p =>
    cases p with
    | leftJoin left right condition? =>
      simp only [children, List.mem_cons, List.mem_map, Option.mem_toList] at h
      rcases h with rfl | rfl | ⟨condition, hcondition, rfl⟩
      · simp +arith
      · simp +arith
      · obtain rfl : condition? = some condition := hcondition
        simp +arith
    | orderBy inner keys =>
      simp only [children, List.mem_cons, List.mem_map] at h
      rcases h with rfl | ⟨⟨direction, e⟩, hkey, rfl⟩
      · simp +arith
      · -- the key stands in the list, and the expression in the key
        have hsmaller := List.sizeOf_lt_of_mem hkey
        simp at hsmaller ⊢
        omega
    | join a b | filter a b | union a b | extend a v b =>
      rcases List.mem_pair.1 h with rfl | rfl
      · simp +arith
      · simp +arith
    | distinct inner | slice inner start length? | project inner vs =>
      obtain rfl := List.mem_singleton.1 h
      simp +arith
    | quad _ => exact absurd h List.not_mem_nil
  | expression e =>
    cases e with
    | oneOf needle candidates =>
      simp only [children, List.mem_cons, List.mem_map] at h
      rcases h with rfl | ⟨e, he, rfl⟩
      · simp +arith
      · have hsmaller := List.sizeOf_lt_of_mem he
        simp
        omega
    | coalesce choices | call _ choices =>
      obtain ⟨e, he, rfl⟩ := List.mem_map.1 h
      have hsmaller := List.sizeOf_lt_of_mem he
      simp
      omega
    | binary op a b =>
      rcases List.mem_pair.1 h with rfl | rfl
      · simp +arith
      · simp +arith
    | ifThenElse condition yes no =>
      simp only [children, List.mem_cons, List.not_mem_nil, or_false] at h
      rcases h with rfl | rfl | rfl
      · simp +arith
      · simp +arith
      · simp +arith
    | unary op operand | «exists» operand =>
      obtain rfl := List.mem_singleton.1 h
      simp +arith
    | iri _ | literal _ | var _ | bound _ => exact absurd h List.not_mem_nil

end Part
end QuadStore
