import QuadStore.Proofs.Digits
import QuadStore.Proofs.Legibility
import QuadStore.Proofs.Parts

/-!
# The rendering of the algebra

The head of an S-expression tells the kind of the tree that it was made from, and its items tell the
rest: trees with the same S-expression are the same, whatever their names are (`Part.toSexp_inj`).
-/

namespace QuadStore

open Sexp (form)

/-! ## Words -/

theorem BinaryOp.word_inj {op op' : BinaryOp} (h : op.word = op'.word) : op = op' := by
  cases op <;> cases op' <;> simp [word] at h ⊢

theorem UnaryOp.word_inj {op op' : UnaryOp} (h : op.word = op'.word) : op = op' := by
  cases op <;> cases op' <;> simp [word] at h ⊢

theorem Direction.word_inj {d d' : Direction} (h : d.word = d'.word) : d = d' := by
  cases d <;> cases d' <;> simp [word] at h ⊢

theorem Function.ofName?_name (f : Function) : Function.ofName? f.name = some f := by
  cases f <;> rfl

theorem Function.name_inj {f g : Function} (h : f.name = g.name) : f = g := by
  rw [← Option.some_inj, ← ofName?_name, h, ofName?_name]

/-! ## Kinds -/

namespace Part

/-- The S-expression of a part. -/
def toSexp : Part → Sexp
  | pattern p => p.toSexp
  | expression e => e.toSexp

@[simp]
theorem toSexp_pattern (p : GraphPattern) : (pattern p).toSexp = p.toSexp := rfl

@[simp]
theorem toSexp_expression (e : Expression) : (expression e).toSexp = e.toSexp := rfl

/-- The kinds of patterns and of expressions. -/
inductive Kind where
  | quad
  | join
  | leftJoin
  | filter
  | union
  | extend
  | distinct
  | orderBy
  | slice
  | project
  | iri
  | literal
  | var
  | binary
  | oneOf
  | unary
  | exists
  | bound
  | ifThenElse
  | coalesce
  | call

def kind : Part → Kind
  | pattern (.quad _) => .quad
  | pattern (.join _ _) => .join
  | pattern (.leftJoin _ _ _) => .leftJoin
  | pattern (.filter _ _) => .filter
  | pattern (.union _ _) => .union
  | pattern (.extend _ _ _) => .extend
  | pattern (.distinct _) => .distinct
  | pattern (.orderBy _ _) => .orderBy
  | pattern (.slice _ _ _) => .slice
  | pattern (.project _ _) => .project
  | expression (.iri _) => .iri
  | expression (.literal _) => .literal
  | expression (.var _) => .var
  | expression (.binary _ _ _) => .binary
  | expression (.oneOf _ _) => .oneOf
  | expression (.unary _ _) => .unary
  | expression (.exists _) => .exists
  | expression (.bound _) => .bound
  | expression (.ifThenElse _ _ _) => .ifThenElse
  | expression (.coalesce _) => .coalesce
  | expression (.call _ _) => .call

/-- The words of their own that kinds have; a quad pattern has two. -/
def words : List (String × Kind) :=
  [("triple", .quad), ("quad", .quad), ("join", .join), ("leftjoin", .leftJoin),
   ("filter", .filter), ("union", .union), ("extend", .extend), ("distinct", .distinct),
   ("order", .orderBy), ("slice", .slice), ("project", .project), ("in", .oneOf),
   ("exists", .exists), ("bound", .bound), ("if", .ifThenElse), ("coalesce", .coalesce)]

/-- The kind that a word with some number of items after it stands for. A plus or a minus is an
operator on one or on two expressions. -/
def kindOfForm (word : String) (count : Nat) : Kind :=
  match words.lookup word, Function.ofName? word with
  | some kind, _ => kind
  | none, some _ => .call
  | none, none => if count = 1 then .unary else .binary

/-- The kind of the part that an S-expression stands for. -/
def kindOf : Sexp → Kind
  | .list (.atom word :: items) => kindOfForm word items.length
  | s =>
    match s.text.toList with
    | '<' :: _ => .iri
    | '"' :: _ => .literal
    | _ => .var

/-- The head of an S-expression tells the kind of the part. -/
theorem kindOf_toSexp (part : Part) : kindOf part.toSexp = part.kind := by
  cases part with
  | pattern p =>
    rw [toSexp_pattern]
    cases p with
    | quad q =>
      obtain ⟨s, p, o, g⟩ := q
      rw [GraphPattern.toSexp]
      cases g <;> rfl
    | _ => rw [GraphPattern.toSexp]; rfl
  | expression e =>
    rw [toSexp_expression]
    cases e with
    | iri i => simp [Expression.toSexp, kindOf, Sexp.text, Iri.toList_ntriples, kind]
    | literal l =>
      obtain ⟨cs, hcs⟩ := Text.exists_toList_quote l.value
      simp [Expression.toSexp, kindOf, Sexp.text, Literal.toList_ntriples, hcs, kind]
    | var v => simp [Expression.toSexp, kindOf, Sexp.text, Variable.toList_text, kind]
    | binary op a b =>
      rw [Expression.toSexp]
      show kindOfForm op.word 2 = _
      cases op <;> rfl
    | unary op e =>
      rw [Expression.toSexp]
      show kindOfForm op.word 1 = _
      cases op <;> rfl
    | call f arguments =>
      rw [Expression.toSexp]
      show kindOfForm f.name _ = _
      cases f <;> rfl
    | _ => rw [Expression.toSexp]; rfl

theorem kind_eq {part part' : Part} (h : part.toSexp = part'.toSexp) : part.kind = part'.kind := by
  rw [← kindOf_toSexp, h, kindOf_toSexp]

end Part

/-! ## Trees told apart by their S-expressions -/

theorem Sexp.form_inj {head head' : String} {items items' : List Sexp}
    (h : form head items = form head' items') : head = head' ∧ items = items' := by
  simpa [form] using h

namespace QuadPattern

/-- The word at the head of the S-expression of a quad pattern. -/
def word (q : QuadPattern) : String := if q.graph = .any then "triple" else "quad"

/-- The graph, if it is not left open, and the three other positions. -/
def atoms (q : QuadPattern) : List String :=
  (if q.graph = .any then [] else [q.graph.text]) ++
    [q.subject.text Term.ntriples, q.predicate.text Iri.ntriples, q.object.text Term.ntriples]

theorem toSexp_eq (q : QuadPattern) : q.toSexp = form q.word (q.atoms.map Sexp.atom) := by
  obtain ⟨s, p, o, g⟩ := q
  cases g <;> rfl

theorem toSexp_inj {q q' : QuadPattern} (h : q.toSexp = q'.toSexp) : q = q' := by
  rw [toSexp_eq, toSexp_eq] at h
  have hatoms : q.atoms = q'.atoms :=
    List.map_injective_iff.2 (fun _ _ => Sexp.atom.inj) (Sexp.form_inj h).2
  obtain ⟨s, p, o, g⟩ := q
  obtain ⟨s', p', o', g'⟩ := q'
  have hparts : g = g' ∧ s.text Term.ntriples = s'.text Term.ntriples ∧
      p.text Iri.ntriples = p'.text Iri.ntriples ∧
        o.text Term.ntriples = o'.text Term.ntriples := by
    unfold atoms at hatoms
    by_cases hg : g = .any <;> by_cases hg' : g' = .any <;> simp [hg, hg'] at hatoms
    · exact ⟨hg.trans hg'.symm, hatoms⟩
    · exact ⟨GraphPosition.text_inj hatoms.1, hatoms.2⟩
  obtain ⟨rfl, hs, hp, ho⟩ := hparts
  rw [Position.text_term_inj hs, Position.text_iri_inj hp, Position.text_term_inj ho]

end QuadPattern

/-- No count of rows is written as the mark for all rows. -/
theorem toString_count_inj {length? length?' : Option Nat}
    (h : length?.elim "_" toString = length?'.elim "_" toString) : length? = length?' := by
  have hcount : ∀ n : Nat, "_" ≠ toString n := by
    intro n hn
    obtain ⟨c, cs, hdigits, hc⟩ := Text.exists_digits_eq_cons n
    have hlist : ['_'] = Text.digits n := by
      rw [Text.digits, ← Nat.toList_repr]
      exact congrArg String.toList hn
    rw [hdigits] at hlist
    obtain ⟨rfl, -⟩ := List.cons.inj hlist
    exact absurd hc (by decide)
  cases length? with
  | none =>
    cases length?' with
    | none => rfl
    | some n => exact absurd h (hcount n)
  | some m =>
    cases length?' with
    | none => exact absurd h.symm (hcount m)
    | some n => exact congrArg some (Nat.repr_inj.1 h)

theorem Expression.kind_eq {e e' : Expression} (h : e.toSexp = e'.toSexp) :
    (Part.expression e).kind = (Part.expression e').kind := Part.kind_eq h

theorem GraphPattern.kind_eq {p p' : GraphPattern} (h : p.toSexp = p'.toSexp) :
    (Part.pattern p).kind = (Part.pattern p').kind := Part.kind_eq h

mutual

-- the kinds leave the pairs of one constructor only, whose items are equal one by one
theorem Expression.toSexp_inj : ∀ {e e' : Expression}, e.toSexp = e'.toSexp → e = e'
  | .iri i, e', h => by
    have hkind := Expression.kind_eq h
    cases e' with
    | iri j =>
      rw [Expression.toSexp, Expression.toSexp] at h
      rw [Iri.ntriples_inj (Sexp.atom.inj h)]
    | _ => cases hkind
  | .literal l, e', h => by
    have hkind := Expression.kind_eq h
    cases e' with
    | literal m =>
      rw [Expression.toSexp, Expression.toSexp] at h
      rw [Literal.ntriples_inj (Sexp.atom.inj h)]
    | _ => cases hkind
  | .var v, e', h => by
    have hkind := Expression.kind_eq h
    cases e' with
    | var w =>
      rw [Expression.toSexp, Expression.toSexp] at h
      rw [Variable.text_inj (Sexp.atom.inj h)]
    | _ => cases hkind
  | .binary op a b, e', h => by
    have hkind := Expression.kind_eq h
    cases e' with
    | binary op' a' b' =>
      rw [Expression.toSexp, Expression.toSexp] at h
      obtain ⟨hword, hitems⟩ := Sexp.form_inj h
      simp only [List.cons.injEq, and_true] at hitems
      rw [BinaryOp.word_inj hword, Expression.toSexp_inj hitems.1, Expression.toSexp_inj hitems.2]
    | _ => cases hkind
  | .oneOf needle candidates, e', h => by
    have hkind := Expression.kind_eq h
    cases e' with
    | oneOf needle' candidates' =>
      rw [Expression.toSexp, Expression.toSexp] at h
      obtain ⟨hneedle, hcandidates⟩ := List.cons.inj (Sexp.form_inj h).2
      rw [Expression.toSexp_inj hneedle, Expression.listToSexps_inj hcandidates]
    | _ => cases hkind
  | .unary op operand, e', h => by
    have hkind := Expression.kind_eq h
    cases e' with
    | unary op' operand' =>
      rw [Expression.toSexp, Expression.toSexp] at h
      obtain ⟨hword, hitems⟩ := Sexp.form_inj h
      rw [UnaryOp.word_inj hword, Expression.toSexp_inj (List.cons.inj hitems).1]
    | _ => cases hkind
  | .exists p, e', h => by
    have hkind := Expression.kind_eq h
    cases e' with
    | «exists» p' =>
      rw [Expression.toSexp, Expression.toSexp] at h
      rw [GraphPattern.toSexp_inj (List.cons.inj (Sexp.form_inj h).2).1]
    | _ => cases hkind
  | .bound v, e', h => by
    have hkind := Expression.kind_eq h
    cases e' with
    | bound w =>
      rw [Expression.toSexp, Expression.toSexp] at h
      rw [Variable.text_inj (Sexp.atom.inj (List.cons.inj (Sexp.form_inj h).2).1)]
    | _ => cases hkind
  | .ifThenElse condition yes no, e', h => by
    have hkind := Expression.kind_eq h
    cases e' with
    | ifThenElse condition' yes' no' =>
      rw [Expression.toSexp, Expression.toSexp] at h
      have hitems := (Sexp.form_inj h).2
      simp only [List.cons.injEq, and_true] at hitems
      obtain ⟨hcondition, hyes, hno⟩ := hitems
      rw [Expression.toSexp_inj hcondition, Expression.toSexp_inj hyes, Expression.toSexp_inj hno]
    | _ => cases hkind
  | .coalesce choices, e', h => by
    have hkind := Expression.kind_eq h
    cases e' with
    | coalesce choices' =>
      rw [Expression.toSexp, Expression.toSexp] at h
      rw [Expression.listToSexps_inj (Sexp.form_inj h).2]
    | _ => cases hkind
  | .call f arguments, e', h => by
    have hkind := Expression.kind_eq h
    cases e' with
    | call g arguments' =>
      rw [Expression.toSexp, Expression.toSexp] at h
      obtain ⟨hname, hitems⟩ := Sexp.form_inj h
      rw [Function.name_inj hname, Expression.listToSexps_inj hitems]
    | _ => cases hkind
termination_by structural e => e

theorem Expression.listToSexps_inj : ∀ {es es' : List Expression},
    Expression.listToSexps es = Expression.listToSexps es' → es = es'
  | [], [], _ => rfl
  | [], _ :: _, h => by
    rw [Expression.listToSexps, Expression.listToSexps] at h
    cases h
  | _ :: _, [], h => by
    rw [Expression.listToSexps, Expression.listToSexps] at h
    cases h
  | e :: rest, e' :: rest', h => by
    rw [Expression.listToSexps, Expression.listToSexps] at h
    obtain ⟨hfirst, hrest⟩ := List.cons.inj h
    rw [Expression.toSexp_inj hfirst, Expression.listToSexps_inj hrest]
termination_by structural es => es

theorem Expression.optionToSexps_inj : ∀ {e? e?' : Option Expression},
    Expression.optionToSexps e? = Expression.optionToSexps e?' → e? = e?'
  | none, none, _ => rfl
  | none, some _, h => by
    rw [Expression.optionToSexps, Expression.optionToSexps] at h
    cases h
  | some _, none, h => by
    rw [Expression.optionToSexps, Expression.optionToSexps] at h
    cases h
  | some e, some e', h => by
    rw [Expression.optionToSexps, Expression.optionToSexps] at h
    rw [Expression.toSexp_inj (List.cons.inj h).1]
termination_by structural e? => e?

theorem Expression.keysToSexps_inj : ∀ {keys keys' : List (Direction × Expression)},
    Expression.keysToSexps keys = Expression.keysToSexps keys' → keys = keys'
  | [], [], _ => rfl
  | [], _ :: _, h => by
    rw [Expression.keysToSexps, Expression.keysToSexps] at h
    cases h
  | _ :: _, [], h => by
    rw [Expression.keysToSexps, Expression.keysToSexps] at h
    cases h
  | (d, e) :: rest, (d', e') :: rest', h => by
    rw [Expression.keysToSexps, Expression.keysToSexps] at h
    obtain ⟨hfirst, hrest⟩ := List.cons.inj h
    obtain ⟨hword, hitems⟩ := Sexp.form_inj hfirst
    rw [Direction.word_inj hword, Expression.toSexp_inj (List.cons.inj hitems).1,
      Expression.keysToSexps_inj hrest]
termination_by structural keys => keys

theorem GraphPattern.toSexp_inj : ∀ {p p' : GraphPattern}, p.toSexp = p'.toSexp → p = p'
  | .quad q, p', h => by
    have hkind := GraphPattern.kind_eq h
    cases p' with
    | quad q' =>
      rw [GraphPattern.toSexp, GraphPattern.toSexp] at h
      rw [QuadPattern.toSexp_inj h]
    | _ => cases hkind
  | .join l r, p', h => by
    have hkind := GraphPattern.kind_eq h
    cases p' with
    | join l' r' =>
      rw [GraphPattern.toSexp, GraphPattern.toSexp] at h
      have hitems := (Sexp.form_inj h).2
      simp only [List.cons.injEq, and_true] at hitems
      rw [GraphPattern.toSexp_inj hitems.1, GraphPattern.toSexp_inj hitems.2]
    | _ => cases hkind
  | .leftJoin l r condition, p', h => by
    have hkind := GraphPattern.kind_eq h
    cases p' with
    | leftJoin l' r' condition' =>
      rw [GraphPattern.toSexp, GraphPattern.toSexp] at h
      have hitems := (Sexp.form_inj h).2
      simp only [List.cons.injEq] at hitems
      obtain ⟨hl, hr, hcondition⟩ := hitems
      rw [GraphPattern.toSexp_inj hl, GraphPattern.toSexp_inj hr,
        Expression.optionToSexps_inj hcondition]
    | _ => cases hkind
  | .filter condition inner, p', h => by
    have hkind := GraphPattern.kind_eq h
    cases p' with
    | filter condition' inner' =>
      rw [GraphPattern.toSexp, GraphPattern.toSexp] at h
      have hitems := (Sexp.form_inj h).2
      simp only [List.cons.injEq, and_true] at hitems
      rw [Expression.toSexp_inj hitems.1, GraphPattern.toSexp_inj hitems.2]
    | _ => cases hkind
  | .union l r, p', h => by
    have hkind := GraphPattern.kind_eq h
    cases p' with
    | union l' r' =>
      rw [GraphPattern.toSexp, GraphPattern.toSexp] at h
      have hitems := (Sexp.form_inj h).2
      simp only [List.cons.injEq, and_true] at hitems
      rw [GraphPattern.toSexp_inj hitems.1, GraphPattern.toSexp_inj hitems.2]
    | _ => cases hkind
  | .extend inner v value, p', h => by
    have hkind := GraphPattern.kind_eq h
    cases p' with
    | extend inner' v' value' =>
      rw [GraphPattern.toSexp, GraphPattern.toSexp] at h
      have hitems := (Sexp.form_inj h).2
      simp only [List.cons.injEq, Sexp.list.injEq, Sexp.atom.injEq, and_true] at hitems
      obtain ⟨⟨hv, hvalue⟩, hinner⟩ := hitems
      rw [Variable.text_inj hv, Expression.toSexp_inj hvalue, GraphPattern.toSexp_inj hinner]
    | _ => cases hkind
  | .distinct inner, p', h => by
    have hkind := GraphPattern.kind_eq h
    cases p' with
    | distinct inner' =>
      rw [GraphPattern.toSexp, GraphPattern.toSexp] at h
      rw [GraphPattern.toSexp_inj (List.cons.inj (Sexp.form_inj h).2).1]
    | _ => cases hkind
  | .orderBy inner keys, p', h => by
    have hkind := GraphPattern.kind_eq h
    cases p' with
    | orderBy inner' keys' =>
      rw [GraphPattern.toSexp, GraphPattern.toSexp] at h
      have hitems := (Sexp.form_inj h).2
      simp only [List.cons.injEq, Sexp.list.injEq, and_true] at hitems
      rw [Expression.keysToSexps_inj hitems.1, GraphPattern.toSexp_inj hitems.2]
    | _ => cases hkind
  | .slice inner start length?, p', h => by
    have hkind := GraphPattern.kind_eq h
    cases p' with
    | slice inner' start' length?' =>
      rw [GraphPattern.toSexp, GraphPattern.toSexp] at h
      have hitems := (Sexp.form_inj h).2
      simp only [List.cons.injEq, Sexp.atom.injEq, and_true] at hitems
      obtain ⟨hstart, hlength, hinner⟩ := hitems
      rw [Nat.repr_inj.1 hstart, toString_count_inj hlength, GraphPattern.toSexp_inj hinner]
    | _ => cases hkind
  | .project inner vs, p', h => by
    have hkind := GraphPattern.kind_eq h
    cases p' with
    | project inner' vs' =>
      rw [GraphPattern.toSexp, GraphPattern.toSexp] at h
      have hitems := (Sexp.form_inj h).2
      simp only [List.cons.injEq, Sexp.list.injEq, and_true] at hitems
      have hvs : vs = vs' := List.map_injective_iff.2
        (fun _ _ hv => Variable.text_inj (Sexp.atom.inj hv)) hitems.1
      rw [hvs, GraphPattern.toSexp_inj hitems.2]
    | _ => cases hkind
termination_by structural p => p

end

/-- Trees with the same S-expression are the same, whatever their names are. -/
theorem Part.toSexp_inj {part part' : Part} (h : part.toSexp = part'.toSexp) : part = part' := by
  have hkind := Part.kind_eq h
  -- no kind is both a pattern's and an expression's
  cases part with
  | pattern p =>
    cases part' with
    | pattern p' => exact congrArg pattern (GraphPattern.toSexp_inj h)
    | expression e' => cases p <;> cases e' <;> cases hkind
  | expression e =>
    cases part' with
    | pattern p' => cases e <;> cases p' <;> cases hkind
    | expression e' => exact congrArg expression (Expression.toSexp_inj h)

end QuadStore
