import QuadStore.Proofs.Alike

/-!
# Expressions on alike rows

Every operator and every function gives alike data for alike arguments. Hence the value of an
expression without `EXISTS` is determined, up to likeness, by the variables that it mentions:
`Expression.alike_eval`.
-/

namespace QuadStore

namespace Datum

/-- Two data with the same term and alike values. -/
structure Alike (a b : Datum) : Prop where
  term : a.term = b.term
  value : Option.Rel Xsd.Value.Alike a.value? b.value?

variable {a a' b b' : Datum}

theorem Alike.refl (d : Datum) : d.Alike d := ⟨rfl, .of_eq .refl rfl⟩

theorem alike_ofValue {v w : Xsd.Value} (h : v.Alike w) : (ofValue v).Alike (ofValue w) :=
  ⟨congrArg Term.literal h.toLiteral_eq, .some h⟩

/-! ## Operators on alike data -/

theorem Alike.literal?_eq (h : a.Alike b) : a.literal? = b.literal? :=
  congrArg Term.literal? h.term

theorem Alike.string?_eq (h : a.Alike b) : a.string? = b.string? := by
  unfold string?
  rw [h.literal?_eq]

theorem Alike.text?_eq (h : a.Alike b) : a.text? = b.text? := by
  unfold text?
  rw [h.literal?_eq]

theorem Alike.same_eq (ha : a.Alike a') (hb : b.Alike b') : a.same b = a'.same b' := by
  unfold same
  rw [ha.term, hb.term]

theorem Alike.truth?_eq (h : a.Alike b) : a.truth? = b.truth? := by
  obtain ⟨term, v?⟩ := a
  obtain ⟨term', w?⟩ := b
  obtain rfl : term = term' := h.term
  cases h.value with
  | none => rfl
  | some hv =>
    cases hv with
    | refl => rfl
    | float hx hy => exact congrArg some (BinaryFormat.Alike.of_isNaN hx hy).isTrue_eq
    | double hx hy => exact congrArg some (BinaryFormat.Alike.of_isNaN hx hy).isTrue_eq

theorem Alike.isNumeric_eq (h : a.Alike b) :
    a.value?.any Xsd.Value.isNumeric = b.value?.any Xsd.Value.isNumeric := by
  have hvalue := h.value
  generalize a.value? = v?, b.value? = w? at *
  cases hvalue with
  | none => rfl
  | some hv => exact hv.isNumeric_eq

theorem Alike.isKnownLiteral_eq (h : a.Alike b) : a.isKnownLiteral = b.isKnownLiteral := by
  have hvalue := h.value
  unfold isKnownLiteral
  rw [h.literal?_eq]
  generalize a.value? = v?, b.value? = w? at *
  cases hvalue <;> rfl

theorem Alike.equal?_eq (ha : a.Alike a') (hb : b.Alike b') : a.equal? b = a'.equal? b' := by
  have hsame := ha.same_eq hb
  have hliteral := ha.literal?_eq
  have hliteral' := hb.literal?_eq
  have hknown := ha.isKnownLiteral_eq
  have hknown' := hb.isKnownLiteral_eq
  have hvalue := ha.value
  have hvalue' := hb.value
  unfold equal?
  rw [hsame, hliteral, hliteral', hknown, hknown']
  generalize a.value? = v?, a'.value? = v'?, b.value? = w?, b'.value? = w'? at *
  cases hvalue with
  | none => rfl
  | some hv =>
    cases hvalue' with
    | none => rfl
    | some hw =>
      dsimp only
      rw [hv.order?_eq hw]

theorem Alike.order?_eq (ha : a.Alike a') (hb : b.Alike b') : a.order? b = a'.order? b' := by
  have hvalue := ha.value
  have hvalue' := hb.value
  unfold order?
  rw [ha.string?_eq, hb.string?_eq]
  generalize a.value? = v?, a'.value? = v'?, b.value? = w?, b'.value? = w'? at *
  cases hvalue with
  | none => rfl
  | some hv =>
    cases hvalue' with
    | none => rfl
    | some hw => exact hv.order?_eq hw

theorem Alike.arithmetic? {op : Xsd.NumberPair → Option Xsd.Value}
    (hop : Xsd.NumberPair.Respects op) (ha : a.Alike a') (hb : b.Alike b') :
    Option.Rel Alike (arithmetic? op a b) (arithmetic? op a' b') := by
  have hnumbers : Option.Rel Xsd.NumberPair.Alike (numbers? a b) (numbers? a' b') :=
    ha.value.bind fun _ _ hv => hb.value.bind fun _ _ hw =>
      Xsd.NumberPair.alike_ofValues? hv hw
  exact (hnumbers.bind hop).map fun _ _ h => alike_ofValue h

theorem rel_ofBool {x y : Option Bool} (h : x = y) :
    Option.Rel Alike (x.map ofBool) (y.map ofBool) :=
  .of_eq .refl (congrArg _ h)

end Datum

open Datum (rel_ofBool)

variable {a a' b b' : Datum} {a? a'? b? b'? : Option Datum}

theorem Datum.truthOf?_eq (h : Option.Rel Datum.Alike a? a'?) : truthOf? a? = truthOf? a'? :=
  h.bind_eq fun _ _ h => h.truth?_eq

theorem Datum.map_term_eq (h : Option.Rel Datum.Alike a? a'?) :
    a?.map (·.term) = a'?.map (·.term) := by
  cases h with
  | none => rfl
  | some h => exact congrArg some h.term

theorem UnaryOp.alike_of? (op : UnaryOp) (h : a.Alike a') :
    Option.Rel Datum.Alike (op.of? a) (op.of? a') := by
  cases op with
  | plus =>
    unfold of?
    dsimp only
    rw [h.isNumeric_eq]
    split
    · exact .some h
    · exact .none
  | minus => exact (h.value.bind fun _ _ hv => hv.neg?).map fun _ _ hv => Datum.alike_ofValue hv
  | not => exact rel_ofBool (congrArg Truth.not h.truth?_eq)

theorem BinaryOp.alike_relate? (op : BinaryOp) (ha : a.Alike a') (hb : b.Alike b') :
    Option.Rel Datum.Alike (op.relate? a b) (op.relate? a' b') := by
  have hordered : ∀ accept : Ordering → Bool, Option.Rel Datum.Alike
      ((a.order? b).map fun o => Datum.ofBool (accept o))
      ((a'.order? b').map fun o => Datum.ofBool (accept o)) :=
    fun accept => .of_eq .refl (congrArg _ (ha.order?_eq hb))
  cases op with
  | or => exact .none
  | and => exact .none
  | equal => exact rel_ofBool (ha.equal?_eq hb)
  | sameTerm => exact .of_eq .refl (congrArg (some ∘ Datum.ofBool) (ha.same_eq hb))
  | greater => exact hordered _
  | greaterOrEqual => exact hordered _
  | less => exact hordered _
  | lessOrEqual => exact hordered _
  | add => exact ha.arithmetic? Xsd.NumberPair.respects_add? hb
  | subtract => exact ha.arithmetic? Xsd.NumberPair.respects_sub? hb
  | multiply => exact ha.arithmetic? Xsd.NumberPair.respects_mul? hb
  | divide => exact ha.arithmetic? Xsd.NumberPair.respects_div? hb

theorem BinaryOp.alike_combine? (op : BinaryOp) (ha : Option.Rel Datum.Alike a? a'?)
    (hb : Option.Rel Datum.Alike b? b'?) :
    Option.Rel Datum.Alike (op.combine? a? b?) (op.combine? a'? b'?) := by
  have hrelate : Option.Rel Datum.Alike (a?.bind fun a => b?.bind fun b => op.relate? a b)
      (a'?.bind fun a => b'?.bind fun b => op.relate? a b) :=
    ha.bind fun _ _ ha => hb.bind fun _ _ hb => op.alike_relate? ha hb
  cases op with
  | or => exact rel_ofBool (by rw [Datum.truthOf?_eq ha, Datum.truthOf?_eq hb])
  | and => exact rel_ofBool (by rw [Datum.truthOf?_eq ha, Datum.truthOf?_eq hb])
  | _ => exact hrelate

theorem Datum.Alike.among?_eq (ha : a.Alike a') {cs cs' : List (Option Datum)}
    (hcs : List.Forall₂ (Option.Rel Datum.Alike) cs cs') : a.among? cs = a'.among? cs' := by
  induction hcs with
  | nil => rfl
  | cons hc _ ih =>
    unfold Datum.among?
    rw [ih, hc.bind_eq fun _ _ hc => ha.equal?_eq hc]

/-! ## Functions on alike data -/

namespace Function

/-- A function of one argument reads the value of a number, and else the term alone. -/
theorem alike_applyOne? (f : Function) (h : a.Alike b) :
    Option.Rel Datum.Alike (f.applyOne? a) (f.applyOne? b) := by
  cases f with
  | isNumeric => exact .of_eq .refl (congrArg (some ∘ Datum.ofBool) h.isNumeric_eq)
  | abs => exact (h.value.bind fun _ _ hv => hv.abs?).map fun _ _ hv => Datum.alike_ofValue hv
  | _ =>
    refine .of_eq .refl ?_
    simp only [applyOne?, h.term, h.literal?_eq, h.text?_eq]

theorem compatible?_eq (ha : a.Alike a') (hb : b.Alike b') :
    compatible? a b = compatible? a' b' := by
  unfold compatible?
  rw [ha.text?_eq, hb.text?_eq]

theorem matches?_eq (ha : a.Alike a') (hb : b.Alike b') (flags : String) :
    matches? a b flags = matches? a' b' flags := by
  unfold matches?
  rw [ha.text?_eq, hb.string?_eq]

/-- A function of two arguments reads their terms alone. -/
theorem applyTwo?_eq (f : Function) (ha : a.Alike a') (hb : b.Alike b') :
    f.applyTwo? a b = f.applyTwo? a' b' := by
  cases f <;>
    simp only [applyTwo?, cut?, compatible?_eq ha hb, matches?_eq ha hb, ha.string?_eq,
      hb.string?_eq]

theorem concat?_eq {as bs : List Datum} (h : List.Forall₂ Datum.Alike as bs) :
    concat? as = concat? bs := by
  have htexts : as.mapM Datum.text? = bs.mapM Datum.text? := by
    induction h with
    | nil => rfl
    | cons h _ ih => rw [List.mapM_cons, List.mapM_cons, ih, h.text?_eq]
  unfold concat?
  rw [htexts]

theorem alike_evaluate? (f : Function) {as bs : List Datum} (h : List.Forall₂ Datum.Alike as bs) :
    Option.Rel Datum.Alike (f.evaluate? as) (f.evaluate? bs) := by
  -- only a concatenation takes any number of arguments
  by_cases hconcat : f = concat
  · rw [hconcat]
    exact .of_eq .refl (concat?_eq h)
  · have hone : ∀ a, f.evaluate? [a] = f.applyOne? a := by
      intro a
      cases f <;> first | rfl | exact absurd rfl hconcat
    have htwo : ∀ a b, f.evaluate? [a, b] = f.applyTwo? a b := by
      intro a b
      cases f <;> first | rfl | exact absurd rfl hconcat
    cases h with
    | nil => exact .of_eq .refl rfl
    | cons h₁ hrest =>
      cases hrest with
      | nil =>
        rw [hone, hone]
        exact f.alike_applyOne? h₁
      | cons h₂ hrest =>
        cases hrest with
        | nil =>
          rw [htwo, htwo]
          exact .of_eq .refl (f.applyTwo?_eq h₁ h₂)
        | cons h₃ hrest =>
          refine .of_eq .refl ?_
          cases hrest with
          | nil =>
            cases f <;> simp only [evaluate?, h₃.string?_eq, matches?_eq h₁ h₂]
            exact absurd rfl hconcat
          | cons h₄ _ => cases f <;> first | rfl | exact absurd rfl hconcat

end Function

/-! ## Expressions on alike rows -/

mutual

/-- Whether an expression has no `EXISTS` and mentions no other variables than some. -/
def Expression.mentionsOnly (vs : List Variable) : Expression → Bool
  | .iri _ | .literal _ => true
  | .var v | .bound v => vs.contains v
  | .binary _ a b => a.mentionsOnly vs && b.mentionsOnly vs
  | .oneOf needle candidates => needle.mentionsOnly vs && Expression.allMentionOnly vs candidates
  | .unary _ operand => operand.mentionsOnly vs
  | .exists _ => false
  | .ifThenElse condition yes no =>
    condition.mentionsOnly vs && yes.mentionsOnly vs && no.mentionsOnly vs
  | .coalesce choices => Expression.allMentionOnly vs choices
  | .call _ arguments => Expression.allMentionOnly vs arguments

/-- Whether some expressions have no `EXISTS` and mention no other variables than some. -/
def Expression.allMentionOnly (vs : List Variable) : List Expression → Bool
  | [] => true
  | e :: rest => e.mentionsOnly vs && Expression.allMentionOnly vs rest

end

/-- Two rows with alike values for some variables. -/
def Row.AlikeOn (vs : List Variable) (r s : Row) : Prop :=
  ∀ v ∈ vs, Option.Rel Datum.Alike (r.get? v) (s.get? v)

/-- The first value of some alike ones. -/
theorem Datum.alike_findSome? {xs ys : List (Option Datum)}
    (h : List.Forall₂ (Option.Rel Alike) xs ys) :
    Option.Rel Alike (xs.findSome? id) (ys.findSome? id) := by
  induction h with
  | nil => exact .none
  | cons h _ ih =>
    cases h with
    | none => exact ih
    | some h => exact .some h

/-- The values of some alike ones, if there are all of them. -/
theorem Datum.alike_mapM {xs ys : List (Option Datum)} (h : List.Forall₂ (Option.Rel Alike) xs ys) :
    Option.Rel (List.Forall₂ Alike) (xs.mapM id) (ys.mapM id) := by
  induction h with
  | nil => exact .some .nil
  | cons h _ ih =>
    rw [List.mapM_cons, List.mapM_cons]
    exact h.bind fun _ _ h => ih.bind fun _ _ ih => .some (.cons h ih)

section Agreement

variable {vs : List Variable} {r s : Row}

mutual

/-- An expression has alike values in rows that are alike for the variables that it mentions. -/
theorem Expression.alike_eval (dataset : Dataset) (hrows : r.AlikeOn vs s) : ∀ e : Expression,
    e.mentionsOnly vs = true →
      Option.Rel Datum.Alike (e.eval dataset r) (e.eval dataset s)
  | .iri i, _ => by
    simp only [eval]
    exact .of_eq .refl rfl
  | .literal l, _ => by
    simp only [eval]
    exact .of_eq .refl rfl
  | .var v, h => by
    simp only [mentionsOnly] at h
    simp only [eval]
    exact hrows v (List.contains_iff_mem.1 h)
  | .bound v, h => by
    simp only [mentionsOnly] at h
    have hv := hrows v (List.contains_iff_mem.1 h)
    simp only [eval]
    generalize r.get? v = x, s.get? v = y at *
    cases hv <;> exact .of_eq .refl rfl
  | .binary op a b, h => by
    simp only [mentionsOnly, Bool.and_eq_true] at h
    simp only [eval]
    exact op.alike_combine? (Expression.alike_eval dataset hrows a h.1)
      (Expression.alike_eval dataset hrows b h.2)
  | .oneOf needle candidates, h => by
    simp only [mentionsOnly, Bool.and_eq_true] at h
    simp only [eval]
    have hcandidates := Expression.alike_evalEach dataset hrows candidates h.2
    exact (Expression.alike_eval dataset hrows needle h.1).bind fun _ _ hd =>
      rel_ofBool (hd.among?_eq hcandidates)
  | .unary op operand, h => by
    simp only [mentionsOnly] at h
    simp only [eval]
    exact (Expression.alike_eval dataset hrows operand h).bind fun _ _ hd => op.alike_of? hd
  | .exists _, h => by simp [mentionsOnly] at h
  | .ifThenElse condition yes no, h => by
    simp only [mentionsOnly, Bool.and_eq_true] at h
    simp only [eval, Datum.truthOf?_eq (Expression.alike_eval dataset hrows condition h.1.1)]
    cases Datum.truthOf? (condition.eval dataset s) with
    | none => exact .none
    | some b =>
      cases b with
      | true => exact Expression.alike_eval dataset hrows yes h.1.2
      | false => exact Expression.alike_eval dataset hrows no h.2
  | .coalesce choices, h => by
    simp only [mentionsOnly] at h
    simp only [eval]
    exact Datum.alike_findSome? (Expression.alike_evalEach dataset hrows choices h)
  | .call function arguments, h => by
    simp only [mentionsOnly] at h
    simp only [eval]
    have harguments := Expression.alike_evalEach dataset hrows arguments h
    exact (Datum.alike_mapM harguments).bind fun _ _ h => function.alike_evaluate? h

theorem Expression.alike_evalEach (dataset : Dataset) (hrows : r.AlikeOn vs s) :
    ∀ es : List Expression, Expression.allMentionOnly vs es = true →
      List.Forall₂ (Option.Rel Datum.Alike) (Expression.evalEach dataset es r)
        (Expression.evalEach dataset es s)
  | [], _ => by
    simp only [evalEach]
    exact .nil
  | e :: rest, h => by
    simp only [allMentionOnly, Bool.and_eq_true] at h
    simp only [evalEach]
    exact .cons (Expression.alike_eval dataset hrows e h.1)
      (Expression.alike_evalEach dataset hrows rest h.2)

end

end Agreement

end QuadStore
