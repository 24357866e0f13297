import Mathlib
import QuadStore.Eval.SortOrder

/-!
# Ranks of sort keys

The sort order goes by the kind of a term, then by the family of a literal, then by what counts in
that family, and at last by datatype and text. Each of these comparisons is the one of a linear
order, so that a sort key has a rank in a linear order made up of theirs: `Datum.keyOrder_compares`.
A malformed literal has the rank above all values of its family or datatype, and an instant without
a time zone one below those with one.

The laws of the order are drawn from the ranks: `Datum.keyOrder_lawful`.
-/

/-! ## Comparisons in parts -/

namespace Ordering

variable {α β : Type} [LinearOrder α] [LinearOrder β] {o p : Ordering} {a b : α} {c d : β}

theorem compares_compare (a b : α) : (compare a b).Compares a b := (compare_iff a b).1 rfl

/-- A second comparison only counts where the first one is level. -/
theorem Compares.then (h : o.Compares a b) (hp : a = b → p.Compares c d) :
    (o.then p).Compares (toLex (a, c)) (toLex (b, d)) := by
  cases o with
  | lt => exact Prod.Lex.toLex_lt_toLex.2 (.inl h)
  | gt => exact Prod.Lex.toLex_lt_toLex.2 (.inl h)
  | eq =>
    obtain rfl : a = b := h
    have hmono : StrictMono fun c : β => toLex (a, c) := by
      intro c d hcd
      exact Prod.Lex.toLex_lt_toLex.2 (.inr ⟨rfl, hcd⟩)
    exact hmono.compares.2 (hp rfl)

end Ordering

namespace QuadStore

section Missing

variable {α β : Type} [LinearOrder β] {order : α → α → Ordering} {rank : α → β} {a? b? : Option α}

/-- The rank that is below all others where there is none. -/
def lowRank (rank : α → β) (a? : Option α) : WithBot β := a?.elim ⊥ fun a => rank a

/-- The rank that is above all others where there is none. -/
def highRank (rank : α → β) (a? : Option α) : WithTop β := a?.elim ⊤ fun a => rank a

theorem missingFirst_compares
    (h : ∀ a b, a? = some a → b? = some b → (order a b).Compares (rank a) (rank b)) :
    (missingFirst order a? b?).Compares (lowRank rank a?) (lowRank rank b?) := by
  cases a? with
  | none =>
    cases b? with
    | none => exact rfl
    | some b => exact WithBot.bot_lt_coe (rank b)
  | some a =>
    cases b? with
    | none => exact WithBot.bot_lt_coe (rank a)
    | some b => exact WithBot.coe_strictMono.compares.2 (h a b rfl rfl)

theorem missingLast_compares
    (h : ∀ a b, a? = some a → b? = some b → (order a b).Compares (rank a) (rank b)) :
    (missingLast order a? b?).Compares (highRank rank a?) (highRank rank b?) := by
  cases a? with
  | none =>
    cases b? with
    | none => exact rfl
    | some b => exact WithTop.coe_lt_top (rank b)
  | some a =>
    cases b? with
    | none => exact WithTop.coe_lt_top (rank a)
    | some b => exact WithTop.coe_strictMono.compares.2 (h a b rfl rfl)

end Missing

/-! ## Values -/

namespace Xsd

/-- The rank of a number: its place among the doubles, then its units, which an inexact number
lacks. -/
def NumberKey.rank (k : NumberKey) : ℤ ×ₗ WithTop ℤ :=
  toLex (BinaryFormat.binary64.totalKey k.approximation.bits.toNat,
    highRank Decimal.units k.decimal?)

theorem NumberKey.order_compares (a b : NumberKey) : (a.order b).Compares a.rank b.rank :=
  (Ordering.compares_compare _ _).then fun _ =>
    missingLast_compares fun _ _ _ _ => Ordering.compares_compare _ _

/-- The rank of an instant among those of its kind. -/
def Instant.rank (t : Instant) : Bool ×ₗ ℤ := toLex (t.offset?.isSome, t.seconds.units)

/-- Two instants that both have a time zone, or both lack one, are compared by their places. -/
theorem Instant.order?_of_isSome_eq {a b : Instant} (h : a.offset?.isSome = b.offset?.isSome) :
    a.order? b = some (compare a.seconds.units b.seconds.units) := by
  unfold order?
  split
  · rename_i ha hb
    rw [ha, hb] at h
    cases h
  · rename_i ha hb
    rw [ha, hb] at h
    cases h
  · rfl

theorem Instant.sortOrder_compares (a b : Instant) : (a.sortOrder b).Compares a.rank b.rank := by
  refine (Ordering.compares_compare _ _).then fun h => ?_
  rw [order?_of_isSome_eq h]
  exact Ordering.compares_compare _ _

namespace Value

/-- The rank of a value among those of its kind; numbers are not ranked here. -/
def rank : Value → Bool ×ₗ ℤ
  | boolean b => toLex (b, 0)
  | dateTime t | date t | time t => t.rank
  | _ => toLex (false, 0)

/-- Values of one kind are compared by their ranks. -/
theorem sortOrder_compares {v w : Value} (h : v.datatype = w.datatype) :
    (v.sortOrder w).Compares v.rank w.rank := by
  cases v <;> cases w
  case boolean.boolean a b =>
    have hcompares := (Ordering.compares_compare a b).then (p := .eq) (c := (0 : ℤ)) fun _ => rfl
    rwa [Ordering.then_eq] at hcompares
  case dateTime.dateTime a b => exact a.sortOrder_compares b
  case date.date a b => exact a.sortOrder_compares b
  case time.time a b => exact a.sortOrder_compares b
  -- two numbers are level, and no other two values have the same datatype
  all_goals first | exact rfl | exact absurd h (by simp only [datatype]; decide)

end Value
end Xsd

/-! ## Datatypes -/

namespace Xsd

/-- The datatypes and the values of their literals. -/
inductive Value.Of : String → Value → Prop
  | boolean (b : Bool) : Of Xsd.boolean (.boolean b)
  | integer {datatype : String} (h : integerTypes.contains datatype) (n : Integer) :
      Of datatype (.integer n)
  | decimal (d : Decimal) : Of Xsd.decimal (.decimal d)
  | float (x : Single) : Of Xsd.float (.float x)
  | double (x : Double) : Of Xsd.double (.double x)
  | dateTime (t : Instant) : Of Xsd.dateTime (.dateTime t)
  | dateTimeStamp (t : Instant) : Of Xsd.dateTimeStamp (.dateTime t)
  | date (t : Instant) : Of Xsd.date (.date t)
  | time (t : Instant) : Of Xsd.time (.time t)

/-- The datatype of the canonical literals of the values of a datatype. -/
def primitive (datatype : String) : String :=
  if integerTypes.contains datatype then integer
  else if datatype = dateTimeStamp then dateTime
  else datatype

namespace Value

variable {text datatype : String} {v : Value}

/-- A lexical form stands for a value of its datatype. -/
theorem of_parse? (h : parse? text datatype = some v) : Of datatype v := by
  have hread : ∀ {α : Type} {x? : Option α} {kind : α → Value}, x?.map kind = some v →
      (∀ x, Of datatype (kind x)) → Of datatype v := by
    intro α x? kind hx hkind
    obtain ⟨x, -, rfl⟩ := Option.map_eq_some_iff.1 hx
    exact hkind x
  unfold parse? at h
  split at h
  · subst datatype; exact hread h .boolean
  split at h
  · exact hread h (.integer ‹_›)
  split at h
  · subst datatype; exact hread h .decimal
  split at h
  · subst datatype; exact hread h .float
  split at h
  · subst datatype; exact hread h .double
  split at h
  · rename_i hdatatype
    rcases hdatatype with rfl | rfl
    · exact hread h .dateTime
    · exact hread h .dateTimeStamp
  split at h
  · subst datatype; exact hread h .date
  split at h
  · subst datatype; exact hread h .time
  · cases h

/-- The values of a datatype are of one kind. -/
theorem Of.datatype_eq (h : Of datatype v) : v.datatype = primitive datatype := by
  cases h with
  | integer h n => exact (if_pos h).symm
  | _ => rfl

/-- The numbers are the values of the numeric datatypes. -/
theorem Of.isNumeric_eq (h : Of datatype v) : v.isNumeric = numericTypes.contains datatype := by
  cases h with
  | integer h n =>
    have hnumeric : datatype ∈ numericTypes := by
      simp only [numericTypes, List.mem_cons]
      exact .inr (.inr (.inr (List.contains_iff_mem.1 h)))
    exact (List.contains_iff_mem.2 hnumeric).symm
  | _ => rfl

end Value
end Xsd

/-! ## Literals -/

namespace LiteralFamily

/-- The place of a family. -/
def place : LiteralFamily → ℕ
  | plain => 0
  | numeric => 1
  | calendar => 2
  | other => 3

theorem compare_compares (a b : LiteralFamily) : (compare a b).Compares a.place b.place := by
  have hplace : compare a b = compare a.place b.place := by
    cases a <;> cases b <;> rfl
  rw [hplace]
  exact Ordering.compares_compare _ _

theorem place_injective {a b : LiteralFamily} (h : a.place = b.place) : a = b := by
  cases a <;> cases b <;> first | rfl | exact absurd h (by decide)

theorem ofDatatype_eq_plain_iff {datatype : String} :
    ofDatatype datatype = plain ↔ datatype = Xsd.string ∨ datatype = Rdf.langString := by
  unfold ofDatatype
  split
  · rename_i h
    exact iff_of_true rfl h
  · rename_i h
    refine iff_of_false ?_ h
    split
    · simp
    · split <;> simp

theorem ofDatatype_eq_numeric_iff {datatype : String} :
    ofDatatype datatype = numeric ↔ Xsd.numericTypes.contains datatype = true := by
  unfold ofDatatype
  split
  · rename_i h
    refine iff_of_false (by simp) ?_
    rcases h with rfl | rfl <;> decide
  · split
    · rename_i h
      exact iff_of_true rfl h
    · rename_i h
      refine iff_of_false ?_ h
      split <;> simp

end LiteralFamily

/-- The rank of a literal in its family: its language, its number, or its datatype and value. -/
abbrev FamilyRank :=
  WithBot String ⊕ₗ WithTop (ℤ ×ₗ WithTop ℤ) ⊕ₗ String ×ₗ WithTop (Bool ×ₗ ℤ)

/-- The rank of a literal: its family, its rank there, its datatype and its text. -/
abbrev LiteralRank := (ℕ ×ₗ FamilyRank) ×ₗ String ×ₗ String

namespace Datum

/-- The rank in a family of a literal with its value. -/
def familyRank (family : LiteralFamily) (l : Literal) (v? : Option Xsd.Value) : FamilyRank :=
  match family with
  | .plain => Sum.inlₗ (lowRank id l.language?)
  | .numeric =>
    Sum.inrₗ (Sum.inlₗ (highRank Xsd.NumberKey.rank (v?.bind Xsd.NumberKey.ofValue?)))
  | .calendar | .other => Sum.inrₗ (Sum.inrₗ (toLex (l.datatype, highRank Xsd.Value.rank v?)))

/-- The rank of a literal with its value. -/
def literalRank (l : Literal) (v? : Option Xsd.Value) : LiteralRank :=
  let family := LiteralFamily.ofDatatype l.datatype
  toLex (toLex (family.place, familyRank family l v?), toLex (l.datatype, l.value))

/-- The value of a datum, if it has one, is one of its datatype. -/
def Fits (d : Datum) : Prop :=
  ∀ l v, d.term = .literal l → d.value? = some v → Xsd.Value.Of l.datatype v

theorem fits_ofTerm (t : Term) : (ofTerm t).Fits := by
  intro l v hl hv
  obtain rfl : t = .literal l := hl
  exact Xsd.Value.of_parse? hv

variable {l m : Literal} {v? w? : Option Xsd.Value}

/-- Literals of one family are compared by their ranks in it. -/
theorem familyOrder_compares (family : LiteralFamily)
    (hv : ∀ v, v? = some v → Xsd.Value.Of l.datatype v)
    (hw : ∀ w, w? = some w → Xsd.Value.Of m.datatype w) :
    (familyOrder family l m v? w?).Compares (familyRank family l v?) (familyRank family m w?) := by
  -- values are only looked at if the datatypes are the same
  have hvalues : ((compare l.datatype m.datatype).then
      (missingLast Xsd.Value.sortOrder v? w?)).Compares
      (toLex (l.datatype, highRank Xsd.Value.rank v?))
      (toLex (m.datatype, highRank Xsd.Value.rank w?)) := by
    refine (Ordering.compares_compare _ _).then fun hdatatype => ?_
    apply missingLast_compares
    intro v w hsome hsome'
    apply Xsd.Value.sortOrder_compares
    rw [(hv v hsome).datatype_eq, (hw w hsome').datatype_eq, hdatatype]
  cases family with
  | plain =>
    refine Sum.Lex.inl_strictMono.compares.2 ?_
    exact missingFirst_compares fun _ _ _ _ => Ordering.compares_compare _ _
  | numeric =>
    refine Sum.Lex.inr_strictMono.compares.2 (Sum.Lex.inl_strictMono.compares.2 ?_)
    exact missingLast_compares fun a b _ _ => a.order_compares b
  | calendar => exact Sum.Lex.inr_strictMono.compares.2 (Sum.Lex.inr_strictMono.compares.2 hvalues)
  | other => exact Sum.Lex.inr_strictMono.compares.2 (Sum.Lex.inr_strictMono.compares.2 hvalues)

theorem literalOrder_compares (hv : ∀ v, v? = some v → Xsd.Value.Of l.datatype v)
    (hw : ∀ w, w? = some w → Xsd.Value.Of m.datatype w) :
    (literalOrder l m v? w?).Compares (literalRank l v?) (literalRank m w?) := by
  refine Ordering.Compares.then ((LiteralFamily.compare_compares _ _).then fun hplace => ?_)
    fun _ => (Ordering.compares_compare _ _).then fun _ => Ordering.compares_compare _ _
  rw [← LiteralFamily.place_injective hplace]
  exact familyOrder_compares _ hv hw

/-! ## Terms -/

/-- The rank of a datum: blank nodes, IRIs and literals follow each other. -/
def rank (d : Datum) : String ⊕ₗ String ⊕ₗ LiteralRank :=
  match d.term with
  | .blank n => Sum.inlₗ n.label
  | .iri i => Sum.inrₗ (Sum.inlₗ i.text)
  | .literal l => Sum.inrₗ (Sum.inrₗ (literalRank l d.value?))

theorem sortOrder_compares {a b : Datum} (ha : a.Fits) (hb : b.Fits) :
    (a.sortOrder b).Compares a.rank b.rank := by
  obtain ⟨s, v?⟩ := a
  obtain ⟨t, w?⟩ := b
  cases s <;> cases t
  case blank.blank m n => exact Sum.Lex.inl_strictMono.compares.2 (Ordering.compares_compare _ _)
  case iri.iri i j =>
    refine Sum.Lex.inr_strictMono.compares.2 (Sum.Lex.inl_strictMono.compares.2 ?_)
    exact Ordering.compares_compare _ _
  case literal.literal l m =>
    refine Sum.Lex.inr_strictMono.compares.2 (Sum.Lex.inr_strictMono.compares.2 ?_)
    exact literalOrder_compares (fun v => ha l v rfl) fun w => hb m w rfl
  case blank.iri => exact Sum.Lex.inl_lt_inr _ _
  case blank.literal => exact Sum.Lex.inl_lt_inr _ _
  case iri.blank => exact Sum.Lex.inl_lt_inr _ _
  case literal.blank => exact Sum.Lex.inl_lt_inr _ _
  case iri.literal => exact Sum.Lex.inr_strictMono (Sum.Lex.inl_lt_inr _ _)
  case literal.iri => exact Sum.Lex.inr_strictMono (Sum.Lex.inl_lt_inr _ _)

/-- Sort keys are compared by their ranks; nothing has the lowest rank. -/
theorem keyOrder_compares {a? b? : Option Datum} (ha : ∀ a, a? = some a → a.Fits)
    (hb : ∀ b, b? = some b → b.Fits) :
    (keyOrder a? b?).Compares (lowRank rank a?) (lowRank rank b?) :=
  missingFirst_compares fun a b hsome hsome' => sortOrder_compares (ha a hsome) (hb b hsome')

end Datum

/-! ## The laws of the order -/

/-- A literal is told by its text, its datatype and its language. -/
theorem Literal.eq_of_parts {l m : Literal} (hvalue : l.value = m.value)
    (hdatatype : l.datatype = m.datatype) (hlanguage : l.language? = m.language?) : l = m := by
  cases l with
  | simple v =>
    cases m with
    | simple w => exact congrArg simple hvalue
    | tagged w k => cases hlanguage
    | typed w d own => exact absurd hdatatype.symm own
  | tagged v k =>
    cases m with
    | tagged w k' =>
      obtain rfl : v = w := hvalue
      exact congrArg (tagged v) (Option.some.inj hlanguage)
    | _ => cases hlanguage
  | typed v d own =>
    cases m with
    | simple w => exact absurd hdatatype own
    | tagged w k => cases hlanguage
    | typed w d' own' =>
      obtain rfl : v = w := hvalue
      obtain ⟨i⟩ := d
      obtain ⟨j⟩ := d'
      obtain rfl : i = j := hdatatype
      rfl

/-- Only a literal with the datatype of such literals has a language. -/
theorem Literal.language?_eq_none {l : Literal} (h : l.datatype ≠ Rdf.langString) :
    l.language? = none := by
  cases l with
  | tagged v k => exact absurd rfl h
  | _ => rfl

namespace Datum

/-- A literal is told by its rank. -/
theorem eq_of_literalRank_eq {l m : Literal} {v? w? : Option Xsd.Value}
    (h : literalRank l v? = literalRank m w?) : l = m := by
  obtain ⟨hfamily, htext⟩ := Prod.mk.inj (toLex_inj.1 h)
  obtain ⟨-, hrank⟩ := Prod.mk.inj (toLex_inj.1 hfamily)
  obtain ⟨hdatatype, hvalue⟩ := Prod.mk.inj (toLex_inj.1 htext)
  refine Literal.eq_of_parts hvalue hdatatype ?_
  rw [← hdatatype] at hrank
  by_cases hlang : l.datatype = Rdf.langString
  · -- the language is the rank of a text in its family
    rw [LiteralFamily.ofDatatype_eq_plain_iff.2 (.inr hlang)] at hrank
    have hlow := Sum.inl.inj (toLex_inj.1 hrank)
    cases hl : l.language? <;> cases hm : m.language? <;> simp_all [lowRank]
  · have hlang' : m.datatype ≠ Rdf.langString := by rwa [← hdatatype]
    rw [Literal.language?_eq_none hlang, Literal.language?_eq_none hlang']

/-- A term is told by the rank of its datum. -/
theorem term_eq_of_rank_eq {a b : Datum} (h : a.rank = b.rank) : a.term = b.term := by
  obtain ⟨s, v?⟩ := a
  obtain ⟨t, w?⟩ := b
  cases s <;> cases t
  case blank.blank m n =>
    obtain ⟨i⟩ := m
    obtain ⟨j⟩ := n
    obtain rfl : i = j := Sum.inl.inj (toLex_inj.1 h)
    rfl
  case iri.iri i j =>
    obtain ⟨i⟩ := i
    obtain ⟨j⟩ := j
    obtain rfl : i = j := Sum.inl.inj (toLex_inj.1 (Sum.inr.inj (toLex_inj.1 h)))
    rfl
  case literal.literal l m =>
    have hrank := Sum.inr.inj (toLex_inj.1 (Sum.inr.inj (toLex_inj.1 h)))
    exact congrArg Term.literal (eq_of_literalRank_eq hrank)
  all_goals simp [rank] at h

end Datum

namespace Term

/-- The order of two given terms as sort keys, of which either may be missing. -/
def keyOrder (a? b? : Option Term) : Ordering :=
  Datum.keyOrder (a?.map .ofTerm) (b?.map .ofTerm)

/-- The kinds of sort keys in their order: nothing, blank nodes, IRIs and literals. -/
def place : Option Term → ℕ
  | none => 0
  | some (.blank _) => 1
  | some (.iri _) => 2
  | some (.literal _) => 3

/-- A well-formed literal that stands for a number. -/
def IsNumber (t : Term) : Prop :=
  ∃ l v, t = .literal l ∧ Xsd.Value.ofLiteral? l = some v ∧ v.isNumeric = true

/-- A literal of a numeric datatype that stands for no value. -/
def IsMalformedNumber (t : Term) : Prop :=
  ∃ l, t = .literal l ∧ Xsd.numericTypes.contains l.datatype = true ∧
    Xsd.Value.ofLiteral? l = none

/-- The rank of a given term as a sort key. -/
def keyRank (a? : Option Term) : WithBot (String ⊕ₗ String ⊕ₗ LiteralRank) :=
  lowRank Datum.rank (a?.map .ofTerm)

theorem keyOrder_compares (a? b? : Option Term) :
    (keyOrder a? b?).Compares (keyRank a?) (keyRank b?) := by
  apply Datum.keyOrder_compares
  · intro a ha
    obtain ⟨t, -, rfl⟩ := Option.map_eq_some_iff.1 ha
    exact Datum.fits_ofTerm t
  · intro b hb
    obtain ⟨t, -, rfl⟩ := Option.map_eq_some_iff.1 hb
    exact Datum.fits_ofTerm t

theorem keyRank_injective {a? b? : Option Term} (h : keyRank a? = keyRank b?) : a? = b? := by
  cases a? with
  | none =>
    cases b? with
    | none => rfl
    | some b => exact absurd h.symm (WithBot.coe_ne_bot)
  | some a =>
    cases b? with
    | none => exact absurd h (WithBot.coe_ne_bot)
    | some b => exact congrArg some (Datum.term_eq_of_rank_eq (WithBot.coe_inj.1 h))

theorem keyOrder_of_place_lt {a? b? : Option Term} (h : place a? < place b?) :
    keyOrder a? b? = .lt := by
  rcases a? with - | (i | n | l) <;> rcases b? with - | (j | m | k) <;>
    first | rfl | simp [place] at h

/-- A number comes before all malformed literals of the numeric datatypes. -/
theorem keyOrder_of_malformed {s t : Term} (hs : s.IsNumber) (ht : t.IsMalformedNumber) :
    keyOrder (some s) (some t) = .lt := by
  obtain ⟨l, v, rfl, hv, hnumeric⟩ := hs
  obtain ⟨m, rfl, hm, hnone⟩ := ht
  have hl : Xsd.numericTypes.contains l.datatype = true := by
    rw [← (Xsd.Value.of_parse? hv).isNumeric_eq, hnumeric]
  obtain ⟨k, hk⟩ : ∃ k, Xsd.NumberKey.ofValue? v = some k := by
    cases v <;> first | exact ⟨_, rfl⟩ | cases hnumeric
  show Datum.literalOrder l m (Xsd.Value.ofLiteral? l) (Xsd.Value.ofLiteral? m) = .lt
  unfold Datum.literalOrder
  rw [hv, hnone, LiteralFamily.ofDatatype_eq_numeric_iff.2 hl,
    LiteralFamily.ofDatatype_eq_numeric_iff.2 hm]
  simp only [Datum.familyOrder, Option.bind_some, hk, Option.bind_none]
  rfl

/-- The laws of the order of sort keys, on three terms of which each may be missing. -/
structure KeyLaws (a? b? c? : Option Term) : Prop where
  total : keyOrder a? b? ≠ .gt ∨ keyOrder b? a? ≠ .gt
  swap : (keyOrder a? b?).swap = keyOrder b? a?
  trans : keyOrder a? b? ≠ .gt → keyOrder b? c? ≠ .gt → keyOrder a? c? ≠ .gt
  level : keyOrder a? b? = .eq ↔ a? = b?
  kinds : place a? < place b? → keyOrder a? b? = .lt
  malformed : ∀ s t, a? = some s → b? = some t → s.IsNumber → t.IsMalformedNumber →
    keyOrder a? b? = .lt

/-- The order of sort keys is a total order of given terms: only equal ones are level. -/
theorem keyOrder_lawful (a? b? c? : Option Term) : KeyLaws a? b? c? where
  total := by
    rw [(keyOrder_compares a? b?).ne_gt, (keyOrder_compares b? a?).ne_gt]
    exact le_total _ _
  swap := (Ordering.compares_swap.2 (keyOrder_compares a? b?)).inj (keyOrder_compares b? a?)
  trans := by
    rw [(keyOrder_compares a? b?).ne_gt, (keyOrder_compares b? c?).ne_gt,
      (keyOrder_compares a? c?).ne_gt]
    exact le_trans
  level := by
    rw [(keyOrder_compares a? b?).eq_eq]
    exact ⟨keyRank_injective, congrArg keyRank⟩
  kinds := keyOrder_of_place_lt
  malformed := by
    rintro s t rfl rfl hs ht
    exact keyOrder_of_malformed hs ht

end Term
end QuadStore
