import Mathlib.Computability.Language
import QuadStore.Rdf.Term

/-!
# Grammars of names

The productions of N-Triples and SPARQL for the labels of blank nodes and the names of variables, as
languages. A name is checked character by character, with rules of their own for the first and the
last one; what passes is what the productions generate: `Name.recognizes`.
-/

namespace QuadStore
namespace Name

open scoped Computability

/-! ## Character classes -/

/-- The characters between two code points, ends included. -/
def codes (low high : Nat) : Set Char := {c | low ≤ c.toNat ∧ c.toNat ≤ high}

/-- `[0-9]`. -/
def digits : Set Char := codes '0'.toNat '9'.toNat

/-- `PN_CHARS_BASE`. -/
def letters : Set Char :=
  codes 'A'.toNat 'Z'.toNat ∪ codes 'a'.toNat 'z'.toNat ∪ codes 0xC0 0xD6 ∪ codes 0xD8 0xF6 ∪
    codes 0xF8 0x2FF ∪ codes 0x370 0x37D ∪ codes 0x37F 0x1FFF ∪ codes 0x200C 0x200D ∪
    codes 0x2070 0x218F ∪ codes 0x2C00 0x2FEF ∪ codes 0x3001 0xD7FF ∪ codes 0xF900 0xFDCF ∪
    codes 0xFDF0 0xFFFD ∪ codes 0x10000 0xEFFFF

/-- `PN_CHARS_U`. -/
def starts : Set Char := letters ∪ {'_'}

/-- `#x00B7 | [#x0300-#x036F] | [#x203F-#x2040]`. -/
def marks : Set Char := {Char.ofNat 0xB7} ∪ codes 0x300 0x36F ∪ codes 0x203F 0x2040

/-- `PN_CHARS`. -/
def parts : Set Char := starts ∪ {'-'} ∪ digits ∪ marks

/-! ## Productions -/

/-- The words of one character. -/
def oneOf (s : Set Char) : Language Char := {w | ∃ c ∈ s, w = [c]}

/-- The label of a blank node, without the `_:` before it. -/
def label : Language Char :=
  oneOf (starts ∪ {':'} ∪ digits) *
    (1 + (oneOf (parts ∪ {':', '.'}))∗ * oneOf (parts ∪ {':'}))

/-- `VARNAME`. -/
def varName : Language Char := oneOf (starts ∪ digits) * (oneOf (starts ∪ digits ∪ marks))∗

/-! ## Words of a product -/

section

variable {s : Set Char} {l : Language Char} {c : Char} {cs : List Char}

theorem nil_notMem_oneOf_mul : [] ∉ oneOf s * l := by
  intro h
  obtain ⟨w, ⟨c, -, rfl⟩, rest, -, heq⟩ := Language.mem_mul.1 h
  exact absurd heq (List.cons_ne_nil c _)

theorem cons_mem_oneOf_mul : c :: cs ∈ oneOf s * l ↔ c ∈ s ∧ cs ∈ l := by
  rw [Language.mem_mul]
  constructor
  · intro h
    obtain ⟨w, ⟨d, hd, rfl⟩, rest, hrest, heq⟩ := h
    obtain ⟨rfl, rfl⟩ := List.cons.inj heq
    exact ⟨hd, hrest⟩
  · intro h
    exact ⟨[c], ⟨c, h.1, rfl⟩, cs, h.2, rfl⟩

theorem concat_mem_mul_oneOf : cs ++ [c] ∈ l * oneOf s ↔ cs ∈ l ∧ c ∈ s := by
  rw [Language.mem_mul]
  constructor
  · intro h
    obtain ⟨front, hfront, w, ⟨d, hd, rfl⟩, heq⟩ := h
    obtain ⟨rfl, hlast⟩ := List.append_inj' heq rfl
    exact ⟨hfront, List.singleton_inj.1 hlast ▸ hd⟩
  · intro h
    exact ⟨cs, h.1, [c], ⟨c, h.2, rfl⟩, rfl⟩

/-- The words of any length over a class. -/
theorem mem_kstar_oneOf : cs ∈ (oneOf s)∗ ↔ ∀ c ∈ cs, c ∈ s := by
  rw [Language.mem_kstar]
  constructor
  · intro h c hc
    obtain ⟨words, rfl, hwords⟩ := h
    obtain ⟨w, hw, hc⟩ := List.mem_flatten.1 hc
    obtain ⟨d, hd, rfl⟩ := hwords w hw
    exact List.mem_singleton.1 hc ▸ hd
  · intro h
    refine ⟨cs.map fun c => [c], (List.flatMap_singleton' cs).symm, ?_⟩
    intro w hw
    obtain ⟨c, hc, rfl⟩ := List.mem_map.1 hw
    exact ⟨c, h c hc, rfl⟩

end

/-! ## The classes that are checked -/

variable {c : Char}

theorem isDigit_iff : isDigit c = true ↔ c ∈ digits := by
  unfold isDigit digits codes
  rw [Bool.and_eq_true, decide_eq_true_iff, decide_eq_true_iff]
  exact Iff.rfl

theorem inRanges_nil : inRanges [] c = false := rfl

/-- A character in one of some ranges is in the class of one of them. -/
theorem inRanges_cons {low high : Nat} {ranges : List (Nat × Nat)} :
    inRanges ((low, high) :: ranges) c = true ↔ c ∈ codes low high ∨ inRanges ranges c = true := by
  unfold inRanges codes
  rw [List.any_cons, Bool.or_eq_true, Bool.and_eq_true, decide_eq_true_iff, decide_eq_true_iff]
  exact Iff.rfl

/-- The class of one character. -/
theorem mem_codes_toNat (d : Char) : c ∈ codes d.toNat d.toNat ↔ c = d := by
  rw [← Char.toNat_inj]
  exact ⟨fun h => le_antisymm h.2 h.1, fun h => ⟨h.ge, h.le⟩⟩

theorem isStart_iff : isStart c = true ↔ c ∈ starts := by
  -- the table has the underscore first, the grammar has it last
  have hunderscore : c ∈ starts ↔ c ∈ codes '_'.toNat '_'.toNat ∨ c ∈ letters := by
    rw [starts, Set.mem_union, Set.mem_singleton_iff, mem_codes_toNat, or_comm]
  rw [hunderscore]
  unfold isStart startRanges letters
  simp only [inRanges_cons, inRanges_nil, Bool.false_eq_true, or_false, Set.mem_union, or_assoc]
  exact Iff.rfl

theorem isMark_iff : inRanges markRanges c = true ↔ c ∈ marks := by
  unfold markRanges marks
  simp only [inRanges_cons, inRanges_nil, Bool.false_eq_true, or_false, Set.mem_union, or_assoc,
    Set.mem_singleton_iff, ← mem_codes_toNat (Char.ofNat 0xB7)]
  exact Iff.rfl

theorem isPart_iff : isPart c = true ↔ c ∈ parts := by
  unfold isPart parts
  simp only [Bool.or_eq_true, beq_iff_eq, isStart_iff, isDigit_iff, isMark_iff, Set.mem_union,
    Set.mem_singleton_iff]

/-- The dot is not among the characters of names. -/
theorem dot_notMem_parts : '.' ∉ parts := by
  rw [← isPart_iff]
  decide

/-- Nor is the hyphen among those of the names of variables. -/
theorem hyphen_notMem : '-' ∉ starts ∪ digits ∪ marks := by
  rw [Set.mem_union, Set.mem_union, ← isStart_iff, ← isDigit_iff, ← isMark_iff]
  decide

/-! ## The names that are accepted -/

theorem isLabelStart_iff : isLabelStart c = true ↔ c ∈ starts ∪ {':'} ∪ digits := by
  unfold isLabelStart
  rw [Bool.or_eq_true, Bool.or_eq_true, isDigit_iff, isStart_iff, beq_iff_eq, Set.mem_union,
    Set.mem_union, Set.mem_singleton_iff]
  tauto

theorem isLabelPart_iff : isLabelPart c = true ↔ c ∈ parts ∪ {':', '.'} := by
  unfold isLabelPart
  rw [Bool.or_eq_true, Bool.or_eq_true, isPart_iff, beq_iff_eq, beq_iff_eq, Set.mem_union,
    Set.mem_insert_iff, Set.mem_singleton_iff]
  tauto

/-- The characters that may stand last in a label. -/
theorem isLabelPart_and_ne_dot_iff :
    isLabelPart c = true ∧ c ≠ '.' ↔ c ∈ parts ∪ {':'} := by
  rw [isLabelPart_iff, Set.mem_union, Set.mem_union, Set.mem_insert_iff, Set.mem_singleton_iff,
    Set.mem_singleton_iff]
  constructor
  · intro h
    tauto
  · intro h
    refine ⟨by tauto, ?_⟩
    rintro rfl
    obtain h | h := h
    · exact dot_notMem_parts h
    · exact absurd h (by decide)

/-- The characters that may stand in the name of a variable after the first one. -/
theorem ne_hyphen_and_isPart_iff :
    c ≠ '-' ∧ isPart c = true ↔ c ∈ starts ∪ digits ∪ marks := by
  have hparts : c ∈ parts ↔ c = '-' ∨ c ∈ starts ∪ digits ∪ marks := by
    simp only [parts, Set.mem_union, Set.mem_singleton_iff]
    tauto
  rw [isPart_iff, hparts]
  constructor
  · intro h
    exact h.2.resolve_left h.1
  · intro h
    refine ⟨?_, .inr h⟩
    rintro rfl
    exact hyphen_notMem h

theorem isBlankNodeLabel_iff {cs : List Char} : isBlankNodeLabel cs = true ↔ cs ∈ label := by
  cases cs with
  | nil => exact iff_of_false Bool.false_ne_true nil_notMem_oneOf_mul
  | cons first rest =>
    unfold isBlankNodeLabel label
    rw [Bool.and_eq_true, Bool.and_eq_true, isLabelStart_iff, cons_mem_oneOf_mul, Language.mem_add,
      Language.mem_one, and_assoc]
    apply and_congr_right
    intro hfirst
    -- what follows the first character is empty or has a last one
    obtain rfl | ⟨front, last, rfl⟩ := rest.eq_nil_or_concat'
    · -- the first character is the last one, which no dot can be
      have hdot : first ≠ '.' := by
        rintro rfl
        rw [← isLabelStart_iff] at hfirst
        exact absurd hfirst (by decide)
      simpa using hdot
    · have hnil : front ++ [last] ≠ [] := List.concat_ne_nil last front
      rw [concat_mem_mul_oneOf, mem_kstar_oneOf, ← isLabelPart_and_ne_dot_iff, List.all_append,
        Bool.and_eq_true, List.all_eq_true, List.all_cons, List.all_nil, Bool.and_true,
        ← List.cons_append, List.getLast?_concat, bne_iff_ne, ne_eq, Option.some.injEq, and_assoc,
        or_iff_right hnil]
      simp only [isLabelPart_iff]

theorem isVariableName_iff {cs : List Char} : isVariableName cs = true ↔ cs ∈ varName := by
  cases cs with
  | nil => exact iff_of_false Bool.false_ne_true nil_notMem_oneOf_mul
  | cons first rest =>
    unfold isVariableName varName
    rw [Bool.and_eq_true, Bool.or_eq_true, List.all_eq_true, cons_mem_oneOf_mul, mem_kstar_oneOf,
      isDigit_iff, isStart_iff, or_comm, Set.mem_union]
    simp only [Bool.and_eq_true, bne_iff_ne, ne_hyphen_and_isPart_iff]

/-- A label or a name is accepted exactly if the grammar generates it, and is kept as it is. -/
theorem recognizes (s : String) :
    (∀ b, BlankNode.ofLabel? s = some b ↔ s.toList ∈ label ∧ b.label = s) ∧
    (∀ v, Variable.ofName? s = some v ↔ s.toList ∈ varName ∧ v.name = s) := by
  refine ⟨?_, ?_⟩
  · intro b
    obtain ⟨text⟩ := b
    unfold BlankNode.ofLabel?
    rw [Option.ite_none_right_eq_some, isBlankNodeLabel_iff, Option.some.injEq,
      BlankNode.mk.injEq, eq_comm (a := s)]
  · intro v
    obtain ⟨text⟩ := v
    unfold Variable.ofName?
    rw [Option.ite_none_right_eq_some, isVariableName_iff, Option.some.injEq,
      Variable.mk.injEq, eq_comm (a := s)]

/-- Dots may stand anywhere but at the two ends. -/
example : BlankNode.ofLabel? "a..b" = some ⟨"a..b"⟩ ∧ BlankNode.ofLabel? "a.b.." = none ∧
    BlankNode.ofLabel? "..." = none := by
  decide

end Name
end QuadStore
