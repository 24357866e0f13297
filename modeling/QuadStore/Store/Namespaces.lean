/-!
# Namespaces

The namespaces that labels stand for, in the order of the labels. As each label stands once and
the labels are in order, two of these lists are equal if each label stands for the same namespace
in both.
-/

namespace QuadStore

/-- Labels with the namespaces that they stand for. -/
structure Namespaces where
  entries : List (String × String)
  /-- The labels are in order, each once. -/
  sorted : entries.Pairwise fun a b => a.1 < b.1
deriving DecidableEq, Repr

namespace Namespaces

/-- No labels. -/
def empty : Namespaces := ⟨[], .nil⟩

/-- The namespace of a label. -/
def get? (ns : Namespaces) (label : String) : Option String := ns.entries.lookup label

/-- Sets the namespace of a label among some in order. -/
def setIn (label space : String) : List (String × String) → List (String × String)
  | [] => [(label, space)]
  | (l, s) :: rest =>
    if l = label then (label, space) :: rest
    else if label < l then (label, space) :: (l, s) :: rest
    else (l, s) :: setIn label space rest

/-- What stands after setting a label is the label itself or was there before. -/
theorem mem_setIn {label space : String} {entries : List (String × String)}
    {e : String × String} (h : e ∈ setIn label space entries) :
    e = (label, space) ∨ e ∈ entries := by
  induction entries with
  | nil => exact .inl (by simpa [setIn] using h)
  | cons first rest ih =>
    simp only [setIn] at h
    split at h
    · grind
    · split at h
      · grind
      · rcases List.mem_cons.1 h with rfl | h
        · simp
        · exact (ih h).imp_right (List.mem_cons_of_mem _)

theorem sorted_setIn (label space : String) {entries : List (String × String)}
    (h : entries.Pairwise fun a b => a.1 < b.1) :
    (setIn label space entries).Pairwise fun a b => a.1 < b.1 := by
  induction entries with
  | nil => simp [setIn]
  | cons first rest ih =>
    obtain ⟨l, s⟩ := first
    rw [List.pairwise_cons] at h
    simp only [setIn]
    split
    · rename_i hl
      subst hl
      exact List.pairwise_cons.2 h
    · rename_i hne
      split
      · rename_i hlt
        refine List.pairwise_cons.2 ⟨?_, List.pairwise_cons.2 h⟩
        intro e he
        rcases List.mem_cons.1 he with rfl | he
        · exact hlt
        · exact String.lt_trans hlt (h.1 e he)
      · rename_i hle
        refine List.pairwise_cons.2 ⟨?_, ih h.2⟩
        intro e he
        rcases mem_setIn he with rfl | he
        · -- neither equal to the label nor above it
          rcases Decidable.em (l < label) with hlt | hnot
          · exact hlt
          · exact absurd (String.le_antisymm (String.not_lt.1 hle) (String.not_lt.1 hnot)) hne
        · exact h.1 e he

/-- Sets the namespace of a label. -/
def set (ns : Namespaces) (label space : String) : Namespaces :=
  ⟨setIn label space ns.entries, sorted_setIn label space ns.sorted⟩

/-- Removes a label. -/
def erase (ns : Namespaces) (label : String) : Namespaces :=
  ⟨ns.entries.filter (·.1 != label), ns.sorted.filter _⟩

end Namespaces

/-- A change of the namespaces. -/
inductive NamespaceChange where
  | set (label space : String)
  | remove (label : String)
  | clear
deriving DecidableEq, Repr

/-- The namespaces after a change. -/
def Namespaces.apply (ns : Namespaces) : NamespaceChange → Namespaces
  | .set label space => ns.set label space
  | .remove label => ns.erase label
  | .clear => .empty

/-- The namespaces after some changes. -/
def Namespaces.applyAll (ns : Namespaces) (changes : List NamespaceChange) : Namespaces :=
  changes.foldl apply ns

end QuadStore
