import Mathlib

/-!
# Lists

How filters, partial images and the removal of repeated elements go together, and what is kept or
collected by a fold that may fail.
-/

/-- What comes of two steps comes of the first one, then of the second one. -/
theorem Except.exists_of_bind_eq_ok {ε α β : Type} {x : Except ε α} {f : α → Except ε β} {b : β}
    (h : x >>= f = .ok b) : ∃ a, x = .ok a ∧ f a = .ok b := by
  cases x with
  | error e => exact nomatch h
  | ok a => exact ⟨a, rfl, h⟩

namespace List

variable {α β : Type}

/-- Filtering by what the images satisfy is filtering the images. -/
theorem filterMap_filter_comm {f : α → Option β} {p : α → Bool} {q : β → Bool}
    {l : List α} (h : ∀ a ∈ l, ∀ b, f a = some b → p a = q b) :
    (l.filter p).filterMap f = (l.filterMap f).filter q := by
  induction l with
  | nil => rfl
  | cons a rest ih =>
    have hrest := ih fun x hx => h x (List.mem_cons_of_mem _ hx)
    have ha := h a List.mem_cons_self
    cases hf : f a with
    | none =>
      rw [List.filterMap_cons_none hf, ← hrest, List.filter_cons]
      split
      · rw [List.filterMap_cons_none hf]
      · rfl
    | some b =>
      rw [List.filterMap_cons_some hf, List.filter_cons, List.filter_cons, ha b hf]
      split
      · rw [List.filterMap_cons_some hf, hrest]
      · exact hrest

/-- Leaving out repeated elements commutes with an injective image. -/
theorem filterMap_eraseDups [DecidableEq α] [DecidableEq β] {f : α → Option β}
    {l : List α} (hinj : ∀ a ∈ l, ∀ a' ∈ l, ∀ b, f a = some b → f a' = some b → a = a') :
    l.eraseDups.filterMap f = (l.filterMap f).eraseDups := by
  match l with
  | [] => rfl
  | a :: rest =>
    have hrest : ∀ x ∈ rest.filter (fun b => !b == a), x ∈ a :: rest := fun x hx =>
      mem_cons_of_mem _ (mem_filter.1 hx).1
    have ih := filterMap_eraseDups (f := f) (l := rest.filter fun b => !b == a)
      fun x hx y hy => hinj x (hrest x hx) y (hrest y hy)
    rw [eraseDups_cons]
    cases hf : f a with
    | none =>
      rw [filterMap_cons_none hf, filterMap_cons_none hf, ih]
      congr 1
      -- only copies of the element without an image are left out
      rw [filterMap_filter]
      refine filterMap_congr ?_
      intro x _
      by_cases hx : x = a
      · simp [hx, hf]
      · simp [hx]
    | some b =>
      rw [filterMap_cons_some hf, filterMap_cons_some hf, eraseDups_cons, ih]
      congr 2
      refine filterMap_filter_comm ?_
      intro x hx c hc
      by_cases hxa : x = a
      · rw [hxa, hf] at hc
        simp [hxa, Option.some.inj hc]
      · have hcb : c ≠ b := by
          rintro rfl
          exact hxa (hinj x (mem_cons_of_mem _ hx) a mem_cons_self c hc hf)
        rw [beq_false_of_ne hxa, beq_false_of_ne hcb]
  termination_by l.length
  decreasing_by
    exact Nat.lt_succ_of_le (length_filter_le _ _)

theorem nodup_eraseDups [DecidableEq α] (l : List α) : l.eraseDups.Nodup := by
  match l with
  | [] => exact nodup_nil
  | a :: rest =>
    rw [eraseDups_cons, nodup_cons]
    refine ⟨?_, nodup_eraseDups _⟩
    rw [mem_eraseDups, mem_filter]
    simp
  termination_by l.length
  decreasing_by
    exact Nat.lt_succ_of_le (length_filter_le _ _)

/-- Where nothing is repeated, nothing is left out. -/
theorem eraseDups_of_nodup [DecidableEq α] {l : List α} (h : l.Nodup) : l.eraseDups = l := by
  induction l with
  | nil => rfl
  | cons a rest ih =>
    obtain ⟨ha, hrest⟩ := nodup_cons.1 h
    have hfilter : rest.filter (fun b => !b == a) = rest := by
      rw [filter_eq_self]
      intro b hb
      have hne : b ≠ a := by
        rintro rfl
        exact ha hb
      simp [hne]
    rw [eraseDups_cons, hfilter, ih hrest]

/-- What is repeated at the beginning may be left out before. -/
theorem eraseDups_eraseDups_append [DecidableEq α] (l m : List α) :
    (l.eraseDups ++ m).eraseDups = (l ++ m).eraseDups := by
  have hremoved : m.removeAll l.eraseDups = m.removeAll l := by
    unfold removeAll
    refine filter_congr ?_
    intro a _
    simp
  rw [eraseDups_append, eraseDups_append, hremoved, eraseDups_of_nodup (nodup_eraseDups l)]

/-- Something added at the end stays out if it is there already. -/
theorem eraseDups_concat [DecidableEq α] {l : List α} (h : l.Nodup) (a : α) :
    (l ++ [a]).eraseDups = if a ∈ l then l else l ++ [a] := by
  rw [eraseDups_append, eraseDups_of_nodup h]
  unfold removeAll
  split
  · rename_i ha
    simp [ha]
  · rename_i ha
    simp [ha, eraseDups_cons]

/-- Elements counted in two rounds, the second time among those that remain. -/
theorem countP_add_countP_filter (p q : α → Bool) (l : List α) :
    l.countP p + (l.filter fun a => !p a).countP q = l.countP fun a => p a || q a := by
  induction l with
  | nil => rfl
  | cons a rest ih =>
    rw [countP_cons, countP_cons, filter_cons]
    cases p a
    · rw [if_pos (Bool.not_false), countP_cons, Bool.false_or]
      simp only [Bool.false_eq_true, if_false]
      omega
    · simp only [Bool.not_true, Bool.false_eq_true, if_false, Bool.true_or, if_true]
      omega

/-- What every step keeps is kept by a fold that does not fail. -/
theorem foldlM_keeps {ε : Type} {f : β → α → Except ε β} {P : β → Prop}
    (hstep : ∀ {b a c}, P b → f b a = .ok c → P c) {l : List α} {b c : β} (hb : P b)
    (h : l.foldlM f b = .ok c) : P c := by
  induction l generalizing b with
  | nil => exact Except.ok.inj h ▸ hb
  | cons a rest ih =>
    rw [foldlM_cons] at h
    obtain ⟨d, hd, hrest⟩ := Except.exists_of_bind_eq_ok h
    exact ih (hstep hb hd) hrest

/-- What each step of a fold collects is collected by a fold that does not fail. -/
theorem foldlM_collects {γ ε : Type} {f : β → α → Except ε β} {g : α → List γ}
    {P : List γ → β → Prop} (hstep : ∀ {cs b a c}, P cs b → f b a = .ok c → P (cs ++ g a) c)
    {l : List α} {cs : List γ} {b c : β} (hb : P cs b) (h : l.foldlM f b = .ok c) :
    P (cs ++ l.flatMap g) c := by
  induction l generalizing cs b with
  | nil =>
    rw [flatMap_nil, append_nil, ← Except.ok.inj h]
    exact hb
  | cons a rest ih =>
    rw [foldlM_cons] at h
    obtain ⟨next, ha, hrest⟩ := Except.exists_of_bind_eq_ok h
    rw [flatMap_cons, ← append_assoc]
    exact ih (hstep hb ha) hrest

end List
