import QuadStore.Cursor

/-!
# Adapters of cursors

A composition of cursors is closed at its end, but no adapter closes the cursor below at its end:
each relies on that cursor to be closed by then, just as those above rely on it. What an adapter can
rely on, and offers itself, is a `Cursor.Contract`. Each adapter turns the contract of the cursor
below into its own, and what it makes of the items that this cursor gives is a function on lists
(`Cursor.Yield`).
-/

namespace QuadStore.Cursor

variable {ε α β γ μ σ σ' : Type}

/-! ## What is made of the items -/

/-- The items of a source up to its first error. -/
def leading : List (Except ε α) → List α
  | [] => []
  | .ok a :: rest => a :: leading rest
  | .error _ :: _ => []

/-- The first error of a source. -/
def firstError? : List (Except ε α) → Option ε
  | [] => none
  | .ok _ :: rest => firstError? rest
  | .error e :: _ => some e

theorem leading_append (read : List α) (rest : List (Except ε α)) :
    leading (read.map .ok ++ rest) = read ++ leading rest := by
  induction read with
  | nil => rfl
  | cons a read ih => exact congrArg (a :: ·) ih

theorem firstError?_append (read : List α) (rest : List (Except ε α)) :
    firstError? (read.map .ok ++ rest) = firstError? rest := by
  induction read with
  | nil => rfl
  | cons a read ih => exact ih

/-- The images of the items that have one, where an image may depend on what is remembered of the
items before. -/
def imagesOf (image : μ → α → Option β × μ) : μ → List α → List β
  | _, [] => []
  | memory, a :: rest => (image memory a).1.toList ++ imagesOf image (image memory a).2 rest

theorem imagesOf_eq_filterMap (f : α → Option β) (items : List α) :
    imagesOf (fun _ a => (f a, ())) () items = items.filterMap f := by
  induction items with
  | nil => rfl
  | cons a rest ih =>
    rw [imagesOf, ih, List.filterMap_cons]
    cases f a <;> rfl

/-- What is made of the items of a source, and whether items after these are of no use because a
limit has been reached. -/
structure Yield (α β : Type) where
  items : List α → List β
  isFull : List α → Bool

namespace Yield

/-- All items as they are. -/
def all : Yield α α := ⟨id, fun _ => false⟩

/-- First the one, then the other. -/
def comp (y : Yield α β) (z : Yield β γ) : Yield α γ :=
  ⟨fun l => z.items (y.items l), fun l => y.isFull l || z.isFull (y.items l)⟩

def filterMap (memory : μ) (image : μ → α → Option β × μ) : Yield α β :=
  ⟨imagesOf image memory, fun _ => false⟩

def slice (offset : Nat) (limit? : Option Nat) : Yield α α :=
  ⟨fun l => limit?.elim (l.drop offset) (l.drop offset).take,
    fun l => limit?.any (· ≤ (l.drop offset).length)⟩

/-- The answers to the pulls up to the last one that does not say that nothing follows. An error is
not reached if a limit is reached before. -/
def results (y : Yield α β) (xs : List (Except ε α)) : List (Pull ε β) :=
  (y.items (leading xs)).map .item ++
    if y.isFull (leading xs) then [] else ((firstError? xs).map .error).toList

/-- Nothing has come of no items, but something still may. -/
structure IsOpen (y : Yield α β) : Prop where
  items : y.items [] = []
  isFull : y.isFull [] = false

/-- Nothing will come, whatever the items. -/
structure IsSpent (y : Yield α β) : Prop where
  items (l : List α) : y.items l = []
  isFull (l : List α) : y.isFull l = true

/-- The items `read` give `given`, and what then comes of the items after them is as `z` says. -/
structure Leads (y : Yield α β) (read : List α) (given : List β) (z : Yield α β) : Prop where
  items (l : List α) : y.items (read ++ l) = given ++ z.items l
  isFull (l : List α) : y.isFull (read ++ l) = z.isFull l

/-- What comes of the items after a first one. -/
def derive (y : Yield α β) (a : α) : Yield α β :=
  ⟨fun l => y.items (a :: l), fun l => y.isFull (a :: l)⟩

variable {y y' y'' : Yield α β} {z z' : Yield β γ} {read more : List α} {given out : List β}

@[ext]
theorem ext (hitems : ∀ l, y.items l = y'.items l) (hfull : ∀ l, y.isFull l = y'.isFull l) :
    y = y' := by
  cases y
  cases y'
  rw [mk.injEq]
  exact ⟨funext hitems, funext hfull⟩

@[simp]
theorem items_comp (y : Yield α β) (z : Yield β γ) (l : List α) :
    (y.comp z).items l = z.items (y.items l) := rfl

@[simp]
theorem isFull_comp (y : Yield α β) (z : Yield β γ) (l : List α) :
    (y.comp z).isFull l = (y.isFull l || z.isFull (y.items l)) := rfl

theorem comp_all (y : Yield α β) : y.comp all = y :=
  ext (fun _ => rfl) fun l => Bool.or_false (y.isFull l)

theorem IsOpen.comp (hy : y.IsOpen) (hz : z.IsOpen) : (y.comp z).IsOpen where
  items := by rw [items_comp, hy.items, hz.items]
  isFull := by rw [isFull_comp, hy.isFull, hy.items, hz.isFull, Bool.or_false]

theorem IsSpent.comp (hy : y.IsSpent) (hz : z.IsOpen) : (y.comp z).IsSpent where
  items l := by rw [items_comp, hy.items, hz.items]
  isFull l := by rw [isFull_comp, hy.isFull, Bool.true_or]

theorem isOpen_all : (all : Yield α α).IsOpen := ⟨rfl, rfl⟩

theorem isOpen_filterMap (memory : μ) (image : μ → α → Option β × μ) :
    (filterMap memory image).IsOpen := ⟨rfl, rfl⟩

theorem isOpen_slice (offset : Nat) {limit? : Option Nat} (h : limit? ≠ some 0) :
    (slice offset limit? : Yield α α).IsOpen where
  items := by cases limit? <;> simp [slice]
  isFull := by
    cases limit? with
    | none => rfl
    | some limit =>
      have hlimit : limit ≠ 0 := fun hzero => h (congrArg some hzero)
      simp [slice, hlimit]

/-- A limit of no items at all is reached from the start. -/
theorem isSpent_slice (y : Yield α β) (offset : Nat) :
    (y.comp (slice offset (some 0))).IsSpent where
  items l := by simp [slice]
  isFull l := by simp [slice]

theorem Leads.refl (y : Yield α β) : y.Leads [] [] y := ⟨fun _ => rfl, fun _ => rfl⟩

theorem Leads.derive (y : Yield α β) (a : α) : y.Leads [a] [] (y.derive a) :=
  ⟨fun _ => rfl, fun _ => rfl⟩

theorem Leads.trans (h : y.Leads read given y') (h' : y'.Leads more out y'') :
    y.Leads (read ++ more) (given ++ out) y'' where
  items l := by rw [List.append_assoc, h.items, h'.items, List.append_assoc]
  isFull l := by rw [List.append_assoc, h.isFull, h'.isFull]

theorem Leads.comp {out : List γ} (h : y.Leads read given y') (h' : z.Leads given out z') :
    (y.comp z).Leads read out (y'.comp z') where
  items l := by rw [items_comp, h.items, h'.items, items_comp]
  isFull l := by rw [isFull_comp, h.isFull, h.items, h'.isFull, isFull_comp]

theorem Leads.derive_comp {a : α} {b : β} (h : y.Leads [a] [b] y') (z : Yield β γ) :
    (y.comp z).derive a = y'.comp (z.derive b) :=
  ext (fun l => congrArg z.items (h.items l)) fun l => by
    show (y.isFull ([a] ++ l) || z.isFull (y.items ([a] ++ l))) = _
    rw [h.isFull, h.items]
    rfl

theorem Leads.results (h : y.Leads read given y') (rest : List (Except ε α)) :
    y.results (read.map .ok ++ rest) = given.map .item ++ y'.results rest := by
  rw [Yield.results, leading_append, firstError?_append, h.items, h.isFull, List.map_append,
    List.append_assoc, Yield.results]

theorem results_ok (y : Yield α β) (a : α) (rest : List (Except ε α)) :
    y.results (.ok a :: rest) = (y.derive a).results rest :=
  (Leads.derive y a).results rest

theorem IsSpent.results (h : y.IsSpent) (xs : List (Except ε α)) : y.results xs = [] := by
  rw [Yield.results, h.items, h.isFull]
  rfl

theorem IsOpen.results_nil (h : y.IsOpen) : y.results ([] : List (Except ε α)) = [] := by
  rw [Yield.results, leading, h.items, h.isFull]
  rfl

theorem IsOpen.results_error (h : y.IsOpen) (e : ε) (rest : List (Except ε α)) :
    y.results (.error e :: rest) = [.error e] := by
  rw [Yield.results, leading, h.items, h.isFull]
  rfl

theorem all_leads (a : α) : all.Leads [a] [a] all := ⟨fun _ => rfl, fun _ => rfl⟩

theorem filterMap_leads_of_some {image : μ → α → Option β × μ} {memory memory' : μ} {a : α} {b : β}
    (h : image memory a = (some b, memory')) :
    (filterMap memory image).Leads [a] [b] (filterMap memory' image) where
  items l := by
    show imagesOf image memory (a :: l) = b :: imagesOf image memory' l
    rw [imagesOf, h]
    rfl
  isFull _ := rfl

theorem derive_filterMap_of_none {image : μ → α → Option β × μ} {memory memory' : μ} {a : α}
    (h : image memory a = (none, memory')) :
    (filterMap memory image).derive a = filterMap memory' image := by
  refine ext (fun l => ?_) fun _ => rfl
  show imagesOf image memory (a :: l) = imagesOf image memory' l
  rw [imagesOf, h]
  rfl

theorem derive_slice_succ (offset : Nat) (limit? : Option Nat) (a : α) :
    (slice (offset + 1) limit?).derive a = slice offset limit? := rfl

theorem slice_leads (a : α) {limit? : Option Nat} (h : limit? ≠ some 0) :
    (slice 0 limit?).Leads [a] [a] (slice 0 (limit?.map (· - 1))) := by
  cases limit? with
  | none => exact ⟨fun _ => rfl, fun _ => rfl⟩
  | some limit =>
    cases limit with
    | zero => exact absurd rfl h
    | succ limit =>
      refine ⟨fun l => rfl, fun l => ?_⟩
      simp [slice]

end Yield

/-! ## One pull -/

/-- The result of a pull is passed on as it is by an adapter: there is no item in it. -/
inductive Passes : Pull ε α → Pull ε β → Prop
  | done : Passes .done .done
  | error (e : ε) : Passes (.error e) (.error e)

/-- Where a cursor is after it has given an item: more may come and it is in use, or nothing will
come and it is closed. -/
def Onward (Stands : σ → List (Except ε α) → Yield α β → Prop) (Closed : σ → Prop) (s : σ)
    (left : List (Except ε α)) (y : Yield α β) : Prop :=
  Stands s left y ∧ y.IsOpen ∨ Closed s ∧ y.IsSpent

theorem Onward.comp {Stands : σ → List (Except ε α) → Yield α β → Prop} {Closed : σ → Prop}
    {Stands' : σ' → List (Except ε α) → Yield α γ → Prop} {Closed' : σ' → Prop} {s : σ} {s' : σ'}
    {left : List (Except ε α)} {y : Yield α β} {z : Yield β γ} (h : Onward Stands Closed s left y)
    (hz : z.IsOpen) (hstands : Stands s left y → Stands' s' left (y.comp z))
    (hclosed : Closed s → Closed' s') : Onward Stands' Closed' s' left (y.comp z) := by
  rcases h with ⟨h, hopen⟩ | ⟨h, hspent⟩
  · exact .inl ⟨hstands h, hopen.comp hz⟩
  · exact .inr ⟨hclosed h, hspent.comp hz⟩

/-- The course of a pull over a source with some elements left, of which `y` says what is made: its
result, the state after it, and the number of elements that it reads. An element is read only as
long as the result is open. -/
inductive Turn (Stands : σ → List (Except ε α) → Yield α β → Prop) (Closed : σ → Prop) :
    Yield α β → List (Except ε α) → Pull ε β → σ → Nat → Prop
  | give {y y' : Yield α β} {a : α} {b : β} {rest : List (Except ε α)} {s : σ} :
      y.IsOpen → y.Leads [a] [b] y' → Onward Stands Closed s rest y' →
        Turn Stands Closed y (.ok a :: rest) (.item b) s 1
  | skip {y : Yield α β} {a : α} {rest : List (Except ε α)} {result : Pull ε β} {s : σ} {n : Nat} :
      y.IsOpen → Turn Stands Closed (y.derive a) rest result s n →
        Turn Stands Closed y (.ok a :: rest) result s (n + 1)
  | full {y : Yield α β} {left : List (Except ε α)} {s : σ} :
      y.IsSpent → Closed s → Turn Stands Closed y left .done s 0
  | ended {y : Yield α β} {s : σ} : y.IsOpen → Closed s → Turn Stands Closed y [] .done s 0
  | failed {y : Yield α β} {e : ε} {rest : List (Except ε α)} {s : σ} :
      y.IsOpen → Closed s → Turn Stands Closed y (.error e :: rest) (.error e) s 1

namespace Turn

variable {Stands : σ → List (Except ε α) → Yield α β → Prop} {Closed : σ → Prop}
  {Stands' : σ' → List (Except ε α) → Yield α γ → Prop} {Closed' : σ' → Prop}
  {y : Yield α β} {z z' : Yield β γ} {left : List (Except ε α)} {s : σ} {s' : σ'} {n : Nat}

/-! ### Through an adapter -/

/-- An item of the cursor below becomes an item of the adapter. -/
theorem accept {b : β} {c : γ} (h : Turn Stands Closed y left (.item b) s n) (hz : z.IsOpen)
    (hleads : z.Leads [b] [c] z')
    (honward : ∀ rest y', Onward Stands Closed s rest y' →
      Onward Stands' Closed' s' rest (y'.comp z')) :
    Turn Stands' Closed' (y.comp z) left (.item c) s' n := by
  generalize hresult : Pull.item b = result at h
  induction h with
  | give hy hb hstands =>
    obtain rfl := Pull.item.inj hresult
    exact .give (hy.comp hz) (hb.comp hleads) (honward _ _ hstands)
  | skip hy _ ih => exact .skip (hy.comp hz) (ih honward hresult)
  | full | ended | failed => exact nomatch hresult

/-- After an item that the adapter does not let through, it pulls again. -/
theorem reject {b : β} {result : Pull ε γ} {P : Nat → Prop}
    (h : Turn Stands Closed y left (.item b) s n) (hz : z.IsOpen)
    (hnext : ∀ rest y', rest.length < left.length → Onward Stands Closed s rest y' →
      ∃ m, P m ∧ Turn Stands' Closed' (y'.comp (z.derive b)) rest result s' m) :
    ∃ m, P m ∧ Turn Stands' Closed' (y.comp z) left result s' (n + m) := by
  generalize hitem : Pull.item b = below at h
  induction h with
  | give hy hb hstands =>
    -- the element that gives the item below is one that the adapter skips
    obtain rfl := Pull.item.inj hitem
    obtain ⟨m, hm, hturn⟩ := hnext _ _ (Nat.lt_succ_self _) hstands
    rw [← hb.derive_comp z] at hturn
    exact ⟨m, hm, Nat.add_comm m 1 ▸ .skip (hy.comp hz) hturn⟩
  | @skip y a rest _ _ n hy _ ih =>
    obtain ⟨m, hm, hturn⟩ := ih (fun rest' y' hlength => hnext rest' y' (Nat.lt_succ_of_lt hlength))
      hitem
    have hskip := Turn.skip (hy.comp hz) hturn
    rw [Nat.add_right_comm] at hskip
    exact ⟨m, hm, hskip⟩
  | full | ended | failed => exact nomatch hitem

/-- At the end and at an error the adapter is closed together with the cursor below. -/
theorem pass {result : Pull ε β} {result' : Pull ε γ} (h : Turn Stands Closed y left result s n)
    (hpasses : Passes result result') (hz : z.IsOpen) (hclosed : Closed s → Closed' s') :
    Turn Stands' Closed' (y.comp z) left result' s' n := by
  induction h with
  | give => exact nomatch hpasses
  | skip hy _ ih => exact .skip (hy.comp hz) (ih hpasses hclosed)
  | full hy hc =>
    obtain _ | _ := hpasses
    exact .full (hy.comp hz) (hclosed hc)
  | ended hy hc =>
    obtain _ | _ := hpasses
    exact .ended (hy.comp hz) (hclosed hc)
  | failed hy hc =>
    obtain _ | _ := hpasses
    exact .failed (hy.comp hz) (hclosed hc)

/-! ### What it comes to -/

/-- Each element is read when those before it leave the result open. -/
theorem isOpen_of_lt {result : Pull ε β} (h : Turn Stands Closed y left result s n) {q : Nat}
    (hq : q < n) :
    ∃ read : List α, left.take q = read.map .ok ∧ ∃ y', y.Leads read [] y' ∧ y'.IsOpen := by
  induction h generalizing q with
  | give hy | failed hy =>
    obtain rfl : q = 0 := Nat.lt_one_iff.1 hq
    exact ⟨[], rfl, _, .refl _, hy⟩
  | full | ended => exact absurd hq (Nat.not_lt_zero q)
  | @skip y a rest _ _ n hy _ ih =>
    cases q with
    | zero => exact ⟨[], rfl, _, .refl _, hy⟩
    | succ q =>
      obtain ⟨read, hread, y', hleads, hopen⟩ := ih (Nat.lt_of_succ_lt_succ hq)
      refine ⟨a :: read, ?_, y', (Yield.Leads.derive y a).trans hleads, hopen⟩
      rw [List.take_succ_cons, hread]
      rfl

theorem exists_leads {b : β} (h : Turn Stands Closed y left (.item b) s n) :
    ∃ read rest y', left = read.map .ok ++ rest ∧ n = read.length ∧ y.Leads read [b] y' ∧
      Onward Stands Closed s rest y' := by
  generalize hresult : Pull.item b = result at h
  induction h with
  | @give y y' a b' rest s hy hb hstands =>
    obtain rfl := Pull.item.inj hresult
    exact ⟨[a], rest, y', rfl, rfl, hb, hstands⟩
  | @skip y a rest _ _ n hy _ ih =>
    obtain ⟨read, rest', y', rfl, rfl, hleads, honward⟩ := ih hresult
    exact ⟨a :: read, rest', y', rfl, rfl, (Yield.Leads.derive y a).trans hleads, honward⟩
  | full | ended | failed => exact nomatch hresult

theorem results_of_done (h : Turn Stands Closed y left .done s n) :
    y.results left = [] ∧ Closed s := by
  generalize hresult : Pull.done = result at h
  induction h with
  | skip _ _ ih => exact ⟨(Yield.results_ok ..).trans (ih hresult).1, (ih hresult).2⟩
  | full hy hc => exact ⟨hy.results _, hc⟩
  | ended hy hc => exact ⟨hy.results_nil, hc⟩
  | give | failed => exact nomatch hresult

theorem results_of_error {e : ε} (h : Turn Stands Closed y left (.error e) s n) :
    y.results left = [.error e] ∧ Closed s := by
  generalize hresult : Pull.error e = result at h
  induction h with
  | skip _ _ ih => exact ⟨(Yield.results_ok ..).trans (ih hresult).1, (ih hresult).2⟩
  | failed hy hc =>
    obtain rfl := Pull.error.inj hresult
    exact ⟨hy.results_error _ _, hc⟩
  | give | full | ended => exact nomatch hresult

end Turn

/-! ## Contracts -/

/-- What an adapter can rely on from the cursor below, whose source has elements of type `α`: it is
in use or closed, and once closed it stays so. -/
structure Contract (α : Type) (c : Cursor ε β) where
  /-- The cursor is in use: `left` is what its source has left, and `y` says what is made of it. -/
  Stands : c.State → List (Except ε α) → Yield α β → Prop
  Closed : c.State → Prop
  left_eq : ∀ {s left y}, Stands s left y → (c.source s).left = left.length
  turn : ∀ {s left y}, Stands s left y → ∃ n,
    (c.source (c.step s).2).pulled = (c.source s).pulled + n ∧
      Turn Stands Closed y left (c.step s).1 (c.step s).2 n
  shut : ∀ {s left y}, Stands s left y →
    Closed (c.shut s) ∧ (c.source (c.shut s)).pulled = (c.source s).pulled
  released : ∀ {s}, Closed s → (c.source s).isReleased = true
  rests : ∀ {s}, Closed s → (c.step s).1 = .done ∧ Closed (c.step s).2 ∧
    (c.source (c.step s).2).pulled = (c.source s).pulled
  rests_shut : ∀ {s}, Closed s →
    Closed (c.shut s) ∧ (c.source (c.shut s)).pulled = (c.source s).pulled

namespace Contract

variable {c : Cursor ε β} (K : Contract α c) {s : c.State} {left : List (Except ε α)}
  {y : Yield α β}

/-- In use, or closed because nothing will come. -/
def Standing (s : c.State) (left : List (Except ε α)) (y : Yield α β) : Prop :=
  K.Stands s left y ∨ K.Closed s ∧ y.IsSpent

theorem standing_of_onward (h : Onward K.Stands K.Closed s left y) : K.Standing s left y :=
  h.imp_left And.left

theorem turn_of_standing (h : K.Standing s left y) : ∃ n,
    (c.source (c.step s).2).pulled = (c.source s).pulled + n ∧
      Turn K.Stands K.Closed y left (c.step s).1 (c.step s).2 n := by
  rcases h with h | ⟨hclosed, hspent⟩
  · exact K.turn h
  · obtain ⟨hdone, hstill, hpulled⟩ := K.rests hclosed
    exact ⟨0, hpulled, hdone ▸ .full hspent hstill⟩

theorem shut_of_standing (h : K.Standing s left y) :
    K.Closed (c.shut s) ∧ (c.source (c.shut s)).pulled = (c.source s).pulled := by
  rcases h with h | ⟨hclosed, -⟩
  · exact K.shut h
  · exact K.rests_shut hclosed

/-! ### The source -/

/-- The cursor over a source gives all items up to the first error. -/
def ofList (xs : List (Except ε α)) : Contract α (Cursor.ofList xs) where
  Stands s left y := s.rest? = some left ∧ y = .all
  Closed s := s.rest? = none
  left_eq := by
    rintro ⟨rest?, pulled⟩ left _ ⟨rfl, -⟩
    rfl
  turn := by
    rintro ⟨rest?, pulled⟩ left _ ⟨rfl, rfl⟩
    match left with
    | [] => exact ⟨0, rfl, .ended Yield.isOpen_all rfl⟩
    | .ok a :: rest =>
      exact ⟨1, rfl, .give Yield.isOpen_all (Yield.all_leads a)
        (.inl ⟨⟨rfl, rfl⟩, Yield.isOpen_all⟩)⟩
    | .error e :: rest => exact ⟨1, rfl, .failed Yield.isOpen_all rfl⟩
  shut _ := ⟨rfl, rfl⟩
  released := by
    rintro ⟨rest?, pulled⟩ rfl
    rfl
  rests := by
    rintro ⟨rest?, pulled⟩ rfl
    exact ⟨rfl, rfl, rfl⟩
  rests_shut _ := ⟨rfl, rfl⟩

/-! ### Images -/

theorem findImage_of_done {step : σ → Pull ε β × σ} {s : σ} (h : (step s).1 = .done)
    {image : μ → β → Option γ × μ} {fuel : Nat} {memory : μ} :
    findImage step image (fuel + 1) (s, memory) = (.done, ((step s).2, memory)) := by
  rw [findImage]
  generalize step s = pull at h ⊢
  obtain ⟨result, s⟩ := pull
  obtain rfl : result = .done := h
  rfl

/-- The cursor below is in use, and what is made of the items is its images. -/
def OnImages (image : μ → β → Option γ × μ) (s : c.State × μ) (left : List (Except ε α))
    (z : Yield α γ) : Prop :=
  ∃ y, K.Stands s.1 left y ∧ z = y.comp (.filterMap s.2 image)

/-- The search for an image ends before its fuel does: each item is one element less of the source.
-/
theorem findImage_turn (image : μ → β → Option γ × μ) {fuel : Nat} (hfuel : left.length < fuel)
    (h : K.Standing s left y) (memory : μ) : ∃ n,
      (c.source (findImage c.step image fuel (s, memory)).2.1).pulled =
          (c.source s).pulled + n ∧
        Turn (K.OnImages image) (fun s => K.Closed s.1) (y.comp (.filterMap memory image)) left
          (findImage c.step image fuel (s, memory)).1
          (findImage c.step image fuel (s, memory)).2 n := by
  -- on the fuel: after an item without an image the source has fewer elements left
  induction fuel generalizing s left y memory with
  | zero => exact absurd hfuel (Nat.not_lt_zero _)
  | succ fuel ih =>
    obtain ⟨n, hpulled, hturn⟩ := K.turn_of_standing h
    rw [findImage]
    generalize c.step s = pull at hpulled hturn ⊢
    obtain ⟨result, s₁⟩ := pull
    have hopen := Yield.isOpen_filterMap memory image
    cases result with
    | done => exact ⟨n, hpulled, hturn.pass .done hopen id⟩
    | error e => exact ⟨n, hpulled, hturn.pass (.error e) hopen id⟩
    | item b =>
      rcases himage : image memory b with ⟨_ | c', memory'⟩
      · dsimp only
        rw [himage]
        dsimp only
        obtain ⟨m, hm, hrest⟩ := hturn.reject hopen fun rest y' hlength honward =>
          Yield.derive_filterMap_of_none himage ▸
            ih (Nat.lt_of_lt_of_le hlength (Nat.le_of_lt_succ hfuel)) (K.standing_of_onward honward)
              memory'
        exact ⟨n + m, by rw [hm, hpulled, Nat.add_assoc], hrest⟩
      · dsimp only
        rw [himage]
        dsimp only
        exact ⟨n, hpulled, hturn.accept hopen (Yield.filterMap_leads_of_some himage)
          fun rest y' honward => honward.comp (Yield.isOpen_filterMap _ _)
            (fun hstands => ⟨y', hstands, rfl⟩) id⟩

/-- The images of the items that have one. -/
def filterMap (memory : μ) (image : μ → β → Option γ × μ) :
    Contract α (c.filterMapAccum memory image) where
  Stands := K.OnImages image
  Closed s := K.Closed s.1
  left_eq := fun ⟨_, hstands, _⟩ => K.left_eq hstands
  turn := by
    rintro ⟨s, memory⟩ left _ ⟨y, hstands, rfl⟩
    exact K.findImage_turn image (K.left_eq hstands ▸ Nat.lt_succ_self _) (.inl hstands) memory
  shut := fun ⟨_, hstands, _⟩ => K.shut hstands
  released := K.released
  rests := by
    rintro ⟨s, memory⟩ hclosed
    obtain ⟨hdone, hstill, hpulled⟩ := K.rests hclosed
    show (findImage c.step image (_ + 1) (s, memory)).1 = .done ∧
      K.Closed (findImage c.step image (_ + 1) (s, memory)).2.1 ∧
        (c.source (findImage c.step image (_ + 1) (s, memory)).2.1).pulled = (c.source s).pulled
    rw [findImage_of_done hdone]
    exact ⟨rfl, hstill, hpulled⟩
  rests_shut := K.rests_shut

/-! ### Slices -/

theorem next_skipping {step : σ → Pull ε β × σ} {shut : σ → σ} {limit? : Option Nat}
    (h : limit? ≠ some 0) (toSkip : Nat) (s : σ) :
    SliceState.next step shut ⟨s, toSkip + 1, limit?⟩ =
      match step s with
      | (.item _, s) => SliceState.next step shut ⟨s, toSkip, limit?⟩
      | (other, s) => (other, ⟨s, toSkip + 1, limit?⟩) := by
  simp only [SliceState.next, if_neg h, skipThenPull]
  rcases step s with ⟨_ | _ | _, s⟩ <;> rfl

theorem next_allowing {step : σ → Pull ε β × σ} {shut : σ → σ} {limit? : Option Nat}
    (h : limit? ≠ some 0) (s : σ) :
    SliceState.next step shut ⟨s, 0, limit?⟩ =
      match step s with
      | (.item b, s) => (.item b, ⟨if limit?.map (· - 1) = some 0 then shut s else s, 0,
          limit?.map (· - 1)⟩)
      | (other, s) => (other, ⟨s, 0, limit?⟩) := by
  simp only [SliceState.next, if_neg h, skipThenPull]
  rcases step s with ⟨_ | _ | _, s⟩ <;> rfl

/-- The cursor below is in use, and what is made of the items is a slice of them. -/
def OnSlice (s : SliceState c.State) (left : List (Except ε α)) (z : Yield α β) : Prop :=
  ∃ y, K.Stands s.inner left y ∧ z = y.comp (.slice s.toSkip s.remaining?)

/-- A pull of a slice with some items still to leave out is a turn over what the cursor below has
left. -/
def TurnsSlice (s : c.State) (left : List (Except ε α)) (y : Yield α β) (toSkip : Nat)
    (limit? : Option Nat) : Prop :=
  ∃ n, (c.source (SliceState.next c.step c.shut ⟨s, toSkip, limit?⟩).2.inner).pulled =
      (c.source s).pulled + n ∧
    Turn K.OnSlice (fun s => K.Closed s.inner) (y.comp (.slice toSkip limit?)) left
      (SliceState.next c.step c.shut ⟨s, toSkip, limit?⟩).1
      (SliceState.next c.step c.shut ⟨s, toSkip, limit?⟩).2 n

/-- The next item is let through, and the last one allowed closes the cursor below. -/
theorem turns_allowing {limit? : Option Nat} (hlimit : limit? ≠ some 0)
    (h : K.Standing s left y) : K.TurnsSlice s left y 0 limit? := by
  obtain ⟨n, hpulled, hturn⟩ := K.turn_of_standing h
  unfold TurnsSlice
  rw [next_allowing hlimit]
  generalize c.step s = pull at hpulled hturn ⊢
  obtain ⟨result, s₁⟩ := pull
  have hopen : (Yield.slice 0 limit? : Yield β β).IsOpen := Yield.isOpen_slice 0 hlimit
  cases result with
  | done => exact ⟨n, hpulled, hturn.pass .done hopen id⟩
  | error e => exact ⟨n, hpulled, hturn.pass (.error e) hopen id⟩
  | item b =>
    dsimp only
    have hleads := Yield.slice_leads b hlimit
    by_cases hlast : limit?.map (· - 1) = some 0
    · have hshut {rest y'} (honward : Onward K.Stands K.Closed s₁ rest y') :=
        K.shut_of_standing (K.standing_of_onward honward)
      obtain ⟨-, rest, y', -, -, -, honward⟩ := hturn.exists_leads
      rw [hlast] at hleads
      rw [if_pos hlast, hlast]
      exact ⟨n, (hshut honward).2.trans hpulled, hturn.accept hopen hleads
        fun rest y' honward => .inr ⟨(hshut honward).1, Yield.isSpent_slice y' 0⟩⟩
    · rw [if_neg hlast]
      exact ⟨n, hpulled, hturn.accept hopen hleads fun rest y' honward =>
        honward.comp (Yield.isOpen_slice 0 hlast) (fun hstands => ⟨y', hstands, rfl⟩) id⟩

/-- The next item is left out, and the slice goes on with what comes after it. -/
theorem turns_skipping {limit? : Option Nat} (hlimit : limit? ≠ some 0) {toSkip : Nat}
    (h : K.Standing s left y)
    (hrest : ∀ s left y, K.Standing s left y → K.TurnsSlice s left y toSkip limit?) :
    K.TurnsSlice s left y (toSkip + 1) limit? := by
  obtain ⟨n, hpulled, hturn⟩ := K.turn_of_standing h
  unfold TurnsSlice
  rw [next_skipping hlimit]
  generalize c.step s = pull at hpulled hturn ⊢
  obtain ⟨result, s₁⟩ := pull
  have hopen : (Yield.slice (toSkip + 1) limit? : Yield β β).IsOpen := Yield.isOpen_slice _ hlimit
  cases result with
  | done => exact ⟨n, hpulled, hturn.pass .done hopen id⟩
  | error e => exact ⟨n, hpulled, hturn.pass (.error e) hopen id⟩
  | item b =>
    have hnext {rest y'} (honward : Onward K.Stands K.Closed s₁ rest y') :=
      hrest s₁ rest y' (K.standing_of_onward honward)
    unfold TurnsSlice at hnext
    rw [← Yield.derive_slice_succ toSkip limit? b] at hnext
    obtain ⟨m, hm, hturn⟩ := hturn.reject hopen fun _ _ _ => hnext
    exact ⟨n + m, by rw [hm, hpulled, Nat.add_assoc], hturn⟩

theorem turns_slice {limit? : Option Nat} (hlimit : limit? ≠ some 0) {toSkip : Nat}
    (h : K.Standing s left y) : K.TurnsSlice s left y toSkip limit? := by
  induction toSkip generalizing s left y with
  | zero => exact K.turns_allowing hlimit h
  | succ toSkip ih => exact K.turns_skipping hlimit h fun _ _ _ => ih

theorem next_of_done {step : σ → Pull ε β × σ} {shut : σ → σ} {limit? : Option Nat}
    (hlimit : limit? ≠ some 0) {s : σ} (h : (step s).1 = .done) (toSkip : Nat) :
    SliceState.next step shut ⟨s, toSkip, limit?⟩ = (.done, ⟨(step s).2, toSkip, limit?⟩) := by
  cases toSkip with
  | zero =>
    rw [next_allowing hlimit]
    generalize step s = pull at h ⊢
    obtain ⟨result, s⟩ := pull
    obtain rfl : result = .done := h
    rfl
  | succ toSkip =>
    rw [next_skipping hlimit]
    generalize step s = pull at h ⊢
    obtain ⟨result, s⟩ := pull
    obtain rfl : result = .done := h
    rfl

/-- The items after the first ones, up to a limit. -/
def slice (offset : Nat) (limit? : Option Nat) : Contract α (c.slice offset limit?) where
  Stands := K.OnSlice
  Closed s := K.Closed s.inner
  left_eq := fun ⟨_, hstands, _⟩ => K.left_eq hstands
  turn := by
    rintro ⟨s, toSkip, limit?⟩ left _ ⟨y, hstands, rfl⟩
    by_cases hlimit : limit? = some 0
    · subst hlimit
      obtain ⟨hclosed, hpulled⟩ := K.shut hstands
      exact ⟨0, hpulled, .full (Yield.isSpent_slice y toSkip) hclosed⟩
    · exact K.turns_slice hlimit (.inl hstands)
  shut := fun ⟨_, hstands, _⟩ => K.shut hstands
  released := K.released
  rests := by
    rintro ⟨s, toSkip, limit?⟩ hclosed
    by_cases hlimit : limit? = some 0
    · subst hlimit
      exact ⟨rfl, K.rests_shut hclosed⟩
    · obtain ⟨hdone, hstill, hpulled⟩ := K.rests hclosed
      show (SliceState.next c.step c.shut ⟨s, toSkip, limit?⟩).1 = .done ∧
        K.Closed (SliceState.next c.step c.shut ⟨s, toSkip, limit?⟩).2.inner ∧
          (c.source (SliceState.next c.step c.shut ⟨s, toSkip, limit?⟩).2.inner).pulled =
            (c.source s).pulled
      rw [next_of_done hlimit hdone]
      exact ⟨rfl, hstill, hpulled⟩
  rests_shut := K.rests_shut

/-! ### A second cursor -/

theorem step_reopen (s : c.State) : c.reopen.step (s, true) =
    match c.step s with
    | (.item b, s) => (.item b, s, true)
    | (other, s) => (other, c.shut s, false) := rfl

theorem reopen_turn (hstands : K.Stands s left y) : ∃ n,
    (c.source (c.reopen.step (s, true)).2.1).pulled = (c.source s).pulled + n ∧
      Turn (fun (s : c.State × Bool) left y => s.2 = true ∧ K.Stands s.1 left y)
        (fun s => K.Closed s.1) y left (c.reopen.step (s, true)).1
        (c.reopen.step (s, true)).2 n := by
  obtain ⟨n, hpulled, hturn⟩ := K.turn hstands
  rw [step_reopen]
  generalize c.step s = pull at hpulled hturn ⊢
  obtain ⟨result, s₁⟩ := pull
  rw [← y.comp_all]
  cases result with
  | done =>
    -- the cursor below has closed itself, and is closed a second time
    obtain ⟨-, hclosed⟩ := hturn.results_of_done
    obtain ⟨hstill, hshut⟩ := K.rests_shut hclosed
    exact ⟨n, hshut.trans hpulled, hturn.pass .done Yield.isOpen_all fun _ => hstill⟩
  | error e =>
    obtain ⟨-, hclosed⟩ := hturn.results_of_error
    obtain ⟨hstill, hshut⟩ := K.rests_shut hclosed
    exact ⟨n, hshut.trans hpulled, hturn.pass (.error e) Yield.isOpen_all fun _ => hstill⟩
  | item b =>
    refine ⟨n, hpulled, hturn.accept Yield.isOpen_all (Yield.all_leads b) ?_⟩
    intro rest y' honward
    exact honward.comp Yield.isOpen_all (fun hstands => ⟨rfl, y'.comp_all.symm ▸ hstands⟩) id

/-- The same items. The cursor below is closed once more after its end and after an error. -/
def reopen : Contract α c.reopen where
  Stands s left y := s.2 = true ∧ K.Stands s.1 left y
  Closed s := K.Closed s.1
  left_eq := fun ⟨_, hstands⟩ => K.left_eq hstands
  turn := by
    rintro ⟨s, _⟩ left y ⟨rfl, hstands⟩
    exact K.reopen_turn hstands
  shut := by
    rintro ⟨s, _⟩ left y ⟨rfl, hstands⟩
    exact K.shut hstands
  released := K.released
  rests := by
    rintro ⟨s, isOpen⟩ hclosed
    cases isOpen with
    | false => exact ⟨rfl, hclosed, rfl⟩
    | true =>
      obtain ⟨hdone, hstill, hpulled⟩ := K.rests hclosed
      obtain ⟨hclosed', hshut⟩ := K.rests_shut hstill
      rw [step_reopen]
      generalize c.step s = pull at hdone hpulled hshut hclosed' ⊢
      obtain ⟨result, s₁⟩ := pull
      obtain rfl : result = .done := hdone
      exact ⟨rfl, hclosed', hshut.trans hpulled⟩
  rests_shut := by
    rintro ⟨s, isOpen⟩ hclosed
    cases isOpen with
    | false => exact ⟨hclosed, rfl⟩
    | true => exact K.rests_shut hclosed

end Contract

end QuadStore.Cursor
