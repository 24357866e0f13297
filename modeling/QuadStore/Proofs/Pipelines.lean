import Mathlib.Data.List.Induction
import QuadStore.Proofs.Adapters

/-!
# Pipelines of cursors

However adapters are put on top of each other over one source, the cursor that comes out keeps the
protocol of cursors (`Cursor.Pipeline.keeps_protocol`): it answers what the functions on lists give,
reads its source only as far as it has to, and is closed at its end, at an error and at its limit.
-/

namespace QuadStore.Cursor

variable {ε α β γ μ : Type}

/-! ## Calls -/

/-- What can be called on a cursor. -/
inductive Call where
  | next
  | close
deriving DecidableEq, Repr

/-- The cursor after a call. -/
def apply (c : Cursor ε β) : Call → Cursor ε β
  | .next => c.next.2
  | .close => c.close

/-- The cursor after some calls. -/
def after (c : Cursor ε β) (calls : List Call) : Cursor ε β := calls.foldl apply c

/-- How many elements of the source have been read. -/
def pulled (c : Cursor ε β) : Nat := (c.source c.state).pulled

def isReleased (c : Cursor ε β) : Bool := (c.source c.state).isReleased

/-- A call that ends the cursor: it is closed, or there is no next item. -/
def Ends (c : Cursor ε β) : Call → Prop
  | .next => ∀ b, c.next.1 ≠ .item b
  | .close => True

/-- The state after a call. -/
def call (c : Cursor ε β) (s : c.State) : Call → c.State
  | .next => (c.step s).2
  | .close => c.shut s

/-- Calls change nothing of a cursor but its state. -/
theorem after_eq (c : Cursor ε β) (calls : List Call) :
    c.after calls = { c with state := calls.foldl c.call c.state } := by
  suffices ∀ s : c.State,
      ({ c with state := s } : Cursor ε β).after calls =
        { c with state := calls.foldl c.call s } from this c.state
  induction calls with
  | nil => exact fun _ => rfl
  | cons call calls ih =>
    intro s
    cases call with
    | next => exact ih (c.step s).2
    | close => exact ih (c.shut s)

namespace Contract

variable {c : Cursor ε β} (K : Contract α c) {xs : List (Except ε α)} {y₀ : Yield α β}

/-- The cursor has given the items `given` for the elements `read` of its source. -/
structure Midway (xs : List (Except ε α)) (y₀ : Yield α β) (s : c.State) (given : List β)
    (read : List α) (left : List (Except ε α)) (y : Yield α β) : Prop where
  split : xs = read.map .ok ++ left
  pulled : (c.source s).pulled = read.length
  leads : y₀.Leads read given y
  place : Onward K.Stands K.Closed s left y ∨ K.Stands s left y ∧ read = []

variable {s : c.State} {given : List β} {read : List α} {left : List (Except ε α)} {y : Yield α β}
  {K}

theorem Midway.standing (h : K.Midway xs y₀ s given read left y) : K.Standing s left y :=
  h.place.elim K.standing_of_onward fun hstands => .inl hstands.1

theorem Midway.results (h : K.Midway xs y₀ s given read left y) :
    y₀.results xs = given.map .item ++ y.results left := by
  rw [h.split, h.leads.results]

theorem Midway.take (h : K.Midway xs y₀ s given read left y) :
    xs.take (c.source s).pulled = read.map .ok := by
  rw [h.pulled, h.split, ← List.length_map (Except.ok : α → Except ε α), List.take_left]

/-- A pull is answered with the next result. -/
theorem Midway.answer (h : K.Midway xs y₀ s given read left y) :
    (c.step s).1 = (y₀.results xs)[given.length]?.getD .done := by
  have hnext : (y₀.results xs)[given.length]? = (y.results left)[0]? := by
    rw [h.results, List.getElem?_append_right (Nat.le_of_eq (List.length_map _)),
      List.length_map, Nat.sub_self]
  rw [hnext]
  obtain ⟨n, -, hturn⟩ := K.turn_of_standing h.standing
  generalize c.step s = pull at hturn ⊢
  obtain ⟨result, s'⟩ := pull
  cases result with
  | item b =>
    obtain ⟨read, rest, y', rfl, -, hleads, -⟩ := hturn.exists_leads
    rw [hleads.results]
    rfl
  | done => rw [hturn.results_of_done.1]; rfl
  | error e => rw [hturn.results_of_error.1]; rfl

/-- A pull gives one item more, or it closes the cursor, and all results have been given then. -/
theorem Midway.next (h : K.Midway xs y₀ s given read left y) :
    (∃ b read' left' y', (c.step s).1 = .item b ∧
        K.Midway xs y₀ (c.step s).2 (given ++ [b]) read' left' y') ∨
      (∀ b, (c.step s).1 ≠ .item b) ∧ K.Closed (c.step s).2 ∧
        (y₀.results xs).length ≤ given.length + 1 := by
  have hresults := h.results
  obtain ⟨n, hpulled, hturn⟩ := K.turn_of_standing h.standing
  generalize c.step s = pull at hpulled hturn ⊢
  obtain ⟨result, s'⟩ := pull
  cases result with
  | item b =>
    obtain ⟨more, rest, y', rfl, rfl, hleads, honward⟩ := hturn.exists_leads
    refine .inl ⟨b, read ++ more, rest, y', rfl, ?_, ?_, h.leads.trans hleads, .inl honward⟩
    · rw [h.split, List.map_append, List.append_assoc]
    · rw [hpulled, h.pulled, List.length_append]
  | done =>
    obtain ⟨hnone, hclosed⟩ := hturn.results_of_done
    refine .inr ⟨nofun, hclosed, ?_⟩
    rw [hresults, hnone, List.append_nil, List.length_map]
    exact Nat.le_succ _
  | error e =>
    obtain ⟨hlast, hclosed⟩ := hturn.results_of_error
    have hlength : (given.map Pull.item ++ [Pull.error e]).length = given.length + 1 := by
      rw [List.length_append, List.length_map, List.length_singleton]
    exact .inr ⟨nofun, hclosed, hresults ▸ hlast ▸ Nat.le_of_eq hlength⟩

/-- Without a close, the cursor gives an item for each call, or it is closed and all results have
been given. -/
theorem run (hstands : K.Stands c.state xs y₀) (hfresh : c.pulled = 0) (calls : List Call)
    (hopen : .close ∉ calls) :
    (∃ given read left y, given.length = calls.length ∧
        K.Midway xs y₀ (calls.foldl c.call c.state) given read left y) ∨
      K.Closed (calls.foldl c.call c.state) ∧ (y₀.results xs).length ≤ calls.length := by
  -- from the last call: what a pull does depends on where the calls before it have led
  induction calls using List.reverseRecOn with
  | nil => exact .inl ⟨[], [], xs, y₀, rfl, rfl, hfresh, .refl y₀, .inr ⟨hstands, rfl⟩⟩
  | append_singleton calls call ih =>
    obtain ⟨hbefore, hnext⟩ : .close ∉ calls ∧ call = .next := by
      cases call <;> simp_all
    subst hnext
    rw [List.foldl_append, List.length_append]
    show _ ∨ K.Closed (c.step (calls.foldl c.call c.state)).2 ∧ _
    rcases ih hbefore with ⟨given, read, left, y, hlength, hmidway⟩ | ⟨hclosed, hlength⟩
    · rcases hmidway.next with ⟨b, read', left', y', -, hnext⟩ | ⟨-, hclosed, hresults⟩
      · exact .inl ⟨given ++ [b], read', left', y', by rw [List.length_append, hlength]; rfl, hnext⟩
      · exact .inr ⟨hclosed, hlength ▸ hresults⟩
    · exact .inr ⟨(K.rests hclosed).2.1, Nat.le_succ_of_le hlength⟩

theorem closed_call (hclosed : K.Closed s) (call : Call) : K.Closed (c.call s call) := by
  cases call with
  | next => exact (K.rests hclosed).2.1
  | close => exact (K.rests_shut hclosed).1

theorem closed_run (hclosed : K.Closed s) (calls : List Call) :
    K.Closed (calls.foldl c.call s) := by
  induction calls generalizing s with
  | nil => exact hclosed
  | cons call calls ih => exact ih (closed_call hclosed call)

/-- A call closes the cursor, unless it is a pull that gives an item. -/
theorem call_of_standing (h : K.Standing s left y) (call : Call) :
    K.Closed (c.call s call) ∨
      (call = .next ∧ (∃ b, (c.step s).1 = .item b) ∧
        ∃ left' y', K.Standing (c.call s call) left' y') := by
  cases call with
  | close => exact .inl (K.shut_of_standing h).1
  | next =>
    show K.Closed (c.step s).2 ∨ _ ∧ _ ∧ ∃ left' y', K.Standing (c.step s).2 left' y'
    obtain ⟨n, -, hturn⟩ := K.turn_of_standing h
    generalize c.step s = pull at hturn ⊢
    obtain ⟨result, s'⟩ := pull
    cases result with
    | item b =>
      obtain ⟨-, rest, y', -, -, -, honward⟩ := hturn.exists_leads
      exact .inr ⟨rfl, ⟨b, rfl⟩, rest, y', K.standing_of_onward honward⟩
    | done => exact .inl hturn.results_of_done.2
    | error e => exact .inl hturn.results_of_error.2

theorem standing_or_closed (hstands : K.Stands c.state xs y₀) (calls : List Call) :
    (∃ left y, K.Standing (calls.foldl c.call c.state) left y) ∨
      K.Closed (calls.foldl c.call c.state) := by
  induction calls using List.reverseRecOn with
  | nil => exact .inl ⟨xs, y₀, .inl hstands⟩
  | append_singleton calls call ih =>
    rw [List.foldl_append]
    rcases ih with ⟨left, y, hstanding⟩ | hclosed
    · rcases call_of_standing hstanding call with hclosed | ⟨-, -, hstanding'⟩
      · exact .inr hclosed
      · exact .inl hstanding'
    · exact .inr (closed_call hclosed call)

/-- A call that ends the cursor closes it for ever. -/
theorem closed_of_ends (hstands : K.Stands c.state xs y₀) {before : List Call} {call : Call}
    (hends : (c.after before).Ends call) (later : List Call) :
    K.Closed ((before ++ call :: later).foldl c.call c.state) := by
  rw [List.foldl_append]
  refine closed_run (K := K) ?_ later
  rw [after_eq] at hends
  rcases standing_or_closed hstands before with ⟨left, y, hstanding⟩ | hclosed
  · rcases call_of_standing hstanding call with hclosed | ⟨rfl, ⟨b, hitem⟩, -⟩
    · exact hclosed
    · exact absurd hitem (hends b)
  · exact closed_call hclosed call

end Contract

/-! ## Compositions of adapters -/

/-- A composition of adapters over a source with elements of type `α`. -/
inductive Pipeline (α : Type) : Type → Type 1 where
  | source : Pipeline α α
  | filterMap {μ β γ : Type} (memory : μ) (image : μ → β → Option γ × μ) (inner : Pipeline α β) :
      Pipeline α γ
  | slice {β : Type} (offset : Nat) (limit? : Option Nat) (inner : Pipeline α β) : Pipeline α β
  | reopen {β : Type} (inner : Pipeline α β) : Pipeline α β

namespace Pipeline

/-- The cursor over a source. -/
def cursor (xs : List (Except ε α)) : {β : Type} → Pipeline α β → Cursor ε β
  | _, source => .ofList xs
  | _, filterMap memory image inner => (inner.cursor xs).filterMapAccum memory image
  | _, slice offset limit? inner => (inner.cursor xs).slice offset limit?
  | _, reopen inner => (inner.cursor xs).reopen

/-- The functions on lists that correspond to the adapters. -/
def yield : {β : Type} → Pipeline α β → Yield α β
  | _, source => .all
  | _, filterMap memory image inner => inner.yield.comp (.filterMap memory image)
  | _, slice offset limit? inner => inner.yield.comp (.slice offset limit?)
  | _, reopen inner => inner.yield

/-- The items that satisfy a condition, which may depend on what is remembered of those before. -/
def filter (memory : μ) (keep : μ → β → Bool × μ) (inner : Pipeline α β) : Pipeline α β :=
  inner.filterMap memory fun memory b =>
    (if (keep memory b).1 then some b else none, (keep memory b).2)

theorem cursor_filter (keep : β → Bool) (inner : Pipeline α β) (xs : List (Except ε α)) :
    (inner.filter () fun _ b => (keep b, ())).cursor xs = (inner.cursor xs).filter keep := rfl

/-- If nothing is remembered, then a filter is the one of lists. -/
theorem items_filter (keep : β → Bool) (inner : Pipeline α β) (l : List α) :
    (inner.filter () fun _ b => (keep b, ())).yield.items l = (inner.yield.items l).filter keep :=
  (imagesOf_eq_filterMap _ _).trans (congrFun List.filterMap_eq_filter _)

/-- The contract of a composition, adapter by adapter. -/
def contract (xs : List (Except ε α)) : {β : Type} → (p : Pipeline α β) → Contract α (p.cursor xs)
  | _, source => .ofList xs
  | _, filterMap memory image inner => (inner.contract xs).filterMap memory image
  | _, slice offset limit? inner => (inner.contract xs).slice offset limit?
  | _, reopen inner => (inner.contract xs).reopen

theorem stands (p : Pipeline α β) (xs : List (Except ε α)) :
    (p.contract xs).Stands (p.cursor xs).state xs p.yield := by
  induction p with
  | source => exact ⟨rfl, rfl⟩
  | filterMap memory image inner ih => exact ⟨_, ih, rfl⟩
  | slice offset limit? inner ih => exact ⟨_, ih, rfl⟩
  | reopen inner ih => exact ⟨rfl, ih⟩

theorem pulled_cursor (p : Pipeline α β) (xs : List (Except ε α)) : (p.cursor xs).pulled = 0 := by
  induction p with
  | source => rfl
  | filterMap _ _ _ ih | slice _ _ _ ih | reopen _ ih => exact ih

/-- No items come of none. -/
theorem items_nil (p : Pipeline α β) : p.yield.items [] = [] := by
  induction p with
  | source => rfl
  | filterMap memory image inner ih =>
    show imagesOf image memory (inner.yield.items []) = []
    rw [ih, imagesOf]
  | slice offset limit? inner ih =>
    show limit?.elim ((inner.yield.items []).drop offset) _ = []
    rw [ih, List.drop_nil]
    cases limit? with
    | none => rfl
    | some limit => exact List.take_nil
  | reopen inner ih => exact ih

/-- The composition is a part of another one, or the whole of it. -/
inductive Within (part : Pipeline α γ) : {β : Type} → Pipeline α β → Prop
  | refl : Within part part
  | filterMap {μ β β' : Type} {memory : μ} {image : μ → β → Option β' × μ} {inner : Pipeline α β} :
      Within part inner → Within part (inner.filterMap memory image)
  | slice {β : Type} {offset : Nat} {limit? : Option Nat} {inner : Pipeline α β} :
      Within part inner → Within part (inner.slice offset limit?)
  | reopen {β : Type} {inner : Pipeline α β} : Within part inner → Within part inner.reopen

/-- If a limit is reached within a composition, then no more items are of use to all of it. -/
theorem Within.isFull {part : Pipeline α γ} {p : Pipeline α β} (h : part.Within p) {read : List α}
    (hfull : part.yield.isFull read = true) : p.yield.isFull read = true := by
  induction h with
  | refl => exact hfull
  | filterMap _ ih | slice _ ih =>
    rw [Pipeline.yield, Yield.isFull_comp, ih, Bool.true_or]
  | reopen _ ih => exact ih

/-- The elements read leave the answer to the next call open: no item follows if they are all, and
an error if there is one after them. -/
def LeavesOpen (p : Pipeline α β) (read : List α) (calls : List Call) : Prop :=
  ∀ (ε : Type) (e : ε) (rest : List (Except ε α)),
    ((p.cursor (read.map (Except.ok : α → Except ε α))).after calls).next.1 = .done ∧
      ((p.cursor (read.map .ok ++ .error e :: rest)).after calls).next.1 = .error e

/-- What users of a cursor over `xs` can rely on. -/
structure Protocol (p : Pipeline α β) (xs : List (Except ε α)) : Prop where
  /-- Up to the first close, the answers are what the functions on lists make of the items up to the
  first error, and then this error if no limit is reached before, and then that nothing follows. -/
  answers : ∀ calls, .close ∉ calls → ((p.cursor xs).after calls).next.1 =
    (p.yield.results xs)[calls.length]?.getD .done
  /-- An element is read only if those before it leave the answer open. -/
  reads : ∀ calls, .close ∉ calls → ∀ q, ((p.cursor xs).after calls).pulled ≤ q →
    q < ((p.cursor xs).after calls).next.2.pulled →
      ∃ read, xs.take q = read.map .ok ∧ p.LeavesOpen read calls
  /-- After a close, an error or the end, the source has been released, and whatever is called, no
  item follows and nothing is read. -/
  ends : ∀ before call, ((p.cursor xs).after before).Ends call → ∀ later,
    ((p.cursor xs).after (before ++ call :: later)).isReleased = true ∧
      ((p.cursor xs).after (before ++ call :: later)).next.1 = .done ∧
      ((p.cursor xs).after (before ++ call :: later)).next.2.pulled =
        ((p.cursor xs).after (before ++ call :: later)).pulled
  /-- After as many calls as a limit allows items, the source has been released: with the last one
  of these items at the latest. -/
  releases : ∀ offset limit inner, p = .slice offset (some limit) inner → 0 < limit → ∀ calls,
    .close ∉ calls → calls.length = limit → ((p.cursor xs).after calls).isReleased = true
  /-- So it has been if the limit is one within the composition, and what has been read gives as
  many items there. -/
  releasesWithin : ∀ {γ : Type} (offset limit : Nat) (inner : Pipeline α γ),
    (inner.slice offset (some limit)).Within p → 0 < limit → ∀ calls read,
      xs.take ((p.cursor xs).after calls).pulled = read.map .ok →
      ((inner.slice offset (some limit)).yield.items read).length = limit →
        ((p.cursor xs).after calls).isReleased = true

/-! ## The protocol -/

variable {p : Pipeline α β} {xs : List (Except ε α)} {calls : List Call}

theorem answer_after (p : Pipeline α β) (xs : List (Except ε α)) (hopen : .close ∉ calls) :
    ((p.cursor xs).after calls).next.1 = (p.yield.results xs)[calls.length]?.getD .done := by
  rw [after_eq]
  show ((p.cursor xs).step _).1 = _
  rcases Contract.run (p.stands xs) (p.pulled_cursor xs) calls hopen with
    ⟨given, read, left, y, hlength, hmidway⟩ | ⟨hclosed, hlength⟩
  · rw [← hlength]
    exact hmidway.answer
  · rw [((p.contract xs).rests hclosed).1, List.getElem?_eq_none hlength]
    rfl

theorem leavesOpen_of_leads {read : List α} {given : List β} {y : Yield α β}
    (h : p.yield.Leads read given y) (hy : y.IsOpen) (hlength : given.length = calls.length)
    (hopen : .close ∉ calls) : p.LeavesOpen read calls := by
  intro ε e rest
  constructor
  · have hresults := h.results ([] : List (Except ε α))
    rw [List.append_nil, hy.results_nil, List.append_nil] at hresults
    have hlast : (given.map Pull.item : List (Pull ε β)).length ≤ calls.length :=
      Nat.le_of_eq ((List.length_map _).trans hlength)
    rw [answer_after p _ hopen, hresults, List.getElem?_eq_none hlast]
    rfl
  · rw [answer_after p _ hopen, h.results, hy.results_error, ← hlength,
      List.getElem?_append_right (Nat.le_of_eq (List.length_map _)), List.length_map, Nat.sub_self]
    rfl

theorem leavesOpen_of_lt (hopen : .close ∉ calls) {q : Nat}
    (hle : ((p.cursor xs).after calls).pulled ≤ q)
    (hlt : q < ((p.cursor xs).after calls).next.2.pulled) :
    ∃ read, xs.take q = read.map .ok ∧ p.LeavesOpen read calls := by
  rw [after_eq] at hle hlt
  change ((p.cursor xs).source _).pulled ≤ q at hle
  change q < ((p.cursor xs).source ((p.cursor xs).step _).2).pulled at hlt
  rcases Contract.run (p.stands xs) (p.pulled_cursor xs) calls hopen with
    ⟨given, read, left, y, hlength, hmidway⟩ | ⟨hclosed, -⟩
  · obtain ⟨n, hpulled, hturn⟩ := (p.contract xs).turn_of_standing hmidway.standing
    rw [hpulled, hmidway.pulled] at hlt
    rw [hmidway.pulled] at hle
    -- the first `q` elements are those from before and the first `r` of this pull
    obtain ⟨r, rfl⟩ := Nat.exists_eq_add_of_le hle
    obtain ⟨more, htake, y', hleads, hopen'⟩ := hturn.isOpen_of_lt (Nat.lt_of_add_lt_add_left hlt)
    have hgiven : (given ++ []).length = calls.length := by rw [List.append_nil, hlength]
    refine ⟨read ++ more, ?_,
      leavesOpen_of_leads (hmidway.leads.trans hleads) hopen' hgiven hopen⟩
    rw [hmidway.split, List.map_append, ← htake, ← List.length_map (Except.ok : α → Except ε α),
      List.take_length_add_append]
  · rw [((p.contract xs).rests hclosed).2.2] at hlt
    exact absurd hle (Nat.not_le_of_lt hlt)

theorem isReleased_of_ends {before : List Call} (call : Call)
    (hends : ((p.cursor xs).after before).Ends call) (later : List Call) :
    ((p.cursor xs).after (before ++ call :: later)).isReleased = true ∧
      ((p.cursor xs).after (before ++ call :: later)).next.1 = .done ∧
      ((p.cursor xs).after (before ++ call :: later)).next.2.pulled =
        ((p.cursor xs).after (before ++ call :: later)).pulled := by
  have hclosed := Contract.closed_of_ends (p.stands xs) hends later
  obtain ⟨hdone, -, hpulled⟩ := (p.contract xs).rests hclosed
  rw [after_eq]
  exact ⟨(p.contract xs).released hclosed, hdone, hpulled⟩

/-- If what has been read reaches a limit, then the source has been released. -/
theorem isReleased_of_isFull (read : List α)
    (hread : xs.take ((p.cursor xs).after calls).pulled = read.map .ok)
    (hfull : p.yield.isFull read = true) (hsome : read ≠ []) :
    ((p.cursor xs).after calls).isReleased = true := by
  by_cases hopen : .close ∈ calls
  · obtain ⟨before, later, rfl⟩ := List.append_of_mem hopen
    exact (isReleased_of_ends .close trivial later).1
  · rw [after_eq] at hread ⊢
    change xs.take ((p.cursor xs).source _).pulled = _ at hread
    show ((p.cursor xs).source _).isReleased = true
    rcases Contract.run (p.stands xs) (p.pulled_cursor xs) calls hopen with
      ⟨given, read', left, y, -, hmidway⟩ | ⟨hclosed, -⟩
    · rw [hmidway.take] at hread
      obtain rfl : read' = read := (List.map_inj_right fun _ _ => Except.ok.inj).1 hread
      rcases hmidway.place with (⟨-, hopen'⟩ | ⟨hclosed, -⟩) | ⟨-, hnone⟩
      · -- in use after an item, it is open, so that no limit has been reached
        have hnot := hmidway.leads.isFull []
        rw [List.append_nil, hfull, hopen'.isFull] at hnot
        exact absurd hnot.symm Bool.false_ne_true
      · exact (p.contract xs).released hclosed
      · exact absurd hnone hsome
    · exact (p.contract xs).released hclosed

theorem isFull_slice {offset limit : Nat} {inner : Pipeline α β} {read : List α}
    (h : limit ≤ ((inner.slice offset (some limit)).yield.items read).length) :
    (inner.slice offset (some limit)).yield.isFull read = true := by
  have hlimit : limit ≤ ((inner.yield.items read).drop offset).length :=
    Nat.le_trans h (List.length_take_le' _ _)
  show (inner.yield.isFull read || decide _) = true
  rw [decide_eq_true hlimit, Bool.or_true]

theorem isReleased_of_length {offset : Nat} {inner : Pipeline α β} (hlimit : 0 < calls.length)
    (hopen : .close ∉ calls) :
    (((inner.slice offset (some calls.length)).cursor xs).after calls).isReleased = true := by
  rcases Contract.run ((inner.slice offset (some calls.length)).stands xs) (pulled_cursor _ xs)
    calls hopen with ⟨given, read, left, y, hlength, hmidway⟩ | ⟨hclosed, -⟩
  · have hitems := hmidway.leads.items []
    rw [List.append_nil] at hitems
    have hmany : calls.length ≤
        ((inner.slice offset (some calls.length)).yield.items read).length := by
      rw [hitems, List.length_append, hlength]
      exact Nat.le_add_right _ _
    refine isReleased_of_isFull read ?_ (isFull_slice hmany) ?_
    · rw [after_eq]
      exact hmidway.take
    · rintro rfl
      rw [items_nil] at hmany
      exact absurd hmany (Nat.not_le_of_lt hlimit)
  · rw [after_eq]
    exact (contract xs _).released hclosed

/-- Every composition of adapters keeps the protocol of cursors, whatever its source. -/
theorem keeps_protocol (p : Pipeline α β) (xs : List (Except ε α)) : p.Protocol xs where
  answers _ hopen := answer_after p xs hopen
  reads _ hopen _ hle hlt := leavesOpen_of_lt hopen hle hlt
  ends _ call hends later := isReleased_of_ends call hends later
  releases offset limit inner := by
    rintro rfl hlimit calls hopen rfl
    exact isReleased_of_length hlimit hopen
  releasesWithin offset limit inner hwithin hlimit calls read hread hitems := by
    have hfull := isFull_slice (Nat.le_of_eq hitems.symm)
    refine isReleased_of_isFull read hread (hwithin.isFull hfull) ?_
    rintro rfl
    rw [items_nil] at hitems
    exact Nat.ne_of_lt hlimit hitems

/-- Neither the item after the limit nor the error is read. -/
example :
    let evens := Pipeline.source.filter () fun _ n => (n % 2 == 0, ())
    let c := ((evens.slice 1 (some 2)).cursor
      [.ok 2, .ok 3, .ok 4, .ok 6, .ok 8, .error "broken"]).after [.next, .next]
    (c.pulled, c.isReleased) = (4, true) := by rfl

end Pipeline
end QuadStore.Cursor
