import QuadStore.Eval.Rows
import QuadStore.Proofs.Literals

/-!
# Alike data

No operator tells two NaNs of one format apart: comparisons and truth values are the same for alike
values, and arithmetic gives alike results. Hence an expression cannot tell a computed datum from
the one that its literal is read as, which is what makes it a function of terms. What is said of the
numbers is said of their patterns, for all formats at once.
-/

/-! ## Options -/

section Options

variable {α α' β β' : Type} {r : α → α' → Prop} {s : β → β' → Prop} {x : Option α} {y : Option α'}

theorem Option.Rel.of_eq {r : α → α → Prop} {x y : Option α} (hr : ∀ a, r a a) (h : x = y) :
    Option.Rel r x y := by
  subst h
  cases x with
  | none => exact .none
  | some a => exact .some (hr a)

theorem Option.Rel.bind (h : Option.Rel r x y) {f : α → Option β} {g : α' → Option β'}
    (hfg : ∀ a b, r a b → Option.Rel s (f a) (g b)) : Option.Rel s (x.bind f) (y.bind g) := by
  cases h with
  | none => exact .none
  | some h => exact hfg _ _ h

theorem Option.Rel.map (h : Option.Rel r x y) {f : α → β} {g : α' → β'}
    (hfg : ∀ a b, r a b → s (f a) (g b)) : Option.Rel s (x.map f) (y.map g) := by
  cases h with
  | none => exact .none
  | some h => exact .some (hfg _ _ h)

theorem Option.Rel.bind_eq (h : Option.Rel r x y) {f : α → Option β} {g : α' → Option β}
    (hfg : ∀ a b, r a b → f a = g b) : x.bind f = y.bind g := by
  cases h with
  | none => rfl
  | some h => exact hfg _ _ h

theorem Option.Rel.imp (h : Option.Rel r x y) {r' : α → α' → Prop} (hr : ∀ a b, r a b → r' a b) :
    Option.Rel r' x y := by
  cases h with
  | none => exact .none
  | some h => exact .some (hr _ _ h)

/-- Related values are related as what they come from. -/
theorem Option.Rel.and_eq (h : Option.Rel r x y) :
    Option.Rel (fun a b => r a b ∧ x = Option.some a ∧ y = Option.some b) x y := by
  cases h with
  | none => exact .none
  | some h => exact .some ⟨h, rfl, rfl⟩

end Options

namespace QuadStore

/-! ## Patterns -/

namespace BinaryFormat

/-- An operation on patterns that gives back the first NaN among its operands. -/
def Propagates (f : BinaryFormat) (op : Nat → Nat → Nat) : Prop :=
  ∀ a b, (f.isNaN a = true → op a b = a) ∧ (f.isNaN a = false → f.isNaN b = true → op a b = b)

/-- Two patterns that are the same or NaNs. -/
def Alike (f : BinaryFormat) (a b : Nat) : Prop := a = b ∨ f.isNaN a = true ∧ f.isNaN b = true

variable {f : BinaryFormat} {a a' b b' : Nat}

theorem unlessNaN_spec (f : BinaryFormat) (a b result : Nat) :
    (f.isNaN a = true → f.unlessNaN a b result = a) ∧
      (f.isNaN a = false → f.isNaN b = true → f.unlessNaN a b result = b) := by
  unfold unlessNaN
  exact ⟨fun ha => if_pos ha, fun ha hb => by rw [if_neg (by simp [ha]), if_pos hb]⟩

theorem propagates_add (f : BinaryFormat) : f.Propagates f.add := fun a b => f.unlessNaN_spec a b _

theorem propagates_sub (f : BinaryFormat) : f.Propagates f.sub := fun a b => f.unlessNaN_spec a b _

theorem propagates_mul (f : BinaryFormat) : f.Propagates f.mul := fun a b => f.unlessNaN_spec a b _

theorem propagates_div (f : BinaryFormat) : f.Propagates f.div := fun a b => f.unlessNaN_spec a b _

theorem Propagates.alike {op : Nat → Nat → Nat} (hop : f.Propagates op) (ha : f.Alike a a')
    (hb : f.Alike b b') : f.Alike (op a b) (op a' b') := by
  rcases ha with rfl | ⟨ha, ha'⟩
  · cases hnan : f.isNaN a with
    | true => exact .inl (((hop a b).1 hnan).trans ((hop a b').1 hnan).symm)
    | false =>
      rcases hb with rfl | ⟨hb, hb'⟩
      · exact .inl rfl
      · rw [(hop a b).2 hnan hb, (hop a b').2 hnan hb']
        exact .inr ⟨hb, hb'⟩
  · rw [(hop a b).1 ha, (hop a' b').1 ha']
    exact .inr ⟨ha, ha'⟩

theorem Alike.refl (a : Nat) : f.Alike a a := .inl rfl

theorem Alike.of_isNaN (ha : f.isNaN a = true) (hb : f.isNaN b = true) : f.Alike a b :=
  .inr ⟨ha, hb⟩

/-- What leaves the magnitudes as they are gives alike patterns for alike ones. -/
theorem Alike.map (h : f.Alike a b) {op : Nat → Nat}
    (hop : ∀ n, f.magnitude (op n) = f.magnitude n) : f.Alike (op a) (op b) := by
  have hnan : ∀ n, f.isNaN (op n) = f.isNaN n := fun n => by rw [isNaN, isNaN, hop]
  exact h.imp (congrArg op) fun h => by rwa [hnan, hnan]

/-- The sign is no part of the magnitude. -/
theorem magnitude_flip (f : BinaryFormat) (n : Nat) :
    f.magnitude (n ^^^ f.signWeight) = f.magnitude n := by
  show (n ^^^ 2 ^ _) % 2 ^ _ = n % 2 ^ _
  rw [Nat.xor_mod_two_pow, Nat.mod_self, Nat.xor_zero]

theorem magnitude_clear (f : BinaryFormat) (n : Nat) :
    f.magnitude (n &&& (f.signWeight - 1)) = f.magnitude n := by
  show (n &&& (2 ^ _ - 1)) % 2 ^ _ = n % 2 ^ _
  rw [Nat.and_two_pow_sub_one_eq_mod, Nat.mod_mod]

/-- A pattern that is cut to the width of the format keeps its magnitude. -/
theorem magnitude_cut (f : BinaryFormat) (n : Nat) :
    f.magnitude (n % (2 * f.signWeight)) = f.magnitude n :=
  Nat.mod_mod_of_dvd n (Nat.dvd_mul_left _ _)

/-- Neither zero nor NaN. -/
theorem Alike.isTrue_eq (h : f.Alike a b) :
    (!f.isNaN a && f.magnitude a != 0) = (!f.isNaN b && f.magnitude b != 0) := by
  rcases h with rfl | ⟨ha, hb⟩
  · rfl
  · rw [ha, hb]
    rfl

/-- The text of a NaN shows neither its sign nor its payload. -/
theorem Alike.floatingText_eq (h : f.Alike a b) : Xsd.floatingText f a = Xsd.floatingText f b := by
  rcases h with rfl | ⟨ha, hb⟩
  · rfl
  · exact (if_pos ha).trans (if_pos hb).symm

theorem Alike.floatingOrder?_eq (ha : f.Alike a a') (hb : f.Alike b b') :
    Xsd.floatingOrder? f a b = Xsd.floatingOrder? f a' b' := by
  have hnone : ∀ {a b : Nat}, (f.isNaN a || f.isNaN b) = true → Xsd.floatingOrder? f a b = none :=
    fun h => if_pos h
  rcases ha with rfl | ⟨ha, ha'⟩
  · rcases hb with rfl | ⟨hb, hb'⟩
    · rfl
    · rw [hnone (by simp [hb]), hnone (by simp [hb'])]
  · rw [hnone (by simp [ha]), hnone (by simp [ha'])]

end BinaryFormat

namespace Xsd

open BinaryFormat (binary32 binary64)

/-- A NaN keeps nothing but its sign when it is lengthened. -/
theorem Double.ofSingle_of_isNaN {x : Single} (hx : x.isNaN = true) :
    ofSingle x = ofBits (binary64.withSign (binary32.isNegative x.bits.toNat)
      binary64.quietNaN) := by
  unfold ofSingle
  dsimp only
  rw [if_pos (show binary32.isNaN x.bits.toNat = true from hx)]

/-- A longer number is a NaN if the shorter one is. -/
theorem Double.alike_ofSingle {x y : Single} (h : binary32.Alike x.bits.toNat y.bits.toNat) :
    binary64.Alike (ofSingle x).bits.toNat (ofSingle y).bits.toNat := by
  have hnan : ∀ {x : Single}, x.isNaN = true → (ofSingle x).isNaN = true := by
    intro x hx
    rw [ofSingle_of_isNaN hx]
    cases binary32.isNegative x.bits.toNat <;> decide
  rcases h with h | ⟨hx, hy⟩
  · rw [show x = y from congrArg Single.mk (UInt32.toNat_inj.1 h)]
    exact .refl _
  · exact .of_isNaN (hnan hx) (hnan hy)

/-! ## Pairs of numbers -/

namespace NumberPair

/-- Two pairs of alike numbers. -/
inductive Alike : NumberPair → NumberPair → Prop
  | refl (p : NumberPair) : Alike p p
  | float {x x' y y' : Single} : binary32.Alike x.bits.toNat x'.bits.toNat →
      binary32.Alike y.bits.toNat y'.bits.toNat → Alike (.float x y) (.float x' y')
  | double {x x' y y' : Double} : binary64.Alike x.bits.toNat x'.bits.toNat →
      binary64.Alike y.bits.toNat y'.bits.toNat → Alike (.double x y) (.double x' y')

variable {p q : NumberPair}

theorem Alike.order?_eq (h : p.Alike q) : p.order? = q.order? := by
  cases h with
  | refl => rfl
  | float hx hy => exact hx.floatingOrder?_eq hy
  | double hx hy => exact hx.floatingOrder?_eq hy

end NumberPair

namespace Value

/-- Numbers of one format are alike as values if their patterns are. -/
theorem Alike.of_single {x y : Single} (h : binary32.Alike x.bits.toNat y.bits.toNat) :
    Alike (.float x) (.float y) := by
  rcases h with h | ⟨hx, hy⟩
  · rw [show x = y from congrArg Single.mk (UInt32.toNat_inj.1 h)]
    exact .refl _
  · exact .float hx hy

theorem Alike.of_double {x y : Double} (h : binary64.Alike x.bits.toNat y.bits.toNat) :
    Alike (.double x) (.double y) := by
  rcases h with h | ⟨hx, hy⟩
  · rw [show x = y from congrArg Double.mk (UInt64.toNat_inj.1 h)]
    exact .refl _
  · exact .double hx hy

end Value

/-- An operation on pairs of numbers that gives alike results for alike pairs. -/
def NumberPair.Respects (op : NumberPair → Option Value) : Prop :=
  ∀ p q : NumberPair, p.Alike q → Option.Rel Value.Alike (op p) (op q)

namespace NumberPair

variable {op : NumberPair → Option Value} {narrow wide : Nat → Nat → Nat}

/-- An operation that gives back the first NaN respects likeness. -/
theorem Respects.of_lift (hfloat : ∀ x y, op (.float x y) = some (.float (Single.lift narrow x y)))
    (hdouble : ∀ x y, op (.double x y) = some (.double (Double.lift wide x y)))
    (hnarrow : binary32.Propagates narrow)
    (hwide : binary64.Propagates wide) : Respects op := by
  intro p q h
  cases h with
  | refl => exact .of_eq .refl rfl
  | float hx hy =>
    rw [hfloat, hfloat]
    refine .some (.of_single ?_)
    show binary32.Alike (UInt32.ofNat _).toNat (UInt32.ofNat _).toNat
    rw [UInt32.toNat_ofNat', UInt32.toNat_ofNat']
    exact (hnarrow.alike hx hy).map binary32.magnitude_cut
  | double hx hy =>
    rw [hdouble, hdouble]
    refine .some (.of_double ?_)
    show binary64.Alike (UInt64.ofNat _).toNat (UInt64.ofNat _).toNat
    rw [UInt64.toNat_ofNat', UInt64.toNat_ofNat']
    exact (hwide.alike hx hy).map binary64.magnitude_cut

theorem respects_add? : Respects add? :=
  .of_lift (fun _ _ => rfl) (fun _ _ => rfl) (BinaryFormat.propagates_add _)
    (BinaryFormat.propagates_add _)

theorem respects_sub? : Respects sub? :=
  .of_lift (fun _ _ => rfl) (fun _ _ => rfl) (BinaryFormat.propagates_sub _)
    (BinaryFormat.propagates_sub _)

theorem respects_mul? : Respects mul? :=
  .of_lift (fun _ _ => rfl) (fun _ _ => rfl) (BinaryFormat.propagates_mul _)
    (BinaryFormat.propagates_mul _)

theorem respects_div? : Respects div? :=
  .of_lift (fun _ _ => rfl) (fun _ _ => rfl) (BinaryFormat.propagates_div _)
    (BinaryFormat.propagates_div _)

/-- Alike values make alike pairs. -/
theorem alike_ofValues? {v v' w w' : Value} (hv : v.Alike v') (hw : w.Alike w') :
    Option.Rel Alike (ofValues? v w) (ofValues? v' w') := by
  -- alike values that differ are no numbers, and stay so when they are promoted
  cases hv with
  | refl =>
    cases hw with
    | refl => exact .of_eq .refl rfl
    | float hy hy' =>
      have hy : binary32.Alike _ _ := .of_isNaN hy hy'
      cases v with
      | integer a => exact .some (.float (.refl _) hy)
      | decimal a => exact .some (.float (.refl _) hy)
      | float a => exact .some (.float (.refl _) hy)
      | double a => exact .some (.double (.refl _) (Double.alike_ofSingle hy))
      | _ => exact .none
    | double hy hy' =>
      have hy : binary64.Alike _ _ := .of_isNaN hy hy'
      cases v with
      | integer a => exact .some (.double (.refl _) hy)
      | decimal a => exact .some (.double (.refl _) hy)
      | float a => exact .some (.double (.refl _) hy)
      | double a => exact .some (.double (.refl _) hy)
      | _ => exact .none
  | float hx hx' =>
    have hx : binary32.Alike _ _ := .of_isNaN hx hx'
    cases hw with
    | refl =>
      cases w with
      | integer b => exact .some (.float hx (.refl _))
      | decimal b => exact .some (.float hx (.refl _))
      | float b => exact .some (.float hx (.refl _))
      | double b => exact .some (.double (Double.alike_ofSingle hx) (.refl _))
      | _ => exact .none
    | float hy hy' => exact .some (.float hx (.of_isNaN hy hy'))
    | double hy hy' => exact .some (.double (Double.alike_ofSingle hx) (.of_isNaN hy hy'))
  | double hx hx' =>
    have hx : binary64.Alike _ _ := .of_isNaN hx hx'
    cases hw with
    | refl =>
      cases w with
      | integer b => exact .some (.double hx (.refl _))
      | decimal b => exact .some (.double hx (.refl _))
      | float b => exact .some (.double hx (.refl _))
      | double b => exact .some (.double hx (.refl _))
      | _ => exact .none
    | float hy hy' => exact .some (.double hx (Double.alike_ofSingle (.of_isNaN hy hy')))
    | double hy hy' => exact .some (.double hx (.of_isNaN hy hy'))

end NumberPair

namespace Value

variable {v v' w w' : Value}

theorem Alike.text_eq (h : v.Alike w) : v.text = w.text := by
  cases h with
  | refl => rfl
  | float hx hy => exact (BinaryFormat.Alike.of_isNaN hx hy).floatingText_eq
  | double hx hy => exact (BinaryFormat.Alike.of_isNaN hx hy).floatingText_eq

theorem Alike.toLiteral_eq (h : v.Alike w) : v.toLiteral = w.toLiteral := by
  have htype : v.datatype = w.datatype := by
    cases h <;> rfl
  unfold toLiteral
  rw [h.text_eq, htype]

theorem Alike.isNumeric_eq (h : v.Alike w) : v.isNumeric = w.isNumeric := by
  cases h <;> rfl

theorem Alike.neg? (h : v.Alike w) : Option.Rel Alike v.neg? w.neg? := by
  cases h with
  | refl => exact .of_eq .refl rfl
  | @float x y hx hy =>
    refine .some (.of_single ?_)
    show binary32.Alike (x.bits ^^^ _).toNat (y.bits ^^^ _).toNat
    rw [UInt32.toNat_xor, UInt32.toNat_xor]
    exact (BinaryFormat.Alike.of_isNaN hx hy).map binary32.magnitude_flip
  | @double x y hx hy =>
    refine .some (.of_double ?_)
    show binary64.Alike (x.bits ^^^ _).toNat (y.bits ^^^ _).toNat
    rw [UInt64.toNat_xor, UInt64.toNat_xor]
    exact (BinaryFormat.Alike.of_isNaN hx hy).map binary64.magnitude_flip

theorem Alike.abs? (h : v.Alike w) : Option.Rel Alike v.abs? w.abs? := by
  cases h with
  | refl => exact .of_eq .refl rfl
  | @float x y hx hy =>
    refine .some (.of_single ?_)
    show binary32.Alike (x.bits &&& _).toNat (y.bits &&& _).toNat
    rw [UInt32.toNat_and, UInt32.toNat_and]
    exact (BinaryFormat.Alike.of_isNaN hx hy).map binary32.magnitude_clear
  | @double x y hx hy =>
    refine .some (.of_double ?_)
    show binary64.Alike (x.bits &&& _).toNat (y.bits &&& _).toNat
    rw [UInt64.toNat_and, UInt64.toNat_and]
    exact (BinaryFormat.Alike.of_isNaN hx hy).map binary64.magnitude_clear

/-- Values that are not both of the same kind of the others are compared as numbers. -/
theorem order?_float_left (x : Single) (w : Value) :
    order? (.float x) w = (NumberPair.ofValues? (.float x) w).bind NumberPair.order? := by
  cases w <;> rfl

theorem order?_double_left (x : Double) (w : Value) :
    order? (.double x) w = (NumberPair.ofValues? (.double x) w).bind NumberPair.order? := by
  cases w <;> rfl

theorem order?_float_right (v : Value) (y : Single) :
    order? v (.float y) = (NumberPair.ofValues? v (.float y)).bind NumberPair.order? := by
  cases v <;> rfl

theorem order?_double_right (v : Value) (y : Double) :
    order? v (.double y) = (NumberPair.ofValues? v (.double y)).bind NumberPair.order? := by
  cases v <;> rfl

/-- Alike values are ordered alike. -/
theorem Alike.order?_eq (hv : v.Alike v') (hw : w.Alike w') : v.order? w = v'.order? w' := by
  have hpairs := (NumberPair.alike_ofValues? hv hw).bind_eq fun p q h => h.order?_eq
  cases hv with
  | refl =>
    cases hw with
    | refl => rfl
    | float => rwa [order?_float_right, order?_float_right]
    | double => rwa [order?_double_right, order?_double_right]
  | float => rwa [order?_float_left, order?_float_left]
  | double => rwa [order?_double_left, order?_double_left]

end Value

end Xsd

end QuadStore
