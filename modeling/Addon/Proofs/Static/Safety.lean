import Addon.Json.Writer
import Addon.Proofs.Attempt
import Addon.Proofs.Fields
import Addon.Static.Environment
import Addon.Static.Options

/-!
# Safety — what the values of arguments are made of

The value of an argument ends up in a document, which has no tuples and no complex numbers. Tuples
are turned into lists on the way. Complex numbers are not looked for: the evaluation lets a power of
a negative number pass, and no other operation makes one.

## The architecture

* **`Value.nodes`** — a value with its parts at every depth; `Value.IsSafe` says that a
  document has all of them.
* **`HasOnly C`** — the complex numbers among the nodes are all from `C`. One
  lemma for each operation.
* **`powers`** — the powers in an expression that can end up in its value; `IsRoot` says
  which complex number one is.
* **`hasOnly_eval`** — the evaluation, by mutual induction along it: a complex number in a value is
  one of the environment, or one of those powers.
* **`hasOnly_updateAll`** — the constants of a module, by induction on its statements.
* **`Json.write_eq_unsupported`** — the writer refuses a value for its kind only if a
  complex number is in it.
-/

namespace Addon

namespace Value

/-! ## Parts of values -/

mutual

/-- The value and its parts, at every depth. -/
def nodes : Value → List Value
  | .list items => .list items :: nodesOfItems items
  | .tuple items => .tuple items :: nodesOfItems items
  | .dict fields => .dict fields :: nodesOfFields fields
  | v => [v]

def nodesOfItems : List Value → List Value
  | [] => []
  | v :: rest => v.nodes ++ nodesOfItems rest

def nodesOfFields : List (String × Value) → List Value
  | [] => []
  | (_, v) :: rest => v.nodes ++ nodesOfFields rest

end

theorem mem_nodesOfItems {w : Value} {items : List Value} :
    w ∈ nodesOfItems items ↔ ∃ v ∈ items, w ∈ v.nodes := by
  induction items with
  | nil => simp [nodesOfItems]
  | cons v rest ih => simp [nodesOfItems, ih]

theorem mem_nodesOfFields {w : Value} {fields : List (String × Value)} :
    w ∈ nodesOfFields fields ↔ ∃ f ∈ fields, w ∈ f.2.nodes := by
  induction fields with
  | nil => simp [nodesOfFields]
  | cons f rest ih => simp [nodesOfFields, ih]

/-- A document has values of this kind. -/
def isDocument : Value → Bool
  | .tuple _ | .complex .. => false
  | _ => true

/-- A document has the value: at every depth it is nothing, a boolean, an integer, a double, a text,
a list, or a dict, whose names are texts. -/
def IsSafe (v : Value) : Prop :=
  ∀ w ∈ v.nodes, w.isDocument = true

instance (v : Value) : Decidable v.IsSafe :=
  inferInstanceAs (Decidable (∀ w ∈ v.nodes, w.isDocument = true))

mutual

/-- Without tuples only complex numbers are left that a document does not have, and none is new. -/
theorem nodes_safe {w : Value} : ∀ v : Value, w ∈ v.safe.nodes →
    w.isDocument = true ∨ ∃ re im, w = .complex re im ∧ w ∈ v.nodes
  | .list items | .tuple items => by
    rw [safe, nodes, nodes, List.mem_cons]
    rintro (rfl | h)
    · exact .inl rfl
    · exact (nodes_safeItems items h).imp_right fun ⟨re, im, hw, h⟩ =>
        ⟨re, im, hw, List.mem_cons_of_mem _ h⟩
  | .dict fields => by
    rw [safe, nodes, nodes, List.mem_cons]
    rintro (rfl | h)
    · exact .inl rfl
    · exact (nodes_safeFields fields h).imp_right fun ⟨re, im, hw, h⟩ =>
        ⟨re, im, hw, List.mem_cons_of_mem _ h⟩
  | .complex re im => by
    intro h
    exact .inr ⟨re, im, by simpa [safe, nodes] using h, h⟩
  | .null | .bool _ | .int _ | .float _ | .nan _ | .str _ => by
    intro h
    simp only [safe, nodes, List.mem_singleton] at h
    subst h
    exact .inl rfl

theorem nodes_safeItems {w : Value} : ∀ items : List Value, w ∈ nodesOfItems (safeItems items) →
    w.isDocument = true ∨ ∃ re im, w = .complex re im ∧ w ∈ nodesOfItems items
  | [] => by simp [safeItems, nodesOfItems]
  | v :: rest => by
    rw [safeItems, nodesOfItems, nodesOfItems, List.mem_append]
    rintro (h | h)
    · exact (nodes_safe v h).imp_right fun ⟨re, im, hw, h⟩ => ⟨re, im, hw, List.mem_append_left _ h⟩
    · exact (nodes_safeItems rest h).imp_right fun ⟨re, im, hw, h⟩ =>
        ⟨re, im, hw, List.mem_append_right _ h⟩

theorem nodes_safeFields {w : Value} :
    ∀ fields : List (String × Value), w ∈ nodesOfFields (safeFields fields) →
    w.isDocument = true ∨ ∃ re im, w = .complex re im ∧ w ∈ nodesOfFields fields
  | [] => by simp [safeFields, nodesOfFields]
  | (name, v) :: rest => by
    rw [safeFields, nodesOfFields, nodesOfFields, List.mem_append]
    rintro (h | h)
    · exact (nodes_safe v h).imp_right fun ⟨re, im, hw, h⟩ => ⟨re, im, hw, List.mem_append_left _ h⟩
    · exact (nodes_safeFields rest h).imp_right fun ⟨re, im, hw, h⟩ =>
        ⟨re, im, hw, List.mem_append_right _ h⟩

end

/-! ## Complex numbers in values -/

/-- The complex numbers in a value are all from a set. -/
def HasOnly (C : Float → Float → Prop) (v : Value) : Prop :=
  ∀ re im, .complex re im ∈ v.nodes → C re im

section HasOnly

variable {C : Float → Float → Prop}

@[simp] theorem hasOnly_null : HasOnly C .null := by simp [HasOnly, nodes]

@[simp] theorem hasOnly_bool (b : Bool) : HasOnly C (.bool b) := by simp [HasOnly, nodes]

@[simp] theorem hasOnly_int (n : Int) : HasOnly C (.int n) := by simp [HasOnly, nodes]

@[simp] theorem hasOnly_float (x : Float) : HasOnly C (.float x) := by simp [HasOnly, nodes]

@[simp] theorem hasOnly_nan (o : Origin) : HasOnly C (.nan o) := by simp [HasOnly, nodes]

@[simp] theorem hasOnly_str (text : String) : HasOnly C (.str text) := by simp [HasOnly, nodes]

@[simp] theorem hasOnly_complex (re im : Float) : HasOnly C (.complex re im) ↔ C re im := by
  simp [HasOnly, nodes]

@[simp] theorem hasOnly_list (items : List Value) :
    HasOnly C (.list items) ↔ ∀ v ∈ items, HasOnly C v := by
  simp only [HasOnly, nodes, List.mem_cons, reduceCtorEq, false_or, mem_nodesOfItems]
  grind

@[simp] theorem hasOnly_tuple (items : List Value) :
    HasOnly C (.tuple items) ↔ ∀ v ∈ items, HasOnly C v := by
  simp only [HasOnly, nodes, List.mem_cons, reduceCtorEq, false_or, mem_nodesOfItems]
  grind

@[simp] theorem hasOnly_dict (fields : List (String × Value)) :
    HasOnly C (.dict fields) ↔ ∀ f ∈ fields, HasOnly C f.2 := by
  simp only [HasOnly, nodes, List.mem_cons, reduceCtorEq, false_or, mem_nodesOfFields]
  grind

theorem HasOnly.arising {v : Value} (h : HasOnly C v) (way : List Nat) :
    HasOnly C (v.arising way) := by
  cases v with
  | float x =>
    rw [Value.arising]
    split
    · exact hasOnly_nan _
    · exact h
  | _ => exact h

end HasOnly

end Value

/-! ## Arithmetic

Of all operations on real numbers only a power can be complex. -/

namespace Number

theorem realPower_ne_complex (negated : Bool) (x y re im : Float) :
    realPower negated x y ≠ .complex re im := by
  unfold realPower
  dsimp only
  split
  all_goals
    split
    · exact nofun
    · exact nofun

/-- Only the power of a negative number to one that is not whole is complex. -/
theorem power_eq_complex {x y re im : Float} (h : power x y = .complex re im) :
    isNaN x = false ∧ x < 0 ∧ isWhole y = false := by
  have hreal := realPower_ne_complex
  unfold power at h
  grind

namespace Operand

/-- An integer or a double. -/
def IsReal (v : Value) : Prop :=
  (∃ n, v = .int n) ∨ ∃ x, v = .float x

theorem isReal_int (n : Int) : IsReal (.int n) := .inl ⟨n, rfl⟩

theorem isReal_float (x : Float) : IsReal (.float x) := .inr ⟨x, rfl⟩

theorem IsReal.hasOnly {C : Float → Float → Prop} {v : Value} (h : IsReal v) : v.HasOnly C := by
  rcases h with ⟨n, rfl⟩ | ⟨x, rfl⟩
  · exact Value.hasOnly_int n
  · exact Value.hasOnly_float x

/-- An operation on doubles, whatever it is, and whatever it checks first. -/
theorem isReal_floats (a b : Operand) (f : Float → Float → Except Fault Value)
    (hf : ∀ x y, Yields IsReal (f x y)) :
    Yields IsReal (do
      let x ← a.toFloat
      let y ← b.toFloat
      f x y : Except Fault Value) := by
  intro v h
  obtain ⟨x, -, h⟩ := bind_eq_ok.mp h
  obtain ⟨y, -, h⟩ := bind_eq_ok.mp h
  exact hf x y v h

theorem isReal_lift (ints : Int → Int → Int) (floats : Float → Float → Float) (a b : Operand) :
    Yields IsReal (lift ints floats a b) := by
  unfold lift
  split
  · exact yields_ok (isReal_int _)
  · exact isReal_floats a b _ fun x y => yields_ok (isReal_float _)

theorem isReal_div (a b : Operand) : Yields IsReal (a.div b) := by
  unfold div
  split
  · refine (yields_error _).ite ?_
    split
    · exact yields_ok (isReal_float _)
    · exact yields_error _
  · exact isReal_floats a b _ fun x y => (yields_error _).ite (yields_ok (isReal_float _))

theorem isReal_floorDiv (a b : Operand) : Yields IsReal (a.floorDiv b) := by
  unfold floorDiv
  split
  · exact (yields_error _).ite (yields_ok (isReal_int _))
  · exact isReal_floats a b _ fun x y => (yields_error _).ite (yields_ok (isReal_float _))

theorem isReal_mod (a b : Operand) : Yields IsReal (a.mod b) := by
  unfold mod
  split
  · exact (yields_error _).ite (yields_ok (isReal_int _))
  · exact isReal_floats a b _ fun x y => (yields_error _).ite (yields_ok (isReal_float _))

/-- What a power is: real, or complex if the base is negative and the exponent not whole. -/
def IsPower (a b : Operand) (v : Value) : Prop :=
  IsReal v ∨ ∃ re im x y, v = .complex re im ∧ a.toFloat = .ok x ∧ b.toFloat = .ok y ∧
    power x y = .complex re im

theorem isPower_floats (a b : Operand) :
    Yields (IsPower a b) (do
      let x ← a.toFloat
      let y ← b.toFloat
      floatPow x y) := by
  intro v h
  obtain ⟨x, hx, h⟩ := bind_eq_ok.mp h
  obtain ⟨y, hy, h⟩ := bind_eq_ok.mp h
  unfold floatPow at h
  split at h
  · obtain rfl := Except.ok.inj h
    exact .inl (isReal_float _)
  · next re im hpower =>
    obtain rfl := Except.ok.inj h
    exact .inr ⟨re, im, x, y, rfl, hx, hy, hpower⟩
  · cases h
  · cases h

theorem isPower_pow (a b : Operand) : Yields (IsPower a b) (a.pow b) := by
  unfold pow
  split
  · next n m =>
    refine Yields.ite ?_ (isPower_floats _ _)
    exact yields_map fun n => .inl (isReal_int n)
  · exact isPower_floats a b

end Operand

end Number

/-! ## Operations

All but a power make real numbers and texts, or pass on what they are given. -/

namespace Static

open Script Value

variable {C : Float → Float → Prop} {α : Type} {v w : Value} {statement : Nat}

theorem yields_guarded {P : α → Prop} {caught : List FaultKind} {blame : Fault → Refusal}
    {x : Except Fault α} (h : Yields P x) : Yields P (guarded caught blame x) := by
  cases x with
  | ok a => exact yields_ok (h a rfl)
  | error f =>
    rw [guarded]
    exact (yields_error _).ite (yields_error _)

theorem yields_refuse {P : α → Prop} (r : Refusal) : Yields P (refuse r : Eval α) :=
  yields_error _

theorem hasOnly_guarded {caught : List FaultKind} {blame : Fault → Refusal} {x : Except Fault Value}
    (h : Yields Number.Operand.IsReal x) : Yields (HasOnly C) (guarded caught blame x) :=
  yields_guarded fun v hv => (h v hv).hasOnly

theorem hasOnly_sum (hv : v.HasOnly C) (hw : w.HasOnly C) : Yields (HasOnly C) (sum v w) := by
  unfold sum
  split
  · rw [hasOnly_list] at hv hw
    exact yields_ok ((hasOnly_list _).mpr (List.forall_mem_append.mpr ⟨hv, hw⟩))
  · rw [hasOnly_dict] at hv hw
    exact yields_ok ((hasOnly_dict _).mpr (Fields.forall_mem_merge hv hw))
  · exact yields_ok (hasOnly_str _)
  · split
    · exact hasOnly_guarded (Number.Operand.isReal_lift _ _ _ _)
    · exact yields_refuse _

theorem mem_of_repeated {tooLong : Fault} {items : List α} {count : Int} :
    Yields (fun repeated => ∀ a ∈ repeated, a ∈ items) (Value.repeated tooLong items count) := by
  unfold Value.repeated
  refine (yields_error _).ite
    (Yields.ite (yields_ok (by simp)) ((yields_error _).ite ((yields_error _).ite ?_)))
  refine yields_ok fun a ha => ?_
  obtain ⟨part, hpart, ha⟩ := List.mem_flatten.mp ha
  rwa [List.eq_of_mem_replicate hpart] at ha

theorem hasOnly_product (w : Value) (hv : v.HasOnly C) : Yields (HasOnly C) (product v w) := by
  unfold product
  split
  · exact hasOnly_guarded (Number.Operand.isReal_lift _ _ _ _)
  · split
    · rw [hasOnly_list] at hv
      refine (yields_guarded mem_of_repeated).bind fun repeated hrepeated => yields_ok ?_
      exact (hasOnly_list _).mpr fun u hu => hv u (hrepeated u hu)
    · exact (yields_guarded mem_of_repeated).bind fun _ _ => yields_ok (hasOnly_str _)
    · exact yields_refuse _

/-- Operators other than powers make no complex numbers. -/
theorem hasOnly_binary {op : BinaryOp} (hop : op ≠ .pow) (hv : v.HasOnly C)
    (hw : w.HasOnly C) : Yields (HasOnly C) (binary op v w) := by
  unfold binary
  split
  · exact hasOnly_sum hv hw
  · exact hasOnly_product _ hv
  · rw [hasOnly_dict] at hv hw
    exact yields_ok ((hasOnly_dict _).mpr (Fields.forall_mem_merge hv hw))
  · split
    · unfold arithmetic
      dsimp only
      split
      · exact hasOnly_guarded (Number.Operand.isReal_lift _ _ _ _)
      · exact hasOnly_guarded (Number.Operand.isReal_div _ _)
      · exact hasOnly_guarded (Number.Operand.isReal_floorDiv _ _)
      · exact hasOnly_guarded (Number.Operand.isReal_mod _ _)
      · contradiction
      · exact yields_refuse _
    · exact yields_refuse _

/-- A power is real, or its operands are a negative number and one that is not whole. -/
theorem yields_power (v w : Value) :
    Yields (fun u => ∃ a b, v.operand? = some a ∧ w.operand? = some b ∧
      Number.Operand.IsPower a b u)
      (binary .pow v w) := by
  intro u h
  simp only [binary, arithmetic] at h
  split at h
  · next a b hoperands =>
    have hoperand : v.operand? = some a ∧ w.operand? = some b := by
      unfold operands? at hoperands
      cases hv : v.operand? <;> cases hw : w.operand? <;> simp_all
    exact ⟨a, b, hoperand.1, hoperand.2, yields_guarded (Number.Operand.isPower_pow a b) u h⟩
  · cases h

theorem hasOnly_unary (op : UnaryOp) (v : Value) : Yields (HasOnly C) (unary op v) := by
  unfold unary
  split
  · exact yields_ok (hasOnly_bool _)
  · split
    · next hoperand =>
      -- what has a sign is no complex number
      refine yields_ok ?_
      cases v
      all_goals first | cases hoperand; done | simp
    · exact yields_refuse _
  · split
    · next a _ =>
      refine yields_ok ?_
      cases a <;> simp [Number.Operand.neg]
    · exact yields_refuse _
  · exact yields_refuse _

theorem hasOnly_compare (op : CompareOp) (v w : Value) : Yields (HasOnly C) (compare op v w) := by
  have hchecked : ∀ x : Except Fault Bool, Yields (HasOnly C) (do
      let b ← guarded [.type] .incomparable x
      return .bool b : Eval Value) := by
    intro x
    exact yields_bind fun b => yields_ok (hasOnly_bool b)
  unfold compare
  dsimp only
  split
  · exact yields_ok (hasOnly_bool _)
  · exact yields_ok (hasOnly_bool _)
  iterate 6 exact hchecked _
  · exact yields_refuse _
  · exact yields_refuse _

theorem mem_of_itemAt {container : String} {items : List α} {n : Int} :
    Yields (· ∈ items) (Value.itemAt container items n) := by
  unfold Value.itemAt
  refine (yields_error _).ite ((yields_error _).ite ?_)
  split
  · next a ha => exact yields_ok (List.mem_of_getElem? ha)
  · exact yields_error _

/-- What is taken out of a container was in it. -/
theorem hasOnly_subscript {container : Value} (index : Value) (h : container.HasOnly C) :
    Yields (HasOnly C) (subscript container index) := by
  refine yields_guarded ?_
  unfold Value.subscript
  split
  · rw [hasOnly_list] at h
    split
    · exact fun v hv => h v (mem_of_itemAt v hv)
    · exact yields_error _
  · rw [hasOnly_tuple] at h
    split
    · exact fun v hv => h v (mem_of_itemAt v hv)
    · exact yields_error _
  · split
    · exact mem_of_itemAt.bind fun _ _ => yields_ok (hasOnly_str _)
    · exact yields_error _
  · rw [hasOnly_dict] at h
    dsimp only
    split
    · next v _ hfound =>
      split at hfound
      · exact yields_ok (h _ (Fields.mem_of_get? hfound))
      · cases hfound
    · exact yields_error _
    · intro v hv
      obtain ⟨_, -, hv⟩ := bind_eq_ok.mp hv
      cases hv
  · exact yields_error _

theorem hasOnly_call (name : String) (args : List Value) : Yields (HasOnly C) (call name args) := by
  have hrange : ∀ start stop step, Yields (HasOnly C) (Value.range start stop step) := by
    intro start stop step
    unfold Value.range
    refine (yields_error _).ite ((yields_error _).ite ((yields_error _).ite (yields_ok ?_)))
    simp
  unfold call
  split
  · next c _ =>
    split
    · next v =>
      refine yields_guarded ?_
      cases c with
      | str => exact yields_map hasOnly_str
      | int => exact yields_map hasOnly_int
      | float =>
        unfold Conversion.apply
        dsimp only
        split
        · exact yields_ok (hasOnly_nan _)
        · exact yields_map hasOnly_float
      | bool => exact yields_ok (hasOnly_bool _)
      | len => exact yields_map fun n => hasOnly_int n
    · exact yields_refuse _
  · refine Yields.ite ?_ (yields_refuse _)
    unfold range
    split
    · exact yields_guarded (hrange _ _ _)
    · exact yields_guarded (hrange _ _ _)
    · exact yields_guarded (hrange _ _ _)
    · exact yields_refuse _

theorem hasOnly_literal (value : Literal) : Yields (HasOnly C) (literal value) := by
  cases value <;> first | exact yields_refuse _ | exact yields_ok (by simp)

/-! ## Evaluation

Of an expression only those parts count whose values can get into its own. -/

mutual

/-- The powers in an expression that its value can be or contain. Tests, keys, indices, and what is
compared, called or made a text of are left behind; so are the operands of a power. -/
def powers : Expr → List (Expr × Expr)
  | .binary _ left .pow right => [(left, right)]
  | .binary _ left _ right => powers left ++ powers right
  | .list _ items | .tuple _ items | .boolOp _ _ items => powersOfAll items
  | .dict _ items => powersOfEntries items
  | .ifExp _ _ body orElse => powers body ++ powers orElse
  | .subscript _ value _ => powers value
  | _ => []

def powersOfAll : List Expr → List (Expr × Expr)
  | [] => []
  | e :: rest => powers e ++ powersOfAll rest

def powersOfEntries : List DictItem → List (Expr × Expr)
  | [] => []
  | ⟨_, value⟩ :: rest => powers value ++ powersOfEntries rest

end

/-- An expression, to which some way leads, is a number; this is the double nearest to it. -/
def Measures (env : Env) (e : Expr) (x : Float) : Prop :=
  ∃ way v a, eval env way e = .ok v ∧ v.operand? = some a ∧ a.toFloat = .ok x

/-- A negative number and one that is not whole have this complex number as their power. -/
def IsRoot (env : Env) (left right : Expr) (re im : Float) : Prop :=
  ∃ x y, Measures env left x ∧ Measures env right y ∧ x < 0 ∧ Number.isWhole y = false ∧
    Number.power x y = .complex re im

/-- The complex numbers among some powers are all from a set. -/
def Covers (C : Float → Float → Prop) (env : Env) (ps : List (Expr × Expr)) : Prop :=
  ∀ p ∈ ps, ∀ re im, IsRoot env p.1 p.2 re im → C re im

theorem covers_append {env : Env} {ps qs : List (Expr × Expr)} :
    Covers C env (ps ++ qs) ↔ Covers C env ps ∧ Covers C env qs :=
  List.forall_mem_append

theorem hasOnly_power {env : Env} {way way' : List Nat} {left right : Expr}
    (hv : eval env way left = .ok v) (hw : eval env way' right = .ok w)
    (hroot : ∀ re im, IsRoot env left right re im → C re im) :
    Yields (HasOnly C) (binary .pow v w) := by
  intro u hu
  obtain ⟨a, b, ha, hb, hreal | ⟨re, im, x, y, rfl, hx, hy, hpower⟩⟩ := yields_power v w u hu
  · exact hreal.hasOnly
  · obtain ⟨-, hneg, hwhole⟩ := Number.power_eq_complex hpower
    exact (hasOnly_complex re im).mpr
      (hroot re im ⟨x, y, ⟨way, v, a, hv, ha, hx⟩, ⟨way', w, b, hw, hb, hy⟩, hneg, hwhole, hpower⟩)

section Eval

variable {env : Env}

mutual

/-- A complex number in the value of an expression is one of the environment or one of the
powers of the expression. -/
theorem hasOnly_eval (henv : ∀ f ∈ env, f.2.HasOnly C) (way : List Nat) :
    ∀ e, Covers C env (powers e) → Yields (HasOnly C) (eval env way e)
  | .constant _ value, _ => by
    rw [eval]
    exact hasOnly_literal value
  | .name _ id, _ => by
    rw [eval]
    split
    · next v hv => exact yields_ok (henv (id, v) (Fields.mem_of_get? hv))
    · exact yields_refuse _
  | .list _ items, h => by
    rw [eval]
    exact (hasOnly_evalItems henv way 0 items h).bind fun _ hitems =>
      yields_ok ((hasOnly_list _).mpr hitems)
  | .tuple _ items, h => by
    rw [eval]
    exact (hasOnly_evalItems henv way 0 items h).bind fun _ hitems =>
      yields_ok ((hasOnly_tuple _).mpr hitems)
  | .dict _ items, h => by
    rw [eval]
    refine (hasOnly_evalEntries henv way 0 items [] nofun h).bind fun _ hfields => yields_ok ?_
    exact (hasOnly_dict _).mpr hfields
  | .joined _ parts, _ => by
    rw [eval]
    exact yields_bind fun _ => yields_ok (hasOnly_str _)
  | .unary _ op operand, _ => by
    rw [eval]
    refine yields_bind fun v => ?_
    exact (hasOnly_unary op v).bind fun _ hresult => yields_ok (hresult.arising way)
  | .binary _ left op right, h => by
    rw [eval]
    intro u hu
    obtain ⟨v, hv, hu⟩ := bind_eq_ok.mp hu
    obtain ⟨w, hw, hu⟩ := bind_eq_ok.mp hu
    obtain ⟨result, hresult, hu⟩ := bind_eq_ok.mp hu
    obtain rfl := Except.ok.inj hu
    refine HasOnly.arising ?_ way
    -- a power is covered itself; other operations pass on what is in their operands
    by_cases hop : op = .pow
    · subst hop
      exact hasOnly_power hv hw (h (left, right) (by simp [powers])) result hresult
    · rw [powers.eq_2 _ _ _ _ hop, covers_append] at h
      have hleft := hasOnly_eval henv _ left h.1 v hv
      have hright := hasOnly_eval henv _ right h.2 w hw
      exact hasOnly_binary hop hleft hright result hresult
  | .boolOp _ _ [], _ => by
    rw [eval]
    exact yields_refuse _
  | .boolOp _ op (first :: rest), h => by
    rw [eval]
    rw [powers, powersOfAll, covers_append] at h
    refine (hasOnly_eval henv _ first h.1).bind fun v hv => ?_
    exact hasOnly_evalChain henv way 1 op v hv rest h.2
  | .compare _ left [⟨op, right⟩], _ => by
    rw [eval]
    refine yields_bind fun v => ?_
    exact yields_bind fun w => hasOnly_compare op v w
  | .compare _ _ [], _ | .compare _ _ (_ :: _ :: _), _ => by
    rw [eval]
    · exact yields_refuse _
    · simp
  | .ifExp _ test body orElse, h => by
    rw [eval]
    rw [powers, covers_append] at h
    refine yields_bind fun v => ?_
    exact (hasOnly_eval henv _ body h.1).ite (hasOnly_eval henv _ orElse h.2)
  | .subscript _ value index, h => by
    rw [eval]
    refine (hasOnly_eval henv _ value (by rwa [powers] at h)).bind fun v hv => ?_
    exact yields_bind fun w => hasOnly_subscript w hv
  | .call _ callee args [], _ => by
    cases callee
    case name =>
      rw [eval]
      refine yields_bind fun args => ?_
      exact (hasOnly_call _ args).bind fun _ hresult => yields_ok (hresult.arising way)
    all_goals
      rw [eval]
      · exact yields_refuse _
      · simp
  | .call _ _ _ (_ :: _), _ => by
    rw [eval]
    · exact yields_refuse _
    · simp
  | .named .., _ | .lambda .., _ | .set .., _ | .listComp .., _ | .setComp .., _ | .dictComp .., _
  | .generator .., _ | .await .., _ | .yield .., _ | .yieldFrom .., _ | .formatted .., _
  | .attribute .., _ | .starred .., _ | .slice .., _ => by
    rw [eval]
    · exact yields_refuse _
    all_goals simp

theorem hasOnly_evalItems (henv : ∀ f ∈ env, f.2.HasOnly C) (way : List Nat) (place : Nat) :
    ∀ items, Covers C env (powersOfAll items) →
    Yields (fun vs => ∀ v ∈ vs, v.HasOnly C) (evalItems env way place items)
  | [], _ => by
    rw [evalItems]
    exact yields_ok nofun
  | e :: rest, h => by
    rw [evalItems]
    rw [powersOfAll, covers_append] at h
    refine (hasOnly_eval henv _ e h.1).bind fun v hv => ?_
    refine (hasOnly_evalItems henv way _ rest h.2).bind fun vs hvs => ?_
    exact yields_ok (List.forall_mem_cons.mpr ⟨hv, hvs⟩)

theorem hasOnly_evalEntries (henv : ∀ f ∈ env, f.2.HasOnly C) (way : List Nat) (place : Nat) :
    ∀ items (fields : Fields Value), (∀ f ∈ fields, f.2.HasOnly C) →
    Covers C env (powersOfEntries items) →
    Yields (fun result => ∀ f ∈ result, f.2.HasOnly C) (evalEntries env way place items fields)
  | [], fields, hfields, _ => by
    rw [evalEntries]
    exact yields_ok hfields
  | ⟨none, value⟩ :: rest, fields, hfields, h => by
    rw [evalEntries]
    rw [powersOfEntries, covers_append] at h
    refine (hasOnly_eval henv _ value h.1).bind fun v hv => ?_
    split
    · rw [hasOnly_dict] at hv
      exact hasOnly_evalEntries henv way _ rest _ (Fields.forall_mem_merge hfields hv) h.2
    · exact yields_refuse _
  | ⟨some key, value⟩ :: rest, fields, hfields, h => by
    rw [evalEntries]
    rw [powersOfEntries, covers_append] at h
    refine yields_bind fun k => ?_
    split
    · next name =>
      refine (hasOnly_eval henv _ value h.1).bind fun v hv => ?_
      refine hasOnly_evalEntries henv way _ rest _ (fun f hf => ?_) h.2
      rcases Fields.mem_of_mem_insert hf with hf | rfl
      · exact hfields f hf
      · exact hv
    · exact yields_refuse _

theorem hasOnly_evalChain (henv : ∀ f ∈ env, f.2.HasOnly C) (way : List Nat) (place : Nat)
    (op : BoolOp) (v : Value) (hv : v.HasOnly C) : ∀ es, Covers C env (powersOfAll es) →
    Yields (HasOnly C) (evalChain env way place op v es)
  | [], _ => by
    rw [evalChain]
    exact yields_ok hv
  | e :: rest, h => by
    rw [evalChain]
    rw [powersOfAll, covers_append] at h
    refine (yields_ok hv).ite ((hasOnly_eval henv _ e h.1).bind fun w hw => ?_)
    exact hasOnly_evalChain henv way _ op w hw rest h.2

end

end Eval

/-! ## Constants

One statement after the other adds to the environment. -/

/-- The expressions whose values a statement at the top of a module gives to names. -/
def assigned : Stmt → List Expr
  | .assign _ _ value => [value]
  | .annAssign _ _ _ (some value) _ => [value]
  | _ => []

section Environment

variable {env env' : Env}

theorem hasOnly_bind {way : List Nat} {name : String} {value : Expr}
    (h : bind env way name value = .ok env') (henv : ∀ f ∈ env, f.2.HasOnly C)
    (hvalue : Covers C env (powers value)) : ∀ f ∈ env', f.2.HasOnly C := by
  unfold bind at h
  split at h
  · next v hv =>
    obtain rfl := Except.ok.inj h
    intro f hf
    rcases Fields.mem_of_mem_insert hf with hf | rfl
    · exact henv f hf
    · exact hasOnly_eval henv way value hvalue v hv
  · obtain rfl := Except.ok.inj h
    exact fun f hf => henv f (List.mem_of_mem_filter hf)
  · cases h

-- The environments between the targets of one statement differ, so the powers are
-- covered in all of them.
theorem hasOnly_bindTargets {value : Expr} {target : Nat} {targets : List Expr}
    (h : bindTargets value statement target targets env = .ok env')
    (henv : ∀ f ∈ env, f.2.HasOnly C)
    (hvalue : ∀ env, Covers C env (powers value)) : ∀ f ∈ env', f.2.HasOnly C := by
  induction targets generalizing target env with
  | nil =>
    obtain rfl := Except.ok.inj h
    exact henv
  | cons e rest ih =>
    cases e with
    | name x id =>
      obtain ⟨mid, hmid, h⟩ := bind_eq_ok.mp h
      exact ih h (hasOnly_bind hmid henv (hvalue env))
    | _ => exact ih h henv

/-- **The step.** The complex numbers in an environment after a statement are those before it and
the powers in the value that is assigned. -/
theorem hasOnly_update {s : Stmt} (h : update env statement s = .ok env')
    (henv : ∀ f ∈ env, f.2.HasOnly C)
    (hs : ∀ value ∈ assigned s, ∀ env, Covers C env (powers value)) :
    ∀ f ∈ env', f.2.HasOnly C := by
  have herase : ∀ name, ∀ f ∈ env.erase name, f.2.HasOnly C := fun name f hf =>
    henv f (List.mem_of_mem_filter hf)
  unfold update at h
  split at h
  · exact hasOnly_bindTargets h henv (hs _ (List.mem_singleton.mpr rfl))
  · obtain rfl := Except.ok.inj h
    exact herase _
  · exact hasOnly_bind h henv (hs _ (List.mem_singleton.mpr rfl) env)
  · obtain rfl := Except.ok.inj h
    exact herase _
  · obtain rfl := Except.ok.inj h
    exact herase _
  · obtain rfl := Except.ok.inj h
    exact henv

/-- **The run** over the statements of a module. -/
theorem hasOnly_updateAll {stmts : List Stmt} (h : updateAll env statement stmts = .ok env')
    (henv : ∀ f ∈ env, f.2.HasOnly C)
    (hs : ∀ s ∈ stmts, ∀ value ∈ assigned s, ∀ env, Covers C env (powers value)) :
    ∀ f ∈ env', f.2.HasOnly C := by
  induction stmts generalizing env statement with
  | nil =>
    obtain rfl := Except.ok.inj h
    exact henv
  | cons s rest ih =>
    obtain ⟨mid, hmid, h⟩ := bind_eq_ok.mp h
    have hmid' := hasOnly_update hmid henv (hs s List.mem_cons_self)
    exact ih h hmid' fun t ht => hs t (List.mem_cons_of_mem s ht)

end Environment

end Static

/-! ## Writing

Complex numbers are all that is not supported. -/

namespace Json

open Value

theorem intText_ne_unsupported (n : Int) (kind : String) :
    intText n ≠ .error (.unsupported kind) := by
  unfold intText
  split
  · exact nofun
  · exact nofun

mutual

/-- The writer knows the kinds of all values but one. -/
theorem write_eq_unsupported {kind : String} (level : Nat) :
    ∀ v, write level v = .error (.unsupported kind) →
    ∃ re im, .complex re im ∈ v.nodes
  | .list items | .tuple items => by
    intro h
    rw [write] at h
    rcases bind_eq_error.mp h with h | ⟨_, _, h⟩
    · obtain ⟨re, im, hmem⟩ := writeItems_eq_unsupported _ items h
      exact ⟨re, im, List.mem_cons_of_mem _ hmem⟩
    · cases h
  | .dict fields => by
    intro h
    rw [write] at h
    rcases bind_eq_error.mp h with h | ⟨_, _, h⟩
    · obtain ⟨re, im, hmem⟩ := writeFields_eq_unsupported _ fields h
      exact ⟨re, im, List.mem_cons_of_mem _ hmem⟩
    · cases h
  | .complex re im => fun _ => ⟨re, im, by simp [nodes]⟩
  | .int n => by
    intro h
    rw [write] at h
    exact absurd h (intText_ne_unsupported n kind)
  | .null | .bool _ | .float _ | .nan _ | .str _ => by
    intro h
    rw [write] at h
    cases h

theorem writeItems_eq_unsupported {kind : String} (level : Nat) : ∀ items,
    writeItems level items = .error (.unsupported kind) →
    ∃ re im, .complex re im ∈ nodesOfItems items
  | [] => by
    intro h
    rw [writeItems] at h
    cases h
  | v :: rest => by
    intro h
    rw [writeItems] at h
    rcases bind_eq_error.mp h with h | ⟨_, _, h⟩
    · obtain ⟨re, im, hmem⟩ := write_eq_unsupported _ v h
      exact ⟨re, im, List.mem_append_left _ hmem⟩
    rcases bind_eq_error.mp h with h | ⟨_, _, h⟩
    · obtain ⟨re, im, hmem⟩ := writeItems_eq_unsupported _ rest h
      exact ⟨re, im, List.mem_append_right _ hmem⟩
    · cases h

theorem writeFields_eq_unsupported {kind : String} (level : Nat) : ∀ fields,
    writeFields level fields = .error (.unsupported kind) →
    ∃ re im, .complex re im ∈ nodesOfFields fields
  | [] => by
    intro h
    rw [writeFields] at h
    cases h
  | (_, v) :: rest => by
    intro h
    rw [writeFields] at h
    rcases bind_eq_error.mp h with h | ⟨_, _, h⟩
    · obtain ⟨re, im, hmem⟩ := write_eq_unsupported _ v h
      exact ⟨re, im, List.mem_append_left _ hmem⟩
    rcases bind_eq_error.mp h with h | ⟨_, _, h⟩
    · obtain ⟨re, im, hmem⟩ := writeFields_eq_unsupported _ rest h
      exact ⟨re, im, List.mem_append_right _ hmem⟩
    · cases h

end

mutual

theorem hasOnly_of_write {text : String} (level : Nat) : ∀ v, write level v = .ok text →
    v.HasOnly fun _ _ => False
  | .list items => by
    intro h
    rw [write] at h
    obtain ⟨parts, hparts, -⟩ := bind_eq_ok.mp h
    exact (hasOnly_list _).mpr (hasOnly_of_writeItems _ items hparts)
  | .tuple items => by
    intro h
    rw [write] at h
    obtain ⟨parts, hparts, -⟩ := bind_eq_ok.mp h
    exact (hasOnly_tuple _).mpr (hasOnly_of_writeItems _ items hparts)
  | .dict fields => by
    intro h
    rw [write] at h
    obtain ⟨parts, hparts, -⟩ := bind_eq_ok.mp h
    exact (hasOnly_dict _).mpr (hasOnly_of_writeFields _ fields hparts)
  | .complex re im => by
    intro h
    rw [write] at h
    cases h
  | .null | .bool _ | .int _ | .float _ | .nan _ | .str _ => by simp

theorem hasOnly_of_writeItems {texts : List String} (level : Nat) :
    ∀ items, writeItems level items = .ok texts →
    ∀ v ∈ items, v.HasOnly fun _ _ => False
  | [] => by simp
  | v :: rest => by
    intro h
    rw [writeItems] at h
    obtain ⟨text, htext, h⟩ := bind_eq_ok.mp h
    obtain ⟨texts, htexts, -⟩ := bind_eq_ok.mp h
    exact List.forall_mem_cons.mpr ⟨hasOnly_of_write _ v htext, hasOnly_of_writeItems _ rest htexts⟩

theorem hasOnly_of_writeFields {texts : List String} (level : Nat) :
    ∀ fields, writeFields level fields = .ok texts →
    ∀ f ∈ fields, f.2.HasOnly fun _ _ => False
  | [] => by simp
  | (_, v) :: rest => by
    intro h
    rw [writeFields] at h
    obtain ⟨text, htext, h⟩ := bind_eq_ok.mp h
    obtain ⟨texts, htexts, -⟩ := bind_eq_ok.mp h
    exact List.forall_mem_cons.mpr ⟨hasOnly_of_write _ v htext,
      hasOnly_of_writeFields _ rest htexts⟩

end

end Json

/-! ## Arguments -/

namespace Static

open Script

/-- A complex number is a power in an expression, or in what a module assigns to a
name at its top level. -/
def Arises (m : Module) (env : Env) (e : Expr) (re im : Float) : Prop :=
  (∃ p ∈ powers e, IsRoot env p.1 p.2 re im) ∨
    ∃ s ∈ m.body, ∃ value ∈ assigned s, ∃ p ∈ powers value, ∃ env', IsRoot env' p.1 p.2 re im

theorem hasOnly_evalIn {m : Module} {env : Env} {e : Expr} (henv : environment m = .ok env) :
    Yields (Value.HasOnly (Arises m env e)) (evalIn env e) := by
  have hconstants : ∀ f ∈ env, f.2.HasOnly (Arises m env e) := by
    refine hasOnly_updateAll henv nofun fun s hs value hvalue env' p hp re im hroot => ?_
    exact .inr ⟨s, hs, value, hvalue, p, hp, env', hroot⟩
  exact hasOnly_eval hconstants [1] e fun p hp re im hroot => .inl ⟨p, hp, hroot⟩

theorem resolve_eq_ok {scope : Scope} {env : Env} {key : String} {e : Expr} {v : Value}
    (h : resolve scope env key e = .ok v) : ∃ u, evalIn env e = .ok u ∧ v = u.safe := by
  unfold resolve at h
  split at h
  · next u hu => exact ⟨u, hu, (Except.ok.inj h).symm⟩
  · unfold complainAt complain at h
    split at h
    · cases h
    · cases h
  · cases h

/-- The power of a number with a minus sign to another number, both written down. -/
def writtenPower (x y : Float) : Expr :=
  .binary default (.unary default .minus (.constant default (.float x))) .pow
    (.constant default (.float y))

theorem eval_writtenPower {x y re im : Float} (h : Number.power (-x) y = .complex re im) (env : Env)
    (way : List Nat) : eval env way (writtenPower x y) = .ok (.complex re im) := by
  obtain ⟨hnumber, -⟩ := Number.power_eq_complex h
  have hbase : (Value.float (-x)).arising (0 :: way) = .float (-x) := by
    rw [Value.arising, if_neg]
    exact Bool.eq_false_iff.mp hnumber
  have hpower : binary .pow (.float (-x)) (.float y) = .ok (.complex re im) := by
    show guarded _ _ (Number.Operand.floatPow (-x) y) = _
    rw [Number.Operand.floatPow, h]
    rfl
  rw [writtenPower, eval, eval, eval, eval]
  show (binary .pow ((Value.float (-x)).arising (0 :: way)) (.float y) >>= fun result =>
    .ok (result.arising way)) = _
  rw [hbase, hpower]
  rfl

/-- **What the value of an argument is made of.** Let the constants of a module be known. Every
part of the value of an argument, at any depth, is one that documents have, or a complex number.
The complex numbers are powers of negative numbers to numbers that are not whole, and such a
power stands in the expression or in an assignment of the module. A value without them is never
refused for the kind of one of its parts when it is written, and a value with them is not
written at all. They do come: every complex power of two numbers that are written down is the
value of its expression. -/
theorem resolved_values_safe_but_roots {m : Module} {env : Env} (henv : environment m = .ok env)
    (scope : Scope) (key : String) :
    (∀ e v, resolve scope env key e = .ok v →
      (∀ w ∈ v.nodes, w.isDocument = true ∨ ∃ re im, w = .complex re im ∧ Arises m env e re im) ∧
      (v.IsSafe → ∀ kind, Json.render v ≠ .error (.unsupported kind)) ∧
      (¬ v.IsSafe → ∀ text, Json.render v ≠ .ok text)) ∧
    ∀ x y re im, Number.power (-x) y = .complex re im →
      resolve scope env key (writtenPower x y) = .ok (.complex re im) := by
  refine ⟨fun e v h => ?_, ?_⟩
  · have hparts : ∀ w ∈ v.nodes, w.isDocument = true ∨ ∃ re im, w = .complex re im ∧
      Arises m env e re im := by
      intro w hw
      obtain ⟨u, hu, rfl⟩ := resolve_eq_ok h
      rcases Value.nodes_safe u hw with hdocument | ⟨re, im, rfl, hmem⟩
      · exact .inl hdocument
      · exact .inr ⟨re, im, rfl, hasOnly_evalIn henv u hu re im hmem⟩
    refine ⟨hparts, fun hsafe kind hrender => ?_,
      fun hunsafe text hrender => hunsafe fun w hw => ?_⟩
    · obtain ⟨re, im, hmem⟩ := Json.write_eq_unsupported 0 v hrender
      exact absurd (hsafe _ hmem) (by simp [Value.isDocument])
    · rcases hparts w hw with hdocument | ⟨re, im, rfl, -⟩
      · exact hdocument
      · exact (Json.hasOnly_of_write 0 v hrender re im hw).elim
  · intro x y re im hpower
    rw [resolve, evalIn, eval_writtenPower hpower]
    rfl

/-! ### Tuples in a constant -/

/-- A module that assigns a tuple with a tuple in it to a name. -/
def tupleModule : Module :=
  ⟨[.assign default [.name default "X"]
    (.tuple default [.constant default (.int 1),
      .tuple default [.constant default (.str "a" false)]])]⟩

/-- A dict with that name, and with a power that is no complex number. -/
def tupleArgument : Expr :=
  .dict default [⟨some (.constant default (.str "x" false)), .name default "X"⟩,
    ⟨some (.constant default (.str "y" false)),
      .binary default (.unary default .minus (.constant default (.int 2))) .pow
      (.constant default (.int 3))⟩]

theorem resolved_values_safe_but_roots_tuple :
    environment tupleModule = .ok [("X", .tuple [.int 1, .tuple [.str "a"]])] ∧
      resolve {} [("X", .tuple [.int 1, .tuple [.str "a"]])] "options" tupleArgument =
        .ok (.dict [("x", .list [.int 1, .list [.str "a"]]), ("y", .int (-8))]) ∧
      ∀ kind, Json.render (.dict [("x", .list [.int 1, .list [.str "a"]]), ("y", .int (-8))]) ≠
        .error (.unsupported kind) := by
  have henv : environment tupleModule = .ok [("X", .tuple [.int 1, .tuple [.str "a"]])] := by rfl
  have hvalue : resolve {} [("X", .tuple [.int 1, .tuple [.str "a"]])] "options" tupleArgument =
      .ok (.dict [("x", .list [.int 1, .list [.str "a"]]), ("y", .int (-8))]) := by rfl
  refine ⟨henv, hvalue, ?_⟩
  exact ((resolved_values_safe_but_roots henv {} "options").1 _ _ hvalue).2.1 (by decide)

end Static

end Addon
