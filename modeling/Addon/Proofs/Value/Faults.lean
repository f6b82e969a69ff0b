import Addon.Proofs.Attempt
import Addon.Static.Operation

/-!
# Faults — what can go wrong in each operation on values

One statement for each operation, about all the faults that it can end in. Arithmetic only
overflows, divides by zero or runs out of memory; the text of a value can only have too many digits;
orders and memberships fail for want of the right type; formats have faults of their own.
-/

namespace Addon

namespace Number.Operand

/-! ## Arithmetic -/

theorem failsOnly_toFloat (a : Operand) : FailsOnly (· = .overflow) a.toFloat := by
  cases a with
  | int n =>
    unfold toFloat
    dsimp only
    split
    · exact failsOnly_ok _
    · exact failsOnly_error rfl
  | float x => exact failsOnly_ok x

/-- An operation on integers never fails; on doubles it fails when an integer has no double. -/
theorem failsOnly_lift (ints : Int → Int → Int) (floats : Float → Float → Float) (a b : Operand) :
    FailsOnly (· = .overflow) (lift ints floats a b) := by
  unfold lift
  split
  · exact failsOnly_ok _
  · refine (failsOnly_toFloat a).bind fun x => (failsOnly_toFloat b).bind fun y => ?_
    exact failsOnly_ok _

/-- The faults of a division. -/
def IsQuotientFault (f : Fault) : Prop :=
  f = .divisionByZero ∨ f = .overflow

/-- A division of doubles, whatever is done with the two. -/
theorem failsOnly_checkedDivision (a b : Operand) (quotient : Float → Float → Float) :
    FailsOnly IsQuotientFault (do
      let x ← a.toFloat
      let y ← b.toFloat
      if y == 0 then throw .divisionByZero else return .float (quotient x y) :
        Except Fault Value) := by
  refine ((failsOnly_toFloat a).mono fun f hf => .inr hf).bind fun x => ?_
  refine ((failsOnly_toFloat b).mono fun f hf => .inr hf).bind fun y => ?_
  exact (failsOnly_error (.inl rfl)).ite (failsOnly_ok _)

theorem failsOnly_div (a b : Operand) : FailsOnly IsQuotientFault (a.div b) := by
  unfold div
  split
  · refine (failsOnly_error (.inl rfl)).ite ?_
    split
    · exact failsOnly_ok _
    · exact failsOnly_error (.inr rfl)
  · exact failsOnly_checkedDivision a b _

theorem failsOnly_floorDiv (a b : Operand) : FailsOnly IsQuotientFault (a.floorDiv b) := by
  unfold floorDiv
  split
  · exact (failsOnly_error (.inl rfl)).ite (failsOnly_ok _)
  · exact failsOnly_checkedDivision a b _

theorem failsOnly_mod (a b : Operand) : FailsOnly IsQuotientFault (a.mod b) := by
  unfold mod
  split
  · exact (failsOnly_error (.inl rfl)).ite (failsOnly_ok _)
  · exact failsOnly_checkedDivision a b _

/-- The faults of a power. -/
def IsPowerFault (f : Fault) : Prop :=
  f = .divisionByZero ∨ f = .overflow ∨ f = .outOfMemory

theorem failsOnly_floatPow (x y : Float) : FailsOnly IsPowerFault (floatPow x y) := by
  unfold floatPow
  split
  · exact failsOnly_ok _
  · exact failsOnly_ok _
  · exact failsOnly_error (.inl rfl)
  · exact failsOnly_error (.inr (.inl rfl))

theorem failsOnly_intPow (n : Int) (m : Nat) : FailsOnly IsPowerFault (intPow n m) := by
  unfold intPow
  exact (failsOnly_ok _).ite ((failsOnly_error (.inr (.inr rfl))).ite (failsOnly_ok _))

theorem failsOnly_pow (a b : Operand) : FailsOnly IsPowerFault (a.pow b) := by
  have hfloats : ∀ a b : Operand, FailsOnly IsPowerFault (do
      let x ← a.toFloat
      let y ← b.toFloat
      floatPow x y) := by
    intro a b
    refine ((failsOnly_toFloat a).mono fun f hf => .inr (.inl hf)).bind fun x => ?_
    exact ((failsOnly_toFloat b).mono fun f hf => .inr (.inl hf)).bind fun y =>
      failsOnly_floatPow x y
  unfold pow
  split
  · exact ((failsOnly_intPow _ _).map _).ite (hfloats _ _)
  · exact hfloats a b

end Number.Operand

namespace Value

theorem failsOnly_repeated {α : Type} (tooLong : Fault) (items : List α) (count : Int) :
    FailsOnly (fun f => f = .overflow ∨ f = tooLong ∨ f = .outOfMemory)
      (repeated tooLong items count) := by
  unfold repeated
  refine (failsOnly_error (.inl rfl)).ite ((failsOnly_ok _).ite ?_)
  refine (failsOnly_error (.inr (.inl rfl))).ite ?_
  exact (failsOnly_error (.inr (.inr rfl))).ite (failsOnly_ok _)

theorem failsOnly_range (start stop step : Int) :
    FailsOnly (fun f => f = .zeroStep ∨ f = .overflow ∨
      f = .outOfMemory) (range start stop step) := by
  unfold range
  refine (failsOnly_error (.inl rfl)).ite ?_
  refine (failsOnly_error (.inr (.inl rfl))).ite ?_
  exact (failsOnly_error (.inr (.inr rfl))).ite (failsOnly_ok _)

/-! ## Texts -/

theorem failsOnly_intText (n : Int) : FailsOnly (· = .tooManyDigits) (intText n) := by
  unfold intText
  split
  · exact failsOnly_ok _
  · exact failsOnly_error rfl

mutual

theorem failsOnly_shown : ∀ v : Value, FailsOnly (· = .tooManyDigits) v.shown
  | .null | .bool _ | .float _ | .nan _ | .complex .. | .str _ => failsOnly_ok _
  | .int n => failsOnly_intText n
  | .list items => (failsOnly_shownItems items).bind fun _ => failsOnly_ok _
  | .tuple items => (failsOnly_shownItems items).bind fun _ => failsOnly_ok _
  | .dict fields => (failsOnly_shownFields fields).bind fun _ => failsOnly_ok _

theorem failsOnly_shownItems :
    ∀ items : List Value, FailsOnly (· = .tooManyDigits) (shownItems items)
  | [] => failsOnly_ok _
  | v :: rest =>
    (failsOnly_shown v).bind fun _ => (failsOnly_shownItems rest).bind fun _ => failsOnly_ok _

theorem failsOnly_shownFields :
    ∀ fields : List (String × Value), FailsOnly (· = .tooManyDigits) (shownFields fields)
  | [] => failsOnly_ok _
  | (_, v) :: rest =>
    (failsOnly_shown v).bind fun _ => (failsOnly_shownFields rest).bind fun _ => failsOnly_ok _

end

theorem failsOnly_text (v : Value) : FailsOnly (· = .tooManyDigits) v.text := by
  unfold text
  split
  · exact failsOnly_ok _
  · exact failsOnly_shown _

/-! ## Orders and members -/

mutual

theorem failsOnly_related (r : Relation) :
    ∀ v w : Value, FailsOnly (fun f => f.kind = .type) (related r v w) := by
  intro v w
  unfold related
  split
  · exact failsOnly_ok _
  · exact failsOnly_relatedItems r _ _
  · exact failsOnly_relatedItems r _ _
  · split
    · split
      · exact failsOnly_ok _
      · exact failsOnly_error rfl
    · exact failsOnly_error rfl

theorem failsOnly_relatedItems (r : Relation) :
    ∀ items others : List Value, FailsOnly (fun f => f.kind = .type) (relatedItems r items others)
  | v :: rest, w :: others => by
    rw [relatedItems]
    exact (failsOnly_relatedItems r rest others).ite (failsOnly_related r v w)
  | [], [] => failsOnly_ok _
  | [], _ :: _ => failsOnly_ok _
  | _ :: _, [] => failsOnly_ok _

end

theorem failsOnly_isIn (v w : Value) : FailsOnly (fun f => f.kind = .type) (v.isIn w) := by
  unfold isIn
  split
  · exact failsOnly_ok _
  · exact failsOnly_ok _
  · split
    · exact failsOnly_ok _
    · split
      · exact failsOnly_error rfl
      · exact failsOnly_ok _
  · split
    · exact failsOnly_ok _
    · exact failsOnly_error rfl
  · exact failsOnly_error rfl

/-! ## Parts -/

theorem failsOnly_itemAt {α : Type} (container : String) (items : List α) (n : Int) :
    FailsOnly (fun f => f.kind = .index) (itemAt container items n) := by
  unfold itemAt
  refine FailsOnly.ite (failsOnly_error rfl) (FailsOnly.ite (failsOnly_error rfl) ?_)
  split
  · exact failsOnly_ok _
  · exact failsOnly_error rfl

/-- The faults of taking a part out. The text of a missing key can have too many digits. -/
def IsSubscriptFault (f : Fault) : Prop :=
  f.kind = .index ∨ f.kind = .type ∨ f.kind = .key ∨ f = .tooManyDigits

theorem failsOnly_subscript (container index : Value) :
    FailsOnly IsSubscriptFault (subscript container index) := by
  have hitem {α : Type} (container : String) (items : List α) (n : Int) :
      FailsOnly IsSubscriptFault (itemAt container items n) :=
    (failsOnly_itemAt container items n).mono fun f hf => .inl hf
  unfold subscript
  split
  · split
    · exact hitem _ _ _
    · exact failsOnly_error (.inr (.inl rfl))
  · split
    · exact hitem _ _ _
    · exact failsOnly_error (.inr (.inl rfl))
  · split
    · exact (hitem _ _ _).bind fun _ => failsOnly_ok _
    · exact failsOnly_error (.inr (.inl rfl))
  · dsimp only
    split
    · exact failsOnly_ok _
    · exact failsOnly_error (.inr (.inl rfl))
    · refine ((failsOnly_shown index).mono fun f hf => .inr (.inr (.inr hf))).bind fun _ => ?_
      exact failsOnly_error (.inr (.inr (.inl rfl)))
  · exact failsOnly_error (.inr (.inl rfl))

/-! ## Conversions -/

/-- The faults of a conversion. -/
def IsConversionFault (f : Fault) : Prop :=
  f.kind = .type ∨ f.kind = .value ∨ f = .overflow

theorem failsOnly_intOfText (text : String) : FailsOnly IsConversionFault (intOfText text) := by
  unfold intOfText
  dsimp only
  refine (failsOnly_error (.inr (.inl rfl))).ite ((failsOnly_error (.inr (.inl rfl))).ite ?_)
  exact (failsOnly_ok _).ite (failsOnly_error (.inr (.inl rfl)))

theorem failsOnly_asInt (v : Value) : FailsOnly IsConversionFault v.asInt := by
  unfold asInt
  split
  · exact failsOnly_ok _
  · exact failsOnly_ok _
  · split
    · exact failsOnly_error (.inr (.inl rfl))
    · exact failsOnly_error (.inr (.inr rfl))
    · exact failsOnly_ok _
  · exact failsOnly_error (.inr (.inl rfl))
  · exact failsOnly_intOfText _
  · exact failsOnly_error (.inl rfl)

theorem failsOnly_asFloat (v : Value) : FailsOnly IsConversionFault v.asFloat := by
  unfold asFloat
  split
  · exact failsOnly_ok _
  · exact (Number.Operand.failsOnly_toFloat _).mono fun f hf => .inr (.inr hf)
  · exact failsOnly_ok _
  · exact failsOnly_ok _
  · unfold floatOfText
    split
    · exact failsOnly_ok _
    · exact failsOnly_error (.inr (.inl rfl))
  · exact failsOnly_error (.inl rfl)

theorem failsOnly_length (v : Value) : FailsOnly IsConversionFault v.length := by
  unfold length
  split
  all_goals first
    | exact failsOnly_ok _
    | exact failsOnly_error (.inl rfl)

/-! ## Formats -/

/-- The faults of a format. -/
def IsFormatFault (f : Fault) : Prop :=
  (∃ g, f = .format g) ∨ (∃ kind, f = .noFormat kind) ∨ f = .tooManyDigits ∨ f = .overflow ∨
    f = .outOfMemory

theorem isFormatFault_format (g : FormatFault) : IsFormatFault (.format g) :=
  .inl ⟨g, rfl⟩

theorem failsOnly_leadingNumber (cs : List Char) : FailsOnly IsFormatFault (leadingNumber cs) := by
  suffices h : ∀ seen, FailsOnly IsFormatFault (leadingNumber.go seen cs) from h none
  induction cs with
  | nil => exact fun _ => failsOnly_ok _
  | cons c rest ih =>
    intro seen
    unfold leadingNumber.go
    split
    · exact failsOnly_ok _
    · exact (failsOnly_error (isFormatFault_format _)).ite (ih _)

theorem failsOnly_takeSeparator (cs : List Char) : FailsOnly IsFormatFault (takeSeparator cs) := by
  unfold takeSeparator
  dsimp only
  refine (failsOnly_error (isFormatFault_format _)).ite ?_
  exact (failsOnly_error (isFormatFault_format _)).ite (failsOnly_ok _)

theorem failsOnly_takePrecision (cs : List Char) : FailsOnly IsFormatFault (takePrecision cs) := by
  unfold takePrecision
  split
  · refine (failsOnly_leadingNumber _).bind fun found => ?_
    split
    · exact failsOnly_error (isFormatFault_format _)
    · exact failsOnly_ok _
  · exact failsOnly_ok _

/-- The last check of a format, whatever is made of the format then. -/
theorem failsOnly_checkSeparator {α : Type} (separator code : Option Char) (a : α) :
    FailsOnly IsFormatFault (do
      match separator with
      | some s => if !allowsSeparator s code then throw (.format (.separatorWith s (code.getD ' ')))
      | none => pure ()
      return a : Except Fault α) := by
  dsimp only
  split
  · exact ((failsOnly_error (isFormatFault_format _)).bind fun _ =>
      failsOnly_ok a).ite (failsOnly_ok a)
  · exact failsOnly_ok a

theorem failsOnly_parseSpec (spec kind : String) (implied : Option Char) (default : Alignment) :
    FailsOnly IsFormatFault (parseSpec spec kind implied default) := by
  unfold parseSpec
  dsimp only
  refine (failsOnly_leadingNumber _).bind fun width => ?_
  refine (failsOnly_takeSeparator _).bind fun separator => ?_
  refine (failsOnly_takePrecision _).bind fun precision => ?_
  split
  · exact (failsOnly_ok _).bind fun code => failsOnly_checkSeparator separator.1 code _
  · exact (failsOnly_ok _).bind fun code => failsOnly_checkSeparator separator.1 code _
  · refine (failsOnly_error (isFormatFault_format _)).bind fun code => ?_
    exact failsOnly_checkSeparator separator.1 code _

theorem failsOnly_checkWidth (spec : FormatSpec) : FailsOnly IsFormatFault (checkWidth spec) := by
  unfold checkWidth
  exact (failsOnly_error (.inr (.inr (.inr (.inr rfl))))).ite (failsOnly_ok _)

theorem failsOnly_formatText (spec text : String) :
    FailsOnly IsFormatFault (formatText spec text) := by
  refine (failsOnly_parseSpec _ _ _ _).bind fun f => ?_
  split
  · split
    · exact failsOnly_error (isFormatFault_format _)
    · exact failsOnly_error (isFormatFault_format _)
    · refine (failsOnly_error (isFormatFault_format _)).ite ?_
      refine (failsOnly_error (isFormatFault_format _)).ite ?_
      refine (failsOnly_error (isFormatFault_format _)).ite ?_
      exact (failsOnly_checkWidth f).bind fun _ => failsOnly_ok _
  · exact failsOnly_error (isFormatFault_format _)

theorem failsOnly_placeFloat (f : FormatSpec) (x : Float) :
    FailsOnly IsFormatFault (placeFloat f x) := by
  unfold placeFloat
  dsimp only
  have hrest : ∀ cs, FailsOnly IsFormatFault (do
      checkWidth f
      return cs : Except Fault String) :=
    fun cs => (failsOnly_checkWidth f).bind fun _ => failsOnly_ok cs
  exact ((failsOnly_error (isFormatFault_format _)).bind fun _ => hrest _).ite (hrest _)

theorem failsOnly_formatFloat (spec : String) (x : Float) :
    FailsOnly IsFormatFault (formatFloat spec x) := by
  refine (failsOnly_parseSpec _ _ _ _).bind fun f => ?_
  split
  · exact (failsOnly_placeFloat f x).ite (failsOnly_error (isFormatFault_format _))
  · exact failsOnly_placeFloat f x

theorem failsOnly_baseDigits (code : Char) (n : Nat) :
    FailsOnly IsFormatFault (baseDigits code n) := by
  unfold baseDigits
  split
  · exact failsOnly_ok _
  · exact failsOnly_ok _
  · exact failsOnly_ok _
  · exact failsOnly_ok _
  · refine ((failsOnly_intText n).mono fun f hf => .inr (.inr (.inl hf))).bind fun _ => ?_
    exact failsOnly_ok _

theorem failsOnly_formatCharacter (f : FormatSpec) (n : Int) :
    FailsOnly IsFormatFault (formatCharacter f n) := by
  unfold formatCharacter
  refine (failsOnly_error (isFormatFault_format _)).ite ?_
  refine (failsOnly_error (isFormatFault_format _)).ite ?_
  refine (failsOnly_error (.inr (.inr (.inr (.inl rfl))))).ite ?_
  exact (failsOnly_checkWidth f).bind fun _ => failsOnly_ok _

theorem failsOnly_formatInt (spec kind : String) (n : Int) :
    FailsOnly IsFormatFault (formatInt spec kind n) := by
  refine (failsOnly_parseSpec _ _ _ _).bind fun f => ?_
  dsimp only
  refine FailsOnly.ite ?_ (FailsOnly.ite ?_ (failsOnly_error (isFormatFault_format _)))
  · refine (failsOnly_error (isFormatFault_format _)).ite ?_
    refine (failsOnly_error (isFormatFault_format _)).ite ?_
    refine (failsOnly_formatCharacter f n).ite ?_
    refine (failsOnly_baseDigits _ _).bind fun _ => ?_
    exact (failsOnly_checkWidth f).bind fun _ => failsOnly_ok _
  · refine ((Number.Operand.failsOnly_toFloat _).mono fun f hf => ?_).bind fun x =>
      failsOnly_placeFloat f x
    exact .inr (.inr (.inr (.inl hf)))

theorem failsOnly_formatComplex (spec : String) (re im : Float) :
    FailsOnly IsFormatFault (formatComplex spec re im) := by
  refine (failsOnly_parseSpec _ _ _ _).bind fun f => ?_
  have hrest : ∀ text : String, FailsOnly IsFormatFault (do
      if f.precision.any fun p => maxPrecision < p then throw (.format .precisionTooBig)
      else if f.fill = '0' then throw (.format .zeroPaddedComplex)
      else if f.align = .inside then throw (.format .insideAlignedComplex)
      else
        checkWidth f
        return text : Except Fault String) := by
    intro text
    refine (failsOnly_error (isFormatFault_format _)).ite ?_
    refine (failsOnly_error (isFormatFault_format _)).ite ?_
    refine (failsOnly_error (isFormatFault_format _)).ite ?_
    exact (failsOnly_checkWidth f).bind fun _ => failsOnly_ok text
  dsimp only
  split
  · exact ((failsOnly_error (isFormatFault_format _)).bind fun _ => hrest _).ite (hrest _)
  · exact hrest _

theorem failsOnly_format (v : Value) (spec : String) : FailsOnly IsFormatFault (v.format spec) := by
  unfold format
  refine ((failsOnly_text v).mono fun f hf => .inr (.inr (.inl hf))).ite ?_
  split
  · exact failsOnly_formatText _ _
  · exact failsOnly_formatInt _ _ _
  · exact failsOnly_formatInt _ _ _
  · exact failsOnly_formatFloat _ _
  · exact failsOnly_formatFloat _ _
  · exact failsOnly_formatComplex _ _ _
  all_goals exact failsOnly_error (.inr (.inl ⟨_, rfl⟩))

end Value

end Addon
