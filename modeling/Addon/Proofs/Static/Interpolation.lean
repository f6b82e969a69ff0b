import Addon.Static.Environment

/-!
# Interpolation — what becomes of replacement fields

A replacement field has a value, a conversion and a format, of which the last two may be absent. The
rule is that the conversion is applied first and that the format is then applied to what it gives;
an absent format is an empty one. The evaluation follows the rule only in part: where there is a
format, the conversion is passed over, and the conversion to ASCII is taken for the plain one. What
it gives is what the rule gives for the string in which this is written out.

## The architecture

* **`replaced`** — the rule for one field. **`renderParts`** — the rule for all parts of a string,
  with the fields in formats.
* **`settledParts`** — the string with those conversions that the evaluation heeds.
* **`evalParts_eq_render`** — the evaluation of a string is the rule for the settled one, by mutual
  induction along its parts and the formats in them.
* **`HeedsParts`** — the strings that are settled as they are.
-/

namespace Addon.Static

open Script

/-! ## The rule -/

/-- A text with escapes for all characters beyond ASCII. -/
def asciiText (text : String) : String :=
  String.ofList (text.toList.flatMap fun c => if c.toNat < 128 then [c] else Text.escapeChar c)

/-- What a conversion makes of a value. -/
def converted (v : Value) : Option Script.Conversion → Except Fault Value
  | none => .ok v
  | some .str => v.text.map .str
  | some .repr => v.shown.map .str
  | some .ascii => v.shown.map fun text => .str (asciiText text)

/-- **The rule for a field.** The conversion comes first, then the format. -/
def replaced (v : Value) (conversion : Option Script.Conversion) (spec : String) :
    Except Fault String := do
  let w ← converted v conversion
  w.format spec

mutual

/-- The texts of the parts of a string from a place on, by the rule. An absent
format is an empty one. -/
def renderParts (env : Env) (way : List Nat) (place : Nat) : List Expr → Eval (List String)
  | [] => return []
  | .constant _ (.str text _) :: rest => do
    let texts ← renderParts env way (place + 1) rest
    return text :: texts
  | .formatted _ value conversion none :: rest => do
    let v ← eval env (0 :: place :: way) value
    let text ← unguarded (replaced v conversion "")
    let texts ← renderParts env way (place + 1) rest
    return text :: texts
  | .formatted _ value conversion (some spec) :: rest => do
    let v ← eval env (0 :: place :: way) value
    let spec ← renderSpec env (1 :: place :: way) spec
    let text ← unguarded (replaced v conversion spec)
    let texts ← renderParts env way (place + 1) rest
    return text :: texts
  | _ :: _ => refuse .fieldNoPart

/-- The format of a field by the rule: a string with fields of its own. -/
def renderSpec (env : Env) (way : List Nat) : Expr → Eval String
  | .joined _ parts => do
    let texts ← renderParts env way 0 parts
    return String.join texts
  | e => do
    let v ← eval env way e
    unguarded v.text

end

/-- The value of a string with fields, by the rule. -/
def render (env : Env) (way : List Nat) (parts : List Expr) : Eval Value := do
  let texts ← renderParts env way 0 parts
  return .str (String.join texts)

/-! ## What is heeded -/

/-- The conversion that is heeded where there is no format: the plain one in
place of that to ASCII. -/
def settledConversion (conversion : Option Script.Conversion) : Option Script.Conversion :=
  if conversion = some .ascii then some .str else conversion

mutual

/-- The parts of a string with the conversions that the evaluation heeds.
Before a format it is none. -/
def settledParts : List Expr → List Expr
  | [] => []
  | .formatted x value conversion none :: rest =>
    .formatted x value (settledConversion conversion) none :: settledParts rest
  | .formatted x value _ (some spec) :: rest =>
    .formatted x value none (some (settledSpec spec)) :: settledParts rest
  | e :: rest => e :: settledParts rest

def settledSpec : Expr → Expr
  | .joined x parts => .joined x (settledParts parts)
  | e => e

end

theorem format_empty (v : Value) : v.format "" = v.text :=
  if_pos rfl

/-- A field with a format: the rule without a conversion. -/
theorem fieldText_some (v : Value) (conversion : Option Script.Conversion) (spec : String) :
    fieldText v conversion (some spec) = unguarded (replaced v none spec) := by
  cases conversion <;> rfl

/-- A field without a format: the rule with the conversion that is heeded. -/
theorem fieldText_none (v : Value) (conversion : Option Script.Conversion) :
    fieldText v conversion none = unguarded (replaced v (settledConversion conversion) "") := by
  have htext : ∀ x : Except Fault String, (x.map Value.str >>= fun w => w.format "") = x := by
    intro x
    cases x <;> rfl
  rcases conversion with _ | _ | _ | _
  · exact congrArg unguarded (format_empty v).symm
  · exact congrArg unguarded (htext v.text).symm
  · exact congrArg unguarded (htext v.shown).symm
  · exact congrArg unguarded (htext v.text).symm

section Evaluation

variable (env : Env)

mutual

/-- **The evaluation of a string** is what the rule gives for the settled one, by mutual induction
along its parts and the formats in them. -/
theorem evalParts_eq_render (way : List Nat) (place : Nat) (parts : List Expr) :
    evalParts env way place parts = renderParts env way place (settledParts parts) := by
  unfold evalParts
  split
  · rw [settledParts, renderParts]
  · rw [settledParts, renderParts, evalParts_eq_render way (place + 1) _] <;> simp
  · rw [settledParts, renderParts, evalParts_eq_render way (place + 1) _]
    simp only [fieldText_none]
  · next spec rest =>
    have hspec := fun k => evalSpec_eq_render (1 :: place :: way) spec k
    rw [settledParts, renderParts, evalParts_eq_render way (place + 1) rest]
    simp only [fieldText_some, hspec]
  · -- neither a text nor a field, and refused by both
    rw [settledParts, renderParts] <;> assumption
termination_by sizeOf parts
decreasing_by all_goals grind

/-- The text of a format, with all that is done with it. -/
theorem evalSpec_eq_render (way : List Nat) (e : Expr) (k : String → Eval (List String)) :
    (eval env way e >>= fun v => unguarded v.text >>= k) =
      renderSpec env way (settledSpec e) >>= k := by
  unfold settledSpec
  split
  · next parts =>
    rw [eval, renderSpec, evalParts_eq_render way 0 parts]
    simp only [bind_assoc, pure_bind]
    rfl
  · rw [renderSpec, bind_assoc]
    assumption
termination_by sizeOf e
decreasing_by all_goals grind

end

end Evaluation

/-! ## Strings that follow the rule -/

mutual

/-- No conversion stands before a format, and none is to ASCII, also in the formats. -/
def HeedsParts : List Expr → Prop
  | [] => True
  | .formatted _ _ conversion none :: rest => conversion ≠ some .ascii ∧ HeedsParts rest
  | .formatted _ _ conversion (some spec) :: rest =>
    conversion = none ∧ HeedsSpec spec ∧ HeedsParts rest
  | _ :: rest => HeedsParts rest

def HeedsSpec : Expr → Prop
  | .joined _ parts => HeedsParts parts
  | _ => True

end

theorem settledConversion_eq_iff (conversion : Option Script.Conversion) :
    settledConversion conversion = conversion ↔ conversion ≠ some .ascii := by
  rcases conversion with _ | _ | _ | _ <;> simp [settledConversion]

mutual

theorem settledParts_eq_iff (parts : List Expr) :
    settledParts parts = parts ↔ HeedsParts parts := by
  unfold HeedsParts
  split
  · simp [settledParts]
  · next rest => simp [settledParts, settledConversion_eq_iff, settledParts_eq_iff rest]
  · next spec rest =>
    simp [settledParts, settledSpec_eq_iff spec, settledParts_eq_iff rest, eq_comm (a := none),
      and_assoc]
  · next rest _ _ =>
    rw [settledParts, List.cons.injEq, eq_self, true_and, settledParts_eq_iff rest] <;> assumption
termination_by sizeOf parts
decreasing_by all_goals grind

theorem settledSpec_eq_iff (e : Expr) : settledSpec e = e ↔ HeedsSpec e := by
  unfold HeedsSpec
  split
  · next parts => simp [settledSpec, settledParts_eq_iff parts]
  · rw [settledSpec] <;> simp
    assumption
termination_by sizeOf e
decreasing_by all_goals grind

end

/-- **Replacement fields.** A string with fields is evaluated as the rule says of the string in
which the conversions before formats are left out and those to ASCII are plain ones. That is the
string itself exactly where there are none of these, be it in the formats. -/
theorem fields_follow_rule_as_heeded (env : Env) (way : List Nat) (x : Extent) (parts : List Expr) :
    eval env way (.joined x parts) = render env way (settledParts parts) ∧
    (settledParts parts = parts ↔ HeedsParts parts) ∧
    (HeedsParts parts → eval env way (.joined x parts) = render env way parts) := by
  have hsettled : eval env way (.joined x parts) = render env way (settledParts parts) := by
    rw [eval, evalParts_eq_render, render]
  refine ⟨hsettled, settledParts_eq_iff parts, fun h => ?_⟩
  rw [hsettled, (settledParts_eq_iff parts).mpr h]

/-! ### Fields with a conversion, a format or both -/

/-- A text as it is written. -/
def writtenText (text : String) : Expr :=
  .constant default (.str text false)

/-- A field that shows a text. -/
def textField (text : String) (conversion : Option Script.Conversion) (spec : Option (List Expr)) :
    Expr :=
  .formatted default (writtenText text) conversion (spec.map (.joined default))

/-- A conversion in one field and a format in the other, with a field in the format. -/
def heededFields : List Expr :=
  [textField "a" (some .repr) none, writtenText ":",
    textField "a" none (some [writtenText ">", textField "3" none none])]

theorem fields_follow_rule_nested :
    HeedsParts heededFields ∧ render [] [] heededFields = .ok (.str "'a':  a") ∧
    eval [] [] (.joined default heededFields) = .ok (.str "'a':  a") := by
  have hheeds : HeedsParts heededFields := by
    simp [heededFields, textField, writtenText, HeedsParts, HeedsSpec]
  have hvalue : render [] [] heededFields = .ok (.str "'a':  a") := by rfl
  exact ⟨hheeds, hvalue,
    ((fields_follow_rule_as_heeded [] [] default heededFields).2.2 hheeds).trans hvalue⟩

/-- A conversion before a format is passed over, and one to ASCII is a plain one. -/
theorem conversions_passed_over :
    (eval [] [] (.joined default [textField "a" (some .repr) (some [writtenText ">5"])]) =
      .ok (.str "    a") ∧
      render [] [] [textField "a" (some .repr) (some [writtenText ">5"])] = .ok (.str "  'a'")) ∧
    eval [] [] (.joined default [textField "é" (some .ascii) none]) = .ok (.str "é") ∧
    render [] [] [textField "é" (some .ascii) none] = .ok (.str "'\\xe9'") :=
  ⟨⟨by rfl, by rfl⟩, by rfl, by rfl⟩

end Addon.Static
