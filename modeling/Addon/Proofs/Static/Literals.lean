import Addon.Proofs.Config
import Addon.Proofs.Number.Negation
import Addon.Proofs.Static.Safety

/-!
# Literals — the two formats of a configuration agree

A value of a document can be written down as an expression: numbers below zero with a sign in
front, lists as lists or as tuples, objects as dicts with texts for keys. No such expression
reads a name, so its value is the same in every environment. It is the value that is written down
once its tuples are turned into lists. So a script that assigns it and a document that holds it
are the same configuration.

## The architecture

* **`Writes v e`** — the relation between a value and its expressions, one
  constructor for each form.
* **`Value.IsLiteral`** — the values that can be written down; `exists_writes` finds an
  expression for each of them.
* **`eval_of_writes`** — the run: by induction on the relation, together with the items
  and the entries. Entries are put into those before them, which are carried along with
  the keys that are taken.
* **`ofScript_of_writes`** — the configuration that a script of one assignment gives.
-/

namespace Addon.Static

open Script

/-! ## Values as expressions -/

mutual

/-- An expression writes a value down. -/
inductive Writes : Value → Expr → Prop
  | null (x : Extent) : Writes .null (.constant x .none)
  | bool (x : Extent) (b : Bool) : Writes (.bool b) (.constant x (.bool b))
  | int (x : Extent) (n : Nat) : Writes (.int n) (.constant x (.int n))
  | minusInt (x y : Extent) (n : Nat) : Writes (.int (-n)) (.unary x .minus (.constant y (.int n)))
  | float (x : Extent) {z : Float} (hz : Number.isNegative z =
      false) : Writes (.float z) (.constant x (.float z))
  | minusFloat (x y : Extent) {z : Float} (hnan : Number.isNaN z =
      false) (hz : Number.isNegative z = true) :
      Writes (.float z) (.unary x .minus (.constant y (.float (-z))))
  | str (x : Extent) (text : String) (marked : Bool) :
      Writes (.str text) (.constant x (.str text marked))
  | list (x : Extent) {vs : List Value} {es : List Expr} (h : WritesItems vs es) :
      Writes (.list vs) (.list x es)
  | tuple (x : Extent) {vs : List Value} {es : List Expr} (h : WritesItems vs es) :
      Writes (.list vs) (.tuple x es)
  | dict (x : Extent) {fields : Fields Value} {items : List DictItem} (hkeys : fields.keys.Nodup)
      (h : WritesEntries fields items) : Writes (.dict fields) (.dict x items)

inductive WritesItems : List Value → List Expr → Prop
  | nil : WritesItems [] []
  | cons {v : Value} {e : Expr} {vs : List Value} {es : List Expr} (h : Writes v e)
      (hrest : WritesItems vs es) :
      WritesItems (v :: vs) (e :: es)

inductive WritesEntries : Fields Value → List DictItem → Prop
  | nil : WritesEntries [] []
  | cons (x : Extent) (marked : Bool) {name : String} {v : Value} {e : Expr} {fields : Fields Value}
      {items : List DictItem} (h : Writes v e) (hrest : WritesEntries fields items) :
      WritesEntries ((name, v) :: fields) (⟨some (.constant x (.str name marked)), e⟩ :: items)

end

end Addon.Static

namespace Addon.Value

/-! ## Which values can be written down -/

/-- A value of this kind can be written down. A number has to be one, and the names of an
object have to differ. -/
def isLiteral : Value → Bool
  | .float z => !Number.isNaN z
  | .dict fields => decide (Fields.keys fields).Nodup
  | .nan _ | .complex .. | .tuple _ => false
  | _ => true

/-- A document has the value, and it can be written down at every depth. -/
def IsLiteral (v : Value) : Prop :=
  ∀ w ∈ v.nodes, w.isLiteral = true

instance (v : Value) : Decidable v.IsLiteral :=
  inferInstanceAs (Decidable (∀ w ∈ v.nodes, w.isLiteral = true))

end Addon.Value

namespace Addon.Static

open Script

mutual

/-- There is an expression for every such value. -/
theorem exists_writes : ∀ v : Value, v.IsLiteral → ∃ e, Writes v e
  | .null, _ => ⟨_, .null default⟩
  | .bool b, _ => ⟨_, .bool default b⟩
  | .int n, _ => by
    -- there are no literals below zero
    obtain ⟨k, rfl | rfl⟩ := n.eq_nat_or_neg
    · exact ⟨_, .int default k⟩
    · exact ⟨_, .minusInt default default k⟩
  | .float z, h => by
    have hnan : Number.isNaN z =
        false := by simpa [Value.isLiteral] using h (.float z) (by simp [Value.nodes])
    cases hz : Number.isNegative z with
    | false => exact ⟨_, .float default hz⟩
    | true => exact ⟨_, .minusFloat default default hnan hz⟩
  | .str text, _ => ⟨_, .str default text false⟩
  | .list items, h => by
    obtain ⟨es, hes⟩ := exists_writesItems items fun w hw => h w (List.mem_cons_of_mem _ hw)
    exact ⟨_, .list default hes⟩
  | .dict fields, h => by
    obtain ⟨items, hitems⟩ :=
      exists_writesEntries fields fun w hw => h w (List.mem_cons_of_mem _ hw)
    have hkeys : (Fields.keys fields).Nodup :=
      of_decide_eq_true (h (.dict fields) List.mem_cons_self)
    exact ⟨_, .dict default hkeys hitems⟩
  | .nan o, h => by cases h (.nan o) (by simp [Value.nodes])
  | .complex re im, h => by cases h (.complex re im) (by simp [Value.nodes])
  | .tuple items, h => by cases h (.tuple items) List.mem_cons_self

theorem exists_writesItems : ∀ vs : List Value, (∀ w ∈ Value.nodesOfItems vs, w.isLiteral = true) →
    ∃ es, WritesItems vs es
  | [], _ => ⟨_, .nil⟩
  | v :: rest, h => by
    obtain ⟨e, he⟩ := exists_writes v fun w hw => h w (List.mem_append_left _ hw)
    obtain ⟨es, hes⟩ := exists_writesItems rest fun w hw => h w (List.mem_append_right _ hw)
    exact ⟨_, .cons he hes⟩

theorem exists_writesEntries : ∀ fields : List (String × Value),
    (∀ w ∈ Value.nodesOfFields fields, w.isLiteral = true) → ∃ items, WritesEntries fields items
  | [], _ => ⟨_, .nil⟩
  | (_, v) :: rest, h => by
    obtain ⟨e, he⟩ := exists_writes v fun w hw => h w (List.mem_append_left _ hw)
    obtain ⟨items, hitems⟩ := exists_writesEntries rest fun w hw => h w (List.mem_append_right _ hw)
    exact ⟨_, .cons default false he hitems⟩

end

/-! ## The values of these expressions -/

mutual

/-- **The run.** In every environment, an expression has the value that it
writes down, up to tuples. -/
theorem eval_of_writes (env : Env) (way : List Nat) {v : Value} {e : Expr} :
    Writes v e → ∃ w, eval env way e = .ok w ∧ w.safe = v
  | .null _ => ⟨_, rfl, rfl⟩
  | .bool _ _ => ⟨_, rfl, rfl⟩
  | .int _ _ => ⟨_, rfl, rfl⟩
  | .minusInt _ _ _ => ⟨_, rfl, rfl⟩
  | .float _ _ => ⟨_, rfl, rfl⟩
  | .minusFloat _ _ (z := z) hnan _ => by
    refine ⟨.float z, ?_, rfl⟩
    -- the operator turns back the sign that the operand was written without
    change Except.ok ((Value.float (- -z)).arising way) = _
    rw [Number.float_neg_neg, Value.arising, if_neg (by rw [hnan]; decide)]
  | .str _ _ _ => ⟨_, rfl, rfl⟩
  | .list _ h => by
    obtain ⟨ws, hws, hsafe⟩ := evalItems_of_writes env way 0 h
    exact ⟨.list ws, by rw [eval, hws]; rfl, by rw [Value.safe, hsafe]⟩
  | .tuple _ h => by
    obtain ⟨ws, hws, hsafe⟩ := evalItems_of_writes env way 0 h
    exact ⟨.tuple ws, by rw [eval, hws]; rfl, by rw [Value.safe, hsafe]⟩
  | .dict _ hkeys h => by
    obtain ⟨ws, hws, hsafe⟩ := evalEntries_of_writes env way 0 [] hkeys h
    exact ⟨.dict ws, by rw [eval, hws]; rfl, by rw [Value.safe, hsafe]⟩

theorem evalItems_of_writes (env : Env) (way : List Nat) (place : Nat) {vs : List Value}
    {es : List Expr} :
    WritesItems vs es → ∃ ws, evalItems env way place es = .ok ws ∧ Value.safeItems ws = vs
  | .nil => ⟨_, rfl, rfl⟩
  | .cons h hrest => by
    obtain ⟨w, hw, hsafe⟩ := eval_of_writes env (place :: way) h
    obtain ⟨ws, hws, hsafes⟩ := evalItems_of_writes env way (place + 1) hrest
    refine ⟨w :: ws, ?_, by rw [Value.safeItems, hsafe, hsafes]⟩
    rw [evalItems]
    exact bind_eq_ok.mpr ⟨w, hw, bind_eq_ok.mpr ⟨ws, hws, rfl⟩⟩

theorem evalEntries_of_writes (env : Env) (way : List Nat) (place : Nat) (before : Fields Value)
    {fields : Fields Value} {items : List DictItem} (hkeys : (before.keys ++ fields.keys).Nodup) :
    WritesEntries fields items →
      ∃ ws, evalEntries env way place items before = .ok (before ++ ws) ∧
        Value.safeFields ws = fields
  | .nil => ⟨[], by rw [evalEntries, List.append_nil]; rfl, rfl⟩
  | @WritesEntries.cons _ _ name _ _ rest _ h hrest => by
    obtain ⟨w, hw, hsafe⟩ := eval_of_writes env (1 :: place :: way) h
    -- the key is not taken yet, so the entry comes behind those before it
    have hkeys' : ((before ++ [(name, w)] : Fields Value).keys ++ rest.keys).Nodup := by
      simpa [Fields.keys] using hkeys
    have hfresh : name ∉ before.keys := fun hname =>
      (List.nodup_append.mp hkeys).2.2 name hname name List.mem_cons_self rfl
    obtain ⟨ws, hws, hsafes⟩ :=
      evalEntries_of_writes env way (place + 1) (before ++ [(name, w)]) hkeys' hrest
    refine ⟨(name, w) :: ws, ?_, by rw [Value.safeFields, hsafe, hsafes]⟩
    rw [evalEntries]
    refine bind_eq_ok.mpr ⟨.str name, rfl, bind_eq_ok.mpr ⟨w, hw, ?_⟩⟩
    rw [Fields.insert_of_not_mem w hfresh, hws, List.append_assoc, List.singleton_append]

end

end Addon.Static

namespace Addon.Config

open Script
open Static (Writes)

/-! ## Configurations that are written down -/

/-- A script that does nothing but assign an expression to a name of the configuration. -/
def AssignsOnly (source : String) (e : Expr) : Prop :=
  ∃ s, parseModule source = .ok ⟨[s]⟩ ∧ AssignsConfig s e

/-- The assignment of an expression that has a value in every environment gives the
script its constants. -/
theorem exists_environment_of_writes {s : Stmt} {e : Expr} {v : Value} (hs : AssignsConfig s e)
    (h : Writes v e) :
    ∃ env, Static.environment ⟨[s]⟩ = .ok env := by
  obtain ⟨name, -, hassigned⟩ := hs
  obtain ⟨w, hw, -⟩ := Static.eval_of_writes [] (Static.targetWay 0 0) h
  refine ⟨Fields.insert [] name w, ?_⟩
  have hbind : Static.bind [] (Static.targetWay 0 0) name e = .ok (Fields.insert [] name w) := by
    rw [Static.bind, hw]
  unfold assigned? at hassigned
  split at hassigned
  · cases hassigned
    exact bind_eq_ok.mpr ⟨_, bind_eq_ok.mpr ⟨_, hbind, rfl⟩, rfl⟩
  · cases hassigned
    exact bind_eq_ok.mpr ⟨_, hbind, rfl⟩
  · cases hassigned

theorem ofScript_of_writes {source : String} {e : Expr} {v : Value} (hsource : AssignsOnly source e)
    (h : Writes v e) : ofScript source = .ok v := by
  obtain ⟨s, hm, hs⟩ := hsource
  obtain ⟨env, henv⟩ := exists_environment_of_writes hs h
  obtain ⟨w, hw, hsafe⟩ := Static.eval_of_writes env [1] h
  exact ofScript_eq_ok_iff.mpr ⟨_, env, e, w, hm, henv, @expression?_append_of_assigns [] s e hs,
    hw, hsafe⟩

/-- The manifest of a configuration depends on the fields alone, and not on the
format they are read from. -/
theorem load_eq_ofFields {t : File.Tree} {path : File.Path} {cs : List Char} {fields : Fields Value}
    (hread : t.readText path = .ok cs)
    (hdata : (if path.suffix = ".json" then ofJson path cs else ofScript (String.ofList cs)) =
      .ok (.dict fields)) :
    load t path = Manifest.ofFields fields := by
  split at hdata
  · next hsuffix => simp only [load, manifest, hread, if_pos hsuffix, hdata, bind, Except.bind]
  · next hsuffix => simp only [load, manifest, hread, if_neg hsuffix, hdata, bind, Except.bind]

/-- **Literals have the values they write down, so the two formats agree.** Every value of a
document can be written down. In every environment, an expression that does so has this value, up
to tuples. A script that assigns an object and a document that holds it give the same manifest, or
fail with the same error. -/
theorem written_configs_agree (v : Value) (hv : v.IsLiteral) : (∃ e, Writes v e) ∧ ∀ e, Writes v e →
    (∀ env way, ∃ w, Static.eval env way e = .ok w ∧ w.safe = v) ∧
    ∀ fields, v = .dict fields → ∀ t path t' path' cs cs',
      path.suffix ≠ ".json" → t.readText path = .ok cs → AssignsOnly (String.ofList cs) e →
      path'.suffix = ".json" → t'.readText path' = .ok cs' → Json.read cs' = .ok v →
      load t path = load t' path' ∧ load t' path' = Manifest.ofFields fields := by
  refine ⟨Static.exists_writes v hv,
    fun e h => ⟨fun env way => Static.eval_of_writes env way h, ?_⟩⟩
  rintro fields rfl t path t' path' cs cs' hsuffix hcs hscript hsuffix' hcs' hjson
  have hfile : load t path = Manifest.ofFields fields := by
    apply load_eq_ofFields hcs
    rw [if_neg hsuffix, ofScript_of_writes hscript h]
  have hfile' : load t' path' = Manifest.ofFields fields := by
    apply load_eq_ofFields hcs'
    rw [if_pos hsuffix', ofJson, hjson]
  exact ⟨hfile.trans hfile'.symm, hfile'⟩

/-- A script that assigns an object. -/
def writtenScript : String :=
  "config=\x7b'id':(-1,-2.5)\x7d\n"

/-- A document that holds this object. -/
def writtenDocument : String :=
  "\x7b\"id\":[-1,-2.5]\x7d"

def writtenFloat : Float :=
  Number.ofDecimal false 25 (-1)

/-- The object, which holds numbers below zero. -/
def writtenFields : Fields Value :=
  [("id", .list [.int (-1), .float (-writtenFloat)])]

def writtenExpr : Expr :=
  .dict ⟨⟨1, 7⟩, ⟨1, 23⟩⟩ [⟨some (.constant ⟨⟨1, 8⟩, ⟨1, 12⟩⟩ (.str "id" false)),
    .tuple ⟨⟨1, 13⟩, ⟨1, 22⟩⟩
    [.unary ⟨⟨1, 14⟩, ⟨1, 16⟩⟩ .minus (.constant ⟨⟨1, 15⟩, ⟨1, 16⟩⟩ (.int 1)),
      .unary ⟨⟨1, 17⟩, ⟨1, 21⟩⟩ .minus (.constant ⟨⟨1, 18⟩, ⟨1, 21⟩⟩ (.float writtenFloat))]⟩]

/-- The script and the document, as files. -/
def writtenFiles : File.Tree :=
  .mk [(["config.py"], .file (.ofText writtenScript)),
    (["config.json"], .file (.ofText writtenDocument))]

theorem writes_writtenExpr : Writes (.dict writtenFields) writtenExpr := by
  have hnumber : Writes (.float (-writtenFloat))
      (.unary ⟨⟨1, 17⟩, ⟨1, 21⟩⟩ .minus
        (.constant ⟨⟨1, 18⟩, ⟨1, 21⟩⟩ (.float (- -writtenFloat)))) :=
    .minusFloat _ _ rfl rfl
  rw [Number.float_neg_neg] at hnumber
  exact .dict _ (by decide)
    (.cons _ _ (.tuple _ (.cons (.minusInt _ _ 1) (.cons hnumber .nil))) .nil)

set_option maxRecDepth 2000 in
theorem assignsOnly_writtenScript : AssignsOnly writtenScript writtenExpr := by
  refine ⟨lineStmt 1 6 "config" writtenExpr, ?_, "config", by decide, rfl⟩
  exact parseModule_of_tokens
    (lineTokens 1 6 "config" [tokenAt 1 7 1 (.op "\x7b"),
      tokenAt 1 8 4 (.quoted ⟨false, false, false, false, ['i', 'd']⟩), tokenAt 1 12 1 (.op ":"),
      tokenAt 1 13 1 (.op "("), tokenAt 1 14 1 (.op "-"), tokenAt 1 15 1 (.number (.int 1)),
      tokenAt 1 16 1 (.op ","),
      tokenAt 1 17 1 (.op "-"), tokenAt 1 18 3 (.number (.float writtenFloat)),
      tokenAt 1 21 1 (.op ")"),
      tokenAt 1 22 1 (.op "\x7d")] 23 ++ [tokenAt 2 0 0 .finish])
    (by decide +kernel) (by rfl)

/-- An object with numbers below zero, which are written with a sign in front, in a tuple. -/
theorem written_configs_agree_signs :
    (Value.dict writtenFields).IsLiteral ∧ Writes (.dict writtenFields) writtenExpr ∧
      AssignsOnly writtenScript writtenExpr ∧
        Json.read writtenDocument.toList = .ok (.dict writtenFields) ∧
      (∃ w, Static.eval [] [] writtenExpr = .ok w ∧ w.safe = .dict writtenFields) ∧
      load writtenFiles (.ofText "config.py") = load writtenFiles (.ofText "config.json") ∧
      load writtenFiles (.ofText "config.json") = Manifest.ofFields writtenFields := by
  have hliteral : (Value.dict writtenFields).IsLiteral := by decide +kernel
  have hread : Json.read writtenDocument.toList = .ok (.dict writtenFields) := rfl
  obtain ⟨-, h⟩ := written_configs_agree _ hliteral
  obtain ⟨heval, hload⟩ := h _ writes_writtenExpr
  refine ⟨hliteral, writes_writtenExpr, assignsOnly_writtenScript, hread, heval [] [], ?_⟩
  exact hload _ rfl _ (.ofText "config.py") _ (.ofText "config.json") writtenScript.toList
    _ (by decide) rfl
    (by rw [String.ofList_toList]; exact assignsOnly_writtenScript) (by decide) rfl hread

end Addon.Config
