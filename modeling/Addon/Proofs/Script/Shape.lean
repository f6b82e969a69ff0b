import Addon.Script.Printer.Statement

/-!
# Shape — trees without their places

Two texts can have the same tree but for the extents in it, for example when something was
cut out of one of them. `bare` forgets the extents, so trees of the same shape are those
with equal bare trees. The printer never looks at an extent: it prints a bare tree as the
tree itself (`print_bare`).
-/

namespace Addon.Script

/-! ## Bare trees -/

/-- The extent of what has none. -/
def nowhere : Extent :=
  ⟨⟨0, 0⟩, ⟨0, 0⟩⟩

mutual

/-- The expression without its extents. -/
def Expr.bare : Expr → Expr
  | .boolOp _ op values => .boolOp nowhere op (bareExprs values)
  | .named _ target value => .named nowhere target.bare value.bare
  | .binary _ left op right => .binary nowhere left.bare op right.bare
  | .unary _ op operand => .unary nowhere op operand.bare
  | .lambda _ params body => .lambda nowhere params.bare body.bare
  | .ifExp _ test body orElse => .ifExp nowhere test.bare body.bare orElse.bare
  | .dict _ items => .dict nowhere (bareItems items)
  | .set _ items => .set nowhere (bareExprs items)
  | .listComp _ item clauses => .listComp nowhere item.bare (bareClauses clauses)
  | .setComp _ item clauses => .setComp nowhere item.bare (bareClauses clauses)
  | .dictComp _ key value clauses => .dictComp nowhere key.bare value.bare (bareClauses clauses)
  | .generator _ item clauses => .generator nowhere item.bare (bareClauses clauses)
  | .await _ value => .await nowhere value.bare
  | .yield _ value => .yield nowhere (bareOption value)
  | .yieldFrom _ value => .yieldFrom nowhere value.bare
  | .compare _ left rest => .compare nowhere left.bare (bareLinks rest)
  | .call _ callee args keywords =>
    .call nowhere callee.bare (bareExprs args) (bareKeywords keywords)
  | .formatted _ value conversion spec => .formatted nowhere value.bare conversion (bareOption spec)
  | .joined _ parts => .joined nowhere (bareExprs parts)
  | .constant _ value => .constant nowhere value
  | .attribute _ value attr => .attribute nowhere value.bare attr
  | .subscript _ value index => .subscript nowhere value.bare index.bare
  | .starred _ value => .starred nowhere value.bare
  | .name _ id => .name nowhere id
  | .list _ items => .list nowhere (bareExprs items)
  | .tuple _ items => .tuple nowhere (bareExprs items)
  | .slice _ lower upper step =>
    .slice nowhere (bareOption lower) (bareOption upper) (bareOption step)

def bareExprs : List Expr → List Expr
  | [] => []
  | e :: rest => e.bare :: bareExprs rest

def bareOption : Option Expr → Option Expr
  | none => none
  | some e => some e.bare

def bareItems : List DictItem → List DictItem
  | [] => []
  | item :: rest => bareItem item :: bareItems rest

def bareItem : DictItem → DictItem
  | ⟨key, value⟩ => ⟨bareOption key, value.bare⟩

def bareLinks : List Comparison → List Comparison
  | [] => []
  | link :: rest => bareLink link :: bareLinks rest

def bareLink : Comparison → Comparison
  | ⟨op, right⟩ => ⟨op, right.bare⟩

def bareKeywords : List Keyword → List Keyword
  | [] => []
  | k :: rest => bareKeyword k :: bareKeywords rest

def bareKeyword : Keyword → Keyword
  | ⟨name, value⟩ => ⟨name, value.bare⟩

def bareClauses : List Comprehension → List Comprehension
  | [] => []
  | clause :: rest => bareClause clause :: bareClauses rest

def bareClause : Comprehension → Comprehension
  | ⟨target, iter, conditions, isAsync⟩ => ⟨target.bare, iter.bare, bareExprs conditions, isAsync⟩

def bareParam : Param → Param
  | ⟨_, name, annotation⟩ => ⟨nowhere, name, bareOption annotation⟩

def bareParams : List Param → List Param
  | [] => []
  | p :: rest => bareParam p :: bareParams rest

def bareParamOption : Option Param → Option Param
  | none => none
  | some p => some (bareParam p)

def bareKeywordParams : List KeywordParam → List KeywordParam
  | [] => []
  | p :: rest => bareKeywordParam p :: bareKeywordParams rest

def bareKeywordParam : KeywordParam → KeywordParam
  | ⟨p, default⟩ => ⟨bareParam p, bareOption default⟩

/-- The parameters without their extents. -/
def Parameters.bare : Parameters → Parameters
  | ⟨positionalOnly, ordinary, defaults, variadic, keywordOnly, keywords⟩ =>
    ⟨bareParams positionalOnly, bareParams ordinary, bareExprs defaults, bareParamOption variadic,
      bareKeywordParams keywordOnly, bareParamOption keywords⟩

end

mutual

/-- The pattern without its extents. -/
def Pattern.bare : Pattern → Pattern
  | .value e => .value e.bare
  | .singleton value => .singleton value
  | .sequence items => .sequence (barePatterns items)
  | .mapping keys items rest => .mapping (bareExprs keys) (barePatterns items) rest
  | .ofClass callee items names named =>
    .ofClass callee.bare (barePatterns items) names (barePatterns named)
  | .star name => .star name
  | .capture item name => .capture (barePatternOption item) name
  | .alternatives items => .alternatives (barePatterns items)

def barePatterns : List Pattern → List Pattern
  | [] => []
  | p :: rest => p.bare :: barePatterns rest

def barePatternOption : Option Pattern → Option Pattern
  | none => none
  | some p => some p.bare

end

/-- The item of a `with` statement without its extents. -/
def WithItem.bare (item : WithItem) : WithItem :=
  ⟨item.value.bare, bareOption item.target⟩

mutual

/-- The statement without its extents. -/
def Stmt.bare : Stmt → Stmt
  | .functionDef _ isAsync name params body decorators returns =>
    .functionDef nowhere isAsync name params.bare (bareStmts body) (bareExprs decorators)
      (bareOption returns)
  | .classDef _ name bases keywords body decorators =>
    .classDef nowhere name (bareExprs bases) (bareKeywords keywords) (bareStmts body)
      (bareExprs decorators)
  | .return _ value => .return nowhere (bareOption value)
  | .delete _ targets => .delete nowhere (bareExprs targets)
  | .assign _ targets value => .assign nowhere (bareExprs targets) value.bare
  | .augAssign _ target op value => .augAssign nowhere target.bare op value.bare
  | .annAssign _ target annotation value simple =>
    .annAssign nowhere target.bare annotation.bare (bareOption value) simple
  | .for _ isAsync target iter body orElse =>
    .for nowhere isAsync target.bare iter.bare (bareStmts body) (bareStmts orElse)
  | .while _ test body orElse => .while nowhere test.bare (bareStmts body) (bareStmts orElse)
  | .if _ test body orElse => .if nowhere test.bare (bareStmts body) (bareStmts orElse)
  | .with _ isAsync items body => .with nowhere isAsync (items.map WithItem.bare) (bareStmts body)
  | .match _ subject cases => .match nowhere subject.bare (bareCases cases)
  | .raise _ value cause => .raise nowhere (bareOption value) (bareOption cause)
  | .try _ isGroup body handlers orElse atEnd =>
    .try nowhere isGroup (bareStmts body) (bareHandlers handlers) (bareStmts orElse)
      (bareStmts atEnd)
  | .assert _ test message => .assert nowhere test.bare (bareOption message)
  | .importNames _ names => .importNames nowhere names
  | .importFrom _ source names level => .importFrom nowhere source names level
  | .global _ names => .global nowhere names
  | .nonlocal _ names => .nonlocal nowhere names
  | .expr _ value => .expr nowhere value.bare
  | .pass _ => .pass nowhere
  | .break _ => .break nowhere
  | .continue _ => .continue nowhere

def bareStmts : List Stmt → List Stmt
  | [] => []
  | s :: rest => s.bare :: bareStmts rest

def bareHandlers : List Handler → List Handler
  | [] => []
  | h :: rest => bareHandler h :: bareHandlers rest

def bareHandler : Handler → Handler
  | ⟨type, name, body⟩ => ⟨bareOption type, name, bareStmts body⟩

def bareCases : List MatchCase → List MatchCase
  | [] => []
  | c :: rest => bareCase c :: bareCases rest

def bareCase : MatchCase → MatchCase
  | ⟨pattern, guard, body⟩ => ⟨pattern.bare, bareOption guard, bareStmts body⟩

end

/-- The script without its extents. -/
def Module.bare (m : Module) : Module :=
  ⟨bareStmts m.body⟩

theorem bareExprs_eq_map (es : List Expr) : bareExprs es = es.map Expr.bare := by
  induction es with
  | nil => rfl
  | cons e rest ih => rw [bareExprs, ih, List.map_cons]

theorem length_bareParams (ps : List Param) : (bareParams ps).length = ps.length := by
  induction ps with
  | nil => rfl
  | cons p rest ih => rw [bareParams, List.length_cons, List.length_cons, ih]

theorem bareStmts_eq_map (stmts : List Stmt) : bareStmts stmts = stmts.map Stmt.bare := by
  induction stmts with
  | nil => rfl
  | cons s rest ih => rw [bareStmts, ih, List.map_cons]

/-! ## Printing -/

namespace Printer

@[simp] theorem isIntLike_bare (e : Expr) : isIntLike e.bare = isIntLike e := by
  cases e
  case constant x value => cases value <;> rfl
  all_goals rfl

/-- An index that is no tuple with items is printed as a whole. -/
theorem expression_subscript {index : Expr} (h : ∀ x first rest, index ≠ .tuple x (first :: rest))
    (plain : Bool) (asked : Level) (x : Extent) (value : Expr) :
    expression plain asked (.subscript x value index) = (do
      let value ← expression plain Level.atom value
      let index ← expression plain Level.test index
      return value ++ "[" ++ index ++ "]") := by
  rw [expression]
  exact h

mutual

/-- The printer never looks at an extent. -/
theorem expression_bare (plain : Bool) (asked : Level) : ∀ e : Expr,
    expression plain asked e.bare = expression plain asked e
  | .boolOp _ op values => by rw [Expr.bare, expression, expression,
      boolOperands_bare plain _ values]
  | .named _ target value => by
    rw [Expr.bare, expression, expression, expression_bare plain _ target,
      expression_bare plain _ value]
  | .binary _ left op right => by
    have hleft := fun level => expression_bare plain level left
    have hright := fun level => expression_bare plain level right
    rw [Expr.bare, expression, expression]
    simp only [hleft, hright]
  | .unary _ op operand => by rw [Expr.bare, expression, expression,
      expression_bare plain _ operand]
  | .lambda _ params body => by
    rw [Expr.bare, expression, expression, parameters_bare plain params,
      expression_bare plain _ body]
  | .ifExp _ test body orElse => by
    rw [Expr.bare, expression, expression, expression_bare plain _ test,
      expression_bare plain _ body, expression_bare plain _ orElse]
  | .dict _ items => by rw [Expr.bare, expression, expression, dictItems_bare plain items]
  | .set _ items => by rw [Expr.bare, expression, expression, expressions_bare plain _ items]
  | .listComp _ item clauses => by
    rw [Expr.bare, expression, expression, expression_bare plain _ item,
      comprehensions_bare plain clauses]
  | .setComp _ item clauses => by
    rw [Expr.bare, expression, expression, expression_bare plain _ item,
      comprehensions_bare plain clauses]
  | .dictComp _ key value clauses => by
    rw [Expr.bare, expression, expression, expression_bare plain _ key,
      expression_bare plain _ value, comprehensions_bare plain clauses]
  | .generator _ item clauses => by
    rw [Expr.bare, expression, expression, expression_bare plain _ item,
      comprehensions_bare plain clauses]
  | .await _ value => by rw [Expr.bare, expression, expression, expression_bare plain _ value]
  | .yield _ none => by rw [Expr.bare, bareOption, expression, expression]
  | .yield _ (some value) => by
    rw [Expr.bare, bareOption, expression, expression, expression_bare plain _ value]
  | .yieldFrom _ value => by rw [Expr.bare, expression, expression, expression_bare plain _ value]
  | .compare _ left rest => by
    rw [Expr.bare, expression, expression, expression_bare plain _ left,
      comparisons_bare plain rest]
  | .call _ callee args kws => by
    rw [Expr.bare, expression, expression, expression_bare plain _ callee,
      expressions_bare plain _ args, keywords_bare plain kws]
  | .formatted _ value conversion none => by
    rw [Expr.bare, bareOption, expression, expression, expression_bare true _ value]
  | .formatted _ value conversion (some spec) => by
    rw [Expr.bare, bareOption, expression, expression, expression_bare true _ value,
      formatSpec_bare spec]
  | .joined _ items => by rw [Expr.bare, expression, expression, joinedItems_bare items]
  | .constant _ value => by rw [Expr.bare, expression, expression]
  | .attribute _ value attr => by
    rw [Expr.bare, expression, expression, expression_bare plain _ value, isIntLike_bare]
  | .subscript _ value index => by
    have hvalue := expression_bare plain Level.atom value
    have hindex := expression_bare plain Level.test index
    cases index
    case tuple items =>
      cases items
      case nil =>
        rw [Expr.bare, expression_subscript (by simp [Expr.bare, bareExprs]),
          expression_subscript (by simp), hvalue, hindex]
      case cons first rest =>
        rw [Expr.bare, Expr.bare, bareExprs, expression, expression, hvalue,
          expression_bare plain _ first, expressions_bare plain _ rest]
    all_goals
      rw [Expr.bare, expression_subscript (by simp [Expr.bare]), expression_subscript (by simp),
        hvalue, hindex]
  | .starred _ value => by rw [Expr.bare, expression, expression, expression_bare plain _ value]
  | .name _ id => by rw [Expr.bare, expression, expression]
  | .list _ items => by rw [Expr.bare, expression, expression, expressions_bare plain _ items]
  | .tuple _ items => by rw [Expr.bare, expression, expression, expressions_bare plain _ items]
  | .slice _ lower upper step => by
    rw [Expr.bare, expression, expression, optional_bare plain _ lower, optional_bare plain _ upper,
      optional_bare plain _ step]

theorem expressions_bare (plain : Bool) (asked : Level) : ∀ es : List Expr,
    expressions plain asked (bareExprs es) = expressions plain asked es
  | [] => by rw [bareExprs]
  | e :: rest => by
    rw [bareExprs, expressions, expressions, expression_bare plain asked e,
      expressions_bare plain asked rest]

theorem expressionTexts_bare (plain : Bool) (asked : Level) : ∀ es : List Expr,
    expressionTexts plain asked (bareExprs es) = expressionTexts plain asked es
  | [] => by rw [bareExprs]
  | e :: rest => by
    rw [bareExprs, expressionTexts, expressionTexts, expression_bare plain asked e,
      expressionTexts_bare plain asked rest]

theorem boolOperands_bare (plain : Bool) (level : Level) : ∀ es : List Expr,
    boolOperands plain level (bareExprs es) = boolOperands plain level es
  | [] => by rw [bareExprs]
  | e :: rest => by
    rw [bareExprs, boolOperands, boolOperands, expression_bare plain _ e,
      boolOperands_bare plain _ rest]

theorem optional_bare (plain : Bool) (before : String) : ∀ e : Option Expr,
    optional plain before (bareOption e) = optional plain before e
  | none => by rw [bareOption]
  | some e => by rw [bareOption, optional, optional, expression_bare plain _ e]

theorem dictItems_bare (plain : Bool) : ∀ items : List DictItem,
    dictItems plain (bareItems items) = dictItems plain items
  | [] => by rw [bareItems]
  | item :: rest => by rw [bareItems, dictItems, dictItems, dictItem_bare plain item,
      dictItems_bare plain rest]

theorem dictItem_bare (plain : Bool) :
    ∀ item : DictItem, dictItem plain (bareItem item) = dictItem plain item
  | ⟨none, value⟩ => by rw [bareItem, bareOption, dictItem, dictItem, expression_bare plain _ value]
  | ⟨some key, value⟩ => by
    rw [bareItem, bareOption, dictItem, dictItem, expression_bare plain _ key,
      expression_bare plain _ value]

theorem comparisons_bare (plain : Bool) : ∀ links : List Comparison,
    comparisons plain (bareLinks links) = comparisons plain links
  | [] => by rw [bareLinks]
  | link :: rest => by
    rw [bareLinks, comparisons, comparisons, comparison_bare plain link,
      comparisons_bare plain rest]

theorem comparison_bare (plain : Bool) : ∀ link : Comparison,
    comparison plain (bareLink link) = comparison plain link
  | ⟨op, right⟩ => by rw [bareLink, comparison, comparison, expression_bare plain _ right]

theorem keywords_bare (plain : Bool) :
    ∀ kws : List Keyword, keywords plain (bareKeywords kws) = keywords plain kws
  | [] => by rw [bareKeywords]
  | k :: rest => by rw [bareKeywords, keywords, keywords, keyword_bare plain k,
      keywords_bare plain rest]

theorem keyword_bare (plain : Bool) : ∀ k : Keyword, keyword plain (bareKeyword k) = keyword plain k
  | ⟨name, value⟩ => by rw [bareKeyword, keyword, keyword, expression_bare plain _ value]

theorem comprehensions_bare (plain : Bool) : ∀ clauses : List Comprehension,
    comprehensions plain (bareClauses clauses) = comprehensions plain clauses
  | [] => by rw [bareClauses]
  | clause :: rest => by
    rw [bareClauses, comprehensions, comprehensions, comprehension_bare plain clause,
      comprehensions_bare plain rest]

theorem comprehension_bare (plain : Bool) : ∀ clause : Comprehension,
    comprehension plain (bareClause clause) = comprehension plain clause
  | ⟨target, iter, conditions, isAsync⟩ => by
    rw [bareClause, comprehension, comprehension, expression_bare plain _ target,
      expression_bare plain _ iter, expressions_bare plain _ conditions]

theorem param_bare (plain : Bool) : ∀ p : Param, param plain (bareParam p) = param plain p
  | ⟨_, name, note⟩ => by rw [bareParam, param, param, optional_bare plain _ note]

theorem paramTexts_bare (plain : Bool) :
    ∀ ps : List Param, paramTexts plain (bareParams ps) = paramTexts plain ps
  | [] => by rw [bareParams]
  | p :: rest => by rw [bareParams, paramTexts, paramTexts, param_bare plain p,
      paramTexts_bare plain rest]

theorem keywordParam_bare (plain : Bool) : ∀ p : KeywordParam,
    keywordParam plain (bareKeywordParam p) = keywordParam plain p
  | ⟨p, default⟩ => by
    rw [bareKeywordParam, keywordParam, keywordParam, param_bare plain p,
      optional_bare plain _ default]

theorem keywordParams_bare (plain : Bool) : ∀ ps : List KeywordParam,
    keywordParams plain (bareKeywordParams ps) = keywordParams plain ps
  | [] => by rw [bareKeywordParams]
  | p :: rest => by
    rw [bareKeywordParams, keywordParams, keywordParams, keywordParam_bare plain p,
      keywordParams_bare plain rest]

theorem starredParam_bare (plain : Bool) (stars : String) : ∀ p : Option Param,
    starredParam plain stars (bareParamOption p) = starredParam plain stars p
  | none => by rw [bareParamOption]
  | some p => by rw [bareParamOption, starredParam, starredParam, param_bare plain p]

theorem parameters_bare (plain : Bool) :
    ∀ ps : Parameters, parameters plain ps.bare = parameters plain ps
  | ⟨positionalOnly, ordinary, defaults, variadic, keywordOnly, keywordRest⟩ => by
    have hlength : (bareParams positionalOnly).length = positionalOnly.length := length_bareParams _
    rw [Parameters.bare, parameters, parameters, paramTexts_bare plain positionalOnly,
      paramTexts_bare plain ordinary, expressionTexts_bare plain _ defaults,
      starredParam_bare plain _ variadic,
      keywordParams_bare plain keywordOnly, starredParam_bare plain _ keywordRest, hlength]

theorem joinedItems_bare : ∀ items : List Expr, joinedItems (bareExprs items) = joinedItems items
  | [] => by rw [bareExprs]
  | e :: rest => by rw [bareExprs, joinedItems, joinedItems, joinedItem_bare e,
      joinedItems_bare rest]

theorem joinedItem_bare : ∀ e : Expr, joinedItem e.bare = joinedItem e
  | .constant _ value => by cases value <;> rfl
  | .formatted _ value conversion none => by
    rw [Expr.bare, bareOption, joinedItem, joinedItem, expression_bare true _ value]
  | .formatted _ value conversion (some spec) => by
    rw [Expr.bare, bareOption, joinedItem, joinedItem, expression_bare true _ value,
      formatSpec_bare spec]
  | .boolOp .. | .named .. | .binary .. | .unary .. | .lambda .. | .ifExp .. | .dict .. | .set ..
  | .listComp .. | .setComp .. | .dictComp .. | .generator .. | .await .. | .yield ..
  | .yieldFrom .. | .compare .. | .call .. | .joined .. | .attribute .. | .subscript ..
  | .starred .. | .name .. | .list .. | .tuple .. | .slice .. => by
    rw [Expr.bare, joinedItem, joinedItem] <;> simp

theorem formatSpec_bare : ∀ e : Expr, formatSpec e.bare = formatSpec e
  | .joined _ items => by rw [Expr.bare, formatSpec, formatSpec, joinedItems_bare items]
  | .constant .. | .formatted .. | .boolOp .. | .named .. | .binary .. | .unary .. | .lambda ..
  | .ifExp .. | .dict .. | .set .. | .listComp .. | .setComp .. | .dictComp .. | .generator ..
  | .await .. | .yield .. | .yieldFrom .. | .compare .. | .call .. | .attribute .. | .subscript ..
  | .starred .. | .name .. | .list .. | .tuple .. | .slice .. => by
    rw [Expr.bare, formatSpec, formatSpec] <;> simp

end

end Printer

theorem print_bare (e : Expr) : e.bare.print = e.print :=
  Printer.expression_bare _ _ e

end Addon.Script
