import Mathlib
import Addon.Annotated.Extract
import Addon.Proofs.Attempt
import Addon.Proofs.Script.Statement
import Addon.Proofs.Source.Removal

/-!
# Extraction — what a successful reading consists of

`extract` parses a script, prepares what is fixed for it, walks over its classes and cuts out
what the walk collected. The inversion `extract_result_eq_ok` names these four parts, so that
later proofs never open `extract` itself. The first use is the round trip: what an extraction
cut out can be put back.
-/

namespace Addon.Annotated

open Script Source

variable {source name : String} {m : Module} {r : Reading}

/-- Where the reading of the classes of a script starts. -/
def beginning (registry : Ace.Registry) : Progress :=
  { registry := registry }

/-- The scope of complaints about a script. -/
def scopeOf (source : List Char) : Scope :=
  { source := some source }

/-! ## Inversion -/

/-- What is fixed for a script: its lines, its names for the markers and its constants. -/
theorem reading_eq_ok {source : List Char} (h : reading source m = .ok r) :
    r.index = Index.ofSource source ∧ r.names = MarkerNames.ofModule m ∧
      Static.environment m = .ok r.env := by
  obtain ⟨env, henv, hr⟩ := bind_eq_ok.mp h
  cases hr
  exact ⟨rfl, rfl, Attempt.ofValue_eq_ok.mp henv⟩

/-- A script that cannot be prepared registers nothing. -/
theorem extract_of_unprepared
    (h : ∀ m r, parseModule source = .ok m → reading source.toList m ≠ .ok r)
    (registry : Ace.Registry)
    (moduleName : String) : ∃ f, extract registry source moduleName = ⟨registry, [], .error f⟩ := by
  unfold extract
  cases hm : parseModule source with
  | error e => cases e <;> exact ⟨_, rfl⟩
  | ok m =>
    cases hr : reading source.toList m with
    | ok r => exact absurd hr (h m r hm)
    | error f =>
      refine ⟨f, ?_⟩
      simp only [Attempt.ofParse, hr, bind, Except.bind]

/-- A script that can be prepared ends as its walk does, or as the cut at the end of that. -/
theorem extract_of_prepared (hm : parseModule source = .ok m)
    (hr : reading source.toList m = .ok r) (registry : Ace.Registry) (moduleName : String) :
    extract registry source moduleName =
      let o := readClasses (scopeOf source.toList) r moduleName m.body (beginning registry)
      ⟨o.1.registry, o.1.warnings, match o.2 with
        | .ok () => finish source.toList moduleName o.1
        | .error f => .error f⟩ := by
  simp only [extract, hm, hr, Attempt.ofParse, bind, Except.bind, pure, Except.pure]
  rfl

/-- The parts of a successful extraction: the parsed script, what is fixed for it, a walk over its
classes that came to its end, and the cut. -/
theorem extract_result_eq_ok {registry : Ace.Registry} {e : Extracted}
    (h : (extract registry source name).result = .ok e) :
    ∃ m r p, parseModule source = .ok m ∧ reading source.toList m = .ok r ∧
      readClasses (scopeOf source.toList) r name m.body (beginning registry) = (p, .ok ()) ∧
      finish source.toList name p = .ok e := by
  by_cases hprepared : ∃ m r, parseModule source = .ok m ∧ reading source.toList m = .ok r
  · obtain ⟨m, r, hm, hr⟩ := hprepared
    rw [extract_of_prepared hm hr] at h
    -- the walk either came to its end or its failure is the result
    rcases hp : readClasses (scopeOf source.toList) r name m.body (beginning registry)
      with ⟨p, outcome⟩
    rw [hp] at h
    cases outcome with
    | error f => cases h
    | ok u => exact ⟨m, r, p, hm, hr, hp, h⟩
  · obtain ⟨f, hf⟩ :=
      extract_of_unprepared (fun m r hm hr => hprepared ⟨m, r, hm, hr⟩) registry name
    rw [hf] at h
    cases h

/-- When the walk comes to its end, the result is the cut. -/
theorem extract_result_of_walk {registry : Ace.Registry} {p : Progress}
    (hm : parseModule source = .ok m) (hr : reading source.toList m = .ok r)
    (hp : readClasses (scopeOf source.toList) r name m.body (beginning registry) = (p, .ok ())) :
    (extract registry source name).result = finish source.toList name p := by
  rw [extract_of_prepared hm hr, hp]

/-- The parts of a finished script: the source as given, the source without the collected spans, and
those spans sorted by their starts. -/
theorem finish_eq_ok {source : List Char} {p : Progress} {e : Extracted}
    (h : finish source name p = .ok e) :
    e.source = source ∧ applyRemovals source p.spans = .ok e.stripped ∧
      e.spans = p.spans.mergeSort startsBefore := by
  simp only [finish, bind, Except.bind, pure, Except.pure] at h
  cases hs : applyRemovals source p.spans with
  | error err => simp [hs, Attempt.ofSpans] at h
  | ok stripped =>
    simp only [hs, Attempt.ofSpans, Except.ok.injEq] at h
    subst h
    exact ⟨rfl, rfl, rfl⟩

/-! ## The round trip -/

/-- **What was removed can be put back.** For every text and every list of spans in any order, if
the removal succeeds, then the removed texts put back into what is left give the text. The same
holds of every extraction with the spans that it reports, which are sorted by their starts only. -/
theorem restore_undoes_removal :
    (∀ (source : List Char) (spans : List Span) (stripped : List Char),
      applyRemovals source spans = .ok stripped →
      ∃ texts, removedTexts source spans = .ok texts ∧
        restore stripped spans texts = .ok source) ∧
    (∀ (registry : Ace.Registry) (source name : String) (e : Extracted),
      (extract registry source name).result = .ok e →
      e.source = source.toList ∧
      ∃ texts, removedTexts e.source e.spans = .ok texts ∧
        restore e.stripped e.spans texts = .ok e.source) := by
  constructor
  · intro source spans stripped h
    exact restore_removedTexts h (List.Perm.refl spans)
  · intro registry source name e h
    obtain ⟨m, r, p, -, -, -, hfinish⟩ := extract_result_eq_ok h
    obtain ⟨hsource, hstripped, hspans⟩ := finish_eq_ok hfinish
    rw [hsource, hspans]
    exact ⟨rfl, restore_removedTexts hstripped (List.mergeSort_perm _ _)⟩

/-- Spans in no order, of which one is empty, two touch and one reaches beyond the text. -/
theorem restore_undoes_removal_touching :
    ∃ texts, removedTexts "abcdef".toList [⟨4, 9, by decide⟩, ⟨0, 1, by decide⟩, ⟨1, 3, by decide⟩,
        ⟨3, 3, by decide⟩, ⟨12, 15, by decide⟩] = .ok texts ∧
      restore ['d'] [⟨4, 9, by decide⟩, ⟨0, 1, by decide⟩, ⟨1, 3, by decide⟩, ⟨3, 3, by decide⟩,
        ⟨12, 15, by decide⟩] texts = .ok "abcdef".toList :=
  restore_undoes_removal.1 _ _ _ (by cbv)

/-! ## Scripts with a marked class

The tokens and the statements of a class with methods on lines of their own, each of which takes at
least the parameter `s` and has the body `0`. -/

/-- A method up to the column of its body, with its marker on the line before. -/
def actionTokens (line column : Nat) (name : String) (params : List Token) : List Token :=
  [tokenAt (line - 1) 1 1 (.op "@"), tokenAt (line - 1) 2 6 (.name "Action" true),
    tokenAt (line - 1) 8 0 .newline, tokenAt line 1 3 (.reserved "def"),
    tokenAt line 5 1 (.name name true),
    tokenAt line 6 1 (.op "("), tokenAt line 7 1 (.name "s" true)] ++ params ++
  [tokenAt line (column - 2) 1 (.op ")"), tokenAt line (column - 1) 1 (.op ":"),
    tokenAt line column 1 (.number (.int 0)), tokenAt line (column + 1) 0 .newline]

def actionStmt (line column : Nat) (name : String) (params : List Script.Param)
    (defaults : List Expr) :
    Stmt :=
  .functionDef ⟨⟨line, 1⟩, ⟨line, column + 1⟩⟩ false name
    { positionalOnly := []
      ordinary := ⟨⟨⟨line, 7⟩, ⟨line, 8⟩⟩, "s", none⟩ :: params
      defaults := defaults
      variadic := none
      keywordOnly := []
      keywords := none }
    [.expr ⟨⟨line, column⟩, ⟨line, column + 1⟩⟩
      (.constant ⟨⟨line, column⟩, ⟨line, column + 1⟩⟩ (.int 0))]
    [.name ⟨⟨line - 1, 2⟩, ⟨line - 1, 8⟩⟩ "Action"] none

/-- A class with its marker on a line, up to the line of its last method. -/
def classTokens (line last : Nat) (name : String) (members : List Token) : List Token :=
  [tokenAt line 0 1 (.op "@"), tokenAt line 1 8 (.name "AceClass" true), tokenAt line 9 0 .newline,
    tokenAt (line + 1) 0 5 (.reserved "class"), tokenAt (line + 1) 6 1 (.name name true),
    tokenAt (line + 1) 7 1 (.op ":"), tokenAt (line + 1) 8 0 .newline,
    tokenAt (line + 2) 1 0 .indent] ++ members ++ [tokenAt (last + 1) 0 0 .dedent]

def classStmt (line : Nat) (stop : Position) (name : String) (members : List Stmt) : Stmt :=
  .classDef ⟨⟨line + 1, 0⟩, stop⟩ name [] [] members [.name ⟨⟨line, 1⟩, ⟨line, 9⟩⟩ "AceClass"]

end Addon.Annotated
