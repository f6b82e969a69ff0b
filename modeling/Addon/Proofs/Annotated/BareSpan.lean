import Addon.Proofs.Annotated.Extraction
import Addon.Proofs.Annotated.Spans
import Addon.Proofs.Script.Parameters

/-!
# BareSpan — where an annotation that is only a marker is cut off

The annotation should be cut off right behind the identifier. What is known of the identifier is the
name that it stands for, its normal form, and the cut starts as many characters behind the start of
the parameter as the name has. That is the end of the identifier only if the normal form is as long
as what is written: a ligature stands for several letters, and the cut starts too late; letters with
their marks behind them can become one, and it starts too early.

## The architecture

* **`WrittenAt`** — a parameter with an annotation in the text: the word that is written, and the
  end of the annotation. Every annotated parameter of a script is so written (`exists_writtenAt`).
* **`bareSpan_eq`** — the span in terms of these offsets.
* **`applyRemovals_singleton`** — what one span leaves.
-/

namespace Addon.Annotated

open Script Source Cursor

/-! ## Parameters in the text -/

/-- The identifier of the parameter is written at an offset, and its annotation ends at another. The
name is the normal form of what is written. -/
structure WrittenAt (source : List Char) (p : Script.Param) (note : Expr) (start stop : Nat) :
    Prop where
  starts : Marks source p.extent.start start
  word : wordAt source start ≠ []
  name : p.name = String.ofList (Unicode.normalize (wordAt source start))
  stops : Marks source note.extent.stop stop
  le : start + (wordAt source start).length ≤ stop

theorem exists_writtenAt_of_parsed {source : List Char} {c d : Cursor} {p : Script.Param}
    {note : Expr} (hc : c.Within (readText source)) (hp : ParamParsed c p d)
    (hnote : p.annotation = some note) :
    ∃ start stop, WrittenAt source p note start stop := by
  obtain ⟨t, b, plain, ht, hk, hstart, -, hannotation⟩ := hp
  obtain ⟨n, hn, hlast, hword, hname⟩ := hc.marks_name ht hk
  obtain ⟨a, hba, hparsed⟩ := hannotation note hnote
  have hb := hc.of_takes ht
  have ha := hb.of_advances hba
  obtain ⟨_, stop, -, hstop, hle, hle', -⟩ := marks_placed ha hparsed.placed
  refine ⟨n, stop, hstart ▸ hn, hword, hname, hstop, (hlast.le_iff hstop).mp ?_⟩
  calc b.last ≤ a.last := hb.last_le_last hba
    _ ≤ a.pos := ha.last_le_pos
    _ ≤ note.extent.start := hle
    _ ≤ note.extent.stop := hle'

/-- Every parameter with an annotation stands in the text with it. -/
theorem exists_writtenAt {source : String} {m : Module} {p : Script.Param} {note : Expr}
    (h : parseModule source = .ok m) (hp : p ∈ m.params) (hnote : p.annotation = some note) :
    ∃ start stop, WrittenAt source.toList p note start stop := by
  obtain ⟨c, hwithin, hstands⟩ := stands_parseModule h
  obtain ⟨a, b, hca, hparsed⟩ := hstands p hp
  exact exists_writtenAt_of_parsed (hwithin.of_advances hca) hparsed hnote

/-! ## The span -/

theorem spanOf_of_le {start stop : Nat} (h : start ≤ stop) :
    spanOf start stop = .ok ⟨start, stop, h⟩ := by
  rw [spanOf, Span.make, dif_neg (by omega)]
  rfl

theorem spanOf_of_lt {start stop : Nat} (h : stop < start) :
    spanOf start stop = .error (.span (.invalid start stop)) := by
  rw [spanOf, Span.make, dif_pos (by omega)]
  rfl

theorem spanOf_eq_ok_iff {start stop : Nat} {s : Span} :
    spanOf start stop = .ok s ↔ s.start = start ∧ s.stop = stop := by
  refine ⟨spanOf_eq_ok, ?_⟩
  rintro ⟨rfl, rfl⟩
  exact spanOf_of_le s.start_le_stop

namespace WrittenAt

variable {source : List Char} {p : Script.Param} {note : Expr} {start stop : Nat}

theorem length_name (h : WrittenAt source p note start stop) :
    p.name.length = (Unicode.normalize (wordAt source start)).length := by
  rw [h.name, String.length_ofList]

theorem bareSpan_eq (h : WrittenAt source p note start stop) :
    bareSpan (Index.ofSource source) p note =
      spanOf (start + (Unicode.normalize (wordAt source start)).length) stop := by
  rw [bareSpan, offsetOf, stopOf, offsetOf, h.starts.offset?, h.stops.offset?, ← h.length_name]
  rfl

end WrittenAt

/-- One span leaves what stands before it and behind it. -/
theorem applyRemovals_singleton (source : List Char) (s : Span) :
    applyRemovals source [s] = .ok (source.take s.start ++ source.drop s.stop) := by
  rw [applyRemovals_eq_ok_iff]
  refine ⟨[s], (ordered_eq_ok_iff _ _).mpr ⟨by simp, by simp⟩, ?_⟩
  simp [remaining, cut]

/-- Cuts that end at the same place and start at different ones leave texts of different lengths. -/
theorem take_append_drop_inj {source : List Char} {m n stop : Nat} (hm : m ≤ source.length)
    (hn : n ≤ source.length) :
    source.take m ++ source.drop stop = source.take n ++ source.drop stop ↔ m = n := by
  refine ⟨fun h => ?_, fun h => h ▸ rfl⟩
  have hlength := congrArg List.length h
  simp only [List.length_append, List.length_take, List.length_drop] at hlength
  omega

/-! ## The cut -/

/-- **Where the annotation is cut off.** Every parameter of a script that has an annotation is
written as a word, and the annotation ends behind that word. The span of the annotation ends there
too, but it starts where the normal form of the word would end. So there is no span if the normal
form reaches beyond the annotation; the span starts right behind the identifier, and removing it
leaves the identifier and what stands behind the annotation, exactly when the normal form is as
long as the identifier. -/
theorem bare_annotation_cut {source : String} {m : Module} {p : Script.Param} {note : Expr}
    (h : parseModule source = .ok m) (hp : p ∈ m.params) (hnote : p.annotation = some note) :
    ∃ start stop word, WrittenAt source.toList p note start stop ∧
    word = wordAt source.toList start ∧
      (∀ s, bareSpan (Index.ofSource source.toList) p note = .ok s ↔
        s.start = start + (Unicode.normalize word).length ∧ s.stop = stop) ∧
      (stop < start + (Unicode.normalize word).length →
        bareSpan (Index.ofSource source.toList) p note =
          .error (.span (.invalid (start + (Unicode.normalize word).length : Nat) stop))) ∧
      ((∃ s, bareSpan (Index.ofSource source.toList) p note = .ok s ∧
          s.start = start + word.length ∧
          s.stop = stop) ↔ (Unicode.normalize word).length = word.length) ∧
      ((∃ s, bareSpan (Index.ofSource source.toList) p note = .ok s ∧
          applyRemovals source.toList [s] =
            .ok (source.toList.take (start + word.length) ++ source.toList.drop stop)) ↔
        (Unicode.normalize word).length = word.length) := by
  obtain ⟨start, stop, hwritten⟩ := exists_writtenAt h hp hnote
  have hlength := hwritten.stops.le_length
  have hle := hwritten.le
  refine ⟨start, stop, _, hwritten, rfl, ?_⟩
  rw [hwritten.bareSpan_eq]
  generalize wordAt source.toList start = word at hle
  -- only the length of the normal form counts
  generalize (Unicode.normalize word).length = reach
  refine ⟨fun s => spanOf_eq_ok_iff, spanOf_of_lt, ?_, ?_⟩
  · simp only [spanOf_eq_ok_iff]
    constructor
    · rintro ⟨s, ⟨hs, -⟩, hs', -⟩
      omega
    · rintro rfl
      exact ⟨⟨_, _, hle⟩, ⟨rfl, rfl⟩, rfl, rfl⟩
  · simp only [spanOf_eq_ok_iff, applyRemovals_singleton, Except.ok.injEq]
    constructor
    · rintro ⟨s, ⟨hs, rfl⟩, hcut⟩
      have hs' := s.start_le_stop
      rw [take_append_drop_inj (by omega) (by omega)] at hcut
      omega
    · rintro rfl
      exact ⟨⟨_, _, hle⟩, ⟨rfl, rfl⟩, rfl⟩

/-! ### A plain name and a ligature

Both scripts are the same but for the word that a parameter with a bare marker is written as. -/

/-- The tokens of the parameter, whose word takes up some bytes. -/
def bareTokens (name : String) (plain : Bool) (bytes : Nat) : List Token :=
  [tokenAt 4 8 1 (.op ","), tokenAt 4 9 bytes (.name name plain), tokenAt 4 (9 + bytes) 1 (.op ":"),
    tokenAt 4 (10 + bytes) 5 (.name "Param" true)]

/-- The marker in its annotation. -/
def bareNote (bytes : Nat) : Expr :=
  .name ⟨⟨4, 10 + bytes⟩, ⟨4, 15 + bytes⟩⟩ "Param"

def bareParam (name : String) (bytes : Nat) : Script.Param :=
  ⟨⟨⟨4, 9⟩, ⟨4, 15 + bytes⟩⟩, name, some (bareNote bytes)⟩

def bareModule (name : String) (bytes : Nat) : Module :=
  ⟨[classStmt 1 ⟨4, 18 + bytes⟩ "A" [actionStmt 4 (17 + bytes) "f" [bareParam name bytes] []]]⟩

def plainMarker : String :=
  "@AceClass\nclass A:\n @Action\n def f(s,x:Param):0\n"

def ligatureMarker : String :=
  "@AceClass\nclass A:\n @Action\n def f(s,ﬁ:Param):0\n"

set_option maxRecDepth 10000 in
theorem parseModule_plainMarker : parseModule plainMarker = .ok (bareModule "x" 1) :=
  parseModule_of_tokens
    (classTokens 1 4 "A" (actionTokens 4 18 "f" (bareTokens "x" true 1)) ++ [tokenAt 5 0 0 .finish])
    (by decide +kernel) (by rfl)

set_option maxRecDepth 10000 in
theorem parseModule_ligatureMarker : parseModule ligatureMarker = .ok (bareModule "fi" 3) :=
  parseModule_of_tokens
    (classTokens 1 4 "A" (actionTokens 4 20 "f" (bareTokens "fi" false 3)) ++
      [tokenAt 5 0 0 .finish])
    (by decide +kernel) (by rfl)

theorem mem_params_bareModule (name : String) (bytes : Nat) :
    bareParam name bytes ∈ (bareModule name bytes).params := by
  simp [Module.params, bareModule, classStmt, actionStmt, paramsIn, Stmt.params, Parameters.all]

/-- Behind a plain name the marker goes and the name stays. -/
theorem bare_annotation_cut_plainMarker :
    bareParam "x" 1 ∈ (bareModule "x" 1).params ∧
    ∃ s, bareSpan (Index.ofSource plainMarker.toList) (bareParam "x" 1) (bareNote 1) = .ok s ∧
      applyRemovals plainMarker.toList [s] =
        .ok "@AceClass\nclass A:\n @Action\n def f(s,x):0\n".toList := by
  have hmem := mem_params_bareModule "x" 1
  obtain ⟨start, stop, word, hwritten, rfl, -, -, -, hcut⟩ :=
    bare_annotation_cut parseModule_plainMarker hmem rfl
  obtain rfl : 37 = start := Option.some.inj (Eq.trans (by decide +kernel) hwritten.starts.offset?)
  obtain rfl : 44 = stop := Option.some.inj (Eq.trans (by decide +kernel) hwritten.stops.offset?)
  obtain ⟨s, hs, hrest⟩ := hcut.mpr (by decide +kernel)
  exact ⟨hmem, s, hs, hrest.trans (by decide +kernel)⟩

set_option maxRecDepth 100000 in
/-- Behind a ligature the cut starts one character late, and the colon is left. -/
theorem ligature_keeps_colon :
    ((extract {} ligatureMarker).result.map fun e => String.ofList e.stripped).toOption =
      some "class A:\n def f(s,ﬁ:):0\n" := by
  rw [extract_of_prepared parseModule_ligatureMarker rfl]
  cbv

end Addon.Annotated
