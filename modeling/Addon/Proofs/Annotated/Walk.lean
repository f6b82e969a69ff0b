import Addon.Proofs.Annotated.Extraction
import Addon.Proofs.Annotated.Spans

/-!
# Walk — the spans that the reading of a script collects

The reading walks over the marked classes of a script and collects spans: those of the class
markers, and for each exported method those of its marker and of its parameters. They come in the
order of the text and never leave the lines of the class.

## The architecture

* **`SignAt`** — how the sign of a decorator stands in the source.
* **`row_decoratorSpans`** — the spans of decorators lie in a row between the lines of their signs.
* **`row_readMembers`**, **`row_readClasses`** — one statement adds a row of spans behind those
  before it; by induction along the statements, so does a class and a whole script.
-/

namespace Addon.Annotated

open Script Source Text Cursor

variable {source : List Char} {c d : Cursor} {scope : Scope} {es : List Expr} {spans : List Span}
  {lo hi : Nat}
  {r : Reading} {q p : Progress} {moduleName className : String} {stmts : List Stmt}

/-! ## Signs of decorators -/

/-- The sign of a decorator, on the line that starts at `line`. Only blanks stand before it on its
line, and only trivia and opening parentheses between it and the expression. -/
structure SignAt (source : List Char) (e : Expr) (line sign : Nat) : Prop where
  boundary : Boundary source line
  line_le : line ≤ sign
  blank : ∀ x ∈ cut source line sign, isInlineBlank x = true
  char : source[sign]? = some '@'
  lead : ∃ start, (Index.ofSource source).offset? e.extent.start.line e.extent.start.column =
    some start ∧
    Lead (unifyLineEnds (cut source (sign + 1) start)) (unifyLineEnds (source.drop start))

/-- A decorator at the start of a logical line has its sign there. -/
theorem exists_signAt {f : Cursor} {t : Token} {e : Expr} (hc : c.Within (readText source))
    (hfresh : c.Fresh) (ht : c.Takes t d) (hk : t.kind = .op "@") (he : Parsed d e f) :
    ∃ line sign start stop, SignAt source e line sign ∧ Marks source c.pos.lineStart line ∧
      Marks source e.extent.start start ∧ Marks source e.extent.stop stop ∧ sign < start ∧
      start ≤ stop ∧ e.extent.stop ≤ f.last := by
  obtain ⟨line, sign, hle, hline, hpos, hblank⟩ := hc.blank_before hfresh ht hk
  obtain ⟨sign', hpos', hsign, hbehind⟩ := hc.marks_sign ht hk
  obtain rfl := hpos'.unique hpos
  obtain ⟨a, b, hda, hab, hbf, hextent, -⟩ := he
  have hd := hc.of_takes ht
  have ha := hd.of_advances hda.advances
  have hb := ha.of_advances hab.advances
  -- what stands between the sign and the expression is looked up in the source
  obtain ⟨front, lead, rest, htext, hlast, hstart, hlead, hne⟩ := hd.exists_lead hda hab
  rw [← List.append_assoc] at htext
  obtain ⟨v, hv, hbegins⟩ := prefix_of_readText htext (.inl hne)
  obtain ⟨n, start, -, hn, hmark, hcut, rfl⟩ := exists_offsets hv
  rw [← hlast] at hn
  rw [← hstart] at hmark
  obtain rfl := hn.unique hbehind
  obtain ⟨stop, hstop⟩ := hb.marks_last
  have hsignstart : sign' + 1 ≤ start :=
    (hbehind.le_iff hmark).mp (Position.le_trans (hd.last_le_last hda.advances) ha.last_le_pos)
  refine ⟨line, sign', start, stop, ⟨hline.boundary rfl, hle, hblank, hsign, start, ?_, ?_⟩,
    hline, ?_, ?_, hsignstart, ?_, ?_⟩
  · rw [hextent]
    exact hmark.offset?
  · rw [hcut]
    exact hlead.of_prefix hbegins
  · rw [hextent]
    exact hmark
  · rw [hextent]
    exact hstop
  · exact (hmark.le_iff hstop).mp (ha.pos_le_last hab)
  · rw [hextent]
    exact hb.last_le_last hbf

/-- The line of the first token behind a logical line starts behind all that was read. -/
theorem exists_line (hc : c.Within (readText source)) (hfresh : c.Fresh) (hcd : c.Past d) :
    ∃ line, Marks source c.pos.lineStart line ∧ c.last ≤ c.pos.lineStart := by
  obtain ⟨n, hn⟩ := hc.marks_pos hcd
  obtain ⟨line, -, hline⟩ := hn.exists_lineStart
  refine ⟨line, hline, ?_⟩
  obtain ⟨ts, hts, -, u, hu, -⟩ := hcd
  cases ts with
  | nil => cases hu
  | cons t ts =>
    have ht : c.Takes t ⟨ts ++ d.rest, t.reach c.last⟩ := ⟨hts, rfl⟩
    rw [ht.pos]
    exact hfresh t (by rw [hts]; exact List.mem_cons_self)

/-- The spans of some of the decorators of a definition lie in a row, from the line of the first
sign to the line of the definition. -/
theorem row_decoratorSpans {k z : Cursor} {chosen : List Expr} (hc : c.Within (readText source))
    (hfresh : c.Fresh) (hes : Decorated c es k) (hkz : k.Past z) (hchosen : List.Sublist chosen es)
    (h : decoratorSpans scope (Index.ofSource source) chosen = .ok spans)
    (hlo : Marks source c.pos.lineStart lo) (hhi : Marks source k.pos.lineStart hi) :
    Row lo spans hi := by
  induction hes generalizing chosen spans lo with
  | nil c =>
    rw [List.sublist_nil.mp hchosen] at h
    obtain rfl := Except.ok.inj h
    exact .nil (Nat.le_of_eq (hlo.unique hhi))
  | @cons c d f g k t e rest ht hk he hline hrest ih =>
    have hf : f.Within (readText source) := (hc.of_takes ht).of_advances he.advances
    have hg := hf.of_advances hline.advances
    have hgfresh := hf.fresh_of_endsLine hline
    have hgz : g.Past z := hrest.lines.advances.past hkz
    obtain ⟨next, hnext, hgle⟩ := exists_line hg hgfresh hgz
    obtain ⟨line, sign, start, stop, hsign, hmark, hstart, hstop, hlt, hle, hstopf⟩ :=
      exists_signAt hc hfresh ht hk he
    obtain rfl := hmark.unique hlo
    have hstopnext : stop ≤ next := by
      refine (hstop.le_iff hnext).mp ?_
      exact Position.le_trans hstopf (Position.le_trans (hf.last_le_last hline.advances) hgle)
    -- a decorator that is not chosen only widens the row
    cases hchosen with
    | cons _ hchosen =>
      have hlinenext : line ≤ next := by
        have := hsign.line_le
        omega
      exact (ih hg hgfresh hkz hchosen h hnext hhi).widen_left hlinenext
    | cons_cons _ hchosen =>
      simp only [decoratorSpans, bind_eq_ok] at h
      obtain ⟨s, hs, others, hothers, hspans⟩ := h
      obtain rfl := Except.ok.inj hspans
      obtain ⟨hlow, hhigh⟩ := decoratorSpan_bounds hs hsign.char hstart hstop hlt hle hsign.boundary
        hsign.line_le (hnext.boundary rfl) hstopnext
      exact .cons hlow ((ih hg hgfresh hkz hchosen hothers hnext hhi).widen_left hhigh)

/-! ## Methods -/

/-- What is marked are some of the decorators, in their order. -/
theorem markedDecorators_sublist {marked : List (Expr × Marker)}
    (h : markedDecorators r es = .ok marked) :
    List.Sublist (marked.map (·.1)) es ∧ ∀ x ∈ marked, r.markerOf x.1 = .ok (some x.2) := by
  induction es generalizing marked with
  | nil =>
    obtain rfl := Except.ok.inj h
    simp
  | cons e es ih =>
    simp only [markedDecorators, bind_eq_ok] at h
    obtain ⟨marker, hmarker, others, hothers, hmarked⟩ := h
    obtain rfl := Except.ok.inj hmarked
    obtain ⟨hsub, hmarkers⟩ := ih hothers
    cases marker with
    | none => exact ⟨hsub.cons e, hmarkers⟩
    | some marker => exact ⟨hsub.cons_cons e, List.forall_mem_cons.mpr ⟨hmarker, hmarkers⟩⟩

theorem mem_of_markedDecorators {marked : List (Expr × Marker)}
    (h : markedDecorators r es = .ok marked) : ∀ x ∈ marked, x.1 ∈ es :=
  fun _ hx => (markedDecorators_sublist h).1.subset (List.mem_map_of_mem hx)

/-- The spans of a method: that of its marker and those of its parameters. -/
theorem readMethod_spans {m : Method} {record : Ace.Record}
    (h : readMethod scope r m = .ok (some (record, spans))) :
    ∃ e s qs more, e ∈ m.decorators ∧ decoratorSpan scope r.index e = .ok s ∧
      readParams scope r (callerParams m.params m.decorators) = .ok (qs, more) ∧
        spans = s :: more := by
  obtain ⟨marked, hmarked, h⟩ := bind_eq_ok.mp h
  split at h
  · cases h
  · next e marker =>
    simp only [bind_eq_ok] at h
    obtain ⟨⟨record', spans'⟩, hread, hresult⟩ := h
    obtain ⟨rfl, rfl⟩ := Prod.mk.inj (Option.some.inj (Except.ok.inj hresult))
    have hmem := mem_of_markedDecorators hmarked _ List.mem_cons_self
    simp only [readMarked, bind_eq_ok] at hread
    obtain ⟨s, hs, options, -, hread⟩ := hread
    split at hread
    · exact absurd hread complain_ne_ok
    · simp only [bind_eq_ok] at hread
      obtain ⟨⟨qs, more⟩, hparams, _, -, _, -, hresult⟩ := hread
      exact ⟨e, s, qs, more, hmem, hs, hparams, (Prod.mk.inj (Except.ok.inj hresult)).2.symm⟩
  · exact absurd h complain_ne_ok
  · exact absurd h complain_ne_ok

/-- The spans of a method come in a row, behind all that was read before it. -/
theorem row_readMethod {m : Method} {record : Ace.Record} {k a b : Cursor}
    (hindex : r.index = Index.ofSource source) (hc : c.Within (readText source)) (hfresh : c.Fresh)
    (hdecorators : Decorated c m.decorators k) (hka : k.Past a)
    (hps : Parser.Chain ParamParsed a (m.params.positionalOnly ++ m.params.ordinary) b)
    (h : readMethod scope r m = .ok (some (record, spans))) (hlo : Marks source c.last lo)
    (hhi : Marks source b.last hi) : Row lo spans hi := by
  obtain ⟨e, s, qs, more, he, hs, hparams, rfl⟩ := readMethod_spans h
  have hk := hc.of_advances hdecorators.lines.advances
  have ha := hk.of_advances hka.advances
  obtain ⟨line, hline, hlast⟩ := exists_line hc hfresh (hdecorators.lines.advances.past hka)
  obtain ⟨next, hnext, -⟩ := exists_line hk (hc.fresh_of_lines hfresh hdecorators.lines) hka
  obtain ⟨mid, hmid⟩ := ha.marks_last
  rw [hindex] at hs
  have hspan : decoratorSpans scope (Index.ofSource source) [e] = .ok [s] := by
    rw [decoratorSpans, hs]
    rfl
  have hfirst : Row line [s] next :=
    row_decoratorSpans hc hfresh hdecorators hka (List.singleton_sublist.mpr he) hspan hline hnext
  have hsecond : Row mid more hi :=
    row_readParams hindex ha (chain_of_sublist (callerParams_sublist _ _) hps) hparams hmid hhi
  have hlo' : lo ≤ line := (hlo.le_iff hline).mp hlast
  have hmid' : next ≤ mid :=
    (hnext.le_iff hmid).mp (Position.le_trans (Position.lineStart_le _) (hk.pos_le_last hka))
  exact ((hfirst.widen_left hlo').widen_right hmid').append hsecond

/-! ## Classes -/

/-- What a step that came to its end consists of. -/
theorem next_eq_ok {o : Outcome} {step : Progress → Outcome}
    (h : o.next step = (q, .ok ())) : ∃ p, o = (p, .ok ()) ∧ step p = (q, .ok ()) := by
  obtain ⟨p, result⟩ := o
  cases result with
  | error f => cases h
  | ok u => exact ⟨p, rfl, h⟩

/-- A method adds the spans that were read of it, if any. -/
theorem readMember_spans {m : Method}
    (h : readMember scope r moduleName className m p = (q, .ok ())) :
    q.spans = p.spans ∨ ∃ scope record spans, readMethod scope r m = .ok (some (record, spans)) ∧
      q.spans = p.spans ++ spans := by
  unfold readMember at h
  dsimp only at h
  split at h
  · obtain ⟨rfl, -⟩ := Prod.mk.inj h
    exact .inl rfl
  · next record spans hread =>
    unfold registerMethod at h
    split at h
    · obtain ⟨rfl, -⟩ := Prod.mk.inj h
      exact .inr ⟨_, record, spans, hread, rfl⟩
    · exact absurd (Prod.mk.inj h).2 complain_ne_ok
  · cases (Prod.mk.inj h).2

theorem ofStmt?_of_isPlain {s : Stmt} (h : s.isPlain = true) : Method.ofStmt? s = none := by
  cases s <;> first | rfl | cases h

/-- The methods of a class add spans in a row. -/
theorem row_readMembers (hindex : r.index = Index.ofSource source) (hc : c.Within (readText source))
    (hfresh : c.Fresh) (hstmts : StmtsRead c stmts d)
    (h : readMembers scope r moduleName className stmts p = (q, .ok ()))
    (hlo : Marks source c.last lo) (hhi : Marks source d.last hi) :
    ∃ new, q.spans = p.spans ++ new ∧ Row lo new hi := by
  induction hstmts generalizing p lo with
  | nil c =>
    obtain ⟨rfl, -⟩ := Prod.mk.inj h
    exact ⟨[], by simp, .nil (Nat.le_of_eq (hlo.unique hhi))⟩
  | @skip c d e rest hlines _ ih =>
    have hd := hc.of_advances hlines.advances
    obtain ⟨mid, hmid⟩ := hd.marks_last
    obtain ⟨new, hnew, hrow⟩ := ih hd (hc.fresh_of_lines hfresh hlines) h hmid hhi
    exact ⟨new, hnew, hrow.widen_left ((hlo.le_iff hmid).mp (hc.last_le_last hlines.advances))⟩
  | plain hs _ ih =>
    rw [readMembers, ofStmt?_of_isPlain hs] at h
    exact ih hc hfresh h hlo hhi
  | @functionDef c k a b d e x isAsync name ps body rest decorators returns hdecorators hka hps
      hline _ ih =>
    rw [readMembers] at h
    obtain ⟨p', hmember, hrest⟩ := next_eq_ok h
    have hab := hps.1.advances fun _ _ _ hp => hp.advances
    have hcb := hdecorators.lines.advances.trans (hka.advances.trans hab)
    have hb := hc.of_advances hcb
    have hd := hb.of_advances hline.advances
    obtain ⟨mid, hmid⟩ := hb.marks_last
    obtain ⟨next, hnext⟩ := hd.marks_last
    have hmidnext : mid ≤ next := (hmid.le_iff hnext).mp (hb.last_le_last hline.advances)
    obtain ⟨new, hnew, hrow⟩ := ih hd (hb.fresh_of_endsLine hline) hrest hnext hhi
    -- without markers the row of the rest is widened over the lines of the method
    rcases readMember_spans hmember with hsame | ⟨scope, record, spans, hread, hspans⟩
    · rw [hsame] at hnew
      refine ⟨new, hnew, hrow.widen_left ((hlo.le_iff hnext).mp ?_)⟩
      exact hc.last_le_last (hcb.trans hline.advances)
    · rw [hspans, List.append_assoc] at hnew
      have hfirst := row_readMethod hindex hc hfresh hdecorators hka hps.1 hread hlo hmid
      exact ⟨spans ++ new, hnew, (hfirst.widen_right hmidnext).append hrow⟩
  | @classDef c k b d e x name bases keywords body rest decorators hdecorators _ hline hbody
      _ _ _ ih =>
    -- a class in a class is passed over
    have hcd := hdecorators.lines.advances.trans (hline.advances.trans hbody.lines.advances)
    have hb := hc.of_advances (hdecorators.lines.advances.trans hline.advances)
    have hbfresh := (hc.of_advances hdecorators.lines.advances).fresh_of_endsLine hline
    have hd := hc.of_advances hcd
    obtain ⟨mid, hmid⟩ := hd.marks_last
    obtain ⟨new, hnew, hrow⟩ := ih hd (hb.fresh_of_lines hbfresh hbody.lines) h hmid hhi
    exact ⟨new, hnew, hrow.widen_left ((hlo.le_iff hmid).mp (hc.last_le_last hcd))⟩

/-- The container markers are some of the decorators. -/
theorem containerMarkers_sublist {containers : List Expr}
    (h : containerMarkers r es = .ok containers) :
    List.Sublist containers es ∧ ∀ e ∈ containers, r.markerOf e = .ok (some .container) := by
  obtain ⟨marked, hmarked, h⟩ := bind_eq_ok.mp h
  obtain rfl := Except.ok.inj h
  obtain ⟨hsub, hmarkers⟩ := markedDecorators_sublist hmarked
  refine ⟨(List.filter_sublist.map _).trans hsub, fun e he => ?_⟩
  obtain ⟨x, hx, rfl⟩ := List.mem_map.mp he
  obtain ⟨hmem, hcontainer⟩ := List.mem_filter.mp hx
  rw [hmarkers x hmem, of_decide_eq_true hcontainer]

/-- Warnings leave the spans as they are. -/
theorem warnDecorators_spans {method : String}
    (h : warnDecorators scope r className method es p = (q, .ok ())) :
    q.spans = p.spans := by
  induction es generalizing p with
  | nil =>
    obtain ⟨rfl, -⟩ := Prod.mk.inj h
    rfl
  | cons e es ih =>
    rw [warnDecorators] at h
    split at h
    · have := ih h
      exact this
    · exact ih h
    · cases (Prod.mk.inj h).2

theorem warnMembers_spans (h : warnMembers scope r className stmts p = (q, .ok ())) :
    q.spans = p.spans := by
  induction stmts generalizing p with
  | nil =>
    obtain ⟨rfl, -⟩ := Prod.mk.inj h
    rfl
  | cons s stmts ih =>
    rw [warnMembers] at h
    split at h
    · obtain ⟨p', hfirst, hrest⟩ := next_eq_ok h
      rw [ih hrest, warnDecorators_spans hfirst]
    · exact ih h

/-- The span lies within a marked class among the statements: from the start of the line with the
sign of its first decorator to its end. -/
def InMarkedClass (source : List Char) (r : Reading) (stmts : List Stmt) (s : Span) : Prop :=
  ∃ x name bases keywords body first others,
    Stmt.classDef x name bases keywords body (first :: others) ∈ stmts ∧
    (∃ e ∈ first :: others, r.markerOf e = .ok (some .container)) ∧
    ∃ line sign stop, SignAt source first line sign ∧
      (Index.ofSource source).offset? x.stop.line x.stop.column = some stop ∧
      line ≤ s.start ∧ s.stop ≤ stop

theorem InMarkedClass.cons {s : Span} (h : InMarkedClass source r stmts s) (other : Stmt) :
    InMarkedClass source r (other :: stmts) s := by
  obtain ⟨x, name, bases, keywords, body, first, others, hmem, hrest⟩ := h
  exact ⟨x, name, bases, keywords, body, first, others, List.mem_cons_of_mem other hmem, hrest⟩

/-- A class adds spans in a row. If it is marked, they stay on its lines; if not, there are none. -/
theorem row_readClass {name : String} {body : List Stmt} {decorators : List Expr} {k b : Cursor}
    (hindex : r.index = Index.ofSource source) (hc : c.Within (readText source)) (hfresh : c.Fresh)
    (hdecorators : Decorated c decorators k) (hpast : k.Past b) (hline : k.EndsLine b)
    (hbody : StmtsRead b body d)
    (h : readClass scope r moduleName name body decorators p = (q, .ok ()))
    (hlo : Marks source c.last lo) (hhi : Marks source d.last hi) :
    ∃ new, q.spans = p.spans ++ new ∧ Row lo new hi ∧
      ∀ s ∈ new, ∃ first others, decorators = first :: others ∧
        (∃ e ∈ decorators, r.markerOf e = .ok (some .container)) ∧
        ∃ line sign, SignAt source first line sign ∧ line ≤ s.start ∧ s.stop ≤ hi := by
  have hcb := hdecorators.lines.advances.trans hpast.advances
  have hk := hc.of_advances hdecorators.lines.advances
  have hb := hc.of_advances hcb
  have hlohi : lo ≤ hi := (hlo.le_iff hhi).mp (hc.last_le_last (hcb.trans hbody.lines.advances))
  unfold readClass at h
  split at h
  · cases (Prod.mk.inj h).2
  · exact ⟨[], by simpa using warnMembers_spans h, .nil hlohi, by simp⟩
  · next containers hnil hcontainers =>
    obtain ⟨hsub, hmarked⟩ := containerMarkers_sublist hcontainers
    split at h
    · cases (Prod.mk.inj h).2
    · next spans hspans =>
      rw [hindex] at hspans
      obtain ⟨line, hmark, hlast⟩ := exists_line hc hfresh (hdecorators.lines.advances.past hpast)
      obtain ⟨next, hnext, -⟩ := exists_line hk (hc.fresh_of_lines hfresh hdecorators.lines) hpast
      obtain ⟨mid, hmid⟩ := hb.marks_last
      have hfirst : Row line spans next :=
        row_decoratorSpans hc hfresh hdecorators hpast hsub hspans hmark hnext
      obtain ⟨new, hnew, hsecond⟩ :=
        row_readMembers hindex hb (hk.fresh_of_endsLine hline) hbody h hmid hhi
      have hnextmid : next ≤ mid :=
        (hnext.le_iff hmid).mp (Position.le_trans (Position.lineStart_le _) (hk.pos_le_last hpast))
      have hrow : Row line (spans ++ new) hi := (hfirst.widen_right hnextmid).append hsecond
      refine ⟨spans ++ new, by rw [hnew, List.append_assoc], ?_, fun s hs => ?_⟩
      · exact hrow.widen_left ((hlo.le_iff hmark).mp hlast)
      · -- a marked class has a decorator, and its sign stands on the line of the first token
        obtain ⟨e, he⟩ := List.exists_mem_of_ne_nil containers hnil
        have he' := hsub.subset he
        cases hdecorators with
        | nil => cases he'
        | cons ht hsign hparsed _ _ =>
          obtain ⟨line', sign, -, -, hsignat, hmark', -⟩ := exists_signAt hc hfresh ht hsign hparsed
          obtain rfl := hmark'.unique hmark
          exact ⟨_, _, rfl, ⟨e, he', hmarked e he⟩, line', sign, hsignat, hrow.bounds s hs⟩

/-- The classes of a script add spans in a row, each on the lines of a marked class. -/
theorem row_readClasses (hindex : r.index = Index.ofSource source) (hc : c.Within (readText source))
    (hfresh : c.Fresh) (hstmts : StmtsRead c stmts d)
    (h : readClasses scope r moduleName stmts p = (q, .ok ()))
    (hlo : Marks source c.last lo) (hhi : Marks source d.last hi) :
    ∃ new, q.spans = p.spans ++ new ∧ Row lo new hi ∧
    ∀ s ∈ new, InMarkedClass source r stmts s := by
  induction hstmts generalizing p lo with
  | nil c =>
    obtain ⟨rfl, -⟩ := Prod.mk.inj h
    exact ⟨[], by simp, .nil (Nat.le_of_eq (hlo.unique hhi)), by simp⟩
  | @skip c d e rest hlines _ ih =>
    have hd := hc.of_advances hlines.advances
    obtain ⟨mid, hmid⟩ := hd.marks_last
    obtain ⟨new, hnew, hrow, hin⟩ := ih hd (hc.fresh_of_lines hfresh hlines) h hmid hhi
    exact ⟨new, hnew, hrow.widen_left ((hlo.le_iff hmid).mp (hc.last_le_last hlines.advances)), hin⟩
  | @plain c e s rest hs _ ih =>
    have hskip : readClasses scope r moduleName rest p = (q, .ok ()) := by
      cases s <;> first | exact h | cases hs
    obtain ⟨new, hnew, hrow, hin⟩ := ih hc hfresh hskip hlo hhi
    exact ⟨new, hnew, hrow, fun u hu => (hin u hu).cons s⟩
  | @functionDef c k a b d e x isAsync name ps body rest decorators returns hdecorators hka hps
      hline _ ih =>
    have hab := hps.1.advances fun _ _ _ hp => hp.advances
    have hcb := hdecorators.lines.advances.trans (hka.advances.trans hab)
    have hb := hc.of_advances hcb
    have hd := hb.of_advances hline.advances
    obtain ⟨mid, hmid⟩ := hd.marks_last
    obtain ⟨new, hnew, hrow, hin⟩ := ih hd (hb.fresh_of_endsLine hline) h hmid hhi
    have hlomid := (hlo.le_iff hmid).mp (hc.last_le_last (hcb.trans hline.advances))
    exact ⟨new, hnew, hrow.widen_left hlomid, fun u hu => (hin u hu).cons _⟩
  | @classDef c k b d e x name bases keywords body rest decorators hdecorators hpast hline hbody
      hx _ _ ih =>
    rw [readClasses] at h
    obtain ⟨p', hclass, hrest⟩ := next_eq_ok h
    have hcb := hdecorators.lines.advances.trans hline.advances
    have hb := hc.of_advances hcb
    have hbfresh := (hc.of_advances hdecorators.lines.advances).fresh_of_endsLine hline
    have hd := hb.of_advances hbody.lines.advances
    obtain ⟨mid, hmid⟩ := hd.marks_last
    obtain ⟨first, hfirst, hrow, hin⟩ :=
      row_readClass hindex hc hfresh hdecorators hpast hline hbody hclass hlo hmid
    obtain ⟨others, hothers, hrow', hin'⟩ :=
      ih hd (hb.fresh_of_lines hbfresh hbody.lines) hrest hmid hhi
    refine ⟨first ++ others, by rw [hothers, hfirst, List.append_assoc], hrow.append hrow', ?_⟩
    intro s hs
    rcases List.mem_append.mp hs with hs | hs
    · obtain ⟨e, es, rfl, hmarked, line, sign, hsign, hle, hle'⟩ := hin s hs
      refine ⟨x, name, bases, keywords, body, e, es, List.mem_cons_self, hmarked, line, sign,
        mid, hsign, ?_, hle, hle'⟩
      rw [hx]
      exact hmid.offset?
    · exact (hin' s hs).cons _

/-! ## Whole scripts -/

/-- **What is collected can be removed.** Whenever the walk over a script comes to its end, its
spans are valid, lie inside the source and share no place, so that the removal and with it the
extraction succeeds; and each lies on the lines of a class that is marked, from the line with the
sign of its first decorator to its end. How parameter names are written does not matter for this. -/
theorem collected_spans_removable (registry : Ace.Registry) (source name : String) (m : Module)
    (r : Reading) (p : Progress) (hm : parseModule source = .ok m)
    (hr : reading source.toList m = .ok r)
    (hp : readClasses (scopeOf source.toList) r name m.body (beginning registry) = (p, .ok ())) :
    (∀ s ∈ p.spans, s.start ≤ s.stop ∧ s.stop ≤ source.toList.length) ∧
    p.spans.Pairwise Span.Apart ∧
    (∃ stripped, applyRemovals source.toList p.spans = .ok stripped) ∧
    (∃ e, (extract registry source name).result = .ok e) ∧
    ∀ s ∈ p.spans, InMarkedClass source.toList r m.body s := by
  obtain ⟨c, d, hc, hlast, hstmts⟩ := stmtsRead_parseModule hm
  obtain ⟨lo, hlo⟩ := hc.marks_last
  obtain ⟨hi, hhi⟩ := (hc.of_advances hstmts.lines.advances).marks_last
  obtain ⟨new, hnew, hrow, hin⟩ :=
    row_readClasses (reading_eq_ok hr).1 hc (hc.fresh_of_start hlast) hstmts hp hlo hhi
  rw [beginning, List.nil_append] at hnew
  rw [hnew]
  have hapart : new.Pairwise Span.Apart := hrow.pairwise.imp .inl
  have hcut : applyRemovals source.toList new =
      .ok (remaining source.toList 0 (new.mergeSort Span.le)) :=
    (applyRemovals_eq_ok_iff _ _ _).mpr ⟨_, ordered_of_apart hapart, rfl⟩
  refine ⟨fun s hs => ⟨s.start_le_stop, ?_⟩, hapart, ⟨_, hcut⟩, ?_, hin⟩
  · exact Nat.le_trans (hrow.bounds s hs).2 hhi.le_length
  · rw [extract_result_of_walk hm hr hp, finish, hnew, hcut]
    exact ⟨_, rfl⟩

/-! ### A marker in parentheses -/

/-- A parameter whose annotation is a marker in parentheses, which do not belong to the marker. -/
def parenthesizedMarker : String :=
  "@AceClass\nclass A:\n @Action\n def f(s,x:(Param)):0\n"

/-- The tokens of the annotated parameter. -/
def parenthesizedTokens : List Token :=
  [tokenAt 4 8 1 (.op ","), tokenAt 4 9 1 (.name "x" true), tokenAt 4 10 1 (.op ":"),
    tokenAt 4 11 1 (.op "("), tokenAt 4 12 5 (.name "Param" true), tokenAt 4 17 1 (.op ")")]

set_option maxRecDepth 10000 in
theorem parseModule_parenthesizedMarker : parseModule parenthesizedMarker =
    .ok ⟨[classStmt 1 ⟨4, 21⟩ "A" [actionStmt 4 20 "f"
      [⟨⟨⟨4, 9⟩, ⟨4, 18⟩⟩, "x", some (.name ⟨⟨4, 12⟩, ⟨4, 17⟩⟩ "Param")⟩] []]]⟩ :=
  parseModule_of_tokens
    (classTokens 1 4 "A" (actionTokens 4 20 "f" parenthesizedTokens) ++ [tokenAt 5 0 0 .finish])
    (by decide +kernel) (by rfl)

set_option maxRecDepth 100000 in
/-- Three spans are collected, the last of which leaves a parenthesis behind. -/
theorem extract_parenthesizedMarker :
    ((extract {} parenthesizedMarker).result.map fun e =>
      (e.spans.length, String.ofList e.stripped)).toOption =
    some (3, "class A:\n def f(s,x)):0\n") := by
  rw [extract_of_prepared parseModule_parenthesizedMarker rfl]
  cbv

/-- A script whose walk comes to its end with three spans. -/
theorem collected_spans_removable_parenthesized :
    ∃ m r p, parseModule parenthesizedMarker = .ok m ∧
      reading parenthesizedMarker.toList m = .ok r ∧
      readClasses (scopeOf parenthesizedMarker.toList) r defaultModuleName m.body (beginning {}) =
        (p, .ok ()) ∧
      p.spans.length = 3 ∧ p.spans.Pairwise Span.Apart ∧
      ∀ s ∈ p.spans, InMarkedClass parenthesizedMarker.toList r m.body s := by
  have hrun := extract_parenthesizedMarker
  cases hresult : (extract {} parenthesizedMarker).result with
  | error f =>
    rw [hresult] at hrun
    cases hrun
  | ok e =>
    rw [hresult] at hrun
    obtain ⟨m, r, p, hm, hr, hp, hfinish⟩ := extract_result_eq_ok hresult
    obtain ⟨-, -, hspans⟩ := finish_eq_ok hfinish
    obtain ⟨-, hapart, -, -, hin⟩ := collected_spans_removable {} _ _ m r p hm hr hp
    refine ⟨m, r, p, hm, hr, hp, ?_, hapart, hin⟩
    have hlength : e.spans.length = 3 := (Prod.mk.inj (Option.some.inj hrun)).1
    rwa [hspans, List.length_mergeSort] at hlength

/-- What is left of it is no script. -/
theorem stripped_not_parsed :
    ∃ e, (extract {} parenthesizedMarker).result = .ok e ∧
      parseModule (String.ofList e.stripped) = .error .invalid := by
  have hrun := extract_parenthesizedMarker
  cases hresult : (extract {} parenthesizedMarker).result with
  | error f =>
    rw [hresult] at hrun
    cases hrun
  | ok e =>
    rw [hresult] at hrun
    have hstripped : String.ofList e.stripped = "class A:\n def f(s,x)):0\n" :=
      (Prod.mk.inj (Option.some.inj hrun)).2
    refine ⟨e, rfl, ?_⟩
    rw [hstripped]
    cbv

end Addon.Annotated
