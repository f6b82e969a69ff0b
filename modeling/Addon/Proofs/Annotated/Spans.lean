import Addon.Annotated.Method
import Addon.Proofs.Attempt
import Addon.Proofs.Script.Layout

/-!
# Spans — where the markers of a method are cut out

Three kinds of spans are cut out: decorators with their signs, annotations that are only a
marker, and markers among the metadata of an annotation. Each lies where the tokens of
what it removes were read.

## The architecture

* **`decoratorSpan_bounds`** — the span of a decorator stays between the start of the line of its
  sign and the next line start behind it, whether it is widened to whole lines or not.
* **`row_metadataSpans`**, **`bareSpan_bounds`** — spans in annotations stay inside the parameter.
  The second kind may start inside its name, since the length of the normal form is taken.
* **`row_readParams`** — the spans of the parameters of a method come in a row.
-/

namespace Addon.Annotated

open Script Source Text Cursor

variable {start lo hi : Nat} {source : List Char} {scope : Scope} {items : List Expr} {c d : Cursor}
  {spans : List Span} {p : Script.Param} {stop : Nat} {s : Span} {e : Expr} {r : Reading}

/-! ## Offsets -/

theorem spanOf_eq_ok (h : spanOf start stop = .ok s) :
    s.start = start ∧ s.stop = stop := by
  unfold spanOf Span.make at h
  split at h
  · cases h
  · obtain rfl := Except.ok.inj h
    exact ⟨Int.toNat_natCast start, Int.toNat_natCast stop⟩

/-- The offset of a place of the source. -/
theorem offsetOf_eq_ok {p : Position} {n m : Nat} (hn : Marks source p n)
    (h : offsetOf (Index.ofSource source) p = .ok m) : m = n := by
  rw [offsetOf, hn.offset?] at h
  exact (Except.ok.inj h).symm

/-! ## Decorators -/

/-- The sign that is found stands at the sign of the decorator or behind it. -/
theorem signBefore?_bounds {sign found : Nat} (h : signBefore? source start = some found)
    (hsign : source[sign]? = some '@') (hlt : sign < start) : sign ≤ found ∧ found < start := by
  unfold signBefore? at h
  dsimp only at h
  split at h
  · next rest hrest =>
    obtain rfl := Option.some.inj h
    have hsplit := List.takeWhile_append_dropWhile (p := isGap) (l := (source.take start).reverse)
    generalize hgap : ((source.take start).reverse).takeWhile isGap = gap at hsplit
    rw [hrest] at hsplit
    have htake : source.take start = rest.reverse ++ '@' :: gap.reverse := by
      rw [← List.reverse_reverse (source.take start), ← hsplit]
      simp
    have hlength : rest.length + (gap.length + 1) ≤ start := by
      have := congrArg List.length htake
      simp at this
      omega
    refine ⟨?_, by omega⟩
    by_contra hbehind
    -- between the sign that is found and the expression there are only gaps
    have hchar : (source.take start)[sign]? = some '@' := by rwa [List.getElem?_take_of_lt hlt]
    rw [htake, List.getElem?_append_right (by simp; omega), List.length_reverse] at hchar
    obtain ⟨i, hi⟩ : ∃ i, sign - rest.length = i + 1 := ⟨sign - rest.length - 1, by omega⟩
    rw [hi, List.getElem?_cons_succ] at hchar
    have hmem : '@' ∈ gap := by simpa using List.mem_of_getElem? hchar
    rw [← hgap] at hmem
    cases List.mem_takeWhile_imp hmem
  · cases h

/-- The span of a decorator stays between the line starts around it. -/
theorem decoratorSpan_bounds {sign : Nat}
    (h : decoratorSpan scope (Index.ofSource source) e = .ok s) (hsign : source[sign]? = some '@')
    (hstart : Marks source e.extent.start start) (hstop : Marks source e.extent.stop stop)
    (hlt : sign < start) (hle : start ≤ stop) (hlo : Boundary source lo) (hlosign : lo ≤ sign)
    (hhi : Boundary source hi) (hstophi : stop ≤ hi) :
    lo ≤ s.start ∧ s.stop ≤ hi := by
  simp only [decoratorSpan, bind_eq_ok] at h
  obtain ⟨start', hstart', stop', hstop', h⟩ := h
  rw [offsetOf_eq_ok hstart hstart'] at h
  rw [offsetOf_eq_ok hstop hstop'] at h
  split at h
  · exact absurd h complain_ne_ok
  · next found hfound =>
    obtain ⟨hsignfound, hfoundstart⟩ := signBefore?_bounds hfound hsign hlt
    -- the last line of the decorator is the one of its last character
    have hlast : max ((stop : Int) - 1) found = ((stop - 1 : Nat) : Int) := by omega
    rw [hlast] at h
    have hlength := hstop.le_length
    split at h
    · obtain ⟨hs, hs'⟩ := spanOf_eq_ok h
      rw [hs, hs']
      exact ⟨hlo.le_lineBounds (by omega) (by omega), hhi.lineBounds_le (by omega)⟩
    · obtain ⟨hs, hs'⟩ := spanOf_eq_ok h
      rw [hs, hs']
      exact ⟨by omega, hstophi⟩

/-! ## Annotations -/

/-- An item in a row stands within the row. -/
theorem placed_of_mem {a b : Cursor} (h : PlacedItems a items b) :
    ∀ e ∈ items, Placed a e.extent b := by
  induction h with
  | nil => simp
  | cons hcd he hrest ih =>
    obtain ⟨a', b', hda, hpast, hbe, hextent⟩ := he
    have hend := hrest.advances fun _ _ _ ⟨_, _, h₁, h₂, h₃, _⟩ => h₁.trans (h₂.advances.trans h₃)
    intro y hy
    rcases List.mem_cons.mp hy with rfl | hy
    · exact ⟨a', b', hcd.trans hda, hpast, hbe.trans hend, hextent⟩
    · obtain ⟨a'', b'', hea, hrest'⟩ := ih y hy
      exact ⟨a'', b'', hcd.trans (hda.trans (hpast.advances.trans (hbe.trans hea))), hrest'⟩

/-- The extent of an item, as offsets within those around it. -/
theorem marks_placed {a b : Cursor} {x : Extent} (ha : a.Within (readText source))
    (h : Placed a x b) :
    ∃ start stop, Marks source x.start start ∧ Marks source x.stop stop ∧ a.pos ≤ x.start ∧
      x.start ≤ x.stop ∧ x.stop ≤ b.last := by
  obtain ⟨a', b', haa, hpast, hbb, rfl⟩ := h
  have ha' := ha.of_advances haa
  have hb' := ha'.of_advances hpast.advances
  obtain ⟨start, hstart⟩ := ha'.marks_pos hpast
  obtain ⟨stop, hstop⟩ := hb'.marks_last
  exact ⟨start, stop, hstart, hstop, ha.pos_le_pos haa hpast, ha'.pos_le_last hpast,
    hb'.last_le_last hbb⟩

theorem itemsInside_of_annotatedItems? (h : annotatedItems? e = some items) :
    e.itemsInside = items := by
  unfold annotatedItems? at h
  split at h
  · split at h
    · exact Option.some.inj h
    · cases h
  · split at h
    · exact Option.some.inj h
    · cases h
  · cases h

/-- The spans of a marker among metadata lie one behind the other inside the annotation. -/
theorem row_metadataSpans {place : Nat} (hc : c.Within (readText source)) (he : Parsed c e d)
    (hitems : annotatedItems? e = some items)
    (h : metadataSpans (Index.ofSource source) e items place = .ok spans)
    (hlo : Marks source e.extent.start lo) (hhi : Marks source e.extent.stop hi) :
    Row lo spans hi := by
  obtain ⟨a, b, hca, hab, -, hextent, hrow⟩ := he
  rw [itemsInside_of_annotatedItems? hitems] at hrow
  have ha : a.Within (readText source) := hc.of_advances hca.advances
  -- every item starts and ends inside the annotation
  have hitem : ∀ x ∈ items, ∃ start stop, Marks source x.extent.start start ∧
      Marks source x.extent.stop stop ∧ lo ≤ start ∧ start ≤ stop ∧ stop ≤ hi := by
    intro x hx
    obtain ⟨start, stop, hstart, hstop, hle, hle', hle''⟩ :=
      marks_placed ha (placed_of_mem hrow x hx)
    rw [hextent] at hlo hhi
    exact ⟨start, stop, hstart, hstop, (hlo.le_iff hstart).mp hle, (hstart.le_iff hstop).mp hle',
      (hstop.le_iff hhi).mp hle''⟩
  unfold metadataSpans at h
  split at h
  · next base marker =>
    simp only [bind_eq_ok] at h
    obtain ⟨lo', hlo', start', hstart', opening, hopening, stop', hstop', hi', hhi',
      closing, hclosing, hspans⟩ := h
    obtain ⟨start, stop, hstart, hstop, -, hle, -⟩ := hitem base (by simp)
    obtain rfl := Except.ok.inj hspans
    obtain ⟨ho, ho'⟩ := spanOf_eq_ok hopening
    obtain ⟨hc, hc'⟩ := spanOf_eq_ok hclosing
    rw [offsetOf_eq_ok hlo hlo'] at ho
    rw [offsetOf_eq_ok hstart hstart'] at ho'
    rw [offsetOf_eq_ok hstop hstop'] at hc
    rw [offsetOf_eq_ok hhi hhi'] at hc'
    exact .cons (by omega) (.single (by omega) (by omega))
  · split at h
    · next before marker hbefore hmarker =>
      simp only [bind_eq_ok] at h
      obtain ⟨start', hstart', stop', hstop', s, hs, hspans⟩ := h
      obtain ⟨first, start, -, hstart, hlofirst, hle, -⟩ :=
        hitem before (List.mem_of_getElem? hbefore)
      obtain ⟨last, stop, -, hstop, -, -, hstophi⟩ := hitem marker (List.mem_of_getElem? hmarker)
      obtain rfl := Except.ok.inj hspans
      obtain ⟨hs, hs'⟩ := spanOf_eq_ok hs
      rw [offsetOf_eq_ok hstart hstart'] at hs
      rw [offsetOf_eq_ok hstop hstop'] at hs'
      exact .single (by omega) (by omega)
    · obtain rfl := Except.ok.inj h
      refine .nil ?_
      rw [hextent] at hlo hhi
      exact (hlo.le_iff hhi).mp (ha.pos_le_last hab)

/-- The span of an annotation that is only a marker starts with the parameter or behind it. -/
theorem bareSpan_bounds {marker : Expr} (h : bareSpan (Index.ofSource source) p marker = .ok s)
    (hstart : Marks source p.extent.start start) (hstop : Marks source marker.extent.stop stop) :
    s.start = start + p.name.length ∧ s.stop = stop := by
  simp only [bareSpan, bind_eq_ok] at h
  obtain ⟨start', hstart', stop', hstop', hs⟩ := h
  rw [offsetOf_eq_ok hstart hstart', offsetOf_eq_ok hstop hstop'] at hs
  exact spanOf_eq_ok hs

/-! ## Parameters -/

/-- The spans of a parameter lie one behind the other inside it. -/
theorem row_readNote {note : Note} (hindex : r.index = Index.ofSource source)
    (hc : c.Within (readText source)) (hp : ParamParsed c p d) (h : readNote scope r p = .ok note)
    (hlo : Marks source c.pos lo) (hhi : Marks source d.last hi) : Row lo note.spans hi := by
  obtain ⟨t, b, plain, ht, hk, hstart, hbd, hnote⟩ := hp
  have hsolid : t.kind.isLayout = false := hk ▸ rfl
  have hlohi : lo ≤ hi := (hlo.le_iff hhi).mp (hc.pos_le_last ((ht.past hsolid).trans hbd))
  unfold readNote at h
  split at h
  · obtain rfl := Except.ok.inj h
    exact .nil hlohi
  · next x name e =>
    obtain ⟨a, hba, he⟩ := hnote e rfl
    have ha := (hc.of_takes ht).of_advances hba
    obtain ⟨start, stop, hestart, hestop, hle, hle', hle''⟩ := marks_placed ha he.placed
    have hlostart : lo ≤ start := by
      refine (hlo.le_iff hestart).mp ?_
      calc c.pos ≤ b.last := hc.pos_le_of_takes ht hsolid
        _ ≤ a.last := (hc.of_takes ht).last_le_last hba
        _ ≤ a.pos := ha.last_le_pos
        _ ≤ e.extent.start := hle
    have hstophi : stop ≤ hi := (hestop.le_iff hhi).mp hle''
    rw [hindex] at h
    obtain ⟨marker, -, h⟩ := bind_eq_ok.mp h
    split at h
    · -- the annotation is only a marker
      obtain ⟨s, hs, h⟩ := bind_eq_ok.mp h
      obtain rfl := Except.ok.inj h
      rw [← hstart] at hlo
      obtain ⟨hs, hs'⟩ := bareSpan_bounds hs hlo hestop
      exact .single (by omega) (by omega)
    · split at h
      · obtain rfl := Except.ok.inj h
        exact .nil hlohi
      · next items hitems =>
        obtain ⟨markers, -, h⟩ := bind_eq_ok.mp h
        split at h
        · obtain rfl := Except.ok.inj h
          exact .nil hlohi
        · obtain ⟨spans, hspans, h⟩ := bind_eq_ok.mp h
          obtain rfl := Except.ok.inj h
          have hrow := row_metadataSpans ha he hitems hspans hestart hestop
          exact (hrow.widen_left hlostart).widen_right hstophi
        · exact absurd h complain_ne_ok

/-- The spans of a parameter are those of its annotation. -/
theorem readParam_spans {default : Option Expr}
    {q : Ace.Parameter} (h : readParam scope r p default = .ok (q, spans)) :
    ∃ note, readNote scope r p = .ok note ∧ spans = note.spans := by
  simp only [readParam, bind_eq_ok] at h
  obtain ⟨note, hnote, _, -, _, -, _, -, _, -, _, -, hresult⟩ := h
  exact ⟨note, hnote, (Prod.mk.inj (Except.ok.inj hresult)).2.symm⟩

/-- The spans of parameters in a row come in a row. -/
theorem row_readParams {ps : List (Script.Param × Option Expr)} {qs : List Ace.Parameter}
    (hindex : r.index = Index.ofSource source)
    (hc : c.Within (readText source)) (hps : Parser.Chain ParamParsed c (ps.map Prod.fst) d)
    (h : readParams scope r ps = .ok (qs, spans)) (hlo : Marks source c.last lo)
    (hhi : Marks source d.last hi) : Row lo spans hi := by
  induction ps generalizing c qs spans lo with
  | nil =>
    obtain ⟨-, rfl⟩ := Prod.mk.inj (Except.ok.inj h)
    refine .nil ((hlo.le_iff hhi).mp (hc.last_le_last ?_))
    exact hps.advances fun _ _ _ hp => hp.advances
  | cons p ps ih =>
    obtain ⟨p, default⟩ := p
    simp only [readParams, bind_eq_ok, Prod.exists] at h
    obtain ⟨q, first, hfirst, others, more, hmore, hresult⟩ := h
    obtain ⟨-, rfl⟩ := Prod.mk.inj (Except.ok.inj hresult)
    cases hps with
    | @cons _ b e _ _ _ hcb hp hrest =>
      have hb := hc.of_advances hcb
      have hpast : b.Past e := by
        obtain ⟨t, b', plain, ht, hk, -, hbd, -⟩ := hp
        exact (ht.past (hk ▸ rfl)).trans hbd
      have he := hb.of_advances hpast.advances
      obtain ⟨start, hstart⟩ := hb.marks_pos hpast
      obtain ⟨mid, hmid⟩ := he.marks_last
      obtain ⟨note, hnote, rfl⟩ := readParam_spans hfirst
      have hrow := row_readNote hindex hb hp hnote hstart hmid
      have hle : lo ≤ start :=
        (hlo.le_iff hstart).mp (Position.le_trans (hc.last_le_last hcb) hb.last_le_pos)
      exact (hrow.widen_left hle).append (ih he hrest hmore hmid)

/-- Some of the items in a row. -/
theorem chain_of_sublist {ps qs : List Script.Param} (hsub : List.Sublist qs ps)
    (h : Parser.Chain ParamParsed c ps d) : Parser.Chain ParamParsed c qs d := by
  induction h generalizing qs with
  | nil hcd =>
    rw [List.sublist_nil.mp hsub]
    exact .nil hcd
  | cons hcd hp hrest ih =>
    cases hsub with
    | cons _ hsub => exact (ih hsub).of_advances (hcd.trans hp.advances)
    | cons_cons _ hsub => exact .cons hcd hp (ih hsub)

/-- The parameters that a caller fills are some of the positional ones. -/
theorem callerParams_sublist (params : Parameters) (decorators : List Expr) :
    List.Sublist ((callerParams params decorators).map Prod.fst)
      (params.positionalOnly ++ params.ordinary) := by
  have hall : (withDefaults params).map Prod.fst = params.positionalOnly ++ params.ordinary := by
    refine List.map_fst_zip ?_
    simp only [List.length_append, List.length_replicate, List.length_map]
    omega
  unfold callerParams
  split
  · rw [hall]
  · rw [List.map_drop, hall]
    exact List.drop_sublist 1 _

end Addon.Annotated
