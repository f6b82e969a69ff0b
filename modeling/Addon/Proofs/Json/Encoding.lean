import Addon.Json.Writer
import Addon.Proofs.Attempt
import Addon.Text.Encoding

/-!
# Encoding — the texts of documents have bytes

A text without surrogates has bytes. Writing a value adds brackets, blanks and escapes to
the texts in it, none of which is a surrogate. So the document of a value can be encoded if
the texts in the value can.

## The architecture

* **`Text.HasBytes`** — a text without surrogates; joined texts have none if the parts have none.
* **`Value.texts`** — the texts that a value is written with: names, strings and numbers.
* **`hasBytes_write`** — the written text, by mutual induction along the writing.
* **`Json.IsPlain`** — a value whose document has bytes, which can be checked without
  writing the document out.
-/

namespace Addon

namespace Text

/-- There are no surrogates among the characters. -/
def isPlain (cs : List Char) : Bool :=
  cs.all fun c => !Unicode.isStandIn c

/-- A text that has bytes. -/
def HasBytes (text : String) : Prop :=
  isPlain text.toList = true

instance (text : String) : Decidable (HasBytes text) :=
  inferInstanceAs (Decidable (_ = true))

@[simp] theorem isPlain_nil : isPlain [] = true := rfl

@[simp] theorem isPlain_cons (c : Char) (cs : List Char) :
    isPlain (c :: cs) = (!Unicode.isStandIn c && isPlain cs) := rfl

@[simp] theorem isPlain_append (cs ds : List Char) :
    isPlain (cs ++ ds) = (isPlain cs && isPlain ds) :=
  List.all_append

theorem surrogatesFrom?_eq_none_iff {cs : List Char} (offset : Nat) :
    surrogatesFrom? offset cs = none ↔ isPlain cs = true := by
  induction cs generalizing offset with
  | nil => simp [surrogatesFrom?]
  | cons c rest ih =>
    rw [surrogatesFrom?, isPlain_cons]
    cases Unicode.isStandIn c with
    | true => simp
    | false => simpa using ih (offset + 1)

/-- A text has bytes when no surrogate is found in it. -/
theorem checkEncodable_eq_ok_iff {text : String} :
    checkEncodable text.toList = .ok () ↔ HasBytes text := by
  rw [HasBytes, ← surrogatesFrom?_eq_none_iff 0, checkEncodable]
  cases surrogatesFrom? 0 text.toList <;> simp

theorem HasBytes.check {text : String} (h : HasBytes text) : checkEncodable text.toList = .ok () :=
  checkEncodable_eq_ok_iff.mpr h

@[simp] theorem hasBytes_append {a b : String} : HasBytes (a ++ b) ↔ HasBytes a ∧ HasBytes b := by
  simp only [HasBytes, String.toList_append, isPlain_append, Bool.and_eq_true]

@[simp] theorem hasBytes_ofList {cs : List Char} :
    HasBytes (String.ofList cs) ↔ isPlain cs = true := by
  rw [HasBytes, String.toList_ofList]

theorem hasBytes_intercalate {separator : String} {parts : List String}
    (hseparator : HasBytes separator)
    (h : ∀ part ∈ parts, HasBytes part) : HasBytes (separator.intercalate parts) := by
  induction parts with
  | nil => exact (by decide : HasBytes "")
  | cons part rest ih =>
    cases rest with
    | nil => simpa using h
    | cons next rest =>
      rw [String.intercalate_cons_cons, hasBytes_append, hasBytes_append]
      exact ⟨⟨h part List.mem_cons_self, hseparator⟩,
        ih fun p hp => h p (List.mem_cons_of_mem part hp)⟩

end Text

/-! ## The texts in a value -/

mutual

/-- The texts that a value is written with. -/
def Value.texts : Value → List String
  | .int n => (Number.intText? n).toList
  | .float x => [Json.floatText x]
  | .nan _ => [Json.floatText Number.notANumber]
  | .str text => [text]
  | .list items | .tuple items => Value.textsOfItems items
  | .dict fields => Value.textsOfFields fields
  | _ => []

def Value.textsOfItems : List Value → List String
  | [] => []
  | v :: rest => v.texts ++ Value.textsOfItems rest

def Value.textsOfFields : List (String × Value) → List String
  | [] => []
  | (name, v) :: rest => name :: v.texts ++ Value.textsOfFields rest

end

namespace Json

open Text (HasBytes hasBytes_append hasBytes_ofList hasBytes_intercalate isPlain isPlain_cons
  isPlain_append)

theorem isPlain_hex {n : Nat} (h : n < 0x20) : isPlain (Text.hex 4 n) = true := by
  have hall : (List.range 0x20).all (fun n => isPlain (Text.hex 4 n)) = true := by decide
  exact List.all_eq_true.mp hall n (List.mem_range.mpr h)

/-- An escape has no surrogates. -/
theorem isPlain_charText {c : Char} (hc : Unicode.isStandIn c = false) :
    isPlain (charText c) = true := by
  unfold charText
  split
  iterate 7 decide
  split
  case isTrue h =>
    rw [isPlain_cons, isPlain_cons, isPlain_hex h]
    decide
  case isFalse =>
    rw [isPlain_cons, hc]
    rfl

theorem hasBytes_stringText {text : String} (h : HasBytes text) : HasBytes (stringText text) := by
  have hescaped : isPlain (text.toList.flatMap charText) = true := by
    rw [isPlain, List.all_flatMap, List.all_eq_true]
    intro c hc
    have hplain := List.all_eq_true.mp h c hc
    exact isPlain_charText (by simpa using hplain)
  rw [stringText, hasBytes_ofList, List.cons_append, isPlain_cons, isPlain_append, hescaped]
  decide

theorem hasBytes_lineStart (level : Nat) : HasBytes (lineStart level) := by
  refine hasBytes_append.mpr ⟨by decide, hasBytes_ofList.mpr ?_⟩
  refine List.all_eq_true.mpr fun c hc => ?_
  rw [List.eq_of_mem_replicate hc]
  decide

theorem hasBytes_bracketed {opening closing : String} {level : Nat} {parts : List String}
    (hopening : HasBytes opening) (hclosing : HasBytes closing)
    (h : ∀ part ∈ parts, HasBytes part) :
    HasBytes (bracketed opening closing level parts) := by
  unfold bracketed
  split
  · exact hasBytes_append.mpr ⟨hopening, hclosing⟩
  · have hparts := hasBytes_intercalate
      (hasBytes_append.mpr ⟨(by decide : HasBytes ","), hasBytes_lineStart (level + 1)⟩) h
    simp only [hasBytes_append]
    exact ⟨⟨⟨⟨hopening, hasBytes_lineStart _⟩, hparts⟩, hasBytes_lineStart _⟩, hclosing⟩

theorem intText_eq_ok {n : Int} {text : String} (h : intText n = .ok text) :
    Number.intText? n = some text := by
  unfold intText at h
  cases hn : Number.intText? n with
  | none =>
    rw [hn] at h
    cases h
  | some digits =>
    rw [hn] at h
    cases h
    rfl

mutual

theorem hasBytes_write (level : Nat) : ∀ v, (∀ t ∈ v.texts, HasBytes t) → ∀ text,
    write level v = .ok text → HasBytes text
  | .null => by
    intro _ text h
    rw [write] at h
    cases h
    decide
  | .bool b => by
    intro _ text h
    rw [write] at h
    cases h
    cases b <;> decide
  | .int n => by
    intro ht text h
    rw [Value.texts] at ht
    rw [write] at h
    exact ht text (Option.mem_toList.mpr (intText_eq_ok h))
  | .float x => by
    intro ht text h
    rw [Value.texts] at ht
    rw [write] at h
    cases h
    exact ht _ (List.mem_singleton.mpr rfl)
  | .nan _ => by
    intro ht text h
    rw [Value.texts] at ht
    rw [write] at h
    cases h
    exact ht _ (List.mem_singleton.mpr rfl)
  | .complex .. => by
    intro _ text h
    rw [write] at h
    cases h
  | .str content => by
    intro ht text h
    rw [Value.texts] at ht
    rw [write] at h
    cases h
    exact hasBytes_stringText (ht _ (List.mem_singleton.mpr rfl))
  | .list items => by
    intro ht text h
    rw [Value.texts] at ht
    rw [write, bind_eq_ok] at h
    obtain ⟨parts, hparts, h⟩ := h
    cases h
    exact hasBytes_bracketed (by decide) (by decide)
      (hasBytes_writeItems (level + 1) items ht parts hparts)
  | .tuple items => by
    intro ht text h
    rw [Value.texts] at ht
    rw [write, bind_eq_ok] at h
    obtain ⟨parts, hparts, h⟩ := h
    cases h
    exact hasBytes_bracketed (by decide) (by decide)
      (hasBytes_writeItems (level + 1) items ht parts hparts)
  | .dict fields => by
    intro ht text h
    rw [Value.texts] at ht
    rw [write, bind_eq_ok] at h
    obtain ⟨parts, hparts, h⟩ := h
    cases h
    exact hasBytes_bracketed (by decide) (by decide)
      (hasBytes_writeFields (level + 1) fields ht parts hparts)

theorem hasBytes_writeItems (level : Nat) : ∀ items, (∀ t ∈ Value.textsOfItems items, HasBytes t) →
    ∀ parts, writeItems level items = .ok parts → ∀ part ∈ parts, HasBytes part
  | [] => by
    intro _ parts h
    rw [writeItems] at h
    cases h
    simp
  | v :: rest => by
    intro ht parts h
    rw [Value.textsOfItems, List.forall_mem_append] at ht
    rw [writeItems, bind_eq_ok] at h
    obtain ⟨first, hfirst, h⟩ := h
    obtain ⟨others, hothers, h⟩ := bind_eq_ok.mp h
    cases h
    exact List.forall_mem_cons.mpr
      ⟨hasBytes_write level v ht.1 first hfirst, hasBytes_writeItems level rest ht.2 others hothers⟩

theorem hasBytes_writeFields (level : Nat) :
    ∀ fields, (∀ t ∈ Value.textsOfFields fields, HasBytes t) →
    ∀ parts, writeFields level fields = .ok parts → ∀ part ∈ parts, HasBytes part
  | [] => by
    intro _ parts h
    rw [writeFields] at h
    cases h
    simp
  | (name, v) :: rest => by
    intro ht parts h
    rw [Value.textsOfFields, List.forall_mem_append, List.forall_mem_cons] at ht
    rw [writeFields, bind_eq_ok] at h
    obtain ⟨first, hfirst, h⟩ := h
    obtain ⟨others, hothers, h⟩ := bind_eq_ok.mp h
    cases h
    refine List.forall_mem_cons.mpr ⟨?_, hasBytes_writeFields level rest ht.2 others hothers⟩
    simp only [hasBytes_append]
    exact ⟨⟨hasBytes_stringText ht.1.1, by decide⟩, hasBytes_write level v ht.1.2 first hfirst⟩

end

/-- A value whose document is there and has bytes. -/
def IsPlain (v : Value) : Prop :=
  (render v).isOk = true ∧ ∀ t ∈ v.texts, HasBytes t

instance (v : Value) : Decidable (IsPlain v) :=
  inferInstanceAs (Decidable (_ ∧ _))

theorem IsPlain.render {v : Value} (h : IsPlain v) : Gives (render v) HasBytes := by
  obtain ⟨hok, ht⟩ := h
  cases hrender : Json.render v with
  | error e =>
    rw [hrender] at hok
    cases hok
  | ok text => exact ⟨text, rfl, hasBytes_write 0 v ht text hrender⟩

end Json

end Addon
