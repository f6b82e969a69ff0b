import Addon.Text.Title
import Mathlib.Data.List.Basic

/-!
# Title — what the title of an identifier keeps

A title puts blanks where a word begins, and the words begin at underscores and at capitals.
So the two usual ways to write some words in one identifier have the same title, a title is
its own title, and apart from blanks, underscores and case it has the characters of the
identifier (`titles_agree`).

## The architecture

* **`titleChars_of_spaced`** — the title of a text, once it is known which
  words the spaced text has.
* **`spaceCapitals_capitalized`** — a text in which only first characters of words are
  capitals gets no further blanks.
* **`flatten_words`** — the words of a text are its characters without the blanks.
-/

namespace Addon.Text

open Unicode (isBlank isWordChar)

variable {c : Char} {cs w rest : List Char} {ws : List (List Char)}

/-! ## ASCII characters -/

/-- The first 128 characters can be looked up. -/
theorem exists_ofNat_eq (hc : c.toNat < 128) : ∃ n < 128, Char.ofNat n = c :=
  ⟨c.toNat, hc, Char.ofNat_toNat c⟩

/-- A small letter or a digit. -/
def isLowerAlnum (c : Char) : Bool :=
  c.isLower || c.isDigit

theorem ascii_of_isLowerAlnum (h : isLowerAlnum c) : c.toNat < 128 := by
  have hle : c.val ≤ 122 ∨ c.val ≤ 57 :=
    (Bool.or_eq_true_iff.mp h).imp (fun h => of_decide_eq_true (Bool.and_eq_true_iff.mp h).2)
      fun h => of_decide_eq_true (Bool.and_eq_true_iff.mp h).2
  simp only [UInt32.le_iff_toNat_le, UInt32.reduceToNat] at hle
  show c.val.toNat < 128
  omega

theorem plain_facts (h : isLowerAlnum c) :
    isCapital c = false ∧ isBlank c = false ∧ c ≠ '_' ∧ isWordChar c ∧ c.toLower = c ∧
    isWordChar c.toUpper ∧
      (c.isLower → isCapital c.toUpper) := by
  obtain ⟨n, hn, rfl⟩ := exists_ofNat_eq (ascii_of_isLowerAlnum h)
  revert n
  decide +kernel

/-- Case does not make a blank or an underscore, and only the last change of case counts. -/
theorem casing_facts (h : c.toNat < 128) :
    (c.toUpper.toNat < 128 ∧ isBlank c.toUpper = isBlank c ∧ (c.toUpper = '_' ↔ c = '_') ∧
      c.toUpper.toUpper = c.toUpper ∧ c.toUpper.toLower = c.toLower) ∧
    c.toLower.toNat < 128 ∧ isBlank c.toLower = isBlank c ∧ (c.toLower = '_' ↔ c = '_') ∧
      c.toLower.toLower = c.toLower ∧ isCapital c.toLower = false := by
  obtain ⟨n, hn, rfl⟩ := exists_ofNat_eq h
  revert n
  decide +kernel

/-- A text of ASCII characters. -/
def IsAscii (cs : List Char) : Prop :=
  ∀ c ∈ cs, c.toNat < 128

theorem lower_ascii (h : IsAscii cs) : Unicode.lower cs = cs.map Char.toLower := by
  suffices hafter : ∀ before, Unicode.lowerAfter before cs = cs.map Char.toLower from hafter []
  induction cs with
  | nil => intro before; rfl
  | cons c rest ih =>
    intro before
    obtain ⟨hc, hrest⟩ := List.forall_mem_cons.mp h
    have hsigma : (c == 'Σ') = false := by
      rw [beq_eq_false_iff_ne]
      rintro rfl
      exact absurd hc (by decide)
    simp [Unicode.lowerAfter, hsigma, Unicode.lowerChar, hc, ih hrest]

theorem capitalize_cons (h : IsAscii (c :: rest)) :
    capitalize (c :: rest) = c.toUpper :: rest.map Char.toLower := by
  obtain ⟨hc, hrest⟩ := List.forall_mem_cons.mp h
  simp [capitalize, Unicode.upper, hc, lower_ascii hrest]

/-! ## Words -/

/-- A text without blanks that is not empty. -/
def IsWord (w : List Char) : Prop :=
  w ≠ [] ∧ ∀ c ∈ w, isBlank c = false

theorem words_blank (hc : isBlank c) (rest : List Char) : words (c :: rest) = words rest := by
  rw [words.eq_def]
  exact if_pos hc

/-- A word in front of a blank, or of nothing, is the first word of a text. -/
theorem words_append (hw : IsWord w) (hrest : ∀ c ∈ rest.head?, isBlank c) :
    words (w ++ rest) = w :: words rest := by
  obtain ⟨hne, hw⟩ := hw
  induction w with
  | nil => exact absurd rfl hne
  | cons c w ih =>
    obtain ⟨hc, hw⟩ := List.forall_mem_cons.mp hw
    cases w with
    | nil => cases rest <;> simp_all [words]
    | cons d w =>
      have hfirst := ih (by simp) hw
      rw [List.cons_append] at hfirst ⊢
      simp_all [words]

theorem intercalate_cons (sep : Char) (w : List Char) (ws : List (List Char)) :
    [sep].intercalate (w :: ws) = w ++ ws.flatMap (sep :: ·) := by
  induction ws generalizing w with
  | nil => simp [List.intercalate]
  | cons v ws ih => simp [List.intercalate_cons_cons, ih]

theorem words_flatMap (h : ∀ w ∈ ws, IsWord w) : words (ws.flatMap (' ' :: ·)) = ws := by
  induction ws with
  | nil => rfl
  | cons w ws ih =>
    obtain ⟨hw, hws⟩ := List.forall_mem_cons.mp h
    rw [List.flatMap_cons, List.cons_append, words_blank (by decide), words_append hw ?_, ih hws]
    cases ws <;> simp
    decide

theorem words_intercalate (h : ∀ w ∈ ws, IsWord w) : words ([' '].intercalate ws) = ws := by
  cases ws with
  | nil => rfl
  | cons w ws =>
    -- one more blank in front makes all words alike
    have hblank : isBlank ' ' := by decide
    rw [intercalate_cons, ← words_blank hblank, ← List.cons_append,
      ← List.flatMap_cons (f := (' ' :: ·)), words_flatMap h]

theorem flatten_words (cs : List Char) : (words cs).flatten = cs.filter (!isBlank ·) := by
  fun_induction words cs <;> simp_all

theorem nil_notMem_words (cs : List Char) : [] ∉ words cs := by
  fun_induction words cs <;> simp_all

/-! ## Blanks before capitals -/

theorem spaceCapitals_append (before : Option Char) (a b : List Char) :
    spaceCapitals before (a ++ b) = spaceCapitals before a ++
      spaceCapitals (a.getLast?.or before) b := by
  induction a generalizing before with
  | nil => rfl
  | cons c a ih =>
    have hlast : (c :: a).getLast?.or before = a.getLast?.or (some c) := by
      cases a <;> simp [List.getLast?_cons]
    rw [List.cons_append, spaceCapitals, spaceCapitals, ih, hlast]
    split <;> rfl

theorem spaceCapitals_eq_self (h : ∀ c ∈ cs, isCapital c = false) (before : Option Char) :
    spaceCapitals before cs = cs := by
  induction cs generalizing before with
  | nil => rfl
  | cons c rest ih =>
    obtain ⟨hc, hrest⟩ := List.forall_mem_cons.mp h
    simp [spaceCapitals, hc, ih hrest]

/-- Capitals that stand behind blanks get no further blanks. -/
theorem spaceCapitals_capitalized (h : ∀ w ∈ ws, ∀ c ∈ w.tail, isCapital c = false)
    {before : Option Char} (hbefore : before.any isWordChar = false) :
    spaceCapitals before ([' '].intercalate ws) = [' '].intercalate ws := by
  induction ws generalizing before with
  | nil => rfl
  | cons w ws ih =>
    obtain ⟨hw, hws⟩ := List.forall_mem_cons.mp h
    have hword : spaceCapitals before w = w := by
      cases w with
      | nil => rfl
      | cons c rest => simpa [spaceCapitals, hbefore] using spaceCapitals_eq_self hw _
    cases ws with
    | nil => simpa [List.intercalate] using hword
    | cons v ws =>
      have hblank : spaceCapitals (w.getLast?.or before) [' '] = [' '] :=
        spaceCapitals_eq_self (by simp [isCapital]) _
      rw [List.intercalate_cons_cons, spaceCapitals_append, spaceCapitals_append, hword, hblank,
        List.getLast?_concat, ih hws rfl]

/-- Words with capitals in front get a blank each, where they follow a word. -/
theorem spaceCapitals_flatMap {before : Option Char} (hbefore : before.any isWordChar)
    (h : ∀ w ∈ ws, (∀ c ∈ w.head?, isCapital c) ∧ (∀ c ∈ w.tail, isCapital c = false) ∧ w ≠ [] ∧
      ∀ c ∈ w, isWordChar c) :
    spaceCapitals before ws.flatten = ws.flatMap (' ' :: ·) := by
  induction ws generalizing before with
  | nil => rfl
  | cons w ws ih =>
    obtain ⟨⟨hhead, htail, hne, hchars⟩, hws⟩ := List.forall_mem_cons.mp h
    have hlast : (w.getLast?.or before).any isWordChar := by
      rw [List.getLast?_eq_some_getLast hne]
      exact hchars _ (List.getLast_mem hne)
    rw [List.flatten_cons, spaceCapitals_append, ih hlast hws, List.flatMap_cons]
    obtain ⟨c, rest, rfl⟩ := List.exists_cons_of_ne_nil hne
    simpa [spaceCapitals, hbefore, hhead c rfl] using spaceCapitals_eq_self htail _

theorem mem_spaceCapitals {before : Option Char} (h : c ∈ spaceCapitals before cs) :
    c = ' ' ∨ c ∈ cs := by
  fun_induction spaceCapitals before cs <;> grind

theorem filter_spaceCapitals {p : Char → Bool} (hp : p ' ' = false) (before : Option Char)
    (cs : List Char) : (spaceCapitals before cs).filter p = cs.filter p := by
  induction cs generalizing before with
  | nil => rfl
  | cons c rest ih =>
    rw [spaceCapitals]
    split <;> simp [List.filter_cons, hp, ih]

/-! ## Titles -/

/-- A text in which blanks separate the words. -/
def spaced (cs : List Char) : List Char :=
  (spaceCapitals none cs).map fun c => if c = '_' then ' ' else c

/-- The title of a text whose words are known. -/
theorem titleChars_of_spaced (h : spaced cs = [' '].intercalate ws)
    (hws : ∀ w ∈ ws, IsWord w) : titleChars cs = [' '].intercalate (ws.map capitalize) := by
  change [' '].intercalate ((words (spaced cs)).map capitalize) = _
  rw [h, words_intercalate hws]

theorem map_blank (h : ∀ c ∈ cs, c ≠ '_') : (cs.map fun c => if c = '_' then ' ' else c) = cs := by
  conv_rhs => rw [← List.map_id cs]
  exact List.map_congr_left fun c hc => if_neg (h c hc)

theorem mem_intercalate {sep c : Char} (h : c ∈ [sep].intercalate ws) :
    c = sep ∨ ∃ w ∈ ws, c ∈ w := by
  cases ws with
  | nil => simp [List.intercalate] at h
  | cons w ws =>
    rw [intercalate_cons] at h
    simp at h
    grind

/-- What the title of a word is like. -/
structure Titled (w : List Char) : Prop where
  word : IsWord (capitalize w)
  noUnderscore : ∀ c ∈ capitalize w, c ≠ '_'
  tail : ∀ c ∈ (capitalize w).tail, isCapital c = false
  again : capitalize (capitalize w) = capitalize w
  ascii : IsAscii (capitalize w)
  lower : (capitalize w).map Char.toLower = w.map Char.toLower

theorem titled_word (hne : w ≠ []) (h : ∀ c ∈ w, c.toNat < 128 ∧ isBlank c = false ∧ c ≠ '_') :
    Titled w := by
  obtain ⟨c, rest, rfl⟩ := List.exists_cons_of_ne_nil hne
  obtain ⟨⟨hc, hcBlank, hcUnder⟩, hrest⟩ := List.forall_mem_cons.mp h
  obtain ⟨hup, hupBlank, hupUnder, hupUp, hupLow⟩ := (casing_facts hc).1
  have hlow := fun d hd => (casing_facts (hrest d hd).1).2
  have hcap : IsAscii (c.toUpper :: rest.map Char.toLower) := by
    simpa [IsAscii, hup] using fun d hd => (hlow d hd).1
  have hagain : (rest.map Char.toLower).map Char.toLower = rest.map Char.toLower := by
    rw [List.map_map]
    exact List.map_congr_left fun d hd => (hlow d hd).2.2.2.1
  constructor <;> rw [capitalize_cons fun d hd => (h d hd).1]
  · refine ⟨by simp, ?_⟩
    simpa [hupBlank, hcBlank] using fun d hd => (hlow d hd).2.1.trans (hrest d hd).2.1
  · simpa [hupUnder, hcUnder] using fun d hd => mt (hlow d hd).2.2.1.mp (hrest d hd).2.2
  · simpa using fun d hd => (hlow d hd).2.2.2.2
  · rw [capitalize_cons hcap, hupUp, hagain]
  · exact hcap
  · rw [List.map_cons, hupLow, hagain, List.map_cons]

theorem titled_of_mem_words (h : IsAscii cs) (hw : w ∈ words (spaced cs)) : Titled w := by
  refine titled_word (fun hnil => nil_notMem_words _ (hnil ▸ hw)) fun c hc => ?_
  have hmem : c ∈ (words (spaced cs)).flatten := List.mem_flatten_of_mem hw hc
  rw [flatten_words, List.mem_filter, spaced, List.mem_map] at hmem
  obtain ⟨⟨d, hd, rfl⟩, hblank⟩ := hmem
  -- underscores and the new blanks are not in any word
  split at hblank
  · exact absurd hblank (by decide)
  · next hunder =>
    rw [if_neg hunder]
    rcases mem_spaceCapitals hd with rfl | hd
    · exact absurd hblank (by decide)
    · exact ⟨h d hd, by simpa using hblank, hunder⟩

theorem titleChars_eq (cs : List Char) :
    titleChars cs = [' '].intercalate ((words (spaced cs)).map capitalize) := rfl

theorem words_titleChars (h : IsAscii cs) :
    words (titleChars cs) = (words (spaced cs)).map capitalize := by
  rw [titleChars_eq]
  exact words_intercalate (by simpa using fun w hw => (titled_of_mem_words h hw).word)

/-- A title has capitals only behind its blanks, and no underscores. -/
theorem spaced_titleChars (h : IsAscii cs) : spaced (titleChars cs) = titleChars cs := by
  have htitled : ∀ w ∈ words (spaced cs), Titled w := fun w hw => titled_of_mem_words h hw
  rw [spaced, titleChars_eq,
    spaceCapitals_capitalized (by simpa using fun w hw => (htitled w hw).tail) rfl, map_blank]
  intro c hc
  rcases mem_intercalate hc with rfl | ⟨w, hw, hc⟩
  · decide
  · obtain ⟨v, hv, rfl⟩ := List.mem_map.mp hw
    exact (htitled v hv).noUnderscore c hc

theorem titleChars_titleChars (h : IsAscii cs) : titleChars (titleChars cs) = titleChars cs := by
  rw [titleChars_eq (titleChars cs), spaced_titleChars h, words_titleChars h, List.map_map,
    titleChars_eq]
  congr 1
  exact List.map_congr_left fun w hw => (titled_of_mem_words h hw).again

/-! ## Letters -/

/-- The characters of a text without blanks and underscores, in lower case. -/
def letters (cs : List Char) : List Char :=
  Unicode.lower (cs.filter fun c => !isBlank c && c != '_')

theorem filter_spaced (cs : List Char) :
    (spaced cs).filter (!isBlank ·) = cs.filter fun c => !isBlank c && c != '_' := by
  rw [← filter_spaceCapitals (by decide) none cs, spaced]
  induction spaceCapitals none cs with
  | nil => rfl
  | cons c rest ih =>
    have hblank : isBlank ' ' := by decide
    by_cases hc : c = '_' <;> simp [List.filter_cons, hc, hblank, ih]

theorem letters_titleChars (h : IsAscii cs) : letters (titleChars cs) = letters cs := by
  have htitled : ∀ w ∈ words (spaced cs), Titled w := fun w hw => titled_of_mem_words h hw
  have hascii : IsAscii ((words (spaced cs)).map capitalize).flatten := by
    intro c hc
    obtain ⟨_, hmem, hc⟩ := List.mem_flatten.mp hc
    obtain ⟨w, hw, rfl⟩ := List.mem_map.mp hmem
    exact (htitled w hw).ascii c hc
  rw [letters, letters, ← filter_spaced, spaced_titleChars h, ← flatten_words, words_titleChars h,
    lower_ascii hascii, lower_ascii fun c hc => h c (List.mem_of_mem_filter hc), ← filter_spaced,
    ← flatten_words, List.map_flatten, List.map_flatten, List.map_map]
  congr 1
  exact List.map_congr_left fun w hw => (htitled w hw).lower

/-! ## Spellings -/

/-- A word of small letters and digits. -/
def IsPlainWord (w : List Char) : Prop :=
  w ≠ [] ∧ ∀ c ∈ w, isLowerAlnum c

/-- A word with its first character in upper case. -/
def upperFirst : List Char → List Char
  | [] => []
  | c :: rest => c.toUpper :: rest

/-- Words in one, with capitals where the later ones begin. -/
def camelCase : List (List Char) → List Char
  | [] => []
  | w :: ws => w ++ (ws.map upperFirst).flatten

theorem IsPlainWord.isWord (h : IsPlainWord w) : IsWord w :=
  ⟨h.1, fun c hc => (plain_facts (h.2 c hc)).2.1⟩

theorem IsPlainWord.noUnderscore (h : IsPlainWord w) : ∀ c ∈ w, c ≠ '_' :=
  fun c hc => (plain_facts (h.2 c hc)).2.2.1

theorem IsPlainWord.titled (h : IsPlainWord w) : Titled w :=
  titled_word h.1 fun c hc => ⟨ascii_of_isLowerAlnum (h.2 c hc), h.isWord.2 c hc,
    h.noUnderscore c hc⟩

theorem map_upperFirst (h : ∀ w ∈ ws, IsPlainWord w) : ws.map upperFirst = ws.map capitalize := by
  refine List.map_congr_left fun w hw => ?_
  obtain ⟨hne, hw⟩ := h w hw
  obtain ⟨c, rest, rfl⟩ := List.exists_cons_of_ne_nil hne
  rw [capitalize_cons fun d hd => ascii_of_isLowerAlnum (hw d hd), upperFirst, List.cons.injEq]
  refine ⟨rfl, (List.map_id rest).symm.trans (List.map_congr_left fun d hd => ?_)⟩
  exact (plain_facts (hw d (List.mem_cons_of_mem c hd))).2.2.2.2.1.symm

theorem titleChars_snake (h : ∀ w ∈ ws, IsPlainWord w) :
    titleChars (['_'].intercalate ws) = [' '].intercalate (ws.map upperFirst) := by
  rw [map_upperFirst h]
  refine titleChars_of_spaced ?_ fun w hw => (h w hw).isWord
  rw [spaced, spaceCapitals_eq_self]
  · cases ws with
    | nil => rfl
    | cons w ws =>
      obtain ⟨hw, hws⟩ := List.forall_mem_cons.mp h
      rw [intercalate_cons, intercalate_cons, List.map_append, List.map_flatMap,
        map_blank hw.noUnderscore]
      congr 1
      exact List.flatMap_congr fun v hv => congrArg (' ' :: ·) (map_blank (hws v hv).noUnderscore)
  · intro c hc
    rcases mem_intercalate hc with rfl | ⟨w, hw, hc⟩
    · rfl
    · exact (plain_facts ((h w hw).2 c hc)).1

/-- A later word in camel case begins with its only capital. -/
theorem capital_upperFirst (h : IsPlainWord w) (hletter : ∀ c ∈ w.head?, c.isLower) :
    (∀ c ∈ (upperFirst w).head?, isCapital c) ∧ (∀ c ∈ (upperFirst w).tail, isCapital c = false) ∧
      upperFirst w ≠ [] ∧ ∀ c ∈ upperFirst w, isWordChar c := by
  obtain ⟨hne, hw⟩ := h
  obtain ⟨c, rest, rfl⟩ := List.exists_cons_of_ne_nil hne
  obtain ⟨hc, hrest⟩ := List.forall_mem_cons.mp hw
  obtain ⟨-, -, -, -, -, hup, hcapital⟩ := plain_facts hc
  simpa [upperFirst, hup, hcapital (hletter c rfl)] using
    ⟨fun d hd => (plain_facts (hrest d hd)).1, fun d hd => (plain_facts (hrest d hd)).2.2.2.1⟩

theorem titleChars_camel (h : ∀ w ∈ ws, IsPlainWord w)
    (hletter : ∀ w ∈ ws.tail, ∀ c ∈ w.head?, c.isLower) :
    titleChars (camelCase ws) = [' '].intercalate (ws.map upperFirst) := by
  cases ws with
  | nil => rfl
  | cons w ws =>
    obtain ⟨hw, hws⟩ := List.forall_mem_cons.mp h
    have hlast : (w.getLast?.or none).any isWordChar := by
      rw [List.getLast?_eq_some_getLast hw.1]
      exact (plain_facts (hw.2 _ (List.getLast_mem hw.1))).2.2.2.1
    -- the first word keeps its small letter, so that only the later ones are put
    -- in title case already
    have hspaced : spaced (camelCase (w :: ws)) = [' '].intercalate (w :: ws.map capitalize) := by
      rw [spaced, camelCase, spaceCapitals_append, spaceCapitals_eq_self fun c hc =>
          (plain_facts (hw.2 c hc)).1,
        spaceCapitals_flatMap hlast
          (by simpa using fun v hv => capital_upperFirst (hws v hv) (hletter v hv)),
        ← intercalate_cons, map_upperFirst hws, map_blank]
      intro c hc
      rcases mem_intercalate hc with rfl | ⟨v, hv, hv'⟩
      · decide
      · rcases List.mem_cons.mp hv with rfl | hv
        · exact hw.noUnderscore c hv'
        · obtain ⟨u, hu, rfl⟩ := List.mem_map.mp hv
          exact (hws u hu).titled.noUnderscore c hv'
    rw [map_upperFirst h, titleChars_of_spaced hspaced, List.map_cons, List.map_map, List.map_cons]
    · congr 2
      exact List.map_congr_left fun v hv => (hws v hv).titled.again
    · refine List.forall_mem_cons.mpr ⟨hw.isWord, ?_⟩
      simpa using fun v hv => (hws v hv).titled.word

/-- **The title of words does not depend on how they are put together, and loses none of their
letters.** Words of small letters and digits have the title with their first characters in upper
case, be they joined by underscores or by capitals. A title of an ASCII text is its own title, and
has the letters of the text. -/
theorem titles_agree :
    (∀ ws : List (List Char), (∀ w ∈ ws, IsPlainWord w) →
      (∀ w ∈ ws.tail, ∀ c ∈ w.head?, c.isLower) →
      titleCase (String.ofList (['_'].intercalate ws)) =
        String.ofList ([' '].intercalate (ws.map upperFirst)) ∧
      titleCase (String.ofList (camelCase ws)) =
        String.ofList ([' '].intercalate (ws.map upperFirst))) ∧
    ∀ text : String, IsAscii text.toList →
      titleCase (titleCase text) = titleCase text ∧
        letters (titleCase text).toList = letters text.toList := by
  refine ⟨fun ws h hletter => ?_, fun text h => ?_⟩
  · simp only [titleCase, String.toList_ofList, titleChars_snake h,
      titleChars_camel h hletter, and_self]
  · simp only [titleCase, String.toList_ofList, titleChars_titleChars h,
      letters_titleChars h, and_self]

/-- Words with digits and of one letter, and a text with runs of capitals and underscores. -/
theorem titles_agree_short :
    (titleCase (String.ofList ['2', 'd', '_', 'x', '_', 'y', '1']) =
      String.ofList ['2', 'd', ' ', 'X', ' ', 'Y', '1'] ∧
      titleCase (String.ofList ['2', 'd', 'X', 'Y', '1']) =
        String.ofList ['2', 'd', ' ', 'X', ' ', 'Y', '1']) ∧
    titleCase (titleCase "__HTTPGet$A_9b") = titleCase "__HTTPGet$A_9b" ∧
      letters (titleCase "__HTTPGet$A_9b").toList = letters "__HTTPGet$A_9b".toList := by
  have hplain : ∀ w ∈ [['2', 'd'], ['x'], ['y', '1']],
      IsPlainWord w := by simp [IsPlainWord, isLowerAlnum]
  have hascii : IsAscii "__HTTPGet$A_9b".toList := by simp [IsAscii]
  exact ⟨titles_agree.1 [['2', 'd'], ['x'], ['y', '1']] hplain (by simp), titles_agree.2 _ hascii⟩

end Addon.Text
