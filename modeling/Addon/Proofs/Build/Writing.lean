import Addon.Proofs.Build.Preparation
import Addon.Proofs.Json.Encoding

/-!
# Writing — builds that get through

Before a text is written it is checked for surrogates, and then it is written as it is. Where no
text has any, the check can be left out. What is left changes only the files and reads no text, so
that it can be run on a project to see that a build of it gets through.

## The architecture

* **`placeText`**, **`placeExport`** — writing without the check.
* **`writeExport_eq_placeExport`** — the two are the same when every text has bytes.
* **`hasBytes_documentsOf`** — the documents of a build do when the values behind them are plain.
* **`placed_of_getsThrough`** — a build whose writing gets through is done, and what it leaves
  can be seen from the placing alone.
-/

namespace Addon.Build

open File Descriptor
open Text (HasBytes)

variable {directory : Path} {settings : Settings} {s : Session}

/-! ## Writing without the check -/

/-- Writes a text that has bytes. -/
def placeText (p : Path) (text : String) : Work Unit := do
  Work.change fun t => t.ensureDirectories p.parent
  Work.change fun t => t.write p (.ofText text)

theorem writeText_eq_placeText {p : Path} {text : String} (h : HasBytes text) :
    writeText p text = placeText p text := by
  unfold writeText placeText
  rw [h.check]

/-- Writes a document that is there. -/
def placeDocument (p : Path) (d : Document) : Work Unit :=
  placeText p (match d with
    | .ok text => text ++ "\n"
    | .error _ => "")

theorem writeDocument_eq_placeDocument {p : Path} {d : Document} (h : Gives d HasBytes) :
    writeDocument p d = placeDocument p d := by
  obtain ⟨text, rfl, htext⟩ := h
  exact writeText_eq_placeText (Text.hasBytes_append.mpr ⟨htext, by decide⟩)

theorem writeEach_congr {α : Type} {write place : Path → α → Work Unit} {items : Fields α}
    (h : ∀ item ∈ items, ∀ p, write p item.2 = place p item.2) :
    writeEach write directory items = writeEach place directory items := by
  induction items with
  | nil => rfl
  | cons item rest ih =>
    obtain ⟨hitem, hrest⟩ := List.forall_mem_cons.mp h
    rw [writeEach, writeEach, hitem, ih hrest]

/-- Writes an export of texts that have bytes. -/
def placeExport (directory : Path) (a : Artifacts) : Work (List String) := do
  if directory.name = "" then throw (.file (.noName directory.toText))
  removeIfThere (stagingPath directory)
  removeIfThere (backupPath directory)
  writeEach placeDocument (stagingPath directory) a.documents
  writeEach placeText (stagingPath directory) a.texts
  writeEach copyFile (stagingPath directory) a.copies
  swapIn directory
  return sortedNames a.names

theorem writeExport_eq_placeExport {a : Artifacts}
    (hdocuments : ∀ d ∈ a.documents, Gives d.2 HasBytes) (htexts : ∀ f ∈ a.texts, HasBytes f.2) :
    writeExport directory a = placeExport directory a := by
  unfold writeExport placeExport
  rw [writeEach_congr fun d hd _ => writeDocument_eq_placeDocument (hdocuments d hd),
    writeEach_congr fun f hf _ => writeText_eq_placeText (htexts f hf)]

/-! ## The documents of a build -/

/-- A localization whose document is there and has bytes. -/
abbrev IsPlainLocalization (l : Localization) : Prop :=
  Gives l.toValue Json.IsPlain

theorem hasBytes_localizationDocument {l : Localization} (h : IsPlainLocalization l) :
    Gives (localizationDocument l) HasBytes := by
  obtain ⟨v, hv, hplain⟩ := h
  unfold localizationDocument
  rw [hv]
  exact hplain.render

theorem hasBytes_documentsOf {m : Manifest} {registry : Ace.Registry} {c : Catalogue}
    {languages : Fields Localization} (hcatalogue : Json.IsPlain c.toValue)
    (haddon : Json.IsPlain (addonValue m registry.dispatch settings.tags settings.editorScripts))
    (hlanguages : ∀ l ∈ languages, IsPlainLocalization l.2) :
    ∀ d ∈ documentsOf m registry settings c languages, Gives d.2 HasBytes := by
  refine Fields.forall_mem_merge (P := fun d => Gives d.2 HasBytes) ?_ ?_
  · exact List.forall_mem_cons.mpr ⟨hcatalogue.render,
      List.forall_mem_cons.mpr ⟨haddon.render, by simp⟩⟩
  · simp only [List.mem_map, forall_exists_index, and_imp, forall_apply_eq_imp_iff₂]
    exact fun l hl => hasBytes_localizationDocument (hlanguages l hl)

/-- Without a directory of lexicons, languages have the texts that empty tables give. -/
theorem localizations_of_localize {m : Manifest} {r : Ace.Registry} {tags : List (Option String)}
    {done docs : Fields Localization} {s' : Session}
    (h : localize m r none done tags s = .ok docs s') :
    localizations m r (fun _ => []) done (tags.filterMap id) = .ok docs := by
  induction tags generalizing done s with
  | nil =>
    cases h
    rfl
  | cons tag rest ih =>
    cases tag with
    | none =>
      obtain ⟨_, _, _, hthrow⟩ := run_bind_eq_ok.mp h
      cases hthrow
    | some tag =>
      obtain ⟨l, s₁, hl, hrest⟩ := run_bind_eq_ok.mp h
      obtain ⟨table, s₂, htable, hlook⟩ := run_bind_eq_ok.mp hl
      cases htable
      obtain ⟨hmade, -⟩ := Step.look_eq_ok.mp hlook
      exact bind_eq_ok.mpr ⟨l, Attempt.ofMisfit_eq_ok.mp hmade, ih hrest⟩

/-! ## Builds -/

/-- What was prepared gets through: all of its texts have bytes, and the files can be placed. -/
def GetsThrough (settings : Settings) (made : Prepared) (t : Tree) : Prop :=
  Gives (catalogue made.registry) (fun c => Json.IsPlain c.toValue) ∧
  Gives (localizations made.manifest made.registry (fun _ => []) [] settings.tags)
    (fun languages => ∀ l ∈ languages, IsPlainLocalization l.2) ∧
  Json.IsPlain (addonValue made.manifest made.registry.dispatch settings.tags
    settings.editorScripts) ∧
  (∀ f ∈ made.artifacts.texts, HasBytes f.2) ∧
  Completes (placeExport settings.exportPath made.artifacts t)

instance (settings : Settings) (made : Prepared) (t : Tree) :
    Decidable (GetsThrough settings made t) :=
  inferInstanceAs (Decidable (_ ∧ _ ∧ _ ∧ _ ∧ _))

/-- A build without lexicons and without an archive leaves what it placed, if what it
prepared gets through. -/
theorem placed_of_getsThrough {compiler : Compiler} {made : Prepared} {s₁ : Session}
    (hlexicons : settings.langPath? = none) (hpackage : settings.package = false)
    (hprepare : prepare settings compiler s = .ok made s₁) (h : GetsThrough settings made s₁.tree) :
    ∃ written s', build settings compiler s = .ok ⟨made.manifest, made.registry,
        made.artifacts.documents.keys, settings.exportPath, written, none⟩ s' ∧
      writeAll settings made.manifest made.artifacts s₁.tree = .ok (written, none) s'.tree ∧
      placeExport settings.exportPath made.artifacts s₁.tree = .ok written s'.tree := by
  obtain ⟨hcatalogue, hlanguages, haddon, htexts, hplace⟩ := h
  obtain ⟨_, _, _, _, _, -, -, -, hassemble⟩ := prepare_eq_ok hprepare
  obtain ⟨c, languages, copies, _, hc, hlocalize, -, hartifacts⟩ := assemble_eq_ok hassemble
  rw [hlexicons] at hlocalize
  have hdocuments : ∀ d ∈ made.artifacts.documents, Gives d.2 HasBytes := by
    rw [hartifacts]
    exact hasBytes_documentsOf (hcatalogue.of_ok hc) haddon
      (hlanguages.of_ok (localizations_of_localize hlocalize))
  obtain ⟨written, t, hplace⟩ := hplace
  have hexport : writeExport settings.exportPath made.artifacts s₁.tree = .ok written t := by
    rw [writeExport_eq_placeExport hdocuments htexts, hplace]
  have hwrite : writeAll settings made.manifest made.artifacts s₁.tree = .ok (written, none) t :=
    run_bind_eq_ok.mpr ⟨written, t, hexport, by rw [hpackage]; rfl⟩
  rw [build_eq, hprepare]
  dsimp only
  rw [hwrite]
  exact ⟨_, _, rfl, rfl, hplace⟩

end Addon.Build
