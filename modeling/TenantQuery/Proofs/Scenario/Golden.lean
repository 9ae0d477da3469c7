import TenantQuery.CommandLine.Scenarios
import TenantQuery.Proofs.Document.Path

namespace TenantQuery

open FileSystem (placeOf Extends)
open Outcome

variable {fs fs' : FileSystem} {file text : String}

namespace Golden

def IsGolden (place : Location) : Prop :=
  ∃ here name, place = here ++ [name] ∧ Path.extension name = ".golden"

theorem extension_golden (s : String) : Path.extension (s ++ ".golden") = ".golden" := by
  have hending : ".golden".toList = ['.', 'g', 'o', 'l', 'd', 'e', 'n'] := rfl
  simp [Path.extension, Path.lastPart, Path.separator, hending]

theorem isName_golden (s : String) : Path.IsName (s ++ ".golden") := by
  have hne (t : String) (ht : Path.extension t ≠ ".golden") : s ++ ".golden" ≠ t := fun heq =>
    ht (heq ▸ extension_golden s)
  exact ⟨hne "" (by decide +kernel), hne "." (by decide +kernel), hne ".." (by decide +kernel)⟩

theorem not_isGolden {path : String} (hext : Path.extension path ≠ "")
    (hdot : Path.extension path ≠ ".") (hgolden : Path.extension path ≠ ".golden") :
    ¬ IsGolden (placeOf path) := by
  rintro ⟨here, name, hplace, hname⟩
  rw [Path.placeOf_eq_append (Path.isName_of_extension hext hdot)] at hplace
  have hlast : Path.lastName path = name := List.singleton_inj.1 (List.append_inj' hplace rfl).2
  rw [← hlast, Path.extension_lastName] at hname
  exact hgolden hname

theorem extension_ne_of_scenario (h : Suite.isScenarioFile file = true) {ext : String}
    (hext : ext ∉ [".yaml", ".yml"]) : Path.extension file ≠ ext := by
  rintro rfl
  rw [Suite.isScenarioFile, Bool.or_eq_true, decide_eq_true_eq, decide_eq_true_eq] at h
  exact hext (by simpa using h)

theorem isName_of_scenario (h : Suite.isScenarioFile file = true) :
    Path.IsName (Path.lastName file) :=
  Path.isName_of_extension (extension_ne_of_scenario h (by decide))
    (extension_ne_of_scenario h (by decide))

theorem not_isGolden_scenario (h : Suite.isScenarioFile file = true) :
    ¬ IsGolden (placeOf file) :=
  not_isGolden (extension_ne_of_scenario h (by decide)) (extension_ne_of_scenario h (by decide))
    (extension_ne_of_scenario h (by decide))

theorem not_isGolden_document {path : String} {format : Notation}
    (h : Notation.ofPath path = .ok format) : ¬ IsGolden (placeOf path) := by
  have hne (ext : String) (hlower : ext.toLower = ext)
      (hext : ext ∉ [".json", ".yaml", ".yml", ".cue"]) : Path.extension path ≠ ext := by
    intro heq
    rw [Notation.ofPath, heq, hlower] at h
    split at h
    · exact hext (by decide)
    · exact hext (by decide)
    · exact hext (by decide)
    · exact hext (by decide)
    · cases h
  exact not_isGolden (hne "" (by decide +kernel) (by decide))
    (hne "." (by decide +kernel) (by decide)) (hne ".golden" (by decide +kernel) (by decide))

theorem slash_notMem_golden (h : Suite.isScenarioFile file = true) :
    '/' ∉ (Path.stem file ++ ".golden").toList := by
  have hstem := Path.slash_notMem_stem (isName_of_scenario h).notEmpty
  rw [String.toList_append, List.mem_append, not_or]
  exact ⟨hstem, by decide⟩

theorem placeOf_path (h : Suite.isScenarioFile file = true) :
    placeOf (path file) =
      placeOf (Path.directory file) ++ ["golden", Path.stem file ++ ".golden"] := by
  have hdirectory : Path.directory file ≠ "" := by
    rw [Path.directory_eq]
    exact Path.clean_ne_empty _
  have hgolden : Path.IsName "golden" := ⟨by decide, by decide, by decide⟩
  rw [path, Path.placeOf_join hdirectory hgolden (isName_golden (Path.stem file)) (by decide)
    (slash_notMem_golden h)]

theorem isGolden_path (h : Suite.isScenarioFile file = true) : IsGolden (placeOf (path file)) := by
  refine ⟨placeOf (Path.directory file) ++ ["golden"], Path.stem file ++ ".golden", ?_,
    extension_golden _⟩
  rw [placeOf_path h, List.append_assoc, List.singleton_append]

theorem placeOf_path_eq_iff {other : String} (h : Suite.isScenarioFile file = true)
    (hother : Suite.isScenarioFile other = true) :
    placeOf (path other) = placeOf (path file) ↔
      placeOf (Path.directory other) = placeOf (Path.directory file) ∧
        Path.stem other = Path.stem file := by
  rw [placeOf_path h, placeOf_path hother]
  constructor
  · intro heq
    obtain ⟨hdirectory, htail⟩ := List.append_inj' heq (by simp)
    refine ⟨hdirectory, ?_⟩
    simpa using htail
  · rintro ⟨hdirectory, hstem⟩
    rw [hdirectory, hstem]

/-- The files after a golden file has been written. -/
structure Wrote (fs : FileSystem) (file text : String) (fs' : FileSystem) : Prop where
  keeps : Extends (· = placeOf (path file)) fs fs'
  reads : fs'.read (path file) = .ok text
  lookup : ∀ place, fs'.files.lookup place =
    if place = placeOf (path file) then some text else fs.files.lookup place
  listing : ∀ {place} {P : Location → Bool},
    (∀ names, names ≠ [] → placeOf (path file) = place ++ names → P names = false) →
      (fs'.below place).filter P = (fs.below place).filter P

theorem write_ok {f : Finding} (h : write fs file f = .ok fs') :
    ∃ text, f.snapshot = .ok text ∧ Wrote fs file text fs' := by
  obtain ⟨text, htext, h⟩ := bind_eq_ok.1 h
  obtain ⟨made, hmade, h⟩ := bind_eq_ok.1 h
  obtain ⟨hfiles, hkeeps⟩ := FileSystem.makeDirectory_ok (mapError_eq_ok.1 hmade)
  obtain ⟨rfl, hwrite, hread⟩ := FileSystem.write_ok (mapError_eq_ok.1 h)
  refine ⟨text, mapError_eq_ok.1 htext, (hkeeps _).trans hwrite, hread, ?_, ?_⟩
  · intro place
    rw [FileSystem.lookup_put, hfiles]
  · intro place P hhidden
    rw [FileSystem.filter_below_put hhidden, FileSystem.below, hfiles]
    rfl

end Golden

namespace Scenario

variable {s : Scenario}

theorem load_eq_ok :
    load fs file = .ok s ↔ ∃ text raw, fs.read file = .ok text ∧
      parse (Text.octets text) = .ok raw ∧ s = { raw with
        query := resolve (Path.directory file) raw.query
        config := resolve (Path.directory file) raw.config } ∧ s.flaw? fs = none := by
  unfold load
  simp only [bind_eq_ok, mapError_eq_ok]
  constructor
  · rintro ⟨text, hread, raw, hraw, h⟩
    refine ⟨text, raw, hread, hraw, ?_⟩
    split at h
    · cases h
    · cases h
      exact ⟨rfl, ‹_›⟩
  · rintro ⟨text, raw, hread, hraw, rfl, hflaw⟩
    refine ⟨text, hread, raw, hraw, ?_⟩
    rw [hflaw]
    rfl

/-- Only a query in a file of its own is looked for. -/
theorem flaw?_congr (h : s.query ≠ "" → fs.isMissing s.query = fs'.isMissing s.query) :
    s.flaw? fs = s.flaw? fs' := by
  have hdocument : s.documentFlaw? fs = s.documentFlaw? fs' := by
    unfold documentFlaw?
    by_cases hquery : s.query = ""
    · rw [if_pos hquery, if_pos hquery]
    · rw [h hquery]
  rw [flaw?, flaw?, hdocument]

theorem run_eq_ok [CueEvaluator] {f : Finding} (h : s.run fs = .ok f) :
    (∃ q, s.loadDocument fs = .ok q) ∧ ∃ config, s.loadConfig fs = .ok config := by
  obtain ⟨q, hq, h⟩ := bind_eq_ok.1 h
  obtain ⟨config, hconfig, -⟩ := bind_eq_ok.1 h
  exact ⟨⟨q, mapError_eq_ok.1 hq⟩, config, hconfig⟩

theorem run_congr [CueEvaluator] (hdocument : s.loadDocument fs = s.loadDocument fs')
    (hconfig : s.loadConfig fs = s.loadConfig fs') : s.run fs = s.run fs' := by
  rw [run, run, hdocument, hconfig]

theorem query_of_loadDocument [CueEvaluator] {q : Query} (hquery : s.query ≠ "")
    (h : s.loadDocument fs = .ok q) :
    (∃ text, fs.read s.query = .ok text) ∧ ¬ Golden.IsGolden (placeOf s.query) := by
  rw [loadDocument, if_pos hquery, Document.loadQuery] at h
  obtain ⟨json, hjson, -⟩ := bind_eq_ok.1 h
  obtain ⟨format, hformat, hjson⟩ := bind_eq_ok.1 hjson
  obtain ⟨text, htext, -⟩ := bind_eq_ok.1 hjson
  exact ⟨⟨text, mapError_eq_ok.1 htext⟩, Golden.not_isGolden_document hformat⟩

theorem loadDocument_congr [CueEvaluator] (h : s.query ≠ "" → fs.read s.query = fs'.read s.query) :
    s.loadDocument fs = s.loadDocument fs' := by
  unfold loadDocument
  by_cases hquery : s.query = ""
  · rw [if_neg (not_not.2 hquery), if_neg (not_not.2 hquery)]
  · rw [if_pos hquery, if_pos hquery, Document.loadQuery, Document.loadQuery, Document.load,
      Document.load, h hquery]

theorem loadConfig_congr (h : s.config ≠ "" → fs.read s.config = fs'.read s.config) :
    s.loadConfig fs = s.loadConfig fs' := by
  unfold loadConfig
  by_cases hconfig : s.config = ""
  · rw [if_pos hconfig, if_pos hconfig]
  · rw [if_neg hconfig, if_neg hconfig, Config.load, Config.load, h hconfig]

theorem config_of_loadConfig {config : Config} (hconfig : s.config ≠ "")
    (h : s.loadConfig fs = .ok config) : ∃ text, fs.read s.config = .ok text := by
  rw [loadConfig, if_neg hconfig, Config.load] at h
  split at h
  · cases h
  · exact ⟨_, ‹_›⟩

end Scenario

namespace Suite

variable {s : Scenario} {touched : Location → Prop}

/-- A scenario file passes before it is compared with its golden file, and has a snapshot. -/
structure Yields [CueEvaluator] (fs : FileSystem) (file : String) (s : Scenario) (text : String) : Prop where
  load : Scenario.load fs file = .ok s
  run : ∃ f, s.run fs = .ok f ∧ f.passes = true ∧ f.snapshot = .ok text

/-- A scenario comes out the same where only golden files have changed, and not its settings. -/
theorem Yields.extends [CueEvaluator] (h : Yields fs file s text) (hkeeps : Extends touched fs fs')
    (hfile : isScenarioFile file = true) (hgolden : ∀ place, touched place → Golden.IsGolden place)
    (hsettings : ¬ touched (placeOf s.config)) : Yields fs' file s text := by
  obtain ⟨f, hrun, hpasses, htext⟩ := h.run
  obtain ⟨⟨q, hq⟩, config, hconfig⟩ := Scenario.run_eq_ok hrun
  have hsame {path : String} (hpath : ¬ touched (placeOf path))
      (hread : ∃ text, fs.read path = .ok text) : fs.read path = fs'.read path := by
    obtain ⟨text, htext⟩ := hread
    rw [htext, hkeeps.read htext hpath]
  -- The query has been read, so its file has the extension of a document.
  have hquery (hne : s.query ≠ "") :
      ¬ touched (placeOf s.query) ∧ ∃ text, fs.read s.query = .ok text := by
    obtain ⟨hread, hplace⟩ := Scenario.query_of_loadDocument hne hq
    exact ⟨fun htouched => hplace (hgolden _ htouched), hread⟩
  constructor
  · obtain ⟨text, raw, hread, hraw, hs, hflaw⟩ := Scenario.load_eq_ok.1 h.load
    refine Scenario.load_eq_ok.2 ⟨text, raw, ?_, hraw, hs, ?_⟩
    · exact hkeeps.read hread fun htouched =>
        Golden.not_isGolden_scenario hfile (hgolden _ htouched)
    · rw [← hflaw]
      refine Scenario.flaw?_congr fun hne => ?_
      obtain ⟨-, text, hread⟩ := hquery hne
      have hstat := FileSystem.read_eq_ok.1 hread
      rw [hkeeps.isMissing hstat, (Extends.refl touched fs).isMissing hstat]
  · refine ⟨f, ?_, hpasses, htext⟩
    rw [← hrun]
    apply Scenario.run_congr
    · exact (Scenario.loadDocument_congr fun hne => hsame (hquery hne).1 (hquery hne).2).symm
    · exact (Scenario.loadConfig_congr fun hne =>
        hsame hsettings (Scenario.config_of_loadConfig hne hconfig)).symm

theorem runFile_update [CueEvaluator] (fs : FileSystem) (file : String) :
    (∃ s text, Yields fs file s text ∧ Golden.Wrote fs file text (runFile true fs file).1 ∧
      (runFile true fs file).2 = ⟨s.name, .passed true⟩) ∨
    ((runFile true fs file).1 = fs ∧ (runFile true fs file).2.verdict.passes = false) := by
  rw [runFile]
  cases hload : Scenario.load fs file with
  | error e => exact .inr ⟨rfl, rfl⟩
  | ok s =>
      dsimp only
      cases hrun : s.run fs with
      | error e => exact .inr ⟨rfl, rfl⟩
      | ok f =>
          dsimp only
          cases hpasses : f.passes with
          | false => exact .inr ⟨rfl, rfl⟩
          | true =>
              cases hwrite : Golden.write fs file f with
              | error e => exact .inr ⟨rfl, rfl⟩
              | ok written =>
                  obtain ⟨text, htext, hwrote⟩ := Golden.write_ok hwrite
                  exact .inl ⟨s, text, ⟨hload, f, hrun, hpasses, htext⟩, hwrote, rfl⟩

theorem runFile_compare [CueEvaluator] (fs : FileSystem) (file : String) : (runFile false fs file).1 = fs := by
  rw [runFile]
  cases Scenario.load fs file with
  | error e => rfl
  | ok s =>
      dsimp only
      cases s.run fs with
      | error e => rfl
      | ok f =>
          dsimp only
          cases f.passes <;> rfl

theorem passes_compare_iff [CueEvaluator] {want : String} (h : Yields fs file s text)
    (hread : fs.read (Golden.path file) = .ok want) :
    (runFile false fs file).2.name = s.name ∧
      ((runFile false fs file).2.verdict.passes = true ↔ want = text) := by
  obtain ⟨f, hrun, hpasses, htext⟩ := h.run
  have hagrees : Golden.agrees fs file f = .ok (decide (want = text)) := by
    rw [Golden.agrees, hread, ok_bind, htext, mapError_ok, ok_bind, pure_eq_ok]
  have hjudged : (runFile false fs file).2 = ⟨s.name, Suite.compare fs file f⟩ := by
    simp only [runFile, h.load, hrun, hpasses, Bool.not_true, Bool.false_eq_true, if_false]
  have hverdict : (Suite.compare fs file f).passes = decide (want = text) := by
    unfold Suite.compare
    rw [hagrees]
    cases decide (want = text) <;> rfl
  rw [hjudged]
  exact ⟨rfl, by rw [hverdict, decide_eq_true_eq]⟩

end Suite

end TenantQuery
