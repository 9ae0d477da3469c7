import TenantQuery.Proofs.Scenario.Golden

namespace TenantQuery

open FileSystem (placeOf Extends)
open Outcome

variable {fs fs' : FileSystem} {file text : String} {s : Scenario}

namespace Suite

theorem run_cons [CueEvaluator] (update : Bool) (fs : FileSystem) (file : String) (files : List String) :
    run update fs (file :: files) =
      ((run update (runFile update fs file).1 files).1,
        (runFile update fs file).2 :: (run update (runFile update fs file).1 files).2) := rfl

theorem run_append [CueEvaluator] (update : Bool) (fs : FileSystem) (files files' : List String) :
    run update fs (files ++ files') =
      ((run update (run update fs files).1 files').1,
        (run update fs files).2 ++ (run update (run update fs files).1 files').2) := by
  induction files generalizing fs with
  | nil => rfl
  | cons file files ih => rw [List.cons_append, run_cons, ih, run_cons, List.cons_append]

theorem length_run [CueEvaluator] (update : Bool) (fs : FileSystem) (files : List String) :
    (run update fs files).2.length = files.length := by
  induction files generalizing fs with
  | nil => rfl
  | cons file files ih => rw [run_cons, List.length_cons, List.length_cons, ih]

theorem drop_eq_cons {files : List String} {i : Nat} (h : files[i]? = some file) :
    files.drop i = file :: files.drop (i + 1) := by
  obtain ⟨hi, hfile⟩ := List.getElem?_eq_some_iff.1 h
  rw [List.drop_eq_getElem_cons hi, hfile]

theorem getElem?_run [CueEvaluator] {files : List String} {i : Nat} (update : Bool) (fs : FileSystem)
    (h : files[i]? = some file) :
    (run update fs files).2[i]? =
      some (runFile update (run update fs (files.take i)).1 file).2 := by
  obtain ⟨hi, -⟩ := List.getElem?_eq_some_iff.1 h
  have hlength : (run update fs (files.take i)).2.length = i := by
    rw [length_run, List.length_take_of_le hi.le]
  conv_lhs => rw [← List.take_append_drop i files, drop_eq_cons h]
  rw [run_append, run_cons, List.getElem?_append_right hlength.le, hlength, Nat.sub_self,
    List.getElem?_cons_zero]

theorem run_compare [CueEvaluator] (fs : FileSystem) (files : List String) :
    run false fs files = (fs, files.map fun file => (runFile false fs file).2) := by
  induction files with
  | nil => rfl
  | cons file files ih => rw [run_cons, runFile_compare, ih, List.map_cons]

def Touched (files : List String) (place : Location) : Prop :=
  ∃ file ∈ files, place = placeOf (Golden.path file)

theorem Touched.mono {files files' : List String} {place : Location} (h : Touched files place)
    (hsub : files ⊆ files') : Touched files' place := by
  obtain ⟨file, hfile, hplace⟩ := h
  exact ⟨file, hsub hfile, hplace⟩

theorem runFile_keeps [CueEvaluator] (fs : FileSystem) (file : String) :
    Extends (Touched [file]) fs (runFile true fs file).1 := by
  rcases runFile_update fs file with ⟨s, text, -, hwrote, -⟩ | ⟨hsame, -⟩
  · exact hwrote.keeps.mono fun place hplace => ⟨file, List.mem_singleton.2 rfl, hplace⟩
  · rw [hsame]
    exact .refl _ fs

theorem run_keeps [CueEvaluator] (fs : FileSystem) (files : List String) :
    Extends (Touched files) fs (run true fs files).1 := by
  induction files generalizing fs with
  | nil => exact .refl _ fs
  | cons file files ih =>
      refine ((runFile_keeps fs file).mono fun place hplace => ?_).trans
        ((ih _).mono fun place hplace => ?_)
      · exact hplace.mono (List.cons_subset_cons file (List.nil_subset files))
      · exact hplace.mono (List.subset_cons_self file files)

def snapshot [CueEvaluator] (fs : FileSystem) (file : String) : Except Error String := do
  let s ← Scenario.load fs file
  (← s.run fs).snapshot

def record? [CueEvaluator] (fs : FileSystem) (file : String) : Option (Location × String) :=
  if (runFile true fs file).2.verdict.passes then
    (snapshot fs file).toOption.map fun text => (placeOf (Golden.path file), text)
  else none

/-- All that such a run writes, in order. -/
def records [CueEvaluator] (fs : FileSystem) : List String → List (Location × String)
  | [] => []
  | file :: files => (record? fs file).toList ++ records (runFile true fs file).1 files

theorem Yields.snapshot [CueEvaluator] (h : Yields fs file s text) : snapshot fs file = .ok text := by
  obtain ⟨f, hrun, -, htext⟩ := h.run
  rw [Suite.snapshot, h.load, ok_bind, hrun, ok_bind, htext]

theorem Yields.record? [CueEvaluator] (h : Yields fs file s text)
    (hpasses : (runFile true fs file).2.verdict.passes = true) :
    record? fs file = some (placeOf (Golden.path file), text) := by
  rw [Suite.record?, if_pos hpasses, h.snapshot]
  rfl

theorem lookup_runFile [CueEvaluator] (fs : FileSystem) (file : String) (place : Location) :
    (runFile true fs file).1.files.lookup place =
      ((record? fs file).toList.lookup place).or (fs.files.lookup place) := by
  rcases runFile_update fs file with ⟨s, text, hyields, hwrote, hjudged⟩ | ⟨hsame, hfails⟩
  · rw [hwrote.lookup, hyields.record? (by rw [hjudged]; rfl)]
    by_cases hplace : place = placeOf (Golden.path file)
    · simp [hplace]
    · simp [hplace, List.lookup_cons, beq_false_of_ne hplace]
  · rw [hsame, record?, hfails]
    rfl

theorem lookup_run [CueEvaluator] (fs : FileSystem) (files : List String) (place : Location) :
    (run true fs files).1.files.lookup place =
      ((records fs files).reverse.lookup place).or (fs.files.lookup place) := by
  induction files generalizing fs with
  | nil => rfl
  | cons file files ih =>
      -- What later files write comes first in the reversed list and hides what this one wrote.
      have hsingle : (record? fs file).toList.reverse = (record? fs file).toList := by
        cases record? fs file <;> rfl
      rw [run_cons, records, List.reverse_append, List.lookup_append, hsingle, Option.or_assoc,
        ← lookup_runFile, ← ih]

theorem records_append [CueEvaluator] (fs : FileSystem) (files files' : List String) :
    records fs (files ++ files') = records fs files ++ records (run true fs files).1 files' := by
  induction files generalizing fs with
  | nil => rfl
  | cons file files ih => rw [List.cons_append, records, ih, records, List.append_assoc, run_cons]

theorem touched_of_mem_records [CueEvaluator] {files : List String} {place : Location}
    (h : (place, text) ∈ records fs files) : Touched files place := by
  induction files generalizing fs with
  | nil => cases h
  | cons file files ih =>
      rw [records, List.mem_append] at h
      rcases h with h | h
      · rw [Option.mem_toList, record?] at h
        split at h
        · obtain ⟨text', -, heq⟩ := Option.map_eq_some_iff.1 h
          exact ⟨file, List.mem_cons_self, (Prod.mk.inj heq).1.symm⟩
        · cases h
      · exact (ih h).mono (List.subset_cons_self file files)

theorem find_eq (fs : FileSystem) (root filter : String) :
    find fs root filter =
      match fs.stat root with
      | .ok .directory =>
        let found := (fs.below (placeOf root)).map fun names => Path.join (root :: names)
        select filter (found.filter isScenarioFile)
      | .ok (.file _) => select filter ([root].filter isScenarioFile)
      | .error fault => .error (.file "lstat" root fault) := by
  unfold find
  cases hstat : fs.stat root with
  | error fault => cases fs.locate root <;> rfl
  | ok entry =>
      rw [(FileSystem.stat_eq_ok.1 hstat).1]
      cases entry <;> rfl

theorem select_sublist {filter : String} {files found : List String}
    (h : select filter files = .ok found) : found.Sublist files := by
  induction files generalizing found with
  | nil =>
      cases h
      exact .slnil
  | cons file files ih =>
      rw [select] at h
      obtain ⟨keep, -, h⟩ := bind_eq_ok.1 h
      obtain ⟨rest, hrest, h⟩ := bind_eq_ok.1 h
      cases h
      split
      · exact (ih hrest).cons_cons file
      · exact (ih hrest).cons file

theorem isScenarioFile_of_find {root filter : String} {files : List String}
    (h : find fs root filter = .ok files) : ∀ file ∈ files, isScenarioFile file = true := by
  intro file hfile
  rw [find_eq] at h
  split at h
  · exact (List.mem_filter.1 ((select_sublist h).mem hfile)).2
  · exact (List.mem_filter.1 ((select_sublist h).mem hfile)).2
  · cases h

theorem isScenarioFile_join_golden (hfile : isScenarioFile file = true) {here : Location}
    {names : List String} (hne : names ≠ []) (hplace : placeOf (Golden.path file) = here ++ names)
    (root : String) : isScenarioFile (Path.join (root :: names)) = false := by
  obtain ⟨init, name, rfl⟩ := (List.eq_nil_or_concat' names).resolve_left hne
  obtain rfl : Path.stem file ++ ".golden" = name := by
    rw [Golden.placeOf_path hfile] at hplace
    have hlast := congrArg List.getLast? hplace
    simpa using hlast
  have hname := Path.lastName_join (Golden.isName_golden (Path.stem file))
    (Golden.slash_notMem_golden hfile) (root :: init)
  rw [List.cons_append] at hname
  rw [isScenarioFile, ← Path.extension_lastName, hname, Golden.extension_golden]
  decide

theorem find_runFile [CueEvaluator] {root filter : String} {found : List String}
    (hfile : isScenarioFile file = true) (h : find fs root filter = .ok found) :
    find (runFile true fs file).1 root filter = .ok found := by
  rcases runFile_update fs file with ⟨s, text, -, hwrote, -⟩ | ⟨hsame, -⟩
  · rw [find_eq] at h ⊢
    cases hstat : fs.stat root with
    | error fault =>
        rw [hstat] at h
        cases h
    | ok entry =>
        rw [hstat] at h
        cases entry with
        | file text =>
            obtain ⟨text', hstat', -⟩ := hwrote.keeps.stat_file hstat
            rw [hstat']
            exact h
        | directory =>
            rw [hwrote.keeps.stat_directory hstat]
            dsimp only at h ⊢
            -- The golden file may be listed anew, but it is no scenario.
            rw [List.filter_map, hwrote.listing, ← List.filter_map]
            · exact h
            · intro names hne hplace
              rw [Function.comp_apply, isScenarioFile_join_golden hfile hne hplace]
  · rw [hsame]
    exact h

theorem find_run [CueEvaluator] {root filter : String} {files found : List String}
    (hfiles : ∀ file ∈ files, isScenarioFile file = true) (h : find fs root filter = .ok found) :
    find (run true fs files).1 root filter = .ok found := by
  induction files generalizing fs with
  | nil => exact h
  | cons file files ih =>
      obtain ⟨hfile, hfiles⟩ := List.forall_mem_cons.1 hfiles
      rw [run_cons]
      exact ih hfiles (find_runFile hfile h)

theorem not_touched_empty {files : List String}
    (h : ∀ file ∈ files, isScenarioFile file = true) : ¬ Touched files (placeOf "") := by
  rintro ⟨file, hfile, hplace⟩
  obtain ⟨here, name, hgolden, -⟩ := Golden.isGolden_path (h file hfile)
  have hnil : placeOf "" = [] := rfl
  rw [hgolden, hnil] at hplace
  exact List.append_ne_nil_of_right_ne_nil here (List.cons_ne_nil name []) hplace.symm

theorem lookup_records_of_untouched [CueEvaluator] {files : List String} {place : Location}
    (h : ¬ Touched files place) : (records fs files).reverse.lookup place = none := by
  rw [List.lookup_eq_none_iff]
  intro r hr
  rw [List.mem_reverse] at hr
  refine bne_iff_ne.2 fun heq => h ?_
  rw [heq]
  exact touched_of_mem_records hr

/-- Once its golden file has been written and other files have been run, a scenario file is compared
with what was written last. -/
theorem passes_after_iff [CueEvaluator] {rest : List String} (h : Yields fs file s text)
    (hwrote : Golden.Wrote fs file text fs')
    (hscenarios : ∀ other ∈ file :: rest, isScenarioFile other = true)
    (hsettings : ¬ Touched (file :: rest) (placeOf s.config)) :
    (runFile false (run true fs' rest).1 file).2.name = s.name ∧
      ((runFile false (run true fs' rest).1 file).2.verdict.passes = true ↔
        ((records fs' rest).reverse.lookup (placeOf (Golden.path file))).or (some text) =
          some text) := by
  have hkeeps : Extends (Touched (file :: rest)) fs (run true fs' rest).1 := by
    refine (hwrote.keeps.mono ?_).trans ((run_keeps fs' rest).mono ?_)
    · intro place hplace
      exact ⟨file, List.mem_cons_self, hplace⟩
    · intro place hplace
      exact hplace.mono (List.subset_cons_self file rest)
  have hagain : Yields (run true fs' rest).1 file s text := by
    refine h.extends hkeeps (hscenarios file List.mem_cons_self) ?_ hsettings
    rintro place ⟨other, hother, hplace⟩
    rw [hplace]
    exact Golden.isGolden_path (hscenarios other hother)
  -- The golden file stays a file, whatever is written to it.
  obtain ⟨want, hstat, -⟩ := (run_keeps fs' rest).stat_file (FileSystem.read_eq_ok.1 hwrote.reads)
  have hlookup := FileSystem.entry?_eq_file.1 (FileSystem.stat_eq_ok.1 hstat).2
  rw [lookup_run, hwrote.lookup, if_pos rfl] at hlookup
  obtain ⟨hname, hiff⟩ := passes_compare_iff hagain (FileSystem.read_eq_ok.2 hstat)
  rw [hlookup, hiff, Option.some.injEq]
  exact ⟨hname, Iff.rfl⟩

theorem lookup_records [CueEvaluator] {before : List String} (h : Yields (run true fs before).1 file s text)
    (hpasses : (runFile true (run true fs before).1 file).2.verdict.passes = true)
    (rest : List String) :
    (records fs (before ++ file :: rest)).reverse.lookup (placeOf (Golden.path file)) =
      ((records (runFile true (run true fs before).1 file).1 rest).reverse.lookup
        (placeOf (Golden.path file))).or (some text) := by
  rw [records_append, records, h.record? hpasses, List.reverse_append, List.reverse_append,
    List.lookup_append, List.lookup_append, Option.toList_some, List.reverse_singleton,
    List.lookup_cons_self, Option.or_assoc, Option.some_or]

/-- A later file touches the golden file of a scenario if it differs from it in nothing but the
extension. -/
theorem not_touched_of_distinct {rest : List String}
    (hscenarios : ∀ other ∈ file :: rest, isScenarioFile other = true)
    (h : ∀ other ∈ rest, placeOf (Path.directory other) = placeOf (Path.directory file) →
      Path.stem other ≠ Path.stem file) : ¬ Touched rest (placeOf (Golden.path file)) := by
  rintro ⟨other, hother, hplace⟩
  obtain ⟨hdirectory, hstem⟩ := (Golden.placeOf_path_eq_iff (hscenarios file List.mem_cons_self)
    (hscenarios other (List.mem_cons_of_mem file hother))).1 hplace.symm
  exact h other hother hdirectory hstem

/-- A file that passed passes again if and only if the snapshot that was written last to its golden
file is its own. -/
theorem passes_again_iff [CueEvaluator] {files : List String} {i : Nat}
    (hscenarios : ∀ other ∈ files, isScenarioFile other = true) (hfile : files[i]? = some file)
    (hpasses : (runFile true (run true fs (files.take i)).1 file).2.verdict.passes = true)
    (hsettings : ∀ s, Scenario.load (run true fs (files.take i)).1 file = .ok s →
      ¬ Touched (files.drop i) (placeOf s.config)) :
    (runFile false (run true fs files).1 file).2.name =
        (runFile true (run true fs (files.take i)).1 file).2.name ∧
      ((runFile false (run true fs files).1 file).2.verdict.passes = true ↔
        (records fs files).reverse.lookup (placeOf (Golden.path file)) =
          (snapshot (run true fs (files.take i)).1 file).toOption) ∧
      ((∀ other ∈ files.drop (i + 1),
          placeOf (Path.directory other) = placeOf (Path.directory file) →
            Path.stem other ≠ Path.stem file) →
        (runFile false (run true fs files).1 file).2.verdict.passes = true) := by
  have hdrop := drop_eq_cons hfile
  have hlater : ∀ other ∈ file :: files.drop (i + 1), isScenarioFile other = true := by
    intro other hother
    rw [← hdrop] at hother
    exact hscenarios other (List.mem_of_mem_drop hother)
  rcases runFile_update (run true fs (files.take i)).1 file with
    ⟨s, text, hyields, hwrote, hjudged⟩ | ⟨-, hfails⟩
  · have hafter : (run true fs files).1 =
        (run true (runFile true (run true fs (files.take i)).1 file).1 (files.drop (i + 1))).1 := by
      conv_lhs => rw [← List.take_append_drop i files, hdrop, run_append, run_cons]
    have hrecords : (records fs files).reverse.lookup (placeOf (Golden.path file)) =
        ((records (runFile true (run true fs (files.take i)).1 file).1
          (files.drop (i + 1))).reverse.lookup (placeOf (Golden.path file))).or (some text) := by
      conv_lhs => rw [← List.take_append_drop i files, hdrop]
      exact lookup_records hyields hpasses _
    have hsnapshot : (snapshot (run true fs (files.take i)).1 file).toOption = some text := by
      rw [hyields.snapshot]
      rfl
    obtain ⟨hname, hiff⟩ :=
      passes_after_iff hyields hwrote hlater (hdrop ▸ hsettings s hyields.load)
    rw [hafter, hrecords, hsnapshot, hiff, hname, hjudged]
    refine ⟨rfl, Iff.rfl, fun hdistinct => ?_⟩
    rw [lookup_records_of_untouched (not_touched_of_distinct hlater hdistinct), Option.none_or]
  · rw [hfails] at hpasses
    cases hpasses

end Suite

namespace CommandLine

variable {files : List String}

theorem test_of_find [CueEvaluator] (env : Environment) {filter path : String}
    (h : Suite.find env.files path filter = .ok files) (r : Reporter) (update : Bool) :
    (test env r update filter path).files = (Suite.run update env.files files).1 ∧
      (test env r update filter path).output =
        suiteReport r (Suite.run update env.files files).2 := by
  have hpresent : env.files.isMissing path = false := by
    rw [Suite.find_eq] at h
    rw [FileSystem.isMissing]
    cases hstat : env.files.stat path with
    | error fault =>
        rw [hstat] at h
        cases h
    | ok entry => rfl
  rw [test, hpresent, h]
  exact ⟨rfl, rfl⟩

/-- The run after one that brought the golden files up to date finds the same files and changes
nothing. A scenario that passed the first time passes again if and only if the last snapshot written
to its golden file is its own, given that its settings are no golden file written from its turn on.
So it passes if no later file differs from it in nothing but the extension. -/
theorem test_after_update [CueEvaluator] (env : Environment) (r r' : Reporter) (input : String) (now : Instant)
    {filter path : String} (hfind : Suite.find env.files path filter = .ok files) :
    let first := test env r true filter path
    let second := test { files := first.files, input, now } r' false filter path
    let judged := (Suite.run true env.files files).2
    let again := (Suite.run false first.files files).2
    first.output = suiteReport r judged ∧ second.output = suiteReport r' again ∧
      second.files = first.files ∧
      ∀ i file j, files[i]? = some file → judged[i]? = some j → j.verdict.passes = true →
        let turn := (Suite.run true env.files (files.take i)).1
        (∀ s, Scenario.load turn file = .ok s →
          ¬ Suite.Touched (files.drop i) (placeOf s.config)) →
        ∃ j', again[i]? = some j' ∧ j'.name = j.name ∧
          (j'.verdict.passes = true ↔
            (Suite.records env.files files).reverse.lookup (placeOf (Golden.path file)) =
              (Suite.snapshot turn file).toOption) ∧
          ((∀ other ∈ files.drop (i + 1),
              placeOf (Path.directory other) = placeOf (Path.directory file) →
                Path.stem other ≠ Path.stem file) →
            j'.verdict.passes = true) := by
  have hscenarios := Suite.isScenarioFile_of_find hfind
  obtain ⟨hfiles, houtput⟩ := test_of_find env hfind r true
  intro first second judged again
  have hfirst : first.files = (Suite.run true env.files files).1 := hfiles
  have hagain : Suite.find first.files path filter = .ok files := by
    rw [hfirst]
    exact Suite.find_run hscenarios hfind
  obtain ⟨hfiles', houtput'⟩ := test_of_find ⟨first.files, input, now⟩ hagain r' false
  refine ⟨houtput, houtput', ?_, ?_⟩
  · rw [Suite.run_compare] at hfiles'
    exact hfiles'
  · intro i file j hfile hj hpasses turn hsettings
    rw [Suite.getElem?_run true env.files hfile, Option.some.injEq] at hj
    subst hj
    refine ⟨(Suite.runFile false first.files file).2, ?_, ?_⟩
    · change (Suite.run false first.files files).2[i]? = _
      rw [Suite.run_compare, List.getElem?_map, hfile, Option.map_some]
    · rw [hfirst]
      exact Suite.passes_again_iff hscenarios hfile hpasses hsettings

def windowScenario : String :=
  "name: window\ndescription: No window is given.\n" ++
    "document: \x7bqueryType: timeseries, granularity: all\x7d\n" ++
    "expect: \x7berror: KEY_MISSING\x7d\n"

def stepsScenario : String :=
  "name: steps\ndescription: No steps are given.\n" ++
    "document: \x7bqueryType: funnel, granularity: all, " ++
    "intervals: [2022-08-01/2022-09-01]\x7d\nexpect: \x7berror: KEY_MISSING\x7d\n"

def scenarioPair (other : String) : FileSystem where
  files := [(["s", "a.yaml"], windowScenario), (["s", other], stepsScenario)]

theorem find_scenarioPair {other : String} (hle : FileSystem.namesLe ["a.yaml"] [other] = true)
    (hother : Suite.isScenarioFile (Path.join ["s", other]) = true) :
    Suite.find (scenarioPair other) "s" "" = .ok ["s/a.yaml", Path.join ["s", other]] := by
  have hstat : (scenarioPair other).stat "s" = .ok .directory := rfl
  have hplace : placeOf "s" = ["s"] := by decide
  have hbelow : (scenarioPair other).below ["s"] =
      [["a.yaml"], [other]].mergeSort FileSystem.namesLe := by
    simp [FileSystem.below, scenarioPair]
  have hfirst : Path.join ["s", "a.yaml"] = "s/a.yaml" := by decide
  have hscenario : Suite.isScenarioFile "s/a.yaml" = true := by decide
  rw [Suite.find_eq, hstat]
  dsimp only
  rw [hplace, hbelow, List.mergeSort_of_pairwise (by simpa using hle)]
  simp [hfirst, hscenario, hother, Suite.select, Suite.admits]

theorem test_after_update_pair :
    ∃ j, (Suite.run false (test ⟨scenarioPair "b.yml", "", ⟨0⟩⟩ {} true "" "s").files
        ["s/a.yaml", "s/b.yml"]).2[0]? = some j ∧ j.verdict.passes = true := by
  have hfind : Suite.find (scenarioPair "b.yml") "s" "" = .ok ["s/a.yaml", "s/b.yml"] :=
    find_scenarioPair (by decide) (by decide)
  have hstart : (Suite.run true (scenarioPair "b.yml") (["s/a.yaml", "s/b.yml"].take 0)).1 =
      scenarioPair "b.yml" := by
    rw [List.take_zero, Suite.run]
  have hjudged := Suite.getElem?_run true (scenarioPair "b.yml")
    (show ["s/a.yaml", "s/b.yml"][0]? = some "s/a.yaml" from rfl)
  have hpasses :
      (Suite.runFile true (scenarioPair "b.yml") "s/a.yaml").2.verdict.passes = true := by
    decide +kernel
  have hconfig : (Scenario.load (scenarioPair "b.yml") "s/a.yaml").toOption.map (·.config) =
      some "" := by
    decide +kernel
  have hsettings (s : Scenario) (hload : Scenario.load (scenarioPair "b.yml") "s/a.yaml" = .ok s) :
      ¬ Suite.Touched ["s/a.yaml", "s/b.yml"] (placeOf s.config) := by
    rw [hload] at hconfig
    have hempty : s.config = "" := Option.some.inj hconfig
    rw [hempty]
    exact Suite.not_touched_empty (Suite.isScenarioFile_of_find hfind)
  obtain ⟨-, -, -, hagain⟩ :=
    test_after_update ⟨scenarioPair "b.yml", "", ⟨0⟩⟩ {} {} "" ⟨0⟩ hfind
  specialize hagain 0 "s/a.yaml" _ rfl hjudged
  rw [hstart] at hagain
  obtain ⟨j, hj, -, -, halone⟩ := hagain hpasses hsettings
  exact ⟨j, hj, halone (by decide)⟩

theorem test_after_update_twins :
    Suite.find (scenarioPair "a.yml") "s" "" = .ok ["s/a.yaml", "s/a.yml"] ∧
      (Suite.run true (scenarioPair "a.yml") ["s/a.yaml", "s/a.yml"]).2.map (·.verdict.passes) =
        [true, true] ∧
      (Suite.run false (test ⟨scenarioPair "a.yml", "", ⟨0⟩⟩ {} true "" "s").files
        ["s/a.yaml", "s/a.yml"]).2.map (·.verdict.passes) = [false, true] := by
  have hfind : Suite.find (scenarioPair "a.yml") "s" "" = .ok ["s/a.yaml", "s/a.yml"] :=
    find_scenarioPair (by decide) (by decide)
  rw [(test_of_find _ hfind {} true).1]
  exact ⟨hfind, by decide +kernel⟩

end CommandLine

end TenantQuery
