import TenantQuery.CommandLine.Documents
import TenantQuery.Proofs.Compiler.Fixpoint
import TenantQuery.Proofs.Json.Compact
import TenantQuery.Proofs.Query.Document
import TenantQuery.Scenario.Run

namespace TenantQuery

open Json Outcome

theorem Json.canonicalize_compact {text out : String} (h : canonicalize text = .ok out) :
    canonicalize (String.ofList (compact false text.toList)) = .ok out := by
  obtain ⟨j, hdocument, hdepth, hsettles, rfl⟩ := canonicalize_eq_ok.1 h
  have hcompact : Document j (String.ofList (compact false text.toList)).toList := by
    rw [String.toList_ofList]
    exact hdocument.tight.value.document
  exact canonicalize_eq_ok.2 ⟨j, hcompact, hdepth, hsettles, rfl⟩

theorem Precompiled.emit_of_canonical {p : Precompiled} (h : p.query.Spellable) {text : String}
    (htext : p.query.canonical = .ok text) : p.emit = .ok text := by
  rw [emit, htext, ok_bind]
  exact canonicalize_compact (canonicalize_canonical h.proper.spelled htext)

namespace Compiler

variable {c : Compiler} {q : Query} {organization : List Uuid} {superOrg : Bool}

theorem precompile_spellable (hq : q.Spellable) {p : Precompiled} {records : List LogRecord}
    (h : c.precompile q organization superOrg = .ok (p, records)) : p.query.Spellable := by
  obtain ⟨lowered, _, hlower, hscope, -⟩ := precompile_ok h
  exact scope_spellable hq hlower hscope

theorem emit_hashed (hq : q.Spellable) {p : Precompiled} {records : List LogRecord}
    (h : c.precompile q organization superOrg = .ok (p, records)) :
    ∃ text, p.emit = .ok text ∧ Digest.tagged Json.precompiledDomain text = p.hash := by
  obtain ⟨_, text, -, -, htext, hhash, -⟩ := precompile_ok h
  exact ⟨text, Precompiled.emit_of_canonical (precompile_spellable hq h) htext, hhash.symm⟩

theorem emit_of_precompile {p : Precompiled} {records : List LogRecord}
    (h : c.precompile q organization superOrg = .ok (p, records)) (stage : Stage) :
    c.emit stage q organization superOrg = .ok ⟨p.hash, c.emitAt stage p⟩ := by
  simp only [emit, h, ok_bind, pure_eq_ok]

theorem emit_precompile_ok (hq : q.Spellable) {emission : Emission}
    (h : c.emit .precompile q organization superOrg = .ok emission) :
    ∃ text, emission.text = .ok text ∧
      Digest.tagged Json.precompiledDomain text = emission.hash := by
  obtain ⟨⟨p, records⟩, hp, hemission⟩ := bind_eq_ok.1 h
  cases hemission
  exact emit_hashed hq hp

end Compiler

theorem Document.spellable_of_loadQuery [CueEvaluator] {files : FileSystem} {path : String} {q : Query}
    (h : loadQuery files path = .ok q) : q.Spellable := by
  obtain ⟨text, -, hparse⟩ := bind_eq_ok.1 h
  exact Query.spellable_of_parse (mapError_eq_ok.1 hparse)

theorem Scenario.spellable_of_loadDocument [CueEvaluator] {files : FileSystem} {s : Scenario}
    {q : Query} (h : s.loadDocument files = .ok q) : q.Spellable := by
  unfold loadDocument at h
  split at h
  · exact Document.spellable_of_loadQuery h
  · obtain ⟨json, -, hparse⟩ := bind_eq_ok.1 h
    exact Query.spellable_of_parse hparse

/-- What the compile command gives out for a document is what the compiler gives out for it. -/
theorem CommandLine.emit_of_compileOne [CueEvaluator] {c : Compiler} {stage : Stage} {apps : List Uuid}
    {superOrg : Bool} {files : FileSystem} {path text : String}
    (h : (compileOne c stage apps superOrg files path).1.query = .ok text) :
    ∃ q emission, Document.loadQuery files path = .ok q ∧
      c.emit stage q apps superOrg = .ok emission ∧ emission.text = .ok text ∧
      (compileOne c stage apps superOrg files path).1.hash = emission.hash := by
  cases hload : Document.loadQuery files path with
  | error e => simp [compileOne, hload] at h
  | ok q =>
      cases hemission : c.emit stage q apps superOrg with
      | error e => simp [compileOne, hload, hemission] at h
      | ok emission =>
          simp only [compileOne, hload, hemission] at h ⊢
          exact ⟨q, emission, rfl, hemission, h, rfl⟩

theorem Scenario.run_eq_compiled [CueEvaluator] {files : FileSystem} {s : Scenario}
    {output hash : String} {errors : List String} :
    s.run files = .ok ⟨.compiled output hash, errors⟩ ↔
      ∃ q config now apps emission, s.loadDocument files = .ok q ∧ s.loadConfig files = .ok config ∧
        s.clock = .ok now ∧ s.organizationAppIDs.mapM parseApp = .ok apps ∧
        (⟨config, now⟩ : Compiler).emit ((Stage.ofName? s.stage).getD .runnable) q apps s.superOrg =
          .ok emission ∧
        emission.text = .ok output ∧ emission.hash = hash ∧ s.outputErrors output = .ok errors := by
  simp only [run, bind_eq_ok, mapError_eq_ok]
  constructor
  · rintro ⟨q, hq, config, hconfig, now, hnow, apps, happs, h⟩
    split at h
    · rename_i hcompiled
      obtain ⟨found, herrors, hfinding⟩ := bind_eq_ok.1 h
      cases hfinding
      obtain ⟨emission, hemission, hpair⟩ := bind_eq_ok.1 hcompiled
      obtain ⟨text, htext, hpair⟩ := bind_eq_ok.1 hpair
      cases hpair
      exact ⟨q, config, now, apps, emission, hq, hconfig, hnow, happs, hemission, htext, rfl,
        herrors⟩
    · split at h
      · cases h
      · cases h
  · rintro ⟨q, config, now, apps, emission, hq, hconfig, hnow, happs, hemission, htext, rfl,
      herrors⟩
    refine ⟨q, hq, config, hconfig, now, hnow, apps, happs, ?_⟩
    simp only [hemission, ok_bind, htext, pure_eq_ok, herrors]

open CommandLine in
/-- The reported hash is that of the text that is given out. Every document that loads and
precompiles is given out by the compile command at this stage, and of what is given out there or by
a scenario the hash is the one that is reported. -/
theorem hash_identifies_emission [CueEvaluator] :
    (∀ (c : Compiler) (apps : List Uuid) (superOrg : Bool) (files : FileSystem) (path : String)
      (q : Query) (p : Precompiled) (records : List LogRecord),
      Document.loadQuery files path = .ok q → c.precompile q apps superOrg = .ok (p, records) →
      ∃ text, compileOne c .precompile apps superOrg files path =
        (⟨path, p.hash, .ok text⟩, records) ∧
        Digest.tagged Json.precompiledDomain text = p.hash) ∧
    (∀ (c : Compiler) (apps : List Uuid) (superOrg : Bool) (files : FileSystem)
      (path text : String),
      (compileOne c .precompile apps superOrg files path).1.query = .ok text →
      Digest.tagged Json.precompiledDomain text =
        (compileOne c .precompile apps superOrg files path).1.hash) ∧
    ∀ (files : FileSystem) (s : Scenario) (output hash : String) (errors : List String),
      s.stage = Stage.precompile.name → s.run files = .ok ⟨.compiled output hash, errors⟩ →
      Digest.tagged Json.precompiledDomain output = hash := by
  refine ⟨?_, ?_, ?_⟩
  · intro c apps superOrg files path q p records hload hp
    obtain ⟨text, hemit, hhash⟩ := Compiler.emit_hashed (Document.spellable_of_loadQuery hload) hp
    refine ⟨text, ?_, hhash⟩
    simp only [compileOne, hload, Compiler.emit_of_precompile hp, Compiler.emitAt, hemit,
      Compiler.records, hp]
  · intro c apps superOrg files path text h
    obtain ⟨q, emission, hload, hemission, htext, hhash⟩ := emit_of_compileOne h
    obtain ⟨text', htext', hhash'⟩ :=
      Compiler.emit_precompile_ok (Document.spellable_of_loadQuery hload) hemission
    rw [htext, Except.ok.injEq] at htext'
    rw [htext', hhash', hhash]
  · intro files s output hash errors hstage hrun
    obtain ⟨q, config, now, apps, emission, hload, -, -, -, hemission, htext, rfl, -⟩ :=
      Scenario.run_eq_compiled.1 hrun
    rw [hstage] at hemission
    obtain ⟨text, htext', hhash⟩ :=
      Compiler.emit_precompile_ok (s.spellable_of_loadDocument hload) hemission
    rw [htext, Except.ok.injEq] at htext'
    rw [htext', hhash]

/-- A count over a source whose name is escaped on the way out. It compiles where a refusal is
expected. -/
def escapedTally : Scenario where
  document := some [
    ("queryType", .scalar (.text "timeseries")), ("granularity", .scalar (.text "all")),
    ("baseFilters", .scalar (.text "noFilter")), ("dataSource", .scalar (.text "a<b")),
    ("intervals", .list [.scalar (.text "2022-08-01T00:00:00.000Z/2022-09-01T00:00:00.000Z")])]
  superOrg := true
  stage := "precompile"
  expect := some { error := "KEY_MISSING" }

def escapedTallyText : Json := .object [
  ("baseFilters", .string "noFilter"), ("dataSource", .string "a<b"),
  ("granularity", .string "all"),
  ("intervals", .array [.string "2022-08-01T00:00:00.000Z/2022-09-01T00:00:00.000Z"]),
  ("queryType", .string "timeseries")]

def escapedTallyQuery : Query where
  queryType := .timeseries
  dataSource := "a<b"
  granularity := .all
  baseFilters := some .noFilter
  intervals := some [⟨⟨1659312000000000000⟩, ⟨1661990400000000000⟩⟩]

theorem loadDocument_escapedTally : escapedTally.loadDocument {} = .ok escapedTallyQuery := by
  have hentries : Assertion.entriesJson escapedTally.document = .ok escapedTallyText := rfl
  have hspelled : escapedTallyText.Spelled := by
    simp [escapedTallyText, HasLiterals, Everywhere, EverywhereItems, EverywhereMembers]
  have hparse : Query.parse escapedTallyText.encode = .ok escapedTallyQuery :=
    Query.parse_eq_ok.2 ⟨_, (Json.parse_encode_eq_ok hspelled).2 ⟨rfl, by decide⟩, rfl⟩
  change (Assertion.entriesJson escapedTally.document >>= fun json => Query.parse json.encode) = _
  rw [hentries, ok_bind, hparse]

theorem hash_identifies_emission_escapedTally :
    ∃ output hash errors, escapedTally.run {} = .ok ⟨.compiled output hash, errors⟩ ∧
      Digest.tagged Json.precompiledDomain output = hash := by
  have hclock : escapedTally.clock = .ok ⟨1665739800000000000⟩ := rfl
  obtain ⟨text, htext⟩ : ∃ text, (Compiler.placed ⟨.standard, ⟨1665739800000000000⟩⟩ .noFilter
      escapedTallyQuery none).canonical = .ok text := exists_of_isOk (by decide +kernel)
  have hscope : Compiler.scope ⟨.standard, ⟨1665739800000000000⟩⟩ escapedTallyQuery
      escapedTallyQuery [] true = .ok (Compiler.placed ⟨.standard, ⟨1665739800000000000⟩⟩ .noFilter
        escapedTallyQuery none) := rfl
  obtain ⟨records, hp⟩ := Compiler.precompile_of_ok rfl hscope htext
  have hspellable := escapedTally.spellable_of_loadDocument loadDocument_escapedTally
  obtain ⟨output, houtput, -⟩ := Compiler.emit_hashed hspellable hp
  have hemission : Compiler.emit ⟨.standard, ⟨1665739800000000000⟩⟩ .precompile escapedTallyQuery []
      true = .ok ⟨Digest.tagged Json.precompiledDomain text, .ok output⟩ := by
    rw [Compiler.emit_of_precompile hp, Compiler.emitAt, houtput]
  have hrun := Scenario.run_eq_compiled.2 ⟨_, .standard, _, [], _, loadDocument_escapedTally, rfl,
    hclock, rfl, hemission, rfl, rfl, rfl⟩
  exact ⟨output, _, _, hrun, hash_identifies_emission.2.2 {} escapedTally output _ _ rfl hrun⟩

end TenantQuery
