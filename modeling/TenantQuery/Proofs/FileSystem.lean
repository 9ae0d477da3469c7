import Mathlib.Data.List.Basic
import TenantQuery.Document.Path
import TenantQuery.FileSystem
import TenantQuery.Proofs.Outcome
import TenantQuery.Proofs.Text

namespace TenantQuery

namespace Text

theorem split_of_notMem {c : Char} {s : String} (h : c ∉ s.toList) : split c s = [s] := by
  rw [split, List.splitOn_eq_singleton h, List.map_singleton, String.ofList_toList]

theorem split_slash (s t : String) : split '/' (s ++ "/" ++ t) = split '/' s ++ split '/' t := by
  have hslash : "/".toList = ['/'] := rfl
  simp only [split, String.toList_append, hslash, List.append_assoc, List.singleton_append,
    List.splitOn_append_cons_self, List.map_append]

theorem split_intercalate {parts : List String} (h : ∀ p ∈ parts, '/' ∉ p.toList)
    (hne : parts ≠ []) : split '/' ("/".intercalate parts) = parts := by
  have hslash : "/".toList = ['/'] := rfl
  rw [split, String.toList_intercalate, hslash, List.splitOn_intercalate]
  · rw [List.map_map]
    exact (List.map_congr_left fun p _ => String.ofList_toList).trans (List.map_id parts)
  · simpa using h
  · simpa using hne

theorem notMem_of_mem_split {c : Char} {s t : String} (h : t ∈ split c s) : c ∉ t.toList := by
  have hparts (cs : List Char) : ∀ part ∈ cs.splitOn c, c ∉ part := by
    induction cs with
    | nil => simp
    | cons d cs ih =>
        rw [List.splitOn_cons_eq_if_modifyHead]
        split
        · exact List.forall_mem_cons.2 ⟨List.not_mem_nil, ih⟩
        · rename_i hd
          cases hcs : cs.splitOn c with
          | nil => exact absurd hcs (List.splitOn_ne_nil _ _)
          | cons part parts =>
              rw [hcs] at ih
              obtain ⟨hpart, hparts⟩ := List.forall_mem_cons.1 ih
              refine List.forall_mem_cons.2 ⟨fun hmem => ?_, hparts⟩
              rcases List.mem_cons.1 hmem with rfl | hmem
              · exact hd (beq_self_eq_true c)
              · exact hpart hmem
  obtain ⟨part, hpart, rfl⟩ := List.mem_map.1 h
  rw [String.toList_ofList]
  exact hparts _ part hpart

end Text

namespace Path

theorem split_of_isAbsolute {path : String} (h : isAbsolute path = true) :
    ∃ parts, Text.split '/' path = "" :: parts := by
  rw [isAbsolute, beq_iff_eq] at h
  obtain ⟨cs, hcs⟩ := List.head?_eq_some_iff.1 h
  refine ⟨(cs.splitOn '/').map String.ofList, ?_⟩
  rw [Text.split, hcs, List.splitOn_cons_eq_if_modifyHead, separator, if_pos (by decide)]
  rfl

theorem isAbsolute_of_split {path : String} {parts : List String}
    (h : Text.split '/' path = "" :: parts) (hne : parts ≠ []) : isAbsolute path = true := by
  rw [isAbsolute, beq_iff_eq, List.head?_eq_some_iff]
  rw [Text.split] at h
  cases hcs : path.toList with
  | nil =>
      rw [hcs] at h
      cases h
      exact absurd rfl hne
  | cons c cs =>
      rw [hcs, List.splitOn_cons_eq_if_modifyHead] at h
      split at h
      · rename_i hc
        exact ⟨cs, by rw [beq_iff_eq.1 hc]; rfl⟩
      · cases hrest : cs.splitOn '/' with
        | nil => exact absurd hrest (List.splitOn_ne_nil _ _)
        | cons part rest => simp [hrest] at h

end Path

namespace FileSystem

open Outcome

variable {fs fs' fs'' : FileSystem} {place here : Location} {path text : String}

/-- Where one part of a path leads. -/
def step (here : Location) (part : String) : Location :=
  if part = "" ∨ part = "." then here
  else if part = ".." then above here
  else here ++ [part]

def start (path : String) : Location :=
  if Path.isAbsolute path then ["/"] else []

/-- Where a path leads, whatever is there. -/
def placeOf (path : String) : Location :=
  (Text.split '/' path).foldl step (start path)

theorem follow_cons {part : String} {parts : List String} :
    fs.follow here (part :: parts) = .ok place ↔
      fs.entry? here = some .directory ∧ fs.follow (step here part) parts = .ok place := by
  rw [follow]
  cases fs.entry? here with
  | none => simp
  | some entry =>
      cases entry with
      | file text => simp
      | directory =>
          simp only [true_and, step]
          split
          · rfl
          · split <;> rfl

theorem follow_eq {parts : List String} (h : fs.follow here parts = .ok place) :
    place = parts.foldl step here := by
  induction parts generalizing here with
  | nil =>
      cases h
      rfl
  | cons part parts ih => exact ih (follow_cons.1 h).2

theorem locate_eq (h : fs.locate path = .ok place) : place = placeOf path := by
  unfold locate at h
  split at h
  · cases h
  · rename_i parts hne hsplit
    have habsolute : Path.isAbsolute path = true := Path.isAbsolute_of_split hsplit hne
    rw [placeOf, start, if_pos habsolute, hsplit, List.foldl_cons, step, if_pos (.inl rfl)]
    exact follow_eq h
  · rename_i hempty hfirst
    have habsolute : ¬ Path.isAbsolute path = true := fun habsolute => by
      obtain ⟨parts, hparts⟩ := Path.split_of_isAbsolute habsolute
      exact hfirst parts hparts
    rw [placeOf, start, if_neg habsolute]
    exact follow_eq h

theorem stat_eq_ok {entry : Entry} :
    fs.stat path = .ok entry ↔ fs.locate path = .ok (placeOf path) ∧
      fs.entry? (placeOf path) = some entry := by
  rw [stat, bind_eq_ok]
  constructor
  · rintro ⟨place, hplace, h⟩
    obtain rfl := locate_eq hplace
    refine ⟨hplace, ?_⟩
    split at h
    · rename_i found hfound
      cases h
      exact hfound
    · cases h
  · rintro ⟨hplace, h⟩
    refine ⟨_, hplace, ?_⟩
    rw [h]
    rfl

theorem read_eq_ok : fs.read path = .ok text ↔ fs.stat path = .ok (.file text) := by
  unfold read
  cases fs.stat path with
  | error fault => simp
  | ok entry => cases entry <;> simp

/-- Directories and files of `fs` are still there in `fs'`, and the files have the same texts except
at the places that are touched. -/
structure Extends (touched : Location → Prop) (fs fs' : FileSystem) : Prop where
  directory : ∀ {place}, fs.entry? place = some .directory → fs'.entry? place = some .directory
  file : ∀ {place text}, fs.entry? place = some (.file text) →
    ∃ text', fs'.entry? place = some (.file text') ∧ (¬ touched place → text' = text)

namespace Extends

variable {touched touched' : Location → Prop}

theorem refl (touched : Location → Prop) (fs : FileSystem) : Extends touched fs fs :=
  ⟨fun h => h, fun h => ⟨_, h, fun _ => rfl⟩⟩

theorem trans (h : Extends touched fs fs') (h' : Extends touched fs' fs'') :
    Extends touched fs fs'' := by
  refine ⟨fun hd => h'.directory (h.directory hd), fun hf => ?_⟩
  obtain ⟨text', hf', hsame⟩ := h.file hf
  obtain ⟨text'', hf'', hsame'⟩ := h'.file hf'
  exact ⟨text'', hf'', fun hplace => (hsame' hplace).trans (hsame hplace)⟩

theorem mono (h : Extends touched fs fs') (hsub : ∀ place, touched place → touched' place) :
    Extends touched' fs fs' := by
  refine ⟨h.directory, fun hf => ?_⟩
  obtain ⟨text', hf', hsame⟩ := h.file hf
  exact ⟨text', hf', fun hplace => hsame fun ht => hplace (hsub _ ht)⟩

theorem follow (h : Extends touched fs fs') {parts : List String}
    (hfollow : fs.follow here parts = .ok place) : fs'.follow here parts = .ok place := by
  induction parts generalizing here with
  | nil => exact hfollow
  | cons part parts ih =>
      obtain ⟨hdirectory, hfollow⟩ := follow_cons.1 hfollow
      exact follow_cons.2 ⟨h.directory hdirectory, ih hfollow⟩

theorem locate (h : Extends touched fs fs') (hlocate : fs.locate path = .ok place) :
    fs'.locate path = .ok place := by
  unfold FileSystem.locate at hlocate ⊢
  split at hlocate
  · cases hlocate
  · exact h.follow hlocate
  · exact h.follow hlocate

theorem stat_directory (h : Extends touched fs fs') (hstat : fs.stat path = .ok .directory) :
    fs'.stat path = .ok .directory := by
  obtain ⟨hplace, hentry⟩ := stat_eq_ok.1 hstat
  exact stat_eq_ok.2 ⟨h.locate hplace, h.directory hentry⟩

theorem stat_file (h : Extends touched fs fs') (hstat : fs.stat path = .ok (.file text)) :
    ∃ text', fs'.stat path = .ok (.file text') ∧ (¬ touched (placeOf path) → text' = text) := by
  obtain ⟨hplace, hentry⟩ := stat_eq_ok.1 hstat
  obtain ⟨text', hentry', hsame⟩ := h.file hentry
  exact ⟨text', stat_eq_ok.2 ⟨h.locate hplace, hentry'⟩, hsame⟩

theorem read (h : Extends touched fs fs') (hread : fs.read path = .ok text)
    (huntouched : ¬ touched (placeOf path)) : fs'.read path = .ok text := by
  obtain ⟨text', hstat, hsame⟩ := h.stat_file (read_eq_ok.1 hread)
  rw [← hsame huntouched]
  exact read_eq_ok.2 hstat

theorem isMissing (h : Extends touched fs fs') {entry : Entry} (hstat : fs.stat path = .ok entry) :
    fs'.isMissing path = false := by
  cases entry with
  | directory => rw [FileSystem.isMissing, h.stat_directory hstat]
  | file text =>
      obtain ⟨text', hstat', -⟩ := h.stat_file hstat
      rw [FileSystem.isMissing, hstat']

end Extends

theorem entry?_eq_file :
    fs.entry? place = some (.file text) ↔ fs.files.lookup place = some text := by
  unfold entry?
  cases fs.files.lookup place with
  | none => by_cases h : fs.hasDirectory place = true <;> simp [h]
  | some text' => simp

theorem entry?_eq_directory : fs.entry? place = some .directory ↔
    fs.files.lookup place = none ∧ fs.hasDirectory place = true := by
  unfold entry?
  cases fs.files.lookup place with
  | none => simp
  | some text => simp

theorem lookup_put (fs : FileSystem) (place here : Location) (text : String) :
    (fs.put place text).files.lookup here =
      if here = place then some text else fs.files.lookup here := by
  rw [put]
  induction fs.files with
  | nil =>
      by_cases h : here = place <;> simp [h]
  | cons f files ih =>
      obtain ⟨other, old⟩ := f
      by_cases hother : other = place
      · subst hother
        by_cases h : here = other
        · simpa [h] using ih
        · simpa [List.lookup_cons, beq_false_of_ne h, h] using ih
      · by_cases h : here = other
        · subst h
          simp [hother]
        · simpa [List.lookup_cons, beq_false_of_ne h, hother] using ih

theorem hasDirectory_put (h : fs.hasDirectory here = true) (place : Location) (text : String) :
    (fs.put place text).hasDirectory here = true := by
  simp only [hasDirectory, put, Bool.or_eq_true, List.any_eq_true] at h ⊢
  refine h.imp_right ?_
  rintro ⟨f, hf, hinside⟩
  by_cases hplace : f.1 = place
  · exact ⟨(place, text), by simp, hplace ▸ hinside⟩
  · exact ⟨f, by simp [hf, hplace], hinside⟩

theorem extends_put (h : fs.entry? place ≠ some .directory) (text : String) :
    Extends (· = place) fs (fs.put place text) := by
  constructor
  · intro here hhere
    -- No directory is written over, so it is another place.
    have hne : here ≠ place := fun heq => h (heq ▸ hhere)
    obtain ⟨hlookup, hdirectory⟩ := entry?_eq_directory.1 hhere
    refine entry?_eq_directory.2 ⟨?_, hasDirectory_put hdirectory place text⟩
    rw [lookup_put, if_neg hne, hlookup]
  · intro here old hhere
    simp only [entry?_eq_file, lookup_put] at hhere ⊢
    by_cases heq : here = place
    · exact ⟨text, if_pos heq, fun hne => absurd heq hne⟩
    · exact ⟨old, by rw [if_neg heq, hhere], fun _ => rfl⟩

theorem makeDirectory_ok (h : fs.makeDirectory path = .ok fs') :
    fs'.files = fs.files ∧ ∀ touched, Extends touched fs fs' := by
  unfold makeDirectory at h
  split at h
  · cases h
  · rename_i place hplace
    split at h
    · cases h
      exact ⟨rfl, fun touched => .refl touched fs⟩
    · cases h
    · cases h
      refine ⟨rfl, fun touched => ⟨fun hd => ?_, fun hf => ⟨_, ?_, fun _ => rfl⟩⟩⟩
      · obtain ⟨hlookup, hdirectory⟩ := entry?_eq_directory.1 hd
        refine entry?_eq_directory.2 ⟨hlookup, ?_⟩
        simp only [hasDirectory, List.any_append, Bool.or_eq_true] at hdirectory ⊢
        tauto
      · rw [entry?_eq_file] at hf ⊢
        exact hf

theorem write_ok (h : fs.write path text = .ok fs') :
    fs' = fs.put (placeOf path) text ∧ Extends (· = placeOf path) fs fs' ∧
      fs'.read path = .ok text := by
  unfold write at h
  split at h
  · rename_i place htarget
    cases h
    obtain ⟨place', hplace, htarget⟩ := bind_eq_ok.1 htarget
    split at htarget
    · cases htarget
    rename_i hfree
    cases htarget
    rw [not_or, not_not] at hfree
    obtain ⟨hbare, hfree⟩ := hfree
    rw [hbare] at hplace
    obtain rfl := locate_eq hplace
    have hextends := extends_put hfree text
    refine ⟨rfl, hextends, read_eq_ok.2 (stat_eq_ok.2 ⟨hextends.locate hplace, ?_⟩)⟩
    rw [entry?_eq_file, lookup_put, if_pos rfl]
  · cases h

theorem namesLe_total (as bs : Location) : namesLe as bs = true ∨ namesLe bs as = true := by
  induction as generalizing bs with
  | nil => exact .inl rfl
  | cons a as ih =>
      cases bs with
      | nil => exact .inr rfl
      | cons b bs =>
          by_cases hab : a = b
          · subst hab
            simpa [namesLe] using ih bs
          · rw [namesLe, if_neg hab, namesLe, if_neg (Ne.symm hab)]
            exact Text.lexLe_total _ _

theorem namesLe_antisymm {as bs : Location} (h : namesLe as bs = true) (h' : namesLe bs as = true) :
    as = bs := by
  induction as generalizing bs with
  | nil =>
      cases bs with
      | nil => rfl
      | cons b bs => cases h'
  | cons a as ih =>
      cases bs with
      | nil => cases h
      | cons b bs =>
          by_cases hab : a = b
          · subst hab
            rw [namesLe, if_pos rfl] at h h'
            rw [ih h h']
          · rw [namesLe, if_neg hab] at h
            rw [namesLe, if_neg (Ne.symm hab)] at h'
            exact absurd (Text.codesLe_antisymm h h') hab

theorem namesLe_trans {as bs cs : Location} (h : namesLe as bs = true) (h' : namesLe bs cs = true) :
    namesLe as cs = true := by
  induction as generalizing bs cs with
  | nil => rfl
  | cons a as ih =>
      cases bs with
      | nil => cases h
      | cons b bs =>
          cases cs with
          | nil => cases h'
          | cons c cs =>
              rw [namesLe] at h h' ⊢
              by_cases hab : a = b
              · subst hab
                by_cases hac : a = c
                · rw [if_pos hac] at h' ⊢
                  rw [if_pos rfl] at h
                  exact ih h h'
                · rw [if_neg hac] at h' ⊢
                  exact h'
              · rw [if_neg hab] at h
                by_cases hbc : b = c
                · subst hbc
                  rw [if_neg hab]
                  exact h
                · rw [if_neg hbc] at h'
                  have hac : a ≠ c := fun hac => by
                    subst hac
                    exact hab (Text.codesLe_antisymm h h')
                  rw [if_neg hac]
                  exact Text.lexLe_trans h h'

/-- The order of files decides how they are listed, not the order in which they were written. -/
theorem filter_below_eq {P : Location → Bool}
    (h : ((fs.files.filter fun f => place.isPrefixOf f.1 && place != f.1).map
        fun f => f.1.drop place.length).filter P =
      ((fs'.files.filter fun f => place.isPrefixOf f.1 && place != f.1).map
        fun f => f.1.drop place.length).filter P) :
    (fs.below place).filter P = (fs'.below place).filter P := by
  have hsorted (names : List Location) :
      ((names.mergeSort namesLe).filter P).Pairwise fun a b => namesLe a b = true := by
    apply List.Pairwise.filter
    apply List.pairwise_mergeSort
    · intro as bs cs
      exact namesLe_trans
    · intro as bs
      exact Bool.or_eq_true_iff.2 (namesLe_total as bs)
  refine List.Perm.eq_of_pairwise (fun _ _ _ _ => namesLe_antisymm) (hsorted _) (hsorted _) ?_
  refine ((List.mergeSort_perm _ _).filter P).trans ?_
  rw [h]
  exact ((List.mergeSort_perm _ _).filter P).symm

/-- What is written at a place that is passed over does not show. -/
theorem filter_below_put {P : Location → Bool} {target : Location}
    (h : ∀ names, names ≠ [] → target = place ++ names → P names = false) (text : String) :
    ((fs.put target text).below place).filter P = (fs.below place).filter P := by
  have hshown (f : Location × String) (hinside : place.isPrefixOf f.1 = true ∧ place ≠ f.1)
      (hP : P (f.1.drop place.length) = true) : f.1 ≠ target := by
    intro htarget
    obtain ⟨names, hnames⟩ := List.isPrefixOf_iff_prefix.1 hinside.1
    have hne : names ≠ [] := by
      rintro rfl
      exact hinside.2 (by rw [← hnames, List.append_nil])
    rw [← hnames, List.drop_left, h names hne (htarget ▸ hnames.symm)] at hP
    cases hP
  -- Neither what is written nor what it replaces is listed.
  apply filter_below_eq
  rw [List.filter_map, List.filter_map, List.filter_filter, List.filter_filter, put,
    List.filter_append, List.filter_filter]
  have hnone : [(target, text)].filter (fun f => (P ∘ fun f => f.1.drop place.length) f &&
      (place.isPrefixOf f.1 && place != f.1)) = [] := by
    rw [List.filter_eq_nil_iff]
    intro f hf hshow
    rw [List.mem_singleton.1 hf] at hshow
    simp only [Function.comp_apply, Bool.and_eq_true, bne_iff_ne] at hshow
    exact hshown (target, text) hshow.2 hshow.1 rfl
  rw [hnone, List.append_nil]
  congr 1
  apply List.filter_congr
  intro f _
  rw [Bool.and_eq_left_iff_imp]
  intro hshow
  simp only [Function.comp_apply, Bool.and_eq_true, bne_iff_ne] at hshow
  exact bne_iff_ne.2 (hshown f hshow.2 hshow.1)

end FileSystem

end TenantQuery
