import Mathlib.Data.List.DropRight
import TenantQuery.Proofs.FileSystem

namespace TenantQuery.Path

open FileSystem (start placeOf above)

variable {part name : String} {parts acc : List String} {rooted : Bool}

/-- A part of a path that names something below. -/
structure IsName (part : String) : Prop where
  notEmpty : part ≠ ""
  notHere : part ≠ "."
  notAbove : part ≠ ".."

theorem IsName.step (h : IsName part) (here : Location) :
    FileSystem.step here part = here ++ [part] := by
  rw [FileSystem.step, if_neg (not_or.2 ⟨h.notEmpty, h.notHere⟩), if_neg h.notAbove]

theorem IsName.push (h : IsName part) (rooted : Bool) (acc : List String) :
    push rooted acc part = part :: acc := by
  rw [Path.push.eq_def, if_neg (not_or.2 ⟨h.notEmpty, h.notHere⟩), if_neg h.notAbove]

theorem step_up (here : Location) : FileSystem.step here ".." = above here := by
  rw [FileSystem.step, if_neg (by decide), if_pos rfl]

theorem push_up (rooted : Bool) (acc : List String) :
    push rooted acc ".." =
      match acc with
      | [] => if rooted then [] else [".."]
      | ".." :: _ => ".." :: acc
      | _ :: rest => rest := by
  rw [push.eq_def]
  exact (if_neg (by decide)).trans (if_pos rfl)

theorem part_cases (part : String) : (part = "" ∨ part = ".") ∨ part = ".." ∨ IsName part := by
  by_cases hstay : part = "" ∨ part = "."
  · exact .inl hstay
  · obtain ⟨hempty, hhere⟩ := not_or.1 hstay
    by_cases hup : part = ".."
    · exact .inr (.inl hup)
    · exact .inr (.inr ⟨hempty, hhere, hup⟩)

def placeAt (rooted : Bool) (acc : List String) : Location :=
  (if rooted then ["/"] else []) ++ acc.reverse

theorem above_placeAt (hslash : part ≠ "/") :
    above (placeAt rooted (part :: acc)) =
      if part = ".." then placeAt rooted (".." :: part :: acc) else placeAt rooted acc := by
  have hlast : (placeAt rooted (part :: acc)).getLast? = some part := by
    simp [placeAt, List.getLast?_append]
  by_cases hup : part = ".."
  · subst hup
    rw [if_pos rfl, above, hlast]
    simp [placeAt]
  · rw [if_neg hup, above, hlast]
    split
    · cases ‹some part = none›
    · exact absurd (Option.some.inj ‹_›) hup
    · exact absurd (Option.some.inj ‹_›) hslash
    · simp [placeAt]

/-- Resolving a part and following it come to the same. -/
theorem step_placeAt (hslash : "/" ∉ acc) (part : String) :
    FileSystem.step (placeAt rooted acc) part = placeAt rooted (push rooted acc part) := by
  rcases part_cases part with hstay | rfl | hname
  · rw [FileSystem.step, push.eq_def, if_pos hstay, if_pos hstay]
  · rw [step_up, push_up]
    cases acc with
    | nil => cases rooted <;> rfl
    | cons part acc =>
        rw [above_placeAt fun heq => hslash (by simp [heq])]
        by_cases hup : part = ".."
        · subst hup
          rfl
        · rw [if_neg hup]
          split
          · cases ‹part :: acc = []›
          · rename_i heq
            exact absurd (List.cons.inj heq).1 hup
          · rename_i heq
            rw [(List.cons.inj heq).2]
  · rw [hname.step, hname.push]
    simp [placeAt]

theorem mem_push {p : String} (h : p ∈ push rooted acc part) : p ∈ acc ∨ p = part := by
  rcases part_cases part with hstay | rfl | hname
  · rw [push.eq_def, if_pos hstay] at h
    exact .inl h
  · rw [push_up] at h
    split at h
    · split at h
      · cases h
      · exact .inr (List.mem_singleton.1 h)
    · exact (List.mem_cons.1 h).symm
    · exact .inl (List.mem_cons_of_mem _ h)
  · rw [hname.push] at h
    exact (List.mem_cons.1 h).symm

theorem foldl_step (hacc : "/" ∉ acc) (hparts : "/" ∉ parts) :
    parts.foldl FileSystem.step (placeAt rooted acc) =
      placeAt rooted (parts.foldl (push rooted) acc) := by
  induction parts generalizing acc with
  | nil => rfl
  | cons part parts ih =>
      obtain ⟨hpart, hparts⟩ := not_or.1 (mt List.mem_cons.2 hparts)
      rw [List.foldl_cons, List.foldl_cons, step_placeAt hacc]
      refine ih (fun hmem => ?_) hparts
      rcases mem_push hmem with hmem | heq
      · exact hacc hmem
      · exact hpart heq

/-- Parts, listed backwards, that cannot be resolved any further: only a path without a root leads
up, and only at its beginning. -/
inductive Settled (rooted : Bool) : List String → Prop
  | nil : Settled rooted []
  | up {acc : List String} (hrooted : rooted = false) (hacc : Settled rooted acc)
      (hups : ∀ p ∈ acc.head?, p = "..") : Settled rooted (".." :: acc)
  | name {p : String} {acc : List String} (hname : IsName p) (hacc : Settled rooted acc) :
      Settled rooted (p :: acc)

theorem Settled.push (h : Settled rooted acc) (part : String) :
    Settled rooted (push rooted acc part) := by
  rcases part_cases part with hstay | rfl | hname
  · rw [Path.push.eq_def, if_pos hstay]
    exact h
  · rw [push_up]
    cases h with
    | nil =>
        cases rooted
        · exact .up rfl .nil (by simp)
        · exact .nil
    | up hrooted hacc hups => exact .up hrooted (.up hrooted hacc hups) (by simp)
    | name hname hacc =>
        split
        · cases ‹_ :: _ = []›
        · rename_i heq
          exact absurd (List.cons.inj heq).1 hname.notAbove
        · rename_i heq
          rwa [← (List.cons.inj heq).2]
  · rw [hname.push]
    exact .name hname h

theorem settled_foldl (parts : List String) (h : Settled rooted acc) :
    Settled rooted (parts.foldl (push rooted) acc) := by
  induction parts generalizing acc with
  | nil => exact h
  | cons part parts ih => exact ih (h.push part)

theorem Settled.notEmpty (h : Settled rooted acc) : ∀ p ∈ acc, p ≠ "" := by
  induction h with
  | nil => simp
  | up hrooted hacc hups ih => exact List.forall_mem_cons.2 ⟨by decide, ih⟩
  | name hname hacc ih => exact List.forall_mem_cons.2 ⟨hname.notEmpty, ih⟩

theorem Settled.foldl_push (h : Settled rooted acc) :
    acc.reverse.foldl (Path.push rooted) [] = acc := by
  induction h with
  | nil => rfl
  | @up acc hrooted hacc hups ih =>
      -- There is no name before a step up that it could take away.
      rw [List.reverse_cons, List.foldl_append, ih, List.foldl_cons, List.foldl_nil, push_up]
      cases acc with
      | nil => simp [hrooted]
      | cons p acc =>
          obtain rfl : p = ".." := hups p (by simp)
          rfl
  | name hname hacc ih =>
      rw [List.reverse_cons, List.foldl_append, ih, List.foldl_cons, List.foldl_nil, hname.push]

theorem mem_foldl_push {p : String} (h : p ∈ parts.foldl (push rooted) acc) :
    p ∈ acc ∨ p ∈ parts := by
  induction parts generalizing acc with
  | nil => exact .inl h
  | cons part parts ih =>
      rcases ih h with hmem | hmem
      · rcases mem_push hmem with hmem | rfl
        · exact .inl hmem
        · exact .inr List.mem_cons_self
      · exact .inr (List.mem_cons_of_mem part hmem)

/-- The parts of the shortest path to the same place, listed backwards. -/
def resolved (path : String) : List String :=
  (Text.split '/' path).foldl (push (isAbsolute path)) []

theorem settled_resolved (path : String) : Settled (isAbsolute path) (resolved path) :=
  settled_foldl _ .nil

theorem notMem_of_mem_resolved {p path : String} (h : p ∈ resolved path) : '/' ∉ p.toList := by
  rcases mem_foldl_push h with hmem | hmem
  · exact absurd hmem List.not_mem_nil
  · exact Text.notMem_of_mem_split hmem

theorem split_resolved {path : String} (h : resolved path ≠ []) :
    Text.split '/' ("/".intercalate (resolved path).reverse) = (resolved path).reverse :=
  Text.split_intercalate (fun _ hp => notMem_of_mem_resolved (List.mem_reverse.1 hp))
    (mt List.reverse_eq_nil_iff.1 h)

theorem empty_notMem_resolved (path : String) : "" ∉ (resolved path).reverse := fun hmem =>
  (settled_resolved path).notEmpty "" (List.mem_reverse.1 hmem) rfl

theorem intercalate_resolved_eq_empty (path : String) :
    "/".intercalate (resolved path).reverse = "" ↔ resolved path = [] := by
  constructor
  · intro hempty
    by_contra hne
    have hsplit := split_resolved hne
    rw [hempty] at hsplit
    refine empty_notMem_resolved path ?_
    rw [← hsplit]
    exact List.mem_singleton.2 rfl
  · intro hnil
    rw [hnil]
    rfl

theorem clean_eq (path : String) :
    clean path =
      if isAbsolute path then "/" ++ "/".intercalate (resolved path).reverse
      else if resolved path = [] then "." else "/".intercalate (resolved path).reverse := by
  simp only [← intercalate_resolved_eq_empty]
  rfl

theorem isAbsolute_slash (s : String) : isAbsolute ("/" ++ s) = true := by
  simp [isAbsolute, separator]

/-- A shortest path is made of resolved parts after parts that lead nowhere. -/
theorem split_clean (path : String) :
    ∃ lead, (∀ p ∈ lead, p = "" ∨ p = ".") ∧
      Text.split '/' (clean path) = lead ++ (resolved path).reverse := by
  rw [clean_eq]
  by_cases hnil : resolved path = []
  · by_cases habsolute : isAbsolute path = true
    · rw [if_pos habsolute, hnil]
      exact ⟨["", ""], by simp, rfl⟩
    · rw [if_neg habsolute, if_pos hnil, hnil]
      exact ⟨["."], by simp, rfl⟩
  · by_cases habsolute : isAbsolute path = true
    · refine ⟨[""], by simp, ?_⟩
      have hsplit := Text.split_slash "" ("/".intercalate (resolved path).reverse)
      rw [String.empty_append, split_resolved hnil] at hsplit
      rw [if_pos habsolute, hsplit]
      rfl
    · refine ⟨[], by simp, ?_⟩
      rw [if_neg habsolute, if_neg hnil, split_resolved hnil, List.nil_append]

theorem isAbsolute_clean (path : String) : isAbsolute (clean path) = isAbsolute path := by
  rw [clean_eq]
  by_cases habsolute : isAbsolute path = true
  · rw [if_pos habsolute, isAbsolute_slash, habsolute]
  · rw [if_neg habsolute, Bool.eq_false_iff.2 habsolute]
    by_cases hnil : resolved path = []
    · rw [if_pos hnil]
      rfl
    · rw [if_neg hnil, Bool.eq_false_iff]
      intro hrooted
      obtain ⟨parts, hparts⟩ := split_of_isAbsolute hrooted
      rw [split_resolved hnil] at hparts
      exact empty_notMem_resolved path (hparts ▸ List.mem_cons_self)

theorem start_eq (path : String) : start path = placeAt (isAbsolute path) [] := by
  rw [start, placeAt, List.reverse_nil, List.append_nil]

theorem placeOf_eq_resolved (path : String) :
    placeOf path = placeAt (isAbsolute path) (resolved path) := by
  have hslash : "/" ∉ Text.split '/' path := fun hmem =>
    Text.notMem_of_mem_split hmem (by decide)
  rw [placeOf, start_eq]
  exact foldl_step List.not_mem_nil hslash

theorem placeOf_clean (path : String) : placeOf (clean path) = placeOf path := by
  obtain ⟨lead, hlead, hsplit⟩ := split_clean path
  have hstay (here : Location) : lead.foldl FileSystem.step here = here := by
    clear hsplit
    induction lead with
    | nil => rfl
    | cons p lead ih =>
        obtain ⟨hp, hlead⟩ := List.forall_mem_cons.1 hlead
        rw [List.foldl_cons, FileSystem.step, if_pos hp, ih hlead]
  have hslash : "/" ∉ (resolved path).reverse := fun hmem =>
    notMem_of_mem_resolved (List.mem_reverse.1 hmem) (by decide)
  -- Settled parts are resolved to themselves, so following them leads where they were resolved to.
  calc placeOf (clean path)
      = (resolved path).reverse.foldl FileSystem.step (placeAt (isAbsolute path) []) := by
        rw [placeOf, start_eq, isAbsolute_clean, hsplit, List.foldl_append, hstay]
    _ = placeAt (isAbsolute path) (resolved path) := by
        rw [foldl_step List.not_mem_nil hslash, (settled_resolved path).foldl_push]
    _ = placeOf path := (placeOf_eq_resolved path).symm

theorem clean_ne_empty (path : String) : clean path ≠ "" := by
  rw [clean_eq]
  by_cases habsolute : isAbsolute path = true
  · rw [if_pos habsolute]
    exact fun hempty => absurd (congrArg String.toList hempty) (by simp)
  · rw [if_neg habsolute]
    by_cases hnil : resolved path = []
    · rw [if_pos hnil]
      decide
    · rw [if_neg hnil]
      exact mt (intercalate_resolved_eq_empty path).1 hnil

/-- The text after the last slash. -/
def lastName (path : String) : String :=
  String.ofList (lastPart path.toList)

def parent (path : String) : String :=
  String.ofList (path.toList.take (path.toList.length - (lastPart path.toList).length))

theorem lastPart_eq (cs : List Char) : lastPart cs = cs.rtakeWhile (· != separator) := rfl

theorem parent_eq (path : String) :
    parent path = String.ofList (path.toList.rdropWhile (· != separator)) := by
  have htake (front back : List Char) :
      (front ++ back).take ((front ++ back).length - back.length) = front := by
    simp
  have hparts := htake (path.toList.rdropWhile (· != separator)) (lastPart path.toList)
  rw [lastPart_eq, List.rdropWhile_append_rtakeWhile] at hparts
  rw [parent, lastPart_eq, hparts]

theorem parent_append_lastName (path : String) : parent path ++ lastName path = path := by
  rw [parent_eq, lastName, lastPart_eq, ← String.ofList_append, List.rdropWhile_append_rtakeWhile,
    String.ofList_toList]

theorem slash_notMem_lastName (path : String) : '/' ∉ (lastName path).toList := by
  intro hmem
  rw [lastName, String.toList_ofList, lastPart_eq] at hmem
  exact absurd (List.mem_rtakeWhile_imp hmem) (by decide)

theorem parent_cases (path : String) : parent path = "" ∨ ∃ s, parent path = s ++ "/" := by
  rw [parent_eq]
  by_cases hnil : path.toList.rdropWhile (· != separator) = []
  · rw [hnil]
    exact .inl rfl
  · have hlast := List.rdropWhile_last_not _ _ hnil
    rw [Bool.not_eq_true, bne_eq_false_iff_eq] at hlast
    refine .inr ⟨String.ofList (path.toList.rdropWhile (· != separator)).dropLast, ?_⟩
    conv_lhs => rw [← List.dropLast_append_getLast hnil, hlast, String.ofList_append]
    rfl

theorem isAbsolute_append {s : String} (h : s ≠ "") (t : String) :
    isAbsolute (s ++ t) = isAbsolute s := by
  have hne : s.toList ≠ [] := fun hnil => h (String.toList_eq_nil_iff.1 hnil)
  rw [isAbsolute, isAbsolute, String.toList_append, List.head?_append_of_ne_nil _ hne]

theorem split_append_slash (s : String) : Text.split '/' (s ++ "/") = Text.split '/' s ++ [""] := by
  have hsplit := Text.split_slash s ""
  rw [String.append_empty] at hsplit
  exact hsplit

theorem placeOf_append_slash {s : String} (hs : s ≠ "") : placeOf (s ++ "/") = placeOf s := by
  rw [placeOf, split_append_slash, List.foldl_append, start, isAbsolute_append hs]
  rfl

/-- A name after a slash leads one step further. -/
theorem placeOf_slash (s : String) (hname : '/' ∉ name.toList) :
    placeOf (s ++ "/" ++ name) = FileSystem.step (placeOf (s ++ "/")) name := by
  have hne : s ++ "/" ≠ "" := fun hempty => absurd (congrArg String.toList hempty) (by simp)
  have hstart : start (s ++ "/" ++ name) = start (s ++ "/") := by
    rw [start, isAbsolute_append hne, start]
  rw [placeOf, placeOf, hstart, Text.split_slash, Text.split_of_notMem hname, split_append_slash,
    List.foldl_append, List.foldl_append]
  rfl

theorem placeOf_of_notMem (hname : '/' ∉ name.toList) :
    placeOf name = FileSystem.step [] name := by
  have hrelative : ¬ isAbsolute name = true := fun habsolute => by
    rw [isAbsolute, beq_iff_eq] at habsolute
    exact hname (List.mem_of_head? habsolute)
  rw [placeOf, Text.split_of_notMem hname, start, if_neg hrelative]
  rfl

theorem placeOf_eq_step (path : String) :
    placeOf path = FileSystem.step (placeOf (parent path)) (lastName path) := by
  have hname := slash_notMem_lastName path
  conv_lhs => rw [← parent_append_lastName path]
  rcases parent_cases path with hparent | ⟨s, hparent⟩
  · rw [hparent, String.empty_append, placeOf_of_notMem hname]
    rfl
  · rw [hparent, placeOf_slash s hname]

theorem getLast?_split (path : String) : (Text.split '/' path).getLast? = some (lastName path) := by
  conv_lhs => rw [← parent_append_lastName path]
  rcases parent_cases path with hparent | ⟨s, hparent⟩
  · rw [hparent, String.empty_append, Text.split_of_notMem (slash_notMem_lastName path)]
    rfl
  · rw [hparent, Text.split_slash, Text.split_of_notMem (slash_notMem_lastName path),
      List.getLast?_append]
    rfl

theorem lastName_clean {path : String} (h : IsName (lastName path)) :
    lastName (clean path) = lastName path := by
  obtain ⟨lead, -, hsplit⟩ := split_clean path
  obtain ⟨init, hinit⟩ := List.getLast?_eq_some_iff.1 (getLast?_split path)
  have hresolved : resolved path = lastName path :: init.foldl (push (isAbsolute path)) [] := by
    rw [resolved, hinit, List.foldl_append, List.foldl_cons, List.foldl_nil, h.push]
  have hlast := getLast?_split (clean path)
  rw [hsplit, hresolved, List.reverse_cons, ← List.append_assoc, List.getLast?_concat] at hlast
  exact (Option.some.inj hlast).symm

theorem lastName_append_slash (s : String) (hname : '/' ∉ name.toList) :
    lastName (s ++ "/" ++ name) = name := by
  have hlast := getLast?_split (s ++ "/" ++ name)
  rw [Text.split_slash, Text.split_of_notMem hname, List.getLast?_concat] at hlast
  exact (Option.some.inj hlast).symm

theorem extension_lastName (path : String) : extension (lastName path) = extension path := by
  have hlast : lastPart (lastPart path.toList) = lastPart path.toList :=
    List.rtakeWhile_idempotent _ _
  rw [extension, lastName, String.toList_ofList, hlast]
  rfl

theorem isName_of_extension {path : String} (h : extension path ≠ "")
    (hdot : extension path ≠ ".") : IsName (lastName path) := by
  rw [← extension_lastName] at h hdot
  constructor
  · intro heq
    rw [heq] at h
    exact h rfl
  · intro heq
    rw [heq] at hdot
    exact hdot rfl
  · intro heq
    rw [heq] at hdot
    exact hdot rfl

/-- A path that ends in a name leads to something of that name. -/
theorem placeOf_eq_append {path : String} (h : IsName (lastName path)) :
    placeOf path = placeOf (parent path) ++ [lastName path] := by
  rw [placeOf_eq_step, h.step]

theorem directory_eq (path : String) : directory path = clean (parent path) := rfl

theorem lastName_of_notMem (hname : '/' ∉ name.toList) : lastName name = name := by
  have hlast := getLast?_split name
  rw [Text.split_of_notMem hname] at hlast
  exact (Option.some.inj hlast).symm

theorem join_concat (hname : name ≠ "") (parts : List String) :
    join (parts ++ [name]) =
      clean (if parts.filter (· ≠ "") = [] then name
        else "/".intercalate (parts.filter (· ≠ "")) ++ "/" ++ name) := by
  have hfilter : (parts ++ [name]).filter (· ≠ "") = parts.filter (· ≠ "") ++ [name] := by
    simp [hname]
  have hnonempty : ¬ (parts.filter (· ≠ "") ++ [name]).isEmpty = true := by simp
  rw [join, hfilter, if_neg hnonempty]
  by_cases hnil : parts.filter (· ≠ "") = []
  · rw [if_pos hnil, hnil, List.nil_append, String.intercalate_singleton]
  · rw [if_neg hnil, String.intercalate_append_of_ne_nil hnil (by simp),
      String.intercalate_singleton]

theorem lastName_join (hname : IsName name) (hslash : '/' ∉ name.toList) (parts : List String) :
    lastName (join (parts ++ [name])) = name := by
  rw [join_concat hname.notEmpty]
  split
  · rw [lastName_clean] <;> rw [lastName_of_notMem hslash]
    exact hname
  · rw [lastName_clean] <;> rw [lastName_append_slash _ hslash]
    exact hname

/-- Two names below a directory lead there from the directory. -/
theorem placeOf_join {directory first second : String} (hdirectory : directory ≠ "")
    (hfirst : IsName first) (hsecond : IsName second) (hslash : '/' ∉ first.toList)
    (hslash' : '/' ∉ second.toList) :
    placeOf (join [directory, first, second]) = placeOf directory ++ [first, second] := by
  have hpath : directory ++ "/" ++ first ≠ "" := fun hempty =>
    absurd (congrArg String.toList hempty) (by simp)
  have hjoin := join_concat hsecond.notEmpty [directory, first]
  have hfilter : [directory, first].filter (· ≠ "") = [directory, first] := by
    simp [hdirectory, hfirst.notEmpty]
  have hbody : "/".intercalate [directory, first] = directory ++ "/" ++ first := by
    rw [String.intercalate_cons_cons, String.intercalate_singleton]
  rw [hfilter, if_neg (by simp), hbody, List.cons_append, List.singleton_append] at hjoin
  rw [hjoin, placeOf_clean, placeOf_slash _ hslash', placeOf_append_slash hpath,
    placeOf_slash _ hslash, placeOf_append_slash hdirectory, hfirst.step, hsecond.step,
    List.append_assoc]
  rfl

theorem base_eq_lastName {path : String} (h : lastName path ≠ "") : base path = lastName path := by
  have hpart : lastPart path.toList ≠ [] := fun hnil => h (by rw [lastName, hnil])
  have hpath : path ≠ "" := by
    rintro rfl
    exact hpart rfl
  have htrimmed : path.toList.rdropWhile (· == separator) = path.toList := by
    rw [List.rdropWhile_eq_self_iff]
    intro hne hslash
    refine hpart (List.rtakeWhile_eq_nil_iff.2 fun _ => ?_)
    rw [beq_iff_eq] at hslash
    simp [hslash]
  have hnonempty : ¬ path.toList.isEmpty = true := by
    simpa using hpath
  have hbase : base path = if path = "" then "." else
      if (path.toList.rdropWhile (· == separator)).isEmpty then "/"
      else String.ofList (lastPart (path.toList.rdropWhile (· == separator))) := rfl
  rw [hbase, if_neg hpath, htrimmed, if_neg hnonempty]
  rfl

theorem slash_notMem_stem {path : String} (h : lastName path ≠ "") : '/' ∉ (stem path).toList := by
  rw [stem, String.toList_ofList, base_eq_lastName h]
  exact fun hmem => slash_notMem_lastName path (List.mem_of_mem_take hmem)

end TenantQuery.Path
