import TenantQuery.Proofs.Filter.Verbatim
import TenantQuery.Proofs.PostAggregator.Verbatim
import TenantQuery.Proofs.Query.Fits

namespace TenantQuery

open Json Outcome

namespace Json

theorem trimChars_braces (cs : List Char) :
    Text.trimChars ('\x7b' :: (cs ++ ['\x7d'])) = '\x7b' :: (cs ++ ['\x7d']) := by
  have hopen : Text.isBlank '\x7b' = false := by decide
  have hclose : Text.isBlank '\x7d' = false := by decide
  simp [Text.trimChars, hopen, hclose]

/-- No white space stands around the text of an object. -/
theorem trim_encode_object {members : List (String × Json)} (hspelled : (object members).Spelled) :
    Text.trim (object members).encode = (object members).encode := by
  obtain ⟨body, hvalue, hwrite⟩ := hspelled.hasText legible_escapeSafe []
  rw [List.append_nil] at hwrite
  have hbody : Text.trimChars body = body := by
    cases hvalue with
    | emptyObject _ => exact trimChars_braces _
    | object _ => exact trimChars_braces _
  rw [encode, Text.trim, String.toList_ofList, hwrite, hbody]

end Json

/-- The text of an object is no bare string. -/
theorem bareText?_encode {type : String} {ms : List (String × Json)}
    (hspelled : (tagged type ms).Spelled) : bareText? (tagged type ms).encode = none := by
  have htrim : Text.trim (tagged type ms).encode = (tagged type ms).encode :=
    trim_encode_object hspelled
  unfold bareText?
  rw [htrim]
  cases hparse : Json.parse (tagged type ms).encode with
  | error cause => rfl
  | ok j =>
      obtain ⟨rfl, -⟩ := (parse_encode_eq_ok hspelled).1 hparse
      rfl

/-- Of any node that is read from a text: its own text is read if and only if it nests no deeper than
texts may. What is read from it is what it retains of the node, and is written as the same text
again. -/
def ReadsBack {α : Type} (parse : String → Except Error α) (encode : α → Json)
    (retained : α → α) : Prop :=
  ∀ text a, parse text = .ok a →
    encode (retained a) = encode a ∧
      ∀ b, parse (encode a).encode = .ok b ↔ b = retained a ∧ (encode a).depth ≤ maxDepth

theorem ReadsBack.of {α : Type} {parse : String → Except Error α} {encode : α → Json}
    {retained : α → α} (kind : String) (read : Option Json → Except Error α)
    (hread : ∀ text a, parse text = .ok a →
      (encode a).Spelled ∧ encode (retained a) = encode a ∧
        read (some (encode a)) = .ok (retained a) ∧
        parse (encode a).encode = parseNode kind read (encode a).encode) :
    ReadsBack parse encode retained := by
  intro text a ha
  obtain ⟨hspelled, hagain, hread, hparse⟩ := hread text a ha
  refine ⟨hagain, fun b => ?_⟩
  simp only [hparse, parseNode_eq_ok, parse_encode_eq_ok hspelled]
  constructor
  · rintro ⟨j, ⟨rfl, hdepth⟩, hb⟩
    rw [hread] at hb
    exact ⟨(Except.ok.inj hb).symm, hdepth⟩
  · rintro ⟨rfl, hdepth⟩
    exact ⟨_, ⟨rfl, hdepth⟩, hread⟩

theorem Filter.readsBack : ReadsBack parse encode retained := by
  refine .of "filter" read fun text f hf => ?_
  obtain ⟨j, -, hj⟩ := parseNode_eq_ok.1 hf
  have hdated := dated_of_read _ _ hj
  refine ⟨(f.rereads hdated).alike.proper.spelled, ?_, ?_, rfl⟩
  · exact (f.restores hdated).again
  · exact (f.restores hdated).read_some

theorem Aggregator.readsBack : ReadsBack parse encode retained := by
  refine .of "aggregator" read fun text a ha => ?_
  obtain ⟨j, -, hj⟩ := parseNode_eq_ok.1 ha
  obtain ⟨hfits, hdated⟩ := fits_of_readWithin _ _ _ hj
  have hrestores := a.restores hfits hdated
  exact ⟨(a.rereads hfits hdated).alike.proper.spelled, hrestores.again, hrestores.read_some, rfl⟩

theorem PostAggregator.readsBack : ReadsBack parse encode retained := by
  refine .of "postAggregator" read fun text p hp => ?_
  obtain ⟨j, -, hj⟩ := parseNode_eq_ok.1 hp
  have hfits : p.Fits := fits_of_readWithin _ _ _ hj
  have hrestores := p.restores hfits
  exact ⟨(p.rereads hfits).alike.proper.spelled, hrestores.again, hrestores.read_some, rfl⟩

theorem Lookup.readsBack : ReadsBack parse encode id := by
  refine .of "lookup" read fun text l hl => ?_
  obtain ⟨j, -, hj⟩ := parseNode_eq_ok.1 hl
  have hsorted := sorted_of_read hj
  exact ⟨(rereads hsorted.fits).alike.proper.spelled, rfl, (restores hsorted).read_some, rfl⟩

theorem Extraction.readsBack : ReadsBack parse encode id := by
  refine .of "extractionFn" read fun text e he => ?_
  obtain ⟨j, -, hj⟩ := parseNode_eq_ok.1 he
  have hsorted := sorted_of_read hj
  exact ⟨(rereads hsorted.fits).alike.proper.spelled, rfl, (restores hsorted).read_some, rfl⟩

theorem Dimension.readsBack : ReadsBack parse encode id := by
  refine .of "dimension" read fun text d hd => ?_
  have hsorted : d.Sorted := by
    unfold parse at hd
    split at hd
    · exact sorted_of_read _ _ hd
    · obtain ⟨j, -, hj⟩ := parseNode_eq_ok.1 hd
      exact sorted_of_read _ _ hj
  have hspelled : d.encode.Spelled := (rereads hsorted.fits).alike.proper.spelled
  have hbare : bareText? d.encode.encode = none := by
    cases d with
    | plain d => exact bareText?_encode hspelled
    | extracted d function => exact bareText?_encode hspelled
  exact ⟨hspelled, rfl, (restores hsorted).read_some, by rw [parse, hbare]⟩

theorem Metric.readsBack : ReadsBack parse encode id := by
  refine .of "metric" read fun text m _ => ?_
  have hspelled : m.encode.Spelled := m.rereads.alike.proper.spelled
  have hbare : bareText? m.encode.encode = none := by
    cases m with
    | numeric metric => exact bareText?_encode hspelled
    | dimension ordering stop => exact bareText?_encode hspelled
    | inverted metric => exact bareText?_encode hspelled
  exact ⟨hspelled, rfl, m.restores.read_some, by rw [parse, hbare]⟩

/-- Nodes of every kind are read back from their texts. Filters and what holds them retain their
windows up to the millisecond, and an empty list of split points is absent from then on. -/
theorem nodes_readBack :
    ReadsBack Filter.parse Filter.encode Filter.retained ∧
    ReadsBack Aggregator.parse Aggregator.encode Aggregator.retained ∧
    ReadsBack PostAggregator.parse PostAggregator.encode PostAggregator.retained ∧
    ReadsBack Extraction.parse Extraction.encode id ∧
    ReadsBack Lookup.parse Lookup.encode id ∧
    ReadsBack Dimension.parse Dimension.encode id ∧
    ReadsBack Metric.parse Metric.encode id :=
  ⟨Filter.readsBack, Aggregator.readsBack, PostAggregator.readsBack, Extraction.readsBack,
    Lookup.readsBack, Dimension.readsBack, Metric.readsBack⟩

/-- A window of one millisecond. -/
def firstMoment : Filter :=
  .not (.test (.during ⟨"__time", some [⟨⟨0⟩, ⟨1000000⟩⟩]⟩))

theorem dated_firstMoment : ∀ i ∈ firstMoment.windows, i.Dated := by
  rintro i (_ | ⟨_, ⟨⟩⟩)
  exact ⟨by decide, by decide⟩

theorem nodes_readBack_firstMoment :
    Filter.parse firstMoment.encode.encode = .ok firstMoment ∧
      firstMoment.retained.encode = firstMoment.encode ∧
      Filter.parse firstMoment.encode.encode = .ok firstMoment.retained := by
  have hspelled := (firstMoment.rereads dated_firstMoment).alike.proper.spelled
  have hread : Filter.parse firstMoment.encode.encode = .ok firstMoment := by
    refine parseNode_eq_ok.2 ⟨_, (parse_encode_eq_ok hspelled).2 ⟨rfl, by decide⟩, ?_⟩
    exact (firstMoment.restores dated_firstMoment).read_some
  obtain ⟨hagain, hback⟩ := nodes_readBack.1 _ firstMoment hread
  exact ⟨hread, hagain, (hback firstMoment.retained).2 ⟨rfl, by decide⟩⟩

def buried : Nat → Filter
  | 0 => .test (.search {})
  | n + 1 => .not (buried n)

def buriedText : Nat → Json
  | 0 => tagged "search" []
  | n + 1 => tagged "not" [("field", buriedText n)]

theorem windows_buried (n : Nat) : (buried n).windows = [] := by
  induction n with
  | zero => rfl
  | succ n ih => rw [buried, Filter.windows, ih]

theorem depth_buriedText (n : Nat) : (buriedText n).depth = n + 1 := by
  induction n with
  | zero => rfl
  | succ n ih => simp [buriedText, tagged, depth, membersDepth, ih]

theorem depth_buried (n : Nat) : (buried n).encode.depth = n + 2 := by
  induction n with
  | zero => rfl
  | succ n ih => simp [buried, Filter.encode, tagged, depth, membersDepth, ih]

theorem spelled_buriedText (n : Nat) : (buriedText n).Spelled := by
  induction n with
  | zero => simp [buriedText, tagged, everywhere_object, HasLiterals, Everywhere]
  | succ n ih => simp [buriedText, tagged, everywhere_object, HasLiterals, Everywhere, ih]

theorem readWithin_buried (n : Nat) {fuel : Nat} (hfuel : n < fuel) :
    Filter.readWithin fuel (some (buriedText n)) = .ok (buried n) := by
  induction n generalizing fuel with
  | zero =>
      obtain ⟨fuel, rfl⟩ := Nat.exists_eq_add_one.2 hfuel
      have hfills : Fills Search.fields {} [] {} := .skip (.skip .nil)
      refine hfills.readNode_tagged Predicate.soundNode_search rfl ?_
      simp only [hfills.readRecord_tagged Predicate.soundNode_search, map_ok]
      rfl
  | succ n ih =>
      obtain ⟨fuel, rfl⟩ := Nat.exists_eq_add_one.2 (Nat.zero_lt_of_lt hfuel)
      have hfills : Fills Filter.operandFields none [("field", buriedText n)]
          (some (buriedText n)) := .raw .nil
      refine hfills.readNode_tagged Filter.soundNode_operand rfl ?_
      rw [hfills.readRecord_tagged Filter.soundNode_operand, ok_bind, ih (by omega)]
      rfl

theorem parse_buriedText {n : Nat} (hn : n + 1 ≤ maxDepth) :
    Filter.parse (buriedText n).encode = .ok (buried n) := by
  refine parseNode_eq_ok.2 ⟨buriedText n, ?_, readWithin_buried n ?_⟩
  · exact (parse_encode_eq_ok (spelled_buriedText n)).2 ⟨rfl, by rwa [depth_buriedText]⟩
  · rw [depthOf, depth_buriedText]
    omega

theorem parse_buried_9999 :
    Filter.parse (buriedText 9999).encode = .ok (buried 9999) ∧
      ∀ f, Filter.parse (buried 9999).encode.encode ≠ .ok f := by
  have hread : Filter.parse (buriedText 9999).encode = .ok (buried 9999) :=
    parse_buriedText (by decide)
  refine ⟨hread, fun f hf => ?_⟩
  have hdepth := (((Filter.readsBack _ _ hread).2 f).1 hf).2
  rw [depth_buried] at hdepth
  exact absurd hdepth (by decide)

end TenantQuery
