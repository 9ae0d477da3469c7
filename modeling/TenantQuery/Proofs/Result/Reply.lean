import TenantQuery.Proofs.Result.Codec

namespace TenantQuery

open Json Outcome

namespace ResultRows

def settled : ResultRows → ResultRows
  | .timeseries rows => .timeseries (rows.map (·.map TimeseriesRow.settled))
  | .topN rows => .topN (rows.map (·.map TopNRow.settled))
  | .groupBy rows => .groupBy (rows.map (·.map GroupByRow.settled))
  | .scan rows => .scan (rows.map (·.map ScanRow.settled))
  | .timeBoundary rows => .timeBoundary (rows.map (·.map TimeBoundaryRow.settled))

/-- Nothing is lost of any row. -/
def Lossless : ResultRows → Prop
  | .timeseries rows => ∀ rs ∈ rows, ∀ r ∈ rs, r.Lossless
  | .topN rows => ∀ rs ∈ rows, ∀ r ∈ rs, r.Lossless
  | .groupBy rows => ∀ rs ∈ rows, ∀ r ∈ rs, r.Lossless
  | .scan rows => ∀ rs ∈ rows, ∀ r ∈ rs, r.Lossless
  | .timeBoundary rows => ∀ rs ∈ rows, ∀ r ∈ rs, r.Lossless

end ResultRows

namespace QueryResult

variable {ρ : Type}

def settled (r : QueryResult) : QueryResult :=
  ⟨(present r.restrictions).map (·.map Interval.settled), r.rows.settled⟩

theorem settled_eq_self {rows : ResultRows} :
    settled ⟨none, rows⟩ = ⟨none, rows⟩ ↔ rows.settled = rows := by
  simp [settled, present]

theorem normal_typeName (r : QueryResult) : Text.normal r.typeName = r.typeName := by
  unfold typeName
  split <;> exact Text.normal_eq_self (by decide)

theorem soundNode_wire (zero : ρ) (fields : List (Member ρ)) : SoundNode (wireFields zero fields) :=
  .of (show Sound.names ["type", "restrictions", "rows"] = true by decide)
    (by simp [wireFields, Member.independent_of])

theorem read_settled {zero : ρ} {fields : List (Member ρ)} {type : String}
    {rows : Option (List ρ) → ResultRows} {written : ρ → Json} {settle : ρ → ρ} {rs : List ρ}
    (htype : Text.normal type = type) (hform : forms.lookup type = some (form zero fields rows))
    (hcodes : ∀ r ∈ rs, Codes written (Slot.record fields zero []) r r (settle r))
    (hsettles : (tagged type [("rows", .array (rs.map written))]).Settles) :
    read (some (tagged type [("rows", .array (rs.map written))]).settled) =
      .ok ⟨none, rows (some (rs.map settle))⟩ := by
  have hrows : ∀ rs' ∈ some rs, ∀ r ∈ rs', Codes written (Slot.record fields zero []) r r (settle r) := by
    rintro rs' ⟨⟩
    exact hcodes
  have hwrites : Writes (wireFields zero fields) {} [("rows", listOrNull written (some rs))] _
      ⟨none, some (rs.map settle)⟩ := .skip (.listOrNull hrows rfl .nil)
  have hsound := soundNode_wire zero fields
  refine hwrites.readNode_tagged hsound hsettles htype hform ?_
  rw [form, hwrites.readRecord_tagged hsound hsettles]
  rfl

end QueryResult

namespace Reply

theorem rows_keep {ρ : Type} {name text : String} {zero : ρ} {fields : List (Member ρ)}
    {P : ρ → Prop} (hfields : Keep fields P) (hzero : P zero) {rs : List ρ}
    (h : rows name zero fields text = .ok rs) : ∀ r ∈ rs, P r := by
  unfold rows at h
  dsimp only at h
  split at h
  · cases h
  · rename_i v hread
    cases h
    obtain ⟨j, -, hj⟩ := bind_eq_ok.1 hread
    have hall := Slot.Ensures.list (.record hfields hzero) _ _ _ hj
    cases v with
    | none => exact List.forall_mem_nil _
    | some rs => exact hall rs rfl

end Reply

namespace QueryResult

variable {ρ : Type}

theorem encodeRows_eq_ok {encode : ρ → Except Error Json} {written : ρ → Json} {P : ρ → Prop}
    (h : ∀ r j, encode r = .ok j → P r ∧ j = written r) {rs : List ρ} {j : Json}
    (hj : encodeRows encode (some rs) = .ok j) : (∀ r ∈ rs, P r) ∧ j = .array (rs.map written) := by
  obtain ⟨v, hv, hj⟩ := bind_eq_ok.1 hj
  obtain ⟨hall, rfl⟩ := optionMapM_eq_ok (fun _ _ => mapM_eq_ok h) hv
  cases hj
  refine ⟨hall rs rfl, ?_⟩
  simp [listOrNull]

/-- Rows of one form: what is read fits, and what fits and can be written is read back but for what
is lost of it. -/
structure Survives (zero : ρ) (fields : List (Member ρ)) (encode : ρ → Except Error Json)
    (written : ρ → Json) (settle : ρ → ρ) (Fits Near Lossless : ρ → Prop) : Prop where
  fits_zero : Fits zero
  keep_fields : Keep fields Fits
  of_encode : ∀ r j, encode r = .ok j → Near r ∧ j = written r
  codes : ∀ r, Fits r → Near r → Codes written (Slot.record fields zero []) r r (settle r)
  settled_eq_self : ∀ r, Fits r → (settle r = r ↔ Lossless r)

theorem survives_timeseries : Survives {} TimeseriesRow.fields TimeseriesRow.encode
    TimeseriesRow.written TimeseriesRow.settled TimeseriesRow.Fits
    (fun r => ∀ t ∈ r.timestamp, t.Near) TimeseriesRow.Lossless :=
  ⟨⟨by simp, by simp⟩, TimeseriesRow.keep_fields, TimeseriesRow.written_of_encode,
    fun _ => TimeseriesRow.codes, fun _ => TimeseriesRow.settled_eq_self⟩

theorem survives_topN : Survives {} TopNRow.fields TopNRow.encode TopNRow.written TopNRow.settled
    TopNRow.Fits (fun r => r.timestamp.Near) TopNRow.Lossless :=
  ⟨⟨ZonedTime.readable_zero, by simp⟩, TopNRow.keep_fields, TopNRow.written_of_encode,
    fun _ => TopNRow.codes, fun _ => TopNRow.settled_eq_self⟩

theorem survives_groupBy : Survives {} GroupByRow.fields GroupByRow.encode GroupByRow.written
    GroupByRow.settled GroupByRow.Fits (fun r => r.timestamp.Near) GroupByRow.Lossless :=
  ⟨⟨ZonedTime.readable_zero, Item.fits_empty⟩, GroupByRow.keep_fields, GroupByRow.written_of_encode,
    fun _ => GroupByRow.codes, fun _ => GroupByRow.settled_eq_self⟩

theorem survives_scan : Survives {} ScanRow.fields ScanRow.encode ScanRow.written ScanRow.settled
    ScanRow.Fits (fun _ => True) ScanRow.Lossless :=
  ⟨by simp [ScanRow.Fits], ScanRow.keep_fields, fun r j h => ⟨trivial, r.written_of_encode j h⟩,
    fun _ h _ => ScanRow.codes h, fun _ => ScanRow.settled_eq_self⟩

theorem survives_timeBoundary : Survives {} TimeBoundaryRow.fields TimeBoundaryRow.encode
    TimeBoundaryRow.written TimeBoundaryRow.settled TimeBoundaryRow.Fits TimeBoundaryRow.Near
    TimeBoundaryRow.Lossless :=
  ⟨⟨ZonedTime.readable_zero, by simp⟩, TimeBoundaryRow.keep_fields,
    TimeBoundaryRow.written_of_encode, fun _ => TimeBoundaryRow.codes,
    fun _ => TimeBoundaryRow.settled_eq_self⟩

section Survival

variable {zero : ρ} {fields : List (Member ρ)} {encode : ρ → Except Error Json}
  {written : ρ → Json} {settle : ρ → ρ} {Fits Near Lossless : ρ → Prop}

theorem Survives.parse_canonical (h : Survives zero fields encode written settle Fits Near Lossless)
    {rows : Option (List ρ) → ResultRows} {type name text c : String} {rs : List ρ} {j : Json}
    (htype : Text.normal type = type) (hform : forms.lookup type = some (form zero fields rows))
    (hrs : Reply.rows name zero fields text = .ok rs)
    (hj : encodeRows encode (some rs) = .ok j)
    (hc : (tagged type [("rows", j)]).canonical = .ok c) :
    parse c = .ok ⟨none, rows (some (rs.map settle))⟩ := by
  have hfits := Reply.rows_keep h.keep_fields h.fits_zero hrs
  obtain ⟨hnear, rfl⟩ := encodeRows_eq_ok h.of_encode hj
  have hcodes (r : ρ) (hr : r ∈ rs) := h.codes r (hfits r hr) (hnear r hr)
  have hproper : (tagged type [("rows", .array (rs.map written))]).Proper := by
    have hrows : (array (rs.map written)).Proper :=
      everywhere_array.2 ⟨trivial, List.forall_mem_map.2 fun r hr => (hcodes r hr).alike.proper⟩
    refine everywhere_object.2 ⟨by simp [IsTidy], ?_⟩
    simp only [List.forall_mem_cons]
    exact ⟨trivial, hrows, List.forall_mem_nil _⟩
  have hsettles := (canonical_eq_ok.1 hc).2.1
  exact parseNode_eq_ok.2 ⟨_, Json.parse_canonical hproper hc, read_settled htype hform hcodes hsettles⟩

theorem Survives.map_eq_self (h : Survives zero fields encode written settle Fits Near Lossless)
    {name text : String} {rs : List ρ} (hrs : Reply.rows name zero fields text = .ok rs) :
    rs.map settle = rs ↔ ∀ r ∈ rs, Lossless r := by
  have hfits := Reply.rows_keep h.keep_fields h.fits_zero hrs
  rw [Json.map_eq_self]
  exact forall₂_congr fun r hr => h.settled_eq_self r (hfits r hr)

end Survival

end QueryResult

namespace Reply

variable {queryType text c : String} {r : QueryResult} {j : Json}

/-- A reply is a list of rows of one of five forms, and a virtual query is answered in groups. -/
theorem parse_cases (h : parse queryType text = .ok r) :
    (∃ rs, rows "timeseries" {} TimeseriesRow.fields text = .ok rs ∧
      r = ⟨none, .timeseries (some rs)⟩) ∨
    (∃ rs, rows "topN" {} TopNRow.fields text = .ok rs ∧ r = ⟨none, .topN (some rs)⟩) ∨
    (∃ rs, rows "groupBy" {} GroupByRow.fields text = .ok rs ∧ r = ⟨none, .groupBy (some rs)⟩) ∨
    (∃ rs, rows "scan" {} ScanRow.fields text = .ok rs ∧ r = ⟨none, .scan (some rs)⟩) ∨
    ∃ rs, rows "timeBoundary" {} TimeBoundaryRow.fields text = .ok rs ∧
      r = ⟨none, .timeBoundary (some rs)⟩ := by
  unfold parse at h
  split at h
  · cases h
  all_goals
    obtain ⟨rs, hrs, rfl⟩ := map_eq_ok.1 h
  · exact .inl ⟨rs, hrs, rfl⟩
  · exact .inr (.inl ⟨rs, hrs, rfl⟩)
  · exact .inr (.inr (.inr (.inl ⟨rs, hrs, rfl⟩)))
  · exact .inr (.inr (.inr (.inr ⟨rs, hrs, rfl⟩)))
  all_goals exact .inr (.inr (.inl ⟨rs, hrs, rfl⟩))

open QueryResult

theorem parse_settled (h : parse queryType text = .ok r) (hj : r.encode = .ok j)
    (hc : j.canonical = .ok c) : QueryResult.parse c = .ok r.settled := by
  obtain ⟨rows, hrows, hj⟩ := bind_eq_ok.1 hj
  cases hj
  rcases parse_cases h with ⟨rs, hrs, rfl⟩ | ⟨rs, hrs, rfl⟩ | ⟨rs, hrs, rfl⟩ | ⟨rs, hrs, rfl⟩ |
    ⟨rs, hrs, rfl⟩
  · exact survives_timeseries.parse_canonical (normal_typeName _) rfl hrs hrows hc
  · exact survives_topN.parse_canonical (normal_typeName _) rfl hrs hrows hc
  · exact survives_groupBy.parse_canonical (normal_typeName _) rfl hrs hrows hc
  · exact survives_scan.parse_canonical (normal_typeName _) rfl hrs hrows hc
  · exact survives_timeBoundary.parse_canonical (normal_typeName _) rfl hrs hrows hc

theorem settled_iff_lossless (h : parse queryType text = .ok r) :
    r.settled = r ↔ r.rows.Lossless := by
  rcases parse_cases h with ⟨rs, hrs, rfl⟩ | ⟨rs, hrs, rfl⟩ | ⟨rs, hrs, rfl⟩ | ⟨rs, hrs, rfl⟩ |
    ⟨rs, hrs, rfl⟩
  all_goals rw [settled_eq_self]
  · simpa [ResultRows.settled, ResultRows.Lossless] using survives_timeseries.map_eq_self hrs
  · simpa [ResultRows.settled, ResultRows.Lossless] using survives_topN.map_eq_self hrs
  · simpa [ResultRows.settled, ResultRows.Lossless] using survives_groupBy.map_eq_self hrs
  · simpa [ResultRows.settled, ResultRows.Lossless] using survives_scan.map_eq_self hrs
  · simpa [ResultRows.settled, ResultRows.Lossless] using survives_timeBoundary.map_eq_self hrs

/-- Replies survive their canonical form, row by row. What is read from it is the result itself if
and only if none of its columns is null, its texts are composed, no number is minus zero and no
list of signatures is empty. -/
theorem survives_canonical (h : parse queryType text = .ok r) (hj : r.encode = .ok j)
    (hc : j.canonical = .ok c) :
    QueryResult.parse c = .ok r.settled ∧ (r.settled = r ↔ r.rows.Lossless) :=
  ⟨parse_settled h hj hc, settled_iff_lossless h⟩

def groupJson (event : List (String × Json)) : Json :=
  .array [.object [("version", .string "v1"), ("timestamp", .string "2022-09-01T00:00:00Z"),
    ("event", .object event)]]

def group (event : Item) : QueryResult :=
  ⟨none, .groupBy (some [⟨"v1", ⟨⟨1661990400000000000⟩, 0⟩, event⟩])⟩

theorem parse_groupJson {event : List (String × Json)} {item : Item}
    (hspelled : (groupJson event).Spelled) (hdepth : (groupJson event).depth ≤ maxDepth)
    (hread : readWith (rowSlot {} GroupByRow.fields) (groupJson event) =
      .ok (some [⟨"v1", ⟨⟨1661990400000000000⟩, 0⟩, item⟩])) :
    parse "groupBy" (groupJson event).encode = .ok (group item) := by
  have hparse := (parse_encode_eq_ok hspelled).2 ⟨rfl, hdepth⟩
  have hrows : rows "groupBy" {} GroupByRow.fields (groupJson event).encode =
      .ok [⟨"v1", ⟨⟨1661990400000000000⟩, 0⟩, item⟩] := by
    simp only [rows, hparse, ok_bind, hread, Option.getD_some]
  have htype : QueryType.ofName? "groupBy" = some .groupBy := rfl
  simp only [parse, htype, hrows, map_ok, group]

theorem exists_canonical (hok : (r.encode >>= canonical).isOk = true) :
    ∃ j c, r.encode = .ok j ∧ j.canonical = .ok c := by
  obtain ⟨c, hc⟩ := exists_of_isOk hok
  obtain ⟨j, hj, hc⟩ := bind_eq_ok.1 hc
  exact ⟨j, c, hj, hc⟩

def city : Item :=
  { dimensions := [("city", "Bern")] }

def cityWithoutZip : Item :=
  { city with nullKeys := ["zip"] }

theorem collect_city : Item.collect [("city", .dimension "Bern")] = city := by
  rw [Item.collect_eq, show Item.nullsOf [("city", .dimension "Bern")] = [] from rfl,
    List.mergeSort_nil]
  rfl

theorem survives_canonical_city : ∃ j c,
    parse "groupBy" (groupJson [("city", .string "Bern")]).encode = .ok (group city) ∧
    (group city).encode = .ok j ∧ j.canonical = .ok c ∧
    QueryResult.parse c = .ok (group city) := by
  have hparse : parse "groupBy" (groupJson [("city", .string "Bern")]).encode =
      .ok (group city) := by
    refine parse_groupJson ?_ (by decide) (collect_city ▸ rfl)
    simp [groupJson, HasLiterals, Everywhere, EverywhereItems, EverywhereMembers]
  have hsettled : (group city).settled = group (Item.collect [("city", .dimension "Bern")]) := rfl
  obtain ⟨j, c, hj, hc⟩ := exists_canonical
    (show ((group city).encode >>= canonical).isOk = true by decide +kernel)
  have hback := (survives_canonical hparse hj hc).1
  rw [hsettled, collect_city] at hback
  exact ⟨j, c, hparse, hj, hc, hback⟩

theorem parse_zip : ∃ j c,
    parse "groupBy" (groupJson [("city", .string "Bern"), ("zip", .null)]).encode =
      .ok (group cityWithoutZip) ∧
    (group cityWithoutZip).encode = .ok j ∧ j.canonical = .ok c ∧
    QueryResult.parse c = .ok (group city) ∧ group city ≠ group cityWithoutZip := by
  have hcollect : Item.collect [("city", .dimension "Bern"), ("zip", .null)] = cityWithoutZip := by
    rw [Item.collect_eq, show Item.nullsOf [("city", .dimension "Bern"), ("zip", .null)] = ["zip"]
      from rfl, List.mergeSort_singleton]
    rfl
  have hparse : parse "groupBy" (groupJson [("city", .string "Bern"), ("zip", .null)]).encode =
      .ok (group cityWithoutZip) := by
    refine parse_groupJson ?_ (by decide) (hcollect ▸ rfl)
    simp [groupJson, HasLiterals, Everywhere, EverywhereItems, EverywhereMembers]
  have hsettled : (group cityWithoutZip).settled =
      group (Item.collect [("city", .dimension "Bern")]) := rfl
  obtain ⟨j, c, hj, hc⟩ := exists_canonical
    (show ((group cityWithoutZip).encode >>= canonical).isOk = true by decide +kernel)
  have hback := parse_settled hparse hj hc
  rw [hsettled, collect_city] at hback
  refine ⟨j, c, hparse, hj, hc, hback, ?_⟩
  simp [group, city, cityWithoutZip]

end Reply

end TenantQuery
