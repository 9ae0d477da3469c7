import TenantQuery.Proofs.Calendar.Zoned
import TenantQuery.Proofs.Calendar.Interval
import TenantQuery.Proofs.Result.Item
import TenantQuery.Result.Basic

namespace TenantQuery

open Json Outcome

theorem Json.map_eq_self {α : Type} {f : α → α} {as : List α} :
    as.map f = as ↔ ∀ a ∈ as, f a = a := by
  conv_lhs => rhs; rw [← List.map_id as]
  exact List.map_inj_left

theorem Json.optionMap_eq_self {α : Type} {f : α → α} {v : Option α} :
    v.map f = v ↔ ∀ a ∈ v, f a = a := by
  cases v <;> simp

/-- An empty list is not kept. -/
theorem Json.present_eq_self {α : Type} {f : α → α} {v : Option (List α)} :
    (present v).map (·.map f) = v ↔ ∀ as ∈ v, as ≠ [] ∧ ∀ a ∈ as, f a = a := by
  match v with
  | none | some [] => simp [present]
  | some (a :: as) => simp [present, map_eq_self]

namespace TimeseriesRow

/-- Columns in order with numbers that a document can hold, at a time that can be read. -/
structure Fits (r : TimeseriesRow) : Prop where
  timestamp : ∀ t ∈ r.timestamp, t.Readable
  result : ∀ cs ∈ r.result, Ordered cs ∧ ∀ c ∈ cs, ∀ x ∈ c.2, x.isFinite = true

theorem sound_fields : Sound fields :=
  .of (by decide) (by simp [fields, Member.independent_of])

theorem keep_fields : Keep fields Fits :=
  .of (.optional fun _ _ _ => ZonedTime.readable_of_read) (fun _ _ h h' => ⟨h', h.result⟩)
    (.of (.map (.optional .double)) (fun _ _ h h' => ⟨h.timestamp, h'⟩) .nil)

/-- A column without value is null. -/
def columnJson (x : Option Double) : Json :=
  (x.map ofDouble).getD .null

theorem proper_columnJson (x : Option Double) : (columnJson x).Proper := by
  cases x with
  | none => trivial
  | some x => exact Layout.isLiteral_decimal _ _

/-- The row as it is written where its time can be. -/
def written (r : TimeseriesRow) : Json :=
  .object (ifSome "timestamp" ZonedTime.written r.timestamp ++
    [("result", keyedOrNull columnJson r.result)])

theorem written_of_encode (r : TimeseriesRow) (j : Json) (h : r.encode = .ok j) :
    (∀ t ∈ r.timestamp, t.Near) ∧ j = r.written := by
  obtain ⟨timestamp, htimestamp, h⟩ := bind_eq_ok.1 h
  obtain ⟨hnear, rfl⟩ := optionMapM_eq_ok (fun _ _ => ZonedTime.encode_eq_ok.1) htimestamp
  cases h
  refine ⟨hnear, ?_⟩
  cases r with
  | mk timestamp result => cases timestamp <;> cases result <;> rfl

/-- What the written form keeps of a row. -/
def settled (r : TimeseriesRow) : TimeseriesRow :=
  { r with result := r.result.map (settledKeyed columnJson (Option.map Double.settled)) }

theorem codes {r : TimeseriesRow} (h : r.Fits) (hnear : ∀ t ∈ r.timestamp, t.Near) :
    Codes written (Slot.record fields {} []) r r r.settled := by
  refine Writes.codes_self sound_fields rfl
    (.ifSame (fun t ht => ZonedTime.codes (h.timestamp t ht) (hnear t ht)) rfl
      (.keyedOrNull (fun cs hcs => (h.result cs hcs).1.nodup) proper_columnJson
        (fun cs hcs c hc hnull hsettles => ?_) rfl .nil))
  obtain ⟨name, x⟩ := c
  cases x with
  | none => cases hnull
  | some x =>
      have hcodes := codes_double ((h.result cs hcs).2 _ hc x rfl)
      have hnull : (ofDouble x).settled.isNull = false := by rw [isNull_settled]; rfl
      simp only [columnJson, Option.map_some, Option.getD_some, Slot.optional_nil hnull,
        hcodes.reads hsettles, map_ok]

/-- No column is null, and names and numbers are written as they are. -/
def Lossless (r : TimeseriesRow) : Prop :=
  ∀ cs ∈ r.result, ∀ c ∈ cs, c.2 ≠ none ∧ Text.normal c.1 = c.1 ∧ c.2.map Double.settled = c.2

theorem settled_eq_self {r : TimeseriesRow} (h : r.Fits) : r.settled = r ↔ r.Lossless := by
  have hagain (x : Option Double) : (x.map Double.settled).map Double.settled =
      x.map Double.settled := by
    cases x <;> simp [Double.settled_settled]
  have hnull (x : Option Double) : (columnJson x).isNull = false ↔ x ≠ none := by
    cases x <;> simp [columnJson, ofDouble, isNull]
  have hsame (x : Option Double) : (columnJson (x.map Double.settled)).isNull =
      (columnJson x).isNull := by
    cases x <;> simp [columnJson, ofDouble, isNull]
  have hsettled : r.settled = r ↔
      r.result.map (settledKeyed columnJson (Option.map Double.settled)) = r.result := by
    cases r
    simp [settled]
  rw [hsettled, optionMap_eq_self, Lossless]
  refine forall₂_congr fun cs hcs => ?_
  rw [settledKeyed_eq_self (h.result cs hcs).1 hagain hsame]
  simp only [hnull]

end TimeseriesRow

namespace TopNRow

structure Fits (r : TopNRow) : Prop where
  timestamp : r.timestamp.Readable
  result : ∀ is ∈ r.result, ∀ i ∈ is, i.Fits

theorem sound_fields : Sound fields :=
  .of (by decide) (by simp [fields, Member.independent_of])

theorem keep_fields : Keep fields Fits :=
  .of ZonedTime.slot_ensures (fun _ _ h h' => ⟨h', h.result⟩)
    (.of (.list fun _ _ _ => Item.fits_of_read) (fun _ _ h h' => ⟨h.timestamp, h'⟩) .nil)

def written (r : TopNRow) : Json :=
  .object [("timestamp", r.timestamp.written), ("result", listOrNull Item.encode r.result)]

theorem written_of_encode (r : TopNRow) (j : Json) (h : r.encode = .ok j) :
    r.timestamp.Near ∧ j = r.written := by
  obtain ⟨timestamp, htimestamp, h⟩ := bind_eq_ok.1 h
  obtain ⟨hnear, rfl⟩ := ZonedTime.encode_eq_ok.1 htimestamp
  cases h
  exact ⟨hnear, rfl⟩

def settled (r : TopNRow) : TopNRow :=
  { r with result := r.result.map (·.map Item.settled) }

theorem codes {r : TopNRow} (h : r.Fits) (hnear : r.timestamp.Near) :
    Codes written (Slot.record fields {} []) r r r.settled :=
  Writes.codes_self sound_fields rfl (.of (ZonedTime.codes_slot h.timestamp hnear)
    (.listOrNull (fun is his i hi => Item.codes (h.result is his i hi)) rfl .nil))

def Lossless (r : TopNRow) : Prop :=
  ∀ is ∈ r.result, ∀ i ∈ is, i.Lossless

theorem settled_eq_self {r : TopNRow} (h : r.Fits) : r.settled = r ↔ r.Lossless := by
  have hsettled : r.settled = r ↔ r.result.map (·.map Item.settled) = r.result := by
    cases r
    simp [settled]
  rw [hsettled, optionMap_eq_self, Lossless]
  refine forall₂_congr fun is his => ?_
  rw [map_eq_self]
  exact forall₂_congr fun i hi => Item.settled_eq_self (h.result is his i hi)

end TopNRow

namespace GroupByRow

structure Fits (r : GroupByRow) : Prop where
  timestamp : r.timestamp.Readable
  event : r.event.Fits

theorem sound_fields : Sound fields :=
  .of (by decide) (by simp [fields, Member.independent_of])

theorem keep_fields : Keep fields Fits :=
  .other (fun _ _ h => ⟨h.timestamp, h.event⟩)
    (.of ZonedTime.slot_ensures (fun _ _ h h' => ⟨h', h.event⟩)
    (.of (fun _ _ _ => Item.fits_of_read) (fun _ _ h h' => ⟨h.timestamp, h'⟩) .nil))

def written (r : GroupByRow) : Json :=
  .object [("version", .string r.version), ("timestamp", r.timestamp.written),
    ("event", r.event.encode)]

theorem written_of_encode (r : GroupByRow) (j : Json) (h : r.encode = .ok j) :
    r.timestamp.Near ∧ j = r.written := by
  obtain ⟨timestamp, htimestamp, h⟩ := bind_eq_ok.1 h
  obtain ⟨hnear, rfl⟩ := ZonedTime.encode_eq_ok.1 htimestamp
  cases h
  exact ⟨hnear, rfl⟩

def settled (r : GroupByRow) : GroupByRow :=
  { r with version := Text.normal r.version, event := r.event.settled }

theorem codes {r : GroupByRow} (h : r.Fits) (hnear : r.timestamp.Near) :
    Codes written (Slot.record fields {} []) r r r.settled :=
  Writes.codes_self sound_fields rfl (.of (codes_text _)
    (.of (ZonedTime.codes_slot h.timestamp hnear) (.of (Item.codes h.event) .nil)))

structure Lossless (r : GroupByRow) : Prop where
  version : Text.normal r.version = r.version
  event : r.event.Lossless

theorem settled_eq_self {r : GroupByRow} (h : r.Fits) : r.settled = r ↔ r.Lossless := by
  have hsettled : r.settled = r ↔
      Text.normal r.version = r.version ∧ r.event.settled = r.event := by
    cases r
    simp [settled]
  rw [hsettled, Item.settled_eq_self h.event]
  exact ⟨fun ⟨hversion, hevent⟩ => ⟨hversion, hevent⟩, fun ⟨hversion, hevent⟩ => ⟨hversion, hevent⟩⟩

end GroupByRow

namespace ColumnSignature

theorem sound_fields : Sound fields :=
  .of (by decide) (by simp [fields, Member.independent_of])

def settled (c : ColumnSignature) : ColumnSignature :=
  ⟨Text.normal c.name, c.type.map Text.normal⟩

theorem codes (c : ColumnSignature) :
    Codes encode (Slot.record fields {} []) c c c.settled :=
  Writes.codes_self sound_fields rfl (.of (codes_text _)
    (.last (.ifSome (fun s _ => codes_text s) rfl .nil)))

end ColumnSignature

namespace ScanRow

def Fits (r : ScanRow) : Prop :=
  ∀ is ∈ r.events, ∀ i ∈ is, i.Fits

theorem sound_fields : Sound fields :=
  .of (by decide) (by simp [fields, Member.independent_of])

theorem keep_fields : Keep fields Fits :=
  .other (fun _ _ h => h) (.other (fun _ _ h => h)
    (.of (.list fun _ _ _ => Item.fits_of_read) (fun _ _ _ h => h)
    (.other (fun _ _ h => h) .nil)))

def written (r : ScanRow) : Json :=
  .object (ifSome "segmentId" .string r.segmentId ++ ("columns", listOrNull .string r.columns) ::
    ("events", listOrNull Item.encode r.events) ::
    ifAny "rowSignature" ColumnSignature.encode r.signature)

theorem written_of_encode (r : ScanRow) (j : Json) (h : r.encode = .ok j) : j = r.written := by
  cases h
  simp [written]

def settled (r : ScanRow) : ScanRow :=
  ⟨r.segmentId.map Text.normal, r.columns.map (·.map Text.normal),
    r.events.map (·.map Item.settled), (present r.signature).map (·.map ColumnSignature.settled)⟩

theorem codes {r : ScanRow} (h : r.Fits) :
    Codes written (Slot.record fields {} []) r r r.settled :=
  Writes.codes_self sound_fields rfl (.ifSome (fun s _ => codes_text s) rfl
    (.listOrNull (fun _ _ s _ => codes_text s) rfl
    (.listOrNull (fun is his i hi => Item.codes (h is his i hi)) rfl
    (.last (.ifAny (fun _ _ c _ => c.codes) rfl .nil)))))

structure Lossless (r : ScanRow) : Prop where
  segmentId : r.segmentId.map Text.normal = r.segmentId
  columns : ∀ cs ∈ r.columns, ∀ c ∈ cs, Text.normal c = c
  events : ∀ is ∈ r.events, ∀ i ∈ is, i.Lossless
  signature : ∀ cs ∈ r.signature, cs ≠ [] ∧ ∀ c ∈ cs, c.settled = c

theorem settled_eq_self {r : ScanRow} (h : r.Fits) : r.settled = r ↔ r.Lossless := by
  have hsettled : r.settled = r ↔ r.segmentId.map Text.normal = r.segmentId ∧
      r.columns.map (·.map Text.normal) = r.columns ∧
      r.events.map (·.map Item.settled) = r.events ∧
      (present r.signature).map (·.map ColumnSignature.settled) = r.signature := by
    cases r
    simp [settled]
  have hcolumns : r.columns.map (·.map Text.normal) = r.columns ↔
      ∀ cs ∈ r.columns, ∀ c ∈ cs, Text.normal c = c := by
    rw [optionMap_eq_self]
    exact forall₂_congr fun cs _ => map_eq_self
  have hevents : r.events.map (·.map Item.settled) = r.events ↔
      ∀ is ∈ r.events, ∀ i ∈ is, i.Lossless := by
    rw [optionMap_eq_self]
    refine forall₂_congr fun is his => ?_
    rw [map_eq_self]
    exact forall₂_congr fun i hi => Item.settled_eq_self (h is his i hi)
  rw [hsettled, hcolumns, hevents, present_eq_self]
  exact ⟨fun ⟨h₁, h₂, h₃, h₄⟩ => ⟨h₁, h₂, h₃, h₄⟩, fun ⟨h₁, h₂, h₃, h₄⟩ => ⟨h₁, h₂, h₃, h₄⟩⟩

end ScanRow

namespace TimeBoundaryRow

structure Fits (r : TimeBoundaryRow) : Prop where
  timestamp : r.timestamp.Readable
  result : ∀ ts ∈ r.result, Ordered ts ∧ ∀ t ∈ ts, t.2.Readable

theorem sound_fields : Sound fields :=
  .of (by decide) (by simp [fields, Member.independent_of])

theorem keep_fields : Keep fields Fits :=
  .of ZonedTime.slot_ensures (fun _ _ h h' => ⟨h', h.result⟩)
    (.of (.map ZonedTime.slot_ensures) (fun _ _ h h' => ⟨h.timestamp, h'⟩) .nil)

def written (r : TimeBoundaryRow) : Json :=
  .object [("timestamp", r.timestamp.written), ("result", keyedOrNull ZonedTime.written r.result)]

/-- All times lie in zones less than a day away. -/
structure Near (r : TimeBoundaryRow) : Prop where
  timestamp : r.timestamp.Near
  result : ∀ ts ∈ r.result, ∀ t ∈ ts, t.2.Near

theorem written_of_encode (r : TimeBoundaryRow) (j : Json) (h : r.encode = .ok j) :
    r.Near ∧ j = r.written := by
  obtain ⟨result, hresult, h⟩ := bind_eq_ok.1 h
  obtain ⟨timestamp, htimestamp, h⟩ := bind_eq_ok.1 h
  obtain ⟨hnear, rfl⟩ := ZonedTime.encode_eq_ok.1 htimestamp
  cases h
  have hentry (e : String × ZonedTime) (m : String × Json)
      (he : (do return (e.1, ← e.2.encode)) = Except.ok (ε := Error) m) :
      e.2.Near ∧ m = (e.1, e.2.written) := by
    obtain ⟨t, ht, he⟩ := bind_eq_ok.1 he
    obtain ⟨hnear, rfl⟩ := ZonedTime.encode_eq_ok.1 ht
    cases he
    exact ⟨hnear, rfl⟩
  obtain ⟨hnears, rfl⟩ := optionMapM_eq_ok (fun _ _ => mapM_eq_ok hentry) hresult
  refine ⟨⟨hnear, hnears⟩, ?_⟩
  cases r with
  | mk timestamp result => cases result <;> rfl

def settled (r : TimeBoundaryRow) : TimeBoundaryRow :=
  { r with result := r.result.map (settledKeyed ZonedTime.written id) }

theorem codes {r : TimeBoundaryRow} (h : r.Fits) (hnear : r.Near) :
    Codes written (Slot.record fields {} []) r r r.settled := by
  refine Writes.codes_self sound_fields rfl (.of (ZonedTime.codes_slot h.timestamp hnear.timestamp)
    (.keyedOrNull (fun ts hts => (h.result ts hts).1.nodup) (fun _ => trivial)
      (fun ts hts t ht _ hsettles => ?_) rfl .nil))
  exact (ZonedTime.codes_slot ((h.result ts hts).2 t ht) (hnear.result ts hts t ht)).reads hsettles

/-- Names are composed. -/
def Lossless (r : TimeBoundaryRow) : Prop :=
  ∀ ts ∈ r.result, ∀ t ∈ ts, Text.normal t.1 = t.1

theorem settled_eq_self {r : TimeBoundaryRow} (h : r.Fits) : r.settled = r ↔ r.Lossless := by
  have hsettled : r.settled = r ↔
      r.result.map (settledKeyed ZonedTime.written id) = r.result := by
    cases r
    simp [settled]
  rw [hsettled, optionMap_eq_self, Lossless]
  refine forall₂_congr fun ts hts => ?_
  have hkeyed : settledKeyed ZonedTime.written id ts = ts ↔ _ :=
    settledKeyed_eq_self (h.result ts hts).1 (fun _ => rfl) fun _ => rfl
  rw [hkeyed]
  simp [ZonedTime.written, isNull]

end TimeBoundaryRow

end TenantQuery
