import Mathlib.Data.Set.Card
import TenantQuery.Expansion.Options
import TenantQuery.Proofs.Filter.Meaning

namespace TenantQuery

/-- The users in a sketch, of the events that reach it. An aggregator of another kind has none. -/
def Aggregator.users (reaches : Event → Prop) : Aggregator → Option (Set String)
  | .thetaSketch a => some {u | ∃ e, reaches e ∧ e.value a.fieldName = some u}
  | .filtered filter inner _ => inner.users fun e => reaches e ∧ filter.Matches e
  | _ => none

def Query.Admits (q : Query) (events : List Event) (e : Event) : Prop :=
  e ∈ events ∧ Filter.MatchesOptional e q.filter

def Query.usersOf (q : Query) (events : List Event) (name : String) : Option (Set String) :=
  ((q.aggregations.getD []).find? fun a => a.outputName = name).bind
    (Aggregator.users (q.Admits events))

def SetOperation.combine : SetOperation → Set String → Set String → Set String
  | .union, a, b => a ∪ b
  | .intersect, a, b => a ∩ b
  | .not, a, b => a \ b

namespace PostAggregator

mutual

def users (sketch : String → Option (Set String)) : PostAggregator → Option (Set String)
  | .fieldAccess _ fieldName => sketch fieldName
  | .sketchSetOp _ operation _ (some operands) =>
    match usersOfAll sketch operands with
    | some (first :: rest) => some (rest.foldl operation.combine first)
    | _ => none
  | _ => none

def usersOfAll (sketch : String → Option (Set String)) :
    List PostAggregator → Option (List (Set String))
  | [] => some []
  | p :: ps => do
    let first ← users sketch p
    let rest ← usersOfAll sketch ps
    return first :: rest

end

noncomputable def estimate (sketch : String → Option (Set String)) : PostAggregator → Option Nat
  | .sketchEstimate _ operand => (operand.users sketch).map Set.ncard
  | _ => none

theorem users_access (sketch : String → Option (Set String)) (name : String) :
    (access name).users sketch = sketch name := by
  simp only [access, users]

theorem usersOfAll_access {sketch : String → Option (Set String)} {ι : Type} {name : ι → String}
    {sets : ι → Set String} {is : List ι} (h : ∀ i ∈ is, sketch (name i) = some (sets i)) :
    usersOfAll sketch ((is.map name).map access) = some (is.map sets) := by
  induction is with
  | nil => rfl
  | cons i is ih =>
      have hfirst := h i (by simp)
      have hrest := ih fun j hj => h j (by simp [hj])
      simp only [List.map_cons, usersOfAll, users_access, hfirst, hrest]
      rfl

end PostAggregator

theorem mem_foldl_intersect (u : String) (sets : List (Set String)) (first : Set String) :
    u ∈ sets.foldl SetOperation.intersect.combine first ↔ u ∈ first ∧ ∀ s ∈ sets, u ∈ s := by
  induction sets generalizing first with
  | nil => simp
  | cons s sets ih =>
      rw [List.foldl_cons, ih]
      simp only [SetOperation.combine, Set.mem_inter_iff, List.forall_mem_cons, and_assoc]

theorem Expansion.users_intersection {sketch : String → Option (Set String)} {ι : Type}
    {name : ι → String} {sets : ι → Set String} {is : List ι} (hne : is ≠ [])
    (h : ∀ i ∈ is, sketch (name i) = some (sets i)) :
    (intersection (is.map name)).users sketch = some {u | ∀ i ∈ is, u ∈ sets i} := by
  have hall := PostAggregator.usersOfAll_access h
  cases is with
  | nil => exact absurd rfl hne
  | cons i is =>
      simp only [List.map_cons] at hall
      simp only [intersection, PostAggregator.users, List.map_cons, hall, Option.some.injEq]
      ext u
      rw [mem_foldl_intersect]
      simp

theorem Expansion.estimate_intersection {sketch : String → Option (Set String)} {a b : String}
    {A B : Set String} (ha : sketch a = some A) (hb : sketch b = some B) (name : String) :
    (PostAggregator.sketchEstimate name (intersection [a, b])).estimate sketch =
      some (A ∩ B).ncard := by
  have hsketch : ∀ c ∈ [(a, A), (b, B)], sketch c.1 = some c.2 := by
    simp only [List.forall_mem_cons]
    exact ⟨ha, hb, List.forall_mem_nil _⟩
  have husers : (intersection [a, b]).users sketch = _ := users_intersection (by simp) hsketch
  have hboth : {u | ∀ c ∈ [(a, A), (b, B)], u ∈ c.2} = A ∩ B := by
    ext u
    simp
  rw [PostAggregator.estimate, husers, hboth, Option.map_some]

theorem Query.usersOf_of_mem {q : Query} {aggregators : List Aggregator}
    (haggs : q.aggregations = some aggregators)
    (hnodup : (aggregators.map Aggregator.outputName).Nodup) {a : Aggregator} (ha : a ∈ aggregators)
    (events : List Event) : q.usersOf events a.outputName = a.users (q.Admits events) := by
  have hfind : aggregators.find? (fun b => b.outputName = a.outputName) = some a := by
    clear haggs
    induction aggregators with
    | nil => cases ha
    | cons b bs ih =>
        rw [List.map_cons, List.nodup_cons] at hnodup
        rcases List.mem_cons.1 ha with rfl | ha
        · rw [List.find?_cons_of_pos (by simp)]
        · have hne : b.outputName ≠ a.outputName := fun h =>
            hnodup.1 (h ▸ List.mem_map_of_mem ha)
          rw [List.find?_cons_of_neg (by simpa using hne), ih hnodup.2 ha]
  rw [usersOf, haggs, Option.getD_some, hfind, Option.bind_some]

namespace Expansion

open TenantQuery.Filter

theorem Options.users_filteredSketch (options : Options) (filter : Filter) (name : String)
    (reaches : Event → Prop) :
    (options.filteredSketch filter name).users reaches =
      (options.userSketch name).users fun e => reaches e ∧ filter.Matches e := rfl

def Options.userDimension (options : Options) : String :=
  if options.userField = "" then defaultUserField else options.userField

/-- A user with an event that matches both the filter of a query and a step of it. -/
def Takes (options : Options) (q : Query) (events : List Event) (step : Filter) (u : String) : Prop :=
  ∃ e ∈ events, e.value options.userDimension = some u ∧ MatchesOptional e q.filter ∧ step.Matches e

/-- The users in the sketch of a step are those that take it, if the rows that an expanded query
lets through are those of the query as far as the step goes. -/
theorem users_filteredSketch_of_row {options : Options} {q out : Query} {events : List Event}
    (step : Filter) (name : String)
    (hrow : ∀ e, step.Matches e → (MatchesOptional e out.filter ↔ MatchesOptional e q.filter)) :
    (options.filteredSketch step name).users (out.Admits events) =
      some {u | Takes options q events step u} := by
  rw [Options.users_filteredSketch]
  simp only [Options.userSketch, Aggregator.users, Option.some.injEq]
  ext u
  constructor
  · rintro ⟨e, ⟨⟨he, hout⟩, hmatch⟩, huser⟩
    exact ⟨e, he, huser, (hrow e hmatch).1 hout, hmatch⟩
  · rintro ⟨e, he, huser, hown, hmatch⟩
    exact ⟨e, ⟨⟨he, (hrow e hmatch).2 hown⟩, hmatch⟩, huser⟩

def typedEvent (user type : String) : Event where
  value dimension :=
    if dimension = defaultUserField then some user
    else if dimension = "type" then some type
    else none
  passes _ := false

theorem takes_typedEvent {q : Query} (hfilter : q.filter = none) (now : Instant)
    (visits : List (String × String)) (type u : String) :
    Takes ⟨"", now⟩ q (visits.map fun c => typedEvent c.1 c.2) (.selector "type" type) u ↔
      (u, type) ∈ visits := by
  simp only [Takes, hfilter, MatchesOptional, true_and, List.mem_map, exists_exists_and_eq_and,
    matches_selector, typedEvent, Options.userDimension]
  constructor
  · rintro ⟨⟨user, kind⟩, hmem, huser, hkind⟩
    simp_all [defaultUserField]
  · intro hmem
    exact ⟨(u, type), hmem, by simp [defaultUserField]⟩

end Expansion

end TenantQuery
