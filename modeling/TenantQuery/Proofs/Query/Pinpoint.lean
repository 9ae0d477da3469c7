import TenantQuery.Proofs.Query.Sites

namespace TenantQuery

open Json Outcome

namespace Site

def discriminator (s : Site) : String :=
  s.raw.elim "" Json.discriminator

def inside (s : Site) : List Site :=
  s.raw.elim [] fun j => s.kind.sites j.discriminator j

def verdict (s : Site) : Except Error Unit :=
  match s.kind with
  | .filter => Outcome.verdict (Filter.read s.raw)
  | .aggregator => Outcome.verdict (Aggregator.read s.raw)
  | .postAggregator => Outcome.verdict (PostAggregator.read s.raw)

/-- Reading at the first place comes to the second: it goes into nodes of known types, past nodes that
can all be read. -/
inductive Leads : Site → Site → Prop
  | here (s : Site) : Leads s s
  | inside {s t u : Site} {before after : List Site} (known : s.kind.Knows s.discriminator)
      (place : s.inside = before ++ t :: after) (earlier : ∀ b ∈ before, b.verdict = .ok ())
      (further : Leads t u) : Leads s u

/-- An error that reports one node, which stands where reading had come to and fails on its own in
the same way. -/
def Pinpoints (s : Site) (e : Error) : Prop :=
  ∃ t, Leads s t ∧ e.reports = [(t.kind.name, t.discriminator)] ∧ t.verdict = .error e

end Site

theorem reports_blame {kind type : String} {e : Error} (h : e.reports = []) :
    (blame kind type e).reports = [(kind, type)] := by
  have : e.nodeFault?.isSome = false := by
    rw [← Bool.not_eq_true, Error.nodeFault?_isSome, h]
    exact fun h => h rfl
  simp [blame, this, Error.reports, h]

theorem blame_eq_self {kind type : String} {e : Error} (h : e.reports ≠ []) :
    blame kind type e = e :=
  if_pos (Error.nodeFault?_isSome.2 h)

/-- What reading the node at a place comes to in two ways that differ only in how the nodes inside are
read: its own part reports the node or makes its type a known one, and what is reported inside is
passed on. -/
def Site.Opens (s : Site) (sub sub' : Site → Except Error Unit) (x x' : Except Error Unit) : Prop :=
  ∃ own : Except Error Unit,
    (∀ e, own = .error e → e.reports = [(s.kind.name, s.discriminator)]) ∧
    (own = .ok () → s.kind.Knows s.discriminator) ∧
    x = (own >>= fun _ => (forM s.inside sub).mapError (blame s.kind.name s.discriminator)) ∧
    x' = (own >>= fun _ => (forM s.inside sub').mapError (blame s.kind.name s.discriminator))

theorem Site.Opens.error {s : Site} {sub sub' : Site → Except Error Unit} {e : Error}
    (h : e.reports = [(s.kind.name, s.discriminator)]) : s.Opens sub sub' (.error e) (.error e) := by
  refine ⟨.error e, ?_, nofun, rfl, rfl⟩
  rintro _ ⟨⟩
  exact h

theorem Stages.opens {α : Type} {s : Site} {sub sub' : Site → Except Error Unit}
    {x x' : Except Error α} (h : Stages s.inside sub sub' x x')
    (hknows : s.kind.Knows s.discriminator) :
    s.Opens sub sub' (Outcome.verdict (x.mapError (blame s.kind.name s.discriminator)))
      (Outcome.verdict (x'.mapError (blame s.kind.name s.discriminator))) := by
  obtain ⟨own, hquiet, hx, hx'⟩ := h
  rw [verdict_mapError, verdict_mapError, hx, hx']
  cases own with
  | error e => exact .error (reports_blame (hquiet e rfl))
  | ok u => exact ⟨.ok (), nofun, fun _ => hknows, rfl, rfl⟩

theorem lookup_forall₂ {α β γ : Type} [BEq γ] {R : γ × α → γ × β → Prop}
    (hR : ∀ a b, R a b → b.1 = a.1) {as : List (γ × α)} {bs : List (γ × β)}
    (h : List.Forall₂ R as bs) (k : γ) :
    (as.lookup k = none ∧ bs.lookup k = none) ∨
      ∃ a b, as.lookup k = some a.2 ∧ bs.lookup k = some b.2 ∧ (k == a.1) = true ∧ R a b := by
  induction h with
  | nil => exact .inl ⟨rfl, rfl⟩
  | @cons a b as bs hab _ ih =>
      rw [List.lookup_cons, List.lookup_cons, hR a b hab]
      cases hk : k == a.1 with
      | true => exact .inr ⟨a, b, rfl, rfl, hk, hab⟩
      | false => exact ih

theorem readNode_opens {α : Type} {s : Site} {sub sub' : Site → Except Error Unit}
    {forms forms' : Forms α}
    (h : ∀ j, List.Forall₂ (FormStages s.kind j sub sub') forms forms') :
    s.Opens sub sub' (Outcome.verdict (readNode s.kind.name forms s.raw))
      (Outcome.verdict (readNode s.kind.name forms' s.raw)) := by
  obtain ⟨kind, raw⟩ := s
  cases raw with
  | none => exact .error rfl
  | some j =>
      dsimp only [readNode]
      rcases readType_spec kind.name j with htype | ⟨e, htype, hreports⟩
      · rw [htype]
        dsimp only
        rcases lookup_forall₂ (fun _ _ h => h.1) (h j) j.discriminator with
          ⟨hnone, hnone'⟩ | ⟨f, f', hf, hf', hname, -, hknows, hstages⟩
        · rw [hnone, hnone']
          exact .error rfl
        · rw [hf, hf']
          rw [← eq_of_beq hname] at hknows hstages
          exact Stages.opens (s := ⟨kind, some j⟩) hstages hknows
      · rw [htype]
        exact .error hreports

theorem depth_lt_of_lastAt {j v : Json} {name : String} (h : j.lastAt name = some v) :
    v.depth < j.depth := by
  obtain ⟨m, hm, rfl⟩ := mem_of_spelled (List.mem_of_getLast? h)
  cases j with
  | object members =>
      have := membersDepth_le_iff.1 (Nat.le_refl (membersDepth members)) m hm
      rw [depth]
      omega
  | null | bool _ | number _ | string _ | array _ => nomatch hm

theorem depth_lt_of_mem_itemsAt {j v : Json} {name : String} (h : v ∈ j.itemsAt name) :
    v.depth < j.depth := by
  rw [itemsAt] at h
  cases hlast : j.lastAt name with
  | none => simp [hlast] at h
  | some w =>
      cases w with
      | array items =>
          have hv : v ∈ items := by simpa [hlast, items?] using h
          exact (depth_lt_of_mem_array hv).trans (depth_lt_of_lastAt hlast)
      | null | bool _ | number _ | string _ | object _ => simp [hlast, items?] at h

theorem depth_pos_of_discriminator {j : Json} (h : j.discriminator ≠ "") : 0 < j.depth := by
  cases j with
  | object members => exact Nat.succ_pos _
  | null | bool _ | number _ | string _ | array _ => exact absurd rfl h

theorem Part.depthOf_lt {part : Part} {j : Json} (hpos : 0 < j.depth) {t : Site}
    (ht : t ∈ part.sites j) : depthOf t.raw < j.depth := by
  cases part with
  | one kind name =>
      cases List.mem_singleton.1 ht
      cases hlast : j.lastAt name with
      | none => exact hpos
      | some v => exact depth_lt_of_lastAt hlast
  | each kind name =>
      obtain ⟨v, hv, rfl⟩ := List.mem_map.1 ht
      exact depth_lt_of_mem_itemsAt hv

namespace Site

theorem depthOf_lt_of_mem_inside {s t : Site} (ht : t ∈ s.inside) :
    depthOf t.raw < depthOf s.raw := by
  obtain ⟨kind, raw⟩ := s
  cases raw with
  | none => nomatch ht
  | some j =>
      have hnamed : j.discriminator ≠ "" := by
        intro hempty
        rw [inside, Option.elim_some, hempty] at ht
        cases kind <;> nomatch ht
      obtain ⟨part, -, ht⟩ := List.mem_flatMap.1 ht
      exact part.depthOf_lt (depth_pos_of_discriminator hnamed) ht

def within (fuel : Nat) (s : Site) : Except Error Unit :=
  match s.kind with
  | .filter => Outcome.verdict (Filter.readWithin fuel s.raw)
  | .aggregator => Outcome.verdict (Aggregator.readWithin fuel s.raw)
  | .postAggregator => Outcome.verdict (PostAggregator.readWithin fuel s.raw)

def withinPart (kind : NodeKind) (fuel : Nat) (t : Site) : Except Error Unit :=
  match kind, t.kind with
  | .aggregator, .filter => t.verdict
  | _, _ => t.within fuel

theorem within_opens (s : Site) (n m : Nat) :
    s.Opens (withinPart s.kind n) (withinPart s.kind m) (s.within (n + 1)) (s.within (m + 1)) := by
  obtain ⟨kind, raw⟩ := s
  cases kind with
  | filter => exact readNode_opens (Filter.forms_stages (fun _ => rfl) fun _ => rfl)
  | aggregator =>
      exact readNode_opens (Aggregator.forms_stages (fun _ => rfl) (fun _ => rfl) (fun _ => rfl)
        fun _ => rfl)
  | postAggregator => exact readNode_opens (PostAggregator.forms_stages (fun _ => rfl) fun _ => rfl)

theorem within_eq_within {n : Nat} : ∀ {m : Nat} {s : Site}, depthOf s.raw < n → depthOf s.raw < m →
    s.within n = s.within m := by
  induction n with
  | zero => exact fun hn => absurd hn (Nat.not_lt_zero _)
  | succ n ih =>
      intro m s hn hm
      obtain ⟨m, rfl⟩ := Nat.exists_eq_add_one_of_ne_zero (Nat.ne_zero_of_lt hm)
      obtain ⟨own, -, -, hwithin, hwithin'⟩ := s.within_opens n m
      rw [hwithin, hwithin', forM_congr fun t ht => ?_]
      have hdepth := depthOf_lt_of_mem_inside ht
      unfold withinPart
      split
      · rfl
      · exact ih (by omega) (by omega)

theorem verdict_eq_within (s : Site) : s.verdict = s.within (depthOf s.raw + 1) := by
  obtain ⟨kind, raw⟩ := s
  cases kind <;> rfl

theorem verdict_opens (s : Site) : s.Opens verdict verdict s.verdict s.verdict := by
  obtain ⟨own, hreports, hknows, hwithin, -⟩ := s.within_opens (depthOf s.raw) (depthOf s.raw)
  have hinside : forM s.inside (withinPart s.kind (depthOf s.raw)) = forM s.inside verdict := by
    refine forM_congr fun t ht => ?_
    have hdepth := depthOf_lt_of_mem_inside ht
    unfold withinPart
    split
    · rfl
    · rw [verdict_eq_within]
      exact within_eq_within hdepth (Nat.lt_succ_self _)
  rw [← verdict_eq_within, hinside] at hwithin
  exact ⟨own, hreports, hknows, hwithin, hwithin⟩

theorem pinpoints_of_verdict {s : Site} {e : Error} (h : s.verdict = .error e) : s.Pinpoints e := by
  -- By induction on the depth of the node: the first node inside that fails is less deep.
  induction hdepth : depthOf s.raw using Nat.strong_induction_on generalizing s e with
  | h depth ih =>
      obtain ⟨own, hreports, hknows, hs, -⟩ := s.verdict_opens
      cases own with
      | error e' =>
          cases h.symm.trans hs
          exact ⟨s, .here s, hreports e rfl, h⟩
      | ok u =>
          rw [h, ok_bind] at hs
          cases hinside : forM s.inside verdict with
          | ok u => rw [hinside] at hs; cases hs
          | error e' =>
              obtain ⟨before, t, after, hplace, hbefore, ht⟩ := forM_eq_error hinside
              have hmem : t ∈ s.inside := by rw [hplace]; simp
              obtain ⟨u, hleads, hu, hverdict⟩ :=
                ih _ (hdepth ▸ depthOf_lt_of_mem_inside hmem) ht rfl
              -- The node that is reported inside keeps this one from being reported as well.
              have hpassed : e = e' := by
                rw [hinside, mapError_error, blame_eq_self (by rw [hu]; simp)] at hs
                exact Except.error.inj hs
              subst hpassed
              exact ⟨u, .inside (hknows rfl) hplace hbefore hleads, hu, hverdict⟩

end Site

theorem parseNode_eq_read {α : Type} {kind : String} {read : Option Json → Except Error α}
    (hnone : read none = .error (.node kind "" .malformed)) (text : String) :
    parseNode kind read text = read (Json.parse text).toOption := by
  have hcause {cause : Error} (h : Json.parse text = .error cause) : cause = .malformed := by
    unfold Json.parse at h
    split at h
    · split_ifs at h
      cases h
      rfl
    · cases h
      rfl
  unfold parseNode
  cases hparse : Json.parse text with
  | ok j => rfl
  | error cause =>
      rw [hcause hparse]
      exact hnone.symm

/-- Whatever kind of node a text is read as, a failure reports one node and no other. That node stands
in ones of known types, and fails on its own in the same way, while each node that is read before it
can be read. -/
theorem parse_failure_pinpoints_node (text : String) :
    (∀ e, Filter.parse text = .error e → Site.Pinpoints ⟨.filter, (Json.parse text).toOption⟩ e) ∧
    (∀ e, Aggregator.parse text = .error e →
      Site.Pinpoints ⟨.aggregator, (Json.parse text).toOption⟩ e) ∧
    ∀ e, PostAggregator.parse text = .error e →
      Site.Pinpoints ⟨.postAggregator, (Json.parse text).toOption⟩ e := by
  refine ⟨fun e h => ?_, fun e h => ?_, fun e h => ?_⟩ <;>
    refine Site.pinpoints_of_verdict (verdict_eq_error.2 (Eq.trans ?_ h))
  · exact (parseNode_eq_read rfl text).symm
  · exact (parseNode_eq_read rfl text).symm
  · exact (parseNode_eq_read rfl text).symm

def norInside : Json :=
  .tagged "filtered"
    [("filter", .tagged "and" [("fields", .array [.tagged "true" [], .tagged "nor" []])]),
     ("aggregator", .null)]

theorem parse_failure_pinpoints_nor :
    (Filter.parse norInside.encode = .error (.node "filter" "filtered" .unknownType) ∧
      Site.Pinpoints ⟨.filter, some norInside⟩ (.node "filter" "filtered" .unknownType)) ∧
    (Aggregator.parse norInside.encode = .error (.node "filter" "nor" .unknownType) ∧
      Site.Pinpoints ⟨.aggregator, some norInside⟩ (.node "filter" "nor" .unknownType)) ∧
    PostAggregator.parse norInside.encode = .error (.node "postAggregator" "filtered" .unknownType) ∧
      Site.Pinpoints ⟨.postAggregator, some norInside⟩
        (.node "postAggregator" "filtered" .unknownType) := by
  have hparse : Json.parse norInside.encode = .ok norInside := by
    refine (Json.parse_encode_eq_ok ?_).2 ⟨rfl, by decide⟩
    simp [norInside, tagged, HasLiterals, Everywhere, EverywhereItems, EverywhereMembers]
  have hfilter : Filter.parse norInside.encode = .error (.node "filter" "filtered" .unknownType) := by
    rw [Filter.parse, parseNode, hparse]
    rfl
  have haggregator :
      Aggregator.parse norInside.encode = .error (.node "filter" "nor" .unknownType) := by
    rw [Aggregator.parse, parseNode, hparse]
    rfl
  have hpost : PostAggregator.parse norInside.encode =
      .error (.node "postAggregator" "filtered" .unknownType) := by
    rw [PostAggregator.parse, parseNode, hparse]
    rfl
  have hpinpoints := parse_failure_pinpoints_node norInside.encode
  rw [hparse] at hpinpoints
  exact ⟨⟨hfilter, hpinpoints.1 _ hfilter⟩, ⟨haggregator, hpinpoints.2.1 _ haggregator⟩, hpost,
    hpinpoints.2.2 _ hpost⟩

end TenantQuery
