namespace TenantQuery.Outcome

variable {ε ε' α β : Type}

theorem bind_eq_ok {x : Except ε α} {f : α → Except ε β} {b : β} :
    (x >>= f) = .ok b ↔ ∃ a, x = .ok a ∧ f a = .ok b := by
  cases x with
  | error e => simp [bind, Except.bind]
  | ok a => simp [bind, Except.bind]

theorem map_eq_ok {x : Except ε α} {f : α → β} {b : β} :
    x.map f = .ok b ↔ ∃ a, x = .ok a ∧ f a = b := by
  cases x with
  | error e => simp [Except.map]
  | ok a => simp [Except.map]

theorem mapError_eq_ok {x : Except ε α} {f : ε → ε'} {a : α} :
    x.mapError f = .ok a ↔ x = .ok a := by
  cases x with
  | error e =>
      change (Except.error (f e) : Except ε' α) = .ok a ↔ _
      simp
  | ok b =>
      change (Except.ok b : Except ε' α) = .ok a ↔ _
      simp

theorem exists_of_isOk {x : Except ε α} (h : x.isOk = true) : ∃ a, x = .ok a := by
  cases x with
  | error e => cases h
  | ok a => exact ⟨a, rfl⟩

@[simp] theorem ok_bind (a : α) (f : α → Except ε β) : (Except.ok a >>= f) = f a := rfl

@[simp] theorem bind_ok (x : Except ε α) : (x >>= fun a => .ok a) = x := by
  cases x <;> rfl

@[simp] theorem error_bind (e : ε) (f : α → Except ε β) :
    ((Except.error e : Except ε α) >>= f) = .error e := rfl

@[simp] theorem map_ok (a : α) (f : α → β) : (Except.ok a : Except ε α).map f = .ok (f a) := rfl

@[simp] theorem map_error (e : ε) (f : α → β) :
    (Except.error e : Except ε α).map f = .error e := rfl

@[simp] theorem mapError_ok (a : α) (f : ε → ε') :
    (Except.ok a : Except ε α).mapError f = .ok a := rfl

@[simp] theorem mapError_error (e : ε) (f : ε → ε') :
    (Except.error e : Except ε α).mapError f = .error (f e) := rfl

@[simp] theorem pure_eq_ok (a : α) : (pure a : Except ε α) = .ok a := rfl

/-- What a list is mapped to comes from its members. -/
theorem exists_of_mem_mapM {f : α → Except ε β} {as : List α} {bs : List β}
    (h : as.mapM f = .ok bs) : ∀ b ∈ bs, ∃ a ∈ as, f a = .ok b := by
  induction as generalizing bs with
  | nil =>
      cases h
      simp
  | cons a as ih =>
      rw [List.mapM_cons] at h
      obtain ⟨b, hb, h⟩ := bind_eq_ok.1 h
      obtain ⟨bs, hbs, h⟩ := bind_eq_ok.1 h
      cases h
      refine List.forall_mem_cons.2 ⟨⟨a, List.mem_cons_self, hb⟩, fun b' hb' => ?_⟩
      obtain ⟨a', ha', heq⟩ := ih hbs b' hb'
      exact ⟨a', List.mem_cons_of_mem a ha', heq⟩

/-- A list is taken as a whole if each of its items is. -/
theorem mapM_eq_ok {f : α → Except ε β} {g : α → β} {P : α → Prop}
    (h : ∀ a b, f a = .ok b → P a ∧ b = g a) {as : List α} {bs : List β}
    (hmap : as.mapM f = .ok bs) : (∀ a ∈ as, P a) ∧ bs = as.map g := by
  induction as generalizing bs with
  | nil =>
      cases hmap
      simp
  | cons a as ih =>
      rw [List.mapM_cons] at hmap
      obtain ⟨b, hb, hmap⟩ := bind_eq_ok.1 hmap
      obtain ⟨bs, hbs, hmap⟩ := bind_eq_ok.1 hmap
      cases hmap
      obtain ⟨ha, rfl⟩ := h a b hb
      obtain ⟨has, rfl⟩ := ih hbs
      exact ⟨List.forall_mem_cons.2 ⟨ha, has⟩, rfl⟩

theorem optionMapM_eq_ok {f : α → Except ε β} {g : α → β} {P : α → Prop}
    (h : ∀ a b, f a = .ok b → P a ∧ b = g a) {v : Option α} {w : Option β}
    (hmap : v.mapM f = .ok w) : (∀ a ∈ v, P a) ∧ w = v.map g := by
  cases v with
  | none =>
      cases hmap
      simp
  | some a =>
      obtain ⟨b, hb, hmap⟩ := bind_eq_ok.1 hmap
      cases hmap
      obtain ⟨ha, rfl⟩ := h a b hb
      simpa using ha

/-- Two outcomes that fail alike or succeed alike. -/
inductive Matched (E : ε → ε' → Prop) (R : α → β → Prop) : Except ε α → Except ε' β → Prop
  | error {e : ε} {e' : ε'} (h : E e e') : Matched E R (.error e) (.error e')
  | ok {a : α} {b : β} (h : R a b) : Matched E R (.ok a) (.ok b)

namespace Matched

variable {E : ε → ε' → Prop} {R : α → β → Prop} {x : Except ε α} {y : Except ε' β}

theorem refl {R : α → α → Prop} {E : ε → ε → Prop} (hE : ∀ e, E e e) (hR : ∀ a, R a a)
    (x : Except ε α) : Matched E R x x := by
  cases x with
  | error e => exact .error (hE e)
  | ok a => exact .ok (hR a)

theorem bind {α' β' : Type} {S : α' → β' → Prop} {f : α → Except ε α'} {g : β → Except ε' β'}
    (h : Matched E R x y) (hfg : ∀ a b, R a b → Matched E S (f a) (g b)) :
    Matched E S (x >>= f) (y >>= g) := by
  cases h with
  | error he => exact .error he
  | ok hab => exact hfg _ _ hab

theorem mapError {δ δ' : Type} {D : δ → δ' → Prop} {f : ε → δ} {g : ε' → δ'} (h : Matched E R x y)
    (hfg : ∀ e e', E e e' → D (f e) (g e')) : Matched D R (x.mapError f) (y.mapError g) := by
  cases h with
  | error he => exact .error (hfg _ _ he)
  | ok hab => exact .ok hab

end Matched

end TenantQuery.Outcome
