import Mathlib.Data.List.Forall2

/-!
# Steps that may fail

A step gives a value or a problem. Two steps in a row give a value if both do, and the problem of
the first that fails; a step taken for each item of a list stops at the first failure.
-/

namespace AbiTypings.Outcome

variable {ε ε' α β : Type}

theorem bind_eq_ok_iff {x : Except ε α} {f : α → Except ε β} {b : β} :
    x >>= f = .ok b ↔ ∃ a, x = .ok a ∧ f a = .ok b := by
  cases x <;> simp [bind, Except.bind]

theorem bind_eq_error_iff {x : Except ε α} {f : α → Except ε β} {e : ε} :
    x >>= f = .error e ↔ x = .error e ∨ ∃ a, x = .ok a ∧ f a = .error e := by
  cases x <;> simp [bind, Except.bind]

theorem map_eq_ok_iff {f : α → β} {x : Except ε α} {b : β} :
    f <$> x = .ok b ↔ ∃ a, x = .ok a ∧ f a = b := by
  cases x <;> simp [Functor.map, Except.map]

theorem map_eq_error_iff {f : α → β} {x : Except ε α} {e : ε} :
    f <$> x = .error e ↔ x = .error e := by
  cases x <;> simp [Functor.map, Except.map]

theorem mapError_eq_ok_iff {f : ε → ε'} {x : Except ε α} {a : α} :
    x.mapError f = .ok a ↔ x = .ok a := by
  cases x <;> simp [Except.mapError]

theorem mapError_eq_error_iff {f : ε → ε'} {x : Except ε α} {e' : ε'} :
    x.mapError f = .error e' ↔ ∃ e, x = .error e ∧ f e = e' := by
  cases x <;> simp [Except.mapError]

@[simp] theorem mapError_pure {f : ε → ε'} {a : α} :
    (pure a : Except ε α).mapError f = pure a := rfl

theorem mapError_map {f : ε → ε'} {g : α → β} {x : Except ε α} :
    (g <$> x).mapError f = g <$> x.mapError f := by
  cases x <;> rfl

theorem mapError_bind {f : ε → ε'} {x : Except ε α} {g : α → Except ε β} :
    (x >>= g).mapError f = x.mapError f >>= fun a ↦ (g a).mapError f := by
  cases x <;> rfl

theorem toOption_eq_some_iff {x : Except ε α} {a : α} : x.toOption = some a ↔ x = .ok a := by
  cases x <;> simp [Except.toOption]

/-- Two steps of which the values are put together. -/
theorem both_eq_ok_iff {γ : Type} {x : Except ε α} {y : Except ε β} {f : α → β → γ} {c : γ} :
    (do let a ← x; let b ← y; return f a b) = .ok c ↔
      ∃ a b, x = .ok a ∧ y = .ok b ∧ f a b = c := by
  cases x <;> cases y <;> simp [bind, Except.bind, pure, Except.pure]

theorem exists_bind_eq_ok {x : Except ε α} {f : α → Except ε β} (hx : ∃ a, x = .ok a)
    (hf : ∀ a, ∃ b, f a = .ok b) : ∃ b, x >>= f = .ok b := by
  obtain ⟨a, rfl⟩ := hx
  exact hf a

theorem exists_map_eq_ok {f : α → β} {x : Except ε α} (hx : ∃ a, x = .ok a) :
    ∃ b, f <$> x = .ok b := by
  obtain ⟨a, rfl⟩ := hx
  exact ⟨f a, rfl⟩

theorem mapM_eq_ok_iff {f : α → Except ε β} {xs : List α} {ys : List β} :
    xs.mapM f = .ok ys ↔ List.Forall₂ (fun x y ↦ f x = .ok y) xs ys := by
  induction xs generalizing ys with
  | nil => cases ys <;> simp [pure, Except.pure]
  | cons x xs ih =>
      rw [List.mapM_cons, bind_eq_ok_iff, List.forall₂_cons_left_iff]
      constructor
      · rintro ⟨y, hy, hrest⟩
        obtain ⟨rest, hmap, hys⟩ := bind_eq_ok_iff.mp hrest
        exact ⟨y, rest, hy, ih.mp hmap, (Except.ok.inj hys).symm⟩
      · rintro ⟨y, rest, hy, hmap, rfl⟩
        exact ⟨y, hy, bind_eq_ok_iff.mpr ⟨rest, ih.mpr hmap, rfl⟩⟩

/-- Steps of which the value is known, if they give one. -/
theorem mapM_eq_ok_iff_map {f : α → Except ε β} {P : α → Prop} {g : α → β}
    (h : ∀ x y, f x = .ok y ↔ P x ∧ y = g x) {xs : List α} {ys : List β} :
    xs.mapM f = .ok ys ↔ (∀ x ∈ xs, P x) ∧ ys = xs.map g := by
  rw [mapM_eq_ok_iff]
  induction xs generalizing ys with
  | nil => simp
  | cons x xs ih =>
      rw [List.forall₂_cons_left_iff, List.forall_mem_cons, List.map_cons]
      constructor
      · rintro ⟨y, rest, hy, hrest, rfl⟩
        obtain ⟨hx, rfl⟩ := (h x y).mp hy
        obtain ⟨hxs, rfl⟩ := ih.mp hrest
        exact ⟨⟨hx, hxs⟩, rfl⟩
      · rintro ⟨⟨hx, hxs⟩, rfl⟩
        exact ⟨g x, xs.map g, (h x _).mpr ⟨hx, rfl⟩, ih.mpr ⟨hxs, rfl⟩, rfl⟩

theorem map_ok_inj {xs ys : List α} :
    xs.map (Except.ok (ε := ε)) = ys.map Except.ok ↔ xs = ys :=
  List.map_inj_right fun _ _ ↦ Except.ok.inj

/-- Both steps fail, or both give a value and the values are related. -/
def Alike (R : α → β → Prop) : Except ε α → Except ε' β → Prop
  | .ok a, .ok b => R a b
  | .error _, .error _ => True
  | _, _ => False

theorem alike_of_ok {R : α → β → Prop} {x : Except ε α} {y : Except ε' β}
    (hx : ∀ a, x = .ok a → ∃ b, y = .ok b ∧ R a b) (hy : ∀ b, y = .ok b → ∃ a, x = .ok a) :
    Alike R x y := by
  cases x with
  | ok a =>
      obtain ⟨b, rfl, hab⟩ := hx a rfl
      exact hab
  | error e =>
      cases y with
      | error e' => trivial
      | ok b =>
          obtain ⟨a, ha⟩ := hy b rfl
          cases ha

theorem Alike.refl {R : α → α → Prop} (hR : ∀ a, R a a) (x : Except ε α) : Alike R x x :=
  alike_of_ok (fun a ha ↦ ⟨a, ha, hR a⟩) fun a ha ↦ ⟨a, ha⟩

theorem Alike.exists_ok {R : α → β → Prop} {x : Except ε α} {y : Except ε' β} (h : Alike R x y)
    {a : α} (ha : x = .ok a) : ∃ b, y = .ok b ∧ R a b := by
  subst ha
  cases y with
  | ok b => exact ⟨b, rfl, h⟩
  | error e => exact h.elim

theorem Alike.symm {R : α → β → Prop} {x : Except ε α} {y : Except ε' β} (h : Alike R x y) :
    Alike (fun b a ↦ R a b) y x := by
  cases x <;> cases y <;> exact h

theorem Alike.imp {R S : α → β → Prop} {x : Except ε α} {y : Except ε' β} (h : Alike R x y)
    (hRS : ∀ a b, x = .ok a → y = .ok b → R a b → S a b) : Alike S x y := by
  cases x with
  | ok a =>
      obtain ⟨b, rfl, hab⟩ := h.exists_ok rfl
      exact hRS a b rfl rfl hab
  | error e => cases y <;> exact h

/-- Two steps that go with one and the same step go with each other. -/
theorem Alike.of_common {R : α → β → Prop} {S : α → α → Prop} {x y : Except ε α}
    {z : Except ε' β} (hx : Alike R x z) (hy : Alike R y z)
    (hS : ∀ a a' b, R a b → R a' b → S a a') : Alike S x y := by
  refine alike_of_ok (fun a ha ↦ ?_) fun a' ha' ↦ ?_
  · obtain ⟨b, hb, hab⟩ := hx.exists_ok ha
    obtain ⟨a', ha', hab'⟩ := hy.symm.exists_ok hb
    exact ⟨a', ha', hS a a' b hab hab'⟩
  · obtain ⟨b, hb, _⟩ := hy.exists_ok ha'
    obtain ⟨a, ha, _⟩ := hx.symm.exists_ok hb
    exact ⟨a, ha⟩

theorem exists_mem_of_forall₂ {R : α → β → Prop} {xs : List α} {ys : List β}
    (h : List.Forall₂ R xs ys) {y : β} (hy : y ∈ ys) : ∃ x ∈ xs, R x y := by
  induction h with
  | nil => cases hy
  | cons hhead _ ih =>
      rcases List.mem_cons.mp hy with rfl | hrest
      · exact ⟨_, List.mem_cons_self, hhead⟩
      · obtain ⟨x, hx, hxy⟩ := ih hrest
        exact ⟨x, List.mem_cons_of_mem _ hx, hxy⟩

theorem filterMap_eq_of_forall₂ {γ : Type} {R : α → β → Prop} {f : α → Option γ}
    {g : β → Option γ} {xs : List α} {ys : List β} (h : List.Forall₂ R xs ys)
    (heq : ∀ x y, R x y → f x = g y) : xs.filterMap f = ys.filterMap g := by
  induction h with
  | nil => rfl
  | cons hhead _ ih => rw [List.filterMap_cons, List.filterMap_cons, heq _ _ hhead, ih]

/-- A pairing goes over to the places that are selected on both sides. -/
theorem forall₂_filter_filterMap {γ : Type} {R : α → β → Prop} {S : α → γ → Prop} {p : α → Bool}
    {g : β → Option γ} {xs : List α} {ys : List β} (h : List.Forall₂ R xs ys)
    (hselect : ∀ x y, R x y → (p x = true ∧ ∃ z, g y = some z ∧ S x z) ∨
      (p x = false ∧ g y = none)) :
    List.Forall₂ S (xs.filter p) (ys.filterMap g) := by
  induction h with
  | nil => exact .nil
  | cons hhead _ ih =>
      rcases hselect _ _ hhead with ⟨hp, z, hg, hS⟩ | ⟨hp, hg⟩
      · rw [List.filter_cons_of_pos hp, List.filterMap_cons_some hg]
        exact .cons hS ih
      · rw [List.filter_cons_of_neg (by simp [hp]), List.filterMap_cons_none hg]
        exact ih

theorem exists_mem_of_mapM_eq_error {f : α → Except ε β} {xs : List α} {e : ε}
    (h : xs.mapM f = .error e) : ∃ x ∈ xs, f x = .error e := by
  induction xs with
  | nil => simp [pure, Except.pure] at h
  | cons x xs ih =>
      rw [List.mapM_cons, bind_eq_error_iff] at h
      rcases h with hx | ⟨y, _, hrest⟩
      · exact ⟨x, List.mem_cons_self, hx⟩
      · rcases bind_eq_error_iff.mp hrest with hmap | ⟨ys, _, hpure⟩
        · obtain ⟨z, hz, hze⟩ := ih hmap
          exact ⟨z, List.mem_cons_of_mem x hz, hze⟩
        · cases hpure

theorem exists_mapM_eq_ok_iff {f : α → Except ε β} {xs : List α} :
    (∃ ys, xs.mapM f = .ok ys) ↔ ∀ x ∈ xs, ∃ y, f x = .ok y := by
  constructor
  · rintro ⟨ys, hys⟩ x hx
    obtain ⟨y, _, hy⟩ := exists_mem_of_forall₂ (mapM_eq_ok_iff.mp hys).flip hx
    exact ⟨y, hy⟩
  · intro hall
    cases hmap : xs.mapM f with
    | ok ys => exact ⟨ys, rfl⟩
    | error e =>
        obtain ⟨x, hx, he⟩ := exists_mem_of_mapM_eq_error hmap
        obtain ⟨y, hy⟩ := hall x hx
        cases he.symm.trans hy

/-! ## Selecting with a test that may fail -/

variable {γ : Type} {test : γ → Except ε Bool} {xs ys : List γ}

/-- The items that pass the test, if it does not fail on them. -/
def passing (test : γ → Except ε Bool) (xs : List γ) : List γ :=
  xs.filter fun x ↦ (test x).toOption == some true

theorem mem_passing {x : γ} : x ∈ passing test xs ↔ x ∈ xs ∧ test x = .ok true := by
  rw [passing, List.mem_filter, beq_iff_eq, toOption_eq_some_iff]

theorem filterAuxM_eq_ok_iff {kept : List γ} : List.filterAuxM test xs kept = .ok ys ↔
    (∀ x ∈ xs, ∃ b, test x = .ok b) ∧ ys = (passing test xs).reverse ++ kept := by
  induction xs generalizing kept with
  | nil =>
      simp only [List.filterAuxM, passing, pure, Except.pure, Except.ok.injEq, List.filter_nil,
        List.reverse_nil, List.nil_append, List.not_mem_nil, false_implies, implies_true, true_and]
      exact eq_comm
  | cons x xs ih =>
      rw [List.filterAuxM, bind_eq_ok_iff, List.forall_mem_cons]
      constructor
      · rintro ⟨b, hb, hrest⟩
        obtain ⟨hall, rfl⟩ := ih.mp hrest
        refine ⟨⟨⟨b, hb⟩, hall⟩, ?_⟩
        cases b <;> simp [passing, hb, Except.toOption]
      · rintro ⟨⟨⟨b, hb⟩, hall⟩, rfl⟩
        refine ⟨b, hb, ih.mpr ⟨hall, ?_⟩⟩
        cases b <;> simp [passing, hb, Except.toOption]

theorem filterM_eq_ok_iff : xs.filterM test = .ok ys ↔
    (∀ x ∈ xs, ∃ b, test x = .ok b) ∧ ys = passing test xs := by
  rw [List.filterM, bind_eq_ok_iff]
  constructor
  · rintro ⟨kept, hkept, hys⟩
    obtain ⟨hall, rfl⟩ := filterAuxM_eq_ok_iff.mp hkept
    obtain rfl := Except.ok.inj hys
    exact ⟨hall, by simp⟩
  · rintro ⟨hall, rfl⟩
    refine ⟨_, filterAuxM_eq_ok_iff.mpr ⟨hall, rfl⟩, ?_⟩
    simp [pure, Except.pure]

theorem exists_mem_of_filterM_eq_error {e : ε} (h : xs.filterM test = .error e) :
    ∃ x ∈ xs, test x = .error e := by
  have haux (kept : List γ) : List.filterAuxM test xs kept = .error e →
      ∃ x ∈ xs, test x = .error e := by
    clear h
    induction xs generalizing kept with
    | nil =>
        intro h
        cases h
    | cons x xs ih =>
        intro h
        rw [List.filterAuxM, bind_eq_error_iff] at h
        rcases h with hx | ⟨b, _, hrest⟩
        · exact ⟨x, List.mem_cons_self, hx⟩
        · obtain ⟨z, hz, hze⟩ := ih _ hrest
          exact ⟨z, List.mem_cons_of_mem x hz, hze⟩
  rw [List.filterM, bind_eq_error_iff] at h
  rcases h with h | ⟨kept, _, hpure⟩
  · exact haux [] h
  · cases hpure

end AbiTypings.Outcome
