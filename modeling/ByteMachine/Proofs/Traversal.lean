import Mathlib.Data.List.Forall2

/-!
# Computations that may fail

One computation after another succeeds exactly when both do (`bind_eq_ok_iff`), and fails as one of them
does (`bind_eq_error_iff`). A traversal of a list succeeds exactly when it succeeds at each element, and
then collects the results in order (`mapM_eq_ok_iff`, `exists_mapM_eq_ok_iff`); it fails as it does at the
first element where it fails (`mapM_eq_error_iff`), and so does one of two lists in step
(`mapM_zip_eq_error_iff`). A choice that can be made for each element can be made for all of them
(`exists_forall₂_iff`).

Two computations with related outcomes (`Outcomes`) stay related after one more step each
(`Outcomes.bind`), and so do the traversals of two lists with related elements (`outcomes_mapM`).
-/

namespace ByteMachine

variable {α β ε : Type}

theorem bind_eq_ok_iff {x : Except ε α} {f : α → Except ε β} {b : β} :
    x >>= f = .ok b ↔ ∃ a, x = .ok a ∧ f a = .ok b := by
  cases x with
  | error e => simp [bind, Except.bind]
  | ok a => simp [bind, Except.bind]

theorem bind_eq_error_iff {x : Except ε α} {f : α → Except ε β} {e : ε} :
    x >>= f = .error e ↔ x = .error e ∨ ∃ a, x = .ok a ∧ f a = .error e := by
  cases x with
  | error e' => simp [bind, Except.bind]
  | ok a => simp [bind, Except.bind]

theorem map_eq_ok_iff {x : Except ε α} {f : α → β} {b : β} :
    x.map f = .ok b ↔ ∃ a, x = .ok a ∧ f a = b := by
  cases x with
  | error e => simp [Except.map]
  | ok a => simp [Except.map]

theorem map_eq_error_iff {x : Except ε α} {f : α → β} {e : ε} : x.map f = .error e ↔ x = .error e := by
  cases x with
  | error e' => simp [Except.map]
  | ok a => simp [Except.map]

/-! ### Lists -/

theorem exists_forall₂_iff {R : α → β → Prop} {as : List α} :
    (∃ bs, List.Forall₂ R as bs) ↔ ∀ a ∈ as, ∃ b, R a b := by
  induction as with
  | nil => simp
  | cons a as ih =>
    rw [List.forall_mem_cons, ← ih]
    simp only [List.forall₂_cons_left_iff]
    constructor
    · rintro ⟨-, b, bs, hb, hbs, rfl⟩
      exact ⟨⟨b, hb⟩, bs, hbs⟩
    · rintro ⟨⟨b, hb⟩, bs, hbs⟩
      exact ⟨b :: bs, b, bs, hb, hbs, rfl⟩

theorem exists_forall₂ {R : α → β → Prop} (h : ∀ b, ∃ a, R a b) (bs : List β) :
    ∃ as, List.Forall₂ R as bs := by
  obtain ⟨as, has⟩ := exists_forall₂_iff (R := flip R).mpr fun b (_ : b ∈ bs) => h b
  exact ⟨as, has.flip⟩

theorem exists_mem_of_forall₂ {R : α → β → Prop} {as : List α} {bs : List β} (h : List.Forall₂ R as bs)
    {b : β} (hb : b ∈ bs) : ∃ a ∈ as, R a b := by
  induction h with
  | nil => cases hb
  | @cons a _ as _ hab _ ih =>
    rcases List.mem_cons.mp hb with rfl | hb
    · exact ⟨a, List.mem_cons_self, hab⟩
    · obtain ⟨a', ha', h⟩ := ih hb
      exact ⟨a', List.mem_cons_of_mem _ ha', h⟩

theorem mapM_eq_ok_iff {f : α → Except ε β} {as : List α} {bs : List β} :
    as.mapM f = .ok bs ↔ List.Forall₂ (fun a b => f a = .ok b) as bs := by
  induction as generalizing bs with
  | nil => simp [pure, Except.pure, eq_comm]
  | cons a as ih =>
    rw [List.mapM_cons, List.forall₂_cons_left_iff, bind_eq_ok_iff]
    constructor
    · rintro ⟨b, hb, h⟩
      obtain ⟨bs', hbs, he⟩ := bind_eq_ok_iff.mp h
      cases he
      exact ⟨b, bs', hb, ih.mp hbs, rfl⟩
    · rintro ⟨b, bs', hb, hbs, rfl⟩
      exact ⟨b, hb, bind_eq_ok_iff.mpr ⟨bs', ih.mpr hbs, rfl⟩⟩

theorem exists_mapM_eq_ok_iff {f : α → Except ε β} {as : List α} :
    (∃ bs, as.mapM f = .ok bs) ↔ ∀ a ∈ as, ∃ b, f a = .ok b := by
  simp only [mapM_eq_ok_iff, exists_forall₂_iff]

/-- A traversal fails as it fails at the first element where it does. -/
theorem mapM_eq_error_iff {f : α → Except ε β} {as : List α} {e : ε} :
    as.mapM f = .error e ↔ ∃ before a after, as = before ++ a :: after ∧
      (∀ a' ∈ before, ∃ b, f a' = .ok b) ∧ f a = .error e := by
  induction as with
  | nil => simp [pure, Except.pure]
  | cons a as ih =>
    rw [List.mapM_cons, bind_eq_error_iff]
    constructor
    · rintro (ha | ⟨b, hb, h⟩)
      · exact ⟨[], a, as, rfl, List.forall_mem_nil _, ha⟩
      · rcases bind_eq_error_iff.mp h with has | ⟨bs, -, h⟩
        · obtain ⟨before, a', after, rfl, passed, ha'⟩ := ih.mp has
          exact ⟨a :: before, a', after, rfl, List.forall_mem_cons.mpr ⟨⟨b, hb⟩, passed⟩, ha'⟩
        · cases h
    · rintro ⟨before, a', after, h, passed, ha'⟩
      cases before with
      | nil =>
        obtain ⟨rfl, rfl⟩ := List.cons.inj h
        exact .inl ha'
      | cons _ before =>
        obtain ⟨rfl, rfl⟩ := List.cons.inj h
        obtain ⟨⟨b, hb⟩, passed⟩ := List.forall_mem_cons.mp passed
        have has := ih.mpr ⟨before, a', after, rfl, passed, ha'⟩
        exact .inr ⟨b, hb, bind_eq_error_iff.mpr (.inl has)⟩

/-! ### Two lists in step -/

section
variable {γ : Type} {f : α × β → Except ε γ} {as : List α} {bs : List β}

theorem exists_mapM_zip_eq_ok_iff (h : bs.length = as.length) :
    (∃ cs, (as.zip bs).mapM f = .ok cs) ↔ List.Forall₂ (fun a b => ∃ c, f (a, b) = .ok c) as bs := by
  rw [exists_mapM_eq_ok_iff, List.forall₂_iff_zip, Prod.forall]
  exact (and_iff_right h.symm).symm

theorem mapM_zip_eq_error_iff (h : bs.length = as.length) {e : ε} :
    (as.zip bs).mapM f = .error e ↔ ∃ as₁ a as₂ bs₁ b bs₂, as = as₁ ++ a :: as₂ ∧
      bs = bs₁ ++ b :: bs₂ ∧ bs₂.length = as₂.length ∧
      List.Forall₂ (fun a b => ∃ c, f (a, b) = .ok c) as₁ bs₁ ∧ f (a, b) = .error e := by
  rw [mapM_eq_error_iff]
  constructor
  · rintro ⟨before, ⟨a, b⟩, after, hz, passed, he⟩
    have left : (as.zip bs).map Prod.fst = as := List.map_fst_zip (Nat.le_of_eq h.symm)
    have right : (as.zip bs).map Prod.snd = bs := List.map_snd_zip (Nat.le_of_eq h)
    rw [hz, List.map_append, List.map_cons] at left right
    refine ⟨_, a, _, _, b, _, left.symm, right.symm, by simp, ?_, he⟩
    rw [List.forall₂_map_left_iff, List.forall₂_map_right_iff, List.forall₂_same]
    exact passed
  · rintro ⟨as₁, a, as₂, bs₁, b, bs₂, rfl, rfl, -, passed, he⟩
    obtain ⟨same, passed⟩ := List.forall₂_iff_zip.mp passed
    exact ⟨as₁.zip bs₁, (a, b), as₂.zip bs₂, List.zip_append same, fun _ hp => passed hp, he⟩

end

/-! ### Related outcomes -/

variable {α' β' ε' : Type} {Q : α → α' → Prop} {R : β → β' → Prop} {S : ε → ε' → Prop}

/-- Both computations succeed, with related results, or both fail, with related errors. -/
inductive Outcomes (R : β → β' → Prop) (S : ε → ε' → Prop) : Except ε β → Except ε' β' → Prop
  | ok {b : β} {b' : β'} (h : R b b') : Outcomes R S (.ok b) (.ok b')
  | error {e : ε} {e' : ε'} (h : S e e') : Outcomes R S (.error e) (.error e')

theorem Outcomes.bind {x : Except ε α} {x' : Except ε' α'} {f : α → Except ε β} {f' : α' → Except ε' β'}
    (h : Outcomes Q S x x') (hf : ∀ a a', Q a a' → Outcomes R S (f a) (f' a')) :
    Outcomes R S (x >>= f) (x' >>= f') := by
  cases h with
  | ok h => exact hf _ _ h
  | error h => exact .error h

theorem outcomes_mapM {f : α → Except ε β} {f' : α' → Except ε' β'} {as : List α} {as' : List α'}
    (h : List.Forall₂ Q as as') (hf : ∀ a a', Q a a' → Outcomes R S (f a) (f' a')) :
    Outcomes (List.Forall₂ R) S (as.mapM f) (as'.mapM f') := by
  induction h with
  | nil => exact .ok .nil
  | cons ha _ ih =>
    rw [List.mapM_cons, List.mapM_cons]
    exact (hf _ _ ha).bind fun b b' hb => ih.bind fun bs bs' hbs => .ok (.cons hb hbs)

end ByteMachine
