import Mathlib.Data.List.Forall2
/-! How computations with errors end: alone, behind a check, and two that end the same way, both
with related values or both with related errors. -/
namespace Inference

/-- A check lets the rest of a computation run where its condition fails. -/
theorem ite_throw_bind_eq_ok {ε α β : Type} {c : Prop} [Decidable c] {e : ε}
    {k : β → Except ε α} {x : Except ε α} {a : α} :
    (if c then (throw e : Except ε β) >>= k else x) = .ok a ↔ ¬c ∧ x = .ok a := by
  by_cases hc : c
  · simp [hc, throw, throwThe, MonadExceptOf.throw, bind, Except.bind]
  · simp [hc]

theorem bind_eq_ok {ε α β : Type} {x : Except ε α} {f : α → Except ε β} {b : β} :
    x >>= f = .ok b ↔ ∃ a, x = .ok a ∧ f a = .ok b := by
  cases x with
  | error e => exact ⟨nofun, nofun⟩
  | ok a =>
    constructor
    · intro h
      exact ⟨a, rfl, h⟩
    · rintro ⟨_, ha, h⟩
      cases ha
      exact h

/-- It fails as the check does, or as the rest of the computation. -/
theorem ite_throw_bind_eq_error {ε α β : Type} {c : Prop} [Decidable c] {e e' : ε}
    {k : β → Except ε α} {x : Except ε α} :
    (if c then (throw e : Except ε β) >>= k else x) = .error e' ↔
      c ∧ e = e' ∨ ¬c ∧ x = .error e' := by
  by_cases hc : c
  · simp [hc, throw, throwThe, MonadExceptOf.throw, bind, Except.bind]
  · simp [hc]

theorem bind_eq_error {ε α β : Type} {x : Except ε α} {f : α → Except ε β} {e : ε} :
    x >>= f = .error e ↔ x = .error e ∨ ∃ a, x = .ok a ∧ f a = .error e := by
  cases x with
  | error e' => simp [bind, Except.bind]
  | ok a => simp [bind, Except.bind]

theorem toOption_eq_some {ε α : Type} {x : Except ε α} {a : α} :
    x.toOption = some a ↔ x = .ok a := by
  cases x <;> simp [Except.toOption]

inductive Concur {ε ε' α β : Type} (E : ε → ε' → Prop) (R : α → β → Prop) :
    Except ε α → Except ε' β → Prop where
  | ok {a : α} {b : β} (h : R a b) : Concur E R (.ok a) (.ok b)
  | error {e : ε} {e' : ε'} (h : E e e') : Concur E R (.error e) (.error e')

namespace Concur

variable {ε ε' α β γ δ : Type} {E : ε → ε' → Prop} {R : α → β → Prop} {S : γ → δ → Prop}
  {x : Except ε α} {y : Except ε' β}

theorem bind {f : α → Except ε γ} {g : β → Except ε' δ} (h : Concur E R x y)
    (hfg : ∀ a b, R a b → Concur E S (f a) (g b)) : Concur E S (x >>= f) (y >>= g) := by
  cases h with
  | ok hab => exact hfg _ _ hab
  | error he => exact .error he

theorem mapError {φ φ' : Type} {F : φ → φ' → Prop} {k : ε → φ} {k' : ε' → φ'}
    (h : Concur E R x y) (hk : ∀ e e', E e e' → F (k e) (k' e')) :
    Concur F R (x.mapError k) (y.mapError k') := by
  cases h with
  | ok hab => exact .ok hab
  | error he => exact .error (hk _ _ he)

theorem map {f : α → γ} {g : β → δ} (h : Concur E R x y) (hfg : ∀ a b, R a b → S (f a) (g b)) :
    Concur E S (f <$> x) (g <$> y) := by
  cases h with
  | ok hab => exact .ok (hfg _ _ hab)
  | error he => exact .error he

theorem mapM {κ κ' : Type} {f : κ → Except ε α} {g : κ' → Except ε' β} {ks : List κ}
    {ks' : List κ'} (h : List.Forall₂ (fun k k' => Concur E R (f k) (g k')) ks ks') :
    Concur E (List.Forall₂ R) (ks.mapM f) (ks'.mapM g) := by
  induction h with
  | nil => exact .ok .nil
  | cons hfg _ ih =>
    rw [List.mapM_cons, List.mapM_cons]
    exact hfg.bind fun a b hab => ih.bind fun as bs hall => .ok (.cons hab hall)

theorem foldlM {κ : Type} {f : α → κ → Except ε α} {g : β → κ → Except ε' β} {ks : List κ} {a : α}
    {b : β} (hab : R a b) (h : ∀ a b, R a b → ∀ k ∈ ks, Concur E R (f a k) (g b k)) :
    Concur E R (ks.foldlM f a) (ks.foldlM g b) := by
  induction ks generalizing a b with
  | nil => exact .ok hab
  | cons k ks ih =>
    rw [List.foldlM_cons, List.foldlM_cons]
    refine (h a b hab k (by simp)).bind fun a b hab => ?_
    exact ih hab fun a b hab k hk => h a b hab k (by simp [hk])

end Concur

/-- Either success brings a related success of the other. -/
theorem Concur.of_ok {ε ε' α β : Type} {R : α → β → Prop} {x : Except ε α} {y : Except ε' β}
    (hx : ∀ a, x = .ok a → ∃ b, y = .ok b ∧ R a b) (hy : ∀ b, y = .ok b → ∃ a, x = .ok a) :
    Concur (fun _ _ => True) R x y := by
  cases x with
  | ok a =>
    obtain ⟨b, rfl, hab⟩ := hx a rfl
    exact .ok hab
  | error e =>
    cases y with
    | ok b =>
      obtain ⟨a, ha⟩ := hy b rfl
      cases ha
    | error e' => exact .error trivial

/-- Both succeed with the same value, or both fail for whatever reasons. -/
abbrev Concordant {ε ε' α : Type} (x : Except ε α) (y : Except ε' α) : Prop :=
  Concur (fun _ _ => True) Eq x y

namespace Concordant

variable {ε α β : Type} {x y : Except ε α}

theorem refl (x : Except ε α) : Concordant x x := by
  cases x with
  | ok => exact .ok rfl
  | error => exact .error trivial

/-- What follows may look at the value alone. -/
theorem bind_same (h : Concordant x y) (f : α → Except ε β) : Concordant (x >>= f) (y >>= f) :=
  h.bind fun a _ hab => hab ▸ refl (f a)

/-- Checks may fail with different errors. -/
theorem check {c : Prop} [Decidable c] {e e' : ε} {k k' : β → Except ε α}
    (h : ¬c → Concordant x y) : Concordant (if c then (throw e : Except ε β) >>= k else x)
      (if c then (throw e' : Except ε β) >>= k' else y) := by
  by_cases hc : c
  · simp only [if_pos hc]
    exact .error trivial
  · simpa only [if_neg hc] using h hc

/-- One computation is followed by two others. -/
theorem fork {f g : α → Except ε β} (h : ∀ a, x = .ok a → Concordant (f a) (g a)) :
    Concordant (x >>= f) (x >>= g) := by
  cases x with
  | ok a => exact h a rfl
  | error e => exact .error trivial

theorem eq_ok_iff (h : Concordant x y) {a : α} : x = .ok a ↔ y = .ok a := by
  cases h with
  | ok hab => rw [hab]
  | error => exact ⟨nofun, nofun⟩

end Concordant

/-- Both succeed with related values, or both fail with the same error. -/
abbrev Parallel {ε α β : Type} (R : α → β → Prop) (x : Except ε α) (y : Except ε β) : Prop :=
  Concur Eq R x y

namespace Concur

variable {ε α β γ δ : Type} {S : γ → δ → Prop}

/-- One computation is followed by two others. -/
theorem fork {x : Except ε α} {f : α → Except ε γ} {g : α → Except ε δ}
    (h : ∀ a, Parallel S (f a) (g a)) : Parallel S (x >>= f) (x >>= g) := by
  cases x with
  | ok a => exact h a
  | error e => exact .error rfl

/-- A check that both pass or both fail. -/
theorem check {c : Prop} [Decidable c] {e : ε} {k : α → Except ε γ} {k' : α → Except ε δ}
    {x : Except ε γ} {y : Except ε δ} (h : Parallel S x y) :
    Parallel S (if c then (throw e : Except ε α) >>= k else x)
      (if c then (throw e : Except ε α) >>= k' else y) := by
  by_cases hc : c
  · simp only [if_pos hc]
    exact .error rfl
  · simpa only [if_neg hc] using h

end Concur
end Inference
