import Inference.Proofs.Checked
import Inference.Proofs.Concur
import Inference.Layer.Error
/-! Computations that succeed, and computations that fail for no fault of the machine. -/
namespace Inference

/-- It succeeds, with a value that has the property. -/
def Yields {ε α : Type} (P : α → Prop) (x : Except ε α) : Prop := ∃ a, x = .ok a ∧ P a

namespace Yields

variable {ε α β κ : Type} {P : α → Prop} {Q : β → Prop} {x : Except ε α}

theorem ok {a : α} (h : P a) : Yields P (.ok a : Except ε α) := ⟨a, rfl, h⟩

theorem mono {P' : α → Prop} (h : Yields P x) (hP : ∀ a, P a → P' a) : Yields P' x := by
  obtain ⟨a, hx, ha⟩ := h
  exact ⟨a, hx, hP a ha⟩

theorem bind {f : α → Except ε β} (h : Yields P x) (hf : ∀ a, P a → Yields Q (f a)) :
    Yields Q (x >>= f) := by
  obtain ⟨a, rfl, ha⟩ := h
  exact hf a ha

theorem of_eq {f : α → Except ε β} {a : α} (h : x = .ok a) (hf : Yields Q (f a)) :
    Yields Q (x >>= f) := by
  rw [h]
  exact hf

theorem mapM {f : κ → Except ε α} {ks : List κ} (h : ∀ k ∈ ks, Yields P (f k)) :
    Yields (fun as => as.length = ks.length) (ks.mapM f) := by
  induction ks with
  | nil => exact .ok rfl
  | cons k ks ih =>
    rw [List.mapM_cons]
    refine (h k List.mem_cons_self).bind fun a _ => ?_
    refine (ih fun k hk => h k (List.mem_cons_of_mem _ hk)).bind fun as has => .ok ?_
    simp [has]

end Yields

/-- If it succeeds, then with a value that has the property. -/
def Ensures {ε α : Type} (P : α → Prop) (x : Except ε α) : Prop := ∀ a, x = .ok a → P a

namespace Ensures

variable {ε α β κ : Type} {P : α → Prop} {Q : β → Prop} {x : Except ε α}

theorem ok {a : α} (h : P a) : Ensures P (.ok a : Except ε α) := by
  rintro _ ⟨⟩
  exact h

theorem error (e : ε) : Ensures P (.error e) := nofun

theorem bind {f : α → Except ε β} (hf : ∀ a, x = .ok a → Ensures Q (f a)) : Ensures Q (x >>= f) := by
  cases x with
  | error e => exact .error e
  | ok a => exact hf a rfl

theorem check {c : Prop} [Decidable c] {e : ε} {k : β → Except ε α} (h : ¬c → Ensures P x) :
    Ensures P (if c then (throw e : Except ε β) >>= k else x) := by
  intro a ha
  obtain ⟨hc, hx⟩ := ite_throw_bind_eq_ok.1 ha
  exact h hc a hx

theorem mapM {f : κ → Except ε α} {ks : List κ} (h : ∀ k ∈ ks, Ensures P (f k)) :
    Ensures (fun as => ∀ a ∈ as, P a) (ks.mapM f) := by
  induction ks with
  | nil => exact .ok fun _ => nofun
  | cons k ks ih =>
    rw [List.mapM_cons]
    refine .bind fun a ha => .bind fun as has => .ok (List.forall_mem_cons.2 ⟨?_, ?_⟩)
    · exact h k List.mem_cons_self a ha
    · exact ih (fun k' hk' => h k' (List.mem_cons_of_mem k hk')) as has

/-- Each step of a loop that succeeds has succeeded, with a value from which the invariant has not
been lost. -/
theorem foldlM {f : α → κ → Except ε α} {R : κ → Prop} {ks : List κ} {a : α} (ha : P a)
    (h : ∀ a, P a → ∀ k ∈ ks, Ensures (fun b => P b ∧ R k) (f a k)) :
    Ensures (fun b => P b ∧ ∀ k ∈ ks, R k) (ks.foldlM f a) := by
  induction ks generalizing a with
  | nil => exact .ok ⟨ha, fun _ => nofun⟩
  | cons k ks ih =>
    rw [List.foldlM_cons]
    refine .bind fun b hb => ?_
    obtain ⟨hP, hk⟩ := h a ha k List.mem_cons_self b hb
    intro c hc
    obtain ⟨hP', hks⟩ := ih hP (fun a ha k' hk' => h a ha k' (List.mem_cons_of_mem k hk')) c hc
    exact ⟨hP', List.forall_mem_cons.2 ⟨hk, hks⟩⟩

end Ensures

/-- A loop of which no step fails. -/
theorem foldlM_eq_ok {ε α κ : Type} {f : α → κ → Except ε α} {g : α → κ → α} {ks : List κ} {a : α}
    (h : ∀ a, ∀ k ∈ ks, f a k = .ok (g a k)) : ks.foldlM f a = .ok (ks.foldl g a) := by
  induction ks generalizing a with
  | nil => rfl
  | cons k ks ih =>
    rw [List.foldlM_cons, List.foldl_cons, h a k List.mem_cons_self]
    exact ih fun a k' hk => h a k' (List.mem_cons_of_mem k hk)

/-- A loop that adds to an array, step by step. -/
theorem foldlM_append_eq_ok {ε α κ : Type} {step : Array α → κ → Except ε (Array α)}
    {added : κ → List α} {ks : List κ} (out : Array α)
    (h : ∀ k ∈ ks, ∀ out, step out k = .ok (out ++ (added k).toArray)) :
    ks.foldlM step out = .ok (out ++ (ks.flatMap added).toArray) := by
  induction ks generalizing out with
  | nil => simp [pure, Except.pure]
  | cons k ks ih =>
    rw [List.foldlM_cons, h k List.mem_cons_self]
    refine (ih _ fun k' hk => h k' (List.mem_cons_of_mem k hk)).trans ?_
    simp [List.flatMap_cons, Array.append_assoc]

/-- A loop over several lists in turn is a loop of loops. -/
theorem foldlM_flatMap {ε α κ ν : Type} {f : α → κ → Except ε α} {ks : ν → List κ} {ns : List ν}
    {a : α} : (ns.flatMap ks).foldlM f a = ns.foldlM (fun a n => (ks n).foldlM f a) a := by
  induction ns generalizing a with
  | nil => rfl
  | cons n ns ih =>
    rw [List.flatMap_cons, List.foldlM_append, List.foldlM_cons]
    exact bind_congr fun a => ih

theorem mapM_eq_ok {ε α κ : Type} {f : κ → Except ε α} {g : κ → α} {ks : List κ}
    (h : ∀ k ∈ ks, f k = .ok (g k)) : ks.mapM f = .ok (ks.map g) := by
  induction ks with
  | nil => rfl
  | cons k ks ih =>
    rw [List.mapM_cons, h k List.mem_cons_self, ih fun k' hk => h k' (List.mem_cons_of_mem k hk)]
    rfl

theorem lift_bind_eq {α β : Type} {x : Except Fault α} {a : α} (h : x = .ok a)
    (f : α → Except KernelError β) : (liftM x : Except KernelError α) >>= f = f a := by
  rw [h]
  rfl

theorem lift_eq_ok {α : Type} {x : Except Fault α} {a : α} :
    (liftM x : Except KernelError α) = .ok a ↔ x = .ok a := by
  cases x with
  | error => exact ⟨nofun, nofun⟩
  | ok b => exact ⟨fun h => congrArg _ (Except.ok.inj h), fun h => congrArg _ (Except.ok.inj h)⟩

/-- If it fails, then not with an error of the kind. -/
def Avoids {ε α : Type} (Bad : ε → Prop) (x : Except ε α) : Prop := ∀ e, x = .error e → ¬Bad e

namespace Avoids

variable {ε α β κ : Type} {Bad : ε → Prop} {x : Except ε α}

theorem ok (a : α) : Avoids Bad (.ok a) := nofun

theorem error {e : ε} (h : ¬Bad e) : Avoids Bad (.error e : Except ε α) := by
  rintro _ ⟨⟩
  exact h

theorem mono {Bad' : ε → Prop} (h : Avoids Bad x) (hbad : ∀ e, Bad' e → Bad e) : Avoids Bad' x :=
  fun e he hbad' => h e he (hbad e hbad')

theorem bind {f : α → Except ε β} (h : Avoids Bad x) (hf : ∀ a, x = .ok a → Avoids Bad (f a)) :
    Avoids Bad (x >>= f) := by
  cases x with
  | error e => exact .error (h e rfl)
  | ok a => exact hf a rfl

/-- A check whose error is of another kind. -/
theorem check {c : Prop} [Decidable c] {e : ε} {k : β → Except ε α} (he : ¬Bad e)
    (h : ¬c → Avoids Bad x) : Avoids Bad (if c then (throw e : Except ε β) >>= k else x) := by
  by_cases hc : c
  · simp only [if_pos hc]
    exact .error he
  · simpa only [if_neg hc] using h hc

theorem mapM {f : κ → Except ε α} {ks : List κ} (h : ∀ k ∈ ks, Avoids Bad (f k)) :
    Avoids Bad (ks.mapM f) := by
  induction ks with
  | nil => exact .ok _
  | cons k ks ih =>
    rw [List.mapM_cons]
    refine (h k List.mem_cons_self).bind fun a _ => ?_
    exact (ih fun k' hk => h k' (List.mem_cons_of_mem k hk)).bind fun as _ => .ok _

/-- What the machine is asked to do first may be a fault. -/
theorem lift {y : Except Fault α} {g : Fault → ε} (hg : ∀ fault, ¬Bad (g fault)) :
    Avoids Bad (y.mapError g) := by
  cases y with
  | error fault => exact .error (hg fault)
  | ok a => exact .ok a

end Avoids

/-- Errors among which are faults of the machine, which could not do what was asked for. -/
class MayFault (ε : Type) where
  IsFault : ε → Prop

instance : MayFault KernelError where
  IsFault
    | .fault _ => True
    | _ => False

/-- If it fails, then not for a fault of the machine. -/
def Faultless {ε α : Type} [MayFault ε] (x : Except ε α) : Prop :=
  ∀ e, x = .error e → ¬MayFault.IsFault e

namespace Faultless

variable {ε α β : Type} [MayFault ε] {x : Except ε α}

theorem ok (a : α) : Faultless (.ok a : Except ε α) := Avoids.ok a

theorem error {e : ε} (h : ¬MayFault.IsFault e) : Faultless (.error e : Except ε α) :=
  Avoids.error h

theorem bind {f : α → Except ε β} (h : Faultless x) (hf : ∀ a, x = .ok a → Faultless (f a)) :
    Faultless (x >>= f) :=
  Avoids.bind h hf

/-- An error may become the cause of another one. -/
theorem mapError {κ : Type} [MayFault κ] {g : ε → κ} (h : Faultless x)
    (hg : ∀ e, ¬MayFault.IsFault e → ¬MayFault.IsFault (g e)) : Faultless (x.mapError g) := by
  cases x with
  | error e => exact .error (hg e (h e rfl))
  | ok a => exact .ok a

/-- A check that is no fault where it fails. -/
theorem check {c : Prop} [Decidable c] {e : ε} {k : β → Except ε α} (he : ¬MayFault.IsFault e)
    (h : ¬c → Faultless x) : Faultless (if c then (throw e : Except ε β) >>= k else x) :=
  Avoids.check he h

/-- What the machine is asked to do first succeeds. -/
theorem lift_eq {y : Except Fault α} {g : Fault → ε} {a : α} {f : α → Except ε β} (h : y = .ok a)
    (hf : Faultless (f a)) : Faultless (y.mapError g >>= f) := by
  rw [h]
  exact hf

end Faultless
end Inference
