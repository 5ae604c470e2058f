import Mathlib

/-!
# Inversion of fallible computations

A step of a fallible computation that ends in a value ends in the value of its parts.
-/

namespace Except

variable {ε α β γ : Type} {x : Except ε α} {f : α → Except ε β}

/-- Where the value of a mapped computation comes from. -/
theorem map_eq_ok_iff {f : α → β} {b : β} : x.map f = .ok b ↔ ∃ a, x = .ok a ∧ f a = b := by
  cases x with
  | error e =>
    constructor
    · intro h
      cases h
    · rintro ⟨a, h, -⟩
      cases h
  | ok a =>
    constructor
    · intro h
      exact ⟨a, rfl, Except.ok.inj h⟩
    · rintro ⟨a', h, rfl⟩
      rw [Except.ok.inj h]
      rfl

/-- Where the value of a chained computation comes from. -/
theorem bind_eq_ok_iff {b : β} : x.bind f = .ok b ↔ ∃ a, x = .ok a ∧ f a = .ok b := by
  cases x with
  | error e =>
    constructor
    · intro h
      cases h
    · rintro ⟨a, h, -⟩
      cases h
  | ok a =>
    constructor
    · intro h
      exact ⟨a, rfl, h⟩
    · rintro ⟨a', h, hb⟩
      rw [Except.ok.inj h]
      exact hb

theorem mapError_eq_ok_iff {δ : Type} {f : ε → δ} {a : α} : x.mapError f = .ok a ↔ x = .ok a := by
  cases x <;> simp [Except.mapError]

theorem map_inj_iff {y : Except ε α} {f : α → β} (hf : Function.Injective f) :
    x.map f = y.map f ↔ x = y := by
  constructor
  · intro h
    cases x <;> cases y <;> simp_all [Except.map, hf.eq_iff]
  · rintro rfl
    rfl

@[simp] theorem ok_bind (a : α) (f : α → Except ε β) : (Except.ok a).bind f = f a := rfl

@[simp] theorem error_bind (e : ε) (f : α → Except ε β) : (Except.error e).bind f = .error e := rfl

theorem bind_ok (x : Except ε α) : x.bind .ok = x := by
  cases x <;> rfl

theorem map_bind (x : Except ε α) (f : α → β) (g : β → Except ε γ) :
    (x.map f).bind g = x.bind fun a => g (f a) := by
  cases x <;> rfl

theorem bind_map (x : Except ε α) (f : α → Except ε β) (g : β → γ) :
    (x.bind f).map g = x.bind fun a => (f a).map g := by
  cases x <;> rfl

/-- The values of a list: if each element has a value under a condition, all have theirs under
all conditions. -/
theorem mapM_eq_ok_iff {g : α → β} {P : α → Prop} (h : ∀ a b, f a = .ok b ↔ b = g a ∧ P a) :
    ∀ {l : List α} {bs : List β}, l.mapM f = .ok bs ↔ bs = l.map g ∧ ∀ a ∈ l, P a
  | [], bs => by
    rw [List.mapM_nil]
    constructor
    · intro hn
      exact ⟨(Except.ok.inj hn).symm, nofun⟩
    · rintro ⟨rfl, -⟩
      rfl
  | a :: l, bs => by
    have hc : (a :: l).mapM f = (f a).bind fun b => (l.mapM f).map (b :: ·) := by
      rw [List.mapM_cons]
      show (f a).bind _ = (f a).bind _
      congr 1
    rw [hc, bind_eq_ok_iff]
    constructor
    · rintro ⟨b, hb, hr⟩
      obtain ⟨bs', hb', rfl⟩ := map_eq_ok_iff.1 hr
      obtain ⟨rfl, hP⟩ := (h a b).1 hb
      obtain ⟨rfl, ha⟩ := (mapM_eq_ok_iff h).1 hb'
      exact ⟨rfl, List.forall_mem_cons.2 ⟨hP, ha⟩⟩
    · rintro ⟨rfl, ha⟩
      obtain ⟨hP, ha⟩ := List.forall_mem_cons.1 ha
      exact ⟨g a, (h a _).2 ⟨rfl, hP⟩,
        map_eq_ok_iff.2 ⟨l.map g, (mapM_eq_ok_iff h).2 ⟨rfl, ha⟩, rfl⟩⟩

end Except
