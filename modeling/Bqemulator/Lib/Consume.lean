import Mathlib

/-!
# Parsers that consume their input

A consumer fails or returns a value and a suffix of its input. The suffix is part of the type, so
that a loop that takes one token in every round ends, and whatever is built from consumers returns a
suffix. -/

/-- A consumer fails, or returns a value and a suffix of its input. -/
def Consumer (τ ε α : Type) : Type :=
  (ts : List τ) → Except ε (α × {rest : List τ // rest <:+ ts})

namespace Consumer

variable {τ ε α β : Type}

instance : Monad (Consumer τ ε) where
  pure a := fun ts => .ok (a, ⟨ts, List.suffix_rfl⟩)
  bind c f := fun ts => match c ts with
    | .error e => .error e
    | .ok (a, rest) => match f a rest.1 with
      | .error e => .error e
      | .ok (b, rest') => .ok (b, ⟨rest'.1, rest'.2.trans rest.2⟩)

/-- A consumer that looks at its input and then takes a number of tokens. -/
def scan (f : List τ → Except ε (α × Nat)) : Consumer τ ε α := fun ts =>
  (f ts).map fun x => (x.1, ⟨ts.drop x.2, List.drop_suffix x.2 ts⟩)

def fail (e : ε) : Consumer τ ε α := scan fun _ => .error e

/-- A consumer that is chosen by looking at the input. -/
def choose (f : List τ → Consumer τ ε α) : Consumer τ ε α := fun ts => f ts ts

def sepByFrom (item : Consumer τ ε α) (sep : τ → Bool) (ts : List τ) :
    Except ε (List α × {rest : List τ // rest <:+ ts}) :=
  match item ts with
  | .error e => .error e
  | .ok (a, ⟨[], h⟩) => .ok ([a], ⟨[], h⟩)
  | .ok (a, ⟨t :: rest, h⟩) =>
    if sep t then match sepByFrom item sep rest with
      | .error e => .error e
      | .ok (as, rest') =>
        .ok (a :: as, ⟨rest'.1, (rest'.2.trans (List.suffix_cons t rest)).trans h⟩)
    else .ok ([a], ⟨t :: rest, h⟩)
termination_by ts.length
decreasing_by exact h.length_le

/-- Items with a separator between them. -/
def sepBy (item : Consumer τ ε α) (sep : τ → Bool) : Consumer τ ε (List α) := sepByFrom item sep

/-- A consumer that does not run out of fuel; the error `none` is kept for that. -/
def lift (c : Consumer τ ε α) : Consumer τ (Option ε) α := fun ts => (c ts).mapError some

/-- The value and the rest, without the proof that it is a suffix. -/
def run (c : Consumer τ ε α) (ts : List τ) : Except ε (α × List τ) :=
  (c ts).map fun x => (x.1, x.2.1)

variable {c c' : Consumer τ ε α} {f f' : α → Consumer τ ε β} {ts rest : List τ} {a : α} {n : Nat}

@[simp] theorem run_pure : (pure a : Consumer τ ε α).run ts = .ok (a, ts) := rfl

@[simp] theorem run_scan (g : List τ → Except ε (α × Nat)) :
    (scan g).run ts = (g ts).map fun x => (x.1, ts.drop x.2) := by
  rw [run, scan]
  cases g ts <;> rfl

@[simp] theorem run_fail (e : ε) : (fail e : Consumer τ ε α).run ts = .error e := rfl

@[simp] theorem run_choose (g : List τ → Consumer τ ε α) : (choose g).run ts = (g ts).run ts := rfl

@[simp] theorem run_bind : (c >>= f).run ts = (c.run ts).bind fun x => (f x.1).run x.2 := by
  change Except.map _ (match c ts with | .error e => _ | .ok (a, r) => _) = _
  rw [run]
  cases c ts with
  | error e => rfl
  | ok x =>
    obtain ⟨a, r⟩ := x
    change Except.map _ (match f a r.1 with | .error e => _ | .ok (b, rest') => _) =
      (f a).run r.1
    rw [run]
    cases f a r.1 <;> rfl

@[simp] theorem run_map (g : α → β) : (g <$> c).run ts = (c.run ts).map fun x => (g x.1, x.2) := by
  change (c >>= fun a => pure (g a)).run ts = _
  rw [run_bind]
  cases c.run ts <;> rfl

@[simp] theorem run_lift : (lift c).run ts = (c.run ts).mapError some := by
  rw [run, lift, run]
  cases c ts <;> rfl

attribute [local simp] Except.bind Except.map Except.mapError

/-- Where the value of a composed consumer comes from. -/
theorem run_bind_ok_iff {b : β} : (c >>= f).run ts = .ok (b, rest) ↔
    ∃ a rest', c.run ts = .ok (a, rest') ∧ (f a).run rest' = .ok (b, rest) := by
  rw [run_bind]
  cases c.run ts with
  | error e => simp
  | ok x => simp [Prod.ext_iff]

theorem run_lift_ok_iff : (lift c).run ts = .ok (a, rest) ↔ c.run ts = .ok (a, rest) := by
  rw [run_lift]
  cases c.run ts <;> simp

/-- One round of the loop over items. -/
theorem run_sepBy (i : Consumer τ ε α) (s : τ → Bool) :
    (sepBy i s).run ts = (i.run ts).bind fun x =>
      match x.2 with
      | [] => .ok ([x.1], [])
      | t :: rest =>
        if s t then ((sepBy i s).run rest).map fun y => (x.1 :: y.1, y.2)
        else .ok ([x.1], t :: rest) := by
  change Except.map _ (sepByFrom i s ts) = (Except.map _ (i ts)).bind _
  conv_lhs => rw [sepByFrom.eq_def]
  cases i ts with
  | error e => rfl
  | ok x =>
    obtain ⟨a, ⟨rest, h⟩⟩ := x
    cases rest with
    | nil => rfl
    | cons t rest =>
      change Except.map _ (if s t then _ else _) = if s t then _ else _
      split
      · simp only [run, sepBy]
        cases sepByFrom i s rest <;> rfl
      · rfl

/-- A list that is read begins with an item. -/
theorem sepBy_head {i : Consumer τ ε α} {s : τ → Bool} {l : List α}
    (h : (sepBy i s).run ts = .ok (l, rest)) :
    ∃ a rest' more, i.run ts = .ok (a, rest') ∧ l = a :: more := by
  rw [run_sepBy] at h
  cases hi : i.run ts with
  | error e => simp [hi] at h
  | ok x =>
    obtain ⟨a, rest'⟩ := x
    refine ⟨a, rest', l.tail, rfl, ?_⟩
    rw [hi] at h
    cases rest' with
    | nil =>
      cases h
      rfl
    | cons t rest' =>
      simp only [Except.bind] at h
      split at h
      · cases hr : (sepBy i s).run rest' with
        | error e => simp [hr] at h
        | ok y =>
          simp only [hr, Except.map, Except.ok.injEq, Prod.mk.injEq] at h
          rw [← h.1, List.tail_cons]
      · cases h
        rfl

/-- What is left is a suffix of the input. -/
theorem run_suffix (h : c.run ts = .ok (a, rest)) : rest <:+ ts := by
  rw [run] at h
  cases hc : c ts with
  | error e => simp [hc] at h
  | ok x =>
    obtain ⟨b, r', hr⟩ := x
    simp only [hc, Except.map, Except.ok.injEq, Prod.mk.injEq] at h
    exact h.2 ▸ hr

/-! ## Values -/

/-- Whatever a consumer returns has a property. -/
def Returns (P : α → Prop) (c : Consumer τ ε α) : Prop :=
  ∀ ts a rest, c.run ts = .ok (a, rest) → P a

protected theorem Returns.pure {P : α → Prop} (h : P a) : Returns P (pure a : Consumer τ ε α) := by
  rintro ts _ _ ⟨⟩
  exact h

protected theorem Returns.fail {P : α → Prop} (e : ε) : Returns P (fail e : Consumer τ ε α) :=
  fun _ _ _ h => by cases h

theorem Returns.bind {P : β → Prop} (h : ∀ a, Returns P (f a)) : Returns P (c >>= f) := by
  intro ts b rest hrun
  obtain ⟨a, rest', -, hrest⟩ := run_bind_ok_iff.1 hrun
  exact h a _ _ _ hrest

protected theorem Returns.lift {P : α → Prop} (h : Returns P c) : Returns P (lift c) :=
  fun _ _ _ hrun => h _ _ _ (run_lift_ok_iff.1 hrun)

/-! ## Progress -/

/-- The consumer takes a token where there is one. -/
def Advances (c : Consumer τ ε α) : Prop :=
  ∀ ts a rest, ts ≠ [] → c.run ts = .ok (a, rest) → rest.length < ts.length

protected theorem Advances.scan {g : List τ → Except ε (α × Nat)}
    (h : ∀ ts x, g ts = .ok x → 0 < x.2) :
    Advances (scan g) := by
  intro ts a rest hne hrun
  cases hg : g ts with
  | error e => simp [hg] at hrun
  | ok x =>
    obtain ⟨-, rfl⟩ : x.1 = a ∧ ts.drop x.2 = rest := by simpa [hg] using hrun
    have := h ts x hg
    have := List.length_pos_iff.2 hne
    rw [List.length_drop]
    omega

/-- A consumer that begins with one that advances does so. -/
theorem Advances.bind (hc : Advances c) : Advances (c >>= f) := by
  intro ts b r hn h
  cases hr : c.run ts with
  | error e => simp [hr] at h
  | ok x =>
    have hre : (f x.1).run x.2 = .ok (b, r) := by simpa [hr] using h
    exact (run_suffix hre).length_le.trans_lt (hc _ _ _ hn hr)

protected theorem Advances.lift (hc : Advances c) : Advances (lift c) := by
  intro ts a r hn h
  cases hr : c.run ts with
  | error e => simp [hr] at h
  | ok x =>
    obtain ⟨rfl, rfl⟩ : x.1 = a ∧ x.2 = r := by simpa [hr, Prod.ext_iff] using h
    exact hc _ _ _ hn hr

protected theorem Advances.choose {g : List τ → Consumer τ ε α} (h : ∀ ts, Advances (g ts)) :
    Advances (choose g) :=
  fun ts a r hn hr => h ts ts a r hn hr

/-! ## Fuel -/

section Settled

variable {c c' : Consumer τ (Option ε) α} {f f' : α → Consumer τ (Option ε) β}

/-- On inputs of at most `n` tokens, the consumers agree and do not run out of fuel. -/
def Settled (n : Nat) (c c' : Consumer τ (Option ε) α) : Prop :=
  ∀ ts, ts.length ≤ n → c.run ts = c'.run ts ∧ c.run ts ≠ .error none

protected theorem Settled.lift (c : Consumer τ ε α) : Settled n (lift c) (lift c) := by
  refine fun ts _ => ⟨rfl, ?_⟩
  rw [run_lift]
  cases c.run ts <;> simp

protected theorem Settled.pure (a : α) : Settled n (pure a : Consumer τ (Option ε) α) (pure a) :=
  fun _ _ => ⟨rfl, nofun⟩

/-- One input is settled if its parts are. -/
theorem Settled.bind_at (hc : c.run ts = c'.run ts ∧ c.run ts ≠ .error none)
    (hf : ∀ a rest, c.run ts = .ok (a, rest) →
      (f a).run rest = (f' a).run rest ∧ (f a).run rest ≠ .error none) :
    (c >>= f).run ts = (c' >>= f').run ts ∧ (c >>= f).run ts ≠ .error none := by
  rw [run_bind, run_bind, ← hc.1]
  cases hr : c.run ts with
  | error e => exact ⟨rfl, fun h => hc.2 (by rw [hr, Except.error.inj h])⟩
  | ok x => exact hf x.1 x.2 hr

/-- Fuel that suffices for the parts suffices for the whole. -/
theorem Settled.bind (hc : Settled n c c') (hf : ∀ a, Settled n (f a) (f' a)) :
    Settled n (c >>= f) (c' >>= f') :=
  fun ts ht => bind_at (hc ts ht) fun a _ h =>
    hf a _ ((run_suffix h).length_le.trans ht)

/-- After a consumer that advances, the next may have less fuel. -/
theorem Settled.bind_of_advances (ha : Advances c) (hc : Settled (n + 1) c c')
    (hf : ∀ a, Settled n (f a) (f' a)) : Settled (n + 1) (c >>= f) (c' >>= f') := by
  refine fun ts ht => bind_at (hc ts ht) fun a r h => hf a r ?_
  by_cases hn : ts = []
  · subst hn
    simp [List.suffix_nil.1 (run_suffix h)]
  · exact Nat.le_of_lt_succ ((ha _ _ _ hn h).trans_le ht)

/-- The loop over items needs no more fuel than an item. -/
protected theorem Settled.sepBy {sep : τ → Bool} (hc : Settled n c c') :
    Settled n (sepBy c sep) (sepBy c' sep) := by
  intro ts
  induction hl : ts.length using Nat.strong_induction_on generalizing ts with
  | _ k ih =>
    intro ht
    subst hl
    obtain ⟨heq, hn⟩ := hc ts ht
    rw [run_sepBy, run_sepBy, ← heq]
    cases hru : c.run ts with
    | error e => exact ⟨rfl, fun h => hn (by rw [hru, Except.error.inj h])⟩
    | ok x =>
      obtain ⟨a, r⟩ := x
      have hle := (run_suffix hru).length_le
      cases r with
      | nil => exact ⟨rfl, nofun⟩
      | cons t r =>
        rw [List.length_cons] at hle
        obtain ⟨heq', hn'⟩ := ih r.length (by omega) r rfl (by omega)
        simp only [Except.bind]
        split
        · rw [← heq']
          refine ⟨rfl, fun h => hn' ?_⟩
          cases hr : run (sepBy c sep) r with
          | error e => simpa [hr] using h
          | ok y => simp [hr] at h
        · exact ⟨rfl, nofun⟩

protected theorem Settled.choose {g g' : List τ → Consumer τ (Option ε) α}
    (h : ∀ ts, Settled n (g ts) (g' ts)) :
    Settled n (choose g) (choose g') :=
  fun ts ht => h ts ts ht

end Settled

end Consumer
