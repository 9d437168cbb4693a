import DotMatrix.Snapshot.Layout

/-! When a chain of checks passes. -/
namespace DotMatrix
variable {ε ε' α β : Type}

theorem Except.bind_eq_ok {first : Except ε α} {second : α → Except ε β} {b : β} :
    first >>= second = .ok b ↔ ∃ a, first = .ok a ∧ second a = .ok b := by
  cases first with
  | error e =>
    constructor
    · intro h
      cases h
    · rintro ⟨_, h, _⟩
      cases h
  | ok a =>
    constructor
    · intro h
      exact ⟨a, rfl, h⟩
    · rintro ⟨_, h, h'⟩
      cases h
      exact h'

section Chain
variable {f : α → β → Except ε α} {start last : α} {rest : List β} {P : α → Prop}

theorem Except.foldlM_append_eq_ok {first : List β} :
    (first ++ rest).foldlM f start = .ok last ↔
      ∃ middle, first.foldlM f start = .ok middle ∧ rest.foldlM f middle = .ok last := by
  rw [List.foldlM_append, bind_eq_ok]

theorem Except.foldlM_cons_eq_ok {b : β} :
    (b :: rest).foldlM f start = .ok last ↔
      ∃ middle, f start b = .ok middle ∧ rest.foldlM f middle = .ok last := by
  rw [List.foldlM_cons, bind_eq_ok]

theorem Except.foldlM_snoc_eq_ok {first : List β} {b : β} :
    (first ++ [b]).foldlM f start = .ok last ↔
      ∃ middle, first.foldlM f start = .ok middle ∧ f middle b = .ok last := by
  rw [foldlM_append_eq_ok]
  simp only [List.foldlM_cons, List.foldlM_nil, bind_pure]

theorem Except.foldlM_keeps
    (keeps : ∀ b ∈ rest, ∀ a next, P a → f a b = .ok next → P next)
    (h : P start) (runs : rest.foldlM f start = .ok last) : P last := by
  induction rest generalizing start with
  | nil =>
    cases runs
    exact h
  | cons b rest ih =>
    obtain ⟨middle, goes, runs⟩ := foldlM_cons_eq_ok.mp runs
    have kept := keeps b List.mem_cons_self start middle h goes
    exact ih (fun b inside => keeps b (List.mem_cons_of_mem _ inside)) kept runs

end Chain

@[simp] theorem Except.andThen_eq_ok {first : Except ε Unit} {second : Unit → Except ε Unit} :
    first >>= second = .ok () ↔ first = .ok () ∧ second () = .ok () := by
  rw [bind_eq_ok]
  constructor
  · rintro ⟨_, h⟩
    exact h
  · intro h
    exact ⟨_, h⟩

theorem Except.map_eq_ok {f : α → β} {result : Except ε α} {b : β} :
    result.map f = .ok b ↔ ∃ a, result = .ok a ∧ f a = b := by
  cases result with
  | error e =>
    constructor
    · intro h
      cases h
    · rintro ⟨_, h, _⟩
      cases h
  | ok a =>
    constructor
    · intro h
      cases h
      exact ⟨a, rfl, rfl⟩
    · rintro ⟨_, h, rfl⟩
      cases h
      rfl

@[simp] theorem Except.mapError_eq_ok {f : ε → ε'} {result : Except ε α} {a : α} :
    result.mapError f = .ok a ↔ result = .ok a := by
  cases result with
  | error e =>
    constructor
    · intro h
      cases h
    · intro h
      cases h
  | ok b =>
    constructor
    · intro h
      cases h
      rfl
    · intro h
      cases h
      rfl

@[simp] theorem require_eq_ok {condition : Bool} {flaw : ε} :
    require condition flaw = .ok () ↔ condition = true := by
  cases condition <;> simp [require]

end DotMatrix
