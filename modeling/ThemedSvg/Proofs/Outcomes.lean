/-
# Outcomes of readers

Readers answer with a result or with a fault. When a composed reader succeeds, so
did each of its parts; the proofs about reading take it apart with these laws.
-/

namespace ThemedSvg

variable {ε α β : Type}

theorem map_eq_ok {f : α → β} {x : Except ε α} {b : β} :
    x.map f = .ok b ↔ ∃ a, x = .ok a ∧ f a = b := by
  cases x with
  | error fault => simp [Except.map]
  | ok a => simp [Except.map]

theorem bind_eq_ok {f : α → Except ε β} {x : Except ε α} {b : β} :
    x >>= f = .ok b ↔ ∃ a, x = .ok a ∧ f a = .ok b := by
  cases x with
  | error fault => simp [bind, Except.bind]
  | ok a => simp [bind, Except.bind]

theorem bind_eq_error {f : α → Except ε β} {x : Except ε α} {fault : ε} :
    x >>= f = .error fault ↔ x = .error fault ∨ ∃ a, x = .ok a ∧ f a = .error fault := by
  cases x with
  | error fault' => simp [bind, Except.bind]
  | ok a => simp [bind, Except.bind]

@[simp]
theorem ok_bind (a : α) (f : α → Except ε β) : (Except.ok a >>= f) = f a := rfl

@[simp]
theorem error_bind (fault : ε) (f : α → Except ε β) :
    (Except.error fault >>= f) = .error fault := rfl

/-- A run over a list succeeds if its first step and the run from there on do. -/
theorem foldlM_cons_eq_ok {f : β → α → Except ε β} {start stop : β} {first : α}
    {rest : List α} :
    (first :: rest).foldlM f start = .ok stop ↔
      ∃ next, f start first = .ok next ∧ rest.foldlM f next = .ok stop := by
  rw [List.foldlM_cons, bind_eq_ok]

/-- A run over a list succeeds if the run over each part of it does, one after the other. -/
theorem foldlM_append_eq_ok {f : β → α → Except ε β} {start stop : β} {first second : List α} :
    (first ++ second).foldlM f start = .ok stop ↔
      ∃ next, first.foldlM f start = .ok next ∧ second.foldlM f next = .ok stop := by
  rw [List.foldlM_append, bind_eq_ok]

/-- A run over a list fails at one of its items, and succeeds up to there. -/
theorem exists_of_foldlM_eq_error {f : β → α → Except ε β} {start : β} {items : List α}
    {fault : ε} (fails : items.foldlM f start = .error fault) :
    ∃ before item after state, items = before ++ item :: after ∧
      before.foldlM f start = .ok state ∧ f state item = .error fault := by
  induction items generalizing start with
  | nil => cases fails
  | cons item rest ih =>
      rw [List.foldlM_cons] at fails
      cases first : f start item with
      | error fault' =>
          rw [first] at fails
          cases fails
          exact ⟨[], item, rest, start, rfl, rfl, first⟩
      | ok next =>
          rw [first, ok_bind] at fails
          obtain ⟨before, item', after, state, rfl, succeeds, fails⟩ := ih fails
          exact ⟨item :: before, item', after, state, rfl,
            foldlM_cons_eq_ok.mpr ⟨next, first, succeeds⟩, fails⟩

/-- A run over a list of which no step fails is a run without outcomes. -/
theorem foldlM_eq_ok {f : β → α → Except ε β} {g : β → α → β} {items : List α}
    (succeeds : ∀ state, ∀ item ∈ items, f state item = .ok (g state item)) {start : β} :
    items.foldlM f start = .ok (items.foldl g start) := by
  induction items generalizing start with
  | nil => rfl
  | cons item rest ih =>
      rw [List.foldlM_cons, succeeds start item List.mem_cons_self, ok_bind,
        ih fun state other member => succeeds state other (List.mem_cons_of_mem _ member),
        List.foldl_cons]

end ThemedSvg
