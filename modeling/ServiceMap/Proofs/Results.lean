import ServiceMap.Span.Fields

/-!
# Results

What is said of results: that there is one and it has a property, that it has the property if there is one, and that two
results come to the same because either both are there and equal or both records are passed over.
-/

namespace ServiceMap

theorem mapM_eq_ok {ε α β : Type} {f : α → Except ε β} {g : α → β} {l : List α} (h : ∀ a ∈ l, f a = .ok (g a)) :
    l.mapM f = .ok (l.map g) := by
  induction l with
  | nil => rfl
  | cons a l ih =>
    rw [List.mapM_cons, h a List.mem_cons_self, ih fun b hb => h b (List.mem_cons_of_mem _ hb)]
    rfl

/-! ### What holds of a result -/

/-- If there is a result, then it has the property. -/
def Yields {α : Type} (P : α → Prop) (result : Except Failure α) : Prop := ∀ a, result = .ok a → P a

namespace Yields

variable {α β : Type} {P : α → Prop}

theorem error (e : Failure) : Yields P (.error e) := by
  intro a h
  cases h

theorem ok {a : α} (h : P a) : Yields P (.ok a) := by
  intro b hb
  cases hb
  exact h

theorem bind {first : Except Failure β} {next : β → Except Failure α} (h : ∀ b, Yields P (next b)) :
    Yields P (first >>= next) := by
  cases first with
  | error e => exact error e
  | ok b => exact h b

theorem nil : Yields (∀ a ∈ ·, P a) (.ok []) := ok fun _ h => absurd h List.not_mem_nil

theorem append {first second : Except Failure (List α)} (hfirst : Yields (∀ a ∈ ·, P a) first)
    (hsecond : Yields (∀ a ∈ ·, P a) second) : Yields (∀ a ∈ ·, P a) (do return (← first) ++ (← second)) := by
  cases first with
  | error e => exact error e
  | ok l =>
    cases second with
    | error e => exact error e
    | ok l' => exact ok (List.forall_mem_append.mpr ⟨hfirst l rfl, hsecond l' rfl⟩)

theorem map_append {l : List α} {rest : Except Failure (List α)} (hl : ∀ a ∈ l, P a)
    (hrest : Yields (∀ a ∈ ·, P a) rest) : Yields (∀ a ∈ ·, P a) (rest.map (l ++ ·)) := by
  cases rest with
  | error e => exact error e
  | ok l' => exact ok (List.forall_mem_append.mpr ⟨hl, hrest l' rfl⟩)

theorem orSkip {record : Except Failure α} (h : Yields P record) : Yields (∀ a ∈ ·, P a) (orSkip record) := by
  cases record with
  | ok a =>
    apply ok
    intro b hb
    rw [List.mem_singleton.mp hb]
    exact h a rfl
  | error e =>
    simp only [ServiceMap.orSkip]
    split
    · exact nil
    · exact error e

end Yields

/-! ### Results that come to the same -/

/-- The results are the same, or both of them say that the record is passed over. -/
inductive Alike {α : Type} : Except Failure α → Except Failure α → Prop where
  | same (result : Except Failure α) : Alike result result
  | skipped {e e' : Failure} (he : e.skipsRecord = true) (he' : e'.skipsRecord = true) : Alike (.error e) (.error e')

namespace Alike

variable {α β : Type}

theorem bind {first first' : Except Failure α} {next next' : α → Except Failure β} (h : Alike first first')
    (hnext : ∀ a, Alike (next a) (next' a)) : Alike (first >>= next) (first' >>= next') := by
  cases h with
  | same =>
    cases first with
    | error e => exact .same _
    | ok a => exact hnext a
  | skipped he he' => exact .skipped he he'

theorem guarded {result result' : Except Failure α} (h : Alike result result') (fails : Bool) (e : Failure) :
    Alike (if fails then .error e else result) (if fails then .error e else result') := by
  split
  · exact .same _
  · exact h

theorem mapM_map {read : Json → Except Failure α} {f g : Json → Json} {items : List Json}
    (h : ∀ item ∈ items, Alike (read (f item)) (read (g item))) :
    Alike ((items.map f).mapM read) ((items.map g).mapM read) := by
  induction items with
  | nil => exact .same _
  | cons item items ih =>
    rw [List.forall_mem_cons] at h
    rw [List.map_cons, List.map_cons, List.mapM_cons, List.mapM_cons]
    exact h.1.bind fun a => (ih h.2).bind fun rest => .same _

theorem orSkip_eq {record record' : Except Failure α} (h : Alike record record') :
    orSkip record = orSkip record' := by
  cases h with
  | same => rfl
  | skipped he he' => rw [orSkip, orSkip, if_pos he, if_pos he']

end Alike

end ServiceMap
