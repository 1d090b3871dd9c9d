/-!
# Tables

A table holds values under keys and remembers the order in which the keys first came in. A later value for a key that is
already there takes the place of the earlier one; the key keeps the form and the position it first had.

Keys are compared by `==`, so the key type decides which keys are one.
-/

namespace ServiceMap

/-- Values under keys, in the order in which the keys came in. -/
structure Table (κ α : Type) where
  entries : List (κ × α)
deriving Repr, DecidableEq

namespace Table

variable {κ α β : Type}

def empty : Table κ α := ⟨[]⟩

def keys (t : Table κ α) : List κ := t.entries.map (·.1)

def values (t : Table κ α) : List α := t.entries.map (·.2)

def size (t : Table κ α) : Nat := t.entries.length

def map (f : α → β) (t : Table κ α) : Table κ β := ⟨t.entries.map fun (k, a) => (k, f a)⟩

section Keyed

variable [BEq κ]

def get? (t : Table κ α) (k : κ) : Option α := (t.entries.find? (·.1 == k)).map (·.2)

def contains (t : Table κ α) (k : κ) : Bool := t.entries.any (·.1 == k)

/-- Entries in which what a key holds, if anything, has become what `change` makes of it. -/
def alterEntries (k : κ) (change : Option α → α) : List (κ × α) → List (κ × α)
  | [] => [(k, change none)]
  | (key, a) :: rest =>
    if key == k then (key, change (some a)) :: rest else (key, a) :: alterEntries k change rest

/-- The table in which what a key holds, if anything, has become what `change` makes of it. -/
def alter (t : Table κ α) (k : κ) (change : Option α → α) : Table κ α := ⟨alterEntries k change t.entries⟩

def insert (t : Table κ α) (k : κ) (a : α) : Table κ α := t.alter k fun _ => a

def erase (t : Table κ α) (k : κ) : Table κ α := ⟨t.entries.filter fun entry => !entry.1 == k⟩

/-- The table in which the entries of a list have come in one after the other. -/
def ofList (entries : List (κ × α)) : Table κ α := entries.foldl (fun t entry => t.insert entry.1 entry.2) empty

theorem entries_alter_of_not_contains {t : Table κ α} {k : κ} (hnew : t.contains k = false) (change : Option α → α) :
    (t.alter k change).entries = t.entries ++ [(k, change none)] := by
  obtain ⟨entries⟩ := t
  change alterEntries k change entries = _
  induction entries with
  | nil => rfl
  | cons entry rest ih =>
    obtain ⟨key, a⟩ := entry
    obtain ⟨hne, hrest⟩ := Bool.or_eq_false_iff.mp hnew
    rw [alterEntries, if_neg (by simpa using hne), ih hrest]
    rfl

/-- Entries whose keys are different ones stay as they are. -/
theorem entries_ofList_of_pairwise {entries : List (κ × α)} (h : entries.Pairwise fun a b => (a.1 == b.1) = false) :
    (ofList entries).entries = entries := by
  have key : ∀ t : Table κ α, (t.entries ++ entries).Pairwise (fun a b => (a.1 == b.1) = false) →
      (entries.foldl (fun t entry => t.insert entry.1 entry.2) t).entries = t.entries ++ entries := by
    clear h
    induction entries with
    | nil => exact fun t _ => (List.append_nil _).symm
    | cons entry rest ih =>
      intro t hdifferent
      have hnew : t.contains entry.1 = false := by
        obtain ⟨-, -, hentry⟩ := List.pairwise_append.mp hdifferent
        exact List.any_eq_false.mpr fun other hother => by simp [hentry other hother entry List.mem_cons_self]
      have hinsert : (t.insert entry.1 entry.2).entries = t.entries ++ [entry] := entries_alter_of_not_contains hnew _
      rw [List.foldl_cons, ih, hinsert, List.append_assoc, List.singleton_append]
      rwa [hinsert, List.append_assoc, List.singleton_append]
  exact key empty h

end Keyed

@[simp] theorem length_keys (t : Table κ α) : t.keys.length = t.size := List.length_map _

/-! ### What a change does to keys and values -/

section Lawful

variable [BEq κ] [LawfulBEq κ]

@[simp] theorem contains_iff_mem_keys (t : Table κ α) (k : κ) : t.contains k = true ↔ k ∈ t.keys := by
  simp [contains, keys]

private theorem keys_alterEntries (k : κ) (change : Option α → α) (entries : List (κ × α)) :
    (alterEntries k change entries).map (·.1) =
      if k ∈ entries.map (·.1) then entries.map (·.1) else entries.map (·.1) ++ [k] := by
  induction entries with
  | nil => simp [alterEntries]
  | cons entry rest ih =>
    obtain ⟨key, a⟩ := entry
    by_cases h : key = k
    · simp [alterEntries, h]
    · have hne : k ≠ key := fun e => h e.symm
      by_cases hmem : k ∈ rest.map (·.1) <;> simp_all [alterEntries]

/-- A key that is there keeps its place; a new key comes in last. -/
theorem keys_alter (t : Table κ α) (k : κ) (change : Option α → α) :
    (t.alter k change).keys = if k ∈ t.keys then t.keys else t.keys ++ [k] :=
  keys_alterEntries k change t.entries

private theorem find_alterEntries_self (k : κ) (change : Option α → α) (entries : List (κ × α)) :
    ((alterEntries k change entries).find? (·.1 == k)).map (·.2) =
      some (change ((entries.find? (·.1 == k)).map (·.2))) := by
  induction entries with
  | nil => simp [alterEntries]
  | cons entry rest ih =>
    obtain ⟨key, a⟩ := entry
    by_cases h : key = k <;> simp [alterEntries, h, ih]

@[simp] theorem get?_alter_self (t : Table κ α) (k : κ) (change : Option α → α) :
    (t.alter k change).get? k = some (change (t.get? k)) :=
  find_alterEntries_self k change t.entries

private theorem find_alterEntries_of_ne {k k' : κ} (hne : k ≠ k') (change : Option α → α)
    (entries : List (κ × α)) :
    (alterEntries k change entries).find? (·.1 == k') = entries.find? (·.1 == k') := by
  induction entries with
  | nil => simp [alterEntries, hne]
  | cons entry rest ih =>
    obtain ⟨key, a⟩ := entry
    by_cases h : key = k
    · subst h
      simp [alterEntries, hne]
    · rw [alterEntries, if_neg (by simp [h]), List.find?_cons, List.find?_cons, ih]

theorem get?_alter_of_ne {k k' : κ} (hne : k ≠ k') (t : Table κ α) (change : Option α → α) :
    (t.alter k change).get? k' = t.get? k' := by
  simp [get?, alter, find_alterEntries_of_ne hne]

/-- A key that is not there comes in last, with what `change` makes of nothing. -/
theorem entries_alter_of_not_mem {t : Table κ α} {k : κ} (hnew : k ∉ t.keys) (change : Option α → α) :
    (t.alter k change).entries = t.entries ++ [(k, change none)] := by
  apply entries_alter_of_not_contains
  rwa [← Bool.not_eq_true, contains_iff_mem_keys]

theorem entries_insert_of_not_mem {t : Table κ α} {k : κ} (hnew : k ∉ t.keys) (a : α) :
    (t.insert k a).entries = t.entries ++ [(k, a)] :=
  entries_alter_of_not_mem hnew _

theorem keys_insert_of_not_mem {t : Table κ α} {k : κ} (hnew : k ∉ t.keys) (a : α) :
    (t.insert k a).keys = t.keys ++ [k] := by
  simp [keys, entries_insert_of_not_mem hnew]

theorem entries_ofList {entries : List (κ × α)} (hnodup : (entries.map (·.1)).Nodup) :
    (ofList entries).entries = entries := by
  apply entries_ofList_of_pairwise
  rw [List.nodup_iff_pairwise_ne, List.pairwise_map] at hnodup
  exact hnodup.imp fun hne => beq_eq_false_iff_ne.mpr hne

@[simp] theorem get?_insert_self (t : Table κ α) (k : κ) (a : α) : (t.insert k a).get? k = some a :=
  get?_alter_self t k _

theorem get?_insert_of_ne {k k' : κ} (hne : k ≠ k') (t : Table κ α) (a : α) :
    (t.insert k a).get? k' = t.get? k' :=
  get?_alter_of_ne hne t _

theorem nodup_keys_alter {t : Table κ α} (hnodup : t.keys.Nodup) (k : κ) (change : Option α → α) :
    (t.alter k change).keys.Nodup := by
  rw [keys_alter]
  split
  · exact hnodup
  · rename_i hnew
    rw [List.nodup_append]
    refine ⟨hnodup, List.nodup_cons.mpr ⟨List.not_mem_nil, List.nodup_nil⟩, fun a ha b hb hab => ?_⟩
    rw [List.mem_singleton] at hb
    exact hnew (hb ▸ hab ▸ ha)

/-- What is under a key is the value of the first entry with the key. -/
theorem get?_cons (key : κ) (a : α) (rest : List (κ × α)) (k : κ) :
    (⟨(key, a) :: rest⟩ : Table κ α).get? k = if key == k then some a else (⟨rest⟩ : Table κ α).get? k := by
  by_cases h : key = k <;> simp [get?, h]

theorem get?_eq_none_iff {t : Table κ α} {k : κ} : t.get? k = none ↔ k ∉ t.keys := by
  simp only [get?, keys, Option.map_eq_none_iff, List.find?_eq_none, List.mem_map, beq_iff_eq]
  exact ⟨fun h ⟨entry, hmem, he⟩ => h entry hmem he, fun h entry hmem he => h ⟨entry, hmem, he⟩⟩

/-- Where no key occurs twice, every entry is found under its key. -/
theorem get?_eq_some_iff {t : Table κ α} (hnodup : t.keys.Nodup) {k : κ} {a : α} :
    t.get? k = some a ↔ (k, a) ∈ t.entries := by
  obtain ⟨entries⟩ := t
  induction entries with
  | nil => simp [get?]
  | cons entry rest ih =>
    obtain ⟨key, b⟩ := entry
    obtain ⟨hkey, hrest⟩ := List.nodup_cons.mp hnodup
    rw [get?_cons]
    by_cases h : key = k
    · subst h
      have hout : (key, a) ∉ rest := fun hmem => hkey (List.mem_map.mpr ⟨_, hmem, rfl⟩)
      simp [hout, eq_comm]
    · simp [h, ih hrest, Ne.symm h]

/-- A table is known by its keys, in order, and by what is under them. -/
theorem entries_eq_map_keys {t : Table κ α} (hnodup : t.keys.Nodup) (default : α) :
    t.entries = t.keys.map fun k => (k, (t.get? k).getD default) := by
  simp only [keys, List.map_map]
  refine (List.map_id _).symm.trans (List.map_congr_left fun entry hmem => ?_)
  obtain ⟨k, a⟩ := entry
  simp [(get?_eq_some_iff hnodup).mpr hmem]

omit [LawfulBEq κ] in
@[simp] theorem keys_erase (t : Table κ α) (k : κ) : (t.erase k).keys = t.keys.filter fun key => !key == k := by
  simp [keys, erase, List.filter_map, Function.comp_def]

theorem get?_erase_self (t : Table κ α) (k : κ) : (t.erase k).get? k = none := by
  rw [get?_eq_none_iff]
  simp

theorem get?_erase_of_ne {k k' : κ} (hne : k ≠ k') (t : Table κ α) : (t.erase k).get? k' = t.get? k' := by
  simp only [get?, erase, List.find?_filter]
  congr 2
  funext entry
  by_cases h : entry.1 = k'
  · simp [h, Ne.symm hne]
  · simp [h]

end Lawful

end Table

end ServiceMap
