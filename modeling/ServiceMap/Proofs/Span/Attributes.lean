import Mathlib.Data.List.Induction
import ServiceMap.Proofs.Span.Concatenated
import ServiceMap.Span.Attributes

/-!
# Attributes in parts

A list of attributes is read from left to right into a table, and what an attribute adds does not depend on the table. So
a list can be read in parts: the table of the whole is the table of the first part, updated by that of the second one. An
update leaves the keys where and as they are and gives them their new values; new keys come in behind, in order. It is
the same whether a table is updated by another one or by the entries that the other one was made of.
-/

namespace ServiceMap

/-! ### Updates of tables -/

namespace Table

variable {κ α : Type} [BEq κ]

/-- The table in which keys have the value that another table has for them, if it has one, and the other keys of that
table have come in behind. -/
def updatedBy (t u : Table κ α) : Table κ α :=
  ⟨t.entries.map (fun entry => (entry.1, (u.get? entry.1).getD entry.2)) ++
    u.entries.filter fun entry => !t.contains entry.1⟩

/-- The table in which some entries have come in one after the other. -/
def insertAll (t : Table κ α) (entries : List (κ × α)) : Table κ α :=
  entries.foldl (fun t entry => t.insert entry.1 entry.2) t

/-- No two entries have equal keys. -/
def IsKeyed (t : Table κ α) : Prop := t.entries.Pairwise fun a b => (a.1 == b.1) = false

theorem alterEntries_append (k : κ) (change : Option α → α) (l l' : List (κ × α)) :
    alterEntries k change (l ++ l') =
      if l.any (·.1 == k) then alterEntries k change l ++ l' else l ++ alterEntries k change l' := by
  induction l with
  | nil => rfl
  | cons entry l ih =>
    by_cases h : entry.1 == k
    · simp [alterEntries, h]
    · rw [List.cons_append, alterEntries, alterEntries, if_neg h, if_neg h, ih, List.any_cons, Bool.eq_false_iff.mpr h,
        Bool.false_or]
      split <;> rfl

theorem mem_alterEntries {k : κ} {change : Option α → α} {l : List (κ × α)} {entry : κ × α}
    (h : entry ∈ alterEntries k change l) : entry.1 ∈ l.map (·.1) ∨ entry.1 = k := by
  induction l with
  | nil =>
    rw [List.mem_singleton.mp h]
    exact .inr rfl
  | cons first l ih =>
    rw [List.map_cons, List.mem_cons]
    rw [alterEntries] at h
    split at h <;> rcases List.mem_cons.mp h with rfl | h
    · exact .inl (.inl rfl)
    · exact .inl (.inr (List.mem_map_of_mem h))
    · exact .inl (.inl rfl)
    · exact (ih h).imp_left .inr

/-- A key passes through a filter of keys before or after it gets its value. -/
theorem filter_alterEntries {p : κ → Bool} (hp : ∀ {j k}, j == k → p j = p k) (k : κ) (change : Option α → α)
    (l : List (κ × α)) : (alterEntries k change l).filter (p ·.1) =
      if p k then alterEntries k change (l.filter (p ·.1)) else l.filter (p ·.1) := by
  induction l with
  | nil => cases h : p k <;> simp [alterEntries, h]
  | cons entry l ih =>
    rw [alterEntries]
    split
    · rename_i hkey
      cases h : p k <;> simp [alterEntries, hp hkey, h, hkey]
    · rename_i hkey
      cases hentry : p entry.1 <;> cases h : p k <;> simp [alterEntries, hentry, h, hkey, ih]

variable {t : Table κ α}

theorem IsKeyed.insert (h : t.IsKeyed) (k : κ) (a : α) : (t.insert k a).IsKeyed := by
  obtain ⟨entries⟩ := t
  change (alterEntries k _ entries).Pairwise _
  induction entries with
  | nil => exact List.pairwise_singleton _ _
  | cons entry entries ih =>
    obtain ⟨hentry, hentries⟩ := List.pairwise_cons.mp h
    rw [alterEntries]
    split
    · exact List.pairwise_cons.mpr ⟨hentry, hentries⟩
    · rename_i hne
      refine List.pairwise_cons.mpr ⟨fun other hother => ?_, ih hentries⟩
      rcases mem_alterEntries hother with hold | rfl
      · obtain ⟨same, hsame, heq⟩ := List.mem_map.mp hold
        exact heq ▸ hentry same hsame
      · exact Bool.eq_false_iff.mpr hne

theorem IsKeyed.insertAll (h : t.IsKeyed) (entries : List (κ × α)) : (t.insertAll entries).IsKeyed := by
  induction entries generalizing t with
  | nil => exact h
  | cons entry entries ih => exact ih (h.insert entry.1 entry.2)

variable [EquivBEq κ]

theorem contains_congr {j k : κ} (h : j == k) (t : Table κ α) : t.contains j = t.contains k := by
  simp only [contains, BEq.congr_right h]

theorem get?_insert (t : Table κ α) (k j : κ) (a : α) :
    (t.insert k a).get? j = if k == j then some a else t.get? j := by
  obtain ⟨entries⟩ := t
  simp only [get?, insert, alter]
  induction entries with
  | nil => cases h : k == j <;> simp [alterEntries, h]
  | cons entry entries ih =>
    rw [alterEntries]
    split
    · rename_i hkey
      rw [List.find?_cons, List.find?_cons, BEq.congr_left hkey]
      cases h : k == j <;> simp
    · rename_i hkey
      rw [List.find?_cons, List.find?_cons]
      cases h : entry.1 == j with
      | true =>
        have hkj : (k == j) = false := by
          rw [Bool.eq_false_iff]
          exact fun hkj => hkey (BEq.trans h (BEq.symm hkj))
        simp [hkj]
      | false => exact ih

/-- Where no two entries have equal keys, a new value for a key goes to the one entry with the key. -/
theorem alterEntries_map {k : κ} {a : α} {value : κ × α → α} {l : List (κ × α)}
    (hkeyed : l.Pairwise fun a b => (a.1 == b.1) = false) (hmem : l.any (·.1 == k) = true) :
    alterEntries k (fun _ => a) (l.map fun entry => (entry.1, value entry)) =
      l.map fun entry => (entry.1, if k == entry.1 then a else value entry) := by
  induction l with
  | nil => simp at hmem
  | cons entry l ih =>
    obtain ⟨hentry, hrest⟩ := List.pairwise_cons.mp hkeyed
    rw [List.map_cons, List.map_cons, alterEntries, BEq.comm (a := k)]
    split
    · rename_i hkey
      congr 1
      apply List.map_congr_left
      intro other hother
      rw [BEq.congr_left (BEq.symm hkey), hentry other hother, if_neg Bool.false_ne_true]
    · rename_i hkey
      rw [List.any_cons, Bool.eq_false_iff.mpr hkey, Bool.false_or] at hmem
      rw [ih hrest hmem]

/-- An entry may come in after the update or before it. -/
theorem IsKeyed.insert_updatedBy (h : t.IsKeyed) (u : Table κ α) (k : κ) (a : α) :
    (t.updatedBy u).insert k a = t.updatedBy (u.insert k a) := by
  have hnew : ((u.insert k a).entries.filter fun entry => !t.contains entry.1) =
      if !t.contains k then alterEntries k (fun _ => a) (u.entries.filter fun entry => !t.contains entry.1)
      else u.entries.filter fun entry => !t.contains entry.1 :=
    filter_alterEntries (p := fun j => !t.contains j) (fun heq => congrArg _ (contains_congr heq t)) k _ u.entries
  have hold : ∀ entry : κ × α, ((u.insert k a).get? entry.1).getD entry.2 =
      if k == entry.1 then a else (u.get? entry.1).getD entry.2 := by
    intro entry
    rw [get?_insert]
    split <;> rfl
  have hany : (t.entries.map fun entry => (entry.1, (u.get? entry.1).getD entry.2)).any (·.1 == k) = t.contains k := by
    rw [List.any_map]
    rfl
  refine congrArg Table.mk ?_
  simp only [updatedBy, hnew, hold]
  rw [alterEntries_append, hany]
  cases hmem : t.contains k with
  | true => rw [if_pos rfl, alterEntries_map h hmem, Bool.not_true, if_neg Bool.false_ne_true]
  | false =>
    rw [if_neg Bool.false_ne_true, Bool.not_false, if_pos rfl]
    congr 1
    apply List.map_congr_left
    intro entry hentry
    have hne : (k == entry.1) = false := by
      rw [BEq.comm]
      exact Bool.eq_false_iff.mpr (List.any_eq_false.mp hmem entry hentry)
    rw [hne, if_neg Bool.false_ne_true]

/-- Taking in entries one after the other is an update by the table that they make. -/
theorem IsKeyed.insertAll_eq (h : t.IsKeyed) (entries : List (κ × α)) :
    t.insertAll entries = t.updatedBy (ofList entries) := by
  induction entries using List.reverseRecOn with
  | nil => simp [Table.insertAll, updatedBy, ofList, empty, get?]
  | append_singleton entries entry ih =>
    have hlast : ∀ t : Table κ α, t.insertAll (entries ++ [entry]) = (t.insertAll entries).insert entry.1 entry.2 :=
      fun t => List.foldl_append
    calc t.insertAll (entries ++ [entry])
      _ = (t.updatedBy (ofList entries)).insert entry.1 entry.2 := by rw [hlast, ih]
      _ = t.updatedBy ((ofList entries).insert entry.1 entry.2) := h.insert_updatedBy _ _ _
      _ = t.updatedBy (ofList (entries ++ [entry])) := congrArg t.updatedBy (hlast empty).symm

omit [EquivBEq κ] in
theorem isKeyed_ofList (entries : List (κ × α)) : (ofList entries).IsKeyed := IsKeyed.insertAll .nil entries

/-- So a table may be updated by another one entry by entry. -/
theorem IsKeyed.updatedBy_eq (h : t.IsKeyed) {u : Table κ α} (hu : u.IsKeyed) :
    t.updatedBy u = t.insertAll u.entries := by
  rw [h.insertAll_eq, show ofList u.entries = u from congrArg Table.mk (entries_ofList_of_pairwise hu)]

end Table

/-! ### Attributes one after the other -/

namespace Attributes

/-- What an attribute adds to a table: an entry, if it adds one. -/
def added (item : Json) : Except Failure (List (AttributeKey × Json)) :=
  (addAttribute .empty item).map (·.entries)

theorem addAttribute_eq (t : Table AttributeKey Json) (item : Json) :
    addAttribute t item = (added item).map t.insertAll := by
  cases item with
  | obj fields =>
    simp only [added, addAttribute]
    split
    · rename_i value _ _
      cases extract (.obj value) with
      | error e => rfl
      | ok v => cases AttributeKey.ofJson? (Json.fieldOrNull fields "key") <;> rfl
    · rfl
  | null | bool | int | float | str | arr => rfl

theorem foldlM_addAttribute_eq (t : Table AttributeKey Json) (items : List Json) :
    items.foldlM addAttribute t = (Otlp.collect added items).map t.insertAll := by
  induction items generalizing t with
  | nil => rfl
  | cons item items ih =>
    rw [List.foldlM_cons, addAttribute_eq, Otlp.collect_cons]
    cases added item with
    | error e => rfl
    | ok entries =>
      refine (ih (t.insertAll entries)).trans ?_
      cases Otlp.collect added items with
      | error e => rfl
      | ok more => exact congrArg Except.ok List.foldl_append.symm

/-- The table of a list of attributes is made of what they add. -/
theorem flatten_arr (items : List Json) : flatten (.arr items) = (Otlp.collect added items).map Table.ofList := by
  refine Eq.trans ?_ (foldlM_addAttribute_eq .empty items)
  cases items <;> rfl

theorem isKeyed_of_flatten {items : List Json} {t : Table AttributeKey Json} (h : flatten (.arr items) = .ok t) :
    t.IsKeyed := by
  rw [flatten_arr] at h
  cases hentries : Otlp.collect added items with
  | error e => simp [hentries, Except.map] at h
  | ok entries =>
    rw [hentries] at h
    exact Except.ok.inj h ▸ Table.isKeyed_ofList entries

theorem flatten_append_eq_updatedBy (xs ys : List Json) : flatten (.arr (xs ++ ys)) = do
    let t ← flatten (.arr xs)
    let u ← flatten (.arr ys)
    return t.updatedBy u := by
  rw [flatten_arr, flatten_arr, flatten_arr, Otlp.collect_append]
  cases Otlp.collect added xs with
  | error e => rfl
  | ok entries =>
    cases Otlp.collect added ys with
    | error e => rfl
    | ok more => exact congrArg Except.ok (List.foldl_append.trans ((Table.isKeyed_ofList entries).insertAll_eq more))

/-- A list of attributes may be read in parts. If the first part fails, this is the failure of the whole; else it is that
of the second part, if this fails. If both can be read, the table of the first part is updated by that of the second one:
equal keys stay as they are and take the new values, and the other keys come in behind, one entry after the other. -/
theorem flatten_append (xs ys : List Json) :
    (flatten (.arr (xs ++ ys)) = do
      let t ← flatten (.arr xs)
      let u ← flatten (.arr ys)
      return t.updatedBy u) ∧
    (flatten (.arr (xs ++ ys)) = do
      let t ← flatten (.arr xs)
      let u ← flatten (.arr ys)
      return t.insertAll u.entries) := by
  refine ⟨flatten_append_eq_updatedBy xs ys, (flatten_append_eq_updatedBy xs ys).trans ?_⟩
  cases ht : flatten (.arr xs) with
  | error e => rfl
  | ok t =>
    cases hu : flatten (.arr ys) with
    | error e => rfl
    | ok u => exact congrArg Except.ok ((isKeyed_of_flatten ht).updatedBy_eq (isKeyed_of_flatten hu))

/-- One and true are one key, which keeps the form that came first. -/
example :
    let item (key : Json) (text : String) : Json := .obj [("key", key), ("value", .obj [("stringValue", .str text)])]
    (do let t ← flatten (.arr [item (.int 1) "a", item (.str "k") "b"])
        let u ← flatten (.arr [item (.str "l") "c", item (.bool true) "d"])
        return (t.updatedBy u).entries) =
      .ok [(.int 1, .str "d"), (.text "k", .str "b"), (.text "l", .str "c")] := by
  decide +kernel

end Attributes

end ServiceMap
