import ServiceMap.Proofs.FirstSeen
import ServiceMap.Trace.Grouping

/-!
# Groups

The groups of a list stand in the order in which their keys first occur, and the group of a key holds the elements with
that key in their order. So lists that share no key are grouped one after the other, and a list in which the elements of
each key keep their order has the same groups, in another order perhaps.
-/

namespace ServiceMap

section Groups

variable {α κ : Type} [DecidableEq κ] (key : α → κ)

theorem keys_groupBy (l : List α) : (groupBy key l).keys = withNew [] (l.map key) :=
  Table.keys_foldl_alter key _ l .empty

theorem get?_groupBy (l : List α) (k : κ) : ((groupBy key l).get? k).getD [] = l.filter (key · == k) := by
  have hfrom : ∀ groups : Table κ (List α),
      ((l.foldl (fun groups a => groups.alter (key a) fun group => group.getD [] ++ [a]) groups).get? k).getD [] =
        (groups.get? k).getD [] ++ l.filter (key · == k) := by
    induction l with
    | nil => exact fun _ => (List.append_nil _).symm
    | cons a l ih =>
      intro groups
      rw [List.foldl_cons, ih]
      by_cases h : key a = k
      · rw [h, Table.get?_alter_self, Option.getD_some, List.filter_cons_of_pos (by simpa using h), List.append_assoc,
          List.singleton_append]
      · rw [Table.get?_alter_of_ne h, List.filter_cons_of_neg (by simpa using h)]
  exact hfrom .empty

/-- The groups of a list, by its keys. -/
theorem entries_groupBy (l : List α) :
    (groupBy key l).entries = (withNew [] (l.map key)).map fun k => (k, l.filter (key · == k)) := by
  have hnodup : (groupBy key l).keys.Nodup := keys_groupBy key l ▸ nodup_withNew List.nodup_nil _
  rw [Table.entries_eq_map_keys hnodup [], keys_groupBy]
  exact List.map_congr_left fun k _ => by rw [get?_groupBy]

theorem values_groupBy (l : List α) :
    (groupBy key l).values = (withNew [] (l.map key)).map fun k => l.filter (key · == k) := by
  rw [Table.values, entries_groupBy, List.map_map]
  rfl

variable {key}

theorem filter_key_eq_nil {l : List α} {k : κ} (h : ∀ a ∈ l, key a ≠ k) : l.filter (key · == k) = [] := by
  rw [List.filter_eq_nil_iff]
  intro a ha
  simpa using h a ha

/-- Lists without a common key are grouped one after the other. -/
theorem values_groupBy_append {l l' : List α} (h : ∀ a ∈ l, ∀ b ∈ l', key a ≠ key b) :
    (groupBy key (l ++ l')).values = (groupBy key l).values ++ (groupBy key l').values := by
  have hkeys : withNew [] ((l ++ l').map key) = withNew [] (l.map key) ++ withNew [] (l'.map key) := by
    rw [List.map_append, withNew_append]
    apply withNew_of_forall_not_mem
    intro k hk hin
    obtain ⟨b, hb, rfl⟩ := List.mem_map.mp hk
    obtain ⟨a, ha, hab⟩ := List.mem_map.mp ((mem_withNew.mp hin).resolve_left List.not_mem_nil)
    exact h a ha b hb hab
  rw [values_groupBy, values_groupBy, values_groupBy, hkeys, List.map_append]
  congr 1
  · apply List.map_congr_left
    intro k hk
    obtain ⟨a, ha, rfl⟩ := List.mem_map.mp ((mem_withNew.mp hk).resolve_left List.not_mem_nil)
    rw [List.filter_append, filter_key_eq_nil fun b hb => (h a ha b hb).symm, List.append_nil]
  · apply List.map_congr_left
    intro k hk
    obtain ⟨b, hb, rfl⟩ := List.mem_map.mp ((mem_withNew.mp hk).resolve_left List.not_mem_nil)
    rw [List.filter_append, filter_key_eq_nil fun a ha => h a ha b hb, List.nil_append]

theorem values_groupBy_flatten {lists : List (List α)}
    (h : lists.Pairwise fun l l' => ∀ a ∈ l, ∀ b ∈ l', key a ≠ key b) :
    (groupBy key lists.flatten).values = lists.flatMap fun l => (groupBy key l).values := by
  induction lists with
  | nil => rfl
  | cons l lists ih =>
    obtain ⟨hfirst, hrest⟩ := List.pairwise_cons.mp h
    rw [List.flatten_cons, List.flatMap_cons, ← ih hrest]
    apply values_groupBy_append
    intro a ha b hb
    obtain ⟨l', hl', hb⟩ := List.mem_flatten.mp hb
    exact hfirst l' hl' a ha b hb

/-! ### Groups in another order -/

variable {l l' : List α} (h : ∀ k, l.filter (key · == k) = l'.filter (key · == k))
include h

/-- Lists that have the same elements of each key are reorderings of each other. -/
theorem perm_of_filter_key [DecidableEq α] : l.Perm l' := by
  rw [List.perm_iff_count]
  intro a
  have hcount : ∀ l : List α, (l.filter (key · == key a)).count a = l.count a :=
    fun l => List.count_filter (beq_self_eq_true (key a))
  rw [← hcount l, h, hcount l']

/-- If the elements of each key keep their order, then the groups are the same but for theirs. -/
theorem values_groupBy_perm [DecidableEq α] : (groupBy key l).values.Perm (groupBy key l').values := by
  rw [values_groupBy, values_groupBy]
  have hgroup : (fun k => l.filter (key · == k)) = fun k => l'.filter (key · == k) := funext h
  rw [hgroup]
  exact (withNew_perm ((perm_of_filter_key h).map key)).map _

end Groups

end ServiceMap
