import Mathlib.Data.List.Nodup
import Mathlib.Data.List.Perm.Basic
import Mathlib.Data.List.Induction
import ServiceMap.Table

/-!
# The order in which keys first come in

A table that is altered along a list holds the keys that it held before and then the new ones of the list, each where it
first occurs. Such orders are taken apart here: what comes in from a list is what comes in from its new elements alone,
and lists without common elements come in one after the other.
-/

namespace ServiceMap

variable {κ : Type} [DecidableEq κ]

/-- Some elements, and after them the new ones of a list, each once, in order. -/
def withNew (seen : List κ) (l : List κ) : List κ :=
  l.foldl (fun seen k => if k ∈ seen then seen else seen ++ [k]) seen

@[simp] theorem withNew_nil (seen : List κ) : withNew seen [] = seen := rfl

theorem withNew_cons (seen : List κ) (k : κ) (l : List κ) :
    withNew seen (k :: l) = withNew (if k ∈ seen then seen else seen ++ [k]) l := rfl

theorem withNew_append (seen l l' : List κ) : withNew seen (l ++ l') = withNew (withNew seen l) l' :=
  List.foldl_append

theorem mem_withNew {seen l : List κ} {k : κ} : k ∈ withNew seen l ↔ k ∈ seen ∨ k ∈ l := by
  induction l generalizing seen with
  | nil => simp
  | cons a l ih =>
    rw [withNew_cons, ih]
    split
    · rename_i ha
      constructor
      · rintro (hk | hk)
        · exact .inl hk
        · exact .inr (List.mem_cons_of_mem _ hk)
      · rintro (hk | hk)
        · exact .inl hk
        · rcases List.mem_cons.mp hk with rfl | hk
          · exact .inl ha
          · exact .inr hk
    · simp [or_assoc]

theorem nodup_withNew {seen : List κ} (hseen : seen.Nodup) (l : List κ) : (withNew seen l).Nodup := by
  induction l generalizing seen with
  | nil => exact hseen
  | cons a l ih =>
    rw [withNew_cons]
    apply ih
    split
    · exact hseen
    · rename_i ha
      exact List.nodup_append.mpr ⟨hseen, List.nodup_singleton a, fun x hx y hy hxy => ha (by simp_all)⟩

/-- Of the elements whose images come in only the new ones matter. -/
theorem withNew_map_withNew_nil {κ' : Type} [DecidableEq κ'] (f : κ → κ') (seen : List κ') (l : List κ) :
    withNew seen ((withNew [] l).map f) = withNew seen (l.map f) := by
  induction l using List.reverseRecOn with
  | nil => rfl
  | append_singleton l k ih =>
    have hlast : ∀ before, withNew before [k] = if k ∈ before then before else before ++ [k] := fun _ => rfl
    have hlast' : ∀ before, withNew before [f k] = if f k ∈ before then before else before ++ [f k] := fun _ => rfl
    rw [withNew_append, hlast, List.map_append, List.map_singleton, withNew_append, hlast']
    by_cases hk : k ∈ l
    · rw [if_pos (mem_withNew.mpr (.inr hk)), if_pos (mem_withNew.mpr (.inr (List.mem_map_of_mem hk))), ih]
    · have hnew : k ∉ withNew [] l := by simpa [mem_withNew] using hk
      rw [if_neg hnew, List.map_append, List.map_singleton, withNew_append, hlast', ih]

/-- Of a list only the new elements matter. -/
theorem withNew_withNew_nil (seen l : List κ) : withNew seen (withNew [] l) = withNew seen l := by
  simpa using withNew_map_withNew_nil id seen l

/-- What comes in through a filter is what comes in and passes it. -/
theorem withNew_filter (p : κ → Bool) (seen l : List κ) :
    withNew (seen.filter p) (l.filter p) = (withNew seen l).filter p := by
  induction l generalizing seen with
  | nil => rfl
  | cons k l ih =>
    rw [withNew_cons, ← ih]
    cases hk : p k with
    | true =>
      rw [List.filter_cons_of_pos hk, withNew_cons]
      by_cases hseen : k ∈ seen <;> simp [hseen, hk]
    | false =>
      rw [List.filter_cons_of_neg (by simp [hk])]
      by_cases hseen : k ∈ seen <;> simp [hseen, hk]

/-- If different elements have different images, the images come in as the elements do. -/
theorem withNew_map {κ' : Type} [DecidableEq κ'] {f : κ → κ'} (seen l : List κ)
    (hf : ∀ j ∈ seen ++ l, ∀ k ∈ seen ++ l, f j = f k → j = k) :
    withNew (seen.map f) (l.map f) = (withNew seen l).map f := by
  induction l generalizing seen with
  | nil => rfl
  | cons k l ih =>
    have hmem : f k ∈ seen.map f ↔ k ∈ seen := by
      constructor
      · intro h
        obtain ⟨j, hj, heq⟩ := List.mem_map.mp h
        exact hf j (List.mem_append_left _ hj) k (by simp) heq ▸ hj
      · exact List.mem_map_of_mem
    rw [List.map_cons, withNew_cons, withNew_cons]
    by_cases hk : k ∈ seen
    · rw [if_pos (hmem.mpr hk), if_pos hk]
      refine ih seen fun i hi j hj => hf i ?_ j ?_ <;> grind
    · rw [if_neg (mt hmem.mp hk), if_neg hk, ← ih, List.map_append, List.map_singleton]
      refine fun i hi j hj => hf i ?_ j ?_ <;> grind

/-- Elements that were not seen yet come after those that were. -/
theorem withNew_of_forall_not_mem {seen l : List κ} (hnew : ∀ k ∈ l, k ∉ seen) :
    withNew seen l = seen ++ withNew [] l := by
  have key : ∀ acc, withNew (seen ++ acc) l = seen ++ withNew acc l := by
    induction l with
    | nil => exact fun _ => rfl
    | cons a l ih =>
      intro acc
      have ha : a ∉ seen := hnew a List.mem_cons_self
      have hrest := ih fun k hk => hnew k (List.mem_cons_of_mem _ hk)
      rw [withNew_cons, withNew_cons]
      by_cases hacc : a ∈ acc
      · rw [if_pos (List.mem_append_right _ hacc), if_pos hacc, hrest]
      · rw [if_neg (by simp [ha, hacc]), if_neg hacc, List.append_assoc, hrest]
  simpa using key []

theorem withNew_eq_append (seen l : List κ) : withNew seen l = seen ++ (l.filter (· ∉ seen)).eraseDups := by
  induction l generalizing seen with
  | nil => simp
  | cons k l ih =>
    rw [withNew_cons]
    by_cases hk : k ∈ seen
    · rw [if_pos hk, ih, List.filter_cons_of_neg (by simpa using hk)]
    · have hrest : l.filter (· ∉ seen ++ [k]) = (l.filter (· ∉ seen)).filter fun j => !j == k := by
        rw [List.filter_filter]
        apply List.filter_congr
        intro j _
        by_cases hj : j = k <;> simp [hj]
      rw [if_neg hk, ih, List.filter_cons_of_pos (by simpa using hk), List.eraseDups_cons, hrest, List.append_assoc]
      rfl

/-- The new elements of a list alone are the list without what it repeats. -/
theorem withNew_nil_left (l : List κ) : withNew [] l = l.eraseDups := by
  simp [withNew_eq_append]

theorem withNew_perm {l l' : List κ} (h : l.Perm l') : (withNew [] l).Perm (withNew [] l') := by
  apply (List.perm_ext_iff_of_nodup (nodup_withNew List.nodup_nil l) (nodup_withNew List.nodup_nil l')).mpr
  intro k
  simp only [mem_withNew, List.not_mem_nil, false_or, h.mem_iff]

namespace Table

variable {α β : Type}

theorem keys_foldl_alter (key : α → κ) (change : α → Option β → β) (l : List α) (t : Table κ β) :
    (l.foldl (fun t a => t.alter (key a) (change a)) t).keys = withNew t.keys (l.map key) := by
  induction l generalizing t with
  | nil => rfl
  | cons a l ih => rw [List.foldl_cons, ih, keys_alter, List.map_cons, withNew_cons]

end Table

end ServiceMap
