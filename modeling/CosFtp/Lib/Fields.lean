/-
# Lists cut at a separator

`List.splitOn` gives all the fields of a list. A scan that takes one field
after the other is followed by `fields_induction`: the list is one field, or
a field, the separator and the rest. Three scans see less than all the fields:
`beforeEmpty` ends at the first empty one, `tokens` skips the empty ones, and
`segments` leaves out an empty one at the end.

Key definitions: `beforeEmpty`, `tokens`, `segments`.
Key theorems: `fields_induction`, `beforeEmpty_append_cons`, `tokens_append_cons`, `segments_append_cons`.
-/
import Mathlib.Data.List.Basic
import Mathlib.Data.List.TakeWhile

namespace Fields

variable {α : Type} [DecidableEq α] {c : α}

omit [DecidableEq α] in
/-- **Field by field**: a list is a last field, or a field with the separator
and more behind it. -/
theorem fields_induction {motive : List α → Prop} (c : α)
    (last : ∀ u, c ∉ u → motive u)
    (more : ∀ u v, c ∉ u → motive v → motive (u ++ c :: v)) (s : List α) : motive s := by
  by_cases h : c ∈ s
  · obtain ⟨u, v, hs, hu⟩ := List.eq_append_cons_of_mem h
    have hlen : v.length < s.length := by
      rw [hs]
      simp
      omega
    rw [hs]
    exact more u v hu (fields_induction c last more v)
  · exact last s h
termination_by s.length

/-- A field has no letters but those of the list, and no separator. -/
theorem field_subset {s u : List α} (h : u ∈ s.splitOn c) : u ⊆ s ∧ c ∉ u := by
  induction s using fields_induction c with
  | last w hw =>
    rw [List.splitOn_eq_singleton hw, List.mem_singleton] at h
    rw [h]
    exact ⟨fun _ hb => hb, hw⟩
  | more w v hw ih =>
    rw [List.splitOn_append_cons_self_of_not_mem hw, List.mem_cons] at h
    rcases h with rfl | h
    · exact ⟨List.subset_append_left u (c :: v), hw⟩
    · obtain ⟨hsub, hsep⟩ := ih h
      refine ⟨fun b hb => ?_, hsep⟩
      have hv : b ∈ v := hsub hb
      simp [hv]

/-- The fields in front of the first empty one. -/
def beforeEmpty (c : α) (s : List α) : List (List α) := (s.splitOn c).takeWhile (· ≠ [])

/-- The fields that are not empty. -/
def tokens (c : α) (s : List α) : List (List α) := (s.splitOn c).filter (· ≠ [])

theorem beforeEmpty_of_not_mem {u : List α} (h : c ∉ u) :
    beforeEmpty c u = if u = [] then [] else [u] := by
  rw [beforeEmpty, List.splitOn_eq_singleton h, List.takeWhile_cons]
  by_cases hu : u = []
  · simp [hu]
  · simp [hu]

theorem beforeEmpty_append_cons {u : List α} (h : c ∉ u) (v : List α) :
    beforeEmpty c (u ++ c :: v) = if u = [] then [] else u :: beforeEmpty c v := by
  rw [beforeEmpty, List.splitOn_append_cons_self_of_not_mem h, List.takeWhile_cons]
  by_cases hu : u = []
  · simp [hu]
  · simp [hu, beforeEmpty]

theorem beforeEmpty_subset (s : List α) : beforeEmpty c s ⊆ s.splitOn c :=
  (List.takeWhile_sublist _).subset

theorem tokens_of_not_mem {u : List α} (h : c ∉ u) : tokens c u = if u = [] then [] else [u] := by
  rw [tokens, List.splitOn_eq_singleton h]
  by_cases hu : u = []
  · simp [hu]
  · simp [hu]

theorem tokens_append_cons {u : List α} (h : c ∉ u) (v : List α) :
    tokens c (u ++ c :: v) = if u = [] then tokens c v else u :: tokens c v := by
  rw [tokens, List.splitOn_append_cons_self_of_not_mem h]
  by_cases hu : u = []
  · simp [hu, tokens]
  · simp [hu, tokens]

@[simp] theorem tokens_nil : tokens c [] = [] := by
  rw [tokens_of_not_mem List.not_mem_nil, if_pos rfl]

/-- A separator ends the fields in front of it. -/
theorem tokens_append_sep (s v : List α) : tokens c (s ++ c :: v) = tokens c s ++ tokens c v := by
  induction s using fields_induction c with
  | last u hu =>
    rw [tokens_append_cons hu, tokens_of_not_mem hu]
    by_cases hnil : u = []
    · rw [if_pos hnil, if_pos hnil, List.nil_append]
    · rw [if_neg hnil, if_neg hnil, List.singleton_append]
  | more u w hu ih =>
    rw [List.append_assoc, List.cons_append, tokens_append_cons hu, tokens_append_cons hu, ih]
    by_cases hnil : u = []
    · rw [if_pos hnil, if_pos hnil]
    · rw [if_neg hnil, if_neg hnil, List.cons_append]

theorem tokens_cons_sep (s : List α) : tokens c (c :: s) = tokens c s := by
  rw [← List.nil_append (c :: s), tokens_append_sep, tokens_nil, List.nil_append]

theorem tokens_concat_sep (s : List α) : tokens c (s ++ [c]) = tokens c s := by
  rw [tokens_append_sep, tokens_nil, List.append_nil]

/-- Fields that are not empty come back, with a separator behind each. -/
theorem tokens_flatMap {gs : List (List α)} (h : ∀ g ∈ gs, g ≠ [] ∧ c ∉ g) :
    tokens c (gs.flatMap (· ++ [c])) = gs := by
  induction gs with
  | nil => exact tokens_nil
  | cons g gs ih =>
    obtain ⟨hne, hsep⟩ := h g List.mem_cons_self
    rw [List.flatMap_cons, List.append_assoc, List.singleton_append, tokens_append_cons hsep, if_neg hne,
      ih fun x hx => h x (List.mem_cons_of_mem g hx)]

/-- The fields together are what is no separator. -/
theorem flatten_tokens (s : List α) : (tokens c s).flatten = s.filter (· ≠ c) := by
  have hfield : ∀ u : List α, c ∉ u → u.filter (· ≠ c) = u := fun u hu =>
    List.filter_eq_self.mpr fun b hb => decide_eq_true fun h => hu (h ▸ hb)
  induction s using fields_induction c with
  | last u hu =>
    rw [tokens_of_not_mem hu, hfield u hu]
    by_cases hnil : u = []
    · rw [if_pos hnil, hnil]
      rfl
    · rw [if_neg hnil, List.flatten_singleton]
  | more u v hu ih =>
    rw [tokens_append_cons hu, List.filter_append, hfield u hu, List.filter_cons_of_neg (by simp), ← ih]
    by_cases hnil : u = []
    · rw [if_pos hnil, hnil, List.nil_append]
    · rw [if_neg hnil, List.flatten_cons]

/-- A field that is not left out. -/
theorem mem_tokens {s u : List α} (h : u ∈ tokens c s) : u ≠ [] ∧ u ⊆ s ∧ c ∉ u := by
  rw [tokens, List.mem_filter] at h
  exact ⟨of_decide_eq_true h.2, field_subset h.1⟩

/-! ### Fields with a separator behind them -/

/-- The fields, each ended by a separator that may be missing behind the last. -/
def segments (c : α) (s : List α) : List (List α) :=
  if (s.splitOn c).getLast? = some [] then (s.splitOn c).dropLast else s.splitOn c

theorem segments_of_not_mem {u : List α} (h : c ∉ u) : segments c u = if u = [] then [] else [u] := by
  rw [segments, List.splitOn_eq_singleton h]
  by_cases hu : u = []
  · simp [hu]
  · simp [hu]

theorem segments_append_cons {u : List α} (h : c ∉ u) (v : List α) :
    segments c (u ++ c :: v) = u :: segments c v := by
  have hne : v.splitOn c ≠ [] := List.splitOn_ne_nil c v
  have hlast : (u :: v.splitOn c).getLast? = (v.splitOn c).getLast? := by
    rw [List.getLast?_cons, List.getLast?_eq_getLast_of_ne_nil hne]
    rfl
  have hdrop : (u :: v.splitOn c).dropLast = u :: (v.splitOn c).dropLast := List.dropLast_cons_of_ne_nil hne
  rw [segments, List.splitOn_append_cons_self_of_not_mem h, hlast, hdrop, segments]
  split
  · rfl
  · rfl

@[simp] theorem segments_nil : segments c [] = [] := by
  rw [segments_of_not_mem List.not_mem_nil, if_pos rfl]

/-- Fields that are not empty come back. -/
theorem segments_intercalate {gs : List (List α)} (h : ∀ g ∈ gs, g ≠ [] ∧ c ∉ g) :
    segments c ([c].intercalate gs) = gs := by
  by_cases hgs : gs = []
  · rw [hgs]
    exact segments_nil
  · rw [segments, List.splitOn_intercalate c (fun g hg => (h g hg).2) hgs, if_neg]
    intro hlast
    exact (h [] (List.mem_of_getLast? hlast)).1 rfl

/-- A list that does not end with a separator is made of its segments. -/
theorem intercalate_segments {s : List α} (h : s.getLast? ≠ some c) : [c].intercalate (segments c s) = s := by
  induction s using fields_induction c with
  | last u hu =>
    rw [segments_of_not_mem hu]
    by_cases hnil : u = []
    · rw [if_pos hnil, hnil, List.intercalate_nil]
    · rw [if_neg hnil, List.intercalate_singleton]
  | more u v hu ih =>
    by_cases hnil : v = []
    · simp [hnil] at h
    · have hlast : (u ++ c :: v).getLast? = v.getLast? := by
        rw [List.append_cons, List.getLast?_append_of_ne_nil _ hnil]
      have hv := ih (hlast ▸ h)
      rw [segments_append_cons hu]
      cases hsegs : segments c v with
      | nil =>
        rw [hsegs, List.intercalate_nil] at hv
        exact absurd hv.symm hnil
      | cons w ws =>
        rw [List.intercalate_cons_cons, ← hsegs, hv, List.append_assoc, List.singleton_append]

omit [DecidableEq α] in
/-- Fields that are not empty do not end with a separator. -/
theorem getLast?_intercalate {gs : List (List α)} (h : ∀ g ∈ gs, g ≠ [] ∧ c ∉ g) :
    ([c].intercalate gs).getLast? ≠ some c := by
  induction gs with
  | nil => simp
  | cons g gs ih =>
    cases gs with
    | nil =>
      rw [List.intercalate_singleton]
      exact fun hlast => (h g List.mem_cons_self).2 (List.mem_of_getLast? hlast)
    | cons g' gs =>
      have ih' := ih fun x hx => h x (List.mem_cons_of_mem g hx)
      have hne : [c].intercalate (g' :: gs) ≠ [] := by
        have hg' : g' ≠ [] := (h g' (by simp)).1
        cases gs with
        | nil => rwa [List.intercalate_singleton]
        | cons x gs => simp [List.intercalate_cons_cons]
      rw [List.intercalate_cons_cons, List.getLast?_append_of_ne_nil _ hne]
      exact ih'

omit [DecidableEq α] in
/-- A field goes on what stands in front of the list. -/
theorem splitOn_append_of_not_mem [DecidableEq α] {u : List α} (h : c ∉ u) (s : List α) :
    ∃ w rest, c ∉ w ∧ s.splitOn c = w :: rest ∧ (u ++ s).splitOn c = (u ++ w) :: rest := by
  by_cases hs : c ∈ s
  · obtain ⟨w, v, rfl, hw⟩ := List.eq_append_cons_of_mem hs
    have huw : c ∉ u ++ w := by simp [h, hw]
    refine ⟨w, v.splitOn c, hw, List.splitOn_append_cons_self_of_not_mem hw v, ?_⟩
    rw [← List.append_assoc, List.splitOn_append_cons_self_of_not_mem huw]
  · have hus : c ∉ u ++ s := by simp [h, hs]
    exact ⟨s, [], hs, List.splitOn_eq_singleton hs, List.splitOn_eq_singleton hus⟩

/-- Every element but a separator stands in a field. -/
theorem mem_field {s : List α} {b : α} (hb : b ∈ s) (hne : b ≠ c) : ∃ u ∈ s.splitOn c, b ∈ u := by
  induction s using fields_induction c with
  | last u hu => exact ⟨u, by rw [List.splitOn_eq_singleton hu]; exact List.mem_singleton_self u, hb⟩
  | more u v hu ih =>
    rw [List.splitOn_append_cons_self_of_not_mem hu]
    rcases List.mem_append.1 hb with hbu | hbv
    · exact ⟨u, List.mem_cons_self, hbu⟩
    · rcases List.mem_cons.1 hbv with rfl | hbv
      · exact absurd rfl hne
      · obtain ⟨w, hw, hbw⟩ := ih hbv
        exact ⟨w, List.mem_cons_of_mem u hw, hbw⟩

end Fields
