/-
# Searching a list for a text

A text `t` stands at position `i` of `s` when it is a prefix of `s.drop i`.
`locate` finds the first such position and `locateReverse` the last, each by
trying the positions one after the other; `cut` takes the list apart at the
first one. A `cut` walks over a stretch of the list that does not hold the
text's first element (`cut_append_of_not_mem`), which is how a search in a
text made of separated fields is followed field by field. `substitute` puts
another text in the place of `t`, wherever it stands and does not reach into
one replaced before; that is cut after cut (`substitute_eq_cut`), and for a
text of one element it is done element by element (`substitute_singleton`).

Key definitions: `locate`, `locateReverse`, `cut`, `substitute`.
Key theorems: `locate_eq_cut`, `cut_append_of_not_mem`, `cut_intercalate`, `locateReverse_singleton`,
`substitute_eq_cut`, `substitute_singleton`.
-/
import Mathlib.Data.List.Basic
import Mathlib.Data.Nat.Notation

namespace Search

variable {α : Type} [DecidableEq α]

/-- The first position of `t` in `s`; an empty text is not looked for. -/
def locate (t s : List α) : Option ℕ :=
  if t.length = 0 ∨ s.length < t.length then none
  else (List.range (s.length - t.length + 1)).find? fun i => (s.drop i).take t.length = t

/-- The last position of `t` in `s`. -/
def locateReverse (t s : List α) : Option ℕ :=
  if t.length = 0 ∨ s.length < t.length then none
  else (List.range (s.length - t.length + 1)).reverse.find? fun i => (s.drop i).take t.length = t

/-- What stands before the first `t` in `s`, and what after it. -/
def cut (t : List α) : List α → Option (List α × List α)
  | [] => none
  | a :: s =>
    if t <+: a :: s then some ([], (a :: s).drop t.length)
    else (cut t s).map fun p => (a :: p.1, p.2)

omit [DecidableEq α] in
theorem take_length_eq_iff {t s : List α} : s.take t.length = t ↔ t <+: s := by
  rw [List.prefix_iff_eq_take, eq_comm]

/-- A longer text is nowhere. -/
theorem cut_of_length_lt (t : List α) : ∀ s : List α, s.length < t.length → cut t s = none
  | [], _ => rfl
  | a :: s, h => by
    have hno : ¬ t <+: a :: s := fun hp => by have := hp.length_le; omega
    rw [cut, if_neg hno, cut_of_length_lt t s (by simp at h; omega)]
    rfl

/-- The two halves of a cut, with the text between them, are the list. -/
theorem eq_of_cut {t : List α} : ∀ {s l r : List α}, cut t s = some (l, r) → s = l ++ t ++ r
  | [], _, _, h => by simp [cut] at h
  | a :: s, l, r, h => by
    rw [cut] at h
    split at h
    · rename_i hp
      obtain ⟨r', hr⟩ := hp
      simp only [Option.some.injEq, Prod.mk.injEq] at h
      obtain ⟨rfl, rfl⟩ := h
      simp [← hr]
    · rw [Option.map_eq_some_iff] at h
      obtain ⟨⟨l', r'⟩, hc, he⟩ := h
      simp only [Prod.mk.injEq] at he
      obtain ⟨rfl, rfl⟩ := he
      rw [eq_of_cut hc]
      rfl

/-- A text is found exactly if it occurs. -/
theorem cut_eq_none_iff {t : List α} (ht : t ≠ []) : ∀ {s : List α}, cut t s = none ↔ ¬ t <:+: s
  | [] => by simp [cut, ht]
  | a :: s => by
    rw [cut]
    split
    · rename_i hp
      simp [hp.isInfix]
    · rename_i hp
      rw [Option.map_eq_none_iff, cut_eq_none_iff ht, List.infix_cons_iff]
      simp [hp]

/-- A text is found where it stands first. -/
theorem cut_append_self {t : List α} (ht : t ≠ []) (s : List α) : cut t (t ++ s) = some ([], s) := by
  obtain ⟨a, t', rfl⟩ := List.exists_cons_of_ne_nil ht
  have hp : a :: t' <+: a :: (t' ++ s) := List.prefix_append (a :: t') s
  rw [List.cons_append, cut, if_pos hp]
  simp

theorem length_of_cut {t s l r : List α} (h : cut t s = some (l, r)) :
    s.length = l.length + t.length + r.length := by
  rw [eq_of_cut h]; simp [Nat.add_assoc]

/-- `locate` is the position of the cut. -/
theorem locate_eq_cut {t : List α} (ht : t ≠ []) :
    ∀ s : List α, locate t s = (cut t s).map fun p => p.1.length
  | [] => by
    have h0 : 0 < t.length := List.length_pos_of_ne_nil ht
    simp [locate, cut, h0]
  | a :: s => by
    have htl : t.length ≠ 0 := by simpa using ht
    have ih := locate_eq_cut ht s
    by_cases hlt : (a :: s).length < t.length
    · rw [locate, if_pos (Or.inr hlt), cut_of_length_lt t _ hlt]; rfl
    · rw [locate, if_neg (by simp [htl]; simp at hlt; omega)]
      rw [List.range_succ_eq_map, List.find?_cons]
      by_cases hp : t <+: a :: s
      · rw [cut, if_pos hp]
        simp [take_length_eq_iff, hp]
      · rw [cut, if_neg hp]
        simp only [List.drop_zero, take_length_eq_iff, hp, decide_false, List.find?_map]
        rw [Option.map_map]
        have hstep : (cut t s).map (fun p => (a :: p.1).length) =
            ((cut t s).map fun p => p.1.length).map Nat.succ := by
          simp [Option.map_map, Function.comp_def]
        have hcomp : ((fun p : List α × List α => p.1.length) ∘
            fun p : List α × List α => (a :: p.1, p.2)) = fun p => (a :: p.1).length := rfl
        rw [hcomp, hstep, ← ih, locate]
        by_cases hs : s.length < t.length
        · have h0 : (a :: s).length - t.length = 0 := by simp; omega
          rw [h0, if_pos (Or.inr hs)]
          rfl
        · rw [if_neg (by simp [htl]; omega)]
          have h1 : (a :: s).length - t.length = s.length - t.length + 1 := by
            simp at hlt ⊢; omega
          rw [h1]
          congr 1
          congr 1
          funext i
          simp [take_length_eq_iff]

/-- The search walks over what does not hold the text's first element. -/
theorem cut_append_of_not_mem {c : α} {t : List α} : ∀ {u : List α} (s : List α), c ∉ u →
    cut (c :: t) (u ++ s) = (cut (c :: t) s).map fun p => (u ++ p.1, p.2)
  | [], s, _ => by simp
  | a :: u, s, h => by
    simp only [List.mem_cons, not_or] at h
    have hno : ¬ c :: t <+: a :: (u ++ s) := by
      simp only [List.cons_prefix_cons, not_and]
      intro he; exact absurd he h.1
    rw [List.cons_append, cut, if_neg hno, cut_append_of_not_mem s h.2, Option.map_map]
    rfl

theorem cut_eq_none_of_not_mem {c : α} {t u : List α} (h : c ∉ u) : cut (c :: t) u = none := by
  have := cut_append_of_not_mem (t := t) [] h
  simpa [cut] using this

/-- A cut at a single element: the first place it stands. -/
theorem cut_singleton {c : α} {u : List α} (s : List α) (h : c ∉ u) :
    cut [c] (u ++ c :: s) = some (u, s) := by
  rw [cut_append_of_not_mem _ h, cut, if_pos (by simp)]
  simp

/-- A cut is made at the first place. -/
theorem length_le_of_cut {t : List α} : ∀ {s l r l' r' : List α}, cut t s = some (l, r) →
    s = l' ++ t ++ r' → l.length ≤ l'.length
  | [], _, _, _, _, h, _ => by cases h
  | a :: s, l, r, l', r', h, hs => by
    rw [cut] at h
    by_cases hp : t <+: a :: s
    · rw [if_pos hp] at h
      obtain ⟨rfl, -⟩ : [] = l ∧ _ := by simpa using h
      exact Nat.zero_le _
    · rw [if_neg hp, Option.map_eq_some_iff] at h
      obtain ⟨⟨l1, r1⟩, hcut, he⟩ := h
      obtain ⟨rfl, rfl⟩ : a :: l1 = l ∧ r1 = r := by simpa using he
      cases l' with
      | nil => exact absurd ⟨r', by rw [hs, List.nil_append]⟩ hp
      | cons b l' =>
        have hs' : s = l' ++ t ++ r' := by
          have htail := congrArg List.tail hs
          simpa using htail
        have hle := length_le_of_cut hcut hs'
        rw [List.length_cons, List.length_cons]
        omega

/-- A search for two separators side by side walks over fields that are not empty. -/
theorem cut_intercalate {c : α} : ∀ {gs : List (List α)} (s : List α), (∀ g ∈ gs, g ≠ [] ∧ c ∉ g) →
    cut [c, c] ([c].intercalate gs ++ s) = (cut [c, c] s).map fun p => ([c].intercalate gs ++ p.1, p.2)
  | [], s, _ => by simp
  | [g], s, h => by
    rw [List.intercalate_singleton]
    exact cut_append_of_not_mem s (h g List.mem_cons_self).2
  | g :: g' :: gs, s, h => by
    have ih := cut_intercalate s fun x hx => h x (List.mem_cons_of_mem g hx)
    have hg : c ∉ g := (h g List.mem_cons_self).2
    obtain ⟨hne, hg'⟩ := h g' (by simp)
    obtain ⟨b, t, rfl⟩ := List.exists_cons_of_ne_nil hne
    obtain ⟨tail, htail⟩ : ∃ tail, [c].intercalate ((b :: t) :: gs) = b :: tail := by
      cases gs with
      | nil => exact ⟨t, List.intercalate_singleton⟩
      | cons x gs => exact ⟨_, List.intercalate_cons_cons⟩
    have hb : c ≠ b := fun he => hg' (he ▸ List.mem_cons_self)
    rw [List.intercalate_cons_cons, List.append_assoc, List.append_assoc, cut_append_of_not_mem _ hg]
    rw [htail] at ih ⊢
    have hno : ¬ [c, c] <+: c :: b :: (tail ++ s) := by
      simp [hb]
    rw [List.cons_append] at ih ⊢
    show ((cut [c, c] (c :: b :: (tail ++ s))).map fun p => (g ++ p.1, p.2)) = _
    rw [cut, if_neg hno, ih, Option.map_map, Option.map_map]
    simp [Function.comp_def]

/-- The last place of a single element. -/
theorem locateReverse_singleton {c : α} (u : List α) {v : List α} (h : c ∉ v) :
    locateReverse [c] (u ++ c :: v) = some u.length := by
  have hat : ∀ i, ((u ++ c :: v).drop i).take 1 = [c] ↔ (u ++ c :: v)[i]? = some c := by
    intro i
    rw [List.take_one, List.head?_drop]
    cases (u ++ c :: v)[i]? <;> simp
  rw [locateReverse, if_neg (by simp)]
  rw [List.find?_eq_some_iff_append]
  simp only [List.length_singleton, decide_eq_true_eq, Bool.not_eq_true', decide_eq_false_iff_not,
    hat]
  refine ⟨by simp, ((List.range v.length).map (u.length + 1 + ·)).reverse,
    (List.range u.length).reverse, ?_, ?_⟩
  · have hl : (u ++ c :: v).length - 1 + 1 = u.length + 1 + v.length := by simp; omega
    rw [hl, List.range_add, List.range_succ]
    simp
  · intro i hi
    simp only [List.mem_reverse, List.mem_map, List.mem_range] at hi
    obtain ⟨k, hk, rfl⟩ := hi
    rw [List.getElem?_append_right (by omega)]
    have : u.length + 1 + k - u.length = k + 1 := by omega
    rw [this, List.getElem?_cons_succ]
    intro he
    exact h (List.mem_of_getElem? he)

theorem locateReverse_nil (t : List α) : locateReverse t [] = none := by
  by_cases h : t.length = 0
  · simp [locateReverse, h]
  · simp [locateReverse, h, Nat.pos_of_ne_zero h]

/-! ### Putting another text in its place -/

/-- Scanning from the left, `u` in the place of each `t`. The first `k`
elements are those of a `t` already replaced. -/
def substitute (t u : List α) : ℕ → List α → List α
  | _, [] => []
  | k + 1, _ :: s => substitute t u k s
  | 0, a :: s =>
    if t ≠ [] ∧ t <+: a :: s then u ++ substitute t u (t.length - 1) s
    else a :: substitute t u 0 s

theorem substitute_skip (t u : List α) : ∀ (k : ℕ) (s : List α),
    substitute t u k s = substitute t u 0 (s.drop k)
  | 0, _ => rfl
  | _ + 1, [] => rfl
  | k + 1, _ :: s => by
    rw [substitute, List.drop_succ_cons]
    exact substitute_skip t u k s

/-- An empty text is not replaced. -/
theorem substitute_nil (u : List α) : ∀ s : List α, substitute [] u 0 s = s
  | [] => rfl
  | a :: s => by
    rw [substitute, if_neg (by simp), substitute_nil u s]

/-- The first `t` is replaced, and the scan goes on behind it. -/
theorem substitute_eq_cut {t : List α} (ht : t ≠ []) (u : List α) : ∀ s : List α,
    substitute t u 0 s =
      match cut t s with
      | none => s
      | some (l, r) => l ++ u ++ substitute t u 0 r
  | [] => rfl
  | a :: s => by
    have hpos : 0 < t.length := List.length_pos_of_ne_nil ht
    by_cases hp : t <+: a :: s
    · have htail : (a :: s).drop t.length = s.drop (t.length - 1) := by
        obtain ⟨n, hn⟩ : ∃ n, t.length = n + 1 := ⟨t.length - 1, by omega⟩
        rw [hn, List.drop_succ_cons, Nat.add_sub_cancel]
      rw [substitute, if_pos ⟨ht, hp⟩, cut, if_pos hp, substitute_skip, ← htail]
      rfl
    · rw [substitute, if_neg (fun h => hp h.2), cut, if_neg hp, substitute_eq_cut ht u s]
      cases cut t s with
      | none => rfl
      | some halves => rfl

/-- A text of one element is replaced wherever the element stands. -/
theorem substitute_singleton (c : α) (u : List α) : ∀ s : List α,
    substitute [c] u 0 s = s.flatMap fun b => if b = c then u else [b]
  | [] => rfl
  | a :: s => by
    by_cases h : a = c
    · rw [substitute, if_pos (by simp [h]), List.flatMap_cons, if_pos h]
      exact congrArg (u ++ ·) (substitute_singleton c u s)
    · have hno : ¬ ([c] ≠ [] ∧ [c] <+: a :: s) := by
        simp [Ne.symm h]
      rw [substitute, if_neg hno, List.flatMap_cons, if_neg h, substitute_singleton c u s]
      rfl

end Search
