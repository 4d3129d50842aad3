/-
# Glob patterns

A pattern over an alphabet with five marks: the star stands for any word, the
question mark for any one letter, a group between an opening and a closing
mark for any one of its alternatives, every other letter for itself. The
alternatives of a group are put in its place one by one, and an opening mark
that no closing mark follows is a letter (`Matches`).

`FirstFit` is what a matcher without backtracking sees of this: a star takes
as little as it can, up to the first place of the letters behind it and
nothing in front of another mark, and the list of alternatives ends at an
empty one. What fits this way matches (`FirstFit.matches`), not the other way
round.

Key definitions: `Marks`, `Matches`, `FirstFit`.
Key theorems: `FirstFit.matches`, `firstFit_letters_iff`, `firstFit_star_letters_iff`,
`firstFit_group_iff`.
-/
import CosFtp.Lib.Search
import CosFtp.Lib.Fields

namespace Glob

open Search Fields

variable {α : Type} [DecidableEq α]

/-- The letters with a meaning of their own. -/
structure Marks (α : Type) where
  star : α
  any : α
  opening : α
  closing : α
  sep : α
  nodup : [star, any, opening, closing, sep].Nodup

/-- A mark that can start a part of a pattern. -/
def Marks.Starts (S : Marks α) (c : α) : Prop := c = S.star ∨ c = S.any ∨ c = S.opening

/-- A letter that stands for itself. -/
def Marks.Letter (S : Marks α) (c : α) : Prop := ¬ S.Starts c

instance (S : Marks α) (c : α) : Decidable (S.Starts c) := inferInstanceAs (Decidable (_ ∨ _))

instance (S : Marks α) (c : α) : Decidable (S.Letter c) := inferInstanceAs (Decidable (¬ _))

/-- A pattern at whose front the letters are over. -/
def Marks.Breaks (S : Marks α) (p : List α) : Prop := ∀ c ∈ p.head?, S.Starts c

section

variable (S : Marks α)

/-- **The words of a pattern.** -/
inductive Matches : List α → List α → Prop
  | nil : Matches [] []
  | letter {c : α} {p s : List α} : S.Letter c → Matches p s → Matches (c :: p) (c :: s)
  | any {c : α} {p s : List α} : Matches p s → Matches (S.any :: p) (c :: s)
  | star {p s : List α} (u : List α) : Matches p s → Matches (S.star :: p) (u ++ s)
  | group {g p s alt : List α} : S.closing ∉ g → alt ∈ g.splitOn S.sep → Matches (alt ++ p) s →
      Matches (S.opening :: (g ++ S.closing :: p)) s
  | opening {p s : List α} : S.closing ∉ p → Matches p s → Matches (S.opening :: p) (S.opening :: s)

/-- **The words of a pattern in which every star is as short as it can be.** -/
inductive FirstFit : List α → List α → Prop
  | nil : FirstFit [] []
  | letter {c : α} {p s : List α} : S.Letter c → FirstFit p s → FirstFit (c :: p) (c :: s)
  | any {c : α} {p s : List α} : FirstFit p s → FirstFit (S.any :: p) (c :: s)
  | last (s : List α) : FirstFit [S.star] s
  | starLetters {t p s u v : List α} : t ≠ [] → (∀ c ∈ t, S.Letter c) → S.Breaks p →
      cut t s = some (u, v) → FirstFit p v → FirstFit (S.star :: (t ++ p)) s
  | starMark {m : α} {p s : List α} : S.Starts m → FirstFit (m :: p) s →
      FirstFit (S.star :: m :: p) s
  | group {g p s alt : List α} : S.closing ∉ g → alt ∈ beforeEmpty S.sep g → FirstFit (alt ++ p) s →
      FirstFit (S.opening :: (g ++ S.closing :: p)) s
  | opening {p s : List α} : S.closing ∉ p → FirstFit p s → FirstFit (S.opening :: p) (S.opening :: s)

end

variable {S : Marks α}

/-! ### The marks -/

omit [DecidableEq α] in
theorem Marks.any_ne_star (S : Marks α) : S.any ≠ S.star := by
  have h := S.nodup
  simp only [List.nodup_cons, List.mem_cons, not_or] at h
  exact fun he => h.1.1 he.symm

omit [DecidableEq α] in
theorem Marks.opening_ne_star (S : Marks α) : S.opening ≠ S.star := by
  have h := S.nodup
  simp only [List.nodup_cons, List.mem_cons, not_or] at h
  exact fun he => h.1.2.1 he.symm

omit [DecidableEq α] in
theorem Marks.opening_ne_any (S : Marks α) : S.opening ≠ S.any := by
  have h := S.nodup
  simp only [List.nodup_cons, List.mem_cons, not_or] at h
  exact fun he => h.2.1.1 he.symm

omit [DecidableEq α] in
theorem Marks.starts_star (S : Marks α) : S.Starts S.star := Or.inl rfl

omit [DecidableEq α] in
theorem Marks.starts_any (S : Marks α) : S.Starts S.any := Or.inr (Or.inl rfl)

omit [DecidableEq α] in
theorem Marks.starts_opening (S : Marks α) : S.Starts S.opening := Or.inr (Or.inr rfl)

/-! ### Words of a pattern -/

/-- A run of letters matches itself. -/
theorem matches_letters {p s : List α} (h : Matches S p s) :
    ∀ {t : List α}, (∀ c ∈ t, S.Letter c) → Matches S (t ++ p) (t ++ s)
  | [], _ => h
  | c :: t, ht => by
    have hc : S.Letter c := ht c List.mem_cons_self
    have hrest := matches_letters h fun d hd => ht d (List.mem_cons_of_mem c hd)
    exact .letter hc hrest

/-- **What fits at the first place matches.** -/
theorem FirstFit.matches {p s : List α} (h : FirstFit S p s) : Matches S p s := by
  induction h with
  | nil => exact .nil
  | letter hc _ ih => exact .letter hc ih
  | any _ ih => exact .any ih
  | last s =>
    have hall := Matches.star (S := S) s .nil
    rwa [List.append_nil] at hall
  | starLetters _ ht _ hcut _ ih =>
    rw [eq_of_cut hcut, List.append_assoc]
    exact .star _ (matches_letters ih ht)
  | starMark _ _ ih => exact .star [] ih
  | group hg halt _ ih => exact .group hg (beforeEmpty_subset _ halt) ih
  | opening hp _ ih => exact .opening hp ih

/-! ### The first fit, part by part -/

omit [DecidableEq α] in
/-- The front of a pattern falls into letters and the rest in one way. -/
theorem letters_unique : ∀ {t t' p p' : List α}, (∀ c ∈ t, S.Letter c) → (∀ c ∈ t', S.Letter c) →
    S.Breaks p → S.Breaks p' → t ++ p = t' ++ p' → t = t' ∧ p = p'
  | [], [], _, _, _, _, _, _, h => ⟨rfl, h⟩
  | [], c :: t', _, _, _, ht', hp, _, h => by
    have hhead : S.Starts c := by
      rw [List.nil_append] at h
      exact hp c (by simp [h])
    exact absurd hhead (ht' c List.mem_cons_self)
  | c :: t, [], _, _, ht, _, _, hp', h => by
    have hhead : S.Starts c := by
      rw [List.nil_append] at h
      exact hp' c (by simp [← h])
    exact absurd hhead (ht c List.mem_cons_self)
  | c :: t, c' :: t', p, p', ht, ht', hp, hp', h => by
    simp only [List.cons_append, List.cons.injEq] at h
    obtain ⟨rfl, hrest⟩ := h
    have ih := letters_unique (fun d hd => ht d (List.mem_cons_of_mem c hd))
      (fun d hd => ht' d (List.mem_cons_of_mem c hd)) hp hp' hrest
    exact ⟨by rw [ih.1], ih.2⟩

@[simp] theorem firstFit_nil_iff {s : List α} : FirstFit S [] s ↔ s = [] := by
  constructor
  · intro h
    cases h
    rfl
  · intro h
    rw [h]
    exact .nil

@[simp] theorem firstFit_star_iff {s : List α} : FirstFit S [S.star] s := .last s

/-- What a fit begins with, by the first letter of the pattern. -/
theorem firstFit_cons_iff {c : α} {p s : List α} : FirstFit S (c :: p) s ↔
    (S.Letter c ∧ ∃ v, s = c :: v ∧ FirstFit S p v) ∨
    (c = S.any ∧ ∃ b v, s = b :: v ∧ FirstFit S p v) ∨
    (c = S.star ∧ (p = [] ∨
      (∃ t q u v, p = t ++ q ∧ t ≠ [] ∧ (∀ d ∈ t, S.Letter d) ∧ S.Breaks q ∧
        cut t s = some (u, v) ∧ FirstFit S q v) ∨
      ∃ m q, p = m :: q ∧ S.Starts m ∧ FirstFit S p s)) ∨
    (c = S.opening ∧ ((∃ g q, p = g ++ S.closing :: q ∧ S.closing ∉ g ∧
        ∃ alt ∈ beforeEmpty S.sep g, FirstFit S (alt ++ q) s) ∨
      (S.closing ∉ p ∧ ∃ v, s = S.opening :: v ∧ FirstFit S p v))) := by
  constructor
  · intro h
    cases h with
    | letter hc hfit => exact Or.inl ⟨hc, _, rfl, hfit⟩
    | any hfit => exact Or.inr (Or.inl ⟨rfl, _, _, rfl, hfit⟩)
    | last => exact Or.inr (Or.inr (Or.inl ⟨rfl, Or.inl rfl⟩))
    | starLetters ht0 ht hq hcut hfit =>
      exact Or.inr (Or.inr (Or.inl ⟨rfl, Or.inr (Or.inl ⟨_, _, _, _, rfl, ht0, ht, hq, hcut, hfit⟩)⟩))
    | starMark hm hfit =>
      exact Or.inr (Or.inr (Or.inl ⟨rfl, Or.inr (Or.inr ⟨_, _, rfl, hm, hfit⟩)⟩))
    | group hg halt hfit =>
      exact Or.inr (Or.inr (Or.inr ⟨rfl, Or.inl ⟨_, _, rfl, hg, _, halt, hfit⟩⟩))
    | opening hp hfit => exact Or.inr (Or.inr (Or.inr ⟨rfl, Or.inr ⟨hp, _, rfl, hfit⟩⟩))
  · intro h
    rcases h with ⟨hc, v, rfl, hfit⟩ | ⟨rfl, b, v, rfl, hfit⟩ | ⟨rfl, h⟩ | ⟨rfl, h⟩
    · exact .letter hc hfit
    · exact .any hfit
    · rcases h with rfl | ⟨t, q, u, v, rfl, ht0, ht, hq, hcut, hfit⟩ | ⟨m, q, rfl, hm, hfit⟩
      · exact .last s
      · exact .starLetters ht0 ht hq hcut hfit
      · exact .starMark hm hfit
    · rcases h with ⟨g, q, rfl, hg, alt, halt, hfit⟩ | ⟨hp, v, rfl, hfit⟩
      · exact .group hg halt hfit
      · exact .opening hp hfit

theorem firstFit_letter_iff {c : α} {p s : List α} (hc : S.Letter c) :
    FirstFit S (c :: p) s ↔ ∃ v, s = c :: v ∧ FirstFit S p v := by
  have hany : c ≠ S.any := fun he => hc (he ▸ S.starts_any)
  have hstar : c ≠ S.star := fun he => hc (he ▸ S.starts_star)
  have hopening : c ≠ S.opening := fun he => hc (he ▸ S.starts_opening)
  simp only [firstFit_cons_iff, hc, hany, hstar, hopening, true_and, false_and, or_false]

/-- A run of letters fits where the word starts with it. -/
theorem firstFit_letters_iff {p : List α} : ∀ {t s : List α}, (∀ c ∈ t, S.Letter c) →
    (FirstFit S (t ++ p) s ↔ ∃ v, s = t ++ v ∧ FirstFit S p v)
  | [], s, _ => by simp
  | c :: t, s, ht => by
    have hc : S.Letter c := ht c List.mem_cons_self
    have ih : ∀ v, FirstFit S (t ++ p) v ↔ ∃ w, v = t ++ w ∧ FirstFit S p w :=
      fun v => firstFit_letters_iff fun d hd => ht d (List.mem_cons_of_mem c hd)
    rw [List.cons_append, firstFit_letter_iff hc]
    simp only [ih]
    constructor
    · intro h
      obtain ⟨_, rfl, w, rfl, hfit⟩ := h
      exact ⟨w, rfl, hfit⟩
    · intro h
      obtain ⟨w, rfl, hfit⟩ := h
      exact ⟨t ++ w, rfl, w, rfl, hfit⟩

theorem firstFit_any_iff {p s : List α} :
    FirstFit S (S.any :: p) s ↔ ∃ c v, s = c :: v ∧ FirstFit S p v := by
  have hmark : ¬ S.Letter S.any := not_not_intro S.starts_any
  simp only [firstFit_cons_iff, hmark, S.any_ne_star, S.opening_ne_any.symm, true_and, false_and,
    or_false, false_or]

theorem firstFit_star_cons_iff {p s : List α} : FirstFit S (S.star :: p) s ↔
    p = [] ∨
    (∃ t q u v, p = t ++ q ∧ t ≠ [] ∧ (∀ d ∈ t, S.Letter d) ∧ S.Breaks q ∧
      cut t s = some (u, v) ∧ FirstFit S q v) ∨
    ∃ m q, p = m :: q ∧ S.Starts m ∧ FirstFit S p s := by
  have hmark : ¬ S.Letter S.star := not_not_intro S.starts_star
  simp only [firstFit_cons_iff (c := S.star), hmark, S.any_ne_star.symm, S.opening_ne_star.symm,
    true_and, false_and, or_false, false_or]

/-- Behind a star a run of letters fits at its first place. -/
theorem firstFit_star_letters_iff {t p s : List α} (ht0 : t ≠ []) (ht : ∀ c ∈ t, S.Letter c)
    (hp : S.Breaks p) :
    FirstFit S (S.star :: (t ++ p)) s ↔ ∃ u v, cut t s = some (u, v) ∧ FirstFit S p v := by
  rw [firstFit_star_cons_iff]
  constructor
  · intro h
    rcases h with hnil | ⟨t', q, u, v, he, _, ht', hq, hcut, hfit⟩ | ⟨m, q, he, hm, _⟩
    · exact absurd (List.append_eq_nil_iff.mp hnil).1 ht0
    · obtain ⟨rfl, rfl⟩ := letters_unique ht ht' hp hq he
      exact ⟨u, v, hcut, hfit⟩
    · obtain ⟨c, t', rfl⟩ := List.exists_cons_of_ne_nil ht0
      simp only [List.cons_append, List.cons.injEq] at he
      exact absurd (he.1 ▸ hm) (ht c List.mem_cons_self)
  · intro h
    obtain ⟨u, v, hcut, hfit⟩ := h
    exact Or.inr (Or.inl ⟨t, p, u, v, rfl, ht0, ht, hp, hcut, hfit⟩)

/-- In front of another mark a star takes nothing. -/
theorem firstFit_star_mark_iff {m : α} {p s : List α} (hm : S.Starts m) :
    FirstFit S (S.star :: m :: p) s ↔ FirstFit S (m :: p) s := by
  rw [firstFit_star_cons_iff]
  constructor
  · intro h
    rcases h with hnil | ⟨t, q, u, v, he, ht0, ht, _⟩ | ⟨_, _, _, _, hfit⟩
    · exact absurd hnil (List.cons_ne_nil m p)
    · obtain ⟨c, t', rfl⟩ := List.exists_cons_of_ne_nil ht0
      simp only [List.cons_append, List.cons.injEq] at he
      exact absurd (he.1 ▸ hm) (ht c List.mem_cons_self)
    · exact hfit
  · exact fun hfit => Or.inr (Or.inr ⟨m, p, rfl, hm, hfit⟩)

theorem firstFit_opening_cons_iff {p s : List α} : FirstFit S (S.opening :: p) s ↔
    (∃ g q, p = g ++ S.closing :: q ∧ S.closing ∉ g ∧ ∃ alt ∈ beforeEmpty S.sep g, FirstFit S (alt ++ q) s) ∨
    (S.closing ∉ p ∧ ∃ v, s = S.opening :: v ∧ FirstFit S p v) := by
  have hmark : ¬ S.Letter S.opening := not_not_intro S.starts_opening
  simp only [firstFit_cons_iff, hmark, S.opening_ne_any, S.opening_ne_star, true_and, false_and,
    false_or]

/-- A group fits by one of the alternatives before an empty one. -/
theorem firstFit_group_iff {g p s : List α} (hg : S.closing ∉ g) :
    FirstFit S (S.opening :: (g ++ S.closing :: p)) s ↔
      ∃ alt ∈ beforeEmpty S.sep g, FirstFit S (alt ++ p) s := by
  rw [firstFit_opening_cons_iff]
  constructor
  · intro h
    rcases h with ⟨g', q, he, hg', hfit⟩ | ⟨hp, _⟩
    · have hcut := cut_singleton p hg
      rw [he, cut_singleton q hg'] at hcut
      simp only [Option.some.injEq, Prod.mk.injEq] at hcut
      obtain ⟨rfl, rfl⟩ := hcut
      exact hfit
    · exact absurd (by simp) hp
  · exact fun hfit => Or.inl ⟨g, p, rfl, hg, hfit⟩

/-- An opening mark that nothing closes fits itself. -/
theorem firstFit_opening_iff {p s : List α} (hp : S.closing ∉ p) :
    FirstFit S (S.opening :: p) s ↔ ∃ v, s = S.opening :: v ∧ FirstFit S p v := by
  rw [firstFit_opening_cons_iff]
  constructor
  · intro h
    rcases h with ⟨g, q, rfl, _⟩ | ⟨_, hfit⟩
    · exact absurd (by simp) hp
    · exact hfit
  · exact fun hfit => Or.inr ⟨hp, hfit⟩

end Glob
