/-
# Walks in a directory tree

A path is a list of components, and what it denotes is a walk: each component
is no move at all, a step down into the directory it names, or a step up
(which stays put at the top). A stack of names is where the walk stands.
Two readings of the components are given: `posixMoves` ignores empty
components and `here`, `levelMoves` takes an empty component for a directory
of its own and does not interpret the last component.

Relative to where it starts a walk comes to a number of levels it climbs and
the names it then goes down (`climb`, `walk_eq_climb`), and it ends at or
below its start exactly if those names lead back into it (`prefix_walk_iff`).

Key definitions: `Move`, `walk`, `climb`, `LeadsBack`, `posixMoves`, `levelMoves`.
Key theorems: `walk_eq_climb`, `prefix_walk_iff`, `prefix_posix_of_level`.
-/
import Mathlib.Data.List.Basic
import Mathlib.Data.Nat.Notation

namespace Walk

variable {ν : Type}

/-- One move of a walk. -/
inductive Move (ν : Type) where
  | down (c : ν)
  | up
  deriving DecidableEq, Repr

open Move

/-- Where a walk from the directory `st` ends. -/
def walk : List ν → List (Move ν) → List ν
  | st, [] => st
  | st, down c :: ms => walk (st ++ [c]) ms
  | st, up :: ms => walk st.dropLast ms

/-- The levels climbed above the start so far and the names gone down since,
after the moves. -/
def climbFrom [DecidableEq ν] : ℕ → List ν → List (Move ν) → ℕ × List ν
  | k, ns, [] => (k, ns)
  | k, ns, down c :: ms => climbFrom k (ns ++ [c]) ms
  | k, ns, up :: ms => if ns = [] then climbFrom (k + 1) [] ms else climbFrom k ns.dropLast ms

/-- A walk as the levels it climbs above its start and the names it then goes
down. -/
def climb [DecidableEq ν] (ms : List (Move ν)) : ℕ × List ν := climbFrom 0 [] ms

/-- From `k` levels above the directory `st`, the names lead back into it. -/
def LeadsBack (st : List ν) (p : ℕ × List ν) : Prop := st.drop (st.length - p.1) <+: p.2

instance [DecidableEq ν] (st : List ν) (p : ℕ × List ν) : Decidable (LeadsBack st p) :=
  inferInstanceAs (Decidable (st.drop (st.length - p.1) <+: p.2))

theorem walk_append : ∀ (st : List ν) (ms ms' : List (Move ν)),
    walk st (ms ++ ms') = walk (walk st ms) ms'
  | _, [], _ => rfl
  | st, down c :: ms, ms' => walk_append (st ++ [c]) ms ms'
  | st, up :: ms, ms' => walk_append st.dropLast ms ms'

theorem walk_downs : ∀ (st ns : List ν), walk st (ns.map down) = st ++ ns
  | st, [] => by simp [walk]
  | st, n :: ns => by simp [walk, walk_downs (st ++ [n]) ns]

/-- A walk passes only names it starts with or goes down to. -/
theorem mem_walk : ∀ (st : List ν) (ms : List (Move ν)) {c : ν}, c ∈ walk st ms →
    c ∈ st ∨ down c ∈ ms
  | _, [], _, h => .inl h
  | st, down d :: ms, c, h => by
    rcases mem_walk _ ms h with h | h
    · rcases List.mem_append.mp h with h | h
      · exact .inl h
      · exact .inr (by simp [List.mem_singleton.mp h])
    · exact .inr (List.mem_cons_of_mem _ h)
  | st, up :: ms, c, h => by
    rcases mem_walk _ ms h with h | h
    · exact .inl (List.dropLast_subset st h)
    · exact .inr (List.mem_cons_of_mem _ h)

theorem walk_eq_climbFrom [DecidableEq ν] (st : List ν) : ∀ (ms : List (Move ν)) (k : ℕ) (ns : List ν),
    walk (st.take (st.length - k) ++ ns) ms =
      st.take (st.length - (climbFrom k ns ms).1) ++ (climbFrom k ns ms).2
  | [], k, ns => rfl
  | down c :: ms, k, ns => by
    rw [walk, climbFrom, List.append_assoc]
    exact walk_eq_climbFrom st ms k (ns ++ [c])
  | up :: ms, k, ns => by
    rw [walk, climbFrom]
    by_cases h : ns = []
    · subst h
      have hd : (st.take (st.length - k)).dropLast = st.take (st.length - (k + 1)) := by
        rw [List.dropLast_eq_take, List.length_take, List.take_take]
        congr 1
        omega
      rw [List.append_nil, if_pos rfl, hd]
      simpa using walk_eq_climbFrom st ms (k + 1) []
    · rw [if_neg h, List.dropLast_append_of_ne_nil h]
      exact walk_eq_climbFrom st ms k ns.dropLast

/-- **A walk is a climb.** It ends where its names lead from `k` levels above
its start. -/
theorem walk_eq_climb [DecidableEq ν] (st : List ν) (ms : List (Move ν)) :
    walk st ms = st.take (st.length - (climb ms).1) ++ (climb ms).2 := by
  have h := walk_eq_climbFrom st ms 0 []
  simpa [climb] using h

theorem prefix_take_append_iff {st ns : List ν} (m : ℕ) :
    st <+: st.take m ++ ns ↔ st.drop m <+: ns := by
  constructor
  · rintro ⟨r, hr⟩
    refine ⟨r, ?_⟩
    have : st.take m ++ (st.drop m ++ r) = st.take m ++ ns := by
      rw [← List.append_assoc, List.take_append_drop, hr]
    exact List.append_cancel_left this
  · rintro ⟨r, rfl⟩
    exact ⟨r, by rw [← List.append_assoc, List.take_append_drop]⟩

/-- A walk ends at or below its start exactly if it leads back into it. -/
theorem prefix_walk_iff [DecidableEq ν] (st : List ν) (ms : List (Move ν)) :
    st <+: walk st ms ↔ LeadsBack st (climb ms) := by
  rw [walk_eq_climb, prefix_take_append_iff]
  rfl

/-- A walk from `st ++ st` ends at or below the outer `st` exactly if it leads
back into it from `st.length` levels further down. -/
theorem prefix_walk_twice_iff [DecidableEq ν] (st : List ν) (ms : List (Move ν)) :
    st <+: walk (st ++ st) ms ↔ LeadsBack st ((climb ms).1 - st.length, (climb ms).2) := by
  rw [walk_eq_climb, LeadsBack]
  set k := (climb ms).1
  have hlen : (st ++ st).length - k = st.length - k + st.length ∨
      st.length ≤ k ∧ (st ++ st).length - k = st.length - (k - st.length) := by
    rw [List.length_append]; omega
  rcases hlen with h | ⟨hk, h⟩
  · -- the outer directory is never left
    have hle : st.length ≤ (st ++ st).length - k := by omega
    have h0 : st.length - (k - st.length) = st.length := by
      rw [List.length_append] at h hle; omega
    rw [h0, List.drop_length]
    refine ⟨fun _ => List.nil_prefix, fun _ => ?_⟩
    rw [List.take_append, List.take_of_length_le hle, List.append_assoc]
    exact List.prefix_append _ _
  · rw [h, List.take_append_of_le_length (by omega)]
    exact prefix_take_append_iff _

/-! ### The two readings of a path -/

/-- The names a path's components are compared with. -/
structure Marks (ν : Type) where
  empty : ν
  here : ν
  up : ν
  here_ne_empty : here ≠ empty
  up_ne_empty : up ≠ empty
  up_ne_here : up ≠ here

variable [DecidableEq ν] (N : Marks ν)

/-- A name that stands for a directory. -/
def Marks.IsName (c : ν) : Prop := c ≠ N.empty ∧ c ≠ N.here ∧ c ≠ N.up

instance (c : ν) : Decidable (N.IsName c) :=
  inferInstanceAs (Decidable (c ≠ N.empty ∧ c ≠ N.here ∧ c ≠ N.up))

/-- What one component means to POSIX. -/
def posixMove (c : ν) : List (Move ν) :=
  if c = N.empty ∨ c = N.here then [] else if c = N.up then [.up] else [.down c]

/-- The moves of a path: empty components and `here` are none. -/
def posixMoves (cs : List ν) : List (Move ν) := cs.flatMap (posixMove N)

/-- Without the `here` components, the last one apart. -/
def dropHere : List ν → List ν
  | [] => []
  | [c] => [c]
  | c :: d :: cs => if c = N.here then dropHere (d :: cs) else c :: dropHere (d :: cs)

/-- The moves of a path read level by level: an empty component is a
directory, the last component is not interpreted, and an empty last component
after `up` vanishes. -/
def levelMoves : List ν → List (Move ν)
  | [] => []
  | [c] => [.down c]
  | c :: d :: cs =>
    if c = N.up then
      if d = N.empty ∧ cs = [] then [.up] else .up :: levelMoves (d :: cs)
    else .down c :: levelMoves (d :: cs)

theorem dropHere_ne_nil : ∀ {cs : List ν}, cs ≠ [] → dropHere N cs ≠ []
  | [], h => absurd rfl h
  | [_], _ => by simp [dropHere]
  | c :: d :: cs, _ => by
    rw [dropHere]
    split
    · exact dropHere_ne_nil (by simp)
    · simp

theorem mem_of_mem_dropHere : ∀ {cs : List ν} {c : ν}, c ∈ dropHere N cs → c ∈ cs
  | [], _, h => h
  | [_], _, h => h
  | a :: d :: cs, c, h => by
    rw [dropHere] at h
    split at h
    · exact List.mem_cons_of_mem _ (mem_of_mem_dropHere h)
    · rcases List.mem_cons.mp h with rfl | h
      · exact List.mem_cons_self
      · exact List.mem_cons_of_mem _ (mem_of_mem_dropHere h)

theorem mem_of_down_mem_levelMoves : ∀ {cs : List ν} {c : ν}, .down c ∈ levelMoves N cs → c ∈ cs
  | [], _, h => absurd h (by simp [levelMoves])
  | [_], _, h => by simpa [levelMoves] using h
  | a :: d :: cs, c, h => by
    rw [levelMoves] at h
    split at h
    · split at h
      · simp at h
      · have h' : .down c ∈ levelMoves N (d :: cs) := by simpa using h
        exact List.mem_cons_of_mem _ (mem_of_down_mem_levelMoves h')
    · rcases List.mem_cons.mp h with h | h
      · exact Move.down.inj h ▸ List.mem_cons_self
      · exact List.mem_cons_of_mem _ (mem_of_down_mem_levelMoves h)

theorem mem_of_down_mem_posixMoves {cs : List ν} {c : ν} (h : .down c ∈ posixMoves N cs) :
    c ∈ cs ∧ N.IsName c := by
  obtain ⟨d, hd, hc⟩ := List.mem_flatMap.mp h
  rw [posixMove] at hc
  split at hc
  · simp at hc
  · rename_i hne
    split at hc
    · simp at hc
    · rename_i hup
      obtain rfl : c = d := by simpa using hc
      exact ⟨hd, fun h => hne (.inl h), fun h => hne (.inr h), hup⟩

/-- Names before the rest are walked down one by one. -/
theorem levelMoves_names : ∀ (ns : List ν) {cs : List ν}, (∀ n ∈ ns, n ≠ N.up) → cs ≠ [] →
    levelMoves N (ns ++ cs) = ns.map .down ++ levelMoves N cs
  | [], _, _, _ => rfl
  | n :: ns, cs, h, hcs => by
    have hn : n ≠ N.up := h n (by simp)
    have ih := levelMoves_names ns (fun x hx => h x (by simp [hx])) hcs
    cases hns : ns ++ cs with
    | nil => simp at hns; exact absurd hns.2 hcs
    | cons d r =>
      rw [List.cons_append, hns, levelMoves, if_neg hn, ← hns, ih]
      rfl

theorem dropHere_names : ∀ (ns : List ν) {cs : List ν}, (∀ n ∈ ns, n ≠ N.here) → cs ≠ [] →
    dropHere N (ns ++ cs) = ns ++ dropHere N cs
  | [], _, _, _ => rfl
  | n :: ns, cs, h, hcs => by
    have hn : n ≠ N.here := h n (by simp)
    have ih := dropHere_names ns (fun x hx => h x (by simp [hx])) hcs
    cases hns : ns ++ cs with
    | nil => simp at hns; exact absurd hns.2 hcs
    | cons d r => rw [List.cons_append, hns, dropHere, if_neg hn, ← hns, ih]; rfl

theorem posixMoves_names {ns : List ν} (h : ∀ n ∈ ns, N.IsName n) (cs : List ν) :
    posixMoves N (ns ++ cs) = ns.map .down ++ posixMoves N cs := by
  have hns : posixMoves N ns = ns.map .down := by
    induction ns with
    | nil => rfl
    | cons n ns ih =>
      obtain ⟨h1, h2, h3⟩ := h n (by simp)
      have := ih fun x hx => h x (by simp [hx])
      simp only [posixMoves, List.flatMap_cons] at this ⊢
      rw [this, posixMove, if_neg (by simp [h1, h2]), if_neg h3]
      rfl
  rw [posixMoves, List.flatMap_append]
  exact congrArg (· ++ _) hns

/-! ### Where the readings part -/

/-- An `up` that the two readings may take differently: it is the last component,
or an empty one stands somewhere in front of it. -/
def Masked (cs : List ν) : Prop := cs.getLast? = some N.up ∨ List.Sublist [N.empty, N.up] cs

instance (cs : List ν) : Decidable (Masked N cs) :=
  inferInstanceAs (Decidable (cs.getLast? = some N.up ∨ List.Sublist [N.empty, N.up] cs))

omit [DecidableEq ν] in
theorem Masked.cons {c d : ν} {cs : List ν} (h : Masked N (d :: cs)) : Masked N (c :: d :: cs) := by
  rcases h with h | h
  · left
    rwa [List.getLast?_cons_cons]
  · right
    exact h.cons c

omit [DecidableEq ν] in
/-- What begins with names only does so in front of the first that is none. -/
theorem prefix_of_prefix_not_name {ns st rest : List ν} {c : ν} (hns : ∀ n ∈ ns, N.IsName n)
    (hc : ¬ N.IsName c) (h : ns <+: st ++ c :: rest) : ns <+: st := by
  rcases List.prefix_or_prefix_of_prefix h (List.prefix_append st (c :: rest)) with hle | hge
  · exact hle
  · obtain ⟨t, rfl⟩ := hge
    have ht : t <+: c :: rest := (List.prefix_append_right_inj st).mp h
    cases t with
    | nil => simp
    | cons d t =>
      have hd : d = c := (List.cons_prefix_cons.mp ht).1
      exact absurd (hd ▸ hns d (by simp)) hc

theorem posixMoves_cons (c : ν) (cs : List ν) :
    posixMoves N (c :: cs) = posixMove N c ++ posixMoves N cs := List.flatMap_cons

/-- A path without `up` leads down from where it starts. -/
theorem prefix_walk_posixMoves : ∀ {cs : List ν} (st : List ν), N.up ∉ cs → st <+: walk st (posixMoves N cs)
  | [], st, _ => List.prefix_rfl
  | c :: cs, st, h => by
    have hc : c ≠ N.up := fun he => h (by simp [he])
    have hcs : N.up ∉ cs := fun hmem => h (by simp [hmem])
    rw [posixMoves_cons, posixMove, walk_append]
    split
    · exact prefix_walk_posixMoves st hcs
    · exact (List.prefix_append st [c]).trans (prefix_walk_posixMoves (st ++ [c]) hcs)

/-- A path without `up` is walked down component by component. -/
theorem walk_levelMoves_no_up : ∀ {cs : List ν} (st : List ν), N.up ∉ cs → walk st (levelMoves N cs) = st ++ cs
  | [], st, _ => by simp [levelMoves, walk]
  | [c], st, _ => by simp [levelMoves, walk]
  | c :: d :: cs, st, h => by
    have hc : c ≠ N.up := fun he => h (by simp [he])
    rw [levelMoves, if_neg hc, walk, walk_levelMoves_no_up (st ++ [c]) (fun hmem => h (by simp [hmem])),
      List.append_assoc, List.singleton_append]

/-- Nothing is dropped but `here`, and the last component stays. -/
theorem dropHere_concat (c : ν) : ∀ cs : List ν, dropHere N (cs ++ [c]) = cs.filter (· ≠ N.here) ++ [c]
  | [] => rfl
  | d :: cs => by
    obtain ⟨e, es, hes⟩ := List.exists_cons_of_ne_nil (List.append_ne_nil_of_right_ne_nil cs (List.cons_ne_nil c []))
    rw [List.cons_append, hes, dropHere, ← hes, dropHere_concat c cs]
    by_cases hd : d = N.here
    · simp [hd]
    · simp [hd]

/-- POSIX passes `here` over. -/
theorem posixMoves_filter (cs : List ν) : posixMoves N (cs.filter (· ≠ N.here)) = posixMoves N cs := by
  induction cs with
  | nil => rfl
  | cons c cs ih =>
    rw [posixMoves_cons, ← ih]
    by_cases hc : c = N.here
    · simp [hc, posixMove]
    · simp [hc, posixMoves_cons]

/-- Without empty components but the last, and without `here`, the two readings differ
by that one. -/
theorem walk_levelMoves_concat_empty : ∀ {cs : List ν} (st : List ν), (∀ c ∈ cs, c ≠ N.empty ∧ c ≠ N.here) →
    walk st (levelMoves N (cs ++ [N.empty])) = walk st (posixMoves N cs) ∨
      walk st (levelMoves N (cs ++ [N.empty])) = walk st (posixMoves N cs) ++ [N.empty]
  | [], _, _ => .inr rfl
  | [c], st, h => by
    have hc : ¬ (c = N.empty ∨ c = N.here) := not_or.mpr (h c (by simp))
    rw [posixMoves_cons, posixMove, if_neg hc]
    show walk st (levelMoves N [c, N.empty]) = _ ∨ walk st (levelMoves N [c, N.empty]) = _
    rw [levelMoves]
    by_cases hup : c = N.up
    · left
      simp [hup, posixMoves, walk]
    · right
      simp [hup, posixMoves, walk, levelMoves]
  | c :: d :: cs, st, h => by
    have hc : ¬ (c = N.empty ∨ c = N.here) := not_or.mpr (h c (by simp))
    have hd : ¬ (d = N.empty ∧ cs ++ [N.empty] = []) := fun he => (h d (by simp)).1 he.1
    have hrest : ∀ x ∈ d :: cs, x ≠ N.empty ∧ x ≠ N.here := fun x hx => h x (by simp [hx])
    rw [posixMoves_cons, posixMove, if_neg hc, List.cons_append, List.cons_append, levelMoves, if_neg hd]
    by_cases hup : c = N.up
    · rw [if_pos hup, if_pos hup]
      exact walk_levelMoves_concat_empty st.dropLast hrest
    · rw [if_neg hup, if_neg hup]
      exact walk_levelMoves_concat_empty (st ++ [c]) hrest

/-- **Where no `up` is masked**, a path that ends below a directory level by level
ends below it by POSIX too. -/
theorem prefix_posix_of_level {ns : List ν} (hns : ∀ n ∈ ns, N.IsName n) : ∀ {cs : List ν} (st : List ν),
    ¬ Masked N cs → ns <+: walk st (levelMoves N (dropHere N cs)) → ns <+: walk st (posixMoves N cs)
  | [], _, _, h => h
  | [c], st, hm, h => by
    have hup : c ≠ N.up := fun he => hm (.inl (by rw [he]; rfl))
    have hlast : ns <+: st ++ [c] := h
    rw [posixMoves_cons, posixMove]
    split
    · rename_i hc
      have hname : ¬ N.IsName c := fun hn => hc.elim hn.1 hn.2.1
      exact prefix_of_prefix_not_name N hns hname hlast
    · exact hlast
  | c :: d :: cs, st, hm, h => by
    have hm' : ¬ Masked N (d :: cs) := fun hmask => hm hmask.cons
    rw [dropHere] at h
    rw [posixMoves_cons, posixMove]
    by_cases hhere : c = N.here
    · rw [if_pos hhere] at h
      rw [if_pos (.inr hhere)]
      exact prefix_posix_of_level hns st hm' h
    rw [if_neg hhere] at h
    obtain ⟨e, es, hes⟩ := List.exists_cons_of_ne_nil (dropHere_ne_nil N (List.cons_ne_nil d cs))
    by_cases hempty : c = N.empty
    · -- nothing behind it goes up: it had to be reached before
      have hnoup : N.up ∉ d :: cs := by
        intro hmem
        refine hm (.inr ?_)
        rw [hempty]
        exact (List.singleton_sublist.mpr hmem).cons_cons N.empty
      have hnodrop : N.up ∉ dropHere N (d :: cs) := fun hmem => hnoup (mem_of_mem_dropHere N hmem)
      have hall : N.up ∉ c :: dropHere N (d :: cs) := by
        intro hmem
        rcases List.mem_cons.mp hmem with he | hmem
        · exact N.up_ne_empty (he.trans hempty)
        · exact hnodrop hmem
      rw [walk_levelMoves_no_up N st hall] at h
      have hname : ¬ N.IsName c := fun hn => hn.1 hempty
      rw [if_pos (.inl hempty)]
      exact (prefix_of_prefix_not_name N hns hname h).trans (prefix_walk_posixMoves N st hnoup)
    rw [if_neg (by simp [hhere, hempty])]
    rw [hes, levelMoves] at h
    by_cases hup : c = N.up
    · rw [if_pos hup] at h ⊢
      show ns <+: walk st.dropLast (posixMoves N (d :: cs))
      refine prefix_posix_of_level hns st.dropLast hm' ?_
      rw [hes]
      split at h
      · -- the empty component that vanished
        rename_i hend
        rw [hend.1, hend.2]
        exact h.trans (List.prefix_append _ _)
      · exact h
    · rw [if_neg hup] at h ⊢
      refine prefix_posix_of_level hns (st ++ [c]) hm' ?_
      rw [hes]
      exact h

end Walk
