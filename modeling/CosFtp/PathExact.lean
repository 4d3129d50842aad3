/-
# Where the access check is exact

An argument that ends in a slash and has no two slashes side by side leaves one
empty component, the last. The level by level reading of such a path and the one of
POSIX go the same way, and differ at most in the slash at the end. So the check of
access.c says exactly whether the path leads to the root or below it, however the
`.` and `..` components stand (`check_exact`).

The loops of `session_real_path` are written as relations here, a round for each
constructor, so that a derivation is a run that ends. They end on every path: each
round but the last makes it shorter.

Key definitions: `RemovesHere`, `ResolvesUp`, `RealPath`.
Key theorems: `realPath_sessionRealPath`, `check_exact`.
-/
import CosFtp.Path

namespace CosFtp

open Search Walk

/-! ### The loops end -/

/-- A run of the first loop of `session_real_path`, from a path to the one it leaves. -/
inductive RemovesHere : Bytes → Bytes → Prop
  | done {p : Bytes} (h : (strReplaceText p (text "/./") (text "/")).length = p.length) :
      RemovesHere p (strReplaceText p (text "/./") (text "/"))
  | again {p q : Bytes} (h : (strReplaceText p (text "/./") (text "/")).length ≠ p.length)
      (hrest : RemovesHere (strReplaceText p (text "/./") (text "/")) q) : RemovesHere p q

/-- What a round of the second loop leaves of the two sides of a "/../". -/
def withoutParent (lhs rhs : Bytes) : Bytes :=
  let lhs' := (strSplitCharReverse lhs chSlash).1
  if rhs ≠ [] then lhs' ++ [chSlash] ++ rhs else lhs'

/-- A run of the second loop. -/
inductive ResolvesUp : Bytes → Bytes → Prop
  | done {p : Bytes} (h : (strSplitText p (text "/../")).1.length = p.length) :
      ResolvesUp p (strSplitText p (text "/../")).1
  | again {p q : Bytes} (h : (strSplitText p (text "/../")).1.length ≠ p.length)
      (hrest : ResolvesUp (withoutParent (strSplitText p (text "/../")).1 (strSplitText p (text "/../")).2) q) :
      ResolvesUp p q

/-- A run of `session_real_path`. -/
def RealPath (T : Tunables) (cwd p q : Bytes) : Prop :=
  ∃ r, RemovesHere (prependSessionPathToFilename T cwd p) r ∧ ResolvesUp r q

theorem removesHere_removeHereLoop : ∀ (n : ℕ) {p : Bytes}, p.length < n → RemovesHere p (removeHereLoop n p)
  | 0, _, h => absurd h (Nat.not_lt_zero _)
  | n + 1, p, h => by
    have hle : (strReplaceText p (text "/./") (text "/")).length ≤ p.length :=
      length_strReplaceText_le (by decide) (by decide) (by decide) p
    rw [removeHereLoop]
    by_cases hsame : (strReplaceText p (text "/./") (text "/")).length = p.length
    · rw [if_pos hsame]
      exact .done hsame
    · rw [if_neg hsame]
      exact .again hsame (removesHere_removeHereLoop n (by omega))

/-- A round takes at least the three bytes of "/.." away. -/
theorem length_withoutParent_lt {p : Bytes} (h : (strSplitText p (text "/../")).1.length ≠ p.length) :
    (withoutParent (strSplitText p (text "/../")).1 (strSplitText p (text "/../")).2).length < p.length := by
  rw [strSplitText_eq (by decide) (by decide)] at h ⊢
  cases hcut : cut (text "/../") p with
  | none =>
    rw [hcut] at h
    exact absurd rfl h
  | some halves =>
    obtain ⟨l, r⟩ := halves
    have hlen := length_of_cut hcut
    have hfour : (text "/../").length = 4 := by decide
    have hle := length_strSplitCharReverse_le l chSlash
    show (withoutParent l r).length < p.length
    unfold withoutParent
    by_cases hr : r = []
    · rw [if_neg (not_not.mpr hr)]
      omega
    · rw [if_pos hr, List.length_append, List.length_append, List.length_singleton]
      omega

theorem resolvesUp_resolveUpLoop : ∀ (n : ℕ) {p : Bytes}, p.length < n → ResolvesUp p (resolveUpLoop n p)
  | 0, _, h => absurd h (Nat.not_lt_zero _)
  | n + 1, p, h => by
    rw [resolveUpLoop]
    by_cases hsame : (strSplitText p (text "/../")).1.length = p.length
    · simp only [hsame, if_true]
      exact .done hsame
    · have hlt := length_withoutParent_lt hsame
      simp only [hsame, if_false]
      exact .again hsame (resolvesUp_resolveUpLoop n (by omega))

/-- **`session_real_path` ends on every path**, with what the bounded loops leave. -/
theorem realPath_sessionRealPath (T : Tunables) (cwd p : Bytes) : RealPath T cwd p (sessionRealPath T cwd p) :=
  ⟨_, removesHere_removeHereLoop _ (Nat.lt_succ_self _), resolvesUp_resolveUpLoop _ (Nat.lt_succ_self _)⟩

/-! ### The components of such a path -/

/-- A path that ends in a slash, with no two slashes side by side. -/
structure SlashEnded (p : Bytes) : Prop where
  last : p.getLast? = some chSlash
  single : ¬ [chSlash, chSlash] <:+: p

/-- Two slashes stand side by side around an empty component. -/
theorem infix_render_of_empty {us vs : List Bytes} (hvs : vs ≠ []) :
    [chSlash, chSlash] <:+: render (us ++ [] :: vs) := by
  obtain ⟨v, vs, rfl⟩ := List.exists_cons_of_ne_nil hvs
  refine ⟨render us, v ++ render vs, ?_⟩
  rw [render_append, render_cons, render_cons]
  simp

theorem components_slashEnded {s : Bytes} (h : SlashEnded (chSlash :: s)) :
    ∃ cs, components (chSlash :: s) = cs ++ [[]] ∧ ∀ c ∈ cs, c ≠ [] := by
  have hrender := render_components s
  have hfree := slashFree_components (chSlash :: s)
  rcases List.eq_nil_or_concat (components (chSlash :: s)) with hnil | ⟨cs, c, hcs⟩
  · rw [components_slash] at hnil
    exact absurd hnil (List.splitOn_ne_nil _ s)
  rw [List.concat_eq_append] at hcs
  rw [hcs] at hrender hfree
  -- the last component is empty, since the path ends in a slash
  have hlast : c = [] := by
    by_contra hne
    have hend := h.last
    rw [← hrender, getLast?_render_concat cs hne] at hend
    exact hfree c (by simp) (List.mem_of_getLast? hend)
  subst hlast
  refine ⟨cs, hcs, ?_⟩
  rintro c hc rfl
  obtain ⟨us, vs, rfl⟩ := List.append_of_mem hc
  apply h.single
  rw [← hrender, List.append_assoc, List.cons_append]
  exact infix_render_of_empty (by simp)

/-- So is the path built from such an argument below the root. -/
theorem componentsBelow_slashEnded (R cwd : Dir) {a : Bytes} (h : SlashEnded a) :
    ∃ cs, componentsBelow R cwd a = cs ++ [[]] ∧ ∀ c ∈ cs, c ≠ [] := by
  unfold componentsBelow
  by_cases hhead : a.head? = some chSlash
  · obtain ⟨s, rfl⟩ : ∃ s, a = chSlash :: s := List.head?_eq_some_iff.mp hhead
    rw [if_pos hhead]
    exact components_slashEnded h
  · have hslash : SlashEnded (chSlash :: a) := by
      refine ⟨by rw [List.getLast?_cons, h.last]; rfl, ?_⟩
      intro hinfix
      rcases List.infix_cons_iff.mp hinfix with hprefix | hinfix
      · obtain ⟨t, ht⟩ := (List.cons_prefix_cons.mp hprefix).2
        exact hhead (by rw [← ht]; rfl)
      · exact h.single hinfix
    obtain ⟨cs, hcs, hne⟩ := components_slashEnded hslash
    rw [if_neg hhead, hcs]
    refine ⟨cwd.names.drop R.names.length ++ cs, by rw [List.append_assoc], ?_⟩
    intro c hc
    rcases List.mem_append.mp hc with hc | hc
    · exact (cwd.isDirName c (List.mem_of_mem_drop hc)).1.1
    · exact hne c hc

/-! ### The two readings -/

/-- The path the two loops come to is the one POSIX does, with or without a slash at
its end. -/
theorem walk_level_eq {cs : List Bytes} (st : List Bytes) (h : ∀ c ∈ cs, c ≠ []) :
    walk st (levelMoves pathMarks (dropHere pathMarks (cs ++ [[]]))) = walk st (posixMoves pathMarks (cs ++ [[]])) ∨
      walk st (levelMoves pathMarks (dropHere pathMarks (cs ++ [[]]))) =
        walk st (posixMoves pathMarks (cs ++ [[]])) ++ [[]] := by
  have hposix : posixMoves pathMarks (cs ++ [[]]) = posixMoves pathMarks (cs.filter (· ≠ pathMarks.here)) := by
    rw [posixMoves_filter, posixMoves, List.flatMap_append]
    exact List.append_nil _
  have hnames : ∀ c ∈ cs.filter (· ≠ pathMarks.here), c ≠ pathMarks.empty ∧ c ≠ pathMarks.here := by
    intro c hc
    obtain ⟨hmem, hhere⟩ := List.mem_filter.mp hc
    exact ⟨h c hmem, by simpa using hhere⟩
  rw [dropHere_concat, hposix]
  exact walk_levelMoves_concat_empty pathMarks st hnames

section

variable {T : Tunables} {R cwd : Dir} {a : Bytes}

theorem prefix_walk_level_iff (h : SlashEnded a) :
    R.names <+: walk R.names (levelMoves pathMarks (dropHere pathMarks (componentsBelow R cwd a))) ↔
      R.names <+: walk R.names (posixMoves pathMarks (componentsBelow R cwd a)) := by
  obtain ⟨cs, hcs, hne⟩ := componentsBelow_slashEnded R cwd h
  rw [hcs]
  rcases walk_level_eq R.names hne with hsame | hslash
  · rw [hsame]
  · rw [hslash]
    constructor
    · -- the component at the end is no name of the root
      have hnot : ¬ pathMarks.IsName [] := fun hname => hname.1 rfl
      exact prefix_of_prefix_not_name pathMarks (fun n hn => (R.isDirName n hn).1) hnot
    · intro hprefix
      exact hprefix.trans (List.prefix_append _ _)

/-- The path `session_real_path` leaves. -/
theorem sessionRealPath_slashEnded (hR : getUserRootDir T = R.path) (hcwd : R.names <+: cwd.names)
    (h0 : chNul ∉ a) (h : SlashEnded a) :
    sessionRealPath T cwd.path a = render (resolve (prependSessionPathToFilename T cwd.path a)).names ∨
      sessionRealPath T cwd.path a =
        render (resolve (prependSessionPathToFilename T cwd.path a)).names ++ [chSlash] := by
  obtain ⟨cs, hcs, hne⟩ := componentsBelow_slashEnded R cwd h
  have hpath := prependSessionPathToFilename_eq hR hcwd a
  have hfree : SlashFree (R.names ++ componentsBelow R cwd a) :=
    R.slashFree.append (slashFree_componentsBelow R cwd a)
  have hnames : ∀ c ∈ R.names ++ cs, c ≠ [] := by
    intro c hc
    rcases List.mem_append.mp hc with hc | hc
    · exact (R.isDirName c hc).1.1
    · exact hne c hc
  have hposix : walk [] (posixMoves pathMarks (R.names ++ cs ++ [[]])) =
      (resolve (prependSessionPathToFilename T cwd.path a)).names := by
    rw [resolve_prepend hR hcwd h0, hcs, List.append_assoc,
      posixMoves_names pathMarks (fun c hc => (R.isDirName c hc).1), walk_append, walk_downs, List.nil_append]
  rw [sessionRealPath_render hfree hpath, hcs, ← List.append_assoc, ← hposix]
  rcases walk_level_eq [] hnames with hsame | hslash
  · left
    rw [hsame]
  · right
    rw [hslash, render_append]
    rfl

end

/-- **The access check is exact on an argument that ends in a slash and has no two
slashes side by side**: it lets the name through exactly if the path built from it
leads to the root or below it. `session_real_path` ends, with the path that leads
there, or that and a slash. -/
theorem check_exact (T : Tunables) (R cwd : Dir) (a : Bytes) (hR : getUserRootDir T = R.path)
    (hcwd : R.names <+: cwd.names) (hdeny : T.denyFile = none) (h0 : chNul ∉ a)
    (hlast : a.getLast? = some chSlash) (hsingle : ¬ [chSlash, chSlash] <:+: a) :
    (vsfAccessSessionCheckFile T cwd.path a = true ↔
      R.names <+: (resolve (prependSessionPathToFilename T cwd.path a)).names) ∧
    RealPath T cwd.path a (sessionRealPath T cwd.path a) ∧
    (sessionRealPath T cwd.path a = render (resolve (prependSessionPathToFilename T cwd.path a)).names ∨
      sessionRealPath T cwd.path a =
        render (resolve (prependSessionPathToFilename T cwd.path a)).names ++ [chSlash]) := by
  have hended : SlashEnded a := ⟨hlast, hsingle⟩
  have hallowed : vsfAccessCheckFile T a = true := by
    unfold vsfAccessCheckFile
    rw [hdeny]
  refine ⟨?_, realPath_sessionRealPath T cwd.path a, sessionRealPath_slashEnded hR hcwd h0 hended⟩
  rw [vsfAccessSessionCheckFile_render hR (slashFree_componentsBelow R cwd a)
    (nul_not_mem_componentsBelow R cwd h0) (componentsBelow_ne_nil R cwd a)
    (prependSessionPathToFilename_eq hR hcwd a), prefix_walk_level_iff hended, resolve_prepend hR hcwd h0]
  exact and_iff_left hallowed

/-- Out of the root and back into it. -/
theorem check_exact_out_and_back :
    vsfAccessSessionCheckFile habServer habRoot.path (text "./../b/") = true ∧
    RealPath habServer habRoot.path (text "./../b/") (sessionRealPath habServer habRoot.path (text "./../b/")) := by
  have hR : getUserRootDir habServer = habRoot.path := by decide
  have hexact := check_exact habServer habRoot habRoot (text "./../b/") hR List.prefix_rfl rfl
    (by decide) (by decide) (by decide +kernel)
  exact ⟨hexact.1.mpr (by decide +kernel), hexact.2.1⟩

end CosFtp
