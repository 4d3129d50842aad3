/-
# Making the directories of a path

`str_mkdirs` makes the directory in front of the last slash by calling itself,
unless it is there, and then the directory of the path. A path without a slash
has nothing in front of it: `str_split_char_reverse` leaves it as it is, and if
it does not exist the call is for the same path again, without an end.

The file system is a parameter with what POSIX says of `access` and `mkdir`
(`PosixFs`); `folderTree` is one.

* `mkdirs_delivers_iff`: the call ends, and behind a 0 the path and what is
  above it are directories, exactly if the path is empty or absolute or its
  first component exists.
* `mkdirs_never_ends`: with `cos_user_home_dir=data` the login does not come back
  when there is no `data`.

Key definitions: `PosixFs`, `strMkdirs`, `MkdirsDelivers`.
Key theorems: `strMkdirs_ends`, `strMkdirs_runs_on`, `strMkdirs_isDir`, `mkdirs_delivers_iff`.
-/
import CosFtp.Tunables
import CosFtp.Lib.Fields

namespace CosFtp

open Search Fields

/-- A file system, from where the process stands. -/
structure PosixFs (σ : Type) where
  /-- `access(path, F_OK) == 0` -/
  access : Bytes → σ → Bool
  isDir : Bytes → σ → Bool
  mkdir : Bytes → ℕ → σ → ℤ × σ
  access_nil : ∀ s, access [] s = false
  access_above : ∀ {u v s}, u ≠ [] → access (u ++ chSlash :: v) s = true → access u s = true
  isDir_root : ∀ s, isDir [chSlash] s = true
  isDir_above : ∀ {u v s}, u ≠ [] → isDir (u ++ chSlash :: v) s = true → isDir u s = true
  mkdir_isDir : ∀ {p mode s}, (mkdir p mode s).1 = 0 → isDir p (mkdir p mode s).2 = true

/-! ### The recursion -/

/-- What `str_mkdirs` calls itself for: one slash at the end is dropped, and
what stands behind the last slash. -/
def mkdirsParent (p : Bytes) : Bytes :=
  let dir := if p.getLast? = some chSlash then p.dropLast else p
  (strSplitCharReverse dir chSlash).1

section

variable {σ : Type} (fs : PosixFs σ) (mode : ℕ)

/-- `str_mkdirs`, for at most so many calls within each other: `none` if there are more. -/
def strMkdirs : ℕ → Bytes → σ → Option (ℤ × σ)
  | 0, _, _ => none
  | n + 1, p, s =>
    if p = [] then some (0, s)
    else
      let made := if fs.access (cstr (mkdirsParent p)) s then some (0, s) else strMkdirs n (mkdirsParent p) s
      made.map fun (ret, s) => if ret = 0 then fs.mkdir (cstr p) mode s else (ret, s)

/-- A directory above a path. -/
def Above (q p : Bytes) : Prop :=
  (q ≠ [] ∧ ∃ v, p = q ++ chSlash :: v) ∨ q = [chSlash] ∧ p.head? = some chSlash

/-- The call comes back, and if it says so the directories are there. -/
structure MkdirsDelivers (p : Bytes) (s : σ) : Prop where
  ends : ∃ n r, strMkdirs fs mode n p s = some r
  delivers : ∀ n s', strMkdirs fs mode n p s = some (0, s') → p ≠ [] →
    fs.isDir p s' = true ∧ ∀ q, Above q p → fs.isDir q s' = true

/-- What stands in front of the first slash. -/
def firstComponent (p : Bytes) : Bytes := p.takeWhile fun b => b ≠ chSlash

end

/-! ### The path in front -/

theorem strSplitCharReverse_not_mem {c : UInt8} (hc : c ≠ chNul) {d : Bytes} (h : c ∉ d) :
    strSplitCharReverse d c = (d, []) := by
  have hcstr : cstr [c] = [c] := cstr_eq_self (by simpa using hc.symm)
  have hnone : locateReverse [c] d = none := by
    by_cases hlen : [c].length = 0 ∨ d.length < [c].length
    · rw [locateReverse, if_pos hlen]
    · rw [locateReverse, if_neg hlen, List.find?_eq_none]
      intro i _ htake
      have heq : (d.drop i).take 1 = [c] := of_decide_eq_true htake
      have hmem : c ∈ (d.drop i).take 1 := heq ▸ List.mem_singleton_self c
      exact h (List.mem_of_mem_drop (List.mem_of_mem_take hmem))
  rw [strSplitCharReverse, strSplitTextReverse, strLocateTextReverse, hcstr, hnone]
  rfl

/-- A text that has a byte has it a last time. -/
theorem exists_last_of_mem {c : UInt8} {d : Bytes} (h : c ∈ d) : ∃ u v, d = u ++ c :: v ∧ c ∉ v := by
  obtain ⟨a, b, hsplit, ha⟩ := List.eq_append_cons_of_mem (List.mem_reverse.mpr h)
  refine ⟨b.reverse, a.reverse, ?_, by simpa using ha⟩
  have hrev := congrArg List.reverse hsplit
  simpa using hrev

/-- The path in front of a relative path is shorter and begins with the same
component, or it is that component. -/
theorem mkdirsParent_relative {p : Bytes} (hrel : p.head? ≠ some chSlash) :
    mkdirsParent p = firstComponent p ∨
      ∃ v, mkdirsParent p ≠ [] ∧ p = mkdirsParent p ++ chSlash :: v := by
  obtain ⟨dir, tail, hp, hdir, htail⟩ : ∃ dir tail, p = dir ++ tail ∧
      (if p.getLast? = some chSlash then p.dropLast else p) = dir ∧ (tail = [] ∨ tail = [chSlash]) := by
    by_cases hlast : p.getLast? = some chSlash
    · exact ⟨p.dropLast, [chSlash], (List.dropLast_append_getLast? chSlash hlast).symm, if_pos hlast, .inr rfl⟩
    · exact ⟨p, [], (List.append_nil p).symm, if_neg hlast, .inl rfl⟩
  have hparent : mkdirsParent p = (strSplitCharReverse dir chSlash).1 := by
    rw [← hdir]
    rfl
  by_cases hslash : chSlash ∈ dir
  · right
    obtain ⟨u, v, hsplit, hv⟩ := exists_last_of_mem hslash
    have hu : mkdirsParent p = u := by
      rw [hparent, hsplit, strSplitCharReverse_eq (by decide) u hv]
    refine ⟨v ++ tail, ?_, ?_⟩
    · rw [hu]
      rintro rfl
      rw [hp, hsplit] at hrel
      exact hrel rfl
    · rw [hu, hp, hsplit, List.append_assoc, List.cons_append]
  · left
    have hall : ∀ b ∈ dir, decide (b ≠ chSlash) = true := by
      intro b hb
      exact decide_eq_true fun he => hslash (he ▸ hb)
    rw [hparent, strSplitCharReverse_not_mem (by decide) hslash, firstComponent, hp,
      List.takeWhile_append_of_pos hall]
    rcases htail with rfl | rfl
    · simp
    · simp

/-- The path in front of an absolute path is shorter, and absolute or empty. -/
theorem mkdirsParent_absolute {p : Bytes} (habs : p.head? = some chSlash) :
    (mkdirsParent p).length < p.length ∧
      (mkdirsParent p = [] ∨ (mkdirsParent p).head? = some chSlash) := by
  obtain ⟨rest, rfl⟩ : ∃ rest, p = chSlash :: rest := by
    cases p with
    | nil => cases habs
    | cons b rest => exact ⟨rest, by rw [Option.some.inj habs]⟩
  by_cases hroot : rest = []
  · subst hroot
    have hnil : mkdirsParent [chSlash] = [] := by decide
    rw [hnil]
    exact ⟨by decide, .inl rfl⟩
  obtain ⟨dir, hdir, hle, hsame⟩ : ∃ dir, (if (chSlash :: rest).getLast? = some chSlash then
      (chSlash :: rest).dropLast else chSlash :: rest) = chSlash :: dir ∧ dir.length ≤ rest.length ∧
      mkdirsParent (chSlash :: rest) = (strSplitCharReverse (chSlash :: dir) chSlash).1 := by
    by_cases hlast : (chSlash :: rest).getLast? = some chSlash
    · have hdrop : (chSlash :: rest).dropLast = chSlash :: rest.dropLast := List.dropLast_cons_of_ne_nil hroot
      refine ⟨rest.dropLast, by rw [if_pos hlast, hdrop], by rw [List.length_dropLast]; omega, ?_⟩
      rw [mkdirsParent, if_pos hlast, hdrop]
    · refine ⟨rest, if_neg hlast, Nat.le_refl _, ?_⟩
      rw [mkdirsParent, if_neg hlast]
  obtain ⟨u, v, hsplit, hv⟩ := exists_last_of_mem (c := chSlash) (d := chSlash :: dir) List.mem_cons_self
  have hu : mkdirsParent (chSlash :: rest) = u := by
    rw [hsame, hsplit, strSplitCharReverse_eq (by decide) u hv]
  have hlen := congrArg List.length hsplit
  rw [List.length_append, List.length_cons, List.length_cons] at hlen
  rw [hu, List.length_cons]
  refine ⟨by omega, ?_⟩
  cases u with
  | nil => exact .inl rfl
  | cons b u =>
    right
    rw [List.cons_append] at hsplit
    rw [List.head?_cons, (List.cons.inj hsplit).1]

/-! ### The first component -/

theorem chNul_not_mem_firstComponent {p : Bytes} (h : chNul ∉ p) : chNul ∉ firstComponent p :=
  fun hmem => h ((List.takeWhile_sublist _).subset hmem)

theorem firstComponent_self {p : Bytes} : firstComponent (firstComponent p) = firstComponent p :=
  List.takeWhile_eq_self_iff.mpr fun _ hb =>
    List.mem_takeWhile_imp (p := fun b => decide (b ≠ chSlash)) (l := p) hb

theorem firstComponent_append (u v : Bytes) : firstComponent (u ++ chSlash :: v) = firstComponent u := by
  by_cases h : chSlash ∈ u
  · obtain ⟨a, b, rfl, ha⟩ := List.eq_append_cons_of_mem h
    have hall : ∀ x ∈ a, decide (x ≠ chSlash) = true := fun x hx => decide_eq_true fun he => ha (he ▸ hx)
    rw [firstComponent, List.append_assoc, List.cons_append, List.takeWhile_append_of_pos hall, firstComponent,
      List.takeWhile_append_of_pos hall]
    simp
  · have hall : ∀ x ∈ u, decide (x ≠ chSlash) = true := fun x hx => decide_eq_true fun he => h (he ▸ hx)
    rw [firstComponent, List.takeWhile_append_of_pos hall, firstComponent, List.takeWhile_eq_self_iff.mpr hall]
    simp

theorem firstComponent_ne_nil {p : Bytes} (hne : p ≠ []) (hrel : p.head? ≠ some chSlash) :
    firstComponent p ≠ [] := by
  cases p with
  | nil => exact absurd rfl hne
  | cons b p =>
    have hb : b ≠ chSlash := fun he => hrel (by rw [he]; rfl)
    rw [firstComponent, List.takeWhile_cons_of_pos (by simpa using hb)]
    exact List.cons_ne_nil _ _

section

variable {σ : Type} {fs : PosixFs σ} {mode : ℕ}

/-- Where a path can be accessed, so can its first component. -/
theorem access_firstComponent {p : Bytes} {s : σ} (hne : p ≠ []) (hrel : p.head? ≠ some chSlash)
    (h : fs.access p s = true) : fs.access (firstComponent p) s = true := by
  by_cases hslash : chSlash ∈ p
  · obtain ⟨u, v, rfl, hu⟩ := List.eq_append_cons_of_mem hslash
    have hall : ∀ x ∈ u, decide (x ≠ chSlash) = true := fun x hx => decide_eq_true fun he => hu (he ▸ hx)
    have hfirst : firstComponent (u ++ chSlash :: v) = u := by
      rw [firstComponent_append, firstComponent, List.takeWhile_eq_self_iff.mpr hall]
    have hu0 : u ≠ [] := hfirst ▸ firstComponent_ne_nil hne hrel
    rw [hfirst]
    exact fs.access_above hu0 h
  · have hall : ∀ x ∈ p, decide (x ≠ chSlash) = true := fun x hx => decide_eq_true fun he => hslash (he ▸ hx)
    rw [firstComponent, List.takeWhile_eq_self_iff.mpr hall]
    exact h

/-! ### The calls -/

/-- A path that the recursion gets to the end of. -/
def Ending (fs : PosixFs σ) (p : Bytes) (s : σ) : Prop :=
  p = [] ∨ p.head? = some chSlash ∨ fs.access (firstComponent p) s = true

/-- One call: it comes back when it finds the path in front or the call for that comes back. -/
theorem strMkdirs_of_parent {p : Bytes} {s : σ} {n : ℕ}
    (h : fs.access (cstr (mkdirsParent p)) s = true ∨ ∃ r, strMkdirs fs mode n (mkdirsParent p) s = some r) :
    ∃ r, strMkdirs fs mode (n + 1) p s = some r := by
  by_cases hnil : p = []
  · exact ⟨(0, s), by rw [strMkdirs, if_pos hnil]⟩
  · rw [strMkdirs, if_neg hnil]
    by_cases haccess : fs.access (cstr (mkdirsParent p)) s = true
    · simp [haccess]
    · obtain ⟨r, hr⟩ := h.resolve_left haccess
      simp [haccess, hr]

/-- **It ends**: each call is for a shorter path, until one is empty or exists. -/
theorem strMkdirs_ends (mode : ℕ) {p : Bytes} {s : σ} (hnul : chNul ∉ p) (h : Ending fs p s) :
    ∃ r, strMkdirs fs mode (p.length + 1) p s = some r := by
  have hfuel : ∀ (n : ℕ) (p : Bytes), p.length ≤ n → chNul ∉ p → Ending fs p s →
      ∃ r, strMkdirs fs mode (n + 1) p s = some r := by
    intro n
    induction n with
    | zero =>
      intro p hlen _ _
      exact ⟨(0, s), by rw [strMkdirs, if_pos (List.length_eq_zero_iff.mp (Nat.le_zero.mp hlen))]⟩
    | succ n ih =>
      intro p hlen hnul h
      apply strMkdirs_of_parent
      by_cases habs : p.head? = some chSlash
      · obtain ⟨hshort, hpar⟩ := mkdirsParent_absolute habs
        have hsub : chNul ∉ mkdirsParent p := by
          intro hmem
          have hdir := (strSplitTextCommon_subset _ _ _).1 hmem
          split at hdir
          · exact hnul (List.dropLast_subset p hdir)
          · exact hnul hdir
        exact .inr (ih _ (by omega) hsub (hpar.imp_right .inl))
      · by_cases hnil : p = []
        · subst hnil
          exact .inr ⟨(0, s), by rw [show mkdirsParent [] = [] from by decide, strMkdirs, if_pos rfl]⟩
        have haccess : fs.access (firstComponent p) s = true :=
          (h.resolve_left hnil).resolve_left habs
        rcases mkdirsParent_relative habs with hfirst | ⟨v, hne, hsplit⟩
        · left
          rw [hfirst, cstr_eq_self (chNul_not_mem_firstComponent hnul)]
          exact haccess
        · right
          have hlen' := congrArg List.length hsplit
          rw [List.length_append, List.length_cons] at hlen'
          have hsub : chNul ∉ mkdirsParent p := fun hmem => hnul (hsplit ▸ List.mem_append_left _ hmem)
          have hsame : firstComponent p = firstComponent (mkdirsParent p) := by
            conv_lhs => rw [hsplit]
            exact firstComponent_append _ v
          exact ih _ (by omega) hsub (.inr (.inr (hsame ▸ haccess)))
  exact hfuel p.length p (Nat.le_refl _) hnul h

/-- **Or it does not**: a relative path without its first component is called
for again and again. -/
theorem strMkdirs_runs_on {s : σ} : ∀ (n : ℕ) {p : Bytes}, chNul ∉ p → p ≠ [] → p.head? ≠ some chSlash →
    fs.access (firstComponent p) s = false → strMkdirs fs mode n p s = none
  | 0, _, _, _, _, _ => rfl
  | n + 1, p, hnul, hne, hrel, hno => by
    obtain ⟨hpne, hprel, hpnul, hsame⟩ : mkdirsParent p ≠ [] ∧ (mkdirsParent p).head? ≠ some chSlash ∧
        chNul ∉ mkdirsParent p ∧ firstComponent (mkdirsParent p) = firstComponent p := by
      rcases mkdirsParent_relative hrel with hfirst | ⟨v, hpne, hsplit⟩
      · rw [hfirst]
        refine ⟨firstComponent_ne_nil hne hrel, ?_, chNul_not_mem_firstComponent hnul, firstComponent_self⟩
        intro hhead
        have hmem : chSlash ∈ firstComponent p := List.mem_of_head? hhead
        have hp := List.mem_takeWhile_imp hmem
        simp at hp
      · refine ⟨hpne, ?_, fun hmem => hnul (hsplit ▸ List.mem_append_left _ hmem), ?_⟩
        · intro hhead
          apply hrel
          rw [hsplit, List.head?_append, hhead]
          rfl
        · conv_rhs => rw [hsplit]
          exact (firstComponent_append _ v).symm
    have hnone : fs.access (cstr (mkdirsParent p)) s = false := by
      rw [cstr_eq_self hpnul]
      by_contra hyes
      have hfirst := access_firstComponent hpne hprel (Bool.not_eq_false _ ▸ hyes)
      rw [hsame, hno] at hfirst
      cases hfirst
    have ih := strMkdirs_runs_on n hpnul hpne hprel (hsame ▸ hno)
    rw [strMkdirs, if_neg hne]
    simp [hnone, ih]

/-- **Behind a 0** stand the directory and those above it. -/
theorem strMkdirs_isDir {p : Bytes} {s s' : σ} {n : ℕ} (hnul : chNul ∉ p) (hne : p ≠ [])
    (h : strMkdirs fs mode n p s = some (0, s')) :
    fs.isDir p s' = true ∧ ∀ q, Above q p → fs.isDir q s' = true := by
  have hdir : fs.isDir p s' = true := by
    cases n with
    | zero => cases h
    | succ n =>
      rw [strMkdirs, if_neg hne, cstr_eq_self hnul] at h
      obtain ⟨⟨ret, s₁⟩, -, hmk⟩ := Option.map_eq_some_iff.mp h
      by_cases hret : ret = 0
      · simp only [hret, if_true] at hmk
        have hok : (fs.mkdir p mode s₁).1 = 0 := congrArg Prod.fst hmk
        have hs' : (fs.mkdir p mode s₁).2 = s' := congrArg Prod.snd hmk
        exact hs' ▸ fs.mkdir_isDir hok
      · simp only [hret, if_false] at hmk
        exact absurd (congrArg Prod.fst hmk) hret
  refine ⟨hdir, ?_⟩
  intro q hq
  rcases hq with ⟨hq, v, rfl⟩ | ⟨rfl, -⟩
  · exact fs.isDir_above hq hdir
  · exact fs.isDir_root s'

end

/-- **`str_mkdirs`** ends and delivers exactly for these paths. -/
theorem mkdirs_delivers_iff {σ : Type} (fs : PosixFs σ) (mode : ℕ) (p : Bytes) (s : σ) (hnul : chNul ∉ p) :
    MkdirsDelivers fs mode p s ↔
      p = [] ∨ p.head? = some chSlash ∨ fs.access (firstComponent p) s = true := by
  constructor
  · intro h
    by_contra hno
    simp only [not_or, Bool.not_eq_true] at hno
    obtain ⟨hne, hrel, haccess⟩ := hno
    obtain ⟨n, r, hr⟩ := h.ends
    rw [strMkdirs_runs_on n hnul hne hrel haccess] at hr
    cases hr
  · intro h
    obtain ⟨r, hr⟩ := strMkdirs_ends mode hnul h
    exact ⟨⟨_, r, hr⟩, fun n s' hrun hne => strMkdirs_isDir hnul hne hrun⟩

/-! ### A file system of folders -/

/-- The folders a path leads through. -/
def treePath (p : Bytes) : List Bytes := (p.splitOn chSlash).filter fun c => c ≠ [] ∧ c ≠ [chDot]

theorem treePath_append (u v : Bytes) : treePath (u ++ chSlash :: v) = treePath u ++ treePath v := by
  have hsplit : (u ++ chSlash :: v).splitOn chSlash = u.splitOn chSlash ++ v.splitOn chSlash := by
    induction u using fields_induction chSlash with
    | last u hu =>
      rw [List.splitOn_append_cons_self_of_not_mem hu, List.splitOn_eq_singleton hu]
      rfl
    | more u w hu ih =>
      rw [List.append_assoc, List.cons_append, List.splitOn_append_cons_self_of_not_mem hu,
        List.splitOn_append_cons_self_of_not_mem hu, ih, List.cons_append]
  rw [treePath, hsplit, List.filter_append]
  rfl

/-- The first `n` folders of the path are there. -/
def treeHas (folders : List (List Bytes)) (path : List Bytes) (n : ℕ) : Bool :=
  (List.range n).all fun k => path.take (k + 1) ∈ folders

theorem treeHas_iff {folders : List (List Bytes)} {path : List Bytes} {n : ℕ} :
    treeHas folders path n = true ↔ ∀ k < n, path.take (k + 1) ∈ folders := by
  simp [treeHas]

def treeAccess (p : Bytes) (folders : List (List Bytes)) : Bool :=
  p ≠ [] && treeHas folders (treePath p) (treePath p).length

/-- A folder is made where there is none, in one that is there. -/
def treeMkdir (p : Bytes) (folders : List (List Bytes)) : ℤ × List (List Bytes) :=
  if p ≠ [] ∧ treeAccess p folders = false ∧ treeHas folders (treePath p) ((treePath p).length - 1) = true then
    (0, treePath p :: folders)
  else (-1, folders)

theorem treeAccess_above {u v : Bytes} {folders : List (List Bytes)} (hu : u ≠ [])
    (h : treeAccess (u ++ chSlash :: v) folders = true) : treeAccess u folders = true := by
  simp only [treeAccess, Bool.and_eq_true, decide_eq_true_eq, treeHas_iff, treePath_append,
    List.length_append] at h ⊢
  refine ⟨hu, fun k hk => ?_⟩
  have hmem := h.2 k (by omega)
  rwa [List.take_append_of_le_length (by omega)] at hmem

theorem treeMkdir_access {p : Bytes} {folders : List (List Bytes)} (h : (treeMkdir p folders).1 = 0) :
    treeAccess p (treeMkdir p folders).2 = true := by
  unfold treeMkdir at h ⊢
  by_cases hmade : p ≠ [] ∧ treeAccess p folders = false ∧
      treeHas folders (treePath p) ((treePath p).length - 1) = true
  · rw [if_pos hmade]
    obtain ⟨hne, -, habove⟩ := hmade
    rw [treeHas_iff] at habove
    simp only [treeAccess, Bool.and_eq_true, decide_eq_true_eq, treeHas_iff]
    refine ⟨hne, fun k hk => ?_⟩
    by_cases hlast : k + 1 = (treePath p).length
    · rw [hlast, List.take_length]
      exact List.mem_cons_self
    · exact List.mem_cons_of_mem _ (habove k (by omega))
  · rw [if_neg hmade] at h
    cases h

/-- A file system that has nothing but folders; the process stands at its root. -/
def folderTree : PosixFs (List (List Bytes)) where
  access := treeAccess
  isDir := treeAccess
  mkdir p _ := treeMkdir p
  access_nil _ := rfl
  access_above := treeAccess_above
  isDir_root _ := rfl
  isDir_above := treeAccess_above
  mkdir_isDir := treeMkdir_access

example : strMkdirs folderTree 0o755 3 (text "/a/b/") [] =
    some (0, [[text "a", text "b"], [text "a"]]) := by decide

/-- The root directory of a user, below a folder that is there. -/
theorem mkdirs_delivers_default : MkdirsDelivers folderTree 0o755 (text "./125/files") [] :=
  (mkdirs_delivers_iff folderTree 0o755 (text "./125/files") [] (by decide)).mpr (by decide)

def relativeHome : Tunables := { userHomeDir := text "data", cosAppid := text "125", cosBucket := text "files" }

/-- It is not made in a folder that is not there. -/
theorem mkdirs_never_ends : ¬ MkdirsDelivers folderTree 0o755 (getUserRootDir relativeHome) [] := by
  intro h
  obtain ⟨n, r, hr⟩ := h.ends
  rw [strMkdirs_runs_on n (by decide) (by decide) (by decide) (by decide)] at hr
  cases hr

end CosFtp
