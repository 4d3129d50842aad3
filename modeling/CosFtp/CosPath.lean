/-
# The disk path and the path in COS

A session's directory is a local one below the user's root, and the same place in
COS is what is left of it without the root. `prepend_session_path_to_filename`
builds the local path of an argument by putting text in front of it;
`get_cos_path_from_disk_path` builds the one in COS from `str_session_getcwd`,
which takes the root out of the working directory wherever its text stands. The two
denote one place exactly if the text of the root does not stand in the rest of the
working directory.

`resolve_tilde` puts the disk path of the login directory in front, which both then
take for a path below the root: "~/x" is never "/x" (`tilde_means_login_iff`).

Key definition: `TildeMeansLogin`.
Key theorems: `strReplaceText_eq_self_iff`, `paths_agree_iff`, `tilde_means_login_iff`.
-/
import CosFtp.Path
import CosFtp.Session

namespace CosFtp

open Search

section

variable {p_from s : Bytes}

/-- A text from which another is taken out stays as it is exactly if that is not in
it. -/
theorem strReplaceText_eq_self_iff (h0 : chNul ∉ p_from) (hf : p_from ≠ []) :
    strReplaceText s p_from [] = s ↔ ¬ p_from <:+: s := by
  rw [← cut_eq_none_iff hf]
  constructor
  · intro hself
    cases hcut : cut p_from s with
    | none => rfl
    | some halves =>
      obtain ⟨l, r⟩ := halves
      -- what is left is too short
      have hlen := length_of_cut hcut
      have hpos : 0 < p_from.length := List.length_pos_of_ne_nil hf
      have hr : (strReplaceText r p_from []).length ≤ r.length :=
        length_strReplaceText_le h0 hf (Nat.zero_le _) r
      have hnil : cstr [] = [] := rfl
      rw [strReplaceText_eq [] s h0 hf, hcut] at hself
      have hback := congrArg List.length hself
      simp only [hnil, List.append_nil, List.length_append] at hback
      omega
  · intro hcut
    rw [strReplaceText_eq [] s h0 hf, hcut]

end

section

variable {T : Tunables} {R cwd : Dir}

/-- A directory below the root, as text. -/
theorem path_below (hroot : R.names ≠ []) (hcwd : R.names <+: cwd.names) :
    cwd.path = R.path ++ render (cwd.names.drop R.names.length) := by
  obtain ⟨ps, hps⟩ := hcwd
  have hne : cwd.names ≠ [] := by
    intro he
    rw [he] at hps
    exact hroot (List.append_eq_nil_iff.mp hps).1
  rw [Dir.path, if_neg hne, Dir.path, if_neg hroot, ← hps, List.drop_left, render_append]

/-- The root in front is taken out, and then the rest is gone through. -/
theorem strSessionGetcwd_below (hR : getUserRootDir T = R.path) (hcwd : R.names <+: cwd.names) :
    strSessionGetcwd T cwd.path = strReplaceText (render (cwd.names.drop R.names.length)) R.path [] := by
  have hroot := root_names_ne_nil hR
  rw [strSessionGetcwd, hR, path_below hroot hcwd, strReplaceText_eq [] _ R.nul_not_mem_path R.path_ne_nil,
    cut_append_self R.path_ne_nil]
  rfl

end

/-- **The disk path and the COS path denote one place exactly if the text of the root
stands only in front.** -/
theorem paths_agree_iff (T : Tunables) (R cwd : Dir) (hR : getUserRootDir T = R.path)
    (hcwd : R.names <+: cwd.names) :
    cwd.path = R.path ++ render (cwd.names.drop R.names.length) ∧
    ((strSessionGetcwd T cwd.path = render (cwd.names.drop R.names.length) ∧
        ∀ a, prependSessionPathToFilename T cwd.path a = R.path ++ getCosPathFromDiskPath T cwd.path a) ↔
      ¬ R.path <:+: render (cwd.names.drop R.names.length)) := by
  have hroot := root_names_ne_nil hR
  have hpath := path_below hroot hcwd
  refine ⟨hpath, ?_⟩
  set p := render (cwd.names.drop R.names.length) with hp
  have hgetcwd : strSessionGetcwd T cwd.path = p ↔ ¬ R.path <:+: p := by
    rw [strSessionGetcwd_below hR hcwd, strReplaceText_eq_self_iff R.nul_not_mem_path R.path_ne_nil]
  constructor
  · intro h
    exact hgetcwd.mp h.1
  · intro h
    have hsame := hgetcwd.mpr h
    refine ⟨hsame, ?_⟩
    intro a
    unfold prependSessionPathToFilename getCosPathFromDiskPath
    by_cases ha : a = [] ∨ a.head? ≠ some chSlash
    · have hcwdne : cwd.names ≠ [] := fun he => hroot (by simpa [he] using hcwd)
      have hlast : cwd.path.getLast? ≠ some chSlash := by
        rw [Dir.path, if_neg hcwdne]
        exact getLast?_render cwd.isDirName
      rw [if_pos ha, if_pos ha, if_pos (.inr hlast), hsame, hpath]
      simp only [List.append_assoc]
    · rw [if_neg ha, if_neg ha, hR]

/-- The directory x below the root. -/
def habX : Dir := ⟨[text "h", text "a", text "b", text "x"], by decide⟩

theorem paths_agree_plain_name :
    getUserRootDir habServer = habRoot.path ∧ habRoot.names <+: habX.names ∧
    strSessionGetcwd habServer habX.path = text "/x" ∧
    prependSessionPathToFilename habServer habX.path (text "y") =
      habRoot.path ++ getCosPathFromDiskPath habServer habX.path (text "y") := by
  have hR : getUserRootDir habServer = habRoot.path := by decide
  have hcwd : habRoot.names <+: habX.names := by decide
  have h := (paths_agree_iff habServer habRoot habX hR hcwd).2.mpr (by decide)
  exact ⟨hR, hcwd, h.1, h.2 _⟩

/-- A directory whose path names the root's directories once more. -/
def habTwice : Dir := ⟨[text "h", text "a", text "b", text "h", text "a", text "bc"], by decide⟩

/-- The root is taken out twice: a name in the folder /h/a/bc goes to c. -/
theorem root_text_taken_out_twice :
    habTwice.path = habRoot.path ++ text "/h/a/bc" ∧
    strSessionGetcwd habServer habTwice.path = text "c" ∧
    prependSessionPathToFilename habServer habTwice.path (text "y") ≠
      habRoot.path ++ getCosPathFromDiskPath habServer habTwice.path (text "y") := by
  decide

/-! ### The tilde -/

/-- "~/x" is what "/x" is, in COS and on the disk. -/
structure TildeMeansLogin (T : Tunables) (home : Bytes) (getpwnam : Bytes → Option Bytes) (cwd x : Bytes) :
    Prop where
  cos : getCosPathFromDiskPath T cwd (resolveTilde T home getpwnam (chTilde :: chSlash :: x)) =
    getCosPathFromDiskPath T cwd (chSlash :: x)
  disk : prependSessionPathToFilename T cwd (resolveTilde T home getpwnam (chTilde :: chSlash :: x)) =
    prependSessionPathToFilename T cwd (chSlash :: x)

theorem resolveTilde_slash (T : Tunables) (home : Bytes) (getpwnam : Bytes → Option Bytes) (x : Bytes) :
    resolveTilde T home getpwnam (chTilde :: chSlash :: x) = home ++ chSlash :: x := by
  have hsplit : strSplitChar (chTilde :: chSlash :: x) chTilde = ([], chSlash :: x) := by
    have hcut : cut [chTilde] (chTilde :: chSlash :: x) = some ([], chSlash :: x) :=
      cut_append_self (by simp) (chSlash :: x)
    rw [strSplitChar, strSplitText_eq (by decide) (by simp), hcut]
    rfl
  have htilde : 0 < (chTilde :: chSlash :: x).length ∧ (chTilde :: chSlash :: x)[0]? = some chTilde := by
    simp
  have hslash : (chTilde :: chSlash :: x).length = 1 ∨ (chTilde :: chSlash :: x)[1]? = some chSlash := by
    simp
  rw [resolveTilde, if_pos htilde, if_pos hslash, hsplit]

theorem getCosPathFromDiskPath_slash (T : Tunables) (cwd x : Bytes) :
    getCosPathFromDiskPath T cwd (chSlash :: x) = chSlash :: x := by
  simp [getCosPathFromDiskPath]

/-- A path in COS is at least as long as what it is made of. -/
theorem length_le_getCosPathFromDiskPath (T : Tunables) (cwd p : Bytes) :
    p.length ≤ (getCosPathFromDiskPath T cwd p).length := by
  unfold getCosPathFromDiskPath
  split
  · simp only [List.length_append]
    omega
  · exact Nat.le_refl _

/-- **A tilde stands for the login directory only where that has no path**: the path
`getcwd` gave at the login is put in front of the rest, and the root is put in front
of it once more, or taken for a path in COS. -/
theorem tilde_means_login_iff (T : Tunables) (home : Bytes) (getpwnam : Bytes → Option Bytes) (cwd x : Bytes) :
    TildeMeansLogin T home getpwnam cwd x ↔ home = [] := by
  constructor
  · intro h
    have hcos := congrArg List.length h.cos
    have hle := length_le_getCosPathFromDiskPath T cwd (home ++ chSlash :: x)
    rw [resolveTilde_slash, getCosPathFromDiskPath_slash] at hcos
    rw [hcos, List.length_append] at hle
    exact List.length_eq_zero_iff.mp (by omega)
  · rintro rfl
    have hsame : resolveTilde T [] getpwnam (chTilde :: chSlash :: x) = chSlash :: x :=
      resolveTilde_slash T [] getpwnam x
    exact ⟨by rw [hsame], by rw [hsame]⟩

/-- Behind a login to the root /h/a/b. -/
theorem tilde_names_path_below_root :
    ¬ TildeMeansLogin habServer habRoot.path (fun _ => none) habRoot.path (text "x") ∧
    getCosPathFromDiskPath habServer habRoot.path
      (resolveTilde habServer habRoot.path (fun _ => none) (text "~/x")) = text "/h/a/b/x" ∧
    prependSessionPathToFilename habServer habRoot.path
      (resolveTilde habServer habRoot.path (fun _ => none) (text "~/x")) = text "/h/a/b/h/a/b/x" := by
  refine ⟨?_, by decide, by decide⟩
  intro h
  exact absurd h.cos (by decide)

end CosFtp
