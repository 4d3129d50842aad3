/-
# Sessions and the user's root

The access check is to keep every path a session builds, and with it every
directory it moves to, at or below the user's root. The check reads a path level
by level, the kernel as POSIX says, and the two part at a `..` that is the last
component or has an empty component in front of it. `Misread` says when this lets
a path out of the root, and `confined_iff` that nothing else does: one argument
at a time, and over whole sessions.

Key definitions: `Misread`.
Key theorems: `check_confines_iff`, `confined_iff`.
-/
import CosFtp.Loop

namespace CosFtp

open Walk Wp

/-! ### One argument -/

/-- The access check lets an argument through that leads out of the root `R`: it
comes back to the root level by level, but not by POSIX, and it holds a `..` that
the two readings take differently. -/
def Misread (T : Tunables) (R cwd : Dir) (a : Bytes) : Prop :=
  vsfAccessCheckFile T a = true ∧ Masked pathMarks (componentsBelow R cwd a) ∧
    LeadsBack R.names (levelReading R cwd a) ∧ ¬ LeadsBack R.names (posixReading R cwd a)

instance (T : Tunables) (R cwd : Dir) (a : Bytes) : Decidable (Misread T R cwd a) :=
  inferInstanceAs (Decidable (_ ∧ _ ∧ _ ∧ _))

section

variable {T : Tunables} {R cwd : Dir} {a : Bytes}

/-- Without such a `..` the two readings agree on what is below the root. -/
theorem leadsBack_posixReading (hmask : ¬ Masked pathMarks (componentsBelow R cwd a))
    (h : LeadsBack R.names (levelReading R cwd a)) : LeadsBack R.names (posixReading R cwd a) := by
  have hlevel := (prefix_walk_iff R.names _).mpr h
  have hnames : ∀ c ∈ R.names, pathMarks.IsName c := fun c hc => (R.isDirName c hc).1
  exact (prefix_walk_iff R.names _).mp (prefix_posix_of_level pathMarks hnames R.names hmask hlevel)

/-- **The check confines an argument exactly if it does not misread it.** -/
theorem check_confines_iff (hR : getUserRootDir T = R.path) (hcwd : R.names <+: cwd.names)
    (ha : chNul ∉ a) :
    (vsfAccessSessionCheckFile T cwd.path a = true →
        R.names <+: (resolve (prependSessionPathToFilename T cwd.path a)).names) ↔
      ¬ Misread T R cwd a := by
  rw [vsfAccessSessionCheckFile_iff hR hcwd ha, prefix_resolve_iff hR hcwd ha]
  constructor
  · intro h hmis
    obtain ⟨hdeny, _, hlevel, hposix⟩ := hmis
    exact hposix (h ⟨hlevel, hdeny⟩)
  · intro h hcheck
    obtain ⟨hlevel, hdeny⟩ := hcheck
    by_contra hposix
    by_cases hmask : Masked pathMarks (componentsBelow R cwd a)
    · exact h ⟨hdeny, hmask, hlevel, hposix⟩
    · exact hposix (leadsBack_posixReading hmask hlevel)

end

/-! ### Arguments hold no NUL -/

/-- The argument of every line. -/
theorem nul_not_mem_lineCommand (env : Env) (line : CtrlLine) : chNul ∉ (lineCommand env line).2 := by
  cases line with
  | closed => exact List.not_mem_nil
  | tooLong => exact List.not_mem_nil
  | line str =>
    have hstr : chNul ∉ stripCr (strReplaceChar str chNul chLf) := fun h =>
      not_mem_strReplaceChar (by decide) str ((List.rdropWhile_prefix _ _).subset h)
    apply not_mem_cosConvGbk2Utf (fun _ _ => nul_not_mem_cstr _)
    exact fun h => hstr (splitCommand_arg_subset _ h)

/-- The directory every command asks for. -/
theorem nul_not_mem_cwdArg {T : Tunables} {env : Env} {home cmd arg a : Bytes} (hhome : chNul ∉ home)
    (harg : chNul ∉ arg) (h : cwdArg T env home cmd arg = some a) : chNul ∉ a := by
  unfold cwdArg at h
  split at h
  · rw [← Option.some.inj h]
    exact not_mem_resolveTilde (by decide) (fun _ _ _ => nul_not_mem_cstr _) hhome harg
  · split at h
    · rw [← Option.some.inj h]
      exact not_mem_resolveTilde (by decide) (fun _ _ _ => nul_not_mem_cstr _) hhome (by decide)
    · cases h

/-! ### Whole sessions -/

/-- A round does not ask for a directory that the check misreads. -/
def WellRead (T : Tunables) (R : Dir) (env : Env) (line : CtrlLine) (w : World) : Prop :=
  ∀ a, cwdArg T env w.sess.homeStr (lineCommand env line).1 (lineCommand env line).2 = some a →
    ¬ Misread T R w.cwd a

/-- The session stands at or below its root, and its home is the root. -/
structure Confined (R : Dir) (w : World) : Prop where
  cwd : R.names <+: w.cwd.names
  home : w.sess.homeStr = R.path

section

variable {T : Tunables} {R : Dir} {env : Env} {w w' : World}

theorem Confined.step (hR : getUserRootDir T = R.path) (line : CtrlLine) (h : Confined R w)
    (hread : WellRead T R env line w)
    (hserved : Served T (cwdArg T env w.sess.homeStr (lineCommand env line).1 (lineCommand env line).2) w w') :
    Confined R w' := by
  have hhome : w'.sess.homeStr = w.sess.homeStr := hserved.home
  refine ⟨?_, hhome.trans h.home⟩
  rcases hserved.cwd with hsame | hmoved
  · have hcwd : w'.cwd = w.cwd := hsame
    rw [hcwd]
    exact h.cwd
  · obtain ⟨a, ha, hcheck, hto⟩ := hmoved
    have hcwd : w'.cwd = resolve (prependSessionPathToFilename T w.cwd.path a) := hto
    have hnul : chNul ∉ a :=
      nul_not_mem_cwdArg (h.home ▸ R.nul_not_mem_path) (nul_not_mem_lineCommand env line) ha
    rw [hcwd]
    exact (check_confines_iff hR h.cwd hnul).mpr (hread a ha) hcheck

theorem postLoginStart_confined (hboundary : Boundary T w) (hcwd : w.cwd = R) :
    wp (postLoginStart T env) (fun _ w1 => Boundary T w1 ∧ Confined R w1) (fun e _ => e.Orderly) w := by
  refine wp_mono (wp_and (postLoginStart_boundary hboundary) (postLoginStart_spec w)) ?_ ?_
  · intro _ w1 hw1
    obtain ⟨hb, hctl⟩ := hw1
    have hdir : w1.cwd = w.cwd := congrArg Ctl.cwd hctl
    have hhome : w1.sess.homeStr = w.cwd.path := congrArg Ctl.homeStr hctl
    refine ⟨hb, ?_, ?_⟩
    · exact ⟨[], by rw [List.append_nil, hdir, hcwd]⟩
    · rw [hhome, hcwd]
  · exact fun _ _ he => he.1

/-- Every run of the loop keeps the session in its root. -/
theorem postLoginLoop_confined (hR : getUserRootDir T = R.path) (rounds : List (Env × CtrlLine))
    (hboundary : Boundary T w) (h : Confined R w) (halong : Along T (WellRead T R) rounds w) :
    wp (postLoginLoop T rounds) (fun _ w' => R.names <+: w'.cwd.names) (fun e _ => e.Expected) w := by
  have hstep : ∀ env line w w', Boundary T w → Confined R w → WellRead T R env line w →
      Served T (cwdArg T env w.sess.homeStr (lineCommand env line).1 (lineCommand env line).2) w w' →
      Confined R w' :=
    fun _ line _ _ _ hconf hread hserved => hconf.step hR line hread hserved
  refine wp_mono (postLoginLoop_keeps hstep rounds w hboundary h halong) ?_ (fun _ _ he => he)
  exact fun _ _ hw1 => hw1.2.cwd

end

/-- **The session stays in its root, where the check does not misread.** An
argument that passes the check leads to the root or below it exactly if the check
does not misread it; and a session that logs in in its root stands in it or below
it each time the next command is read, if no directory that it asks for is
misread. -/
theorem confined_iff (T : Tunables) (R : Dir) (hR : getUserRootDir T = R.path) :
    (∀ (cwd : Dir) (a : Bytes), R.names <+: cwd.names → chNul ∉ a →
      ((vsfAccessSessionCheckFile T cwd.path a = true →
          R.names <+: (resolve (prependSessionPathToFilename T cwd.path a)).names) ↔
        ¬ Misread T R cwd a)) ∧
    ∀ (env : Env) (rounds : List (Env × CtrlLine)) (w : World), LoggedIn T w → w.cwd = R →
      wp (postLoginStart T env) (fun _ w1 => Along T (WellRead T R) rounds w1) (fun _ _ => True) w →
      wp (processPostLogin T env rounds) (fun _ w' => R.names <+: w'.cwd.names)
        (fun e _ => e.Expected) w := by
  refine ⟨fun cwd a hcwd ha => check_confines_iff hR hcwd ha, ?_⟩
  intro env rounds w hlogin hcwd halong
  unfold processPostLogin
  rw [wp_bind]
  refine wp_mono (wp_and (postLoginStart_confined hlogin.boundary hcwd) halong) ?_ ?_
  · intro _ w1 hw1
    obtain ⟨⟨hboundary, hconf⟩, halong1⟩ := hw1
    exact postLoginLoop_confined hR rounds hboundary hconf halong1
  · intro e _ he
    exact .inl he.1

/-- The name x, looked at in the root and moved to by a session. -/
theorem confined_iff_plain_name :
    getUserRootDir habServer = habRoot.path ∧ ¬ Misread habServer habRoot habRoot (text "x") ∧
    (vsfAccessSessionCheckFile habServer habRoot.path (text "x") = true →
      habRoot.names <+: (resolve (prependSessionPathToFilename habServer habRoot.path (text "x"))).names) ∧
    wp (processPostLogin habServer {} [({}, .line (text "CWD x"))])
      (fun _ w' => habRoot.names <+: w'.cwd.names) (fun e _ => e.Expected) loginWorld := by
  have hR : getUserRootDir habServer = habRoot.path := by decide
  have hx : ¬ Misread habServer habRoot habRoot (text "x") := by decide
  have hlogin : LoggedIn habServer loginWorld := ⟨rfl, rfl, rfl, rfl, rfl⟩
  obtain ⟨hcheck, hrun⟩ := confined_iff habServer habRoot hR
  refine ⟨hR, hx, (hcheck habRoot (text "x") List.prefix_rfl (by decide)).mpr hx, ?_⟩
  refine hrun {} _ loginWorld hlogin rfl ?_
  refine wp_mono (postLoginStart_spec loginWorld) ?_ (fun _ _ _ => trivial)
  intro _ w1 hctl
  have hcwd : w1.cwd = habRoot := congrArg Ctl.cwd hctl
  have hhome : w1.sess.homeStr = habRoot.path := congrArg Ctl.homeStr hctl
  refine ⟨?_, wp_true _ w1⟩
  intro a ha
  have harg : cwdArg habServer {} habRoot.path (lineCommand {} (.line (text "CWD x"))).1
      (lineCommand {} (.line (text "CWD x"))).2 = some (text "x") := by decide
  rw [hhome, harg] at ha
  rw [hcwd, ← Option.some.inj ha]
  exact hx

/-- CDUP in the root: the check takes the last `..` for a name, and the session
leaves the root. -/
theorem cdup_leaves_root :
    getUserRootDir habServer = habRoot.path ∧
    vsfAccessSessionCheckFile habServer habRoot.path (text "..") = true ∧
    ¬ habRoot.names <+: (resolve (prependSessionPathToFilename habServer habRoot.path (text ".."))).names ∧
    (after (processPostLogin habServer {} [({ folderStat := true }, .line (text "CDUP"))]) loginWorld).cwd.names =
      [text "h", text "a"] := by
  decide +kernel

end CosFtp
