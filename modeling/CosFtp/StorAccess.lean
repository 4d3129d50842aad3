/-
# The access check of STOR

The other commands give the access check the name the client sent. STOR gives
it the path of the local file, which has the root in front of it already: the
check puts the root there once more, so that a name may climb a whole root
further before it is refused, and `deny_file` is matched against the longer
text.

Key definitions: `GoesPast`, `StorAgrees`, `SameVerdict`.
Key theorem: `stor_checks_like_others_iff`.
-/
import CosFtp.Stor

namespace CosFtp

open Wp Inode Walk

variable (T : Tunables) (env : Env)

/-- The STOR comes to create or open a local file. -/
def GoesPast (arg : Bytes) (w : World) : Prop :=
  ∃ path, .create path ∈ w.since (after (handleUploadCommon T env arg) w)

/-- The STOR passes its check as RETR, DELE and MKD pass theirs, and so goes to
a file below the root where theirs do. -/
structure StorAgrees (R : Dir) (arg : Bytes) (w : World) : Prop where
  same : GoesPast T env arg w ↔ vsfAccessSessionCheckFile T w.cwd.path arg = true
  below : (vsfAccessSessionCheckFile T w.cwd.path arg = true →
      R.names <+: (resolve (prependSessionPathToFilename T w.cwd.path arg)).names) →
    GoesPast T env arg w → R.names <+: (resolve (prependSessionPathToFilename T w.cwd.path arg)).names

/-- `deny_file` and the way back to the root have the same answer for the name
and for the local path: there the levels above the root count from a root
deeper. -/
def SameVerdict (R cwd : Dir) (arg : Bytes) : Prop :=
  let above := (levelReading R cwd arg).1
  let names := (levelReading R cwd arg).2
  (LeadsBack R.names (above - R.names.length, names) ∧
      vsfAccessCheckFile T (prependSessionPathToFilename T cwd.path arg) = true) ↔
    LeadsBack R.names (above, names) ∧ vsfAccessCheckFile T arg = true

section

variable {T} {env} {w : World}

/-! ### The check decides -/

theorem Spared.extends {w' : World} (h : Spared w w') : Extends w w' := by
  obtain ⟨es, hes, -⟩ := h
  exact ⟨es, hes.symm⟩

theorem uploadOpened_extends (arg filename : Bytes) (offset : ℕ) (file : OpenFile) (fileLen : ℕ) :
    Within Extends Halt.Any (uploadOpened T env arg filename offset file fileLen) := by
  have hquiet : ∀ {α : Type} {x : M α}, Within Quiet Halt.Any x → Within Extends Halt.Any x :=
    fun h => h.mono fun _ _ => Quiet.extends
  unfold uploadOpened
  refine within_bind (hquiet (quiet_of_traced chownUpload_traced)) fun _ => ?_
  refine within_bind (hquiet (quiet_of_traced lockUpload_traced)) fun locked => within_ite ?_ (within_ite ?_ (within_ite ?_ ?_))
  · refine within_bind (vsfCmdioWriteStr_extends _ _) fun _ => ?_
    exact hquiet (uploadCleanup_quiet _ _ _)
  · refine within_bind (hquiet (within_when (truncateUpload_quiet file))) fun _ => ?_
    exact (uploadTransfer_spared _ _ _ _).mono fun _ _ => Spared.extends
  · refine within_bind (vsfCmdioWriteStr_extends _ _) fun _ => ?_
    have hemit : ∀ e, Within Extends Halt.Any (emit e) := fun e => within_modify fun _ => List.prefix_append _ _
    have hunlink : Within Extends Halt.Any (cosUnlink T env filename) :=
      cosUnlink_within (fun _ => hemit _) (fun _ _ => hemit _) filename
    refine within_bind hunlink fun _ => ?_
    exact hquiet (uploadCleanup_quiet _ _ _)
  · refine within_bind (hquiet (orDie_quiet _ _)) fun _ => ?_
    exact (uploadTransfer_spared _ _ _ _).mono fun _ _ => Spared.extends

/-- A path that passes is opened, and what follows keeps that in the trace. -/
theorem uploadChecked_creates {arg filename : Bytes} {offset : ℕ}
    (h : vsfAccessSessionCheckFile T w.cwd.path filename = true) :
    wp (uploadChecked T env arg filename offset) (fun _ w' => .create filename ∈ w.since w')
      (fun _ w' => .create filename ∈ w.since w') w := by
  have hmem : ∀ {w1 w2 : World}, w1.events = w.events ++ [.create filename] → Extends w1 w2 →
      .create filename ∈ w.since w2 := by
    intro w1 w2 hw1 hext
    obtain ⟨es, hes⟩ := hext
    unfold World.since
    rw [← hes, hw1, List.append_assoc, List.drop_left]
    simp
  unfold uploadChecked checkFile
  simp only [wp_bind, wp_get, wp_pure, h, Bool.not_true, Bool.false_eq_true, if_false]
  unfold strCreate emit
  simp only [wp_bind, wp_get, wp_modify, wp_ite, wp_pure]
  split
  · refine wp_mono (vsfCmdioWriteStr_extends _ _ _) ?_ ?_
    · exact fun _ _ hext => hmem rfl hext
    · exact fun _ _ hext => hmem rfl hext.2
  · refine wp_mono (uploadOpened_extends _ _ _ _ _ _) ?_ ?_
    · exact fun _ _ hext => hmem rfl hext
    · exact fun _ _ hext => hmem rfl hext.2

/-- A path that does not pass is answered with 550, and nothing is opened. -/
theorem uploadChecked_refuses {arg filename : Bytes} {offset : ℕ}
    (h : vsfAccessSessionCheckFile T w.cwd.path filename = false) :
    wp (uploadChecked T env arg filename offset) (fun _ w' => ∀ path, .create path ∉ w.since w')
      (fun _ w' => ∀ path, .create path ∉ w.since w') w := by
  let P : Event → Prop := fun e => ∀ path, e ≠ .create path
  have hsignal : ∀ e, SignalReply e → P e := by
    intro e he path
    cases he <;> exact Event.noConfusion
  have hno : ∀ {w' : World}, Talk P w w' → ∀ path, .create path ∉ w.since w' := by
    intro w' htalk path hmem
    obtain ⟨es, hes, hP, -⟩ := htalk.events
    unfold World.since at hmem
    rw [hes, List.drop_left] at hmem
    exact hP _ hmem path rfl
  unfold uploadChecked checkFile
  simp only [wp_bind, wp_get, wp_pure, h, Bool.not_false, if_true]
  refine wp_mono (vsfCmdioWriteStr_talk (P := P) (fun _ => Event.noConfusion) hsignal w) ?_ ?_
  · exact fun _ _ htalk => hno htalk
  · exact fun _ _ htalk => hno htalk.2

/-- A STOR with a data connection goes past its check if the check lets the
local path through, whatever else happens. -/
theorem goesPast_iff (h : DataReady T w) (hlog : w.sess.logType = none) (arg : Bytes) :
    GoesPast T env arg w ↔
      vsfAccessSessionCheckFile T w.cwd.path (storFilename T env.getpwnam arg w) = true := by
  set filename := storFilename T env.getpwnam arg w with hfilename
  obtain ⟨_, ⟨calls, rfl⟩, hwp⟩ := wp_handleUploadCommon_of_ready env h hlog arg
  constructor
  · rintro ⟨path, hmem⟩
    by_contra hcheck
    have hrefused : vsfAccessSessionCheckFile T w.cwd.path filename = false := Bool.eq_false_iff.mpr hcheck
    exact wp_after ((hwp _ _).mpr (uploadChecked_refuses (w := World.logging _ filename) hrefused)) path hmem
  · intro hcheck
    exact ⟨filename, wp_after ((hwp _ _).mpr (uploadChecked_creates (w := World.logging _ filename) hcheck))⟩

theorem resolveTilde_of_head {home a : Bytes} {getpwnam : Bytes → Option Bytes}
    (h : a.head? ≠ some chTilde) : resolveTilde T home getpwnam a = a := by
  unfold resolveTilde
  rw [if_neg]
  rintro ⟨-, h0⟩
  exact h (by rw [List.head?_eq_getElem?]; exact h0)

end

/-- **STOR checks a name as the other commands do** exactly if `deny_file` and
the way back to the root have the same answer for the name and for the local
path made from it. -/
theorem stor_checks_like_others_iff (T : Tunables) (env : Env) (R : Dir) (arg : Bytes) (w : World)
    (hR : getUserRootDir T = R.path) (hcwd : R.names <+: w.cwd.names) (hnul : chNul ∉ arg)
    (htilde : arg.head? ≠ some chTilde) (hready : DataReady T w) (hlog : w.sess.logType = none) :
    StorAgrees T env R arg w ↔ SameVerdict T R w.cwd arg := by
  have hpast : GoesPast T env arg w ↔ _ := goesPast_iff hready hlog arg
  rw [storFilename, resolveTilde_of_head htilde, vsfAccessSessionCheckFile_prepended hR hcwd hnul] at hpast
  have hcheck := vsfAccessSessionCheckFile_iff hR hcwd hnul
  constructor
  · intro h
    exact hpast.symm.trans (h.same.trans hcheck)
  · intro h
    have hsame : GoesPast T env arg w ↔ vsfAccessSessionCheckFile T w.cwd.path arg = true :=
      hpast.trans (h.trans hcheck.symm)
    exact ⟨hsame, fun hsound hgoes => hsound (hsame.mp hgoes)⟩

/-- A name in the root itself. -/
theorem stor_checks_plain_name_alike : StorAgrees habServer {} habRoot (text "x") habWorld :=
  (stor_checks_like_others_iff habServer {} habRoot (text "x") habWorld (by decide) (by decide) (by decide)
    (by decide) ⟨.inl rfl, rfl, rfl⟩ rfl).mpr (by unfold SameVerdict; decide)

/-- STOR ../x in the root /h/a/b goes to the file /h/a/x, and RETR ../x is refused. -/
theorem stor_goes_past_refused_name :
    ¬ StorAgrees habServer {} habRoot (text "../x") habWorld ∧
      vsfAccessSessionCheckFile habServer habRoot.path (text "../x") = false ∧
      (resolve (prependSessionPathToFilename habServer habRoot.path (text "../x"))).names =
        [text "h", text "a", text "x"] := by
  have hrefused : vsfAccessSessionCheckFile habServer habWorld.cwd.path (text "../x") = false := by decide
  have hpast : GoesPast habServer {} (text "../x") habWorld :=
    (goesPast_iff ⟨.inl rfl, rfl, rfl⟩ rfl (text "../x")).mpr (by decide)
  refine ⟨?_, hrefused, by decide⟩
  intro h
  rw [h.same.mp hpast] at hrefused
  cases hrefused

end CosFtp
