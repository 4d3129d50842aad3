/-
# RETR

`handle_retr`: the object is looked up at COS, the data connection is made, and
`do_file_send_rwloop` sends the object from the restart position on. `is_http`
is 0, as for every client that has logged in.

Key definition: `handleRetr`.
Key theorems: `transferring_handled`, `handleRetr_handled`.
-/
import CosFtp.Upload

namespace CosFtp

open Wp

variable (T : Tunables) (env : Env)

/-- `cos_stat_file`: the size of an object. -/
def cosStatFile (path : Bytes) : M (Option ℕ) := do
  let w ← get
  emit (.cos (.fileStat (getCosPathFromDiskPath T w.cwd.path path)))
  when (env.fileStat = none) (vsfLogDebug [cstr env.fileStatRespmsg])
  pure env.fileStat

/-- The mark in front of a download. -/
def retrMark (isAscii : Bool) (arg : Bytes) (size : ℕ) : Bytes :=
  cstr (text "Opening " ++ text (if isAscii then "ASCII" else "BINARY") ++
    text " mode data connection for " ++ arg ++ text " (" ++ ulongText size ++ text " bytes).")

/-- From `port_pasv_cleanup_out` on. -/
def transferCleanup : M Unit := do
  portCleanup
  pasvCleanup T env

/-- The answer to the result of the transfer. -/
def retrReply (retval : ℤ) : M Unit :=
  if retval = -1 then vsfCmdioWrite T env ftpBadsendfile "Failure reading local file."
  else if retval = -2 then do
    let w ← get
    when (!w.sess.dataTimeout) (vsfCmdioWrite T env ftpBadsendnet "Failure writing network stream.")
  else vsfCmdioWrite T env ftpTransferok "Transfer complete."

/-- What follows when the data connection has been closed, up to the cleanup. -/
def retrResult (ret : TransferRet) (disposed : Bool) : M Unit := do
  let retval := if !disposed ∧ ret.retval = 0 then -2 else ret.retval
  modifySess fun s => { s with transferSize := ret.transferred }
  when (retval = 0) (vsfLogDoLog true)
  retrReply T env retval
  checkAbor T env

/-- The transfer of an object of a known size. -/
def retrTransfer (arg : Bytes) (offset size : ℕ) : M Unit := do
  let w ← get
  let isAscii := T.asciiDownloadEnable && w.sess.isAscii
  let connected ← getRemoteTransferFd T env (retrMark isAscii arg size)
  if !connected then transferCleanup T env
  else do
    let ret ← doFileSendRwloop T env (getCosPathFromDiskPath T w.cwd.path arg) isAscii offset size
    let disposed ← vsfFtpdataioDisposeTransferFd T env
    retrResult T env ret disposed
    transferCleanup T env

/-- The access check, and the object is looked up. -/
def retrChecked (arg : Bytes) (offset : ℕ) : M Unit := do
  let allowed ← checkFile T arg
  if !allowed then vsfCmdioWrite T env ftpNoperm "Permission denied."
  else do
    let size ← cosStatFile T env arg
    match size with
    | none => vsfCmdioWrite T env ftpFilefail "Failed to open file."
    | some size => retrTransfer T env arg offset size

def handleRetr (arg : Bytes) : M Unit := do
  let w ← get
  modifySess fun s => { s with restartPos := 0 }
  let ok ← dataTransferChecksOk T env
  if !ok then pure ()
  else if w.sess.isAscii ∧ w.sess.restartPos ≠ 0 then
    vsfCmdioWrite T env ftpFilefail "No support for resume of ASCII transfer."
  else do
    let arg ← resolveTildeArg T env arg
    vsfLogStartEntry .download
    let filename ← prependPath T arg
    modifySess fun s => { s with logStr := filename }
    retrChecked T env arg w.sess.restartPos

/-- An object that is there is looked up and nothing is logged of it. -/
theorem wp_cosStatFile_of_some {T : Tunables} {env : Env} {w : World} {size : ℕ} (h : env.fileStat = some size)
    (path : Bytes) {Q : Option ℕ → World → Prop} {E : Halt → World → Prop} :
    wp (cosStatFile T env path) Q E w ↔ Q (some size)
      { w with events := w.events ++ [.cos (.fileStat (getCosPathFromDiskPath T w.cwd.path path))] } := by
  unfold cosStatFile
  rw [h]
  rfl

/-! ### The data connection is given up -/

section

variable {T} {env} {w : World}

/-- A download leaves the control state alone. -/
theorem sendLoop_ctl (path : Bytes) (isAscii : Bool) (size n : ℕ) (st : SendState) :
    Within SameCtl Halt.Orderly (sendLoop T env path isAscii size n st) := by
  refine sendLoop_within ?_ ?_ isAscii size n st
  · exact fileDownload_within (fun _ _ _ _ => emit_ctl _) (fun _ _ => emit_ctl _) path
  · intro buf
    unfold ftpWriteData
    refine within_bind within_get fun w => within_bind (within_modify fun _ => rfl) fun _ => ?_
    refine within_bind (emit_ctl _) fun _ => within_bind ?_ fun _ => within_pure _
    exact sameCtl_of_talk (checkPendingIo_talk (P := fun _ => True) (fun _ _ => trivial) _)

theorem doFileSendRwloop_ctl (path : Bytes) (isAscii : Bool) (offset size : ℕ) :
    Within SameCtl Halt.Orderly (doFileSendRwloop T env path isAscii offset size) := by
  have hany : Within SameCtl Halt.Any (doFileSendRwloop T env path isAscii offset size) := by
    unfold doFileSendRwloop
    refine within_bind (fun w => ?_) fun r => ?_
    · exact wp_mono (sendLoop_ctl _ _ _ _ _ w) (fun _ _ hq => hq) (fun _ _ he => ⟨trivial, he.2⟩)
    cases r with
    | inl st => exact within_throw trivial
    | inr ret => exact within_pure _
  intro w
  refine wp_mono (wp_and (hany w) (doFileSendRwloop_spec path isAscii offset size w)) ?_ ?_
  · exact fun _ _ h => h.1
  · exact fun _ _ h => ⟨h.2.1, h.1.2⟩

/-- **A command that makes the data connection, uses it and closes it** has none
open when it ends, and no longer waits for one. -/
theorem transferring_handled {α : Type} {transfer : M α} {rest : α → Bool → M Unit} (h : w.ctl.Idle T)
    (hactive : w.ctl.active T = true) (htransfer : Within SameCtl Halt.Orderly transfer)
    (hrest : ∀ a ok, Within Loose Halt.Orderly (rest a ok)) (msg : Bytes) :
    wp (do
      let connected ← getRemoteTransferFd T env msg
      if !connected then transferCleanup T env
      else do
        let ret ← transfer
        let disposed ← vsfFtpdataioDisposeTransferFd T env
        rest ret disposed
        transferCleanup T env)
      (fun _ w' => Handled T w w') (fun e _ => e.Orderly) w := by
  -- the cleanup finds the connection closed, whatever happened to the log entry and the PORT address
  have hclean : ∀ w1, Loose w w1 →
      wp (transferCleanup T env) (fun _ w' => Handled T w w') (fun e _ => e.Orderly) w1 := by
    intro w1 hw1
    refine wp_mono (cleanup_handled env (hw1.idle h)) ?_ (fun _ _ he => he)
    intro _ w2 hw2
    obtain ⟨fd, hfd⟩ := hw2.own
    refine ⟨hw2.idle, hw2.cwd.trans hw1.cwd, hw2.home.trans hw1.home, ?_, fd, ?_⟩
    · rcases hw2.port with hp | hp
      · rw [hp]
        exact hw1.port
      · exact .inr hp
    · rw [hfd, hw1.own]
  rw [wp_bind]
  refine wp_mono (getRemoteTransferFd_spec h hactive msg) ?_ (fun _ _ he => he)
  intro connected w1 hw1
  cases connected with
  | false =>
    have hsame : SameCtl w w1 := by simpa using hw1
    exact hclean w1 hsame.loose
  | true =>
    obtain ⟨fd, hfd⟩ : ∃ fd, w1.ctl = w.ctl.opened fd := by simpa using hw1
    simp only [Bool.not_true, Bool.false_eq_true, if_false]
    rw [wp_bind]
    refine wp_mono (htransfer w1) ?_ (fun _ _ he => he.1)
    intro ret w2 hw2
    have hw2' : w2.ctl = w.ctl.opened fd := Eq.trans hw2 hfd
    have hopen : w2.ctl.dataFd ≠ none ∧ w2.ctl.ioHandler = true := by
      rw [hw2']
      exact ⟨Option.some_ne_none fd, rfl⟩
    rw [wp_bind]
    refine wp_mono (vsfFtpdataioDisposeTransferFd_spec hopen.1 hopen.2) ?_ (fun _ _ he => he)
    intro disposed w3 hw3
    have hw3' : SameCtl w w3 := by
      unfold SameCtl
      rw [hw3, hw2', Ctl.closed_opened h]
    rw [wp_bind]
    refine wp_mono (hrest ret disposed w3) ?_ (fun _ _ he => he.1)
    intro _ w4 hw4
    exact hclean w4 (hw3'.loose.trans hw4)

theorem retrResult_loose (ret : TransferRet) (disposed : Bool) :
    Within Loose Halt.Orderly (retrResult T env ret disposed) := by
  unfold retrResult
  refine within_bind (loose_of_sameCtl ?_) fun _ => ?_
  · exact modifySess_ctl (fun _ => rfl) (fun _ => rfl) (fun _ => rfl) (fun _ => rfl) (fun _ => rfl)
  refine within_bind (within_when (vsfLogDoLog_loose true)) fun _ => ?_
  refine within_bind (loose_of_sameCtl ?_) fun _ => loose_of_sameCtl checkAbor_ctl
  unfold retrReply
  refine within_ite (vsfCmdioWrite_ctl _ _) (within_ite ?_ (vsfCmdioWrite_ctl _ _))
  exact within_bind within_get fun _ => within_when (vsfCmdioWrite_ctl _ _)

theorem retrTransfer_handled (h : w.ctl.Idle T) (hactive : w.ctl.active T = true) (arg : Bytes)
    (offset size : ℕ) :
    wp (retrTransfer T env arg offset size) (fun _ w' => Handled T w w') (fun e _ => e.Orderly) w := by
  unfold retrTransfer
  rw [wp_bind, wp_get]
  exact transferring_handled h hactive (doFileSendRwloop_ctl _ _ _ _) retrResult_loose _

theorem cosStatFile_ctl (path : Bytes) : Within SameCtl Halt.Orderly (cosStatFile T env path) :=
  within_bind within_get fun _ => within_bind (emit_ctl _) fun _ =>
    within_bind (within_when (vsfLogDebug_ctl _)) fun _ => within_pure _

theorem retrChecked_handled (h : w.ctl.Idle T) (hactive : w.ctl.active T = true) (arg : Bytes)
    (offset : ℕ) :
    wp (retrChecked T env arg offset) (fun _ w' => Handled T w w') (fun e _ => e.Orderly) w := by
  have hreply : ∀ (w1 : World) (code : ℕ) (msg : String), SameCtl w w1 →
      wp (vsfCmdioWrite T env code msg) (fun _ w' => Handled T w w') (fun e _ => e.Orderly) w1 := by
    intro w1 code msg hw1
    refine wp_mono (vsfCmdioWrite_ctl code msg w1) ?_ (fun _ _ he => he.1)
    intro _ w2 hw2
    exact SameCtl.loose (Eq.trans hw2 hw1) |>.handled h
  unfold retrChecked checkFile
  simp only [wp_bind, wp_get, wp_pure, wp_ite]
  split
  · exact hreply w _ _ rfl
  refine wp_mono (cosStatFile_ctl arg w) ?_ (fun _ _ he => he.1)
  intro size w1 hw1
  have hctl : w1.ctl = w.ctl := hw1
  cases size with
  | none => exact hreply w1 _ _ hw1
  | some size =>
    have hidle : w1.ctl.Idle T := by rwa [hctl]
    have hactive1 : w1.ctl.active T = true := by rwa [hctl]
    have hlog : w1.ctl = { w.ctl with logType := w.ctl.logType } := hctl
    exact handled_after hlog (retrTransfer_handled hidle hactive1 arg offset size)

/-- RETR gives up the data connection on each of its ways out. -/
theorem handleRetr_handled (h : w.ctl.Idle T) (hlog : w.ctl.logType = none) (arg : Bytes) :
    wp (handleRetr T env arg) (fun _ w' => Handled T w w') (fun e _ => e.Orderly) w := by
  unfold handleRetr
  rw [wp_bind, wp_get, wp_bind, modifySess, wp_modify, wp_bind]
  refine wp_mono (dataTransferChecksOk_spec h.exclusive) ?_ (fun _ _ he => he)
  rintro ok w2 ⟨hw2, hok⟩
  have hctl2 : w2.ctl = w.ctl := hw2
  rw [wp_ite]
  split
  · exact (SameCtl.loose hctl2).handled h
  rw [wp_ite]
  split
  · refine wp_mono (vsfCmdioWrite_ctl _ _ w2) ?_ (fun _ _ he => he.1)
    intro _ w3 hw3
    exact (SameCtl.loose (Eq.trans hw3 hctl2)).handled h
  · rename_i hok' _
    have hactive : w.ctl.active T = true := hok (by simpa using hok')
    simp only [resolveTildeArg, prependPath, wp_bind, wp_get, wp_pure]
    refine wp_mono (vsfLogStartEntry_spec (hctl2 ▸ hlog) _) ?_ (fun _ _ he => he.elim)
    intro _ w3 hw3
    rw [hctl2] at hw3
    rw [modifySess, wp_modify]
    refine handled_after hw3 (retrChecked_handled ?_ ?_ _ _)
    · show w3.ctl.Idle T
      rw [hw3]
      exact ⟨h.dataFd, h.ioHandler, h.exclusive⟩
    · show w3.ctl.active T = true
      rw [hw3]
      exact hactive

end

end CosFtp
