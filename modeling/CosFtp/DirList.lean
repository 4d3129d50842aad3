/-
# LIST, NLST and STAT

`handle_dir_common`: the argument is taken apart into options, directory and
filter, and the lines of the listing are written to the data connection, or for
STAT to the control connection, in buffers of `VSFTP_DIR_BUFSIZE` bytes. The
lines themselves are `vsf_ls_populate_dir_list`'s and an answer of `Env` here:
making them reads from COS and changes nothing but the log, which gets the
answers of COS that were of no use for them.

Key definitions: `writeDirList`, `handleDirCommon`.
Key theorem: `handleDirCommon_handled`.
-/
import CosFtp.Retr

namespace CosFtp

open Wp

variable (T : Tunables) (env : Env)

/-! ### Folders of COS -/

/-- `cos_stat_dir`: whether the folder is there. -/
def cosStatDir (path : Bytes) : M Bool := do
  let w ← get
  emit (.cos (.folderStat (getCosFolderPath T w.cwd.path path)))
  when (!env.folderStat) (vsfLogDebug [cstr env.folderStatRespmsg])
  pure env.folderStat

/-- `cos_dir_isempty`. -/
def cosDirIsempty (path : Bytes) : M ℤ := do
  let w ← get
  emit (.cos (.folderList (getCosFolderPath T w.cwd.path path)))
  when (env.folderEmpty = -1) (vsfLogDebug [cstr env.folderListRespmsg])
  pure env.folderEmpty

/-- `cos_isdir`: the folder is there, or it is not but has files in it. -/
def cosIsdir (path : Bytes) : M Bool := do
  let isDir ← cosStatDir T env path
  if isDir then pure true
  else do
    let empty ← cosDirIsempty T env path
    pure (empty = 1)

/-! ### The listing goes out -/

/-- `write_dir_list`, with what stands in the buffer. -/
def writeDirList (write : Bytes → M Bool) : Bytes → List Bytes → M Bool
  | _, [] => pure true
  | buf, [last] => write (buf ++ last)
  | buf, line :: next :: rest =>
    if vsftpDirBufsize < (buf ++ line).length + next.length then do
      let ok ← write (buf ++ line)
      if ok then writeDirList write [] (next :: rest) else pure false
    else writeDirList write (buf ++ line) (next :: rest)

/-- `ftp_write_str` to the data connection. -/
def ftpWriteStrData (str : Bytes) : M Bool := do
  let ret ← ftpWriteData T env str
  pure (ret = str.length)

/-- `ftp_write_str` to the control connection. -/
def ftpWriteStrControl (str : Bytes) : M Bool := do
  let w ← get
  when (env.ctrlWrite w.clock) (emit (.raw str))
  checkPendingActions T env
  pure (env.ctrlWrite w.clock)

/-- The answer to a listing. -/
def dirReply (sent disposed : Bool) : M Unit := do
  let w ← get
  if !(sent && disposed) then
    when (!w.sess.dataTimeout) (vsfCmdioWrite T env ftpBadsendnet "Failure writing network stream.")
  else vsfCmdioWrite T env ftpTransferok "Directory send OK."

def dirResult (sent disposed : Bool) : M Unit := do
  dirReply T env sent disposed
  checkAbor T env

/-- `transfer_dir_internal`: the lines are made, which logs the answers in `respmsgs`, and written. -/
def transferDirInternal (write : Bytes → M Bool) (respmsgs lines : List Bytes) : M Bool := do
  vsfLogDebug (respmsgs.map cstr)
  writeDirList write [] lines

/-- The lines, over the data connection. -/
def listTransfer (respmsgs lines : List Bytes) : M Unit := do
  let connected ← getRemoteTransferFd T env (text "Here comes the directory listing.")
  if !connected then transferCleanup T env
  else do
    let sent ← transferDirInternal (ftpWriteStrData T env) respmsgs lines
    let disposed ← vsfFtpdataioDisposeTransferFd T env
    dirResult T env sent disposed
    transferCleanup T env

/-- The lines, over the control connection. -/
def statTransfer (respmsgs lines : List Bytes) : M Unit := do
  vsfCmdioWriteHyphen T env ftpStatfileOk "Status follows:"
  let _ ← transferDirInternal (ftpWriteStrControl T env) respmsgs lines
  vsfCmdioWrite T env ftpStatfileOk "End of status"
  checkAbor T env

/-! ### The command -/

/-- The options and the filter of an argument; the options must come first. -/
def splitListArg (arg : Bytes) : Bytes × Bytes :=
  if arg.head? = some chMinus then strSplitChar (arg.drop 1) chSpace else ([], arg)

/-- The base directory and the filter of an argument that is not a directory. -/
def splitListFilter (filter : Bytes) : Bytes × Bytes :=
  if (strLocateChar filter chSlash).isSome then
    let (dir, filter) := strSplitCharReverse filter chSlash
    -- the one slash of "/name" was just ripped off
    (if dir = [] then [chSlash] else dir, filter)
  else (text ".", filter)

def dirChecksOk (statCmd : Bool) : M Bool :=
  if statCmd then pure true else dataTransferChecksOk T env

/-- Whether a directory is listed outright, which STAT does not. -/
def listsDirectory (statCmd : Bool) (filter : Bytes) : M Bool :=
  if statCmd then pure false else cosIsdir T env filter

def dirTransfer (fullDetails statCmd : Bool) (dir option filter : Bytes) : M Unit :=
  if statCmd then
    statTransfer T env (env.dirRespmsgs dir (option ++ text "a") filter fullDetails)
      (env.dirLines dir (option ++ text "a") filter fullDetails)
  else
    listTransfer T env (env.dirRespmsgs dir option filter fullDetails) (env.dirLines dir option filter fullDetails)

/-- A filter was given. -/
def dirFiltered (fullDetails statCmd : Bool) (option filter : Bytes) : M Unit := do
  let filter ← resolveTildeArg T env filter
  let allowed ← checkFile T filter
  if !allowed then vsfCmdioWrite T env ftpNoperm "Permission denied."
  else do
    let isDir ← listsDirectory T env statCmd filter
    let (dir, filter) := if isDir then (filter, []) else splitListFilter filter
    dirTransfer T env fullDetails statCmd dir option filter

def handleDirCommon (fullDetails statCmd : Bool) (arg : Bytes) : M Unit := do
  let ok ← dirChecksOk T env statCmd
  if !ok then pure ()
  else
    let (option, filter) := splitListArg arg
    if filter = [] then dirTransfer T env fullDetails statCmd (text ".") option []
    else dirFiltered T env fullDetails statCmd option filter

def handleList (arg : Bytes) : M Unit := handleDirCommon T env true false arg

def handleNlst (arg : Bytes) : M Unit := handleDirCommon T env false false arg

def handleStatFile (arg : Bytes) : M Unit := handleDirCommon T env true true arg

/-! ### The data connection is given up -/

section

variable {T} {env} {w : World}

theorem cosStatDir_ctl (path : Bytes) : Within SameCtl Halt.Orderly (cosStatDir T env path) :=
  within_bind within_get fun _ => within_bind (emit_ctl _) fun _ =>
    within_bind (within_when (vsfLogDebug_ctl _)) fun _ => within_pure _

theorem cosDirIsempty_ctl (path : Bytes) : Within SameCtl Halt.Orderly (cosDirIsempty T env path) :=
  within_bind within_get fun _ => within_bind (emit_ctl _) fun _ =>
    within_bind (within_when (vsfLogDebug_ctl _)) fun _ => within_pure _

theorem cosIsdir_ctl (path : Bytes) : Within SameCtl Halt.Orderly (cosIsdir T env path) := by
  unfold cosIsdir
  refine within_bind (cosStatDir_ctl path) fun isDir => within_ite (within_pure _) ?_
  exact within_bind (cosDirIsempty_ctl path) fun _ => within_pure _

/-- A listing does what its writes do. -/
theorem writeDirList_within {R : World → World → Prop} {C : Halt → Prop} [Std.Refl R] [IsTrans World R]
    {write : Bytes → M Bool} (hwrite : ∀ str, Within R C (write str)) (lines : List Bytes) :
    ∀ buf, Within R C (writeDirList write buf lines) := by
  induction lines with
  | nil =>
    intro buf
    exact within_pure true
  | cons line rest ih =>
    intro buf
    cases rest with
    | nil => exact hwrite _
    | cons next rest =>
      unfold writeDirList
      apply within_ite
      · apply within_bind (hwrite _)
        intro ok
        exact within_ite (ih []) (within_pure false)
      · exact ih (buf ++ line)

theorem transferDirInternal_within {R : World → World → Prop} {C : Halt → Prop} [Std.Refl R] [IsTrans World R]
    {write : Bytes → M Bool} (hlog : ∀ msgs, Within R C (vsfLogDebug msgs))
    (hwrite : ∀ str, Within R C (write str)) (respmsgs lines : List Bytes) :
    Within R C (transferDirInternal write respmsgs lines) :=
  within_bind (hlog _) fun _ => writeDirList_within hwrite lines []

theorem ftpWriteData_ctl (buf : Bytes) : Within SameCtl Halt.Orderly (ftpWriteData T env buf) := by
  unfold ftpWriteData
  refine within_bind within_get fun w => within_bind (within_modify fun _ => rfl) fun _ => ?_
  refine within_bind (emit_ctl _) fun _ => within_bind ?_ fun _ => within_pure _
  exact sameCtl_of_talk (checkPendingIo_talk (P := fun _ => True) (fun _ _ => trivial) _)

theorem ftpWriteStrData_ctl (str : Bytes) : Within SameCtl Halt.Orderly (ftpWriteStrData T env str) :=
  within_bind (ftpWriteData_ctl str) fun _ => within_pure _

theorem ftpWriteStrControl_ctl (str : Bytes) :
    Within SameCtl Halt.Orderly (ftpWriteStrControl T env str) := by
  unfold ftpWriteStrControl
  refine within_bind within_get fun w => within_bind (within_when (emit_ctl _)) fun _ => ?_
  exact within_bind checkPendingActions_ctl fun _ => within_pure _

theorem dirResult_ctl (sent disposed : Bool) :
    Within SameCtl Halt.Orderly (dirResult T env sent disposed) := by
  unfold dirResult dirReply
  refine within_bind ?_ fun _ => checkAbor_ctl
  refine within_bind within_get fun w => within_ite (within_when ?_) ?_
  · exact vsfCmdioWrite_ctl _ _
  · exact vsfCmdioWrite_ctl _ _

theorem vsfCmdioWriteHyphen_ctl (code : ℕ) (msg : Bytes) :
    Within SameCtl Halt.Orderly (vsfCmdioWriteStrHyphen T env code msg) := by
  have hflag : (Event.hyphen code msg).Flagless := ⟨Event.noConfusion, Event.noConfusion⟩
  refine within_bind ?_ fun _ => checkPendingActions_ctl
  exact sameCtl_of_talk (writeControl_talk (P := fun _ => True) trivial hflag fun _ _ => trivial)

theorem statTransfer_ctl (respmsgs lines : List Bytes) :
    Within SameCtl Halt.Orderly (statTransfer T env respmsgs lines) := by
  unfold statTransfer
  refine within_bind (vsfCmdioWriteHyphen_ctl _ _) fun _ => ?_
  refine within_bind (transferDirInternal_within vsfLogDebug_ctl ftpWriteStrControl_ctl respmsgs lines) fun _ => ?_
  exact within_bind (vsfCmdioWrite_ctl _ _) fun _ => checkAbor_ctl

/-- A step that leaves the control state alone, in front of a command. -/
theorem handled_of_ctl {α : Type} {x : M α} (h : w.ctl.Idle T) (hx : Within SameCtl Halt.Orderly x) :
    wp x (fun _ w' => Handled T w w') (fun e _ => e.Orderly) w := by
  refine wp_mono (hx w) ?_ (fun _ _ he => he.1)
  intro _ w1 hw1
  exact (SameCtl.loose hw1).handled h

/-- LIST and NLST use the data connection, which was asked for; STAT does not. -/
theorem dirTransfer_handled {statCmd : Bool} (h : w.ctl.Idle T)
    (hactive : statCmd = false → w.ctl.active T = true) (fullDetails : Bool) (dir option filter : Bytes) :
    wp (dirTransfer T env fullDetails statCmd dir option filter) (fun _ w' => Handled T w w')
      (fun e _ => e.Orderly) w := by
  unfold dirTransfer
  cases statCmd with
  | true =>
    rw [if_pos rfl]
    exact handled_of_ctl h (statTransfer_ctl _ _)
  | false =>
    rw [if_neg (by decide)]
    unfold listTransfer
    apply transferring_handled h (hactive rfl)
    · exact transferDirInternal_within vsfLogDebug_ctl ftpWriteStrData_ctl _ _
    · intro sent disposed
      exact loose_of_sameCtl (dirResult_ctl sent disposed)

theorem dirFiltered_handled {statCmd : Bool} (h : w.ctl.Idle T)
    (hactive : statCmd = false → w.ctl.active T = true) (fullDetails : Bool) (option filter : Bytes) :
    wp (dirFiltered T env fullDetails statCmd option filter) (fun _ w' => Handled T w w')
      (fun e _ => e.Orderly) w := by
  have hlists : ∀ filter, Within SameCtl Halt.Orderly (listsDirectory T env statCmd filter) := by
    intro filter
    unfold listsDirectory
    exact within_ite (within_pure _) (cosIsdir_ctl filter)
  unfold dirFiltered resolveTildeArg checkFile
  simp only [wp_bind, wp_get, wp_pure]
  rw [wp_ite]
  split
  · exact handled_of_ctl h (vsfCmdioWrite_ctl _ _)
  · rw [wp_bind]
    refine wp_mono (hlists _ w) ?_ (fun _ _ he => he.1)
    intro isDir w1 hw1
    have hctl : w1.ctl = { w.ctl with logType := w.ctl.logType } := hw1
    refine handled_after hctl (dirTransfer_handled ?_ ?_ _ _ _ _)
    · rw [hctl]
      exact h
    · rw [hctl]
      exact hactive

/-- LIST, NLST and STAT give up the data connection on each of their ways out. -/
theorem handleDirCommon_handled (h : w.ctl.Idle T) (fullDetails statCmd : Bool) (arg : Bytes) :
    wp (handleDirCommon T env fullDetails statCmd arg) (fun _ w' => Handled T w w')
      (fun e _ => e.Orderly) w := by
  have hchecks : wp (dirChecksOk T env statCmd)
      (fun ok w' => SameCtl w w' ∧ (ok = true → statCmd = false → w.ctl.active T = true))
      (fun e _ => e.Orderly) w := by
    unfold dirChecksOk
    cases statCmd with
    | true => exact ⟨rfl, fun _ hno => Bool.noConfusion hno⟩
    | false =>
      refine wp_mono (dataTransferChecksOk_spec h.exclusive) ?_ (fun _ _ he => he)
      intro ok w1 hw1
      exact ⟨hw1.1, fun hok _ => hw1.2 hok⟩
  unfold handleDirCommon
  rw [wp_bind]
  refine wp_mono hchecks ?_ (fun _ _ he => he)
  intro ok w1 hw1
  obtain ⟨hsame, hactive⟩ := hw1
  have hctl : w1.ctl = { w.ctl with logType := w.ctl.logType } := hsame
  have hidle : w1.ctl.Idle T := by
    rw [hctl]
    exact h
  cases ok with
  | false => exact (SameCtl.loose hsame).handled h
  | true =>
    have hactive1 : statCmd = false → w1.ctl.active T = true := by
      rw [hctl]
      exact hactive rfl
    simp only [Bool.not_true, Bool.false_eq_true, if_false]
    apply handled_after hctl
    rw [wp_ite]
    split
    · exact dirTransfer_handled hidle hactive1 _ _ _ _
    · exact dirFiltered_handled hidle hactive1 _ _ _

end

end CosFtp
