/-
# STOR

`handle_upload_common`: the client's file is received into a local file of the
same name, which then goes to COS and is removed. The function is given in
parts, each under a name of its own and in the order of the source; a part
ends where the source can leave for the cleanup at its end. `is_append` and
`is_unique` are 0, as in the one call of it that is compiled.

Key definitions: `handleUploadCommon`, `cosUploadFile`, `cosUnlink`.
-/
import CosFtp.Recv

namespace CosFtp

open Wp Inode

variable (T : Tunables) (env : Env)

/-! ### COS -/

/-- `cos_unlink`: 0, 1 for an object that was not there, or -1. -/
def cosUnlink (path : Bytes) : M ℤ := do
  let w ← get
  emit (.cos (.fileDelete (getCosPathFromDiskPath T w.cwd.path path)))
  if env.fileDelete = some 0 then pure 0
  else if env.fileDelete = some (-197) then pure 1
  else do
    vsfLogLine .delete (cstr (env.respmsg 0))
    pure (-1)

/-- One try of `cos_upload_file`, with the content of the local file. -/
def fileUpload (srcPath path : Bytes) (i : ℕ) : M Bool := do
  let w ← get
  let content := w.disk.lookup (resolve srcPath).names
  emit (.cos (.fileUpload (getCosPathFromDiskPath T w.cwd.path path) content (env.fileUpload i)))
  when (!env.fileUpload i) (vsfLogLine .upload (cstr (env.respmsg i)))
  pure (env.fileUpload i)

/-- `cos_upload_file`: whether one of two tries stored the file. -/
def cosUploadFile (srcPath path : Bytes) : M Bool := do
  let ok ← fileUpload T env srcPath path 0
  if ok then pure true else fileUpload T env srcPath path 1

/-! ### Local files -/

/-- `str_create` and `str_create_exclusive`: an open file, or `none`. -/
def strCreate (exclusive : Bool) (path : Bytes) : M (Option OpenFile) := do
  let w ← get
  let name := (resolve path).names
  emit (.create path)
  if !env.create ∨ (exclusive ∧ w.disk.entry name ≠ none) then pure none
  else do
    modify fun w => { w with disk := (w.disk.create name).2 }
    pure (some { inode := (w.disk.create name).1, append := exclusive })

/-- `str_unlink`, whose result is not looked at. -/
def strUnlink (path : Bytes) : M Unit := modify fun w =>
  if env.unlink then { w with disk := w.disk.unlink (resolve path).names } else w

/-- `vsf_sysutil_lock_file_write_addi`. -/
def lockFile : M Bool := do
  let w ← get
  interrupted T env (env.interrupts w.clock)
  checkPendingActions T env
  pure env.lock

/-- A call whose failure ends the session. -/
def orDie (ok : Bool) (what : String) : M Unit := if ok then pure () else throw (.die what)

/-- The owner of an anonymous upload is changed. -/
def chownUpload : M Unit := do
  let w ← get
  when (w.sess.isAnonymous ∧ T.chownUploads) (do
    orDie env.fchmod "fchmod"
    onBroker T (.chownUpload env.chownFd) env.chown (vsfPrivopDoFileChown env.chown env.chownFd))

/-- Whether the upload may go on: the file is locked if it has to be. -/
def lockUpload : M Bool := if T.lockUploadFiles then lockFile T env else pure true

/-- The file is emptied and rewound. -/
def truncateUpload (file : OpenFile) : M Unit := do
  orDie env.ftruncate "ftruncate"
  modify fun w => { w with disk := w.disk.truncate file.inode }
  orDie env.lseek "lseek"

/-! ### The command -/

/-- From `port_pasv_cleanup_out` on. -/
def uploadCleanup (filename : Bytes) (pasvCleaned success : Bool) : M Unit := do
  portCleanup
  when (!pasvCleaned) (pasvCleanup T env)
  when (T.deleteFailedUploads ∧ !success) (strUnlink env filename)
  orDie env.close "close"

/-- The file has been received: it goes to COS. -/
def uploadToCos (arg filename : Bytes) : M Bool := do
  portCleanup
  vsfLogDebug [filename ++ text "  Receive success."]
  let ok ← cosUploadFile T env filename arg
  if !ok then do
    vsfCmdioWrite T env ftpBadsendfile "Failure transfer file to cos."
    pure false
  else do
    vsfLogDoLog true
    vsfCmdioWriteStr T env ftpTransferok (text "Transfer complete.")
    strUnlink env filename
    pure true

/-- What is done for the result of the transfer: whether it was a success. -/
def uploadResult (arg filename : Bytes) (retval : ℤ) : M Bool := do
  if retval = -1 then do
    vsfCmdioWrite T env ftpBadsendfile "Failure writing to local file."
    pure false
  else if retval = -2 then do
    let w ← get
    when (!w.sess.dataTimeout) (vsfCmdioWrite T env ftpBadsendnet "Failure reading network stream.")
    pure false
  else if retval = -3 then do
    vsfCmdioWriteStr T env ftpBadsendfile
      (text "The max allow file size is: " ++ ulongText (T.maxUploadFileSize / 1024) ++ text " MB")
    strUnlink env filename
    pure false
  else if retval = 0 then uploadToCos T env arg filename
  else pure false

/-- The transfer, once the local file is ready for it. -/
def uploadTransfer (arg filename : Bytes) (file : OpenFile) (haveRecvLen : ℕ) : M Unit := do
  let connected ← getRemoteTransferFd T env (text "Ok to send data.")
  if !connected then uploadCleanup T env filename false false
  else do
    pasvCleanup T env
    let w ← get
    let ret ← doFileRecv T env file (T.asciiUploadEnable && w.sess.isAscii) haveRecvLen
    let disposed ← vsfFtpdataioDisposeTransferFd T env
    let retval := if !disposed ∧ ret.retval = 0 then -2 else ret.retval
    modifySess fun s => { s with transferSize := ret.transferred }
    let success ← uploadResult T env arg filename retval
    checkAbor T env
    uploadCleanup T env filename true success

/-- The file is open: from the chown to the seek. -/
def uploadOpened (arg filename : Bytes) (offset : ℕ) (file : OpenFile) (fileLen : ℕ) : M Unit := do
  chownUpload T env
  let locked ← lockUpload T env
  if !locked then do
    vsfCmdioWrite T env ftpBadfilebusy "File is locked, Try later."
    -- the file is another session's, so it must not be deleted: a success
    uploadCleanup T env filename false true
  else if offset = 0 then do
    when (!file.append) (truncateUpload env file)
    uploadTransfer T env arg filename file 0
  else if fileLen < offset then do
    vsfCmdioWrite T env ftpBadsendfile "Offset is out of bounds. Try again"
    let _ ← cosUnlink T env filename
    uploadCleanup T env filename false false
  else do
    orDie env.lseek "lseek"
    uploadTransfer T env arg filename { file with pos := offset } offset

/-- Whether the local file has to be a new one. -/
def createsExclusive (s : Session) : Bool := s.isAnonymous && !T.anonOtherWriteEnable

/-- The access check, and the file is created or opened. -/
def uploadChecked (arg filename : Bytes) (offset : ℕ) : M Unit := do
  let allowed ← checkFile T filename
  if !allowed then vsfCmdioWrite T env ftpNoperm "Permission denied."
  else do
    let w ← get
    let file ← strCreate env (createsExclusive T w.sess) filename
    match file with
    | none => vsfCmdioWrite T env ftpUploadfail "Could not create file."
    | some file => do
      let w ← get
      uploadOpened T env arg filename offset file (w.disk.data file.inode).length

def handleUploadCommon (arg : Bytes) : M Unit := do
  let w ← get
  modifySess fun s => { s with restartPos := 0 }
  let ok ← dataTransferChecksOk T env
  if !ok then pure ()
  else do
    let arg ← resolveTildeArg T env arg
    let filename ← prependPath T arg
    vsfLogStartEntry .upload
    modifySess fun s => { s with logStr := filename }
    uploadChecked T env arg filename w.sess.restartPos

/-! ### The data connection is given up -/

section

variable {T} {env} {w : World}

theorem portCleanup_loose : Within Loose Halt.Orderly portCleanup :=
  fun _ => ⟨rfl, rfl, .inr rfl, rfl, rfl, rfl, rfl⟩

theorem vsfLogDoLog_loose (succeeded : Bool) : Within Loose Halt.Orderly (vsfLogDoLog succeeded) :=
  fun _ => ⟨rfl, rfl, .inl rfl, rfl, rfl, rfl, rfl⟩

theorem strUnlink_ctl (path : Bytes) : Within SameCtl Halt.Orderly (strUnlink env path) := by
  refine within_modify fun w => ?_
  split <;> rfl

theorem orDie_ctl (ok : Bool) (what : String) : Within SameCtl Halt.Orderly (orDie ok what) :=
  within_ite (within_pure ()) (within_throw trivial)

theorem emit_ctl (e : Event) : Within SameCtl Halt.Orderly (emit e) := fun _ => rfl

theorem wp_cosUnlink_of_ok (hok : env.fileDelete = some 0) (path : Bytes) (w : World) (Q : ℤ → World → Prop)
    (E : Halt → World → Prop) :
    wp (cosUnlink T env path) Q E w ↔
      Q 0 { w with events := w.events ++ [.cos (.fileDelete (getCosPathFromDiskPath T w.cwd.path path))] } := by
  unfold cosUnlink emit
  simp only [wp_bind, wp_get, wp_modify, hok, if_true, wp_pure]

section

variable {R : World → World → Prop} [Std.Refl R] [IsTrans World R] {C : Halt → Prop}

/-- A deletion at COS does what its two events do. -/
theorem cosUnlink_within (hdelete : ∀ path, Within R C (emit (.cos (.fileDelete path))))
    (hlog : ∀ msg view, Within R C (emit (.log .delete true msg view))) (path : Bytes) :
    Within R C (cosUnlink T env path) := by
  unfold cosUnlink
  refine within_bind within_get fun w => within_bind (hdelete _) fun _ => ?_
  refine within_ite (within_pure _) (within_ite (within_pure _) ?_)
  exact within_bind (within_bind within_get fun _ => hlog _ _) fun _ => within_pure _

/-- And so does a try to upload. -/
theorem fileUpload_within
    (hupload : ∀ path content ok, Within R C (emit (.cos (.fileUpload path content ok))))
    (hlog : ∀ msg view, Within R C (emit (.log .upload true msg view))) (srcPath path : Bytes) (i : ℕ) :
    Within R C (fileUpload T env srcPath path i) := by
  unfold fileUpload
  refine within_bind within_get fun w => within_bind (hupload _ _ _) fun _ => ?_
  exact within_bind (within_when (within_bind within_get fun _ => hlog _ _)) fun _ => within_pure _

theorem cosUploadFile_within {srcPath path : Bytes} (htry : ∀ i, Within R C (fileUpload T env srcPath path i)) :
    Within R C (cosUploadFile T env srcPath path) := by
  unfold cosUploadFile
  exact within_bind (htry 0) fun ok => within_ite (within_pure _) (htry 1)

end

/-- What a try leaves in the trace. -/
def uploadEvents (T : Tunables) (env : Env) (srcPath path : Bytes) (i : ℕ) (w : World) : List Event :=
  .cos (.fileUpload (getCosPathFromDiskPath T w.cwd.path path) (w.disk.lookup (resolve srcPath).names)
      (env.fileUpload i)) ::
    if !env.fileUpload i then [.log .upload true (cstr (env.respmsg i)) w.sess.logView] else []

theorem wp_fileUpload (srcPath path : Bytes) (i : ℕ) (w : World) (Q : Bool → World → Prop)
    (E : Halt → World → Prop) :
    wp (fileUpload T env srcPath path i) Q E w ↔
      Q (env.fileUpload i) { w with events := w.events ++ uploadEvents T env srcPath path i w } := by
  unfold fileUpload uploadEvents vsfLogLine emit
  simp only [wp_bind, wp_get, wp_modify, wp_when, wp_pure]
  split
  · rw [List.append_assoc]
    rfl
  · rfl

theorem cosUnlink_ctl (path : Bytes) : Within SameCtl Halt.Orderly (cosUnlink T env path) :=
  cosUnlink_within (fun _ => emit_ctl _) (fun _ _ => emit_ctl _) path

theorem cosUploadFile_ctl (srcPath path : Bytes) :
    Within SameCtl Halt.Orderly (cosUploadFile T env srcPath path) :=
  cosUploadFile_within (fileUpload_within (fun _ _ _ => emit_ctl _) (fun _ _ => emit_ctl _) srcPath path)

theorem uploadToCos_loose (arg filename : Bytes) :
    Within Loose Halt.Orderly (uploadToCos T env arg filename) := by
  unfold uploadToCos
  refine within_bind portCleanup_loose fun _ => within_bind (loose_of_sameCtl (vsfLogDebug_ctl _)) fun _ => ?_
  refine within_bind (loose_of_sameCtl (cosUploadFile_ctl _ _)) fun ok => within_ite ?_ ?_
  · exact within_bind (loose_of_sameCtl (vsfCmdioWrite_ctl _ _)) fun _ => within_pure _
  · refine within_bind (vsfLogDoLog_loose true) fun _ => ?_
    refine within_bind (loose_of_sameCtl (vsfCmdioWriteStr_ctl _ _)) fun _ => ?_
    exact within_bind (loose_of_sameCtl (strUnlink_ctl _)) fun _ => within_pure _

theorem uploadResult_loose (arg filename : Bytes) (retval : ℤ) :
    Within Loose Halt.Orderly (uploadResult T env arg filename retval) := by
  unfold uploadResult
  refine within_ite ?_ (within_ite ?_ (within_ite ?_ (within_ite (uploadToCos_loose _ _) (within_pure _))))
  · exact within_bind (loose_of_sameCtl (vsfCmdioWrite_ctl _ _)) fun _ => within_pure _
  · refine within_bind within_get fun w => within_bind (within_when ?_) fun _ => within_pure _
    exact loose_of_sameCtl (vsfCmdioWrite_ctl _ _)
  · refine within_bind (loose_of_sameCtl (vsfCmdioWriteStr_ctl _ _)) fun _ => ?_
    exact within_bind (loose_of_sameCtl (strUnlink_ctl _)) fun _ => within_pure _

theorem uploadCleanup_loose (filename : Bytes) (success : Bool) :
    Within Loose Halt.Orderly (uploadCleanup T env filename true success) := by
  unfold uploadCleanup
  refine within_bind portCleanup_loose fun _ => within_bind (within_pure ()) fun _ => ?_
  refine within_bind (within_when (loose_of_sameCtl (strUnlink_ctl _))) fun _ => ?_
  exact loose_of_sameCtl (orDie_ctl _ _)

theorem uploadCleanup_handled (h : w.ctl.Idle T) (filename : Bytes) (success : Bool) :
    wp (uploadCleanup T env filename false success) (fun _ w' => Handled T w w')
      (fun e _ => e.Orderly) w := by
  have hend : Within Loose Halt.Orderly (do
      when (T.deleteFailedUploads ∧ !success) (strUnlink env filename)
      orDie env.close "close") :=
    within_bind (within_when (loose_of_sameCtl (strUnlink_ctl _))) fun _ =>
      loose_of_sameCtl (orDie_ctl _ _)
  unfold uploadCleanup
  refine wp_bind_bind (cleanup_handled env h) (fun _ w2 hw2 => ?_) (fun _ _ he => he)
  refine wp_mono (hend w2) ?_ (fun _ _ he => he.1)
  intro _ w3 hw3
  exact hw2.loose hw3

theorem uploadTransfer_handled (h : w.ctl.Idle T) (hactive : w.ctl.active T = true) (arg filename : Bytes)
    (file : OpenFile) (haveRecvLen : ℕ) :
    wp (uploadTransfer T env arg filename file haveRecvLen) (fun _ w' => Handled T w w')
      (fun e _ => e.Orderly) w := by
  unfold uploadTransfer
  rw [wp_bind]
  refine wp_mono (getRemoteTransferFd_spec h hactive _) ?_ (fun _ _ he => he)
  intro ok w1 hw1
  cases ok with
  | false =>
    have hw1' : SameCtl w w1 := by simpa using hw1
    have hidle : w1.ctl.Idle T := hw1'.loose.idle h
    simp only [Bool.not_false, if_true]
    refine wp_mono (uploadCleanup_handled hidle _ _) ?_ (fun _ _ he => he)
    intro _ w2 hw2
    have hctl : w1.ctl = w.ctl := hw1'
    exact ⟨hw2.idle, hctl ▸ hw2.cwd, hctl ▸ hw2.home, hctl ▸ hw2.port, hctl ▸ hw2.own⟩
  | true =>
    obtain ⟨fd, hfd⟩ : ∃ fd, w1.ctl = w.ctl.opened fd := by simpa using hw1
    simp only [Bool.not_true, Bool.false_eq_true, if_false]
    rw [wp_bind]
    refine wp_mono pasvCleanup_spec ?_ (fun _ _ he => he)
    intro _ w2 hw2
    rw [hfd] at hw2
    rw [wp_bind, wp_get, wp_bind]
    refine wp_mono (doFileRecv_spec file _ haveRecvLen w2) ?_ (fun _ _ he => he.1)
    intro ret w3 hw3
    obtain ⟨es, hflow, -⟩ := hw3.flow
    have hw3' : w3.ctl = (w.ctl.opened fd).setListenFd T none := Eq.trans hflow.sameCtl hw2
    have hopen : w3.ctl.dataFd ≠ none ∧ w3.ctl.ioHandler = true := by
      rw [hw3', Ctl.dataFd_setListenFd, Ctl.ioHandler_setListenFd]
      exact ⟨Option.some_ne_none fd, rfl⟩
    rw [wp_bind]
    refine wp_mono (vsfFtpdataioDisposeTransferFd_spec hopen.1 hopen.2) ?_ (fun _ _ he => he)
    intro disposed w4 hw4
    rw [hw3'] at hw4
    have hhandled : Handled T w w4 := by
      refine ⟨⟨?_, ?_, .inr ?_⟩, ?_, ?_, .inl ?_, ?_⟩ <;> rw [hw4]
      · rfl
      · rfl
      · show ((w.ctl.opened fd).setListenFd T none).listenFd T = none
        rw [Ctl.listenFd_setListenFd]
      · show ((w.ctl.opened fd).setListenFd T none).cwd = _
        rw [Ctl.cwd_setListenFd]
        rfl
      · show ((w.ctl.opened fd).setListenFd T none).homeStr = _
        rw [Ctl.homeStr_setListenFd]
        rfl
      · show ((w.ctl.opened fd).setListenFd T none).portSockaddr = _
        rw [Ctl.portSockaddr_setListenFd]
        rfl
      · unfold Ctl.setListenFd
        split
        · exact ⟨none, rfl⟩
        · exact ⟨w.ctl.own.pasvListenFd, rfl⟩
    have hrest : Within Loose Halt.Orderly (do
        modifySess fun s => { s with transferSize := ret.transferred }
        let success ← uploadResult T env arg filename
          (if !disposed ∧ ret.retval = 0 then -2 else ret.retval)
        checkAbor T env
        uploadCleanup T env filename true success) := by
      refine within_bind (loose_of_sameCtl ?_) fun _ => within_bind (uploadResult_loose _ _ _) fun _ => ?_
      · exact modifySess_ctl (fun _ => rfl) (fun _ => rfl) (fun _ => rfl) (fun _ => rfl) (fun _ => rfl)
      · exact within_bind (loose_of_sameCtl checkAbor_ctl) fun _ => uploadCleanup_loose _ _
    refine wp_mono (hrest w4) ?_ (fun _ _ he => he.1)
    intro _ w5 hw5
    exact hhandled.loose hw5

theorem lockUpload_ctl : Within SameCtl Halt.Orderly (lockUpload T env) := by
  unfold lockUpload lockFile
  refine within_ite ?_ (within_pure _)
  refine within_bind within_get fun w => within_bind ?_ fun _ => ?_
  · exact sameCtl_of_talk (interrupted_talk (P := fun _ => True) (fun _ _ => trivial) _)
  · exact within_bind checkPendingActions_ctl fun _ => within_pure _

theorem chownUpload_ctl : Within SameCtl Halt.Orderly (chownUpload T env) := by
  unfold chownUpload
  refine within_bind within_get fun w => within_when (within_bind (orDie_ctl _ _) fun _ => ?_)
  exact onBroker_ctl (vsfPrivopDoFileChown_sameSess _ _)

theorem truncateUpload_ctl (file : OpenFile) : Within SameCtl Halt.Orderly (truncateUpload env file) := by
  unfold truncateUpload
  refine within_bind (orDie_ctl _ _) fun _ => within_bind (within_modify fun _ => rfl) fun _ => ?_
  exact orDie_ctl _ _

/-- A part of a command that comes behind steps which change the log entry only. -/
theorem handled_after {α : Type} {x : M α} {w w1 : World} {log : Option LogEntryType}
    (hw1 : w1.ctl = { w.ctl with logType := log })
    (h : wp x (fun _ w' => Handled T w1 w') (fun e _ => e.Orderly) w1) :
    wp x (fun _ w' => Handled T w w') (fun e _ => e.Orderly) w1 := by
  refine wp_mono h ?_ (fun _ _ he => he)
  intro _ w2 hw2
  obtain ⟨hidle, hcwd, hhome, hport, hown⟩ := hw2
  rw [hw1] at hcwd hhome hport hown
  exact ⟨hidle, hcwd, hhome, hport, hown⟩

theorem uploadOpened_handled (h : w.ctl.Idle T) (hactive : w.ctl.active T = true) (arg filename : Bytes)
    (offset : ℕ) (file : OpenFile) (fileLen : ℕ) :
    wp (uploadOpened T env arg filename offset file fileLen) (fun _ w' => Handled T w w')
      (fun e _ => e.Orderly) w := by
  unfold uploadOpened
  rw [wp_bind]
  refine wp_mono (chownUpload_ctl w) ?_ (fun _ _ he => he.1)
  intro _ w1 hw1
  rw [wp_bind]
  refine wp_mono (lockUpload_ctl w1) ?_ (fun _ _ he => he.1)
  intro locked w2 hw2
  have hw2' : SameCtl w w2 := Eq.trans hw2 hw1
  -- each of the four ways on leaves the control state as it is before it comes to a part done above
  have hgo : ∀ {w3 : World} {x : M Unit}, SameCtl w2 w3 →
      (w3.ctl.Idle T → w3.ctl.active T = true →
        wp x (fun _ w' => Handled T w3 w') (fun e _ => e.Orderly) w3) →
      wp x (fun _ w' => Handled T w w') (fun e _ => e.Orderly) w3 := by
    intro w3 x hw3 hx
    have hctl : w3.ctl = w.ctl := Eq.trans hw3 hw2'
    exact handled_after hctl (hx (hctl ▸ h) (hctl ▸ hactive))
  rw [wp_ite]
  split
  · rw [wp_bind]
    refine wp_mono (vsfCmdioWrite_ctl _ _ w2) ?_ (fun _ _ he => he.1)
    intro _ w3 hw3
    exact hgo hw3 fun hi _ => uploadCleanup_handled hi _ _
  rw [wp_ite]
  split
  · rw [wp_bind]
    refine wp_mono (within_when (truncateUpload_ctl file) w2) ?_ (fun _ _ he => he.1)
    intro _ w3 hw3
    exact hgo hw3 fun hi ha => uploadTransfer_handled hi ha _ _ _ _
  rw [wp_ite]
  split
  · rw [wp_bind]
    refine wp_mono (vsfCmdioWrite_ctl _ _ w2) ?_ (fun _ _ he => he.1)
    intro _ w3 hw3
    rw [wp_bind]
    refine wp_mono (cosUnlink_ctl _ w3) ?_ (fun _ _ he => he.1)
    intro _ w4 hw4
    exact hgo (Eq.trans hw4 hw3) fun hi _ => uploadCleanup_handled hi _ _
  · rw [wp_bind]
    refine wp_mono (orDie_ctl _ _ w2) ?_ (fun _ _ he => he.1)
    intro _ w3 hw3
    exact hgo hw3 fun hi ha => uploadTransfer_handled hi ha _ _ _ _

theorem strCreate_ctl (exclusive : Bool) (path : Bytes) :
    Within SameCtl Halt.Orderly (strCreate env exclusive path) := by
  unfold strCreate
  refine within_bind within_get fun w => within_bind (emit_ctl _) fun _ => within_ite (within_pure _) ?_
  exact within_bind (within_modify fun _ => rfl) fun _ => within_pure _

theorem uploadChecked_handled (h : w.ctl.Idle T) (hactive : w.ctl.active T = true) (arg filename : Bytes)
    (offset : ℕ) :
    wp (uploadChecked T env arg filename offset) (fun _ w' => Handled T w w') (fun e _ => e.Orderly) w := by
  have hreply : ∀ (w1 : World) (code : ℕ) (msg : String), SameCtl w w1 →
      wp (vsfCmdioWrite T env code msg) (fun _ w' => Handled T w w') (fun e _ => e.Orderly) w1 := by
    intro w1 code msg hw1
    refine wp_mono (vsfCmdioWrite_ctl code msg w1) ?_ (fun _ _ he => he.1)
    intro _ w2 hw2
    exact SameCtl.loose (Eq.trans hw2 hw1) |>.handled h
  unfold uploadChecked checkFile
  simp only [wp_bind, wp_get, wp_pure, wp_ite]
  split
  · exact hreply w _ _ rfl
  · refine wp_mono (strCreate_ctl _ _ w) ?_ (fun _ _ he => he.1)
    rintro (_ | file) w1 hw1
    · exact hreply w1 _ _ hw1
    · have hctl : w1.ctl = w.ctl := hw1
      simp only [wp_bind, wp_get]
      exact handled_after hw1 (uploadOpened_handled (hctl ▸ h) (hctl ▸ hactive) _ _ _ _ _)

theorem vsfLogStartEntry_spec (hlog : w.ctl.logType = none) (what : LogEntryType) :
    wp (vsfLogStartEntry what) (fun _ w' => w'.ctl = { w.ctl with logType := some what })
      (fun _ _ => False) w := by
  have hlog' : w.sess.logType = none := hlog
  unfold vsfLogStartEntry
  simp only [wp_bind, wp_get, wp_ite, hlog', modifySess, wp_modify]
  simp only [ne_eq, not_true, if_false]
  rfl

/-- **STOR gives up the data connection on each of its ways out.** -/
theorem handleUploadCommon_handled (h : w.ctl.Idle T) (hlog : w.ctl.logType = none) (arg : Bytes) :
    wp (handleUploadCommon T env arg) (fun _ w' => Handled T w w') (fun e _ => e.Orderly) w := by
  unfold handleUploadCommon
  rw [wp_bind, wp_get, wp_bind, modifySess, wp_modify, wp_bind]
  refine wp_mono (dataTransferChecksOk_spec h.exclusive) ?_ (fun _ _ he => he)
  rintro ok w2 ⟨hw2, hok⟩
  have hctl2 : w2.ctl = w.ctl := hw2
  rw [wp_ite]
  split
  · exact (SameCtl.loose hctl2).handled h
  · rename_i hok'
    have hactive : w.ctl.active T = true := hok (by simpa using hok')
    simp only [resolveTildeArg, prependPath, wp_bind, wp_get, wp_pure]
    refine wp_mono (vsfLogStartEntry_spec (hctl2 ▸ hlog) _) ?_ (fun _ _ he => he.elim)
    intro _ w3 hw3
    rw [hctl2] at hw3
    rw [modifySess, wp_modify]
    refine handled_after hw3 (uploadChecked_handled ?_ ?_ _ _ _)
    · show w3.ctl.Idle T
      rw [hw3]
      exact ⟨h.dataFd, h.ioHandler, h.exclusive⟩
    · show w3.ctl.active T = true
      rw [hw3]
      exact hactive

end

end CosFtp
