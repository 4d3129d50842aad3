/-
# What a STOR does to the bucket

A STOR that does not come to its upload should leave the bucket as it is. It
does, with one exception: a restart position behind the end of the local file
is answered with a request to delete the object (`RestartPastEnd`), and that is
the only way (`stor_spares_bucket_iff`).

Key definitions: `SparesBucket`, `RestartPastEnd`.
Key theorem: `stor_spares_bucket_iff`.
-/
import CosFtp.Upload

namespace CosFtp

open Wp Inode

variable (T : Tunables) (env : Env)

/-- A call of `FileUpload`. -/
def Event.isUpload : Event → Bool
  | .cos (.fileUpload _ _ _) => true
  | _ => false

/-- A request that creates, replaces or deletes an object. -/
def Event.changesBucket : Event → Bool
  | .cos (.fileUpload _ _ _) => true
  | .cos (.fileDelete _) => true
  | .cos (.folderCreate _) => true
  | .cos (.folderDelete _) => true
  | _ => false

/-- However the STOR ends: if it did not upload, it made no other change either. -/
def SparesBucket (arg : Bytes) (w : World) : Prop :=
  let es := w.since (after (handleUploadCommon T env arg) w)
  (∀ e ∈ es, e.isUpload = false) → ∀ e ∈ es, e.changesBucket = false

/-- The length of a local file, 0 for one that is not there. -/
def localLen (w : World) (name : List Bytes) : ℕ := ((w.disk.lookup name).getD []).length

/-- The data connection that is waiting may be used. -/
structure DataReady (w : World) : Prop where
  exclusive : w.ctl.Exclusive T
  active : w.ctl.active T = true
  plain : dataNeedsEncryption T w.sess = false

/-- The local file a STOR goes to. -/
def storFilename (getpwnam : Bytes → Option Bytes) (arg : Bytes) (w : World) : Bytes :=
  prependSessionPathToFilename T w.cwd.path (resolveTilde T w.sess.homeStr getpwnam arg)

/-- A STOR that gets to open its local file, with a restart position behind the
end of it. -/
structure RestartPastEnd (getpwnam : Bytes → Option Bytes) (arg : Bytes) (w : World) : Prop where
  ready : DataReady T w
  log : w.sess.logType = none
  allowed : vsfAccessSessionCheckFile T w.cwd.path (storFilename T getpwnam arg w) = true
  fresh : createsExclusive T w.sess = true →
    w.disk.entry (resolve (storFilename T getpwnam arg w)).names = none
  restart : w.sess.restartPos ≠ 0
  pastEnd : localLen w (resolve (storFilename T getpwnam arg w)).names < w.sess.restartPos

/-! ### Steps that make no request -/

/-- An upload was tried, or only mild events were added. -/
def Spared (w w' : World) : Prop :=
  ∃ es, w'.events = w.events ++ es ∧ ((∃ e ∈ es, e.isUpload = true) ∨ ∀ e ∈ es, e.mild = true)

theorem Quiet.spared {w w' : World} (h : Quiet w w') : Spared w w' := by
  obtain ⟨es, hes, hmild⟩ := h
  exact ⟨es, hes, .inr hmild⟩

theorem Spared.trans {w w' w'' : World} (h : Spared w w') (h' : Spared w' w'') : Spared w w'' := by
  obtain ⟨es, hes, hcase⟩ := h
  obtain ⟨es', hes', hcase'⟩ := h'
  refine ⟨es ++ es', by rw [hes', hes, List.append_assoc], ?_⟩
  rcases hcase with ⟨e, he, hup⟩ | hmild
  · exact .inl ⟨e, List.mem_append_left _ he, hup⟩
  rcases hcase' with ⟨e, he, hup⟩ | hmild'
  · exact .inl ⟨e, List.mem_append_right _ he, hup⟩
  · right
    intro e he
    exact (List.mem_append.mp he).elim (hmild e) (hmild' e)

instance : Std.Refl Spared := ⟨fun _ => ⟨[], by simp⟩⟩

instance : IsTrans World Spared := ⟨fun _ _ _ => Spared.trans⟩

theorem Event.changesBucket_of_mild {e : Event} (h : e.mild = true) : e.changesBucket = false := by
  unfold Event.mild at h
  unfold Event.changesBucket
  split at h <;> simp_all

section

variable {T} {env} {w : World}

theorem Spared.sparesBucket {arg : Bytes} (h : Spared w (after (handleUploadCommon T env arg) w)) :
    SparesBucket T env arg w := by
  obtain ⟨es, hes, hcase⟩ := h
  have hsince : w.since (after (handleUploadCommon T env arg) w) = es := by
    unfold World.since
    rw [hes, List.drop_left]
  unfold SparesBucket
  rw [hsince]
  intro _ hno e he
  rcases hcase with ⟨e', he', hup⟩ | hmild
  · rw [hno e' he'] at hup
    cases hup
  · exact Event.changesBucket_of_mild (hmild e he)

theorem Flow.quiet {w' : World} {es : List Event} (h : Flow w w' es) : Quiet w w' :=
  ⟨es, h.events, fun e he => (h.kind e he).mild⟩

theorem orDie_quiet (ok : Bool) (what : String) : Within Quiet Halt.Any (orDie ok what) :=
  within_ite (within_pure ()) (within_throw trivial)

theorem strUnlink_quiet (path : Bytes) : Within Quiet Halt.Any (strUnlink env path) := by
  refine quiet_modify fun w => ?_
  split <;> rfl

theorem uploadCleanup_quiet (filename : Bytes) (pasvCleaned success : Bool) :
    Within Quiet Halt.Any (uploadCleanup T env filename pasvCleaned success) := by
  unfold uploadCleanup
  refine within_bind (quiet_of_traced portCleanup_traced) fun _ => ?_
  refine within_bind (within_when (quiet_of_traced pasvCleanup_traced)) fun _ => ?_
  exact within_bind (within_when (strUnlink_quiet _)) fun _ => orDie_quiet _ _

theorem chownUpload_traced : Within Traced Halt.Any (chownUpload T env) := by
  have hdie : Within Traced Halt.Any (orDie env.fchmod "fchmod") :=
    within_ite (within_pure ()) (within_throw trivial)
  unfold chownUpload
  refine within_bind within_get fun w => within_when (within_bind hdie fun _ => ?_)
  exact onBroker_traced _ _ _

theorem lockUpload_traced : Within Traced Halt.Any (lockUpload T env) := by
  unfold lockUpload lockFile
  refine within_ite ?_ (within_pure _)
  refine within_bind within_get fun w => within_bind ?_ fun _ => ?_
  · exact traced_of_talk (interrupted_talk (fun _ => SignalReply.plain) _)
  · exact within_bind checkPendingActions_traced fun _ => within_pure _

theorem truncateUpload_quiet (file : OpenFile) : Within Quiet Halt.Any (truncateUpload env file) := by
  unfold truncateUpload
  refine within_bind (orDie_quiet _ _) fun _ => within_bind (quiet_modify fun _ => rfl) fun _ => ?_
  exact orDie_quiet _ _

theorem doFileRecv_quiet (file : OpenFile) (isAscii : Bool) (haveRecvLen : ℕ) :
    Within Quiet Halt.Any (doFileRecv T env file isAscii haveRecvLen) := by
  intro w
  refine wp_mono (doFileRecv_spec file isAscii haveRecvLen w) ?_ ?_
  · intro _ w' hw'
    obtain ⟨es, hflow, -⟩ := hw'.flow
    exact hflow.quiet
  · rintro _ w' ⟨-, es, hflow⟩
    exact ⟨trivial, hflow.quiet⟩

theorem spared_of_quiet {α : Type} {x : M α} (h : Within Quiet Halt.Any x) :
    Within Spared Halt.Any x := h.mono fun _ _ => Quiet.spared

/-! ### A STOR that does not restart past the end -/

/-- The first try is made in any case. -/
theorem cosUploadFile_uploads (srcPath path : Bytes) (w : World) :
    wp (cosUploadFile T env srcPath path)
      (fun _ w' => ∃ es, w'.events = w.events ++ es ∧ ∃ e ∈ es, e.isUpload = true) (fun _ _ => False)
      w := by
  unfold cosUploadFile
  simp only [wp_bind, wp_fileUpload, wp_pure, wp_ite]
  split
  · exact ⟨_, rfl, _, List.mem_cons_self, rfl⟩
  · exact ⟨_, List.append_assoc _ _ _, _, List.mem_cons_self, rfl⟩

theorem uploadToCos_spared (arg filename : Bytes) :
    Within Spared Halt.Any (uploadToCos T env arg filename) := by
  -- whatever comes behind the upload only adds to the trace
  have hmore : ∀ {w w' w'' : World}, (∃ es, w'.events = w.events ++ es ∧ ∃ e ∈ es, e.isUpload = true) →
      Extends w' w'' → Spared w w'' := by
    rintro w w' w'' ⟨es, hes, e, he, hup⟩ ⟨es', hes'⟩
    exact ⟨es ++ es', by rw [← hes', hes, List.append_assoc], .inl ⟨e, List.mem_append_left _ he, hup⟩⟩
  have hrest : ∀ ok : Bool, Within Extends Halt.Any (if !ok then do
        vsfCmdioWrite T env ftpBadsendfile "Failure transfer file to cos."
        pure false
      else do
        vsfLogDoLog true
        vsfCmdioWriteStr T env ftpTransferok (text "Transfer complete.")
        strUnlink env filename
        pure true) := by
    intro ok
    refine within_ite ?_ ?_
    · exact within_bind (vsfCmdioWriteStr_extends _ _) fun _ => within_pure _
    · refine within_bind (fun w => List.prefix_append _ _) fun _ => ?_
      refine within_bind (vsfCmdioWriteStr_extends _ _) fun _ => within_bind ?_ fun _ => within_pure _
      refine within_modify fun w => ?_
      split <;> exact List.prefix_refl _
  unfold uploadToCos
  refine within_bind (spared_of_quiet (quiet_of_traced portCleanup_traced)) fun _ => ?_
  refine within_bind (spared_of_quiet (quiet_of_traced (vsfLogDebug_traced _))) fun _ => ?_
  intro w
  rw [wp_bind]
  refine wp_mono (cosUploadFile_uploads filename arg w) ?_ (fun _ _ he => he.elim)
  intro ok w1 hw1
  refine wp_mono (hrest ok w1) ?_ ?_
  · intro _ w2 hw2
    exact hmore hw1 hw2
  · intro _ w2 hw2
    exact ⟨trivial, hmore hw1 hw2.2⟩

/-- A transfer that failed is not uploaded. -/
theorem uploadResult_quiet (arg filename : Bytes) {retval : ℤ} (h : retval ≠ 0) :
    Within Quiet Halt.Any (uploadResult T env arg filename retval) := by
  have hlarge : (Event.reply ftpBadsendfile (text "The max allow file size is: " ++
      ulongText (T.maxUploadFileSize / 1024) ++ text " MB")).plain = true := by
    have hcode : ftpBadsendfile ≠ ftpTransferok := by decide
    simp [Event.plain, Event.mild, transferComplete, directorySendOk, hcode]
  unfold uploadResult
  rw [if_neg h]
  refine within_ite ?_ (within_ite ?_ (within_ite ?_ (within_pure _)))
  · exact within_bind (vsfCmdioWrite_quiet (by decide)) fun _ => within_pure _
  · refine within_bind within_get fun w => within_bind (within_when ?_) fun _ => within_pure _
    exact vsfCmdioWrite_quiet (by decide)
  · refine within_bind (quiet_of_traced (vsfCmdioWriteStr_traced hlarge)) fun _ => ?_
    exact within_bind (strUnlink_quiet _) fun _ => within_pure _

theorem uploadResult_zero (arg filename : Bytes) :
    uploadResult T env arg filename 0 = uploadToCos T env arg filename := by
  unfold uploadResult
  rw [if_neg (by decide), if_neg (by decide), if_neg (by decide), if_pos rfl]

theorem uploadResult_spared (arg filename : Bytes) (retval : ℤ) :
    Within Spared Halt.Any (uploadResult T env arg filename retval) := by
  by_cases h : retval = 0
  · rw [h, uploadResult_zero]
    exact uploadToCos_spared arg filename
  · exact spared_of_quiet (uploadResult_quiet arg filename h)

theorem getRemoteTransferFd_quiet (msg : Bytes) :
    Within Quiet Halt.Any (getRemoteTransferFd T env msg) := by
  refine quiet_of_prep fun w => wp_mono (getRemoteTransferFd_started msg w) ?_ ?_
  · intro _ w' hw'
    exact hw'.1
  · intro _ w' hw'
    exact ⟨trivial, hw'⟩

theorem uploadTransfer_spared (arg filename : Bytes) (file : OpenFile) (haveRecvLen : ℕ) :
    Within Spared Halt.Any (uploadTransfer T env arg filename file haveRecvLen) := by
  unfold uploadTransfer
  refine within_bind (spared_of_quiet (getRemoteTransferFd_quiet _)) fun ok => within_ite ?_ ?_
  · exact spared_of_quiet (uploadCleanup_quiet _ _ _)
  refine within_bind (spared_of_quiet (quiet_of_traced pasvCleanup_traced)) fun _ => ?_
  refine within_bind within_get fun w => within_bind (spared_of_quiet (doFileRecv_quiet _ _ _)) fun ret => ?_
  refine within_bind (spared_of_quiet (quiet_of_traced vsfFtpdataioDisposeTransferFd_traced)) fun _ => ?_
  refine within_bind (spared_of_quiet (quiet_modify fun _ => rfl)) fun _ => ?_
  refine within_bind (uploadResult_spared _ _ _) fun _ => ?_
  refine within_bind (spared_of_quiet (quiet_of_prep checkAbor_prep)) fun _ => ?_
  exact spared_of_quiet (uploadCleanup_quiet _ _ _)

theorem uploadOpened_spared (arg filename : Bytes) {offset : ℕ} (file : OpenFile) {fileLen : ℕ}
    (h : offset = 0 ∨ offset ≤ fileLen) :
    Within Spared Halt.Any (uploadOpened T env arg filename offset file fileLen) := by
  unfold uploadOpened
  refine within_bind (spared_of_quiet (quiet_of_traced chownUpload_traced)) fun _ => ?_
  refine within_bind (spared_of_quiet (quiet_of_traced lockUpload_traced)) fun locked => within_ite ?_ ?_
  · refine spared_of_quiet (within_bind (vsfCmdioWrite_quiet (by decide)) fun _ => ?_)
    exact uploadCleanup_quiet _ _ _
  by_cases h0 : offset = 0
  · rw [if_pos h0]
    refine within_bind (spared_of_quiet (within_when (truncateUpload_quiet file))) fun _ => ?_
    exact uploadTransfer_spared _ _ _ _
  · have hlen : ¬ fileLen < offset := by
      rcases h with h | h
      · exact absurd h h0
      · omega
    rw [if_neg h0, if_neg hlen]
    exact within_bind (spared_of_quiet (orDie_quiet _ _)) fun _ => uploadTransfer_spared _ _ _ _

/-! ### Up to the open file -/

/-- The checks before a transfer pass exactly for a data connection that may be used. -/
theorem dataTransferChecksOk_ready (w : World) :
    wp (dataTransferChecksOk T env) (fun ok w' => Traced w w' ∧ (ok = true → OnlyCalls w w' ∧ DataReady T w))
      (fun _ w' => Traced w w') w := by
  have hready : wp (dataTransferChecksOk T env) (fun ok w' => ok = true → OnlyCalls w w' ∧ DataReady T w)
      (fun _ _ => True) w := by
    unfold dataTransferChecksOk
    rw [wp_bind]
    by_cases hex : w.ctl.Exclusive T
    · refine wp_mono (portOrPasvActive_spec hex) ?_ (fun _ _ _ => trivial)
      rintro active w1 ⟨rfl, hw1⟩
      cases hactive : w.ctl.active T with
      | false =>
        simp only [Bool.not_false, if_true, wp_bind, wp_pure]
        exact wp_mono (vsfCmdioWrite_ctl _ _ w1) (by simp) (by simp)
      | true =>
        simp only [Bool.not_true, Bool.false_eq_true, if_false, wp_bind, wp_get, wp_ite, wp_pure]
        split
        · exact wp_mono (vsfCmdioWrite_ctl _ _ w1) (by simp) (by simp)
        · rename_i henc
          rw [hw1.sess] at henc
          exact fun _ => ⟨hw1, hex, hactive, by simpa using henc⟩
    · unfold portOrPasvActive
      rw [wp_bind]
      exact wp_mono (active_not_exclusive _ hex).2 (fun _ _ hf => hf.elim) (fun _ _ _ => trivial)
  refine wp_mono (wp_and (dataTransferChecksOk_traced w) hready) (fun _ _ h => h) ?_
  rintro _ w' ⟨⟨-, h⟩, -⟩
  exact h

variable (env) in
theorem dataTransferChecksOk_of_ready (h : DataReady T w) :
    ∃ w', OnlyCalls w w' ∧ dataTransferChecksOk T env w = .ok true w' := by
  have hpass : wp (dataTransferChecksOk T env) (fun ok w' => ok = true ∧ OnlyCalls w w') (fun _ _ => False) w := by
    unfold dataTransferChecksOk
    rw [wp_bind]
    refine wp_mono (portOrPasvActive_spec h.exclusive) ?_ (fun _ _ hf => hf)
    rintro active w1 ⟨rfl, hw1⟩
    have hplain : dataNeedsEncryption T w1.sess = false := by
      rw [hw1.sess]
      exact h.plain
    rw [h.active, if_neg (by decide), wp_bind, wp_get, hplain, if_neg Bool.false_ne_true]
    exact ⟨rfl, hw1⟩
  obtain ⟨ok, w', hrun, rfl, hw'⟩ := exists_run hpass
  exact ⟨w', hw', hrun⟩

/-- A file that was opened holds what was under its name. -/
theorem data_create {d : Disk (List Bytes) UInt8} (name : List Bytes) :
    (d.create name).2.data (d.create name).1 = (d.lookup name).getD [] := by
  unfold Disk.create Disk.lookup
  cases h : d.entry name with
  | some i => rfl
  | none => simp [Disk.fresh]

/-- The world with the file opened. -/
def World.opened (w : World) (path : Bytes) : World :=
  { w with disk := (w.disk.create (resolve path).names).2, events := w.events ++ [.create path] }

theorem strCreate_spec (exclusive : Bool) (path : Bytes) (w : World) :
    wp (strCreate env exclusive path)
      (fun r w' => Quiet w w' ∧ ∀ file, r = some file →
        (exclusive = true → w.disk.entry (resolve path).names = none) ∧ w' = w.opened path ∧
        file = { inode := (w.disk.create (resolve path).names).1, append := exclusive })
      (fun _ _ => False) w := by
  have hquiet : Quiet w { w with events := w.events ++ [.create path] } := ⟨[_], rfl, by simp; rfl⟩
  unfold strCreate emit
  simp only [wp_bind, wp_get, wp_modify, wp_ite, wp_pure]
  split
  · exact ⟨hquiet, by simp⟩
  · rename_i hok
    refine ⟨hquiet, ?_⟩
    intro file hfile
    obtain rfl := Option.some.inj hfile
    refine ⟨?_, rfl, rfl⟩
    intro hex
    by_contra hne
    exact hok (.inr ⟨hex, hne⟩)

theorem uploadChecked_spared (arg filename : Bytes) (offset : ℕ) (w : World)
    (h : vsfAccessSessionCheckFile T w.cwd.path filename = true →
      (createsExclusive T w.sess = true → w.disk.entry (resolve filename).names = none) →
      offset = 0 ∨ offset ≤ localLen w (resolve filename).names) :
    wp (uploadChecked T env arg filename offset) (fun _ w' => Spared w w') (fun _ w' => Spared w w') w := by
  have hreply : ∀ {w1 : World} {code : ℕ} {msg : String}, (Event.reply code (text msg)).plain = true →
      Quiet w w1 → wp (vsfCmdioWrite T env code msg) (fun _ w' => Spared w w')
        (fun _ w' => Spared w w') w1 := by
    intro w1 code msg hmsg hw1
    refine wp_mono (vsfCmdioWrite_quiet hmsg w1) ?_ ?_
    · intro _ w2 hw2
      exact (hw1.trans hw2).spared
    · intro _ w2 hw2
      exact (hw1.trans hw2.2).spared
  unfold uploadChecked checkFile
  simp only [wp_bind, wp_get, wp_pure, wp_ite]
  split
  · exact hreply (by decide) (Std.Refl.refl w)
  · rename_i hallowed
    refine wp_mono (strCreate_spec _ filename w) ?_ (fun _ _ he => he.elim)
    rintro (_ | file) w1 ⟨hquiet, hfile⟩
    · exact hreply (by decide) hquiet
    · obtain ⟨hfresh, hw1, hf⟩ := hfile file rfl
      have hlen : (w1.disk.data file.inode).length = localLen w (resolve filename).names := by
        rw [hw1, hf]
        show ((w.disk.create _).2.data (w.disk.create _).1).length = _
        rw [data_create]
        rfl
      have hoffset := h (by simpa using hallowed) hfresh
      rw [← hlen] at hoffset
      simp only [wp_bind, wp_get]
      refine wp_mono (uploadOpened_spared arg filename file hoffset w1) ?_ ?_
      · intro _ w2 hw2
        exact hquiet.spared.trans hw2
      · intro _ w2 hw2
        exact hquiet.spared.trans hw2.2

/-- The world in which the checked part of a STOR starts. -/
def World.logging (w : World) (filename : Bytes) : World :=
  { w with sess := { w.sess with
      restartPos := 0, logType := some .upload, transferSize := 0, logStr := filename } }

variable (env) in
/-- A STOR whose data connection may be used comes to its access check. -/
theorem wp_handleUploadCommon_of_ready (h : DataReady T w) (hlog : w.sess.logType = none) (arg : Bytes) :
    ∃ w1, OnlyCalls w w1 ∧ ∀ (Q : Unit → World → Prop) (E : Halt → World → Prop),
      wp (handleUploadCommon T env arg) Q E w ↔
        wp (uploadChecked T env (resolveTilde T w.sess.homeStr env.getpwnam arg)
          (storFilename T env.getpwnam arg w) w.sess.restartPos) Q E
          (w1.logging (storFilename T env.getpwnam arg w)) := by
  have hready : DataReady T { w with sess := { w.sess with restartPos := 0 } } :=
    ⟨h.exclusive, h.active, h.plain⟩
  obtain ⟨_, ⟨calls, rfl⟩, hchecks⟩ := dataTransferChecksOk_of_ready env hready
  refine ⟨{ w with calls := w.calls ++ calls }, ⟨calls, rfl⟩, fun Q E => ?_⟩
  unfold handleUploadCommon vsfLogStartEntry
  rw [wp_bind, wp_get, wp_bind, modifySess, wp_modify, wp_bind, wp_of_ok hchecks]
  simp only [Bool.not_true, Bool.false_eq_true, if_false, resolveTildeArg, prependPath, wp_bind, wp_get,
    wp_pure, wp_ite]
  rw [if_neg (not_not.mpr hlog)]
  rfl

/-- Else it ends at the checks, or at a log entry that is still open. -/
theorem handleUploadCommon_traced {arg : Bytes} (h : ¬ (DataReady T w ∧ w.sess.logType = none)) :
    wp (handleUploadCommon T env arg) (fun _ w' => Traced w w') (fun _ w' => Traced w w') w := by
  have hzero : Within Traced Halt.Any (modifySess fun s => { s with restartPos := 0 }) :=
    modifySess_traced (fun _ => rfl) (fun _ => rfl) (fun _ => rfl) (fun _ => rfl)
  have hrestart : Traced w { w with sess := { w.sess with restartPos := 0 } } := hzero w
  unfold handleUploadCommon
  rw [wp_bind, wp_get, wp_bind, modifySess, wp_modify, wp_bind]
  refine wp_mono (dataTransferChecksOk_ready _) ?_ (fun _ _ he => hrestart.trans he)
  rintro ok w1 ⟨htraced, hok⟩
  rw [wp_ite]
  split
  · exact hrestart.trans htraced
  · rename_i hok'
    obtain ⟨⟨calls, rfl⟩, hr⟩ := hok (by simpa using hok')
    have hlog : w.sess.logType ≠ none := fun hl => h ⟨⟨hr.exclusive, hr.active, hr.plain⟩, hl⟩
    unfold vsfLogStartEntry
    simp only [resolveTildeArg, prependPath, wp_bind, wp_get, wp_pure, wp_ite, wp_throw]
    rw [if_pos hlog]
    exact hrestart.trans htraced

theorem handleUploadCommon_spared {arg : Bytes} (h : ¬ RestartPastEnd T env.getpwnam arg w) :
    wp (handleUploadCommon T env arg) (fun _ w' => Spared w w') (fun _ w' => Spared w w') w := by
  by_cases hready : DataReady T w ∧ w.sess.logType = none
  · obtain ⟨_, ⟨calls, rfl⟩, hwp⟩ := wp_handleUploadCommon_of_ready env hready.1 hready.2 arg
    rw [hwp]
    refine wp_mono (uploadChecked_spared _ _ _ (World.logging _ _) ?_) (fun _ _ hs => hs) (fun _ _ hs => hs)
    intro hallowed hfresh
    by_contra hno
    push Not at hno
    exact h ⟨hready.1, hready.2, hallowed, hfresh, hno.1, hno.2⟩
  · refine wp_mono (handleUploadCommon_traced hready) ?_ ?_
    · exact fun _ _ ht => ht.quiet.spared
    · exact fun _ _ ht => ht.quiet.spared

/-! ### A STOR that does -/

/-- The object was asked to be deleted, and nothing was uploaded. -/
def Deleted (w w' : World) : Prop :=
  ∃ es path, w'.events = w.events ++ es ∧ .cos (.fileDelete path) ∈ es ∧ ∀ e ∈ es, e.isUpload = false

theorem Event.isUpload_of_mild {e : Event} (h : e.mild = true) : e.isUpload = false := by
  unfold Event.mild at h
  unfold Event.isUpload
  split at h <;> simp_all

/-- A request to delete, with quiet steps before and behind it. -/
theorem deleted_of_quiet {w1 w2 : World} {path : Bytes} (h : Quiet w w1)
    (h' : Quiet { w1 with events := w1.events ++ [.cos (.fileDelete path)] } w2) : Deleted w w2 := by
  obtain ⟨es, hes, hmild⟩ := h
  obtain ⟨es', hes', hmild'⟩ := h'
  refine ⟨es ++ .cos (.fileDelete path) :: es', path, ?_, by simp, ?_⟩
  · rw [hes']
    simp [hes]
  · intro e he
    rcases List.mem_append.mp he with he | he
    · exact Event.isUpload_of_mild (hmild e he)
    rcases List.mem_cons.mp he with rfl | he
    · rfl
    · exact Event.isUpload_of_mild (hmild' e he)

theorem Deleted.not_sparesBucket {arg : Bytes} (h : Deleted w (after (handleUploadCommon T env arg) w)) :
    ¬ SparesBucket T env arg w := by
  obtain ⟨es, path, hes, hmem, hno⟩ := h
  have hsince : w.since (after (handleUploadCommon T env arg) w) = es := by
    unfold World.since
    rw [hes, List.drop_left]
  unfold SparesBucket
  rw [hsince]
  intro hspares
  have hfalse : (Event.cos (.fileDelete path)).changesBucket = false := hspares hno _ hmem
  cases hfalse

/-- Surroundings in which each call goes well. -/
def fairEnv (T : Tunables) (getpwnam : Bytes → Option Bytes) (w : World) : Env where
  getpwnam := getpwnam
  chown := { fstat := some ⟨true, (w.broker T).sess.anonUploadChownUid, 0⟩ }

theorem calm_fairEnv (getpwnam : Bytes → Option Bytes) : (fairEnv T getpwnam w).Calm :=
  ⟨fun _ => rfl, fun _ => rfl, fun _ => rfl⟩

theorem chownUpload_fairEnv (getpwnam : Bytes → Option Bytes) {w1 : World} (hbroker : w1.broker T = w.broker T) :
    ∃ w2, OnlyCalls w1 w2 ∧ chownUpload T (fairEnv T getpwnam w) w1 = .ok () w2 := by
  have hchown : wp (chownUpload T (fairEnv T getpwnam w)) (fun _ w2 => OnlyCalls w1 w2) (fun _ _ => False) w1 := by
    unfold chownUpload orDie vsfPrivopDoFileChown fairEnv
    simp only [wp_bind, wp_get, wp_when, wp_onBroker, wp_pure, wp_ite, if_true, hbroker]
    rw [← hbroker]
    split
    · exact onlyCalls_setBroker _ _
    · exact Std.Refl.refl w1
  obtain ⟨_, w2, hrun, hw2⟩ := exists_run hchown
  exact ⟨w2, hw2, hrun⟩

theorem wp_lockUpload_calm (h : env.Calm) (hlock : env.lock = true) (Q : Bool → World → Prop)
    (E : Halt → World → Prop) :
    wp (lockUpload T env) Q E w ↔ Q true (if T.lockUploadFiles then w.ticked else w) := by
  unfold lockUpload lockFile
  rw [wp_ite]
  split
  · simp only [wp_bind, wp_get, wp_interrupted_calm h, wp_checkPendingActions_calm h, wp_pure, hlock]
  · rfl

/-- A file that may be opened is. -/
theorem wp_strCreate_of_fresh {exclusive : Bool} {path : Bytes} (hcreate : env.create = true)
    (hfresh : exclusive = true → w.disk.entry (resolve path).names = none)
    (Q : Option OpenFile → World → Prop) (E : Halt → World → Prop) :
    wp (strCreate env exclusive path) Q E w ↔
      Q (some { inode := (w.disk.create (resolve path).names).1, append := exclusive }) (w.opened path) := by
  have hopen : ¬ ((!env.create) = true ∨
      exclusive = true ∧ w.disk.entry (resolve path).names ≠ none) := by
    rintro (hf | ⟨hex, hne⟩)
    · rw [hcreate] at hf
      cases hf
    · exact hne (hfresh hex)
  unfold strCreate emit
  simp only [wp_bind, wp_get, wp_modify, wp_ite, wp_pure]
  rw [if_neg hopen]
  rfl

theorem restartPastEnd_deletes {getpwnam : Bytes → Option Bytes} {arg : Bytes}
    (h : RestartPastEnd T getpwnam arg w) :
    wp (handleUploadCommon T (fairEnv T getpwnam w) arg) (fun _ w' => Deleted w w')
      (fun _ w' => Deleted w w') w := by
  have hcalm := calm_fairEnv (T := T) (w := w) getpwnam
  have hget : (fairEnv T getpwnam w).getpwnam = getpwnam := rfl
  obtain ⟨_, ⟨calls, rfl⟩, hwp⟩ := wp_handleUploadCommon_of_ready (fairEnv T getpwnam w) h.ready h.log arg
  rw [hwp, hget]
  set filename := storFilename T getpwnam arg w with hfilename
  set w1 : World := { w with calls := w.calls ++ calls } with hw1
  have hlen : (((w1.logging filename).opened filename).disk.data
      ((w1.logging filename).disk.create (resolve filename).names).1).length < w.sess.restartPos := by
    show ((w.disk.create _).2.data (w.disk.create _).1).length < _
    rw [data_create]
    exact h.pastEnd
  have hallowed : vsfAccessSessionCheckFile T (w1.logging filename).cwd.path filename = true := h.allowed
  have hfresh : createsExclusive T (w1.logging filename).sess = true →
      (w1.logging filename).disk.entry (resolve filename).names = none := h.fresh
  unfold uploadChecked checkFile
  simp only [wp_bind, wp_get, wp_pure, hallowed, Bool.not_true, Bool.false_eq_true, if_false]
  rw [wp_strCreate_of_fresh rfl hfresh]
  -- the file is open, and turns out too short
  have hquiet : Quiet w ((w1.logging filename).opened filename) := ⟨[.create filename], rfl, by simp; rfl⟩
  have hbroker : ((w1.logging filename).opened filename).broker T = w.broker T := rfl
  obtain ⟨_, ⟨calls', rfl⟩, hchown⟩ := chownUpload_fairEnv getpwnam hbroker
  set wopen : World := { (w1.logging filename).opened filename with
    calls := ((w1.logging filename).opened filename).calls ++ calls' } with hwopen
  simp only [wp_bind, wp_get]
  unfold uploadOpened
  rw [wp_bind, wp_of_ok hchown, wp_bind, wp_lockUpload_calm hcalm rfl]
  simp only [Bool.not_true, Bool.false_eq_true, if_false]
  rw [if_neg h.restart, if_pos hlen, wp_bind]
  unfold vsfCmdioWrite
  rw [wp_vsfCmdioWriteStr_calm hcalm]
  rw [wp_bind, wp_cosUnlink_of_ok (show (fairEnv T getpwnam w).fileDelete = some 0 from rfl)]
  set wlock := if T.lockUploadFiles = true then wopen.ticked else wopen with hwlock
  have hsame : wlock.events = ((w1.logging filename).opened filename).events := by
    rw [hwlock]
    split <;> rfl
  have hreplied : Quiet w (wlock.replied T ftpBadsendfile (text "Offset is out of bounds. Try again")) := by
    obtain ⟨es, hes, hplain⟩ := replied_events T wlock ftpBadsendfile (text "Offset is out of bounds. Try again")
    refine (hquiet.trans (quiet_same hsame)).trans ⟨es ++ [_], by rw [hes, List.append_assoc], ?_⟩
    intro e he
    rcases List.mem_append.mp he with he | he
    · exact Event.mild_of_plain (hplain e he)
    · rw [List.mem_singleton.mp he]
      decide
  refine wp_mono (uploadCleanup_quiet filename false false _) ?_ ?_
  · exact fun _ _ hq => deleted_of_quiet hreplied hq
  · exact fun _ _ hq => deleted_of_quiet hreplied hq.2

theorem RestartPastEnd.not_sparesBucket {getpwnam : Bytes → Option Bytes} {arg : Bytes}
    (h : RestartPastEnd T getpwnam arg w) : ¬ SparesBucket T (fairEnv T getpwnam w) arg w :=
  Deleted.not_sparesBucket (wp_after (restartPastEnd_deletes h))

end

/-- **A STOR that does not upload leaves the bucket alone**, whatever the calls
it makes return, exactly if its restart position is not behind the end of a
local file it gets to open. -/
theorem stor_spares_bucket_iff (T : Tunables) (getpwnam : Bytes → Option Bytes) (arg : Bytes) (w : World) :
    (∀ env : Env, env.getpwnam = getpwnam → SparesBucket T env arg w) ↔
      ¬ RestartPastEnd T getpwnam arg w := by
  constructor
  · intro hspares hpast
    exact hpast.not_sparesBucket (hspares _ rfl)
  · rintro hno env rfl
    exact (wp_after (handleUploadCommon_spared hno)).sparesBucket

/-- A session in the root /h/a/b that listens for a data connection. -/
def habWorld : World where
  sess := {}
  own := { sess := { localAddr := host10 9 21, remoteAddr := host10 1 40000 } }
  parent := { sess := { localAddr := host10 9 21, remoteAddr := host10 1 40000, pasvListenFd := some 5 } }
  cwd := habRoot
  disk := .empty

/-- REST 5 and then STOR x, with no local file x: the object x is deleted. -/
theorem restart_past_end_deletes_object :
    ¬ ∀ env : Env, env.getpwnam = (fun _ => none) → SparesBucket habServer env (text "x")
      { habWorld with sess := { restartPos := 5 } } := by
  have hpast : RestartPastEnd habServer (fun _ => none) (text "x")
      { habWorld with sess := { restartPos := 5 } } := by
    refine ⟨⟨.inl rfl, rfl, rfl⟩, rfl, ?_, ?_, by decide, ?_⟩
    · decide
    · intro _
      rfl
    · decide
  intro h
  exact hpast.not_sparesBucket (h _ rfl)

end CosFtp
