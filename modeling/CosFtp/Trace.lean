/-
# What a transfer leaves behind

A transfer is made of many small steps, and most of them change nothing that
matters to what was transferred: they answer the client, open or close the
data connection, or take a signal. `Prep` and `Traced` say what such a step
keeps, however it ends. A `Traced` step also keeps the flags of an abort and a
timeout once they are up, so that a flag that is down at the end of a
transfer was never up in it.

Key definitions: `Event.plain`, `Prep`, `Traced`.
Key theorems: `getRemoteTransferFd_started`, `vsfFtpdataioDisposeTransferFd_flags`.
-/
import CosFtp.DataIO

namespace CosFtp

open Wp

/-- The reply that tells the client its file has arrived. -/
def transferComplete : Event := .reply ftpTransferok (text "Transfer complete.")

/-- The reply that tells the client its listing has arrived. -/
def directorySendOk : Event := .reply ftpTransferok (text "Directory send OK.")

/-- Neither a change of the bucket nor the word that a file or a listing has arrived. -/
def Event.mild : Event → Bool
  | .cos (.fileUpload _ _ _) => false
  | .cos (.fileDelete _) => false
  | .cos (.folderCreate _) => false
  | .cos (.folderDelete _) => false
  | e => e ≠ transferComplete ∧ e ≠ directorySendOk

/-- Nor a step of a transfer. -/
def Event.plain : Event → Bool
  | .dataRead _ => false
  | .dataWrite _ => false
  | .cos (.fileDownload _ _ _ _) => false
  | e => e.mild

theorem Event.mild_of_plain {e : Event} (h : e.plain = true) : e.mild = true := by
  unfold Event.plain at h
  split at h
  · cases h
  · cases h
  · cases h
  · exact h

/-- The local files, the working directory and the settings are as before, and
only plain events were added. -/
structure Prep (w w' : World) : Prop where
  disk : w'.disk = w.disk
  cwd : w'.cwd = w.cwd
  ascii : w'.sess.isAscii = w.sess.isAscii
  anonymous : w'.sess.isAnonymous = w.sess.isAnonymous
  events : ∃ es, w'.events = w.events ++ es ∧ ∀ e ∈ es, e.plain = true

/-- So is the data connection, and a flag that was raised is up. -/
structure Traced (w w' : World) : Prop extends Prep w w' where
  conn : w'.conn = w.conn
  abor : w.sess.aborReceived = true → w'.sess.aborReceived = true
  timeout : w.sess.dataTimeout = true → w'.sess.dataTimeout = true
  flags : ∀ es, w'.events = w.events ++ es →
    (.abor ∈ es → w'.sess.aborReceived = true) ∧ (.dataTimeout ∈ es → w'.sess.dataTimeout = true)

theorem Prep.refl (w : World) : Prep w w := ⟨rfl, rfl, rfl, rfl, [], by simp⟩

theorem Prep.trans {w w' w'' : World} (h : Prep w w') (h' : Prep w' w'') : Prep w w'' := by
  obtain ⟨es, hes, hplain⟩ := h.events
  obtain ⟨es', hes', hplain'⟩ := h'.events
  refine ⟨h'.disk.trans h.disk, h'.cwd.trans h.cwd, h'.ascii.trans h.ascii,
    h'.anonymous.trans h.anonymous, es ++ es', by rw [hes', hes, List.append_assoc], ?_⟩
  intro e he
  exact (List.mem_append.mp he).elim (hplain e) (hplain' e)

instance : Std.Refl Prep := ⟨Prep.refl⟩

instance : IsTrans World Prep := ⟨fun _ _ _ => Prep.trans⟩

theorem Traced.refl (w : World) : Traced w w where
  toPrep := Prep.refl w
  conn := rfl
  abor := id
  timeout := id
  flags := by
    intro es hes
    obtain rfl : es = [] := by simpa using hes
    simp

theorem Traced.trans {w w' w'' : World} (h : Traced w w') (h' : Traced w' w'') : Traced w w'' where
  toPrep := h.toPrep.trans h'.toPrep
  conn := h'.conn.trans h.conn
  abor := h'.abor ∘ h.abor
  timeout := h'.timeout ∘ h.timeout
  flags := by
    intro es hes
    obtain ⟨es₁, hes₁, -⟩ := h.events
    obtain ⟨es₂, hes₂, -⟩ := h'.events
    obtain rfl : es = es₁ ++ es₂ := by
      rw [hes₂, hes₁, List.append_assoc] at hes
      exact (List.append_cancel_left hes).symm
    have h₁ := h.flags es₁ hes₁
    have h₂ := h'.flags es₂ hes₂
    constructor
    · intro he
      exact (List.mem_append.mp he).elim (fun he => h'.abor (h₁.1 he)) h₂.1
    · intro he
      exact (List.mem_append.mp he).elim (fun he => h'.timeout (h₁.2 he)) h₂.2

instance : Std.Refl Traced := ⟨Traced.refl⟩

instance : IsTrans World Traced := ⟨fun _ _ _ => Traced.trans⟩

/-- A step of any kind is allowed to end the session. -/
def Halt.Any (_ : Halt) : Prop := True

section

variable {T : Tunables} {env : Env} {α : Type}

theorem prep_of_traced {x : M α} (h : Within Traced Halt.Any x) : Within Prep Halt.Any x :=
  Within.mono h fun _ _ => Traced.toPrep

theorem SignalReply.plain {e : Event} (h : SignalReply e) : e.plain = true := by
  cases h
  case input | output | debug => rfl
  all_goals decide

theorem Talk.traced {w w' : World} (h : Talk (fun e => e.plain = true) w w') : Traced w w' := by
  obtain ⟨es, hes, hplain, hflags⟩ := h.events
  refine ⟨⟨h.disk, h.cwd, h.sess (·.isAscii) fun _ => rfl, h.sess (·.isAnonymous) fun _ => rfl, es, hes,
    hplain⟩, h.conn, h.abor, h.timeout, ?_⟩
  intro es' hes'
  rw [List.append_cancel_left (hes'.symm.trans hes)]
  exact hflags

theorem traced_of_talk {x : M α} (h : Within (Talk fun e => e.plain = true) Halt.Orderly x) :
    Within Traced Halt.Any x := by
  intro w
  refine wp_mono (h w) ?_ ?_
  · intro _ w' hw'
    exact hw'.traced
  · intro _ w' hw'
    exact ⟨trivial, hw'.2.traced⟩

theorem vsfCmdioWriteStr_traced {code : ℕ} {msg : Bytes} (h : (Event.reply code msg).plain = true) :
    Within Traced Halt.Any (vsfCmdioWriteStr T env code msg) :=
  traced_of_talk (vsfCmdioWriteStr_talk h fun _ => SignalReply.plain)

theorem vsfCmdioWrite_traced {code : ℕ} {msg : String}
    (h : (Event.reply code (text msg)).plain = true) :
    Within Traced Halt.Any (vsfCmdioWrite T env code msg) := vsfCmdioWriteStr_traced h

theorem checkPendingActions_traced : Within Traced Halt.Any (checkPendingActions T env) :=
  traced_of_talk (checkPendingActions_talk fun _ => SignalReply.plain)

theorem vsfLogDebug_logged (msgs : List Bytes) (w : World) :
    wp (vsfLogDebug msgs) (fun _ w' => Traced w w') (fun _ _ => False) w :=
  wp_mono (vsfLogDebug_spec (fun _ _ => rfl) msgs w) (fun _ _ h => Talk.traced h) (fun _ _ hf => hf)

theorem vsfLogDebug_traced (msgs : List Bytes) : Within Traced Halt.Any (vsfLogDebug msgs) := fun w =>
  wp_mono (vsfLogDebug_logged msgs w) (fun _ _ h => h) (fun _ _ hf => hf.elim)

/-- Nothing was told, and what a trace is about is as it was. -/
theorem Traced.of_events {w w' : World} (hevents : w'.events = w.events) (hfiles : w'.disk = w.disk ∧ w'.cwd = w.cwd)
    (hconn : w'.conn = w.conn) (hascii : w'.sess.isAscii = w.sess.isAscii)
    (hanon : w'.sess.isAnonymous = w.sess.isAnonymous)
    (habor : w'.sess.aborReceived = w.sess.aborReceived)
    (htimeout : w'.sess.dataTimeout = w.sess.dataTimeout) : Traced w w' := by
  refine ⟨⟨hfiles.1, hfiles.2, hascii, hanon, [], by simp [hevents]⟩, hconn, ?_, ?_, ?_⟩
  · exact habor.trans
  · exact htimeout.trans
  · intro es hes
    obtain rfl : es = [] := by simpa [hevents] using hes
    simp

/-- A change of the session that leaves the settings and the flags. -/
theorem modifySess_traced {f : Session → Session} (hascii : ∀ s, (f s).isAscii = s.isAscii)
    (hanon : ∀ s, (f s).isAnonymous = s.isAnonymous)
    (habor : ∀ s, (f s).aborReceived = s.aborReceived)
    (htimeout : ∀ s, (f s).dataTimeout = s.dataTimeout) : Within Traced Halt.Any (modifySess f) :=
  fun _ => .of_events rfl ⟨rfl, rfl⟩ rfl (hascii _) (hanon _) (habor _) (htimeout _)

theorem zoomOwn_traced (x : PrivM α) :
    Within Traced Halt.Any (zoom (·.own) (fun p w => { w with own := p }) x) :=
  within_zoom (fun _ => trivial) (fun _ _ => .of_events rfl ⟨rfl, rfl⟩ rfl rfl rfl rfl rfl) x

theorem onParent_traced (c : Call) (e : PrivEnv) (x : PrivM α) : Within Traced Halt.Any (onParent c e x) :=
  within_zoom (fun _ => trivial) (fun _ _ => .of_events rfl ⟨rfl, rfl⟩ rfl rfl rfl rfl rfl) x

theorem onBroker_traced (c : Call) (e : PrivEnv) (x : PrivM α) : Within Traced Halt.Any (onBroker T c e x) := by
  unfold onBroker
  exact within_ite (zoomOwn_traced x) (onParent_traced c e x)

/-! ### Asking for a connection, and taking it back -/

/-- The two questions change only what asking for the listener does. -/
theorem active_within {R : World → World → Prop} [Std.Refl R] [IsTrans World R]
    (hask : Within R Halt.Any (onBroker T .pasvActive {} vsfPrivopPasvActive)) (n : ℕ) :
    Within R Halt.Any (portActive T n) ∧ Within R Halt.Any (pasvActive T n) := by
  induction n with
  | zero =>
    unfold portActive pasvActive
    exact ⟨within_throw trivial, within_throw trivial⟩
  | succ n ih =>
    obtain ⟨hport, hpasv⟩ := ih
    constructor
    · unfold portActive
      refine within_bind within_get fun w => within_ite (within_pure _) (within_bind hpasv fun _ => ?_)
      exact within_ite (within_throw trivial) (within_pure _)
    · unfold pasvActive
      refine within_bind hask fun ret => within_ite (within_pure _) (within_bind hport fun _ => ?_)
      exact within_ite (within_throw trivial) (within_pure _)

theorem portOrPasvActive_within {R : World → World → Prop} [Std.Refl R] [IsTrans World R]
    (hask : Within R Halt.Any (onBroker T .pasvActive {} vsfPrivopPasvActive)) : Within R Halt.Any (portOrPasvActive T) := by
  unfold portOrPasvActive
  exact within_bind (active_within hask _).2 fun pasv => within_ite (within_pure _) (active_within hask _).1

theorem active_traced (n : ℕ) : Within Traced Halt.Any (portActive T n) ∧ Within Traced Halt.Any (pasvActive T n) :=
  active_within (onBroker_traced _ _ _) n

theorem portOrPasvActive_traced : Within Traced Halt.Any (portOrPasvActive T) :=
  portOrPasvActive_within (onBroker_traced _ _ _)

theorem dataTransferChecksOk_traced : Within Traced Halt.Any (dataTransferChecksOk T env) := by
  unfold dataTransferChecksOk
  refine within_bind portOrPasvActive_traced fun active => within_ite ?_ ?_
  · exact within_bind (vsfCmdioWrite_traced (by decide)) fun _ => within_pure _
  · refine within_bind within_get fun w => within_ite ?_ (within_pure _)
    exact within_bind (vsfCmdioWrite_traced (by decide)) fun _ => within_pure _

theorem portCleanup_traced : Within Traced Halt.Any portCleanup :=
  modifySess_traced (fun _ => rfl) (fun _ => rfl) (fun _ => rfl) (fun _ => rfl)

theorem tick_traced : Within Traced Halt.Any tick := traced_of_talk tick_talk

theorem pasvCleanup_traced : Within Traced Halt.Any (pasvCleanup T env) := by
  unfold pasvCleanup
  exact within_bind within_get fun w => within_bind (onBroker_traced _ _ _) fun _ => tick_traced

/-! ### The connection -/

theorem startDataAlarm_traced : Within Traced Halt.Any (startDataAlarm T) := by
  unfold startDataAlarm
  refine modifySess_traced ?_ ?_ ?_ ?_ <;> intro s <;> split
  all_goals first | rfl | (split <;> rfl)

theorem sslAccept_traced : Within Traced Halt.Any (sslAccept env) := by
  unfold sslAccept
  refine within_bind within_get fun _ => within_ite (within_throw trivial) (within_bind (vsfLogDebug_traced _) fun _ => ?_)
  refine within_bind ?_ fun _ => within_pure _
  exact modifySess_traced (fun _ => rfl) (fun _ => rfl) (fun _ => rfl) (fun _ => rfl)

theorem dataHandshake_traced (own : Bool) : Within Traced Halt.Any (dataHandshake T env own) :=
  within_ite sslAccept_traced (within_bind (vsfLogDebug_traced _) fun _ =>
    within_bind checkPendingActions_traced fun _ => within_pure _)

theorem vsfFtpdataioPostMarkConnect_traced :
    Within Traced Halt.Any (vsfFtpdataioPostMarkConnect T env) := by
  have hanswer : ∀ ret : Bool, Within Traced Halt.Any (handshakeAnswer T env ret) := by
    intro ret
    refine within_ite (within_pure _) (within_ite ?_ ?_)
    · exact traced_of_talk (vsfCmdioWriteExit_talk (by decide) (by decide) fun _ => SignalReply.plain)
    · exact within_bind (vsfCmdioWrite_traced (by decide)) fun _ => within_pure _
  rw [vsfFtpdataioPostMarkConnect_eq]
  exact within_bind within_get fun w => within_ite (within_pure _) (within_bind (dataHandshake_traced _) hanswer)

theorem disposeSsl_traced : Within Traced Halt.Any (disposeSsl T env) := by
  unfold disposeSsl
  refine within_bind within_get fun w => within_ite ?_ (within_ite ?_ (within_pure _))
  · refine within_bind startDataAlarm_traced fun _ => within_bind (vsfLogDebug_traced _) fun _ => ?_
    exact within_bind checkPendingActions_traced fun _ => within_pure _
  · refine within_bind startDataAlarm_traced fun _ => within_bind (vsfLogDebug_traced _) fun _ => ?_
    refine within_bind ?_ fun _ => within_pure _
    exact modifySess_traced (fun _ => rfl) (fun _ => rfl) (fun _ => rfl) (fun _ => rfl)

theorem vsfSysutilUninstallIoHandler_traced :
    Within Traced Halt.Any vsfSysutilUninstallIoHandler := by
  unfold vsfSysutilUninstallIoHandler
  refine within_bind within_get fun w => within_ite ?_ (within_throw trivial)
  exact modifySess_traced (fun _ => rfl) (fun _ => rfl) (fun _ => rfl) (fun _ => rfl)

theorem vsfFtpdataioDisposeTransferFd_traced :
    Within Traced Halt.Any (vsfFtpdataioDisposeTransferFd T env) := by
  unfold vsfFtpdataioDisposeTransferFd
  refine within_bind within_get fun w => within_ite (within_throw trivial) ?_
  refine within_bind vsfSysutilUninstallIoHandler_traced fun _ => ?_
  refine within_bind disposeSsl_traced fun closed => within_bind within_get fun w => ?_
  refine within_bind (within_when ?_) fun _ => within_bind ?_ fun _ => ?_
  · exact within_bind startDataAlarm_traced fun _ => within_ite (within_pure _) (within_throw trivial)
  · exact modifySess_traced (fun _ => rfl) (fun _ => rfl) (fun _ => rfl) (fun _ => rfl)
  · exact within_bind within_get fun _ => within_pure _

/-- **A close that went well saw neither an abort nor a timeout.** -/
theorem vsfFtpdataioDisposeTransferFd_flags (w : World) :
    wp (vsfFtpdataioDisposeTransferFd T env)
      (fun ok w' => ok = true → w'.sess.aborReceived = false ∧ w'.sess.dataTimeout = false)
      (fun _ _ => True) w := by
  unfold vsfFtpdataioDisposeTransferFd
  simp only [wp_bind, wp_get, wp_ite, wp_throw]
  split
  · trivial
  · refine wp_mono (vsfSysutilUninstallIoHandler_traced w) ?_ (fun _ _ _ => trivial)
    intro _ w1 _
    refine wp_mono (disposeSsl_traced w1) ?_ (fun _ _ _ => trivial)
    intro closed w2 _
    rw [wp_when]
    -- whatever the linger does, the flags are looked at behind it
    have hend : ∀ w3 : World, wp (modifySess fun s => { s with dataFd := none })
        (fun _ w' => wp (pure (closed && !(w'.sess.aborReceived || w'.sess.dataTimeout)) : M Bool)
          (fun ok w' => ok = true → w'.sess.aborReceived = false ∧ w'.sess.dataTimeout = false)
          (fun _ _ => True) w') (fun _ _ => True) w3 := by
      intro w3
      simp only [modifySess, wp_modify, wp_pure]
      intro h
      simpa using (Bool.and_eq_true_iff.mp h).2
    split
    · rw [wp_bind]
      refine wp_mono (startDataAlarm_traced w2) ?_ (fun _ _ _ => trivial)
      intro _ w3 _
      rw [wp_ite]
      split
      · exact hend w3
      · trivial
    · exact hend w2

/-! ### A transfer starts -/

theorem initDataSockParams_prep (fd : Fd) :
    Within Prep Halt.Any (initDataSockParams T env fd) := by
  unfold initDataSockParams
  refine within_bind within_get fun w => within_ite (within_throw trivial) (within_bind ?_ fun _ => ?_)
  · exact prep_of_traced (modifySess_traced (fun _ => rfl) (fun _ => rfl) (fun _ => rfl) (fun _ => rfl))
  refine within_ite (within_throw trivial) (within_bind ?_ fun _ => ?_)
  · unfold vsfSysutilInstallIoHandler
    refine within_bind within_get fun w => within_ite (within_throw trivial) ?_
    exact prep_of_traced (modifySess_traced (fun _ => rfl) (fun _ => rfl) (fun _ => rfl) (fun _ => rfl))
  · refine within_bind (prep_of_traced startDataAlarm_traced) fun _ => within_modify fun w => ?_
    exact ⟨rfl, rfl, rfl, rfl, [], by simp⟩

/-- A new connection brings the client's bytes. -/
theorem initDataSockParams_conn (fd : Fd) (w : World) :
    wp (initDataSockParams T env fd) (fun _ w' => w'.conn = { incoming := env.stream })
      (fun _ _ => True) w := by
  unfold initDataSockParams
  simp only [wp_bind, wp_get, wp_ite, wp_throw, wp_modify]
  split
  · trivial
  · simp only [modifySess, wp_modify]
    split
    · trivial
    · unfold vsfSysutilInstallIoHandler
      simp only [wp_bind, wp_get, wp_ite, wp_throw, modifySess, wp_modify]
      split
      · trivial
      · refine wp_mono (startDataAlarm_traced _) ?_ (fun _ _ _ => trivial)
        intro _ w' _
        trivial

/-- What both ways of making the connection come to. -/
def Connected (env : Env) (w : World) (ok : Bool) (w' : World) : Prop :=
  Prep w w' ∧ (ok = true → w'.conn = { incoming := env.stream })

theorem initDataSockParams_connected (fd : Fd) (w₀ w : World) (h : Prep w₀ w) :
    wp (initDataSockParams T env fd) (fun _ w' => Connected env w₀ true w') (fun _ w' => Prep w₀ w') w := by
  refine wp_mono (wp_and (initDataSockParams_prep fd w) (initDataSockParams_conn fd w)) ?_ ?_
  · rintro _ w' ⟨hprep, hconn⟩
    exact ⟨h.trans hprep, fun _ => hconn⟩
  · rintro _ w' ⟨⟨-, hprep⟩, -⟩
    exact h.trans hprep

/-- The connection failed, and the client is told. -/
theorem failed_connected {msg : String} (hmsg : (Event.reply ftpBadsendconn (text msg)).plain = true)
    (w₀ w : World) (h : Prep w₀ w) :
    wp (do vsfCmdioWrite T env ftpBadsendconn msg; pure false) (Connected env w₀)
      (fun _ w' => Prep w₀ w') w := by
  simp only [wp_bind, wp_pure]
  refine wp_mono (vsfCmdioWrite_traced hmsg w) ?_ ?_
  · intro _ w' hw'
    exact ⟨h.trans hw'.toPrep, by simp⟩
  · intro _ w' hw'
    exact h.trans hw'.2.toPrep

theorem getPasvFd_traced : Within Traced Halt.Any (getPasvFd T env) := by
  refine within_bind (onBroker_traced _ _ _) fun _ => within_bind ?_ fun _ => within_pure _
  exact traced_of_talk (checkPendingActions_talk fun _ => SignalReply.plain)

theorem vsfFtpdataioGetPasvFd_connected (w : World) :
    wp (vsfFtpdataioGetPasvFd T env) (Connected env w) (fun _ w' => Prep w w') w := by
  unfold vsfFtpdataioGetPasvFd
  rw [wp_bind]
  refine wp_mono (getPasvFd_traced w) ?_ (fun _ _ he => he.2.toPrep)
  rintro (e | fd) w1 hw1
  · refine failed_connected ?_ w w1 hw1.toPrep
    split <;> decide
  · simp only [wp_bind, wp_pure]
    exact initDataSockParams_connected fd w w1 hw1.toPrep

theorem connectDataSock_traced : Within Traced Halt.Any (connectDataSock T env) := by
  unfold connectDataSock
  refine within_bind within_get fun w => ?_
  cases w.sess.portSockaddr with
  | none => exact within_throw trivial
  | some addr => exact within_ite (zoomOwn_traced _) (onParent_traced _ _ _)

theorem getPrivDataSock_traced : Within Traced Halt.Any (getPrivDataSock T env) := by
  refine within_bind connectDataSock_traced fun _ => within_bind ?_ fun _ => within_pure _
  exact traced_of_talk (checkPendingActions_talk fun _ => SignalReply.plain)

theorem vsfFtpdataioGetPortFd_connected (w : World) :
    wp (vsfFtpdataioGetPortFd T env) (Connected env w) (fun _ w' => Prep w w') w := by
  unfold vsfFtpdataioGetPortFd
  rw [wp_bind]
  refine wp_mono (getPrivDataSock_traced w) ?_ (fun _ _ he => he.2.toPrep)
  rintro (_ | fd) w1 hw1
  · exact failed_connected (by decide) w w1 hw1.toPrep
  · simp only [wp_bind, wp_pure]
    exact initDataSockParams_connected fd w w1 hw1.toPrep

/-- The world with the mark that a transfer starts. -/
def World.marked (w : World) (msg : Bytes) : World :=
  { w with events := w.events ++ [.reply ftpDataconn msg] }

/-- A transfer has started: the connection was made, the client told of it, and
since then only signals were taken. -/
def Started (env : Env) (msg : Bytes) (w w' : World) : Prop :=
  ∃ w1, Prep w w1 ∧ w1.conn = { incoming := env.stream } ∧ Traced (w1.marked msg) w'

theorem plain_mark (msg : Bytes) : (Event.reply ftpDataconn msg).plain = true := by
  have hcode : ftpDataconn ≠ ftpTransferok := by decide
  simp [Event.plain, Event.mild, transferComplete, directorySendOk, hcode]

theorem Started.prep {msg : Bytes} {w w' : World} (h : Started env msg w w') : Prep w w' := by
  obtain ⟨w1, h1, -, h2⟩ := h
  have hmark : Prep w1 (w1.marked msg) := by
    refine ⟨rfl, rfl, rfl, rfl, [.reply ftpDataconn msg], rfl, ?_⟩
    intro e he
    rw [List.mem_singleton.mp he]
    exact plain_mark msg
  exact h1.trans (hmark.trans h2.toPrep)

/-- The mark on a connection, and what failed behind it. -/
theorem markTransfer_started {w w1 : World} (hconn : Connected env w true w1) (msg : Bytes) :
    wp (markTransfer T env msg) (fun ok w' => Prep w w' ∧ (ok = true → Started env msg w w'))
      (fun _ w' => Prep w w') w1 := by
  -- the mark is logged first
  set w2 := w1.outputLogged T (.reply ftpDataconn msg) with hw2
  have hlogged : Talk SignalReply w1 w2 := outputLogged_talk _ w1
  have hprep : Prep w w2 := hconn.1.trans (hlogged.mono fun _ => SignalReply.plain).traced.toPrep
  have hstarted : ∀ {w'}, Traced (w2.marked msg) w' → Started env msg w w' :=
    fun h => ⟨w2, hprep, hlogged.conn.trans (hconn.2 rfl), h⟩
  unfold markTransfer vsfCmdioWriteStr
  rw [wp_bind, wp_bind, wp_writeControl]
  split
  · refine wp_mono (checkPendingActions_traced (w2.marked msg)) ?_
      (fun _ _ he => (hstarted he.2).prep)
    intro _ w3 hw3
    rw [wp_bind]
    refine wp_mono (vsfFtpdataioPostMarkConnect_traced w3) ?_
      (fun _ _ he => (hstarted (hw3.trans he.2)).prep)
    intro ok w4 hw4
    have hw4' := hstarted (hw3.trans hw4)
    cases ok with
    | true => exact ⟨hw4'.prep, fun _ => hw4'⟩
    | false =>
      simp only [Bool.false_eq_true, if_false, wp_bind, wp_pure]
      refine wp_mono (vsfFtpdataioDisposeTransferFd_traced w4) ?_
        (fun _ _ he => hw4'.prep.trans he.2.toPrep)
      intro _ w5 hw5
      exact ⟨hw4'.prep.trans hw5.toPrep, by simp⟩
  · exact hprep

theorem connectTransfer_connected (pasv : Bool) (w : World) :
    wp (connectTransfer T env pasv) (Connected env w) (fun _ w' => Prep w w') w :=
  wp_branch (vsfFtpdataioGetPasvFd_connected w) (vsfFtpdataioGetPortFd_connected w)

/-- **A transfer that starts has the client's bytes before it, and an abort or
a timeout since the mark is known.** -/
theorem getRemoteTransferFd_started (msg : Bytes) (w : World) :
    wp (getRemoteTransferFd T env msg) (fun ok w' => Prep w w' ∧ (ok = true → Started env msg w w'))
      (fun _ w' => Prep w w') w := by
  have hreset : ∀ w : World, Prep w { w with sess := { w.sess with aborReceived := false } } :=
    fun w => ⟨rfl, rfl, rfl, rfl, [], by simp⟩
  rw [getRemoteTransferFd_eq, wp_bind]
  refine wp_mono (portOrPasvActive_traced w) ?_ (fun _ _ he => he.2.toPrep)
  intro active w1 hw1
  rw [wp_ite, wp_throw]
  split
  · exact hw1.toPrep
  simp only [wp_bind, modifySess, wp_modify]
  refine wp_mono ((active_traced _).2 _) ?_ (fun _ _ he => (hw1.toPrep.trans (hreset w1)).trans he.2.toPrep)
  intro pasv w2 hw2
  have hprep : Prep w w2 := (hw1.toPrep.trans (hreset w1)).trans hw2.toPrep
  refine wp_mono (connectTransfer_connected pasv w2) ?_ (fun _ _ he => hprep.trans he)
  rintro connected w3 ⟨hprep3, hconn⟩
  cases connected with
  | false => exact ⟨hprep.trans hprep3, by simp⟩
  | true => exact markTransfer_started ⟨hprep.trans hprep3, hconn⟩ msg

theorem checkAbor_prep : Within Prep Halt.Any (checkAbor T env) := by
  unfold checkAbor
  refine within_bind within_get fun w => within_when (within_bind ?_ fun _ => ?_)
  · exact within_modify fun w => ⟨rfl, rfl, rfl, rfl, [], by simp⟩
  · exact prep_of_traced (vsfCmdioWrite_traced (by decide))

end

/-! ### What a step adds to the trace -/

/-- What was added to the trace since `w`. -/
def World.since (w w' : World) : List Event := w'.events.drop w.events.length

/-- The trace only grows. -/
def Extends (w w' : World) : Prop := w.events <+: w'.events

instance : Std.Refl Extends := ⟨fun w => List.prefix_refl w.events⟩

instance : IsTrans World Extends := ⟨fun _ _ _ => List.IsPrefix.trans⟩

/-- Only mild events were added. -/
def Quiet (w w' : World) : Prop := ∃ es, w'.events = w.events ++ es ∧ ∀ e ∈ es, e.mild = true

instance : Std.Refl Quiet := ⟨fun _ => ⟨[], by simp⟩⟩

theorem Quiet.trans {w w' w'' : World} (h : Quiet w w') (h' : Quiet w' w'') : Quiet w w'' := by
  obtain ⟨es, hes, hmild⟩ := h
  obtain ⟨es', hes', hmild'⟩ := h'
  refine ⟨es ++ es', by rw [hes', hes, List.append_assoc], ?_⟩
  intro e he
  exact (List.mem_append.mp he).elim (hmild e) (hmild' e)

instance : IsTrans World Quiet := ⟨fun _ _ _ => Quiet.trans⟩

/-- Nothing was said to be complete. -/
def Silent (w w' : World) : Prop := ∃ es, w'.events = w.events ++ es ∧ transferComplete ∉ es

theorem Quiet.silent {w w' : World} (h : Quiet w w') : Silent w w' := by
  obtain ⟨es, hes, hmild⟩ := h
  refine ⟨es, hes, ?_⟩
  intro hmem
  have hfalse := hmild _ hmem
  revert hfalse
  decide

section

variable {T : Tunables} {env : Env} {w w' : World}

theorem Prep.quiet (h : Prep w w') : Quiet w w' := by
  obtain ⟨es, hes, hplain⟩ := h.events
  exact ⟨es, hes, fun e he => Event.mild_of_plain (hplain e he)⟩

theorem Quiet.extends (h : Quiet w w') : Extends w w' := by
  obtain ⟨es, hes, -⟩ := h
  exact ⟨es, hes.symm⟩

theorem quiet_of_prep {α : Type} {x : M α} (h : Within Prep Halt.Any x) : Within Quiet Halt.Any x :=
  h.mono fun _ _ => Prep.quiet

theorem quiet_of_traced {α : Type} {x : M α} (h : Within Traced Halt.Any x) : Within Quiet Halt.Any x :=
  quiet_of_prep (prep_of_traced h)

/-- A step that changes anything but the trace. -/
theorem quiet_modify {f : World → World} (h : ∀ w, (f w).events = w.events) :
    Within Quiet Halt.Any (modify f : M Unit) :=
  within_modify fun w => ⟨[], by simp [h w]⟩

theorem vsfCmdioWrite_quiet {code : ℕ} {msg : String}
    (h : (Event.reply code (text msg)).plain = true) : Within Quiet Halt.Any (vsfCmdioWrite T env code msg) :=
  quiet_of_traced (vsfCmdioWrite_traced h)

theorem emit_quiet {e : Event} (h : e.mild = true) : Within Quiet Halt.Any (emit e) :=
  within_modify fun _ => ⟨[e], rfl, by simpa using h⟩

theorem vsfCmdioWriteStr_extends (code : ℕ) (msg : Bytes) :
    Within Extends Halt.Any (vsfCmdioWriteStr T env code msg) := by
  have hgrows : ∀ {w w' : World}, Talk (fun _ => True) w w' → Extends w w' := by
    intro w w' h
    obtain ⟨es, hes, -⟩ := h.events
    exact ⟨es, hes.symm⟩
  intro w
  refine wp_mono (vsfCmdioWriteStr_talk (P := fun _ => True) trivial (fun _ _ => trivial) w) ?_ ?_
  · intro _ w' hw'
    exact hgrows hw'
  · intro _ w' hw'
    exact ⟨trivial, hgrows hw'.2⟩

theorem quiet_same (h : w'.events = w.events) : Quiet w w' := ⟨[], by simp [h]⟩

end

/-! ### A client that takes its replies, and no signals

In such surroundings a step has one outcome only. -/

/-- No signal is pending, and each reply can be written. -/
structure Env.Calm (env : Env) : Prop where
  signals : ∀ t, env.signals t = {}
  ctrlWrite : ∀ t, env.ctrlWrite t = true
  interrupts : ∀ t, env.interrupts t = 0

/-- The world one check of the signals later. -/
def World.ticked (w : World) : World := { w with clock := w.clock + 1 }

/-- The world after a reply. -/
def World.replied (T : Tunables) (w : World) (code : ℕ) (msg : Bytes) : World :=
  let w' := w.outputLogged T (.reply code msg)
  { w' with clock := w'.clock + 1, events := w'.events ++ [.reply code msg] }

section

variable {T : Tunables} {env : Env} {w : World} {E : Halt → World → Prop}

/-- In front of the reply there is at most its line of the log. -/
theorem replied_events (T : Tunables) (w : World) (code : ℕ) (msg : Bytes) :
    ∃ es, (w.replied T code msg).events = w.events ++ es ++ [.reply code msg] ∧ ∀ e ∈ es, e.plain = true := by
  obtain ⟨es, hes, hsignal, -⟩ := (outputLogged_talk (T := T) (.reply code msg) w).events
  refine ⟨es, ?_, fun e he => (hsignal e he).plain⟩
  show (w.outputLogged T (.reply code msg)).events ++ [.reply code msg] = _
  rw [hes]

theorem wp_checkPendingActions_calm (h : env.Calm) (Q : Unit → World → Prop) :
    wp (checkPendingActions T env) Q E w ↔ Q () w.ticked := by
  unfold checkPendingActions tick
  simp only [wp_bind, wp_get, wp_modify, wp_when, h.signals, Bool.false_eq_true, if_false, wp_pure]
  rfl

theorem wp_interrupted_calm (h : env.Calm) (Q : Unit → World → Prop) (t : ℕ) :
    wp (interrupted T env (env.interrupts t)) Q E w ↔ Q () w := by
  rw [h.interrupts]
  rfl

theorem wp_vsfCmdioWriteStr_calm (h : env.Calm) (code : ℕ) (msg : Bytes) (Q : Unit → World → Prop) :
    wp (vsfCmdioWriteStr T env code msg) Q E w ↔ Q () (w.replied T code msg) := by
  unfold vsfCmdioWriteStr
  simp only [wp_bind, wp_writeControl, h.ctrlWrite, if_true, wp_checkPendingActions_calm h]
  rfl

end

end CosFtp
