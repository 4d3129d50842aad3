/-
# The logs of a session

As long as no text with an LF in it comes in, none goes out: the strings of the session that are
copied into its logs, and the directory it stands in, have none at any time, so each call writes one
line, and a line of xferlog has its thirteen fields. An LF comes in with a NUL in a command, which is
made one, or with an answer of COS; and the answers to FEAT, HELP and STAT, whose lines are logged with
their ends, have one of their own. The password of an anonymous user is made one word, and may be
anything.

Key definitions: `Tidy`, `Visit.Plain`.
Key theorems: `dispatch_tidy`, `preRound_tidy`, `log_lines`.
-/
import CosFtp.Lib.Keeps
import CosFtp.LogLines
import CosFtp.PassLog

namespace CosFtp

open Wp

/-! ### Tidy sessions -/

/-- Nothing that the call copies has an LF in it, and what is to be one field is one word. -/
structure LogCall.Plain (c : LogCall) : Prop where
  msg : chLf ∉ c.msg
  user : chLf ∉ c.view.userStr
  pass : chLf ∉ c.view.anonPassStr ∧ chSpace ∉ c.view.anonPassStr
  ip : chLf ∉ c.view.remoteIpStr ∧ chSpace ∉ c.view.remoteIpStr
  file : chLf ∉ c.view.logStr
  name : vsfLogTypeIsTransfer c.what = true → chSpace ∉ c.view.userStr

/-- The strings of a session that are copied into its logs, and what it has to log. -/
def Session.texts (s : Session) : Bytes × Bytes × Bytes × Bytes × Bytes × Option LogEntryType :=
  (s.userStr, s.anonPassStr, s.remoteIpStr, s.logStr, s.homeStr, s.logType)

/-- What a session has logged is plain, and so is what it will copy. Behind a login its name is one word; before
it no transfer is logged. -/
structure Tidy (named : Prop) (w : World) : Prop where
  user : chLf ∉ w.sess.userStr
  pass : chLf ∉ w.sess.anonPassStr ∧ chSpace ∉ w.sess.anonPassStr
  ip : chLf ∉ w.sess.remoteIpStr ∧ chSpace ∉ w.sess.remoteIpStr
  file : chLf ∉ w.sess.logStr
  home : chLf ∉ w.sess.homeStr
  cwd : chLf ∉ w.cwd.path
  name : named → chSpace ∉ w.sess.userStr
  entry : named ∨ ∀ what, w.sess.logType = some what → vsfLogTypeIsTransfer what = false
  calls : ∀ c ∈ logCalls w.events, c.Plain

/-- The program keeps a session tidy. -/
abbrev Tidies {α : Type} (named : Prop) (x : M α) : Prop :=
  Keeps (Tidy named) (fun _ => True) (fun _ => Tidy named) x

/-- And what it returns has no LF in it. -/
abbrev TidiesText (named : Prop) (x : M Bytes) : Prop :=
  Keeps (Tidy named) (fun s => chLf ∉ s) (fun _ => Tidy named) x

section

variable {T : Tunables} {env : Env} {α β : Type} {named : Prop} {w w' : World}

theorem LogCall.Plain.copied {c : LogCall} (h : c.Plain) : (∀ s ∈ c.copied T, chLf ∉ s) ∧ ∀ s ∈ c.words T, chSpace ∉ s := by
  have hidentity : chLf ∉ c.view.identity := by
    unfold LogView.identity
    split
    · exact h.pass.1
    · exact h.user
  constructor
  · unfold LogCall.copied
    rw [List.forall_mem_append]
    constructor
    · split
      · simp [LogView.xferTexts, h.ip.1, h.file, hidentity]
      · simp
    · split
      · unfold LogCall.vsftpdTexts
        split
        · simp [h.user, h.ip.1, h.msg, h.pass.1]
        · simp [h.user, h.ip.1, h.msg]
      · simp
  · unfold LogCall.words
    split
    · rename_i htransfers
      have hword : chSpace ∉ c.view.identity := by
        unfold LogView.identity
        split
        · exact h.pass.2
        · exact h.name htransfers.2
      simp [h.ip.2, hword]
    · simp

/-- What is logged of a tidy session is plain, if the message is. -/
theorem Tidy.plain (h : Tidy named w) {what : LogEntryType} (hwhat : vsfLogTypeIsTransfer what = true → named)
    (succeeded : Bool) {msg : Bytes} (hmsg : chLf ∉ msg) :
    LogCall.Plain ⟨what, succeeded, msg, w.sess.logView⟩ :=
  ⟨hmsg, h.user, h.pass, h.ip, h.file, fun htransfer => h.name (hwhat htransfer)⟩

/-- A change of the world outside of what is logged. -/
theorem Tidy.congr (h : Tidy named w) (htexts : w'.sess.texts = w.sess.texts) (hcwd : w'.cwd = w.cwd)
    (hcalls : logCalls w'.events = logCalls w.events) : Tidy named w' := by
  have huser : w'.sess.userStr = w.sess.userStr := congrArg (·.1) htexts
  have hpass : w'.sess.anonPassStr = w.sess.anonPassStr := congrArg (·.2.1) htexts
  have hip : w'.sess.remoteIpStr = w.sess.remoteIpStr := congrArg (·.2.2.1) htexts
  have hfile : w'.sess.logStr = w.sess.logStr := congrArg (·.2.2.2.1) htexts
  have hhome : w'.sess.homeStr = w.sess.homeStr := congrArg (·.2.2.2.2.1) htexts
  have hlog : w'.sess.logType = w.sess.logType := congrArg (·.2.2.2.2.2) htexts
  obtain ⟨huser', hpass', hip', hfile', hhome', hcwd', hname', hlog', hcalls'⟩ := h
  rw [← huser] at huser' hname'
  rw [← hpass] at hpass'
  rw [← hip] at hip'
  rw [← hfile] at hfile'
  rw [← hhome] at hhome'
  rw [← hcwd] at hcwd'
  rw [← hlog] at hlog'
  rw [← hcalls] at hcalls'
  exact ⟨huser', hpass', hip', hfile', hhome', hcwd', hname', hlog', hcalls'⟩

/-! ### The small steps -/

/-- Another call is logged. -/
theorem Tidy.log (h : Tidy named w) {c : LogCall} (hc : c.Plain) :
    Tidy named { w with events := w.events ++ [.log c.what c.succeeded c.msg c.view] } := by
  refine ⟨h.user, h.pass, h.ip, h.file, h.home, h.cwd, h.name, h.entry, ?_⟩
  intro c' hc'
  rw [logCalls_append, List.mem_append] at hc'
  rcases hc' with hc' | hc'
  · exact h.calls c' hc'
  · have heq : c' = c := by simpa [logCalls, Event.logCall] using hc'
    exact heq ▸ hc

theorem modify_tidy {f : World → World} (htexts : ∀ w, (f w).sess.texts = w.sess.texts) (hcwd : ∀ w, (f w).cwd = w.cwd)
    (hcalls : ∀ w, logCalls (f w).events = logCalls w.events) : Tidies named (modify f) :=
  keeps_modify fun w h => h.congr (htexts w) (hcwd w) (hcalls w)

theorem modifySess_tidy {f : Session → Session} (h : ∀ s, (f s).texts = s.texts) : Tidies named (modifySess f) :=
  modify_tidy (fun _ => h _) (fun _ => rfl) fun _ => rfl

theorem emit_tidy {e : Event} (h : e.logCall = none) : Tidies named (emit e) := by
  refine modify_tidy (fun _ => rfl) (fun _ => rfl) fun w => ?_
  rw [logCalls_append]
  simp [logCalls, h]

theorem tick_tidy : Tidies named tick := modify_tidy (fun _ => rfl) (fun _ => rfl) fun _ => rfl

theorem throw_tidy {Q : α → Prop} (e : Halt) : Keeps (Tidy named) Q (fun _ => Tidy named) (throw e : M α) :=
  keeps_throw fun _ h => h

/-- What is read of the world is read of a tidy one. -/
theorem get_tidy {Q : α → Prop} {f : World → M α} (h : ∀ w, Tidy named w → Keeps (Tidy named) Q (fun _ => Tidy named) (f w)) :
    Keeps (Tidy named) Q (fun _ => Tidy named) (get >>= f) := keeps_bind keeps_get h

/-- What comes first returns nothing that is copied. -/
theorem bind_tidy {Q : β → Prop} {x : M α} {f : α → M β} (hx : Tidies named x)
    (hf : ∀ a, Keeps (Tidy named) Q (fun _ => Tidy named) (f a)) : Keeps (Tidy named) Q (fun _ => Tidy named) (x >>= f) :=
  keeps_bind hx fun a _ => hf a

theorem pure_tidy (a : α) : Tidies named (pure a : M α) := keeps_pure trivial

/-- A program on a part of the world outside of what is logged. -/
theorem zoom_tidy {τ : Type} {part : World → τ} {put : τ → World → World} (htexts : ∀ t w, (put t w).sess = w.sess)
    (hcwd : ∀ t w, (put t w).cwd = w.cwd) (hcalls : ∀ t w, (put t w).events = w.events) (x : EStateM Halt τ α) :
    Tidies named (zoom part put x) := by
  have hput : ∀ t w, Tidy named w → Tidy named (put t w) := by
    intro t w h
    refine h.congr ?_ (hcwd t w) ?_
    · rw [htexts]
    · rw [hcalls]
  intro w hw
  rw [wp_zoom]
  exact wp_of_run (fun _ t _ => ⟨hput t w hw, trivial⟩) fun _ t _ => hput t w hw

theorem onOwn_tidy (x : PrivM α) : Tidies named (zoom (·.own) (fun p w => { w with own := p }) x) := by
  apply zoom_tidy <;> exact fun _ _ => rfl

theorem onParent_tidy (c : Call) (e : PrivEnv) (x : PrivM α) : Tidies named (onParent c e x) := by
  apply zoom_tidy <;> exact fun _ _ => rfl

theorem onBroker_tidy (c : Call) (e : PrivEnv) (x : PrivM α) : Tidies named (onBroker T c e x) :=
  keeps_ite (onOwn_tidy x) (onParent_tidy c e x)

/-! ### Replies and signals -/

theorem vsfLogLine_tidy {what : LogEntryType} (hwhat : vsfLogTypeIsTransfer what = true → named) {msg : Bytes}
    (hmsg : chLf ∉ msg) : Tidies named (vsfLogLine what msg) := by
  apply get_tidy
  intro w hw
  exact keeps_modify fun w' hw' => hw'.log (hw.plain hwhat true hmsg)

theorem vsfLogDebug_tidy {msgs : List Bytes} (h : ∀ msg ∈ msgs, chLf ∉ msg) : Tidies named (vsfLogDebug msgs) := by
  induction msgs with
  | nil => exact pure_tidy _
  | cons msg msgs ih =>
    obtain ⟨hmsg, hmsgs⟩ := List.forall_mem_cons.mp h
    exact bind_tidy (vsfLogLine_tidy (fun h => by cases h) hmsg) fun _ => ih hmsgs

/-- A question to COS, and what is logged of an answer that cannot be used. -/
theorem asked_tidy {respmsg : Bytes} (h : chLf ∉ cstr respmsg) (req : CosReq) (c : Prop) [Decidable c] (a : α) :
    Tidies named (do
      emit (.cos req)
      when c (vsfLogDebug [cstr respmsg])
      pure a : M α) :=
  bind_tidy (emit_tidy rfl) fun _ =>
    bind_tidy (keeps_when (vsfLogDebug_tidy (List.forall_mem_singleton.mpr h))) fun _ => pure_tidy a

/-- A reply whose text has no LF, if the protocol is logged. -/
theorem writeControl_tidy {e : Event} (he : e.logCall = none) (h : T.logFtpProtocol = true → chLf ∉ outputText e) :
    Tidies named (writeControl T env e) := by
  refine bind_tidy (keeps_guarded fun hlog => vsfLogLine_tidy (fun h => by cases h) (h hlog)) fun _ => ?_
  exact get_tidy fun w _ => keeps_ite (emit_tidy he) (throw_tidy _)

theorem lf_not_mem_outputText {code : ℕ} {msg : Bytes} (h : chLf ∉ msg) :
    chLf ∉ outputText (.reply code msg) ∧ chLf ∉ outputText (.hyphen code msg) :=
  ⟨List.not_mem_append (List.not_mem_append (lf_not_mem_ulongText code) (by decide)) h,
    List.not_mem_append (List.not_mem_append (lf_not_mem_ulongText code) (by decide)) h⟩

theorem writeExit_tidy {Q : α → Prop} {code status : ℕ} {msg : String} (h : oneLine msg = true) :
    Keeps (Tidy named) Q (fun _ => Tidy named) (vsfCmdioWriteExit T env code msg status : M α) :=
  bind_tidy (writeControl_tidy rfl fun _ => (lf_not_mem_outputText (lf_not_mem_text h)).1) fun _ => throw_tidy _

theorem onAlarm_tidy : Tidies named (modify World.onAlarm) := by
  refine modify_tidy ?_ ?_ ?_ <;> intro w <;> unfold World.onAlarm <;> split
  all_goals first
    | rfl
    | split
      · first | rfl | (rw [logCalls_append]; exact List.append_nil _)
      · rfl

/-- What is logged of the line when it is read has no LF in it. -/
def CtrlLine.Clean (line : CtrlLine) : Prop := line.Plain ∨ IsPass line

theorem CtrlLine.Clean.inputText {line : CtrlLine} (h : line.Clean) :
    chLf ∉ inputText (preCommand line).1 (preCommand line).2 := by
  rcases h with hplain | hpass
  · exact lf_not_mem_inputText (lf_not_mem_preCommand hplain).1 (lf_not_mem_preCommand hplain).2
  · unfold CosFtp.inputText
    rw [show (preCommand line).1 = text "PASS" from hpass, if_pos (by decide)]
    decide

theorem logControlEnd_tidy (line : CtrlLine) : Tidies named (logControlEnd env line) := by
  cases line with
  | closed =>
    exact get_tidy fun _ _ => keeps_when (vsfLogDebug_tidy (List.forall_mem_singleton.mpr (by decide)))
  | tooLong => exact pure_tidy _
  | line str => exact pure_tidy _

theorem vsfCmdioGetCmdAndArg_tidy {line : CtrlLine} (h : line.Clean) :
    Keeps (Tidy named) (· = preCommand line) (fun _ => Tidy named) (vsfCmdioGetCmdAndArg T env line) := by
  have hgetline : Keeps (Tidy named) (fun ret => ∀ str, ret = some str → splitCommand str = preCommand line)
      (fun _ => Tidy named) (controlGetline T env line) := by
    cases line with
    | closed => exact keeps_pure fun _ h => by cases h
    | tooLong => exact writeExit_tidy (by decide)
    | line str =>
      refine keeps_pure fun str' hsome => ?_
      rw [← Option.some.inj hsome]
      rfl
  refine bind_tidy (logControlEnd_tidy line) fun _ => keeps_bind hgetline fun ret hret => get_tidy fun w _ => keeps_ite (writeExit_tidy (by decide)) ?_
  cases ret with
  | none => exact throw_tidy _
  | some str =>
    dsimp only
    rw [hret str rfl]
    refine bind_tidy (keeps_when (vsfLogLine_tidy (fun h => by cases h) h.inputText)) fun _ => keeps_pure rfl

variable (henv : env.Plain)

include henv

omit henv in
theorem handleSigurg_tidy {line : CtrlLine} (h : line.Plain) : Tidies named (handleSigurg T env line) := by
  refine get_tidy fun w _ => keeps_ite (pure_tidy _) ?_
  refine keeps_bind (vsfCmdioGetCmdAndArg_tidy (.inl h)) fun r _ => keeps_ite ?_ ?_
  · refine modify_tidy (fun _ => rfl) (fun _ => rfl) fun w => ?_
    rw [logCalls_append]
    exact List.append_nil _
  · exact writeControl_tidy rfl fun _ => (lf_not_mem_outputText (by decide)).1

theorem checkPendingActions_tidy : Tidies named (checkPendingActions T env) := by
  refine get_tidy fun w _ => bind_tidy tick_tidy fun _ => bind_tidy (keeps_when onAlarm_tidy) fun _ => ?_
  cases hurg : (env.signals w.clock).urg with
  | none => exact pure_tidy _
  | some line => exact keeps_when (handleSigurg_tidy (henv.urg _ line hurg))

theorem interrupted_tidy (n : ℕ) : Tidies named (interrupted T env n) := by
  induction n with
  | zero => exact pure_tidy _
  | succ n ih => exact bind_tidy (checkPendingActions_tidy henv) fun _ => ih

omit henv in
theorem handleIo_tidy (result : ℤ) : Tidies named (handleIo result) := by
  apply modifySess_tidy
  intro s
  split <;> rfl

theorem checkPendingIo_tidy (result : ℤ) : Tidies named (checkPendingIo T env result) :=
  get_tidy fun _ _ => bind_tidy (interrupted_tidy henv _) fun _ => bind_tidy (handleIo_tidy _) fun _ =>
    checkPendingActions_tidy henv

theorem writeStr_tidy {code : ℕ} {msg : Bytes} (h : chLf ∉ msg) : Tidies named (vsfCmdioWriteStr T env code msg) :=
  bind_tidy (writeControl_tidy rfl fun _ => (lf_not_mem_outputText h).1) fun _ => checkPendingActions_tidy henv

theorem reply_tidy {code : ℕ} {msg : String} (h : oneLine msg = true) : Tidies named (vsfCmdioWrite T env code msg) :=
  writeStr_tidy henv (lf_not_mem_text h)

theorem hyphen_tidy {code : ℕ} {msg : Bytes} (h : chLf ∉ msg) : Tidies named (vsfCmdioWriteStrHyphen T env code msg) :=
  bind_tidy (writeControl_tidy rfl fun _ => (lf_not_mem_outputText h).2) fun _ => checkPendingActions_tidy henv

/-- A raw text may have an LF in it, and has: it is not to be logged. -/
theorem raw_tidy (hlog : T.logFtpProtocol = false) (msg : Bytes) : Tidies named (vsfCmdioWriteRaw T env msg) := by
  refine get_tidy fun w _ => keeps_ite (throw_tidy _) (bind_tidy ?_ fun _ => checkPendingActions_tidy henv)
  refine writeControl_tidy rfl fun h => ?_
  rw [hlog] at h
  cases h

omit henv in
theorem vsfLogStartEntry_tidy {what : LogEntryType} (hwhat : vsfLogTypeIsTransfer what = true → named) :
    Tidies named (vsfLogStartEntry what) := by
  refine get_tidy fun w _ => keeps_ite (throw_tidy _) (keeps_modify fun w hw => ?_)
  refine ⟨hw.user, hw.pass, hw.ip, List.not_mem_nil, hw.home, hw.cwd, hw.name, ?_, hw.calls⟩
  by_cases htransfer : vsfLogTypeIsTransfer what = true
  · exact .inl (hwhat htransfer)
  · right
    intro what' hsome
    rw [← Option.some.inj hsome]
    exact Bool.eq_false_iff.mpr htransfer

omit henv in
/-- The open entry is logged. -/
theorem vsfLogDoLog_tidy (succeeded : Bool) : Tidies named (vsfLogDoLog succeeded) := by
  refine get_tidy fun w hw => keeps_modify fun w' hw' => ?_
  have hopen : ∀ what, w.sess.logType = some what → vsfLogTypeIsTransfer what = true → named := by
    intro what hwhat htransfer
    rcases hw.entry with hnamed | hnone
    · exact hnamed
    · rw [hnone what hwhat] at htransfer
      cases htransfer
  refine ⟨hw'.user, hw'.pass, hw'.ip, hw'.file, hw'.home, hw'.cwd, hw'.name, ?_, ?_⟩
  · right
    intro what h
    cases h
  · intro c hc
    rw [logCalls_append, List.mem_append] at hc
    rcases hc with hc | hc
    · exact hw'.calls c hc
    · obtain ⟨what, hwhat, rfl⟩ : ∃ what, w.sess.logType = some what ∧
          (⟨what, succeeded, w.sess.logStr, w.sess.logView⟩ : LogCall) = c := by
        cases htype : w.sess.logType with
        | none => simp [htype, logCalls] at hc
        | some what =>
          refine ⟨what, rfl, ?_⟩
          simpa [htype, logCalls, Event.logCall, eq_comm] using hc
      exact hw.plain (hopen what hwhat) succeeded hw.file

omit henv in
theorem setLogStr_tidy {filename : Bytes} (h : chLf ∉ filename) :
    Tidies named (modifySess fun s => { s with logStr := filename }) :=
  keeps_modify fun _ hw => ⟨hw.user, hw.pass, hw.ip, h, hw.home, hw.cwd, hw.name, hw.entry, hw.calls⟩

omit henv in
theorem commandEnd_tidy : Tidies named (commandEnd T env) :=
  get_tidy fun _ _ => bind_tidy (keeps_when (vsfLogDoLog_tidy false)) fun _ =>
    get_tidy fun _ _ => keeps_when (writeExit_tidy (by decide))

/-! ### Paths -/

omit henv in
theorem prependPath_tidy (hroot : chLf ∉ getUserRootDir T) {p : Bytes} (h : chLf ∉ p) :
    TidiesText named (prependPath T p) :=
  get_tidy fun _ hw => keeps_pure (lf_not_mem_prependSessionPath hroot hw.cwd h)

omit henv in
theorem checkFile_tidy (p : Bytes) : Tidies named (checkFile T p) := get_tidy fun _ _ => pure_tidy _

theorem resolveTildeArg_tidy {p : Bytes} (h : chLf ∉ p) : TidiesText named (resolveTildeArg T env p) :=
  get_tidy fun _ hw => keeps_pure (lf_not_mem_resolveTilde henv hw.home h)

/-! ### The data connection -/

omit henv in
theorem active_tidy : ∀ n, Tidies named (portActive T n) ∧ Tidies named (pasvActive T n)
  | 0 => ⟨by unfold portActive; exact throw_tidy _, by unfold pasvActive; exact throw_tidy _⟩
  | n + 1 => by
    obtain ⟨hport, hpasv⟩ := active_tidy n
    constructor
    · unfold portActive
      refine get_tidy fun w _ => keeps_ite (pure_tidy _) (bind_tidy hpasv fun _ => ?_)
      exact keeps_ite (throw_tidy _) (pure_tidy _)
    · unfold pasvActive
      refine bind_tidy (onBroker_tidy _ _ _) fun ret => keeps_ite (pure_tidy _) (bind_tidy hport fun _ => ?_)
      exact keeps_ite (throw_tidy _) (pure_tidy _)

omit henv in
theorem portOrPasvActive_tidy : Tidies named (portOrPasvActive T) :=
  bind_tidy (active_tidy _).2 fun _ => keeps_ite (pure_tidy _) (active_tidy _).1

omit henv in
theorem portCleanup_tidy : Tidies named portCleanup := modifySess_tidy fun _ => rfl

omit henv in
theorem pasvCleanup_tidy : Tidies named (pasvCleanup T env) :=
  get_tidy fun _ _ => bind_tidy (onBroker_tidy _ _ _) fun _ => tick_tidy

omit henv in
theorem transferCleanup_tidy : Tidies named (transferCleanup T env) :=
  bind_tidy portCleanup_tidy fun _ => pasvCleanup_tidy

theorem dataTransferChecksOk_tidy : Tidies named (dataTransferChecksOk T env) := by
  refine bind_tidy portOrPasvActive_tidy fun active => keeps_ite ?_ (get_tidy fun w _ => keeps_ite ?_ (pure_tidy _))
  · exact bind_tidy (reply_tidy henv (by decide)) fun _ => pure_tidy _
  · exact bind_tidy (reply_tidy henv (by decide)) fun _ => pure_tidy _

omit henv in
theorem startDataAlarm_tidy : Tidies named (startDataAlarm T) := by
  apply modifySess_tidy
  intro s
  split
  · rfl
  · split <;> rfl

omit henv in
theorem initDataSockParams_tidy (fd : Fd) : Tidies named (initDataSockParams T env fd) := by
  have hio : Tidies named vsfSysutilInstallIoHandler :=
    get_tidy fun _ _ => keeps_ite (throw_tidy _) (modifySess_tidy fun _ => rfl)
  refine get_tidy fun w _ => keeps_ite (throw_tidy _) (bind_tidy (modifySess_tidy fun _ => rfl) fun _ => ?_)
  refine keeps_ite (throw_tidy _) (bind_tidy hio fun _ => bind_tidy startDataAlarm_tidy fun _ => ?_)
  exact modify_tidy (fun _ => rfl) (fun _ => rfl) fun _ => rfl

theorem vsfFtpdataioGetPasvFd_tidy : Tidies named (vsfFtpdataioGetPasvFd T env) := by
  have hget : Tidies named (getPasvFd T env) :=
    bind_tidy (onBroker_tidy _ _ _) fun _ => bind_tidy (checkPendingActions_tidy henv) fun _ => pure_tidy _
  refine bind_tidy hget fun conn => ?_
  cases conn with
  | error e =>
    refine bind_tidy (reply_tidy henv ?_) fun _ => pure_tidy _
    split <;> decide
  | ok fd => exact bind_tidy (initDataSockParams_tidy fd) fun _ => pure_tidy _

theorem vsfFtpdataioGetPortFd_tidy : Tidies named (vsfFtpdataioGetPortFd T env) := by
  have hconnect : Tidies named (connectDataSock T env) := by
    refine get_tidy fun w _ => ?_
    cases w.sess.portSockaddr with
    | none => exact throw_tidy _
    | some addr => exact keeps_ite (onOwn_tidy _) (onParent_tidy _ _ _)
  have hget : Tidies named (getPrivDataSock T env) :=
    bind_tidy hconnect fun _ => bind_tidy (checkPendingActions_tidy henv) fun _ => pure_tidy _
  refine bind_tidy hget fun sock => ?_
  cases sock with
  | none => exact bind_tidy (reply_tidy henv (by decide)) fun _ => pure_tidy _
  | some fd => exact bind_tidy (initDataSockParams_tidy fd) fun _ => pure_tidy _

theorem vsfFtpdataioPostMarkConnect_tidy : Tidies named (vsfFtpdataioPostMarkConnect T env) := by
  have hlog : Tidies named (vsfLogDebug env.sslHandshakeLog) := vsfLogDebug_tidy henv.sslHandshakeLog
  have hssl : Tidies named (sslAccept env) :=
    get_tidy fun _ _ => keeps_ite (throw_tidy _) (bind_tidy hlog fun _ =>
      bind_tidy (modifySess_tidy fun _ => rfl) fun _ => pure_tidy _)
  have hhandshake : ∀ own : Bool, Tidies named (dataHandshake T env own) := fun own =>
    keeps_ite hssl (bind_tidy hlog fun _ => bind_tidy (checkPendingActions_tidy henv) fun _ => pure_tidy _)
  have hanswer : ∀ ret : Bool, Tidies named (handshakeAnswer T env ret) := by
    intro ret
    refine keeps_ite (pure_tidy _) (keeps_ite (writeExit_tidy (by decide)) ?_)
    exact bind_tidy (reply_tidy henv (by decide)) fun _ => pure_tidy _
  rw [vsfFtpdataioPostMarkConnect_eq]
  exact get_tidy fun w _ => keeps_ite (pure_tidy _) (bind_tidy (hhandshake _) hanswer)

theorem disposeSsl_tidy : Tidies named (disposeSsl T env) := by
  have hlog : Tidies named (vsfLogDebug env.sslCloseLog) := vsfLogDebug_tidy henv.sslCloseLog
  refine get_tidy fun w _ => keeps_ite ?_ (keeps_ite ?_ (pure_tidy _))
  · refine bind_tidy startDataAlarm_tidy fun _ => bind_tidy hlog fun _ => ?_
    exact bind_tidy (checkPendingActions_tidy henv) fun _ => pure_tidy _
  · refine bind_tidy startDataAlarm_tidy fun _ => bind_tidy hlog fun _ => ?_
    exact bind_tidy (modifySess_tidy fun _ => rfl) fun _ => pure_tidy _

theorem vsfFtpdataioDisposeTransferFd_tidy : Tidies named (vsfFtpdataioDisposeTransferFd T env) := by
  have hio : Tidies named vsfSysutilUninstallIoHandler :=
    get_tidy fun _ _ => keeps_ite (modifySess_tidy fun _ => rfl) (throw_tidy _)
  refine get_tidy fun w _ => keeps_ite (throw_tidy _) (bind_tidy hio fun _ => ?_)
  refine bind_tidy (disposeSsl_tidy henv) fun closed => get_tidy fun w _ => bind_tidy (keeps_when ?_) fun _ => ?_
  · exact bind_tidy startDataAlarm_tidy fun _ => keeps_ite (pure_tidy _) (throw_tidy _)
  · exact bind_tidy (modifySess_tidy fun _ => rfl) fun _ => get_tidy fun _ _ => pure_tidy _

theorem getRemoteTransferFd_tidy {msg : Bytes} (h : chLf ∉ msg) : Tidies named (getRemoteTransferFd T env msg) := by
  have hmark : Tidies named (markTransfer T env msg) := by
    refine bind_tidy (writeStr_tidy henv h) fun _ => ?_
    refine bind_tidy (vsfFtpdataioPostMarkConnect_tidy henv) fun ok => keeps_ite (pure_tidy _) ?_
    exact bind_tidy (vsfFtpdataioDisposeTransferFd_tidy henv) fun _ => pure_tidy _
  have hconnect : ∀ pasv : Bool, Tidies named (connectTransfer T env pasv) := fun _ =>
    keeps_ite (vsfFtpdataioGetPasvFd_tidy henv) (vsfFtpdataioGetPortFd_tidy henv)
  rw [getRemoteTransferFd_eq]
  refine bind_tidy portOrPasvActive_tidy fun active => keeps_ite (throw_tidy _) ?_
  refine bind_tidy (modifySess_tidy fun _ => rfl) fun _ => bind_tidy (active_tidy _).2 fun pasv => ?_
  exact bind_tidy (hconnect pasv) fun _ => keeps_ite (pure_tidy _) hmark

theorem checkAbor_tidy : Tidies named (checkAbor T env) :=
  get_tidy fun _ _ => keeps_when (bind_tidy (modifySess_tidy fun _ => rfl) fun _ => reply_tidy henv (by decide))

/-! ### Transfers -/

theorem ftpReadData_tidy (chunkSize : ℕ) : Tidies named (ftpReadData T env chunkSize) := by
  refine get_tidy fun _ _ => bind_tidy (interrupted_tidy henv _) fun _ => get_tidy fun w0 _ => bind_tidy ?_ fun _ => ?_
  · refine modify_tidy (fun _ => rfl) (fun _ => rfl) fun w => ?_
    unfold World.took
    rw [logCalls_append]
    exact List.append_nil _
  · refine bind_tidy (handleIo_tidy _) fun _ => bind_tidy (checkPendingActions_tidy henv) fun _ => ?_
    refine bind_tidy (keeps_when (vsfLogDebug_tidy (List.forall_mem_singleton.mpr ?_))) fun _ => pure_tidy _
    decide

theorem doFileRecv_tidy (file : Inode.OpenFile) (isAscii : Bool) (haveRecvLen : ℕ) :
    Tidies named (doFileRecv T env file isAscii haveRecvLen) := by
  have hwrite : ∀ file buf, Tidies named (vsfSysutilWriteLoop T env file buf) := fun file buf =>
    get_tidy fun _ _ => bind_tidy (modify_tidy (fun _ => rfl) (fun _ => rfl) fun _ => rfl) fun _ =>
      bind_tidy (checkPendingActions_tidy henv) fun _ => pure_tidy _
  have hchunk : ∀ st buf, Tidies named (recvChunk T env isAscii haveRecvLen st buf) := fun st buf =>
    keeps_ite (pure_tidy _) (bind_tidy (hwrite _ _) fun r => keeps_ite (pure_tidy _) (pure_tidy _))
  have hiter : ∀ st, Tidies named (recvIter T env isAscii haveRecvLen st) := by
    intro st
    refine bind_tidy (ftpReadData_tidy henv _) fun read => ?_
    cases read with
    | none => exact pure_tidy _
    | some buf => exact keeps_ite (pure_tidy _) (hchunk st buf)
  have hloop : ∀ n st, Tidies named (recvLoop T env isAscii haveRecvLen n st) := by
    intro n
    induction n with
    | zero => exact fun _ => pure_tidy _
    | succ n ih =>
      intro st
      refine bind_tidy (hiter st) fun r => ?_
      cases r with
      | inl st => exact ih st
      | inr ret => exact pure_tidy _
  refine get_tidy fun w _ => bind_tidy (hloop _ _) fun r => ?_
  cases r with
  | inl st => exact throw_tidy _
  | inr ret => exact pure_tidy _

theorem ftpWriteData_tidy (buf : Bytes) : Tidies named (ftpWriteData T env buf) :=
  get_tidy fun _ _ => bind_tidy (modify_tidy (fun _ => rfl) (fun _ => rfl) fun _ => rfl) fun _ =>
    bind_tidy (emit_tidy rfl) fun _ => bind_tidy (checkPendingIo_tidy henv _) fun _ => pure_tidy _

theorem doFileSendRwloop_tidy (hnamed : named) (path : Bytes) (isAscii : Bool) (offset size : ℕ) :
    Tidies named (doFileSendRwloop T env path isAscii offset size) := by
  have hdownload : ∀ path offset len call, Tidies named (fileDownload env path offset len call) := by
    intro path offset len call
    refine bind_tidy (emit_tidy rfl) fun _ => bind_tidy (keeps_when ?_) fun _ => pure_tidy _
    exact vsfLogLine_tidy (fun _ => hnamed) (List.not_mem_append (by decide) (lf_not_mem_intText _))
  refine bind_tidy (keeps_iff_within.mpr (sendLoop_within ?_ ?_ _ _ _ _)) fun r => ?_
  · exact fun _ _ _ => keeps_iff_within.mp (hdownload _ _ _ _)
  · exact fun buf => keeps_iff_within.mp (ftpWriteData_tidy henv buf)
  · cases r with
    | inl st => exact throw_tidy _
    | inr ret => exact pure_tidy _

/-! ### STOR -/

theorem cosUnlink_tidy (path : Bytes) : Tidies named (cosUnlink T env path) := by
  refine get_tidy fun w _ => bind_tidy (emit_tidy rfl) fun _ => keeps_ite (pure_tidy _) (keeps_ite (pure_tidy _) ?_)
  exact bind_tidy (vsfLogLine_tidy (fun h => by cases h) (henv.respmsg 0)) fun _ => pure_tidy _

theorem cosUploadFile_tidy (hnamed : named) (srcPath path : Bytes) : Tidies named (cosUploadFile T env srcPath path) := by
  have htry : ∀ i, Tidies named (fileUpload T env srcPath path i) := fun i =>
    get_tidy fun w _ => bind_tidy (emit_tidy rfl) fun _ =>
      bind_tidy (keeps_when (vsfLogLine_tidy (fun _ => hnamed) (henv.respmsg i))) fun _ => pure_tidy _
  exact bind_tidy (htry 0) fun _ => keeps_ite (pure_tidy _) (htry 1)

omit henv in
theorem strUnlink_tidy (path : Bytes) : Tidies named (strUnlink env path) := by
  refine modify_tidy ?_ ?_ ?_ <;> intro w <;> split <;> rfl

omit henv in
theorem orDie_tidy (ok : Bool) (what : String) : Tidies named (orDie ok what) := keeps_ite (pure_tidy ()) (throw_tidy _)

omit henv in
theorem uploadCleanup_tidy (filename : Bytes) (pasvCleaned success : Bool) :
    Tidies named (uploadCleanup T env filename pasvCleaned success) := by
  refine bind_tidy portCleanup_tidy fun _ => bind_tidy (keeps_when pasvCleanup_tidy) fun _ => ?_
  exact bind_tidy (keeps_when (strUnlink_tidy _)) fun _ => orDie_tidy _ _

theorem uploadResult_tidy (hnamed : named) (arg : Bytes) {filename : Bytes} (hfilename : chLf ∉ filename) (retval : ℤ) :
    Tidies named (uploadResult T env arg filename retval) := by
  unfold uploadResult uploadToCos
  refine keeps_ite ?_ (keeps_ite ?_ (keeps_ite ?_ (keeps_ite ?_ (pure_tidy _))))
  · exact bind_tidy (reply_tidy henv (by decide)) fun _ => pure_tidy _
  · exact get_tidy fun _ _ => bind_tidy (keeps_when (reply_tidy henv (by decide))) fun _ => pure_tidy _
  · refine bind_tidy (writeStr_tidy henv ?_) fun _ => bind_tidy (strUnlink_tidy _) fun _ => pure_tidy _
    exact List.not_mem_append (List.not_mem_append (by decide) (lf_not_mem_ulongText _)) (by decide)
  · have hsuccess : chLf ∉ filename ++ text "  Receive success." := List.not_mem_append hfilename (by decide)
    refine bind_tidy portCleanup_tidy fun _ => ?_
    refine bind_tidy (vsfLogDebug_tidy (List.forall_mem_singleton.mpr hsuccess)) fun _ => ?_
    refine bind_tidy (cosUploadFile_tidy henv hnamed _ _) fun ok => keeps_ite ?_ ?_
    · exact bind_tidy (reply_tidy henv (by decide)) fun _ => pure_tidy _
    · refine bind_tidy (vsfLogDoLog_tidy true) fun _ => bind_tidy (writeStr_tidy henv (by decide)) fun _ => ?_
      exact bind_tidy (strUnlink_tidy _) fun _ => pure_tidy _

theorem uploadTransfer_tidy (hnamed : named) (arg : Bytes) {filename : Bytes} (hfilename : chLf ∉ filename)
    (file : Inode.OpenFile) (haveRecvLen : ℕ) :
    Tidies named (uploadTransfer T env arg filename file haveRecvLen) := by
  refine bind_tidy (getRemoteTransferFd_tidy henv (by decide)) fun connected => keeps_ite (uploadCleanup_tidy _ _ _) ?_
  refine bind_tidy pasvCleanup_tidy fun _ => get_tidy fun w _ => bind_tidy (doFileRecv_tidy henv _ _ _) fun ret => ?_
  refine bind_tidy (vsfFtpdataioDisposeTransferFd_tidy henv) fun disposed => bind_tidy (modifySess_tidy fun _ => rfl) fun _ => ?_
  refine bind_tidy (uploadResult_tidy henv hnamed _ hfilename _) fun success => ?_
  exact bind_tidy (checkAbor_tidy henv) fun _ => uploadCleanup_tidy _ _ _

theorem uploadOpened_tidy (hnamed : named) (arg : Bytes) {filename : Bytes} (hfilename : chLf ∉ filename)
    (offset : ℕ) (file : Inode.OpenFile) (fileLen : ℕ) :
    Tidies named (uploadOpened T env arg filename offset file fileLen) := by
  have hchown : Tidies named (chownUpload T env) :=
    get_tidy fun _ _ => keeps_when (bind_tidy (orDie_tidy _ _) fun _ => onBroker_tidy _ _ _)
  have hlock : Tidies named (lockUpload T env) := by
    refine keeps_ite (get_tidy fun _ _ => ?_) (pure_tidy _)
    exact bind_tidy (interrupted_tidy henv _) fun _ => bind_tidy (checkPendingActions_tidy henv) fun _ => pure_tidy _
  have htruncate : Tidies named (truncateUpload env file) :=
    bind_tidy (orDie_tidy _ _) fun _ =>
      bind_tidy (modify_tidy (fun _ => rfl) (fun _ => rfl) fun _ => rfl) fun _ => orDie_tidy _ _
  refine bind_tidy hchown fun _ => bind_tidy hlock fun locked => keeps_ite ?_ (keeps_ite ?_ (keeps_ite ?_ ?_))
  · exact bind_tidy (reply_tidy henv (by decide)) fun _ => uploadCleanup_tidy _ _ _
  · exact bind_tidy (keeps_when htruncate) fun _ => uploadTransfer_tidy henv hnamed _ hfilename _ _
  · refine bind_tidy (reply_tidy henv (by decide)) fun _ => ?_
    exact bind_tidy (cosUnlink_tidy henv _) fun _ => uploadCleanup_tidy _ _ _
  · exact bind_tidy (orDie_tidy _ _) fun _ => uploadTransfer_tidy henv hnamed _ hfilename _ _

theorem handleUploadCommon_tidy (hnamed : named) (hroot : chLf ∉ getUserRootDir T) {arg : Bytes} (harg : chLf ∉ arg) :
    Tidies named (handleUploadCommon T env arg) := by
  have hcreate : ∀ exclusive path, Tidies named (strCreate env exclusive path) := by
    intro exclusive path
    refine get_tidy fun w _ => bind_tidy (emit_tidy rfl) fun _ => keeps_ite (pure_tidy _) (bind_tidy ?_ fun _ => pure_tidy _)
    exact modify_tidy (fun _ => rfl) (fun _ => rfl) fun _ => rfl
  have hchecked : ∀ arg filename offset, chLf ∉ filename → Tidies named (uploadChecked T env arg filename offset) := by
    intro arg filename offset hfilename
    refine bind_tidy (checkFile_tidy _) fun allowed => keeps_ite (reply_tidy henv (by decide)) ?_
    refine get_tidy fun w _ => bind_tidy (hcreate _ _) fun file => ?_
    cases file with
    | none => exact reply_tidy henv (by decide)
    | some file => exact get_tidy fun _ _ => uploadOpened_tidy henv hnamed _ hfilename _ _ _
  refine get_tidy fun w _ => bind_tidy (modifySess_tidy fun _ => rfl) fun _ => ?_
  refine bind_tidy (dataTransferChecksOk_tidy henv) fun ok => keeps_ite (pure_tidy _) ?_
  refine keeps_bind (resolveTildeArg_tidy henv harg) fun arg harg => ?_
  refine keeps_bind (prependPath_tidy hroot harg) fun filename hfilename => ?_
  refine bind_tidy (vsfLogStartEntry_tidy fun _ => hnamed) fun _ => ?_
  exact bind_tidy (setLogStr_tidy hfilename) fun _ => hchecked _ _ _ hfilename

/-! ### RETR and listings -/

theorem cosStatFile_tidy (path : Bytes) : Tidies named (cosStatFile T env path) :=
  get_tidy fun _ _ => asked_tidy henv.fileStatRespmsg _ _ _

theorem handleRetr_tidy (hnamed : named) (hroot : chLf ∉ getUserRootDir T) {arg : Bytes} (harg : chLf ∉ arg) :
    Tidies named (handleRetr T env arg) := by
  have hreply : ∀ retval, Tidies named (retrReply T env retval) := by
    intro retval
    refine keeps_ite (reply_tidy henv (by decide)) (keeps_ite ?_ (reply_tidy henv (by decide)))
    exact get_tidy fun _ _ => keeps_when (reply_tidy henv (by decide))
  have hresult : ∀ ret disposed, Tidies named (retrResult T env ret disposed) := by
    intro ret disposed
    refine bind_tidy (modifySess_tidy fun _ => rfl) fun _ => bind_tidy (keeps_when (vsfLogDoLog_tidy true)) fun _ => ?_
    exact bind_tidy (hreply _) fun _ => checkAbor_tidy henv
  have htransfer : ∀ arg offset size, chLf ∉ arg → Tidies named (retrTransfer T env arg offset size) := by
    intro arg offset size harg
    refine get_tidy fun w _ => bind_tidy (getRemoteTransferFd_tidy henv (lf_not_mem_retrMark _ harg _)) fun connected => ?_
    refine keeps_ite transferCleanup_tidy (bind_tidy (doFileSendRwloop_tidy henv hnamed _ _ _ _) fun ret => ?_)
    refine bind_tidy (vsfFtpdataioDisposeTransferFd_tidy henv) fun disposed => ?_
    exact bind_tidy (hresult _ _) fun _ => transferCleanup_tidy
  have hchecked : ∀ arg offset, chLf ∉ arg → Tidies named (retrChecked T env arg offset) := by
    intro arg offset harg
    refine bind_tidy (checkFile_tidy _) fun allowed => keeps_ite (reply_tidy henv (by decide)) ?_
    refine bind_tidy (cosStatFile_tidy henv _) fun size => ?_
    cases size with
    | none => exact reply_tidy henv (by decide)
    | some size => exact htransfer _ _ _ harg
  refine get_tidy fun w _ => bind_tidy (modifySess_tidy fun _ => rfl) fun _ => ?_
  refine bind_tidy (dataTransferChecksOk_tidy henv) fun ok => keeps_ite (pure_tidy _) (keeps_ite (reply_tidy henv (by decide)) ?_)
  refine keeps_bind (resolveTildeArg_tidy henv harg) fun arg harg => ?_
  refine bind_tidy (vsfLogStartEntry_tidy fun _ => hnamed) fun _ => ?_
  refine keeps_bind (prependPath_tidy hroot harg) fun filename hfilename => ?_
  exact bind_tidy (setLogStr_tidy hfilename) fun _ => hchecked _ _ harg

theorem handleSize_tidy {arg : Bytes} (harg : chLf ∉ arg) : Tidies named (handleSize T env arg) := by
  refine keeps_bind (resolveTildeArg_tidy henv harg) fun arg _ => bind_tidy (checkFile_tidy _) fun allowed => ?_
  refine keeps_ite (reply_tidy henv (by decide)) (bind_tidy (cosStatFile_tidy henv _) fun size => ?_)
  cases size with
  | none => exact reply_tidy henv (by decide)
  | some size => exact writeStr_tidy henv (lf_not_mem_ulongText _)

theorem cosDirIsempty_tidy (path : Bytes) : Tidies named (cosDirIsempty T env path) :=
  get_tidy fun _ _ => asked_tidy henv.folderListRespmsg _ _ _

theorem cosIsdir_tidy (path : Bytes) : Tidies named (cosIsdir T env path) := by
  refine bind_tidy ?_ fun isDir => keeps_ite (pure_tidy _) ?_
  · exact get_tidy fun _ _ => asked_tidy henv.folderStatRespmsg _ _ _
  · exact bind_tidy (cosDirIsempty_tidy henv path) fun _ => pure_tidy _

omit henv in
theorem transferDirInternal_tidy {write : Bytes → M Bool} (hwrite : ∀ str, Tidies named (write str))
    {respmsgs : List Bytes} (hresp : ∀ msg ∈ respmsgs, chLf ∉ cstr msg) (lines : List Bytes) :
    Tidies named (transferDirInternal write respmsgs lines) := by
  refine bind_tidy (vsfLogDebug_tidy (List.forall_mem_map.mpr hresp)) fun _ => ?_
  exact keeps_iff_within.mpr (writeDirList_within (fun str => keeps_iff_within.mp (hwrite str)) _ _)

theorem listTransfer_tidy {respmsgs : List Bytes} (hresp : ∀ msg ∈ respmsgs, chLf ∉ cstr msg) (lines : List Bytes) :
    Tidies named (listTransfer T env respmsgs lines) := by
  have hwrite : ∀ str, Tidies named (ftpWriteStrData T env str) := fun str =>
    bind_tidy (ftpWriteData_tidy henv str) fun _ => pure_tidy _
  have hreply : ∀ sent disposed, Tidies named (dirReply T env sent disposed) := fun sent disposed =>
    get_tidy fun _ _ => keeps_ite (keeps_when (reply_tidy henv (by decide))) (reply_tidy henv (by decide))
  refine bind_tidy (getRemoteTransferFd_tidy henv (by decide)) fun connected => keeps_ite transferCleanup_tidy ?_
  refine bind_tidy (transferDirInternal_tidy hwrite hresp _) fun sent => ?_
  refine bind_tidy (vsfFtpdataioDisposeTransferFd_tidy henv) fun disposed => bind_tidy ?_ fun _ => transferCleanup_tidy
  exact bind_tidy (hreply _ _) fun _ => checkAbor_tidy henv

theorem statTransfer_tidy {respmsgs : List Bytes} (hresp : ∀ msg ∈ respmsgs, chLf ∉ cstr msg) (lines : List Bytes) :
    Tidies named (statTransfer T env respmsgs lines) := by
  have hwrite : ∀ str, Tidies named (ftpWriteStrControl T env str) := fun str =>
    get_tidy fun _ _ => bind_tidy (keeps_when (emit_tidy rfl)) fun _ =>
      bind_tidy (checkPendingActions_tidy henv) fun _ => pure_tidy _
  refine bind_tidy (hyphen_tidy henv (by decide)) fun _ => ?_
  refine bind_tidy (transferDirInternal_tidy hwrite hresp _) fun _ => ?_
  exact bind_tidy (reply_tidy henv (by decide)) fun _ => checkAbor_tidy henv

/-- The lines of a listing are not logged, so the files may have any name. -/
theorem handleDirCommon_tidy (fullDetails statCmd : Bool) {arg : Bytes} (harg : chLf ∉ arg) :
    Tidies named (handleDirCommon T env fullDetails statCmd arg) := by
  have htransfer : ∀ dir option filter, Tidies named (dirTransfer T env fullDetails statCmd dir option filter) :=
    fun _ _ _ => keeps_ite (statTransfer_tidy henv (henv.dirRespmsgs _ _ _ _) _)
      (listTransfer_tidy henv (henv.dirRespmsgs _ _ _ _) _)
  have hlists : ∀ filter, Tidies named (listsDirectory T env statCmd filter) := fun filter =>
    keeps_ite (pure_tidy _) (cosIsdir_tidy henv filter)
  have hfilter : chLf ∉ (splitListArg arg).2 := by
    unfold splitListArg
    split
    · exact fun h => harg ((List.drop_subset _ _) ((strSplitChar_subset _ _).2 h))
    · exact harg
  refine bind_tidy (keeps_ite (pure_tidy _) (dataTransferChecksOk_tidy henv)) fun ok => keeps_ite (pure_tidy _) ?_
  refine keeps_ite (htransfer _ _ _) ?_
  refine keeps_bind (resolveTildeArg_tidy henv hfilter) fun filter _ => bind_tidy (checkFile_tidy _) fun allowed => ?_
  exact keeps_ite (reply_tidy henv (by decide)) (bind_tidy (hlists _) fun isDir => htransfer _ _ _)

/-! ### The other commands -/

theorem bannerWrite_tidy (code : ℕ) {lines : List Bytes} (h : ∀ line ∈ lines, chLf ∉ line) :
    Tidies named (vsfBannerWrite T env code lines) := by
  induction lines with
  | nil => exact pure_tidy _
  | cons line lines ih =>
    obtain ⟨hline, hlines⟩ := List.forall_mem_cons.mp h
    exact bind_tidy (hyphen_tidy henv hline) fun _ => ih hlines

theorem banner_tidy (code : ℕ) : Tidies named (vsfBannerDirChanged T env code) := by
  refine get_tidy fun w _ => keeps_when (bind_tidy (keeps_when (modifySess_tidy fun _ => rfl)) fun _ => ?_)
  exact bannerWrite_tidy henv code henv.messageFile

theorem handleCwd_tidy (hroot : chLf ∉ getUserRootDir T) {arg : Bytes} (harg : chLf ∉ arg) :
    Tidies named (handleCwd T env arg) := by
  have hchdir : ∀ path i, chLf ∉ path → Tidies named (strChdir env path i) := by
    intro path i hpath
    refine bind_tidy (keeps_when (keeps_modify fun w hw => ?_)) fun _ => pure_tidy _
    exact ⟨hw.user, hw.pass, hw.ip, hw.file, hw.home, lf_not_mem_path_resolve hpath, hw.name, hw.entry, hw.calls⟩
  have henter : ∀ path, chLf ∉ path → Tidies named (enterDirectory env path) := fun path hpath =>
    bind_tidy (hchdir _ _ hpath) fun _ => keeps_ite (pure_tidy _) (keeps_ite (hchdir _ _ hpath) (pure_tidy _))
  have hchange : ∀ arg, chLf ∉ arg → Tidies named (changeDirectory T env arg) := fun arg harg =>
    bind_tidy (cosIsdir_tidy henv _) fun _ => keeps_bind (prependPath_tidy hroot harg) fun path hpath =>
      keeps_ite (henter path hpath) (pure_tidy _)
  have hreply : ∀ changed, Tidies named (cwdReply T env changed) := fun changed =>
    keeps_ite (bind_tidy (banner_tidy henv _) fun _ => reply_tidy henv (by decide)) (reply_tidy henv (by decide))
  refine keeps_bind (resolveTildeArg_tidy henv harg) fun arg harg => bind_tidy (checkFile_tidy _) fun allowed => ?_
  exact keeps_ite (reply_tidy henv (by decide)) (bind_tidy (hchange _ harg) fun _ => hreply _)

theorem handlePwd_tidy : Tidies named (handlePwd T env) := by
  refine get_tidy fun w hw => writeStr_tidy henv ?_
  have hdir : chLf ∉ strSessionGetcwd T w.cwd.path := lf_not_mem_strReplaceText hw.cwd List.not_mem_nil
  refine List.not_mem_append (List.not_mem_append (by decide) (lf_not_mem_strReplaceText ?_ (by decide))) (by decide)
  split
  · decide
  · exact hdir

theorem handlePasv_tidy (isEpsv : Bool) (arg : Bytes) : Tidies named (handlePasv T env isEpsv arg) := by
  have haddr : ∀ localAddr, Tidies named (pasvSockaddr T env localAddr) := by
    intro localAddr
    unfold pasvSockaddr
    split
    · exact pure_tidy _
    · split
      · exact throw_tidy _
      · exact pure_tidy _
  have hpassive : Tidies named (enterPassive T env isEpsv) := by
    refine bind_tidy pasvCleanup_tidy fun _ => bind_tidy portCleanup_tidy fun _ => bind_tidy (onBroker_tidy _ _ _) fun port => ?_
    refine keeps_ite (writeStr_tidy henv ?_) (get_tidy fun w _ => bind_tidy (haddr _) fun addr => ?_)
    · exact List.not_mem_append (List.not_mem_append (by decide) (lf_not_mem_ulongText _)) (by decide)
    · exact writeStr_tidy henv (lf_not_mem_pasvReply _ _ _)
  refine get_tidy fun w _ => keeps_ite (bind_tidy (modifySess_tidy fun _ => rfl) fun _ => reply_tidy henv (by decide)) ?_
  exact keeps_ite (reply_tidy henv (by decide)) hpassive

/-- What PORT and EPRT end in. -/
theorem storePortSockaddr_tidy (addr : Sockaddr) (port : UInt16) (code : ℕ) {done illegal : String}
    (hdone : oneLine done = true) (hillegal : oneLine illegal = true) :
    Tidies named (storePortSockaddr T env addr port code done illegal) := by
  refine bind_tidy (modifySess_tidy fun _ => rfl) fun _ => get_tidy fun w _ => keeps_ite ?_ (reply_tidy henv hdone)
  exact bind_tidy (reply_tidy henv hillegal) fun _ => portCleanup_tidy

theorem handlePort_tidy (arg : Bytes) : Tidies named (handlePort T env arg) := by
  refine bind_tidy pasvCleanup_tidy fun _ => bind_tidy portCleanup_tidy fun _ => ?_
  cases parsePortArg arg with
  | none => exact reply_tidy henv (by decide)
  | some found => exact get_tidy fun _ _ => storePortSockaddr_tidy henv _ _ _ (by decide) (by decide)

omit henv in
theorem parseEprtArg_oneLine {stale : RawAddr 16} {isIpv6 : Bool} {arg : Bytes} {msg : String}
    (h : parseEprtArg stale isIpv6 arg = .error msg) : oneLine msg = true := by
  unfold parseEprtArg at h
  dsimp only at h
  split at h
  · cases h
    decide
  · split at h
    · cases h
      decide
    · split at h
      · cases h
        decide
      · split at h
        · cases h
          decide
        · cases h

theorem handleEprt_tidy (arg : Bytes) : Tidies named (handleEprt T env arg) := by
  refine bind_tidy portCleanup_tidy fun _ => bind_tidy pasvCleanup_tidy fun _ => get_tidy fun w _ => ?_
  split
  · rename_i msg hmsg
    exact reply_tidy henv (parseEprtArg_oneLine hmsg)
  · split
    · exact throw_tidy _
    · exact storePortSockaddr_tidy henv _ _ _ (by decide) (by decide)

/-- MKD, RMD and DELE, given their parts behind the access check. -/
theorem logged_tidy {what : LogEntryType} {rest : Bytes → M Unit} (hwhat : vsfLogTypeIsTransfer what = false)
    (hroot : chLf ∉ getUserRootDir T) (hrest : ∀ arg, chLf ∉ arg → Tidies named (rest arg)) {arg : Bytes}
    (harg : chLf ∉ arg) : Tidies named (logged T env what arg rest) := by
  refine keeps_bind (resolveTildeArg_tidy henv harg) fun arg harg => ?_
  refine bind_tidy (vsfLogStartEntry_tidy fun h => by rw [hwhat] at h; cases h) fun _ => ?_
  refine keeps_bind (prependPath_tidy hroot harg) fun filename hfilename => bind_tidy (setLogStr_tidy hfilename) fun _ => ?_
  exact bind_tidy (checkFile_tidy _) fun _ => keeps_ite (reply_tidy henv (by decide)) (hrest _ harg)

theorem mkdChecked_tidy {arg : Bytes} (harg : chLf ∉ arg) : Tidies named (mkdChecked T env arg) := by
  have hmkdir : Tidies named (cosMkdir T env arg) := by
    refine get_tidy fun w _ => bind_tidy (emit_tidy rfl) fun _ => keeps_ite (pure_tidy _) ?_
    exact bind_tidy (vsfLogLine_tidy (fun h => by cases h) (henv.respmsg 0)) fun _ => pure_tidy _
  refine bind_tidy hmkdir fun retval => keeps_ite (reply_tidy henv (by decide)) (keeps_ite (reply_tidy henv (by decide)) ?_)
  refine bind_tidy (vsfLogDoLog_tidy true) fun _ => writeStr_tidy henv ?_
  exact List.not_mem_append (List.not_mem_append (by decide) (lf_not_mem_strReplaceText harg (by decide))) (by decide)

theorem rmdChecked_tidy (arg : Bytes) : Tidies named (rmdChecked T env arg) := by
  have hrmdir : Tidies named (cosRmdir T env arg) := by
    refine get_tidy fun w _ => bind_tidy (emit_tidy rfl) fun _ => keeps_ite (pure_tidy _) (keeps_ite (pure_tidy _) ?_)
    exact bind_tidy (vsfLogLine_tidy (fun h => by cases h) (henv.respmsg 0)) fun _ => pure_tidy _
  refine bind_tidy (cosDirIsempty_tidy henv arg) fun retval => keeps_ite (reply_tidy henv (by decide)) (keeps_ite (reply_tidy henv (by decide)) ?_)
  refine bind_tidy hrmdir fun retval => keeps_ite (reply_tidy henv (by decide)) (keeps_ite (reply_tidy henv (by decide)) ?_)
  exact bind_tidy (vsfLogDoLog_tidy true) fun _ => reply_tidy henv (by decide)

theorem deleChecked_tidy (arg : Bytes) : Tidies named (deleChecked T env arg) := by
  refine bind_tidy (cosUnlink_tidy henv arg) fun retval => ?_
  refine keeps_ite (reply_tidy henv (by decide)) (keeps_ite (reply_tidy henv (by decide)) ?_)
  exact bind_tidy (vsfLogDoLog_tidy true) fun _ => reply_tidy henv (by decide)

theorem handleType_tidy (arg : Bytes) : Tidies named (handleType T env arg) :=
  keeps_ite (bind_tidy (modifySess_tidy fun _ => rfl) fun _ => reply_tidy henv (by decide))
    (keeps_ite (bind_tidy (modifySess_tidy fun _ => rfl) fun _ => reply_tidy henv (by decide)) (reply_tidy henv (by decide)))

theorem handleRest_tidy (arg : Bytes) : Tidies named (handleRest T env arg) := by
  refine bind_tidy (modifySess_tidy fun _ => rfl) fun _ => writeStr_tidy henv ?_
  exact List.not_mem_append (List.not_mem_append (by decide) (lf_not_mem_ulongText _)) (by decide)

theorem handlePbsz_tidy : Tidies named (handlePbsz T env) :=
  get_tidy fun _ _ => keeps_ite (reply_tidy henv (by decide)) (reply_tidy henv (by decide))

theorem handleProt_tidy (arg : Bytes) : Tidies named (handleProt T env arg) := by
  refine get_tidy fun w _ => keeps_ite (reply_tidy henv (by decide)) (keeps_ite ?_ (keeps_ite ?_ ?_))
  · exact bind_tidy (modifySess_tidy fun _ => rfl) fun _ => reply_tidy henv (by decide)
  · exact bind_tidy (modifySess_tidy fun _ => rfl) fun _ => reply_tidy henv (by decide)
  · exact keeps_ite (reply_tidy henv (by decide)) (reply_tidy henv (by decide))

theorem handleOpts_tidy (arg : Bytes) : Tidies named (handleOpts T env arg) :=
  keeps_ite (reply_tidy henv (by decide)) (reply_tidy henv (by decide))

/-- HELP, FEAT and STAT, if the protocol is not logged. -/
theorem hyphened_tidy (hlog : T.logFtpProtocol = false) (code : ℕ) {first last : String} (hfirst : oneLine first = true)
    (hlast : oneLine last = true) (lines : List Bytes) :
    Tidies named (do
      vsfCmdioWriteHyphen T env code first
      writeRaws T env lines
      vsfCmdioWrite T env code last) := by
  have hraws : ∀ lines, Tidies named (writeRaws T env lines) := by
    intro lines
    induction lines with
    | nil => exact pure_tidy _
    | cons line lines ih => exact bind_tidy (raw_tidy henv hlog line) fun _ => ih
  exact bind_tidy (hyphen_tidy henv (lf_not_mem_text hfirst)) fun _ => bind_tidy (hraws lines) fun _ => reply_tidy henv hlast

theorem handleFeat_tidy (hlog : T.logFtpProtocol = false) : Tidies named (handleFeat T env) :=
  hyphened_tidy henv hlog _ (by decide) (by decide) _

theorem handleLoggedInUser_tidy (arg : Bytes) : Tidies named (handleLoggedInUser T env arg) :=
  get_tidy fun _ _ => keeps_ite (reply_tidy henv (by decide)) (keeps_ite (reply_tidy henv (by decide)) (reply_tidy henv (by decide)))

/-! ### Every command -/

end

/-- The command is answered with lines that have their ends in the text. -/
def AnswersRaw (cmd arg : Bytes) : Prop :=
  isCmd cmd ["HELP"] = true ∨ isCmd cmd ["FEAT"] = true ∨ isCmd cmd ["STAT"] = true ∧ arg = []

instance (cmd arg : Bytes) : Decidable (AnswersRaw cmd arg) := inferInstanceAs (Decidable (_ ∨ _ ∨ _))

section

variable {T : Tunables} {env : Env} {named : Prop} {s : Session} {cmd arg : Bytes}
  (henv : env.Plain) (hnamed : named) (hroot : chLf ∉ getUserRootDir T) (harg : chLf ∉ arg)
  (hraw : AnswersRaw cmd arg → T.logFtpProtocol = false)

include henv harg hraw

theorem dispatchRest_tidy : Tidies named (dispatchRest T env s cmd arg) := by
  unfold dispatchRest
  refine keeps_cases (fun hcmd => handleFeat_tidy henv (hraw (.inr (.inl hcmd)))) fun _ => ?_
  refine keeps_ite (handleOpts_tidy henv arg) (keeps_cases (fun hcmd => ?_) fun _ => ?_)
  · exact get_tidy fun w _ => hyphened_tidy henv (hraw (.inr (.inr hcmd))) _ (by decide) (by decide) _
  refine keeps_ite (handleDirCommon_tidy henv _ _ harg) (keeps_ite (handlePbsz_tidy henv) ?_)
  refine keeps_ite (handleProt_tidy henv arg) (keeps_ite (handleLoggedInUser_tidy henv arg) ?_)
  refine keeps_ite (reply_tidy henv (by decide)) (keeps_ite (reply_tidy henv (by decide)) (keeps_ite (pure_tidy _) ?_))
  exact keeps_ite (writeExit_tidy (by decide)) (reply_tidy henv (by decide))

theorem dispatchMore_tidy : Tidies named (dispatchMore T env s cmd arg) := by
  have hone : ∀ (known : String) (okCode badCode : ℕ) (done bad : String), oneLine done = true → oneLine bad = true →
      Tidies named (oneArg T env arg known okCode badCode done bad) :=
    fun _ _ _ _ _ hok hbad => keeps_ite (reply_tidy henv hok) (reply_tidy henv hbad)
  unfold dispatchMore
  refine keeps_ite (handleDirCommon_tidy henv _ _ harg) (keeps_ite (handleSize_tidy henv harg) ?_)
  iterate 4
    refine keeps_ite (reply_tidy henv (by decide)) ?_
  refine keeps_ite (handleEprt_tidy henv arg) ?_
  refine keeps_ite (hone _ _ _ _ _ (by decide) (by decide)) (keeps_ite (hone _ _ _ _ _ (by decide) (by decide)) ?_)
  iterate 5
    refine keeps_ite (reply_tidy henv (by decide)) ?_
  exact dispatchRest_tidy henv harg hraw

include hnamed hroot

theorem dispatchWrite_tidy : Tidies named (dispatchWrite T env s cmd arg) := by
  unfold dispatchWrite
  refine keeps_ite (handleUploadCommon_tidy henv hnamed hroot harg) ?_
  refine keeps_ite (logged_tidy henv rfl hroot (fun _ h => mkdChecked_tidy henv h) harg) ?_
  refine keeps_ite (logged_tidy henv rfl hroot (fun _ _ => rmdChecked_tidy henv _) harg) ?_
  refine keeps_ite (logged_tidy henv rfl hroot (fun _ _ => deleChecked_tidy henv _) harg) ?_
  refine keeps_ite (handleRest_tidy henv arg) ?_
  refine keeps_ite (reply_tidy henv (by decide)) (keeps_ite (reply_tidy henv (by decide)) ?_)
  exact dispatchMore_tidy henv harg hraw

/-- Every command keeps a session tidy, if its argument has no LF in it. -/
theorem dispatchCmd_tidy : Tidies named (dispatchCmd T env s cmd arg) := by
  unfold dispatchCmd
  refine keeps_ite (writeExit_tidy (by decide)) (keeps_ite (handlePwd_tidy henv) ?_)
  refine keeps_ite (handleCwd_tidy henv hroot harg) (keeps_ite (handleCwd_tidy henv hroot (by decide)) ?_)
  refine keeps_ite (handlePasv_tidy henv _ arg) (keeps_ite (handlePasv_tidy henv _ arg) ?_)
  refine keeps_ite (handleRetr_tidy henv hnamed hroot harg) ?_
  refine keeps_ite (reply_tidy henv (by decide)) (keeps_ite (reply_tidy henv (by decide)) ?_)
  refine keeps_cases (fun hcmd => hyphened_tidy henv (hraw (.inl hcmd)) _ (by decide) (by decide) _) fun _ => ?_
  refine keeps_ite (handleDirCommon_tidy henv _ _ harg) (keeps_ite (handleType_tidy henv arg) ?_)
  refine keeps_ite (handlePort_tidy henv arg) ?_
  exact dispatchWrite_tidy henv hnamed hroot harg hraw

end

section

variable {T : Tunables} {env : Env} {named : Prop} {cmd arg : Bytes}

theorem dispatch_tidy (henv : env.Plain) (hnamed : named) (hroot : chLf ∉ getUserRootDir T) (harg : chLf ∉ arg)
    (hraw : cmdOk T cmd = true → AnswersRaw cmd arg → T.logFtpProtocol = false) :
    Tidies named (dispatch T env cmd arg) := by
  refine get_tidy fun w _ => keeps_cases (fun _ => reply_tidy henv (by decide)) fun hok => ?_
  exact dispatchCmd_tidy henv hnamed hroot harg (hraw (by simpa using hok))

/-! ### Rounds -/

/-- A round behind the login in which no text with an LF comes in, or is asked for while the protocol is logged. -/
structure RoundPlain (T : Tunables) (env : Env) (line : CtrlLine) : Prop where
  answers : env.Plain
  command : line.Plain
  raw : cmdOk T (lineCommand env line).1 = true → AnswersRaw (lineCommand env line).1 (lineCommand env line).2 →
    T.logFtpProtocol = false

/-- The same before the login, where a password may be anything. -/
structure PreRoundPlain (T : Tunables) (a : PreEnv) : Prop where
  answers : a.env.Plain
  command : a.line.Clean
  sslError : chLf ∉ a.sslError
  sslLog : ∀ msg ∈ a.sslLog, chLf ∉ msg
  raw : isCmd (preCommand a.line).1 ["FEAT"] = true → T.logFtpProtocol = false

theorem vsfCmdioSetAlarm_tidy : Tidies named (vsfCmdioSetAlarm T) := by
  apply modifySess_tidy
  intro s
  split <;> rfl

theorem readCommand_tidy (henv : env.Plain) {line : CtrlLine} (hline : line.Clean) :
    Keeps (Tidy named) (· = preCommand line) (fun _ => Tidy named) (readCommand T env line) :=
  bind_tidy vsfCmdioSetAlarm_tidy fun _ => get_tidy fun _ _ => bind_tidy (interrupted_tidy henv _) fun _ =>
    vsfCmdioGetCmdAndArg_tidy hline

/-- The lines of `cos_conv_gbk_2_utf` have no LF in them. -/
theorem lf_not_mem_cosConvLog (henv : env.Plain) (harg : chLf ∉ arg) : ∀ msg ∈ cosConvLog env arg, chLf ∉ msg := by
  have hdigit : ∀ n : UInt8, n < 16 → (if n < 10 then 48 + n else 87 + n) ≠ chLf := by
    intro n hn h
    have hval := congrArg UInt8.toNat h
    rw [UInt8.lt_iff_toNat_lt] at hn
    change n.toNat < 16 at hn
    split at hval
    · rw [UInt8.toNat_add] at hval
      change (48 + n.toNat) % 256 = 10 at hval
      omega
    · rw [UInt8.toNat_add] at hval
      change (87 + n.toNat) % 256 = 10 at hval
      omega
  have hhex : ∀ s : Bytes, chLf ∉ innerAsc2Bcd s := by
    intro s h
    obtain ⟨b, _, hb⟩ := List.mem_flatMap.mp h
    rcases List.mem_cons.mp hb with hhigh | hlow
    · refine hdigit (b / 16) ?_ hhigh.symm
      rw [UInt8.lt_iff_toNat_lt, UInt8.toNat_div]
      have hb := b.toNat_lt
      change b.toNat / 16 < 16
      omega
    · refine hdigit (b % 16) ?_ (List.mem_singleton.mp hlow).symm
      rw [UInt8.lt_iff_toNat_lt, UInt8.toNat_mod]
      change b.toNat % 16 < 16
      omega
  unfold cosConvLog
  split
  · simp
  · cases htemp : env.codeConvert arg with
    | none => exact List.forall_mem_singleton.mpr (by decide)
    | some temp =>
      have hto := henv.codeConvert arg temp harg htemp
      refine List.forall_mem_cons.mpr ⟨?_, List.forall_mem_singleton.mpr (hhex _)⟩
      exact List.not_mem_append (List.not_mem_append (List.not_mem_append (by decide) harg) (by decide)) hto

theorem lineCommand_eq (env : Env) (line : CtrlLine) :
    lineCommand env line = ((preCommand line).1, cosConvGbk2Utf env (preCommand line).2) := by
  cases line with
  | closed => rfl
  | tooLong => rfl
  | line str => rfl

variable {line : CtrlLine} {w w' : World}

theorem postLoginRound_tidy (hnamed : named) (hroot : chLf ∉ getUserRootDir T) (h : RoundPlain T env line) :
    Tidies named (postLoginRound T env line) := by
  have hraw := h.raw
  rw [lineCommand_eq] at hraw
  refine keeps_bind (readCommand_tidy h.answers (.inl h.command)) fun r hr => ?_
  subst hr
  refine bind_tidy (dispatch_tidy h.answers hnamed hroot ?_ hraw) fun _ => commandEnd_tidy
  exact lf_not_mem_cosConvGbk2Utf h.answers (lf_not_mem_preCommand h.command).2

theorem mem_logCalls_since {c : LogCall} (h : c ∈ logCalls (w.since w')) : c ∈ logCalls w'.events := by
  obtain ⟨e, he, hc⟩ := List.mem_filterMap.mp h
  exact List.mem_filterMap.mpr ⟨e, List.drop_subset _ _ he, hc⟩

/-- All that a round logs is plain. -/
theorem roundLog_plain (hnamed : named) (hroot : chLf ∉ getUserRootDir T) (h : RoundPlain T env line)
    (hw : Tidy named w) : ∀ c ∈ roundLog T env line w, c.Plain := by
  have hread : wp (readCommand T env line) (fun r w' => Tidy named w' ∧ r = preCommand line) (fun _ => Tidy named) w :=
    readCommand_tidy h.answers (.inl h.command) w hw
  have hround : Tidy named (after (postLoginRound T env line) w) :=
    wp_after (wp_mono (postLoginRound_tidy hnamed hroot h w hw) (fun _ _ h => h.1) fun _ _ h => h)
  unfold wp at hread
  unfold roundLog
  cases hx : readCommand T env line w with
  | error e w₁ =>
    rw [hx] at hread
    exact fun c hc => hread.calls c (mem_logCalls_since hc)
  | ok r w₁ =>
    rw [hx] at hread
    obtain ⟨hw₁, rfl⟩ := hread
    have hconv := lf_not_mem_cosConvLog h.answers (lf_not_mem_preCommand h.command).2
    intro c hc
    simp only [List.mem_append, List.mem_map] at hc
    rcases hc with (hc | ⟨msg, hmsg, rfl⟩) | hc
    · exact hw₁.calls c (mem_logCalls_since hc)
    · exact hw₁.plain (fun h => by cases h) true (hconv msg hmsg)
    · exact hround.calls c (mem_logCalls_since hc)

theorem loopLog_plain (hnamed : named) (hroot : chLf ∉ getUserRootDir T) (rounds : List (Env × CtrlLine)) :
    ∀ w, Tidy named w → (∀ r ∈ rounds, RoundPlain T r.1 r.2) → ∀ c ∈ loopLog T rounds w, c.Plain := by
  induction rounds with
  | nil => exact fun _ _ _ _ hc => absurd hc List.not_mem_nil
  | cons r rounds ih =>
    intro w hw hplain c hc
    obtain ⟨hr, hrounds⟩ := List.forall_mem_cons.mp hplain
    rcases List.mem_append.mp hc with hc | hc
    · exact roundLog_plain hnamed hroot hr hw c hc
    · have hround := postLoginRound_tidy hnamed hroot hr w hw
      unfold wp at hround
      cases hx : postLoginRound T r.1 r.2 w with
      | error e w' =>
        rw [hx] at hc
        exact absurd hc List.not_mem_nil
      | ok _ w' =>
        rw [hx] at hc hround
        exact ih w' hround.1 hrounds c hc

theorem postLoginStart_tidy (henv : env.Plain) : Tidies named (postLoginStart T env) := by
  refine bind_tidy (keeps_modify fun w hw => ?_) fun _ => bind_tidy (banner_tidy henv _) fun _ => reply_tidy henv (by decide)
  exact ⟨hw.user, hw.pass, hw.ip, hw.file, hw.cwd, hw.cwd, hw.name, hw.entry, hw.calls⟩

end

/-! ### Before the login -/

/-- A login ends the time before it with a name that is one word. -/
def LoginTidy (e : PreEnd) (s : Pre) : Prop :=
  Tidy False s.world ∧ ∀ r, e = .loggedIn r → chSpace ∉ s.world.sess.userStr

/-- The program keeps a session tidy before its login. -/
abbrev PreTidies {α : Type} (x : PreM α) : Prop := Keeps (fun s => Tidy False s.world) (fun _ => True) LoginTidy x

section

variable {T : Tunables} {a : PreEnv} {α β : Type} {s : Pre} {cmd arg user pass : Bytes}

theorem onWorld_tidy {Q : α → Prop} {x : M α} (h : Keeps (Tidy False) Q (fun _ => Tidy False) x) :
    Keeps (fun s => Tidy False s.world) Q LoginTidy (onWorld x) := by
  intro s hs
  have hx := h s.world hs
  unfold wp at hx
  unfold wp onWorld
  cases hrun : x s.world with
  | ok r w =>
    rw [hrun] at hx
    exact hx
  | error e w =>
    rw [hrun] at hx
    exact ⟨hx, fun r h => by cases h⟩

theorem preGet_tidy {f : Pre → PreM α} (h : ∀ s, PreTidies (f s)) : PreTidies (get >>= f) :=
  keeps_bind keeps_get fun s _ => h s

theorem preBind_tidy {x : PreM α} {f : α → PreM β} (hx : PreTidies x) (hf : ∀ a, PreTidies (f a)) :
    PreTidies (x >>= f) := keeps_bind hx fun a _ => hf a

theorem halt_tidy (e : Halt) : PreTidies (throw (.halt e) : PreM α) :=
  keeps_throw fun _ hs => ⟨hs, fun r h => by cases h⟩

theorem setUser_tidy (huser : chLf ∉ user) : PreTidies (setUser user) :=
  onWorld_tidy (keeps_modify fun _ hw => ⟨huser, hw.pass, hw.ip, hw.file, hw.home, hw.cwd, fun h => h.elim, hw.entry, hw.calls⟩)

variable (henv : a.env.Plain)

include henv

theorem answer_tidy {code : ℕ} {msg : String} (h : oneLine msg = true) : PreTidies (answer T a code msg) :=
  onWorld_tidy (reply_tidy henv h)

omit henv in
theorem checkLoginFails_tidy : PreTidies (checkLoginFails T) := by
  refine preBind_tidy (keeps_modify fun _ hs => hs) fun _ => preGet_tidy fun s => ?_
  exact keeps_ite (halt_tidy _) (keeps_pure trivial)

omit henv in
/-- The name stays as it is too. -/
theorem onWorld_named {C : Halt → Prop} {x : M Unit} (htidy : Tidies False x) (hsame : Within SameUser C x)
    (hs : Tidy False s.world ∧ s.world.sess.userStr = user) :
    wp (onWorld x) (fun _ s' => Tidy False s'.world ∧ s'.world.sess.userStr = user) LoginTidy s := by
  rw [wp_onWorld]
  refine wp_mono (wp_and (htidy s.world hs.1) (hsame s.world)) ?_ ?_
  · intro _ w hw
    exact ⟨hw.1.1, hw.2.1.trans hs.2⟩
  · intro e w hw
    exact ⟨hw.1, fun r h => by cases h⟩

omit henv in
/-- Who logs in has a name that is one word, and an identity that is one. -/
theorem vsfPrivopDoLogin_tidy (hs : Tidy False s.world) :
    wp (vsfPrivopDoLogin T a s.world.sess.userStr pass)
      (fun r s' => Tidy False s'.world ∧ (r ≠ .fail → chSpace ∉ s'.world.sess.userStr)) LoginTidy s := by
  set user := s.world.sess.userStr with huser
  have hlogin : wp (handleLogin T a user pass)
      (fun r s' => (Tidy False s'.world ∧ s'.world.sess.userStr = user) ∧ (r ≠ .fail → chSpace ∉ user)) LoginTidy s := by
    unfold handleLogin
    rw [wp_bind, wp_modify]
    refine wp_cases (fun _ => ⟨⟨hs, rfl⟩, fun h => absurd rfl h⟩) fun hdodgy => ?_
    have hword : chSpace ∉ user := space_not_mem_of_not_dodgy (Bool.eq_false_iff.mpr hdodgy)
    refine wp_cases (fun _ => ?_) fun _ => wp_cases (fun _ => ⟨hs, fun r h => by cases h⟩) fun _ => ?_
    swap
    · rw [wp_localLogin]
      exact ⟨⟨hs, rfl⟩, fun _ => hword⟩
    unfold handleAnonymousLogin
    refine wp_cases (fun _ => ?_) fun _ => ⟨⟨hs, rfl⟩, fun _ => hword⟩
    exact ⟨⟨⟨hs.user, anonIdentity_word pass, hs.ip, hs.file, hs.home, hs.cwd, hs.name, hs.entry, hs.calls⟩, rfl⟩, fun _ => hword⟩
  -- the two calls behind it leave the name alone
  have hlogged : ∀ (r : LoginResult) (s₁ : Pre), Tidy False s₁.world ∧ s₁.world.sess.userStr = user →
      wp (do onWorld (vsfLogStartEntry .login); onWorld (vsfLogDoLog (r ≠ .fail)); pure r : PreM LoginResult)
        (fun r' s' => (Tidy False s'.world ∧ s'.world.sess.userStr = user) ∧ r' = r) LoginTidy s₁ := by
    intro r s₁ hs₁
    have hstart : Within SameUser Halt.Any (vsfLogStartEntry .login) :=
      within_bind within_get fun _ => within_ite (within_throw trivial) (within_modify fun _ => ⟨rfl, rfl⟩)
    have hdone : Within SameUser Halt.Any (vsfLogDoLog (r ≠ .fail)) :=
      within_bind within_get fun _ => within_modify fun _ => ⟨rfl, rfl⟩
    rw [wp_bind]
    refine wp_mono (onWorld_named (vsfLogStartEntry_tidy fun h => by cases h) hstart hs₁) ?_ (fun _ _ he => he)
    intro _ s₂ hs₂
    rw [wp_bind]
    refine wp_mono (onWorld_named (vsfLogDoLog_tidy _) hdone hs₂) ?_ (fun _ _ he => he)
    exact fun _ s₃ hs₃ => ⟨hs₃, rfl⟩
  unfold vsfPrivopDoLogin
  rw [wp_bind]
  refine wp_mono hlogin ?_ (fun _ _ he => he)
  intro r s₁ hs₁
  refine wp_mono (hlogged r s₁ hs₁.1) ?_ (fun _ _ he => he)
  rintro r' s' ⟨⟨hs', hname⟩, rfl⟩
  exact ⟨hs', fun hr => hname ▸ hs₁.2 hr⟩

theorem handlePassCommand_tidy (pass : Bytes) : PreTidies (handlePassCommand T a pass) := by
  intro s hs
  unfold handlePassCommand
  rw [wp_bind, wp_get]
  refine wp_cases (fun _ => answer_tidy henv (by decide) s hs) fun _ => ?_
  rw [wp_bind]
  refine wp_mono (vsfPrivopDoLogin_tidy hs) ?_ (fun _ _ he => he)
  intro r s₁ hs₁
  have hrest : PreTidies (do answer T a ftpLoginerr "Login incorrect."; checkLoginFails T; setUser []) :=
    preBind_tidy (answer_tidy henv (by decide)) fun _ => preBind_tidy checkLoginFails_tidy fun _ =>
      setUser_tidy List.not_mem_nil
  exact wp_cases (fun hr => ⟨hs₁.1, fun _ _ => hs₁.2 hr⟩) fun _ => hrest s₁ hs₁.1

theorem handleUserCommand_tidy (harg : chLf ∉ arg) : PreTidies (handleUserCommand T a arg) := by
  have hexit : ∀ code (msg : String) status, oneLine msg = true →
      PreTidies (onWorld (vsfCmdioWriteExit T a.env code msg status : M Unit)) :=
    fun _ _ _ h => onWorld_tidy (writeExit_tidy h)
  have hrefused : ∀ msg : String, oneLine msg = true → PreTidies (do answer T a ftpLoginerr msg; setUser []) :=
    fun _ h => preBind_tidy (answer_tidy henv h) fun _ => setUser_tidy List.not_mem_nil
  have haccepted : ∀ isAnon, PreTidies (userAccepted T a isAnon) := fun _ =>
    keeps_ite (handlePassCommand_tidy henv _) (answer_tidy henv (by decide))
  have hlisted : ∀ isAnon, PreTidies (userListed T a arg isAnon) := fun _ =>
    preGet_tidy fun s => keeps_ite (preBind_tidy (answer_tidy henv (by decide)) fun _ =>
      preBind_tidy checkLoginFails_tidy fun _ => setUser_tidy List.not_mem_nil) (haccepted _)
  refine preBind_tidy (setUser_tidy harg) fun _ => preGet_tidy fun s => ?_
  refine keeps_ite (hrefused _ (by decide)) (keeps_ite (hrefused _ (by decide)) ?_)
  exact keeps_ite (hexit _ _ _ (by decide)) (keeps_ite (hexit _ _ _ (by decide)) (hlisted _))

theorem sslControlHandshake_tidy (hssl : chLf ∉ a.sslError) (hlog : ∀ msg ∈ a.sslLog, chLf ∉ msg) :
    PreTidies (sslControlHandshake T a) := by
  refine preBind_tidy (onWorld_tidy (vsfLogDebug_tidy hlog)) fun _ => ?_
  refine keeps_ite (preBind_tidy (onWorld_tidy (writeStr_tidy henv ?_)) fun _ => halt_tidy _) ?_
  · exact List.not_mem_append (by decide) hssl
  · exact onWorld_tidy (modifySess_tidy fun _ => rfl)

theorem handleAuth_tidy (hssl : chLf ∉ a.sslError) (hlog : ∀ msg ∈ a.sslLog, chLf ∉ msg) (arg : Bytes) :
    PreTidies (handleAuth T a arg) := by
  refine keeps_ite (preBind_tidy (answer_tidy henv (by decide)) fun _ =>
    preBind_tidy (sslControlHandshake_tidy henv hssl hlog) fun _ => ?_) (answer_tidy henv (by decide))
  exact keeps_ite (onWorld_tidy (modifySess_tidy fun _ => rfl)) (keeps_pure trivial)

omit henv in
/-- **A round before the login keeps the session tidy**, and the name it logs in with is one word. -/
theorem preRound_tidy (h : PreRoundPlain T a) : PreTidies (preRound T a) := by
  have henv := h.answers
  refine keeps_bind (onWorld_tidy (readCommand_tidy henv h.command)) fun r hr => ?_
  subst hr
  refine preGet_tidy fun s => keeps_cases (fun hcmd => ?_) fun _ => keeps_ite (handlePassCommand_tidy henv _) ?_
  · -- the name is that of a plain line, as the line is no PASS
    rcases h.command with hplain | hpass
    · exact handleUserCommand_tidy henv (lf_not_mem_preCommand hplain).2
    · have hname : isCmd (preCommand a.line).1 ["USER"] = true := hcmd
      rw [show (preCommand a.line).1 = text "PASS" from hpass] at hname
      exact absurd hname (by decide)
  refine keeps_ite (onWorld_tidy (writeExit_tidy (by decide))) (keeps_cases (fun hcmd => ?_) fun _ => ?_)
  · exact onWorld_tidy (handleFeat_tidy henv (h.raw hcmd))
  refine keeps_ite (onWorld_tidy (handleOpts_tidy henv _)) (keeps_ite (handleAuth_tidy henv h.sslError h.sslLog _) ?_)
  refine keeps_ite (onWorld_tidy (handlePbsz_tidy henv)) (keeps_ite (onWorld_tidy (handleProt_tidy henv _)) ?_)
  exact keeps_ite (keeps_pure trivial) (answer_tidy henv (by decide))

end

/-- A connection that finds no text with an LF: the settings have none, and the lines of the banner file never do. -/
structure Opening.Plain (T : Tunables) (o : Opening) : Prop where
  answers : o.outside.env.Plain
  sslError : chLf ∉ o.outside.sslError
  sslLog : ∀ msg ∈ o.outside.sslLog, chLf ∉ msg
  ftpdBanner : ∀ banner, T.ftpdBanner = some banner → chLf ∉ banner

theorem lf_not_mem_strLines (s : Bytes) : ∀ line ∈ strLines s, chLf ∉ line := by
  intro line hline
  have hmem : line ∈ s.splitOn chLf := by
    unfold strLines at hline
    split at hline
    · exact List.dropLast_subset _ hline
    · exact hline
  exact (Fields.field_subset hmem).2

theorem checkLimits_tidy {T : Tunables} {o : Opening} : Tidies False (o.checkLimits T) := by
  have hline : ∀ msg : Bytes, chLf ∉ msg → Tidies False (vsfLogLine .connection msg) := fun _ h =>
    vsfLogLine_tidy (fun h => by cases h) h
  refine get_tidy fun w _ => keeps_ite ?_ (keeps_ite ?_ (keeps_ite ?_ (hline _ List.not_mem_nil)))
  · exact bind_tidy (hline _ (by decide)) fun _ => writeExit_tidy (by decide)
  · exact bind_tidy (hline _ (by decide)) fun _ => writeExit_tidy (by decide)
  · exact bind_tidy (hline _ (by decide)) fun _ => writeExit_tidy (by decide)

/-- **So is what comes before the first command.** -/
theorem initConnection_tidy {T : Tunables} {o : Opening} (h : o.Plain T) : PreTidies (initConnection T o) := by
  have hgreeting : Tidies False (o.emitGreeting T) := by
    unfold Opening.emitGreeting
    apply keeps_ite
    · refine bind_tidy (bannerWrite_tidy h.answers _ (lf_not_mem_strLines _)) fun _ => ?_
      exact reply_tidy h.answers (by decide)
    · cases hbanner : T.ftpdBanner with
      | none => exact reply_tidy h.answers (by decide)
      | some banner => exact writeStr_tidy h.answers fun hlf => h.ftpdBanner banner hbanner (cstr_subset _ hlf)
  refine preBind_tidy (onWorld_tidy vsfCmdioSetAlarm_tidy) fun _ => preBind_tidy (onWorld_tidy checkLimits_tidy) fun _ => ?_
  refine preBind_tidy (keeps_when ?_) fun _ => onWorld_tidy hgreeting
  exact sslControlHandshake_tidy h.answers h.sslError h.sslLog

/-! ### Whole sessions -/

/-- What the login makes of the process keeps what is logged, and puts it in a directory without an LF. -/
structure Enters (enter : LoginResult → ℕ → World → World) : Prop where
  texts : ∀ r p w, (enter r p w).sess.texts = w.sess.texts
  events : ∀ r p w, (enter r p w).events = w.events
  cwd : ∀ r p w, chLf ∉ (enter r p w).cwd.path

/-- A session in which no text with an LF comes in. -/
structure Visit.Plain (T : Tunables) (v : Visit) : Prop where
  opening : v.opening.Plain T
  pre : ∀ a ∈ v.pre, PreRoundPlain T a
  start : v.start.Plain
  post : ∀ r ∈ v.post, RoundPlain T r.1 r.2

/-- A session at its connection: the address of its client is one word, and nothing else is there to be logged. -/
structure Pre.Fresh (s : Pre) : Prop where
  ip : chLf ∉ s.world.sess.remoteIpStr ∧ chSpace ∉ s.world.sess.remoteIpStr
  texts : s.world.sess.texts = ([], [], s.world.sess.remoteIpStr, [], [], none)
  cwd : chLf ∉ s.world.cwd.path
  calls : logCalls s.world.events = []

section

variable {T : Tunables} {s : Pre} {enter : LoginResult → ℕ → World → World}

theorem Pre.Fresh.tidy (h : s.Fresh) : Tidy False s.world := by
  have huser : s.world.sess.userStr = [] := congrArg (·.1) h.texts
  have hpass : s.world.sess.anonPassStr = [] := congrArg (·.2.1) h.texts
  have hfile : s.world.sess.logStr = [] := congrArg (·.2.2.2.1) h.texts
  have hhome : s.world.sess.homeStr = [] := congrArg (·.2.2.2.2.1) h.texts
  have hlog : s.world.sess.logType = none := congrArg (·.2.2.2.2.2) h.texts
  refine ⟨?_, ?_, h.ip, ?_, ?_, h.cwd, fun h => h.elim, ?_, ?_⟩
  · simp [huser]
  · simp [hpass]
  · simp [hfile]
  · simp [hhome]
  · simp [hlog]
  · simp [h.calls]

/-- What the rounds before the login log is plain, and so is the session that logs in. -/
theorem preLog_plain (acts : List PreEnv) : ∀ s : Pre, Tidy False s.world → (∀ a ∈ acts, PreRoundPlain T a) →
    (∀ c ∈ (preLog T acts s).1, c.Plain) ∧
      ∀ r p w, (preLog T acts s).2 = some (r, p, w) → Tidy False w ∧ chSpace ∉ w.sess.userStr := by
  induction acts with
  | nil => exact fun _ _ _ => ⟨fun _ hc => absurd hc List.not_mem_nil, fun _ _ _ h => by cases h⟩
  | cons a acts ih =>
    intro s hs hplain
    obtain ⟨ha, hacts⟩ := List.forall_mem_cons.mp hplain
    have hround := preRound_tidy ha s hs
    unfold wp at hround
    have hsince : ∀ s' : Pre, Tidy False s'.world → ∀ c ∈ logCalls (s.world.since s'.world), c.Plain :=
      fun s' hs' c hc => hs'.calls c (mem_logCalls_since hc)
    unfold preLog
    cases hx : preRound T a s with
    | ok _ s' =>
      rw [hx] at hround
      obtain ⟨hcalls, hlogin⟩ := ih s'.forget hround.1 hacts
      refine ⟨fun c hc => ?_, hlogin⟩
      rcases List.mem_append.mp hc with hc | hc
      · exact hsince s' hround.1 c hc
      · exact hcalls c hc
    | error e s' =>
      rw [hx] at hround
      cases e with
      | halt e => exact ⟨hsince s' hround.1, fun _ _ _ h => by cases h⟩
      | loggedIn r =>
        refine ⟨hsince s' hround.1, fun r' p w h => ?_⟩
        cases h
        exact ⟨hround.1, hround.2 r rfl⟩

/-- So is all that a session logs. -/
theorem visitLog_plain (hroot : chLf ∉ getUserRootDir T) (henter : Enters enter) {v : Visit} (hv : v.Plain T)
    (hs : Tidy False s.world) : ∀ c ∈ visitLog T enter v s, c.Plain := by
  have hopening := initConnection_tidy hv.opening s hs
  unfold wp at hopening
  intro c hc
  unfold visitLog at hc
  cases hy : initConnection T v.opening s with
  | error e s₁ =>
    rw [hy] at hc hopening
    exact hopening.1.calls c (mem_logCalls_since hc)
  | ok _ s₁ =>
  rw [hy] at hc hopening
  rcases List.mem_append.mp hc with hc | hc
  · exact hopening.1.calls c (mem_logCalls_since hc)
  obtain ⟨hpre, hlogin⟩ := preLog_plain v.pre s₁ hopening.1 hv.pre
  rcases hx : preLog T v.pre s₁ with ⟨calls, login⟩
  rw [hx] at hc hpre hlogin
  cases login with
  | none => exact hpre c hc
  | some account =>
    obtain ⟨r, p, w⟩ := account
    obtain ⟨hw, hword⟩ := hlogin r p w rfl
    have hentered : Tidy True (enter r p w) := by
      have hsame : Tidy False { enter r p w with cwd := w.cwd } :=
        hw.congr (henter.texts r p w) rfl (by rw [henter.events])
      have hname : (enter r p w).sess.userStr = w.sess.userStr := congrArg (·.1) (henter.texts r p w)
      refine ⟨hsame.user, hsame.pass, hsame.ip, hsame.file, hsame.home, henter.cwd r p w, fun _ => ?_, .inl trivial,
        hsame.calls⟩
      rw [hname]
      exact hword
    rcases List.mem_append.mp hc with hc | hc
    · exact hpre c hc
    have hstart := postLoginStart_tidy (T := T) hv.start (enter r p w) hentered
    unfold wp at hstart
    cases hy : postLoginStart T v.start (enter r p w) with
    | error e w₁ =>
      rw [hy] at hc hstart
      exact hstart.calls c (mem_logCalls_since hc)
    | ok _ w₁ =>
      rw [hy] at hc hstart
      rcases List.mem_append.mp hc with hc | hc
      · exact hstart.1.calls c (mem_logCalls_since hc)
      · exact loopLog_plain trivial hroot v.post w₁ hstart.1 hv.post c hc

end

/-- Each line the call writes is one, and that of xferlog has its thirteen fields behind the date. -/
def LogCall.Lined (T : Tunables) (st : Stamp) (c : LogCall) : Prop :=
  ∀ p ∈ vsfLogCommon T st c, OneLine p.2 ∧ (p.1 = .xferlog → (fieldsBehind st.date p.2).length = 13)

instance (T : Tunables) (st : Stamp) (c : LogCall) : Decidable (c.Lined T st) :=
  inferInstanceAs (Decidable (∀ p ∈ vsfLogCommon T st c, _))

/-- A login that puts the session in the root of the bucket. -/
def enterRoot (r : LoginResult) (permissions : ℕ) (w : World) : World :=
  { enterRights r permissions w with cwd := habRoot }

theorem env_plain : Env.Plain {} where
  respmsg := fun _ => List.not_mem_nil
  fileStatRespmsg := List.not_mem_nil
  folderStatRespmsg := List.not_mem_nil
  folderListRespmsg := List.not_mem_nil
  dirRespmsgs := fun _ _ _ _ _ h => absurd h List.not_mem_nil
  sslHandshakeLog := fun _ h => absurd h List.not_mem_nil
  sslCloseLog := fun _ h => absurd h List.not_mem_nil
  messageFile := fun _ h => absurd h List.not_mem_nil
  getpwnam := fun _ _ h => by cases h
  codeConvert := fun _ _ _ h => by cases h
  urg := fun _ _ h => by cases h

end CosFtp
