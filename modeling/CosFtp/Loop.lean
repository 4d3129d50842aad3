/-
# The command loop

`process_post_login`: a line is read from the control connection, its command is
looked up and served, and what the handler left open is ended. A run of the loop
is a list of rounds, each with the line that was read and the answers its calls
got, so every prefix of a run is a run too, and what holds behind each run holds
each time the next command is read.

Key definitions: `dispatch`, `postLoginRound`, `processPostLogin`, `Boundary`.
Key theorems: `dispatch_served`, `postLoginRound_served`, `command_boundary`.
-/
import CosFtp.Commands
import CosFtp.Stor

namespace CosFtp

open Wp

variable (T : Tunables) (env : Env)

/-! ### The argument is made UTF-8 -/

/-- The bytes that follow a first byte of UTF-8. -/
def utf8Follow (c : UInt8) : ℕ :=
  if 0xfc ≤ c then 5 else if 0xf8 ≤ c then 4 else if 0xf0 ≤ c then 3 else if 0xe0 ≤ c then 2 else 1

/-- The loop of `IsUtf8`, with the rounds left: how many bytes are of UTF-8, and
how much speaks against it. -/
def isUtf8Loop : ℕ → Bytes → ℕ × ℕ
  | 0, _ => (0, 0)
  | _, [] => (0, 0)
  | n + 1, c :: s =>
    if c < 0x7f then isUtf8Loop n s
    else if c < 0xc0 ∨ 0xfd < c ∨ (c :: s).length < utf8Follow c then
      let (utf8, unknown) := isUtf8Loop n s
      (utf8, unknown + 1)
    else
      let good := (s.take (utf8Follow c)).takeWhile fun b => 0x80 ≤ b ∧ b ≤ 0xbf
      let (utf8, unknown) := isUtf8Loop n (s.drop good.length)
      if good.length = utf8Follow c then (utf8 + utf8Follow c + 1, unknown) else (utf8, unknown + 2)

/-- `IsUtf8`; its 0.9 is nine tenths here. -/
def isUtf8 (s : Bytes) : Bool :=
  let (utf8, unknown) := isUtf8Loop (cstr s).length (cstr s)
  cstr s ≠ [] ∧ 9 * (unknown + utf8) ≤ 10 * utf8

/-- `cos_conv_gbk_2_utf`: the argument behind it. -/
def cosConvGbk2Utf (arg : Bytes) : Bytes :=
  if arg = [] ∨ isUtf8 arg then arg
  else match env.codeConvert arg with
    | some temp => cstr temp
    | none => arg

theorem not_mem_cosConvGbk2Utf {env : Env} {b : UInt8} {arg : Bytes}
    (hconv : ∀ temp, env.codeConvert arg = some temp → b ∉ cstr temp) (harg : b ∉ arg) :
    b ∉ cosConvGbk2Utf env arg := by
  unfold cosConvGbk2Utf
  split
  · exact harg
  · split
    · rename_i temp htemp
      exact hconv temp htemp
    · exact harg

/-! ### A command is looked up -/

/-- Whether a command stands in a list, in front of its first empty element. -/
def inCmdList : ℕ → Bytes → Bytes → Bool
  | 0, _, _ => false
  | n + 1, src, cmd =>
    let (src, rhs) := strSplitChar src chComma
    if src = [] then false
    else if src = cmd then true
    else inCmdList n rhs cmd

/-- The command is not ruled out by `cmds_allowed` or `cmds_denied`. -/
def cmdOk (cmd : Bytes) : Bool :=
  (match T.cmdsAllowed with
    | none => true
    | some cmds => inCmdList (cmds.length + 1) cmds cmd) &&
  (match T.cmdsDenied with
    | none => true
    | some cmds => !inCmdList (cmds.length + 1) cmds cmd)

def isCmd (cmd : Bytes) (names : List String) : Bool := names.any fun name => strEqualText cmd name

/-- The session may write, and an anonymous one only if `anon` is on. -/
def mayWrite (anon : Bool) (s : Session) : Bool :=
  T.writeEnable && (anon || !s.isAnonymous) && s.writePermission

/-- STRU and MODE know one argument each. -/
def oneArg (arg : Bytes) (known : String) (okCode badCode : ℕ) (done bad : String) : M Unit :=
  if strEqualText (strUpper arg) known then vsfCmdioWrite T env okCode done
  else vsfCmdioWrite T env badCode bad

/-- The commands that are known, but not to this session. -/
def refusedCmds : List String :=
  ["PASV", "PORT", "STOR", "MKD", "XMKD", "RMD", "XRMD", "DELE", "RNFR", "RNTO", "SITE", "APPE", "EPSV",
    "EPRT", "RETR", "LIST", "NLST", "STOU", "ALLO", "REIN", "ACCT", "SMNT", "FEAT", "OPTS", "STAT", "PBSZ",
    "PROT"]

/-- The last branches of the dispatch, from FEAT on. -/
def dispatchRest (s : Session) (cmd arg : Bytes) : M Unit :=
  if isCmd cmd ["FEAT"] then handleFeat T env
  else if isCmd cmd ["OPTS"] then handleOpts T env arg
  else if isCmd cmd ["STAT"] ∧ arg = [] then handleStat T env
  else if T.dirlistEnable ∧ s.readPermission ∧ isCmd cmd ["STAT"] then handleStatFile T env arg
  else if T.sslEnable ∧ isCmd cmd ["PBSZ"] then handlePbsz T env
  else if T.sslEnable ∧ isCmd cmd ["PROT"] then handleProt T env arg
  else if isCmd cmd ["USER"] then handleLoggedInUser T env arg
  else if isCmd cmd ["PASS"] then handleLoggedInPass T env
  else if isCmd cmd refusedCmds then vsfCmdioWrite T env ftpNoperm "Permission denied."
  else if cmd = [] ∧ arg = [] then pure ()
  else if isCmd cmd ["GET", "POST", "HEAD", "OPTIONS", "CONNECT"] then
    vsfCmdioWriteExit T env ftpBadcmd "HTTP protocol commands not allowed." 1
  else vsfCmdioWrite T env ftpBadcmd "Unknown command."

/-- The branches from NLST to SMNT. -/
def dispatchMore (s : Session) (cmd arg : Bytes) : M Unit :=
  if T.dirlistEnable ∧ s.readPermission ∧ isCmd cmd ["NLST"] then handleNlst T env arg
  else if s.readPermission ∧ isCmd cmd ["SIZE"] then handleSize T env arg
  else if !s.isAnonymous ∧ isCmd cmd ["SITE"] then
    vsfCmdioWrite T env ftpCommandnotimpl "SITE not implemented."
  -- the second one is an async ABOR arriving without a SIGURG condition
  else if isCmd cmd ["ABOR"] ∨ cmd = [255, 244, 255, 242] ++ text "ABOR" then
    vsfCmdioWrite T env ftpAborNoconn "No transfer to ABOR."
  else if mayWrite T T.anonOtherWriteEnable s ∧ isCmd cmd ["APPE"] then
    vsfCmdioWrite T env ftpCommandnotimpl "APPE not implemented."
  else if isCmd cmd ["MDTM"] then vsfCmdioWrite T env ftpCommandnotimpl "MDTM not implemented."
  else if T.portEnable ∧ isCmd cmd ["EPRT"] then handleEprt T env arg
  else if isCmd cmd ["STRU"] then
    oneArg T env arg "F" ftpStruok ftpBadstru "Structure set to F." "Bad STRU command."
  else if isCmd cmd ["MODE"] then
    oneArg T env arg "S" ftpModeok ftpBadmode "Mode set to S." "Bad MODE command."
  else if mayWrite T T.anonUploadEnable s ∧ isCmd cmd ["STOU"] then
    vsfCmdioWrite T env ftpCommandnotimpl "STOU not implemented."
  else if isCmd cmd ["ALLO"] then vsfCmdioWrite T env ftpAllook "ALLO command ignored."
  else if isCmd cmd ["REIN"] then vsfCmdioWrite T env ftpCommandnotimpl "REIN not implemented."
  else if isCmd cmd ["ACCT"] then vsfCmdioWrite T env ftpCommandnotimpl "ACCT not implemented."
  else if isCmd cmd ["SMNT"] then vsfCmdioWrite T env ftpCommandnotimpl "SMNT not implemented."
  else dispatchRest T env s cmd arg

/-- The branches from STOR to RNTO. -/
def dispatchWrite (s : Session) (cmd arg : Bytes) : M Unit :=
  if mayWrite T T.anonUploadEnable s ∧ isCmd cmd ["STOR"] then handleUploadCommon T env arg
  else if mayWrite T T.anonMkdirWriteEnable s ∧ isCmd cmd ["MKD", "XMKD"] then handleMkd T env arg
  else if mayWrite T T.anonOtherWriteEnable s ∧ isCmd cmd ["RMD", "XRMD"] then handleRmd T env arg
  else if mayWrite T T.anonOtherWriteEnable s ∧ isCmd cmd ["DELE"] then handleDele T env arg
  else if isCmd cmd ["REST"] then handleRest T env arg
  else if mayWrite T T.anonOtherWriteEnable s ∧ isCmd cmd ["RNFR"] then
    vsfCmdioWrite T env ftpCommandnotimpl "RNFR not implemented."
  else if mayWrite T T.anonOtherWriteEnable s ∧ isCmd cmd ["RNTO"] then
    vsfCmdioWrite T env ftpCommandnotimpl "RNTO not implemented."
  else dispatchMore T env s cmd arg

/-- The branches of the dispatch in their order, the first of them here. -/
def dispatchCmd (s : Session) (cmd arg : Bytes) : M Unit :=
  if isCmd cmd ["QUIT"] then vsfCmdioWriteExit T env ftpGoodbye "Goodbye." 0
  else if isCmd cmd ["PWD", "XPWD"] then handlePwd T env
  else if isCmd cmd ["CWD", "XCWD"] then handleCwd T env arg
  else if isCmd cmd ["CDUP", "XCUP"] then handleCdup T env
  else if T.pasvEnable ∧ !s.epsvAll ∧ isCmd cmd ["PASV", "P@SW"] then handlePasv T env false arg
  else if T.pasvEnable ∧ isCmd cmd ["EPSV"] then handlePasv T env true arg
  else if T.downloadEnable ∧ s.readPermission ∧ isCmd cmd ["RETR"] then handleRetr T env arg
  else if isCmd cmd ["NOOP"] then vsfCmdioWrite T env ftpNoopok "NOOP ok."
  else if isCmd cmd ["SYST"] then vsfCmdioWrite T env ftpSystok "UNIX Type: L8"
  else if isCmd cmd ["HELP"] then handleHelp T env
  else if T.dirlistEnable ∧ s.readPermission ∧ isCmd cmd ["LIST"] then handleList T env arg
  else if isCmd cmd ["TYPE"] then handleType T env arg
  else if T.portEnable ∧ !s.epsvAll ∧ isCmd cmd ["PORT"] then handlePort T env arg
  else dispatchWrite T env s cmd arg

def dispatch (cmd arg : Bytes) : M Unit := do
  let w ← get
  if !cmdOk T cmd then vsfCmdioWrite T env ftpNoperm "Permission denied."
  else dispatchCmd T env w.sess cmd arg

/-! ### The loop -/

def vsfCmdioSetAlarm : M Unit := modifySess fun s =>
  if 0 < T.idleSessionTimeout then { s with alarmHandler := .idle } else s

/-- The next command is waited for and read. -/
def readCommand (line : CtrlLine) : M (Bytes × Bytes) := do
  vsfCmdioSetAlarm T
  let w ← get
  interrupted T env (env.interrupts w.clock)
  vsfCmdioGetCmdAndArg T env line

/-- One round of the loop. -/
def postLoginRound (line : CtrlLine) : M Unit := do
  let (cmd, arg) ← readCommand T env line
  dispatch T env cmd (cosConvGbk2Utf env arg)
  commandEnd T env

def postLoginLoop : List (Env × CtrlLine) → M Unit
  | [] => pure ()
  | (env, line) :: rounds => do
    postLoginRound T env line
    postLoginLoop rounds

/-- What `process_post_login` does in front of the loop. -/
def postLoginStart : M Unit := do
  modify fun w => { w with sess := { w.sess with
    homeStr := w.cwd.path
    bwRateMax := if w.sess.isAnonymous then T.anonMaxRate else T.localMaxRate } }
  vsfBannerDirChanged T env ftpLoginok
  vsfCmdioWrite T env ftpLoginok "Login successful."

/-- `process_post_login`, up to where it reads a command for which there is no
round. -/
def processPostLogin (rounds : List (Env × CtrlLine)) : M Unit := do
  postLoginStart T env
  postLoginLoop T rounds

/-! ### Every command is served -/

/-- The directory a command asks for, its tilde resolved. -/
def cwdArg (home cmd arg : Bytes) : Option Bytes :=
  if isCmd cmd ["CWD", "XCWD"] then some (resolveTilde T home env.getpwnam arg)
  else if isCmd cmd ["CDUP", "XCUP"] then some (resolveTilde T home env.getpwnam (text ".."))
  else none

section

variable {T} {env} {w : World} {move : Option Bytes}

theorem dispatchRest_served (h : w.ctl.Idle T) (s : Session) (cmd arg : Bytes) :
    wp (dispatchRest T env s cmd arg) (fun _ w' => Served T move w w') (fun e _ => e.Expected) w := by
  have hreply : ∀ code msg, wp (vsfCmdioWrite T env code msg) (fun _ w' => Served T move w w')
      (fun e _ => e.Expected) w := fun _ _ => served_of_ctl h (vsfCmdioWrite_ctl _ _)
  unfold dispatchRest
  apply wp_branch
  · exact served_of_expected h (hyphened_ctl _ _ _ _)
  apply wp_branch
  · exact served_of_ctl h (handleOpts_ctl arg)
  apply wp_branch
  · exact served_of_expected h handleStat_ctl
  apply wp_branch
  · exact served_of_handled (handleDirCommon_handled h _ _ _)
  apply wp_branch
  · exact served_of_ctl h handlePbsz_ctl
  apply wp_branch
  · exact served_of_ctl h (handleProt_ctl arg)
  apply wp_branch
  · exact served_of_ctl h (handleLoggedInUser_ctl arg)
  apply wp_branch
  · exact hreply _ _
  apply wp_branch
  · exact hreply _ _
  apply wp_branch
  · exact served_of_ctl h (within_pure ())
  apply wp_branch
  · exact served_of_ctl h (sameCtl_of_talk (vsfCmdioWriteExit_talk (P := fun _ => True) trivial (by decide) fun _ _ => trivial))
  · exact hreply _ _

theorem oneArg_ctl (arg : Bytes) (known : String) (okCode badCode : ℕ) (done bad : String) :
    Within SameCtl Halt.Orderly (oneArg T env arg known okCode badCode done bad) :=
  within_ite (vsfCmdioWrite_ctl _ _) (vsfCmdioWrite_ctl _ _)

theorem dispatchMore_served (h : w.ctl.Idle T) (s : Session) (cmd arg : Bytes) :
    wp (dispatchMore T env s cmd arg) (fun _ w' => Served T move w w') (fun e _ => e.Expected) w := by
  have hreply : ∀ code msg, wp (vsfCmdioWrite T env code msg) (fun _ w' => Served T move w w')
      (fun e _ => e.Expected) w := fun _ _ => served_of_ctl h (vsfCmdioWrite_ctl _ _)
  unfold dispatchMore
  apply wp_branch
  · exact served_of_handled (handleDirCommon_handled h _ _ _)
  apply wp_branch
  · exact served_of_ctl h (handleSize_ctl arg)
  iterate 4
    apply wp_branch
    · exact hreply _ _
  apply wp_branch
  · exact handleEprt_served h arg
  iterate 2
    apply wp_branch
    · exact served_of_ctl h (oneArg_ctl _ _ _ _ _ _)
  iterate 5
    apply wp_branch
    · exact hreply _ _
  exact dispatchRest_served h s cmd arg

theorem dispatchWrite_served (h : w.ctl.Idle T) (hlog : w.ctl.logType = none) (s : Session)
    (cmd arg : Bytes) :
    wp (dispatchWrite T env s cmd arg) (fun _ w' => Served T move w w') (fun e _ => e.Expected) w := by
  have hreply : ∀ code msg, wp (vsfCmdioWrite T env code msg) (fun _ w' => Served T move w w')
      (fun e _ => e.Expected) w := fun _ _ => served_of_ctl h (vsfCmdioWrite_ctl _ _)
  unfold dispatchWrite
  apply wp_branch
  · exact served_of_handled (handleUploadCommon_handled h hlog arg)
  apply wp_branch
  · exact logged_served h hlog mkdChecked_loose arg
  apply wp_branch
  · exact logged_served h hlog rmdChecked_loose arg
  apply wp_branch
  · exact logged_served h hlog deleChecked_loose arg
  apply wp_branch
  · exact served_of_ctl h (handleRest_ctl arg)
  iterate 2
    apply wp_branch
    · exact hreply _ _
  exact dispatchMore_served h s cmd arg

theorem goodbye_expected :
    wp (vsfCmdioWriteExit T env ftpGoodbye "Goodbye." 0 : M Unit) (fun _ w' => Served T move w w')
      (fun e _ => e.Expected) w := by
  unfold vsfCmdioWriteExit
  rw [wp_bind]
  refine wp_mono (writeControl_talk (P := fun _ => True) trivial flagless_reply (fun _ _ => trivial) w) ?_ ?_
  · intro _ w1 _
    exact .inr (.inl rfl)
  · intro e _ he
    exact .inl he.1

theorem dispatchCmd_served (h : w.ctl.Idle T) (hlog : w.ctl.logType = none) (s : Session)
    (cmd arg : Bytes) :
    wp (dispatchCmd T env s cmd arg) (fun _ w' => Served T (cwdArg T env w.sess.homeStr cmd arg) w w')
      (fun e _ => e.Expected) w := by
  have hreply : ∀ code msg, wp (vsfCmdioWrite T env code msg)
      (fun _ w' => Served T (cwdArg T env w.sess.homeStr cmd arg) w w') (fun e _ => e.Expected) w :=
    fun _ _ => served_of_ctl h (vsfCmdioWrite_ctl _ _)
  unfold dispatchCmd
  apply wp_branch
  · exact goodbye_expected
  apply wp_branch
  · exact served_of_ctl h handlePwd_ctl
  -- the two commands that move the session
  refine wp_cases (fun hcwd => ?_) fun hcwd => ?_
  · rw [cwdArg, if_pos hcwd]
    exact handleCwd_served h arg
  refine wp_cases (fun hcdup => ?_) fun _ => ?_
  · rw [cwdArg, if_neg hcwd, if_pos hcdup]
    exact handleCwd_served h (text "..")
  apply wp_branch
  · exact handlePasv_served h false arg
  apply wp_branch
  · exact handlePasv_served h true arg
  apply wp_branch
  · exact served_of_handled (handleRetr_handled h hlog arg)
  iterate 2
    apply wp_branch
    · exact hreply _ _
  apply wp_branch
  · exact served_of_expected h (hyphened_ctl _ _ _ _)
  apply wp_branch
  · exact served_of_handled (handleDirCommon_handled h _ _ _)
  apply wp_branch
  · exact served_of_ctl h (handleType_ctl arg)
  apply wp_branch
  · exact handlePort_served h arg
  exact dispatchWrite_served h hlog s cmd arg

/-- **Every command, whatever its argument and the answers it gets, is served.** -/
theorem dispatch_served (h : w.ctl.Idle T) (hlog : w.ctl.logType = none) (cmd arg : Bytes) :
    wp (dispatch T env cmd arg) (fun _ w' => Served T (cwdArg T env w.sess.homeStr cmd arg) w w')
      (fun e _ => e.Expected) w := by
  unfold dispatch
  rw [wp_bind, wp_get]
  apply wp_branch
  · exact served_of_ctl h (vsfCmdioWrite_ctl _ _)
  · exact dispatchCmd_served h hlog w.sess cmd arg

/-! ### Rounds -/

/-- The command and the argument a line is read as. -/
def lineCommand (env : Env) : CtrlLine → Bytes × Bytes
  | .line str =>
    let (cmd, arg) := splitCommand (stripCr (strReplaceChar str chNul chLf))
    (cmd, cosConvGbk2Utf env arg)
  | _ => ([], [])

/-- A reply behind which the session ends. -/
theorem vsfCmdioWriteExit_ends {α : Type} (code status : ℕ) (msg : String) (Q : α → World → Prop) (w : World) :
    wp (vsfCmdioWriteExit T env code msg status : M α) Q (fun _ _ => True) w := by
  unfold vsfCmdioWriteExit
  rw [wp_bind, wp_writeControl]
  split
  · trivial
  · trivial

/-- What is returned is read off a line. -/
theorem readCommand_line (line : CtrlLine) (w : World) :
    wp (readCommand T env line)
      (fun r _ => ∃ str, line = .line str ∧ r = splitCommand (stripCr (strReplaceChar str chNul chLf)))
      (fun _ _ => True) w := by
  have hline : ∀ w1, wp (vsfCmdioGetCmdAndArg T env line)
      (fun r _ => ∃ str, line = .line str ∧ r = splitCommand (stripCr (strReplaceChar str chNul chLf)))
      (fun _ _ => True) w1 := by
    intro w1
    unfold vsfCmdioGetCmdAndArg
    rw [wp_bind]
    refine wp_mono (wp_true _ w1) ?_ (fun _ _ he => he)
    intro _ w1 _
    rw [wp_bind]
    cases line with
    | closed =>
      simp only [controlGetline, wp_pure, wp_bind, wp_get, wp_ite, wp_throw]
      split
      · exact vsfCmdioWriteExit_ends _ _ _ _ _
      · trivial
    | tooLong => exact vsfCmdioWriteExit_ends _ _ _ _ _
    | line str =>
      simp only [controlGetline, wp_bind, wp_get, wp_ite, wp_pure]
      split
      · exact vsfCmdioWriteExit_ends _ _ _ _ _
      · refine wp_mono (wp_true _ w1) ?_ (fun _ _ _ => trivial)
        exact fun _ _ _ => ⟨str, rfl, rfl⟩
  unfold readCommand
  rw [wp_bind]
  refine wp_mono (wp_true _ w) ?_ (fun _ _ he => he)
  intro _ w1 _
  rw [wp_bind, wp_get, wp_bind]
  refine wp_mono (wp_true _ w1) ?_ (fun _ _ he => he)
  intro _ w2 _
  exact hline w2

/-- And behind the login its argument is converted. -/
theorem readCommand_reads (line : CtrlLine) (w : World) :
    wp (readCommand T env line)
      (fun r _ => (r.1, cosConvGbk2Utf env r.2) = lineCommand env line) (fun _ _ => True) w := by
  apply wp_mono (readCommand_line line w) _ fun _ _ he => he
  rintro r _ ⟨str, rfl, rfl⟩
  rfl

theorem readCommand_spec (line : CtrlLine) (w : World) :
    wp (readCommand T env line)
      (fun r w' => SameCtl w w' ∧ (r.1, cosConvGbk2Utf env r.2) = lineCommand env line)
      (fun e _ => e.Orderly) w := by
  have halarm : Within SameCtl Halt.Orderly (vsfCmdioSetAlarm T) := by
    unfold vsfCmdioSetAlarm
    refine modifySess_ctl ?_ ?_ ?_ ?_ ?_ <;> intro s <;> split <;> rfl
  have hsignals : ∀ n, Within SameCtl Halt.Orderly (interrupted T env n) := fun n =>
    sameCtl_of_talk (interrupted_talk (P := fun _ => True) (fun _ _ => trivial) n)
  have hget : Within SameCtl Halt.Orderly (vsfCmdioGetCmdAndArg T env line) :=
    sameCtl_of_talk (vsfCmdioGetCmdAndArg_talk (P := fun _ => True) line fun _ _ => trivial)
  have hall : Within SameCtl Halt.Orderly (readCommand T env line) := by
    unfold readCommand
    refine within_bind halarm fun _ => within_bind within_get fun w => ?_
    exact within_bind (hsignals _) fun _ => hget
  refine wp_mono (wp_and (hall w) (readCommand_reads line w)) ?_ ?_
  · exact fun _ _ h => h
  · exact fun _ _ h => h.1.1

/-- The state in which the next command is read: no data connection is open, no
log entry, and at most one way to a next connection. -/
structure Boundary (T : Tunables) (w : World) : Prop where
  dataFd : w.sess.dataFd = none
  ioHandler : w.sess.ioHandler = false
  logType : w.sess.logType = none
  exclusive : ¬ (w.sess.portSockaddr ≠ none ∧ (w.broker T).sess.pasvListenFd ≠ none)

theorem boundary_iff : Boundary T w ↔ w.ctl.Idle T ∧ w.ctl.logType = none := by
  have hex : w.ctl.Exclusive T ↔
      ¬ (w.sess.portSockaddr ≠ none ∧ (w.broker T).sess.pasvListenFd ≠ none) := by
    unfold Ctl.Exclusive
    rw [listenFd_ctl, not_and_or, not_not, not_not]
    rfl
  constructor
  · intro h
    exact ⟨⟨h.dataFd, h.ioHandler, hex.mpr h.exclusive⟩, h.logType⟩
  · intro h
    exact ⟨h.1.dataFd, h.1.ioHandler, h.2, hex.mp h.1.exclusive⟩

/-- What ends a command ends its log entry too. -/
theorem commandEnd_spec (w : World) :
    wp (commandEnd T env) (fun _ w' => w'.ctl = { w.ctl with logType := none }) (fun e _ => e.Orderly) w := by
  have hexit : Within SameCtl Halt.Orderly
      (vsfCmdioWriteExit T env ftpDataTimeout "Data timeout. Reconnect. Sorry." 1 : M Unit) :=
    sameCtl_of_talk (vsfCmdioWriteExit_talk (P := fun _ => True) trivial (by decide) fun _ _ => trivial)
  unfold commandEnd
  rw [wp_bind, wp_get, wp_bind, wp_when]
  have hrest : ∀ w1 : World, w1.ctl = { w.ctl with logType := none } →
      wp (do
        let w ← get
        when w.sess.dataTimeout
          (vsfCmdioWriteExit T env ftpDataTimeout "Data timeout. Reconnect. Sorry." 1))
        (fun _ w' => w'.ctl = { w.ctl with logType := none }) (fun e _ => e.Orderly) w1 := by
    intro w1 hw1
    rw [wp_bind, wp_get]
    refine wp_mono (within_when hexit w1) ?_ (fun _ _ he => he.1)
    intro _ w2 hw2
    rw [show w2.ctl = w1.ctl from hw2, hw1]
  split
  · exact hrest _ rfl
  · rename_i hnone
    have hlog : w.ctl.logType = none := not_not.mp hnone
    apply hrest
    rw [← hlog]

/-- **One round of the loop** leads from boundary to boundary, and ends the session
only for a reason. -/
theorem postLoginRound_served (h : Boundary T w) (line : CtrlLine) :
    wp (postLoginRound T env line)
      (fun _ w' => Boundary T w' ∧
        Served T (cwdArg T env w.sess.homeStr (lineCommand env line).1 (lineCommand env line).2) w w')
      (fun e _ => e.Expected) w := by
  obtain ⟨hidle, hlog⟩ := boundary_iff.mp h
  unfold postLoginRound
  rw [wp_bind]
  refine wp_mono (readCommand_spec line w) ?_ (fun _ _ he => .inl he)
  intro r w1 hr
  obtain ⟨hw1, hline⟩ := hr
  have hctl1 : w1.ctl = w.ctl := hw1
  have hhome : w1.sess.homeStr = w.sess.homeStr := congrArg Ctl.homeStr hctl1
  have hcmd : r.1 = (lineCommand env line).1 := by rw [← hline]
  have harg : cosConvGbk2Utf env r.2 = (lineCommand env line).2 := by rw [← hline]
  show wp (do dispatch T env r.1 (cosConvGbk2Utf env r.2); commandEnd T env) _ _ w1
  rw [hcmd, harg, wp_bind]
  refine wp_mono (dispatch_served (hctl1 ▸ hidle) (hctl1 ▸ hlog) _ _) ?_ (fun _ _ he => he)
  intro _ w2 hw2
  rw [hhome] at hw2
  have hserved := hw2.sameCtl_left hw1
  refine wp_mono (commandEnd_spec w2) ?_ (fun _ _ he => .inl he)
  intro _ w3 hw3
  have hlast := hserved.loose (loose_of_log hw3)
  refine ⟨boundary_iff.mpr ⟨hlast.idle, ?_⟩, hlast⟩
  rw [hw3]

/-- Along a run each round meets `C` in the state it starts in. -/
def Along (T : Tunables) (C : Env → CtrlLine → World → Prop) : List (Env × CtrlLine) → World → Prop
  | [], _ => True
  | (env, line) :: rounds, w => C env line w ∧
    wp (postLoginRound T env line) (fun _ w' => Along T C rounds w') (fun _ _ => True) w

theorem along_of_forall {C : Env → CtrlLine → World → Prop} (hC : ∀ env line w, C env line w)
    (rounds : List (Env × CtrlLine)) : ∀ w, Along T C rounds w := by
  induction rounds with
  | nil =>
    intro w
    trivial
  | cons round rounds ih =>
    intro w
    refine ⟨hC _ _ _, ?_⟩
    unfold wp
    split
    · exact ih _
    · trivial

/-- **Whole runs of the loop keep what each round keeps.** -/
theorem postLoginLoop_keeps {C : Env → CtrlLine → World → Prop} {I : World → Prop}
    (hstep : ∀ env line w w', Boundary T w → I w → C env line w →
      Served T (cwdArg T env w.sess.homeStr (lineCommand env line).1 (lineCommand env line).2) w w' → I w')
    (rounds : List (Env × CtrlLine)) : ∀ w, Boundary T w → I w → Along T C rounds w →
      wp (postLoginLoop T rounds) (fun _ w' => Boundary T w' ∧ I w') (fun e _ => e.Expected) w := by
  induction rounds with
  | nil =>
    intro w h hI _
    exact ⟨h, hI⟩
  | cons round rounds ih =>
    intro w h hI halong
    obtain ⟨env, line⟩ := round
    obtain ⟨hC, hrest⟩ := halong
    unfold postLoginLoop
    rw [wp_bind]
    refine wp_mono (wp_and (postLoginRound_served h line) hrest) ?_ (fun _ _ he => he.1)
    intro _ w1 hw1
    obtain ⟨⟨hboundary, hserved⟩, halong1⟩ := hw1
    exact ih w1 hboundary (hstep env line w w1 h hI hC hserved) halong1

theorem postLoginLoop_boundary (rounds : List (Env × CtrlLine)) (w : World) (h : Boundary T w) :
    wp (postLoginLoop T rounds) (fun _ w' => Boundary T w') (fun e _ => e.Expected) w := by
  have halong : Along T (fun _ _ _ => True) rounds w := along_of_forall (fun _ _ _ => trivial) rounds w
  refine wp_mono (postLoginLoop_keeps (I := fun _ => True) ?_ rounds w h trivial halong) ?_ ?_
  · intros
    trivial
  · exact fun _ _ hb => hb.1
  · exact fun _ _ he => he

theorem postLoginStart_spec (w : World) :
    wp (postLoginStart T env) (fun _ w' => w'.ctl = { w.ctl with homeStr := w.cwd.path })
      (fun e _ => e.Orderly) w := by
  have hrest : Within SameCtl Halt.Orderly (do
      vsfBannerDirChanged T env ftpLoginok
      vsfCmdioWrite T env ftpLoginok "Login successful.") :=
    within_bind (vsfBannerDirChanged_ctl _) fun _ => vsfCmdioWrite_ctl _ _
  unfold postLoginStart
  rw [wp_bind, wp_modify]
  refine wp_mono (hrest _) ?_ (fun _ _ he => he.1)
  intro _ w1 hw1
  exact hw1

theorem postLoginStart_boundary (h : Boundary T w) :
    wp (postLoginStart T env) (fun _ w' => Boundary T w') (fun e _ => e.Orderly) w := by
  obtain ⟨hidle, hlog⟩ := boundary_iff.mp h
  refine wp_mono (postLoginStart_spec w) ?_ (fun _ _ he => he)
  intro _ w1 hw1
  apply boundary_iff.mpr
  rw [hw1]
  exact ⟨⟨hidle.dataFd, hidle.ioHandler, hidle.exclusive⟩, hlog⟩

end

/-! ### Whole sessions -/

/-- The session as the login leaves it. -/
structure LoggedIn (T : Tunables) (w : World) : Prop where
  dataFd : w.sess.dataFd = none
  ioHandler : w.sess.ioHandler = false
  logType : w.sess.logType = none
  portSockaddr : w.sess.portSockaddr = none
  listenFd : (w.broker T).sess.pasvListenFd = none

theorem LoggedIn.boundary {w : World} (h : LoggedIn T w) : Boundary T w := by
  refine ⟨h.dataFd, h.ioHandler, h.logType, ?_⟩
  intro hboth
  exact hboth.1 h.portSockaddr

/-- The `bug` calls that guard the data connection, its i/o handler and the log. -/
def boundaryBugs : List String :=
  ["data descriptor still present in init_data_sock_params",
    "no data descriptor in vsf_ftpdataio_dispose_transfer_fd",
    "double register of i/o handler", "no i/o handler to unregister!",
    "non null log_type in vsf_log_start_entry",
    "neither PORT nor PASV active in get_remote_transfer_fd",
    "port and pasv both active", "pasv and port both active"]

theorem Halt.Expected.not_bug {e : Halt} (h : e.Expected) :
    (∀ msg ∈ boundaryBugs, e ≠ .bug msg) ∧ e ≠ .deepRecursion := by
  rcases h with h | rfl | rfl
  · constructor
    · rintro msg - rfl
      exact h
    · rintro rfl
      exact h
  · exact ⟨fun _ _ => Halt.noConfusion, Halt.noConfusion⟩
  · refine ⟨?_, Halt.noConfusion⟩
    intro msg hmsg heq
    rw [← Halt.bug.inj heq] at hmsg
    exact absurd hmsg (by decide)

/-- **Each time the next command is read**, no data connection is open, no i/o
handler is installed, no log entry is pending, and not both a PORT address and a
listener wait. A session that ends before does so on an error it tells, on QUIT, or
on an empty raw text, and never in a `bug` call that guards these or in the
recursion of `port_active` and `pasv_active`. -/
theorem command_boundary (env : Env) (rounds : List (Env × CtrlLine)) {w : World} (h : LoggedIn T w) :
    wp (processPostLogin T env rounds) (fun _ w' => Boundary T w')
      (fun e _ => e.Expected ∧ (∀ msg ∈ boundaryBugs, e ≠ .bug msg) ∧ e ≠ .deepRecursion) w := by
  unfold processPostLogin
  rw [wp_bind]
  refine wp_mono (postLoginStart_boundary h.boundary) ?_ ?_
  · intro _ w1 hw1
    refine wp_mono (postLoginLoop_boundary rounds w1 hw1) ?_ ?_
    · exact fun _ _ hb => hb
    · intro e _ he
      exact ⟨he, he.not_bug⟩
  · intro e _ he
    have hexpected : e.Expected := .inl he
    exact ⟨hexpected, hexpected.not_bug⟩

/-- A session in the root /h/a/b that has just logged in. -/
def loginWorld : World :=
  { habWorld with parent := { sess := { localAddr := host10 9 21, remoteAddr := host10 1 40000 } } }

/-- A client that asks for a passive connection and does not come. -/
theorem command_boundary_pasv :
    LoggedIn habServer loginWorld ∧
    wp (processPostLogin habServer {} [({}, .line (text "PASV")), ({}, .line (text "RETR x"))])
      (fun _ w' => Boundary habServer w')
      (fun e _ => e.Expected ∧ (∀ msg ∈ boundaryBugs, e ≠ .bug msg) ∧ e ≠ .deepRecursion) loginWorld := by
  have hlogin : LoggedIn habServer loginWorld := ⟨rfl, rfl, rfl, rfl, rfl⟩
  exact ⟨hlogin, command_boundary habServer _ _ hlogin⟩

end CosFtp
