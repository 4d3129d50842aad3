/-
# The session

The state of a logged-in session: the fields of `struct vsf_session` the
commands use, the privileged operations' state (the session's own in the one
process model, the parent's else), the working directory, the local files, the
data connection as its client sees it, and the trace of what went out on the
control connection and to COS.

A command runs with two records. `Tunables` holds the settings and `Env` what
the outside answers to the calls the command makes: one field for each call
that is made once, a sequence for a call made in a loop. Where a sequence is
not indexed by the loop itself it is indexed by `World.clock`, which goes
forward at every call that can be interrupted, so the answers of any run can
be given.

Signals are taken where `vsf_sysutil_check_pending_actions` is called: after a
reply, and after each read and write of a data connection.
-/
import Mathlib.Data.List.DropRight
import CosFtp.Lib.Inode
import CosFtp.Calls
import CosFtp.Path

namespace CosFtp

open Wp

/-! ### Reply codes -/

def ftpDataconn : ℕ := 150
def ftpNoopok : ℕ := 200
def ftpTypeok : ℕ := 200
def ftpPortok : ℕ := 200
def ftpEprtok : ℕ := 200
def ftpEpsvallok : ℕ := 200
def ftpStruok : ℕ := 200
def ftpModeok : ℕ := 200
def ftpPbszok : ℕ := 200
def ftpProtok : ℕ := 200
def ftpOptsok : ℕ := 200
def ftpAllook : ℕ := 202
def ftpFeat : ℕ := 211
def ftpStatok : ℕ := 211
def ftpSizeok : ℕ := 213
def ftpStatfileOk : ℕ := 213
def ftpHelp : ℕ := 214
def ftpSystok : ℕ := 215
def ftpGoodbye : ℕ := 221
def ftpAborNoconn : ℕ := 225
def ftpTransferok : ℕ := 226
def ftpAborok : ℕ := 226
def ftpPasvok : ℕ := 227
def ftpEpsvok : ℕ := 229
def ftpLoginok : ℕ := 230
def ftpCwdok : ℕ := 250
def ftpRmdirok : ℕ := 250
def ftpDeleok : ℕ := 250
def ftpPwdok : ℕ := 257
def ftpMkdirok : ℕ := 257
def ftpGivepword : ℕ := 331
def ftpRestok : ℕ := 350
def ftpIdleTimeout : ℕ := 421
def ftpDataTimeout : ℕ := 421
def ftpBadsendconn : ℕ := 425
def ftpBadsendnet : ℕ := 426
def ftpBadfilebusy : ℕ := 450
def ftpBadsendfile : ℕ := 451
def ftpBadcmd : ℕ := 500
def ftpBadopts : ℕ := 501
def ftpCommandnotimpl : ℕ := 502
def ftpBadpbsz : ℕ := 503
def ftpBadprot : ℕ := 503
def ftpBadstru : ℕ := 504
def ftpBadmode : ℕ := 504
def ftpNosuchprot : ℕ := 504
def ftpNeedencrypt : ℕ := 522
def ftpEpsvbad : ℕ := 522
def ftpDatatlsbad : ℕ := 522
def ftpLoginerr : ℕ := 530
def ftpNohandleprot : ℕ := 536
def ftpFilefail : ℕ := 550
def ftpNoperm : ℕ := 550
def ftpUploadfail : ℕ := 553

/-! ### State -/

/-- What is logged. -/
inductive LogEntryType where
  | download
  | upload
  | mkdir
  | login
  | ftpInput
  | ftpOutput
  | connection
  | delete
  | rename
  | rmdir
  | chmod
  | debug
  deriving DecidableEq

/-- Which handler SIGALRM has. -/
inductive AlarmHandler where
  | none
  | idle
  | data
  deriving DecidableEq

structure Session where
  isAnonymous : Bool := false
  isGuest : Bool := false
  readPermission : Bool := true
  writePermission : Bool := true
  userStr : Bytes := []
  anonPassStr : Bytes := []
  homeStr : Bytes := []
  remoteIpStr : Bytes := []
  bwRateMax : ℕ := 0
  numClients : ℕ := 0
  isAscii : Bool := false
  restartPos : ℕ := 0
  epsvAll : Bool := false
  portSockaddr : Option Sockaddr := none
  dataFd : Option Fd := none
  /-- `s_io_handler` of sysutil.c is set -/
  ioHandler : Bool := false
  logType : Option LogEntryType := none
  logStr : Bytes := []
  transferSize : ℕ := 0
  aborReceived : Bool := false
  dataTimeout : Bool := false
  dataProgress : Bool := false
  idleTimeout : Bool := false
  alarmHandler : AlarmHandler := .none
  controlUseSsl : Bool := false
  dataUseSsl : Bool := false
  sslSlaveActive : Bool := false
  /-- `p_data_ssl` is not NULL -/
  dataSsl : Bool := false
  visitedDirs : List Bytes := []
  deriving DecidableEq

/-- What a log line is made of beside its text. -/
structure LogView where
  isAnonymous : Bool
  isGuest : Bool
  userStr : Bytes
  anonPassStr : Bytes
  remoteIpStr : Bytes
  isAscii : Bool
  logType : Option LogEntryType
  logStr : Bytes
  transferSize : ℕ
  deriving DecidableEq

def Session.logView (s : Session) : LogView :=
  { s with }

/-- A request to COS, with its path there. -/
inductive CosReq where
  | fileStat (path : Bytes)
  | folderStat (path : Bytes)
  | folderList (path : Bytes)
  | folderCreate (path : Bytes)
  | folderDelete (path : Bytes)
  | fileDelete (path : Bytes)
  /-- the content of the named local file at the time, and whether COS took it -/
  | fileUpload (path : Bytes) (content : Option Bytes) (ok : Bool)
  | fileDownload (path : Bytes) (offset len : ℕ) (result : ℤ)
  deriving DecidableEq

/-- What goes out of a session. -/
inductive Event where
  | reply (code : ℕ) (msg : Bytes)
  /-- a line of a reply that goes on -/
  | hyphen (code : ℕ) (msg : Bytes)
  | raw (msg : Bytes)
  | cos (req : CosReq)
  /-- a local file is created or opened -/
  | create (path : Bytes)
  /-- a read or a write of the data connection and what it returned -/
  | dataRead (result : ℤ)
  | dataWrite (result : ℤ)
  /-- the client wants the transfer to end, or it has stalled -/
  | abor
  | dataTimeout
  /-- a call of `vsf_log_common`, with the session at the time -/
  | log (type : LogEntryType) (succeeded : Bool) (msg : Bytes) (view : LogView)
  deriving DecidableEq

/-- The data connection as the client sees it. -/
structure DataConn where
  /-- what the client has still to send before it closes -/
  incoming : Bytes := []
  /-- what the client got -/
  sent : Bytes := []
  deriving DecidableEq

structure World where
  sess : Session
  own : PrivState
  parent : PrivState
  cwd : Dir
  disk : Inode.Disk (List Bytes) UInt8
  conn : DataConn := {}
  clock : ℕ := 0
  events : List Event := []
  /-- what the parent was asked for, each with what the kernel answers to it -/
  calls : List (Call × PrivEnv) := []

abbrev M := EStateM Halt World

/-! ### What the outside answers -/

/-- What `ftp_getline` finds on the control connection. -/
inductive CtrlLine where
  /-- the client has closed it -/
  | closed
  | tooLong
  /-- a line, without its LF -/
  | line (str : Bytes)
  deriving DecidableEq

/-- The signals that are pending when they are checked. -/
structure Signals where
  alarm : Bool := false
  /-- SIGURG, with what then stands on the control connection -/
  urg : Option CtrlLine := none
  deriving DecidableEq

/-- How a write ends: the bytes taken of what was offered, and whether an
error follows. -/
structure WriteOutcome where
  taken : ℕ
  error : Bool := false
  deriving DecidableEq

/-- The answers to the calls of one command. -/
structure Env where
  signals : ℕ → Signals := fun _ => {}
  /-- how often a call is interrupted by a signal before it ends -/
  interrupts : ℕ → ℕ := fun _ => 0
  /-- whether the client takes a reply -/
  ctrlWrite : ℕ → Bool := fun _ => true
  getpwnam : Bytes → Option Bytes := fun _ => none
  /-- `iconv` from GBK to UTF-8 -/
  codeConvert : Bytes → Option Bytes := fun _ => none
  /-- the privileged operations: making the data connection, cleaning up before and after -/
  connect : PrivEnv := {}
  cleanup : ℕ → PrivEnv := fun _ => {}
  chown : PrivEnv := {}
  /-- the bytes behind a short IPv6 address -/
  stale : RawAddr 16 := zeroAddr
  inetAton : Bytes → Option (RawAddr 4) := fun _ => none
  sockopts : Bool := true
  linger : Bool := true
  sslHandshake : Bool := true
  sslClose : Bool := true
  /-- what ssl.c logs of the two, and whether a TLS connection ends without a shutdown -/
  sslHandshakeLog : List Bytes := []
  sslCloseLog : List Bytes := []
  sslTruncated : Bool := false
  /-- the bytes the client sends on the data connection -/
  stream : Bytes := []
  /-- for each read how many bytes come, or an error -/
  read : ℕ → Option ℕ := fun _ => some 1
  dataWrite : ℕ → WriteOutcome := fun _ => ⟨65536 * 2, false⟩
  /-- local files -/
  create : Bool := true
  fchmod : Bool := true
  chownFd : Fd := 0
  lock : Bool := true
  ftruncate : Bool := true
  lseek : Bool := true
  fileWrite : ℕ → WriteOutcome := fun _ => ⟨65537, false⟩
  close : Bool := true
  unlink : Bool := true
  chdir : ℕ → Bool := fun _ => true
  mkdirs : Bool := true
  messageFile : List Bytes := []
  /-- COS: a code that could be read out of the answer, or none -/
  fileStat : Option ℕ := none
  folderStat : Bool := false
  /-- 0 for an empty folder, 1 for one that is not, -1 for no answer -/
  folderEmpty : ℤ := -1
  folderCreate : ℤ := 0
  folderDelete : Option ℤ := some 0
  fileDelete : Option ℤ := some 0
  fileUpload : ℕ → Bool := fun _ => true
  /-- the text of an answer that is not a success, at each try -/
  respmsg : ℕ → Bytes := fun _ => []
  fileStatRespmsg : Bytes := []
  folderStatRespmsg : Bytes := []
  folderListRespmsg : Bytes := []
  /-- the object, byte by byte, what each download returns and its `retcode` -/
  object : ℕ → UInt8 := fun _ => 0
  fileDownload : ℕ → ℤ := fun _ => 0
  retcode : ℕ → ℤ := fun _ => 0
  /-- the lines, with their ends, that `vsf_ls_populate_dir_list` makes of a directory, the
  options, a filter and whether full details are asked for -/
  dirLines : Bytes → Bytes → Bytes → Bool → List Bytes := fun _ _ _ _ => []
  /-- the texts of the answers that it could not use -/
  dirRespmsgs : Bytes → Bytes → Bytes → Bool → List Bytes := fun _ _ _ _ => []

variable (T : Tunables) (env : Env)

/-! ### Replies, signals, log -/

def modifySess (f : Session → Session) : M Unit := modify fun w => { w with sess := f w.sess }

def emit (e : Event) : M Unit := modify fun w => { w with events := w.events ++ [e] }

def tick : M Unit := modify fun w => { w with clock := w.clock + 1 }

/-- `vsf_log_line`: whatever it is about, it is logged as a success. -/
def vsfLogLine (what : LogEntryType) (msg : Bytes) : M Unit := do
  let w ← get
  emit (.log what true msg w.sess.logView)

/-- Lines of debugging output. -/
def vsfLogDebug : List Bytes → M Unit
  | [] => pure ()
  | msg :: msgs => do
    vsfLogLine .debug msg
    vsfLogDebug msgs

/-- The text of a reply, as the protocol is logged. -/
def outputText : Event → Bytes
  | .reply code msg => ulongText code ++ [chSpace] ++ msg
  | .hyphen code msg => ulongText code ++ text "-" ++ msg
  | .raw msg => msg
  | _ => []

/-- What is written to the control connection, or the session dies. -/
def writeControl (e : Event) : M Unit := do
  when T.logFtpProtocol (vsfLogLine .ftpOutput (outputText e))
  let w ← get
  if env.ctrlWrite w.clock then emit e else throw (.die "ftp_write")

/-- `vsf_cmdio_write_exit`. -/
def vsfCmdioWriteExit {α : Type} (code : ℕ) (msg : String) (status : ℕ) : M α := do
  writeControl T env (.reply code (text msg))
  throw (.exit code status)

/-- `handle_alarm_timeout` and `handle_sigalrm`, whichever is installed. -/
def World.onAlarm (w : World) : World :=
  match w.sess.alarmHandler with
  | .none => w
  | .idle => { w with sess := { w.sess with idleTimeout := true } }
  | .data =>
    if !w.sess.dataProgress then
      { w with sess := { w.sess with dataTimeout := true }, events := w.events ++ [.dataTimeout] }
    else { w with sess := { w.sess with dataProgress := false } }

/-- The CRs at the end of a line are dropped. -/
def stripCr (str : Bytes) : Bytes := str.rdropWhile (· = chCr)

/-- `control_getline`; `none` is its 0. -/
def controlGetline : CtrlLine → M (Option Bytes)
  | .closed => pure none
  | .tooLong => vsfCmdioWriteExit T env ftpBadcmd "Input line too long." 1
  | .line str => pure (some (stripCr (strReplaceChar str chNul chLf)))

/-- The command of a line, in upper case, and its argument. -/
def splitCommand (str : Bytes) : Bytes × Bytes :=
  let (cmd, arg) := if str = [chSpace] then (str, []) else strSplitChar str chSpace
  (strUpper cmd, arg)

theorem splitCommand_arg_subset (str : Bytes) : (splitCommand str).2 ⊆ str := by
  unfold splitCommand
  by_cases hspace : str = [chSpace]
  · rw [if_pos hspace]
    exact List.nil_subset _
  · rw [if_neg hspace]
    exact (strSplitChar_subset str chSpace).2

/-- A command as the protocol is logged, which leaves out what is behind PASS. -/
def inputText (cmd arg : Bytes) : Bytes :=
  if strEqualText cmd "PASS" then text "PASS <password>"
  else if arg ≠ [] then cmd ++ [chSpace] ++ arg
  else cmd

/-- What the read has logged, of a TLS connection that ended without a shutdown. -/
def logControlEnd : CtrlLine → M Unit
  | .closed => do
    let w ← get
    when (w.sess.controlUseSsl ∧ env.sslTruncated)
      (vsfLogDebug [text "Control connection terminated without SSL shutdown."])
  | _ => pure ()

/-- `vsf_cmdio_get_cmd_and_arg`, once its read has ended. -/
def vsfCmdioGetCmdAndArg (line : CtrlLine) : M (Bytes × Bytes) := do
  logControlEnd env line
  let ret ← controlGetline T env line
  let w ← get
  if w.sess.idleTimeout then vsfCmdioWriteExit T env ftpIdleTimeout "Timeout." 1
  else match ret with
    | none => throw .hangup
    | some str => do
      let (cmd, arg) := splitCommand str
      when T.logFtpProtocol (vsfLogLine .ftpInput (inputText cmd arg))
      pure (cmd, arg)

/-- `handle_sigurg`, with what its read finds on the control connection. -/
def handleSigurg (line : CtrlLine) : M Unit := do
  let w ← get
  if w.sess.dataFd = none then pure ()
  else do
    let (cmd, _) ← vsfCmdioGetCmdAndArg T env line
    -- the first four characters are telnet ones
    if strEqualText (if 4 ≤ cmd.length then cmd.drop 4 else []) "ABOR" then
      modify fun w =>
        { w with sess := { w.sess with aborReceived := true }, events := w.events ++ [.abor] }
    else writeControl T env (.reply ftpBadcmd (text "Unknown command."))

/-- `vsf_sysutil_check_pending_actions`, the signals. -/
def checkPendingActions : M Unit := do
  let w ← get
  tick
  when (env.signals w.clock).alarm (modify World.onAlarm)
  match (env.signals w.clock).urg with
  | none => pure ()
  | some line => when (T.asyncAborEnable ∧ !w.sess.controlUseSsl) (handleSigurg T env line)

/-- A call interrupted `n` times, the signals taken each time. -/
def interrupted : ℕ → M Unit
  | 0 => pure ()
  | n + 1 => do
    checkPendingActions T env
    interrupted n

/-- The i/o handler `handle_io`, as far as it is about the timeout. -/
def handleIo (result : ℤ) : M Unit := modifySess fun s =>
  if s.ioHandler ∧ 0 < result then { s with dataProgress := true } else s

/-- `vsf_sysutil_check_pending_actions` behind a read or a write, the ones behind
its interrupted tries first. -/
def checkPendingIo (result : ℤ) : M Unit := do
  let w ← get
  interrupted T env (env.interrupts w.clock)
  handleIo result
  checkPendingActions T env

def vsfCmdioWriteStr (code : ℕ) (msg : Bytes) : M Unit := do
  writeControl T env (.reply code msg)
  checkPendingActions T env

def vsfCmdioWrite (code : ℕ) (msg : String) : M Unit := vsfCmdioWriteStr T env code (text msg)

def vsfCmdioWriteStrHyphen (code : ℕ) (msg : Bytes) : M Unit := do
  writeControl T env (.hyphen code msg)
  checkPendingActions T env

def vsfCmdioWriteHyphen (code : ℕ) (msg : String) : M Unit :=
  vsfCmdioWriteStrHyphen T env code (text msg)

/-- `vsf_cmdio_write_raw`; `str_netfd_write` below it does not take an empty string. -/
def vsfCmdioWriteRaw (msg : Bytes) : M Unit := do
  let w ← get
  if cstr msg = [] ∧ !w.sess.controlUseSsl then throw (.bug "zero str_len in str_netfd_write")
  else do
    writeControl T env (.raw (cstr msg))
    checkPendingActions T env

def vsfLogStartEntry (what : LogEntryType) : M Unit := do
  let w ← get
  if w.sess.logType ≠ none then throw (.bug "non null log_type in vsf_log_start_entry")
  else modifySess fun s => { s with logType := some what, transferSize := 0, logStr := [] }

def vsfLogDoLog (succeeded : Bool) : M Unit := do
  let w ← get
  modify fun w' => { w' with
    events := w'.events ++ (w.sess.logType.map fun what => .log what succeeded w.sess.logStr w.sess.logView).toList
    sess := { w'.sess with logType := none } }

/-- What `process_post_login` does behind each command: a log entry that is still
open becomes one of a failure, and a transfer that stalled ends the session. -/
def commandEnd : M Unit := do
  let w ← get
  when (w.sess.logType ≠ none) (vsfLogDoLog false)
  let w ← get
  when w.sess.dataTimeout (vsfCmdioWriteExit T env ftpDataTimeout "Data timeout. Reconnect. Sorry." 1)

/-! ### What talking to the client changes

A reply, and a signal taken behind it, add to the trace and may raise the
flags of an abort or a timeout; the rest of the world stays as it is. -/

/-- The session without the flags a signal can change. -/
def Session.core (s : Session) : Session :=
  { s with aborReceived := false, dataTimeout := false, dataProgress := false, idleTimeout := false }

/-- What the trace gets from a signal, when the protocol is logged, or as debugging output. -/
inductive SignalReply : Event → Prop where
  | input (msg : Bytes) (view : LogView) : SignalReply (.log .ftpInput true msg view)
  | output (msg : Bytes) (view : LogView) : SignalReply (.log .ftpOutput true msg view)
  | debug (msg : Bytes) (view : LogView) : SignalReply (.log .debug true msg view)
  | unknown : SignalReply (.reply ftpBadcmd (text "Unknown command."))
  | tooLong : SignalReply (.reply ftpBadcmd (text "Input line too long."))
  | timeout : SignalReply (.reply ftpIdleTimeout (text "Timeout."))
  | abor : SignalReply .abor
  | dataTimeout : SignalReply .dataTimeout

/-- An event that tells of no flag. -/
def Event.Flagless (e : Event) : Prop := e ≠ .abor ∧ e ≠ .dataTimeout

/-- Only events of the kind `P` were added, and flags raised, each with its event. -/
structure Talk (P : Event → Prop) (w w' : World) : Prop where
  core : w'.sess.core = w.sess.core
  abor : w.sess.aborReceived = true → w'.sess.aborReceived = true
  timeout : w.sess.dataTimeout = true → w'.sess.dataTimeout = true
  own : w'.own = w.own
  parent : w'.parent = w.parent
  calls : w'.calls = w.calls
  cwd : w'.cwd = w.cwd
  disk : w'.disk = w.disk
  conn : w'.conn = w.conn
  events : ∃ es, w'.events = w.events ++ es ∧ (∀ e ∈ es, P e) ∧
    (.abor ∈ es → w'.sess.aborReceived = true) ∧ (.dataTimeout ∈ es → w'.sess.dataTimeout = true)

section

variable {T} {env} {P : Event → Prop}

theorem Talk.refl (w : World) : Talk P w w :=
  ⟨rfl, id, id, rfl, rfl, rfl, rfl, rfl, rfl, [], by simp⟩

theorem Talk.trans {w w' w'' : World} (h : Talk P w w') (h' : Talk P w' w'') : Talk P w w'' := by
  obtain ⟨es, hes, hP, habor, htimeout⟩ := h.events
  obtain ⟨es', hes', hP', habor', htimeout'⟩ := h'.events
  refine ⟨h'.core.trans h.core, h'.abor ∘ h.abor, h'.timeout ∘ h.timeout, h'.own.trans h.own,
    h'.parent.trans h.parent, h'.calls.trans h.calls, h'.cwd.trans h.cwd, h'.disk.trans h.disk, h'.conn.trans h.conn,
    es ++ es', by rw [hes', hes, List.append_assoc], ?_, ?_, ?_⟩
  · intro e he
    exact (List.mem_append.mp he).elim (hP e) (hP' e)
  · intro he
    exact (List.mem_append.mp he).elim (fun he => h'.abor (habor he)) habor'
  · intro he
    exact (List.mem_append.mp he).elim (fun he => h'.timeout (htimeout he)) htimeout'

instance : Std.Refl (Talk P) := ⟨Talk.refl⟩

instance : IsTrans World (Talk P) := ⟨fun _ _ _ => Talk.trans⟩

theorem Talk.mono {Q : Event → Prop} {w w' : World} (h : Talk P w w') (hPQ : ∀ e, P e → Q e) :
    Talk Q w w' := by
  obtain ⟨es, hes, hP, hflags⟩ := h.events
  exact ⟨h.core, h.abor, h.timeout, h.own, h.parent, h.calls, h.cwd, h.disk, h.conn, es, hes,
    fun e he => hPQ e (hP e he), hflags⟩

/-- The parts of the session a signal leaves alone. -/
theorem Talk.sess {α : Type} {w w' : World} (h : Talk P w w') (f : Session → α)
    (hf : ∀ s, f s.core = f s) : f w'.sess = f w.sess := by
  rw [← hf, h.core, hf]

theorem emit_talk {e : Event} (he : P e) (hflag : e.Flagless) :
    Within (Talk P) Halt.Orderly (emit e) := by
  intro w
  refine ⟨rfl, id, id, rfl, rfl, rfl, rfl, rfl, rfl, [e], rfl, ?_, ?_, ?_⟩
  · intro e' he'
    rw [List.mem_singleton.mp he']
    exact he
  · intro h
    exact absurd (List.mem_singleton.mp h).symm hflag.1
  · intro h
    exact absurd (List.mem_singleton.mp h).symm hflag.2

theorem flagless_reply {code : ℕ} {msg : Bytes} : (Event.reply code msg).Flagless :=
  ⟨Event.noConfusion, Event.noConfusion⟩

theorem tick_talk : Within (Talk P) Halt.Orderly tick :=
  fun _ => ⟨rfl, id, id, rfl, rfl, rfl, rfl, rfl, rfl, [], (List.append_nil _).symm, by simp⟩

theorem vsfLogLine_talk {what : LogEntryType} {msg : Bytes} (he : ∀ view, P (.log what true msg view)) :
    Within (Talk P) Halt.Orderly (vsfLogLine what msg) :=
  within_bind within_get fun _ => emit_talk (he _) ⟨Event.noConfusion, Event.noConfusion⟩

/-- Debugging output does not fail. -/
theorem vsfLogDebug_spec (hP : ∀ msg view, P (.log .debug true msg view)) (msgs : List Bytes) :
    ∀ w, wp (vsfLogDebug msgs) (fun _ w' => Talk P w w') (fun _ _ => False) w := by
  induction msgs with
  | nil => exact Talk.refl
  | cons msg msgs ih =>
    intro w
    have hline : Talk P w { w with events := w.events ++ [.log .debug true msg w.sess.logView] } :=
      emit_talk (hP _ _) ⟨Event.noConfusion, Event.noConfusion⟩ w
    unfold vsfLogDebug
    rw [wp_bind]
    show wp (vsfLogDebug msgs) _ _ { w with events := w.events ++ [.log .debug true msg w.sess.logView] }
    exact wp_mono (ih _) (fun _ _ h => hline.trans h) (fun _ _ hf => hf)

theorem vsfLogDebug_talk (hP : ∀ e, SignalReply e → P e) (msgs : List Bytes) :
    Within (Talk P) Halt.Orderly (vsfLogDebug msgs) := fun w =>
  wp_mono (vsfLogDebug_spec (fun _ _ => hP _ (.debug _ _)) msgs w) (fun _ _ h => h) (fun _ _ hf => hf.elim)

theorem writeControl_talk {e : Event} (he : P e) (hflag : e.Flagless) (hP : ∀ e, SignalReply e → P e) :
    Within (Talk P) Halt.Orderly (writeControl T env e) := by
  refine within_bind (within_when (vsfLogLine_talk fun view => hP _ (.output _ view))) fun _ => ?_
  exact within_bind within_get fun _ => within_ite (emit_talk he hflag) (within_throw trivial)

/-- The line of the protocol log that goes in front of a reply. -/
def World.outputLogged (T : Tunables) (e : Event) (w : World) : World :=
  if T.logFtpProtocol then
    { w with events := w.events ++ [.log .ftpOutput true (outputText e) w.sess.logView] }
  else w

theorem outputLogged_events (e : Event) (w : World) :
    ∃ es, (w.outputLogged T e).events = w.events ++ es ∧ ∀ e' ∈ es, ∃ msg view, e' = .log .ftpOutput true msg view := by
  unfold World.outputLogged
  split
  · refine ⟨_, rfl, ?_⟩
    intro e' he'
    exact ⟨_, _, List.mem_singleton.mp he'⟩
  · exact ⟨[], (List.append_nil _).symm, fun _ he => absurd he List.not_mem_nil⟩

theorem outputLogged_talk (e : Event) (w : World) : Talk SignalReply w (w.outputLogged T e) := by
  unfold World.outputLogged
  split
  · exact emit_talk (.output _ _) ⟨Event.noConfusion, Event.noConfusion⟩ w
  · exact Talk.refl w

@[simp] theorem outputLogged_sess (e : Event) (w : World) : (w.outputLogged T e).sess = w.sess := by
  unfold World.outputLogged
  split <;> rfl

/-- A reply in full. -/
theorem wp_writeControl {e : Event} {Q : Unit → World → Prop} {E : Halt → World → Prop} {w : World} :
    wp (writeControl T env e) Q E w ↔
      if env.ctrlWrite w.clock then
        Q () { w.outputLogged T e with events := (w.outputLogged T e).events ++ [e] }
      else E (.die "ftp_write") (w.outputLogged T e) := by
  unfold writeControl vsfLogLine emit World.outputLogged
  by_cases hlog : T.logFtpProtocol = true
  · simp [hlog]
  · simp [hlog]

theorem vsfCmdioWriteExit_talk {α : Type} {code status : ℕ} {msg : String}
    (he : P (.reply code (text msg))) (hcode : 400 ≤ code) (hP : ∀ e, SignalReply e → P e) :
    Within (Talk P) Halt.Orderly (vsfCmdioWriteExit T env code msg status : M α) :=
  within_bind (writeControl_talk he flagless_reply hP) fun _ => within_throw hcode

/-- A change of the flags a signal can change. -/
theorem modifySess_talk {f : Session → Session} (hcore : ∀ s, (f s).core = s.core)
    (habor : ∀ s, s.aborReceived = true → (f s).aborReceived = true)
    (htimeout : ∀ s, s.dataTimeout = true → (f s).dataTimeout = true) :
    Within (Talk P) Halt.Orderly (modifySess f) :=
  fun _ => ⟨hcore _, habor _, htimeout _, rfl, rfl, rfl, rfl, rfl, rfl, [], (List.append_nil _).symm,
    by simp⟩

theorem onAlarm_talk (hP : ∀ e, SignalReply e → P e) :
    Within (Talk P) Halt.Orderly (modify World.onAlarm) := by
  refine within_modify fun w => ?_
  unfold World.onAlarm
  split
  · exact Talk.refl w
  · exact ⟨rfl, id, id, rfl, rfl, rfl, rfl, rfl, rfl, [], by simp⟩
  · split
    · exact ⟨rfl, id, fun _ => rfl, rfl, rfl, rfl, rfl, rfl, rfl, [.dataTimeout], rfl,
        by simpa using hP _ .dataTimeout, by simp, fun _ => rfl⟩
    · exact ⟨rfl, id, id, rfl, rfl, rfl, rfl, rfl, rfl, [], by simp⟩

theorem logControlEnd_talk (line : CtrlLine) (hP : ∀ e, SignalReply e → P e) :
    Within (Talk P) Halt.Orderly (logControlEnd env line) := by
  cases line with
  | closed => exact within_bind within_get fun _ => within_when (vsfLogDebug_talk hP _)
  | tooLong => exact within_pure _
  | line str => exact within_pure _

theorem vsfCmdioGetCmdAndArg_talk (line : CtrlLine) (hP : ∀ e, SignalReply e → P e) :
    Within (Talk P) Halt.Orderly (vsfCmdioGetCmdAndArg T env line) := by
  unfold vsfCmdioGetCmdAndArg
  refine within_bind (logControlEnd_talk line hP) fun _ => ?_
  refine within_bind ?_ fun ret => within_bind within_get fun w => within_ite ?_ ?_
  · cases line with
    | closed => exact within_pure _
    | tooLong => exact vsfCmdioWriteExit_talk (hP _ .tooLong) (by decide) hP
    | line str => exact within_pure _
  · exact vsfCmdioWriteExit_talk (hP _ .timeout) (by decide) hP
  · cases ret with
    | none => exact within_throw trivial
    | some str =>
      refine within_bind (within_when (vsfLogLine_talk fun view => hP _ (.input _ view))) fun _ => ?_
      exact within_pure _

theorem handleSigurg_talk (line : CtrlLine) (hP : ∀ e, SignalReply e → P e) :
    Within (Talk P) Halt.Orderly (handleSigurg T env line) := by
  unfold handleSigurg
  refine within_bind within_get fun w => within_ite (within_pure _) ?_
  refine within_bind (vsfCmdioGetCmdAndArg_talk line hP) fun _ => within_ite (within_modify fun w => ?_) ?_
  · exact ⟨rfl, fun _ => rfl, id, rfl, rfl, rfl, rfl, rfl, rfl, [.abor], rfl, by simpa using hP _ .abor,
      fun _ => rfl, by simp⟩
  · exact writeControl_talk (hP _ .unknown) flagless_reply hP

theorem checkPendingActions_talk (hP : ∀ e, SignalReply e → P e) :
    Within (Talk P) Halt.Orderly (checkPendingActions T env) := by
  unfold checkPendingActions
  refine within_bind within_get fun w => within_bind tick_talk fun _ => ?_
  refine within_bind (within_when (onAlarm_talk hP)) fun _ => ?_
  cases (env.signals w.clock).urg with
  | none => exact within_pure _
  | some line => exact within_when (handleSigurg_talk line hP)

theorem interrupted_talk (hP : ∀ e, SignalReply e → P e) (n : ℕ) :
    Within (Talk P) Halt.Orderly (interrupted T env n) := by
  induction n with
  | zero => exact within_pure ()
  | succ n ih => exact within_bind (checkPendingActions_talk hP) fun _ => ih

theorem handleIo_talk (result : ℤ) : Within (Talk P) Halt.Orderly (handleIo result) := by
  refine modifySess_talk ?_ ?_ ?_ <;> intro s <;> split
  · rfl
  · rfl
  · exact id
  · exact id
  · exact id
  · exact id

theorem checkPendingIo_talk (hP : ∀ e, SignalReply e → P e) (result : ℤ) :
    Within (Talk P) Halt.Orderly (checkPendingIo T env result) := by
  unfold checkPendingIo
  refine within_bind within_get fun w => within_bind (interrupted_talk hP _) fun _ => ?_
  exact within_bind (handleIo_talk result) fun _ => checkPendingActions_talk hP

/-- A reply. -/
theorem vsfCmdioWriteStr_talk {code : ℕ} {msg : Bytes} (he : P (.reply code msg))
    (hP : ∀ e, SignalReply e → P e) : Within (Talk P) Halt.Orderly (vsfCmdioWriteStr T env code msg) :=
  within_bind (writeControl_talk he flagless_reply hP) fun _ => checkPendingActions_talk hP

end

/-! ### Paths -/

def prependPath (p : Bytes) : M Bytes := do
  let w ← get
  pure (prependSessionPathToFilename T w.cwd.path p)

def checkFile (p : Bytes) : M Bool := do
  let w ← get
  pure (vsfAccessSessionCheckFile T w.cwd.path p)

def resolveTildeArg (p : Bytes) : M Bytes := do
  let w ← get
  pure (resolveTilde T w.sess.homeStr env.getpwnam p)

/-- `str_session_getcwd`. -/
def strSessionGetcwd (cwd : Bytes) : Bytes := strReplaceText cwd (getUserRootDir T) []

/-- `get_cos_path_from_disk_path`. -/
def getCosPathFromDiskPath (cwd p : Bytes) : Bytes :=
  if p = [] ∨ p.head? ≠ some chSlash then strSessionGetcwd T cwd ++ [chSlash] ++ p else p

/-- The same with a slash at its end, as for a folder. -/
def getCosFolderPath (cwd p : Bytes) : Bytes :=
  let path := getCosPathFromDiskPath T cwd p
  if path.getLast? ≠ some chSlash then path ++ [chSlash] else path

end CosFtp
