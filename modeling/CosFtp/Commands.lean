/-
# The other commands

The handlers of postlogin.c that transfer nothing, with those of features.c,
opts.c and ssl.c. Each is given the argument of the command. Of the local
directories only the working directory is modelled: `str_mkdir` and `str_rmdir`
of MKD and RMD, whose results are not looked at, change no file.

Key definitions: `handleCwd`, `handlePasv`, `handlePort`, `handleEprt`, `Served`.
-/
import CosFtp.DirList

namespace CosFtp

open Wp

variable (T : Tunables) (env : Env)

/-! ### The working directory -/

def handlePwd : M Unit := do
  let w ← get
  let dir := strSessionGetcwd T w.cwd.path
  let dir := if dir = [] then [chSlash] else dir
  vsfCmdioWriteStr T env ftpPwdok
    (text "\"" ++ strReplaceText dir (text "\"") (text "\"\"") ++ text "\" is the current directory")

/-- `vsf_banner_write`, with the lines of the text. -/
def vsfBannerWrite (code : ℕ) : List Bytes → M Unit
  | [] => pure ()
  | line :: lines => do
    vsfCmdioWriteStrHyphen T env code line
    vsfBannerWrite code lines

def vsfBannerDirChanged (code : ℕ) : M Unit := do
  let w ← get
  when (T.dirmessageEnable ∧ w.cwd.path ∉ w.sess.visitedDirs) (do
    when (w.sess.visitedDirs.length < vsftpMaxVisitRemember)
      (modifySess fun s => { s with visitedDirs := s.visitedDirs ++ [w.cwd.path] })
    vsfBannerWrite T env code env.messageFile)

/-- `str_chdir`, for the `i`-th time. -/
def strChdir (path : Bytes) (i : ℕ) : M Bool := do
  when (env.chdir i) (modify fun w => { w with cwd := resolve path })
  pure (env.chdir i)

/-- The local directory is entered, and made first if it is not there. -/
def enterDirectory (path : Bytes) : M Bool := do
  let entered ← strChdir env path 0
  if entered then pure true
  else if env.mkdirs then strChdir env path 1
  else pure false

/-- Whether COS has the directory and the session went there. -/
def changeDirectory (arg : Bytes) : M Bool := do
  let isDir ← cosIsdir T env arg
  let path ← prependPath T arg
  if isDir then enterDirectory env path else pure false

/-- The answer to CWD. -/
def cwdReply (changed : Bool) : M Unit :=
  if changed then do
    vsfBannerDirChanged T env ftpCwdok
    vsfCmdioWrite T env ftpCwdok "Directory successfully changed."
  else vsfCmdioWrite T env ftpFilefail "Failed to change directory."

def handleCwd (arg : Bytes) : M Unit := do
  let arg ← resolveTildeArg T env arg
  let allowed ← checkFile T arg
  if !allowed then vsfCmdioWrite T env ftpNoperm "Permission denied."
  else do
    let changed ← changeDirectory T env arg
    cwdReply T env changed

def handleCdup : M Unit := handleCwd T env (text "..")

/-! ### Where the data connection goes -/

/-- `inet_ntoa`. -/
def inetNtoa (raw : RawAddr 4) : Bytes :=
  [chDot].intercalate (raw.1.map fun b => ulongText b.toNat)

/-- The address PASV tells the client. -/
def pasvSockaddr (localAddr : Sockaddr) : M Sockaddr :=
  match T.pasvAddress with
  | none => pure localAddr.clone
  | some numeric => match env.inetAton numeric with
    | none => throw (.die "invalid pasv_address")
    | some raw => pure (.inet raw 0)

/-- Its text; without IPv6 the address is an IPv4 one. -/
def pasvHost (isIpv6 : Bool) : Sockaddr → Bytes
  | .inet raw _ => if isIpv6 then text "0,0,0,0" else inetNtoa raw
  | .inet6 raw _ => match Sockaddr.ipv6V4 raw with
    | some v4 => inetNtoa v4
    | none => text "0,0,0,0"

def pasvReply (isIpv6 : Bool) (addr : Sockaddr) (port : UInt16) : Bytes :=
  strReplaceChar (text "Entering Passive Mode (" ++ pasvHost isIpv6 addr) chDot chComma ++ text "," ++
    ulongText (port.toNat / 256) ++ text "," ++ ulongText (port.toNat % 256) ++ text ")."

/-- What `handle_pasv` does once the argument of EPSV is known to be good. -/
def enterPassive (isEpsv : Bool) : M Unit := do
  pasvCleanup T env
  portCleanup
  let port ← onBroker T .listen env.connect (vsfPrivopPasvListen T env.connect)
  if isEpsv then
    vsfCmdioWriteStr T env ftpEpsvok
      (text "Entering Extended Passive Mode (|||" ++ ulongText port.toNat ++ text "|)")
  else do
    let w ← get
    let addr ← pasvSockaddr T env w.own.sess.localAddr
    vsfCmdioWriteStr T env ftpPasvok (pasvReply w.own.sess.localAddr.isIpv6 addr port)

def handlePasv (isEpsv : Bool) (arg : Bytes) : M Unit := do
  let w ← get
  let argval := vsfSysutilAtoi (strUpper arg)
  if isEpsv ∧ arg ≠ [] ∧ strEqualText (strUpper arg) "ALL" then do
    modifySess fun s => { s with epsvAll := true }
    vsfCmdioWrite T env ftpEpsvallok "EPSV ALL ok."
  else if isEpsv ∧ arg ≠ [] ∧
      (argval < 1 ∨ 2 < argval ∨ (!w.own.sess.localAddr.isIpv6 ∧ argval = 2)) then
    vsfCmdioWrite T env ftpEpsvbad "Bad network protocol."
  else enterPassive T env isEpsv

/-- The address is stored, then checked: the control peer's, and no reserved
port. -/
def storePortSockaddr (addr : Sockaddr) (port : UInt16) (code : ℕ) (done illegal : String) : M Unit := do
  modifySess fun s => { s with portSockaddr := some addr }
  let w ← get
  if !T.portPromiscuous ∧ (!Sockaddr.addrEqual w.own.sess.remoteAddr addr ∨ isPortReserved port) then do
    vsfCmdioWrite T env ftpBadcmd illegal
    portCleanup
  else vsfCmdioWrite T env code done

/-- The six numbers of PORT: an address and a port. -/
def parsePortArg (arg : Bytes) : Option (RawAddr 4 × UInt16) :=
  match h : parseUcharStringSep chComma 6 arg with
  | none => none
  | some vals => some
    (⟨vals.take 4, by rw [List.length_take, length_parseUcharStringSep chComma 6 h]; rfl⟩,
      UInt16.ofNat ((vals.getD 4 0).toNat * 256 + (vals.getD 5 0).toNat))

def handlePort (arg : Bytes) : M Unit := do
  pasvCleanup T env
  portCleanup
  match parsePortArg arg with
  | none => vsfCmdioWrite T env ftpBadcmd "Illegal PORT command."
  | some (raw, port) => do
    let w ← get
    storePortSockaddr T env (((w.own.sess.localAddr.clone).setIpv4addr raw).setPort port) port ftpPortok
      "PORT command successful. Consider using PASV." "Illegal PORT command."

/-- The address in EPRT, as its protocol has it. -/
def parseEprtAddr (stale : RawAddr 16) (proto : ℤ) (str : Bytes) : Option (RawAddr 4 ⊕ RawAddr 16) :=
  if proto = 2 then (parseIpv6 stale (strSplitChar str chPercent).1).map .inr
  else (parseIpv4 str).map .inl

/-- What `handle_eprt` finds in its argument, or the text of its answer. -/
def parseEprtArg (stale : RawAddr 16) (isIpv6 : Bool) (arg : Bytes) :
    Except String ((RawAddr 4 ⊕ RawAddr 16) × UInt16) :=
  let (part1, part2) := strSplitChar arg chBar
  if part1 ≠ [] then .error "Bad EPRT command."
  else
    let (part2, part1) := strSplitChar part2 chBar
    let proto := strAtoi part2
    if proto < 1 ∨ 2 < proto ∨ (!isIpv6 ∧ proto = 2) then .error "Bad EPRT protocol."
    else
      let (part1, part2) := strSplitChar part1 chBar
      match parseEprtAddr stale proto part1 with
      | none => .error "Bad EPRT command."
      | some raw =>
        let (part2, part1) := strSplitChar part2 chBar
        let port := strAtoi part2
        if part1 ≠ [] ∨ part2 = [] ∨ port < 0 ∨ 65535 < port then .error "Bad EPRT command."
        else .ok (raw, UInt16.ofNat port.toNat)

/-- The session's own address with another host; `none` is a bug. -/
def eprtSockaddr (localAddr : Sockaddr) : RawAddr 4 ⊕ RawAddr 16 → Option Sockaddr
  | .inl raw => some (localAddr.clone.setIpv4addr raw)
  | .inr raw => localAddr.clone.setIpv6addr raw

def handleEprt (arg : Bytes) : M Unit := do
  portCleanup
  pasvCleanup T env
  let w ← get
  match parseEprtArg env.stale w.own.sess.localAddr.isIpv6 arg with
  | .error msg => vsfCmdioWrite T env ftpBadcmd msg
  | .ok (raw, port) => match eprtSockaddr w.own.sess.localAddr raw with
    | none => throw (.bug "bad family")
    | some addr =>
      storePortSockaddr T env (addr.setPort port) port ftpEprtok
        "EPRT command successful. Consider using EPSV." "Illegal EPRT command."

/-! ### Changes of the bucket -/

/-- `cos_mkdir`: 0 or -1. -/
def cosMkdir (path : Bytes) : M ℤ := do
  let w ← get
  emit (.cos (.folderCreate (getCosFolderPath T w.cwd.path path)))
  if env.folderCreate = 0 then pure 0
  else do
    vsfLogLine .mkdir (cstr (env.respmsg 0))
    pure (-1)

/-- `cos_rmdir`: 0, 1 for a folder that was not there, or -1. -/
def cosRmdir (path : Bytes) : M ℤ := do
  let w ← get
  emit (.cos (.folderDelete (getCosFolderPath T w.cwd.path path)))
  if env.folderDelete = some 0 then pure 0
  else if env.folderDelete = some (-197) then pure 1
  else do
    vsfLogLine .rmdir (cstr (env.respmsg 0))
    pure (-1)

/-- MKD, RMD and DELE start alike: a log entry, and the access check. -/
def logged (what : LogEntryType) (arg : Bytes) (rest : Bytes → M Unit) : M Unit := do
  let arg ← resolveTildeArg T env arg
  vsfLogStartEntry what
  let filename ← prependPath T arg
  modifySess fun s => { s with logStr := filename }
  let allowed ← checkFile T arg
  if !allowed then vsfCmdioWrite T env ftpNoperm "Permission denied."
  else rest arg

def mkdChecked (arg : Bytes) : M Unit := do
  let retval ← cosMkdir T env arg
  if retval = -178 then vsfCmdioWrite T env ftpFilefail "Directory already exists"
  else if retval ≠ 0 then vsfCmdioWrite T env ftpFilefail "Create directory operation failed."
  else do
    vsfLogDoLog true
    vsfCmdioWriteStr T env ftpMkdirok
      (text "\"" ++ strReplaceText arg (text "\"") (text "\"\"") ++ text "\" created")

def handleMkd (arg : Bytes) : M Unit := logged T env .mkdir arg (mkdChecked T env)

/-- The folder is empty. -/
def rmdEmpty (arg : Bytes) : M Unit := do
  let retval ← cosRmdir T env arg
  if retval = 1 then vsfCmdioWrite T env ftpFilefail "Remove directory operation failed (not exist)."
  else if retval ≠ 0 then vsfCmdioWrite T env ftpFilefail "Remove directory operation failed."
  else do
    vsfLogDoLog true
    vsfCmdioWrite T env ftpRmdirok "Remove directory operation successful."

def rmdChecked (arg : Bytes) : M Unit := do
  let retval ← cosDirIsempty T env arg
  if retval = 1 then vsfCmdioWrite T env ftpFilefail "Remove directory operation failed (not empty)."
  else if retval ≠ 0 then vsfCmdioWrite T env ftpFilefail "Remove directory operation failed."
  else rmdEmpty T env arg

def handleRmd (arg : Bytes) : M Unit := logged T env .rmdir arg (rmdChecked T env)

def deleChecked (arg : Bytes) : M Unit := do
  let retval ← cosUnlink T env arg
  if retval = 1 then vsfCmdioWrite T env ftpFilefail "Delete operation failed (not exist)."
  else if retval ≠ 0 then vsfCmdioWrite T env ftpFilefail "Delete operation failed."
  else do
    vsfLogDoLog true
    vsfCmdioWrite T env ftpDeleok "Delete operation successful."

def handleDele (arg : Bytes) : M Unit := logged T env .delete arg (deleChecked T env)

/-! ### Settings of the session, and questions -/

def handleType (arg : Bytes) : M Unit :=
  if strUpper arg ∈ [text "I", text "L8", text "L 8"] then do
    modifySess fun s => { s with isAscii := false }
    vsfCmdioWrite T env ftpTypeok "Switching to Binary mode."
  else if strUpper arg ∈ [text "A", text "A N"] then do
    modifySess fun s => { s with isAscii := true }
    vsfCmdioWrite T env ftpTypeok "Switching to ASCII mode."
  else vsfCmdioWrite T env ftpBadcmd "Unrecognised TYPE command."

def handleRest (arg : Bytes) : M Unit := do
  let val := (strAToFilesizeT arg).toNat
  modifySess fun s => { s with restartPos := val }
  vsfCmdioWriteStr T env ftpRestok (text "Restart position accepted (" ++ ulongText val ++ text ").")

def handleSize (arg : Bytes) : M Unit := do
  let arg ← resolveTildeArg T env arg
  let allowed ← checkFile T arg
  if !allowed then vsfCmdioWrite T env ftpNoperm "Permission denied."
  else do
    let size ← cosStatFile T env arg
    match size with
    | none => vsfCmdioWrite T env ftpFilefail "Could not get file size."
    | some size => vsfCmdioWriteStr T env ftpSizeok (ulongText size)

/-- Raw texts, one write each. -/
def writeRaws : List Bytes → M Unit
  | [] => pure ()
  | msg :: msgs => do
    vsfCmdioWriteRaw T env msg
    writeRaws msgs

def handleHelp : M Unit := do
  vsfCmdioWriteHyphen T env ftpHelp "The following commands are recognized."
  writeRaws T env [
    text " ABOR ACCT ALLO APPE CDUP CWD  DELE EPRT EPSV FEAT HELP LIST MDTM MKD" ++ crlf,
    text " MODE NLST NOOP OPTS PASS PASV PORT PWD  QUIT REIN REST RETR RMD  RNFR" ++ crlf,
    text " RNTO SITE SIZE SMNT STAT STOR STOU STRU SYST TYPE USER XCUP XCWD XMKD" ++ crlf,
    text " XPWD XRMD" ++ crlf]
  vsfCmdioWrite T env ftpHelp "Help OK."

/-- The features that are there if a setting is. -/
def featureIf (c : Bool) (name : String) : List Bytes := if c then [text name ++ crlf] else []

def handleFeat : M Unit := do
  vsfCmdioWriteHyphen T env ftpFeat "Features:"
  writeRaws T env (
    featureIf (T.sslEnable && (T.sslv2 || T.sslv3)) " AUTH SSL" ++
    featureIf (T.sslEnable && T.tlsv1) " AUTH TLS" ++
    featureIf T.portEnable " EPRT" ++ featureIf T.pasvEnable " EPSV" ++ featureIf T.pasvEnable " PASV" ++
    featureIf T.sslEnable " PBSZ" ++ featureIf T.sslEnable " PROT" ++
    featureIf true " SIZE" ++ featureIf true " TVFS" ++ featureIf true " UTF8")
  vsfCmdioWrite T env ftpFeat "End"

def handleOpts (arg : Bytes) : M Unit :=
  if strEqualText (strUpper arg) "UTF8 ON" then vsfCmdioWrite T env ftpOptsok "Always in UTF8 mode."
  else vsfCmdioWrite T env ftpBadopts "Option not understood."

/-- The pieces of the answer to STAT. -/
def statTexts (s : Session) : List Bytes :=
  [text "     Connected to ", s.remoteIpStr, crlf, text "     Logged in as ", s.userStr, crlf,
    text "     TYPE: ", text (if s.isAscii then "ASCII" else "BINARY") ++ crlf] ++
  (if s.bwRateMax = 0 then [text "     No session bandwidth limit" ++ crlf]
    else [text "     Session bandwidth limit in byte/s is ", ulongText s.bwRateMax, crlf]) ++
  (if T.idleSessionTimeout = 0 then [text "     No session timeout" ++ crlf]
    else [text "     Session timeout in seconds is ", ulongText T.idleSessionTimeout, crlf]) ++
  [text "     Control connection is " ++ text (if s.controlUseSsl then "encrypted" else "plain text") ++ crlf,
    text "     Data connections will be " ++ text (if s.dataUseSsl then "encrypted" else "plain text") ++
      crlf] ++
  (if 0 < s.numClients then [text "     At session startup, client count was ", ulongText s.numClients, crlf]
    else []) ++
  [text "     vsFTPd 3.0.3 - secure, fast, stable" ++ crlf]

def handleStat : M Unit := do
  let w ← get
  vsfCmdioWriteHyphen T env ftpStatok "FTP server status:"
  writeRaws T env (statTexts T w.sess)
  vsfCmdioWrite T env ftpStatok "End of status"

def handlePbsz : M Unit := do
  let w ← get
  if !w.sess.controlUseSsl then vsfCmdioWrite T env ftpBadpbsz "PBSZ needs a secure connection."
  else vsfCmdioWrite T env ftpPbszok "PBSZ set to 0."

def handleProt (arg : Bytes) : M Unit := do
  let w ← get
  if !w.sess.controlUseSsl then vsfCmdioWrite T env ftpBadprot "PROT needs a secure connection."
  else if strEqualText (strUpper arg) "C" then do
    modifySess fun s => { s with dataUseSsl := false }
    vsfCmdioWrite T env ftpProtok "PROT now Clear."
  else if strEqualText (strUpper arg) "P" then do
    modifySess fun s => { s with dataUseSsl := true }
    vsfCmdioWrite T env ftpProtok "PROT now Private."
  else if strUpper arg ∈ [text "S", text "E"] then
    vsfCmdioWrite T env ftpNohandleprot "PROT not supported."
  else vsfCmdioWrite T env ftpNosuchprot "PROT not recognized."

def handleLoggedInUser (arg : Bytes) : M Unit := do
  let w ← get
  if w.sess.isAnonymous then vsfCmdioWrite T env ftpLoginerr "Can't change from guest user."
  else if w.sess.userStr = arg then vsfCmdioWrite T env ftpGivepword "Any password will do."
  else vsfCmdioWrite T env ftpLoginerr "Can't change to another user."

def handleLoggedInPass : M Unit := vsfCmdioWrite T env ftpLoginok "Already logged in."

/-! ### What a command may do

One relation for all commands, from the state in which a command is read to the
state behind its handler. -/

/-- An address a session may connect to: the control peer's, with a port that is
not reserved, unless `port_promiscuous` is on. -/
def PeerAddr (own : PrivSess) (addr : Sockaddr) : Prop :=
  T.portPromiscuous = false →
    addr.ip = own.remoteAddr.ip ∧ ipportReserved ≤ addr.getPort.toNat

/-- A command was served: the data connection is closed, at most one way to a
next one is open, a new PORT address is the peer's, and the session has not moved
but to the directory `move`, behind the access check. -/
structure Served (T : Tunables) (move : Option Bytes) (w w' : World) : Prop where
  idle : w'.ctl.Idle T
  home : w'.ctl.homeStr = w.ctl.homeStr
  own : ∃ fd, w'.ctl.own = w.ctl.own.withListener fd
  port : w'.ctl.portSockaddr = w.ctl.portSockaddr ∨
    ∀ addr, w'.ctl.portSockaddr = some addr → PeerAddr T w.ctl.own addr
  cwd : w'.ctl.cwd = w.ctl.cwd ∨ ∃ a, move = some a ∧
    vsfAccessSessionCheckFile T w.cwd.path a = true ∧
    w'.ctl.cwd = resolve (prependSessionPathToFilename T w.cwd.path a)

/-- An end of the session in the loop: on an error that the client is told of, on
QUIT, or on a reply without a text. -/
def Halt.Expected (e : Halt) : Prop :=
  e.Orderly ∨ e = .exit ftpGoodbye 0 ∨ e = .bug "zero str_len in str_netfd_write"

section

variable {T} {env} {w : World} {move : Option Bytes}

theorem Handled.served {w w' : World} (h : Handled T w w') : Served T move w w' := by
  refine ⟨h.idle, h.home, h.own, ?_, .inl h.cwd⟩
  rcases h.port with hp | hp
  · exact .inl hp
  · right
    intro addr haddr
    rw [hp] at haddr
    cases haddr

theorem served_of_handled {α : Type} {x : M α}
    (h : wp x (fun _ w' => Handled T w w') (fun e _ => e.Orderly) w) :
    wp x (fun _ w' => Served T move w w') (fun e _ => e.Expected) w := by
  refine wp_mono h ?_ ?_
  · intro _ w1 hw1
    exact hw1.served
  · intro e _ he
    exact .inl he

theorem served_of_loose {α : Type} {x : M α} (h : w.ctl.Idle T) (hx : Within Loose Halt.Orderly x) :
    wp x (fun _ w' => Served T move w w') (fun e _ => e.Expected) w := by
  refine wp_mono (hx w) ?_ ?_
  · intro _ w1 hw1
    exact (hw1.handled h).served
  · intro e _ he
    exact .inl he.1

theorem served_of_ctl {α : Type} {x : M α} (h : w.ctl.Idle T) (hx : Within SameCtl Halt.Orderly x) :
    wp x (fun _ w' => Served T move w w') (fun e _ => e.Expected) w :=
  served_of_loose h (loose_of_sameCtl hx)

/-! ### CWD -/

theorem vsfBannerWrite_ctl (code : ℕ) (lines : List Bytes) :
    Within SameCtl Halt.Orderly (vsfBannerWrite T env code lines) := by
  induction lines with
  | nil => exact within_pure ()
  | cons line lines ih => exact within_bind (vsfCmdioWriteHyphen_ctl code line) fun _ => ih

theorem vsfBannerDirChanged_ctl (code : ℕ) :
    Within SameCtl Halt.Orderly (vsfBannerDirChanged T env code) := by
  unfold vsfBannerDirChanged
  refine within_bind within_get fun w => within_when (within_bind (within_when ?_) fun _ => ?_)
  · exact modifySess_ctl (fun _ => rfl) (fun _ => rfl) (fun _ => rfl) (fun _ => rfl) (fun _ => rfl)
  · exact vsfBannerWrite_ctl code _

theorem cwdReply_ctl (changed : Bool) : Within SameCtl Halt.Orderly (cwdReply T env changed) := by
  unfold cwdReply
  refine within_ite ?_ (vsfCmdioWrite_ctl _ _)
  exact within_bind (vsfBannerDirChanged_ctl _) fun _ => vsfCmdioWrite_ctl _ _

/-- With the session in another directory. -/
def Ctl.inDir (c : Ctl) (cwd : Dir) : Ctl := { c with cwd := cwd }

/-- The session has gone nowhere, or to `dir`. -/
def Entered (dir : Dir) (w w' : World) : Prop := w'.ctl = w.ctl ∨ w'.ctl = w.ctl.inDir dir

theorem strChdir_spec (path : Bytes) (i : ℕ) (w : World) :
    wp (strChdir env path i) (fun _ w' => Entered (resolve path) w w') (fun _ _ => False) w := by
  unfold strChdir
  rw [wp_bind, wp_when]
  split
  · exact .inr rfl
  · exact .inl rfl

theorem enterDirectory_spec (path : Bytes) (w : World) :
    wp (enterDirectory env path) (fun _ w' => Entered (resolve path) w w') (fun _ _ => False) w := by
  unfold enterDirectory
  rw [wp_bind]
  refine wp_mono (strChdir_spec path 0 w) ?_ (fun _ _ he => he)
  intro entered w1 hw1
  simp only [wp_ite, wp_pure]
  split
  · exact hw1
  split
  · refine wp_mono (strChdir_spec path 1 w1) ?_ (fun _ _ he => he)
    intro _ w2 hw2
    rcases hw2 with hw2 | hw2
    · rw [Entered, hw2]
      exact hw1
    · right
      rw [hw2]
      rcases hw1 with hw1 | hw1
      · rw [hw1]
      · rw [hw1]
        rfl
  · exact hw1

theorem changeDirectory_spec (arg : Bytes) (w : World) :
    wp (changeDirectory T env arg)
      (fun _ w' => Entered (resolve (prependSessionPathToFilename T w.cwd.path arg)) w w')
      (fun e _ => e.Orderly) w := by
  unfold changeDirectory prependPath
  rw [wp_bind]
  refine wp_mono (cosIsdir_ctl arg w) ?_ (fun _ _ he => he.1)
  intro isDir w1 hw1
  have hctl : w1.ctl = w.ctl := hw1
  have hcwd : w1.cwd = w.cwd := congrArg Ctl.cwd hctl
  simp only [wp_bind, wp_get, wp_pure, wp_ite]
  rw [hcwd]
  split
  · refine wp_mono (enterDirectory_spec _ w1) ?_ (fun _ _ he => he.elim)
    intro _ w2 hw2
    rw [Entered, ← hctl]
    exact hw2
  · exact .inl hctl

/-- **CWD goes only where the access check allows.** -/
theorem handleCwd_served (h : w.ctl.Idle T) (arg : Bytes) :
    wp (handleCwd T env arg)
      (fun _ w' => Served T (some (resolveTilde T w.sess.homeStr env.getpwnam arg)) w w')
      (fun e _ => e.Expected) w := by
  unfold handleCwd resolveTildeArg checkFile
  simp only [wp_bind, wp_get, wp_pure]
  rw [wp_ite]
  split
  · exact served_of_ctl h (vsfCmdioWrite_ctl _ _)
  · rename_i hallowed
    set a := resolveTilde T w.sess.homeStr env.getpwnam arg with ha
    rw [wp_bind]
    refine wp_mono (changeDirectory_spec a w) ?_ (fun _ _ he => .inl he)
    intro changed w1 hw1
    refine wp_mono (cwdReply_ctl changed w1) ?_ (fun _ _ he => .inl he.1)
    intro _ w2 hw2
    have hctl : w2.ctl = w1.ctl := hw2
    rcases hw1 with hw1 | hw1
    · exact (SameCtl.loose (hctl.trans hw1)).handled h |>.served
    · rw [hw1] at hctl
      refine ⟨?_, ?_, ⟨w.ctl.own.pasvListenFd, ?_⟩, .inl ?_, .inr ⟨a, rfl, ?_, ?_⟩⟩
      · rw [hctl]
        exact ⟨h.dataFd, h.ioHandler, h.exclusive⟩
      · rw [hctl]
        rfl
      · rw [hctl]
        rfl
      · rw [hctl]
        rfl
      · simpa using hallowed
      · rw [hctl]
        rfl

/-! ### PASV, PORT and EPRT -/

/-- With neither a PORT address nor a listener. -/
def Ctl.cleared (T : Tunables) (c : Ctl) : Ctl := { c.setListenFd T none with portSockaddr := none }

theorem Ctl.own_setListenFd (c : Ctl) (fd : Option Fd) :
    ∃ fd', (c.setListenFd T fd).own = c.own.withListener fd' := by
  unfold Ctl.setListenFd
  split
  · exact ⟨fd, rfl⟩
  · exact ⟨c.own.pasvListenFd, rfl⟩

theorem Ctl.listenFd_cleared (c : Ctl) : (c.cleared T).listenFd T = none := by
  show (c.setListenFd T none).listenFd T = none
  rw [Ctl.listenFd_setListenFd]

/-- PASV and PORT give up what was asked for before. -/
theorem pasvPortCleanup_spec (env : Env) (w : World) :
    wp (do pasvCleanup T env; portCleanup) (fun _ w' => w'.ctl = w.ctl.cleared T)
      (fun e _ => e.Orderly) w := by
  rw [wp_bind]
  refine wp_mono pasvCleanup_spec ?_ (fun _ _ he => he)
  intro _ w1 hw1
  refine wp_mono portCleanup_spec ?_ (fun _ _ he => he.elim)
  intro _ w2 hw2
  rw [hw2, hw1]
  rfl

/-- So does EPRT, the other way round. -/
theorem portPasvCleanup_spec (env : Env) (w : World) :
    wp (do portCleanup; pasvCleanup T env) (fun _ w' => w'.ctl = w.ctl.cleared T)
      (fun e _ => e.Orderly) w := by
  rw [wp_bind]
  refine wp_mono portCleanup_spec ?_ (fun _ _ he => he.elim)
  intro _ w1 hw1
  refine wp_mono pasvCleanup_spec ?_ (fun _ _ he => he)
  intro _ w2 hw2
  rw [hw2, hw1]
  unfold Ctl.cleared Ctl.setListenFd
  split <;> rfl

theorem Ctl.Idle.cleared {c : Ctl} (h : c.Idle T) : (c.cleared T).Idle T := by
  refine ⟨?_, ?_, .inl rfl⟩
  · show (c.setListenFd T none).dataFd = none
    rw [Ctl.dataFd_setListenFd]
    exact h.dataFd
  · show (c.setListenFd T none).ioHandler = false
    rw [Ctl.ioHandler_setListenFd]
    exact h.ioHandler

/-- A command that first gives up what was asked for before. -/
theorem Served.of_cleared {w w1 w2 : World} (hw1 : w1.ctl = w.ctl.cleared T) (h : Served T none w1 w2) :
    Served T move w w2 := by
  obtain ⟨fd1, hown1⟩ := Ctl.own_setListenFd (T := T) w.ctl none
  have hown : w1.ctl.own = w.ctl.own.withListener fd1 := by
    rw [hw1]
    exact hown1
  obtain ⟨fd2, hown2⟩ := h.own
  refine ⟨h.idle, ?_, ⟨fd2, ?_⟩, .inr ?_, ?_⟩
  · rw [h.home, hw1]
    exact Ctl.homeStr_setListenFd _ _
  · rw [hown2, hown]
    rfl
  · intro addr haddr
    rcases h.port with hp | hp
    · rw [hp, hw1] at haddr
      cases haddr
    · have hpeer := hp addr haddr
      rw [hown] at hpeer
      exact hpeer
  · left
    rcases h.cwd with hc | ⟨a, ha, -⟩
    · rw [hc, hw1]
      exact Ctl.cwd_setListenFd _ _
    · cases ha

theorem listen_spec (h : w.ctl.Idle T) (hport : w.ctl.portSockaddr = none) :
    wp (onBroker T .listen env.connect (vsfPrivopPasvListen T env.connect)) (fun _ w' => Served T none w w')
      (fun e _ => e.Orderly) w := by
  rw [wp_onBroker]
  refine wp_mono (vsfPrivopPasvListen_sess env.connect _) ?_ (fun _ _ he => he)
  intro _ p hp
  obtain ⟨fd, hfd⟩ := hp
  have hctl := ctl_setBroker (c := .listen) (e := env.connect) hfd
  have hport' : (w.setBroker T .listen env.connect p).ctl.portSockaddr = none := by
    rw [hctl, Ctl.portSockaddr_setListenFd, hport]
  refine ⟨⟨?_, ?_, .inl hport'⟩, ?_, ?_, .inl (hport'.trans hport.symm), .inl ?_⟩
  · rw [hctl, Ctl.dataFd_setListenFd]
    exact h.dataFd
  · rw [hctl, Ctl.ioHandler_setListenFd]
    exact h.ioHandler
  · rw [hctl, Ctl.homeStr_setListenFd]
  · rw [hctl]
    exact Ctl.own_setListenFd _ _
  · rw [hctl, Ctl.cwd_setListenFd]

/-- What follows leaves the control state alone. -/
theorem Served.sameCtl {w w1 w2 : World} (h : Served T move w w1) (h' : SameCtl w1 w2) :
    Served T move w w2 := by
  have hctl : w2.ctl = w1.ctl := h'
  obtain ⟨hidle, hhome, hown, hport, hcwd⟩ := h
  rw [← hctl] at hidle hhome hown hport hcwd
  exact ⟨hidle, hhome, hown, hport, hcwd⟩

/-- What comes before leaves it alone too. -/
theorem Served.sameCtl_left {w w1 w2 : World} (h : Served T move w1 w2) (h' : SameCtl w w1) :
    Served T move w w2 := by
  have hctl : w1.ctl = w.ctl := h'
  have hcwd : w1.cwd = w.cwd := congrArg Ctl.cwd hctl
  obtain ⟨hidle, hhome, hown, hport, hmove⟩ := h
  rw [hctl] at hhome hown hport hmove
  rw [hcwd] at hmove
  exact ⟨hidle, hhome, hown, hport, hmove⟩

/-- The log entry is ended, or the PORT address dropped, behind a command. -/
theorem Served.loose {w w1 w2 : World} (h : Served T move w w1) (h' : Loose w1 w2) :
    Served T move w w2 := by
  obtain ⟨fd, hown⟩ := h.own
  refine ⟨h'.idle h.idle, h'.home.trans h.home, ⟨fd, h'.own.trans hown⟩, ?_, ?_⟩
  · rcases h'.port with hp | hp
    · rw [hp]
      exact h.port
    · right
      intro addr haddr
      rw [hp] at haddr
      cases haddr
  · rw [h'.cwd]
    exact h.cwd

theorem pasvSockaddr_ctl (localAddr : Sockaddr) :
    Within SameCtl Halt.Orderly (pasvSockaddr T env localAddr) := by
  unfold pasvSockaddr
  split
  · exact within_pure _
  · split
    · exact within_throw trivial
    · exact within_pure _

/-- A command that first gives up the listener and the PORT address goes on without them. -/
theorem served_of_cleanup {first second rest : M Unit} (h : w.ctl.Idle T)
    (hclean : wp (do first; second) (fun _ w' => w'.ctl = w.ctl.cleared T) (fun e _ => e.Orderly) w)
    (hrest : ∀ w1, w1.ctl.Idle T → w1.ctl.listenFd T = none → w1.ctl.portSockaddr = none →
      wp rest (fun _ w' => Served T none w1 w') (fun e _ => e.Orderly) w1) :
    wp (do first; second; rest) (fun _ w' => Served T move w w') (fun e _ => e.Expected) w := by
  refine wp_bind_bind hclean (fun _ w1 hw1 => ?_) (fun _ _ he => .inl he)
  have hidle : w1.ctl.Idle T := by
    rw [hw1]
    exact h.cleared
  have hlisten : w1.ctl.listenFd T = none := by
    rw [hw1]
    exact Ctl.listenFd_cleared _
  have hport : w1.ctl.portSockaddr = none := by
    rw [hw1]
    rfl
  refine wp_mono (hrest w1 hidle hlisten hport) ?_ (fun _ _ he => .inl he)
  exact fun _ w2 hw2 => hw2.of_cleared hw1

theorem enterPassive_served (h : w.ctl.Idle T) (isEpsv : Bool) :
    wp (enterPassive T env isEpsv) (fun _ w' => Served T move w w') (fun e _ => e.Expected) w := by
  have hreply : ∀ port, Within SameCtl Halt.Orderly
      (if isEpsv then
        vsfCmdioWriteStr T env ftpEpsvok
          (text "Entering Extended Passive Mode (|||" ++ ulongText (UInt16.toNat port) ++ text "|)")
      else do
        let w ← get
        let addr ← pasvSockaddr T env w.own.sess.localAddr
        vsfCmdioWriteStr T env ftpPasvok (pasvReply w.own.sess.localAddr.isIpv6 addr port)) := by
    intro port
    refine within_ite (vsfCmdioWriteStr_ctl _ _) (within_bind within_get fun w => ?_)
    exact within_bind (pasvSockaddr_ctl _) fun _ => vsfCmdioWriteStr_ctl _ _
  unfold enterPassive
  refine served_of_cleanup h (pasvPortCleanup_spec env w) fun w1 hidle _ hport => ?_
  rw [wp_bind]
  refine wp_mono (listen_spec hidle hport) ?_ (fun _ _ he => he)
  intro port w2 hw2
  refine wp_mono (hreply port w2) ?_ (fun _ _ he => he.1)
  exact fun _ w3 hw3 => hw2.sameCtl hw3

theorem handlePasv_served (h : w.ctl.Idle T) (isEpsv : Bool) (arg : Bytes) :
    wp (handlePasv T env isEpsv arg) (fun _ w' => Served T move w w') (fun e _ => e.Expected) w := by
  unfold handlePasv
  rw [wp_bind, wp_get]
  simp only []
  rw [wp_ite]
  split
  · apply served_of_ctl h
    refine within_bind ?_ fun _ => vsfCmdioWrite_ctl _ _
    exact modifySess_ctl (fun _ => rfl) (fun _ => rfl) (fun _ => rfl) (fun _ => rfl) (fun _ => rfl)
  rw [wp_ite]
  split
  · exact served_of_ctl h (vsfCmdioWrite_ctl _ _)
  · exact enterPassive_served h isEpsv

/-- **A PORT address that is kept is the peer's.** -/
theorem storePortSockaddr_served {addr : Sockaddr} {port : UInt16} (h : w.ctl.Idle T)
    (hlisten : w.ctl.listenFd T = none) (hport : addr.getPort = port) (code : ℕ) (done illegal : String) :
    wp (storePortSockaddr T env addr port code done illegal) (fun _ w' => Served T none w w')
      (fun e _ => e.Orderly) w := by
  unfold storePortSockaddr
  rw [wp_bind, modifySess, wp_modify, wp_bind, wp_get]
  set w1 : World := { w with sess := { w.sess with portSockaddr := some addr } } with hw1
  have hctl : w1.ctl = { w.ctl with portSockaddr := some addr } := rfl
  rw [wp_ite]
  split
  · rw [wp_bind]
    refine wp_mono (vsfCmdioWrite_ctl _ _ w1) ?_ (fun _ _ he => he.1)
    intro _ w2 hw2
    refine wp_mono portCleanup_spec ?_ (fun _ _ he => he.elim)
    intro _ w3 hw3
    rw [show w2.ctl = w1.ctl from hw2, hctl] at hw3
    refine ⟨?_, ?_, ⟨w.ctl.own.pasvListenFd, ?_⟩, .inr ?_, .inl ?_⟩
    · rw [hw3]
      exact ⟨h.dataFd, h.ioHandler, .inl rfl⟩
    · rw [hw3]
    · rw [hw3]
      rfl
    · rw [hw3]
      intro addr' haddr'
      cases haddr'
    · rw [hw3]
  · rename_i hkept
    have hpeer : PeerAddr T w.ctl.own addr := by
      intro hpromiscuous
      have hboth : Sockaddr.addrEqual w.own.sess.remoteAddr addr = true ∧ ¬ isPortReserved port = true := by
        simpa [hpromiscuous, hw1] using hkept
      refine ⟨((Sockaddr.addrEqual_iff _ _).mp hboth.1).symm, ?_⟩
      rw [hport]
      exact not_isPortReserved hboth.2
    refine wp_mono (vsfCmdioWrite_ctl _ _ w1) ?_ (fun _ _ he => he.1)
    intro _ w2 hw2
    have hctl2 : w2.ctl = { w.ctl with portSockaddr := some addr } := Eq.trans hw2 hctl
    refine ⟨?_, ?_, ⟨w.ctl.own.pasvListenFd, ?_⟩, .inr ?_, .inl ?_⟩
    · rw [hctl2]
      exact ⟨h.dataFd, h.ioHandler, .inr hlisten⟩
    · rw [hctl2]
    · rw [hctl2]
      rfl
    · rw [hctl2]
      intro addr' haddr'
      obtain rfl : addr = addr' := Option.some.inj haddr'
      exact hpeer
    · rw [hctl2]

theorem handlePort_served (h : w.ctl.Idle T) (arg : Bytes) :
    wp (handlePort T env arg) (fun _ w' => Served T move w w') (fun e _ => e.Expected) w := by
  unfold handlePort
  refine served_of_cleanup h (pasvPortCleanup_spec env w) fun w1 hidle hlisten _ => ?_
  cases parsePortArg arg with
  | none =>
    refine wp_mono (vsfCmdioWrite_ctl _ _ w1) ?_ (fun _ _ he => he.1)
    exact fun _ w2 hw2 => ((SameCtl.loose hw2).handled hidle).served
  | some vals =>
    rw [wp_bind, wp_get]
    exact storePortSockaddr_served hidle hlisten (Sockaddr.getPort_setPort _ _) _ _ _

/-- The protocol 2 is accepted by a session on IPv6 only. -/
theorem eprtSockaddr_of_parseEprtArg {stale : RawAddr 16} {localAddr : Sockaddr} {arg : Bytes}
    {raw : RawAddr 4 ⊕ RawAddr 16} {port : UInt16}
    (h : parseEprtArg stale localAddr.isIpv6 arg = .ok (raw, port)) : eprtSockaddr localAddr raw ≠ none := by
  cases raw with
  | inl v4 => exact Option.some_ne_none _
  | inr v6 =>
    cases localAddr with
    | inet6 a p => exact Option.some_ne_none _
    | inet a p =>
      exfalso
      unfold parseEprtArg at h
      simp only [Sockaddr.isIpv6, Bool.not_false, true_and] at h
      split at h
      · cases h
      split at h
      · cases h
      rename_i hproto
      unfold parseEprtAddr at h
      rw [if_neg (fun h2 => hproto (.inr (.inr h2)))] at h
      split at h
      · cases h
      · rename_i heq
        obtain ⟨v4, -, rfl⟩ := Option.map_eq_some_iff.mp heq
        split at h
        · cases h
        · cases h

theorem handleEprt_served (h : w.ctl.Idle T) (arg : Bytes) :
    wp (handleEprt T env arg) (fun _ w' => Served T move w w') (fun e _ => e.Expected) w := by
  unfold handleEprt
  refine served_of_cleanup h (portPasvCleanup_spec env w) fun w1 hidle hlisten _ => ?_
  rw [wp_bind, wp_get]
  cases hparse : parseEprtArg env.stale w1.own.sess.localAddr.isIpv6 arg with
  | error msg =>
    refine wp_mono (vsfCmdioWrite_ctl _ _ w1) ?_ (fun _ _ he => he.1)
    exact fun _ w2 hw2 => ((SameCtl.loose hw2).handled hidle).served
  | ok found =>
    obtain ⟨raw, port⟩ := found
    have hsome := eprtSockaddr_of_parseEprtArg hparse
    cases haddr : eprtSockaddr w1.own.sess.localAddr raw with
    | none => exact absurd haddr hsome
    | some addr =>
      simp only [haddr]
      exact storePortSockaddr_served hidle hlisten (Sockaddr.getPort_setPort _ _) _ _ _

/-! ### The rest -/

theorem loose_of_log {w w1 : World} {log : Option LogEntryType}
    (h : w1.ctl = { w.ctl with logType := log }) : Loose w w1 := by
  refine ⟨?_, ?_, .inl ?_, ?_, ?_, ?_, ?_⟩ <;> rw [h]

/-- MKD, RMD and DELE leave at most the log entry behind. -/
theorem logged_served {what : LogEntryType} {rest : Bytes → M Unit} (h : w.ctl.Idle T)
    (hlog : w.ctl.logType = none) (hrest : ∀ arg, Within Loose Halt.Orderly (rest arg)) (arg : Bytes) :
    wp (logged T env what arg rest) (fun _ w' => Served T move w w') (fun e _ => e.Expected) w := by
  have hcheck : ∀ (allowed : Bool) (arg : Bytes), Within Loose Halt.Orderly
      (if !allowed then vsfCmdioWrite T env ftpNoperm "Permission denied." else rest arg) := by
    intro allowed arg
    exact within_ite (loose_of_sameCtl (vsfCmdioWrite_ctl _ _)) (hrest arg)
  unfold logged
  simp only [resolveTildeArg, prependPath, checkFile, wp_bind, wp_get, wp_pure]
  refine wp_mono (vsfLogStartEntry_spec hlog what) ?_ (fun _ _ he => he.elim)
  intro _ w1 hw1
  have hloose : ∀ filename, Loose w { w1 with sess := { w1.sess with logStr := filename } } := by
    intro filename
    exact loose_of_log hw1
  rw [modifySess, wp_modify]
  refine wp_mono (hcheck _ _ _) ?_ (fun _ _ he => .inl he.1)
  intro _ w2 hw2
  exact ((hloose _).trans hw2).handled h |>.served

/-- A command that says it is done and logs it. -/
theorem logDone_loose (code : ℕ) (msg : Bytes) :
    Within Loose Halt.Orderly (do vsfLogDoLog true; vsfCmdioWriteStr T env code msg) :=
  within_bind (vsfLogDoLog_loose true) fun _ => loose_of_sameCtl (vsfCmdioWriteStr_ctl _ _)

theorem vsfCmdioWrite_loose (code : ℕ) (msg : String) :
    Within Loose Halt.Orderly (vsfCmdioWrite T env code msg) := loose_of_sameCtl (vsfCmdioWrite_ctl _ _)

section

variable {R : World → World → Prop} [Std.Refl R] [IsTrans World R] {C : Halt → Prop}

theorem cosMkdir_within (hcreate : ∀ path, Within R C (emit (.cos (.folderCreate path))))
    (hlog : ∀ msg view, Within R C (emit (.log .mkdir true msg view))) (path : Bytes) :
    Within R C (cosMkdir T env path) := by
  unfold cosMkdir
  refine within_bind within_get fun w => within_bind (hcreate _) fun _ => within_ite (within_pure _) ?_
  exact within_bind (within_bind within_get fun _ => hlog _ _) fun _ => within_pure _

theorem cosRmdir_within (hdelete : ∀ path, Within R C (emit (.cos (.folderDelete path))))
    (hlog : ∀ msg view, Within R C (emit (.log .rmdir true msg view))) (path : Bytes) :
    Within R C (cosRmdir T env path) := by
  unfold cosRmdir
  refine within_bind within_get fun w => within_bind (hdelete _) fun _ => ?_
  refine within_ite (within_pure _) (within_ite (within_pure _) ?_)
  exact within_bind (within_bind within_get fun _ => hlog _ _) fun _ => within_pure _

end

theorem mkdChecked_loose (arg : Bytes) : Within Loose Halt.Orderly (mkdChecked T env arg) := by
  have hmkdir : Within SameCtl Halt.Orderly (cosMkdir T env arg) :=
    cosMkdir_within (fun _ => emit_ctl _) (fun _ _ => emit_ctl _) arg
  unfold mkdChecked
  refine within_bind (loose_of_sameCtl hmkdir) fun retval => within_ite (vsfCmdioWrite_loose _ _) ?_
  exact within_ite (vsfCmdioWrite_loose _ _) (logDone_loose _ _)

theorem rmdChecked_loose (arg : Bytes) : Within Loose Halt.Orderly (rmdChecked T env arg) := by
  have hrmdir : Within SameCtl Halt.Orderly (cosRmdir T env arg) :=
    cosRmdir_within (fun _ => emit_ctl _) (fun _ _ => emit_ctl _) arg
  unfold rmdChecked rmdEmpty
  refine within_bind (loose_of_sameCtl (cosDirIsempty_ctl arg)) fun retval => ?_
  refine within_ite (vsfCmdioWrite_loose _ _) (within_ite (vsfCmdioWrite_loose _ _) ?_)
  refine within_bind (loose_of_sameCtl hrmdir) fun retval => within_ite (vsfCmdioWrite_loose _ _) ?_
  exact within_ite (vsfCmdioWrite_loose _ _) (logDone_loose _ _)

theorem deleChecked_loose (arg : Bytes) : Within Loose Halt.Orderly (deleChecked T env arg) := by
  unfold deleChecked
  refine within_bind (loose_of_sameCtl (cosUnlink_ctl arg)) fun retval => ?_
  exact within_ite (vsfCmdioWrite_loose _ _) (within_ite (vsfCmdioWrite_loose _ _) (logDone_loose _ _))

theorem handleType_ctl (arg : Bytes) : Within SameCtl Halt.Orderly (handleType T env arg) := by
  unfold handleType
  refine within_ite (within_bind ?_ fun _ => vsfCmdioWrite_ctl _ _)
    (within_ite (within_bind ?_ fun _ => vsfCmdioWrite_ctl _ _) (vsfCmdioWrite_ctl _ _))
  · exact modifySess_ctl (fun _ => rfl) (fun _ => rfl) (fun _ => rfl) (fun _ => rfl) (fun _ => rfl)
  · exact modifySess_ctl (fun _ => rfl) (fun _ => rfl) (fun _ => rfl) (fun _ => rfl) (fun _ => rfl)

theorem handleRest_ctl (arg : Bytes) : Within SameCtl Halt.Orderly (handleRest T env arg) := by
  unfold handleRest
  refine within_bind ?_ fun _ => vsfCmdioWriteStr_ctl _ _
  exact modifySess_ctl (fun _ => rfl) (fun _ => rfl) (fun _ => rfl) (fun _ => rfl) (fun _ => rfl)

theorem handleSize_ctl (arg : Bytes) : Within SameCtl Halt.Orderly (handleSize T env arg) := by
  unfold handleSize resolveTildeArg checkFile
  refine within_bind (within_bind within_get fun _ => within_pure _) fun arg => ?_
  refine within_bind (within_bind within_get fun _ => within_pure _) fun allowed => ?_
  refine within_ite (vsfCmdioWrite_ctl _ _) (within_bind (cosStatFile_ctl arg) fun size => ?_)
  cases size with
  | none => exact vsfCmdioWrite_ctl _ _
  | some size => exact vsfCmdioWriteStr_ctl _ _

theorem handlePwd_ctl : Within SameCtl Halt.Orderly (handlePwd T env) :=
  within_bind within_get fun _ => vsfCmdioWriteStr_ctl _ _

theorem handleOpts_ctl (arg : Bytes) : Within SameCtl Halt.Orderly (handleOpts T env arg) :=
  within_ite (vsfCmdioWrite_ctl _ _) (vsfCmdioWrite_ctl _ _)

theorem handlePbsz_ctl : Within SameCtl Halt.Orderly (handlePbsz T env) :=
  within_bind within_get fun _ => within_ite (vsfCmdioWrite_ctl _ _) (vsfCmdioWrite_ctl _ _)

theorem handleProt_ctl (arg : Bytes) : Within SameCtl Halt.Orderly (handleProt T env arg) := by
  unfold handleProt
  refine within_bind within_get fun w => within_ite (vsfCmdioWrite_ctl _ _) ?_
  refine within_ite (within_bind ?_ fun _ => vsfCmdioWrite_ctl _ _) ?_
  · exact modifySess_ctl (fun _ => rfl) (fun _ => rfl) (fun _ => rfl) (fun _ => rfl) (fun _ => rfl)
  refine within_ite (within_bind ?_ fun _ => vsfCmdioWrite_ctl _ _) ?_
  · exact modifySess_ctl (fun _ => rfl) (fun _ => rfl) (fun _ => rfl) (fun _ => rfl) (fun _ => rfl)
  exact within_ite (vsfCmdioWrite_ctl _ _) (vsfCmdioWrite_ctl _ _)

theorem handleLoggedInUser_ctl (arg : Bytes) :
    Within SameCtl Halt.Orderly (handleLoggedInUser T env arg) := by
  unfold handleLoggedInUser
  refine within_bind within_get fun w => within_ite (vsfCmdioWrite_ctl _ _) ?_
  exact within_ite (vsfCmdioWrite_ctl _ _) (vsfCmdioWrite_ctl _ _)

/-! A raw text may be empty, which is the one bug the replies can run into. -/

theorem expected_of_orderly {α : Type} {R : World → World → Prop} {x : M α} (h : Within R Halt.Orderly x) :
    Within R Halt.Expected x := by
  intro w
  refine wp_mono (h w) ?_ ?_
  · exact fun _ _ hq => hq
  · exact fun _ _ he => ⟨.inl he.1, he.2⟩

theorem writeRaws_talk (msgs : List Bytes) :
    Within (Talk fun _ => True) Halt.Expected (writeRaws T env msgs) := by
  induction msgs with
  | nil => exact within_pure ()
  | cons msg msgs ih =>
    refine within_bind ?_ fun _ => ih
    have hflag : (Event.raw (cstr msg)).Flagless := ⟨Event.noConfusion, Event.noConfusion⟩
    unfold vsfCmdioWriteRaw
    refine within_bind within_get fun w => within_ite (within_throw (.inr (.inr rfl))) ?_
    apply expected_of_orderly
    exact within_bind (writeControl_talk trivial hflag fun _ _ => trivial) fun _ => checkPendingActions_talk fun _ _ => trivial

/-- A reply of several lines: HELP, FEAT and STAT. -/
theorem hyphened_talk (code : ℕ) (first last : String) (msgs : List Bytes) :
    Within (Talk fun _ => True) Halt.Expected (do
      vsfCmdioWriteHyphen T env code first
      writeRaws T env msgs
      vsfCmdioWrite T env code last) := by
  have hflag : (Event.hyphen code (text first)).Flagless := ⟨Event.noConfusion, Event.noConfusion⟩
  have hfirst : Within (Talk fun _ => True) Halt.Orderly (vsfCmdioWriteHyphen T env code first) :=
    within_bind (writeControl_talk trivial hflag fun _ _ => trivial) fun _ => checkPendingActions_talk fun _ _ => trivial
  refine within_bind (expected_of_orderly hfirst) fun _ => within_bind (writeRaws_talk msgs) fun _ => ?_
  exact expected_of_orderly (vsfCmdioWriteStr_talk trivial fun _ _ => trivial)

theorem hyphened_ctl (code : ℕ) (first last : String) (msgs : List Bytes) :
    Within SameCtl Halt.Expected (do
      vsfCmdioWriteHyphen T env code first
      writeRaws T env msgs
      vsfCmdioWrite T env code last) := (hyphened_talk code first last msgs).mono fun _ _ => Talk.sameCtl

theorem served_of_expected {α : Type} {x : M α} (h : w.ctl.Idle T) (hx : Within SameCtl Halt.Expected x) :
    wp x (fun _ w' => Served T move w w') (fun e _ => e.Expected) w := by
  refine wp_mono (hx w) ?_ (fun _ _ he => he.1)
  intro _ w1 hw1
  exact (SameCtl.loose hw1).handled h |>.served

theorem handleStat_ctl : Within SameCtl Halt.Expected (handleStat T env) :=
  within_bind within_get fun _ => hyphened_ctl _ _ _ _

end

end CosFtp
