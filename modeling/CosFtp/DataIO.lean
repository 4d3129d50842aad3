/-
# Data connections

How a session gets its data connection and gives it up again: the PORT
address or the passive listener that is waiting, the connection made from it,
the TLS handshake behind the 150 reply, and the close at the end, which is
also where an abort or a timeout of the transfer is found out
(ftpdataio.c, with `port_active` to `get_remote_transfer_fd` of postlogin.c).

`port_active` and `pasv_active` call each other, so they are given the number
of calls the stack has room for.
-/
import CosFtp.Session

namespace CosFtp

open Wp

variable (T : Tunables) (env : Env)

/-- A privileged operation of the parent, which is asked for it. -/
def onParent {α : Type} (c : Call) (e : PrivEnv) (x : PrivM α) : M α :=
  zoom (·.parent) (fun p w => { w with parent := p, calls := w.calls ++ [(c, e)] }) x

/-- A privileged operation, in the process that does them for the session. -/
def onBroker {α : Type} (c : Call) (e : PrivEnv) (x : PrivM α) : M α :=
  if T.oneProcessModel then zoom (·.own) (fun p w => { w with own := p }) x else onParent c e x

/-- The calls the stack has room for. -/
def stackDepth : ℕ := 100

mutual

def portActive : ℕ → M Bool
  | 0 => throw .deepRecursion
  | n + 1 => do
    let w ← get
    if w.sess.portSockaddr = none then pure false
    else do
      let pasv ← pasvActive n
      if pasv then throw (.bug "port and pasv both active") else pure true

def pasvActive : ℕ → M Bool
  | 0 => throw .deepRecursion
  | n + 1 => do
    let ret ← onBroker T .pasvActive {} vsfPrivopPasvActive
    if !ret then pure false
    else do
      let port ← portActive n
      if port then throw (.bug "pasv and port both active") else pure true

end

def portCleanup : M Unit := modifySess fun s => { s with portSockaddr := none }

def pasvCleanup : M Unit := do
  let w ← get
  onBroker T .pasvCleanup (env.cleanup w.clock) (vsfPrivopPasvCleanup (env.cleanup w.clock))
  tick

/-- Whether a data connection was asked for. -/
def portOrPasvActive : M Bool := do
  let pasv ← pasvActive T stackDepth
  if pasv then pure true else portActive T stackDepth

/-- A data connection would have to be encrypted, and is not. -/
def dataNeedsEncryption (s : Session) : Bool :=
  T.sslEnable && !s.dataUseSsl &&
    ((T.forceLocalDataSsl && !s.isAnonymous) || (T.forceAnonDataSsl && s.isAnonymous))

def dataTransferChecksOk : M Bool := do
  let active ← portOrPasvActive T
  if !active then do
    vsfCmdioWrite T env ftpBadsendconn "Use PORT or PASV first."
    pure false
  else do
    let w ← get
    if dataNeedsEncryption T w.sess then do
      vsfCmdioWrite T env ftpNeedencrypt "Data connections must be encrypted."
      pure false
    else pure true

/-! ### Making the connection -/

def startDataAlarm : M Unit := modifySess fun s =>
  if 0 < T.dataConnectionTimeout then { s with alarmHandler := .data }
  else if 0 < T.idleSessionTimeout then { s with alarmHandler := .none }
  else s

def vsfSysutilInstallIoHandler : M Unit := do
  let w ← get
  if w.sess.ioHandler then throw (.bug "double register of i/o handler")
  else modifySess fun s => { s with ioHandler := true }

def vsfSysutilUninstallIoHandler : M Unit := do
  let w ← get
  if w.sess.ioHandler then modifySess fun s => { s with ioHandler := false }
  else throw (.bug "no i/o handler to unregister!")

def initDataSockParams (fd : Fd) : M Unit := do
  let w ← get
  if w.sess.dataFd ≠ none then
    throw (.bug "data descriptor still present in init_data_sock_params")
  else do
    modifySess fun s => { s with dataFd := some fd, dataProgress := false }
    if !env.sockopts then throw (.die "setsockopt")
    else do
      vsfSysutilInstallIoHandler
      startDataAlarm T
      modify fun w => { w with conn := { incoming := env.stream } }

/-- `vsf_one_process_get_pasv_fd` and its two process counterpart; the wait for the
client is one for signals too. -/
def getPasvFd : M (Except ℤ Fd) := do
  let conn ← onBroker T .getPasvFd env.connect (vsfPrivopAcceptPasv T env.connect)
  checkPendingActions T env
  pure conn

def vsfFtpdataioGetPasvFd : M Bool := do
  let conn ← getPasvFd T env
  match conn with
  | .error e => do
    vsfCmdioWrite T env ftpBadsendconn
      (if e = -1 then "Failed to establish connection." else "Security: Bad IP connecting.")
    pure false
  | .ok fd => do
    initDataSockParams T env fd
    pure true

/-- The connection to the PORT address, by the process that may make it. -/
def connectDataSock : M (Option Fd) := do
  let w ← get
  match w.sess.portSockaddr with
  | none => throw .segv
  | some addr =>
    if T.oneProcessModel ∨ T.portPromiscuous then
      zoom (·.own) (fun p w => { w with own := p })
        (vsfPrivopGetFtpPortSock env.connect addr.getPort (some addr))
    else
      onParent (.getPrivDataSock addr.getPort) env.connect
        (vsfPrivopGetFtpPortSock env.connect addr.getPort none)

/-- `vsf_one_process_get_priv_data_sock` and its two process counterpart. -/
def getPrivDataSock : M (Option Fd) := do
  let sock ← connectDataSock T env
  checkPendingActions T env
  pure sock

def vsfFtpdataioGetPortFd : M Bool := do
  let sock ← getPrivDataSock T env
  match sock with
  | none => do
    vsfCmdioWrite T env ftpBadsendconn "Failed to establish connection."
    pure false
  | some fd => do
    initDataSockParams T env fd
    pure true

/-- `ssl_accept`. -/
def sslAccept : M Bool := do
  let w ← get
  if w.sess.dataSsl then throw (.die "p_data_ssl should be NULL.")
  else do
    vsfLogDebug env.sslHandshakeLog
    modifySess fun s => { s with dataSsl := env.sslHandshake }
    pure env.sslHandshake

def vsfFtpdataioPostMarkConnect : M Bool := do
  let w ← get
  if !w.sess.dataUseSsl then pure true
  else do
    let ret ← if !w.sess.sslSlaveActive then sslAccept env
      else do
        vsfLogDebug env.sslHandshakeLog
        checkPendingActions T env
        pure env.sslHandshake
    if ret then pure true
    else if T.requireSslReuse then
      vsfCmdioWriteExit T env ftpDatatlsbad "SSL connection failed: session reuse required" 1
    else do
      vsfCmdioWrite T env ftpDatatlsbad "SSL connection failed"
      pure false

/-! ### Giving it up -/

/-- The TLS close of `vsf_ftpdataio_dispose_transfer_fd`. -/
def disposeSsl : M Bool := do
  let w ← get
  if w.sess.dataUseSsl ∧ w.sess.sslSlaveActive then do
    startDataAlarm T
    vsfLogDebug env.sslCloseLog
    checkPendingActions T env
    pure env.sslClose
  else if w.sess.dataSsl then do
    startDataAlarm T
    vsfLogDebug env.sslCloseLog
    modifySess fun s => { s with dataSsl := false }
    pure env.sslClose
  else pure true

def vsfFtpdataioDisposeTransferFd : M Bool := do
  let w ← get
  if w.sess.dataFd = none then
    throw (.bug "no data descriptor in vsf_ftpdataio_dispose_transfer_fd")
  else do
    vsfSysutilUninstallIoHandler
    let closed ← disposeSsl T env
    let w ← get
    -- without a failure the close lingers, to get more accurate transfer times
    when (!w.sess.aborReceived ∧ !w.sess.dataTimeout ∧ closed) (do
      startDataAlarm T
      if env.linger then pure () else throw (.die "setsockopt: linger"))
    modifySess fun s => { s with dataFd := none }
    let w ← get
    pure (closed && !(w.sess.aborReceived || w.sess.dataTimeout))

/-- `get_remote_transfer_fd`; `false` is its -1. -/
def getRemoteTransferFd (statusMsg : Bytes) : M Bool := do
  let active ← portOrPasvActive T
  if !active then throw (.bug "neither PORT nor PASV active in get_remote_transfer_fd")
  else do
    modifySess fun s => { s with aborReceived := false }
    let pasv ← pasvActive T stackDepth
    let connected ← if pasv then vsfFtpdataioGetPasvFd T env else vsfFtpdataioGetPortFd T env
    if !connected then pure false
    else do
      vsfCmdioWriteStr T env ftpDataconn statusMsg
      let ok ← vsfFtpdataioPostMarkConnect T env
      if ok then pure true
      else do
        let _ ← vsfFtpdataioDisposeTransferFd T env
        pure false

def checkAbor : M Unit := do
  let w ← get
  when w.sess.aborReceived (do
    modifySess fun s => { s with aborReceived := false }
    vsfCmdioWrite T env ftpAborok "ABOR successful.")

/-! ### The parts of a start

Both functions go on behind a choice, and their proofs need what goes on by a
name of its own. -/

/-- The TLS handshake, by this process or by the SSL slave. -/
def dataHandshake (own : Bool) : M Bool :=
  if own then sslAccept env
  else do
    vsfLogDebug env.sslHandshakeLog
    checkPendingActions T env
    pure env.sslHandshake

/-- What a handshake comes to. -/
def handshakeAnswer (ret : Bool) : M Bool :=
  if ret then pure true
  else if T.requireSslReuse then
    vsfCmdioWriteExit T env ftpDatatlsbad "SSL connection failed: session reuse required" 1
  else do
    vsfCmdioWrite T env ftpDatatlsbad "SSL connection failed"
    pure false

theorem vsfFtpdataioPostMarkConnect_eq :
    vsfFtpdataioPostMarkConnect T env = (do
      let w ← get
      if !w.sess.dataUseSsl then pure true
      else do
        let ret ← dataHandshake T env (!w.sess.sslSlaveActive)
        handshakeAnswer T env ret) := by
  unfold vsfFtpdataioPostMarkConnect dataHandshake
  refine bind_congr fun w => ?_
  cases w.sess.dataUseSsl with
  | false => rfl
  | true =>
    cases w.sess.sslSlaveActive with
    | false => rfl
    | true =>
      show _ = (do
        vsfLogDebug env.sslHandshakeLog
        checkPendingActions T env
        pure env.sslHandshake) >>= handshakeAnswer T env
      rw [bind_assoc, bind_assoc]
      rfl

/-- The connection, by the listener or to the PORT address. -/
def connectTransfer (pasv : Bool) : M Bool :=
  if pasv then vsfFtpdataioGetPasvFd T env else vsfFtpdataioGetPortFd T env

/-- The mark, and the handshake behind it. -/
def markTransfer (statusMsg : Bytes) : M Bool := do
  vsfCmdioWriteStr T env ftpDataconn statusMsg
  let ok ← vsfFtpdataioPostMarkConnect T env
  if ok then pure true
  else do
    let _ ← vsfFtpdataioDisposeTransferFd T env
    pure false

theorem getRemoteTransferFd_eq (statusMsg : Bytes) :
    getRemoteTransferFd T env statusMsg = (do
      let active ← portOrPasvActive T
      if !active then throw (.bug "neither PORT nor PASV active in get_remote_transfer_fd")
      else do
        modifySess fun s => { s with aborReceived := false }
        let pasv ← pasvActive T stackDepth
        let connected ← connectTransfer T env pasv
        if !connected then pure false else markTransfer T env statusMsg) := by
  unfold getRemoteTransferFd connectTransfer
  refine bind_congr fun active => ?_
  cases active with
  | false => rfl
  | true => exact bind_congr fun _ => bind_congr fun pasv => by cases pasv <;> rfl

/-! ### The control state

What decides whether a command may start: the data connection, its i/o
handler, the PORT address, the listener and the log entry. Everything else
that happens in a command leaves these as they are. -/

/-- The part of the world the data connection and the log are kept in. -/
structure Ctl where
  dataFd : Option Fd
  ioHandler : Bool
  portSockaddr : Option Sockaddr
  logType : Option LogEntryType
  own : PrivSess
  parentListenFd : Option Fd
  cwd : Dir
  homeStr : Bytes

def World.ctl (w : World) : Ctl where
  dataFd := w.sess.dataFd
  ioHandler := w.sess.ioHandler
  portSockaddr := w.sess.portSockaddr
  logType := w.sess.logType
  own := w.own.sess
  parentListenFd := w.parent.sess.pasvListenFd
  cwd := w.cwd
  homeStr := w.sess.homeStr

/-- The passive listener of the process that holds it. -/
def Ctl.listenFd (c : Ctl) : Option Fd :=
  if T.oneProcessModel then c.own.pasvListenFd else c.parentListenFd

/-- With another listener in that process. -/
def Ctl.setListenFd (c : Ctl) (fd : Option Fd) : Ctl :=
  if T.oneProcessModel then { c with own := { c.own with pasvListenFd := fd } }
  else { c with parentListenFd := fd }

/-- Never is a PORT address stored while a listener is open. -/
def Ctl.Exclusive (c : Ctl) : Prop := c.portSockaddr = none ∨ c.listenFd T = none

/-- A data connection was asked for. -/
def Ctl.active (c : Ctl) : Bool := (c.listenFd T).isSome || c.portSockaddr.isSome

/-- No data connection is open. -/
structure Ctl.Idle (c : Ctl) : Prop where
  dataFd : c.dataFd = none
  ioHandler : c.ioHandler = false
  exclusive : c.Exclusive T

/-- The PORT address may have been dropped and the log entry changed. -/
structure Loose (w w' : World) : Prop where
  dataFd : w'.ctl.dataFd = w.ctl.dataFd
  ioHandler : w'.ctl.ioHandler = w.ctl.ioHandler
  port : w'.ctl.portSockaddr = w.ctl.portSockaddr ∨ w'.ctl.portSockaddr = none
  own : w'.ctl.own = w.ctl.own
  parent : w'.ctl.parentListenFd = w.ctl.parentListenFd
  cwd : w'.ctl.cwd = w.ctl.cwd
  home : w'.ctl.homeStr = w.ctl.homeStr

instance : Std.Refl Loose := ⟨fun _ => ⟨rfl, rfl, .inl rfl, rfl, rfl, rfl, rfl⟩⟩

theorem Loose.trans {w w' w'' : World} (h : Loose w w') (h' : Loose w' w'') : Loose w w'' := by
  refine ⟨h'.dataFd.trans h.dataFd, h'.ioHandler.trans h.ioHandler, ?_, h'.own.trans h.own,
    h'.parent.trans h.parent, h'.cwd.trans h.cwd, h'.home.trans h.home⟩
  rcases h'.port with h'p | h'p
  · rw [h'p]
    exact h.port
  · exact .inr h'p

instance : IsTrans World Loose := ⟨fun _ _ _ => Loose.trans⟩

def SameCtl (w w' : World) : Prop := w'.ctl = w.ctl

instance : Std.Refl SameCtl := ⟨fun _ => rfl⟩

instance : IsTrans World SameCtl := ⟨fun _ _ _ h h' => Eq.trans h' h⟩

section

variable {T} {env} {w : World}

theorem SameCtl.loose {w w' : World} (h : SameCtl w w') : Loose w w' := by
  have h' : w'.ctl = w.ctl := h
  refine ⟨?_, ?_, .inl ?_, ?_, ?_, ?_, ?_⟩ <;> rw [h']

theorem loose_of_sameCtl {α : Type} {x : M α} (h : Within SameCtl Halt.Orderly x) :
    Within Loose Halt.Orderly x := Within.mono h fun _ _ => SameCtl.loose

theorem Loose.idle {w w' : World} (h : Loose w w') (hw : w.ctl.Idle T) : w'.ctl.Idle T := by
  refine ⟨h.dataFd.trans hw.dataFd, h.ioHandler.trans hw.ioHandler, ?_⟩
  have hlisten : w'.ctl.listenFd T = w.ctl.listenFd T := by
    unfold Ctl.listenFd
    rw [h.own, h.parent]
  rcases h.port with hp | hp
  · rcases hw.exclusive with he | he
    · exact .inl (hp.trans he)
    · exact .inr (hlisten.trans he)
  · exact .inl hp

@[simp] theorem Ctl.listenFd_setListenFd (c : Ctl) (fd : Option Fd) :
    (c.setListenFd T fd).listenFd T = fd := by
  unfold Ctl.setListenFd Ctl.listenFd
  split <;> rfl

@[simp] theorem Ctl.portSockaddr_setListenFd (c : Ctl) (fd : Option Fd) :
    (c.setListenFd T fd).portSockaddr = c.portSockaddr := by
  unfold Ctl.setListenFd
  split <;> rfl

@[simp] theorem Ctl.dataFd_setListenFd (c : Ctl) (fd : Option Fd) :
    (c.setListenFd T fd).dataFd = c.dataFd := by
  unfold Ctl.setListenFd
  split <;> rfl

@[simp] theorem Ctl.ioHandler_setListenFd (c : Ctl) (fd : Option Fd) :
    (c.setListenFd T fd).ioHandler = c.ioHandler := by
  unfold Ctl.setListenFd
  split <;> rfl

@[simp] theorem Ctl.cwd_setListenFd (c : Ctl) (fd : Option Fd) :
    (c.setListenFd T fd).cwd = c.cwd := by
  unfold Ctl.setListenFd
  split <;> rfl

@[simp] theorem Ctl.homeStr_setListenFd (c : Ctl) (fd : Option Fd) :
    (c.setListenFd T fd).homeStr = c.homeStr := by
  unfold Ctl.setListenFd
  split <;> rfl

theorem Talk.sameCtl {P : Event → Prop} {w w' : World} (h : Talk P w w') : SameCtl w w' := by
  have hfd := h.sess (·.dataFd) fun _ => rfl
  have hio := h.sess (·.ioHandler) fun _ => rfl
  have hport := h.sess (·.portSockaddr) fun _ => rfl
  have hlog := h.sess (·.logType) fun _ => rfl
  have hhome := h.sess (·.homeStr) fun _ => rfl
  unfold SameCtl World.ctl
  rw [hfd, hio, hport, hlog, hhome, h.own, h.parent, h.cwd]

/-- Talking to the client does not touch the control state. -/
theorem sameCtl_of_talk {α : Type} {P : Event → Prop} {x : M α}
    (h : Within (Talk P) Halt.Orderly x) : Within SameCtl Halt.Orderly x :=
  h.mono fun _ _ => Talk.sameCtl

theorem vsfCmdioWriteStr_ctl (code : ℕ) (msg : Bytes) :
    Within SameCtl Halt.Orderly (vsfCmdioWriteStr T env code msg) :=
  sameCtl_of_talk (vsfCmdioWriteStr_talk (P := fun _ => True) trivial fun _ _ => trivial)

theorem vsfCmdioWrite_ctl (code : ℕ) (msg : String) :
    Within SameCtl Halt.Orderly (vsfCmdioWrite T env code msg) := vsfCmdioWriteStr_ctl code (text msg)

theorem checkPendingActions_ctl : Within SameCtl Halt.Orderly (checkPendingActions T env) :=
  sameCtl_of_talk (checkPendingActions_talk (P := fun _ => True) fun _ _ => trivial)

theorem vsfLogDebug_ctl (msgs : List Bytes) : Within SameCtl Halt.Orderly (vsfLogDebug msgs) :=
  sameCtl_of_talk (vsfLogDebug_talk (P := fun _ => True) (fun _ _ => trivial) msgs)

/-- A change of the session's other fields. -/
theorem modifySess_ctl {f : Session → Session} (hfd : ∀ s, (f s).dataFd = s.dataFd)
    (hio : ∀ s, (f s).ioHandler = s.ioHandler) (hport : ∀ s, (f s).portSockaddr = s.portSockaddr)
    (hlog : ∀ s, (f s).logType = s.logType) (hhome : ∀ s, (f s).homeStr = s.homeStr) :
    Within SameCtl Halt.Orderly (modifySess f) := by
  intro w
  show World.ctl _ = _
  unfold World.ctl
  simp only [hfd, hio, hport, hlog, hhome]

/-! ### Asking for a connection, and taking it back -/

/-- The state the privileged operations work on. -/
def World.broker (T : Tunables) (w : World) : PrivState := if T.oneProcessModel then w.own else w.parent

/-- Behind a call of the broker. -/
def World.setBroker (T : Tunables) (w : World) (c : Call) (e : PrivEnv) (p : PrivState) : World :=
  if T.oneProcessModel then { w with own := p } else { w with parent := p, calls := w.calls ++ [(c, e)] }

theorem wp_onBroker {α : Type} (c : Call) (e : PrivEnv) (x : PrivM α) (Q : α → World → Prop)
    (E : Halt → World → Prop) : wp (onBroker T c e x) Q E w ↔
      wp x (fun a p => Q a (w.setBroker T c e p)) (fun e' p => E e' (w.setBroker T c e p)) (w.broker T) := by
  unfold onBroker onParent World.setBroker World.broker
  split <;> rw [wp_zoom]

theorem listenFd_ctl (w : World) : w.ctl.listenFd T = (w.broker T).sess.pasvListenFd := by
  unfold Ctl.listenFd World.broker
  split <;> rfl

theorem ctl_setBroker {c : Call} {e : PrivEnv} {p : PrivState} {fd : Option Fd}
    (h : p.sess = (w.broker T).sess.withListener fd) : (w.setBroker T c e p).ctl = w.ctl.setListenFd T fd := by
  unfold World.setBroker World.broker Ctl.setListenFd at *
  split
  · rename_i hone
    rw [if_pos hone] at h
    unfold World.ctl
    rw [h]
    rfl
  · rename_i hone
    rw [if_neg hone] at h
    unfold World.ctl
    rw [h]
    rfl

theorem sameCtl_setBroker {c : Call} {e : PrivEnv} {p : PrivState} (h : SameSess (w.broker T) p) :
    SameCtl w (w.setBroker T c e p) := by
  unfold SameCtl World.setBroker World.broker at *
  split
  · rename_i hone
    rw [if_pos hone] at h
    unfold World.ctl
    rw [show p.sess = w.own.sess from h]
  · rename_i hone
    rw [if_neg hone] at h
    unfold World.ctl
    rw [show p.sess = w.parent.sess from h]

theorem onBroker_ctl {α : Type} {c : Call} {e : PrivEnv} {x : PrivM α} (h : Within SameSess Halt.Orderly x) :
    Within SameCtl Halt.Orderly (onBroker T c e x) := by
  intro w
  rw [wp_onBroker]
  refine wp_mono (h _) ?_ ?_
  · intro _ p hp
    exact sameCtl_setBroker hp
  · intro _ p hp
    exact ⟨hp.1, sameCtl_setBroker hp.2⟩

/-- The calls of a session go on. -/
def OnlyCalls (w w' : World) : Prop := ∃ calls, w' = { w with calls := w.calls ++ calls }

instance : Std.Refl OnlyCalls where
  refl _ := ⟨[], by simp⟩

instance : IsTrans World OnlyCalls where
  trans := by
    rintro w _ _ ⟨calls, rfl⟩ ⟨calls', rfl⟩
    exact ⟨calls ++ calls', by simp⟩

theorem OnlyCalls.sess {w' : World} (h : OnlyCalls w w') : w'.sess = w.sess := by
  obtain ⟨calls, rfl⟩ := h
  rfl

theorem OnlyCalls.broker {w' : World} (h : OnlyCalls w w') : w'.broker T = w.broker T := by
  obtain ⟨calls, rfl⟩ := h
  rfl

theorem OnlyCalls.ctl {w' : World} (h : OnlyCalls w w') : w'.ctl = w.ctl := by
  obtain ⟨calls, rfl⟩ := h
  rfl

theorem onlyCalls_setBroker (c : Call) (e : PrivEnv) : OnlyCalls w (w.setBroker T c e (w.broker T)) := by
  unfold World.setBroker World.broker
  split
  · exact ⟨[], by simp⟩
  · exact ⟨[(c, e)], rfl⟩

/-- The question for the listener. -/
theorem askPasvActive_spec (Q : Bool → World → Prop) (E : Halt → World → Prop) :
    wp (onBroker T .pasvActive {} vsfPrivopPasvActive) Q E w ↔
      Q (w.broker T).sess.pasvListenFd.isSome (w.setBroker T .pasvActive {} (w.broker T)) := by
  rw [wp_onBroker, vsfPrivopPasvActive, wp_bind, wp_get, wp_pure]

/-- With at most one of the two set, each question ends at the other one's. -/
theorem pasvActive_spec (h : w.ctl.Exclusive T) (n : ℕ) :
    wp (pasvActive T (n + 2)) (fun pasv w' => pasv = (w.ctl.listenFd T).isSome ∧ OnlyCalls w w') (fun _ _ => False) w := by
  have hask : OnlyCalls w (w.setBroker T .pasvActive {} (w.broker T)) := onlyCalls_setBroker _ _
  unfold pasvActive
  rw [wp_bind, askPasvActive_spec, listenFd_ctl]
  cases hfd : (w.broker T).sess.pasvListenFd with
  | none => exact ⟨rfl, hask⟩
  | some fd =>
    have hport : (w.setBroker T .pasvActive {} (w.broker T)).sess.portSockaddr = none := by
      rw [hask.sess]
      refine h.resolve_right ?_
      rw [listenFd_ctl, hfd]
      exact Option.some_ne_none fd
    rw [if_neg (by simp), portActive, wp_bind, wp_bind, wp_get, if_pos hport]
    exact ⟨rfl, hask⟩

theorem portActive_spec (h : w.ctl.Exclusive T) (n : ℕ) :
    wp (portActive T (n + 3)) (fun port w' => port = w.ctl.portSockaddr.isSome ∧ OnlyCalls w w') (fun _ _ => False) w := by
  have hfield : w.ctl.portSockaddr = w.sess.portSockaddr := rfl
  unfold portActive
  rw [wp_bind, wp_get, hfield]
  cases hport : w.sess.portSockaddr with
  | none => exact ⟨rfl, Std.Refl.refl w⟩
  | some addr =>
    have hlisten : w.ctl.listenFd T = none := by
      refine h.resolve_left ?_
      rw [hfield, hport]
      exact Option.some_ne_none addr
    rw [if_neg (Option.some_ne_none addr), wp_bind]
    refine wp_mono (pasvActive_spec h n) ?_ (fun _ _ hf => hf)
    rintro pasv w' ⟨rfl, hw'⟩
    rw [hlisten]
    exact ⟨rfl, hw'⟩

theorem portOrPasvActive_spec (h : w.ctl.Exclusive T) :
    wp (portOrPasvActive T) (fun active w' => active = w.ctl.active T ∧ OnlyCalls w w') (fun _ _ => False) w := by
  unfold portOrPasvActive stackDepth Ctl.active
  rw [wp_bind]
  refine wp_mono (pasvActive_spec h _) ?_ (fun _ _ hf => hf)
  rintro pasv w1 ⟨rfl, hw1⟩
  cases hlisten : w.ctl.listenFd T with
  | some fd => exact ⟨rfl, hw1⟩
  | none =>
    have hex : w1.ctl.Exclusive T := by rwa [hw1.ctl]
    refine wp_mono (portActive_spec hex _) ?_ (fun _ _ hf => hf)
    rintro port w2 ⟨rfl, hw2⟩
    exact ⟨by rw [hw1.ctl]; rfl, IsTrans.trans _ _ _ hw1 hw2⟩

/-- With both set the two questions have no answer. -/
theorem active_not_exclusive (n : ℕ) : ∀ {w : World}, ¬ w.ctl.Exclusive T →
    wp (portActive T n) (fun _ _ => False) (fun _ w' => OnlyCalls w w') w ∧
      wp (pasvActive T n) (fun _ _ => False) (fun _ w' => OnlyCalls w w') w := by
  induction n with
  | zero =>
    intro w h
    have hself : OnlyCalls w w := Std.Refl.refl w
    exact ⟨by unfold portActive; exact hself, by unfold pasvActive; exact hself⟩
  | succ n ih =>
    intro w h
    obtain ⟨haddr, hlisten⟩ := not_or.mp h
    rw [listenFd_ctl] at hlisten
    constructor
    · unfold portActive
      rw [wp_bind, wp_get, if_neg (show w.sess.portSockaddr ≠ none from haddr), wp_bind]
      exact wp_mono (ih h).2 (fun _ _ hf => hf.elim) (fun _ _ he => he)
    · have hask : OnlyCalls w (w.setBroker T .pasvActive {} (w.broker T)) := onlyCalls_setBroker _ _
      have hboth : ¬ (w.setBroker T .pasvActive {} (w.broker T)).ctl.Exclusive T := by rwa [hask.ctl]
      unfold pasvActive
      rw [wp_bind, askPasvActive_spec, Option.isSome_iff_ne_none.mpr hlisten, if_neg (by simp), wp_bind]
      exact wp_mono (ih hboth).1 (fun _ _ hf => hf.elim) (fun _ _ he => IsTrans.trans _ _ _ hask he)

theorem portCleanup_spec :
    wp portCleanup (fun _ w' => w'.ctl = { w.ctl with portSockaddr := none }) (fun _ _ => False) w := rfl

theorem pasvCleanup_spec :
    wp (pasvCleanup T env) (fun _ w' => w'.ctl = w.ctl.setListenFd T none) (fun e _ => e.Orderly) w := by
  unfold pasvCleanup
  simp only [wp_bind, wp_get, wp_onBroker]
  refine wp_mono (vsfPrivopPasvCleanup_sess _ _) ?_ (fun _ _ he => he)
  intro _ p hp
  exact ctl_setBroker hp

theorem dataTransferChecksOk_spec (h : w.ctl.Exclusive T) :
    wp (dataTransferChecksOk T env) (fun ok w' => SameCtl w w' ∧ (ok = true → w.ctl.active T = true))
      (fun e _ => e.Orderly) w := by
  unfold dataTransferChecksOk
  rw [wp_bind]
  refine wp_mono (portOrPasvActive_spec h) ?_ (fun _ _ hf => hf.elim)
  rintro active w1 ⟨rfl, hw1⟩
  have hsame : SameCtl w w1 := hw1.ctl
  cases hactive : w.ctl.active T with
  | false =>
    simp only [Bool.not_false, if_true, wp_bind, wp_pure]
    refine wp_mono (vsfCmdioWrite_ctl _ _ w1) ?_ (fun _ _ he => he.1)
    intro _ w' hw'
    exact ⟨IsTrans.trans _ _ _ hsame hw', by simp⟩
  | true =>
    simp only [Bool.not_true, Bool.false_eq_true, if_false, wp_bind, wp_get, wp_ite, wp_pure]
    split
    · refine wp_mono (vsfCmdioWrite_ctl _ _ w1) ?_ (fun _ _ he => he.1)
      intro _ w' hw'
      exact ⟨IsTrans.trans _ _ _ hsame hw', by simp⟩
    · exact ⟨hsame, fun _ => trivial⟩

/-! ### The connection -/

/-- With the connection open on `fd`. -/
def Ctl.opened (c : Ctl) (fd : Fd) : Ctl := { c with dataFd := some fd, ioHandler := true }

/-- With no connection. -/
def Ctl.closed (c : Ctl) : Ctl := { c with dataFd := none, ioHandler := false }

theorem Ctl.closed_opened {c : Ctl} (h : c.Idle T) (fd : Fd) : (c.opened fd).closed = c := by
  unfold Ctl.opened Ctl.closed
  rw [← h.dataFd, ← h.ioHandler]

theorem startDataAlarm_ctl : Within SameCtl Halt.Orderly (startDataAlarm T) := by
  unfold startDataAlarm
  refine modifySess_ctl ?_ ?_ ?_ ?_ ?_ <;> intro s <;> split
  all_goals first | rfl | (split <;> rfl)

theorem initDataSockParams_spec (hfd : w.ctl.dataFd = none) (hio : w.ctl.ioHandler = false) (fd : Fd) :
    wp (initDataSockParams T env fd) (fun _ w' => w'.ctl = w.ctl.opened fd) (fun e _ => e.Orderly) w := by
  have hfd' : w.sess.dataFd = none := hfd
  have hio' : w.sess.ioHandler = false := hio
  unfold initDataSockParams vsfSysutilInstallIoHandler
  simp only [wp_bind, wp_get, wp_ite, wp_throw, hfd', hio', modifySess, wp_modify]
  simp only [ne_eq, not_true, if_false, Bool.false_eq_true]
  split
  · trivial
  · refine wp_mono (startDataAlarm_ctl _) ?_ (fun _ _ he => he.1)
    intro _ w' hw'
    exact hw'

/-- A connection that is not made leaves the control state alone. -/
theorem refused_ctl {w w1 : World} (hw1 : SameCtl w w1) (code : ℕ) (msg : String) :
    wp (do vsfCmdioWrite T env code msg; pure false)
      (fun ok w' => if ok then ∃ fd, w'.ctl = w.ctl.opened fd else SameCtl w w') (fun e _ => e.Orderly) w1 := by
  rw [wp_bind]
  refine wp_mono (vsfCmdioWrite_ctl _ _ w1) ?_ (fun _ _ he => he.1)
  intro _ w2 hw2
  exact Eq.trans hw2 hw1

theorem opened_ctl {w w1 : World} (hfd : w.ctl.dataFd = none) (hio : w.ctl.ioHandler = false) (hw1 : SameCtl w w1)
    (fd : Fd) :
    wp (do initDataSockParams T env fd; pure true)
      (fun ok w' => if ok then ∃ fd, w'.ctl = w.ctl.opened fd else SameCtl w w') (fun e _ => e.Orderly) w1 := by
  have hctl : w1.ctl = w.ctl := hw1
  rw [wp_bind]
  refine wp_mono (initDataSockParams_spec (hctl ▸ hfd) (hctl ▸ hio) fd) ?_ (fun _ _ he => he)
  intro _ w2 hw2
  exact ⟨fd, by rw [hw2, hctl]⟩

theorem getPasvFd_ctl : Within SameCtl Halt.Orderly (getPasvFd T env) := by
  refine within_bind (onBroker_ctl (vsfPrivopAcceptPasv_sameSess env.connect)) fun _ => ?_
  exact within_bind checkPendingActions_ctl fun _ => within_pure _

theorem vsfFtpdataioGetPasvFd_spec (hfd : w.ctl.dataFd = none) (hio : w.ctl.ioHandler = false) :
    wp (vsfFtpdataioGetPasvFd T env)
      (fun ok w' => if ok then ∃ fd, w'.ctl = w.ctl.opened fd else SameCtl w w')
      (fun e _ => e.Orderly) w := by
  unfold vsfFtpdataioGetPasvFd
  rw [wp_bind]
  refine wp_mono (getPasvFd_ctl w) ?_ (fun _ _ he => he.1)
  rintro (e | fd) w1 hw1
  · exact refused_ctl hw1 _ _
  · exact opened_ctl hfd hio hw1 fd

/-- Connecting to the PORT address, by whichever process. -/
theorem connectDataSock_ctl (hport : w.ctl.portSockaddr ≠ none) :
    wp (connectDataSock T env) (fun _ w' => SameCtl w w') (fun e _ => e.Orderly) w := by
  unfold connectDataSock
  simp only [wp_bind, wp_get]
  cases haddr : w.sess.portSockaddr with
  | none => exact absurd haddr hport
  | some addr =>
    simp only [wp_ite, onParent, wp_zoom]
    split
    · refine wp_mono (vsfPrivopGetFtpPortSock_sameSess env.connect _ addr _) ?_ (fun _ _ he => he.1)
      intro _ p hp
      show World.ctl _ = World.ctl _
      unfold World.ctl
      rw [show p.sess = w.own.sess from hp]
    · refine wp_mono (vsfPrivopGetFtpPortSock_sameListener env.connect _ _) ?_ (fun _ _ he => he.1)
      intro _ p hp
      show World.ctl _ = World.ctl _
      unfold World.ctl
      rw [show p.sess.pasvListenFd = w.parent.sess.pasvListenFd from hp]

theorem getPrivDataSock_ctl (hport : w.ctl.portSockaddr ≠ none) :
    wp (getPrivDataSock T env) (fun _ w' => SameCtl w w') (fun e _ => e.Orderly) w := by
  unfold getPrivDataSock
  rw [wp_bind]
  refine wp_mono (connectDataSock_ctl hport) ?_ (fun _ _ he => he)
  intro sock w1 hw1
  rw [wp_bind]
  refine wp_mono (checkPendingActions_ctl w1) ?_ (fun _ _ he => he.1)
  intro _ w2 hw2
  exact Eq.trans hw2 hw1

theorem vsfFtpdataioGetPortFd_spec (hfd : w.ctl.dataFd = none) (hio : w.ctl.ioHandler = false)
    (hport : w.ctl.portSockaddr ≠ none) :
    wp (vsfFtpdataioGetPortFd T env)
      (fun ok w' => if ok then ∃ fd, w'.ctl = w.ctl.opened fd else SameCtl w w')
      (fun e _ => e.Orderly) w := by
  unfold vsfFtpdataioGetPortFd
  rw [wp_bind]
  refine wp_mono (getPrivDataSock_ctl hport) ?_ (fun _ _ he => he)
  rintro (_ | fd) w1 hw1
  · exact refused_ctl hw1 _ _
  · exact opened_ctl hfd hio hw1 fd

theorem vsfFtpdataioPostMarkConnect_ctl :
    Within SameCtl Halt.Orderly (vsfFtpdataioPostMarkConnect T env) := by
  have haccept : Within SameCtl Halt.Orderly (sslAccept env) := by
    unfold sslAccept
    refine within_bind within_get fun _ => within_ite (within_throw trivial) (within_bind (vsfLogDebug_ctl _) fun _ => ?_)
    refine within_bind ?_ fun _ => within_pure _
    exact modifySess_ctl (fun _ => rfl) (fun _ => rfl) (fun _ => rfl) (fun _ => rfl) (fun _ => rfl)
  have hhandshake : ∀ own : Bool, Within SameCtl Halt.Orderly (dataHandshake T env own) := fun own =>
    within_ite haccept (within_bind (vsfLogDebug_ctl _) fun _ =>
      within_bind checkPendingActions_ctl fun _ => within_pure _)
  have hanswer : ∀ ret : Bool, Within SameCtl Halt.Orderly (handshakeAnswer T env ret) := by
    intro ret
    refine within_ite (within_pure _) (within_ite ?_ ?_)
    · exact sameCtl_of_talk (vsfCmdioWriteExit_talk (P := fun _ => True) trivial (by decide) fun _ _ => trivial)
    · exact within_bind (vsfCmdioWrite_ctl _ _) fun _ => within_pure _
  rw [vsfFtpdataioPostMarkConnect_eq]
  exact within_bind within_get fun w => within_ite (within_pure _) (within_bind (hhandshake _) hanswer)

theorem disposeSsl_ctl : Within SameCtl Halt.Orderly (disposeSsl T env) := by
  unfold disposeSsl
  refine within_bind within_get fun w => within_ite ?_ (within_ite ?_ (within_pure _))
  · exact within_bind startDataAlarm_ctl fun _ => within_bind (vsfLogDebug_ctl _) fun _ =>
      within_bind checkPendingActions_ctl fun _ => within_pure _
  · refine within_bind startDataAlarm_ctl fun _ => within_bind (vsfLogDebug_ctl _) fun _ => ?_
    refine within_bind ?_ fun _ => within_pure _
    exact modifySess_ctl (fun _ => rfl) (fun _ => rfl) (fun _ => rfl) (fun _ => rfl) (fun _ => rfl)

theorem vsfFtpdataioDisposeTransferFd_spec (hfd : w.ctl.dataFd ≠ none) (hio : w.ctl.ioHandler = true) :
    wp (vsfFtpdataioDisposeTransferFd T env) (fun _ w' => w'.ctl = w.ctl.closed) (fun e _ => e.Orderly)
      w := by
  have hfd' : w.sess.dataFd ≠ none := hfd
  have hio' : w.sess.ioHandler = true := hio
  have hlinger : Within SameCtl Halt.Orderly
      (do startDataAlarm T; if env.linger then pure () else throw (.die "setsockopt: linger")) :=
    within_bind startDataAlarm_ctl fun _ => within_ite (within_pure _) (within_throw trivial)
  unfold vsfFtpdataioDisposeTransferFd vsfSysutilUninstallIoHandler
  simp only [wp_bind, wp_get, wp_ite, hfd', hio', if_false, if_true, modifySess, wp_modify]
  refine wp_mono (disposeSsl_ctl _) ?_ (fun _ _ he => he.1)
  intro closed w1 hw1
  have hw1' : w1.ctl = { w.ctl with ioHandler := false } := hw1
  refine wp_mono (within_when hlinger w1) ?_ (fun _ _ he => he.1)
  intro _ w2 hw2
  have hw2' : w2.ctl = w1.ctl := hw2
  show { w2.ctl with dataFd := none } = w.ctl.closed
  rw [hw2', hw1']
  rfl

/-- A mark that fails gives the connection up. -/
theorem markTransfer_spec {w' : World} {fd : Fd} (h : w.ctl.Idle T) (hfd : w'.ctl = w.ctl.opened fd) (msg : Bytes) :
    wp (markTransfer T env msg)
      (fun ok w'' => if ok then ∃ fd, w''.ctl = w.ctl.opened fd else SameCtl w w'')
      (fun e _ => e.Orderly) w' := by
  unfold markTransfer
  rw [wp_bind]
  refine wp_mono (vsfCmdioWriteStr_ctl _ _ w') ?_ (fun _ _ he => he.1)
  intro _ w1 hw1
  rw [wp_bind]
  refine wp_mono (vsfFtpdataioPostMarkConnect_ctl w1) ?_ (fun _ _ he => he.1)
  intro ok w2 hw2
  have hw2' : w2.ctl = w.ctl.opened fd := (Eq.trans hw2 hw1).trans hfd
  cases ok with
  | true => exact ⟨fd, hw2'⟩
  | false =>
    simp only [Bool.false_eq_true, if_false, wp_bind, wp_pure]
    refine wp_mono (vsfFtpdataioDisposeTransferFd_spec ?_ ?_) ?_ (fun _ _ he => he)
    · rw [hw2']
      exact Option.some_ne_none fd
    · rw [hw2']
      rfl
    · intro _ w3 hw3
      show w3.ctl = w.ctl
      rw [hw3, hw2', Ctl.closed_opened h]

/-- **A transfer starts with the connection open or leaves no trace of one.** -/
theorem getRemoteTransferFd_spec (h : w.ctl.Idle T) (hactive : w.ctl.active T = true) (msg : Bytes) :
    wp (getRemoteTransferFd T env msg)
      (fun ok w' => if ok then ∃ fd, w'.ctl = w.ctl.opened fd else SameCtl w w')
      (fun e _ => e.Orderly) w := by
  rw [getRemoteTransferFd_eq, wp_bind]
  refine wp_mono (portOrPasvActive_spec h.exclusive) ?_ (fun _ _ hf => hf.elim)
  rintro active w0 ⟨rfl, hw0⟩
  rw [hactive]
  set w1 : World := { w0 with sess := { w0.sess with aborReceived := false } } with hw1
  have hctl1 : w1.ctl = w.ctl := hw0.ctl
  have hex : w1.ctl.Exclusive T := by rw [hctl1]; exact h.exclusive
  simp only [Bool.not_true, Bool.false_eq_true, if_false, wp_bind, modifySess, wp_modify]
  rw [← hw1, stackDepth]
  refine wp_mono (pasvActive_spec hex _) ?_ (fun _ _ hf => hf.elim)
  rintro pasv w1' ⟨rfl, hw1'⟩
  have hctl : w1'.ctl = w.ctl := hw1'.ctl.trans hctl1
  -- the connection is made the way that is waiting
  have hconnect : wp (connectTransfer T env (w1.ctl.listenFd T).isSome)
      (fun ok w' => if ok then ∃ fd, w'.ctl = w.ctl.opened fd else SameCtl w w') (fun e _ => e.Orderly) w1' := by
    unfold SameCtl
    rw [← hctl]
    rw [← hctl] at h hactive
    refine wp_cases (fun _ => vsfFtpdataioGetPasvFd_spec h.dataFd h.ioHandler) fun hpasv => ?_
    refine vsfFtpdataioGetPortFd_spec h.dataFd h.ioHandler fun hnone => ?_
    rw [Ctl.active, hnone, Option.isSome_none, Bool.or_false, hctl, ← hctl1] at hactive
    exact hpasv hactive
  refine wp_mono hconnect ?_ (fun _ _ he => he)
  intro ok w2 hok
  cases ok with
  | false => exact hok
  | true =>
    obtain ⟨fd, hfd⟩ : ∃ fd, w2.ctl = w.ctl.opened fd := by simpa using hok
    exact markTransfer_spec h hfd msg

/-- What a command that uses the data connection leaves: none is open, and at
most one was asked for. -/
structure Handled (T : Tunables) (w w' : World) : Prop where
  idle : w'.ctl.Idle T
  cwd : w'.ctl.cwd = w.ctl.cwd
  home : w'.ctl.homeStr = w.ctl.homeStr
  port : w'.ctl.portSockaddr = w.ctl.portSockaddr ∨ w'.ctl.portSockaddr = none
  own : ∃ fd, w'.ctl.own = w.ctl.own.withListener fd

theorem Loose.handled {w w' : World} (h : Loose w w') (hw : w.ctl.Idle T) : Handled T w w' :=
  ⟨h.idle hw, h.cwd, h.home, h.port, w.ctl.own.pasvListenFd, h.own⟩

theorem Handled.loose {w w' w'' : World} (h : Handled T w w') (h' : Loose w' w'') : Handled T w w'' := by
  obtain ⟨fd, hfd⟩ := h.own
  refine ⟨h'.idle h.idle, h'.cwd.trans h.cwd, h'.home.trans h.home, ?_, fd, h'.own.trans hfd⟩
  rcases h'.port with hp | hp
  · rw [hp]
    exact h.port
  · exact .inr hp

/-- The PORT address and the listener are given up. -/
theorem cleanup_handled (env : Env) (h : w.ctl.Idle T) :
    wp (do portCleanup; pasvCleanup T env) (fun _ w' => Handled T w w') (fun e _ => e.Orderly) w := by
  rw [wp_bind]
  refine wp_mono portCleanup_spec ?_ (fun _ _ he => he.elim)
  intro _ w1 hw1
  refine wp_mono pasvCleanup_spec ?_ (fun _ _ he => he)
  intro _ w2 hw2
  rw [hw1] at hw2
  refine ⟨⟨?_, ?_, .inl ?_⟩, ?_, ?_, .inr ?_, ?_⟩
  · rw [hw2, Ctl.dataFd_setListenFd]
    exact h.dataFd
  · rw [hw2, Ctl.ioHandler_setListenFd]
    exact h.ioHandler
  · rw [hw2, Ctl.portSockaddr_setListenFd]
  · rw [hw2, Ctl.cwd_setListenFd]
  · rw [hw2, Ctl.homeStr_setListenFd]
  · rw [hw2, Ctl.portSockaddr_setListenFd]
  · rw [hw2]
    unfold Ctl.setListenFd
    split
    · exact ⟨none, rfl⟩
    · exact ⟨w.ctl.own.pasvListenFd, rfl⟩

theorem checkAbor_ctl : Within SameCtl Halt.Orderly (checkAbor T env) := by
  unfold checkAbor
  refine within_bind within_get fun w => within_when (within_bind ?_ fun _ => vsfCmdioWrite_ctl _ _)
  exact modifySess_ctl (fun _ => rfl) (fun _ => rfl) (fun _ => rfl) (fun _ => rfl) (fun _ => rfl)

end

end CosFtp
