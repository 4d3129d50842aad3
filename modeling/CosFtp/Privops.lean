/-
# The privileged operations

The operations of privops.c on the data connections of a session: connect to
a PORT address, listen for and accept a PASV connection, hand an uploaded file
to another owner. They run in the session itself in the one process model and
in its privileged parent else, so their state is a record of its own,
`PrivState`: the fields of `struct vsf_session` they use and the trace of what
they did. What the kernel answers is a record too, `PrivEnv`, with one field
for each call.

`die` and `bug` end the process, so an operation is an `EStateM` program that
stops with a `Halt`.
-/
import CosFtp.Lib.Wp
import CosFtp.Sockaddr

namespace CosFtp

open Wp

/-- Why a process ends. -/
inductive Halt where
  /-- behind a reply with this code -/
  | exit (code status : ℕ)
  /-- the client has closed the control connection -/
  | hangup
  /-- the client is told `500 OOPS:` and why -/
  | die (msg : String)
  | bug (msg : String)
  /-- a NULL pointer is followed -/
  | segv
  /-- two functions that call each other without an end -/
  | deepRecursion
  /-- a loop of the model that was given too few rounds -/
  | running
  deriving DecidableEq

/-- An end on account of an error that the client, if it is still there, is told of. -/
def Halt.Orderly : Halt → Prop
  | .exit code _ => 400 ≤ code
  | .hangup => True
  | .die _ => True
  | _ => False

abbrev Fd := ℕ

/-- What `fstat` says of a descriptor. -/
structure Stat where
  isRegfile : Bool
  uid : ℤ
  size : ℕ
  deriving DecidableEq

/-- How a call that can fail on an address in use fails. -/
inductive BindResult where
  | ok
  | addrInUse
  | acces
  | other
  deriving DecidableEq

/-- How `accept` ends. -/
inductive AcceptResult where
  | error
  | otherFamily
  | conn (fd : Fd) (peer : Sockaddr)
  deriving DecidableEq

/-- The answers of the kernel to the calls of one operation. -/
structure PrivEnv where
  /-- the descriptor of a new data socket -/
  sockFd : Fd := 0
  bind : ℕ → BindResult := fun _ => .ok
  connect : Bool := true
  /-- the two random bytes of each try, and the socket made for it -/
  randomPort : ℕ → UInt16 := fun _ => 0
  listenFd : ℕ → Fd := fun _ => 0
  listenBind : ℕ → BindResult := fun _ => .ok
  listen : ℕ → BindResult := fun _ => .ok
  accept : AcceptResult := .error
  fstat : Option Stat := none
  fchown : Bool := true
  close : Bool := true

/-- What a privileged operation does to the outside. -/
inductive PrivEvent where
  | connect (addr : Sockaddr)
  | openListener (fd : Fd)
  | closeListener (fd : Fd)
  | accept (fd : Fd) (peer : Sockaddr)
  | close (fd : Fd)
  /-- a descriptor handed to the other process, with the far end the kernel has for it -/
  | sendFd (fd : Fd) (peer : Option Sockaddr)
  /-- a new owner for the file that `was` describes -/
  | fchown (fd : Fd) (uid : ℤ) (was : Stat)
  deriving DecidableEq

/-- The fields of `struct vsf_session` the operations use. -/
structure PrivSess where
  pasvListenFd : Option Fd := none
  localAddr : Sockaddr
  remoteAddr : Sockaddr
  anonUploadChownUid : ℤ := -1
  anonFtpUid : ℤ := -1
  guestUserUid : ℤ := -1
  deriving DecidableEq

/-- The session, the connected sockets with their far ends, and the trace. -/
structure PrivState where
  sess : PrivSess
  socks : List (Fd × Sockaddr) := []
  events : List PrivEvent := []
  deriving DecidableEq

abbrev PrivM := EStateM Halt PrivState

namespace PrivM

def emit (e : PrivEvent) : PrivM Unit := modify fun s => { s with events := s.events ++ [e] }

/-- The kernel has a connected socket. -/
def connected (fd : Fd) (peer : Sockaddr) : PrivM Unit :=
  modify fun s => { s with socks := (fd, peer) :: s.socks }

def setListenFd (fd : Option Fd) : PrivM Unit :=
  modify fun s => { s with sess := { s.sess with pasvListenFd := fd } }

end PrivM

open PrivM

variable (T : Tunables) (env : PrivEnv)

/-- `vsf_sysutil_close`. -/
def vsfSysutilClose (e : PrivEvent) : PrivM Unit := do
  emit e
  if env.close then pure () else throw (.die "close")

/-- The two tries of `vsf_privop_get_ftp_port_sock` to bind the socket. -/
def bindDataSock : PrivM Unit :=
  if env.bind 0 = .ok then pure ()
  else if env.bind 0 ≠ .addrInUse then throw (.die "vsf_sysutil_bind")
  else if env.bind 1 = .ok then pure ()
  else throw (.die "vsf_sysutil_bind")

/-- `vsf_privop_get_ftp_port_sock`: a connected socket, or `none` for -1. The
address to connect to is `portSockaddr` if it is given, which is what
`use_port_sockaddr` asks for, and the control peer's else. -/
def vsfPrivopGetFtpPortSock (remotePort : UInt16) (portSockaddr : Option Sockaddr) :
    PrivM (Option Fd) := do
  let s ← get
  if s.sess.pasvListenFd ≠ none then throw (.die "listed fd is active?")
  else if isPortReserved remotePort then throw (.die "Illegal port request")
  else do
    bindDataSock env
    let connectTo ← match portSockaddr with
      | some addr => pure addr
      | none => do
        let addr := s.sess.remoteAddr.setPort remotePort
        modify fun s => { s with sess := { s.sess with remoteAddr := addr } }
        pure addr
    emit (.connect connectTo)
    if env.connect then do
      connected env.sockFd connectTo
      pure (some env.sockFd)
    else do
      vsfSysutilClose env (.close env.sockFd)
      pure none

def vsfPrivopPasvCleanup : PrivM Unit := do
  let s ← get
  match s.sess.pasvListenFd with
  | none => pure ()
  | some fd => do
    vsfSysutilClose env (.closeListener fd)
    setListenFd none

def vsfPrivopPasvActive : PrivM Bool := do
  let s ← get
  pure s.sess.pasvListenFd.isSome

/-- The lowest and the highest port `vsf_privop_pasv_listen` picks from. -/
def pasvPorts : ℕ × ℕ :=
  let minPort := if ipportReserved < T.pasvMinPort ∧ T.pasvMinPort ≤ 65535 then T.pasvMinPort
    else ipportReserved
  let maxPort := if minPort ≤ T.pasvMaxPort ∧ T.pasvMaxPort < 65535 then T.pasvMaxPort else 65535
  (minPort, maxPort)

/-- The random port scaled into the range. -/
def scaledPort (random : UInt16) : UInt16 :=
  let (minPort, maxPort) := pasvPorts T
  UInt16.ofNat (minPort + random.toNat * (maxPort - minPort + 1) / 65536)

/-- The loop of `vsf_privop_pasv_listen`, with the tries left. -/
def pasvListenLoop : ℕ → ℕ → PrivM UInt16
  | 0, _ => throw (.die "vsf_sysutil_bind")
  | left + 1, i => do
    let fd := env.listenFd i
    emit (.openListener fd)
    setListenFd (some fd)
    let failed : BindResult ← match env.listenBind i with
      | .ok => match env.listen i with
        | .ok => pure .ok
        | .addrInUse => pure .addrInUse
        | _ => throw (.die "listen")
      | r => pure r
    match failed with
    | .ok => pure (scaledPort T (env.randomPort i))
    | .other => throw (.die "vsf_sysutil_bind / listen")
    | _ => do
      vsfSysutilClose env (.closeListener fd)
      setListenFd none
      pasvListenLoop left (i + 1)

def vsfPrivopPasvListen : PrivM UInt16 := do
  let s ← get
  if s.sess.pasvListenFd ≠ none then throw (.die "listed fd already active")
  else pasvListenLoop T env 9 0

/-- `vsf_privop_accept_pasv`: a descriptor, or -1 or -2 as the error. -/
def vsfPrivopAcceptPasv : PrivM (Except ℤ Fd) := do
  let s ← get
  if s.sess.pasvListenFd = none then throw (.die "listed fd not active")
  else match env.accept with
    | .error => pure (.error (-1))
    | .otherFamily => throw (.die "can only support ipv4 and ipv6 currently")
    | .conn fd peer => do
      emit (.accept fd peer)
      connected fd peer
      if !T.pasvPromiscuous ∧ !Sockaddr.addrEqual s.sess.remoteAddr peer then do
        vsfSysutilClose env (.close fd)
        pure (.error (-2))
      else pure (.ok fd)

def vsfPrivopDoFileChown (fd : Fd) : PrivM Unit := do
  let s ← get
  match env.fstat with
  | none => throw (.die "fstat")
  | some st =>
    if st.uid = s.sess.anonUploadChownUid then pure ()
    else if s.sess.anonUploadChownUid = -1 ∨ !st.isRegfile ∨
        (st.uid ≠ s.sess.anonFtpUid ∧ st.uid ≠ s.sess.guestUserUid) then
      throw (.die "invalid fd in cmd_process_chown")
    else do
      emit (.fchown fd s.sess.anonUploadChownUid st)
      if env.fchown then pure () else throw (.die "fchown")

/-- What one try comes to: a port, an end, or the next try with the listener closed. -/
theorem pasvListenLoop_try (left i : ℕ) : ∃ rest : PrivM UInt16,
    pasvListenLoop T env (left + 1) i = (do
      emit (.openListener (env.listenFd i))
      setListenFd (some (env.listenFd i))
      rest) ∧
    (env.listenBind i = .ok ∧ env.listen i = .ok ∧ rest = pure (scaledPort T (env.randomPort i)) ∨
      (∃ call ∈ ["listen", "vsf_sysutil_bind / listen"], rest = throw (.die call)) ∨
      rest = do
        vsfSysutilClose env (.closeListener (env.listenFd i))
        setListenFd none
        pasvListenLoop T env left (i + 1)) := by
  rw [pasvListenLoop]
  cases env.listenBind i with
  | ok =>
    cases env.listen i with
    | ok => exact ⟨_, rfl, .inl ⟨rfl, rfl, rfl⟩⟩
    | addrInUse => exact ⟨_, rfl, .inr (.inr rfl)⟩
    | acces => exact ⟨_, rfl, .inr (.inl ⟨"listen", by simp, rfl⟩)⟩
    | other => exact ⟨_, rfl, .inr (.inl ⟨"listen", by simp, rfl⟩)⟩
  | addrInUse => exact ⟨_, rfl, .inr (.inr rfl)⟩
  | acces => exact ⟨_, rfl, .inr (.inr rfl)⟩
  | other => exact ⟨_, rfl, .inr (.inl ⟨"vsf_sysutil_bind / listen", by simp, rfl⟩)⟩

/-! ### What the operations keep to

The statements are about the session as it was at login, `p`: the host of the
control connection and the uids do not change, though the port stored with
the peer's address does. -/

/-- What a session logged in as `p` may do to the outside. -/
def PrivEvent.Allowed (p : PrivSess) : PrivEvent → Prop
  | .connect addr => addr.ip = p.remoteAddr.ip ∧ ipportReserved ≤ addr.getPort.toNat
  | .sendFd _ peer => ∃ addr, peer = some addr ∧
      (T.pasvPromiscuous = true ∨ addr.ip = p.remoteAddr.ip)
  | .fchown _ _ was => T.chownUploads = true ∧ was.isRegfile = true ∧
      (was.uid = p.anonFtpUid ∨ was.uid = p.guestUserUid)
  | _ => True

/-- The passive listeners that are open after an event. -/
def heldStep (held : List Fd) : PrivEvent → List Fd
  | .openListener fd => fd :: held
  | .closeListener fd => held.erase fd
  | _ => held

/-- The passive listeners that are open after a trace. -/
def heldListeners (es : List PrivEvent) : List Fd := es.foldl heldStep []

/-- So far nothing went wrong. -/
structure PrivSafe (p : PrivSess) (s : PrivState) : Prop where
  allowed : ∀ e ∈ s.events, e.Allowed T p
  atMostOne : ∀ es, es <+: s.events → (heldListeners es).length ≤ 1

/-- What holds between the operations. -/
structure PrivInv (p : PrivSess) (s : PrivState) : Prop extends PrivSafe T p s where
  held : heldListeners s.events = s.sess.pasvListenFd.toList
  peer : s.sess.remoteAddr.ip = p.remoteAddr.ip
  anon : s.sess.anonFtpUid = p.anonFtpUid
  guest : s.sess.guestUserUid = p.guestUserUid

section

variable {T} {p : PrivSess} {s : PrivState}

theorem heldListeners_concat (es : List PrivEvent) (e : PrivEvent) :
    heldListeners (es ++ [e]) = heldStep (heldListeners es) e := by
  simp [heldListeners]

/-- One more event, which opens no second listener. -/
theorem PrivSafe.emit {e : PrivEvent} (h : PrivSafe T p s) (ha : e.Allowed T p)
    (hl : (heldStep (heldListeners s.events) e).length ≤ 1) :
    PrivSafe T p { s with events := s.events ++ [e] } where
  allowed := by
    intro e' he'
    rcases List.mem_append.mp he' with he' | he'
    · exact h.allowed e' he'
    · exact List.mem_singleton.mp he' ▸ ha
  atMostOne := by
    intro es hes
    rcases List.prefix_concat_iff.mp hes with rfl | hes
    · rw [heldListeners_concat]; exact hl
    · exact h.atMostOne es hes

/-- One more event that is not about a listener. -/
theorem PrivInv.emit {e : PrivEvent} (h : PrivInv T p s) (ha : e.Allowed T p)
    (hl : ∀ held, heldStep held e = held) : PrivInv T p { s with events := s.events ++ [e] } where
  toPrivSafe := h.toPrivSafe.emit ha (by rw [hl]; exact h.atMostOne _ (List.prefix_refl _))
  held := by
    show heldListeners (s.events ++ [e]) = _
    rw [heldListeners_concat, hl]
    exact h.held
  peer := h.peer
  anon := h.anon
  guest := h.guest

theorem PrivInv.connected (h : PrivInv T p s) (socks : List (Fd × Sockaddr)) :
    PrivInv T p { s with socks := socks } :=
  ⟨⟨h.allowed, h.atMostOne⟩, h.held, h.peer, h.anon, h.guest⟩

theorem not_isPortReserved {port : UInt16} (h : ¬ isPortReserved port = true) :
    ipportReserved ≤ port.toNat := by
  simpa [isPortReserved] using h

theorem vsfSysutilClose_inv {e : PrivEvent} (h : PrivInv T p s) (ha : e.Allowed T p)
    (hl : ∀ held, heldStep held e = held) :
    wp (vsfSysutilClose env e) (fun _ s' => PrivInv T p s') (fun _ s' => PrivSafe T p s') s := by
  have h' := h.emit ha hl
  unfold vsfSysutilClose PrivM.emit
  simp only [wp_bind, wp_modify, wp_ite, wp_pure, wp_throw]
  split
  · exact h'
  · exact h'.toPrivSafe

/-- Closing the listener, at the end of which none is held. -/
theorem closeListener_inv {fd : Fd} (h : PrivInv T p s) (hfd : s.sess.pasvListenFd = some fd) :
    wp (do vsfSysutilClose env (.closeListener fd); setListenFd none)
      (fun _ s' => PrivInv T p s' ∧ s'.sess.pasvListenFd = none)
      (fun _ s' => PrivSafe T p s') s := by
  have hheld : heldStep (heldListeners s.events) (.closeListener fd) = [] := by
    rw [h.held, hfd]; simp [heldStep]
  have hsafe : PrivSafe T p { s with events := s.events ++ [.closeListener fd] } :=
    h.toPrivSafe.emit trivial (by rw [hheld]; simp)
  unfold vsfSysutilClose PrivM.emit setListenFd
  simp only [wp_bind, wp_modify, wp_ite, wp_pure, wp_throw]
  split
  · refine ⟨⟨⟨hsafe.allowed, hsafe.atMostOne⟩, ?_, h.peer, h.anon, h.guest⟩, trivial⟩
    show heldListeners (s.events ++ _) = _
    rw [heldListeners_concat, hheld]
    rfl
  · exact hsafe

/-- A connection to the control peer, on a port that is not reserved. -/
theorem vsfPrivopGetFtpPortSock_inv (h : PrivInv T p s) (port : UInt16) :
    wp (vsfPrivopGetFtpPortSock env port none)
      (fun r s' => PrivInv T p s' ∧ ∀ fd, r = some fd →
        ∃ addr, s'.socks.lookup fd = some addr ∧ addr.ip = p.remoteAddr.ip)
      (fun _ s' => PrivSafe T p s') s := by
  unfold vsfPrivopGetFtpPortSock
  simp only [wp_bind, wp_get, wp_ite, wp_throw]
  split
  · exact h.toPrivSafe
  split
  · exact h.toPrivSafe
  · rename_i hport
    set addr := s.sess.remoteAddr.setPort port with haddr
    have hip : addr.ip = p.remoteAddr.ip := by rw [haddr, Sockaddr.ip_setPort]; exact h.peer
    have hres : ipportReserved ≤ addr.getPort.toNat := by
      rw [haddr, Sockaddr.getPort_setPort]; exact not_isPortReserved hport
    have h1 : PrivInv T p { s with sess := { s.sess with remoteAddr := addr } } :=
      ⟨⟨h.allowed, h.atMostOne⟩, h.held, hip, h.anon, h.guest⟩
    have h2 := h1.emit (e := .connect addr) ⟨hip, hres⟩ (fun _ => rfl)
    have hbind : ∀ s', PrivInv T p s' →
        wp (bindDataSock env) (fun _ s'' => s'' = s') (fun _ => PrivSafe T p) s' := by
      intro s' hs'
      unfold bindDataSock
      simp only [wp_ite, wp_pure, wp_throw]
      split
      · trivial
      split
      · exact hs'.toPrivSafe
      split
      · trivial
      · exact hs'.toPrivSafe
    refine wp_mono (hbind s h) ?_ (fun _ _ he => he)
    rintro _ _ rfl
    simp only [wp_modify, wp_pure, PrivM.emit, PrivM.connected]
    split
    · refine ⟨h2.connected _, ?_⟩
      rintro fd hfd
      obtain rfl := Option.some.inj hfd
      exact ⟨addr, List.lookup_cons_self, hip⟩
    · refine wp_mono (vsfSysutilClose_inv env h2 trivial (fun _ => rfl)) ?_ (fun _ _ he => he)
      intro _ s' hs'
      exact ⟨hs', by simp⟩

theorem vsfPrivopPasvCleanup_inv (h : PrivInv T p s) :
    wp (vsfPrivopPasvCleanup env) (fun _ s' => PrivInv T p s' ∧ s'.sess.pasvListenFd = none)
      (fun _ s' => PrivSafe T p s') s := by
  unfold vsfPrivopPasvCleanup
  simp only [wp_bind, wp_get]
  cases hfd : s.sess.pasvListenFd with
  | none => exact ⟨h, hfd⟩
  | some fd => exact closeListener_inv env h hfd

/-- Each try of the loop opens a listener while none is held. -/
theorem pasvListenLoop_inv : ∀ (left i : ℕ) {s : PrivState}, PrivInv T p s →
    s.sess.pasvListenFd = none →
    wp (pasvListenLoop T env left i) (fun _ s' => PrivInv T p s') (fun _ s' => PrivSafe T p s') s
  | 0, _, _, h, _ => h.toPrivSafe
  | left + 1, i, s, h, hnone => by
    have hheld : heldStep (heldListeners s.events) (.openListener (env.listenFd i)) =
        [env.listenFd i] := by
      rw [h.held, hnone]; rfl
    have hsafe : PrivSafe T p { s with events := s.events ++ [.openListener (env.listenFd i)] } :=
      h.toPrivSafe.emit trivial (by rw [hheld]; simp)
    have hopen : PrivInv T p { s with
        events := s.events ++ [.openListener (env.listenFd i)]
        sess := { s.sess with pasvListenFd := some (env.listenFd i) } } := by
      refine ⟨⟨hsafe.allowed, hsafe.atMostOne⟩, ?_, h.peer, h.anon, h.guest⟩
      show heldListeners (s.events ++ _) = _
      rw [heldListeners_concat, hheld]
      rfl
    obtain ⟨rest, htry, hrest⟩ := pasvListenLoop_try T env left i
    rw [htry]
    simp only [wp_bind, PrivM.emit, setListenFd, wp_modify]
    obtain ⟨-, -, rfl⟩ | ⟨call, -, rfl⟩ | rfl := hrest
    · exact hopen
    · exact hopen.toPrivSafe
    · have hclose := closeListener_inv env hopen rfl
      simp only [wp_bind, setListenFd] at hclose ⊢
      refine wp_mono hclose ?_ (fun _ _ he => he)
      intro _ s' hs'
      refine wp_mono hs' ?_ (fun _ _ he => he)
      rintro _ s'' ⟨hs'', hnone'⟩
      exact pasvListenLoop_inv left (i + 1) hs'' hnone'

theorem vsfPrivopPasvListen_inv (h : PrivInv T p s) :
    wp (vsfPrivopPasvListen T env) (fun _ s' => PrivInv T p s') (fun _ s' => PrivSafe T p s') s := by
  unfold vsfPrivopPasvListen
  simp only [wp_bind, wp_get, wp_ite, wp_throw]
  split
  · exact h.toPrivSafe
  · rename_i hnone
    exact pasvListenLoop_inv env 9 0 h (not_not.mp hnone)

/-- An accepted connection that is handed on comes from the control peer. -/
theorem vsfPrivopAcceptPasv_inv (h : PrivInv T p s) :
    wp (vsfPrivopAcceptPasv T env)
      (fun r s' => PrivInv T p s' ∧ ∀ fd, r = .ok fd → ∃ addr, s'.socks.lookup fd = some addr ∧
        (T.pasvPromiscuous = true ∨ addr.ip = p.remoteAddr.ip))
      (fun _ s' => PrivSafe T p s') s := by
  unfold vsfPrivopAcceptPasv
  simp only [wp_bind, wp_get, wp_ite, wp_throw]
  split
  · exact h.toPrivSafe
  · cases haccept : env.accept with
    | error => exact ⟨h, by simp⟩
    | otherFamily => exact h.toPrivSafe
    | conn fd peer =>
      have h1 := (h.emit (e := .accept fd peer) trivial (fun _ => rfl)).connected ((fd, peer) :: s.socks)
      simp only [wp_bind, PrivM.emit, PrivM.connected, wp_modify, wp_ite, wp_pure]
      split
      · refine wp_mono (vsfSysutilClose_inv env h1 trivial (fun _ => rfl)) ?_ (fun _ _ he => he)
        intro _ s' hs'
        exact ⟨hs', by simp⟩
      · rename_i hok
        refine ⟨h1, ?_⟩
        intro fd' hfd'
        obtain rfl := Except.ok.inj hfd'
        refine ⟨peer, List.lookup_cons_self, ?_⟩
        by_cases hprom : T.pasvPromiscuous = true
        · exact .inl hprom
        · right
          have heq : Sockaddr.addrEqual s.sess.remoteAddr peer = true := by simpa [hprom] using hok
          rw [← (Sockaddr.addrEqual_iff _ _).mp heq]
          exact h.peer

theorem vsfPrivopDoFileChown_inv (h : PrivInv T p s) (hT : T.chownUploads = true) (fd : Fd) :
    wp (vsfPrivopDoFileChown env fd) (fun _ s' => PrivInv T p s') (fun _ s' => PrivSafe T p s') s := by
  unfold vsfPrivopDoFileChown
  simp only [wp_bind, wp_get]
  cases env.fstat with
  | none => exact h.toPrivSafe
  | some st =>
    simp only [wp_ite, wp_pure, wp_throw]
    split
    · exact h
    split
    · exact h.toPrivSafe
    · rename_i howner
      have hst : st.isRegfile = true ∧ (st.uid = p.anonFtpUid ∨ st.uid = p.guestUserUid) := by
        have := h.anon
        have := h.guest
        refine ⟨by simp_all, ?_⟩
        by_contra hno
        simp_all
      have h1 := h.emit (e := .fchown fd s.sess.anonUploadChownUid st) ⟨hT, hst⟩ (fun _ => rfl)
      simp only [wp_bind, PrivM.emit, wp_modify, wp_ite, wp_pure, wp_throw]
      split
      · exact h1
      · exact h1.toPrivSafe

end

/-! ### What the operations do to the session

Only the listener and the port stored with the peer's address change, and an
operation that fails dies. -/

section

variable {T}

/-- The session's fields are as they were. -/
def SameSess (s s' : PrivState) : Prop := s'.sess = s.sess

instance : Std.Refl SameSess := ⟨fun _ => rfl⟩

instance : IsTrans PrivState SameSess := ⟨fun _ _ _ h h' => Eq.trans h' h⟩

theorem emit_sameSess (e : PrivEvent) : Within SameSess Halt.Orderly (PrivM.emit e) :=
  within_modify fun _ => rfl

theorem vsfSysutilClose_sameSess (e : PrivEvent) :
    Within SameSess Halt.Orderly (vsfSysutilClose env e) :=
  within_bind (emit_sameSess e) fun _ => within_ite (within_pure ()) (within_throw trivial)

theorem bindDataSock_sameSess : Within SameSess Halt.Orderly (bindDataSock env) := by
  unfold bindDataSock
  refine within_ite (within_pure ()) (within_ite (within_throw trivial) ?_)
  exact within_ite (within_pure ()) (within_throw trivial)

theorem vsfPrivopAcceptPasv_sameSess : Within SameSess Halt.Orderly (vsfPrivopAcceptPasv T env) := by
  unfold vsfPrivopAcceptPasv
  refine within_bind within_get fun s => within_ite (within_throw trivial) ?_
  cases env.accept with
  | error => exact within_pure _
  | otherFamily => exact within_throw trivial
  | conn fd peer =>
    refine within_bind (emit_sameSess _) fun _ => within_bind (within_modify fun _ => rfl) fun _ => ?_
    exact within_ite (within_bind (vsfSysutilClose_sameSess env _) fun _ => within_pure _) (within_pure _)

theorem vsfPrivopDoFileChown_sameSess (fd : Fd) :
    Within SameSess Halt.Orderly (vsfPrivopDoFileChown env fd) := by
  unfold vsfPrivopDoFileChown
  refine within_bind within_get fun s => ?_
  cases env.fstat with
  | none => exact within_throw trivial
  | some st =>
    refine within_ite (within_pure _) (within_ite (within_throw trivial) ?_)
    exact within_bind (emit_sameSess _) fun _ => within_ite (within_pure _) (within_throw trivial)

/-- A connection to a given address. -/
theorem vsfPrivopGetFtpPortSock_sameSess (port : UInt16) (addr : Sockaddr) :
    Within SameSess Halt.Orderly (vsfPrivopGetFtpPortSock env port (some addr)) := by
  unfold vsfPrivopGetFtpPortSock
  refine within_bind within_get fun s => within_ite (within_throw trivial) ?_
  refine within_ite (within_throw trivial) (within_bind (bindDataSock_sameSess env) fun _ => ?_)
  refine within_bind (within_pure addr) fun _ => within_bind (emit_sameSess _) fun _ => ?_
  refine within_ite ?_ ?_
  · exact within_bind (within_modify fun _ => rfl) fun _ => within_pure _
  · exact within_bind (vsfSysutilClose_sameSess env _) fun _ => within_pure _

/-- The listener stays as it was. -/
def SameListener (s s' : PrivState) : Prop := s'.sess.pasvListenFd = s.sess.pasvListenFd

instance : Std.Refl SameListener := ⟨fun _ => rfl⟩

instance : IsTrans PrivState SameListener := ⟨fun _ _ _ h h' => Eq.trans h' h⟩

theorem SameSess.sameListener {s s' : PrivState} (h : SameSess s s') : SameListener s s' := by
  unfold SameListener
  rw [show s'.sess = s.sess from h]

/-- A connection to the control peer, whose address gets the port. -/
theorem vsfPrivopGetFtpPortSock_sameListener (port : UInt16) :
    Within SameListener Halt.Orderly (vsfPrivopGetFtpPortSock env port none) := by
  unfold vsfPrivopGetFtpPortSock
  refine within_bind within_get fun s => within_ite (within_throw trivial) ?_
  refine within_ite (within_throw trivial) (within_bind ?_ fun _ => ?_)
  · exact (bindDataSock_sameSess env).mono fun _ _ => SameSess.sameListener
  refine within_bind (within_modify fun _ => rfl) fun _ => within_bind (within_pure _) fun _ => ?_
  refine within_bind ((emit_sameSess _).mono fun _ _ => SameSess.sameListener) fun _ => within_ite ?_ ?_
  · exact within_bind (within_modify fun _ => rfl) fun _ => within_pure _
  · exact within_bind ((vsfSysutilClose_sameSess env _).mono fun _ _ => SameSess.sameListener)
      fun _ => within_pure _

/-- The session with another listener. -/
def PrivSess.withListener (p : PrivSess) (fd : Option Fd) : PrivSess := { p with pasvListenFd := fd }

theorem closeListener_sess (fd : Fd) (s : PrivState) :
    wp (do vsfSysutilClose env (.closeListener fd); setListenFd none)
      (fun _ s' => s'.sess = s.sess.withListener none) (fun e _ => e.Orderly) s := by
  rw [wp_bind]
  refine wp_mono (vsfSysutilClose_sameSess env _ s) ?_ (fun _ _ he => he.1)
  intro _ s' hs'
  show s'.sess.withListener none = _
  rw [show s'.sess = s.sess from hs']

theorem vsfPrivopPasvCleanup_sess (s : PrivState) :
    wp (vsfPrivopPasvCleanup env) (fun _ s' => s'.sess = s.sess.withListener none)
      (fun e _ => e.Orderly) s := by
  unfold vsfPrivopPasvCleanup
  simp only [wp_bind, wp_get]
  cases hfd : s.sess.pasvListenFd with
  | none =>
    show s.sess = s.sess.withListener none
    unfold PrivSess.withListener
    rw [← hfd]
  | some fd =>
    exact closeListener_sess env fd s

theorem pasvListenLoop_sess : ∀ (left i : ℕ) (s : PrivState),
    wp (pasvListenLoop T env left i) (fun _ s' => ∃ fd, s'.sess = s.sess.withListener (some fd))
      (fun e _ => e.Orderly) s
  | 0, _, _ => trivial
  | left + 1, i, s => by
    have hretry : ∀ s1 : PrivState, s1.sess = s.sess.withListener (some (env.listenFd i)) →
        wp (do
          vsfSysutilClose env (.closeListener (env.listenFd i))
          setListenFd none
          pasvListenLoop T env left (i + 1))
        (fun _ s' => ∃ fd, s'.sess = s.sess.withListener (some fd)) (fun e _ => e.Orderly) s1 := by
      intro s1 hs1
      have hclose := closeListener_sess env (env.listenFd i) s1
      simp only [wp_bind] at hclose ⊢
      refine wp_mono hclose ?_ (fun _ _ he => he)
      intro _ s2 hs2
      refine wp_mono hs2 ?_ (fun _ _ he => he)
      intro _ s3 hs3
      refine wp_mono (pasvListenLoop_sess left (i + 1) s3) ?_ (fun _ _ he => he)
      rintro _ s4 ⟨fd, hfd⟩
      exact ⟨fd, by rw [hfd, hs3, hs1]; rfl⟩
    unfold pasvListenLoop
    simp only [wp_bind, PrivM.emit, setListenFd, wp_modify]
    cases env.listenBind i with
    | ok =>
      cases env.listen i with
      | ok => exact ⟨env.listenFd i, rfl⟩
      | addrInUse => simpa only [wp_pure, wp_bind, setListenFd] using hretry _ rfl
      | acces => trivial
      | other => trivial
    | addrInUse => simpa only [wp_pure, wp_bind, setListenFd] using hretry _ rfl
    | acces => simpa only [wp_pure, wp_bind, setListenFd] using hretry _ rfl
    | other => trivial

theorem vsfPrivopPasvListen_sess (s : PrivState) :
    wp (vsfPrivopPasvListen T env) (fun _ s' => ∃ fd, s'.sess = s.sess.withListener (some fd))
      (fun e _ => e.Orderly) s := by
  unfold vsfPrivopPasvListen
  simp only [wp_bind, wp_get, wp_ite, wp_throw]
  split
  · trivial
  · exact pasvListenLoop_sess env 9 0 s

end

end CosFtp
