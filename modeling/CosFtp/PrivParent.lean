/-
# The privileged parent

After login the parent serves requests of the unprivileged child over a
socket, `process_post_login_req` in a loop. What arrives there is bytes, each
with a descriptor attached or not, and the child may be hostile, so the input
is any list of them. A read takes what it needs off the front and drops the
descriptors it is not interested in; at the end of the input every read dies.

The parent never does more than it should: `PrivInv` holds before every
request whatever came before it (`parentRun_serves`), and a request outside of
it is refused (`processPostLoginReq_refused`).

Key definitions: `processPostLoginReq`, `parentRun`, `PrivEvent.Allowed`, `PrivInv`.
-/
import CosFtp.Privops

namespace CosFtp

open Wp PrivM

/-! ### The socket between the processes -/

def privSockChown : UInt8 := 2
def privSockGetDataSock : UInt8 := 3
def privSockPasvCleanup : UInt8 := 10
def privSockPasvActive : UInt8 := 11
def privSockPasvListen : UInt8 := 12
def privSockPasvAccept : UInt8 := 13

/-- What the parent sends back. -/
inductive ParentMsg where
  | result (ok : Bool)
  | int (n : ℤ)
  | fd (fd : Fd)
  deriving DecidableEq

structure ParentState where
  priv : PrivState
  /-- what has arrived on `parent_fd` and was not read yet -/
  input : List (UInt8 × Option Fd)
  output : List ParentMsg := []
  deriving DecidableEq

/-- The kernel's answers while one request is served. -/
structure ParentEnv extends PrivEnv where
  /-- whether the child's end takes the answers -/
  send : ℕ → Bool := fun _ => true

abbrev ParentM := EStateM Halt ParentState

def onPriv {α : Type} (x : PrivM α) : ParentM α :=
  zoom (·.priv) (fun p s => { s with priv := p }) x

/-- The next byte, of a read that dies with `msg` at the end. -/
def readByte (msg : String) : ParentM UInt8 := do
  let s ← get
  match s.input with
  | [] => throw (.die msg)
  | (b, _) :: rest => do
    set { s with input := rest }
    pure b

def privSockGetCmd : ParentM UInt8 := readByte "priv_sock_get_cmd"

/-- `priv_sock_get_int`, of which the callers keep the low 16 bits. -/
def privSockGetIntAsShort : ParentM UInt16 := do
  let b0 ← readByte "priv_sock_get_int"
  let b1 ← readByte "priv_sock_get_int"
  let _ ← readByte "priv_sock_get_int"
  let _ ← readByte "priv_sock_get_int"
  pure (UInt16.ofNat (b0.toNat + 256 * b1.toNat))

def privSockRecvFd : ParentM Fd := do
  let s ← get
  match s.input with
  | [] => throw (.die "recvmsg")
  | (_, fd?) :: rest => do
    set { s with input := rest }
    match fd? with
    | none => throw (.die "no passed fd")
    | some fd => pure fd

variable (T : Tunables) (env : ParentEnv)

/-- What a message that cannot be sent dies with. -/
def ParentMsg.dieText : ParentMsg → String
  | .result _ => "priv_sock_send_result"
  | .int _ => "priv_sock_send_int"
  | .fd _ => "sendmsg"

/-- The `i`th message of the answer to a request. -/
def privSockSend (i : ℕ) (msg : ParentMsg) : ParentM Unit := do
  if env.send i then modify fun s => { s with output := s.output ++ [msg] }
  else throw (.die msg.dieText)

def privSockSendFd (i : ℕ) (fd : Fd) : ParentM Unit := do
  privSockSend env i (.fd fd)
  onPriv (do
    let p ← get
    emit (.sendFd fd (p.socks.lookup fd)))

/-! ### The requests -/

def cmdProcessChown : ParentM Unit := do
  let fd ← privSockRecvFd
  onPriv (vsfPrivopDoFileChown env.toPrivEnv fd)
  onPriv (vsfSysutilClose env.toPrivEnv (.close fd))
  privSockSend env 0 (.result true)

def cmdProcessGetDataSock : ParentM Unit := do
  let port ← privSockGetIntAsShort
  let sock ← onPriv (vsfPrivopGetFtpPortSock env.toPrivEnv port none)
  match sock with
  | none => privSockSend env 0 (.result false)
  | some fd => do
    privSockSend env 0 (.result true)
    privSockSendFd env 1 fd
    onPriv (vsfSysutilClose env.toPrivEnv (.close fd))

def cmdProcessPasvCleanup : ParentM Unit := do
  onPriv (vsfPrivopPasvCleanup env.toPrivEnv)
  privSockSend env 0 (.result true)

def cmdProcessPasvActive : ParentM Unit := do
  let active ← onPriv vsfPrivopPasvActive
  privSockSend env 0 (.int (if active then 1 else 0))

def cmdProcessPasvListen : ParentM Unit := do
  let port ← onPriv (vsfPrivopPasvListen T env.toPrivEnv)
  privSockSend env 0 (.int port.toNat)

def cmdProcessPasvAccept : ParentM Unit := do
  let fd ← onPriv (vsfPrivopAcceptPasv T env.toPrivEnv)
  match fd with
  | .error e => do
    privSockSend env 0 (.result false)
    privSockSend env 1 (.int e)
  | .ok fd => do
    privSockSend env 0 (.result true)
    privSockSendFd env 1 fd
    onPriv (vsfSysutilClose env.toPrivEnv (.close fd))

def processPostLoginReq : ParentM Unit := do
  let cmd ← privSockGetCmd
  if T.chownUploads ∧ cmd = privSockChown then cmdProcessChown env
  else if cmd = privSockGetDataSock then cmdProcessGetDataSock env
  else if cmd = privSockPasvCleanup then cmdProcessPasvCleanup env
  else if cmd = privSockPasvActive then cmdProcessPasvActive env
  else if cmd = privSockPasvListen then cmdProcessPasvListen T env
  else if cmd = privSockPasvAccept then cmdProcessPasvAccept T env
  else throw (.die "bad request in process_post_login_req")

/-- The loop of `vsf_priv_parent_postlogin`, for `n` requests from the `i`th on. -/
def parentRun (envs : ℕ → ParentEnv) : ℕ → ℕ → ParentM Unit
  | 0, _ => pure ()
  | n + 1, i => do
    processPostLoginReq T (envs i)
    parentRun envs n (i + 1)

/-! ### What every run keeps to -/

section

variable {T} {env} {p : PrivSess}

/-- Nothing was done but reading and answering. -/
def SamePriv (s s' : ParentState) : Prop := s'.priv = s.priv

instance : Std.Refl SamePriv := ⟨fun _ => rfl⟩

instance : IsTrans ParentState SamePriv := ⟨fun _ _ _ h h' => h'.trans h⟩

theorem readByte_samePriv (msg : String) : Within SamePriv Halt.Orderly (readByte msg) := by
  intro s
  unfold readByte
  simp only [wp_bind, wp_get]
  cases s.input with
  | nil => exact ⟨trivial, rfl⟩
  | cons b rest => rfl

theorem privSockGetIntAsShort_samePriv : Within SamePriv Halt.Orderly privSockGetIntAsShort := by
  unfold privSockGetIntAsShort
  refine within_bind (readByte_samePriv _) fun b0 => ?_
  refine within_bind (readByte_samePriv _) fun b1 => ?_
  refine within_bind (readByte_samePriv _) fun _ => ?_
  exact within_bind (readByte_samePriv _) fun _ => within_pure _

theorem privSockRecvFd_samePriv : Within SamePriv Halt.Orderly privSockRecvFd := by
  intro s
  unfold privSockRecvFd
  simp only [wp_bind, wp_get]
  rcases s.input with _ | ⟨⟨b, fd⟩, rest⟩
  · exact ⟨trivial, rfl⟩
  cases fd with
  | none => exact ⟨trivial, rfl⟩
  | some fd => rfl

theorem privSockSend_samePriv (i : ℕ) (msg : ParentMsg) :
    Within SamePriv Halt.Orderly (privSockSend env i msg) :=
  within_ite (within_modify fun _ => rfl) (within_throw trivial)

/-- A request is well served when it keeps the invariant, or dies in safety. -/
def Serves (T : Tunables) (p : PrivSess) (x : ParentM Unit) : Prop :=
  ∀ s, PrivInv T p s.priv → wp x (fun _ s' => PrivInv T p s'.priv) (fun _ s' => PrivSafe T p s'.priv) s

/-- Reading and answering before or after a request changes nothing of it. -/
theorem wp_samePriv {α : Type} {x : ParentM α} (hx : Within SamePriv Halt.Orderly x) {s : ParentState}
    (h : PrivInv T p s.priv) :
    wp x (fun _ s' => PrivInv T p s'.priv) (fun _ s' => PrivSafe T p s'.priv) s := by
  refine wp_mono (hx s) ?_ ?_
  · intro _ s' hs'
    rw [show s'.priv = s.priv from hs']
    exact h
  · intro _ s' hs'
    rw [show s'.priv = s.priv from hs'.2]
    exact h.toPrivSafe

theorem privSockSendFd_inv {s : ParentState} (h : PrivInv T p s.priv) (i : ℕ) {fd : Fd}
    (hfd : ∃ addr, s.priv.socks.lookup fd = some addr ∧
      (T.pasvPromiscuous = true ∨ addr.ip = p.remoteAddr.ip)) :
    wp (privSockSendFd env i fd) (fun _ s' => PrivInv T p s'.priv)
      (fun _ s' => PrivSafe T p s'.priv) s := by
  unfold privSockSendFd
  rw [wp_bind]
  refine wp_mono (privSockSend_samePriv i (.fd fd) s) ?_ ?_
  · intro _ s' hs'
    have hpriv : s'.priv = s.priv := hs'
    simp only [onPriv, wp_zoom, wp_bind, wp_get, PrivM.emit, wp_modify, hpriv]
    exact h.emit hfd (fun _ => rfl)
  · intro _ s' hs'
    rw [show s'.priv = s.priv from hs'.2]
    exact h.toPrivSafe

/-- Handing a connected socket to the child. -/
theorem sendConn_inv {s : ParentState} (h : PrivInv T p s.priv) {fd : Fd}
    (hfd : ∃ addr, s.priv.socks.lookup fd = some addr ∧
      (T.pasvPromiscuous = true ∨ addr.ip = p.remoteAddr.ip)) :
    wp (do
        privSockSend env 0 (.result true)
        privSockSendFd env 1 fd
        onPriv (vsfSysutilClose env.toPrivEnv (.close fd)))
      (fun _ s' => PrivInv T p s'.priv) (fun _ s' => PrivSafe T p s'.priv) s := by
  simp only [wp_bind]
  refine wp_mono (privSockSend_samePriv 0 (.result true) s) ?_ ?_
  · intro _ s' hs'
    have hpriv : s'.priv = s.priv := hs'
    refine wp_mono (privSockSendFd_inv (hpriv ▸ h) 1 (hpriv ▸ hfd)) ?_ (fun _ _ he => he)
    intro _ s'' hs''
    simp only [onPriv, wp_zoom]
    exact vsfSysutilClose_inv env.toPrivEnv hs'' trivial (fun _ => rfl)
  · intro _ s' hs'
    rw [show s'.priv = s.priv from hs'.2]
    exact h.toPrivSafe

theorem cmdProcessChown_serves (hT : T.chownUploads = true) : Serves T p (cmdProcessChown env) := by
  intro s h
  unfold cmdProcessChown
  simp only [wp_bind]
  refine wp_mono (wp_samePriv privSockRecvFd_samePriv h) ?_ (fun _ _ he => he)
  intro fd s1 h1
  simp only [onPriv, wp_zoom]
  refine wp_mono (vsfPrivopDoFileChown_inv env.toPrivEnv h1 hT fd) ?_ (fun _ _ he => he)
  intro _ p2 h2
  refine wp_mono (vsfSysutilClose_inv env.toPrivEnv h2 trivial (fun _ => rfl)) ?_ (fun _ _ he => he)
  intro _ p3 h3
  exact wp_samePriv (privSockSend_samePriv 0 _) h3

theorem cmdProcessGetDataSock_serves : Serves T p (cmdProcessGetDataSock env) := by
  intro s h
  unfold cmdProcessGetDataSock
  simp only [wp_bind]
  refine wp_mono (wp_samePriv privSockGetIntAsShort_samePriv h) ?_ (fun _ _ he => he)
  intro port s1 h1
  simp only [onPriv, wp_zoom]
  refine wp_mono (vsfPrivopGetFtpPortSock_inv env.toPrivEnv h1 port) ?_ (fun _ _ he => he)
  rintro (_ | fd) p2 ⟨h2, hsock⟩
  · exact wp_samePriv (privSockSend_samePriv 0 _) h2
  · obtain ⟨addr, haddr, hip⟩ := hsock fd rfl
    exact sendConn_inv h2 ⟨addr, haddr, .inr hip⟩

theorem cmdProcessPasvCleanup_serves : Serves T p (cmdProcessPasvCleanup env) := by
  intro s h
  unfold cmdProcessPasvCleanup
  simp only [wp_bind, onPriv, wp_zoom]
  refine wp_mono (vsfPrivopPasvCleanup_inv env.toPrivEnv h) ?_ (fun _ _ he => he)
  rintro _ p1 ⟨h1, -⟩
  exact wp_samePriv (privSockSend_samePriv 0 _) h1

theorem cmdProcessPasvActive_serves : Serves T p (cmdProcessPasvActive env) := by
  intro s h
  unfold cmdProcessPasvActive vsfPrivopPasvActive
  simp only [wp_bind, onPriv, wp_zoom, wp_get, wp_pure]
  exact wp_samePriv (privSockSend_samePriv 0 _) h

theorem cmdProcessPasvListen_serves : Serves T p (cmdProcessPasvListen T env) := by
  intro s h
  unfold cmdProcessPasvListen
  simp only [wp_bind, onPriv, wp_zoom]
  refine wp_mono (vsfPrivopPasvListen_inv env.toPrivEnv h) ?_ (fun _ _ he => he)
  intro port p1 h1
  exact wp_samePriv (privSockSend_samePriv 0 _) h1

theorem cmdProcessPasvAccept_serves : Serves T p (cmdProcessPasvAccept T env) := by
  intro s h
  unfold cmdProcessPasvAccept
  simp only [wp_bind, onPriv, wp_zoom]
  refine wp_mono (vsfPrivopAcceptPasv_inv env.toPrivEnv h) ?_ (fun _ _ he => he)
  rintro (e | fd) p1 ⟨h1, hconn⟩
  · refine wp_samePriv (within_bind (privSockSend_samePriv 0 _) fun _ => ?_) h1
    exact privSockSend_samePriv 1 _
  · exact sendConn_inv h1 (hconn fd rfl)

/-- **One request** keeps the invariant, whatever arrives. -/
theorem processPostLoginReq_serves : Serves T p (processPostLoginReq T env) := by
  intro s h
  unfold processPostLoginReq
  rw [wp_bind]
  refine wp_mono (wp_samePriv (readByte_samePriv _) h) ?_ (fun _ _ he => he)
  intro cmd s1 h1
  simp only [wp_ite, wp_throw]
  split
  · rename_i hc
    exact cmdProcessChown_serves hc.1 s1 h1
  split
  · exact cmdProcessGetDataSock_serves s1 h1
  split
  · exact cmdProcessPasvCleanup_serves s1 h1
  split
  · exact cmdProcessPasvActive_serves s1 h1
  split
  · exact cmdProcessPasvListen_serves s1 h1
  split
  · exact cmdProcessPasvAccept_serves s1 h1
  · exact h1.toPrivSafe

/-- **Any number of requests.** -/
theorem parentRun_serves (envs : ℕ → ParentEnv) : ∀ n i : ℕ, Serves T p (parentRun T envs n i)
  | 0, _ => fun _ h => h
  | n + 1, i => by
    intro s h
    unfold parentRun
    rw [wp_bind]
    refine wp_mono (processPostLoginReq_serves s h) ?_ (fun _ _ he => he)
    intro _ s1 h1
    exact parentRun_serves envs n (i + 1) s1 h1

end

/-! ### The requests that are refused -/

/-- The next request asks for a connection, a listener, an accept or an owner
that is not the child's to have. -/
inductive Refused (s : ParentState) : Prop where
  | connect {x0 x1 x2 x3 x4 : Option Fd} {b0 b1 b2 b3 : UInt8} {rest : List (UInt8 × Option Fd)}
      (hin : s.input = (privSockGetDataSock, x0) :: (b0, x1) :: (b1, x2) :: (b2, x3) :: (b3, x4) :: rest)
      (h : s.priv.sess.pasvListenFd ≠ none ∨
        isPortReserved (UInt16.ofNat (b0.toNat + 256 * b1.toNat)) = true)
  | listen {x : Option Fd} {rest : List (UInt8 × Option Fd)}
      (hin : s.input = (privSockPasvListen, x) :: rest) (h : s.priv.sess.pasvListenFd ≠ none)
  | accept {x : Option Fd} {rest : List (UInt8 × Option Fd)}
      (hin : s.input = (privSockPasvAccept, x) :: rest) (h : s.priv.sess.pasvListenFd = none)
  | chown {x : Option Fd} {rest : List (UInt8 × Option Fd)}
      (hin : s.input = (privSockChown, x) :: rest) (h : T.chownUploads = false)
  | chownOwner {x : Option Fd} {b : UInt8} {fd : Fd} {rest : List (UInt8 × Option Fd)} {st : Stat}
      (hin : s.input = (privSockChown, x) :: (b, some fd) :: rest) (hst : env.fstat = some st)
      (hown : st.uid ≠ s.priv.sess.anonUploadChownUid)
      (h : s.priv.sess.anonUploadChownUid = -1 ∨ st.isRegfile = false ∨
        (st.uid ≠ s.priv.sess.anonFtpUid ∧ st.uid ≠ s.priv.sess.guestUserUid))

/-- A refused request kills the parent before it has done anything. -/
def Dies (x : ParentM Unit) (s : ParentState) : Prop :=
  ∃ msg s', x s = .error (.die msg) s' ∧ s'.priv = s.priv

theorem dies_of_wp {x : ParentM Unit} {s : ParentState}
    (h : wp x (fun _ _ => False) (fun e s' => (∃ msg, e = .die msg) ∧ s'.priv = s.priv) s) :
    Dies x s := by
  unfold wp at h
  cases hx : x s with
  | ok a s' => rw [hx] at h; exact h.elim
  | error e s' =>
    rw [hx] at h
    obtain ⟨⟨msg, rfl⟩, hpriv⟩ := h
    exact ⟨msg, s', hx, hpriv⟩

section

variable {T} {env} {s : ParentState}

theorem wp_readByte {Q : UInt8 → ParentState → Prop} {E : Halt → ParentState → Prop} {b : UInt8}
    {x : Option Fd} {rest : List (UInt8 × Option Fd)} (hin : s.input = (b, x) :: rest) (msg : String) :
    wp (readByte msg) Q E s ↔ Q b { s with input := rest } := by
  unfold readByte
  simp only [wp_bind, wp_get, hin]
  rfl

theorem wp_privSockRecvFd {Q : Fd → ParentState → Prop} {E : Halt → ParentState → Prop} {b : UInt8}
    {fd : Fd} {rest : List (UInt8 × Option Fd)} (hin : s.input = (b, some fd) :: rest) :
    wp privSockRecvFd Q E s ↔ Q fd { s with input := rest } := by
  unfold privSockRecvFd
  simp only [wp_bind, wp_get, hin]
  rfl

theorem processPostLoginReq_refused (h : Refused T env s) : Dies (processPostLoginReq T env) s := by
  apply dies_of_wp
  unfold processPostLoginReq privSockGetCmd
  rw [wp_bind]
  cases h with
  | connect hin h =>
    rw [wp_readByte hin, if_neg (fun h => absurd h.2 (by decide)), if_pos rfl]
    unfold cmdProcessGetDataSock privSockGetIntAsShort vsfPrivopGetFtpPortSock
    simp only [wp_bind]
    rw [wp_readByte rfl, wp_readByte rfl, wp_readByte rfl, wp_readByte rfl]
    simp only [wp_pure, onPriv, wp_zoom, wp_bind, wp_get, wp_ite, wp_throw]
    split
    · exact ⟨⟨_, rfl⟩, trivial⟩
    · rename_i hno
      rw [if_pos (h.resolve_left hno)]
      exact ⟨⟨_, rfl⟩, trivial⟩
  | listen hin h =>
    rw [wp_readByte hin, if_neg (fun h => absurd h.2 (by decide)), if_neg (by decide),
      if_neg (by decide), if_neg (by decide), if_pos rfl]
    unfold cmdProcessPasvListen vsfPrivopPasvListen
    simp only [wp_bind, onPriv, wp_zoom, wp_get, wp_ite, wp_throw]
    rw [if_pos h]
    exact ⟨⟨_, rfl⟩, trivial⟩
  | accept hin h =>
    rw [wp_readByte hin, if_neg (fun h => absurd h.2 (by decide)), if_neg (by decide),
      if_neg (by decide), if_neg (by decide), if_neg (by decide), if_pos rfl]
    unfold cmdProcessPasvAccept vsfPrivopAcceptPasv
    simp only [wp_bind, onPriv, wp_zoom, wp_get, wp_ite, wp_throw]
    rw [if_pos h]
    exact ⟨⟨_, rfl⟩, trivial⟩
  | chown hin h =>
    rw [wp_readByte hin, if_neg (by simp [h]), if_neg (by decide), if_neg (by decide),
      if_neg (by decide), if_neg (by decide), if_neg (by decide)]
    exact ⟨⟨_, rfl⟩, rfl⟩
  | chownOwner hin hst hown h =>
    rw [wp_readByte hin]
    by_cases hT : T.chownUploads = true
    · rw [if_pos ⟨hT, rfl⟩]
      unfold cmdProcessChown vsfPrivopDoFileChown
      rw [wp_bind, wp_privSockRecvFd rfl]
      simp only [wp_bind, onPriv, wp_zoom, wp_get, hst, wp_ite, wp_throw]
      rw [if_neg hown, if_pos (by simpa using h)]
      exact ⟨⟨_, rfl⟩, trivial⟩
    · rw [if_neg (fun h => hT h.1), if_neg (by decide), if_neg (by decide), if_neg (by decide),
        if_neg (by decide), if_neg (by decide)]
      exact ⟨⟨_, rfl⟩, rfl⟩

/-- The next request accepts a connection from another host. -/
structure ForeignAccept (T : Tunables) (env : ParentEnv) (s : ParentState) (fd : Fd) (peer : Sockaddr) :
    Prop where
  request : ∃ x rest, s.input = (privSockPasvAccept, x) :: rest
  listening : s.priv.sess.pasvListenFd ≠ none
  accepted : env.accept = .conn fd peer
  notPromiscuous : T.pasvPromiscuous = false
  foreign : s.priv.sess.remoteAddr.ip ≠ peer.ip

/-- A connection from another host is closed, and the child told so. -/
theorem processPostLoginReq_foreign {fd : Fd} {peer : Sockaddr} (h : ForeignAccept T env s fd peer) :
    wp (processPostLoginReq T env)
      (fun _ s' => s'.output = s.output ++ [.result false, .int (-2)] ∧
        s'.priv.events = s.priv.events ++ [.accept fd peer, .close fd])
      (fun _ s' => s'.priv.events = s.priv.events ++ [.accept fd peer, .close fd]) s := by
  obtain ⟨⟨x, rest, hin⟩, hl, haccept, hT, hip⟩ := h
  have hne : Sockaddr.addrEqual s.priv.sess.remoteAddr peer = false := by
    rw [← Bool.not_eq_true, Sockaddr.addrEqual_iff]
    exact hip
  unfold processPostLoginReq privSockGetCmd
  rw [wp_bind, wp_readByte hin, if_neg (fun h => absurd h.2 (by decide)), if_neg (by decide),
    if_neg (by decide), if_neg (by decide), if_neg (by decide), if_pos rfl]
  unfold cmdProcessPasvAccept vsfPrivopAcceptPasv
  simp only [wp_bind, onPriv, wp_zoom, wp_get, wp_ite, wp_throw]
  rw [if_neg hl]
  simp only [haccept, wp_bind, PrivM.emit, PrivM.connected, wp_modify, wp_ite]
  rw [if_pos (by simp [hT, hne])]
  simp only [vsfSysutilClose, PrivM.emit, wp_bind, wp_modify, wp_ite, wp_pure, wp_throw]
  split
  · simp only [privSockSend, wp_ite, wp_modify, wp_throw]
    split
    · split <;> simp
    · simp
  · simp

end

/-- **The parent does nothing for a hostile child that it would not do for its
own session.** After any number of requests, whatever bytes and descriptors
they came as: it connected to the control peer on unreserved ports only, handed
on connections with that host only, changed the owner of files of the
anonymous or the guest user only, and never held two listeners. A request for
anything else kills it, but for an accept that yields a connection from
another host, which is closed and reported. -/
theorem parent_serves_its_session_only (T : Tunables) (envs : ℕ → ParentEnv) (n : ℕ) (s₀ : ParentState)
    (hlisten : s₀.priv.sess.pasvListenFd = none) (hevents : s₀.priv.events = []) :
    (∀ e ∈ (after (parentRun T envs n 0) s₀).priv.events, e.Allowed T s₀.priv.sess) ∧
    (∀ es, es <+: (after (parentRun T envs n 0) s₀).priv.events → (heldListeners es).length ≤ 1) ∧
    (∀ env, Refused T env (after (parentRun T envs n 0) s₀) →
      Dies (processPostLoginReq T env) (after (parentRun T envs n 0) s₀)) ∧
    ∀ env fd peer, ForeignAccept T env (after (parentRun T envs n 0) s₀) fd peer →
      wp (processPostLoginReq T env)
        (fun _ s' => s'.output = (after (parentRun T envs n 0) s₀).output ++ [.result false, .int (-2)] ∧
          s'.priv.events = (after (parentRun T envs n 0) s₀).priv.events ++ [.accept fd peer, .close fd])
        (fun _ s' =>
          s'.priv.events = (after (parentRun T envs n 0) s₀).priv.events ++ [.accept fd peer, .close fd])
        (after (parentRun T envs n 0) s₀) := by
  have hinv : PrivInv T s₀.priv.sess s₀.priv := by
    refine ⟨⟨by simp [hevents], ?_⟩, by simp [hevents, hlisten, heldListeners], rfl, rfl, rfl⟩
    intro es hes
    rw [hevents, List.prefix_nil] at hes
    simp [hes, heldListeners]
  have hrun := wp_mono (parentRun_serves envs n 0 s₀ hinv)
    (fun _ _ h => h.toPrivSafe) (fun _ _ h => h)
  have hsafe : PrivSafe T s₀.priv.sess (after (parentRun T envs n 0) s₀).priv := wp_after hrun
  exact ⟨hsafe.allowed, hsafe.atMostOne, fun _ h => processPostLoginReq_refused h,
    fun _ _ _ h => processPostLoginReq_foreign h⟩

/-- A parent whose child asks it to listen and to accept. -/
def listenAcceptParent : ParentState where
  priv := { sess := { localAddr := host10 9 21, remoteAddr := host10 1 40000 } }
  input := [(privSockPasvListen, none), (privSockPasvAccept, none)]

/-- The second request meets a connection from `peer`. -/
def acceptFrom (peer : Sockaddr) : ℕ → ParentEnv
  | 0 => { listenFd := fun _ => 5 }
  | _ => { accept := .conn 7 peer }

theorem parent_serves_its_session_only_listen_accept :
    (∀ e ∈ (after (parentRun {} (acceptFrom (host10 1 50000)) 2 0) listenAcceptParent).priv.events,
      e.Allowed {} listenAcceptParent.priv.sess) ∧
    (after (parentRun {} (acceptFrom (host10 1 50000)) 2 0) listenAcceptParent).priv.events =
      [.openListener 5, .accept 7 (host10 1 50000), .sendFd 7 (some (host10 1 50000)), .close 7] :=
  ⟨(parent_serves_its_session_only {} (acceptFrom (host10 1 50000)) 2 listenAcceptParent rfl rfl).1,
    rfl⟩

/-- A connection from another host is accepted and does not kill the parent. -/
theorem parent_survives_foreign_accept :
    ∃ s', parentRun {} (acceptFrom (host10 2 50000)) 2 0 listenAcceptParent = .ok () s' ∧
      .accept 7 (host10 2 50000) ∈ s'.priv.events ∧
      (host10 2 50000).ip ≠ listenAcceptParent.priv.sess.remoteAddr.ip ∧
      ({} : Tunables).pasvPromiscuous = false :=
  ⟨_, rfl, by decide, by decide, rfl⟩

end CosFtp
