/-
# The child and its parent stay in step

After login the child that speaks with the client asks its parent for what it has not
the privilege to do, by the six functions of twoprocess.c, and the parent serves
`process_post_login_req` in a loop. Both ends write and read the same socket pair byte
by byte: a command, an int of four bytes or a descriptor as its arguments, and a result
byte, an int or a descriptor as the answer. Nothing marks where a message ends, so a
single read too few or too many would shift everything behind it.

A call is a `Duplex` process here, and so is the parent: it reads the bytes a request
has and serves it as `processPostLoginReq` does. Each call is made for its request
(`Call.dual`), so the two stay in step whatever calls are made and whoever is faster,
and a list of calls comes to what serving them one after the other comes to. The calls of
a session are such that each fits (`Acts.asked`), and then none has the parent die out of
step.

Key definitions: `Call.run`, `childRun`, `parentProc`, `runCalls`, `Lockstep`.
Key theorems: `calls_dual`, `Asked.runCalls_inStep`, `child_and_parent_in_step`.
-/
import CosFtp.Lib.Duplex
import CosFtp.Policy
import CosFtp.PrivParent

namespace CosFtp

open Wp PrivM Duplex

/-! ### What goes over the socket pair -/

/-- What a byte is part of. -/
inductive PrivKind where
  | cmd
  | result
  | int
  | fd
  deriving DecidableEq

/-- A byte, with a descriptor attached or not. -/
abbrev PrivUnit := UInt8 × Option Fd

abbrev PrivProc (ρ : Type) := Duplex.Proc PrivKind PrivUnit ρ

def privSockResultOk : UInt8 := 1
def privSockResultBad : UInt8 := 2

/-- An `int` in memory, the low byte first. -/
def intBytes (n : ℤ) : List UInt8 :=
  let m := (n % 2 ^ 32).toNat
  [UInt8.ofNat m, UInt8.ofNat (m / 2 ^ 8), UInt8.ofNat (m / 2 ^ 16), UInt8.ofNat (m / 2 ^ 24)]

def intOfBytes : List UInt8 → ℤ
  | [b0, b1, b2, b3] =>
    wrapSigned 32 (b0.toNat + 2 ^ 8 * b1.toNat + 2 ^ 16 * b2.toNat + 2 ^ 24 * b3.toNat)
  | _ => 0

theorem length_intBytes (n : ℤ) : (intBytes n).length = 4 := rfl

theorem intOfBytes_intBytes {n : ℤ} (h : -(2 ^ 31) ≤ n ∧ n < 2 ^ 31) : intOfBytes (intBytes n) = n := by
  simp only [intBytes, intOfBytes, wrapSigned, UInt8.toNat_ofNat', Int.natCast_emod]
  omega

/-- A message of the parent, as bytes. -/
def ParentMsg.kind : ParentMsg → PrivKind
  | .result _ => .result
  | .int _ => .int
  | .fd _ => .fd

def ParentMsg.units : ParentMsg → List PrivUnit
  | .result ok => [(if ok then privSockResultOk else privSockResultBad, none)]
  | .int n => (intBytes n).map (·, none)
  | .fd n => [(0, some n)]

/-! ### The child -/

/-- How the child comes out of its calls. -/
inductive ChildEnd where
  | done (replies : List ℤ)
  | die (msg : String)
  deriving DecidableEq

namespace Child

def privSockSendCmd (cmd : UInt8) (next : PrivProc ChildEnd) : PrivProc ChildEnd :=
  .send .cmd (cmd, none) next

def privSockSendInt (n : ℤ) (next : PrivProc ChildEnd) : PrivProc ChildEnd :=
  .sendAll .int ((intBytes n).map (·, none)) next

def privSockSendFd (fd : Fd) (next : PrivProc ChildEnd) : PrivProc ChildEnd := .send .fd (0, some fd) next

def privSockGetResult (next : UInt8 → PrivProc ChildEnd) : PrivProc ChildEnd := .recv .result fun u => next u.1

def privSockGetInt (next : ℤ → PrivProc ChildEnd) : PrivProc ChildEnd :=
  .recvAll .int 4 fun us => next (intOfBytes (us.map (·.1)))

def privSockRecvFd (next : Fd → PrivProc ChildEnd) : PrivProc ChildEnd :=
  .recv .fd fun u => match u.2 with
    | none => .stop (.die "no passed fd")
    | some fd => next fd

/-- The result has to be OK. -/
def privSockGetOk (msg : String) (next : PrivProc ChildEnd) : PrivProc ChildEnd :=
  privSockGetResult fun res => if res ≠ privSockResultOk then .stop (.die msg) else next

def vsfTwoProcessGetPrivDataSock (port : UInt16) (next : ℤ → PrivProc ChildEnd) : PrivProc ChildEnd :=
  privSockSendCmd privSockGetDataSock <| privSockSendInt port.toNat <| privSockGetResult fun res =>
    if res = privSockResultBad then next (-1)
    else if res ≠ privSockResultOk then .stop (.die "could not get privileged socket")
    else privSockRecvFd fun fd => next fd

def vsfTwoProcessPasvCleanup (next : ℤ → PrivProc ChildEnd) : PrivProc ChildEnd :=
  privSockSendCmd privSockPasvCleanup <| privSockGetOk "could not clean up socket" (next 0)

def vsfTwoProcessPasvActive (next : ℤ → PrivProc ChildEnd) : PrivProc ChildEnd :=
  privSockSendCmd privSockPasvActive <| privSockGetInt next

def vsfTwoProcessListen (next : ℤ → PrivProc ChildEnd) : PrivProc ChildEnd :=
  privSockSendCmd privSockPasvListen <| privSockGetInt fun n => next (n % 2 ^ 16)

def vsfTwoProcessGetPasvFd (next : ℤ → PrivProc ChildEnd) : PrivProc ChildEnd :=
  privSockSendCmd privSockPasvAccept <| privSockGetResult fun res =>
    if res = privSockResultBad then privSockGetInt next
    else if res ≠ privSockResultOk then .stop (.die "could not accept on listening socket")
    else privSockRecvFd fun fd => next fd

def vsfTwoProcessChownUpload (fd : Fd) (next : ℤ → PrivProc ChildEnd) : PrivProc ChildEnd :=
  privSockSendCmd privSockChown <| privSockSendFd fd <|
    privSockGetOk "unexpected failure in vsf_two_process_chown_upload" (next 0)

end Child

/-- A call, with what comes behind it; a call that returns nothing returns 0. -/
def Call.run : Call → (ℤ → PrivProc ChildEnd) → PrivProc ChildEnd
  | .getPrivDataSock port => Child.vsfTwoProcessGetPrivDataSock port
  | .pasvCleanup => Child.vsfTwoProcessPasvCleanup
  | .pasvActive => Child.vsfTwoProcessPasvActive
  | .listen => Child.vsfTwoProcessListen
  | .getPasvFd => Child.vsfTwoProcessGetPasvFd
  | .chownUpload fd => Child.vsfTwoProcessChownUpload fd

/-- One call after the other. -/
def childRun : List Call → List ℤ → PrivProc ChildEnd
  | [], replies => .stop (.done replies)
  | c :: calls, replies => .rest (c.run fun r => childRun calls (replies ++ [r]))

/-! ### The parent -/

section

variable (T : Tunables)

/-- The bytes that a request has behind its command. -/
def requestArgs (cmd : UInt8) : PrivKind × ℕ :=
  if T.chownUploads ∧ cmd = privSockChown then (.fd, 1)
  else if cmd = privSockGetDataSock then (.int, 4)
  else (.int, 0)

def sendMsgs (msgs : List ParentMsg) (next : PrivProc Halt) : PrivProc Halt :=
  msgs.foldr (fun msg next => .sendAll msg.kind msg.units next) next

/-- `process_post_login_req` as a process, and what comes behind it. -/
def serveReq (env : ParentEnv) (p : PrivState) (next : PrivState → PrivProc Halt) : PrivProc Halt :=
  .recv .cmd fun u => .recvAll (requestArgs T u.1).1 (requestArgs T u.1).2 fun us =>
    match processPostLoginReq T env ⟨p, u :: us, []⟩ with
    | .ok _ s => sendMsgs s.output (next s.priv)
    | .error e s => sendMsgs s.output (.stop e)

/-- The loop of `vsf_priv_parent_postlogin`, with the kernel's answers for each request;
the socket pair takes what is sent. -/
def parentProc : List PrivEnv → PrivState → PrivProc Halt
  | [], _ => .recv .cmd fun _ => .stop .running
  | env :: envs, p => serveReq T { toPrivEnv := env } p (parentProc envs)

/-! ### The calls without the socket pair -/

/-- The descriptor that a call brings or has brought, as the parent hands it over and
closes it. -/
def Call.handOver (env : PrivEnv) (r : ℤ) : Call → PrivM Unit
  | .getPrivDataSock _ | .getPasvFd =>
    if r < 0 then pure ()
    else do
      let p ← get
      PrivM.emit (.sendFd r.toNat (p.socks.lookup r.toNat))
      vsfSysutilClose env (.close r.toNat)
  | .chownUpload fd => vsfSysutilClose env (.close fd)
  | _ => pure ()

def Call.serve (env : PrivEnv) (c : Call) : PrivM ℤ := do
  let r ← c.op T env
  c.handOver env r
  pure r

def runCalls : List (Call × PrivEnv) → PrivM (List ℤ)
  | [] => pure []
  | (c, env) :: calls => do
    let r ← c.serve T env
    let rs ← runCalls calls
    pure (r :: rs)

end

/-! ### One request -/

/-- The request of a call, and its argument. -/
def Call.cmd : Call → UInt8
  | .getPrivDataSock _ => privSockGetDataSock
  | .pasvCleanup => privSockPasvCleanup
  | .pasvActive => privSockPasvActive
  | .listen => privSockPasvListen
  | .getPasvFd => privSockPasvAccept
  | .chownUpload _ => privSockChown

def Call.args : Call → PrivKind × List PrivUnit
  | .getPrivDataSock port => (.int, (intBytes port.toNat).map (·, none))
  | .chownUpload fd => (.fd, [(0, some fd)])
  | _ => (.int, [])

/-- What the child sends for a call. -/
def Call.units (c : Call) : List PrivUnit := (c.cmd, none) :: c.args.2

/-- What the parent answers, for what the call returns. -/
def Call.answer (r : ℤ) : Call → List ParentMsg
  | .getPrivDataSock _ => if r < 0 then [.result false] else [.result true, .fd r.toNat]
  | .pasvCleanup => [.result true]
  | .pasvActive => [.int r]
  | .listen => [.int r]
  | .getPasvFd => if r < 0 then [.result false, .int r] else [.result true, .fd r.toNat]
  | .chownUpload _ => [.result true]

/-- What a call can return. -/
def Call.Returns (r : ℤ) : Call → Prop
  | .getPrivDataSock _ => -1 ≤ r
  | .pasvCleanup => r = 0
  | .pasvActive => r = 0 ∨ r = 1
  | .listen => 0 ≤ r ∧ r < 2 ^ 16
  | .getPasvFd => -2 ≤ r
  | .chownUpload _ => r = 0

section

variable {T : Tunables} {env : ParentEnv} {p : PrivState} {α β : Type}

theorem run_bind_ok {x : PrivM α} {f : α → PrivM β} {a : α} {p p' : PrivState} (h : x p = .ok a p') :
    (x >>= f) p = f a p' := by
  show EStateM.bind x f p = _
  unfold EStateM.bind
  rw [h]

theorem run_bind_error {x : PrivM α} {f : α → PrivM β} {e : Halt} {p p' : PrivState} (h : x p = .error e p') :
    (x >>= f) p = .error e p' := by
  show EStateM.bind x f p = _
  unfold EStateM.bind
  rw [h]

/-- A request is served as its call is, and its answer is complete or was not begun. -/
def ServedAs (T : Tunables) (env : ParentEnv) (p : PrivState) (c : Call) (x : ParentM Unit) (s : ParentState) : Prop :=
  wp x
    (fun _ s' => ∃ r, c.serve T env.toPrivEnv p = .ok r s'.priv ∧ c.Returns r ∧ s'.output = c.answer r)
    (fun e s' => (∃ p', c.serve T env.toPrivEnv p = .error e p') ∧
      (s'.output = [] ∨ ∃ r, c.Returns r ∧ s'.output = c.answer r)) s

theorem wp_privSockSend (hsend : ∀ i, env.send i = true) (i : ℕ) (msg : ParentMsg) {s : ParentState}
    {Q : Unit → ParentState → Prop} {E : Halt → ParentState → Prop} :
    wp (privSockSend env i msg) Q E s ↔ Q () { s with output := s.output ++ [msg] } := by
  unfold privSockSend
  rw [if_pos (hsend i), wp_modify]

section

variable {c : Call} {r : ℤ} {e : Halt} {p' p'' : PrivState}

theorem serve_ok (hop : c.op T env.toPrivEnv p = .ok r p') (hhand : c.handOver env.toPrivEnv r p' = .ok () p'') :
    c.serve T env.toPrivEnv p = .ok r p'' :=
  (run_bind_ok hop).trans (run_bind_ok hhand)

theorem serve_op_error (hop : c.op T env.toPrivEnv p = .error e p') :
    c.serve T env.toPrivEnv p = .error e p' := run_bind_error hop

theorem serve_hand_error (hop : c.op T env.toPrivEnv p = .ok r p')
    (hhand : c.handOver env.toPrivEnv r p' = .error e p'') : c.serve T env.toPrivEnv p = .error e p'' :=
  (run_bind_ok hop).trans (run_bind_error hhand)

end

theorem pasvActive_servedAs (hsend : ∀ i, env.send i = true) :
    ServedAs T env p .pasvActive (cmdProcessPasvActive env) ⟨p, [], []⟩ := by
  unfold ServedAs cmdProcessPasvActive onPriv
  rw [wp_bind, wp_zoom]
  simp only [vsfPrivopPasvActive, wp_bind, wp_get, wp_pure, wp_privSockSend hsend]
  refine ⟨_, rfl, ?_, rfl⟩
  cases p.sess.pasvListenFd with
  | none => exact .inl rfl
  | some fd => exact .inr rfl

theorem pasvCleanup_servedAs (hsend : ∀ i, env.send i = true) :
    ServedAs T env p .pasvCleanup (cmdProcessPasvCleanup env) ⟨p, [], []⟩ := by
  unfold ServedAs cmdProcessPasvCleanup onPriv
  rw [wp_bind, wp_zoom]
  apply wp_of_run
  · intro _ p' hop
    rw [wp_privSockSend hsend]
    exact ⟨0, serve_ok (run_bind_ok hop) rfl, rfl, rfl⟩
  · intro e p' hop
    exact ⟨⟨p', serve_op_error (run_bind_error hop)⟩, .inl rfl⟩

theorem listen_servedAs (hsend : ∀ i, env.send i = true) :
    ServedAs T env p .listen (cmdProcessPasvListen T env) ⟨p, [], []⟩ := by
  unfold ServedAs cmdProcessPasvListen onPriv
  rw [wp_bind, wp_zoom]
  apply wp_of_run
  · intro port p' hop
    rw [wp_privSockSend hsend]
    have hport := port.toNat_lt
    exact ⟨port.toNat, serve_ok (run_bind_ok hop) rfl, ⟨by omega, by omega⟩, rfl⟩
  · intro e p' hop
    exact ⟨⟨p', serve_op_error (run_bind_error hop)⟩, .inl rfl⟩

theorem chownUpload_servedAs (hsend : ∀ i, env.send i = true) (fd : Fd) (b : UInt8) :
    ServedAs T env p (.chownUpload fd) (cmdProcessChown env) ⟨p, [(b, some fd)], []⟩ := by
  unfold ServedAs cmdProcessChown privSockRecvFd onPriv
  simp only [wp_bind, wp_get, wp_set, wp_pure, wp_zoom]
  apply wp_of_run
  · intro _ p' hop
    apply wp_of_run
    · intro _ p'' hclose
      rw [wp_privSockSend hsend]
      exact ⟨0, serve_ok (run_bind_ok hop) hclose, rfl, rfl⟩
    · intro e p'' hclose
      exact ⟨⟨p'', serve_hand_error (run_bind_ok hop) hclose⟩, .inl trivial⟩
  · intro e p' hop
    exact ⟨⟨p', serve_op_error (run_bind_error hop)⟩, .inl trivial⟩

/-- The parent has a connected socket for the child. -/
theorem conn_servedAs (hsend : ∀ i, env.send i = true) {c : Call}
    (hcall : c = .getPasvFd ∨ ∃ port, c = .getPrivDataSock port) {fd : Fd} {p' : PrivState}
    (hop : c.op T env.toPrivEnv p = .ok fd p') :
    ServedAs T env p c (do
      privSockSend env 0 (.result true)
      privSockSendFd env 1 fd
      onPriv (vsfSysutilClose env.toPrivEnv (.close fd))) ⟨p', [], []⟩ := by
  have hnonneg : ¬ ((fd : ℤ) < 0) := by omega
  have hanswer : c.answer fd = [.result true, .fd fd] := by
    rcases hcall with rfl | ⟨port, rfl⟩
    · simp [Call.answer]
    · simp [Call.answer]
  have hreturns : c.Returns fd := by
    rcases hcall with rfl | ⟨port, rfl⟩
    · show -2 ≤ (fd : ℤ)
      omega
    · show -1 ≤ (fd : ℤ)
      omega
  have hhand : c.handOver env.toPrivEnv fd p' = vsfSysutilClose env.toPrivEnv (.close fd)
      { p' with events := p'.events ++ [.sendFd fd (p'.socks.lookup fd)] } := by
    have hget : (get : PrivM PrivState) p' = .ok p' p' := rfl
    have hemit : PrivM.emit (.sendFd fd (p'.socks.lookup fd)) p' =
        .ok () { p' with events := p'.events ++ [.sendFd fd (p'.socks.lookup fd)] } := rfl
    have hdo : c.handOver env.toPrivEnv fd = (do
        let p ← get
        PrivM.emit (.sendFd fd (p.socks.lookup fd))
        vsfSysutilClose env.toPrivEnv (.close fd)) := by
      rcases hcall with rfl | ⟨port, rfl⟩
      · exact @if_neg _ _ hnonneg (PrivM Unit) (pure ()) _
      · exact @if_neg _ _ hnonneg (PrivM Unit) (pure ()) _
    rw [hdo, run_bind_ok hget, run_bind_ok hemit]
  unfold ServedAs privSockSendFd onPriv
  simp only [wp_bind, wp_privSockSend hsend, wp_zoom, wp_get, PrivM.emit, wp_modify, List.nil_append,
    List.singleton_append]
  apply wp_of_run
  · intro _ p'' hclose
    exact ⟨fd, serve_ok hop (hhand.trans hclose), hreturns, hanswer.symm⟩
  · intro e p'' hclose
    exact ⟨⟨p'', serve_hand_error hop (hhand.trans hclose)⟩, .inr ⟨fd, hreturns, hanswer.symm⟩⟩

/-- What `accept` refuses. -/
theorem vsfPrivopAcceptPasv_error {env : PrivEnv} {n : ℤ} {p p' : PrivState}
    (h : vsfPrivopAcceptPasv T env p = .ok (.error n) p') : n = -1 ∨ n = -2 := by
  have hspec : wp (vsfPrivopAcceptPasv T env) (fun conn _ => ∀ n, conn = .error n → n = -1 ∨ n = -2)
      (fun _ _ => True) p := by
    unfold vsfPrivopAcceptPasv
    simp only [wp_bind, wp_get, wp_ite, wp_throw]
    split
    · trivial
    · cases env.accept with
      | error =>
        intro n hn
        exact .inl (Except.error.inj hn).symm
      | otherFamily => trivial
      | conn fd peer =>
        simp only [wp_bind, PrivM.emit, PrivM.connected, wp_modify, wp_ite]
        split
        · refine wp_mono (wp_true _ _) ?_ (fun _ _ _ => trivial)
          intro _ _ _ n hn
          exact .inr (Except.error.inj hn).symm
        · intro n hn
          cases hn
  unfold wp at hspec
  rw [h] at hspec
  exact hspec n rfl

theorem getPasvFd_servedAs (hsend : ∀ i, env.send i = true) :
    ServedAs T env p .getPasvFd (cmdProcessPasvAccept T env) ⟨p, [], []⟩ := by
  unfold ServedAs cmdProcessPasvAccept
  rw [wp_bind]
  unfold onPriv
  rw [wp_zoom]
  apply wp_of_run
  · intro conn p' hop
    cases conn with
    | error n =>
      have hn : n < 0 ∧ -2 ≤ n := by
        have := vsfPrivopAcceptPasv_error hop
        omega
      have hop' : Call.op T env.toPrivEnv .getPasvFd p = .ok n p' := run_bind_ok hop
      simp only [wp_bind, wp_privSockSend hsend]
      refine ⟨n, serve_ok hop' ?_, hn.2, ?_⟩
      · exact congrFun (if_pos hn.1) p'
      · simp [Call.answer, hn.1]
    | ok fd => exact conn_servedAs hsend (.inl rfl) (run_bind_ok hop)
  · intro e p' hop
    exact ⟨⟨p', serve_op_error (run_bind_error hop)⟩, .inl rfl⟩

theorem privSockGetIntAsShort_bytes (port : UInt16) {Q : UInt16 → ParentState → Prop}
    {E : Halt → ParentState → Prop} :
    wp privSockGetIntAsShort Q E ⟨p, (intBytes port.toNat).map (·, none), []⟩ ↔ Q port ⟨p, [], []⟩ := by
  have hport := port.toNat_lt
  have hlow : UInt16.ofNat ((UInt8.ofNat ((port.toNat : ℤ) % 2 ^ 32).toNat).toNat +
      256 * (UInt8.ofNat (((port.toNat : ℤ) % 2 ^ 32).toNat / 2 ^ 8)).toNat) = port := by
    apply UInt16.toNat_inj.mp
    simp only [UInt8.toNat_ofNat', UInt16.toNat_ofNat']
    omega
  unfold privSockGetIntAsShort readByte intBytes
  simp only [List.map_cons, List.map_nil, wp_bind, wp_get, wp_set, wp_pure, hlow]

theorem getPrivDataSock_servedAs (hsend : ∀ i, env.send i = true) (port : UInt16) :
    ServedAs T env p (.getPrivDataSock port) (cmdProcessGetDataSock env)
      ⟨p, (intBytes port.toNat).map (·, none), []⟩ := by
  unfold ServedAs cmdProcessGetDataSock
  rw [wp_bind, privSockGetIntAsShort_bytes, wp_bind]
  unfold onPriv
  rw [wp_zoom]
  apply wp_of_run
  · intro sock p' hop
    cases sock with
    | none =>
      have hop' : Call.op T env.toPrivEnv (.getPrivDataSock port) p = .ok (-1) p' := run_bind_ok hop
      simp only [wp_privSockSend hsend]
      exact ⟨-1, serve_ok hop' rfl, Int.le_refl (-1), rfl⟩
    | some fd => exact conn_servedAs hsend (.inr ⟨port, rfl⟩) (run_bind_ok hop)
  · intro e p' hop
    exact ⟨⟨p', serve_op_error (run_bind_error hop)⟩, .inl rfl⟩

/-- **Each request is served as its call is.** -/
theorem processPostLoginReq_servedAs (hsend : ∀ i, env.send i = true) (c : Call)
    (hchown : ∀ fd, c = .chownUpload fd → T.chownUploads = true) :
    ServedAs T env p c (processPostLoginReq T env) ⟨p, c.units, []⟩ := by
  unfold ServedAs processPostLoginReq privSockGetCmd
  rw [wp_bind]
  cases c with
  | getPrivDataSock port =>
    rw [wp_readByte (b := privSockGetDataSock) rfl, if_neg (fun h => absurd h.2 (by decide)), if_pos rfl]
    exact getPrivDataSock_servedAs hsend port
  | pasvCleanup =>
    rw [wp_readByte (b := privSockPasvCleanup) rfl, if_neg (fun h => absurd h.2 (by decide)), if_neg (by decide), if_pos rfl]
    exact pasvCleanup_servedAs hsend
  | pasvActive =>
    rw [wp_readByte (b := privSockPasvActive) rfl, if_neg (fun h => absurd h.2 (by decide)), if_neg (by decide), if_neg (by decide),
      if_pos rfl]
    exact pasvActive_servedAs hsend
  | listen =>
    rw [wp_readByte (b := privSockPasvListen) rfl, if_neg (fun h => absurd h.2 (by decide)), if_neg (by decide), if_neg (by decide),
      if_neg (by decide), if_pos rfl]
    exact listen_servedAs hsend
  | getPasvFd =>
    rw [wp_readByte (b := privSockPasvAccept) rfl, if_neg (fun h => absurd h.2 (by decide)), if_neg (by decide), if_neg (by decide),
      if_neg (by decide), if_neg (by decide), if_pos rfl]
    exact getPasvFd_servedAs hsend
  | chownUpload fd =>
    rw [wp_readByte (b := privSockChown) rfl, if_pos ⟨hchown fd rfl, rfl⟩]
    exact chownUpload_servedAs hsend fd 0

/-! ### The two sides of a request -/

variable {fin : ChildEnd → PrivProc Halt → Prop} {dead : Halt → Prop}

/-- The parent reads behind the command what the call has sent there. -/
theorem requestArgs_eq (c : Call) (hchown : ∀ fd, c = .chownUpload fd → T.chownUploads = true) :
    requestArgs T c.cmd = (c.args.1, c.args.2.length) := by
  unfold requestArgs
  cases c with
  | chownUpload fd => rw [if_pos ⟨hchown fd rfl, rfl⟩]; rfl
  | getPrivDataSock port =>
    have hno : ¬ privSockGetDataSock = privSockChown := by decide
    exact (if_neg fun h => hno h.2).trans (if_pos rfl)
  | _ => rw [if_neg (fun h => absurd h.2 (by decide)), if_neg (by decide)]; rfl

theorem getOk_dual {msg : String} {next : PrivProc ChildEnd} {q : PrivProc Halt} (h : Dual .cmd fin dead next q) :
    Dual .cmd fin dead (Child.privSockGetOk msg next) (sendMsgs [.result true] q) :=
  .recv h

theorem getInt_dual {r : ℤ} {next : ℤ → PrivProc ChildEnd} {q : PrivProc Halt}
    (hr : -(2 ^ 31) ≤ r ∧ r < 2 ^ 31) (h : Dual .cmd fin dead (next r) q) :
    Dual .cmd fin dead (Child.privSockGetInt next) (sendMsgs [.int r] q) := by
  have hread : (ParentMsg.units (.int r)).map (·.1) = intBytes r := rfl
  have hlen : (ParentMsg.units (.int r)).length = 4 := by simp [ParentMsg.units, length_intBytes]
  show Dual .cmd fin dead (.recvAll .int 4 fun us => next (intOfBytes (us.map (·.1))))
    (.sendAll .int (ParentMsg.units (.int r)) q)
  apply Dual.recvAll hlen
  rw [hread, intOfBytes_intBytes hr]
  exact h

/-- A call sends its request and then waits for the answer, and any answer that is one
leads on to what the call returns. -/
theorem Call.run_spec (fin : ChildEnd → PrivProc Halt → Prop) (dead : Halt → Prop) (c : Call)
    (next : ℤ → PrivProc ChildEnd) :
    ∃ reply : PrivProc ChildEnd, c.run next = .send .cmd (c.cmd, none) (.sendAll c.args.1 c.args.2 reply) ∧
      reply.Waits ∧
      ∀ r q, c.Returns r → Dual .cmd fin dead (next r) q → Dual .cmd fin dead reply (sendMsgs (c.answer r) q) := by
  cases c with
  | getPrivDataSock port =>
    refine ⟨_, rfl, ⟨_, _, rfl⟩, ?_⟩
    intro r q hr h
    have hr' : -1 ≤ r := hr
    by_cases hneg : r < 0
    · obtain rfl : r = -1 := by omega
      exact .recv h
    · have hfd : ((r.toNat : ℕ) : ℤ) = r := by omega
      simp only [Call.answer, if_neg hneg]
      refine .recv (.recv ?_)
      show Dual .cmd fin dead (next (r.toNat : ℕ)) q
      rw [hfd]
      exact h
  | pasvCleanup =>
    refine ⟨_, rfl, ⟨_, _, rfl⟩, ?_⟩
    rintro r q rfl h
    exact getOk_dual h
  | pasvActive =>
    refine ⟨_, rfl, ⟨_, _, rfl⟩, ?_⟩
    intro r q hr h
    have hr' : r = 0 ∨ r = 1 := hr
    exact getInt_dual (by omega) h
  | listen =>
    refine ⟨Child.privSockGetInt fun n => next (n % 2 ^ 16), rfl, ⟨_, _, rfl⟩, ?_⟩
    intro r q hr h
    have hr' : 0 ≤ r ∧ r < 2 ^ 16 := hr
    have hshort : r % 2 ^ 16 = r := by omega
    have hrange : -(2 ^ 31) ≤ r ∧ r < 2 ^ 31 := by omega
    have hnext : Dual .cmd fin dead ((fun n : ℤ => next (n % 2 ^ 16)) r) q := by
      show Dual .cmd fin dead (next (r % 2 ^ 16)) q
      rw [hshort]
      exact h
    exact getInt_dual hrange hnext
  | getPasvFd =>
    refine ⟨_, rfl, ⟨_, _, rfl⟩, ?_⟩
    intro r q hr h
    have hr' : -2 ≤ r := hr
    by_cases hneg : r < 0
    · simp only [Call.answer, if_pos hneg]
      exact .recv (getInt_dual (by omega) h)
    · have hfd : ((r.toNat : ℕ) : ℤ) = r := by omega
      simp only [Call.answer, if_neg hneg]
      refine .recv (.recv ?_)
      show Dual .cmd fin dead (next (r.toNat : ℕ)) q
      rw [hfd]
      exact h
  | chownUpload fd =>
    refine ⟨_, rfl, ⟨_, _, rfl⟩, ?_⟩
    rintro r q rfl h
    exact getOk_dual h

/-- **A call and the request that it makes are made for each other.** -/
theorem Call.dual {env : PrivEnv} (c : Call) (hchown : ∀ fd, c = .chownUpload fd → T.chownUploads = true)
    {next : ℤ → PrivProc ChildEnd} {next' : PrivState → PrivProc Halt}
    (hok : ∀ r p', c.serve T env p = .ok r p' → Dual .cmd fin dead (next r) (next' p'))
    (hdead : ∀ e p', c.serve T env p = .error e p' → dead e) :
    Dual .cmd fin dead (c.run next) (serveReq T { toPrivEnv := env } p next') := by
  obtain ⟨reply, hrun, hwaits, hreply⟩ := c.run_spec fin dead next
  have hargs := requestArgs_eq c hchown
  rw [hrun]
  unfold serveReq
  refine Dual.send ?_ ?_
  · show Dual .cmd fin dead (.sendAll c.args.1 c.args.2 reply)
      (.recvAll (requestArgs T c.cmd).1 (requestArgs T c.cmd).2 _)
    rw [hargs]
    refine Dual.sendAll rfl ?_ hwaits
    have hserved := processPostLoginReq_servedAs (T := T) (p := p)
      (show ∀ i, ({ toPrivEnv := env } : ParentEnv).send i = true from fun _ => rfl) c hchown
    unfold ServedAs wp Call.units at hserved
    cases hreq : processPostLoginReq T { toPrivEnv := env } ⟨p, (c.cmd, none) :: c.args.2, []⟩ with
    | ok _ s' =>
      rw [hreq] at hserved
      obtain ⟨r, hserve, hr, hout⟩ := hserved
      show Dual .cmd fin dead reply (sendMsgs s'.output (next' s'.priv))
      rw [hout]
      exact hreply r _ hr (hok r _ hserve)
    | error e s' =>
      rw [hreq] at hserved
      obtain ⟨⟨p', hserve⟩, hout⟩ := hserved
      show Dual .cmd fin dead reply (sendMsgs s'.output (.stop e))
      rcases hout with hout | ⟨r, hr, hout⟩
      · rw [hout]
        exact .dead (hdead e p' hserve)
      · -- the parent dies with its answer out
        rw [hout]
        exact hreply r _ hr (.dead (hdead e p' hserve))
  · show (Duplex.Proc.sendAll c.args.1 c.args.2 reply).Waits ∨ _ ∧
      (Duplex.Proc.recvAll (requestArgs T c.cmd).1 (requestArgs T c.cmd).2 _).Waits
    rw [hargs]
    cases c.args.2 with
    | nil => exact .inl hwaits
    | cons u us => exact .inr ⟨trivial, _, _, rfl⟩

/-- **The child and its parent are made for each other**, whatever calls are made. -/
theorem calls_dual (calls : List (Call × PrivEnv)) :
    ∀ (replies : List ℤ) (p : PrivState), (∀ fd env, (.chownUpload fd, env) ∈ calls → T.chownUploads = true) →
    (∀ rs p', runCalls T calls p = .ok rs p' → fin (.done (replies ++ rs)) (parentProc T [] p')) →
    (∀ e p', runCalls T calls p = .error e p' → dead e) →
    Dual .cmd fin dead (childRun (calls.map (·.1)) replies) (parentProc T (calls.map (·.2)) p) := by
  induction calls with
  | nil =>
    intro replies p _ hfin _
    have hend := hfin [] p rfl
    rw [List.append_nil] at hend
    exact .stop hend ⟨_, rfl⟩
  | cons call calls ih =>
    intro replies p hchown hfin hdead
    obtain ⟨c, env⟩ := call
    refine .rest (Call.dual c ?_ ?_ ?_) ⟨_, rfl⟩
    · rintro fd rfl
      exact hchown fd env (List.mem_cons_self ..)
    · intro r p' hserve
      apply ih
      · exact fun fd env hmem => hchown fd env (List.mem_cons_of_mem _ hmem)
      · intro rs p'' hrest
        rw [List.append_assoc]
        exact hfin (r :: rs) p'' ((run_bind_ok hserve).trans (run_bind_ok hrest))
      · intro e p'' hrest
        exact hdead e p'' ((run_bind_ok hserve).trans (run_bind_error hrest))
    · intro e p' hserve
      exact hdead e p' (run_bind_error hserve)

/-! ### The calls that a session makes -/

theorem Call.Fits.congr {c : Call} {p q : PrivState} (h : c.Fits T p) (hsess : q.sess = p.sess) : c.Fits T q := by
  unfold Call.Fits at *
  rw [hsess]
  exact h

/-- Handing a descriptor over leaves the session as it is. -/
theorem Call.handOver_inStep {env : PrivEnv} (r : ℤ) (c : Call) :
    Within SameSess Halt.InStep (c.handOver env r) := by
  have hclose : ∀ e, Within SameSess Halt.InStep (vsfSysutilClose env e) := fun e =>
    within_bind (within_modify fun _ => rfl) fun _ =>
      within_ite (within_pure ()) (within_throw (inStep_die (by decide)))
  have hsend : Within SameSess Halt.InStep (do
      let p ← get
      PrivM.emit (.sendFd r.toNat (p.socks.lookup r.toNat))
      vsfSysutilClose env (.close r.toNat)) :=
    within_bind within_get fun _ => within_bind (within_modify fun _ => rfl) fun _ => hclose _
  cases c with
  | getPrivDataSock port => exact within_ite (within_pure ()) hsend
  | getPasvFd => exact within_ite (within_pure ()) hsend
  | chownUpload fd => exact hclose _
  | pasvCleanup => exact within_pure ()
  | pasvActive => exact within_pure ()
  | listen => exact within_pure ()

/-- **A parent that is asked what fits does not die out of step.** -/
theorem Asked.runCalls_inStep {p p' : PrivState} {calls : List (Call × PrivEnv)} (h : Asked T p calls p') :
    ∀ q, q.sess = p.sess → wp (runCalls T calls) (fun _ _ => True) (fun e _ => e.InStep) q := by
  induction h with
  | nil => exact fun q _ => trivial
  | @cons c env p calls p' hfits _ ih =>
    intro q hsess
    have halike : SameEnd (c.op T env p) (c.op T env q) := c.op_alike p q hsess
    have hstep : wp (c.op T env) (fun _ _ => True) (fun e _ => e.InStep) q := (hfits.congr hsess).inStep
    have hrest : ∀ r q1, q1.sess = (after (c.op T env) p).sess →
        wp (do c.handOver env r; pure r) (fun r q2 => wp (do
          let rs ← runCalls T calls
          pure (r :: rs)) (fun _ _ => True) (fun e _ => e.InStep) q2) (fun e _ => e.InStep) q1 := by
      intro r q1 hq1
      rw [wp_bind]
      refine wp_mono (c.handOver_inStep r q1) ?_ (fun _ _ he => he.1)
      intro _ q2 hq2
      rw [wp_pure, wp_bind]
      exact ih q2 (Eq.trans hq2 hq1)
    unfold runCalls Call.serve
    rw [wp_bind, wp_bind]
    apply wp_of_run
    · intro r q1 hq
      apply hrest
      cases hp : c.op T env p with
      | ok r' p1 =>
        rw [hp, hq] at halike
        rw [after, hp]
        exact halike.2
      | error e p1 =>
        rw [hp, hq] at halike
        exact halike.elim
    · intro e q1 hq
      unfold wp at hstep
      rw [hq] at hstep
      exact hstep

end

/-! ### Whatever the order of the steps -/

/-- The two processes with the calls ahead of them. -/
def startPair (T : Tunables) (calls : List (Call × PrivEnv)) (p : PrivState) :
    Pair PrivKind PrivUnit ChildEnd Halt :=
  ⟨childRun (calls.map (·.1)) [], parentProc T (calls.map (·.2)) p, [], []⟩

/-- What holds of the two and of the socket pair all along. -/
structure Lockstep (T : Tunables) (calls : List (Call × PrivEnv)) (p : PrivState)
    (s : Pair PrivKind PrivUnit ChildEnd Halt) : Prop where
  /-- units are under way in one direction at most -/
  oneWay : s.toServer = [] ∨ s.toClient = []
  /-- what is read next is what the reader waits for -/
  childReads : ∀ kind next x rest, s.client = .recv kind next → s.toClient = x :: rest → x.1 = kind
  parentReads : ∀ kind next x rest, s.server = .recv kind next → s.toServer = x :: rest → x.1 = kind
  /-- between two requests nothing is under way, and the parent waits for the next one -/
  between : ¬ s.client.Busy →
    s.toServer = [] ∧ s.toClient = [] ∧ (s.server.Awaits .cmd ∨ ∃ e, s.server = .stop e)
  /-- the calls return what the parent's operations do -/
  childEnds : ∀ r, s.client = .stop r →
    (∃ rs p', runCalls T calls p = .ok rs p' ∧ r = .done rs) ∨ ∃ e, s.server = .stop e
  parentEnds : ∀ e, s.server = .stop e → ∃ p', runCalls T calls p = .error e p'
  goesOn : (∀ r, s.client ≠ .stop r) → (∀ e, s.server ≠ .stop e) → ∃ s', Step s s'

theorem reachable_lockstep {T : Tunables} {calls : List (Call × PrivEnv)} {p : PrivState}
    {s : Pair PrivKind PrivUnit ChildEnd Halt}
    (hchown : ∀ fd env, (.chownUpload fd, env) ∈ calls → T.chownUploads = true)
    (hreach : Reachable (startPair T calls p) s) : Lockstep T calls p s := by
  have hdual : Dual .cmd (fun r _ => ∃ rs p', runCalls T calls p = .ok rs p' ∧ r = .done rs)
      (fun e => ∃ p', runCalls T calls p = .error e p') (childRun (calls.map (·.1)) [])
      (parentProc T (calls.map (·.2)) p) := by
    apply calls_dual calls [] p hchown
    · intro rs p' hrun
      exact ⟨rs, p', hrun, rfl⟩
    · intro e p' hrun
      exact ⟨p', hrun⟩
  have hstep := lockstep hdual hreach
  refine ⟨hstep.oneWay, ?_, ?_, ?_, ?_, ?_, hstep.progress⟩
  · exact fun kind next x rest hclient hq => hstep.client_kind hclient hq
  · exact fun kind next x rest hserver hq => hstep.server_kind hserver hq
  · intro hidle
    obtain ⟨hq, hq', hpair⟩ := hstep.idle hidle
    refine ⟨hq, hq', ?_⟩
    rcases hpair.awaits_head hidle with hhead | ⟨e, he, -⟩
    · exact .inl hhead
    · exact .inr ⟨e, he⟩
  · intro r hr
    have hidle : ¬ s.client.Busy := by
      rw [hr]
      exact id
    obtain ⟨-, -, hpair⟩ := hstep.idle hidle
    rcases hpair.ended hr with hfin | ⟨e, he, -⟩
    · exact .inl hfin
    · exact .inr ⟨e, he⟩
  · exact fun e he => hstep.server_dead he

/-- **The child and its parent stay in step.** Whatever calls a child makes, one for an
owner under `chown_uploads` only, whatever the kernel answers its parent and in whatever
order the two get to run: everything that is sent is read by the one that waits for it,
nothing is under way between two requests, and the two go on until the calls are made or
an operation of the parent has failed. The calls a session has made, whatever commands it
serves and whether it goes on or has died in the last of them, fit what the parent has at
the time, so the parent never dies of a request that it does not know or that does not go
with its listener. -/
theorem child_and_parent_in_step (T : Tunables) :
    (∀ (calls : List (Call × PrivEnv)) (p : PrivState) (s : Pair PrivKind PrivUnit ChildEnd Halt),
      (∀ fd env, (.chownUpload fd, env) ∈ calls → T.chownUploads = true) →
      Reachable (startPair T calls p) s → Lockstep T calls p s) ∧
    ∀ (env : Env) (rounds : List (Env × CtrlLine)) (w : World),
      ∃ calls, (after (processPostLogin T env rounds) w).calls = w.calls ++ calls ∧
        Asked T w.parent calls (after (processPostLogin T env rounds) w).parent ∧
        ∀ s, Reachable (startPair T calls w.parent) s →
          Lockstep T calls w.parent s ∧ ∀ e, s.server = .stop e → e.InStep := by
  refine ⟨fun calls p s hchown hreach => reachable_lockstep hchown hreach, ?_⟩
  intro env rounds w
  have hacts : Acts T True (fun _ => True) w (after (processPostLogin T env rounds) w) :=
    wp_after (processPostLogin_any rounds w)
  obtain ⟨calls, hcalls, hasked⟩ := hacts.asked
  refine ⟨calls, hcalls, hasked, ?_⟩
  intro s hreach
  have hlock : Lockstep T calls w.parent s := reachable_lockstep hasked.chownUploads hreach
  refine ⟨hlock, ?_⟩
  intro e he
  obtain ⟨p', hrun⟩ := hlock.parentEnds e he
  have hstep := hasked.runCalls_inStep w.parent rfl
  unfold wp at hstep
  rw [hrun] at hstep
  exact hstep

/-- A child that listens and accepts. -/
def listenAccept : List (Call × PrivEnv) :=
  [(.listen, { listenFd := fun _ => 5 }), (.getPasvFd, { accept := .conn 7 (host10 1 50000) })]

/-- PASV, and a RETR whose client is of the other address family. -/
def pasvRetr : List (Env × CtrlLine) :=
  [({}, .line (text "PASV")), ({ connect := { accept := .otherFamily }, fileStat := some 1 }, .line (text "RETR x"))]

/-- Its first request is under way. PASV has a session clean up and listen, and one that
dies in the accept has asked for it. -/
theorem child_and_parent_in_step_listen :
    (∃ s, Reachable (startPair {} listenAccept loginWorld.parent) s ∧
      s.toServer = [(.cmd, (privSockPasvListen, none))] ∧ Lockstep {} listenAccept loginWorld.parent s) ∧
    (∃ p', runCalls {} listenAccept loginWorld.parent = .ok [5001, 7] p') ∧
    (∃ calls, (after (processPostLogin habServer {} pasvRetr) loginWorld).calls = loginWorld.calls ++ calls ∧
      Asked habServer loginWorld.parent calls (after (processPostLogin habServer {} pasvRetr) loginWorld).parent ∧
      ∀ s, Reachable (startPair habServer calls loginWorld.parent) s →
        Lockstep habServer calls loginWorld.parent s ∧ ∀ e, s.server = .stop e → e.InStep) ∧
    (after (processPostLogin habServer {} pasvRetr) loginWorld).calls.map (·.1) =
      [.pasvCleanup, .listen, .pasvActive, .pasvActive, .pasvActive, .getPasvFd] := by
  have hsend : ∀ r, (startPair {} listenAccept loginWorld.parent).server ≠ .stop r := by
    intro r hr
    cases hr
  have hreach : Reachable (startPair {} listenAccept loginWorld.parent) _ :=
    (Relation.ReflTransGen.refl.tail .clientRest).tail (.clientSend hsend)
  have hchown : ∀ fd env, (.chownUpload fd, env) ∈ listenAccept → ({} : Tunables).chownUploads = true := by
    intro fd env hmem
    simp [listenAccept] at hmem
  refine ⟨⟨_, hreach, rfl, (child_and_parent_in_step {}).1 _ _ _ hchown hreach⟩, ⟨_, rfl⟩, ?_, ?_⟩
  · exact (child_and_parent_in_step habServer).2 {} pasvRetr loginWorld
  · decide +kernel

end CosFtp
