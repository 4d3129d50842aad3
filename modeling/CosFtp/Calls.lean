/-
# What a session asks its parent for

The six calls of twoprocess.c that a session makes once it is logged in, each with
what its parent does for it. Some go with the listener that the parent has at the time:
it dies of a second one, of an accept without one and of a connection beside one, and it
knows the request for an owner only under `chown_uploads`. `Call.Fits` says of a call that
it is none of these, and `Asked` that a list of calls leads from one state of the parent
to another, each fitting where it is made.

Key definitions: `Call.op`, `Call.Fits`, `Asked`.
Key theorems: `Call.Fits.inStep`, `Call.op_alike`.
-/
import CosFtp.Privops

namespace CosFtp

open Wp PrivM

/-- The calls of twoprocess.c that a session makes once it is logged in. -/
inductive Call where
  | getPrivDataSock (port : UInt16)
  | pasvCleanup
  | pasvActive
  | listen
  | getPasvFd
  | chownUpload (fd : Fd)
  deriving DecidableEq

/-- What the parent does for a call, and what the call returns; one that returns nothing
returns 0. -/
def Call.op (T : Tunables) (env : PrivEnv) : Call → PrivM ℤ
  | .getPrivDataSock port => do
    let sock ← vsfPrivopGetFtpPortSock env port none
    pure (match sock with
      | none => -1
      | some fd => fd)
  | .pasvCleanup => do
    vsfPrivopPasvCleanup env
    pure 0
  | .pasvActive => do
    let active ← vsfPrivopPasvActive
    pure (if active then 1 else 0)
  | .listen => do
    let port ← vsfPrivopPasvListen T env
    pure port.toNat
  | .getPasvFd => do
    let conn ← vsfPrivopAcceptPasv T env
    pure (match conn with
      | .error e => e
      | .ok fd => fd)
  | .chownUpload fd => do
    vsfPrivopDoFileChown env fd
    pure 0

/-- The call goes with the listener, and with the settings. -/
def Call.Fits (T : Tunables) (p : PrivState) : Call → Prop
  | .getPrivDataSock _ => p.sess.pasvListenFd = none
  | .listen => p.sess.pasvListenFd = none
  | .getPasvFd => p.sess.pasvListenFd ≠ none
  | .chownUpload _ => T.chownUploads = true
  | .pasvCleanup => True
  | .pasvActive => True

/-- The calls lead from one state of the parent to the other. -/
inductive Asked (T : Tunables) : PrivState → List (Call × PrivEnv) → PrivState → Prop
  | nil {p} : Asked T p [] p
  | cons {c env p calls p'} : c.Fits T p → Asked T (after (c.op T env) p) calls p' →
      Asked T p ((c, env) :: calls) p'

theorem Asked.append {T : Tunables} {p p' p'' : PrivState} {calls calls' : List (Call × PrivEnv)}
    (h : Asked T p calls p') (h' : Asked T p' calls' p'') : Asked T p (calls ++ calls') p'' := by
  induction h with
  | nil => exact h'
  | cons hfits _ ih => exact .cons hfits (ih h')

/-- An owner is asked for under `chown_uploads` only. -/
theorem Asked.chownUploads {T : Tunables} {p p' : PrivState} {calls : List (Call × PrivEnv)}
    (h : Asked T p calls p') (fd : Fd) (env : PrivEnv) (hmem : (.chownUpload fd, env) ∈ calls) :
    T.chownUploads = true := by
  induction h with
  | nil => cases hmem
  | cons hfits _ ih =>
    rcases List.mem_cons.mp hmem with heq | hmem
    · cases heq
      exact hfits
    · exact ih hmem

/-- Running on, with a value made of the result, comes to the same state. -/
theorem after_bind_pure {ε σ α β : Type} (x : EStateM ε σ α) (f : α → β) (s : σ) :
    after (x >>= fun a => pure (f a)) s = after x s := by
  show after (EStateM.bind x fun a => pure (f a)) s = _
  unfold after EStateM.bind
  cases x s <;> rfl

/-! ### What the parent dies of -/

/-- What the parent dies of when it is asked for what does not go with its listener, for
what is no request, or for a part of one. -/
def outOfStepTexts : List String :=
  ["listed fd already active", "listed fd not active", "listed fd is active?",
    "bad request in process_post_login_req", "priv_sock_get_cmd", "priv_sock_get_int", "recvmsg", "no passed fd"]

/-- An end for another reason. -/
def Halt.InStep (e : Halt) : Prop := ∀ msg ∈ outOfStepTexts, e ≠ .die msg

theorem inStep_die {msg : String} (h : msg ∉ outOfStepTexts) : (Halt.die msg).InStep := by
  intro msg' hmem heq
  rw [← Halt.die.inj heq] at hmem
  exact h hmem

/-- Nothing is said of the state. -/
def AnyState (_ _ : PrivState) : Prop := True

instance : Std.Refl AnyState := ⟨fun _ => trivial⟩

instance : IsTrans PrivState AnyState := ⟨fun _ _ _ _ _ => trivial⟩

section

variable {T : Tunables} {env : PrivEnv} {p : PrivState}

theorem vsfSysutilClose_inStep (e : PrivEvent) : Within AnyState Halt.InStep (vsfSysutilClose env e) :=
  within_bind (within_modify fun _ => trivial) fun _ =>
    within_ite (within_pure ()) (within_throw (inStep_die (by decide)))

theorem bindDataSock_inStep : Within AnyState Halt.InStep (bindDataSock env) := by
  refine within_ite (within_pure ()) (within_ite (within_throw (inStep_die (by decide))) ?_)
  exact within_ite (within_pure ()) (within_throw (inStep_die (by decide)))

theorem pasvListenLoop_inStep (left : ℕ) : ∀ i, Within AnyState Halt.InStep (pasvListenLoop T env left i) := by
  induction left with
  | zero => exact fun i => within_throw (inStep_die (by decide))
  | succ left ih =>
    intro i
    obtain ⟨rest, htry, hrest⟩ := pasvListenLoop_try T env left i
    rw [htry]
    refine within_bind (within_modify fun _ => trivial) fun _ => within_bind (within_modify fun _ => trivial) fun _ => ?_
    obtain ⟨-, -, rfl⟩ | ⟨call, hcall, rfl⟩ | rfl := hrest
    · exact within_pure _
    · have hcalls : ∀ call ∈ ["listen", "vsf_sysutil_bind / listen"], call ∉ outOfStepTexts := by decide
      exact within_throw (inStep_die (hcalls call hcall))
    · exact within_bind (vsfSysutilClose_inStep _) fun _ => within_bind (within_modify fun _ => trivial) fun _ => ih _

/-- A connection from a parent that does not listen. -/
theorem vsfPrivopGetFtpPortSock_inStep (h : p.sess.pasvListenFd = none) (port : UInt16) :
    wp (vsfPrivopGetFtpPortSock env port none) (fun _ _ => True) (fun e _ => e.InStep) p := by
  have hrest : ∀ addr : Sockaddr, Within AnyState Halt.InStep (do
      PrivM.emit (.connect addr)
      if env.connect then do
        connected env.sockFd addr
        pure (some env.sockFd)
      else do
        vsfSysutilClose env (.close env.sockFd)
        pure none) := by
    intro addr
    refine within_bind (within_modify fun _ => trivial) fun _ => within_ite ?_ ?_
    · exact within_bind (within_modify fun _ => trivial) fun _ => within_pure _
    · exact within_bind (vsfSysutilClose_inStep _) fun _ => within_pure _
  unfold vsfPrivopGetFtpPortSock
  rw [wp_bind, wp_get, if_neg (not_not.mpr h)]
  refine wp_cases (fun _ => inStep_die (by decide)) fun _ => ?_
  rw [wp_bind]
  refine wp_mono (bindDataSock_inStep p) ?_ (fun _ _ he => he.1)
  intro _ p1 _
  rw [wp_bind, wp_modify]
  exact wp_mono (hrest _ _) (fun _ _ _ => trivial) fun _ _ he => he.1

/-- An accept on a listener. -/
theorem vsfPrivopAcceptPasv_inStep (h : p.sess.pasvListenFd ≠ none) :
    wp (vsfPrivopAcceptPasv T env) (fun _ _ => True) (fun e _ => e.InStep) p := by
  unfold vsfPrivopAcceptPasv
  rw [wp_bind, wp_get, if_neg h]
  cases env.accept with
  | error => trivial
  | otherFamily => exact inStep_die (by decide)
  | conn fd peer =>
    simp only [wp_bind, PrivM.emit, PrivM.connected, wp_modify]
    refine wp_cases (fun _ => ?_) fun _ => trivial
    rw [wp_bind]
    exact wp_mono (vsfSysutilClose_inStep _ _) (fun _ _ _ => trivial) fun _ _ he => he.1

theorem vsfPrivopDoFileChown_inStep (fd : Fd) : Within AnyState Halt.InStep (vsfPrivopDoFileChown env fd) := by
  refine within_bind within_get fun s => ?_
  cases env.fstat with
  | none => exact within_throw (inStep_die (by decide))
  | some st =>
    refine within_ite (within_pure ()) (within_ite (within_throw (inStep_die (by decide))) ?_)
    refine within_bind (within_modify fun _ => trivial) fun _ => ?_
    exact within_ite (within_pure ()) (within_throw (inStep_die (by decide)))

theorem vsfPrivopPasvCleanup_inStep : Within AnyState Halt.InStep (vsfPrivopPasvCleanup env) := by
  refine within_bind within_get fun s => ?_
  cases s.sess.pasvListenFd with
  | none => exact within_pure ()
  | some fd => exact within_bind (vsfSysutilClose_inStep _) fun _ => within_modify fun _ => trivial

/-- **A call that fits is answered, or the parent dies of something else.** -/
theorem Call.Fits.inStep {c : Call} (h : c.Fits T p) :
    wp (c.op T env) (fun _ _ => True) (fun e _ => e.InStep) p := by
  unfold Call.op
  cases c with
  | getPrivDataSock port =>
    rw [wp_bind]
    exact vsfPrivopGetFtpPortSock_inStep h port
  | pasvCleanup =>
    rw [wp_bind]
    exact wp_mono (vsfPrivopPasvCleanup_inStep p) (fun _ _ _ => trivial) fun _ _ he => he.1
  | pasvActive => trivial
  | listen =>
    have hnone : p.sess.pasvListenFd = none := h
    unfold vsfPrivopPasvListen
    rw [wp_bind, wp_bind, wp_get, if_neg (not_not.mpr hnone)]
    exact wp_mono (pasvListenLoop_inStep 9 0 p) (fun _ _ _ => trivial) fun _ _ he => he.1
  | getPasvFd =>
    rw [wp_bind]
    exact vsfPrivopAcceptPasv_inStep h
  | chownUpload fd =>
    rw [wp_bind]
    exact wp_mono (vsfPrivopDoFileChown_inStep fd p) (fun _ _ _ => trivial) fun _ _ he => he.1

end

/-! ### What an operation looks at

The operations read the session and nothing else of the state, so what a parent does
depends on its session only. -/

/-- The same result, and the same session. -/
def SameEnd {α : Type} : EStateM.Result Halt PrivState α → EStateM.Result Halt PrivState α → Prop
  | .ok a p, .ok b q => b = a ∧ q.sess = p.sess
  | .error e p, .error e' q => e' = e ∧ q.sess = p.sess
  | _, _ => False

/-- Run from states with the same session the two come to the same. -/
def Alike {α : Type} (x y : PrivM α) : Prop := ∀ p q, q.sess = p.sess → SameEnd (x p) (y q)

section

variable {T : Tunables} {env : PrivEnv} {α β : Type}

theorem alike_pure (a : α) : Alike (pure a) (pure a) := fun _ _ h => ⟨rfl, h⟩

theorem alike_throw (e : Halt) : Alike (throw e : PrivM α) (throw e) := fun _ _ h => ⟨rfl, h⟩

theorem alike_modify {f : PrivState → PrivState} (hf : ∀ p q, q.sess = p.sess → (f q).sess = (f p).sess) :
    Alike (modify f) (modify f) := fun p q h => ⟨rfl, hf p q h⟩

theorem alike_bind {x y : PrivM α} {f g : α → PrivM β} (hx : Alike x y) (hf : ∀ a, Alike (f a) (g a)) :
    Alike (x >>= f) (y >>= g) := by
  intro p q h
  have hend := hx p q h
  show SameEnd (EStateM.bind x f p) (EStateM.bind y g q)
  unfold EStateM.bind
  cases hxp : x p with
  | ok a p1 =>
    cases hyq : y q with
    | ok b q1 =>
      rw [hxp, hyq] at hend
      obtain ⟨rfl, hq1⟩ := hend
      exact hf b p1 q1 hq1
    | error e q1 =>
      rw [hxp, hyq] at hend
      exact hend.elim
  | error e p1 =>
    cases hyq : y q with
    | ok b q1 =>
      rw [hxp, hyq] at hend
      exact hend.elim
    | error e' q1 =>
      rw [hxp, hyq] at hend
      exact hend

/-- What is done with the state looks at the session only. -/
theorem alike_get {f g : PrivState → PrivM α} (h : ∀ p q, q.sess = p.sess → Alike (f p) (g q)) :
    Alike (get >>= f) (get >>= g) := fun p q hpq => h p q hpq p q hpq

theorem alike_ite {c : Prop} [Decidable c] {x y x' y' : PrivM α} (hx : Alike x x') (hy : Alike y y') :
    Alike (if c then x else y) (if c then x' else y') := by
  split
  · exact hx
  · exact hy

theorem emit_alike (e : PrivEvent) : Alike (PrivM.emit e) (PrivM.emit e) := alike_modify fun _ _ h => h

theorem setListenFd_alike (fd : Option Fd) : Alike (setListenFd fd) (setListenFd fd) := by
  apply alike_modify
  intro p q h
  simp only [h]

theorem vsfSysutilClose_alike (e : PrivEvent) : Alike (vsfSysutilClose env e) (vsfSysutilClose env e) :=
  alike_bind (emit_alike e) fun _ => alike_ite (alike_pure ()) (alike_throw _)

theorem bindDataSock_alike : Alike (bindDataSock env) (bindDataSock env) :=
  alike_ite (alike_pure ()) (alike_ite (alike_throw _) (alike_ite (alike_pure ()) (alike_throw _)))

theorem vsfPrivopGetFtpPortSock_alike (port : UInt16) :
    Alike (vsfPrivopGetFtpPortSock env port none) (vsfPrivopGetFtpPortSock env port none) := by
  unfold vsfPrivopGetFtpPortSock
  apply alike_get
  intro p q h
  rw [h]
  refine alike_ite (alike_throw _) (alike_ite (alike_throw _) (alike_bind bindDataSock_alike fun _ => ?_))
  refine alike_bind (alike_modify fun p q h => by simp only [h]) fun _ => alike_bind (alike_pure _) fun _ => ?_
  refine alike_bind (emit_alike _) fun _ => alike_ite ?_ ?_
  · exact alike_bind (alike_modify fun _ _ h => h) fun _ => alike_pure _
  · exact alike_bind (vsfSysutilClose_alike _) fun _ => alike_pure _

theorem vsfPrivopPasvCleanup_alike : Alike (vsfPrivopPasvCleanup env) (vsfPrivopPasvCleanup env) := by
  apply alike_get
  intro p q h
  rw [h]
  cases p.sess.pasvListenFd with
  | none => exact alike_pure ()
  | some fd => exact alike_bind (vsfSysutilClose_alike _) fun _ => setListenFd_alike none

theorem pasvListenLoop_alike (left : ℕ) : ∀ i, Alike (pasvListenLoop T env left i) (pasvListenLoop T env left i) := by
  induction left with
  | zero => exact fun i => alike_throw _
  | succ left ih =>
    intro i
    obtain ⟨rest, htry, hrest⟩ := pasvListenLoop_try T env left i
    rw [htry]
    refine alike_bind (emit_alike _) fun _ => alike_bind (setListenFd_alike _) fun _ => ?_
    obtain ⟨-, -, rfl⟩ | ⟨call, -, rfl⟩ | rfl := hrest
    · exact alike_pure _
    · exact alike_throw _
    · exact alike_bind (vsfSysutilClose_alike _) fun _ => alike_bind (setListenFd_alike none) fun _ => ih (i + 1)

theorem vsfPrivopPasvListen_alike : Alike (vsfPrivopPasvListen T env) (vsfPrivopPasvListen T env) := by
  apply alike_get
  intro p q h
  rw [h]
  exact alike_ite (alike_throw _) (pasvListenLoop_alike 9 0)

theorem vsfPrivopAcceptPasv_alike : Alike (vsfPrivopAcceptPasv T env) (vsfPrivopAcceptPasv T env) := by
  unfold vsfPrivopAcceptPasv
  apply alike_get
  intro p q h
  rw [h]
  apply alike_ite
  · exact alike_throw _
  · cases env.accept with
    | error => exact alike_pure _
    | otherFamily => exact alike_throw _
    | conn fd peer =>
      refine alike_bind (emit_alike _) fun _ => alike_bind (alike_modify fun _ _ h => h) fun _ => alike_ite ?_ ?_
      · exact alike_bind (vsfSysutilClose_alike _) fun _ => alike_pure _
      · exact alike_pure _

theorem vsfPrivopDoFileChown_alike (fd : Fd) :
    Alike (vsfPrivopDoFileChown env fd) (vsfPrivopDoFileChown env fd) := by
  apply alike_get
  intro p q h
  rw [h]
  cases env.fstat with
  | none => exact alike_throw _
  | some st =>
    refine alike_ite (alike_pure ()) (alike_ite (alike_throw _) (alike_bind (emit_alike _) fun _ => ?_))
    exact alike_ite (alike_pure ()) (alike_throw _)

theorem Call.op_alike (c : Call) : Alike (c.op T env) (c.op T env) := by
  cases c with
  | getPrivDataSock port => exact alike_bind (vsfPrivopGetFtpPortSock_alike port) fun _ => alike_pure _
  | pasvCleanup => exact alike_bind vsfPrivopPasvCleanup_alike fun _ => alike_pure _
  | pasvActive =>
    refine alike_bind (alike_get ?_) fun _ => alike_pure _
    intro p q h
    rw [h]
    exact alike_pure _
  | listen => exact alike_bind vsfPrivopPasvListen_alike fun _ => alike_pure _
  | getPasvFd => exact alike_bind vsfPrivopAcceptPasv_alike fun _ => alike_pure _
  | chownUpload fd => exact alike_bind (vsfPrivopDoFileChown_alike fd) fun _ => alike_pure _

end

end CosFtp
