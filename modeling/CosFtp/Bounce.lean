/-
# No connection to a third party

The address the data connection goes to is stored by PORT and EPRT before it is
checked. Behind each command of a session it is the control peer's, with a port
that is not reserved, or there is none, and there is none behind a PORT or EPRT
that its handler refused.

Key definitions: `Refusing`, `Unanswered`, `ReachesPort`.
Key theorems: `handlePort_refusing`, `handleEprt_refusing`, `postLoginRound_refusing`, `no_bounce`.
-/
import CosFtp.Loop

namespace CosFtp

open Wp

section

variable {T : Tunables} {env : Env} {w : World}

/-! ### What the client is told

While no data connection is open a signal answers nothing, so the replies of a
command are its handler's. -/

/-- Nothing was answered but `msg` with `code`. -/
def Answers (code : ℕ) (msg : Bytes) (w w' : World) : Prop :=
  ∃ es, w'.events = w.events ++ es ∧ ∀ code' msg', .reply code' msg' ∈ es → code' = code ∧ msg' = msg

theorem onAlarm_silent (w : World) :
    w.onAlarm.sess.dataFd = w.sess.dataFd ∧
      ∃ es, w.onAlarm.events = w.events ++ es ∧ ∀ code msg, .reply code msg ∉ es := by
  unfold World.onAlarm
  split
  · exact ⟨rfl, [], by simp⟩
  · exact ⟨rfl, [], by simp⟩
  · split
    · exact ⟨rfl, [.dataTimeout], rfl, by simp⟩
    · exact ⟨rfl, [], by simp⟩

theorem checkPendingActions_silent (hfd : w.sess.dataFd = none) :
    wp (checkPendingActions T env)
      (fun _ w' => ∃ es, w'.events = w.events ++ es ∧ ∀ code msg, .reply code msg ∉ es)
      (fun _ _ => False) w := by
  have hurg : ∀ (w1 : World) (line : CtrlLine), w1.sess.dataFd = none →
      (∃ es, w1.events = w.events ++ es ∧ ∀ code msg, .reply code msg ∉ es) →
      wp (when (T.asyncAborEnable ∧ !w.sess.controlUseSsl) (handleSigurg T env line))
        (fun _ w' => ∃ es, w'.events = w.events ++ es ∧ ∀ code msg, .reply code msg ∉ es)
        (fun _ _ => False) w1 := by
    intro w1 line hfd1 hes
    rw [wp_when]
    split
    · unfold handleSigurg
      rw [wp_bind, wp_get, wp_ite, if_pos hfd1]
      exact hes
    · exact hes
  unfold checkPendingActions
  rw [wp_bind, wp_get, wp_bind, tick, wp_modify, wp_bind, wp_when]
  by_cases halarm : (env.signals w.clock).alarm = true
  · rw [if_pos halarm, wp_modify]
    obtain ⟨hfd1, hes⟩ := onAlarm_silent { w with clock := w.clock + 1 }
    cases (env.signals w.clock).urg with
    | none => exact hes
    | some line => exact hurg _ line (hfd1.trans hfd) hes
  · rw [if_neg halarm]
    cases (env.signals w.clock).urg with
    | none => exact ⟨[], by simp⟩
    | some line => exact hurg _ line hfd ⟨[], by simp⟩

theorem vsfCmdioWrite_answers (hfd : w.sess.dataFd = none) (code : ℕ) (msg : String) :
    wp (vsfCmdioWrite T env code msg) (fun _ w' => Answers code (text msg) w w') (fun _ _ => True) w := by
  unfold vsfCmdioWrite vsfCmdioWriteStr
  rw [wp_bind, wp_writeControl]
  split
  · refine wp_mono (checkPendingActions_silent ?_) ?_ (fun _ _ he => he.elim)
    · exact (congrArg Session.dataFd (outputLogged_sess _ w)).trans hfd
    · intro _ w1 hw1
      obtain ⟨es, hes, hsilent⟩ := hw1
      obtain ⟨es₀, hes₀, hlog⟩ := outputLogged_events (T := T) (.reply code (text msg)) w
      refine ⟨es₀ ++ .reply code (text msg) :: es, ?_, ?_⟩
      · rw [hes, hes₀]
        simp only [List.append_assoc, List.singleton_append]
      intro code' msg' hmem
      rcases List.mem_append.mp hmem with hmem | hmem
      · obtain ⟨_, _, heq⟩ := hlog _ hmem
        cases heq
      rcases List.mem_cons.mp hmem with heq | hmem
      · exact ⟨(Event.reply.inj heq).1, (Event.reply.inj heq).2⟩
      · exact absurd hmem (hsilent code' msg')
  · trivial

/-- If an error was answered, no PORT address is left. -/
def Refusing (w w' : World) : Prop :=
  ∃ es, w'.events = w.events ++ es ∧
    ∀ code msg, .reply code msg ∈ es → 400 ≤ code → w'.sess.portSockaddr = none

theorem refusing_of_none (hnone : w.sess.portSockaddr = none) (hfd : w.sess.dataFd = none) (code : ℕ)
    (msg : String) :
    wp (vsfCmdioWrite T env code msg) (fun _ w' => Refusing w w') (fun _ _ => True) w := by
  refine wp_mono (wp_and (vsfCmdioWrite_answers hfd code msg) (vsfCmdioWrite_ctl code msg w)) ?_ ?_
  · intro _ w1 hw1
    obtain ⟨⟨es, hes, -⟩, hctl⟩ := hw1
    have hport : w1.sess.portSockaddr = w.sess.portSockaddr := congrArg Ctl.portSockaddr hctl
    refine ⟨es, hes, ?_⟩
    intro _ _ _ _
    rw [hport, hnone]
  · intro _ _ _
    trivial

theorem storePortSockaddr_refusing (hfd : w.sess.dataFd = none) {code : ℕ} (hcode : code < 400)
    (addr : Sockaddr) (port : UInt16) (done illegal : String) :
    wp (storePortSockaddr T env addr port code done illegal) (fun _ w' => Refusing w w')
      (fun _ _ => True) w := by
  unfold storePortSockaddr
  rw [wp_bind, modifySess, wp_modify, wp_bind, wp_get]
  set w1 : World := { w with sess := { w.sess with portSockaddr := some addr } } with hw1
  apply wp_branch
  · rw [wp_bind]
    refine wp_mono (vsfCmdioWrite_answers (w := w1) hfd ftpBadcmd illegal) ?_ (fun _ _ he => he)
    intro _ w2 hw2
    obtain ⟨es, hes, -⟩ := hw2
    exact ⟨es, hes, fun _ _ _ _ => rfl⟩
  · refine wp_mono (vsfCmdioWrite_answers (w := w1) hfd code done) ?_ (fun _ _ he => he)
    intro _ w2 hw2
    obtain ⟨es, hes, honly⟩ := hw2
    refine ⟨es, hes, ?_⟩
    intro code' msg' hmem herror
    obtain ⟨rfl, -⟩ := honly code' msg' hmem
    omega

/-! ### PORT and EPRT -/

theorem pasvCleanup_events (w : World) :
    wp (pasvCleanup T env) (fun _ w' => w'.events = w.events) (fun _ _ => True) w := by
  have hbroker : ∀ c e p, (w.setBroker T c e p).events = w.events := by
    intro c e p
    unfold World.setBroker
    split <;> rfl
  unfold pasvCleanup
  rw [wp_bind, wp_get, wp_bind, wp_onBroker]
  refine wp_mono (wp_true _ _) ?_ (fun _ _ he => he)
  intro _ p _
  exact hbroker _ _ p

/-- Both give up what was asked for before. -/
structure Cleared (w w' : World) : Prop where
  events : w'.events = w.events
  dataFd : w'.sess.dataFd = w.sess.dataFd
  port : w'.sess.portSockaddr = none

theorem cleared_of_ctl {w w' : World} (hctl : w'.ctl = w.ctl.cleared T) (hes : w'.events = w.events) :
    Cleared w w' := by
  refine ⟨hes, ?_, ?_⟩
  · have hfd : w'.ctl.dataFd = (w.ctl.setListenFd T none).dataFd := by rw [hctl]; rfl
    rw [Ctl.dataFd_setListenFd] at hfd
    exact hfd
  · have hport : w'.ctl.portSockaddr = none := by rw [hctl]; rfl
    exact hport

theorem pasvPortCleanup_cleared (env : Env) (w : World) :
    wp (do pasvCleanup T env; portCleanup) (fun _ w' => Cleared w w') (fun _ _ => True) w := by
  have hes : wp (do pasvCleanup T env; portCleanup) (fun _ w' => w'.events = w.events)
      (fun _ _ => True) w := by
    rw [wp_bind]
    refine wp_mono (pasvCleanup_events w) ?_ (fun _ _ he => he)
    exact fun _ _ hw1 => hw1
  refine wp_mono (wp_and (pasvPortCleanup_spec env w) hes) ?_ (fun _ _ he => he.2)
  intro _ w1 hw1
  exact cleared_of_ctl hw1.1 hw1.2

theorem portPasvCleanup_cleared (env : Env) (w : World) :
    wp (do portCleanup; pasvCleanup T env) (fun _ w' => Cleared w w') (fun _ _ => True) w := by
  have hes : wp (do portCleanup; pasvCleanup T env) (fun _ w' => w'.events = w.events)
      (fun _ _ => True) w := by
    rw [wp_bind, portCleanup, modifySess, wp_modify]
    exact pasvCleanup_events _
  refine wp_mono (wp_and (portPasvCleanup_spec env w) hes) ?_ (fun _ _ he => he.2)
  intro _ w1 hw1
  exact cleared_of_ctl hw1.1 hw1.2

theorem Refusing.of_cleared {w1 w2 : World} (h : Refusing w1 w2) (hw1 : Cleared w w1) : Refusing w w2 := by
  obtain ⟨es, hes, hrefusing⟩ := h
  rw [hw1.events] at hes
  exact ⟨es, hes, hrefusing⟩

theorem handlePort_refusing (hfd : w.sess.dataFd = none) (arg : Bytes) :
    wp (handlePort T env arg) (fun _ w' => Refusing w w') (fun _ _ => True) w := by
  unfold handlePort
  refine wp_bind_bind (pasvPortCleanup_cleared env w) (fun _ w1 hw1 => ?_) (fun _ _ he => he)
  have hfd1 : w1.sess.dataFd = none := hw1.dataFd.trans hfd
  cases parsePortArg arg with
  | none =>
    refine wp_mono (refusing_of_none hw1.port hfd1 _ _) ?_ (fun _ _ he => he)
    exact fun _ _ hw2 => hw2.of_cleared hw1
  | some vals =>
    rw [wp_bind, wp_get]
    refine wp_mono (storePortSockaddr_refusing hfd1 (by decide) _ _ _ _) ?_ (fun _ _ he => he)
    exact fun _ _ hw2 => hw2.of_cleared hw1

theorem handleEprt_refusing (hfd : w.sess.dataFd = none) (arg : Bytes) :
    wp (handleEprt T env arg) (fun _ w' => Refusing w w') (fun _ _ => True) w := by
  unfold handleEprt
  refine wp_bind_bind (portPasvCleanup_cleared env w) (fun _ w1 hw1 => ?_) (fun _ _ he => he)
  have hfd1 : w1.sess.dataFd = none := hw1.dataFd.trans hfd
  rw [wp_bind, wp_get]
  cases parseEprtArg env.stale w1.own.sess.localAddr.isIpv6 arg with
  | error msg =>
    refine wp_mono (refusing_of_none hw1.port hfd1 _ _) ?_ (fun _ _ he => he)
    exact fun _ _ hw2 => hw2.of_cleared hw1
  | ok found =>
    obtain ⟨raw, port⟩ := found
    cases haddr : eprtSockaddr w1.own.sess.localAddr raw with
    | none =>
      simp only [haddr]
      trivial
    | some addr =>
      simp only [haddr]
      refine wp_mono (storePortSockaddr_refusing hfd1 (by decide) _ _ _ _) ?_ (fun _ _ he => he)
      exact fun _ _ hw2 => hw2.of_cleared hw1

/-! ### The round -/

/-- Nothing was answered, and what PORT is about is as it was. -/
structure Unanswered (w w' : World) : Prop where
  events : ∃ es, w'.events = w.events ++ es ∧ ∀ code msg, .reply code msg ∉ es
  port : w'.sess.portSockaddr = w.sess.portSockaddr
  epsvAll : w'.sess.epsvAll = w.sess.epsvAll
  dataFd : w'.sess.dataFd = w.sess.dataFd

theorem Unanswered.trans {w1 w2 : World} (h : Unanswered w w1) (h' : Unanswered w1 w2) : Unanswered w w2 := by
  obtain ⟨es, hes, hno⟩ := h.events
  obtain ⟨es', hes', hno'⟩ := h'.events
  refine ⟨⟨es ++ es', by rw [hes', hes, List.append_assoc], ?_⟩, h'.port.trans h.port, h'.epsvAll.trans h.epsvAll,
    h'.dataFd.trans h.dataFd⟩
  intro code msg hmem
  exact (List.mem_append.mp hmem).elim (hno code msg) (hno' code msg)

theorem unanswered_of_events {w' : World} (hsess : w'.sess = w.sess) {es : List Event}
    (hes : w'.events = w.events ++ es) (hno : ∀ code msg, .reply code msg ∉ es) : Unanswered w w' :=
  ⟨⟨es, hes, hno⟩, by rw [hsess], by rw [hsess], by rw [hsess]⟩

theorem checkPendingActions_unanswered (hfd : w.sess.dataFd = none) :
    wp (checkPendingActions T env) (fun _ w' => Unanswered w w') (fun _ _ => True) w := by
  have htalk : wp (checkPendingActions T env) (fun _ w' => Talk (fun _ => True) w w')
      (fun e w' => e.Orderly ∧ Talk (fun _ => True) w w') w := checkPendingActions_talk (fun _ _ => trivial) w
  refine wp_mono (wp_and (checkPendingActions_silent hfd) htalk) ?_ (fun _ _ _ => trivial)
  intro _ w1 hw1
  obtain ⟨hes, ht⟩ := hw1
  exact ⟨hes, ht.sess (·.portSockaddr) fun _ => rfl, ht.sess (·.epsvAll) fun _ => rfl, ht.sess (·.dataFd) fun _ => rfl⟩

theorem interrupted_unanswered (n : ℕ) : ∀ w : World, w.sess.dataFd = none →
    wp (interrupted T env n) (fun _ w' => Unanswered w w') (fun _ _ => True) w := by
  induction n with
  | zero => exact fun w _ => unanswered_of_events rfl (List.append_nil _).symm fun _ _ => List.not_mem_nil
  | succ n ih =>
    intro w hfd
    unfold interrupted
    rw [wp_bind]
    refine wp_mono (checkPendingActions_unanswered hfd) ?_ (fun _ _ he => he)
    intro _ w1 hw1
    refine wp_mono (ih w1 (hw1.dataFd.trans hfd)) ?_ (fun _ _ he => he)
    exact fun _ _ hw2 => hw1.trans hw2

theorem vsfLogLine_unanswered (what : LogEntryType) (msg : Bytes) (w : World) :
    wp (vsfLogLine what msg) (fun _ w' => Unanswered w w') (fun _ _ => True) w := by
  refine unanswered_of_events rfl rfl ?_
  intro code msg' hmem
  cases List.mem_singleton.mp hmem

theorem vsfCmdioGetCmdAndArg_unanswered (line : CtrlLine) (w : World) :
    wp (vsfCmdioGetCmdAndArg T env line) (fun _ w' => Unanswered w w') (fun _ _ => True) w := by
  unfold vsfCmdioGetCmdAndArg
  rw [wp_bind]
  cases line with
  | closed =>
    refine wp_mono (wp_true _ w) ?_ (fun _ _ he => he)
    intro _ w1 _
    simp only [controlGetline, wp_pure, wp_bind, wp_get, wp_ite, wp_throw]
    split
    · exact vsfCmdioWriteExit_ends _ _ _ _ _
    · trivial
  | tooLong =>
    rw [show logControlEnd env .tooLong = pure () from rfl, wp_pure, wp_bind]
    exact vsfCmdioWriteExit_ends _ _ _ _ _
  | line str =>
    simp only [logControlEnd, controlGetline, wp_bind, wp_get, wp_ite, wp_pure]
    split
    · exact vsfCmdioWriteExit_ends _ _ _ _ _
    · rw [wp_when]
      split
      · exact vsfLogLine_unanswered _ _ w
      · exact unanswered_of_events rfl (List.append_nil _).symm fun _ _ => List.not_mem_nil

/-- A command that was read is not answered yet. -/
theorem readCommand_unanswered (hfd : w.sess.dataFd = none) (line : CtrlLine) :
    wp (readCommand T env line) (fun _ w' => Unanswered w w') (fun _ _ => True) w := by
  unfold readCommand vsfCmdioSetAlarm modifySess
  rw [wp_bind, wp_modify]
  set w1 : World := { w with sess := if 0 < T.idleSessionTimeout then _ else w.sess } with hw1
  have halarm : Unanswered w w1 := by
    refine ⟨⟨[], (List.append_nil _).symm, fun _ _ => List.not_mem_nil⟩, ?_, ?_, ?_⟩
    all_goals
      rw [hw1]
      dsimp only
      split <;> rfl
  rw [wp_bind, wp_get, wp_bind]
  refine wp_mono (interrupted_unanswered _ w1 (halarm.dataFd.trans hfd)) ?_ (fun _ _ he => he)
  intro _ w2 hw2
  refine wp_mono (vsfCmdioGetCmdAndArg_unanswered line w2) ?_ (fun _ _ he => he)
  exact fun _ _ hw3 => (halarm.trans hw2).trans hw3

/-- Nor is there more to say at its end, or the session ends. -/
theorem commandEnd_unanswered (w : World) :
    wp (commandEnd T env) (fun _ w' => (∃ es, w'.events = w.events ++ es ∧ ∀ code msg, .reply code msg ∉ es) ∧
      w'.sess.portSockaddr = w.sess.portSockaddr) (fun _ _ => True) w := by
  have hlog : wp (when (w.sess.logType ≠ none) (vsfLogDoLog false))
      (fun _ w' => ∃ es, w'.events = w.events ++ es ∧ ∀ code msg, .reply code msg ∉ es) (fun _ _ => True) w := by
    rw [wp_when]
    split
    · refine ⟨_, rfl, ?_⟩
      intro code msg hmem
      simp at hmem
    · exact ⟨[], (List.append_nil _).symm, fun _ _ => List.not_mem_nil⟩
  have hevents : wp (commandEnd T env)
      (fun _ w' => ∃ es, w'.events = w.events ++ es ∧ ∀ code msg, .reply code msg ∉ es) (fun _ _ => True) w := by
    unfold commandEnd
    rw [wp_bind, wp_get, wp_bind]
    refine wp_mono hlog ?_ (fun _ _ he => he)
    intro _ w1 hw1
    rw [wp_bind, wp_get, wp_when]
    split
    · exact vsfCmdioWriteExit_ends _ _ _ _ _
    · exact hw1
  refine wp_mono (wp_and hevents (commandEnd_spec w)) ?_ (fun _ _ _ => trivial)
  intro _ w' hw'
  refine ⟨hw'.1, ?_⟩
  have hport : w'.ctl.portSockaddr = w.ctl.portSockaddr := by rw [hw'.2]
  exact hport

/-- The dispatch hands the command to `handle_port` or `handle_eprt`. -/
def ReachesPort (T : Tunables) (w : World) (cmd : Bytes) : Prop :=
  T.portEnable = true ∧ cmdOk T cmd = true ∧ (cmd = text "PORT" ∧ w.sess.epsvAll = false ∨ cmd = text "EPRT")

theorem dispatch_refusing {cmd : Bytes} (hreach : ReachesPort T w cmd) (hfd : w.sess.dataFd = none) (arg : Bytes) :
    wp (dispatch T env cmd arg) (fun _ w' => Refusing w w') (fun _ _ => True) w := by
  obtain ⟨henable, hok, hcmd⟩ := hreach
  unfold dispatch
  rw [wp_bind, wp_get, hok, if_neg (by decide)]
  rcases hcmd with ⟨rfl, hepsv⟩ | rfl
  · have hport : dispatchCmd T env w.sess (text "PORT") arg = handlePort T env arg := by
      simp +decide [dispatchCmd, henable, hepsv]
    rw [hport]
    exact handlePort_refusing hfd arg
  · have heprt : dispatchCmd T env w.sess (text "EPRT") arg = handleEprt T env arg := by
      simp +decide [dispatchCmd, dispatchWrite, dispatchMore, henable]
    rw [heprt]
    exact handleEprt_refusing hfd arg

/-- **A round whose PORT or EPRT is answered with an error leaves no address**, if it comes to its handler. -/
theorem postLoginRound_refusing (hfd : w.sess.dataFd = none) {line : CtrlLine}
    (hreach : ReachesPort T w (lineCommand env line).1) :
    wp (postLoginRound T env line) (fun _ w' => Refusing w w') (fun _ _ => True) w := by
  unfold postLoginRound
  rw [wp_bind]
  refine wp_mono (wp_and (readCommand_unanswered hfd line) (readCommand_reads line w)) ?_ (fun _ _ _ => trivial)
  rintro r w1 ⟨hread, hline⟩
  obtain ⟨henable, hok, hcmd⟩ := hreach
  have hcmd1 : r.1 = (lineCommand env line).1 := by rw [← hline]
  have hreach1 : ReachesPort T w1 r.1 := by
    rw [hcmd1]
    exact ⟨henable, hok, hcmd.imp_left fun h => ⟨h.1, hread.epsvAll.trans h.2⟩⟩
  rw [wp_bind]
  refine wp_mono (dispatch_refusing hreach1 (hread.dataFd.trans hfd) _) ?_ (fun _ _ he => he)
  rintro _ w2 ⟨es, hes, hrefusing⟩
  refine wp_mono (commandEnd_unanswered w2) ?_ (fun _ _ he => he)
  rintro _ w3 ⟨⟨es', hes', hno'⟩, hport⟩
  obtain ⟨es₀, hes₀, hno₀⟩ := hread.events
  refine ⟨es₀ ++ (es ++ es'), by rw [hes', hes, hes₀]; simp only [List.append_assoc], ?_⟩
  intro code msg hmem herror
  rw [hport]
  rcases List.mem_append.mp hmem with hmem | hmem
  · exact absurd hmem (hno₀ code msg)
  rcases List.mem_append.mp hmem with hmem | hmem
  · exact hrefusing code msg hmem herror
  · exact absurd hmem (hno' code msg)

/-! ### Whole sessions -/

/-- The addresses of the session are those of its login, and the PORT address, if
there is one, may be connected to. -/
structure PeerInv (T : Tunables) (p : PrivSess) (w : World) : Prop where
  own : ∃ fd, w.own.sess = p.withListener fd
  port : ∀ addr, w.sess.portSockaddr = some addr → PeerAddr T p addr

theorem PeerInv.step {p : PrivSess} {move : Option Bytes} {w w' : World} (h : PeerInv T p w)
    (hserved : Served T move w w') : PeerInv T p w' := by
  obtain ⟨fd, hown⟩ := h.own
  obtain ⟨fd', hown'⟩ := hserved.own
  have hown : w.ctl.own = p.withListener fd := hown
  refine ⟨⟨fd', ?_⟩, ?_⟩
  · show w'.ctl.own = _
    rw [hown', hown]
    rfl
  · intro addr haddr
    rcases hserved.port with hp | hp
    · apply h.port
      have hsame : w'.sess.portSockaddr = w.sess.portSockaddr := hp
      rw [← hsame]
      exact haddr
    · have hpeer := hp addr haddr
      rw [hown] at hpeer
      exact hpeer

end

/-- **No session connects to a third party.** With `port_promiscuous` off, each
time a command is read the PORT address is the control peer's with a port of at
least 1024, or there is none; and there is none behind a PORT or EPRT that its
handler answers with an error, nor behind the round it came in. -/
theorem no_bounce (T : Tunables) (hpromiscuous : T.portPromiscuous = false) (env : Env)
    (rounds : List (Env × CtrlLine)) {w : World} (h : LoggedIn T w) :
    wp (processPostLogin T env rounds)
      (fun _ w' =>
        (∀ addr, w'.sess.portSockaddr = some addr →
          addr.ip = w.own.sess.remoteAddr.ip ∧ 1024 ≤ addr.getPort.toNat) ∧
        (∀ (env' : Env) (arg : Bytes),
          wp (handlePort T env' arg) (fun _ w'' => Refusing w' w'') (fun _ _ => True) w' ∧
          wp (handleEprt T env' arg) (fun _ w'' => Refusing w' w'') (fun _ _ => True) w') ∧
        ∀ (env' : Env) (line : CtrlLine), ReachesPort T w' (lineCommand env' line).1 →
          wp (postLoginRound T env' line) (fun _ w'' => Refusing w' w'') (fun _ _ => True) w')
      (fun e _ => e.Expected) w := by
  unfold processPostLogin
  rw [wp_bind]
  refine wp_mono (wp_and (postLoginStart_boundary h.boundary) (postLoginStart_spec w)) ?_ ?_
  swap
  · intro e _ he
    exact .inl he.1
  intro _ w1 hw1
  obtain ⟨hboundary, hctl⟩ := hw1
  have hinv : PeerInv T w.own.sess w1 := by
    have hown : w1.own.sess = w.own.sess := congrArg Ctl.own hctl
    have hport : w1.sess.portSockaddr = w.sess.portSockaddr := congrArg Ctl.portSockaddr hctl
    refine ⟨⟨w.own.sess.pasvListenFd, hown⟩, ?_⟩
    intro addr haddr
    rw [hport, h.portSockaddr] at haddr
    cases haddr
  have halong : Along T (fun _ _ _ => True) rounds w1 := along_of_forall (fun _ _ _ => trivial) rounds w1
  refine wp_mono (postLoginLoop_keeps ?_ rounds w1 hboundary hinv halong) ?_ (fun _ _ he => he)
  · intro _ _ _ _ _ hinv _ hserved
    exact hinv.step hserved
  · intro _ w2 hw2
    obtain ⟨hboundary2, hinv2⟩ := hw2
    refine ⟨fun addr haddr => hinv2.port addr haddr hpromiscuous, ?_, ?_⟩
    · intro env' arg
      exact ⟨handlePort_refusing hboundary2.dataFd arg, handleEprt_refusing hboundary2.dataFd arg⟩
    · intro env' line hreach
      exact postLoginRound_refusing hboundary2.dataFd hreach

/-- A PORT to the client, and then one to another host. -/
theorem no_bounce_third_party :
    habServer.portPromiscuous = false ∧ LoggedIn habServer loginWorld ∧
    wp (processPostLogin habServer {}
        [({}, .line (text "PORT 10,0,0,1,200,0")), ({}, .line (text "PORT 10,0,0,2,200,0"))])
      (fun _ w' =>
        (∀ addr, w'.sess.portSockaddr = some addr →
          addr.ip = loginWorld.own.sess.remoteAddr.ip ∧ 1024 ≤ addr.getPort.toNat) ∧
        (∀ (env' : Env) (arg : Bytes),
          wp (handlePort habServer env' arg) (fun _ w'' => Refusing w' w'') (fun _ _ => True) w' ∧
          wp (handleEprt habServer env' arg) (fun _ w'' => Refusing w' w'') (fun _ _ => True) w') ∧
        ∀ (env' : Env) (line : CtrlLine), ReachesPort habServer w' (lineCommand env' line).1 →
          wp (postLoginRound habServer env' line) (fun _ w'' => Refusing w' w'') (fun _ _ => True) w')
      (fun e _ => e.Expected) loginWorld := by
  have hlogin : LoggedIn habServer loginWorld := ⟨rfl, rfl, rfl, rfl, rfl⟩
  exact ⟨rfl, hlogin, no_bounce habServer rfl _ _ hlogin⟩

/-- PORT, EPSV ALL, and PORT again: the last one is answered with an error by the
loop itself, and the address of the first one stays. -/
def refusedPortRounds : List (Env × CtrlLine) :=
  [({}, .line (text "PORT 10,0,0,1,200,0")), ({}, .line (text "EPSV ALL")),
    ({}, .line (text "PORT 10,0,0,1,200,1"))]

theorem refused_port_keeps_address :
    (after (processPostLogin habServer {} refusedPortRounds) loginWorld).events.getLast? =
        some (.reply ftpNoperm (text "Permission denied.")) ∧
      (after (processPostLogin habServer {} refusedPortRounds) loginWorld).sess.portSockaddr =
        some (host10 1 51200) := by
  decide +kernel

end CosFtp
