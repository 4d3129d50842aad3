/-
# What a session may do, over its whole life

Two rules that hold from the login to the end, whatever commands come: a session
does to the bucket, and tells of it, only what it was granted at its login and the
settings allow (`permissions_enforced`); and a session that has been told EPSV ALL
takes no other address, apart from one that EPRT names (`epsv_all_binds`), for the
dispatch looks at the flag for PORT and PASV only.

Key definitions: `EprtAccepts`, `EpsvBound`.
Key theorems: `permissions_enforced`, `epsv_all_binds`.
-/
import CosFtp.Acts

namespace CosFtp

open Wp

section

variable {T : Tunables} {env : Env}

theorem postLoginStart_acts {A : Prop} {P : Event → Prop} (hP : ∀ e : Event, e.everyday = true → P e) :
    Within (Acts T A P) Halt.Any (postLoginStart T env) := by
  refine within_bind (within_modify fun w => ?_) fun _ => within_bind (banner_acts hP fun _ => rfl) fun _ => ?_
  · exact ⟨rfl, id, .inl rfl, ⟨[], (List.append_nil _).symm, Loggable.keep rfl⟩, .inl List.prefix_rfl, asked_none rfl rfl⟩
  · exact reply_acts hP rfl

/-- Whatever a round does. -/
theorem postLoginRound_any (w : World) (line : CtrlLine) :
    wp (postLoginRound T env line) (fun _ w' => Acts T True (fun _ => True) w w')
      (fun _ w' => Acts T True (fun _ => True) w w') w :=
  postLoginRound_lawful (fun _ _ => trivial) fun _ => trivial

/-- Runs of the loop. -/
theorem postLoginLoop_any (rounds : List (Env × CtrlLine)) : ∀ w,
    wp (postLoginLoop T rounds) (fun _ w' => Acts T True (fun _ => True) w w')
      (fun _ w' => Acts T True (fun _ => True) w w') w := by
  induction rounds with
  | nil => exact fun w => .refl w
  | cons round rounds ih =>
    intro w
    obtain ⟨env, line⟩ := round
    unfold postLoginLoop
    rw [wp_bind]
    refine wp_mono (postLoginRound_any w line) ?_ (fun _ _ h => h)
    intro _ w1 hw1
    refine wp_mono (ih w1) ?_ ?_
    · exact fun _ _ hw2 => hw1.trans hw2
    · exact fun _ _ hw2 => hw1.trans hw2

/-- Whole sessions. -/
theorem processPostLogin_any (rounds : List (Env × CtrlLine)) (w : World) :
    wp (processPostLogin T env rounds) (fun _ w' => Acts T True (fun _ => True) w w')
      (fun _ w' => Acts T True (fun _ => True) w w') w := by
  unfold processPostLogin
  rw [wp_bind]
  refine wp_mono (postLoginStart_acts (fun _ _ => trivial) w) ?_ (fun _ _ h => h.2)
  intro _ w1 hw1
  refine wp_mono (postLoginLoop_any rounds w1) ?_ ?_
  · exact fun _ _ hw2 => hw1.trans hw2
  · exact fun _ _ hw2 => hw1.trans hw2

end

/-- **Permissions are enforced over whole sessions.** Behind every run of the loop
the session has the permissions of its login, and the next command, whatever it is
and however it ends, causes only what they and the settings permit, tells nothing of
the bucket without `Global_READ`, and leaves them as they are. -/
theorem permissions_enforced (T : Tunables) (env : Env) (rounds : List (Env × CtrlLine)) (w : World) :
    wp (processPostLogin T env rounds)
      (fun _ w1 => w1.sess.grants = w.sess.grants ∧
        ∀ (env' : Env) (line : CtrlLine),
          let does := fun w2 : World => w2.sess.grants = w.sess.grants ∧
            (∃ es, w2.events = w1.events ++ es ∧ ∀ e ∈ es,
              Permitted T w1.sess (lineCommand env' line).1 (lineCommand env' line).2 e) ∧
            (w2.conn.sent <+: w1.conn.sent ∨ w1.sess.readPermission = true)
          wp (postLoginRound T env' line) (fun _ w2 => does w2) (fun _ w2 => does w2) w1)
      (fun _ _ => True) w := by
  refine wp_mono (processPostLogin_any rounds w) ?_ (fun _ _ _ => trivial)
  intro _ w1 hw1
  have hgrants : w1.sess.grants = w.sess.grants := hw1.grants
  refine ⟨hgrants, ?_⟩
  intro env' line
  have hdoes : ∀ w2, Acts T True (Permitted T w1.sess (lineCommand env' line).1 (lineCommand env' line).2) w1 w2 →
      w2.sess.grants = w.sess.grants ∧
        (∃ es, w2.events = w1.events ++ es ∧ ∀ e ∈ es,
          Permitted T w1.sess (lineCommand env' line).1 (lineCommand env' line).2 e) ∧
        (w2.conn.sent <+: w1.conn.sent ∨ w1.sess.readPermission = true) := by
    intro w2 hw2
    refine ⟨hw2.grants.trans hgrants, hw2.added loggable_permitted, hw2.sent.imp_right ?_⟩
    intro hsent
    obtain ⟨_, hread⟩ := hsent
    exact hread
  refine wp_mono (postLoginRound_acts w1 line fun _ => trivial) ?_ ?_
  · exact fun _ w2 hw2 => hdoes w2 hw2
  · exact fun _ w2 hw2 => hdoes w2 hw2

/-! ### EPSV ALL -/

/-- The argument of EPRT names an address that `handle_eprt` keeps. -/
def EprtAccepts (T : Tunables) (env : Env) (p : PrivSess) (arg : Bytes) : Prop :=
  ∃ raw port addr, parseEprtArg env.stale p.localAddr.isIpv6 arg = .ok (raw, port) ∧
    eprtSockaddr p.localAddr raw = some addr ∧
    (T.portPromiscuous = true ∨
      Sockaddr.addrEqual p.remoteAddr (addr.setPort port) = true ∧ isPortReserved port = false)

/-- The command is not an EPRT that `handle_eprt` gets and accepts. -/
def EpsvBound (T : Tunables) (env : Env) (line : CtrlLine) (w : World) : Prop :=
  ¬ ((lineCommand env line).1 = text "EPRT" ∧ T.portEnable = true ∧ cmdOk T (text "EPRT") = true ∧
    EprtAccepts T env w.own.sess (lineCommand env line).2)

/-- The address is the one from before, or there is none. -/
def PortKept (w w' : World) : Prop :=
  w'.sess.portSockaddr = w.sess.portSockaddr ∨ w'.sess.portSockaddr = none

/-- No 227 has gone out in between. -/
def NoPasvReply (w w' : World) : Prop :=
  ∃ es, w'.events = w.events ++ es ∧ ∀ msg, .reply ftpPasvok msg ∉ es

section

variable {T : Tunables} {env : Env} {w w' w'' : World}

theorem PortKept.trans (h : PortKept w w') (h' : PortKept w' w'') : PortKept w w'' := by
  rcases h' with hsame | hnone
  · rw [PortKept, hsame]
    exact h
  · exact .inr hnone

theorem NoPasvReply.trans (h : NoPasvReply w w') (h' : NoPasvReply w' w'') : NoPasvReply w w'' := by
  obtain ⟨es, hes, hno⟩ := h
  obtain ⟨es', hes', hno'⟩ := h'
  refine ⟨es ++ es', by rw [hes', hes, List.append_assoc], ?_⟩
  intro msg hmem
  rcases List.mem_append.mp hmem with hmem | hmem
  · exact hno msg hmem
  · exact hno' msg hmem

theorem dispatchCmd_eprt (s : Session) (arg : Bytes) :
    dispatchCmd T env s (text "EPRT") arg =
      if T.portEnable then handleEprt T env arg else vsfCmdioWrite T env ftpNoperm "Permission denied." := by
  simp +decide [dispatchCmd, dispatchWrite, dispatchMore, dispatchRest]

theorem dispatchCmd_epsv (hpasv : T.pasvEnable = true) (s : Session) (arg : Bytes) :
    dispatchCmd T env s (text "EPSV") arg = handlePasv T env true arg := by
  simp +decide [dispatchCmd, hpasv]

/-- An EPRT that is not accepted leaves no address. -/
theorem handleEprt_port (arg : Bytes) (hno : ¬ EprtAccepts T env w.own.sess arg) :
    wp (handleEprt T env arg) (fun _ w' => w'.sess.portSockaddr = none) (fun _ _ => True) w := by
  have hreply : ∀ (w0 : World) (code : ℕ) (msg : String), w0.sess.portSockaddr = none →
      wp (vsfCmdioWrite T env code msg) (fun _ w' => w'.sess.portSockaddr = none) (fun _ _ => True) w0 := by
    intro w0 code msg hnone
    refine wp_mono (vsfCmdioWrite_ctl code msg w0) ?_ (fun _ _ _ => trivial)
    intro _ w1 hw1
    have hport : w1.sess.portSockaddr = w0.sess.portSockaddr := congrArg Ctl.portSockaddr hw1
    exact hport.trans hnone
  unfold handleEprt
  refine wp_bind_bind (portPasvCleanup_spec env w) (fun _ w1 hctl => ?_) (fun _ _ _ => trivial)
  have hnone : w1.sess.portSockaddr = none := congrArg Ctl.portSockaddr hctl
  obtain ⟨fd, hfd⟩ := Ctl.own_setListenFd (T := T) w.ctl none
  have hown : w1.own.sess = w.own.sess.withListener fd := (congrArg Ctl.own hctl).trans hfd
  have hno1 : ¬ EprtAccepts T env w1.own.sess arg := by
    rw [hown]
    exact hno
  rw [wp_bind, wp_get]
  cases hparse : parseEprtArg env.stale w1.own.sess.localAddr.isIpv6 arg with
  | error msg => exact hreply w1 _ _ hnone
  | ok found =>
    obtain ⟨raw, port⟩ := found
    cases haddr : eprtSockaddr w1.own.sess.localAddr raw with
    | none =>
      simp only [haddr]
      trivial
    | some addr =>
      simp only [haddr]
      unfold storePortSockaddr
      rw [wp_bind, modifySess, wp_modify, wp_bind, wp_get]
      refine wp_cases (fun _ => ?_) fun hgood => ?_
      · rw [wp_bind]
        refine wp_mono (wp_true _ _) ?_ (fun _ _ _ => trivial)
        intro _ w2 _
        rfl
      · -- the address would have been kept
        exfalso
        apply hno1
        refine ⟨raw, port, addr, hparse, haddr, ?_⟩
        by_cases hpromiscuous : T.portPromiscuous = true
        · exact .inl hpromiscuous
        · right
          simpa [hpromiscuous] using hgood

/-- Behind EPSV ALL, a round that is not an accepted EPRT takes no address. -/
theorem postLoginRound_port (line : CtrlLine) (hall : w.sess.epsvAll = true) (hbound : EpsvBound T env line w) :
    wp (postLoginRound T env line) (fun _ w' => PortKept w w') (fun _ _ => True) w := by
  by_cases hcmd : (lineCommand env line).1 = text "EPRT"
  · unfold postLoginRound
    rw [wp_bind]
    refine wp_mono (readCommand_spec line w) ?_ (fun _ _ _ => trivial)
    intro r w1 hr
    obtain ⟨hctl, hline⟩ := hr
    have hr1 : r.1 = (lineCommand env line).1 := by rw [← hline]
    have hr2 : cosConvGbk2Utf env r.2 = (lineCommand env line).2 := by rw [← hline]
    have hown : w1.own.sess = w.own.sess := congrArg Ctl.own hctl
    have hport : w1.sess.portSockaddr = w.sess.portSockaddr := congrArg Ctl.portSockaddr hctl
    have hserved : wp (dispatch T env (text "EPRT") (lineCommand env line).2) (fun _ w2 => PortKept w1 w2)
        (fun _ _ => True) w1 := by
      have hreply : wp (vsfCmdioWrite T env ftpNoperm "Permission denied.") (fun _ w2 => PortKept w1 w2)
          (fun _ _ => True) w1 := by
        refine wp_mono (vsfCmdioWrite_ctl _ _ w1) ?_ (fun _ _ _ => trivial)
        exact fun _ w2 hw2 => .inl (congrArg Ctl.portSockaddr hw2)
      unfold dispatch
      rw [wp_bind, wp_get]
      refine wp_cases (fun _ => hreply) fun hok => ?_
      rw [dispatchCmd_eprt]
      refine wp_cases (fun henable => ?_) fun _ => hreply
      have hno : ¬ EprtAccepts T env w1.own.sess (lineCommand env line).2 := by
        intro haccepts
        rw [hown] at haccepts
        exact hbound ⟨hcmd, henable, by simpa using hok, haccepts⟩
      refine wp_mono (handleEprt_port _ hno) ?_ (fun _ _ _ => trivial)
      exact fun _ w2 hw2 => .inr hw2
    show wp (do dispatch T env r.1 (cosConvGbk2Utf env r.2); commandEnd T env) _ _ w1
    rw [hr1, hr2, hcmd, wp_bind]
    refine wp_mono hserved ?_ (fun _ _ _ => trivial)
    intro _ w2 hw2
    have hend : Within (Acts T False fun _ => True) Halt.Any (commandEnd T env) := commandEnd_acts fun _ _ => trivial
    refine wp_mono (hend w2) ?_ (fun _ _ _ => trivial)
    intro _ w3 hw3
    have hkept : PortKept w1 w3 := hw2.trans (hw3.port.imp_right (Or.resolve_right · id))
    rw [PortKept, hport] at hkept
    exact hkept
  · have htakes : TakesAddress w.sess (lineCommand env line).1 → False := by
      intro h
      rcases h with h | h
      · rw [hall] at h
        cases h.1
      · exact hcmd (eq_of_isCmd h)
    refine wp_mono (postLoginRound_acts w line htakes) ?_ (fun _ _ _ => trivial)
    exact fun _ w' hw' => hw'.port.imp_right (Or.resolve_right · id)

/-- Behind EPSV ALL, no round answers 227, and the flag stays. -/
theorem postLoginRound_noPasv (line : CtrlLine) (hall : w.sess.epsvAll = true) :
    wp (postLoginRound T env line) (fun _ w' => NoPasvReply w w' ∧ w'.sess.epsvAll = true)
      (fun _ w' => NoPasvReply w w') w := by
  have hno : ∀ {w'}, Acts T True (Permitted T w.sess (lineCommand env line).1 (lineCommand env line).2) w w' →
      NoPasvReply w w' := by
    intro w' hacts
    obtain ⟨es, hes, hP⟩ := hacts.added loggable_permitted
    refine ⟨es, hes, ?_⟩
    intro msg hmem
    have hfalse : w.sess.epsvAll = false := (hP _ hmem).1 rfl
    rw [hall] at hfalse
    cases hfalse
  refine wp_mono (postLoginRound_acts w line fun _ => trivial) ?_ ?_
  · exact fun _ w' hw' => ⟨hno hw', hw'.epsvAll hall⟩
  · exact fun _ w' hw' => hno hw'

/-- The loop behind EPSV ALL. -/
theorem postLoginLoop_bound (rounds : List (Env × CtrlLine)) : ∀ w : World, w.sess.epsvAll = true →
    Along T (EpsvBound T) rounds w →
    wp (postLoginLoop T rounds) (fun _ w' => PortKept w w' ∧ NoPasvReply w w')
      (fun _ w' => NoPasvReply w w') w := by
  induction rounds with
  | nil =>
    intro w _ _
    exact ⟨.inl rfl, [], by simp⟩
  | cons round rounds ih =>
    intro w hall halong
    obtain ⟨env, line⟩ := round
    obtain ⟨hbound, hrest⟩ := halong
    unfold postLoginLoop
    rw [wp_bind]
    refine wp_mono (wp_and (wp_and (postLoginRound_port line hall hbound) (postLoginRound_noPasv line hall))
      hrest) ?_ ?_
    · intro _ w1 hw1
      obtain ⟨⟨hport, hno, hall1⟩, halong1⟩ := hw1
      refine wp_mono (ih w1 hall1 halong1) ?_ ?_
      · exact fun _ w2 hw2 => ⟨hport.trans hw2.1, hno.trans hw2.2⟩
      · exact fun _ w2 hw2 => hno.trans hw2
    · exact fun _ _ h => h.1.2

/-- A command EPSV ALL that gets to `handle_pasv`, where it is acknowledged. -/
structure AsksEpsvAll (T : Tunables) (env : Env) (line : CtrlLine) : Prop where
  cmd : (lineCommand env line).1 = text "EPSV"
  arg : strUpper (lineCommand env line).2 = text "ALL"
  enabled : T.pasvEnable = true
  ok : cmdOk T (text "EPSV") = true

theorem postLoginRound_epsvAll {line : CtrlLine} (h : AsksEpsvAll T env line) (w : World) :
    wp (postLoginRound T env line) (fun _ w' => w'.sess.epsvAll = true) (fun _ _ => True) w := by
  have hkeep : ∀ {x : M Unit} (w0 : World), Within (Acts T True fun _ => True) Halt.Any x → w0.sess.epsvAll = true →
      wp x (fun _ w' => w'.sess.epsvAll = true) (fun _ _ => True) w0 := by
    intro x w0 hx hall
    refine wp_mono (hx w0) ?_ (fun _ _ _ => trivial)
    exact fun _ _ hw' => hw'.epsvAll hall
  have hpasv : ∀ w0, wp (handlePasv T env true (lineCommand env line).2) (fun _ w' => w'.sess.epsvAll = true)
      (fun _ _ => True) w0 := by
    intro w0
    have hne : (lineCommand env line).2 ≠ [] := by
      intro he
      have harg := h.arg
      rw [he] at harg
      exact absurd harg (by decide)
    unfold handlePasv
    rw [wp_bind, wp_get, if_pos ⟨rfl, hne, by simp [strEqualText, h.arg]⟩, wp_bind, modifySess, wp_modify]
    exact hkeep _ (reply_acts (fun _ _ => trivial) rfl) rfl
  unfold postLoginRound
  rw [wp_bind]
  refine wp_mono (readCommand_spec line w) ?_ (fun _ _ _ => trivial)
  intro r w1 hr
  have hr1 : r.1 = (lineCommand env line).1 := by rw [← hr.2]
  have hr2 : cosConvGbk2Utf env r.2 = (lineCommand env line).2 := by rw [← hr.2]
  show wp (do dispatch T env r.1 (cosConvGbk2Utf env r.2); commandEnd T env) _ _ w1
  rw [hr1, hr2, h.cmd, wp_bind]
  unfold dispatch
  rw [wp_bind, wp_get, if_neg (by simp [h.ok]), dispatchCmd_epsv h.enabled]
  refine wp_mono (hpasv w1) ?_ (fun _ _ _ => trivial)
  exact fun _ w2 hw2 => hkeep w2 (commandEnd_acts fun _ _ => trivial) hw2

end

/-- **EPSV ALL is binding but for EPRT.** Behind any run of the loop and an EPSV ALL
that is acknowledged, in every run of rounds none of which is an EPRT with an address
that its handler accepts: the PORT address is the one from before EPSV ALL or there is
none, and no 227 is sent, also not in a round that ends the session. -/
theorem epsv_all_binds (T : Tunables) (env env' : Env) (before rounds : List (Env × CtrlLine)) (line : CtrlLine)
    (h : AsksEpsvAll T env' line) (w : World) :
    wp (do processPostLogin T env before; postLoginRound T env' line)
      (fun _ w1 => Along T (EpsvBound T) rounds w1 →
        wp (postLoginLoop T rounds) (fun _ w2 => PortKept w1 w2 ∧ NoPasvReply w1 w2)
          (fun _ w2 => NoPasvReply w1 w2) w1)
      (fun _ _ => True) w := by
  rw [wp_bind]
  refine wp_mono (wp_true _ w) ?_ (fun _ _ _ => trivial)
  intro _ w0 _
  refine wp_mono (postLoginRound_epsvAll h w0) ?_ (fun _ _ _ => trivial)
  intro _ w1 hall halong
  exact postLoginLoop_bound rounds w1 hall halong

/-- EPSV ALL, a PASV and a PORT. -/
theorem epsv_all_binds_port :
    AsksEpsvAll habServer {} (.line (text "EPSV all")) ∧
    wp (do processPostLogin habServer {} []; postLoginRound habServer {} (.line (text "EPSV all")))
      (fun _ w1 =>
        wp (postLoginLoop habServer [({}, .line (text "PASV")), ({}, .line (text "PORT 10,0,0,1,200,0"))])
          (fun _ w2 => PortKept w1 w2 ∧ NoPasvReply w1 w2) (fun _ w2 => NoPasvReply w1 w2) w1)
      (fun _ _ => True) loginWorld := by
  have hasks : AsksEpsvAll habServer {} (.line (text "EPSV all")) := ⟨by decide, by decide, rfl, by decide⟩
  refine ⟨hasks, ?_⟩
  refine wp_mono (epsv_all_binds habServer {} {} []
    [({}, .line (text "PASV")), ({}, .line (text "PORT 10,0,0,1,200,0"))] _ hasks loginWorld) ?_ (fun _ _ _ => trivial)
  intro _ w1 hrun
  apply hrun
  refine ⟨?_, wp_mono (wp_true _ w1) (fun _ w2 _ => ⟨?_, wp_true _ w2⟩) (fun _ _ _ => trivial)⟩
  · intro heprt
    exact absurd heprt.1 (by decide)
  · intro heprt
    exact absurd heprt.1 (by decide)

/-- EPSV ALL and then EPRT: the address is taken, and the client is told so. -/
theorem eprt_after_epsv_all_accepted :
    (after (processPostLogin habServer {}
        [({}, .line (text "EPSV ALL")), ({}, .line (text "EPRT |1|10.0.0.1|51200|"))]) loginWorld).events.drop 1 =
        [.reply ftpEpsvallok (text "EPSV ALL ok."),
          .reply ftpEprtok (text "EPRT command successful. Consider using EPSV.")] ∧
      (after (processPostLogin habServer {}
        [({}, .line (text "EPSV ALL")), ({}, .line (text "EPRT |1|10.0.0.1|51200|"))]) loginWorld).sess.portSockaddr =
        some (host10 1 51200) := by
  decide +kernel

end CosFtp
