/-
# What a command does to the outside

`Acts T A P` says of two states of a session that on the way from one to the other
only events of the kind `P` went out, that what the session was granted at its
login is as it was, that a PORT address was taken only if `A`, and that the parent was
asked only for what fits (`Asked`). It is kept by whatever a handler does in passing, so each handler has one lemma here: what it
may do, given that `P` has the ordinary events and the few of its own. Which
command may do what is then read off the dispatch.

Key definitions: `Event.ordinary`, `Acts`, `Permitted`.
Key theorems: `dispatch_acts`, `postLoginRound_acts`.
-/
import CosFtp.Calls
import CosFtp.Loop

namespace CosFtp

open Wp

/-- An event that any session may cause: an answer that tells nothing of the
bucket and is not the one to PASV, a signal, a log entry, a read from the client,
a question for a folder. -/
def Event.ordinary : Event → Bool
  | .reply code _ => code ≠ ftpPasvok ∧ code ≠ ftpSizeok
  | .hyphen code _ => code ≠ ftpStatfileOk
  | .raw _ => false
  | .cos (.folderStat _) => true
  | .cos (.folderList _) => true
  | .cos _ => false
  | .create _ => false
  | .dataRead _ => true
  | .dataWrite _ => false
  | .abor => true
  | .dataTimeout => true
  | .log _ _ _ _ => true

/-- The line of xferlog that is written for a log entry, if it is one of a transfer: whether it is
marked as complete. -/
def Event.xferlog : Event → Option Bool
  | .log .download succeeded _ _ => some succeeded
  | .log .upload succeeded _ _ => some succeeded
  | _ => none

/-- An ordinary event that is not logged as a transfer. -/
def Event.everyday (e : Event) : Bool := e.ordinary && e.xferlog.isNone

/-- What a session is granted at its login. -/
def Session.grants (s : Session) : Bool × Bool × Bool := (s.isAnonymous, s.readPermission, s.writePermission)

/-- The open log entry, if there is one, is of the kind `P`. -/
def Loggable (P : Event → Prop) (w : World) : Prop :=
  ∀ what, w.sess.logType = some what → ∀ succeeded msg view, P (.log what succeeded msg view)

/-- Events of the kind `P` only, if that includes the open log entry, a PORT address only if `A`,
and calls that fit. -/
structure Acts (T : Tunables) (A : Prop) (P : Event → Prop) (w w' : World) : Prop where
  grants : w'.sess.grants = w.sess.grants
  epsvAll : w.sess.epsvAll = true → w'.sess.epsvAll = true
  port : w'.sess.portSockaddr = w.sess.portSockaddr ∨ w'.sess.portSockaddr = none ∨ A
  events : ∃ es, w'.events = w.events ++ es ∧ (Loggable P w → Loggable P w' ∧ ∀ e ∈ es, P e)
  sent : w'.conn.sent <+: w.conn.sent ∨ ∃ r, P (.dataWrite r)
  asked : ∃ calls, w'.calls = w.calls ++ calls ∧ Asked T w.parent calls w'.parent

section

variable {T : Tunables} {A : Prop} {P : Event → Prop} {w w' w'' : World}

/-- No events, and the log entry as it was. -/
theorem Loggable.keep (h : w'.sess.logType = w.sess.logType) :
    Loggable P w → Loggable P w' ∧ ∀ e ∈ ([] : List Event), P e := by
  intro hlog
  refine ⟨?_, fun _ he => absurd he List.not_mem_nil⟩
  unfold Loggable
  rwa [h]

/-- Nothing was asked. -/
theorem asked_none (hcalls : w'.calls = w.calls) (hparent : w'.parent = w.parent) :
    ∃ calls, w'.calls = w.calls ++ calls ∧ Asked T w.parent calls w'.parent := by
  rw [hparent]
  exact ⟨[], by rw [hcalls, List.append_nil], .nil⟩

theorem Acts.refl (w : World) : Acts T A P w w :=
  ⟨rfl, id, .inl rfl, ⟨[], (List.append_nil _).symm, Loggable.keep rfl⟩, .inl List.prefix_rfl, asked_none rfl rfl⟩

theorem Acts.trans (h : Acts T A P w w') (h' : Acts T A P w' w'') : Acts T A P w w'' := by
  obtain ⟨es, hes, hP⟩ := h.events
  obtain ⟨es', hes', hP'⟩ := h'.events
  obtain ⟨calls, hcalls, hasked⟩ := h.asked
  obtain ⟨calls', hcalls', hasked'⟩ := h'.asked
  refine ⟨h'.grants.trans h.grants, h'.epsvAll ∘ h.epsvAll, ?_, ⟨es ++ es', ?_, ?_⟩, ?_,
    calls ++ calls', by rw [hcalls', hcalls, List.append_assoc], hasked.append hasked'⟩
  · rcases h'.port with hsame | hother
    · rw [hsame]
      exact h.port
    · exact .inr hother
  · rw [hes', hes, List.append_assoc]
  · intro hlog
    obtain ⟨hlog', hall⟩ := hP hlog
    obtain ⟨hlog'', hall'⟩ := hP' hlog'
    exact ⟨hlog'', fun e he => (List.mem_append.mp he).elim (hall e) (hall' e)⟩
  · rcases h.sent with hsent | hwrite
    · rcases h'.sent with hsent' | hwrite'
      · exact .inl (hsent'.trans hsent)
      · exact .inr hwrite'
    · exact .inr hwrite

theorem loggable_of_none (h : w.sess.logType = none) : Loggable P w := by
  intro what hwhat
  rw [h] at hwhat
  cases hwhat

theorem loggable_of_forall (h : ∀ what succeeded msg view, P (.log what succeeded msg view)) : Loggable P w :=
  fun what _ => h what

/-- The events that were added. -/
theorem Acts.added (h : Acts T A P w w') (hlog : Loggable P w) : ∃ es, w'.events = w.events ++ es ∧ ∀ e ∈ es, P e := by
  obtain ⟨es, hes, hP⟩ := h.events
  exact ⟨es, hes, (hP hlog).2⟩

/-- What comes behind. -/
theorem Acts.wp_trans {α : Type} {x : M α} (h : Acts T A P w w')
    (hx : wp x (fun _ w'' => Acts T A P w' w'') (fun e w'' => e.Any ∧ Acts T A P w' w'') w') :
    wp x (fun _ w'' => Acts T A P w w'') (fun e w'' => e.Any ∧ Acts T A P w w'') w' := by
  refine wp_mono hx ?_ ?_
  · exact fun _ _ h' => h.trans h'
  · exact fun _ _ h' => ⟨h'.1, h.trans h'.2⟩

instance : Std.Refl (Acts T A P) := ⟨Acts.refl⟩

instance : IsTrans World (Acts T A P) := ⟨fun _ _ _ => Acts.trans⟩

end

/-! ### The small steps -/

section

variable {T : Tunables} {env : Env} {α : Type} {A : Prop} {P : Event → Prop}
  (hP : ∀ e : Event, e.everyday = true → P e)

theorem SignalReply.everyday {e : Event} (h : SignalReply e) : e.everyday = true := by
  cases h <;> rfl

theorem Talk.acts {w w' : World} (h : Talk P w w') : Acts T A P w w' := by
  obtain ⟨es, hes, hev, _⟩ := h.events
  have hsame : w'.sess.logType = w.sess.logType := h.sess (·.logType) fun _ => rfl
  refine ⟨h.sess Session.grants fun _ => rfl, ?_, .inl (h.sess (·.portSockaddr) fun _ => rfl),
    ⟨es, hes, fun hlog => ⟨(Loggable.keep hsame hlog).1, hev⟩⟩, .inl ?_, asked_none h.calls h.parent⟩
  · intro hall
    exact (h.sess (·.epsvAll) fun _ => rfl).trans hall
  · exact ⟨[], by rw [List.append_nil, h.conn]⟩

theorem acts_of_talk {x : M α} (h : Within (Talk P) Halt.Orderly x) : Within (Acts T A P) Halt.Any x := by
  intro w
  refine wp_mono (h w) ?_ ?_
  · intro _ w' hw'
    exact hw'.acts
  · intro _ w' hw'
    exact ⟨trivial, hw'.2.acts⟩

/-- A change of the world outside of what `Acts` looks at. -/
theorem Acts.of_eq {w w' : World} (hsess : w'.sess = w.sess) (hevents : w'.events = w.events)
    (hconn : w'.conn.sent = w.conn.sent) (hparent : w'.parent = w.parent) (hcalls : w'.calls = w.calls) :
    Acts T A P w w' := by
  refine ⟨?_, ?_, .inl ?_, ⟨[], ?_, Loggable.keep ?_⟩, .inl ?_, asked_none hcalls hparent⟩
  · rw [hsess]
  · rw [hsess]
    exact id
  · rw [hsess]
  · rw [hevents, List.append_nil]
  · rw [hsess]
  · exact ⟨[], by rw [List.append_nil, hconn]⟩

/-- What the session does by itself. -/
theorem onOwn_acts (x : PrivM α) :
    Within (Acts T A P) Halt.Any (zoom (·.own) (fun p w => { w with own := p }) x) :=
  within_zoom (fun _ => trivial) (fun _ _ => .of_eq rfl rfl rfl rfl rfl) x

/-- What the parent does for a call that fits. -/
theorem onParent_acts {x : PrivM α} {c : Call} {e : PrivEnv} {f : α → ℤ} {w : World}
    (hop : c.op T e = x >>= fun a => pure (f a)) (hfits : c.Fits T w.parent) :
    wp (onParent c e x) (fun _ w' => Acts T A P w w') (fun e w' => e.Any ∧ Acts T A P w w') w := by
  have hparent : Acts T A P w { w with parent := after x w.parent, calls := w.calls ++ [(c, e)] } := by
    refine ⟨rfl, id, .inl rfl, ⟨[], (List.append_nil _).symm, Loggable.keep rfl⟩, .inl List.prefix_rfl,
      [(c, e)], rfl, .cons hfits ?_⟩
    rw [hop, after_bind_pure]
    exact .nil
  rw [onParent, wp_zoom]
  apply wp_of_run
  · intro a p hp
    simpa only [after, hp] using hparent
  · intro e p hp
    refine ⟨trivial, ?_⟩
    simpa only [after, hp] using hparent

theorem onBroker_acts {x : PrivM α} {c : Call} {e : PrivEnv} {f : α → ℤ} {w : World}
    (hop : c.op T e = x >>= fun a => pure (f a)) (hfits : c.Fits T (w.broker T)) :
    wp (onBroker T c e x) (fun _ w' => Acts T A P w w') (fun e w' => e.Any ∧ Acts T A P w w') w := by
  refine wp_cases (fun _ => onOwn_acts x w) fun htwo => ?_
  rw [World.broker, if_neg htwo] at hfits
  exact onParent_acts hop hfits

theorem modifySess_acts {f : Session → Session}
    (hgrants : ∀ s, (f s).grants = s.grants ∧ (f s).logType = s.logType)
    (hall : ∀ s, s.epsvAll = true → (f s).epsvAll = true)
    (hport : ∀ s, (f s).portSockaddr = s.portSockaddr ∨ (f s).portSockaddr = none ∨ A) :
    Within (Acts T A P) Halt.Any (modifySess f) := fun _ =>
  ⟨(hgrants _).1, hall _, hport _, ⟨[], (List.append_nil _).symm, Loggable.keep (hgrants _).2⟩, .inl List.prefix_rfl,
    asked_none rfl rfl⟩

theorem emit_acts {e : Event} (he : P e) : Within (Acts T A P) Halt.Any (emit e) := by
  intro w
  refine ⟨rfl, id, .inl rfl, ⟨[e], rfl, fun hlog => ⟨hlog, ?_⟩⟩, .inl List.prefix_rfl, asked_none rfl rfl⟩
  intro e' he'
  rw [List.mem_singleton.mp he']
  exact he

theorem tick_acts : Within (Acts T A P) Halt.Any tick := acts_of_talk tick_talk

include hP

theorem vsfLogDebug_acts (msgs : List Bytes) : Within (Acts T A P) Halt.Any (vsfLogDebug msgs) :=
  acts_of_talk (vsfLogDebug_talk (fun e he => hP e he.everyday) msgs)

theorem checkPendingActions_acts : Within (Acts T A P) Halt.Any (checkPendingActions T env) :=
  acts_of_talk (checkPendingActions_talk fun e he => hP e he.everyday)

theorem interrupted_acts (n : ℕ) : Within (Acts T A P) Halt.Any (interrupted T env n) :=
  acts_of_talk (interrupted_talk (fun e he => hP e he.everyday) n)

theorem checkPendingIo_acts (result : ℤ) : Within (Acts T A P) Halt.Any (checkPendingIo T env result) :=
  acts_of_talk (checkPendingIo_talk (fun e he => hP e he.everyday) result)

theorem writeControl_acts {e : Event} (he : P e) : Within (Acts T A P) Halt.Any (writeControl T env e) := by
  refine within_bind (within_when (within_bind within_get fun _ => emit_acts (hP _ rfl))) fun _ => ?_
  exact within_bind within_get fun _ => within_ite (emit_acts he) (within_throw trivial)

theorem writeExit_acts {code status : ℕ} {msg : String} (he : P (.reply code (text msg))) :
    Within (Acts T A P) Halt.Any (vsfCmdioWriteExit T env code msg status : M α) :=
  within_bind (writeControl_acts hP he) fun _ => within_throw trivial

theorem writeStr_acts {code : ℕ} {msg : Bytes} (he : P (.reply code msg)) :
    Within (Acts T A P) Halt.Any (vsfCmdioWriteStr T env code msg) :=
  within_bind (writeControl_acts hP he) fun _ => checkPendingActions_acts hP

/-- An answer of an ordinary kind. -/
theorem reply_acts {code : ℕ} {msg : String} (he : (Event.reply code (text msg)).everyday = true) :
    Within (Acts T A P) Halt.Any (vsfCmdioWrite T env code msg) := writeStr_acts hP (hP _ he)

theorem hyphen_acts {code : ℕ} {msg : Bytes} (he : P (.hyphen code msg)) :
    Within (Acts T A P) Halt.Any (vsfCmdioWriteStrHyphen T env code msg) :=
  within_bind (writeControl_acts hP he) fun _ => checkPendingActions_acts hP

theorem raw_acts {msg : Bytes} (he : P (.raw (cstr msg))) :
    Within (Acts T A P) Halt.Any (vsfCmdioWriteRaw T env msg) := by
  refine within_bind within_get fun _ => within_ite (within_throw trivial) ?_
  exact within_bind (writeControl_acts hP he) fun _ => checkPendingActions_acts hP

omit hP in
theorem vsfLogStartEntry_acts {what : LogEntryType} (hwhat : ∀ succeeded msg view, P (.log what succeeded msg view)) :
    Within (Acts T A P) Halt.Any (vsfLogStartEntry what) := by
  refine within_bind within_get fun _ => within_ite (within_throw trivial) ?_
  intro w
  refine ⟨rfl, id, .inl rfl, ⟨[], (List.append_nil _).symm, fun _ => ⟨?_, ?_⟩⟩, .inl List.prefix_rfl, asked_none rfl rfl⟩
  · intro what' hsome
    rw [← Option.some.inj hsome]
    exact hwhat
  · exact fun _ he => absurd he List.not_mem_nil

omit hP in
/-- The open entry is logged, and there is none then. -/
theorem vsfLogDoLog_acts (succeeded : Bool) : Within (Acts T A P) Halt.Any (vsfLogDoLog succeeded) := by
  intro w
  refine ⟨rfl, id, .inl rfl, ⟨_, rfl, fun hlog => ⟨loggable_of_none rfl, ?_⟩⟩, .inl List.prefix_rfl, asked_none rfl rfl⟩
  intro e he
  obtain ⟨what, hwhat, rfl⟩ : ∃ what, w.sess.logType = some what ∧
      Event.log what succeeded w.sess.logStr w.sess.logView = e := by
    simpa using he
  exact hlog what hwhat _ _ _

theorem commandEnd_acts : Within (Acts T A P) Halt.Any (commandEnd T env) := by
  refine within_bind within_get fun _ => within_bind (within_when (vsfLogDoLog_acts false)) fun _ => ?_
  exact within_bind within_get fun _ => within_when (writeExit_acts hP (hP _ rfl))

omit hP in
theorem prependPath_acts (p : Bytes) : Within (Acts T A P) Halt.Any (prependPath T p) :=
  within_bind within_get fun _ => within_pure _

omit hP in
theorem checkFile_acts (p : Bytes) : Within (Acts T A P) Halt.Any (checkFile T p) :=
  within_bind within_get fun _ => within_pure _

omit hP in
theorem resolveTildeArg_acts (p : Bytes) : Within (Acts T A P) Halt.Any (resolveTildeArg T env p) :=
  within_bind within_get fun _ => within_pure _

/-! ### The data connection -/

omit hP in
theorem pasvActive_ask_acts : Within (Acts T A P) Halt.Any (onBroker T .pasvActive {} vsfPrivopPasvActive) :=
  fun _ => onBroker_acts rfl trivial

omit hP in
/-- The two questions are asked and change nothing else, and the second is for the listener. -/
theorem active_spec : ∀ (n : ℕ) (w : World),
    wp (portActive T n) (fun _ w' => OnlyCalls w w') (fun _ _ => True) w ∧
      wp (pasvActive T n) (fun pasv w' => OnlyCalls w w' ∧ pasv = (w.broker T).sess.pasvListenFd.isSome)
        (fun _ _ => True) w
  | 0, w => ⟨by unfold portActive; trivial, by unfold pasvActive; trivial⟩
  | n + 1, w => by
    constructor
    · have hself : OnlyCalls w w := Std.Refl.refl w
      unfold portActive
      rw [wp_bind, wp_get]
      refine wp_cases (fun _ => hself) fun _ => ?_
      rw [wp_bind]
      refine wp_mono (active_spec n w).2 ?_ (fun _ _ he => he)
      rintro pasv w' ⟨hw', -⟩
      exact wp_branch trivial hw'
    · have hask : OnlyCalls w (w.setBroker T .pasvActive {} (w.broker T)) := onlyCalls_setBroker _ _
      unfold pasvActive
      rw [wp_bind, askPasvActive_spec]
      refine wp_cases (fun hnone => ⟨hask, by simpa using hnone⟩) fun hsome => ?_
      rw [wp_bind]
      refine wp_mono (active_spec n _).1 ?_ (fun _ _ he => he)
      intro port w' hw'
      refine wp_branch trivial ⟨IsTrans.trans _ _ _ hask hw', ?_⟩
      rw [Bool.not_eq_true', Bool.not_eq_false] at hsome
      exact hsome.symm

omit hP in
theorem portOrPasvActive_acts : Within (Acts T A P) Halt.Any (portOrPasvActive T) :=
  portOrPasvActive_within pasvActive_ask_acts

omit hP in
theorem portCleanup_acts : Within (Acts T A P) Halt.Any portCleanup :=
  modifySess_acts (fun _ => ⟨rfl, rfl⟩) (fun _ => id) (fun _ => .inr (.inl rfl))

omit hP in
theorem pasvCleanup_acts : Within (Acts T A P) Halt.Any (pasvCleanup T env) :=
  within_bind within_get fun _ => within_bind (fun _ => onBroker_acts rfl trivial) fun _ => tick_acts

omit hP in
theorem transferCleanup_acts : Within (Acts T A P) Halt.Any (transferCleanup T env) :=
  within_bind portCleanup_acts fun _ => pasvCleanup_acts

theorem dataTransferChecksOk_acts : Within (Acts T A P) Halt.Any (dataTransferChecksOk T env) := by
  refine within_bind portOrPasvActive_acts fun active => within_ite ?_ ?_
  · exact within_bind (reply_acts hP rfl) fun _ => within_pure _
  · refine within_bind within_get fun w => within_ite ?_ (within_pure _)
    exact within_bind (reply_acts hP rfl) fun _ => within_pure _

omit hP in
theorem startDataAlarm_acts : Within (Acts T A P) Halt.Any (startDataAlarm T) := by
  unfold startDataAlarm
  refine modifySess_acts ?_ ?_ ?_ <;> intro s <;> split
  all_goals first
    | exact ⟨rfl, rfl⟩
    | exact id
    | exact .inl rfl
    | (split <;> first | exact ⟨rfl, rfl⟩ | exact id | exact .inl rfl)

omit hP in
theorem initDataSockParams_acts (fd : Fd) : Within (Acts T A P) Halt.Any (initDataSockParams T env fd) := by
  have hio : Within (Acts T A P) Halt.Any vsfSysutilInstallIoHandler := by
    refine within_bind within_get fun _ => within_ite (within_throw trivial) ?_
    exact modifySess_acts (fun _ => ⟨rfl, rfl⟩) (fun _ => id) (fun _ => .inl rfl)
  refine within_bind within_get fun _ => within_ite (within_throw trivial) (within_bind ?_ fun _ => ?_)
  · exact modifySess_acts (fun _ => ⟨rfl, rfl⟩) (fun _ => id) (fun _ => .inl rfl)
  · refine within_ite (within_throw trivial) (within_bind hio fun _ => within_bind startDataAlarm_acts fun _ => ?_)
    -- a new connection, over which nothing has gone yet
    exact fun w => ⟨rfl, id, .inl rfl, ⟨[], (List.append_nil _).symm, Loggable.keep rfl⟩, .inl List.nil_prefix, asked_none rfl rfl⟩

/-- A listener is there to accept on. -/
theorem vsfFtpdataioGetPasvFd_acts {w : World} (hlisten : (w.broker T).sess.pasvListenFd ≠ none) :
    wp (vsfFtpdataioGetPasvFd T env) (fun _ w' => Acts T A P w w') (fun e w' => e.Any ∧ Acts T A P w w') w := by
  unfold vsfFtpdataioGetPasvFd getPasvFd
  rw [wp_bind, wp_bind]
  refine wp_mono (onBroker_acts (P := P) rfl hlisten) ?_ (fun _ _ he => he)
  intro conn w1 hw1
  rw [wp_bind]
  refine wp_mono (hw1.wp_trans (checkPendingActions_acts hP w1)) ?_ (fun _ _ he => he)
  intro _ w2 hw2
  refine hw2.wp_trans ?_
  cases conn with
  | error e => exact within_bind (reply_acts hP rfl) (fun _ => within_pure _) w2
  | ok fd => exact within_bind (initDataSockParams_acts fd) (fun _ => within_pure _) w2

/-- No listener stands in the way of a connection. -/
theorem vsfFtpdataioGetPortFd_acts {w : World} (hlisten : (w.broker T).sess.pasvListenFd = none) :
    wp (vsfFtpdataioGetPortFd T env) (fun _ w' => Acts T A P w w') (fun e w' => e.Any ∧ Acts T A P w w') w := by
  have hconnect : wp (connectDataSock T env) (fun _ w' => Acts T A P w w')
      (fun e w' => e.Any ∧ Acts T A P w w') w := by
    unfold connectDataSock
    rw [wp_bind, wp_get]
    cases w.sess.portSockaddr with
    | none => exact ⟨trivial, .refl w⟩
    | some addr =>
      refine wp_cases (fun _ => onOwn_acts _ w) fun htwo => ?_
      rw [World.broker, if_neg (fun hone => htwo (.inl hone))] at hlisten
      exact onParent_acts rfl hlisten
  unfold vsfFtpdataioGetPortFd getPrivDataSock
  rw [wp_bind, wp_bind]
  refine wp_mono hconnect ?_ (fun _ _ he => he)
  intro sock w1 hw1
  rw [wp_bind]
  refine wp_mono (hw1.wp_trans (checkPendingActions_acts hP w1)) ?_ (fun _ _ he => he)
  intro _ w2 hw2
  refine hw2.wp_trans ?_
  cases sock with
  | none => exact within_bind (reply_acts hP rfl) (fun _ => within_pure _) w2
  | some fd => exact within_bind (initDataSockParams_acts fd) (fun _ => within_pure _) w2

theorem vsfFtpdataioPostMarkConnect_acts : Within (Acts T A P) Halt.Any (vsfFtpdataioPostMarkConnect T env) := by
  have hssl : Within (Acts T A P) Halt.Any (sslAccept env) := by
    refine within_bind within_get fun _ => within_ite (within_throw trivial) ?_
    refine within_bind (vsfLogDebug_acts hP _) fun _ => within_bind ?_ fun _ => within_pure _
    exact modifySess_acts (fun _ => ⟨rfl, rfl⟩) (fun _ => id) (fun _ => .inl rfl)
  have hhandshake : ∀ own : Bool, Within (Acts T A P) Halt.Any (dataHandshake T env own) := fun own =>
    within_ite hssl (within_bind (vsfLogDebug_acts hP _) fun _ =>
      within_bind (checkPendingActions_acts hP) fun _ => within_pure _)
  have hanswer : ∀ ret : Bool, Within (Acts T A P) Halt.Any (handshakeAnswer T env ret) := by
    intro ret
    refine within_ite (within_pure _) (within_ite (writeExit_acts hP (hP _ rfl)) ?_)
    exact within_bind (reply_acts hP rfl) fun _ => within_pure _
  rw [vsfFtpdataioPostMarkConnect_eq]
  exact within_bind within_get fun w => within_ite (within_pure _) (within_bind (hhandshake _) hanswer)

theorem disposeSsl_acts : Within (Acts T A P) Halt.Any (disposeSsl T env) := by
  refine within_bind within_get fun w => within_ite ?_ (within_ite ?_ (within_pure _))
  · refine within_bind startDataAlarm_acts fun _ => within_bind (vsfLogDebug_acts hP _) fun _ => ?_
    exact within_bind (checkPendingActions_acts hP) fun _ => within_pure _
  · refine within_bind startDataAlarm_acts fun _ => within_bind (vsfLogDebug_acts hP _) fun _ => ?_
    refine within_bind ?_ fun _ => within_pure _
    exact modifySess_acts (fun _ => ⟨rfl, rfl⟩) (fun _ => id) (fun _ => .inl rfl)

theorem vsfFtpdataioDisposeTransferFd_acts :
    Within (Acts T A P) Halt.Any (vsfFtpdataioDisposeTransferFd T env) := by
  have hio : Within (Acts T A P) Halt.Any vsfSysutilUninstallIoHandler := by
    refine within_bind within_get fun w => within_ite ?_ (within_throw trivial)
    exact modifySess_acts (fun _ => ⟨rfl, rfl⟩) (fun _ => id) (fun _ => .inl rfl)
  refine within_bind within_get fun w => within_ite (within_throw trivial) (within_bind hio fun _ => ?_)
  refine within_bind (disposeSsl_acts hP) fun closed => within_bind within_get fun w => ?_
  refine within_bind (within_when ?_) fun _ => within_bind ?_ fun _ => ?_
  · exact within_bind startDataAlarm_acts fun _ => within_ite (within_pure _) (within_throw trivial)
  · exact modifySess_acts (fun _ => ⟨rfl, rfl⟩) (fun _ => id) (fun _ => .inl rfl)
  · exact within_bind within_get fun _ => within_pure _

theorem markTransfer_acts (msg : Bytes) : Within (Acts T A P) Halt.Any (markTransfer T env msg) := by
  refine within_bind (writeStr_acts hP (hP _ rfl)) fun _ => ?_
  refine within_bind (vsfFtpdataioPostMarkConnect_acts hP) fun ok => within_ite (within_pure _) ?_
  exact within_bind (vsfFtpdataioDisposeTransferFd_acts hP) fun _ => within_pure _

theorem getRemoteTransferFd_acts (msg : Bytes) : Within (Acts T A P) Halt.Any (getRemoteTransferFd T env msg) := by
  rw [getRemoteTransferFd_eq]
  refine within_bind portOrPasvActive_acts fun active => within_ite (within_throw trivial) ?_
  refine within_bind (modifySess_acts (fun _ => ⟨rfl, rfl⟩) (fun _ => id) (fun _ => .inl rfl)) fun _ => ?_
  intro w
  rw [wp_bind]
  refine wp_mono (wp_and ((active_within pasvActive_ask_acts stackDepth).2 w) (active_spec stackDepth w).2) ?_ (fun _ _ he => he.1)
  intro pasv w1 hw1
  -- the answer is about the listener as it still is
  obtain ⟨hacts, hcalls, hpasv⟩ := hw1
  rw [← hcalls.broker] at hpasv
  have hconnect : wp (connectTransfer T env pasv) (fun _ w2 => Acts T A P w1 w2)
      (fun e w2 => e.Any ∧ Acts T A P w1 w2) w1 := by
    refine wp_cases (fun hlisten => ?_) fun hnone => ?_
    · rw [hpasv] at hlisten
      exact vsfFtpdataioGetPasvFd_acts hP (Option.isSome_iff_ne_none.mp hlisten)
    · rw [hpasv, Option.not_isSome_iff_eq_none] at hnone
      exact vsfFtpdataioGetPortFd_acts hP hnone
  apply hacts.wp_trans
  rw [wp_bind]
  refine wp_mono hconnect ?_ (fun _ _ he => he)
  exact fun connected w2 hw2 => hw2.wp_trans (within_ite (within_pure _) (markTransfer_acts hP msg) w2)

theorem checkAbor_acts : Within (Acts T A P) Halt.Any (checkAbor T env) := by
  refine within_bind within_get fun w => within_when (within_bind ?_ fun _ => reply_acts hP rfl)
  exact modifySess_acts (fun _ => ⟨rfl, rfl⟩) (fun _ => id) (fun _ => .inl rfl)

/-! ### Transfers -/

theorem ftpReadData_acts (chunkSize : ℕ) : Within (Acts T A P) Halt.Any (ftpReadData T env chunkSize) := by
  refine within_bind within_get fun _ => within_bind (interrupted_acts hP _) fun _ => ?_
  refine within_bind within_get fun w0 => within_bind ?_ fun _ => within_bind ?_ fun _ => ?_
  · intro w
    refine ⟨rfl, id, .inl rfl, ⟨_, rfl, fun hlog => ⟨hlog, ?_⟩⟩, .inl List.prefix_rfl, asked_none rfl rfl⟩
    intro e he
    rw [List.mem_singleton.mp he]
    exact hP _ rfl
  · exact acts_of_talk (handleIo_talk _)
  · refine within_bind (checkPendingActions_acts hP) fun _ => ?_
    exact within_bind (within_when (vsfLogDebug_acts hP _)) fun _ => within_pure _

theorem vsfSysutilWriteLoop_acts (file : Inode.OpenFile) (buf : Bytes) :
    Within (Acts T A P) Halt.Any (vsfSysutilWriteLoop T env file buf) := by
  refine within_bind within_get fun _ => within_bind ?_ fun _ => ?_
  · exact within_modify fun w => .of_eq rfl rfl rfl rfl rfl
  · exact within_bind (checkPendingActions_acts hP) fun _ => within_pure _

theorem doFileRecv_acts (file : Inode.OpenFile) (isAscii : Bool) (haveRecvLen : ℕ) :
    Within (Acts T A P) Halt.Any (doFileRecv T env file isAscii haveRecvLen) := by
  have hchunk : ∀ st buf, Within (Acts T A P) Halt.Any (recvChunk T env isAscii haveRecvLen st buf) := by
    intro st buf
    refine within_ite (within_pure _) (within_bind (vsfSysutilWriteLoop_acts hP _ _) fun r => ?_)
    exact within_ite (within_pure _) (within_pure _)
  have hiter : ∀ st, Within (Acts T A P) Halt.Any (recvIter T env isAscii haveRecvLen st) := by
    intro st
    refine within_bind (ftpReadData_acts hP _) fun read => ?_
    cases read with
    | none => exact within_pure _
    | some buf => exact within_ite (within_pure _) (hchunk st buf)
  have hloop : ∀ n st, Within (Acts T A P) Halt.Any (recvLoop T env isAscii haveRecvLen n st) := by
    intro n
    induction n with
    | zero => exact fun _ => within_pure _
    | succ n ih =>
      intro st
      refine within_bind (hiter st) fun r => ?_
      cases r with
      | inl st => exact ih st
      | inr ret => exact within_pure _
  refine within_bind within_get fun w => within_bind (hloop _ _) fun r => ?_
  cases r with
  | inl st => exact within_throw trivial
  | inr ret => exact within_pure _

theorem ftpWriteData_acts (hwrite : ∀ r, P (.dataWrite r)) (buf : Bytes) :
    Within (Acts T A P) Halt.Any (ftpWriteData T env buf) := by
  refine within_bind within_get fun _ => within_bind ?_ fun _ => within_bind (emit_acts (hwrite _)) fun _ => ?_
  · exact within_modify fun w => ⟨rfl, id, .inl rfl, ⟨[], (List.append_nil _).symm, Loggable.keep rfl⟩, .inr ⟨0, hwrite 0⟩, asked_none rfl rfl⟩
  · exact within_bind (checkPendingIo_acts hP _) fun _ => within_pure _

theorem doFileSendRwloop_acts (hwrite : ∀ r, P (.dataWrite r))
    (hdownload : ∀ path offset len r, P (.cos (.fileDownload path offset len r)))
    (hlog : ∀ succeeded msg view, P (.log .download succeeded msg view)) (path : Bytes) (isAscii : Bool)
    (offset size : ℕ) : Within (Acts T A P) Halt.Any (doFileSendRwloop T env path isAscii offset size) := by
  refine within_bind (sendLoop_within ?_ ?_ _ _ _ _) fun r => ?_
  · exact fileDownload_within (fun _ _ _ _ => emit_acts (hdownload _ _ _ _)) (fun _ _ => emit_acts (hlog _ _ _)) path
  · exact fun buf => ftpWriteData_acts hP hwrite buf
  · cases r with
    | inl st => exact within_throw trivial
    | inr ret => exact within_pure _

/-! ### STOR -/

theorem cosUnlink_acts (hdelete : ∀ path, P (.cos (.fileDelete path))) (path : Bytes) :
    Within (Acts T A P) Halt.Any (cosUnlink T env path) :=
  cosUnlink_within (fun _ => emit_acts (hdelete _)) (fun _ _ => emit_acts (hP _ rfl)) path

omit hP in
theorem strUnlink_acts (path : Bytes) : Within (Acts T A P) Halt.Any (strUnlink env path) := by
  refine within_modify fun w => ?_
  split
  · exact .of_eq rfl rfl rfl rfl rfl
  · exact .refl w

omit hP in
theorem orDie_acts (ok : Bool) (what : String) : Within (Acts T A P) Halt.Any (orDie ok what) :=
  within_ite (within_pure ()) (within_throw trivial)

omit hP in
theorem uploadCleanup_acts (filename : Bytes) (pasvCleaned success : Bool) :
    Within (Acts T A P) Halt.Any (uploadCleanup T env filename pasvCleaned success) := by
  refine within_bind portCleanup_acts fun _ => within_bind (within_when pasvCleanup_acts) fun _ => ?_
  exact within_bind (within_when (strUnlink_acts _)) fun _ => orDie_acts _ _

/-- What STOR may cause besides the ordinary. -/
structure StorEvents (P : Event → Prop) : Prop where
  create : ∀ path, P (.create path)
  upload : ∀ path content ok, P (.cos (.fileUpload path content ok))
  delete : ∀ path, P (.cos (.fileDelete path))
  log : ∀ succeeded msg view, P (.log .upload succeeded msg view)

theorem uploadResult_acts (hS : StorEvents P) (arg filename : Bytes) (retval : ℤ) :
    Within (Acts T A P) Halt.Any (uploadResult T env arg filename retval) := by
  have hcos : Within (Acts T A P) Halt.Any (cosUploadFile T env filename arg) :=
    cosUploadFile_within
      (fileUpload_within (fun _ _ _ => emit_acts (hS.upload _ _ _)) (fun _ _ => emit_acts (hS.log _ _ _)) filename arg)
  unfold uploadResult uploadToCos
  refine within_ite ?_ (within_ite ?_ (within_ite ?_ (within_ite ?_ (within_pure _))))
  · exact within_bind (reply_acts hP rfl) fun _ => within_pure _
  · refine within_bind within_get fun _ => within_bind (within_when (reply_acts hP rfl)) fun _ => within_pure _
  · refine within_bind (writeStr_acts hP (hP _ rfl)) fun _ => ?_
    exact within_bind (strUnlink_acts _) fun _ => within_pure _
  · refine within_bind portCleanup_acts fun _ => within_bind (vsfLogDebug_acts hP _) fun _ => ?_
    refine within_bind hcos fun ok => within_ite ?_ ?_
    · exact within_bind (reply_acts hP rfl) fun _ => within_pure _
    · refine within_bind (vsfLogDoLog_acts true) fun _ => within_bind (writeStr_acts hP (hP _ rfl)) fun _ => ?_
      exact within_bind (strUnlink_acts _) fun _ => within_pure _

theorem uploadTransfer_acts (hS : StorEvents P) (arg filename : Bytes) (file : Inode.OpenFile) (haveRecvLen : ℕ) :
    Within (Acts T A P) Halt.Any (uploadTransfer T env arg filename file haveRecvLen) := by
  refine within_bind (getRemoteTransferFd_acts hP _) fun connected => within_ite (uploadCleanup_acts _ _ _) ?_
  refine within_bind pasvCleanup_acts fun _ => within_bind within_get fun w => ?_
  refine within_bind (doFileRecv_acts hP _ _ _) fun ret => ?_
  refine within_bind (vsfFtpdataioDisposeTransferFd_acts hP) fun disposed => within_bind ?_ fun _ => ?_
  · exact modifySess_acts (fun _ => ⟨rfl, rfl⟩) (fun _ => id) (fun _ => .inl rfl)
  · refine within_bind (uploadResult_acts hP hS _ _ _) fun success => ?_
    exact within_bind (checkAbor_acts hP) fun _ => uploadCleanup_acts _ _ _

theorem uploadOpened_acts (hS : StorEvents P) (arg filename : Bytes) (offset : ℕ) (file : Inode.OpenFile)
    (fileLen : ℕ) : Within (Acts T A P) Halt.Any (uploadOpened T env arg filename offset file fileLen) := by
  have hchown : Within (Acts T A P) Halt.Any (chownUpload T env) :=
    within_bind within_get fun _ => within_guarded fun hchown =>
      within_bind (orDie_acts _ _) fun _ => fun _ => onBroker_acts rfl hchown.2
  have hlock : Within (Acts T A P) Halt.Any (lockUpload T env) := by
    refine within_ite (within_bind within_get fun _ => ?_) (within_pure _)
    exact within_bind (interrupted_acts hP _) fun _ => within_bind (checkPendingActions_acts hP) fun _ => within_pure _
  have htruncate : Within (Acts T A P) Halt.Any (truncateUpload env file) := by
    refine within_bind (orDie_acts _ _) fun _ => within_bind ?_ fun _ => orDie_acts _ _
    exact within_modify fun w => .of_eq rfl rfl rfl rfl rfl
  refine within_bind hchown fun _ => within_bind hlock fun locked => ?_
  refine within_ite ?_ (within_ite ?_ (within_ite ?_ ?_))
  · exact within_bind (reply_acts hP rfl) fun _ => uploadCleanup_acts _ _ _
  · exact within_bind (within_when htruncate) fun _ => uploadTransfer_acts hP hS _ _ _ _
  · refine within_bind (reply_acts hP rfl) fun _ => ?_
    exact within_bind (cosUnlink_acts hP hS.delete _) fun _ => uploadCleanup_acts _ _ _
  · exact within_bind (orDie_acts _ _) fun _ => uploadTransfer_acts hP hS _ _ _ _

theorem handleUploadCommon_acts (hS : StorEvents P) (arg : Bytes) :
    Within (Acts T A P) Halt.Any (handleUploadCommon T env arg) := by
  have hcreate : ∀ exclusive path, Within (Acts T A P) Halt.Any (strCreate env exclusive path) := by
    intro exclusive path
    refine within_bind within_get fun w => within_bind (emit_acts (hS.create _)) fun _ => ?_
    refine within_ite (within_pure _) (within_bind ?_ fun _ => within_pure _)
    exact within_modify fun w => .of_eq rfl rfl rfl rfl rfl
  have hchecked : ∀ arg filename offset, Within (Acts T A P) Halt.Any (uploadChecked T env arg filename offset) := by
    intro arg filename offset
    refine within_bind (checkFile_acts _) fun allowed => within_ite (reply_acts hP rfl) ?_
    refine within_bind within_get fun w => within_bind (hcreate _ _) fun file => ?_
    cases file with
    | none => exact reply_acts hP rfl
    | some file => exact within_bind within_get fun _ => uploadOpened_acts hP hS _ _ _ _ _
  refine within_bind within_get fun w => within_bind ?_ fun _ => ?_
  · exact modifySess_acts (fun _ => ⟨rfl, rfl⟩) (fun _ => id) (fun _ => .inl rfl)
  refine within_bind (dataTransferChecksOk_acts hP) fun ok => within_ite (within_pure _) ?_
  refine within_bind (resolveTildeArg_acts _) fun arg => within_bind (prependPath_acts _) fun filename => ?_
  refine within_bind (vsfLogStartEntry_acts hS.log) fun _ => within_bind ?_ fun _ => hchecked _ _ _
  exact modifySess_acts (fun _ => ⟨rfl, rfl⟩) (fun _ => id) (fun _ => .inl rfl)

/-! ### RETR, SIZE and listings -/

theorem cosStatFile_acts (hstat : ∀ path, P (.cos (.fileStat path))) (path : Bytes) :
    Within (Acts T A P) Halt.Any (cosStatFile T env path) :=
  within_bind within_get fun _ => within_bind (emit_acts (hstat _)) fun _ =>
    within_bind (within_when (vsfLogDebug_acts hP _)) fun _ => within_pure _

/-- What tells the client of the bucket. -/
structure ReadEvents (P : Event → Prop) : Prop where
  stat : ∀ path, P (.cos (.fileStat path))
  write : ∀ r, P (.dataWrite r)
  reply : ∀ msg, P (.reply ftpSizeok msg)
  hyphen : ∀ msg, P (.hyphen ftpStatfileOk msg)

theorem handleRetr_acts (hR : ReadEvents P)
    (hdownload : ∀ path offset len r, P (.cos (.fileDownload path offset len r)))
    (hlog : ∀ succeeded msg view, P (.log .download succeeded msg view)) (arg : Bytes) :
    Within (Acts T A P) Halt.Any (handleRetr T env arg) := by
  have hreply : ∀ retval, Within (Acts T A P) Halt.Any (retrReply T env retval) := by
    intro retval
    refine within_ite (reply_acts hP rfl) (within_ite ?_ (reply_acts hP rfl))
    exact within_bind within_get fun _ => within_when (reply_acts hP rfl)
  have hresult : ∀ ret disposed, Within (Acts T A P) Halt.Any (retrResult T env ret disposed) := by
    intro ret disposed
    refine within_bind (modifySess_acts (fun _ => ⟨rfl, rfl⟩) (fun _ => id) (fun _ => .inl rfl)) fun _ => ?_
    refine within_bind (within_when (vsfLogDoLog_acts true)) fun _ => ?_
    exact within_bind (hreply _) fun _ => checkAbor_acts hP
  have htransfer : ∀ arg offset size, Within (Acts T A P) Halt.Any (retrTransfer T env arg offset size) := by
    intro arg offset size
    refine within_bind within_get fun w => within_bind (getRemoteTransferFd_acts hP _) fun connected => ?_
    refine within_ite transferCleanup_acts (within_bind (doFileSendRwloop_acts hP hR.write hdownload hlog _ _ _ _) fun ret => ?_)
    refine within_bind (vsfFtpdataioDisposeTransferFd_acts hP) fun disposed => ?_
    exact within_bind (hresult _ _) fun _ => transferCleanup_acts
  have hchecked : ∀ arg offset, Within (Acts T A P) Halt.Any (retrChecked T env arg offset) := by
    intro arg offset
    refine within_bind (checkFile_acts _) fun allowed => within_ite (reply_acts hP rfl) ?_
    refine within_bind (cosStatFile_acts hP hR.stat _) fun size => ?_
    cases size with
    | none => exact reply_acts hP rfl
    | some size => exact htransfer _ _ _
  refine within_bind within_get fun w => within_bind ?_ fun _ => ?_
  · exact modifySess_acts (fun _ => ⟨rfl, rfl⟩) (fun _ => id) (fun _ => .inl rfl)
  refine within_bind (dataTransferChecksOk_acts hP) fun ok => within_ite (within_pure _) (within_ite (reply_acts hP rfl) ?_)
  refine within_bind (resolveTildeArg_acts _) fun arg => within_bind (vsfLogStartEntry_acts hlog) fun _ => ?_
  refine within_bind (prependPath_acts _) fun filename => within_bind ?_ fun _ => hchecked _ _
  exact modifySess_acts (fun _ => ⟨rfl, rfl⟩) (fun _ => id) (fun _ => .inl rfl)

theorem handleSize_acts (hR : ReadEvents P) (arg : Bytes) : Within (Acts T A P) Halt.Any (handleSize T env arg) := by
  refine within_bind (resolveTildeArg_acts _) fun arg => within_bind (checkFile_acts _) fun allowed => ?_
  refine within_ite (reply_acts hP rfl) (within_bind (cosStatFile_acts hP hR.stat _) fun size => ?_)
  cases size with
  | none => exact reply_acts hP rfl
  | some size => exact writeStr_acts hP (hR.reply _)

theorem cosDirIsempty_acts (path : Bytes) : Within (Acts T A P) Halt.Any (cosDirIsempty T env path) :=
  within_bind within_get fun _ => within_bind (emit_acts (hP _ rfl)) fun _ =>
    within_bind (within_when (vsfLogDebug_acts hP _)) fun _ => within_pure _

theorem cosIsdir_acts (path : Bytes) : Within (Acts T A P) Halt.Any (cosIsdir T env path) := by
  refine within_bind ?_ fun isDir => within_ite (within_pure _) ?_
  · exact within_bind within_get fun _ => within_bind (emit_acts (hP _ rfl)) fun _ =>
      within_bind (within_when (vsfLogDebug_acts hP _)) fun _ => within_pure _
  · exact within_bind (cosDirIsempty_acts hP path) fun _ => within_pure _

theorem listTransfer_acts (hR : ReadEvents P) (respmsgs lines : List Bytes) :
    Within (Acts T A P) Halt.Any (listTransfer T env respmsgs lines) := by
  have hwrite : ∀ str, Within (Acts T A P) Halt.Any (ftpWriteStrData T env str) := fun str =>
    within_bind (ftpWriteData_acts hP hR.write str) fun _ => within_pure _
  have hreply : ∀ sent disposed, Within (Acts T A P) Halt.Any (dirReply T env sent disposed) := by
    intro sent disposed
    refine within_bind within_get fun _ => within_ite (within_when (reply_acts hP rfl)) (reply_acts hP rfl)
  refine within_bind (getRemoteTransferFd_acts hP _) fun connected => within_ite transferCleanup_acts ?_
  refine within_bind (transferDirInternal_within (vsfLogDebug_acts hP) hwrite _ _) fun sent => ?_
  refine within_bind (vsfFtpdataioDisposeTransferFd_acts hP) fun disposed => within_bind ?_ fun _ => ?_
  · exact within_bind (hreply _ _) fun _ => checkAbor_acts hP
  · exact transferCleanup_acts

theorem statTransfer_acts (hR : ReadEvents P) (hraw : ∀ msg, P (.raw msg)) (respmsgs lines : List Bytes) :
    Within (Acts T A P) Halt.Any (statTransfer T env respmsgs lines) := by
  have hwrite : ∀ str, Within (Acts T A P) Halt.Any (ftpWriteStrControl T env str) := fun str =>
    within_bind within_get fun _ => within_bind (within_when (emit_acts (hraw _))) fun _ =>
      within_bind (checkPendingActions_acts hP) fun _ => within_pure _
  refine within_bind (hyphen_acts hP (hR.hyphen _)) fun _ => ?_
  refine within_bind (transferDirInternal_within (vsfLogDebug_acts hP) hwrite _ _) fun _ => ?_
  exact within_bind (writeStr_acts hP (hR.reply _)) fun _ => checkAbor_acts hP

theorem handleDirCommon_acts (hR : ReadEvents P) {statCmd : Bool} (hraw : statCmd = true → ∀ msg, P (.raw msg))
    (fullDetails : Bool) (arg : Bytes) : Within (Acts T A P) Halt.Any (handleDirCommon T env fullDetails statCmd arg) := by
  have htransfer : ∀ dir option filter,
      Within (Acts T A P) Halt.Any (dirTransfer T env fullDetails statCmd dir option filter) := by
    intro dir option filter
    unfold dirTransfer
    split
    · rename_i hstat
      exact statTransfer_acts hP hR (hraw hstat) _ _
    · exact listTransfer_acts hP hR _ _
  have hlists : ∀ filter, Within (Acts T A P) Halt.Any (listsDirectory T env statCmd filter) := fun filter =>
    within_ite (within_pure _) (cosIsdir_acts hP filter)
  have hfiltered : ∀ option filter, Within (Acts T A P) Halt.Any (dirFiltered T env fullDetails statCmd option filter) := by
    intro option filter
    refine within_bind (resolveTildeArg_acts _) fun filter => within_bind (checkFile_acts _) fun allowed => ?_
    exact within_ite (reply_acts hP rfl) (within_bind (hlists _) fun isDir => htransfer _ _ _)
  refine within_bind (within_ite (within_pure _) (dataTransferChecksOk_acts hP)) fun ok => ?_
  exact within_ite (within_pure _) (within_ite (htransfer _ _ _) (hfiltered _ _))

/-! ### The other commands -/

theorem banner_acts {code : ℕ} (hcode : ∀ msg, (Event.hyphen code msg).everyday = true) :
    Within (Acts T A P) Halt.Any (vsfBannerDirChanged T env code) := by
  have hlines : ∀ lines, Within (Acts T A P) Halt.Any (vsfBannerWrite T env code lines) := by
    intro lines
    induction lines with
    | nil => exact within_pure _
    | cons line lines ih => exact within_bind (hyphen_acts hP (hP _ (hcode _))) fun _ => ih
  refine within_bind within_get fun w => within_when (within_bind (within_when ?_) fun _ => hlines _)
  exact modifySess_acts (fun _ => ⟨rfl, rfl⟩) (fun _ => id) (fun _ => .inl rfl)

theorem handleCwd_acts (arg : Bytes) : Within (Acts T A P) Halt.Any (handleCwd T env arg) := by
  have hchdir : ∀ path i, Within (Acts T A P) Halt.Any (strChdir env path i) := fun path i =>
    within_bind (within_when (within_modify fun w => .of_eq rfl rfl rfl rfl rfl)) fun _ => within_pure _
  have henter : ∀ path, Within (Acts T A P) Halt.Any (enterDirectory env path) := fun path =>
    within_bind (hchdir _ _) fun _ => within_ite (within_pure _) (within_ite (hchdir _ _) (within_pure _))
  have hchange : ∀ arg, Within (Acts T A P) Halt.Any (changeDirectory T env arg) := fun arg =>
    within_bind (cosIsdir_acts hP _) fun _ => within_bind (prependPath_acts _) fun _ =>
      within_ite (henter _) (within_pure _)
  have hreply : ∀ changed, Within (Acts T A P) Halt.Any (cwdReply T env changed) := fun changed =>
    within_ite (within_bind (banner_acts hP fun _ => rfl) fun _ => reply_acts hP rfl) (reply_acts hP rfl)
  refine within_bind (resolveTildeArg_acts _) fun arg => within_bind (checkFile_acts _) fun allowed => ?_
  exact within_ite (reply_acts hP rfl) (within_bind (hchange _) fun _ => hreply _)

theorem handlePwd_acts : Within (Acts T A P) Halt.Any (handlePwd T env) :=
  within_bind within_get fun _ => writeStr_acts hP (hP _ rfl)

theorem handlePasv_acts {isEpsv : Bool} (hpasv : isEpsv = false → ∀ msg, P (.reply ftpPasvok msg)) (arg : Bytes) :
    Within (Acts T A P) Halt.Any (handlePasv T env isEpsv arg) := by
  have haddr : ∀ localAddr, Within (Acts T A P) Halt.Any (pasvSockaddr T env localAddr) := by
    intro localAddr
    unfold pasvSockaddr
    split
    · exact within_pure _
    · split
      · exact within_throw trivial
      · exact within_pure _
  have hreply : ∀ port : UInt16, Within (Acts T A P) Halt.Any
      (if isEpsv then
        vsfCmdioWriteStr T env ftpEpsvok
          (text "Entering Extended Passive Mode (|||" ++ ulongText port.toNat ++ text "|)")
      else do
        let w ← get
        let addr ← pasvSockaddr T env w.own.sess.localAddr
        vsfCmdioWriteStr T env ftpPasvok (pasvReply w.own.sess.localAddr.isIpv6 addr port)) := by
    intro port
    cases isEpsv with
    | true => exact writeStr_acts hP (hP _ rfl)
    | false =>
      exact within_bind within_get fun _ => within_bind (haddr _) fun _ => writeStr_acts hP (hpasv rfl _)
  have hpassive : Within (Acts T A P) Halt.Any (enterPassive T env isEpsv) := by
    intro w
    unfold enterPassive
    rw [wp_bind]
    refine wp_mono (wp_and (pasvCleanup_acts w) pasvCleanup_spec) ?_ (fun _ _ he => he.1)
    intro _ w1 hw1
    obtain ⟨hacts, hctl⟩ := hw1
    rw [wp_bind]
    refine wp_mono (wp_and (hacts.wp_trans (portCleanup_acts w1)) portCleanup_spec) ?_ (fun _ _ he => he.1)
    intro _ w2 hw2
    obtain ⟨hacts2, hctl2⟩ := hw2
    -- the listener is asked for right behind the cleanup
    have hlisten : (w2.broker T).sess.pasvListenFd = none := by
      rw [← listenFd_ctl, hctl2]
      show w1.ctl.listenFd T = none
      rw [hctl, Ctl.listenFd_setListenFd]
    rw [wp_bind]
    refine wp_mono (hacts2.wp_trans (onBroker_acts rfl hlisten)) ?_ (fun _ _ he => he)
    exact fun port w3 hw3 => hw3.wp_trans (hreply port w3)
  refine within_bind within_get fun w => within_ite (within_bind ?_ fun _ => reply_acts hP rfl) ?_
  · exact modifySess_acts (fun _ => ⟨rfl, rfl⟩) (fun _ _ => rfl) (fun _ => .inl rfl)
  · exact within_ite (reply_acts hP rfl) hpassive

/-- What PORT and EPRT end in. -/
theorem storePortSockaddr_acts (hA : A) (addr : Sockaddr) (port : UInt16) {code : ℕ} {done illegal : String}
    (hdone : (Event.reply code (text done)).everyday = true) :
    Within (Acts T A P) Halt.Any (storePortSockaddr T env addr port code done illegal) := by
  refine within_bind (modifySess_acts (fun _ => ⟨rfl, rfl⟩) (fun _ => id) (fun _ => .inr (.inr hA))) fun _ => ?_
  refine within_bind within_get fun w => within_ite ?_ (reply_acts hP hdone)
  exact within_bind (reply_acts hP rfl) fun _ => portCleanup_acts

theorem handlePort_acts (hA : A) (arg : Bytes) : Within (Acts T A P) Halt.Any (handlePort T env arg) := by
  refine within_bind pasvCleanup_acts fun _ => within_bind portCleanup_acts fun _ => ?_
  cases parsePortArg arg with
  | none => exact reply_acts hP rfl
  | some found => exact within_bind within_get fun _ => storePortSockaddr_acts hP hA _ _ rfl

theorem handleEprt_acts (hA : A) (arg : Bytes) : Within (Acts T A P) Halt.Any (handleEprt T env arg) := by
  refine within_bind portCleanup_acts fun _ => within_bind pasvCleanup_acts fun _ => ?_
  refine within_bind within_get fun w => ?_
  split
  · exact reply_acts hP rfl
  · split
    · exact within_throw trivial
    · exact storePortSockaddr_acts hP hA _ _ rfl

/-- MKD, RMD and DELE, given what their parts behind the access check may do. -/
theorem logged_acts {what : LogEntryType} {rest : Bytes → M Unit} (hwhat : ∀ succeeded msg view, P (.log what succeeded msg view))
    (hrest : ∀ arg, Within (Acts T A P) Halt.Any (rest arg)) (arg : Bytes) :
    Within (Acts T A P) Halt.Any (logged T env what arg rest) := by
  refine within_bind (resolveTildeArg_acts _) fun arg => within_bind (vsfLogStartEntry_acts hwhat) fun _ => ?_
  refine within_bind (prependPath_acts _) fun filename => within_bind ?_ fun _ => ?_
  · exact modifySess_acts (fun _ => ⟨rfl, rfl⟩) (fun _ => id) (fun _ => .inl rfl)
  · exact within_bind (checkFile_acts _) fun _ => within_ite (reply_acts hP rfl) (hrest _)

theorem handleMkd_acts (hcreate : ∀ path, P (.cos (.folderCreate path))) (arg : Bytes) :
    Within (Acts T A P) Halt.Any (handleMkd T env arg) := by
  refine logged_acts hP (fun _ _ _ => hP _ rfl) (fun arg => ?_) arg
  have hmkdir : Within (Acts T A P) Halt.Any (cosMkdir T env arg) :=
    cosMkdir_within (fun _ => emit_acts (hcreate _)) (fun _ _ => emit_acts (hP _ rfl)) arg
  refine within_bind hmkdir fun retval => within_ite (reply_acts hP rfl) (within_ite (reply_acts hP rfl) ?_)
  exact within_bind (vsfLogDoLog_acts true) fun _ => writeStr_acts hP (hP _ rfl)

theorem handleRmd_acts (hdelete : ∀ path, P (.cos (.folderDelete path))) (arg : Bytes) :
    Within (Acts T A P) Halt.Any (handleRmd T env arg) := by
  refine logged_acts hP (fun _ _ _ => hP _ rfl) (fun arg => ?_) arg
  have hrmdir : Within (Acts T A P) Halt.Any (cosRmdir T env arg) :=
    cosRmdir_within (fun _ => emit_acts (hdelete _)) (fun _ _ => emit_acts (hP _ rfl)) arg
  refine within_bind (cosDirIsempty_acts hP arg) fun retval => within_ite (reply_acts hP rfl) (within_ite (reply_acts hP rfl) ?_)
  refine within_bind hrmdir fun retval => within_ite (reply_acts hP rfl) (within_ite (reply_acts hP rfl) ?_)
  exact within_bind (vsfLogDoLog_acts true) fun _ => reply_acts hP rfl

theorem handleDele_acts (hdelete : ∀ path, P (.cos (.fileDelete path))) (arg : Bytes) :
    Within (Acts T A P) Halt.Any (handleDele T env arg) := by
  refine logged_acts hP (fun _ _ _ => hP _ rfl) (fun arg => ?_) arg
  refine within_bind (cosUnlink_acts hP hdelete arg) fun retval => ?_
  refine within_ite (reply_acts hP rfl) (within_ite (reply_acts hP rfl) ?_)
  exact within_bind (vsfLogDoLog_acts true) fun _ => reply_acts hP rfl

theorem handleType_acts (arg : Bytes) : Within (Acts T A P) Halt.Any (handleType T env arg) := by
  refine within_ite (within_bind ?_ fun _ => reply_acts hP rfl)
    (within_ite (within_bind ?_ fun _ => reply_acts hP rfl) (reply_acts hP rfl))
  · exact modifySess_acts (fun _ => ⟨rfl, rfl⟩) (fun _ => id) (fun _ => .inl rfl)
  · exact modifySess_acts (fun _ => ⟨rfl, rfl⟩) (fun _ => id) (fun _ => .inl rfl)

theorem handleRest_acts (arg : Bytes) : Within (Acts T A P) Halt.Any (handleRest T env arg) := by
  refine within_bind ?_ fun _ => writeStr_acts hP (hP _ rfl)
  exact modifySess_acts (fun _ => ⟨rfl, rfl⟩) (fun _ => id) (fun _ => .inl rfl)

theorem handleProt_acts (arg : Bytes) : Within (Acts T A P) Halt.Any (handleProt T env arg) := by
  have hset : ∀ b : Bool, Within (Acts T A P) Halt.Any (modifySess fun s => { s with dataUseSsl := b }) := fun b =>
    modifySess_acts (fun _ => ⟨rfl, rfl⟩) (fun _ => id) (fun _ => .inl rfl)
  refine within_bind within_get fun w => within_ite (reply_acts hP rfl) (within_ite ?_ (within_ite ?_ ?_))
  · exact within_bind (hset false) fun _ => reply_acts hP rfl
  · exact within_bind (hset true) fun _ => reply_acts hP rfl
  · exact within_ite (reply_acts hP rfl) (reply_acts hP rfl)

/-- HELP, FEAT and STAT: an answer of several lines. -/
theorem hyphened_acts (hraw : ∀ msg, P (.raw msg)) {code : ℕ} {first last : String} (lines : List Bytes)
    (hfirst : (Event.hyphen code (text first)).everyday = true)
    (hlast : (Event.reply code (text last)).everyday = true) :
    Within (Acts T A P) Halt.Any (do
      vsfCmdioWriteHyphen T env code first
      writeRaws T env lines
      vsfCmdioWrite T env code last) := by
  have hlines : ∀ lines, Within (Acts T A P) Halt.Any (writeRaws T env lines) := by
    intro lines
    induction lines with
    | nil => exact within_pure _
    | cons line lines ih => exact within_bind (raw_acts hP (hraw _)) fun _ => ih
  refine within_bind (hyphen_acts hP (hP _ hfirst)) fun _ => ?_
  exact within_bind (hlines _) fun _ => reply_acts hP hlast

theorem handleLoggedInUser_acts (arg : Bytes) : Within (Acts T A P) Halt.Any (handleLoggedInUser T env arg) :=
  within_bind within_get fun _ => within_ite (reply_acts hP rfl) (within_ite (reply_acts hP rfl) (reply_acts hP rfl))

end

/-! ### Every command does what it may -/

/-- What a command may cause in the session `s`. -/
def Permitted (T : Tunables) (s : Session) (cmd arg : Bytes) : Event → Prop
  | .reply code _ => (code = ftpPasvok → s.epsvAll = false) ∧ (code = ftpSizeok → s.readPermission = true)
  | .hyphen code _ => code = ftpStatfileOk → s.readPermission = true
  | .raw _ => isCmd cmd ["STAT"] = true → arg ≠ [] → s.readPermission = true
  | .create _ => isCmd cmd ["STOR"] = true ∧ mayWrite T T.anonUploadEnable s = true
  | .cos (.fileUpload _ _ _) => isCmd cmd ["STOR"] = true ∧ mayWrite T T.anonUploadEnable s = true
  | .cos (.folderCreate _) => mayWrite T T.anonMkdirWriteEnable s = true
  | .cos (.folderDelete _) => mayWrite T T.anonOtherWriteEnable s = true
  | .cos (.fileDelete _) => isCmd cmd ["DELE"] = true ∧ mayWrite T T.anonOtherWriteEnable s = true ∨
    isCmd cmd ["STOR"] = true ∧ mayWrite T T.anonUploadEnable s = true
  | .cos (.fileStat _) => s.readPermission = true
  | .cos (.fileDownload _ _ _ _) => s.readPermission = true
  | .dataWrite _ => s.readPermission = true
  | _ => True

/-- A RETR, as the dispatch lets it through. -/
def Downloads (T : Tunables) (s : Session) (cmd : Bytes) : Prop :=
  T.downloadEnable = true ∧ s.readPermission = true ∧ isCmd cmd ["RETR"] = true

/-- A STOR, as the dispatch lets it through. -/
def Uploads (T : Tunables) (s : Session) (cmd : Bytes) : Prop :=
  mayWrite T T.anonUploadEnable s = true ∧ isCmd cmd ["STOR"] = true

/-- A transfer is made and logged by the command it is asked for with. -/
def LoggedBy (T : Tunables) (s : Session) (cmd : Bytes) : Event → Prop
  | .log .download _ _ _ => Downloads T s cmd
  | .log .upload _ _ _ => Uploads T s cmd
  | .cos (.fileDownload _ _ _ _) => Downloads T s cmd
  | .cos (.fileUpload _ _ _) => Uploads T s cmd
  | _ => True

/-- What a command may cause in the session, and log. -/
def Lawful (T : Tunables) (s : Session) (cmd arg : Bytes) (e : Event) : Prop :=
  Permitted T s cmd arg e ∧ LoggedBy T s cmd e

/-- The commands that name an address for the data connection, as the dispatch
lets them through. -/
def TakesAddress (s : Session) (cmd : Bytes) : Prop :=
  s.epsvAll = false ∧ isCmd cmd ["PORT"] = true ∨ isCmd cmd ["EPRT"] = true

section

variable {T : Tunables} {env : Env} {A : Prop} {s : Session} {cmd arg : Bytes}

theorem permitted_ordinary {e : Event} (h : e.ordinary = true) : Permitted T s cmd arg e := by
  cases e with
  | reply code msg =>
    obtain ⟨hpasv, hsize⟩ : code ≠ ftpPasvok ∧ code ≠ ftpSizeok := of_decide_eq_true h
    exact ⟨fun he => absurd he hpasv, fun he => absurd he hsize⟩
  | hyphen code msg =>
    have hcode : code ≠ ftpStatfileOk := of_decide_eq_true h
    exact fun he => absurd he hcode
  | raw msg => cases h
  | create path => cases h
  | dataWrite r => cases h
  | cos req => cases req <;> first | exact trivial | cases h
  | _ => trivial

theorem lawful_everyday {e : Event} (h : e.everyday = true) : Lawful T s cmd arg e := by
  obtain ⟨hordinary, hnone⟩ := (Bool.and_eq_true _ _).mp h
  refine ⟨permitted_ordinary hordinary, ?_⟩
  unfold LoggedBy
  split
  · cases hnone
  · cases hnone
  · cases hordinary
  · cases hordinary
  · trivial

theorem loggable_permitted {w : World} : Loggable (Permitted T s cmd arg) w := loggable_of_forall fun _ _ _ _ => trivial

theorem eq_of_isCmd {name : String} (h : isCmd cmd [name] = true) : cmd = text name := by
  simpa [isCmd, strEqualText] using h

variable {P : Event → Prop} (hL : ∀ e, Lawful T s cmd arg e → P e)

include hL

theorem readEvents_lawful (hread : s.readPermission = true) : ReadEvents P where
  stat := fun _ => hL _ ⟨hread, trivial⟩
  write := fun _ => hL _ ⟨hread, trivial⟩
  reply := fun _ => hL _ ⟨⟨fun he => absurd he (by decide), fun _ => hread⟩, trivial⟩
  hyphen := fun _ => hL _ ⟨fun _ => hread, trivial⟩

/-- Lines of an answer that tell nothing of the bucket. -/
theorem raw_lawful (h : isCmd cmd ["STAT"] = true → arg = []) (msg : Bytes) : P (.raw msg) :=
  hL _ ⟨fun hstat hne => absurd (h hstat) hne, trivial⟩

theorem dispatchRest_acts : Within (Acts T A P) Halt.Any (dispatchRest T env s cmd arg) := by
  have hP : ∀ e : Event, e.everyday = true → P e := fun e he => hL e (lawful_everyday he)
  unfold dispatchRest
  refine within_cases (fun hcmd => ?_) fun _ => within_ite ?_ (within_cases (fun hcmd => ?_) fun _ => ?_)
  · refine hyphened_acts hP (raw_lawful hL ?_) _ rfl rfl
    rw [eq_of_isCmd hcmd]
    exact fun h => absurd h (by decide)
  · exact within_ite (reply_acts hP rfl) (reply_acts hP rfl)
  · exact within_bind within_get fun w => hyphened_acts hP (raw_lawful hL fun _ => hcmd.2) _ rfl rfl
  refine within_cases (fun hcmd => ?_) fun _ => ?_
  · exact handleDirCommon_acts hP (readEvents_lawful hL hcmd.2.1) (fun _ _ => hL _ ⟨fun _ _ => hcmd.2.1, trivial⟩) _ _
  refine within_ite ?_ (within_ite (handleProt_acts hP arg) (within_ite (handleLoggedInUser_acts hP arg) ?_))
  · exact within_bind within_get fun _ => within_ite (reply_acts hP rfl) (reply_acts hP rfl)
  refine within_ite (reply_acts hP rfl) (within_ite (reply_acts hP rfl) (within_ite (within_pure _) ?_))
  exact within_ite (writeExit_acts hP (hP _ rfl)) (reply_acts hP rfl)

theorem dispatchMore_acts (hA : TakesAddress s cmd → A) :
    Within (Acts T A P) Halt.Any (dispatchMore T env s cmd arg) := by
  have hP : ∀ e : Event, e.everyday = true → P e := fun e he => hL e (lawful_everyday he)
  have hone : ∀ (known : String) (okCode badCode : ℕ) (done bad : String),
      (Event.reply okCode (text done)).everyday = true → (Event.reply badCode (text bad)).everyday = true →
      Within (Acts T A P) Halt.Any (oneArg T env arg known okCode badCode done bad) :=
    fun _ _ _ _ _ hok hbad => within_ite (reply_acts hP hok) (reply_acts hP hbad)
  unfold dispatchMore
  refine within_cases (fun hcmd => ?_) fun _ => within_cases (fun hcmd => ?_) fun _ => ?_
  · exact handleDirCommon_acts hP (readEvents_lawful hL hcmd.2.1) (fun h => by cases h) _ _
  · exact handleSize_acts hP (readEvents_lawful hL hcmd.1) arg
  iterate 4
    refine within_ite (reply_acts hP rfl) ?_
  refine within_cases (fun hcmd => handleEprt_acts hP (hA (.inr hcmd.2)) arg) fun _ => ?_
  refine within_ite (hone _ _ _ _ _ rfl rfl) (within_ite (hone _ _ _ _ _ rfl rfl) ?_)
  iterate 5
    refine within_ite (reply_acts hP rfl) ?_
  exact dispatchRest_acts hL

theorem dispatchWrite_acts (hA : TakesAddress s cmd → A) :
    Within (Acts T A P) Halt.Any (dispatchWrite T env s cmd arg) := by
  have hP : ∀ e : Event, e.everyday = true → P e := fun e he => hL e (lawful_everyday he)
  unfold dispatchWrite
  refine within_cases (fun hcmd => ?_) fun _ => within_cases (fun hcmd => ?_) fun _ => ?_
  · exact handleUploadCommon_acts hP ⟨fun _ => hL _ ⟨hcmd.symm, trivial⟩, fun _ _ _ => hL _ ⟨hcmd.symm, hcmd⟩,
      fun _ => hL _ ⟨.inr hcmd.symm, trivial⟩, fun _ _ _ => hL _ ⟨trivial, hcmd⟩⟩ arg
  · exact handleMkd_acts hP (fun _ => hL _ ⟨hcmd.1, trivial⟩) arg
  refine within_cases (fun hcmd => ?_) fun _ => within_cases (fun hcmd => ?_) fun _ => ?_
  · exact handleRmd_acts hP (fun _ => hL _ ⟨hcmd.1, trivial⟩) arg
  · exact handleDele_acts hP (fun _ => hL _ ⟨.inl hcmd.symm, trivial⟩) arg
  refine within_ite (handleRest_acts hP arg) (within_ite (reply_acts hP rfl) (within_ite (reply_acts hP rfl) ?_))
  exact dispatchMore_acts hL hA

/-- **Every command, whatever its argument and the answers it gets, does only what
the session may do.** -/
theorem dispatchCmd_acts (hA : TakesAddress s cmd → A) :
    Within (Acts T A P) Halt.Any (dispatchCmd T env s cmd arg) := by
  have hP : ∀ e : Event, e.everyday = true → P e := fun e he => hL e (lawful_everyday he)
  unfold dispatchCmd
  refine within_ite (writeExit_acts hP (hP _ rfl)) (within_ite (handlePwd_acts hP) ?_)
  refine within_ite (handleCwd_acts hP arg) (within_ite (handleCwd_acts hP _) ?_)
  refine within_cases (fun hcmd => ?_) fun _ => within_ite ?_ (within_cases (fun hcmd => ?_) fun _ => ?_)
  · have hall : s.epsvAll = false := by simpa using hcmd.2.1
    exact handlePasv_acts hP (fun _ _ => hL _ ⟨⟨fun _ => hall, fun he => absurd he (by decide)⟩, trivial⟩) arg
  · exact handlePasv_acts hP (fun h => by cases h) arg
  · exact handleRetr_acts hP (readEvents_lawful hL hcmd.2.1) (fun _ _ _ _ => hL _ ⟨hcmd.2.1, hcmd⟩)
      (fun _ _ _ => hL _ ⟨trivial, hcmd⟩) arg
  refine within_ite (reply_acts hP rfl) (within_ite (reply_acts hP rfl) (within_cases (fun hcmd => ?_) fun _ => ?_))
  · refine hyphened_acts hP (raw_lawful hL ?_) _ rfl rfl
    rw [eq_of_isCmd hcmd]
    exact fun h => absurd h (by decide)
  refine within_cases (fun hcmd => ?_) fun _ => within_ite (handleType_acts hP arg) ?_
  · exact handleDirCommon_acts hP (readEvents_lawful hL hcmd.2.1) (fun h => by cases h) _ _
  refine within_cases (fun hcmd => ?_) fun _ => dispatchWrite_acts hL hA
  exact handlePort_acts hP (hA (.inl ⟨by simpa using hcmd.2.1, hcmd.2.2⟩)) arg

omit hL in
theorem dispatch_acts {w : World} (hL : ∀ e, Lawful T w.sess cmd arg e → P e) (hA : TakesAddress w.sess cmd → A) :
    wp (dispatch T env cmd arg) (fun _ w' => Acts T A P w w')
      (fun _ w' => Acts T A P w w') w := by
  have hboth : Within (Acts T A P) Halt.Any
      (if !cmdOk T cmd then vsfCmdioWrite T env ftpNoperm "Permission denied."
        else dispatchCmd T env w.sess cmd arg) :=
    within_ite (reply_acts (fun e he => hL e (lawful_everyday he)) rfl) (dispatchCmd_acts hL hA)
  unfold dispatch
  rw [wp_bind, wp_get]
  refine wp_mono (hboth w) (fun _ _ h => h) ?_
  exact fun _ _ h => h.2

end

/-! ### Rounds -/

section

variable {T : Tunables} {env : Env} {A : Prop} {P : Event → Prop} {s : Session} {cmd arg : Bytes}

/-- Permissions are looked up in what the login granted, and in `epsv_all`. -/
theorem lawful_congr {s' : Session} (hgrants : s'.grants = s.grants) (hall : s'.epsvAll = s.epsvAll) :
    Lawful T s' cmd arg = Lawful T s cmd arg := by
  have hanon : s'.isAnonymous = s.isAnonymous := congrArg (·.1) hgrants
  have hread : s'.readPermission = s.readPermission := congrArg (·.2.1) hgrants
  have hwrite : s'.writePermission = s.writePermission := congrArg (·.2.2) hgrants
  have hmay : ∀ anon, mayWrite T anon s' = mayWrite T anon s := by
    intro anon
    rw [mayWrite, mayWrite, hanon, hwrite]
  funext e
  unfold Lawful Permitted LoggedBy Downloads Uploads
  simp only [hmay, hread, hall]

/-- EPSV ALL has been asked for or not, as before. -/
def SameAll (w w' : World) : Prop := w'.sess.epsvAll = w.sess.epsvAll

instance : Std.Refl SameAll := ⟨fun _ => rfl⟩

instance : IsTrans World SameAll := ⟨fun _ _ _ h h' => Eq.trans h' h⟩

/-- What reading a command does. -/
theorem readCommand_acts (hP : ∀ e : Event, e.everyday = true → P e) (line : CtrlLine) :
    Within (Acts T A P) Halt.Any (readCommand T env line) := by
  refine within_bind ?_ fun _ => within_bind within_get fun w => within_bind (interrupted_acts hP _) fun _ => ?_
  · unfold vsfCmdioSetAlarm
    refine modifySess_acts ?_ ?_ ?_ <;> intro s <;> split
    all_goals first | exact ⟨rfl, rfl⟩ | exact id | exact .inl rfl
  · exact acts_of_talk (vsfCmdioGetCmdAndArg_talk line fun e he => hP e he.everyday)

theorem readCommand_sameAll (line : CtrlLine) : Within SameAll Halt.Orderly (readCommand T env line) := by
  have htalk : ∀ {α : Type} {x : M α}, Within (Talk fun _ => True) Halt.Orderly x → Within SameAll Halt.Orderly x :=
    fun h => h.mono fun _ _ ht => ht.sess (·.epsvAll) fun _ => rfl
  refine within_bind ?_ fun _ => within_bind within_get fun w => within_bind ?_ fun _ => ?_
  · unfold vsfCmdioSetAlarm
    refine within_modify fun w => ?_
    show (if 0 < T.idleSessionTimeout then _ else w.sess).epsvAll = w.sess.epsvAll
    split <;> rfl
  · exact htalk (interrupted_talk (fun _ _ => trivial) _)
  · exact htalk (vsfCmdioGetCmdAndArg_talk line fun _ _ => trivial)

/-- **One round of the loop does what its command may do**, however it ends. -/
theorem postLoginRound_lawful {w : World} {line : CtrlLine}
    (hL : ∀ e, Lawful T w.sess (lineCommand env line).1 (lineCommand env line).2 e → P e)
    (hA : TakesAddress w.sess (lineCommand env line).1 → A) :
    wp (postLoginRound T env line) (fun _ w' => Acts T A P w w') (fun _ w' => Acts T A P w w') w := by
  set cmd := (lineCommand env line).1 with hcmd
  set arg := (lineCommand env line).2 with harg
  have hP : ∀ e : Event, e.everyday = true → P e := fun e he => hL e (lawful_everyday he)
  have hread : wp (readCommand T env line)
      (fun r w1 => Acts T A P w w1 ∧ w1.sess.epsvAll = w.sess.epsvAll ∧
        (r.1, cosConvGbk2Utf env r.2) = (cmd, arg))
      (fun _ w1 => Acts T A P w w1) w := by
    refine wp_mono (wp_and (readCommand_acts (A := A) hP line w) (wp_and (readCommand_sameAll line w)
      (readCommand_spec line w))) ?_ ?_
    · intro r w1 h
      exact ⟨h.1, h.2.1, h.2.2.2⟩
    · exact fun _ _ h => h.1.2
  unfold postLoginRound
  rw [wp_bind]
  refine wp_mono hread ?_ (fun _ _ h => h)
  intro r w1 hw1
  obtain ⟨hacts, hall, hline⟩ := hw1
  obtain ⟨hr1, hr2⟩ := Prod.mk.inj hline
  have hL1 : ∀ e, Lawful T w1.sess cmd arg e → P e := by
    rw [lawful_congr hacts.grants hall]
    exact hL
  have hA1 : TakesAddress w1.sess cmd → A := by
    intro htakes
    apply hA
    rwa [TakesAddress, hall] at htakes
  show wp (do dispatch T env r.1 (cosConvGbk2Utf env r.2); commandEnd T env) _ _ w1
  rw [hr1, hr2, wp_bind]
  refine wp_mono (dispatch_acts hL1 hA1) ?_ ?_
  · intro _ w2 hw2
    refine wp_mono (commandEnd_acts (T := T) (A := A) hP w2) ?_ ?_
    · exact fun _ _ h => (hacts.trans hw2).trans h
    · exact fun _ _ h => (hacts.trans hw2).trans h.2
  · intro _ w2 hw2
    exact hacts.trans hw2

theorem postLoginRound_acts (w : World) (line : CtrlLine)
    (hA : TakesAddress w.sess (lineCommand env line).1 → A) :
    wp (postLoginRound T env line)
      (fun _ w' => Acts T A (Permitted T w.sess (lineCommand env line).1 (lineCommand env line).2) w w')
      (fun _ w' => Acts T A (Permitted T w.sess (lineCommand env line).1 (lineCommand env line).2) w w') w :=
  postLoginRound_lawful (fun _ he => he.1) hA

end

end CosFtp
