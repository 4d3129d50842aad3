/-
# How a transfer is answered

`notes` keeps of a trace what is told of a transfer: the mark in front of it, the
reply the command ends with, the tries at COS that failed, and the lines of
xferlog. Replies to what SIGURG reads and the one to an ABOR are left out. Most
steps of a command are silent (`Hush`), so what a command tells is a short word, and
it is followed through the handlers from the mark to the reply.

Key definitions: `Note`, `Event.note`, `Hush`, `Outcome`, `TransferCmd`.
Key theorems: `getRemoteTransferFd_said`, `TransferCmd.handler_outcome`, `one_completion_reply`.
-/
import CosFtp.Acts
import CosFtp.Stor

namespace CosFtp

open Wp

/-! ### What is told -/

/-- Something told of a transfer. -/
inductive Note where
  /-- the 150 reply -/
  | mark
  /-- the reply of a command that is done, and whether it is `226 Transfer complete.` -/
  | done (complete : Bool)
  /-- the loop's 421 -/
  | stalled
  /-- a try of `FileUpload` or `FileDownload` that failed -/
  | failed
  /-- a line of xferlog, and whether it is marked as complete -/
  | line (complete : Bool)
  deriving DecidableEq

/-- The replies that do not belong to the command that is served. -/
def asides : List Event :=
  [.reply ftpBadcmd (text "Unknown command."), .reply ftpBadcmd (text "Input line too long."),
    .reply ftpIdleTimeout (text "Timeout."), .reply ftpAborok (text "ABOR successful.")]

/-- The reply to a transfer that has stalled. -/
def dataTimeoutReply : Event := .reply ftpDataTimeout (text "Data timeout. Reconnect. Sorry.")

def Event.note (e : Event) : Option Note :=
  match e with
  | .reply code _ =>
    if e ∈ asides then none
    else if e = dataTimeoutReply then some .stalled
    else if code = ftpDataconn then some .mark
    else if 200 ≤ code then some (.done (e = transferComplete))
    else none
  | .cos (.fileUpload _ _ false) => some .failed
  | .cos (.fileDownload _ _ _ result) => if result < 0 then some .failed else none
  | e => e.xferlog.map .line

def notes (es : List Event) : List Note := es.filterMap Event.note

/-- Failed tries, each with the line that is logged for it. -/
def tries : ℕ → List Note
  | 0 => []
  | k + 1 => .failed :: .line true :: tries k

/-- What is told before a transfer has come to its end. -/
def Opened (l : List Note) : Prop := ∃ k, l = tries k ∨ l = .mark :: tries k

theorem notes_append (es es' : List Event) : notes (es ++ es') = notes es ++ notes es' := List.filterMap_append

theorem notes_eq_nil {es : List Event} (h : ∀ e ∈ es, e.note = none) : notes es = [] :=
  List.filterMap_eq_nil_iff.mpr h

theorem tries_add (k k' : ℕ) : tries k ++ tries k' = tries (k + k') := by
  induction k with
  | zero => simp [tries]
  | succ k ih =>
    rw [Nat.succ_add]
    show _ :: _ :: (tries k ++ tries k') = _
    rw [ih]
    rfl

theorem opened_nil : Opened [] := ⟨0, .inl rfl⟩

theorem opened_mark : Opened [.mark] := ⟨0, .inr rfl⟩

theorem Opened.append_tries {l : List Note} (h : Opened l) (k : ℕ) : Opened (l ++ tries k) := by
  obtain ⟨k₀, rfl | rfl⟩ := h
  · exact ⟨k₀ + k, .inl (tries_add k₀ k)⟩
  · exact ⟨k₀ + k, .inr (congrArg _ (tries_add k₀ k))⟩

theorem SignalReply.note {e : Event} (h : SignalReply e) : e.note = none := by
  cases h
  case input | output | debug => rfl
  all_goals decide

theorem note_mark (msg : Bytes) : (Event.reply ftpDataconn msg).note = some .mark := by
  unfold Event.note asides dataTimeoutReply
  simp [ftpDataconn, ftpBadcmd, ftpIdleTimeout, ftpAborok, ftpDataTimeout]

/-- A reply with a code that no aside has. -/
theorem note_reply {code : ℕ} (msg : Bytes) (h : code ∉ [150, 226, 421, 500]) (hcode : 200 ≤ code) :
    (Event.reply code msg).note = some (.done false) := by
  unfold Event.note asides dataTimeoutReply transferComplete
  simp only [List.mem_cons, List.not_mem_nil, or_false, not_or] at h
  simp [h, hcode, ftpDataconn, ftpBadcmd, ftpIdleTimeout, ftpAborok, ftpDataTimeout, ftpTransferok]

/-! ### Silent steps -/

/-- Nothing was told, the log entry is as it was, and a transfer that had stalled still has. -/
structure Hush (w w' : World) : Prop where
  events : ∃ es, w'.events = w.events ++ es ∧ notes es = []
  log : w'.sess.logType = w.sess.logType
  timeout : w.sess.dataTimeout = true → w'.sess.dataTimeout = true

/-- Failed tries only were told. -/
structure Tried (w w' : World) : Prop where
  events : ∃ k es, w'.events = w.events ++ es ∧ notes es = tries k
  log : w'.sess.logType = w.sess.logType
  timeout : w.sess.dataTimeout = true → w'.sess.dataTimeout = true

theorem Hush.of_events {w w' : World} (hev : w'.events = w.events) (hlog : w'.sess.logType = w.sess.logType)
    (htimeout : w.sess.dataTimeout = true → w'.sess.dataTimeout = true) : Hush w w' :=
  ⟨⟨[], by rw [hev, List.append_nil], rfl⟩, hlog, htimeout⟩

theorem Hush.trans {w w' w'' : World} (h : Hush w w') (h' : Hush w' w'') : Hush w w'' := by
  obtain ⟨es, hes, hnone⟩ := h.events
  obtain ⟨es', hes', hnone'⟩ := h'.events
  refine ⟨⟨es ++ es', ?_, ?_⟩, h'.log.trans h.log, h'.timeout ∘ h.timeout⟩
  · rw [hes', hes, List.append_assoc]
  · rw [notes_append, hnone, hnone']
    rfl

instance : Std.Refl Hush := ⟨fun _ => .of_events rfl rfl id⟩

instance : IsTrans World Hush := ⟨fun _ _ _ => Hush.trans⟩

theorem Hush.tried {w w' : World} (h : Hush w w') : Tried w w' := by
  obtain ⟨es, hes, hnone⟩ := h.events
  exact ⟨⟨0, es, hes, hnone⟩, h.log, h.timeout⟩

theorem Tried.trans {w w' w'' : World} (h : Tried w w') (h' : Tried w' w'') : Tried w w'' := by
  obtain ⟨k, es, hes, hk⟩ := h.events
  obtain ⟨k', es', hes', hk'⟩ := h'.events
  refine ⟨⟨k + k', es ++ es', ?_, ?_⟩, h'.log.trans h.log, h'.timeout ∘ h.timeout⟩
  · rw [hes', hes, List.append_assoc]
  · rw [notes_append, hk, hk', tries_add]

instance : Std.Refl Tried := ⟨fun w => (Std.Refl.refl w : Hush w w).tried⟩

instance : IsTrans World Tried := ⟨fun _ _ _ => Tried.trans⟩

section

variable {T : Tunables} {env : Env} {α : Type}

theorem Talk.hush {w w' : World} (h : Talk (fun e => e.note = none) w w') : Hush w w' := by
  obtain ⟨es, hes, hnone, _⟩ := h.events
  exact ⟨⟨es, hes, notes_eq_nil hnone⟩, h.sess (·.logType) fun _ => rfl, h.timeout⟩

theorem hush_of_talk {x : M α} (h : Within (Talk fun e => e.note = none) Halt.Orderly x) : Within Hush Halt.Any x := by
  intro w
  refine wp_mono (h w) ?_ ?_
  · exact fun _ _ ht => ht.hush
  · exact fun _ _ ht => ⟨trivial, ht.2.hush⟩

theorem tried_of_hush {x : M α} (h : Within Hush Halt.Any x) : Within Tried Halt.Any x := h.mono fun _ _ => Hush.tried

theorem checkPendingActions_hush : Within Hush Halt.Any (checkPendingActions T env) :=
  hush_of_talk (checkPendingActions_talk fun _ => SignalReply.note)

theorem vsfLogDebug_hush (msgs : List Bytes) : Within Hush Halt.Any (vsfLogDebug msgs) :=
  hush_of_talk (vsfLogDebug_talk (fun _ => SignalReply.note) msgs)

theorem checkPendingIo_hush (result : ℤ) : Within Hush Halt.Any (checkPendingIo T env result) :=
  hush_of_talk (checkPendingIo_talk (fun _ => SignalReply.note) result)

/-- A change of the session that leaves the log entry and the flag of a timeout. -/
theorem modifySess_hush {f : Session → Session} (hlog : ∀ s, (f s).logType = s.logType)
    (htimeout : ∀ s, (f s).dataTimeout = s.dataTimeout) : Within Hush Halt.Any (modifySess f) := by
  intro w
  refine .of_events rfl (hlog w.sess) ?_
  intro h
  exact (htimeout w.sess).trans h

theorem emit_hush {e : Event} (h : e.note = none) : Within Hush Halt.Any (emit e) := by
  intro w
  refine ⟨⟨[e], rfl, notes_eq_nil ?_⟩, rfl, id⟩
  intro e' he'
  rw [List.mem_singleton.mp he']
  exact h

/-- What the privileged operations change is not told. -/
theorem onBroker_hush (c : Call) (e : PrivEnv) (x : PrivM α) : Within Hush Halt.Any (onBroker T c e x) := by
  unfold onBroker
  apply within_ite <;> exact within_zoom (fun _ => trivial) (fun _ _ => .of_events rfl rfl id) x

theorem active_hush (n : ℕ) : Within Hush Halt.Any (portActive T n) ∧ Within Hush Halt.Any (pasvActive T n) :=
  active_within (onBroker_hush _ _ _) n

theorem portOrPasvActive_hush : Within Hush Halt.Any (portOrPasvActive T) :=
  portOrPasvActive_within (onBroker_hush _ _ _)

theorem portCleanup_hush : Within Hush Halt.Any portCleanup := modifySess_hush (fun _ => rfl) fun _ => rfl

theorem pasvCleanup_hush : Within Hush Halt.Any (pasvCleanup T env) :=
  within_bind within_get fun _ => within_bind (onBroker_hush _ _ _) fun _ => hush_of_talk tick_talk

theorem transferCleanup_hush : Within Hush Halt.Any (transferCleanup T env) :=
  within_bind portCleanup_hush fun _ => pasvCleanup_hush

theorem startDataAlarm_hush : Within Hush Halt.Any (startDataAlarm T) := by
  unfold startDataAlarm
  refine modifySess_hush ?_ ?_ <;> intro s <;> split
  all_goals first | rfl | (split <;> rfl)

theorem initDataSockParams_hush (fd : Fd) : Within Hush Halt.Any (initDataSockParams T env fd) := by
  have hinstall : Within Hush Halt.Any vsfSysutilInstallIoHandler := by
    refine within_bind within_get fun _ => within_ite (within_throw trivial) ?_
    exact modifySess_hush (fun _ => rfl) fun _ => rfl
  refine within_bind within_get fun _ => within_ite (within_throw trivial) ?_
  refine within_bind (modifySess_hush (fun _ => rfl) fun _ => rfl) fun _ => within_ite (within_throw trivial) ?_
  refine within_bind hinstall fun _ => within_bind startDataAlarm_hush fun _ => ?_
  exact within_modify fun _ => .of_events rfl rfl id

theorem getPasvFd_hush : Within Hush Halt.Any (getPasvFd T env) :=
  within_bind (onBroker_hush _ _ _) fun _ => within_bind checkPendingActions_hush fun _ => within_pure _

theorem getPrivDataSock_hush : Within Hush Halt.Any (getPrivDataSock T env) := by
  have hconnect : Within Hush Halt.Any (connectDataSock T env) := by
    refine within_bind within_get fun w => ?_
    cases w.sess.portSockaddr with
    | none => exact within_throw trivial
    | some addr =>
      apply within_ite <;> exact within_zoom (fun _ => trivial) (fun _ _ => .of_events rfl rfl id) _
  exact within_bind hconnect fun _ => within_bind checkPendingActions_hush fun _ => within_pure _

theorem sslAccept_hush : Within Hush Halt.Any (sslAccept env) := by
  refine within_bind within_get fun _ => within_ite (within_throw trivial) ?_
  refine within_bind (vsfLogDebug_hush _) fun _ => ?_
  exact within_bind (modifySess_hush (fun _ => rfl) fun _ => rfl) fun _ => within_pure _

theorem dataHandshake_hush (own : Bool) : Within Hush Halt.Any (dataHandshake T env own) :=
  within_ite sslAccept_hush (within_bind (vsfLogDebug_hush _) fun _ =>
    within_bind checkPendingActions_hush fun _ => within_pure _)

theorem disposeSsl_hush : Within Hush Halt.Any (disposeSsl T env) := by
  refine within_bind within_get fun w => within_ite ?_ (within_ite ?_ (within_pure _))
  · refine within_bind startDataAlarm_hush fun _ => within_bind (vsfLogDebug_hush _) fun _ => ?_
    exact within_bind checkPendingActions_hush fun _ => within_pure _
  · refine within_bind startDataAlarm_hush fun _ => within_bind (vsfLogDebug_hush _) fun _ => ?_
    exact within_bind (modifySess_hush (fun _ => rfl) fun _ => rfl) fun _ => within_pure _

theorem vsfFtpdataioDisposeTransferFd_hush : Within Hush Halt.Any (vsfFtpdataioDisposeTransferFd T env) := by
  have huninstall : Within Hush Halt.Any vsfSysutilUninstallIoHandler := by
    refine within_bind within_get fun _ => within_ite ?_ (within_throw trivial)
    exact modifySess_hush (fun _ => rfl) fun _ => rfl
  refine within_bind within_get fun _ => within_ite (within_throw trivial) ?_
  refine within_bind huninstall fun _ => within_bind disposeSsl_hush fun closed => within_bind within_get fun w => ?_
  refine within_bind (within_when (within_bind startDataAlarm_hush fun _ => ?_)) fun _ => ?_
  · exact within_ite (within_pure _) (within_throw trivial)
  · refine within_bind (modifySess_hush (fun _ => rfl) fun _ => rfl) fun _ => ?_
    exact within_bind within_get fun _ => within_pure _

/-- The reply to an ABOR is not the command's. -/
theorem checkAbor_hush : Within Hush Halt.Any (checkAbor T env) := by
  refine within_bind within_get fun _ => within_when (within_bind ?_ fun _ => ?_)
  · exact modifySess_hush (fun _ => rfl) fun _ => rfl
  · exact hush_of_talk (vsfCmdioWriteStr_talk (by decide) fun _ => SignalReply.note)

end

/-! ### From the mark to the reply -/

/-- Since `w₀` the word `l` was told, and the log entry is `log`. -/
structure Said (w₀ : World) (l : List Note) (log : Option LogEntryType) (w : World) : Prop where
  events : ∃ es, w.events = w₀.events ++ es ∧ notes es = l
  log : w.sess.logType = log

/-- How a transfer ends for its client: it is told that all went well, which is logged first; it gets
another reply; or it gets none, as the transfer has stalled. -/
inductive Outcome (w₀ : World) (log : Option LogEntryType) (w : World) : Prop where
  | complete (l : List Note) (opened : Opened l) (said : Said w₀ (l ++ [.line true, .done true]) none w)
  | answered (l : List Note) (opened : Opened l) (said : Said w₀ (l ++ [.done false]) log w)
  | stalled (l : List Note) (opened : Opened l) (said : Said w₀ l log w) (timeout : w.sess.dataTimeout = true)

/-- What may have been told when the session ends inside a transfer. -/
inductive Cut (w₀ w : World) : Prop where
  | opened (l : List Note) (log : Option LogEntryType) (opened : Opened l) (said : Said w₀ l log w)
  | logged (l : List Note) (opened : Opened l) (said : Said w₀ (l ++ [.line true]) none w)
  | complete (l : List Note) (opened : Opened l) (said : Said w₀ (l ++ [.line true, .done true]) none w)
  | answered (l : List Note) (log : Option LogEntryType) (opened : Opened l) (said : Said w₀ (l ++ [.done false]) log w)

section

variable {T : Tunables} {env : Env} {α β : Type} {w₀ w w' : World} {l : List Note} {log : Option LogEntryType}

theorem said_self (w : World) : Said w [] w.sess.logType w := ⟨⟨[], (List.append_nil _).symm, rfl⟩, rfl⟩

theorem Said.hush (h : Said w₀ l log w) (hw : Hush w w') : Said w₀ l log w' := by
  obtain ⟨es, hes, hl⟩ := h.events
  obtain ⟨es', hes', hnone⟩ := hw.events
  refine ⟨⟨es ++ es', ?_, ?_⟩, hw.log.trans h.log⟩
  · rw [hes', hes, List.append_assoc]
  · rw [notes_append, hl, hnone, List.append_nil]

theorem Said.tried (h : Said w₀ l log w) (hw : Tried w w') : ∃ k, Said w₀ (l ++ tries k) log w' := by
  obtain ⟨es, hes, hl⟩ := h.events
  obtain ⟨k, es', hes', hk⟩ := hw.events
  refine ⟨k, ⟨es ++ es', ?_, ?_⟩, hw.log.trans h.log⟩
  · rw [hes', hes, List.append_assoc]
  · rw [notes_append, hl, hk]

theorem Said.emit (h : Said w₀ l log w) {e : Event} {n : Note} (hn : e.note = some n) :
    Said w₀ (l ++ [n]) log { w with events := w.events ++ [e] } := by
  obtain ⟨es, hes, hl⟩ := h.events
  refine ⟨⟨es ++ [e], ?_, ?_⟩, h.log⟩
  · show w.events ++ [e] = _
    rw [hes, List.append_assoc]
  · rw [notes_append, hl]
    simp [notes, hn]

theorem Outcome.hush (h : Outcome w₀ log w) (hw : Hush w w') : Outcome w₀ log w' := by
  cases h with
  | complete l ho hs => exact .complete l ho (hs.hush hw)
  | answered l ho hs => exact .answered l ho (hs.hush hw)
  | stalled l ho hs ht => exact .stalled l ho (hs.hush hw) (hw.timeout ht)

theorem Outcome.cut (h : Outcome w₀ log w) : Cut w₀ w := by
  cases h with
  | complete l ho hs => exact .complete l ho hs
  | answered l ho hs => exact .answered l log ho hs
  | stalled l ho hs _ => exact .opened l log ho hs

/-- Silent steps in a transfer that goes on. -/
theorem Said.wp_hush (h : Said w₀ l log w) (ho : Opened l) {x : M α} (hx : Within Hush Halt.Any x) :
    wp x (fun _ w' => Said w₀ l log w') (fun _ w' => Cut w₀ w') w := by
  refine wp_mono (hx w) ?_ ?_
  · exact fun _ _ hw => h.hush hw
  · exact fun _ _ hw => .opened l log ho (h.hush hw.2)

theorem Said.bind (h : Said w₀ l log w) (ho : Opened l) {x : M α} {f : α → M β} {Q : β → World → Prop}
    (hx : Within Hush Halt.Any x)
    (hf : ∀ a w', Said w₀ l log w' → wp (f a) Q (fun _ w' => Cut w₀ w') w') :
    wp (x >>= f) Q (fun _ w' => Cut w₀ w') w := by
  rw [wp_bind]
  exact wp_mono (h.wp_hush ho hx) hf (fun _ _ hc => hc)

/-- Silent steps behind its end. -/
theorem Outcome.wp_hush (h : Outcome w₀ log w) {x : M α} (hx : Within Hush Halt.Any x) :
    wp x (fun _ w' => Outcome w₀ log w') (fun _ w' => Cut w₀ w') w := by
  refine wp_mono (hx w) ?_ ?_
  · exact fun _ _ hw => h.hush hw
  · exact fun _ _ hw => (h.hush hw.2).cut

/-- A reply is told once it is written. -/
theorem writeControl_said (h : Said w₀ l log w) {e : Event} {n : Note} (hn : e.note = some n) :
    wp (writeControl T env e) (fun _ w' => Said w₀ (l ++ [n]) log w') (fun _ w' => Said w₀ l log w') w := by
  have hlogged : Said w₀ l log (w.outputLogged T e) :=
    h.hush ((outputLogged_talk e w).mono fun _ => SignalReply.note).hush
  rw [wp_writeControl]
  split
  · exact hlogged.emit hn
  · exact hlogged

theorem vsfCmdioWriteStr_said (h : Said w₀ l log w) {code : ℕ} {msg : Bytes} {n : Note}
    (hn : (Event.reply code msg).note = some n) :
    wp (vsfCmdioWriteStr T env code msg) (fun _ w' => Said w₀ (l ++ [n]) log w')
      (fun _ w' => Said w₀ l log w' ∨ Said w₀ (l ++ [n]) log w') w := by
  unfold vsfCmdioWriteStr
  rw [wp_bind]
  refine wp_mono (writeControl_said h hn) ?_ (fun _ _ hs => .inl hs)
  intro _ w1 hw1
  refine wp_mono (checkPendingActions_hush w1) ?_ ?_
  · exact fun _ _ hw => hw1.hush hw
  · exact fun _ _ hw => .inr (hw1.hush hw.2)

/-- A reply in place of a transfer. -/
theorem refuses_said (h : Said w₀ [] log w) {code : ℕ} {msg : Bytes}
    (hn : (Event.reply code msg).note = some (.done false)) :
    wp (vsfCmdioWriteStr T env code msg) (fun _ w' => Said w₀ [.done false] log w') (fun _ w' => Cut w₀ w') w := by
  refine wp_mono (vsfCmdioWriteStr_said h hn) (fun _ _ hs => hs) ?_
  intro _ _ hs
  rcases hs with hs | hs
  · exact .opened [] log opened_nil hs
  · exact .answered [] log opened_nil hs

/-- The reply a transfer ends with. -/
theorem vsfCmdioWriteStr_answers (h : Said w₀ l log w) (ho : Opened l) {code : ℕ} {msg : Bytes}
    (hn : (Event.reply code msg).note = some (.done false)) :
    wp (vsfCmdioWriteStr T env code msg) (fun _ w' => Outcome w₀ log w') (fun _ w' => Cut w₀ w') w := by
  refine wp_mono (vsfCmdioWriteStr_said h hn) ?_ ?_
  · exact fun _ _ hs => .answered l ho hs
  · intro _ _ hs
    rcases hs with hs | hs
    · exact .opened l log ho hs
    · exact .answered l log ho hs

/-- The same with silent steps behind it. -/
theorem answers_then (h : Said w₀ l log w) (ho : Opened l) {code : ℕ} {msg : Bytes} {x : M α}
    (hn : (Event.reply code msg).note = some (.done false)) (hx : Within Hush Halt.Any x) :
    wp (do vsfCmdioWriteStr T env code msg; x) (fun _ w' => Outcome w₀ log w') (fun _ w' => Cut w₀ w') w := by
  rw [wp_bind]
  refine wp_mono (vsfCmdioWriteStr_answers h ho hn) ?_ (fun _ _ hc => hc)
  exact fun _ _ hout => hout.wp_hush hx

/-! ### Making the connection -/

/-- The checks in front of a transfer answer it themselves when they fail. -/
theorem dataTransferChecksOk_said (h : Said w₀ [] log w) :
    wp (dataTransferChecksOk T env) (fun ok w' => Said w₀ (if ok then [] else [.done false]) log w')
      (fun _ w' => Cut w₀ w') w := by
  have hrefuse : ∀ (w1 : World) (code : ℕ) (msg : String), Said w₀ [] log w1 →
      (Event.reply code (text msg)).note = some (.done false) →
      wp (do vsfCmdioWrite T env code msg; pure false)
        (fun ok w' => Said w₀ (if ok then [] else [.done false]) log w') (fun _ w' => Cut w₀ w') w1 := by
    intro w1 code msg hw1 hn
    rw [wp_bind]
    exact wp_mono (refuses_said hw1 hn) (fun _ _ hs => hs) (fun _ _ hc => hc)
  unfold dataTransferChecksOk
  refine h.bind opened_nil portOrPasvActive_hush fun active w1 hw1 => ?_
  apply wp_cases
  · intro _
    exact hrefuse w1 _ _ hw1 (note_reply _ (by decide) (by decide))
  intro _
  rw [wp_bind, wp_get]
  apply wp_cases
  · intro _
    exact hrefuse w1 _ _ hw1 (note_reply _ (by decide) (by decide))
  · exact fun _ => hw1

/-- The handshake behind the mark answers the transfer when it fails. -/
theorem vsfFtpdataioPostMarkConnect_said (h : Said w₀ [.mark] log w) :
    wp (vsfFtpdataioPostMarkConnect T env)
      (fun ok w' => if ok then Said w₀ [.mark] log w' else Outcome w₀ log w') (fun _ w' => Cut w₀ w') w := by
  have hanswer : ∀ (ret : Bool) (w1 : World), Said w₀ [.mark] log w1 →
      wp (handshakeAnswer T env ret)
        (fun ok w' => if ok then Said w₀ [.mark] log w' else Outcome w₀ log w') (fun _ w' => Cut w₀ w') w1 := by
    intro ret w1 hw1
    apply wp_cases
    · exact fun _ => hw1
    intro _
    apply wp_cases
    · -- the session ends with that reply
      intro _
      unfold vsfCmdioWriteExit
      rw [wp_bind]
      refine wp_mono (writeControl_said hw1 (note_reply _ (by decide) (by decide))) ?_ ?_
      · exact fun _ _ hs => .answered [.mark] log opened_mark hs
      · exact fun _ _ hs => .opened [.mark] log opened_mark hs
    · intro _
      rw [wp_bind]
      refine wp_mono (vsfCmdioWriteStr_answers hw1 opened_mark (note_reply _ (by decide) (by decide))) ?_
        (fun _ _ hc => hc)
      exact fun _ _ hout => hout
  rw [vsfFtpdataioPostMarkConnect_eq, wp_bind, wp_get]
  apply wp_cases
  · exact fun _ => h
  intro _
  exact h.bind opened_mark (dataHandshake_hush _) hanswer

/-- One way or the other, the connection is there or a reply says why not. -/
theorem connectTransfer_said (h : Said w₀ [] log w) (pasv : Bool) :
    wp (connectTransfer T env pasv)
      (fun ok w' => if ok then Said w₀ [] log w' else Outcome w₀ log w') (fun _ w' => Cut w₀ w') w := by
  have hfail : ∀ (w1 : World) (msg : String), Said w₀ [] log w1 →
      wp (do vsfCmdioWrite T env ftpBadsendconn msg; pure false)
        (fun ok w' => if ok then Said w₀ [] log w' else Outcome w₀ log w') (fun _ w' => Cut w₀ w') w1 := by
    intro w1 msg hw1
    rw [wp_bind]
    refine wp_mono (vsfCmdioWriteStr_answers hw1 opened_nil (note_reply _ (by decide) (by decide))) ?_
      (fun _ _ hc => hc)
    exact fun _ _ hout => hout
  have hinit : ∀ (w1 : World) (fd : Fd), Said w₀ [] log w1 →
      wp (do initDataSockParams T env fd; pure true)
        (fun ok w' => if ok then Said w₀ [] log w' else Outcome w₀ log w') (fun _ w' => Cut w₀ w') w1 :=
    fun w1 fd hw1 => hw1.bind opened_nil (initDataSockParams_hush fd) fun _ _ hw2 => hw2
  refine wp_cases (fun _ => ?_) fun _ => ?_
  · refine h.bind opened_nil getPasvFd_hush fun conn w1 hw1 => ?_
    cases conn with
    | error e => exact hfail w1 _ hw1
    | ok fd => exact hinit w1 fd hw1
  · refine h.bind opened_nil getPrivDataSock_hush fun sock w1 hw1 => ?_
    cases sock with
    | none => exact hfail w1 _ hw1
    | some fd => exact hinit w1 fd hw1

theorem markTransfer_said (h : Said w₀ [] log w) (msg : Bytes) :
    wp (markTransfer T env msg)
      (fun ok w' => if ok then Said w₀ [.mark] log w' else Outcome w₀ log w') (fun _ w' => Cut w₀ w') w := by
  unfold markTransfer
  rw [wp_bind]
  refine wp_mono (vsfCmdioWriteStr_said h (note_mark msg)) ?_ ?_
  · intro _ w1 hw1
    rw [wp_bind]
    refine wp_mono (vsfFtpdataioPostMarkConnect_said hw1) ?_ (fun _ _ hc => hc)
    intro ok w2 hw2
    cases ok with
    | true => exact hw2
    | false =>
      have hout : Outcome w₀ log w2 := hw2
      simp only [Bool.false_eq_true, if_false, wp_bind, wp_pure]
      exact hout.wp_hush vsfFtpdataioDisposeTransferFd_hush
  · intro _ w1 hw1
    rcases hw1 with hw1 | hw1
    · exact .opened [] log opened_nil hw1
    · exact .opened [.mark] log opened_mark hw1

/-- **The client gets the mark once the connection is there**, or the reply that says why not. -/
theorem getRemoteTransferFd_said (h : Said w₀ [] log w) (msg : Bytes) :
    wp (getRemoteTransferFd T env msg)
      (fun ok w' => if ok then Said w₀ [.mark] log w' else Outcome w₀ log w') (fun _ w' => Cut w₀ w') w := by
  rw [getRemoteTransferFd_eq]
  refine h.bind opened_nil portOrPasvActive_hush fun active w1 hw1 => ?_
  apply wp_cases
  · exact fun _ => .opened [] log opened_nil hw1
  intro _
  refine hw1.bind opened_nil (modifySess_hush (fun _ => rfl) fun _ => rfl) fun _ w2 hw2 => ?_
  refine hw2.bind opened_nil (active_hush _).2 fun pasv w3 hw3 => ?_
  rw [wp_bind]
  refine wp_mono (connectTransfer_said hw3 pasv) ?_ (fun _ _ hc => hc)
  intro connected w4 hw4
  cases connected with
  | false => exact hw4
  | true => exact markTransfer_said hw4 msg

/-! ### The transfer -/

theorem emit_tried_log {e e' : Event} (he : e.note = some .failed) (he' : e'.note = some (.line true)) (w : World) :
    Tried w { w with events := w.events ++ [e, e'] } := by
  refine ⟨⟨1, [e, e'], rfl, ?_⟩, rfl, id⟩
  simp [notes, he, he', tries]

theorem fileDownload_tried (path : Bytes) (o len call : ℕ) : Within Tried Halt.Any (fileDownload env path o len call) := by
  intro w
  rw [wp_fileDownload]
  unfold downloadEvents
  simp only []
  split
  · rename_i hneg
    refine emit_tried_log ?_ rfl w
    simp [Event.note, hneg]
  · rename_i hok
    refine Hush.tried ⟨⟨[_], rfl, ?_⟩, rfl, id⟩
    simp [notes, Event.note, hok]

theorem fileUpload_tried (srcPath path : Bytes) (i : ℕ) : Within Tried Halt.Any (fileUpload T env srcPath path i) := by
  intro w
  rw [wp_fileUpload]
  unfold uploadEvents
  cases env.fileUpload i with
  | false => exact emit_tried_log rfl rfl w
  | true => exact Hush.tried ⟨⟨[_], rfl, rfl⟩, rfl, id⟩

theorem ftpWriteData_hush (buf : Bytes) : Within Hush Halt.Any (ftpWriteData T env buf) := by
  refine within_bind within_get fun w => within_bind (within_modify fun _ => .of_events rfl rfl id) fun _ => ?_
  exact within_bind (emit_hush rfl) fun _ => within_bind (checkPendingIo_hush _) fun _ => within_pure _

theorem doFileSendRwloop_tried (path : Bytes) (isAscii : Bool) (offset size : ℕ) :
    Within Tried Halt.Any (doFileSendRwloop T env path isAscii offset size) := by
  refine within_bind (sendLoop_within ?_ ?_ _ _ _ _) fun r => ?_
  · exact fileDownload_tried path
  · exact fun buf => tried_of_hush (ftpWriteData_hush buf)
  · cases r with
    | inl st => exact within_throw trivial
    | inr ret => exact within_pure _

theorem RecvEvent.note {e : Event} (h : RecvEvent e) : e.note = none := by
  cases h with
  | read result => rfl
  | signal h => exact h.note

theorem Flow.hush {es : List Event} (h : Flow w w' es) : Hush w w' := by
  have hlog : w'.sess.logType = w.sess.logType := by
    show w'.sess.core.logType = w.sess.core.logType
    rw [h.core]
  exact ⟨⟨es, h.events, notes_eq_nil fun e he => (h.kind e he).note⟩, hlog, h.timeout⟩

theorem doFileRecv_hush (file : Inode.OpenFile) (isAscii : Bool) (haveRecvLen : ℕ) :
    Within Hush Halt.Any (doFileRecv T env file isAscii haveRecvLen) := by
  intro w
  refine wp_mono (doFileRecv_spec file isAscii haveRecvLen w) ?_ ?_
  · intro _ w' hw'
    obtain ⟨es, hflow, -⟩ := hw'.flow
    exact hflow.hush
  · intro _ w' hw'
    obtain ⟨-, es, hflow⟩ := hw'
    exact ⟨trivial, hflow.hush⟩

/-! ### RETR -/

/-- The entry of a transfer is logged. -/
theorem vsfLogDoLog_said {what : LogEntryType} (h : Said w₀ l (some what) w)
    (hwhat : what = .download ∨ what = .upload) (succeeded : Bool) :
    wp (vsfLogDoLog succeeded) (fun _ w' => Said w₀ (l ++ [.line succeeded]) none w') (fun _ _ => False) w := by
  obtain ⟨es, hes, hl⟩ := h.events
  unfold vsfLogDoLog
  simp only [wp_bind, wp_get, wp_modify, h.log]
  refine ⟨⟨es ++ [.log what succeeded w.sess.logStr w.sess.logView], ?_, ?_⟩, rfl⟩
  · show w.events ++ [_] = _
    rw [hes, List.append_assoc]
  · rw [notes_append, hl]
    rcases hwhat with rfl | rfl <;> rfl

/-- The word that all went well, behind the line of the log. -/
theorem complete_said (h : Said w₀ (l ++ [.line true]) none w) (ho : Opened l) (log : Option LogEntryType) :
    wp (vsfCmdioWriteStr T env ftpTransferok (text "Transfer complete.")) (fun _ w' => Outcome w₀ log w')
      (fun _ w' => Cut w₀ w') w := by
  refine wp_mono (vsfCmdioWriteStr_said h (n := .done true) (by decide)) ?_ ?_
  · intro _ w1 hw1
    rw [List.append_assoc] at hw1
    exact .complete l ho hw1
  · intro _ w1 hw1
    rcases hw1 with hw1 | hw1
    · exact .logged l ho hw1
    · rw [List.append_assoc] at hw1
      exact .complete l ho hw1

/-- The reply to a failure of the network, which a transfer that stalled does not get. -/
theorem unlessStalled_said (h : Said w₀ l log w) (ho : Opened l) {msg : String} :
    wp (do
      let w ← get
      when (!w.sess.dataTimeout) (vsfCmdioWrite T env ftpBadsendnet msg))
      (fun _ w' => Outcome w₀ log w') (fun _ w' => Cut w₀ w') w := by
  rw [wp_bind, wp_get, wp_when]
  split
  · exact vsfCmdioWriteStr_answers h ho (note_reply _ (by decide) (by decide))
  · rename_i htimeout
    exact .stalled l ho h (by simpa using htimeout)

theorem retrResult_said (h : Said w₀ l (some .download) w) (ho : Opened l) {ret : TransferRet} (hret : ret.Usual)
    (disposed : Bool) :
    wp (retrResult T env ret disposed) (fun _ w' => Outcome w₀ (some .download) w') (fun _ w' => Cut w₀ w') w := by
  unfold retrResult
  have hretval : (if !disposed ∧ ret.retval = 0 then -2 else ret.retval) = 0 ∨
      (if !disposed ∧ ret.retval = 0 then -2 else ret.retval) = -1 ∨
      (if !disposed ∧ ret.retval = 0 then -2 else ret.retval) = -2 := by
    split
    · exact .inr (.inr rfl)
    · exact hret
  revert hretval
  generalize (if !disposed ∧ ret.retval = 0 then -2 else ret.retval) = retval
  intro hretval
  refine h.bind ho (modifySess_hush (fun _ => rfl) fun _ => rfl) fun _ w1 hw1 => ?_
  have habor : ∀ {x : M Unit} {w2 : World},
      wp x (fun _ w' => Outcome w₀ (some .download) w') (fun _ w' => Cut w₀ w') w2 →
      wp (do x; checkAbor T env) (fun _ w' => Outcome w₀ (some .download) w') (fun _ w' => Cut w₀ w') w2 := by
    intro x w2 hx
    rw [wp_bind]
    refine wp_mono hx ?_ (fun _ _ hc => hc)
    exact fun _ _ hout => hout.wp_hush checkAbor_hush
  rw [wp_bind, wp_when]
  rcases hretval with rfl | rfl | rfl
  · rw [if_pos rfl]
    refine wp_mono (vsfLogDoLog_said hw1 (.inl rfl) true) ?_ (fun _ _ hf => hf.elim)
    exact fun _ w2 hw2 => habor (complete_said hw2 ho _)
  · exact habor (vsfCmdioWriteStr_answers hw1 ho (note_reply _ (by decide) (by decide)))
  · exact habor (unlessStalled_said hw1 ho)

/-- **A command that makes the connection, uses it and closes it** is answered once. -/
theorem transferring_said {transfer : M α} {rest : α → Bool → M Unit} {R : α → Prop} (h : Said w₀ [] log w)
    (htransfer : Within Tried Halt.Any transfer) (hR : ∀ w, wp transfer (fun a _ => R a) (fun _ _ => True) w)
    (hrest : ∀ a ok l w, R a → Said w₀ l log w → Opened l →
      wp (rest a ok) (fun _ w' => Outcome w₀ log w') (fun _ w' => Cut w₀ w') w) (msg : Bytes) :
    wp (do
      let connected ← getRemoteTransferFd T env msg
      if !connected then transferCleanup T env
      else do
        let ret ← transfer
        let disposed ← vsfFtpdataioDisposeTransferFd T env
        rest ret disposed
        transferCleanup T env)
      (fun _ w' => Outcome w₀ log w') (fun _ w' => Cut w₀ w') w := by
  rw [wp_bind]
  refine wp_mono (getRemoteTransferFd_said h msg) ?_ (fun _ _ hc => hc)
  intro connected w1 hw1
  cases connected with
  | false =>
    have hout : Outcome w₀ log w1 := hw1
    exact hout.wp_hush transferCleanup_hush
  | true =>
    have hmark : Said w₀ [.mark] log w1 := hw1
    simp only [Bool.not_true, Bool.false_eq_true, if_false]
    rw [wp_bind]
    refine wp_mono (wp_and (htransfer w1) (hR w1)) ?_ ?_
    · intro ret w2 hw2
      obtain ⟨k, hsaid⟩ := hmark.tried hw2.1
      have ho : Opened ([.mark] ++ tries k) := opened_mark.append_tries k
      refine hsaid.bind ho vsfFtpdataioDisposeTransferFd_hush fun disposed w3 hw3 => ?_
      rw [wp_bind]
      refine wp_mono (hrest ret disposed _ w3 hw2.2 hw3 ho) ?_ (fun _ _ hc => hc)
      exact fun _ _ hout => hout.wp_hush transferCleanup_hush
    · intro _ w2 hw2
      obtain ⟨k, hsaid⟩ := hmark.tried hw2.1.2
      exact .opened _ log (opened_mark.append_tries k) hsaid

theorem retrChecked_said (h : Said w₀ [] (some .download) w) (arg : Bytes) (offset : ℕ) :
    wp (retrChecked T env arg offset) (fun _ w' => Outcome w₀ (some .download) w') (fun _ w' => Cut w₀ w') w := by
  unfold retrChecked
  refine h.bind opened_nil (within_bind within_get fun _ => within_pure _) fun allowed w1 hw1 => ?_
  apply wp_cases
  · exact fun _ => vsfCmdioWriteStr_answers hw1 opened_nil (note_reply _ (by decide) (by decide))
  intro _
  have hstat : Within Hush Halt.Any (cosStatFile T env arg) :=
    within_bind within_get fun _ => within_bind (emit_hush rfl) fun _ =>
      within_bind (within_when (vsfLogDebug_hush _)) fun _ => within_pure _
  refine hw1.bind opened_nil hstat fun size w2 hw2 => ?_
  cases size with
  | none => exact vsfCmdioWriteStr_answers hw2 opened_nil (note_reply _ (by decide) (by decide))
  | some size =>
    unfold retrTransfer
    rw [wp_bind, wp_get]
    refine transferring_said hw2 (doFileSendRwloop_tried _ _ _ _) (doFileSendRwloop_usual _ _ _ _) ?_ _
    exact fun ret disposed l w3 hret hw3 ho => retrResult_said hw3 ho hret disposed

/-- A RETR comes to its log entry. -/
def RetrStarts (T : Tunables) (w : World) : Prop :=
  DataReady T w ∧ ¬ (w.sess.isAscii = true ∧ w.sess.restartPos ≠ 0)

/-- The checks decide whether the connection may be used. -/
theorem dataTransferChecksOk_decides (h : Said w₀ [] log w) :
    wp (dataTransferChecksOk T env)
      (fun ok w' => (ok = true ∧ DataReady T w ∧ Said w₀ [] log w') ∨
        (ok = false ∧ ¬ DataReady T w ∧ Said w₀ [.done false] log w')) (fun _ w' => Cut w₀ w') w := by
  by_cases hready : DataReady T w
  · obtain ⟨_, ⟨calls, rfl⟩, hchecks⟩ := dataTransferChecksOk_of_ready env hready
    rw [wp_of_ok hchecks]
    exact .inl ⟨rfl, hready, h.events, h.log⟩
  · refine wp_mono (wp_and (dataTransferChecksOk_said h) (dataTransferChecksOk_ready w)) ?_ (fun _ _ hc => hc.1)
    intro ok w1 hw1
    cases ok with
    | true => exact absurd (hw1.2.2 rfl).2 hready
    | false => exact .inr ⟨rfl, hready, hw1.1⟩

/-- A log entry is started where there is none. -/
theorem vsfLogStartEntry_said (h : Said w₀ [] log w) (what : LogEntryType) :
    wp (vsfLogStartEntry what) (fun _ w' => Said w₀ [] (some what) w') (fun _ w' => Cut w₀ w') w := by
  unfold vsfLogStartEntry modifySess
  simp only [wp_bind, wp_get, wp_ite, wp_throw, wp_modify]
  split
  · exact .opened [] log opened_nil h
  · exact ⟨h.events, rfl⟩

/-- RETR and STOR forget the restart position and check the connection; the rest is for a session that is ready. -/
theorem wp_checked {rest : World → M Unit} {Q : Unit → World → Prop} (w : World)
    (hready : DataReady T w → ∀ w1, Said w [] w.sess.logType w1 → wp (rest w) Q (fun _ w' => Cut w w') w1)
    (hrefused : ¬ DataReady T w → ∀ w1, Said w [.done false] w.sess.logType w1 → Q () w1) :
    wp (do
      let w ← get
      modifySess fun s => { s with restartPos := 0 }
      let ok ← dataTransferChecksOk T env
      if !ok then pure () else rest w) Q (fun _ w' => Cut w w') w := by
  have hrestart : Said w [] w.sess.logType { w with sess := { w.sess with restartPos := 0 } } :=
    ⟨(said_self w).events, rfl⟩
  rw [wp_bind, wp_get, wp_bind, modifySess, wp_modify, wp_bind]
  refine wp_mono (dataTransferChecksOk_decides hrestart) ?_ (fun _ _ hc => hc)
  intro ok w1 hw1
  rcases hw1 with ⟨rfl, hdata, hw1⟩ | ⟨rfl, hdata, hw1⟩
  · exact hready ⟨hdata.exclusive, hdata.active, hdata.plain⟩ w1 hw1
  · exact hrefused (fun h => hdata ⟨h.exclusive, h.active, h.plain⟩) w1 hw1

theorem handleRetr_said (arg : Bytes) (w : World) :
    wp (handleRetr T env arg)
      (fun _ w' => (RetrStarts T w ∧ Outcome w (some .download) w') ∨
        (¬ RetrStarts T w ∧ Said w [.done false] w.sess.logType w')) (fun _ w' => Cut w w') w := by
  unfold handleRetr
  refine wp_checked w (fun hdata w1 hw1 => ?_) fun hdata w1 hw1 => .inr ⟨fun hstarts => hdata hstarts.1, hw1⟩
  apply wp_cases
  · intro hascii
    refine wp_mono (refuses_said hw1 (note_reply _ (by decide) (by decide))) ?_ (fun _ _ hc => hc)
    exact fun _ _ hs => .inr ⟨fun hstarts => hstarts.2 hascii, hs⟩
  intro hascii
  refine hw1.bind opened_nil (within_bind within_get fun _ => within_pure _) fun arg w2 hw2 => ?_
  rw [wp_bind]
  refine wp_mono (vsfLogStartEntry_said hw2 .download) ?_ (fun _ _ hc => hc)
  intro _ w3 hw3
  refine hw3.bind opened_nil (within_bind within_get fun _ => within_pure _) fun filename w4 hw4 => ?_
  refine hw4.bind opened_nil (modifySess_hush (fun _ => rfl) fun _ => rfl) fun _ w5 hw5 => ?_
  refine wp_mono (retrChecked_said hw5 arg _) ?_ (fun _ _ hc => hc)
  exact fun _ _ hout => .inl ⟨⟨hdata, hascii⟩, hout⟩

/-! ### LIST and NLST -/

theorem dirResult_said (h : Said w₀ l log w) (ho : Opened l) (sent disposed : Bool) :
    wp (dirResult T env sent disposed) (fun _ w' => Outcome w₀ log w') (fun _ w' => Cut w₀ w') w := by
  have hreply : wp (dirReply T env sent disposed) (fun _ w' => Outcome w₀ log w') (fun _ w' => Cut w₀ w') w := by
    unfold dirReply
    rw [wp_bind, wp_get]
    apply wp_cases
    · exact fun _ => unlessStalled_said h ho
    · exact fun _ => vsfCmdioWriteStr_answers h ho (by decide)
  unfold dirResult
  rw [wp_bind]
  refine wp_mono hreply ?_ (fun _ _ hc => hc)
  exact fun _ _ hout => hout.wp_hush checkAbor_hush

theorem listTransfer_said (h : Said w₀ [] log w) (respmsgs lines : List Bytes) :
    wp (listTransfer T env respmsgs lines) (fun _ w' => Outcome w₀ log w') (fun _ w' => Cut w₀ w') w := by
  have hwrite : ∀ str, Within Hush Halt.Any (ftpWriteStrData T env str) := fun str =>
    within_bind (ftpWriteData_hush str) fun _ => within_pure _
  have hlines : Within Hush Halt.Any (transferDirInternal (ftpWriteStrData T env) respmsgs lines) :=
    transferDirInternal_within vsfLogDebug_hush hwrite respmsgs lines
  refine transferring_said (R := fun _ => True) h (tried_of_hush hlines) ?_ ?_ _
  · exact fun w1 => wp_true _ w1
  · exact fun sent disposed l w1 _ hw1 ho => dirResult_said hw1 ho sent disposed

theorem cosIsdir_hush (path : Bytes) : Within Hush Halt.Any (cosIsdir T env path) := by
  refine within_bind ?_ fun isDir => within_ite (within_pure _) (within_bind ?_ fun _ => within_pure _)
  · exact within_bind within_get fun _ => within_bind (emit_hush rfl) fun _ =>
      within_bind (within_when (vsfLogDebug_hush _)) fun _ => within_pure _
  · exact within_bind within_get fun _ => within_bind (emit_hush rfl) fun _ =>
      within_bind (within_when (vsfLogDebug_hush _)) fun _ => within_pure _

theorem handleDirCommon_said (fullDetails : Bool) (arg : Bytes) (w : World) :
    wp (handleDirCommon T env fullDetails false arg) (fun _ w' => Outcome w w.sess.logType w')
      (fun _ w' => Cut w w') w := by
  unfold handleDirCommon dirChecksOk
  rw [if_neg Bool.false_ne_true, wp_bind]
  refine wp_mono (dataTransferChecksOk_said (said_self w)) ?_ (fun _ _ hc => hc)
  intro ok w1 hw1
  cases ok with
  | false => exact .answered [] opened_nil hw1
  | true =>
    have hsaid : Said w [] w.sess.logType w1 := hw1
    simp only [Bool.not_true, Bool.false_eq_true, if_false]
    apply wp_cases
    · exact fun _ => listTransfer_said hsaid _ _
    intro _
    unfold dirFiltered listsDirectory
    refine hsaid.bind opened_nil (within_bind within_get fun _ => within_pure _) fun filter w2 hw2 => ?_
    refine hw2.bind opened_nil (within_bind within_get fun _ => within_pure _) fun allowed w3 hw3 => ?_
    apply wp_cases
    · exact fun _ => vsfCmdioWriteStr_answers hw3 opened_nil (note_reply _ (by decide) (by decide))
    intro _
    rw [if_neg Bool.false_ne_true]
    exact hw3.bind opened_nil (cosIsdir_hush _) fun isDir w4 hw4 => listTransfer_said hw4 _ _

/-! ### STOR -/

theorem strUnlink_hush (path : Bytes) : Within Hush Halt.Any (strUnlink env path) := by
  refine within_modify fun w => ?_
  split
  · exact .of_events rfl rfl id
  · exact Std.Refl.refl w

theorem orDie_hush (ok : Bool) (what : String) : Within Hush Halt.Any (orDie ok what) :=
  within_ite (within_pure ()) (within_throw trivial)

theorem uploadCleanup_hush (filename : Bytes) (pasvCleaned success : Bool) :
    Within Hush Halt.Any (uploadCleanup T env filename pasvCleaned success) := by
  refine within_bind portCleanup_hush fun _ => within_bind (within_when pasvCleanup_hush) fun _ => ?_
  exact within_bind (within_when (strUnlink_hush _)) fun _ => orDie_hush _ _

theorem uploadToCos_said (h : Said w₀ l (some .upload) w) (ho : Opened l) (arg filename : Bytes) :
    wp (uploadToCos T env arg filename) (fun _ w' => Outcome w₀ (some .upload) w') (fun _ w' => Cut w₀ w') w := by
  unfold uploadToCos
  refine h.bind ho portCleanup_hush fun _ w0 hw0 => hw0.bind ho (vsfLogDebug_hush _) fun _ w1 hw1 => ?_
  rw [wp_bind]
  refine wp_mono (cosUploadFile_within (fileUpload_tried filename arg) w1) ?_ ?_
  · intro ok w2 hw2
    obtain ⟨k, hsaid⟩ := hw1.tried hw2
    have ho' : Opened (l ++ tries k) := ho.append_tries k
    apply wp_cases
    · exact fun _ => answers_then hsaid ho' (note_reply _ (by decide) (by decide)) (within_pure _)
    intro _
    rw [wp_bind]
    refine wp_mono (vsfLogDoLog_said hsaid (.inr rfl) true) ?_ (fun _ _ hf => hf.elim)
    intro _ w3 hw3
    rw [wp_bind]
    refine wp_mono (complete_said hw3 ho' (some .upload)) ?_ (fun _ _ hc => hc)
    exact fun _ _ hout => hout.wp_hush (within_bind (strUnlink_hush _) fun _ => within_pure _)
  · intro _ w2 hw2
    obtain ⟨k, hsaid⟩ := hw1.tried hw2.2
    exact .opened _ _ (ho.append_tries k) hsaid

theorem uploadResult_said (h : Said w₀ l (some .upload) w) (ho : Opened l) (arg filename : Bytes) {retval : ℤ}
    (hretval : retval = 0 ∨ retval = -1 ∨ retval = -2) :
    wp (uploadResult T env arg filename retval) (fun _ w' => Outcome w₀ (some .upload) w')
      (fun _ w' => Cut w₀ w') w := by
  unfold uploadResult
  rcases hretval with rfl | rfl | rfl
  · exact uploadToCos_said h ho arg filename
  · exact answers_then h ho (note_reply _ (by decide) (by decide)) (within_pure _)
  · have hnet : wp (do
        let w ← get
        when (!w.sess.dataTimeout) (vsfCmdioWrite T env ftpBadsendnet "Failure reading network stream."))
        (fun _ w' => Outcome w₀ (some .upload) w') (fun _ w' => Cut w₀ w') w := unlessStalled_said h ho
    rw [wp_bind, wp_get] at hnet
    show wp (do
      let w ← get
      when (!w.sess.dataTimeout) (vsfCmdioWrite T env ftpBadsendnet "Failure reading network stream.")
      pure false) _ _ w
    rw [wp_bind, wp_get, wp_bind]
    exact wp_mono hnet (fun _ _ hout => hout) (fun _ _ hc => hc)

theorem uploadTransfer_said (h : Said w₀ [] (some .upload) w) (arg filename : Bytes) (file : Inode.OpenFile)
    (haveRecvLen : ℕ) :
    wp (uploadTransfer T env arg filename file haveRecvLen) (fun _ w' => Outcome w₀ (some .upload) w')
      (fun _ w' => Cut w₀ w') w := by
  unfold uploadTransfer
  rw [wp_bind]
  refine wp_mono (getRemoteTransferFd_said h _) ?_ (fun _ _ hc => hc)
  intro connected w1 hw1
  cases connected with
  | false =>
    have hout : Outcome w₀ (some .upload) w1 := hw1
    exact hout.wp_hush (uploadCleanup_hush _ _ _)
  | true =>
    have hmark : Said w₀ [.mark] (some .upload) w1 := hw1
    simp only [Bool.not_true, Bool.false_eq_true, if_false]
    refine hmark.bind opened_mark pasvCleanup_hush fun _ w2 hw2 => ?_
    rw [wp_bind, wp_get, wp_bind]
    refine wp_mono (wp_and (hw2.wp_hush opened_mark (doFileRecv_hush file _ haveRecvLen)) (doFileRecv_usual w2)) ?_
      (fun _ _ hc => hc.1)
    intro ret w3 hw3
    obtain ⟨hw3, hret⟩ := hw3
    refine hw3.bind opened_mark vsfFtpdataioDisposeTransferFd_hush fun disposed w4 hw4 => ?_
    refine hw4.bind opened_mark (modifySess_hush (fun _ => rfl) fun _ => rfl) fun _ w5 hw5 => ?_
    have hretval : (if !disposed ∧ ret.retval = 0 then -2 else ret.retval) = 0 ∨
        (if !disposed ∧ ret.retval = 0 then -2 else ret.retval) = -1 ∨
        (if !disposed ∧ ret.retval = 0 then -2 else ret.retval) = -2 := by
      split
      · exact .inr (.inr rfl)
      · exact hret
    rw [wp_bind]
    refine wp_mono (uploadResult_said hw5 opened_mark arg filename hretval) ?_ (fun _ _ hc => hc)
    intro success w6 hout
    exact hout.wp_hush (within_bind checkAbor_hush fun _ => uploadCleanup_hush _ _ _)

theorem uploadOpened_said (h : Said w₀ [] (some .upload) w) (arg filename : Bytes) (offset : ℕ) (file : Inode.OpenFile)
    (fileLen : ℕ) :
    wp (uploadOpened T env arg filename offset file fileLen) (fun _ w' => Outcome w₀ (some .upload) w')
      (fun _ w' => Cut w₀ w') w := by
  have hchown : Within Hush Halt.Any (chownUpload T env) :=
    within_bind within_get fun _ => within_when (within_bind (orDie_hush _ _) fun _ => onBroker_hush _ _ _)
  have hlock : Within Hush Halt.Any (lockUpload T env) := by
    refine within_ite (within_bind within_get fun _ => within_bind ?_ fun _ => ?_) (within_pure _)
    · exact hush_of_talk (interrupted_talk (fun _ => SignalReply.note) _)
    · exact within_bind checkPendingActions_hush fun _ => within_pure _
  have htruncate : Within Hush Halt.Any (truncateUpload env file) := by
    refine within_bind (orDie_hush _ _) fun _ => within_bind ?_ fun _ => orDie_hush _ _
    exact within_modify fun _ => .of_events rfl rfl id
  have hunlink : Within Hush Halt.Any (cosUnlink T env filename) :=
    cosUnlink_within (fun _ => emit_hush rfl) (fun _ _ => emit_hush rfl) filename
  unfold uploadOpened
  refine h.bind opened_nil hchown fun _ w1 hw1 => hw1.bind opened_nil hlock fun locked w2 hw2 => ?_
  apply wp_cases
  · exact fun _ => answers_then hw2 opened_nil (note_reply _ (by decide) (by decide)) (uploadCleanup_hush _ _ _)
  intro _
  apply wp_cases
  · intro _
    exact hw2.bind opened_nil (within_when htruncate) fun _ w3 hw3 => uploadTransfer_said hw3 _ _ _ _
  intro _
  apply wp_cases
  · intro _
    refine answers_then hw2 opened_nil (note_reply _ (by decide) (by decide)) ?_
    exact within_bind hunlink fun _ => uploadCleanup_hush _ _ _
  · intro _
    exact hw2.bind opened_nil (orDie_hush _ _) fun _ w3 hw3 => uploadTransfer_said hw3 _ _ _ _

theorem uploadChecked_said (h : Said w₀ [] (some .upload) w) (arg filename : Bytes) (offset : ℕ) :
    wp (uploadChecked T env arg filename offset) (fun _ w' => Outcome w₀ (some .upload) w') (fun _ w' => Cut w₀ w')
      w := by
  have hcreate : ∀ exclusive, Within Hush Halt.Any (strCreate env exclusive filename) := by
    intro exclusive
    refine within_bind within_get fun w => within_bind (emit_hush rfl) fun _ => within_ite (within_pure _) ?_
    exact within_bind (within_modify fun _ => .of_events rfl rfl id) fun _ => within_pure _
  unfold uploadChecked
  refine h.bind opened_nil (within_bind within_get fun _ => within_pure _) fun allowed w1 hw1 => ?_
  apply wp_cases
  · exact fun _ => vsfCmdioWriteStr_answers hw1 opened_nil (note_reply _ (by decide) (by decide))
  intro _
  rw [wp_bind, wp_get]
  refine hw1.bind opened_nil (hcreate _) fun file w2 hw2 => ?_
  cases file with
  | none => exact vsfCmdioWriteStr_answers hw2 opened_nil (note_reply _ (by decide) (by decide))
  | some file =>
    rw [wp_bind, wp_get]
    exact uploadOpened_said hw2 _ _ _ _ _

theorem handleUploadCommon_said (arg : Bytes) (w : World) :
    wp (handleUploadCommon T env arg)
      (fun _ w' => (DataReady T w ∧ Outcome w (some .upload) w') ∨
        (¬ DataReady T w ∧ Said w [.done false] w.sess.logType w')) (fun _ w' => Cut w w') w := by
  unfold handleUploadCommon
  refine wp_checked w (fun hdata w1 hw1 => ?_) fun hdata w1 hw1 => .inr ⟨hdata, hw1⟩
  refine hw1.bind opened_nil (within_bind within_get fun _ => within_pure _) fun arg w2 hw2 => ?_
  refine hw2.bind opened_nil (within_bind within_get fun _ => within_pure _) fun filename w3 hw3 => ?_
  rw [wp_bind]
  refine wp_mono (vsfLogStartEntry_said hw3 .upload) ?_ (fun _ _ hc => hc)
  intro _ w4 hw4
  refine hw4.bind opened_nil (modifySess_hush (fun _ => rfl) fun _ => rfl) fun _ w5 hw5 => ?_
  refine wp_mono (uploadChecked_said hw5 arg filename _) ?_ (fun _ _ hc => hc)
  exact fun _ _ hout => .inl ⟨hdata, hout⟩

end

/-! ### One reply for each transfer -/

/-- The commands that use the data connection. -/
inductive TransferCmd where
  | retr
  | stor
  | list
  | nlst
  deriving DecidableEq

def TransferCmd.handler (T : Tunables) (env : Env) : TransferCmd → Bytes → M Unit
  | .retr => handleRetr T env
  | .stor => handleUploadCommon T env
  | .list => handleList T env
  | .nlst => handleNlst T env

/-- The 150 replies and those from 200 on. -/
def Note.isReply : Note → Bool
  | .mark => true
  | .done _ => true
  | .stalled => true
  | .failed => false
  | .line _ => false

/-- The command's replies in a trace, in their order. -/
def replies (es : List Event) : List Note := (notes es).filter Note.isReply

/-- The loop tells the client that the transfer has stalled, and ends the session, unless the client is
gone already. -/
def StallEnds (T : Tunables) (env : Env) (w : World) : Prop :=
  wp (commandEnd T env) (fun _ _ => False)
    (fun e w' => (e = .exit ftpDataTimeout 1 ∧ w'.events.getLast? = some dataTimeoutReply) ∨
      (e = .die "ftp_write" ∧ env.ctrlWrite w.clock = false)) w

section

variable {T : Tunables} {env : Env} {w₀ w w' : World} {l : List Note} {log : Option LogEntryType}

theorem Said.since_eq (h : Said w₀ l log w) : notes (w₀.since w) = l := by
  obtain ⟨es, hes, hl⟩ := h.events
  unfold World.since
  rw [hes, List.drop_left]
  exact hl

theorem tries_replies (k : ℕ) : (tries k).filter Note.isReply = [] := by
  induction k with
  | zero => rfl
  | succ k ih => exact ih

theorem Opened.replies_eq (h : Opened l) : l.filter Note.isReply = [] ∨ l.filter Note.isReply = [.mark] := by
  obtain ⟨k, rfl | rfl⟩ := h
  · exact .inl (tries_replies k)
  · right
    show Note.mark :: (tries k).filter Note.isReply = _
    rw [tries_replies]

theorem commandEnd_stalled (h : w.sess.dataTimeout = true) : StallEnds T env w := by
  have hexit : ∀ w1 : World, w1.sess.dataTimeout = true → w1.clock = w.clock →
      wp (do
        let w ← get
        when w.sess.dataTimeout (vsfCmdioWriteExit T env ftpDataTimeout "Data timeout. Reconnect. Sorry." 1))
        (fun _ _ => False)
        (fun e w' => (e = .exit ftpDataTimeout 1 ∧ w'.events.getLast? = some dataTimeoutReply) ∨
          (e = .die "ftp_write" ∧ env.ctrlWrite w.clock = false)) w1 := by
    intro w1 htimeout hclock
    rw [wp_bind, wp_get, wp_when, if_pos htimeout]
    unfold vsfCmdioWriteExit
    rw [wp_bind, wp_writeControl, hclock]
    split
    · exact .inl ⟨rfl, List.getLast?_concat⟩
    · rename_i hgone
      exact .inr ⟨rfl, by simpa using hgone⟩
  unfold StallEnds commandEnd
  rw [wp_bind, wp_get, wp_bind, wp_when]
  split
  · exact hexit _ h rfl
  · exact hexit w h rfl

/-- Every transfer command comes to one of the three ends. -/
theorem TransferCmd.handler_outcome (cmd : TransferCmd) (arg : Bytes) (w : World) :
    wp (cmd.handler T env arg) (fun _ w' => ∃ log, Outcome w log w') (fun _ w' => Cut w w') w := by
  cases cmd with
  | retr =>
    refine wp_mono (handleRetr_said arg w) ?_ (fun _ _ hc => hc)
    intro _ w' h
    rcases h with ⟨-, hout⟩ | ⟨-, hsaid⟩
    · exact ⟨_, hout⟩
    · exact ⟨_, .answered [] opened_nil hsaid⟩
  | stor =>
    refine wp_mono (handleUploadCommon_said arg w) ?_ (fun _ _ hc => hc)
    intro _ w' h
    rcases h with ⟨-, hout⟩ | ⟨-, hsaid⟩
    · exact ⟨_, hout⟩
    · exact ⟨_, .answered [] opened_nil hsaid⟩
  | list => exact wp_mono (handleDirCommon_said true arg w) (fun _ _ hout => ⟨_, hout⟩) (fun _ _ hc => hc)
  | nlst => exact wp_mono (handleDirCommon_said false arg w) (fun _ _ hout => ⟨_, hout⟩) (fun _ _ hc => hc)

/-- Behind the end of a word that is open there is one reply. -/
theorem Opened.replies_done (h : Opened l) (b : Bool) (lines : List Note) (hlines : lines.filter Note.isReply = []) :
    (l ++ lines ++ [Note.done b]).filter Note.isReply = [.done b] ∨
      (l ++ lines ++ [Note.done b]).filter Note.isReply = [.mark, .done b] := by
  rw [List.filter_append, List.filter_append, hlines, List.append_nil]
  rcases h.replies_eq with h0 | h0
  · left
    rw [h0]
    rfl
  · right
    rw [h0]
    rfl

end

end CosFtp
