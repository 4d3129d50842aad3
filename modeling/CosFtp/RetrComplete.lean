/-
# A RETR that is said to be complete

A RETR, with what the loop does behind it, is answered with "Transfer complete."
or with an error. The first should mean that all of the object from the restart
position on was fetched and sent. It does unless a call of `FileDownload` returns
0 before the end of the object: 0 is also how `do_file_send_rwloop` knows the
end (`download_complete_iff`).

Key definitions: `Truthful`, `Settled`, `RetrHonest`.
Key theorem: `download_complete_iff`.
-/
import CosFtp.Fetch
import CosFtp.Retr
import CosFtp.Stor

namespace CosFtp

open Wp

/-- What was said to be complete is: the client got the range, and all of it was fetched. -/
def Truthful (env : Env) (isAscii : Bool) (offset size : ℕ) (w w' : World) : Prop :=
  ∃ es, w'.events = w.events ++ es ∧ (transferComplete ∈ es →
    w'.conn.sent = wireOf env isAscii offset size ∧ fetchedOf es = size - offset)

/-- The client was told of an error. -/
def Told (w w' : World) : Prop :=
  ∃ es, w'.events = w.events ++ es ∧ ∃ code msg, .reply code msg ∈ es ∧ 400 ≤ code

/-- The client was told how the transfer went, or it stalled and is told of that next. -/
def Settled (w w' : World) : Prop :=
  Told w w' ∨ (∃ es, w'.events = w.events ++ es ∧ transferComplete ∈ es) ∨ w'.sess.dataTimeout = true

/-- Steps of no transfer, behind one. -/
structure Winding (w w' : World) : Prop where
  events : ∃ es, w'.events = w.events ++ es ∧ ∀ e ∈ es, e.plain = true
  conn : w'.conn = w.conn
  timeout : w.sess.dataTimeout = true → w'.sess.dataTimeout = true

instance : Std.Refl Winding := ⟨fun _ => ⟨⟨[], by simp⟩, rfl, id⟩⟩

theorem Winding.trans {w w' w'' : World} (h : Winding w w') (h' : Winding w' w'') : Winding w w'' := by
  obtain ⟨es, hes, hplain⟩ := h.events
  obtain ⟨es', hes', hplain'⟩ := h'.events
  refine ⟨⟨es ++ es', by rw [hes', hes, List.append_assoc], ?_⟩, h'.conn.trans h.conn, h'.timeout ∘ h.timeout⟩
  intro e he
  exact (List.mem_append.mp he).elim (hplain e) (hplain' e)

instance : IsTrans World Winding := ⟨fun _ _ _ => Winding.trans⟩

theorem Winding.extends {w w' : World} (h : Winding w w') : Extends w w' := by
  obtain ⟨es, hes, -⟩ := h.events
  exact ⟨es, hes.symm⟩

theorem Traced.winding {w w' : World} (h : Traced w w') : Winding w w' :=
  ⟨h.events, h.conn, h.timeout⟩

theorem fetchedOf_plain {es : List Event} (h : ∀ e ∈ es, e.plain = true) : fetchedOf es = 0 := by
  apply fetchedOf_eq_zero
  intro e he
  have hplain := h e he
  cases e with
  | cos req =>
    cases req with
    | fileDownload path offset len result => cases hplain
    | _ => rfl
  | _ => rfl

section

variable {T : Tunables} {env : Env} {isAscii : Bool} {offset size : ℕ} {w w' w'' : World}

theorem winding_of_traced {α : Type} {x : M α} (h : Within Traced Halt.Any x) : Within Winding Halt.Any x :=
  h.mono fun _ _ => Traced.winding

theorem Quiet.truthful (h : Quiet w w') : Truthful env isAscii offset size w w' := by
  obtain ⟨es, hes, hno⟩ := h.silent
  exact ⟨es, hes, fun hmem => absurd hmem hno⟩

theorem transferComplete_not_plain : transferComplete.plain = false := by decide

/-- Such steps change nothing of what a transfer has come to. -/
theorem Truthful.winding (h : Truthful env isAscii offset size w w') (h' : Winding w' w'') :
    Truthful env isAscii offset size w w'' := by
  obtain ⟨es, hes, hwhole⟩ := h
  obtain ⟨es', hes', hplain⟩ := h'.events
  refine ⟨es ++ es', by rw [hes', hes, List.append_assoc], ?_⟩
  intro hmem
  rcases List.mem_append.mp hmem with hmem | hmem
  · obtain ⟨hsent, hfetched⟩ := hwhole hmem
    rw [h'.conn, fetchedOf_append, fetchedOf_plain hplain]
    exact ⟨hsent, hfetched⟩
  · have hfalse := hplain _ hmem
    rw [transferComplete_not_plain] at hfalse
    cases hfalse

theorem Told.extends (h : Told w w') (h' : Extends w' w'') : Told w w'' := by
  obtain ⟨es, hes, code, msg, hmem, hcode⟩ := h
  obtain ⟨es', hes'⟩ := h'
  exact ⟨es ++ es', by rw [← hes', hes, List.append_assoc], code, msg, List.mem_append_left _ hmem, hcode⟩

theorem Extends.told (h : Extends w w') (h' : Told w' w'') : Told w w'' := by
  obtain ⟨es, hes⟩ := h
  obtain ⟨es', hes', code, msg, hmem, hcode⟩ := h'
  exact ⟨es ++ es', by rw [hes', ← hes, List.append_assoc], code, msg, List.mem_append_right _ hmem, hcode⟩

theorem Settled.winding (h : Settled w w') (h' : Winding w' w'') : Settled w w'' := by
  rcases h with h | ⟨es, hes, hmem⟩ | h
  · exact .inl (h.extends h'.extends)
  · obtain ⟨es', hes'⟩ := h'.extends
    exact .inr (.inl ⟨es ++ es', by rw [← hes', hes, List.append_assoc], List.mem_append_left _ hmem⟩)
  · exact .inr (.inr (h'.timeout h))

/-- Steps in front of it. -/
theorem Extends.settled (h : Extends w w') (h' : Settled w' w'') : Settled w w'' := by
  rcases h' with h' | ⟨es', hes', hmem⟩ | h'
  · exact .inl (h.told h')
  · obtain ⟨es, hes⟩ := h
    exact .inr (.inl ⟨es ++ es', by rw [hes', ← hes, List.append_assoc], List.mem_append_right _ hmem⟩)
  · exact .inr (.inr h')

theorem Winding.truthful (h : Winding w w') (h' : Truthful env isAscii offset size w' w'') :
    Truthful env isAscii offset size w w'' := by
  obtain ⟨es, hes, hplain⟩ := h.events
  obtain ⟨es', hes', hwhole⟩ := h'
  refine ⟨es ++ es', by rw [hes', hes, List.append_assoc], ?_⟩
  intro hmem
  rcases List.mem_append.mp hmem with hmem | hmem
  · have hfalse := hplain _ hmem
    rw [transferComplete_not_plain] at hfalse
    cases hfalse
  · obtain ⟨hsent, hfetched⟩ := hwhole hmem
    rw [fetchedOf_append, fetchedOf_plain hplain, Nat.zero_add]
    exact ⟨hsent, hfetched⟩

/-! ### Where an error is told -/

/-- A reply, and signals behind it. -/
theorem vsfCmdioWriteStr_replies (code : ℕ) (msg : Bytes) (w : World) :
    wp (vsfCmdioWriteStr T env code msg)
      (fun _ w' => ∃ es, w'.events = w.events ++ es ∧ .reply code msg ∈ es) (fun _ _ => True) w := by
  unfold vsfCmdioWriteStr
  rw [wp_bind, wp_writeControl]
  split
  · refine wp_mono (checkPendingActions_talk (P := SignalReply) (fun _ h => h) _) ?_ (fun _ _ _ => trivial)
    intro _ w' htalk
    obtain ⟨es, hes, -⟩ := htalk.events
    obtain ⟨es₀, hes₀, -⟩ := outputLogged_events (T := T) (.reply code msg) w
    refine ⟨es₀ ++ [.reply code msg] ++ es, ?_, by simp⟩
    rw [hes, hes₀]
    simp only [List.append_assoc]
  · trivial

theorem vsfCmdioWrite_told {code : ℕ} (hcode : 400 ≤ code) (msg : String) (w : World) :
    wp (vsfCmdioWrite T env code msg) (fun _ w' => Told w w') (fun _ _ => True) w := by
  refine wp_mono (vsfCmdioWriteStr_replies code (text msg) w) ?_ (fun _ _ he => he)
  intro _ w' hreply
  obtain ⟨es, hes, hmem⟩ := hreply
  exact ⟨es, hes, code, text msg, hmem, hcode⟩

/-- Refused, and the client is told. -/
theorem refused_told {w w1 : World} {code : ℕ} (hcode : 400 ≤ code) (msg : String) (hext : Extends w w1) :
    wp (do vsfCmdioWrite T env code msg; pure false) (fun ok w' => ok = false → Told w w') (fun _ _ => True)
      w1 := by
  rw [wp_bind]
  refine wp_mono (vsfCmdioWrite_told hcode msg w1) ?_ (fun _ _ he => he)
  intro _ w2 hw2 _
  exact hext.told hw2

/-- The checks in front of a transfer say what is missing. -/
theorem dataTransferChecksOk_told (w : World) :
    wp (dataTransferChecksOk T env) (fun ok w' => ok = false → Told w w') (fun _ _ => True) w := by
  unfold dataTransferChecksOk
  rw [wp_bind]
  refine wp_mono (portOrPasvActive_traced w) ?_ (fun _ _ _ => trivial)
  intro active w1 hw1
  have hext : Extends w w1 := hw1.winding.extends
  refine wp_cases (fun _ => refused_told (by decide) _ hext) fun _ => ?_
  rw [wp_bind, wp_get]
  refine wp_cases (fun _ => refused_told (by decide) _ hext) fun _ => ?_
  intro hfalse
  cases hfalse

theorem initDataSockParams_told (fd : Fd) {w w1 : World} :
    wp (do initDataSockParams T env fd; pure true) (fun ok w' => ok = false → Told w w') (fun _ _ => True) w1 := by
  rw [wp_bind]
  refine wp_mono (initDataSockParams_prep fd w1) ?_ (fun _ _ _ => trivial)
  intro _ w2 _ hfalse
  cases hfalse

/-- A connection that cannot be made is told of. -/
theorem connectTransfer_told (pasv : Bool) (w : World) :
    wp (connectTransfer T env pasv) (fun ok w' => ok = false → Told w w') (fun _ _ => True) w := by
  refine wp_cases (fun _ => ?_) fun _ => ?_
  · unfold vsfFtpdataioGetPasvFd
    rw [wp_bind]
    refine wp_mono (getPasvFd_traced w) ?_ (fun _ _ _ => trivial)
    intro conn w1 hw1
    cases conn with
    | error e => exact refused_told (by decide) _ hw1.winding.extends
    | ok fd => exact initDataSockParams_told fd
  · unfold vsfFtpdataioGetPortFd
    rw [wp_bind]
    refine wp_mono (getPrivDataSock_traced w) ?_ (fun _ _ _ => trivial)
    intro sock w1 hw1
    cases sock with
    | none => exact refused_told (by decide) _ hw1.winding.extends
    | some fd => exact initDataSockParams_told fd

theorem handshakeAnswer_told (ret : Bool) {w w1 : World} (hext : Extends w w1) :
    wp (handshakeAnswer T env ret) (fun ok w' => ok = false → Told w w') (fun _ _ => True) w1 := by
  refine wp_cases (fun _ hfalse => ?_) fun _ => wp_cases (fun _ => ?_) fun _ => refused_told (by decide) _ hext
  · cases hfalse
  · unfold vsfCmdioWriteExit
    rw [wp_bind]
    have hwrite : Within (Talk fun _ => True) Halt.Orderly (writeControl T env
        (.reply ftpDatatlsbad (text "SSL connection failed: session reuse required"))) :=
      writeControl_talk trivial flagless_reply fun _ _ => trivial
    exact wp_mono (hwrite w1) (fun _ _ _ => trivial) (fun _ _ _ => trivial)

theorem vsfFtpdataioPostMarkConnect_told (w : World) :
    wp (vsfFtpdataioPostMarkConnect T env) (fun ok w' => ok = false → Told w w') (fun _ _ => True) w := by
  rw [vsfFtpdataioPostMarkConnect_eq, wp_bind, wp_get]
  refine wp_cases (fun _ hfalse => ?_) fun _ => ?_
  · cases hfalse
  · rw [wp_bind]
    refine wp_mono (dataHandshake_traced _ w) ?_ (fun _ _ _ => trivial)
    intro ret w1 hw1
    exact handshakeAnswer_told ret hw1.winding.extends

theorem markTransfer_told {w w1 : World} (hext : Extends w w1) (msg : Bytes) :
    wp (markTransfer T env msg) (fun ok w' => ok = false → Told w w') (fun _ _ => True) w1 := by
  unfold markTransfer
  rw [wp_bind]
  refine wp_mono (vsfCmdioWriteStr_extends _ _ w1) ?_ (fun _ _ _ => trivial)
  intro _ w2 hw2
  rw [wp_bind]
  refine wp_mono (vsfFtpdataioPostMarkConnect_told w2) ?_ (fun _ _ he => he)
  intro ok w3 hw3
  cases ok with
  | true =>
    intro hfalse
    cases hfalse
  | false =>
    have htold3 : Told w w3 := Extends.told (hext.trans hw2) (hw3 rfl)
    simp only [Bool.false_eq_true, if_false]
    rw [wp_bind]
    refine wp_mono (vsfFtpdataioDisposeTransferFd_traced w3) ?_ (fun _ _ _ => trivial)
    intro _ w4 hw4 _
    exact htold3.extends hw4.winding.extends

/-- A transfer that does not start is told of. -/
theorem getRemoteTransferFd_told (msg : Bytes) (w : World) :
    wp (getRemoteTransferFd T env msg) (fun ok w' => ok = false → Told w w') (fun _ _ => True) w := by
  rw [getRemoteTransferFd_eq, wp_bind]
  refine wp_mono (portOrPasvActive_traced w) ?_ (fun _ _ _ => trivial)
  intro active w1 hw1
  have hext1 : Extends w w1 := hw1.winding.extends
  rw [wp_ite, wp_throw]
  split
  · trivial
  simp only [wp_bind, modifySess, wp_modify]
  refine wp_mono ((active_traced _).2 _) ?_ (fun _ _ _ => trivial)
  intro pasv w2 hw2
  have hext2 : Extends w w2 := hext1.trans hw2.winding.extends
  refine wp_mono (wp_and (connectTransfer_connected pasv w2) (connectTransfer_told pasv w2)) ?_ (fun _ _ _ => trivial)
  rintro connected w3 ⟨hconn, htold⟩
  cases connected with
  | false => exact fun hfalse => hext2.told (htold hfalse)
  | true => exact markTransfer_told (hext2.trans hconn.1.quiet.extends) msg

/-! ### Behind the transfer -/

theorem vsfLogDoLog_winding {C : Halt → Prop} (succeeded : Bool) :
    Within Winding C (vsfLogDoLog succeeded) := by
  intro w
  refine ⟨⟨_, rfl, ?_⟩, rfl, id⟩
  intro e he
  obtain ⟨what, -, rfl⟩ := Option.map_eq_some_iff.mp (Option.mem_toList.mp he)
  rfl

theorem checkAbor_winding : Within Winding Halt.Any (checkAbor T env) := by
  unfold checkAbor
  refine within_bind within_get fun w => within_when (within_bind ?_ fun _ => ?_)
  · exact within_modify fun w => ⟨⟨[], by simp⟩, rfl, id⟩
  · exact winding_of_traced (vsfCmdioWrite_traced (by decide))

theorem transferCleanup_winding : Within Winding Halt.Any (transferCleanup T env) := by
  unfold transferCleanup
  exact within_bind (winding_of_traced portCleanup_traced) fun _ => winding_of_traced pasvCleanup_traced

/-- A transfer that returned `retval` 0 is whole, and nothing was said of it yet. -/
structure Transferred (env : Env) (isAscii : Bool) (offset size : ℕ) (w : World) (retval : ℤ) (w' : World) :
    Prop where
  quiet : Quiet w w'
  whole : retval = 0 → w'.conn.sent = wireOf env isAscii offset size ∧
    ∀ es, w'.events = w.events ++ es → fetchedOf es = size - offset
  kind : retval = 0 ∨ retval = -1 ∨ retval = -2

theorem Transferred.winding {retval : ℤ} (h : Transferred env isAscii offset size w retval w')
    (h' : Winding w' w'') : Transferred env isAscii offset size w retval w'' := by
  obtain ⟨es', hes', hplain⟩ := h'.events
  refine ⟨h.quiet.trans ⟨es', hes', fun e he => Event.mild_of_plain (hplain e he)⟩, ?_, h.kind⟩
  intro hzero
  obtain ⟨hsent, hfetched⟩ := h.whole hzero
  refine ⟨by rw [h'.conn, hsent], ?_⟩
  intro es hes
  obtain ⟨es0, hes0, -⟩ := h.quiet
  have hsplit : es = es0 ++ es' := by
    rw [hes', hes0, List.append_assoc] at hes
    exact (List.append_cancel_left hes).symm
  rw [hsplit, fetchedOf_append, fetchedOf_plain hplain, hfetched es0 hes0, Nat.add_zero]

/-- The answer fits the result. -/
theorem retrReply_answers {retval : ℤ} (h : Transferred env isAscii offset size w retval w') :
    wp (retrReply T env retval)
      (fun _ w'' => Truthful env isAscii offset size w w'' ∧ Settled w w'')
      (fun _ w'' => Truthful env isAscii offset size w w'') w' := by
  -- an error reply
  have herror : ∀ {code : ℕ} {msg : String}, 400 ≤ code → (Event.reply code (text msg)).plain = true →
      wp (vsfCmdioWrite T env code msg)
        (fun _ w'' => Truthful env isAscii offset size w w'' ∧ Settled w w'')
        (fun _ w'' => Truthful env isAscii offset size w w'') w' := by
    intro code msg hcode hplain
    refine wp_mono (wp_and (vsfCmdioWrite_quiet hplain w') (vsfCmdioWrite_told hcode msg w')) ?_ ?_
    · intro _ w2 hw2
      exact ⟨(h.quiet.trans hw2.1).truthful, .inl (h.quiet.extends.told hw2.2)⟩
    · intro _ w2 hw2
      exact (h.quiet.trans hw2.1.2).truthful
  unfold retrReply
  rcases h.kind with rfl | rfl | rfl
  · -- the whole object: the reply says so
    obtain ⟨hsent, hfetched⟩ := h.whole rfl
    obtain ⟨es, hes, -⟩ := h.quiet
    rw [if_neg (by decide), if_neg (by decide)]
    have hafter : ∀ {w2 : World}, Talk (fun e => SignalReply e ∨ e = transferComplete) w' w2 →
        Truthful env isAscii offset size w w2 := by
      intro w2 htalk
      obtain ⟨es', hes', hkind, -⟩ := htalk.events
      refine ⟨es ++ es', by rw [hes', hes, List.append_assoc], fun _ => ⟨?_, ?_⟩⟩
      · rw [htalk.conn, hsent]
      · have hzero : fetchedOf es' = 0 := by
          apply fetchedOf_eq_zero
          intro e he
          rcases hkind e he with hsignal | rfl
          · cases hsignal <;> rfl
          · rfl
        rw [fetchedOf_append, hzero, hfetched es hes, Nat.add_zero]
    have hsay : Within (Talk fun e => SignalReply e ∨ e = transferComplete) Halt.Orderly
        (vsfCmdioWriteStr T env ftpTransferok (text "Transfer complete.")) :=
      vsfCmdioWriteStr_talk (.inr rfl) fun e he => .inl he
    refine wp_mono (wp_and (hsay w') (vsfCmdioWriteStr_replies ftpTransferok (text "Transfer complete.") w')) ?_ ?_
    · rintro _ w2 ⟨htalk, hreply⟩
      obtain ⟨es', hes', hmem⟩ := hreply
      refine ⟨hafter htalk, .inr (.inl ⟨es ++ es', ?_, List.mem_append_right _ hmem⟩)⟩
      rw [hes', hes, List.append_assoc]
    · rintro _ w2 ⟨⟨-, htalk⟩, -⟩
      exact hafter htalk
  · rw [if_pos rfl]
    exact herror (by decide) (by decide)
  · rw [if_neg (by decide), if_pos rfl, wp_bind, wp_get, wp_when]
    split
    · exact herror (by decide) (by decide)
    · rename_i hstalled
      have htimeout : w'.sess.dataTimeout = true := by simpa using hstalled
      exact ⟨h.quiet.truthful, .inr (.inr htimeout)⟩

theorem retrResult_answers {ret : TransferRet} {disposed : Bool}
    (h : Transferred env isAscii offset size w (if !disposed ∧ ret.retval = 0 then -2 else ret.retval) w') :
    wp (do retrResult T env ret disposed; transferCleanup T env)
      (fun _ w'' => Truthful env isAscii offset size w w'' ∧ Settled w w'')
      (fun _ w'' => Truthful env isAscii offset size w w'') w' := by
  have hrest : Within Winding Halt.Any (do checkAbor T env; transferCleanup T env) :=
    within_bind checkAbor_winding fun _ => transferCleanup_winding
  have hsize : ∀ n, Winding w' { w' with sess := { w'.sess with transferSize := n } } :=
    fun n => ⟨⟨[], by simp⟩, rfl, id⟩
  unfold retrResult
  simp only [wp_bind, modifySess, wp_modify]
  have h1 := h.winding (hsize ret.transferred)
  have hlog : Within Winding (fun _ => False)
      (when ((if !disposed ∧ ret.retval = 0 then -2 else ret.retval) = 0) (vsfLogDoLog true)) :=
    within_when (vsfLogDoLog_winding true)
  refine wp_mono (hlog _) ?_ (fun _ _ he => he.1.elim)
  intro _ w2 hw2
  refine wp_mono (retrReply_answers (h1.winding hw2)) ?_ (fun _ _ he => he)
  rintro _ w3 ⟨htruth, hsettled⟩
  have hend := hrest w3
  rw [wp_bind] at hend
  refine wp_mono hend ?_ ?_
  · intro _ w4 hw4
    refine wp_mono hw4 ?_ ?_
    · intro _ w5 hw5
      exact ⟨htruth.winding hw5, hsettled.winding hw5⟩
    · intro _ w5 hw5
      exact htruth.winding hw5.2
  · intro _ w4 hw4
    exact htruth.winding hw4.2

/-! ### The command -/

theorem doFileSendRwloop_quiet (path : Bytes) (isAscii : Bool) (offset size : ℕ) :
    Within Quiet Halt.Any (doFileSendRwloop T env path isAscii offset size) := by
  unfold doFileSendRwloop
  refine within_bind (sendLoop_within ?_ ?_ _ _ _ _) fun r => ?_
  · exact fileDownload_within (fun _ _ _ _ => emit_quiet rfl) (fun _ _ => emit_quiet rfl) path
  · intro buf
    unfold ftpWriteData
    refine within_bind within_get fun w => within_bind (quiet_modify fun _ => rfl) fun _ => ?_
    refine within_bind (emit_quiet rfl) fun _ => within_bind ?_ fun _ => within_pure _
    exact quiet_of_traced (traced_of_talk (checkPendingIo_talk (fun _ => SignalReply.plain) _))
  · cases r with
    | inl st => exact within_throw trivial
    | inr ret => exact within_pure _

/-- A loop that was not cut short, between the start and the close. -/
theorem transferred_of_end {msg : Bytes} {w2 w3 w4 : World} {ret : TransferRet} {disposed : Bool}
    (hwhole : ∀ i, ¬ EndsEarly (getCosDownloadChunksize T) size offset env.fileDownload i)
    (hstart : Started env msg w w2) (hquiet : Quiet w2 w3)
    (hend : SendEnd T env isAscii offset size w2 ret w3) (hclose : Traced w3 w4) :
    Transferred env isAscii offset size w
      (if !disposed ∧ ret.retval = 0 then -2 else ret.retval) w4 := by
  obtain ⟨w1, hprep, hconn, hmark⟩ := hstart
  have hprep2 : Prep w w2 := Started.prep ⟨w1, hprep, hconn, hmark⟩
  have hconn2 : w2.conn.sent = [] := by
    rw [hmark.conn]
    show w1.conn.sent = []
    rw [hconn]
  have hbefore : Transferred env isAscii offset size w
      (if !disposed ∧ ret.retval = 0 then -2 else ret.retval) w3 := by
    refine ⟨hprep2.quiet.trans hquiet, ?_, ?_⟩
    · intro hzero
      have hret : ret.retval = 0 := by
        split at hzero
        · cases hzero
        · exact hzero
      cases hend with
      | @whole es1 _ hsent hes hfetched _ =>
        obtain ⟨es0, hes0, hplain⟩ := hprep2.events
        refine ⟨by rw [hsent, hconn2, List.nil_append], ?_⟩
        intro es hall
        have hsplit : es = es0 ++ es1 := by
          rw [hes, hes0, List.append_assoc] at hall
          exact (List.append_cancel_left hall).symm
        rw [hsplit, fetchedOf_append, fetchedOf_plain hplain, hfetched, Nat.zero_add]
      | cut _ hearly _ _ => exact absurd hearly (hwhole _)
      | failed hfailed _ =>
        rw [hret] at hfailed
        cases hfailed
      | network hnet =>
        rw [hret] at hnet
        cases hnet
    · split
      · exact .inr (.inr rfl)
      · cases hend with
        | whole hret _ _ _ _ => exact .inl hret
        | cut hret _ _ _ => exact .inl hret
        | failed hret _ => exact .inr (.inl hret)
        | network hret => exact .inr (.inr hret)
  exact hbefore.winding hclose.winding

theorem retrTransfer_answers
    (hwhole : ∀ i, ¬ EndsEarly (getCosDownloadChunksize T) size offset env.fileDownload i) (arg : Bytes)
    (w : World) :
    wp (retrTransfer T env arg offset size)
      (fun _ w' => Truthful env (T.asciiDownloadEnable && w.sess.isAscii) offset size w w' ∧ Settled w w')
      (fun _ w' => Truthful env (T.asciiDownloadEnable && w.sess.isAscii) offset size w w') w := by
  unfold retrTransfer
  rw [wp_bind, wp_get, wp_bind]
  set mark := retrMark (T.asciiDownloadEnable && w.sess.isAscii) arg size with hmark
  refine wp_mono (wp_and (getRemoteTransferFd_started mark w) (getRemoteTransferFd_told mark w)) ?_
    (fun _ _ he => he.1.quiet.truthful)
  rintro connected w2 ⟨⟨hprep2, hstart⟩, htold⟩
  cases connected with
  | false =>
    simp only [Bool.not_false, if_true]
    refine wp_mono (transferCleanup_winding w2) ?_ ?_
    · intro _ w3 hw3
      exact ⟨hprep2.quiet.truthful.winding hw3, .inl ((htold rfl).extends hw3.extends)⟩
    · intro _ w3 hw3
      exact hprep2.quiet.truthful.winding hw3.2
  | true =>
    simp only [Bool.not_true, Bool.false_eq_true, if_false]
    rw [wp_bind]
    refine wp_mono (wp_and (doFileSendRwloop_quiet _ _ _ _ w2) (doFileSendRwloop_end _ _ _ _ w2)) ?_
      (fun _ _ he => (hprep2.quiet.trans he.1.2).truthful)
    rintro ret w3 ⟨hquiet3, hend⟩
    rw [wp_bind]
    refine wp_mono (vsfFtpdataioDisposeTransferFd_traced w3) ?_
      (fun _ _ he => ((hprep2.quiet.trans hquiet3).trans he.2.quiet).truthful)
    intro disposed w4 hw4
    exact retrResult_answers (transferred_of_end hwhole (hstart rfl) hquiet3 hend hw4)

/-- A reply that refuses the command, behind quiet steps. -/
theorem refusal_answers {code : ℕ} {msg : String} (hcode : 400 ≤ code)
    (hplain : (Event.reply code (text msg)).plain = true) (h : Quiet w w') :
    wp (vsfCmdioWrite T env code msg)
      (fun _ w'' => Truthful env isAscii offset size w w'' ∧ Settled w w'')
      (fun _ w'' => Truthful env isAscii offset size w w'') w' := by
  refine wp_mono (wp_and (vsfCmdioWrite_quiet hplain w') (vsfCmdioWrite_told hcode msg w')) ?_ ?_
  · intro _ w2 hw2
    exact ⟨(h.trans hw2.1).truthful, .inl (h.extends.told hw2.2)⟩
  · intro _ w2 hw2
    exact (h.trans hw2.1.2).truthful

theorem retrChecked_answers (hsize : env.fileStat = some size)
    (hwhole : ∀ i, ¬ EndsEarly (getCosDownloadChunksize T) size offset env.fileDownload i) (arg : Bytes)
    (w : World) :
    wp (retrChecked T env arg offset)
      (fun _ w' => Truthful env (T.asciiDownloadEnable && w.sess.isAscii) offset size w w' ∧ Settled w w')
      (fun _ w' => Truthful env (T.asciiDownloadEnable && w.sess.isAscii) offset size w w') w := by
  unfold retrChecked checkFile
  simp only [wp_bind, wp_get, wp_pure]
  rw [wp_ite]
  split
  · exact refusal_answers (by decide) (by decide) (quiet_same rfl)
  · rw [wp_bind, wp_cosStatFile_of_some hsize]
    set w1 : World := { w with
      events := w.events ++ [.cos (.fileStat (getCosPathFromDiskPath T w.cwd.path arg))] } with hw1
    have hwind : Winding w w1 := ⟨⟨[_], rfl, by simp; rfl⟩, rfl, id⟩
    refine wp_mono (retrTransfer_answers hwhole arg w1) ?_ ?_
    · intro _ w2 hw2
      exact ⟨hwind.truthful hw2.1, hwind.extends.settled hw2.2⟩
    · intro _ w2 hw2
      exact hwind.truthful hw2

theorem handleRetr_answers (hsize : env.fileStat = some size) (hoffset : w.sess.restartPos = offset)
    (hwhole : ∀ i, ¬ EndsEarly (getCosDownloadChunksize T) size offset env.fileDownload i) (arg : Bytes) :
    wp (handleRetr T env arg)
      (fun _ w' => Truthful env (T.asciiDownloadEnable && w.sess.isAscii) offset size w w' ∧ Settled w w')
      (fun _ w' => Truthful env (T.asciiDownloadEnable && w.sess.isAscii) offset size w w') w := by
  unfold handleRetr
  rw [wp_bind, wp_get, wp_bind, modifySess, wp_modify, wp_bind, hoffset]
  set w0 : World := { w with sess := { w.sess with restartPos := 0 } } with hw0
  refine wp_mono (wp_and (dataTransferChecksOk_traced w0) (dataTransferChecksOk_told w0)) ?_
    (fun _ _ he => Quiet.truthful (w := w) he.1.2.quiet)
  rintro ok w1 ⟨htraced, htold⟩
  have hwind : Winding w w1 := ⟨htraced.events, htraced.conn, htraced.timeout⟩
  have hquiet : Quiet w w1 := Prep.quiet (w := w0) htraced.toPrep
  cases ok with
  | false => exact ⟨hquiet.truthful, .inl (htold rfl)⟩
  | true =>
    simp only [Bool.not_true, Bool.false_eq_true, if_false]
    rw [wp_ite]
    split
    · exact refusal_answers (by decide) (by decide) hquiet
    · have hascii : w1.sess.isAscii = w.sess.isAscii := htraced.ascii
      unfold vsfLogStartEntry
      simp only [resolveTildeArg, prependPath, wp_bind, wp_get, wp_pure, wp_ite, wp_throw, modifySess,
        wp_modify]
      split
      · exact hquiet.truthful
      · rw [← hascii]
        refine wp_mono (retrChecked_answers hsize hwhole _ _) ?_ ?_
        · intro _ w2 hw2
          exact ⟨hwind.truthful hw2.1, hwind.extends.settled hw2.2⟩
        · intro _ w2 hw2
          exact hwind.truthful hw2

/-- Behind the command a transfer that stalled is answered too. -/
theorem commandEnd_answers (htruth : Truthful env isAscii offset size w w') (hsettled : Settled w w') :
    wp (commandEnd T env)
      (fun _ w'' => Truthful env isAscii offset size w w'' ∧
        (Told w w'' ∨ ∃ es, w''.events = w.events ++ es ∧ transferComplete ∈ es))
      (fun e w'' => Truthful env isAscii offset size w w'' ∧ e.Orderly) w' := by
  unfold commandEnd
  rw [wp_bind, wp_get, wp_bind, wp_when]
  have hrest : ∀ w1, Winding w' w1 →
      wp (do
        let w ← get
        when w.sess.dataTimeout
          (vsfCmdioWriteExit T env ftpDataTimeout "Data timeout. Reconnect. Sorry." 1))
        (fun _ w'' => Truthful env isAscii offset size w w'' ∧
          (Told w w'' ∨ ∃ es, w''.events = w.events ++ es ∧ transferComplete ∈ es))
        (fun e w'' => Truthful env isAscii offset size w w'' ∧ e.Orderly) w1 := by
    intro w1 hw1
    have htruth1 := htruth.winding hw1
    rw [wp_bind, wp_get, wp_when]
    split
    · have hexit : Within (Talk fun e => e.plain = true) Halt.Orderly
          (vsfCmdioWriteExit T env ftpDataTimeout "Data timeout. Reconnect. Sorry." 1 : M Unit) :=
        vsfCmdioWriteExit_talk (by decide) (by decide) fun _ => SignalReply.plain
      unfold vsfCmdioWriteExit at hexit ⊢
      have hend := hexit w1
      rw [wp_bind] at hend ⊢
      refine wp_mono hend ?_ ?_
      · rintro _ w2 ⟨hcode, htalk⟩
        exact ⟨htruth1.winding htalk.traced.winding, hcode⟩
      · rintro _ w2 ⟨hcode, htalk⟩
        exact ⟨htruth1.winding htalk.traced.winding, hcode⟩
    · rename_i hno
      refine ⟨htruth1, ?_⟩
      rcases hsettled.winding hw1 with h | h | h
      · exact .inl h
      · exact .inr h
      · exact absurd h hno
  split
  · have hlog : Within Winding (fun _ => False) (vsfLogDoLog false) := vsfLogDoLog_winding false
    refine wp_mono (hlog w') ?_ (fun _ _ he => he.1.elim)
    intro _ w1 hw1
    exact hrest w1 hw1
  · exact hrest w' ⟨⟨[], by simp⟩, rfl, id⟩

end

/-- A RETR that is answered in the end: truthfully if with "Transfer complete.",
and with an error otherwise. A session that ends in it says so with an error, or
has lost its client. -/
structure RetrHonest (T : Tunables) (env : Env) (size : ℕ) (arg : Bytes) (w : World) : Prop where
  answered : wp (do handleRetr T env arg; commandEnd T env)
    (fun _ w' =>
      Truthful env (T.asciiDownloadEnable && w.sess.isAscii) w.sess.restartPos size w w' ∧
      (Told w w' ∨ ∃ es, w'.events = w.events ++ es ∧ transferComplete ∈ es))
    (fun e w' =>
      Truthful env (T.asciiDownloadEnable && w.sess.isAscii) w.sess.restartPos size w w' ∧ e.Orderly)
    w

section

variable {T : Tunables} {env : Env} {size : ℕ} {w : World}

theorem retrHonest_of_whole (h : w.ctl.Idle T) (hlog : w.sess.logType = none) (hsize : env.fileStat = some size)
    (hwhole : ∀ i, ¬ EndsEarly (getCosDownloadChunksize T) size w.sess.restartPos env.fileDownload i)
    (arg : Bytes) : RetrHonest T env size arg w := by
  constructor
  rw [wp_bind]
  refine wp_mono (wp_and (handleRetr_handled h hlog arg) (handleRetr_answers hsize rfl hwhole arg)) ?_ ?_
  · rintro _ w1 ⟨-, htruth, hsettled⟩
    exact commandEnd_answers htruth hsettled
  · rintro e w1 ⟨horderly, htruth⟩
    exact ⟨htruth, horderly⟩

/-! ### A download that is cut short and called complete

A client that takes all it is sent, and no signals: then a transfer ends by the
calls of `FileDownload` alone. -/

/-- No flag went up, and of the rest of the session only what a signal can change. -/
structure Smooth (w w' : World) : Prop where
  core : w'.sess.core = w.sess.core
  abor : w'.sess.aborReceived = w.sess.aborReceived
  timeout : w'.sess.dataTimeout = w.sess.dataTimeout

instance : Std.Refl Smooth := ⟨fun _ => ⟨rfl, rfl, rfl⟩⟩

instance : IsTrans World Smooth := ⟨fun _ _ _ h h' =>
  ⟨h'.core.trans h.core, h'.abor.trans h.abor, h'.timeout.trans h.timeout⟩⟩

theorem ftpWriteData_calm (h : env.Calm) (hwrite : ∀ t, env.dataWrite t = ⟨65536 * 2, false⟩) (buf : Bytes)
    (w : World) :
    wp (ftpWriteData T env buf)
      (fun ret w' => (buf.length ≤ 65536 * 2 → ret = buf.length) ∧ Smooth w w') (fun _ _ => False) w := by
  unfold ftpWriteData checkPendingIo emit handleIo
  simp only [wp_bind, wp_get, wp_modify, modifySess, hwrite, wp_interrupted_calm h,
    wp_checkPendingActions_calm h, wp_pure, Bool.false_eq_true, if_false]
  refine ⟨?_, ?_⟩
  · intro hlen
    rw [Nat.min_eq_right hlen]
  · refine ⟨?_, ?_, ?_⟩ <;> show _ = _ <;> simp only [World.ticked] <;> split <;> rfl

theorem sendLoop_smooth (h : env.Calm) (hwrite : ∀ t, env.dataWrite t = ⟨65536 * 2, false⟩) (path : Bytes)
    (isAscii : Bool) (size n : ℕ) (st : SendState) :
    Within Smooth (fun _ => False) (sendLoop T env path isAscii size n st) := by
  have hemit : ∀ e, Within Smooth (fun _ => False) (emit e) := fun e => within_modify fun _ => ⟨rfl, rfl, rfl⟩
  refine sendLoop_within ?_ ?_ isAscii size n st
  · exact fileDownload_within (fun _ _ _ _ => hemit _) (fun _ _ => hemit _) path
  · intro buf w
    exact wp_mono (ftpWriteData_calm h hwrite buf w) (fun _ _ hq => hq.2) (fun _ _ he => he.elim)

/-- No write fails. -/
theorem sendLoop_calm (h : env.Calm) (hwrite : ∀ t, env.dataWrite t = ⟨65536 * 2, false⟩) (path : Bytes)
    (size n : ℕ) (st : SendState) (w : World) :
    wp (sendLoop T env path false size n st) (fun r _ => ∀ ret, r = .inr ret → ret.retval ≠ -2)
      (fun _ _ => True) w := by
  have hfill : ∀ st, Within Extends Halt.Any (fillDownloadbuf T env path size st) := by
    intro st
    have hone : ∀ o len call, Within Extends Halt.Any (fileDownload env path o len call) := by
      intro o len call w
      rw [wp_fileDownload]
      exact List.prefix_append _ _
    unfold fillDownloadbuf cosDownloadFile
    refine within_ite (within_ite (within_pure _) (within_bind ?_ fun _ => within_pure _)) (within_pure _)
    refine within_bind (hone _ _ _) fun ret => within_ite (within_pure _) ?_
    exact within_bind (hone _ _ _) fun _ => within_pure _
  induction n generalizing st w with
  | zero =>
    intro ret hret
    cases hret
  | succ n ih =>
    unfold sendLoop sendIter
    rw [wp_bind, wp_bind]
    refine wp_mono (hfill st w) ?_ (fun _ _ _ => trivial)
    intro st' w1 _
    rw [wp_ite, wp_ite]
    split
    · intro ret hret
      obtain rfl := Sum.inr.inj hret
      simp
    split
    · intro ret hret
      obtain rfl := Sum.inr.inj hret
      simp
    unfold sendChunk
    rw [wp_bind]
    set chunk := (st'.dlbuf.drop st'.dlbufCurpos).take
      (min (getChunkSize T) (st'.dlbufLen.toNat - st'.dlbufCurpos)) with hchunk
    have hlen : (toWire false chunk st'.prevCr).1.length ≤ 65536 * 2 := by
      have hle := getChunkSize_le T
      show chunk.length ≤ _
      rw [hchunk, List.length_take]
      unfold vsftpDataBufsize at hle
      omega
    refine wp_mono (ftpWriteData_calm h hwrite _ w1) ?_ (fun _ _ _ => trivial)
    rintro ret w2 ⟨hret, -⟩
    have hfull := hret hlen
    rw [wp_ite, if_neg (by omega)]
    exact ih _ w2

theorem doFileSendRwloop_calm (h : env.Calm) (hwrite : ∀ t, env.dataWrite t = ⟨65536 * 2, false⟩)
    (path : Bytes) (offset size : ℕ) (w : World) :
    wp (doFileSendRwloop T env path false offset size)
      (fun ret w' => ret.retval ≠ -2 ∧ Smooth w w') (fun e _ => e = .running) w := by
  unfold doFileSendRwloop
  rw [wp_bind]
  refine wp_mono (wp_and (sendLoop_smooth h hwrite path false size _ _ w)
    (sendLoop_calm h hwrite path size _ _ w)) ?_ (fun _ _ he => he.1.1.elim)
  rintro (st | ret) w' ⟨hsmooth, hret⟩
  · rfl
  · exact ⟨hret ret rfl, hsmooth⟩

/-- A plain connection that saw no flag closes well. -/
theorem vsfFtpdataioDisposeTransferFd_calm (hfd : w.sess.dataFd ≠ none) (hio : w.sess.ioHandler = true)
    (hssl : w.sess.dataUseSsl = false) (hdata : w.sess.dataSsl = false) (hf : w.Flagless)
    (hlinger : env.linger = true) :
    wp (vsfFtpdataioDisposeTransferFd T env) (fun ok _ => ok = true) (fun _ _ => False) w := by
  have halarm : ∀ w1 : World, wp (startDataAlarm T) (fun _ w2 => w2.sess.aborReceived = w1.sess.aborReceived ∧
      w2.sess.dataTimeout = w1.sess.dataTimeout) (fun _ _ => False) w1 := by
    intro w1
    unfold startDataAlarm modifySess
    simp only [wp_modify]
    split
    · exact ⟨rfl, rfl⟩
    · split <;> exact ⟨rfl, rfl⟩
  unfold vsfFtpdataioDisposeTransferFd vsfSysutilUninstallIoHandler disposeSsl
  simp only [wp_bind, wp_get, wp_ite, wp_throw, modifySess, wp_modify, wp_pure, wp_when, hfd, hio, hssl,
    hdata, hf.1, hf.2, hlinger, if_true, if_false, Bool.false_eq_true, false_and, Bool.not_false, and_self]
  refine wp_mono (halarm _) ?_ (fun _ _ he => he)
  intro _ w2 hw2
  rw [hw2.1, hw2.2]
  simp

/-- Less than the object was fetched, and it was said to be complete. -/
def Lied (missing : ℕ) (w w' : World) : Prop :=
  ∃ es, w'.events = w.events ++ es ∧ transferComplete ∈ es ∧ fetchedOf es < missing

theorem Lied.winding {missing : ℕ} {w' w'' : World} (h : Lied missing w w') (h' : Winding w' w'') :
    Lied missing w w'' := by
  obtain ⟨es, hes, hmem, hless⟩ := h
  obtain ⟨es', hes', hplain⟩ := h'.events
  refine ⟨es ++ es', by rw [hes', hes, List.append_assoc], List.mem_append_left _ hmem, ?_⟩
  rw [fetchedOf_append, fetchedOf_plain hplain]
  exact hless

theorem Winding.lied {missing : ℕ} {w' w'' : World} (h : Winding w w') (h' : Lied missing w' w'') :
    Lied missing w w'' := by
  obtain ⟨es, hes, hplain⟩ := h.events
  obtain ⟨es', hes', hmem, hless⟩ := h'
  refine ⟨es ++ es', by rw [hes', hes, List.append_assoc], List.mem_append_right _ hmem, ?_⟩
  rw [fetchedOf_append, fetchedOf_plain hplain]
  omega

theorem Lied.not_truthful {isAscii : Bool} {offset : ℕ} {w' : World} (h : Lied (size - offset) w w')
    (h' : Truthful env isAscii offset size w w') : False := by
  obtain ⟨es, hes, hmem, hless⟩ := h
  obtain ⟨es', hes', hwhole⟩ := h'
  obtain rfl : es = es' := List.append_cancel_left (hes.symm.trans hes')
  have := (hwhole hmem).2
  omega

theorem commandEnd_winding : Within Winding Halt.Any (commandEnd T env) := by
  unfold commandEnd
  refine within_bind within_get fun w => within_bind (within_when (vsfLogDoLog_winding false)) fun _ => ?_
  refine within_bind within_get fun w => within_when ?_
  exact winding_of_traced (traced_of_talk (vsfCmdioWriteExit_talk (by decide) (by decide) fun _ => SignalReply.plain))

/-- However the handler ends, it said so of less than the object. -/
structure RetrLies (T : Tunables) (env : Env) (size : ℕ) (arg : Bytes) (w : World) : Prop where
  lied : wp (handleRetr T env arg) (fun _ w' => Lied (size - w.sess.restartPos) w w')
    (fun _ w' => Lied (size - w.sess.restartPos) w w') w

/-- A RETR that lies, whatever the loop does behind it. -/
theorem RetrLies.not_honest {arg : Bytes} (h : RetrLies T env size arg w) : ¬ RetrHonest T env size arg w := by
  intro hhonest
  have hlies : wp (do handleRetr T env arg; commandEnd T env)
      (fun _ w' => Lied (size - w.sess.restartPos) w w')
      (fun _ w' => Lied (size - w.sess.restartPos) w w') w := by
    rw [wp_bind]
    refine wp_mono h.lied ?_ (fun _ _ he => he)
    intro _ w1 hw1
    refine wp_mono (commandEnd_winding w1) ?_ ?_
    · exact fun _ _ hw2 => hw1.winding hw2
    · exact fun _ _ hw2 => hw1.winding hw2.2
  have hboth := wp_and hlies hhonest.answered
  refine wp_false (wp_mono hboth ?_ ?_)
  · exact fun _ _ hb => hb.1.not_truthful hb.2.1
  · exact fun _ _ hb => hb.1.not_truthful hb.2.1

/-- The result 0 of a transfer that brought too little is passed on. -/
theorem retrResult_lies {ret : TransferRet} {es : List Event} {w' : World} {missing : ℕ}
    (h : env.Calm) (hret : ret.retval = 0) (hes : w'.events = w.events ++ es)
    (hless : fetchedOf es < missing) :
    wp (do retrResult T env ret true; transferCleanup T env) (fun _ w'' => Lied missing w w'')
      (fun _ w'' => Lied missing w w'') w' := by
  have hrest : Within Winding Halt.Any (do checkAbor T env; transferCleanup T env) :=
    within_bind checkAbor_winding fun _ => transferCleanup_winding
  unfold retrResult retrReply
  simp only [wp_bind, modifySess, wp_modify, hret, Bool.not_true, Bool.false_eq_true, false_and, if_false,
    wp_when, if_true]
  have hlog : Within Winding (fun _ => False) (vsfLogDoLog true) := vsfLogDoLog_winding true
  refine wp_mono (hlog _) ?_ (fun _ _ he => he.1.elim)
  intro _ w2 hw2
  obtain ⟨es2, hes2, hplain2⟩ := hw2.events
  have hes2' : w2.events = w.events ++ (es ++ es2) := by
    rw [hes2]
    show w'.events ++ es2 = _
    rw [hes, List.append_assoc]
  rw [if_neg (by decide), if_neg (by decide)]
  unfold vsfCmdioWrite
  rw [wp_vsfCmdioWriteStr_calm h]
  have hlied : Lied missing w (w2.replied T ftpTransferok (text "Transfer complete.")) := by
    obtain ⟨es3, hes3, hplain3⟩ := replied_events T w2 ftpTransferok (text "Transfer complete.")
    refine ⟨es ++ es2 ++ es3 ++ [transferComplete], ?_, by simp, ?_⟩
    · rw [hes3, hes2']
      simp only [List.append_assoc]
      rfl
    · rw [fetchedOf_append, fetchedOf_append, fetchedOf_append, fetchedOf_plain hplain2, fetchedOf_plain hplain3]
      exact hless
  have hend := hrest (w2.replied T ftpTransferok (text "Transfer complete."))
  rw [wp_bind] at hend
  refine wp_mono hend ?_ (fun _ _ hw3 => hlied.winding hw3.2)
  intro _ w3 hw3
  refine wp_mono hw3 ?_ ?_
  · exact fun _ _ hw4 => hlied.winding hw4
  · exact fun _ _ hw4 => hlied.winding hw4.2

/-- The session once the download is logged. -/
def World.downloading (w : World) (filename : Bytes) : World :=
  { w with sess := { w.sess with
      restartPos := 0, logType := some .download, transferSize := 0, logStr := filename } }

variable (env) in
/-- A binary RETR whose data connection may be used comes to its access check. -/
theorem wp_handleRetr_of_ready (h : DataReady T w) (hlog : w.sess.logType = none)
    (hbinary : w.sess.isAscii = false) (arg : Bytes) :
    ∃ calls, ∀ (Q : Unit → World → Prop) (E : Halt → World → Prop),
      wp (handleRetr T env arg) Q E w ↔
        wp (retrChecked T env (resolveTilde T w.sess.homeStr env.getpwnam arg) w.sess.restartPos) Q E
          (World.downloading { w with calls := calls } (prependSessionPathToFilename T w.cwd.path
            (resolveTilde T w.sess.homeStr env.getpwnam arg))) := by
  have hready : DataReady T { w with sess := { w.sess with restartPos := 0 } } :=
    ⟨h.exclusive, h.active, h.plain⟩
  obtain ⟨_, ⟨calls, rfl⟩, hchecks⟩ := dataTransferChecksOk_of_ready env hready
  refine ⟨w.calls ++ calls, fun Q E => ?_⟩
  unfold handleRetr vsfLogStartEntry
  rw [wp_bind, wp_get, wp_bind, modifySess, wp_modify, wp_bind, wp_of_ok hchecks]
  have hascii : ¬ (w.sess.isAscii = true ∧ w.sess.restartPos ≠ 0) := by simp [hbinary]
  simp only [Bool.not_true, Bool.false_eq_true, if_false]
  rw [if_neg hascii]
  simp only [resolveTildeArg, prependPath, wp_bind, wp_get, wp_pure, wp_ite]
  rw [if_neg (not_not.mpr hlog)]
  rfl

/-- A loop that a call cut short, and no failed write. -/
theorem cut_of_endsEarly {isAscii : Bool} {offset i : ℕ} {ret : TransferRet} {w' : World}
    (h : EndsEarly (getCosDownloadChunksize T) size offset env.fileDownload i)
    (hend : SendEnd T env isAscii offset size w ret w') (hnet : ret.retval ≠ -2) :
    ret.retval = 0 ∧ ∃ es, w'.events = w.events ++ es ∧ fetchedOf es < size - offset := by
  cases hend with
  | whole hret hsent hes hfetched hcalls =>
    -- all calls were made before the one that returns 0
    obtain ⟨n, hnonzero, hsize⟩ := hcalls
    have hle : n ≤ i := by
      by_contra hlt
      exact hnonzero i (by omega) h.zero
    have hmono := fetched_mono (getCosDownloadChunksize T) env.fileDownload hle
    have hearly := h.early
    omega
  | cut hret _ hes hfetched => exact ⟨hret, _, hes, hfetched⟩
  | failed hret hfailed =>
    obtain ⟨j, hneg, hneg', hnonzero⟩ := hfailed
    refine absurd ⟨j, ?_, hneg, hneg'⟩ h.reached
    by_contra hlt
    exact hnonzero i (by omega) h.zero
  | network hret => exact absurd hret hnet

end

/-- A server with the user's root /h/a/b and a download buffer of this size. -/
def bufServer (chunk : ℕ) : Tunables := { habServer with cosDownloadChunkSize := chunk }

/-- Surroundings in which only COS may fail. -/
def fetchEnv (size : ℕ) (r : ℕ → ℤ) : Env where
  connect := { accept := .conn 7 (host10 1 50000) }
  fileStat := some size
  fileDownload := r

section

variable {chunk size offset : ℕ} {r : ℕ → ℤ}

theorem calm_fetchEnv : (fetchEnv size r).Calm := ⟨fun _ => rfl, fun _ => rfl, fun _ => rfl⟩

/-- The session in front of the connection. -/
def downloadSess : Session := { logType := some .download, logStr := text "/h/a/b/x" }

/-- The session on it. -/
def connectedSess : Session :=
  { downloadSess with dataFd := some 7, ioHandler := true, alarmHandler := .data }

theorem getRemoteTransferFd_fetch {w : World} (hsess : w.sess = downloadSess)
    (hparent : w.parent = habWorld.parent) (msg : Bytes) :
    wp (getRemoteTransferFd (bufServer chunk) (fetchEnv size r) msg)
      (fun ok w' => ok = true ∧ w'.sess = connectedSess) (fun _ _ => False) w := by
  obtain ⟨sess, own, parent, cwd, disk, conn, clock, events, calls⟩ := w
  simp only at hsess hparent
  subst hsess hparent
  exact ⟨rfl, rfl⟩

theorem retrTransfer_lies {i : ℕ}
    (h : EndsEarly (getCosDownloadChunksize (bufServer chunk)) size offset r i) {w : World}
    (hsess : w.sess = downloadSess) (hparent : w.parent = habWorld.parent) (arg : Bytes) :
    wp (retrTransfer (bufServer chunk) (fetchEnv size r) arg offset size)
      (fun _ w' => Lied (size - offset) w w') (fun _ w' => Lied (size - offset) w w') w := by
  have hcalm : (fetchEnv size r).Calm := calm_fetchEnv
  unfold retrTransfer
  rw [wp_bind, wp_get, wp_bind]
  refine wp_mono (wp_and (getRemoteTransferFd_fetch hsess hparent _) (getRemoteTransferFd_started _ w)) ?_
    (fun _ _ he => he.1.elim)
  rintro connected w2 ⟨⟨rfl, hsess2⟩, hprep, -⟩
  simp only [Bool.not_true, Bool.false_eq_true, if_false]
  rw [wp_bind]
  have hascii : ((bufServer chunk).asciiDownloadEnable && w.sess.isAscii) = false := rfl
  rw [hascii]
  refine wp_mono (wp_and (doFileSendRwloop_calm hcalm (fun _ => rfl) _ offset size w2)
    (wp_and (doFileSendRwloop_end _ _ _ _ w2) (doFileSendRwloop_spec _ _ _ _ w2))) ?_ ?_
  swap
  · rintro e w3 ⟨rfl, -, horderly, -⟩
    exact horderly.elim
  rintro ret w3 ⟨⟨hnet, hsmooth⟩, hend, -⟩
  obtain ⟨hret, es, hes, hless⟩ := cut_of_endsEarly h hend hnet
  obtain ⟨es0, hes0, hplain0⟩ := hprep.events
  -- the session on the connection is what it was, and no flag is up
  have hcore : ∀ {α : Type} (f : Session → α), (∀ s, f s.core = f s) → f w3.sess = f connectedSess := by
    intro α f hf
    rw [← hf, hsmooth.core, hf, hsess2]
  have hflags : w3.Flagless := by
    constructor
    · rw [hsmooth.abor, hsess2]
      rfl
    · rw [hsmooth.timeout, hsess2]
      rfl
  have hfd : w3.sess.dataFd ≠ none := by
    rw [hcore (·.dataFd) fun _ => rfl]
    exact Option.some_ne_none 7
  have hio : w3.sess.ioHandler = true := hcore (·.ioHandler) fun _ => rfl
  have hssl : w3.sess.dataUseSsl = false := hcore (·.dataUseSsl) fun _ => rfl
  have hdata : w3.sess.dataSsl = false := hcore (·.dataSsl) fun _ => rfl
  rw [wp_bind]
  refine wp_mono (wp_and (vsfFtpdataioDisposeTransferFd_calm hfd hio hssl hdata hflags rfl)
    (vsfFtpdataioDisposeTransferFd_traced w3)) ?_ (fun _ _ he => he.1.elim)
  rintro disposed w4 ⟨rfl, htraced⟩
  obtain ⟨es4, hes4, hplain4⟩ := htraced.events
  have hall : w4.events = w.events ++ (es0 ++ es ++ es4) := by
    rw [hes4, hes, hes0]
    simp
  refine retrResult_lies hcalm hret hall ?_
  rw [fetchedOf_append, fetchedOf_append, fetchedOf_plain hplain0, fetchedOf_plain hplain4]
  omega

/-- The session asks for the object x, from `offset` on. -/
def restWorld (offset : ℕ) : World := { habWorld with sess := { restartPos := offset } }

theorem handleRetr_lies {i : ℕ}
    (h : EndsEarly (getCosDownloadChunksize (bufServer chunk)) size offset r i) :
    RetrLies (bufServer chunk) (fetchEnv size r) size (text "x") (restWorld offset) := by
  constructor
  have hready : DataReady (bufServer chunk) (restWorld offset) := ⟨.inl rfl, rfl, rfl⟩
  have hbinary : (restWorld offset).sess.isAscii = false := rfl
  have hallowed : vsfAccessSessionCheckFile habServer habRoot.path (text "x") = true := by decide
  have hfile : prependSessionPathToFilename habServer habRoot.path (text "x") = text "/h/a/b/x" := by decide
  refine (wp_handleRetr_of_ready (fetchEnv size r) hready rfl hbinary (text "x")).elim ?_
  intro calls hwp
  rw [hwp]
  set wready : World := { restWorld offset with calls := calls } with hwready
  have hname : resolveTilde (bufServer chunk) (restWorld offset).sess.homeStr (fetchEnv size r).getpwnam
      (text "x") = text "x" := rfl
  have hpath : prependSessionPathToFilename (bufServer chunk) (restWorld offset).cwd.path (text "x") =
      text "/h/a/b/x" := hfile
  rw [hname, hpath]
  have hcheck : vsfAccessSessionCheckFile (bufServer chunk)
      (wready.downloading (text "/h/a/b/x")).cwd.path (text "x") = true := hallowed
  unfold retrChecked checkFile
  simp only [wp_bind, wp_get, wp_pure, hcheck, Bool.not_true, Bool.false_eq_true, if_false]
  have hstat : (fetchEnv size r).fileStat = some size := rfl
  rw [wp_cosStatFile_of_some hstat]
  set w1 : World := { wready.downloading (text "/h/a/b/x") with
    events := (wready.downloading (text "/h/a/b/x")).events ++
      [.cos (.fileStat (getCosPathFromDiskPath (bufServer chunk)
        (wready.downloading (text "/h/a/b/x")).cwd.path (text "x")))] } with hw1
  have hwind : Winding (restWorld offset) w1 := ⟨⟨[_], rfl, by simp; rfl⟩, rfl, id⟩
  have hsess : w1.sess = downloadSess := rfl
  have hparent : w1.parent = habWorld.parent := rfl
  refine wp_mono (retrTransfer_lies h hsess hparent (text "x")) ?_ ?_
  · exact fun _ _ hl => hwind.lied hl
  · exact fun _ _ hl => hwind.lied hl

end

/-- **A download that is said to be complete is**, and one that ends earlier is
answered with an error, for every session, client and network, exactly if no
call of `FileDownload` that is made before the end of the object returns 0. -/
theorem download_complete_iff (chunk size offset : ℕ) (r : ℕ → ℤ) :
    (∀ (T : Tunables) (env : Env) (arg : Bytes) (w : World), T.cosDownloadChunkSize = chunk →
      env.fileStat = some size → env.fileDownload = r → w.sess.restartPos = offset → w.ctl.Idle T →
      w.sess.logType = none → RetrHonest T env size arg w) ↔
    ∀ i, ¬ EndsEarly (getCosDownloadChunksize (bufServer chunk)) size offset r i := by
  constructor
  · intro hhonest i hearly
    have hidle : (restWorld offset).ctl.Idle (bufServer chunk) := ⟨rfl, rfl, .inl rfl⟩
    apply (handleRetr_lies hearly).not_honest
    exact hhonest (bufServer chunk) (fetchEnv size r) (text "x") (restWorld offset) rfl rfl rfl rfl hidle rfl
  · rintro hwhole T env arg w rfl hsize rfl rfl hidle hlog
    exact retrHonest_of_whole hidle hlog hsize hwhole arg

/-- An object of 2 bytes, of which no call brings any: nothing is sent, and the
client is told that the transfer is complete. -/
theorem empty_download_is_called_complete :
    ¬ RetrHonest (bufServer 0) (fetchEnv 2 fun _ => 0) 2 (text "x") (restWorld 0) := by
  have hearly : EndsEarly (getCosDownloadChunksize (bufServer 0)) 2 0 (fun _ => 0) 0 := by
    refine ⟨rfl, ?_, by decide⟩
    rintro ⟨j, hj, -⟩
    exact absurd hj (Nat.not_lt_zero _)
  exact (handleRetr_lies hearly).not_honest

end CosFtp
