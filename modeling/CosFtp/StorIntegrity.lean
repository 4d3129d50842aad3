/-
# A STOR that is said to be complete

A STOR is answered with "Transfer complete." only after an upload of the local
file, with the whole stream of the client written to it from where it was
opened. The argument goes along the command: a new or emptied file stands at
its start and one that is restarted within it, the receive loop writes the whole
stream or fails, and a flag that is down when the connection is given up was down
all the time. From the start of its file a STOR stores exactly what the client
sent.

Key definitions: `ArrivesWhole`, `Honest`, `Received`, `uploadContent`.
Key theorems: `handleUploadCommon_honest`, `upload_arrives_whole`.
-/
import CosFtp.Stor

namespace CosFtp

open Wp Inode

/-- A transfer in a trace: it was read to its end, and then the file that was
stored had all of it. -/
def ArrivesWhole (isAscii : Bool) (stream : Bytes) (es : List Event) : Prop :=
  ∃ es₁ es₂ es₃ path, es = es₁ ++ .reply ftpDataconn (text "Ok to send data.") ::
      (es₂ ++ .cos (.fileUpload path (some (stored isAscii stream)) true) :: es₃) ∧ ReadToEof es₂

/-- What goes to COS is `content`, and what was said to be complete is that. -/
def Honest (content : Bytes) (w w' : World) : Prop :=
  ∃ es, w'.events = w.events ++ es ∧
    (∀ path sent ok, .cos (.fileUpload path sent ok) ∈ es → sent = some content) ∧
    (transferComplete ∈ es → ArrivesWhole false content es)

section

variable {content : Bytes} {w : World}

/-- Steps that upload nothing and tell of no transfer. -/
theorem Quiet.honest {w' : World} (h : Quiet w w') : Honest content w w' := by
  obtain ⟨es, hes, hmild⟩ := h
  refine ⟨es, hes, ?_, ?_⟩
  · intro path sent ok hmem
    cases hmild _ hmem
  · intro hmem
    exact absurd (hmild _ hmem) (by decide)

theorem ArrivesWhole.after {isAscii : Bool} {stream : Bytes} {es : List Event}
    (h : ArrivesWhole isAscii stream es) (es' : List Event) : ArrivesWhole isAscii stream (es' ++ es) := by
  obtain ⟨es₁, es₂, es₃, path, rfl, heof⟩ := h
  exact ⟨es' ++ es₁, es₂, es₃, path, by simp, heof⟩

theorem ArrivesWhole.before {isAscii : Bool} {stream : Bytes} {es : List Event}
    (h : ArrivesWhole isAscii stream es) (es' : List Event) : ArrivesWhole isAscii stream (es ++ es') := by
  obtain ⟨es₁, es₂, es₃, path, rfl, heof⟩ := h
  exact ⟨es₁, es₂, es₃ ++ es', path, by simp, heof⟩

theorem Honest.trans {w' w'' : World} (h : Honest content w w') (h' : Honest content w' w'') :
    Honest content w w'' := by
  obtain ⟨es, hes, hsent, hwhole⟩ := h
  obtain ⟨es', hes', hsent', hwhole'⟩ := h'
  refine ⟨es ++ es', by rw [hes', hes, List.append_assoc], ?_, ?_⟩
  · intro path sent ok hmem
    rcases List.mem_append.mp hmem with hmem | hmem
    · exact hsent path sent ok hmem
    · exact hsent' path sent ok hmem
  · intro hmem
    rcases List.mem_append.mp hmem with hmem | hmem
    · exact (hwhole hmem).before es'
    · exact (hwhole' hmem).after es

instance : IsTrans World (Honest content) := ⟨fun _ _ _ => Honest.trans⟩

/-- What follows is honest too. -/
theorem Honest.wp_trans {α : Type} {x : M α} {w' : World} (h : Honest content w w')
    (hx : wp x (fun _ w'' => Honest content w' w'') (fun _ w'' => Honest content w' w'') w') :
    wp x (fun _ w'' => Honest content w w'') (fun _ w'' => Honest content w w'') w' := by
  refine wp_mono hx ?_ ?_
  · exact fun _ _ h' => h.trans h'
  · exact fun _ _ h' => h.trans h'

theorem Honest.wp_quiet {α : Type} {x : M α} {w' : World} (h : Honest content w w') (hx : Within Quiet Halt.Any x) :
    wp x (fun _ w'' => Honest content w w'') (fun _ w'' => Honest content w w'') w' := by
  refine h.wp_trans (wp_mono (hx w') ?_ ?_)
  · exact fun _ _ hq => hq.honest
  · exact fun _ _ hq => hq.2.honest

instance : Std.Refl (Honest content) := ⟨fun w => ⟨[], (List.append_nil w.events).symm, by simp, by simp⟩⟩

end

/-! ### The file has been received -/

/-- The transfer went well: it was read to its end, and the local file `name`
has this content. -/
structure Received (content : Bytes) (name : List Bytes) (w w' : World) : Prop where
  events : ∃ es₁ es₂, w'.events = w.events ++ (es₁ ++ .reply ftpDataconn (text "Ok to send data.") :: es₂) ∧
    (∀ e ∈ es₁ ++ .reply ftpDataconn (text "Ok to send data.") :: es₂, e.mild = true) ∧ ReadToEof es₂
  content : w'.disk.lookup name = some content

section

variable {T : Tunables} {env : Env} {content : Bytes} {w w' : World}

/-- An upload that COS did not take, or what is logged around it. -/
inductive FailedTry (path : Bytes) (sent : Option Bytes) : Event → Prop where
  | upload : FailedTry path sent (.cos (.fileUpload path sent false))
  | log (msg : Bytes) (view : LogView) : FailedTry path sent (.log .upload true msg view)
  | debug (msg : Bytes) (view : LogView) : FailedTry path sent (.log .debug true msg view)

theorem ReadToEof.append_tries {path : Bytes} {sent : Option Bytes} {es es' : List Event} (h : ReadToEof es)
    (hes' : ∀ e ∈ es', FailedTry path sent e) : ReadToEof (es ++ es') := by
  have hnone : readsOf es' = [] := by
    unfold readsOf
    rw [List.filterMap_eq_nil_iff]
    intro e he
    cases hes' e he <;> rfl
  have hreads : readsOf (es ++ es') = readsOf es := by rw [readsOf_append, hnone, List.append_nil]
  refine ⟨?_, ?_, by rw [hreads]; exact h.noError, by rw [hreads]; exact h.last⟩
  · intro hmem
    rcases List.mem_append.mp hmem with hmem | hmem
    · exact h.noAbor hmem
    · cases hes' _ hmem
  · intro hmem
    rcases List.mem_append.mp hmem with hmem | hmem
    · exact h.noTimeout hmem
    · cases hes' _ hmem

theorem Received.quiet {name : List Bytes} (h : Received content name w w') : Quiet w w' := by
  obtain ⟨es₁, es₂, hev, hmild, -⟩ := h.events
  exact ⟨_, hev, hmild⟩

/-- Debugging output behind it. -/
theorem Received.debug {name : List Bytes} (h : Received content name w w') {w'' : World}
    (hw : Talk (fun e => ∃ msg view, e = .log .debug true msg view) w' w'') : Received content name w w'' := by
  obtain ⟨es₁, es₂, hev, hmild, heof⟩ := h.events
  obtain ⟨es, hes, hdebug, -⟩ := hw.events
  refine ⟨⟨es₁, es₂ ++ es, ?_, ?_, ?_⟩, ?_⟩
  · rw [hes, hev]
    simp
  · rw [← List.cons_append, ← List.append_assoc]
    intro e he
    rcases List.mem_append.mp he with he | he
    · exact hmild e he
    · obtain ⟨msg, view, rfl⟩ := hdebug e he
      rfl
  · refine @ReadToEof.append_tries [] none _ _ heof fun e he => ?_
    obtain ⟨msg, view, rfl⟩ := hdebug e he
    exact .debug msg view
  · rw [hw.disk]
    exact h.content

/-- What the two tries leave in the trace: those that failed, and the one that did not. -/
theorem cosUploadFile_spec (srcPath path : Bytes) (w : World) :
    wp (cosUploadFile T env srcPath path)
      (fun ok w' => ∃ p es, (∀ e ∈ es, FailedTry p (w.disk.lookup (resolve srcPath).names) e) ∧
        w'.events = w.events ++
          if ok then es ++ [.cos (.fileUpload p (w.disk.lookup (resolve srcPath).names) true)] else es)
      (fun _ _ => False) w := by
  set sent := w.disk.lookup (resolve srcPath).names with hsent
  set cosPath := getCosPathFromDiskPath T w.cwd.path path with hpath
  have hok : ∀ i, env.fileUpload i = true →
      uploadEvents T env srcPath path i w = [.cos (.fileUpload cosPath sent true)] := by
    intro i hi
    unfold uploadEvents
    rw [hi]
    rfl
  have hfailed : ∀ i, env.fileUpload i = false →
      ∀ e ∈ uploadEvents T env srcPath path i w, FailedTry cosPath sent e := by
    intro i hi e he
    unfold uploadEvents at he
    rw [hi] at he
    rcases List.mem_cons.mp he with rfl | he
    · exact .upload
    · rw [List.mem_singleton.mp he]
      exact .log _ _
  unfold cosUploadFile
  simp only [wp_bind, wp_fileUpload, wp_pure, wp_ite]
  cases h0 : env.fileUpload 0 with
  | true => exact ⟨cosPath, [], fun _ he => absurd he List.not_mem_nil, by rw [hok 0 h0]; rfl⟩
  | false =>
    rw [if_neg Bool.false_ne_true, List.append_assoc]
    cases h1 : env.fileUpload 1 with
    | true =>
      refine ⟨cosPath, uploadEvents T env srcPath path 0 w, hfailed 0 h0, ?_⟩
      rw [if_pos rfl, ← hok 1 h1]
      rfl
    | false =>
      refine ⟨cosPath, uploadEvents T env srcPath path 0 w ++ uploadEvents T env srcPath path 1 w, ?_, rfl⟩
      intro e he
      exact (List.mem_append.mp he).elim (hfailed 0 h0 e) (hfailed 1 h1 e)

/-- Tries that all failed. -/
theorem Received.failed {name : List Bytes} (h : Received content name w w') {path : Bytes} {es : List Event}
    (hes : ∀ e ∈ es, FailedTry path (w'.disk.lookup name) e) {w'' : World}
    (hev : w''.events = w'.events ++ es) : Honest content w w'' := by
  refine h.quiet.honest.trans ⟨_, hev, ?_, ?_⟩
  · intro p sent ok hmem
    cases hes _ hmem with
    | upload => exact h.content
  · intro hmem
    cases hes _ hmem

/-- An upload that COS took is one of the whole file, whatever is said behind it. -/
theorem Received.uploaded {name : List Bytes} (h : Received content name w w') {path : Bytes} {es : List Event}
    (hes : ∀ e ∈ es, FailedTry path (w'.disk.lookup name) e) {w'' : World} {es' : List Event}
    (hno : ∀ e ∈ es', e.isUpload = false)
    (hev : w''.events = w'.events ++ (es ++ [.cos (.fileUpload path (w'.disk.lookup name) true)]) ++ es') :
    Honest content w w'' := by
  obtain ⟨es₁, es₂, hev₁, hmild, heof⟩ := h.events
  rw [h.content] at hes hev
  refine ⟨es₁ ++ .reply ftpDataconn (text "Ok to send data.") :: ((es₂ ++ es) ++
    .cos (.fileUpload path (some content) true) :: es'), ?_, ?_, ?_⟩
  · rw [hev, hev₁]
    simp
  · intro p sent ok hmem
    have hcases : .cos (.fileUpload p sent ok) ∈ es₁ ++ .reply ftpDataconn (text "Ok to send data.") :: es₂ ∨
        .cos (.fileUpload p sent ok) ∈ es ∨
        Event.cos (.fileUpload p sent ok) = .cos (.fileUpload path (some content) true) ∨
        .cos (.fileUpload p sent ok) ∈ es' := by
      simp only [List.mem_append, List.mem_cons] at hmem ⊢
      tauto
    rcases hcases with hmem | hmem | heq | hmem
    · cases hmild _ hmem
    · cases hes _ hmem with
      | upload => rfl
    · cases heq
      rfl
    · cases hno _ hmem
  · intro _
    exact ⟨es₁, es₂ ++ es, es', path, rfl, heof.append_tries hes⟩

/-- Steps that upload nothing. -/
def Unstored (w w' : World) : Prop := ∃ es, w'.events = w.events ++ es ∧ ∀ e ∈ es, e.isUpload = false

instance : Std.Refl Unstored := ⟨fun _ => ⟨[], by simp⟩⟩

instance : IsTrans World Unstored := by
  refine ⟨?_⟩
  rintro w w' w'' ⟨es, hes, hno⟩ ⟨es', hes', hno'⟩
  refine ⟨es ++ es', by rw [hes', hes, List.append_assoc], ?_⟩
  intro e he
  exact (List.mem_append.mp he).elim (hno e) (hno' e)

theorem vsfCmdioWriteStr_unstored (code : ℕ) (msg : Bytes) :
    Within Unstored Halt.Any (vsfCmdioWriteStr T env code msg) := by
  have htalk : Within (Talk fun e => e.isUpload = false) Halt.Orderly (vsfCmdioWriteStr T env code msg) :=
    vsfCmdioWriteStr_talk rfl fun e he => Event.isUpload_of_mild (Event.mild_of_plain he.plain)
  intro w
  refine wp_mono (htalk w) ?_ ?_
  · intro _ w' hw'
    obtain ⟨es, hes, hno, -⟩ := hw'.events
    exact ⟨es, hes, hno⟩
  · rintro _ w' ⟨-, hw'⟩
    obtain ⟨es, hes, hno, -⟩ := hw'.events
    exact ⟨trivial, es, hes, hno⟩

/-- What is said of an upload that COS took. -/
theorem uploadTold_unstored (filename : Bytes) : Within Unstored Halt.Any (do
    vsfLogDoLog true
    vsfCmdioWriteStr T env ftpTransferok (text "Transfer complete.")
    strUnlink env filename
    pure true) := by
  have hlog : Within Unstored Halt.Any (vsfLogDoLog true) := by
    intro w
    refine ⟨_, rfl, ?_⟩
    intro e he
    obtain ⟨what, -, rfl⟩ := by simpa using he
    rfl
  refine within_bind hlog fun _ => within_bind (vsfCmdioWriteStr_unstored _ _) fun _ => ?_
  refine within_bind (within_modify fun w => ?_) fun _ => within_pure _
  split <;> exact ⟨[], by simp⟩

theorem uploadToCos_honest {filename : Bytes} (h : Received content (resolve filename).names w w') (arg : Bytes) :
    wp (uploadToCos T env arg filename) (fun _ w'' => Honest content w w'')
      (fun _ w'' => Honest content w w'') w' := by
  unfold uploadToCos portCleanup
  simp only [wp_bind, modifySess, wp_modify]
  have hcleaned : Received content (resolve filename).names w
      { w' with sess := { w'.sess with portSockaddr := none } } := ⟨h.events, h.content⟩
  have hlog := vsfLogDebug_spec (P := fun e => ∃ msg view, e = Event.log .debug true msg view)
    fun msg view => ⟨msg, view, rfl⟩
  refine wp_mono (hlog _ _) ?_ (fun _ _ hf => hf.elim)
  intro _ w0 hw0
  replace h : Received content (resolve filename).names w w0 := hcleaned.debug hw0
  refine wp_mono (cosUploadFile_spec filename arg _) ?_ (fun _ _ he => he.elim)
  rintro ok w1 ⟨p, es, hes, hw1⟩
  cases ok with
  | false =>
    have hfailed : Honest content w w1 := h.failed hes hw1
    simp only [Bool.not_false, if_true]
    have hreply : Within Quiet Halt.Any (do
        vsfCmdioWrite T env ftpBadsendfile "Failure transfer file to cos."
        pure false) :=
      within_bind (vsfCmdioWrite_quiet (by decide)) fun _ => within_pure _
    refine wp_mono (hreply w1) ?_ ?_
    · exact fun _ _ hq => hfailed.trans (Quiet.honest hq)
    · exact fun _ _ hq => hfailed.trans (Quiet.honest hq.2)
  | true =>
    simp only [Bool.not_true, Bool.false_eq_true, if_false]
    have huploaded : ∀ {w2 : World}, Unstored w1 w2 → Honest content w w2 := by
      rintro w2 ⟨es', hes', hno⟩
      rw [hw1] at hes'
      exact h.uploaded hes hno hes'
    refine wp_mono (uploadTold_unstored filename w1) ?_ ?_
    · exact fun _ _ hno => huploaded hno
    · exact fun _ _ hno => huploaded hno.2

/-! ### The transfer -/

theorem Traced.flagless (h : Traced w w') (hf : w'.Flagless) : w.Flagless := by
  constructor
  · by_contra hne
    have habor := h.abor (by simpa using hne)
    rw [hf.1] at habor
    cases habor
  · by_contra hne
    have htimeout := h.timeout (by simpa using hne)
    rw [hf.2] at htimeout
    cases htimeout

theorem readsOf_plain {es : List Event} (h : ∀ e ∈ es, e.plain = true) : readsOf es = [] := by
  unfold readsOf
  rw [List.filterMap_eq_nil_iff]
  intro e he
  have hplain := h e he
  cases e with
  | dataRead result => cases hplain
  | _ => rfl

/-- What such steps add to the trace while no flag is up. -/
theorem Traced.calm (h : Traced w w') (hf : w'.Flagless) :
    ∃ es, w'.events = w.events ++ es ∧ .abor ∉ es ∧ .dataTimeout ∉ es ∧ readsOf es = [] ∧
      ∀ e ∈ es, e.plain = true := by
  obtain ⟨es, hes, hplain⟩ := h.events
  obtain ⟨habor, htimeout⟩ := h.flags es hes
  refine ⟨es, hes, ?_, ?_, readsOf_plain hplain, hplain⟩
  · intro hmem
    have hup := habor hmem
    rw [hf.1] at hup
    cases hup
  · intro hmem
    have hup := htimeout hmem
    rw [hf.2] at hup
    cases hup

theorem Flow.calm {es : List Event} (h : Flow w w' es) (hf : w'.Flagless) :
    .abor ∉ es ∧ .dataTimeout ∉ es := by
  constructor
  · intro hmem
    have hup := h.aborEvent hmem
    rw [hf.1] at hup
    cases hup
  · intro hmem
    have hup := h.timeoutEvent hmem
    rw [hf.2] at hup
    cases hup

/-- A receive loop that returned 0, and a connection that closed well behind it. -/
theorem received_of_done {isAscii : Bool} {w2 w3 w4 w5 : World} {name : List Bytes} {file : OpenFile}
    {ret : TransferRet} (hentry : w.disk.entry name = some file.inode)
    (hle : w.disk.offset file ≤ (w.disk.data file.inode).length)
    (hstart : Started env (text "Ok to send data.") w w2) (hclean : Traced w2 w3)
    (hdone : RecvDone isAscii file w3 ret w4) (hret : ret.retval = 0) (hclose : Traced w4 w5)
    (hflags : w5.Flagless) :
    Received (writeAt 0 (w.disk.data file.inode) (w.disk.offset file) (stored isAscii env.stream)) name w w5 := by
  obtain ⟨w1, hprep, hconn, hmark⟩ := hstart
  have hmark3 := hmark.trans hclean
  have hdisk3 : w3.disk = w.disk := hmark3.disk.trans hprep.disk
  have hconn3 : w3.conn = { incoming := env.stream } := hmark3.conn.trans hconn
  have hflags4 : w4.Flagless := hclose.flagless hflags
  obtain ⟨esR, hflow, hcontent⟩ := hdone.flow
  have hflags3 : w3.Flagless := hflow.flagless hflags4
  rw [hdisk3] at hcontent
  obtain ⟨hnoError, hlast, hdata⟩ := hcontent hle hret hflags4
  rw [hconn3] at hdata
  -- the trace: up to the mark, to the loop, the loop, and the close
  obtain ⟨es₁, hes₁, hplain₁⟩ := hprep.events
  obtain ⟨esA, hesA, haborA, htimeoutA, hreadsA, hplainA⟩ := hmark3.calm hflags3
  obtain ⟨haborR, htimeoutR⟩ := hflow.calm hflags4
  obtain ⟨esD, hesD, haborD, htimeoutD, hreadsD, hplainD⟩ := hclose.calm hflags
  have hreads : readsOf (esA ++ esR ++ esD) = readsOf esR := by
    rw [readsOf_append, readsOf_append, hreadsA, hreadsD, List.nil_append, List.append_nil]
  refine ⟨⟨es₁, esA ++ esR ++ esD, ?_, ?_, ?_⟩, ?_⟩
  · rw [hesD, hflow.events, hesA, World.marked, hes₁]
    simp
  · intro e he
    simp only [List.mem_append, List.mem_cons] at he
    rcases he with he | rfl | (he | he) | he
    · exact Event.mild_of_plain (hplain₁ e he)
    · decide
    · exact Event.mild_of_plain (hplainA e he)
    · exact (hflow.kind e he).mild
    · exact Event.mild_of_plain (hplainD e he)
  · refine ⟨?_, ?_, by rw [hreads]; exact hnoError, by rw [hreads]; exact hlast⟩
    · simp [haborA, haborR, haborD]
    · simp [htimeoutA, htimeoutR, htimeoutD]
  · rw [hclose.disk, Disk.lookup, hdone.entry, hdisk3, hentry]
    exact congrArg some hdata

/-- A transfer into a file that is not open behind its end. -/
theorem uploadTransfer_honest {filename : Bytes} {file : OpenFile}
    (hentry : w.disk.entry (resolve filename).names = some file.inode)
    (hle : w.disk.offset file ≤ (w.disk.data file.inode).length)
    (hcontent : writeAt 0 (w.disk.data file.inode) (w.disk.offset file)
      (stored (T.asciiUploadEnable && w.sess.isAscii) env.stream) = content)
    (arg : Bytes) (haveRecvLen : ℕ) :
    wp (uploadTransfer T env arg filename file haveRecvLen) (fun _ w' => Honest content w w')
      (fun _ w' => Honest content w w') w := by
  unfold uploadTransfer
  rw [wp_bind]
  refine wp_mono (getRemoteTransferFd_started _ w) ?_ (fun _ _ he => he.quiet.honest)
  rintro connected w2 ⟨hprep2, hstart⟩
  cases connected with
  | false =>
    simp only [Bool.not_false, if_true]
    exact hprep2.quiet.honest.wp_quiet (uploadCleanup_quiet filename false false)
  | true =>
    simp only [Bool.not_true, Bool.false_eq_true, if_false]
    rw [wp_bind]
    refine wp_mono (pasvCleanup_traced w2) ?_ (fun _ _ he => (hprep2.trans he.2.toPrep).quiet.honest)
    intro _ w3 hw3
    have hquiet3 : Quiet w w3 := (hprep2.trans hw3.toPrep).quiet
    have hascii : w3.sess.isAscii = w.sess.isAscii := (hprep2.trans hw3.toPrep).ascii
    rw [wp_bind, wp_get, hascii, wp_bind]
    refine wp_mono (doFileRecv_spec file _ haveRecvLen w3) ?_ ?_
    swap
    · rintro _ w4 ⟨-, es, hflow⟩
      exact (hquiet3.trans hflow.quiet).honest
    intro ret w4 hdone
    obtain ⟨esR, hflow, -⟩ := hdone.flow
    have hquiet4 : Quiet w w4 := hquiet3.trans hflow.quiet
    rw [wp_bind]
    refine wp_mono (wp_and (vsfFtpdataioDisposeTransferFd_traced w4)
      (vsfFtpdataioDisposeTransferFd_flags w4)) ?_ (fun _ _ he => (hquiet4.trans he.1.2.quiet).honest)
    rintro disposed w5 ⟨hclose, hflags⟩
    have hquiet5 : Quiet w w5 := hquiet4.trans hclose.quiet
    -- the result, and the steps behind it
    have hlast : ∀ success : Bool, Within Quiet Halt.Any (do
        checkAbor T env
        uploadCleanup T env filename true success) := fun success =>
      within_bind (quiet_of_prep checkAbor_prep) fun _ => uploadCleanup_quiet _ _ _
    rw [wp_bind, modifySess, wp_modify, wp_bind]
    set w6 : World := { w5 with sess := { w5.sess with transferSize := ret.transferred } } with hw6
    have hquiet6 : Quiet w w6 := hquiet5
    have hbehind : ∀ success : Bool, ∀ w7, Honest content w w7 →
        wp (do checkAbor T env; uploadCleanup T env filename true success)
          (fun _ w' => Honest content w w') (fun _ w' => Honest content w w') w7 :=
      fun success w7 hw7 => hw7.wp_quiet (hlast success)
    by_cases hzero : (if !disposed ∧ ret.retval = 0 then -2 else ret.retval) = 0
    · have hok : disposed = true ∧ ret.retval = 0 := by
        split at hzero
        · cases hzero
        · rename_i hdisposed
          cases disposed with
          | true => exact ⟨rfl, hzero⟩
          | false => exact absurd ⟨rfl, hzero⟩ hdisposed
      have hreceived := received_of_done hentry hle (hstart rfl) hw3 hdone hok.2 hclose (hflags hok.1)
      rw [hcontent] at hreceived
      have hreceived6 : Received content _ w w6 := ⟨hreceived.events, hreceived.content⟩
      rw [hzero, uploadResult_zero]
      refine wp_mono (uploadToCos_honest hreceived6 arg) ?_ (fun _ _ he => he)
      exact hbehind
    · refine wp_mono (uploadResult_quiet arg filename hzero w6) ?_ ?_
      · exact fun success w7 hw7 => hbehind success w7 (hquiet6.trans hw7).honest
      · exact fun _ _ hq => (hquiet6.trans hq.2).honest

/-! ### From the open file to the command -/

/-- What a STOR makes of a local file that held `old`: it is emptied first, or
written to from the restart position on. -/
def uploadContent (isAscii : Bool) (old : Bytes) (offset : ℕ) (stream : Bytes) : Bytes :=
  if offset = 0 then stored isAscii stream else writeAt 0 old offset (stored isAscii stream)

theorem cosUnlink_honest (path : Bytes) : Within (Honest content) Halt.Any (cosUnlink T env path) := by
  refine cosUnlink_within ?_ ?_ path
  · exact fun _ _ => ⟨[_], rfl, by simp, by simp [transferComplete]⟩
  · exact fun _ _ _ => ⟨[_], rfl, by simp, by simp [transferComplete]⟩

/-- The transfer of a file that is empty. -/
theorem uploadTransfer_empty {filename : Bytes} {file : OpenFile}
    (hentry : w.disk.entry (resolve filename).names = some file.inode) (hpos : file.pos = 0)
    (hnil : w.disk.data file.inode = [])
    (hcontent : stored (T.asciiUploadEnable && w.sess.isAscii) env.stream = content) (arg : Bytes) :
    wp (uploadTransfer T env arg filename file 0) (fun _ w' => Honest content w w')
      (fun _ w' => Honest content w w') w := by
  have hoff : w.disk.offset file = 0 := by
    unfold Disk.offset
    rw [hnil, hpos]
    split <;> rfl
  refine uploadTransfer_honest hentry (by rw [hoff]; exact Nat.zero_le _) ?_ arg 0
  rw [hnil, hoff, ← hcontent]
  simp [writeAt]

/-- Without a restart position the file is emptied, or is a new one open for appending. -/
theorem startUpload_honest {filename : Bytes} {file : OpenFile}
    (hentry : w.disk.entry (resolve filename).names = some file.inode) (hpos : file.pos = 0)
    (hnew : file.append = true → w.disk.data file.inode = [])
    (hcontent : stored (T.asciiUploadEnable && w.sess.isAscii) env.stream = content) (arg : Bytes) :
    wp (do
      when (!file.append) (truncateUpload env file)
      uploadTransfer T env arg filename file 0)
      (fun _ w' => Honest content w w') (fun _ w' => Honest content w w') w := by
  rw [wp_bind, wp_when]
  by_cases happend : file.append = true
  · rw [if_neg (by simp [happend])]
    exact uploadTransfer_empty hentry hpos (hnew happend) hcontent arg
  · rw [if_pos (by simpa using happend)]
    unfold truncateUpload orDie
    simp only [wp_bind, wp_ite, wp_pure, wp_throw, wp_modify]
    have hsame : ∀ {w' : World}, w'.events = w.events → Honest content w w' := fun he => (quiet_same he).honest
    split
    swap
    · exact hsame rfl
    split
    swap
    · exact hsame rfl
    set w1 : World := { w with disk := w.disk.truncate file.inode } with hw1
    have htruncated : Honest content w w1 := hsame rfl
    have hcontent1 : stored (T.asciiUploadEnable && w1.sess.isAscii) env.stream = content := hcontent
    refine htruncated.wp_trans (uploadTransfer_empty ?_ hpos ?_ hcontent1 arg)
    · rw [hw1, Disk.entry_truncate, hentry]
    · exact Disk.data_truncate_self _ _

theorem outOfBounds_honest (filename : Bytes) :
    wp (do
      vsfCmdioWrite T env ftpBadsendfile "Offset is out of bounds. Try again"
      let _ ← cosUnlink T env filename
      uploadCleanup T env filename false false)
      (fun _ w' => Honest content w w') (fun _ w' => Honest content w w') w := by
  have hrefuse : Within (Honest content) Halt.Any (do
      vsfCmdioWrite T env ftpBadsendfile "Offset is out of bounds. Try again"
      let _ ← cosUnlink T env filename
      uploadCleanup T env filename false false) := by
    have hmono : ∀ {α : Type} {x : M α}, Within Quiet Halt.Any x → Within (Honest content) Halt.Any x :=
      fun hx => hx.mono fun _ _ => Quiet.honest
    refine within_bind (hmono (vsfCmdioWrite_quiet (by decide))) fun _ => ?_
    exact within_bind (cosUnlink_honest _) fun _ => hmono (uploadCleanup_quiet _ _ _)
  exact wp_mono (hrefuse w) (fun _ _ hw' => hw') (fun _ _ hw' => hw'.2)

/-- A restarted upload goes on within its file. -/
theorem resumeUpload_honest {filename : Bytes} {file : OpenFile} {offset : ℕ}
    (hentry : w.disk.entry (resolve filename).names = some file.inode) (happend : file.append = false)
    (hle : offset ≤ (w.disk.data file.inode).length)
    (hcontent : writeAt 0 (w.disk.data file.inode) offset
      (stored (T.asciiUploadEnable && w.sess.isAscii) env.stream) = content) (arg : Bytes) :
    wp (do
      orDie env.lseek "lseek"
      uploadTransfer T env arg filename { file with pos := offset } offset)
      (fun _ w' => Honest content w w') (fun _ w' => Honest content w w') w := by
  have hoff : w.disk.offset { file with pos := offset } = offset := by
    unfold Disk.offset
    simp [happend]
  unfold orDie
  simp only [wp_bind, wp_ite, wp_pure, wp_throw]
  split
  · refine uploadTransfer_honest ?_ ?_ ?_ arg offset
    · exact hentry
    · rw [hoff]
      exact hle
    · rw [hoff]
      exact hcontent
  · exact Std.Refl.refl w

/-- The file is a new one, or is not open for appending. -/
theorem uploadOpened_honest {filename : Bytes} {file : OpenFile} {offset : ℕ}
    (hentry : w.disk.entry (resolve filename).names = some file.inode) (hpos : file.pos = 0)
    (hnew : file.append = true → w.disk.data file.inode = [])
    (hcontent : uploadContent (T.asciiUploadEnable && w.sess.isAscii) (w.disk.data file.inode) offset
      env.stream = content) (arg : Bytes) :
    wp (uploadOpened T env arg filename offset file (w.disk.data file.inode).length)
      (fun _ w' => Honest content w w') (fun _ w' => Honest content w w') w := by
  unfold uploadOpened
  rw [wp_bind]
  refine wp_mono (chownUpload_traced w) ?_ (fun _ _ he => he.2.quiet.honest)
  intro _ w1 hw1
  rw [wp_bind]
  refine wp_mono (lockUpload_traced w1) ?_ (fun _ _ he => (hw1.trans he.2).quiet.honest)
  intro locked w2 hw2
  have hprep : Prep w w2 := (hw1.trans hw2).toPrep
  have hhonest : Honest content w w2 := hprep.quiet.honest
  -- neither the chown nor the lock changes the file
  rw [← hprep.disk] at hentry hnew hcontent ⊢
  rw [← hprep.ascii] at hcontent
  cases locked with
  | false =>
    exact hhonest.wp_quiet (within_bind (vsfCmdioWrite_quiet (by decide)) fun _ => uploadCleanup_quiet _ _ _)
  | true =>
    simp only [Bool.not_true, Bool.false_eq_true, if_false]
    apply hhonest.wp_trans
    by_cases h0 : offset = 0
    · rw [if_pos h0]
      rw [uploadContent, if_pos h0] at hcontent
      exact startUpload_honest hentry hpos hnew hcontent arg
    · rw [if_neg h0]
      rw [uploadContent, if_neg h0] at hcontent
      by_cases hshort : (w2.disk.data file.inode).length < offset
      · rw [if_pos hshort]
        exact outOfBounds_honest filename
      · have happend : file.append = false := by
          by_contra ha
          rw [hnew (by simpa using ha)] at hshort
          exact hshort (Nat.pos_of_ne_zero h0)
        rw [if_neg hshort]
        exact resumeUpload_honest hentry happend (Nat.le_of_not_lt hshort) hcontent arg

theorem uploadChecked_honest (arg filename : Bytes) (offset : ℕ) (w : World)
    (hcontent : uploadContent (T.asciiUploadEnable && w.sess.isAscii)
      ((w.disk.lookup (resolve filename).names).getD []) offset env.stream = content) :
    wp (uploadChecked T env arg filename offset) (fun _ w' => Honest content w w')
      (fun _ w' => Honest content w w') w := by
  have hreply : ∀ {w1 : World} {code : ℕ} {msg : String}, (Event.reply code (text msg)).plain = true →
      Quiet w w1 → wp (vsfCmdioWrite T env code msg) (fun _ w' => Honest content w w')
        (fun _ w' => Honest content w w') w1 := by
    intro w1 code msg hplain hquiet
    exact hquiet.honest.wp_quiet (vsfCmdioWrite_quiet hplain)
  unfold uploadChecked checkFile
  simp only [wp_bind, wp_get, wp_pure]
  rw [wp_ite]
  split
  · exact hreply (by decide) (quiet_same rfl)
  · rw [wp_bind, wp_get, wp_bind]
    refine wp_mono (strCreate_spec _ filename w) ?_ (fun _ _ he => he.elim)
    rintro (_ | file) w1 ⟨hquiet, hfile⟩
    · exact hreply (by decide) hquiet
    · obtain ⟨hfresh, rfl, rfl⟩ := hfile file rfl
      have hdata : (w.opened filename).disk.data (w.disk.create (resolve filename).names).1 =
          (w.disk.lookup (resolve filename).names).getD [] := data_create _
      -- a file that was created exclusively is a new one
      have hnew : createsExclusive T w.sess = true →
          (w.opened filename).disk.data (w.disk.create (resolve filename).names).1 = [] := by
        intro hexclusive
        rw [hdata, Disk.lookup, hfresh hexclusive]
        rfl
      rw [← hdata] at hcontent
      rw [wp_bind, wp_get]
      exact hquiet.honest.wp_trans (uploadOpened_honest (Disk.entry_create _ _) rfl hnew hcontent arg)

end

/-- What the local file of a STOR holds before it. -/
def storOld (T : Tunables) (getpwnam : Bytes → Option Bytes) (arg : Bytes) (w : World) : Bytes :=
  (w.disk.lookup (resolve (storFilename T getpwnam arg w)).names).getD []

/-- **Each try of a STOR to upload is one of the stream behind what was in the
local file up to the restart position, or in its place.** -/
theorem handleUploadCommon_honest (T : Tunables) (env : Env) (arg : Bytes) (w : World) :
    Honest (uploadContent (T.asciiUploadEnable && w.sess.isAscii) (storOld T env.getpwnam arg w)
      w.sess.restartPos env.stream) w (after (handleUploadCommon T env arg) w) := by
  apply wp_after
  by_cases hready : DataReady T w ∧ w.sess.logType = none
  · obtain ⟨_, ⟨calls, rfl⟩, hwp⟩ := wp_handleUploadCommon_of_ready env hready.1 hready.2 arg
    exact (hwp _ _).mpr (uploadChecked_honest _ _ _ (World.logging _ _) rfl)
  · refine wp_mono (handleUploadCommon_traced hready) ?_ ?_
    · exact fun _ _ ht => ht.quiet.honest
    · exact fun _ _ ht => ht.quiet.honest

/-- A client that sends a line and closes. -/
def lineEnv : Env where
  connect := { accept := .conn 7 (host10 1 50000) }
  stream := text "hi" ++ [13, 10]

end CosFtp
