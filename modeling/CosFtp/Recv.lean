/-
# Uploads

`do_file_recv` moves what the client sends to a local file: a round of its
loop reads a chunk, converts it for an ASCII transfer and writes it.

The client's bytes are given as a whole, `conn.incoming`, and a read takes some
of them. A read that finds nothing means that the client has closed, unless the
connection was shut down for an abort or a timeout: then any read may find
nothing. `RecvInv` says how far an upload is; it says nothing about the content
once a flag is up, since then the upload fails when the connection is given up.

Key definitions: `ftpReadData`, `recvIter`, `recvLoop`, `RecvInv`, `LimitKept`.
Key theorems: `doFileRecv_spec`, `upload_limit_iff`.
-/
import CosFtp.Send
import CosFtp.Trace

namespace CosFtp

open Wp Inode

variable (T : Tunables) (env : Env)

/-- How many bytes a read finds, or `none` for an error. -/
def readLength (chunkSize : ℕ) (w : World) : Option ℕ :=
  (env.read w.clock).map fun want =>
    let shut := w.sess.aborReceived || w.sess.dataTimeout
    if shut ∧ want = 0 then 0 else min (max want 1) (min chunkSize w.conn.incoming.length)

/-- Bytes taken off the data connection, or a read that failed. -/
def World.took (w : World) (n : Option ℕ) : World :=
  { w with
    conn := { w.conn with incoming := w.conn.incoming.drop (n.getD 0) }
    events := w.events ++ [.dataRead (n.elim (-1) (↑))] }

/-- What is logged where a TLS data connection ends without a shutdown. -/
def dataTruncated : Bytes :=
  text "DATA connection terminated without SSL shutdown. Buggy client! Integrity of upload cannot be asserted."

/-- What the read there comes to: the end of the file is an error if it is to be strict. -/
def truncatedRead : Option ℕ := if T.strictSslReadEof then none else some 0

/-- `ftp_read_data`: the bytes read, or `none` for an error. -/
def ftpReadData (chunkSize : ℕ) : M (Option Bytes) := do
  let w ← get
  interrupted T env (env.interrupts w.clock)
  let w ← get
  let n := readLength env chunkSize w
  modify fun w => w.took n
  handleIo (n.elim (-1) (↑))
  checkPendingActions T env
  when (w.sess.dataUseSsl ∧ env.sslTruncated ∧ n = truncatedRead T) (vsfLogDebug [dataTruncated])
  pure (n.map fun n => w.conn.incoming.take n)

/-- `vsf_sysutil_write_loop` to a local file. -/
def vsfSysutilWriteLoop (file : OpenFile) (buf : Bytes) : M (OpenFile × ℤ) := do
  let w ← get
  let outcome := env.fileWrite w.clock
  let taken := min outcome.taken buf.length
  let ret : ℤ := if outcome.error then -1 else taken
  modify fun w => { w with disk := (w.disk.write 0 file (buf.take taken)).2 }
  checkPendingActions T env
  pure ((w.disk.write 0 file (buf.take taken)).1, ret)

/-- The size check of `do_file_recv`: its `&&` stands inside the comparison. -/
def maxUploadExceeded (received : ℕ) : Bool :=
  let maxUploadFileSize := T.maxUploadFileSize * 1024
  maxUploadFileSize < if 0 < maxUploadFileSize ∧ received ≠ 0 then 1 else 0

/-- What is stored of the bytes, and the CR flag behind them. -/
def fromWire (isAscii : Bool) (buf : Bytes) (prevCr : Bool) : Bytes × Bool :=
  if isAscii then vsfAsciiAsciiToBin buf prevCr else (buf, prevCr)

/-- The variables of `do_file_recv`, and the open file. -/
structure RecvState where
  file : OpenFile
  prevCr : Bool := false
  transferred : ℕ := 0
  deriving DecidableEq

/-- A chunk goes to the file. -/
def recvChunk (isAscii : Bool) (haveRecvLen : ℕ) (st : RecvState) (buf : Bytes) :
    M (RecvState ⊕ TransferRet) := do
  let transferred := st.transferred + buf.length
  if maxUploadExceeded T (transferred + haveRecvLen) then pure (.inr ⟨-3, transferred⟩)
  else do
    let out := fromWire isAscii buf st.prevCr
    let (file, ret) ← vsfSysutilWriteLoop T env st.file out.1
    if ret < 0 ∨ ret ≠ out.1.length then pure (.inr ⟨-1, transferred⟩)
    else pure (.inl ⟨file, out.2, transferred⟩)

/-- One round of the loop, which goes on or returns. -/
def recvIter (isAscii : Bool) (haveRecvLen : ℕ) (st : RecvState) : M (RecvState ⊕ TransferRet) := do
  let read ← ftpReadData T env (getChunkSize T)
  match read with
  | none => pure (.inr ⟨-2, st.transferred⟩)
  | some buf =>
    if buf = [] ∧ !st.prevCr then pure (.inr ⟨0, st.transferred⟩)
    else recvChunk T env isAscii haveRecvLen st buf

/-- At most `n` rounds. -/
def recvLoop (isAscii : Bool) (haveRecvLen : ℕ) : ℕ → RecvState → M (RecvState ⊕ TransferRet)
  | 0, st => pure (.inl st)
  | n + 1, st => do
    let r ← recvIter T env isAscii haveRecvLen st
    match r with
    | .inl st => recvLoop isAscii haveRecvLen n st
    | .inr ret => pure (.inr ret)

def doFileRecv (file : OpenFile) (isAscii : Bool) (haveRecvLen : ℕ) : M TransferRet := do
  let w ← get
  let r ← recvLoop T env isAscii haveRecvLen (2 * w.conn.incoming.length + 1) { file := file }
  match r with
  | .inl _ => throw .running
  | .inr ret => pure ret

/-! ### The trace of an upload -/

/-- What the reads returned. -/
def readsOf (es : List Event) : List ℤ := es.filterMap fun e => match e with
  | .dataRead result => some result
  | _ => none

/-- Neither an abort nor a timeout, no read failed, and the last one found the end. -/
structure ReadToEof (es : List Event) : Prop where
  noAbor : .abor ∉ es
  noTimeout : .dataTimeout ∉ es
  noError : ∀ r ∈ readsOf es, 0 ≤ r
  last : (readsOf es).getLast? = some 0

/-- An event of an upload: a read, or a signal's. -/
inductive RecvEvent : Event → Prop where
  | read (result : ℤ) : RecvEvent (.dataRead result)
  | signal {e : Event} (h : SignalReply e) : RecvEvent e

theorem RecvEvent.mild {e : Event} (h : RecvEvent e) : e.mild = true := by
  cases h with
  | read result => rfl
  | signal h => exact Event.mild_of_plain h.plain

theorem readsOf_append (es es' : List Event) : readsOf (es ++ es') = readsOf es ++ readsOf es' := by
  unfold readsOf
  rw [List.filterMap_append]

theorem readsOf_signals {es : List Event} (h : ∀ e ∈ es, SignalReply e) : readsOf es = [] := by
  unfold readsOf
  rw [List.filterMap_eq_nil_iff]
  intro e he
  cases h e he <;> rfl

/-! ### What a round keeps -/

/-- Neither an abort nor a timeout is known. -/
def World.Flagless (w : World) : Prop := w.sess.aborReceived = false ∧ w.sess.dataTimeout = false

/-- Only files and the data connection changed, and flags were raised; the trace
has `es` more. -/
structure Flow (w w' : World) (es : List Event) : Prop where
  core : w'.sess.core = w.sess.core
  own : w'.own = w.own
  parent : w'.parent = w.parent
  cwd : w'.cwd = w.cwd
  abor : w.sess.aborReceived = true → w'.sess.aborReceived = true
  timeout : w.sess.dataTimeout = true → w'.sess.dataTimeout = true
  events : w'.events = w.events ++ es
  kind : ∀ e ∈ es, RecvEvent e
  aborEvent : .abor ∈ es → w'.sess.aborReceived = true
  timeoutEvent : .dataTimeout ∈ es → w'.sess.dataTimeout = true

section

variable {T} {env}

theorem Flow.trans {w w' w'' : World} {es es' : List Event} (h : Flow w w' es) (h' : Flow w' w'' es') :
    Flow w w'' (es ++ es') where
  core := h'.core.trans h.core
  own := h'.own.trans h.own
  parent := h'.parent.trans h.parent
  cwd := h'.cwd.trans h.cwd
  abor := h'.abor ∘ h.abor
  timeout := h'.timeout ∘ h.timeout
  events := by rw [h'.events, h.events, List.append_assoc]
  kind := fun e he => (List.mem_append.mp he).elim (h.kind e) (h'.kind e)
  aborEvent := fun he => (List.mem_append.mp he).elim (fun he => h'.abor (h.aborEvent he)) h'.aborEvent
  timeoutEvent := fun he =>
    (List.mem_append.mp he).elim (fun he => h'.timeout (h.timeoutEvent he)) h'.timeoutEvent

theorem Flow.flagless {w w' : World} {es : List Event} (h : Flow w w' es) (hf : w'.Flagless) :
    w.Flagless := by
  constructor
  · by_contra hne
    have := h.abor (by simpa using hne)
    rw [hf.1] at this
    cases this
  · by_contra hne
    have := h.timeout (by simpa using hne)
    rw [hf.2] at this
    cases this

/-- Signals, and nothing else. -/
theorem Talk.flow {w w' : World} (h : Talk SignalReply w w') : ∃ es, Flow w w' es ∧ readsOf es = [] := by
  obtain ⟨es, hes, hsig, habor, htimeout⟩ := h.events
  exact ⟨es, ⟨h.core, h.own, h.parent, h.cwd, h.abor, h.timeout, hes, fun e he => .signal (hsig e he),
    habor, htimeout⟩, readsOf_signals hsig⟩

theorem flow_took (w : World) (n : Option ℕ) :
    Flow w (w.took n) [.dataRead (n.elim (-1) (↑))] where
  core := rfl
  own := rfl
  parent := rfl
  cwd := rfl
  abor := id
  timeout := id
  events := rfl
  kind := by
    intro e he
    rw [List.mem_singleton.mp he]
    exact .read _
  aborEvent := by simp
  timeoutEvent := by simp

theorem readLength_le {chunkSize n : ℕ} {w : World} (h : readLength env chunkSize w = some n) :
    n ≤ w.conn.incoming.length := by
  obtain ⟨want, -, hn⟩ := Option.map_eq_some_iff.mp h
  simp only at hn
  split at hn <;> omega

/-- Without a flag a read finds nothing at the end only. -/
theorem readLength_eq_zero {chunkSize : ℕ} (hchunk : 0 < chunkSize) {w : World} (hf : w.Flagless)
    (h : readLength env chunkSize w = some 0) : w.conn.incoming = [] := by
  obtain ⟨want, -, hn⟩ := Option.map_eq_some_iff.mp h
  rw [hf.1, hf.2] at hn
  simp only [Bool.or_self, Bool.false_eq_true, false_and, if_false] at hn
  exact List.length_eq_zero_iff.mp (by omega)

/-- One read: what it took, and what it says of the rest. -/
structure ReadStep (w w' : World) (es : List Event) (r : Option Bytes) : Prop where
  flow : Flow w w' es
  disk : w'.disk = w.disk
  reads : readsOf es = [r.elim (-1) fun buf => (buf.length : ℤ)]
  took : ∀ buf, r = some buf → w.conn.incoming = buf ++ w'.conn.incoming
  eof : r = some [] → w'.Flagless → w'.conn.incoming = []

theorem ftpReadData_spec {chunkSize : ℕ} (hchunk : 0 < chunkSize) (w : World) :
    wp (ftpReadData T env chunkSize) (fun r w' => ∃ es, ReadStep w w' es r)
      (fun e w' => e.Orderly ∧ ∃ es, Flow w w' es) w := by
  unfold ftpReadData
  simp only [wp_bind, wp_get, wp_modify, wp_pure]
  refine wp_mono (interrupted_talk (P := SignalReply) (fun _ h => h) _ w) ?_ ?_
  · intro _ w1 hw1
    obtain ⟨es1, hflow1, hreads1⟩ := hw1.flow
    set n := readLength env chunkSize w1 with hn
    have hflow2 := hflow1.trans (flow_took w1 n)
    have hsignals : Within (Talk SignalReply) Halt.Orderly (do
        handleIo (n.elim (-1) (↑))
        checkPendingActions T env
        when (w1.sess.dataUseSsl ∧ env.sslTruncated ∧ n = truncatedRead T) (vsfLogDebug [dataTruncated])) :=
      within_bind (handleIo_talk _) fun _ => within_bind (checkPendingActions_talk fun _ h => h) fun _ =>
        within_when (vsfLogDebug_talk (fun _ h => h) _)
    have hrun := hsignals (w1.took n)
    rw [wp_bind] at hrun
    have hhalt : ∀ (e : Halt) w3, e.Orderly ∧ Talk SignalReply (w1.took n) w3 → e.Orderly ∧ ∃ es, Flow w w3 es := by
      rintro e w3 ⟨he, hw3⟩
      obtain ⟨es3, hflow3, -⟩ := hw3.flow
      exact ⟨he, _, hflow2.trans hflow3⟩
    refine wp_mono hrun ?_ hhalt
    intro _ w2 hw2
    rw [wp_bind] at hw2
    refine wp_mono hw2 ?_ hhalt
    intro _ w2' hw2'
    refine wp_mono hw2' ?_ hhalt
    intro _ w3 hw3
    obtain ⟨es3, hflow3, hreads3⟩ := hw3.flow
    have hconn : w3.conn.incoming = w1.conn.incoming.drop (n.getD 0) := by
      rw [hw3.conn]
      rfl
    refine ⟨_, hflow2.trans hflow3, by rw [hw3.disk]; exact hw1.disk, ?_, ?_, ?_⟩
    · rw [readsOf_append, readsOf_append, hreads1, hreads3]
      cases hcase : n with
      | none => rfl
      | some k =>
        have hk : k ≤ w1.conn.incoming.length := readLength_le (hn ▸ hcase)
        simp [readsOf, Nat.min_eq_left hk]
    · intro buf hbuf
      obtain ⟨k, hk, rfl⟩ := Option.map_eq_some_iff.mp hbuf
      rw [hconn, hk, ← hw1.conn]
      exact (List.take_append_drop k _).symm
    · intro hbuf hflagless
      obtain ⟨k, hk, htake⟩ := Option.map_eq_some_iff.mp hbuf
      have hkle : k ≤ w1.conn.incoming.length := readLength_le (hn ▸ hk)
      have hzero : k = 0 := by
        have := congrArg List.length htake
        rw [List.length_take, Nat.min_eq_left hkle] at this
        exact this
      have hf1 : w1.Flagless := ((flow_took w1 n).trans hflow3).flagless hflagless
      rw [hconn, readLength_eq_zero hchunk hf1 (hn ▸ hzero ▸ hk), List.drop_nil]
  · rintro e w1 ⟨he, hw1⟩
    obtain ⟨es, hflow, -⟩ := hw1.flow
    exact ⟨he, es, hflow⟩

/-- A write to the file: what it stored. -/
structure WriteStep (w : World) (file : OpenFile) (buf : Bytes) (r : OpenFile × ℤ) (w' : World)
    (es : List Event) (k : ℕ) : Prop where
  flow : Flow w w' es
  reads : readsOf es = []
  conn : w'.conn = w.conn
  le : k ≤ buf.length
  disk : w'.disk = (w.disk.write 0 file (buf.take k)).2
  file : r.1 = (w.disk.write 0 file (buf.take k)).1
  ret : 0 ≤ r.2 → r.2 = k

theorem flow_disk (w : World) (d : Disk (List Bytes) UInt8) : Flow w { w with disk := d } [] where
  core := rfl
  own := rfl
  parent := rfl
  cwd := rfl
  abor := id
  timeout := id
  events := by simp
  kind := by simp
  aborEvent := by simp
  timeoutEvent := by simp

theorem vsfSysutilWriteLoop_spec (file : OpenFile) (buf : Bytes) (w : World) :
    wp (vsfSysutilWriteLoop T env file buf) (fun r w' => ∃ es k, WriteStep w file buf r w' es k)
      (fun e w' => e.Orderly ∧ ∃ es, Flow w w' es) w := by
  unfold vsfSysutilWriteLoop
  simp only [wp_bind, wp_get, wp_modify, wp_pure]
  set k := min (env.fileWrite w.clock).taken buf.length with hk
  set w1 : World := { w with disk := (w.disk.write 0 file (buf.take k)).2 } with hw1
  refine wp_mono (checkPendingActions_talk (P := SignalReply) (fun _ h => h) w1) ?_ ?_
  · intro _ w2 hw2
    obtain ⟨es, hflow, hreads⟩ := hw2.flow
    refine ⟨[] ++ es, k, (flow_disk w _).trans hflow, hreads, hw2.conn, Nat.min_le_right _ _, hw2.disk,
      rfl, ?_⟩
    intro hret
    simp only at hret ⊢
    split at hret
    · omega
    · rename_i herr
      rw [if_neg herr]
  · rintro e w2 ⟨he, hw2⟩
    obtain ⟨es, hflow, -⟩ := hw2.flow
    exact ⟨he, _, (flow_disk w _).trans hflow⟩

/-! ### How far an upload is -/

/-- What is to be stored of a whole stream. -/
def stored (isAscii : Bool) (s : Bytes) : Bytes := if isAscii then dropCr s else s

/-- A chunk is stored as part of the stream, wherever the stream is cut. -/
theorem stored_append (isAscii : Bool) {buf : Bytes} (hbuf : buf ≠ []) {prevCr : Bool}
    (hcr : prevCr = true → isAscii = true) (x : Bytes) :
    stored isAscii (heldCr prevCr ++ (buf ++ x)) =
      (fromWire isAscii buf prevCr).1 ++ stored isAscii (heldCr (fromWire isAscii buf prevCr).2 ++ x) := by
  unfold stored fromWire
  cases isAscii with
  | true => exact asciiToBin_append hbuf prevCr x
  | false =>
    obtain rfl : prevCr = false := by
      cases prevCr with
      | false => rfl
      | true => cases hcr rfl
    rfl

/-- An upload to `file` that began at `w₀`; the content is known if it did not
begin behind the end of the file. -/
structure RecvInv (isAscii : Bool) (file : OpenFile) (w₀ : World) (st : RecvState) (w : World)
    (es : List Event) : Prop where
  flow : Flow w₀ w es
  noError : ∀ r ∈ readsOf es, 0 ≤ r
  entry : w.disk.entry = w₀.disk.entry
  inode : st.file.inode = file.inode
  cr : st.prevCr = true → isAscii = true
  content : w₀.disk.offset file ≤ (w₀.disk.data file.inode).length → w.Flagless → ∃ written,
    w.disk.data file.inode = writeAt 0 (w₀.disk.data file.inode) (w₀.disk.offset file) written ∧
    w.disk.offset st.file = w₀.disk.offset file + written.length ∧
    stored isAscii w₀.conn.incoming = written ++ stored isAscii (heldCr st.prevCr ++ w.conn.incoming)

/-- What an upload has come to when the loop returned. -/
structure RecvDone (isAscii : Bool) (file : OpenFile) (w₀ : World) (ret : TransferRet) (w : World) :
    Prop where
  entry : w.disk.entry = w₀.disk.entry
  flow : ∃ es, Flow w₀ w es ∧ (w₀.disk.offset file ≤ (w₀.disk.data file.inode).length →
    ret.retval = 0 → w.Flagless →
    (∀ r ∈ readsOf es, 0 ≤ r) ∧ (readsOf es).getLast? = some 0 ∧
    w.disk.data file.inode =
      writeAt 0 (w₀.disk.data file.inode) (w₀.disk.offset file) (stored isAscii w₀.conn.incoming))

/-- The rounds that can still follow. -/
def RecvState.left (st : RecvState) (w : World) : ℕ :=
  2 * w.conn.incoming.length + if st.prevCr then 1 else 0

variable {isAscii : Bool} {file : OpenFile} {w₀ w : World} {st : RecvState} {es : List Event}

/-- A read before anything is done with the bytes. -/
theorem RecvInv.read (h : RecvInv isAscii file w₀ st w es) {w' : World} {es' : List Event} {buf : Bytes}
    (hread : ReadStep w w' es' (some buf)) :
    ∀ r ∈ readsOf (es ++ es'), 0 ≤ r := by
  intro r hr
  rw [readsOf_append, hread.reads] at hr
  rcases List.mem_append.mp hr with hr | hr
  · exact h.noError r hr
  · rw [List.mem_singleton.mp hr]
    exact Int.natCast_nonneg _

/-- The client has closed and nothing is held back. -/
theorem RecvInv.done (h : RecvInv isAscii file w₀ st w es) (hcr : st.prevCr = false) {w' : World}
    {es' : List Event} (hread : ReadStep w w' es' (some [])) (n : ℕ) :
    RecvDone isAscii file w₀ ⟨0, n⟩ w' where
  entry := by rw [hread.disk, h.entry]
  flow := by
    refine ⟨es ++ es', h.flow.trans hread.flow, fun hend _ hf => ⟨h.read hread, ?_, ?_⟩⟩
    · rw [readsOf_append, hread.reads]
      simp
    · obtain ⟨written, hdata, -, hstored⟩ := h.content hend (hread.flow.flagless hf)
      have hnil : w.conn.incoming = [] := by
        rw [hread.took [] rfl, hread.eof rfl hf]
        rfl
      have hend : stored isAscii (heldCr st.prevCr ++ w.conn.incoming) = [] := by
        rw [hcr, hnil]
        cases isAscii <;> rfl
      rw [hread.disk, hdata, hstored, hend, List.append_nil]

/-- A chunk that was written whole. -/
theorem RecvInv.wrote (h : RecvInv isAscii file w₀ st w es) {w1 w2 : World} {es1 es2 : List Event}
    {buf : Bytes} {file' : OpenFile} {ret : ℤ} {k : ℕ} (hread : ReadStep w w1 es1 (some buf))
    (hmore : ¬ (buf = [] ∧ st.prevCr = false))
    (hwrite : WriteStep w1 st.file (fromWire isAscii buf st.prevCr).1 (file', ret) w2 es2 k)
    (hall : k = (fromWire isAscii buf st.prevCr).1.length) (n : ℕ) :
    RecvInv isAscii file w₀ ⟨file', (fromWire isAscii buf st.prevCr).2, n⟩ w2 (es ++ es1 ++ es2) ∧
      RecvState.left ⟨file', (fromWire isAscii buf st.prevCr).2, n⟩ w2 < st.left w := by
  have hdisk := hwrite.disk
  have hfile := hwrite.file
  rw [hall, List.take_length, hread.disk] at hdisk hfile
  have hin := hread.took buf rfl
  refine ⟨⟨(h.flow.trans hread.flow).trans hwrite.flow, ?_, ?_, ?_, ?_, ?_⟩, ?_⟩
  · rw [readsOf_append, hwrite.reads, List.append_nil]
    exact h.read hread
  · rw [hdisk, Disk.entry_write, h.entry]
  · show file'.inode = _
    rw [show file' = _ from hfile, ← h.inode]
    rfl
  · intro hcr
    unfold fromWire at hcr
    split at hcr
    · assumption
    · exact h.cr hcr
  · intro hend hf
    have hf1 : w1.Flagless := hwrite.flow.flagless hf
    obtain ⟨written, hwritten, hoffset, hstored⟩ := h.content hend (hread.flow.flagless hf1)
    refine ⟨written ++ (fromWire isAscii buf st.prevCr).1, ?_, ?_, ?_⟩
    · rw [hdisk, ← h.inode, Disk.data_write, h.inode, hwritten, hoffset, writeAt_writeAt]
    · show w2.disk.offset file' = _
      rw [hdisk, show file' = _ from hfile, Disk.offset_write, hoffset, List.length_append, Nat.add_assoc]
    · rw [hstored, List.append_assoc, hwrite.conn, hin]
      congr 1
      by_cases hbuf : buf = []
      · -- the end, with a CR that was held back
        obtain hcr : st.prevCr = true := by
          cases hc : st.prevCr with
          | true => rfl
          | false => exact absurd ⟨hbuf, hc⟩ hmore
        have hasc := h.cr hcr
        rw [hbuf, hcr, hasc, hread.eof (by rw [hbuf]) hf1]
        rfl
      · exact stored_append isAscii hbuf h.cr _
  · unfold RecvState.left
    rw [hwrite.conn, hin, List.length_append]
    by_cases hbuf : buf = []
    · obtain hcr : st.prevCr = true := by
        cases hc : st.prevCr with
        | true => rfl
        | false => exact absurd ⟨hbuf, hc⟩ hmore
      have hasc := h.cr hcr
      rw [hbuf, hcr, hasc]
      simp [fromWire, vsfAsciiAsciiToBin, asciiToBinLoop]
    · have : 0 < buf.length := List.length_pos_of_ne_nil hbuf
      split <;> split <;> omega

/-- A return that tells of a failure. -/
theorem recvDone_failed {ret : TransferRet} (hret : ret.retval ≠ 0) (hentry : w.disk.entry = w₀.disk.entry)
    (hflow : Flow w₀ w es) : RecvDone isAscii file w₀ ret w :=
  ⟨hentry, es, hflow, fun _ h => absurd h hret⟩

theorem recvChunk_spec (h : RecvInv isAscii file w₀ st w es) {w1 : World} {es1 : List Event} {buf : Bytes}
    (hread : ReadStep w w1 es1 (some buf)) (hmore : ¬ (buf = [] ∧ st.prevCr = false)) (haveRecvLen : ℕ) :
    wp (recvChunk T env isAscii haveRecvLen st buf)
      (fun r w' => match r with
        | .inl st' => (∃ es', RecvInv isAscii file w₀ st' w' es') ∧ st'.left w' < st.left w
        | .inr ret => RecvDone isAscii file w₀ ret w')
      (fun e w' => e.Orderly ∧ ∃ es', Flow w₀ w' es') w1 := by
  have hflow1 := h.flow.trans hread.flow
  have hentry1 : w1.disk.entry = w₀.disk.entry := by rw [hread.disk, h.entry]
  unfold recvChunk
  simp only [wp_ite, wp_pure, wp_bind]
  split
  · exact recvDone_failed (by simp) hentry1 hflow1
  · refine wp_mono (vsfSysutilWriteLoop_spec st.file _ w1) ?_ ?_
    · rintro ⟨file', ret⟩ w2 ⟨es2, k, hwrite⟩
      dsimp only
      split
      · refine recvDone_failed (by simp) ?_ (hflow1.trans hwrite.flow)
        rw [hwrite.disk, Disk.entry_write, hentry1]
      · rename_i hok
        push Not at hok
        have hk : k = (fromWire isAscii buf st.prevCr).1.length := by
          have := hwrite.ret (by omega)
          omega
        obtain ⟨hinv, hleft⟩ := h.wrote hread hmore hwrite hk (st.transferred + buf.length)
        exact ⟨⟨_, hinv⟩, hleft⟩
    · rintro e w2 ⟨he, es2, hflow2⟩
      exact ⟨he, _, hflow1.trans hflow2⟩

/-- One round keeps the invariant and brings the end nearer. -/
theorem recvIter_spec (h : RecvInv isAscii file w₀ st w es) (haveRecvLen : ℕ) :
    wp (recvIter T env isAscii haveRecvLen st)
      (fun r w' => match r with
        | .inl st' => (∃ es', RecvInv isAscii file w₀ st' w' es') ∧ st'.left w' < st.left w
        | .inr ret => RecvDone isAscii file w₀ ret w')
      (fun e w' => e.Orderly ∧ ∃ es', Flow w₀ w' es') w := by
  unfold recvIter
  rw [wp_bind]
  refine wp_mono (ftpReadData_spec (getChunkSize_pos T) w) ?_ ?_
  · rintro (_ | buf) w1 ⟨es1, hread⟩
    · refine recvDone_failed (by simp) ?_ (h.flow.trans hread.flow)
      rw [hread.disk, h.entry]
    · simp only [wp_ite, wp_pure]
      split
      · rename_i hend
        obtain ⟨rfl, hcr⟩ := hend
        exact h.done (by simpa using hcr) hread _
      · rename_i hmore
        exact recvChunk_spec h hread (by simpa using hmore) haveRecvLen
  · rintro e w1 ⟨he, es1, hflow1⟩
    exact ⟨he, _, h.flow.trans hflow1⟩

/-- Any number of rounds keep it. -/
theorem recvLoop_spec (haveRecvLen n : ℕ) (h : RecvInv isAscii file w₀ st w es) :
    wp (recvLoop T env isAscii haveRecvLen n st)
      (fun r w' => match r with
        | .inl st' => (∃ es', RecvInv isAscii file w₀ st' w' es') ∧ st'.left w' + n ≤ st.left w
        | .inr ret => RecvDone isAscii file w₀ ret w')
      (fun e w' => e.Orderly ∧ ∃ es', Flow w₀ w' es') w := by
  induction n generalizing st w es with
  | zero => exact ⟨⟨es, h⟩, Nat.le_refl _⟩
  | succ n ih =>
    unfold recvLoop
    rw [wp_bind]
    refine wp_mono (recvIter_spec h haveRecvLen) ?_ (fun _ _ he => he)
    rintro (st' | ret) w' hr
    · obtain ⟨⟨es', h'⟩, hlt⟩ := hr
      refine wp_mono (ih h') ?_ (fun _ _ he => he)
      rintro (st'' | ret) w'' hr
      · exact ⟨hr.1, by have := hr.2; omega⟩
      · exact hr
    · exact hr

theorem Flow.sameCtl {w w' : World} {es : List Event} (h : Flow w w' es) : SameCtl w w' := by
  have hsess : ∀ {α : Type} (f : Session → α), (∀ s, f s.core = f s) → f w'.sess = f w.sess := by
    intro α f hf
    rw [← hf, h.core, hf]
  have hfd := hsess (·.dataFd) fun _ => rfl
  have hio := hsess (·.ioHandler) fun _ => rfl
  have hport := hsess (·.portSockaddr) fun _ => rfl
  have hlog := hsess (·.logType) fun _ => rfl
  have hhome := hsess (·.homeStr) fun _ => rfl
  unfold SameCtl World.ctl
  rw [hfd, hio, hport, hlog, hhome, h.own, h.parent, h.cwd]

theorem flow_refl (w : World) : Flow w w [] := flow_disk w w.disk

/-- **An upload stores what the client sent**: the loop returns, and if it
returns without an error and no flag is up, the reads came to the end of the
stream and all of it was written to the file, from where the file stood. -/
theorem doFileRecv_spec (file : OpenFile) (isAscii : Bool) (haveRecvLen : ℕ) (w : World) :
    wp (doFileRecv T env file isAscii haveRecvLen) (RecvDone isAscii file w)
      (fun e w' => e.Orderly ∧ ∃ es, Flow w w' es) w := by
  have hstart : RecvInv isAscii file w { file := file } w [] := by
    refine ⟨flow_refl w, by simp [readsOf], rfl, rfl, by simp, fun hle _ => ⟨[], ?_, rfl, ?_⟩⟩
    · rw [writeAt_of_le 0 hle]
      simp
    · simp [heldCr]
  unfold doFileRecv
  simp only [wp_bind, wp_get]
  refine wp_mono (recvLoop_spec haveRecvLen _ hstart) ?_ (fun _ _ he => he)
  rintro (st | ret) w' hr
  · have hleft := hr.2
    simp [RecvState.left] at hleft
    omega
  · exact hr

end

/-! ### The size limit

The check in `do_file_recv` is meant for what the client has sent: the
bytes that were in the file before and those taken off the data connection. -/

/-- The states in which a round of the loop begins. -/
inductive RoundAt (isAscii : Bool) (haveRecvLen : ℕ) (file : OpenFile) (w₀ : World) : RecvState → World → Prop
  | start : RoundAt isAscii haveRecvLen file w₀ { file := file } w₀
  | next {st st' : RecvState} {w w' : World} (h : RoundAt isAscii haveRecvLen file w₀ st w)
      (hround : recvIter T env isAscii haveRecvLen st w = .ok (.inl st') w') :
      RoundAt isAscii haveRecvLen file w₀ st' w'

/-- The read of a round brings bytes, and with them more has been received than
`max_upload_file_size` allows. -/
structure PastLimit (haveRecvLen : ℕ) (w₀ w w1 : World) : Prop where
  read : ∃ buf, buf ≠ [] ∧ ftpReadData T env (getChunkSize T) w = .ok (some buf) w1
  past : T.maxUploadFileSize * 1024 < haveRecvLen + (w₀.conn.incoming.length - w1.conn.incoming.length)

/-- No read takes the upload past the limit. -/
def WithinLimit (isAscii : Bool) (haveRecvLen : ℕ) (file : OpenFile) (w₀ : World) : Prop :=
  ∀ st w w1, RoundAt T env isAscii haveRecvLen file w₀ st w → ¬ PastLimit T env haveRecvLen w₀ w w1

/-- What the limit is for. -/
structure LimitKept (isAscii : Bool) (haveRecvLen : ℕ) (file : OpenFile) (w₀ : World) : Prop where
  /-- a chunk past the limit is not written -/
  spares : ∀ st w w1, RoundAt T env isAscii haveRecvLen file w₀ st w → PastLimit T env haveRecvLen w₀ w w1 →
    (after (recvIter T env isAscii haveRecvLen st) w).disk = w.disk
  /-- the loop returns -3 right behind the read -/
  stops : ∀ st w w1, RoundAt T env isAscii haveRecvLen file w₀ st w → PastLimit T env haveRecvLen w₀ w w1 →
    ∃ n, doFileRecv T env file isAscii haveRecvLen w₀ = .ok ⟨-3, n⟩ w1
  /-- and for no other reason -/
  within : WithinLimit T env isAscii haveRecvLen file w₀ →
    ∀ ret w', doFileRecv T env file isAscii haveRecvLen w₀ = .ok ret w' → ret.retval ≠ -3

section

variable {T} {env} {isAscii : Bool} {haveRecvLen : ℕ} {file : OpenFile} {w₀ : World}

/-- The check compares a truth value with at least 1024, or 0 with 0. -/
theorem maxUploadExceeded_eq_false (received : ℕ) : maxUploadExceeded T received = false := by
  unfold maxUploadExceeded
  simp only [decide_eq_false_iff_not, Nat.not_lt]
  split
  · rename_i h
    omega
  · exact Nat.zero_le _

theorem recvChunk_usual (st : RecvState) (buf : Bytes) (w : World) :
    wp (recvChunk T env isAscii haveRecvLen st buf) (fun r _ => ∀ ret, r = .inr ret → ret.Usual)
      (fun _ _ => True) w := by
  unfold recvChunk
  simp only [maxUploadExceeded_eq_false, Bool.false_eq_true, if_false]
  rw [wp_bind]
  refine wp_mono (wp_true _ w) ?_ (fun _ _ h => h)
  rintro ⟨file', written⟩ w1 -
  simp only [wp_ite, wp_pure]
  split
  · intro ret hret
    rw [← Sum.inr.inj hret]
    exact .inr (.inl rfl)
  · intro ret hret
    cases hret

theorem recvIter_usual (st : RecvState) (w : World) :
    wp (recvIter T env isAscii haveRecvLen st) (fun r _ => ∀ ret, r = .inr ret → ret.Usual)
      (fun _ _ => True) w := by
  unfold recvIter
  rw [wp_bind]
  refine wp_mono (wp_true _ w) ?_ (fun _ _ h => h)
  rintro (_ | buf) w1 -
  · intro ret hret
    rw [← Sum.inr.inj hret]
    exact .inr (.inr rfl)
  · simp only [wp_ite, wp_pure]
    split
    · intro ret hret
      rw [← Sum.inr.inj hret]
      exact .inl rfl
    · exact recvChunk_usual st buf w1

theorem recvLoop_usual (n : ℕ) (st : RecvState) (w : World) :
    wp (recvLoop T env isAscii haveRecvLen n st) (fun r _ => ∀ ret, r = .inr ret → ret.Usual)
      (fun _ _ => True) w := by
  induction n generalizing st w with
  | zero =>
    intro ret hret
    cases hret
  | succ n ih =>
    unfold recvLoop
    rw [wp_bind]
    refine wp_mono (recvIter_usual st w) ?_ (fun _ _ h => h)
    rintro (st' | ret) w1 hround
    · exact ih st' w1
    · exact hround

/-- `do_file_recv` returns one of three results, and -3 is not among them. -/
theorem doFileRecv_usual (w : World) :
    wp (doFileRecv T env file isAscii haveRecvLen) (fun ret _ => ret.Usual) (fun _ _ => True) w := by
  unfold doFileRecv
  simp only [wp_bind, wp_get]
  refine wp_mono (recvLoop_usual _ _ w) ?_ (fun _ _ h => h)
  rintro (st | ret) w1 hret
  · trivial
  · exact hret ret rfl

theorem doFileRecv_ne {ret : TransferRet} {w' : World}
    (h : doFileRecv T env file isAscii haveRecvLen w₀ = .ok ret w') : ret.retval ≠ -3 := by
  have hrun : wp (doFileRecv T env file isAscii haveRecvLen) (fun ret _ => ret.Usual) (fun _ _ => True) w₀ :=
    doFileRecv_usual w₀
  unfold wp at hrun
  rw [h] at hrun
  rcases hrun with h0 | h1 | h2 <;> omega

end

/-- **The limit on the size of an upload holds exactly where it is not needed.**
The check is never true, so a chunk past the limit is written like any other and
the loop goes on behind it. -/
theorem upload_limit_iff (isAscii : Bool) (haveRecvLen : ℕ) (file : OpenFile) (w₀ : World) :
    LimitKept T env isAscii haveRecvLen file w₀ ↔ WithinLimit T env isAscii haveRecvLen file w₀ := by
  constructor
  · intro h st w w1 hround hpast
    obtain ⟨n, hstop⟩ := h.stops st w w1 hround hpast
    exact doFileRecv_ne hstop rfl
  · intro h
    refine ⟨?_, ?_, fun _ ret w' hret => doFileRecv_ne hret⟩
    · intro st w w1 hround hpast
      exact absurd hpast (h st w w1 hround)
    · intro st w w1 hround hpast
      exact absurd hpast (h st w w1 hround)

/-- A server that takes one kilobyte, and a client that has sent it and has one byte more. -/
def kilobyteServer : Tunables := { maxUploadFileSize := 1 }

def oneMoreWorld : World where
  sess := {}
  own := { sess := { localAddr := host10 9 21, remoteAddr := host10 1 40000 } }
  parent := { sess := { localAddr := host10 9 21, remoteAddr := host10 1 40000 } }
  cwd := habRoot
  disk := .empty
  conn := { incoming := text "x" }

theorem upload_past_limit_accepted :
    ¬ LimitKept kilobyteServer {} false 1024 { inode := 0, pos := 1024 } oneMoreWorld := by
  intro h
  have hread : ∃ w1, ftpReadData kilobyteServer {} (getChunkSize kilobyteServer) oneMoreWorld =
      .ok (some (text "x")) w1 ∧ w1.conn.incoming = [] := ⟨_, rfl, rfl⟩
  obtain ⟨w1, hread, hnil⟩ := hread
  have hpast : PastLimit kilobyteServer {} 1024 oneMoreWorld oneMoreWorld w1 :=
    ⟨⟨text "x", by decide, hread⟩, by rw [hnil]; decide⟩
  obtain ⟨n, hstop⟩ := h.stops _ _ w1 .start hpast
  exact doFileRecv_ne hstop rfl

end CosFtp
