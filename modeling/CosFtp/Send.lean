/-
# Downloads

`do_file_send_rwloop` moves an object from COS to the data connection through
two buffers: a download fills the large one, a round of the loop takes a chunk
of it, converts it for an ASCII transfer and writes it. `sendIter` is a round
and `sendLoop` any number of them, so what is said of `sendLoop` holds at every
moment of a transfer.

The object is given byte by byte, `env.object`; a transfer of it from `offset`
is to send `slice env.object offset (size - offset)`, converted (`toWire`).
`SendInv` says how far a transfer is: what was sent is the part of that up to
the byte the cursors stand at (`sendLoop_spec`).

Key definitions: `cosDownloadFile`, `sendIter`, `sendLoop`, `SendInv`.
-/
import CosFtp.Ascii
import CosFtp.DataIO

namespace CosFtp

open Wp

/-- A `struct vsf_transfer_ret`. -/
structure TransferRet where
  retval : ℤ
  transferred : ℕ
  deriving DecidableEq

/-- All went well, or the local side or the network failed. -/
def TransferRet.Usual (ret : TransferRet) : Prop := ret.retval = 0 ∨ ret.retval = -1 ∨ ret.retval = -2

/-- `n` bytes of an object from `a` on. -/
def slice (object : ℕ → UInt8) (a n : ℕ) : Bytes := (List.range' a n).map object

/-- What is written of the bytes, and the CR flag behind them. -/
def toWire (isAscii : Bool) (s : Bytes) (prevCr : Bool) : Bytes × Bool :=
  if isAscii then vsfAsciiBinToAscii s prevCr else (s, prevCr)

variable (T : Tunables) (env : Env)

/-- `ftp_write_data` to the data connection. -/
def ftpWriteData (buf : Bytes) : M ℤ := do
  let w ← get
  let outcome := env.dataWrite w.clock
  let taken := min outcome.taken buf.length
  let ret : ℤ := if outcome.error then -1 else taken
  modify fun w => { w with conn := { w.conn with sent := w.conn.sent ++ buf.take taken } }
  emit (.dataWrite ret)
  checkPendingIo T env ret
  pure ret

/-- What `FileDownload` returns of `len` bytes asked for. -/
def downloadResult (len : ℕ) (result : ℤ) : ℤ := if result < 0 then result else min result len

/-- The call of `FileDownload` numbered `call`, and what is logged when it failed. -/
def fileDownload (path : Bytes) (offset len call : ℕ) : M ℤ := do
  let ret := downloadResult len (env.fileDownload call)
  emit (.cos (.fileDownload path offset len ret))
  when (ret < 0) (vsfLogLine .download (text "Download retcode:" ++ intText (env.retcode call)))
  pure ret

/-- `cos_download_file`, whose calls are numbered from `call` on: what it
returns, and the number of the next call. -/
def cosDownloadFile (path : Bytes) (buflen offset filesize call : ℕ) : M (ℤ × ℕ) := do
  let len := if filesize - offset < buflen then filesize - offset else buflen
  let ret ← fileDownload env path offset len call
  if 0 ≤ ret then pure (ret, call + 1)
  else do
    let ret ← fileDownload env path offset len (call + 1)
    pure (ret, call + 2)

/-- The variables of `do_file_send_rwloop`. -/
structure SendState where
  offset : ℕ
  dlbuf : Bytes := []
  dlbufLen : ℤ := 0
  dlbufCurpos : ℕ := 0
  prevCr : Bool := false
  transferred : ℕ := 0
  /-- the calls of `FileDownload` so far -/
  calls : ℕ := 0
  deriving DecidableEq

/-- The download buffer is filled once it is used up. -/
def fillDownloadbuf (path : Bytes) (size : ℕ) (st : SendState) : M SendState := do
  if st.dlbufLen ≤ st.dlbufCurpos then
    if size ≤ st.offset then pure { st with dlbuf := [], dlbufLen := 0, dlbufCurpos := 0 }
    else do
      let (n, calls) ← cosDownloadFile env path (getCosDownloadChunksize T) st.offset size st.calls
      -- after an error the offset is not looked at again
      pure { st with
        dlbuf := slice env.object st.offset n.toNat, dlbufLen := n, dlbufCurpos := 0,
        offset := st.offset + n.toNat, calls := calls }
  else pure st

/-- A chunk of the download buffer goes to the client. -/
def sendChunk (isAscii : Bool) (st : SendState) : M (SendState ⊕ TransferRet) := do
  let n := min (getChunkSize T) (st.dlbufLen.toNat - st.dlbufCurpos)
  let out := toWire isAscii ((st.dlbuf.drop st.dlbufCurpos).take n) st.prevCr
  let ret ← ftpWriteData T env out.1
  let transferred := if 0 ≤ ret then st.transferred + ret.toNat else st.transferred
  if ret < 0 ∨ ret ≠ out.1.length then pure (.inr ⟨-2, transferred⟩)
  else pure (.inl { st with
    dlbufCurpos := st.dlbufCurpos + n, prevCr := out.2, transferred := transferred })

/-- One round of the loop, which goes on or returns. -/
def sendIter (path : Bytes) (isAscii : Bool) (size : ℕ) (st : SendState) :
    M (SendState ⊕ TransferRet) := do
  let st ← fillDownloadbuf T env path size st
  if st.dlbufLen < 0 then pure (.inr ⟨-1, st.transferred⟩)
  else if st.dlbufLen = 0 then pure (.inr ⟨0, st.transferred⟩)
  else sendChunk T env isAscii st

/-- At most `n` rounds. -/
def sendLoop (path : Bytes) (isAscii : Bool) (size : ℕ) : ℕ → SendState → M (SendState ⊕ TransferRet)
  | 0, st => pure (.inl st)
  | n + 1, st => do
    let r ← sendIter T env path isAscii size st
    match r with
    | .inl st => sendLoop path isAscii size n st
    | .inr ret => pure (.inr ret)

def doFileSendRwloop (path : Bytes) (isAscii : Bool) (offset size : ℕ) : M TransferRet := do
  let r ← sendLoop T env path isAscii size (size + 1) { offset := offset }
  match r with
  | .inl _ => throw .running
  | .inr ret => pure ret

/-! ### Parts of an object -/

section

variable {T} {env}

@[simp] theorem length_slice (object : ℕ → UInt8) (a n : ℕ) : (slice object a n).length = n := by
  simp [slice]

theorem slice_add (object : ℕ → UInt8) (a m n : ℕ) :
    slice object a (m + n) = slice object a m ++ slice object (a + m) n := by
  rw [slice, slice, slice, ← List.map_append, List.range'_append_1]

theorem drop_slice (object : ℕ → UInt8) (a : ℕ) {k n : ℕ} (h : k ≤ n) :
    (slice object a n).drop k = slice object (a + k) (n - k) := by
  obtain ⟨m, rfl⟩ := Nat.exists_eq_add_of_le h
  rw [slice_add, List.drop_left' (length_slice _ _ _), Nat.add_sub_cancel_left]

theorem take_slice (object : ℕ → UInt8) (a : ℕ) {k n : ℕ} (h : k ≤ n) :
    (slice object a n).take k = slice object a k := by
  obtain ⟨m, rfl⟩ := Nat.exists_eq_add_of_le h
  rw [slice_add, List.take_left' (length_slice _ _ _)]

theorem toWire_append (isAscii : Bool) (a b : Bytes) (prevCr : Bool) :
    toWire isAscii (a ++ b) prevCr =
      ((toWire isAscii a prevCr).1 ++ (toWire isAscii b (toWire isAscii a prevCr).2).1,
        (toWire isAscii b (toWire isAscii a prevCr).2).2) := by
  unfold toWire
  split
  · exact binToAscii_append a b prevCr
  · rfl

/-! ### One write -/

/-- The client got `bs` in a write that returned `result`. -/
def World.wrote (w : World) (bs : Bytes) (result : ℤ) : World :=
  { w with
    conn := { w.conn with sent := w.conn.sent ++ bs }
    events := w.events ++ [.dataWrite result] }

/-- A write hands over a first part of the buffer, all of it as far as it says so. -/
theorem ftpWriteData_spec (buf : Bytes) (w : World) :
    wp (ftpWriteData T env buf)
      (fun ret w' => ∃ k ≤ buf.length, (0 ≤ ret → ret = k) ∧
        Talk SignalReply (w.wrote (buf.take k) ret) w')
      (fun e w' => e.Orderly ∧
        ∃ k ≤ buf.length, ∃ ret : ℤ, Talk SignalReply (w.wrote (buf.take k) ret) w') w := by
  unfold ftpWriteData
  simp only [wp_bind, wp_get, wp_modify, emit]
  set k := min (env.dataWrite w.clock).taken buf.length with hk
  set ret : ℤ := if (env.dataWrite w.clock).error then -1 else k with hret
  have hkle : k ≤ buf.length := Nat.min_le_right _ _
  have hrk : 0 ≤ ret → ret = k := by
    intro h
    rw [hret] at h ⊢
    split at h
    · omega
    · rename_i he
      rw [if_neg he]
  refine wp_mono (checkPendingIo_talk (fun _ h => h) ret (w.wrote (buf.take k) ret)) ?_ ?_
  · intro _ w' h
    exact ⟨k, hkle, hrk, h⟩
  · intro _ w' h
    exact ⟨h.1, k, hkle, ret, h.2⟩

end

/-! ### How far a transfer is -/

/-- A download request within the object and the buffer. -/
def Event.RangeOk (size : ℕ) : Event → Prop
  | .cos (.fileDownload _ offset len _) => offset + len ≤ size ∧ len ≤ getCosDownloadChunksize T
  | _ => True

/-- The sum of the non-negative results of the writes. -/
def writtenTotal (es : List Event) : ℕ :=
  (es.map fun e => match e with
    | .dataWrite result => result.toNat
    | _ => 0).sum

/-- What a transfer from `offset` is to send. -/
def wireOf (isAscii : Bool) (offset size : ℕ) : Bytes :=
  (toWire isAscii (slice env.object offset (size - offset)) false).1

/-- Since `w₀` the client got a first part of it, by requests within the range. -/
structure SendSafe (isAscii : Bool) (offset size : ℕ) (w₀ w : World) (s : Bytes) (es : List Event) :
    Prop where
  sent : w.conn.sent = w₀.conn.sent ++ s
  wire : s <+: wireOf env isAscii offset size
  events : w.events = w₀.events ++ es
  ranges : ∀ e ∈ es, e.RangeOk T size

/-- The object bytes up to here have gone through the loop. -/
def SendState.pos (st : SendState) : ℕ := st.offset - (st.dlbufLen.toNat - st.dlbufCurpos)

/-- The cursors of the two buffers, and what has been sent for them. -/
structure SendInv (isAscii : Bool) (offset size : ℕ) (w₀ : World) (st : SendState) (w : World)
    (es : List Event) : Prop where
  len_nonneg : 0 ≤ st.dlbufLen
  curpos_le : st.dlbufCurpos ≤ st.dlbufLen.toNat
  len_le : offset + st.dlbufLen.toNat ≤ st.offset
  offset_le : st.offset ≤ max offset size
  buf : st.dlbuf = slice env.object (st.offset - st.dlbufLen.toNat) st.dlbufLen.toNat
  cr : (toWire isAscii (slice env.object offset (st.pos - offset)) false).2 = st.prevCr
  safe : SendSafe T env isAscii offset size w₀ w
    (toWire isAscii (slice env.object offset (st.pos - offset)) false).1 es
  total : st.transferred = writtenTotal es

section

variable {T} {env} {isAscii : Bool} {offset size : ℕ} {w₀ w : World} {st : SendState} {es : List Event}

theorem writtenTotal_append (es es' : List Event) :
    writtenTotal (es ++ es') = writtenTotal es + writtenTotal es' := by
  simp [writtenTotal]

/-- Replies are no writes to the data connection. -/
theorem writtenTotal_signals {rs : List Event} (h : ∀ e ∈ rs, SignalReply e) : writtenTotal rs = 0 := by
  induction rs with
  | nil => rfl
  | cons e rs ih =>
    have hrs := ih fun e he => h e (List.mem_cons_of_mem _ he)
    show writtenTotal ([e] ++ rs) = 0
    rw [writtenTotal_append, hrs]
    cases h e List.mem_cons_self <;> rfl

theorem SendInv.pos_le (h : SendInv T env isAscii offset size w₀ st w es) :
    offset ≤ st.pos ∧ st.pos ≤ max offset size := by
  have h1 := h.len_le
  have h2 := h.offset_le
  unfold SendState.pos
  omega

/-- The first bytes of the range convert to a first part of what is to be sent. -/
theorem wireOf_prefix (isAscii : Bool) {n : ℕ} (hn : offset + n ≤ max offset size) :
    (toWire isAscii (slice env.object offset n) false).1 <+: wireOf env isAscii offset size := by
  have hsplit : size - offset = n + (size - offset - n) := by omega
  unfold wireOf
  rw [hsplit, slice_add, toWire_append]
  exact List.prefix_append _ _

/-- What a call leaves in the trace. -/
def downloadEvents (env : Env) (path : Bytes) (offset len call : ℕ) (view : LogView) : List Event :=
  let ret := downloadResult len (env.fileDownload call)
  .cos (.fileDownload path offset len ret) ::
    if ret < 0 then [.log .download true (text "Download retcode:" ++ intText (env.retcode call)) view] else []

theorem wp_fileDownload (path : Bytes) (o len call : ℕ) (w : World) (Q : ℤ → World → Prop)
    (E : Halt → World → Prop) :
    wp (fileDownload env path o len call) Q E w ↔
      Q (downloadResult len (env.fileDownload call))
        { w with events := w.events ++ downloadEvents env path o len call w.sess.logView } := by
  unfold fileDownload downloadEvents vsfLogLine emit
  simp only [wp_bind, wp_get, wp_modify, wp_when, wp_pure]
  split
  · rw [List.append_assoc]
    rfl
  · rfl

theorem downloadEvents_rangeOk {path : Bytes} {o len : ℕ} (hle : o + len ≤ size)
    (hlen : len ≤ getCosDownloadChunksize T) (call : ℕ) (view : LogView) :
    ∀ e ∈ downloadEvents env path o len call view, e.RangeOk T size := by
  intro e he
  rcases List.mem_cons.mp he with rfl | he
  · exact ⟨hle, hlen⟩
  · split at he
    · rw [List.mem_singleton.mp he]
      trivial
    · exact absurd he List.not_mem_nil

theorem downloadEvents_written (path : Bytes) (o len call : ℕ) (view : LogView) :
    writtenTotal (downloadEvents env path o len call view) = 0 := by
  unfold downloadEvents
  simp only []
  split <;> rfl

/-- A download: the requests it makes, and that it stays in the range. -/
theorem cosDownloadFile_spec (path : Bytes) {o call : ℕ} (ho : o ≤ size) (w : World) :
    wp (cosDownloadFile env path (getCosDownloadChunksize T) o size call)
      (fun r w' => r.1 ≤ ((size - o : ℕ) : ℤ) ∧ ∃ es, w' = { w with events := w.events ++ es } ∧
        (∀ e ∈ es, e.RangeOk T size) ∧ writtenTotal es = 0)
      (fun _ _ => False) w := by
  have hres : ∀ (len : ℕ) (r : ℤ), downloadResult len r ≤ len := by
    intro len r
    unfold downloadResult
    split <;> omega
  unfold cosDownloadFile
  set len := if size - o < getCosDownloadChunksize T then size - o else getCosDownloadChunksize T with hlen
  have hle : len ≤ size - o ∧ len ≤ getCosDownloadChunksize T := by
    rw [hlen]; split <;> omega
  have hle' : o + len ≤ size := by omega
  simp only [wp_bind, wp_fileDownload, wp_pure, wp_ite]
  split
  · refine ⟨?_, _, rfl, ?_, downloadEvents_written _ _ _ _ _⟩
    · have := hres len (env.fileDownload call)
      omega
    · exact downloadEvents_rangeOk hle' hle.2 _ _
  · refine ⟨?_, downloadEvents env path o len call w.sess.logView ++
      downloadEvents env path o len (call + 1) w.sess.logView, ?_, ?_, ?_⟩
    · have := hres len (env.fileDownload (call + 1))
      omega
    · rw [List.append_assoc]
    · intro e he
      rcases List.mem_append.mp he with he | he
      · exact downloadEvents_rangeOk hle' hle.2 _ _ e he
      · exact downloadEvents_rangeOk hle' hle.2 _ _ e he
    · rw [writtenTotal_append, downloadEvents_written, downloadEvents_written]

/-- Requests alone leave what was sent. -/
theorem SendSafe.requests {s : Bytes} {es' : List Event}
    (h : SendSafe T env isAscii offset size w₀ w s es) (hes' : ∀ e ∈ es', e.RangeOk T size) :
    SendSafe T env isAscii offset size w₀ { w with events := w.events ++ es' } s (es ++ es') where
  sent := h.sent
  wire := h.wire
  events := by
    show w.events ++ es' = _
    rw [h.events, List.append_assoc]
  ranges := by
    intro e he
    rcases List.mem_append.mp he with he | he
    · exact h.ranges e he
    · exact hes' e he

/-- Filling the buffer moves neither cursor over a byte. -/
theorem fillDownloadbuf_spec (path : Bytes) (h : SendInv T env isAscii offset size w₀ st w es) :
    wp (fillDownloadbuf T env path size st)
      (fun st' w' => ∃ es', (∃ s, SendSafe T env isAscii offset size w₀ w' s es') ∧
        st'.transferred = writtenTotal es' ∧
        (0 ≤ st'.dlbufLen → SendInv T env isAscii offset size w₀ st' w' es' ∧ st'.pos = st.pos) ∧
        (0 < st'.dlbufLen → st'.dlbufCurpos < st'.dlbufLen.toNat))
      (fun _ _ => False) w := by
  have hcur := h.curpos_le
  have hlen := h.len_le
  have hoff := h.offset_le
  unfold fillDownloadbuf
  simp only [wp_ite, wp_pure, wp_bind]
  split
  · rename_i hused
    have hpos : st.pos = st.offset := by unfold SendState.pos; omega
    split
    · have hpos' : ({ st with dlbuf := [], dlbufLen := 0, dlbufCurpos := 0 } : SendState).pos = st.pos := by
        rw [hpos]
        rfl
      refine ⟨es, ⟨_, h.safe⟩, h.total, fun _ => ⟨?_, hpos'⟩, by simp⟩
      refine ⟨Int.le_refl 0, Nat.le_refl 0, by simp; omega, hoff, rfl, ?_, ?_, h.total⟩
      · rw [hpos']
        exact h.cr
      · rw [hpos']
        exact h.safe
    · rename_i hmore
      refine wp_mono (cosDownloadFile_spec path (by omega) w) ?_ (fun _ _ he => he)
      rintro ⟨n, calls⟩ w' ⟨hn, es', rfl, hranges, hzero⟩
      have hsafe := h.safe.requests hranges
      have htotal : st.transferred = writtenTotal (es ++ es') := by
        rw [writtenTotal_append, hzero, h.total, Nat.add_zero]
      have hpos' : ({ st with
          dlbuf := slice env.object st.offset n.toNat, dlbufLen := n, dlbufCurpos := 0,
          offset := st.offset + n.toNat, calls := calls } : SendState).pos = st.pos := by
        rw [hpos]
        show st.offset + n.toNat - (n.toNat - 0) = st.offset
        omega
      refine ⟨es ++ es', ⟨_, hsafe⟩, htotal, fun hnn => ⟨?_, hpos'⟩, fun hp => ?_⟩
      · have hnn' : 0 ≤ n := hnn
        refine ⟨hnn, Nat.zero_le _, by simp; omega, by simp at hn ⊢; omega, by simp, ?_, ?_, htotal⟩
        · rw [hpos']
          exact h.cr
        · rw [hpos']
          exact hsafe
      · have hp' : 0 < n := hp
        show 0 < n.toNat
        omega
  · rename_i hleft
    refine ⟨es, ⟨_, h.safe⟩, h.total, fun _ => ⟨h, trivial⟩, fun _ => ?_⟩
    omega

/-- A chunk is the next bytes of the object. -/
theorem SendInv.chunk (h : SendInv T env isAscii offset size w₀ st w es) {n : ℕ}
    (hn : n ≤ st.dlbufLen.toNat - st.dlbufCurpos) :
    (st.dlbuf.drop st.dlbufCurpos).take n = slice env.object st.pos n := by
  have hcur := h.curpos_le
  have hlen := h.len_le
  rw [h.buf, drop_slice _ _ hcur, take_slice _ _ hn]
  congr 1
  unfold SendState.pos
  omega

/-- What a write adds to what was sent before. -/
theorem SendInv.wrote (h : SendInv T env isAscii offset size w₀ st w es) {n k : ℕ} {ret : ℤ} {w' : World}
    (hn : n ≤ st.dlbufLen.toNat - st.dlbufCurpos)
    (htalk : Talk SignalReply
      (w.wrote ((toWire isAscii (slice env.object st.pos n) st.prevCr).1.take k) ret) w') :
    ∃ es', writtenTotal es' = writtenTotal es + ret.toNat ∧
      SendSafe T env isAscii offset size w₀ w'
        ((toWire isAscii (slice env.object offset (st.pos - offset)) false).1 ++
          (toWire isAscii (slice env.object st.pos n) st.prevCr).1.take k) es' := by
  have hcur := h.curpos_le
  have hlen := h.len_le
  have hoff := h.offset_le
  obtain ⟨hlo, hhi⟩ := h.pos_le
  obtain ⟨rs, hrs, hsig, -⟩ := htalk.events
  have hzero : writtenTotal rs = 0 := writtenTotal_signals hsig
  refine ⟨es ++ (.dataWrite ret :: rs), ?_, ?_, ?_, ?_, ?_⟩
  · rw [writtenTotal_append]
    have hcons : writtenTotal (.dataWrite ret :: rs) = ret.toNat + writtenTotal rs := by
      simp [writtenTotal]
    omega
  · rw [htalk.conn]
    show w.conn.sent ++ _ = _
    rw [h.safe.sent, List.append_assoc]
  · -- the chunk's conversion follows on that of the bytes before it
    have hjoin : slice env.object offset (st.pos - offset) ++ slice env.object st.pos n =
        slice env.object offset (st.pos - offset + n) := by
      rw [slice_add]
      congr 2
      omega
    have hend : offset + (st.pos - offset + n) ≤ max offset size := by
      unfold SendState.pos at *
      omega
    have hwire : _ <+: wireOf env isAscii offset size := wireOf_prefix isAscii hend
    rw [← hjoin, toWire_append, h.cr] at hwire
    exact (List.prefix_append_right_inj _ |>.mpr (List.take_prefix k _)).trans hwire
  · rw [hrs]
    show (w.events ++ [.dataWrite ret]) ++ rs = _
    rw [h.safe.events]
    simp
  · intro e he
    rcases List.mem_append.mp he with he | he
    · exact h.safe.ranges e he
    · rcases List.mem_cons.mp he with rfl | he
      · trivial
      · cases hsig e he <;> trivial

/-- A chunk that went out whole moves the cursors over it. -/
theorem SendInv.step (h : SendInv T env isAscii offset size w₀ st w es) {n : ℕ} {w' : World}
    {es' : List Event} {ret : ℤ} (hn : n ≤ st.dlbufLen.toNat - st.dlbufCurpos)
    (htotal : writtenTotal es' = writtenTotal es + ret.toNat)
    (hsafe : SendSafe T env isAscii offset size w₀ w'
      ((toWire isAscii (slice env.object offset (st.pos - offset)) false).1 ++
        (toWire isAscii (slice env.object st.pos n) st.prevCr).1) es') :
    SendInv T env isAscii offset size w₀
      { st with
        dlbufCurpos := st.dlbufCurpos + n
        prevCr := (toWire isAscii (slice env.object st.pos n) st.prevCr).2
        transferred := st.transferred + ret.toNat } w' es' := by
  have hcur := h.curpos_le
  have hlen := h.len_le
  have hlo := h.pos_le.1
  have hpos : ({ st with
      dlbufCurpos := st.dlbufCurpos + n
      prevCr := (toWire isAscii (slice env.object st.pos n) st.prevCr).2
      transferred := st.transferred + ret.toNat } : SendState).pos = st.pos + n := by
    unfold SendState.pos
    simp only
    omega
  have hjoin : slice env.object offset (st.pos + n - offset) =
      slice env.object offset (st.pos - offset) ++ slice env.object st.pos n := by
    rw [show st.pos + n - offset = st.pos - offset + n by omega, slice_add]
    congr 2
    omega
  refine ⟨h.len_nonneg, ?_, hlen, h.offset_le, h.buf, ?_, ?_, ?_⟩
  · show st.dlbufCurpos + n ≤ st.dlbufLen.toNat
    omega
  · rw [hpos, hjoin, toWire_append, h.cr]
  · rw [hpos, hjoin, toWire_append, h.cr]
    exact hsafe
  · show st.transferred + ret.toNat = _
    rw [htotal, h.total]

/-- What holds when the loop has returned. -/
def SendDone (T : Tunables) (env : Env) (isAscii : Bool) (offset size : ℕ) (w₀ : World)
    (ret : TransferRet) (w : World) : Prop :=
  ∃ s es, SendSafe T env isAscii offset size w₀ w s es ∧ ret.transferred = writtenTotal es

/-- What holds when the session has ended in the loop. -/
def SendHalt (T : Tunables) (env : Env) (isAscii : Bool) (offset size : ℕ) (w₀ w : World) : Prop :=
  ∃ s es, SendSafe T env isAscii offset size w₀ w s es

theorem sendChunk_spec (h : SendInv T env isAscii offset size w₀ st w es)
    (hlt : st.dlbufCurpos < st.dlbufLen.toNat) :
    wp (sendChunk T env isAscii st)
      (fun r w' => match r with
        | .inl st' => (∃ es', SendInv T env isAscii offset size w₀ st' w' es') ∧ st.pos < st'.pos ∧
            st'.offset = st.offset ∧ st'.calls = st.calls
        | .inr ret => ret.retval = -2 ∧ SendDone T env isAscii offset size w₀ ret w')
      (fun e w' => e.Orderly ∧ SendHalt T env isAscii offset size w₀ w') w := by
  have hchunk := getChunkSize_pos T
  have hlen := h.len_le
  unfold sendChunk
  simp only [wp_bind]
  set n := min (getChunkSize T) (st.dlbufLen.toNat - st.dlbufCurpos) with hndef
  have hn : n ≤ st.dlbufLen.toNat - st.dlbufCurpos := Nat.min_le_right _ _
  have hpos : 0 < n := by omega
  rw [h.chunk hn]
  refine wp_mono (ftpWriteData_spec _ w) ?_ ?_
  · rintro ret w' ⟨k, hk, hret, htalk⟩
    obtain ⟨es', htotal, hsafe⟩ := h.wrote hn htalk
    have htr : (if 0 ≤ ret then st.transferred + ret.toNat else st.transferred) =
        st.transferred + ret.toNat := by
      split <;> omega
    rw [wp_ite, wp_pure, wp_pure, htr]
    split
    · refine ⟨rfl, _, es', hsafe, ?_⟩
      show st.transferred + ret.toNat = _
      rw [htotal, h.total]
    · rename_i hall
      push Not at hall
      obtain ⟨hnn, hfull⟩ := hall
      -- the write was not short, so all of the chunk was taken
      have hk' : k = (toWire isAscii (slice env.object st.pos n) st.prevCr).1.length := by
        have := hret (by omega)
        omega
      rw [hk', List.take_length] at hsafe
      refine ⟨⟨es', h.step hn htotal hsafe⟩, ?_, rfl, rfl⟩
      unfold SendState.pos
      simp only
      omega
  · rintro _ w' ⟨he, k, hk, ret, htalk⟩
    obtain ⟨es', -, hsafe⟩ := h.wrote hn htalk
    exact ⟨he, _, es', hsafe⟩

/-- One round keeps the invariant and moves on by a byte at least. -/
theorem sendIter_spec (path : Bytes) (h : SendInv T env isAscii offset size w₀ st w es) :
    wp (sendIter T env path isAscii size st)
      (fun r w' => match r with
        | .inl st' => (∃ es', SendInv T env isAscii offset size w₀ st' w' es') ∧ st.pos < st'.pos
        | .inr ret => SendDone T env isAscii offset size w₀ ret w')
      (fun e w' => e.Orderly ∧ SendHalt T env isAscii offset size w₀ w') w := by
  unfold sendIter
  rw [wp_bind]
  refine wp_mono (fillDownloadbuf_spec path h) ?_ (fun _ _ he => he.elim)
  rintro st' w' ⟨es', ⟨s, hsafe⟩, htotal, hinv, hleft⟩
  simp only [wp_ite, wp_pure]
  split
  · exact ⟨s, es', hsafe, htotal⟩
  · split
    · exact ⟨s, es', hsafe, htotal⟩
    · obtain ⟨hinv', hpos⟩ := hinv (by omega)
      rw [← hpos]
      refine wp_mono (sendChunk_spec hinv' (hleft (by omega))) ?_ (fun _ _ he => he)
      rintro (st'' | ret) w'' hr
      · exact ⟨hr.1, hr.2.1⟩
      · exact hr.2

/-- Any number of rounds keep it. -/
theorem sendLoop_spec (path : Bytes) (n : ℕ) (h : SendInv T env isAscii offset size w₀ st w es) :
    wp (sendLoop T env path isAscii size n st)
      (fun r w' => match r with
        | .inl st' => (∃ es', SendInv T env isAscii offset size w₀ st' w' es') ∧ st.pos + n ≤ st'.pos
        | .inr ret => SendDone T env isAscii offset size w₀ ret w')
      (fun e w' => e.Orderly ∧ SendHalt T env isAscii offset size w₀ w') w := by
  induction n generalizing st w es with
  | zero => exact ⟨⟨es, h⟩, Nat.le_refl _⟩
  | succ n ih =>
    unfold sendLoop
    rw [wp_bind]
    refine wp_mono (sendIter_spec path h) ?_ (fun _ _ he => he)
    rintro (st' | ret) w' hr
    · obtain ⟨⟨es', h'⟩, hlt⟩ := hr
      refine wp_mono (ih h') ?_ (fun _ _ he => he)
      rintro (st'' | ret) w'' hr
      · exact ⟨hr.1, by have := hr.2; omega⟩
      · exact hr
    · exact hr

/-- A call does what its request and its line of the log do. -/
theorem fileDownload_within {R : World → World → Prop} [Std.Refl R] [IsTrans World R] {C : Halt → Prop}
    (hget : ∀ path o len r, Within R C (emit (.cos (.fileDownload path o len r))))
    (hlog : ∀ msg view, Within R C (emit (.log .download true msg view))) (path : Bytes) (o len call : ℕ) :
    Within R C (fileDownload env path o len call) := by
  unfold fileDownload
  refine within_bind (hget _ _ _ _) fun _ => within_bind (within_when ?_) fun _ => within_pure _
  exact within_bind within_get fun _ => hlog _ _

/-- What the requests and the writes keep, the loop keeps. -/
theorem sendLoop_within {R : World → World → Prop} [Std.Refl R] [IsTrans World R] {C : Halt → Prop}
    {path : Bytes} (hget : ∀ o len call, Within R C (fileDownload env path o len call))
    (hwrite : ∀ buf, Within R C (ftpWriteData T env buf)) (isAscii : Bool) (size n : ℕ) (st : SendState) :
    Within R C (sendLoop T env path isAscii size n st) := by
  have hfill : ∀ st, Within R C (fillDownloadbuf T env path size st) := by
    intro st
    unfold fillDownloadbuf cosDownloadFile
    refine within_ite (within_ite (within_pure _) (within_bind ?_ fun _ => within_pure _)) (within_pure _)
    refine within_bind (hget _ _ _) fun ret => within_ite (within_pure _) ?_
    exact within_bind (hget _ _ _) fun _ => within_pure _
  have hchunk : ∀ st, Within R C (sendChunk T env isAscii st) := by
    intro st
    unfold sendChunk
    exact within_bind (hwrite _) fun _ => within_ite (within_pure _) (within_pure _)
  induction n generalizing st with
  | zero => exact within_pure _
  | succ n ih =>
    unfold sendLoop sendIter
    refine within_bind (within_bind (hfill st) fun st' => ?_) fun r => ?_
    · exact within_ite (within_pure _) (within_ite (within_pure _) (hchunk st'))
    · cases r with
      | inl st' => exact ih st'
      | inr ret => exact within_pure _

/-- The loop returns one of three results. -/
theorem sendLoop_usual (path : Bytes) (isAscii : Bool) (size n : ℕ) (st : SendState) (w : World) :
    wp (sendLoop T env path isAscii size n st) (fun r _ => ∀ ret, r = .inr ret → ret.Usual) (fun _ _ => True) w := by
  have hinr : ∀ (z : ℤ) (t : ℕ) (ret : TransferRet), (Sum.inr ⟨z, t⟩ : SendState ⊕ TransferRet) = .inr ret →
      ret.retval = z := by
    intro z t ret hret
    rw [← Sum.inr.inj hret]
  induction n generalizing st w with
  | zero =>
    intro ret hret
    cases hret
  | succ n ih =>
    have hiter : wp (sendIter T env path isAscii size st) (fun r _ => ∀ ret, r = .inr ret → ret.Usual)
        (fun _ _ => True) w := by
      unfold sendIter sendChunk
      rw [wp_bind]
      refine wp_mono (wp_true _ w) ?_ (fun _ _ h => h)
      intro st' w1 _
      rw [wp_ite, wp_ite]
      split
      · exact fun ret hret => .inr (.inl (hinr _ _ ret hret))
      split
      · exact fun ret hret => .inl (hinr _ _ ret hret)
      rw [wp_bind]
      refine wp_mono (wp_true _ w1) ?_ (fun _ _ h => h)
      intro written w2 _
      simp only [wp_ite, wp_pure]
      split
      · exact fun ret hret => .inr (.inr (hinr _ _ ret hret))
      · intro ret hret
        cases hret
    unfold sendLoop
    rw [wp_bind]
    refine wp_mono hiter ?_ (fun _ _ h => h)
    rintro (st' | ret) w1 hround
    · exact ih st' w1
    · exact hround

theorem doFileSendRwloop_usual (path : Bytes) (isAscii : Bool) (offset size : ℕ) (w : World) :
    wp (doFileSendRwloop T env path isAscii offset size) (fun ret _ => ret.Usual) (fun _ _ => True) w := by
  unfold doFileSendRwloop
  rw [wp_bind]
  refine wp_mono (sendLoop_usual path isAscii size _ _ w) ?_ (fun _ _ h => h)
  rintro (st | ret) w1 hret
  · trivial
  · exact hret ret rfl

/-- A transfer starts with nothing sent. -/
theorem SendInv.start (T : Tunables) (env : Env) (isAscii : Bool) (offset size : ℕ) (w : World) :
    SendInv T env isAscii offset size w { offset := offset } w [] := by
  have hpos : ({ offset := offset } : SendState).pos - offset = 0 := by
    unfold SendState.pos
    simp
  have hwire : toWire isAscii (slice env.object offset 0) false = ([], false) := by
    unfold toWire
    split <;> rfl
  refine ⟨Int.le_refl 0, Nat.le_refl 0, Nat.le_refl _, Nat.le_max_left _ _, rfl, ?_, ?_, rfl⟩
  · rw [hpos, hwire]
  · rw [hpos, hwire]
    exact ⟨by simp, List.nil_prefix, by simp, by simp⟩

/-- What a transfer is to send, said of the whole range at once. -/
theorem wireOf_eq (env : Env) (isAscii : Bool) (offset size : ℕ) :
    wireOf env isAscii offset size =
      let range := slice env.object (min offset size) (size - min offset size)
      if isAscii then insertCr range else range := by
  have hrange : slice env.object offset (size - offset) =
      slice env.object (min offset size) (size - min offset size) := by
    rcases Nat.le_total offset size with h | h
    · rw [Nat.min_eq_left h]
    · rw [Nat.min_eq_right h, Nat.sub_self, Nat.sub_eq_zero_of_le h]
      rfl
  unfold wireOf toWire
  rw [hrange]
  split
  · exact binToAscii_eq_insertCr _
  · rfl

/-- The loop returns before it is out of rounds. -/
theorem doFileSendRwloop_spec (path : Bytes) (isAscii : Bool) (offset size : ℕ) (w : World) :
    wp (doFileSendRwloop T env path isAscii offset size)
      (SendDone T env isAscii offset size w)
      (fun e w' => e.Orderly ∧ SendHalt T env isAscii offset size w w') w := by
  unfold doFileSendRwloop
  rw [wp_bind]
  refine wp_mono (sendLoop_spec path _ (SendInv.start T env isAscii offset size w)) ?_
    (fun _ _ he => he)
  rintro (st | ret) w' hr
  · obtain ⟨⟨es, h⟩, hfar⟩ := hr
    have := h.pos_le.2
    have hstart := (SendInv.start T env isAscii offset size w).pos_le.1
    omega
  · exact hr

end

/-- **A download sends the object, in order and each byte once**: however many
rounds the loop has made, and however it ended, the client got a first part of
the bytes from the restart point on (converted for an ASCII transfer), the
requests to COS stayed within the object and the download buffer, and the
counter is the sum of what the writes returned. The loop returns. -/
theorem download_sends_prefix (path : Bytes) (isAscii : Bool) (offset size n : ℕ) (w : World) :
    let range := slice env.object (min offset size) (size - min offset size)
    let Sent := fun w' : World => ∃ s es,
      w'.conn.sent = w.conn.sent ++ s ∧ s <+: (if isAscii then insertCr range else range) ∧
      w'.events = w.events ++ es ∧ ∀ e ∈ es, e.RangeOk T size
    let Counted := fun (transferred : ℕ) (w' : World) => ∀ es,
      w'.events = w.events ++ es → transferred = writtenTotal es
    wp (sendLoop T env path isAscii size n { offset := offset })
      (fun r w' => Sent w' ∧ Counted (r.elim (·.transferred) (·.transferred)) w')
      (fun _ w' => Sent w') w ∧
    wp (doFileSendRwloop T env path isAscii offset size)
      (fun ret w' => Sent w' ∧ Counted ret.transferred w') (fun e w' => e.Orderly ∧ Sent w') w := by
  intro range Sent Counted
  have hwire := wireOf_eq env isAscii offset size
  have hsent : ∀ {w' s es}, SendSafe T env isAscii offset size w w' s es → Sent w' := by
    intro w' s es h
    exact ⟨s, es, h.sent, hwire ▸ h.wire, h.events, h.ranges⟩
  have hcounted : ∀ {t w' s es}, SendSafe T env isAscii offset size w w' s es → t = writtenTotal es →
      Counted t w' := by
    intro t w' s es h ht es' hes'
    rw [ht, List.append_cancel_left (h.events.symm.trans hes')]
  constructor
  · refine wp_mono (sendLoop_spec path n (SendInv.start T env isAscii offset size w)) ?_ ?_
    · rintro (st | ret) w' hr
      · obtain ⟨⟨es, h⟩, -⟩ := hr
        exact ⟨hsent h.safe, hcounted h.safe h.total⟩
      · obtain ⟨s, es, h, ht⟩ := hr
        exact ⟨hsent h, hcounted h ht⟩
    · rintro e w' ⟨-, s, es, h⟩
      exact hsent h
  · refine wp_mono (doFileSendRwloop_spec path isAscii offset size w) ?_ ?_
    · rintro ret w' ⟨s, es, h, ht⟩
      exact ⟨hsent h, hcounted h ht⟩
    · rintro e w' ⟨he, s, es, h⟩
      exact ⟨he, hsent h⟩

end CosFtp
