/-
# How much of an object a download gets

The calls of `FileDownload` are numbered through a transfer. `fetched` is what
the calls before one bring, each at most a buffer full; a call that fails is
made once more. The loop ends with 0 where the object ends, or at the first
call that returns 0, wherever that is (`EndsEarly`).

Key definitions: `fetched`, `EndsEarly`, `FetchInv`, `SendEnd`.
Key theorem: `doFileSendRwloop_end`.
-/
import CosFtp.Send

namespace CosFtp

open Wp

/-- What the calls before `i` bring. -/
def fetched (bufsize : ℕ) (r : ℕ → ℤ) : ℕ → ℕ
  | 0 => 0
  | i + 1 => fetched bufsize r i + min (r i).toNat bufsize

/-- A call failed, and so did the one made in its place, before `i`. -/
def FailedBefore (r : ℕ → ℤ) (i : ℕ) : Prop := ∃ j, j + 1 < i ∧ r j < 0 ∧ r (j + 1) < 0

/-- The call `i` is made before the end of the object, and returns 0. -/
structure EndsEarly (bufsize size offset : ℕ) (r : ℕ → ℤ) (i : ℕ) : Prop where
  zero : r i = 0
  reached : ¬ FailedBefore r i
  early : offset + fetched bufsize r i < size

/-- The bytes that the downloads of a trace brought. -/
def fetchedOf (es : List Event) : ℕ :=
  (es.map fun e => match e with
    | .cos (.fileDownload _ _ _ result) => result.toNat
    | _ => 0).sum

theorem fetchedOf_append (es es' : List Event) : fetchedOf (es ++ es') = fetchedOf es + fetchedOf es' := by
  simp [fetchedOf]

theorem fetched_mono (bufsize : ℕ) (r : ℕ → ℤ) {i j : ℕ} (h : i ≤ j) :
    fetched bufsize r i ≤ fetched bufsize r j := by
  induction h with
  | refl => exact Nat.le_refl _
  | step _ ih => exact Nat.le_trans ih (Nat.le_add_right _ _)

/-- A call that fails brings nothing. -/
theorem fetched_succ_of_neg {bufsize : ℕ} {r : ℕ → ℤ} {i : ℕ} (h : r i < 0) :
    fetched bufsize r (i + 1) = fetched bufsize r i := by
  have hzero : (r i).toNat = 0 := by omega
  show fetched bufsize r i + min (r i).toNat bufsize = _
  rw [hzero, Nat.zero_min, Nat.add_zero]

variable (T : Tunables) (env : Env)

/-- Where a transfer from `offset` that began at `w₀` stands with its calls. -/
structure FetchInv (offset size : ℕ) (w₀ : World) (st : SendState) (w : World) : Prop where
  nonzero : ∀ j < st.calls, env.fileDownload j ≠ 0
  reached : ¬ FailedBefore env.fileDownload st.calls
  lastOk : ∀ j, j + 1 = st.calls → 0 ≤ env.fileDownload j
  pos : st.offset =
    max offset (min size (offset + fetched (getCosDownloadChunksize T) env.fileDownload st.calls))
  total : ∃ es, w.events = w₀.events ++ es ∧ fetchedOf es + offset = st.offset

/-- A call returned 0 before the end. -/
def FetchCut (offset size : ℕ) (w₀ : World) (st : SendState) (w : World) : Prop :=
  ∃ i, EndsEarly (getCosDownloadChunksize T) size offset env.fileDownload i ∧ st.offset < size ∧
    ∃ es, w.events = w₀.events ++ es ∧ fetchedOf es + offset = st.offset

/-- Two calls in a row failed, and none before them returned 0. -/
def FetchFailed : Prop :=
  ∃ j, env.fileDownload j < 0 ∧ env.fileDownload (j + 1) < 0 ∧ ∀ k ≤ j + 1, env.fileDownload k ≠ 0

section

variable {T} {env} {offset size : ℕ} {w₀ w : World} {st : SendState}

/-- No pair of failed calls ends where a call is made for the first time. -/
theorem FetchInv.reached_succ (h : FetchInv T env offset size w₀ st w) :
    ¬ FailedBefore env.fileDownload (st.calls + 1) := by
  rintro ⟨j, hj, hneg, hneg'⟩
  by_cases hlast : j + 1 = st.calls
  · have := h.lastOk j hlast
    omega
  · exact h.reached ⟨j, by omega, hneg, hneg'⟩

/-- Nor where it is made once more. -/
theorem FetchInv.reached_retry (h : FetchInv T env offset size w₀ st w)
    (hok : 0 ≤ env.fileDownload (st.calls + 1)) : ¬ FailedBefore env.fileDownload (st.calls + 2) := by
  rintro ⟨j, hj, hneg, hneg'⟩
  by_cases hlast : j = st.calls
  · subst hlast
    omega
  · exact h.reached_succ ⟨j, by omega, hneg, hneg'⟩

/-- The offset while the object has not ended. -/
theorem FetchInv.offset_eq (h : FetchInv T env offset size w₀ st w) (hmore : st.offset < size) :
    st.offset = offset + fetched (getCosDownloadChunksize T) env.fileDownload st.calls := by
  have := h.pos
  omega

/-- The bytes asked for in a call. -/
theorem downloadLen_eq (size o : ℕ) :
    (if size - o < getCosDownloadChunksize T then size - o else getCosDownloadChunksize T) =
      min (size - o) (getCosDownloadChunksize T) := by
  split <;> omega

theorem downloadResult_zero (len : ℕ) : downloadResult len 0 = 0 := by
  unfold downloadResult
  rw [if_neg (by omega)]
  omega

theorem downloadResult_of_neg {len : ℕ} {r : ℤ} (h : r < 0) : downloadResult len r = r := by
  unfold downloadResult
  rw [if_pos h]

theorem downloadResult_of_pos {len : ℕ} {r : ℤ} (h : 0 < r) : downloadResult len r = min r len := by
  unfold downloadResult
  rw [if_neg (by omega)]

/-- The buffer after a download that returned `n`. -/
def SendState.filled (st : SendState) (env : Env) (n : ℤ) (calls : ℕ) : SendState :=
  { st with
    dlbuf := slice env.object st.offset n.toNat, dlbufLen := n, dlbufCurpos := 0,
    offset := st.offset + n.toNat, calls := calls }

/-- A call that brings something, numbered `i`, behind calls that bring nothing. -/
theorem FetchInv.got (h : FetchInv T env offset size w₀ st w) (hmore : st.offset < size) {i : ℕ}
    {es' : List Event} (hpos : 0 < env.fileDownload i) (hne : ∀ j < i, env.fileDownload j ≠ 0)
    (hreached : ¬ FailedBefore env.fileDownload (i + 1))
    (hsame : fetched (getCosDownloadChunksize T) env.fileDownload i =
      fetched (getCosDownloadChunksize T) env.fileDownload st.calls)
    {len : ℕ} (hlen : len = min (size - st.offset) (getCosDownloadChunksize T))
    (hes' : fetchedOf es' = (downloadResult len (env.fileDownload i)).toNat) :
    FetchInv T env offset size w₀ (st.filled env (downloadResult len (env.fileDownload i)) (i + 1))
      { w with events := w.events ++ es' } := by
  obtain ⟨es, hes, htotal⟩ := h.total
  have hoff := h.offset_eq hmore
  refine ⟨?_, hreached, ?_, ?_, es ++ es', ?_, ?_⟩
  · intro j hj
    have hj' : j < i + 1 := hj
    by_cases hji : j = i
    · subst hji
      omega
    · exact hne j (by omega)
  · intro j hj
    have hj' : j + 1 = i + 1 := hj
    obtain rfl : j = i := by omega
    omega
  · have hstep : fetched (getCosDownloadChunksize T) env.fileDownload (i + 1) =
        fetched (getCosDownloadChunksize T) env.fileDownload st.calls +
          min (env.fileDownload i).toNat (getCosDownloadChunksize T) := by
      rw [← hsame]
      rfl
    show st.offset + (downloadResult _ _).toNat =
      max offset (min size (offset + fetched _ _ (i + 1)))
    rw [hstep, downloadResult_of_pos hpos]
    omega
  · simp [hes]
  · rw [fetchedOf_append, hes']
    show _ = st.offset + _
    omega

/-- A call that brings nothing and ends the transfer. -/
theorem FetchInv.cut (h : FetchInv T env offset size w₀ st w) (hmore : st.offset < size) {i calls : ℕ}
    {es' : List Event} (hzero : env.fileDownload i = 0) (hreached : ¬ FailedBefore env.fileDownload i)
    (hsame : fetched (getCosDownloadChunksize T) env.fileDownload i =
      fetched (getCosDownloadChunksize T) env.fileDownload st.calls) (hes' : fetchedOf es' = 0) :
    FetchCut T env offset size w₀ (st.filled env 0 calls) { w with events := w.events ++ es' } := by
  obtain ⟨es, hes, htotal⟩ := h.total
  have hoff := h.offset_eq hmore
  refine ⟨i, ⟨hzero, hreached, ?_⟩, hmore, es ++ es', ?_, ?_⟩
  · rw [hsame]
    omega
  · simp [hes]
  · rw [fetchedOf_append, hes', Nat.add_zero, htotal]
    rfl

theorem fetchedOf_downloadEvents (path : Bytes) (o len call : ℕ) (view : LogView) :
    fetchedOf (downloadEvents env path o len call view) = (downloadResult len (env.fileDownload call)).toNat := by
  unfold downloadEvents
  simp only []
  split
  · exact Nat.add_zero _
  · exact Nat.add_zero _

/-- What the calls for one filling come to. -/
theorem cosDownloadFile_fetch (path : Bytes) (h : FetchInv T env offset size w₀ st w)
    (hmore : st.offset < size) :
    wp (cosDownloadFile env path (getCosDownloadChunksize T) st.offset size st.calls)
      (fun r w' => (0 < r.1 ∧ FetchInv T env offset size w₀ (st.filled env r.1 r.2) w') ∨
        (r.1 = 0 ∧ FetchCut T env offset size w₀ (st.filled env r.1 r.2) w') ∨
        (r.1 < 0 ∧ FetchFailed env))
      (fun _ _ => False) w := by
  have hBpos := getCosDownloadChunksize_pos T
  unfold cosDownloadFile
  rw [downloadLen_eq]
  simp only [wp_bind, wp_fileDownload, wp_pure, wp_ite]
  set len := min (size - st.offset) (getCosDownloadChunksize T) with hlen
  have hlenpos : 0 < len := by omega
  rcases Int.lt_trichotomy (env.fileDownload st.calls) 0 with hneg | hzero | hpos
  · -- the call failed, and is made once more
    have hsame : fetched (getCosDownloadChunksize T) env.fileDownload (st.calls + 1) =
        fetched (getCosDownloadChunksize T) env.fileDownload st.calls := fetched_succ_of_neg hneg
    have hne : ∀ j < st.calls + 1, env.fileDownload j ≠ 0 := by
      intro j hj
      by_cases hjc : j = st.calls
      · subst hjc
        omega
      · exact h.nonzero j (by omega)
    have hnone : (env.fileDownload st.calls).toNat = 0 := by omega
    rw [downloadResult_of_neg hneg, if_neg (by omega)]
    simp only [List.append_assoc]
    rcases Int.lt_trichotomy (env.fileDownload (st.calls + 1)) 0 with hneg' | hzero' | hpos'
    · refine .inr (.inr ⟨?_, st.calls, hneg, hneg', ?_⟩)
      · rw [downloadResult_of_neg hneg']
        exact hneg'
      · intro k hk
        by_cases hkc : k = st.calls + 1
        · subst hkc
          omega
        · exact hne k (by omega)
    · rw [hzero', downloadResult_zero]
      refine .inr (.inl ⟨rfl, h.cut hmore hzero' h.reached_succ hsame ?_⟩)
      rw [fetchedOf_append, fetchedOf_downloadEvents, fetchedOf_downloadEvents, hzero', downloadResult_of_neg hneg,
        hnone]
      rfl
    · refine .inl ⟨?_, h.got hmore hpos' hne (h.reached_retry (by omega)) hsame hlen ?_⟩
      · rw [downloadResult_of_pos hpos']
        omega
      · rw [fetchedOf_append, fetchedOf_downloadEvents, fetchedOf_downloadEvents, downloadResult_of_neg hneg, hnone,
          Nat.zero_add]
  · rw [hzero, downloadResult_zero, if_pos (Int.le_refl 0)]
    refine .inr (.inl ⟨rfl, h.cut hmore hzero h.reached rfl ?_⟩)
    rw [fetchedOf_downloadEvents, hzero]
    rfl
  · have hres : 0 < downloadResult len (env.fileDownload st.calls) := by
      rw [downloadResult_of_pos hpos]
      omega
    rw [if_pos (by omega)]
    refine .inl ⟨hres, h.got hmore hpos h.nonzero h.reached_succ rfl hlen ?_⟩
    rw [fetchedOf_downloadEvents]

/-- A filling goes on, has come to the end, or stops the transfer. -/
theorem fillDownloadbuf_fetch (path : Bytes) (h : FetchInv T env offset size w₀ st w) :
    wp (fillDownloadbuf T env path size st)
      (fun st' w' =>
        (FetchInv T env offset size w₀ st' w' ∧ 0 ≤ st'.dlbufLen ∧ (st'.dlbufLen = 0 → size ≤ st'.offset)) ∨
        (st'.dlbufLen = 0 ∧ FetchCut T env offset size w₀ st' w') ∨
        (st'.dlbufLen < 0 ∧ FetchFailed env))
      (fun _ _ => False) w := by
  unfold fillDownloadbuf
  simp only [wp_ite, wp_pure, wp_bind]
  split
  · split
    · rename_i hend
      exact .inl ⟨⟨h.nonzero, h.reached, h.lastOk, h.pos, h.total⟩, Int.le_refl 0, fun _ => hend⟩
    · rename_i hmore
      refine wp_mono (cosDownloadFile_fetch path h (by omega)) ?_ (fun _ _ he => he)
      rintro ⟨n, calls⟩ w' hr
      rcases hr with ⟨hpos, hinv⟩ | ⟨hzero, hcut⟩ | ⟨hneg, hfailed⟩
      · have hpos' : 0 < n := hpos
        refine .inl ⟨hinv, Int.le_of_lt hpos', fun hz => ?_⟩
        have hz' : n = 0 := hz
        omega
      · exact .inr (.inl ⟨hzero, hcut⟩)
      · exact .inr (.inr ⟨hneg, hfailed⟩)
  · rename_i hleft
    exact .inl ⟨h, by omega, fun hz => by omega⟩

/-! ### How a download ends -/

theorem fetchedOf_eq_zero {es : List Event} (h : ∀ e ∈ es, fetchedOf [e] = 0) : fetchedOf es = 0 := by
  induction es with
  | nil => rfl
  | cons e es ih =>
    have hes := ih fun e he => h e (List.mem_cons_of_mem _ he)
    show fetchedOf ([e] ++ es) = 0
    rw [fetchedOf_append, h e List.mem_cons_self, hes]

theorem fetchedOf_signals {es : List Event} (h : ∀ e ∈ es, SignalReply e) : fetchedOf es = 0 := by
  apply fetchedOf_eq_zero
  intro e he
  cases h e he <;> rfl

/-- Sending a chunk asks COS for nothing. -/
theorem sendChunk_fetch (isAscii : Bool) (st : SendState) (w : World) :
    wp (sendChunk T env isAscii st)
      (fun _ w' => ∃ es, w'.events = w.events ++ es ∧ fetchedOf es = 0) (fun _ _ => True) w := by
  unfold sendChunk
  rw [wp_bind]
  refine wp_mono (ftpWriteData_spec _ w) ?_ (fun _ _ _ => trivial)
  rintro ret w' ⟨k, -, -, htalk⟩
  obtain ⟨es, hes, hsignal, -⟩ := htalk.events
  have hzero := fetchedOf_signals hsignal
  have hall : ∃ es, w'.events = w.events ++ es ∧ fetchedOf es = 0 := by
    refine ⟨[.dataWrite ret] ++ es, ?_, ?_⟩
    · rw [hes, World.wrote]
      simp
    · rw [fetchedOf_append, hzero]
      rfl
  rw [wp_ite, wp_pure, wp_pure]
  split <;> exact hall

variable (T env) in
/-- How a download from `offset` that began at `w₀` ended: with the whole object,
cut short by a call that returned 0, by two calls that failed, or by the client. -/
inductive SendEnd (isAscii : Bool) (offset size : ℕ) (w₀ : World) : TransferRet → World → Prop where
  | whole {ret : TransferRet} {w : World} {es : List Event} (hret : ret.retval = 0)
      (hsent : w.conn.sent = w₀.conn.sent ++ wireOf env isAscii offset size)
      (hes : w.events = w₀.events ++ es) (hfetched : fetchedOf es = size - offset)
      (hcalls : ∃ n, (∀ j < n, env.fileDownload j ≠ 0) ∧
        size ≤ offset + fetched (getCosDownloadChunksize T) env.fileDownload n) :
      SendEnd isAscii offset size w₀ ret w
  | cut {ret : TransferRet} {w : World} {es : List Event} {i : ℕ} (hret : ret.retval = 0)
      (hearly : EndsEarly (getCosDownloadChunksize T) size offset env.fileDownload i)
      (hes : w.events = w₀.events ++ es) (hfetched : fetchedOf es < size - offset) :
      SendEnd isAscii offset size w₀ ret w
  | failed {ret : TransferRet} {w : World} (hret : ret.retval = -1) (hfailed : FetchFailed env) :
      SendEnd isAscii offset size w₀ ret w
  | network {ret : TransferRet} {w : World} (hret : ret.retval = -2) :
      SendEnd isAscii offset size w₀ ret w

variable {isAscii : Bool} {es : List Event}

/-- The buffer is used up and the object has ended: all of it has been sent. -/
theorem sendEnd_whole (h : SendInv T env isAscii offset size w₀ st w es)
    (hf : FetchInv T env offset size w₀ st w) (hlen : st.dlbufLen = 0) (hend : size ≤ st.offset)
    (n : ℕ) : SendEnd T env isAscii offset size w₀ ⟨0, n⟩ w := by
  obtain ⟨es', hes', htotal⟩ := hf.total
  have hle := h.offset_le
  have hpos : st.pos - offset = size - offset := by
    unfold SendState.pos
    rw [hlen]
    show st.offset - (0 - st.dlbufCurpos) - offset = _
    omega
  have hat := hf.pos
  refine .whole rfl ?_ hes' (by omega) ⟨st.calls, hf.nonzero, by omega⟩
  have hsent := h.safe.sent
  rw [hpos] at hsent
  exact hsent

/-- One round, with its calls. -/
theorem sendIter_fetch (path : Bytes) (h : SendInv T env isAscii offset size w₀ st w es)
    (hf : FetchInv T env offset size w₀ st w) :
    wp (sendIter T env path isAscii size st)
      (fun r w' => match r with
        | .inl st' => (∃ es', SendInv T env isAscii offset size w₀ st' w' es') ∧
            FetchInv T env offset size w₀ st' w'
        | .inr ret => SendEnd T env isAscii offset size w₀ ret w')
      (fun _ _ => True) w := by
  unfold sendIter
  rw [wp_bind]
  refine wp_mono (wp_and (fillDownloadbuf_spec path h) (fillDownloadbuf_fetch path hf)) ?_
    (fun _ _ _ => trivial)
  rintro st' w' ⟨⟨es', -, -, hinv, hleft⟩, hcase⟩
  simp only [wp_ite, wp_pure]
  rcases hcase with ⟨hf', hnn, hend⟩ | ⟨hzero, i, hearly, hmore, es', hes', htotal⟩ | ⟨hneg, hfailed⟩
  · rw [if_neg (by omega)]
    obtain ⟨hinv', -⟩ := hinv hnn
    split
    · rename_i hzero
      exact sendEnd_whole hinv' hf' hzero (hend hzero) _
    · refine wp_mono (wp_and (sendChunk_spec hinv' (hleft (by omega))) (sendChunk_fetch isAscii st' w')) ?_
        (fun _ _ _ => trivial)
      rintro (st'' | ret) w'' ⟨hr, es1, hes1, hzero1⟩
      · obtain ⟨hinv'', -, hoffset, hcalls⟩ := hr
        obtain ⟨es2, hes2, htotal⟩ := hf'.total
        refine ⟨hinv'', ?_, ?_, ?_, ?_, es2 ++ es1, ?_, ?_⟩
        · rw [hcalls]
          exact hf'.nonzero
        · rw [hcalls]
          exact hf'.reached
        · rw [hcalls]
          exact hf'.lastOk
        · rw [hcalls, hoffset]
          exact hf'.pos
        · rw [hes1, hes2, List.append_assoc]
        · rw [fetchedOf_append, hzero1, hoffset, Nat.add_zero, htotal]
      · exact .network hr.1
  · rw [if_neg (by omega), if_pos hzero]
    exact .cut rfl hearly hes' (by omega)
  · rw [if_pos hneg]
    exact .failed rfl hfailed

/-- Any number of rounds. -/
theorem sendLoop_fetch (path : Bytes) (n : ℕ) (h : SendInv T env isAscii offset size w₀ st w es)
    (hf : FetchInv T env offset size w₀ st w) :
    wp (sendLoop T env path isAscii size n st)
      (fun r w' => ∀ ret, r = .inr ret → SendEnd T env isAscii offset size w₀ ret w')
      (fun _ _ => True) w := by
  induction n generalizing st w es with
  | zero =>
    intro ret hret
    cases hret
  | succ n ih =>
    unfold sendLoop
    rw [wp_bind]
    refine wp_mono (sendIter_fetch path h hf) ?_ (fun _ _ _ => trivial)
    rintro (st' | ret) w' hr
    · obtain ⟨⟨es', h'⟩, hf'⟩ := hr
      exact ih h' hf'
    · intro ret' hret
      obtain rfl : ret = ret' := Sum.inr.inj hret
      exact hr

/-- A transfer starts with no call made. -/
theorem FetchInv.start (T : Tunables) (env : Env) (offset size : ℕ) (w : World) :
    FetchInv T env offset size w { offset := offset } w := by
  refine ⟨?_, ?_, ?_, ?_, [], by simp, ?_⟩
  · intro j hj
    exact absurd hj (Nat.not_lt_zero j)
  · rintro ⟨j, hj, -⟩
    exact absurd hj (Nat.not_lt_zero _)
  · intro j hj
    cases hj
  · show offset = max offset (min size (offset + 0))
    omega
  · show 0 + offset = offset
    omega

/-- **A download that ends with 0 is whole, or was cut short by a call that
returned 0.** -/
theorem doFileSendRwloop_end (path : Bytes) (isAscii : Bool) (offset size : ℕ) (w : World) :
    wp (doFileSendRwloop T env path isAscii offset size) (SendEnd T env isAscii offset size w)
      (fun _ _ => True) w := by
  unfold doFileSendRwloop
  rw [wp_bind]
  refine wp_mono (sendLoop_fetch path _ (SendInv.start T env isAscii offset size w)
    (FetchInv.start T env offset size w)) ?_ (fun _ _ _ => trivial)
  rintro (st | ret) w' hr
  · trivial
  · exact hr ret rfl

end

end CosFtp
