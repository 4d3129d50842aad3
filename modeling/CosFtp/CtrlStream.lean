/-
# The lines of the control connection

`str_netfd_alloc` takes one line off a connection: it peeks into its buffer, looks
for the terminator in what has come, and reads what it has looked at. The client's
bytes come in the pieces the network gives, so each peek ends where the outside
says (`Netfd.peeks`), behind at least one byte and at most at the requested length.
The buffer keeps what earlier lines have left in it.

Neither the pieces nor the old content of the buffer can be seen in the result: the
calls of `control_getline` give the lines of the stream, one after the other, until
the stream ends or a line does not fit.

Key definitions: `Netfd`, `strNetfdAlloc`, `streamLines`, `streamTail`.
Key theorems: `strNetfdAlloc_spec`, `control_lines_framed`.
-/
import Mathlib.Data.List.TakeWhile
import CosFtp.Session

namespace CosFtp

open Wp

/-- `VSFTP_MAX_COMMAND_LINE`. -/
def vsftpMaxCommandLine : ℕ := 4096

/-- A piece of memory of `n` bytes. -/
abbrev RawBuf (n : ℕ) := {b : Bytes // b.length = n}

/-- A connection with the buffer its lines are read into. -/
structure Netfd (maxlen : ℕ) where
  /-- the client's bytes that are not read yet; behind them it closes its side -/
  incoming : Bytes
  /-- the bytes read so far -/
  taken : Bytes := []
  buf : RawBuf maxlen
  /-- how far each peek gets, if that many bytes are asked for -/
  peeks : ℕ → ℕ
  calls : ℕ := 0

variable {maxlen : ℕ}

/-! ### Reading a line -/

/-- `bs` written into the buffer at `pos`. -/
def RawBuf.writeAt (buf : RawBuf maxlen) (pos : ℕ) (bs : Bytes) (h : pos + bs.length ≤ maxlen) :
    RawBuf maxlen :=
  ⟨buf.1.take pos ++ (bs ++ buf.1.drop (pos + bs.length)), by
    have hlen := buf.2
    simp only [List.length_append, List.length_take, List.length_drop]
    omega⟩

/-- Bytes that a call puts into the buffer; behind its end there is no memory to write to. -/
def store (pos : ℕ) (bs : Bytes) : EStateM Halt (Netfd maxlen) Unit := do
  if h : pos + bs.length ≤ maxlen then modify fun c => { c with buf := RawBuf.writeAt c.buf pos bs h }
  else throw .segv

/-- `vsf_sysutil_recv_peek` or `ssl_peek`; 0 is the end of the stream. -/
def recvPeek (pos len : ℕ) : EStateM Halt (Netfd maxlen) ℕ := do
  let c ← get
  let n := min (max 1 (c.peeks c.calls)) (min len c.incoming.length)
  modify fun c => { c with calls := c.calls + 1 }
  store pos (c.incoming.take n)
  pure n

/-- `vsf_sysutil_read_loop`, or `ssl_read` of bytes that have been peeked. -/
def readLoop (pos len : ℕ) : EStateM Halt (Netfd maxlen) ℕ := do
  let c ← get
  let bs := c.incoming.take len
  modify fun c => { c with incoming := c.incoming.drop len, taken := c.taken ++ bs }
  store pos bs
  pure bs.length

/-- `str_alloc_alt_term`: the string up to the terminator, which has to be there. -/
def strAllocAltTerm (src : Bytes) (term : UInt8) : EStateM Halt (Netfd maxlen) Bytes :=
  if term ∈ src then pure (src.takeWhile (· ≠ term)) else throw .segv

/-- The terminator has been seen `i` bytes behind `pos`. -/
def takeLine (term : UInt8) (pos i : ℕ) : EStateM Halt (Netfd maxlen) CtrlLine := do
  let got ← readLoop pos (i + 1)
  if got ≠ i + 1 then throw (.die "vsf_sysutil_read_loop")
  else do
    let c ← get
    if c.buf.1[pos + i]? ≠ some term then throw (.die "missing terminator in str_netfd_alloc")
    else CtrlLine.line <$> strAllocAltTerm c.buf.1 term

/-- The loop of `str_netfd_alloc`, with `p_readpos` at `pos`. -/
def strNetfdAllocLoop (term : UInt8) : ℕ → ℕ → ℕ → EStateM Halt (Netfd maxlen) CtrlLine
  | 0, _, _ => throw .running
  | rounds + 1, pos, left => do
    if pos + left ≠ maxlen then throw (.bug "poor buffer accounting in str_netfd_alloc")
    else if left = 0 then pure .tooLong
    else do
      let bytesRead ← recvPeek pos left
      if bytesRead = 0 then pure .closed
      else do
        let c ← get
        match ((c.buf.1.drop pos).take bytesRead).findIdx? (· = term) with
        | some i => takeLine term pos i
        | none =>
          if left < bytesRead then throw (.bug "bytes_read > left in str_netfd_alloc")
          else do
            let got ← readLoop pos bytesRead
            if got ≠ bytesRead then throw (.die "vsf_sysutil_read_loop")
            else strNetfdAllocLoop term rounds (pos + bytesRead) (left - bytesRead)

/-- `str_netfd_alloc`: each round but the last takes at least a byte. -/
def strNetfdAlloc (term : UInt8) : EStateM Halt (Netfd maxlen) CtrlLine :=
  strNetfdAllocLoop term (maxlen + 1) 0 maxlen

/-- `ftp_getline`, in the process that has the connection. -/
def ftpGetline : EStateM Halt (Netfd vsftpMaxCommandLine) CtrlLine := strNetfdAlloc chLf

variable (T : Tunables) (env : Env)

/-- A session and its control connection. -/
abbrev OnControl := EStateM Halt (World × Netfd vsftpMaxCommandLine)

/-- `control_getline`, with its read. -/
def readControl : OnControl (Option Bytes) := do
  let line ← zoom Prod.snd (fun c s => (s.1, c)) ftpGetline
  zoom Prod.fst (fun w s => (w, s.2)) (controlGetline T env line)

/-- The results of `n` calls in a row. -/
def readControls : ℕ → OnControl (List (Option Bytes))
  | 0 => pure []
  | n + 1 => do
    let first ← readControl T env
    let rest ← readControls n
    pure (first :: rest)

/-! ### The lines of a stream -/

/-- The lines of a stream that end with an LF, without it. -/
def streamLines (s : Bytes) : List Bytes := (s.splitOn chLf).dropLast

/-- What stands behind the last LF of a stream. -/
def streamTail (s : Bytes) : Bytes := (s.splitOn chLf).getLastD []

/-- The lines before the first that does not fit into the buffer. -/
def fittingLines (s : Bytes) : List Bytes :=
  (streamLines s).takeWhile fun l => l.length < vsftpMaxCommandLine

/-- The stream has a line, or a beginning of one, that does not fit. -/
def Overlong (s : Bytes) : Prop :=
  (∃ l ∈ streamLines s, vsftpMaxCommandLine ≤ l.length) ∨ vsftpMaxCommandLine ≤ (streamTail s).length

/-- A line as `control_getline` gives it. -/
def cleanLine (l : Bytes) : Bytes := stripCr (strReplaceChar l chNul chLf)

/-- The bytes of lines, each with its LF. -/
def lineBytes (ls : List Bytes) : Bytes := (ls.map (· ++ [chLf])).flatten

theorem splitOn_line {l : Bytes} (h : chLf ∉ l) (s : Bytes) :
    (l ++ chLf :: s).splitOn chLf = l :: s.splitOn chLf := List.splitOn_append_cons_self_of_not_mem h s

theorem streamLines_line {l : Bytes} (h : chLf ∉ l) (s : Bytes) :
    streamLines (l ++ chLf :: s) = l :: streamLines s := by
  rw [streamLines, splitOn_line h, List.dropLast_cons_of_ne_nil (List.splitOn_ne_nil _ s), streamLines]

theorem streamTail_line {l : Bytes} (h : chLf ∉ l) (s : Bytes) :
    streamTail (l ++ chLf :: s) = streamTail s := by
  have hne : s.splitOn chLf ≠ [] := List.splitOn_ne_nil _ s
  rw [streamTail, splitOn_line h, streamTail, List.getLastD_cons]
  cases hs : s.splitOn chLf with
  | nil => exact absurd hs hne
  | cons a as => rfl

theorem streamLines_open {s : Bytes} (h : chLf ∉ s) : streamLines s = [] := by
  rw [streamLines, List.splitOn_eq_singleton h]
  rfl

theorem streamTail_open {s : Bytes} (h : chLf ∉ s) : streamTail s = s := by
  rw [streamTail, List.splitOn_eq_singleton h]
  rfl

/-! ### One line -/

theorem take_writeAt (buf : RawBuf maxlen) {pos : ℕ} {bs : Bytes} (h : pos + bs.length ≤ maxlen) :
    (RawBuf.writeAt buf pos bs h).1.take (pos + bs.length) = buf.1.take pos ++ bs := by
  have hpos : (buf.1.take pos).length = pos := by
    rw [List.length_take, buf.2]
    omega
  show (buf.1.take pos ++ (bs ++ buf.1.drop (pos + bs.length))).take (pos + bs.length) = _
  rw [← List.append_assoc]
  exact List.take_left' (by rw [List.length_append, hpos])

theorem take_pos_writeAt (buf : RawBuf maxlen) {pos : ℕ} {bs : Bytes} (h : pos + bs.length ≤ maxlen) :
    (RawBuf.writeAt buf pos bs h).1.take pos = buf.1.take pos := by
  have hpos : (buf.1.take pos).length = pos := by
    rw [List.length_take, buf.2]
    omega
  show (buf.1.take pos ++ (bs ++ buf.1.drop (pos + bs.length))).take pos = _
  exact List.take_left' hpos

theorem drop_writeAt (buf : RawBuf maxlen) {pos : ℕ} {bs : Bytes} (h : pos + bs.length ≤ maxlen) :
    ((RawBuf.writeAt buf pos bs h).1.drop pos).take bs.length = bs := by
  have hpos : (buf.1.take pos).length = pos := by
    rw [List.length_take, buf.2]
    omega
  show ((buf.1.take pos ++ (bs ++ buf.1.drop (pos + bs.length))).drop pos).take bs.length = _
  rw [List.drop_left' hpos, List.take_left]

/-- A peek shows the next bytes behind `pos` and takes none of them. -/
theorem recvPeek_spec {c : Netfd maxlen} {pos len : ℕ} (h : pos + len ≤ maxlen) (hlen : 0 < len) :
    wp (recvPeek pos len) (fun n c' => n ≤ len ∧ n ≤ c.incoming.length ∧ (n = 0 → c.incoming = []) ∧
      c'.incoming = c.incoming ∧ c'.taken = c.taken ∧ c'.buf.1.take pos = c.buf.1.take pos ∧
      (c'.buf.1.drop pos).take n = c.incoming.take n) (fun _ _ => False) c := by
  obtain ⟨n, hn⟩ : ∃ n, n = min (max 1 (c.peeks c.calls)) (min len c.incoming.length) := ⟨_, rfl⟩
  have hle : n ≤ len := by omega
  have hin : n ≤ c.incoming.length := by omega
  have htake : (c.incoming.take n).length = n := List.length_take_of_le hin
  have hfit : pos + (c.incoming.take n).length ≤ maxlen := by omega
  simp only [recvPeek, store, wp_bind, wp_get, wp_modify, ← hn, hfit, dite_true, wp_pure]
  have hzero : n = 0 → c.incoming = [] := by
    intro h0
    apply List.eq_nil_of_length_eq_zero
    omega
  have hshown : ((RawBuf.writeAt c.buf pos (c.incoming.take n) hfit).1.drop pos).take n = c.incoming.take n := by
    have := drop_writeAt c.buf hfit
    rwa [htake] at this
  exact ⟨hle, hin, hzero, trivial, trivial, take_pos_writeAt c.buf hfit, hshown⟩

/-- A read of bytes that are there moves them from the stream to the buffer. -/
theorem readLoop_spec {c : Netfd maxlen} {pos len : ℕ} (h : pos + len ≤ maxlen)
    (hlen : len ≤ c.incoming.length) :
    wp (readLoop pos len) (fun got c' => got = len ∧ c'.incoming = c.incoming.drop len ∧
      c'.taken = c.taken ++ c.incoming.take len ∧
      c'.buf.1.take (pos + len) = c.buf.1.take pos ++ c.incoming.take len) (fun _ _ => False) c := by
  have htake : (c.incoming.take len).length = len := List.length_take_of_le hlen
  have hfit : pos + (c.incoming.take len).length ≤ maxlen := by omega
  simp only [readLoop, store, wp_bind, wp_get, wp_modify, hfit, dite_true, wp_pure]
  have hstored : (RawBuf.writeAt c.buf pos (c.incoming.take len) hfit).1.take (pos + len) =
      c.buf.1.take pos ++ c.incoming.take len := by
    have := take_writeAt c.buf hfit
    rwa [htake] at this
  exact ⟨htake, trivial, trivial, hstored⟩

/-- What a read of one line has done with the stream `s`, where `t` had been read before. -/
def LineRead (term : UInt8) (t s : Bytes) (r : CtrlLine) (c : Netfd maxlen) : Prop :=
  c.taken ++ c.incoming = t ++ s ∧
    match r with
    | .line str => term ∉ str ∧ str.length < maxlen ∧ s = str ++ term :: c.incoming
    | .tooLong => maxlen ≤ (s.takeWhile (· ≠ term)).length
    | .closed => term ∉ s ∧ s.length < maxlen ∧ c.incoming = []

variable {term : UInt8}

theorem takeWhile_line {u : Bytes} (h : term ∉ u) (v : Bytes) :
    (u ++ term :: v).takeWhile (· ≠ term) = u := by
  have hall : ∀ b ∈ u, decide (b ≠ term) = true := by
    intro b hb
    exact decide_eq_true fun heq => h (heq ▸ hb)
  rw [List.takeWhile_append_of_pos hall]
  simp

/-- The first terminator of the bytes just peeked ends the line. -/
theorem takeLine_spec {c : Netfd maxlen} {p l rest : Bytes} (hbuf : c.buf.1.take p.length = p)
    (hp : term ∉ p) (hl : term ∉ l) (hin : c.incoming = l ++ term :: rest)
    (hfit : p.length + (l.length + 1) ≤ maxlen) :
    wp (takeLine term p.length l.length) (fun r c' => r = .line (p ++ l) ∧ c'.incoming = rest ∧
      c'.taken = c.taken ++ (l ++ [term])) (fun _ _ => False) c := by
  have hlen : l.length + 1 ≤ c.incoming.length := by
    rw [hin]
    simp
  have htake : c.incoming.take (l.length + 1) = l ++ [term] := by
    have hcut : l ++ term :: rest = (l ++ [term]) ++ rest := by simp
    rw [hin, hcut]
    exact List.take_left' (by simp)
  have hdrop : c.incoming.drop (l.length + 1) = rest := by
    rw [hin]
    simp [List.drop_append]
  unfold takeLine
  rw [wp_bind]
  apply wp_mono (readLoop_spec hfit hlen) _ fun _ _ h => h
  rintro got c' ⟨rfl, hrest, htaken, hstored⟩
  rw [htake, hbuf] at hstored
  -- the buffer starts with the line and its terminator, whatever stands behind them
  have hline : c'.buf.1 = p ++ l ++ term :: c'.buf.1.drop (p.length + (l.length + 1)) := by
    have := List.take_append_drop (p.length + (l.length + 1)) c'.buf.1
    rw [hstored] at this
    simpa using this.symm
  have hat : c'.buf.1[p.length + l.length]? = some term := by
    rw [hline]
    simp
  have hmem : term ∈ c'.buf.1 := by
    rw [hline]
    simp
  have hstr : c'.buf.1.takeWhile (· ≠ term) = p ++ l := by
    rw [hline]
    apply takeWhile_line
    simp [hp, hl]
  simp only [ne_eq, not_true_eq_false, if_false, wp_bind, wp_get, hat, wp_map, strAllocAltTerm, hmem,
    if_true, wp_pure]
  exact ⟨congrArg _ hstr, hrest.trans hdrop, htaken.trans (by rw [htake])⟩

theorem eq_of_findIdx {xs : Bytes} {i : ℕ} (h : xs.findIdx? (· = term) = some i) :
    ∃ l r, xs = l ++ term :: r ∧ l.length = i ∧ term ∉ l := by
  obtain ⟨hi, hterm, hfirst⟩ := List.findIdx?_eq_some_iff_getElem.mp h
  refine ⟨xs.take i, xs.drop (i + 1), ?_, by simp; omega, ?_⟩
  · have hat : xs[i] = term := by simpa using hterm
    rw [← hat, List.getElem_cons_drop, List.take_append_drop]
  · intro hmem
    obtain ⟨j, hj, hget⟩ := List.mem_take_iff_getElem.mp hmem
    exact hfirst j (by omega) (by simpa using hget)

/-- Where the rounds suffice, the loop ends as it should, whatever stands in the buffer behind the
`p` it has read. -/
theorem strNetfdAllocLoop_spec (t : Bytes) : ∀ (rounds left : ℕ) (p : Bytes) (c : Netfd maxlen),
    left < rounds → p.length + left = maxlen → term ∉ p → c.buf.1.take p.length = p →
    c.taken = t ++ p →
    wp (strNetfdAllocLoop term rounds p.length left) (LineRead term t (p ++ c.incoming))
      (fun _ _ => False) c := by
  intro rounds
  induction rounds with
  | zero =>
    intro left p c hlt
    omega
  | succ rounds ih =>
    intro left p c hlt hsum hp hbuf htaken
    have hnone : ∀ b ∈ p, decide (b ≠ term) = true := by
      intro b hb
      exact decide_eq_true fun heq => hp (heq ▸ hb)
    unfold strNetfdAllocLoop
    refine wp_cases (fun hne => absurd hsum hne) fun _ => wp_cases (fun h0 => ?_) fun h0 => ?_
    · -- the buffer is full of bytes of one line
      have hlong : maxlen ≤ ((p ++ c.incoming).takeWhile (· ≠ term)).length := by
        rw [List.takeWhile_append_of_pos hnone, List.length_append]
        omega
      exact ⟨by rw [htaken, List.append_assoc], hlong⟩
    rw [wp_bind]
    apply wp_mono (recvPeek_spec (by omega) (by omega)) _ fun _ _ h => h
    rintro n c1 ⟨hn, hin, hzero, hinc, htk, hkeep, hshown⟩
    have hbuf1 : c1.buf.1.take p.length = p := hkeep.trans hbuf
    have htaken1 : c1.taken = t ++ p := htk.trans htaken
    refine wp_cases (fun hn0 => ?_) fun hn0 => ?_
    · -- the end of the stream: what has been read of the line is dropped
      have hnil : c.incoming = [] := hzero hn0
      refine ⟨by rw [htaken1, hinc, List.append_assoc], ?_, ?_, hinc.trans hnil⟩
      · rwa [hnil, List.append_nil]
      · rw [hnil, List.append_nil]
        omega
    rw [wp_bind, wp_get, hshown]
    have hparts : c.incoming = c.incoming.take n ++ c.incoming.drop n := (List.take_append_drop _ _).symm
    cases hfind : (c.incoming.take n).findIdx? (· = term) with
    | some i =>
      obtain ⟨l, r, hcut, rfl, hl⟩ := eq_of_findIdx hfind
      have hrest : c1.incoming = l ++ term :: (r ++ c.incoming.drop n) :=
        calc c1.incoming = c.incoming.take n ++ c.incoming.drop n := hinc.trans hparts
          _ = l ++ term :: (r ++ c.incoming.drop n) := by
              rw [hcut]
              simp
      have hll : l.length + 1 ≤ n := by
        have := congrArg List.length hcut
        simp only [List.length_take, List.length_append, List.length_cons] at this
        omega
      apply wp_mono (takeLine_spec hbuf1 hp hl hrest (by omega)) _ fun _ _ h => h
      rintro r' c2 ⟨rfl, hin2, htk2⟩
      refine ⟨?_, by simp [hp, hl], by simp; omega, ?_⟩
      · rw [htk2, htaken1, ← hinc, hrest, ← hin2]
        simp
      · rw [← hinc, hrest, ← hin2]
        simp
    | none =>
      have hopen : term ∉ c.incoming.take n := by
        intro hmem
        simpa using List.findIdx?_eq_none_iff.mp hfind term hmem
      refine wp_cases (fun hbug => absurd hbug (by omega)) fun _ => ?_
      rw [wp_bind]
      apply wp_mono (readLoop_spec (by omega) (hinc ▸ hin)) _ fun _ _ h => h
      rintro got c2 ⟨rfl, hin2, htk2, hstored⟩
      have hgot : (p ++ c.incoming.take got).length = p.length + got := by
        rw [List.length_append, List.length_take_of_le hin]
      rw [if_neg (by simp), ← hgot]
      have hstream : p ++ c.incoming = (p ++ c.incoming.take got) ++ c2.incoming := by
        rw [hin2, hinc, List.append_assoc, List.take_append_drop]
      rw [hstream]
      apply ih
      · omega
      · omega
      · simp [hp, hopen]
      · rw [hgot, hstored, hbuf1, hinc]
      · rw [htk2, htaken1, hinc, List.append_assoc]

/-- **`str_netfd_alloc` takes one line off the stream**, the end of it, or finds that the line does not
fit; it fails no check of its own and never leaves its buffer. -/
theorem strNetfdAlloc_spec (c : Netfd maxlen) :
    wp (strNetfdAlloc term) (LineRead term c.taken c.incoming) (fun _ _ => False) c :=
  strNetfdAllocLoop_spec c.taken (maxlen + 1) maxlen [] c (by omega) (by simp) (by simp) rfl (by simp)

/-! ### The lines of a session -/

variable {T} {env}

/-- The session ends as one does whose line is too long. -/
def Rejected (T : Tunables) (env : Env) (w : World) (h : Halt) (w' : World) : Prop :=
  (vsfCmdioWriteExit T env ftpBadcmd "Input line too long." 1 : M (Option Bytes)) w = .error h w'

theorem rejected_wp (w : World) :
    wp (controlGetline T env .tooLong) (fun _ _ => False) (Rejected T env w) w := by
  show wp (vsfCmdioWriteExit T env ftpBadcmd "Input line too long." 1) _ _ w
  unfold wp Rejected vsfCmdioWriteExit
  cases hx : (writeControl T env (.reply ftpBadcmd (text "Input line too long."))) w with
  | ok _ w1 =>
    simp only [bind, EStateM.bind, hx]
    rfl
  | error h w1 => simp [bind, EStateM.bind, hx]

/-- One call of `control_getline`. -/
theorem readControl_spec (w : World) (c : Netfd vsftpMaxCommandLine) :
    wp (readControl T env)
      (fun r s => s.1 = w ∧ s.2.taken ++ s.2.incoming = c.taken ++ c.incoming ∧
        ((∃ l, chLf ∉ l ∧ l.length < vsftpMaxCommandLine ∧ c.incoming = l ++ chLf :: s.2.incoming ∧
            r = some (cleanLine l)) ∨
          (chLf ∉ c.incoming ∧ c.incoming.length < vsftpMaxCommandLine ∧ s.2.incoming = [] ∧ r = none)))
      (fun h s => Rejected T env w h s.1 ∧ s.2.taken ++ s.2.incoming = c.taken ++ c.incoming ∧
        vsftpMaxCommandLine ≤ (c.incoming.takeWhile (· ≠ chLf)).length) (w, c) := by
  unfold readControl
  rw [wp_bind, wp_zoom]
  apply wp_mono (strNetfdAlloc_spec c) _ fun _ _ h => h.elim
  rintro r c' ⟨hall, hr⟩
  rw [wp_zoom]
  cases r with
  | closed => exact ⟨rfl, hall, .inr ⟨hr.1, hr.2.1, hr.2.2, rfl⟩⟩
  | line str => exact ⟨rfl, hall, .inl ⟨str, hr.1, hr.2.1, hr.2.2, rfl⟩⟩
  | tooLong => exact wp_mono (rejected_wp w) (fun _ _ h => h.elim) fun h w' hrej => ⟨hrej, hall, hr⟩

theorem fittingLines_line {l : Bytes} (h : chLf ∉ l) (hl : l.length < vsftpMaxCommandLine) (s : Bytes) :
    fittingLines (l ++ chLf :: s) = l :: fittingLines s := by
  rw [fittingLines, streamLines_line h, List.takeWhile_cons_of_pos (by simpa using hl), fittingLines]

theorem fittingLines_open {s : Bytes} (h : chLf ∉ s) : fittingLines s = [] := by
  rw [fittingLines, streamLines_open h]
  rfl

theorem overlong_line {l : Bytes} (h : chLf ∉ l) (hl : l.length < vsftpMaxCommandLine) (s : Bytes) :
    Overlong (l ++ chLf :: s) ↔ Overlong s := by
  have hshort : ¬ vsftpMaxCommandLine ≤ l.length := Nat.not_le.mpr hl
  simp [Overlong, streamLines_line h, streamTail_line h, hshort]

theorem not_overlong_open {s : Bytes} (h : chLf ∉ s) (hs : s.length < vsftpMaxCommandLine) :
    ¬ Overlong s := by
  have hshort : ¬ vsftpMaxCommandLine ≤ s.length := Nat.not_le.mpr hs
  simp [Overlong, streamLines_open h, streamTail_open h, hshort]

/-- A stream starts with a line or has no LF. -/
theorem stream_cases (s : Bytes) :
    chLf ∉ s ∨ ∃ l rest, chLf ∉ l ∧ s = l ++ chLf :: rest := by
  by_cases h : chLf ∈ s
  · obtain ⟨l, rest, heq, hl⟩ := List.eq_append_cons_of_mem h
    exact .inr ⟨l, rest, hl, heq⟩
  · exact .inl h

/-- A first line that does not fit is the first thing found. -/
theorem overlong_first {s : Bytes} (h : vsftpMaxCommandLine ≤ (s.takeWhile (· ≠ chLf)).length) :
    Overlong s ∧ fittingLines s = [] := by
  rcases stream_cases s with hopen | ⟨l, rest, hl, rfl⟩
  · have htail : vsftpMaxCommandLine ≤ s.length := h.trans (List.takeWhile_prefix _).length_le
    refine ⟨.inr ?_, ?_⟩
    · rwa [streamTail_open hopen]
    · exact fittingLines_open hopen
  · rw [takeWhile_line hl] at h
    refine ⟨.inl ⟨l, ?_, h⟩, ?_⟩
    · rw [streamLines_line hl]
      exact List.mem_cons_self
    · rw [fittingLines, streamLines_line hl]
      exact List.takeWhile_cons_of_neg (by simpa using h)

/-- Behind the end of the stream there is nothing more. -/
theorem readControls_closed (n : ℕ) (w : World) {c : Netfd vsftpMaxCommandLine} (hend : c.incoming = []) :
    wp (readControls T env n) (fun rs s => s.1 = w ∧ s.2.taken ++ s.2.incoming = c.taken ++ c.incoming ∧
      s.2.incoming = [] ∧ rs = List.replicate n none) (fun _ _ => False) (w, c) := by
  induction n generalizing c with
  | zero => exact ⟨rfl, rfl, hend, rfl⟩
  | succ n ih =>
    unfold readControls
    rw [wp_bind]
    apply wp_mono (readControl_spec w c)
    · rintro r ⟨w1, c1⟩ ⟨rfl, hall, ⟨l, _, _, hcut, _⟩ | ⟨_, _, hend1, rfl⟩⟩
      · rw [hend] at hcut
        simp at hcut
      · rw [wp_bind]
        apply wp_mono (ih hend1) _ fun _ _ h => h
        rintro rs s ⟨hw, hall1, hend2, rfl⟩
        exact ⟨hw, hall1.trans hall, hend2, rfl⟩
    · rintro h s ⟨_, _, hlong⟩
      rw [hend] at hlong
      exact absurd hlong (by decide)

/-- **The control connection's lines do not depend on how the bytes come.** The first calls of
`control_getline` give the lines of the stream in their order, as long as they fit, and take
exactly their bytes off it. Behind these lines the next call rejects the line that does not fit,
if the stream has one, and else all further calls find the connection closed, with a partial line
dropped. -/
theorem control_lines_framed (T : Tunables) (env : Env) (n : ℕ) (w : World) (c : Netfd vsftpMaxCommandLine) :
    wp (readControls T env n)
      (fun rs s => s.1 = w ∧ s.2.taken ++ s.2.incoming = c.taken ++ c.incoming ∧
        if n ≤ (fittingLines c.incoming).length then
          rs = ((fittingLines c.incoming).take n).map (fun l => some (cleanLine l)) ∧
            s.2.taken = c.taken ++ lineBytes ((fittingLines c.incoming).take n)
        else ¬ Overlong c.incoming ∧ s.2.incoming = [] ∧
          rs = (streamLines c.incoming).map (fun l => some (cleanLine l)) ++
            List.replicate (n - (streamLines c.incoming).length) none)
      (fun h s => (fittingLines c.incoming).length < n ∧ Overlong c.incoming ∧ Rejected T env w h s.1 ∧
        s.2.taken ++ s.2.incoming = c.taken ++ c.incoming) (w, c) := by
  induction n generalizing c with
  | zero => exact ⟨rfl, rfl, by simp [lineBytes]⟩
  | succ n ih =>
    unfold readControls
    rw [wp_bind]
    apply wp_mono (readControl_spec w c)
    · rintro r ⟨w1, c1⟩ ⟨rfl, hall, hr⟩
      rw [wp_bind]
      rcases hr with ⟨l, hl, hfit, hcut, rfl⟩ | ⟨hopen, hshort, hend, rfl⟩
      · -- a line, and the rest of the stream behind it
        have htk : c1.taken = c.taken ++ (l ++ [chLf]) := by
          rw [hcut] at hall
          have hcat : c1.taken ++ c1.incoming = (c.taken ++ (l ++ [chLf])) ++ c1.incoming := by
            simpa using hall
          exact List.append_cancel_right hcat
        rw [hcut, fittingLines_line hl hfit, streamLines_line hl, overlong_line hl hfit]
        apply wp_mono (ih c1)
        · rintro rs s ⟨hw, hall1, hrs⟩
          refine ⟨hw, hall1.trans (hcut ▸ hall), ?_⟩
          by_cases hn : n ≤ (fittingLines c1.incoming).length
          · rw [if_pos hn] at hrs
            obtain ⟨hrs, htk1⟩ := hrs
            rw [if_pos (by simpa using hn), hrs, htk1, htk]
            simp [lineBytes]
          · rw [if_neg hn] at hrs
            obtain ⟨hover, hend, hrs⟩ := hrs
            rw [if_neg (by simpa using hn), hrs]
            exact ⟨hover, hend, by simp⟩
        · rintro h s ⟨hn, hover, hrej, hall1⟩
          exact ⟨by simpa using hn, hover, hrej, hall1.trans (hcut ▸ hall)⟩
      · -- the end of the stream, and no line behind it
        rw [fittingLines_open hopen, streamLines_open hopen]
        apply wp_mono (readControls_closed n w1 hend) _ fun _ _ h => h.elim
        rintro rs s ⟨hw, hall1, hend1, rfl⟩
        refine ⟨hw, hall1.trans hall, ?_⟩
        rw [if_neg (by simp)]
        exact ⟨not_overlong_open hopen hshort, hend1, rfl⟩
    · rintro h ⟨w1, c1⟩ ⟨hrej, hall, hlong⟩
      obtain ⟨hover, hnone⟩ := overlong_first hlong
      exact ⟨by simp [hnone], hover, hrej, hall⟩

end CosFtp
