/-
# ASCII streams

The two conversions of ascii.c over whole streams. A transfer converts one
buffer after the other and carries the CR bit between them; what it puts out
depends on the stream alone (`asciiWrites_flatten`, `asciiSends_flatten`),
and what a download inserts an upload takes away again (`dropCr_insertCr`).

An upload converts its buffer where it lies. `asciiToBinRound` is the loop of
`vsf_ascii_ascii_to_bin` on that memory: the bytes read stand from position 1
on, and position 0 is left free for a CR held back before. A round writes no
further than where it has read (`asciiToBinRounds_behind`), so the result is
that of the conversion from one list to another (`asciiToBinInPlace_eq`).

Key definitions: `asciiWrites`, `asciiSends`, `asciiToBinInPlace`.
Key theorems: `asciiWrites_flatten`, `asciiToBinInPlace_eq`, `dropCr_insertCr`,
`ascii_upload_chunking`, `ascii_download_inverted`.
-/
import Mathlib.Logic.Function.Iterate
import CosFtp.Recv

namespace CosFtp

open Wp Inode

/-! ### Buffer after buffer -/

/-- What `do_file_recv` writes for the buffers its reads fill, with the end of
the stream behind them: a CR held back at the end still goes out. -/
def asciiWrites : List Bytes → Bool → List Bytes
  | [], prevCr => if prevCr then [(fromWire true [] prevCr).1] else []
  | buf :: reads, prevCr => (fromWire true buf prevCr).1 :: asciiWrites reads (fromWire true buf prevCr).2

/-- What `do_file_send_rwloop` sends for the buffers it reads from the file. -/
def asciiSends : List Bytes → Bool → List Bytes
  | [], _ => []
  | buf :: reads, prevCr => (toWire true buf prevCr).1 :: asciiSends reads (toWire true buf prevCr).2

theorem asciiWrites_flatten : ∀ (reads : List Bytes) (prevCr : Bool), (∀ buf ∈ reads, buf ≠ []) →
    (asciiWrites reads prevCr).flatten = dropCr (heldCr prevCr ++ reads.flatten)
  | [], prevCr, _ => by cases prevCr <;> rfl
  | buf :: reads, prevCr, h => by
    have hbuf : buf ≠ [] := h buf List.mem_cons_self
    have ih := asciiWrites_flatten reads (fromWire true buf prevCr).2
      fun b hb => h b (List.mem_cons_of_mem buf hb)
    rw [asciiWrites, List.flatten_cons, List.flatten_cons, ih, asciiToBin_append hbuf]
    rfl

theorem asciiSends_flatten : ∀ (reads : List Bytes) (prevCr : Bool),
    (asciiSends reads prevCr).flatten = (vsfAsciiBinToAscii reads.flatten prevCr).1
  | [], _ => rfl
  | buf :: reads, prevCr => by
    have hcut := binToAscii_append buf reads.flatten prevCr
    rw [asciiSends, List.flatten_cons, List.flatten_cons, asciiSends_flatten reads, hcut]
    rfl

/-! ### Lengths -/

theorem length_asciiToBinLoop_le : ∀ buf : Bytes, (asciiToBinLoop buf).1.length ≤ buf.length
  | [] => Nat.le_refl _
  | [b] => by
    rw [asciiToBinLoop]
    split <;> simp
  | b :: c :: rest => by
    have ih := length_asciiToBinLoop_le (c :: rest)
    rw [asciiToBinLoop, List.length_cons]
    simp only
    split
    · rw [List.length_cons]
      omega
    · omega

theorem length_vsfAsciiAsciiToBin_le (buf : Bytes) (prevCr : Bool) :
    (vsfAsciiAsciiToBin buf prevCr).1.length ≤ buf.length + 1 := by
  have hloop := length_asciiToBinLoop_le buf
  unfold vsfAsciiAsciiToBin
  simp only
  split
  · rw [List.length_cons]
    omega
  · omega

theorem length_vsfAsciiBinToAscii_le : ∀ (buf : Bytes) (prevCr : Bool),
    (vsfAsciiBinToAscii buf prevCr).1.length ≤ 2 * buf.length
  | [], _ => Nat.le_refl _
  | b :: rest, prevCr => by
    have ih := length_vsfAsciiBinToAscii_le rest (b = chCr)
    rw [vsfAsciiBinToAscii, List.length_cons]
    simp only
    split
    · simp only [List.length_cons]
      omega
    · rw [List.length_cons]
      omega

/-! ### The conversion where the buffer lies -/

/-- The memory from `p_buf` on and the variables of `vsf_ascii_ascii_to_bin`;
`p_out` is a distance from `p_buf`. -/
structure InPlace where
  mem : ℕ → UInt8
  indexx : ℕ := 0
  p_out : ℕ := 1
  written : ℕ := 0
  lastWasCr : Bool := false

/-- The memory with the CR that was held back, and where the result starts. -/
def asciiToBinStart (mem : ℕ → UInt8) (inLen : ℕ) (prevCr : Bool) : InPlace × ℕ :=
  if prevCr ∧ (inLen = 0 ∨ mem 1 ≠ chLf) then
    ({ mem := Function.update mem 0 chCr, written := 1 }, 0)
  else ({ mem := mem }, 1)

/-- One round of the loop. -/
def asciiToBinRound (inLen : ℕ) (s : InPlace) : InPlace :=
  let theChar := s.mem (s.indexx + 1)
  let keep : InPlace :=
    { s with mem := Function.update s.mem s.p_out theChar, p_out := s.p_out + 1,
             written := s.written + 1, indexx := s.indexx + 1 }
  if theChar ≠ chCr then keep
  else if s.indexx = inLen - 1 then { s with lastWasCr := true, indexx := s.indexx + 1 }
  else if s.mem (s.indexx + 2) ≠ chLf then keep
  else { s with indexx := s.indexx + 1 }

/-- The state after some rounds; the loop runs once for every byte. -/
def asciiToBinRounds (mem : ℕ → UInt8) (inLen : ℕ) (prevCr : Bool) (rounds : ℕ) : InPlace :=
  Nat.iterate (asciiToBinRound inLen) rounds (asciiToBinStart mem inLen prevCr).1

/-- A stretch of the memory. -/
def bytesAt (mem : ℕ → UInt8) (start : ℕ) : ℕ → Bytes
  | 0 => []
  | n + 1 => mem start :: bytesAt mem (start + 1) n

/-- What the caller finds at the pointer it gets back, and the CR flag. -/
def asciiToBinInPlace (mem : ℕ → UInt8) (inLen : ℕ) (prevCr : Bool) : Bytes × Bool :=
  let last := asciiToBinRounds mem inLen prevCr inLen
  (bytesAt last.mem (asciiToBinStart mem inLen prevCr).2 last.written, last.lastWasCr)

theorem bytesAt_congr {mem mem' : ℕ → UInt8} : ∀ {start n : ℕ},
    (∀ i, start ≤ i → i < start + n → mem i = mem' i) → bytesAt mem start n = bytesAt mem' start n
  | _, 0, _ => rfl
  | start, n + 1, h => by
    rw [bytesAt, bytesAt, h start (Nat.le_refl start) (by omega),
      bytesAt_congr fun i hi hlt => h i (by omega) (by omega)]

theorem bytesAt_succ (mem : ℕ → UInt8) : ∀ start n : ℕ,
    bytesAt mem start (n + 1) = bytesAt mem start n ++ [mem (start + n)]
  | start, 0 => rfl
  | start, n + 1 => by
    rw [bytesAt, bytesAt_succ mem (start + 1) n, bytesAt, List.cons_append]
    have hlast : start + 1 + n = start + (n + 1) := by omega
    rw [hlast]

/-- What stands before a round: nothing is written beyond what was read, and
what was not read yet is as it came. -/
structure InPlace.Behind (mem : ℕ → UInt8) (s : InPlace) (rounds : ℕ) : Prop where
  indexx : s.indexx = rounds
  p_out : s.p_out ≤ rounds + 1
  unread : ∀ i, rounds < i → s.mem i = mem i

theorem asciiToBinRound_behind {mem : ℕ → UInt8} {s : InPlace} {k : ℕ} (inLen : ℕ) (h : s.Behind mem k) :
    (asciiToBinRound inLen s).Behind mem (k + 1) := by
  have hi := h.indexx
  have ho := h.p_out
  have hkeep : ∀ i, k + 1 < i → Function.update s.mem s.p_out (s.mem (s.indexx + 1)) i = mem i := by
    intro i hlt
    rw [Function.update_of_ne (by omega), h.unread i (by omega)]
  have hskip : ∀ i, k + 1 < i → s.mem i = mem i := fun i hlt => h.unread i (by omega)
  unfold asciiToBinRound
  simp only
  split
  · exact ⟨by simp [hi], by simp; omega, hkeep⟩
  split
  · exact ⟨by simp [hi], by simp; omega, hskip⟩
  split
  · exact ⟨by simp [hi], by simp; omega, hkeep⟩
  · exact ⟨by simp [hi], by simp; omega, hskip⟩

/-- **No byte is overwritten before it was read.** -/
theorem asciiToBinRounds_behind (mem : ℕ → UInt8) (inLen : ℕ) (prevCr : Bool) :
    ∀ k, (asciiToBinRounds mem inLen prevCr k).Behind mem k
  | 0 => by
    show (asciiToBinStart mem inLen prevCr).1.Behind mem 0
    unfold asciiToBinStart
    split
    · exact ⟨rfl, Nat.le_refl _, fun i hi => Function.update_of_ne (by omega) _ _⟩
    · exact ⟨rfl, Nat.le_refl _, fun _ _ => rfl⟩
  | k + 1 => by
    have ih := asciiToBinRounds_behind mem inLen prevCr k
    unfold asciiToBinRounds at ih ⊢
    rw [Function.iterate_succ_apply']
    exact asciiToBinRound_behind inLen ih

/-- A round that keeps its byte. -/
def InPlace.keep (s : InPlace) : InPlace :=
  { s with mem := Function.update s.mem s.p_out (s.mem (s.indexx + 1)), p_out := s.p_out + 1,
           written := s.written + 1, indexx := s.indexx + 1 }

/-- What a round does with the byte it reads, by the byte behind it. -/
theorem asciiToBinRound_eq (inLen : ℕ) (s : InPlace) : asciiToBinRound inLen s =
    if s.mem (s.indexx + 1) ≠ chCr then s.keep
    else if s.indexx = inLen - 1 then { s with lastWasCr := true, indexx := s.indexx + 1 }
    else if s.mem (s.indexx + 2) ≠ chLf then s.keep
    else { s with indexx := s.indexx + 1 } := rfl

/-- The byte that is kept goes behind what was stored. -/
theorem InPlace.stored_keep {s : InPlace} {start : ℕ} (hstart : start + s.written = s.p_out) :
    bytesAt s.keep.mem start s.keep.written = bytesAt s.mem start s.written ++ [s.mem (s.indexx + 1)] := by
  show bytesAt s.keep.mem start (s.written + 1) = _
  rw [bytesAt_succ]
  have hlast : s.keep.mem (start + s.written) = s.mem (s.indexx + 1) := by
    rw [hstart]
    exact Function.update_self _ _ _
  have hbefore : bytesAt s.keep.mem start s.written = bytesAt s.mem start s.written :=
    bytesAt_congr fun i _ hi => Function.update_of_ne (by omega) _ _
  rw [hlast, hbefore]

/-- And leaves what is still to be read. -/
theorem InPlace.unread_keep {s : InPlace} (hout : s.p_out ≤ s.indexx + 1) (n : ℕ) :
    bytesAt s.keep.mem (s.indexx + 2) n = bytesAt s.mem (s.indexx + 2) n :=
  bytesAt_congr fun i hi _ => Function.update_of_ne (by omega) _ _

/-- The rounds from a state on: what is left to be read is converted behind
what was stored. -/
theorem asciiToBinRound_iterate (inLen start : ℕ) : ∀ (n : ℕ) (s : InPlace), s.indexx + n = inLen →
    s.p_out ≤ s.indexx + 1 → start + s.written = s.p_out → s.lastWasCr = false →
    bytesAt (Nat.iterate (asciiToBinRound inLen) n s).mem start (Nat.iterate (asciiToBinRound inLen) n s).written =
      bytesAt s.mem start s.written ++ (asciiToBinLoop (bytesAt s.mem (s.indexx + 1) n)).1 ∧
    (Nat.iterate (asciiToBinRound inLen) n s).lastWasCr = (asciiToBinLoop (bytesAt s.mem (s.indexx + 1) n)).2
  | 0, s, _, _, _, hcr => by
    rw [Function.iterate_zero, id, hcr]
    simp [bytesAt, asciiToBinLoop]
  | 1, s, hlen, hout, hstart, hcr => by
    rw [Function.iterate_one, asciiToBinRound_eq]
    have hlast : s.indexx = inLen - 1 := by omega
    have hone : bytesAt s.mem (s.indexx + 1) 1 = [s.mem (s.indexx + 1)] := rfl
    rw [hone, asciiToBinLoop]
    by_cases hb : s.mem (s.indexx + 1) ≠ chCr
    · rw [if_pos hb, if_pos hb]
      exact ⟨InPlace.stored_keep hstart, hcr⟩
    · rw [if_neg hb, if_neg hb, if_pos hlast]
      exact ⟨(List.append_nil _).symm, rfl⟩
  | n + 2, s, hlen, hout, hstart, hcr => by
    rw [Function.iterate_succ_apply]
    have hnotlast : s.indexx ≠ inLen - 1 := by omega
    have hhead : bytesAt s.mem (s.indexx + 1) (n + 2) =
        s.mem (s.indexx + 1) :: s.mem (s.indexx + 2) :: bytesAt s.mem (s.indexx + 3) n := rfl
    have htail : bytesAt s.mem (s.indexx + 2) (n + 1) =
        s.mem (s.indexx + 2) :: bytesAt s.mem (s.indexx + 3) n := rfl
    rw [hhead, asciiToBinLoop, ← htail, asciiToBinRound_eq, if_neg hnotlast]
    have ihKeep := asciiToBinRound_iterate inLen start (n + 1) s.keep
      (by show s.indexx + 1 + (n + 1) = inLen; omega) (by show s.p_out + 1 ≤ s.indexx + 1 + 1; omega)
      (by show start + (s.written + 1) = s.p_out + 1; omega) hcr
    have hunread : bytesAt s.keep.mem (s.keep.indexx + 1) (n + 1) = bytesAt s.mem (s.indexx + 2) (n + 1) :=
      InPlace.unread_keep hout (n + 1)
    rw [hunread, InPlace.stored_keep hstart, List.append_assoc, List.singleton_append] at ihKeep
    by_cases hb : s.mem (s.indexx + 1) ≠ chCr
    · rw [if_pos hb, if_pos (Or.inl hb)]
      exact ihKeep
    · rw [if_neg hb]
      by_cases hc : s.mem (s.indexx + 2) ≠ chLf
      · rw [if_pos hc, if_pos (Or.inr hc)]
        exact ihKeep
      · have hdrop : ¬ (s.mem (s.indexx + 1) ≠ chCr ∨ s.mem (s.indexx + 2) ≠ chLf) := by
          intro h
          exact h.elim hb hc
        rw [if_neg hc, if_neg hdrop]
        exact asciiToBinRound_iterate inLen start (n + 1) { s with indexx := s.indexx + 1 }
          (by show s.indexx + 1 + (n + 1) = inLen; omega) (by show s.p_out ≤ s.indexx + 1 + 1; omega)
          hstart hcr

/-- **The conversion in its own buffer is the conversion of the bytes read.** -/
theorem asciiToBinInPlace_eq (mem : ℕ → UInt8) (inLen : ℕ) (prevCr : Bool) :
    asciiToBinInPlace mem inLen prevCr = vsfAsciiAsciiToBin (bytesAt mem 1 inLen) prevCr := by
  have hhead : (bytesAt mem 1 inLen = [] ∨ (bytesAt mem 1 inLen).head? ≠ some chLf) ↔
      (inLen = 0 ∨ mem 1 ≠ chLf) := by
    cases inLen with
    | zero => simp [bytesAt]
    | succ n => simp [bytesAt]
  unfold asciiToBinInPlace vsfAsciiAsciiToBin asciiToBinRounds asciiToBinStart
  simp only [hhead]
  by_cases hheld : prevCr = true ∧ (inLen = 0 ∨ mem 1 ≠ chLf)
  · rw [if_pos hheld, if_pos hheld]
    obtain ⟨hstored, hcr⟩ := asciiToBinRound_iterate inLen 0 inLen
      { mem := Function.update mem 0 chCr, written := 1 } (Nat.zero_add inLen) (Nat.le_refl 1) rfl rfl
    have hin : bytesAt (Function.update mem 0 chCr) 1 inLen = bytesAt mem 1 inLen :=
      bytesAt_congr fun i hi _ => Function.update_of_ne (by omega) _ _
    have hfront : bytesAt (Function.update mem 0 chCr) 0 1 = [chCr] := by
      simp [bytesAt]
    simp only [Nat.zero_add, hin, hfront] at hstored hcr
    rw [hstored, hcr]
    rfl
  · rw [if_neg hheld, if_neg hheld]
    obtain ⟨hstored, hcr⟩ := asciiToBinRound_iterate inLen 1 inLen { mem := mem }
      (Nat.zero_add inLen) (Nat.le_refl 1) rfl rfl
    rw [hstored, hcr]
    rfl

/-! ### There and back -/

theorem insertCrAfter_cons (prev : Option UInt8) (b : UInt8) (s : Bytes) : insertCrAfter prev (b :: s) =
    (if b = chLf ∧ prev ≠ some chCr then [chCr, b] else [b]) ++ insertCrAfter (some b) s := by
  simp only [insertCrAfter, List.map_cons, List.zip_cons_cons, List.flatMap_cons]

/-- Behind a CR nothing is inserted in front. -/
theorem head?_insertCrAfter (s : Bytes) : (insertCrAfter (some chCr) s).head? = s.head? := by
  cases s with
  | nil => rfl
  | cons b s =>
    rw [insertCrAfter_cons, if_neg (by simp)]
    rfl

/-- What was inserted is dropped again, and so is every other CR in front of a LF. -/
theorem dropCr_insertCrAfter : ∀ (s : Bytes) (prev : Option UInt8), dropCr (insertCrAfter prev s) = dropCr s
  | [], _ => rfl
  | b :: s, prev => by
    have ih := dropCr_insertCrAfter s (some b)
    rw [insertCrAfter_cons]
    by_cases hinsert : b = chLf ∧ prev ≠ some chCr
    · rw [if_pos hinsert, hinsert.1]
      rw [hinsert.1] at ih
      have hlf : chLf ≠ chCr := by decide
      simp [dropCr, ih, hlf]
    · rw [if_neg hinsert, List.singleton_append, dropCr, dropCr, ih]
      by_cases hb : b = chCr
      · rw [hb, head?_insertCrAfter]
      · simp [hb]

theorem dropCr_insertCr (s : Bytes) : dropCr (insertCr s) = dropCr s := dropCr_insertCrAfter s none

/-- A stream without the pair is left alone. -/
theorem dropCr_eq_self : ∀ {s : Bytes}, ¬ crlf <:+: s → dropCr s = s
  | [], _ => rfl
  | b :: s, h => by
    have hrest : ¬ crlf <:+: s := fun hs => h (List.infix_cons hs)
    have hpair : ¬ (b = chCr ∧ s.head? = some chLf) := by
      intro hp
      obtain ⟨c, s', hs⟩ : ∃ c s', s = c :: s' := by
        cases s with
        | nil => simp at hp
        | cons c s' => exact ⟨c, s', rfl⟩
      rw [hs, List.head?_cons, Option.some.injEq] at hp
      rw [hs, hp.1, hp.2] at h
      exact h ⟨[], s', rfl⟩
    rw [dropCr, if_neg hpair, dropCr_eq_self hrest]

/-! ### The streams of the two directions -/

/-- **An upload in ASCII mode is its stream with every CR in front of a LF
removed, however the stream is cut into reads**: what the rounds write, the
held back CR at the end included, is this; no conversion stores more than one
byte above what it was given; done in its own buffer it overwrites nothing
that it has not read, and writes nothing behind what was read. The loop of
`do_file_recv` stores just this, wherever its reads cut the stream. -/
theorem ascii_upload_chunking (reads : List Bytes) (hreads : ∀ buf ∈ reads, buf ≠ []) :
    (asciiWrites reads false).flatten = dropCr reads.flatten ∧
    (∀ buf prevCr, (vsfAsciiAsciiToBin buf prevCr).1.length ≤ buf.length + 1) ∧
    (∀ mem inLen prevCr,
      asciiToBinInPlace mem inLen prevCr = vsfAsciiAsciiToBin (bytesAt mem 1 inLen) prevCr ∧
      ∀ k ≤ inLen, (asciiToBinRounds mem inLen prevCr k).Behind mem k) ∧
    (∀ (T : Tunables) (env : Env) (file : OpenFile) (haveRecvLen : ℕ) (w : World),
      wp (doFileRecv T env file true haveRecvLen) (RecvDone true file w)
        (fun e w' => e.Orderly ∧ ∃ es, Flow w w' es) w) := by
  refine ⟨?_, length_vsfAsciiAsciiToBin_le, ?_, ?_⟩
  · exact asciiWrites_flatten reads false hreads
  · intro mem inLen prevCr
    exact ⟨asciiToBinInPlace_eq mem inLen prevCr, fun k _ => asciiToBinRounds_behind mem inLen prevCr k⟩
  · intro T env file haveRecvLen w
    exact doFileRecv_spec file true haveRecvLen w

/-- A CR apart from its LF, and one at the end. -/
theorem ascii_upload_chunking_split :
    (asciiWrites [[chCr], [chCr, chLf, 65, chCr]] false).flatten = [chCr, chLf, 65, chCr] := by
  have hreads : ∀ buf ∈ [[chCr], [chCr, chLf, 65, chCr]], buf ≠ [] := by decide
  exact (ascii_upload_chunking [[chCr], [chCr, chLf, 65, chCr]] hreads).1.trans (by decide)

/-- **A download in ASCII mode is its stream with a CR inserted in front of
every LF that has none, however the stream is cut into buffers, and an upload
of it undoes this**: what comes back, in whatever reads, is the stream with
every CR LF turned into LF, and the stream itself if it holds none. A buffer
grows to twice its length at most, which is what there is room for. -/
theorem ascii_download_inverted (chunks : List Bytes) :
    (asciiSends chunks false).flatten = insertCr chunks.flatten ∧
    (∀ buf prevCr, (vsfAsciiBinToAscii buf prevCr).1.length ≤ 2 * buf.length) ∧
    (∀ buf prevCr, buf.length ≤ vsftpDataBufsize →
      (vsfAsciiBinToAscii buf prevCr).1.length ≤ vsftpDataBufsize * 2) ∧
    (∀ reads : List Bytes, (∀ buf ∈ reads, buf ≠ []) → reads.flatten = (asciiSends chunks false).flatten →
      (asciiWrites reads false).flatten = dropCr chunks.flatten ∧
      (¬ crlf <:+: chunks.flatten → (asciiWrites reads false).flatten = chunks.flatten)) := by
  have hsent : (asciiSends chunks false).flatten = insertCr chunks.flatten := by
    rw [asciiSends_flatten, binToAscii_eq_insertCr]
  refine ⟨hsent, length_vsfAsciiBinToAscii_le, ?_, ?_⟩
  · intro buf prevCr hle
    have hgrow := length_vsfAsciiBinToAscii_le buf prevCr
    omega
  · intro reads hreads hcut
    have hback : (asciiWrites reads false).flatten = dropCr chunks.flatten := by
      rw [asciiWrites_flatten reads false hreads, hcut, hsent]
      exact dropCr_insertCr chunks.flatten
    exact ⟨hback, fun hpair => hback.trans (dropCr_eq_self hpair)⟩

theorem ascii_download_inverted_line :
    (asciiWrites [[65], [chCr], [chLf]] false).flatten = [65, chLf] := by
  have hinverted := (ascii_download_inverted [[65], [chLf]]).2.2.2
  have hback := hinverted [[65], [chCr], [chLf]] (by decide) (by decide)
  exact hback.2 (by decide)

end CosFtp
