/-
# What xferlog tells

Each RETR or STOR that comes to its log entry leaves one line of xferlog: from its
own success, or from the end of the round. Each try of `cos_upload_file` or
`cos_download_file` that fails leaves one more, through `vsf_log_line`, and that
one is marked as complete whatever becomes of the transfer. So the log of a run is
what it should be exactly if no try failed.

A line is counted where `vsf_log_common` is called for a transfer: that the log
file can be locked and written is taken for granted.

Key definitions: `xferlog`, `StartsEntry`, `expectedLines`, `Tallied`.
Key theorems: `postLoginRound_told`, `xferlog_truthful_iff`.
-/
import CosFtp.Answer
import CosFtp.Policy

namespace CosFtp

open Wp

/-! ### The lines, and what they should be -/

/-- The lines of xferlog that a trace comes with: whether each is marked as complete. -/
def xferlog (es : List Event) : List Bool := es.filterMap Event.xferlog

/-- COS did not take a file, or did not give one. -/
def Event.failedTry : Event → Bool
  | .cos (.fileUpload _ _ ok) => !ok
  | .cos (.fileDownload _ _ _ result) => result < 0
  | _ => false

def failedTries (es : List Event) : ℕ := es.countP Event.failedTry

/-- The command starts the log entry of a transfer. -/
def StartsEntry (T : Tunables) (cmd : Bytes) (w : World) : Prop :=
  cmdOk T cmd = true ∧ DataReady T w ∧
    (Downloads T w.sess cmd ∧ ¬ (w.sess.isAscii = true ∧ w.sess.restartPos ≠ 0) ∨ Uploads T w.sess cmd)

instance (T : Tunables) (w : World) : Decidable (DataReady T w) :=
  decidable_of_iff ((w.ctl.portSockaddr.isNone = true ∨ (w.ctl.listenFd T).isNone = true) ∧
      w.ctl.active T = true ∧ dataNeedsEncryption T w.sess = false) <| by
    constructor
    · intro h
      refine ⟨h.1.imp ?_ ?_, h.2.1, h.2.2⟩
      · exact Option.isNone_iff_eq_none.mp
      · exact Option.isNone_iff_eq_none.mp
    · intro h
      refine ⟨h.exclusive.imp ?_ ?_, h.active, h.plain⟩
      · exact Option.isNone_iff_eq_none.mpr
      · exact Option.isNone_iff_eq_none.mpr

instance (T : Tunables) (cmd : Bytes) (w : World) : Decidable (StartsEntry T cmd w) := by
  unfold StartsEntry Downloads Uploads
  infer_instance

/-- The lines a run should leave: one for each entry that is started, marked as complete if the
client was told so. -/
def expectedLines (T : Tunables) : List (Env × CtrlLine) → World → List Bool
  | [], _ => []
  | (env, line) :: rounds, w =>
    let w' := after (postLoginRound T env line) w
    (if StartsEntry T (lineCommand env line).1 w then [decide (transferComplete ∈ w.since w')] else []) ++
      expectedLines T rounds w'

/-- A round that starts an entry leaves a line for each try that failed and the one it should;
another one leaves none. -/
def Tallied (entry : Prop) (es : List Event) : Prop :=
  (entry → xferlog es = List.replicate (failedTries es) true ++ [decide (transferComplete ∈ es)]) ∧
    (¬ entry → xferlog es = [] ∧ failedTries es = 0)

/-! ### The same of words -/

def linesOf (l : List Note) : List Bool := l.filterMap fun n => match n with
  | .line complete => some complete
  | _ => none

/-- A word that tells of an entry, or of none. -/
def TalliedWord (entry : Prop) (l : List Note) : Prop :=
  (entry → linesOf l = List.replicate (l.count .failed) true ++ [decide (.done true ∈ l)]) ∧
    (¬ entry → linesOf l = [] ∧ l.count .failed = 0)

theorem linesOf_append (l l' : List Note) : linesOf (l ++ l') = linesOf l ++ linesOf l' := List.filterMap_append

/-- The event is of the kind of the note. -/
def Event.Is (e : Event) : Note → Prop
  | .mark => True
  | .done complete => complete = true → e = transferComplete
  | .stalled => e = dataTimeoutReply
  | .failed => e.failedTry = true
  | .line complete => e.xferlog = some complete

/-- What an event is noted as, it is. -/
theorem Event.of_note {e : Event} {n : Note} (h : e.note = some n) : e.Is n := by
  unfold Event.note at h
  split at h
  · -- a reply
    split at h
    · cases h
    split at h
    · obtain rfl := Option.some.inj h
      assumption
    split at h
    · obtain rfl := Option.some.inj h
      trivial
    split at h
    · obtain rfl := Option.some.inj h
      exact of_decide_eq_true
    · cases h
  · obtain rfl := Option.some.inj h
    rfl
  · -- a download
    split at h
    · rename_i hneg
      obtain rfl := Option.some.inj h
      exact decide_eq_true hneg
    · cases h
  · obtain ⟨b, hb, rfl⟩ := Option.map_eq_some_iff.mp h
    exact hb

theorem Event.note_of_xferlog {e : Event} {b : Bool} (h : e.xferlog = some b) : e.note = some (.line b) := by
  unfold Event.xferlog at h
  split at h
  · rw [← Option.some.inj h]
    rfl
  · rw [← Option.some.inj h]
    rfl
  · cases h

theorem Event.note_of_failedTry {e : Event} (h : e.failedTry = true) : e.note = some .failed := by
  unfold Event.failedTry at h
  split at h
  · rename_i path content ok
    obtain rfl : ok = false := by simpa using h
    rfl
  · unfold Event.note
    simpa using h
  · cases h

theorem transferComplete_note : transferComplete.note = some (.done true) := by decide

theorem dataTimeoutReply_note : dataTimeoutReply.note = some .stalled := by decide

/-- An event is in the trace if its note is in the word. -/
theorem mem_notes {e : Event} {n : Note} (hn : e.note = some n) (heq : ∀ e', e'.note = some n → e' = e)
    (es : List Event) : n ∈ notes es ↔ e ∈ es := by
  unfold notes
  rw [List.mem_filterMap]
  constructor
  · intro h
    obtain ⟨e', he', hn'⟩ := h
    rw [← heq e' hn']
    exact he'
  · exact fun h => ⟨e, h, hn⟩

theorem linesOf_notes (es : List Event) : linesOf (notes es) = xferlog es := by
  unfold linesOf notes xferlog
  rw [List.filterMap_filterMap]
  congr 1
  funext e
  cases hx : e.xferlog with
  | some b => simp [Event.note_of_xferlog hx]
  | none =>
    cases hn : e.note with
    | none => rfl
    | some n =>
      cases n with
      | line b =>
        have hline : e.xferlog = some b := Event.of_note hn
        rw [hx] at hline
        cases hline
      | _ => rfl

theorem count_notes (es : List Event) : (notes es).count .failed = failedTries es := by
  induction es with
  | nil => rfl
  | cons e es ih =>
    unfold failedTries at ih ⊢
    by_cases hf : e.failedTry = true
    · have hcons : notes (e :: es) = .failed :: notes es := by simp [notes, Event.note_of_failedTry hf]
      rw [hcons, List.count_cons_self, List.countP_cons_of_pos hf, ih]
    · rw [List.countP_cons_of_neg hf, ← ih]
      cases hn : e.note with
      | none =>
        have hcons : notes (e :: es) = notes es := by simp [notes, hn]
        rw [hcons]
      | some n =>
        have hcons : notes (e :: es) = n :: notes es := by simp [notes, hn]
        have hne : n ≠ .failed := by
          rintro rfl
          exact hf (Event.of_note hn)
        rw [hcons, List.count_cons_of_ne hne]

/-- The word of a trace says it all. -/
theorem talliedWord_notes {entry : Prop} {es : List Event} : TalliedWord entry (notes es) ↔ Tallied entry es := by
  have hmem : (.done true ∈ notes es) = (transferComplete ∈ es) := by
    refine propext (mem_notes transferComplete_note ?_ es)
    exact fun _ h => Event.of_note h rfl
  unfold TalliedWord Tallied
  rw [linesOf_notes, count_notes]
  simp only [hmem]

/-! ### The words of a transfer -/

theorem tries_tally (k : ℕ) :
    linesOf (tries k) = List.replicate k true ∧ (tries k).count .failed = k ∧ ∀ n ∈ tries k, n = .failed ∨ n = .line true := by
  induction k with
  | zero => exact ⟨rfl, rfl, fun _ h => absurd h List.not_mem_nil⟩
  | succ k ih =>
    obtain ⟨hlines, hcount, hmem⟩ := ih
    refine ⟨?_, ?_, ?_⟩
    · show true :: linesOf (tries k) = _
      rw [hlines]
      rfl
    · show (Note.failed :: Note.line true :: tries k).count .failed = k + 1
      rw [List.count_cons_self, List.count_cons_of_ne (by simp), hcount]
    · intro n hn
      rcases List.mem_cons.mp hn with rfl | hn
      · exact .inl rfl
      rcases List.mem_cons.mp hn with rfl | hn
      · exact .inr rfl
      · exact hmem n hn

theorem Opened.tally {l : List Note} (h : Opened l) :
    linesOf l = List.replicate (l.count .failed) true ∧ .done true ∉ l ∧ .stalled ∉ l := by
  obtain ⟨k, hl⟩ := h
  obtain ⟨hlines, hcount, hmem⟩ := tries_tally k
  have hno : ∀ n, n ≠ .failed → n ≠ .line true → n ∉ tries k := fun n hf hline hn =>
    (hmem n hn).elim hf hline
  rcases hl with rfl | rfl
  · rw [hcount]
    exact ⟨hlines, hno _ (by simp) (by simp), hno _ (by simp) (by simp)⟩
  · refine ⟨?_, ?_, ?_⟩
    · rw [List.count_cons_of_ne (by simp), hcount]
      exact hlines
    · simpa using hno (.done true) (by simp) (by simp)
    · simpa using hno .stalled (by simp) (by simp)

/-- The word of an entry that was a success. -/
theorem Opened.tallied_complete {l : List Note} (h : Opened l) {entry : Prop} (hentry : entry) (ends : List Note)
    (hends : ends = [] ∨ ends = [.stalled]) : TalliedWord entry (l ++ [.line true, .done true] ++ ends) := by
  obtain ⟨hlines, -, -⟩ := h.tally
  have hnone : linesOf ends = [] ∧ ends.count .failed = 0 := by
    rcases hends with rfl | rfl <;> exact ⟨rfl, rfl⟩
  refine ⟨fun _ => ?_, fun hno => absurd hentry hno⟩
  have hmem : .done true ∈ l ++ [.line true, .done true] ++ ends := by simp
  rw [linesOf_append, linesOf_append, List.count_append, List.count_append, hlines, hnone.1, hnone.2, List.append_nil,
    decide_eq_true hmem]
  simp [linesOf]

/-- The word of one that was not, and was logged at the end of the round. -/
theorem Opened.tallied_failed {l : List Note} (h : Opened l) {entry : Prop} (hentry : entry) (reply ends : List Note)
    (hreply : reply = [] ∨ reply = [.done false]) (hends : ends = [] ∨ ends = [.stalled]) :
    TalliedWord entry (l ++ reply ++ [.line false] ++ ends) := by
  obtain ⟨hlines, hdone, -⟩ := h.tally
  refine ⟨fun _ => ?_, fun hno => absurd hentry hno⟩
  have hmem : .done true ∉ l ++ reply ++ [.line false] ++ ends := by
    rcases hreply with rfl | rfl <;> rcases hends with rfl | rfl <;> simpa using hdone
  rw [decide_eq_false hmem]
  rcases hreply with rfl | rfl <;> rcases hends with rfl | rfl <;>
    simp [linesOf_append, hlines] <;> simp [linesOf]

/-! ### The end of a round -/

section

variable {T : Tunables} {env : Env} {w₀ w w' : World} {l : List Note} {log : Option LogEntryType} {entry : Prop}

/-- The line that the loop writes for an entry that is still open. -/
def openLine (log : Option LogEntryType) : List Note := if log = none then [] else [.line false]

/-- The word of a round that has returned, or ended the session with the 421. -/
structure RoundTold (entry : Prop) (w w' : World) : Prop where
  grows : Extends w w'
  tallied : TalliedWord entry (notes (w.since w'))

theorem Said.grows (h : Said w₀ l log w) : Extends w₀ w := by
  obtain ⟨es, hes, -⟩ := h.events
  exact ⟨es, hes.symm⟩

/-- A command has been served: with what the loop adds, the word will do. -/
structure Dispatched (entry : Prop) (w₀ : World) (l : List Note) (log : Option LogEntryType) (w : World) : Prop where
  said : Said w₀ l log w
  kind : log = none ∨ log = some .download ∨ log = some .upload
  unstalled : .stalled ∉ l
  tallied : ∀ ends, ends = [] ∨ ends = [.stalled] → TalliedWord entry (l ++ openLine log ++ ends)

/-- What the loop adds: the line of an open entry, and the 421 if the transfer has stalled. -/
theorem commandEnd_said (h : Said w₀ l log w) (hlog : log = none ∨ log = some .download ∨ log = some .upload) :
    wp (commandEnd T env) (fun _ w' => Said w₀ (l ++ openLine log) none w' ∧ w.sess.dataTimeout = false)
      (fun _ w' => Said w₀ (l ++ openLine log) none w' ∨ Said w₀ (l ++ openLine log ++ [.stalled]) none w') w := by
  have hexit : ∀ w1 : World, Said w₀ (l ++ openLine log) none w1 → w1.sess.dataTimeout = w.sess.dataTimeout →
      wp (do
        let w ← get
        when w.sess.dataTimeout (vsfCmdioWriteExit T env ftpDataTimeout "Data timeout. Reconnect. Sorry." 1))
        (fun _ w' => Said w₀ (l ++ openLine log) none w' ∧ w.sess.dataTimeout = false)
        (fun _ w' => Said w₀ (l ++ openLine log) none w' ∨ Said w₀ (l ++ openLine log ++ [.stalled]) none w')
        w1 := by
    intro w1 hw1 htimeout
    rw [wp_bind, wp_get, wp_when]
    split
    · unfold vsfCmdioWriteExit
      rw [wp_bind]
      refine wp_mono (writeControl_said hw1 dataTimeoutReply_note) ?_ ?_
      · exact fun _ _ hs => .inr hs
      · exact fun _ _ hs => .inl hs
    · rename_i hno
      exact ⟨hw1, by rw [← htimeout]; simpa using hno⟩
  unfold commandEnd
  rw [wp_bind, wp_get, wp_bind, wp_when, h.log]
  rcases hlog with rfl | hlog
  · rw [if_neg (not_not.mpr rfl)]
    exact hexit w (by simpa [openLine] using h) rfl
  · have hsome : ∃ what, log = some what ∧ (what = .download ∨ what = .upload) := by
      rcases hlog with rfl | rfl
      · exact ⟨_, rfl, .inl rfl⟩
      · exact ⟨_, rfl, .inr rfl⟩
    obtain ⟨what, rfl, hwhat⟩ := hsome
    rw [if_pos (Option.some_ne_none what)]
    have htimeout : wp (vsfLogDoLog false) (fun _ w' => w'.sess.dataTimeout = w.sess.dataTimeout) (fun _ _ => False) w :=
      rfl
    refine wp_mono (wp_and (vsfLogDoLog_said h hwhat false) htimeout) ?_ (fun _ _ hf => hf.1.elim)
    intro _ w1 hw1
    exact hexit w1 hw1.1 hw1.2

/-- A transfer that came to its end is logged in full. -/
theorem Outcome.dispatched {what : LogEntryType} (h : Outcome w₀ (some what) w)
    (hwhat : some what = some .download ∨ some what = some .upload) (hentry : entry) :
    ∃ l log, Dispatched entry w₀ l log w := by
  cases h with
  | complete l ho hs =>
    refine ⟨_, none, hs, .inl rfl, ?_, ?_⟩
    · simpa using ho.tally.2.2
    · intro ends hends
      rw [openLine, if_pos rfl, List.append_nil]
      exact ho.tallied_complete hentry ends hends
  | answered l ho hs =>
    refine ⟨_, _, hs, .inr hwhat, ?_, ?_⟩
    · simpa using ho.tally.2.2
    · intro ends hends
      rw [openLine, if_neg (Option.some_ne_none what)]
      exact ho.tallied_failed hentry [.done false] ends (.inr rfl) hends
  | stalled l ho hs ht =>
    refine ⟨_, _, hs, .inr hwhat, ho.tally.2.2, ?_⟩
    intro ends hends
    rw [openLine, if_neg (Option.some_ne_none what)]
    simpa using ho.tallied_failed hentry [] ends (.inl rfl) hends

/-- So is a command that was refused without an entry. -/
theorem Said.dispatched (h : Said w₀ [.done false] none w) (hentry : ¬ entry) :
    Dispatched entry w₀ [.done false] none w := by
  refine ⟨h, .inl rfl, by simp, ?_⟩
  intro ends hends
  refine ⟨fun he => absurd he hentry, fun _ => ?_⟩
  rcases hends with rfl | rfl <;> exact ⟨rfl, rfl⟩

theorem Dispatched.commandEnd_told (h : Dispatched entry w₀ l log w) :
    wp (commandEnd T env) (fun _ w' => RoundTold entry w₀ w')
      (fun _ w' => Extends w₀ w' ∧ (.stalled ∈ notes (w₀.since w') → RoundTold entry w₀ w')) w := by
  have hline : .stalled ∉ openLine log := by
    unfold openLine
    split <;> simp
  refine wp_mono (commandEnd_said h.said h.kind) ?_ ?_
  · intro _ w1 hw1
    have hword := hw1.1.since_eq
    refine ⟨hw1.1.grows, ?_⟩
    rw [hword]
    simpa using h.tallied [] (.inl rfl)
  · intro _ w1 hw1
    rcases hw1 with hw1 | hw1
    · refine ⟨hw1.grows, fun hmem => ?_⟩
      rw [hw1.since_eq, List.mem_append] at hmem
      exact (hmem.elim h.unstalled hline).elim
    · refine ⟨hw1.grows, fun _ => ⟨hw1.grows, ?_⟩⟩
      rw [hw1.since_eq]
      exact h.tallied [.stalled] (.inr rfl)

/-- A session that ends inside the command has not sent the 421. -/
theorem Cut.not_stalled (h : Cut w₀ w) : Extends w₀ w ∧ .stalled ∉ notes (w₀.since w) := by
  cases h with
  | opened l log ho hs =>
    refine ⟨hs.grows, ?_⟩
    rw [hs.since_eq]
    exact ho.tally.2.2
  | logged l ho hs =>
    refine ⟨hs.grows, ?_⟩
    rw [hs.since_eq]
    simpa using ho.tally.2.2
  | complete l ho hs =>
    refine ⟨hs.grows, ?_⟩
    rw [hs.since_eq]
    simpa using ho.tally.2.2
  | answered l log ho hs =>
    refine ⟨hs.grows, ?_⟩
    rw [hs.since_eq]
    simpa using ho.tally.2.2

/-! ### A round -/

/-- The session, but for what a command is read with. -/
def Session.inputs (s : Session) : Option Sockaddr × Bool × (Bool × Bool × Bool) × Bool × ℕ × Option LogEntryType :=
  (s.portSockaddr, s.dataUseSsl, s.grants, s.isAscii, s.restartPos, s.logType)

/-- What decides whether an entry is started. -/
structure SameInputs (w w' : World) : Prop where
  inputs : w'.sess.inputs = w.sess.inputs
  own : w'.own = w.own
  parent : w'.parent = w.parent

instance : Std.Refl SameInputs := ⟨fun _ => ⟨rfl, rfl, rfl⟩⟩

instance : IsTrans World SameInputs :=
  ⟨fun _ _ _ h h' => ⟨h'.inputs.trans h.inputs, h'.own.trans h.own, h'.parent.trans h.parent⟩⟩

theorem SameInputs.grants (h : SameInputs w w') : w'.sess.grants = w.sess.grants := congrArg (·.2.2.1) h.inputs

theorem SameInputs.downloads (h : SameInputs w w') {cmd : Bytes} :
    Downloads T w'.sess cmd ↔ Downloads T w.sess cmd := by
  have hread : w'.sess.readPermission = w.sess.readPermission := congrArg (·.2.1) h.grants
  unfold Downloads
  rw [hread]

theorem SameInputs.uploads (h : SameInputs w w') {cmd : Bytes} : Uploads T w'.sess cmd ↔ Uploads T w.sess cmd := by
  have hanon : w'.sess.isAnonymous = w.sess.isAnonymous := congrArg (·.1) h.grants
  have hwrite : w'.sess.writePermission = w.sess.writePermission := congrArg (·.2.2) h.grants
  unfold Uploads mayWrite
  rw [hanon, hwrite]

theorem SameInputs.dataReady (h : SameInputs w w') : DataReady T w' ↔ DataReady T w := by
  have hanon : w'.sess.isAnonymous = w.sess.isAnonymous := congrArg (·.1) h.grants
  have hssl : w'.sess.dataUseSsl = w.sess.dataUseSsl := congrArg (·.2.1) h.inputs
  have hport : w'.ctl.portSockaddr = w.ctl.portSockaddr := congrArg (·.1) h.inputs
  have hlisten : w'.ctl.listenFd T = w.ctl.listenFd T := by
    unfold Ctl.listenFd World.ctl
    rw [h.own, h.parent]
  have hex : w'.ctl.Exclusive T ↔ w.ctl.Exclusive T := by
    unfold Ctl.Exclusive
    rw [hport, hlisten]
  have hactive : w'.ctl.active T = w.ctl.active T := by
    unfold Ctl.active
    rw [hport, hlisten]
  have hplain : dataNeedsEncryption T w'.sess = dataNeedsEncryption T w.sess := by
    unfold dataNeedsEncryption
    rw [hssl, hanon]
  constructor
  · intro hr
    exact ⟨hex.mp hr.exclusive, hactive ▸ hr.active, hplain ▸ hr.plain⟩
  · intro hr
    exact ⟨hex.mpr hr.exclusive, hactive ▸ hr.active, hplain ▸ hr.plain⟩

theorem SameInputs.startsEntry (h : SameInputs w w') (cmd : Bytes) : StartsEntry T cmd w' ↔ StartsEntry T cmd w := by
  have hascii : w'.sess.isAscii = w.sess.isAscii := congrArg (·.2.2.2.1) h.inputs
  have hpos : w'.sess.restartPos = w.sess.restartPos := congrArg (·.2.2.2.2.1) h.inputs
  unfold StartsEntry
  rw [h.dataReady, h.downloads, h.uploads, hascii, hpos]

theorem Talk.sameInputs {P : Event → Prop} (h : Talk P w w') : SameInputs w w' :=
  ⟨h.sess Session.inputs fun _ => rfl, h.own, h.parent⟩

/-- What is heard of a client that has not been answered yet. -/
structure Heard (w w' : World) : Prop where
  hush : Hush w w'
  same : SameInputs w w'

instance : Std.Refl Heard := ⟨fun w => ⟨Std.Refl.refl w, Std.Refl.refl w⟩⟩

instance : IsTrans World Heard := ⟨fun _ _ _ h h' => ⟨h.hush.trans h'.hush, IsTrans.trans _ _ _ h.same h'.same⟩⟩

theorem heard_of_talk {α : Type} {x : M α} (h : Within (Talk fun e => e.note = none) Halt.Orderly x) :
    Within Heard Halt.Any x := by
  intro w
  refine wp_mono (h w) ?_ ?_
  · exact fun _ _ ht => ⟨ht.hush, ht.sameInputs⟩
  · exact fun _ _ ht => ⟨trivial, ht.2.hush, ht.2.sameInputs⟩

/-- Reading a command is silent, and decides nothing. -/
theorem readCommand_heard (line : CtrlLine) : Within Heard Halt.Any (readCommand T env line) := by
  refine within_bind ?_ fun _ => within_bind within_get fun w => within_bind ?_ fun _ => ?_
  · unfold vsfCmdioSetAlarm
    refine within_modify fun w => ⟨.of_events rfl ?_ ?_, ?_, rfl, rfl⟩
    · show (if 0 < T.idleSessionTimeout then _ else w.sess).logType = w.sess.logType
      split <;> rfl
    · show w.sess.dataTimeout = true → (if 0 < T.idleSessionTimeout then _ else w.sess).dataTimeout = true
      split <;> exact id
    · show Session.inputs (if 0 < T.idleSessionTimeout then _ else w.sess) = w.sess.inputs
      split <;> rfl
  · exact heard_of_talk (interrupted_talk (fun _ => SignalReply.note) _)
  · exact heard_of_talk (vsfCmdioGetCmdAndArg_talk line fun _ => SignalReply.note)

/-- What was told since a silent step was told since before it. -/
theorem Hush.said (hw : Hush w₀ w) (h : Said w l log w') : Said w₀ l log w' := by
  obtain ⟨es, hes, hnone⟩ := hw.events
  obtain ⟨es', hes', hl⟩ := h.events
  refine ⟨⟨es ++ es', ?_, ?_⟩, h.log⟩
  · rw [hes', hes, List.append_assoc]
  · rw [notes_append, hnone, hl]
    rfl

theorem Hush.dispatched (hw : Hush w₀ w) (h : Dispatched entry w l log w') : Dispatched entry w₀ l log w' :=
  ⟨hw.said h.said, h.kind, h.unstalled, h.tallied⟩

theorem Hush.cut (hw : Hush w₀ w) (h : Cut w w') : Cut w₀ w' := by
  cases h with
  | opened l log ho hs => exact .opened l log ho (hw.said hs)
  | logged l ho hs => exact .logged l ho (hw.said hs)
  | complete l ho hs => exact .complete l ho (hw.said hs)
  | answered l log ho hs => exact .answered l log ho (hw.said hs)

/-- A RETR that is let through, whichever way it ends. -/
theorem dispatch_downloads {cmd : Bytes} (hok : cmdOk T cmd = true) (hdown : Downloads T w.sess cmd)
    (hlog : w.sess.logType = none) (arg : Bytes) :
    wp (dispatch T env cmd arg) (fun _ w' => ∃ l log, Dispatched (StartsEntry T cmd w) w l log w')
      (fun _ w' => Cut w w') w := by
  have hretr : dispatchCmd T env w.sess cmd arg = handleRetr T env arg := by
    obtain ⟨hen, hread, hcmd⟩ := hdown
    rw [eq_of_isCmd hcmd]
    simp +decide [dispatchCmd, hen, hread]
  unfold dispatch
  rw [wp_bind, wp_get, if_neg (by simp [hok]), hretr]
  refine wp_mono (handleRetr_said arg w) ?_ (fun _ _ hc => hc)
  intro _ w' h
  rcases h with ⟨hstarts, hout⟩ | ⟨hnot, hsaid⟩
  · exact hout.dispatched (.inl rfl) ⟨hok, hstarts.1, .inl ⟨hdown, hstarts.2⟩⟩
  · rw [hlog] at hsaid
    refine ⟨_, _, hsaid.dispatched ?_⟩
    intro hentry
    rcases hentry with ⟨-, hready, ⟨-, hpos⟩ | ⟨-, hstor⟩⟩
    · exact hnot ⟨hready, hpos⟩
    · have hcmd := eq_of_isCmd hdown.2.2
      rw [hcmd] at hstor
      exact absurd hstor (by decide)

/-- So a STOR. -/
theorem dispatch_uploads {cmd : Bytes} (hok : cmdOk T cmd = true) (hup : Uploads T w.sess cmd)
    (hlog : w.sess.logType = none) (arg : Bytes) :
    wp (dispatch T env cmd arg) (fun _ w' => ∃ l log, Dispatched (StartsEntry T cmd w) w l log w')
      (fun _ w' => Cut w w') w := by
  have hstor : dispatchCmd T env w.sess cmd arg = handleUploadCommon T env arg := by
    obtain ⟨hmay, hcmd⟩ := hup
    rw [eq_of_isCmd hcmd]
    simp +decide [dispatchCmd, dispatchWrite, hmay]
  unfold dispatch
  rw [wp_bind, wp_get, if_neg (by simp [hok]), hstor]
  refine wp_mono (handleUploadCommon_said arg w) ?_ (fun _ _ hc => hc)
  intro _ w' h
  rcases h with ⟨hready, hout⟩ | ⟨hnot, hsaid⟩
  · exact hout.dispatched (.inr rfl) ⟨hok, hready, .inr hup⟩
  · rw [hlog] at hsaid
    exact ⟨_, _, hsaid.dispatched fun hentry => hnot hentry.2.1⟩

/-- A command that is not let through is refused with one reply. -/
theorem dispatch_denied {cmd : Bytes} (hdenied : cmdOk T cmd = false) (hlog : w.sess.logType = none) (arg : Bytes) :
    wp (dispatch T env cmd arg) (fun _ w' => ∃ l log, Dispatched (StartsEntry T cmd w) w l log w')
      (fun _ w' => Cut w w') w := by
  unfold dispatch
  rw [wp_bind, wp_get, if_pos (by simp [hdenied])]
  have hsaid : Said w [] none w := hlog ▸ said_self w
  refine wp_mono (refuses_said hsaid (note_reply _ (by decide) (by decide))) ?_ (fun _ _ hc => hc)
  intro _ w' hw'
  refine ⟨_, _, hw'.dispatched ?_⟩
  intro hentry
  rw [hentry.1] at hdenied
  cases hdenied

/-- A command that is no transfer logs none, and asks for no file. -/
theorem LoggedBy.other {s : Session} {cmd : Bytes} {e : Event} (h : LoggedBy T s cmd e) (hdown : ¬ Downloads T s cmd)
    (hup : ¬ Uploads T s cmd) : e.xferlog = none ∧ e.failedTry = false := by
  unfold LoggedBy at h
  split at h
  · exact absurd h hdown
  · exact absurd h hup
  · exact absurd h hdown
  · exact absurd h hup
  · rename_i hlogdown hlogup hget hput
    constructor
    · unfold Event.xferlog
      split
      · exact absurd rfl (hlogdown _ _ _)
      · exact absurd rfl (hlogup _ _ _)
      · rfl
    · unfold Event.failedTry
      split
      · exact absurd rfl (hput _ _ _)
      · exact absurd rfl (hget _ _ _ _)
      · rfl

/-- The session was not ended from inside a transfer: the loop ended it for one that has stalled, or
the command was another one. -/
def OutsideTransfer (cmd : Bytes) (w w' : World) : Prop :=
  dataTimeoutReply ∈ w.since w' ∨ cmd ≠ text "RETR" ∧ cmd ≠ text "STOR"

/-- **What one round leaves in xferlog**: for each try that failed a line marked as complete, and behind
them the one line of the transfer. -/
theorem postLoginRound_told (hlog : w.sess.logType = none) (line : CtrlLine) :
    wp (postLoginRound T env line) (fun _ w' => RoundTold (StartsEntry T (lineCommand env line).1 w) w w')
      (fun _ w' => OutsideTransfer (lineCommand env line).1 w w' →
        RoundTold (StartsEntry T (lineCommand env line).1 w) w w') w := by
  set cmd := (lineCommand env line).1 with hcmd
  by_cases htransfer : Downloads T w.sess cmd ∨ Uploads T w.sess cmd
  · have hdispatch : ∀ {w1 : World} (arg : Bytes), Heard w w1 →
        wp (dispatch T env cmd arg) (fun _ w' => ∃ l log, Dispatched (StartsEntry T cmd w1) w1 l log w')
          (fun _ w' => Cut w1 w') w1 := by
      intro w1 arg hw1
      have hlog1 : w1.sess.logType = none := hw1.hush.log.trans hlog
      cases hok : cmdOk T cmd with
      | false => exact dispatch_denied hok hlog1 arg
      | true =>
        rcases htransfer with hdown | hup
        · exact dispatch_downloads hok (hw1.same.downloads.mpr hdown) hlog1 arg
        · exact dispatch_uploads hok (hw1.same.uploads.mpr hup) hlog1 arg
    have hstalled : ∀ {w' : World}, .stalled ∉ notes (w.since w') → ¬ OutsideTransfer cmd w w' := by
      intro w' hno hout
      rcases hout with hmem | ⟨hretr, hstor⟩
      · exact hno ((mem_notes dataTimeoutReply_note (fun _ h => Event.of_note h) _).mpr hmem)
      · rcases htransfer with hdown | hup
        · exact hretr (eq_of_isCmd hdown.2.2)
        · exact hstor (eq_of_isCmd hup.2)
    unfold postLoginRound
    rw [wp_bind]
    refine wp_mono (wp_and (readCommand_heard line w) (readCommand_spec line w)) ?_ ?_
    · intro r w1 hr
      obtain ⟨hheard, -, hline⟩ := hr
      have hr1 : r.1 = cmd := by rw [hcmd, ← hline]
      show wp (do dispatch T env r.1 (cosConvGbk2Utf env r.2); commandEnd T env) _ _ w1
      rw [hr1, wp_bind]
      refine wp_mono (hdispatch _ hheard) ?_ ?_
      · intro _ w2 hw2
        obtain ⟨l, log, hw2⟩ := hw2
        rw [hheard.same.startsEntry] at hw2
        refine wp_mono (hheard.hush.dispatched hw2).commandEnd_told (fun _ _ h => h) ?_
        intro _ w3 hw3 hout
        by_contra hnot
        exact hstalled (fun hmem => hnot (hw3.2 hmem)) hout
      · intro _ w2 hw2 hout
        exact absurd hout (hstalled (hheard.hush.cut hw2).not_stalled.2)
    · intro _ w1 hr hout
      have hsaid := (said_self w).hush hr.1.2.hush
      refine absurd hout (hstalled ?_)
      rw [hsaid.since_eq]
      exact List.not_mem_nil
  · -- any other command leaves no line, and asks COS for no file
    obtain ⟨hdown, hup⟩ := not_or.mp htransfer
    have htold : ∀ {w' : World}, Acts T True (fun e => e.xferlog = none ∧ e.failedTry = false) w w' →
        RoundTold (StartsEntry T cmd w) w w' := by
      intro w' hacts
      obtain ⟨es, hes, hnone⟩ := hacts.added (loggable_of_none hlog)
      have hsince : w.since w' = es := by
        unfold World.since
        rw [hes, List.drop_left]
      refine ⟨⟨es, hes.symm⟩, ?_⟩
      rw [hsince, talliedWord_notes]
      refine ⟨fun hentry => ?_, fun _ => ⟨?_, ?_⟩⟩
      · exact absurd hentry.2.2 (not_or.mpr ⟨fun h => hdown h.1, hup⟩)
      · exact List.filterMap_eq_nil_iff.mpr fun e he => (hnone e he).1
      · exact List.countP_eq_zero.mpr fun e he => by simp [(hnone e he).2]
    refine wp_mono (postLoginRound_lawful (A := True) (P := fun e => e.xferlog = none ∧ e.failedTry = false) ?_
      (fun _ => trivial)) ?_ ?_
    · exact fun e he => he.2.other hdown hup
    · exact fun _ _ hacts => htold hacts
    · exact fun _ _ hacts _ => htold hacts

end

/-! ### Whole runs -/

/-- The log has a line for each try that failed beside those it should have, and without one it has
just these. -/
def RunTold (expected : List Bool) (es : List Event) : Prop :=
  (xferlog es).length = failedTries es + expected.length ∧ (failedTries es = 0 → xferlog es = expected)

section

variable {T : Tunables} {env : Env} {w w' : World} {es es' : List Event} {expected expected' : List Bool}

theorem RunTold.append (h : RunTold expected es) (h' : RunTold expected' es') :
    RunTold (expected ++ expected') (es ++ es') := by
  have hlines : xferlog (es ++ es') = xferlog es ++ xferlog es' := List.filterMap_append
  have htries : failedTries (es ++ es') = failedTries es + failedTries es' := List.countP_append
  constructor
  · rw [hlines, htries, List.length_append, List.length_append, h.1, h'.1]
    omega
  · intro hnone
    rw [htries] at hnone
    rw [hlines, h.2 (by omega), h'.2 (by omega)]

/-- The log is what it should be exactly if no try failed. -/
theorem RunTold.truthful_iff (h : RunTold expected es) : xferlog es = expected ↔ failedTries es = 0 := by
  constructor
  · intro heq
    have hlength := h.1
    rw [heq] at hlength
    omega
  · exact h.2

theorem RunTold.of_none (h : ∀ e ∈ es, e.xferlog = none ∧ e.failedTry = false) : RunTold [] es := by
  have hlines : xferlog es = [] := List.filterMap_eq_nil_iff.mpr fun e he => (h e he).1
  have htries : failedTries es = 0 := List.countP_eq_zero.mpr fun e he => by simp [(h e he).2]
  rw [RunTold, hlines, htries]
  exact ⟨rfl, fun _ => rfl⟩

theorem Extends.since_append {w₀ : World} (h : Extends w₀ w) (h' : Extends w w') :
    w₀.since w' = w₀.since w ++ w.since w' := by
  obtain ⟨es, hes⟩ := h
  obtain ⟨es', hes'⟩ := h'
  unfold World.since
  rw [← hes', ← hes, List.drop_left, List.drop_left, List.append_assoc, List.drop_left]

theorem RoundTold.runTold {cmd : Bytes} (h : RoundTold (StartsEntry T cmd w) w w') :
    RunTold (if StartsEntry T cmd w then [decide (transferComplete ∈ w.since w')] else []) (w.since w') := by
  obtain ⟨hentry, hother⟩ := talliedWord_notes.mp h.tallied
  by_cases hstarts : StartsEntry T cmd w
  · rw [if_pos hstarts, RunTold, hentry hstarts]
    constructor
    · simp
    · intro hnone
      rw [hnone]
      rfl
  · rw [if_neg hstarts, RunTold, (hother hstarts).1, (hother hstarts).2]
    exact ⟨rfl, fun _ => rfl⟩

/-- **A run of the loop**, and what is expected of one that goes on behind it. -/
theorem postLoginLoop_told (rounds : List (Env × CtrlLine)) : ∀ w, Boundary T w →
    wp (postLoginLoop T rounds)
      (fun _ w' => Boundary T w' ∧ Extends w w' ∧ RunTold (expectedLines T rounds w) (w.since w') ∧
        ∀ more, expectedLines T (rounds ++ more) w = expectedLines T rounds w ++ expectedLines T more w')
      (fun _ _ => True) w := by
  induction rounds with
  | nil =>
    intro w h
    have hnone : w.since w = [] := List.drop_length
    refine ⟨h, Std.Refl.refl w, ?_, fun _ => rfl⟩
    rw [hnone]
    exact .of_none fun _ he => absurd he List.not_mem_nil
  | cons round rounds ih =>
    intro w h
    obtain ⟨env, line⟩ := round
    unfold postLoginLoop
    rw [wp_bind]
    refine wp_mono (wp_and (postLoginRound_told h.logType line) (wp_and (postLoginRound_served h line)
      (wp_eq_after _ w))) ?_
      (fun _ _ _ => trivial)
    intro _ w1 hw1
    obtain ⟨htold, ⟨hboundary, -⟩, hafter⟩ := hw1
    refine wp_mono (ih w1 hboundary) ?_ (fun _ _ _ => trivial)
    intro _ w2 hw2
    obtain ⟨hboundary2, hext, hrun, hmore⟩ := hw2
    refine ⟨hboundary2, IsTrans.trans _ _ _ htold.grows hext, ?_, ?_⟩
    · rw [htold.grows.since_append hext, expectedLines, hafter]
      exact htold.runTold.append hrun
    · intro more
      rw [List.cons_append, expectedLines, expectedLines, hafter, hmore, List.append_assoc]

/-- Nothing is logged in front of the loop. -/
theorem postLoginStart_told (h : LoggedIn T w) :
    wp (postLoginStart T env)
      (fun _ w' => after (postLoginStart T env) w = w' ∧ Boundary T w' ∧ Extends w w' ∧ RunTold [] (w.since w'))
      (fun _ _ => True) w := by
  have hacts : Within (Acts T True fun e => e.everyday = true) Halt.Any (postLoginStart T env) :=
    postLoginStart_acts fun _ he => he
  refine wp_mono (wp_and (wp_eq_after _ w) (wp_and (postLoginStart_boundary h.boundary) (hacts w))) ?_
    (fun _ _ _ => trivial)
  intro _ w1 hw1
  obtain ⟨hafter, hboundary, hacts⟩ := hw1
  obtain ⟨es, hes, heveryday⟩ := hacts.added (loggable_of_none h.logType)
  have hsince : w.since w1 = es := by
    unfold World.since
    rw [hes, List.drop_left]
  refine ⟨hafter, hboundary, ⟨es, hes.symm⟩, ?_⟩
  rw [hsince]
  refine .of_none fun e he => ?_
  have hday := heveryday e he
  unfold Event.everyday at hday
  rw [Bool.and_eq_true, Option.isNone_iff_eq_none] at hday
  refine ⟨hday.2, ?_⟩
  unfold Event.failedTry
  split
  · exact absurd hday.1 (by simp [Event.ordinary])
  · exact absurd hday.1 (by simp [Event.ordinary])
  · rfl

end

/-- **The transfer log of a session is what it should be exactly if no try to get or put a file failed.**
It is what it should be if each RETR and STOR that starts an entry has left one line, in their order, which is
marked as complete if the client was sent `226 Transfer complete.`, and nothing else has left one. This holds
each time the next command is read, and where the session ends with the command, unless it ends from inside a
transfer. -/
theorem xferlog_truthful_iff (T : Tunables) (env : Env) (rounds : List (Env × CtrlLine)) {w : World}
    (h : LoggedIn T w) :
    wp (processPostLogin T env rounds)
      (fun _ w₁ =>
        (xferlog (w.since w₁) = expectedLines T rounds (after (postLoginStart T env) w) ↔
          failedTries (w.since w₁) = 0) ∧
        ∀ env' line, wp (postLoginRound T env' line) (fun _ _ => True)
          (fun _ w₂ => OutsideTransfer (lineCommand env' line).1 w₁ w₂ →
            (xferlog (w.since w₂) = expectedLines T (rounds ++ [(env', line)]) (after (postLoginStart T env) w) ↔
              failedTries (w.since w₂) = 0)) w₁)
      (fun _ _ => True) w := by
  unfold processPostLogin
  rw [wp_bind]
  refine wp_mono (postLoginStart_told h) ?_ (fun _ _ _ => trivial)
  intro _ w1 hw1
  obtain ⟨rfl, hboundary, hext, hstart⟩ := hw1
  refine wp_mono (postLoginLoop_told rounds _ hboundary) ?_ (fun _ _ _ => trivial)
  intro _ w2 hw2
  obtain ⟨hboundary2, hext2, hrun, hmore⟩ := hw2
  have hsession : RunTold (expectedLines T rounds (after (postLoginStart T env) w)) (w.since w2) := by
    rw [hext.since_append hext2]
    exact hstart.append hrun
  refine ⟨hsession.truthful_iff, fun env' line => ?_⟩
  refine wp_mono (wp_and (postLoginRound_told hboundary2.logType line) (wp_eq_after _ w2)) (fun _ _ _ => trivial) ?_
  intro _ w3 hw3 hout
  obtain ⟨htold, hafter⟩ := hw3
  have hlast := htold hout
  have hgrows : Extends w w2 := IsTrans.trans _ _ _ hext hext2
  have hlines : expectedLines T [(env', line)] w2 =
      if StartsEntry T (lineCommand env' line).1 w2 then [decide (transferComplete ∈ w2.since w3)] else [] := by
    rw [expectedLines, hafter]
    exact List.append_nil _
  rw [hgrows.since_append hlast.grows, hmore, hlines]
  exact (hsession.append hlast.runTold).truthful_iff

/-- A client that asks for a passive connection and stores two bytes as x, with what COS answers to
each try. -/
def putRounds (taken : ℕ → Bool) : List (Env × CtrlLine) :=
  [({}, .line (text "PASV")),
    ({ connect := { accept := .conn 7 (host10 1 50000) }, stream := text "hi", fileUpload := taken },
      .line (text "STOR x"))]

/-- COS takes the file at once. -/
theorem xferlog_truthful_first_try :
    LoggedIn habServer loginWorld ∧
    xferlog (loginWorld.since (after (processPostLogin habServer {} (putRounds fun _ => true)) loginWorld)) =
      expectedLines habServer (putRounds fun _ => true) (after (postLoginStart habServer {}) loginWorld) := by
  -- for rounds that nothing tries to run
  have hlines : ∀ (rounds : List (Env × CtrlLine)) (w : World), LoggedIn habServer w →
      (EStateM.run' (processPostLogin habServer {} rounds) w).isSome = true →
      failedTries (w.since (after (processPostLogin habServer {} rounds) w)) = 0 →
      xferlog (w.since (after (processPostLogin habServer {} rounds) w)) =
        expectedLines habServer rounds (after (postLoginStart habServer {}) w) := by
    intro rounds w hlogin hreturns hnone
    have htruthful := xferlog_truthful_iff habServer {} rounds hlogin
    unfold wp at htruthful
    unfold after at hnone ⊢
    cases hrun : processPostLogin habServer {} rounds w with
    | ok a w1 =>
      rw [hrun] at htruthful hnone
      exact htruthful.1.mpr hnone
    | error e w1 =>
      delta EStateM.run' EStateM.run at hreturns
      rw [hrun] at hreturns
      cases hreturns
  have hlogin : LoggedIn habServer loginWorld := ⟨rfl, rfl, rfl, rfl, rfl⟩
  exact ⟨hlogin, hlines _ _ hlogin (by decide +kernel) (by decide +kernel)⟩

/-- COS takes the file at the second try: two files seem to have been stored. If it takes it at none, two
lines tell of a file that was stored, and the client that it was not. -/
theorem xferlog_tells_of_tries :
    (xferlog (loginWorld.since
        (after (processPostLogin habServer {} (putRounds fun i => i ≠ 0)) loginWorld)) = [true, true] ∧
      expectedLines habServer (putRounds fun i => i ≠ 0) (after (postLoginStart habServer {}) loginWorld) = [true]) ∧
    (xferlog (loginWorld.since
        (after (processPostLogin habServer {} (putRounds fun _ => false)) loginWorld)) = [true, true, false] ∧
      expectedLines habServer (putRounds fun _ => false) (after (postLoginStart habServer {}) loginWorld) = [false]) := by
  decide +kernel

end CosFtp
