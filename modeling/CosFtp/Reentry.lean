/-
# The writers that the out-of-band handler comes back into

`ftp_write_str_common` and `vsf_log_common` keep their texts in function-static
strings, and `vsf_sysutil_check_pending_actions` runs `handle_sigurg` behind
each `write` and each `fcntl` they make. The handler answers and logs through
the same functions. So this module has what the other modules pass over: the
memory of the static strings, the pieces a text is written in, and what is
noticed behind each of them.

The strings are not kept apart. A handler that logs while a line waits for the
lock of its file takes the line's place, one that answers between two pieces of
a reply is sent in the middle of it and leaves its own text for the rest, and
one that answers between the log line of a reply and the reply itself leaves
its text for that reply. Where none of this is noticed, what the control
connection and the log files get is put together from the texts of the events,
each of them once and whole.

Key definitions: `writeLoop`, `vsfLogCommon`, `ftpWriteStrCommon`, `handleSigurg`,
`runCalls`, `Call.Unharmed`.
Key theorems: `writeLoop_spec`, `handleSigurg_pays`, `events_whole`.
-/
import CosFtp.Logging

namespace CosFtp
namespace Reentry

open Wp

/-! ### The static strings -/

inductive Slot where
  /-- `s_the_str` of `ftp_write_text_common` -/
  | theStr
  /-- `s_the_str` of `vsf_cmdio_write_raw` -/
  | rawStr
  | writeBufStr
  | textMangleStr
  /-- `s_log_str` of `vsf_log_common` -/
  | logStr
  /-- `s_log_str` of `vsf_cmdio_get_cmd_and_arg` -/
  | inputStr
  deriving DecidableEq

/-- A `mystr`: its memory and how much of it is text. `moves` counts how often
it had to be given other memory. -/
structure Mystr where
  mem : Bytes := []
  len : ℕ := 0
  moves : ℕ := 0

def Mystr.get (m : Mystr) : Bytes := m.mem.take m.len

/-- A text is put into the string; what stood behind it in the memory stays. -/
def Mystr.put (m : Mystr) (s : Bytes) : Mystr where
  mem := s ++ chNul :: m.mem.drop (s.length + 1)
  len := s.length
  moves := if s.length < m.mem.length then m.moves else m.moves + 1

@[simp] theorem Mystr.get_put (m : Mystr) (s : Bytes) : (m.put s).get = s := by
  simp [Mystr.get, Mystr.put]

@[simp] theorem Mystr.len_put (m : Mystr) (s : Bytes) : (m.put s).len = s.length := rfl

/-! ### The process -/

/-- Where the process writes to. -/
inductive Channel where
  | control
  | file (f : LogFile)
  deriving DecidableEq

/-- The part of the process that the writers use. `due` is not in the program:
it notes for each event what it has to put where. -/
structure Proc where
  str : Slot → Mystr := fun _ => {}
  out : Channel → Bytes := fun _ => []
  due : Channel → List Bytes := fun _ => []
  /-- `data_fd` is not -1 -/
  dataOpen : Bool := false
  aborReceived : Bool := false

abbrev Low := EStateM Halt Proc

def Proc.setStr (p : Proc) (slot : Slot) (s : Bytes) : Proc :=
  { p with str := Function.update p.str slot ((p.str slot).put s) }

def Proc.give (p : Proc) (c : Channel) (s : Bytes) : Proc :=
  { p with out := Function.update p.out c (p.out c ++ s) }

def Proc.owe (p : Proc) (c : Channel) (s : Bytes) : Proc :=
  { p with due := Function.update p.due c (p.due c ++ [s]) }

/-- A text a function is handed: one of its caller, or a static string. -/
inductive Ptr where
  | own (s : Bytes)
  | stored (slot : Slot)

def Ptr.read (p : Proc) : Ptr → Bytes
  | .own s => s
  | .stored slot => (p.str slot).get

/-! ### What the system answers -/

/-- A `write`: it takes some bytes, or is interrupted, or fails. -/
inductive WriteRes where
  | took (n : ℕ)
  | interrupted
  | failed
  deriving DecidableEq

/-- A `write` and the out-of-band command that is noticed behind it. -/
structure Attempt (ω : Type) where
  res : WriteRes
  urg : Option ω := none

/-- The tries of `lock_internal` that were interrupted, and the last one. -/
structure LockWait (ω : Type) where
  interrupts : List (Option ω) := []
  granted : Bool := true
  urg : Option ω := none

/-- What a call of `vsf_log_common` meets: the session and the clock, the locks and the writes. -/
structure LogTrace (ω : Type) where
  view : LogView
  stamp : LogFile → Stamp
  lock : LogFile → LockWait ω := fun _ => {}
  writes : LogFile → List (Attempt ω) := fun _ => []

structure ReplyTrace (ω : Type) where
  log : LogTrace ω
  writes : List (Attempt ω) := []

variable (T : Tunables) (freed : Slot → Bytes)

section Writers

variable {ω : Type} (check : ω → Low Unit)

/-- `vsf_sysutil_check_pending_actions` -/
def notice : Option ω → Low Unit
  | none => pure ()
  | some o => check o

def noticeAll : List (Option ω) → Low Unit
  | [] => pure ()
  | u :: us => do
    notice check u
    noticeAll us

/-- What a pointer into the memory of a string sees. Memory that was given back
holds what its next owner puts there. -/
def Proc.pointed (p : Proc) (slot : Slot) (moves num size : ℕ) : Bytes :=
  ((if (p.str slot).moves = moves then (p.str slot).mem else freed slot).drop num).take size

/-- `vsf_sysutil_write_loop` from the memory of a static string, `num` bytes
behind its start; whether all of the `size` bytes got written. Behind the tries
that are given, a `write` takes what is left. -/
def writeLoop (c : Channel) (slot : Slot) (moves : ℕ) : ℕ → ℕ → List (Attempt ω) → Low Bool
  | num, size, [] => do
    modify fun p => p.give c (p.pointed freed slot moves num size)
    pure true
  | num, size, a :: as =>
    match a.res with
    | .took n => do
      modify fun p => p.give c (p.pointed freed slot moves num (min n size))
      notice check a.urg
      if n = 0 then pure false
      else if size ≤ n then pure true
      else writeLoop c slot moves (num + n) (size - n) as
    | .interrupted => do
      notice check a.urg
      writeLoop c slot moves num size as
    | .failed => do
      notice check a.urg
      pure false

/-- `str_write_loop` -/
def strWriteLoop (c : Channel) (slot : Slot) (as : List (Attempt ω)) : Low Bool := do
  let p ← get
  writeLoop freed check c slot (p.str slot).moves 0 (p.str slot).len as

/-! ### The log -/

/-- `lock_internal` -/
def lockInternal (k : LockWait ω) : Low Bool := do
  noticeAll check k.interrupts
  notice check k.urg
  pure k.granted

def lockFileWrite (k : LockWait ω) : Low Bool :=
  if T.noLogLock then pure true else lockInternal check k

/-- `vsf_log_do_log_to_file` -/
def vsfLogDoLogToFile (f : LogFile) (lock : LockWait ω) (as : List (Attempt ω)) : Low Unit := do
  let locked ← lockFileWrite T check lock
  when (locked = true) do
    modify fun p => p.setStr .logStr ((p.str .logStr).get ++ [chLf])
    let _ ← strWriteLoop freed check (.file f) .logStr as
    pure ()

/-- The line of a call in xferlog. -/
def xferLine (k : LogTrace ω) (succeeded : Bool) : Bytes :=
  vsfLogDoLogWuftpdFormat (k.stamp .xferlog) k.view succeeded

/-- The line of a call in vsftpd.log. -/
def vsftpdLine (k : LogTrace ω) (what : LogEntryType) (succeeded : Bool) (msg : Bytes) : Bytes :=
  vsfLogDoLogVsftpdFormat T (k.stamp .vsftpdLog) ⟨what, succeeded, msg, k.view⟩

/-- What the event owes to the files. -/
def Proc.oweLog (p : Proc) (k : LogTrace ω) (what : LogEntryType) (succeeded : Bool) (msg : Bytes) :
    Proc :=
  let p := if xferlogOpen T ∧ vsfLogTypeIsTransfer what then
    p.owe (.file .xferlog) (xferLine k succeeded ++ [chLf]) else p
  if vsftpdLogOpen T then p.owe (.file .vsftpdLog) (vsftpdLine T k what succeeded msg ++ [chLf]) else p

/-- `vsf_log_common` -/
def vsfLogCommon (what : LogEntryType) (succeeded : Bool) (msg : Ptr) (k : LogTrace ω) : Low Unit := do
  modify fun p => p.oweLog T k what succeeded (msg.read p)
  when (xferlogOpen T ∧ vsfLogTypeIsTransfer what) do
    modify fun p => p.setStr .logStr (xferLine k succeeded)
    vsfLogDoLogToFile T freed check .xferlog (k.lock .xferlog) (k.writes .xferlog)
  when (vsftpdLogOpen T = true) do
    modify fun p => p.setStr .logStr (vsftpdLine T k what succeeded (msg.read p))
    vsfLogDoLogToFile T freed check .vsftpdLog (k.lock .vsftpdLog) (k.writes .vsftpdLog)
  -- the line for syslog is made in the same string
  when (T.syslogEnable = true)
    (modify fun p => p.setStr .logStr (vsftpdLine T k what succeeded (msg.read p)))

/-! ### The replies -/

/-- What the control connection makes of a text: telnet characters doubled, an LF written as NUL. -/
def mangle (s : Bytes) : Bytes := strReplaceChar (strReplaceText s [255] [255, 255]) chLf chNul

def replyHead (status : ℕ) (sep : UInt8) : Bytes := ulongText status ++ [sep]

/-- The bytes of a reply. -/
def replyBytes (status : ℕ) (sep : UInt8) (s : Bytes) : Bytes := replyHead status sep ++ mangle s ++ crlf

/-- `ftp_write_str`, on a connection without TLS. -/
def ftpWriteStr (slot : Slot) (msg : String) (as : List (Attempt ω)) : Low Unit := do
  let p ← get
  if (p.str slot).len = 0 then throw (.bug "zero str_len in str_netfd_write")
  else do
    let whole ← strWriteLoop freed check .control slot as
    if whole then pure () else throw (.die msg)

/-- `ftp_write_str_common`, once the event is noted. -/
def ftpWriteStrCommon (status : ℕ) (sep : UInt8) (str : Ptr) (k : ReplyTrace ω) : Low Unit := do
  when (T.logFtpProtocol = true) do
    modify fun p => p.setStr .writeBufStr (replyHead status sep ++ str.read p)
    vsfLogCommon T freed check .ftpOutput true (.stored .writeBufStr) k.log
  modify fun p => p.setStr .textMangleStr (str.read p)
  modify fun p => p.setStr .textMangleStr (mangle (p.str .textMangleStr).get)
  modify fun p => p.setStr .writeBufStr (replyHead status sep ++ (p.str .textMangleStr).get ++ crlf)
  ftpWriteStr freed check .writeBufStr "ftp_write" k.writes

/-- `ftp_write_text_common` -/
def ftpWriteTextCommon (status : ℕ) (sep : UInt8) (s : Bytes) (k : ReplyTrace ω) : Low Unit := do
  modify fun p => p.owe .control (replyBytes status sep s)
  modify fun p => p.setStr .theStr s
  ftpWriteStrCommon T freed check status sep (.stored .theStr) k

/-- `vsf_cmdio_write_str` and `vsf_cmdio_write_str_hyphen` -/
def vsfCmdioWriteStr (status : ℕ) (sep : UInt8) (s : Bytes) (k : ReplyTrace ω) : Low Unit := do
  modify fun p => p.owe .control (replyBytes status sep s)
  ftpWriteStrCommon T freed check status sep (.own s) k

/-- `vsf_cmdio_write_raw` -/
def vsfCmdioWriteRaw (s : Bytes) (k : ReplyTrace ω) : Low Unit := do
  modify fun p => p.owe .control s
  modify fun p => p.setStr .rawStr s
  when (T.logFtpProtocol = true) (vsfLogCommon T freed check .ftpOutput true (.stored .rawStr) k.log)
  ftpWriteStr freed check .rawStr "ftp_write_str" k.writes

/-- The end of `vsf_cmdio_get_cmd_and_arg`: the command is logged. -/
def logCommand (cmd arg : Bytes) (k : LogTrace ω) : Low Unit :=
  when (T.logFtpProtocol = true) do
    modify fun p => p.setStr .inputStr (inputText cmd arg)
    vsfLogCommon T freed check .ftpInput true (.stored .inputStr) k

end Writers

/-! ### The handler -/

/-- What the handler finds on the control connection, and what its own locks and writes meet. -/
structure Oob where
  idleTimeout : Bool := false
  line : CtrlLine
  input : LogTrace Empty
  reply : ReplyTrace Empty

/-- While the handler is running it is not run again. -/
def running : Empty → Low Unit := nofun

/-- The command of a line and its argument. -/
def commandOf (str : Bytes) : Bytes × Bytes := splitCommand (stripCr (strReplaceChar str chNul chLf))

/-- The line is an ABOR behind four telnet characters. -/
def isAbor (str : Bytes) : Bool :=
  strEqualText (if 4 ≤ (commandOf str).1.length then (commandOf str).1.drop 4 else []) "ABOR"

/-- `handle_sigurg` -/
def handleSigurg (o : Oob) : Low Unit := do
  let p ← get
  if !p.dataOpen then pure ()
  else match o.line with
    | .tooLong => do
      ftpWriteTextCommon T freed running ftpBadcmd chSpace (text "Input line too long.") o.reply
      throw (.exit ftpBadcmd 1)
    | .closed =>
      if o.idleTimeout then do
        ftpWriteTextCommon T freed running ftpIdleTimeout chSpace (text "Timeout.") o.reply
        throw (.exit ftpIdleTimeout 1)
      else throw .hangup
    | .line str =>
      if o.idleTimeout then do
        ftpWriteTextCommon T freed running ftpIdleTimeout chSpace (text "Timeout.") o.reply
        throw (.exit ftpIdleTimeout 1)
      else do
        logCommand T freed running (commandOf str).1 (commandOf str).2 o.input
        if isAbor str then modify fun p => { p with aborReceived := true }
        else ftpWriteTextCommon T freed running ftpBadcmd chSpace (text "Unknown command.") o.reply

/-- The handler, where it is installed. -/
def onUrg (o : Oob) : Low Unit := when (T.asyncAborEnable = true) (handleSigurg T freed o)

/-! ### The calls of the protocol process -/

/-- What the process does, as far as the writers are concerned. -/
inductive Call where
  | text (status : ℕ) (sep : UInt8) (s : Bytes) (k : ReplyTrace Oob)
  | str (status : ℕ) (sep : UInt8) (s : Bytes) (k : ReplyTrace Oob)
  | raw (s : Bytes) (k : ReplyTrace Oob)
  /-- `vsf_log_do_log`, or `vsf_log_line` of a text of the caller -/
  | log (what : LogEntryType) (succeeded : Bool) (msg : Bytes) (k : LogTrace Oob)
  /-- a command has been read -/
  | command (cmd arg : Bytes) (k : LogTrace Oob)
  /-- a read or a write that is not of the writers -/
  | other (urg : Option Oob)
  /-- the data connection is opened or closed -/
  | dataFd (opened : Bool)

def runCall : Call → Low Unit
  | .text status sep s k => ftpWriteTextCommon T freed (onUrg T freed) status sep s k
  | .str status sep s k => vsfCmdioWriteStr T freed (onUrg T freed) status sep s k
  | .raw s k => vsfCmdioWriteRaw T freed (onUrg T freed) s k
  | .log what succeeded msg k => vsfLogCommon T freed (onUrg T freed) what succeeded (.own msg) k
  | .command cmd arg k => logCommand T freed (onUrg T freed) cmd arg k
  | .other urg => notice (onUrg T freed) urg
  | .dataFd opened => modify fun p => { p with dataOpen := opened }

def runCalls : List Call → Low Unit
  | [] => pure ()
  | call :: calls => do
    runCall T freed call
    runCalls calls

/-! ### What is owed and what is paid -/

/-- From `p` to `p'` each channel got whole texts: what was owed before, and
what has come to be owed since. -/
def Pays (debt : Channel → List Bytes) (p p' : Proc) : Prop :=
  ∀ c, ∃ xs ys : List Bytes,
    p'.due c = p.due c ++ ys ∧ p'.out c = p.out c ++ xs.flatten ∧ xs.Perm (debt c ++ ys)

/-- Nothing is owed. -/
def free : Channel → List Bytes := fun _ => []

def single (c : Channel) (s : Bytes) : Channel → List Bytes := fun e => if e = c then [s] else []

theorem Pays.refl (p : Proc) : Pays free p p := fun _ => ⟨[], [], by simp, by simp, by simp [free]⟩

theorem Pays.trans {d d' : Channel → List Bytes} {p p' p'' : Proc} (h : Pays d p p')
    (h' : Pays d' p' p'') : Pays (fun c => d c ++ d' c) p p'' := by
  intro c
  obtain ⟨xs, ys, hdue, hout, hperm⟩ := h c
  obtain ⟨xs', ys', hdue', hout', hperm'⟩ := h' c
  refine ⟨xs ++ xs', ys ++ ys', ?_, ?_, ?_⟩
  · rw [hdue', hdue, List.append_assoc]
  · rw [hout', hout, List.append_assoc, List.flatten_append]
  · have hswap : (ys ++ d' c).Perm (d' c ++ ys) := List.perm_append_comm
    have hmid : (d c ++ (ys ++ d' c)).Perm (d c ++ (d' c ++ ys)) := hswap.append_left _
    refine (hperm.append hperm').trans ?_
    simpa [List.append_assoc] using hmid.append_right ys'

theorem Pays.of_eq {d d' : Channel → List Bytes} {p p' : Proc} (h : Pays d p p') (hd : ∀ c, d c = d' c) :
    Pays d' p p' := by
  have hd : d = d' := funext hd
  exact hd ▸ h

theorem Pays.free_trans {d : Channel → List Bytes} {p p' p'' : Proc} (h : Pays free p p')
    (h' : Pays d p' p'') : Pays d p p'' := (h.trans h').of_eq fun _ => rfl

theorem Pays.trans_free {d : Channel → List Bytes} {p p' p'' : Proc} (h : Pays d p p')
    (h' : Pays free p' p'') : Pays d p p'' := (h.trans h').of_eq fun c => by simp [free]

/-- A debt that was taken and paid. -/
theorem Pays.of_owed {d : Channel → List Bytes} {p p₀ p' : Proc} (h : Pays d p₀ p')
    (hdue : ∀ c, p₀.due c = p.due c ++ d c) (hout : ∀ c, p₀.out c = p.out c) : Pays free p p' := by
  intro c
  obtain ⟨xs, ys, hdue', hout', hperm⟩ := h c
  refine ⟨xs, d c ++ ys, ?_, ?_, ?_⟩
  · rw [hdue', hdue, List.append_assoc]
  · rw [hout', hout]
  · simpa [free] using hperm

/-- Steps that change neither what is out nor what is due. -/
theorem Pays.of_same {p p' : Proc} (hout : p'.out = p.out) (hdue : p'.due = p.due) : Pays free p p' := by
  intro c
  exact ⟨[], [], by simp [hdue], by simp [hout], by simp [free]⟩

/-- The strings and channels that are left as they are. -/
structure Leaves (S : Slot → Prop) (K : Channel → Prop) (p p' : Proc) : Prop where
  str : ∀ s, S s → p'.str s = p.str s
  out : ∀ c, K c → p'.out c = p.out c
  due : ∀ c, K c → p'.due c = p.due c
  dataOpen : p'.dataOpen = p.dataOpen

theorem Leaves.refl (S : Slot → Prop) (K : Channel → Prop) (p : Proc) : Leaves S K p p :=
  ⟨fun _ _ => rfl, fun _ _ => rfl, fun _ _ => rfl, rfl⟩

theorem Leaves.trans {S : Slot → Prop} {K : Channel → Prop} {p p' p'' : Proc} (h : Leaves S K p p')
    (h' : Leaves S K p' p'') : Leaves S K p p'' where
  str s hs := (h'.str s hs).trans (h.str s hs)
  out c hc := (h'.out c hc).trans (h.out c hc)
  due c hc := (h'.due c hc).trans (h.due c hc)
  dataOpen := h'.dataOpen.trans h.dataOpen

theorem Leaves.mono {S S' : Slot → Prop} {K K' : Channel → Prop} {p p' : Proc} (h : Leaves S' K' p p')
    (hS : ∀ s, S s → S' s) (hK : ∀ c, K c → K' c) : Leaves S K p p' where
  str s hs := h.str s (hS s hs)
  out c hc := h.out c (hK c hc)
  due c hc := h.due c (hK c hc)
  dataOpen := h.dataOpen

@[simp] theorem setStr_self (p : Proc) (slot : Slot) (s : Bytes) :
    (p.setStr slot s).str slot = (p.str slot).put s := by simp [Proc.setStr]

theorem setStr_leaves {S : Slot → Prop} (K : Channel → Prop) (p : Proc) {slot : Slot} (s : Bytes)
    (hslot : ¬ S slot) : Leaves S K p (p.setStr slot s) := by
  refine ⟨?_, fun _ _ => rfl, fun _ _ => rfl, rfl⟩
  intro s' hs'
  have hne : s' ≠ slot := fun h => hslot (h ▸ hs')
  simp [Proc.setStr, Function.update_of_ne hne]

/-! ### One text, in pieces -/

/-- From `p` to `p'` the channel `c` got `s`, and then each channel whole texts
that have come to be owed. -/
def Wrote (c : Channel) (s : Bytes) (p p' : Proc) : Prop :=
  ∀ e, ∃ xs ys : List Bytes, p'.due e = p.due e ++ ys ∧
    p'.out e = p.out e ++ ((if e = c then s else []) ++ xs.flatten) ∧ xs.Perm ys

theorem Wrote.pays {c : Channel} {s : Bytes} {p p' : Proc} (h : Wrote c s p p') :
    Pays (single c s) p p' := by
  intro e
  obtain ⟨xs, ys, hdue, hout, hperm⟩ := h e
  by_cases he : e = c
  · refine ⟨s :: xs, ys, hdue, ?_, ?_⟩
    · simpa [he] using hout
    · simpa [single, he] using hperm.cons s
  · refine ⟨xs, ys, hdue, ?_, ?_⟩
    · simpa [he] using hout
    · simpa [single, he] using hperm

theorem give_out (p : Proc) (c : Channel) (s : Bytes) (e : Channel) :
    (p.give c s).out e = p.out e ++ if e = c then s else [] := by
  by_cases he : e = c
  · subst he
    simp [Proc.give]
  · simp [Proc.give, he]

@[simp] theorem give_due (p : Proc) (c : Channel) (s : Bytes) : (p.give c s).due = p.due := rfl

@[simp] theorem give_str (p : Proc) (c : Channel) (s : Bytes) : (p.give c s).str = p.str := rfl

theorem give_leaves (S : Slot → Prop) {K : Channel → Prop} (p : Proc) {c : Channel} (s : Bytes)
    (hc : ¬ K c) : Leaves S K p (p.give c s) := by
  refine ⟨fun _ _ => rfl, ?_, fun _ _ => rfl, rfl⟩
  intro e he
  have hne : e ≠ c := fun h => hc (h ▸ he)
  simp [give_out, hne]

/-- The last piece, and what comes behind it. -/
theorem Wrote.of_give {c : Channel} {s : Bytes} {p p' : Proc} (h : Pays free (p.give c s) p') :
    Wrote c s p p' := by
  intro e
  obtain ⟨xs, ys, hdue, hout, hperm⟩ := h e
  refine ⟨xs, ys, hdue, ?_, ?_⟩
  · rw [hout, give_out, List.append_assoc]
  · simpa [free] using hperm

/-- A piece, something that leaves the channel alone, and the rest. -/
theorem Wrote.piece {c : Channel} {s s' : Bytes} {p p₁ p' : Proc} (h : Pays free (p.give c s) p₁)
    (hout : p₁.out c = (p.give c s).out c) (hdue : p₁.due c = p.due c) (h' : Wrote c s' p₁ p') :
    Wrote c (s ++ s') p p' := by
  intro e
  obtain ⟨xs', ys', hdue', hout', hperm'⟩ := h' e
  by_cases he : e = c
  · subst he
    refine ⟨xs', ys', ?_, ?_, hperm'⟩
    · rw [hdue', hdue]
    · rw [hout', hout, give_out]
      simp
  · obtain ⟨xs, ys, hdue, hout, hperm⟩ := h e
    refine ⟨xs ++ xs', ys ++ ys', ?_, ?_, ?_⟩
    · rw [hdue', hdue, give_due, List.append_assoc]
    · rw [hout', hout, give_out]
      simp [he]
    · exact (show xs.Perm ys by simpa [free] using hperm).append hperm'

section Spec

variable {ω : Type} {check : ω → Low Unit}

/-- What the signals do that are noticed while the memory of `slot` is written
to a channel in `C`: those with more to write leave both alone and come back.
All of them leave `S` and `K`, and the last may end the process if `X`. -/
structure Checks (check : ω → Low Unit) (data : Bool) (slot : Slot) (C : Channel → Prop)
    (S : Slot → Prop) (K : Channel → Prop) (X : Prop) (mid fin : Option ω → Prop) : Prop where
  mid : ∀ u, mid u → ∀ p, p.dataOpen = data →
    wp (notice check u)
      (fun _ p' => Pays free p p' ∧ Leaves (fun s => s = slot ∨ S s) (fun c => C c ∨ K c) p p')
      (fun _ _ => False) p
  fin : ∀ u, fin u → ∀ p, p.dataOpen = data →
    wp (notice check u) (fun _ p' => Pays free p p' ∧ Leaves S K p p') (fun _ p' => X ∧ Pays free p p') p

/-- The writes of a text of `size` bytes: none fails, `fin` is noticed behind
the one that takes the last byte and `mid` behind the others. -/
def WritesWhole (mid fin : Option ω → Prop) : ℕ → List (Attempt ω) → Prop
  | _, [] => True
  | size, a :: as =>
    match a.res with
    | .took n => 0 < n ∧ if size ≤ n then fin a.urg else mid a.urg ∧ WritesWhole mid fin (size - n) as
    | .interrupted => mid a.urg ∧ WritesWhole mid fin size as
    | .failed => False

variable {data : Bool} {slot : Slot} {C : Channel → Prop} {S : Slot → Prop} {K : Channel → Prop}
  {X : Prop} {mid fin : Option ω → Prop}

theorem pointed_same (p : Proc) (slot : Slot) (num size : ℕ) :
    p.pointed freed slot (p.str slot).moves num size = ((p.str slot).mem.drop num).take size := by
  simp [Proc.pointed]

/-- **A loop that is not disturbed writes its text.** By induction on the tries:
the memory and the channel are at each `write` as the one before has left them. -/
theorem writeLoop_spec (hchk : Checks check data slot C S K X mid fin) {c : Channel} (hc : C c)
    (hK : ¬ K c) (as : List (Attempt ω)) :
    ∀ (num size : ℕ) (p : Proc), p.dataOpen = data → WritesWhole mid fin size as →
      wp (writeLoop freed check c slot (p.str slot).moves num size as)
        (fun whole p' => whole = true ∧ Wrote c (((p.str slot).mem.drop num).take size) p p' ∧
          Leaves S K p p')
        (fun _ p' => X ∧ Wrote c (((p.str slot).mem.drop num).take size) p p') p := by
  induction as with
  | nil =>
    intro num size p _ _
    simp only [writeLoop, wp_bind, wp_modify, wp_pure, pointed_same]
    exact ⟨trivial, .of_give (.refl _), give_leaves S p _ hK⟩
  | cons a as ih =>
    intro num size p hdata hwhole
    unfold writeLoop
    unfold WritesWhole at hwhole
    cases hres : a.res with
    | failed =>
      rw [hres] at hwhole
      exact hwhole.elim
    | interrupted =>
      rw [hres] at hwhole
      obtain ⟨hmid, hrest⟩ := hwhole
      simp only [wp_bind]
      refine wp_mono (hchk.mid _ hmid p hdata) ?_ fun _ _ h => h.elim
      rintro _ p₁ ⟨hpays, hleaves⟩
      have hstr := hleaves.str slot (.inl rfl)
      have hnext := ih num size p₁ (hleaves.dataOpen.trans hdata) hrest
      rw [hstr] at hnext
      have hnone : p.give c [] = p := by
        simp [Proc.give]
      have hcat : ∀ p', Wrote c (((p.str slot).mem.drop num).take size) p₁ p' →
          Wrote c (((p.str slot).mem.drop num).take size) p p' := by
        intro p' hwrote
        have hpiece := Wrote.piece (c := c) (s := []) (p := p) (by rwa [hnone])
          (by rw [hnone]; exact hleaves.out c (.inl hc)) (hleaves.due c (.inl hc)) hwrote
        simpa using hpiece
      refine wp_mono hnext ?_ ?_
      · rintro whole p' ⟨hw, hwrote, hl⟩
        exact ⟨hw, hcat p' hwrote, (hleaves.mono (fun _ => .inr) fun _ => .inr).trans hl⟩
      · rintro e p' ⟨hX, hwrote⟩
        exact ⟨hX, hcat p' hwrote⟩
    | took n =>
      rw [hres] at hwhole
      obtain ⟨hn, hwhole⟩ := hwhole
      simp only [wp_bind, wp_modify, pointed_same]
      by_cases hsize : size ≤ n
      · rw [if_pos hsize] at hwhole
        rw [Nat.min_eq_right hsize]
        refine wp_mono (hchk.fin _ hwhole _ hdata) ?_ ?_
        · rintro _ p' ⟨hpays, hleaves⟩
          rw [if_neg (by omega), if_pos hsize, wp_pure]
          exact ⟨rfl, .of_give hpays, (give_leaves S p _ hK).trans hleaves⟩
        · rintro e p' ⟨hX, hpays⟩
          exact ⟨hX, .of_give hpays⟩
      · rw [if_neg hsize] at hwhole
        obtain ⟨hmid, hrest⟩ := hwhole
        rw [Nat.min_eq_left (by omega)]
        refine wp_mono (hchk.mid _ hmid _ hdata) ?_ fun _ _ h => h.elim
        rintro _ p₁ ⟨hpays, hleaves⟩
        rw [if_neg (by omega), if_neg hsize]
        have hstr := hleaves.str slot (.inl rfl)
        rw [give_str] at hstr
        have hnext := ih (num + n) (size - n) p₁ (hleaves.dataOpen.trans hdata) hrest
        rw [hstr] at hnext
        have htext : ((p.str slot).mem.drop num).take n ++ ((p.str slot).mem.drop (num + n)).take (size - n) =
            ((p.str slot).mem.drop num).take size := by
          rw [← List.drop_drop, ← List.take_add, Nat.add_sub_cancel' (by omega)]
        have hcat : ∀ p', Wrote c (((p.str slot).mem.drop (num + n)).take (size - n)) p₁ p' →
            Wrote c (((p.str slot).mem.drop num).take size) p p' := by
          intro p' hwrote
          rw [← htext]
          exact .piece hpays (hleaves.out c (.inl hc)) (hleaves.due c (.inl hc)) hwrote
        refine wp_mono hnext ?_ ?_
        · rintro whole p' ⟨hw, hwrote, hl⟩
          refine ⟨hw, hcat p' hwrote, ?_⟩
          exact (give_leaves S p _ hK).trans ((hleaves.mono (fun _ => .inr) fun _ => .inr).trans hl)
        · rintro e p' ⟨hX, hwrote⟩
          exact ⟨hX, hcat p' hwrote⟩

theorem strWriteLoop_spec (hchk : Checks check data slot C S K X mid fin) {c : Channel} (hc : C c)
    (hK : ¬ K c) (as : List (Attempt ω)) {p : Proc} (hdata : p.dataOpen = data)
    (hwhole : WritesWhole mid fin (p.str slot).len as) :
    wp (strWriteLoop freed check c slot as)
      (fun whole p' => whole = true ∧ Wrote c (p.str slot).get p p' ∧ Leaves S K p p')
      (fun _ p' => X ∧ Wrote c (p.str slot).get p p') p := by
  simp only [strWriteLoop, wp_bind, wp_get]
  exact writeLoop_spec freed hchk hc hK as 0 _ p hdata hwhole

/-! ### A line of the log -/

theorem noticeAll_spec (hchk : Checks check data slot C S K X mid fin) {us : List (Option ω)}
    (hus : ∀ u ∈ us, mid u) {p : Proc} (hdata : p.dataOpen = data) :
    wp (noticeAll check us)
      (fun _ p' => Pays free p p' ∧ Leaves (fun s => s = slot ∨ S s) (fun c => C c ∨ K c) p p')
      (fun _ _ => False) p := by
  induction us generalizing p with
  | nil => exact ⟨.refl p, .refl _ _ p⟩
  | cons u us ih =>
    simp only [noticeAll, wp_bind]
    refine wp_mono (hchk.mid u (hus u (by simp)) p hdata) ?_ fun _ _ h => h
    rintro _ p₁ ⟨hpays, hleaves⟩
    have hrest := ih (fun u hu => hus u (by simp [hu])) (hleaves.dataOpen.trans hdata)
    refine wp_mono hrest ?_ fun _ _ h => h
    rintro _ p' ⟨hpays', hleaves'⟩
    exact ⟨hpays.free_trans hpays', hleaves.trans hleaves'⟩

/-- The lock is given, and what is noticed meanwhile is `mid`. -/
def LockGranted (mid : Option ω → Prop) (k : LockWait ω) : Prop :=
  T.noLogLock = false → (∀ u ∈ k.interrupts, mid u) ∧ mid k.urg ∧ k.granted = true

theorem lockFileWrite_spec (hchk : Checks check data slot C S K X mid fin) {k : LockWait ω}
    (hk : LockGranted T mid k) {p : Proc} (hdata : p.dataOpen = data) :
    wp (lockFileWrite T check k)
      (fun locked p' => locked = true ∧ Pays free p p' ∧
        Leaves (fun s => s = slot ∨ S s) (fun c => C c ∨ K c) p p')
      (fun _ _ => False) p := by
  unfold lockFileWrite
  cases hlock : T.noLogLock with
  | true => exact ⟨rfl, .refl p, .refl _ _ p⟩
  | false =>
    obtain ⟨hints, hlast, hgranted⟩ := hk hlock
    simp only [Bool.false_eq_true, if_false, lockInternal, wp_bind, wp_pure]
    refine wp_mono (noticeAll_spec hchk hints hdata) ?_ fun _ _ h => h
    rintro _ p₁ ⟨hpays, hleaves⟩
    refine wp_mono (hchk.mid _ hlast p₁ (hleaves.dataOpen.trans hdata)) ?_ fun _ _ h => h
    rintro _ p' ⟨hpays', hleaves'⟩
    exact ⟨hgranted, hpays.free_trans hpays', hleaves.trans hleaves'⟩

/-- The lock and the writes of a line with `size` bytes. -/
def LineWhole (mid fin : Option ω → Prop) (size : ℕ) (lock : LockWait ω) (as : List (Attempt ω)) : Prop :=
  LockGranted T mid lock ∧ WritesWhole mid fin (size + 1) as

variable (hchk : Checks check data .logStr C S K X mid fin)
include hchk

/-- A line that is not disturbed goes to its file. -/
theorem vsfLogDoLogToFile_spec {f : LogFile} (hC : C (.file f)) (hK : ¬ K (.file f)) (hS : ¬ S .logStr)
    {line : Bytes} {lock : LockWait ω} {as : List (Attempt ω)}
    (hline : LineWhole T mid fin line.length lock as) {p : Proc} (hdata : p.dataOpen = data) :
    wp (vsfLogDoLogToFile T freed check f lock as)
      (fun _ p' => Pays (single (.file f) (line ++ [chLf])) (p.setStr .logStr line) p' ∧ Leaves S K p p')
      (fun _ p' => X ∧ Pays (single (.file f) (line ++ [chLf])) (p.setStr .logStr line) p')
      (p.setStr .logStr line) := by
  obtain ⟨hlock, hwrites⟩ := hline
  simp only [vsfLogDoLogToFile, wp_bind]
  refine wp_mono (lockFileWrite_spec T hchk hlock (p := p.setStr .logStr line) hdata) ?_
    fun _ _ h => h.elim
  rintro locked p₁ ⟨rfl, hpays, hleaves⟩
  have hstr : (p₁.str .logStr).get = line := by
    rw [hleaves.str .logStr (.inl rfl), setStr_self, Mystr.get_put]
  simp only [wp_when, if_true, wp_bind, wp_modify, wp_pure, hstr]
  have hdata₁ : p₁.dataOpen = data := hleaves.dataOpen.trans hdata
  have hrest := strWriteLoop_spec freed hchk hC hK as
    (p := p₁.setStr .logStr (line ++ [chLf])) hdata₁ (by simpa using hwrites)
  rw [setStr_self, Mystr.get_put] at hrest
  have hsame : Pays free p₁ (p₁.setStr .logStr (line ++ [chLf])) := .of_same rfl rfl
  have hpay : ∀ p', Wrote (.file f) (line ++ [chLf]) (p₁.setStr .logStr (line ++ [chLf])) p' →
      Pays (single (.file f) (line ++ [chLf])) (p.setStr .logStr line) p' := fun p' hwrote =>
    hpays.free_trans (hsame.free_trans hwrote.pays)
  refine wp_mono hrest ?_ ?_
  · rintro _ p' ⟨-, hwrote, hl⟩
    refine ⟨hpay p' hwrote, (setStr_leaves K p line hS).trans ?_⟩
    exact (hleaves.mono (fun _ => .inr) fun _ => .inr).trans ((setStr_leaves K p₁ _ hS).trans hl)
  · rintro _ p' ⟨hX, hwrote⟩
    exact ⟨hX, hpay p' hwrote⟩

/-- A line that may be wanted or not. -/
theorem logStage_spec {f : LogFile} (hC : C (.file f)) (hK : ¬ K (.file f)) (hS : ¬ S .logStr)
    {wanted : Prop} [Decidable wanted] {line : Proc → Bytes} {lock : LockWait ω} {as : List (Attempt ω)}
    {p : Proc} (hline : wanted → LineWhole T mid fin (line p).length lock as)
    (hdata : p.dataOpen = data) :
    wp (when wanted do
        modify fun p => p.setStr .logStr (line p)
        vsfLogDoLogToFile T freed check f lock as)
      (fun _ p' => (¬ wanted → p' = p) ∧
        Pays (if wanted then single (.file f) (line p ++ [chLf]) else free) p p' ∧ Leaves S K p p')
      (fun _ p' => wanted ∧ X ∧ Pays (if wanted then single (.file f) (line p ++ [chLf]) else free) p p')
      p := by
  by_cases hwanted : wanted
  · simp only [wp_when, hwanted, if_true, wp_bind, wp_modify]
    have hsame : Pays free p (p.setStr .logStr (line p)) := .of_same rfl rfl
    refine wp_mono (vsfLogDoLogToFile_spec T freed hchk hC hK hS (hline hwanted) hdata) ?_ ?_
    · rintro _ p' ⟨hpays, hleaves⟩
      exact ⟨fun h => (h trivial).elim, hsame.free_trans hpays, hleaves⟩
    · rintro _ p' ⟨hX, hpays⟩
      exact ⟨trivial, hX, hsame.free_trans hpays⟩
  · simp only [wp_when, hwanted, if_false]
    exact ⟨fun _ => trivial, .refl p, .refl _ _ p⟩

omit hchk

/-- The locks and writes of a call of the log. -/
def LogWhole (mid fin₁ fin : Option ω → Prop) (what : LogEntryType) (succeeded : Bool) (msg : Bytes)
    (k : LogTrace ω) : Prop :=
  (xferlogOpen T ∧ vsfLogTypeIsTransfer what →
    LineWhole T mid fin₁ (xferLine k succeeded).length (k.lock .xferlog) (k.writes .xferlog)) ∧
  (vsftpdLogOpen T = true →
    LineWhole T mid fin (vsftpdLine T k what succeeded msg).length (k.lock .vsftpdLog)
      (k.writes .vsftpdLog))

theorem owe_due (p : Proc) (d : Channel) (s : Bytes) (c : Channel) :
    (p.owe d s).due c = p.due c ++ single d s c := by
  by_cases hd : c = d
  · subst hd
    simp [Proc.owe, single]
  · simp [Proc.owe, single, hd]

theorem oweLog_due (p : Proc) (k : LogTrace ω) (what : LogEntryType) (succeeded : Bool) (msg : Bytes)
    (c : Channel) :
    (p.oweLog T k what succeeded msg).due c = p.due c ++
      ((if xferlogOpen T ∧ vsfLogTypeIsTransfer what then
          single (.file .xferlog) (xferLine k succeeded ++ [chLf]) else free) c ++
        (if vsftpdLogOpen T = true then
          single (.file .vsftpdLog) (vsftpdLine T k what succeeded msg ++ [chLf]) else free) c) := by
  unfold Proc.oweLog
  split_ifs <;> simp [owe_due, free]

theorem oweLog_out (p : Proc) (k : LogTrace ω) (what : LogEntryType) (succeeded : Bool) (msg : Bytes) :
    (p.oweLog T k what succeeded msg).out = p.out := by
  unfold Proc.oweLog
  split_ifs <;> rfl

theorem oweLog_str (p : Proc) (k : LogTrace ω) (what : LogEntryType) (succeeded : Bool) (msg : Bytes) :
    (p.oweLog T k what succeeded msg).str = p.str := by
  unfold Proc.oweLog
  split_ifs <;> rfl

theorem oweLog_dataOpen (p : Proc) (k : LogTrace ω) (what : LogEntryType) (succeeded : Bool)
    (msg : Bytes) : (p.oweLog T k what succeeded msg).dataOpen = p.dataOpen := by
  unfold Proc.oweLog
  split_ifs <;> rfl

/-- The message of a call of the log is a text of the caller, or the call is not about a transfer. -/
def MsgOf (what : LogEntryType) (msg : Ptr) : Prop :=
  (∃ s, msg = .own s) ∨ vsfLogTypeIsTransfer what = false

/-- **A call of the log that is not disturbed pays what it owes.** The process
may end behind its last line only. -/
theorem vsfLogCommon_spec {X₁ : Prop} {fin₁ : Option ω → Prop}
    (hchk₁ : Checks check data .logStr (· ≠ .control) S K X₁ mid fin₁)
    (hchk : Checks check data .logStr (· ≠ .control) S K X mid fin)
    (hX₁ : X₁ → X ∧ vsftpdLogOpen T = false) (hK : ∀ c, K c → c = .control) (hS : ¬ S .logStr)
    {what : LogEntryType} {succeeded : Bool} {msg : Ptr} (hmsg : MsgOf what msg) {k : LogTrace ω}
    {p : Proc} (hwhole : LogWhole T mid fin₁ fin what succeeded (msg.read p) k)
    (hdata : p.dataOpen = data) :
    wp (vsfLogCommon T freed check what succeeded msg k)
      (fun _ p' => Pays free p p' ∧ Leaves S K p p') (fun _ p' => X ∧ Pays free p p') p := by
  have hKf : ∀ f, ¬ K (.file f) := fun f hf => by cases hK _ hf
  simp only [vsfLogCommon, wp_bind, wp_modify]
  -- what the event owes
  set p₀ := p.oweLog T k what succeeded (msg.read p) with hp₀
  have hleaves₀ : Leaves S K p p₀ := by
    refine ⟨fun s _ => by rw [hp₀, oweLog_str], fun c _ => by rw [hp₀, oweLog_out], ?_, ?_⟩
    · intro c hc
      cases hK c hc
      rw [hp₀, oweLog_due]
      split_ifs <;> simp [single, free]
    · rw [hp₀, oweLog_dataOpen]
  have hread : msg.read p₀ = msg.read p := by
    cases msg <;> simp [Ptr.read, hp₀, oweLog_str]
  -- the line of xferlog
  refine wp_mono (logStage_spec T freed hchk₁ (f := .xferlog) (by simp) (hKf _) hS (p := p₀)
    hwhole.1 (hleaves₀.dataOpen.trans hdata)) ?_ ?_
  swap
  · rintro e p' ⟨hwanted, hX, hpays⟩
    obtain ⟨hX, hopen⟩ := hX₁ hX
    refine ⟨hX, hpays.of_owed (fun c => ?_) fun c => by rw [hp₀, oweLog_out]⟩
    rw [hp₀, oweLog_due, hopen]
    simp [free]
  rintro _ p₁ ⟨hskip, hpays₁, hleaves₁⟩
  have hread₁ : msg.read p₁ = msg.read p := by
    rcases hmsg with ⟨m, rfl⟩ | hwhat
    · rfl
    · rw [hskip (by simp [hwhat]), hread]
  -- the line of vsftpd.log
  have hline := hwhole.2
  rw [← hread₁] at hline
  refine wp_mono (logStage_spec T freed hchk (f := .vsftpdLog) (by simp) (hKf _) hS (p := p₁) hline
    (hleaves₁.dataOpen.trans (hleaves₀.dataOpen.trans hdata))) ?_ ?_
  · rintro _ p₂ ⟨-, hpays₂, hleaves₂⟩
    rw [hread₁] at hpays₂
    have hpays : Pays free p p₂ := by
      refine (hpays₁.trans hpays₂).of_owed (fun c => ?_) fun c => by rw [hp₀, oweLog_out]
      rw [hp₀, oweLog_due]
    have hleaves := hleaves₀.trans (hleaves₁.trans hleaves₂)
    simp only [wp_when, wp_modify]
    split
    · exact ⟨hpays.trans_free (.of_same rfl rfl), hleaves.trans (setStr_leaves K p₂ _ hS)⟩
    · exact ⟨hpays, hleaves⟩
  · rintro e p' ⟨-, hX, hpays₂⟩
    rw [hread₁] at hpays₂
    refine ⟨hX, (hpays₁.trans hpays₂).of_owed (fun c => ?_) fun c => by rw [hp₀, oweLog_out]⟩
    rw [hp₀, oweLog_due]

/-! ### A reply -/

/-- The commands and replies are logged, and not to nowhere. -/
def LogsProtocol : Prop := T.logFtpProtocol = true ∧ (vsftpdLogOpen T = true ∨ T.syslogEnable = true)

instance : Decidable (LogsProtocol T) := inferInstanceAs (Decidable (_ ∧ _))

/-- A line of the protocol, if it is wanted. -/
theorem protocolLog_spec (hchk : LogsProtocol T → Checks check data .logStr (· ≠ .control) S K X mid fin)
    (hK : LogsProtocol T → ∀ c, K c → c = .control) (hS : LogsProtocol T → ¬ S .logStr)
    (hT : T.logFtpProtocol = true)
    {what : LogEntryType} (hwhat : vsfLogTypeIsTransfer what = false) {msg : Ptr} {k : LogTrace ω} {p : Proc}
    (hwhole : LogsProtocol T → LogWhole T mid fin fin what true (msg.read p) k)
    (hdata : p.dataOpen = data) :
    wp (vsfLogCommon T freed check what true msg k)
      (fun _ p' => Pays free p p' ∧ Leaves S K p p') (fun _ p' => X ∧ Pays free p p') p := by
  by_cases hlogs : LogsProtocol T
  · have hno : Checks check data .logStr (· ≠ .control) S K False mid fun _ => False :=
      ⟨(hchk hlogs).mid, fun _ h => h.elim⟩
    refine vsfLogCommon_spec T freed hno (hchk hlogs) (fun h => h.elim) (hK hlogs) (hS hlogs)
      (.inr hwhat) ⟨?_, (hwhole hlogs).2⟩ hdata
    simp [hwhat]
  · -- neither file nor syslog: the call does nothing
    have hopen : vsftpdLogOpen T = false ∧ T.syslogEnable = false := by
      simpa [LogsProtocol, hT] using hlogs
    simp only [vsfLogCommon, wp_bind, wp_modify, wp_when, hwhat, hopen, Proc.oweLog, Bool.false_eq_true,
      and_false, if_false]
    exact ⟨.refl p, .refl S K p⟩

/-- The locks and writes of a reply. -/
def ReplyWhole (midl finl midc finc : Option ω → Prop) (status : ℕ) (sep : UInt8) (s : Bytes)
    (k : ReplyTrace ω) : Prop :=
  (LogsProtocol T → LogWhole T midl finl finl .ftpOutput true (replyHead status sep ++ s) k.log) ∧
  WritesWhole midc finc (replyBytes status sep s).length k.writes

/-- A text that is not disturbed goes to the client. -/
theorem ftpWriteStr_spec (hchk : Checks check data slot (· = .control) S K X mid fin) (hK : ¬ K .control)
    (err : String) (as : List (Attempt ω)) {p : Proc} (hlen : (p.str slot).len ≠ 0)
    (hdata : p.dataOpen = data) (hwhole : WritesWhole mid fin (p.str slot).len as) :
    wp (ftpWriteStr freed check slot err as)
      (fun _ p' => Wrote .control (p.str slot).get p p' ∧ Leaves S K p p')
      (fun _ p' => X ∧ Wrote .control (p.str slot).get p p') p := by
  simp only [ftpWriteStr, wp_bind, wp_get, if_neg hlen]
  refine wp_mono (strWriteLoop_spec freed hchk rfl hK as hdata hwhole) ?_ fun _ _ h => h
  rintro whole p' ⟨rfl, hwrote, hleaves⟩
  exact ⟨hwrote, hleaves⟩

theorem replyBytes_length_pos (status : ℕ) (sep : UInt8) (s : Bytes) :
    (replyBytes status sep s).length ≠ 0 := by
  simp [replyBytes, crlf]

/-- **A reply that is not disturbed is sent with its own text.** -/
theorem ftpWriteStrCommon_spec {midl finl : Option ω → Prop} {str : Ptr}
    (hstr : (∃ s, str = .own s) ∨ str = .stored .theStr)
    (hlog : LogsProtocol T → Checks check data .logStr (· ≠ .control) (fun s => str = .stored s ∨ S s) K
      False midl finl)
    (hchk : Checks check data .writeBufStr (· = .control) S K X mid fin) (hK : ¬ K .control)
    (hKlog : LogsProtocol T → ∀ c, ¬ K c) (hSlog : LogsProtocol T → ¬ S .logStr)
    (hS : ¬ S .writeBufStr ∧ ¬ S .textMangleStr) {status : ℕ} {sep : UInt8} {k : ReplyTrace ω} {p : Proc}
    (hwhole : ReplyWhole T midl finl mid fin status sep (str.read p) k) (hdata : p.dataOpen = data) :
    wp (ftpWriteStrCommon T freed check status sep str k)
      (fun _ p' => Pays (single .control (replyBytes status sep (str.read p))) p p' ∧ Leaves S K p p')
      (fun _ p' => X ∧ Pays (single .control (replyBytes status sep (str.read p))) p p') p := by
  have hne : ∀ slot, slot ≠ .theStr → str ≠ .stored slot := by
    intro slot hslot
    rcases hstr with ⟨s, rfl⟩ | rfl
    · simp
    · simpa using hslot.symm
  obtain ⟨hlogwhole, hwrites⟩ := hwhole
  -- the line of the log leaves the text of the reply alone
  have hfirst : wp (when (T.logFtpProtocol = true) do
      modify fun p => p.setStr .writeBufStr (replyHead status sep ++ str.read p)
      vsfLogCommon T freed check .ftpOutput true (.stored .writeBufStr) k.log)
      (fun _ p' => Pays free p p' ∧ Leaves (fun s => str = .stored s ∨ S s) K p p')
      (fun _ _ => False) p := by
    by_cases hT : T.logFtpProtocol = true
    · simp only [wp_when, if_pos hT, wp_bind, wp_modify]
      have hset : Leaves (fun s => str = .stored s ∨ S s) K p
          (p.setStr .writeBufStr (replyHead status sep ++ str.read p)) := by
        refine setStr_leaves K p _ ?_
        rintro (h | h)
        · exact hne _ (by simp) h
        · exact hS.1 h
      refine wp_mono (protocolLog_spec T freed hlog (fun h c hc => (hKlog h c hc).elim) ?_ hT rfl ?_
        hdata) ?_ ?_
      · rintro hlogs (h | h)
        · exact hne _ (by simp) h
        · exact hSlog hlogs h
      · simpa [Ptr.read] using hlogwhole
      · rintro _ p' ⟨hpays, hleaves⟩
        exact ⟨(Pays.of_same rfl rfl).free_trans hpays, hset.trans hleaves⟩
      · exact fun _ _ h => h.1
    · simp only [wp_when, if_neg hT]
      exact ⟨.refl p, .refl _ _ p⟩
  simp only [ftpWriteStrCommon, wp_bind, wp_modify]
  refine wp_mono hfirst ?_ fun _ _ h => h.elim
  rintro _ p₁ ⟨hpays₁, hleaves₁⟩
  have hread : str.read p₁ = str.read p := by
    rcases hstr with ⟨s, rfl⟩ | rfl
    · rfl
    · simp [Ptr.read, hleaves₁.str .theStr (.inl rfl)]
  simp only [setStr_self, Mystr.get_put, hread]
  set p₂ := ((p₁.setStr .textMangleStr (str.read p)).setStr .textMangleStr (mangle (str.read p))).setStr
    .writeBufStr (replyHead status sep ++ mangle (str.read p) ++ crlf) with hp₂
  have hget : (p₂.str .writeBufStr).get = replyBytes status sep (str.read p) := by
    rw [hp₂, setStr_self, Mystr.get_put, replyBytes]
  have hlen : (p₂.str .writeBufStr).len = (replyBytes status sep (str.read p)).length := by
    rw [hp₂, setStr_self, Mystr.len_put, replyBytes]
  have hleaves₂ : Leaves S K p₁ p₂ :=
    (setStr_leaves K p₁ _ hS.2).trans ((setStr_leaves K _ _ hS.2).trans (setStr_leaves K _ _ hS.1))
  have hpays₂ : Pays free p p₂ := hpays₁.trans_free (.of_same rfl rfl)
  have hleaves : Leaves S K p p₂ := (hleaves₁.mono (fun _ => .inr) fun _ h => h).trans hleaves₂
  have hrest := ftpWriteStr_spec freed hchk hK "ftp_write" k.writes (p := p₂)
    (by rw [hlen]; exact replyBytes_length_pos _ _ _) (hleaves.dataOpen.trans hdata)
    (by rw [hlen]; exact hwrites)
  rw [hget] at hrest
  refine wp_mono hrest ?_ ?_
  · rintro _ p' ⟨hwrote, hl⟩
    exact ⟨hpays₂.free_trans hwrote.pays, hleaves.trans hl⟩
  · rintro _ p' ⟨hX, hwrote⟩
    exact ⟨hX, hpays₂.free_trans hwrote.pays⟩

theorem owe_leaves (S : Slot → Prop) {K : Channel → Prop} (p : Proc) {c : Channel} (s : Bytes)
    (hc : ¬ K c) : Leaves S K p (p.owe c s) := by
  refine ⟨fun _ _ => rfl, fun _ _ => rfl, ?_, rfl⟩
  intro e he
  have hne : e ≠ c := fun h => hc (h ▸ he)
  simp [owe_due, single, hne]

/-- A reply that was owed is paid. -/
theorem Pays.of_owe {c : Channel} {s : Bytes} {p p₁ p' : Proc} (hsame : Pays free (p.owe c s) p₁)
    (h : Pays (single c s) p₁ p') : Pays free p p' :=
  (hsame.free_trans h).of_owed (owe_due p c s) fun _ => rfl

/-- A reply whose text is put into `s_the_str`. -/
theorem ftpWriteTextCommon_spec {midl finl : Option ω → Prop}
    (hlog : LogsProtocol T → Checks check data .logStr (· ≠ .control) (fun s => .theStr = s ∨ S s) K
      False midl finl)
    (hchk : Checks check data .writeBufStr (· = .control) S K X mid fin) (hK : ¬ K .control)
    (hKlog : LogsProtocol T → ∀ c, ¬ K c) (hSlog : LogsProtocol T → ¬ S .logStr)
    (hS : ¬ S .theStr ∧ ¬ S .writeBufStr ∧ ¬ S .textMangleStr) {status : ℕ} {sep : UInt8} {s : Bytes}
    {k : ReplyTrace ω} (hwhole : ReplyWhole T midl finl mid fin status sep s k) {p : Proc}
    (hdata : p.dataOpen = data) :
    wp (ftpWriteTextCommon T freed check status sep s k)
      (fun _ p' => Pays free p p' ∧ Leaves S K p p') (fun _ p' => X ∧ Pays free p p') p := by
  simp only [ftpWriteTextCommon, wp_bind, wp_modify]
  set p₁ := (p.owe .control (replyBytes status sep s)).setStr .theStr s with hp₁
  have hread : (Ptr.stored .theStr).read p₁ = s := by
    rw [hp₁, Ptr.read, setStr_self, Mystr.get_put]
  have hlog' : LogsProtocol T → Checks check data .logStr (· ≠ .control)
      (fun s => Ptr.stored .theStr = .stored s ∨ S s) K False midl finl := by
    simpa using hlog
  have hrest := ftpWriteStrCommon_spec T freed (.inr rfl) hlog' hchk hK hKlog hSlog hS.2 (p := p₁)
    (by rw [hread]; exact hwhole) hdata
  rw [hread] at hrest
  have hsame : Pays free (p.owe .control (replyBytes status sep s)) p₁ := .of_same rfl rfl
  refine wp_mono hrest ?_ ?_
  · rintro _ p' ⟨hpays, hleaves⟩
    exact ⟨.of_owe hsame hpays, (owe_leaves S p _ hK).trans ((setStr_leaves K _ s hS.1).trans hleaves)⟩
  · rintro _ p' ⟨hX, hpays⟩
    exact ⟨hX, .of_owe hsame hpays⟩

theorem vsfCmdioWriteStr_spec {midl finl : Option ω → Prop}
    (hlog : LogsProtocol T → Checks check data .logStr (· ≠ .control) S K False midl finl)
    (hchk : Checks check data .writeBufStr (· = .control) S K X mid fin) (hK : ¬ K .control)
    (hKlog : LogsProtocol T → ∀ c, ¬ K c) (hSlog : LogsProtocol T → ¬ S .logStr)
    (hS : ¬ S .writeBufStr ∧ ¬ S .textMangleStr) {status : ℕ} {sep : UInt8} {s : Bytes}
    {k : ReplyTrace ω} (hwhole : ReplyWhole T midl finl mid fin status sep s k) {p : Proc}
    (hdata : p.dataOpen = data) :
    wp (vsfCmdioWriteStr T freed check status sep s k)
      (fun _ p' => Pays free p p' ∧ Leaves S K p p') (fun _ p' => X ∧ Pays free p p') p := by
  simp only [vsfCmdioWriteStr, wp_bind, wp_modify]
  have hlog' : LogsProtocol T → Checks check data .logStr (· ≠ .control)
      (fun s' => Ptr.own s = .stored s' ∨ S s') K False midl finl := by
    simpa using hlog
  refine wp_mono (ftpWriteStrCommon_spec T freed (.inl ⟨s, rfl⟩) hlog' hchk hK hKlog hSlog hS
    (p := p.owe .control (replyBytes status sep s)) hwhole hdata) ?_ ?_
  · rintro _ p' ⟨hpays, hleaves⟩
    exact ⟨.of_owe (.refl _) hpays, (owe_leaves S p _ hK).trans hleaves⟩
  · rintro _ p' ⟨hX, hpays⟩
    exact ⟨hX, .of_owe (.refl _) hpays⟩

/-- A raw text; what is noticed behind its line of the log must leave `s_the_str` alone. -/
theorem vsfCmdioWriteRaw_spec {midl finl : Option ω → Prop}
    (hlog : LogsProtocol T → Checks check data .logStr (· ≠ .control) (· = .rawStr) K False midl finl)
    (hchk : Checks check data .rawStr (· = .control) S K X mid fin) (hK : ¬ K .control)
    (hKlog : LogsProtocol T → ∀ c, ¬ K c) {s : Bytes} (hs : s ≠ []) {k : ReplyTrace ω}
    (hwhole : LogsProtocol T → LogWhole T midl finl finl .ftpOutput true s k.log)
    (hwrites : WritesWhole mid fin s.length k.writes) {p : Proc} (hdata : p.dataOpen = data) :
    wp (vsfCmdioWriteRaw T freed check s k)
      (fun _ p' => Pays free p p' ∧ p'.dataOpen = data) (fun _ p' => X ∧ Pays free p p') p := by
  simp only [vsfCmdioWriteRaw, wp_bind, wp_modify]
  set p₁ := (p.owe .control s).setStr .rawStr s with hp₁
  have hget : (p₁.str .rawStr).get = s ∧ (p₁.str .rawStr).len = s.length := by
    simp [hp₁]
  have hsame : Pays free (p.owe .control s) p₁ := .of_same rfl rfl
  have hfirst : wp (when (T.logFtpProtocol = true)
      (vsfLogCommon T freed check .ftpOutput true (.stored .rawStr) k.log))
      (fun _ p' => Pays free p₁ p' ∧ Leaves (· = .rawStr) K p₁ p') (fun _ _ => False) p₁ := by
    by_cases hT : T.logFtpProtocol = true
    · simp only [wp_when, if_pos hT]
      refine wp_mono (protocolLog_spec T freed hlog (fun h c hc => (hKlog h c hc).elim)
        (fun _ => by simp) hT rfl ?_ hdata)
        (fun _ _ h => h) fun _ _ h => h.1
      intro hlogs
      rw [Ptr.read, hget.1]
      exact hwhole hlogs
    · simp only [wp_when, if_neg hT]
      exact ⟨.refl p₁, .refl _ _ p₁⟩
  refine wp_mono hfirst ?_ fun _ _ h => h.elim
  rintro _ p₂ ⟨hpays₂, hleaves₂⟩
  have hdata₂ : p₂.dataOpen = data := hleaves₂.dataOpen.trans hdata
  have hstr : p₂.str .rawStr = p₁.str .rawStr := hleaves₂.str .rawStr rfl
  have hlen : s.length ≠ 0 := by simpa using hs
  have hrest := ftpWriteStr_spec freed hchk hK "ftp_write_str" k.writes (p := p₂)
    (by rw [hstr, hget.2]; exact hlen) hdata₂ (by rw [hstr, hget.2]; exact hwrites)
  rw [hstr, hget.1] at hrest
  refine wp_mono hrest ?_ ?_
  · rintro _ p' ⟨hwrote, hl⟩
    exact ⟨.of_owe (hsame.free_trans hpays₂) hwrote.pays, hl.dataOpen.trans hdata₂⟩
  · rintro _ p' ⟨hX, hwrote⟩
    exact ⟨hX, .of_owe (hsame.free_trans hpays₂) hwrote.pays⟩

/-- The line of a command. -/
theorem logCommand_spec (hchk : LogsProtocol T → Checks check data .logStr (· ≠ .control) S K X mid fin)
    (hK : LogsProtocol T → ∀ c, K c → c = .control) (hS : LogsProtocol T → ¬ S .logStr)
    (hin : ¬ S .inputStr)
    {cmd arg : Bytes} {k : LogTrace ω}
    (hwhole : LogsProtocol T → LogWhole T mid fin fin .ftpInput true (inputText cmd arg) k) {p : Proc}
    (hdata : p.dataOpen = data) :
    wp (logCommand T freed check cmd arg k)
      (fun _ p' => Pays free p p' ∧ Leaves S K p p') (fun _ p' => X ∧ Pays free p p') p := by
  unfold logCommand
  by_cases hT : T.logFtpProtocol = true
  · simp only [wp_when, if_pos hT, wp_bind, wp_modify]
    have hsame : Pays free p (p.setStr .inputStr (inputText cmd arg)) := .of_same rfl rfl
    refine wp_mono (protocolLog_spec T freed hchk hK hS hT rfl (by simpa [Ptr.read] using hwhole) hdata)
      ?_ ?_
    · rintro _ p' ⟨hpays, hleaves⟩
      exact ⟨hsame.free_trans hpays, (setStr_leaves K p _ hin).trans hleaves⟩
    · rintro _ p' ⟨hX, hpays⟩
      exact ⟨hX, hsame.free_trans hpays⟩
  · simp only [wp_when, if_neg hT]
    exact ⟨.refl p, .refl S K p⟩

end Spec

/-! ### What the handler does -/

/-- Nothing is noticed while the handler is running. -/
theorem running_checks (data : Bool) (slot : Slot) (C : Channel → Prop) (S : Slot → Prop)
    (K : Channel → Prop) :
    Checks running data slot C S K False (fun _ => True) fun _ => True where
  mid u _ p _ := by
    cases u with
    | none => exact ⟨.refl p, .refl _ _ p⟩
    | some o => exact o.elim
  fin u _ p _ := by
    cases u with
    | none => exact ⟨.refl p, .refl _ _ p⟩
    | some o => exact o.elim

/-- The reply of the handler gets out. -/
def ReplyDelivered (status : ℕ) (msg : String) (k : ReplyTrace Empty) : Prop :=
  ReplyWhole T (fun _ => True) (fun _ => True) (fun _ => True) (fun _ => True) status chSpace (text msg) k

/-- None of the locks and writes of the handler fails. -/
def Oob.Delivered (o : Oob) : Prop :=
  match o.line with
  | .tooLong => ReplyDelivered T ftpBadcmd "Input line too long." o.reply
  | .closed => o.idleTimeout = true → ReplyDelivered T ftpIdleTimeout "Timeout." o.reply
  | .line str =>
    if o.idleTimeout then ReplyDelivered T ftpIdleTimeout "Timeout." o.reply
    else (LogsProtocol T → LogWhole T (fun _ => True) (fun _ => True) (fun _ => True) .ftpInput true
        (inputText (commandOf str).1 (commandOf str).2) o.input) ∧
      (isAbor str = false → ReplyDelivered T ftpBadcmd "Unknown command." o.reply)

/-- The handler comes back. -/
def Oob.Returns (o : Oob) : Prop := o.idleTimeout = false ∧ ∃ str, o.line = .line str

/-- The handler finds an ABOR, and answers nothing. -/
def Oob.Aborts (o : Oob) : Prop := o.idleTimeout = false ∧ ∃ str, o.line = .line str ∧ isAbor str = true

/-- A reply of the handler leaves alone the raw text, and where the protocol is
not logged the log too. -/
theorem reply_running {status : ℕ} {msg : String} {k : ReplyTrace Empty} (hk : ReplyDelivered T status msg k)
    (p : Proc) :
    wp (ftpWriteTextCommon T freed running status chSpace (text msg) k)
      (fun _ p' => Pays free p p' ∧
        Leaves (fun s => s = .rawStr ∨ s = .logStr ∧ ¬ LogsProtocol T) (fun c => c ≠ .control ∧ ¬ LogsProtocol T)
          p p')
      (fun _ _ => False) p := by
  refine wp_mono (ftpWriteTextCommon_spec T freed (fun _ => running_checks _ _ _ _ _)
    (running_checks p.dataOpen _ _ _ _) (by simp) (fun h c hc => hc.2 h) (fun h hS => ?_) (by simp) hk rfl)
    (fun _ _ h => h) fun _ _ h => h.1
  rcases hS with h' | h'
  · cases h'
  · exact h'.2 h

/-- The line the handler logs leaves alone all but the strings of the log. -/
theorem command_running {cmd arg : Bytes} {k : LogTrace Empty}
    (hk : LogsProtocol T → LogWhole T (fun _ => True) (fun _ => True) (fun _ => True) .ftpInput true
      (inputText cmd arg) k) (p : Proc) :
    wp (logCommand T freed running cmd arg k)
      (fun _ p' => Pays free p p' ∧
        Leaves (fun s => s ≠ .inputStr ∧ (s = .logStr → ¬ LogsProtocol T))
          (fun c => c = .control ∨ ¬ LogsProtocol T) p p')
      (fun _ _ => False) p := by
  refine wp_mono (logCommand_spec T freed (fun _ => running_checks p.dataOpen _ _ _ _) (fun h c hc => ?_)
    (fun h hS => hS.2 rfl h) (by simp) hk rfl) (fun _ _ h => h) fun _ _ h => h.1
  exact hc.resolve_right fun hno => hno h

/-- **The handler pays what it owes**, however it ends. -/
theorem handleSigurg_pays {o : Oob} (p : Proc) (ho : p.dataOpen = true → o.Delivered T) :
    wp (handleSigurg T freed o)
      (fun _ p' => Pays free p p' ∧ Leaves (· = .rawStr) (fun _ => False) p p')
      (fun _ p' => ¬ o.Returns ∧ Pays free p p') p := by
  simp only [handleSigurg, wp_bind, wp_get]
  cases hdata : p.dataOpen with
  | false => exact ⟨.refl p, .refl _ _ p⟩
  | true =>
    have ho := ho hdata
    have hreply : ∀ {status msg e} , ReplyDelivered T status msg o.reply → ¬ o.Returns →
        wp (do ftpWriteTextCommon T freed running status chSpace (text msg) o.reply; throw e : Low Unit)
          (fun _ p' => Pays free p p' ∧ Leaves (· = .rawStr) (fun _ => False) p p')
          (fun _ p' => ¬ o.Returns ∧ Pays free p p') p := by
      intro status msg e hk hno
      rw [wp_bind]
      refine wp_mono (reply_running T freed hk p) ?_ fun _ _ h => h.elim
      rintro _ p' ⟨hpays, -⟩
      exact ⟨hno, hpays⟩
    unfold Oob.Delivered at ho
    simp only [Bool.not_true, Bool.false_eq_true, if_false]
    cases hline : o.line with
    | tooLong =>
      rw [hline] at ho
      exact hreply ho (by simp [Oob.Returns, hline])
    | closed =>
      rw [hline] at ho
      cases hidle : o.idleTimeout with
      | true => exact hreply (ho hidle) (by simp [Oob.Returns, hline])
      | false => exact ⟨by simp [Oob.Returns, hline], .refl p⟩
    | line str =>
      rw [hline] at ho
      cases hidle : o.idleTimeout with
      | true =>
        simp only [hidle, if_true] at ho
        exact hreply ho (by simp [Oob.Returns, hidle])
      | false =>
        simp only [hidle, Bool.false_eq_true, if_false] at ho
        simp only [Bool.false_eq_true, if_false, wp_bind]
        refine wp_mono (command_running T freed ho.1 p) ?_ fun _ _ h => h.elim
        rintro _ p₁ ⟨hpays, hleaves⟩
        have hraw : Leaves (· = .rawStr) (fun _ => False) p p₁ :=
          hleaves.mono (by rintro _ rfl; simp) fun _ h => h.elim
        cases habor : isAbor str with
        | true => exact ⟨hpays.trans_free (.of_same rfl rfl), ⟨hraw.str, fun _ h => h.elim, fun _ h => h.elim, hraw.dataOpen⟩⟩
        | false =>
          refine wp_mono (reply_running T freed (ho.2 habor) p₁) ?_ fun _ _ h => h.elim
          rintro _ p' ⟨hpays', hleaves'⟩
          exact ⟨hpays.free_trans hpays', hraw.trans (hleaves'.mono (fun _ => .inl) fun _ h => h.elim)⟩

/-- A handler that comes back has logged the command and, unless it is an ABOR, answered it. -/
theorem handleSigurg_line {o : Oob} {str : Bytes} (hidle : o.idleTimeout = false) (hline : o.line = .line str)
    {p : Proc} (ho : p.dataOpen = true → o.Delivered T) {R : Proc → Proc → Prop} (hrefl : R p p)
    (hcommand : ∀ p₁, Pays free p p₁ → Leaves (fun s => s ≠ .inputStr ∧ (s = .logStr → ¬ LogsProtocol T))
      (fun c => c = .control ∨ ¬ LogsProtocol T) p p₁ →
      if isAbor str = true then R p { p₁ with aborReceived := true }
      else ∀ p', Pays free p₁ p' → Leaves (fun s => s = .rawStr ∨ s = .logStr ∧ ¬ LogsProtocol T)
        (fun c => c ≠ .control ∧ ¬ LogsProtocol T) p₁ p' → R p p') :
    wp (handleSigurg T freed o) (fun _ p' => R p p') (fun _ _ => False) p := by
  simp only [handleSigurg, wp_bind, wp_get, hline]
  cases hdata : p.dataOpen with
  | false => exact hrefl
  | true =>
    have ho := ho hdata
    simp only [Oob.Delivered, hline, hidle, Bool.false_eq_true, if_false] at ho
    simp only [Bool.not_true, Bool.false_eq_true, if_false, hidle, wp_bind]
    refine wp_mono (command_running T freed ho.1 p) ?_ fun _ _ h => h
    rintro _ p₁ ⟨hpays, hleaves⟩
    have hnext := hcommand p₁ hpays hleaves
    cases habor : isAbor str with
    | true =>
      rw [if_pos habor] at hnext
      exact hnext
    | false =>
      rw [if_neg (by simp [habor])] at hnext
      refine wp_mono (reply_running T freed (ho.2 habor) p₁) ?_ fun _ _ h => h
      rintro _ p' ⟨hpays', hleaves'⟩
      exact hnext p' hpays' hleaves'

/-- An ABOR does nothing to the replies. -/
theorem handleSigurg_aborts {o : Oob} (habort : o.Aborts) {p : Proc} (ho : p.dataOpen = true → o.Delivered T) :
    wp (handleSigurg T freed o)
      (fun _ p' => Pays free p p' ∧ Leaves (fun s => s ≠ .inputStr ∧ s ≠ .logStr) (· = .control) p p')
      (fun _ _ => False) p := by
  obtain ⟨hidle, str, hline, habor⟩ := habort
  refine handleSigurg_line T freed hidle hline ho
    (R := fun p p' => Pays free p p' ∧ Leaves (fun s => s ≠ .inputStr ∧ s ≠ .logStr) (· = .control) p p')
    ⟨.refl p, .refl _ _ p⟩ ?_
  intro p₁ hpays hleaves
  rw [if_pos habor]
  have hl : Leaves (fun s => s ≠ .inputStr ∧ s ≠ .logStr) (· = .control) p p₁ :=
    hleaves.mono (fun s hs => ⟨hs.1, fun h => (hs.2 h).elim⟩) fun _ => .inl
  exact ⟨hpays.trans_free (.of_same rfl rfl), ⟨hl.str, hl.out, hl.due, hl.dataOpen⟩⟩

/-- Where the protocol is not logged, a handler that comes back does nothing to the log. -/
theorem handleSigurg_unlogged {o : Oob} (hret : o.Returns) (hlogs : ¬ LogsProtocol T) {p : Proc}
    (ho : p.dataOpen = true → o.Delivered T) :
    wp (handleSigurg T freed o)
      (fun _ p' => Pays free p p' ∧ Leaves (fun s => s = .logStr ∨ s = .rawStr) (· ≠ .control) p p')
      (fun _ _ => False) p := by
  obtain ⟨hidle, str, hline⟩ := hret
  refine handleSigurg_line T freed hidle hline ho
    (R := fun p p' => Pays free p p' ∧ Leaves (fun s => s = .logStr ∨ s = .rawStr) (· ≠ .control) p p')
    ⟨.refl p, .refl _ _ p⟩ ?_
  intro p₁ hpays hleaves
  have hl : Leaves (fun s => s = .logStr ∨ s = .rawStr) (· ≠ .control) p p₁ := by
    refine hleaves.mono ?_ fun _ _ => .inr hlogs
    rintro s (rfl | rfl) <;> simp [hlogs]
  split
  · exact ⟨hpays.trans_free (.of_same rfl rfl), ⟨hl.str, hl.out, hl.due, hl.dataOpen⟩⟩
  · intro p' hpays' hleaves'
    refine ⟨hpays.free_trans hpays', hl.trans (hleaves'.mono ?_ fun c hc => ⟨hc, hlogs⟩)⟩
    rintro s (rfl | rfl) <;> simp [hlogs]

/-! ### Where the handler may be noticed -/

/-- If the handler is run at all, its own texts get out and `P` holds of it. -/
def Met (P : Oob → Prop) (data : Bool) : Option Oob → Prop
  | none => True
  | some o => T.asyncAborEnable = true → data = true → o.Delivered T ∧ P o

/-- While a line of the log is not out, the handler comes back and logs nothing. -/
def Oob.SparesLog (o : Oob) : Prop := o.Returns ∧ ¬ LogsProtocol T

/-- From what holds of the handler to what holds of a place where it may be noticed. -/
theorem notice_onUrg {P : Oob → Prop} {data : Bool} {u : Option Oob} (hu : Met T P data u) {p : Proc}
    (hdata : p.dataOpen = data) {R : Proc → Prop} {E : Proc → Prop} (hrefl : R p)
    (hrun : ∀ o, P o → (p.dataOpen = true → o.Delivered T) → p.dataOpen = true →
      wp (handleSigurg T freed o) (fun _ => R) (fun _ => E) p) :
    wp (notice (onUrg T freed) u) (fun _ => R) (fun _ => E) p := by
  cases u with
  | none => exact hrefl
  | some o =>
    simp only [notice, onUrg, wp_when]
    split
    · rename_i hasync
      cases hopen : p.dataOpen with
      | true =>
        obtain ⟨hdel, hP⟩ := hu hasync (hdata.symm.trans hopen)
        exact hrun o hP (fun _ => hdel) hopen
      | false =>
        simp only [handleSigurg, wp_bind, wp_get, hopen]
        exact hrefl
    · exact hrefl

/-- A line of the log that no reply waits for. -/
theorem line_checks (data : Bool) {X : Prop} {fin : Option Oob → Prop} (S : Slot → Prop)
    (hS : ∀ s, S s → s = .rawStr)
    (hfin : ∀ u, fin u → ∀ p, p.dataOpen = data →
      wp (notice (onUrg T freed) u) (fun _ p' => Pays free p p' ∧ Leaves S (fun _ => False) p p')
        (fun _ p' => X ∧ Pays free p p') p) :
    Checks (onUrg T freed) data .logStr (· ≠ .control) S (fun _ => False) X
      (Met T (Oob.SparesLog T) data) fin where
  mid u hu p hdata := by
    refine notice_onUrg T freed hu hdata ⟨.refl p, .refl _ _ p⟩ ?_
    rintro o ⟨hret, hlogs⟩ ho -
    refine wp_mono (handleSigurg_unlogged T freed hret hlogs ho) ?_ fun _ _ h => h
    rintro _ p' ⟨hpays, hleaves⟩
    refine ⟨hpays, hleaves.mono ?_ ?_⟩
    · rintro s (rfl | hs)
      · exact .inl rfl
      · exact .inr (hS s hs)
    · rintro c (hc | hc)
      · exact hc
      · exact hc.elim
  fin := hfin

/-- The last place of a line may end the process. -/
theorem met_any (data : Bool) (u : Option Oob) (hu : Met T (fun _ => True) data u) (p : Proc)
    (hdata : p.dataOpen = data) :
    wp (notice (onUrg T freed) u) (fun _ p' => Pays free p p' ∧ Leaves (· = .rawStr) (fun _ => False) p p')
      (fun _ p' => True ∧ Pays free p p') p := by
  refine notice_onUrg T freed hu hdata ⟨.refl p, .refl _ _ p⟩ ?_
  intro o _ ho _
  exact wp_mono (handleSigurg_pays T freed p ho) (fun _ _ h => h) fun _ _ h => ⟨trivial, h.2⟩

theorem met_returns (data : Bool) (u : Option Oob) (hu : Met T Oob.Returns data u) (p : Proc)
    (hdata : p.dataOpen = data) :
    wp (notice (onUrg T freed) u) (fun _ p' => Pays free p p' ∧ Leaves (· = .rawStr) (fun _ => False) p p')
      (fun _ p' => False ∧ Pays free p p') p := by
  refine notice_onUrg T freed hu hdata ⟨.refl p, .refl _ _ p⟩ ?_
  intro o hret ho _
  exact wp_mono (handleSigurg_pays T freed p ho) (fun _ _ h => h) fun _ _ h => (h.1 hret).elim

theorem met_aborts (data : Bool) (u : Option Oob) (hu : Met T Oob.Aborts data u) (p : Proc)
    (hdata : p.dataOpen = data) :
    wp (notice (onUrg T freed) u)
      (fun _ p' => Pays free p p' ∧ Leaves (fun s => s ≠ .inputStr ∧ s ≠ .logStr) (· = .control) p p')
      (fun _ _ => False) p := by
  refine notice_onUrg T freed hu hdata ⟨.refl p, .refl _ _ p⟩ ?_
  intro o habort ho _
  exact handleSigurg_aborts T freed habort ho

/-- A text on its way to the client. -/
theorem reply_checks (data : Bool) {slot : Slot} (hslot : slot ≠ .inputStr ∧ slot ≠ .logStr) :
    Checks (onUrg T freed) data slot (· = .control) (fun _ => False) (fun _ => False) True
      (Met T Oob.Aborts data) (Met T (fun _ => True) data) where
  mid u hu p hdata := by
    refine wp_mono (met_aborts T freed data u hu p hdata) ?_ fun _ _ h => h
    rintro _ p' ⟨hpays, hleaves⟩
    refine ⟨hpays, hleaves.mono ?_ ?_⟩
    · rintro s (rfl | hs)
      · exact hslot
      · exact hs.elim
    · rintro c (hc | hc)
      · exact hc
      · exact hc.elim
  fin u hu p hdata := by
    refine wp_mono (met_any T freed data u hu p hdata) ?_ fun _ _ h => h
    rintro _ p' ⟨hpays, hleaves⟩
    exact ⟨hpays, hleaves.mono (fun _ h => h.elim) fun _ h => h⟩

/-! ### The run -/

/-- What the call does to `data_fd`. -/
def Call.data (data : Bool) : Call → Bool
  | .dataFd opened => opened
  | _ => data

/-- The call is not harmed by what it meets: no lock and no write fails, and
where the handler is run with a data connection, it is one the place can bear.
A line of the log that is not out yet bears a handler that comes back and logs
nothing; a reply that is not out yet bears an ABOR; and between the line of a
reply and the reply, the handler has to come back, and must be an ABOR if the
text of the reply is in `s_the_str`. -/
def Call.Unharmed (data : Bool) : Call → Prop
  | .text status sep s k =>
    ReplyWhole T (Met T (Oob.SparesLog T) data) (Met T Oob.Aborts data) (Met T Oob.Aborts data)
      (Met T (fun _ => True) data) status sep s k
  | .str status sep s k =>
    ReplyWhole T (Met T (Oob.SparesLog T) data) (Met T Oob.Returns data) (Met T Oob.Aborts data)
      (Met T (fun _ => True) data) status sep s k
  | .raw s k =>
    s ≠ [] ∧
    (LogsProtocol T → LogWhole T (Met T (Oob.SparesLog T) data) (Met T Oob.Returns data)
      (Met T Oob.Returns data) .ftpOutput true s k.log) ∧
    WritesWhole (Met T Oob.Aborts data) (Met T (fun _ => True) data) s.length k.writes
  | .log what succeeded msg k =>
    LogWhole T (Met T (Oob.SparesLog T) data)
      (if vsftpdLogOpen T then Met T Oob.Returns data else Met T (fun _ => True) data)
      (Met T (fun _ => True) data) what succeeded msg k
  | .command cmd arg k =>
    LogsProtocol T → LogWhole T (Met T (Oob.SparesLog T) data) (Met T (fun _ => True) data)
      (Met T (fun _ => True) data) .ftpInput true (inputText cmd arg) k
  | .other urg => Met T (fun _ => True) data urg
  | .dataFd _ => True

theorem SparesLog_false {data : Bool} (hlogs : LogsProtocol T) {u : Option Oob}
    (hu : Met T (Oob.SparesLog T) data u) {p : Proc} (hdata : p.dataOpen = data) {R : Proc → Prop}
    (hrefl : R p) : wp (notice (onUrg T freed) u) (fun _ => R) (fun _ _ => False) p := by
  refine notice_onUrg T freed hu hdata hrefl ?_
  rintro o ⟨-, hno⟩ - -
  exact (hno hlogs).elim

/-- **A call that is not harmed pays what it owes**, and if the process ends in
it, it has paid too. -/
theorem runCall_pays {data : Bool} {call : Call} (h : call.Unharmed T data) {p : Proc}
    (hdata : p.dataOpen = data) :
    wp (runCall T freed call) (fun _ p' => Pays free p p' ∧ p'.dataOpen = call.data data)
      (fun _ p' => Pays free p p') p := by
  have hkeep : ∀ {S : Slot → Prop} {p' : Proc}, Pays free p p' ∧ Leaves S (fun _ => False) p p' →
      Pays free p p' ∧ p'.dataOpen = data := fun h => ⟨h.1, h.2.dataOpen.trans hdata⟩
  cases call with
  | text status sep s k =>
    have hlog : LogsProtocol T → Checks (onUrg T freed) data .logStr (· ≠ .control)
        (fun s => .theStr = s ∨ False) (fun _ => False) False (Met T (Oob.SparesLog T) data)
        (Met T Oob.Aborts data) := by
      intro hlogs
      refine ⟨?_, ?_⟩
      · intro u hu p hdata
        exact SparesLog_false T freed hlogs hu hdata ⟨.refl p, .refl _ _ p⟩
      · intro u hu p hdata
        refine wp_mono (met_aborts T freed data u hu p hdata) ?_ fun _ _ h => h.elim
        rintro _ p' ⟨hpays, hleaves⟩
        refine ⟨hpays, hleaves.mono ?_ fun _ h => h.elim⟩
        rintro s (rfl | h)
        · simp
        · exact h.elim
    refine wp_mono (ftpWriteTextCommon_spec T freed hlog (reply_checks T freed data (by simp)) (by simp)
      (by simp) (by simp) (by simp) h hdata) (fun _ _ h => hkeep h) fun _ _ h => h.2
  | str status sep s k =>
    have hlog : LogsProtocol T → Checks (onUrg T freed) data .logStr (· ≠ .control) (fun _ => False)
        (fun _ => False) False (Met T (Oob.SparesLog T) data) (Met T Oob.Returns data) := by
      intro _
      refine line_checks T freed data _ (fun _ h => h.elim) ?_
      intro u hu p hdata
      refine wp_mono (met_returns T freed data u hu p hdata) ?_ fun _ _ h => h
      rintro _ p' ⟨hpays, hleaves⟩
      exact ⟨hpays, hleaves.mono (fun _ h => h.elim) fun _ h => h⟩
    refine wp_mono (vsfCmdioWriteStr_spec T freed hlog (reply_checks T freed data (by simp)) (by simp)
      (by simp) (by simp) (by simp) h hdata) (fun _ _ h => hkeep h) fun _ _ h => h.2
  | raw s k =>
    obtain ⟨hs, hlogwhole, hwrites⟩ := h
    have hlog : LogsProtocol T → Checks (onUrg T freed) data .logStr (· ≠ .control) (· = .rawStr)
        (fun _ => False) False (Met T (Oob.SparesLog T) data) (Met T Oob.Returns data) := fun _ =>
      line_checks T freed data _ (fun _ h => h) (met_returns T freed data)
    exact wp_mono (vsfCmdioWriteRaw_spec T freed hlog (reply_checks T freed data (by simp)) (by simp)
      (by simp) hs hlogwhole hwrites hdata) (fun _ _ h => h) fun _ _ h => h.2
  | log what succeeded msg k =>
    have hlast : Checks (onUrg T freed) data .logStr (· ≠ .control) (· = .rawStr) (fun _ => False) True
        (Met T (Oob.SparesLog T) data) (Met T (fun _ => True) data) :=
      line_checks T freed data _ (fun _ h => h) (met_any T freed data)
    have hfirst : Checks (onUrg T freed) data .logStr (· ≠ .control) (· = .rawStr) (fun _ => False)
        (vsftpdLogOpen T = false) (Met T (Oob.SparesLog T) data)
        (if vsftpdLogOpen T then Met T Oob.Returns data else Met T (fun _ => True) data) := by
      refine line_checks T freed data _ (fun _ h => h) ?_
      intro u hu p hdata
      cases hopen : vsftpdLogOpen T with
      | true =>
        rw [hopen] at hu
        exact wp_mono (met_returns T freed data u hu p hdata) (fun _ _ h => h) fun _ _ h => h.1.elim
      | false =>
        rw [hopen] at hu
        exact wp_mono (met_any T freed data u hu p hdata) (fun _ _ h => h) fun _ _ h => ⟨rfl, h.2⟩
    exact wp_mono (vsfLogCommon_spec T freed hfirst hlast (fun h => ⟨trivial, h⟩) (by simp) (by simp)
      (.inl ⟨msg, rfl⟩) h hdata) (fun _ _ h => hkeep h) fun _ _ h => h.2
  | command cmd arg k =>
    exact wp_mono (logCommand_spec T freed
      (fun _ => line_checks T freed data _ (fun _ h => h) (met_any T freed data)) (by simp) (by simp)
      (by simp) h hdata) (fun _ _ h => hkeep h) fun _ _ h => h.2
  | other urg =>
    exact wp_mono (met_any T freed data urg h p hdata) (fun _ _ h => hkeep h) fun _ _ h => h.2
  | dataFd opened => exact ⟨.of_same rfl rfl, rfl⟩

/-- None of the calls is harmed; `data` says whether there is a data connection at the first. -/
def Unharmed : Bool → List Call → Prop
  | _, [] => True
  | data, call :: calls => call.Unharmed T data ∧ Unharmed (call.data data) calls

theorem runCalls_pays {calls : List Call} {data : Bool} (h : Unharmed T data calls) {p : Proc}
    (hdata : p.dataOpen = data) :
    wp (runCalls T freed calls) (fun _ p' => Pays free p p') (fun _ p' => Pays free p p') p := by
  induction calls generalizing data p with
  | nil => exact .refl p
  | cons call calls ih =>
    simp only [runCalls, wp_bind]
    refine wp_mono (runCall_pays T freed h.1 hdata) ?_ fun _ _ h => h
    rintro _ p₁ ⟨hpays, hdata₁⟩
    refine wp_mono (ih h.2 hdata₁) ?_ ?_
    · exact fun _ _ hrest => hpays.free_trans hrest
    · exact fun _ _ hrest => hpays.free_trans hrest

/-- Each event has put its own text, whole and once, where it belongs. -/
def Proc.Whole (p : Proc) : Prop := ∀ c, ∃ texts : List Bytes, texts.Perm (p.due c) ∧ p.out c = texts.flatten

/-- **The texts of the events are whole.** Where no call is harmed, the control
connection and the log files have got the texts of the replies and of the log
events, each of them once and with nothing between its bytes, in whatever state
the run is in. -/
theorem events_whole (calls : List Call) (h : Unharmed T false calls) :
    (after (runCalls T freed calls) {}).Whole := by
  have hpays : Pays free {} (after (runCalls T freed calls) {}) :=
    wp_after (runCalls_pays T freed h rfl)
  intro c
  obtain ⟨xs, ys, hdue, hout, hperm⟩ := hpays c
  refine ⟨xs, ?_, ?_⟩
  · rw [hdue]
    simpa [free] using hperm
  · rw [hout]
    rfl

/-! ### Two runs -/

/-- A session with nothing to say of itself in the log. -/
def plainView : LogView := ⟨false, false, [], [], text "h", false, none, [], 0⟩

def plainLog : LogTrace Empty := { view := plainView, stamp := fun _ => ⟨text "d", 1, 0, []⟩ }

/-- An out-of-band NOOP, behind its telnet characters. -/
def oobNoop : Oob where
  line := .line ([255, 244, 255, 242] ++ text "NOOP")
  input := plainLog
  reply := { log := plainLog }

/-- A transfer is announced, and the NOOP is noticed at the end of the reply. -/
def answeredCalls : List Call :=
  [.dataFd true, .text ftpDataconn chSpace (text "ok")
    { log := { view := plainView, stamp := fun _ => ⟨text "d", 1, 0, []⟩ }
      writes := [⟨.took 8, some oobNoop⟩] }]

/-- The two replies come one behind the other. -/
theorem events_whole_answered :
    (after (runCalls { asyncAborEnable := true } (fun _ => []) answeredCalls) {}).Whole ∧
    (after (runCalls { asyncAborEnable := true } (fun _ => []) answeredCalls) {}).out .control =
      text "150 ok\r\n500 Unknown command.\r\n" := by
  refine ⟨events_whole _ _ answeredCalls ⟨trivial, ⟨?_, ?_⟩, trivial⟩, by decide +kernel⟩
  · exact fun h => absurd h.1 (by decide)
  · have hsize : (replyBytes ftpDataconn chSpace (text "ok")).length ≤ 8 := by decide +kernel
    refine ⟨by decide, ?_⟩
    rw [if_pos hsize]
    refine fun _ _ => ⟨⟨fun h => absurd h.1 (by decide), ?_⟩, trivial⟩
    exact fun _ => ⟨fun h => absurd h.1 (by decide), trivial⟩

/-- The same, with the protocol logged and the NOOP noticed while the line of
the reply waits for the lock of vsftpd.log. -/
def lockedCalls : List Call :=
  [.dataFd true, .text ftpDataconn chSpace (text "ok")
    { log := { view := plainView, stamp := fun _ => ⟨text "d", 1, 0, []⟩
               lock := fun _ => { urg := some oobNoop } } }]

def lockedT : Tunables := { asyncAborEnable := true, xferlogEnable := true, logFtpProtocol := true }

/-- The reply is sent with the text of the handler's, and the log has a line of
the handler's in the place of the reply's. -/
theorem handler_overwrites :
    ¬ (after (runCalls lockedT (fun _ => []) lockedCalls) {}).Whole ∧
    (after (runCalls lockedT (fun _ => []) lockedCalls) {}).out .control =
      text "500 Unknown command.\r\n150 Unknown command.\r\n" ∧
    (after (runCalls lockedT (fun _ => []) lockedCalls) {}).due .control =
      [text "150 ok\r\n", text "500 Unknown command.\r\n"] := by
  refine ⟨?_, by decide +kernel, by decide +kernel⟩
  intro hwhole
  obtain ⟨texts, hperm, hout⟩ := hwhole .control
  have hlen := hperm.flatten.length_eq
  rw [← hout] at hlen
  exact absurd hlen (by decide +kernel)

end Reentry
end CosFtp
