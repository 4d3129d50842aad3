/-
# The reply to PWD

The name of the directory goes to the client in quotes, and three times over
it is written differently: a quote in it is doubled (`handle_pwd`), then each
telnet character of the whole text, then an LF is written as NUL
(`ftp_write_str_common`). The client undoes this in the opposite order, and
ends the name at the first quote that does not stand in a pair.

* `pwd_reply_decodes`: for each name without a NUL the reply is one line, the
  client reads the name in it, or `/` for an empty one, and these are the bytes
  that `handle_pwd` writes. So two directories never get the same reply.

Each layer is undone by itself: `undouble_double` for the two that double a
byte, `upToLoneQuote_double` for the end of the name.

Key definitions: `pwdReply`, `decodePwd`.
Key theorems: `undouble_double`, `decodePwd_pwdReply`, `pwd_reply_decodes`.
-/
import CosFtp.Replace
import CosFtp.Commands
import CosFtp.Reentry

namespace CosFtp

open Wp Search

abbrev chQuote : UInt8 := 34
abbrev chTelnet : UInt8 := 255

/-! ### What is written -/

/-- What `handle_pwd` shows for a session directory. -/
def pwdShown (d : Bytes) : Bytes := if d = [] then [chSlash] else d

/-- The text `handle_pwd` makes. -/
def pwdText (d : Bytes) : Bytes :=
  text "\"" ++ strReplaceText (pwdShown d) (text "\"") (text "\"\"") ++ text "\" is the current directory"

/-- The bytes an event writes to the control connection. -/
def Event.bytes : Event → Bytes
  | .reply code msg => Reentry.replyBytes code chSpace msg
  | .hyphen code msg => Reentry.replyBytes code chMinus msg
  | .raw msg => msg
  | _ => []

def pwdEvent (d : Bytes) : Event := .reply ftpPwdok (pwdText d)

def pwdReply (d : Bytes) : Bytes := (pwdEvent d).bytes

/-! ### What the client reads -/

/-- Two of a byte taken for one. -/
def undouble (c : UInt8) : Bytes → Bytes
  | b :: b' :: s => if b = c ∧ b' = c then c :: undouble c s else b :: undouble c (b' :: s)
  | s => s

/-- What stands before the first quote that is not one of a pair. -/
def upToLoneQuote : Bytes → Option Bytes
  | [] => none
  | [b] => if b = chQuote then some [] else none
  | b :: b' :: s =>
    if b = chQuote then
      if b' = chQuote then (upToLoneQuote s).map ([chQuote, chQuote] ++ ·) else some []
    else (upToLoneQuote (b' :: s)).map (b :: ·)

/-- The name in a reply. -/
def decodePwd (reply : Bytes) : Option Bytes :=
  let line := undouble chTelnet (strReplaceChar reply chNul chLf)
  let quoted := (line.dropWhile fun b => b ≠ chQuote).tail
  (upToLoneQuote quoted).map (undouble chQuote)

/-! ### Doubling a byte -/

def double (c : UInt8) (s : Bytes) : Bytes := s.flatMap fun b => if b = c then [c, c] else [b]

theorem double_cons_self (c : UInt8) (s : Bytes) : double c (c :: s) = c :: c :: double c s := by
  rw [double, List.flatMap_cons, if_pos rfl]
  rfl

theorem double_cons_ne {b c : UInt8} (h : b ≠ c) (s : Bytes) : double c (b :: s) = b :: double c s := by
  rw [double, List.flatMap_cons, if_neg h]
  rfl

theorem double_append (c : UInt8) (s t : Bytes) : double c (s ++ t) = double c s ++ double c t :=
  List.flatMap_append

theorem mem_double {b c : UInt8} {s : Bytes} (h : b ∈ double c s) : b ∈ s := by
  obtain ⟨b', hb', hmem⟩ := List.mem_flatMap.mp h
  by_cases hc : b' = c
  · rw [if_pos hc] at hmem
    obtain rfl : b = c := by simpa using hmem
    rwa [← hc]
  · rw [if_neg hc] at hmem
    obtain rfl : b = b' := by simpa using hmem
    exact hb'

theorem undouble_cons_ne {b c : UInt8} (h : b ≠ c) : ∀ s : Bytes, undouble c (b :: s) = b :: undouble c s
  | [] => rfl
  | b' :: s => by rw [undouble, if_neg fun he => h he.1]

/-- What was doubled is undone, and nothing else. -/
theorem undouble_double (c : UInt8) : ∀ s : Bytes, undouble c (double c s) = s
  | [] => rfl
  | b :: s => by
    by_cases h : b = c
    · subst h
      rw [double_cons_self, undouble, if_pos ⟨rfl, rfl⟩, undouble_double b s]
    · rw [double_cons_ne h, undouble_cons_ne h, undouble_double c s]

theorem upToLoneQuote_cons_ne {b : UInt8} (h : b ≠ chQuote) : ∀ s : Bytes,
    upToLoneQuote (b :: s) = (upToLoneQuote s).map (b :: ·)
  | [] => by simp [upToLoneQuote, h]
  | b' :: s => by rw [upToLoneQuote, if_neg h]

/-- The quotes of the name stand in pairs, so the one behind it is the first
that does not. -/
theorem upToLoneQuote_double {b : UInt8} (hb : b ≠ chQuote) (rest : Bytes) : ∀ s : Bytes,
    upToLoneQuote (double chQuote s ++ chQuote :: b :: rest) = some (double chQuote s)
  | [] => by
    rw [double, List.flatMap_nil, List.nil_append, upToLoneQuote, if_pos rfl, if_neg hb]
  | b' :: s => by
    have ih := upToLoneQuote_double hb rest s
    by_cases h : b' = chQuote
    · subst h
      rw [double_cons_self, List.cons_append, List.cons_append, upToLoneQuote, if_pos rfl, if_pos rfl, ih]
      rfl
    · rw [double_cons_ne h, List.cons_append, upToLoneQuote_cons_ne h, ih]
      rfl

/-! ### The reply -/

theorem strReplaceText_quote (s : Bytes) :
    strReplaceText s (text "\"") (text "\"\"") = double chQuote s := by
  have h := strReplaceText_singleton (c := chQuote) (by decide) (text "\"\"") s
  exact h

theorem mangle_eq (s : Bytes) : Reentry.mangle s = strReplaceChar (double chTelnet s) chLf chNul := by
  have h := strReplaceText_singleton (c := chTelnet) (by decide) [chTelnet, chTelnet] s
  rw [Reentry.mangle, h]
  rfl

/-- What stands in front of the quote. -/
def pwdHead : Bytes := Reentry.replyHead ftpPwdok chSpace

/-- What stands behind it. -/
def pwdTail : Bytes := text " is the current directory"

theorem pwdText_eq (d : Bytes) :
    pwdText d = chQuote :: (double chQuote (pwdShown d) ++ chQuote :: pwdTail) := by
  rw [pwdText, strReplaceText_quote]
  show [chQuote] ++ double chQuote (pwdShown d) ++ (chQuote :: pwdTail) = _
  rw [List.append_assoc]
  rfl

theorem pwdReply_eq (d : Bytes) :
    pwdReply d = pwdHead ++ strReplaceChar (double chTelnet (pwdText d)) chLf chNul ++ crlf := by
  rw [pwdReply, pwdEvent, Event.bytes, Reentry.replyBytes, mangle_eq]
  rfl

theorem chNul_not_mem_pwdText {d : Bytes} (h : chNul ∉ d) : chNul ∉ pwdText d := by
  have hshown : chNul ∉ pwdShown d := by
    unfold pwdShown
    split
    · decide
    · exact h
  intro hmem
  rw [pwdText_eq] at hmem
  simp only [List.mem_cons, List.mem_append] at hmem
  rcases hmem with hq | hname | hq | htail
  · exact absurd hq (by decide)
  · exact hshown (mem_double hname)
  · exact absurd hq (by decide)
  · exact absurd htail (by decide)

/-- The LFs are back where they were. -/
theorem strReplaceChar_back {s : Bytes} (h : chNul ∉ s) :
    strReplaceChar (strReplaceChar s chLf chNul) chNul chLf = s := by
  rw [strReplaceChar, strReplaceChar, List.map_map]
  refine (List.map_congr_left fun b hb => ?_).trans (List.map_id s)
  have hnul : b ≠ chNul := fun he => h (he ▸ hb)
  by_cases hlf : b = chLf
  · simp [hlf]
  · simp [hlf, hnul]

/-- A reply is one line. -/
theorem pwdReply_line (d : Bytes) :
    (pwdReply d).count chLf = 1 ∧ ∃ line, pwdReply d = line ++ [chCr, chLf] := by
  rw [pwdReply_eq]
  constructor
  · have hhead : pwdHead.count chLf = 0 := by decide +kernel
    have hcrlf : crlf.count chLf = 1 := by decide
    have hmid : (strReplaceChar (double chTelnet (pwdText d)) chLf chNul).count chLf = 0 :=
      List.count_eq_zero.mpr (not_mem_strReplaceChar (by decide) _)
    rw [List.count_append, List.count_append, hhead, hmid, hcrlf]
  · exact ⟨_, rfl⟩

/-- The client reads what was shown. -/
theorem decodePwd_pwdReply {d : Bytes} (h : chNul ∉ d) : decodePwd (pwdReply d) = some (pwdShown d) := by
  have hback : strReplaceChar (pwdReply d) chNul chLf = double chTelnet (pwdHead ++ pwdText d ++ crlf) := by
    have hnul : chNul ∉ double chTelnet (pwdText d) := fun hmem => chNul_not_mem_pwdText h (mem_double hmem)
    calc strReplaceChar (pwdReply d) chNul chLf
        = strReplaceChar pwdHead chNul chLf ++
          strReplaceChar (strReplaceChar (double chTelnet (pwdText d)) chLf chNul) chNul chLf ++
          strReplaceChar crlf chNul chLf := by
          rw [pwdReply_eq, strReplaceChar, List.map_append, List.map_append]
          rfl
      _ = pwdHead ++ double chTelnet (pwdText d) ++ crlf := by
          rw [strReplaceChar_back hnul]
          rfl
      _ = double chTelnet (pwdHead ++ pwdText d ++ crlf) := by
          rw [double_append, double_append]
          rfl
  have hquoted : ((pwdHead ++ pwdText d ++ crlf).dropWhile fun b => b ≠ chQuote).tail =
      double chQuote (pwdShown d) ++ chQuote :: chSpace :: (pwdTail.tail ++ crlf) := by
    rw [pwdText_eq, List.append_assoc, List.dropWhile_append_of_pos (by decide +kernel), List.cons_append,
      List.dropWhile_cons_of_neg (by decide), List.tail_cons, List.append_assoc]
    rfl
  simp only [decodePwd, hback, undouble_double, hquoted]
  rw [upToLoneQuote_double (by decide), Option.map_some, undouble_double]

/-- Two replies that are alike show the same name. -/
theorem pwdShown_eq_of_pwdReply {d d' : Bytes} (h : chNul ∉ d) (h' : chNul ∉ d')
    (heq : pwdReply d = pwdReply d') : pwdShown d = pwdShown d' := by
  have hd := decodePwd_pwdReply h
  rw [heq, decodePwd_pwdReply h'] at hd
  exact (Option.some.inj hd).symm

/-! ### The command -/

/-- The reply stands behind the line of the protocol log, if there is one. -/
def PwdWritten (d : Bytes) (w w' : World) : Prop :=
  ∃ logged others, w'.events = w.events ++ logged ++ pwdEvent d :: others ∧
    ∀ e ∈ logged, e.bytes = []

/-- `handle_pwd` writes the reply, or it dies with nothing written. -/
theorem handlePwd_writes (T : Tunables) (env : Env) (w : World) :
    wp (handlePwd T env) (fun _ w' => PwdWritten (strSessionGetcwd T w.cwd.path) w w')
      (fun e w' => PwdWritten (strSessionGetcwd T w.cwd.path) w w' ∨
        e = .die "ftp_write" ∧ w'.events.flatMap Event.bytes = w.events.flatMap Event.bytes) w := by
  set d := strSessionGetcwd T w.cwd.path with hd
  obtain ⟨logged, hevents, hlogged⟩ := outputLogged_events (T := T) (pwdEvent d) w
  have hsilent : ∀ e ∈ logged, e.bytes = [] := by
    intro e he
    obtain ⟨msg, view, rfl⟩ := hlogged e he
    rfl
  unfold handlePwd vsfCmdioWriteStr
  rw [wp_bind, wp_get, wp_bind, wp_writeControl]
  by_cases hwrite : env.ctrlWrite w.clock = true
  · rw [if_pos hwrite]
    set w₁ : World := { w.outputLogged T (pwdEvent d) with
      events := (w.outputLogged T (pwdEvent d)).events ++ [pwdEvent d] } with hw₁
    have hrest : ∀ w', Talk SignalReply w₁ w' → PwdWritten d w w' := by
      intro w' htalk
      obtain ⟨others, hothers, -⟩ := htalk.events
      refine ⟨logged, others, ?_, hsilent⟩
      rw [hothers, hw₁, hevents, List.append_assoc]
      rfl
    exact wp_mono (checkPendingActions_talk (fun _ h => h) w₁) (fun _ w' h => hrest w' h)
      fun _ w' h => .inl (hrest w' h.2)
  · rw [if_neg hwrite]
    refine .inr ⟨rfl, ?_⟩
    have hnone : logged.flatMap Event.bytes = [] := by
      simpa using hsilent
    show (w.outputLogged T (pwdEvent d)).events.flatMap Event.bytes = _
    rw [hevents, List.flatMap_append, hnone, List.append_nil]

/-- **The reply to PWD** is a line in which the client reads the directory. -/
theorem pwd_reply_decodes (d : Bytes) (hnul : chNul ∉ d) :
    ((pwdReply d).count chLf = 1 ∧ ∃ line, pwdReply d = line ++ [chCr, chLf]) ∧
    decodePwd (pwdReply d) = some (if d = [] then [chSlash] else d) ∧
    (∀ d', chNul ∉ d' → d ≠ [] → d' ≠ [] → d ≠ [chSlash] → d' ≠ [chSlash] → d ≠ d' →
      pwdReply d ≠ pwdReply d') ∧
    ∀ T env w, strSessionGetcwd T w.cwd.path = d →
      wp (handlePwd T env) (fun _ w' => PwdWritten d w w')
        (fun e w' => PwdWritten d w w' ∨
          e = .die "ftp_write" ∧ w'.events.flatMap Event.bytes = w.events.flatMap Event.bytes) w := by
  refine ⟨pwdReply_line d, decodePwd_pwdReply hnul, ?_, ?_⟩
  · intro d' hnul' hne hne' _ _ hdiff heq
    have hshown := pwdShown_eq_of_pwdReply hnul hnul' heq
    rw [pwdShown, pwdShown, if_neg hne, if_neg hne'] at hshown
    exact hdiff hshown
  · intro T env w hcwd
    rw [← hcwd]
    exact handlePwd_writes T env w

/-- A name of a quote, a telnet character and an LF. -/
theorem pwd_reply_decodes_odd : decodePwd (pwdReply [chQuote, chTelnet, chLf]) = some [chQuote, chTelnet, chLf] :=
  (pwd_reply_decodes [chQuote, chTelnet, chLf] (by decide)).2.1

end CosFtp
