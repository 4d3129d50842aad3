/-
# One line for each call

What `vsf_log_common` appends is one line exactly if none of the texts that it copies has an LF in
it, and a line of xferlog has its thirteen fields behind the date exactly if the address of the
client and its identity have no space in them: the spaces of a file name are replaced, and nothing
else is. Most of these texts are made of others, so there is a lemma for each function of the
server that makes them.

Key definitions: `OneLine`, `fieldsBehind`, `LogCall.copied`.
Key theorems: `vsfLogCommon_oneLine_iff`, `lf_not_mem_preCommand`, `lf_not_mem_path_resolve`.
-/
import CosFtp.Prelogin
import CosFtp.Logging

namespace CosFtp

/-! ### Lines and fields -/

/-- One LF, at the end. -/
def OneLine (chunk : Bytes) : Prop := chunk.getLast? = some chLf ∧ chunk.count chLf = 1

instance (chunk : Bytes) : Decidable (OneLine chunk) := inferInstanceAs (Decidable (_ ∧ _))

/-- A line split on single spaces, behind its date. -/
def fieldsBehind (date chunk : Bytes) : List Bytes := (chunk.drop (date.length + 1)).dropLast.splitOn chSpace

theorem oneLine_append {line : Bytes} : OneLine (line ++ [chLf]) ↔ chLf ∉ line := by
  simp [OneLine, List.count_eq_zero]

theorem length_splitOn (c : UInt8) (s : Bytes) : (s.splitOn c).length = s.count c + 1 := by
  induction s with
  | nil => rfl
  | cons b s ih =>
    rw [List.splitOn_cons_eq_if_modifyHead]
    by_cases hb : b = c
    · rw [if_pos (beq_iff_eq.mpr hb), List.length_cons, ih, hb, List.count_cons_self]
    · rw [if_neg (beq_iff_eq.not.mpr hb), List.length_modifyHead, ih, List.count_cons_of_ne hb]

/-- How often a character stands in texts that are joined. -/
theorem count_intercalate (b c : UInt8) (ls : List Bytes) :
    ([c].intercalate ls).count b = (ls.map (List.count b)).sum + (if b = c then ls.length - 1 else 0) := by
  induction ls with
  | nil => simp
  | cons l ls ih =>
    cases ls with
    | nil => simp
    | cons l' ls =>
      rw [List.intercalate_cons_cons, List.count_append, List.count_append, ih]
      by_cases hb : b = c
      · subst hb
        simp
        omega
      · simp [hb, Ne.symm hb]

/-- A character that does not join them stands in one of them. -/
theorem mem_intercalate_iff {b c : UInt8} (hb : b ≠ c) (ls : List Bytes) :
    b ∈ [c].intercalate ls ↔ ∃ l ∈ ls, b ∈ l := by
  rw [← not_iff_not, ← List.count_eq_zero, count_intercalate, if_neg hb, Nat.add_zero, List.sum_eq_zero_iff_forall_eq_nat]
  simp [List.count_eq_zero]

/-! ### Numbers -/

theorem isdigit_of_mem_ulongText {n : ℕ} {b : UInt8} (h : b ∈ ulongText n) : isdigit b = true := by
  obtain ⟨c, hc, rfl⟩ := List.mem_map.mp h
  have hdigits : c ∈ Nat.toDigits 10 n := by
    rw [← Nat.toList_repr]
    exact hc
  have hdigit := Nat.isDigit_of_mem_toDigits (by decide) (by decide) hdigits
  simp only [Char.isDigit, Bool.and_eq_true, decide_eq_true_eq, ge_iff_le, UInt32.le_iff_toNat_le] at hdigit
  change 48 ≤ c.toNat ∧ c.toNat ≤ 57 at hdigit
  have hval : (UInt8.ofNat c.toNat).toNat = c.toNat := Nat.mod_eq_of_lt (by omega)
  simp only [isdigit, Bool.and_eq_true, decide_eq_true_eq, UInt8.le_iff_toNat_le, hval]
  exact hdigit

theorem not_mem_ulongText {b : UInt8} (hb : isdigit b = false) (n : ℕ) : b ∉ ulongText n := by
  intro h
  rw [isdigit_of_mem_ulongText h] at hb
  cases hb

theorem lf_not_mem_ulongText (n : ℕ) : chLf ∉ ulongText n := not_mem_ulongText (by decide) n

theorem lf_not_mem_intText (n : ℤ) : chLf ∉ intText n := by
  cases n with
  | ofNat n => exact lf_not_mem_ulongText n
  | negSucc n =>
    have hneg : intText (.negSucc n) = text "-" ++ ulongText (n + 1) := by
      simp [intText, ulongText, text, toString, Int.repr]
    rw [hneg, List.mem_append]
    exact fun h => h.elim (by decide) (lf_not_mem_ulongText (n + 1))

/-! ### Texts made of texts -/

section

variable {s t : Bytes}

theorem lf_not_mem_cstr (hs : chLf ∉ s) : chLf ∉ cstr s := fun h => hs (cstr_subset s h)

/-- What stands in a text in which another was replaced stood there, or in the new text. -/
theorem mem_strReplaceText {b : UInt8} {p_from p_to : Bytes} (h : b ∈ strReplaceText s p_from p_to) :
    b ∈ s ∨ b ∈ p_to := by
  have hloop : ∀ n lhs, b ∈ strReplaceTextLoop p_from p_to n lhs → b ∈ lhs ∨ b ∈ p_to := by
    intro n
    induction n with
    | zero => exact fun _ h => absurd h List.not_mem_nil
    | succ n ih =>
      intro lhs h
      obtain ⟨hleft, hright⟩ := strSplitTextCommon_subset (strLocateText lhs p_from) lhs p_from
      have hout : b ∈ (if (strSplitText lhs p_from).1.length < lhs.length then
          (strSplitText lhs p_from).1 ++ cstr p_to else (strSplitText lhs p_from).1) → b ∈ lhs ∨ b ∈ p_to := by
        intro h
        split at h
        · exact (List.mem_append.mp h).imp (fun h => hleft h) (fun h => cstr_subset p_to h)
        · exact .inl (hleft h)
      unfold strReplaceTextLoop at h
      dsimp only at h
      by_cases hend : (strSplitText lhs p_from).2 = []
      · rw [if_pos hend] at h
        exact hout h
      · rw [if_neg hend, List.mem_append] at h
        rcases h with h | h
        · exact hout h
        · exact (ih _ h).imp_left fun h => hright h
  exact hloop _ s h

theorem lf_not_mem_strReplaceText {p_from p_to : Bytes} (hs : chLf ∉ s) (hto : chLf ∉ p_to) :
    chLf ∉ strReplaceText s p_from p_to :=
  fun h => (mem_strReplaceText h).elim hs hto

/-- So it is with a character. -/
theorem lf_not_mem_strReplaceChar {c_from c_to : UInt8} (hs : chLf ∉ s) (hto : c_from ∈ s → c_to ≠ chLf) :
    chLf ∉ strReplaceChar s c_from c_to := by
  intro h
  obtain ⟨b, hb, heq⟩ := List.mem_map.mp h
  split at heq
  · rename_i hfrom
    exact hto (hfrom ▸ hb) heq
  · exact hs (heq ▸ hb)

theorem lf_not_mem_strUpper (hs : chLf ∉ s) : chLf ∉ strUpper s := by
  intro h
  obtain ⟨b, hb, heq⟩ := List.mem_map.mp h
  unfold toupper at heq
  split at heq
  · rename_i hlower
    rw [UInt8.le_iff_toNat_le, UInt8.le_iff_toNat_le] at hlower
    have hval := congrArg UInt8.toNat heq
    rw [UInt8.toNat_sub_of_le _ _ (by rw [UInt8.le_iff_toNat_le]; exact Nat.le_trans (by decide) hlower.1)] at hval
    change b.toNat - 32 = 10 at hval
    change 97 ≤ b.toNat ∧ b.toNat ≤ 122 at hlower
    omega
  · exact hs (heq ▸ hb)

end

/-! ### What a client sends -/

/-- A line with no NUL in it, which would be made an LF. -/
def CtrlLine.Plain : CtrlLine → Prop
  | .line str => chNul ∉ str ∧ chLf ∉ str
  | _ => True

/-- What the outside answers to a command has no LF in it: what COS says, also where it is only debugging output,
what the TLS library says, the lines of a message file, the homes of users, a text that is converted. The lines that
come out of band are plain. -/
structure Env.Plain (env : Env) : Prop where
  respmsg : ∀ i, chLf ∉ cstr (env.respmsg i)
  fileStatRespmsg : chLf ∉ cstr env.fileStatRespmsg
  folderStatRespmsg : chLf ∉ cstr env.folderStatRespmsg
  folderListRespmsg : chLf ∉ cstr env.folderListRespmsg
  dirRespmsgs : ∀ dir option filter full, ∀ msg ∈ env.dirRespmsgs dir option filter full, chLf ∉ cstr msg
  sslHandshakeLog : ∀ msg ∈ env.sslHandshakeLog, chLf ∉ msg
  sslCloseLog : ∀ msg ∈ env.sslCloseLog, chLf ∉ msg
  messageFile : ∀ line ∈ env.messageFile, chLf ∉ line
  getpwnam : ∀ user dir, env.getpwnam user = some dir → chLf ∉ cstr dir
  codeConvert : ∀ s temp, chLf ∉ s → env.codeConvert s = some temp → chLf ∉ cstr temp
  urg : ∀ n line, (env.signals n).urg = some line → line.Plain

section

variable {env : Env} {line : CtrlLine} {s : Bytes}

theorem lf_not_mem_splitCommand (hs : chLf ∉ s) : chLf ∉ (splitCommand s).1 ∧ chLf ∉ (splitCommand s).2 := by
  refine ⟨?_, fun h => hs (splitCommand_arg_subset s h)⟩
  have hsplit := strSplitChar_subset s chSpace
  unfold splitCommand
  by_cases hspace : s = [chSpace]
  · rw [if_pos hspace]
    exact lf_not_mem_strUpper hs
  · rw [if_neg hspace]
    exact lf_not_mem_strUpper fun h => hs (hsplit.1 h)

/-- The command of a plain line, and its argument. -/
theorem lf_not_mem_preCommand (h : line.Plain) : chLf ∉ (preCommand line).1 ∧ chLf ∉ (preCommand line).2 := by
  cases line with
  | closed => exact ⟨List.not_mem_nil, List.not_mem_nil⟩
  | tooLong => exact ⟨List.not_mem_nil, List.not_mem_nil⟩
  | line str =>
    obtain ⟨hnul, hlf⟩ := h
    apply lf_not_mem_splitCommand
    have hreplaced : chLf ∉ strReplaceChar str chNul chLf := lf_not_mem_strReplaceChar hlf fun h => absurd h hnul
    exact fun h => hreplaced ((List.rdropWhile_prefix _ _).subset h)

theorem lf_not_mem_inputText {cmd arg : Bytes} (hcmd : chLf ∉ cmd) (harg : chLf ∉ arg) :
    chLf ∉ inputText cmd arg := by
  unfold inputText
  split
  · decide
  · split
    · exact List.not_mem_append (List.not_mem_append hcmd (by decide)) harg
    · exact hcmd

theorem lf_not_mem_cosConvGbk2Utf (henv : env.Plain) (hs : chLf ∉ s) : chLf ∉ cosConvGbk2Utf env s :=
  not_mem_cosConvGbk2Utf (henv.codeConvert s · hs) hs

/-- The password of an anonymous user is one word on one line, whatever it is. -/
theorem anonIdentity_word (pass : Bytes) : chLf ∉ anonIdentity pass ∧ chSpace ∉ anonIdentity pass := by
  refine ⟨not_mem_strReplaceChar (by decide) _, ?_⟩
  intro h
  obtain ⟨b, hb, heq⟩ := List.mem_map.mp h
  split at heq
  · cases heq
  · exact not_mem_strReplaceChar (show (95 : UInt8) ≠ chSpace by decide) _ (heq ▸ hb)

/-- A name that is tried is one word. -/
theorem space_not_mem_of_not_dodgy {user pass : Bytes} (h : dodgy user pass = false) : chSpace ∉ user := by
  intro hmem
  simp only [dodgy, Bool.or_eq_false_iff] at h
  have hnone := List.any_eq_false.mp h.1.1.2 chSpace hmem
  exact hnone (by decide)

end

/-! ### Paths -/

section

variable {T : Tunables} {env : Env} {a : Bytes}

theorem lf_not_mem_resolveTilde {home : Bytes} (henv : env.Plain) (hhome : chLf ∉ home) (ha : chLf ∉ a) :
    chLf ∉ resolveTilde T home env.getpwnam a :=
  not_mem_resolveTilde (by decide) henv.getpwnam hhome ha

theorem lf_not_mem_prependSessionPath {cwd : Bytes} (hroot : chLf ∉ getUserRootDir T) (hcwd : chLf ∉ cwd)
    (ha : chLf ∉ a) : chLf ∉ prependSessionPathToFilename T cwd a := by
  unfold prependSessionPathToFilename
  dsimp only
  refine List.not_mem_append ?_ ha
  split
  · split
    · exact List.not_mem_append hcwd (by decide)
    · exact hcwd
  · exact hroot

/-- The path of where the session goes. -/
theorem lf_not_mem_path_resolve (ha : chLf ∉ a) : chLf ∉ (resolve a).path := by
  have hnames : ∀ c ∈ (resolve a).names, chLf ∉ c := by
    intro c hc hb
    rcases Walk.mem_walk _ _ hc with hc | hc
    · exact List.not_mem_nil hc
    · obtain ⟨hmem, -⟩ := Walk.mem_of_down_mem_posixMoves pathMarks hc
      exact ha (cstr_subset a (mem_of_mem_splitOn (List.mem_of_mem_tail hmem) hb).1)
  unfold Dir.path
  split
  · decide
  · intro h
    obtain ⟨c, hc, hb⟩ := List.mem_flatMap.mp h
    rcases List.mem_cons.mp hb with hslash | hb
    · exact absurd hslash (by decide)
    · exact hnames c hc hb

theorem lf_not_mem_retrMark (isAscii : Bool) (ha : chLf ∉ a) (size : ℕ) : chLf ∉ retrMark isAscii a size := by
  apply lf_not_mem_cstr
  have hmode : chLf ∉ text (if isAscii then "ASCII" else "BINARY") := by
    cases isAscii <;> decide
  refine List.not_mem_append (List.not_mem_append (List.not_mem_append ?_ (by decide)) (lf_not_mem_ulongText _)) (by decide)
  exact List.not_mem_append (List.not_mem_append (List.not_mem_append (by decide) hmode) (by decide)) ha

theorem lf_not_mem_pasvReply (isIpv6 : Bool) (addr : Sockaddr) (port : UInt16) :
    chLf ∉ pasvReply isIpv6 addr port := by
  have hntoa : ∀ raw, chLf ∉ inetNtoa raw := by
    intro raw h
    obtain ⟨l, hl, hb⟩ := (mem_intercalate_iff (by decide) _).mp h
    obtain ⟨n, _, rfl⟩ := List.mem_map.mp hl
    exact lf_not_mem_ulongText _ hb
  have hhost : chLf ∉ pasvHost isIpv6 addr := by
    unfold pasvHost
    split
    · split
      · decide
      · exact hntoa _
    · split
      · exact hntoa _
      · decide
  unfold pasvReply
  refine List.not_mem_append (List.not_mem_append (List.not_mem_append (List.not_mem_append
    (List.not_mem_append ?_ (by decide)) (lf_not_mem_ulongText _)) (by decide)) (lf_not_mem_ulongText _)) (by decide)
  exact lf_not_mem_strReplaceChar (List.not_mem_append (by decide) hhost) fun _ => by decide

end

/-! ### A call -/

/-- What the clock says has no LF in it. -/
def Stamp.Plain (st : Stamp) : Prop := chLf ∉ st.date ∧ chLf ∉ st.kbyteRate

/-- The call writes a line of xferlog. -/
def LogCall.Transfers (T : Tunables) (c : LogCall) : Prop := xferlogOpen T ∧ vsfLogTypeIsTransfer c.what

instance (T : Tunables) (c : LogCall) : Decidable (c.Transfers T) := inferInstanceAs (Decidable (_ ∧ _))

/-- The texts that a call copies into a line of xferlog. -/
def LogView.xferTexts (v : LogView) : List Bytes := [v.remoteIpStr, v.logStr, v.identity]

/-- And into a line of vsftpd.log. -/
def LogCall.vsftpdTexts (c : LogCall) : List Bytes :=
  [c.view.userStr, c.view.remoteIpStr, c.msg] ++ if c.what = .login then [c.view.anonPassStr] else []

/-- The texts that a call copies into the lines it writes. -/
def LogCall.copied (T : Tunables) (c : LogCall) : List Bytes :=
  (if c.Transfers T then c.view.xferTexts else []) ++ if vsftpdLogOpen T then c.vsftpdTexts else []

/-- And those of them that are to be one field each, as they are. -/
def LogCall.words (T : Tunables) (c : LogCall) : List Bytes :=
  if c.Transfers T then [c.view.remoteIpStr, c.view.identity] else []

section

variable {T : Tunables} {st : Stamp} {c : LogCall} {v : LogView} {succeeded : Bool}

theorem lf_not_mem_wuftpdFormat_iff (hst : st.Plain) :
    chLf ∉ vsfLogDoLogWuftpdFormat st v succeeded ↔ ∀ s ∈ v.xferTexts, chLf ∉ s := by
  have hname : chLf ∈ strReplaceChar v.logStr chSpace 95 ↔ chLf ∈ v.logStr := by
    constructor
    · intro h
      obtain ⟨b, hb, heq⟩ := List.mem_map.mp h
      split at heq
      · cases heq
      · exact heq ▸ hb
    · exact fun h => List.mem_map.mpr ⟨chLf, h, rfl⟩
  have hascii : chLf ∉ text (if v.isAscii then "a" else "b") := by split <;> decide
  have hway : chLf ∉ text (if v.logType = some .upload then "i" else "o") := by split <;> decide
  have hmode : chLf ∉ text v.accessMode := by unfold LogView.accessMode; (repeat' split) <;> decide
  have hstatus : chLf ∉ text (if succeeded then "c" else "i") := by split <;> decide
  have hrest : chLf ∉ text "_" ∧ chLf ∉ text "ftp" ∧ chLf ∉ text "0" ∧ chLf ∉ text "*" := by decide
  unfold vsfLogDoLogWuftpdFormat
  rw [List.mem_append, mem_intercalate_iff (by decide)]
  have hspace : chLf ≠ chSpace := by decide
  simp [wuftpdFields, LogView.xferTexts, hst.1, hname, lf_not_mem_ulongText, hascii, hway, hmode, hstatus, hrest, hspace]

theorem length_fieldsBehind_wuftpdFormat :
    (fieldsBehind st.date (vsfLogDoLogToFile (vsfLogDoLogWuftpdFormat st v succeeded))).length =
      13 + v.remoteIpStr.count chSpace + v.identity.count chSpace := by
  have hzero : ∀ s, chSpace ∉ s → List.count chSpace s = 0 := fun _ h => List.count_eq_zero.mpr h
  have hnumber : ∀ n, List.count chSpace (ulongText n) = 0 := fun n => hzero _ (not_mem_ulongText (by decide) n)
  have hname : List.count chSpace (strReplaceChar v.logStr chSpace 95) = 0 := hzero _ (not_mem_strReplaceChar (by decide) _)
  have hascii : List.count chSpace (text (if v.isAscii then "a" else "b")) = 0 := by split <;> decide
  have hway : List.count chSpace (text (if v.logType = some .upload then "i" else "o")) = 0 := by split <;> decide
  have hmode : List.count chSpace (text v.accessMode) = 0 := by unfold LogView.accessMode; (repeat' split) <;> decide
  have hstatus : List.count chSpace (text (if succeeded then "c" else "i")) = 0 := by split <;> decide
  have hrest : List.count chSpace (text "_") = 0 ∧ List.count chSpace (text "ftp") = 0 ∧
      List.count chSpace (text "0") = 0 ∧ List.count chSpace (text "*") = 0 := by decide
  have hbehind : fieldsBehind st.date (vsfLogDoLogToFile (vsfLogDoLogWuftpdFormat st v succeeded)) =
      ([chSpace].intercalate (wuftpdFields st v succeeded)).splitOn chSpace := by
    unfold fieldsBehind vsfLogDoLogToFile vsfLogDoLogWuftpdFormat
    rw [List.append_assoc, List.drop_left' (by rw [List.length_append]; rfl), List.dropLast_concat]
  rw [hbehind, length_splitOn, count_intercalate, if_pos rfl]
  simp [wuftpdFields, hnumber, hname, hascii, hway, hmode, hstatus, hrest]
  omega

/-- What comes in front of the client has the name of the user in it. -/
theorem lf_mem_vsftpdHead_iff (hst : st.Plain) : chLf ∈ vsftpdHead T st c ↔ chLf ∈ c.view.userStr := by
  have hdate : chLf ∉ (if T.syslogEnable then [] else st.date ++ text " [pid " ++ ulongText st.pid ++ text "] ") := by
    split
    · exact List.not_mem_nil
    · exact List.not_mem_append (List.not_mem_append (List.not_mem_append hst.1 (by decide)) (lf_not_mem_ulongText _)) (by decide)
  have hresult : chLf ∉ (if c.what ≠ .ftpInput ∧ c.what ≠ .ftpOutput ∧ c.what ≠ .connection ∧ c.what ≠ .debug then
      text (if c.succeeded then "OK " else "FAIL ") else []) := by
    split
    · cases c.succeeded <;> decide
    · exact List.not_mem_nil
  have haction : chLf ∉ text c.what.action := by cases c.what <;> decide
  have hframe : chLf ∉ text "[" ∧ chLf ∉ text "] " := by decide
  unfold vsftpdHead
  by_cases huser : c.view.userStr = []
  · simp only [List.mem_append, hdate, hresult, haction, huser, if_true, List.not_mem_nil, or_false]
  · simp only [List.mem_append, hdate, hresult, haction, huser, hframe, if_false, or_false, false_or]

theorem lf_not_mem_vsftpdTail (hst : st.Plain) : chLf ∉ vsftpdTail st c := by
  unfold vsftpdTail
  split
  · apply List.not_mem_append
    · split
      · exact List.not_mem_append (List.not_mem_append (by decide) (lf_not_mem_ulongText _)) (by decide)
      · exact List.not_mem_nil
    · split
      · exact List.not_mem_append (List.not_mem_append (by decide) hst.2) (by decide)
      · exact List.not_mem_nil
  · exact List.not_mem_nil

theorem lf_not_mem_vsftpdFormat_iff (hst : st.Plain) :
    chLf ∉ vsfLogDoLogVsftpdFormat T st c ↔ ∀ s ∈ c.vsftpdTexts, chLf ∉ s := by
  have hframe : chLf ∉ text ": Client \"" ∧ chLf ∉ text "\"" ∧ chLf ∉ text ", anon password \"" ∧
      chLf ∉ text ", \"" := by decide
  obtain ⟨hclient, hquote, hanon, hmsg⟩ := hframe
  have hpass : chLf ∈ (if c.what = .login ∧ c.view.anonPassStr ≠ [] then
      text ", anon password \"" ++ c.view.anonPassStr ++ text "\"" else []) ↔
      c.what = .login ∧ chLf ∈ c.view.anonPassStr := by
    by_cases hlogin : c.what = .login
    · by_cases hnone : c.view.anonPassStr = []
      · simp only [hnone, List.not_mem_nil, ne_eq, not_true_eq_false, and_false, if_false]
      · simp only [hlogin, hnone, hanon, hquote, List.mem_append, ne_eq, not_false_eq_true, and_self, if_true,
          or_false, false_or, true_and]
    · simp only [hlogin, false_and, if_false, List.not_mem_nil]
  have htext : chLf ∈ (if c.msg = [] then [] else text ", \"" ++ c.msg ++ text "\"") ↔ chLf ∈ c.msg := by
    by_cases hnone : c.msg = []
    · simp only [hnone, if_true]
    · simp only [hnone, hmsg, hquote, List.mem_append, if_false, or_false, false_or]
  have htexts : (∀ s ∈ c.vsftpdTexts, chLf ∉ s) ↔ chLf ∉ c.view.userStr ∧ chLf ∉ c.view.remoteIpStr ∧
      chLf ∉ c.msg ∧ (c.what = .login → chLf ∉ c.view.anonPassStr) := by
    unfold LogCall.vsftpdTexts
    by_cases hlogin : c.what = .login
    · simp [hlogin]
    · simp [hlogin]
  rw [htexts]
  unfold vsfLogDoLogVsftpdFormat
  simp only [List.mem_append, lf_mem_vsftpdHead_iff hst, hclient, hquote, hpass, htext,
    lf_not_mem_vsftpdTail hst, or_false, not_or, not_and, and_assoc]
  rw [and_comm (a := c.what = .login → _)]

/-- **What a call appends to each file is one line exactly if none of the texts that it copies has an LF.** -/
theorem vsfLogCommon_oneLine_iff (hst : st.Plain) :
    (∀ p ∈ vsfLogCommon T st c, OneLine p.2) ↔ ∀ s ∈ c.copied T, chLf ∉ s := by
  have hxfer : (∀ p ∈ (if c.Transfers T then
      [(LogFile.xferlog, vsfLogDoLogToFile (vsfLogDoLogWuftpdFormat st c.view c.succeeded))] else []), OneLine p.2) ↔
      ∀ s ∈ (if c.Transfers T then c.view.xferTexts else []), chLf ∉ s := by
    split
    · rw [List.forall_mem_singleton, vsfLogDoLogToFile, oneLine_append, lf_not_mem_wuftpdFormat_iff hst]
    · simp
  have hvsftpd : (∀ p ∈ (if vsftpdLogOpen T then
      [(LogFile.vsftpdLog, vsfLogDoLogToFile (vsfLogDoLogVsftpdFormat T st c))] else []), OneLine p.2) ↔
      ∀ s ∈ (if vsftpdLogOpen T then c.vsftpdTexts else []), chLf ∉ s := by
    split
    · rw [List.forall_mem_singleton, vsfLogDoLogToFile, oneLine_append, lf_not_mem_vsftpdFormat_iff hst]
    · simp
  unfold vsfLogCommon LogCall.copied
  rw [List.forall_mem_append, List.forall_mem_append]
  exact and_congr hxfer hvsftpd

/-- **Its line of xferlog has the thirteen fields exactly if the two words are words.** -/
theorem vsfLogCommon_fields_iff :
    (∀ p ∈ vsfLogCommon T st c, p.1 = .xferlog → (fieldsBehind st.date p.2).length = 13) ↔
      ∀ s ∈ c.words T, chSpace ∉ s := by
  have hcount : (fieldsBehind st.date (vsfLogDoLogToFile (vsfLogDoLogWuftpdFormat st c.view c.succeeded))).length = 13 ↔
      chSpace ∉ c.view.remoteIpStr ∧ chSpace ∉ c.view.identity := by
    rw [length_fieldsBehind_wuftpdFormat, ← List.count_eq_zero, ← List.count_eq_zero]
    omega
  unfold vsfLogCommon LogCall.words LogCall.Transfers
  rw [List.forall_mem_append]
  by_cases hxfer : xferlogOpen T ∧ vsfLogTypeIsTransfer c.what
  · by_cases hvsftpd : vsftpdLogOpen T = true
    · simp [hxfer, hvsftpd, hcount]
    · simp [hxfer, hvsftpd, hcount]
  · by_cases hvsftpd : vsftpdLogOpen T = true
    · simp [hxfer, hvsftpd]
    · simp [hxfer, hvsftpd]

end

end CosFtp
