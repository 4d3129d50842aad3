/-
# The TLS slave and its consumer stay in step

Every call of the consumer is made for the round of the slave that it asks for
(`SslCall.dual`), as long as each of the two has the data connection as the other has it:
the slave has a descriptor and an SSL object exactly where the consumer has an
established connection (`Synced`). A handshake that fails, a read that fails and a close
behind a handshake that failed keep them so (`serve_synced`). So the two stay in step in
any order of their steps, whatever a session calls, and each call returns what the
slave's own operation comes to.

Key definitions: `Synced`, `tlsOutOfStep`, `SessionEnds`, `SlaveEnds`.
Key theorems: `serve_synced`, `SslCall.dual`, `script_dual`, `reachable_orderly`.
-/
import CosFtp.SslSlave

namespace CosFtp
namespace Tls

open Wp Duplex

/-- The ends of a slave, or of a consumer, that has read what was not meant for it or has
lost what its data connection is. -/
def tlsOutOfStep : List Halt :=
  [.bug "state not clean", .bug "invalid state", .bug "bad size", .bug "recv_len bigger than buffer",
    .die "bad request in process_ssl_slave_req", .die "priv_sock_get_str: too big", .die "no passed fd",
    .die "sendmsg", .die "p_data_ssl should be NULL.", .bug "poor buffer accounting in str_netfd_alloc"]

/-- An end for another reason. -/
def TlsInStep (e : Halt) : Prop := e ∉ tlsOutOfStep

instance : DecidablePred TlsInStep := fun e => inferInstanceAs (Decidable (e ∉ tlsOutOfStep))

/-- The data connection is as it was. -/
def SameConn (s s' : SslState) : Prop := s'.dataFd = s.dataFd ∧ s'.dataSsl = s.dataSsl

instance : Std.Refl SameConn := ⟨fun _ => ⟨rfl, rfl⟩⟩

instance : IsTrans SslState SameConn := ⟨fun _ _ _ h h' => ⟨h'.1.trans h.1, h'.2.trans h.2⟩⟩

/-- OpenSSL's own texts have a prefix that none of the others has. -/
theorem inStep_sslError (a : SslAnswers) : TlsInStep (.die (getSslError a)) := by
  intro hmem
  have hprefix : (getSslError a).toList.take 6 = "error:".toList := by
    rw [getSslError, String.toList_append]
    exact List.take_left' (by decide)
  have hnone : ∀ e ∈ tlsOutOfStep, ∀ msg, e = .die msg → msg.toList.take 6 ≠ "error:".toList := by
    intro e he msg heq
    subst heq
    simp only [tlsOutOfStep, List.mem_cons, List.not_mem_nil, or_false, Halt.die.injEq, reduceCtorEq,
      false_or] at he
    rcases he with rfl | rfl | rfl | rfl | rfl <;> decide
  exact hnone _ hmem _ rfl hprefix

section

variable {T : SslTunables} {a : SslAnswers} {s : SslState}

/-! ### What the functions of ssl.c keep and return -/

theorem emit_same (e : SslEvent) : Within SameConn TlsInStep (emit e) := within_modify fun _ => ⟨rfl, rfl⟩

theorem sslCall_same : Within SameConn TlsInStep sslCall := by
  intro s
  unfold sslCall
  rw [wp_bind, wp_get]
  cases s.io with
  | nil => exact ⟨by decide, rfl, rfl⟩
  | cons o io => exact ⟨rfl, rfl⟩

theorem sslRetry_same : Within SameConn TlsInStep sslRetry := by
  intro s
  unfold sslRetry
  rw [wp_bind, wp_get]
  cases afterWants s.io with
  | none => exact ⟨by decide, rfl, rfl⟩
  | some r => exact ⟨rfl, rfl⟩

theorem sslEof_spec (isData : Bool) (s : SslState) :
    wp (sslEof T a isData) (fun ret s' => (ret = 0 ∨ ret = -1) ∧ SameConn s s') (fun _ _ => False) s := by
  have hret : (if T.strictSslReadEof then (-1 : ℤ) else 0) = 0 ∨ (if T.strictSslReadEof then (-1 : ℤ) else 0) = -1 := by
    split
    · exact .inr rfl
    · exact .inl rfl
  unfold sslEof
  exact wp_branch ⟨.inl rfl, rfl, rfl⟩ ⟨hret, rfl, rfl⟩

/-- What a read returns: a count or an error, and at most as many bytes as there is room for. -/
structure ReadRet (len : ℕ) (r : ℤ × Bytes) : Prop where
  lower : -1 ≤ r.1
  upper : r.1 ≤ len
  fits : r.2.length ≤ len

/-- A count of the bytes, or an error and none. -/
def Counted (r : ℤ × Bytes) : Prop := r.1 = r.2.length ∨ r.1 = -1 ∧ r.2 = []

theorem sslReadCommon_reads (isData : Bool) (len : ℕ) (s : SslState) :
    wp (sslReadCommon T a isData len) (fun r s' => ReadRet len r ∧ SameConn s s' ∧ Counted r)
      (fun e _ => TlsInStep e) s := by
  have herror : ReadRet len (-1, []) := ⟨by simp, by omega, by simp⟩
  unfold sslReadCommon
  rw [wp_bind]
  refine wp_mono (sslRetry_same s) ?_ (fun _ _ he => he.1)
  intro o s1 hs1
  cases o with
  | want => exact ⟨herror, hs1, .inr ⟨rfl, rfl⟩⟩
  | error => exact ⟨herror, hs1, .inr ⟨rfl, rfl⟩⟩
  | done bs =>
    refine wp_cases (fun _ => ?_) fun _ => ?_
    · rw [wp_bind]
      refine wp_mono (sslEof_spec isData s1) ?_ (fun _ _ he => he.elim)
      rintro ret s2 ⟨hret, hs2⟩
      refine ⟨⟨?_, ?_, by simp⟩, IsTrans.trans _ _ _ hs1 hs2, ?_⟩
      · show -1 ≤ ret
        omega
      · show ret ≤ len
        omega
      · exact hret.imp id fun h => ⟨h, rfl⟩
    · have hlen : (bs.take len).length ≤ len := List.length_take_le _ _
      refine ⟨⟨?_, ?_, hlen⟩, hs1, .inl rfl⟩
      · show (-1 : ℤ) ≤ ((bs.take len).length : ℕ)
        omega
      · show (((bs.take len).length : ℕ) : ℤ) ≤ len
        omega

theorem sslRead_reads (isData : Bool) (len : ℕ) (s : SslState) :
    wp (sslRead T a isData len) (fun r s' => ReadRet len r ∧ SameConn s s' ∧ Counted r)
      (fun e _ => TlsInStep e) s := by
  unfold sslRead
  rw [wp_bind]
  refine wp_mono (sslReadCommon_reads isData len s) ?_ (fun _ _ he => he)
  rintro r s1 ⟨hret, hsame, hcount⟩
  exact ⟨hret, ⟨hsame.1, hsame.2⟩, hcount⟩

theorem sslReadIntoStr_reads (len : ℕ) (s : SslState) :
    wp (sslReadIntoStr T a len) (fun r s' => ReadRet len r ∧ SameConn s s') (fun e _ => TlsInStep e) s := by
  unfold sslReadIntoStr
  rw [wp_bind]
  refine wp_mono (sslRead_reads true len s) ?_ (fun _ _ he => he)
  rintro r s1 ⟨hret, hsame, -⟩
  rw [wp_pure]
  refine ⟨?_, hsame⟩
  by_cases hneg : 0 ≤ r.1
  · rw [if_pos hneg]
    exact ⟨hret.lower, hret.upper, (List.length_take_le' _ _).trans hret.fits⟩
  · rw [if_neg hneg]
    exact ⟨hret.lower, hret.upper, Nat.zero_le _⟩

theorem sslWritten_spec (isData : Bool) (buf : Bytes) (o : SslIo) (s : SslState) :
    wp (sslWritten isData buf o) (fun ret s' => (-1 ≤ ret ∧ ret ≤ buf.length) ∧ SameConn s s') (fun _ _ => False) s := by
  have herror : (-1 : ℤ) ≤ -1 ∧ (-1 : ℤ) ≤ buf.length := ⟨by omega, by omega⟩
  cases o with
  | want => exact ⟨herror, rfl, rfl⟩
  | error => exact ⟨herror, rfl, rfl⟩
  | done bs =>
    unfold sslWritten
    rw [wp_bind]
    exact ⟨⟨by omega, by omega⟩, rfl, rfl⟩

theorem sslWrite_spec (isData : Bool) (buf : Bytes) (s : SslState) :
    wp (sslWrite isData buf) (fun ret s' => (-1 ≤ ret ∧ ret ≤ buf.length) ∧ SameConn s s')
      (fun e _ => TlsInStep e) s := by
  unfold sslWrite
  rw [wp_bind]
  refine wp_mono (sslRetry_same s) ?_ (fun _ _ he => he.1)
  intro o s1 hs1
  refine wp_mono (sslWritten_spec isData buf o s1) ?_ (fun _ _ he => he.elim)
  exact fun ret s2 hs2 => ⟨hs2.1, IsTrans.trans _ _ _ hs1 hs2.2⟩

theorem sslWriteStr_spec (isData : Bool) (str : Bytes) (s : SslState) :
    wp (sslWriteStr isData str) (fun ret s' => (ret = 0 ∨ ret = -1) ∧ SameConn s s') (fun e _ => TlsInStep e) s := by
  unfold sslWriteStr
  rw [wp_bind]
  refine wp_mono (sslCall_same s) ?_ (fun _ _ he => he.1)
  intro o s1 hs1
  rw [wp_bind]
  refine wp_mono (sslWritten_spec isData str o s1) ?_ (fun _ _ he => he.elim)
  intro ret s2 hs2
  rw [wp_pure]
  refine ⟨?_, IsTrans.trans _ _ _ hs1 hs2.2⟩
  split
  · exact .inl rfl
  · exact .inr rfl

/-- The rounds of `str_netfd_alloc`: each takes the buffer on, and the line fits into it. -/
theorem sslNetfdAlloc_reads (rounds : ℕ) : ∀ (got : Bytes) (left : ℕ) (s : SslState),
    got.length + left = vsftpMaxCommandLine →
    wp (sslNetfdAlloc T a rounds got left) (fun r s' => ReadRet vsftpMaxCommandLine r ∧ SameConn s s')
      (fun e _ => TlsInStep e) s := by
  induction rounds with
  | zero => exact fun got left s _ => (by decide : TlsInStep .running)
  | succ rounds ih =>
    intro got left s hsum
    unfold sslNetfdAlloc
    refine wp_cases (fun hne => absurd hsum hne) fun _ => wp_cases (fun _ => ?_) fun _ => ?_
    · exact ⟨⟨by simp, by simp [vsftpMaxCommandLine], by simp⟩, rfl, rfl⟩
    rw [wp_bind]
    refine wp_mono (sslReadCommon_reads false left s) ?_ (fun _ _ he => he)
    rintro seen s1 ⟨hseen, hs1, hcounted⟩
    refine wp_cases (fun _ => (by decide : TlsInStep (.die "vsf_sysutil_recv_peek"))) fun hnonneg =>
      wp_cases (fun _ => ?_) fun hzero => ?_
    · exact ⟨⟨by simp, by simp, by simp⟩, hs1⟩
    have hcount : seen.1 = seen.2.length := hcounted.resolve_right fun h => by omega
    have hfits := hseen.fits
    cases hfind : seen.2.findIdx? (· = chLf) with
    | some i =>
      have hi : i < seen.2.length := List.findIdx?_eq_some_iff_getElem.mp hfind |>.1
      rw [wp_bind]
      refine wp_mono (sslRead_reads false (i + 1) s1) ?_ (fun _ _ he => he)
      rintro r s2 ⟨hr, hs2, -⟩
      refine wp_cases (fun _ => (by decide : TlsInStep (.die "vsf_sysutil_read_loop"))) fun _ =>
        wp_cases (fun _ => (by decide : TlsInStep (.die "missing terminator in str_netfd_alloc"))) fun _ => ?_
      rw [wp_pure]
      have hline : ((got ++ r.2).takeWhile (· ≠ chLf)).length ≤ (got ++ r.2).length :=
        (List.takeWhile_prefix _).length_le
      have hread := hr.fits
      rw [List.length_append] at hline
      refine ⟨⟨?_, ?_, ?_⟩, IsTrans.trans _ _ _ hs1 hs2⟩
      · show (-1 : ℤ) ≤ i + 1
        omega
      · show (i + 1 : ℤ) ≤ vsftpMaxCommandLine
        omega
      · show ((got ++ r.2).takeWhile (· ≠ chLf)).length ≤ vsftpMaxCommandLine
        omega
    | none =>
      rw [wp_bind]
      refine wp_mono (sslRead_reads false seen.2.length s1) ?_ (fun _ _ he => he)
      rintro r s2 ⟨hr, hs2, hread⟩
      refine wp_cases (fun _ => (by decide : TlsInStep (.die "vsf_sysutil_read_loop"))) fun hall => ?_
      have hread' : r.1 = r.2.length := hread.resolve_right fun h => by omega
      have hlen : r.2.length = seen.2.length := by omega
      refine wp_mono (ih (got ++ r.2) (left - seen.2.length) s2 ?_) ?_ (fun _ _ he => he)
      · rw [List.length_append]
        omega
      · exact fun r' s3 h => ⟨h.1, IsTrans.trans _ _ _ (IsTrans.trans _ _ _ hs1 hs2) h.2⟩

theorem sslGetline_reads (s : SslState) :
    wp (sslGetline T a) (fun r s' => ReadRet vsftpMaxCommandLine r ∧ SameConn s s') (fun e _ => TlsInStep e) s :=
  sslNetfdAlloc_reads _ _ _ s (by simp)

/-! ### The data connection -/

/-- The SSL object is gone. -/
def Freed (s s' : SslState) : Prop := s'.dataFd = s.dataFd ∧ s'.dataSsl = false

theorem sslDataClose_spec (s : SslState) :
    wp (sslDataClose T a) (fun _ s' => Freed s s') (fun _ _ => False) s := by
  unfold sslDataClose
  rw [wp_bind, wp_get]
  refine wp_cases (fun hnone => ⟨rfl, by simpa using hnone⟩) fun _ => ?_
  cases a.shutdown with
  | sent => exact ⟨rfl, rfl⟩
  | both => exact ⟨rfl, rfl⟩
  | error => exact ⟨rfl, rfl⟩

theorem sslRefuse_spec (line : String) (s : SslState) :
    wp (sslRefuse T a line) (fun ok s' => ok = false ∧ Freed s s') (fun _ _ => False) s := by
  unfold sslRefuse
  rw [wp_bind]
  show wp (do
    let _ ← sslDataClose T a
    pure false) _ _ { s with events := s.events ++ [.log line] }
  rw [wp_bind]
  exact wp_mono (sslDataClose_spec _) (fun _ s' hs' => ⟨rfl, hs'.1, hs'.2⟩) fun _ _ he => he

/-- The SSL object is there exactly where the handshake has succeeded. -/
def Accepted (s : SslState) (ok : Bool) (s' : SslState) : Prop := s'.dataFd = s.dataFd ∧ s'.dataSsl = ok

theorem sslCheckCert_spec (s : SslState) (hssl : s.dataSsl = true) :
    wp (sslCheckCert T a) (Accepted s) (fun e _ => TlsInStep e) s := by
  have hrefuse : ∀ line, wp (sslRefuse T a line) (Accepted s) (fun e _ => TlsInStep e) s := by
    intro line
    refine wp_mono (sslRefuse_spec line s) ?_ (fun _ _ he => he.elim)
    rintro ok s' ⟨rfl, hfreed⟩
    exact hfreed
  unfold sslCheckCert
  rw [wp_bind, wp_get]
  refine wp_cases (fun _ => ⟨rfl, hssl⟩) fun _ => ?_
  cases a.peerCert with
  | none => exact hrefuse _
  | unreadable => exact (by decide : TlsInStep (.die "X509_digest failed"))
  | digest d => exact wp_branch (hrefuse _) ⟨rfl, hssl⟩

theorem getSsl_same : Within SameConn TlsInStep (getSsl a) := by
  refine within_ite (within_pure _) (within_ite (within_pure _) (within_ite (within_throw (inStep_sslError a)) ?_))
  exact within_bind (emit_same _) fun _ => within_pure _

theorem sslAccept_spec (s : SslState) (hssl : s.dataSsl = false) :
    wp (sslAccept T a) (Accepted s) (fun e _ => TlsInStep e) s := by
  unfold sslAccept
  rw [wp_bind, wp_get, if_neg (by simp [hssl]), wp_bind]
  refine wp_mono (getSsl_same s) ?_ (fun _ _ he => he.1)
  intro ok s1 hs1
  refine wp_cases (fun _ => ⟨hs1.1, hs1.2.trans hssl⟩) fun _ => ?_
  rw [wp_bind, wp_modify]
  refine wp_branch ?_ ?_
  · refine wp_mono (sslRefuse_spec _ _) ?_ (fun _ _ he => he.elim)
    rintro ok' s' ⟨rfl, hfreed⟩
    exact ⟨hfreed.1.trans hs1.1, hfreed.2⟩
  · exact wp_mono (sslCheckCert_spec _ rfl) (fun ok' s' h => ⟨h.1.trans hs1.1, h.2⟩) fun _ _ he => he

theorem closeDataFd_spec (s : SslState) :
    wp (closeDataFd a) (fun _ s' => s'.dataFd = none ∧ s'.dataSsl = s.dataSsl) (fun e _ => TlsInStep e) s := by
  unfold closeDataFd
  exact wp_branch (by decide : TlsInStep (.die "close")) ⟨rfl, rfl⟩

theorem doSslHandshake_spec (fd : Fd) (s : SslState) (hssl : s.dataSsl = false) :
    wp (doSslHandshake T a fd) (fun ok s' => s'.dataFd.isSome = ok ∧ s'.dataSsl = ok) (fun e _ => TlsInStep e) s := by
  unfold doSslHandshake
  rw [wp_bind, wp_modify, wp_bind]
  refine wp_mono (sslAccept_spec _ hssl) ?_ (fun _ _ he => he)
  intro ok s1 hs1
  cases ok with
  | true =>
    refine ⟨?_, hs1.2⟩
    rw [hs1.1]
    rfl
  | false =>
    show wp (do
      closeDataFd a
      pure false) _ _ s1
    rw [wp_bind]
    refine wp_mono (closeDataFd_spec s1) ?_ (fun _ _ he => he)
    intro _ s2 hs2
    refine ⟨?_, hs2.2.trans hs1.2⟩
    rw [hs2.1]
    rfl

theorem doSslClose_spec (s : SslState) :
    wp (doSslClose T a) (fun _ s' => s'.dataFd = none ∧ s'.dataSsl = false) (fun e _ => TlsInStep e) s := by
  unfold doSslClose
  rw [wp_bind]
  refine wp_mono (sslDataClose_spec s) ?_ (fun _ _ he => he.elim)
  intro ok s1 hs1
  rw [wp_bind]
  exact wp_mono (closeDataFd_spec s1) (fun _ s2 hs2 => ⟨hs2.1, hs2.2.trans hs1.2⟩) fun _ _ he => he

end

/-! ### A call keeps the two in step -/

/-- The slave has a connection exactly where the consumer has an established one. -/
structure Synced (c : Consumer) (s : SslState) : Prop where
  fd : s.dataFd.isSome = c.established
  ssl : s.dataSsl = c.established
  isOpen : c.established = true → c.dataUseSsl = true ∧ c.dataFd ≠ none

theorem Synced.same {c : Consumer} {s s' : SslState} (h : Synced c s) (hs : SameConn s s') : Synced c s' :=
  ⟨by rw [hs.1, h.fd], by rw [hs.2, h.ssl], h.isOpen⟩

/-- What a call can return where it goes to the slave. -/
def SslCall.Returns (r : Reply) : SslCall → Prop
  | .ftpGetline => ReadRet vsftpMaxCommandLine (r.ret, r.str) ∧ (r.ret < 0 → r.str = [])
  | .ftpWriteControl _ => (r.ret = 0 ∨ r.ret = -1) ∧ r.str = []
  | .ftpReadData len => ReadRet len (r.ret, r.str)
  | .ftpWriteData buf => (-1 ≤ r.ret ∧ r.ret ≤ buf.length) ∧ r.str = []
  | _ => r.str = []

section

variable {T : SslTunables} {a : SslAnswers} {s : SslState} {c : Consumer}

theorem wp_withAnswers {α : Type} {x : SslM α} {Q : α → SslState → Prop} {E : Halt → SslState → Prop} :
    wp (withAnswers a x) Q E s ↔ wp x Q E { s with io := a.io } := by
  unfold withAnswers
  rw [wp_bind, wp_modify]

/-- **A call that the slave serves keeps the two in step**, whatever OpenSSL answers, and the slave does
not end out of step. -/
theorem serve_synced (call : SslCall) (hsync : Synced c s) (hpermits : c.Permits call) (hasks : c.asks call = true) :
    wp (call.serve T a) (fun r s' => Synced (c.after r call) s' ∧ call.Returns r) (fun e _ => TlsInStep e) s := by
  have hsame : ∀ {s'}, SameConn { s with io := a.io } s' → Synced c s' := fun h => hsync.same ⟨h.1, h.2⟩
  cases call with
  | ftpGetline =>
    rw [SslCall.serve, wp_map, wp_withAnswers]
    refine wp_mono (sslGetline_reads _) ?_ (fun _ _ he => he)
    rintro r s' ⟨hret, hs'⟩
    rw [ofGetline]
    by_cases hpos : 0 ≤ r.1
    · rw [if_pos hpos]
      exact ⟨hsame hs', hret, fun hneg => absurd hpos (Int.not_le.mpr hneg)⟩
    · rw [if_neg hpos]
      exact ⟨hsame hs', ⟨hret.lower, hret.upper, Nat.zero_le _⟩, fun _ => rfl⟩
  | ftpWriteControl str =>
    rw [SslCall.serve, wp_map, wp_withAnswers]
    exact wp_mono (sslWriteStr_spec false str _) (fun ret s' h => ⟨hsame h.2, h.1, rfl⟩) fun _ _ he => he
  | ftpWriteStr str =>
    rw [SslCall.serve, wp_map, wp_withAnswers]
    exact wp_mono (sslWrite_spec true str _) (fun ret s' h => ⟨hsame h.2, rfl⟩) fun _ _ he => he
  | ftpReadData len =>
    rw [SslCall.serve, wp_map, wp_withAnswers]
    exact wp_mono (sslReadIntoStr_reads len _) (fun r s' h => ⟨hsame h.2, h.1⟩) fun _ _ he => he
  | ftpWriteData buf =>
    rw [SslCall.serve, wp_map, wp_withAnswers]
    exact wp_mono (sslWrite_spec true buf _) (fun ret s' h => ⟨hsame h.2, h.1, rfl⟩) fun _ _ he => he
  | initDataSockParams fd => cases hasks
  | handleProt isPrivate => cases hasks
  | postMarkConnect =>
    have huse : c.dataUseSsl = true := hasks
    have hclear : s.dataSsl = false := hsync.ssl.trans hpermits.2
    rw [SslCall.serve, wp_map, wp_withAnswers]
    refine wp_mono (doSslHandshake_spec a.fd _ hclear) ?_ (fun _ _ he => he)
    rintro ok s' ⟨hfd, hssl⟩
    have hest : (c.after (ofOk false ok) .postMarkConnect).established = ok := by
      show (c.dataUseSsl && decide ((ofOk false ok).ret = 1)) = ok
      rw [huse]
      cases ok <;> rfl
    exact ⟨⟨hfd.trans hest.symm, hssl.trans hest.symm, fun _ => ⟨huse, hpermits.1⟩⟩, rfl⟩
  | disposeTransferFd cut =>
    have hgone : ∀ r s', s'.dataFd = none → s'.dataSsl = false →
        Synced (c.after r (.disposeTransferFd cut)) s' := by
      intro r s' hfd hssl
      exact ⟨by rw [hfd]; rfl, hssl, fun h => by cases h⟩
    rw [SslCall.serve, wp_bind, wp_get]
    refine wp_cases (fun _ => ?_) fun hnone => ?_
    · rw [wp_map, wp_withAnswers]
      exact wp_mono (doSslClose_spec _) (fun ok s' h => ⟨hgone _ s' h.1 h.2, rfl⟩) fun _ _ he => he
    · have hssl : s.dataSsl = false := by simpa using hnone
      have hfd : s.dataFd.isSome = false := by rw [hsync.fd, ← hsync.ssl, hssl]
      exact ⟨hgone _ s (by simpa using hfd) hssl, rfl⟩

end

/-! ### What is sent is what is waited for -/

section

variable {fin : ConsumerEnd → SslProc Halt → Prop} {dead : Halt → Prop} {p : SslProc ConsumerEnd}
  {q : SslProc Halt}

theorem asUnsigned_nat {n : ℕ} (h : n < 2 ^ 31) : asUnsigned n = n := by
  unfold asUnsigned
  omega

theorem map_fst_units (bs : Bytes) : (bs.map fun b => ((b, none) : PrivUnit)).map (·.1) = bs := by
  rw [List.map_map]
  exact List.map_id _

theorem int_toSlave {n : ℤ} {f : ℤ → SslProc Halt} (hn : -(2 ^ 31) ≤ n ∧ n < 2 ^ 31)
    (h : Dual .cmd fin dead p (f n)) (hnext : p.Waits ∨ p.Busy ∧ (f n).Waits) :
    Dual .cmd fin dead (privSockSendInt n p) (privSockGetInt f) := by
  have hread : intOfBytes (((intBytes n).map fun b => ((b, none) : PrivUnit)).map (·.1)) = n := by
    rw [map_fst_units, intOfBytes_intBytes hn]
  refine Dual.sendMany (by rw [List.length_map, length_intBytes]) ?_ ?_
  · rw [hread]
    exact h
  · rw [hread]
    exact hnext

theorem str_toSlave {str : Bytes} {f : Bytes → SslProc Halt} (hlen : str.length ≤ vsftpPrivsockMaxstr)
    (h : Dual .cmd fin dead p (f str)) (hwaits : p.Waits) :
    Dual .cmd fin dead (privSockSendStr str p) (privSockGetStr id f) := by
  have hmax : vsftpPrivsockMaxstr < 2 ^ 31 := by decide
  have hcount : asUnsigned (str.length : ℤ) = str.length := asUnsigned_nat (by omega)
  have hunits : (str.map fun b => ((b, none) : PrivUnit)).length = str.length := List.length_map _
  unfold privSockSendStr privSockGetStr
  refine int_toSlave ⟨by omega, by omega⟩ ?_ ?_
  · rw [hcount, if_neg (by omega)]
    refine Dual.sendAll hunits ?_ hwaits
    rw [map_fst_units]
    exact h
  · rw [hcount, if_neg (by omega)]
    cases str with
    | nil => exact .inl hwaits
    | cons b bs => exact .inr ⟨trivial, _, _, rfl⟩

theorem int_toConsumer {n : ℤ} {f : ℤ → SslProc ConsumerEnd} (hn : -(2 ^ 31) ≤ n ∧ n < 2 ^ 31)
    (h : Dual .cmd fin dead (f n) q) : Dual .cmd fin dead (privSockGetInt f) (privSockSendInt n q) := by
  refine Dual.recvAll (by rw [List.length_map, length_intBytes]) ?_
  rw [map_fst_units, intOfBytes_intBytes hn]
  exact h

/-- A string, for a reader with room for `max` bytes. -/
theorem str_toConsumer {str : Bytes} {max : ℕ} {e : ConsumerEnd} {f : Bytes → SslProc ConsumerEnd}
    (hlen : str.length ≤ max) (hmax : max < 2 ^ 31) (h : Dual .cmd fin dead (f str) q) :
    Dual .cmd fin dead
      (privSockGetInt fun len =>
        if max < asUnsigned len then .stop e
        else .recvAll .str (asUnsigned len) fun us => f (us.map (·.1)))
      (privSockSendStr str q) := by
  have hcount : asUnsigned (str.length : ℤ) = str.length := asUnsigned_nat (by omega)
  unfold privSockSendStr
  refine int_toConsumer ⟨by omega, by omega⟩ ?_
  rw [hcount, if_neg (by omega)]
  refine Dual.recvAll (List.length_map _) ?_
  rw [map_fst_units]
  exact h

theorem getStr_toConsumer {str : Bytes} {f : Bytes → SslProc ConsumerEnd} (hlen : str.length ≤ vsftpPrivsockMaxstr)
    (h : Dual .cmd fin dead (f str) q) :
    Dual .cmd fin dead (privSockGetStr .halted f) (privSockSendStr str q) :=
  str_toConsumer hlen (by decide) h

theorem recvBuf_toConsumer {str : Bytes} {len : ℕ} {f : Bytes → SslProc ConsumerEnd} (hlen : str.length ≤ len)
    (hmax : len ≤ vsftpDataBufsize) (h : Dual .cmd fin dead (f str) q) :
    Dual .cmd fin dead (privSockRecvBuf .halted len f) (privSockSendStr str q) :=
  str_toConsumer hlen (Nat.lt_of_le_of_lt hmax (by decide)) h

theorem result_toConsumer {b : Bool} {f : UInt8 → SslProc ConsumerEnd}
    (h : Dual .cmd fin dead (f (if b then privSockResultOk else privSockResultBad)) q) :
    Dual .cmd fin dead (privSockGetResult f) (privSockSendResult b q) := .recv h

/-- What the slave does with an operation of its own, by what the operation comes to. -/
theorem onResult_dual {α : Type} {x : SslM α} {s : SslState} {k : α → SslState → SslProc Halt}
    (hok : ∀ v s', x s = .ok v s' → Dual .cmd fin dead p (k v s')) (hdead : ∀ e s', x s = .error e s' → dead e) :
    Dual .cmd fin dead p (onResult x s k) := by
  unfold onResult
  cases hx : x s with
  | ok v s' => exact hok v s' hx
  | error e s' => exact .dead (hdead e s' hx)

end

/-! ### A call and its round are made for each other -/

section

variable {fin : ConsumerEnd → SslProc Halt → Prop} {dead : Halt → Prop} {T : SslTunables} {a : SslAnswers}
  {s : SslState} {c : Consumer} {plain : Reply} {next : Reply → SslProc ConsumerEnd}
  {next' : SslState → SslProc Halt}

/-- Where a command has been sent, the slave's side of it comes next. -/
theorem cmd_dual {cmd : UInt8} {p : SslProc ConsumerEnd} (h : Dual .cmd fin dead p (slaveCmd T a s next' cmd))
    (hnext : p.Waits ∨ p.Busy ∧ (slaveCmd T a s next' cmd).Waits) :
    Dual .cmd fin dead (privSockSendCmd cmd p) (slaveReq T a s next') := .send h hnext

theorem slaveCmd_getUserCmd : slaveCmd T a s next' privSockGetUserCmd = slaveGetUserCmd T a s next' := rfl

theorem slaveCmd_writeUserResp : slaveCmd T a s next' privSockWriteUserResp = slaveWriteUserResp a s next' := rfl

theorem slaveCmd_handshake : slaveCmd T a s next' privSockDoSslHandshake = slaveHandshake T a s next' := rfl

theorem slaveCmd_read : slaveCmd T a s next' privSockDoSslRead = slaveRead T a s next' := rfl

theorem slaveCmd_write : slaveCmd T a s next' privSockDoSslWrite = slaveWrite a s next' := rfl

theorem slaveCmd_close : slaveCmd T a s next' privSockDoSslClose = slaveClose T a s next' := rfl

theorem ftpGetline_dual
    (hok : ∀ r s', withAnswers a (sslGetline T a) s = .ok r s' → Dual .cmd fin dead (next (ofGetline r)) (next' s'))
    (hdead : ∀ e s', withAnswers a (sslGetline T a) s = .error e s' → dead e) :
    Dual .cmd fin dead (SslCall.run c plain next .ftpGetline) (slaveReq T a s next') := by
  have hline : vsftpMaxCommandLine < 2 ^ 31 ∧ vsftpMaxCommandLine ≤ vsftpPrivsockMaxstr := by decide
  refine cmd_dual ?_ (.inl ⟨_, _, rfl⟩)
  rw [slaveCmd_getUserCmd]
  refine onResult_dual ?_ hdead
  intro r s' hx
  have hread := (ok_of_wp (wp_withAnswers.mpr (sslGetline_reads _)) hx).1
  have hlower := hread.lower
  have hupper := hread.upper
  have hnext := hok r s' hx
  unfold ofGetline at hnext
  refine int_toConsumer ⟨by omega, by omega⟩ ?_
  by_cases hpos : 0 ≤ r.1
  · rw [if_pos hpos] at hnext ⊢
    rw [if_pos hpos]
    exact getStr_toConsumer (hread.fits.trans hline.2) hnext
  · rw [if_neg hpos] at hnext ⊢
    rw [if_neg hpos]
    exact hnext

theorem ftpWriteControl_dual {str : Bytes} (hlen : str.length ≤ vsftpPrivsockMaxstr)
    (hok : ∀ ret s', withAnswers a (sslWriteStr false str) s = .ok ret s' →
      Dual .cmd fin dead (next (ofRet ret)) (next' s'))
    (hdead : ∀ e s', withAnswers a (sslWriteStr false str) s = .error e s' → dead e) :
    Dual .cmd fin dead (SslCall.run c plain next (.ftpWriteControl str)) (slaveReq T a s next') := by
  refine cmd_dual ?_ (.inr ⟨trivial, _, _, rfl⟩)
  rw [slaveCmd_writeUserResp]
  refine str_toSlave hlen (onResult_dual ?_ hdead) ⟨_, _, rfl⟩
  intro ret s' hx
  have hret := (ok_of_wp (wp_withAnswers.mpr (sslWriteStr_spec false str _)) hx).1
  exact int_toConsumer ⟨by omega, by omega⟩ (hok ret s' hx)

/-- `ftp_write_data` and `ftp_write_str`, which read the slave's count in two ways. -/
theorem slaveWrite_dual {buf : Bytes} {f : ℤ → SslProc ConsumerEnd} (hlen : buf.length ≤ vsftpPrivsockMaxstr)
    (hconn : ¬ noConnection s)
    (hok : ∀ ret s', withAnswers a (sslWrite true buf) s = .ok ret s' → Dual .cmd fin dead (f ret) (next' s'))
    (hdead : ∀ e s', withAnswers a (sslWrite true buf) s = .error e s' → dead e) :
    Dual .cmd fin dead (privSockSendCmd privSockDoSslWrite <| privSockSendStr buf <| privSockGetInt f)
      (slaveReq T a s next') := by
  have hmaxstr : vsftpPrivsockMaxstr < 2 ^ 31 := by decide
  have hcmd : slaveCmd T a s next' privSockDoSslWrite = privSockGetStr id fun buf =>
      onResult (withAnswers a (sslWrite true buf)) s fun ret s' => privSockSendInt ret (next' s') := by
    rw [slaveCmd_write, slaveWrite, if_neg hconn]
  refine cmd_dual ?_ (.inr ⟨trivial, ?_⟩)
  · rw [hcmd]
    refine str_toSlave hlen (onResult_dual ?_ hdead) ⟨_, _, rfl⟩
    intro ret s' hx
    have hret := (ok_of_wp (wp_withAnswers.mpr (sslWrite_spec true buf _)) hx).1
    exact int_toConsumer ⟨by omega, by omega⟩ (hok ret s' hx)
  · rw [hcmd]
    exact ⟨_, _, rfl⟩

theorem ftpReadData_dual {len : ℕ} (hlen : 0 < len ∧ len ≤ vsftpDataBufsize) (huse : c.dataUseSsl = true)
    (hconn : ¬ noConnection s)
    (hok : ∀ r s', withAnswers a (sslReadIntoStr T a len) s = .ok r s' →
      Dual .cmd fin dead (next (ofRead r)) (next' s'))
    (hdead : ∀ e s', withAnswers a (sslReadIntoStr T a len) s = .error e s' → dead e) :
    Dual .cmd fin dead (SslCall.run c plain next (.ftpReadData len)) (slaveReq T a s next') := by
  have hbufsize : vsftpDataBufsize < 2 ^ 31 := by decide
  rw [SslCall.run, if_pos huse]
  refine cmd_dual ?_ (.inr ⟨trivial, ?_⟩)
  · rw [slaveCmd_read, slaveRead]
    refine int_toSlave ⟨by omega, by omega⟩ ?_ (.inl ⟨_, _, rfl⟩)
    rw [if_neg (by omega), if_neg hconn, Int.toNat_natCast]
    refine onResult_dual ?_ hdead
    intro r s' hx
    have hread := (ok_of_wp (wp_withAnswers.mpr (sslReadIntoStr_reads len _)) hx).1
    have hlower := hread.lower
    have hupper := hread.upper
    exact int_toConsumer ⟨by omega, by omega⟩ (recvBuf_toConsumer hread.fits hlen.2 (hok r s' hx))
  · rw [slaveCmd_read]
    exact ⟨_, _, rfl⟩

theorem result_ok (ok : Bool) :
    decide ((if ok then privSockResultOk else privSockResultBad) = privSockResultOk) = ok := by
  cases ok <;> rfl

theorem postMarkConnect_dual {fd : Fd} (hfd : c.dataFd = some fd) (huse : c.dataUseSsl = true)
    (hclean : s.dataFd = none ∧ s.dataSsl = false)
    (hok : ∀ ok s', withAnswers a (doSslHandshake T a a.fd) s = .ok ok s' →
      Dual .cmd fin dead (next (ofOk false ok)) (next' s'))
    (hdead : ∀ e s', withAnswers a (doSslHandshake T a a.fd) s = .error e s' → dead e) :
    Dual .cmd fin dead (SslCall.run c plain next .postMarkConnect) (slaveReq T a s next') := by
  have hcmd : slaveCmd T a s next' privSockDoSslHandshake = privSockRecvFd id a.fd fun fd =>
      onResult (withAnswers a (doSslHandshake T a fd)) s fun ok s' => privSockSendResult ok (next' s') := by
    rw [slaveCmd_handshake, slaveHandshake, if_neg (by simp [hclean.1, hclean.2])]
  rw [SslCall.run, if_pos huse, hfd]
  refine cmd_dual ?_ (.inr ⟨trivial, ?_⟩)
  · rw [hcmd]
    refine .send ?_ (.inl ⟨_, _, rfl⟩)
    refine onResult_dual ?_ hdead
    intro ok s' hx
    refine result_toConsumer ?_
    rw [result_ok]
    exact hok ok s' hx
  · rw [hcmd]
    exact ⟨_, _, rfl⟩

/-- A close behind a handshake that has failed is answered at once. -/
theorem disposeTransferFd_dual {cut : Bool} (hfd : c.dataFd ≠ none) (huse : c.dataUseSsl = true)
    (hsync : Synced c s)
    (hok : ∀ r s', SslCall.serve T a (.disposeTransferFd cut) s = .ok r s' → Dual .cmd fin dead (next r) (next' s'))
    (hdead : ∀ e s', SslCall.serve T a (.disposeTransferFd cut) s = .error e s' → dead e) :
    Dual .cmd fin dead (SslCall.run c plain next (.disposeTransferFd cut)) (slaveReq T a s next') := by
  rw [SslCall.run, if_neg hfd, if_pos huse]
  refine cmd_dual ?_ (.inl ⟨_, _, rfl⟩)
  rw [slaveCmd_close, slaveClose]
  have hgetS : (get : SslM SslState) s = .ok s s := rfl
  cases hest : c.established with
  | false =>
    have hssl : s.dataSsl = false := hsync.ssl.trans hest
    have hnone : s.dataFd = none := by
      have hsome := hsync.fd
      rw [hest] at hsome
      simpa using hsome
    have hserve : SslCall.serve T a (.disposeTransferFd cut) s = .ok (ofOk cut true) s := by
      rw [SslCall.serve, bind_ok hgetS]
      rw [if_neg (by simp [hssl])]
      rfl
    rw [if_pos ⟨hnone, hssl⟩]
    exact result_toConsumer (b := true) (hok _ _ hserve)
  | true =>
    have hssl : s.dataSsl = true := hsync.ssl.trans hest
    have hsome : s.dataFd ≠ none := by
      have hfd := hsync.fd
      rw [hest] at hfd
      intro hnone
      rw [hnone] at hfd
      cases hfd
    have hserve : SslCall.serve T a (.disposeTransferFd cut) s =
        (ofOk cut <$> withAnswers a (doSslClose T a)) s := by
      rw [SslCall.serve, bind_ok hgetS]
      rw [if_pos hssl]
    rw [if_neg (fun h => hsome h.1), if_neg (by simp [noConnection, hsome, hssl])]
    refine onResult_dual ?_ fun e s' hx => hdead e s' (hserve.trans (map_error hx))
    intro ok s' hx
    refine result_toConsumer ?_
    rw [result_ok]
    exact hok _ _ (hserve.trans (map_ok hx))

/-- **A call and the round of the slave that it asks for are made for each other.** -/
theorem SslCall.dual (call : SslCall) (hsync : Synced c s) (hpermits : c.Permits call)
    (hasks : c.asks call = true)
    (hok : ∀ r s', call.serve T a s = .ok r s' → Dual .cmd fin dead (next r) (next' s'))
    (hdead : ∀ e s', call.serve T a s = .error e s' → dead e) :
    Dual .cmd fin dead (call.run c plain next) (slaveReq T a s next') := by
  -- the slave has a connection where the consumer has one
  have hconn : (c.dataUseSsl = true → c.established = true) → c.dataUseSsl = true → ¬ noConnection s := by
    rintro hest huse (hnone | hnone)
    · have hfd := hsync.fd
      rw [hnone, hest huse] at hfd
      cases hfd
    · have hssl := hsync.ssl
      rw [hnone, hest huse] at hssl
      cases hssl
  cases call with
  | initDataSockParams fd => cases hasks
  | handleProt isPrivate => cases hasks
  | ftpGetline =>
    exact ftpGetline_dual (fun r s' hx => hok _ _ (map_ok hx)) fun e s' hx => hdead e s' (map_error hx)
  | ftpWriteControl str =>
    exact ftpWriteControl_dual hpermits (fun ret s' hx => hok _ _ (map_ok hx)) fun e s' hx => hdead e s' (map_error hx)
  | ftpWriteStr str =>
    have huse : c.dataUseSsl = true := hasks
    rw [SslCall.run, if_pos huse]
    exact slaveWrite_dual hpermits.2.2 (hconn hpermits.1 huse) (fun ret s' hx => hok _ _ (map_ok hx))
      fun e s' hx => hdead e s' (map_error hx)
  | ftpReadData len =>
    have huse : c.dataUseSsl = true := hasks
    exact ftpReadData_dual hpermits.2 huse (hconn hpermits.1 huse) (fun r s' hx => hok _ _ (map_ok hx))
      fun e s' hx => hdead e s' (map_error hx)
  | ftpWriteData buf =>
    have huse : c.dataUseSsl = true := hasks
    rw [SslCall.run, if_pos huse]
    exact slaveWrite_dual hpermits.2 (hconn hpermits.1 huse) (fun ret s' hx => hok _ _ (map_ok hx))
      fun e s' hx => hdead e s' (map_error hx)
  | postMarkConnect =>
    obtain ⟨fd, hfd⟩ := Option.ne_none_iff_exists'.mp hpermits.1
    have hssl : s.dataSsl = false := hsync.ssl.trans hpermits.2
    have hnone : s.dataFd = none := by
      have hsome := hsync.fd
      rw [hpermits.2] at hsome
      simpa using hsome
    exact postMarkConnect_dual hfd hasks ⟨hnone, hssl⟩ (fun ok s' hx => hok _ _ (map_ok hx))
      fun e s' hx => hdead e s' (map_error hx)
  | disposeTransferFd cut => exact disposeTransferFd_dual hpermits hasks hsync hok hdead

/-- A call that is not one for the slave goes on at once. -/
theorem run_clear (call : SslCall) (hpermits : c.Permits call) (hasks : c.asks call = false) :
    call.run c plain next = next (call.clear plain) := by
  cases call with
  | ftpGetline => cases hasks
  | ftpWriteControl str => cases hasks
  | initDataSockParams fd =>
    have hnone : c.dataFd = none := hpermits
    simp [SslCall.run, SslCall.clear, hnone]
  | handleProt isPrivate => rfl
  | disposeTransferFd cut =>
    have huse : c.dataUseSsl = false := hasks
    have hsome : c.dataFd ≠ none := hpermits
    simp [SslCall.run, SslCall.clear, huse, hsome]
  | ftpWriteStr str =>
    have huse : c.dataUseSsl = false := hasks
    simp [SslCall.run, SslCall.clear, huse]
  | ftpReadData len =>
    have huse : c.dataUseSsl = false := hasks
    simp [SslCall.run, SslCall.clear, huse]
  | ftpWriteData buf =>
    have huse : c.dataUseSsl = false := hasks
    simp [SslCall.run, SslCall.clear, huse]
  | postMarkConnect =>
    have huse : c.dataUseSsl = false := hasks
    simp [SslCall.run, SslCall.clear, huse]

/-- It leaves the two in step. -/
theorem clear_synced (call : SslCall) (hsync : Synced c s) (hpermits : c.Permits call) (hasks : c.asks call = false)
    (r : Reply) : Synced (c.after r call) s := by
  -- a connection that is not over TLS is not an established one, and neither is one that is not there
  have hplain : c.dataUseSsl = false ∨ c.dataFd = none → c.established = false := by
    intro hnone
    cases hest : c.established with
    | false => rfl
    | true =>
      obtain ⟨huse, hfd⟩ := hsync.isOpen hest
      rcases hnone with hnone | hnone
      · rw [hnone] at huse
        cases huse
      · exact absurd hnone hfd
  have hnot : ∀ c' : Consumer, c.established = false → c'.established = false → Synced c' s := by
    intro c' hest hest'
    refine ⟨?_, ?_, ?_⟩
    · rw [hsync.fd, hest, hest']
    · rw [hsync.ssl, hest, hest']
    · intro h
      rw [hest'] at h
      cases h
  cases call with
  | ftpGetline => exact hsync
  | ftpWriteControl str => exact hsync
  | ftpWriteStr str => exact hsync
  | ftpReadData len => exact hsync
  | ftpWriteData buf => exact hsync
  | initDataSockParams fd => exact hnot _ (hplain (.inr hpermits)) (hplain (.inr hpermits))
  | handleProt isPrivate => exact hnot _ (hplain (.inr hpermits)) (hplain (.inr hpermits))
  | disposeTransferFd cut => exact hnot _ (hplain (.inl hasks)) rfl
  | postMarkConnect =>
    have huse : c.dataUseSsl = false := hasks
    refine hnot _ (hplain (.inl huse)) ?_
    show (c.dataUseSsl && decide (r.ret = 1)) = false
    rw [huse]
    rfl

theorem runCalls_clear {f : SslAnswers → SslCall → SslM Reply} {plain : ℕ → Reply} {call : SslCall}
    {next : Reply → Script} {rs : List Reply} {as : List SslAnswers} (hasks : c.asks call = false) :
    runCalls f plain (.act call next) c rs as = runCalls f plain (next (call.clear (plain rs.length)))
      (c.after (call.clear (plain rs.length)) call) (rs ++ [call.clear (plain rs.length)]) as := by
  cases as with
  | nil => simp only [runCalls, hasks, Bool.false_eq_true, if_false]
  | cons a as => simp only [runCalls, hasks, Bool.false_eq_true, if_false]

theorem runCalls_asks {f : SslAnswers → SslCall → SslM Reply} {plain : ℕ → Reply} {call : SslCall}
    {next : Reply → Script} {rs : List Reply} {as : List SslAnswers} (hasks : c.asks call = true) :
    runCalls f plain (.act call next) c rs (a :: as) = (do
      let r ← f a call
      runCalls f plain (next r) (c.after r call) (rs ++ [r]) as) := by
  simp only [runCalls, hasks, if_true]

/-- **A session and its slave are made for each other**, whatever the session calls. -/
theorem script_dual {T : SslTunables} {plain : ℕ → Reply} {fin : ConsumerEnd → SslProc Halt → Prop}
    {dead : Halt → Prop} (hrunning : dead .running) (script : Script) :
    ∀ (c : Consumer) (rs : List Reply) (as : List SslAnswers) (s : SslState),
    Synced c s → script.Follows c →
    (∀ c' rs' as' s', runScript T plain script c rs as s = .ok (c', rs', as') s' → Synced c' s' →
      fin (.done c' rs') (slaveProc T as' s')) →
    (∀ e s', runScript T plain script c rs as s = .error e s' → TlsInStep e → dead e) →
    Dual .cmd fin dead (consumerProc plain script c rs) (slaveProc T as s) := by
  have hhead : ∀ a as s, (slaveProc T (a :: as) s).Awaits .cmd := fun a as s => ⟨_, rfl⟩
  induction script with
  | done =>
    intro c rs as s hsync _ hfin _
    cases as with
    | nil => exact .dead hrunning
    | cons a as => exact .stop (hfin c rs (a :: as) s rfl hsync) (hhead a as s)
  | act call next ih =>
    intro c rs as s hsync hfollows hfin hdead
    obtain ⟨hpermits, hnext⟩ := hfollows
    cases as with
    | nil => exact .dead hrunning
    | cons a as =>
      refine .rest ?_ (hhead a as s)
      cases hasks : c.asks call with
      | false =>
        have hstep : runCalls (SslCall.serve T) plain (.act call next) c rs (a :: as) = _ := runCalls_clear hasks
        rw [run_clear call hpermits hasks]
        apply ih _ _ _ (a :: as) s (clear_synced call hsync hpermits hasks _) (hnext _)
        · exact fun c' rs' as' s' hrun => hfin c' rs' as' s' ((congrFun hstep s).trans hrun)
        · exact fun e s' hrun => hdead e s' ((congrFun hstep s).trans hrun)
      | true =>
        have hstep : runCalls (SslCall.serve T) plain (.act call next) c rs (a :: as) = _ := runCalls_asks hasks
        have hserved := serve_synced (T := T) (a := a) call hsync hpermits hasks
        apply call.dual hsync hpermits hasks
        · intro r s' hserve
          have hrest : ∀ x, runScript T plain (next r) (c.after r call) (rs ++ [r]) as s' = x →
              runScript T plain (.act call next) c rs (a :: as) s = x := by
            intro x hx
            exact (congrFun hstep s).trans ((bind_ok hserve).trans hx)
          apply ih r _ _ as s' (ok_of_wp hserved hserve).1 (hnext r)
          · exact fun c' rs' as' s'' hrun => hfin c' rs' as' s'' (hrest _ hrun)
          · exact fun e s'' hrun => hdead e s'' (hrest _ hrun)
        · intro e s' hserve
          have hrun : runScript T plain (.act call next) c rs (a :: as) s = .error e s' :=
            (congrFun hstep s).trans (bind_error hserve)
          exact hdead e s' hrun (error_of_wp hserved hserve)

end

/-! ### Whatever the order of the steps -/

section

variable (T : SslTunables) (plain : ℕ → Reply) (script : Script) (c : Consumer) (as : List SslAnswers) (s : SslState)

/-- The two processes with the session ahead of them. -/
def startTls : Pair SockKind PrivUnit ConsumerEnd Halt := ⟨consumerProc plain script c [], slaveProc T as s, [], []⟩

/-- The session has come to its end: its calls have returned what they return without the socket pair,
and the slave waits for the next request and has the data connection as the consumer has it. -/
def SessionEnds (r : ConsumerEnd) (p : SslProc Halt) : Prop :=
  ∃ c' rs as' s', runScript T plain script c [] as s = .ok (c', rs, as') s' ∧ r = .done c' rs ∧
    p = slaveProc T as' s' ∧ Synced c' s'

/-- The slave has ended, as one of its operations does and not out of step, or is followed no further. -/
def SlaveEnds (e : Halt) : Prop :=
  e = .running ∨ TlsInStep e ∧ ∃ s', runScript T plain script c [] as s = .error e s'

end

section

variable {T : SslTunables} {plain : ℕ → Reply} {script : Script} {c : Consumer} {as : List SslAnswers}
  {s : SslState} {pair : Pair SockKind PrivUnit ConsumerEnd Halt}

theorem reachable_orderly (hsync : Synced c s) (hfollows : script.Follows c)
    (hreach : Reachable (startTls T plain script c as s) pair) :
    Orderly .cmd (SessionEnds T plain script c as s) (SlaveEnds T plain script c as s) pair := by
  have hdual : Dual .cmd (SessionEnds T plain script c as s) (SlaveEnds T plain script c as s)
      (consumerProc plain script c []) (slaveProc T as s) := by
    apply script_dual (.inl rfl) script c [] as s hsync hfollows
    · exact fun c' rs as' s' hrun hsync' => ⟨c', rs, as', s', hrun, rfl, rfl, hsync'⟩
    · exact fun e s' hrun hin => .inr ⟨hin, s', hrun⟩
  exact (lockstep hdual hreach).orderly

end

end Tls
end CosFtp
