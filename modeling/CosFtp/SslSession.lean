/-
# Sessions over TLS

What the commands of a session make of the calls that the slave serves: a command is read
and answered, PROT is set between transfers, and a transfer is `get_remote_transfer_fd`
(the 150 reply between the connection and its handshake), the reads of `do_file_recv`, the
writes of `do_file_send_rwloop` or those of a listing, and the close. The next command may
depend on all that has been returned. Such a session uses its data connection as it should
(`session_follows`): a block in ASCII mode is at most twice as long as what was read of the
object, which is just what the slave has room for.

* `consumer_and_slave_in_step`: so no session and its slave get out of step.
* `slave_is_transparent`: what a session is told is what it would be told if it did its
  TLS itself, as long as OpenSSL asks for no retry.

Key definitions: `TlsCommand`, `sessionScript`, `SameRun`, `SslAnswers.Quiet`.
Key theorems: `session_follows`, `consumer_and_slave_in_step`, `serve_direct`, `slave_is_transparent`.
-/
import CosFtp.AsciiStream
import CosFtp.DirWrites
import CosFtp.SslLockstep

namespace CosFtp
namespace Tls

open Wp Duplex

/-! ### The commands of a session -/

/-- What is done with a data connection. -/
inductive Work where
  /-- reads, as long as `do_file_recv` makes another one -/
  | recv (goesOn : ℕ → Reply → Bool) (most : ℕ)
  /-- the pieces of the object that are sent -/
  | send (isAscii : Bool) (pieces : List Bytes)
  | list (lines : List Bytes)

inductive TlsCommand where
  | getline
  | reply (str : Bytes)
  | prot (isPrivate : Bool)
  /-- the connection, its 150 reply, the reply if its handshake fails, and what is done with it;
  `cut` is set by an ABOR or a timeout -/
  | transfer (fd : Fd) (mark failed : Bytes) (work : Work) (cut : Bool)

section

variable (T : Tunables)

def recvScript : (ℕ → Reply → Bool) → ℕ → List Reply → (List Reply → Script) → Script
  | _, 0, rs, k => k rs
  | goesOn, n + 1, rs, k => .act (.ftpReadData (getChunkSize T)) fun r =>
    if goesOn rs.length r then recvScript goesOn n (rs ++ [r]) k else k (rs ++ [r])

/-- The writes of a transfer, up to the first that is not done in full. -/
def sendScript : List Bytes → List Reply → (List Reply → Script) → Script
  | [], rs, k => k rs
  | buf :: bufs, rs, k => .act (.ftpWriteData buf) fun r =>
    if r.ret = buf.length then sendScript bufs (rs ++ [r]) k else k (rs ++ [r])

/-- The writes of a listing, up to the first that fails. -/
def listScript : List Bytes → List Reply → (List Reply → Script) → Script
  | [], rs, k => k rs
  | str :: strs, rs, k => .act (.ftpWriteStr str) fun r =>
    if r.ret = 0 then listScript strs (rs ++ [r]) k else k (rs ++ [r])

def Work.script : Work → List Reply → (List Reply → Script) → Script
  | .recv goesOn most => recvScript T goesOn most
  | .send isAscii pieces => sendScript (if isAscii then asciiSends pieces false else pieces)
  | .list lines => listScript (dirWrites [] lines)

def call (c : SslCall) (rs : List Reply) (k : List Reply → Script) : Script := .act c fun r => k (rs ++ [r])

/-- `vsf_ftpdataio_dispose_transfer_fd` and what comes behind it. -/
def disposeScript (cut : Bool) : List Reply → (List Reply → Script) → Script := call (.disposeTransferFd cut)

def TlsCommand.script : TlsCommand → List Reply → (List Reply → Script) → Script
  | .getline, rs, k => call .ftpGetline rs k
  | .reply str, rs, k => call (.ftpWriteControl str) rs k
  | .prot isPrivate, rs, k => call (.handleProt isPrivate) rs k
  | .transfer fd mark failed work cut, rs, k =>
    call (.initDataSockParams fd) rs fun rs =>
    call (.ftpWriteControl mark) rs fun rs =>
    .act .postMarkConnect fun r =>
      if r.ret = 1 then work.script T (rs ++ [r]) fun rs => disposeScript cut rs k
      else call (.ftpWriteControl failed) (rs ++ [r]) fun rs =>
        if T.requireSslReuse then .done else disposeScript cut rs k

/-- A session of at most `n` commands. -/
def sessionScript (driver : List Reply → TlsCommand) : ℕ → List Reply → Script
  | 0, _ => .done
  | n + 1, rs => (driver rs).script T rs (sessionScript driver n)

/-- The pieces of an object are what the loop takes from its buffer at a time, and lines of a listing are
ones that the socket pair takes. -/
def Work.Fits : Work → Prop
  | .recv _ _ => True
  | .send _ pieces => ∀ piece ∈ pieces, piece.length ≤ getChunkSize T
  | .list lines => ∀ line ∈ lines, line ≠ [] ∧ line.length ≤ vsftpPrivsockMaxstr

/-- The strings of a command are ones that the socket pair takes. -/
def TlsCommand.Fits : TlsCommand → Prop
  | .reply str => str.length ≤ vsftpPrivsockMaxstr
  | .transfer _ mark failed work _ =>
    mark.length ≤ vsftpPrivsockMaxstr ∧ failed.length ≤ vsftpPrivsockMaxstr ∧ work.Fits T
  | _ => True

end

/-! ### They use their connections as they should -/

section

variable {T : Tunables} {c : Consumer} {k : List Reply → Script}

/-- Between two transfers. -/
structure Consumer.Idle (c : Consumer) : Prop where
  fd : c.dataFd = none
  established : c.established = false

/-- A connection that can be read and written. -/
structure Consumer.Ready (c : Consumer) : Prop where
  fd : c.dataFd ≠ none
  established : c.dataUseSsl = true → c.established = true

theorem recvScript_follows (hready : c.Ready) (hk : ∀ rs, (k rs).Follows c) (goesOn : ℕ → Reply → Bool) (n : ℕ) :
    ∀ rs, (recvScript T goesOn n rs k).Follows c := by
  induction n with
  | zero => exact hk
  | succ n ih =>
    intro rs
    refine ⟨⟨hready.established, getChunkSize_pos T, getChunkSize_le T⟩, ?_⟩
    intro r
    show (if goesOn rs.length r then _ else _ : Script).Follows c
    by_cases hgo : goesOn rs.length r = true
    · rw [if_pos hgo]
      exact ih _
    · rw [if_neg hgo]
      exact hk _

theorem sendScript_follows (hready : c.Ready) (hk : ∀ rs, (k rs).Follows c) (bufs : List Bytes)
    (hfit : ∀ buf ∈ bufs, buf.length ≤ vsftpPrivsockMaxstr) : ∀ rs, (sendScript bufs rs k).Follows c := by
  induction bufs with
  | nil => exact hk
  | cons buf bufs ih =>
    intro rs
    refine ⟨⟨hready.established, hfit buf List.mem_cons_self⟩, ?_⟩
    intro r
    show (if r.ret = buf.length then _ else _ : Script).Follows c
    by_cases hall : r.ret = buf.length
    · rw [if_pos hall]
      exact ih (fun b hb => hfit b (List.mem_cons_of_mem _ hb)) _
    · rw [if_neg hall]
      exact hk _

theorem listScript_follows (hready : c.Ready) (hk : ∀ rs, (k rs).Follows c) (strs : List Bytes)
    (hfit : ∀ str ∈ strs, str ≠ [] ∧ str.length ≤ vsftpPrivsockMaxstr) : ∀ rs, (listScript strs rs k).Follows c := by
  induction strs with
  | nil => exact hk
  | cons str strs ih =>
    intro rs
    refine ⟨⟨hready.established, hfit str List.mem_cons_self⟩, ?_⟩
    intro r
    show (if r.ret = 0 then _ else _ : Script).Follows c
    by_cases hall : r.ret = 0
    · rw [if_pos hall]
      exact ih (fun b hb => hfit b (List.mem_cons_of_mem _ hb)) _
    · rw [if_neg hall]
      exact hk _

/-- A block in ASCII mode is at most twice as long as its piece. -/
theorem asciiSends_fit {pieces : List Bytes} (h : ∀ piece ∈ pieces, piece.length ≤ vsftpDataBufsize) :
    ∀ prevCr, ∀ buf ∈ asciiSends pieces prevCr, buf.length ≤ vsftpPrivsockMaxstr := by
  induction pieces with
  | nil => exact fun _ _ hbuf => absurd hbuf List.not_mem_nil
  | cons piece pieces ih =>
    intro prevCr buf hbuf
    rcases List.mem_cons.mp hbuf with rfl | hbuf
    · have hgrow := length_vsfAsciiBinToAscii_le piece prevCr
      have hpiece := h piece List.mem_cons_self
      show (vsfAsciiBinToAscii piece prevCr).1.length ≤ vsftpDataBufsize * 2
      omega
    · exact ih (fun p hp => h p (List.mem_cons_of_mem _ hp)) _ buf hbuf

theorem dirWrites_fit {lines : List Bytes} (h : ∀ line ∈ lines, line ≠ [] ∧ line.length ≤ vsftpPrivsockMaxstr) :
    ∀ str ∈ dirWrites [] lines, str ≠ [] ∧ str.length ≤ vsftpPrivsockMaxstr := by
  intro str hstr
  have hsize : vsftpDirBufsize ≤ vsftpPrivsockMaxstr := by decide
  refine ⟨dirWrites_ne_nil lines [] (fun l hl => (h l hl).1) str hstr, ?_⟩
  rcases dirWrites_small lines [] (fun _ _ => .inl rfl) str hstr with hlen | hmem
  · exact hlen.trans hsize
  · exact (h str hmem).2

/-- A transfer's work on a connection that is ready for it. -/
theorem Work.script_follows {work : Work} (hready : c.Ready) (hk : ∀ rs, (k rs).Follows c)
    (hfits : work.Fits T) (rs : List Reply) : (work.script T rs k).Follows c := by
  cases work with
  | recv goesOn most => exact recvScript_follows hready hk goesOn most rs
  | list lines => exact listScript_follows hready hk _ (dirWrites_fit hfits) rs
  | send isAscii pieces =>
    have hpieces : ∀ piece ∈ pieces, piece.length ≤ vsftpDataBufsize := fun p hp =>
      (hfits p hp).trans (getChunkSize_le T)
    apply sendScript_follows hready hk
    cases isAscii with
    | true => exact asciiSends_fit hpieces false
    | false =>
      intro buf hbuf
      have hlen := hpieces buf hbuf
      show buf.length ≤ vsftpDataBufsize * 2
      omega

/-- A command that finds no data connection leaves none behind, however its calls return. -/
theorem TlsCommand.script_follows (cmd : TlsCommand) (hfits : cmd.Fits T) (hidle : c.Idle)
    (hk : ∀ c' : Consumer, c'.Idle → ∀ rs, (k rs).Follows c') (rs : List Reply) : (cmd.script T rs k).Follows c := by
  cases cmd with
  | getline => exact ⟨trivial, fun r => hk c hidle _⟩
  | reply str => exact ⟨hfits, fun r => hk c hidle _⟩
  | prot isPrivate =>
    have hidle' : ({ c with dataUseSsl := isPrivate } : Consumer).Idle := ⟨hidle.fd, hidle.established⟩
    exact ⟨hidle.fd, fun r => hk _ hidle' _⟩
  | transfer fd mark failed work cut =>
    obtain ⟨hmark, hfailed, hwork⟩ := hfits
    refine ⟨hidle.fd, fun r0 => ⟨hmark, fun r1 => ⟨⟨Option.some_ne_none fd, hidle.established⟩, fun r => ?_⟩⟩⟩
    show (if r.ret = 1 then _ else _ : Script).Follows { c with dataFd := some fd, established := c.dataUseSsl && decide (r.ret = 1) }
    have hdispose : ∀ c' : Consumer, c'.dataFd ≠ none → ∀ rs, (disposeScript cut rs k).Follows c' :=
      fun c' hfd rs => ⟨hfd, fun r => hk _ ⟨rfl, rfl⟩ _⟩
    by_cases hok : r.ret = 1
    · rw [if_pos hok]
      apply Work.script_follows ⟨Option.some_ne_none fd, ?_⟩ (hdispose _ (Option.some_ne_none fd)) hwork
      intro huse
      simpa [hok] using huse
    · rw [if_neg hok]
      refine ⟨hfailed, fun r2 => ?_⟩
      show (if T.requireSslReuse then _ else _ : Script).Follows _
      cases T.requireSslReuse with
      | true => exact trivial
      | false => exact hdispose _ (Option.some_ne_none fd) _

/-- **A session uses its data connection as it should**, whatever its commands and whatever its calls return. -/
theorem session_follows {driver : List Reply → TlsCommand} (hfits : ∀ rs, (driver rs).Fits T) (n : ℕ) :
    ∀ (c : Consumer), c.Idle → ∀ rs, (sessionScript T driver n rs).Follows c := by
  induction n with
  | zero => exact fun c _ rs => trivial
  | succ n ih => exact fun c hidle rs => (driver rs).script_follows (hfits rs) hidle ih rs

end

/-! ### A session and its slave -/

/-- A session over TLS at the start of its commands, and its slave. -/
theorem idle_synced {c : Consumer} {s : SslState} (hidle : c.Idle) (hfd : s.dataFd = none) (hssl : s.dataSsl = false) :
    Synced c s := by
  refine ⟨?_, ?_, ?_⟩
  · rw [hfd, hidle.established]
    rfl
  · rw [hssl, hidle.established]
  · intro hest
    rw [hidle.established] at hest
    cases hest

/-- **The slave and its consumer stay in step.** Whatever a session calls, as long as it uses its data
connection as it should, whatever OpenSSL and the client answer, and in whatever order the two get to
run: what is read is what its reader waits for, nothing is under way between two requests, and the two
go on until the session comes to its end or OpenSSL has the slave end. No request is a bad one for the
slave, its state is always clean and no string is too long; and whenever the session ends, the slave has
a descriptor and an SSL object exactly where the consumer has an established connection. The commands of a
session do use its connection as they should. -/
theorem consumer_and_slave_in_step (S : SslTunables) (T : Tunables) (plain : ℕ → Reply) :
    (∀ (script : Script) (c : Consumer) (as : List SslAnswers) (s : SslState), Synced c s → script.Follows c →
      ∀ pair, Reachable (startTls S plain script c as s) pair →
        Orderly .cmd (SessionEnds S plain script c as s) (SlaveEnds S plain script c as s) pair) ∧
    ∀ (driver : List Reply → TlsCommand) (n : ℕ), (∀ rs, (driver rs).Fits T) →
      ∀ (c : Consumer) (as : List SslAnswers) (s : SslState), c.Idle → s.dataFd = none → s.dataSsl = false →
        ∀ pair, Reachable (startTls S plain (sessionScript T driver n []) c as s) pair →
          Orderly .cmd (SessionEnds S plain (sessionScript T driver n []) c as s)
            (SlaveEnds S plain (sessionScript T driver n []) c as s) pair := by
  refine ⟨fun script c as s hsync hfollows pair hreach => reachable_orderly hsync hfollows hreach, ?_⟩
  intro driver n hfits c as s hidle hfd hssl pair hreach
  exact reachable_orderly (idle_synced hidle hfd hssl) (session_follows hfits n c hidle []) hreach

/-- A session that takes an upload over TLS. -/
def uploadDriver (rs : List Reply) : TlsCommand :=
  if rs = [] then .prot true else .transfer 5 [49, 53, 48] [53, 50, 50] (.recv (fun _ r => 0 < r.ret) 3) false

/-- The client sends two bytes and closes. -/
def uploadAnswers : List SslAnswers :=
  [{ io := [.done [49, 53, 48]] }, {}, { io := [.done [104, 105]] }, { io := [.done []] }, {}]

def noReply (_ : ℕ) : Reply := ⟨0, []⟩

theorem upload_fits (rs : List Reply) : (uploadDriver rs).Fits {} := by
  unfold uploadDriver
  split
  · exact trivial
  · exact ⟨by decide, by decide, trivial⟩

/-- Its 150 reply is on its way to the slave, and the session comes to its end. -/
theorem consumer_and_slave_in_step_upload :
    (∃ pair, Reachable (startTls {} noReply (sessionScript {} uploadDriver 2 []) {} uploadAnswers {}) pair ∧
      pair.toServer = [(.cmd, (privSockWriteUserResp, none))] ∧
      Orderly .cmd (SessionEnds {} noReply (sessionScript {} uploadDriver 2 []) {} uploadAnswers {})
        (SlaveEnds {} noReply (sessionScript {} uploadDriver 2 []) {} uploadAnswers {}) pair) ∧
    Orderly .cmd (SessionEnds {} noReply .done {} [] {}) (SlaveEnds {} noReply .done {} [] {})
      (startTls {} noReply .done {} [] {}) ∧
    ∃ s, runScript {} noReply (sessionScript {} uploadDriver 2 []) {} [] uploadAnswers {} =
      .ok ({ dataUseSsl := true }, [⟨0, []⟩, ⟨0, []⟩, ⟨0, []⟩, ⟨1, []⟩, ⟨2, [104, 105]⟩, ⟨0, []⟩, ⟨1, []⟩], []) s := by
  have hidle : ({} : Consumer).Idle := ⟨rfl, rfl⟩
  have hslave : ∀ r, (startTls {} noReply (sessionScript {} uploadDriver 2 []) {} uploadAnswers {}).server ≠ .stop r := by
    intro r hr
    cases hr
  have hreach : Reachable (startTls {} noReply (sessionScript {} uploadDriver 2 []) {} uploadAnswers {}) _ :=
    (((Relation.ReflTransGen.refl.tail .clientRest).tail .clientRest).tail .clientRest).tail (.clientSend hslave)
  have hboth := consumer_and_slave_in_step {} {} noReply
  refine ⟨⟨_, hreach, rfl, ?_⟩, ?_, _, rfl⟩
  · exact hboth.2 uploadDriver 2 upload_fits {} uploadAnswers {} hidle rfl rfl _ hreach
  · exact hboth.1 .done {} [] {} (idle_synced hidle rfl rfl) trivial _ .refl

/-! ### Without the slave -/

/-- Two runs end in the same way, and the connections have seen the same; the descriptor may have
different numbers, or be forgotten in one of them. -/
def SameRun {α : Type} : EStateM.Result Halt SslState α → EStateM.Result Halt SslState α → Prop
  | .ok v s, .ok v' s' => v = v' ∧ ∃ fd, s' = { s with dataFd := fd }
  | .error e s, .error e' s' => e = e' ∧ ∃ fd, s' = { s with dataFd := fd }
  | _, _ => False

/-- The program does not look at the descriptor. -/
def Blind {α : Type} (x : SslM α) : Prop := ∀ s fd, SameRun (x s) (x { s with dataFd := fd })

section

variable {T : SslTunables} {a : SslAnswers} {α β : Type}

theorem sameRun_bind {x y : SslM β} {f g : β → SslM α} {s s' : SslState} (hx : SameRun (x s) (y s'))
    (hf : ∀ b t fd, SameRun (f b t) (g b { t with dataFd := fd })) : SameRun ((x >>= f) s) ((y >>= g) s') := by
  cases hr : x s with
  | ok v t =>
    cases hr' : y s' with
    | ok v' t' =>
      rw [hr, hr'] at hx
      obtain ⟨rfl, fd, rfl⟩ := hx
      rw [bind_ok hr, bind_ok hr']
      exact hf v t fd
    | error e t' => rw [hr, hr'] at hx; exact hx.elim
  | error e t =>
    cases hr' : y s' with
    | ok v' t' => rw [hr, hr'] at hx; exact hx.elim
    | error e' t' =>
      rw [hr, hr'] at hx
      rw [bind_error hr, bind_error hr']
      exact hx

theorem blind_pure (v : α) : Blind (pure v : SslM α) := fun _ fd => ⟨rfl, fd, rfl⟩

theorem blind_throw (e : Halt) : Blind (throw e : SslM α) := fun _ fd => ⟨rfl, fd, rfl⟩

theorem blind_emit (e : SslEvent) : Blind (emit e) := fun _ fd => ⟨rfl, fd, rfl⟩

theorem blind_bind {x : SslM β} {f : β → SslM α} (hx : Blind x) (hf : ∀ b, Blind (f b)) : Blind (x >>= f) :=
  fun s fd => sameRun_bind (hx s fd) fun b t fd' => hf b t fd'

theorem blind_ite {p : Prop} [Decidable p] {x y : SslM α} (hx : Blind x) (hy : Blind y) : Blind (if p then x else y) := by
  split
  · exact hx
  · exact hy

/-- A program that reads the state, and not the descriptor in it. -/
theorem blind_read {f : SslState → SslM α}
    (hf : ∀ s fd, SameRun (f s s) (f { s with dataFd := fd } { s with dataFd := fd })) : Blind (get >>= f) := hf

theorem blind_get {f : SslState → SslM α} (hsame : ∀ s fd, f { s with dataFd := fd } = f s) (hf : ∀ s, Blind (f s)) :
    Blind (get >>= f) := by
  refine blind_read fun s fd => ?_
  rw [hsame s fd]
  exact hf s s fd

theorem blind_withAnswers {x : SslM α} (hx : Blind x) : Blind (withAnswers a x) :=
  blind_bind (fun _ fd => ⟨rfl, fd, rfl⟩) fun _ => hx

theorem sslCall_blind : Blind sslCall := by
  rintro ⟨d, ssl, cert, io, es⟩ fd
  cases io with
  | nil => exact ⟨rfl, fd, rfl⟩
  | cons o io => exact ⟨rfl, fd, rfl⟩

theorem sslRetry_blind : Blind sslRetry := by
  refine blind_read (fun s fd => ?_)
  show SameRun _ _
  cases afterWants s.io with
  | none => exact ⟨rfl, fd, rfl⟩
  | some r => exact ⟨rfl, fd, rfl⟩

theorem sslEof_blind (isData : Bool) : Blind (sslEof T a isData) :=
  blind_ite (blind_pure 0) (blind_bind (blind_emit _) fun _ => blind_pure _)

theorem sslReadCommon_blind (isData : Bool) (len : ℕ) : Blind (sslReadCommon T a isData len) := by
  refine blind_bind sslRetry_blind fun o => ?_
  cases o with
  | want => exact blind_pure _
  | error => exact blind_pure _
  | done bs => exact blind_ite (blind_bind (sslEof_blind isData) fun _ => blind_pure _) (blind_pure _)

theorem sslRead_blind (isData : Bool) (len : ℕ) : Blind (sslRead T a isData len) :=
  blind_bind (sslReadCommon_blind isData len) fun _ => blind_bind (blind_emit _) fun _ => blind_pure _

theorem sslWritten_blind (isData : Bool) (buf : Bytes) (o : SslIo) : Blind (sslWritten isData buf o) := by
  cases o with
  | want => exact blind_pure _
  | error => exact blind_pure _
  | done bs => exact blind_bind (blind_emit _) fun _ => blind_pure _

theorem sslWrite_blind (isData : Bool) (buf : Bytes) : Blind (sslWrite isData buf) :=
  blind_bind sslRetry_blind fun o => sslWritten_blind isData buf o

theorem sslWriteStr_blind (isData : Bool) (str : Bytes) : Blind (sslWriteStr isData str) :=
  blind_bind sslCall_blind fun o => blind_bind (sslWritten_blind isData str o) fun _ => blind_pure _

theorem sslNetfdAlloc_blind (rounds : ℕ) : ∀ (got : Bytes) (left : ℕ), Blind (sslNetfdAlloc T a rounds got left) := by
  induction rounds with
  | zero => exact fun _ _ => blind_throw _
  | succ rounds ih =>
    intro got left
    unfold sslNetfdAlloc
    refine blind_ite (blind_throw _) (blind_ite (blind_pure _) (blind_bind (sslReadCommon_blind false left) fun seen => ?_))
    refine blind_ite (blind_throw _) (blind_ite (blind_pure _) ?_)
    cases seen.2.findIdx? (· = chLf) with
    | some i =>
      exact blind_bind (sslRead_blind false _) fun r =>
        blind_ite (blind_throw _) (blind_ite (blind_throw _) (blind_pure _))
    | none => exact blind_bind (sslRead_blind false _) fun r => blind_ite (blind_throw _) (ih _ _)

theorem sslDataClose_blind : Blind (sslDataClose T a) := by
  have hfree : ∀ ok : Bool, Blind (do
      emit .free
      modify fun s => { s with dataSsl := false }
      pure ok) := fun ok =>
    blind_bind (blind_emit _) fun _ => blind_bind (fun _ fd => ⟨rfl, fd, rfl⟩) fun _ => blind_pure ok
  refine blind_get (fun _ _ => rfl) fun s => blind_ite (blind_pure true) (blind_bind (blind_emit _) fun _ => ?_)
  cases a.shutdown with
  | sent => exact blind_bind (blind_emit _) fun _ => blind_bind (blind_pure _) hfree
  | both => exact blind_bind (blind_pure _) hfree
  | error => exact blind_bind (blind_pure _) hfree

theorem sslRefuse_blind (line : String) : Blind (sslRefuse T a line) :=
  blind_bind (blind_emit _) fun _ => blind_bind sslDataClose_blind fun _ => blind_pure _

theorem sslCheckCert_blind : Blind (sslCheckCert T a) := by
  refine blind_get (fun _ _ => rfl) fun s => blind_ite (blind_pure true) ?_
  cases a.peerCert with
  | none => exact sslRefuse_blind _
  | unreadable => exact blind_throw _
  | digest d => exact blind_ite (sslRefuse_blind _) (blind_pure true)

theorem getSsl_blind : Blind (getSsl a) :=
  blind_ite (blind_pure _) (blind_ite (blind_pure _) (blind_ite (blind_throw _)
    (blind_bind (blind_emit _) fun _ => blind_pure _)))

theorem sslAccept_blind : Blind (sslAccept T a) := by
  refine blind_get (fun _ _ => rfl) fun s => blind_ite (blind_throw _) (blind_bind getSsl_blind fun ok => ?_)
  refine blind_ite (blind_pure _) (blind_bind (fun _ fd => ⟨rfl, fd, rfl⟩) fun _ => ?_)
  exact blind_ite (sslRefuse_blind _) sslCheckCert_blind

/-! ### A call with the slave and without -/

/-- OpenSSL asks for no retry, and the slave can close its descriptors. -/
structure SslAnswers.Quiet (a : SslAnswers) : Prop where
  noWant : .want ∉ a.io
  close : a.close = true

theorem sameRun_map {x y : SslM β} {f : β → α} {s s' : SslState} (h : SameRun (x s) (y s')) :
    SameRun ((f <$> x) s) ((f <$> y) s') :=
  sameRun_bind (f := fun b => pure (f b)) (g := fun b => pure (f b)) h fun _ _ fd => ⟨rfl, fd, rfl⟩

/-- A program runs the same, with and without something that it does to the descriptor only. -/
theorem sameRun_finish {x : SslM β} {g : β → SslM β} (hx : Blind x)
    (hg : ∀ b t fd, SameRun (g b t) (.ok b { t with dataFd := fd })) (s : SslState) (fd : Option Fd) :
    SameRun ((x >>= g) s) (x { s with dataFd := fd }) := by
  rw [← bind_pure x]
  exact sameRun_bind (f := g) (g := pure) (by rw [bind_pure]; exact hx s fd) hg

theorem doSslHandshake_direct (hclose : a.close = true) (n : Fd) (s : SslState) (fd : Option Fd) :
    SameRun (doSslHandshake T a n s) (sslAccept T a { s with dataFd := fd }) := by
  have hfinish : ∀ (ok : Bool) t fd, SameRun ((if ok then pure true else do
      closeDataFd a
      pure false : SslM Bool) t) (.ok ok { t with dataFd := fd }) := by
    intro ok t fd
    cases ok with
    | true => exact ⟨rfl, fd, rfl⟩
    | false =>
      have hforget : closeDataFd a t = .ok () { t with dataFd := none } := by
        unfold closeDataFd
        rw [hclose]
        rfl
      show SameRun ((do
        closeDataFd a
        pure false : SslM Bool) t) _
      rw [bind_ok hforget]
      exact ⟨rfl, fd, rfl⟩
  exact sameRun_finish sslAccept_blind hfinish { s with dataFd := some n } fd

theorem doSslClose_direct (hclose : a.close = true) (s : SslState) (fd : Option Fd) :
    SameRun (doSslClose T a s) (sslDataClose T a { s with dataFd := fd }) := by
  apply sameRun_finish sslDataClose_blind
  intro ok t fd
  have hforget : closeDataFd a t = .ok () { t with dataFd := none } := by
    unfold closeDataFd
    rw [hclose]
    rfl
  rw [bind_ok hforget]
  exact ⟨rfl, fd, rfl⟩

/-- A string is written in one call where there is no retry. -/
theorem sslWrite_direct {str : Bytes} (hne : str ≠ []) {s : SslState} (hwant : .want ∉ s.io) (fd : Option Fd) :
    SameRun ((ofWritten str <$> sslWrite true str) s) ((ofRet <$> sslWriteStr true str) { s with dataFd := fd }) := by
  have hlen : 0 < str.length := List.length_pos_iff.mpr hne
  obtain ⟨d, ssl, cert, io, es⟩ := s
  cases io with
  | nil => exact ⟨rfl, fd, rfl⟩
  | cons o io =>
    cases o with
    | want => exact absurd List.mem_cons_self hwant
    | error =>
      have hfail : (-1 : ℤ) ≠ str.length := by omega
      have hret : ofWritten str (-1) = ofRet (if (-1 : ℤ) = str.length then 0 else -1) := by
        rw [ofWritten, if_neg (by omega), if_neg hfail]
      exact ⟨hret, fd, rfl⟩
    | done bs =>
      obtain ⟨n, hn⟩ : ∃ n : ℤ, n = (min bs.length str.length : ℕ) := ⟨_, rfl⟩
      have hret : ofWritten str n = ofRet (if n = str.length then 0 else -1) := by
        rw [ofWritten]
        by_cases hall : n = str.length
        · rw [if_pos ⟨by omega, hall⟩, if_pos hall]
        · rw [if_neg (fun h => hall h.2), if_neg hall]
      rw [hn] at hret
      exact ⟨hret, fd, rfl⟩

/-- What `ssl_read_into_str` leaves in its string is what `ssl_read` leaves in the buffer. -/
theorem sslReadIntoStr_direct (len : ℕ) (s : SslState) (fd : Option Fd) :
    SameRun (sslReadIntoStr T a len s) (sslRead T a true len { s with dataFd := fd }) := by
  have hblind := sslRead_blind (T := T) (a := a) true len s fd
  unfold sslReadIntoStr
  cases hr : sslRead T a true len s with
  | error e t =>
    rw [bind_error hr]
    rwa [hr] at hblind
  | ok r t =>
    have hcounted := (ok_of_wp (sslRead_reads true len s) hr).2.2
    have hsame : (if 0 ≤ r.1 then (r.1, r.2.take r.1.toNat) else (r.1, [])) = r := by
      rcases hcounted with hall | ⟨hneg, hnone⟩
      · rw [if_pos (by omega), hall, Int.toNat_natCast, List.take_length, ← hall]
      · rw [if_neg (by omega), ← hnone]
    rw [bind_ok hr, hsame]
    rwa [hr] at hblind

theorem withAnswers_sameRun {x y : SslM α} {s : SslState} {fd : Option Fd}
    (h : SameRun (x { s with io := a.io }) (y { s with io := a.io, dataFd := fd })) :
    SameRun (withAnswers a x s) (withAnswers a y { s with dataFd := fd }) := h

/-- **A call that the slave serves comes to what it comes to in one process.** -/
theorem serve_direct {c : Consumer} (call : SslCall) (hpermits : c.Permits call) (hquiet : a.Quiet) (s : SslState)
    (fd : Option Fd) : SameRun (call.serve T a s) (call.direct T a { s with dataFd := fd }) := by
  cases call with
  | ftpGetline =>
    exact sameRun_map (blind_withAnswers (sslNetfdAlloc_blind _ _ _) s fd)
  | ftpWriteControl str => exact sameRun_map (blind_withAnswers (sslWriteStr_blind false str) s fd)
  | ftpWriteStr str => exact sslWrite_direct (s := { s with io := a.io }) hpermits.2.1 hquiet.noWant fd
  | ftpReadData len => exact sameRun_map (withAnswers_sameRun (sslReadIntoStr_direct len _ fd))
  | ftpWriteData buf => exact sameRun_map (blind_withAnswers (sslWrite_blind true buf) s fd)
  | initDataSockParams n => exact ⟨rfl, fd, rfl⟩
  | handleProt isPrivate => exact ⟨rfl, fd, rfl⟩
  | postMarkConnect => exact sameRun_map (withAnswers_sameRun (doSslHandshake_direct hquiet.close a.fd _ fd))
  | disposeTransferFd cut =>
    show SameRun ((if s.dataSsl = true then ofOk cut <$> withAnswers a (doSslClose T a) else pure (ofOk cut true)) s)
      ((if s.dataSsl = true then ofOk cut <$> withAnswers a (sslDataClose T a) else pure (ofOk cut true))
        { s with dataFd := fd })
    by_cases hssl : s.dataSsl = true
    · rw [if_pos hssl, if_pos hssl]
      exact sameRun_map (withAnswers_sameRun (doSslClose_direct hquiet.close _ fd))
    · rw [if_neg hssl, if_neg hssl]
      exact ⟨rfl, fd, rfl⟩

/-- A retry is what they differ in: the slave makes it for the line of a listing too, for which a session without
a slave gives up. -/
theorem ftpWriteStr_want {str bs : Bytes} {io : List SslIo} (hio : a.io = .want :: .done bs :: io)
    (s : SslState) :
    (∃ t, (SslCall.ftpWriteStr str).serve T a s = .ok (ofWritten str (min bs.length str.length : ℕ)) t) ∧
      ∃ t, (SslCall.ftpWriteStr str).direct T a s = .ok (ofRet (-1)) t := by
  have hshort : (-1 : ℤ) ≠ str.length := by omega
  constructor
  · simp only [SslCall.serve, withAnswers, hio]
    exact ⟨_, rfl⟩
  · have hret : ofRet (if (-1 : ℤ) = str.length then 0 else -1) = ofRet (-1) := by rw [if_neg hshort]
    rw [← hret]
    simp only [SslCall.direct, withAnswers, hio]
    exact ⟨_, rfl⟩

end

/-- A whole session with its slave and without. -/
theorem runScript_direct {T : SslTunables} {plain : ℕ → Reply} (script : Script) : ∀ (c : Consumer) (rs : List Reply)
    (as : List SslAnswers) (s : SslState) (fd : Option Fd), script.Follows c → (∀ a ∈ as, a.Quiet) →
    SameRun (runScript T plain script c rs as s) (runDirect T plain script c rs as { s with dataFd := fd }) := by
  induction script with
  | done => exact fun c rs as s fd _ _ => ⟨rfl, fd, rfl⟩
  | act call next ih =>
    intro c rs as s fd hfollows hquiet
    obtain ⟨hpermits, hnext⟩ := hfollows
    unfold runScript runDirect at *
    cases hasks : c.asks call with
    | false =>
      rw [runCalls_clear hasks, runCalls_clear hasks]
      exact ih _ _ _ as s fd (hnext _) hquiet
    | true =>
      cases as with
      | nil =>
        have hnone : ∀ f : SslAnswers → SslCall → SslM Reply, runCalls f plain (.act call next) c rs [] = throw .running := by
          intro f
          simp only [runCalls, hasks, if_true]
        rw [hnone, hnone]
        exact ⟨rfl, fd, rfl⟩
      | cons a as =>
        rw [runCalls_asks hasks, runCalls_asks hasks]
        apply sameRun_bind (serve_direct call hpermits (hquiet a List.mem_cons_self) s fd)
        intro r t fd'
        exact ih r _ _ as t fd' (hnext r) fun a' ha => hquiet a' (List.mem_cons_of_mem _ ha)

/-- **The slave cannot be told from none.** Where OpenSSL asks for no retry and the slave can close its
descriptors, a session that comes to its end has been told by its slave, whatever the order of the
steps, what it would have been told had it done its TLS itself; its connections have seen the same
bytes, handshakes, shutdowns and log lines; and where the slave ends for a reason of OpenSSL, the
session itself would have. -/
theorem slave_is_transparent (T : SslTunables) (plain : ℕ → Reply) (script : Script) (c : Consumer)
    (as : List SslAnswers) (s : SslState) (hsync : Synced c s) (hfollows : script.Follows c)
    (hquiet : ∀ a ∈ as, a.Quiet) (pair : Pair SockKind PrivUnit ConsumerEnd Halt)
    (hreach : Reachable (startTls T plain script c as s) pair) :
    (∀ r, pair.client = .stop r →
      (∃ c' rs as' s' fd, runDirect T plain script c [] as s = .ok (c', rs, as') s' ∧ r = .done c' rs ∧
        pair.server = slaveProc T as' { s' with dataFd := fd }) ∨ ∃ e, pair.server = .stop e) ∧
    ∀ e, pair.server = .stop e → e = .running ∨ ∃ s', runDirect T plain script c [] as s = .error e s' := by
  have horder := reachable_orderly hsync hfollows hreach
  have hsame : SameRun (runScript T plain script c [] as s) (runDirect T plain script c [] as s) :=
    runScript_direct script c [] as s s.dataFd hfollows hquiet
  constructor
  · intro r hr
    rcases horder.clientEnds r hr with ⟨c', rs, as', s', hrun, hdone, hslave, -⟩ | ⟨e, he, -⟩
    · left
      rw [hrun] at hsame
      cases hdirect : runDirect T plain script c [] as s with
      | error e t =>
        rw [hdirect] at hsame
        exact hsame.elim
      | ok v t =>
        rw [hdirect] at hsame
        obtain ⟨rfl, fd, rfl⟩ := hsame
        exact ⟨c', rs, as', _, s'.dataFd, rfl, hdone, hslave⟩
    · exact .inr ⟨e, he⟩
  · intro e he
    rcases horder.serverEnds e he with hrunning | ⟨-, s', hrun⟩
    · exact .inl hrunning
    · right
      rw [hrun] at hsame
      cases hdirect : runDirect T plain script c [] as s with
      | ok v t =>
        rw [hdirect] at hsame
        exact hsame.elim
      | error e' t =>
        rw [hdirect] at hsame
        exact ⟨t, congrArg (fun e => EStateM.Result.error e t) hsame.1.symm⟩

/-- The upload, when its first request is on its way. -/
theorem slave_is_transparent_upload : ∃ pair,
    Reachable (startTls {} noReply (sessionScript {} uploadDriver 2 []) {} uploadAnswers {}) pair ∧
    (∀ e, pair.server = .stop e → e = .running ∨
      ∃ s', runDirect {} noReply (sessionScript {} uploadDriver 2 []) {} [] uploadAnswers {} = .error e s') ∧
    ∃ s, runDirect {} noReply (sessionScript {} uploadDriver 2 []) {} [] uploadAnswers {} =
      .ok ({ dataUseSsl := true }, [⟨0, []⟩, ⟨0, []⟩, ⟨0, []⟩, ⟨1, []⟩, ⟨2, [104, 105]⟩, ⟨0, []⟩, ⟨1, []⟩], []) s := by
  have hidle : ({} : Consumer).Idle := ⟨rfl, rfl⟩
  have hquiet : ∀ a ∈ uploadAnswers, a.Quiet := by
    intro a ha
    simp only [uploadAnswers, List.mem_cons, List.not_mem_nil, or_false] at ha
    rcases ha with rfl | rfl | rfl | rfl | rfl <;> exact ⟨by simp, rfl⟩
  have hreach : Reachable (startTls {} noReply (sessionScript {} uploadDriver 2 []) {} uploadAnswers {}) _ :=
    Relation.ReflTransGen.refl.tail .clientRest
  have hfollows := session_follows upload_fits 2 {} hidle []
  exact ⟨_, hreach, (slave_is_transparent {} noReply _ {} uploadAnswers {} (idle_synced hidle rfl rfl) hfollows hquiet _
    hreach).2, _, rfl⟩

end Tls
end CosFtp
