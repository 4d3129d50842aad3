/-
# The TLS slave and its consumer

Once a login over TLS has succeeded, the process that has made the handshake keeps the
keys and becomes the slave: it reads and writes the control connection for the process
that serves the client, its consumer, and is handed each data connection to make the
handshake on it, to read and write it and to close it (sslslave.c, and the branches of
readwrite.c and ftpdataio.c for `ssl_slave_active`). The two have a socket pair, on which
a command, ints, strings, a result or a descriptor follow each other without a mark.

OpenSSL is what the slave is told by it: `SslAnswers` has its answers to what one request
asks. The functions of ssl.c are the same for a session that has no slave, so
`runScript` and `runDirect` are a session with its slave and one without; what debug_ssl
logs is left out, and a control connection is taken to be over TLS, as it is where there
is a slave.

Key definitions: `SslAnswers`, `sslAccept`, `slaveProc`, `SslCall`, `consumerProc`, `runScript`, `runDirect`.
-/
import CosFtp.CtrlStream
import CosFtp.TwoProcess

namespace CosFtp
namespace Tls

open Duplex

/-! ### OpenSSL -/

structure SslTunables where
  requireSslReuse : Bool := true
  strictSslReadEof : Bool := false
  strictSslWriteShutdown : Bool := false

/-- What a call of `SSL_read`, `SSL_peek` or `SSL_write` comes to. -/
inductive SslIo where
  /-- the bytes read, no more than there is room for; of a write, how many were written -/
  | done (bs : Bytes)
  /-- -1, and the call is to be made again -/
  | want
  /-- -1 -/
  | error
  deriving DecidableEq

/-- What `SSL_shutdown` returns. -/
inductive ShutdownRet where
  | sent
  | both
  | error
  deriving DecidableEq

/-- The certificate of the peer. -/
inductive PeerCert where
  | none
  | digest (d : Bytes)
  /-- `X509_digest` fails -/
  | unreadable
  deriving DecidableEq

/-- The answers of OpenSSL and of the kernel while one request is served. -/
structure SslAnswers where
  /-- the number that a passed descriptor gets -/
  fd : Fd := 0
  sslNew : Bool := true
  sslSetFd : Bool := true
  sslAccept : Bool := true
  sessionReused : Bool := true
  peerCert : PeerCert := .none
  /-- the calls that read and write, in order -/
  io : List SslIo := []
  /-- the shutdown state is `SSL_RECEIVED_SHUTDOWN` -/
  receivedShutdown : Bool := true
  shutdown : ShutdownRet := .both
  shutdownAgain : ShutdownRet := .both
  close : Bool := true
  /-- the text of the error, which has a prefix of its own -/
  errorText : String := ""

/-- What happens on the connections. -/
inductive SslEvent where
  | accept
  | shutdown
  | free
  | read (isData : Bool) (bs : Bytes)
  | write (isData : Bool) (bs : Bytes)
  | log (line : String)
  deriving DecidableEq

/-- A session as the process has it that does the TLS. -/
structure SslState where
  dataFd : Option Fd := none
  /-- `p_data_ssl` is set -/
  dataSsl : Bool := false
  controlCertDigest : Bytes := []
  io : List SslIo := []
  events : List SslEvent := []

abbrev SslM := EStateM Halt SslState

section

variable (T : SslTunables) (a : SslAnswers)

def getSslError : String := "error:" ++ a.errorText

def emit (e : SslEvent) : SslM Unit := modify fun s => { s with events := s.events ++ [e] }

/-- One call of `SSL_write`. -/
def sslCall : SslM SslIo := do
  let s ← get
  match s.io with
  | [] => throw .running
  | o :: io => do
    set { s with io := io }
    pure o

/-- The first of the answers that is not to try again, and what is behind it. -/
def afterWants : List SslIo → Option (SslIo × List SslIo)
  | [] => none
  | .want :: io => afterWants io
  | o :: io => some (o, io)

/-- The loop of `ssl_read_common` and of `ssl_write`. -/
def sslRetry : SslM SslIo := do
  let s ← get
  match afterWants s.io with
  | none => throw .running
  | some (o, io) => do
    set { s with io := io }
    pure o

def eofText (isData : Bool) : String :=
  (if isData then "DATA" else "Control") ++ " connection terminated without SSL shutdown." ++
    (if isData then " Buggy client! Integrity of upload cannot be asserted." else "")

/-- The end of the stream, which has to come from the peer. -/
def sslEof (isData : Bool) : SslM ℤ := do
  if a.receivedShutdown then pure 0
  else do
    emit (.log (eofText isData))
    pure (if T.strictSslReadEof then -1 else 0)

/-- `ssl_read_common`, with the bytes it leaves in the buffer. -/
def sslReadCommon (isData : Bool) (len : ℕ) : SslM (ℤ × Bytes) := do
  let o ← sslRetry
  match o with
  | .done bs =>
    if bs.take len = [] then do
      let ret ← sslEof T a isData
      pure (ret, [])
    else pure (((bs.take len).length : ℕ), bs.take len)
  | .want => pure (-1, [])
  | .error => pure (-1, [])

def sslPeek (isData : Bool) (len : ℕ) : SslM (ℤ × Bytes) := sslReadCommon T a isData len

def sslRead (isData : Bool) (len : ℕ) : SslM (ℤ × Bytes) := do
  let r ← sslReadCommon T a isData len
  emit (.read isData r.2)
  pure r

/-- What a call of `SSL_write` returns, and it writes the bytes. -/
def sslWritten (isData : Bool) (buf : Bytes) : SslIo → SslM ℤ
  | .done bs => do
    emit (.write isData (buf.take bs.length))
    pure (min bs.length buf.length : ℕ)
  | .want => pure (-1)
  | .error => pure (-1)

def sslWrite (isData : Bool) (buf : Bytes) : SslM ℤ := do
  let o ← sslRetry
  sslWritten isData buf o

def sslWriteStr (isData : Bool) (str : Bytes) : SslM ℤ := do
  let o ← sslCall
  let ret ← sslWritten isData str o
  pure (if ret = str.length then 0 else -1)

/-- `ssl_read_into_str`, for a string of `len` bytes. -/
def sslReadIntoStr (len : ℕ) : SslM (ℤ × Bytes) := do
  let r ← sslRead T a true len
  pure (if 0 ≤ r.1 then (r.1, r.2.take r.1.toNat) else (r.1, []))

def sslDataClose : SslM Bool := do
  let s ← get
  if !s.dataSsl then pure true
  else do
    emit .shutdown
    let success ← match a.shutdown with
      | .sent => do
        emit .shutdown
        pure (decide (a.shutdownAgain = .both) || !T.strictSslWriteShutdown)
      | .error => pure (!T.strictSslWriteShutdown)
      | .both => pure true
    emit .free
    modify fun s => { s with dataSsl := false }
    pure success

def getSsl : SslM Bool := do
  if !a.sslNew then pure false
  else if !a.sslSetFd then pure false
  else if !a.sslAccept then throw (.die (getSslError a))
  else do
    emit .accept
    pure true

/-- The connection is given up again. -/
def sslRefuse (line : String) : SslM Bool := do
  emit (.log line)
  let _ ← sslDataClose T a
  pure false

/-- The check of the certificate in `ssl_accept`. -/
def sslCheckCert : SslM Bool := do
  let s ← get
  if s.controlCertDigest = [] then pure true
  else match a.peerCert with
    | .none => sslRefuse T a "Missing cert on data channel."
    | .unreadable => throw (.die "X509_digest failed")
    | .digest d =>
      if d ≠ s.controlCertDigest then sslRefuse T a "DIFFERENT cert on data channel." else pure true

def sslAccept : SslM Bool := do
  let s ← get
  if s.dataSsl then throw (.die "p_data_ssl should be NULL.")
  else do
    let ok ← getSsl a
    if !ok then pure false
    else do
      modify fun s => { s with dataSsl := true }
      if T.requireSslReuse && !a.sessionReused then sslRefuse T a "No SSL session reuse on data channel."
      else sslCheckCert T a

/-- The loop of `str_netfd_alloc` on the control connection; `got` is what it has read. -/
def sslNetfdAlloc : ℕ → Bytes → ℕ → SslM (ℤ × Bytes)
  | 0, _, _ => throw .running
  | rounds + 1, got, left => do
    if got.length + left ≠ vsftpMaxCommandLine then throw (.bug "poor buffer accounting in str_netfd_alloc")
    else if left = 0 then pure (-1, [])
    else do
      let seen ← sslPeek T a false left
      if seen.1 < 0 then throw (.die "vsf_sysutil_recv_peek")
      else if seen.1 = 0 then pure (0, [])
      else match seen.2.findIdx? (· = chLf) with
        | some i => do
          let r ← sslRead T a false (i + 1)
          if r.1 ≠ i + 1 then throw (.die "vsf_sysutil_read_loop")
          else if r.2[i]? ≠ some chLf then throw (.die "missing terminator in str_netfd_alloc")
          else pure (i + 1, (got ++ r.2).takeWhile (· ≠ chLf))
        | none => do
          let r ← sslRead T a false seen.2.length
          if r.1 ≠ seen.2.length then throw (.die "vsf_sysutil_read_loop")
          else sslNetfdAlloc rounds (got ++ r.2) (left - seen.2.length)

/-- `ftp_getline` of the process that has the connection. -/
def sslGetline : SslM (ℤ × Bytes) := sslNetfdAlloc T a (vsftpMaxCommandLine + 1) [] vsftpMaxCommandLine

/-- A request starts. -/
def withAnswers {α : Type} (x : SslM α) : SslM α := do
  modify fun s => { s with io := a.io }
  x

end

/-! ### The socket pair -/

/-- What a byte is part of. -/
inductive SockKind where
  | cmd
  | result
  | int
  | fd
  | str
  deriving DecidableEq

abbrev SslProc (ρ : Type) := Duplex.Proc SockKind PrivUnit ρ

def privSockGetUserCmd : UInt8 := 4
def privSockWriteUserResp : UInt8 := 5
def privSockDoSslHandshake : UInt8 := 6
def privSockDoSslClose : UInt8 := 7
def privSockDoSslRead : UInt8 := 8
def privSockDoSslWrite : UInt8 := 9

/-- `VSFTP_PRIVSOCK_MAXSTR` -/
def vsftpPrivsockMaxstr : ℕ := vsftpDataBufsize * 2

section

variable {ρ : Type} (halt : Halt → ρ)

def privSockSendCmd (cmd : UInt8) (next : SslProc ρ) : SslProc ρ := .send .cmd (cmd, none) next

def privSockSendResult (ok : Bool) (next : SslProc ρ) : SslProc ρ :=
  .send .result (if ok then privSockResultOk else privSockResultBad, none) next

def privSockSendInt (n : ℤ) (next : SslProc ρ) : SslProc ρ := .sendAll .int ((intBytes n).map (·, none)) next

/-- `priv_sock_send_str` and `priv_sock_send_buf`. -/
def privSockSendStr (str : Bytes) (next : SslProc ρ) : SslProc ρ :=
  privSockSendInt str.length <| .sendAll .str (str.map (·, none)) next

def privSockSendFd (fd : Fd) (next : SslProc ρ) : SslProc ρ := .send .fd (0, some fd) next

def privSockGetCmd (next : UInt8 → SslProc ρ) : SslProc ρ := .recv .cmd fun u => next u.1

def privSockGetResult (next : UInt8 → SslProc ρ) : SslProc ρ := .recv .result fun u => next u.1

def privSockGetInt (next : ℤ → SslProc ρ) : SslProc ρ :=
  .recvAll .int 4 fun us => next (intOfBytes (us.map (·.1)))

/-- An `int` as an `unsigned int`. -/
def asUnsigned (n : ℤ) : ℕ := (n % 2 ^ 32).toNat

def privSockGetStr (next : Bytes → SslProc ρ) : SslProc ρ :=
  privSockGetInt fun len =>
    if vsftpPrivsockMaxstr < asUnsigned len then .stop (halt (.die "priv_sock_get_str: too big"))
    else .recvAll .str (asUnsigned len) fun us => next (us.map (·.1))

def privSockRecvBuf (len : ℕ) (next : Bytes → SslProc ρ) : SslProc ρ :=
  privSockGetInt fun recvLen =>
    if len < asUnsigned recvLen then .stop (halt (.bug "recv_len bigger than buffer"))
    else .recvAll .str (asUnsigned recvLen) fun us => next (us.map (·.1))

/-- The descriptor gets a number of its own here. -/
def privSockRecvFd (fd : Fd) (next : Fd → SslProc ρ) : SslProc ρ :=
  .recv .fd fun u => match u.2 with
    | none => .stop (halt (.die "no passed fd"))
    | some _ => next fd

end

/-! ### The slave -/

section

variable (T : SslTunables) (a : SslAnswers)

/-- An operation of the slave, and what it does with its result. -/
def onResult {α : Type} (x : SslM α) (s : SslState) (next : α → SslState → SslProc Halt) : SslProc Halt :=
  match x s with
  | .ok v s' => next v s'
  | .error e _ => .stop e

/-- The descriptor is closed and forgotten. -/
def closeDataFd : SslM Unit := do
  if !a.close then throw (.die "close")
  else modify fun s => { s with dataFd := none }

/-- `PRIV_SOCK_DO_SSL_HANDSHAKE`, with the descriptor. -/
def doSslHandshake (fd : Fd) : SslM Bool := do
  modify fun s => { s with dataFd := some fd }
  let ok ← sslAccept T a
  if ok then pure true
  else do
    closeDataFd a
    pure false

/-- `PRIV_SOCK_DO_SSL_CLOSE`, of a connection. -/
def doSslClose : SslM Bool := do
  let ok ← sslDataClose T a
  closeDataFd a
  pure ok

section

variable (s : SslState) (next : SslState → SslProc Halt)

/-- The slave has no connection to read or to write. -/
def noConnection : Prop := s.dataFd = none ∨ s.dataSsl = false

instance : Decidable (noConnection s) := inferInstanceAs (Decidable (_ ∨ _))

def slaveGetUserCmd : SslProc Halt :=
  onResult (withAnswers a (sslGetline T a)) s fun r s' =>
    privSockSendInt r.1 <| if 0 ≤ r.1 then privSockSendStr r.2 (next s') else next s'

def slaveWriteUserResp : SslProc Halt :=
  privSockGetStr id fun str =>
    onResult (withAnswers a (sslWriteStr false str)) s fun ret s' => privSockSendInt ret (next s')

def slaveHandshake : SslProc Halt :=
  if s.dataFd ≠ none ∨ s.dataSsl then .stop (.bug "state not clean")
  else privSockRecvFd id a.fd fun fd =>
    onResult (withAnswers a (doSslHandshake T a fd)) s fun ok s' => privSockSendResult ok (next s')

def slaveRead : SslProc Halt :=
  privSockGetInt fun size =>
    if size ≤ 0 ∨ size > vsftpDataBufsize then .stop (.bug "bad size")
    else if noConnection s then .stop (.bug "invalid state")
    else onResult (withAnswers a (sslReadIntoStr T a size.toNat)) s fun r s' =>
      privSockSendInt r.1 <| privSockSendStr r.2 (next s')

def slaveWrite : SslProc Halt :=
  if noConnection s then .stop (.bug "invalid state")
  else privSockGetStr id fun buf =>
    onResult (withAnswers a (sslWrite true buf)) s fun ret s' => privSockSendInt ret (next s')

def slaveClose : SslProc Halt :=
  if s.dataFd = none ∧ s.dataSsl = false then privSockSendResult true (next s)
  else if noConnection s then .stop (.bug "invalid state")
  else onResult (withAnswers a (doSslClose T a)) s fun ok s' => privSockSendResult ok (next s')

/-- A command, behind which its arguments come. -/
def slaveCmd (cmd : UInt8) : SslProc Halt :=
  if cmd = privSockGetUserCmd then slaveGetUserCmd T a s next
  else if cmd = privSockWriteUserResp then slaveWriteUserResp a s next
  else if cmd = privSockDoSslHandshake then slaveHandshake T a s next
  else if cmd = privSockDoSslRead then slaveRead T a s next
  else if cmd = privSockDoSslWrite then slaveWrite a s next
  else if cmd = privSockDoSslClose then slaveClose T a s next
  else .stop (.die "bad request in process_ssl_slave_req")

/-- One round of the loop of `ssl_slave`, and what comes behind it. -/
def slaveReq : SslProc Halt := privSockGetCmd (slaveCmd T a s next)

end

end

/-- `ssl_slave`, with the answers it gets for each request; it is followed for as many requests as there
are answers. -/
def slaveProc (T : SslTunables) : List SslAnswers → SslState → SslProc Halt
  | [], _ => .stop .running
  | a :: as, s => slaveReq T a s (slaveProc T as)

/-! ### The consumer -/

/-- What a call returns, and what it reads. -/
structure Reply where
  ret : ℤ
  str : Bytes := []
  deriving DecidableEq

/-- The calls of a session that concern its connections. -/
inductive SslCall where
  | ftpGetline
  /-- `ftp_write_str` to the control connection -/
  | ftpWriteControl (str : Bytes)
  /-- `ftp_write_str` to the data connection -/
  | ftpWriteStr (str : Bytes)
  | ftpReadData (len : ℕ)
  | ftpWriteData (buf : Bytes)
  | initDataSockParams (fd : Fd)
  | postMarkConnect
  /-- the client has sent ABOR or the transfer has timed out, or not -/
  | disposeTransferFd (cut : Bool)
  /-- PROT P or PROT C -/
  | handleProt (isPrivate : Bool)
  deriving DecidableEq

/-- The consumer's side of the data connection. -/
structure Consumer where
  dataFd : Option Fd := none
  dataUseSsl : Bool := false
  /-- the TLS handshake of the connection has succeeded -/
  established : Bool := false
  deriving DecidableEq

namespace Consumer

/-- A call has returned. -/
def after (c : Consumer) (r : Reply) : SslCall → Consumer
  | .initDataSockParams fd => { c with dataFd := some fd }
  | .postMarkConnect => { c with established := c.dataUseSsl && decide (r.ret = 1) }
  | .disposeTransferFd _ => { c with dataFd := none, established := false }
  | .handleProt isPrivate => { c with dataUseSsl := isPrivate }
  | _ => c

/-- The call is one for the process that does the TLS. -/
def asks (c : Consumer) : SslCall → Bool
  | .ftpGetline => true
  | .ftpWriteControl _ => true
  | .initDataSockParams _ => false
  | .handleProt _ => false
  | _ => c.dataUseSsl

end Consumer

inductive ConsumerEnd where
  | done (c : Consumer) (replies : List Reply)
  | halted (e : Halt)

def ofRet (ret : ℤ) : Reply := ⟨ret, []⟩

/-- 1 or 0, which is 0 in any case for a transfer that was cut off. -/
def ofOk (cut ok : Bool) : Reply := ofRet (if ok && !cut then 1 else 0)

/-- What `ftp_write_str` makes of the slave's count. -/
def ofWritten (str : Bytes) (written : ℤ) : Reply := ofRet (if 0 < written ∧ written = str.length then 0 else -1)

def ofRead (r : ℤ × Bytes) : Reply := ⟨r.1, r.2⟩

/-- A string that only comes with a result that is not an error. -/
def ofGetline (r : ℤ × Bytes) : Reply := if 0 ≤ r.1 then ofRead r else ofRet r.1

/-- A call with a slave, and what comes behind it; `plain` is what it returns where the data
connection is not over TLS. -/
def SslCall.run (c : Consumer) (plain : Reply) (next : Reply → SslProc ConsumerEnd) :
    SslCall → SslProc ConsumerEnd
  | .ftpGetline =>
    privSockSendCmd privSockGetUserCmd <| privSockGetInt fun ret =>
      if 0 ≤ ret then privSockGetStr .halted fun str => next ⟨ret, str⟩ else next (ofRet ret)
  | .ftpWriteControl str =>
    privSockSendCmd privSockWriteUserResp <| privSockSendStr str <| privSockGetInt fun ret => next (ofRet ret)
  | .ftpWriteStr str =>
    if c.dataUseSsl then
      privSockSendCmd privSockDoSslWrite <| privSockSendStr str <| privSockGetInt fun written =>
        next (ofWritten str written)
    else next plain
  | .ftpReadData len =>
    if c.dataUseSsl then
      privSockSendCmd privSockDoSslRead <| privSockSendInt len <| privSockGetInt fun ret =>
        privSockRecvBuf .halted len fun str => next ⟨ret, str⟩
    else next plain
  | .ftpWriteData buf =>
    if c.dataUseSsl then
      privSockSendCmd privSockDoSslWrite <| privSockSendStr buf <| privSockGetInt fun ret => next (ofRet ret)
    else next plain
  | .initDataSockParams _ =>
    if c.dataFd ≠ none then
      .stop (.halted (.bug "data descriptor still present in init_data_sock_params"))
    else next (ofRet 0)
  | .postMarkConnect =>
    if c.dataUseSsl then
      privSockSendCmd privSockDoSslHandshake <| match c.dataFd with
        | none => .stop (.halted (.die "sendmsg"))
        | some fd => privSockSendFd fd <| privSockGetResult fun res => next (ofOk false (res = privSockResultOk))
    else next (ofRet 1)
  | .disposeTransferFd cut =>
    if c.dataFd = none then
      .stop (.halted (.bug "no data descriptor in vsf_ftpdataio_dispose_transfer_fd"))
    else if c.dataUseSsl then
      privSockSendCmd privSockDoSslClose <| privSockGetResult fun res =>
        next (ofOk cut (res = privSockResultOk))
    else next (ofOk cut true)
  | .handleProt _ => next (ofRet 0)

/-- What a session calls, which may depend on what the calls before have returned. -/
inductive Script where
  | done
  | act (call : SslCall) (next : Reply → Script)

/-- A session; `plain` has the results of what is not over TLS, by the number of the call. -/
def consumerProc (plain : ℕ → Reply) : Script → Consumer → List Reply → SslProc ConsumerEnd
  | .done, c, rs => .stop (.done c rs)
  | .act call next, c, rs =>
    .rest (call.run c (plain rs.length) fun r => consumerProc plain (next r) (c.after r call) (rs ++ [r]))

/-! ### The calls without the socket pair -/

section

variable (T : SslTunables) (a : SslAnswers)

/-- What the slave does for a call, and what the call returns then. -/
def SslCall.serve : SslCall → SslM Reply
  | .ftpGetline => ofGetline <$> withAnswers a (sslGetline T a)
  | .ftpWriteControl str => ofRet <$> withAnswers a (sslWriteStr false str)
  | .ftpWriteStr str => ofWritten str <$> withAnswers a (sslWrite true str)
  | .ftpReadData len => ofRead <$> withAnswers a (sslReadIntoStr T a len)
  | .ftpWriteData buf => ofRet <$> withAnswers a (sslWrite true buf)
  | .postMarkConnect => ofOk false <$> withAnswers a (doSslHandshake T a a.fd)
  | .disposeTransferFd cut => do
    let s ← get
    if s.dataSsl then ofOk cut <$> withAnswers a (doSslClose T a)
    else pure (ofOk cut true)
  | .initDataSockParams _ => pure (ofRet 0)
  | .handleProt _ => pure (ofRet 0)

/-- What a call does in a session that has no slave. -/
def SslCall.direct : SslCall → SslM Reply
  | .ftpGetline => ofGetline <$> withAnswers a (sslGetline T a)
  | .ftpWriteControl str => ofRet <$> withAnswers a (sslWriteStr false str)
  | .ftpWriteStr str => ofRet <$> withAnswers a (sslWriteStr true str)
  | .ftpReadData len => ofRead <$> withAnswers a (sslRead T a true len)
  | .ftpWriteData buf => ofRet <$> withAnswers a (sslWrite true buf)
  | .postMarkConnect => ofOk false <$> withAnswers a (sslAccept T a)
  | .disposeTransferFd cut => do
    let s ← get
    if s.dataSsl then ofOk cut <$> withAnswers a (sslDataClose T a)
    else pure (ofOk cut true)
  | .initDataSockParams _ => pure (ofRet 0)
  | .handleProt _ => pure (ofRet 0)

/-- What a call returns that is not one for the process that does the TLS. -/
def SslCall.clear (plain : Reply) : SslCall → Reply
  | .initDataSockParams _ => ofRet 0
  | .handleProt _ => ofRet 0
  | .postMarkConnect => ofRet 1
  | .disposeTransferFd cut => ofOk cut true
  | _ => plain

end

/-- A session's calls one after the other, each that is one for TLS served by `f`. -/
def runCalls (f : SslAnswers → SslCall → SslM Reply) (plain : ℕ → Reply) :
    Script → Consumer → List Reply → List SslAnswers → SslM (Consumer × List Reply × List SslAnswers)
  | .done, c, rs, as => pure (c, rs, as)
  | .act call next, c, rs, as =>
    if c.asks call then match as with
      | [] => throw .running
      | a :: as => do
        let r ← f a call
        runCalls f plain (next r) (c.after r call) (rs ++ [r]) as
    else
      let r := call.clear (plain rs.length)
      runCalls f plain (next r) (c.after r call) (rs ++ [r]) as

/-- With the slave. -/
def runScript (T : SslTunables) := runCalls (SslCall.serve T)

/-- In one process. -/
def runDirect (T : SslTunables) := runCalls (SslCall.direct T)

/-! ### What a session may call -/

/-- The call is one that the session makes where its data connection is as `c` has it. -/
def Consumer.Permits (c : Consumer) : SslCall → Prop
  | .ftpGetline => True
  | .ftpWriteControl str => str.length ≤ vsftpPrivsockMaxstr
  | .ftpWriteStr str => (c.dataUseSsl → c.established) ∧ str ≠ [] ∧ str.length ≤ vsftpPrivsockMaxstr
  | .ftpReadData len => (c.dataUseSsl → c.established) ∧ 0 < len ∧ len ≤ vsftpDataBufsize
  | .ftpWriteData buf => (c.dataUseSsl → c.established) ∧ buf.length ≤ vsftpPrivsockMaxstr
  | .initDataSockParams _ => c.dataFd = none
  | .postMarkConnect => c.dataFd ≠ none ∧ c.established = false
  | .disposeTransferFd _ => c.dataFd ≠ none
  | .handleProt _ => c.dataFd = none

/-- Each call is permitted where it is made, whatever the calls before have returned. -/
def Script.Follows : Script → Consumer → Prop
  | .done, _ => True
  | .act call next, c => c.Permits call ∧ ∀ r, (next r).Follows (c.after r call)

end Tls
end CosFtp
