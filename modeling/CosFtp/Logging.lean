/-
# The log files

`vsf_log_common` writes an event to xferlog, if it is one of a transfer, and to
vsftpd.log, each in its own format and with an LF behind it. The texts that come
from the client or from COS are copied into the lines as they are: the call that
would have replaced what cannot be printed is compiled out.

Key definitions: `vsfLogDoLogWuftpdFormat`, `vsfLogDoLogVsftpdFormat`, `vsfLogCommon`, `logBytes`.
-/
import CosFtp.Session

namespace CosFtp

/-! ### A call -/

/-- What the clock and the system say of a line: the date, the process, the seconds since the entry was
started, and the rate of a transfer as `snprintf("%.2f")` writes it. -/
structure Stamp where
  date : Bytes
  pid : ℕ
  deltaSec : ℤ
  kbyteRate : Bytes
  deriving DecidableEq

/-- A call of `vsf_log_common`. -/
structure LogCall where
  what : LogEntryType
  succeeded : Bool
  msg : Bytes
  view : LogView
  deriving DecidableEq

inductive LogFile where
  | xferlog
  | vsftpdLog
  deriving DecidableEq

/-- The calls in a trace. -/
def Event.logCall : Event → Option LogCall
  | .log what succeeded msg view => some ⟨what, succeeded, msg, view⟩
  | _ => none

def logCalls (es : List Event) : List LogCall := es.filterMap Event.logCall

theorem logCalls_append (es es' : List Event) : logCalls (es ++ es') = logCalls es ++ logCalls es' :=
  List.filterMap_append

def vsfLogTypeIsTransfer (what : LogEntryType) : Bool := what = .download || what = .upload

/-! ### The formats -/

/-- Who has made a transfer. -/
def LogView.identity (v : LogView) : Bytes :=
  if v.isAnonymous ∧ !v.isGuest then v.anonPassStr else v.userStr

def LogView.accessMode (v : LogView) : String :=
  if v.isAnonymous ∧ !v.isGuest then "a" else if v.isGuest then "g" else "r"

/-- The fields of a line of xferlog behind the date. -/
def wuftpdFields (st : Stamp) (v : LogView) (succeeded : Bool) : List Bytes :=
  [ulongText (if st.deltaSec ≤ 0 then 1 else st.deltaSec.toNat), v.remoteIpStr, ulongText v.transferSize,
    strReplaceChar v.logStr chSpace 95, text (if v.isAscii then "a" else "b"), text "_",
    text (if v.logType = some .upload then "i" else "o"), text v.accessMode, v.identity, text "ftp", text "0",
    text "*", text (if succeeded then "c" else "i")]

def vsfLogDoLogWuftpdFormat (st : Stamp) (v : LogView) (succeeded : Bool) : Bytes :=
  st.date ++ [chSpace] ++ [chSpace].intercalate (wuftpdFields st v succeeded)

def LogEntryType.action : LogEntryType → String
  | .download => "DOWNLOAD"
  | .upload => "UPLOAD"
  | .mkdir => "MKDIR"
  | .login => "LOGIN"
  | .ftpInput => "FTP command"
  | .ftpOutput => "FTP response"
  | .connection => "CONNECT"
  | .delete => "DELETE"
  | .rename => "RENAME"
  | .rmdir => "RMDIR"
  | .chmod => "CHMOD"
  | .debug => "DEBUG"

variable (T : Tunables)

/-- What comes in front of the client. -/
def vsftpdHead (st : Stamp) (c : LogCall) : Bytes :=
  (if T.syslogEnable then [] else st.date ++ text " [pid " ++ ulongText st.pid ++ text "] ") ++
  (if c.view.userStr = [] then [] else text "[" ++ c.view.userStr ++ text "] ") ++
  (if c.what ≠ .ftpInput ∧ c.what ≠ .ftpOutput ∧ c.what ≠ .connection ∧ c.what ≠ .debug then
    text (if c.succeeded then "OK " else "FAIL ")
  else []) ++ text c.what.action

/-- The bytes of a transfer and its rate. -/
def vsftpdTail (st : Stamp) (c : LogCall) : Bytes :=
  if c.what ≠ .ftpInput ∧ c.what ≠ .ftpOutput ∧ c.what ≠ .debug then
    (if c.view.transferSize ≠ 0 then text ", " ++ ulongText c.view.transferSize ++ text " bytes" else []) ++
    (if vsfLogTypeIsTransfer c.what then text ", " ++ st.kbyteRate ++ text "Kbyte/sec" else [])
  else []

def vsfLogDoLogVsftpdFormat (st : Stamp) (c : LogCall) : Bytes :=
  vsftpdHead T st c ++ text ": Client \"" ++ c.view.remoteIpStr ++ text "\"" ++
  (if c.what = .login ∧ c.view.anonPassStr ≠ [] then
    text ", anon password \"" ++ c.view.anonPassStr ++ text "\""
  else []) ++
  (if c.msg = [] then [] else text ", \"" ++ c.msg ++ text "\"") ++ vsftpdTail st c

/-! ### The files -/

/-- The files that `vsf_log_init` opens. -/
def xferlogOpen : Bool := (T.xferlogEnable || T.dualLogEnable) && (T.dualLogEnable || T.xferlogStdFormat)

def vsftpdLogOpen : Bool :=
  (T.xferlogEnable || T.dualLogEnable) && (T.dualLogEnable || !T.xferlogStdFormat) && !T.syslogEnable

/-- `vsf_log_do_log_to_file`: what is appended for a line. -/
def vsfLogDoLogToFile (line : Bytes) : Bytes := line ++ [chLf]

/-- What a call appends to which file. -/
def vsfLogCommon (st : Stamp) (c : LogCall) : List (LogFile × Bytes) :=
  (if xferlogOpen T ∧ vsfLogTypeIsTransfer c.what then
    [(.xferlog, vsfLogDoLogToFile (vsfLogDoLogWuftpdFormat st c.view c.succeeded))]
  else []) ++
  (if vsftpdLogOpen T then [(.vsftpdLog, vsfLogDoLogToFile (vsfLogDoLogVsftpdFormat T st c))] else [])

/-- All that a run of calls appends to a file, the call at each place with its own stamp. -/
def logBytes (stamp : ℕ → Stamp) (calls : List LogCall) (file : LogFile) : Bytes :=
  calls.zipIdx.flatMap fun (c, i) =>
    ((vsfLogCommon T (stamp i) c).filter fun p => p.1 = file).flatMap (·.2)

end CosFtp
