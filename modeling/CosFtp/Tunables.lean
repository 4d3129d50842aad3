/-
# The settings

The tunables the modelled code reads, under their names in tunables.h and with
the values `tunables_load_defaults` gives them. A string setting that may be
unset is an `Option`. The constants are those of defs.h.
-/
import CosFtp.Str

namespace CosFtp

def vsftpDataBufsize : ℕ := 65536
def vsftpDirBufsize : ℕ := 16384
def vsftpMatchitersMax : ℕ := 1000
def vsftpMaxVisitRemember : ℕ := 100
def vsftpCosDownloadBufsize : ℕ := 64 * 1024 * 1024
def ipportReserved : ℕ := 1024
def vsftpUsernameMax : ℕ := 128
def vsftpPasswordMax : ℕ := 128

/-- The settings of a server. -/
structure Tunables where
  pasvEnable : Bool := true
  portEnable : Bool := true
  writeEnable : Bool := false
  anonUploadEnable : Bool := false
  anonMkdirWriteEnable : Bool := false
  anonOtherWriteEnable : Bool := false
  chownUploads : Bool := false
  connectFromPort20 : Bool := false
  dirmessageEnable : Bool := false
  asyncAborEnable : Bool := false
  asciiUploadEnable : Bool := false
  asciiDownloadEnable : Bool := false
  oneProcessModel : Bool := false
  pasvPromiscuous : Bool := false
  portPromiscuous : Bool := false
  downloadEnable : Bool := true
  dirlistEnable : Bool := true
  sslEnable : Bool := false
  forceLocalDataSsl : Bool := true
  forceAnonDataSsl : Bool := false
  sslv2 : Bool := false
  sslv3 : Bool := false
  tlsv1 : Bool := true
  tildeUserEnable : Bool := false
  lockUploadFiles : Bool := true
  deleteFailedUploads : Bool := false
  requireSslReuse : Bool := true
  strictSslReadEof : Bool := true
  ftpDataPort : ℕ := 20
  idleSessionTimeout : ℕ := 300
  dataConnectionTimeout : ℕ := 300
  anonMaxRate : ℕ := 0
  localMaxRate : ℕ := 0
  pasvMinPort : ℕ := 5001
  pasvMaxPort : ℕ := 0
  transChunkSize : ℕ := 0
  pasvAddress : Option Bytes := none
  cmdsAllowed : Option Bytes := none
  cmdsDenied : Option Bytes := none
  denyFile : Option Bytes := none
  cosAppid : Bytes := []
  cosBucket : Bytes := []
  userHomeDir : Bytes := text "/tempdir"
  maxUploadFileSize : ℕ := 0
  cosDownloadChunkSize : ℕ := 0
  maxClients : ℕ := 2000
  maxPerIp : ℕ := 50
  ftpEnable : Bool := true
  httpEnable : Bool := false
  anonymousEnable : Bool := true
  localEnable : Bool := false
  loginUsers : Option Bytes := none
  noAnonPassword : Bool := false
  userlistEnable : Bool := false
  userlistDeny : Bool := true
  implicitSsl : Bool := false
  allowAnonSsl : Bool := false
  forceLocalLoginsSsl : Bool := true
  forceAnonLoginsSsl : Bool := false
  maxLoginFails : ℕ := 3
  listMaxCount : ℕ := 0
  xferlogEnable : Bool := false
  xferlogStdFormat : Bool := false
  logFtpProtocol : Bool := false
  dualLogEnable : Bool := false
  syslogEnable : Bool := false
  noLogLock : Bool := false
  ftpdBanner : Option Bytes := none

variable (T : Tunables)

/-- `get_chunk_size`: the bytes of one network read or write. -/
def getChunkSize : ℕ :=
  if T.transChunkSize < vsftpDataBufsize ∧ 0 < T.transChunkSize then max T.transChunkSize 4096
  else vsftpDataBufsize

/-- `get_cos_download_chunksize`: the bytes asked for in one COS download. -/
def getCosDownloadChunksize : ℕ :=
  if T.cosDownloadChunkSize < vsftpCosDownloadBufsize ∧ 0 < T.cosDownloadChunkSize then
    max T.cosDownloadChunkSize 65536
  else vsftpCosDownloadBufsize

theorem getChunkSize_pos : 0 < getChunkSize T := by
  unfold getChunkSize vsftpDataBufsize; split <;> omega

theorem getChunkSize_le : getChunkSize T ≤ vsftpDataBufsize := by
  unfold getChunkSize vsftpDataBufsize; split <;> omega

theorem getCosDownloadChunksize_pos : 0 < getCosDownloadChunksize T := by
  unfold getCosDownloadChunksize vsftpCosDownloadBufsize; split <;> omega

/-- `get_user_root_dir`: home directory, application and bucket. -/
def getUserRootDir : Bytes :=
  let dir := if T.userHomeDir = [] then text "./" else T.userHomeDir
  let dir := if dir.getLast? = some chSlash then dir else dir ++ [chSlash]
  dir ++ T.cosAppid ++ [chSlash] ++ T.cosBucket

end CosFtp
