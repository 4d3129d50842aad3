/-
# The configuration file

`tunables_load_defaults` gives every variable its default, and
`vsf_parseconf_load_file` reads a file over it, line by line: in fatal mode at
the start, in tolerant mode when `handle_sighup` reads it again. Between the
two stands one adjustment of `main`, which puts the numeric address in the
place of the host name in `pasv_address` when `pasv_addr_resolve` is on;
`handle_sighup` does not repeat it. So a reload gives back the settings the
listener was started with exactly when that adjustment changed nothing, and
this is so when the file does not ask for it or when the address it names
resolves to the text that stands in the file.

Key definitions: `tunablesLoadDefaults`, `vsfParseconfLoadSetting`,
`vsfParseconfLoadFile`, `mainUntilListener`, `handleSighup`, `sighups`.
Key theorems: `tunablesLoadDefaults_eq`, `tunablesLoadDefaults_tunables`,
`loadFile_tolerant`, `reload_idempotent_iff`.
-/
import CosFtp.Prelogin

namespace CosFtp

/-! ### The variables and their tables -/

/-- The boolean variables. -/
inductive BoolVar where
  | anonymousEnable | localEnable | pasvEnable | portEnable | chrootLocalUser | writeEnable
  | anonUploadEnable | anonMkdirWriteEnable | anonOtherWriteEnable | chownUploads
  | connectFromPort20 | xferlogEnable | dirmessageEnable | anonWorldReadableOnly
  | asyncAborEnable | asciiUploadEnable | asciiDownloadEnable | oneProcessModel
  | xferlogStdFormat | pasvPromiscuous | denyEmailEnable | chrootListEnable | setproctitleEnable
  | textUserdbNames | lsRecurseEnable | logFtpProtocol | guestEnable | userlistEnable
  | userlistDeny | useLocaltime | checkShell | hideIds | listen | portPromiscuous
  | passwdChrootEnable | noAnonPassword | tcpWrappers | useSendfile | forceDotFiles | listenIpv6
  | dualLogEnable | syslogEnable | background | virtualUseLocalPrivs | sessionSupport
  | downloadEnable | dirlistEnable | chmodEnable | secureEmailListEnable | runAsLaunchingUser
  | noLogLock | sslEnable | allowAnonSsl | forceLocalLoginsSsl | forceLocalDataSsl | sslv2
  | sslv3 | tlsv1 | tildeUserEnable | forceAnonLoginsSsl | forceAnonDataSsl | mdtmWrite
  | lockUploadFiles | pasvAddrResolve | debugSsl | requireCert | validateCert | strictSslReadEof
  | strictSslWriteShutdown | sslRequestCert | deleteFailedUploads | implicitSsl | ptraceSandbox
  | requireSslReuse | isolate | isolateNetwork | ftpEnable | httpEnable | seccompSandbox
  | allowWriteableChroot | cosTakeSha
  deriving DecidableEq

/-- The unsigned integer variables. -/
inductive UintVar where
  | acceptTimeout | connectTimeout | localUmask | anonUmask | ftpDataPort | idleSessionTimeout
  | dataConnectionTimeout | pasvMinPort | pasvMaxPort | anonMaxRate | localMaxRate | listenPort
  | maxClients | fileOpenMode | maxPerIp | transChunkSize | delayFailedLogin
  | delaySuccessfulLogin | maxLoginFails | chownUploadMode | maxUploadFileSize | listMaxCount
  | cosDownloadChunkSize | cosUploadSliceSize | cosConnTimeoutMs | cosReqTimeoutMs
  | cosSignExpireS
  deriving DecidableEq

/-- The string variables. -/
inductive StrVar where
  | secureChrootDir | ftpUsername | chownUsername | xferlogFile | vsftpdLogFile | messageFile
  | noprivUser | ftpdBanner | bannedEmailFile | chrootListFile | pamServiceName | guestUsername
  | userlistFile | anonRoot | localRoot | bannerFile | pasvAddress | listenAddress
  | userConfigDir | listenAddress6 | cmdsAllowed | hideFile | denyFile | userSubToken
  | emailPasswordFile | rsaCertFile | dsaCertFile | sslCiphers | rsaPrivateKeyFile
  | dsaPrivateKeyFile | caCertsFile | cmdsDenied | cosAppid | cosSecretid | cosSecretkey
  | cosBucket | cosRegion | cosDownloadDomain | userHomeDir | loginUsers
  deriving DecidableEq

/-- `parseconf_bool_array` -/
def parseconfBoolArray : List (String × BoolVar) :=
  [("anonymous_enable", .anonymousEnable), ("local_enable", .localEnable),
   ("pasv_enable", .pasvEnable), ("port_enable", .portEnable),
   ("chroot_local_user", .chrootLocalUser), ("write_enable", .writeEnable),
   ("anon_upload_enable", .anonUploadEnable), ("anon_mkdir_write_enable", .anonMkdirWriteEnable),
   ("anon_other_write_enable", .anonOtherWriteEnable), ("chown_uploads", .chownUploads),
   ("connect_from_port_20", .connectFromPort20), ("xferlog_enable", .xferlogEnable),
   ("dirmessage_enable", .dirmessageEnable),
   ("anon_world_readable_only", .anonWorldReadableOnly), ("async_abor_enable", .asyncAborEnable),
   ("ascii_upload_enable", .asciiUploadEnable), ("ascii_download_enable", .asciiDownloadEnable),
   ("one_process_model", .oneProcessModel), ("xferlog_std_format", .xferlogStdFormat),
   ("pasv_promiscuous", .pasvPromiscuous), ("deny_email_enable", .denyEmailEnable),
   ("chroot_list_enable", .chrootListEnable), ("setproctitle_enable", .setproctitleEnable),
   ("text_userdb_names", .textUserdbNames), ("ls_recurse_enable", .lsRecurseEnable),
   ("log_ftp_protocol", .logFtpProtocol), ("guest_enable", .guestEnable),
   ("userlist_enable", .userlistEnable), ("userlist_deny", .userlistDeny),
   ("use_localtime", .useLocaltime), ("check_shell", .checkShell), ("hide_ids", .hideIds),
   ("listen", .listen), ("port_promiscuous", .portPromiscuous),
   ("passwd_chroot_enable", .passwdChrootEnable), ("no_anon_password", .noAnonPassword),
   ("tcp_wrappers", .tcpWrappers), ("use_sendfile", .useSendfile),
   ("force_dot_files", .forceDotFiles), ("listen_ipv6", .listenIpv6),
   ("dual_log_enable", .dualLogEnable), ("syslog_enable", .syslogEnable),
   ("background", .background), ("virtual_use_local_privs", .virtualUseLocalPrivs),
   ("session_support", .sessionSupport), ("download_enable", .downloadEnable),
   ("dirlist_enable", .dirlistEnable), ("chmod_enable", .chmodEnable),
   ("secure_email_list_enable", .secureEmailListEnable),
   ("run_as_launching_user", .runAsLaunchingUser), ("no_log_lock", .noLogLock),
   ("ssl_enable", .sslEnable), ("allow_anon_ssl", .allowAnonSsl),
   ("force_local_logins_ssl", .forceLocalLoginsSsl),
   ("force_local_data_ssl", .forceLocalDataSsl), ("ssl_sslv2", .sslv2), ("ssl_sslv3", .sslv3),
   ("ssl_tlsv1", .tlsv1), ("tilde_user_enable", .tildeUserEnable),
   ("force_anon_logins_ssl", .forceAnonLoginsSsl), ("force_anon_data_ssl", .forceAnonDataSsl),
   ("mdtm_write", .mdtmWrite), ("lock_upload_files", .lockUploadFiles),
   ("pasv_addr_resolve", .pasvAddrResolve), ("debug_ssl", .debugSsl),
   ("require_cert", .requireCert), ("validate_cert", .validateCert),
   ("strict_ssl_read_eof", .strictSslReadEof),
   ("strict_ssl_write_shutdown", .strictSslWriteShutdown), ("ssl_request_cert", .sslRequestCert),
   ("delete_failed_uploads", .deleteFailedUploads), ("implicit_ssl", .implicitSsl),
   ("ptrace_sandbox", .ptraceSandbox), ("require_ssl_reuse", .requireSslReuse),
   ("isolate", .isolate), ("isolate_network", .isolateNetwork), ("ftp_enable", .ftpEnable),
   ("http_enable", .httpEnable), ("seccomp_sandbox", .seccompSandbox),
   ("allow_writeable_chroot", .allowWriteableChroot), ("cos_take_sha", .cosTakeSha)]

/-- `parseconf_uint_array` -/
def parseconfUintArray : List (String × UintVar) :=
  [("accept_timeout", .acceptTimeout), ("connect_timeout", .connectTimeout),
   ("local_umask", .localUmask), ("anon_umask", .anonUmask), ("ftp_data_port", .ftpDataPort),
   ("idle_session_timeout", .idleSessionTimeout),
   ("data_connection_timeout", .dataConnectionTimeout), ("pasv_min_port", .pasvMinPort),
   ("pasv_max_port", .pasvMaxPort), ("anon_max_rate", .anonMaxRate),
   ("local_max_rate", .localMaxRate), ("listen_port", .listenPort), ("max_clients", .maxClients),
   ("file_open_mode", .fileOpenMode), ("max_per_ip", .maxPerIp),
   ("trans_chunk_size", .transChunkSize), ("delay_failed_login", .delayFailedLogin),
   ("delay_successful_login", .delaySuccessfulLogin), ("max_login_fails", .maxLoginFails),
   ("chown_upload_mode", .chownUploadMode), ("max_upload_file_size", .maxUploadFileSize),
   ("list_max_count", .listMaxCount), ("cos_download_chunk_size", .cosDownloadChunkSize),
   ("cos_upload_slice_size", .cosUploadSliceSize), ("cos_conn_timeout_ms", .cosConnTimeoutMs),
   ("cos_req_timeout_ms", .cosReqTimeoutMs), ("cos_sign_expire_s", .cosSignExpireS)]

/-- `parseconf_str_array` -/
def parseconfStrArray : List (String × StrVar) :=
  [("secure_chroot_dir", .secureChrootDir), ("ftp_username", .ftpUsername),
   ("chown_username", .chownUsername), ("xferlog_file", .xferlogFile),
   ("vsftpd_log_file", .vsftpdLogFile), ("message_file", .messageFile),
   ("nopriv_user", .noprivUser), ("ftpd_banner", .ftpdBanner),
   ("banned_email_file", .bannedEmailFile), ("chroot_list_file", .chrootListFile),
   ("pam_service_name", .pamServiceName), ("guest_username", .guestUsername),
   ("userlist_file", .userlistFile), ("anon_root", .anonRoot), ("local_root", .localRoot),
   ("banner_file", .bannerFile), ("pasv_address", .pasvAddress),
   ("listen_address", .listenAddress), ("user_config_dir", .userConfigDir),
   ("listen_address6", .listenAddress6), ("cmds_allowed", .cmdsAllowed),
   ("hide_file", .hideFile), ("deny_file", .denyFile), ("user_sub_token", .userSubToken),
   ("email_password_file", .emailPasswordFile), ("rsa_cert_file", .rsaCertFile),
   ("dsa_cert_file", .dsaCertFile), ("ssl_ciphers", .sslCiphers),
   ("rsa_private_key_file", .rsaPrivateKeyFile), ("dsa_private_key_file", .dsaPrivateKeyFile),
   ("ca_certs_file", .caCertsFile), ("cmds_denied", .cmdsDenied), ("cos_appid", .cosAppid),
   ("cos_secretid", .cosSecretid), ("cos_secretkey", .cosSecretkey), ("cos_bucket", .cosBucket),
   ("cos_region", .cosRegion), ("cos_download_domain", .cosDownloadDomain),
   ("cos_user_home_dir", .userHomeDir), ("login_users", .loginUsers)]

/-- The assignments of `tunables_load_defaults`, in its order. -/
def boolDefaults : List (BoolVar × Bool) :=
  [(.anonymousEnable, true), (.localEnable, false), (.pasvEnable, true), (.portEnable, true),
   (.chrootLocalUser, false), (.writeEnable, false), (.anonUploadEnable, false),
   (.anonMkdirWriteEnable, false), (.anonOtherWriteEnable, false), (.chownUploads, false),
   (.connectFromPort20, false), (.xferlogEnable, false), (.dirmessageEnable, false),
   (.anonWorldReadableOnly, true), (.asyncAborEnable, false), (.asciiUploadEnable, false),
   (.asciiDownloadEnable, false), (.oneProcessModel, false), (.xferlogStdFormat, false),
   (.pasvPromiscuous, false), (.denyEmailEnable, false), (.chrootListEnable, false),
   (.setproctitleEnable, false), (.textUserdbNames, false), (.lsRecurseEnable, false),
   (.logFtpProtocol, false), (.guestEnable, false), (.userlistEnable, false),
   (.userlistDeny, true), (.useLocaltime, false), (.checkShell, true), (.hideIds, false),
   (.listen, true), (.portPromiscuous, false), (.passwdChrootEnable, false),
   (.noAnonPassword, false), (.tcpWrappers, false), (.useSendfile, true),
   (.forceDotFiles, false), (.listenIpv6, false), (.dualLogEnable, false),
   (.syslogEnable, false), (.background, false), (.virtualUseLocalPrivs, false),
   (.sessionSupport, false), (.downloadEnable, true), (.dirlistEnable, true),
   (.chmodEnable, true), (.secureEmailListEnable, false), (.runAsLaunchingUser, false),
   (.noLogLock, false), (.sslEnable, false), (.allowAnonSsl, false),
   (.forceLocalLoginsSsl, true), (.forceLocalDataSsl, true), (.sslv2, false), (.sslv3, false),
   (.tlsv1, true), (.tildeUserEnable, false), (.forceAnonLoginsSsl, false),
   (.forceAnonDataSsl, false), (.mdtmWrite, true), (.lockUploadFiles, true),
   (.pasvAddrResolve, false), (.debugSsl, false), (.requireCert, false), (.validateCert, false),
   (.strictSslReadEof, true), (.strictSslWriteShutdown, false), (.sslRequestCert, true),
   (.deleteFailedUploads, false), (.implicitSsl, false), (.ptraceSandbox, false),
   (.requireSslReuse, true), (.isolate, true), (.isolateNetwork, true), (.ftpEnable, true),
   (.httpEnable, false), (.seccompSandbox, true), (.allowWriteableChroot, false),
   (.cosTakeSha, false)]

def uintDefaults : List (UintVar × ℕ) :=
  [(.acceptTimeout, 60), (.connectTimeout, 60), (.localUmask, 0o77), (.anonUmask, 0o77),
   (.ftpDataPort, 20), (.idleSessionTimeout, 300), (.dataConnectionTimeout, 300),
   (.pasvMinPort, 5001), (.pasvMaxPort, 0), (.anonMaxRate, 0), (.localMaxRate, 0),
   (.listenPort, 21), (.maxClients, 2000), (.fileOpenMode, 0o666), (.maxPerIp, 50),
   (.transChunkSize, 0), (.delayFailedLogin, 1), (.delaySuccessfulLogin, 0), (.maxLoginFails, 3),
   (.chownUploadMode, 0o600), (.cosConnTimeoutMs, 10 * 1000), (.cosReqTimeoutMs, 60 * 1000),
   (.cosSignExpireS, 5 * 60), (.cosUploadSliceSize, 1024 * 1024), (.maxUploadFileSize, 0),
   (.listMaxCount, 0), (.cosDownloadChunkSize, 0)]

def strDefaults : List (StrVar × Option String) :=
  [(.secureChrootDir, some "/usr/share/empty"), (.ftpUsername, some "ftp"),
   (.chownUsername, some "root"), (.xferlogFile, some "/var/log/xferlog"),
   (.vsftpdLogFile, some "/var/log/vsftpd.log"), (.messageFile, some ".message"),
   (.noprivUser, some "nobody"), (.ftpdBanner, none),
   (.bannedEmailFile, some "/etc/vsftpd.banned_emails"),
   (.chrootListFile, some "/etc/vsftpd.chroot_list"), (.pamServiceName, some "ftp"),
   (.guestUsername, some "ftp"), (.userlistFile, some "/etc/vsftpd.user_list"),
   (.anonRoot, none), (.localRoot, none), (.bannerFile, none), (.pasvAddress, none),
   (.listenAddress, none), (.userConfigDir, none), (.listenAddress6, none), (.cmdsAllowed, none),
   (.cmdsDenied, none), (.hideFile, none), (.denyFile, none), (.userSubToken, none),
   (.emailPasswordFile, some "/etc/vsftpd.email_passwords"),
   (.rsaCertFile, some "/usr/share/ssl/certs/vsftpd.pem"), (.dsaCertFile, none),
   (.sslCiphers, some "ECDHE-RSA-AES256-GCM-SHA384"), (.rsaPrivateKeyFile, none),
   (.dsaPrivateKeyFile, none), (.caCertsFile, none), (.cosAppid, some ""),
   (.cosSecretid, some ""), (.cosSecretkey, some ""), (.cosBucket, some ""),
   (.cosRegion, some "gz"), (.cosDownloadDomain, some "cdn"), (.userHomeDir, some "/tempdir"),
   (.loginUsers, none)]

/-! ### The defaults -/

/-- The values of all variables. -/
@[ext] structure Conf where
  bool : BoolVar → Bool
  uint : UintVar → ℕ
  str : StrVar → Option Bytes

/-- Assignments, one after the other. -/
def assign {V X : Type} [DecidableEq V] (f : V → X) (as : List (V × X)) : V → X :=
  as.foldl (fun f a => Function.update f a.1 a.2) f

/-- `tunables_load_defaults` -/
def tunablesLoadDefaults (c : Conf) : Conf where
  bool := assign c.bool boolDefaults
  uint := assign c.uint uintDefaults
  str := assign c.str (strDefaults.map fun a => (a.1, a.2.map text))

/-- A variable that is assigned has lost its old value. -/
theorem assign_eq {V X : Type} [DecidableEq V] (as : List (V × X)) (f g : V → X) (v : V)
    (hv : v ∈ as.map Prod.fst ∨ f v = g v) : assign f as v = assign g as v := by
  induction as generalizing f g with
  | nil => simpa [assign] using hv
  | cons a as ih =>
    refine ih _ _ ?_
    by_cases h : v = a.1
    · right
      simp [h]
    · simpa [h, Function.update_of_ne h] using hv

theorem boolDefaults_all (v : BoolVar) : v ∈ boolDefaults.map Prod.fst := by cases v <;> decide

theorem uintDefaults_all (v : UintVar) : v ∈ uintDefaults.map Prod.fst := by cases v <;> decide

theorem strDefaults_all (v : StrVar) : v ∈ strDefaults.map Prod.fst := by cases v <;> decide

/-- **The defaults leave nothing of the old settings.** -/
theorem tunablesLoadDefaults_eq (c c' : Conf) : tunablesLoadDefaults c = tunablesLoadDefaults c' := by
  ext v : 2
  · exact assign_eq _ _ _ v (.inl (boolDefaults_all v))
  · exact assign_eq _ _ _ v (.inl (uintDefaults_all v))
  · refine assign_eq _ _ _ v (.inl ?_)
    simpa [List.map_map] using strDefaults_all v

/-! ### The settings of a session -/

/-- The settings as the code of a session reads them. -/
def Conf.tunables (c : Conf) : Tunables where
  pasvEnable := c.bool .pasvEnable
  portEnable := c.bool .portEnable
  writeEnable := c.bool .writeEnable
  anonUploadEnable := c.bool .anonUploadEnable
  anonMkdirWriteEnable := c.bool .anonMkdirWriteEnable
  anonOtherWriteEnable := c.bool .anonOtherWriteEnable
  chownUploads := c.bool .chownUploads
  connectFromPort20 := c.bool .connectFromPort20
  dirmessageEnable := c.bool .dirmessageEnable
  asyncAborEnable := c.bool .asyncAborEnable
  asciiUploadEnable := c.bool .asciiUploadEnable
  asciiDownloadEnable := c.bool .asciiDownloadEnable
  oneProcessModel := c.bool .oneProcessModel
  pasvPromiscuous := c.bool .pasvPromiscuous
  portPromiscuous := c.bool .portPromiscuous
  downloadEnable := c.bool .downloadEnable
  dirlistEnable := c.bool .dirlistEnable
  sslEnable := c.bool .sslEnable
  forceLocalDataSsl := c.bool .forceLocalDataSsl
  forceAnonDataSsl := c.bool .forceAnonDataSsl
  sslv2 := c.bool .sslv2
  sslv3 := c.bool .sslv3
  tlsv1 := c.bool .tlsv1
  tildeUserEnable := c.bool .tildeUserEnable
  lockUploadFiles := c.bool .lockUploadFiles
  deleteFailedUploads := c.bool .deleteFailedUploads
  requireSslReuse := c.bool .requireSslReuse
  ftpDataPort := c.uint .ftpDataPort
  idleSessionTimeout := c.uint .idleSessionTimeout
  dataConnectionTimeout := c.uint .dataConnectionTimeout
  anonMaxRate := c.uint .anonMaxRate
  localMaxRate := c.uint .localMaxRate
  pasvMinPort := c.uint .pasvMinPort
  pasvMaxPort := c.uint .pasvMaxPort
  transChunkSize := c.uint .transChunkSize
  pasvAddress := c.str .pasvAddress
  cmdsAllowed := c.str .cmdsAllowed
  cmdsDenied := c.str .cmdsDenied
  denyFile := c.str .denyFile
  cosAppid := (c.str .cosAppid).getD []
  cosBucket := (c.str .cosBucket).getD []
  userHomeDir := (c.str .userHomeDir).getD []
  maxUploadFileSize := c.uint .maxUploadFileSize
  cosDownloadChunkSize := c.uint .cosDownloadChunkSize
  maxClients := c.uint .maxClients
  maxPerIp := c.uint .maxPerIp
  ftpEnable := c.bool .ftpEnable
  httpEnable := c.bool .httpEnable
  anonymousEnable := c.bool .anonymousEnable
  localEnable := c.bool .localEnable
  noAnonPassword := c.bool .noAnonPassword
  userlistEnable := c.bool .userlistEnable
  userlistDeny := c.bool .userlistDeny
  implicitSsl := c.bool .implicitSsl
  allowAnonSsl := c.bool .allowAnonSsl
  forceLocalLoginsSsl := c.bool .forceLocalLoginsSsl
  forceAnonLoginsSsl := c.bool .forceAnonLoginsSsl
  maxLoginFails := c.uint .maxLoginFails
  listMaxCount := c.uint .listMaxCount
  xferlogEnable := c.bool .xferlogEnable
  xferlogStdFormat := c.bool .xferlogStdFormat
  logFtpProtocol := c.bool .logFtpProtocol
  dualLogEnable := c.bool .dualLogEnable
  syslogEnable := c.bool .syslogEnable
  noLogLock := c.bool .noLogLock

/-- The defaults of a session's settings are those of `tunables_load_defaults`. -/
theorem tunablesLoadDefaults_tunables (c : Conf) : (tunablesLoadDefaults c).tunables = {} := by
  rw [tunablesLoadDefaults_eq c ⟨fun _ => false, fun _ => 0, fun _ => none⟩]
  rfl

/-! ### One line -/

/-- `die` and `die2`: the program ends with this text. -/
inductive Fatal where
  | die (msg : String)
  | die2 (msg : String) (arg : Bytes)
  deriving DecidableEq

def Conf.setBool (c : Conf) (v : BoolVar) (b : Bool) : Conf :=
  { c with bool := Function.update c.bool v b }

def Conf.setUint (c : Conf) (v : UintVar) (n : ℕ) : Conf :=
  { c with uint := Function.update c.uint v n }

def Conf.setStr (c : Conf) (v : StrVar) (s : Option Bytes) : Conf :=
  { c with str := Function.update c.str v s }

/-- The first entry of a table with this name. -/
def findSetting {V : Type} (table : List (String × V)) (name : Bytes) : Option V :=
  (table.find? fun e => strEqualText name e.1).map Prod.snd

/-- The two sides of a line. -/
def splitSetting (line : Bytes) : Bytes × Bytes :=
  strSplitChar ((cstr line).dropWhile isspace) (UInt8.ofNat 61)

/-- The spellings of a truth value. -/
def boolValue (value : Bytes) : Option Bool :=
  let value := strUpper value
  if strEqualText value "YES" || strEqualText value "TRUE" || strEqualText value "1" then some true
  else if strEqualText value "NO" || strEqualText value "FALSE" || strEqualText value "0" then
    some false
  else none

def isOctalDigit (b : UInt8) : Bool := isdigit b && b ≤ 55

/-- `vsf_sysutil_octal_to_uint` -/
def octalToUint (s : Bytes) : ℕ :=
  (s.takeWhile isOctalDigit).foldl (fun n d => (n * 8 + (d.toNat - 48)) % 2 ^ 32) 0

/-- A value that starts with `0` is taken for octal. -/
def uintValue (value : Bytes) : ℕ :=
  if value.head? = some chZero then octalToUint value else (strAtoi value % 2 ^ 32).toNat

/-- An error ends the program in fatal mode and is passed over in the other. -/
def orPass (errsFatal : Bool) (c : Conf) (e : Fatal) : Except Fatal Conf :=
  if errsFatal then .error e else .ok c

/-- `vsf_parseconf_load_setting` -/
def vsfParseconfLoadSetting (errsFatal : Bool) (c : Conf) (line : Bytes) : Except Fatal Conf :=
  let (name, value) := splitSetting line
  match findSetting parseconfStrArray name with
  | some v => .ok (c.setStr v (if value = [] then none else some value))
  | none =>
    if value = [] then orPass errsFatal c (.die2 "missing value in config file for: " name)
    else match findSetting parseconfBoolArray name with
    | some v =>
      match boolValue value with
      | some b => .ok (c.setBool v b)
      | none => orPass errsFatal c (.die2 "bad bool value in config file for: " name)
    | none =>
      match findSetting parseconfUintArray name with
      | some v => .ok (c.setUint v (uintValue value))
      | none => orPass errsFatal c (.die2 "unrecognised variable in config file: " name)

/-! ### The file -/

def vsftpConfFileMax : ℕ := 100000

/-- What the file system says of the file. -/
structure ConfFile where
  name : Bytes
  readable : Bool := true
  /-- a regular file of the user the server runs as -/
  owned : Bool := true
  content : Bytes

/-- The lines of the file that are settings. -/
def ConfFile.lines (file : ConfFile) : List Bytes :=
  (strLines (file.content.take vsftpConfFileMax)).filter fun line =>
    !(line.isEmpty || line.head? = some 35 || line.all isspace)

/-- `vsf_parseconf_load_file` -/
def vsfParseconfLoadFile (errsFatal : Bool) (file : ConfFile) (c : Conf) : Except Fatal Conf :=
  if !file.readable then orPass errsFatal c (.die2 "cannot read config file: " file.name)
  else if !file.owned then .error (.die "config file not owned by correct user, or not a file")
  else file.lines.foldlM (vsfParseconfLoadSetting errsFatal) c

/-! ### The start and the reload -/

/-- What `main` finds on the machine. -/
structure Host where
  /-- `vsf_sysutil_dns_resolve` and `vsf_sysutil_inet_ntop`: the numeric address of a name -/
  dns : Bytes → Option Bytes
  /-- `die_unless_privileged` returns -/
  privileged : Bool := true
  /-- `ssl_init` returns, or ends the program -/
  sslInit : Conf → Except Fatal Unit := fun _ => .ok ()

/-- `main` puts the address in the place of the name. -/
def resolvePasvAddress (host : Host) (c : Conf) : Except Fatal Conf :=
  match c.str .pasvAddress with
  | some name =>
    if c.bool .pasvAddrResolve then
      match host.dns name with
      | some addr => .ok (c.setStr .pasvAddress (some addr))
      | none => .error (.die2 "cannot resolve host:" name)
    else .ok c
  | none => .ok c

/-- The variables of a program just started. -/
def Conf.zero : Conf := ⟨fun _ => false, fun _ => 0, fun _ => none⟩

/-- `main` with one configuration file, up to `vsf_standalone_main`: the
settings it is entered with, or none in a server that does not listen. -/
def mainUntilListener (host : Host) (file : ConfFile) : Except Fatal (Option Conf) := do
  let c ← vsfParseconfLoadFile true file (tunablesLoadDefaults Conf.zero)
  let c ← resolvePasvAddress host c
  if !c.bool .runAsLaunchingUser && !host.privileged then
    throw (.die "vsftpd: must be started as root (see run_as_launching_user option)")
  if c.bool .sslEnable then host.sslInit c
  return if c.bool .listen || c.bool .listenIpv6 then some c else none

/-- `handle_sighup` -/
def handleSighup (file : ConfFile) (c : Conf) : Except Fatal Conf :=
  vsfParseconfLoadFile false file (tunablesLoadDefaults c)

/-- Signals, one after the other. -/
def sighups (file : ConfFile) : ℕ → Conf → Except Fatal Conf
  | 0, c => .ok c
  | n + 1, c => handleSighup file c >>= sighups file n

/-! ### The tolerant mode after the fatal one -/

/-- An empty value unsets a string. -/
def strValue (value : Bytes) : Option Bytes := if value = [] then none else some value

/-- What a line without error does: it sets the variable of its name. -/
theorem loadSetting_cases {c c' : Conf} {line : Bytes}
    (h : vsfParseconfLoadSetting true c line = .ok c') :
    (∃ v, findSetting parseconfStrArray (splitSetting line).1 = some v ∧
      c' = c.setStr v (strValue (splitSetting line).2)) ∨
    (findSetting parseconfStrArray (splitSetting line).1 = none ∧ (splitSetting line).2 ≠ [] ∧
      ∃ v b, findSetting parseconfBoolArray (splitSetting line).1 = some v ∧
        boolValue (splitSetting line).2 = some b ∧ c' = c.setBool v b) ∨
    (findSetting parseconfStrArray (splitSetting line).1 = none ∧ (splitSetting line).2 ≠ [] ∧
      findSetting parseconfBoolArray (splitSetting line).1 = none ∧
      ∃ v, findSetting parseconfUintArray (splitSetting line).1 = some v ∧
        c' = c.setUint v (uintValue (splitSetting line).2)) := by
  unfold vsfParseconfLoadSetting at h
  simp only [orPass, if_true] at h
  split at h
  case h_1 v hv =>
    cases h
    exact .inl ⟨v, hv, rfl⟩
  case h_2 hstr =>
    split at h
    · cases h
    rename_i hvalue
    split at h
    case h_1 v hv =>
      split at h
      case h_1 b hb =>
        cases h
        exact .inr (.inl ⟨hstr, hvalue, v, b, hv, hb, rfl⟩)
      case h_2 => cases h
    case h_2 hbool =>
      split at h
      case h_1 v hv =>
        cases h
        exact .inr (.inr ⟨hstr, hvalue, hbool, v, hv, rfl⟩)
      case h_2 => cases h

section

variable {line name value : Bytes} (hsplit : splitSetting line = (name, value)) (errsFatal : Bool) (c : Conf)

include hsplit

theorem loadSetting_str {v : StrVar} (hv : findSetting parseconfStrArray name = some v) :
    vsfParseconfLoadSetting errsFatal c line = .ok (c.setStr v (strValue value)) := by
  simp [vsfParseconfLoadSetting, hsplit, hv, strValue]

theorem loadSetting_bool (hstr : findSetting parseconfStrArray name = none) (hvalue : value ≠ []) {v : BoolVar}
    (hv : findSetting parseconfBoolArray name = some v) {b : Bool} (hb : boolValue value = some b) :
    vsfParseconfLoadSetting errsFatal c line = .ok (c.setBool v b) := by
  simp [vsfParseconfLoadSetting, hsplit, hstr, hvalue, hv, hb]

theorem loadSetting_uint (hstr : findSetting parseconfStrArray name = none) (hvalue : value ≠ [])
    (hbool : findSetting parseconfBoolArray name = none) {v : UintVar}
    (hv : findSetting parseconfUintArray name = some v) :
    vsfParseconfLoadSetting errsFatal c line = .ok (c.setUint v (uintValue value)) := by
  simp [vsfParseconfLoadSetting, hsplit, hstr, hvalue, hbool, hv]

end

/-- A line that is no error in fatal mode does the same in the other. -/
theorem loadSetting_tolerant {c c' : Conf} {line : Bytes}
    (h : vsfParseconfLoadSetting true c line = .ok c') :
    vsfParseconfLoadSetting false c line = .ok c' := by
  rcases loadSetting_cases h with ⟨v, hv, rfl⟩ | ⟨hstr, hvalue, v, b, hv, hb, rfl⟩ |
    ⟨hstr, hvalue, hbool, v, hv, rfl⟩
  · exact loadSetting_str rfl false c hv
  · exact loadSetting_bool rfl false c hstr hvalue hv hb
  · exact loadSetting_uint rfl false c hstr hvalue hbool hv

theorem loadLines_cons {errsFatal : Bool} {c d c' : Conf} {line : Bytes} {lines : List Bytes}
    (hline : vsfParseconfLoadSetting errsFatal c line = .ok d)
    (hlines : lines.foldlM (vsfParseconfLoadSetting errsFatal) d = .ok c') :
    (line :: lines).foldlM (vsfParseconfLoadSetting errsFatal) c = .ok c' := by
  rw [List.foldlM_cons, hline]
  exact hlines

theorem loadLines_cons_ok {errsFatal : Bool} {c c' : Conf} {line : Bytes} {lines : List Bytes}
    (h : (line :: lines).foldlM (vsfParseconfLoadSetting errsFatal) c = .ok c') :
    ∃ d, vsfParseconfLoadSetting errsFatal c line = .ok d ∧
      lines.foldlM (vsfParseconfLoadSetting errsFatal) d = .ok c' := by
  rw [List.foldlM_cons] at h
  cases hline : vsfParseconfLoadSetting errsFatal c line with
  | error e =>
    rw [hline] at h
    cases h
  | ok d =>
    rw [hline] at h
    exact ⟨d, rfl, h⟩

theorem loadLines_tolerant {c c' : Conf} {lines : List Bytes}
    (h : lines.foldlM (vsfParseconfLoadSetting true) c = .ok c') :
    lines.foldlM (vsfParseconfLoadSetting false) c = .ok c' := by
  induction lines generalizing c with
  | nil => exact h
  | cons line lines ih =>
    obtain ⟨d, hline, hlines⟩ := loadLines_cons_ok h
    exact loadLines_cons (loadSetting_tolerant hline) (ih hlines)

theorem loadFile_ok {file : ConfFile} {c c' : Conf} (h : vsfParseconfLoadFile true file c = .ok c') :
    file.readable = true ∧ file.owned = true ∧
      file.lines.foldlM (vsfParseconfLoadSetting true) c = .ok c' := by
  unfold vsfParseconfLoadFile orPass at h
  split at h
  · cases h
  · split at h
    · cases h
    · simp_all

theorem loadFile_of_lines {file : ConfFile} {c c' : Conf} (hread : file.readable = true) (hown : file.owned = true)
    (errsFatal : Bool) (h : file.lines.foldlM (vsfParseconfLoadSetting errsFatal) c = .ok c') :
    vsfParseconfLoadFile errsFatal file c = .ok c' := by
  simp [vsfParseconfLoadFile, hread, hown, h]

/-- **A file that loads at the start loads the same at a reload.** -/
theorem loadFile_tolerant {file : ConfFile} {c c' : Conf}
    (h : vsfParseconfLoadFile true file c = .ok c') : vsfParseconfLoadFile false file c = .ok c' := by
  obtain ⟨hread, hown, hlines⟩ := loadFile_ok h
  exact loadFile_of_lines hread hown false (loadLines_tolerant hlines)

/-! ### What the file says -/

/-- The value of the last line that names a setting. -/
def lastValue (name : String) : List Bytes → Option Bytes
  | [] => none
  | line :: lines =>
    (lastValue name lines).or
      (if (splitSetting line).1 = text name then some (splitSetting line).2 else none)

def ConfFile.valueOf (file : ConfFile) (name : String) : Option Bytes := lastValue name file.lines

theorem findSetting_mem {V : Type} {table : List (String × V)} {name : Bytes} {v : V}
    (h : findSetting table name = some v) : ∃ s, (s, v) ∈ table ∧ name = text s := by
  unfold findSetting at h
  obtain ⟨⟨s, w⟩, hfind, rfl⟩ := Option.map_eq_some_iff.mp h
  refine ⟨s, List.mem_of_find?_eq_some hfind, ?_⟩
  simpa [strEqualText] using List.find?_some hfind

/-- A table whose names are plain is searched by their encodings. -/
theorem findSetting_eq_bytes {V : Type} {table : List (String × V)} (h : ∀ e ∈ table, plainText e.1 = true)
    (name : Bytes) : findSetting table name = (table.find? fun e => name = utf8Bytes e.1).map Prod.snd := by
  have hsame : (table.find? fun e => strEqualText name e.1) = table.find? fun e => name = utf8Bytes e.1 := by
    induction table with
    | nil => rfl
    | cons e table ih =>
      obtain ⟨he, htable⟩ := List.forall_mem_cons.mp h
      rw [List.find?_cons, List.find?_cons, ih htable, strEqualText, text_eq_bytes he]
  rw [findSetting, hsame]

theorem strArray_plain : ∀ e ∈ parseconfStrArray, plainText e.1 = true := by decide +kernel
theorem boolArray_plain : ∀ e ∈ parseconfBoolArray, plainText e.1 = true := by decide +kernel
theorem uintArray_plain : ∀ e ∈ parseconfUintArray, plainText e.1 = true := by decide +kernel

theorem findSetting_pasvAddress (name : Bytes) :
    findSetting parseconfStrArray name = some .pasvAddress ↔ name = text "pasv_address" := by
  constructor
  · intro h
    obtain ⟨s, hs, rfl⟩ := findSetting_mem h
    have honly : ∀ e ∈ parseconfStrArray, e.2 = .pasvAddress → e.1 = "pasv_address" := by decide
    exact congrArg text (honly _ hs rfl)
  · rintro rfl
    rw [text_eq_bytes (by decide +kernel), findSetting_eq_bytes strArray_plain]
    decide +kernel

theorem findSetting_pasvAddrResolve (name : Bytes) :
    findSetting parseconfStrArray name = none ∧
      findSetting parseconfBoolArray name = some .pasvAddrResolve ↔
    name = text "pasv_addr_resolve" := by
  constructor
  · rintro ⟨-, h⟩
    obtain ⟨s, hs, rfl⟩ := findSetting_mem h
    have honly : ∀ e ∈ parseconfBoolArray, e.2 = .pasvAddrResolve → e.1 = "pasv_addr_resolve" := by
      decide
    exact congrArg text (honly _ hs rfl)
  · rintro rfl
    rw [text_eq_bytes (by decide +kernel), findSetting_eq_bytes strArray_plain,
      findSetting_eq_bytes boolArray_plain]
    decide +kernel

theorem loadSetting_pasvAddress {c c' : Conf} {line : Bytes}
    (h : vsfParseconfLoadSetting true c line = .ok c') :
    c'.str .pasvAddress =
      if (splitSetting line).1 = text "pasv_address" then strValue (splitSetting line).2
      else c.str .pasvAddress := by
  rcases loadSetting_cases h with ⟨v, hv, rfl⟩ | ⟨hstr, -, v, b, -, -, rfl⟩ |
    ⟨hstr, -, -, v, -, rfl⟩
  · by_cases hname : v = .pasvAddress
    · subst hname
      rw [if_pos ((findSetting_pasvAddress _).mp hv)]
      simp [Conf.setStr]
    · rw [if_neg]
      · simp [Conf.setStr, Function.update_of_ne (Ne.symm hname)]
      · intro hn
        rw [(findSetting_pasvAddress _).mpr hn] at hv
        exact hname (Option.some.inj hv).symm
  all_goals
    rw [if_neg]
    · rfl
    · intro hn
      rw [(findSetting_pasvAddress _).mpr hn] at hstr
      cases hstr

theorem loadSetting_pasvAddrResolve {c c' : Conf} {line : Bytes}
    (h : vsfParseconfLoadSetting true c line = .ok c') :
    c'.bool .pasvAddrResolve =
      if (splitSetting line).1 = text "pasv_addr_resolve" then
        decide (boolValue (splitSetting line).2 = some true)
      else c.bool .pasvAddrResolve := by
  rcases loadSetting_cases h with ⟨v, hv, rfl⟩ | ⟨hstr, -, v, b, hv, hb, rfl⟩ |
    ⟨-, -, hbool, v, -, rfl⟩
  · rw [if_neg]
    · rfl
    · intro hn
      rw [((findSetting_pasvAddrResolve _).mpr hn).1] at hv
      cases hv
  · by_cases hname : v = .pasvAddrResolve
    · subst hname
      rw [if_pos ((findSetting_pasvAddrResolve _).mp ⟨hstr, hv⟩)]
      simp [Conf.setBool, hb]
    · rw [if_neg]
      · simp [Conf.setBool, Function.update_of_ne (Ne.symm hname)]
      · intro hn
        rw [((findSetting_pasvAddrResolve _).mpr hn).2] at hv
        exact hname (Option.some.inj hv).symm
  · rw [if_neg]
    · rfl
    · intro hn
      rw [((findSetting_pasvAddrResolve _).mpr hn).2] at hbool
      cases hbool

/-- Behind the lines a variable has what the last line of its name sets it to. -/
theorem loadLines_last {X : Type} (get : Conf → X) (set : Bytes → X) (name : String)
    (hstep : ∀ c c' line, vsfParseconfLoadSetting true c line = .ok c' →
      get c' = if (splitSetting line).1 = text name then set (splitSetting line).2 else get c)
    {lines : List Bytes} {c c' : Conf}
    (h : lines.foldlM (vsfParseconfLoadSetting true) c = .ok c') :
    get c' = (lastValue name lines).elim (get c) set := by
  induction lines generalizing c with
  | nil =>
    cases h
    rfl
  | cons line lines ih =>
    obtain ⟨d, hline, hlines⟩ := loadLines_cons_ok h
    rw [ih hlines, hstep c d line hline, lastValue]
    cases lastValue name lines with
    | some value => rfl
    | none => by_cases hname : (splitSetting line).1 = text name <;> simp [hname]

/-- The two settings `main` looks at, as the file gives them. -/
theorem loadFile_pasv {file : ConfFile} {c c' : Conf} (h : vsfParseconfLoadFile true file c = .ok c') :
    c'.str .pasvAddress = (file.valueOf "pasv_address").elim (c.str .pasvAddress) strValue ∧
    c'.bool .pasvAddrResolve =
      (file.valueOf "pasv_addr_resolve").elim (c.bool .pasvAddrResolve)
        fun value => decide (boolValue value = some true) := by
  obtain ⟨-, -, hlines⟩ := loadFile_ok h
  constructor
  · exact loadLines_last (fun c => c.str .pasvAddress) strValue "pasv_address"
      (fun c c' line hline => loadSetting_pasvAddress hline) hlines
  · exact loadLines_last (fun c => c.bool .pasvAddrResolve) (fun value => boolValue value = some true)
      "pasv_addr_resolve" (fun c c' line hline => loadSetting_pasvAddrResolve hline) hlines

/-! ### The reload -/

/-- The file asks for no address to be resolved, or for one that resolves to
the text it is written with. -/
def AddressStands (host : Host) (file : ConfFile) : Prop :=
  ∀ addr flag, file.valueOf "pasv_address" = some addr → addr ≠ [] →
    file.valueOf "pasv_addr_resolve" = some flag → boolValue flag = some true →
    host.dns addr = some addr

/-- What `main` did until the listener: it loaded the file and resolved the address. -/
theorem mainUntilListener_ok {host : Host} {file : ConfFile} {c : Conf}
    (h : mainUntilListener host file = .ok (some c)) :
    ∃ c₀, vsfParseconfLoadFile true file (tunablesLoadDefaults Conf.zero) = .ok c₀ ∧
      resolvePasvAddress host c₀ = .ok c := by
  unfold mainUntilListener at h
  cases hload : vsfParseconfLoadFile true file (tunablesLoadDefaults Conf.zero) with
  | error e =>
    rw [hload] at h
    cases h
  | ok c₀ =>
    refine ⟨c₀, rfl, ?_⟩
    rw [hload] at h
    cases hres : resolvePasvAddress host c₀ with
    | error e =>
      simp only [Except.bind, bind] at h
      rw [hres] at h
      cases h
    | ok d =>
      simp only [Except.bind, bind] at h
      rw [hres] at h
      -- the checks behind it end the program or leave the settings alone
      simp only [throw, throwThe, MonadExceptOf.throw, pure, Except.pure] at h
      split at h
      · cases h
      · split at h
        · split at h
          · cases h
          · grind
        · grind

/-- The condition on the file, in the settings it loads. -/
theorem addressStands_iff {host : Host} {file : ConfFile} {c₀ : Conf}
    (hload : vsfParseconfLoadFile true file (tunablesLoadDefaults Conf.zero) = .ok c₀) :
    AddressStands host file ↔ ∀ addr, c₀.str .pasvAddress = some addr →
      c₀.bool .pasvAddrResolve = true → host.dns addr = some addr := by
  obtain ⟨hstr, hbool⟩ := loadFile_pasv hload
  have hstr₀ : (tunablesLoadDefaults Conf.zero).str .pasvAddress = none := by decide +kernel
  have hbool₀ : (tunablesLoadDefaults Conf.zero).bool .pasvAddrResolve = false := by decide +kernel
  rw [hstr, hbool, hstr₀, hbool₀, AddressStands]
  cases file.valueOf "pasv_address" with
  | none => simp
  | some addr =>
    cases file.valueOf "pasv_addr_resolve" with
    | none => simp
    | some flag => by_cases haddr : addr = [] <;> simp [strValue, haddr]

/-- The address in the place of the name is the one change of `main`. -/
theorem resolvePasvAddress_same {host : Host} {c₀ c : Conf}
    (hres : resolvePasvAddress host c₀ = .ok c) :
    c = c₀ ↔ ∀ addr, c₀.str .pasvAddress = some addr → c₀.bool .pasvAddrResolve = true →
      host.dns addr = some addr := by
  unfold resolvePasvAddress at hres
  split at hres
  case h_2 hnone =>
    cases hres
    simp [hnone]
  case h_1 name hname =>
    by_cases hflag : c₀.bool .pasvAddrResolve = true
    · rw [if_pos hflag] at hres
      cases hdns : host.dns name with
      | none =>
        rw [hdns] at hres
        cases hres
      | some addr =>
        rw [hdns] at hres
        cases hres
        constructor
        · intro hsame name' hname' _
          have haddr : (c₀.setStr .pasvAddress (some addr)).str .pasvAddress = some addr := by
            simp [Conf.setStr]
          rw [hsame, hname] at haddr
          rw [hname] at hname'
          cases hname'
          cases haddr
          exact hdns
        · intro hstands
          have hself := hstands name hname hflag
          rw [hdns] at hself
          cases hself
          simp [Conf.setStr, ← hname]
    · rw [if_neg hflag] at hres
      cases hres
      simp [hflag]

/-- A reload loads what the start loaded, whatever the settings are. -/
theorem handleSighup_eq {file : ConfFile} {c₀ : Conf}
    (hload : vsfParseconfLoadFile true file (tunablesLoadDefaults Conf.zero) = .ok c₀) (c : Conf) :
    handleSighup file c = .ok c₀ := by
  unfold handleSighup
  rw [tunablesLoadDefaults_eq c Conf.zero]
  exact loadFile_tolerant hload

theorem sighups_succ {file : ConfFile} {c₀ : Conf}
    (hload : vsfParseconfLoadFile true file (tunablesLoadDefaults Conf.zero) = .ok c₀) (n : ℕ)
    (c : Conf) : sighups file (n + 1) c = .ok c₀ := by
  induction n generalizing c with
  | zero =>
    rw [sighups, handleSighup_eq hload]
    rfl
  | succ n ih =>
    rw [sighups, handleSighup_eq hload]
    exact ih c₀

/-- **When a reload changes nothing.** After any number of signals the
listener has the settings it was entered with, if and only if the address the
file gives stands. -/
theorem reload_idempotent_iff (host : Host) (file : ConfFile) {c : Conf}
    (hstart : mainUntilListener host file = .ok (some c)) :
    (∀ n, sighups file n c = .ok c) ↔ AddressStands host file := by
  obtain ⟨c₀, hload, hres⟩ := mainUntilListener_ok hstart
  rw [addressStands_iff hload, ← resolvePasvAddress_same hres]
  constructor
  · intro h
    have hone := h 1
    rw [sighups_succ hload] at hone
    exact (Except.ok.inj hone).symm
  · rintro rfl n
    cases n with
    | zero => rfl
    | succ n => exact sighups_succ hload n _

/-- A machine on which every name has one address. -/
def oneAddress : Host := { dns := fun _ => some (text "10.0.0.1") }

def portFile : ConfFile := { name := text "vsftpd.conf", content := text "listen_port=2121" }

def namedFile : ConfFile where
  name := text "vsftpd.conf"
  content := text "pasv_address=h\npasv_addr_resolve=YES"

/-- A listener that was started: nothing behind the address stops it. -/
theorem mainUntilListener_eq {host : Host} {file : ConfFile} {c₀ c : Conf} (hprivileged : host.privileged = true)
    (hload : vsfParseconfLoadFile true file (tunablesLoadDefaults Conf.zero) = .ok c₀)
    (hres : resolvePasvAddress host c₀ = .ok c) (hssl : c.bool .sslEnable = false)
    (hlisten : c.bool .listen = true) : mainUntilListener host file = .ok (some c) := by
  have hrest : mainUntilListener host file = (do
      let c ← resolvePasvAddress host c₀
      if c.bool .sslEnable then host.sslInit c
      return if c.bool .listen || c.bool .listenIpv6 then some c else none) := by
    simp only [mainUntilListener, hload, hprivileged, Bool.not_true, Bool.and_false, Bool.false_eq_true, if_false]
    rfl
  rw [hrest, hres]
  simp [hssl, hlisten, bind, Except.bind, pure, Except.pure]

/-- A file that names its port and no address is read again without a change. -/
theorem reload_idempotent_port :
    ∃ c, mainUntilListener oneAddress portFile = .ok (some c) ∧ c.uint .listenPort = 2121 ∧
      ∀ n, sighups portFile n c = .ok c := by
  have hlines : portFile.lines = [text "listen_port=2121"] := by decide +kernel
  have hsplit : splitSetting (text "listen_port=2121") = (utf8Bytes "listen_port", text "2121") := by decide +kernel
  have hstr : findSetting parseconfStrArray (utf8Bytes "listen_port") = none := by
    rw [findSetting_eq_bytes strArray_plain]
    decide +kernel
  have hbool : findSetting parseconfBoolArray (utf8Bytes "listen_port") = none := by
    rw [findSetting_eq_bytes boolArray_plain]
    decide +kernel
  have huint : findSetting parseconfUintArray (utf8Bytes "listen_port") = some .listenPort := by
    rw [findSetting_eq_bytes uintArray_plain]
    decide +kernel
  have hvalue : text "2121" ≠ [] ∧ uintValue (text "2121") = 2121 := by decide +kernel
  have hload : vsfParseconfLoadFile true portFile (tunablesLoadDefaults Conf.zero) =
      .ok ((tunablesLoadDefaults Conf.zero).setUint .listenPort 2121) := by
    apply loadFile_of_lines rfl rfl
    have hline := loadSetting_uint hsplit true (tunablesLoadDefaults Conf.zero) hstr hvalue.1 hbool huint
    rw [hvalue.2] at hline
    rw [hlines]
    exact loadLines_cons hline rfl
  have haddress : (tunablesLoadDefaults Conf.zero).str .pasvAddress = none := by decide +kernel
  have hres : resolvePasvAddress oneAddress ((tunablesLoadDefaults Conf.zero).setUint .listenPort 2121) =
      .ok ((tunablesLoadDefaults Conf.zero).setUint .listenPort 2121) := by
    simp [resolvePasvAddress, Conf.setUint, haddress]
  have hflags : (tunablesLoadDefaults Conf.zero).bool .sslEnable = false ∧
      (tunablesLoadDefaults Conf.zero).bool .listen = true := by decide +kernel
  have hstart := mainUntilListener_eq rfl hload hres hflags.1 hflags.2
  refine ⟨_, hstart, by simp [Conf.setUint], (reload_idempotent_iff oneAddress portFile hstart).mpr ?_⟩
  have hnone : portFile.valueOf "pasv_address" = none := by decide +kernel
  intro addr flag haddr
  rw [hnone] at haddr
  cases haddr

/-- The listener is entered with the address of `h`; behind a signal it has
the name again. -/
theorem reload_forgets_address :
    ∃ c c', mainUntilListener oneAddress namedFile = .ok (some c) ∧
      sighups namedFile 1 c = .ok c' ∧ c.str .pasvAddress = some (text "10.0.0.1") ∧
      c'.str .pasvAddress = some (text "h") ∧ c' ≠ c := by
  have hlines : namedFile.lines = [text "pasv_address=h", text "pasv_addr_resolve=YES"] := by decide +kernel
  have hsplit : splitSetting (text "pasv_address=h") = (text "pasv_address", text "h") := by decide +kernel
  have hsplit' : splitSetting (text "pasv_addr_resolve=YES") = (text "pasv_addr_resolve", text "YES") := by
    decide +kernel
  have hstr := (findSetting_pasvAddress _).mpr rfl
  obtain ⟨hstr', hbool'⟩ := (findSetting_pasvAddrResolve _).mpr rfl
  have hvalue : text "h" ≠ [] ∧ text "YES" ≠ [] ∧ boolValue (text "YES") = some true := by decide +kernel
  have hload : vsfParseconfLoadFile true namedFile (tunablesLoadDefaults Conf.zero) =
      .ok (((tunablesLoadDefaults Conf.zero).setStr .pasvAddress (some (text "h"))).setBool .pasvAddrResolve true) := by
    obtain ⟨hname, hflag, hyes⟩ := hvalue
    have haddress : strValue (text "h") = some (text "h") := if_neg hname
    apply loadFile_of_lines rfl rfl
    have hline := loadSetting_str hsplit true (tunablesLoadDefaults Conf.zero) hstr
    rw [haddress] at hline
    rw [hlines]
    exact loadLines_cons hline (loadLines_cons (loadSetting_bool hsplit' true _ hstr' hflag hbool' hyes) rfl)
  have hflags : (tunablesLoadDefaults Conf.zero).bool .sslEnable = false ∧
      (tunablesLoadDefaults Conf.zero).bool .listen = true := by decide +kernel
  have hres := fun c (hname : c.str .pasvAddress = some (text "h")) (hflag : c.bool .pasvAddrResolve = true) =>
    (by simp [resolvePasvAddress, hname, hflag, oneAddress] :
      resolvePasvAddress oneAddress c = .ok (c.setStr .pasvAddress (some (text "10.0.0.1"))))
  have hstart := mainUntilListener_eq rfl hload (hres _ (by simp [Conf.setStr, Conf.setBool])
    (by simp [Conf.setStr, Conf.setBool])) (by simp [Conf.setStr, Conf.setBool, hflags])
    (by simp [Conf.setStr, Conf.setBool, hflags])
  refine ⟨_, _, hstart, sighups_succ hload 0 _, by simp [Conf.setStr], by simp [Conf.setStr, Conf.setBool], ?_⟩
  intro hsame
  have htexts : text "h" ≠ text "10.0.0.1" := by decide +kernel
  have haddr := congrArg (fun c => c.str .pasvAddress) hsame
  simp only [Conf.setStr, Conf.setBool, Function.update_self] at haddr
  exact htexts (Option.some.inj haddr)

end CosFtp
