/-
# Before the login

The commands of `parse_username_password_xxx`, with `ftp_enable` on, and `init_connection`
in front of them, which refuses a client, greets it and may start TLS. USER checks a
name against the settings, PASS hands it with the password to `handle_login`, in the
same process or in the privileged one, and AUTH can turn the control connection to
TLS in between. `handle_login` has its own idea of who is anonymous: the names are
those of USER, but only with `anonymous_enable`.

Every request that comes to `handle_login` is kept (`Pre.logins`), with the state of
the connection at the time, and `Policy` is what the settings promise of it. USER does not promise it in two
cases. The name of an anonymous user is not anonymous without `anonymous_enable`, so
the account it then is can be used without the TLS a local one needs. And an anonymous
user who was told in plain text to send a password can come to TLS first, which
USER would not have let them do the other way round. In runs that keep away from both
(`Careful`) the policy holds at every login.

Key definitions: `Pre`, `preRound`, `Policy`, `Careful`.
Key theorems: `initConnection_starts`, `handleUserCommand_vetted`, `preStep_inOrder`, `login_policy`.
-/
import CosFtp.Lib.Run
import CosFtp.Accounts
import CosFtp.Loop

namespace CosFtp

open Wp Run

def ftpGreet : ℕ := 220
def ftpAuthok : ℕ := 234
def ftpTooManyUsers : ℕ := 421
def ftpIpLimit : ℕ := 421
def ftpIpDeny : ℕ := 421
def ftpBadauth : ℕ := 504
def ftpTlsFail : ℕ := 421
def ftpNeeduser : ℕ := 503

/-! ### State -/

/-- A request that has come to `handle_login`. -/
structure Login where
  user : Bytes
  pass : Bytes
  /-- `control_use_ssl` at the time -/
  tls : Bool
  deriving DecidableEq

/-- A session before its login. -/
structure Pre where
  world : World
  userlistStr : Bytes
  loginFails : ℕ := 0
  /-- `permissions`, which a login sets -/
  permissions : ℕ := 0
  logins : List Login := []

/-- How the time before the login ends. -/
inductive PreEnd where
  | halt (h : Halt)
  | loggedIn (r : LoginResult)
  deriving DecidableEq

abbrev PreM := EStateM PreEnd Pre

/-- The answers to one command. -/
structure PreEnv where
  env : Env := {}
  line : CtrlLine
  handshake : Bool := true
  sslError : Bytes := []
  /-- what ssl.c logs of the handshake -/
  sslLog : List Bytes := []
  /-- `handle_anonymous_login` takes the password -/
  anonLogin : Bool := false

/-- What the session does as it will after the login too. -/
def onWorld {α : Type} (x : M α) : PreM α := fun s =>
  match x s.world with
  | .ok a w => .ok a { s with world := w }
  | .error h w => .error (.halt h) { s with world := w }

variable (T : Tunables)

/-! ### The start -/

/-- `do_sanity_checks`, on the settings. -/
def doSanityChecks : Except Halt Unit :=
  if T.oneProcessModel ∧ T.localEnable then
    .error (.die "vsftpd: security: 'one_process_model' is anonymous only")
  else if !T.localEnable ∧ !T.anonymousEnable then
    .error (.die "vsftpd: both local and anonymous access disabled!")
  else if !T.ftpEnable ∧ !T.httpEnable then .error (.die "vsftpd: both FTP and HTTP disabled!")
  else if T.httpEnable ∧ !T.oneProcessModel then
    .error (.die "vsftpd: HTTP needs 'one_process_model' for now")
  else .ok ()

/-- The user list, which `vsf_two_process_start` reads for local users only. -/
def readUserlist (file : Option Bytes) : Except Halt Bytes :=
  if !T.oneProcessModel ∧ T.localEnable ∧ T.userlistEnable then
    match file with
    | none => .error (.die "cannot read user list file:")
    | some str => .ok str
  else .ok []

/-- A session at its first command. -/
def preStart (w : World) (file : Option Bytes) : Except Halt Pre := do
  doSanityChecks T
  let userlistStr ← readUserlist T file
  return {
    world := { w with sess := { w.sess with userStr := [], controlUseSsl := T.sslEnable && T.implicitSsl } }
    userlistStr }

/-! ### Names -/

/-- The names an anonymous user logs in with. -/
def isAnonName (user : Bytes) : Bool :=
  strEqualText (strUpper user) "FTP" || strEqualText (strUpper user) "ANONYMOUS"

/-- The lines that `str_getline` gives one after the other. -/
def strLines (s : Bytes) : List Bytes :=
  if (s.splitOn chLf).getLast? = some [] then (s.splitOn chLf).dropLast else s.splitOn chLf

def strContainsLine (s line : Bytes) : Bool := line ∈ strLines s

/-- The rule of the user list. -/
def userlistAllows (userlistStr user : Bytes) : Bool :=
  !((strContainsLine userlistStr user && T.userlistDeny) ||
    (!strContainsLine userlistStr user && !T.userlistDeny))

/-- `vsf_sysutil_isprint` in the C locale. -/
def isprint (b : UInt8) : Bool := 32 ≤ b && b ≤ 126

/-- A name or a password that is not even tried. -/
def dodgy (user pass : Bytes) : Bool :=
  user.length = 0 || vsftpUsernameMax < user.length ||
    !(user.head?.any fun c => isalnum c || c = 95 || c = chDot) ||
    user.any isspace || user.any (fun b => !isprint b) || vsftpPasswordMax < pass.length

/-- How `handle_login` sees an account. -/
def anonymousLogin (user : Bytes) : Bool := T.anonymousEnable && isAnonName user

/-! ### The commands -/

section

variable (a : PreEnv)

/-- The password of an anonymous user, as it is logged. -/
def anonIdentity (pass : Bytes) : Bytes :=
  strReplaceChar (strReplaceChar (if pass = [] then text "?" else pass) chSpace 95) chLf 63

/-- The identity of an anonymous user is kept once the login is granted. -/
def handleAnonymousLogin (pass : Bytes) : PreM LoginResult :=
  if a.anonLogin then do
    onWorld (modifySess fun s => { s with anonPassStr := anonIdentity pass })
    modify fun s => { s with permissions := globalWrite ||| globalRead }
    pure .anon
  else pure .fail

/-- The record of the account decides, and gives the permissions. -/
def localLogin (user pass : Bytes) : PreM LoginResult := do
  let s ← get
  let (result, account) := handleLocalLogin T.loginUsers user pass { permissions := s.permissions, userStr := user }
  set { s with permissions := account.permissions }
  pure result

def handleLogin (user pass : Bytes) : PreM LoginResult := do
  modify fun s => { s with logins := s.logins ++ [⟨user, pass, s.world.sess.controlUseSsl⟩] }
  if dodgy user pass then pure .fail
  else if anonymousLogin T user then handleAnonymousLogin a pass
  else if !T.localEnable then throw (.halt (.die "unexpected local login in handle_login"))
  else localLogin T user pass

/-- `vsf_privop_do_login`: a login is logged, granted or not. -/
def vsfPrivopDoLogin (user pass : Bytes) : PreM LoginResult := do
  let result ← handleLogin T a user pass
  onWorld (vsfLogStartEntry .login)
  onWorld (vsfLogDoLog (result ≠ .fail))
  pure result

def setUser (user : Bytes) : PreM Unit := onWorld (modifySess fun s => { s with userStr := user })

/-- A reply. -/
def answer (code : ℕ) (msg : String) : PreM Unit := onWorld (vsfCmdioWrite T a.env code msg)

def checkLoginFails : PreM Unit := do
  modify fun s => { s with loginFails := s.loginFails + 1 }
  let s ← get
  if T.maxLoginFails ≤ s.loginFails then throw (.halt (.exit ftpLoginerr 1)) else pure ()

/-- `handle_pass_command`; the login calls do not return when they succeed. -/
def handlePassCommand (pass : Bytes) : PreM Unit := do
  let s ← get
  if s.world.sess.userStr = [] then answer T a ftpNeeduser "Login with USER first."
  else do
    let result ← vsfPrivopDoLogin T a s.world.sess.userStr pass
    if result ≠ .fail then throw (.loggedIn result)
    else do
      answer T a ftpLoginerr "Login incorrect."
      checkLoginFails T
      setUser []

/-- USER behind its checks. -/
def userAccepted (isAnon : Bool) : PreM Unit :=
  if isAnon ∧ T.noAnonPassword then handlePassCommand T a (text "<no password>")
  else answer T a ftpGivepword "Please specify the password."

/-- The user list, where it is used. -/
def userListed (user : Bytes) (isAnon : Bool) : PreM Unit := do
  let s ← get
  if T.userlistEnable ∧ !userlistAllows T s.userlistStr user then do
    answer T a ftpLoginerr "Permission denied."
    checkLoginFails T
    setUser []
  else userAccepted T a isAnon

def handleUserCommand (arg : Bytes) : PreM Unit := do
  setUser arg
  let s ← get
  let isAnon := isAnonName arg
  let tls := s.world.sess.controlUseSsl
  if !T.localEnable ∧ !isAnon then do
    answer T a ftpLoginerr "This FTP server is anonymous only."
    setUser []
  else if isAnon ∧ tls ∧ !T.allowAnonSsl ∧ !T.forceAnonLoginsSsl then do
    answer T a ftpLoginerr "Anonymous sessions may not use encryption."
    setUser []
  else if T.sslEnable ∧ !isAnon ∧ !tls ∧ T.forceLocalLoginsSsl then
    onWorld (vsfCmdioWriteExit T a.env ftpLoginerr "Non-anonymous sessions must use encryption." 1)
  else if T.sslEnable ∧ isAnon ∧ !tls ∧ T.forceAnonLoginsSsl then
    onWorld (vsfCmdioWriteExit T a.env ftpLoginerr "Anonymous sessions must use encryption." 1)
  else userListed T a arg isAnon

/-- The types of AUTH. -/
def knownAuth (arg : Bytes) : Bool := strUpper arg ∈ [text "TLS", text "TLS-C", text "SSL", text "TLS-P"]

def sslControlHandshake : PreM Unit := do
  onWorld (vsfLogDebug a.sslLog)
  if !a.handshake then do
    onWorld (vsfCmdioWriteStr T a.env ftpTlsFail (text "Negotiation failed: " ++ a.sslError))
    throw (.halt (.exit ftpTlsFail 1))
  else onWorld (modifySess fun s => { s with controlUseSsl := true })

def handleAuth (arg : Bytes) : PreM Unit :=
  if knownAuth arg then do
    answer T a ftpAuthok "Proceed with negotiation."
    sslControlHandshake T a
    if strUpper arg ∈ [text "SSL", text "TLS-P"] then
      onWorld (modifySess fun s => { s with dataUseSsl := true })
    else pure ()
  else answer T a ftpBadauth "Unknown AUTH type."

/-- The dispatch of `parse_username_password_xxx`. -/
def preDispatch (cmd arg : Bytes) : PreM Unit := do
  let s ← get
  if isCmd cmd ["USER"] then handleUserCommand T a arg
  else if isCmd cmd ["PASS"] then handlePassCommand T a arg
  else if isCmd cmd ["QUIT"] then onWorld (vsfCmdioWriteExit T a.env ftpGoodbye "Goodbye." 0)
  else if isCmd cmd ["FEAT"] then onWorld (handleFeat T a.env)
  else if isCmd cmd ["OPTS"] then onWorld (handleOpts T a.env arg)
  else if T.sslEnable ∧ isCmd cmd ["AUTH"] ∧ !s.world.sess.controlUseSsl then handleAuth T a arg
  else if T.sslEnable ∧ isCmd cmd ["PBSZ"] then onWorld (handlePbsz T a.env)
  else if T.sslEnable ∧ isCmd cmd ["PROT"] then onWorld (handleProt T a.env arg)
  else if cmd = [] ∧ arg = [] then pure ()
  else answer T a ftpLoginerr "Please login with USER and PASS."

/-- A round of `parse_username_password_xxx`. -/
def preRound : PreM Unit := do
  let (cmd, arg) ← onWorld (readCommand T a.env a.line)
  preDispatch T a cmd arg

end

/-- A session goes on from round to round until it ends. -/
def preStep (s : Pre × Option PreEnd) (a : PreEnv) : Option (Pre × Option PreEnd) :=
  match s with
  | (_, some _) => none
  | (s, none) =>
    match preRound T a s with
    | .ok _ s' => some (s', none)
    | .error e s' => some (s', some e)

/-! ### The connection -/

/-- What a connection finds: the sessions of its address, the answer of libwrap, the banner file, and what the
outside answers until the first command, whose line is not there yet. -/
structure Opening where
  outside : PreEnv
  numThisIp : ℕ := 0
  tcpWrapperOk : Bool := true
  bannerStr : Bytes := []

/-- `check_limits`. -/
def Opening.checkLimits (o : Opening) : M Unit := do
  let w ← get
  if 0 < T.maxClients ∧ T.maxClients < w.sess.numClients then do
    vsfLogLine .connection (text "Connection refused: too many sessions.")
    vsfCmdioWriteExit T o.outside.env ftpTooManyUsers "There are too many connected users, please try later." 1
  else if 0 < T.maxPerIp ∧ T.maxPerIp < o.numThisIp then do
    vsfLogLine .connection (text "Connection refused: too many sessions for this address.")
    vsfCmdioWriteExit T o.outside.env ftpIpLimit "There are too many connections from your internet address." 1
  else if !o.tcpWrapperOk then do
    vsfLogLine .connection (text "Connection refused: tcp_wrappers denial.")
    vsfCmdioWriteExit T o.outside.env ftpIpDeny "Service not available." 1
  else vsfLogLine .connection []

def Opening.emitGreeting (o : Opening) : M Unit :=
  if o.bannerStr ≠ [] then do
    vsfBannerWrite T o.outside.env ftpGreet (strLines o.bannerStr)
    vsfCmdioWrite T o.outside.env ftpGreet ""
  else match T.ftpdBanner with
    | none => vsfCmdioWrite T o.outside.env ftpGreet "(vsFTPd 3.0.3)"
    | some banner => vsfCmdioWriteStr T o.outside.env ftpGreet (cstr banner)

/-- `init_connection`, until it reads commands. -/
def initConnection (o : Opening) : PreM Unit := do
  onWorld (vsfCmdioSetAlarm T)
  onWorld (o.checkLimits T)
  when (T.sslEnable ∧ T.implicitSsl) (sslControlHandshake T o.outside)
  onWorld (o.emitGreeting T)

/-! ### The policy -/

/-- What the settings promise of an account that comes to `handle_login`. -/
structure Policy (userlistStr user : Bytes) (tls : Bool) : Prop where
  localOn : anonymousLogin T user = false → T.localEnable = true
  localTls : T.sslEnable = true → T.forceLocalLoginsSsl = true → anonymousLogin T user = false → tls = true
  anonTls : T.sslEnable = true → T.forceAnonLoginsSsl = true → anonymousLogin T user = true → tls = true
  anonPlain : anonymousLogin T user = true → tls = true → T.allowAnonSsl = true ∨ T.forceAnonLoginsSsl = true
  listed : T.userlistEnable = true → userlistAllows T userlistStr user = true

/-- The command and the argument of a line. -/
def preCommand : CtrlLine → Bytes × Bytes
  | .line str => splitCommand (stripCr (strReplaceChar str chNul chLf))
  | _ => ([], [])

/-- The round names an anonymous user that the settings make a local one, where a local one needs TLS
and the connection has none. -/
def NamesLocalGuest (s : Pre) (a : PreEnv) : Prop :=
  isCmd (preCommand a.line).1 ["USER"] = true ∧ isAnonName (preCommand a.line).2 = true ∧
    T.anonymousEnable = false ∧ T.sslEnable = true ∧ T.forceLocalLoginsSsl = true ∧
    s.world.sess.controlUseSsl = false

/-- The round turns to TLS while an anonymous user who may not have it is to send a password. -/
def TurnsGuestToTls (s : Pre) (a : PreEnv) : Prop :=
  isCmd (preCommand a.line).1 ["AUTH"] = true ∧ knownAuth (preCommand a.line).2 = true ∧
    T.sslEnable = true ∧ anonymousLogin T s.world.sess.userStr = true ∧
    T.allowAnonSsl = false ∧ T.forceAnonLoginsSsl = false

def Careful (s : Pre) (a : PreEnv) : Prop := ¬ NamesLocalGuest T s a ∧ ¬ TurnsGuestToTls T s a

instance (s : Pre) (a : PreEnv) : Decidable (NamesLocalGuest T s a) := inferInstanceAs (Decidable (_ ∧ _))

instance (s : Pre) (a : PreEnv) : Decidable (TurnsGuestToTls T s a) := inferInstanceAs (Decidable (_ ∧ _))

instance (s : Pre) (a : PreEnv) : Decidable (Careful T s a) := inferInstanceAs (Decidable (_ ∧ _))

/-- Every login so far was in order. -/
def Logged (list : Bytes) (s : Pre) : Prop :=
  s.userlistStr = list ∧ ∀ r ∈ s.logins, Policy T list r.user r.tls

/-- And the next one will be, as long as the connection stays as it is. -/
def Vetted (list : Bytes) (s : Pre) : Prop :=
  Logged T list s ∧
    (s.world.sess.userStr = [] ∨ Policy T list s.world.sess.userStr s.world.sess.controlUseSsl)

variable {T} {a : PreEnv} {list : Bytes} {s : Pre}

@[simp] theorem wp_onWorld {α : Type} (x : M α) {Q : α → Pre → Prop} {E : PreEnd → Pre → Prop} :
    wp (onWorld x) Q E s ↔ wp x (fun r w => Q r { s with world := w })
      (fun h w => E (.halt h) { s with world := w }) s.world := by
  unfold wp onWorld
  cases x s.world <;> rfl

theorem wp_localLogin (user pass : Bytes) {Q : LoginResult → Pre → Prop} {E : PreEnd → Pre → Prop} :
    wp (localLogin T user pass) Q E s ↔
      Q (handleLocalLogin T.loginUsers user pass ⟨s.permissions, user⟩).1
        { s with permissions := (handleLocalLogin T.loginUsers user pass ⟨s.permissions, user⟩).2.permissions } :=
  Iff.rfl

/-- USER's checks, with the two that it leaves out. -/
theorem policy_of_checks {user : Bytes} {tls : Bool}
    (hlocal : ¬ (!T.localEnable ∧ !isAnonName user))
    (hplain : ¬ (isAnonName user ∧ tls ∧ !T.allowAnonSsl ∧ !T.forceAnonLoginsSsl))
    (hforce : ¬ (T.sslEnable ∧ !isAnonName user ∧ !tls ∧ T.forceLocalLoginsSsl))
    (hanon : ¬ (T.sslEnable ∧ isAnonName user ∧ !tls ∧ T.forceAnonLoginsSsl))
    (hlist : ¬ (T.userlistEnable ∧ !userlistAllows T list user))
    (hsane : T.localEnable = true ∨ T.anonymousEnable = true)
    (hcare : isAnonName user = true → T.anonymousEnable = false → T.sslEnable = true →
      T.forceLocalLoginsSsl = true → tls = true) : Policy T list user tls := by
  have hclass : anonymousLogin T user = (T.anonymousEnable && isAnonName user) := rfl
  constructor
  · intro hreal
    cases hname : isAnonName user with
    | false => simpa [hname] using hlocal
    | true =>
      have hoff : T.anonymousEnable = false := by simpa [hclass, hname] using hreal
      simpa [hoff] using hsane
  · intro hssl hneed hreal
    cases hname : isAnonName user with
    | false => simpa [hname, hssl, hneed] using hforce
    | true =>
      have hoff : T.anonymousEnable = false := by simpa [hclass, hname] using hreal
      exact hcare hname hoff hssl hneed
  · intro hssl hneed hguest
    have hname : isAnonName user = true := by
      rw [hclass] at hguest
      exact (Bool.and_eq_true_iff.mp hguest).2
    simpa [hname, hssl, hneed] using hanon
  · intro hguest htls
    have hname : isAnonName user = true := by
      rw [hclass] at hguest
      exact (Bool.and_eq_true_iff.mp hguest).2
    by_contra hno
    apply hplain
    simpa [hname, htls, not_or] using hno
  · intro hon
    simpa [hon] using hlist

/-- TLS is no harm to an account that may have it. -/
theorem Policy.tls {user : Bytes} {tls : Bool} (h : Policy T list user tls)
    (hanon : anonymousLogin T user = true → T.allowAnonSsl = true ∨ T.forceAnonLoginsSsl = true) :
    Policy T list user true :=
  ⟨h.localOn, fun _ _ _ => rfl, fun _ _ _ => rfl, fun hguest _ => hanon hguest, h.listed⟩

/-! ### What the commands keep -/

/-- The user and the state of the connection are the same. -/
def SameUser (w w' : World) : Prop :=
  w'.sess.userStr = w.sess.userStr ∧ w'.sess.controlUseSsl = w.sess.controlUseSsl

instance : Std.Refl SameUser := ⟨fun _ => ⟨rfl, rfl⟩⟩

instance : IsTrans World SameUser := ⟨fun _ _ _ h h' => ⟨h'.1.trans h.1, h'.2.trans h.2⟩⟩

theorem sameUser_of_talk {α : Type} {C : Halt → Prop} {x : M α} (h : Within (Talk fun _ => True) C x) :
    Within SameUser C x :=
  h.mono fun _ _ ht => ⟨ht.sess (·.userStr) fun _ => rfl, ht.sess (·.controlUseSsl) fun _ => rfl⟩

theorem vsfCmdioWriteStr_sameUser (env : Env) (code : ℕ) (msg : Bytes) :
    Within SameUser Halt.Orderly (vsfCmdioWriteStr T env code msg) :=
  sameUser_of_talk (vsfCmdioWriteStr_talk trivial fun _ _ => trivial)

theorem onWorld_logged {α : Type} (x : M α) (h : Logged T list s) :
    wp (onWorld x) (fun _ => Logged T list) (fun _ => Logged T list) s := by
  rw [wp_onWorld]
  exact wp_mono (wp_true x s.world) (fun _ _ _ => h) fun _ _ _ => h

theorem onWorld_vetted {α : Type} {x : M α} {C : Halt → Prop} (hx : Within SameUser C x)
    (h : Vetted T list s) : wp (onWorld x) (fun _ => Vetted T list) (fun _ => Logged T list) s := by
  rw [wp_onWorld]
  apply wp_mono (hx s.world)
  · intro _ w' hw
    refine ⟨h.1, ?_⟩
    rw [hw.1, hw.2]
    exact h.2
  · intro _ w' _
    exact h.1

theorem answer_vetted (code : ℕ) (msg : String) (h : Vetted T list s) :
    wp (answer T a code msg) (fun _ => Vetted T list) (fun _ => Logged T list) s :=
  onWorld_vetted (vsfCmdioWriteStr_sameUser a.env code (text msg)) h

/-- A reply behind which the session ends. -/
theorem writeExit_logged (code : ℕ) (msg : String) (status : ℕ) {Q : Unit → Pre → Prop}
    (h : Logged T list s) :
    wp (onWorld (vsfCmdioWriteExit T a.env code msg status)) Q (fun _ => Logged T list) s := by
  rw [wp_onWorld]
  exact wp_mono (vsfCmdioWriteExit_ends code status msg (fun _ _ => False) s.world) (fun _ _ hf => hf.elim)
    fun _ _ _ => h

/-- With no name there is nothing to vet. -/
theorem setUser_nil_vetted (h : Logged T list s) :
    wp (setUser []) (fun _ => Vetted T list) (fun _ => Logged T list) s := by
  simp only [setUser, wp_onWorld, modifySess, wp_modify]
  exact ⟨h, .inl rfl⟩

theorem checkLoginFails_logged (h : Logged T list s) :
    wp (checkLoginFails T) (fun _ => Logged T list) (fun _ => Logged T list) s := by
  unfold checkLoginFails
  simp only [wp_bind, wp_modify, wp_get]
  exact wp_branch h h

/-- A refusal: the reply, and the name is forgotten. -/
theorem refuse_vetted (code : ℕ) (msg : String) (h : Logged T list s) :
    wp (do answer T a code msg; setUser []) (fun _ => Vetted T list) (fun _ => Logged T list) s := by
  rw [wp_bind]
  apply wp_mono (onWorld_logged _ h)
  · intro _ s1 h1
    exact setUser_nil_vetted h1
  · intro _ s1 h1
    exact h1

/-- The same with a failure that is counted. -/
theorem refuse_counted_vetted (code : ℕ) (msg : String) (h : Logged T list s) :
    wp (do answer T a code msg; checkLoginFails T; setUser []) (fun _ => Vetted T list)
      (fun _ => Logged T list) s := by
  rw [wp_bind]
  apply wp_mono (onWorld_logged _ h)
  · intro _ s1 h1
    rw [wp_bind]
    apply wp_mono (checkLoginFails_logged h1)
    · intro _ s2 h2
      exact setUser_nil_vetted h2
    · intro _ s2 h2
      exact h2
  · intro _ s1 h1
    exact h1

/-- The request is kept, and nothing else changes. -/
theorem handleLogin_logged {user pass : Bytes} (h : Logged T list s)
    (hpol : Policy T list user s.world.sess.controlUseSsl) :
    wp (handleLogin T a user pass) (fun _ => Logged T list) (fun _ => Logged T list) s := by
  have hnew : Logged T list { s with logins := s.logins ++ [⟨user, pass, s.world.sess.controlUseSsl⟩] } := by
    refine ⟨h.1, fun r hr => ?_⟩
    rcases List.mem_append.mp hr with hr | hr
    · exact h.2 r hr
    · rw [List.mem_singleton.mp hr]
      exact hpol
  unfold handleLogin
  rw [wp_bind, wp_modify]
  apply wp_branch
  · exact hnew
  apply wp_branch
  · unfold handleAnonymousLogin
    apply wp_branch
    · simp only [wp_bind, wp_onWorld, modifySess, wp_modify, wp_pure]
      exact hnew
    · exact hnew
  apply wp_branch
  · exact hnew
  · rw [wp_localLogin]
    exact hnew

theorem vsfPrivopDoLogin_logged {user pass : Bytes} (h : Logged T list s)
    (hpol : Policy T list user s.world.sess.controlUseSsl) :
    wp (vsfPrivopDoLogin T a user pass) (fun _ => Logged T list) (fun _ => Logged T list) s := by
  unfold vsfPrivopDoLogin
  rw [wp_bind]
  apply wp_mono (handleLogin_logged h hpol) _ fun _ _ h1 => h1
  intro result s1 h1
  rw [wp_bind]
  apply wp_mono (onWorld_logged _ h1) _ fun _ _ h2 => h2
  intro _ s2 h2
  rw [wp_bind]
  apply wp_mono (onWorld_logged _ h2) _ fun _ _ h3 => h3
  intro _ s3 h3
  exact h3

/-- **PASS asks for a login only with a name that has been vetted.** -/
theorem handlePassCommand_vetted (pass : Bytes) (h : Vetted T list s) :
    wp (handlePassCommand T a pass) (fun _ => Vetted T list) (fun _ => Logged T list) s := by
  unfold handlePassCommand
  rw [wp_bind, wp_get]
  refine wp_cases (fun _ => answer_vetted _ _ h) fun hne => ?_
  have hpol : Policy T list s.world.sess.userStr s.world.sess.controlUseSsl := h.2.resolve_left hne
  rw [wp_bind]
  apply wp_mono (vsfPrivopDoLogin_logged h.1 hpol)
  · intro result s1 h1
    exact wp_branch h1 (refuse_counted_vetted _ _ h1)
  · intro _ s1 h1
    exact h1

/-- **USER leaves a name that has been vetted, or none.** -/
theorem handleUserCommand_vetted {arg : Bytes} (h : Vetted T list s)
    (hsane : T.localEnable = true ∨ T.anonymousEnable = true)
    (hcare : isAnonName arg = true → T.anonymousEnable = false → T.sslEnable = true →
      T.forceLocalLoginsSsl = true → s.world.sess.controlUseSsl = true) :
    wp (handleUserCommand T a arg) (fun _ => Vetted T list) (fun _ => Logged T list) s := by
  unfold handleUserCommand
  simp only [setUser, wp_bind, wp_onWorld, modifySess, wp_modify, wp_get]
  have hlog : Logged T list
      { s with world := { s.world with sess := { s.world.sess with userStr := arg } } } := h.1
  refine wp_cases (fun _ => refuse_vetted _ _ hlog) fun hlocal => ?_
  refine wp_cases (fun _ => refuse_vetted _ _ hlog) fun hplain => ?_
  refine wp_cases (fun _ => writeExit_logged _ _ _ hlog) fun hforce => ?_
  refine wp_cases (fun _ => writeExit_logged _ _ _ hlog) fun hanon => ?_
  unfold userListed
  rw [wp_bind, wp_get]
  refine wp_cases (fun _ => refuse_counted_vetted _ _ hlog) fun hlist => ?_
  have hpol : Policy T list arg s.world.sess.controlUseSsl :=
    policy_of_checks hlocal hplain hforce hanon (h.1.1 ▸ hlist) hsane hcare
  have hvet : Vetted T list
      { s with world := { s.world with sess := { s.world.sess with userStr := arg } } } := ⟨hlog, .inr hpol⟩
  exact wp_branch (handlePassCommand_vetted _ hvet) (answer_vetted _ _ hvet)

/-- **AUTH is no harm to a name that is waiting**, if an anonymous user may have TLS. -/
theorem handleAuth_vetted {arg : Bytes} (h : Vetted T list s)
    (hcare : knownAuth arg = true → anonymousLogin T s.world.sess.userStr = true →
      T.allowAnonSsl = true ∨ T.forceAnonLoginsSsl = true) :
    wp (handleAuth T a arg) (fun _ => Vetted T list) (fun _ => Logged T list) s := by
  unfold handleAuth
  refine wp_cases (fun hknown => ?_) fun _ => answer_vetted _ _ h
  unfold answer sslControlHandshake
  rw [wp_bind, wp_onWorld]
  have hlogged : Within SameUser Halt.Orderly (vsfLogDebug a.sslLog) :=
    sameUser_of_talk (vsfLogDebug_talk (fun _ _ => trivial) _)
  apply wp_mono (vsfCmdioWriteStr_sameUser a.env _ _ s.world)
  · rintro _ w0 hw0
    rw [wp_bind, wp_bind, wp_onWorld]
    refine wp_mono (hlogged w0) ?_ (fun _ _ _ => h.1)
    rintro _ w1 hw1
    have huser : w1.sess.userStr = s.world.sess.userStr := hw1.1.trans hw0.1
    refine wp_cases (fun _ => ?_) fun _ => ?_
    · have hlog : Logged T list { s with world := w1 } := h.1
      rw [wp_bind]
      apply wp_mono (onWorld_logged _ hlog)
      · intro _ s2 h2
        exact h2
      · intro _ s2 h2
        exact h2
    · simp only [wp_onWorld, modifySess, wp_modify]
      -- the name is the one from before the reply
      have hvet : w1.sess.userStr = [] ∨ Policy T list w1.sess.userStr true := by
        rw [huser]
        rcases h.2 with hnone | hpol
        · exact .inl hnone
        · exact .inr (hpol.tls (hcare hknown))
      apply wp_branch
      · rw [wp_onWorld]
        exact ⟨h.1, hvet⟩
      · exact ⟨h.1, hvet⟩
  · intro _ w1 _
    exact h.1

theorem handleProt_sameUser (env : Env) (arg : Bytes) : Within SameUser Halt.Orderly (handleProt T env arg) := by
  have hset : ∀ b : Bool, Within SameUser Halt.Orderly (modifySess fun s => { s with dataUseSsl := b }) :=
    fun b => within_modify fun w => ⟨rfl, rfl⟩
  unfold handleProt
  refine within_bind within_get fun w => within_ite (vsfCmdioWriteStr_sameUser env _ _) ?_
  refine within_ite (within_bind (hset false) fun _ => vsfCmdioWriteStr_sameUser env _ _) ?_
  refine within_ite (within_bind (hset true) fun _ => vsfCmdioWriteStr_sameUser env _ _) ?_
  exact within_ite (vsfCmdioWriteStr_sameUser env _ _) (vsfCmdioWriteStr_sameUser env _ _)

theorem vsfCmdioSetAlarm_sameUser : Within SameUser Halt.Orderly (vsfCmdioSetAlarm T) := by
  apply within_modify
  intro w
  show (if 0 < T.idleSessionTimeout then _ else w.sess).userStr = w.sess.userStr ∧
    (if 0 < T.idleSessionTimeout then _ else w.sess).controlUseSsl = w.sess.controlUseSsl
  split
  · exact ⟨rfl, rfl⟩
  · exact ⟨rfl, rfl⟩

theorem checkLimits_sameUser (o : Opening) : Within SameUser Halt.Orderly (o.checkLimits T) := by
  have hline : ∀ msg : Bytes, Within SameUser Halt.Orderly (vsfLogLine .connection msg) := fun _ =>
    sameUser_of_talk (vsfLogLine_talk fun _ => trivial)
  have hrefused : ∀ (msg : Bytes) (code : ℕ) (reply : String), 400 ≤ code → Within SameUser Halt.Orderly (do
      vsfLogLine .connection msg
      vsfCmdioWriteExit T o.outside.env code reply 1 : M Unit) := fun msg _ _ hcode =>
    within_bind (hline msg) fun _ => sameUser_of_talk (vsfCmdioWriteExit_talk trivial hcode fun _ _ => trivial)
  refine within_bind within_get fun _ => within_ite (hrefused _ _ _ (by decide)) ?_
  exact within_ite (hrefused _ _ _ (by decide)) (within_ite (hrefused _ _ _ (by decide)) (hline _))

theorem emitGreeting_sameUser (o : Opening) : Within SameUser Halt.Orderly (o.emitGreeting T) := by
  have hlines : ∀ lines, Within SameUser Halt.Orderly (vsfBannerWrite T o.outside.env ftpGreet lines) := by
    intro lines
    induction lines with
    | nil => exact within_pure _
    | cons line lines ih =>
      have hflag : (Event.hyphen ftpGreet line).Flagless := ⟨Event.noConfusion, Event.noConfusion⟩
      refine within_bind (sameUser_of_talk (within_bind ?_ fun _ => ?_)) fun _ => ih
      · exact writeControl_talk trivial hflag fun _ _ => trivial
      · exact checkPendingActions_talk fun _ _ => trivial
  unfold Opening.emitGreeting
  apply within_ite
  · exact within_bind (hlines _) fun _ => vsfCmdioWriteStr_sameUser _ _ _
  · cases T.ftpdBanner with
    | none => exact vsfCmdioWriteStr_sameUser _ _ _
    | some banner => exact vsfCmdioWriteStr_sameUser _ _ _

/-- **Behind `init_connection` a session is as `preStart` has it.** -/
theorem initConnection_starts (o : Opening) (huser : s.world.sess.userStr = [])
    (htls : s.world.sess.controlUseSsl = false) :
    wp (initConnection T o) (fun _ s' => s'.world.sess.userStr = [] ∧
      s'.world.sess.controlUseSsl = (T.sslEnable && T.implicitSsl)) (fun _ _ => True) s := by
  have hlog : Within SameUser Halt.Orderly (vsfLogDebug o.outside.sslLog) :=
    sameUser_of_talk (vsfLogDebug_talk (fun _ _ => trivial) _)
  -- the greeting keeps what is there behind the handshake
  have hgreeted : ∀ (s₁ : Pre) (tls : Bool), s₁.world.sess.userStr = [] → s₁.world.sess.controlUseSsl = tls →
      wp (onWorld (o.emitGreeting T)) (fun _ s' => s'.world.sess.userStr = [] ∧ s'.world.sess.controlUseSsl = tls)
        (fun _ _ => True) s₁ := by
    intro s₁ tls huser htls
    rw [wp_onWorld]
    refine wp_mono (emitGreeting_sameUser o s₁.world) ?_ (fun _ _ _ => trivial)
    exact fun _ w' hw' => ⟨hw'.1.trans huser, hw'.2.trans htls⟩
  unfold initConnection sslControlHandshake
  rw [wp_bind, wp_onWorld]
  refine wp_mono (vsfCmdioSetAlarm_sameUser s.world) ?_ (fun _ _ _ => trivial)
  intro _ w₁ hw₁
  rw [wp_bind, wp_onWorld]
  refine wp_mono (checkLimits_sameUser o w₁) ?_ (fun _ _ _ => trivial)
  intro _ w₂ hw₂
  have huser₂ : w₂.sess.userStr = [] := (hw₂.1.trans hw₁.1).trans huser
  have htls₂ : w₂.sess.controlUseSsl = false := (hw₂.2.trans hw₁.2).trans htls
  rw [wp_bind, wp_when]
  split
  · rename_i himplicit
    rw [himplicit.1, himplicit.2, wp_bind, wp_onWorld]
    refine wp_mono (hlog w₂) ?_ (fun _ _ _ => trivial)
    intro _ w₃ hw₃
    apply wp_cases
    · intro _
      rw [wp_bind]
      exact wp_mono (wp_true _ _) (fun _ _ _ => trivial) (fun _ _ _ => trivial)
    · intro _
      rw [wp_onWorld]
      exact hgreeted _ true (hw₃.1.trans huser₂) rfl
  · rename_i hplain
    have hoff : (T.sslEnable && T.implicitSsl) = false := by simpa using hplain
    rw [hoff]
    exact hgreeted _ false huser₂ htls₂

/-- What a round reads. -/
theorem readCommand_sameUser (line : CtrlLine) (w : World) :
    wp (readCommand T a.env line) (fun r w' => SameUser w w' ∧ r = preCommand line) (fun _ _ => True) w := by
  have hsame : Within SameUser Halt.Orderly (readCommand T a.env line) := by
    refine within_bind vsfCmdioSetAlarm_sameUser fun _ => within_bind within_get fun w => ?_
    refine within_bind (sameUser_of_talk (interrupted_talk (fun _ _ => trivial) _)) fun _ => ?_
    exact sameUser_of_talk (vsfCmdioGetCmdAndArg_talk line fun _ _ => trivial)
  apply wp_mono (wp_and (hsame w) (readCommand_line line w))
  · rintro r w' ⟨hw, str, rfl, rfl⟩
    exact ⟨hw, rfl⟩
  · intro _ _ _
    trivial

theorem preDispatch_vetted {cmd arg : Bytes} (h : Vetted T list s)
    (hsane : T.localEnable = true ∨ T.anonymousEnable = true)
    (huser : isCmd cmd ["USER"] = true → isAnonName arg = true → T.anonymousEnable = false →
      T.sslEnable = true → T.forceLocalLoginsSsl = true → s.world.sess.controlUseSsl = true)
    (hauth : isCmd cmd ["AUTH"] = true → knownAuth arg = true → T.sslEnable = true →
      anonymousLogin T s.world.sess.userStr = true → T.allowAnonSsl = true ∨ T.forceAnonLoginsSsl = true) :
    wp (preDispatch T a cmd arg) (fun _ => Vetted T list) (fun _ => Logged T list) s := by
  unfold preDispatch
  rw [wp_bind, wp_get]
  refine wp_cases (fun hcmd => handleUserCommand_vetted h hsane (huser hcmd)) fun _ => ?_
  refine wp_cases (fun _ => handlePassCommand_vetted _ h) fun _ => ?_
  refine wp_cases (fun _ => writeExit_logged _ _ _ h.1) fun _ => ?_
  refine wp_cases (fun _ => onWorld_vetted (sameUser_of_talk (hyphened_talk _ _ _ _)) h) fun _ => ?_
  have hopts : Within SameUser Halt.Orderly (handleOpts T a.env arg) :=
    within_ite (vsfCmdioWriteStr_sameUser a.env _ _) (vsfCmdioWriteStr_sameUser a.env _ _)
  have hpbsz : Within SameUser Halt.Orderly (handlePbsz T a.env) :=
    within_bind within_get fun _ =>
      within_ite (vsfCmdioWriteStr_sameUser a.env _ _) (vsfCmdioWriteStr_sameUser a.env _ _)
  refine wp_cases (fun _ => onWorld_vetted hopts h) fun _ => ?_
  refine wp_cases (fun hcmd => handleAuth_vetted h fun hknown => ?_) fun _ => ?_
  · exact hauth hcmd.2.1 hknown hcmd.1
  refine wp_cases (fun _ => onWorld_vetted hpbsz h) fun _ => ?_
  refine wp_cases (fun _ => onWorld_vetted (handleProt_sameUser a.env arg) h) fun _ => ?_
  exact wp_branch h (answer_vetted _ _ h)

/-- **A careful round keeps every login in order.** -/
theorem preRound_vetted (h : Vetted T list s) (hsane : T.localEnable = true ∨ T.anonymousEnable = true)
    (hcare : Careful T s a) :
    wp (preRound T a) (fun _ => Vetted T list) (fun _ => Logged T list) s := by
  unfold preRound
  rw [wp_bind, wp_onWorld]
  apply wp_mono (readCommand_sameUser a.line s.world)
  · rintro r w1 ⟨hsame, hr⟩
    have h1 : Vetted T list { s with world := w1 } := by
      refine ⟨h.1, ?_⟩
      rw [hsame.1, hsame.2]
      exact h.2
    apply preDispatch_vetted h1 hsane
    · intro hcmd hname hoff hssl hforce
      by_contra htls
      have htls' : s.world.sess.controlUseSsl = false := by simpa [hsame.2] using htls
      rw [hr] at hcmd hname
      exact hcare.1 ⟨hcmd, hname, hoff, hssl, hforce, htls'⟩
    · intro hcmd hknown hssl hguest
      by_contra hno
      simp only [not_or, Bool.not_eq_true] at hno
      rw [hr] at hcmd hknown
      exact hcare.2 ⟨hcmd, hknown, hssl, hsame.1 ▸ hguest, hno.1, hno.2⟩
  · intro _ w1 _
    exact h.1

/-- What holds of a session at every round: it has ended, or the next login will be in order too. -/
def InOrder (T : Tunables) (list : Bytes) (s : Pre × Option PreEnd) : Prop :=
  Logged T list s.1 ∧ (s.2 = none → Vetted T list s.1)

theorem preStep_inOrder {s s' : Pre × Option PreEnd} (hsane : T.localEnable = true ∨ T.anonymousEnable = true)
    (h : InOrder T list s) (hcare : Careful T s.1 a) (hstep : preStep T s a = some s') :
    InOrder T list s' := by
  obtain ⟨s0, e⟩ := s
  cases e with
  | some e => exact absurd hstep (by simp [preStep])
  | none =>
    have hround := preRound_vetted (h.2 rfl) hsane hcare
    unfold wp at hround
    simp only [preStep] at hstep
    cases hrun : preRound T a s0 with
    | ok u s1 =>
      rw [hrun] at hround hstep
      obtain rfl := Option.some.inj hstep
      exact ⟨hround.1, fun _ => hround⟩
    | error e s1 =>
      rw [hrun] at hround hstep
      obtain rfl := Option.some.inj hstep
      exact ⟨hround, fun he => absurd he (by simp)⟩

/-- What a session starts from. -/
theorem preStart_vetted {w : World} {file : Option Bytes} (h : preStart T w file = .ok s) :
    (T.localEnable = true ∨ T.anonymousEnable = true) ∧ Vetted T s.userlistStr s := by
  unfold preStart at h
  cases hsane : doSanityChecks T with
  | error e =>
    rw [hsane] at h
    exact absurd h (by simp [bind, Except.bind])
  | ok u =>
    cases hlist : readUserlist T file with
    | error e =>
      rw [hsane, hlist] at h
      exact absurd h (by simp [bind, Except.bind])
    | ok str =>
      rw [hsane, hlist] at h
      obtain rfl := Except.ok.inj h
      refine ⟨?_, ⟨rfl, by simp⟩, .inl rfl⟩
      by_contra hno
      simp only [not_or, Bool.not_eq_true] at hno
      simp [doSanityChecks, hno] at hsane

/-- **The login policy holds in every careful run.** Whatever the settings and the commands, if no
round names an anonymous user where that is a local one in need of TLS, and none turns to TLS
while an anonymous user who may not have it is to send a password, every request that
comes to `handle_login` meets the policy. -/
theorem login_policy (T : Tunables) (w : World) (file : Option Bytes) (s : Pre) (acts : List PreEnv)
    (s' : Pre × Option PreEnd) (hstart : preStart T w file = .ok s)
    (hcare : Run.Along (preStep T) (fun s a => Careful T s.1 a) (s, none) acts)
    (hrun : run (preStep T) (s, none) acts = some s') :
    ∀ r ∈ s'.1.logins, Policy T s.userlistStr r.user r.tls := by
  obtain ⟨hsane, hvet⟩ := preStart_vetted hstart
  have hend : InOrder T s.userlistStr s' :=
    run_keeps (I := InOrder T s.userlistStr) (fun _ _ _ hI hC hs => preStep_inOrder hsane hI hC hs) acts _ _
      ⟨hvet.1, fun _ => hvet⟩ hcare hrun
  exact hend.1.2

/-- The commands of a client, with any password of an anonymous user taken. -/
def clientLines (lines : List String) : List PreEnv :=
  lines.map fun l => { line := .line (text l), anonLogin := true }

/-- The logins of a session with these settings and lines. -/
def loginsOf (T : Tunables) (lines : List String) : Option (List Login) :=
  match preStart T loginWorld none with
  | .ok s => (run (preStep T) (s, none) (clientLines lines)).map fun s' => s'.1.logins
  | .error _ => none

/-- An anonymous user in plain text. -/
theorem login_policy_anonymous :
    ∃ s s', preStart { sslEnable := true } loginWorld none = .ok s ∧
      run (preStep { sslEnable := true }) (s, none) (clientLines ["USER ftp", "PASS me@home"]) = some s' ∧
      s'.1.logins = [⟨text "ftp", text "me@home", false⟩] ∧
      ∀ r ∈ s'.1.logins, Policy { sslEnable := true } s.userlistStr r.user r.tls := by
  obtain ⟨s, hstart⟩ : ∃ s, preStart { sslEnable := true } loginWorld none = .ok s := ⟨_, rfl⟩
  have hlogins : loginsOf { sslEnable := true } ["USER ftp", "PASS me@home"] =
      some [⟨text "ftp", text "me@home", false⟩] := by decide +kernel
  have hcare : Run.Along (preStep { sslEnable := true }) (fun s a => Careful { sslEnable := true } s.1 a)
      (s, none) (clientLines ["USER ftp", "PASS me@home"]) := by
    obtain rfl := Except.ok.inj hstart
    decide +kernel
  simp only [loginsOf, hstart] at hlogins
  obtain ⟨s', hrun, hlog⟩ := Option.map_eq_some_iff.mp hlogins
  exact ⟨s, s', hstart, hrun, hlog, login_policy _ _ _ s _ s' hstart hcare hrun⟩

/-- A server for local users with TLS, on which `ftp` is one of them, and one that lets anonymous
users in without TLS. -/
def localTlsServer : Tunables := { anonymousEnable := false, localEnable := true, sslEnable := true }
def plainGuestServer : Tunables := { sslEnable := true }

/-- On the first the local user `ftp` logs in without TLS; on the second an anonymous user logs in
with TLS. -/
theorem login_policy_broken :
    (loginsOf localTlsServer ["USER ftp", "PASS secret"] = some [⟨text "ftp", text "secret", false⟩] ∧
      ¬ Policy localTlsServer [] (text "ftp") false) ∧
    (loginsOf plainGuestServer ["USER anonymous", "AUTH TLS", "PASS me@home"] =
        some [⟨text "anonymous", text "me@home", true⟩] ∧
      ¬ Policy plainGuestServer [] (text "anonymous") true) := by
  refine ⟨⟨by decide +kernel, fun h => ?_⟩, ⟨by decide +kernel, fun h => ?_⟩⟩
  · exact absurd (h.localTls rfl rfl (by decide)) (by decide)
  · exact absurd (h.anonPlain (by decide) rfl) (by decide)

end CosFtp
