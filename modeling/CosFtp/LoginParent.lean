/-
# The login, on the privileged side

Until the login the privileged parent serves requests of the child that talks
to the client. The child may be hostile, so what arrives is any bytes.
`process_login_req` reads a name, a password and two numbers, asks
`vsf_privop_do_login`, and either answers that the login failed and waits for
the next request, or forks the session.

The parent believes nothing else (`session_iff`): it starts a session
on just the inputs that are requests which failed, and one that was accepted.
What the child checks for itself is not asked for here: neither the user list
nor the number of attempts, nor whether the client is on TLS.

Key definitions: `LoginReq`, `processLoginReq`, `processLoginLoop`, `Granted`, `Begun`.
Key theorems: `readLogin_ok`, `session_iff`.
-/
import CosFtp.Prelogin
import CosFtp.SslSlave

namespace CosFtp
namespace PreloginParent

open Wp

/-! ### The parent -/

def privSockLogin : UInt8 := 1

structure LoginParent where
  pre : Pre
  /-- what has arrived on `parent_fd` and was not read yet -/
  input : Bytes
  /-- the results that were sent -/
  output : List UInt8 := []
  /-- the `do_chroot` that `common_do_login` is called with; `guest_enable` sets it behind the fork -/
  doChroot : Option Bool := none

/-- The settings of the login that nothing else reads. -/
structure LoginTunables where
  ftpUsername : Bytes := []
  chrootLocalUser : Bool := false
  chrootListEnable : Bool := false

/-- The answers to one request. -/
structure LoginEnv where
  privop : PreEnv
  /-- the child's end takes the result -/
  send : Bool := true
  chrootListFile : Option Bytes := none

abbrev LoginM := EStateM PreEnd LoginParent

def onPre {α : Type} (x : PreM α) : LoginM α := fun s =>
  match x s.pre with
  | .ok a p => .ok a { s with pre := p }
  | .error e p => .error e { s with pre := p }

/-- A read of `n` bytes, that dies with `msg` where the input ends before. -/
def readLoop (msg : String) (n : ℕ) : LoginM Bytes := do
  let s ← get
  if s.input.length < n then throw (.halt (.die msg))
  else do
    set { s with input := s.input.drop n }
    pure (s.input.take n)

def privSockGetInt : LoginM ℤ := intOfBytes <$> readLoop "priv_sock_get_int" 4

def privSockGetStr : LoginM Bytes := do
  let len ← privSockGetInt
  if Tls.vsftpPrivsockMaxstr < Tls.asUnsigned len then throw (.halt (.die "priv_sock_get_str: too big"))
  else if 0 < Tls.asUnsigned len then readLoop "priv_sock_get_str: read error" (Tls.asUnsigned len)
  else pure []

/-- A request of the child. -/
structure LoginReq where
  user : Bytes
  pass : Bytes
  controlUseSsl : ℤ
  dataUseSsl : ℤ
  deriving DecidableEq

/-- What `vsf_two_process_login` writes for it. -/
def LoginReq.msg (r : LoginReq) : Bytes :=
  privSockLogin :: (intBytes r.user.length ++ r.user ++ intBytes r.pass.length ++ r.pass ++
    intBytes r.controlUseSsl ++ intBytes r.dataUseSsl)

variable (T : Tunables) (C : LoginTunables) (env : LoginEnv)

/-- How `process_login_req` reads a request; the name is that of the session at once. -/
def readLogin : LoginM LoginReq := do
  let cmd ← readLoop "priv_sock_get_cmd" 1
  if cmd ≠ [privSockLogin] then throw (.halt (.die "bad request"))
  else do
    let user ← privSockGetStr
    onPre (setUser user)
    let pass ← privSockGetStr
    let controlUseSsl ← privSockGetInt
    let dataUseSsl ← privSockGetInt
    pure ⟨user, pass, controlUseSsl, dataUseSsl⟩

def privSockSendResult (res : UInt8) : LoginM Unit := do
  if env.send then modify fun s => { s with output := s.output ++ [res] }
  else throw (.halt (.die "priv_sock_send_result"))

/-- Whether a local user is to be confined to a directory. -/
def doChrootOf (user : Bytes) : Except Halt Bool :=
  if C.chrootListEnable then
    match env.chrootListFile with
    | none => .error (.die "could not read chroot() list file:")
    | some file => .ok (if strContainsLine file user then !C.chrootLocalUser else C.chrootLocalUser)
  else .ok C.chrootLocalUser

/-- `common_do_login`, up to the fork. -/
def commonDoLogin (result : LoginResult) (doChroot : Bool) : LoginM Unit := do
  privSockSendResult env privSockResultOk
  modify fun s => { s with doChroot := some doChroot }
  throw (.loggedIn result)

/-- TLS is believed where it is enabled. -/
def setSsl (r : LoginReq) : PreM Unit := onWorld (modifySess fun s => { s with
  controlUseSsl := T.sslEnable && r.controlUseSsl ≠ 0
  dataUseSsl := T.sslEnable && r.dataUseSsl ≠ 0 })

/-- The `switch` of `process_login_req`. -/
def settleLogin (user : Bytes) : LoginResult → LoginM Unit
  | .fail => privSockSendResult env privSockResultBad
  | .anon => do
    onPre (setUser C.ftpUsername)
    commonDoLogin env .anon true
  | .real =>
    match doChrootOf C env user with
    | .error h => throw (.halt h)
    | .ok doChroot => commonDoLogin env .real doChroot

def processLoginReq : LoginM Unit := do
  let r ← readLogin
  onPre (setSsl T r)
  let result ← onPre (vsfPrivopDoLogin T env.privop r.user r.pass)
  settleLogin C env r.user result

/-- The loop of the parent in `vsf_two_process_start`. -/
def processLoginLoop : List LoginEnv → LoginM Unit
  | [] => pure ()
  | env :: envs => do
    processLoginReq T C env
    processLoginLoop envs

/-! ### What is read -/

section

variable {s s' : LoginParent}

/-- An `int` holds it. -/
def InInt (n : ℤ) : Prop := -(2 ^ 31) ≤ n ∧ n < 2 ^ 31

/-- What the parent takes. -/
structure LoginReq.Fits (r : LoginReq) : Prop where
  user : r.user.length ≤ Tls.vsftpPrivsockMaxstr
  pass : r.pass.length ≤ Tls.vsftpPrivsockMaxstr
  control : InInt r.controlUseSsl
  data : InInt r.dataUseSsl

theorem readLoop_short {msg : String} {n : ℕ} (h : s.input.length < n) :
    readLoop msg n s = .error (.halt (.die msg)) s := by
  have hget : (get : LoginM LoginParent) s = .ok s s := rfl
  unfold readLoop
  rw [bind_ok hget, if_pos h]
  rfl

theorem readLoop_long {msg : String} {n : ℕ} (h : ¬ s.input.length < n) :
    readLoop msg n s = .ok (s.input.take n) { s with input := s.input.drop n } := by
  have hget : (get : LoginM LoginParent) s = .ok s s := rfl
  unfold readLoop
  rw [bind_ok hget, if_neg h]
  rfl

theorem readLoop_ok {msg : String} {n : ℕ} {bs : Bytes} : readLoop msg n s = .ok bs s' ↔
    bs.length = n ∧ s.input = bs ++ s'.input ∧ s' = { s with input := s'.input } := by
  by_cases hlen : s.input.length < n
  · rw [readLoop_short hlen]
    refine iff_of_false (by intro h; cases h) ?_
    rintro ⟨hbs, hinput, -⟩
    have hlong := congrArg List.length hinput
    rw [List.length_append] at hlong
    omega
  · rw [readLoop_long hlen]
    constructor
    · intro h
      cases h
      exact ⟨by rw [List.length_take]; omega, (List.take_append_drop n s.input).symm, rfl⟩
    · rintro ⟨rfl, hinput, hs⟩
      rw [hs, hinput, List.take_left, List.drop_left]

theorem readLoop_not_loggedIn {msg : String} {n : ℕ} {r : LoginResult} :
    readLoop msg n s ≠ .error (.loggedIn r) s' := by
  by_cases hlen : s.input.length < n
  · rw [readLoop_short hlen]
    intro h
    cases h
  · rw [readLoop_long hlen]
    intro h
    cases h

/-- The bytes of an `int` are told from it. -/
theorem intBytes_intOfBytes {bs : Bytes} (h : bs.length = 4) :
    InInt (intOfBytes bs) ∧ intBytes (intOfBytes bs) = bs := by
  obtain ⟨b0, b1, b2, b3, rfl⟩ : ∃ b0 b1 b2 b3, bs = [b0, b1, b2, b3] := by
    rcases bs with _ | ⟨b0, _ | ⟨b1, _ | ⟨b2, _ | ⟨b3, _ | ⟨b4, bs⟩⟩⟩⟩⟩
    · cases h
    · cases h
    · cases h
    · cases h
    · exact ⟨b0, b1, b2, b3, rfl⟩
    · simp at h
  have h0 := b0.toNat_lt
  have h1 := b1.toNat_lt
  have h2 := b2.toNat_lt
  have h3 := b3.toNat_lt
  refine ⟨?_, ?_⟩
  · simp only [InInt, intOfBytes, wrapSigned]
    omega
  · have hvalue : (intOfBytes [b0, b1, b2, b3] % 2 ^ 32).toNat =
        b0.toNat + 2 ^ 8 * b1.toNat + 2 ^ 16 * b2.toNat + 2 ^ 24 * b3.toNat := by
      simp only [intOfBytes, wrapSigned]
      omega
    unfold intBytes
    rw [hvalue]
    simp only [List.cons.injEq, and_true]
    refine ⟨?_, ?_, ?_, ?_⟩
    · apply UInt8.toNat_inj.mp
      rw [UInt8.toNat_ofNat']
      omega
    · apply UInt8.toNat_inj.mp
      rw [UInt8.toNat_ofNat']
      omega
    · apply UInt8.toNat_inj.mp
      rw [UInt8.toNat_ofNat']
      omega
    · apply UInt8.toNat_inj.mp
      rw [UInt8.toNat_ofNat']
      omega

theorem privSockGetInt_ok {n : ℤ} : privSockGetInt s = .ok n s' ↔
    InInt n ∧ s.input = intBytes n ++ s'.input ∧ s' = { s with input := s'.input } := by
  unfold privSockGetInt
  rw [map_eq_ok]
  constructor
  · rintro ⟨bs, hread, rfl⟩
    obtain ⟨hlen, hinput, hs⟩ := readLoop_ok.mp hread
    obtain ⟨hint, hbytes⟩ := intBytes_intOfBytes hlen
    exact ⟨hint, by rw [hbytes]; exact hinput, hs⟩
  · rintro ⟨hint, hinput, hs⟩
    exact ⟨intBytes n, readLoop_ok.mpr ⟨rfl, hinput, hs⟩, intOfBytes_intBytes hint⟩

/-- The length of a string, as it is sent. -/
theorem intBytes_asUnsigned (n : ℤ) : intBytes (Tls.asUnsigned n : ℕ) = intBytes n := by
  have hsame : ((Tls.asUnsigned n : ℕ) : ℤ) % 2 ^ 32 = n % 2 ^ 32 := by
    unfold Tls.asUnsigned
    omega
  unfold intBytes
  rw [hsame]

theorem maxstr_lt : Tls.vsftpPrivsockMaxstr < 2 ^ 31 := by decide +kernel

theorem privSockGetStr_ok {str : Bytes} : privSockGetStr s = .ok str s' ↔
    str.length ≤ Tls.vsftpPrivsockMaxstr ∧ s.input = intBytes str.length ++ str ++ s'.input ∧
      s' = { s with input := s'.input } := by
  unfold privSockGetStr
  rw [bind_eq_ok]
  have hmax := maxstr_lt
  constructor
  · rintro ⟨len, t, hlen, hrest⟩
    obtain ⟨-, hinput, ht⟩ := privSockGetInt_ok.mp hlen
    split at hrest
    · cases hrest
    case isFalse hfits =>
      split at hrest
      · obtain ⟨hstr, hinput', hs⟩ := readLoop_ok.mp hrest
        rw [← hstr] at hfits
        refine ⟨by omega, ?_, ?_⟩
        · rw [hinput, hinput', hstr, intBytes_asUnsigned, List.append_assoc]
        · rw [hs, ht]
      case isFalse hzero =>
        cases hrest
        have hnil : intBytes len = intBytes 0 := by
          rw [← intBytes_asUnsigned, Nat.eq_zero_of_not_pos hzero]
          rfl
        refine ⟨Nat.zero_le _, ?_, ht⟩
        rw [hinput, hnil]
        simp
  · rintro ⟨hfits, hinput, hs⟩
    have hunsigned : Tls.asUnsigned str.length = str.length := by
      unfold Tls.asUnsigned
      omega
    refine ⟨str.length, { s with input := str ++ s'.input }, privSockGetInt_ok.mpr ⟨?_, ?_, rfl⟩, ?_⟩
    · unfold InInt
      omega
    · rw [hinput, List.append_assoc]
    · rw [hunsigned, if_neg (by omega)]
      split
      · exact readLoop_ok.mpr ⟨rfl, rfl, hs⟩
      case isFalse hzero =>
        have hnil : str = [] := List.length_eq_zero_iff.mp (by omega)
        rw [hnil, List.nil_append, ← hs]
        rfl

theorem privSockGetInt_not_loggedIn {r : LoginResult} : privSockGetInt s ≠ .error (.loggedIn r) s' := by
  unfold privSockGetInt
  rw [ne_eq, map_eq_error]
  exact readLoop_not_loggedIn

theorem privSockGetStr_not_loggedIn {r : LoginResult} : privSockGetStr s ≠ .error (.loggedIn r) s' := by
  unfold privSockGetStr
  rw [ne_eq, bind_eq_error]
  rintro (h | ⟨len, t, -, h⟩)
  · exact privSockGetInt_not_loggedIn h
  · split at h
    · cases h
    · split at h
      · exact readLoop_not_loggedIn h
      · cases h

/-- The state with the name of the session. -/
def withUser (p : Pre) (user : Bytes) : Pre :=
  { p with world := { p.world with sess := { p.world.sess with userStr := user } } }

theorem onPre_setUser (user : Bytes) : onPre (setUser user) s = .ok () { s with pre := withUser s.pre user } := rfl

/-- **What is read is what a child has sent.** -/
theorem readLogin_ok {r : LoginReq} : readLogin s = .ok r s' ↔
    r.Fits ∧ s.input = r.msg ++ s'.input ∧ s' = { s with pre := withUser s.pre r.user, input := s'.input } := by
  unfold readLogin
  rw [bind_eq_ok]
  constructor
  · rintro ⟨cmd, t₁, hcmd, hrest⟩
    obtain ⟨-, hinput₁, ht₁⟩ := readLoop_ok.mp hcmd
    split at hrest
    · cases hrest
    case isFalse hlogin =>
      obtain ⟨user, t₂, huser, hrest⟩ := bind_eq_ok.mp hrest
      rw [bind_ok (onPre_setUser user)] at hrest
      obtain ⟨pass, t₃, hpass, hrest⟩ := bind_eq_ok.mp hrest
      obtain ⟨control, t₄, hcontrol, hrest⟩ := bind_eq_ok.mp hrest
      obtain ⟨data, t₅, hdata, hrest⟩ := bind_eq_ok.mp hrest
      cases hrest
      obtain ⟨hu, hinput₂, ht₂⟩ := privSockGetStr_ok.mp huser
      obtain ⟨hp, hinput₃, ht₃⟩ := privSockGetStr_ok.mp hpass
      obtain ⟨hc, hinput₄, ht₄⟩ := privSockGetInt_ok.mp hcontrol
      obtain ⟨hd, hinput₅, ht₅⟩ := privSockGetInt_ok.mp hdata
      refine ⟨⟨hu, hp, hc, hd⟩, ?_, ?_⟩
      · dsimp only at hinput₃
        rw [hinput₁, not_not.mp hlogin, hinput₂, hinput₃, hinput₄, hinput₅]
        simp [LoginReq.msg]
      · rw [ht₅, ht₄, ht₃, ht₂, ht₁]
  · rintro ⟨⟨hu, hp, hc, hd⟩, hinput, hs⟩
    obtain ⟨user, pass, control, data⟩ := r
    refine ⟨[privSockLogin], { s with input := s.input.tail }, readLoop_ok.mpr ⟨rfl, ?_, rfl⟩, ?_⟩
    · rw [hinput]
      rfl
    · rw [if_neg (not_not.mpr rfl)]
      obtain ⟨ints, hints⟩ : ∃ ints, ints = intBytes control ++ intBytes data ++ s'.input := ⟨_, rfl⟩
      refine bind_eq_ok.mpr ⟨user, { s with input := intBytes pass.length ++ pass ++ ints },
        privSockGetStr_ok.mpr ⟨hu, ?_, rfl⟩, ?_⟩
      · rw [hinput, hints]
        simp [LoginReq.msg]
      rw [bind_ok (onPre_setUser user)]
      refine bind_eq_ok.mpr ⟨pass, { s with pre := withUser s.pre user, input := ints },
        privSockGetStr_ok.mpr ⟨hp, rfl, rfl⟩, ?_⟩
      refine bind_eq_ok.mpr ⟨control, { s with pre := withUser s.pre user, input := intBytes data ++ s'.input },
        privSockGetInt_ok.mpr ⟨hc, ?_, rfl⟩, ?_⟩
      · rw [hints, List.append_assoc]
      exact bind_eq_ok.mpr ⟨data, s', privSockGetInt_ok.mpr ⟨hd, rfl, hs⟩, rfl⟩

theorem readLogin_not_loggedIn {r : LoginResult} : readLogin s ≠ .error (.loggedIn r) s' := by
  unfold readLogin
  rw [ne_eq, bind_eq_error]
  rintro (h | ⟨cmd, t₁, -, h⟩)
  · exact readLoop_not_loggedIn h
  split at h
  · cases h
  rcases bind_eq_error.mp h with h | ⟨user, t₂, -, h⟩
  · exact privSockGetStr_not_loggedIn h
  rw [bind_ok (onPre_setUser user)] at h
  rcases bind_eq_error.mp h with h | ⟨pass, t₃, -, h⟩
  · exact privSockGetStr_not_loggedIn h
  rcases bind_eq_error.mp h with h | ⟨control, t₄, -, h⟩
  · exact privSockGetInt_not_loggedIn h
  rcases bind_eq_error.mp h with h | ⟨data, t₅, -, h⟩
  · exact privSockGetInt_not_loggedIn h
  · cases h

end

/-! ### One request -/

/-- The state in which a request is looked at. -/
def LoginReq.seen (r : LoginReq) (p : Pre) : Pre :=
  { p with world := { p.world with sess := { p.world.sess with
    userStr := r.user
    controlUseSsl := T.sslEnable && r.controlUseSsl ≠ 0
    dataUseSsl := T.sslEnable && r.dataUseSsl ≠ 0 } } }

/-- What has to hold of a name and a password that are accepted. -/
def Accepts (a : PreEnv) (user pass : Bytes) : LoginResult → Prop
  | .fail => True
  | .anon => dodgy user pass = false ∧ anonymousLogin T user = true ∧ a.anonLogin = true
  | .real => dodgy user pass = false ∧ anonymousLogin T user = false ∧ T.localEnable = true ∧
      ∃ permissions, (cosHandleLogin T.loginUsers user pass permissions).1 = 0

/-- How the session is begun for an account. -/
inductive Begins (user : Bytes) (p : Pre) : LoginResult → Pre → Bool → Prop where
  | anon : Begins user p .anon (withUser p C.ftpUsername) true
  | real {doChroot : Bool} (h : doChrootOf C env user = .ok doChroot) : Begins user p .real p doChroot

section

variable {T : Tunables} {C : LoginTunables} {env : LoginEnv} {s s' : LoginParent} {a : PreEnv} {user pass : Bytes}
  {p : Pre}

/-- What is done to the session keeps the requests. -/
theorem onWorld_keeps {α : Type} (x : M α) :
    wp (onWorld x) (fun _ p' => p'.logins = p.logins) (fun e _ => ∃ h, e = .halt h) p := by
  rw [wp_onWorld]
  exact wp_of_run (fun _ _ _ => rfl) fun h _ _ => ⟨h, rfl⟩

theorem handleLogin_verdict : wp (handleLogin T a user pass)
    (fun r p' => p'.logins = p.logins ++ [⟨user, pass, p.world.sess.controlUseSsl⟩] ∧ Accepts T a user pass r)
    (fun e _ => ∃ h, e = .halt h) p := by
  unfold handleLogin
  rw [wp_bind, wp_modify]
  refine wp_cases (fun _ => ⟨rfl, trivial⟩) fun hdodgy => ?_
  have hclean : dodgy user pass = false := (Bool.not_eq_true _).mp hdodgy
  refine wp_cases (fun hanon => ?_) fun hlocal => ?_
  · unfold handleAnonymousLogin
    refine wp_cases (fun hlogin => ?_) fun _ => ⟨rfl, trivial⟩
    rw [wp_bind]
    refine wp_mono (onWorld_keeps _) (fun _ p' hkeeps => ⟨hkeeps, ?_⟩) fun _ _ he => he
    exact ⟨hclean, hanon, hlogin⟩
  · refine wp_cases (fun _ => ⟨_, rfl⟩) fun henable => ?_
    rw [wp_localLogin, handleLocalLogin]
    refine ⟨rfl, ?_⟩
    split
    · exact trivial
    · rename_i hlogin
      exact ⟨hclean, (Bool.not_eq_true _).mp hlocal, by simpa using henable, _, not_not.mp hlogin⟩

/-- **Each request is kept**, and who is accepted has a name and a password that the system takes. -/
theorem vsfPrivopDoLogin_verdict : wp (vsfPrivopDoLogin T a user pass)
    (fun r p' => p'.logins = p.logins ++ [⟨user, pass, p.world.sess.controlUseSsl⟩] ∧ Accepts T a user pass r)
    (fun e _ => ∃ h, e = .halt h) p := by
  unfold vsfPrivopDoLogin
  rw [wp_bind]
  refine wp_mono handleLogin_verdict (fun r p₁ h₁ => ?_) fun _ _ he => he
  rw [wp_bind]
  refine wp_mono (onWorld_keeps _) (fun _ p₂ h₂ => ?_) fun _ _ he => he
  rw [wp_bind]
  refine wp_mono (onWorld_keeps _) (fun _ p₃ h₃ => ?_) fun _ _ he => he
  exact ⟨h₃.trans (h₂.trans h₁.1), h₁.2⟩

theorem onPre_ok {α : Type} {x : PreM α} {b : α} : onPre x s = .ok b s' ↔
    ∃ p, x s.pre = .ok b p ∧ s' = { s with pre := p } := by
  unfold onPre
  cases hx : x s.pre with
  | ok b' p =>
    constructor
    · intro h
      cases h
      exact ⟨p, rfl, rfl⟩
    · rintro ⟨p', heq, rfl⟩
      cases heq
      rfl
  | error e p => exact iff_of_false (by intro h; cases h) (by rintro ⟨p', heq, -⟩; cases heq)

theorem privSockSendResult_eq (res : UInt8) : privSockSendResult env res s =
    if env.send then .ok () { s with output := s.output ++ [res] }
    else .error (.halt (.die "priv_sock_send_result")) s := by
  unfold privSockSendResult
  split
  · rfl
  · rfl

theorem commonDoLogin_eq (result : LoginResult) (doChroot : Bool) : commonDoLogin env result doChroot s =
    if env.send then
      .error (.loggedIn result) { s with output := s.output ++ [privSockResultOk], doChroot := some doChroot }
    else .error (.halt (.die "priv_sock_send_result")) s := by
  unfold commonDoLogin
  have hsend : privSockSendResult env privSockResultOk s = _ := privSockSendResult_eq _
  by_cases h : env.send = true
  · rw [if_pos h] at hsend ⊢
    rw [bind_ok hsend]
    rfl
  · rw [if_neg h] at hsend ⊢
    rw [bind_error hsend]

theorem commonDoLogin_ne_ok (result : LoginResult) (doChroot : Bool) :
    commonDoLogin env result doChroot s ≠ .ok () s' := by
  rw [commonDoLogin_eq]
  split
  · intro h
    cases h
  · intro h
    cases h

theorem settleLogin_ok {result : LoginResult} : settleLogin C env user result s = .ok () s' ↔
    result = .fail ∧ env.send = true ∧ s' = { s with output := s.output ++ [privSockResultBad] } := by
  cases result with
  | fail =>
    show privSockSendResult env privSockResultBad s = _ ↔ _
    rw [privSockSendResult_eq]
    by_cases hsend : env.send = true
    · rw [if_pos hsend]
      constructor
      · intro h
        cases h
        exact ⟨rfl, hsend, rfl⟩
      · rintro ⟨-, -, rfl⟩
        rfl
    · rw [if_neg hsend]
      exact iff_of_false (by intro h; cases h) fun h => hsend h.2.1
  | anon =>
    refine iff_of_false ?_ (by rintro ⟨h, -⟩; cases h)
    show (onPre (setUser C.ftpUsername) >>= fun _ => commonDoLogin env .anon true) s ≠ _
    rw [bind_ok (onPre_setUser _)]
    exact commonDoLogin_ne_ok _ _
  | real =>
    refine iff_of_false ?_ (by rintro ⟨h, -⟩; cases h)
    unfold settleLogin
    cases doChrootOf C env user with
    | error h =>
      intro heq
      cases heq
    | ok doChroot => exact commonDoLogin_ne_ok _ _

theorem commonDoLogin_loggedIn {result r : LoginResult} {doChroot : Bool} :
    commonDoLogin env result doChroot s = .error (.loggedIn r) s' ↔ env.send = true ∧ r = result ∧
      s' = { s with output := s.output ++ [privSockResultOk], doChroot := some doChroot } := by
  rw [commonDoLogin_eq]
  by_cases hsend : env.send = true
  · rw [if_pos hsend]
    constructor
    · intro h
      cases h
      exact ⟨hsend, rfl, rfl⟩
    · rintro ⟨-, rfl, rfl⟩
      rfl
  · rw [if_neg hsend]
    exact iff_of_false (by intro h; cases h) fun h => hsend h.1

theorem settleLogin_loggedIn {result r : LoginResult} : settleLogin C env user result s = .error (.loggedIn r) s' ↔
    ∃ p' doChroot, Begins C env user s.pre result p' doChroot ∧ env.send = true ∧ r = result ∧
      s' = ⟨p', s.input, s.output ++ [privSockResultOk], some doChroot⟩ := by
  cases result with
  | fail =>
    refine iff_of_false ?_ (by rintro ⟨p', doChroot, h, -⟩; cases h)
    show privSockSendResult env privSockResultBad s ≠ _
    rw [privSockSendResult_eq]
    split
    · intro h
      cases h
    · intro h
      cases h
  | anon =>
    show (onPre (setUser C.ftpUsername) >>= fun _ => commonDoLogin env .anon true) s = _ ↔ _
    rw [bind_ok (onPre_setUser _), commonDoLogin_loggedIn]
    constructor
    · rintro ⟨hsend, hr, hs⟩
      exact ⟨_, _, .anon, hsend, hr, hs⟩
    · rintro ⟨p', doChroot, hbegins, hsend, hr, hs⟩
      cases hbegins
      exact ⟨hsend, hr, hs⟩
  | real =>
    unfold settleLogin
    cases hchroot : doChrootOf C env user with
    | error h =>
      refine iff_of_false (by intro heq; cases heq) ?_
      rintro ⟨p', doChroot, hbegins, -⟩
      cases hbegins with
      | real hok => cases hchroot.symm.trans hok
    | ok doChroot =>
      show commonDoLogin env .real doChroot s = _ ↔ _
      rw [commonDoLogin_loggedIn]
      constructor
      · rintro ⟨hsend, hr, hs⟩
        exact ⟨_, _, .real hchroot, hsend, hr, hs⟩
      · rintro ⟨p', doChroot', hbegins, hsend, hr, hs⟩
        cases hbegins with
        | real hok =>
          cases hchroot.symm.trans hok
          exact ⟨hsend, hr, hs⟩

/-- A request that is read, up to the answer. -/
theorem processLoginReq_read {r : LoginReq} {rest : Bytes} (hfits : r.Fits) (hinput : s.input = r.msg ++ rest) :
    processLoginReq T C env s = (onPre (vsfPrivopDoLogin T env.privop r.user r.pass) >>= fun result =>
      settleLogin C env r.user result) { s with pre := r.seen T s.pre, input := rest } := by
  have hread : readLogin s = .ok r { s with pre := withUser s.pre r.user, input := rest } :=
    readLogin_ok.mpr ⟨hfits, hinput, rfl⟩
  unfold processLoginReq
  rw [bind_ok hread]
  exact bind_ok rfl

/-- **A request is refused** where its password is, and the parent goes on behind it. -/
theorem processLoginReq_ok : processLoginReq T C env s = .ok () s' ↔
    ∃ (r : LoginReq) (rest : Bytes) (p : Pre), r.Fits ∧ s.input = r.msg ++ rest ∧
      vsfPrivopDoLogin T env.privop r.user r.pass (r.seen T s.pre) = .ok .fail p ∧ env.send = true ∧
      s' = { s with pre := p, input := rest, output := s.output ++ [privSockResultBad] } := by
  constructor
  · intro h
    obtain ⟨r, t, hread, -⟩ := bind_eq_ok.mp h
    obtain ⟨hfits, hinput, -⟩ := readLogin_ok.mp hread
    rw [processLoginReq_read hfits hinput] at h
    obtain ⟨result, t₂, hprivop, hsettle⟩ := bind_eq_ok.mp h
    obtain ⟨p, hresult, rfl⟩ := onPre_ok.mp hprivop
    obtain ⟨rfl, hsend, hs⟩ := settleLogin_ok.mp hsettle
    exact ⟨r, _, p, hfits, hinput, hresult, hsend, hs⟩
  · rintro ⟨r, rest, p, hfits, hinput, hresult, hsend, hs⟩
    rw [processLoginReq_read hfits hinput]
    exact bind_eq_ok.mpr ⟨.fail, _, onPre_ok.mpr ⟨p, hresult, rfl⟩, settleLogin_ok.mpr ⟨rfl, hsend, hs⟩⟩

/-- **A session is begun** where the password is accepted. -/
theorem processLoginReq_loggedIn {result : LoginResult} :
    processLoginReq T C env s = .error (.loggedIn result) s' ↔
      ∃ (r : LoginReq) (rest : Bytes) (p p' : Pre) (doChroot : Bool), r.Fits ∧ s.input = r.msg ++ rest ∧
        vsfPrivopDoLogin T env.privop r.user r.pass (r.seen T s.pre) = .ok result p ∧
        Begins C env r.user p result p' doChroot ∧ env.send = true ∧
        s' = ⟨p', rest, s.output ++ [privSockResultOk], some doChroot⟩ := by
  constructor
  · intro h
    rcases bind_eq_error.mp h with hread | ⟨r, t, hread, -⟩
    · exact absurd hread readLogin_not_loggedIn
    obtain ⟨hfits, hinput, -⟩ := readLogin_ok.mp hread
    rw [processLoginReq_read hfits hinput] at h
    rcases bind_eq_error.mp h with hprivop | ⟨result', t₂, hprivop, hsettle⟩
    · unfold onPre at hprivop
      cases hrun : vsfPrivopDoLogin T env.privop r.user r.pass (r.seen T s.pre) with
      | ok b p =>
        dsimp only at hprivop
        rw [hrun] at hprivop
        cases hprivop
      | error e p =>
        dsimp only at hprivop
        rw [hrun] at hprivop
        obtain ⟨x, rfl⟩ := error_of_wp vsfPrivopDoLogin_verdict hrun
        cases hprivop
    · obtain ⟨p, hresult, rfl⟩ := onPre_ok.mp hprivop
      obtain ⟨p', doChroot, hbegins, hsend, rfl, hs⟩ := settleLogin_loggedIn.mp hsettle
      exact ⟨r, _, p, p', doChroot, hfits, hinput, hresult, hbegins, hsend, hs⟩
  · rintro ⟨r, rest, p, p', doChroot, hfits, hinput, hresult, hbegins, hsend, hs⟩
    rw [processLoginReq_read hfits hinput]
    exact bind_eq_error.mpr (.inr ⟨result, _, onPre_ok.mpr ⟨p, hresult, rfl⟩,
      settleLogin_loggedIn.mpr ⟨p', doChroot, hbegins, hsend, rfl, hs⟩⟩)

end

/-! ### All requests -/

/-- The session is begun for the last of the requests that are read from the input, and not for the others. -/
inductive Granted (T : Tunables) (C : LoginTunables) :
    List LoginEnv → LoginParent → List LoginReq → LoginResult → LoginParent → Prop where
  | accepted {env : LoginEnv} {envs : List LoginEnv} {s : LoginParent} {r : LoginReq} {rest : Bytes} {p p' : Pre}
      {doChroot : Bool} {result : LoginResult} (fits : r.Fits) (input : s.input = r.msg ++ rest)
      (privop : vsfPrivopDoLogin T env.privop r.user r.pass (r.seen T s.pre) = .ok result p)
      (begins : Begins C env r.user p result p' doChroot) (send : env.send = true) :
      Granted T C (env :: envs) s [r] result ⟨p', rest, s.output ++ [privSockResultOk], some doChroot⟩
  | refused {env : LoginEnv} {envs : List LoginEnv} {s s' : LoginParent} {r : LoginReq} {rest : Bytes} {p : Pre}
      {rs : List LoginReq} {result : LoginResult} (fits : r.Fits) (input : s.input = r.msg ++ rest)
      (privop : vsfPrivopDoLogin T env.privop r.user r.pass (r.seen T s.pre) = .ok .fail p) (send : env.send = true)
      (later : Granted T C envs { s with pre := p, input := rest, output := s.output ++ [privSockResultBad] }
        rs result s') :
      Granted T C (env :: envs) s (r :: rs) result s'

/-- A request, as it is kept. -/
def LoginReq.login (r : LoginReq) : Login := ⟨r.user, r.pass, T.sslEnable && r.controlUseSsl ≠ 0⟩

section

variable {T : Tunables} {C : LoginTunables} {envs : List LoginEnv} {s s' : LoginParent} {result : LoginResult}

theorem loop_granted_iff : processLoginLoop T C envs s = .error (.loggedIn result) s' ↔
    ∃ rs, Granted T C envs s rs result s' := by
  induction envs generalizing s with
  | nil =>
    refine iff_of_false (by intro h; cases h) ?_
    rintro ⟨rs, h⟩
    cases h
  | cons env envs ih =>
    unfold processLoginLoop
    rw [bind_eq_error, processLoginReq_loggedIn]
    constructor
    · rintro (⟨r, rest, p, p', doChroot, hfits, hinput, hprivop, hbegins, hsend, rfl⟩ | ⟨_, t, hfirst, hlater⟩)
      · exact ⟨[r], .accepted hfits hinput hprivop hbegins hsend⟩
      · obtain ⟨r, rest, p, hfits, hinput, hprivop, hsend, rfl⟩ := processLoginReq_ok.mp hfirst
        obtain ⟨rs, hgranted⟩ := ih.mp hlater
        exact ⟨r :: rs, .refused hfits hinput hprivop hsend hgranted⟩
    · rintro ⟨rs, hgranted⟩
      cases hgranted with
      | accepted hfits hinput hprivop hbegins hsend =>
        exact .inl ⟨_, _, _, _, _, hfits, hinput, hprivop, hbegins, hsend, rfl⟩
      | refused hfits hinput hprivop hsend hlater =>
        exact .inr ⟨(), _, processLoginReq_ok.mpr ⟨_, _, _, hfits, hinput, hprivop, hsend, rfl⟩, ih.mpr ⟨_, hlater⟩⟩

/-- What a session that was begun tells of the input. -/
structure Begun (T : Tunables) (C : LoginTunables) (envs : List LoginEnv) (s : LoginParent) (failed : List LoginReq)
    (last : LoginReq) (result : LoginResult) (s' : LoginParent) : Prop where
  input : s.input = (failed ++ [last]).flatMap LoginReq.msg ++ s'.input
  fits : ∀ r ∈ failed ++ [last], r.Fits
  output : s'.output = s.output ++ failed.map (fun _ => privSockResultBad) ++ [privSockResultOk]
  logins : s'.pre.logins = s.pre.logins ++ (failed ++ [last]).map (LoginReq.login T)
  /-- the name and the password are those of the last request, and the system took them -/
  accepted : ∃ env ∈ envs, result ≠ .fail ∧ Accepts T env.privop last.user last.pass result ∧
    ∃ doChroot, s'.doChroot = some doChroot ∧
      (result = .anon ∧ doChroot = true ∨ result = .real ∧ doChrootOf C env last.user = .ok doChroot)

theorem Begins.logins {env : LoginEnv} {user : Bytes} {p p' : Pre} {doChroot : Bool}
    (h : Begins C env user p result p' doChroot) : p'.logins = p.logins := by
  cases h with
  | anon => rfl
  | real => rfl

theorem Granted.begun {rs : List LoginReq} (h : Granted T C envs s rs result s') :
    ∃ failed last, rs = failed ++ [last] ∧ Begun T C envs s failed last result s' := by
  induction h with
  | @accepted env envs s r rest p p' doChroot result hfits hinput hprivop hbegins hsend =>
    obtain ⟨hlogins, haccepts⟩ := ok_of_wp vsfPrivopDoLogin_verdict hprivop
    refine ⟨[], r, rfl, ⟨?_, ?_, ?_, ?_, env, List.mem_cons_self, ?_, haccepts, doChroot, rfl, ?_⟩⟩
    · simpa using hinput
    · intro q hq
      rw [List.mem_singleton.mp hq]
      exact hfits
    · simp
    · rw [hbegins.logins, hlogins]
      rfl
    · cases hbegins with
      | anon => exact LoginResult.noConfusion
      | real => exact LoginResult.noConfusion
    · cases hbegins with
      | anon => exact .inl ⟨rfl, rfl⟩
      | real hchroot => exact .inr ⟨rfl, hchroot⟩
  | @refused env envs s s' r rest p rs result hfits hinput hprivop hsend hlater ih =>
    obtain ⟨hlogins, -⟩ := ok_of_wp vsfPrivopDoLogin_verdict hprivop
    obtain ⟨failed, last, rfl, hbegun⟩ := ih
    refine ⟨r :: failed, last, rfl, ⟨?_, ?_, ?_, ?_, ?_⟩⟩
    · have hrest := hbegun.input
      dsimp only at hrest
      rw [hinput, hrest, List.cons_append, List.flatMap_cons, List.append_assoc]
    · intro q hq
      rcases List.mem_cons.mp hq with rfl | hq
      · exact hfits
      · exact hbegun.fits q hq
    · rw [hbegun.output]
      simp
    · rw [hbegun.logins, hlogins]
      simp [LoginReq.login, LoginReq.seen]
    · obtain ⟨env', henv, hmore⟩ := hbegun.accepted
      exact ⟨env', List.mem_cons_of_mem env henv, hmore⟩

end

/-- **Whatever the child sends, it takes a password to begin a session.** The parent begins one on just the
inputs that are requests for a login which failed, followed by one that `vsf_privop_do_login` accepted, and on
each such input. All of them are kept, each was answered, none has a name or a password of more than what
a string may have, TLS is not believed where it is disabled, and what is behind the last request is not read. -/
theorem session_iff (T : Tunables) (C : LoginTunables) (envs : List LoginEnv) (s : LoginParent) (result : LoginResult)
    (s' : LoginParent) : processLoginLoop T C envs s = .error (.loggedIn result) s' ↔
      ∃ failed last, Granted T C envs s (failed ++ [last]) result s' ∧ Begun T C envs s failed last result s' := by
  rw [loop_granted_iff]
  constructor
  · rintro ⟨rs, hgranted⟩
    obtain ⟨failed, last, rfl, hbegun⟩ := hgranted.begun
    exact ⟨failed, last, hgranted, hbegun⟩
  · rintro ⟨failed, last, hgranted, -⟩
    exact ⟨failed ++ [last], hgranted⟩

end PreloginParent
end CosFtp
