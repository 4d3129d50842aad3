/-
# The address in the reply to PASV

PASV is answered with six numbers, four of an address and two of a port, as
PORT takes them. Read back by the parser of PORT they give what was written
(`parsePortArg_pasvReply`): the port that is listened on, and the IPv4 address
of the control connection or the one that is configured. But the text of a
configured address is asked of a structure of the IPv4 family in the way of
IPv6 when the control connection has an IPv6 address; that finds none, and the
reply holds four zeros (`pasv_reply_exact`).

Key definitions: `sixNumbers`, `Sockaddr.v4`, `ListeningAt`.
Key theorems: `sixNumbers_pasvReply`, `parsePortArg_pasvReply`, `pasv_reply_exact`.
-/
import CosFtp.Quads
import CosFtp.LogLines
import CosFtp.RetrComplete
import CosFtp.Bounce

namespace CosFtp

open Wp PrivM

/-! ### Numbers written and read -/

theorem digitsVal_ulongText (n : ℕ) : digitsVal (ulongText n) = n := by
  have hdigits : ulongText n = (Nat.toDigits 10 n).map fun c => UInt8.ofNat c.toNat := by
    rw [← Nat.toList_repr]
    rfl
  have hfold : ∀ (cs : List Char) (v : ℕ), (∀ c ∈ cs, c.isDigit = true) →
      (cs.map fun c => UInt8.ofNat c.toNat).foldl (fun v d => v * 10 + (d.toNat - 48)) v =
        Nat.ofDigitChars 10 cs v := by
    intro cs
    induction cs with
    | nil => intro v _; rfl
    | cons c cs ih =>
      intro v hcs
      have hc : c.isDigit = true := hcs c List.mem_cons_self
      simp only [Char.isDigit, Bool.and_eq_true, decide_eq_true_eq, ge_iff_le, UInt32.le_iff_toNat_le] at hc
      change 48 ≤ c.toNat ∧ c.toNat ≤ 57 at hc
      have hval : (UInt8.ofNat c.toNat).toNat = c.toNat := Nat.mod_eq_of_lt (by omega)
      rw [List.map_cons, List.foldl_cons, ih _ fun d hd => hcs d (List.mem_cons_of_mem c hd), hval,
        Nat.ofDigitChars_cons, Nat.mul_comm 10 v]
      rfl
  rw [hdigits, digitsVal, hfold _ 0 fun c hc => Nat.isDigit_of_mem_toDigits (by decide) (by decide) hc]
  exact Nat.ofDigitChars_ten_toDigits

theorem ulongText_ne_nil (n : ℕ) : ulongText n ≠ [] := by
  intro h
  have hdigits : (Nat.toDigits 10 n).map (fun c => UInt8.ofNat c.toNat) = [] := by
    rw [← Nat.toList_repr]
    exact h
  exact Nat.toDigits_ne_nil (List.map_eq_nil_iff.mp hdigits)

/-- A byte is written as a number of a byte. -/
theorem octet_ulongText (b : UInt8) : Octet (ulongText b.toNat) := by
  refine ⟨ulongText_ne_nil _, fun d hd => isdigit_of_mem_ulongText hd, ?_⟩
  rw [digitsVal_ulongText]
  have hlt := b.toNat_lt
  omega

/-- **Bytes written with a separator between them are read back.** -/
theorem parseUcharStringSep_intercalate (sep : UInt8) (hsep : isdigit sep = false) (h0 : sep ≠ chNul)
    {bs : Bytes} (hbs : bs ≠ []) :
    parseUcharStringSep sep bs.length ([sep].intercalate (bs.map fun b => ulongText b.toNat)) = some bs := by
  have hfields : ([sep].intercalate (bs.map fun b => ulongText b.toNat)).splitOn sep =
      bs.map fun b => ulongText b.toNat := by
    refine List.splitOn_intercalate _ ?_ (by simpa using hbs)
    intro f hf
    obtain ⟨b, _, rfl⟩ := List.mem_map.mp hf
    exact not_mem_ulongText hsep _
  have hoctets : OctetFields sep bs.length ([sep].intercalate (bs.map fun b => ulongText b.toNat)) := by
    rw [OctetFields, hfields]
    refine ⟨List.length_map .., ?_⟩
    intro f hf
    obtain ⟨b, _, rfl⟩ := List.mem_map.mp hf
    exact octet_ulongText b
  have hnul : ¬ (sep = chNul ∧ bs.length ≠ 1) := fun h => h0 h.1
  rw [hoctets.parse_eq (List.length_pos_of_ne_nil hbs) hnul, hfields, List.map_map]
  congr 1
  calc bs.map ((fun f => UInt8.ofNat (digitsVal f)) ∘ fun b => ulongText b.toNat)
      = bs.map id := List.map_congr_left fun b _ => by
        show UInt8.ofNat (digitsVal (ulongText b.toNat)) = b
        rw [digitsVal_ulongText, UInt8.ofNat_toNat]
    _ = bs := List.map_id bs

/-! ### The six numbers -/

/-- What stands between the brackets of a reply. -/
def sixNumbers (msg : Bytes) : Bytes := (msg.dropWhile (· ≠ 40)).tail.takeWhile (· ≠ 41)

/-- The address in the reply: the one of the structure, if it is asked in the
way of its own family. -/
def toldAddr (isIpv6 : Bool) : Sockaddr → RawAddr 4
  | .inet raw _ => if isIpv6 then ⟨[0, 0, 0, 0], rfl⟩ else raw
  | .inet6 raw _ => (Sockaddr.ipv6V4 raw).getD ⟨[0, 0, 0, 0], rfl⟩

theorem strReplaceChar_of_not_mem {c d : UInt8} {s : Bytes} (h : c ∉ s) : strReplaceChar s c d = s := by
  unfold strReplaceChar
  calc s.map (fun b => if b = c then d else b) = s.map id := by
        refine List.map_congr_left fun b hb => if_neg ?_
        intro hbc
        rw [hbc] at hb
        exact h hb
    _ = s := List.map_id s

theorem strReplaceChar_append (s t : Bytes) (c d : UInt8) :
    strReplaceChar (s ++ t) c d = strReplaceChar s c d ++ strReplaceChar t c d := List.map_append

/-- The dots between fields become commas. -/
theorem strReplaceChar_intercalate {c d : UInt8} : ∀ {fs : List Bytes}, (∀ f ∈ fs, c ∉ f) →
    strReplaceChar ([c].intercalate fs) c d = [d].intercalate fs
  | [], _ => rfl
  | [f], h => by
    rw [List.intercalate_singleton, List.intercalate_singleton]
    exact strReplaceChar_of_not_mem (h f List.mem_cons_self)
  | f :: g :: fs, h => by
    have hrest := strReplaceChar_intercalate (d := d) fun e he => h e (List.mem_cons_of_mem f he)
    rw [List.intercalate_cons_cons, List.intercalate_cons_cons, strReplaceChar_append,
      strReplaceChar_append, hrest, strReplaceChar_of_not_mem (h f List.mem_cons_self)]
    simp [strReplaceChar]

/-- The bytes of an address, with a mark between their numbers. -/
theorem pasvHost_commas (isIpv6 : Bool) (addr : Sockaddr) : strReplaceChar (pasvHost isIpv6 addr) chDot chComma =
    [chComma].intercalate ((toldAddr isIpv6 addr).1.map fun b => ulongText b.toNat) := by
  have hzeros : strReplaceChar (text "0,0,0,0") chDot chComma =
      [chComma].intercalate (([0, 0, 0, 0] : Bytes).map fun b => ulongText b.toNat) := by decide +kernel
  have hntoa : ∀ raw : RawAddr 4, strReplaceChar (inetNtoa raw) chDot chComma =
      [chComma].intercalate (raw.1.map fun b => ulongText b.toNat) := by
    intro raw
    refine strReplaceChar_intercalate fun f hf => ?_
    obtain ⟨b, _, rfl⟩ := List.mem_map.mp hf
    exact not_mem_ulongText (by decide) _
  cases addr with
  | inet raw port =>
    cases isIpv6 with
    | true => exact hzeros
    | false => exact hntoa raw
  | inet6 raw port =>
    unfold pasvHost toldAddr
    simp only
    cases Sockaddr.ipv6V4 raw with
    | none => exact hzeros
    | some v4 => exact hntoa v4

/-- The two bytes of a port. -/
def portBytes (port : UInt16) : Bytes := [UInt8.ofNat (port.toNat / 256), UInt8.ofNat (port.toNat % 256)]

theorem toNat_portBytes (port : UInt16) :
    (UInt8.ofNat (port.toNat / 256)).toNat = port.toNat / 256 ∧
      (UInt8.ofNat (port.toNat % 256)).toNat = port.toNat % 256 := by
  have hlt := port.toNat_lt
  exact ⟨Nat.mod_eq_of_lt (by omega), Nat.mod_eq_of_lt (by omega)⟩

theorem intercalate_append_pair (c : UInt8) {fs : List Bytes} (hfs : fs ≠ []) (f g : Bytes) :
    [c].intercalate (fs ++ [f, g]) = [c].intercalate fs ++ [c] ++ f ++ [c] ++ g := by
  induction fs with
  | nil => exact absurd rfl hfs
  | cons e fs ih =>
    cases fs with
    | nil => simp [List.intercalate_cons_cons]
    | cons e' fs =>
      have hrest := ih (List.cons_ne_nil e' fs)
      simp only [List.cons_append] at hrest ⊢
      rw [List.intercalate_cons_cons, List.intercalate_cons_cons, hrest]
      simp only [List.append_assoc]

theorem sixNumbers_pasvReply (isIpv6 : Bool) (addr : Sockaddr) (port : UInt16) :
    sixNumbers (pasvReply isIpv6 addr port) =
      [chComma].intercalate (((toldAddr isIpv6 addr).1 ++ portBytes port).map fun b => ulongText b.toNat) := by
  obtain ⟨hhigh, hlow⟩ := toNat_portBytes port
  have hne : (toldAddr isIpv6 addr).1.map (fun b => ulongText b.toNat) ≠ [] := by
    intro h
    have hlen := congrArg List.length h
    rw [List.length_map, (toldAddr isIpv6 addr).2] at hlen
    exact absurd hlen (by decide)
  set six := [chComma].intercalate (((toldAddr isIpv6 addr).1 ++ portBytes port).map fun b => ulongText b.toNat)
    with hsix
  have hinner : six = [chComma].intercalate ((toldAddr isIpv6 addr).1.map fun b => ulongText b.toNat) ++
      [chComma] ++ ulongText (port.toNat / 256) ++ [chComma] ++ ulongText (port.toNat % 256) := by
    rw [hsix, List.map_append, portBytes, List.map_cons, List.map_singleton, hhigh, hlow]
    exact intercalate_append_pair chComma hne _ _
  have hreply : pasvReply isIpv6 addr port = text "Entering Passive Mode " ++ (40 :: (six ++ text ").")) := by
    have hfront : strReplaceChar (text "Entering Passive Mode (") chDot chComma =
        text "Entering Passive Mode (" := strReplaceChar_of_not_mem (by decide +kernel)
    rw [hinner, ← pasvHost_commas, pasvReply, strReplaceChar_append, hfront]
    have hcut : text "Entering Passive Mode (" = text "Entering Passive Mode " ++ [40] := by decide +kernel
    rw [hcut]
    simp [text]
  have hclose : ∀ b ∈ six, (decide (b ≠ 41)) = true := by
    intro b hb
    rw [decide_eq_true_iff]
    intro hbc
    rw [hbc, hsix, mem_intercalate_iff (by decide)] at hb
    obtain ⟨f, hf, hmem⟩ := hb
    obtain ⟨d, _, rfl⟩ := List.mem_map.mp hf
    exact not_mem_ulongText (by decide) _ hmem
  have hopen : ∀ b ∈ text "Entering Passive Mode ", (decide (b ≠ 40)) = true := by decide +kernel
  have hdrop : (40 :: (six ++ text ").")).dropWhile (fun b => decide (b ≠ 40)) = 40 :: (six ++ text ").") := rfl
  have htake : (text ").").takeWhile (fun b => decide (b ≠ 41)) = [] := by decide
  rw [hreply, sixNumbers, List.dropWhile_append_of_pos hopen, hdrop, List.tail_cons,
    List.takeWhile_append_of_pos hclose, htake, List.append_nil]

theorem parsePortArg_eq_some {arg vals : Bytes} (h : parseUcharStringSep chComma 6 arg = some vals)
    {raw : RawAddr 4} (hraw : vals.take 4 = raw.1) : parsePortArg arg =
      some (raw, UInt16.ofNat ((vals.getD 4 0).toNat * 256 + (vals.getD 5 0).toNat)) := by
  unfold parsePortArg
  split
  · rename_i hnone
    rw [h] at hnone
    cases hnone
  · rename_i vals' hsome
    rw [h] at hsome
    obtain rfl := Option.some.inj hsome
    exact congrArg some (Prod.ext (Subtype.ext hraw) rfl)

/-- **The six numbers are an address and the port for the parser of PORT.** -/
theorem parsePortArg_pasvReply (isIpv6 : Bool) (addr : Sockaddr) (port : UInt16) :
    parsePortArg (sixNumbers (pasvReply isIpv6 addr port)) = some (toldAddr isIpv6 addr, port) := by
  have hlen : ((toldAddr isIpv6 addr).1 ++ portBytes port).length = 6 := by
    rw [List.length_append, (toldAddr isIpv6 addr).2]
    rfl
  have hne : (toldAddr isIpv6 addr).1 ++ portBytes port ≠ [] := by
    intro h
    rw [h] at hlen
    exact absurd hlen (by decide)
  have hparse := parseUcharStringSep_intercalate chComma (by decide) (by decide) hne
  rw [hlen, ← sixNumbers_pasvReply] at hparse
  have htake : ((toldAddr isIpv6 addr).1 ++ portBytes port).take 4 = (toldAddr isIpv6 addr).1 :=
    List.take_left' (toldAddr isIpv6 addr).2
  have hdrop : ∀ i, ((toldAddr isIpv6 addr).1 ++ portBytes port).getD (4 + i) 0 = (portBytes port).getD i 0 := by
    intro i
    have hlen4 := (toldAddr isIpv6 addr).2
    rw [List.getD_eq_getElem?_getD, List.getD_eq_getElem?_getD, List.getElem?_append_right (by omega), hlen4,
      Nat.add_sub_cancel_left]
  obtain ⟨hhigh, hlow⟩ := toNat_portBytes port
  have hport : UInt16.ofNat (port.toNat / 256 * 256 + port.toNat % 256) = port := by
    rw [Nat.div_add_mod']
    exact UInt16.ofNat_toNat
  rw [parsePortArg_eq_some hparse htake, hdrop 0, hdrop 1]
  show some (toldAddr isIpv6 addr, UInt16.ofNat
    ((UInt8.ofNat (port.toNat / 256)).toNat * 256 + (UInt8.ofNat (port.toNat % 256)).toNat)) = _
  rw [hhigh, hlow, hport]

/-! ### The run of the command -/

section

variable {T : Tunables} {env : Env}

/-- The IPv4 address of a structure, if it has one. -/
def Sockaddr.v4 : Sockaddr → Option (RawAddr 4)
  | .inet raw _ => some raw
  | .inet6 raw _ => ipv6V4 raw

/-- The address the client is to be told: what is configured, or that of the
control connection. -/
def pasvWanted (T : Tunables) (env : Env) (localAddr : Sockaddr) : Option (RawAddr 4) :=
  match T.pasvAddress with
  | none => localAddr.v4
  | some numeric => env.inetAton numeric

/-- The listener is that of a try that was bound to the port. -/
def ListeningAt (T : Tunables) (env : PrivEnv) (s : PrivState) (port : UInt16) : Prop :=
  ∃ i, env.listenBind i = .ok ∧ env.listen i = .ok ∧ s.sess.pasvListenFd = some (env.listenFd i) ∧
    port = scaledPort T (env.randomPort i)

theorem pasvListenLoop_listening (env : PrivEnv) (left : ℕ) : ∀ (i : ℕ) (s : PrivState),
    wp (pasvListenLoop T env left i) (fun port s' => ListeningAt T env s' port) (fun _ _ => True) s := by
  induction left with
  | zero => exact fun _ _ => trivial
  | succ left ih =>
    intro i s
    obtain ⟨rest, htry, hrest⟩ := pasvListenLoop_try T env left i
    rw [htry]
    simp only [wp_bind, PrivM.emit, setListenFd, wp_modify]
    obtain ⟨hbind, hlisten, rfl⟩ | ⟨call, -, rfl⟩ | rfl := hrest
    · exact ⟨i, hbind, hlisten, rfl, rfl⟩
    · trivial
    · rw [wp_bind]
      refine wp_mono (wp_true _ _) ?_ (fun _ _ _ => trivial)
      intro _ s2 _
      rw [wp_bind]
      exact ih (i + 1) _

theorem vsfPrivopPasvListen_listening (env : PrivEnv) (s : PrivState) :
    wp (vsfPrivopPasvListen T env) (fun port s' => ListeningAt T env s' port) (fun _ _ => True) s := by
  unfold vsfPrivopPasvListen
  rw [wp_bind, wp_get]
  exact wp_branch trivial (pasvListenLoop_listening env 9 0 s)

/-- A reply is said, and what a signal may say besides. -/
theorem vsfCmdioWriteStr_only (code : ℕ) (msg : Bytes) (w : World) :
    wp (vsfCmdioWriteStr T env code msg)
      (fun _ w' => w'.ctl = w.ctl ∧ ∃ es, w'.events = w.events ++ es ∧ .reply code msg ∈ es ∧
        ∀ e ∈ es, e = .reply code msg ∨ SignalReply e) (fun _ _ => True) w := by
  have htalk : Within (Talk fun e => e = .reply code msg ∨ SignalReply e) Halt.Orderly
      (vsfCmdioWriteStr T env code msg) := vsfCmdioWriteStr_talk (Or.inl rfl) fun _ he => Or.inr he
  refine wp_mono (wp_and (vsfCmdioWriteStr_ctl code msg w) (wp_and (vsfCmdioWriteStr_replies code msg w) (htalk w))) ?_
    (fun _ _ _ => trivial)
  intro _ w' h
  obtain ⟨hctl, ⟨es, hes, hmem⟩, htalk⟩ := h
  obtain ⟨es', hes', honly, -⟩ := htalk.events
  have heq : es' = es := List.append_cancel_left (hes'.symm.trans hes)
  exact ⟨hctl, es, hes, hmem, heq ▸ honly⟩

/-- What the structure the address is asked of holds. -/
theorem pasvSockaddr_told {localAddr : Sockaddr} {wanted : RawAddr 4}
    (hwanted : pasvWanted T env localAddr = some wanted) (w : World) :
    wp (pasvSockaddr T env localAddr) (fun addr w' => w' = w ∧ toldAddr localAddr.isIpv6 addr =
      if T.pasvAddress ≠ none ∧ localAddr.isIpv6 = true then ⟨[0, 0, 0, 0], rfl⟩ else wanted)
      (fun _ _ => True) w := by
  unfold pasvSockaddr
  unfold pasvWanted at hwanted
  cases hset : T.pasvAddress with
  | none =>
    rw [hset] at hwanted
    refine ⟨rfl, ?_⟩
    rw [if_neg (fun h => h.1 rfl)]
    cases localAddr with
    | inet raw port => exact Option.some.inj hwanted
    | inet6 raw port =>
      show (Sockaddr.ipv6V4 raw).getD _ = wanted
      rw [show Sockaddr.ipv6V4 raw = some wanted from hwanted]
      rfl
  | some numeric =>
    rw [hset] at hwanted
    have hraw : env.inetAton numeric = some wanted := hwanted
    simp only [hraw]
    refine ⟨rfl, ?_⟩
    cases localAddr with
    | inet raw port => simp [toldAddr, Sockaddr.isIpv6]
    | inet6 raw port => simp [toldAddr, Sockaddr.isIpv6]

/-- What PASV tells, once both ends of earlier tries are given up. -/
theorem enterPassive_told {w : World} {wanted : RawAddr 4}
    (hwanted : pasvWanted T env w.own.sess.localAddr = some wanted) :
    wp (enterPassive T env false) (fun _ w' => ∃ port msg es, w'.events = w.events ++ es ∧
      .reply ftpPasvok msg ∈ es ∧ (∀ e ∈ es, e = .reply ftpPasvok msg ∨ SignalReply e) ∧
      ListeningAt T env.connect (w'.broker T) port ∧
      parsePortArg (sixNumbers msg) =
        some (if T.pasvAddress ≠ none ∧ w.own.sess.localAddr.isIpv6 = true then ⟨[0, 0, 0, 0], rfl⟩
          else wanted, port)) (fun _ _ => True) w := by
  unfold enterPassive
  rw [wp_bind]
  refine wp_mono (wp_and pasvCleanup_spec (pasvCleanup_events w)) ?_ (fun _ _ _ => trivial)
  intro _ w1 hw1
  obtain ⟨hctl1, hes1⟩ := hw1
  rw [wp_bind]
  -- the cleanup of PORT changes one field of the session
  show wp (do
      let port ← onBroker T .listen env.connect (vsfPrivopPasvListen T env.connect)
      let w ← get
      let addr ← pasvSockaddr T env w.own.sess.localAddr
      vsfCmdioWriteStr T env ftpPasvok (pasvReply w.own.sess.localAddr.isIpv6 addr port)) _ _
    { w1 with sess := { w1.sess with portSockaddr := none } }
  set w2 : World := { w1 with sess := { w1.sess with portSockaddr := none } } with hw2
  have hlocal2 : w2.own.sess.localAddr = w.own.sess.localAddr := by
    obtain ⟨fd, hfd⟩ := Ctl.own_setListenFd (T := T) w.ctl none
    have hown : w1.ctl.own = w.ctl.own.withListener fd := by
      rw [hctl1]
      exact hfd
    have haddr := congrArg PrivSess.localAddr hown
    exact haddr
  rw [wp_bind, wp_onBroker]
  refine wp_mono (wp_and (vsfPrivopPasvListen_listening env.connect _) (vsfPrivopPasvListen_sess env.connect _)) ?_
    (fun _ _ _ => trivial)
  intro port p hp
  obtain ⟨hlistening, fd, hfd⟩ := hp
  set w3 : World := w2.setBroker T .listen env.connect p with hw3
  have hlocal3 : w3.own.sess.localAddr = w.own.sess.localAddr := by
    obtain ⟨fd', hfd'⟩ := Ctl.own_setListenFd (T := T) w2.ctl (some fd)
    have hown : w3.ctl.own = w2.ctl.own.withListener fd' := by
      rw [hw3, ctl_setBroker hfd]
      exact hfd'
    have haddr := congrArg PrivSess.localAddr hown
    exact haddr.trans hlocal2
  have hes3 : w3.events = w.events := by
    rw [hw3]
    unfold World.setBroker
    split <;> exact hes1
  have hbroker3 : w3.broker T = p := by
    rw [hw3]
    unfold World.broker World.setBroker
    split <;> rfl
  rw [wp_bind, wp_get, wp_bind, hlocal3]
  refine wp_mono (pasvSockaddr_told hwanted w3) ?_ (fun _ _ _ => trivial)
  intro addr w4 hw4
  obtain ⟨rfl, htold⟩ := hw4
  refine wp_mono (vsfCmdioWriteStr_only ftpPasvok _ w3) ?_ (fun _ _ _ => trivial)
  intro _ w5 hw5
  obtain ⟨hctl5, es, hes, hmem, honly⟩ := hw5
  refine ⟨port, _, es, by rw [hes, hes3], hmem, honly, ?_, ?_⟩
  · obtain ⟨i, hbind, hlisten, hheld, hport⟩ := hlistening
    refine ⟨i, hbind, hlisten, ?_, hport⟩
    rw [← listenFd_ctl, hctl5, listenFd_ctl, hbroker3, hheld]
  · rw [parsePortArg_pasvReply, htold]

theorem signalReply_code {code : ℕ} {msg : Bytes} (h : SignalReply (.reply code msg)) : code ≠ ftpPasvok := by
  have hcodes : ∀ e, SignalReply e → e = .reply code msg → code = ftpBadcmd ∨ code = ftpIdleTimeout := by
    intro e he heq
    cases he with
    | unknown => exact Or.inl (Event.reply.inj heq).1.symm
    | tooLong => exact Or.inl (Event.reply.inj heq).1.symm
    | timeout => exact Or.inr (Event.reply.inj heq).1.symm
    | input | output | debug | abor | dataTimeout => cases heq
  rcases hcodes _ h rfl with hcode | hcode
  · rw [hcode]
    decide
  · rw [hcode]
    decide

/-- **The reply to PASV, read back, is the address to be told and the port that
is listened on, exactly if no address is configured, or the control connection
is of the IPv4 family**, or the configured address is all zeros. -/
theorem pasv_reply_exact (T : Tunables) (env : Env) (arg : Bytes) (w w' : World) (wanted : RawAddr 4)
    (hwanted : pasvWanted T env w.own.sess.localAddr = some wanted)
    (hrun : handlePasv T env false arg w = .ok () w') :
    ∃ port es, w'.events = w.events ++ es ∧ ListeningAt T env.connect (w'.broker T) port ∧
      (∃ msg, .reply ftpPasvok msg ∈ es) ∧
      ∀ msg, .reply ftpPasvok msg ∈ es →
        (parsePortArg (sixNumbers msg) = some (wanted, port) ↔
          T.pasvAddress = none ∨ w.own.sess.localAddr.isIpv6 = false ∨ wanted.1 = [0, 0, 0, 0]) := by
  have hpassive : handlePasv T env false arg w = enterPassive T env false w := by
    unfold handlePasv
    rfl
  have htold := enterPassive_told hwanted
  rw [hpassive] at hrun
  rw [wp, hrun] at htold
  obtain ⟨port, msg, es, hes, hmem, honly, hlistening, hparse⟩ := htold
  refine ⟨port, es, hes, hlistening, ⟨msg, hmem⟩, ?_⟩
  intro msg' hmem'
  have hmsg : msg' = msg := by
    rcases honly _ hmem' with heq | hsignal
    · exact (Event.reply.inj heq).2
    · exact absurd rfl (signalReply_code hsignal)
  rw [hmsg, hparse, Option.some.injEq, Prod.mk.injEq]
  simp only [and_true]
  by_cases hwrong : T.pasvAddress ≠ none ∧ w.own.sess.localAddr.isIpv6 = true
  · rw [if_pos hwrong]
    constructor
    · intro h
      exact Or.inr (Or.inr (congrArg Subtype.val h).symm)
    · intro h
      rcases h with h | h | h
      · exact absurd h hwrong.1
      · exact absurd (h.symm.trans hwrong.2) Bool.false_ne_true
      · exact Subtype.ext h.symm
  · rw [if_neg hwrong]
    simp only [true_iff]
    by_cases hset : T.pasvAddress = none
    · exact Or.inl hset
    · exact Or.inr (Or.inl (Bool.not_eq_true _ ▸ fun h => hwrong ⟨hset, h⟩))

end

/-- A server at 10.0.0.9 that is reached as 9.9.9.9, over an IPv6 socket. -/
def mappedAddr : Sockaddr := .inet6 (Sockaddr.ipv4V6 ⟨[10, 0, 0, 9], rfl⟩) 21

def mappedWorld : World :=
  { habWorld with
    own := { sess := { localAddr := mappedAddr, remoteAddr := mappedAddr } }
    parent := { sess := { localAddr := mappedAddr, remoteAddr := mappedAddr } } }

def nattedServer : Tunables := { habServer with pasvAddress := some (text "9.9.9.9") }

def nattedEnv : Env :=
  { inetAton := fun s => if s = text "9.9.9.9" then some ⟨[9, 9, 9, 9], rfl⟩ else none }

theorem pasv_reply_exact_mapped : ∃ port es,
    (after (handlePasv habServer {} false []) mappedWorld).events = mappedWorld.events ++ es ∧
    ∃ msg, .reply ftpPasvok msg ∈ es ∧
      parsePortArg (sixNumbers msg) = some (⟨[10, 0, 0, 9], rfl⟩, port) := by
  have hrun : handlePasv habServer {} false [] mappedWorld =
      .ok () (after (handlePasv habServer {} false []) mappedWorld) := rfl
  obtain ⟨port, es, hes, _, ⟨msg, hmem⟩, hexact⟩ :=
    pasv_reply_exact habServer {} [] mappedWorld _ ⟨[10, 0, 0, 9], rfl⟩ (by decide) hrun
  exact ⟨port, es, hes, msg, hmem, (hexact msg hmem).mpr (Or.inl rfl)⟩

/-- The address that is configured is not told, nor any other. -/
theorem pasv_tells_zeros : pasvWanted nattedServer nattedEnv mappedAddr = some ⟨[9, 9, 9, 9], rfl⟩ ∧
    (after (handlePasv nattedServer nattedEnv false []) mappedWorld).events =
      [.reply ftpPasvok (text "Entering Passive Mode (0,0,0,0,19,137).")] ∧
    parsePortArg (sixNumbers (text "Entering Passive Mode (0,0,0,0,19,137).")) =
      some (⟨[0, 0, 0, 0], rfl⟩, 5001) := by
  decide +kernel

end CosFtp
