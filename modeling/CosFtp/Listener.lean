/-
# The listener

`vsf_standalone_main` accepts a connection, counts it, forks a child for it and
writes the child's pid down; `handle_sigchld` takes a child that has ended out of the
counts again. The counts are `s_children` and two tables, from pids to addresses
and from addresses to numbers.

A step is what happens between two points where something else can come in: a child
can end at any time, the signal is taken only where
`vsf_sysutil_check_pending_actions` is called, which is behind the accept and, where
the close of the client's socket is interrupted, in that close. All children that are
not reaped are in `Listener.procs`, in the order of their forks, with what their
sessions were told and what `check_limits` made of it.

Key definitions: `Listener`, `Act`, `step`, `Accounted`.
Key theorems: `handleIpCount_tallies`, `dropIpCount_tallies`, `step_accounted`,
`listener_accounts`.
-/
import Mathlib.Data.Fintype.Card
import Mathlib.Data.List.Count
import CosFtp.Hash
import CosFtp.Lib.Run
import CosFtp.Sockaddr

namespace CosFtp

open Run

/-! ### Addresses and counts -/

/-- `vsf_sysutil_sockaddr_get_raw_addr`, with the `s_ipaddr_size` bytes from there on. An IPv4
address has only zeros behind it. -/
def getRawAddr : Sockaddr → RawAddr 16
  | .inet a _ => ⟨a.1 ++ List.replicate 12 0, by rw [List.length_append, a.2]; rfl⟩
  | .inet6 a _ => a

/-- The loop of `hash_ip`. -/
def hashIpLoop : Bytes → ℕ → UInt32 → UInt32
  | [], _, val => val
  | b :: bs, shift, val =>
    hashIpLoop bs (if shift < 8 then 24 else shift - 8) (val ^^^ (b.toUInt32 <<< UInt32.ofNat shift))

def hashIp (buckets : ℕ) (ip : RawAddr 16) : ℕ := (hashIpLoop ip.1 24 0).toNat % buckets

def hashPid (buckets pid : ℕ) : ℕ := pid % buckets

/-- An `unsigned int` one up and one down. -/
def uintSucc (n : ℕ) : ℕ := (n + 1) % 2 ^ 32
def uintPred (n : ℕ) : ℕ := (n + (2 ^ 32 - 1)) % 2 ^ 32

abbrev IpCounts := Hash (RawAddr 16) ℕ

def handleIpCount (ipCount : IpCounts) (ip : RawAddr 16) : Except Halt (ℕ × IpCounts) := do
  match ← ipCount.hashLookupEntry ip with
  | none => return (1, ← ipCount.hashAddEntry ip 1)
  | some count => return (uintSucc count, ← ipCount.hashStore ip (uintSucc count))

/-- `drop_ip_count`; the address is a pointer, and may be NULL. -/
def dropIpCount (ipCount : IpCounts) (pIp : Option (RawAddr 16)) : Except Halt IpCounts := do
  match pIp with
  | none => throw .segv
  | some ip =>
    match ← ipCount.hashLookupEntry ip with
    | none => throw (.bug "IP address missing from hash")
    | some count =>
      if count = 0 then throw (.bug "zero count for IP address")
      else do
        let ipCount ← ipCount.hashStore ip (uintPred count)
        if uintPred count = 0 then ipCount.hashFreeEntry ip else return ipCount

/-! ### Sessions -/

/-- How far a session has come with its limits. -/
inductive Admission where
  | waiting
  | passed
  | refused
  deriving DecidableEq

/-- A child of the listener that is not reaped, with what `vsf_client_launch` tells it. -/
structure Proc where
  pid : ℕ
  addr : RawAddr 16
  numChildren : ℕ
  numThisIp : ℕ
  admission : Admission := .waiting
  exited : Bool := false
  deriving DecidableEq

/-- Why `check_limits` refuses a session. -/
def checkLimits (T : Tunables) (numClients numThisIp : ℕ) (tcpWrapperOk : Bool) : Option String :=
  if 0 < T.maxClients ∧ T.maxClients < numClients then
    some "There are too many connected users, please try later."
  else if 0 < T.maxPerIp ∧ T.maxPerIp < numThisIp then
    some "There are too many connections from your internet address."
  else if !tcpWrapperOk then some "Service not available."
  else none

/-- The session runs `check_limits`. -/
def Proc.checked (T : Tunables) (tcpWrapperOk : Bool) (p : Proc) : Proc :=
  { p with
    admission := if checkLimits T p.numChildren p.numThisIp tcpWrapperOk = none then .passed else .refused }

/-! ### The machine -/

/-- How an accept ends. -/
inductive Accepted where
  | error
  | otherFamily
  | peer (addr : Sockaddr)
  deriving DecidableEq

inductive CloseResult where
  | ok
  | interrupted
  | error
  deriving DecidableEq

/-- Where a check of the pending actions comes back to. -/
inductive Resume where
  | accepted (r : Accepted)
  | closing (newChild : Option ℕ) (addr : RawAddr 16)
  deriving DecidableEq

/-- Where the listener is. -/
inductive Point where
  /-- the head of the loop, before the accept -/
  | head
  | check (k : Resume)
  /-- in `handle_sigchld`, before it asks for the next child -/
  | reaping (k : Resume)
  | launch (r : Accepted)
  /-- behind the counting, with what the child is told -/
  | fork (addr : RawAddr 16) (numChildren numThisIp : ℕ)
  | close (newChild : Option ℕ) (addr : RawAddr 16)
  | stopped (h : Halt)
  deriving DecidableEq

def Resume.point : Resume → Point
  | .accepted r => .launch r
  | .closing newChild addr => .close newChild addr

structure Listener where
  /-- `s_children` -/
  children : ℕ
  ipCount : IpCounts
  pidIp : Hash ℕ (RawAddr 16)
  /-- SIGCHLD has come and has not been handled -/
  pending : Bool
  procs : List Proc
  pc : Point

/-- The listener when it comes to its loop. -/
def Listener.start : Listener where
  children := 0
  ipCount := Hash.hashAlloc 256 hashIp
  pidIp := Hash.hashAlloc 256 hashPid
  pending := false
  procs := []
  pc := .head

/-- What can happen next. -/
inductive Act where
  | accept (r : Accepted)
  | checkPending
  /-- `waitpid` gives this child -/
  | reap (pid : ℕ)
  | reapNone
  | reapError
  | launch
  /-- the pid of the child, or none -/
  | fork (newChild : Option ℕ)
  | close (r : CloseResult)
  /-- a child ends -/
  | exit (pid : ℕ)
  /-- a child comes to its limits -/
  | checkLimits (pid : ℕ) (tcpWrapperOk : Bool)
  /-- SIGCHLD from somewhere else -/
  | sigchld
  deriving DecidableEq

namespace Listener

/-- A step of the listener, which a failed check ends. -/
def orStop (s : Listener) : Except Halt Listener → Listener
  | .ok s' => s'
  | .error h => { s with pc := .stopped h }

/-- The rounds of `handle_sigchld`. -/
def reapOne (s : Listener) (pid : ℕ) : Except Halt Listener := do
  let pIp ← s.pidIp.hashLookupEntry pid
  let ipCount ← dropIpCount s.ipCount pIp
  let pidIp ← s.pidIp.hashFreeEntry pid
  return { s with children := uintPred s.children, ipCount, pidIp }

/-- A new connection is counted. -/
def count (s : Listener) (addr : Sockaddr) : Except Halt Listener := do
  let children := uintSucc s.children
  let (numThisIp, ipCount) ← handleIpCount s.ipCount (getRawAddr addr)
  return { s with children, ipCount, pc := .fork (getRawAddr addr) children numThisIp }

/-- The child is written down, or the count of a fork that has failed taken back. -/
def record (s : Listener) (newChild : Option ℕ) (addr : RawAddr 16) : Except Halt Listener := do
  match newChild with
  | some pid => return { s with pidIp := ← s.pidIp.hashAddEntry pid addr, pc := .head }
  | none =>
    return { s with children := uintPred s.children, ipCount := ← dropIpCount s.ipCount (some addr), pc := .head }

/-- What happens to one child. -/
def update (s : Listener) (pid : ℕ) (f : Proc → Proc) : Listener :=
  { s with procs := s.procs.map fun p => if p.pid = pid then f p else p }

end Listener

open Listener

variable (T : Tunables)

/-- The next state, where the action is possible. -/
def step (s : Listener) : Act → Option Listener
  | .accept r => if s.pc = .head then some { s with pc := .check (.accepted r) } else none
  | .checkPending =>
    match s.pc with
    | .check k =>
      some (if s.pending then { s with pending := false, pc := .reaping k } else { s with pc := k.point })
    | _ => none
  | .reap pid =>
    match s.pc with
    | .reaping _ =>
      if ∃ p ∈ s.procs, p.pid = pid ∧ p.exited then
        some (orStop s (reapOne { s with procs := s.procs.filter (·.pid ≠ pid) } pid))
      else none
    | _ => none
  | .reapNone =>
    match s.pc with
    | .reaping k => if ∀ p ∈ s.procs, ¬ p.exited then some { s with pc := k.point } else none
    | _ => none
  | .reapError =>
    match s.pc with
    | .reaping _ => some { s with pc := .stopped (.die "waitpid") }
    | _ => none
  | .launch =>
    match s.pc with
    | .launch .error => some { s with pc := .head }
    | .launch .otherFamily =>
      some { s with pc := .stopped (.die "can only support ipv4 and ipv6 currently") }
    | .launch (.peer addr) => some (orStop s (count s addr))
    | _ => none
  | .fork newChild =>
    match s.pc, newChild with
    | .fork addr _ _, none => some { s with pc := .close none addr }
    | .fork addr numChildren numThisIp, some pid =>
      -- the system gives no pid that a child still has
      if 0 < pid ∧ pid < 2 ^ 31 ∧ ∀ p ∈ s.procs, p.pid ≠ pid then
        some { s with procs := s.procs ++ [{ pid, addr, numChildren, numThisIp }], pc := .close (some pid) addr }
      else none
    | _, _ => none
  | .close r =>
    match s.pc, r with
    | .close newChild addr, .ok => some (orStop s (record s newChild addr))
    | .close newChild addr, .interrupted => some { s with pc := .check (.closing newChild addr) }
    | .close .., .error => some { s with pc := .stopped (.die "close") }
    | _, _ => none
  | .exit pid =>
    if ∃ p ∈ s.procs, p.pid = pid ∧ ¬ p.exited then
      some { s.update pid fun p => { p with exited := true } with pending := true }
    else none
  | .checkLimits pid tcpWrapperOk =>
    if ∃ p ∈ s.procs, p.pid = pid ∧ ¬ p.exited ∧ p.admission = .waiting then
      some (s.update pid (Proc.checked T tcpWrapperOk))
    else none
  | .sigchld => some { s with pending := true }

/-- What an action does, and where it is possible. -/
inductive Taken (s : Listener) : Act → Listener → Prop where
  | accept (hpc : s.pc = .head) (r : Accepted) : Taken s (.accept r) { s with pc := .check (.accepted r) }
  | handle {k : Resume} (hpc : s.pc = .check k) (hpending : s.pending = true) :
      Taken s .checkPending { s with pending := false, pc := .reaping k }
  | resume {k : Resume} (hpc : s.pc = .check k) (hpending : s.pending = false) :
      Taken s .checkPending { s with pc := k.point }
  | reap {k : Resume} {p : Proc} (hpc : s.pc = .reaping k) (hp : p ∈ s.procs) (hexited : p.exited = true) :
      Taken s (.reap p.pid) (orStop s (reapOne { s with procs := s.procs.filter (·.pid ≠ p.pid) } p.pid))
  | reapNone {k : Resume} (hpc : s.pc = .reaping k) (hnone : ∀ p ∈ s.procs, ¬ p.exited) :
      Taken s .reapNone { s with pc := k.point }
  | reapError {k : Resume} (hpc : s.pc = .reaping k) :
      Taken s .reapError { s with pc := .stopped (.die "waitpid") }
  | acceptFailed (hpc : s.pc = .launch .error) : Taken s .launch { s with pc := .head }
  | otherFamily (hpc : s.pc = .launch .otherFamily) :
      Taken s .launch { s with pc := .stopped (.die "can only support ipv4 and ipv6 currently") }
  | launch {addr : Sockaddr} (hpc : s.pc = .launch (.peer addr)) : Taken s .launch (orStop s (count s addr))
  | forkFailed {addr : RawAddr 16} {m n : ℕ} (hpc : s.pc = .fork addr m n) :
      Taken s (.fork none) { s with pc := .close none addr }
  | fork {addr : RawAddr 16} {m n pid : ℕ} (hpc : s.pc = .fork addr m n) (hpos : 0 < pid) (hlt : pid < 2 ^ 31)
      (hnew : ∀ p ∈ s.procs, p.pid ≠ pid) :
      Taken s (.fork (some pid))
        { s with procs := s.procs ++ [{ pid, addr, numChildren := m, numThisIp := n }], pc := .close (some pid) addr }
  | closed {newChild : Option ℕ} {addr : RawAddr 16} (hpc : s.pc = .close newChild addr) :
      Taken s (.close .ok) (orStop s (record s newChild addr))
  | interrupted {newChild : Option ℕ} {addr : RawAddr 16} (hpc : s.pc = .close newChild addr) :
      Taken s (.close .interrupted) { s with pc := .check (.closing newChild addr) }
  | closeFailed {newChild : Option ℕ} {addr : RawAddr 16} (hpc : s.pc = .close newChild addr) :
      Taken s (.close .error) { s with pc := .stopped (.die "close") }
  | exit {pid : ℕ} (hlive : ∃ p ∈ s.procs, p.pid = pid ∧ ¬ p.exited) :
      Taken s (.exit pid) { s.update pid fun p => { p with exited := true } with pending := true }
  | checkLimits {pid : ℕ} {tcpWrapperOk : Bool}
      (hwaits : ∃ p ∈ s.procs, p.pid = pid ∧ ¬ p.exited ∧ p.admission = .waiting) :
      Taken s (.checkLimits pid tcpWrapperOk) (s.update pid (Proc.checked T tcpWrapperOk))
  | sigchld : Taken s .sigchld { s with pending := true }

/-- **Every step is one of these.** -/
theorem taken_of_step {T : Tunables} {s s' : Listener} {a : Act} (h : step T s a = some s') : Taken T s a s' := by
  cases a with
  | accept r =>
    obtain ⟨hpc, rfl⟩ : s.pc = .head ∧ { s with pc := .check (.accepted r) } = s' := by
      simpa [step] using h
    exact .accept hpc r
  | checkPending =>
    simp only [step] at h
    split at h
    next k hpc =>
      obtain rfl := Option.some.inj h
      by_cases hpending : s.pending = true
      · rw [if_pos hpending]
        exact .handle hpc hpending
      · rw [if_neg hpending]
        exact .resume hpc (Bool.eq_false_iff.mpr hpending)
    next => exact absurd h (by simp)
  | reap pid =>
    simp only [step] at h
    split at h
    next k hpc =>
      split at h
      next hex =>
        obtain ⟨p, hp, rfl, hexited⟩ := hex
        obtain rfl := Option.some.inj h
        exact .reap hpc hp hexited
      next => exact absurd h (by simp)
    next => exact absurd h (by simp)
  | reapNone =>
    simp only [step] at h
    split at h
    next k hpc =>
      split at h
      next hnone =>
        obtain rfl := Option.some.inj h
        exact .reapNone hpc hnone
      next => exact absurd h (by simp)
    next => exact absurd h (by simp)
  | reapError =>
    simp only [step] at h
    split at h
    next k hpc =>
      obtain rfl := Option.some.inj h
      exact .reapError hpc
    next => exact absurd h (by simp)
  | launch =>
    simp only [step] at h
    split at h
    next hpc =>
      obtain rfl := Option.some.inj h
      exact .acceptFailed hpc
    next hpc =>
      obtain rfl := Option.some.inj h
      exact .otherFamily hpc
    next addr hpc =>
      obtain rfl := Option.some.inj h
      exact .launch hpc
    next => exact absurd h (by simp)
  | fork newChild =>
    simp only [step] at h
    split at h
    next addr m n hpc =>
      obtain rfl := Option.some.inj h
      exact .forkFailed hpc
    next addr m n pid hpc =>
      split at h
      next hpid =>
        obtain rfl := Option.some.inj h
        exact .fork hpc hpid.1 hpid.2.1 hpid.2.2
      next => exact absurd h (by simp)
    next => exact absurd h (by simp)
  | close r =>
    simp only [step] at h
    split at h
    next newChild addr hpc =>
      obtain rfl := Option.some.inj h
      exact .closed hpc
    next newChild addr hpc =>
      obtain rfl := Option.some.inj h
      exact .interrupted hpc
    next hpc =>
      obtain rfl := Option.some.inj h
      exact .closeFailed hpc
    next => exact absurd h (by simp)
  | exit pid =>
    simp only [step] at h
    split at h
    next hlive =>
      obtain rfl := Option.some.inj h
      exact .exit hlive
    next => exact absurd h (by simp)
  | checkLimits pid tcpWrapperOk =>
    simp only [step] at h
    split at h
    next hwaits =>
      obtain rfl := Option.some.inj h
      exact .checkLimits hwaits
    next => exact absurd h (by simp)
  | sigchld =>
    obtain rfl := Option.some.inj h
    exact .sigchld

/-! ### What the table of addresses says -/

/-- The table has how often each address is in `l`, and no address that is not. -/
def Tallies (h : IpCounts) (l : List (RawAddr 16)) : Prop :=
  ∃ t, h.Holds t ∧ ∀ a n, (a, n) ∈ t ↔ n = l.count a ∧ 0 < n

variable {h : IpCounts} {l : List (RawAddr 16)} {a : RawAddr 16}

theorem Tallies.of_perm {l' : List (RawAddr 16)} (ht : Tallies h l) (hp : l.Perm l') : Tallies h l' := by
  obtain ⟨t, hh, hmem⟩ := ht
  refine ⟨t, hh, fun a n => ?_⟩
  rw [hmem, hp.count_eq]

theorem Tallies.lookup (ht : Tallies h l) (a : RawAddr 16) :
    h.hashLookupEntry a = .ok (if l.count a = 0 then none else some (l.count a)) := by
  obtain ⟨t, hh, hmem⟩ := ht
  by_cases hc : l.count a = 0
  · rw [if_pos hc]
    apply hh.lookup_none
    intro hkey
    obtain ⟨⟨b, n⟩, hb, heq⟩ := List.mem_map.mp hkey
    subst heq
    obtain ⟨hn, hpos⟩ := (hmem b n).mp hb
    exact absurd (hn.trans hc) (Nat.ne_of_gt hpos)
  · rw [if_neg hc]
    exact hh.lookup ((hmem a _).mpr ⟨rfl, Nat.pos_of_ne_zero hc⟩)

/-- The entry of an address that is in the list, and the entries of the others. -/
theorem Tallies.entry (ht : Tallies h l) (hc : 0 < l.count a) :
    ∃ t, h.Holds ((a, l.count a) :: t) ∧ ∀ b n, (b, n) ∈ t ↔ b ≠ a ∧ n = l.count b ∧ 0 < n := by
  obtain ⟨t, hh, hmem⟩ := ht
  obtain ⟨u, v, rfl⟩ := List.append_of_mem ((hmem a _).mpr ⟨rfl, hc⟩)
  have hh' : h.Holds ((a, l.count a) :: (u ++ v)) := hh.of_perm List.perm_middle
  refine ⟨u ++ v, hh', fun b n => ?_⟩
  have hiff : (b, n) ∈ u ++ (a, l.count a) :: v ↔ (b, n) = (a, l.count a) ∨ (b, n) ∈ u ++ v := by
    rw [List.perm_middle.mem_iff, List.mem_cons]
  rw [← hmem, hiff]
  constructor
  · intro hb
    refine ⟨?_, .inr hb⟩
    rintro rfl
    exact hh'.not_mem (List.mem_map_of_mem hb)
  · rintro ⟨hne, heq | hb⟩
    · exact absurd (congrArg Prod.fst heq) hne
    · exact hb

theorem uintSucc_eq {n : ℕ} (hn : n + 1 < 2 ^ 32) : uintSucc n = n + 1 := Nat.mod_eq_of_lt hn

theorem uintPred_succ {n : ℕ} (hn : n < 2 ^ 32) : uintPred (n + 1) = n := by
  unfold uintPred
  omega

/-- **A new connection is counted at its address.** -/
theorem handleIpCount_tallies (ht : Tallies h l) (hlen : l.length + 1 < 2 ^ 32) (a : RawAddr 16) :
    ∃ h', handleIpCount h a = .ok (l.count a + 1, h') ∧ Tallies h' (a :: l) := by
  have hle : l.count a ≤ l.length := List.count_le_length
  have hother : ∀ b, b ≠ a → (a :: l).count b = l.count b := fun b hb => List.count_cons_of_ne (Ne.symm hb)
  by_cases hc : l.count a = 0
  · have hlook : h.hashLookupEntry a = .ok none := by rw [ht.lookup, if_pos hc]
    obtain ⟨t, hh, hmem⟩ := ht
    have hkey : a ∉ t.map Prod.fst := by
      intro hkey
      obtain ⟨⟨b, n⟩, hb, heq⟩ := List.mem_map.mp hkey
      subst heq
      obtain ⟨hn, hpos⟩ := (hmem b n).mp hb
      exact absurd (hn.trans hc) (Nat.ne_of_gt hpos)
    obtain ⟨h', hadd, hh'⟩ := hh.add hkey 1
    refine ⟨h', ?_, _, hh', fun b n => ?_⟩
    · rw [handleIpCount, hlook]
      show (do let h1 ← h.hashAddEntry a 1; pure (1, h1)) = _
      rw [hadd, hc]
      rfl
    · rw [List.mem_cons, hmem, Prod.mk.injEq]
      by_cases hb : b = a
      · subst hb
        simp only [List.count_cons_self, hc, true_and]
        omega
      · rw [hother b hb]
        simp [hb]
  · have hlook : h.hashLookupEntry a = .ok (some (l.count a)) := by rw [ht.lookup, if_neg hc]
    obtain ⟨t, hh, hmem⟩ := ht.entry (Nat.pos_of_ne_zero hc)
    obtain ⟨h', hstore, hh'⟩ := hh.store (l.count a + 1)
    refine ⟨h', ?_, _, hh', fun b n => ?_⟩
    · rw [handleIpCount, hlook]
      show (do let h1 ← h.hashStore a (uintSucc (l.count a)); pure (uintSucc (l.count a), h1)) = _
      rw [uintSucc_eq (by omega), hstore]
      rfl
    · rw [List.mem_cons, hmem, Prod.mk.injEq]
      by_cases hb : b = a
      · subst hb
        rw [List.count_cons_self]
        simp
        omega
      · rw [hother b hb]
        simp [hb]

/-- **A connection that is counted can be taken out again.** -/
theorem dropIpCount_tallies (ht : Tallies h (a :: l)) (hlen : l.length < 2 ^ 32) :
    ∃ h', dropIpCount h (some a) = .ok h' ∧ Tallies h' l := by
  have hle : l.count a ≤ l.length := List.count_le_length
  have hself : (a :: l).count a = l.count a + 1 := List.count_cons_self
  have hother : ∀ b, b ≠ a → (a :: l).count b = l.count b := fun b hb => List.count_cons_of_ne (Ne.symm hb)
  have hlook : h.hashLookupEntry a = .ok (some (l.count a + 1)) := by
    rw [ht.lookup, hself, if_neg (by omega)]
  obtain ⟨t, hh, hmem⟩ := ht.entry (a := a) (by omega)
  obtain ⟨h1, hstore, hh1⟩ := hh.store (l.count a)
  have hrun : dropIpCount h (some a) =
      if l.count a = 0 then h1.hashFreeEntry a else .ok h1 := by
    rw [dropIpCount, hlook]
    show (if l.count a + 1 = 0 then Except.error (.bug "zero count for IP address") else (do
      let h1 ← h.hashStore a (uintPred (l.count a + 1))
      if uintPred (l.count a + 1) = 0 then h1.hashFreeEntry a else pure h1)) = _
    rw [if_neg (by omega), uintPred_succ (by omega), hstore]
    rfl
  by_cases hc : l.count a = 0
  · obtain ⟨h2, hfree, hh2⟩ := hh1.free
    refine ⟨h2, by rw [hrun, if_pos hc, hfree], t, hh2, fun b n => ?_⟩
    rw [hmem]
    by_cases hb : b = a
    · subst hb
      simp
      omega
    · rw [hother b hb]
      simp [hb]
  · refine ⟨h1, by rw [hrun, if_neg hc], _, hh1, fun b n => ?_⟩
    rw [List.mem_cons, hmem, Prod.mk.injEq]
    by_cases hb : b = a
    · subst hb
      simp
      omega
    · rw [hother b hb]
      simp [hb]

/-! ### The invariant -/

/-- A child as the table of pids has it. -/
def Proc.key (p : Proc) : ℕ × RawAddr 16 := (p.pid, p.addr)

def Listener.keys (s : Listener) : List (ℕ × RawAddr 16) := s.procs.map Proc.key

namespace Point

/-- The connection that is counted without being in the table of pids. -/
def counted : Point → List (RawAddr 16)
  | fork addr _ _ => [addr]
  | close _ addr => [addr]
  | _ => []

/-- The child that is not yet in the table of pids. -/
def unrecorded : Point → List (ℕ × RawAddr 16)
  | close (some pid) addr => [(pid, addr)]
  | _ => []

/-- No close has been interrupted, and no check has failed. -/
def Plain : Point → Prop
  | check (.closing ..) | reaping (.closing ..) | stopped _ => False
  | _ => True

end Point

/-- The addresses of all that is counted. -/
def Listener.addrs (s : Listener) : List (RawAddr 16) := s.pc.counted ++ s.pidIp.entries.map Prod.snd

/-- The counts are those of the children, but for the one that is being launched. -/
structure Accounted (s : Listener) : Prop where
  pids : ∀ k ∈ s.keys, k.1 < 2 ^ 31
  nodup : (s.keys.map Prod.fst).Nodup
  wf : s.pidIp.WF
  procs : s.keys.Perm (s.pc.unrecorded ++ s.pidIp.entries)
  children : s.children = s.addrs.length
  tally : Tallies s.ipCount s.addrs
  plain : s.pc.Plain

/-- A stop that has nothing to do with the counts. -/
def Tolerated (h : Halt) : Prop :=
  h = .die "close" ∨ h = .die "waitpid" ∨ h = .die "can only support ipv4 and ipv6 currently"

/-- The listener has its counts right, or has stopped for another reason. -/
def Sound (s : Listener) : Prop := Accounted s ∨ ∃ h, s.pc = .stopped h ∧ Tolerated h

variable {T : Tunables} {s : Listener}

theorem start_accounted : Accounted Listener.start := by
  have hip : Listener.start.ipCount.Holds [] := Hash.hashAlloc_holds fun ip => Nat.mod_lt _ (by decide)
  have hpid : Listener.start.pidIp.Holds [] := Hash.hashAlloc_holds fun pid => Nat.mod_lt _ (by decide)
  have hnil : Listener.start.pidIp.entries = [] := hpid.perm.eq_nil
  have haddrs : Listener.start.addrs = [] := by
    rw [Listener.addrs, hnil]
    rfl
  refine ⟨by simp [keys, Listener.start], by simp [keys, Listener.start], hpid.wf, ?_, ?_, ?_, trivial⟩
  · rw [hnil]
    exact List.Perm.refl []
  · rw [haddrs]
    rfl
  · rw [haddrs]
    exact ⟨[], hip, fun a n => by simp⟩

theorem Accounted.holds (hs : Accounted s) : s.pidIp.Holds s.pidIp.entries := ⟨hs.wf, List.Perm.refl _⟩

/-- There are no more children than pids. -/
theorem Accounted.length_lt (hs : Accounted s) : s.pidIp.entries.length ≤ 2 ^ 31 := by
  have hle : s.pidIp.entries.length ≤ s.keys.length := by
    rw [hs.procs.length_eq, List.length_append]
    omega
  have hcard : s.keys.length ≤ 2 ^ 31 := by
    have hsub : (s.keys.map Prod.fst).toFinset ⊆ Finset.range (2 ^ 31) := by
      intro pid hpid
      obtain ⟨k, hk, rfl⟩ := List.mem_map.mp (List.mem_toFinset.mp hpid)
      exact Finset.mem_range.mpr (hs.pids k hk)
    have := Finset.card_le_card hsub
    rwa [List.toFinset_card_of_nodup hs.nodup, Finset.card_range, List.length_map] at this
  omega

/-- Another point with the same counts. -/
theorem Accounted.goto (hs : Accounted s) {s' : Listener} (hkeys : s'.keys = s.keys)
    (hpid : s'.pidIp = s.pidIp) (hip : s'.ipCount = s.ipCount) (hch : s'.children = s.children)
    (hcounted : s'.pc.counted = s.pc.counted) (hunrec : s'.pc.unrecorded = s.pc.unrecorded)
    (hplain : s'.pc.Plain) : Accounted s' := by
  have haddrs : s'.addrs = s.addrs := by rw [Listener.addrs, hcounted, hpid, Listener.addrs]
  refine ⟨?_, ?_, hpid ▸ hs.wf, ?_, ?_, ?_, hplain⟩
  · rw [hkeys]
    exact hs.pids
  · rw [hkeys]
    exact hs.nodup
  · rw [hkeys, hunrec, hpid]
    exact hs.procs
  · rw [hch, haddrs]
    exact hs.children
  · rw [hip, haddrs]
    exact hs.tally

theorem keys_update (s : Listener) (pid : ℕ) {f : Proc → Proc} (hf : ∀ p, (f p).key = p.key) :
    (s.update pid f).keys = s.keys := by
  show (s.procs.map _).map Proc.key = s.procs.map Proc.key
  rw [List.map_map]
  apply List.map_congr_left
  intro p _
  show (if p.pid = pid then f p else p).key = p.key
  split
  · exact hf p
  · rfl

/-! ### The steps that count -/

/-- **A child that has ended is found in both tables**, and both forget it. -/
theorem reapOne_accounted (hs : Accounted s) {k : Resume} (hpc : s.pc = .reaping k) {p : Proc}
    (hp : p ∈ s.procs) :
    ∃ s', reapOne { s with procs := s.procs.filter (·.pid ≠ p.pid) } p.pid = .ok s' ∧ Accounted s' := by
  have hunrec : s.pc.unrecorded = [] := by rw [hpc]; rfl
  have hcounted : s.pc.counted = [] := by rw [hpc]; rfl
  have haddrs : s.addrs = s.pidIp.entries.map Prod.snd := by rw [Listener.addrs, hcounted, List.nil_append]
  have hperm : s.keys.Perm s.pidIp.entries := by simpa [hunrec] using hs.procs
  have hmem : (p.pid, p.addr) ∈ s.pidIp.entries := hperm.mem_iff.mp (List.mem_map_of_mem hp)
  obtain ⟨u, v, huv⟩ := List.append_of_mem hmem
  have hsplit : s.pidIp.entries.Perm ((p.pid, p.addr) :: (u ++ v)) := huv ▸ List.perm_middle
  have hholds : s.pidIp.Holds ((p.pid, p.addr) :: (u ++ v)) := hs.holds.of_perm hsplit
  have hlook := hholds.lookup (List.mem_cons_self)
  obtain ⟨pidIp, hfree, hpid⟩ := hholds.free
  have htally : Tallies s.ipCount (p.addr :: (u ++ v).map Prod.snd) :=
    hs.tally.of_perm (haddrs ▸ hsplit.map Prod.snd)
  have hlen : s.pidIp.entries.length = (u ++ v).length + 1 := hsplit.length_eq
  have hbound := hs.length_lt
  obtain ⟨ipCount, hdrop, hip⟩ := dropIpCount_tallies htally (by rw [List.length_map]; omega)
  refine ⟨{ s with procs := s.procs.filter (·.pid ≠ p.pid), children := uintPred s.children, ipCount, pidIp },
    ?_, ?_⟩
  · rw [reapOne, hlook]
    show (do let ipCount ← dropIpCount s.ipCount (some p.addr); _) = _
    rw [hdrop]
    show (do let pidIp ← s.pidIp.hashFreeEntry p.pid; _) = _
    rw [hfree]
    rfl
  -- the others' keys
  have hkeys : ((s.procs.filter (·.pid ≠ p.pid)).map Proc.key) = s.keys.filter (·.1 ≠ p.pid) := by
    rw [keys, List.filter_map]
    rfl
  have hrest : (s.keys.filter (·.1 ≠ p.pid)).Perm (u ++ v) := by
    have hself : (u ++ v).filter (·.1 ≠ p.pid) = u ++ v := by
      rw [List.filter_eq_self]
      intro e he
      have hne : e.1 ≠ p.pid := fun heq => hholds.not_mem (heq ▸ List.mem_map_of_mem he)
      simpa using hne
    have := (hperm.trans hsplit).filter (·.1 ≠ p.pid)
    rwa [List.filter_cons_of_neg (by simp), hself] at this
  have hsub : (s.keys.filter (·.1 ≠ p.pid)).Sublist s.keys := List.filter_sublist
  have hnew : (u ++ v).Perm pidIp.entries := hpid.perm.symm
  have haddrs' : ((u ++ v).map Prod.snd).Perm (pidIp.entries.map Prod.snd) := hnew.map _
  refine ⟨?_, ?_, hpid.wf, ?_, ?_, ?_, hs.plain⟩
  · show ∀ k ∈ (s.procs.filter (·.pid ≠ p.pid)).map Proc.key, k.1 < 2 ^ 31
    rw [hkeys]
    exact fun k hk => hs.pids k (hsub.subset hk)
  · show (((s.procs.filter (·.pid ≠ p.pid)).map Proc.key).map Prod.fst).Nodup
    rw [hkeys]
    exact hs.nodup.sublist (hsub.map Prod.fst)
  · show ((s.procs.filter (·.pid ≠ p.pid)).map Proc.key).Perm (s.pc.unrecorded ++ pidIp.entries)
    rw [hkeys, hunrec]
    exact hrest.trans hnew
  · show uintPred s.children = (s.pc.counted ++ pidIp.entries.map Prod.snd).length
    rw [hcounted, List.nil_append, ← haddrs'.length_eq, List.length_map, hs.children, haddrs,
      List.length_map, hlen]
    exact uintPred_succ (by omega)
  · show Tallies ipCount (s.pc.counted ++ pidIp.entries.map Prod.snd)
    rw [hcounted, List.nil_append]
    exact hip.of_perm haddrs'

/-- **A new connection is counted**, and the child will be told the counts with itself in them. -/
theorem count_accounted (hs : Accounted s) {r : Accepted} (hpc : s.pc = .launch r) (addr : Sockaddr) :
    ∃ s', count s addr = .ok s' ∧ Accounted s' ∧ s'.procs = s.procs ∧
      s'.pc = .fork (getRawAddr addr) (s.pidIp.entries.length + 1)
        ((s.pidIp.entries.map Prod.snd).count (getRawAddr addr) + 1) := by
  have hunrec : s.pc.unrecorded = [] := by rw [hpc]; rfl
  have hcounted : s.pc.counted = [] := by rw [hpc]; rfl
  have haddrs : s.addrs = s.pidIp.entries.map Prod.snd := by rw [Listener.addrs, hcounted, List.nil_append]
  have hbound := hs.length_lt
  have hchildren : uintSucc s.children = s.pidIp.entries.length + 1 := by
    rw [hs.children, haddrs, List.length_map]
    exact uintSucc_eq (by omega)
  obtain ⟨ipCount, hcount, htally⟩ := handleIpCount_tallies (haddrs ▸ hs.tally)
    (by rw [List.length_map]; omega) (getRawAddr addr)
  refine ⟨{ s with children := s.pidIp.entries.length + 1, ipCount, pc := .fork _ _ _ }, ?_, ?_, rfl, rfl⟩
  · rw [count, hcount, hchildren]
    rfl
  · refine ⟨hs.pids, hs.nodup, hs.wf, ?_, ?_, htally, trivial⟩
    · show s.keys.Perm ([] ++ s.pidIp.entries)
      exact hunrec ▸ hs.procs
    · simp [Listener.addrs, Point.counted]

/-- The new child joins those that are not reaped. -/
theorem fork_accounted (hs : Accounted s) {addr : RawAddr 16} {m n : ℕ} (hpc : s.pc = .fork addr m n)
    {p : Proc} (haddr : p.addr = addr) (hlt : p.pid < 2 ^ 31) (hnew : ∀ q ∈ s.procs, q.pid ≠ p.pid) :
    Accounted { s with procs := s.procs ++ [p], pc := .close (some p.pid) addr } := by
  have hunrec : s.pc.unrecorded = [] := by rw [hpc]; rfl
  have hcounted : s.pc.counted = [addr] := by rw [hpc]; rfl
  have haddrs : s.addrs = [addr] ++ s.pidIp.entries.map Prod.snd := by rw [Listener.addrs, hcounted]
  have hkeys : (s.procs ++ [p]).map Proc.key = s.keys ++ [(p.pid, addr)] := by
    rw [List.map_append, keys, ← haddr]
    rfl
  refine ⟨?_, ?_, hs.wf, ?_, ?_, ?_, trivial⟩
  · show ∀ k ∈ (s.procs ++ [p]).map Proc.key, k.1 < 2 ^ 31
    rw [hkeys]
    intro k hk
    rcases List.mem_append.mp hk with hk | hk
    · exact hs.pids k hk
    · rw [List.mem_singleton.mp hk]
      exact hlt
  · show (((s.procs ++ [p]).map Proc.key).map Prod.fst).Nodup
    rw [hkeys, List.map_append]
    apply List.Nodup.append hs.nodup (List.nodup_singleton _)
    intro pid hpid hlast
    obtain ⟨k, hk, rfl⟩ := List.mem_map.mp hpid
    obtain ⟨q, hq, rfl⟩ := List.mem_map.mp hk
    exact hnew q hq (List.mem_singleton.mp hlast)
  · show ((s.procs ++ [p]).map Proc.key).Perm ([(p.pid, addr)] ++ s.pidIp.entries)
    rw [hkeys]
    have hperm : s.keys.Perm s.pidIp.entries := by simpa [hunrec] using hs.procs
    exact (hperm.append_right _).trans List.perm_append_comm
  · exact hs.children.trans (congrArg List.length haddrs)
  · show Tallies s.ipCount ([addr] ++ s.pidIp.entries.map Prod.snd)
    rw [← haddrs]
    exact hs.tally

/-- **The child is written down, or what a failed fork has left is taken back.** -/
theorem record_accounted (hs : Accounted s) {newChild : Option ℕ} {addr : RawAddr 16}
    (hpc : s.pc = .close newChild addr) :
    ∃ s', record s newChild addr = .ok s' ∧ Accounted s' ∧ s'.procs = s.procs ∧ s'.pc = .head := by
  have hcounted : s.pc.counted = [addr] := by rw [hpc]; rfl
  have haddrs : s.addrs = addr :: s.pidIp.entries.map Prod.snd := by rw [Listener.addrs, hcounted]; rfl
  have hbound := hs.length_lt
  cases newChild with
  | some pid =>
    have hperm : s.keys.Perm ((pid, addr) :: s.pidIp.entries) := by
      have := hs.procs
      rwa [hpc] at this
    have hfresh : pid ∉ s.pidIp.entries.map Prod.fst :=
      (List.nodup_cons.mp ((hperm.map Prod.fst).nodup_iff.mp hs.nodup)).1
    obtain ⟨pidIp, hadd, hpid⟩ := hs.holds.add hfresh addr
    have hnew : (addr :: s.pidIp.entries.map Prod.snd).Perm (pidIp.entries.map Prod.snd) :=
      (hpid.perm.map Prod.snd).symm
    refine ⟨{ s with pidIp, pc := .head }, ?_, ⟨hs.pids, hs.nodup, hpid.wf, ?_, ?_, ?_, trivial⟩, rfl, rfl⟩
    · show (do let pidIp ← s.pidIp.hashAddEntry pid addr; _) = _
      rw [hadd]
      rfl
    · exact hperm.trans hpid.perm.symm
    · show s.children = (pidIp.entries.map Prod.snd).length
      rw [hs.children, haddrs, hnew.length_eq]
    · show Tallies s.ipCount (pidIp.entries.map Prod.snd)
      exact (haddrs ▸ hs.tally).of_perm hnew
  | none =>
    have hperm : s.keys.Perm s.pidIp.entries := by
      have := hs.procs
      rwa [hpc] at this
    have htally : Tallies s.ipCount (addr :: s.pidIp.entries.map Prod.snd) := haddrs ▸ hs.tally
    have hlen : (s.pidIp.entries.map Prod.snd).length < 2 ^ 32 := by
      rw [List.length_map]
      omega
    obtain ⟨ipCount, hdrop, hip⟩ := dropIpCount_tallies htally hlen
    have hchildren : uintPred s.children = (s.pidIp.entries.map Prod.snd).length := by
      rw [hs.children, haddrs, List.length_cons]
      exact uintPred_succ hlen
    refine ⟨{ s with children := (s.pidIp.entries.map Prod.snd).length, ipCount, pc := .head }, ?_,
      ⟨hs.pids, hs.nodup, hs.wf, hperm, rfl, hip, trivial⟩, rfl, rfl⟩
    simp only [record, hdrop, hchildren]
    rfl

/-! ### Whole runs -/

/-- **A step of a listener whose closes are not interrupted keeps the counts right.** -/
theorem step_accounted {a : Act} {s' : Listener} (hs : Accounted s) (ha : a ≠ .close .interrupted)
    (h : step T s a = some s') : Sound s' := by
  have hplain := hs.plain
  -- no check comes back to a close
  have hpoint : ∀ {k : Resume}, (s.pc = .check k ∨ s.pc = .reaping k) → ∃ r, k = .accepted r := by
    intro k hpc
    cases k with
    | accepted r => exact ⟨r, rfl⟩
    | closing newChild addr =>
      rcases hpc with hpc | hpc
      · rw [hpc] at hplain
        exact hplain.elim
      · rw [hpc] at hplain
        exact hplain.elim
  cases taken_of_step h with
  | accept hpc r => exact .inl (hs.goto rfl rfl rfl rfl (by rw [hpc]; rfl) (by rw [hpc]; rfl) trivial)
  | handle hpc _ =>
    obtain ⟨r, rfl⟩ := hpoint (.inl hpc)
    exact .inl (hs.goto rfl rfl rfl rfl (by rw [hpc]; rfl) (by rw [hpc]; rfl) trivial)
  | resume hpc _ =>
    obtain ⟨r, rfl⟩ := hpoint (.inl hpc)
    exact .inl (hs.goto rfl rfl rfl rfl (by rw [hpc]; rfl) (by rw [hpc]; rfl) trivial)
  | reap hpc hp _ =>
    obtain ⟨s1, hrun, hs1⟩ := reapOne_accounted hs hpc hp
    rw [hrun]
    exact .inl hs1
  | reapNone hpc _ =>
    obtain ⟨r, rfl⟩ := hpoint (.inr hpc)
    exact .inl (hs.goto rfl rfl rfl rfl (by rw [hpc]; rfl) (by rw [hpc]; rfl) trivial)
  | reapError _ => exact .inr ⟨_, rfl, .inr (.inl rfl)⟩
  | acceptFailed hpc => exact .inl (hs.goto rfl rfl rfl rfl (by rw [hpc]; rfl) (by rw [hpc]; rfl) trivial)
  | otherFamily _ => exact .inr ⟨_, rfl, .inr (.inr rfl)⟩
  | @launch addr hpc =>
    obtain ⟨s1, hrun, hs1, -⟩ := count_accounted hs hpc addr
    rw [hrun]
    exact .inl hs1
  | forkFailed hpc => exact .inl (hs.goto rfl rfl rfl rfl (by rw [hpc]; rfl) (by rw [hpc]; rfl) trivial)
  | @fork addr m n pid hpc _ hlt hnew =>
    exact .inl (fork_accounted hs (p := { pid, addr, numChildren := m, numThisIp := n }) hpc rfl hlt hnew)
  | closed hpc =>
    obtain ⟨s1, hrun, hs1, -⟩ := record_accounted hs hpc
    rw [hrun]
    exact .inl hs1
  | interrupted _ => exact absurd rfl ha
  | closeFailed _ => exact .inr ⟨_, rfl, .inl rfl⟩
  | exit _ => exact .inl (hs.goto (keys_update s _ fun _ => rfl) rfl rfl rfl rfl rfl hplain)
  | checkLimits _ => exact .inl (hs.goto (keys_update s _ fun _ => rfl) rfl rfl rfl rfl rfl hplain)
  | sigchld => exact .inl (hs.goto rfl rfl rfl rfl rfl rfl hplain)

theorem step_sound {a : Act} {s' : Listener} (hs : Sound s) (ha : a ≠ .close .interrupted)
    (h : step T s a = some s') : Sound s' := by
  rcases hs with hs | ⟨e, hpc, he⟩
  · exact step_accounted hs ha h
  · -- a listener that has stopped takes no step of its own
    have hstay : s'.pc = s.pc := by
      cases taken_of_step h
      case exit | checkLimits | sigchld => rfl
      all_goals simp_all
    exact .inr ⟨e, hstay.trans hpc, he⟩

theorem run_sound {acts : List Act} (hclose : ∀ a ∈ acts, a ≠ .close .interrupted)
    (hrun : run (step T) Listener.start acts = some s) : Sound s :=
  run_keeps (fun _ _ _ hs ha h => step_sound hs ha h) acts _ _ (.inl start_accounted)
    (along_of_mem acts hclose _) hrun

/-- **The listener's counts are right at the head of its loop**, whatever connections come, forks
fail, children end and are reaped; and none of the checks on its tables ever stops it. -/
theorem listener_accounts (T : Tunables) (acts : List Act) (s : Listener)
    (hclose : ∀ a ∈ acts, a ≠ .close .interrupted) (hrun : run (step T) Listener.start acts = some s) :
    (s.pc = .head →
      s.children = s.procs.length ∧ s.children = s.pidIp.entries.length ∧
      ∀ addr, s.ipCount.hashLookupEntry addr =
        .ok (if (s.pidIp.entries.filter (·.2 = addr)).length = 0 then none
          else some (s.pidIp.entries.filter (·.2 = addr)).length)) ∧
    ∀ h, s.pc = .stopped h → Tolerated h := by
  have hsound : Sound s := run_sound hclose hrun
  constructor
  · intro hpc
    rcases hsound with hs | ⟨h, hstop, -⟩
    · have hkeys : s.keys.Perm s.pidIp.entries := by simpa [hpc, Point.unrecorded] using hs.procs
      have haddrs : s.addrs = s.pidIp.entries.map Prod.snd := by simp [Listener.addrs, hpc, Point.counted]
      have hchildren : s.children = s.pidIp.entries.length := by
        rw [hs.children, haddrs, List.length_map]
      have hprocs : s.procs.length = s.pidIp.entries.length := by
        rw [← hkeys.length_eq, keys, List.length_map]
      have hcount : ∀ addr, s.addrs.count addr = (s.pidIp.entries.filter (·.2 = addr)).length := by
        intro addr
        rw [haddrs, List.count_eq_countP, List.countP_map, ← List.countP_eq_length_filter]
        apply List.countP_congr
        intro e _
        show (e.2 == addr) = true ↔ decide (e.2 = addr) = true
        rw [beq_iff_eq, decide_eq_true_iff]
      refine ⟨hchildren.trans hprocs.symm, hchildren, fun addr => ?_⟩
      rw [hs.tally.lookup, hcount]
    · rw [hpc] at hstop
      exact absurd hstop (by simp)
  · intro h hpc
    rcases hsound with hs | ⟨h', hstop, htol⟩
    · have hplain := hs.plain
      rw [hpc] at hplain
      exact hplain.elim
    · rw [hpc] at hstop
      exact Point.stopped.inj hstop ▸ htol

/-- A child that ends before its pid is written down, and is reaped behind the next accept. -/
def earlyExit : List Act :=
  [.accept (.peer (host10 1 4000)), .checkPending, .launch, .fork (some 7), .exit 7,
    .close .ok, .accept .error, .checkPending, .reap 7, .reapNone, .launch]

theorem listener_accounts_early_exit :
    ∃ s, run (step {}) Listener.start earlyExit = some s ∧ s.pc = .head ∧ s.children = s.procs.length := by
  have hpc : (run (step {}) Listener.start earlyExit).map Listener.pc = some .head := by decide +kernel
  obtain ⟨s, hrun, hhead⟩ := Option.map_eq_some_iff.mp hpc
  exact ⟨s, hrun, hhead, ((listener_accounts {} earlyExit s (by decide) hrun).1 hhead).1⟩

end CosFtp
