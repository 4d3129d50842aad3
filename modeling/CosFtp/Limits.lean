/-
# The limits on sessions

The listener tells each child how many children there are and how many of its own
address, the child itself with them, and the child compares these numbers with
`max_clients` and `max_per_ip` when it comes to `check_limits`. By then others have
come and gone; what stays true is that a child has been told no less than the number
of the older children that are still there (`Informed`), since every child that is not
reaped was counted when a younger one was forked. So the youngest session that has
passed was told of all the others that have.

Key definitions: `Informed`, `Launched`.
Key theorems: `told_passed`, `step_launched`, `limits_hold`.
-/
import CosFtp.Listener

namespace CosFtp

open Run Listener

/-- Each child of a list, youngest first, has been told of all the older ones and of itself. -/
def Informed : List Proc → Prop
  | [] => True
  | p :: older =>
    (older.length + 1 ≤ p.numChildren ∧ (older.filter (·.addr = p.addr)).length + 1 ≤ p.numThisIp) ∧
      Informed older

/-- A session that has passed was within the limits it was told. -/
def WithinLimits (T : Tunables) (p : Proc) : Prop :=
  p.admission = .passed →
    (0 < T.maxClients → p.numChildren ≤ T.maxClients) ∧ (0 < T.maxPerIp → p.numThisIp ≤ T.maxPerIp)

/-- What the sessions that are there have been told, and what the next one will be. -/
structure Launched (T : Tunables) (s : Listener) : Prop where
  told : Informed s.procs.reverse
  within : ∀ p ∈ s.procs, WithinLimits T p
  next : ∀ addr numChildren numThisIp, s.pc = .fork addr numChildren numThisIp →
    s.procs.length + 1 ≤ numChildren ∧ (s.procs.filter (·.addr = addr)).length + 1 ≤ numThisIp

variable {T : Tunables} {s s' : Listener}

/-! ### Lists of children -/

/-- Fewer older children are told of as well. -/
theorem Informed.filter {l : List Proc} (q : Proc → Bool) (h : Informed l) : Informed (l.filter q) := by
  induction l with
  | nil => exact trivial
  | cons p older ih =>
    obtain ⟨⟨hall, haddr⟩, hrest⟩ := h
    by_cases hq : q p
    · rw [List.filter_cons_of_pos hq]
      have hlen : (older.filter q).length ≤ older.length := List.length_filter_le q older
      have hsame : ((older.filter q).filter (·.addr = p.addr)).length ≤
          (older.filter (·.addr = p.addr)).length :=
        (List.filter_sublist.filter _).length_le
      exact ⟨⟨by omega, by omega⟩, ih hrest⟩
    · rw [List.filter_cons_of_neg hq]
      exact ih hrest

/-- A child goes on with its session; what it was told does not change. -/
theorem Informed.map {l : List Proc} {f : Proc → Proc} (hf : ∀ p, (f p).addr = p.addr ∧
    (f p).numChildren = p.numChildren ∧ (f p).numThisIp = p.numThisIp) (h : Informed l) : Informed (l.map f) := by
  induction l with
  | nil => exact trivial
  | cons p older ih =>
    obtain ⟨⟨hall, haddr⟩, hrest⟩ := h
    obtain ⟨hfa, hfn, hft⟩ := hf p
    have hcount : ((older.map f).filter (·.addr = (f p).addr)).length =
        (older.filter (·.addr = p.addr)).length := by
      rw [hfa, List.filter_map, List.length_map]
      congr 1
      apply List.filter_congr
      intro q _
      simp [(hf q).1]
    refine ⟨⟨?_, ?_⟩, ih hrest⟩
    · rw [List.length_map, hfn]
      exact hall
    · rw [hcount, hft]
      exact haddr

/-- **The youngest session that has passed was told of all the others.** -/
theorem told_passed {l : List Proc} (h : Informed l) (hl : ∀ p ∈ l, WithinLimits T p) :
    (0 < T.maxClients → (l.filter fun p => p.admission = .passed).length ≤ T.maxClients) ∧
    (0 < T.maxPerIp → ∀ addr,
      (l.filter fun p => p.addr = addr ∧ p.admission = .passed).length ≤ T.maxPerIp) := by
  induction l with
  | nil => simp
  | cons p older ih =>
    obtain ⟨⟨hall, haddr⟩, hrest⟩ := h
    obtain ⟨hp, holder⟩ := List.forall_mem_cons.mp hl
    obtain ⟨ihall, ihaddr⟩ := ih hrest holder
    constructor
    · intro hpos
      by_cases hpass : p.admission = .passed
      · have hmax := (hp hpass).1 hpos
        have hle := List.length_filter_le (fun q : Proc => q.admission = .passed) older
        rw [List.filter_cons_of_pos (by simpa using hpass), List.length_cons]
        omega
      · rw [List.filter_cons_of_neg (by simpa using hpass)]
        exact ihall hpos
    · intro hpos addr
      by_cases hpass : p.addr = addr ∧ p.admission = .passed
      · obtain ⟨rfl, hpass'⟩ := hpass
        have hmax := (hp hpass').2 hpos
        have hle : (older.filter fun q => q.addr = p.addr ∧ q.admission = .passed).length ≤
            (older.filter (·.addr = p.addr)).length := by
          apply List.Sublist.length_le
          apply List.monotone_filter_right
          intro q hq
          simp only [decide_eq_true_eq] at hq ⊢
          exact hq.1
        rw [List.filter_cons_of_pos (by simpa using hpass'), List.length_cons]
        omega
      · rw [List.filter_cons_of_neg (by simpa using hpass)]
        exact ihaddr hpos addr

theorem withinLimits_checked (T : Tunables) (tcpWrapperOk : Bool) (p : Proc) :
    WithinLimits T (p.checked T tcpWrapperOk) := by
  intro hpass
  have hnone : checkLimits T p.numChildren p.numThisIp tcpWrapperOk = none := by
    by_contra hne
    simp [Proc.checked, hne] at hpass
  unfold checkLimits at hnone
  split at hnone
  next => exact absurd hnone (by simp)
  next hclients =>
    split at hnone
    next => exact absurd hnone (by simp)
    next hip =>
      exact ⟨fun h => Nat.le_of_not_lt fun hlt => hclients ⟨h, hlt⟩,
        fun h => Nat.le_of_not_lt fun hlt => hip ⟨h, hlt⟩⟩

/-! ### The listener -/

theorem Launched.goto (hl : Launched T s) (hprocs : s'.procs = s.procs) (hpc : ∀ addr m n, s'.pc ≠ .fork addr m n) :
    Launched T s' := by
  refine ⟨?_, ?_, fun addr m n h => absurd h (hpc addr m n)⟩
  · rw [hprocs]
    exact hl.told
  · rw [hprocs]
    exact hl.within

/-- What a child does leaves what it was told. -/
theorem Launched.update (hl : Launched T s) (pid : ℕ) {f : Proc → Proc}
    (hf : ∀ p, (f p).addr = p.addr ∧ (f p).numChildren = p.numChildren ∧ (f p).numThisIp = p.numThisIp)
    (hwithin : ∀ p, WithinLimits T p → WithinLimits T (f p)) : Launched T (s.update pid f) := by
  have hg : ∀ p : Proc, (if p.pid = pid then f p else p).addr = p.addr ∧
      (if p.pid = pid then f p else p).numChildren = p.numChildren ∧
      (if p.pid = pid then f p else p).numThisIp = p.numThisIp := by
    intro p
    split
    · exact hf p
    · exact ⟨rfl, rfl, rfl⟩
  refine ⟨?_, ?_, ?_⟩
  · show Informed (s.procs.map fun p => if p.pid = pid then f p else p).reverse
    rw [← List.map_reverse]
    exact hl.told.map hg
  · intro p hp
    obtain ⟨q, hq, rfl⟩ := List.mem_map.mp hp
    show WithinLimits T (if q.pid = pid then f q else q)
    split
    · exact hwithin q (hl.within q hq)
    · exact hl.within q hq
  · intro addr m n hpc
    obtain ⟨hall, haddr⟩ := hl.next addr m n hpc
    have hcount : ((s.procs.map fun p => if p.pid = pid then f p else p).filter (·.addr = addr)).length =
        (s.procs.filter (·.addr = addr)).length := by
      rw [List.filter_map, List.length_map]
      congr 1
      apply List.filter_congr
      intro q _
      show decide ((if q.pid = pid then f q else q).addr = addr) = _
      rw [(hg q).1]
    refine ⟨?_, ?_⟩
    · show (s.procs.map fun p => if p.pid = pid then f p else p).length + 1 ≤ m
      rw [List.length_map]
      exact hall
    · show ((s.procs.map fun p => if p.pid = pid then f p else p).filter (·.addr = addr)).length + 1 ≤ n
      rw [hcount]
      exact haddr

/-- The next child is told of all that are not reaped. -/
theorem count_launched (hs : Accounted s) (hl : Launched T s) {r : Accepted} (hpc : s.pc = .launch r)
    (addr : Sockaddr) : ∃ s1, count s addr = .ok s1 ∧ Launched T s1 := by
  obtain ⟨s1, hrun, -, hprocs, hfork⟩ := count_accounted hs hpc addr
  have hkeys : s.keys.Perm s.pidIp.entries := by simpa [hpc, Point.unrecorded] using hs.procs
  have hlen : s.procs.length = s.pidIp.entries.length := by
    rw [← hkeys.length_eq, keys, List.length_map]
  have hcount : ∀ a, (s.procs.filter (·.addr = a)).length = (s.pidIp.entries.map Prod.snd).count a := by
    intro a
    have haddrs : (s.procs.map Proc.addr).Perm (s.pidIp.entries.map Prod.snd) := by
      have := hkeys.map Prod.snd
      rwa [keys, List.map_map] at this
    rw [← haddrs.count_eq, List.count_eq_countP, List.countP_map, ← List.countP_eq_length_filter]
    apply List.countP_congr
    intro p _
    show decide (p.addr = a) = true ↔ (p.addr == a) = true
    rw [beq_iff_eq, decide_eq_true_iff]
  refine ⟨s1, hrun, ?_, ?_, ?_⟩
  · rw [hprocs]
    exact hl.told
  · rw [hprocs]
    exact hl.within
  · intro a m n hpc1
    obtain ⟨rfl, rfl, rfl⟩ := Point.fork.inj (hfork.symm.trans hpc1)
    rw [hprocs, hlen, hcount]
    exact ⟨Nat.le_refl _, Nat.le_refl _⟩

/-- The child starts with what the listener has counted. -/
theorem fork_launched (hl : Launched T s) {addr : RawAddr 16} {m n pid : ℕ} (hpc : s.pc = .fork addr m n) :
    Launched T { s with
      procs := s.procs ++ [{ pid, addr, numChildren := m, numThisIp := n }], pc := .close (some pid) addr } := by
  obtain ⟨hall, haddr⟩ := hl.next addr m n hpc
  refine ⟨?_, ?_, fun a m n h => absurd h (by simp)⟩
  · show Informed (s.procs ++ [_]).reverse
    rw [List.reverse_append, List.reverse_singleton, List.singleton_append]
    refine ⟨⟨?_, ?_⟩, hl.told⟩
    · rw [List.length_reverse]
      exact hall
    · rw [List.filter_reverse, List.length_reverse]
      exact haddr
  · intro p hp
    rcases List.mem_append.mp hp with hp | hp
    · exact hl.within p hp
    · rw [List.mem_singleton.mp hp]
      exact fun hpass => absurd hpass (by simp)

/-- A child that is reaped is told of no more. -/
theorem Launched.reaped (hl : Launched T s) {k : Resume} (hpc : s.pc = .reaping k) (pid : ℕ) :
    Launched T (orStop s (reapOne { s with procs := s.procs.filter (·.pid ≠ pid) } pid)) := by
  cases hrun : reapOne { s with procs := s.procs.filter (·.pid ≠ pid) } pid with
  | error h => exact hl.goto rfl (by simp [orStop])
  | ok s1 =>
    obtain ⟨hprocs, hpc1⟩ : s1.procs = s.procs.filter (·.pid ≠ pid) ∧ s1.pc = s.pc := by
      simp only [reapOne, bind, Except.bind] at hrun
      split at hrun
      · exact absurd hrun (by simp)
      split at hrun
      · exact absurd hrun (by simp)
      split at hrun
      · exact absurd hrun (by simp)
      obtain rfl := Except.ok.inj hrun
      exact ⟨rfl, rfl⟩
    refine ⟨?_, ?_, ?_⟩
    · show Informed s1.procs.reverse
      rw [hprocs, ← List.filter_reverse]
      exact hl.told.filter _
    · show ∀ p ∈ s1.procs, WithinLimits T p
      rw [hprocs]
      exact fun p hp => hl.within p (List.mem_of_mem_filter hp)
    · intro addr m n h
      have hfork : s.pc = .fork addr m n := hpc1.symm.trans h
      rw [hpc] at hfork
      exact absurd hfork (by simp)

theorem step_launched {a : Act} (hs : Sound s) (hl : Launched T s) (h : step T s a = some s') :
    Launched T s' := by
  -- a listener that has stopped takes no connection
  have hgoes : (∀ e, s.pc ≠ .stopped e) → Accounted s := by
    intro hpc
    rcases hs with hs | ⟨e, hstop, -⟩
    · exact hs
    · exact absurd hstop (hpc e)
  cases taken_of_step h with
  | accept _ r => exact hl.goto rfl (by simp)
  | handle _ _ => exact hl.goto rfl (by simp)
  | @resume k _ _ => exact hl.goto rfl (by cases k <;> simp [Resume.point])
  | reap hpc _ _ => exact hl.reaped hpc _
  | @reapNone k _ _ => exact hl.goto rfl (by cases k <;> simp [Resume.point])
  | reapError _ => exact hl.goto rfl (by simp)
  | acceptFailed _ => exact hl.goto rfl (by simp)
  | otherFamily _ => exact hl.goto rfl (by simp)
  | @launch addr hpc =>
    obtain ⟨s1, hrun, hl1⟩ := count_launched (hgoes (by simp [hpc])) hl hpc addr
    rw [hrun]
    exact hl1
  | forkFailed _ => exact hl.goto rfl (by simp)
  | fork hpc _ _ _ => exact fork_launched hl hpc
  | closed hpc =>
    obtain ⟨s1, hrun, -, hprocs, hhead⟩ := record_accounted (hgoes (by simp [hpc])) hpc
    rw [hrun]
    exact hl.goto hprocs (by simp [orStop, hhead])
  | interrupted _ => exact hl.goto rfl (by simp)
  | closeFailed _ => exact hl.goto rfl (by simp)
  | @exit pid _ =>
    obtain ⟨htold, hwithin, hnext⟩ := hl.update pid (f := fun p => { p with exited := true })
      (fun _ => ⟨rfl, rfl, rfl⟩) fun _ hp => hp
    exact ⟨htold, hwithin, hnext⟩
  | @checkLimits pid tcpWrapperOk _ =>
    exact hl.update pid (fun _ => ⟨rfl, rfl, rfl⟩) fun p _ => withinLimits_checked T tcpWrapperOk p
  | sigchld => exact ⟨hl.told, hl.within, hl.next⟩

/-- **The limits hold at all times.** However connections come, forks fail, sessions end and are
reaped behind an accept, no more sessions that have passed `check_limits` are live than the
settings allow, in all and from each address. -/
theorem limits_hold (T : Tunables) (acts : List Act) (s : Listener)
    (hclose : ∀ a ∈ acts, a ≠ .close .interrupted) (hrun : run (step T) Listener.start acts = some s) :
    (0 < T.maxClients →
      (s.procs.filter fun p => p.admission = .passed ∧ ¬ p.exited).length ≤ T.maxClients) ∧
    (0 < T.maxPerIp → ∀ addr,
      (s.procs.filter fun p => p.addr = addr ∧ p.admission = .passed ∧ ¬ p.exited).length ≤ T.maxPerIp) := by
  have hstart : Sound Listener.start ∧ Launched T Listener.start :=
    ⟨.inl start_accounted, trivial, by simp [Listener.start], by simp [Listener.start]⟩
  obtain ⟨-, hl⟩ : Sound s ∧ Launched T s :=
    run_keeps (I := fun s => Sound s ∧ Launched T s)
      (fun _ _ _ hI ha h => ⟨step_sound hI.1 ha h, step_launched hI.1 hI.2 h⟩) acts _ _ hstart
      (along_of_mem acts hclose _) hrun
  have hwithin : ∀ p ∈ s.procs.reverse, WithinLimits T p :=
    fun p hp => hl.within p (List.mem_reverse.mp hp)
  obtain ⟨hall, haddr⟩ := told_passed hl.told hwithin
  simp only [List.filter_reverse, List.length_reverse] at hall haddr
  constructor
  · intro hpos
    apply Nat.le_trans _ (hall hpos)
    apply List.Sublist.length_le
    apply List.monotone_filter_right
    intro p hp
    simp only [decide_eq_true_eq] at hp ⊢
    exact hp.1
  · intro hpos addr
    apply Nat.le_trans _ (haddr hpos addr)
    apply List.Sublist.length_le
    apply List.monotone_filter_right
    intro p hp
    simp only [decide_eq_true_eq] at hp ⊢
    exact ⟨hp.1, hp.2.1⟩

/-- Two connections where one session is allowed: the second is refused, whichever of them
comes to its limits first. -/
def oneSession : List Act :=
  [.accept (.peer (host10 1 4000)), .checkPending, .launch, .fork (some 7), .close .ok,
    .accept (.peer (host10 2 4000)), .checkPending, .launch, .fork (some 8), .close .ok,
    .checkLimits 8 true, .checkLimits 7 true, .exit 8, .exit 7]

theorem limits_hold_one_session :
    ∃ s, run (step { maxClients := 1 }) Listener.start oneSession = some s ∧
      s.procs.map Proc.admission = [.passed, .refused] ∧
      (s.procs.filter fun p => p.admission = .passed ∧ ¬ p.exited).length ≤ 1 := by
  have hdone : (run (step { maxClients := 1 }) Listener.start oneSession).map
      (fun s => s.procs.map Proc.admission) = some [.passed, .refused] := by decide +kernel
  obtain ⟨s, hrun, hadm⟩ := Option.map_eq_some_iff.mp hdone
  exact ⟨s, hrun, hadm, (limits_hold { maxClients := 1 } oneSession s (by decide) hrun).1 (by decide)⟩

end CosFtp
