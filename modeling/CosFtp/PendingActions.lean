/-
# Pending actions

A signal is not handled where it comes: `vsf_sysutil_common_sighandler` raises a
flag, and `vsf_sysutil_check_pending_actions`, which is called behind everything
that may block, runs the handlers of the flags it finds up, and in front of them
the i/o handler (sysutil.c). A handler may come to such a call itself, so checks
and handlers are nested; what keeps a handler from being entered twice are the
`running` flags.

The machine has a step for each statement of a check, and signals come between any
two of them. What a signal does is one step, as `vsf_sysutil_set_sighandler` has all
the others blocked meanwhile. The rest of the program, in front of all or in a
handler, calls checks, returns, and installs handlers as it likes.

Key definitions: `Sysutil`, `Sysutil.commonSighandler`, `Sysutil.exec`, `step`,
`Sysutil.activations`, `Sysutil.Right`.
Key theorems: `right_of_run`, `exec_isSome`, `run_dispatches`, `installed_heeds`,
`synchronous_dispatch`.
-/
import CosFtp.Lib.Dispatch
import Mathlib.Data.Int.Notation

namespace CosFtp.PendingActions

open Run

/-! ### Signals and their handlers -/

/-- `enum EVSFSysUtilSignal` -/
inductive SysUtilSignal where
  | alrm
  | term
  | chld
  | pipe
  | urg
  | hup

/-- `enum EVSFSysUtilInterruptContext` -/
inductive InterruptContext where
  | unknown
  | io
  deriving DecidableEq

/-- `NSIG`, and the numbers of the signals. -/
structure SigNumbers where
  nsig : ℕ
  number : SysUtilSignal → ℤ

/-- `vsf_sysutil_translate_sig`, or none where it ends in `bug`. -/
def SigNumbers.translateSig (N : SigNumbers) (sig : SysUtilSignal) : Option ℕ :=
  let realsig := N.number sig
  if realsig < 0 ∨ (N.nsig : ℤ) ≤ realsig then none else some realsig.toNat

/-- `struct vsf_sysutil_sig_details`; the code of a signal's handler is an `F`, a pointer a number. -/
structure SigDetails (F : Type) where
  syncSigHandler : Option F := none
  pPrivate : ℕ := 0
  pending : Bool := false
  running : Bool := false
  useAlarm : Bool := false

/-- What the system calls when a signal comes. -/
inductive Sighandler where
  | dfl
  /-- `vsf_sysutil_common_sighandler` -/
  | common
  /-- `vsf_sysutil_alrm_sighandler` -/
  | alrm
  deriving DecidableEq

/-- The arguments of a check. -/
structure CheckArgs where
  context : InterruptContext
  retval : ℤ
  fd : ℤ

/-- Where a check is: in front of this part of it. -/
inductive Pc where
  /-- `s_io_handler && !s_io_handler_running && context == kVSFSysUtilIO` -/
  | ioTest
  /-- `s_io_handler_running = 1` -/
  | ioRun
  | ioCall
  /-- `s_io_handler_running = 0` -/
  | ioDone
  /-- `i < NSIG`, and `pending` -/
  | test (i : ℕ)
  /-- `!running` -/
  | testRunning (i : ℕ)
  /-- `running = 1` -/
  | run (i : ℕ)
  /-- `alarm(0)`, with `use_alarm` -/
  | disarm (i : ℕ)
  | testHandler (i : ℕ)
  /-- `pending = 0` -/
  | clear (i : ℕ)
  | call (i : ℕ)
  /-- `running = 0` -/
  | done (i : ℕ)

/-- A check that is being executed. -/
structure Check where
  args : CheckArgs
  pc : Pc

/-- A handler that has been called, by a check with these arguments. -/
inductive Activation (F G : Type) where
  | sig (signum : ℕ) (handler : F) (pPrivate : ℕ) (caller : CheckArgs)
  | io (handler : G) (pPrivate : ℕ) (caller : CheckArgs)

/-- The private variables of sysutil.c, and the calls under way: the handlers, the
innermost first, and the check that the innermost of them, or the program in front
of all, has called. The checks that have called the handlers are behind their calls. -/
structure Sysutil (F G : Type) where
  sigDetails : ℕ → SigDetails F := fun _ => {}
  ioHandler : Option G := none
  pIoHandlerPrivate : ℕ := 0
  ioHandlerRunning : Bool := false
  sighandler : ℤ → Sighandler := fun _ => .dfl
  /-- the seconds of the last `alarm` -/
  alarm : ℕ := 0
  check : Option Check := none
  live : List (Activation F G) := []

variable {F G : Type} (N : SigNumbers)

namespace Sysutil

/-- The process when it starts. -/
def start : Sysutil F G := {}

def setSig (s : Sysutil F G) (i : ℕ) (f : SigDetails F → SigDetails F) : Sysutil F G :=
  { s with sigDetails := Function.update s.sigDetails i (f (s.sigDetails i)) }

/-- `vsf_sysutil_common_sighandler` -/
def commonSighandler (s : Sysutil F G) (signum : ℤ) : Sysutil F G :=
  if signum < 0 ∨ (N.nsig : ℤ) ≤ signum then s
  else if (s.sigDetails signum.toNat).syncSigHandler.isSome then
    let s := s.setSig signum.toNat fun d => { d with pending := true }
    if (s.sigDetails signum.toNat).useAlarm then { s with alarm := 1 } else s
  else s

/-- A signal comes. The default of the system leaves the process as it is, or ends it. -/
def arrive (s : Sysutil F G) (signum : ℤ) : Sysutil F G :=
  match s.sighandler signum with
  | .dfl => s
  | .common => s.commonSighandler N signum
  | .alrm => { s with alarm := 1 }

def goto (s : Sysutil F G) (c : Check) (pc : Pc) : Sysutil F G := { s with check := some { c with pc } }

/-- The next statement of `vsf_sysutil_check_pending_actions`; none is a call of a null pointer. -/
def exec (s : Sysutil F G) (c : Check) : Option (Sysutil F G) :=
  match c.pc with
  | .ioTest =>
    if s.ioHandler.isSome ∧ s.ioHandlerRunning = false ∧ c.args.context = .io then some (s.goto c .ioRun)
    else some (s.goto c (.test 0))
  | .ioRun => some ({ s with ioHandlerRunning := true }.goto c .ioCall)
  | .ioCall => s.ioHandler.map fun h => { s with check := none, live := .io h s.pIoHandlerPrivate c.args :: s.live }
  | .ioDone => some ({ s with ioHandlerRunning := false }.goto c (.test 0))
  | .test i =>
    if N.nsig ≤ i then some { s with check := none }
    else if (s.sigDetails i).pending then some (s.goto c (.testRunning i))
    else some (s.goto c (.test (i + 1)))
  | .testRunning i =>
    if (s.sigDetails i).running then some (s.goto c (.test (i + 1))) else some (s.goto c (.run i))
  | .run i => some ((s.setSig i fun d => { d with running := true }).goto c (.disarm i))
  | .disarm i =>
    if (s.sigDetails i).useAlarm then some ({ s with alarm := 0 }.goto c (.testHandler i))
    else some (s.goto c (.testHandler i))
  | .testHandler i =>
    if (s.sigDetails i).syncSigHandler.isSome then some (s.goto c (.clear i)) else some (s.goto c (.done i))
  | .clear i => some ((s.setSig i fun d => { d with pending := false }).goto c (.call i))
  | .call i => (s.sigDetails i).syncSigHandler.map fun h =>
      { s with check := none, live := .sig i h (s.sigDetails i).pPrivate c.args :: s.live }
  | .done i => some ((s.setSig i fun d => { d with running := false }).goto c (.test (i + 1)))

end Sysutil

/-- The check that has called a handler, behind the call. -/
def Activation.resume : Activation F G → Check
  | .sig signum _ _ caller => ⟨caller, .done signum⟩
  | .io _ _ caller => ⟨caller, .ioDone⟩

/-- What the program does about its handlers. -/
inductive HandlerOp (F G : Type) where
  | install (sig : SysUtilSignal) (handler : F) (pPrivate : ℕ) (useAlarm : Bool)
  | default (sig : SysUtilSignal)
  | installNull (sig : SysUtilSignal)
  | installIo (handler : G) (pPrivate : ℕ)
  | uninstallIo

namespace Sysutil

/-- `vsf_sysutil_install_sighandler` -/
def installSighandler (s : Sysutil F G) (sig : SysUtilSignal) (handler : F) (pPrivate : ℕ) (useAlarm : Bool) :
    Option (Sysutil F G) :=
  (N.translateSig sig).map fun realsig =>
    let s := s.setSig realsig fun d => { d with pPrivate, syncSigHandler := some handler, useAlarm }
    let s := { s with sighandler := Function.update s.sighandler realsig .common }
    if useAlarm ∧ (realsig : ℤ) ≠ N.number .alrm then
      { s with sighandler := Function.update s.sighandler (N.number .alrm) .alrm }
    else s

/-- `vsf_sysutil_default_sig` and `vsf_sysutil_install_null_sighandler`: a signal without a handler. -/
def dropSighandler (s : Sysutil F G) (sig : SysUtilSignal) (handler : Sighandler) : Option (Sysutil F G) :=
  (N.translateSig sig).map fun realsig =>
    let s := s.setSig realsig fun d => { d with pPrivate := 0, syncSigHandler := none }
    { s with sighandler := Function.update s.sighandler realsig handler }

/-- `vsf_sysutil_install_io_handler`, or none where it ends in `bug`. -/
def installIoHandler (s : Sysutil F G) (handler : G) (pPrivate : ℕ) : Option (Sysutil F G) :=
  if s.ioHandler.isSome then none else some { s with ioHandler := some handler, pIoHandlerPrivate := pPrivate }

/-- `vsf_sysutil_uninstall_io_handler` -/
def uninstallIoHandler (s : Sysutil F G) : Option (Sysutil F G) :=
  if s.ioHandler.isSome then some { s with ioHandler := none, pIoHandlerPrivate := 0 } else none

def handle (s : Sysutil F G) : HandlerOp F G → Option (Sysutil F G)
  | .install sig handler pPrivate useAlarm => s.installSighandler N sig handler pPrivate useAlarm
  | .default sig => s.dropSighandler N sig .dfl
  | .installNull sig => s.dropSighandler N sig .common
  | .installIo handler pPrivate => s.installIoHandler handler pPrivate
  | .uninstallIo => s.uninstallIoHandler

end Sysutil

/-! ### The machine -/

/-- What can happen next. -/
inductive Act (F G : Type) where
  /-- a signal comes -/
  | arrive (signum : ℤ)
  /-- the next statement of the check -/
  | next
  /-- the program, or the handler that runs, calls `vsf_sysutil_check_pending_actions` -/
  | enter (args : CheckArgs)
  /-- the handler that runs returns -/
  | leave
  | handle (op : HandlerOp F G)

/-- The next state, where the action is possible. -/
def step (s : Sysutil F G) : Act F G → Option (Sysutil F G)
  | .arrive signum => some (s.arrive N signum)
  | .next => s.check.bind fun c => s.exec N c
  | .enter args => if s.check.isNone then some { s with check := some ⟨args, .ioTest⟩ } else none
  | .leave =>
    match s.check, s.live with
    | none, a :: live => some { s with check := some a.resume, live }
    | _, _ => none
  | .handle op => if s.check.isNone then s.handle N op else none

/-! ### What is under way -/

/-- What is handled: the i/o, or a signal. -/
inductive Source where
  | io
  | sig (signum : ℕ)
  deriving DecidableEq

def Activation.source : Activation F G → Source
  | .sig signum _ _ _ => .sig signum
  | .io _ _ _ => .io

/-- What a check has put up the `running` flag of. -/
def Pc.held : Pc → Option Source
  | .ioCall | .ioDone => some .io
  | .disarm i | .testHandler i | .clear i | .call i | .done i => some (.sig i)
  | _ => none

/-- What a check has found not to be running and is going to run. -/
def Pc.tested : Pc → Option Source
  | .ioRun => some .io
  | .run i => some (.sig i)
  | _ => none

/-- What a check has found a handler of, that it is going to call. -/
def Pc.bound : Pc → Option Source
  | .ioRun | .ioCall => some .io
  | .clear i | .call i => some (.sig i)
  | _ => none

/-- What a check calls the handler of next: the call is all that is left to do. -/
def Pc.begun : Pc → Option Source
  | .ioCall => some .io
  | .call i => some (.sig i)
  | _ => none

namespace Sysutil

def flag (s : Sysutil F G) : Source → Bool
  | .io => s.ioHandlerRunning
  | .sig i => (s.sigDetails i).running

def pending (s : Sysutil F G) : Source → Bool
  | .io => false
  | .sig i => (s.sigDetails i).pending

def installed (s : Sysutil F G) : Source → Bool
  | .io => s.ioHandler.isSome
  | .sig i => (s.sigDetails i).syncSigHandler.isSome

/-- The handlers that run, the innermost first. -/
def running (s : Sysutil F G) : List Source := s.live.map Activation.source

/-- The activations of handlers, the innermost first: from the statement that takes the pending flag down,
in front of the call, until the handler returns. -/
def activations (s : Sysutil F G) : List Source := (s.check.bind (·.pc.begun)).toList ++ s.running

/-- The flags are right, and a check calls no handler that is not there. -/
structure Right (s : Sysutil F G) : Prop where
  guarded : Dispatch.Guarded ((s.check.bind (·.pc.held)).toList ++ s.running) s.flag
  fresh : ∀ k, s.check.bind (·.pc.tested) = some k → s.flag k = false
  ready : ∀ k, s.check.bind (·.pc.bound) = some k → s.installed k = true

end Sysutil

open Sysutil

/-! ### The flags -/

theorem right_start : (start : Sysutil F G).Right := by
  refine ⟨?_, fun k hk => ?_, fun k hk => ?_⟩
  · have hflag : (start : Sysutil F G).flag = fun _ => false := by
      funext k
      cases k <;> rfl
    rw [hflag]
    exact Dispatch.guarded_nil
  · cases hk
  · cases hk

section

variable {s s' : Sysutil F G} {c : Check}

theorem flag_setSig {i : ℕ} {f : SigDetails F → SigDetails F} (hf : ∀ d, (f d).running = d.running) :
    (s.setSig i f).flag = s.flag := by
  funext k
  cases k with
  | io => rfl
  | sig j =>
    by_cases hj : j = i
    · simp [flag, setSig, hj, hf]
    · simp [flag, setSig, hj]

theorem installed_setSig {i : ℕ} {f : SigDetails F → SigDetails F}
    (hf : ∀ d, (f d).syncSigHandler = d.syncSigHandler) : (s.setSig i f).installed = s.installed := by
  funext k
  cases k with
  | io => rfl
  | sig j =>
    by_cases hj : j = i
    · simp [installed, setSig, hj, hf]
    · simp [installed, setSig, hj]

theorem pending_setSig {i : ℕ} {f : SigDetails F → SigDetails F} (hf : ∀ d, (f d).pending = d.pending) :
    (s.setSig i f).pending = s.pending := by
  funext k
  cases k with
  | io => rfl
  | sig j =>
    by_cases hj : j = i
    · simp [pending, setSig, hj, hf]
    · simp [pending, setSig, hj]

/-- `running = b` -/
theorem flag_running (i : ℕ) (b : Bool) :
    (s.setSig i fun d => { d with running := b }).flag = Function.update s.flag (.sig i) b := by
  funext k
  cases k with
  | io => rfl
  | sig j =>
    by_cases hj : j = i
    · simp [flag, setSig, hj]
    · simp [flag, setSig, hj, Function.update_of_ne]

theorem flag_ioRunning (b : Bool) : { s with ioHandlerRunning := b }.flag = Function.update s.flag .io b := by
  funext k
  cases k with
  | io => rfl
  | sig j => rfl

/-- `pending = b` -/
theorem pending_pending (i : ℕ) (b : Bool) :
    (s.setSig i fun d => { d with pending := b }).pending = Function.update s.pending (.sig i) b := by
  funext k
  cases k with
  | io => rfl
  | sig j =>
    by_cases hj : j = i
    · simp [pending, setSig, hj]
    · simp [pending, setSig, hj, Function.update_of_ne]

theorem pending_running (i : ℕ) (b : Bool) : (s.setSig i fun d => { d with running := b }).pending = s.pending :=
  pending_setSig fun _ => rfl

theorem flag_pending (i : ℕ) (b : Bool) : (s.setSig i fun d => { d with pending := b }).flag = s.flag :=
  flag_setSig fun _ => rfl

theorem installed_pending (i : ℕ) (b : Bool) :
    (s.setSig i fun d => { d with pending := b }).installed = s.installed := installed_setSig fun _ => rfl

theorem installed_running (i : ℕ) (b : Bool) :
    (s.setSig i fun d => { d with running := b }).installed = s.installed := installed_setSig fun _ => rfl

/-! ### What a step keeps -/

theorem Sysutil.Right.at (hs : s.Right) (hc : s.check = some c) :
    Dispatch.Guarded (c.pc.held.toList ++ s.running) s.flag ∧
      (∀ k, c.pc.tested = some k → s.flag k = false) ∧ ∀ k, c.pc.bound = some k → s.installed k = true := by
  obtain ⟨hguarded, hfresh, hready⟩ := hs
  rw [hc] at hguarded hfresh hready
  exact ⟨hguarded, hfresh, hready⟩

theorem Sysutil.Right.guarded_running (hs : s.Right) (hc : s.check = none) : Dispatch.Guarded s.running s.flag := by
  have hguarded := hs.guarded
  rw [hc] at hguarded
  exact hguarded

theorem right_goto {pc : Pc} (hguarded : Dispatch.Guarded (pc.held.toList ++ s.running) s.flag)
    (hfresh : ∀ k, pc.tested = some k → s.flag k = false) (hready : ∀ k, pc.bound = some k → s.installed k = true) :
    (s.goto c pc).Right := ⟨hguarded, hfresh, hready⟩

/-- A check goes to a point where it is not on the way to a handler. -/
theorem right_goto_idle {pc : Pc} (htested : pc.tested = none) (hbound : pc.bound = none)
    (hguarded : Dispatch.Guarded (pc.held.toList ++ s.running) s.flag) : (s.goto c pc).Right := by
  refine right_goto hguarded (fun k hk => ?_) fun k hk => ?_
  · rw [htested] at hk
    cases hk
  · rw [hbound] at hk
    cases hk

/-- No check is being executed: the program goes on, in front of all or in a handler. -/
theorem right_of_guarded (hc : s.check = none) (hguarded : Dispatch.Guarded s.running s.flag) : s.Right := by
  refine ⟨?_, fun k hk => ?_, fun k hk => ?_⟩
  · rw [hc]
    exact hguarded
  · rw [hc] at hk
    cases hk
  · rw [hc] at hk
    cases hk

/-- A statement that goes one way or the other. -/
theorem branch_cases {p : Prop} [Decidable p] {a b : Sysutil F G}
    (h : (if p then some a else some b) = some s') : (p ∧ s' = a) ∨ (¬ p ∧ s' = b) := by
  split at h
  next hp => exact .inl ⟨hp, (Option.some.inj h).symm⟩
  next hp => exact .inr ⟨hp, (Option.some.inj h).symm⟩

/-- **A statement of a check keeps the flags right.** -/
theorem exec_right (hs : s.Right) (hc : s.check = some c) (h : s.exec N c = some s') : s'.Right := by
  obtain ⟨hguarded, hfresh, hready⟩ := hs.at hc
  obtain ⟨args, pc⟩ := c
  cases pc with
  | ioTest =>
    rcases branch_cases h with ⟨hio, rfl⟩ | ⟨-, rfl⟩
    · refine right_goto hguarded (fun k hk => ?_) fun k hk => ?_
      · obtain rfl := Option.some.inj hk
        exact hio.2.1
      · obtain rfl := Option.some.inj hk
        exact hio.1
    · exact right_goto_idle rfl rfl hguarded
  | ioRun =>
    obtain rfl := Option.some.inj h
    refine right_goto ?_ (fun k hk => by cases hk) hready
    rw [flag_ioRunning]
    exact hguarded.push (hfresh .io rfl)
  | ioCall =>
    obtain ⟨handler, -, rfl⟩ := Option.map_eq_some_iff.mp h
    exact right_of_guarded rfl hguarded
  | ioDone =>
    obtain rfl := Option.some.inj h
    refine right_goto_idle rfl rfl ?_
    rw [flag_ioRunning]
    exact hguarded.pop
  | test i =>
    simp only [exec] at h
    split at h
    · obtain rfl := Option.some.inj h
      exact right_of_guarded rfl hguarded
    · rcases branch_cases h with ⟨-, rfl⟩ | ⟨-, rfl⟩
      · exact right_goto_idle rfl rfl hguarded
      · exact right_goto_idle rfl rfl hguarded
  | testRunning i =>
    rcases branch_cases h with ⟨-, rfl⟩ | ⟨hrunning, rfl⟩
    · exact right_goto_idle rfl rfl hguarded
    · refine right_goto hguarded (fun k hk => ?_) fun k hk => by cases hk
      obtain rfl := Option.some.inj hk
      exact Bool.eq_false_iff.mpr hrunning
  | run i =>
    obtain rfl := Option.some.inj h
    refine right_goto_idle rfl rfl ?_
    rw [flag_running]
    exact hguarded.push (hfresh (.sig i) rfl)
  | disarm i =>
    rcases branch_cases h with ⟨-, rfl⟩ | ⟨-, rfl⟩
    · exact right_goto_idle rfl rfl hguarded
    · exact right_goto_idle rfl rfl hguarded
  | testHandler i =>
    rcases branch_cases h with ⟨hhandler, rfl⟩ | ⟨-, rfl⟩
    · refine right_goto hguarded (fun k hk => by cases hk) fun k hk => ?_
      obtain rfl := Option.some.inj hk
      exact hhandler
    · exact right_goto_idle rfl rfl hguarded
  | clear i =>
    obtain rfl := Option.some.inj h
    refine right_goto ?_ (fun k hk => by cases hk) ?_
    · rw [flag_pending]
      exact hguarded
    · rw [installed_pending]
      exact hready
  | call i =>
    obtain ⟨handler, -, rfl⟩ := Option.map_eq_some_iff.mp h
    exact right_of_guarded rfl hguarded
  | done i =>
    obtain rfl := Option.some.inj h
    refine right_goto_idle rfl rfl ?_
    rw [flag_running]
    exact hguarded.pop

/-! ### What a signal does, and what the program does -/

/-- A signal that has a handler, and the sighandler that knows of it. -/
def Sysutil.Heeds (N : SigNumbers) (s : Sysutil F G) (signum : ℤ) : Prop :=
  s.sighandler signum = .common ∧ 0 ≤ signum ∧ signum < N.nsig ∧ s.installed (.sig signum.toNat) = true

instance (s : Sysutil F G) (signum : ℤ) : Decidable (s.Heeds N signum) :=
  inferInstanceAs (Decidable (_ ∧ _ ∧ _ ∧ _))

/-- A signal puts up the flag of its handler, and may set the alarm. -/
theorem arrive_cases (s : Sysutil F G) (signum : ℤ) :
    (s.Heeds N signum ∧
      ∃ alarm, s.arrive N signum = { s.setSig signum.toNat fun d => { d with pending := true } with alarm }) ∨
    (¬ s.Heeds N signum ∧ ∃ alarm, s.arrive N signum = { s with alarm }) := by
  cases hhandler : s.sighandler signum with
  | dfl =>
    right
    refine ⟨fun hheeds => ?_, s.alarm, by simp only [arrive, hhandler]⟩
    rw [hheeds.1] at hhandler
    cases hhandler
  | alrm =>
    right
    refine ⟨fun hheeds => ?_, 1, by simp only [arrive, hhandler]⟩
    rw [hheeds.1] at hhandler
    cases hhandler
  | common =>
    by_cases hrange : signum < 0 ∨ (N.nsig : ℤ) ≤ signum
    · right
      refine ⟨fun hheeds => ?_, s.alarm, by simp only [arrive, hhandler, commonSighandler, if_pos hrange]⟩
      have hlow := hheeds.2.1
      have hhigh := hheeds.2.2.1
      omega
    · by_cases hinstalled : (s.sigDetails signum.toNat).syncSigHandler.isSome
      · left
        have harrive : s.arrive N signum = commonSighandler N s signum := by simp only [arrive, hhandler]
        refine ⟨⟨hhandler, by omega, by omega, hinstalled⟩, ?_⟩
        rw [harrive, commonSighandler, if_neg hrange, if_pos hinstalled]
        simp only
        split
        · exact ⟨1, rfl⟩
        · exact ⟨s.alarm, rfl⟩
      · right
        refine ⟨fun hheeds => hinstalled hheeds.2.2.2, s.alarm, ?_⟩
        simp only [arrive, hhandler, commonSighandler, if_neg hrange, if_neg hinstalled]

/-- What the program does leaves the flags and what is under way as they are. -/
theorem handle_cases {op : HandlerOp F G} (h : s.handle N op = some s') :
    (∃ i f sighandler, (∀ d, (f d).pending = d.pending ∧ (f d).running = d.running) ∧
      s' = { s.setSig i f with sighandler }) ∨
    ∃ ioHandler pIoHandlerPrivate, s' = { s with ioHandler, pIoHandlerPrivate } := by
  cases op with
  | install sig handler pPrivate useAlarm =>
    obtain ⟨realsig, -, rfl⟩ := Option.map_eq_some_iff.mp h
    let f (d : SigDetails F) : SigDetails F := { d with pPrivate, syncSigHandler := some handler, useAlarm }
    left
    simp only
    split
    · exact ⟨realsig, f, _, fun d => ⟨rfl, rfl⟩, rfl⟩
    · exact ⟨realsig, f, _, fun d => ⟨rfl, rfl⟩, rfl⟩
  | default sig =>
    obtain ⟨realsig, -, rfl⟩ := Option.map_eq_some_iff.mp h
    left
    exact ⟨realsig, fun d => { d with pPrivate := 0, syncSigHandler := none }, _, fun d => ⟨rfl, rfl⟩, rfl⟩
  | installNull sig =>
    obtain ⟨realsig, -, rfl⟩ := Option.map_eq_some_iff.mp h
    left
    exact ⟨realsig, fun d => { d with pPrivate := 0, syncSigHandler := none }, _, fun d => ⟨rfl, rfl⟩, rfl⟩
  | installIo handler pPrivate =>
    simp only [handle, installIoHandler] at h
    split at h
    · cases h
    · obtain rfl := Option.some.inj h
      exact .inr ⟨_, _, rfl⟩
  | uninstallIo =>
    simp only [handle, uninstallIoHandler] at h
    split at h
    · obtain rfl := Option.some.inj h
      exact .inr ⟨_, _, rfl⟩
    · cases h

theorem step_enter {args : CheckArgs} (h : step N s (.enter args) = some s') :
    s.check = none ∧ { s with check := some ⟨args, .ioTest⟩ } = s' := by
  simpa [step] using h

theorem step_leave (h : step N s .leave = some s') :
    s.check = none ∧ ∃ a live, s.live = a :: live ∧ s' = { s with check := some a.resume, live } := by
  simp only [step] at h
  split at h
  next a live hcheck hlive => exact ⟨hcheck, a, live, hlive, (Option.some.inj h).symm⟩
  next => cases h

theorem step_handle {op : HandlerOp F G} (h : step N s (.handle op) = some s') :
    s.check = none ∧ s.handle N op = some s' := by
  simpa [step] using h

/-- **A step keeps the flags right.** -/
theorem step_right {a : Act F G} (hs : s.Right) (h : step N s a = some s') : s'.Right := by
  cases a with
  | arrive signum =>
    obtain rfl := Option.some.inj h
    rcases arrive_cases N s signum with ⟨-, alarm, harrive⟩ | ⟨-, alarm, harrive⟩
    · obtain ⟨hguarded, hfresh, hready⟩ := hs
      rw [← flag_pending signum.toNat true] at hguarded hfresh
      rw [← installed_pending signum.toNat true] at hready
      rw [harrive]
      exact ⟨hguarded, hfresh, hready⟩
    · rw [harrive]
      exact ⟨hs.guarded, hs.fresh, hs.ready⟩
  | next =>
    obtain ⟨c, hc, hexec⟩ := Option.bind_eq_some_iff.mp h
    exact exec_right N hs hc hexec
  | enter args =>
    obtain ⟨hcheck, rfl⟩ := step_enter N h
    exact right_goto_idle (c := ⟨args, .ioTest⟩) rfl rfl (hs.guarded_running hcheck)
  | leave =>
    obtain ⟨hcheck, a, live, hlive, rfl⟩ := step_leave N h
    have hguarded := hs.guarded_running hcheck
    rw [running, hlive] at hguarded
    cases a with
    | sig signum handler pPrivate caller =>
      exact right_goto_idle (s := { s with live }) (c := ⟨caller, .done signum⟩) rfl rfl hguarded
    | io handler pPrivate caller =>
      exact right_goto_idle (s := { s with live }) (c := ⟨caller, .ioDone⟩) rfl rfl hguarded
  | handle op =>
    obtain ⟨hcheck, hop⟩ := step_handle N h
    have hguarded := hs.guarded_running hcheck
    rcases handle_cases N hop with ⟨i, f, sighandler, hf, rfl⟩ | ⟨ioHandler, pIoHandlerPrivate, rfl⟩
    · rw [← flag_setSig (i := i) fun d => (hf d).2] at hguarded
      exact right_of_guarded hcheck hguarded
    · exact right_of_guarded hcheck hguarded

/-- **The flags are right in every state that the program comes to.** -/
theorem right_of_run {acts : List (Act F G)} (hrun : run (step N) start acts = some s) : s.Right :=
  run_invariant (fun _ _ _ => step_right N) right_start hrun

/-- **A check never calls a handler that is not there.** -/
theorem exec_isSome (hs : s.Right) (hc : s.check = some c) : (s.exec N c).isSome = true := by
  obtain ⟨-, -, hready⟩ := hs.at hc
  obtain ⟨args, pc⟩ := c
  cases pc with
  | ioCall => exact (Option.isSome_map ..).trans (hready .io rfl)
  | call i => exact (Option.isSome_map ..).trans (hready (.sig i) rfl)
  | ioTest | testRunning i | disarm i | testHandler i =>
    simp only [exec]
    split
    · rfl
    · rfl
  | test i =>
    simp only [exec]
    split
    · rfl
    · split
      · rfl
      · rfl
  | ioRun | ioDone | run i | clear i | done i => rfl

/-- Where a check has only the call of a handler left to do, the call is the next statement, and until it
is made only signals come. -/
theorem begun_next {k : Source} (hs : s.Right) (hc : s.check = some c) (hk : c.pc.begun = some k) :
    (∃ a : Activation F G, a.source = k ∧ step N s .next = some { s with check := none, live := a :: s.live }) ∧
      ∀ a s', step N s a = some s' → a = .next ∨ ∃ signum, a = .arrive signum := by
  constructor
  · obtain ⟨-, -, hready⟩ := hs.at hc
    obtain ⟨args, pc⟩ := c
    cases pc with
    | ioCall =>
      obtain rfl := Option.some.inj hk
      obtain ⟨handler, hhandler⟩ := Option.isSome_iff_exists.mp (hready .io rfl)
      refine ⟨.io handler s.pIoHandlerPrivate args, rfl, ?_⟩
      simp [step, hc, exec, hhandler]
    | call i =>
      obtain rfl := Option.some.inj hk
      obtain ⟨handler, hhandler⟩ := Option.isSome_iff_exists.mp (hready (.sig i) rfl)
      refine ⟨.sig i handler (s.sigDetails i).pPrivate args, rfl, ?_⟩
      simp [step, hc, exec, hhandler]
    | _ => cases hk
  · intro a s' h
    cases a with
    | arrive signum => exact .inr ⟨signum, rfl⟩
    | next => exact .inl rfl
    | enter args => simp [step, hc] at h
    | leave => simp [step, hc] at h
    | handle op => simp [step, hc] at h

/-! ### Handlers that run one inside the other -/

/-- What the next statement of a check begins the handler of: of a signal, the one that takes its flag down. -/
def Pc.begins : Pc → Option Source
  | .ioRun => some .io
  | .clear i => some (.sig i)
  | _ => none

/-- What is pending, and what has begun. -/
def Sysutil.view (s : Sysutil F G) : Dispatch.State Source := ⟨s.pending, s.activations⟩

/-- What an action does to the handlers. -/
def label (s : Sysutil F G) : Act F G → List (Dispatch.Act Source)
  | .arrive signum => if s.Heeds N signum then [.raise (.sig signum.toNat)] else []
  | .next => (s.check.bind (·.pc.begins)).toList.map .take
  | .leave => [.finish]
  | .enter _ | .handle _ => []

theorem activations_at (hc : s.check = some c) : s.activations = c.pc.begun.toList ++ s.running := by
  rw [activations, hc]
  rfl

theorem activations_idle (hc : s.check = none) : s.activations = s.running := by
  rw [activations, hc]
  rfl

/-- The i/o handler has no pending flag. -/
theorem pending_io : Function.update s.pending .io false = s.pending := by
  funext k
  cases k with
  | io => rfl
  | sig i => rfl

theorem take_eq {k : Source} (hk : k ∉ s.activations) :
    Dispatch.step s.view (.take k) = some ⟨Function.update s.pending k false, k :: s.activations⟩ := if_neg hk

theorem view_of_eq (hpending : s'.pending = s.pending) (hactivations : s'.activations = s.activations) :
    run Dispatch.step s.view [] = some s'.view := by
  rw [view, view, hpending, hactivations]
  rfl

/-- **A statement of a check begins a handler, or does nothing to the handlers.** -/
theorem exec_view (hs : s.Right) (hc : s.check = some c) (h : s.exec N c = some s') :
    run Dispatch.step s.view (label N s .next) = some s'.view := by
  obtain ⟨hguarded, hfresh, -⟩ := hs.at hc
  have hat := activations_at hc
  have hlabel : label N s .next = c.pc.begins.toList.map .take := by
    rw [label, hc]
    rfl
  rw [hlabel]
  obtain ⟨args, pc⟩ := c
  cases pc with
  | ioRun =>
    obtain rfl := Option.some.inj h
    have hk : Source.io ∉ s.activations := by
      rw [hat]
      exact hguarded.not_mem (hfresh .io rfl)
    refine (congrArg (Option.bind · _) (take_eq hk)).trans (congrArg some ?_)
    rw [pending_io, hat]
    rfl
  | clear i =>
    obtain rfl := Option.some.inj h
    have hk : Source.sig i ∉ s.activations := by
      rw [hat]
      exact (List.nodup_cons.mp hguarded.nodup).1
    refine (congrArg (Option.bind · _) (take_eq hk)).trans (congrArg some ?_)
    rw [← pending_pending, hat]
    rfl
  | ioCall | call i =>
    obtain ⟨handler, -, rfl⟩ := Option.map_eq_some_iff.mp h
    exact view_of_eq rfl hat.symm
  | ioDone =>
    obtain rfl := Option.some.inj h
    exact view_of_eq rfl hat.symm
  | ioTest | testRunning i | disarm i | testHandler i =>
    rcases branch_cases h with ⟨-, rfl⟩ | ⟨-, rfl⟩
    · exact view_of_eq rfl hat.symm
    · exact view_of_eq rfl hat.symm
  | test i =>
    simp only [exec] at h
    split at h
    · obtain rfl := Option.some.inj h
      exact view_of_eq rfl hat.symm
    · rcases branch_cases h with ⟨-, rfl⟩ | ⟨-, rfl⟩
      · exact view_of_eq rfl hat.symm
      · exact view_of_eq rfl hat.symm
  | run i | done i =>
    obtain rfl := Option.some.inj h
    exact view_of_eq (pending_running ..) hat.symm

/-- **A step begins a handler, ends one, raises a flag, or does nothing to the handlers.** -/
theorem step_view {a : Act F G} (hs : s.Right) (h : step N s a = some s') :
    run Dispatch.step s.view (label N s a) = some s'.view := by
  cases a with
  | arrive signum =>
    obtain rfl := Option.some.inj h
    rcases arrive_cases N s signum with ⟨hheeds, alarm, harrive⟩ | ⟨hheeds, alarm, harrive⟩
    · rw [label, if_pos hheeds, harrive]
      refine congrArg some ?_
      rw [view, ← pending_pending]
      rfl
    · rw [label, if_neg hheeds, harrive]
      rfl
  | next =>
    obtain ⟨c, hc, hexec⟩ := Option.bind_eq_some_iff.mp h
    exact exec_view N hs hc hexec
  | enter args =>
    obtain ⟨hcheck, rfl⟩ := step_enter N h
    exact view_of_eq rfl (activations_idle hcheck).symm
  | leave =>
    obtain ⟨hcheck, a, live, hlive, rfl⟩ := step_leave N h
    have hat : s.activations = a.source :: live.map Activation.source := by
      rw [activations_idle hcheck, running, hlive]
      rfl
    rw [label, view, hat]
    cases a with
    | sig signum handler pPrivate caller => rfl
    | io handler pPrivate caller => rfl
  | handle op =>
    obtain ⟨hcheck, hop⟩ := step_handle N h
    rcases handle_cases N hop with ⟨i, f, sighandler, hf, rfl⟩ | ⟨ioHandler, pIoHandlerPrivate, rfl⟩
    · exact view_of_eq (pending_setSig fun d => (hf d).1) rfl
    · rfl

/-- **A run of the program is one of handlers that run one inside the other.** -/
theorem run_dispatches {acts : List (Act F G)} (hs : s.Right) (hrun : run (step N) s acts = some s') :
    run Dispatch.step s.view (labels (step N) (label N) s acts) = some s'.view :=
  run_labels (fun _ _ _ => step_right N) (fun _ _ _ => step_view N) hs hrun

/-- The step that begins a handler. -/
theorem step_take {a : Act F G} {k : Source} (hk : .take k ∈ label N s a) (h : step N s a = some s') :
    s'.activations = k :: s.activations := by
  cases a with
  | arrive signum =>
    rw [label] at hk
    split at hk
    · cases List.mem_singleton.mp hk
    · cases hk
  | next =>
    obtain ⟨c, hc, hexec⟩ := Option.bind_eq_some_iff.mp h
    have hat := activations_at hc
    have hbegins : c.pc.begins = some k := by simpa [label, hc] using hk
    obtain ⟨args, pc⟩ := c
    cases pc with
    | ioRun | clear i =>
      obtain rfl := Option.some.inj hbegins
      obtain rfl := Option.some.inj hexec
      exact congrArg (List.cons _) hat.symm
    | _ => cases hbegins
  | leave => cases List.mem_singleton.mp hk
  | enter args => cases hk
  | handle op => cases hk

/-! ### Which signals are heeded -/

/-- What handlers there are, and what the system calls. -/
theorem exec_handlers (h : s.exec N c = some s') : s'.installed = s.installed ∧ s'.sighandler = s.sighandler := by
  obtain ⟨args, pc⟩ := c
  cases pc with
  | ioTest | testRunning i | disarm i | testHandler i =>
    rcases branch_cases h with ⟨-, rfl⟩ | ⟨-, rfl⟩
    · exact ⟨rfl, rfl⟩
    · exact ⟨rfl, rfl⟩
  | test i =>
    simp only [exec] at h
    split at h
    · obtain rfl := Option.some.inj h
      exact ⟨rfl, rfl⟩
    · rcases branch_cases h with ⟨-, rfl⟩ | ⟨-, rfl⟩
      · exact ⟨rfl, rfl⟩
      · exact ⟨rfl, rfl⟩
  | ioRun | ioDone =>
    obtain rfl := Option.some.inj h
    exact ⟨rfl, rfl⟩
  | ioCall | call i =>
    obtain ⟨handler, -, rfl⟩ := Option.map_eq_some_iff.mp h
    exact ⟨rfl, rfl⟩
  | run i | done i =>
    obtain rfl := Option.some.inj h
    exact ⟨installed_running (s := s) .., rfl⟩
  | clear i =>
    obtain rfl := Option.some.inj h
    exact ⟨installed_pending (s := s) .., rfl⟩

/-- The system calls the common sighandler for a signal that has a handler. The alarm of another handler may
have taken the place of that of SIGALRM. -/
def Sysutil.Heard (s : Sysutil F G) : Prop :=
  ∀ i, s.installed (.sig i) = true →
    i < N.nsig ∧ (s.sighandler i = .common ∨ ((i : ℤ) = N.number .alrm ∧ s.sighandler i = .alrm))

theorem Sysutil.Heard.of_eq (hs : s.Heard N) (hinstalled : s'.installed = s.installed)
    (hsighandler : s'.sighandler = s.sighandler) : s'.Heard N := by
  intro i hi
  rw [hsighandler]
  rw [hinstalled] at hi
  exact hs i hi

theorem translateSig_lt {sig : SysUtilSignal} {realsig : ℕ} (h : N.translateSig sig = some realsig) :
    realsig < N.nsig := by
  simp only [SigNumbers.translateSig] at h
  split at h
  · cases h
  · obtain rfl := Option.some.inj h
    omega

/-- A signal gets a handler, or loses it. -/
theorem Sysutil.Heard.of_others {realsig : ℕ} (hs : s.Heard N)
    (hothers : ∀ i ≠ realsig, s'.installed (.sig i) = s.installed (.sig i) ∧ s'.sighandler i = s.sighandler i)
    (hself : s'.installed (.sig realsig) = true → realsig < N.nsig ∧ s'.sighandler realsig = .common) :
    s'.Heard N := by
  intro i hi
  by_cases hne : i = realsig
  · rw [hne] at hi ⊢
    exact ⟨(hself hi).1, .inl (hself hi).2⟩
  · obtain ⟨hinstalled, hsighandler⟩ := hothers i hne
    rw [hinstalled] at hi
    rw [hsighandler]
    exact hs i hi

/-- The alarm of a handler takes the place of what is called for SIGALRM. -/
theorem Sysutil.Heard.alrm (hs : s.Heard N) :
    { s with sighandler := Function.update s.sighandler (N.number .alrm) .alrm }.Heard N := by
  intro i hi
  obtain ⟨hlt, hcalls⟩ := hs i hi
  refine ⟨hlt, ?_⟩
  by_cases halrm : (i : ℤ) = N.number .alrm
  · right
    refine ⟨halrm, ?_⟩
    rw [halrm]
    exact Function.update_self ..
  · have hsighandler := Function.update_of_ne halrm Sighandler.alrm s.sighandler
    rw [← hsighandler] at hcalls
    exact hcalls

theorem sighandler_of_ne {i realsig : ℕ} {handler : Sighandler} (hi : i ≠ realsig) :
    Function.update s.sighandler (realsig : ℤ) handler i = s.sighandler i :=
  Function.update_of_ne (fun heq => hi (Int.ofNat.inj heq)) ..

theorem installSighandler_heard {sig : SysUtilSignal} {handler : F} {pPrivate : ℕ} {useAlarm : Bool} (hs : s.Heard N)
    (h : s.installSighandler N sig handler pPrivate useAlarm = some s') : s'.Heard N := by
  obtain ⟨realsig, hrealsig, rfl⟩ := Option.map_eq_some_iff.mp h
  have hinstall : ({ s.setSig realsig fun d => { d with pPrivate, syncSigHandler := some handler, useAlarm } with
      sighandler := Function.update s.sighandler realsig .common } : Sysutil F G).Heard N := by
    refine hs.of_others N (fun i hi => ⟨?_, sighandler_of_ne hi⟩) fun _ => ?_
    · simp [installed, setSig, hi]
    · exact ⟨translateSig_lt N hrealsig, Function.update_self ..⟩
  simp only
  split
  · exact hinstall.alrm N
  · exact hinstall

theorem dropSighandler_heard {sig : SysUtilSignal} {handler : Sighandler} (hs : s.Heard N)
    (h : s.dropSighandler N sig handler = some s') : s'.Heard N := by
  obtain ⟨realsig, -, rfl⟩ := Option.map_eq_some_iff.mp h
  refine hs.of_others N (fun i hi => ⟨?_, sighandler_of_ne hi⟩) fun hself => ?_
  · simp [installed, setSig, hi]
  · simp [installed, setSig] at hself

theorem handle_heard {op : HandlerOp F G} (hs : s.Heard N) (h : s.handle N op = some s') : s'.Heard N := by
  cases op with
  | install sig handler pPrivate useAlarm => exact installSighandler_heard N hs h
  | default sig => exact dropSighandler_heard N hs h
  | installNull sig => exact dropSighandler_heard N hs h
  | installIo handler pPrivate =>
    simp only [handle, installIoHandler] at h
    split at h
    · cases h
    · obtain rfl := Option.some.inj h
      exact hs
  | uninstallIo =>
    simp only [handle, uninstallIoHandler] at h
    split at h
    · obtain rfl := Option.some.inj h
      exact hs
    · cases h

theorem step_heard {a : Act F G} (hs : s.Heard N) (h : step N s a = some s') : s'.Heard N := by
  cases a with
  | arrive signum =>
    obtain rfl := Option.some.inj h
    rcases arrive_cases N s signum with ⟨-, alarm, harrive⟩ | ⟨-, alarm, harrive⟩
    · rw [harrive]
      exact hs.of_eq N (installed_pending (s := s) ..) rfl
    · rw [harrive]
      exact hs
  | next =>
    obtain ⟨c, -, hexec⟩ := Option.bind_eq_some_iff.mp h
    obtain ⟨hinstalled, hsighandler⟩ := exec_handlers N hexec
    exact hs.of_eq N hinstalled hsighandler
  | enter args =>
    obtain ⟨-, rfl⟩ := step_enter N h
    exact hs
  | leave =>
    obtain ⟨-, a, live, -, rfl⟩ := step_leave N h
    exact hs
  | handle op =>
    obtain ⟨-, hop⟩ := step_handle N h
    exact handle_heard N hs hop

theorem heard_of_run {acts : List (Act F G)} (hrun : run (step N) start acts = some s) : s.Heard N :=
  run_invariant (fun _ _ _ => step_heard N) (fun _ hi => by cases hi) hrun

/-- **A signal that has a handler is heeded**, but for SIGALRM where the alarm of another handler has taken its
place. -/
theorem installed_heeds {acts : List (Act F G)} {i : ℕ} (hrun : run (step N) start acts = some s)
    (hi : s.installed (.sig i) = true) (hkept : (i : ℤ) = N.number .alrm → s.sighandler i ≠ .alrm) :
    s.Heeds N i := by
  obtain ⟨hlt, hcalls⟩ := heard_of_run N hrun i hi
  refine ⟨?_, Int.natCast_nonneg i, Int.ofNat_lt.mpr hlt, hi⟩
  rcases hcalls with hcommon | ⟨hnumber, halrm⟩
  · exact hcommon
  · exact absurd halrm (hkept hnumber)

/-! ### The dispatch -/

/-- **What runs has begun once and not ended.** -/
theorem activations_count_le_one {acts : List (Act F G)} (hrun : run (step N) start acts = some s) (k : Source) :
    s.activations.count k ≤ 1 := by
  have hstart : (start : Sysutil F G).view.live.Nodup := List.nodup_nil
  exact List.nodup_iff_count_le_one.mp (Dispatch.run_nodup hstart (run_dispatches N right_start hrun)) k

theorem arrive_pending {signum : ℤ} (hheeds : s.Heeds N signum) :
    (s.arrive N signum).pending (.sig signum.toNat) = true := by
  rcases arrive_cases N s signum with ⟨-, alarm, harrive⟩ | ⟨hnot, -⟩
  · have hpending := congrFun (pending_pending (s := s) signum.toNat true) (.sig signum.toNat)
    rw [harrive]
    exact hpending.trans (Function.update_self ..)
  · exact absurd hheeds hnot

/-- **A pending flag that is up stays up until the handler begins.** -/
theorem pending_until_begun {acts : List (Act F G)} {i : ℕ} (hs : s.Right) (hpending : s.pending (.sig i) = true)
    (hrun : run (step N) s acts = some s') :
    s'.pending (.sig i) = true ∨
      ∃ mid a rest s2 s3, acts = mid ++ a :: rest ∧ run (step N) s mid = some s2 ∧ step N s2 a = some s3 ∧
        s3.activations = .sig i :: s2.activations := by
  have hview : s.view.pending (.sig i) = true := hpending
  rcases Dispatch.raised_until_taken hview (run_dispatches N hs hrun) with hup | htake
  · exact .inl hup
  · right
    obtain ⟨mid, a, rest, s2, rfl, hmid, htake⟩ := mem_labels htake
    obtain ⟨s2', hmid', hrest⟩ := run_append_eq_some hrun
    obtain rfl : s2 = s2' := Option.some.inj (hmid.symm.trans hmid')
    obtain ⟨s3, hs3, -⟩ := run_cons_eq_some hrest
    exact ⟨mid, a, rest, s2, s3, rfl, hmid, hs3, step_take N htake hs3⟩

/-- **A handler is entered once at a time, and no signal is lost**: its flag is up until an activation begins
behind it. An activation begins in front of the call, which is the next statement. -/
theorem synchronous_dispatch {acts : List (Act F G)} (hrun : run (step N) start acts = some s) :
    (∀ k, s.activations.count k ≤ 1) ∧
    (∀ before signum after s1, acts = before ++ .arrive signum :: after → run (step N) start before = some s1 →
      s1.Heeds N signum → s.pending (.sig signum.toNat) = true ∨
        ∃ mid a rest s2 s3, after = mid ++ a :: rest ∧
          run (step N) start (before ++ .arrive signum :: mid) = some s2 ∧ step N s2 a = some s3 ∧
          s3.activations = .sig signum.toNat :: s2.activations) ∧
    ∀ c k, s.check = some c → c.pc.begun = some k →
      (∃ a : Activation F G, a.source = k ∧ step N s .next = some { s with check := none, live := a :: s.live }) ∧
        ∀ a s', step N s a = some s' → a = .next ∨ ∃ signum, a = .arrive signum := by
  refine ⟨activations_count_le_one N hrun, ?_, fun c k hc hk => begun_next N (right_of_run N hrun) hc hk⟩
  rintro before signum after s1 rfl hbefore hheeds
  obtain ⟨s1', hbefore', hafter⟩ := run_append_eq_some hrun
  obtain rfl : s1 = s1' := Option.some.inj (hbefore.symm.trans hbefore')
  obtain ⟨s1a, harrive, hafter⟩ := run_cons_eq_some hafter
  have hright := step_right N (right_of_run N hbefore) harrive
  obtain rfl := Option.some.inj harrive
  rcases pending_until_begun N hright (arrive_pending N hheeds) hafter with hup | hbegun
  · exact .inl hup
  · right
    obtain ⟨mid, a, rest, s2, s3, rfl, hmid, hs3, hbegin⟩ := hbegun
    have hpath : run (step N) s1 (.arrive signum :: mid) = some s2 := hmid
    exact ⟨mid, a, rest, s2, s3, rfl, run_append_of_eq_some hbefore hpath, hs3, hbegin⟩

end

/-- The numbers of Linux. -/
def linux : SigNumbers where
  nsig := 65
  number
    | .alrm => 14
    | .term => 15
    | .chld => 17
    | .pipe => 13
    | .urg => 23
    | .hup => 1

/-- A hangup comes, the i/o handler comes to a check, and this calls the handler of the hangup. -/
def hangup : List (Act Unit Unit) :=
  [.handle (.install .hup () 0 false), .handle (.installIo () 0), .arrive 1, .enter ⟨.io, 0, 0⟩, .next, .next, .next,
    .enter ⟨.io, 0, 0⟩, .next, .next, .next, .next, .next, .next, .next, .next, .next]

/-- Then the handler of the hangup comes to a check as well. -/
def checkAgain : List (Act Unit Unit) := [.enter ⟨.io, 0, 0⟩, .next, .next, .next, .next]

/-- A hangup that comes while its handler runs stays pending, and the i/o handler is not called again either. -/
theorem synchronous_dispatch_hangup :
    ∃ s : Sysutil Unit Unit, run (step linux) start (hangup ++ .arrive 1 :: checkAgain) = some s ∧
      s.activations = [.sig 1, .io] ∧ (∀ k, s.activations.count k ≤ 1) ∧
      (s.pending (.sig 1) = true ∨
        ∃ mid a rest s2 s3, checkAgain = mid ++ a :: rest ∧
          run (step linux) start (hangup ++ .arrive 1 :: mid) = some s2 ∧ step linux s2 a = some s3 ∧
          s3.activations = .sig 1 :: s2.activations) := by
  have hrunning : (run (step linux) start (hangup ++ .arrive 1 :: checkAgain)).map activations =
      some [.sig 1, .io] := by decide
  have hheard : (run (step linux) start hangup).map (fun s => decide (s.Heeds linux 1)) = some true := by decide
  obtain ⟨s, hs, hactivations⟩ := Option.map_eq_some_iff.mp hrunning
  obtain ⟨s1, hs1, hheeds⟩ := Option.map_eq_some_iff.mp hheard
  obtain ⟨hcount, harrived, -⟩ := synchronous_dispatch linux hs
  exact ⟨s, hs, hactivations, hcount, harrived hangup 1 checkAgain s1 rfl hs1 (of_decide_eq_true hheeds)⟩

end CosFtp.PendingActions
