/-
# A check in which nothing else happens

`vsf_sysutil_check_pending_actions` in a program that does nothing meanwhile: the
handlers return at once, and no signal comes. The check calls the i/o handler, and
then the handlers of the signals that are pending, in the order of their numbers,
an alarm in front of urgent data. A signal is still pending behind the check only
if its handler runs, further out, or is not there.

Key definitions: `Undisturbed`, `Sysutil.turns`, `SigDetails.served`.
Key theorems: `loop_undisturbed`, `check_undisturbed`.
-/
import CosFtp.PendingActions
import Mathlib.Data.List.Range

namespace CosFtp.PendingActions

open Run Sysutil

variable {F G : Type} (N : SigNumbers) {s s' : Sysutil F G} {c : Check}

/-! ### What a check does on its own -/

/-- A check calls the handler of this signal. -/
def SigDetails.due (d : SigDetails F) : Bool := d.pending && !d.running && d.syncSigHandler.isSome

/-- Behind the check. -/
def SigDetails.served (d : SigDetails F) : SigDetails F := if d.due then { d with pending := false } else d

/-- The i/o handler, if a check calls it. -/
def Sysutil.ioDue (s : Sysutil F G) (args : CheckArgs) : Prop :=
  s.ioHandler.isSome ∧ s.ioHandlerRunning = false ∧ args.context = .io

instance (s : Sysutil F G) (args : CheckArgs) : Decidable (s.ioDue args) := inferInstanceAs (Decidable (_ ∧ _ ∧ _))

/-- The handlers that a check calls. -/
def Sysutil.turns (s : Sysutil F G) (args : CheckArgs) : List Source :=
  (if s.ioDue args then [.io] else []) ++
    ((List.range N.nsig).filter fun i => (s.sigDetails i).due).map .sig

/-- A handler begins, and returns. -/
def handled (k : Source) : List (Dispatch.Act Source) := [.take k, .finish]

/-- The statements of a check, and the returns of the handlers that it calls, lead from one state to another;
what they do to the handlers. -/
inductive Undisturbed : Sysutil F G → List (Dispatch.Act Source) → Sysutil F G → Prop where
  | refl (s : Sysutil F G) : Undisturbed s [] s
  | next {s t s' : Sysutil F G} {c : Check} {bs : List (Dispatch.Act Source)} (hc : s.check = some c)
      (hexec : s.exec N c = some t) (hrest : Undisturbed t bs s') :
      Undisturbed s (c.pc.begins.toList.map .take ++ bs) s'
  | leave {s t s' : Sysutil F G} {bs : List (Dispatch.Act Source)} (hleave : step N s .leave = some t)
      (hrest : Undisturbed t bs s') : Undisturbed s (.finish :: bs) s'

theorem Undisturbed.exists_run {bs : List (Dispatch.Act Source)} (h : Undisturbed N s bs s') :
    ∃ acts, (∀ a ∈ acts, a = .next ∨ a = .leave) ∧ run (step N) s acts = some s' ∧
      labels (step N) (label N) s acts = bs := by
  induction h with
  | refl s => exact ⟨[], fun a ha => by simp at ha, rfl, rfl⟩
  | @next s t s' c bs hc hexec hrest ih =>
    obtain ⟨acts, hacts, hrun, rfl⟩ := ih
    have hstep : step N s .next = some t := Option.bind_eq_some_iff.mpr ⟨c, hc, hexec⟩
    refine ⟨.next :: acts, List.forall_mem_cons.mpr ⟨.inl rfl, hacts⟩, ?_, ?_⟩
    · exact Option.bind_eq_some_iff.mpr ⟨t, hstep, hrun⟩
    · rw [labels, hstep, label, hc]
      rfl
  | @leave s t s' bs hleave hrest ih =>
    obtain ⟨acts, hacts, hrun, rfl⟩ := ih
    refine ⟨.leave :: acts, List.forall_mem_cons.mpr ⟨.inr rfl, hacts⟩, ?_, ?_⟩
    · exact Option.bind_eq_some_iff.mpr ⟨t, hleave, hrun⟩
    · rw [labels, hleave]
      rfl

theorem Undisturbed.trans {s1 : Sysutil F G} {bs bs' : List (Dispatch.Act Source)} (h : Undisturbed N s bs s1)
    (h' : Undisturbed N s1 bs' s') : Undisturbed N s (bs ++ bs') s' := by
  induction h with
  | refl s => exact h'
  | next hc hexec hrest ih =>
    rw [List.append_assoc]
    exact .next hc hexec (ih h')
  | leave hleave hrest ih => exact .leave hleave (ih h')

/-- A statement that begins no handler. -/
theorem Undisturbed.idle {t : Sysutil F G} {bs : List (Dispatch.Act Source)} (hc : s.check = some c)
    (hbegins : c.pc.begins = none) (hexec : s.exec N c = some t) (hrest : Undisturbed N t bs s') :
    Undisturbed N s bs s' := by
  have hnext := Undisturbed.next hc hexec hrest
  rw [hbegins] at hnext
  exact hnext

/-- A statement that begins one. -/
theorem Undisturbed.begin {t : Sysutil F G} {bs : List (Dispatch.Act Source)} {k : Source} (hc : s.check = some c)
    (hbegins : c.pc.begins = some k) (hexec : s.exec N c = some t) (hrest : Undisturbed N t bs s') :
    Undisturbed N s (.take k :: bs) s' := by
  have hnext := Undisturbed.next hc hexec hrest
  rw [hbegins] at hnext
  exact hnext

theorem setSig_setSig (i : ℕ) (f g : SigDetails F → SigDetails F) :
    (s.setSig i f).setSig i g = s.setSig i fun d => g (f d) := by
  simp [setSig]

theorem setSig_eq_self {i : ℕ} {f : SigDetails F → SigDetails F} (hf : f (s.sigDetails i) = s.sigDetails i) :
    s.setSig i f = s := by
  rw [setSig, hf, Function.update_eq_self]

/-- The signal is pending, and its handler does not run: the way to the handler. -/
theorem entry_undisturbed (args : CheckArgs) {i : ℕ} (hi : i < N.nsig) (hpending : (s.sigDetails i).pending = true)
    (hrunning : (s.sigDetails i).running = false) :
    ∃ alarm, Undisturbed N { s with check := some ⟨args, .test i⟩ } []
      { s.setSig i (fun d => { d with running := true }) with alarm, check := some ⟨args, .testHandler i⟩ } := by
  have hnsig : ¬ N.nsig ≤ i := Nat.not_le.mpr hi
  refine ⟨if (s.sigDetails i).useAlarm then 0 else s.alarm, ?_⟩
  refine .idle N (t := { s with check := some ⟨args, .testRunning i⟩ }) rfl rfl ?_ ?_
  · simp [exec, hnsig, hpending, goto]
  refine .idle N (t := { s with check := some ⟨args, .run i⟩ }) rfl rfl ?_ ?_
  · simp [exec, hrunning, goto]
  refine .idle N rfl rfl rfl (.idle N rfl rfl ?_ (.refl _))
  simp only [exec, goto, setSig, Function.update_self]
  split
  · rfl
  · rfl

theorem setSig_congr {i : ℕ} {f g : SigDetails F → SigDetails F} (hfg : f (s.sigDetails i) = g (s.sigDetails i)) :
    s.setSig i f = s.setSig i g := by
  rw [setSig, setSig, hfg]

/-- A signal that is due: its handler is called, and returns. -/
theorem due_undisturbed (args : CheckArgs) {i : ℕ} (hi : i < N.nsig) (hdue : (s.sigDetails i).due = true) :
    ∃ alarm, Undisturbed N { s with check := some ⟨args, .test i⟩ } (handled (.sig i))
      { s.setSig i (fun d => { d with pending := false }) with alarm, check := some ⟨args, .test (i + 1)⟩ } := by
  obtain ⟨⟨hpending, hrunning⟩, hinstalled⟩ :
      ((s.sigDetails i).pending = true ∧ (s.sigDetails i).running = false) ∧
        (s.sigDetails i).syncSigHandler.isSome = true := by simpa [SigDetails.due] using hdue
  obtain ⟨handler, hhandler⟩ := Option.isSome_iff_exists.mp hinstalled
  obtain ⟨alarm, hentry⟩ := entry_undisturbed N args hi hpending hrunning
  refine ⟨alarm, hentry.trans N ?_⟩
  let s1 := s.setSig i fun d => { d with running := true }
  let s2 := s1.setSig i fun d => { d with pending := false }
  let caller : Activation F G := .sig i handler (s.sigDetails i).pPrivate args
  have hback : (s2.setSig i fun d => { d with running := false }) =
      s.setSig i fun d => { d with pending := false } := by
    rw [setSig_setSig, setSig_setSig]
    refine setSig_congr ?_
    rw [← hrunning]
  refine .idle N (t := { s1 with alarm, check := some ⟨args, .clear i⟩ }) rfl rfl ?_ ?_
  · simp [s1, exec, goto, setSig, hinstalled]
  refine .begin N (t := { s2 with alarm, check := some ⟨args, .call i⟩ }) rfl rfl rfl ?_
  refine .idle N (t := { s2 with alarm, check := none, live := caller :: s.live }) rfl rfl ?_ ?_
  · simp [s1, s2, caller, exec, setSig, hhandler]
  refine .leave (t := { s2 with alarm, check := some ⟨args, .done i⟩ }) rfl ?_
  refine .idle N rfl rfl rfl ?_
  rw [← hback]
  exact .refl _

/-- A signal that is not: no handler is called for it. -/
theorem not_due_undisturbed (args : CheckArgs) {i : ℕ} (hi : i < N.nsig) (hdue : (s.sigDetails i).due = false) :
    ∃ alarm, Undisturbed N { s with check := some ⟨args, .test i⟩ } []
      { s with alarm, check := some ⟨args, .test (i + 1)⟩ } := by
  have hnsig : ¬ N.nsig ≤ i := Nat.not_le.mpr hi
  cases hpending : (s.sigDetails i).pending with
  | false =>
    refine ⟨s.alarm, .idle N rfl rfl ?_ (.refl _)⟩
    simp [exec, hnsig, hpending, goto]
  | true =>
    cases hrunning : (s.sigDetails i).running with
    | true =>
      refine ⟨s.alarm, .idle N (t := { s with check := some ⟨args, .testRunning i⟩ }) rfl rfl ?_
        (.idle N rfl rfl ?_ (.refl _))⟩
      · simp [exec, hnsig, hpending, goto]
      · simp [exec, hrunning, goto]
    | false =>
      have hinstalled : (s.sigDetails i).syncSigHandler.isSome = false := by
        simpa [SigDetails.due, hpending, hrunning] using hdue
      obtain ⟨alarm, hentry⟩ := entry_undisturbed N args hi hpending hrunning
      refine ⟨alarm, hentry.trans N ?_⟩
      let s1 := s.setSig i fun d => { d with running := true }
      have hback : (s1.setSig i fun d => { d with running := false }) = s := by
        rw [setSig_setSig]
        refine setSig_eq_self ?_
        rw [← hrunning]
      refine .idle N (t := { s1 with alarm, check := some ⟨args, .done i⟩ }) rfl rfl ?_ ?_
      · simp [s1, exec, goto, setSig, hinstalled]
      refine .idle N (t := { s1.setSig i (fun d => { d with running := false }) with
        alarm, check := some ⟨args, .test (i + 1)⟩ }) rfl rfl rfl ?_
      rw [hback]
      exact .refl _

/-- The first signal of a loop, and the others. -/
theorem served_from_succ {s1 : Sysutil F G} {i : ℕ} (hi : i < N.nsig)
    (hself : s1.sigDetails i = (s.sigDetails i).served) (hothers : ∀ j ≠ i, s1.sigDetails j = s.sigDetails j) (j : ℕ) :
    (if i + 1 ≤ j ∧ j < N.nsig then (s1.sigDetails j).served else s1.sigDetails j) =
      if i ≤ j ∧ j < N.nsig then (s.sigDetails j).served else s.sigDetails j := by
  by_cases hj : j = i
  · rw [hj, if_neg (by omega), if_pos (by omega), hself]
  · have hrange : i + 1 ≤ j ∧ j < N.nsig ↔ i ≤ j ∧ j < N.nsig := by omega
    simp only [hrange, hothers j hj]

/-- **The loop handles what is due, in the order of the numbers.** -/
theorem loop_undisturbed (args : CheckArgs) {n i : ℕ} (hn : i + n = N.nsig) :
    ∃ s', Undisturbed N { s with check := some ⟨args, .test i⟩ }
        (((List.range' i n).filter fun j => (s.sigDetails j).due).flatMap fun j => handled (.sig j)) s' ∧
      s'.check = none ∧ s'.live = s.live ∧
      ∀ j, s'.sigDetails j = if i ≤ j ∧ j < N.nsig then (s.sigDetails j).served else s.sigDetails j := by
  induction n generalizing s i with
  | zero =>
    refine ⟨{ s with check := none }, .idle N rfl rfl ?_ (.refl _), rfl, rfl, fun j => ?_⟩
    · have hnsig : N.nsig ≤ i := by omega
      simp [exec, hnsig]
    · rw [if_neg (by omega)]
  | succ n ih =>
    have hi : i < N.nsig := by omega
    rw [List.range'_succ, List.filter_cons]
    cases hdue : (s.sigDetails i).due with
    | true =>
      obtain ⟨alarm, hbody⟩ := due_undisturbed N args hi hdue
      let s1 : Sysutil F G := { s.setSig i (fun d => { d with pending := false }) with alarm }
      obtain ⟨s', hrest, hcheck, hlive, hdetails⟩ := ih (s := s1) (i := i + 1) (by omega)
      have hothers : ∀ j ≠ i, s1.sigDetails j = s.sigDetails j := fun j hj => Function.update_of_ne hj ..
      have hself : s1.sigDetails i = (s.sigDetails i).served := by
        have hserved : (s.sigDetails i).served = { s.sigDetails i with pending := false } := if_pos hdue
        rw [hserved]
        exact Function.update_self ..
      have hlater : (List.range' (i + 1) n).filter (fun j => (s1.sigDetails j).due) =
          (List.range' (i + 1) n).filter fun j => (s.sigDetails j).due := by
        refine List.filter_congr fun j hj => ?_
        have hmem := List.mem_range'_1.mp hj
        rw [hothers j (by omega)]
      rw [hlater] at hrest
      refine ⟨s', hbody.trans N hrest, hcheck, hlive, fun j => ?_⟩
      rw [hdetails]
      exact served_from_succ N hi hself hothers j
    | false =>
      obtain ⟨alarm, hbody⟩ := not_due_undisturbed N args hi hdue
      obtain ⟨s', hrest, hcheck, hlive, hdetails⟩ := ih (s := { s with alarm }) (i := i + 1) (by omega)
      have hserved : (s.sigDetails i).served = s.sigDetails i := if_neg (by rw [hdue]; exact Bool.false_ne_true)
      refine ⟨s', hbody.trans N hrest, hcheck, hlive, fun j => ?_⟩
      rw [hdetails]
      exact served_from_succ N hi hserved.symm (fun _ _ => rfl) j

theorem io_undisturbed (args : CheckArgs) :
    Undisturbed N { s with check := some ⟨args, .ioTest⟩ } (if s.ioDue args then handled .io else [])
      { s with check := some ⟨args, .test 0⟩ } := by
  by_cases hio : s.ioDue args
  · obtain ⟨handler, hhandler⟩ := Option.isSome_iff_exists.mp hio.1
    let s1 : Sysutil F G := { s with ioHandlerRunning := true }
    let caller : Activation F G := .io handler s.pIoHandlerPrivate args
    have hback : { s1 with ioHandlerRunning := false, check := some ⟨args, .test 0⟩ } =
        { s with check := some ⟨args, .test 0⟩ } := by rw [← hio.2.1]
    rw [if_pos hio]
    refine .idle N (t := { s with check := some ⟨args, .ioRun⟩ }) rfl rfl (if_pos hio) ?_
    refine .begin N (t := { s1 with check := some ⟨args, .ioCall⟩ }) rfl rfl rfl ?_
    refine .idle N (t := { s1 with check := none, live := caller :: s.live }) rfl rfl ?_ ?_
    · simp [s1, caller, exec, hhandler]
    refine .leave (t := { s1 with check := some ⟨args, .ioDone⟩ }) rfl ?_
    refine .idle N (t := { s1 with ioHandlerRunning := false, check := some ⟨args, .test 0⟩ }) rfl rfl rfl ?_
    rw [hback]
    exact .refl _
  · rw [if_neg hio]
    exact .idle N rfl rfl (if_neg hio) (.refl _)

/-- **A check in which nothing else happens calls the i/o handler and then the handlers of what is pending, in the
order of the numbers**, each of them unless it runs or is not there, and leaves nothing of it pending. -/
theorem check_undisturbed (args : CheckArgs) (hcheck : s.check = none) :
    ∃ acts s', (∀ a ∈ acts, a = .next ∨ a = .leave) ∧ run (step N) s (.enter args :: acts) = some s' ∧
      labels (step N) (label N) s (.enter args :: acts) = (s.turns N args).flatMap handled ∧
      s'.check = none ∧ s'.live = s.live ∧ ∀ i < N.nsig, s'.sigDetails i = (s.sigDetails i).served := by
  obtain ⟨s', hloop, hcheck', hlive, hdetails⟩ := loop_undisturbed N (s := s) args (Nat.zero_add _)
  have hall := (io_undisturbed N args).trans N hloop
  obtain ⟨acts, hacts, hrun, hlabels⟩ := hall.exists_run N
  have henter : step N s (.enter args) = some { s with check := some ⟨args, .ioTest⟩ } := by simp [step, hcheck]
  refine ⟨acts, s', hacts, ?_, ?_, hcheck', hlive, fun i hi => ?_⟩
  · exact Option.bind_eq_some_iff.mpr ⟨_, henter, hrun⟩
  · rw [labels, henter]
    refine hlabels.trans ?_
    rw [turns, List.flatMap_append, List.flatMap_map, List.range_eq_range']
    congr 1
    split
    · rfl
    · rfl
  · rw [hdetails, if_pos ⟨Nat.zero_le i, hi⟩]

/-- An alarm and a hangup are pending. -/
def twoPending : Sysutil Unit Unit where
  sigDetails i := if i = 1 ∨ i = 14 then { syncSigHandler := some (), pending := true } else {}

/-- The handler of the hangup is called, and then that of the alarm. -/
theorem check_undisturbed_two : ∃ acts s', run (step linux) twoPending (.enter ⟨.io, 0, 0⟩ :: acts) = some s' ∧
    labels (step linux) (label linux) twoPending (.enter ⟨.io, 0, 0⟩ :: acts) =
      [.take (.sig 1), .finish, .take (.sig 14), .finish] := by
  obtain ⟨acts, s', -, hrun, hlabels, -⟩ := check_undisturbed linux (s := twoPending) ⟨.io, 0, 0⟩ rfl
  have hturns : twoPending.turns linux ⟨.io, 0, 0⟩ = [.sig 1, .sig 14] := by decide
  rw [hturns] at hlabels
  exact ⟨acts, s', hrun, hlabels⟩

end CosFtp.PendingActions
