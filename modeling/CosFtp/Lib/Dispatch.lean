/-
# Handlers that run one inside the other

Each source has a flag, which is raised at any time. A program that finds a flag
up takes it down and runs the handler of its source; a handler may look at the
flags itself, so handlers run one inside the other and end in the opposite order.
The handler of a source that is being handled is not begun again, and so each
source is handled once at most at any time; a flag that is up stays up until the
handler of its source begins.

A program that cannot look at what is under way keeps a second flag for each
source, up while it is handled. `Guarded` says that these flags are right.

Key definitions: `State`, `step`, `Guarded`.
Key theorems: `run_nodup`, `raised_until_taken`, `Guarded.push`, `Guarded.pop`.
-/
import CosFtp.Lib.Run
import Mathlib.Data.List.Nodup
import Mathlib.Logic.Function.Basic

namespace Dispatch

open Run

variable {κ : Type} [DecidableEq κ]

/-! ### The machine -/

/-- The flags, and the sources that are being handled, the innermost first. -/
structure State (κ : Type) where
  pending : κ → Bool
  live : List κ

inductive Act (κ : Type) where
  | raise (k : κ)
  /-- the flag is taken down and the handler begins -/
  | take (k : κ)
  /-- the innermost handler ends -/
  | finish

def step (s : State κ) : Act κ → Option (State κ)
  | .raise k => some { s with pending := Function.update s.pending k true }
  | .take k =>
    if k ∈ s.live then none
    else some { pending := Function.update s.pending k false, live := k :: s.live }
  | .finish =>
    match s.live with
    | [] => none
    | _ :: live => some { s with live }

/-- A step takes a flag down to begin its handler, and for nothing else. -/
theorem step_pending {s s' : State κ} {a : Act κ} {k : κ} (hk : s.pending k = true) (h : step s a = some s') :
    s'.pending k = true ∨ a = .take k := by
  cases a with
  | raise j =>
    obtain rfl := Option.some.inj h
    left
    by_cases hj : k = j
    · rw [hj]
      exact Function.update_self ..
    · exact (Function.update_of_ne hj ..).trans hk
  | take j =>
    obtain ⟨-, rfl⟩ : j ∉ s.live ∧ { pending := Function.update s.pending j false, live := j :: s.live } = s' := by
      simpa [step] using h
    by_cases hj : k = j
    · right
      rw [hj]
    · left
      exact (Function.update_of_ne hj ..).trans hk
  | finish =>
    left
    simp only [step] at h
    split at h
    · cases h
    · obtain rfl := Option.some.inj h
      exact hk

theorem step_nodup {s s' : State κ} {a : Act κ} (hs : s.live.Nodup) (h : step s a = some s') : s'.live.Nodup := by
  cases a with
  | raise k =>
    obtain rfl := Option.some.inj h
    exact hs
  | take k =>
    obtain ⟨hk, rfl⟩ : k ∉ s.live ∧ { pending := Function.update s.pending k false, live := k :: s.live } = s' := by
      simpa [step] using h
    exact List.nodup_cons.mpr ⟨hk, hs⟩
  | finish =>
    simp only [step] at h
    split at h
    · cases h
    · next hlive =>
      obtain rfl := Option.some.inj h
      rw [hlive] at hs
      exact hs.of_cons

/-- **No source is handled twice at one time.** -/
theorem run_nodup {s s' : State κ} {as : List (Act κ)} (hs : s.live.Nodup) (hrun : run step s as = some s') :
    s'.live.Nodup := run_invariant (fun _ _ _ => step_nodup) hs hrun

/-- **A flag that is up stays up until its handler begins.** -/
theorem raised_until_taken {s s' : State κ} {as : List (Act κ)} {k : κ} (hk : s.pending k = true)
    (hrun : run step s as = some s') : s'.pending k = true ∨ .take k ∈ as := by
  induction as generalizing s with
  | nil =>
    obtain rfl := Option.some.inj hrun
    exact .inl hk
  | cons a as ih =>
    obtain ⟨s1, hs1, hrest⟩ := run_cons_eq_some hrun
    rcases step_pending hk hs1 with hk1 | rfl
    · exact (ih hk1 hrest).imp_right (List.mem_cons_of_mem a)
    · exact .inr List.mem_cons_self

/-! ### The flags of what is under way -/

/-- The sources under way, each of them once, are those whose flags are up. -/
structure Guarded (held : List κ) (flag : κ → Bool) : Prop where
  nodup : held.Nodup
  up_iff : ∀ k, flag k = true ↔ k ∈ held

variable {held : List κ} {flag : κ → Bool}

omit [DecidableEq κ] in
theorem guarded_nil : Guarded ([] : List κ) fun _ => false :=
  ⟨List.nodup_nil, fun k => by simp⟩

omit [DecidableEq κ] in
theorem Guarded.not_mem (h : Guarded held flag) {k : κ} (hk : flag k = false) : k ∉ held := by
  intro hmem
  rw [(h.up_iff k).mpr hmem] at hk
  cases hk

/-- A source whose flag is down begins, and puts it up. -/
theorem Guarded.push (h : Guarded held flag) {k : κ} (hk : flag k = false) :
    Guarded (k :: held) (Function.update flag k true) := by
  refine ⟨List.nodup_cons.mpr ⟨h.not_mem hk, h.nodup⟩, fun j => ?_⟩
  by_cases hj : j = k
  · simp [hj]
  · rw [Function.update_of_ne hj, h.up_iff j]
    simp [hj]

/-- The innermost source ends, and takes its flag down. -/
theorem Guarded.pop {k : κ} (h : Guarded (k :: held) flag) : Guarded held (Function.update flag k false) := by
  obtain ⟨hk, hnodup⟩ := List.nodup_cons.mp h.nodup
  refine ⟨hnodup, fun j => ?_⟩
  by_cases hj : j = k
  · rw [hj]
    simp [hk]
  · rw [Function.update_of_ne hj, h.up_iff j]
    simp [hj]

end Dispatch
