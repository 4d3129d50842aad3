/-
# Runs of a step function

A machine takes one action after the other, and an action that is not possible
in a state has no next state. A run is a list of actions, and what holds at the
start and is kept by each step holds behind every run. Where a step keeps it only
under a condition on the state it starts in, `Along` says that a run meets the
condition at each of its steps.

A machine refines another one if each of its steps is some actions of the other,
by a function of the states; `labels` are the actions of a whole run.

Key definitions: `run`, `Along`, `labels`.
Key theorems: `run_append_eq_some`, `run_keeps`, `run_labels`, `mem_labels`.
-/
import Mathlib.Init

namespace Run

variable {S A : Type} (step : S → A → Option S)

/-- The state behind a list of actions, if all of them are possible. -/
def run : S → List A → Option S
  | s, [] => some s
  | s, a :: as => (step s a).bind fun s' => run s' as

/-- Each action of a run meets `C` in the state it is taken in. -/
def Along (C : S → A → Prop) : S → List A → Prop
  | _, [] => True
  | s, a :: as => C s a ∧ ∀ s', step s a = some s' → Along C s' as

instance decidableAlong (C : S → A → Prop) [∀ s a, Decidable (C s a)] :
    ∀ (s : S) (as : List A), Decidable (Along step C s as)
  | _, [] => inferInstanceAs (Decidable True)
  | s, a :: as =>
    match h : step s a with
    | none => decidable_of_iff (C s a) (by simp [Along, h])
    | some s' =>
      have := decidableAlong C s' as
      decidable_of_iff (C s a ∧ Along step C s' as) (by simp [Along, h])

variable {step}

theorem run_cons_eq_some {s s' : S} {a : A} {as : List A} (h : run step s (a :: as) = some s') :
    ∃ s1, step s a = some s1 ∧ run step s1 as = some s' := Option.bind_eq_some_iff.mp h

theorem run_append_eq_some {s s' : S} {as bs : List A} (h : run step s (as ++ bs) = some s') :
    ∃ s1, run step s as = some s1 ∧ run step s1 bs = some s' := by
  induction as generalizing s with
  | nil => exact ⟨s, rfl, h⟩
  | cons a as ih =>
    obtain ⟨s1, hs1, hrest⟩ := run_cons_eq_some h
    obtain ⟨s2, hs2, hbs⟩ := ih hrest
    exact ⟨s2, Option.bind_eq_some_iff.mpr ⟨s1, hs1, hs2⟩, hbs⟩

theorem along_of_forall {C : S → A → Prop} (h : ∀ s a, C s a) (as : List A) : ∀ s, Along step C s as := by
  induction as with
  | nil => exact fun _ => trivial
  | cons a as ih => exact fun s => ⟨h s a, fun s' _ => ih s'⟩

/-- A condition on the actions alone. -/
theorem along_of_mem {C : A → Prop} (as : List A) (h : ∀ a ∈ as, C a) :
    ∀ s, Along step (fun _ a => C a) s as := by
  induction as with
  | nil => exact fun _ => trivial
  | cons a as ih =>
    intro s
    obtain ⟨ha, has⟩ := List.forall_mem_cons.mp h
    exact ⟨ha, fun s' _ => ih has s'⟩

/-- **A run keeps what each of its steps keeps.** -/
theorem run_keeps {C : S → A → Prop} {I : S → Prop}
    (hstep : ∀ s a s', I s → C s a → step s a = some s' → I s') (as : List A) :
    ∀ s s', I s → Along step C s as → run step s as = some s' → I s' := by
  induction as with
  | nil =>
    intro s s' hI _ hrun
    exact Option.some.inj hrun ▸ hI
  | cons a as ih =>
    intro s s' hI halong hrun
    obtain ⟨s1, hs1, hrest⟩ := run_cons_eq_some hrun
    obtain ⟨hC, hnext⟩ := halong
    exact ih s1 s' (hstep s a s1 hI hC hs1) (hnext s1 hs1) hrest

/-- The same without a condition. -/
theorem run_invariant {I : S → Prop} (hstep : ∀ s a s', I s → step s a = some s' → I s') {as : List A} {s s' : S}
    (hI : I s) (hrun : run step s as = some s') : I s' := by
  have hall : Along step (fun _ _ => True) s as := along_of_forall (fun _ _ => trivial) as s
  exact run_keeps (fun s a s' hI _ h => hstep s a s' hI h) as s s' hI hall hrun

/-! ### Refinement -/

section Labels

variable {S' B : Type}

variable (step) in
/-- The actions of another machine that a run stands for. -/
def labels (label : S → A → List B) : S → List A → List B
  | _, [] => []
  | s, a :: as => label s a ++ (step s a).elim [] fun s' => labels label s' as

variable {label : S → A → List B} {step' : S' → B → Option S'} {view : S → S'} {I : S → Prop}

theorem run_append_of_eq_some {s s1 s' : S'} {as bs : List B} (has : run step' s as = some s1)
    (hbs : run step' s1 bs = some s') : run step' s (as ++ bs) = some s' := by
  induction as generalizing s with
  | nil =>
    obtain rfl := Option.some.inj has
    exact hbs
  | cons a as ih =>
    obtain ⟨s2, hs2, hrest⟩ := run_cons_eq_some has
    exact Option.bind_eq_some_iff.mpr ⟨s2, hs2, ih hrest⟩

/-- **A run of the machine is a run of the one it refines.** -/
theorem run_labels (hI : ∀ s a s', I s → step s a = some s' → I s')
    (hstep : ∀ s a s', I s → step s a = some s' → run step' (view s) (label s a) = some (view s'))
    {as : List A} {s s' : S} (hs : I s) (hrun : run step s as = some s') :
    run step' (view s) (labels step label s as) = some (view s') := by
  induction as generalizing s with
  | nil =>
    obtain rfl := Option.some.inj hrun
    rfl
  | cons a as ih =>
    obtain ⟨s1, hs1, hrest⟩ := run_cons_eq_some hrun
    have hhead := hstep s a s1 hs hs1
    have htail := ih (hI s a s1 hs hs1) hrest
    rw [labels, hs1]
    exact run_append_of_eq_some hhead htail

/-- An action of the other machine is one of some step. -/
theorem mem_labels {b : B} {as : List A} {s : S} (h : b ∈ labels step label s as) :
    ∃ before a after s1, as = before ++ a :: after ∧ run step s before = some s1 ∧ b ∈ label s1 a := by
  induction as generalizing s with
  | nil => cases h
  | cons a as ih =>
    rcases List.mem_append.mp h with hhead | htail
    · exact ⟨[], a, as, s, rfl, rfl, hhead⟩
    · cases hs1 : step s a with
      | none =>
        rw [hs1] at htail
        cases htail
      | some s1 =>
        rw [hs1] at htail
        obtain ⟨before, a', after, s2, rfl, hs2, hmem⟩ := ih htail
        exact ⟨a :: before, a', after, s2, rfl, Option.bind_eq_some_iff.mpr ⟨s1, hs1, hs2⟩, hmem⟩

end Labels

end Run
