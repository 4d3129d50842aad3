/-
# Invariants of programs and what they return

`Keeps I Q E x` says of a program that, run where the invariant `I` holds, it returns
with `I` holding and a value that has the property `Q`, or stops in `E`. Behind a
`get` the invariant is known of the state that was read, and behind a call its `Q` of
the value, so a program that copies from the state into the state is taken apart as
any other.

Key definition: `Keeps`.
Key theorems: `keeps_bind`, `keeps_iff_within`.
-/
import CosFtp.Lib.Wp

namespace Wp

variable {ε σ α β : Type}

def Keeps (I : σ → Prop) (Q : α → Prop) (E : ε → σ → Prop) (x : EStateM ε σ α) : Prop :=
  ∀ s, I s → wp x (fun a s' => I s' ∧ Q a) E s

/-- The states in which `I` holds stay such. -/
def Stays (I : σ → Prop) (s s' : σ) : Prop := I s → I s'

section

variable {I : σ → Prop} {Q : α → Prop} {R : β → Prop} {E : ε → σ → Prop}

instance : Std.Refl (Stays I) := ⟨fun _ => id⟩

instance : IsTrans σ (Stays I) := ⟨fun _ _ _ h h' => h' ∘ h⟩

/-- If nothing is said of what it returns, and the invariant holds wherever it stops, a program keeps the
invariant as it keeps a relation. -/
theorem keeps_iff_within {x : EStateM ε σ α} :
    Keeps I (fun _ => True) (fun _ => I) x ↔ Within (Stays I) (fun _ => True) x := by
  constructor
  · intro h s
    by_cases hs : I s
    · refine wp_mono (h s hs) ?_ ?_
      · exact fun _ _ hs' _ => hs'.1
      · exact fun _ _ hs' => ⟨trivial, fun _ => hs'⟩
    · exact wp_of_run (fun _ _ _ h => absurd h hs) fun _ _ _ => ⟨trivial, fun h => absurd h hs⟩
  · intro h s hs
    refine wp_mono (h s) ?_ ?_
    · exact fun _ _ hs' => ⟨hs' hs, trivial⟩
    · exact fun _ _ hs' => hs'.2 hs

theorem keeps_pure {a : α} (h : Q a) : Keeps I Q E (pure a : EStateM ε σ α) := fun _ hs => ⟨hs, h⟩

theorem keeps_get : Keeps I I E (get : EStateM ε σ σ) := fun _ hs => ⟨hs, hs⟩

theorem keeps_throw {e : ε} (h : ∀ s, I s → E e s) : Keeps I Q E (throw e : EStateM ε σ α) := h

theorem keeps_modify {f : σ → σ} (h : ∀ s, I s → I (f s)) :
    Keeps I (fun _ => True) E (modify f : EStateM ε σ PUnit) := fun s hs => ⟨h s hs, trivial⟩

theorem keeps_bind {x : EStateM ε σ β} {f : β → EStateM ε σ α} (hx : Keeps I R E x)
    (hf : ∀ b, R b → Keeps I Q E (f b)) : Keeps I Q E (x >>= f) := by
  intro s hs
  rw [wp_bind]
  refine wp_mono (hx s hs) ?_ (fun _ _ he => he)
  intro b s' hs'
  exact hf b hs'.2 s' hs'.1

/-- Each branch where its condition holds. -/
theorem keeps_cases {c : Prop} [Decidable c] {x y : EStateM ε σ α} (hx : c → Keeps I Q E x)
    (hy : ¬ c → Keeps I Q E y) : Keeps I Q E (if c then x else y) := by
  split
  · exact hx ‹c›
  · exact hy ‹¬ c›

theorem keeps_ite {c : Prop} [Decidable c] {x y : EStateM ε σ α} (hx : Keeps I Q E x) (hy : Keeps I Q E y) :
    Keeps I Q E (if c then x else y) := keeps_cases (fun _ => hx) fun _ => hy

/-- The program where its condition holds. -/
theorem keeps_guarded {c : Prop} [Decidable c] {x : EStateM ε σ Unit} (hx : c → Keeps I (fun _ => True) E x) :
    Keeps I (fun _ => True) E (when c x) := keeps_cases hx fun _ => keeps_pure trivial

theorem keeps_when {c : Prop} [Decidable c] {x : EStateM ε σ Unit} (hx : Keeps I (fun _ => True) E x) :
    Keeps I (fun _ => True) E (when c x) := keeps_guarded fun _ => hx

end

end Wp
