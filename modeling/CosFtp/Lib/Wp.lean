/-
# Weakest preconditions of programs that can stop

A program of type `EStateM ε σ α` reads and writes a state `σ` and either
returns an `α` or stops with an `ε`; the state it stops in is kept. `wp x Q E s`
says that `x`, run from `s`, returns where `Q` holds or stops where `E` does.
The rules below are one for each way a program is put together, and `wp_mono`
weakens both postconditions, so that a function is used through what was
proved about it.

`Within R x` says of a program that it relates the state it starts in and the
state it ends in by `R`, however it ends. For a preorder `R` this holds of a
program as soon as it holds of its parts.

Key definitions: `wp`, `Within`.
Key theorems: `wp_bind`, `wp_mono`, `within_bind`.
-/
import Mathlib.Order.Defs.Unbundled
import Mathlib.Data.Nat.Notation

namespace Wp

variable {ε σ α β : Type}

/-- Run from `s` the program returns in `Q`, or stops in `E`. -/
def wp (x : EStateM ε σ α) (Q : α → σ → Prop) (E : ε → σ → Prop) (s : σ) : Prop :=
  match x s with
  | .ok a s' => Q a s'
  | .error e s' => E e s'

variable {Q : α → σ → Prop} {E : ε → σ → Prop} {s : σ}

@[simp] theorem wp_pure (a : α) : wp (pure a : EStateM ε σ α) Q E s ↔ Q a s := Iff.rfl

@[simp] theorem wp_get (P : σ → σ → Prop) : wp (get : EStateM ε σ σ) P E s ↔ P s s := Iff.rfl

@[simp] theorem wp_set (s' : σ) (P : PUnit → σ → Prop) :
    wp (set s' : EStateM ε σ PUnit) P E s ↔ P ⟨⟩ s' := Iff.rfl

@[simp] theorem wp_modify (f : σ → σ) (P : PUnit → σ → Prop) :
    wp (modify f : EStateM ε σ PUnit) P E s ↔ P ⟨⟩ (f s) := Iff.rfl

@[simp] theorem wp_throw (e : ε) : wp (throw e : EStateM ε σ α) Q E s ↔ E e s := Iff.rfl

@[simp] theorem wp_bind (x : EStateM ε σ β) (f : β → EStateM ε σ α) :
    wp (x >>= f) Q E s ↔ wp x (fun b s' => wp (f b) Q E s') E s := by
  show wp (EStateM.bind x f) Q E s ↔ _
  unfold wp EStateM.bind
  cases x s <;> rfl

@[simp] theorem wp_map (x : EStateM ε σ β) (f : β → α) :
    wp (f <$> x) Q E s ↔ wp x (fun b s' => Q (f b) s') E s := by
  show wp (EStateM.map f x) Q E s ↔ _
  unfold wp EStateM.map
  cases x s <;> rfl

@[simp] theorem wp_ite (c : Prop) [Decidable c] (x y : EStateM ε σ α) :
    wp (if c then x else y) Q E s ↔ if c then wp x Q E s else wp y Q E s := by
  split <;> rfl

/-- Each branch where its condition holds. -/
theorem wp_cases {c : Prop} [Decidable c] {x y : EStateM ε σ α} (hx : c → wp x Q E s)
    (hy : ¬ c → wp y Q E s) : wp (if c then x else y) Q E s := by
  split
  · exact hx ‹c›
  · exact hy ‹¬ c›

/-- Both branches are fine, whatever the condition. -/
theorem wp_branch {c : Prop} [Decidable c] {x y : EStateM ε σ α} (hx : wp x Q E s) (hy : wp y Q E s) :
    wp (if c then x else y) Q E s := wp_cases (fun _ => hx) fun _ => hy

/-- The program, if the condition holds. -/
def when (c : Prop) [Decidable c] (x : EStateM ε σ Unit) : EStateM ε σ Unit :=
  if c then x else pure ()

@[simp] theorem wp_when (c : Prop) [Decidable c] (x : EStateM ε σ Unit) (P : Unit → σ → Prop) :
    wp (when c x) P E s ↔ if c then wp x P E s else P () s := by
  unfold when
  rw [wp_ite, wp_pure]

/-- A weaker postcondition holds too. -/
theorem wp_mono {x : EStateM ε σ α} {Q' : α → σ → Prop} {E' : ε → σ → Prop} (h : wp x Q E s)
    (hQ : ∀ a s', Q a s' → Q' a s') (hE : ∀ e s', E e s' → E' e s') : wp x Q' E' s := by
  unfold wp at *
  cases hx : x s with
  | ok a s' => rw [hx] at h; exact hQ a s' h
  | error e s' => rw [hx] at h; exact hE e s' h

/-- From what the run comes to. -/
theorem wp_of_run {x : EStateM ε σ α} (hQ : ∀ a s', x s = .ok a s' → Q a s')
    (hE : ∀ e s', x s = .error e s' → E e s') : wp x Q E s := by
  unfold wp
  cases hx : x s with
  | ok a s' => exact hQ a s' hx
  | error e s' => exact hE e s' hx

/-- What is known of a program, of the end its run comes to. -/
theorem ok_of_wp {x : EStateM ε σ α} {a : α} {s' : σ} (h : wp x Q E s) (hx : x s = .ok a s') : Q a s' := by
  unfold wp at h
  rw [hx] at h
  exact h

theorem error_of_wp {x : EStateM ε σ α} {e : ε} {s' : σ} (h : wp x Q E s) (hx : x s = .error e s') : E e s' := by
  unfold wp at h
  rw [hx] at h
  exact h

/-- A program that cannot fail has a result. -/
theorem exists_run {x : EStateM ε σ α} (h : wp x Q (fun _ _ => False) s) : ∃ a s', x s = .ok a s' ∧ Q a s' := by
  unfold wp at h
  cases hx : x s with
  | ok a s' =>
    rw [hx] at h
    exact ⟨a, s', rfl, h⟩
  | error e s' =>
    rw [hx] at h
    exact h.elim

theorem wp_of_ok {x : EStateM ε σ α} {a : α} {s' : σ} (hx : x s = .ok a s') : wp x Q E s ↔ Q a s' := by
  unfold wp
  rw [hx]

theorem bind_ok {x : EStateM ε σ β} {f : β → EStateM ε σ α} {b : β} {s' : σ} (h : x s = .ok b s') :
    (x >>= f) s = f b s' := by
  show EStateM.bind x f s = _
  unfold EStateM.bind
  rw [h]

theorem bind_error {x : EStateM ε σ β} {f : β → EStateM ε σ α} {e : ε} {s' : σ} (h : x s = .error e s') :
    (x >>= f) s = .error e s' := by
  show EStateM.bind x f s = _
  unfold EStateM.bind
  rw [h]

theorem map_ok {x : EStateM ε σ β} {f : β → α} {b : β} {s' : σ} (h : x s = .ok b s') :
    (f <$> x) s = .ok (f b) s' := by
  show EStateM.map f x s = _
  unfold EStateM.map
  rw [h]

theorem map_error {x : EStateM ε σ β} {f : β → α} {e : ε} {s' : σ} (h : x s = .error e s') :
    (f <$> x) s = .error e s' := by
  show EStateM.map f x s = _
  unfold EStateM.map
  rw [h]

/-- How a run of two steps returns. -/
theorem bind_eq_ok {x : EStateM ε σ β} {f : β → EStateM ε σ α} {s' : σ} {a : α} :
    (x >>= f) s = .ok a s' ↔ ∃ b t, x s = .ok b t ∧ f b t = .ok a s' := by
  cases hx : x s with
  | ok b t =>
    rw [bind_ok hx]
    constructor
    · exact fun h => ⟨b, t, rfl, h⟩
    · rintro ⟨b', t', heq, h⟩
      cases heq
      exact h
  | error e t =>
    rw [bind_error hx]
    exact iff_of_false (by intro h; cases h) (by rintro ⟨b, t', heq, -⟩; cases heq)

/-- How a run of two steps stops. -/
theorem bind_eq_error {x : EStateM ε σ β} {f : β → EStateM ε σ α} {s' : σ} {e : ε} :
    (x >>= f) s = .error e s' ↔ x s = .error e s' ∨ ∃ b t, x s = .ok b t ∧ f b t = .error e s' := by
  cases hx : x s with
  | ok b t =>
    rw [bind_ok hx]
    constructor
    · exact fun h => .inr ⟨b, t, rfl, h⟩
    · rintro (heq | ⟨b', t', heq, h⟩)
      · cases heq
      · cases heq
        exact h
  | error e' t =>
    rw [bind_error hx]
    constructor
    · intro h
      cases h
      exact .inl rfl
    · rintro (h | ⟨b, t', heq, -⟩)
      · cases h
        rfl
      · cases heq

theorem map_eq_ok {x : EStateM ε σ β} {f : β → α} {s' : σ} {a : α} :
    (f <$> x) s = .ok a s' ↔ ∃ b, x s = .ok b s' ∧ f b = a := by
  cases hx : x s with
  | ok b t =>
    rw [map_ok hx]
    constructor
    · intro h
      cases h
      exact ⟨b, rfl, rfl⟩
    · rintro ⟨b', heq, rfl⟩
      cases heq
      rfl
  | error e t =>
    rw [map_error hx]
    exact iff_of_false (by intro h; cases h) (by rintro ⟨b, heq, -⟩; cases heq)

theorem map_eq_error {x : EStateM ε σ β} {f : β → α} {s' : σ} {e : ε} :
    (f <$> x) s = .error e s' ↔ x s = .error e s' := by
  cases hx : x s with
  | ok b t =>
    rw [map_ok hx]
    exact iff_of_false (by intro h; cases h) (by intro h; cases h)
  | error e' t =>
    rw [map_error hx]
    constructor
    · intro h
      cases h
      rfl
    · intro h
      cases h
      rfl

/-- Two facts about one run. -/
theorem wp_and {x : EStateM ε σ α} {Q' : α → σ → Prop} {E' : ε → σ → Prop} (h : wp x Q E s)
    (h' : wp x Q' E' s) : wp x (fun a s' => Q a s' ∧ Q' a s') (fun e s' => E e s' ∧ E' e s') s := by
  unfold wp at *
  cases hx : x s with
  | ok a s' => rw [hx] at h h'; exact ⟨h, h'⟩
  | error e s' => rw [hx] at h h'; exact ⟨h, h'⟩

/-- A program that is known of its first two steps together. -/
theorem wp_bind_bind {γ : Type} {x : EStateM ε σ β} {y : β → EStateM ε σ γ} {z : γ → EStateM ε σ α}
    {Q' : γ → σ → Prop} {E' : ε → σ → Prop} (h : wp (x >>= y) Q' E' s) (hz : ∀ c s', Q' c s' → wp (z c) Q E s')
    (hE : ∀ e s', E' e s' → E e s') : wp (x >>= fun b => y b >>= z) Q E s := by
  rw [wp_bind] at h ⊢
  refine wp_mono h ?_ hE
  intro b s' hb
  rw [wp_bind]
  exact wp_mono hb hz hE

theorem wp_true (x : EStateM ε σ α) (s : σ) : wp x (fun _ _ => True) (fun _ _ => True) s := by
  unfold wp
  cases x s <;> trivial

/-- Every run ends somehow. -/
theorem wp_false {x : EStateM ε σ α} (h : wp x (fun _ _ => False) (fun _ _ => False) s) : False := by
  unfold wp at h
  cases hx : x s with
  | ok a s' => rw [hx] at h; exact h
  | error e s' => rw [hx] at h; exact h

/-! ### Programs on a part of the state -/

/-- A program on the part `τ` of the state, run on the whole of it. -/
def zoom {τ : Type} (part : σ → τ) (put : τ → σ → σ) (x : EStateM ε τ α) : EStateM ε σ α := fun s =>
  match x (part s) with
  | .ok a t => .ok a (put t s)
  | .error e t => .error e (put t s)

@[simp] theorem wp_zoom {τ : Type} (part : σ → τ) (put : τ → σ → σ) (x : EStateM ε τ α) :
    wp (zoom part put x) Q E s ↔
      wp x (fun a t => Q a (put t s)) (fun e t => E e (put t s)) (part s) := by
  unfold wp zoom
  cases x (part s) <;> rfl

/-- The state at the end of the run, however it ends. -/
def after (x : EStateM ε σ α) (s : σ) : σ :=
  match x s with
  | .ok _ s' => s'
  | .error _ s' => s'

theorem wp_after {x : EStateM ε σ α} {P : σ → Prop} (h : wp x (fun _ => P) (fun _ => P) s) :
    P (after x s) := by
  unfold wp at h
  unfold after
  cases hx : x s <;> rw [hx] at h <;> exact h

theorem wp_eq_after (x : EStateM ε σ α) (s : σ) :
    wp x (fun _ s' => after x s = s') (fun _ s' => after x s = s') s := by
  unfold wp after
  split <;> rfl

/-! ### What a program can do to the state -/

/-- However the program ends, the states before and after are related, and it
stops for a reason in `C` only. -/
def Within (R : σ → σ → Prop) (C : ε → Prop) (x : EStateM ε σ α) : Prop :=
  ∀ s, wp x (fun _ s' => R s s') (fun e s' => C e ∧ R s s') s

section

variable {R : σ → σ → Prop} {C : ε → Prop}

theorem Within.mono {R' : σ → σ → Prop} {x : EStateM ε σ α} (hx : Within R C x)
    (h : ∀ s s', R s s' → R' s s') : Within R' C x := by
  intro s
  refine wp_mono (hx s) ?_ ?_
  · intro _ s' hs'
    exact h s s' hs'
  · intro _ s' hs'
    exact ⟨hs'.1, h s s' hs'.2⟩

theorem within_pure [Std.Refl R] (a : α) : Within R C (pure a : EStateM ε σ α) :=
  fun s => Std.Refl.refl s

theorem within_get [Std.Refl R] : Within R C (get : EStateM ε σ σ) :=
  fun s => Std.Refl.refl s

theorem within_throw [Std.Refl R] {e : ε} (he : C e) : Within R C (throw e : EStateM ε σ α) :=
  fun s => ⟨he, Std.Refl.refl s⟩

theorem within_modify {f : σ → σ} (h : ∀ s, R s (f s)) :
    Within R C (modify f : EStateM ε σ PUnit) := h

/-- A program on a part of the state, when all that can become of the part is in `R`. -/
theorem within_zoom {τ : Type} {part : σ → τ} {put : τ → σ → σ} (hC : ∀ e, C e) (hput : ∀ s t, R s (put t s))
    (x : EStateM ε τ α) : Within R C (zoom part put x) := by
  intro s
  rw [wp_zoom]
  exact wp_of_run (fun _ t _ => hput s t) fun e t _ => ⟨hC e, hput s t⟩

theorem within_bind [IsTrans σ R] {x : EStateM ε σ β} {f : β → EStateM ε σ α} (hx : Within R C x)
    (hf : ∀ b, Within R C (f b)) : Within R C (x >>= f) := by
  intro s
  rw [wp_bind]
  refine wp_mono (hx s) ?_ (fun _ _ he => he)
  intro b s' hs'
  refine wp_mono (hf b s') ?_ ?_
  · intro _ s'' hs''
    exact IsTrans.trans _ _ _ hs' hs''
  · intro _ s'' hs''
    exact ⟨hs''.1, IsTrans.trans _ _ _ hs' hs''.2⟩

/-- The program where its condition holds. -/
theorem within_guarded [Std.Refl R] {c : Prop} [Decidable c] {x : EStateM ε σ Unit}
    (hx : c → Within R C x) : Within R C (when c x) := by
  unfold when
  split
  · exact hx ‹c›
  · exact within_pure ()

theorem within_when [Std.Refl R] {c : Prop} [Decidable c] {x : EStateM ε σ Unit}
    (hx : Within R C x) : Within R C (when c x) := within_guarded fun _ => hx

/-- Each branch where its condition holds. -/
theorem within_cases {c : Prop} [Decidable c] {x y : EStateM ε σ α} (hx : c → Within R C x)
    (hy : ¬ c → Within R C y) : Within R C (if c then x else y) := by
  split
  · exact hx ‹c›
  · exact hy ‹¬ c›

theorem within_ite {c : Prop} [Decidable c] {x y : EStateM ε σ α} (hx : Within R C x)
    (hy : Within R C y) : Within R C (if c then x else y) := within_cases (fun _ => hx) fun _ => hy

end

end Wp
