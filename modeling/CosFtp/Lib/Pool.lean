/-
# Jobs on a pool of threads

A job is the list of its steps on a shared state. The threads of a pool run the
steps of each job in their order and those of different jobs in any
(`Interleaves`). Where the steps of different jobs commute, the state they
leave behind is the one that the jobs leave one behind the other
(`Interleaves.foldl_eq`), so what is to be said of every schedule is said of
one.

The steps of most pools write to a memory, each at a place of its own: a byte
(`write_comm`) or a block (`copy`, `copy_comm`). Blocks of one size make up
`tiled`.

Key definitions: `Interleaves`, `Independent`, `copy`, `tiled`.
Key theorems: `Interleaves.foldl_eq`, `write_comm`, `copy_comm`, `copy_tiled`.
-/
import Mathlib.Data.List.Flatten
import Mathlib.Data.Nat.Notation
import Mathlib.Logic.Function.Basic

namespace Pool

variable {α σ : Type} {exec : σ → α → σ}

/-- The steps of some jobs in an order in which threads may take them. -/
inductive Interleaves : List (List α) → List α → Prop
  | done {jobs : List (List α)} : (∀ job ∈ jobs, job = []) → Interleaves jobs []
  | step {pre post : List (List α)} {job sched : List α} {a : α} :
      Interleaves (pre ++ job :: post) sched → Interleaves (pre ++ (a :: job) :: post) (a :: sched)

/-- A step of one job may be swapped with a step of another. -/
def Independent (exec : σ → α → σ) (jobs : List (List α)) : Prop :=
  jobs.Pairwise fun p q => ∀ a ∈ p, ∀ b ∈ q, ∀ s, exec (exec s a) b = exec (exec s b) a

/-- One job behind the other is a schedule. -/
theorem interleaves_flatten (jobs : List (List α)) : Interleaves jobs jobs.flatten := by
  have hrest : ∀ (post : List (List α)) (pre : List (List α)), (∀ job ∈ pre, job = []) →
      Interleaves (pre ++ post) post.flatten := by
    intro post
    induction post with
    | nil => exact fun pre hpre => .done (by simpa using hpre)
    | cons job post ih =>
      induction job with
      | nil =>
        intro pre hpre
        have hnil : ∀ job ∈ pre ++ [[]], job = [] := by
          simpa [or_imp, forall_and] using hpre
        simpa using ih (pre ++ [[]]) hnil
      | cons a job ihjob => exact fun pre hpre => .step (ihjob pre hpre)
  exact hrest jobs [] (by simp)

/-- A step that commutes with all of a list may be taken before it. -/
theorem foldl_swap {l : List α} {a : α} (h : ∀ b ∈ l, ∀ s, exec (exec s b) a = exec (exec s a) b) (s : σ) :
    exec (l.foldl exec s) a = l.foldl exec (exec s a) := by
  induction l generalizing s with
  | nil => rfl
  | cons b l ih =>
    have hb := h b List.mem_cons_self s
    rw [List.foldl_cons, List.foldl_cons, ih fun c hc => h c (List.mem_cons_of_mem b hc), hb]

theorem Independent.tail {pre post : List (List α)} {job : List α} {a : α}
    (h : Independent exec (pre ++ (a :: job) :: post)) : Independent exec (pre ++ job :: post) := by
  unfold Independent at h ⊢
  rw [List.pairwise_append, List.pairwise_cons] at h ⊢
  obtain ⟨hpre, ⟨hjob, hpost⟩, hcross⟩ := h
  refine ⟨hpre, ⟨fun q hq b hb => hjob q hq b (List.mem_cons_of_mem a hb), hpost⟩, fun p hp q hq => ?_⟩
  rcases List.mem_cons.mp hq with rfl | hq
  · exact fun b hb c hc => hcross p hp _ List.mem_cons_self b hb c (List.mem_cons_of_mem a hc)
  · exact hcross p hp q (List.mem_cons_of_mem _ hq)

/-- **Every schedule of independent jobs leaves what the jobs leave one behind the other.** -/
theorem Interleaves.foldl_eq {jobs : List (List α)} {sched : List α} (h : Interleaves jobs sched)
    (hind : Independent exec jobs) (s : σ) : sched.foldl exec s = jobs.flatten.foldl exec s := by
  induction h generalizing s with
  | done hnil => rw [List.flatten_eq_nil_iff.mpr hnil]
  | @step pre post job sched a _ ih =>
    have hfirst : ∀ b ∈ pre.flatten, ∀ t, exec (exec t b) a = exec (exec t a) b := by
      intro b hb t
      obtain ⟨p, hp, hbp⟩ := List.mem_flatten.mp hb
      exact (List.pairwise_append.mp hind).2.2 p hp _ List.mem_cons_self b hbp a List.mem_cons_self t
    rw [List.foldl_cons, ih hind.tail]
    simp only [List.flatten_append, List.flatten_cons, List.foldl_append, List.cons_append, List.foldl_cons]
    rw [foldl_swap hfirst]

/-! ### Blocks of memory -/

variable {β : Type}

/-- A block that is written into a memory from `pos` on. -/
def copy (memory : ℕ → β) (pos : ℕ) (block : List β) : ℕ → β :=
  fun p => if pos ≤ p then (block[p - pos]?).getD (memory p) else memory p

/-- Two writes to different places commute. -/
theorem write_comm (memory : ℕ → β) {p q : ℕ} (h : p ≠ q) (b c : β) :
    Function.update (Function.update memory p b) q c = Function.update (Function.update memory q c) p b :=
  Function.update_comm h b c memory

theorem copy_nil (memory : ℕ → β) (pos : ℕ) : copy memory pos [] = memory := by
  funext p
  simp [copy]

/-- A block is written byte by byte. -/
theorem copy_cons (memory : ℕ → β) (pos : ℕ) (b : β) (block : List β) :
    copy memory pos (b :: block) = copy (Function.update memory pos b) (pos + 1) block := by
  funext p
  unfold copy
  rcases Nat.lt_trichotomy p pos with hlt | rfl | hgt
  · rw [if_neg (by omega), if_neg (by omega), Function.update_of_ne (by omega)]
  · rw [if_pos (Nat.le_refl p), if_neg (by omega), Nat.sub_self, Function.update_self]
    rfl
  · rw [if_pos (by omega), if_pos (by omega), Function.update_of_ne (by omega)]
    have hsub : p - pos = p - (pos + 1) + 1 := by omega
    rw [hsub, List.getElem?_cons_succ]

theorem copy_of_lt (memory : ℕ → β) {pos p : ℕ} (block : List β) (h : p < pos) : copy memory pos block p = memory p := by
  rw [copy, if_neg (by omega)]

theorem copy_of_le (memory : ℕ → β) {pos p : ℕ} {block : List β} (h : pos + block.length ≤ p) :
    copy memory pos block p = memory p := by
  rw [copy, if_pos (by omega), List.getElem?_eq_none (by omega)]
  rfl

/-- What a block leaves at a place depends on nothing but what was there. -/
theorem copy_congr {memory memory' : ℕ → β} (pos : ℕ) {p : ℕ} (block : List β) (h : memory p = memory' p) :
    copy memory pos block p = copy memory' pos block p := by
  unfold copy
  rw [h]

/-- Two blocks for different parts of the memory. -/
theorem copy_comm (memory : ℕ → β) {pos pos' : ℕ} {block block' : List β} (h : pos + block.length ≤ pos') :
    copy (copy memory pos block) pos' block' = copy (copy memory pos' block') pos block := by
  funext p
  rcases Nat.lt_or_ge p pos' with hlt | hge
  · rw [copy_of_lt _ _ hlt]
    exact copy_congr pos block (copy_of_lt memory block' hlt).symm
  · have hle : pos + block.length ≤ p := by omega
    rw [copy_of_le _ hle]
    exact copy_congr pos' block' (copy_of_le memory hle)

/-- A block that is written twice. -/
theorem copy_copy (memory : ℕ → β) (pos : ℕ) (block : List β) :
    copy (copy memory pos block) pos block = copy memory pos block := by
  funext p
  unfold copy
  split
  · cases block[p - pos]? with
    | none => rfl
    | some b => rfl
  · rfl

/-! ### Tiles -/

/-- A memory that tiles of one size were copied to, the tile numbered `i` from the `i`th multiple of the
size on. A tile may be shorter. -/
def tiled (memory : ℕ → β) (size first count : ℕ) (tile : ℕ → List β) : ℕ → β := fun p =>
  if first ≤ p / size ∧ p / size < first + count then (tile (p / size))[p % size]?.getD (memory p) else memory p

theorem tiled_zero (memory : ℕ → β) (size first : ℕ) (tile : ℕ → List β) : tiled memory size first 0 tile = memory := by
  funext p
  rw [tiled, if_neg (by omega)]

theorem tiled_congr (memory : ℕ → β) (size first count : ℕ) {tile tile' : ℕ → List β}
    (h : ∀ i, first ≤ i → i < first + count → tile i = tile' i) :
    tiled memory size first count tile = tiled memory size first count tile' := by
  funext p
  unfold tiled
  split
  case isTrue hp => rw [h _ hp.1 hp.2]
  case isFalse => rfl

/-- One more tile. -/
theorem copy_tiled (memory : ℕ → β) {size : ℕ} (hpos : 0 < size) (first count : ℕ) {tile : ℕ → List β}
    (hlen : (tile (first + count)).length ≤ size) :
    copy (tiled memory size first count tile) ((first + count) * size) (tile (first + count)) =
      tiled memory size first (count + 1) tile := by
  funext p
  have hp := Nat.div_add_mod' p size
  have hmod := Nat.mod_lt p hpos
  have hmul : (first + count + 1) * size = (first + count) * size + size := Nat.succ_mul _ _
  rcases Nat.lt_trichotomy (p / size) (first + count) with hlt | heq | hgt
  · have hle : (p / size + 1) * size ≤ (first + count) * size := Nat.mul_le_mul_right _ hlt
    rw [Nat.succ_mul] at hle
    rw [copy_of_lt _ _ (by omega), tiled, tiled]
    simp only [hlt, Nat.lt_succ_of_lt hlt, ← Nat.add_assoc]
  · rw [heq] at hp
    have hindex : p - (first + count) * size = p % size := by omega
    rw [copy, if_pos (by omega), hindex, tiled, tiled, heq, if_neg (by omega), if_pos (by omega)]
  · have hle : (first + count + 1) * size ≤ p / size * size := Nat.mul_le_mul_right _ hgt
    rw [copy_of_le _ (by omega), tiled, tiled, if_neg (by omega), if_neg (by omega)]

/-- More tiles behind the ones there are. -/
theorem tiled_tiled (memory : ℕ → β) (size first count count' : ℕ) (tile : ℕ → List β) :
    tiled (tiled memory size first count tile) size (first + count) count' tile =
      tiled memory size first (count + count') tile := by
  funext p
  rcases Nat.lt_or_ge (p / size) (first + count) with hlt | hge
  · have hold : tiled (tiled memory size first count tile) size (first + count) count' tile p =
        tiled memory size first count tile p := if_neg (by omega)
    rw [hold, tiled, tiled]
    simp only [hlt, (by omega : p / size < first + (count + count'))]
  · have hold : tiled memory size first count tile p = memory p := if_neg (by omega)
    rw [tiled, hold, tiled]
    have hiff : (first + count ≤ p / size ∧ p / size < first + count + count') ↔
        (first ≤ p / size ∧ p / size < first + (count + count')) := by omega
    simp only [hiff]

end Pool
