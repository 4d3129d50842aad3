/-
# Strings that stay well formed

Whatever is done with the strings of str.c, in whatever order and whatever memory
malloc gives, each stays what the rest of the program takes it for: without a
buffer and empty, or in a buffer of the size that is noted, with a zero behind its
last character (`MyStr.Ok`). No access is outside a buffer, and lengths that would
wrap end the run in `bug`.

Between `str_reserve` and what fills the string the zero may be missing
(`GoodBut`); what truncates or appends puts it back.

Key definitions: `MyStr.WellFormed`, `StrHeap.Good`, `StrHeap.Stops`.
Key theorems: `StrHeap.alloc_spec`, `StrHeap.append_spec`, `StrOp.exec_good`,
`strings_stay_well_formed`.
-/
import CosFtp.StrHeap

namespace CosFtp

open Wp

/-- A string as the rest of the program takes it: it has no buffer and is empty, or there is a zero behind it, in
a buffer of the size that is noted. -/
def MyStr.WellFormed (str : MyStr) : Prop :=
  match str.pBuf with
  | none => str.len = 0 ∧ str.allocBytes = 0
  | some buf => str.len < str.allocBytes ∧ str.allocBytes = buf.length ∧ buf[str.len]? = some chNul

/-- The length is one that the buffer has room for, and the size that is noted its own. -/
structure MyStr.Sized (str : MyStr) : Prop where
  null : str.pBuf = none → str.len = 0 ∧ str.allocBytes = 0
  buf : ∀ b, str.pBuf = some b → str.len < str.allocBytes ∧ b.length = str.allocBytes
  small : str.allocBytes ≤ intMax

structure MyStr.Ok (str : MyStr) : Prop where
  sized : str.Sized
  ended : ∀ b, str.pBuf = some b → b[str.len]? = some chNul

theorem MyStr.Ok.wellFormed {str : MyStr} (h : str.Ok) : str.WellFormed := by
  rw [MyStr.WellFormed]
  split
  · next hnone => exact h.sized.null hnone
  · next b hb =>
    obtain ⟨hlt, hlen⟩ := h.sized.buf b hb
    exact ⟨hlt, hlen.symm, h.ended b hb⟩

theorem initMystr_ok : initMystr.Ok :=
  ⟨⟨fun _ => ⟨rfl, rfl⟩, fun _ h => (Option.some_ne_none _ h.symm).elim, Nat.zero_le _⟩,
    fun _ h => (Option.some_ne_none _ h.symm).elim⟩

/-- A buffer with room. -/
theorem MyStr.Sized.room {str : MyStr} (h : str.Sized) {k : ℕ} (hk : k < str.allocBytes) :
    ∃ b, str.pBuf = some b ∧ b.length = str.allocBytes := by
  cases hb : str.pBuf with
  | none =>
    have hzero := (h.null hb).2
    omega
  | some b => exact ⟨b, rfl, (h.buf b hb).2⟩

theorem MyStr.Sized.len_le {str : MyStr} (h : str.Sized) : str.len ≤ intMax := by
  have hsmall := h.small
  cases hb : str.pBuf with
  | none =>
    have hzero := (h.null hb).1
    omega
  | some b =>
    have hlt := (h.buf b hb).1
    omega

namespace StrHeap

variable {ι : Type}

/-- All strings but one are as they should be; this one may lack the zero. -/
structure GoodBut (name : StrName ι) (s : StrHeap ι) : Prop where
  others : ∀ m ≠ name, (s.strs m).Ok
  self : (s.strs name).Sized
  exact : s.wrapped = false

structure Good (s : StrHeap ι) : Prop where
  strs : ∀ name, (s.strs name).Ok
  exact : s.wrapped = false

theorem Good.goodBut {s : StrHeap ι} (h : s.Good) (name : StrName ι) : s.GoodBut name :=
  ⟨fun m _ => h.strs m, (h.strs name).sized, h.exact⟩

theorem GoodBut.sized {s : StrHeap ι} {name : StrName ι} (h : s.GoodBut name) (m : StrName ι) :
    (s.strs m).Sized := by
  by_cases hm : m = name
  · exact hm ▸ h.self
  · exact (h.others m hm).sized

/-- How the run may stop: in `bug`, or in `die` with no length that has wrapped. -/
def Stops (e : StrFault) (s : StrHeap ι) : Prop :=
  (∃ text, e = .bug text) ∨ (∃ text, e = .die text) ∧ s.wrapped = false

theorem stops_bug (text : String) (s : StrHeap ι) : Stops (.bug text) s := .inl ⟨text, rfl⟩

/-- The other strings are as they were. -/
def Frame (name : StrName ι) (s s' : StrHeap ι) : Prop := ∀ m ≠ name, s'.strs m = s.strs m

theorem Frame.refl (name : StrName ι) (s : StrHeap ι) : Frame name s s := fun _ _ => rfl

theorem Frame.trans {name : StrName ι} {s s' s'' : StrHeap ι} (h : Frame name s s') (h' : Frame name s' s'') :
    Frame name s s'' := fun m hm => (h' m hm).trans (h m hm)

/-! ### Arithmetic and memory -/

variable {s : StrHeap ι} {a b : ℕ}

theorem uadd_fits {Q : ℕ → StrHeap ι → Prop} {E : StrFault → StrHeap ι → Prop} (h : a + b < 2 ^ 32)
    (hQ : Q (a + b) s) : wp (uadd a b) Q E s := by
  have hle : ¬ 2 ^ 32 ≤ a + b := Nat.not_le.mpr h
  rw [uadd]
  simp only [wp_bind, wp_modify, wp_pure]
  rwa [Nat.mod_eq_of_lt h, decide_eq_false hle, Bool.or_false]

/-- A sum that wraps is less than what was added to. -/
theorem uadd_wraps {Q : ℕ → StrHeap ι → Prop} {E : StrFault → StrHeap ι → Prop} (ha : a < 2 ^ 32) (hb : b < 2 ^ 32)
    (h : 2 ^ 32 ≤ a + b) (hQ : ∀ c s', c < a → c < b → Q c s') : wp (uadd a b) Q E s := by
  rw [uadd]
  simp only [wp_bind, wp_modify, wp_pure]
  apply hQ
  all_goals omega

theorem usub_fits {Q : ℕ → StrHeap ι → Prop} {E : StrFault → StrHeap ι → Prop} (h : b ≤ a) (ha : a < 2 ^ 32)
    (hQ : Q (a - b) s) : wp (usub a b) Q E s := by
  have hlt : ¬ a < b := Nat.not_lt.mpr h
  have hmod : (a + (2 ^ 32 - b)) % 2 ^ 32 = a - b := by omega
  rw [usub]
  simp only [wp_bind, wp_modify, wp_pure]
  rwa [hmod, decide_eq_false hlt, Bool.or_false]

/-- A sum of which it is checked whether it has wrapped. -/
theorem checked_sum {α : Type} {Q : α → StrHeap ι → Prop} {f : ℕ → StrM ι α} (ha : a < 2 ^ 32) (hb : b < 2 ^ 32)
    (hf : a + b < 2 ^ 32 → wp (f (a + b)) Q Stops s) :
    wp (do let sum ← uadd a b; if sum < a then throw (.bug "integer overflow") else f sum) Q Stops s := by
  rw [wp_bind]
  rcases Nat.lt_or_ge (a + b) (2 ^ 32) with hfit | hover
  · have hle : ¬ a + b < a := Nat.not_lt.mpr (Nat.le_add_right a b)
    apply uadd_fits hfit
    rw [if_neg hle]
    exact hf hfit
  · apply uadd_wraps ha hb hover
    intro c s' hc _
    rw [if_pos hc]
    exact stops_bug _ s'

theorem freshBytes_spec (hs : s.wrapped = false) (call : String) (size : ℕ) :
    wp (freshBytes call size) (fun b s' => b.length = size ∧ s'.strs = s.strs ∧ s'.wrapped = false) Stops s := by
  rw [freshBytes]
  simp only [wp_bind, wp_get, wp_set]
  cases s.fresh s.allocs with
  | none => exact .inr ⟨⟨call, rfl⟩, hs⟩
  | some byte => exact ⟨by simp, rfl, hs⟩

theorem malloc_spec (hs : s.wrapped = false) (size : ℕ) :
    wp (sysutilMalloc size) (fun b s' => b.length = size ∧ size ≤ intMax ∧ s'.strs = s.strs ∧ s'.wrapped = false)
      Stops s := by
  rw [sysutilMalloc]
  refine wp_cases (fun _ => stops_bug _ s) fun hsize => ?_
  refine wp_mono (freshBytes_spec hs _ size) ?_ (fun _ _ he => he)
  rintro b s' ⟨hlen, hstrs, hw⟩
  exact ⟨hlen, by omega, hstrs, hw⟩

theorem realloc_spec (hs : s.wrapped = false) (p : Option Bytes) {size : ℕ} (hp : (p.getD []).length ≤ size) :
    wp (sysutilRealloc p size) (fun b s' => b.length = size ∧ size ≤ intMax ∧ s'.strs = s.strs ∧
      s'.wrapped = false) Stops s := by
  rw [sysutilRealloc]
  refine wp_cases (fun _ => stops_bug _ s) fun hsize => ?_
  rw [wp_bind]
  refine wp_mono (freshBytes_spec hs _ size) ?_ (fun _ _ he => he)
  rintro b s' ⟨hlen, hstrs, hw⟩
  rw [wp_pure]
  refine ⟨?_, by omega, hstrs, hw⟩
  rw [List.length_append, List.length_take, List.length_drop, hlen]
  omega

theorem strlen_spec (hs : s.wrapped = false) (p : Bytes) :
    wp (sysutilStrlen p) (fun len s' => s' = s ∧ len = (cstr p).length ∧ len < 2 ^ 32) Stops s := by
  rw [sysutilStrlen]
  refine wp_cases (fun _ => .inr ⟨⟨_, rfl⟩, hs⟩) fun hlen => ?_
  refine ⟨rfl, rfl, ?_⟩
  have hmax : intMax = 2147483647 := rfl
  omega

theorem cstr_length_le (p : Bytes) : (cstr p).length ≤ p.length := (List.takeWhile_sublist _).length_le

/-! ### One string -/

variable [DecidableEq ι] {name : StrName ι}

def put (name : StrName ι) (str : MyStr) (s : StrHeap ι) : StrHeap ι :=
  { s with strs := Function.update s.strs name str }

@[simp] theorem put_self (str : MyStr) : (s.put name str).strs name = str := Function.update_self ..

theorem put_frame (str : MyStr) : Frame name s (s.put name str) := fun _ hm => Function.update_of_ne hm ..

theorem put_put (str str' : MyStr) : (s.put name str).put name str' = s.put name str' := by
  rw [put, put, put, Function.update_idem]

omit [DecidableEq ι] in
@[simp] theorem wp_getStr (Q : MyStr → StrHeap ι → Prop) (E : StrFault → StrHeap ι → Prop) :
    wp (getStr name) Q E s ↔ Q (s.strs name) s := Iff.rfl

@[simp] theorem wp_modStr (f : MyStr → MyStr) (Q : Unit → StrHeap ι → Prop) (E : StrFault → StrHeap ι → Prop) :
    wp (modStr name f) Q E s ↔ Q () (s.put name (f (s.strs name))) := Iff.rfl

omit [DecidableEq ι] in
theorem wp_buffer {Q : Bytes → StrHeap ι → Prop} {E : StrFault → StrHeap ι → Prop} {b : Bytes}
    (hb : (s.strs name).pBuf = some b) (hQ : Q b s) : wp (buffer name) Q E s := by
  rw [buffer, wp_bind, wp_get, hb]
  exact hQ

theorem wp_storeByte {Q : Unit → StrHeap ι → Prop} {E : StrFault → StrHeap ι → Prop} {b : Bytes} {k : ℕ} {c : UInt8}
    (hb : (s.strs name).pBuf = some b) (hk : k < b.length)
    (hQ : Q () (s.put name { s.strs name with pBuf := some (b.set k c) })) : wp (storeByte name k c) Q E s := by
  rw [storeByte, wp_bind]
  apply wp_buffer hb
  rw [if_pos hk, wp_modStr]
  exact hQ

theorem GoodBut.put {str : MyStr} (hs : s.GoodBut name) (hstr : str.Sized) : (s.put name str).GoodBut name := by
  refine ⟨fun m hm => ?_, ?_, hs.exact⟩
  · rw [put_frame str m hm]
    exact hs.others m hm
  · rwa [put_self]

theorem GoodBut.put_ok {str : MyStr} (hs : s.GoodBut name) (hstr : str.Ok) : (s.put name str).Good := by
  refine ⟨fun m => ?_, hs.exact⟩
  by_cases hm : m = name
  · rw [hm, put_self]
    exact hstr
  · rw [put_frame str m hm]
    exact hs.others m hm

/-- A string that was edited: the others, its length and its room are as before. -/
structure Edited (name : StrName ι) (s s' : StrHeap ι) : Prop where
  good : s'.GoodBut name
  frame : Frame name s s'
  len : (s'.strs name).len = (s.strs name).len
  alloc : (s.strs name).allocBytes ≤ (s'.strs name).allocBytes

/-- A string that has been given a length, and a zero there. -/
structure Filled (name : StrName ι) (k : ℕ) (s s' : StrHeap ι) : Prop where
  good : s'.Good
  frame : Frame name s s'
  len : (s'.strs name).len = k

/-- A buffer with a zero where the string ends. -/
theorem ok_of_set {str : MyStr} (hstr : str.Sized) {b : Bytes} (hb : b.length = str.allocBytes) {k : ℕ}
    (hk : k < str.allocBytes) : MyStr.Ok ⟨some (b.set k chNul), k, str.allocBytes⟩ := by
  refine ⟨⟨fun hnone => (Option.some_ne_none _ hnone).elim, ?_, hstr.small⟩, ?_⟩
  · intro c hc
    obtain rfl := Option.some.inj hc
    exact ⟨hk, by rw [List.length_set, hb]⟩
  · intro c hc
    obtain rfl := Option.some.inj hc
    simp [hb, hk]

theorem GoodBut.filled (hs : s.GoodBut name) {b : Bytes} (hb : b.length = (s.strs name).allocBytes) {k : ℕ}
    (hk : k < (s.strs name).allocBytes) :
    Filled name k s (s.put name ⟨some (b.set k chNul), k, (s.strs name).allocBytes⟩) := by
  refine ⟨hs.put_ok (ok_of_set hs.self hb hk), put_frame _, ?_⟩
  rw [put_self]

/-- The end of what allocates or appends. -/
theorem terminate_spec (hs : s.GoodBut name) {k : ℕ} (hk : k < (s.strs name).allocBytes) :
    wp (do storeByte name k chNul; modStr name fun str => { str with len := k })
      (fun _ s' => Filled name k s s') Stops s := by
  obtain ⟨b, hb, hlen⟩ := hs.self.room hk
  rw [wp_bind]
  apply wp_storeByte hb (hlen ▸ hk)
  rw [wp_modStr, put_self, put_put]
  exact hs.filled hlen hk

theorem trunc_spec (hs : s.GoodBut name) (k : ℕ) :
    wp (strTrunc name k) (fun _ s' => Filled name k s s') Stops s := by
  rw [strTrunc, wp_bind, wp_getStr]
  refine wp_cases (fun _ => stops_bug _ s) fun hroom => ?_
  have hk : k < (s.strs name).allocBytes := Nat.lt_of_not_le hroom
  obtain ⟨b, hb, hlen⟩ := hs.self.room hk
  rw [wp_bind, wp_modStr]
  apply wp_storeByte (b := b) (by rw [put_self]; exact hb) (hlen ▸ hk)
  rw [put_self, put_put]
  exact hs.filled hlen hk

/-! ### Copies -/

/-- The bytes at the pointer are there, and in no buffer that is written to. -/
def Readable (s : StrHeap ι) (name : StrName ι) (size : ℕ) : StrPtr ι → Prop
  | .bytes b => size ≤ b.length
  | .buf m off => m ≠ name ∧ (size ≠ 0 → off + size ≤ (s.strs m).allocBytes)

omit [DecidableEq ι] in
theorem Readable.frame {s' : StrHeap ι} {size : ℕ} {src : StrPtr ι} (h : Readable s name size src)
    (hf : Frame name s s') : Readable s' name size src := by
  cases src with
  | bytes b => exact h
  | buf m off =>
    obtain ⟨hm, hoff⟩ := h
    refine ⟨hm, fun hsize => ?_⟩
    rw [hf m hm]
    exact hoff hsize

omit [DecidableEq ι] in
theorem loadBytes_spec (hs : s.GoodBut name) {size : ℕ} {src : StrPtr ι} (hsrc : Readable s name size src)
    (hsize : size ≠ 0) : wp (loadBytes src size) (fun chunk s' => s' = s ∧ chunk.length = size) Stops s := by
  cases src with
  | bytes b =>
    have hle : size ≤ b.length := hsrc
    rw [loadBytes, if_pos hle]
    exact ⟨rfl, List.length_take_of_le hle⟩
  | buf m off =>
    obtain ⟨-, hoff⟩ := hsrc
    have hle := hoff hsize
    have hpos : 0 < (s.strs m).allocBytes := by omega
    obtain ⟨b, hb, hlen⟩ := (hs.sized m).room hpos
    rw [← hlen] at hle
    rw [loadBytes, wp_bind]
    apply wp_buffer hb
    rw [if_pos hle]
    refine ⟨rfl, ?_⟩
    rw [List.length_take, List.length_drop]
    omega

theorem memcpy_spec (hs : s.GoodBut name) (off : ℕ) {size : ℕ} (hroom : off + size ≤ (s.strs name).allocBytes)
    {src : StrPtr ι} (hsrc : Readable s name size src) :
    wp (sysutilMemcpy name off src size) (fun _ s' => Edited name s s') Stops s := by
  rw [sysutilMemcpy]
  refine wp_cases (fun _ => ?_) fun hsize => ?_
  · exact ⟨hs, Frame.refl name s, rfl, le_rfl⟩
  · refine wp_cases (fun _ => .inr ⟨⟨_, rfl⟩, hs.exact⟩) fun _ => ?_
    rw [wp_bind]
    refine wp_mono (loadBytes_spec hs hsrc hsize) ?_ (fun _ _ he => he)
    rintro chunk s' ⟨rfl, hchunk⟩
    have hpos : 0 < (s'.strs name).allocBytes := by omega
    obtain ⟨b, hb, hlen⟩ := hs.self.room hpos
    rw [wp_bind]
    apply wp_buffer hb
    rw [if_pos (hlen ▸ hroom), wp_modStr]
    refine ⟨hs.put ⟨fun hnone => (Option.some_ne_none _ hnone).elim, ?_, hs.self.small⟩, put_frame _, ?_, ?_⟩
    · intro c hc
      obtain rfl := Option.some.inj hc
      refine ⟨(hs.self.buf b hb).1, ?_⟩
      show (b.take off ++ chunk ++ b.drop (off + size)).length = _
      rw [List.length_append, List.length_append, List.length_take, List.length_drop, hchunk, ← hlen]
      omega
    · rw [put_self]
    · rw [put_self]

/-! ### Allocating and appending -/

theorem alloc_spec (hs : s.GoodBut name) {src : StrPtr ι} {len : ℕ} (hlen : len < 2 ^ 32)
    (hsrc : Readable s name len src) :
    wp (privateStrAllocMemchunk name src len) (fun _ s' => Filled name len s s') Stops s := by
  rw [privateStrAllocMemchunk]
  refine checked_sum hlen (by decide) fun _ => ?_
  rw [wp_bind, wp_getStr, wp_bind, wp_when]
  -- what is left to do once the buffer has room
  have hrest : ∀ s₁ : StrHeap ι, s₁.GoodBut name → Frame name s s₁ → len < (s₁.strs name).allocBytes →
      wp (do
        sysutilMemcpy name 0 src len
        storeByte name len chNul
        modStr name fun str => { str with len := len }) (fun _ s' => Filled name len s s') Stops s₁ := by
    intro s₁ hs₁ hf hroom
    rw [wp_bind]
    refine wp_mono (memcpy_spec hs₁ 0 (by omega) (hsrc.frame hf)) ?_ (fun _ _ he => he)
    intro _ s₂ h₂
    refine wp_mono (terminate_spec h₂.good (Nat.lt_of_lt_of_le hroom h₂.alloc)) ?_ (fun _ _ he => he)
    intro _ s₃ h₃
    exact ⟨h₃.good, (hf.trans h₂.frame).trans h₃.frame, h₃.len⟩
  split
  · rw [wp_bind, strFree, wp_modStr, wp_bind]
    have hfree : (s.put name initMystr).GoodBut name := hs.put initMystr_ok.sized
    refine wp_mono (malloc_spec hfree.exact (len + 1)) ?_ (fun _ _ he => he)
    rintro b s₁ ⟨hb, hmax, hstrs, hw⟩
    have hs₁ : s₁.GoodBut name := ⟨fun m hm => hstrs ▸ hfree.others m hm, hstrs ▸ hfree.self, hw⟩
    have hf₁ : Frame name s s₁ := fun m hm => (congrFun hstrs m).trans (put_frame _ m hm)
    have hself : s₁.strs name = initMystr := (congrFun hstrs name).trans (put_self _)
    have hnull : ¬ initMystr.pBuf.isSome = true := Bool.false_ne_true
    rw [wp_bind, setbuf, wp_bind, wp_getStr, hself, if_neg hnull, wp_modStr, wp_modStr, put_self, hself]
    have hsized : MyStr.Sized ⟨some b, 0, len + 1⟩ := by
      refine ⟨fun hnone => (Option.some_ne_none _ hnone).elim, ?_, hmax⟩
      intro c hc
      obtain rfl := Option.some.inj hc
      exact ⟨Nat.succ_pos len, hb⟩
    show wp _ _ _ ((s₁.put name ⟨some b, 0, 0⟩).put name ⟨some b, 0, len + 1⟩)
    rw [put_put]
    refine hrest _ (hs₁.put hsized) (hf₁.trans (put_frame _)) ?_
    rw [put_self]
    exact Nat.lt_succ_self len
  · next hroom => exact hrest s hs (Frame.refl name s) (by omega)

/-- The buffer is enlarged, where it is too small. -/
theorem grow_spec (hs : s.GoodBut name) (needed : ℕ) :
    wp (when ((s.strs name).allocBytes < needed) do
      let newbuf ← sysutilRealloc (s.strs name).pBuf needed
      modStr name fun str => { str with pBuf := some newbuf, allocBytes := needed })
      (fun _ s' => Edited name s s' ∧ needed ≤ (s'.strs name).allocBytes) Stops s := by
  rw [wp_when]
  split
  · next hroom =>
    have hold : ((s.strs name).pBuf.getD []).length ≤ needed ∧ (s.strs name).len < needed := by
      cases hb : (s.strs name).pBuf with
      | none =>
        have hzero := (hs.self.null hb).1
        exact ⟨Nat.zero_le _, by omega⟩
      | some b =>
        obtain ⟨hlt, hlen⟩ := hs.self.buf b hb
        exact ⟨by rw [Option.getD_some, hlen]; omega, by omega⟩
    rw [wp_bind]
    refine wp_mono (realloc_spec hs.exact _ hold.1) ?_ (fun _ _ he => he)
    rintro b s₁ ⟨hb, hmax, hstrs, hw⟩
    have hs₁ : s₁.GoodBut name := ⟨fun m hm => hstrs ▸ hs.others m hm, hstrs ▸ hs.self, hw⟩
    rw [wp_modStr]
    have hsized : MyStr.Sized { s₁.strs name with pBuf := some b, allocBytes := needed } := by
      refine ⟨fun hnone => (Option.some_ne_none _ hnone).elim, ?_, hmax⟩
      intro c hc
      obtain rfl := Option.some.inj hc
      exact ⟨hstrs ▸ hold.2, hb⟩
    refine ⟨⟨hs₁.put hsized, fun m hm => ?_, ?_, ?_⟩, ?_⟩
    · rw [put_frame _ m hm, hstrs]
    · rw [put_self, hstrs]
    · rw [put_self]
      exact Nat.le_of_lt hroom
    · rw [put_self]
  · next hroom => exact ⟨⟨hs, Frame.refl name s, rfl, le_rfl⟩, by omega⟩

theorem append_spec (hs : s.GoodBut name) {src : StrPtr ι} {len : ℕ} (hlen : len < 2 ^ 32)
    (hsrc : Readable s name len src) : wp (privateStrAppendMemchunk name src len)
      (fun _ s' => Filled name ((s.strs name).len + len) s s') Stops s := by
  have hold := hs.self.len_le
  have hmax : intMax = 2147483647 := rfl
  rw [privateStrAppendMemchunk, wp_bind, wp_getStr]
  refine checked_sum hlen (by omega) fun hsum => ?_
  refine checked_sum hsum (by decide) fun hneeded => ?_
  rw [wp_bind]
  refine wp_mono (grow_spec hs _) ?_ (fun _ _ he => he)
  rintro _ s₁ ⟨h₁, hroom⟩
  rw [wp_bind]
  refine wp_mono (memcpy_spec h₁.good (s.strs name).len (by omega) (hsrc.frame h₁.frame)) ?_
    (fun _ _ he => he)
  intro _ s₂ h₂
  rw [wp_bind]
  apply uadd_fits (by omega)
  have hroom₂ := h₂.alloc
  refine wp_mono (terminate_spec h₂.good (by omega)) ?_ (fun _ _ he => he)
  intro _ s₃ h₃
  exact ⟨h₃.good, (h₁.frame.trans h₂.frame).trans h₃.frame, h₃.len⟩

/-- `str_reserve` may leave the string without its zero, but not without its room. -/
theorem reserve_spec (hs : s.Good) {resLen : ℕ} (hres : resLen < 2 ^ 32) :
    wp (strReserve name resLen) (fun _ s' => s'.GoodBut name ∧ Frame name s s') Stops s := by
  rw [strReserve, wp_bind]
  rcases Nat.lt_or_ge (resLen + 1) (2 ^ 32) with hfit | hover
  · apply uadd_fits hfit
    rw [if_neg (Nat.succ_ne_zero resLen), wp_bind, wp_getStr, wp_bind]
    refine wp_mono (grow_spec (hs.goodBut name) (resLen + 1)) ?_ (fun _ _ he => he)
    rintro _ s₁ ⟨h₁, hroom⟩
    obtain ⟨b, hb, hlen⟩ := h₁.good.self.room (k := resLen) (by omega)
    apply wp_storeByte hb (by omega)
    have hsized : MyStr.Sized { s₁.strs name with pBuf := some (b.set resLen chNul) } := by
      refine ⟨fun hnone => (Option.some_ne_none _ hnone).elim, ?_, h₁.good.self.small⟩
      intro c hc
      obtain rfl := Option.some.inj hc
      exact ⟨(h₁.good.self.buf b hb).1, by rw [List.length_set, hlen]⟩
    exact ⟨h₁.good.put hsized, h₁.frame.trans (put_frame _)⟩
  · apply uadd_wraps hres (by decide) hover
    intro c s' _ hc
    have hzero : c = 0 := Nat.lt_one_iff.mp hc
    rw [if_pos hzero]
    exact stops_bug _ s'

/-! ### The functions on one string -/

omit [DecidableEq ι] in
theorem GoodBut.len_le_alloc (hs : s.GoodBut name) (m : StrName ι) : (s.strs m).len ≤ (s.strs m).allocBytes := by
  cases hb : (s.strs m).pBuf with
  | none =>
    have hzero := (hs.sized m).null hb
    omega
  | some b => exact Nat.le_of_lt ((hs.sized m).buf b hb).1

omit [DecidableEq ι] in
/-- A part of another string. -/
theorem readable_part (hs : s.GoodBut name) {m : StrName ι} (hm : m ≠ name) (off size : ℕ)
    (hpart : off + size ≤ (s.strs m).len) : Readable s name size (.buf m off) :=
  ⟨hm, fun _ => hpart.trans (hs.len_le_alloc m)⟩

theorem copy_spec {src : StrName ι} (hs : s.GoodBut name) (hne : src ≠ name) :
    wp (strCopy name src) (fun _ s' => Filled name (s.strs src).len s s') Stops s := by
  have hmax : intMax = 2147483647 := rfl
  have hlen := (hs.sized src).len_le
  rw [strCopy, wp_bind, wp_getStr]
  exact alloc_spec hs (by omega) (readable_part hs hne _ _ (by omega))

theorem free_spec (hs : s.GoodBut name) : wp (strFree name) (fun _ s' => Filled name 0 s s') Stops s := by
  rw [strFree, wp_modStr]
  exact ⟨hs.put_ok initMystr_ok, put_frame _, by rw [put_self]; rfl⟩

theorem getbuf_spec (hs : s.Good) :
    wp (strGetbuf name) (fun _ s' => Filled name (s.strs name).len s s') Stops s := by
  rw [strGetbuf, wp_bind, wp_getStr, wp_when]
  split
  · next hnone =>
    have hzero := (hs.strs name).sized.null (Option.isNone_iff_eq_none.mp hnone)
    rw [hzero.1]
    refine wp_cases (fun _ => stops_bug _ s) fun _ => ?_
    exact alloc_spec (hs.goodBut name) (by decide) (Nat.zero_le _)
  · exact ⟨hs, Frame.refl name s, rfl⟩

theorem empty_spec (hs : s.Good) : wp (strEmpty name) (fun _ s' => Filled name 0 s s') Stops s := by
  rw [strEmpty, wp_bind]
  refine wp_mono (getbuf_spec hs) ?_ (fun _ _ he => he)
  intro _ s₁ h₁
  refine wp_mono (trunc_spec (h₁.good.goodBut name) 0) ?_ (fun _ _ he => he)
  intro _ s₂ h₂
  exact ⟨h₂.good, h₁.frame.trans h₂.frame, h₂.len⟩

theorem appendStr_spec {other : StrName ι} (hs : s.GoodBut name) (hne : other ≠ name) :
    wp (strAppendStr name other) (fun _ s' => Filled name ((s.strs name).len + (s.strs other).len) s s') Stops s := by
  have hmax : intMax = 2147483647 := rfl
  have hlen := (hs.sized other).len_le
  rw [strAppendStr, wp_bind, wp_getStr]
  exact append_spec hs (by omega) (readable_part hs hne _ _ (by omega))

/-- A string that is well formed afterwards, and the others as they were. -/
structure Redone (name : StrName ι) (s s' : StrHeap ι) : Prop where
  good : s'.Good
  frame : Frame name s s'

omit [DecidableEq ι] in
theorem Filled.redone {s' : StrHeap ι} {k : ℕ} (h : Filled name k s s') : Redone name s s' := ⟨h.good, h.frame⟩

omit [DecidableEq ι] in
theorem Redone.trans {s' s'' : StrHeap ι} (h : Redone name s s') (h' : Redone name s' s'') : Redone name s s'' :=
  ⟨h'.good, h.frame.trans h'.frame⟩

theorem allocText_spec (hs : s.GoodBut name) (src : Bytes) :
    wp (strAllocText name src) (fun _ s' => Redone name s s') Stops s := by
  rw [strAllocText, wp_bind]
  refine wp_mono (strlen_spec hs.exact src) ?_ (fun _ _ he => he)
  rintro len _ ⟨rfl, hlen, hlt⟩
  refine wp_mono (alloc_spec hs hlt ?_) (fun _ _ h => h.redone) (fun _ _ he => he)
  exact hlen ▸ cstr_length_le src

theorem appendText_spec (hs : s.GoodBut name) (src : Bytes) :
    wp (strAppendText name src) (fun _ s' => Redone name s s') Stops s := by
  rw [strAppendText, wp_bind]
  refine wp_mono (strlen_spec hs.exact src) ?_ (fun _ _ he => he)
  rintro len _ ⟨rfl, hlen, hlt⟩
  refine wp_mono (append_spec hs hlt ?_) (fun _ _ h => h.redone) (fun _ _ he => he)
  exact hlen ▸ cstr_length_le src

theorem appendChar_spec (hs : s.GoodBut name) (c : UInt8) :
    wp (strAppendChar name c) (fun _ s' => Redone name s s') Stops s :=
  wp_mono (append_spec hs (by decide) le_rfl) (fun _ _ h => h.redone) (fun _ _ he => he)

omit [DecidableEq ι] in
/-- The loop stops at the terminator, which is there. -/
theorem altTermLoop_spec {term : UInt8} {src : Bytes} (hterm : term ∈ src) : ∀ {len : ℕ}, len < 2 ^ 32 →
    wp (altTermLoop term src len) (fun n s' => s' = s ∧ n < 2 ^ 32 ∧ n ≤ len + src.length) Stops s := by
  induction src with
  | nil => cases hterm
  | cons b src ih =>
    intro len hlen
    rw [altTermLoop]
    refine wp_cases (fun _ => ⟨rfl, hlen, Nat.le_add_right ..⟩) fun hb => ?_
    have hmem : term ∈ src := (List.mem_cons.mp hterm).resolve_left fun he => hb he.symm
    rw [wp_bind]
    rcases Nat.lt_or_ge (len + 1) (2 ^ 32) with hfit | hover
    · apply uadd_fits hfit
      rw [if_neg (Nat.succ_ne_zero len)]
      refine wp_mono (ih hmem hfit) ?_ (fun _ _ he => he)
      rintro n s' ⟨hs', hn, hle⟩
      rw [List.length_cons]
      exact ⟨hs', hn, by omega⟩
    · apply uadd_wraps hlen (by decide) hover
      intro c s' _ hc
      rw [if_pos (Nat.lt_one_iff.mp hc)]
      exact stops_bug _ s'

theorem allocAltTerm_spec (hs : s.GoodBut name) {src : Bytes} {term : UInt8} (hterm : term ∈ src) :
    wp (strAllocAltTerm name src term) (fun _ s' => Redone name s s') Stops s := by
  rw [strAllocAltTerm, wp_bind]
  refine wp_mono (altTermLoop_spec hterm (by decide)) ?_ (fun _ _ he => he)
  rintro len _ ⟨rfl, hlt, hlen⟩
  refine wp_mono (alloc_spec hs hlt ?_) (fun _ _ h => h.redone) (fun _ _ he => he)
  exact hlen.trans_eq (Nat.zero_add _)

omit [DecidableEq ι] in
theorem loadByte_spec (hs : s.Good) {i : ℕ} (hi : i < (s.strs name).allocBytes) :
    wp (loadByte name i) (fun _ s' => s' = s) Stops s := by
  obtain ⟨b, hb, hlen⟩ := (hs.strs name).sized.room hi
  rw [loadByte, wp_bind]
  apply wp_buffer hb
  rw [List.getElem?_eq_getElem (hlen ▸ hi)]
  rfl

/-- A character before the end is changed. -/
theorem storeByte_spec (hs : s.Good) {i : ℕ} (hi : i < (s.strs name).len) (c : UInt8) :
    wp (storeByte name i c) (fun _ s' => Filled name (s.strs name).len s s') Stops s := by
  have hsized := (hs.strs name).sized
  have hroom := Nat.lt_of_lt_of_le hi ((hs.goodBut name).len_le_alloc name)
  obtain ⟨b, hb, hlen⟩ := hsized.room hroom
  have hne : i ≠ (s.strs name).len := Nat.ne_of_lt hi
  apply wp_storeByte hb (hlen ▸ hroom)
  refine ⟨(hs.goodBut name).put_ok ⟨⟨fun hnone => (Option.some_ne_none _ hnone).elim, ?_, hsized.small⟩, ?_⟩,
    put_frame _, by rw [put_self]⟩
  · intro b' hb'
    obtain rfl := Option.some.inj hb'
    exact ⟨(hsized.buf b hb).1, by rw [List.length_set, hlen]⟩
  · intro b' hb'
    obtain rfl := Option.some.inj hb'
    show (b.set i c)[(s.strs name).len]? = some chNul
    rw [List.getElem?_set_ne hne]
    exact (hs.strs name).ended b hb

theorem charLoop_spec (f : UInt8 → UInt8) : ∀ (k i : ℕ) {s : StrHeap ι}, s.Good → i + k ≤ (s.strs name).len →
    wp (charLoop name f i k) (fun _ s' => Redone name s s') Stops s
  | 0, _, s, hs, _ => ⟨hs, Frame.refl name s⟩
  | k + 1, i, s, hs, hle => by
    have hi : i < (s.strs name).len := by omega
    rw [charLoop, wp_bind]
    refine wp_mono (loadByte_spec hs (Nat.lt_of_lt_of_le hi ((hs.goodBut name).len_le_alloc name))) ?_ (fun _ _ he => he)
    rintro b _ rfl
    rw [wp_bind]
    refine wp_mono (storeByte_spec hs hi (f b)) ?_ (fun _ _ he => he)
    intro _ s₁ h₁
    have hlen := h₁.len
    refine wp_mono (charLoop_spec f k (i + 1) h₁.good (by omega)) ?_ (fun _ _ he => he)
    exact fun _ s₂ h₂ => h₁.redone.trans h₂

theorem mapChars_spec (hs : s.Good) (f : UInt8 → UInt8) :
    wp (mapChars name f) (fun _ s' => Redone name s s') Stops s := by
  rw [mapChars, wp_bind, wp_getStr]
  exact charLoop_spec f _ 0 hs (Nat.zero_add _).le

theorem padLoop_spec : ∀ (toPad : ℕ) {s : StrHeap ι}, s.Good →
    wp (padLoop name toPad) (fun _ s' => Redone name s s') Stops s
  | 0, s, hs => ⟨hs, Frame.refl name s⟩
  | toPad + 1, s, hs => by
    rw [padLoop, wp_bind]
    refine wp_mono (appendChar_spec (hs.goodBut name) chSpace) ?_ (fun _ _ he => he)
    intro _ s₁ h₁
    refine wp_mono (padLoop_spec toPad h₁.good) ?_ (fun _ _ he => he)
    exact fun _ s₂ h₂ => h₁.trans h₂

theorem rpad_spec (hs : s.Good) {minWidth : ℕ} (hmin : minWidth < 2 ^ 32) :
    wp (strRpad name minWidth) (fun _ s' => Redone name s s') Stops s := by
  rw [strRpad, wp_bind, wp_getStr]
  refine wp_cases (fun _ => ⟨hs, Frame.refl name s⟩) fun hlt => ?_
  rw [wp_bind]
  apply usub_fits (by omega) hmin
  exact padLoop_spec _ hs

/-- `str_lpad` builds the string in the static one. -/
theorem lpad_spec (hs : s.Good) (hne : name ≠ .tmp) {minWidth : ℕ} (hmin : minWidth < 2 ^ 32) :
    wp (strLpad name minWidth) (fun _ s' => s'.Good) Stops s := by
  rw [strLpad, wp_bind, wp_getStr]
  refine wp_cases (fun _ => hs) fun hlt => ?_
  rw [wp_bind]
  apply usub_fits (by omega) hmin
  rw [wp_bind]
  refine wp_mono (empty_spec hs) ?_ (fun _ _ he => he)
  intro _ s₁ h₁
  rw [wp_bind]
  refine wp_mono (padLoop_spec _ h₁.good) ?_ (fun _ _ he => he)
  intro _ s₂ h₂
  rw [wp_bind]
  refine wp_mono (appendStr_spec (h₂.good.goodBut .tmp) hne) ?_ (fun _ _ he => he)
  intro _ s₃ h₃
  refine wp_mono (copy_spec (h₃.good.goodBut name) hne.symm) ?_ (fun _ _ he => he)
  exact fun _ s₄ h₄ => h₄.good

/-! ### Searching and splitting -/

omit [DecidableEq ι] in
theorem memcmp_spec (hs : s.Good) {i : ℕ} {p : Bytes} (hi : i + p.length ≤ (s.strs name).len) :
    wp (sysutilMemcmp name i p) (fun _ s' => s' = s) Stops s := by
  rw [sysutilMemcmp]
  refine wp_cases (fun _ => rfl) fun hpos => ?_
  have hroom : i + p.length ≤ (s.strs name).allocBytes := hi.trans ((hs.goodBut name).len_le_alloc name)
  obtain ⟨b, hb, hlen⟩ := (hs.strs name).sized.room (k := 0) (by omega)
  rw [wp_bind, loadBytes, wp_bind]
  apply wp_buffer hb
  rw [if_pos (hlen ▸ hroom)]
  rfl

omit [DecidableEq ι] in
theorem locateLoop_spec (hs : s.Good) (p : Bytes) : ∀ (k i : ℕ), i + k + p.length ≤ (s.strs name).len + 1 →
    wp (locateLoop name p i k) (fun found s' => s' = s ∧
      ∀ n, found = some n → n + p.length ≤ (s.strs name).len) Stops s
  | 0, _, _ => ⟨rfl, fun n hn => (Option.some_ne_none n hn.symm).elim⟩
  | k + 1, i, hle => by
    have hi : i + p.length ≤ (s.strs name).len := by omega
    rw [locateLoop, wp_bind]
    refine wp_mono (memcmp_spec hs hi) ?_ (fun _ _ he => he)
    rintro same s' hs'
    subst s'
    refine wp_cases (fun _ => ⟨rfl, fun n hn => ?_⟩) fun _ => locateLoop_spec hs p k (i + 1) (by omega)
    exact Option.some.inj hn ▸ hi

omit [DecidableEq ι] in
theorem locateReverseLoop_spec (hs : s.Good) (p : Bytes) : ∀ i : ℕ, i + p.length ≤ (s.strs name).len →
    wp (locateReverseLoop name p i) (fun found s' => s' = s ∧
      ∀ n, found = some n → n + p.length ≤ (s.strs name).len) Stops s
  | 0, hi => by
    rw [locateReverseLoop, wp_bind]
    refine wp_mono (memcmp_spec hs hi) ?_ (fun _ _ he => he)
    rintro same s' hs'
    subst s'
    refine ⟨rfl, fun n hn => ?_⟩
    cases same with
    | true => exact Option.some.inj hn ▸ hi
    | false => cases hn
  | i + 1, hi => by
    rw [locateReverseLoop, wp_bind]
    refine wp_mono (memcmp_spec hs hi) ?_ (fun _ _ he => he)
    rintro same s' hs'
    subst s'
    refine wp_cases (fun _ => ⟨rfl, fun n hn => ?_⟩) fun _ => locateReverseLoop_spec hs p i (by omega)
    exact Option.some.inj hn ▸ hi

omit [DecidableEq ι] in
/-- What is found is in the string, and not empty. -/
theorem locate_spec (hs : s.Good) (isReverse : Bool) (p : Bytes) :
    wp (strLocate isReverse name p) (fun found s' => s' = s ∧
      ∀ n, found = some n → n + (cstr p).length ≤ (s.strs name).len ∧ 0 < (cstr p).length) Stops s := by
  have hmax : intMax = 2147483647 := rfl
  have hlen := (hs.strs name).sized.len_le
  rw [strLocate, wp_bind]
  refine wp_mono (strlen_spec hs.exact p) ?_ (fun _ _ he => he)
  rintro textLen s' ⟨hs', rfl, -⟩
  subst s'
  rw [wp_bind, wp_getStr]
  refine wp_cases (fun _ => ⟨rfl, fun n hn => (Option.some_ne_none n hn.symm).elim⟩) fun hfits => ?_
  have hle : (cstr p).length ≤ (s.strs name).len := by omega
  have hpos : 0 < (cstr p).length := by omega
  rw [wp_bind]
  apply usub_fits hle (by omega)
  have hloop : wp (if isReverse = true then locateReverseLoop name (cstr p) ((s.strs name).len - (cstr p).length)
      else locateLoop name (cstr p) 0 ((s.strs name).len - (cstr p).length + 1)) (fun found s' => s' = s ∧
        ∀ n, found = some n → n + (cstr p).length ≤ (s.strs name).len) Stops s := by
    refine wp_cases (fun _ => ?_) fun _ => ?_
    · exact locateReverseLoop_spec hs (cstr p) _ (by omega)
    · exact locateLoop_spec hs (cstr p) _ 0 (by omega)
  refine wp_mono hloop ?_ (fun _ _ he => he)
  rintro found s' ⟨hs', hfound⟩
  exact ⟨hs', fun n hn => ⟨hfound n hn, hpos⟩⟩

/-- What splitting leaves: only the two strings are other ones, and what is behind the text is shorter than the
string was, or there is nothing behind it. -/
structure Split (src rhs : StrName ι) (s s' : StrHeap ι) : Prop where
  good : s'.Good
  frame : ∀ m, m ≠ src → m ≠ rhs → s'.strs m = s.strs m
  shorter : (s'.strs rhs).len = 0 ∨ (s'.strs rhs).len < (s.strs src).len

theorem split_spec {src rhs : StrName ι} (hs : s.Good) (hne : src ≠ rhs) (p : Bytes) (isReverse : Bool) :
    wp (strSplitTextCommon src rhs p isReverse) (fun _ s' => Split src rhs s s') Stops s := by
  have hmax : intMax = 2147483647 := rfl
  have hlen := (hs.strs src).sized.len_le
  rw [strSplitTextCommon, wp_bind]
  refine wp_mono (strlen_spec hs.exact p) ?_ (fun _ _ he => he)
  rintro searchLen s' ⟨hs', rfl, -⟩
  subst s'
  rw [wp_bind]
  refine wp_mono (locate_spec hs isReverse p) ?_ (fun _ _ he => he)
  rintro found s' ⟨hs', hfound⟩
  subst s'
  cases found with
  | none =>
    refine wp_mono (empty_spec hs) ?_ (fun _ _ he => he)
    exact fun _ s₁ h₁ => ⟨h₁.good, fun m _ hm => h₁.frame m hm, .inl h₁.len⟩
  | some n =>
    obtain ⟨hin, hpos⟩ := hfound n rfl
    show wp (do let str ← getStr src; _) _ _ _
    rw [wp_bind, wp_getStr, wp_bind]
    apply uadd_fits (by omega)
    refine wp_cases (fun _ => stops_bug _ _) fun _ => ?_
    rw [wp_bind]
    apply usub_fits (by omega) (by omega)
    rw [wp_bind]
    apply usub_fits (by omega) (by omega)
    rw [wp_bind]
    have hread := readable_part (hs.goodBut rhs) hne (n + (cstr p).length)
      ((s.strs src).len - n - (cstr p).length) (by omega)
    refine wp_mono (alloc_spec (hs.goodBut rhs) (by omega) hread) ?_ (fun _ _ he => he)
    intro _ s₁ h₁
    refine wp_mono (trunc_spec (h₁.good.goodBut src) n) ?_ (fun _ _ he => he)
    intro _ s₂ h₂
    refine ⟨h₂.good, fun m hm hm' => (h₂.frame m hm).trans (h₁.frame m hm'), .inr ?_⟩
    rw [h₂.frame rhs hne.symm, h₁.len]
    omega

/-- Each round of `str_replace_text` leaves a shorter rest. -/
theorem replaceTextLoop_spec (hlhs : name ≠ .lhsChunk) (hrhs : name ≠ .rhsChunk) (pFrom pTo : Bytes) :
    ∀ (fuel : ℕ) {s : StrHeap ι}, s.Good → (s.strs .lhsChunk).len < fuel →
      wp (replaceTextLoop name pFrom pTo fuel) (fun _ s' => s'.Good) Stops s
  | 0, _, _, hfuel => absurd hfuel (Nat.not_lt_zero _)
  | fuel + 1, s, hs, hfuel => by
    have hne : (StrName.lhsChunk : StrName ι) ≠ .rhsChunk := by
      intro he
      cases he
    rw [replaceTextLoop, wp_bind, wp_getStr, wp_bind]
    refine wp_mono (split_spec hs hne pFrom false) ?_ (fun _ _ he => he)
    intro _ s₁ h₁
    rw [wp_bind]
    refine wp_mono (appendStr_spec (h₁.good.goodBut name) hlhs.symm) ?_ (fun _ _ he => he)
    intro _ s₂ h₂
    rw [wp_bind, wp_getStr, wp_bind]
    have hto : wp (when ((s₂.strs .lhsChunk).len < (s.strs .lhsChunk).len) (strAppendText name pTo))
        (fun _ s' => Redone name s₂ s') Stops s₂ := by
      rw [wp_when]
      split
      · exact appendText_spec (h₂.good.goodBut name) pTo
      · exact ⟨h₂.good, Frame.refl name s₂⟩
    refine wp_mono hto ?_ (fun _ _ he => he)
    intro _ s₃ h₃
    rw [wp_bind]
    refine wp_mono (copy_spec (h₃.good.goodBut .lhsChunk) hne.symm) ?_ (fun _ _ he => he)
    intro _ s₄ h₄
    rw [wp_bind, wp_getStr]
    refine wp_cases (fun _ => h₄.good) fun hrest => ?_
    apply replaceTextLoop_spec hlhs hrhs pFrom pTo fuel h₄.good
    have hlen : (s₄.strs .lhsChunk).len = (s₁.strs .rhsChunk).len := by
      rw [h₄.len, h₃.frame _ hrhs.symm, h₂.frame _ hrhs.symm]
    have hshorter := h₁.shorter
    omega

theorem replaceText_spec (hs : s.Good) (hlhs : name ≠ .lhsChunk) (hrhs : name ≠ .rhsChunk) (pFrom pTo : Bytes) :
    wp (strReplaceText name pFrom pTo) (fun _ s' => s'.Good) Stops s := by
  rw [strReplaceText, wp_bind]
  refine wp_mono (copy_spec (hs.goodBut .lhsChunk) hlhs) ?_ (fun _ _ he => he)
  intro _ s₁ h₁
  rw [wp_bind]
  refine wp_mono (free_spec (h₁.good.goodBut name)) ?_ (fun _ _ he => he)
  intro _ s₂ h₂
  rw [wp_bind, wp_getStr]
  exact replaceTextLoop_spec hlhs hrhs pFrom pTo _ h₂.good (Nat.lt_succ_self _)

/-! ### Parts of a string -/

theorem left_spec {out : StrName ι} (hs : s.Good) (hne : name ≠ out) (chars : ℕ) :
    wp (strLeft name out chars) (fun _ s' => s'.Good) Stops s := by
  have hmax : intMax = 2147483647 := rfl
  have hlen := (hs.strs name).sized.len_le
  rw [strLeft, wp_bind, wp_getStr]
  refine wp_cases (fun _ => stops_bug _ _) fun hle => ?_
  exact wp_mono (alloc_spec (hs.goodBut out) (by omega) (readable_part (hs.goodBut out) hne _ _ (by omega)))
    (fun _ _ h => h.good) (fun _ _ he => he)

/-- The index of `str_right` wraps where `bug` then ends the run. -/
theorem right_spec {out : StrName ι} (hs : s.Good) (hne : name ≠ out) (chars : ℕ) :
    wp (strRight name out chars) (fun _ s' => s'.Good) Stops s := by
  have hmax : intMax = 2147483647 := rfl
  have hlen := (hs.strs name).sized.len_le
  rw [strRight, wp_bind, wp_getStr, wp_bind]
  by_cases hle : (s.strs name).len < chars
  · rw [usub]
    simp only [wp_bind, wp_modify, wp_pure]
    rw [if_pos hle]
    exact stops_bug _ _
  · apply usub_fits (by omega) (by omega)
    rw [if_neg hle]
    exact wp_mono (alloc_spec (hs.goodBut out) (by omega) (readable_part (hs.goodBut out) hne _ _ (by omega)))
      (fun _ _ h => h.good) (fun _ _ he => he)

theorem midToEnd_spec {out : StrName ι} (hs : s.Good) (hne : name ≠ out) (indexx : ℕ) :
    wp (strMidToEnd name out indexx) (fun _ s' => s'.Good) Stops s := by
  have hmax : intMax = 2147483647 := rfl
  have hlen := (hs.strs name).sized.len_le
  rw [strMidToEnd, wp_bind, wp_getStr]
  refine wp_cases (fun _ => stops_bug _ _) fun hle => ?_
  rw [wp_bind]
  apply usub_fits (by omega) (by omega)
  exact wp_mono (alloc_spec (hs.goodBut out) (by omega) (readable_part (hs.goodBut out) hne _ _ (by omega)))
    (fun _ _ h => h.good) (fun _ _ he => he)

omit [DecidableEq ι] in
theorem lineLoop_spec (hs : s.Good) : ∀ (k currPos : ℕ), currPos + k = (s.strs name).len →
    wp (lineLoop name currPos k) (fun n s' => s' = s ∧ currPos ≤ n ∧ n ≤ (s.strs name).len) Stops s
  | 0, currPos, heq => ⟨rfl, le_rfl, by omega⟩
  | k + 1, currPos, heq => by
    have hmax : intMax = 2147483647 := rfl
    have hlen := (hs.strs name).sized.len_le
    have halloc := (hs.goodBut name).len_le_alloc name
    rw [lineLoop, wp_bind]
    refine wp_mono (loadByte_spec hs (by omega)) ?_ (fun _ _ he => he)
    rintro b s' hs'
    subst s'
    refine wp_cases (fun _ => ⟨rfl, le_rfl, by omega⟩) fun _ => ?_
    rw [wp_bind]
    apply uadd_fits (by omega)
    rw [if_neg (Nat.succ_ne_zero currPos)]
    refine wp_mono (lineLoop_spec hs k (currPos + 1) (by omega)) ?_ (fun _ _ he => he)
    rintro n s' ⟨hs', hle, hn⟩
    exact ⟨hs', by omega, hn⟩

omit [DecidableEq ι] in
theorem skipLf_spec (hs : s.Good) (currPos : ℕ) :
    wp (skipLf name currPos (s.strs name).len) (fun _ s' => s' = s) Stops s := by
  have hmax : intMax = 2147483647 := rfl
  have hlen := (hs.strs name).sized.len_le
  have halloc := (hs.goodBut name).len_le_alloc name
  rw [skipLf]
  refine wp_cases (fun _ => rfl) fun hlt => ?_
  rw [wp_bind]
  refine wp_mono (loadByte_spec hs (by omega)) ?_ (fun _ _ he => he)
  rintro b s' hs'
  subst s'
  refine wp_cases (fun _ => ?_) fun _ => rfl
  rw [wp_bind]
  apply uadd_fits (by omega)
  rw [if_neg (Nat.succ_ne_zero currPos)]
  rfl

theorem getline_spec {line : StrName ι} (hs : s.Good) (hne : name ≠ line) (pos : ℕ) :
    wp (strGetline name line pos) (fun _ s' => s'.Good) Stops s := by
  have hmax : intMax = 2147483647 := rfl
  have hlen := (hs.strs name).sized.len_le
  rw [strGetline, wp_bind, wp_getStr, wp_bind]
  refine wp_mono (getbuf_spec hs) ?_ (fun _ _ he => he)
  intro _ s₁ h₁
  refine wp_cases (fun _ => stops_bug _ _) fun hpos => ?_
  rw [wp_bind]
  refine wp_mono (empty_spec h₁.good) ?_ (fun _ _ he => he)
  intro _ s₂ h₂
  refine wp_cases (fun _ => h₂.good) fun _ => ?_
  have hkeep : (s.strs name).len = (s₂.strs name).len := by rw [h₂.frame name hne, h₁.len]
  rw [hkeep] at hpos hlen ⊢
  rw [wp_bind]
  refine wp_mono (lineLoop_spec h₂.good _ pos (by omega)) ?_ (fun _ _ he => he)
  rintro n _ ⟨rfl, hle, hn⟩
  rw [wp_bind]
  apply usub_fits hle (by omega)
  rw [wp_bind]
  refine wp_mono (skipLf_spec h₂.good n) ?_ (fun _ _ he => he)
  rintro next _ rfl
  rw [wp_bind]
  have hread := readable_part (h₂.good.goodBut line) hne pos (n - pos) (by omega)
  exact wp_mono (alloc_spec (h₂.good.goodBut line) (by omega) hread) (fun _ _ h => h.good) (fun _ _ he => he)

end StrHeap

/-! ### All operations -/

open StrHeap

variable {ι : Type} [DecidableEq ι] {s : StrHeap ι}

/-- What truncates or appends makes the string whole, also behind `str_reserve`. -/
theorem StrFill.exec_good {pStr : ι} (fill : StrFill ι pStr) (hs : s.GoodBut (.var pStr)) :
    wp fill.exec (fun _ s' => s'.Good) StrHeap.Stops s := by
  cases fill with
  | trunc truncLen => exact wp_mono (trunc_spec hs _) (fun _ _ h => h.good) (fun _ _ he => he)
  | appendStr other h =>
    have hne : StrName.var other ≠ .var pStr := fun he => h (StrName.var.inj he)
    exact wp_mono (appendStr_spec hs hne) (fun _ _ h => h.good) (fun _ _ he => he)
  | appendText src => exact wp_mono (appendText_spec hs _) (fun _ _ h => h.good) (fun _ _ he => he)
  | appendChar theChar => exact wp_mono (appendChar_spec hs _) (fun _ _ h => h.good) (fun _ _ he => he)
  | appendUlong theUlong => exact wp_mono (appendText_spec hs _) (fun _ _ h => h.good) (fun _ _ he => he)
  | appendFilesizeT theFilesize => exact wp_mono (appendText_spec hs _) (fun _ _ h => h.good) (fun _ _ he => he)
  | appendInt theInt => exact wp_mono (appendText_spec hs _) (fun _ _ h => h.good) (fun _ _ he => he)
  | appendDouble shown => exact wp_mono (appendText_spec hs _) (fun _ _ h => h.good) (fun _ _ he => he)

/-- **Each operation leaves all strings well formed**, or ends the run. -/
theorem StrOp.exec_good (op : StrOp ι) (hs : s.Good) : wp op.exec (fun _ s' => s'.Good) StrHeap.Stops s := by
  have hvar : ∀ {i j : ι}, i ≠ j → StrName.var i ≠ .var j := fun hne he => hne (StrName.var.inj he)
  have hstatic : ∀ i : ι, StrName.var i ≠ .tmp ∧ StrName.var i ≠ .lhsChunk ∧ StrName.var i ≠ .rhsChunk := by
    intro i
    refine ⟨?_, ?_, ?_⟩ <;> intro he <;> cases he
  cases op with
  | allocMemchunk pStr src h =>
    exact wp_mono (alloc_spec (hs.goodBut _) h le_rfl) (fun _ _ h => h.good) (fun _ _ he => he)
  | allocText pStr src =>
    exact wp_mono (allocText_spec (hs.goodBut _) _) (fun _ _ h => h.good) (fun _ _ he => he)
  | allocAltTerm pStr src term h =>
    exact wp_mono (allocAltTerm_spec (hs.goodBut _) h) (fun _ _ h => h.good) (fun _ _ he => he)
  | allocUlong pStr theLong =>
    exact wp_mono (allocText_spec (hs.goodBut _) _) (fun _ _ h => h.good) (fun _ _ he => he)
  | allocFilesizeT pStr theFilesize =>
    exact wp_mono (allocText_spec (hs.goodBut _) _) (fun _ _ h => h.good) (fun _ _ he => he)
  | copy dest src h =>
    exact wp_mono (copy_spec (hs.goodBut _) (hvar h)) (fun _ _ h => h.good) (fun _ _ he => he)
  | free pStr => exact wp_mono (free_spec (hs.goodBut _)) (fun _ _ h => h.good) (fun _ _ he => he)
  | empty pStr => exact wp_mono (empty_spec hs) (fun _ _ h => h.good) (fun _ _ he => he)
  | getbuf pStr => exact wp_mono (getbuf_spec hs) (fun _ _ h => h.good) (fun _ _ he => he)
  | fill pStr how => exact how.exec_good (hs.goodBut _)
  | reserve pStr resLen how =>
    rw [StrOp.exec, wp_bind]
    refine wp_mono (reserve_spec hs resLen.toNat_lt) ?_ (fun _ _ he => he)
    exact fun _ s₁ h₁ => how.exec_good h₁.1
  | upper pStr => exact wp_mono (mapChars_spec hs _) (fun _ _ h => h.good) (fun _ _ he => he)
  | rpad pStr minWidth =>
    exact wp_mono (rpad_spec hs minWidth.toNat_lt) (fun _ _ h => h.good) (fun _ _ he => he)
  | lpad pStr minWidth => exact lpad_spec hs (hstatic pStr).1 minWidth.toNat_lt
  | replaceChar pStr cFrom cTo => exact wp_mono (mapChars_spec hs _) (fun _ _ h => h.good) (fun _ _ he => he)
  | replaceUnprintable pStr newChar =>
    exact wp_mono (mapChars_spec hs _) (fun _ _ h => h.good) (fun _ _ he => he)
  | replaceText pStr pFrom pTo => exact replaceText_spec hs (hstatic pStr).2.1 (hstatic pStr).2.2 pFrom pTo
  | splitText src rhs h p => exact wp_mono (split_spec hs (hvar h) p false) (fun _ _ h => h.good) (fun _ _ he => he)
  | splitTextReverse src rhs h p =>
    exact wp_mono (split_spec hs (hvar h) p true) (fun _ _ h => h.good) (fun _ _ he => he)
  | splitChar src rhs h c => exact wp_mono (split_spec hs (hvar h) [c] false) (fun _ _ h => h.good) (fun _ _ he => he)
  | splitCharReverse src rhs h c =>
    exact wp_mono (split_spec hs (hvar h) [c] true) (fun _ _ h => h.good) (fun _ _ he => he)
  | left pStr out h chars => exact left_spec hs (hvar h) _
  | right pStr out h chars => exact right_spec hs (hvar h) _
  | midToEnd pStr out h indexx => exact midToEnd_spec hs (hvar h) _
  | getline pStr pLineStr h pos =>
    rw [StrOp.exec, wp_bind]
    exact wp_mono (getline_spec hs (hvar h) _) (fun _ _ h => h) (fun _ _ he => he)

theorem execAll_good : ∀ (ops : List (StrOp ι)) {s : StrHeap ι}, s.Good →
    wp (execAll ops) (fun _ s' => s'.Good) StrHeap.Stops s
  | [], _, hs => hs
  | op :: ops, s, hs => by
    rw [execAll, wp_bind]
    exact wp_mono (op.exec_good hs) (fun _ _ h => execAll_good ops h) (fun _ _ he => he)

/-- **Strings stay well formed.** Behind any operations, and whatever memory malloc gives: all strings are well
formed and no length has wrapped; or the run has ended, in `bug`, or in `die` before a length has wrapped. -/
theorem strings_stay_well_formed (fresh : ℕ → Option (ℕ → UInt8)) (ops : List (StrOp ι)) :
    (∀ s, execAll ops (StrHeap.init fresh) = .ok () s → (∀ name, (s.strs name).WellFormed) ∧ s.wrapped = false) ∧
      ∀ e s, execAll ops (StrHeap.init fresh) = .error e s →
        (∃ text, e = .bug text) ∨ (∃ text, e = .die text) ∧ s.wrapped = false := by
  have hinit : (StrHeap.init fresh : StrHeap ι).Good := ⟨fun _ => initMystr_ok, rfl⟩
  have hall := execAll_good ops hinit
  unfold wp at hall
  constructor
  · intro s hs
    rw [hs] at hall
    exact ⟨fun name => (hall.strs name).wellFormed, hall.exact⟩
  · intro e s hs
    rw [hs] at hall
    exact hall

end CosFtp
