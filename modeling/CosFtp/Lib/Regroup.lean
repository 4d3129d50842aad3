/-
# Digits of one size from digits of another

An encoder that writes the bits of its input in groups of another size keeps
the bits that are not out yet in an accumulator: a digit of `a` bits is put
behind them, and digits of `b` bits are taken off the front (`drain`) until
fewer than `b` are left. The accumulator has a width, beyond which it loses
bits that are out already.

`value` is the number that digits are written for. What is out and what is left
of the accumulator make up the number of the input (`regroup_value`), so an
encoder that fills its last digit with zeros is read back by the one for the
other direction (`regroup_regroup`).

Key definitions: `value`, `drain`, `regroup`, `encode`.
Key theorems: `regroup_value`, `regroup_regroup`.
-/
import Mathlib.Data.Nat.Digits.Defs
import Mathlib.Tactic.Ring

namespace Regroup

/-- The number with these digits, the first of them the highest. -/
def value (base : ℕ) (ds : List ℕ) : ℕ := Nat.ofDigits base ds.reverse

theorem value_nil (base : ℕ) : value base [] = 0 := rfl

theorem value_append (base : ℕ) (ds es : List ℕ) :
    value base (ds ++ es) = value base ds * base ^ es.length + value base es := by
  unfold value
  rw [List.reverse_append, Nat.ofDigits_append, List.length_reverse]
  ring

theorem value_singleton (base d : ℕ) : value base [d] = d := by simp [value]

theorem value_cons (base d : ℕ) (ds : List ℕ) : value base (d :: ds) = d * base ^ ds.length + value base ds := by
  rw [← List.singleton_append, value_append, value_singleton]

/-- As many digits for the same number are the same digits. -/
theorem value_inj {base : ℕ} (hbase : 1 < base) {ds es : List ℕ} (hlen : ds.length = es.length)
    (hds : ∀ d ∈ ds, d < base) (hes : ∀ e ∈ es, e < base) (h : value base ds = value base es) : ds = es := by
  have hrev : ds.reverse = es.reverse :=
    Nat.ofDigits_inj_of_len_eq hbase (by simpa using hlen) (by simpa using hds) (by simpa using hes) h
  exact List.reverse_inj.mp hrev

/-- The digits of `b` bits at the front of the low `bits` bits. -/
def drain (b acc bits : ℕ) : List ℕ :=
  if 0 < b ∧ b ≤ bits then acc / 2 ^ (bits - b) % 2 ^ b :: drain b acc (bits - b) else []
termination_by bits

theorem drain_length {b : ℕ} (hb : 0 < b) (acc bits : ℕ) : (drain b acc bits).length = bits / b := by
  rw [drain]
  by_cases hle : b ≤ bits
  · rw [if_pos ⟨hb, hle⟩, List.length_cons, drain_length hb acc (bits - b), Nat.div_eq_sub_div hb hle]
  · rw [if_neg fun h => hle h.2, Nat.div_eq_of_lt (by omega)]
    rfl
termination_by bits

theorem drain_lt (b acc bits : ℕ) : ∀ d ∈ drain b acc bits, d < 2 ^ b := by
  rw [drain]
  split
  case isTrue h =>
    intro d hd
    rcases List.mem_cons.mp hd with rfl | hd
    · exact Nat.mod_lt _ (Nat.two_pow_pos b)
    · exact drain_lt b acc (bits - b) d hd
  case isFalse =>
    intro d hd
    cases hd
termination_by bits

/-- What is taken off and what is left make up the bits there were. -/
theorem drain_value {b : ℕ} (hb : 0 < b) (acc bits : ℕ) :
    value (2 ^ b) (drain b acc bits) * 2 ^ (bits % b) + acc % 2 ^ (bits % b) = acc % 2 ^ bits := by
  by_cases hle : b ≤ bits
  · have hrest := drain_value hb acc (bits - b)
    have hmod : (bits - b) % b = bits % b := (Nat.mod_eq_sub_mod hle).symm
    have hsplit : acc % 2 ^ bits = acc % 2 ^ (bits - b) + 2 ^ (bits - b) * (acc / 2 ^ (bits - b) % 2 ^ b) := by
      rw [← Nat.mod_mul, ← Nat.pow_add, Nat.sub_add_cancel hle]
    have hlow : (2 ^ b) ^ ((bits - b) / b) * 2 ^ (bits % b) = 2 ^ (bits - b) := by
      rw [← Nat.pow_mul, ← Nat.pow_add, ← hmod, Nat.div_add_mod]
    rw [hmod] at hrest
    rw [drain, if_pos ⟨hb, hle⟩, value_cons, drain_length hb, hsplit, ← hrest, ← hlow]
    ring
  · rw [drain, if_neg fun h => hle h.2, value_nil, Nat.mod_eq_of_lt (by omega : bits < b), Nat.zero_mul, Nat.zero_add]
termination_by bits

/-- The digits of `b` bits, and the accumulator with the number of bits in it. -/
def regroup (a b w : ℕ) : List ℕ → ℕ → ℕ → List ℕ × ℕ × ℕ
  | [], acc, bits => ([], acc, bits)
  | x :: xs, acc, bits =>
    let acc := (acc * 2 ^ a + x) % 2 ^ w
    let (out, last) := regroup a b w xs acc ((bits + a) % b)
    (drain b acc (bits + a) ++ out, last)

section

variable {a b w : ℕ}

/-- A digit behind the bits that count. -/
theorem push_mod (acc : ℕ) {bits x : ℕ} (hx : x < 2 ^ a) (hw : bits + a ≤ w) :
    (acc * 2 ^ a + x) % 2 ^ w % 2 ^ (bits + a) = acc % 2 ^ bits * 2 ^ a + x := by
  rw [Nat.mod_mod_of_dvd _ (Nat.pow_dvd_pow 2 hw), Nat.pow_add, Nat.mul_comm (2 ^ bits), Nat.mod_mul]
  rw [Nat.mul_add_mod_self_right, Nat.mod_eq_of_lt hx, Nat.mul_comm acc, Nat.mul_add_div (Nat.two_pow_pos a),
    Nat.div_eq_of_lt hx, Nat.add_zero]
  ring

/-- **What is out and what is left make up the number of the input.** -/
theorem regroup_value (hb : 0 < b) (hw : a + b ≤ w + 1) : ∀ (xs : List ℕ) (acc bits : ℕ), (∀ x ∈ xs, x < 2 ^ a) →
    bits < b → ∀ out acc' r, regroup a b w xs acc bits = (out, acc', r) →
    value (2 ^ b) out * 2 ^ r + acc' % 2 ^ r = acc % 2 ^ bits * (2 ^ a) ^ xs.length + value (2 ^ a) xs ∧
      out.length * b + r = bits + a * xs.length ∧ r < b ∧ ∀ d ∈ out, d < 2 ^ b
  | [], acc, bits, _, hbits, out, acc', r, h => by
    cases h
    simp [value_nil, hbits]
  | x :: xs, acc, bits, hxs, hbits, out, acc', r, h => by
    rw [regroup] at h
    obtain ⟨rest, acc₂, r₂, hrest⟩ : ∃ rest acc₂ r₂,
        regroup a b w xs ((acc * 2 ^ a + x) % 2 ^ w) ((bits + a) % b) = (rest, acc₂, r₂) := ⟨_, _, _, rfl⟩
    have ih := regroup_value hb hw xs _ _ (fun y hy => hxs y (List.mem_cons_of_mem x hy)) (Nat.mod_lt _ hb) _ _ _ hrest
    rw [hrest] at h
    cases h
    obtain ⟨hvalue, hlen, hr, hlt⟩ := ih
    have hpush := push_mod acc (hxs x List.mem_cons_self) (by omega : bits + a ≤ w)
    have hdrain := drain_value hb ((acc * 2 ^ a + x) % 2 ^ w) (bits + a)
    rw [hpush] at hdrain
    have hpow : (2 ^ b) ^ rest.length * 2 ^ r = 2 ^ ((bits + a) % b) * (2 ^ a) ^ xs.length := by
      rw [← Nat.pow_mul, ← Nat.pow_mul, ← Nat.pow_add, ← Nat.pow_add, Nat.mul_comm b, hlen]
    refine ⟨?_, ?_, hr, ?_⟩
    · calc value (2 ^ b) (drain b ((acc * 2 ^ a + x) % 2 ^ w) (bits + a) ++ rest) * 2 ^ r + acc' % 2 ^ r
          = value (2 ^ b) (drain b ((acc * 2 ^ a + x) % 2 ^ w) (bits + a)) * ((2 ^ b) ^ rest.length * 2 ^ r) +
              (value (2 ^ b) rest * 2 ^ r + acc' % 2 ^ r) := by
            rw [value_append]
            ring
        _ = (value (2 ^ b) (drain b ((acc * 2 ^ a + x) % 2 ^ w) (bits + a)) * 2 ^ ((bits + a) % b) +
              (acc * 2 ^ a + x) % 2 ^ w % 2 ^ ((bits + a) % b)) * (2 ^ a) ^ xs.length + value (2 ^ a) xs := by
            rw [hpow, hvalue]
            ring
        _ = acc % 2 ^ bits * (2 ^ a) ^ (x :: xs).length + value (2 ^ a) (x :: xs) := by
            rw [hdrain, value_cons, List.length_cons, Nat.pow_succ]
            ring
    · have hdiv := Nat.div_add_mod' (bits + a) b
      rw [List.length_append, drain_length hb, Nat.add_mul, List.length_cons, Nat.mul_succ]
      omega
    · intro d hd
      rcases List.mem_append.mp hd with hd | hd
      · exact drain_lt _ _ _ d hd
      · exact hlt d hd

/-- The digits, of which the last is filled up with zeros. -/
def encode (a b w : ℕ) (xs : List ℕ) : List ℕ :=
  let (out, acc, r) := regroup a b w xs 0 0
  if 0 < r then out ++ [acc * 2 ^ (b - r) % 2 ^ w % 2 ^ b] else out

/-- The number of the digits, and how many there are. -/
theorem encode_value (hb : 0 < b) (hw : a + b ≤ w + 1) (ha : 0 < a) {xs : List ℕ} (hxs : ∀ x ∈ xs, x < 2 ^ a) :
    ∃ pad < b, value (2 ^ b) (encode a b w xs) = value (2 ^ a) xs * 2 ^ pad ∧
      (encode a b w xs).length * b = a * xs.length + pad ∧ ∀ d ∈ encode a b w xs, d < 2 ^ b := by
  obtain ⟨out, acc, r, hrun⟩ : ∃ out acc r, regroup a b w xs 0 0 = (out, acc, r) := ⟨_, _, _, rfl⟩
  obtain ⟨hvalue, hlen, hr, hlt⟩ := regroup_value hb hw xs 0 0 hxs hb out acc r hrun
  rw [Nat.zero_mod, Nat.zero_mul, Nat.zero_add] at hvalue
  unfold encode
  rw [hrun]
  dsimp only
  by_cases hpos : 0 < r
  · have hlast : acc * 2 ^ (b - r) % 2 ^ w % 2 ^ b = acc % 2 ^ r * 2 ^ (b - r) := by
      have hb' : r + (b - r) = b := by omega
      have h := push_mod acc (Nat.two_pow_pos (b - r)) (by omega : r + (b - r) ≤ w)
      rwa [hb', Nat.add_zero, Nat.add_zero] at h
    refine ⟨b - r, by omega, ?_, ?_, ?_⟩
    · rw [if_pos hpos, value_append, value_singleton, hlast, List.length_singleton, Nat.pow_one, ← hvalue]
      have hpow : 2 ^ b = 2 ^ r * 2 ^ (b - r) := by
        rw [← Nat.pow_add]
        congr 1
        omega
      rw [hpow]
      ring
    · rw [if_pos hpos, List.length_append, List.length_singleton, Nat.add_mul]
      omega
    · intro d hd
      rw [if_pos hpos] at hd
      rcases List.mem_append.mp hd with hd | hd
      · exact hlt d hd
      · rw [List.mem_singleton.mp hd]
        exact Nat.mod_lt _ (Nat.two_pow_pos b)
  · have hzero : r = 0 := by omega
    subst hzero
    rw [if_neg hpos]
    refine ⟨0, hb, ?_, by omega, hlt⟩
    rw [← hvalue, Nat.pow_zero, Nat.mod_one]
    ring

/-- **The digits are read back**, where they are no larger than those they were made of. -/
theorem regroup_regroup {w' : ℕ} (hb : 0 < b) (hle : b ≤ a) (hw : a + b ≤ w + 1) (hw' : a + b ≤ w' + 1) {xs : List ℕ}
    (hxs : ∀ x ∈ xs, x < 2 ^ a) : (regroup b a w' (encode a b w xs) 0 0).1 = xs := by
  have ha : 0 < a := by omega
  obtain ⟨pad, hpad, hvalue, hlen, hlt⟩ := encode_value hb hw ha hxs
  obtain ⟨out, acc, r, hrun⟩ : ∃ out acc r, regroup b a w' (encode a b w xs) 0 0 = (out, acc, r) := ⟨_, _, _, rfl⟩
  obtain ⟨hback, hlen', hr, hlt'⟩ := regroup_value ha (by omega) _ 0 0 hlt ha out acc r hrun
  rw [Nat.zero_mod, Nat.zero_mul, Nat.zero_add, hvalue] at hback
  rw [Nat.zero_add, Nat.mul_comm b, hlen] at hlen'
  have hsame : out.length = xs.length ∧ r = pad := by
    have hdiv : (out.length * a + r) / a = (a * xs.length + pad) / a := by rw [hlen']
    rw [Nat.mul_comm, Nat.mul_add_div ha, Nat.mul_add_div ha, Nat.div_eq_of_lt hr, Nat.div_eq_of_lt (by omega)] at hdiv
    have hout : out.length = xs.length := by omega
    refine ⟨hout, ?_⟩
    rw [hout, Nat.mul_comm] at hlen'
    omega
  obtain ⟨hout, rfl⟩ := hsame
  rw [hrun]
  refine value_inj (Nat.one_lt_two_pow (by omega)) hout hlt' hxs ?_
  have hlow : acc % 2 ^ r = 0 := by
    have hmod := congrArg (· % 2 ^ r) hback
    simpa [Nat.mul_add_mod_self_right] using hmod
  rw [hlow, Nat.add_zero] at hback
  exact Nat.eq_of_mul_eq_mul_right (Nat.two_pow_pos r) hback

end

end Regroup
