/-
# Names in UTF-8

`IsUtf8` walks over the bytes of a name: those of a character of UTF-8 count for
it, a byte that fits nowhere counts against it, and ASCII counts neither way.
The comment behind the loop has ASCII as [1, 127], but the test is
`cChar < 0x7f`, and so a DEL is a byte that fits nowhere.

* `isUtf8Loop_wellFormed`: of a text in UTF-8 the bytes from 0x80 on count for
  it, and the DELs against it.
* `utf8_name_kept_iff`: so the name is taken for UTF-8, and left as it is,
  exactly if for each DEL it has nine bytes from 0x80 on.
* `utf8_name_misjudged`: an accented letter and a DEL are read as GBK.

Key definitions: `WellFormedUtf8`, `cosConvGbk2UtfRet`.
Key theorems: `utf8EncodeChar_cases`, `isUtf8Loop_wellFormed`, `utf8_name_kept_iff`.
-/
import CosFtp.Loop

namespace CosFtp

/-- The bytes of a text in UTF-8. -/
def WellFormedUtf8 (s : Bytes) : Prop := ∃ cs : List Char, s = cs.flatMap String.utf8EncodeChar

/-- What `cos_conv_gbk_2_utf` returns. -/
def cosConvGbk2UtfRet (env : Env) (arg : Bytes) : ℤ :=
  if arg = [] ∨ isUtf8 arg then 0
  else if (env.codeConvert arg).isSome then 0 else -1

/-! ### One character -/

/-- A byte that follows the first of a character. -/
def Continues (b : UInt8) : Prop := 0x80 ≤ b ∧ b ≤ 0xbf

/-- A character is a byte of ASCII, or a first byte that says how many follow. -/
theorem utf8EncodeChar_cases (c : Char) :
    (∃ b : UInt8, String.utf8EncodeChar c = [b] ∧ b ≤ 0x7f) ∨
    ∃ (b : UInt8) (t : Bytes), String.utf8EncodeChar c = b :: t ∧ 0xc0 ≤ b ∧ b ≤ 0xfd ∧
      t.length = utf8Follow b ∧ ∀ x ∈ t, Continues x := by
  set v := c.val.toNat with hv
  have hcont : ∀ n : ℕ, Continues (UInt8.ofNat (n % 0x40 + 0x80)) := by
    intro n
    simp only [Continues, UInt8.le_iff_toNat_le, UInt8.toNat_ofNat', UInt8.reduceToNat]
    omega
  have hfirst : ∀ {m k : ℕ}, 0xc0 ≤ m → m ≤ 0xf7 → (k = if 0xf0 ≤ m then 3 else if 0xe0 ≤ m then 2 else 1) →
      0xc0 ≤ UInt8.ofNat m ∧ UInt8.ofNat m ≤ 0xfd ∧ k = utf8Follow (UInt8.ofNat m) := by
    intro m k hlo hhi hk
    simp only [utf8Follow, UInt8.le_iff_toNat_le, UInt8.toNat_ofNat', UInt8.reduceToNat]
    have hm : m % 2 ^ 8 = m := Nat.mod_eq_of_lt (by omega)
    rw [hm, if_neg (by omega), if_neg (by omega)]
    exact ⟨hlo, by omega, hk⟩
  have hencode : String.utf8EncodeChar c =
      if v ≤ 0x7f then [UInt8.ofNat v]
      else if v ≤ 0x7ff then [UInt8.ofNat (v / 64 % 0x20 + 0xc0), UInt8.ofNat (v % 0x40 + 0x80)]
      else if v ≤ 0xffff then
        [UInt8.ofNat (v / 4096 % 0x10 + 0xe0), UInt8.ofNat (v / 64 % 0x40 + 0x80), UInt8.ofNat (v % 0x40 + 0x80)]
      else
        [UInt8.ofNat (v / 262144 % 0x08 + 0xf0), UInt8.ofNat (v / 4096 % 0x40 + 0x80),
          UInt8.ofNat (v / 64 % 0x40 + 0x80), UInt8.ofNat (v % 0x40 + 0x80)] := rfl
  rw [hencode]
  by_cases h1 : v ≤ 0x7f
  · left
    refine ⟨UInt8.ofNat v, if_pos h1, ?_⟩
    simp only [UInt8.le_iff_toNat_le, UInt8.toNat_ofNat', UInt8.reduceToNat]
    omega
  right
  rw [if_neg h1]
  by_cases h2 : v ≤ 0x7ff
  · obtain ⟨hlo, hhi, hlen⟩ := hfirst (m := v / 64 % 0x20 + 0xc0) (k := 1) (by omega) (by omega)
      (by rw [if_neg (by omega), if_neg (by omega)])
    refine ⟨_, _, if_pos h2, hlo, hhi, hlen, ?_⟩
    simp only [List.forall_mem_cons, hcont, true_and]
    exact fun _ h => absurd h List.not_mem_nil
  rw [if_neg h2]
  by_cases h3 : v ≤ 0xffff
  · obtain ⟨hlo, hhi, hlen⟩ := hfirst (m := v / 4096 % 0x10 + 0xe0) (k := 2) (by omega) (by omega)
      (by rw [if_neg (by omega), if_pos (by omega)])
    refine ⟨_, _, if_pos h3, hlo, hhi, hlen, ?_⟩
    simp only [List.forall_mem_cons, hcont, true_and]
    exact fun _ h => absurd h List.not_mem_nil
  · obtain ⟨hlo, hhi, hlen⟩ := hfirst (m := v / 262144 % 0x08 + 0xf0) (k := 3) (by omega) (by omega)
      (by rw [if_pos (by omega)])
    refine ⟨_, _, if_neg h3, hlo, hhi, hlen, ?_⟩
    simp only [List.forall_mem_cons, hcont, true_and]
    exact fun _ h => absurd h List.not_mem_nil

/-! ### The counts -/

theorem isUtf8Loop_nil : ∀ n, isUtf8Loop n [] = (0, 0)
  | 0 => rfl
  | _ + 1 => rfl

/-- A byte of ASCII counts neither way, but for a DEL. -/
theorem isUtf8Loop_ascii {b : UInt8} (hb : b ≤ 0x7f) (n : ℕ) (s : Bytes) :
    isUtf8Loop (n + 1) (b :: s) =
      ((isUtf8Loop n s).1, (isUtf8Loop n s).2 + if b = 127 then 1 else 0) := by
  rw [UInt8.le_iff_toNat_le] at hb
  rw [isUtf8Loop]
  by_cases hdel : b = 127
  · subst hdel
    rfl
  · have hne : b.toNat ≠ 127 := fun he => hdel (UInt8.toNat_inj.mp he)
    have hlt : b < 0x7f := by
      rw [UInt8.lt_iff_toNat_lt]
      have h7f : (0x7f : UInt8).toNat = 127 := rfl
      omega
    rw [if_pos hlt, if_neg hdel]
    rfl

/-- The bytes of a longer character all count for it. -/
theorem isUtf8Loop_char {b : UInt8} {t : Bytes} (hlo : 0xc0 ≤ b) (hhi : b ≤ 0xfd) (hlen : t.length = utf8Follow b)
    (hcont : ∀ x ∈ t, Continues x) (n : ℕ) (s : Bytes) :
    isUtf8Loop (n + 1) (b :: (t ++ s)) = ((isUtf8Loop n s).1 + t.length + 1, (isUtf8Loop n s).2) := by
  have hlt : ¬ b < 0x7f := by
    rw [UInt8.lt_iff_toNat_lt]
    rw [UInt8.le_iff_toNat_le] at hlo
    simp only [UInt8.reduceToNat] at hlo ⊢
    omega
  have hfits : ¬ (b < 0xc0 ∨ 0xfd < b ∨ (b :: (t ++ s)).length < utf8Follow b) := by
    rw [UInt8.lt_iff_toNat_lt, UInt8.lt_iff_toNat_lt, List.length_cons, List.length_append]
    rw [UInt8.le_iff_toNat_le] at hlo hhi
    omega
  have hgood : ((t ++ s).take (utf8Follow b)).takeWhile (fun x => 0x80 ≤ x ∧ x ≤ 0xbf) = t := by
    rw [← hlen, List.take_left]
    exact List.takeWhile_eq_self_iff.mpr fun x hx => decide_eq_true (hcont x hx)
  have hrest : (t ++ s).drop (utf8Follow b) = s := by rw [← hlen, List.drop_left]
  rw [isUtf8Loop, if_neg hlt, if_neg hfits]
  simp only [hgood, hlen, hrest, if_true]

/-- **What is counted in a text in UTF-8**: the bytes from 0x80 on, and the DELs. -/
theorem isUtf8Loop_wellFormed : ∀ (cs : List Char) (n : ℕ), (cs.flatMap String.utf8EncodeChar).length ≤ n →
    isUtf8Loop n (cs.flatMap String.utf8EncodeChar) =
      ((cs.flatMap String.utf8EncodeChar).countP (fun b => 0x80 ≤ b),
        (cs.flatMap String.utf8EncodeChar).count 127)
  | [], n, _ => isUtf8Loop_nil n
  | c :: cs, n, hn => by
    rw [List.flatMap_cons] at hn ⊢
    rcases utf8EncodeChar_cases c with ⟨b, hc, hb⟩ | ⟨b, t, hc, hlo, hhi, hlen, hcont⟩
    · rw [hc, List.singleton_append] at hn ⊢
      obtain ⟨m, rfl⟩ : ∃ m, n = m + 1 := ⟨n - 1, by rw [List.length_cons] at hn; omega⟩
      have ih := isUtf8Loop_wellFormed cs m (by rw [List.length_cons] at hn; omega)
      have hascii : ¬ (0x80 : UInt8) ≤ b := by
        rw [UInt8.le_iff_toNat_le] at hb ⊢
        simp only [UInt8.reduceToNat] at hb ⊢
        omega
      rw [isUtf8Loop_ascii hb, ih, List.countP_cons_of_neg (by simpa using hascii), List.count_cons]
      simp
    · rw [hc, List.cons_append] at hn ⊢
      obtain ⟨m, rfl⟩ : ∃ m, n = m + 1 := ⟨n - 1, by rw [List.length_cons] at hn; omega⟩
      have ih := isUtf8Loop_wellFormed cs m (by rw [List.length_cons, List.length_append] at hn; omega)
      have hfirst : (0x80 : UInt8) ≤ b := by
        rw [UInt8.le_iff_toNat_le] at hlo ⊢
        simp only [UInt8.reduceToNat] at hlo ⊢
        omega
      have hall : t.countP (fun b => 0x80 ≤ b) = t.length :=
        List.countP_eq_length.mpr fun x hx => decide_eq_true (hcont x hx).1
      have hnone : ∀ x ∈ b :: t, x ≠ 127 := by
        intro x hx he
        have hx' : (0x80 : UInt8) ≤ x := (List.mem_cons.mp hx).elim (fun h => h ▸ hfirst) fun h => (hcont x h).1
        rw [he] at hx'
        exact absurd hx' (by decide)
      have hdel : (b :: t).count 127 = 0 := List.count_eq_zero.mpr fun h => hnone 127 h rfl
      rw [isUtf8Loop_char hlo hhi hlen hcont, ih, List.countP_cons_of_pos (by simpa using hfirst),
        List.countP_append, hall, ← List.cons_append, List.count_append, hdel]
      simp only [Nat.zero_add, Prod.mk.injEq, and_true]
      omega

/-! ### The name -/

/-- **A name in UTF-8 is left alone** exactly if it has nine bytes from 0x80 on
for each DEL in it. -/
theorem utf8_name_kept_iff (s : Bytes) (hne : s ≠ []) (hnul : chNul ∉ s) (hutf : WellFormedUtf8 s) :
    (isUtf8 s = true ∧ ∀ env, cosConvGbk2UtfRet env s = 0 ∧ cosConvGbk2Utf env s = s) ↔
      9 * s.count 127 ≤ s.countP (fun b => 0x80 ≤ b) := by
  have hjudged : isUtf8 s = true ↔ 9 * s.count 127 ≤ s.countP (fun b => 0x80 ≤ b) := by
    obtain ⟨cs, hcs⟩ := hutf
    have hcount : isUtf8Loop s.length s = (s.countP (fun b => 0x80 ≤ b), s.count 127) := by
      rw [hcs]
      exact isUtf8Loop_wellFormed cs _ (Nat.le_refl _)
    simp only [isUtf8, cstr_eq_self hnul, hcount, decide_eq_true_eq]
    constructor
    · intro h
      omega
    · exact fun h => ⟨hne, by omega⟩
  rw [← hjudged]
  constructor
  · exact fun h => h.1
  · intro h
    refine ⟨h, fun env => ⟨?_, ?_⟩⟩
    · rw [cosConvGbk2UtfRet, if_pos (.inr h)]
    · rw [cosConvGbk2Utf, if_pos (.inr h)]

/-- An accented letter. -/
theorem utf8_name_kept_letter : isUtf8 [0xc3, 0xa9] = true :=
  ((utf8_name_kept_iff [0xc3, 0xa9] (by decide) (by decide) ⟨['é'], by decide⟩).mpr (by decide)).1

/-- A converter that reads the two bytes of an accented letter as one character of GBK. -/
def letterEnv : Env where
  codeConvert s := if s = [0xc3, 0xa9, 0x7f] then some [0xe8, 0x8c, 0x85, 0x7f] else none

/-- The letter with a DEL behind it becomes another name. -/
theorem utf8_name_misjudged : (chNul ∉ ([0xc3, 0xa9, 0x7f] : Bytes) ∧ WellFormedUtf8 [0xc3, 0xa9, 0x7f]) ∧
    isUtf8 [0xc3, 0xa9, 0x7f] = false ∧
    cosConvGbk2Utf letterEnv [0xc3, 0xa9, 0x7f] = [0xe8, 0x8c, 0x85, 0x7f] := by
  have hutf : [0xc3, 0xa9, 0x7f] = ['é', '\x7f'].flatMap String.utf8EncodeChar := by decide
  exact ⟨⟨by decide, ⟨_, hutf⟩⟩, by decide, by decide⟩

end CosFtp
