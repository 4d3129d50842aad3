/-
# str_replace_text is a substitution

`str_replace_text` splits the text left of it again and again: what stands
before the hit goes to the result, then the new text, and what stands behind
the hit is split next. It sees a hit by the left chunk having become shorter,
and it ends when there is nothing behind the hit. `strReplaceTextRun` is that
loop as the source has it, which may also still be running.

* `strReplaceText_scan`: for all texts, the loop ends, after at most one round
  more than the string has bytes, and the result is that of one scan from the
  left, which replaces each hit that does not reach into one replaced before
  and does not look at what it has put in (`Search.substitute`). Without a text
  to look for nothing changes.
* `strReplaceText_singleton`: one byte is replaced byte by byte.

Key definitions: `strReplaceTextRun`.
Key theorems: `strReplaceText_scan`, `strReplaceText_singleton`.
-/
import CosFtp.Str

namespace CosFtp

open Search

variable {p_from : Bytes}

/-- The loop of `str_replace_text`, with the left chunk and what has been
appended to `p_str`, for so many rounds: `none` if it runs longer. -/
def strReplaceTextRun (p_from p_to : Bytes) : ℕ → Bytes → Bytes → Option Bytes
  | 0, _, _ => none
  | n + 1, lhs, p_str =>
    let chunks := strSplitText lhs p_from
    let p_str := p_str ++ chunks.1
    let p_str := if chunks.1.length < lhs.length then p_str ++ cstr p_to else p_str
    if chunks.2 = [] then some p_str else strReplaceTextRun p_from p_to n chunks.2 p_str

/-! ### The text to look for -/

theorem chNul_not_mem_cstr (s : Bytes) : chNul ∉ cstr s := by
  intro h
  have hp := List.mem_takeWhile_imp h
  simp at hp

/-- A text is read up to its NUL. -/
theorem strSplitText_cstr (s t : Bytes) : strSplitText s (cstr t) = strSplitText s t := by
  have h : cstr (cstr t) = cstr t := cstr_eq_self (chNul_not_mem_cstr t)
  rw [strSplitText, strLocateText, strSplitTextCommon.eq_def, h]
  rfl

/-- An empty text is nowhere. -/
theorem strSplitText_nil (s : Bytes) : strSplitText s [] = (s, []) := by
  have h : strLocateText s [] = none := by simp [strLocateText, cstr, locate]
  rw [strSplitText, h]
  rfl

/-! ### The loop -/

/-- One round. -/
theorem strReplaceTextRun_succ (p_to : Bytes) (h0 : chNul ∉ p_from) (hf : p_from ≠ []) (n : ℕ)
    (lhs p_str : Bytes) : strReplaceTextRun p_from p_to (n + 1) lhs p_str =
      match cut p_from lhs with
      | none => some (p_str ++ lhs)
      | some (l, r) =>
        if r = [] then some (p_str ++ l ++ cstr p_to)
        else strReplaceTextRun p_from p_to n r (p_str ++ l ++ cstr p_to) := by
  have hpos : 0 < p_from.length := List.length_pos_of_ne_nil hf
  rw [strReplaceTextRun]
  simp only [strSplitText_eq h0 hf]
  cases hcut : cut p_from lhs with
  | none => simp
  | some halves =>
    obtain ⟨l, r⟩ := halves
    have hlen := length_of_cut hcut
    have hhit : l.length < lhs.length := by omega
    simp only [Option.getD_some, hhit, if_true]

/-- With more rounds than bytes the loop ends: it has scanned the chunk. -/
theorem strReplaceTextRun_eq (p_to : Bytes) (h0 : chNul ∉ p_from) (hf : p_from ≠ []) :
    ∀ (n : ℕ) (lhs p_str : Bytes), lhs.length < n →
      strReplaceTextRun p_from p_to n lhs p_str = some (p_str ++ substitute p_from (cstr p_to) 0 lhs)
  | 0, _, _, h => by omega
  | n + 1, lhs, p_str, h => by
    have hpos : 0 < p_from.length := List.length_pos_of_ne_nil hf
    rw [strReplaceTextRun_succ p_to h0 hf, substitute_eq_cut hf]
    cases hcut : cut p_from lhs with
    | none => rfl
    | some halves =>
      obtain ⟨l, r⟩ := halves
      have hlen := length_of_cut hcut
      by_cases hr : r = []
      · subst hr
        simp [substitute]
      · have ih := strReplaceTextRun_eq p_to h0 hf n r (p_str ++ l ++ cstr p_to) (by omega)
        simp only [if_neg hr, ih]
        simp only [List.append_assoc]

/-- The same of the loop that returns what it has. -/
theorem strReplaceText_eq_substitute (p_to : Bytes) (h0 : chNul ∉ p_from) (hf : p_from ≠ [])
    (s : Bytes) : strReplaceText s p_from p_to = substitute p_from (cstr p_to) 0 s := by
  have hpos : 0 < p_from.length := List.length_pos_of_ne_nil hf
  rw [strReplaceText_eq p_to s h0 hf, substitute_eq_cut hf]
  cases hcut : cut p_from s with
  | none => rfl
  | some halves =>
    obtain ⟨l, r⟩ := halves
    have hlen := length_of_cut hcut
    have ih := strReplaceText_eq_substitute p_to h0 hf r
    simp only [ih]
termination_by s.length
decreasing_by omega

/-- **`str_replace_text`** ends, whatever the texts are, and has substituted. -/
theorem strReplaceText_scan (s p_from p_to : Bytes) :
    (∀ n, s.length < n →
      strReplaceTextRun p_from p_to n s [] = some (substitute (cstr p_from) (cstr p_to) 0 s)) ∧
    strReplaceText s p_from p_to = substitute (cstr p_from) (cstr p_to) 0 s := by
  have h0 := chNul_not_mem_cstr p_from
  have hrun : ∀ n lhs p_str, strReplaceTextRun p_from p_to n lhs p_str =
      strReplaceTextRun (cstr p_from) p_to n lhs p_str := by
    intro n
    induction n with
    | zero => exact fun _ _ => rfl
    | succ n ih => simp only [strReplaceTextRun, strSplitText_cstr, ih, implies_true]
  have hloop : ∀ n lhs, strReplaceTextLoop p_from p_to n lhs =
      strReplaceTextLoop (cstr p_from) p_to n lhs := by
    intro n
    induction n with
    | zero => exact fun _ => rfl
    | succ n ih => simp only [strReplaceTextLoop, strSplitText_cstr, ih, implies_true]
  by_cases hf : cstr p_from = []
  · rw [hf, substitute_nil]
    constructor
    · intro n hn
      obtain ⟨m, rfl⟩ : ∃ m, n = m + 1 := ⟨n - 1, by omega⟩
      rw [hrun, hf, strReplaceTextRun]
      simp [strSplitText_nil]
    · rw [strReplaceText, hloop, hf, strReplaceTextLoop]
      simp [strSplitText_nil]
  · constructor
    · intro n hn
      rw [hrun, strReplaceTextRun_eq p_to h0 hf n s [] hn, List.nil_append]
    · rw [strReplaceText, hloop]
      exact strReplaceText_eq_substitute p_to h0 hf s

-- a text that overlaps itself, and one that the new text would complete
example : strReplaceText (text "aaa.") (text "aa") (text "b") = text "ba." := by decide
example : strReplaceText (text "/././.") (text "/./") (text "/") = text "/./." := by decide

/-- One byte is replaced byte by byte. -/
theorem strReplaceText_singleton {c : UInt8} (hc : c ≠ chNul) (p_to s : Bytes) :
    strReplaceText s [c] p_to = s.flatMap fun b => if b = c then cstr p_to else [b] := by
  have h0 : chNul ∉ [c] := by simpa using hc.symm
  rw [strReplaceText_eq_substitute p_to h0 (by simp), substitute_singleton]

end CosFtp
