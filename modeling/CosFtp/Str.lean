/-
# The string buffers of str.c

A `struct mystr` is its bytes. The searches of str.c are those of
`Search`: `str_locate_text` tries the positions from the left,
`str_locate_text_reverse` from the right, and neither finds an empty text.
`str_replace_text` is its own loop over the left and the right chunk
(`strReplaceTextLoop`), run for as many rounds as the string has bytes;
`strReplaceText_eq` unrolls one round of it.

`vsf_sysutil_atoi` is the C library's `atoi`: `strtol` clamped to a 64-bit
`long`, then cut down to a 32-bit `int`.
-/
import Mathlib.Algebra.Group.Int.Defs
import Mathlib.Algebra.GroupWithZero.Nat
import Mathlib.Data.Int.Notation
import Mathlib.Data.List.TakeWhile
import CosFtp.Lib.Search

namespace CosFtp

open Search

abbrev Bytes := List UInt8

instance : LawfulBEq Bytes := List.instLawfulBEq

/-- The bytes of a C string literal. -/
def text (s : String) : Bytes := s.toList.map fun c => UInt8.ofNat c.toNat

abbrev chNul : UInt8 := 0
abbrev chLf : UInt8 := 10
abbrev chCr : UInt8 := 13
abbrev chSpace : UInt8 := 32
abbrev chPercent : UInt8 := 37
abbrev chStar : UInt8 := 42
abbrev chPlus : UInt8 := 43
abbrev chComma : UInt8 := 44
abbrev chMinus : UInt8 := 45
abbrev chDot : UInt8 := 46
abbrev chSlash : UInt8 := 47
abbrev chZero : UInt8 := 48
abbrev chNine : UInt8 := 57
abbrev chColon : UInt8 := 58
abbrev chQuestion : UInt8 := 63
abbrev chLbrace : UInt8 := 123
abbrev chBar : UInt8 := 124
abbrev chRbrace : UInt8 := 125
abbrev chTilde : UInt8 := 126

/-- The end of a line. -/
def crlf : Bytes := [chCr, chLf]

/-- A buffer as a C function reads it: up to the first NUL. -/
def cstr (s : Bytes) : Bytes := s.takeWhile (· ≠ chNul)

/-- `strncmp(a, b, n) == 0`. -/
def strncmpEq (a b : Bytes) (n : ℕ) : Bool := (cstr a).take n = (cstr b).take n

/-! ### Locating and splitting -/

def strLocateText (s t : Bytes) : Option ℕ := locate (cstr t) s

def strLocateTextReverse (s t : Bytes) : Option ℕ := locateReverse (cstr t) s

def strLocateChar (s : Bytes) (c : UInt8) : Option ℕ := strLocateText s [c]

/-- The first byte of `s` that is one of `chars`, with its position. -/
def strLocateChars (s chars : Bytes) : Option (ℕ × UInt8) :=
  match s.findIdx? fun b => b ∈ cstr chars with
  | some i => (s[i]?).map fun b => (i, b)
  | none => none

def strSplitTextCommon (loc : Option ℕ) (src t : Bytes) : Bytes × Bytes :=
  match loc with
  | none => (src, [])
  | some i => (src.take i, src.drop (i + (cstr t).length))

def strSplitText (src t : Bytes) : Bytes × Bytes :=
  strSplitTextCommon (strLocateText src t) src t

def strSplitTextReverse (src t : Bytes) : Bytes × Bytes :=
  strSplitTextCommon (strLocateTextReverse src t) src t

def strSplitChar (src : Bytes) (c : UInt8) : Bytes × Bytes := strSplitText src [c]

def strSplitCharReverse (src : Bytes) (c : UInt8) : Bytes × Bytes := strSplitTextReverse src [c]

/-- The loop of `str_replace_text` on the current left chunk. -/
def strReplaceTextLoop (p_from p_to : Bytes) : ℕ → Bytes → Bytes
  | 0, _ => []
  | n + 1, lhs =>
    let chunks := strSplitText lhs p_from
    -- a hit has made the left chunk shorter
    let out := if chunks.1.length < lhs.length then chunks.1 ++ cstr p_to else chunks.1
    if chunks.2 = [] then out else out ++ strReplaceTextLoop p_from p_to n chunks.2

def strReplaceText (s p_from p_to : Bytes) : Bytes :=
  strReplaceTextLoop p_from p_to (s.length + 1) s

def strReplaceChar (s : Bytes) (c_from c_to : UInt8) : Bytes :=
  s.map fun b => if b = c_from then c_to else b

/-! ### Comparing and converting -/

def strEqualText (s : Bytes) (t : String) : Bool := s = text t

def toupper (b : UInt8) : UInt8 := if 97 ≤ b ∧ b ≤ 122 then b - 32 else b

def strUpper (s : Bytes) : Bytes := s.map toupper

def isspace (b : UInt8) : Bool := b = chSpace || (9 ≤ b && b ≤ 13)

def isdigit (b : UInt8) : Bool := chZero ≤ b && b ≤ chNine

def isalnum (b : UInt8) : Bool := isdigit b || (65 ≤ b && b ≤ 90) || (97 ≤ b && b ≤ 122)

/-- The value of a run of decimal digits. -/
def digitsVal (ds : Bytes) : ℕ := ds.foldl (fun v d => v * 10 + (d.toNat - 48)) 0

/-- A value brought into a C type of `w` bits with a sign. -/
def wrapSigned (w : ℕ) (v : ℤ) : ℤ := (v + 2 ^ (w - 1)) % 2 ^ w - 2 ^ (w - 1)

/-- The value cut off at the limits of a 64-bit `long`, as `strtol` does. -/
def clampLong (v : ℤ) : ℤ := max (-(2 ^ 63)) (min (2 ^ 63 - 1) v)

def vsfSysutilAtoi (s : Bytes) : ℤ :=
  let body := (cstr s).dropWhile isspace
  let (neg, ds) := match body with
    | [] => (false, [])
    | c :: r => if c = chMinus then (true, r) else if c = chPlus then (false, r) else (false, c :: r)
  let v : ℤ := digitsVal (ds.takeWhile isdigit)
  wrapSigned 32 (clampLong (if neg then -v else v))

def strAtoi (s : Bytes) : ℤ := vsfSysutilAtoi s

/-- `vsf_sysutil_a_to_filesize_t`: 0 for anything but up to 15 digits. -/
def vsfSysutilAToFilesizeT (s : Bytes) : ℤ :=
  if 15 < (cstr s).length then 0
  else if (cstr s).all isdigit then digitsVal (cstr s) else 0

def strAToFilesizeT (s : Bytes) : ℤ := vsfSysutilAToFilesizeT s

/-- The decimal text of a number, as `snprintf("%lu")` writes it. -/
def ulongText (n : ℕ) : Bytes := text (toString n)

/-- The same of `snprintf("%d")`. -/
def intText (n : ℤ) : Bytes := text (toString n)

/-! ### Texts as they are encoded -/

/-- The encoding of a string literal, which is there without its characters. -/
def utf8Bytes (s : String) : Bytes := s.toByteArray.data.toList

def plainText (s : String) : Bool := (utf8Bytes s).all (· < 128)

theorem not_ofNat_lt {n : ℕ} (h : 128 ≤ n) (h' : n < 256) : ¬ UInt8.ofNat n < 128 := by
  rw [UInt8.lt_iff_toNat_lt, UInt8.toNat_ofNat_of_lt' h', Nat.not_lt]
  exact h

/-- A character with an encoding of small bytes is one byte. -/
theorem utf8EncodeChar_plain {c : Char} (h : ∀ b ∈ String.utf8EncodeChar c, b < 128) :
    String.utf8EncodeChar c = [UInt8.ofNat c.toNat] := by
  have hcode : String.utf8EncodeChar c =
      if c.toNat ≤ 127 then [UInt8.ofNat c.toNat]
      else if c.toNat ≤ 2047 then UInt8.ofNat (c.toNat / 64 % 32 + 192) :: [UInt8.ofNat (c.toNat % 64 + 128)]
      else if c.toNat ≤ 65535 then UInt8.ofNat (c.toNat / 4096 % 16 + 224) ::
        [UInt8.ofNat (c.toNat / 64 % 64 + 128), UInt8.ofNat (c.toNat % 64 + 128)]
      else UInt8.ofNat (c.toNat / 262144 % 8 + 240) :: [UInt8.ofNat (c.toNat / 4096 % 64 + 128),
        UInt8.ofNat (c.toNat / 64 % 64 + 128), UInt8.ofNat (c.toNat % 64 + 128)] := rfl
  rw [hcode] at h ⊢
  -- the first byte of a longer encoding is not small
  split at h
  · rw [if_pos ‹_›]
  · split at h
    · exact absurd (h _ List.mem_cons_self) (not_ofNat_lt (by omega) (by omega))
    · split at h
      · exact absurd (h _ List.mem_cons_self) (not_ofNat_lt (by omega) (by omega))
      · exact absurd (h _ List.mem_cons_self) (not_ofNat_lt (by omega) (by omega))

theorem text_eq_bytes {s : String} (h : plainText s = true) : text s = utf8Bytes s := by
  have hs : utf8Bytes s = s.toList.flatMap String.utf8EncodeChar := by
    rw [utf8Bytes]
    conv_lhs => rw [← String.ofList_toList (s := s), String.toByteArray_ofList]
    simp [List.utf8Encode]
  rw [plainText, hs] at h
  rw [hs, text]
  generalize s.toList = l at h ⊢
  induction l with
  | nil => rfl
  | cons c l ih =>
    rw [List.flatMap_cons, List.all_append, Bool.and_eq_true] at h
    obtain ⟨hc, hl⟩ := h
    have hbytes : ∀ b ∈ String.utf8EncodeChar c, b < 128 := by simpa using hc
    rw [List.map_cons, List.flatMap_cons, ih hl, utf8EncodeChar_plain hbytes]
    rfl

/-- Bytes of one line in ASCII, as the replies are. -/
def oneLine (s : String) : Bool := (utf8Bytes s).all fun b => b < 128 && b != chLf

theorem lf_not_mem_text {s : String} (h : oneLine s = true) : chLf ∉ text s := by
  have hall : ∀ b ∈ utf8Bytes s, b < 128 ∧ b ≠ chLf := by simpa [oneLine, List.all_eq_true] using h
  have hplain : plainText s = true := by
    rw [plainText, List.all_eq_true]
    exact fun b hb => decide_eq_true (hall b hb).1
  rw [text_eq_bytes hplain]
  exact fun hmem => (hall _ hmem).2 rfl

/-! ### What the searches return -/

theorem cstr_eq_self {s : Bytes} (h : chNul ∉ s) : cstr s = s :=
  List.takeWhile_eq_self_iff.mpr fun b hb => by
    have : b ≠ chNul := fun he => h (he ▸ hb)
    simpa using this

theorem cstr_subset (s : Bytes) : cstr s ⊆ s := (List.takeWhile_sublist _).subset

theorem strSplitTextCommon_subset (loc : Option ℕ) (s t : Bytes) :
    (strSplitTextCommon loc s t).1 ⊆ s ∧ (strSplitTextCommon loc s t).2 ⊆ s := by
  unfold strSplitTextCommon
  cases loc with
  | none => exact ⟨fun _ h => h, List.nil_subset _⟩
  | some i => exact ⟨List.take_subset _ _, List.drop_subset _ _⟩

theorem strSplitChar_subset (s : Bytes) (c : UInt8) : (strSplitChar s c).1 ⊆ s ∧ (strSplitChar s c).2 ⊆ s :=
  strSplitTextCommon_subset _ s _

/-- A character that was replaced is gone. -/
theorem not_mem_strReplaceChar {c_from c_to : UInt8} (hne : c_to ≠ c_from) (s : Bytes) :
    c_from ∉ strReplaceChar s c_from c_to := by
  intro h
  obtain ⟨b, _, heq⟩ := List.mem_map.mp h
  split at heq
  · exact hne heq
  · rename_i hb
    exact hb heq

theorem strncmpEq_iff {a b : Bytes} (ha : chNul ∉ a) (hb : chNul ∉ b) :
    strncmpEq a b a.length = true ↔ a <+: b := by
  rw [strncmpEq, cstr_eq_self ha, cstr_eq_self hb, List.take_length, decide_eq_true_eq,
    List.prefix_iff_eq_take]

/-- A split is the cut at the first place of the text. -/
theorem strSplitText_eq {t : Bytes} (h0 : chNul ∉ t) (ht : t ≠ []) (s : Bytes) :
    strSplitText s t = (cut t s).getD (s, []) := by
  rw [strSplitText, strLocateText, cstr_eq_self h0, locate_eq_cut ht]
  cases hc : cut t s with
  | none => rfl
  | some p =>
    obtain ⟨l, r⟩ := p
    have he := eq_of_cut hc
    simp only [Option.map_some, strSplitTextCommon, cstr_eq_self h0, Option.getD_some]
    subst he
    simp

theorem strSplitCharReverse_eq {c : UInt8} (hc : c ≠ chNul) (u : Bytes) {v : Bytes} (h : c ∉ v) :
    strSplitCharReverse (u ++ c :: v) c = (u, v) := by
  have h0 : cstr [c] = [c] := cstr_eq_self (by simpa using hc.symm)
  rw [strSplitCharReverse, strSplitTextReverse, strLocateTextReverse, h0,
    locateReverse_singleton u h, strSplitTextCommon, h0]
  simp

theorem strSplitCharReverse_nil (c : UInt8) : strSplitCharReverse [] c = ([], []) := by
  simp [strSplitCharReverse, strSplitTextReverse, strLocateTextReverse, locateReverse_nil,
    strSplitTextCommon]

/-- One round of the replace loop: a hit emits the left chunk and the new
text and goes on with the right chunk. -/
theorem strReplaceTextLoop_eq {p_from : Bytes} (p_to : Bytes) (h0 : chNul ∉ p_from)
    (hf : p_from ≠ []) : ∀ (n : ℕ) (s : Bytes), s.length < n →
    strReplaceTextLoop p_from p_to n s =
      match cut p_from s with
      | none => s
      | some (l, r) => l ++ cstr p_to ++ strReplaceTextLoop p_from p_to (r.length + 1) r
  | 0, _, h => by omega
  | n + 1, s, h => by
    have hpos : 0 < p_from.length := List.length_pos_of_ne_nil hf
    have hempty : ∀ m, strReplaceTextLoop p_from p_to (m + 1) [] = [] := by
      intro m
      simp [strReplaceTextLoop, strSplitText_eq h0 hf, cut]
    rw [strReplaceTextLoop]
    simp only [strSplitText_eq h0 hf]
    cases hc : cut p_from s with
    | none => simp
    | some p =>
      obtain ⟨l, r⟩ := p
      have hlen := length_of_cut hc
      have hhit : l.length < s.length := by omega
      simp only [Option.getD_some, hhit, if_true]
      by_cases hr : r = []
      · subst hr
        simp [hempty]
      · rw [if_neg hr]
        rw [strReplaceTextLoop_eq p_to h0 hf n r (by omega)]
        rw [strReplaceTextLoop_eq p_to h0 hf (r.length + 1) r (by omega)]
termination_by _ s => s.length
decreasing_by all_goals omega

theorem strReplaceText_eq {p_from : Bytes} (p_to s : Bytes) (h0 : chNul ∉ p_from)
    (hf : p_from ≠ []) : strReplaceText s p_from p_to =
      match cut p_from s with
      | none => s
      | some (l, r) => l ++ cstr p_to ++ strReplaceText r p_from p_to := by
  rw [strReplaceText, strReplaceTextLoop_eq p_to h0 hf _ _ (Nat.lt_succ_self _)]
  rfl

/-- Putting a shorter text in the place of another makes a text no longer. -/
theorem length_strReplaceText_le {p_from p_to : Bytes} (h0 : chNul ∉ p_from) (hf : p_from ≠ [])
    (hle : (cstr p_to).length ≤ p_from.length) (s : Bytes) :
    (strReplaceText s p_from p_to).length ≤ s.length := by
  rw [strReplaceText_eq p_to s h0 hf]
  cases hcut : cut p_from s with
  | none => exact Nat.le_refl _
  | some halves =>
    obtain ⟨l, r⟩ := halves
    have hlen := length_of_cut hcut
    have hpos : 0 < p_from.length := List.length_pos_of_ne_nil hf
    have ih := length_strReplaceText_le h0 hf hle r
    simp only [List.length_append]
    omega
termination_by s.length
decreasing_by omega

/-- What stands in front of a text is no longer than the whole. -/
theorem length_strSplitCharReverse_le (s : Bytes) (c : UInt8) :
    (strSplitCharReverse s c).1.length ≤ s.length := by
  unfold strSplitCharReverse strSplitTextReverse strSplitTextCommon
  split
  · exact Nat.le_refl _
  · rw [List.length_take]
    exact Nat.min_le_right _ _

end CosFtp
