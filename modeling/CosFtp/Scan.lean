/-
# Scans over separated fields

The loops of the server that take a list apart call `str_split_char` again
and again: the left part is the next field, the right part what is still to
be read. A split either finds no separator and leaves the right part empty,
or takes the first field off.

Key theorems: `strSplitChar_of_not_mem`, `strSplitChar_append_cons`.
-/
import CosFtp.Str
import CosFtp.Lib.Fields

namespace CosFtp

open Search

theorem strLocateChar_eq {c : UInt8} (hc : c ≠ chNul) (s : Bytes) :
    strLocateChar s c = (cut [c] s).map fun p => p.1.length := by
  have h0 : cstr [c] = [c] := cstr_eq_self (by simpa using hc.symm)
  rw [strLocateChar, strLocateText, h0, locate_eq_cut (List.cons_ne_nil c [])]

/-- Without a separator everything is the field. -/
theorem strSplitChar_of_not_mem {c : UInt8} {u : Bytes} (h : c ∉ u) : strSplitChar u c = (u, []) := by
  by_cases hc : c = chNul
  · -- the separator ends its own C string, and an empty text is not looked for
    rw [hc]
    rfl
  · have h0 : chNul ∉ [c] := by simpa using Ne.symm hc
    rw [strSplitChar, strSplitText_eq h0 (List.cons_ne_nil c []), cut_eq_none_of_not_mem h]
    rfl

/-- The first field is split off. -/
theorem strSplitChar_append_cons {c : UInt8} (hc : c ≠ chNul) {u : Bytes} (h : c ∉ u) (v : Bytes) :
    strSplitChar (u ++ c :: v) c = (u, v) := by
  have h0 : chNul ∉ [c] := by simpa using Ne.symm hc
  rw [strSplitChar, strSplitText_eq h0 (List.cons_ne_nil c []), cut_singleton v h]
  rfl

end CosFtp
