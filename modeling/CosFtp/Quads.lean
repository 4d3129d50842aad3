/-
# Numbers between separators

`vsf_sysutil_parse_uchar_string_sep` reads the argument of PORT and a dotted
quad: `items` numbers of a byte with a separator between them. Its scan is
that of the fields (`parseUcharStringSep_eq_some_iff`); but a field is read by
`atoi`, which skips blanks, takes a sign, stops at the first other byte and
wraps around, and the right part of the last split is empty also when a
separator stands at the very end. `quads_exact` says where this is no
difference.

Key definitions: `Octet`, `OctetFields`, `Readable`.
Key theorems: `strAtoi_of_digits`, `parseUcharStringSep_eq_some_iff`, `quads_exact`.
-/
import CosFtp.Scan
import CosFtp.Sockaddr

namespace CosFtp

open Fields

/-! ### Numbers -/

/-- Decimal digits are read as what they say. -/
theorem strAtoi_of_digits {f : Bytes} (hdigits : ∀ b ∈ f, isdigit b = true) (hlt : digitsVal f < 2 ^ 31) :
    strAtoi f = digitsVal f := by
  have hnul : chNul ∉ f := by
    intro h
    exact absurd (hdigits _ h) (by decide)
  have hspace : f.dropWhile isspace = f := by
    cases f with
    | nil => rfl
    | cons b f =>
      have hb : isdigit b = true := hdigits b List.mem_cons_self
      have hnot : isspace b = false := by
        simp only [isdigit, isspace, Bool.and_eq_true, decide_eq_true_eq, UInt8.le_iff_toNat_le,
          Bool.or_eq_false_iff, Bool.and_eq_false_iff, decide_eq_false_iff_not] at hb ⊢
        have h48 : chZero.toNat = 48 := rfl
        have h13 : (13 : UInt8).toNat = 13 := rfl
        refine ⟨?_, Or.inr (by omega)⟩
        intro hb'
        rw [hb'] at hb
        exact absurd hb.1 (by decide)
      rw [List.dropWhile_cons, hnot]
      rfl
  have hall : f.takeWhile isdigit = f := List.takeWhile_eq_self_iff.mpr hdigits
  have hsmall : (digitsVal f : ℤ) < 2 ^ 31 := by exact_mod_cast hlt
  have hwrap : wrapSigned 32 (clampLong (digitsVal f : ℤ)) = digitsVal f := by
    have h0 : (0 : ℤ) ≤ digitsVal f := Int.natCast_nonneg _
    have hclamp : clampLong (digitsVal f : ℤ) = digitsVal f := by
      unfold clampLong
      omega
    rw [hclamp, wrapSigned]
    omega
  unfold strAtoi vsfSysutilAtoi
  rw [cstr_eq_self hnul, hspace]
  cases f with
  | nil => exact hwrap
  | cons b f =>
    have hb : isdigit b = true := hdigits b List.mem_cons_self
    have hminus : b ≠ chMinus := by
      intro h
      rw [h] at hb
      exact absurd hb (by decide)
    have hplus : b ≠ chPlus := by
      intro h
      rw [h] at hb
      exact absurd hb (by decide)
    simp only [if_neg hminus, if_neg hplus, hall]
    exact hwrap

/-- A number of a byte, as it should be written. -/
structure Octet (f : Bytes) : Prop where
  nonempty : f ≠ []
  digits : ∀ b ∈ f, isdigit b = true
  small : digitsVal f ≤ 255

theorem Octet.atoi {f : Bytes} (h : Octet f) : strAtoi f = digitsVal f :=
  strAtoi_of_digits h.digits (Nat.lt_of_le_of_lt h.small (by decide))

/-- The text is `n` such numbers with the separator between them. -/
def OctetFields (sep : UInt8) (n : ℕ) (s : Bytes) : Prop :=
  (s.splitOn sep).length = n ∧ ∀ f ∈ s.splitOn sep, Octet f

/-! ### What the scan reads -/

/-- The fields the splits give; NUL is no separator for them. -/
def scanned (sep : UInt8) (s : Bytes) : List Bytes := if sep = chNul then [s] else s.splitOn sep

/-- `atoi` reads a number of a byte. -/
def ReadsOctet (f : Bytes) : Prop := 0 ≤ strAtoi f ∧ strAtoi f ≤ 255

/-- The number of a field that reads as one. -/
def octetOf (f : Bytes) : UInt8 := UInt8.ofNat (strAtoi f).toNat

/-- As many fields as there are to be, the last of several not empty, or an
empty one behind them; and each of them reads as a number. -/
structure Readable (n : ℕ) (fields : List Bytes) : Prop where
  shape : (fields.length = n ∧ (n = 1 ∨ fields.getLast? ≠ some [])) ∨
    (fields.length = n + 1 ∧ fields.getLast? = some [])
  reads : ∀ f ∈ fields.take n, ReadsOctet f

theorem scanned_of_not_mem {sep : UInt8} {u : Bytes} (h : sep ∉ u) : scanned sep u = [u] := by
  unfold scanned
  split
  · rfl
  · exact List.splitOn_eq_singleton h

theorem scanned_append_cons {sep : UInt8} (h0 : sep ≠ chNul) {u : Bytes} (h : sep ∉ u) (v : Bytes) :
    scanned sep (u ++ sep :: v) = u :: scanned sep v := by
  unfold scanned
  rw [if_neg h0, if_neg h0, List.splitOn_append_cons_self_of_not_mem h]

theorem scanned_ne_nil (sep : UInt8) (s : Bytes) : scanned sep s ≠ [] := by
  unfold scanned
  split
  · exact List.cons_ne_nil s []
  · exact List.splitOn_ne_nil sep s

/-- One split: the last field, or a field and more. -/
theorem strSplitChar_scanned (sep : UInt8) (s : Bytes) :
    (strSplitChar s sep = (s, []) ∧ scanned sep s = [s]) ∨
    ∃ u v, strSplitChar s sep = (u, v) ∧ scanned sep s = u :: scanned sep v ∧ (v = [] → scanned sep v = [[]]) := by
  by_cases h0 : sep = chNul
  · left
    rw [h0]
    exact ⟨rfl, rfl⟩
  · by_cases hmem : sep ∈ s
    · right
      obtain ⟨u, v, hs, hu⟩ := List.eq_append_cons_of_mem hmem
      refine ⟨u, v, ?_, ?_, ?_⟩
      · rw [hs, strSplitChar_append_cons h0 hu]
      · rw [hs, scanned_append_cons h0 hu]
      · intro hv
        rw [hv]
        exact scanned_of_not_mem List.not_mem_nil
    · left
      exact ⟨strSplitChar_of_not_mem hmem, scanned_of_not_mem hmem⟩

theorem scanned_eq_singleton_nil {sep : UInt8} {s : Bytes} (h : scanned sep s = [[]]) : s = [] := by
  rcases strSplitChar_scanned sep s with ⟨_, hs⟩ | ⟨u, v, _, hs, _⟩
  · rw [hs] at h
    exact List.cons.inj h |>.1
  · rw [hs] at h
    exact absurd (List.cons.inj h).2 (scanned_ne_nil sep v)

/-- What a field takes away from what is to be read. -/
theorem readable_cons_iff {n : ℕ} {f : Bytes} {fields : List Bytes} (hne : fields ≠ []) (hmore : fields ≠ [[]]) :
    Readable (n + 2) (f :: fields) ↔ ReadsOctet f ∧ Readable (n + 1) fields := by
  have hlast : (f :: fields).getLast? = fields.getLast? := by
    rw [List.getLast?_cons]
    cases hl : fields.getLast? with
    | none => exact absurd (List.getLast?_eq_none_iff.mp hl) hne
    | some g => rfl
  have hone : fields.length = 1 → fields.getLast? ≠ some [] := by
    intro hlen hnil
    obtain ⟨g, hg⟩ := List.length_eq_one_iff.mp hlen
    rw [hg] at hnil hmore
    simp at hnil hmore
    exact hmore hnil
  constructor
  · intro h
    have hshape := h.shape
    have hreads := h.reads
    rw [hlast, List.length_cons] at hshape
    rw [List.take_succ_cons] at hreads
    refine ⟨hreads f List.mem_cons_self, ?_, fun g hg => hreads g (List.mem_cons_of_mem f hg)⟩
    rcases hshape with ⟨hlen, hend⟩ | ⟨hlen, hend⟩
    · exact Or.inl ⟨by omega, Or.inr (hend.resolve_left (by omega))⟩
    · exact Or.inr ⟨by omega, hend⟩
  · intro h
    obtain ⟨hf, hshape, hreads⟩ := h
    refine ⟨?_, ?_⟩
    · rw [hlast, List.length_cons]
      rcases hshape with ⟨hlen, hend⟩ | ⟨hlen, hend⟩
      · refine Or.inl ⟨by omega, Or.inr ?_⟩
        rcases hend with hn | hend
        · exact hone (by omega)
        · exact hend
      · exact Or.inr ⟨by omega, hend⟩
    · intro g hg
      rw [List.take_succ_cons] at hg
      rcases List.mem_cons.mp hg with rfl | hg
      · exact hf
      · exact hreads g hg

theorem readable_one_iff {f : Bytes} : Readable 1 [f] ↔ ReadsOctet f := by
  constructor
  · exact fun h => h.reads f List.mem_cons_self
  · intro h
    refine ⟨Or.inl ⟨rfl, Or.inl rfl⟩, fun g hg => ?_⟩
    rw [List.mem_singleton.mp hg]
    exact h

/-- A single number may have a separator behind it. -/
theorem readable_one_cons_iff {f : Bytes} {fields : List Bytes} (hne : fields ≠ []) :
    Readable 1 (f :: fields) ↔ fields = [[]] ∧ ReadsOctet f := by
  constructor
  · intro h
    refine ⟨?_, h.reads f List.mem_cons_self⟩
    rcases h.shape with ⟨hlen, _⟩ | ⟨hlen, hlast⟩
    · exact absurd (List.length_eq_zero_iff.mp (Nat.succ.inj hlen)) hne
    · obtain ⟨g, hg⟩ := List.length_eq_one_iff.mp (Nat.succ.inj hlen)
      rw [hg] at hlast ⊢
      have hempty : g = [] := Option.some.inj hlast
      rw [hempty]
  · intro h
    obtain ⟨hfields, hf⟩ := h
    refine ⟨Or.inr ⟨by rw [hfields]; rfl, by rw [hfields]; rfl⟩, fun g hg => ?_⟩
    rw [List.mem_singleton.mp hg]
    exact hf

/-- Several numbers are not one field, nor one with a separator behind it. -/
theorem not_readable_short {n : ℕ} {f : Bytes} {fields : List Bytes} (h : fields = [] ∨ fields = [[]]) :
    ¬ Readable (n + 2) (f :: fields) := by
  intro hread
  rcases h with hnil | hempty
  · have hshape := hread.shape
    rw [hnil] at hshape
    simp at hshape
  · have hshape := hread.shape
    rw [hempty] at hshape
    simp at hshape

/-- One round of the scan. -/
theorem parseUcharStringSep_succ {sep : UInt8} {items : ℕ} {s u v vals : Bytes}
    (hsplit : strSplitChar s sep = (u, v)) : parseUcharStringSep sep (items + 1) s = some vals ↔
      (0 < items ↔ v ≠ []) ∧ ReadsOctet u ∧
        ∃ rest, parseUcharStringSep sep items v = some rest ∧ vals = octetOf u :: rest := by
  rw [parseUcharStringSep, hsplit]
  simp only
  by_cases hcount : (0 < items ∧ v = []) ∨ (items = 0 ∧ v ≠ [])
  · rw [if_pos hcount]
    have hno : ¬ (0 < items ↔ v ≠ []) := by
      rcases hcount with ⟨hpos, hv⟩ | ⟨hzero, hv⟩
      · exact fun h => h.mp hpos hv
      · exact fun h => absurd (h.mpr hv) (by omega)
    simp [hno]
  · rw [if_neg hcount]
    have hyes : 0 < items ↔ v ≠ [] := by
      constructor
      · exact fun hpos hv => hcount (Or.inl ⟨hpos, hv⟩)
      · intro hv
        by_contra hzero
        exact hcount (Or.inr ⟨by omega, hv⟩)
    by_cases hread : ReadsOctet u
    · have hin : ¬ (strAtoi u < 0 ∨ 255 < strAtoi u) := by
        have hlow := hread.1
        have hhigh := hread.2
        omega
      rw [if_neg hin, Option.map_eq_some_iff]
      simp [hyes, hread, octetOf, eq_comm]
    · have hout : strAtoi u < 0 ∨ 255 < strAtoi u := by
        by_contra hin
        exact hread ⟨by omega, by omega⟩
      rw [if_pos hout]
      simp [hread]

/-- **What is accepted, and what is handed out.** -/
theorem parseUcharStringSep_eq_some_iff (sep : UInt8) : ∀ (n : ℕ) (s vals : Bytes),
    parseUcharStringSep sep (n + 1) s = some vals ↔
      Readable (n + 1) (scanned sep s) ∧ vals = ((scanned sep s).take (n + 1)).map octetOf
  | 0, s, vals => by
    rcases strSplitChar_scanned sep s with ⟨hsplit, hs⟩ | ⟨u, v, hsplit, hs, hv⟩
    · rw [parseUcharStringSep_succ hsplit, hs, readable_one_iff]
      simp [parseUcharStringSep]
    · rw [parseUcharStringSep_succ hsplit, hs, readable_one_cons_iff (scanned_ne_nil sep v)]
      have hend : scanned sep v = [[]] ↔ v = [] := ⟨scanned_eq_singleton_nil, hv⟩
      rw [hend]
      simp [parseUcharStringSep, and_assoc]
  | n + 1, s, vals => by
    rcases strSplitChar_scanned sep s with ⟨hsplit, hs⟩ | ⟨u, v, hsplit, hs, hv⟩
    · rw [parseUcharStringSep_succ hsplit, hs]
      have hno := not_readable_short (n := n) (f := s) (Or.inl (rfl : ([] : List Bytes) = []))
      simp [hno]
    · rw [parseUcharStringSep_succ hsplit, hs]
      by_cases hvnil : v = []
      · have hno := not_readable_short (n := n) (f := u) (Or.inr (hv hvnil))
        constructor
        · exact fun h => absurd hvnil (h.1.mp (Nat.succ_pos n))
        · exact fun h => absurd h.1 hno
      · have hmore : scanned sep v ≠ [[]] := fun h => hvnil (scanned_eq_singleton_nil h)
        rw [readable_cons_iff (scanned_ne_nil sep v) hmore]
        simp only [parseUcharStringSep_eq_some_iff sep n v, List.take_succ_cons, List.map_cons]
        constructor
        · intro h
          obtain ⟨_, hread, _, ⟨hrest, rfl⟩, hvals⟩ := h
          exact ⟨⟨hread, hrest⟩, hvals⟩
        · intro h
          obtain ⟨⟨hread, hrest⟩, hvals⟩ := h
          exact ⟨by simp [hvnil], hread, _, ⟨hrest, rfl⟩, hvals⟩

/-! ### Against the numbers as they should be written -/

/-- Numbers as they should be written are read. -/
theorem readable_of_octets {n : ℕ} {fields : List Bytes} (hlen : fields.length = n)
    (hoctets : ∀ f ∈ fields, Octet f) : Readable n fields := by
  refine ⟨Or.inl ⟨hlen, Or.inr ?_⟩, ?_⟩
  · intro hlast
    exact (hoctets [] (List.mem_of_getLast? hlast)).nonempty rfl
  · intro f hf
    have hf' := hoctets f (List.mem_of_mem_take hf)
    have hsmall := hf'.small
    rw [ReadsOctet, hf'.atoi]
    omega

theorem OctetFields.scanned_eq {sep : UInt8} {n : ℕ} {s : Bytes} (hnul : ¬ (sep = chNul ∧ n ≠ 1))
    (h : OctetFields sep n s) : scanned sep s = s.splitOn sep := by
  unfold scanned
  by_cases hsep : sep = chNul
  · have hone : (s.splitOn sep).length = 1 := by
      by_contra hn
      exact hnul ⟨hsep, fun hn1 => hn (h.1.trans hn1)⟩
    rw [if_pos hsep]
    by_cases hmem : sep ∈ s
    · obtain ⟨u, v, hs, hu⟩ := List.eq_append_cons_of_mem hmem
      have hpos : 0 < (v.splitOn sep).length := List.length_pos_of_ne_nil (List.splitOn_ne_nil sep v)
      rw [hs, List.splitOn_append_cons_self_of_not_mem hu, List.length_cons] at hone
      omega
    · rw [List.splitOn_eq_singleton hmem]
  · rw [if_neg hsep]

/-- The scan sees the fields, but for several of them around a NUL. -/
theorem octetFields_iff_scanned {sep : UInt8} {n : ℕ} {s : Bytes} (hnul : ¬ (sep = chNul ∧ n ≠ 1)) :
    OctetFields sep n s ↔ (scanned sep s).length = n ∧ ∀ f ∈ scanned sep s, Octet f := by
  constructor
  · intro h
    rw [h.scanned_eq hnul]
    exact h
  · intro h
    unfold scanned at h
    by_cases hsep : sep = chNul
    · rw [if_pos hsep] at h
      have hmem : sep ∉ s := by
        intro hmem
        have hdigit := (h.2 s List.mem_cons_self).digits sep hmem
        rw [hsep] at hdigit
        exact absurd hdigit (by decide)
      unfold OctetFields
      rw [List.splitOn_eq_singleton hmem]
      exact h
    · rw [if_neg hsep] at h
      exact h

/-- Numbers as they should be written are handed out. -/
theorem OctetFields.parse_eq {sep : UInt8} {n : ℕ} {s : Bytes} (hn : 0 < n) (hnul : ¬ (sep = chNul ∧ n ≠ 1))
    (h : OctetFields sep n s) : parseUcharStringSep sep n s =
      some ((s.splitOn sep).map fun f => UInt8.ofNat (digitsVal f)) := by
  obtain ⟨m, rfl⟩ := Nat.exists_eq_succ_of_ne_zero (by omega : n ≠ 0)
  refine (parseUcharStringSep_eq_some_iff sep m s _).mpr ?_
  rw [h.scanned_eq hnul, List.take_of_length_le (Nat.le_of_eq h.1)]
  refine ⟨readable_of_octets h.1 h.2, List.map_congr_left fun f hf => ?_⟩
  rw [octetOf, (h.2 f hf).atoi]
  rfl

/-- **A text is taken for `n` numbers exactly if it is `n` decimal numbers
with the separator between them**, and then these are handed out, unless it
reads so without being it: a separator stands behind the last number, or
`atoi` makes a number of a byte out of a field that is none, or the fields
stand around a NUL. -/
theorem quads_exact (sep : UInt8) (n : ℕ) (s : Bytes) (hn : 0 < n) :
    (((parseUcharStringSep sep n s).isSome = true ↔ OctetFields sep n s) ∧
      (OctetFields sep n s → parseUcharStringSep sep n s =
        some ((s.splitOn sep).map fun f => UInt8.ofNat (digitsVal f)))) ↔
      ((Readable n (scanned sep s) → (scanned sep s).length = n ∧ ∀ f ∈ scanned sep s, Octet f) ∧
        ¬ (sep = chNul ∧ n ≠ 1 ∧ OctetFields sep n s)) := by
  have haccepts : (parseUcharStringSep sep n s).isSome = true ↔ Readable n (scanned sep s) := by
    obtain ⟨m, rfl⟩ := Nat.exists_eq_succ_of_ne_zero (by omega : n ≠ 0)
    rw [Option.isSome_iff_exists]
    constructor
    · intro h
      obtain ⟨vals, hvals⟩ := h
      exact ((parseUcharStringSep_eq_some_iff sep m s vals).mp hvals).1
    · intro h
      exact ⟨_, (parseUcharStringSep_eq_some_iff sep m s _).mpr ⟨h, rfl⟩⟩
  rw [haccepts]
  by_cases hnul : sep = chNul ∧ n ≠ 1
  · -- the scan takes the whole text for one field
    have hno : ¬ Readable n (scanned sep s) := by
      intro h
      have hshape := h.shape
      rw [scanned, if_pos hnul.1, List.length_singleton] at hshape
      have hn1 := hnul.2
      omega
    constructor
    · intro h
      exact ⟨fun hread => absurd hread hno, fun hslip => hno (h.1.mpr hslip.2.2)⟩
    · intro h
      have hfields : ¬ OctetFields sep n s := fun hfields => h.2 ⟨hnul.1, hnul.2, hfields⟩
      exact ⟨⟨fun hread => absurd hread hno, fun hf => absurd hf hfields⟩, fun hf => absurd hf hfields⟩
  · have hfields := octetFields_iff_scanned (s := s) hnul
    have hsome : ¬ (sep = chNul ∧ n ≠ 1 ∧ OctetFields sep n s) := fun h => hnul ⟨h.1, h.2.1⟩
    have hback : OctetFields sep n s → Readable n (scanned sep s) := by
      intro h
      obtain ⟨hlen, hoctets⟩ := hfields.mp h
      exact readable_of_octets hlen hoctets
    have hvals : OctetFields sep n s → parseUcharStringSep sep n s =
        some ((s.splitOn sep).map fun f => UInt8.ofNat (digitsVal f)) := fun h => h.parse_eq hn hnul
    rw [and_iff_left hvals, and_iff_left hsome, ← hfields]
    exact ⟨fun h => h.mp, fun h => ⟨h, hback⟩⟩

theorem quads_exact_port : parseUcharStringSep chComma 6 (text "10,0,0,7,4,1") = some [10, 0, 0, 7, 4, 1] := by
  have hexact := quads_exact chComma 6 (text "10,0,0,7,4,1") (by decide)
  have hoctets : ∀ f ∈ scanned chComma (text "10,0,0,7,4,1"), Octet f := by
    intro f hf
    have hall : ∀ g ∈ scanned chComma (text "10,0,0,7,4,1"),
        g ≠ [] ∧ (∀ b ∈ g, isdigit b = true) ∧ digitsVal g ≤ 255 := by decide +kernel
    exact ⟨(hall f hf).1, (hall f hf).2.1, (hall f hf).2.2⟩
  have hlen : (scanned chComma (text "10,0,0,7,4,1")).length = 6 := by decide +kernel
  have hclaim := hexact.mpr ⟨fun _ => ⟨hlen, hoctets⟩, fun h => absurd h.1 (by decide)⟩
  have hfields : OctetFields chComma 6 (text "10,0,0,7,4,1") :=
    (octetFields_iff_scanned (fun h => absurd h.1 (by decide))).mpr ⟨hlen, hoctets⟩
  exact (hclaim.2 hfields).trans (by decide +kernel)

/-- A sign, an empty field and a separator at the end are all taken. -/
theorem quads_taken_loosely : parseUcharStringSep chComma 3 (text "+1,,2x,") = some [1, 0, 2] ∧
    ¬ OctetFields chComma 3 (text "+1,,2x,") := by
  refine ⟨by decide +kernel, ?_⟩
  intro h
  exact absurd h.1 (by decide +kernel)

end CosFtp
