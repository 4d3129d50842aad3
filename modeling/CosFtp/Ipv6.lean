/-
# IPv6 addresses as text

An address is eight groups of one to four hexadecimal digits between colons; a
dotted quad may stand for the last two, and one `::` for groups of zeros
(`Ipv6Text`). `vsf_sysutil_parse_ipv6` reads what stands in front of the first
`::` and what stands behind it, part by part (`ipv6ParseMain_eq_some_iff`), and
it is content with less: it does not ask for all 16 bytes, nor for a last part
behind a colon, and takes a quad anywhere. It does not pad an address that
ends with `::` either, so its callers copy what the buffer held before.
`ipv6_exact` says on which texts all this makes no difference.

Key definitions: `Ipv6Text`, `ReadsPart`, `ReadsLoosely`, `Tight`.
Key theorems: `ipv6ParseHex_eq_some_iff`, `ipv4ParseDotquad_eq_some_iff`, `parseIpv6_eq_some_iff`,
`ipv6_exact`.
-/
import Mathlib.Data.List.Induction
import CosFtp.Quads

namespace CosFtp

open Search Fields

/-! ### The text of an address -/

/-- The value of a run of hexadecimal digits. -/
def hexVal (f : Bytes) : ℕ := f.foldl (fun v b => v * 16 + (hexDigit b).getD 0) 0

/-- The two bytes of a group. -/
def groupRaw (f : Bytes) : Bytes := [UInt8.ofNat (hexVal f / 256), UInt8.ofNat (hexVal f % 256)]

/-- The four bytes of a dotted quad. -/
def quadRaw (f : Bytes) : Bytes := (f.splitOn chDot).map fun g => UInt8.ofNat (digitsVal g)

/-- A group of an address. -/
structure HexGroup (f : Bytes) : Prop where
  nonempty : f ≠ []
  digits : ∀ b ∈ f, (hexDigit b).isSome = true
  short : f.length ≤ 4

/-- What stands between colons, and the bytes it says: groups, and at the end
a dotted quad or none. -/
inductive Parts : List Bytes → Bytes → Prop
  | nil : Parts [] []
  | quad (q : Bytes) (h : OctetFields chDot 4 q) : Parts [q] (quadRaw q)
  | group (g : Bytes) {ps : List Bytes} {raw : Bytes} (h : HexGroup g) (hps : Parts ps raw) :
      Parts (g :: ps) (groupRaw g ++ raw)

/-- The text of an IPv6 address, with its 16 bytes: the parts in full, or two
runs of parts around `::`, which stands for at least one group of zeros. -/
inductive Ipv6Text : Bytes → Bytes → Prop
  | full {ps : List Bytes} {raw : Bytes} (hps : Parts ps raw) (h16 : raw.length = 16) :
      Ipv6Text ([chColon].intercalate ps) raw
  | gap {gs ps : List Bytes} {raw : Bytes} (hgs : ∀ g ∈ gs, HexGroup g) (hps : Parts ps raw)
      (h14 : 2 * gs.length + raw.length ≤ 14) :
      Ipv6Text ([chColon].intercalate gs ++ [chColon, chColon] ++ [chColon].intercalate ps)
        (gs.flatMap groupRaw ++ List.replicate (16 - (2 * gs.length + raw.length)) 0 ++ raw)

/-- **What is asked of the parser**: it takes the texts of addresses and
nothing else, and what is copied from it is the address. -/
def ParsesExactly (s : Bytes) : Prop :=
  (∀ stale, (parseIpv6 stale s).isSome = true ↔ ∃ addr, Ipv6Text s addr) ∧
    ∀ addr, Ipv6Text s addr → ∀ stale, (parseIpv6 stale s).map Subtype.val = some addr

/-! ### Groups -/

theorem hexVal_append_singleton (f : Bytes) (b : UInt8) :
    hexVal (f ++ [b]) = hexVal f * 16 + (hexDigit b).getD 0 := by
  simp [hexVal]

theorem hexDigit_lt {b : UInt8} {d : ℕ} (h : hexDigit b = some d) : d < 16 := by
  unfold hexDigit at h
  simp only at h
  split at h
  · rw [Option.some.injEq] at h
    omega
  · split at h
    · rw [Option.some.injEq] at h
      omega
    · cases h

theorem hexVal_lt (f : Bytes) : hexVal f < 16 ^ f.length := by
  induction f using List.reverseRecOn with
  | nil => decide
  | append_singleton f b ih =>
    have hd : (hexDigit b).getD 0 < 16 := by
      cases h : hexDigit b with
      | none => decide
      | some d => exact hexDigit_lt h
    rw [hexVal_append_singleton, List.length_append, List.length_singleton, Nat.pow_succ]
    omega

/-- One digit of the loop of `ipv6_parse_hex`. -/
def hexStep (acc : Option ℕ) (b : UInt8) : Option ℕ :=
  acc.bind fun v => (hexDigit b).bind fun ch =>
    if 0xFFFF < v * 16 + ch then none else some (v * 16 + ch)

theorem hexStep_eq_some_iff {acc : Option ℕ} {b : UInt8} {v : ℕ} : hexStep acc b = some v ↔
    ∃ u ch, acc = some u ∧ hexDigit b = some ch ∧ u * 16 + ch ≤ 0xFFFF ∧ v = u * 16 + ch := by
  rw [hexStep, Option.bind_eq_some_iff]
  constructor
  · intro h
    obtain ⟨u, hu, hrest⟩ := h
    obtain ⟨ch, hch, hval⟩ := Option.bind_eq_some_iff.1 hrest
    by_cases hbig : 0xFFFF < u * 16 + ch
    · rw [if_pos hbig] at hval
      cases hval
    · rw [if_neg hbig, Option.some.injEq] at hval
      exact ⟨u, ch, hu, hch, by omega, hval.symm⟩
  · intro h
    obtain ⟨u, ch, hu, hch, hle, rfl⟩ := h
    refine ⟨u, hu, Option.bind_eq_some_iff.2 ⟨ch, hch, ?_⟩⟩
    rw [if_neg (by omega)]

theorem foldl_hexStep (f : Bytes) (v : ℕ) : f.foldl hexStep (some 0) = some v ↔
    (∀ b ∈ f, (hexDigit b).isSome = true) ∧ hexVal f ≤ 0xFFFF ∧ v = hexVal f := by
  induction f using List.reverseRecOn generalizing v with
  | nil =>
    rw [List.foldl_nil, Option.some.injEq]
    constructor
    · intro h
      exact ⟨fun b hb => absurd hb List.not_mem_nil, Nat.zero_le _, h.symm⟩
    · intro h
      exact h.2.2.symm
  | append_singleton f b ih =>
    rw [List.foldl_append, List.foldl_cons, List.foldl_nil, hexStep_eq_some_iff, hexVal_append_singleton]
    constructor
    · intro h
      obtain ⟨u, ch, hu, hch, hle, rfl⟩ := h
      obtain ⟨hdigits, -, rfl⟩ := (ih u).1 hu
      rw [hch, Option.getD_some]
      refine ⟨fun x hx => ?_, hle, rfl⟩
      rcases List.mem_append.1 hx with hx | hx
      · exact hdigits x hx
      · rw [List.mem_singleton.1 hx, hch]
        rfl
    · intro h
      obtain ⟨hdigits, hle, rfl⟩ := h
      obtain ⟨ch, hch⟩ := Option.isSome_iff_exists.1 (hdigits b (by simp))
      rw [hch, Option.getD_some] at hle
      have hu : f.foldl hexStep (some 0) = some (hexVal f) :=
        (ih _).2 ⟨fun x hx => hdigits x (by simp [hx]), by omega, rfl⟩
      exact ⟨hexVal f, ch, hu, hch, hle, by rw [hch, Option.getD_some]⟩

/-- **The digits are read unless their value is too large**, however many there are. -/
theorem ipv6ParseHex_eq_some_iff (f raw : Bytes) : ipv6ParseHex f = some raw ↔
    (∀ b ∈ f, (hexDigit b).isSome = true) ∧ hexVal f ≤ 0xFFFF ∧ raw = groupRaw f := by
  have heq : ipv6ParseHex f =
      (f.foldl hexStep (some 0)).map fun v => [UInt8.ofNat (v / 256), UInt8.ofNat (v % 256)] := rfl
  rw [heq, Option.map_eq_some_iff]
  constructor
  · intro h
    obtain ⟨v, hv, rfl⟩ := h
    obtain ⟨hdigits, hle, rfl⟩ := (foldl_hexStep f v).1 hv
    exact ⟨hdigits, hle, rfl⟩
  · intro h
    obtain ⟨hdigits, hle, rfl⟩ := h
    exact ⟨hexVal f, (foldl_hexStep f _).2 ⟨hdigits, hle, rfl⟩, rfl⟩

/-! ### Dotted quads -/

theorem digitsVal_append_singleton (f : Bytes) (b : UInt8) :
    digitsVal (f ++ [b]) = digitsVal f * 10 + (b.toNat - 48) := by
  simp [digitsVal]

theorem digitsVal_le_append (u w : Bytes) : digitsVal u ≤ digitsVal (u ++ w) := by
  induction w using List.reverseRecOn with
  | nil => rw [List.append_nil]
  | append_singleton w b ih =>
    rw [← List.append_assoc, digitsVal_append_singleton]
    omega

theorem dot_not_mem_digits {u : Bytes} (h : ∀ b ∈ u, isdigit b = true) : chDot ∉ u := by
  intro hdot
  exact absurd (h _ hdot) (by decide)

/-- The fields still to be read are the last of four, behind those with the values `vals`. -/
def QuadRead (vals : List ℕ) (fields : List Bytes) (out : List ℕ) : Prop :=
  vals.length + fields.length = 4 ∧ (∀ f ∈ fields, Octet f) ∧ out = vals ++ fields.map digitsVal

section

variable {u : Bytes} {vals out : List ℕ}

theorem quadRead_last (hu : ∀ b ∈ u, isdigit b = true) (hval : digitsVal u ≤ 255) :
    QuadRead vals [u] out ↔ (vals.length = 3 ∧ u ≠ []) ∧ out = vals ++ [digitsVal u] := by
  constructor
  · intro h
    obtain ⟨hlen, hoctets, hout⟩ := h
    rw [List.length_singleton] at hlen
    exact ⟨⟨by omega, (hoctets u List.mem_cons_self).nonempty⟩, hout⟩
  · intro h
    obtain ⟨⟨hlen, hne⟩, hout⟩ := h
    refine ⟨by rw [hlen, List.length_singleton], fun f hf => ?_, hout⟩
    rw [List.mem_singleton.1 hf]
    exact ⟨hne, hu, hval⟩

theorem quadRead_cons {fields : List Bytes} (hfields : fields ≠ []) (hu : ∀ b ∈ u, isdigit b = true)
    (hval : digitsVal u ≤ 255) :
    QuadRead vals (u :: fields) out ↔
      (vals.length ≠ 3 ∧ u ≠ []) ∧ QuadRead (vals ++ [digitsVal u]) fields out := by
  have hpos : 0 < fields.length := List.length_pos_of_ne_nil hfields
  unfold QuadRead
  rw [List.length_cons, List.forall_mem_cons, List.map_cons, List.length_append, List.length_singleton,
    List.append_assoc, List.singleton_append]
  constructor
  · intro h
    obtain ⟨hlen, ⟨hoctet, hoctets⟩, hout⟩ := h
    exact ⟨⟨by omega, hoctet.nonempty⟩, by omega, hoctets, hout⟩
  · intro h
    obtain ⟨⟨-, hne⟩, hlen, hoctets, hout⟩ := h
    exact ⟨by omega, ⟨⟨hne, hu, hval⟩, hoctets⟩, hout⟩

end

/-- The loop behind the digits `u` of a field and the values `vals` of those before it. -/
theorem ipv4ParseDotquadLoop_eq_some_iff (s : Bytes) : ∀ (u : Bytes) (vals out : List ℕ),
    (∀ b ∈ u, isdigit b = true) → digitsVal u ≤ 255 → vals.length ≤ 3 →
    (ipv4ParseDotquadLoop s (digitsVal u) vals (decide (u ≠ [])) = some out ↔
      QuadRead vals ((u ++ s).splitOn chDot) out) := by
  induction s with
  | nil =>
    intro u vals out hu hval hvals
    rw [ipv4ParseDotquadLoop, List.append_nil, List.splitOn_eq_singleton (dot_not_mem_digits hu),
      quadRead_last hu hval]
    by_cases hend : vals.length = 3 ∧ u ≠ []
    · have hgoes : ¬ (vals.length ≠ 3 ∨ (!decide (u ≠ [])) = true) := by
        simp [hend]
      rw [if_neg hgoes, Option.some.injEq, eq_comm]
      exact (and_iff_right hend).symm
    · have hstops : vals.length ≠ 3 ∨ (!decide (u ≠ [])) = true := by
        by_cases h3 : vals.length = 3
        · exact Or.inr (by simpa [h3] using hend)
        · exact Or.inl h3
      rw [if_pos hstops]
      simp [hend]
  | cons b s ih =>
    intro u vals out hu hval hvals
    have hdot : chDot ∉ u := dot_not_mem_digits hu
    rw [ipv4ParseDotquadLoop]
    by_cases hb : b = chDot
    · rw [if_pos hb, hb, List.splitOn_append_cons_self_of_not_mem hdot,
        quadRead_cons (List.splitOn_ne_nil _ _) hu hval]
      by_cases hend : vals.length ≠ 3 ∧ u ≠ []
      · have hgoes : ¬ ((!decide (u ≠ [])) = true ∨ vals.length = 3) := by
          simp [hend]
        have hlt : (vals ++ [digitsVal u]).length ≤ 3 := by
          rw [List.length_append, List.length_singleton]
          omega
        rw [if_neg hgoes]
        exact (ih [] (vals ++ [digitsVal u]) out (by simp) (Nat.zero_le _) hlt).trans (and_iff_right hend).symm
      · have hstops : (!decide (u ≠ [])) = true ∨ vals.length = 3 := by
          by_cases h3 : vals.length = 3
          · exact Or.inr h3
          · exact Or.inl (by simpa [h3] using hend)
        rw [if_pos hstops]
        simp [hend]
    · rw [if_neg hb]
      have hub : u ++ b :: s = (u ++ [b]) ++ s := List.append_cons u b s
      have hdot' : chDot ∉ u ++ [b] := by
        simp [hdot, Ne.symm hb]
      obtain ⟨w, rest, -, -, hsplit⟩ := splitOn_append_of_not_mem hdot' s
      by_cases hdigit : isdigit b = true
      · rw [if_pos hdigit]
        have hstep : digitsVal u * 10 + (b.toNat - 48) = digitsVal (u ++ [b]) :=
          (digitsVal_append_singleton u b).symm
        have hu' : ∀ x ∈ u ++ [b], isdigit x = true := by
          intro x hx
          rcases List.mem_append.1 hx with hx | hx
          · exact hu x hx
          · rw [List.mem_singleton.1 hx]
            exact hdigit
        simp only [hstep]
        by_cases hbig : 255 < digitsVal (u ++ [b])
        · rw [if_pos hbig, hub, hsplit]
          refine ⟨fun h => (by cases h), fun h => ?_⟩
          have hsmall := (h.2.1 _ List.mem_cons_self).small
          have hle := digitsVal_le_append (u ++ [b]) w
          omega
        · rw [if_neg hbig, hub]
          have hnext := ih (u ++ [b]) vals out hu' (by omega) hvals
          have hseen : decide (u ++ [b] ≠ []) = true := by simp
          rw [hseen] at hnext
          exact hnext
      · rw [if_neg hdigit, hub, hsplit]
        refine ⟨fun h => (by cases h), fun h => ?_⟩
        have hdigits := (h.2.1 _ List.mem_cons_self).digits
        exact absurd (hdigits b (by simp)) hdigit

/-- **A dotted quad is read as the four numbers it is.** -/
theorem ipv4ParseDotquad_eq_some_iff (f raw : Bytes) :
    ipv4ParseDotquad f = some raw ↔ OctetFields chDot 4 f ∧ raw = quadRaw f := by
  have hloop := fun out => ipv4ParseDotquadLoop_eq_some_iff f [] [] out
    (fun x hx => absurd hx List.not_mem_nil) (Nat.zero_le _) (Nat.zero_le _)
  rw [ipv4ParseDotquad, Option.map_eq_some_iff]
  constructor
  · intro h
    obtain ⟨out, hout, rfl⟩ := h
    obtain ⟨hlen, hoctets, rfl⟩ := (hloop out).1 hout
    refine ⟨⟨by simpa using hlen, hoctets⟩, ?_⟩
    simp [quadRaw]
  · intro h
    obtain ⟨⟨hlen, hoctets⟩, rfl⟩ := h
    refine ⟨(f.splitOn chDot).map digitsVal, (hloop _).2 ⟨by simpa using hlen, hoctets, rfl⟩, ?_⟩
    simp [quadRaw]

/-! ### Parts -/

/-- What the parser takes between colons: a dotted quad, or hexadecimal digits
of a value that fits. -/
def ReadsPart (f : Bytes) : Prop :=
  if chDot ∈ f then OctetFields chDot 4 f
  else f ≠ [] ∧ (∀ b ∈ f, (hexDigit b).isSome = true) ∧ hexVal f ≤ 0xFFFF

def partRaw (f : Bytes) : Bytes := if chDot ∈ f then quadRaw f else groupRaw f

/-- How many bytes it makes of a part. -/
def partSize (f : Bytes) : ℕ := if chDot ∈ f then 4 else 2

theorem length_partRaw {f : Bytes} (h : ReadsPart f) : (partRaw f).length = partSize f := by
  unfold ReadsPart at h
  unfold partRaw partSize
  by_cases hdot : chDot ∈ f
  · rw [if_pos hdot] at h ⊢
    rw [if_pos hdot, quadRaw, List.length_map, h.1]
  · rw [if_neg hdot, if_neg hdot]
    rfl

theorem length_flatMap_partRaw {ps : List Bytes} (h : ∀ f ∈ ps, ReadsPart f) :
    (ps.flatMap partRaw).length = (ps.map partSize).sum := by
  rw [List.length_flatMap]
  exact congrArg List.sum (List.map_congr_left fun f hf => length_partRaw (h f hf))

theorem sum_partSize_even (ps : List Bytes) : (ps.map partSize).sum % 2 = 0 := by
  induction ps with
  | nil => rfl
  | cons f ps ih =>
    have hf : partSize f % 2 = 0 := by
      unfold partSize
      split
      · rfl
      · rfl
    rw [List.map_cons, List.sum_cons]
    omega

theorem isSome_strLocateChar_dot (f : Bytes) : (strLocateChar f chDot).isSome = true ↔ chDot ∈ f := by
  rw [strLocateChar_eq (by decide), Option.isSome_map]
  by_cases hdot : chDot ∈ f
  · obtain ⟨u, v, rfl, hu⟩ := List.eq_append_cons_of_mem hdot
    rw [cut_singleton v hu]
    simp
  · rw [cut_eq_none_of_not_mem hdot]
    simp [hdot]

theorem not_readsPart_nil : ¬ ReadsPart [] := by
  simp [ReadsPart]

/-- One part of the loop of `ipv6_parse_main`. -/
def parsePart (f : Bytes) : Option Bytes :=
  if (strLocateChar f chDot).isSome then ipv4ParseDotquad f else ipv6ParseHex f

theorem parsePart_eq_some_iff {f out : Bytes} (hne : f ≠ []) :
    parsePart f = some out ↔ ReadsPart f ∧ out = partRaw f := by
  have hfound := isSome_strLocateChar_dot f
  unfold parsePart ReadsPart partRaw
  by_cases hdot : chDot ∈ f
  · rw [if_pos (hfound.2 hdot), if_pos hdot, if_pos hdot]
    exact ipv4ParseDotquad_eq_some_iff f out
  · rw [if_neg (fun h => hdot (hfound.1 h)), if_neg hdot, if_neg hdot, ipv6ParseHex_eq_some_iff]
    simp [hne, and_assoc]

/-- One round of the loop. -/
theorem ipv6ParseMain_succ_eq_some_iff {n : ℕ} {lhs f rhs raw : Bytes} (hlhs : lhs ≠ []) (hne : f ≠ [])
    (hsplit : strSplitChar lhs chColon = (f, rhs)) : ipv6ParseMain (n + 1) lhs = some raw ↔
      ReadsPart f ∧ ∃ rest, ipv6ParseMain n rhs = some rest ∧ raw = partRaw f ++ rest := by
  have hround : ipv6ParseMain (n + 1) lhs =
      (parsePart f).bind fun out => (ipv6ParseMain n rhs).bind fun rest => some (out ++ rest) := by
    rw [ipv6ParseMain, if_neg hlhs, hsplit, parsePart]
    simp only [if_neg hne]
    by_cases hfound : (strLocateChar f chDot).isSome = true
    · rw [if_pos hfound, if_pos hfound]
      rfl
    · rw [if_neg hfound, if_neg hfound]
      rfl
  rw [hround, Option.bind_eq_some_iff]
  simp only [parsePart_eq_some_iff hne, Option.bind_eq_some_iff, Option.some.injEq]
  constructor
  · intro h
    obtain ⟨out, ⟨hread, rfl⟩, rest, hrest, rfl⟩ := h
    exact ⟨hread, rest, hrest, rfl⟩
  · intro h
    obtain ⟨hread, rest, hrest, rfl⟩ := h
    exact ⟨_, ⟨hread, rfl⟩, rest, hrest, rfl⟩

/-- **The loop reads part by part**, and does not mind a colon at the end. -/
theorem ipv6ParseMain_eq_some_iff (s : Bytes) : ∀ (n : ℕ) (raw : Bytes), s.length < n →
    (ipv6ParseMain n s = some raw ↔ (∀ f ∈ segments chColon s, ReadsPart f) ∧
      raw = (segments chColon s).flatMap partRaw) := by
  induction s using fields_induction chColon with
  | last u hu =>
    intro n raw hn
    obtain ⟨m, rfl⟩ := Nat.exists_eq_succ_of_ne_zero (by omega : n ≠ 0)
    rw [segments_of_not_mem hu]
    by_cases hnil : u = []
    · rw [ipv6ParseMain, if_pos hnil, if_pos hnil]
      simp [eq_comm]
    · have hend : ipv6ParseMain m [] = some [] := by
        cases m with
        | zero => rfl
        | succ m => rfl
      rw [ipv6ParseMain_succ_eq_some_iff hnil hnil (strSplitChar_of_not_mem hu), if_neg hnil, hend]
      simp [eq_comm]
  | more u v hu ih =>
    intro n raw hn
    obtain ⟨m, rfl⟩ := Nat.exists_eq_succ_of_ne_zero (by omega : n ≠ 0)
    have hm : v.length < m := by
      rw [List.length_append, List.length_cons] at hn
      omega
    have hlhs : u ++ chColon :: v ≠ [] := by simp
    have hsplit : strSplitChar (u ++ chColon :: v) chColon = (u, v) := strSplitChar_append_cons (by decide) hu v
    rw [segments_append_cons hu]
    by_cases hnil : u = []
    · rw [ipv6ParseMain, if_neg hlhs, hsplit]
      simp only [if_pos hnil]
      refine ⟨fun h => (by cases h), fun h => ?_⟩
      have hread := h.1 u List.mem_cons_self
      rw [hnil] at hread
      exact absurd hread not_readsPart_nil
    · rw [ipv6ParseMain_succ_eq_some_iff hlhs hnil hsplit, List.forall_mem_cons, List.flatMap_cons]
      simp only [ih m _ hm]
      constructor
      · intro h
        obtain ⟨hread, rest, ⟨hreads, rfl⟩, hraw⟩ := h
        exact ⟨⟨hread, hreads⟩, hraw⟩
      · intro h
        obtain ⟨⟨hread, hreads⟩, hraw⟩ := h
        exact ⟨hread, _, ⟨hreads, rfl⟩, hraw⟩

/-! ### The halves -/

/-- What stands in front of the first `::`, and what behind it. -/
def ipv6Halves (s : Bytes) : Bytes × Bytes := (cut [chColon, chColon] s).getD (s, [])

def lhsParts (s : Bytes) : List Bytes := segments chColon (ipv6Halves s).1
def rhsParts (s : Bytes) : List Bytes := segments chColon (ipv6Halves s).2

/-- All that stands between colons. -/
def ipv6Parts (s : Bytes) : List Bytes := lhsParts s ++ rhsParts s

/-- How many bytes they are. -/
def ipv6Size (s : Bytes) : ℕ := ((ipv6Parts s).map partSize).sum

/-- What the parser takes: parts that it can read and that fit. -/
structure ReadsLoosely (s : Bytes) : Prop where
  parts : ∀ f ∈ ipv6Parts s, ReadsPart f
  fits : ipv6Size s ≤ 16

/-- What the callers copy. -/
def copied (stale : RawAddr 16) (s : Bytes) : Bytes :=
  let lhs := (lhsParts s).flatMap partRaw
  let rhs := (rhsParts s).flatMap partRaw
  let ret := if 0 < rhs.length then
      lhs ++ List.replicate (16 - (lhs.length + rhs.length)) chNul ++ rhs
    else lhs
  (ret ++ [chNul] ++ stale.1).take 16

theorem length_halves {s : Bytes} (h : ∀ f ∈ ipv6Parts s, ReadsPart f) :
    ((lhsParts s).flatMap partRaw).length + ((rhsParts s).flatMap partRaw).length = ipv6Size s := by
  rw [← List.length_append, ← List.flatMap_append]
  exact length_flatMap_partRaw h

/-- **What is taken, and what is copied then.** -/
theorem parseIpv6_eq_some_iff (stale : RawAddr 16) (s : Bytes) (addr : RawAddr 16) :
    parseIpv6 stale s = some addr ↔ ReadsLoosely s ∧ addr.1 = copied stale s := by
  have hsplit : strSplitText s (text "::") = ipv6Halves s := by
    rw [strSplitText_eq (by decide) (by decide)]
    rfl
  have hlhs := fun raw => ipv6ParseMain_eq_some_iff (ipv6Halves s).1 _ raw (Nat.lt_succ_self _)
  have hrhs := fun raw => ipv6ParseMain_eq_some_iff (ipv6Halves s).2 _ raw (Nat.lt_succ_self _)
  unfold parseIpv6
  rw [hsplit]
  constructor
  · intro h
    obtain ⟨l, hl, h⟩ := Option.bind_eq_some_iff.1 h
    obtain ⟨r, hr, h⟩ := Option.bind_eq_some_iff.1 h
    obtain ⟨hlreads, rfl⟩ := (hlhs l).1 hl
    obtain ⟨hrreads, rfl⟩ := (hrhs r).1 hr
    have hreads : ∀ f ∈ ipv6Parts s, ReadsPart f := List.forall_mem_append.2 ⟨hlreads, hrreads⟩
    have hlen := length_halves hreads
    by_cases hbig : 16 < ((lhsParts s).flatMap partRaw).length + ((rhsParts s).flatMap partRaw).length
    · rw [lhsParts, rhsParts] at hbig
      rw [if_pos hbig] at h
      cases h
    · refine ⟨⟨hreads, by omega⟩, ?_⟩
      rw [lhsParts, rhsParts] at hbig
      rw [if_neg hbig, Option.some.injEq] at h
      rw [← h]
      rfl
  · intro h
    obtain ⟨hloose, haddr⟩ := h
    obtain ⟨hlreads, hrreads⟩ := List.forall_mem_append.1 hloose.parts
    have hlen := length_halves hloose.parts
    have hfits := hloose.fits
    refine Option.bind_eq_some_iff.2 ⟨_, (hlhs _).2 ⟨hlreads, rfl⟩, ?_⟩
    refine Option.bind_eq_some_iff.2 ⟨_, (hrhs _).2 ⟨hrreads, rfl⟩, ?_⟩
    have hsmall : ¬ 16 < ((lhsParts s).flatMap partRaw).length + ((rhsParts s).flatMap partRaw).length := by
      omega
    rw [lhsParts, rhsParts] at hsmall
    rw [if_neg hsmall, Option.some.injEq]
    exact Subtype.ext haddr.symm

/-! ### Against the text of an address -/

/-- The parts are those of an address: they make all its bytes, or leave some
to a `::`, no colon stands at the end, groups are short, and a quad is last. -/
structure Tight (s : Bytes) : Prop where
  full : ¬ [chColon, chColon] <:+: s → ipv6Size s = 16
  gap : [chColon, chColon] <:+: s → ipv6Size s < 16
  ended : s.getLast? ≠ some chColon
  short : ∀ f ∈ ipv6Parts s, chDot ∉ f → f.length ≤ 4
  quadLast : ∀ f ∈ (ipv6Parts s).dropLast, chDot ∉ f

theorem HexGroup.dot_not_mem {g : Bytes} (h : HexGroup g) : chDot ∉ g := by
  intro hdot
  exact absurd (h.digits _ hdot) (by decide)

theorem HexGroup.colon_not_mem {g : Bytes} (h : HexGroup g) : chColon ∉ g := by
  intro hcolon
  exact absurd (h.digits _ hcolon) (by decide)

theorem HexGroup.readsPart {g : Bytes} (h : HexGroup g) : ReadsPart g := by
  have hlt := hexVal_lt g
  have hpow : 16 ^ g.length ≤ 16 ^ 4 := Nat.pow_le_pow_right (by decide) h.short
  rw [ReadsPart, if_neg h.dot_not_mem]
  exact ⟨h.nonempty, h.digits, by omega⟩

theorem HexGroup.partRaw_eq {g : Bytes} (h : HexGroup g) : partRaw g = groupRaw g := if_neg h.dot_not_mem

/-- A short part that reads and has no dot is a group. -/
theorem ReadsPart.hexGroup {f : Bytes} (h : ReadsPart f) (hdot : chDot ∉ f) (hshort : f.length ≤ 4) :
    HexGroup f := by
  rw [ReadsPart, if_neg hdot] at h
  exact ⟨h.1, h.2.1, hshort⟩

theorem OctetFields.quad {q : Bytes} (h : OctetFields chDot 4 q) :
    chDot ∈ q ∧ q ≠ [] ∧ chColon ∉ q := by
  have hdot : chDot ∈ q := by
    by_contra hdot
    have hlen := h.1
    rw [List.splitOn_eq_singleton hdot, List.length_singleton] at hlen
    omega
  refine ⟨hdot, List.ne_nil_of_mem hdot, fun hcolon => ?_⟩
  obtain ⟨f, hf, hmem⟩ := mem_field hcolon (by decide : chColon ≠ chDot)
  exact absurd ((h.2 f hf).digits _ hmem) (by decide)

theorem forall_mem_dropLast_cons {P : Bytes → Prop} {f : Bytes} {ps : List Bytes} :
    (∀ x ∈ (f :: ps).dropLast, P x) ↔ ps = [] ∨ (P f ∧ ∀ x ∈ ps.dropLast, P x) := by
  by_cases hnil : ps = []
  · simp [hnil]
  · rw [List.dropLast_cons_of_ne_nil hnil, List.forall_mem_cons]
    simp [hnil]

/-- What the parts of an address are for the parser. -/
structure PartsRead (ps : List Bytes) (raw : Bytes) : Prop where
  reads : ∀ f ∈ ps, ReadsPart f
  clean : ∀ f ∈ ps, f ≠ [] ∧ chColon ∉ f
  short : ∀ f ∈ ps, chDot ∉ f → f.length ≤ 4
  quadLast : ∀ f ∈ ps.dropLast, chDot ∉ f
  raw_eq : raw = ps.flatMap partRaw

theorem Parts.read {ps : List Bytes} {raw : Bytes} (h : Parts ps raw) : PartsRead ps raw := by
  induction h with
  | nil => exact ⟨by simp, by simp, by simp, by simp, rfl⟩
  | quad q hq =>
    obtain ⟨hdot, hclean⟩ := hq.quad
    have hread : ReadsPart q := by
      rw [ReadsPart, if_pos hdot]
      exact hq
    have hraw : quadRaw q = [q].flatMap partRaw := by
      rw [List.flatMap_singleton, partRaw, if_pos hdot]
    exact ⟨by simpa using hread, by simpa using hclean, by simp [hdot], by simp, hraw⟩
  | group g hg _ ih =>
    refine ⟨?_, ?_, ?_, ?_, ?_⟩
    · exact List.forall_mem_cons.2 ⟨hg.readsPart, ih.reads⟩
    · exact List.forall_mem_cons.2 ⟨⟨hg.nonempty, hg.colon_not_mem⟩, ih.clean⟩
    · exact List.forall_mem_cons.2 ⟨fun _ => hg.short, ih.short⟩
    · exact forall_mem_dropLast_cons.2 (Or.inr ⟨hg.dot_not_mem, ih.quadLast⟩)
    · rw [List.flatMap_cons, hg.partRaw_eq, ih.raw_eq]

/-- Groups in front of parts. -/
theorem Parts.append_groups {gs ps : List Bytes} {raw : Bytes} (hgs : ∀ g ∈ gs, HexGroup g)
    (hps : Parts ps raw) : Parts (gs ++ ps) (gs.flatMap groupRaw ++ raw) := by
  induction gs with
  | nil => exact hps
  | cons g gs ih =>
    obtain ⟨hg, hgs'⟩ := List.forall_mem_cons.1 hgs
    rw [List.cons_append, List.flatMap_cons, List.append_assoc]
    exact Parts.group g hg (ih hgs')

/-- Parts that read and are tight are those of an address. -/
theorem Parts.of_reads : ∀ {ps : List Bytes}, (∀ f ∈ ps, ReadsPart f) →
    (∀ f ∈ ps, chDot ∉ f → f.length ≤ 4) → (∀ f ∈ ps.dropLast, chDot ∉ f) →
    Parts ps (ps.flatMap partRaw)
  | [], _, _, _ => Parts.nil
  | f :: ps, hreads, hshort, hquad => by
    obtain ⟨hread, hreads'⟩ := List.forall_mem_cons.1 hreads
    obtain ⟨hf, hshort'⟩ := List.forall_mem_cons.1 hshort
    have hquad' := forall_mem_dropLast_cons.1 hquad
    by_cases hdot : chDot ∈ f
    · have hnil : ps = [] := hquad'.resolve_right fun h => h.1 hdot
      rw [ReadsPart, if_pos hdot] at hread
      rw [hnil, List.flatMap_singleton, partRaw, if_pos hdot]
      exact Parts.quad f hread
    · have hgroup := hread.hexGroup hdot (hf hdot)
      have hrest : ∀ x ∈ ps.dropLast, chDot ∉ x := by
        rcases hquad' with hnil | hrest
        · simp [hnil]
        · exact hrest.2
      rw [List.flatMap_cons, hgroup.partRaw_eq]
      exact Parts.group f hgroup (Parts.of_reads hreads' hshort' hrest)

/-! ### Texts and readings -/

theorem ipv6Halves_of_not_infix {s : Bytes} (h : ¬ [chColon, chColon] <:+: s) : ipv6Halves s = (s, []) := by
  rw [ipv6Halves, (cut_eq_none_iff (by simp)).2 h]
  rfl

/-- The halves of two runs of parts around `::`. -/
theorem ipv6Halves_gap {gs : List Bytes} (hgs : ∀ g ∈ gs, g ≠ [] ∧ chColon ∉ g) (r : Bytes) :
    ipv6Halves ([chColon].intercalate gs ++ [chColon, chColon] ++ r) = ([chColon].intercalate gs, r) := by
  have hcut : cut [chColon, chColon] ([chColon].intercalate gs ++ ([chColon, chColon] ++ r)) =
      some ([chColon].intercalate gs, r) := by
    rw [cut_intercalate _ hgs, cut_append_self (by simp) r]
    simp
  rw [ipv6Halves, List.append_assoc, hcut]
  rfl

/-- Parts alone have no `::` in them. -/
theorem not_infix_intercalate {ps : List Bytes} (hps : ∀ p ∈ ps, p ≠ [] ∧ chColon ∉ p) :
    ¬ [chColon, chColon] <:+: [chColon].intercalate ps := by
  rw [← cut_eq_none_iff (by simp), ← List.append_nil ([chColon].intercalate ps), cut_intercalate _ hps]
  rfl

/-- What the parser makes of the text of an address. -/
structure TextRead (s addr : Bytes) : Prop where
  loose : ReadsLoosely s
  tight : s.getLast? ≠ some chColon → Tight s
  copied_eq : s.getLast? ≠ some chColon → ∀ stale, copied stale s = addr
  stale : s.getLast? = some chColon → ∃ stale, copied stale s ≠ addr

theorem Ipv6Text.read_full {ps : List Bytes} {raw : Bytes} (hps : Parts ps raw) (h16 : raw.length = 16) :
    TextRead ([chColon].intercalate ps) raw := by
  have hread := hps.read
  have hno := not_infix_intercalate hread.clean
  have hlhs : lhsParts ([chColon].intercalate ps) = ps := by
    rw [lhsParts, ipv6Halves_of_not_infix hno, segments_intercalate hread.clean]
  have hrhs : rhsParts ([chColon].intercalate ps) = [] := by
    rw [rhsParts, ipv6Halves_of_not_infix hno, segments_nil]
  have hparts : ipv6Parts ([chColon].intercalate ps) = ps := by
    rw [ipv6Parts, hlhs, hrhs, List.append_nil]
  have hsize : ipv6Size ([chColon].intercalate ps) = 16 := by
    rw [ipv6Size, hparts, ← length_flatMap_partRaw hread.reads, ← hread.raw_eq, h16]
  have hlast := getLast?_intercalate hread.clean
  refine ⟨⟨?_, hsize.le⟩, fun _ => ⟨fun _ => hsize, fun h => absurd h hno, hlast, ?_, ?_⟩, ?_, ?_⟩
  · rw [hparts]
    exact hread.reads
  · rw [hparts]
    exact hread.short
  · rw [hparts]
    exact hread.quadLast
  · intro _ stale
    simp only [copied, hlhs, hrhs, ← hread.raw_eq]
    simp [h16]
  · exact fun h => absurd h hlast

theorem Ipv6Text.read_gap {gs ps : List Bytes} {raw : Bytes} (hgs : ∀ g ∈ gs, HexGroup g)
    (hps : Parts ps raw) (h14 : 2 * gs.length + raw.length ≤ 14) :
    TextRead ([chColon].intercalate gs ++ [chColon, chColon] ++ [chColon].intercalate ps)
      (gs.flatMap groupRaw ++ List.replicate (16 - (2 * gs.length + raw.length)) 0 ++ raw) := by
  have hread := hps.read
  have hall := (Parts.append_groups hgs hps).read
  have hclean : ∀ g ∈ gs, g ≠ [] ∧ chColon ∉ g := fun g hg => ⟨(hgs g hg).nonempty, (hgs g hg).colon_not_mem⟩
  have hhalves := ipv6Halves_gap hclean ([chColon].intercalate ps)
  have hgap : [chColon, chColon] <:+:
      [chColon].intercalate gs ++ [chColon, chColon] ++ [chColon].intercalate ps := ⟨_, _, rfl⟩
  have hraw : gs.flatMap partRaw = gs.flatMap groupRaw :=
    List.flatMap_congr fun g hg => (hgs g hg).partRaw_eq
  have hlen : (gs.flatMap groupRaw).length = 2 * gs.length := by
    simp [groupRaw, List.length_flatMap, Nat.mul_comm]
  generalize hs : [chColon].intercalate gs ++ [chColon, chColon] ++ [chColon].intercalate ps = s at *
  have hlhs : lhsParts s = gs := by
    rw [lhsParts, hhalves, segments_intercalate hclean]
  have hrhs : rhsParts s = ps := by
    rw [rhsParts, hhalves, segments_intercalate hread.clean]
  have hparts : ipv6Parts s = gs ++ ps := by
    rw [ipv6Parts, hlhs, hrhs]
  have hsize : ipv6Size s = 2 * gs.length + raw.length := by
    rw [ipv6Size, hparts, ← length_flatMap_partRaw hall.reads, ← hall.raw_eq, List.length_append, hlen]
  have hloose : ReadsLoosely s := by
    refine ⟨?_, by omega⟩
    rw [hparts]
    exact hall.reads
  refine ⟨hloose, fun hlast => ?_, ?_, ?_⟩
  · refine ⟨fun h => absurd hgap h, fun _ => by omega, hlast, ?_, ?_⟩
    · rw [hparts]
      exact hall.short
    · rw [hparts]
      exact hall.quadLast
  · intro hlast stale
    have hne : ps ≠ [] := by
      intro hnil
      rw [← hs, hnil] at hlast
      simp at hlast
    have hpos : 0 < raw.length := by
      obtain ⟨p, ps', rfl⟩ := List.exists_cons_of_ne_nil hne
      have hp : 0 < partSize p := by
        unfold partSize
        split
        · decide
        · decide
      rw [hread.raw_eq, length_flatMap_partRaw hread.reads, List.map_cons, List.sum_cons]
      omega
    have h16 : (gs.flatMap groupRaw ++ List.replicate (16 - (2 * gs.length + raw.length)) chNul ++ raw).length =
        16 := by
      rw [List.length_append, List.length_append, List.length_replicate, hlen]
      omega
    simp only [copied, hlhs, hrhs, hraw, ← hread.raw_eq, if_pos hpos, hlen]
    rw [List.append_assoc _ [chNul], List.take_append_of_le_length h16.ge, List.take_of_length_le h16.le]
  · intro hlast
    have hnil : ps = [] := by
      by_contra hne
      have hinter : [chColon].intercalate ps ≠ [] := by
        intro hempty
        have hback := segments_intercalate hread.clean
        rw [hempty, segments_nil] at hback
        exact hne hback.symm
      rw [← hs, List.getLast?_append_of_ne_nil _ hinter] at hlast
      exact getLast?_intercalate hread.clean hlast
    have hempty : raw = [] := by rw [hread.raw_eq, hnil, List.flatMap_nil]
    refine ⟨⟨List.replicate 16 255, by simp⟩, ?_⟩
    simp only [copied, hlhs, hrhs, hraw, ← hread.raw_eq, hempty, List.length_nil, Nat.lt_irrefl, if_false,
      Nat.add_zero, List.append_nil]
    rw [hempty, List.length_nil] at h14
    obtain ⟨k, hk⟩ : ∃ k, 16 - 2 * gs.length = k + 2 := ⟨14 - 2 * gs.length, by omega⟩
    rw [hk, List.append_assoc, List.take_append, hlen, hk, List.take_of_length_le (by omega)]
    intro heq
    have htail := List.append_cancel_left heq
    simp [List.replicate_succ] at htail

theorem Ipv6Text.read {s addr : Bytes} (h : Ipv6Text s addr) : TextRead s addr := by
  cases h with
  | full hps h16 => exact Ipv6Text.read_full hps h16
  | gap hgs hps h14 => exact Ipv6Text.read_gap hgs hps h14

/-- Parts that are tight are the text of an address. -/
theorem Tight.text {s : Bytes} (ht : Tight s) (hl : ReadsLoosely s) : ∃ addr, Ipv6Text s addr := by
  have hreads := hl.parts
  have hended := ht.ended
  by_cases hgap : [chColon, chColon] <:+: s
  · have hsome : cut [chColon, chColon] s ≠ none := fun h => (cut_eq_none_iff (by simp)).1 h hgap
    obtain ⟨⟨l, r⟩, hcut⟩ := Option.ne_none_iff_exists'.1 hsome
    have hs : s = l ++ [chColon, chColon] ++ r := eq_of_cut hcut
    have hhalves : ipv6Halves s = (l, r) := by
      rw [ipv6Halves, hcut]
      rfl
    have hr : r ≠ [] := by
      intro hnil
      rw [hs, hnil] at hended
      simp at hended
    have hrlast : r.getLast? ≠ some chColon := by
      rw [hs, List.getLast?_append_of_ne_nil _ hr] at hended
      exact hended
    have hllast : l.getLast? ≠ some chColon := by
      intro hlast
      obtain ⟨l', rfl⟩ := List.getLast?_eq_some_iff.1 hlast
      -- the `::` would begin one place earlier
      have hearlier : s = l' ++ [chColon, chColon] ++ chColon :: r := by
        rw [hs]
        simp
      have hle := length_le_of_cut hcut hearlier
      rw [List.length_append, List.length_singleton] at hle
      omega
    have hlseg := intercalate_segments hllast
    have hrseg := intercalate_segments hrlast
    have hparts : ipv6Parts s = segments chColon l ++ segments chColon r := by
      rw [ipv6Parts, lhsParts, rhsParts, hhalves]
    have hne : segments chColon r ≠ [] := by
      intro hnil
      rw [hnil, List.intercalate_nil] at hrseg
      exact hr hrseg.symm
    have hsize := ht.gap hgap
    have hquad := ht.quadLast
    have hshort := ht.short
    rw [hparts] at hreads hquad hshort
    rw [List.dropLast_append_of_ne_nil hne] at hquad
    obtain ⟨hlreads, hrreads⟩ := List.forall_mem_append.1 hreads
    obtain ⟨hlquad, hrquad⟩ := List.forall_mem_append.1 hquad
    obtain ⟨hlshort, hrshort⟩ := List.forall_mem_append.1 hshort
    have hgs : ∀ g ∈ segments chColon l, HexGroup g := fun g hg =>
      (hlreads g hg).hexGroup (hlquad g hg) (hlshort g hg (hlquad g hg))
    have hps := Parts.of_reads hrreads hrshort hrquad
    have hlsize : ((segments chColon l).map partSize).sum = 2 * (segments chColon l).length := by
      have htwo : (segments chColon l).map partSize = (segments chColon l).map fun _ => 2 :=
        List.map_congr_left fun g hg => if_neg (hlquad g hg)
      rw [htwo, List.map_const', List.sum_replicate_nat, Nat.mul_comm]
    have hreven := sum_partSize_even (segments chColon r)
    have hrlen := length_flatMap_partRaw hrreads
    rw [ipv6Size, hparts, List.map_append, List.sum_append, hlsize] at hsize
    have htext := Ipv6Text.gap hgs hps (by omega)
    rw [hlseg, hrseg, ← hs] at htext
    exact ⟨_, htext⟩
  · have hparts : ipv6Parts s = segments chColon s := by
      rw [ipv6Parts, lhsParts, rhsParts, ipv6Halves_of_not_infix hgap, segments_nil, List.append_nil]
    have h16 := ht.full hgap
    have hquad := ht.quadLast
    have hshort := ht.short
    rw [ipv6Size] at h16
    rw [hparts] at hreads hquad hshort h16
    rw [← length_flatMap_partRaw hreads] at h16
    have htext := Ipv6Text.full (Parts.of_reads hreads hshort hquad) h16
    rw [intercalate_segments hended] at htext
    exact ⟨_, htext⟩

/-- **The parser takes exactly the texts of addresses and hands out the
address, unless it can read a text whose parts are not tight**: they leave
bytes over or none for a `::`, a colon stands at the end, a group has more than
four digits, or a quad stands in front of another part. -/
theorem ipv6_exact (s : Bytes) : ParsesExactly s ↔ (ReadsLoosely s → Tight s) := by
  have haccepts : ∀ stale, (parseIpv6 stale s).isSome = true ↔ ReadsLoosely s := by
    intro stale
    rw [Option.isSome_iff_exists]
    constructor
    · intro h
      obtain ⟨addr, haddr⟩ := h
      exact ((parseIpv6_eq_some_iff stale s addr).1 haddr).1
    · intro h
      have hlen : (copied stale s).length = 16 := by
        simp [copied, stale.2]
      exact ⟨⟨copied stale s, hlen⟩, (parseIpv6_eq_some_iff stale s _).2 ⟨h, rfl⟩⟩
  have hvalue : ∀ stale, ReadsLoosely s → (parseIpv6 stale s).map Subtype.val = some (copied stale s) := by
    intro stale h
    obtain ⟨addr, haddr⟩ := Option.isSome_iff_exists.1 ((haccepts stale).2 h)
    rw [haddr, Option.map_some, ((parseIpv6_eq_some_iff stale s addr).1 haddr).2]
  constructor
  · intro h hloose
    obtain ⟨haddr, hcopy⟩ := h
    have hzero : RawAddr 16 := ⟨List.replicate 16 0, by simp⟩
    obtain ⟨addr, htext⟩ := (haddr hzero).1 ((haccepts hzero).2 hloose)
    have hread := htext.read
    by_cases hlast : s.getLast? = some chColon
    · obtain ⟨stale, hne⟩ := hread.stale hlast
      have hsame := hcopy addr htext stale
      rw [hvalue stale hloose, Option.some.injEq] at hsame
      exact absurd hsame hne
    · exact hread.tight hlast
  · intro h
    refine ⟨fun stale => ?_, fun addr htext stale => ?_⟩
    · rw [haccepts]
      constructor
      · exact fun hloose => (h hloose).text hloose
      · intro hex
        obtain ⟨addr, htext⟩ := hex
        exact htext.read.loose
    · have hread := htext.read
      have hended := (h hread.loose).ended
      rw [hvalue stale hread.loose, hread.copied_eq hended stale]

/-- An address that ends with `::` is not padded: stale bytes are copied. -/
theorem ipv6_open_end : ¬ ParsesExactly (text "1::") := by
  intro h
  have hone : HexGroup (text "1") := ⟨by decide, by decide +kernel, by decide⟩
  have htext : Ipv6Text (text "1::") (0 :: 1 :: List.replicate 14 0) := by
    have hgs : ∀ g ∈ [text "1"], HexGroup g := by simpa using hone
    exact Ipv6Text.gap hgs Parts.nil (by decide)
  have hcopy := h.2 _ htext ⟨List.replicate 16 255, by simp⟩
  exact absurd hcopy (by decide +kernel)

end CosFtp
