/-
# The order of a listing

`str_list_sort` hands the lines to `qsort` with one of two comparators, which
compare the sort keys with `str_strcmp`: `memcmp` over the shorter length, then
the difference of the lengths as an `int`. The key of a line is the name of
the file, or with the option t the time of its last change in thirty digits,
and then the order is turned round.

* `strStrcmp_le_iff`: on strings that fit into memory `str_strcmp` is the order
  of byte strings, so the comparators are total preorders.
* `timeKey_le_iff`: the order of the thirty digits is that of the times.
* `listing_in_order`: whatever `qsort` does with lines that compare as equal,
  the lines of a listing are those of its files, one for each, by name or by
  time, upwards or downwards.

Key definitions: `strStrcmp`, `sortCompareCommon`, `TotalPreorderOn`, `Qsorts`, `ListedBefore`.
Key theorems: `strStrcmp_le_iff`, `sortCompareCommon_preorder`, `timeKey_le_iff`, `listing_in_order`.
-/
import Mathlib.Data.List.Perm.Basic
import Mathlib.Tactic.Ring
import CosFtp.Ls
import CosFtp.PasvReply

namespace CosFtp

/-! ### Comparing strings -/

/-- `memcmp` over the shorter length. -/
def memcmp : Bytes → Bytes → ℤ
  | [], _ => 0
  | _ :: _, [] => 0
  | a :: as, b :: bs => if a = b then memcmp as bs else (a.toNat : ℤ) - b.toNat

/-- `str_strcmp`; the lengths are unsigned and their difference an `int`. -/
def strStrcmp (a b : Bytes) : ℤ :=
  let retval := memcmp a b
  if retval ≠ 0 ∨ a.length = b.length then retval
  else wrapSigned 32 ((a.length : ℤ) - b.length)

/-- `sort_compare_common` -/
def sortCompareCommon (reverse : Bool) (node1 node2 : DirLine) : ℤ :=
  if reverse then strStrcmp node2.key node1.key else strStrcmp node1.key node2.key

/-- A string that `vsf_sysutil_malloc` gives memory for. -/
def Allocated (s : Bytes) : Prop := s.length < 2 ^ 31

@[simp] theorem memcmp_nil : ∀ a : Bytes, memcmp a [] = 0
  | [] => rfl
  | _ :: _ => rfl

theorem wrapSigned_small {v : ℤ} (hlo : -2 ^ 31 ≤ v) (hhi : v < 2 ^ 31) : wrapSigned 32 v = v := by
  rw [wrapSigned]
  omega

/-- The lengths decide when the bytes do not. -/
theorem strStrcmp_eq {a b : Bytes} (ha : Allocated a) (hb : Allocated b) :
    strStrcmp a b = if memcmp a b ≠ 0 then memcmp a b else (a.length : ℤ) - b.length := by
  unfold Allocated at ha hb
  by_cases hne : memcmp a b ≠ 0
  · rw [strStrcmp, if_pos (.inl hne), if_pos hne]
  · have hzero : memcmp a b = 0 := not_not.mp hne
    rw [if_neg hne, strStrcmp]
    by_cases hlen : a.length = b.length
    · rw [if_pos (.inr hlen), hzero, hlen, sub_self]
    · rw [if_neg (by simp [hzero, hlen]), wrapSigned_small (by omega) (by omega)]

theorem strStrcmp_cons_self {x : UInt8} {as bs : Bytes} (ha : Allocated (x :: as)) (hb : Allocated (x :: bs)) :
    strStrcmp (x :: as) (x :: bs) = strStrcmp as bs := by
  have ha' : Allocated as := by
    rw [Allocated, List.length_cons] at ha
    rw [Allocated]
    omega
  have hb' : Allocated bs := by
    rw [Allocated, List.length_cons] at hb
    rw [Allocated]
    omega
  have hmem : memcmp (x :: as) (x :: bs) = memcmp as bs := by rw [memcmp, if_pos rfl]
  rw [strStrcmp_eq ha hb, strStrcmp_eq ha' hb', hmem, List.length_cons, List.length_cons]
  congr 1
  omega

theorem strStrcmp_cons_ne {x y : UInt8} (h : x ≠ y) (as bs : Bytes) :
    strStrcmp (x :: as) (y :: bs) = (x.toNat : ℤ) - y.toNat := by
  have hne : x.toNat ≠ y.toNat := fun he => h (UInt8.toNat_inj.mp he)
  have hmem : memcmp (x :: as) (y :: bs) = (x.toNat : ℤ) - y.toNat := by rw [memcmp, if_neg h]
  rw [strStrcmp, if_pos, hmem]
  left
  rw [hmem]
  omega

/-- `str_strcmp` is the order of byte strings. -/
theorem strStrcmp_le_iff : ∀ {a b : Bytes}, Allocated a → Allocated b → (strStrcmp a b ≤ 0 ↔ a ≤ b)
  | [], b, ha, hb => by
    have hle : strStrcmp [] b ≤ 0 := by
      rw [strStrcmp_eq ha hb, memcmp, if_neg (by simp), List.length_nil]
      omega
    simp [hle]
  | x :: as, [], ha, hb => by
    have hlt : 0 < strStrcmp (x :: as) [] := by
      rw [strStrcmp_eq ha hb, memcmp_nil, if_neg (by simp), List.length_nil, List.length_cons]
      omega
    have hno : ¬ strStrcmp (x :: as) [] ≤ 0 := by omega
    simp [hno]
  | x :: as, y :: bs, ha, hb => by
    rw [List.cons_le_cons_iff]
    by_cases h : x = y
    · subst h
      have ha' : Allocated as := Nat.lt_of_succ_lt ha
      have hb' : Allocated bs := Nat.lt_of_succ_lt hb
      rw [strStrcmp_cons_self ha hb, strStrcmp_le_iff ha' hb']
      simp [UInt8.lt_irrefl]
    · have hne : x.toNat ≠ y.toNat := fun he => h (UInt8.toNat_inj.mp he)
      rw [strStrcmp_cons_ne h, UInt8.lt_iff_toNat_lt]
      constructor
      · intro hle
        left
        omega
      · intro hor
        have hlt : x.toNat < y.toNat := hor.resolve_right fun he => h he.1
        omega

/-- Turned round, it has the other sign. -/
theorem strStrcmp_neg : ∀ {a b : Bytes}, Allocated a → Allocated b → strStrcmp a b = - strStrcmp b a
  | [], b, ha, hb => by
    rw [strStrcmp_eq ha hb, strStrcmp_eq hb ha]
    simp [memcmp]
  | x :: as, [], ha, hb => by
    rw [strStrcmp_eq ha hb, strStrcmp_eq hb ha]
    simp [memcmp]
  | x :: as, y :: bs, ha, hb => by
    by_cases h : x = y
    · subst h
      rw [strStrcmp_cons_self ha hb, strStrcmp_cons_self hb ha]
      exact strStrcmp_neg (Nat.lt_of_succ_lt ha) (Nat.lt_of_succ_lt hb)
    · rw [strStrcmp_cons_ne h, strStrcmp_cons_ne (Ne.symm h), Int.neg_sub]

/-! ### Sorting -/

section

variable {α : Type}

/-- The comparison orders the elements of a list, of which some may be alike. -/
structure TotalPreorderOn (cmp : α → α → ℤ) (l : List α) : Prop where
  swap : ∀ a ∈ l, ∀ b ∈ l, cmp a b < 0 ↔ 0 < cmp b a
  trans : ∀ a ∈ l, ∀ b ∈ l, ∀ c ∈ l, cmp a b ≤ 0 → cmp b c ≤ 0 → cmp a c ≤ 0

theorem TotalPreorderOn.total {cmp : α → α → ℤ} {l : List α} (h : TotalPreorderOn cmp l) {a b : α}
    (ha : a ∈ l) (hb : b ∈ l) : cmp a b ≤ 0 ∨ cmp b a ≤ 0 := by
  have hswap := h.swap b hb a ha
  omega

/-- What `qsort` does with a comparison that orders its elements. -/
def Qsorts (qsort : (α → α → ℤ) → List α → List α) : Prop :=
  ∀ cmp l, TotalPreorderOn cmp l → (qsort cmp l).Perm l ∧ (qsort cmp l).Pairwise fun a b => cmp a b ≤ 0

/-- A merge sort does that. -/
theorem qsorts_mergeSort : Qsorts fun (cmp : α → α → ℤ) l => l.mergeSort fun a b => cmp a b ≤ 0 := by
  intro cmp l horder
  refine ⟨List.mergeSort_perm _ _, ?_⟩
  have hsub : ∀ l' : List {a // a ∈ l}, (l'.mergeSort fun a b => cmp a.1 b.1 ≤ 0).Pairwise
      fun a b => cmp a.1 b.1 ≤ 0 := by
    intro l'
    have hsorted : (l'.mergeSort fun a b => cmp a.1 b.1 ≤ 0).Pairwise
        fun a b => decide (cmp a.1 b.1 ≤ 0) = true := by
      refine List.pairwise_mergeSort ?_ ?_ l'
      · intro a b c hab hbc
        exact decide_eq_true (horder.trans a.1 a.2 b.1 b.2 c.1 c.2 (of_decide_eq_true hab) (of_decide_eq_true hbc))
      · intro a b
        simpa using horder.total a.2 b.2
    exact hsorted.imp fun h => of_decide_eq_true h
  have hmap : l.mergeSort (fun a b => cmp a b ≤ 0) =
      (l.attach.mergeSort fun a b => cmp a.1 b.1 ≤ 0).map Subtype.val := by
    conv_lhs => rw [← List.attach_map_subtype_val l]
    exact (List.map_mergeSort (f := Subtype.val) (fun _ _ _ _ => rfl)).symm
  show (l.mergeSort fun a b => decide (cmp a b ≤ 0)).Pairwise fun a b => cmp a b ≤ 0
  rw [hmap, List.pairwise_map]
  exact hsub l.attach

end

/-- The comparators order the lines. -/
theorem sortCompareCommon_preorder (reverse : Bool) {l : List DirLine} (h : ∀ d ∈ l, Allocated d.key) :
    TotalPreorderOn (sortCompareCommon reverse) l := by
  have hle : ∀ {a b : Bytes}, Allocated a → Allocated b → (strStrcmp a b ≤ 0 ↔ a ≤ b) := strStrcmp_le_iff
  constructor
  · intro a ha b hb
    have hneg := strStrcmp_neg (h a ha) (h b hb)
    unfold sortCompareCommon
    split <;> omega
  · intro a ha b hb c hc hab hbc
    unfold sortCompareCommon at hab hbc ⊢
    split at hab
    · rw [hle (h b hb) (h a ha)] at hab
      rw [if_pos ‹_›, hle (h c hc) (h b hb)] at hbc
      rw [if_pos ‹_›, hle (h c hc) (h a ha)]
      exact List.le_trans hbc hab
    · rw [hle (h a ha) (h b hb)] at hab
      rw [if_neg ‹_›, hle (h b hb) (h c hc)] at hbc
      rw [if_neg ‹_›, hle (h a ha) (h c hc)]
      exact List.le_trans hab hbc

/-! ### The digits of a time -/

/-- A first digit counts for as many tens as digits follow it. -/
theorem digitsVal_cons (d : UInt8) (ds : Bytes) :
    digitsVal (d :: ds) = (d.toNat - 48) * 10 ^ ds.length + digitsVal ds := by
  have hfold : ∀ (ds : Bytes) (v : ℕ), ds.foldl (fun v d => v * 10 + (d.toNat - 48)) v =
      v * 10 ^ ds.length + digitsVal ds := by
    intro ds
    induction ds with
    | nil => intro v; simp [digitsVal]
    | cons d ds ih =>
      intro v
      have hfirst : digitsVal (d :: ds) = (d.toNat - 48) * 10 ^ ds.length + digitsVal ds := by
        rw [digitsVal, List.foldl_cons, ih]
        simp
      rw [List.foldl_cons, ih, hfirst, List.length_cons, pow_succ]
      ring
  have hall := hfold ds (0 * 10 + (d.toNat - 48))
  rw [digitsVal, List.foldl_cons, hall]
  simp

theorem isdigit_iff (b : UInt8) : isdigit b = true ↔ 48 ≤ b.toNat ∧ b.toNat ≤ 57 := by
  simp only [isdigit, Bool.and_eq_true, decide_eq_true_eq, UInt8.le_iff_toNat_le]
  rfl

theorem digitsVal_lt : ∀ {ds : Bytes}, (∀ b ∈ ds, isdigit b = true) → digitsVal ds < 10 ^ ds.length
  | [], _ => by decide
  | d :: ds, h => by
    have hd := (isdigit_iff d).mp (h d List.mem_cons_self)
    have ih := digitsVal_lt fun b hb => h b (List.mem_cons_of_mem d hb)
    rw [digitsVal_cons, List.length_cons, pow_succ]
    have hmul : (d.toNat - 48) * 10 ^ ds.length ≤ 9 * 10 ^ ds.length := Nat.mul_le_mul_right _ (by omega)
    omega

/-- Digits of one length are ordered as their values are. -/
theorem digits_le_iff : ∀ {u v : Bytes}, u.length = v.length → (∀ b ∈ u, isdigit b = true) →
    (∀ b ∈ v, isdigit b = true) → (u ≤ v ↔ digitsVal u ≤ digitsVal v)
  | [], [], _, _, _ => by simp
  | d :: u, e :: v, hlen, hu, hv => by
    have hd := (isdigit_iff d).mp (hu d List.mem_cons_self)
    have he := (isdigit_iff e).mp (hv e List.mem_cons_self)
    have hu' : ∀ b ∈ u, isdigit b = true := fun b hb => hu b (List.mem_cons_of_mem d hb)
    have hv' : ∀ b ∈ v, isdigit b = true := fun b hb => hv b (List.mem_cons_of_mem e hb)
    have hlen' : u.length = v.length := Nat.succ.inj hlen
    have hul := digitsVal_lt hu'
    have hvl := digitsVal_lt hv'
    rw [List.cons_le_cons_iff, digits_le_iff hlen' hu' hv', digitsVal_cons, digitsVal_cons, hlen',
      UInt8.lt_iff_toNat_lt]
    rw [hlen'] at hul
    rcases Nat.lt_trichotomy d.toNat e.toNat with hlt | heq | hgt
    · have hstep : (d.toNat - 48) * 10 ^ v.length + 10 ^ v.length ≤ (e.toNat - 48) * 10 ^ v.length := by
        rw [← Nat.succ_mul]
        exact Nat.mul_le_mul_right _ (by omega)
      constructor
      · intro _
        omega
      · exact fun _ => .inl hlt
    · have hsame : d = e := UInt8.toNat_inj.mp heq
      simp [hsame]
    · have hstep : (e.toNat - 48) * 10 ^ v.length + 10 ^ v.length ≤ (d.toNat - 48) * 10 ^ v.length := by
        rw [← Nat.succ_mul]
        exact Nat.mul_le_mul_right _ (by omega)
      have hne : d ≠ e := fun h => absurd (congrArg UInt8.toNat h) (by omega)
      constructor
      · intro hor
        rcases hor with hlt | hsame
        · omega
        · exact absurd hsame.1 hne
      · intro hle
        omega

theorem digitsVal_zeros (k : ℕ) (ds : Bytes) : digitsVal (List.replicate k chZero ++ ds) = digitsVal ds := by
  induction k with
  | zero => rfl
  | succ k ih =>
    have hzero : chZero.toNat - 48 = 0 := rfl
    rw [List.replicate_succ, List.cons_append, digitsVal_cons, ih, hzero, Nat.zero_mul, Nat.zero_add]

/-- A number of at most thirty digits. -/
theorem length_ulongText_le {n k : ℕ} (hk : 0 < k) (h : n < 10 ^ k) : (ulongText n).length ≤ k := by
  have hlen : (ulongText n).length = (Nat.toDigits 10 n).length := by
    rw [ulongText, text, List.length_map, ← Nat.toList_repr]
    rfl
  rw [hlen]
  exact (Nat.length_toDigits_le_iff (by omega) hk).mpr h

/-- The key of a time has thirty digits, and they are those of the time. -/
theorem timeKey_digits {k : ℤ} (hk : 0 ≤ k) (hk' : k < 2 ^ 31) :
    (timeKey k).length = 30 ∧ (∀ b ∈ timeKey k, isdigit b = true) ∧ (digitsVal (timeKey k) : ℤ) = k := by
  have hlen : (ulongText k.natAbs).length ≤ 30 := length_ulongText_le (by omega) (by omega)
  rw [timeKey, if_neg (by omega)]
  refine ⟨?_, ?_, ?_⟩
  · rw [List.length_append, List.length_replicate]
    omega
  · intro b hb
    rcases List.mem_append.mp hb with hzero | hdigit
    · rw [List.eq_of_mem_replicate hzero]
      rfl
    · exact isdigit_of_mem_ulongText hdigit
  · rw [digitsVal_zeros, digitsVal_ulongText]
    omega

/-- The keys of two times are ordered as the times are. -/
theorem timeKey_le_iff {m n : ℤ} (hm : 0 ≤ m) (hm' : m < 2 ^ 31) (hn : 0 ≤ n) (hn' : n < 2 ^ 31) :
    timeKey m ≤ timeKey n ↔ m ≤ n := by
  obtain ⟨hmlen, hmdigits, hmval⟩ := timeKey_digits hm hm'
  obtain ⟨hnlen, hndigits, hnval⟩ := timeKey_digits hn hn'
  rw [digits_le_iff (hmlen.trans hnlen.symm) hmdigits hndigits]
  omega

/-! ### The lines -/

/-- The order that the options ask for. -/
def ListedBefore (r : ListRequest) (a b : FileInfo) : Prop :=
  if r.has 't' then
    if r.has 'r' then a.mtime ≤ b.mtime else b.mtime ≤ a.mtime
  else if r.has 'r' then b.fileName ≤ a.fileName else a.fileName ≤ b.fileName

/-- A file as COS tells of it. -/
structure ListedFile (e : FileInfo) : Prop where
  named : e.fileName ≠ []
  allocated : Allocated e.fileName
  nonneg : 0 ≤ e.mtime
  small : e.mtime < 2 ^ 31

/-- The lines are those of the files, one for each, in the order asked for. -/
def ListedInOrder (cos : ListCos) (r : ListRequest) (isVerbose : Bool) (entries : List FileInfo)
    (lines : List DirLine) : Prop :=
  ∃ es : List FileInfo, es.Perm entries ∧ lines = es.map (folderLine cos r isVerbose) ∧
    es.Pairwise (ListedBefore r)

section

variable {cos : ListCos} {r : ListRequest} {isVerbose : Bool} {e e' : FileInfo} {entries : List FileInfo}
  {lines : List DirLine}

theorem timeKey_ne_nil (mtime : ℤ) : timeKey mtime ≠ [] := by
  rw [timeKey]
  split
  · exact List.cons_ne_nil _ _
  · exact List.append_ne_nil_of_right_ne_nil _ (ulongText_ne_nil _)

/-- No line of a folder falls back to its text. -/
theorem folderLine_key (cos : ListCos) (r : ListRequest) (isVerbose : Bool) (h : ListedFile e) :
    (folderLine cos r isVerbose e).key = if r.has 't' then timeKey e.mtime else e.fileName := by
  have hne : (if r.has 't' then timeKey e.mtime else e.fileName) ≠ [] := by
    split
    · exact timeKey_ne_nil _
    · exact h.named
  exact if_neg hne

theorem folderLine_allocated (cos : ListCos) (r : ListRequest) (isVerbose : Bool) (h : ListedFile e) :
    Allocated (folderLine cos r isVerbose e).key := by
  rw [folderLine_key cos r isVerbose h]
  split
  · have hlen := (timeKey_digits h.nonneg h.small).1
    rw [Allocated, hlen]
    omega
  · exact h.allocated

/-- The comparator that is chosen compares as the options ask. -/
theorem sortCompareCommon_folderLine (h : ListedFile e) (h' : ListedFile e') :
    sortCompareCommon r.reverse (folderLine cos r isVerbose e) (folderLine cos r isVerbose e') ≤ 0 ↔
      ListedBefore r e e' := by
  have hkey := folderLine_key cos r isVerbose h
  have hkey' := folderLine_key cos r isVerbose h'
  have halloc := folderLine_allocated cos r isVerbose h
  have halloc' := folderLine_allocated cos r isVerbose h'
  have hcmp := strStrcmp_le_iff halloc halloc'
  have hcmp' := strStrcmp_le_iff halloc' halloc
  have htime := timeKey_le_iff h.nonneg h.small h'.nonneg h'.small
  have htime' := timeKey_le_iff h'.nonneg h'.small h.nonneg h.small
  unfold sortCompareCommon ListedBefore ListRequest.reverse
  rw [hkey, hkey'] at hcmp hcmp' ⊢
  by_cases ht : r.has 't' = true
  · simp only [ht, if_true] at hcmp hcmp' ⊢
    by_cases hr : r.has 'r' = true
    · simp [hr, hcmp, htime]
    · simp [hr, hcmp', htime']
  · simp only [ht, Bool.false_eq_true, if_false] at hcmp hcmp' ⊢
    by_cases hr : r.has 'r' = true
    · simp [hr, hcmp']
    · simp [hr, hcmp]

/-- Lines in the order of the comparator are files in the order asked for. -/
theorem listedInOrder_of_sorted (hentries : ∀ e ∈ entries, ListedFile e)
    (hperm : lines.Perm (entries.map (folderLine cos r isVerbose)))
    (hsorted : lines.Pairwise fun a b => sortCompareCommon r.reverse a b ≤ 0) :
    ListedInOrder cos r isVerbose entries lines := by
  have hcomp := congrFun (congrFun (List.eq_map_comp_perm (folderLine cos r isVerbose)) lines) entries
  obtain ⟨es, hlines, hes⟩ := hcomp.mpr hperm
  refine ⟨es, hes, hlines, ?_⟩
  rw [hlines, List.pairwise_map] at hsorted
  refine hsorted.imp_of_mem fun ha hb hle => ?_
  exact (sortCompareCommon_folderLine (hentries _ (hes.mem_iff.mp ha)) (hentries _ (hes.mem_iff.mp hb))).mp hle

theorem allocated_lines (hentries : ∀ e ∈ entries, ListedFile e) :
    ∀ d ∈ entries.map (folderLine cos r isVerbose), Allocated d.key := by
  intro d hd
  obtain ⟨e, he, rfl⟩ := List.mem_map.mp hd
  exact folderLine_allocated cos r isVerbose (hentries e he)

/-- `strStrcmpLe` is the order of byte strings as well. -/
theorem strStrcmpLe_iff : ∀ {a b : Bytes}, strStrcmpLe a b = true ↔ a ≤ b
  | [], b => by simp [strStrcmpLe]
  | a :: as, [] => by simp [strStrcmpLe]
  | a :: as, b :: bs => by
    rw [List.cons_le_cons_iff, strStrcmpLe, ← strStrcmpLe_iff (a := as) (b := bs)]
    simp

/-- The sort of the model is one that `qsort` may be. -/
theorem strListSort_sorted (hlines : ∀ d ∈ lines, Allocated d.key) (reverse : Bool) :
    (strListSort lines reverse).Pairwise fun a b => sortCompareCommon reverse a b ≤ 0 := by
  have hsorted : (strListSort lines reverse).Pairwise fun a b =>
      (if reverse then strStrcmpLe b.key a.key else strStrcmpLe a.key b.key) = true := by
    refine List.pairwise_mergeSort ?_ ?_ lines
    · intro a b c
      cases reverse with
      | false =>
        simp only [Bool.false_eq_true, if_false, strStrcmpLe_iff]
        exact List.le_trans
      | true =>
        simp only [if_true, strStrcmpLe_iff]
        exact fun hba hcb => List.le_trans hcb hba
    · intro a b
      cases reverse with
      | false => simpa [strStrcmpLe_iff] using List.le_total a.key b.key
      | true => simpa [strStrcmpLe_iff] using List.le_total b.key a.key
  refine hsorted.imp_of_mem fun {a b} ha hb hle => ?_
  have ha' := hlines a ((List.mergeSort_perm _ _).mem_iff.mp ha)
  have hb' := hlines b ((List.mergeSort_perm _ _).mem_iff.mp hb)
  unfold sortCompareCommon
  cases reverse with
  | false =>
    simp only [Bool.false_eq_true, if_false, strStrcmpLe_iff] at hle ⊢
    exact (strStrcmp_le_iff ha' hb').mpr hle
  | true =>
    simp only [if_true, strStrcmpLe_iff] at hle ⊢
    exact (strStrcmp_le_iff hb' ha').mpr hle

/-- So what the model lists of a folder is in order. -/
theorem vsfLsPopulateDirList_inOrder {T : Tunables} {fuel : ℕ} {cwd : Bytes} {listing : Listing} {e : ListEnd}
    (hentries : ∀ e ∈ entries, ListedFile e)
    (hlist : cosGetList r.passes T.listMaxCount (cos.pages T cwd r) fuel = some (entries, e))
    (h : vsfLsPopulateDirList T cos fuel cwd r isVerbose = some listing) :
    listing.lines.length ≤ 1 ∧ r.filter ≠ [] ∨ ListedInOrder cos r isVerbose entries listing.lines := by
  have hfolder : ∀ {listing}, listFolder T cos fuel cwd r isVerbose = some listing →
      ListedInOrder cos r isVerbose entries listing.lines := by
    intro listing hfolder
    rw [listFolder, hlist] at hfolder
    rw [← Option.some.inj hfolder]
    exact listedInOrder_of_sorted hentries (List.mergeSort_perm _ _) (strListSort_sorted (allocated_lines hentries) _)
  unfold vsfLsPopulateDirList at h
  by_cases hfilter : r.filter = []
  · rw [if_pos hfilter] at h
    exact .inr (hfolder h)
  · rw [if_neg hfilter] at h
    obtain ⟨stat, -, hrest⟩ := Option.bind_eq_some_iff.mp h
    cases stat with
    | some info =>
      left
      rw [← Option.some.inj hrest]
      exact ⟨Nat.le_refl 1, hfilter⟩
    | none =>
      by_cases hnormal : strAllNormalChar r.filter = true
      · left
        simp only [hnormal, if_true] at hrest
        rw [← Option.some.inj hrest]
        exact ⟨Nat.zero_le 1, hfilter⟩
      · right
        simp only [hnormal] at hrest
        exact hfolder hrest

end

/-- **A listing is in order**, by name or by time. -/
theorem listing_in_order (qsort : (DirLine → DirLine → ℤ) → List DirLine → List DirLine)
    (hqsort : Qsorts qsort) (cos : ListCos) (r : ListRequest) (isVerbose : Bool) (entries : List FileInfo)
    (hentries : ∀ e ∈ entries, ListedFile e) :
    (∀ reverse (l : List DirLine), (∀ d ∈ l, Allocated d.key) → TotalPreorderOn (sortCompareCommon reverse) l) ∧
    ListedInOrder cos r isVerbose entries
      (qsort (sortCompareCommon r.reverse) (entries.map (folderLine cos r isVerbose))) ∧
    ∀ T fuel cwd listing e, cosGetList r.passes T.listMaxCount (cos.pages T cwd r) fuel = some (entries, e) →
      vsfLsPopulateDirList T cos fuel cwd r isVerbose = some listing →
      listing.lines.length ≤ 1 ∧ r.filter ≠ [] ∨ ListedInOrder cos r isVerbose entries listing.lines := by
  refine ⟨fun reverse l hl => sortCompareCommon_preorder reverse hl, ?_, ?_⟩
  · obtain ⟨hperm, hsorted⟩ :=
      hqsort _ _ (sortCompareCommon_preorder r.reverse (allocated_lines hentries))
    exact listedInOrder_of_sorted hentries hperm hsorted
  · intro T fuel cwd listing e hlist h
    exact vsfLsPopulateDirList_inOrder hentries hlist h

def noCos : ListCos := { fileStat := fun _ => none, folderList := fun _ _ _ => none, timeGetDate := fun _ => [] }

/-- Two files by time, the newer one first. -/
theorem listing_in_order_two :
    ListedInOrder noCos ⟨[], text "t", []⟩ false [⟨true, text "a", 0, 0, 9⟩, ⟨true, text "b", 0, 0, 10⟩]
      ([⟨true, text "a", 0, 0, 9⟩, ⟨true, text "b", 0, 0, 10⟩].map (folderLine noCos ⟨[], text "t", []⟩ false)
        |>.mergeSort fun a b => sortCompareCommon true a b ≤ 0) :=
  (listing_in_order (fun cmp l => l.mergeSort fun a b => cmp a b ≤ 0) qsorts_mergeSort noCos
    ⟨[], text "t", []⟩ false _ (by
      intro e he
      rcases List.mem_cons.mp he with rfl | he
      · exact ⟨by decide, by unfold Allocated; decide, by decide, by decide⟩
      · obtain rfl := List.mem_singleton.mp he
        exact ⟨by decide, by unfold Allocated; decide, by decide, by decide⟩)).2.1

end CosFtp
