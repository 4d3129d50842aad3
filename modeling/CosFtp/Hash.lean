/-
# The hash tables of hash.c

A table is its chains, one a bucket, each from front to back. A new node goes to the
front of its chain, a search takes the first node with the key, and a value is
changed through the pointer a search has given.

As long as no key is there twice and each stands in its own bucket (`Hash.WF`), a
table is what its nodes are taken together (`Hash.entries`): `Hash.Holds` relates a
table to a list of entries in any order, and each operation is one on that list.

Key definitions: `Hash`, `Hash.WF`, `Hash.Holds`.
Key theorems: `Hash.Holds.lookup`, `Hash.Holds.add`, `Hash.Holds.free`, `Hash.Holds.store`.
-/
import Mathlib.Data.List.Nodup
import Mathlib.Data.List.Perm.Basic
import CosFtp.Privops

namespace CosFtp

/-- A `struct hash`; `buckets` is the number of its chains. -/
structure Hash (K V : Type) where
  hashFunc : ℕ → K → ℕ
  nodes : List (List (K × V))

namespace Hash

variable {K V : Type} [DecidableEq K]

def buckets (h : Hash K V) : ℕ := h.nodes.length

/-- `hash_alloc`. -/
def hashAlloc (buckets : ℕ) (hashFunc : ℕ → K → ℕ) : Hash K V := ⟨hashFunc, List.replicate buckets []⟩

def hashGetBucket (h : Hash K V) (key : K) : Except Halt ℕ :=
  if h.buckets ≤ h.hashFunc h.buckets key then .error (.bug "bad bucket lookup")
  else .ok (h.hashFunc h.buckets key)

def hashGetNodeByKey (h : Hash K V) (key : K) : Except Halt (Option (K × V)) := do
  let bucket ← h.hashGetBucket key
  return (h.nodes.getD bucket []).find? (·.1 = key)

def hashLookupEntry (h : Hash K V) (key : K) : Except Halt (Option V) := do
  let node ← h.hashGetNodeByKey key
  return node.map Prod.snd

def hashAddEntry (h : Hash K V) (key : K) (value : V) : Except Halt (Hash K V) := do
  let found ← h.hashLookupEntry key
  if found.isSome then throw (.bug "duplicate hash key")
  else do
    let bucket ← h.hashGetBucket key
    return { h with nodes := h.nodes.modify bucket ((key, value) :: ·) }

def hashFreeEntry (h : Hash K V) (key : K) : Except Halt (Hash K V) := do
  let node ← h.hashGetNodeByKey key
  if node.isNone then throw (.bug "hash node not found")
  else do
    let bucket ← h.hashGetBucket key
    return { h with nodes := h.nodes.modify bucket (·.eraseP (·.1 = key)) }

/-- The value behind the pointer that `hash_lookup_entry` has given is changed. -/
def hashStore (h : Hash K V) (key : K) (value : V) : Except Halt (Hash K V) := do
  let bucket ← h.hashGetBucket key
  return { h with
    nodes := h.nodes.modify bucket (·.replaceF fun e => if e.1 = key then some (key, value) else none) }

/-! ### A table and its entries -/

/-- All nodes of a table. -/
def entries (h : Hash K V) : List (K × V) := h.nodes.flatten

/-- Every key has a bucket and stands in no other, and none is there twice. -/
structure WF (h : Hash K V) : Prop where
  bucket_lt : ∀ key, h.hashFunc h.buckets key < h.buckets
  placed : ∀ bucket chain, h.nodes[bucket]? = some chain → ∀ e ∈ chain, h.hashFunc h.buckets e.1 = bucket
  nodup : (h.entries.map Prod.fst).Nodup

/-- The table has the entries of `l`, in whatever order. -/
structure Holds (h : Hash K V) (l : List (K × V)) : Prop where
  wf : h.WF
  perm : h.entries.Perm l

omit [DecidableEq K] in
theorem hashAlloc_holds {buckets : ℕ} {hashFunc : ℕ → K → ℕ} (hlt : ∀ key, hashFunc buckets key < buckets) :
    (hashAlloc buckets hashFunc : Hash K V).Holds [] := by
  have hlen : (hashAlloc buckets hashFunc : Hash K V).buckets = buckets := List.length_replicate
  have hnil : (hashAlloc buckets hashFunc : Hash K V).entries = [] := by
    simp [entries, hashAlloc]
  refine ⟨⟨?_, ?_, ?_⟩, ?_⟩
  · intro key
    rw [hlen]
    exact hlt key
  · intro bucket chain hchain e he
    have hmem : chain ∈ List.replicate buckets ([] : List (K × V)) := List.mem_of_getElem? hchain
    rw [List.eq_of_mem_replicate hmem] at he
    exact absurd he List.not_mem_nil
  · rw [hnil]
    exact List.nodup_nil
  · rw [hnil]

omit [DecidableEq K] in
/-- The chain of a key, between those of the buckets below and above it. -/
theorem WF.split {h : Hash K V} (hw : h.WF) (key : K) :
    ∃ l chain r, h.nodes = l ++ chain :: r ∧ l.length = h.hashFunc h.buckets key ∧
      (∀ e ∈ l.flatten, e.1 ≠ key) ∧ ∀ e ∈ r.flatten, e.1 ≠ key := by
  have hlt : h.hashFunc h.buckets key < h.nodes.length := hw.bucket_lt key
  obtain ⟨l, chain, r, heq, hlen⟩ : ∃ l chain r, h.nodes = l ++ chain :: r ∧
      l.length = h.hashFunc h.buckets key := by
    refine ⟨h.nodes.take (h.hashFunc h.buckets key), h.nodes[h.hashFunc h.buckets key],
      h.nodes.drop (h.hashFunc h.buckets key + 1), ?_, List.length_take_of_le (Nat.le_of_lt hlt)⟩
    rw [List.getElem_cons_drop, List.take_append_drop]
  -- a node elsewhere with this key would be in a bucket that is not the key's
  have hbelow : ∀ e ∈ l.flatten, e.1 ≠ key := by
    rintro e he rfl
    obtain ⟨c, hc, hec⟩ := List.mem_flatten.mp he
    obtain ⟨i, hi, rfl⟩ := List.getElem_of_mem hc
    have hat : h.nodes[i]? = some l[i] := by
      rw [heq, List.getElem?_append_left hi, List.getElem?_eq_getElem hi]
    have := hw.placed i _ hat e hec
    omega
  have habove : ∀ e ∈ r.flatten, e.1 ≠ key := by
    rintro e he rfl
    obtain ⟨c, hc, hec⟩ := List.mem_flatten.mp he
    obtain ⟨i, hi, rfl⟩ := List.getElem_of_mem hc
    have hat : h.nodes[l.length + (i + 1)]? = some r[i] := by
      rw [heq, List.getElem?_append_right (by omega)]
      simp [hi]
    have := hw.placed _ _ hat e hec
    omega
  exact ⟨l, chain, r, heq, hlen, hbelow, habove⟩

theorem modify_at {α : Type} (f : α → α) (l : List α) (a : α) (r : List α) :
    (l ++ a :: r).modify l.length f = l ++ f a :: r := by
  induction l with
  | nil => simp
  | cons b l ih => simp [ih]

omit [DecidableEq K] in
/-- A chain is put in the place of another with keys of the same bucket. -/
theorem WF.change {h : Hash K V} (hw : h.WF) {f : List (K × V) → List (K × V)} {l r : List (List (K × V))}
    {chain : List (K × V)} (heq : h.nodes = l ++ chain :: r)
    (hkeys : ∀ e ∈ f chain, h.hashFunc h.buckets e.1 = l.length)
    (hnodup : ((l ++ f chain :: r).flatten.map Prod.fst).Nodup) :
    WF { h with nodes := h.nodes.modify l.length f } ∧
      entries { h with nodes := h.nodes.modify l.length f } = (l ++ f chain :: r).flatten := by
  have hmod : h.nodes.modify l.length f = l ++ f chain :: r := by
    rw [heq]
    exact modify_at f l chain r
  have hlen : (h.nodes.modify l.length f).length = h.nodes.length := List.length_modify ..
  refine ⟨⟨?_, ?_, ?_⟩, congrArg List.flatten hmod⟩
  · intro key
    show h.hashFunc (h.nodes.modify l.length f).length key < (h.nodes.modify l.length f).length
    rw [hlen]
    exact hw.bucket_lt key
  · intro bucket c hc e he
    show h.hashFunc (h.nodes.modify l.length f).length e.1 = bucket
    rw [hlen]
    change (h.nodes.modify l.length f)[bucket]? = some c at hc
    by_cases hb : bucket = l.length
    · rw [hmod, hb] at hc
      have hcf : f chain = c := by simpa using hc
      rw [hb]
      exact hkeys e (hcf ▸ he)
    · rw [List.getElem?_modify_ne _ _ (Ne.symm hb)] at hc
      exact hw.placed bucket c hc e he
  · show ((h.nodes.modify l.length f).flatten.map Prod.fst).Nodup
    rw [hmod]
    exact hnodup

/-! ### The operations -/

omit [DecidableEq K] in
theorem WF.getBucket {h : Hash K V} (hw : h.WF) (key : K) :
    h.hashGetBucket key = .ok (h.hashFunc h.buckets key) := if_neg (Nat.not_le.mpr (hw.bucket_lt key))

/-- In a list with distinct keys a key has one entry. -/
theorem find_key {l : List (K × V)} (hl : (l.map Prod.fst).Nodup) {key : K} {value : V} :
    l.find? (·.1 = key) = some (key, value) ↔ (key, value) ∈ l := by
  constructor
  · exact List.mem_of_find?_eq_some
  · intro hmem
    obtain ⟨u, v, rfl⟩ := List.append_of_mem hmem
    rw [List.map_append, List.map_cons, List.nodup_append] at hl
    obtain ⟨-, -, hdisj⟩ := hl
    have hnone : u.find? (·.1 = key) = none := by
      rw [List.find?_eq_none]
      intro e he heq
      exact hdisj e.1 (List.mem_map_of_mem he) key List.mem_cons_self (by simpa using heq)
    rw [List.find?_append, hnone]
    simp

/-- A search of its chain finds what a search of the whole table would. -/
theorem WF.getNode {h : Hash K V} (hw : h.WF) (key : K) :
    h.hashGetNodeByKey key = .ok (h.entries.find? (·.1 = key)) := by
  obtain ⟨l, chain, r, heq, hlen, hbelow, habove⟩ := hw.split key
  have hl : l.flatten.find? (·.1 = key) = none := List.find?_eq_none.mpr (by simpa using hbelow)
  have hr : r.flatten.find? (·.1 = key) = none := List.find?_eq_none.mpr (by simpa using habove)
  have hchain : h.nodes.getD (h.hashFunc h.buckets key) [] = chain := by
    rw [← hlen, heq]
    simp
  have hall : h.entries.find? (·.1 = key) = chain.find? (·.1 = key) := by
    rw [entries, heq, List.flatten_append, List.flatten_cons, List.find?_append, List.find?_append, hl, hr]
    simp
  rw [hashGetNodeByKey, hw.getBucket, hall, ← hchain]
  rfl

variable {h : Hash K V} {l : List (K × V)} {key : K} {value : V}

/-- The entry of a key. -/
theorem Holds.find (hh : h.Holds l) :
    h.entries.find? (·.1 = key) = some (key, value) ↔ (key, value) ∈ l :=
  (find_key hh.wf.nodup).trans hh.perm.mem_iff

theorem Holds.lookup (hh : h.Holds l) (hmem : (key, value) ∈ l) :
    h.hashLookupEntry key = .ok (some value) := by
  rw [hashLookupEntry, hh.wf.getNode, hh.find.mpr hmem]
  rfl

theorem Holds.find_none (hh : h.Holds l) (hkey : key ∉ l.map Prod.fst) :
    h.entries.find? (·.1 = key) = none := by
  rw [List.find?_eq_none]
  intro e he heq
  apply hkey
  have heq' : e.1 = key := by simpa using heq
  exact heq' ▸ List.mem_map_of_mem (hh.perm.mem_iff.mp he)

theorem Holds.lookup_none (hh : h.Holds l) (hkey : key ∉ l.map Prod.fst) :
    h.hashLookupEntry key = .ok none := by
  rw [hashLookupEntry, hh.wf.getNode, hh.find_none hkey]
  rfl

omit [DecidableEq K] in
theorem Holds.nodup (hh : h.Holds l) : (l.map Prod.fst).Nodup :=
  (hh.perm.map Prod.fst).nodup_iff.mp hh.wf.nodup

omit [DecidableEq K] in
theorem Holds.not_mem (hh : h.Holds ((key, value) :: l)) : key ∉ l.map Prod.fst :=
  (List.nodup_cons.mp hh.nodup).1

omit [DecidableEq K] in
theorem Holds.of_perm {l' : List (K × V)} (hh : h.Holds l) (hp : l.Perm l') : h.Holds l' :=
  ⟨hh.wf, hh.perm.trans hp⟩

/-- **`hash_add_entry` adds a new key**, and its check for one that is there does not fail. -/
theorem Holds.add (hh : h.Holds l) (hkey : key ∉ l.map Prod.fst) (value : V) :
    ∃ h', h.hashAddEntry key value = .ok h' ∧ h'.Holds ((key, value) :: l) := by
  obtain ⟨u, chain, v, heq, hlen, -, -⟩ := hh.wf.split key
  have hperm : (u ++ ((key, value) :: chain) :: v).flatten.Perm ((key, value) :: h.entries) := by
    rw [entries, heq]
    simp only [List.flatten_append, List.flatten_cons]
    exact List.perm_middle
  have hall : (u ++ ((key, value) :: chain) :: v).flatten.Perm ((key, value) :: l) :=
    hperm.trans (hh.perm.cons _)
  have hnodup : ((u ++ ((key, value) :: chain) :: v).flatten.map Prod.fst).Nodup :=
    (hall.map Prod.fst).nodup_iff.mpr (List.nodup_cons.mpr ⟨hkey, hh.nodup⟩)
  have hkeys : ∀ e ∈ (key, value) :: chain, h.hashFunc h.buckets e.1 = u.length := by
    intro e he
    rcases List.mem_cons.mp he with rfl | he
    · exact hlen.symm
    · apply hh.wf.placed u.length chain _ e he
      rw [heq]
      simp
  obtain ⟨hwf, hent⟩ := hh.wf.change (f := ((key, value) :: ·)) heq hkeys hnodup
  refine ⟨_, ?_, hwf, hent ▸ hall⟩
  rw [hashAddEntry, hh.lookup_none hkey]
  show (do let bucket ← h.hashGetBucket key; pure _) = _
  rw [hh.wf.getBucket, hlen]
  rfl

omit [DecidableEq K] in
/-- The first node with a key that is there, and the others. -/
theorem Holds.chain (hh : h.Holds ((key, value) :: l)) :
    ∃ u c1 c2 v, h.nodes = u ++ (c1 ++ (key, value) :: c2) :: v ∧ u.length = h.hashFunc h.buckets key ∧
      (∀ e ∈ c1, e.1 ≠ key) ∧ (u.flatten ++ (c1 ++ c2) ++ v.flatten).Perm l := by
  obtain ⟨u, chain, v, heq, hlen, hbelow, habove⟩ := hh.wf.split key
  have hmem : (key, value) ∈ chain := by
    have hall : (key, value) ∈ (u ++ chain :: v).flatten := by
      rw [← heq]
      exact hh.perm.mem_iff.mpr List.mem_cons_self
    simp only [List.flatten_append, List.flatten_cons, List.mem_append] at hall
    rcases hall with hu | hc | hv
    · exact absurd rfl (hbelow _ hu)
    · exact hc
    · exact absurd rfl (habove _ hv)
  obtain ⟨c1, c2, rfl⟩ := List.append_of_mem hmem
  have hent : h.entries.Perm ((key, value) :: (u.flatten ++ (c1 ++ c2) ++ v.flatten)) := by
    rw [entries, heq]
    simp only [List.flatten_append, List.flatten_cons, List.append_assoc, List.cons_append]
    rw [← List.append_assoc, ← List.append_assoc u.flatten c1 (c2 ++ v.flatten)]
    exact List.perm_middle
  have hrest : (u.flatten ++ (c1 ++ c2) ++ v.flatten).Perm l := (hent.symm.trans hh.perm).cons_inv
  have hc1 : ∀ e ∈ c1, e.1 ≠ key := by
    have hnd := hh.nodup
    rw [List.map_cons, List.nodup_cons] at hnd
    intro e he hk
    have hin : e ∈ l := hrest.mem_iff.mp (by simp [he])
    have hkey : key ∈ l.map Prod.fst := hk ▸ List.mem_map_of_mem hin
    exact hnd.1 hkey
  exact ⟨u, c1, c2, v, heq, hlen, hc1, hrest⟩

omit [DecidableEq K] in
/-- What `f` makes of the first node with a key it makes of the table. -/
theorem Holds.replace {old : V} {m : List (K × V)} (hh : h.Holds ((key, old) :: l))
    (hm : (m.map Prod.fst).Sublist [key]) {f : List (K × V) → List (K × V)}
    (hf : ∀ c1 c2, (∀ e ∈ c1, e.1 ≠ key) → f (c1 ++ (key, old) :: c2) = c1 ++ (m ++ c2)) :
    Holds { h with nodes := h.nodes.modify (h.hashFunc h.buckets key) f } (m ++ l) := by
  obtain ⟨u, c1, c2, v, heq, hlen, hc1, hrest⟩ := hh.chain
  have hnew : (u ++ f (c1 ++ (key, old) :: c2) :: v).flatten.Perm (m ++ l) := by
    have hmove : (u ++ (c1 ++ (m ++ c2)) :: v).flatten.Perm (m ++ (u.flatten ++ (c1 ++ c2) ++ v.flatten)) := by
      simp only [List.flatten_append, List.flatten_cons, List.append_assoc]
      rw [← List.append_assoc u.flatten c1, ← List.append_assoc u.flatten c1]
      exact List.perm_append_comm_assoc ..
    rw [hf c1 c2 hc1]
    exact hmove.trans (hrest.append_left m)
  have hkeys : ∀ e ∈ f (c1 ++ (key, old) :: c2), h.hashFunc h.buckets e.1 = u.length := by
    have hplaced := hh.wf.placed u.length (c1 ++ (key, old) :: c2) (by rw [heq]; simp)
    rw [hf c1 c2 hc1]
    intro e he
    simp only [List.mem_append] at he
    rcases he with he | he | he
    · exact hplaced e (by simp [he])
    · have hk : e.1 = key := by
        have := hm.subset (List.mem_map_of_mem he)
        simpa using this
      rw [hk]
      exact hlen.symm
    · exact hplaced e (by simp [he])
  have hnodup : ((u ++ f (c1 ++ (key, old) :: c2) :: v).flatten.map Prod.fst).Nodup := by
    have hnd : ((m ++ l).map Prod.fst).Nodup := by
      rw [List.map_append]
      exact hh.nodup.sublist (hm.append_right (l.map Prod.fst))
    exact (hnew.map Prod.fst).nodup_iff.mpr hnd
  obtain ⟨hwf, hent⟩ := hh.wf.change heq hkeys hnodup
  rw [← hlen]
  exact ⟨hwf, hent ▸ hnew⟩

/-- **`hash_free_entry` takes out a key that is there.** -/
theorem Holds.free (hh : h.Holds ((key, value) :: l)) :
    ∃ h', h.hashFreeEntry key = .ok h' ∧ h'.Holds l := by
  refine ⟨_, ?_, hh.replace (m := []) (f := (·.eraseP (·.1 = key))) (List.nil_sublist _) ?_⟩
  · rw [hashFreeEntry, hh.wf.getNode, hh.find.mpr List.mem_cons_self]
    show (do let bucket ← h.hashGetBucket key; pure _) = _
    rw [hh.wf.getBucket]
    rfl
  · intro c1 c2 hc1
    rw [List.eraseP_append_right _ (by simpa using hc1)]
    simp

theorem replaceF_key {c1 c2 : List (K × V)} {old : V} (hc1 : ∀ e ∈ c1, e.1 ≠ key) (value : V) :
    (c1 ++ (key, old) :: c2).replaceF (fun e => if e.1 = key then some (key, value) else none) =
      c1 ++ (key, value) :: c2 := by
  induction c1 with
  | nil => simp
  | cons e c1 ih =>
    obtain ⟨he, hc1⟩ := List.forall_mem_cons.mp hc1
    simpa [he] using ih hc1

/-- **A value changed in place.** -/
theorem Holds.store {old : V} (hh : h.Holds ((key, old) :: l)) (value : V) :
    ∃ h', h.hashStore key value = .ok h' ∧ h'.Holds ((key, value) :: l) := by
  refine ⟨_, ?_, hh.replace (m := [(key, value)])
    (f := (·.replaceF fun e => if e.1 = key then some (key, value) else none)) (List.Sublist.refl _) ?_⟩
  · rw [hashStore, hh.wf.getBucket]
    rfl
  · intro c1 c2 hc1
    exact replaceF_key hc1 value

end Hash

end CosFtp
