/-
# Runs of a hash table

Keys are added and freed, looked up, and values written through the pointers that
lookups gave, in any order. A table in memory goes with a finite map (`Tracks`),
each step keeps that, and so every state is right: lookups are those of the map,
and the lists of the buckets are in order.

The array itself is where this can fail: its size is taken modulo 2 ^ 32, and the
check of malloc finds only some of the sizes that were cut.

Key definitions: `TableStep`, `TableState.Right`, `RefinesMap`.
Key theorems: `TableStep.tracks`, `TableState.Tracks.right`, `hash_refines_map_iff`.
-/
import Mathlib.Logic.Relation
import CosFtp.HashMem

namespace CosFtp

open DList (Linked)

/-! ### Runs of a table -/

open HashMem

variable {K V : Type} [DecidableEq K]

/-- A table, the finite map it stands for, and the value pointers that lookups have given, with their keys. -/
structure TableState (K V : Type) where
  mem : HashMem K V
  map : K → Option V
  known : ℕ → Option K

/-- The four things that are done with a table: a key that is not there is added, in blocks that are not in
use, a key that is there is freed, a key is looked up, and a value is written through a pointer to it. -/
inductive TableStep : TableState K V → TableState K V → Prop
  | add {s key value new mem'} (hkey : s.map key = none) (hnew : s.mem.Unused new)
      (hrun : Returns (s.mem.hashAddEntry new key value) mem') :
      TableStep s ⟨mem', Function.update s.map key (some value), s.known⟩
  | free {s key mem'} (hkey : s.map key ≠ none) (hrun : Returns (s.mem.hashFreeEntry key) mem') :
      TableStep s ⟨mem', Function.update s.map key none, fun v => if s.known v = some key then none else s.known v⟩
  | lookup {s key v} (hrun : Returns (s.mem.hashLookupEntry key) (some v)) :
      TableStep s ⟨s.mem, s.map, Function.update s.known v (some key)⟩
  | write {s key v value mem'} (hv : s.known v = some key) (hrun : s.mem.writeValue v value = .ok mem') :
      TableStep s ⟨mem', Function.update s.map key (some value), s.known⟩

/-- A lookup returns what the map does: a null pointer, or one to the value. -/
def HashMem.Looks (m : HashMem K V) (key : K) : Option V → Prop
  | none => Returns (m.hashLookupEntry key) none
  | some value => ∃ v, Returns (m.hashLookupEntry key) (some v) ∧ m.values v = some value

omit [DecidableEq K] in
/-- The list of a bucket: it starts in the slot, is linked both ways and ends, and its keys are distinct and
of this bucket. -/
def HashMem.Listed (m : HashMem K V) (place : K → ℕ) (bucket : ℕ) : Prop :=
  ∃ (l : List ℕ) (es : List (K × V)), m.pNodes[bucket]? = some l.head? ∧ Linked m.next m.prev none l ∧ l.Nodup ∧
    List.Forall₂ m.Entry l es ∧ (es.map Prod.fst).Nodup ∧ ∀ e ∈ es, place e.1 = bucket

/-- What is right about a state of a table: lookups are those of the map, the lists of the buckets are in
order, and none of the four steps can fail. -/
structure TableState.Right (s : TableState K V) (buckets : ℕ) (hashFunc : ℕ → K → ℕ) : Prop where
  looks : ∀ key, s.mem.Looks key (s.map key)
  listed : ∀ bucket < buckets, s.mem.Listed (hashFunc buckets) bucket
  adds : ∀ key value new, s.map key = none → s.mem.Unused new →
    ∃ mem', Returns (s.mem.hashAddEntry new key value) mem'
  frees : ∀ key, s.map key ≠ none → ∃ mem', Returns (s.mem.hashFreeEntry key) mem'
  writes : ∀ v key value, s.known v = some key → ∃ mem', s.mem.writeValue v value = .ok mem'

/-- What a table in memory and its finite map have to do with each other. -/
structure TableState.Tracks (s : TableState K V) (h : Hash K V) (chain : ℕ → List ℕ) (l : List (K × V))
    (buckets : ℕ) (hashFunc : ℕ → K → ℕ) : Prop where
  repr : Repr s.mem h chain
  holds : h.Holds l
  map : ∀ key value, s.map key = some value ↔ (key, value) ∈ l
  known : ∀ v key, s.known v = some key → s.mem.Points chain key v
  buckets : s.mem.buckets = buckets
  hashFunc : s.mem.hashFunc = hashFunc

section

variable {s s' : TableState K V} {h : Hash K V} {chain : ℕ → List ℕ} {l : List (K × V)} {buckets : ℕ}
  {hashFunc : ℕ → K → ℕ} {key : K} {value : V}

omit [DecidableEq K]

theorem TableState.Tracks.absent (ht : s.Tracks h chain l buckets hashFunc) :
    s.map key = none ↔ key ∉ l.map Prod.fst := by
  constructor
  · intro hnone hmem
    obtain ⟨e, he, rfl⟩ := List.mem_map.mp hmem
    have hsome : s.map e.1 = some e.2 := (ht.map e.1 e.2).mpr he
    rw [hsome] at hnone
    cases hnone
  · intro hkey
    cases hmap : s.map key with
    | none => rfl
    | some value =>
      have hmem := (ht.map key value).mp hmap
      exact absurd (List.mem_map_of_mem (f := Prod.fst) hmem) hkey

/-- A key that is there, before the others. -/
theorem TableState.Tracks.present (ht : s.Tracks h chain l buckets hashFunc) (hmap : s.map key = some value) :
    ∃ l', h.Holds ((key, value) :: l') ∧ (∀ e, e ∈ l ↔ e = (key, value) ∨ e ∈ l') := by
  obtain ⟨l₁, l₂, rfl⟩ := List.append_of_mem ((ht.map key value).mp hmap)
  refine ⟨l₁ ++ l₂, ht.holds.of_perm List.perm_middle, fun e => ?_⟩
  rw [List.perm_middle.mem_iff, List.mem_cons]

theorem TableState.Tracks.others {l' : List (K × V)} (ht : s.Tracks h chain l buckets hashFunc)
    (hl : ∀ e, e ∈ l ↔ e = (key, value) ∨ e ∈ l') (k : K) (hk : k ≠ key) (a : V) :
    s.map k = some a ↔ (k, a) ∈ l' := by
  have hne : (k, a) ≠ (key, value) := fun he => hk (congrArg Prod.fst he)
  rw [ht.map, hl, or_iff_right hne]

theorem HashMem.Returns.unique {α : Type} {f : ℕ → Except MemFault α} {a b : α} (ha : Returns f a) (hb : Returns f b) :
    a = b := by
  obtain ⟨n, hn⟩ := ha
  obtain ⟨n', hn'⟩ := hb
  have heq := (hn (max n n') (le_max_left ..)).symm.trans (hn' (max n n') (le_max_right ..))
  exact Except.ok.inj heq

variable [DecidableEq K]

theorem update_none_iff {f : K → Option V} (hkey : key ∉ l.map Prod.fst)
    (hf : ∀ k ≠ key, ∀ a, f k = some a ↔ (k, a) ∈ l) (k : K) (a : V) :
    Function.update f key none k = some a ↔ (k, a) ∈ l := by
  rcases eq_or_ne k key with rfl | hk
  · have hnot : (k, a) ∉ l := fun hmem => hkey (List.mem_map_of_mem (f := Prod.fst) hmem)
    simp [hnot]
  · rw [Function.update_of_ne hk, hf k hk]

theorem update_some_iff {f : K → Option V} (hkey : key ∉ l.map Prod.fst)
    (hf : ∀ k ≠ key, ∀ a, f k = some a ↔ (k, a) ∈ l) (k : K) (a : V) :
    Function.update f key (some value) k = some a ↔ (k, a) ∈ (key, value) :: l := by
  rcases eq_or_ne k key with rfl | hk
  · have hnot : (k, a) ∉ l := fun hmem => hkey (List.mem_map_of_mem (f := Prod.fst) hmem)
    simp [hnot, eq_comm]
  · have hne : (k, a) ≠ (key, value) := fun he => hk (congrArg Prod.fst he)
    rw [Function.update_of_ne hk, hf k hk, List.mem_cons, or_iff_right hne]

theorem TableState.Tracks.add (ht : s.Tracks h chain l buckets hashFunc) (hkey : s.map key = none) {new : NewBlocks}
    (hnew : s.mem.Unused new) (value : V) : ∃ mem' h' chain', Returns (s.mem.hashAddEntry new key value) mem' ∧
      TableState.Tracks ⟨mem', Function.update s.map key (some value), s.known⟩ h' chain' ((key, value) :: l)
        buckets hashFunc := by
  have habsent := ht.absent.mp hkey
  obtain ⟨h', hadd, hholds⟩ := ht.holds.add habsent value
  obtain ⟨mem', chain', hrun, hb⟩ := ht.repr.add ht.holds.wf hnew hadd
  refine ⟨mem', h', chain', hrun, hb.repr, hholds, ?_, ?_, hb.buckets.trans ht.buckets,
    hb.hashFunc.trans ht.hashFunc⟩
  · exact fun k a => update_some_iff habsent (fun k _ a => ht.map k a) k a
  · exact fun v k hv => hb.points k trivial v (ht.known v k hv)

theorem TableState.Tracks.free (ht : s.Tracks h chain l buckets hashFunc) (hkey : s.map key ≠ none) :
    ∃ mem' h' chain' l', Returns (s.mem.hashFreeEntry key) mem' ∧
      TableState.Tracks ⟨mem', Function.update s.map key none, fun v => if s.known v = some key then none else s.known v⟩
        h' chain' l' buckets hashFunc := by
  obtain ⟨value, hvalue⟩ := Option.ne_none_iff_exists'.mp hkey
  obtain ⟨l', hholds, hl⟩ := ht.present hvalue
  obtain ⟨h', hfree, hholds'⟩ := hholds.free
  obtain ⟨mem', chain', hrun, hb⟩ := ht.repr.free hholds.wf hfree
  refine ⟨mem', h', chain', l', hrun, hb.repr, hholds', ?_, ?_, hb.buckets.trans ht.buckets,
    hb.hashFunc.trans ht.hashFunc⟩
  · exact fun k a => update_none_iff hholds.not_mem (ht.others hl) k a
  · intro v k hv
    simp only at hv
    split at hv
    · cases hv
    · next hne =>
      have hk : k ≠ key := by
        rintro rfl
        exact hne hv
      exact hb.points k hk v (ht.known v k hv)

theorem TableState.Tracks.lookup (ht : s.Tracks h chain l buckets hashFunc) (key : K) :
    s.mem.Looks key (s.map key) := by
  obtain ⟨p, hrun, heq, hp⟩ := ht.repr.lookup ht.holds.wf key
  cases hmap : s.map key with
  | none =>
    rw [ht.holds.lookup_none (ht.absent.mp hmap)] at heq
    cases p with
    | none => exact hrun
    | some v =>
      obtain ⟨-, value, hvalue⟩ := hp v rfl
      rw [Option.bind_some, hvalue] at heq
      cases heq
  | some value =>
    rw [ht.holds.lookup ((ht.map key value).mp hmap)] at heq
    cases p with
    | none => cases heq
    | some v => exact ⟨v, hrun, (Except.ok.inj heq).symm⟩

theorem TableState.Tracks.look (ht : s.Tracks h chain l buckets hashFunc) {v : ℕ}
    (hrun : Returns (s.mem.hashLookupEntry key) (some v)) :
    TableState.Tracks ⟨s.mem, s.map, Function.update s.known v (some key)⟩ h chain l buckets hashFunc := by
  refine ⟨ht.repr, ht.holds, ht.map, ?_, ht.buckets, ht.hashFunc⟩
  intro w k hw
  obtain ⟨p, hrun', -, hp⟩ := ht.repr.lookup ht.holds.wf key
  obtain rfl := hrun.unique hrun'
  rcases eq_or_ne w v with rfl | hne
  · simp only [Function.update_self] at hw
    exact Option.some.inj hw ▸ (hp w rfl).1
  · simp only [Function.update_of_ne hne] at hw
    exact ht.known w k hw

theorem TableState.Tracks.write (ht : s.Tracks h chain l buckets hashFunc) {v : ℕ} (hv : s.known v = some key)
    (value : V) : ∃ mem' h' l', s.mem.writeValue v value = .ok mem' ∧
      TableState.Tracks ⟨mem', Function.update s.map key (some value), s.known⟩ h' chain l' buckets hashFunc := by
  have hpoints := ht.known v key hv
  obtain ⟨old, p, u, w, eu, ew, hs, -⟩ := ht.repr.spot_of_points ht.holds.wf hpoints
  have hold : s.map key = some old := by
    have hfind : (h.nodes.getD (h.hashFunc h.buckets key) []).find? (·.1 = key) = some (key, old) := by
      rw [List.find?_eq_some_iff_append]
      exact ⟨by simp, eu, ew, hs.entries, by simpa using hs.first⟩
    have hget := getNode_eq ht.holds.wf key
    rw [ht.holds.wf.getNode, hfind] at hget
    exact (ht.map key old).mpr (ht.holds.find.mp (Except.ok.inj hget))
  obtain ⟨l', hholds, hl⟩ := ht.present hold
  obtain ⟨h', hstore, hholds'⟩ := hholds.store value
  obtain ⟨mem', hrun, hb⟩ := ht.repr.store ht.holds.wf hpoints hstore
  refine ⟨mem', h', (key, value) :: l', hrun, hb.repr, hholds', ?_, ?_, hb.buckets.trans ht.buckets,
    hb.hashFunc.trans ht.hashFunc⟩
  · exact fun k a => update_some_iff hholds.not_mem (ht.others hl) k a
  · exact fun v k hv => hb.points k trivial v (ht.known v k hv)

/-- Each step keeps the table and its map together. -/
theorem TableStep.tracks (hstep : TableStep s s') (ht : s.Tracks h chain l buckets hashFunc) :
    ∃ h' chain' l', s'.Tracks h' chain' l' buckets hashFunc := by
  cases hstep with
  | add hkey hnew hrun =>
    obtain ⟨mem', h', chain', hrun', ht'⟩ := ht.add hkey hnew _
    obtain rfl := hrun.unique hrun'
    exact ⟨h', chain', _, ht'⟩
  | free hkey hrun =>
    obtain ⟨mem', h', chain', l', hrun', ht'⟩ := ht.free hkey
    obtain rfl := hrun.unique hrun'
    exact ⟨h', chain', l', ht'⟩
  | lookup hrun => exact ⟨h, chain, l, ht.look hrun⟩
  | write hv hrun =>
    obtain ⟨mem', h', l', hrun', ht'⟩ := ht.write hv _
    obtain rfl := Except.ok.inj (hrun.symm.trans hrun')
    exact ⟨h', chain, l', ht'⟩

/-- A table that is its map is right. -/
theorem TableState.Tracks.right (ht : s.Tracks h chain l buckets hashFunc) : s.Right buckets hashFunc := by
  refine ⟨ht.lookup, ?_, ?_, ?_, ?_⟩
  · intro bucket hlt
    have hbuckets : buckets = h.buckets := ht.buckets.symm.trans ht.repr.buckets
    have hfunc : hashFunc = h.hashFunc := ht.hashFunc.symm.trans ht.repr.hashFunc
    have hin : bucket < h.nodes.length := hlt.trans_eq hbuckets
    have hat : h.nodes[bucket]? = some (h.nodes.getD bucket []) := by simp [hin]
    refine ⟨chain bucket, h.nodes.getD bucket [], ht.repr.heads bucket (ht.buckets ▸ hlt), ht.repr.linked bucket,
      ht.repr.nodup bucket, ht.repr.entries bucket, ?_, ?_⟩
    · have hsub := List.sublist_flatten_of_mem (List.mem_of_getElem? hat)
      exact ht.holds.wf.nodup.sublist (hsub.map Prod.fst)
    · rw [hfunc, hbuckets]
      exact ht.holds.wf.placed bucket _ hat
  · intro key value new hkey hnew
    obtain ⟨mem', _, _, hrun, -⟩ := ht.add hkey hnew value
    exact ⟨mem', hrun⟩
  · intro key hkey
    obtain ⟨mem', _, _, _, hrun, -⟩ := ht.free hkey
    exact ⟨mem', hrun⟩
  · intro v key value hv
    obtain ⟨mem', _, _, hrun, -⟩ := ht.write hv value
    exact ⟨mem', hrun⟩

end

/-! ### The array of the buckets -/

/-- In every state that a table reaches from `hash_alloc`, it is right. -/
def RefinesMap (K V : Type) [DecidableEq K] (buckets : ℕ) : Prop :=
  ∀ hashFunc : ℕ → K → ℕ, (∀ key, hashFunc buckets key < buckets) →
    ∀ mem : HashMem K V, HashMem.hashAlloc buckets hashFunc = .ok mem →
      ∀ s, Relation.ReflTransGen TableStep ⟨mem, fun _ => none, fun _ => none⟩ s → s.Right buckets hashFunc

variable {buckets : ℕ} {hashFunc : ℕ → K → ℕ} {mem : HashMem K V}

omit [DecidableEq K] in
/-- What `hash_alloc` returns, if the size it asks for is not refused. -/
theorem hashAlloc_eq_ok (h : HashMem.hashAlloc buckets hashFunc = .ok mem) :
    pointerSize * buckets % 2 ^ 32 ≠ 0 ∧ pointerSize * buckets % 2 ^ 32 < 2 ^ 31 ∧
      mem = ⟨buckets, hashFunc, List.replicate (pointerSize * buckets % 2 ^ 32 / pointerSize) none,
        fun _ => none, fun _ => none, fun _ => none⟩ := by
  rw [HashMem.hashAlloc, sysutilMalloc] at h
  split at h
  · cases h
  · next hsize =>
    have hne : pointerSize * buckets % 2 ^ 32 ≠ 0 := fun hz => hsize (.inl hz)
    have hle : ¬ 2 ^ 31 - 1 < pointerSize * buckets % 2 ^ 32 := fun hlt => hsize (.inr hlt)
    exact ⟨hne, by omega, (Except.ok.inj h).symm⟩

omit [DecidableEq K] in
/-- An empty table with room for all buckets. -/
theorem hashAlloc_tracks (hlt : ∀ key, hashFunc buckets key < buckets) :
    TableState.Tracks (V := V) ⟨⟨buckets, hashFunc, List.replicate buckets none, fun _ => none, fun _ => none,
      fun _ => none⟩, fun _ => none, fun _ => none⟩ (Hash.hashAlloc buckets hashFunc) (fun _ => []) [] buckets
      hashFunc := by
  have hlen : (Hash.hashAlloc buckets hashFunc : Hash K V).buckets = buckets := List.length_replicate
  refine ⟨⟨hlen.symm, rfl, ?_, fun _ => trivial, fun _ => List.nodup_nil, ?_, ?_, ?_⟩, Hash.hashAlloc_holds hlt, ?_, ?_,
    rfl, rfl⟩
  · intro bucket hb
    have hb' : bucket < buckets := hb
    simp [hb']
  · intro bucket c p hp
    cases hp
  · intro bucket
    have hnil : (Hash.hashAlloc buckets hashFunc : Hash K V).nodes.getD bucket [] = [] := by
      rw [List.getD_eq_getElem?_getD, Hash.hashAlloc, List.getElem?_replicate]
      split <;> rfl
    rw [hnil]
    exact .nil
  · rintro p q d d' ⟨c, hc⟩
    cases hc
  · intro key value
    simp
  · intro v key hv
    cases hv

/-- A key whose slot is not in the array. -/
theorem lookup_outside {key : K} (hlt : mem.hashFunc mem.buckets key < mem.buckets)
    (hslot : mem.pNodes[mem.hashFunc mem.buckets key]? = none) (fuel : ℕ) :
    mem.hashLookupEntry key fuel = .error .outside := by
  have hbucket : mem.hashGetBucket key = .ok (mem.hashFunc mem.buckets key) := if_neg (Nat.not_le.mpr hlt)
  rw [HashMem.hashLookupEntry, HashMem.hashGetNodeByKey, ok_bind hbucket, HashMem.readSlot, hslot]
  rfl

/-- **hash.c is a finite map just where its array is not cut.** The size of the array is taken modulo 2 ^ 32:
it has to be right, or one that malloc refuses. -/
theorem hash_refines_map_iff (K V : Type) [DecidableEq K] [Inhabited K] (buckets : ℕ) (hpos : 1 ≤ buckets)
    (hlt : buckets < 2 ^ 32) : RefinesMap K V buckets ↔
      pointerSize * buckets < 2 ^ 32 ∨ pointerSize * buckets % 2 ^ 32 = 0 ∨
        2 ^ 31 ≤ pointerSize * buckets % 2 ^ 32 := by
  constructor
  · intro hrefines
    by_contra hcut
    -- the keys of the last bucket have no slot
    have hslots : pointerSize * buckets % 2 ^ 32 / pointerSize ≤ buckets - 1 := by
      simp only [pointerSize] at hcut ⊢
      omega
    have hok : sysutilMalloc (pointerSize * buckets % 2 ^ 32) = .ok () := if_neg (by omega)
    have hmem := ok_bind hok fun _ => .ok (⟨buckets, fun b (_ : K) => b - 1, List.replicate
      (pointerSize * buckets % 2 ^ 32 / pointerSize) none, fun _ => none, fun _ => none, fun _ => none⟩ :
        HashMem K V)
    have hright := hrefines (fun b _ => b - 1) (fun _ => by omega) _ hmem _ .refl
    obtain ⟨n, hn⟩ := hright.looks default
    have hslot : (List.replicate (pointerSize * buckets % 2 ^ 32 / pointerSize) (none : Option ℕ))[buckets - 1]? =
        none := by
      rw [List.getElem?_replicate, if_neg (Nat.not_lt.mpr hslots)]
    have hout := hn n le_rfl
    have hlast : buckets - 1 < buckets := by omega
    rw [lookup_outside hlast hslot] at hout
    cases hout
  · intro hsize hashFunc hfunc mem hmem s hreach
    obtain ⟨hne, hle, rfl⟩ := hashAlloc_eq_ok hmem
    have hfits : pointerSize * buckets < 2 ^ 32 := by omega
    have hroom : pointerSize * buckets % 2 ^ 32 / pointerSize = buckets := by
      rw [Nat.mod_eq_of_lt hfits]
      exact Nat.mul_div_cancel_left buckets (by decide)
    rw [hroom] at hreach
    have hall : ∃ h chain l, s.Tracks h chain l buckets hashFunc := by
      induction hreach with
      | refl => exact ⟨_, _, _, hashAlloc_tracks hfunc⟩
      | tail _ hstep ih =>
        obtain ⟨h, chain, l, ht⟩ := ih
        exact hstep.tracks ht
    obtain ⟨h, chain, l, ht⟩ := hall
    exact ht.right

/-- The tables of the listener have 256 buckets. -/
theorem hash_refines_map_listener : RefinesMap ℕ ℕ 256 :=
  (hash_refines_map_iff ℕ ℕ 256 (by decide) (by decide)).mpr (.inl (by decide))

/-- With 2 ^ 29 + 1 buckets the array has room for one: `hash_pid` sends the process 1 to a slot behind it. -/
theorem hash_array_cut : ¬ RefinesMap ℕ ℕ 536870913 := by
  intro hrefines
  have hfunc : ∀ pid, hashPid 536870913 pid < 536870913 := fun pid => Nat.mod_lt pid (by decide)
  have hright := hrefines hashPid hfunc ⟨536870913, hashPid, [none], fun _ => none, fun _ => none, fun _ => none⟩ rfl
    _ .refl
  obtain ⟨n, hn⟩ := hright.looks 1
  have hout := hn n le_rfl
  rw [lookup_outside (hfunc 1) rfl] at hout
  cases hout

end CosFtp
