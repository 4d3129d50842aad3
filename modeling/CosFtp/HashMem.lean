/-
# The hash tables of hash.c in memory

The nodes, keys and values of a table stand in blocks that malloc has given, and
the nodes of a bucket are linked both ways. `Repr` says that a table in memory is
one of `Hash`: each slot of `p_nodes` holds the first of a doubly linked list of
nodes, whose keys and values are the entries of the chain. Each function of hash.c
keeps it.

Key definitions: `HashMem`, `HashMem.Repr`, `HashMem.Becomes`.
Key theorems: `HashMem.Repr.lookup`, `HashMem.Repr.add`, `HashMem.Repr.free`, `HashMem.Repr.store`.
-/
import Mathlib.Data.List.Forall2
import Mathlib.Logic.Function.Basic
import CosFtp.Lib.DList
import CosFtp.Listener

namespace CosFtp

open DList (Linked)

/-! ### The memory -/

/-- A `struct hash_node`; a pointer is an address, or `none` for a null one. -/
structure HashNode where
  pKey : ℕ
  pValue : ℕ
  pPrev : Option ℕ
  pNext : Option ℕ

/-- How a run ends early: in `bug`, or with an access to what is not allocated. -/
inductive MemFault where
  | bug (text : String)
  | dangling
  | outside
  | running
  deriving DecidableEq

/-- A `struct hash` and the blocks its nodes are in; `pNodes` has the slots there is room for. -/
structure HashMem (K V : Type) where
  buckets : ℕ
  hashFunc : ℕ → K → ℕ
  pNodes : List (Option ℕ)
  nodes : ℕ → Option HashNode
  keys : ℕ → Option K
  values : ℕ → Option V

/-- What is at an address. -/
def load {α : Type} (blocks : ℕ → Option α) (p : ℕ) : Except MemFault α :=
  (blocks p).elim (.error .dangling) .ok

/-- The size of a pointer. -/
def pointerSize : ℕ := 8

/-- `vsf_sysutil_malloc`, for what it refuses. -/
def sysutilMalloc (size : ℕ) : Except MemFault Unit :=
  if size = 0 ∨ 2 ^ 31 - 1 < size then .error (.bug "zero or big size in vsf_sysutil_malloc") else .ok ()

namespace HashMem

variable {K V : Type}

/-- `hash_alloc`: the size of `p_nodes` is an `unsigned int`. -/
def hashAlloc (buckets : ℕ) (hashFunc : ℕ → K → ℕ) : Except MemFault (HashMem K V) := do
  let size := pointerSize * buckets % 2 ^ 32
  sysutilMalloc size
  return ⟨buckets, hashFunc, List.replicate (size / pointerSize) none, fun _ => none, fun _ => none, fun _ => none⟩

def readSlot (m : HashMem K V) (bucket : ℕ) : Except MemFault (Option ℕ) :=
  (m.pNodes[bucket]?).elim (.error .outside) .ok

def writeSlot (m : HashMem K V) (bucket : ℕ) (p : Option ℕ) : Except MemFault (HashMem K V) :=
  if bucket < m.pNodes.length then .ok { m with pNodes := m.pNodes.set bucket p } else .error .outside

/-- A field of a node is written. -/
def writeNode (m : HashMem K V) (p : ℕ) (f : HashNode → HashNode) : Except MemFault (HashMem K V) := do
  let node ← load m.nodes p
  return { m with nodes := Function.update m.nodes p (some (f node)) }

def freeKey (m : HashMem K V) (p : ℕ) : Except MemFault (HashMem K V) := do
  let _ ← load m.keys p
  return { m with keys := Function.update m.keys p none }

def freeValue (m : HashMem K V) (p : ℕ) : Except MemFault (HashMem K V) := do
  let _ ← load m.values p
  return { m with values := Function.update m.values p none }

def freeNode (m : HashMem K V) (p : ℕ) : Except MemFault (HashMem K V) := do
  let _ ← load m.nodes p
  return { m with nodes := Function.update m.nodes p none }

/-- A value is written through the pointer that `hash_lookup_entry` has given. -/
def writeValue (m : HashMem K V) (p : ℕ) (value : V) : Except MemFault (HashMem K V) := do
  let _ ← load m.values p
  return { m with values := Function.update m.values p (some value) }

/-! ### The functions of hash.c -/

def hashGetBucket (m : HashMem K V) (key : K) : Except MemFault ℕ :=
  if m.buckets ≤ m.hashFunc m.buckets key then .error (.bug "bad bucket lookup")
  else .ok (m.hashFunc m.buckets key)

section

variable [DecidableEq K]

/-- The loop of `hash_get_node_by_key`. -/
def findNode (m : HashMem K V) (key : K) : ℕ → Option ℕ → Except MemFault (Option ℕ)
  | 0, _ => .error .running
  | _ + 1, none => .ok none
  | fuel + 1, some p => do
    let node ← load m.nodes p
    let found ← load m.keys node.pKey
    if found = key then return some p else m.findNode key fuel node.pNext

def hashGetNodeByKey (m : HashMem K V) (key : K) (fuel : ℕ) : Except MemFault (Option ℕ) := do
  let bucket ← m.hashGetBucket key
  let head ← m.readSlot bucket
  m.findNode key fuel head

/-- The value of a node that was found, or a null pointer. -/
def valueOf (m : HashMem K V) : Option ℕ → Except MemFault (Option ℕ)
  | none => .ok none
  | some p => do
    let node ← load m.nodes p
    return some node.pValue

def hashLookupEntry (m : HashMem K V) (key : K) (fuel : ℕ) : Except MemFault (Option ℕ) := do
  let p ← m.hashGetNodeByKey key fuel
  m.valueOf p

/-- `hash_add_entry` behind the allocations: the new node goes to the front. -/
def pushNode (m : HashMem K V) (bucket pNewNode : ℕ) : Option ℕ → Except MemFault (HashMem K V)
  | none => m.writeSlot bucket (some pNewNode)
  | some p => do
    let m ← m.writeNode pNewNode fun node => { node with pNext := some p }
    let m ← m.writeNode p fun node => { node with pPrev := some pNewNode }
    m.writeSlot bucket (some pNewNode)

/-- The three blocks that `hash_add_entry` allocates. -/
structure NewBlocks where
  pNewNode : ℕ
  pKey : ℕ
  pValue : ℕ

/-- They are not in use. -/
structure Unused (m : HashMem K V) (new : NewBlocks) : Prop where
  node : m.nodes new.pNewNode = none
  key : m.keys new.pKey = none
  value : m.values new.pValue = none

def hashAddEntry (m : HashMem K V) (new : NewBlocks) (key : K) (value : V) (fuel : ℕ) :
    Except MemFault (HashMem K V) := do
  let found ← m.hashLookupEntry key fuel
  if found.isSome then throw (.bug "duplicate hash key")
  else do
    let bucket ← m.hashGetBucket key
    let m := { m with
      nodes := Function.update m.nodes new.pNewNode (some ⟨new.pKey, new.pValue, none, none⟩)
      keys := Function.update m.keys new.pKey (some key)
      values := Function.update m.values new.pValue (some value) }
    let head ← m.readSlot bucket
    m.pushNode bucket new.pNewNode head

/-- What is in front of the node is linked to what is behind it. -/
def linkFront (m : HashMem K V) (key : K) (node : HashNode) : Option ℕ → Except MemFault (HashMem K V)
  | some prev => m.writeNode prev fun front => { front with pNext := node.pNext }
  | none => do
    let bucket ← m.hashGetBucket key
    m.writeSlot bucket node.pNext

/-- What is behind the node is linked to what is in front of it. -/
def linkBack (m : HashMem K V) (node : HashNode) : Option ℕ → Except MemFault (HashMem K V)
  | some next => m.writeNode next fun back => { back with pPrev := node.pPrev }
  | none => .ok m

/-- `hash_free_entry` for the node it has found. -/
def dropNode (m : HashMem K V) (key : K) : Option ℕ → Except MemFault (HashMem K V)
  | none => .error (.bug "hash node not found")
  | some p => do
    let node ← load m.nodes p
    let m ← m.freeKey node.pKey
    let m ← m.freeValue node.pValue
    let m ← m.linkFront key node node.pPrev
    let node ← load m.nodes p
    let m ← m.linkBack node node.pNext
    m.freeNode p

def hashFreeEntry (m : HashMem K V) (key : K) (fuel : ℕ) : Except MemFault (HashMem K V) := do
  let p ← m.hashGetNodeByKey key fuel
  m.dropNode key p

end

/-! ### What is in the memory -/

/-- The links of the nodes. -/
def next (m : HashMem K V) (p : ℕ) : Option ℕ := (m.nodes p).bind HashNode.pNext

def prev (m : HashMem K V) (p : ℕ) : Option ℕ := (m.nodes p).bind HashNode.pPrev

/-- Where the key and the value of a node are. -/
def data (m : HashMem K V) (p : ℕ) : Option (ℕ × ℕ) := (m.nodes p).map fun node => (node.pKey, node.pValue)

/-- The node at `p` is the entry `e`. -/
def Entry (m : HashMem K V) (p : ℕ) (e : K × V) : Prop :=
  ∃ d, m.data p = some d ∧ m.keys d.1 = some e.1 ∧ m.values d.2 = some e.2

variable {m m' : HashMem K V} {p : ℕ} {d : ℕ × ℕ}

theorem nodes_eq (hd : m.data p = some d) : m.nodes p = some ⟨d.1, d.2, m.prev p, m.next p⟩ := by
  obtain ⟨node, hnode, rfl⟩ := Option.map_eq_some_iff.mp hd
  rw [hnode, next, prev, hnode]
  rfl

theorem load_eq {α : Type} {blocks : ℕ → Option α} {a : α} (h : blocks p = some a) : load blocks p = .ok a := by
  rw [load, h]
  rfl

/-- Only links have changed. -/
structure Relinked (m m' : HashMem K V) : Prop where
  buckets : m'.buckets = m.buckets
  hashFunc : m'.hashFunc = m.hashFunc
  data : m'.data = m.data
  keys : m'.keys = m.keys
  values : m'.values = m.values

theorem Relinked.refl (m : HashMem K V) : Relinked m m := ⟨rfl, rfl, rfl, rfl, rfl⟩

theorem Relinked.trans {m'' : HashMem K V} (h : Relinked m m') (h' : Relinked m' m'') : Relinked m m'' :=
  ⟨h'.buckets.trans h.buckets, h'.hashFunc.trans h.hashFunc, h'.data.trans h.data, h'.keys.trans h.keys,
    h'.values.trans h.values⟩

/-- A node with new links to both sides. -/
theorem writeLinks (hd : m.data p = some d) (f : HashNode → HashNode) {before behind : Option ℕ}
    (hf : f ⟨d.1, d.2, m.prev p, m.next p⟩ = ⟨d.1, d.2, before, behind⟩) :
    ∃ m', m.writeNode p f = .ok m' ∧ Relinked m m' ∧ m'.pNodes = m.pNodes ∧
      m'.next = Function.update m.next p behind ∧ m'.prev = Function.update m.prev p before := by
  refine ⟨{ m with nodes := Function.update m.nodes p (some ⟨d.1, d.2, before, behind⟩) }, ?_,
    ⟨rfl, rfl, ?_, rfl, rfl⟩, rfl, ?_, ?_⟩
  · rw [writeNode, load_eq (nodes_eq hd), ← hf]
    rfl
  · funext x
    rcases eq_or_ne x p with rfl | hx
    · rw [hd]
      simp [HashMem.data]
    · simp [HashMem.data, hx]
  · funext x
    rcases eq_or_ne x p with rfl | hx
    · simp [next]
    · simp [next, hx]
  · funext x
    rcases eq_or_ne x p with rfl | hx
    · simp [prev]
    · simp [prev, hx]

theorem writeNext (hd : m.data p = some d) (behind : Option ℕ) :
    ∃ m', m.writeNode p (fun node => { node with pNext := behind }) = .ok m' ∧ Relinked m m' ∧
      m'.pNodes = m.pNodes ∧ m'.next = Function.update m.next p behind ∧ m'.prev = m.prev := by
  have h := writeLinks hd (fun node => { node with pNext := behind }) rfl
  rwa [Function.update_eq_self] at h

theorem writePrev (hd : m.data p = some d) (before : Option ℕ) :
    ∃ m', m.writeNode p (fun node => { node with pPrev := before }) = .ok m' ∧ Relinked m m' ∧
      m'.pNodes = m.pNodes ∧ m'.next = m.next ∧ m'.prev = Function.update m.prev p before := by
  have h := writeLinks hd (fun node => { node with pPrev := before }) rfl
  rwa [Function.update_eq_self] at h

theorem readSlot_eq {bucket : ℕ} {head : Option ℕ} (h : m.pNodes[bucket]? = some head) :
    m.readSlot bucket = .ok head := by
  rw [readSlot, h]
  rfl

theorem writeSlot_eq {bucket : ℕ} (h : bucket < m.pNodes.length) (head : Option ℕ) :
    m.writeSlot bucket head = .ok { m with pNodes := m.pNodes.set bucket head } := if_pos h

/-! ### The tables they are -/

/-- The nodes of the chains. -/
def Chained (chain : ℕ → List ℕ) (p : ℕ) : Prop := ∃ bucket, p ∈ chain bucket

/-- A table in memory is one of `Hash`: the slot of a bucket holds the first node of its chain. -/
structure Repr (m : HashMem K V) (h : Hash K V) (chain : ℕ → List ℕ) : Prop where
  buckets : m.buckets = h.buckets
  hashFunc : m.hashFunc = h.hashFunc
  heads : ∀ bucket < m.buckets, m.pNodes[bucket]? = some (chain bucket).head?
  linked : ∀ bucket, Linked m.next m.prev none (chain bucket)
  nodup : ∀ bucket, (chain bucket).Nodup
  apart : ∀ bucket c p, p ∈ chain bucket → p ∈ chain c → bucket = c
  entries : ∀ bucket, List.Forall₂ m.Entry (chain bucket) (h.nodes.getD bucket [])
  own : ∀ p q d d', Chained chain p → Chained chain q → p ≠ q → m.data p = some d → m.data q = some d' →
    d.1 ≠ d'.1 ∧ d.2 ≠ d'.2

variable {h : Hash K V} {chain : ℕ → List ℕ}

theorem getD_modify {α : Type} (l : List (List α)) (f : List α → List α) {bucket : ℕ} (hlt : bucket < l.length)
    (c : ℕ) : (l.modify bucket f).getD c [] = if c = bucket then f (l.getD bucket []) else l.getD c [] := by
  rw [List.getD_eq_getElem?_getD, List.getElem?_modify]
  rcases eq_or_ne c bucket with rfl | hc
  · simp [hlt]
  · simp [hc, hc.symm]

theorem forall₂_of_mem {α β : Type} {R S : α → β → Prop} {l : List α} {l' : List β} (h : List.Forall₂ R l l')
    (hRS : ∀ x ∈ l, ∀ e, R x e → S x e) : List.Forall₂ S l l' := by
  induction h with
  | nil => exact .nil
  | @cons x e l l' hxe _ ih =>
    exact .cons (hRS x List.mem_cons_self e hxe) (ih fun y hy => hRS y (List.mem_cons_of_mem x hy))

/-- One bucket gets another chain; the others are let alone. -/
theorem Repr.change (hr : Repr m h chain) {bucket : ℕ} (hlt : bucket < m.buckets) {l : List ℕ}
    {f : List (K × V) → List (K × V)} (hbuckets : m'.buckets = m.buckets) (hfunc : m'.hashFunc = m.hashFunc)
    (hslots : m'.pNodes = m.pNodes.set bucket l.head?)
    (hother : ∀ c ≠ bucket, ∀ x ∈ chain c, (m'.next x = m.next x ∧ m'.prev x = m.prev x) ∧
      ∀ e, m.Entry x e → m'.Entry x e)
    (hlinked : Linked m'.next m'.prev none l) (hnodup : l.Nodup)
    (hapart : ∀ x ∈ l, ∀ c ≠ bucket, x ∉ chain c)
    (hentries : List.Forall₂ m'.Entry l (f (h.nodes.getD bucket [])))
    (hown : ∀ p q d d', Chained (Function.update chain bucket l) p → Chained (Function.update chain bucket l) q →
      p ≠ q → m'.data p = some d → m'.data q = some d' → d.1 ≠ d'.1 ∧ d.2 ≠ d'.2) :
    Repr m' { h with nodes := h.nodes.modify bucket f } (Function.update chain bucket l) := by
  have hlt' : bucket < h.nodes.length := hlt.trans_eq hr.buckets
  refine ⟨?_, hfunc.trans hr.hashFunc, ?_, ?_, ?_, ?_, ?_, hown⟩
  · exact (hbuckets.trans hr.buckets).trans (List.length_modify ..).symm
  · intro c hc
    rw [hbuckets] at hc
    have hlen : bucket < m.pNodes.length := (List.getElem?_eq_some_iff.mp (hr.heads bucket hlt)).1
    rw [hslots]
    rcases eq_or_ne c bucket with rfl | hne
    · simp [hlen]
    · rw [List.getElem?_set_ne hne.symm, hr.heads c hc, Function.update_of_ne hne]
  · intro c
    rcases eq_or_ne c bucket with rfl | hne
    · rwa [Function.update_self]
    · rw [Function.update_of_ne hne]
      exact (hr.linked c).congr fun x hx => (hother c hne x hx).1
  · intro c
    rcases eq_or_ne c bucket with rfl | hne
    · rwa [Function.update_self]
    · rw [Function.update_of_ne hne]
      exact hr.nodup c
  · intro c c' x hx hx'
    rcases eq_or_ne c bucket with hc | hne <;> rcases eq_or_ne c' bucket with hc' | hne'
    · exact hc.trans hc'.symm
    · rw [hc, Function.update_self] at hx
      rw [Function.update_of_ne hne'] at hx'
      exact absurd hx' (hapart x hx c' hne')
    · rw [hc', Function.update_self] at hx'
      rw [Function.update_of_ne hne] at hx
      exact absurd hx (hapart x hx' c hne)
    · rw [Function.update_of_ne hne] at hx
      rw [Function.update_of_ne hne'] at hx'
      exact hr.apart c c' x hx hx'
  · intro c
    show List.Forall₂ m'.Entry _ ((h.nodes.modify bucket f).getD c [])
    rw [getD_modify h.nodes f hlt']
    rcases eq_or_ne c bucket with rfl | hne
    · rwa [Function.update_self, if_pos rfl]
    · rw [Function.update_of_ne hne, if_neg hne]
      exact forall₂_of_mem (hr.entries c) fun x hx => (hother c hne x hx).2

/-! ### The search -/

/-- The loop ends with `r`, however much fuel there is. -/
def Returns {α : Type} (f : ℕ → Except MemFault α) (r : α) : Prop := ∃ n, ∀ fuel, n ≤ fuel → f fuel = .ok r

theorem ok_bind {α β : Type} {x : Except MemFault α} {a : α} (h : x = .ok a) (f : α → Except MemFault β) :
    x >>= f = f a := by
  rw [h]
  rfl

theorem Returns.bind {α β : Type} {f : ℕ → Except MemFault α} {a : α} {r : β} (h : Returns f a)
    {g : α → Except MemFault β} (hg : g a = .ok r) : Returns (fun fuel => f fuel >>= g) r := by
  obtain ⟨n, hn⟩ := h
  exact ⟨n, fun fuel hf => (ok_bind (hn fuel hf) g).trans hg⟩

variable {key : K} {value : V}

theorem Repr.getBucket (hr : Repr m h chain) (hw : h.WF) (key : K) :
    m.hashGetBucket key = .ok (h.hashFunc h.buckets key) := by
  rw [hashGetBucket, hr.buckets, hr.hashFunc]
  exact if_neg (Nat.not_le.mpr (hw.bucket_lt key))

theorem Repr.bucket_lt (hr : Repr m h chain) (hw : h.WF) (key : K) : h.hashFunc h.buckets key < m.buckets :=
  (hw.bucket_lt key).trans_eq hr.buckets.symm

/-- The node that is the first entry of the key, in its chain. -/
structure Spot (m : HashMem K V) (h : Hash K V) (chain : ℕ → List ℕ) (key : K) (value : V) (p : ℕ)
    (u w : List ℕ) (eu ew : List (K × V)) : Prop where
  nodes : chain (h.hashFunc h.buckets key) = u ++ p :: w
  entries : h.nodes.getD (h.hashFunc h.buckets key) [] = eu ++ (key, value) :: ew
  front : List.Forall₂ m.Entry u eu
  here : m.Entry p (key, value)
  behind : List.Forall₂ m.Entry w ew
  first : ∀ e ∈ eu, e.1 ≠ key

theorem forall₂_cut {α β : Type} {R : α → β → Prop} {l : List α} {b : β} {u w : List β}
    (h : List.Forall₂ R l (u ++ b :: w)) :
    ∃ u' a w', l = u' ++ a :: w' ∧ List.Forall₂ R u' u ∧ R a b ∧ List.Forall₂ R w' w := by
  have hfront := List.forall₂_take_append _ _ _ h
  have hbehind := List.forall₂_drop_append _ _ _ h
  obtain ⟨a, w', hab, hw, hrest⟩ := List.forall₂_cons_right_iff.mp hbehind
  exact ⟨_, a, w', by rw [← hrest, List.take_append_drop], hfront, hab, hw⟩

variable {u w : List ℕ} {eu ew : List (K × V)}

section

variable [DecidableEq K]

/-- The loop goes past nodes with other keys. -/
theorem findNode_skip (fuel : ℕ) (hall : List.Forall₂ m.Entry u eu) :
    ∀ {before : Option ℕ}, Linked m.next m.prev before (u ++ w) → (∀ e ∈ eu, e.1 ≠ key) →
      m.findNode key (fuel + u.length) (u ++ w).head? = m.findNode key fuel w.head? := by
  induction hall with
  | nil => exact fun _ _ => rfl
  | @cons p e u eu hp hall ih =>
    intro before hlinked hne
    obtain ⟨d, hd, hkey, -⟩ := hp
    obtain ⟨-, hnext, hrest⟩ := hlinked
    have hother : ¬ e.1 = key := hne e List.mem_cons_self
    rw [← ih hrest fun e' he' => hne e' (List.mem_cons_of_mem e he')]
    show m.findNode key (fuel + u.length + 1) (some p) = _
    rw [findNode, ok_bind (load_eq (nodes_eq hd)), ok_bind (load_eq hkey), if_neg hother, hnext]
    rfl

theorem Repr.getNode_none (hr : Repr m h chain) (hw : h.WF)
    (habsent : ∀ e ∈ h.nodes.getD (h.hashFunc h.buckets key) [], e.1 ≠ key) :
    Returns (m.hashGetNodeByKey key) none := by
  have hlinked : Linked m.next m.prev none (chain (h.hashFunc h.buckets key) ++ []) := by
    rw [List.append_nil]
    exact hr.linked _
  have hskip := fun fuel => findNode_skip fuel (hr.entries (h.hashFunc h.buckets key)) hlinked habsent
  refine ⟨(chain (h.hashFunc h.buckets key)).length + 1, fun fuel hfuel => ?_⟩
  obtain ⟨k, rfl⟩ := Nat.exists_eq_add_of_le' hfuel
  rw [hashGetNodeByKey, ok_bind (hr.getBucket hw key), ok_bind (readSlot_eq (hr.heads _ (hr.bucket_lt hw key)))]
  rw [List.append_nil] at hskip
  have hk : k + ((chain (h.hashFunc h.buckets key)).length + 1) =
      k + 1 + (chain (h.hashFunc h.buckets key)).length := by omega
  rw [hk, hskip]
  rfl

theorem Repr.getNode_some (hr : Repr m h chain) (hw : h.WF) (hs : Spot m h chain key value p u w eu ew) :
    Returns (m.hashGetNodeByKey key) (some p) := by
  have hlinked := hr.linked (h.hashFunc h.buckets key)
  rw [hs.nodes] at hlinked
  obtain ⟨d, hd, hkey, -⟩ := hs.here
  refine ⟨u.length + 1, fun fuel hfuel => ?_⟩
  obtain ⟨k, rfl⟩ := Nat.exists_eq_add_of_le' hfuel
  rw [hashGetNodeByKey, ok_bind (hr.getBucket hw key), ok_bind (readSlot_eq (hr.heads _ (hr.bucket_lt hw key)))]
  have hk : k + (u.length + 1) = k + 1 + u.length := by omega
  rw [hk, hs.nodes, findNode_skip (k + 1) hs.front hlinked hs.first]
  show m.findNode key (k + 1) (some p) = _
  rw [findNode, ok_bind (load_eq (nodes_eq hd)), ok_bind (load_eq hkey), if_pos rfl]
  rfl

/-- What is found in the chain of entries has its node. -/
theorem Repr.spot (hr : Repr m h chain) (hfind : (h.nodes.getD (h.hashFunc h.buckets key) []).find? (·.1 = key) =
    some (key, value)) : ∃ p u w eu ew, Spot m h chain key value p u w eu ew := by
  obtain ⟨-, eu, ew, heq, hfirst⟩ := List.find?_eq_some_iff_append.mp hfind
  have hall := hr.entries (h.hashFunc h.buckets key)
  rw [heq] at hall
  obtain ⟨u, p, w, hnodes, hu, hp, hw⟩ := forall₂_cut hall
  exact ⟨p, u, w, eu, ew, hnodes, heq, hu, hp, hw, by simpa using hfirst⟩

end

/-! ### What the functions do to the memory -/

theorem Repr.node (hr : Repr m h chain) {bucket : ℕ} (hp : p ∈ chain bucket) : ∃ d, m.data p = some d := by
  obtain ⟨i, hi, rfl⟩ := List.getElem_of_mem hp
  have hall := List.forall₂_iff_get.mp (hr.entries bucket)
  obtain ⟨d, hd, -⟩ := hall.2 i hi (hall.1 ▸ hi)
  exact ⟨d, hd⟩

/-- Where the value of a key is, for the pointers that the table has given. -/
def Points (m : HashMem K V) (chain : ℕ → List ℕ) (key : K) (v : ℕ) : Prop :=
  ∃ x d, Chained chain x ∧ m.data x = some d ∧ d.2 = v ∧ m.keys d.1 = some key

/-- The table afterwards; the pointers to the values of some keys are still right. -/
structure Becomes (m m' : HashMem K V) (h' : Hash K V) (chain chain' : ℕ → List ℕ) (keep : K → Prop) : Prop where
  repr : Repr m' h' chain'
  buckets : m'.buckets = m.buckets
  hashFunc : m'.hashFunc = m.hashFunc
  points : ∀ k, keep k → ∀ v, m.Points chain k v → m'.Points chain' k v

theorem pushNode_run {bucket pNewNode : ℕ} {head : Option ℕ} (hlt : bucket < m.pNodes.length)
    (hnew : ∃ d, m.data pNewNode = some d) (hfree : m.next pNewNode = none)
    (hhead : ∀ x, head = some x → ∃ d, m.data x = some d) :
    ∃ m', m.pushNode bucket pNewNode head = .ok m' ∧ Relinked m m' ∧
      m'.pNodes = m.pNodes.set bucket (some pNewNode) ∧ m'.next = Function.update m.next pNewNode head ∧
      ∀ x, m'.prev x = if head = some x then some pNewNode else m.prev x := by
  obtain ⟨d, hd⟩ := hnew
  cases head with
  | none =>
    refine ⟨_, writeSlot_eq hlt _, ⟨rfl, rfl, rfl, rfl, rfl⟩, rfl, ?_, fun x => ?_⟩
    · rw [← hfree, Function.update_eq_self]
      rfl
    · rw [if_neg (Option.some_ne_none x).symm]
      rfl
  | some q =>
    obtain ⟨dq, hdq⟩ := hhead q rfl
    obtain ⟨m₁, hm₁, hrel₁, hslots₁, hnext₁, hprev₁⟩ := writeNext hd (some q)
    obtain ⟨m₂, hm₂, hrel₂, hslots₂, hnext₂, hprev₂⟩ := writePrev (m := m₁) (hrel₁.data ▸ hdq) (some pNewNode)
    have hslots : m₂.pNodes = m.pNodes := hslots₂.trans hslots₁
    have hlt₂ : bucket < m₂.pNodes.length := hslots ▸ hlt
    refine ⟨{ m₂ with pNodes := m₂.pNodes.set bucket (some pNewNode) }, ?_, ?_, ?_, ?_, fun x => ?_⟩
    · rw [pushNode, ok_bind hm₁, ok_bind hm₂, writeSlot_eq hlt₂]
    · have hrel := hrel₁.trans hrel₂
      exact ⟨hrel.buckets, hrel.hashFunc, hrel.data, hrel.keys, hrel.values⟩
    · rw [hslots]
    · exact hnext₂.trans hnext₁
    · show m₂.prev x = _
      rw [hprev₂, hprev₁]
      rcases eq_or_ne x q with rfl | hx
      · rw [Function.update_self, if_pos rfl]
      · rw [Function.update_of_ne hx, if_neg fun he => hx (Option.some.inj he).symm]

theorem linkFront_run {bucket : ℕ} (node : HashNode) {front : Option ℕ} (hbucket : m.hashGetBucket key = .ok bucket)
    (hlt : bucket < m.pNodes.length) (hfront : ∀ x, front = some x → ∃ d, m.data x = some d) :
    ∃ m', m.linkFront key node front = .ok m' ∧ Relinked m m' ∧
      m'.pNodes = (if front = none then m.pNodes.set bucket node.pNext else m.pNodes) ∧
      (∀ x, m'.next x = if front = some x then node.pNext else m.next x) ∧ m'.prev = m.prev := by
  cases front with
  | none =>
    refine ⟨_, (ok_bind hbucket _).trans (writeSlot_eq hlt _), ⟨rfl, rfl, rfl, rfl, rfl⟩, rfl, fun x => ?_, rfl⟩
    rw [if_neg (Option.some_ne_none x).symm]
    rfl
  | some q =>
    obtain ⟨d, hd⟩ := hfront q rfl
    obtain ⟨m₁, hm₁, hrel, hslots, hnext, hprev⟩ := writeNext hd node.pNext
    refine ⟨m₁, hm₁, hrel, hslots, fun x => ?_, hprev⟩
    rw [hnext]
    rcases eq_or_ne x q with rfl | hx
    · rw [Function.update_self, if_pos rfl]
    · rw [Function.update_of_ne hx, if_neg fun he => hx (Option.some.inj he).symm]

theorem linkBack_run (node : HashNode) {back : Option ℕ} (hback : ∀ x, back = some x → ∃ d, m.data x = some d) :
    ∃ m', m.linkBack node back = .ok m' ∧ Relinked m m' ∧ m'.pNodes = m.pNodes ∧ m'.next = m.next ∧
      ∀ x, m'.prev x = if back = some x then node.pPrev else m.prev x := by
  cases back with
  | none =>
    refine ⟨m, rfl, Relinked.refl m, rfl, rfl, fun x => ?_⟩
    rw [if_neg (Option.some_ne_none x).symm]
  | some q =>
    obtain ⟨d, hd⟩ := hback q rfl
    obtain ⟨m₁, hm₁, hrel, hslots, hnext, hprev⟩ := writePrev hd node.pPrev
    refine ⟨m₁, hm₁, hrel, hslots, hnext, fun x => ?_⟩
    rw [hprev]
    rcases eq_or_ne x q with rfl | hx
    · rw [Function.update_self, if_pos rfl]
    · rw [Function.update_of_ne hx, if_neg fun he => hx (Option.some.inj he).symm]

/-- What `hash_free_entry` does to the memory: the node goes, its neighbours are linked to each other. -/
structure Dropped (m m' : HashMem K V) (bucket p : ℕ) (d : ℕ × ℕ) : Prop where
  buckets : m'.buckets = m.buckets
  hashFunc : m'.hashFunc = m.hashFunc
  slots : m'.pNodes = if m.prev p = none then m.pNodes.set bucket (m.next p) else m.pNodes
  data : m'.data = Function.update m.data p none
  keys : m'.keys = Function.update m.keys d.1 none
  values : m'.values = Function.update m.values d.2 none
  next : ∀ x ≠ p, m'.next x = if m.prev p = some x then m.next p else m.next x
  prev : ∀ x ≠ p, m'.prev x = if m.next p = some x then m.prev p else m.prev x

theorem dropNode_run {bucket : ℕ} {d : ℕ × ℕ} (hd : m.data p = some d) (hkey : m.keys d.1 = some key)
    (hvalue : m.values d.2 = some value) (hbucket : m.hashGetBucket key = .ok bucket)
    (hlt : bucket < m.pNodes.length) (hfront : ∀ x, m.prev p = some x → x ≠ p ∧ ∃ d, m.data x = some d)
    (hback : ∀ x, m.next p = some x → ∃ d, m.data x = some d) :
    ∃ m', m.dropNode key (some p) = .ok m' ∧ Dropped m m' bucket p d := by
  let node : HashNode := ⟨d.1, d.2, m.prev p, m.next p⟩
  let m₁ : HashMem K V := { m with
    keys := Function.update m.keys d.1 none, values := Function.update m.values d.2 none }
  have hself : ¬ m.prev p = some p := fun he => (hfront p he).1 rfl
  obtain ⟨m₂, hm₂, hrel₂, hslots₂, hnext₂, hprev₂⟩ :=
    linkFront_run (m := m₁) node hbucket hlt fun x hx => (hfront x hx).2
  have hnext : m₂.next p = m.next p := by
    rw [hnext₂, if_neg hself]
    rfl
  have hd₂ : m₂.data p = some d := hrel₂.data ▸ hd
  have hnode₂ : m₂.nodes p = some node := by
    rw [nodes_eq hd₂, hprev₂, hnext]
    rfl
  have hback₂ : ∀ x, m.next p = some x → ∃ d, m₂.data x = some d := fun x hx => hrel₂.data ▸ hback x hx
  obtain ⟨m₃, hm₃, hrel₃, hslots₃, hnext₃, hprev₃⟩ := linkBack_run node hback₂
  have hrel := hrel₂.trans hrel₃
  refine ⟨{ m₃ with nodes := Function.update m₃.nodes p none }, ?_, hrel.buckets, hrel.hashFunc,
    hslots₃.trans hslots₂, ?_, hrel.keys, hrel.values, fun x hx => ?_, fun x hx => ?_⟩
  · have hd₃ : m₃.data p = some d := hrel.data ▸ hd
    have hfreeKey : m.freeKey d.1 = .ok { m with keys := Function.update m.keys d.1 none } :=
      ok_bind (load_eq hkey) _
    have hfreeValue : ({ m with keys := Function.update m.keys d.1 none } : HashMem K V).freeValue d.2 = .ok m₁ :=
      ok_bind (load_eq hvalue) _
    rw [dropNode, ok_bind (load_eq (nodes_eq hd)), ok_bind hfreeKey, ok_bind hfreeValue, ok_bind hm₂,
      ok_bind (load_eq hnode₂), ok_bind hm₃]
    exact ok_bind (load_eq (nodes_eq hd₃)) _
  · have hdata : m₃.data = m.data := hrel.data
    funext x
    rw [← hdata]
    rcases eq_or_ne x p with rfl | hx
    · simp [HashMem.data]
    · simp [HashMem.data, hx]
  · have hat : ({ m₃ with nodes := Function.update m₃.nodes p none } : HashMem K V).next x = m₃.next x := by
      simp [HashMem.next, hx]
    rw [hat, hnext₃, hnext₂]
    rfl
  · have hat : ({ m₃ with nodes := Function.update m₃.nodes p none } : HashMem K V).prev x = m₃.prev x := by
      simp [HashMem.prev, hx]
    rw [hat, hprev₃, hprev₂]
    rfl

/-! ### A search in both -/

section

variable [DecidableEq K] {h' : Hash K V}

theorem getNode_eq (hw : h.WF) (key : K) : h.hashGetNodeByKey key =
    .ok ((h.nodes.getD (h.hashFunc h.buckets key) []).find? (·.1 = key)) := by
  rw [Hash.hashGetNodeByKey, hw.getBucket]
  rfl

theorem addEntry_eq (hw : h.WF) (hadd : h.hashAddEntry key value = .ok h') :
    (∀ e ∈ h.nodes.getD (h.hashFunc h.buckets key) [], e.1 ≠ key) ∧
      h' = { h with nodes := h.nodes.modify (h.hashFunc h.buckets key) ((key, value) :: ·) } := by
  rw [Hash.hashAddEntry, Hash.hashLookupEntry, getNode_eq hw, hw.getBucket] at hadd
  cases hfind : (h.nodes.getD (h.hashFunc h.buckets key) []).find? (·.1 = key) with
  | none =>
    rw [hfind] at hadd
    refine ⟨?_, (Except.ok.inj hadd).symm⟩
    simpa using List.find?_eq_none.mp hfind
  | some e =>
    rw [hfind] at hadd
    cases hadd

theorem freeEntry_eq (hw : h.WF) (hfree : h.hashFreeEntry key = .ok h') :
    (∃ value, (h.nodes.getD (h.hashFunc h.buckets key) []).find? (·.1 = key) = some (key, value)) ∧
      h' = { h with nodes := h.nodes.modify (h.hashFunc h.buckets key) (·.eraseP (·.1 = key)) } := by
  rw [Hash.hashFreeEntry, getNode_eq hw, hw.getBucket] at hfree
  cases hfind : (h.nodes.getD (h.hashFunc h.buckets key) []).find? (·.1 = key) with
  | none =>
    rw [hfind] at hfree
    cases hfree
  | some e =>
    rw [hfind] at hfree
    have hkey : e.1 = key := by simpa using List.find?_some hfind
    refine ⟨⟨e.2, ?_⟩, (Except.ok.inj hfree).symm⟩
    rw [← hkey]

theorem Repr.lookup (hr : Repr m h chain) (hw : h.WF) (key : K) :
    ∃ p, Returns (m.hashLookupEntry key) p ∧ h.hashLookupEntry key = .ok (p.bind m.values) ∧
      ∀ v, p = some v → m.Points chain key v ∧ ∃ value, m.values v = some value := by
  cases hfind : (h.nodes.getD (h.hashFunc h.buckets key) []).find? (·.1 = key) with
  | none =>
    have habsent : ∀ e ∈ h.nodes.getD (h.hashFunc h.buckets key) [], e.1 ≠ key := by
      simpa using List.find?_eq_none.mp hfind
    refine ⟨none, (hr.getNode_none hw habsent).bind rfl, ?_, fun v hv => absurd hv (Option.some_ne_none v).symm⟩
    rw [Hash.hashLookupEntry, getNode_eq hw, hfind]
    rfl
  | some e =>
    obtain ⟨k, value⟩ := e
    have hk : k = key := by simpa using List.find?_some hfind
    subst hk
    obtain ⟨p, u, w, eu, ew, hs⟩ := hr.spot hfind
    obtain ⟨d, hd, hkey, hvalue⟩ := hs.here
    refine ⟨some d.2, (hr.getNode_some hw hs).bind (ok_bind (load_eq (nodes_eq hd)) _), ?_, ?_⟩
    · rw [Hash.hashLookupEntry, getNode_eq hw, hfind, Option.bind_some, hvalue]
      rfl
    · intro v hv
      have hp : p ∈ chain (h.hashFunc h.buckets k) := hs.nodes ▸ List.mem_append_right u List.mem_cons_self
      exact ⟨⟨p, d, ⟨_, hp⟩, hd, Option.some.inj hv, hkey⟩, value, Option.some.inj hv ▸ hvalue⟩

end

/-! ### A new node -/

/-- What `hash_add_entry` does to the memory. -/
structure Added (m m' : HashMem K V) (new : NewBlocks) (key : K) (value : V) (bucket : ℕ) (head : Option ℕ) :
    Prop where
  buckets : m'.buckets = m.buckets
  hashFunc : m'.hashFunc = m.hashFunc
  slots : m'.pNodes = m.pNodes.set bucket (some new.pNewNode)
  data : m'.data = Function.update m.data new.pNewNode (some (new.pKey, new.pValue))
  keys : m'.keys = Function.update m.keys new.pKey (some key)
  values : m'.values = Function.update m.values new.pValue (some value)
  next : m'.next = Function.update m.next new.pNewNode head
  prev : ∀ x, m'.prev x = if head = some x then some new.pNewNode else m.prev x

section

variable {new : NewBlocks} (hnew : m.Unused new)

include hnew

theorem Unused.node_ne (hd : m.data p = some d) : p ≠ new.pNewNode := by
  rintro rfl
  rw [HashMem.data, hnew.node] at hd
  cases hd

theorem Unused.key_ne (hk : m.keys p = some key) : p ≠ new.pKey := by
  rintro rfl
  rw [hnew.key] at hk
  cases hk

theorem Unused.value_ne (hv : m.values p = some value) : p ≠ new.pValue := by
  rintro rfl
  rw [hnew.value] at hv
  cases hv

theorem Unused.chained_ne (hr : Repr m h chain) (hp : Chained chain p) : p ≠ new.pNewNode := by
  obtain ⟨c, hc⟩ := hp
  obtain ⟨d, hd⟩ := hr.node hc
  exact hnew.node_ne hd

theorem Unused.pushNode {bucket : ℕ} {head : Option ℕ} (key : K) (value : V) (hlt : bucket < m.pNodes.length)
    (hhead : ∀ x, head = some x → ∃ d, m.data x = some d) : ∃ m', HashMem.pushNode { m with
      nodes := Function.update m.nodes new.pNewNode (some ⟨new.pKey, new.pValue, none, none⟩)
      keys := Function.update m.keys new.pKey (some key)
      values := Function.update m.values new.pValue (some value) } bucket new.pNewNode head = .ok m' ∧
    Added m m' new key value bucket head := by
  let m₁ : HashMem K V := { m with
    nodes := Function.update m.nodes new.pNewNode (some ⟨new.pKey, new.pValue, none, none⟩)
    keys := Function.update m.keys new.pKey (some key)
    values := Function.update m.values new.pValue (some value) }
  have hdata₁ : m₁.data = Function.update m.data new.pNewNode (some (new.pKey, new.pValue)) := by
    funext x
    rcases eq_or_ne x new.pNewNode with rfl | hx
    · simp [m₁, HashMem.data]
    · simp [m₁, HashMem.data, hx]
  have hnext₁ : m₁.next = m.next := by
    funext x
    rcases eq_or_ne x new.pNewNode with rfl | hx
    · simp [m₁, HashMem.next, hnew.node]
    · simp [m₁, HashMem.next, hx]
  have hprev₁ : m₁.prev = m.prev := by
    funext x
    rcases eq_or_ne x new.pNewNode with rfl | hx
    · simp [m₁, HashMem.prev, hnew.node]
    · simp [m₁, HashMem.prev, hx]
  have hhead₁ : ∀ x, head = some x → ∃ d, m₁.data x = some d := by
    intro x hx
    obtain ⟨d, hd⟩ := hhead x hx
    exact ⟨d, by rw [hdata₁, Function.update_of_ne (hnew.node_ne hd), hd]⟩
  have hfree : m₁.next new.pNewNode = none := by
    rw [hnext₁, HashMem.next, hnew.node]
    rfl
  obtain ⟨m', hrun, hrel, hslots, hnext, hprev⟩ :=
    pushNode_run (m := m₁) hlt ⟨_, by rw [hdata₁, Function.update_self]⟩ hfree hhead₁
  exact ⟨m', hrun, hrel.buckets, hrel.hashFunc, hslots, hrel.data.trans hdata₁, hrel.keys, hrel.values,
    hnext₁ ▸ hnext, hprev₁ ▸ hprev⟩

end

theorem Added.entry {new : NewBlocks} {bucket : ℕ} {head : Option ℕ} (ha : Added m m' new key value bucket head)
    (hnew : m.Unused new) {e : K × V} (he : m.Entry p e) : m'.Entry p e := by
  obtain ⟨d, hd, hk, hv⟩ := he
  refine ⟨d, ?_, ?_, ?_⟩
  · rw [ha.data, Function.update_of_ne (hnew.node_ne hd), hd]
  · rw [ha.keys, Function.update_of_ne (hnew.key_ne hk), hk]
  · rw [ha.values, Function.update_of_ne (hnew.value_ne hv), hv]

theorem chained_cons {bucket a : ℕ} :
    Chained (Function.update chain bucket (a :: chain bucket)) p ↔ p = a ∨ Chained chain p := by
  constructor
  · rintro ⟨c, hc⟩
    rcases eq_or_ne c bucket with rfl | hne
    · rw [Function.update_self] at hc
      exact (List.mem_cons.mp hc).imp_right fun hp => ⟨c, hp⟩
    · rw [Function.update_of_ne hne] at hc
      exact .inr ⟨c, hc⟩
  · rintro (rfl | ⟨c, hc⟩)
    · exact ⟨bucket, by rw [Function.update_self]; exact List.mem_cons_self⟩
    · rcases eq_or_ne c bucket with rfl | hne
      · exact ⟨c, by rw [Function.update_self]; exact List.mem_cons_of_mem a hc⟩
      · exact ⟨c, by rwa [Function.update_of_ne hne]⟩

/-- The blocks of a node are in use. -/
theorem Repr.blocks (hr : Repr m h chain) (hp : Chained chain p) (hd : m.data p = some d) :
    (∃ k, m.keys d.1 = some k) ∧ ∃ a, m.values d.2 = some a := by
  obtain ⟨c, hc⟩ := hp
  obtain ⟨i, hi, rfl⟩ := List.getElem_of_mem hc
  have hall := List.forall₂_iff_get.mp (hr.entries c)
  obtain ⟨d', hd', hk, hv⟩ := hall.2 i hi (hall.1 ▸ hi)
  obtain rfl : d = d' := Option.some.inj (hd.symm.trans hd')
  exact ⟨⟨_, hk⟩, _, hv⟩

theorem Repr.pushed {bucket : ℕ} {new : NewBlocks} (hr : Repr m h chain) (hnew : m.Unused new)
    (hlt : bucket < m.buckets) (ha : Added m m' new key value bucket (chain bucket).head?) :
    Repr m' { h with nodes := h.nodes.modify bucket ((key, value) :: ·) }
      (Function.update chain bucket (new.pNewNode :: chain bucket)) := by
  have hne : ∀ {x c}, x ∈ chain c → x ≠ new.pNewNode := fun hx => hnew.chained_ne hr ⟨_, hx⟩
  refine hr.change hlt ha.buckets ha.hashFunc ha.slots ?_ ?_ ?_ ?_ ?_ ?_
  · intro c hc x hx
    have hx' : ¬ (chain bucket).head? = some x := by
      intro he
      exact hc (hr.apart c bucket x hx (List.mem_of_head? he))
    refine ⟨⟨?_, ?_⟩, fun e => ha.entry hnew⟩
    · rw [ha.next, Function.update_of_ne (hne hx)]
    · rw [ha.prev, if_neg hx']
  · refine (hr.linked bucket).push (hr.nodup bucket) ?_ ?_ ?_ fun x _ => ha.prev x
    · rw [ha.next, Function.update_self]
    · have hhead : ¬ (chain bucket).head? = some new.pNewNode := fun he => hne (List.mem_of_head? he) rfl
      rw [ha.prev, if_neg hhead, HashMem.prev, hnew.node]
      rfl
    · intro x hx
      rw [ha.next, Function.update_of_ne (hne hx)]
  · exact List.nodup_cons.mpr ⟨fun hmem => hne hmem rfl, hr.nodup bucket⟩
  · intro x hx c hc hxc
    rcases List.mem_cons.mp hx with rfl | hx
    · exact hne hxc rfl
    · exact hc (hr.apart c bucket x hxc hx)
  · refine .cons ⟨(new.pKey, new.pValue), ?_, ?_, ?_⟩
      (forall₂_of_mem (hr.entries bucket) fun x _ e => ha.entry hnew)
    · rw [ha.data, Function.update_self]
    · rw [ha.keys, Function.update_self]
    · rw [ha.values, Function.update_self]
  · -- the blocks of the new node are those of no other
    have hold : ∀ {x d}, Chained chain x → m'.data x = some d → m.data x = some d ∧ d.1 ≠ new.pKey ∧
        d.2 ≠ new.pValue := by
      intro x d hx hd
      rw [ha.data, Function.update_of_ne (hnew.chained_ne hr hx)] at hd
      obtain ⟨⟨k, hk⟩, a, hv⟩ := hr.blocks hx hd
      exact ⟨hd, hnew.key_ne hk, hnew.value_ne hv⟩
    have hpNew : ∀ {d}, m'.data new.pNewNode = some d → d = (new.pKey, new.pValue) := by
      intro d hd
      rw [ha.data, Function.update_self] at hd
      exact (Option.some.inj hd).symm
    intro x y d d' hx hy hxy hd hd'
    rcases chained_cons.mp hx with rfl | hx <;> rcases chained_cons.mp hy with rfl | hy
    · exact absurd rfl hxy
    · obtain ⟨-, hk, hv⟩ := hold hy hd'
      rw [hpNew hd]
      exact ⟨hk.symm, hv.symm⟩
    · obtain ⟨-, hk, hv⟩ := hold hx hd
      rw [hpNew hd']
      exact ⟨hk, hv⟩
    · exact hr.own x y d d' hx hy hxy (hold hx hd).1 (hold hy hd').1

/-- **`hash_add_entry` in memory** puts the new node to the front of its chain. -/
theorem Repr.add [DecidableEq K] {h' : Hash K V} (hr : Repr m h chain) (hw : h.WF) {new : NewBlocks}
    (hnew : m.Unused new) (hadd : h.hashAddEntry key value = .ok h') :
    ∃ m' chain', Returns (m.hashAddEntry new key value) m' ∧ Becomes m m' h' chain chain' fun _ => True := by
  obtain ⟨habsent, rfl⟩ := addEntry_eq hw hadd
  have hlt := hr.bucket_lt hw key
  have hslot := hr.heads _ hlt
  have hlookup : Returns (m.hashLookupEntry key) none := (hr.getNode_none hw habsent).bind rfl
  obtain ⟨m', hrun, ha⟩ := hnew.pushNode key value (List.getElem?_eq_some_iff.mp hslot).1
    fun x hx => hr.node (List.mem_of_head? hx)
  refine ⟨m', _, ?_, hr.pushed hnew hlt ha, ha.buckets, ha.hashFunc, ?_⟩
  · refine hlookup.bind ((ok_bind (hr.getBucket hw key) _).trans ?_)
    exact (ok_bind (readSlot_eq hslot) _).trans hrun
  · rintro k - v ⟨x, d, hx, hd, hdv, hk⟩
    refine ⟨x, d, chained_cons.mpr (.inr hx), ?_, hdv, ?_⟩
    · rw [ha.data, Function.update_of_ne (hnew.node_ne hd), hd]
    · rw [ha.keys, Function.update_of_ne (hnew.key_ne hk), hk]

/-! ### A node less -/

theorem chained_shrink {bucket : ℕ} {l : List ℕ} (hl : ∀ x ∈ l, x ∈ chain bucket)
    (hp : Chained (Function.update chain bucket l) p) : Chained chain p := by
  obtain ⟨c, hc⟩ := hp
  rcases eq_or_ne c bucket with rfl | hne
  · rw [Function.update_self] at hc
    exact ⟨c, hl p hc⟩
  · rw [Function.update_of_ne hne] at hc
    exact ⟨c, hc⟩

theorem chained_rest {bucket : ℕ} (hnodes : chain bucket = u ++ p :: w) {x : ℕ} (hx : Chained chain x)
    (hne : x ≠ p) : Chained (Function.update chain bucket (u ++ w)) x := by
  obtain ⟨c, hc⟩ := hx
  rcases eq_or_ne c bucket with rfl | hcb
  · rw [hnodes] at hc
    refine ⟨c, ?_⟩
    rw [Function.update_self]
    rcases List.mem_append.mp hc with hu | hw
    · exact List.mem_append_left w hu
    · exact List.mem_append_right u (List.mem_of_ne_of_mem hne hw)
  · exact ⟨c, by rwa [Function.update_of_ne hcb]⟩

/-- The other nodes keep their entries. -/
theorem Dropped.entry {bucket q : ℕ} {d : ℕ × ℕ} (hx : Dropped m m' bucket p d) (hr : Repr m h chain)
    (hd : m.data p = some d) (hp : Chained chain p) (hq : Chained chain q) (hne : q ≠ p) {e : K × V}
    (he : m.Entry q e) : m'.Entry q e := by
  obtain ⟨d', hd', hk, hv⟩ := he
  obtain ⟨hkey, hvalue⟩ := hr.own q p d' d hq hp hne hd' hd
  refine ⟨d', ?_, ?_, ?_⟩
  · rw [hx.data, Function.update_of_ne hne, hd']
  · rw [hx.keys, Function.update_of_ne hkey, hk]
  · rw [hx.values, Function.update_of_ne hvalue, hv]

section

variable {bucket : ℕ} {d : ℕ × ℕ} (hr : Repr m h chain) (hnodes : chain bucket = u ++ p :: w)

include hr hnodes

/-- The neighbours of a node. -/
theorem Repr.neighbours : m.prev p = u.getLast? ∧ m.next p = w.head? ∧ p ∉ u ++ w ∧ (u ++ w).Nodup := by
  have hlinked := hr.linked bucket
  have hnodup := hr.nodup bucket
  rw [hnodes] at hlinked hnodup
  obtain ⟨hprev, hnext⟩ := hlinked.links
  rw [Option.or_none] at hprev
  obtain ⟨hp, hrest⟩ := List.nodup_middle.mp hnodup |> List.nodup_cons.mp
  exact ⟨hprev, hnext, hp, hrest⟩

theorem Repr.unlinked (hd : m.data p = some d) (hlt : bucket < m.buckets) {f : List (K × V) → List (K × V)}
    {eu ew : List (K × V)} (hu : List.Forall₂ m.Entry u eu) (hw : List.Forall₂ m.Entry w ew)
    (hf : f (h.nodes.getD bucket []) = eu ++ ew) (hx : Dropped m m' bucket p d) :
    Repr m' { h with nodes := h.nodes.modify bucket f } (Function.update chain bucket (u ++ w)) := by
  obtain ⟨hprev, hnext, hp, hnodup⟩ := hr.neighbours hnodes
  have hin : p ∈ chain bucket := hnodes ▸ List.mem_append_right u List.mem_cons_self
  have hsub : ∀ x ∈ u ++ w, x ∈ chain bucket := by
    intro x hx
    rw [hnodes]
    exact (List.sublist_cons_self p w).append_left u |>.subset hx
  have hne : ∀ x ∈ u ++ w, x ≠ p := by
    rintro x hx' rfl
    exact hp hx'
  have hentry : ∀ x ∈ u ++ w, ∀ e, m.Entry x e → m'.Entry x e := fun x hx' e he =>
    hx.entry hr hd ⟨bucket, hin⟩ ⟨bucket, hsub x hx'⟩ (hne x hx') he
  refine hr.change hlt hx.buckets hx.hashFunc ?_ ?_ ?_ hnodup ?_ ?_ ?_
  · rw [hx.slots, hprev, hnext]
    cases u with
    | nil => rfl
    | cons c u =>
      have hhead : m.pNodes[bucket]? = some (some c) := by rw [hr.heads bucket hlt, hnodes]; rfl
      obtain ⟨hb, hget⟩ := List.getElem?_eq_some_iff.mp hhead
      have hnone : ¬ (c :: u).getLast? = none := by simp
      show _ = m.pNodes.set bucket (some c)
      rw [if_neg hnone, ← hget, List.set_getElem_self]
  · intro c hc x hxc
    have hxb : x ∉ chain bucket := fun hxb => hc (hr.apart c bucket x hxc hxb)
    have hxp : x ≠ p := fun he => hxb (he ▸ hin)
    have hfront : ¬ u.getLast? = some x := by
      intro he
      exact hxb (hsub x (List.mem_append_left w (List.mem_of_getLast? he)))
    have hback : ¬ w.head? = some x := by
      intro he
      exact hxb (hsub x (List.mem_append_right u (List.mem_of_head? he)))
    refine ⟨⟨?_, ?_⟩, fun e => hx.entry hr hd ⟨bucket, hin⟩ ⟨c, hxc⟩ hxp⟩
    · rw [hx.next x hxp, hprev, if_neg hfront]
    · rw [hx.prev x hxp, hnext, if_neg hback]
  · have hlinked := hr.linked bucket
    have hnodup' := hr.nodup bucket
    rw [hnodes] at hlinked hnodup'
    refine hlinked.unlink hnodup' ?_ ?_
    · intro x hx'
      rw [hx.next x (hne x hx'), hprev, hnext]
    · intro x hx'
      rw [hx.prev x (hne x hx'), hprev, hnext, Option.or_none]
  · intro x hx' c hc hxc
    exact hc (hr.apart c bucket x hxc (hsub x hx'))
  · rw [hf]
    refine List.rel_append (forall₂_of_mem hu ?_) (forall₂_of_mem hw ?_)
    · exact fun x hx' => hentry x (List.mem_append_left w hx')
    · exact fun x hx' => hentry x (List.mem_append_right u hx')
  · intro x y dx dy hxc hyc hxy hdx hdy
    rw [hx.data] at hdx hdy
    have hold : ∀ {z dz}, Function.update m.data p none z = some dz → m.data z = some dz := by
      intro z dz hz
      rcases eq_or_ne z p with rfl | hzp
      · rw [Function.update_self] at hz
        cases hz
      · rwa [Function.update_of_ne hzp] at hz
    exact hr.own x y dx dy (chained_shrink hsub hxc) (chained_shrink hsub hyc) hxy (hold hdx) (hold hdy)

end

/-- **`hash_free_entry` in memory** takes the node out of its chain, wherever it stands. -/
theorem Repr.free [DecidableEq K] {h' : Hash K V} (hr : Repr m h chain) (hw : h.WF)
    (hfree : h.hashFreeEntry key = .ok h') :
    ∃ m' chain', Returns (m.hashFreeEntry key) m' ∧ Becomes m m' h' chain chain' (· ≠ key) := by
  obtain ⟨⟨value, hfind⟩, rfl⟩ := freeEntry_eq hw hfree
  obtain ⟨p, u, w, eu, ew, hs⟩ := hr.spot hfind
  obtain ⟨d, hd, hkey, hvalue⟩ := hs.here
  obtain ⟨hprev, hnext, hp, -⟩ := hr.neighbours hs.nodes
  have hlt := hr.bucket_lt hw key
  have hin : ∀ x ∈ u ++ w, ∃ d, m.data x = some d := by
    intro x hx
    have hsub : x ∈ u ++ p :: w := (List.sublist_cons_self p w).append_left u |>.subset hx
    exact hr.node (hs.nodes ▸ hsub)
  obtain ⟨m', hrun, hx⟩ := dropNode_run hd hkey hvalue (hr.getBucket hw key)
    (List.getElem?_eq_some_iff.mp (hr.heads _ hlt)).1
    (by
      intro x hx
      have hmem : x ∈ u ++ w := List.mem_append_left w (List.mem_of_getLast? (hprev ▸ hx))
      refine ⟨?_, hin x hmem⟩
      rintro rfl
      exact hp hmem)
    (fun x hx => hin x (List.mem_append_right u (List.mem_of_head? (hnext ▸ hx))))
  have herase : (h.nodes.getD (h.hashFunc h.buckets key) []).eraseP (·.1 = key) = eu ++ ew := by
    rw [hs.entries, List.eraseP_append_right _ (by simpa using hs.first)]
    simp
  refine ⟨m', _, (hr.getNode_some hw hs).bind hrun, hr.unlinked hs.nodes hd hlt hs.front hs.behind herase hx,
    hx.buckets, hx.hashFunc, ?_⟩
  rintro k hk v ⟨x, dx, hxc, hdx, hdv, hkx⟩
  have hpc : Chained chain p := ⟨_, hs.nodes ▸ List.mem_append_right u List.mem_cons_self⟩
  have hxp : x ≠ p := by
    rintro rfl
    obtain rfl : dx = d := Option.some.inj (hdx.symm.trans hd)
    exact hk (Option.some.inj (hkx.symm.trans hkey))
  have hkeys : dx.1 ≠ d.1 := (hr.own x p dx d hxc hpc hxp hdx hd).1
  refine ⟨x, dx, chained_rest hs.nodes hxc hxp, ?_, hdv, ?_⟩
  · rw [hx.data, Function.update_of_ne hxp, hdx]
  · rw [hx.keys, Function.update_of_ne hkeys, hkx]

/-! ### A value that is written -/

/-- The node behind a pointer that the table has given. -/
theorem Repr.spot_of_points {v : ℕ} (hr : Repr m h chain) (hw : h.WF) (hv : m.Points chain key v) :
    ∃ value p u w eu ew, Spot m h chain key value p u w eu ew ∧ ∃ k, m.data p = some (k, v) := by
  obtain ⟨p, d, ⟨c, hc⟩, hd, rfl, hk⟩ := hv
  obtain ⟨u, w, hnodes⟩ := List.append_of_mem hc
  have hall := hr.entries c
  rw [hnodes] at hall
  obtain ⟨eu, e, ew, hentries, hu, hp, hew⟩ := forall₂_cut hall.flip
  obtain ⟨d', hd', hk', hv'⟩ := hp
  obtain rfl : d = d' := Option.some.inj (hd.symm.trans hd')
  obtain rfl : key = e.1 := Option.some.inj (hk.symm.trans hk')
  have hchain : h.nodes[c]? = some (eu ++ e :: ew) := by
    rw [List.getD_eq_getElem?_getD] at hentries
    cases hat : h.nodes[c]? with
    | none =>
      rw [hat] at hentries
      simp at hentries
    | some es =>
      rw [hat] at hentries
      exact congrArg some hentries
  have hbucket : h.hashFunc h.buckets e.1 = c := hw.placed c _ hchain e (by simp)
  have hnodup : ((eu ++ e :: ew).map Prod.fst).Nodup := by
    have hsub := List.sublist_flatten_of_mem (List.mem_of_getElem? hchain)
    exact hw.nodup.sublist (hsub.map Prod.fst)
  have hfirst : ∀ e' ∈ eu, e'.1 ≠ e.1 := by
    rw [List.map_append, List.map_cons, List.nodup_append] at hnodup
    intro e' he'
    exact hnodup.2.2 e'.1 (List.mem_map_of_mem he') e.1 List.mem_cons_self
  rw [← hbucket] at hnodes hentries
  exact ⟨e.2, p, u, w, eu, ew, ⟨hnodes, hentries, hu.flip, ⟨d, hd, hk', hv'⟩, hew.flip, hfirst⟩, d.1, hd⟩

/-- **A value written in memory** is that of its key. -/
theorem Repr.store [DecidableEq K] {h' : Hash K V} {v : ℕ} (hr : Repr m h chain) (hw : h.WF)
    (hv : m.Points chain key v) (hstore : h.hashStore key value = .ok h') :
    ∃ m', m.writeValue v value = .ok m' ∧ Becomes m m' h' chain chain fun _ => True := by
  obtain ⟨old, p, u, w, eu, ew, hs, k, hd⟩ := hr.spot_of_points hw hv
  obtain ⟨d', hd', hkey, hold⟩ := hs.here
  obtain rfl : d' = (k, v) := Option.some.inj (hd'.symm.trans hd)
  rw [Hash.hashStore, hw.getBucket] at hstore
  obtain rfl := Except.ok.inj hstore
  have hlt := hr.bucket_lt hw key
  have hp : p ∈ chain (h.hashFunc h.buckets key) := hs.nodes ▸ List.mem_append_right u List.mem_cons_self
  let m' : HashMem K V := { m with values := Function.update m.values v (some value) }
  have hentry : ∀ x, Chained chain x → x ≠ p → ∀ e, m.Entry x e → m'.Entry x e := by
    rintro x hx hxp e ⟨d, hdx, hk, hvx⟩
    have hne : d.2 ≠ v := (hr.own x p d (k, v) hx ⟨_, hp⟩ hxp hdx hd).2
    exact ⟨d, hdx, hk, (Function.update_of_ne hne ..).trans hvx⟩
  have hslots : m'.pNodes = m.pNodes.set (h.hashFunc h.buckets key) (chain (h.hashFunc h.buckets key)).head? := by
    obtain ⟨hb, hget⟩ := List.getElem?_eq_some_iff.mp (hr.heads _ hlt)
    show m.pNodes = _
    rw [← hget, List.set_getElem_self]
  have hentries : List.Forall₂ m'.Entry (chain (h.hashFunc h.buckets key))
      ((h.nodes.getD (h.hashFunc h.buckets key) []).replaceF fun e =>
        if e.1 = key then some (key, value) else none) := by
    obtain ⟨-, -, hpuw, -⟩ := hr.neighbours hs.nodes
    have hmem : ∀ x ∈ u ++ w, Chained chain x ∧ x ≠ p := by
      intro x hx
      have hsub : x ∈ u ++ p :: w := (List.sublist_cons_self p w).append_left u |>.subset hx
      exact ⟨⟨_, hs.nodes ▸ hsub⟩, fun he => hpuw (he ▸ hx)⟩
    rw [hs.entries, Hash.replaceF_key hs.first, hs.nodes]
    refine List.rel_append (forall₂_of_mem hs.front ?_) (.cons ?_ (forall₂_of_mem hs.behind ?_))
    · intro x hx
      obtain ⟨hxc, hxp⟩ := hmem x (List.mem_append_left w hx)
      exact hentry x hxc hxp
    · exact ⟨(k, v), hd, hkey, Function.update_self ..⟩
    · intro x hx
      obtain ⟨hxc, hxp⟩ := hmem x (List.mem_append_right u hx)
      exact hentry x hxc hxp
  have hsame : Function.update chain (h.hashFunc h.buckets key) (chain (h.hashFunc h.buckets key)) = chain :=
    Function.update_eq_self _ _
  refine ⟨m', ok_bind (load_eq hold) _, ?_, rfl, rfl, fun k _ v hv => hv⟩
  rw [← hsame]
  refine hr.change hlt rfl rfl hslots ?_ (hr.linked _) (hr.nodup _) ?_ hentries ?_
  · intro c hc x hx
    have hxp : x ≠ p := by
      rintro rfl
      exact hc (hr.apart c _ x hx hp)
    exact ⟨⟨rfl, rfl⟩, hentry x ⟨c, hx⟩ hxp⟩
  · intro x hx c hc hxc
    exact hc (hr.apart c _ x hxc hx)
  · rw [hsame]
    exact hr.own

end HashMem

end CosFtp
