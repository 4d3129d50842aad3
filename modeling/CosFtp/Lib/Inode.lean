/-
# Names and inodes

A disk keeps file contents by inode and a directory from names to inodes. A
name is opened once and from then on the open file refers to the inode: a name
that is removed leaves the inode and its content to whoever holds it open, and
a name that is created again stands for another inode.

A write goes to the position of the open file, or to the end of the file if it
was opened for appending; past the end the gap is filled.

Key definitions: `Disk`, `OpenFile`, `writeAt`, `Disk.write`.
Key theorems: `writeAt_length`, `writeAt_writeAt`, `Disk.write_atEnd`.
-/
import Mathlib.Data.Nat.Notation
import Mathlib.Logic.Function.Basic
import Mathlib.Tactic.Set

namespace Inode

variable {ν α : Type}

/-- A directory of names and the contents of the inodes. -/
structure Disk (ν α : Type) where
  entry : ν → Option ℕ
  data : ℕ → List α
  /-- inodes from here on were never used -/
  next : ℕ
  entry_lt : ∀ n i, entry n = some i → i < next

/-- A file opened for writing. -/
structure OpenFile where
  inode : ℕ
  pos : ℕ := 0
  append : Bool := false
  deriving DecidableEq

/-- The content after a write of `bs` at `pos`. -/
def writeAt (zero : α) (content : List α) (pos : ℕ) (bs : List α) : List α :=
  content.take pos ++ List.replicate (pos - content.length) zero ++ bs ++ content.drop (pos + bs.length)

/-- A write at the end appends. -/
theorem writeAt_length (zero : α) (content bs : List α) :
    writeAt zero content content.length bs = content ++ bs := by
  simp [writeAt]

/-- Within the file a write replaces as many bytes as it has. -/
theorem writeAt_of_le (zero : α) {content : List α} {pos : ℕ} (h : pos ≤ content.length) (bs : List α) :
    writeAt zero content pos bs = content.take pos ++ bs ++ content.drop (pos + bs.length) := by
  simp [writeAt, Nat.sub_eq_zero_of_le h]

/-- Two writes, the second right behind the first, are one. -/
theorem writeAt_writeAt (zero : α) (content : List α) (pos : ℕ) (bs bs' : List α) :
    writeAt zero (writeAt zero content pos bs) (pos + bs.length) bs' =
      writeAt zero content pos (bs ++ bs') := by
  set front := content.take pos ++ List.replicate (pos - content.length) zero ++ bs with hfront
  have hlen : front.length = pos + bs.length := by
    simp only [hfront, List.length_append, List.length_take, List.length_replicate]
    omega
  have hfirst : writeAt zero content pos bs = front ++ content.drop (pos + bs.length) := rfl
  have hle : pos + bs.length ≤ (front ++ content.drop (pos + bs.length)).length := by
    rw [List.length_append]
    omega
  have htake : (front ++ content.drop (pos + bs.length)).take (pos + bs.length) = front := by
    rw [← hlen, List.take_left]
  have hrest : (front ++ content.drop (pos + bs.length)).drop (pos + bs.length + bs'.length) =
      content.drop (pos + (bs.length + bs'.length)) := by
    rw [List.drop_append, List.drop_eq_nil_of_le (by omega), List.drop_drop, hlen,
      Nat.add_sub_cancel_left, List.nil_append, Nat.add_assoc]
  rw [hfirst, writeAt_of_le zero hle, htake, hrest]
  simp [writeAt, hfront]

namespace Disk

/-- A disk with no file. -/
def empty : Disk ν α where
  entry := fun _ => none
  data := fun _ => []
  next := 0
  entry_lt := by
    intro n i h
    cases h

variable (d : Disk ν α)

/-- The content under a name. -/
def lookup (n : ν) : Option (List α) := (d.entry n).map d.data

/-- A new empty inode under a name. -/
def fresh [DecidableEq ν] (n : ν) : Disk ν α where
  entry := Function.update d.entry n (some d.next)
  data := Function.update d.data d.next []
  next := d.next + 1
  entry_lt := by
    intro m i h
    by_cases hm : m = n
    · subst hm
      rw [Function.update_self] at h
      obtain rfl := Option.some.inj h
      omega
    · rw [Function.update_of_ne hm] at h
      have := d.entry_lt m i h
      omega

/-- `open` with `O_CREAT`: the inode under the name, made if there is none. -/
def create [DecidableEq ν] (n : ν) : ℕ × Disk ν α :=
  match d.entry n with
  | some i => (i, d)
  | none => (d.next, d.fresh n)

/-- The name is taken off the directory. -/
def unlink [DecidableEq ν] (n : ν) : Disk ν α where
  entry := Function.update d.entry n none
  data := d.data
  next := d.next
  entry_lt := by
    intro m i h
    by_cases hm : m = n
    · subst hm
      rw [Function.update_self] at h
      cases h
    · rw [Function.update_of_ne hm] at h
      exact d.entry_lt m i h

/-- The content of an inode is replaced. -/
def setData (i : ℕ) (content : List α) : Disk ν α :=
  { d with data := Function.update d.data i content }

def truncate (i : ℕ) : Disk ν α := d.setData i []

/-- `write` on an open file. -/
def write (zero : α) (f : OpenFile) (bs : List α) : OpenFile × Disk ν α :=
  let pos := if f.append then (d.data f.inode).length else f.pos
  ({ f with pos := pos + bs.length }, d.setData f.inode (writeAt zero (d.data f.inode) pos bs))

@[simp] theorem data_setData_self (i : ℕ) (content : List α) : (d.setData i content).data i = content := by
  simp [setData]

@[simp] theorem entry_truncate (i : ℕ) : (d.truncate i).entry = d.entry := rfl

@[simp] theorem data_truncate_self (i : ℕ) : (d.truncate i).data i = [] := by simp [truncate]

/-- After `create` the name stands for the inode that was opened. -/
theorem entry_create [DecidableEq ν] (n : ν) : (d.create n).2.entry n = some (d.create n).1 := by
  unfold create
  cases h : d.entry n with
  | some i => exact h
  | none => simp [fresh]

/-- The inode that `create` opens is in use then. -/
theorem create_lt [DecidableEq ν] (n : ν) : (d.create n).1 < (d.create n).2.next := by
  unfold create
  cases h : d.entry n with
  | some i => exact d.entry_lt n i h
  | none => exact Nat.lt_succ_self d.next

theorem next_le_create [DecidableEq ν] (n : ν) : d.next ≤ (d.create n).2.next := by
  unfold create
  cases d.entry n with
  | some i => exact Nat.le_refl _
  | none => exact Nat.le_succ _

/-- `create` leaves what inodes hold. -/
theorem data_create [DecidableEq ν] (n : ν) {i : ℕ} (hi : i < d.next) : (d.create n).2.data i = d.data i := by
  unfold create
  cases d.entry n with
  | some j => rfl
  | none => exact Function.update_of_ne (Nat.ne_of_lt hi) _ _

/-- `create` leaves a name that is there. -/
theorem entry_create_of_some [DecidableEq ν] {n : ν} {i : ℕ} (h : d.entry n = some i) :
    (d.create n).2.entry = d.entry := by
  unfold create
  rw [h]

theorem data_setData_of_ne {i j : ℕ} (h : j ≠ i) (content : List α) :
    (d.setData i content).data j = d.data j := Function.update_of_ne h _ _

/-- Where the next write goes. -/
def offset (f : OpenFile) : ℕ := if f.append then (d.data f.inode).length else f.pos

theorem data_write (zero : α) (f : OpenFile) (bs : List α) :
    (d.write zero f bs).2.data f.inode = writeAt zero (d.data f.inode) (d.offset f) bs :=
  data_setData_self _ _ _

/-- The next write goes right behind it. -/
theorem offset_write (zero : α) (f : OpenFile) (bs : List α) :
    (d.write zero f bs).2.offset (d.write zero f bs).1 = d.offset f + bs.length := by
  by_cases ha : f.append = true
  · have hoff : d.offset f = (d.data f.inode).length := if_pos ha
    show (if f.append then ((d.write zero f bs).2.data f.inode).length else _) = _
    rw [if_pos ha, data_write, hoff, writeAt_length, List.length_append]
  · have hoff : d.offset f = f.pos := if_neg ha
    show (if f.append then _ else (d.write zero f bs).1.pos) = _
    rw [if_neg ha, hoff]
    simp only [write, if_neg ha]

/-- A file open at its end, or for appending. -/
def AtEnd (f : OpenFile) : Prop := f.append = true ∨ f.pos = (d.data f.inode).length

theorem AtEnd.offset_eq {d : Disk ν α} {f : OpenFile} (h : d.AtEnd f) :
    d.offset f = (d.data f.inode).length := by
  unfold offset
  split
  · rfl
  · rename_i ha
    exact h.resolve_left ha

/-- **A write to a file that stands at its end appends, and leaves it there.** -/
theorem write_atEnd (zero : α) {f : OpenFile} (h : d.AtEnd f) (bs : List α) :
    (d.write zero f bs).1.inode = f.inode ∧ (d.write zero f bs).1.append = f.append ∧
    (d.write zero f bs).2.data f.inode = d.data f.inode ++ bs ∧
    (d.write zero f bs).2.AtEnd (d.write zero f bs).1 := by
  have hdata : (d.write zero f bs).2.data f.inode = d.data f.inode ++ bs := by
    rw [data_write, h.offset_eq, writeAt_length]
  refine ⟨rfl, rfl, hdata, .inr ?_⟩
  show d.offset f + bs.length = ((d.write zero f bs).2.data f.inode).length
  rw [hdata, List.length_append, h.offset_eq]

@[simp] theorem entry_write (zero : α) (f : OpenFile) (bs : List α) :
    (d.write zero f bs).2.entry = d.entry := rfl

end Disk

end Inode
