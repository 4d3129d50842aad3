/-
# Sessions that store the same file

Sessions run `handle_upload_common` side by side on one local path, from the
create to the close, with `lock_upload_files` on and no restart position. One
step is one call that touches the file, its lock or its name, in the order of the
source. The lock is on the inode that was opened, while the create, the upload and
the unlink go by the name: a session that opened the file before another one
unlinked it locks an inode that no name leads to any more.

`InStep` says that this does not happen at a step, and `uploads_race` that along
runs whose steps are all so, whatever is sent is what was received.

Key definitions: `StorPhase`, `storStep`, `InStep`, `RaceInv`.
Key theorems: `RaceInv.step`, `uploads_race`.
-/
import CosFtp.Lib.Inode
import CosFtp.Lib.Run
import CosFtp.Str

namespace CosFtp

open Inode

/-! ### One session -/

/-- How far `handle_upload_common` has come. -/
inductive StorPhase where
  | start
  /-- the file is open -/
  | opened
  | locked
  /-- truncated and rewound -/
  | emptied
  /-- the data connection is there -/
  | receiving
  /-- received to the end, with the tries of the upload so far -/
  | received (tries : ℕ)
  /-- uploaded, and told so -/
  | stored
  /-- larger than the server allows, and told so -/
  | tooLarge
  /-- at `port_pasv_cleanup_out`; `unlinked` if the name has been removed for its size -/
  | leaving (success unlinked : Bool)
  | closing
  | closed
  deriving DecidableEq

/-- How the transfer ends: `retval` is 0, -3, or another error. -/
inductive RecvEnd where
  | whole
  | tooLarge
  | broken
  deriving DecidableEq

/-- The calls of a session that matter to the others, with their outcome. -/
inductive StorAct where
  | create (ok : Bool)
  | flock (granted : Bool)
  | ftruncate
  | connect (ok : Bool)
  | write (bs : Bytes)
  | recvEnd (result : RecvEnd)
  | upload (ok : Bool)
  | unlink (ok : Bool)
  | cleanup (ok : Bool)
  | close
  /-- the session ends where it is -/
  | die
  deriving DecidableEq

structure Stor where
  phase : StorPhase := .start
  file : OpenFile := { inode := 0 }
  /-- what it has received and written -/
  got : Bytes := []
  /-- what its upload stored, with the reply 226 -/
  uploaded : Option Bytes := none
  /-- the file was locked by another session -/
  refused : Bool := false
  deriving DecidableEq

/-- The sessions, the disk and the locks of its inodes. -/
structure Race where
  stor : ℕ → Stor := fun _ => {}
  disk : Disk (List Bytes) UInt8
  lock : ℕ → Option ℕ := fun _ => none

namespace Race

variable (c : Race) (s : ℕ)

def setStor (u : Stor) : Race := { c with stor := Function.update c.stor s u }

def goto (phase : StorPhase) : Race := c.setStor s { c.stor s with phase := phase }

/-- `str_unlink`, which may fail. -/
def unlink (name : List Bytes) (ok : Bool) : Race :=
  if ok then { c with disk := c.disk.unlink name } else c

/-- The descriptor is closed, and the lock goes with it. -/
def release : Race := { c with lock := fun i => if c.lock i = some s then none else c.lock i }

end Race

/-- One step of the session `s`. -/
def storStep (deleteFailedUploads : Bool) (name : List Bytes) (c : Race) : ℕ × StorAct → Option Race
  | (s, act) => match (c.stor s).phase, act with
    | .start, .create true =>
      some ({ c with disk := (c.disk.create name).2 }.setStor s
        { phase := .opened, file := { inode := (c.disk.create name).1 } })
    | .start, .create false => some (c.goto s .closed)
    | .opened, .flock true =>
      if c.lock (c.stor s).file.inode = none then
        some ({ c with lock := Function.update c.lock (c.stor s).file.inode (some s) }.goto s .locked)
      else none
    -- to keep the file from being removed, this counts as a success
    | .opened, .flock false => some (c.setStor s { c.stor s with phase := .leaving true false, refused := true })
    | .locked, .ftruncate =>
      some ({ c with disk := c.disk.truncate (c.stor s).file.inode }.setStor s
        { c.stor s with phase := .emptied, file := { (c.stor s).file with pos := 0 } })
    | .emptied, .connect true => some (c.goto s .receiving)
    | .emptied, .connect false => some (c.goto s (.leaving false false))
    | .receiving, .write bs =>
      some ({ c with disk := (c.disk.write 0 (c.stor s).file bs).2 }.setStor s
        { c.stor s with file := (c.disk.write 0 (c.stor s).file bs).1, got := (c.stor s).got ++ bs })
    | .receiving, .recvEnd .whole => some (c.goto s (.received 0))
    | .receiving, .recvEnd .tooLarge => some (c.goto s .tooLarge)
    | .receiving, .recvEnd .broken => some (c.goto s (.leaving false false))
    | .received _, .upload true => (c.disk.lookup name).map fun content =>
      c.setStor s { c.stor s with phase := .stored, uploaded := some content }
    | .received 0, .upload false => some (c.goto s (.received 1))
    | .received _, .upload false => some (c.goto s (.leaving false false))
    | .stored, .unlink ok => some ((c.unlink name ok).goto s (.leaving true true))
    | .tooLarge, .unlink ok => some ((c.unlink name ok).goto s (.leaving false true))
    | .leaving success _, .cleanup ok =>
      some ((if deleteFailedUploads && !success then c.unlink name ok else c).goto s .closing)
    | .closing, .close => some ((c.release s).goto s .closed)
    | .closed, .die => none
    | _, .die => some ((c.release s).goto s .closed)
    | _, _ => none

/-- The name and the inode of a session go together where it matters: a lock is
granted on the inode the name still leads to, and a name that was removed for the
file's size and is removed again has not been given to another inode. The second is
asked for whether failed uploads are deleted or not, of a branch that no upload takes
(`upload_limit_iff`). -/
def InStep (name : List Bytes) (c : Race) : ℕ × StorAct → Prop
  | (s, act) => match (c.stor s).phase, act with
    | .opened, .flock true => c.disk.entry name = some (c.stor s).file.inode
    | .leaving false true, .cleanup _ =>
      c.disk.entry name = some (c.stor s).file.inode ∨ c.disk.entry name = none
    | _, _ => True

instance (name : List Bytes) (c : Race) (a : ℕ × StorAct) : Decidable (InStep name c a) := by
  unfold InStep
  repeat' split
  all_goals infer_instance

/-! ### The invariant -/

namespace Stor

/-- Its descriptor holds the lock. -/
def Holds (u : Stor) : Prop := u.refused = false ∧
  match u.phase with
  | .start | .opened | .closed => False
  | _ => True

/-- Its own file is under the name. -/
def Named (u : Stor) : Prop := u.refused = false ∧
  match u.phase with
  | .locked | .emptied | .receiving | .received _ | .stored | .tooLarge | .leaving false false => True
  | _ => False

/-- What its file holds is known. -/
def Filled (u : Stor) : Prop :=
  match u.phase with
  | .emptied | .receiving | .received _ => True
  | _ => False

/-- Nothing has been received yet. -/
def Early (u : Stor) : Prop :=
  match u.phase with
  | .start | .opened | .locked => True
  | _ => False

/-- The upload is behind it. -/
def Late (u : Stor) : Prop :=
  match u.phase with
  | .stored | .leaving _ _ | .closing | .closed => True
  | _ => False

/-- It leaves without a claim to the file. -/
def Spared (u : Stor) : Prop :=
  match u.phase with
  | .leaving true false | .closing | .closed => True
  | _ => False

end Stor

/-- What is true of one session. -/
structure StorInv (name : List Bytes) (disk : Disk (List Bytes) UInt8) (u : Stor) : Prop where
  inode_lt : u.phase ≠ .start → u.phase ≠ .closed → u.file.inode < disk.next
  named : u.Named → disk.entry name = some u.file.inode
  filled : u.Filled → disk.data u.file.inode = u.got ∧ disk.AtEnd u.file
  early : u.Early → u.got = []
  late : u.uploaded ≠ none → u.Late
  spared : u.refused = true → u.Spared
  uploaded : ∀ content, u.uploaded = some content → content = u.got

/-- **What is true along a run in step.** -/
structure RaceInv (name : List Bytes) (c : Race) : Prop where
  stor : ∀ s, StorInv name c.disk (c.stor s)
  lock : ∀ s i, c.lock i = some s ↔ (c.stor s).Holds ∧ (c.stor s).file.inode = i

section

variable {name : List Bytes} {c c' : Race} {s t : ℕ} {u : Stor} {d d' : Disk (List Bytes) UInt8}

theorem Stor.Named.holds (h : u.Named) : u.Holds := by
  obtain ⟨hrefused, hphase⟩ := h
  refine ⟨hrefused, ?_⟩
  split
  all_goals simp_all

/-- A disk on which neither its name nor its content has changed does for a session. -/
theorem StorInv.frame (h : StorInv name d u) (hnext : d.next ≤ d'.next)
    (hentry : u.Named → d'.entry name = d.entry name)
    (hdata : u.Filled → d'.data u.file.inode = d.data u.file.inode) : StorInv name d' u := by
  refine ⟨?_, ?_, ?_, h.early, h.late, h.spared, h.uploaded⟩
  · intro hstart hclosed
    exact (h.inode_lt hstart hclosed).trans_le hnext
  · intro hnamed
    rw [hentry hnamed]
    exact h.named hnamed
  · intro hfilled
    obtain ⟨hgot, hend⟩ := h.filled hfilled
    have hsame := hdata hfilled
    refine ⟨hsame.trans hgot, ?_⟩
    unfold Disk.AtEnd at hend ⊢
    rw [hsame]
    exact hend

/-- While one session holds the inode under the name, no other has its file there. -/
theorem RaceInv.named_unique (h : RaceInv name c) (hs : (c.stor s).Holds)
    (hname : c.disk.entry name = some (c.stor s).file.inode) (ht : (c.stor t).Named) : t = s := by
  have hentry := (h.stor t).named ht
  have hinode : (c.stor t).file.inode = (c.stor s).file.inode := by
    rw [hname] at hentry
    exact (Option.some.inj hentry).symm
  have hlock_t := (h.lock t (c.stor s).file.inode).mpr ⟨ht.holds, hinode⟩
  have hlock_s := (h.lock s (c.stor s).file.inode).mpr ⟨hs, rfl⟩
  rw [hlock_s] at hlock_t
  exact (Option.some.inj hlock_t).symm

/-- A session moves on and the locks stay. -/
theorem RaceInv.move (h : RaceInv name c) (hown : StorInv name d' u)
    (hothers : ∀ t, t ≠ s → StorInv name d' (c.stor t))
    (hholds : ∀ i, (u.Holds ∧ u.file.inode = i) ↔ ((c.stor s).Holds ∧ (c.stor s).file.inode = i)) :
    RaceInv name ({ c with disk := d' }.setStor s u) := by
  constructor
  · intro t
    by_cases hts : t = s
    · subst hts
      simpa [Race.setStor] using hown
    · simpa [Race.setStor, hts] using hothers t hts
  · intro t i
    show c.lock i = some t ↔ _
    by_cases hts : t = s
    · subst hts
      simp only [Race.setStor, Function.update_self]
      rw [hholds i]
      exact h.lock t i
    · simp only [Race.setStor, Function.update_of_ne hts]
      exact h.lock t i

/-- A session moves on and nothing else changes. -/
theorem RaceInv.move_own (h : RaceInv name c) (hown : StorInv name c.disk u)
    (hholds : ∀ i, (u.Holds ∧ u.file.inode = i) ↔ ((c.stor s).Holds ∧ (c.stor s).file.inode = i)) :
    RaceInv name (c.setStor s u) := h.move hown (fun t _ => h.stor t) hholds

theorem StorInv.not_refused (h : StorInv name d u) (hspared : ¬ u.Spared) : u.refused = false := by
  by_contra hne
  exact hspared (h.spared (eq_true_of_ne_false hne))

theorem StorInv.not_uploaded (h : StorInv name d u) (hlate : ¬ u.Late) : u.uploaded = none := by
  by_contra hne
  exact hlate (h.late hne)

/-- What is true of a session is true in its next phase, if that asks for no more. -/
theorem StorInv.goto (h : StorInv name d u) {phase : StorPhase}
    (hopen : phase ≠ .closed → u.phase ≠ .start ∧ u.phase ≠ .closed)
    (hnamed : Stor.Named { u with phase := phase } → u.Named)
    (hfilled : Stor.Filled { u with phase := phase } → u.Filled)
    (hearly : ¬ Stor.Early { u with phase := phase })
    (hlate : u.Late → Stor.Late { u with phase := phase })
    (hspared : u.refused = true → Stor.Spared { u with phase := phase }) :
    StorInv name d { u with phase := phase } := by
  refine ⟨?_, fun hn => h.named (hnamed hn), fun hf => h.filled (hfilled hf), fun he => absurd he hearly,
    fun hu => hlate (h.late hu), hspared, h.uploaded⟩
  intro _ hclosed
  obtain ⟨hstart, hnot⟩ := hopen hclosed
  exact h.inode_lt hstart hnot

/-- A phase that the disk and the lock do not depend on. -/
theorem RaceInv.goto (h : RaceInv name c) {phase : StorPhase}
    (hopen : phase ≠ .closed → (c.stor s).phase ≠ .start ∧ (c.stor s).phase ≠ .closed)
    (hnamed : Stor.Named { c.stor s with phase := phase } → (c.stor s).Named)
    (hfilled : Stor.Filled { c.stor s with phase := phase } → (c.stor s).Filled)
    (hearly : ¬ Stor.Early { c.stor s with phase := phase })
    (hlate : (c.stor s).Late → Stor.Late { c.stor s with phase := phase })
    (hspared : (c.stor s).Spared → Stor.Spared { c.stor s with phase := phase })
    (hholds : Stor.Holds { c.stor s with phase := phase } ↔ (c.stor s).Holds) :
    RaceInv name (c.goto s phase) := by
  have hown := (h.stor s).goto hopen hnamed hfilled hearly hlate fun hr => hspared ((h.stor s).spared hr)
  exact h.move_own hown fun _ => and_congr_left' hholds

/-- The file is opened, or made. -/
theorem RaceInv.create (h : RaceInv name c) (hphase : (c.stor s).phase = .start) :
    RaceInv name ({ c with disk := (c.disk.create name).2 }.setStor s
      { phase := .opened, file := { inode := (c.disk.create name).1 } }) := by
  refine h.move ?_ ?_ ?_
  · refine ⟨fun _ _ => c.disk.create_lt name, ?_, ?_, fun _ => rfl, ?_, ?_, ?_⟩
    · exact fun hnamed => hnamed.2.elim
    · exact fun hfilled => hfilled.elim
    · exact fun hu => absurd rfl hu
    · intro hr
      cases hr
    · intro content hcontent
      cases hcontent
  · intro t _
    refine (h.stor t).frame (c.disk.next_le_create name) ?_ ?_
    · intro hnamed
      rw [c.disk.entry_create_of_some ((h.stor t).named hnamed)]
    · intro hfilled
      have hstart : (c.stor t).phase ≠ .start := by
        intro he
        simp [Stor.Filled, he] at hfilled
      have hclosed : (c.stor t).phase ≠ .closed := by
        intro he
        simp [Stor.Filled, he] at hfilled
      exact c.disk.data_create name ((h.stor t).inode_lt hstart hclosed)
  · intro i
    simp [Stor.Holds, hphase]

/-- A lock is granted on the inode under the name. -/
theorem RaceInv.flock (h : RaceInv name c) (hphase : (c.stor s).phase = .opened)
    (hfree : c.lock (c.stor s).file.inode = none)
    (hname : c.disk.entry name = some (c.stor s).file.inode) :
    RaceInv name ({ c with lock := Function.update c.lock (c.stor s).file.inode (some s) }.goto s .locked) := by
  have hlate : ¬ (c.stor s).Late := by simp [Stor.Late, hphase]
  have hspared : ¬ (c.stor s).Spared := by simp [Stor.Spared, hphase]
  have hearly : (c.stor s).Early := by simp [Stor.Early, hphase]
  have hrefused := (h.stor s).not_refused hspared
  have hown : StorInv name c.disk { c.stor s with phase := .locked } := by
    refine ⟨?_, fun _ => hname, fun hf => hf.elim, fun _ => (h.stor s).early hearly, ?_,
      ?_, (h.stor s).uploaded⟩
    · intro _ _
      exact (h.stor s).inode_lt (by simp [hphase]) (by simp [hphase])
    · exact fun hu => absurd ((h.stor s).late hu) hlate
    · exact fun hr => absurd ((h.stor s).spared hr) hspared
  constructor
  · intro t
    by_cases hts : t = s
    · subst hts
      simpa [Race.goto, Race.setStor] using hown
    · simpa [Race.goto, Race.setStor, hts] using h.stor t
  · intro t i
    show Function.update c.lock (c.stor s).file.inode (some s) i = some t ↔ _
    by_cases hi : i = (c.stor s).file.inode
    · rw [hi, Function.update_self]
      by_cases hts : t = s
      · subst hts
        simp [Race.goto, Race.setStor, Stor.Holds, hrefused]
      · -- the inode was free, so no other session holds it
        have hno : ¬ ((c.stor t).Holds ∧ (c.stor t).file.inode = (c.stor s).file.inode) := by
          rw [← h.lock t, hfree]
          simp
        simp only [Race.goto, Race.setStor, Function.update_of_ne hts]
        simp [hno, Ne.symm hts]
    · rw [Function.update_of_ne hi]
      by_cases hts : t = s
      · subst hts
        have hno : ¬ c.lock i = some t := by
          rw [h.lock t i]
          simp [Stor.Holds, hphase]
        simp [Race.goto, Race.setStor, hno, Ne.symm hi]
      · simp only [Race.goto, Race.setStor, Function.update_of_ne hts]
        exact h.lock t i

/-- The file is locked by another session. -/
theorem RaceInv.refuse (h : RaceInv name c) (hphase : (c.stor s).phase = .opened) :
    RaceInv name (c.setStor s { c.stor s with phase := .leaving true false, refused := true }) := by
  have hinode := (h.stor s).inode_lt (by simp [hphase]) (by simp [hphase])
  have hgot : (c.stor s).got = [] := (h.stor s).early (by simp [Stor.Early, hphase])
  refine h.move_own ?_ ?_
  · refine ⟨fun _ _ => hinode, fun hn => ?_, fun hf => hf.elim, fun _ => hgot, fun _ => trivial,
      fun _ => trivial, (h.stor s).uploaded⟩
    exact absurd hn.1 (by simp)
  · intro i
    simp [Stor.Holds, hphase]

/-- Another session's file is not the one that this session writes to. -/
theorem RaceInv.other_inode (h : RaceInv name c) (hs : (c.stor s).Named) (hts : t ≠ s)
    (ht : (c.stor t).Filled) : (c.stor t).file.inode ≠ (c.stor s).file.inode := by
  intro heq
  have hspared : ¬ (c.stor t).Spared := by
    unfold Stor.Filled at ht
    unfold Stor.Spared
    split at ht
    all_goals simp_all
  have hnamed : (c.stor t).Named := by
    refine ⟨(h.stor t).not_refused hspared, ?_⟩
    unfold Stor.Filled at ht
    split at ht
    all_goals simp_all
  exact hts (h.named_unique hs.holds ((h.stor s).named hs) hnamed)

/-- A change of the session's own file. -/
theorem RaceInv.setData (h : RaceInv name c) (hs : (c.stor s).Named) (content : Bytes)
    (hown : StorInv name (c.disk.setData (c.stor s).file.inode content) u)
    (hholds : u.Holds) (hinode : u.file.inode = (c.stor s).file.inode) :
    RaceInv name ({ c with disk := c.disk.setData (c.stor s).file.inode content }.setStor s u) := by
  refine h.move hown ?_ ?_
  · intro t hts
    refine (h.stor t).frame (Nat.le_refl _) (fun _ => rfl) ?_
    intro hfilled
    exact c.disk.data_setData_of_ne (h.other_inode hs hts hfilled) content
  · intro i
    rw [hinode]
    exact and_congr_left' (iff_of_true hholds hs.holds)

theorem RaceInv.ftruncate (h : RaceInv name c) (hphase : (c.stor s).phase = .locked) :
    RaceInv name ({ c with disk := c.disk.truncate (c.stor s).file.inode }.setStor s
      { c.stor s with phase := .emptied, file := { (c.stor s).file with pos := 0 } }) := by
  have hlate : ¬ (c.stor s).Late := by simp [Stor.Late, hphase]
  have hspared : ¬ (c.stor s).Spared := by simp [Stor.Spared, hphase]
  have hrefused := (h.stor s).not_refused hspared
  have hgot : (c.stor s).got = [] := (h.stor s).early (by simp [Stor.Early, hphase])
  have hnamed : (c.stor s).Named := ⟨hrefused, by simp [hphase]⟩
  refine h.setData hnamed [] ?_ ⟨hrefused, trivial⟩ rfl
  refine ⟨?_, fun _ => (h.stor s).named hnamed, ?_, fun he => he.elim, ?_, ?_,
    (h.stor s).uploaded⟩
  · intro _ _
    exact (h.stor s).inode_lt (by simp [hphase]) (by simp [hphase])
  · intro _
    have hempty : (c.disk.setData (c.stor s).file.inode []).data (c.stor s).file.inode = [] :=
      c.disk.data_setData_self _ _
    refine ⟨hempty.trans hgot.symm, .inr ?_⟩
    show 0 = List.length _
    rw [hempty]
    rfl
  · exact fun hu => absurd ((h.stor s).late hu) hlate
  · exact fun hr => absurd ((h.stor s).spared hr) hspared

theorem RaceInv.write (h : RaceInv name c) (hphase : (c.stor s).phase = .receiving) (bs : Bytes) :
    RaceInv name ({ c with disk := (c.disk.write 0 (c.stor s).file bs).2 }.setStor s
      { c.stor s with file := (c.disk.write 0 (c.stor s).file bs).1, got := (c.stor s).got ++ bs }) := by
  have hlate : ¬ (c.stor s).Late := by simp [Stor.Late, hphase]
  have hspared : ¬ (c.stor s).Spared := by simp [Stor.Spared, hphase]
  have hrefused := (h.stor s).not_refused hspared
  have hnone := (h.stor s).not_uploaded hlate
  have hnamed : (c.stor s).Named := ⟨hrefused, by simp [hphase]⟩
  obtain ⟨hgot, hend⟩ := (h.stor s).filled (by simp [Stor.Filled, hphase])
  obtain ⟨hinode, _, hdata, hend'⟩ := c.disk.write_atEnd 0 hend bs
  refine h.setData hnamed _ ?_ ⟨hrefused, by simp [hphase]⟩ hinode
  refine ⟨?_, fun _ => (h.stor s).named hnamed, ?_, ?_, ?_, ?_, ?_⟩
  · intro _ _
    exact (h.stor s).inode_lt (by simp [hphase]) (by simp [hphase])
  · intro _
    refine ⟨?_, hend'⟩
    rw [← hgot]
    exact hdata
  · intro hearly
    simp [Stor.Early, hphase] at hearly
  · exact fun hu => absurd ((h.stor s).late hu) hlate
  · exact fun hr => absurd ((h.stor s).spared hr) hspared
  · intro content hcontent
    rw [hnone] at hcontent
    cases hcontent

/-- What is under the name is uploaded. -/
theorem RaceInv.upload (h : RaceInv name c) {tries : ℕ} (hphase : (c.stor s).phase = .received tries)
    {content : Bytes} (hcontent : c.disk.lookup name = some content) :
    RaceInv name (c.setStor s { c.stor s with phase := .stored, uploaded := some content }) := by
  have hlate : ¬ (c.stor s).Late := by simp [Stor.Late, hphase]
  have hspared : ¬ (c.stor s).Spared := by simp [Stor.Spared, hphase]
  have hrefused := (h.stor s).not_refused hspared
  have hnamed : (c.stor s).Named := ⟨hrefused, by simp [hphase]⟩
  have hentry := (h.stor s).named hnamed
  obtain ⟨hgot, _⟩ := (h.stor s).filled (by simp [Stor.Filled, hphase])
  refine h.move_own ?_ ?_
  · refine ⟨?_, fun _ => hentry, fun hf => hf.elim, fun he => he.elim, fun _ => trivial,
      fun hr => absurd ((h.stor s).spared hr) hspared, ?_⟩
    · intro _ _
      exact (h.stor s).inode_lt (by simp [hphase]) (by simp [hphase])
    · intro found hfound
      have hdata : c.disk.data (c.stor s).file.inode = content := by
        rw [Disk.lookup, hentry] at hcontent
        exact Option.some.inj hcontent
      rw [← Option.some.inj hfound, ← hdata, hgot]
  · intro i
    exact and_congr_left' (iff_of_true ⟨hrefused, trivial⟩ hnamed.holds)

/-- The name is removed by the session whose file it is, or when there is none. -/
theorem RaceInv.unlink (h : RaceInv name c) (hs : (c.stor s).Holds)
    (hname : c.disk.entry name = some (c.stor s).file.inode ∨ c.disk.entry name = none) (ok : Bool)
    {phase : StorPhase} (hphase : phase = .closing ∨ ∃ success, phase = .leaving success true) :
    RaceInv name ((c.unlink name ok).goto s phase) := by
  have hnamed' : ¬ Stor.Named { c.stor s with phase := phase } := by
    intro hn
    rcases hphase with rfl | ⟨success, rfl⟩
    · exact hn.2
    · cases success <;> exact hn.2
  have hlate' : Stor.Late { c.stor s with phase := phase } := by
    rcases hphase with rfl | ⟨success, rfl⟩ <;> trivial
  have hfilled' : ¬ Stor.Filled { c.stor s with phase := phase } := by
    rcases hphase with rfl | ⟨success, rfl⟩ <;> exact fun hf => hf
  have hearly' : ¬ Stor.Early { c.stor s with phase := phase } := by
    rcases hphase with rfl | ⟨success, rfl⟩ <;> exact fun hf => hf
  have hholds' : Stor.Holds { c.stor s with phase := phase } := by
    rcases hphase with rfl | ⟨success, rfl⟩ <;> exact ⟨hs.1, trivial⟩
  have hopen : (c.stor s).phase ≠ .start ∧ (c.stor s).phase ≠ .closed := by
    constructor
    · intro he
      simp [Stor.Holds, he] at hs
    · intro he
      simp [Stor.Holds, he] at hs
  have hown : StorInv name c.disk { c.stor s with phase := phase } :=
    (h.stor s).goto (fun _ => hopen) (fun hn => absurd hn hnamed') (fun hf => absurd hf hfilled') hearly'
      (fun _ => hlate') fun hr => absurd (hs.1.symm.trans hr) (by decide)
  have hholds : ∀ i, (Stor.Holds { c.stor s with phase := phase } ∧ (c.stor s).file.inode = i) ↔
      ((c.stor s).Holds ∧ (c.stor s).file.inode = i) :=
    fun i => and_congr_left' (iff_of_true hholds' hs)
  cases ok with
  | false => exact h.move_own hown hholds
  | true =>
    refine h.move (hown.frame (Nat.le_refl _) (fun hn => absurd hn hnamed') fun _ => rfl) ?_ hholds
    intro t hts
    refine (h.stor t).frame (Nat.le_refl _) ?_ (fun _ => rfl)
    -- nobody else has its file under the name
    intro hnamed
    exfalso
    rcases hname with hname | hname
    · exact hts (h.named_unique hs hname hnamed)
    · rw [(h.stor t).named hnamed] at hname
      cases hname

/-- The descriptor is closed. -/
theorem RaceInv.release (h : RaceInv name c) : RaceInv name ((c.release s).goto s .closed) := by
  constructor
  · intro t
    by_cases hts : t = s
    · subst hts
      have hown : StorInv name c.disk { c.stor t with phase := .closed } :=
        (h.stor t).goto (fun hne => absurd rfl hne) (fun hn => hn.2.elim) (fun hf => hf.elim)
          (fun he => he) (fun _ => trivial) (fun _ => trivial)
      simpa [Race.goto, Race.setStor, Race.release] using hown
    · simpa [Race.goto, Race.setStor, Race.release, hts] using h.stor t
  · intro t i
    show (if c.lock i = some s then none else c.lock i) = some t ↔ _
    by_cases hts : t = s
    · subst hts
      have hno : ¬ (if c.lock i = some t then none else c.lock i) = some t := by
        split
        · exact nofun
        · assumption
      simp [Race.goto, Race.setStor, Stor.Holds, hno]
    · simp only [Race.goto, Race.setStor, Race.release, Function.update_of_ne hts]
      rw [← h.lock t i]
      split
      · rename_i hlock
        simp [hlock, Ne.symm hts]
      · rfl

/-- **One step in step keeps it.** -/
theorem RaceInv.step {deleteFailedUploads : Bool} {a : ℕ × StorAct} (h : RaceInv name c)
    (hin : InStep name c a) (hstep : storStep deleteFailedUploads name c a = some c') : RaceInv name c' := by
  obtain ⟨s, act⟩ := a
  simp only [storStep] at hstep
  simp only [InStep] at hin
  split at hstep
  next hphase =>
    rw [← Option.some.inj hstep]
    exact h.create hphase
  next hphase =>
    rw [← Option.some.inj hstep]
    apply h.goto
    all_goals simp [Stor.Named, Stor.Filled, Stor.Early, Stor.Late, Stor.Spared, Stor.Holds, hphase]
  next hphase =>
    split at hstep
    · rename_i hfree
      rw [← Option.some.inj hstep]
      rw [hphase] at hin
      exact h.flock hphase hfree hin
    · cases hstep
  next hphase =>
    rw [← Option.some.inj hstep]
    exact h.refuse hphase
  next hphase =>
    rw [← Option.some.inj hstep]
    exact h.ftruncate hphase
  iterate 2
    next hphase =>
      rw [← Option.some.inj hstep]
      apply h.goto
      all_goals simp [Stor.Named, Stor.Filled, Stor.Early, Stor.Late, Stor.Spared, Stor.Holds, hphase]
  next hphase =>
    rw [← Option.some.inj hstep]
    exact h.write hphase _
  iterate 3
    next hphase =>
      rw [← Option.some.inj hstep]
      apply h.goto
      all_goals simp [Stor.Named, Stor.Filled, Stor.Early, Stor.Late, Stor.Spared, Stor.Holds, hphase]
  next hphase =>
    obtain ⟨content, hcontent, rfl⟩ := Option.map_eq_some_iff.mp hstep
    exact h.upload hphase hcontent
  iterate 2
    next hphase =>
      rw [← Option.some.inj hstep]
      apply h.goto
      all_goals simp [Stor.Named, Stor.Filled, Stor.Early, Stor.Late, Stor.Spared, Stor.Holds, hphase]
  iterate 2
    next hphase =>
      have hrefused := (h.stor s).not_refused (by simp [Stor.Spared, hphase])
      have hnamed : (c.stor s).Named := ⟨hrefused, by simp [hphase]⟩
      rw [← Option.some.inj hstep]
      exact h.unlink hnamed.holds (.inl ((h.stor s).named hnamed)) _ (.inr ⟨_, rfl⟩)
  next success unlinked ok hphase =>
    rw [← Option.some.inj hstep]
    by_cases hdelete : (deleteFailedUploads && !success) = true
    · rw [if_pos hdelete]
      obtain rfl : success = false := by simpa using (Bool.and_eq_true_iff.mp hdelete).2
      have hrefused := (h.stor s).not_refused (by simp [Stor.Spared, hphase])
      have hholds : (c.stor s).Holds := ⟨hrefused, by simp [hphase]⟩
      refine h.unlink hholds ?_ _ (.inl rfl)
      cases unlinked with
      | false => exact .inl ((h.stor s).named ⟨hrefused, by simp [hphase]⟩)
      | true =>
        rw [hphase] at hin
        exact hin
    · rw [if_neg hdelete]
      apply h.goto
      all_goals simp [Stor.Named, Stor.Filled, Stor.Early, Stor.Late, Stor.Spared, Stor.Holds, hphase]
  next =>
    rw [← Option.some.inj hstep]
    exact h.release
  next => cases hstep
  next =>
    rw [← Option.some.inj hstep]
    exact h.release
  next => cases hstep

end

/-! ### A refused session -/

/-- What a step leaves to the sessions that have the file: what inodes hold, and the
name if there is one. -/
structure Harmless (name : List Bytes) (c c' : Race) : Prop where
  data : ∀ i, i < c.disk.next → c'.disk.data i = c.disk.data i
  entry : ∀ i, c.disk.entry name = some i → c'.disk.entry name = some i

/-- It got the lock. -/
def Stor.Granted (u : Stor) : Prop := u.refused = false ∧ u.phase ≠ .start ∧ u.phase ≠ .opened

section

variable {name : List Bytes} {c c' : Race} {deleteFailedUploads : Bool}

theorem Harmless.refl (name : List Bytes) (c : Race) : Harmless name c c := ⟨fun _ _ => rfl, fun _ h => h⟩

/-- What one step of a session does to it and to the disk. A session that is
refused leaves without a claim to the file, one that got the lock is never refused
later, and only those that got it do any harm. -/
structure StorMove (name : List Bytes) (c : Race) (s : ℕ) (c1 : Race) (u : Stor) : Prop where
  others : c1.stor = c.stor
  spared : ((c.stor s).refused = true → (c.stor s).Spared) → u.refused = true → u.Spared
  granted : (c.stor s).Granted → u.Granted
  harmless : ((c.stor s).refused = true → (c.stor s).Spared) → Harmless name c c1 ∨ u.Granted

theorem storMove_goto {s : ℕ} {phase : StorPhase} {c1 : Race} (hothers : c1.stor = c.stor)
    (hdisk : c1.disk = c.disk) (hspared : (c.stor s).Spared → Stor.Spared { c.stor s with phase := phase })
    (hphase : phase ≠ .start ∧ phase ≠ .opened) :
    StorMove name c s c1 { c.stor s with phase := phase } := by
  refine ⟨hothers, fun h hr => hspared (h hr), fun hg => ⟨hg.1, hphase⟩, fun _ => .inl ?_⟩
  constructor
  · intro i _
    rw [hdisk]
  · intro i hi
    rw [hdisk]
    exact hi

/-- What a session that got the lock does. -/
theorem storMove_granted {s : ℕ} {c1 : Race} {u : Stor} (hothers : c1.stor = c.stor)
    (hspared : ¬ (c.stor s).Spared) (hrefused : u.refused = (c.stor s).refused)
    (hphase : u.phase ≠ .start ∧ u.phase ≠ .opened) : StorMove name c s c1 u := by
  have hnot : ((c.stor s).refused = true → (c.stor s).Spared) → u.refused = false := by
    intro h
    rw [hrefused]
    by_contra hne
    exact hspared (h (eq_true_of_ne_false hne))
  refine ⟨hothers, ?_, ?_, fun h => .inr ⟨hnot h, hphase⟩⟩
  · intro h hr
    exact absurd (hnot h) (by simp [hr])
  · exact fun hg => ⟨hrefused.trans hg.1, hphase⟩

theorem unlink_stor (c : Race) (ok : Bool) : (c.unlink name ok).stor = c.stor := by
  cases ok <;> rfl

/-- Each step is such a move. -/
theorem storStep_move {s : ℕ} {act : StorAct} (hstep : storStep deleteFailedUploads name c (s, act) = some c') :
    ∃ c1 u, c' = c1.setStor s u ∧ StorMove name c s c1 u := by
  simp only [storStep] at hstep
  split at hstep
  next hphase =>
    refine ⟨_, _, (Option.some.inj hstep).symm, rfl, ?_, ?_, fun _ => .inl ?_⟩
    · intro _ hr
      cases hr
    · intro hg
      exact absurd hphase hg.2.1
    · exact ⟨fun i hi => c.disk.data_create name hi, fun i hi => by rw [c.disk.entry_create_of_some hi, hi]⟩
  next hphase =>
    exact ⟨_, _, (Option.some.inj hstep).symm, storMove_goto rfl rfl (fun _ => trivial) (by simp)⟩
  next hphase =>
    split at hstep
    · exact ⟨_, _, (Option.some.inj hstep).symm, storMove_goto rfl rfl (by simp [Stor.Spared, hphase]) (by simp)⟩
    · cases hstep
  next hphase =>
    refine ⟨_, _, (Option.some.inj hstep).symm, rfl, fun _ _ => trivial, ?_, fun _ => .inl (.refl name c)⟩
    intro hg
    exact absurd hphase hg.2.2
  next hphase =>
    exact ⟨_, _, (Option.some.inj hstep).symm, storMove_granted rfl (by simp [Stor.Spared, hphase]) rfl (by simp)⟩
  iterate 2
    next hphase =>
      exact ⟨_, _, (Option.some.inj hstep).symm, storMove_goto rfl rfl (by simp [Stor.Spared, hphase]) (by simp)⟩
  next hphase =>
    refine ⟨_, _, (Option.some.inj hstep).symm, storMove_granted rfl (by simp [Stor.Spared, hphase]) rfl ?_⟩
    simp [hphase]
  iterate 3
    next hphase =>
      exact ⟨_, _, (Option.some.inj hstep).symm, storMove_goto rfl rfl (by simp [Stor.Spared, hphase]) (by simp)⟩
  next hphase =>
    obtain ⟨content, _, hc'⟩ := Option.map_eq_some_iff.mp hstep
    exact ⟨_, _, hc'.symm, storMove_granted rfl (by simp [Stor.Spared, hphase]) rfl (by simp)⟩
  iterate 2
    next hphase =>
      exact ⟨_, _, (Option.some.inj hstep).symm, storMove_goto rfl rfl (by simp [Stor.Spared, hphase]) (by simp)⟩
  iterate 2
    next hphase =>
      have hc' := (Option.some.inj hstep).symm
      rw [Race.goto, unlink_stor] at hc'
      exact ⟨_, _, hc', storMove_granted (unlink_stor c _) (by simp [Stor.Spared, hphase]) rfl (by simp)⟩
  next success unlinked ok hphase =>
    have hc' := (Option.some.inj hstep).symm
    by_cases hdelete : (deleteFailedUploads && !success) = true
    · obtain rfl : success = false := by simpa using (Bool.and_eq_true_iff.mp hdelete).2
      rw [if_pos hdelete, Race.goto, unlink_stor] at hc'
      exact ⟨_, _, hc', storMove_granted (unlink_stor c _) (by simp [Stor.Spared, hphase]) rfl (by simp)⟩
    · rw [if_neg hdelete] at hc'
      exact ⟨_, _, hc', storMove_goto rfl rfl (fun _ => trivial) (by simp)⟩
  next => exact ⟨_, _, (Option.some.inj hstep).symm, storMove_goto rfl rfl (fun _ => trivial) (by simp)⟩
  next => cases hstep
  next => exact ⟨_, _, (Option.some.inj hstep).symm, storMove_goto rfl rfl (fun _ => trivial) (by simp)⟩
  next => cases hstep

/-- What is true of a session's own state is kept by every step if it is by those
of the session. -/
theorem storStep_keeps {P : Stor → Prop} {t : ℕ} (hown : ∀ c1 u, StorMove name c t c1 u → P u)
    (h : P (c.stor t)) {a : ℕ × StorAct} (hstep : storStep deleteFailedUploads name c a = some c') :
    P (c'.stor t) := by
  obtain ⟨s, act⟩ := a
  obtain ⟨c1, u, rfl, hmove⟩ := storStep_move hstep
  by_cases hts : t = s
  · subst hts
    rw [show (c1.setStor t u).stor t = u from Function.update_self _ _ _]
    exact hown c1 u hmove
  · rw [show (c1.setStor s u).stor t = c1.stor t from Function.update_of_ne hts _ _, hmove.others]
    exact h

end

/-! ### Whole runs -/

/-- All sessions are about to start. -/
def Race.start (disk : Disk (List Bytes) UInt8) : Race := { disk := disk }

theorem raceInv_start (name : List Bytes) (disk : Disk (List Bytes) UInt8) : RaceInv name (Race.start disk) := by
  constructor
  · intro s
    refine ⟨fun hne => absurd rfl hne, fun hn => hn.2.elim, fun hf => hf.elim, fun _ => rfl,
      fun hu => absurd rfl hu, ?_, ?_⟩
    · intro hr
      cases hr
    · intro content hcontent
      cases hcontent
  · intro s i
    simp [Race.start, Stor.Holds]

/-- **Uploads of one path, in any order of their steps.** In a run whose locks are
granted on the inode that is under the name, each session that answers 226 has
uploaded what it received. And in every run, no step of a session that is refused
changes what a file holds or removes the name. -/
theorem uploads_race (deleteFailedUploads : Bool) (name : List Bytes) (disk : Disk (List Bytes) UInt8)
    (acts : List (ℕ × StorAct)) :
    (∀ c, Run.Along (storStep deleteFailedUploads name) (InStep name) (.start disk) acts →
      Run.run (storStep deleteFailedUploads name) (.start disk) acts = some c →
      ∀ s content, (c.stor s).uploaded = some content → content = (c.stor s).got) ∧
    ∀ (s : ℕ) (act : StorAct) (acts1 acts2 : List (ℕ × StorAct)) (c1 c2 c : Race),
      acts = acts1 ++ (s, act) :: acts2 →
      Run.run (storStep deleteFailedUploads name) (.start disk) acts1 = some c1 →
      storStep deleteFailedUploads name c1 (s, act) = some c2 →
      Run.run (storStep deleteFailedUploads name) c2 acts2 = some c →
      (c.stor s).refused = true → Harmless name c1 c2 := by
  constructor
  · intro c halong hrun s content
    have hinv : RaceInv name c :=
      Run.run_keeps (fun _ _ _ h hin hstep => h.step hin hstep) acts _ c (raceInv_start name disk) halong hrun
    exact (hinv.stor s).uploaded content
  · intro s act acts1 acts2 c1 c2 c _ hrun1 hstep hrun2 hrefused
    have hspared : (c1.stor s).refused = true → (c1.stor s).Spared := by
      refine Run.run_invariant (I := fun c => (c.stor s).refused = true → (c.stor s).Spared) ?_ ?_ hrun1
      · intro c0 a c0' h hstep0
        exact storStep_keeps (P := fun u => u.refused = true → u.Spared) (fun _ _ hm => hm.spared h) h hstep0
      · intro hr
        cases hr
    obtain ⟨c3, u, rfl, hmove⟩ := storStep_move hstep
    rcases hmove.harmless hspared with hharm | hgranted
    · exact ⟨hharm.data, hharm.entry⟩
    · -- it got the lock, so it is not refused at the end either
      have hend : (c.stor s).Granted := by
        refine Run.run_invariant (I := fun c => (c.stor s).Granted) ?_ ?_ hrun2
        · intro c0 a c0' h hstep0
          exact storStep_keeps (P := Stor.Granted) (fun _ _ hm => hm.granted h) h hstep0
        · rw [show (c3.setStor s u).stor s = u from Function.update_self _ _ _]
          exact hgranted
      exact absurd hend.1 (by simp [hrefused])

/-- A session that comes while another one receives, and one that comes later. -/
def uploadsInStep : List (ℕ × StorAct) :=
  [(0, .create true), (0, .flock true), (0, .ftruncate), (0, .connect true), (0, .write [1]),
    (1, .create true), (1, .flock false), (0, .write [4]), (1, .cleanup true), (1, .close),
    (0, .recvEnd .whole), (0, .upload true), (0, .unlink true), (0, .cleanup true), (0, .close),
    (2, .create true), (2, .flock true), (2, .ftruncate), (2, .connect true), (2, .write [3]),
    (2, .recvEnd .whole), (2, .upload true)]

theorem uploads_race_in_step :
    Run.Along (storStep true [text "x"]) (InStep [text "x"]) (.start .empty) uploadsInStep ∧
    (Run.run (storStep true [text "x"]) (.start .empty) uploadsInStep).map
      (fun c => ((c.stor 0).uploaded, (c.stor 1).refused, (c.stor 2).uploaded)) =
        some (some [1, 4], true, some [3]) ∧
    ∀ c, Run.run (storStep true [text "x"]) (.start .empty) uploadsInStep = some c →
      ∀ s content, (c.stor s).uploaded = some content → content = (c.stor s).got := by
  have halong : Run.Along (storStep true [text "x"]) (InStep [text "x"]) (.start .empty) uploadsInStep := by
    decide +kernel
  refine ⟨halong, by decide +kernel, ?_⟩
  intro c hrun
  exact (uploads_race true [text "x"] .empty uploadsInStep).1 c halong hrun

/-- The second session opens the file before the first one is done with it, and a
third one makes a new file under the name. -/
def threeUploads : List (ℕ × StorAct) :=
  [(0, .create true), (0, .flock true), (0, .ftruncate), (0, .connect true), (0, .write [1]), (0, .recvEnd .whole),
    (1, .create true),
    (0, .upload true), (0, .unlink true), (0, .cleanup true), (0, .close),
    (1, .flock true), (1, .ftruncate), (1, .connect true), (1, .write [2]), (1, .recvEnd .whole),
    (2, .create true), (2, .flock true), (2, .ftruncate), (2, .connect true), (2, .write [3]),
    (1, .upload true)]

/-- The second session stores what the third one received, and answers 226. -/
theorem second_upload_stores_third :
    (Run.run (storStep false [text "x"]) (.start .empty) threeUploads).map
      (fun c => ((c.stor 1).got, (c.stor 1).uploaded)) = some ([2], some [3]) := by
  decide +kernel

end CosFtp
