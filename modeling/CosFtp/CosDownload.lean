/-
# FileDownload

The COS SDK downloads a piece of an object with many requests at a time: the
piece is cut into ranges of 1 MiB, a task asks for each of them, and a pool of
threads runs the tasks. A task copies what it was answered to the place of its
range in the caller's buffer, and records the status of the answer and how much
it copied, for `FileDownload` to look at once all tasks are done.

The tasks are jobs of `Pool`, byte by byte. Every step of a task writes to what
is the task's own (`TaskStep.owner`), so the order in which the threads run
does not matter (`exec_schedule`), and what a download leaves is known exactly,
whatever is answered. Where COS serves each range of an object, that is the
part of the object that `do_file_send_rwloop` takes it for.

Key definitions: `downloadTasks`, `FileDownloadTask.run`, `fileDownload`,
`ServesRange`.
Key theorems: `exec_schedule`, `fileDownload_any_order`.
-/
import CosFtp.Lib.Pool
import CosFtp.Send

namespace CosFtp
namespace Sdk

open Pool

/-- What a GET request comes to: the HTTP status, or -1 without an answer, and the body. -/
structure HttpAnswer where
  httpCode : ℤ
  body : Bytes

/-- `DEFAULT_DOWN_RANGE_SIZE`. -/
def defaultDownRangeSize : ℕ := 1 * 1024 * 1024

instance : NeZero defaultDownRangeSize := ⟨by decide⟩

/-- What a `FileDownloadTask` is set to; `downBuf` is the place in the caller's buffer. -/
structure FileDownloadTask where
  downBuf : ℕ
  rangeStart : ℕ
  rangeEnd : ℕ
  deriving DecidableEq

/-- What the tasks write to: the caller's buffer, and the members of the tasks by their number. -/
structure TaskMem where
  buffer : ℕ → UInt8
  retcode : ℕ → ℤ
  downloadSize : ℕ → ℕ

inductive TaskStep where
  | retcode (i : ℕ) (code : ℤ)
  | copy (pos : ℕ) (b : UInt8)
  | downloadSize (i : ℕ) (len : ℕ)

def TaskMem.exec (m : TaskMem) : TaskStep → TaskMem
  | .retcode i code => { m with retcode := Function.update m.retcode i code }
  | .copy pos b => { m with buffer := Function.update m.buffer pos b }
  | .downloadSize i len => { m with downloadSize := Function.update m.downloadSize i len }

/-- The `memcpy` of a task. -/
def copySteps (pos : ℕ) : Bytes → List TaskStep
  | [] => []
  | b :: bs => .copy pos b :: copySteps (pos + 1) bs

/-- `FileDownloadTask::run` of the task numbered `i`. The body is copied whatever the status. -/
def FileDownloadTask.run (task : FileDownloadTask) (i : ℕ) (answer : HttpAnswer) : List TaskStep :=
  let bufMaxSize := task.rangeEnd - task.rangeStart + 1
  let body := answer.body.take bufMaxSize
  .retcode i answer.httpCode :: (copySteps task.downBuf body ++ [.downloadSize i body.length])

/-- `FileDownloadTask::taskSuccess`. -/
def taskSuccess (retcode : ℤ) : Bool := retcode = 200 ∨ retcode = 206

/-- The tasks of the `while` loop. Offsets are those of a file, which `long long` holds. -/
def downloadTasks (rangeSize : ℕ) [NeZero rangeSize] (origin offsetEnd offset : ℕ) : List FileDownloadTask :=
  if offset < offsetEnd then
    let rangeEnd := offset + rangeSize - 1
    if offsetEnd ≤ rangeEnd then
      ⟨offset - origin, offset, offsetEnd - 1⟩ :: downloadTasks rangeSize origin offsetEnd offsetEnd
    else ⟨offset - origin, offset, rangeEnd⟩ :: downloadTasks rangeSize origin offsetEnd (rangeEnd + 1)
  else []
termination_by offsetEnd - offset
decreasing_by
  · omega
  · have hpos := Nat.pos_of_ne_zero (NeZero.ne rangeSize)
    omega

/-- What the threads have to run, where the task numbered `i` is answered `answers i`. -/
def downloadJobs (rangeSize : ℕ) [NeZero rangeSize] (answers : ℕ → HttpAnswer) (bufLen offset : ℕ) :
    List (List TaskStep) :=
  (downloadTasks rangeSize offset (offset + bufLen) offset).mapIdx fun i task => task.run i (answers i)

/-- The loop over the tasks that are done: whether one failed, and how much the others got. -/
def collect (m : TaskMem) (taskCount : ℕ) : Bool × ℕ :=
  (List.range taskCount).foldl (fun (failed, total) i =>
    if taskSuccess (m.retcode i) then (failed, total + m.downloadSize i) else (true, total)) (false, 0)

/-- A `uint64_t` that is returned as an `int`. -/
def toInt (n : ℕ) : ℤ := (n : ℤ).bmod (2 ^ 32)

/-- `FileUtil::IsLegalFilePath`. -/
def isLegalFilePath (path : Bytes) : Bool := path.head? = some 47 ∧ path.getLast? ≠ some 47

/-- `ReqBase::isLegalFilePath`, which the requests for files share but for `FileUploadReq`: it never looks
at the path. -/
def ReqBase.isLegalFilePath (_path : Bytes) : Bool := true

/-- `FileDownloadReq::isParaValid`. -/
def isParaValid (filePath : Bytes) : Bool := filePath = [] ∨ ReqBase.isLegalFilePath filePath

/-- No path is refused. -/
theorem isParaValid_true (filePath : Bytes) : isParaValid filePath = true := decide_eq_true (.inr rfl)

/-- What `FileDownload` returns, what it sets `*ret_code` to, and the caller's buffer. -/
structure Downloaded where
  ret : ℤ
  retCode : ℤ
  buffer : Option (ℕ → UInt8)

/-- `FileDownload`, where the threads run the steps of `sched`. What the members of the tasks hold
before that, `retcode` and `downloadSize`, is not set. -/
def fileDownload (filePath : Bytes) (buffer : Option (ℕ → UInt8)) (bufLen offset : ℕ) (retcode : ℕ → ℤ)
    (downloadSize : ℕ → ℕ) (sched : List TaskStep) : Downloaded :=
  if !isParaValid filePath then ⟨-1, -1, buffer⟩
  else
    match buffer with
    | none => ⟨-2, -2, none⟩
    | some buffer =>
      let m := sched.foldl TaskMem.exec ⟨buffer, retcode, downloadSize⟩
      let (failed, total) := collect m (downloadTasks defaultDownRangeSize offset (offset + bufLen) offset).length
      if failed then ⟨-3, -3, some m.buffer⟩ else ⟨toInt total, 0, some m.buffer⟩

/-! ### The ranges -/

section

variable (rangeSize : ℕ)

/-- How many ranges there are. -/
def rangeCount (bufLen : ℕ) : ℕ := (bufLen + rangeSize - 1) / rangeSize

/-- How long the range numbered `i` is. -/
def rangeLen (bufLen i : ℕ) : ℕ := min ((i + 1) * rangeSize) bufLen - i * rangeSize

/-- The task of the range numbered `i`. -/
def rangeTask (bufLen offset i : ℕ) : FileDownloadTask :=
  ⟨i * rangeSize, offset + i * rangeSize,
    offset + min ((i + 1) * rangeSize) bufLen - 1⟩

variable {rangeSize} [hsize : NeZero rangeSize]

theorem lt_rangeCount {bufLen i : ℕ} : i < rangeCount rangeSize bufLen ↔ i * rangeSize < bufLen := by
  have hpos := Nat.pos_of_ne_zero hsize.out
  rw [rangeCount, Nat.lt_div_iff_mul_lt hpos]
  omega

theorem downloadTasks_from (bufLen offset : ℕ) : ∀ k i, i + k = rangeCount rangeSize bufLen →
    downloadTasks rangeSize offset (offset + bufLen) (offset + i * rangeSize) =
      (List.range' i k).map (rangeTask rangeSize bufLen offset) := by
  intro k
  induction k with
  | zero =>
    intro i hi
    have hend : ¬ i * rangeSize < bufLen := by
      rw [← lt_rangeCount]
      omega
    rw [downloadTasks, if_neg (by omega)]
    rfl
  | succ k ih =>
    intro i hi
    have hlt : i * rangeSize < bufLen := lt_rangeCount.mp (by omega)
    have hpos := Nat.pos_of_ne_zero hsize.out
    have hmul : (i + 1) * rangeSize = i * rangeSize + rangeSize := Nat.succ_mul _ _
    have hnext := ih (i + 1) (by omega)
    have hstart : offset + i * rangeSize - offset = i * rangeSize := by omega
    rw [downloadTasks, if_pos (by omega), List.range'_succ, List.map_cons, hstart]
    by_cases hlast : offset + bufLen ≤ offset + i * rangeSize + rangeSize - 1
    · have hk : k = 0 := by
        have hend : ¬ i + 1 < rangeCount rangeSize bufLen := by
          rw [lt_rangeCount]
          omega
        omega
      have hend : offset + bufLen - 1 = offset + min ((i + 1) * rangeSize) bufLen - 1 := by omega
      have hnone : downloadTasks rangeSize offset (offset + bufLen) (offset + bufLen) = [] := by
        rw [downloadTasks, if_neg (Nat.lt_irrefl _)]
      rw [if_pos hlast, hk, hend, hnone]
      rfl
    · have hend : offset + i * rangeSize + rangeSize - 1 =
          offset + min ((i + 1) * rangeSize) bufLen - 1 := by omega
      have hoffset : offset + i * rangeSize + rangeSize - 1 + 1 =
          offset + (i + 1) * rangeSize := by omega
      rw [if_neg hlast, hoffset, hnext, hend]
      rfl

/-- The tasks are those of the ranges. -/
theorem downloadTasks_eq (bufLen offset : ℕ) : downloadTasks rangeSize offset (offset + bufLen) offset =
    (List.range (rangeCount rangeSize bufLen)).map (rangeTask rangeSize bufLen offset) := by
  have h := downloadTasks_from bufLen offset (rangeCount rangeSize bufLen) 0 (Nat.zero_add _)
  rwa [Nat.zero_mul, Nat.add_zero, ← List.range_eq_range'] at h

/-- What the task of the range numbered `i` does. -/
def rangeJob (rangeSize : ℕ) (answers : ℕ → HttpAnswer) (bufLen i : ℕ) : List TaskStep :=
  .retcode i (answers i).httpCode ::
    (copySteps (i * rangeSize) ((answers i).body.take (rangeLen rangeSize bufLen i)) ++
      [.downloadSize i ((answers i).body.take (rangeLen rangeSize bufLen i)).length])

theorem downloadJobs_eq (answers : ℕ → HttpAnswer) (bufLen offset : ℕ) :
    downloadJobs rangeSize answers bufLen offset = (List.range (rangeCount rangeSize bufLen)).map (rangeJob rangeSize answers bufLen) := by
  unfold downloadJobs
  rw [downloadTasks_eq]
  apply List.ext_getElem
  · simp
  · intro i hi _
    have hlt : i * rangeSize < bufLen := lt_rangeCount.mp (by simpa using hi)
    have hmul : (i + 1) * rangeSize = i * rangeSize + rangeSize := Nat.succ_mul _ _
    have hpos := Nat.pos_of_ne_zero hsize.out
    have hlen : offset + min ((i + 1) * rangeSize) bufLen - 1 - (offset + i * rangeSize) + 1 =
        rangeLen rangeSize bufLen i := by
      unfold rangeLen
      omega
    simp only [List.getElem_mapIdx, List.getElem_map, List.getElem_range, FileDownloadTask.run, rangeTask, rangeJob, hlen]

/-! ### Any schedule -/

/-- The task whose members or whose part of the buffer a step writes to. -/
def TaskStep.owner (rangeSize : ℕ) : TaskStep → ℕ
  | .retcode i _ => i
  | .copy pos _ => pos / rangeSize
  | .downloadSize i _ => i

omit hsize in
/-- Steps that write to what different tasks own commute. -/
theorem exec_comm {a b : TaskStep} (h : a.owner rangeSize ≠ b.owner rangeSize) (m : TaskMem) :
    (m.exec a).exec b = (m.exec b).exec a := by
  cases a with
  | retcode i code =>
    cases b with
    | retcode j code' => exact congrArg (fun f => { m with retcode := f }) (write_comm m.retcode h code code')
    | copy pos b => rfl
    | downloadSize j len => rfl
  | copy pos x =>
    cases b with
    | retcode j code => rfl
    | copy pos' x' =>
      have hpos : pos ≠ pos' := fun heq => h (congrArg (· / rangeSize) heq)
      exact congrArg (fun f => { m with buffer := f }) (write_comm m.buffer hpos x x')
    | downloadSize j len => rfl
  | downloadSize i len =>
    cases b with
    | retcode j code => rfl
    | copy pos x => rfl
    | downloadSize j len' =>
      exact congrArg (fun f => { m with downloadSize := f }) (write_comm m.downloadSize h len len')

theorem mem_copySteps {a : TaskStep} : ∀ {bs : Bytes} {pos : ℕ}, a ∈ copySteps pos bs →
    ∃ k b, a = .copy (pos + k) b ∧ k < bs.length
  | b :: bs, pos, h => by
    rcases List.mem_cons.mp h with rfl | h
    · exact ⟨0, b, rfl, Nat.succ_pos _⟩
    · obtain ⟨k, b', rfl, hk⟩ := mem_copySteps h
      exact ⟨k + 1, b', by rw [Nat.add_right_comm, Nat.add_assoc], Nat.succ_lt_succ hk⟩

omit hsize in
/-- A range lies in what its task owns. -/
theorem rangeLen_le (rangeSize bufLen i : ℕ) : rangeLen rangeSize bufLen i ≤ rangeSize := by
  have hmul : (i + 1) * rangeSize = i * rangeSize + rangeSize := Nat.succ_mul _ _
  unfold rangeLen
  omega

omit hsize in
theorem owner_rangeJob {answers : ℕ → HttpAnswer} {bufLen i : ℕ} {a : TaskStep}
    (h : a ∈ rangeJob rangeSize answers bufLen i) : a.owner rangeSize = i := by
  rcases List.mem_cons.mp h with rfl | h
  · rfl
  rcases List.mem_append.mp h with h | h
  · obtain ⟨k, b, rfl, hk⟩ := mem_copySteps h
    have hlen := rangeLen_le rangeSize bufLen i
    rw [List.length_take] at hk
    exact Nat.div_eq_of_lt_le (Nat.le_add_right _ _) (by rw [Nat.succ_mul]; omega)
  · rw [List.mem_singleton.mp h]
    rfl

theorem downloadJobs_independent (answers : ℕ → HttpAnswer) (bufLen offset : ℕ) :
    Independent TaskMem.exec (downloadJobs rangeSize answers bufLen offset) := by
  unfold Independent
  rw [downloadJobs_eq, List.pairwise_map]
  refine List.pairwise_lt_range.imp fun {i j} hij a ha b hb m => ?_
  have howner : a.owner rangeSize ≠ b.owner rangeSize := by
    rw [owner_rangeJob ha, owner_rangeJob hb]
    exact Nat.ne_of_lt hij
  exact exec_comm howner m

theorem foldl_copySteps : ∀ (bs : Bytes) (pos : ℕ) (m : TaskMem),
    (copySteps pos bs).foldl TaskMem.exec m = { m with buffer := copy m.buffer pos bs }
  | [], pos, m => by
    rw [copy_nil]
    rfl
  | b :: bs, pos, m => by
    rw [copy_cons]
    exact foldl_copySteps bs (pos + 1) _

/-- What the task of the range numbered `i` copies. -/
def rangeBody (rangeSize : ℕ) (answers : ℕ → HttpAnswer) (bufLen i : ℕ) : Bytes :=
  (answers i).body.take (rangeLen rangeSize bufLen i)

/-- What the first `n` tasks leave of a memory. -/
def TaskMem.after (rangeSize : ℕ) (answers : ℕ → HttpAnswer) (bufLen n : ℕ) (m : TaskMem) : TaskMem where
  buffer := tiled m.buffer rangeSize 0 n (rangeBody rangeSize answers bufLen)
  retcode i := if i < n then (answers i).httpCode else m.retcode i
  downloadSize i := if i < n then min (rangeLen rangeSize bufLen i) (answers i).body.length else m.downloadSize i

/-- A member that the tasks set one after the other. -/
theorem update_after {β : Type} (f g : ℕ → β) (n : ℕ) :
    Function.update (fun i => if i < n then f i else g i) n (f n) = fun i => if i < n + 1 then f i else g i := by
  funext i
  by_cases hi : i = n
  · rw [hi, Function.update_self, if_pos (Nat.lt_succ_self n)]
  · rw [Function.update_of_ne hi]
    have hiff : i < n ↔ i < n + 1 := by omega
    simp only [hiff]

theorem foldl_rangeJobs (answers : ℕ → HttpAnswer) (bufLen : ℕ) (m : TaskMem) : ∀ n,
    ((List.range n).map (rangeJob rangeSize answers bufLen)).flatten.foldl TaskMem.exec m =
      m.after rangeSize answers bufLen n
  | 0 => by simp [TaskMem.after, tiled_zero]
  | n + 1 => by
    have hlen : (rangeBody rangeSize answers bufLen (0 + n)).length ≤ rangeSize := by
      have hle := rangeLen_le rangeSize bufLen (0 + n)
      rw [rangeBody, List.length_take]
      omega
    have htile := copy_tiled m.buffer (Nat.pos_of_ne_zero hsize.out) 0 n hlen
    rw [Nat.zero_add] at htile
    rw [List.range_succ, List.map_append, List.flatten_append, List.foldl_append, foldl_rangeJobs answers bufLen m n,
      List.map_singleton, List.flatten_singleton, rangeJob, List.foldl_cons, List.foldl_append, foldl_copySteps]
    show TaskMem.mk _ _ _ = TaskMem.mk _ _ _
    congr 1
    · exact update_after (fun i => (answers i).httpCode) m.retcode n
    · rw [List.length_take]
      exact update_after (fun i => min (rangeLen rangeSize bufLen i) (answers i).body.length) m.downloadSize n

/-- **What the tasks leave does not depend on the order in which the threads run.** -/
theorem exec_schedule {answers : ℕ → HttpAnswer} {bufLen offset : ℕ} {sched : List TaskStep}
    (h : Interleaves (downloadJobs rangeSize answers bufLen offset) sched) (m : TaskMem) :
    sched.foldl TaskMem.exec m = m.after rangeSize answers bufLen (rangeCount rangeSize bufLen) := by
  rw [h.foldl_eq (downloadJobs_independent answers bufLen offset), downloadJobs_eq, foldl_rangeJobs]

/-! ### What a download returns -/

theorem collect_eq (m : TaskMem) : ∀ n, collect m n =
    (decide (∃ i < n, taskSuccess (m.retcode i) = false),
      ((List.range n).map fun i => if taskSuccess (m.retcode i) then m.downloadSize i else 0).sum)
  | 0 => by simp [collect]
  | n + 1 => by
    have hcollect : collect m (n + 1) = if taskSuccess (m.retcode n) then
        ((collect m n).1, (collect m n).2 + m.downloadSize n) else (true, (collect m n).2) := by
      rw [collect, List.range_succ, List.foldl_append]
      rfl
    have hexists : (∃ i < n + 1, taskSuccess (m.retcode i) = false) ↔
        (∃ i < n, taskSuccess (m.retcode i) = false) ∨ taskSuccess (m.retcode n) = false := by
      constructor
      · rintro ⟨i, hi, hfail⟩
        rcases Nat.lt_succ_iff_lt_or_eq.mp hi with hlt | rfl
        · exact .inl ⟨i, hlt, hfail⟩
        · exact .inr hfail
      · rintro (⟨i, hi, hfail⟩ | hfail)
        · exact ⟨i, Nat.lt_succ_of_lt hi, hfail⟩
        · exact ⟨n, Nat.lt_succ_self n, hfail⟩
    rw [hcollect, collect_eq m n, List.range_succ, List.map_append, List.sum_append]
    simp only [hexists]
    cases hn : taskSuccess (m.retcode n) with
    | true => simp [hn]
    | false => simp [hn]

/-- How much all the tasks copy. -/
def copied (rangeSize : ℕ) (answers : ℕ → HttpAnswer) (bufLen : ℕ) : ℕ :=
  ((List.range (rangeCount rangeSize bufLen)).map fun i => min (rangeLen rangeSize bufLen i) (answers i).body.length).sum

/-- The buffer that a download leaves. -/
def downloadedBuffer (rangeSize : ℕ) (answers : ℕ → HttpAnswer) (bufLen : ℕ) (buffer : ℕ → UInt8) : ℕ → UInt8 := fun p =>
  if p < bufLen then ((answers (p / rangeSize)).body[p % rangeSize]?).getD (buffer p)
  else buffer p

theorem after_all (answers : ℕ → HttpAnswer) (bufLen : ℕ) (m : TaskMem) :
    (m.after rangeSize answers bufLen (rangeCount rangeSize bufLen)).buffer =
      downloadedBuffer rangeSize answers bufLen m.buffer := by
  funext p
  have hp := Nat.div_add_mod' p rangeSize
  have hmod := Nat.mod_lt p (Nat.pos_of_ne_zero hsize.out)
  have hmul : (p / rangeSize + 1) * rangeSize = p / rangeSize * rangeSize + rangeSize := Nat.succ_mul _ _
  have hcount : p / rangeSize < rangeCount rangeSize bufLen ↔ p / rangeSize * rangeSize < bufLen := lt_rangeCount
  have hin : p % rangeSize < rangeLen rangeSize bufLen (p / rangeSize) ↔ p < bufLen := by
    unfold rangeLen
    omega
  simp only [TaskMem.after, tiled, rangeBody, downloadedBuffer, List.getElem?_take, hin]
  by_cases hlt : p < bufLen
  · have hall : 0 ≤ p / rangeSize ∧ p / rangeSize < 0 + rangeCount rangeSize bufLen := by
      rw [Nat.zero_add]
      exact ⟨Nat.zero_le _, hcount.mpr (by omega)⟩
    rw [if_pos hall, if_pos hlt, if_pos hlt]
  · rw [if_neg hlt, if_neg hlt]
    split
    · rfl
    · rfl

omit hsize in
theorem collect_after (answers : ℕ → HttpAnswer) (bufLen : ℕ) (m : TaskMem) :
    collect (m.after rangeSize answers bufLen (rangeCount rangeSize bufLen)) (rangeCount rangeSize bufLen) =
      (decide (∃ i < rangeCount rangeSize bufLen, taskSuccess (answers i).httpCode = false),
        ((List.range (rangeCount rangeSize bufLen)).map fun i =>
          if taskSuccess (answers i).httpCode then min (rangeLen rangeSize bufLen i) (answers i).body.length else 0).sum) := by
  have hcode : ∀ i < rangeCount rangeSize bufLen, (m.after rangeSize answers bufLen (rangeCount rangeSize bufLen)).retcode i = (answers i).httpCode :=
    fun i hi => if_pos hi
  rw [collect_eq]
  congr 1
  · rw [decide_eq_decide]
    refine exists_congr fun i => and_congr_right fun hi => ?_
    rw [hcode i hi]
  · congr 1
    refine List.map_congr_left fun i hi => ?_
    have hlt := List.mem_range.mp hi
    simp only [TaskMem.after, if_pos hlt]

omit hsize in
/-- The size of a download where no request failed. -/
theorem copied_of_success {answers : ℕ → HttpAnswer} {bufLen : ℕ}
    (h : ¬ ∃ i < rangeCount rangeSize bufLen, taskSuccess (answers i).httpCode = false) :
    ((List.range (rangeCount rangeSize bufLen)).map fun i =>
      if taskSuccess (answers i).httpCode then min (rangeLen rangeSize bufLen i) (answers i).body.length else 0).sum =
      copied rangeSize answers bufLen := by
  unfold copied
  congr 1
  refine List.map_congr_left fun i hi => ?_
  have hok : taskSuccess (answers i).httpCode = true := by
    by_contra hfail
    exact h ⟨i, List.mem_range.mp hi, by simpa using hfail⟩
  rw [if_pos hok]

end

/-- What a download leaves, in any order of its tasks. -/
theorem fileDownload_schedule (filePath : Bytes) (buffer : ℕ → UInt8) (bufLen offset : ℕ) (retcode : ℕ → ℤ)
    (downloadSize : ℕ → ℕ) (answers : ℕ → HttpAnswer) (sched : List TaskStep)
    (hsched : Interleaves (downloadJobs defaultDownRangeSize answers bufLen offset) sched) :
    fileDownload filePath (some buffer) bufLen offset retcode downloadSize sched =
      if ∃ i < rangeCount defaultDownRangeSize bufLen, taskSuccess (answers i).httpCode = false then
        ⟨-3, -3, some (downloadedBuffer defaultDownRangeSize answers bufLen buffer)⟩
      else ⟨toInt (copied defaultDownRangeSize answers bufLen), 0, some (downloadedBuffer defaultDownRangeSize answers bufLen buffer)⟩ := by
  have hlength : (downloadTasks defaultDownRangeSize offset (offset + bufLen) offset).length = rangeCount defaultDownRangeSize bufLen := by
    rw [downloadTasks_eq, List.length_map, List.length_range]
  unfold fileDownload
  rw [isParaValid_true, Bool.not_true, if_neg Bool.false_ne_true]
  dsimp only
  rw [exec_schedule hsched, hlength, collect_after, after_all]
  by_cases hfail : ∃ i < rangeCount defaultDownRangeSize bufLen, taskSuccess (answers i).httpCode = false
  · rw [if_pos hfail, decide_eq_true hfail]
    rfl
  · rw [if_neg hfail, decide_eq_false hfail, copied_of_success hfail]
    rfl

/-! ### COS serves the ranges -/

/-- What COS answers the request of a task, for an object of `size` bytes: the part of the range that the
object has, or that it has none. -/
structure ServesRange (object : ℕ → UInt8) (size : ℕ) (task : FileDownloadTask) (answer : HttpAnswer) : Prop where
  part : task.rangeStart < size → taskSuccess answer.httpCode = true ∧
    answer.body = slice object task.rangeStart (min (task.rangeEnd + 1) size - task.rangeStart)
  none : size ≤ task.rangeStart → taskSuccess answer.httpCode = false

/-- The answers to all tasks of a download. -/
def Serves (rangeSize : ℕ) [NeZero rangeSize] (object : ℕ → UInt8) (size bufLen offset : ℕ) (answers : ℕ → HttpAnswer) : Prop :=
  ∀ i task, (downloadTasks rangeSize offset (offset + bufLen) offset)[i]? = some task → ServesRange object size task (answers i)

section

variable {rangeSize : ℕ} [hsize : NeZero rangeSize] {object : ℕ → UInt8} {size bufLen offset : ℕ} {answers : ℕ → HttpAnswer}

theorem Serves.range (h : Serves rangeSize object size bufLen offset answers) {i : ℕ} (hi : i < rangeCount rangeSize bufLen) :
    ServesRange object size (rangeTask rangeSize bufLen offset i) (answers i) := by
  apply h i
  rw [downloadTasks_eq, List.getElem?_map, List.getElem?_range hi]
  rfl

/-- The body of a range that the object has a part of. -/
theorem Serves.body (h : Serves rangeSize object size bufLen offset answers) {i : ℕ} (hi : i < rangeCount rangeSize bufLen)
    (hlt : offset + i * rangeSize < size) :
    (answers i).body = slice object (offset + i * rangeSize)
      (min ((i + 1) * rangeSize) (min bufLen (size - offset)) - i * rangeSize) := by
  have hstart : i * rangeSize < bufLen := lt_rangeCount.mp hi
  have hmul : (i + 1) * rangeSize = i * rangeSize + rangeSize := Nat.succ_mul _ _
  have hpos := Nat.pos_of_ne_zero hsize.out
  rw [((h.range hi).part hlt).2]
  unfold rangeTask
  congr 1
  dsimp only
  omega

/-- A request fails where its range starts behind the end of the object. -/
theorem Serves.failed (h : Serves rangeSize object size bufLen offset answers) :
    (∃ i < rangeCount rangeSize bufLen, taskSuccess (answers i).httpCode = false) ↔
      0 < bufLen ∧ size ≤ offset + (rangeCount rangeSize bufLen - 1) * rangeSize := by
  constructor
  · rintro ⟨i, hi, hfail⟩
    have hle : i * rangeSize ≤ (rangeCount rangeSize bufLen - 1) * rangeSize :=
      Nat.mul_le_mul_right _ (by omega)
    have hstart : i * rangeSize < bufLen := lt_rangeCount.mp hi
    refine ⟨by omega, ?_⟩
    by_contra hlt
    have hok := ((h.range hi).part (show offset + i * rangeSize < size by omega)).1
    rw [hok] at hfail
    cases hfail
  · rintro ⟨hpos, hle⟩
    have hcount : 0 < rangeCount rangeSize bufLen := lt_rangeCount.mpr (by omega)
    have hlast : rangeCount rangeSize bufLen - 1 < rangeCount rangeSize bufLen := by omega
    exact ⟨rangeCount rangeSize bufLen - 1, hlast, (h.range hlast).none hle⟩

/-- What the ranges copy makes up the part of the object. -/
theorem Serves.copied (h : Serves rangeSize object size bufLen offset answers)
    (hall : ∀ i < rangeCount rangeSize bufLen, offset + i * rangeSize < size) :
    copied rangeSize answers bufLen = min bufLen (size - offset) := by
  have hsum : ∀ n ≤ rangeCount rangeSize bufLen,
      ((List.range n).map fun i => min (rangeLen rangeSize bufLen i) (answers i).body.length).sum =
        min (n * rangeSize) (min bufLen (size - offset)) := by
    intro n
    induction n with
    | zero => simp
    | succ n ih =>
      intro hn
      have hstart : n * rangeSize < bufLen := lt_rangeCount.mp hn
      have hlt := hall n hn
      have hmul : (n + 1) * rangeSize = n * rangeSize + rangeSize := Nat.succ_mul _ _
      rw [List.range_succ, List.map_append, List.sum_append, ih (by omega), List.map_singleton, List.sum_singleton,
        h.body hn hlt, length_slice, rangeLen]
      omega
  have hcount : ¬ rangeCount rangeSize bufLen * rangeSize < bufLen := by
    rw [← lt_rangeCount]
    exact Nat.lt_irrefl _
  rw [Sdk.copied, hsum _ (Nat.le_refl _)]
  omega

/-- A byte of the buffer that the object has. -/
theorem Serves.byte (h : Serves rangeSize object size bufLen offset answers)
    (hall : ∀ i < rangeCount rangeSize bufLen, offset + i * rangeSize < size) (buffer : ℕ → UInt8) {p : ℕ}
    (hp : p < min bufLen (size - offset)) : downloadedBuffer rangeSize answers bufLen buffer p = object (offset + p) := by
  have hdiv := Nat.div_add_mod' p rangeSize
  have hmod := Nat.mod_lt p (Nat.pos_of_ne_zero hsize.out)
  have hi : p / rangeSize < rangeCount rangeSize bufLen := lt_rangeCount.mpr (by omega)
  have hmul : (p / rangeSize + 1) * rangeSize =
      p / rangeSize * rangeSize + rangeSize := Nat.succ_mul _ _
  have hin : p % rangeSize < min ((p / rangeSize + 1) * rangeSize)
      (min bufLen (size - offset)) - p / rangeSize * rangeSize := by omega
  rw [downloadedBuffer, if_pos (by omega), h.body hi (hall _ hi), slice, List.getElem?_map,
    List.getElem?_range' hin]
  show object _ = _
  congr 1
  omega

end

theorem getCosDownloadChunksize_lt (T : Tunables) : getCosDownloadChunksize T < 2 ^ 31 := by
  unfold getCosDownloadChunksize vsftpCosDownloadBufsize
  split
  · omega
  · omega

/-- No more is copied than the buffer has room for. -/
theorem copied_le (rangeSize : ℕ) (answers : ℕ → HttpAnswer) (bufLen : ℕ) : copied rangeSize answers bufLen ≤ bufLen := by
  have hsum : ∀ n, ((List.range n).map fun i => min (rangeLen rangeSize bufLen i) (answers i).body.length).sum ≤
      min (n * rangeSize) bufLen := by
    intro n
    induction n with
    | zero => simp
    | succ n ih =>
      have hmul : (n + 1) * rangeSize = n * rangeSize + rangeSize := Nat.succ_mul _ _
      rw [List.range_succ, List.map_append, List.sum_append, List.map_singleton, List.sum_singleton, rangeLen]
      omega
  have hall := hsum (rangeCount rangeSize bufLen)
  unfold copied
  omega

theorem toInt_of_lt {n : ℕ} (h : n < 2 ^ 31) : toInt n = n := by
  unfold toInt
  rw [Int.bmod_eq_of_le]
  · omega
  · omega

/-- What a download returns where COS serves the ranges. -/
def servedRet (size bufLen offset : ℕ) : ℤ :=
  if 0 < bufLen ∧ size ≤ offset + (rangeCount defaultDownRangeSize bufLen - 1) * defaultDownRangeSize then -3
  else (min bufLen (size - offset) : ℕ)

/-- The first bytes of a buffer, where it holds those of an object. -/
theorem map_buffer {buf object : ℕ → UInt8} {offset n : ℕ} (h : ∀ p < n, buf p = object (offset + p)) :
    (List.range n).map buf = slice object offset n := by
  apply List.ext_getElem
  · simp
  · intro p hp _
    have hlt : p < n := by simpa using hp
    simp [slice, h p hlt]

/-- **A download is the same in every order of its tasks.** Whatever each request is answered, the buffer
gets of an answer what its range has room for, at the place of the range, and no byte behind its end; one
failed request fails all of it, with the buffer written to all the same; otherwise what is returned is
how much was copied. So where COS serves the ranges of an object, a download returns as many bytes as
there are of those asked for, unless a whole range is behind the end of the object, and the buffer begins
with just these bytes, as the loop of the transfer takes it to. -/
theorem fileDownload_any_order (T : Tunables) (filePath : Bytes) (buffer : ℕ → UInt8) (bufLen offset : ℕ)
    (retcode : ℕ → ℤ) (downloadSize : ℕ → ℕ) (answers : ℕ → HttpAnswer) (sched : List TaskStep)
    (hlen : bufLen ≤ getCosDownloadChunksize T)
    (hsched : Interleaves (downloadJobs defaultDownRangeSize answers bufLen offset) sched) :
    fileDownload filePath (some buffer) bufLen offset retcode downloadSize sched =
      (if ∃ i < rangeCount defaultDownRangeSize bufLen, taskSuccess (answers i).httpCode = false then
        ⟨-3, -3, some (downloadedBuffer defaultDownRangeSize answers bufLen buffer)⟩
      else ⟨copied defaultDownRangeSize answers bufLen, 0,
        some (downloadedBuffer defaultDownRangeSize answers bufLen buffer)⟩) ∧
    ∀ object size, Serves defaultDownRangeSize object size bufLen offset answers →
      (fileDownload filePath (some buffer) bufLen offset retcode downloadSize sched).ret = servedRet size bufLen offset ∧
      (offset + bufLen ≤ size → servedRet size bufLen offset = bufLen) ∧
      downloadResult bufLen (servedRet size bufLen offset) = servedRet size bufLen offset ∧
      (List.range (servedRet size bufLen offset).toNat).map (downloadedBuffer defaultDownRangeSize answers bufLen buffer) =
        slice object offset (servedRet size bufLen offset).toNat := by
  have hbuf : bufLen < 2 ^ 31 := Nat.lt_of_le_of_lt hlen (getCosDownloadChunksize_lt T)
  have hcopied : toInt (copied defaultDownRangeSize answers bufLen) = copied defaultDownRangeSize answers bufLen :=
    toInt_of_lt (Nat.lt_of_le_of_lt (copied_le _ _ _) hbuf)
  have hrun := fileDownload_schedule filePath buffer bufLen offset retcode downloadSize answers sched hsched
  rw [hcopied] at hrun
  refine ⟨hrun, fun object size hserves => ?_⟩
  rw [hrun]
  by_cases hfail : 0 < bufLen ∧
      size ≤ offset + (rangeCount defaultDownRangeSize bufLen - 1) * defaultDownRangeSize
  · -- a whole range is behind the end
    have hret : servedRet size bufLen offset = -3 := if_pos hfail
    have hlast : (rangeCount defaultDownRangeSize bufLen - 1) * defaultDownRangeSize < bufLen := by
      apply lt_rangeCount.mp
      have hcount : 0 < rangeCount defaultDownRangeSize bufLen := lt_rangeCount.mpr (by omega)
      omega
    rw [if_pos (hserves.failed.mpr hfail), hret]
    exact ⟨rfl, fun hle => by omega, rfl, rfl⟩
  · have hret : servedRet size bufLen offset = (min bufLen (size - offset) : ℕ) := if_neg hfail
    have hall : ∀ i < rangeCount defaultDownRangeSize bufLen, offset + i * defaultDownRangeSize < size := by
      intro i hi
      have hle : i * defaultDownRangeSize ≤ (rangeCount defaultDownRangeSize bufLen - 1) * defaultDownRangeSize :=
        Nat.mul_le_mul_right _ (by omega)
      have hstart : i * defaultDownRangeSize < bufLen := lt_rangeCount.mp hi
      omega
    rw [if_neg (fun h => hfail (hserves.failed.mp h)), hserves.copied hall, hret]
    refine ⟨rfl, fun hle => by omega, ?_, map_buffer fun p hp => hserves.byte hall buffer hp⟩
    unfold downloadResult
    rw [if_neg (by omega)]
    omega

/-- The second half of an object of four bytes. -/
theorem fileDownload_any_order_half :
    (fileDownload [] (some fun _ => 0) 2 2 (fun _ => 0) (fun _ => 0)
      (downloadJobs defaultDownRangeSize (fun _ => ⟨206, [3, 4]⟩) 2 2).flatten).ret = 2 := by
  have hserves : Serves defaultDownRangeSize (fun p => UInt8.ofNat (p + 1)) 4 2 2 fun _ => ⟨206, [3, 4]⟩ := by
    intro i task htask
    have hcount : rangeCount defaultDownRangeSize 2 = 1 := by decide
    rw [downloadTasks_eq, hcount] at htask
    cases i with
    | zero =>
      obtain rfl := Option.some.inj htask
      exact ⟨fun _ => ⟨rfl, by decide⟩, fun hle => absurd hle (by decide)⟩
    | succ i => cases htask
  have hboth := fileDownload_any_order {} [] (fun _ => 0) 2 2 (fun _ => 0) (fun _ => 0) (fun _ => ⟨206, [3, 4]⟩) _
    (by decide) (interleaves_flatten _)
  exact (hboth.2 _ 4 hserves).1.trans ((hboth.2 _ 4 hserves).2.1 (by decide))

end Sdk
end CosFtp
