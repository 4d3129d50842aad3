/-
# A STOR behind a REST

A STOR with a restart position k writes to its local file from k on, and the
file is not cut off there: what the file held behind the new bytes stays and is
uploaded with them. So the object is the first k bytes of the file and the
stream, with nothing behind them, exactly if the old file does not reach further
than the new bytes do (`resumed_upload_splices_iff`). A restart position behind
the end of the file is refused before any data is read, and the file is left as
it was, unless failed uploads are to be deleted.

Key definitions: `StoresAs`, `Untouched`.
Key theorem: `resumed_upload_splices_iff`.
-/
import CosFtp.StorIntegrity

namespace CosFtp

open Wp Inode

/-- Each upload in a trace is one of `content`, and COS took one. -/
structure StoresAs (content : Bytes) (es : List Event) : Prop where
  all : ∀ path sent ok, .cos (.fileUpload path sent ok) ∈ es → sent = some content
  taken : ∃ path, .cos (.fileUpload path (some content) true) ∈ es

/-- No data was read, and no byte of a local file changed; the one under `name`
is still there if failed uploads are not deleted. -/
structure Untouched (T : Tunables) (name : List Bytes) (w w' : World) : Prop where
  events : ∃ es, w'.events = w.events ++ es ∧ ∀ r, .dataRead r ∉ es
  next : w.disk.next ≤ w'.disk.next
  data : ∀ i < w.disk.next, w'.disk.data i = w.disk.data i
  kept : T.deleteFailedUploads = false → (w'.disk.lookup name).getD [] = (w.disk.lookup name).getD []

section

variable {T : Tunables} {env : Env} {name : List Bytes}

theorem Untouched.trans {w w' w'' : World} (h : Untouched T name w w') (h' : Untouched T name w' w'') :
    Untouched T name w w'' where
  events := by
    obtain ⟨es, hes, hno⟩ := h.events
    obtain ⟨es', hes', hno'⟩ := h'.events
    refine ⟨es ++ es', by rw [hes', hes, List.append_assoc], ?_⟩
    intro r hr
    exact (List.mem_append.mp hr).elim (hno r) (hno' r)
  next := h.next.trans h'.next
  data := fun i hi => (h'.data i (hi.trans_le h.next)).trans (h.data i hi)
  kept := fun hT => (h'.kept hT).trans (h.kept hT)

/-- Steps that leave the disk. -/
theorem untouched_of_disk {w w' : World} {es : List Event} (hdisk : w'.disk = w.disk)
    (hes : w'.events = w.events ++ es) (hno : ∀ r, .dataRead r ∉ es) : Untouched T name w w' :=
  ⟨⟨es, hes, hno⟩, by rw [hdisk], fun _ _ => by rw [hdisk], fun _ => by rw [hdisk]⟩

instance : Std.Refl (Untouched T name) := ⟨fun _ => untouched_of_disk rfl (List.append_nil _).symm (by simp)⟩

instance : IsTrans World (Untouched T name) := ⟨fun _ _ _ => Untouched.trans⟩

theorem Traced.untouched {w w' : World} (h : Traced w w') : Untouched T name w w' := by
  obtain ⟨es, hes, hplain⟩ := h.events
  refine untouched_of_disk h.disk hes ?_
  intro r hr
  cases hplain _ hr

theorem untouched_of_traced {α : Type} {x : M α} (h : Within Traced Halt.Any x) :
    Within (Untouched T name) Halt.Any x := h.mono fun _ _ => Traced.untouched

theorem orDie_untouched (ok : Bool) (what : String) : Within (Untouched T name) Halt.Any (orDie ok what) :=
  within_ite (within_pure ()) (within_throw trivial)

theorem cosUnlink_untouched (path : Bytes) : Within (Untouched T name) Halt.Any (cosUnlink T env path) := by
  refine cosUnlink_within ?_ ?_ path
  · exact fun _ _ => untouched_of_disk rfl rfl (by simp)
  · exact fun _ _ _ => untouched_of_disk rfl rfl (by simp)

/-- The local file goes if failed uploads are to be deleted, and only then. -/
theorem uploadCleanup_untouched (filename : Bytes) (success : Bool) :
    Within (Untouched T name) Halt.Any (uploadCleanup T env filename false success) := by
  have hdelete : T.deleteFailedUploads = true → Within (Untouched T name) Halt.Any (strUnlink env filename) := by
    intro hT
    refine within_modify fun w => ?_
    split
    · refine ⟨⟨[], by simp⟩, Nat.le_refl _, fun _ _ => rfl, ?_⟩
      intro hF
      rw [hT] at hF
      cases hF
    · exact Std.Refl.refl w
  unfold uploadCleanup
  refine within_bind (untouched_of_traced portCleanup_traced) fun _ => ?_
  refine within_bind (within_when (untouched_of_traced pasvCleanup_traced)) fun _ => ?_
  exact within_bind (within_guarded fun h => hdelete h.1) fun _ => orDie_untouched _ _

/-- A file that is opened, and made if need be, holds what it held. -/
theorem untouched_opened (path : Bytes) (w : World) : Untouched T (resolve path).names w (w.opened path) where
  events := ⟨[.create path], rfl, by simp⟩
  next := Disk.next_le_create _ _
  data := fun i hi => Disk.data_create _ _ hi
  kept := by
    intro _
    show (((w.disk.create _).2.entry _).map (w.disk.create _).2.data).getD [] = _
    rw [Disk.entry_create]
    exact data_create _

theorem uploadOpened_untouched {offset fileLen : ℕ} (hshort : fileLen < offset) (arg filename : Bytes)
    (file : OpenFile) :
    Within (Untouched T name) Halt.Any (uploadOpened T env arg filename offset file fileLen) := by
  have hoffset : offset ≠ 0 := by omega
  unfold uploadOpened
  rw [if_neg hoffset, if_pos hshort]
  refine within_bind (untouched_of_traced chownUpload_traced) fun _ => ?_
  refine within_bind (untouched_of_traced lockUpload_traced) fun locked => within_ite ?_ ?_
  · refine within_bind (untouched_of_traced (vsfCmdioWrite_traced (by decide))) fun _ => ?_
    exact uploadCleanup_untouched _ _
  · refine within_bind (untouched_of_traced (vsfCmdioWrite_traced (by decide))) fun _ => ?_
    exact within_bind (cosUnlink_untouched _) fun _ => uploadCleanup_untouched _ _

theorem uploadChecked_untouched {offset : ℕ} {filename : Bytes} {w : World}
    (hshort : ((w.disk.lookup (resolve filename).names).getD []).length < offset) (arg : Bytes) :
    wp (uploadChecked T env arg filename offset) (fun _ w' => Untouched T (resolve filename).names w w')
      (fun _ w' => Untouched T (resolve filename).names w w') w := by
  have hreply : ∀ {w1 : World} {code : ℕ} {msg : String}, (Event.reply code (text msg)).plain = true →
      Untouched T (resolve filename).names w w1 →
      wp (vsfCmdioWrite T env code msg) (fun _ w' => Untouched T (resolve filename).names w w')
        (fun _ w' => Untouched T (resolve filename).names w w') w1 := by
    intro w1 code msg hplain hw1
    refine wp_mono (vsfCmdioWrite_traced hplain w1) ?_ ?_
    · exact fun _ _ ht => hw1.trans ht.untouched
    · exact fun _ _ ht => hw1.trans ht.2.untouched
  unfold uploadChecked checkFile strCreate emit
  simp only [wp_bind, wp_get, wp_pure, wp_ite, wp_modify]
  split
  · exact hreply (by decide) (Std.Refl.refl w)
  split
  · exact hreply (by decide) (untouched_of_disk rfl rfl (by simp))
  · have hdata : ((w.disk.create (resolve filename).names).2.data
        (w.disk.create (resolve filename).names).1).length < offset := by
      rw [data_create]
      exact hshort
    have hopened : Untouched T (resolve filename).names w (w.opened filename) := untouched_opened filename w
    have hrefuses : Within (Untouched T (resolve filename).names) Halt.Any (uploadOpened T env arg filename offset
        { inode := (w.disk.create (resolve filename).names).1, append := createsExclusive T w.sess } _) :=
      uploadOpened_untouched hdata arg filename _
    refine wp_mono (hrefuses (w.opened filename)) ?_ ?_
    · exact fun _ _ hw' => hopened.trans hw'
    · exact fun _ _ hw' => hopened.trans hw'.2

theorem handleUploadCommon_untouched {arg : Bytes} {w : World}
    (hshort : (storOld T env.getpwnam arg w).length < w.sess.restartPos) :
    Untouched T (resolve (storFilename T env.getpwnam arg w)).names w (after (handleUploadCommon T env arg) w) := by
  apply wp_after
  by_cases hready : DataReady T w ∧ w.sess.logType = none
  · obtain ⟨_, ⟨calls, rfl⟩, hwp⟩ := wp_handleUploadCommon_of_ready env hready.1 hready.2 arg
    set filename := storFilename T env.getpwnam arg w with hfilename
    set w1 := World.logging { w with calls := w.calls ++ calls } filename with hw1
    have hlogging : Untouched T (resolve filename).names w w1 :=
      untouched_of_disk rfl (List.append_nil _).symm (by simp)
    have hshort' : ((w1.disk.lookup (resolve filename).names).getD []).length < w.sess.restartPos := hshort
    rw [hwp]
    refine wp_mono (uploadChecked_untouched hshort' _) ?_ ?_
    · exact fun _ _ hw' => hlogging.trans hw'
    · exact fun _ _ hw' => hlogging.trans hw'
  · refine wp_mono (handleUploadCommon_traced hready) ?_ ?_
    · exact fun _ _ ht => ht.untouched
    · exact fun _ _ ht => ht.untouched

end

/-- Bytes put into a file leave nothing behind them exactly if the file ends in them. -/
theorem splice_eq_iff {old stream : Bytes} {offset : ℕ} (hle : offset ≤ old.length) :
    writeAt 0 old offset stream = old.take offset ++ stream ↔ old.length ≤ offset + stream.length := by
  rw [writeAt_of_le 0 hle, List.append_right_eq_self, List.drop_eq_nil_iff]

/-- **A STOR behind a REST uploads the file up to the restart position and the
client's stream**, with nothing behind them, whenever it is answered with
"Transfer complete.", exactly if the file was not longer than that. A restart
position behind the end of the file is refused. -/
theorem resumed_upload_splices_iff (T : Tunables) (env : Env) (arg : Bytes) (w : World)
    (hbinary : (T.asciiUploadEnable && w.sess.isAscii) = false) (hrestart : 0 < w.sess.restartPos) :
    let old := storOld T env.getpwnam arg w
    let w' := after (handleUploadCommon T env arg) w
    (w.sess.restartPos ≤ old.length → transferComplete ∈ w.since w' →
      (StoresAs (old.take w.sess.restartPos ++ env.stream) (w.since w') ↔
        old.length ≤ w.sess.restartPos + env.stream.length)) ∧
    (old.length < w.sess.restartPos → Untouched T (resolve (storFilename T env.getpwnam arg w)).names w w') := by
  intro old w'
  refine ⟨?_, handleUploadCommon_untouched⟩
  intro hle hcomplete
  obtain ⟨es, hes, hsent, hwhole⟩ := handleUploadCommon_honest T env arg w
  have hsince : w.since w' = es := by
    unfold World.since
    rw [hes, List.drop_left]
  have hcontent : uploadContent (T.asciiUploadEnable && w.sess.isAscii) old w.sess.restartPos env.stream =
      writeAt 0 old w.sess.restartPos env.stream := by
    rw [hbinary, uploadContent, if_neg (Nat.ne_of_gt hrestart)]
    rfl
  rw [hcontent] at hsent hwhole
  rw [hsince] at hcomplete ⊢
  obtain ⟨es₁, es₂, es₃, path, hsplit, -⟩ := hwhole hcomplete
  have htaken : .cos (.fileUpload path (some (writeAt 0 old w.sess.restartPos env.stream)) true) ∈ es := by
    rw [hsplit]
    simp [stored]
  rw [← splice_eq_iff hle]
  constructor
  · intro h
    exact Option.some.inj (h.all _ _ _ htaken)
  · intro heq
    rw [heq] at hsent htaken
    exact ⟨hsent, path, htaken⟩

/-- A session behind REST 2 with a local file x. -/
def restartWorld (old : Bytes) : World :=
  { habWorld with
    sess := { restartPos := 2 }
    disk := (Disk.empty.create [text "h", text "a", text "b", text "x"]).2.setData 0 old }

/-- The client of `lineEnv` sends four bytes behind the two. -/
theorem resumed_upload_extends_two :
    StoresAs (text "abhi" ++ [13, 10])
      ((restartWorld (text "abcd")).since
        (after (handleUploadCommon habServer lineEnv (text "x")) (restartWorld (text "abcd")))) := by
  have hcomplete : transferComplete ∈ (restartWorld (text "abcd")).since
      (after (handleUploadCommon habServer lineEnv (text "x")) (restartWorld (text "abcd"))) := by
    decide +kernel
  have hiff := (resumed_upload_splices_iff habServer lineEnv (text "x") (restartWorld (text "abcd")) rfl
    (by decide)).1 (by decide +kernel) hcomplete
  exact hiff.mpr (by decide +kernel)

/-- Behind a file of eight bytes the last two of them are still there, and are stored. -/
theorem resumed_upload_keeps_tail :
    transferComplete ∈ (restartWorld (text "abcdefgh")).since
      (after (handleUploadCommon habServer lineEnv (text "x")) (restartWorld (text "abcdefgh"))) ∧
    ¬ StoresAs (text "abhi" ++ [13, 10])
      ((restartWorld (text "abcdefgh")).since
        (after (handleUploadCommon habServer lineEnv (text "x")) (restartWorld (text "abcdefgh")))) := by
  refine ⟨by decide +kernel, ?_⟩
  intro h
  have htail : .cos (.fileUpload (text "/x") (some (text "abhi" ++ [13, 10] ++ text "gh")) true) ∈
      (restartWorld (text "abcdefgh")).since
        (after (handleUploadCommon habServer lineEnv (text "x")) (restartWorld (text "abcdefgh"))) := by
    decide +kernel
  exact absurd (h.all _ _ _ htail) (by decide)

end CosFtp
