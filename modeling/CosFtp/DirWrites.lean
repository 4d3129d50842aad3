/-
# The writes of a listing

`write_dir_list` collects lines in a buffer and writes the buffer when the next
line would take it past `VSFTP_DIR_BUFSIZE`, or when there is no next line. So
its writes are those of a list made in advance, `dirWrites`, one after the
other until one fails (`writeDirList_eq`). That list has the lines in it, in
order and nothing else; no write in it is empty, and one is longer than the
buffer only when it is a single line (`dirWrites_small`).

* `listing_writes_exact`: all of this, and what it comes to for the data and
  the control connection: behind a call they have a prefix of the lines, and
  all of them if the call says so.

Key definitions: `dirWrites`, `writeAll`, `Passes`.
Key theorems: `writeDirList_eq`, `dirWrites_flatten`, `dirWrites_small`, `writeAll_passes`, `listing_writes_exact`.
-/
import CosFtp.DirList

namespace CosFtp

open Wp

/-- The strings `write_dir_list` writes, with what stands in its buffer. -/
def dirWrites : Bytes → List Bytes → List Bytes
  | _, [] => []
  | buf, [last] => [buf ++ last]
  | buf, line :: next :: rest =>
    if vsftpDirBufsize < (buf ++ line).length + next.length then
      (buf ++ line) :: dirWrites [] (next :: rest)
    else dirWrites (buf ++ line) (next :: rest)

/-- The strings are written until a write fails. -/
def writeAll (write : Bytes → M Bool) : List Bytes → M Bool
  | [] => pure true
  | s :: rest => do
    let ok ← write s
    if ok then writeAll write rest else pure false

/-! ### The strings -/

theorem writeDirList_eq (write : Bytes → M Bool) : ∀ (lines : List Bytes) (buf : Bytes),
    writeDirList write buf lines = writeAll write (dirWrites buf lines)
  | [], _ => rfl
  | [last], buf => by
    have hlast : (fun ok => if ok = true then writeAll write [] else pure false) = (pure : Bool → M Bool) := by
      funext ok
      cases ok <;> rfl
    show write (buf ++ last) = write (buf ++ last) >>= fun ok => _
    rw [hlast, bind_pure]
  | line :: next :: rest, buf => by
    unfold writeDirList dirWrites
    by_cases hfull : vsftpDirBufsize < (buf ++ line).length + next.length
    · rw [if_pos hfull, if_pos hfull, writeAll, writeDirList_eq write (next :: rest) []]
    · rw [if_neg hfull, if_neg hfull, writeDirList_eq write (next :: rest) (buf ++ line)]

/-- What is in the buffer and the lines, in order. -/
theorem dirWrites_flatten : ∀ (lines : List Bytes) (buf : Bytes), (lines = [] → buf = []) →
    (dirWrites buf lines).flatten = buf ++ lines.flatten
  | [], _, h => by rw [h rfl]; rfl
  | [last], buf, _ => by simp [dirWrites]
  | line :: next :: rest, buf, _ => by
    unfold dirWrites
    by_cases hfull : vsftpDirBufsize < (buf ++ line).length + next.length
    · rw [if_pos hfull, List.flatten_cons, dirWrites_flatten (next :: rest) [] (by simp),
        List.nil_append, List.append_assoc, ← List.flatten_cons]
    · rw [if_neg hfull, dirWrites_flatten (next :: rest) (buf ++ line) (by simp), List.append_assoc,
        ← List.flatten_cons]

/-- Each write has the line in it that filled the buffer. -/
theorem dirWrites_ne_nil : ∀ (lines : List Bytes) (buf : Bytes), (∀ line ∈ lines, line ≠ []) →
    ∀ s ∈ dirWrites buf lines, s ≠ []
  | [], _, _, _, hs => absurd hs List.not_mem_nil
  | [last], buf, hne, s, hs => by
    obtain rfl : s = buf ++ last := List.mem_singleton.mp hs
    exact List.append_ne_nil_of_right_ne_nil _ (hne last List.mem_cons_self)
  | line :: next :: rest, buf, hne, s, hs => by
    have hline : buf ++ line ≠ [] := List.append_ne_nil_of_right_ne_nil _ (hne line List.mem_cons_self)
    have hrest : ∀ l ∈ next :: rest, l ≠ [] := fun l hl => hne l (List.mem_cons_of_mem _ hl)
    unfold dirWrites at hs
    by_cases hfull : vsftpDirBufsize < (buf ++ line).length + next.length
    · rw [if_pos hfull] at hs
      rcases List.mem_cons.mp hs with rfl | hs
      · exact hline
      · exact dirWrites_ne_nil (next :: rest) [] hrest s hs
    · rw [if_neg hfull] at hs
      exact dirWrites_ne_nil (next :: rest) (buf ++ line) hrest s hs

/-- A line goes into a buffer it fits in, or it stands there alone. -/
theorem dirWrites_small : ∀ (lines : List Bytes) (buf : Bytes),
    (∀ line ∈ lines.head?, buf = [] ∨ (buf ++ line).length ≤ vsftpDirBufsize) →
    ∀ s ∈ dirWrites buf lines, s.length ≤ vsftpDirBufsize ∨ s ∈ lines
  | [], _, _, _, hs => absurd hs List.not_mem_nil
  | [last], buf, hfits, s, hs => by
    obtain rfl : s = buf ++ last := List.mem_singleton.mp hs
    rcases hfits last rfl with rfl | hlen
    · exact .inr List.mem_cons_self
    · exact .inl hlen
  | line :: next :: rest, buf, hfits, s, hs => by
    have hbuf := hfits line rfl
    unfold dirWrites at hs
    by_cases hfull : vsftpDirBufsize < (buf ++ line).length + next.length
    · rw [if_pos hfull] at hs
      rcases List.mem_cons.mp hs with rfl | hs
      · rcases hbuf with rfl | hlen
        · exact .inr List.mem_cons_self
        · exact .inl hlen
      · have ih := dirWrites_small (next :: rest) [] (fun _ _ => .inl rfl) s hs
        exact ih.imp_right (List.mem_cons_of_mem _)
    · rw [if_neg hfull] at hs
      have hnext : ∀ l ∈ (next :: rest).head?, buf ++ line = [] ∨ (buf ++ line ++ l).length ≤ vsftpDirBufsize := by
        intro l hl
        obtain rfl : next = l := Option.some.inj hl
        right
        rw [List.length_append]
        omega
      have ih := dirWrites_small (next :: rest) (buf ++ line) hnext s hs
      exact ih.imp_right (List.mem_cons_of_mem _)

/-! ### What the client gets -/

section

variable {seen : World → Bytes} {x : M Bool} {write : Bytes → M Bool} {s : Bytes}

/-- A call that makes a prefix of `s` seen, and the whole of it when it says so. -/
def Passes (seen : World → Bytes) (s : Bytes) (x : M Bool) : Prop :=
  ∀ w, wp x (fun ok w' => ∃ p, p <+: s ∧ seen w' = seen w ++ p ∧ (ok = true → p = s))
    (fun _ w' => ∃ p, p <+: s ∧ seen w' = seen w ++ p) w

/-- If each write does, all of them do. -/
theorem writeAll_passes (hwrite : ∀ s, Passes seen s (write s)) : ∀ ss : List Bytes,
    Passes seen ss.flatten (writeAll write ss)
  | [], _ => ⟨[], List.nil_prefix, (List.append_nil _).symm, fun _ => rfl⟩
  | s :: ss, w => by
    have hfirst : ∀ {p}, p <+: s → p <+: (s :: ss).flatten := fun hp => hp.trans (List.prefix_append s _)
    rw [writeAll, wp_bind]
    refine wp_mono (hwrite s w) ?_ ?_
    · intro ok w₁ hw₁
      obtain ⟨p, hp, hseen, hall⟩ := hw₁
      cases ok with
      | false => exact ⟨p, hfirst hp, hseen, by simp⟩
      | true =>
        obtain rfl := hall rfl
        have hmore : ∀ {w' q}, seen w' = seen w₁ ++ q → seen w' = seen w ++ (p ++ q) := by
          intro w' q hq
          rw [hq, hseen, List.append_assoc]
        simp only [if_true]
        refine wp_mono (writeAll_passes hwrite ss w₁) ?_ ?_
        · intro ok w₂ hw₂
          obtain ⟨q, hq, hseen', hall'⟩ := hw₂
          refine ⟨p ++ q, (List.prefix_append_right_inj p).mpr hq, hmore hseen', ?_⟩
          intro hok
          rw [hall' hok]
          rfl
        · intro e w₂ hw₂
          obtain ⟨q, hq, hseen'⟩ := hw₂
          exact ⟨p ++ q, (List.prefix_append_right_inj p).mpr hq, hmore hseen'⟩
    · intro e w₁ hw₁
      obtain ⟨p, hp, hseen⟩ := hw₁
      exact ⟨p, hfirst hp, hseen⟩

end

section

variable (T : Tunables) (env : Env)

/-- What the client has on the data connection. -/
def World.onData (w : World) : Bytes := w.conn.sent

def Event.rawBytes : Event → Bytes
  | .raw s => s
  | _ => []

/-- What was written to the control connection without a code of its own. -/
def World.onControl (w : World) : Bytes := w.events.flatMap Event.rawBytes

theorem ftpWriteStrData_passes (s : Bytes) : Passes World.onData s (ftpWriteStrData T env s) := by
  intro w
  unfold ftpWriteStrData
  rw [wp_bind]
  refine wp_mono (ftpWriteData_spec s w) ?_ ?_
  · intro ret w₁ hw₁
    obtain ⟨k, hk, hret, htalk⟩ := hw₁
    refine ⟨s.take k, List.take_prefix k s, ?_, ?_⟩
    · rw [World.onData, htalk.conn]
      rfl
    · intro hok
      have hlen : ret = s.length := by simpa using hok
      have hall : k = s.length := by
        have hret' := hret (by omega)
        omega
      rw [hall, List.take_length]
  · intro _ w₁ hw₁
    obtain ⟨-, k, -, ret, htalk⟩ := hw₁
    refine ⟨s.take k, List.take_prefix k s, ?_⟩
    rw [World.onData, htalk.conn]
    rfl

/-- A signal answers with codes. -/
theorem Talk.onControl {w w' : World} (h : Talk SignalReply w w') : w'.onControl = w.onControl := by
  obtain ⟨es, hes, hsig, -⟩ := h.events
  have hnone : es.flatMap Event.rawBytes = [] := by
    rw [List.flatMap_eq_nil_iff]
    intro e he
    cases hsig e he <;> rfl
  rw [World.onControl, hes, List.flatMap_append, hnone, List.append_nil, World.onControl]

theorem ftpWriteStrControl_passes (s : Bytes) : Passes World.onControl s (ftpWriteStrControl T env s) := by
  intro w
  have hchecked : ∀ {ok p w₁}, World.onControl w₁ = w.onControl ++ p → p <+: s → (ok = true → p = s) →
      wp (checkPendingActions T env)
        (fun _ w' => ∃ p, p <+: s ∧ w'.onControl = w.onControl ++ p ∧ (ok = true → p = s))
        (fun _ w' => ∃ p, p <+: s ∧ w'.onControl = w.onControl ++ p) w₁ := by
    intro ok p w₁ hw₁ hp hall
    refine wp_mono (checkPendingActions_talk (fun _ h => h) w₁) ?_ ?_
    · intro _ w' htalk
      exact ⟨p, hp, htalk.onControl.trans hw₁, hall⟩
    · intro _ w' htalk
      exact ⟨p, hp, htalk.2.onControl.trans hw₁⟩
  unfold ftpWriteStrControl
  rw [wp_bind, wp_get, wp_bind]
  cases hwrite : env.ctrlWrite w.clock with
  | true =>
    have hraw : World.onControl { w with events := w.events ++ [.raw s] } = w.onControl ++ s := by
      simp [World.onControl, Event.rawBytes]
    simp only [when, if_true, emit, wp_modify, wp_bind]
    exact hchecked hraw (List.prefix_refl s) (fun _ => rfl)
  | false =>
    simp only [when, Bool.false_eq_true, if_false, wp_bind]
    exact hchecked (List.append_nil _).symm List.nil_prefix fun hok : false = true => absurd hok Bool.false_ne_true

end

/-- **A listing is written whole** and in order, in writes that are never empty. -/
theorem listing_writes_exact (lines : List Bytes) (hne : ∀ line ∈ lines, line ≠ []) :
    (dirWrites [] lines).flatten = lines.flatten ∧
    (∀ s ∈ dirWrites [] lines, s ≠ [] ∧ (s.length ≤ vsftpDirBufsize ∨ s ∈ lines)) ∧
    (∀ write, writeDirList write [] lines = writeAll write (dirWrites [] lines)) ∧
    ∀ T env, Passes World.onData lines.flatten (writeDirList (ftpWriteStrData T env) [] lines) ∧
      Passes World.onControl lines.flatten (writeDirList (ftpWriteStrControl T env) [] lines) := by
  have hflat : (dirWrites [] lines).flatten = lines.flatten := dirWrites_flatten lines [] fun _ => rfl
  refine ⟨hflat, ?_, fun write => writeDirList_eq write lines [], ?_⟩
  · intro s hs
    exact ⟨dirWrites_ne_nil lines [] hne s hs, dirWrites_small lines [] (fun _ _ => .inl rfl) s hs⟩
  · intro T env
    rw [writeDirList_eq, writeDirList_eq, ← hflat]
    exact ⟨writeAll_passes (ftpWriteStrData_passes T env) _, writeAll_passes (ftpWriteStrControl_passes T env) _⟩

/-- Two lines that go out in one write. -/
theorem listing_writes_exact_two : (dirWrites [] [text "a\r\n", text "b\r\n"]).flatten = text "a\r\nb\r\n" :=
  (listing_writes_exact [text "a\r\n", text "b\r\n"] (by decide)).1

end CosFtp
