/-
# The list files

The user list, the list for chroot and the list of banned addresses are files
with a name on each line. `str_fileread` brings a file into memory, through
`read`s that may give less than was asked for or be interrupted, and
`str_contains_line` takes line after line of it with `str_getline`.

The iterator is exact: it stops, and finds a name exactly if it is a line
(`strContainsLineRun_eq`, `mem_strLines_iff`). The reader is not: of a file
longer than its limit it takes the beginning and does not say so. So a name
behind `VSFTP_CONF_FILE_MAX` bytes is not on the list (`list_file_cut`), and
`list_file_exact` is about the lines of what stands in front of them; for a
file that is not longer these are the lines of the file.

Key definitions: `IsLineOf`, `ListFile`, `strFileread`, `strContainsLineRun`.
Key theorems: `mem_strLines_iff`, `strFileread_eq`, `list_file_exact`.
-/
import CosFtp.Lib.Fields
import CosFtp.Prelogin
import CosFtp.ParseConf

namespace CosFtp

open Fields

/-! ### The lines of a text -/

/-- A line, in front of an LF or at the end of the text; there it is not empty. -/
def IsLineOf (line s : Bytes) : Prop :=
  chLf ∉ line ∧ ∃ before behind, s = before ++ line ++ behind ∧
    (before = [] ∨ before.getLast? = some chLf) ∧
    (behind.head? = some chLf ∨ behind = [] ∧ line ≠ [])

theorem strLines_eq_segments (s : Bytes) : strLines s = segments chLf s := rfl

/-- What stands in front of a line, with one more line in front of it. -/
theorem getLast?_line_append (u v : Bytes) :
    v = [] ∨ v.getLast? = some chLf ↔ (u ++ chLf :: v).getLast? = some chLf := by
  rw [List.getLast?_append, List.getLast?_cons]
  cases hv : v.getLast? with
  | none => simp [List.getLast?_eq_none_iff.mp hv]
  | some b =>
    have hne : v ≠ [] := by
      rintro rfl
      cases hv
    simp [hne]

theorem mem_strLines_of_line {line behind : Bytes} (hline : chLf ∉ line)
    (hend : behind.head? = some chLf ∨ behind = [] ∧ line ≠ []) (before : Bytes)
    (hbefore : before = [] ∨ before.getLast? = some chLf) : line ∈ strLines (before ++ line ++ behind) := by
  induction before using fields_induction chLf with
  | last u hu =>
    have hnil : u = [] := by
      rcases hbefore with hnil | hlast
      · exact hnil
      · exact absurd (List.mem_of_getLast? hlast) hu
    rw [hnil, List.nil_append, strLines_eq_segments]
    rcases hend with hlf | ⟨rfl, hne⟩
    · obtain ⟨rest, rfl⟩ : ∃ rest, behind = chLf :: rest := by
        cases behind with
        | nil => cases hlf
        | cons b rest => exact ⟨rest, by rw [Option.some.inj hlf]⟩
      rw [segments_append_cons hline]
      exact List.mem_cons_self
    · rw [List.append_nil, segments_of_not_mem hline, if_neg hne]
      exact List.mem_cons_self
  | more u v hu ih =>
    have hv : v = [] ∨ v.getLast? = some chLf := by
      rw [getLast?_line_append u v]
      rcases hbefore with hnil | hlast
      · simp at hnil
      · exact hlast
    have hsplit : u ++ chLf :: v ++ line ++ behind = u ++ chLf :: (v ++ line ++ behind) := by simp
    rw [hsplit, strLines_eq_segments, segments_append_cons hu]
    exact List.mem_cons_of_mem _ (ih hv)

/-- The lines that are taken one after the other are the lines there are. -/
theorem mem_strLines_iff {line s : Bytes} : line ∈ strLines s ↔ IsLineOf line s := by
  constructor
  · intro h
    rw [strLines_eq_segments] at h
    induction s using fields_induction chLf with
    | last u hu =>
      rw [segments_of_not_mem hu] at h
      by_cases hnil : u = []
      · rw [if_pos hnil] at h
        cases h
      · rw [if_neg hnil, List.mem_singleton] at h
        rw [h]
        exact ⟨hu, [], [], by simp, .inl rfl, .inr ⟨rfl, hnil⟩⟩
    | more u v hu ih =>
      rw [segments_append_cons hu] at h
      rcases List.mem_cons.mp h with rfl | hmem
      · exact ⟨hu, [], chLf :: v, by simp, .inl rfl, .inl rfl⟩
      · obtain ⟨hline, before, behind, hv, hbefore, hend⟩ := ih hmem
        refine ⟨hline, u ++ chLf :: before, behind, by simp [hv], .inr ?_, hend⟩
        exact (getLast?_line_append u before).mp hbefore
  · intro h
    obtain ⟨hline, before, behind, rfl, hbefore, hend⟩ := h
    exact mem_strLines_of_line hline hend before hbefore

/-! ### Taking line after line -/

/-- `str_getline`: the line at a position and where the next one begins. -/
def strGetline (s : Bytes) (pos : ℕ) : Except String (Option (Bytes × ℕ)) :=
  if s.length < pos then .error "p_pos out of range in str_getline"
  else if pos = s.length then .ok none
  else
    let line := (s.drop pos).takeWhile fun b => b ≠ chLf
    let currPos := pos + line.length
    -- if we ended on an LF, it is skipped
    .ok (some (line, if currPos < s.length then currPos + 1 else currPos))

/-- The loop of `str_contains_line`, for so many rounds: `none` if it runs longer. -/
def strContainsLineRun (s line : Bytes) : ℕ → ℕ → Option (Except String Bool)
  | 0, _ => none
  | n + 1, pos =>
    match strGetline s pos with
    | .error e => some (.error e)
    | .ok none => some (.ok false)
    | .ok (some (l, next)) => if l = line then some (.ok true) else strContainsLineRun s line n next

/-- `str_getline` takes the first of the lines from its position on. -/
theorem strGetline_eq {s : Bytes} {pos : ℕ} (hpos : pos < s.length) :
    ∃ line next, strGetline s pos = .ok (some (line, next)) ∧ pos < next ∧ next ≤ s.length ∧
      strLines (s.drop pos) = line :: strLines (s.drop next) := by
  have hne : s.drop pos ≠ [] := by simpa using hpos
  obtain ⟨u, v, hu, hsplit⟩ : ∃ u v, chLf ∉ u ∧ (s.drop pos = u ∨ s.drop pos = u ++ chLf :: v) := by
    induction hs : s.drop pos using fields_induction chLf with
    | last u hu => exact ⟨u, [], hu, .inl rfl⟩
    | more u v hu _ => exact ⟨u, v, hu, .inr rfl⟩
  have hlen : (s.drop pos).length = s.length - pos := List.length_drop
  have hu' : ∀ b ∈ u, decide (b ≠ chLf) = true := by
    intro b hb
    exact decide_eq_true fun he => hu (he ▸ hb)
  rcases hsplit with hopen | hline
  · have htake : (s.drop pos).takeWhile (fun b => b ≠ chLf) = u := by
      rw [hopen]
      exact List.takeWhile_eq_self_iff.mpr hu'
    have hend : pos + u.length = s.length := by
      rw [hopen] at hlen
      omega
    refine ⟨u, s.length, ?_, hpos, Nat.le_refl _, ?_⟩
    · rw [strGetline, if_neg (by omega), if_neg (by omega)]
      simp only [htake, hend, Nat.lt_irrefl, if_false]
    · rw [hopen] at hne
      rw [hopen, List.drop_length, strLines_eq_segments, strLines_eq_segments, segments_of_not_mem hu,
        if_neg hne, segments_nil]
  · have htake : (s.drop pos).takeWhile (fun b => b ≠ chLf) = u := by
      rw [hline, List.takeWhile_append_of_pos hu', List.takeWhile_cons_of_neg (by simp), List.append_nil]
    have hroom : pos + u.length < s.length := by
      rw [hline, List.length_append, List.length_cons] at hlen
      omega
    have hnext : s.drop (pos + u.length + 1) = v := by
      rw [Nat.add_assoc, ← List.drop_drop, hline, ← List.drop_drop]
      simp
    refine ⟨u, pos + u.length + 1, ?_, by omega, hroom, ?_⟩
    · rw [strGetline, if_neg (by omega), if_neg (by omega)]
      simp only [htake, hroom, if_true]
    · rw [hnext, hline, strLines_eq_segments, strLines_eq_segments, segments_append_cons hu]

/-- The loop ends, and has found the line if it is there. -/
theorem strContainsLineRun_from (s line : Bytes) : ∀ (n pos : ℕ), pos ≤ s.length → s.length - pos < n →
    strContainsLineRun s line n pos = some (.ok (decide (line ∈ strLines (s.drop pos))))
  | 0, _, _, hn => by omega
  | n + 1, pos, hpos, hn => by
    by_cases hend : pos = s.length
    · have hlast : strGetline s pos = .ok none := by
        rw [strGetline, if_neg (by omega), if_pos hend]
      have hnone : strLines (s.drop pos) = [] := by
        rw [hend, List.drop_length, strLines_eq_segments, segments_nil]
      simp [strContainsLineRun, hlast, hnone]
    · have hmore : pos < s.length := by omega
      obtain ⟨l, next, hget, hlt, hle, hlines⟩ := strGetline_eq hmore
      have ih := strContainsLineRun_from s line n next hle (by omega)
      simp only [strContainsLineRun, hget, hlines, ih, List.mem_cons]
      by_cases hl : l = line
      · simp [hl]
      · rw [if_neg hl]
        simp [Ne.symm hl]

theorem strContainsLineRun_eq (s line : Bytes) {n : ℕ} (hn : s.length < n) :
    strContainsLineRun s line n 0 = some (.ok (strContainsLine s line)) := by
  rw [strContainsLineRun_from s line n 0 (Nat.zero_le _) (by omega)]
  rfl

/-! ### Reading a file -/

/-- What one `read` does. -/
inductive ReadAnswer where
  | failed
  | interrupted
  /-- it gives so many bytes and one more, if there are so many -/
  | gives (n : ℕ)

/-- A file as `str_fileread` meets it. Behind the answers that are listed,
each `read` gives all it is asked for. -/
structure ListFile where
  opens : Bool := true
  regular : Bool := true
  content : Bytes
  reads : List ReadAnswer := []

/-- `vsf_sysutil_read_loop`, with what it has: `none` is an error. -/
def fileReadLoop (content : Bytes) : List ReadAnswer → Bytes → ℕ → Option Bytes
  | [], got, size => some (got ++ (content.drop got.length).take size)
  | .failed :: _, _, _ => none
  | .interrupted :: answers, got, size => fileReadLoop content answers got size
  | .gives n :: answers, got, size =>
    let chunk := (content.drop got.length).take (min (n + 1) size)
    if chunk = [] then some got
    else if size - chunk.length = 0 then some (got ++ chunk)
    else fileReadLoop content answers (got ++ chunk) (size - chunk.length)

/-- `str_fileread`: what it returns and the string, or it dies. -/
def strFileread (f : ListFile) (maxsize : ℕ) : Except String (ℤ × Bytes) :=
  if !f.opens then .ok (-1, [])
  else if !f.regular then .ok (0, [])
  else
    let size := if maxsize < f.content.length then maxsize else f.content.length
    match fileReadLoop f.content f.reads [] size with
    | none => .ok (-1, [])
    | some got => if got.length ≠ size then .error "read size mismatch" else .ok (got.length, got)

/-- However the bytes come, they are the next of the file. -/
theorem fileReadLoop_eq (content : Bytes) : ∀ (answers : List ReadAnswer) (k size : ℕ) {got : Bytes},
    k + size ≤ content.length → fileReadLoop content answers (content.take k) size = some got →
    got = content.take (k + size)
  | [], k, size, got, hle, h => by
    have hk : (content.take k).length = k := by
      rw [List.length_take]
      omega
    rw [fileReadLoop, hk] at h
    rw [← Option.some.inj h, List.take_add]
  | .failed :: _, _, _, _, _, h => by cases h
  | .interrupted :: answers, k, size, got, hle, h => fileReadLoop_eq content answers k size hle h
  | .gives n :: answers, k, size, got, hle, h => by
    have hk : (content.take k).length = k := by
      rw [List.length_take]
      omega
    set m := min (n + 1) size with hm
    have hchunk : ((content.drop k).take m).length = m := by
      rw [List.length_take, List.length_drop]
      omega
    have hmore : content.take k ++ (content.drop k).take m = content.take (k + m) := by rw [List.take_add]
    rw [fileReadLoop] at h
    simp only [hk, ← hm, hchunk, hmore] at h
    by_cases hnone : (content.drop k).take m = []
    · have hsize : size = 0 := by
        rw [hnone, List.length_nil] at hchunk
        omega
      rw [if_pos hnone] at h
      rw [← Option.some.inj h, hsize, Nat.add_zero]
    · rw [if_neg hnone] at h
      by_cases hfull : size - m = 0
      · have hsize : m = size := by omega
        rw [if_pos hfull] at h
        rw [← Option.some.inj h, hsize]
      · rw [if_neg hfull] at h
        have ih := fileReadLoop_eq content answers (k + m) (size - m) (by omega) h
        rw [ih]
        congr 1
        omega

/-- A regular file that was read: the first bytes, up to the limit. -/
theorem strFileread_eq {f : ListFile} {maxsize : ℕ} {ret : ℤ} {str : Bytes} (hregular : f.regular = true)
    (hread : strFileread f maxsize = .ok (ret, str)) (hret : 0 ≤ ret) : str = f.content.take maxsize := by
  have hfail : ∀ {s : Bytes}, (.ok (-1, s) : Except String (ℤ × Bytes)) ≠ .ok (ret, str) := by
    intro s he
    have hneg : (-1 : ℤ) = ret := congrArg Prod.fst (Except.ok.inj he)
    omega
  unfold strFileread at hread
  rw [hregular] at hread
  by_cases hopens : f.opens = true
  · rw [hopens] at hread
    simp only [Bool.not_true, Bool.false_eq_true, if_false] at hread
    set size := if maxsize < f.content.length then maxsize else f.content.length with hsize
    have hle : size ≤ f.content.length := by
      rw [hsize]
      split <;> omega
    have htake : f.content.take size = f.content.take maxsize := by
      by_cases hlong : maxsize < f.content.length
      · rw [hsize, if_pos hlong]
      · rw [hsize, if_neg hlong, List.take_length, List.take_of_length_le (by omega)]
    cases hloop : fileReadLoop f.content f.reads [] size with
    | none =>
      rw [hloop] at hread
      exact absurd hread hfail
    | some got =>
      have hgot : got = f.content.take size := by
        have := fileReadLoop_eq f.content f.reads 0 size (by omega) hloop
        rwa [Nat.zero_add] at this
      rw [hloop] at hread
      have hsame : got.length = size := by
        rw [hgot, List.length_take]
        omega
      simp only [hsame, ne_eq, not_true_eq_false, if_false] at hread
      rw [← htake, ← hgot]
      exact (congrArg Prod.snd (Except.ok.inj hread)).symm
  · simp only [Bool.not_eq_true] at hopens
    rw [hopens] at hread
    exact absurd hread hfail

/-! ### The lists -/

/-- **A name is on a list** exactly if it is a line of the file, as far as the
file is read. -/
theorem list_file_exact (f : ListFile) (name : Bytes) (ret : ℤ) (str : Bytes) (hregular : f.regular = true)
    (hread : strFileread f vsftpConfFileMax = .ok (ret, str)) (hret : 0 ≤ ret) :
    (∀ n, str.length < n → strContainsLineRun str name n 0 = some (.ok (strContainsLine str name))) ∧
    (strContainsLine str name = true ↔ IsLineOf name (f.content.take vsftpConfFileMax)) ∧
    (f.content.length ≤ vsftpConfFileMax → (strContainsLine str name = true ↔ IsLineOf name f.content)) ∧
    ∀ T, userlistAllows T str name = true ↔
      (IsLineOf name (f.content.take vsftpConfFileMax) ↔ T.userlistDeny = false) := by
  have hstr : str = f.content.take vsftpConfFileMax := strFileread_eq hregular hread hret
  have hiff : strContainsLine str name = true ↔ IsLineOf name (f.content.take vsftpConfFileMax) := by
    rw [strContainsLine, decide_eq_true_eq, mem_strLines_iff, hstr]
  refine ⟨fun n hn => strContainsLineRun_eq str name hn, hiff, ?_, ?_⟩
  · intro hshort
    rw [hiff, List.take_of_length_le hshort]
  · intro T
    rw [← hiff, userlistAllows]
    cases strContainsLine str name <;> cases T.userlistDeny <;> simp

def bobFile : ListFile := { content := text "alice\nbob", reads := [.interrupted, .gives 2] }

/-- A list read in three pieces, without an LF at its end. -/
theorem list_file_exact_bob : strContainsLine (text "alice\nbob") (text "bob") = true ↔
    IsLineOf (text "bob") (bobFile.content.take vsftpConfFileMax) :=
  (list_file_exact bobFile (text "bob") 9 (text "alice\nbob") rfl (by decide +kernel) (by decide)).2.1

/-- A list with a name behind the limit. -/
def longFile : ListFile := { content := List.replicate vsftpConfFileMax 120 ++ chLf :: text "bob\n" }

theorem strFileread_longFile :
    strFileread longFile vsftpConfFileMax = .ok (vsftpConfFileMax, List.replicate vsftpConfFileMax 120) := by
  have hlen : longFile.content.length = vsftpConfFileMax + 5 := by
    rw [longFile, List.length_append, List.length_replicate]
    rfl
  have htake : longFile.content.take vsftpConfFileMax = List.replicate vsftpConfFileMax 120 := by
    rw [longFile, List.take_append_of_le_length (by rw [List.length_replicate]), List.take_of_length_le]
    rw [List.length_replicate]
  have hloop : fileReadLoop longFile.content longFile.reads [] vsftpConfFileMax =
      some (List.replicate vsftpConfFileMax 120) := by
    rw [← htake]
    rfl
  unfold strFileread
  simp only [hlen, show longFile.opens = true from rfl, show longFile.regular = true from rfl, Bool.not_true,
    Bool.false_eq_true, if_false, Nat.lt_add_of_pos_right (show 0 < 5 by omega), if_true, hloop,
    List.length_replicate, ne_eq, not_true_eq_false]

/-- A file can be read and have a line that is not found. -/
theorem list_file_cut : ¬ ∀ (f : ListFile) (name : Bytes) (ret : ℤ) (str : Bytes), f.regular = true →
    strFileread f vsftpConfFileMax = .ok (ret, str) → 0 ≤ ret →
    (strContainsLine str name = true ↔ IsLineOf name f.content) := by
  intro h
  have hiff := h longFile (text "bob") _ _ rfl strFileread_longFile (by omega)
  have hline : IsLineOf (text "bob") longFile.content := by
    refine ⟨by decide, List.replicate vsftpConfFileMax 120 ++ [chLf], [chLf], ?_, .inr ?_, .inl rfl⟩
    · simp only [longFile, List.append_assoc]
      rfl
    · rw [List.getLast?_append]
      rfl
  have hfound := hiff.mpr hline
  rw [strContainsLine, decide_eq_true_eq, mem_strLines_iff] at hfound
  obtain ⟨-, before, behind, heq, -, -⟩ := hfound
  have hmem : (98 : UInt8) ∈ List.replicate vsftpConfFileMax (120 : UInt8) := by
    rw [heq]
    exact List.mem_append_left _ (List.mem_append_right _ (by decide))
  exact absurd (List.eq_of_mem_replicate hmem) (by decide)

end CosFtp
