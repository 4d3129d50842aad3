/-
# Listings do not lie

`vsf_ls_populate_dir_list` makes the lines of a LIST or NLST from what COS says of
the folder and, where a filter was given, of the file the filter may name.
`transfer_dir_internal` writes them out, and "Directory send OK." is the answer when
all of them went through. What went through need not be the folder: the list of
`cos_get_list` comes without a word of how its loop ended, a filter that names a
file is not matched against the folder at all, and neither is one of ordinary
characters that names no file (`listing_honest_iff`).

Key definitions: `vsfLsPopulateDirList`, `HonestListing`, `ListsTruly`.
Key theorem: `listing_honest_iff`.
-/
import Mathlib.Data.List.Perm.Subperm
import CosFtp.CosList
import CosFtp.DirList
import CosFtp.RetrComplete

namespace CosFtp

open Wp

/-! ### The lines of a listing -/

/-- What COS answers while a listing is made, and the dates shown in it. -/
structure ListCos where
  fileStat : Bytes → Option Json
  folderList : Bytes → ℕ → Bytes → Option Json
  timeGetDate : ℤ → Bytes

/-- `cos_stat_file`, with the info it fills in. -/
def statFileInfo (path : Bytes) (root : Json) : OptionT Option FileInfo := do
  let data ← root.answerData
  let fileSize ← OptionT.lift (data.fieldD "filelen" Json.asInt64 0)
  let ctime ← OptionT.lift (data.fieldD "ctime" Json.asInt 0)
  let mtime ← OptionT.lift (data.fieldD "mtime" Json.asInt 0)
  pure ⟨true, path, fileSize, ctime, mtime⟩

def strLpad (s : Bytes) (minWidth : ℕ) : Bytes := List.replicate (minWidth - s.length) chSpace ++ s

def strRpad (s : Bytes) (minWidth : ℕ) : Bytes := s ++ List.replicate (minWidth - s.length) chSpace

/-- What `build_dir_line` puts in front of the name. -/
def dirDetails (timeGetDate : ℤ → Bytes) (info : FileInfo) : Bytes :=
  (if info.isFile then text "----------" else text "d---------") ++ [chSpace] ++
    strLpad (ulongText 1) 4 ++ [chSpace] ++ strRpad (text "ftp") 8 ++ [chSpace] ++
    strRpad (text "ftp") 8 ++ [chSpace] ++ strLpad (text (toString info.fileSize)) 8 ++ [chSpace] ++
    timeGetDate info.mtime ++ [chSpace]

def buildDirLine (timeGetDate : ℤ → Bytes) (filename : Bytes) (info : FileInfo) : Bytes :=
  dirDetails timeGetDate info ++ filename ++ crlf

/-- A node of the list of lines, and the path of what it is for. -/
structure DirLine where
  path : Bytes
  str : Bytes
  sortKey : Bytes
  deriving DecidableEq

/-- `str_strcmp`, not greater. -/
def strStrcmpLe : Bytes → Bytes → Bool
  | [], _ => true
  | _ :: _, [] => false
  | a :: as, b :: bs => a < b || (a = b && strStrcmpLe as bs)

def DirLine.key (d : DirLine) : Bytes := if d.sortKey = [] then d.str else d.sortKey

def strListSort (lines : List DirLine) (reverse : Bool) : List DirLine :=
  lines.mergeSort fun a b => if reverse then strStrcmpLe b.key a.key else strStrcmpLe a.key b.key

/-- The text of `%030ld`. -/
def timeKey (mtime : ℤ) : Bytes :=
  let digits := ulongText mtime.natAbs
  if mtime < 0 then chMinus :: (List.replicate (29 - digits.length) chZero ++ digits)
  else List.replicate (30 - digits.length) chZero ++ digits

def strAllNormalChar (s : Bytes) : Bool := s.all fun b => isalnum b || b = chMinus || b = 95 || b = chDot

/-- The base directory with a slash behind it, or nothing for ".". -/
def normalisedBaseDir (dir : Bytes) : Bytes :=
  let dir := if dir = text "." then [] else dir
  if dir = [] ∨ dir.getLast? = some chSlash then dir else dir ++ [chSlash]

/-- What LIST and NLST ask for. -/
structure ListRequest where
  dir : Bytes
  option : Bytes
  filter : Bytes
  deriving DecidableEq

def ListRequest.base (r : ListRequest) : Bytes := normalisedBaseDir r.dir

def ListRequest.fullFilename (r : ListRequest) : Bytes := r.base ++ r.filter

def ListRequest.has (r : ListRequest) (c : Char) : Bool :=
  (strLocateChar r.option (UInt8.ofNat c.toNat)).isSome

def ListRequest.isVerbose (r : ListRequest) (fullDetails : Bool) : Bool := fullDetails || r.has 'l'

/-- The options -r and -t; the latter turns the order round. -/
def ListRequest.reverse (r : ListRequest) : Bool := if r.has 't' then !r.has 'r' else r.has 'r'

/-- A name passes the filter, if there is one. -/
def ListRequest.passes (r : ListRequest) (name : Bytes) : Bool :=
  r.filter = [] || (vsfFilenamePassesFilter name r.filter 0).1

/-- The lines, and whether `cos_get_list` gave up, which is forgotten. -/
structure Listing where
  lines : List DirLine
  gaveUp : Bool
  deriving DecidableEq

section

variable (T : Tunables) (cos : ListCos) (fuel : ℕ) (cwd : Bytes) (r : ListRequest) (isVerbose : Bool)

def dirLine (path filename : Bytes) (info : FileInfo) (sortKey : Bytes) : DirLine where
  path := path
  str := if isVerbose then buildDirLine cos.timeGetDate filename info else path ++ crlf
  sortKey := sortKey

/-- The answers to the requests for the folder. -/
def ListCos.pages : ℕ → Bytes → Option Json := cos.folderList (getCosFolderPath T cwd r.base)

/-- The answer to the request for the file the filter names. -/
def ListCos.stat : Option (Option FileInfo) :=
  readAnswer (statFileInfo r.fullFilename) (cos.fileStat (getCosPathFromDiskPath T cwd r.fullFilename))

/-- The line for one file of the folder. -/
def folderLine (info : FileInfo) : DirLine :=
  dirLine cos isVerbose (r.base ++ info.fileName) info.fileName info
    (if r.has 't' then timeKey info.mtime else info.fileName)

def listFolder : Option Listing := do
  let (flist, e) ← cosGetList r.passes T.listMaxCount (cos.pages T cwd r) fuel
  pure ⟨strListSort (flist.map (folderLine cos r isVerbose)) r.reverse, e = .gaveUp⟩

/-- `vsf_ls_populate_dir_list` for LIST and NLST; `none` if it does not return. -/
def vsfLsPopulateDirList : Option Listing :=
  if r.filter = [] then listFolder T cos fuel cwd r isVerbose
  else do
    match ← cos.stat T cwd r with
    | some info => pure ⟨[dirLine cos isVerbose r.fullFilename r.fullFilename info r.fullFilename], false⟩
    | none =>
      if strAllNormalChar r.filter then pure ⟨[], false⟩
      else listFolder T cos fuel cwd r isVerbose

end

/-! ### What a listing should be -/

/-- The line shows the path, or the name that the path is made of. -/
def DirLine.Shown (base : Bytes) (d : DirLine) : Prop :=
  ∃ details name, d.str = details ++ name ++ crlf ∧ (d.path = name ∨ d.path = base ++ name)

/-- The paths of the files of the folder that pass the filter. -/
def passingPaths (r : ListRequest) (folder : List FileInfo) : List Bytes :=
  (folder.filter (r.passes ·.fileName)).map (r.base ++ ·.fileName)

/-- The client got one line for each file of the folder that passes the filter, or
list_max_count of them, and the folder was fetched completely. -/
structure HonestListing (T : Tunables) (r : ListRequest) (folder : List FileInfo) (listing : Listing) (sent : Bytes) :
    Prop where
  sent : sent = (listing.lines.map (·.str)).flatten
  shown : ∀ d ∈ listing.lines, d.Shown r.base
  entries : (listing.lines.map (·.path)).Perm (passingPaths r folder) ∨
    0 < T.listMaxCount ∧ listing.lines.length = T.listMaxCount ∧
      (listing.lines.map (·.path)).Subperm (passingPaths r folder)
  fetched : listing.gaveUp = false

/-- The filter names a file, and no other passes it; or it is of ordinary characters,
and no file passes it; or the folder is fetched before a second answer fails. -/
def ListsTruly (T : Tunables) (cos : ListCos) (cwd : Bytes) (r : ListRequest) (folder : List FileInfo) : Prop :=
  if r.filter ≠ [] ∧ (cos.stat T cwd r).join.isSome then
    (folder.filter (r.passes ·.fileName)).map (·.fileName) = [r.filter] ∨
      T.listMaxCount = 1 ∧ r.filter ∈ (folder.filter (r.passes ·.fileName)).map (·.fileName)
  else if r.filter ≠ [] ∧ strAllNormalChar r.filter then ∀ f ∈ folder, r.passes f.fileName = false
  else ¬ GivesUp (cos.pages T cwd r) r.passes T.listMaxCount

section

variable {T : Tunables} {cos : ListCos} {fuel : ℕ} {cwd : Bytes} {r : ListRequest} {isVerbose : Bool}
  {folder : List FileInfo} {listing : Listing}

theorem dirLine_shown {path filename : Bytes} (h : path = filename ∨ path = r.base ++ filename)
    (info : FileInfo) (sortKey : Bytes) : (dirLine cos isVerbose path filename info sortKey).Shown r.base := by
  unfold dirLine DirLine.Shown
  cases isVerbose with
  | true => exact ⟨dirDetails cos.timeGetDate info, filename, rfl, h⟩
  | false => exact ⟨[], path, rfl, .inl rfl⟩

/-- What the listing of a folder holds. -/
theorem listFolder_spec (h : listFolder T cos fuel cwd r isVerbose = some listing) :
    ∃ flist e, cosGetList r.passes T.listMaxCount (cos.pages T cwd r) fuel = some (flist, e) ∧
      listing.lines.Perm (flist.map (folderLine cos r isVerbose)) ∧ (listing.gaveUp = true ↔ e = .gaveUp) := by
  obtain ⟨⟨flist, e⟩, hlist, hrest⟩ := Option.bind_eq_some_iff.mp h
  obtain rfl := Option.some.inj hrest
  exact ⟨flist, e, hlist, List.mergeSort_perm _ _, decide_eq_true_iff⟩

theorem folderLine_path (flist : List FileInfo) :
    (flist.map (folderLine cos r isVerbose)).map (·.path) = flist.map (r.base ++ ·.fileName) := by
  rw [List.map_map]
  rfl

/-- A folder that is listed is listed truly exactly if the fetch does not give up. -/
theorem listFolder_honest_iff {start : Bytes → ℕ} (hserves : ServesFolder (cos.pages T cwd r) folder start)
    (h : listFolder T cos fuel cwd r isVerbose = some listing) :
    (∀ d ∈ listing.lines, d.Shown r.base) ∧
    (((listing.lines.map (·.path)).Perm (passingPaths r folder) ∨
      0 < T.listMaxCount ∧ listing.lines.length = T.listMaxCount ∧
        (listing.lines.map (·.path)).Subperm (passingPaths r folder)) ∧ listing.gaveUp = false ↔
      ¬ GivesUp (cos.pages T cwd r) r.passes T.listMaxCount) := by
  obtain ⟨flist, e, hlist, hperm, hup⟩ := listFolder_spec h
  obtain ⟨hgives, hshows⟩ := cosGetList_spec hserves hlist
  have hpaths := hperm.map (·.path)
  rw [folderLine_path] at hpaths
  constructor
  · intro d hd
    obtain ⟨info, -, rfl⟩ := List.mem_map.mp (hperm.mem_iff.mp hd)
    exact dirLine_shown (.inr rfl) _ _
  constructor
  · rintro ⟨-, hno⟩ hgive
    rw [hup.mpr (hgives.mpr hgive)] at hno
    cases hno
  · intro hno
    have hne : e ≠ .gaveUp := fun he => hno (hgives.mp he)
    refine ⟨?_, Bool.eq_false_iff.mpr fun htrue => hne (hup.mp htrue)⟩
    rcases hshows hne with hall | ⟨hpos, hlen, hinit⟩
    · left
      rw [hall] at hpaths
      exact hpaths
    · right
      refine ⟨hpos, ?_, ?_⟩
      · rw [hperm.length_eq, List.length_map, hlen]
      · exact hpaths.subperm.trans (hinit.sublist.map _).subperm

/-- The line of the file that the filter names is the folder's listing exactly if no other file
passes. -/
theorem fileLine_iff : (([r.fullFilename]).Perm (passingPaths r folder) ∨
      0 < T.listMaxCount ∧ 1 = T.listMaxCount ∧ ([r.fullFilename]).Subperm (passingPaths r folder)) ↔
    ((folder.filter (r.passes ·.fileName)).map (·.fileName) = [r.filter] ∨
      T.listMaxCount = 1 ∧ r.filter ∈ (folder.filter (r.passes ·.fileName)).map (·.fileName)) := by
  have hpaths : passingPaths r folder =
      ((folder.filter (r.passes ·.fileName)).map (·.fileName)).map (r.base ++ ·) := by
    rw [List.map_map]
    rfl
  have hinj : Function.Injective (r.base ++ · : Bytes → Bytes) := List.append_right_injective r.base
  rw [hpaths]
  apply or_congr
  · rw [List.singleton_perm, show [r.fullFilename] = [r.filter].map (r.base ++ ·) from rfl,
      (List.map_injective_iff.mpr hinj).eq_iff]
    exact eq_comm
  · rw [List.singleton_subperm_iff, ListRequest.fullFilename, List.mem_map_of_injective hinj]
    constructor
    · intro hlimit
      obtain ⟨-, hone, hmem⟩ := hlimit
      exact ⟨hone.symm, hmem⟩
    · intro hlimit
      obtain ⟨hone, hmem⟩ := hlimit
      exact ⟨by omega, hone.symm, hmem⟩

/-- **The lines are the folder's exactly if `ListsTruly` holds.** -/
theorem vsfLsPopulateDirList_honest_iff {start : Bytes → ℕ}
    (hserves : ServesFolder (cos.pages T cwd r) folder start)
    (h : vsfLsPopulateDirList T cos fuel cwd r isVerbose = some listing) {sent : Bytes}
    (hsent : sent = (listing.lines.map (·.str)).flatten) :
    HonestListing T r folder listing sent ↔ ListsTruly T cos cwd r folder := by
  have hfolder : listFolder T cos fuel cwd r isVerbose = some listing →
      (HonestListing T r folder listing sent ↔ ¬ GivesUp (cos.pages T cwd r) r.passes T.listMaxCount) := by
    intro hlist
    obtain ⟨hshown, hiff⟩ := listFolder_honest_iff hserves hlist
    rw [← hiff]
    exact ⟨fun hh => ⟨hh.entries, hh.fetched⟩, fun hh => ⟨hsent, hshown, hh.1, hh.2⟩⟩
  unfold vsfLsPopulateDirList at h
  unfold ListsTruly
  by_cases hempty : r.filter = []
  · rw [if_pos hempty] at h
    rw [if_neg (by simp [hempty]), if_neg (by simp [hempty])]
    exact hfolder h
  · rw [if_neg hempty] at h
    obtain ⟨answer, hanswer, hrest⟩ := Option.bind_eq_some_iff.mp h
    rw [hanswer]
    cases answer with
    | some info =>
      obtain rfl := Option.some.inj hrest
      rw [if_pos ⟨hempty, rfl⟩, ← fileLine_iff]
      constructor
      · intro hh
        exact hh.entries
      · intro hh
        refine ⟨hsent, ?_, hh, rfl⟩
        intro d hd
        rw [List.mem_singleton.mp hd]
        exact dirLine_shown (.inl rfl) _ _
    | none =>
      rw [if_neg (by simp)]
      by_cases hnormal : strAllNormalChar r.filter = true
      · simp only [hnormal, if_true] at hrest
        obtain rfl := Option.some.inj hrest
        rw [if_pos ⟨hempty, hnormal⟩]
        have hnone : passingPaths r folder = [] ↔ ∀ f ∈ folder, r.passes f.fileName = false := by
          simp [passingPaths, List.filter_eq_nil_iff]
        rw [← hnone]
        constructor
        · intro hh
          rcases hh.entries with hperm | ⟨hpos, hlen, -⟩
          · exact hperm.symm.eq_nil
          · rw [← hlen] at hpos
            exact absurd hpos (Nat.lt_irrefl 0)
        · intro hnil
          refine ⟨hsent, by simp, .inl ?_, rfl⟩
          rw [hnil]
          exact List.Perm.nil
      · rw [if_neg (by simp [hnormal])]
        rw [if_neg hnormal] at hrest
        exact hfolder hrest

end

/-! ### What goes out -/

/-- If the listing is said to have arrived, the client got these bytes. -/
def Delivered (bs : Bytes) (w w' : World) : Prop :=
  ∃ es, w'.events = w.events ++ es ∧ (directorySendOk ∈ es → w'.conn.sent = bs)

theorem directorySendOk_not_mild : directorySendOk.mild = false := by decide

section

variable {T : Tunables} {env : Env} {bs : Bytes} {w w' w'' : World}

theorem Quiet.delivered (h : Quiet w w') : Delivered bs w w' := by
  obtain ⟨es, hes, hmild⟩ := h
  refine ⟨es, hes, ?_⟩
  intro hmem
  have hfalse := hmild _ hmem
  rw [directorySendOk_not_mild] at hfalse
  cases hfalse

/-- Steps in front of it. -/
theorem Quiet.delivered_trans (h : Quiet w w') (h' : Delivered bs w' w'') : Delivered bs w w'' := by
  obtain ⟨es, hes, hmild⟩ := h
  obtain ⟨es', hes', hsent⟩ := h'
  refine ⟨es ++ es', by rw [hes', hes, List.append_assoc], ?_⟩
  intro hmem
  rcases List.mem_append.mp hmem with hmem | hmem
  · have hfalse := hmild _ hmem
    rw [directorySendOk_not_mild] at hfalse
    cases hfalse
  · exact hsent hmem

/-- Steps behind it. -/
theorem Delivered.winding (h : Delivered bs w w') (h' : Winding w' w'') : Delivered bs w w'' := by
  obtain ⟨es, hes, hsent⟩ := h
  obtain ⟨es', hes', hplain⟩ := h'.events
  refine ⟨es ++ es', by rw [hes', hes, List.append_assoc], ?_⟩
  intro hmem
  rw [h'.conn]
  rcases List.mem_append.mp hmem with hmem | hmem
  · exact hsent hmem
  · have hfalse := Event.mild_of_plain (hplain _ hmem)
    rw [directorySendOk_not_mild] at hfalse
    cases hfalse

/-- A string that was written is with the client. -/
theorem ftpWriteStrData_sent (str : Bytes) (w : World) :
    wp (ftpWriteStrData T env str)
      (fun ok w' => Quiet w w' ∧ (ok = true → w'.conn.sent = w.conn.sent ++ str))
      (fun _ w' => Quiet w w') w := by
  have hquiet : ∀ {k ret w'}, Talk SignalReply (w.wrote (str.take k) ret) w' → Quiet w w' := by
    intro k ret w' htalk
    obtain ⟨es, hes, hsig, -⟩ := htalk.events
    refine ⟨.dataWrite ret :: es, ?_, ?_⟩
    · rw [hes]
      simp [World.wrote]
    · intro e he
      rcases List.mem_cons.mp he with rfl | he
      · rfl
      · exact Event.mild_of_plain (hsig e he).plain
  unfold ftpWriteStrData
  rw [wp_bind]
  refine wp_mono (ftpWriteData_spec str w) ?_ ?_
  · intro ret w1 hw1
    obtain ⟨k, -, hret, htalk⟩ := hw1
    refine ⟨hquiet htalk, ?_⟩
    intro hok
    have hlen : ret = str.length := by simpa using hok
    have hk : k = str.length := by
      have hret' := hret (by omega)
      omega
    rw [htalk.conn, hk, List.take_length]
    rfl
  · intro _ w1 hw1
    obtain ⟨-, k, -, ret, htalk⟩ := hw1
    exact hquiet htalk

/-- **A list of lines that was written is with the client.** -/
theorem writeDirList_sent : ∀ (lines : List Bytes) (buf : Bytes) (w : World), (lines = [] → buf = []) →
    wp (writeDirList (ftpWriteStrData T env) buf lines)
      (fun ok w' => Quiet w w' ∧ (ok = true → w'.conn.sent = w.conn.sent ++ buf ++ lines.flatten))
      (fun _ w' => Quiet w w') w
  | [], buf, w, hbuf => by
    rw [hbuf rfl]
    exact ⟨refl w, fun _ => by simp⟩
  | [last], buf, w, _ => by
    refine wp_mono (ftpWriteStrData_sent (buf ++ last) w) ?_ (fun _ _ he => he)
    intro ok w1 hw1
    refine ⟨hw1.1, ?_⟩
    intro hok
    rw [hw1.2 hok]
    simp
  | line :: next :: rest, buf, w, _ => by
    have hflat : (line :: next :: rest).flatten = line ++ (next :: rest).flatten := rfl
    unfold writeDirList
    by_cases hfull : vsftpDirBufsize < (buf ++ line).length + next.length
    · rw [if_pos hfull, wp_bind]
      refine wp_mono (ftpWriteStrData_sent (buf ++ line) w) ?_ (fun _ _ he => he)
      intro ok w1 hw1
      obtain ⟨hquiet, hsent⟩ := hw1
      cases ok with
      | false => exact ⟨hquiet, by simp⟩
      | true =>
        simp only [if_true]
        refine wp_mono (writeDirList_sent (next :: rest) [] w1 (by simp)) ?_ (fun _ _ he => hquiet.trans he)
        intro ok w2 hw2
        refine ⟨hquiet.trans hw2.1, ?_⟩
        intro hok
        rw [hw2.2 hok, hsent rfl, hflat]
        simp
    · rw [if_neg hfull]
      refine wp_mono (writeDirList_sent (next :: rest) (buf ++ line) w (by simp)) ?_ (fun _ _ he => he)
      intro ok w1 hw1
      refine ⟨hw1.1, ?_⟩
      intro hok
      rw [hw1.2 hok, hflat]
      simp

/-- The answer, behind the lines. -/
theorem dirReply_delivered {sent disposed : Bool} {w₀ : World} (hquiet : Quiet w₀ w)
    (hsent : sent = true → w.conn.sent = bs) :
    wp (dirReply T env sent disposed) (fun _ w' => Delivered bs w₀ w') (fun _ w' => Delivered bs w₀ w') w := by
  set w1 := w.outputLogged T directorySendOk with hw1
  have hlogged : Talk SignalReply w w1 := outputLogged_talk _ w
  have hend : ∀ {w'}, w.conn.sent = bs → Talk SignalReply { w1 with events := w1.events ++ [directorySendOk] } w' →
      Delivered bs w w' := by
    intro w' hbs htalk
    obtain ⟨es, hes, -⟩ := htalk.events
    obtain ⟨es₀, hes₀, -⟩ := hlogged.events
    refine ⟨es₀ ++ directorySendOk :: es, by rw [hes, hes₀]; simp, ?_⟩
    intro _
    rw [htalk.conn]
    exact (congrArg DataConn.sent hlogged.conn).trans hbs
  unfold dirReply
  rw [wp_bind, wp_get, wp_ite]
  split
  · rw [wp_when]
    split
    · refine wp_mono (vsfCmdioWrite_quiet (by decide) w) ?_ ?_
      · exact fun _ _ hq => (hquiet.trans hq).delivered
      · exact fun _ _ hq => (hquiet.trans hq.2).delivered
    · exact hquiet.delivered
  · next hboth =>
    have hbs : w.conn.sent = bs := by
      apply hsent
      cases sent with
      | true => rfl
      | false => exact absurd rfl hboth
    unfold vsfCmdioWrite vsfCmdioWriteStr
    rw [wp_bind, wp_writeControl]
    split
    · refine wp_mono (checkPendingActions_talk (P := SignalReply) (fun _ h => h) _) ?_ ?_
      · exact fun _ _ htalk => hquiet.delivered_trans (hend hbs htalk)
      · exact fun _ _ htalk => hquiet.delivered_trans (hend hbs htalk.2)
    · exact (hquiet.trans (hlogged.mono fun _ => SignalReply.plain).traced.quiet).delivered

/-- Steps behind it, as a program. -/
theorem winding_delivered {α : Type} {x : M α} (hx : Within Winding Halt.Any x) {w₀ : World}
    (h : Delivered bs w₀ w) : wp x (fun _ w' => Delivered bs w₀ w') (fun _ w' => Delivered bs w₀ w') w := by
  refine wp_mono (hx w) ?_ ?_
  · exact fun _ _ hwind => h.winding hwind
  · exact fun _ _ hwind => h.winding hwind.2

/-- LIST and NLST, from the data connection on. -/
theorem listTransfer_delivered (respmsgs lines : List Bytes) (w : World) :
    wp (listTransfer T env respmsgs lines) (fun _ w' => Delivered lines.flatten w w')
      (fun _ w' => Delivered lines.flatten w w') w := by
  unfold listTransfer
  rw [wp_bind]
  refine wp_mono (getRemoteTransferFd_started _ w) ?_ (fun _ _ he => he.quiet.delivered)
  intro connected w1 hw1
  obtain ⟨hprep, hstarted⟩ := hw1
  rw [wp_ite]
  cases connected with
  | false => exact winding_delivered transferCleanup_winding hprep.quiet.delivered
  | true =>
    rw [if_neg (by decide)]
    -- the new connection has nothing on it yet
    have hnew : w1.conn.sent = [] := by
      obtain ⟨w0, -, hconn, htraced⟩ := hstarted rfl
      rw [htraced.conn]
      exact congrArg DataConn.sent hconn
    unfold transferDirInternal
    rw [wp_bind, wp_bind]
    refine wp_mono (vsfLogDebug_logged _ w1) ?_ (fun _ _ hf => hf.elim)
    intro _ w1' hlogged
    have hquiet1 : Quiet w w1' := hprep.quiet.trans hlogged.quiet
    refine wp_mono (writeDirList_sent lines [] w1' (fun _ => rfl)) ?_
      (fun _ _ he => (hquiet1.trans he).delivered)
    intro sent w2 hw2
    obtain ⟨hquiet, hsent⟩ := hw2
    have hquiet2 : Quiet w w2 := hquiet1.trans hquiet
    rw [wp_bind]
    refine wp_mono (vsfFtpdataioDisposeTransferFd_traced w2) ?_
      (fun _ _ he => (hquiet2.trans he.2.quiet).delivered)
    intro disposed w3 htraced
    have hsent3 : sent = true → w3.conn.sent = lines.flatten := by
      intro hok
      rw [htraced.conn, hsent hok, hlogged.conn, hnew]
      rfl
    unfold dirResult
    simp only [wp_bind]
    refine wp_mono (dirReply_delivered (hquiet2.trans htraced.quiet) hsent3) ?_ (fun _ _ he => he)
    intro _ w4 hw4
    refine wp_mono (winding_delivered checkAbor_winding hw4) ?_ (fun _ _ he => he)
    intro _ w5 hw5
    exact winding_delivered transferCleanup_winding hw5

end

/-! ### The command -/

/-- The request that `handle_dir_common` makes of an argument to LIST or NLST. -/
def listRequest (T : Tunables) (env : Env) (w : World) (arg : Bytes) : ListRequest :=
  let (option, filter) := splitListArg arg
  if filter = [] then ⟨text ".", option, []⟩
  else
    let filter := resolveTilde T w.sess.homeStr env.getpwnam filter
    let (dir, filter) :=
      if env.folderStat || env.folderEmpty = 1 then (filter, []) else splitListFilter filter
    ⟨dir, option, filter⟩

section

variable {T : Tunables} {env : Env} {w : World}

/-- A question to COS, and what is logged of an answer that cannot be used. -/
theorem asked_quiet {α : Type} {req : CosReq} (hreq : (Event.cos req).mild = true) (c : Prop) [Decidable c]
    (respmsg : Bytes) (a : α) (w : World) : wp (do
      emit (.cos req)
      when c (vsfLogDebug [respmsg])
      pure a : M α) (fun b w' => Quiet w w' ∧ b = a) (fun _ _ => False) w := by
  have hasked : Quiet w { w with events := w.events ++ [.cos req] } := ⟨[.cos req], rfl, by simpa using hreq⟩
  unfold emit
  rw [wp_bind, wp_modify, wp_bind, wp_when]
  split
  · refine wp_mono (vsfLogDebug_logged _ _) ?_ (fun _ _ hf => hf)
    exact fun _ _ hlogged => ⟨hasked.trans hlogged.quiet, rfl⟩
  · exact ⟨hasked, rfl⟩

/-- `cos_isdir` asks its questions and changes nothing but the log. -/
theorem cosIsdir_eq (path : Bytes) (w : World) :
    wp (cosIsdir T env path) (fun isDir w' => Quiet w w' ∧ isDir = (env.folderStat || env.folderEmpty = 1))
      (fun _ _ => False) w := by
  unfold cosIsdir cosStatDir cosDirIsempty
  rw [wp_bind, wp_bind, wp_get]
  refine wp_mono (asked_quiet rfl _ _ _ w) ?_ (fun _ _ hf => hf)
  rintro isDir w1 ⟨hquiet, rfl⟩
  rw [wp_ite]
  cases env.folderStat with
  | true => exact ⟨hquiet, rfl⟩
  | false =>
    rw [if_neg Bool.false_ne_true, wp_bind, wp_bind, wp_get]
    refine wp_mono (asked_quiet rfl _ _ _ w1) ?_ (fun _ _ hf => hf)
    rintro empty w2 ⟨hquiet2, rfl⟩
    exact ⟨hquiet.trans hquiet2, rfl⟩

/-- **A listing that is said to have arrived is the lines that were made of it.** -/
theorem handleDirCommon_delivered (fullDetails : Bool) (arg : Bytes) {lines : List Bytes}
    (hlines : env.dirLines (listRequest T env w arg).dir (listRequest T env w arg).option
      (listRequest T env w arg).filter fullDetails = lines) :
    wp (handleDirCommon T env fullDetails false arg) (fun _ w' => Delivered lines.flatten w w')
      (fun _ w' => Delivered lines.flatten w w') w := by
  have htransfer : ∀ {w1 : World} {r : ListRequest}, Quiet w w1 → listRequest T env w arg = r →
      wp (dirTransfer T env fullDetails false r.dir r.option r.filter)
        (fun _ w' => Delivered lines.flatten w w') (fun _ w' => Delivered lines.flatten w w') w1 := by
    rintro w1 r hquiet rfl
    unfold dirTransfer
    rw [if_neg Bool.false_ne_true, hlines]
    refine wp_mono (listTransfer_delivered _ lines w1) ?_ ?_
    · exact fun _ _ hd => hquiet.delivered_trans hd
    · exact fun _ _ hd => hquiet.delivered_trans hd
  unfold handleDirCommon dirChecksOk
  rw [wp_bind, if_neg Bool.false_ne_true]
  refine wp_mono (dataTransferChecksOk_ready w) ?_ (fun _ _ he => he.quiet.delivered)
  intro ok w1 hw1
  obtain ⟨htraced, hsame⟩ := hw1
  have hquiet : Quiet w w1 := htraced.quiet
  cases ok with
  | false => exact hquiet.delivered
  | true =>
    obtain ⟨⟨calls, hcalls⟩, -⟩ := hsame rfl
    have hsess : w1.sess = w.sess := by rw [hcalls]
    rw [if_neg (by decide)]
    by_cases hempty : (splitListArg arg).2 = []
    · have hrequest : listRequest T env w arg = ⟨text ".", (splitListArg arg).1, []⟩ := by
        unfold listRequest
        exact if_pos hempty
      simp only [hempty, if_true]
      exact htransfer hquiet hrequest
    · simp only [hempty, if_false]
      unfold dirFiltered resolveTildeArg checkFile listsDirectory
      simp only [wp_bind, wp_get, wp_pure, wp_ite]
      split
      · refine wp_mono (vsfCmdioWrite_quiet (by decide) w1) ?_ ?_
        · exact fun _ _ hq => (hquiet.trans hq).delivered
        · exact fun _ _ hq => (hquiet.trans hq.2).delivered
      · rw [if_neg Bool.false_ne_true]
        refine wp_mono (cosIsdir_eq _ w1) ?_ (fun _ _ he => he.elim)
        rintro isDir w2 ⟨hasked, rfl⟩
        apply htransfer (r := ⟨_, _, _⟩) (hquiet.trans hasked)
        unfold listRequest
        rw [hsess]
        exact if_neg hempty

end

/-! ### Two runs -/

/-- One of the infos of an answer. -/
def fileJson (name : String) : Json :=
  .object [(text "name", .string (text name)), (text "sha", .string [])]

/-- An answer with a page of the folder. -/
def pageJson (names : List String) (listover : Bool) (context : String) : Json :=
  .object [(text "code", .int 0), (text "data", .object [(text "infos", .array (names.map fileJson)),
    (text "listover", .bool listover), (text "context", .string (text context))])]

/-- The file that `fileJson` tells of. -/
def plainFile (name : String) : FileInfo := ⟨true, text name, 0, 0, 0⟩

/-- A COS that gives one page, with the file x, and nothing else. -/
def onePageCos (listover : Bool) : ListCos where
  fileStat := fun _ => none
  folderList := fun _ n _ => if n = 0 then some (pageJson ["x"] listover "c") else none
  timeGetDate := fun _ => []

/-- A client that takes the listing that is made of the answers. -/
def listEnv (cos : ListCos) : Env where
  connect := { accept := .conn 7 (host10 1 50000) }
  dirLines := fun dir option filter fullDetails =>
    ((vsfLsPopulateDirList habServer cos 4 habRoot.path ⟨dir, option, filter⟩
      ((ListRequest.mk dir option filter).isVerbose fullDetails)).map fun l => l.lines.map (·.str)).getD []

/-- NLST without an argument. -/
def rootRequest : ListRequest := ⟨text ".", [], []⟩

/-- The root, listed by NLST. -/
def nlstWorld (cos : ListCos) : World := after (handleNlst habServer (listEnv cos) []) habWorld

theorem onePageCos_serves {listover : Bool} {rest : List FileInfo} (h : listover = true → rest = []) :
    ServesFolder ((onePageCos listover).pages habServer habRoot.path rootRequest) (plainFile "x" :: rest)
      List.length := by
  constructor
  · rfl
  · intro n page hpage
    cases n with
    | zero =>
      have hfirst : pageAt ((onePageCos listover).pages habServer habRoot.path rootRequest) 0 =
          some ⟨[fileJson "x"], listover, text "c"⟩ := by cases listover <;> rfl
      obtain rfl := Option.some.inj (hfirst.symm.trans hpage)
      refine ⟨1, rfl, ?_, fun _ => rfl⟩
      intro hover
      rw [h hover]
      exact Nat.le_refl 1
    | succ n => cases hpage

/-- The listing of x. -/
def xListing (gaveUp : Bool) : Listing := ⟨[⟨text "x", text "x" ++ crlf, text "x"⟩], gaveUp⟩

end CosFtp
