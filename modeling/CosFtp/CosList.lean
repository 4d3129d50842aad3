/-
# Fetching a folder from COS

`cos_get_list` asks for a folder page by page, each request with the context of
the page before it. An answer that is not a page costs one of two tries; when both
are gone the loop ends and hands over what it has, as it does behind the last page.
The server is a function from the number of the request and its context to the
answer. jsoncpp throws where a value that is neither an object nor null is asked
for a member; that ends the process and is `none` here, and so is a loop that
does not end within the given number of requests.

A server tells the truth about a folder if each page it gives is the stretch of
the folder behind its context (`ServesFolder`). It may fail as often as it likes.

Key definitions: `cosGetListLoop`, `ServesFolder`, `GivesUp`.
Key theorem: `cosGetList_spec`.
-/
import Mathlib.Order.Monotone.Basic
import CosFtp.Filter

namespace CosFtp

/-! ### The answers -/

/-- A value that jsoncpp has read. -/
inductive Json where
  | null
  | bool (b : Bool)
  /-- a number without a fraction -/
  | int (n : ℤ)
  /-- any other number -/
  | real
  | string (s : Bytes)
  | array (items : List Json)
  | object (members : List (Bytes × Json))

namespace Json

/-- `isMember` and then `[]`. -/
def member (key : String) : Json → Option (Option Json)
  | .object members => some ((members.find? fun m => m.1 = text key).map (·.2))
  | .null => some none
  | _ => none

/-- `isInt` and `asInt`. -/
def asInt : Json → Option ℤ
  | .int n => if -(2 ^ 31) ≤ n ∧ n < 2 ^ 31 then some n else none
  | _ => none

def asInt64 : Json → Option ℤ
  | .int n => if -(2 ^ 63) ≤ n ∧ n < 2 ^ 63 then some n else none
  | _ => none

def asBool : Json → Option Bool
  | .bool b => some b
  | _ => none

def asString : Json → Option Bytes
  | .string s => some s
  | _ => none

def asArray : Json → Option (List Json)
  | .array items => some items
  | _ => none

def isObject : Json → Bool
  | .object _ => true
  | _ => false

/-- A member that has to be there and of its type, or the answer is none. -/
def field {α : Type} (v : Json) (key : String) (as : Json → Option α) : OptionT Option α :=
  OptionT.mk ((v.member key).map fun m => m.bind as)

/-- A member, or what stands for it. -/
def fieldD {α : Type} (v : Json) (key : String) (as : Json → Option α) (default : α) : Option α :=
  (v.member key).map fun m => (m.bind as).getD default

/-- The data of an answer with code 0. -/
def answerData (root : Json) : OptionT Option Json := do
  let code ← root.field "code" asInt
  guard (code = 0)
  root.field "data" fun data => if data.isObject then some data else none

end Json

/-- `struct file_info`. -/
structure FileInfo where
  isFile : Bool
  fileName : Bytes
  fileSize : ℤ
  ctime : ℤ
  mtime : ℤ
  deriving DecidableEq

/-- One of the infos of a page. -/
def fileInfo (v : Json) : Option FileInfo := do
  let name ← v.fieldD "name" Json.asString []
  let sha ← v.member "sha"
  let fileSize ← v.fieldD "filelen" Json.asInt64 0
  let ctime ← v.fieldD "ctime" Json.asInt 0
  let mtime ← v.fieldD "mtime" Json.asInt 0
  pure ⟨sha.isSome, cstr name, fileSize, ctime, mtime⟩

/-- What `cos_get_list` takes of an answer. -/
structure Page where
  infos : List Json
  listover : Bool
  context : Bytes

def listPage (root : Json) : OptionT Option Page := do
  let data ← root.answerData
  let infos ← data.field "infos" Json.asArray
  let listover ← data.field "listover" Json.asBool
  let context ← data.field "context" Json.asString
  pure ⟨infos, listover, context⟩

/-- An answer, or none where the reader finds no JSON in it. -/
def readAnswer {α : Type} (read : Json → OptionT Option α) : Option Json → Option (Option α)
  | none => some none
  | some root => (read root).run

/-! ### The loop -/

/-- How the loop of `cos_get_list` ends, which its caller is not told: it has
list_max_count files, or the last page, or no tries left. -/
inductive ListEnd where
  | full
  | over
  | gaveUp
  deriving DecidableEq

section

variable (passes : Bytes → Bool) (maxCount : ℕ)

/-- The infos of a page are added, and whether that made the list full. -/
def readInfos : List Json → List FileInfo → Option (List FileInfo × Bool)
  | [], flist => some (flist, false)
  | v :: infos, flist => do
    let info ← fileInfo v
    if !passes info.fileName then readInfos infos flist
    else if 0 < maxCount ∧ maxCount ≤ flist.length + 1 then some (flist ++ [info], true)
    else readInfos infos (flist ++ [info])

variable (server : ℕ → Bytes → Option Json)

/-- The loop of `cos_get_list`, at its `n`-th request. -/
def cosGetListLoop : ℕ → ℕ → ℕ → Bytes → List FileInfo → Option (List FileInfo × ListEnd)
  | 0, _, _, _, _ => none
  | fuel + 1, tryTimes, n, context, flist =>
    if tryTimes = 0 then some (flist, .gaveUp)
    else do
      match ← readAnswer listPage (server n context) with
      | none => cosGetListLoop fuel (tryTimes - 1) (n + 1) context flist
      | some page =>
        let (flist, full) ← readInfos passes maxCount page.infos flist
        if full then some (flist, .full)
        else if page.listover then some (flist, .over)
        else cosGetListLoop fuel tryTimes (n + 1) page.context flist

/-- `cos_get_list`, within `fuel` requests. -/
def cosGetList (fuel : ℕ) : Option (List FileInfo × ListEnd) :=
  cosGetListLoop passes maxCount server fuel 2 0 [] []

end

/-! ### What the server said -/

section

variable (server : ℕ → Bytes → Option Json)

/-- The context of the `n`-th request. -/
def contextAt : ℕ → Bytes
  | 0 => []
  | n + 1 =>
    match readAnswer listPage (server n (contextAt n)) with
    | some (some page) => page.context
    | _ => contextAt n

/-- The page that the `n`-th answer holds, if it holds one. -/
def pageAt (n : ℕ) : Option Page := (readAnswer listPage (server n (contextAt server n))).join

/-- The files on a page. -/
def Page.files (page : Page) : List FileInfo := page.infos.filterMap fileInfo

/-- The files on the pages before the `n`-th request. -/
def received : ℕ → List FileInfo
  | 0 => []
  | n + 1 => received n ++ ((pageAt server n).map Page.files).getD []

/-- The answers before the `n`-th request that were no page. -/
def failures : ℕ → ℕ
  | 0 => 0
  | n + 1 => failures n + if (pageAt server n).isNone then 1 else 0

/-- The `n`-th answer ends the listing: it is the last page, or fills the list. -/
def Ends (passes : Bytes → Bool) (maxCount n : ℕ) : Prop :=
  ∃ page, pageAt server n = some page ∧ (page.listover = true ∨
    0 < maxCount ∧ maxCount ≤ ((received server (n + 1)).filter (passes ·.fileName)).length)

/-- Two answers are no page before one ends the listing. -/
def GivesUp (passes : Bytes → Bool) (maxCount : ℕ) : Prop :=
  ∃ n, 2 ≤ failures server n ∧ ∀ m < n, ¬ Ends server passes maxCount m

/-- Each page is the stretch of the folder behind its context; a page that is not
the last names where the next one starts. -/
structure ServesFolder (folder : List FileInfo) (start : Bytes → ℕ) : Prop where
  first : start [] = 0
  page : ∀ n page, pageAt server n = some page → ∃ k,
    page.files = (folder.drop (start (contextAt server n))).take k ∧
      (page.listover = true → folder.length ≤ start (contextAt server n) + k) ∧
      (page.listover = false → start page.context = start (contextAt server n) + k)

end

section

variable {passes : Bytes → Bool} {maxCount : ℕ} {server : ℕ → Bytes → Option Json}

theorem failures_mono : Monotone (failures server) :=
  monotone_nat_of_le_succ fun _ => Nat.le_add_right _ _

/-- A listing that ends before a second failure is not given up. -/
theorem not_givesUp {n : ℕ} (hends : Ends server passes maxCount n) (hfail : failures server n < 2) :
    ¬ GivesUp server passes maxCount := by
  rintro ⟨k, hk, hnone⟩
  rcases Nat.lt_or_ge n k with hlt | hge
  · exact hnone n hlt hends
  · have hmono : failures server k ≤ failures server n := failures_mono hge
    omega

/-! ### One page -/

/-- What the infos of a page make of the list. -/
theorem readInfos_spec : ∀ (infos : List Json) (flist out : List FileInfo) (full : Bool),
    (0 < maxCount → flist.length < maxCount) →
    readInfos passes maxCount infos flist = some (out, full) →
    (full = false → out = flist ++ (infos.filterMap fileInfo).filter (passes ·.fileName) ∧
      (0 < maxCount → out.length < maxCount)) ∧
    (full = true → 0 < maxCount ∧ out.length = maxCount ∧
      out <+: flist ++ (infos.filterMap fileInfo).filter (passes ·.fileName))
  | [], flist, out, full, hlen, h => by
    obtain ⟨rfl, rfl⟩ : flist = out ∧ false = full := by simpa [readInfos] using h
    constructor
    · intro _
      exact ⟨by simp, hlen⟩
    · intro hfalse
      cases hfalse
  | v :: infos, flist, out, full, hlen, h => by
    unfold readInfos at h
    obtain ⟨info, hinfo, hrest⟩ := Option.bind_eq_some_iff.mp h
    have hcons : (v :: infos).filterMap fileInfo = info :: infos.filterMap fileInfo :=
      List.filterMap_cons_some hinfo
    rw [hcons]
    by_cases hpass : passes info.fileName = true
    · rw [List.filter_cons_of_pos (by simpa using hpass)]
      simp only [hpass, Bool.not_true, Bool.false_eq_true, if_false] at hrest
      by_cases hfull : 0 < maxCount ∧ maxCount ≤ flist.length + 1
      · rw [if_pos hfull] at hrest
        obtain ⟨rfl, rfl⟩ : flist ++ [info] = out ∧ true = full := by simpa using hrest
        have hlt := hlen hfull.1
        refine ⟨by simp, fun _ => ⟨hfull.1, ?_, ?_⟩⟩
        · rw [List.length_append, List.length_singleton]
          omega
        · exact ⟨_, (List.append_cons flist info _).symm⟩
      · rw [if_neg hfull] at hrest
        have hlen' : 0 < maxCount → (flist ++ [info]).length < maxCount := by
          intro hpos
          rw [List.length_append, List.length_singleton]
          omega
        rw [List.append_cons]
        exact readInfos_spec infos _ out full hlen' hrest
    · rw [List.filter_cons_of_neg (by simpa using hpass)]
      simp only [hpass, Bool.not_false, if_true] at hrest
      exact readInfos_spec infos flist out full hlen hrest

/-! ### All pages -/

theorem pageAt_eq {n : ℕ} {answer : Option Page}
    (h : readAnswer listPage (server n (contextAt server n)) = some answer) : pageAt server n = answer := by
  rw [pageAt, h]
  rfl

theorem contextAt_succ (n : ℕ) : contextAt server (n + 1) =
    ((pageAt server n).map Page.context).getD (contextAt server n) := by
  rw [contextAt, pageAt]
  cases readAnswer listPage (server n (contextAt server n)) with
  | none => rfl
  | some answer => cases answer <;> rfl

theorem received_of_page {n : ℕ} {page : Page} (h : pageAt server n = some page) :
    received server (n + 1) = received server n ++ page.files := by
  rw [received, h]
  rfl

/-- What the loop has come to at its `n`-th request. -/
structure Fetching (passes : Bytes → Bool) (maxCount : ℕ) (server : ℕ → Bytes → Option Json)
    (tryTimes n : ℕ) (flist : List FileInfo) : Prop where
  tries : tryTimes + failures server n = 2
  going : ∀ m < n, ¬ Ends server passes maxCount m
  list : flist = (received server n).filter (passes ·.fileName)
  room : 0 < maxCount → flist.length < maxCount

/-- How the list relates to the way the loop ended. -/
def Fetched (passes : Bytes → Bool) (maxCount : ℕ) (server : ℕ → Bytes → Option Json)
    (out : List FileInfo) : ListEnd → Prop
  | .gaveUp => GivesUp server passes maxCount
  | .over => ∃ n page, pageAt server n = some page ∧ page.listover = true ∧
      (∀ m < n, ¬ Ends server passes maxCount m) ∧ failures server n < 2 ∧
      out = (received server (n + 1)).filter (passes ·.fileName)
  | .full => ∃ n page, pageAt server n = some page ∧ (∀ m < n, ¬ Ends server passes maxCount m) ∧
      failures server n < 2 ∧ 0 < maxCount ∧ out.length = maxCount ∧
      out <+: (received server (n + 1)).filter (passes ·.fileName)

/-- **The loop gives up, or it has all that was on the pages up to the end.** -/
theorem cosGetListLoop_fetched : ∀ (fuel tryTimes n : ℕ) (flist out : List FileInfo) (e : ListEnd),
    Fetching passes maxCount server tryTimes n flist →
    cosGetListLoop passes maxCount server fuel tryTimes n (contextAt server n) flist = some (out, e) →
    Fetched passes maxCount server out e
  | 0, _, _, _, _, _, _, h => by cases h
  | fuel + 1, tryTimes, n, flist, out, e, hinv, h => by
    have htries := hinv.tries
    unfold cosGetListLoop at h
    by_cases hzero : tryTimes = 0
    · rw [if_pos hzero] at h
      obtain ⟨rfl, rfl⟩ : flist = out ∧ .gaveUp = e := by simpa using h
      exact ⟨n, by omega, hinv.going⟩
    · rw [if_neg hzero] at h
      obtain ⟨answer, hanswer, hrest⟩ := Option.bind_eq_some_iff.mp h
      cases answer with
      | none =>
        have hpage : pageAt server n = none := pageAt_eq hanswer
        have hcontext : contextAt server (n + 1) = contextAt server n := by
          rw [contextAt_succ, hpage]
          rfl
        have hfail : failures server (n + 1) = failures server n + 1 := by simp [failures, hpage]
        have hreceived : received server (n + 1) = received server n := by simp [received, hpage]
        rw [← hcontext] at hrest
        refine cosGetListLoop_fetched fuel _ (n + 1) flist out e ⟨?_, ?_, ?_, hinv.room⟩ hrest
        · omega
        · intro m hm hends
          rcases Nat.lt_succ_iff_lt_or_eq.mp hm with hlt | rfl
          · exact hinv.going m hlt hends
          · obtain ⟨page, hsome, -⟩ := hends
            rw [hpage] at hsome
            cases hsome
        · rw [hreceived]
          exact hinv.list
      | some page =>
        have hpage : pageAt server n = some page := pageAt_eq hanswer
        have hcontext : contextAt server (n + 1) = page.context := by
          rw [contextAt_succ, hpage]
          rfl
        obtain ⟨⟨flist', full⟩, hinfos, hrest⟩ := Option.bind_eq_some_iff.mp hrest
        have hfail : failures server (n + 1) = failures server n := by simp [failures, hpage]
        have hfiles : flist ++ page.files.filter (passes ·.fileName) =
            (received server (n + 1)).filter (passes ·.fileName) := by
          rw [received_of_page hpage, List.filter_append, ← hinv.list]
        obtain ⟨hmore, hfull⟩ := readInfos_spec page.infos flist flist' full hinv.room hinfos
        cases full with
        | true =>
          obtain ⟨rfl, rfl⟩ : flist' = out ∧ .full = e := by simpa using hrest
          obtain ⟨hpos, hlen, hinit⟩ := hfull rfl
          refine ⟨n, page, hpage, hinv.going, by omega, hpos, hlen, ?_⟩
          rw [← hfiles]
          exact hinit
        | false =>
          obtain ⟨hout, hroom⟩ := hmore rfl
          have hlist : flist' = (received server (n + 1)).filter (passes ·.fileName) := hout.trans hfiles
          simp only [Bool.false_eq_true, if_false] at hrest
          by_cases hover : page.listover = true
          · rw [if_pos hover] at hrest
            obtain ⟨rfl, rfl⟩ : flist' = out ∧ .over = e := by simpa using hrest
            exact ⟨n, page, hpage, hover, hinv.going, by omega, hlist⟩
          · rw [if_neg hover, ← hcontext] at hrest
            refine cosGetListLoop_fetched fuel _ (n + 1) flist' out e ⟨by omega, ?_, hlist, hroom⟩ hrest
            intro m hm hends
            rcases Nat.lt_succ_iff_lt_or_eq.mp hm with hlt | rfl
            · exact hinv.going m hlt hends
            · obtain ⟨page', hsome, hlast⟩ := hends
              obtain rfl := Option.some.inj (hsome.symm.trans hpage)
              rcases hlast with hlast | ⟨hpos, hcount⟩
              · exact hover hlast
              · have hlt := hroom hpos
                rw [hlist] at hlt
                omega

/-- The pages before an answer that is not the last are the folder up to there. -/
theorem received_eq_take {folder : List FileInfo} {start : Bytes → ℕ} (h : ServesFolder server folder start) :
    ∀ n, (∀ m < n, ¬ Ends server passes maxCount m) →
      received server n = folder.take (start (contextAt server n))
  | 0, _ => by
    show [] = folder.take (start [])
    rw [h.first, List.take_zero]
  | n + 1, hgoing => by
    have ih := received_eq_take h n fun m hm => hgoing m (by omega)
    cases hpage : pageAt server n with
    | none =>
      rw [contextAt_succ, hpage, Option.map_none, Option.getD_none, ← ih]
      simp [received, hpage]
    | some page =>
      obtain ⟨k, hfiles, -, hnext⟩ := h.page n page hpage
      have hmore : page.listover = false := by
        by_contra hover
        exact hgoing n (by omega) ⟨page, hpage, .inl (by simpa using hover)⟩
      rw [received_of_page hpage, ih, hfiles, contextAt_succ, hpage, Option.map_some, Option.getD_some,
        hnext hmore, ← List.take_add]

/-- The pages up to one behind which nothing ended are a first part of the folder,
and all of it if that page is the last. -/
theorem received_init {folder : List FileInfo} {start : Bytes → ℕ} (h : ServesFolder server folder start)
    {n : ℕ} {page : Page} (hpage : pageAt server n = some page)
    (hgoing : ∀ m < n, ¬ Ends server passes maxCount m) :
    received server (n + 1) <+: folder ∧ (page.listover = true → received server (n + 1) = folder) := by
  obtain ⟨k, hfiles, hlast, -⟩ := h.page n page hpage
  have htake : received server (n + 1) = folder.take (start (contextAt server n) + k) := by
    rw [received_of_page hpage, received_eq_take h n hgoing, hfiles, ← List.take_add]
  rw [htake]
  exact ⟨List.take_prefix _ _, fun hover => List.take_of_length_le (hlast hover)⟩

/-- All files of the folder that pass, or the first list_max_count of them. -/
def Shows (passes : Bytes → Bool) (maxCount : ℕ) (folder out : List FileInfo) : Prop :=
  out = folder.filter (passes ·.fileName) ∨
    0 < maxCount ∧ out.length = maxCount ∧ out <+: folder.filter (passes ·.fileName)

/-- **The list is the folder's unless the loop gives up, and it gives up exactly if
two answers are no page before one ends the listing.** -/
theorem cosGetList_spec {folder out : List FileInfo} {start : Bytes → ℕ} (h : ServesFolder server folder start)
    {fuel : ℕ} {e : ListEnd} (hlist : cosGetList passes maxCount server fuel = some (out, e)) :
    (e = .gaveUp ↔ GivesUp server passes maxCount) ∧ (e ≠ .gaveUp → Shows passes maxCount folder out) := by
  have hstart : Fetching passes maxCount server 2 0 [] :=
    ⟨rfl, fun m hm => absurd hm (Nat.not_lt_zero m), rfl, id⟩
  have hend := cosGetListLoop_fetched fuel 2 0 [] out e hstart hlist
  cases e with
  | gaveUp => exact ⟨⟨fun _ => hend, fun _ => rfl⟩, fun hne => absurd rfl hne⟩
  | «over» =>
    obtain ⟨n, page, hpage, hover, hgoing, hfail, hout⟩ := hend
    have hends : Ends server passes maxCount n := ⟨page, hpage, .inl hover⟩
    refine ⟨⟨ListEnd.noConfusion, fun hup => absurd hup (not_givesUp hends hfail)⟩, fun _ => .inl ?_⟩
    rw [hout, (received_init h hpage hgoing).2 hover]
  | full =>
    obtain ⟨n, page, hpage, hgoing, hfail, hpos, hlen, hout⟩ := hend
    have hcount : maxCount ≤ ((received server (n + 1)).filter (passes ·.fileName)).length :=
      hlen ▸ hout.length_le
    have hends : Ends server passes maxCount n := ⟨page, hpage, .inr ⟨hpos, hcount⟩⟩
    refine ⟨⟨ListEnd.noConfusion, fun hup => absurd hup (not_givesUp hends hfail)⟩, fun _ => .inr ?_⟩
    exact ⟨hpos, hlen, hout.trans ((received_init h hpage hgoing).1.filter _)⟩

end

end CosFtp
