/-
# The requests of a listing

`cosGetListLog` is the loop of `cos_get_list` with a record of its requests.
Every one is asked for with the context of the last page that came, so a try
that failed is made again as it was (`nextContext_failed`); the record is as
long as it takes for one of the three reasons to stop to hold (`Stops`). The
list that `cos_list_next` takes its entries from is what the filter leaves of
the pages on record, cut at list_max_count (`paging_exact`).

Key definitions: `cosGetListLog`, `nextContext`, `Stops`, `cosListNext`.
Key theorems: `cosGetListLog_erase`, `cosGetListLog_paged`, `paging_exact`.
-/
import CosFtp.CosList

namespace CosFtp

/-- A request by its context, and the page it was answered with. -/
structure Request where
  context : Bytes
  page : Option Page

/-! ### The loop on record -/

section

variable (passes : Bytes → Bool) (maxCount : ℕ) (server : ℕ → Bytes → Option Json)

/-- `cosGetListLoop` with the requests it makes. -/
def cosGetListLog : ℕ → ℕ → ℕ → Bytes → List FileInfo → Option (List Request × List FileInfo × ListEnd)
  | 0, _, _, _, _ => none
  | fuel + 1, tryTimes, n, context, flist =>
    if tryTimes = 0 then some ([], flist, .gaveUp)
    else do
      match ← readAnswer listPage (server n context) with
      | none =>
        (cosGetListLog fuel (tryTimes - 1) (n + 1) context flist).map fun r => (⟨context, none⟩ :: r.1, r.2)
      | some page =>
        let (flist, full) ← readInfos passes maxCount page.infos flist
        if full then some ([⟨context, page⟩], flist, .full)
        else if page.listover then some ([⟨context, page⟩], flist, .over)
        else
          (cosGetListLog fuel tryTimes (n + 1) page.context flist).map fun r =>
            (⟨context, page⟩ :: r.1, r.2)

/-- The record changes nothing. -/
theorem cosGetListLog_erase : ∀ (fuel tryTimes n : ℕ) (context : Bytes) (flist : List FileInfo),
    (cosGetListLog passes maxCount server fuel tryTimes n context flist).map Prod.snd =
      cosGetListLoop passes maxCount server fuel tryTimes n context flist
  | 0, _, _, _, _ => rfl
  | fuel + 1, tryTimes, n, context, flist => by
    unfold cosGetListLog cosGetListLoop
    by_cases hzero : tryTimes = 0
    · rw [if_pos hzero, if_pos hzero]
      rfl
    · rw [if_neg hzero, if_neg hzero]
      cases readAnswer listPage (server n context) with
      | none => rfl
      | some answer =>
        cases answer with
        | none =>
          have ih := cosGetListLog_erase fuel (tryTimes - 1) (n + 1) context flist
          simpa [Option.map_map, Function.comp_def] using ih
        | some page =>
          cases hinfos : readInfos passes maxCount page.infos flist with
          | none => simp [hinfos]
          | some r =>
            obtain ⟨flist', full⟩ := r
            have ih := cosGetListLog_erase fuel tryTimes (n + 1) page.context flist'
            by_cases hfull : full = true
            · simp [hinfos, hfull]
            · by_cases hover : page.listover = true
              · simp [hinfos, hfull, hover]
              · simpa [hinfos, hfull, hover, Option.map_map, Function.comp_def] using ih

end

/-! ### What a record says -/

/-- The context of the next request: that of the last page. -/
def nextContext (log : List Request) : Bytes :=
  ((log.filterMap Request.page).getLast?.map Page.context).getD []

/-- The files that pass on the pages that came. -/
def passing (passes : Bytes → Bool) (log : List Request) : List FileInfo :=
  ((log.filterMap Request.page).flatMap Page.files).filter (passes ·.fileName)

/-- The requests that were answered with no page. -/
def failed (log : List Request) : ℕ := log.countP (·.page.isNone)

/-- A list cut at list_max_count, where that is set. -/
def capped (maxCount : ℕ) (flist : List FileInfo) : List FileInfo :=
  if 0 < maxCount then flist.take maxCount else flist

/-- The reasons to stop: the last page, a full list, a second failure. -/
def Stops (passes : Bytes → Bool) (maxCount : ℕ) (log : List Request) : Prop :=
  (∃ before context page, log = before ++ [⟨context, some page⟩] ∧ page.listover = true) ∨
    (0 < maxCount ∧ maxCount ≤ (passing passes log).length) ∨ 2 ≤ failed log

/-- Every request has the context of the page before it, and is on record with its answer. -/
def Chained (server : ℕ → Bytes → Option Json) (log : List Request) : Prop :=
  ∀ before request after, log = before ++ request :: after →
    request.context = nextContext before ∧
    readAnswer listPage (server before.length request.context) = some request.page

section

variable {passes : Bytes → Bool} {maxCount : ℕ} {server : ℕ → Bytes → Option Json} {log : List Request}

variable (log) in
theorem nextContext_failed (context : Bytes) : nextContext (log ++ [⟨context, none⟩]) = nextContext log := by
  simp [nextContext]

variable (log) in
theorem nextContext_page (context : Bytes) (page : Page) :
    nextContext (log ++ [⟨context, some page⟩]) = page.context := by
  simp [nextContext]

theorem passing_failed (context : Bytes) :
    passing passes (log ++ [⟨context, none⟩]) = passing passes log := by
  simp [passing]

theorem passing_page (context : Bytes) (page : Page) :
    passing passes (log ++ [⟨context, some page⟩]) =
      passing passes log ++ page.files.filter (passes ·.fileName) := by
  simp [passing]

theorem failed_failed (context : Bytes) : failed (log ++ [⟨context, none⟩]) = failed log + 1 := by
  simp [failed]

theorem failed_page (context : Bytes) (page : Page) :
    failed (log ++ [⟨context, some page⟩]) = failed log := by
  simp [failed]

theorem Chained.nil : Chained server [] := by
  intro before request after h
  simp at h

/-- One more request. -/
theorem Chained.snoc (h : Chained server log) {page : Option Page}
    (hpage : readAnswer listPage (server log.length (nextContext log)) = some page) :
    Chained server (log ++ [⟨nextContext log, page⟩]) := by
  intro before request after heq
  rcases List.eq_nil_or_concat after with rfl | ⟨after', last, rfl⟩
  · obtain ⟨rfl, hlast⟩ := List.append_inj' heq rfl
    obtain rfl : ⟨nextContext log, page⟩ = request := by simpa using hlast
    exact ⟨rfl, hpage⟩
  · rw [List.concat_eq_append, ← List.cons_append, ← List.append_assoc] at heq
    obtain ⟨hlog, -⟩ := List.append_inj' heq rfl
    exact h before request after' hlog

/-! ### The run -/

variable (passes maxCount) in
/-- Nothing stopped before the end of the record. -/
def GoesOn (log : List Request) : Prop :=
  ∀ first rest, log = first ++ rest → rest ≠ [] → ¬ Stops passes maxCount first

theorem GoesOn.snoc (h : GoesOn passes maxCount log) (hstop : ¬ Stops passes maxCount log)
    (request : Request) : GoesOn passes maxCount (log ++ [request]) := by
  intro first rest heq hrest
  rcases List.eq_nil_or_concat rest with rfl | ⟨rest', last, rfl⟩
  · exact absurd rfl hrest
  · rw [List.concat_eq_append, ← List.append_assoc] at heq
    obtain ⟨hlog, -⟩ := List.append_inj' heq rfl
    by_cases hnil : rest' = []
    · rw [hnil, List.append_nil] at hlog
      exact hlog ▸ hstop
    · exact h first rest' hlog hnil

/-- What the loop has come to with its record so far. -/
structure Underway (passes : Bytes → Bool) (maxCount : ℕ) (server : ℕ → Bytes → Option Json)
    (tryTimes : ℕ) (log : List Request) (flist : List FileInfo) : Prop where
  tries : tryTimes + failed log = 2
  list : flist = passing passes log
  room : 0 < maxCount → flist.length < maxCount
  more : ∀ before context page, log = before ++ [⟨context, some page⟩] → page.listover = false
  chain : Chained server log
  going : GoesOn passes maxCount log

/-- Only the tries can have stopped a loop that is underway. -/
theorem Underway.stops_iff {tryTimes : ℕ} {flist : List FileInfo}
    (h : Underway passes maxCount server tryTimes log flist) :
    Stops passes maxCount log ↔ tryTimes = 0 := by
  have htries := h.tries
  constructor
  · intro hstop
    rcases hstop with ⟨before, context, page, hlog, hover⟩ | ⟨hpos, hcount⟩ | hfailed
    · rw [h.more before context page hlog] at hover
      cases hover
    · have hroom := h.room hpos
      rw [h.list] at hroom
      omega
    · omega
  · intro hzero
    exact .inr (.inr (by omega))

/-- How a listing ended: its record stops at the end only, and the list is made of it. -/
structure Paged (passes : Bytes → Bool) (maxCount : ℕ) (server : ℕ → Bytes → Option Json)
    (log : List Request) (out : List FileInfo) : Prop where
  chain : Chained server log
  going : GoesOn passes maxCount log
  stops : Stops passes maxCount log
  list : out = capped maxCount (passing passes log)

theorem capped_of_room {flist : List FileInfo} (hroom : 0 < maxCount → flist.length < maxCount) :
    capped maxCount flist = flist := by
  rw [capped]
  by_cases hpos : 0 < maxCount
  · rw [if_pos hpos]
    exact List.take_of_length_le (hroom hpos).le
  · rw [if_neg hpos]

theorem capped_of_prefix {flist out : List FileInfo} (hpos : 0 < maxCount) (hlen : out.length = maxCount)
    (hinit : out <+: flist) : out = capped maxCount flist := by
  rw [capped, if_pos hpos, ← hlen]
  exact List.prefix_iff_eq_take.1 hinit

/-- A failed request costs a try and nothing else. -/
theorem Underway.failed {tryTimes : ℕ} {flist : List FileInfo}
    (h : Underway passes maxCount server tryTimes log flist) (htries : tryTimes ≠ 0) {context : Bytes}
    (hchain : Chained server (log ++ [⟨context, none⟩])) :
    Underway passes maxCount server (tryTimes - 1) (log ++ [⟨context, none⟩]) flist := by
  have hstop : ¬ Stops passes maxCount log := fun hs => htries (h.stops_iff.1 hs)
  refine ⟨?_, ?_, h.room, ?_, hchain, h.going.snoc hstop _⟩
  · have hsum := h.tries
    rw [failed_failed]
    omega
  · rw [passing_failed]
    exact h.list
  · intro before context' page heq
    have hlast := List.append_inj_right' heq rfl
    simp at hlast

/-- A page that is not the last one, and leaves room. -/
theorem Underway.page {tryTimes : ℕ} {flist flist' : List FileInfo}
    (h : Underway passes maxCount server tryTimes log flist) (htries : tryTimes ≠ 0) {context : Bytes}
    {page : Page} (hchain : Chained server (log ++ [⟨context, some page⟩]))
    (hlist : flist' = passing passes (log ++ [⟨context, some page⟩]))
    (hroom : 0 < maxCount → flist'.length < maxCount) (hover : page.listover = false) :
    Underway passes maxCount server tryTimes (log ++ [⟨context, some page⟩]) flist' := by
  have hstop : ¬ Stops passes maxCount log := fun hs => htries (h.stops_iff.1 hs)
  refine ⟨?_, hlist, hroom, ?_, hchain, h.going.snoc hstop _⟩
  · rw [failed_page]
    exact h.tries
  · intro before context' page' heq
    have hlast := List.append_inj_right' heq rfl
    obtain ⟨-, rfl⟩ : context = context' ∧ page = page' := by simpa using hlast
    exact hover

/-- **A listing that has begun well ends well.** -/
theorem cosGetListLog_paged : ∀ (fuel tryTimes : ℕ) (before log : List Request) (flist out : List FileInfo)
    (e : ListEnd), Underway passes maxCount server tryTimes before flist →
    cosGetListLog passes maxCount server fuel tryTimes before.length (nextContext before) flist =
      some (log, out, e) →
    Paged passes maxCount server (before ++ log) out
  | 0, _, _, _, _, _, _, _, h => by cases h
  | fuel + 1, tryTimes, before, log, flist, out, e, hinv, h => by
    unfold cosGetListLog at h
    by_cases hzero : tryTimes = 0
    · rw [if_pos hzero] at h
      obtain ⟨rfl, rfl, -⟩ : [] = log ∧ flist = out ∧ .gaveUp = e := by simpa using h
      rw [List.append_nil]
      refine ⟨hinv.chain, hinv.going, hinv.stops_iff.2 hzero, ?_⟩
      rw [← hinv.list]
      exact (capped_of_room hinv.room).symm
    · have hstop : ¬ Stops passes maxCount before := fun hs => hzero (hinv.stops_iff.1 hs)
      rw [if_neg hzero] at h
      obtain ⟨answer, hanswer, hrest⟩ := Option.bind_eq_some_iff.mp h
      have hchain := hinv.chain.snoc hanswer
      have hgoing := hinv.going.snoc hstop ⟨nextContext before, answer⟩
      cases answer with
      | none =>
        obtain ⟨⟨log', r⟩, hrun, hlog⟩ := Option.map_eq_some_iff.mp hrest
        obtain ⟨rfl, rfl⟩ : ⟨nextContext before, none⟩ :: log' = log ∧ r = (out, e) := by simpa using hlog
        have hlen : before.length + 1 = (before ++ [(⟨nextContext before, none⟩ : Request)]).length := by simp
        rw [← nextContext_failed before (nextContext before), hlen] at hrun
        have ih := cosGetListLog_paged fuel (tryTimes - 1) _ log' flist out e (hinv.failed hzero hchain) hrun
        rw [List.append_cons]
        exact ih
      | some page =>
        obtain ⟨⟨flist', full⟩, hinfos, hrest⟩ := Option.bind_eq_some_iff.mp hrest
        obtain ⟨hmore, hfull⟩ := readInfos_spec page.infos flist flist' full hinv.room hinfos
        have hpassing : flist ++ page.files.filter (passes ·.fileName) =
            passing passes (before ++ [⟨nextContext before, some page⟩]) := by
          rw [passing_page, hinv.list]
        by_cases hcase : full = true
        · obtain ⟨hpos, hlen, hinit⟩ := hfull hcase
          simp only [hcase, if_true] at hrest
          obtain ⟨rfl, rfl, -⟩ : [⟨nextContext before, some page⟩] = log ∧ flist' = out ∧ .full = e := by
            simpa using hrest
          have hcount : maxCount ≤ (passing passes (before ++ [⟨nextContext before, some page⟩])).length := by
            rw [← hpassing, ← hlen]
            exact hinit.length_le
          refine ⟨hchain, hgoing, .inr (.inl ⟨hpos, hcount⟩), capped_of_prefix hpos hlen ?_⟩
          rw [← hpassing]
          exact hinit
        · obtain ⟨hlist, hroom⟩ := hmore (by simpa using hcase)
          have hlist' : flist' = passing passes (before ++ [⟨nextContext before, some page⟩]) :=
            hlist.trans hpassing
          simp only [hcase] at hrest
          by_cases hover : page.listover = true
          · rw [if_pos hover] at hrest
            obtain ⟨rfl, rfl, -⟩ : [⟨nextContext before, some page⟩] = log ∧ flist' = out ∧ .over = e := by
              simpa using hrest
            refine ⟨hchain, hgoing, .inl ⟨before, nextContext before, page, rfl, hover⟩, ?_⟩
            rw [← hlist']
            exact (capped_of_room hroom).symm
          · rw [if_neg hover] at hrest
            obtain ⟨⟨log', r⟩, hrun, hlog⟩ := Option.map_eq_some_iff.mp hrest
            obtain ⟨rfl, rfl⟩ : ⟨nextContext before, some page⟩ :: log' = log ∧ r = (out, e) := by
              simpa using hlog
            have hnow := hinv.page hzero hchain hlist' hroom (Bool.eq_false_iff.mpr hover)
            have hlen : before.length + 1 = (before ++ [(⟨nextContext before, some page⟩ : Request)]).length := by
              simp
            rw [← nextContext_page before (nextContext before) page, hlen] at hrun
            have ih := cosGetListLog_paged fuel tryTimes _ log' flist' out e hnow hrun
            rw [List.append_cons]
            exact ih

end

/-! ### The entries -/

/-- `cos_list_next`: the entry in front and the rest of the list. -/
def cosListNext : List FileInfo → Option (FileInfo × List FileInfo)
  | [] => none
  | info :: flist => some (info, flist)

/-- What so many calls of `cos_list_next` yield. -/
def listed : ℕ → List FileInfo → List FileInfo
  | 0, _ => []
  | calls + 1, flist =>
    match cosListNext flist with
    | none => []
    | some (info, flist) => info :: listed calls flist

theorem listed_eq_take (calls : ℕ) (flist : List FileInfo) : listed calls flist = flist.take calls := by
  induction calls generalizing flist with
  | zero => rw [listed, List.take_zero]
  | succ calls ih =>
    cases flist with
    | nil => rw [listed, cosListNext, List.take_nil]
    | cons info flist =>
      show info :: listed calls flist = (info :: flist).take (calls + 1)
      rw [ih, List.take_succ_cons]

/-- **A listing is what the filter leaves of its pages**, in order and cut at
list_max_count, and each of its requests follows from the answers before it. -/
theorem paging_exact (passes : Bytes → Bool) (maxCount : ℕ) (server : ℕ → Bytes → Option Json) (fuel : ℕ)
    (out : List FileInfo) (e : ListEnd) (hlist : cosGetList passes maxCount server fuel = some (out, e)) :
    ∃ log, cosGetListLog passes maxCount server fuel 2 0 [] [] = some (log, out, e) ∧
      (∀ before request after, log = before ++ request :: after →
        request.context = nextContext before ∧
        readAnswer listPage (server before.length request.context) = some request.page ∧
        ¬ Stops passes maxCount before) ∧
      Stops passes maxCount log ∧
      ∀ calls, listed calls out = (capped maxCount (passing passes log)).take calls := by
  have herase := cosGetListLog_erase passes maxCount server fuel 2 0 [] []
  rw [← cosGetList, hlist] at herase
  obtain ⟨⟨log, r⟩, hlog, hr⟩ := Option.map_eq_some_iff.mp herase
  obtain rfl : r = (out, e) := hr
  have hstart : Underway passes maxCount server 2 [] [] := by
    refine ⟨rfl, rfl, id, ?_, Chained.nil, ?_⟩
    · intro before context page h
      simp at h
    · intro first rest h hrest
      exact absurd (List.append_eq_nil_iff.1 h.symm).2 hrest
  have hpaged : Paged passes maxCount server log out :=
    cosGetListLog_paged fuel 2 [] log [] out e hstart hlog
  refine ⟨log, hlog, ?_, hpaged.stops, ?_⟩
  · intro before request after heq
    obtain ⟨hcontext, hanswer⟩ := hpaged.chain before request after heq
    exact ⟨hcontext, hanswer, hpaged.going before _ heq (List.cons_ne_nil _ _)⟩
  · intro calls
    rw [listed_eq_take, ← hpaged.list]

/-- The answers to three requests: a page, a failure, and a page with more than fits. -/
def threeAnswers (n : ℕ) (_ : Bytes) : Option Json :=
  let page (infos : List Json) : Json := .object [(text "code", .int 0), (text "data", .object
    [(text "infos", .array infos), (text "listover", .bool false), (text "context", .string [99])])]
  [some (page [.object []]), none, some (page [.object [], .null])].getD n none

/-- A list of two, filled in the middle of the second page. -/
theorem paging_exact_three : ∃ log,
    cosGetListLog (fun _ => true) 2 threeAnswers 4 2 0 [] [] =
      some (log, [⟨false, [], 0, 0, 0⟩, ⟨false, [], 0, 0, 0⟩], .full) ∧ Stops (fun _ => true) 2 log := by
  have hrun : cosGetList (fun _ => true) 2 threeAnswers 4 =
      some ([⟨false, [], 0, 0, 0⟩, ⟨false, [], 0, 0, 0⟩], .full) := rfl
  obtain ⟨log, hlog, -, hstops, -⟩ := paging_exact (fun _ => true) 2 threeAnswers 4 _ _ hrun
  exact ⟨log, hlog, hstops⟩

end CosFtp
