/-
# What the filter lets through

`vsf_filename_passes_filter` against the meaning of its pattern. Its loop
never goes back: it takes the first place of a text behind a star, nothing
for a star in front of another mark, and the alternatives of a group up to an
empty one. That is the `FirstFit` of the pattern, and below the budget the
answer is exactly this (`passesFilterLoop_decides`); a yes is therefore a
match. At the budget the answer is no.

A filter is a C string, so no NUL stands in it.

Key definitions: `globMarks`, `FilterState.pattern`, `Decides`.
Key theorems: `passesFilterLoop_decides`, `passesFilterLoop_depth`, `filter_sound`,
`vsfAccessCheckFile_eq_false_iff`, `deny_file_blocks`.
-/
import CosFtp.Scan
import CosFtp.Path
import CosFtp.Lib.Glob

namespace CosFtp

open Search Fields Glob

/-- The marks of a filter. -/
def globMarks : Marks UInt8 := ⟨chStar, chQuestion, chLbrace, chRbrace, chComma, by decide⟩

/-! ### Taking the filter apart -/

/-- The text in front of the next mark, and the mark. -/
theorem nextToken_spec (filter : Bytes) : ∃ t rest tok, nextToken filter = (t, rest, tok) ∧
    (∀ c ∈ t, globMarks.Letter c) ∧
    ((tok = chNul ∧ rest = [] ∧ filter = t) ∨ (globMarks.Starts tok ∧ filter = t ++ tok :: rest)) := by
  have hchars : cstr [chStar, chQuestion, chLbrace] = [chStar, chQuestion, chLbrace] := by decide
  have hstarts : ∀ b : UInt8, b ∈ [chStar, chQuestion, chLbrace] ↔ globMarks.Starts b := by
    intro b
    simp [Marks.Starts, globMarks]
  unfold nextToken strLocateChars
  rw [hchars]
  cases hfind : filter.findIdx? fun b => b ∈ [chStar, chQuestion, chLbrace] with
  | none =>
    refine ⟨filter, [], chNul, rfl, ?_, Or.inl ⟨rfl, rfl, rfl⟩⟩
    intro c hc
    have hno := List.findIdx?_eq_none_iff.mp hfind c hc
    rw [decide_eq_false_iff_not, hstarts] at hno
    exact hno
  | some i =>
    obtain ⟨hi, hat, hbefore⟩ := List.findIdx?_eq_some_iff_getElem.mp hfind
    have hget : filter[i]? = some filter[i] := List.getElem?_eq_getElem hi
    simp only [hget, Option.map_some]
    refine ⟨filter.take i, filter.drop (i + 1), filter[i], rfl, ?_, Or.inr ⟨?_, ?_⟩⟩
    · intro c hc
      obtain ⟨j, hj, rfl⟩ := List.mem_take_iff_getElem.mp hc
      have hno := hbefore j (by omega)
      rw [decide_eq_true_iff, hstarts] at hno
      exact hno
    · rw [decide_eq_true_iff, hstarts] at hat
      exact hat
    · rw [← List.drop_eq_getElem_cons hi, List.take_append_drop]

theorem matchNeeded_nil (name : Bytes) (must : Bool) : matchNeeded [] name must = some name := rfl

/-- A text needed at the current place. -/
theorem matchNeeded_here {t : Bytes} (h0 : chNul ∉ t) (name v : Bytes) :
    matchNeeded t name true = some v ↔ name = t ++ v := by
  by_cases ht : t = []
  · rw [ht, matchNeeded_nil]
    simp
  · rw [matchNeeded, if_neg ht, strLocateText, cstr_eq_self h0, locate_eq_cut ht]
    constructor
    · intro h
      cases hcut : cut t name with
      | none => simp [hcut] at h
      | some halves =>
        obtain ⟨l, r⟩ := halves
        have hname := eq_of_cut hcut
        simp only [hcut, Option.map_some, true_and] at h
        by_cases hl : 0 < l.length
        · simp [hl] at h
        · have hnil : l = [] := List.length_eq_zero_iff.mp (by omega)
          rw [if_neg hl, hname, hnil] at h
          simp only [List.nil_append, List.length_nil, Nat.zero_add, List.drop_left, Option.some.injEq] at h
          rw [hname, hnil, h, List.nil_append]
    · intro h
      rw [h, cut_append_self ht]
      simp

/-- A text needed anywhere from the current place on. -/
theorem matchNeeded_ahead {t : Bytes} (h0 : chNul ∉ t) (ht : t ≠ []) (name v : Bytes) :
    matchNeeded t name false = some v ↔ ∃ u, cut t name = some (u, v) := by
  rw [matchNeeded, if_neg ht, strLocateText, cstr_eq_self h0, locate_eq_cut ht]
  cases hcut : cut t name with
  | none => simp
  | some halves =>
    obtain ⟨l, r⟩ := halves
    have hname := eq_of_cut hcut
    have hdrop : name.drop (l.length + t.length) = r := by
      rw [hname, ← List.length_append, List.drop_left]
    simp [hdrop]

/-- The alternatives tried are those in front of an empty one. -/
theorem braceAlternatives_eq (g : Bytes) :
    ∀ n, g.length < n → braceAlternatives n g = beforeEmpty chComma g := by
  induction g using fields_induction chComma with
  | last u hu =>
    intro n hn
    obtain ⟨n, rfl⟩ := Nat.exists_eq_succ_of_ne_zero (by omega : n ≠ 0)
    rw [braceAlternatives, strSplitChar_of_not_mem hu, beforeEmpty_of_not_mem hu]
    by_cases h : u = []
    · simp [h]
    · have hpos : 0 < u.length := List.length_pos_of_ne_nil h
      have hempty : braceAlternatives n [] = [] := by
        cases n with
        | zero => rfl
        | succ n => simp [braceAlternatives, strSplitChar_of_not_mem]
      simp [h, hempty]
  | more u v hu ih =>
    intro n hn
    obtain ⟨n, rfl⟩ := Nat.exists_eq_succ_of_ne_zero (by omega : n ≠ 0)
    simp only [List.length_append, List.length_cons] at hn
    rw [braceAlternatives, strSplitChar_append_cons (by decide) hu, beforeEmpty_append_cons hu,
      ih n (by omega)]

/-! ### The counter -/

/-- What the counter of a call that starts with it at `iters` may end at. -/
structure Counted (iters : ℕ) (r : Bool × ℕ) : Prop where
  grows : iters ≤ r.2
  within : r.2 ≤ vsftpMatchitersMax
  spent : r.2 = vsftpMatchitersMax → r.1 = false

theorem Counted.earlier {iters iters' : ℕ} {r : Bool × ℕ} (h : Counted iters' r)
    (hle : iters ≤ iters') : Counted iters r :=
  ⟨hle.trans h.grows, h.within, h.spent⟩

theorem Counted.no {iters k : ℕ} (hk : iters ≤ k) (hmax : k ≤ vsftpMatchitersMax) :
    Counted iters (false, k) :=
  ⟨hk, hmax, fun _ => rfl⟩

theorem tryAlternatives_counted {passes : Bytes → ℕ → Bool × ℕ}
    (hpasses : ∀ alt it, it ≤ vsftpMatchitersMax → Counted it (passes alt it)) :
    ∀ (alts : List Bytes) {iters : ℕ}, iters ≤ vsftpMatchitersMax →
    Counted iters (tryAlternatives passes alts iters)
  | [], iters, hmax => .no (Nat.le_refl iters) hmax
  | alt :: alts, iters, hmax => by
    have hfirst := hpasses alt iters hmax
    rw [tryAlternatives]
    cases hr : passes alt iters with
    | mk passed iters' =>
      rw [hr] at hfirst
      cases passed with
      | true => exact hfirst
      | false => exact (tryAlternatives_counted hpasses alts hfirst.within).earlier hfirst.grows

/-- **The counter only grows, stops at the limit, and there the answer is no**,
for every call the recursion makes. -/
theorem passesFilterLoop_counted : ∀ (depth : ℕ) (st : FilterState) {iters : ℕ},
    iters ≤ vsftpMatchitersMax → Counted iters (passesFilterLoop depth st iters)
  | 0, _, iters, hmax => .no (Nat.le_refl iters) hmax
  | depth + 1, st, iters, hmax => by
    rw [passesFilterLoop]
    by_cases hover : st.filterRemain = [] ∨ vsftpMatchitersMax ≤ iters
    · rw [if_pos hover]
      by_cases hleft : 0 < st.nameRemain.length ∧ st.lastToken ≠ chStar
      · rw [if_pos hleft]
        exact .no (Nat.le_refl iters) hmax
      · rw [if_neg hleft]
        exact ⟨Nat.le_refl iters, hmax, fun h => by simp_all⟩
    · rw [if_neg hover]
      have hlt : iters < vsftpMatchitersMax := by
        by_contra h
        exact hover (Or.inr (by omega))
      have hfail : Counted iters (false, iters + 1) := .no (Nat.le_succ iters) hlt
      have hround : ∀ st', Counted iters (passesFilterLoop depth st' (iters + 1)) := fun st' =>
        (passesFilterLoop_counted depth st' hlt).earlier (Nat.le_succ iters)
      have htry : ∀ (alts : List Bytes) (start : Bytes → FilterState), Counted iters
          (tryAlternatives (fun alt it => passesFilterLoop depth (start alt) it) alts (iters + 1)) := by
        intro alts start
        have hall := tryAlternatives_counted
          (fun alt _ h => passesFilterLoop_counted depth (start alt) h) alts hlt
        exact hall.earlier (Nat.le_succ iters)
      generalize nextToken st.filterRemain = taken
      obtain ⟨needed, rest, token⟩ := taken
      simp only
      cases matchNeeded needed st.nameRemain st.mustMatchAtCurrentPos with
      | none => exact hfail
      | some name =>
        simp only
        by_cases hany : token = chQuestion
        · rw [if_pos hany]
          cases name with
          | nil => exact hfail
          | cons c name' => exact hround _
        · rw [if_neg hany]
          by_cases hbrace : token = chLbrace
          · rw [if_pos hbrace]
            cases strLocateChar rest chRbrace with
            | some i => exact htry _ _
            | none =>
              cases name with
              | nil => exact hfail
              | cons c name' =>
                simp only
                by_cases hc : c = chLbrace
                · rw [if_pos hc]
                  exact hround _
                · rw [if_neg hc]
                  exact hfail
          · rw [if_neg hbrace]
            exact hround _

theorem tryAlternatives_congr {passes passes' : Bytes → ℕ → Bool × ℕ}
    (hpasses : ∀ alt it, it ≤ vsftpMatchitersMax → Counted it (passes alt it)) :
    ∀ (alts : List Bytes) {iters : ℕ}, iters ≤ vsftpMatchitersMax →
    (∀ alt it, iters ≤ it → it ≤ vsftpMatchitersMax → passes alt it = passes' alt it) →
    tryAlternatives passes alts iters = tryAlternatives passes' alts iters
  | [], _, _, _ => rfl
  | alt :: alts, iters, hmax, heq => by
    have hfirst := hpasses alt iters hmax
    rw [tryAlternatives, tryAlternatives, ← heq alt iters (Nat.le_refl iters) hmax]
    cases hr : passes alt iters with
    | mk passed iters' =>
      rw [hr] at hfirst
      cases passed with
      | true => rfl
      | false =>
        exact tryAlternatives_congr hpasses alts hfirst.within
          fun a it hle hmax' => heq a it (hfirst.grows.trans hle) hmax'

/-- **The matcher comes to an end**: as many rounds as the counter has left,
and one, are all it ever needs. -/
theorem passesFilterLoop_depth : ∀ (depth depth' : ℕ) (st : FilterState) {iters : ℕ},
    iters ≤ vsftpMatchitersMax → vsftpMatchitersMax < depth + iters → vsftpMatchitersMax < depth' + iters →
    passesFilterLoop depth st iters = passesFilterLoop depth' st iters
  | 0, _, _, _, hmax, hdepth, _ => by omega
  | _, 0, _, _, hmax, _, hdepth => by omega
  | depth + 1, depth' + 1, st, iters, hmax, hdepth, hdepth' => by
    rw [passesFilterLoop, passesFilterLoop]
    by_cases hover : st.filterRemain = [] ∨ vsftpMatchitersMax ≤ iters
    · rw [if_pos hover, if_pos hover]
    · have hlt : iters < vsftpMatchitersMax := by
        by_contra h
        exact hover (Or.inr (by omega))
      have hround : ∀ st', passesFilterLoop depth st' (iters + 1) = passesFilterLoop depth' st' (iters + 1) :=
        fun st' => passesFilterLoop_depth depth depth' st' hlt (by omega) (by omega)
      have htry : ∀ (alts : List Bytes) (start : Bytes → FilterState),
          tryAlternatives (fun alt it => passesFilterLoop depth (start alt) it) alts (iters + 1) =
            tryAlternatives (fun alt it => passesFilterLoop depth' (start alt) it) alts (iters + 1) := by
        intro alts start
        refine tryAlternatives_congr (fun _ _ h => passesFilterLoop_counted depth _ h) alts hlt ?_
        intro alt it hle hmax'
        exact passesFilterLoop_depth depth depth' (start alt) hmax' (by omega) (by omega)
      rw [if_neg hover, if_neg hover]
      simp only [hround, htry]

/-! ### One call of the matcher -/

/-- What a call that starts with the counter at `iters` may answer, when
`fits` is to be decided. -/
structure Decides (iters : ℕ) (fits : Prop) (r : Bool × ℕ) : Prop extends Counted iters r where
  sound : r.1 = true → fits
  complete : r.2 < vsftpMatchitersMax → fits → r.1 = true

theorem Decides.of_iff {iters : ℕ} {fits fits' : Prop} {r : Bool × ℕ} (h : Decides iters fits r)
    (hiff : fits' ↔ fits) : Decides iters fits' r :=
  ⟨h.toCounted, fun hr => hiff.mpr (h.sound hr), fun hr hf => h.complete hr (hiff.mp hf)⟩

theorem Decides.earlier {iters iters' : ℕ} {fits : Prop} {r : Bool × ℕ} (h : Decides iters' fits r)
    (hle : iters ≤ iters') : Decides iters fits r :=
  ⟨h.toCounted.earlier hle, h.sound, h.complete⟩

/-- A call that gives up. -/
theorem Decides.no {iters k : ℕ} {fits : Prop} (hk : iters ≤ k) (hmax : k ≤ vsftpMatchitersMax)
    (h : ¬ fits) : Decides iters fits (false, k) :=
  ⟨.no hk hmax, fun hr => Bool.noConfusion hr, fun _ hf => absurd hf h⟩

/-- The alternatives answer together. -/
theorem tryAlternatives_decides {passes : Bytes → ℕ → Bool × ℕ} {fits : Bytes → Prop} :
    ∀ {alts : List Bytes} {iters : ℕ}, iters ≤ vsftpMatchitersMax →
    (∀ alt ∈ alts, ∀ it, iters ≤ it → it ≤ vsftpMatchitersMax → Decides it (fits alt) (passes alt it)) →
    Decides iters (∃ alt ∈ alts, fits alt) (tryAlternatives passes alts iters)
  | [], iters, hmax, _ => .no (Nat.le_refl iters) hmax (by simp)
  | alt :: alts, iters, hmax, hpasses => by
    have hfirst := hpasses alt List.mem_cons_self iters (Nat.le_refl iters) hmax
    rw [tryAlternatives]
    cases hr : passes alt iters with
    | mk passed iters' =>
      rw [hr] at hfirst
      cases passed with
      | true =>
        have hyes : ∃ a ∈ alt :: alts, fits a := ⟨alt, List.mem_cons_self, hfirst.sound rfl⟩
        exact ⟨hfirst.toCounted, fun _ => hyes, fun _ _ => rfl⟩
      | false =>
        have hrest := tryAlternatives_decides hfirst.within fun a ha it hit hmax' =>
          hpasses a (List.mem_cons_of_mem alt ha) it (hfirst.grows.trans hit) hmax'
        refine ⟨hrest.toCounted.earlier hfirst.grows, ?_, ?_⟩
        · intro h
          obtain ⟨a, ha, hfits⟩ := hrest.sound h
          exact ⟨a, List.mem_cons_of_mem alt ha, hfits⟩
        · intro hlt hsome
          obtain ⟨a, ha, hfits⟩ := hsome
          rcases List.mem_cons.mp ha with rfl | ha
          · exact absurd (hfirst.complete (Nat.lt_of_le_of_lt hrest.grows hlt) hfits) (by simp)
          · exact hrest.complete hlt ⟨a, ha, hfits⟩

/-! ### The loop -/

/-- What is left of the pattern; a star just read still counts. -/
def FilterState.pattern (st : FilterState) : Bytes :=
  if st.lastToken = chStar then chStar :: st.filterRemain else st.filterRemain

/-- The text to come must match here unless a star has just been read. -/
def FilterState.Coherent (st : FilterState) : Prop :=
  st.filterRemain ≠ [] → (st.mustMatchAtCurrentPos = true ↔ st.lastToken ≠ chStar)

theorem coherent_init (name filter : Bytes) : (FilterState.init name filter).Coherent := by
  intro _
  have htoken : (FilterState.init name filter).lastToken ≠ chStar := by
    show chNul ≠ chStar
    decide
  exact ⟨fun _ => htoken, fun _ => rfl⟩

/-- What the text in front of the next mark asks of the name. -/
theorem fits_iff_matchNeeded {st : FilterState} (hst : st.Coherent) {t q : Bytes} (h0 : chNul ∉ t)
    (hfilter : st.filterRemain = t ++ q) (hne : st.filterRemain ≠ [])
    (ht : ∀ c ∈ t, globMarks.Letter c) (hq : globMarks.Breaks q) :
    FirstFit globMarks st.pattern st.nameRemain ↔
      ∃ v, matchNeeded t st.nameRemain st.mustMatchAtCurrentPos = some v ∧ FirstFit globMarks q v := by
  have hmust := hst hne
  by_cases hstar : st.lastToken = chStar
  · have hfree : st.mustMatchAtCurrentPos = false := by
      rw [← Bool.not_eq_true, hmust]
      exact fun h => h hstar
    rw [FilterState.pattern, if_pos hstar, hfree, hfilter]
    by_cases htnil : t = []
    · rw [htnil, List.nil_append]
      have hqne : q ≠ [] := by
        intro hqnil
        exact hne (by rw [hfilter, htnil, hqnil]; rfl)
      obtain ⟨m, q', rfl⟩ := List.exists_cons_of_ne_nil hqne
      have hm : globMarks.Starts m := hq m rfl
      simp only [matchNeeded_nil, Option.some.injEq, exists_eq_left']
      exact firstFit_star_mark_iff hm
    · simp only [matchNeeded_ahead h0 htnil]
      have hfit := firstFit_star_letters_iff (s := st.nameRemain) htnil ht hq
      constructor
      · intro h
        obtain ⟨u, v, hcut, hv⟩ := hfit.mp h
        exact ⟨v, ⟨u, hcut⟩, hv⟩
      · intro h
        obtain ⟨v, ⟨u, hcut⟩, hv⟩ := h
        exact hfit.mpr ⟨u, v, hcut, hv⟩
  · have hhere : st.mustMatchAtCurrentPos = true := hmust.mpr hstar
    rw [FilterState.pattern, if_neg hstar, hhere, hfilter]
    simp only [matchNeeded_here h0]
    exact firstFit_letters_iff ht

/-- The answer of a call whose pattern or whose budget has come to its end. -/
theorem stop_decides {st : FilterState} {iters : ℕ} (hmax : iters ≤ vsftpMatchitersMax)
    (hnil : iters < vsftpMatchitersMax → st.filterRemain = []) :
    Decides iters (FirstFit globMarks st.pattern st.nameRemain)
      (if 0 < st.nameRemain.length ∧ st.lastToken ≠ chStar then (false, iters)
        else (iters ≠ vsftpMatchitersMax, iters)) := by
  by_cases hleft : 0 < st.nameRemain.length ∧ st.lastToken ≠ chStar
  · rw [if_pos hleft]
    refine ⟨.no (Nat.le_refl iters) hmax, fun h => Bool.noConfusion h, ?_⟩
    intro hlt hfits
    rw [FilterState.pattern, if_neg hleft.2, hnil hlt, firstFit_nil_iff] at hfits
    simp [hfits] at hleft
  · rw [if_neg hleft]
    refine ⟨⟨Nat.le_refl iters, hmax, fun h => by simp_all⟩, ?_, fun hlt _ => by simp; omega⟩
    intro hyes
    have hlt : iters < vsftpMatchitersMax := by simp at hyes; omega
    rw [FilterState.pattern, hnil hlt]
    by_cases hstar : st.lastToken = chStar
    · rw [if_pos hstar]
      exact firstFit_star_iff
    · rw [if_neg hstar, firstFit_nil_iff]
      have hshort : ¬ 0 < st.nameRemain.length := fun h => hleft ⟨h, hstar⟩
      exact List.length_eq_zero_iff.mp (by omega)

/-- What the pattern goes on with behind the text of a round. -/
theorem nextToken_goesOn {filter : Bytes} (h0 : chNul ∉ filter) : ∃ t q rest token,
    nextToken filter = (t, rest, token) ∧ (∀ c ∈ t, globMarks.Letter c) ∧ filter = t ++ q ∧
      globMarks.Breaks q ∧ chNul ∉ t ∧ chNul ∉ rest ∧
      ((q = [] ∧ token = chNul ∧ rest = []) ∨ (globMarks.Starts token ∧ q = token :: rest)) := by
  obtain ⟨t, rest, token, htoken, ht, hsplit⟩ := nextToken_spec filter
  rcases hsplit with ⟨htok, hrest, hfilter⟩ | ⟨htok, hfilter⟩
  · refine ⟨t, [], rest, token, htoken, ht, ?_, ?_, ?_, ?_, Or.inl ⟨rfl, htok, hrest⟩⟩
    · rw [hfilter, List.append_nil]
    · simp [Marks.Breaks]
    · rwa [hfilter] at h0
    · simp [hrest]
  · refine ⟨t, token :: rest, rest, token, htoken, ht, hfilter, ?_, ?_, ?_, Or.inr ⟨htok, rfl⟩⟩
    · simpa [Marks.Breaks] using htok
    · exact fun hmem => h0 (by rw [hfilter]; simp [hmem])
    · exact fun hmem => h0 (by rw [hfilter]; simp [hmem])

/-- With `depth` rounds to go every call within the budget answers the first fit. -/
def RoundsDecide (depth : ℕ) : Prop :=
  ∀ (st : FilterState) (iters : ℕ), st.Coherent → chNul ∉ st.filterRemain → iters ≤ vsftpMatchitersMax →
    vsftpMatchitersMax < depth + iters →
    Decides iters (FirstFit globMarks st.pattern st.nameRemain) (passesFilterLoop depth st iters)

section

variable {depth iters : ℕ} {rest name : Bytes}

/-- Every round that goes on goes on with one more on the counter. -/
theorem RoundsDecide.round (h : RoundsDecide depth) (hlt : iters < vsftpMatchitersMax)
    (hdepth : vsftpMatchitersMax < depth + 1 + iters) (hrest : chNul ∉ rest) (name : Bytes) (tok : UInt8)
    (must : Bool) (hmust : rest ≠ [] → (must = true ↔ tok ≠ chStar)) :
    Decides iters (FirstFit globMarks (FilterState.pattern ⟨rest, name, tok, must⟩) name)
      (passesFilterLoop depth ⟨rest, name, tok, must⟩ (iters + 1)) := by
  have hnext := h ⟨rest, name, tok, must⟩ (iters + 1) hmust hrest hlt (by omega)
  exact hnext.earlier (Nat.le_succ iters)

theorem RoundsDecide.question (h : RoundsDecide depth) (hlt : iters < vsftpMatchitersMax)
    (hdepth : vsftpMatchitersMax < depth + 1 + iters) (hrest : chNul ∉ rest) :
    Decides iters (FirstFit globMarks (chQuestion :: rest) name)
      (match name with
        | [] => (false, iters + 1)
        | _ :: name' => passesFilterLoop depth ⟨rest, name', chQuestion, true⟩ (iters + 1)) := by
  cases name with
  | nil =>
    have hno : ¬ FirstFit globMarks (chQuestion :: rest) [] := by
      intro hfit
      obtain ⟨c, v, hv, _⟩ := firstFit_any_iff.mp hfit
      exact List.cons_ne_nil c v hv.symm
    exact .no (Nat.le_succ iters) hlt hno
  | cons c name' =>
    have hany : FirstFit globMarks (chQuestion :: rest) (c :: name') ↔ FirstFit globMarks rest name' := by
      refine firstFit_any_iff.trans ⟨?_, fun hfit => ⟨c, name', rfl, hfit⟩⟩
      intro hfit
      obtain ⟨d, v, hv, hfit⟩ := hfit
      rwa [(List.cons.inj hv).2]
    exact (h.round hlt hdepth hrest name' chQuestion true (fun _ => by decide)).of_iff hany

/-- The alternatives of a group, each put in its place. -/
theorem RoundsDecide.group (h : RoundsDecide depth) (hlt : iters < vsftpMatchitersMax)
    (hdepth : vsftpMatchitersMax < depth + 1 + iters) {g : Bytes} (h0 : chNul ∉ g ++ chRbrace :: rest)
    (hg : chRbrace ∉ g) :
    Decides iters (FirstFit globMarks (chLbrace :: (g ++ chRbrace :: rest)) name)
      (tryAlternatives (fun alt it => passesFilterLoop depth (.init name (alt ++ rest)) it)
        (beforeEmpty chComma g) (iters + 1)) := by
  refine Decides.of_iff ?_ (firstFit_group_iff (S := globMarks) (p := rest) (s := name) hg)
  have hall : Decides (iters + 1) (∃ alt ∈ beforeEmpty chComma g, FirstFit globMarks (alt ++ rest) name)
      (tryAlternatives (fun alt it => passesFilterLoop depth (.init name (alt ++ rest)) it)
        (beforeEmpty chComma g) (iters + 1)) := by
    refine tryAlternatives_decides hlt fun alt halt it hle hmax => ?_
    have h0' : chNul ∉ alt ++ rest := by
      intro hmem
      rcases List.mem_append.mp hmem with hmem | hmem
      · have hg0 := (field_subset (beforeEmpty_subset g halt)).1 hmem
        exact h0 (by simp [hg0])
      · exact h0 (by simp [hmem])
    exact h (.init name (alt ++ rest)) it (coherent_init name (alt ++ rest)) h0' hmax (by omega)
  exact hall.earlier (Nat.le_succ iters)

/-- An unclosed brace stands for itself. -/
theorem RoundsDecide.unclosed (h : RoundsDecide depth) (hlt : iters < vsftpMatchitersMax)
    (hdepth : vsftpMatchitersMax < depth + 1 + iters) (hrest : chNul ∉ rest) (hopen : chRbrace ∉ rest) :
    Decides iters (FirstFit globMarks (chLbrace :: rest) name)
      (match name with
        | [] => (false, iters + 1)
        | c :: name' =>
          if c = chLbrace then passesFilterLoop depth ⟨rest, name', chLbrace, true⟩ (iters + 1)
          else (false, iters + 1)) := by
  refine Decides.of_iff ?_ (firstFit_opening_iff (S := globMarks) (s := name) hopen)
  cases name with
  | nil => exact .no (Nat.le_succ iters) hlt (by simp)
  | cons c name' =>
    by_cases hc : c = chLbrace
    · subst hc
      have hsame : (∃ v, chLbrace :: name' = globMarks.opening :: v ∧ FirstFit globMarks rest v) ↔
          FirstFit globMarks rest name' := by
        refine ⟨?_, fun hfit => ⟨name', rfl, hfit⟩⟩
        intro hfit
        obtain ⟨v, hv, hfit⟩ := hfit
        rwa [(List.cons.inj hv).2]
      exact (h.round hlt hdepth hrest name' chLbrace true (fun _ => by decide)).of_iff hsame
    · have hno : ¬ ∃ v, c :: name' = globMarks.opening :: v ∧ FirstFit globMarks rest v := by
        intro hfit
        obtain ⟨v, hv, _⟩ := hfit
        exact hc (List.cons.inj hv).1
      simp only [hc, if_false]
      exact .no (Nat.le_succ iters) hlt hno

end

/-- **One call answers the first fit**: with rounds to spare for all that the
counter still allows, it never runs out of them, keeps the counter below the
limit, and as long as the limit is not reached says yes exactly if what is
left of the name fits what is left of the pattern. -/
theorem passesFilterLoop_decides (depth : ℕ) : RoundsDecide depth := by
  induction depth with
  | zero =>
    intro st iters _ _ hmax hdepth
    omega
  | succ depth ih =>
    intro st iters hst h0 hmax hdepth
    rw [passesFilterLoop]
    by_cases hover : st.filterRemain = [] ∨ vsftpMatchitersMax ≤ iters
    · rw [if_pos hover]
      refine stop_decides hmax ?_
      intro hlt
      rcases hover with h | h
      · exact h
      · omega
    · rw [if_neg hover]
      have hne : st.filterRemain ≠ [] := fun h => hover (Or.inl h)
      have hlt : iters < vsftpMatchitersMax := by
        by_contra h
        exact hover (Or.inr (by omega))
      obtain ⟨t, q, rest, token, htoken, ht, hfilter, hq, h0t, hrest, hcase⟩ := nextToken_goesOn h0
      simp only [htoken]
      refine Decides.of_iff ?_ (fits_iff_matchNeeded hst h0t hfilter hne ht hq)
      cases hneeded : matchNeeded t st.nameRemain st.mustMatchAtCurrentPos with
      | none => exact .no (Nat.le_succ iters) hlt (by simp)
      | some name =>
        have hname : (∃ v, some name = some v ∧ FirstFit globMarks q v) ↔ FirstFit globMarks q name := by
          simp
        refine Decides.of_iff ?_ hname
        rcases hcase with ⟨rfl, rfl, rfl⟩ | ⟨hmark, rfl⟩
        · exact ih.round hlt hdepth hrest name chNul false (fun h => absurd rfl h)
        rcases hmark with rfl | rfl | rfl
        · exact ih.round hlt hdepth hrest name chStar false (by simp)
        · exact ih.question hlt hdepth hrest
        -- the closing brace is looked for in what is left
        have hlocate : strLocateChar rest chRbrace =
            (cut [chRbrace] rest).map fun p => p.1.length := strLocateChar_eq (by decide) rest
        by_cases hclosed : chRbrace ∈ rest
        · obtain ⟨g, rest', rfl, hg⟩ := List.eq_append_cons_of_mem hclosed
          have halts := braceAlternatives_eq g (g.length + 1) (Nat.lt_succ_self _)
          rw [cut_singleton rest' hg] at hlocate
          simp only [hlocate, Option.map_some, strSplitChar_append_cons (by decide : chRbrace ≠ chNul) hg,
            halts]
          exact ih.group hlt hdepth hrest hg
        · rw [cut_eq_none_of_not_mem hclosed] at hlocate
          simp only [hlocate, Option.map_none]
          exact ih.unclosed hlt hdepth hrest hclosed

/-! ### Soundness and the budget -/

/-- **A name that passes the filter matches it, and the matcher stays within
its budget.** The first holds of every filter that is a C string, as the
settings and the arguments of commands are. The counter is bounded in every
round and every call for an alternative, and no number of rounds above the
limit changes the answer. -/
theorem filter_sound (name filter : Bytes) :
    (chNul ∉ filter → (vsfFilenamePassesFilter name filter 0).1 = true →
      Matches globMarks filter name) ∧
    (∀ depth, vsftpMatchitersMax < depth →
      passesFilterLoop depth (.init name filter) 0 = vsfFilenamePassesFilter name filter 0) ∧
    (∀ depth st iters, iters ≤ vsftpMatchitersMax → Counted iters (passesFilterLoop depth st iters)) ∧
    Counted 0 (vsfFilenamePassesFilter name filter 0) := by
  have hcounted := fun depth st iters (h : iters ≤ vsftpMatchitersMax) =>
    passesFilterLoop_counted depth st h
  refine ⟨?_, ?_, hcounted, hcounted _ _ _ (Nat.zero_le _)⟩
  · intro h0 hpasses
    have hdecides := passesFilterLoop_decides (vsftpMatchitersMax + 1) (.init name filter) 0
      (coherent_init name filter) h0 (Nat.zero_le _) (Nat.lt_succ_self _)
    have hfits : FirstFit globMarks filter name := hdecides.sound hpasses
    exact hfits.matches
  · intro depth hdepth
    exact passesFilterLoop_depth depth (vsftpMatchitersMax + 1) (.init name filter) (Nat.zero_le _)
      hdepth (Nat.lt_succ_self _)

/-- A name of the second alternative, with a letter behind the group. -/
theorem filter_sound_group : Matches globMarks (text "*{b,c}") (text "c") ∧
    passesFilterLoop 2000 (.init (text "c") (text "*{b,c}")) 0 =
      vsfFilenamePassesFilter (text "c") (text "*{b,c}") 0 := by
  have hsound := filter_sound (text "c") (text "*{b,c}")
  exact ⟨hsound.1 (by decide) (by decide +kernel), hsound.2.1 2000 (by decide)⟩

/-! ### What deny_file blocks -/

/-- Below the budget a name is denied exactly if it fits the pattern, or the
pattern stands in it as a text. -/
theorem vsfAccessCheckFile_eq_false_iff {T : Tunables} {pattern name : Bytes}
    (hdeny : T.denyFile = some pattern) (h0 : chNul ∉ pattern)
    (hbudget : (vsfFilenamePassesFilter name pattern 0).2 < vsftpMatchitersMax) :
    vsfAccessCheckFile T name = false ↔
      FirstFit globMarks pattern name ∨ (pattern ≠ [] ∧ pattern <:+: name) := by
  have hdecides := passesFilterLoop_decides (vsftpMatchitersMax + 1) (.init name pattern) 0
    (coherent_init name pattern) h0 (Nat.zero_le _) (Nat.lt_succ_self _)
  have hpasses : (vsfFilenamePassesFilter name pattern 0).1 = true ↔ FirstFit globMarks pattern name :=
    ⟨hdecides.sound, hdecides.complete hbudget⟩
  have htext : (strLocateText name pattern).isNone = false ↔ pattern ≠ [] ∧ pattern <:+: name := by
    rw [strLocateText, cstr_eq_self h0]
    by_cases hp : pattern = []
    · simp [hp, locate]
    · rw [locate_eq_cut hp, Option.isNone_map, ← Bool.not_eq_true, Option.isNone_iff_eq_none,
        cut_eq_none_iff hp, not_not]
      exact (and_iff_right hp).symm
  unfold vsfAccessCheckFile
  rw [hdeny]
  by_cases hfits : FirstFit globMarks pattern name
  · simp [hpasses.mpr hfits, hfits]
  · have hno : ¬ (vsfFilenamePassesFilter name pattern 0).1 = true := fun h => hfits (hpasses.mp h)
    simp only [hno, hfits, false_or]
    exact htext

/-- **deny_file blocks a name it describes exactly if the name fits with every
star as short as it can be and an alternative in front of the first empty
one**, or holds the pattern as a text. -/
theorem deny_file_blocks (T : Tunables) (pattern name : Bytes) (hdeny : T.denyFile = some pattern)
    (h0 : chNul ∉ pattern)
    (hbudget : (vsfFilenamePassesFilter name pattern 0).2 < vsftpMatchitersMax) :
    (Matches globMarks pattern name → vsfAccessCheckFile T name = false) ↔
      (Matches globMarks pattern name →
        FirstFit globMarks pattern name ∨ (pattern ≠ [] ∧ pattern <:+: name)) := by
  rw [vsfAccessCheckFile_eq_false_iff hdeny h0 hbudget]

/-- The setting that is to keep the songs away. -/
def songServer : Tunables := { denyFile := some (text "*.mp") }

theorem deny_file_blocks_song : vsfAccessCheckFile songServer (text "a.mp") = false := by
  have hexact := deny_file_blocks songServer (text "*.mp") (text "a.mp") rfl (by decide) (by decide +kernel)
  have hfits : FirstFit globMarks (chStar :: (text ".mp" ++ [])) (text "a.mp") :=
    .starLetters (by decide) (by decide +kernel) (by simp [Marks.Breaks])
      (by decide +kernel : cut (text ".mp") (text "a.mp") = some (text "a", [])) .nil
  exact hexact.mpr (fun _ => Or.inl hfits) hfits.matches

/-- A name that ends in the denied text and holds it once more before. -/
theorem deny_file_misses : (vsfFilenamePassesFilter (text "a.mp.mp") (text "*.mp") 0).2 < vsftpMatchitersMax ∧
    Matches globMarks (text "*.mp") (text "a.mp.mp") ∧
    vsfAccessCheckFile songServer (text "a.mp.mp") = true := by
  have htext : ∀ c ∈ text ".mp", globMarks.Letter c := by decide +kernel
  have hmatches : Matches globMarks (chStar :: (text ".mp" ++ [])) (text "a.mp" ++ (text ".mp" ++ [])) :=
    .star (text "a.mp") (matches_letters .nil htext)
  exact ⟨by decide +kernel, hmatches, by decide +kernel⟩

end CosFtp
