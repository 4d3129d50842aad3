/-
# Paths and the access check

A local path is text; `components` takes an absolute one apart at its slashes
and `render` puts it together again. `prepend_session_path_to_filename` puts
the working directory before a relative name and the user's root directory
before an absolute one, and `session_real_path` then rewrites the text in two
loops, "/./" to "/" and "/../" away with the component before it. Each loop
runs for as many rounds as the path has bytes, which is more than it needs.

The two loops come to a walk over the components: `sessionRealPath_render`
says that the path left is the one `levelMoves` leads to, and
`vsfAccessSessionCheckFile_iff` that the check of access.c compares that walk
with the root. What the kernel makes of the same text is `resolve`.

Key definitions: `Dir`, `resolve`, `sessionRealPath`, `vsfAccessSessionCheckFile`.
Key theorems: `removeHereLoop_render`, `resolveUpLoop_render`, `vsfAccessSessionCheckFile_iff`.
-/
import CosFtp.Filter
import CosFtp.Lib.Walk

namespace CosFtp

open Search Walk

/-- The names a path's components are compared with. -/
def pathMarks : Marks Bytes :=
  ⟨[], [chDot], [chDot, chDot], by decide, by decide, by decide⟩

/-- The text of an absolute path: each component after a slash. -/
def render (cs : List Bytes) : Bytes := cs.flatMap (chSlash :: ·)

/-- The components of an absolute path. -/
def components (p : Bytes) : List Bytes := (p.splitOn chSlash).tail

/-- The name of a directory. -/
def IsDirName (c : Bytes) : Prop := pathMarks.IsName c ∧ chSlash ∉ c ∧ chNul ∉ c

instance (c : Bytes) : Decidable (IsDirName c) :=
  inferInstanceAs (Decidable (pathMarks.IsName c ∧ chSlash ∉ c ∧ chNul ∉ c))

/-- A directory, by the names that lead to it from the top. -/
structure Dir where
  names : List Bytes
  isDirName : ∀ c ∈ names, IsDirName c
  deriving DecidableEq

/-- The text `getcwd` gives for a directory. -/
def Dir.path (d : Dir) : Bytes := if d.names = [] then [chSlash] else render d.names

/-! ### The functions of the source -/

section

variable (T : Tunables) (cwd : Bytes)

def prependSessionPathToFilename (p : Bytes) : Bytes :=
  let tmp :=
    if p = [] ∨ p.head? ≠ some chSlash then
      -- careful to not emit // in directory /
      if cwd = [] ∨ cwd.getLast? ≠ some chSlash then cwd ++ [chSlash] else cwd
    else getUserRootDir T
  tmp ++ p

/-- The first loop of `session_real_path`. -/
def removeHereLoop : ℕ → Bytes → Bytes
  | 0, p => p
  | n + 1, p =>
    let p' := strReplaceText p (text "/./") (text "/")
    if p'.length = p.length then p' else removeHereLoop n p'

/-- The second loop of `session_real_path`. -/
def resolveUpLoop : ℕ → Bytes → Bytes
  | 0, p => p
  | n + 1, p =>
    let (lhs, rhs) := strSplitText p (text "/../")
    if lhs.length = p.length then lhs
    else
      let lhs' := (strSplitCharReverse lhs chSlash).1
      resolveUpLoop n (if rhs ≠ [] then lhs' ++ [chSlash] ++ rhs else lhs')

def sessionRealPath (p : Bytes) : Bytes :=
  let p := prependSessionPathToFilename T cwd p
  let p := removeHereLoop (p.length + 1) p
  resolveUpLoop (p.length + 1) p

/-- `vsf_access_check_file`: the `deny_file` setting as a pattern and as a text. -/
def vsfAccessCheckFile (filename : Bytes) : Bool :=
  match T.denyFile with
  | none => true
  | some access =>
    if (vsfFilenamePassesFilter filename access 0).1 then false
    else (strLocateText filename access).isNone

def vsfAccessSessionCheckFile (filename : Bytes) : Bool :=
  let realPath := sessionRealPath T cwd filename
  let realPath :=
    if realPath = [] ∨ realPath.getLast? ≠ some chSlash then realPath ++ [chSlash] else realPath
  let userRoot := getUserRootDir T ++ [chSlash]
  if strncmpEq userRoot realPath userRoot.length then vsfAccessCheckFile T filename else false

/-- `resolve_tilde`, with the session's home and the user database. -/
def resolveTilde (home : Bytes) (getpwnam : Bytes → Option Bytes) (p : Bytes) : Bytes :=
  if 0 < p.length ∧ p[0]? = some chTilde then
    if p.length = 1 ∨ p[1]? = some chSlash then home ++ (strSplitChar p chTilde).2
    else if T.tildeUserEnable ∧ 1 < p.length then
      let user := (strSplitChar p chTilde).2
      let (user, rhs) := strSplitChar user chSlash
      match getpwnam user with
      | none => p
      | some dir => if rhs ≠ [] then cstr dir ++ [chSlash] ++ rhs else cstr dir
    else p
  else p

end

/-! ### Rendering and its inverse -/

@[simp] theorem render_nil : render [] = [] := rfl

@[simp] theorem render_cons (c : Bytes) (cs : List Bytes) :
    render (c :: cs) = chSlash :: (c ++ render cs) := rfl

theorem render_append (cs ds : List Bytes) : render (cs ++ ds) = render cs ++ render ds :=
  List.flatMap_append

/-- No component holds a slash. -/
def SlashFree (cs : List Bytes) : Prop := ∀ c ∈ cs, chSlash ∉ c

theorem SlashFree.of_cons {c : Bytes} {cs : List Bytes} (h : SlashFree (c :: cs)) :
    chSlash ∉ c ∧ SlashFree cs :=
  ⟨h c (by simp), fun d hd => h d (by simp [hd])⟩

theorem SlashFree.append {cs ds : List Bytes} (hc : SlashFree cs) (hd : SlashFree ds) :
    SlashFree (cs ++ ds) := fun c h => (List.mem_append.mp h).elim (hc c) (hd c)

/-- A field holds bytes of the text, and no slash. -/
theorem mem_of_mem_splitOn : ∀ {s c : Bytes} {b : UInt8}, c ∈ s.splitOn chSlash → b ∈ c →
    b ∈ s ∧ b ≠ chSlash
  | [], c, b, hc, hb => by
    rw [List.splitOn_nil, List.mem_singleton] at hc
    simp [hc] at hb
  | d :: s, c, b, hc, hb => by
    rw [List.splitOn_cons_eq_if_modifyHead] at hc
    split at hc
    · rcases List.mem_cons.mp hc with rfl | hc
      · simp at hb
      · obtain ⟨h1, h2⟩ := mem_of_mem_splitOn hc hb
        exact ⟨List.mem_cons_of_mem _ h1, h2⟩
    · rename_i hd
      cases hs : s.splitOn chSlash with
      | nil => exact absurd hs (List.splitOn_ne_nil _ s)
      | cons e es =>
        have ih : ∀ {c' : Bytes}, c' ∈ e :: es → b ∈ c' → b ∈ s ∧ b ≠ chSlash := by
          intro c' hc'
          exact mem_of_mem_splitOn (hs ▸ hc')
        rw [hs, List.modifyHead_cons, List.mem_cons] at hc
        rcases hc with rfl | hc
        · rcases List.mem_cons.mp hb with rfl | hb
          · exact ⟨List.mem_cons_self, fun he => hd (by simp [he])⟩
          · exact ⟨List.mem_cons_of_mem _ (ih List.mem_cons_self hb).1, (ih List.mem_cons_self hb).2⟩
        · have := ih (List.mem_cons_of_mem _ hc) hb
          exact ⟨List.mem_cons_of_mem _ this.1, this.2⟩

theorem components_slash (s : Bytes) : components (chSlash :: s) = s.splitOn chSlash := by
  rw [components, List.splitOn_cons_eq_if_modifyHead]
  simp

theorem slashFree_components (p : Bytes) : SlashFree (components p) :=
  fun _ hc hb => (mem_of_mem_splitOn (List.mem_of_mem_tail hc) hb).2 rfl

theorem nul_not_mem_components {p : Bytes} (h : chNul ∉ p) : ∀ c ∈ components p, chNul ∉ c :=
  fun _ hc hb => h (mem_of_mem_splitOn (List.mem_of_mem_tail hc) hb).1

theorem nul_not_mem_cstr (s : Bytes) : chNul ∉ cstr s :=
  fun h => by simpa using List.mem_takeWhile_imp h

/-- What stands in the path behind the tilde stood in it, in a home directory, or is a slash. -/
theorem not_mem_resolveTilde {T : Tunables} {b : UInt8} {home p : Bytes} {getpwnam : Bytes → Option Bytes}
    (hslash : b ≠ chSlash) (hdir : ∀ user dir, getpwnam user = some dir → b ∉ cstr dir) (hhome : b ∉ home)
    (hp : b ∉ p) : b ∉ resolveTilde T home getpwnam p := by
  have htail : b ∉ (strSplitChar p chTilde).2 := fun h => hp ((strSplitChar_subset p chTilde).2 h)
  have hrest : b ∉ (strSplitChar (strSplitChar p chTilde).2 chSlash).2 :=
    fun h => htail ((strSplitChar_subset _ chSlash).2 h)
  unfold resolveTilde
  dsimp only
  split
  · split
    · exact List.not_mem_append hhome htail
    · split
      · split
        · exact hp
        · rename_i dir hget
          have hcut := hdir _ dir hget
          split
          · exact List.not_mem_append (List.not_mem_append hcut (by simpa using hslash)) hrest
          · exact hcut
      · exact hp
  · exact hp

/-- The components of an absolute path give the path back. -/
theorem render_components (s : Bytes) : render (components (chSlash :: s)) = chSlash :: s := by
  have hjoin : ∀ ds : List Bytes, ds ≠ [] → render ds = chSlash :: List.intercalate [chSlash] ds := by
    intro ds hds
    induction ds with
    | nil => exact absurd rfl hds
    | cons d ds ih =>
      cases ds with
      | nil => simp [List.intercalate]
      | cons e ds => rw [render_cons, ih (by simp)]; simp [List.intercalate]
  rw [components_slash, hjoin _ (List.splitOn_ne_nil _ s), List.intercalate_splitOn]

/-- Components without a slash are read back. -/
theorem components_render : ∀ {cs : List Bytes}, SlashFree cs → components (render cs) = cs
  | [], _ => rfl
  | [c], h => by
    rw [render_cons, components_slash, render_nil, List.append_nil,
      List.splitOn_eq_singleton h.of_cons.1]
  | c :: d :: cs, h => by
    have ih := components_render h.of_cons.2
    rw [render_cons, components_slash] at ih
    rw [render_cons, components_slash, render_cons,
      List.splitOn_append_cons_self_of_not_mem h.of_cons.1, ih]

/-- A path ends as its last component does. -/
theorem getLast?_render_concat (ds : List Bytes) {d : Bytes} (hd : d ≠ []) :
    (render (ds ++ [d])).getLast? = d.getLast? := by
  rw [render_append, render_cons, List.getLast?_append]
  cases d with
  | nil => exact absurd rfl hd
  | cons b d => simp [List.getLast?_cons]

/-! ### Searching a rendered path

A search for "/m/" in a rendered path looks at one component after the other. -/

/-- Two texts are compared up to their first slashes, then behind them. -/
theorem append_slash_prefix_iff : ∀ {a b : Bytes} (x y : Bytes), chSlash ∉ a → chSlash ∉ b →
    (a ++ chSlash :: x <+: b ++ chSlash :: y ↔ a = b ∧ x <+: y)
  | [], [], x, y, _, _ => by simp
  | [], d :: b, x, y, _, hb => by
    have : ¬ chSlash = d := fun he => hb (by simp [he])
    simp [this]
  | d :: a, [], x, y, ha, _ => by
    have : ¬ d = chSlash := fun he => ha (by simp [he])
    simp [this]
  | d :: a, e :: b, x, y, ha, hb => by
    have ih := append_slash_prefix_iff (a := a) (b := b) x y (fun h => ha (by simp [h]))
      (fun h => hb (by simp [h]))
    rw [List.cons_append, List.cons_append, List.cons_prefix_cons, ih, List.cons.injEq, and_assoc]

/-- A component followed by a slash is read off a path exactly if it is its
first one and not its last. -/
theorem prefix_render_iff {m c : Bytes} (cs : List Bytes) (hm : chSlash ∉ m) (hc : chSlash ∉ c) :
    m ++ [chSlash] <+: c ++ render cs ↔ c = m ∧ cs ≠ [] := by
  cases cs with
  | nil =>
    have hno : ¬ m ++ [chSlash] <+: c := fun h => hc (h.subset (by simp))
    simpa using hno
  | cons d ds =>
    rw [render_cons, append_slash_prefix_iff _ _ hm hc]
    simp [eq_comm]

/-- The text a mark is looked for as. -/
def between (m : Bytes) : Bytes := chSlash :: (m ++ [chSlash])

theorem cut_render_cons {m c : Bytes} (cs : List Bytes) (hm : chSlash ∉ m) (hc : chSlash ∉ c) :
    cut (between m) (render (c :: cs)) =
      if c = m ∧ cs ≠ [] then some ([], (render cs).tail)
      else (cut (between m) (render cs)).map fun p => (chSlash :: (c ++ p.1), p.2) := by
  have hp : chSlash :: (m ++ [chSlash]) <+: chSlash :: (c ++ render cs) ↔ c = m ∧ cs ≠ [] := by
    rw [List.cons_prefix_cons, prefix_render_iff cs hm hc]
    simp
  rw [between, render_cons, cut]
  by_cases h : c = m ∧ cs ≠ []
  · rw [if_pos (hp.mpr h), if_pos h, h.1]
    simp [List.drop_append]
  · rw [if_neg (mt hp.mp h), if_neg h, cut_append_of_not_mem _ hc, Option.map_map]
    rfl

/-- Components that are not the mark are passed over. -/
theorem cut_render_append {m : Bytes} (hm : chSlash ∉ m) : ∀ {st : List Bytes} (cs : List Bytes), SlashFree st →
    (∀ c ∈ st, c ≠ m) → cut (between m) (render (st ++ cs)) =
      (cut (between m) (render cs)).map fun p => (render st ++ p.1, p.2)
  | [], cs, _, _ => by simp
  | c :: st, cs, hs, hne => by
    have hc : c ≠ m := hne c (by simp)
    have ih := cut_render_append hm cs hs.of_cons.2 fun d hd => hne d (by simp [hd])
    rw [List.cons_append, cut_render_cons _ hm hs.of_cons.1, if_neg (by simp [hc]), ih, Option.map_map]
    simp [Function.comp_def]

/-- The last component is never found. -/
theorem cut_render_singleton {m c : Bytes} (hm : chSlash ∉ m) (hc : chSlash ∉ c) :
    cut (between m) (render [c]) = none := by
  rw [cut_render_cons _ hm hc, if_neg (by simp)]
  rfl

/-! ### The loop that removes "/./" -/

/-- What one replacement of "/./" by "/" leaves: the slash after a `.` is part
of the hit, so the component behind it is passed over. -/
def hereOnce : List Bytes → List Bytes
  | [] => []
  | [c] => [c]
  | c :: d :: cs => if c = pathMarks.here then d :: hereOnce cs else c :: hereOnce (d :: cs)

theorem text_here : text "/./" = between pathMarks.here := by decide

theorem text_up : text "/../" = between pathMarks.up := by decide

theorem slash_not_mem_here : chSlash ∉ pathMarks.here := by decide

theorem slash_not_mem_up : chSlash ∉ pathMarks.up := by decide

/-- What the search passes over, the replacement keeps. -/
theorem strReplaceText_append {p_from u s : Bytes} (p_to : Bytes) (h0 : chNul ∉ p_from)
    (hf : p_from ≠ [])
    (h : cut p_from (u ++ s) = (cut p_from s).map fun p => (u ++ p.1, p.2)) :
    strReplaceText (u ++ s) p_from p_to = u ++ strReplaceText s p_from p_to := by
  rw [strReplaceText_eq p_to _ h0 hf, strReplaceText_eq p_to s h0 hf, h]
  cases cut p_from s with
  | none => rfl
  | some p => simp

theorem strReplaceText_here : ∀ cs : List Bytes, SlashFree cs →
    strReplaceText (render cs) (text "/./") (text "/") = render (hereOnce cs)
  | [], _ => by decide
  | [c], h => by
    have h0 : chNul ∉ text "/./" := by decide
    have hcut := cut_render_singleton slash_not_mem_here h.of_cons.1
    rw [strReplaceText_eq _ _ h0 (by decide), text_here, hcut]
    rfl
  | c :: d :: cs, h => by
    have h0 : chNul ∉ text "/./" := by decide
    have hne : text "/./" ≠ [] := by decide
    have hcut := cut_render_cons (d :: cs) slash_not_mem_here h.of_cons.1
    have hd : chSlash ∉ d := h.of_cons.2.of_cons.1
    rw [hereOnce]
    by_cases hc : c = pathMarks.here
    · -- a hit: the slash is emitted and the next component copied
      rw [if_pos ⟨hc, by simp⟩, ← text_here] at hcut
      rw [strReplaceText_eq _ _ h0 hne, hcut, if_pos hc]
      have hto : cstr (text "/") = [chSlash] := by decide
      have hskip : strReplaceText (d ++ render cs) (text "/./") (text "/") =
          d ++ strReplaceText (render cs) (text "/./") (text "/") := by
        refine strReplaceText_append _ h0 hne ?_
        rw [text_here]
        exact cut_append_of_not_mem _ hd
      simp only [render_cons, List.tail_cons, hto, hskip, List.nil_append,
        strReplaceText_here cs h.of_cons.2.of_cons.2]
      rfl
    · rw [if_neg (by simp [hc])] at hcut
      have hkeep := strReplaceText_append (u := chSlash :: c) (s := render (d :: cs)) (text "/") h0 hne
        (by rw [text_here]; exact hcut)
      rw [if_neg hc, render_cons c (hereOnce (d :: cs)), ← strReplaceText_here (d :: cs) h.of_cons.2]
      exact hkeep

theorem slashFree_hereOnce : ∀ {cs : List Bytes}, SlashFree cs → SlashFree (hereOnce cs)
  | [], h => h
  | [_], h => h
  | c :: d :: cs, h => by
    rw [hereOnce]
    intro e he
    split at he <;> rcases List.mem_cons.mp he with rfl | he
    · exact h.of_cons.2.of_cons.1
    · exact slashFree_hereOnce h.of_cons.2.of_cons.2 e he
    · exact h.of_cons.1
    · exact slashFree_hereOnce h.of_cons.2 e he

theorem hereOnce_eq_nil : ∀ {cs : List Bytes}, hereOnce cs = [] ↔ cs = []
  | [] => by simp [hereOnce]
  | [_] => by simp [hereOnce]
  | c :: d :: cs => by rw [hereOnce]; split <;> simp

/-- One replacement takes out `.` components only. -/
theorem dropHere_hereOnce : ∀ cs : List Bytes,
    dropHere pathMarks (hereOnce cs) = dropHere pathMarks cs
  | [] => rfl
  | [_] => rfl
  | c :: d :: cs => by
    have hcons : ∀ (e : Bytes) (es : List Bytes), es ≠ [] → dropHere pathMarks (e :: es) =
        if e = pathMarks.here then dropHere pathMarks es else e :: dropHere pathMarks es := by
      intro e es hes
      cases es with
      | nil => exact absurd rfl hes
      | cons x xs => rfl
    rw [hereOnce, dropHere]
    split
    · by_cases hcs : cs = []
      · subst hcs; rfl
      · rw [hcons d _ (mt hereOnce_eq_nil.mp hcs), hcons d _ hcs, dropHere_hereOnce cs]
    · rename_i hc
      rw [hcons c _ (mt hereOnce_eq_nil.mp (by simp)), if_neg hc, dropHere_hereOnce (d :: cs)]

theorem length_hereOnce_le (cs : List Bytes) :
    (render (hereOnce cs)).length ≤ (render cs).length := by
  fun_induction hereOnce cs with
  | case1 => rfl
  | case2 => rfl
  | case3 d cs ih => simp only [render_cons, List.length_cons, List.length_append]; omega
  | case4 c d cs hc ih =>
    rw [render_cons, render_cons c, List.length_cons, List.length_cons, List.length_append,
      List.length_append]
    omega

/-- A replacement that shortens nothing had nothing to replace. -/
theorem hereOnce_eq_self : ∀ {cs : List Bytes},
    (render (hereOnce cs)).length = (render cs).length →
    hereOnce cs = cs ∧ dropHere pathMarks cs = cs
  | [], _ => ⟨rfl, rfl⟩
  | [_], _ => ⟨rfl, rfl⟩
  | c :: d :: cs, h => by
    rw [hereOnce] at h ⊢
    rw [dropHere]
    split at h
    · have := length_hereOnce_le cs
      simp only [render_cons, List.length_cons, List.length_append] at h
      omega
    · rename_i hc
      have hlen : (render (hereOnce (d :: cs))).length = (render (d :: cs)).length := by
        rw [render_cons, render_cons c, List.length_cons, List.length_cons, List.length_append,
          List.length_append] at h
        omega
      obtain ⟨h1, h2⟩ := hereOnce_eq_self hlen
      rw [if_neg hc, if_neg hc, h1, h2]
      exact ⟨rfl, rfl⟩

/-- **The first loop drops every `.` but a last one.** -/
theorem removeHereLoop_render : ∀ (n : ℕ) {cs : List Bytes}, SlashFree cs →
    (render cs).length < n → removeHereLoop n (render cs) = render (dropHere pathMarks cs)
  | 0, _, _, hn => by omega
  | n + 1, cs, h, hn => by
    rw [removeHereLoop]
    simp only [strReplaceText_here cs h]
    split
    · rename_i hlen
      rw [(hereOnce_eq_self hlen).1, (hereOnce_eq_self hlen).2]
    · rename_i hlen
      have hlt : (render (hereOnce cs)).length < (render cs).length :=
        lt_of_le_of_ne (length_hereOnce_le cs) hlen
      rw [removeHereLoop_render n (slashFree_hereOnce h) (by omega), dropHere_hereOnce]

/-! ### The loop that resolves "/../" -/

theorem strSplitText_up {st cs : List Bytes} (d : Bytes) (hs : SlashFree st)
    (hu : ∀ c ∈ st, c ≠ pathMarks.up) :
    strSplitText (render (st ++ pathMarks.up :: d :: cs)) (text "/../") =
      (render st, d ++ render cs) := by
  rw [strSplitText_eq (by decide) (by decide), text_up, cut_render_append slash_not_mem_up _ hs hu,
    cut_render_cons _ slash_not_mem_up slash_not_mem_up, if_pos ⟨rfl, by simp⟩]
  simp

theorem strSplitText_no_up {st : List Bytes} (c : List Bytes) (hc : c.length ≤ 1)
    (hs : SlashFree (st ++ c)) (hu : ∀ c ∈ st, c ≠ pathMarks.up) :
    strSplitText (render (st ++ c)) (text "/../") = (render (st ++ c), []) := by
  have hst : SlashFree st := fun x hx => hs x (by simp [hx])
  have hnone : cut (between pathMarks.up) (render c) = none := by
    match c, hc with
    | [], _ => rfl
    | [c], _ => exact cut_render_singleton slash_not_mem_up (hs c (by simp))
  rw [strSplitText_eq (by decide) (by decide), text_up, cut_render_append slash_not_mem_up _ hst hu,
    hnone]
  rfl

/-- The text before "/../" loses its last component. -/
theorem strSplitCharReverse_render : ∀ {st : List Bytes}, SlashFree st →
    (strSplitCharReverse (render st) chSlash).1 = render st.dropLast := by
  intro st h
  rcases List.eq_nil_or_concat st with rfl | ⟨st, c, rfl⟩
  · exact congrArg Prod.fst (strSplitCharReverse_nil chSlash)
  · have hc : chSlash ∉ c := h c (by simp)
    rw [List.concat_eq_append, render_append, List.dropLast_concat]
    simpa using congrArg Prod.fst (strSplitCharReverse_eq (by decide) (render st) hc)

/-- **The second loop is the walk that reads the path level by level.** -/
theorem resolveUpLoop_render : ∀ (n : ℕ) (st cs : List Bytes), SlashFree st → SlashFree cs →
    (∀ c ∈ st, c ≠ pathMarks.up) → (render (st ++ cs)).length < n →
    resolveUpLoop n (render (st ++ cs)) = render (walk st (levelMoves pathMarks cs))
  | 0, _, _, _, _, _, hn => by omega
  | n + 1, st, [], hst, hcs, hu, hn => by
    rw [resolveUpLoop, strSplitText_no_up [] (by simp) (by simpa using hst) hu]
    simp [levelMoves, walk]
  | n + 1, st, [c], hst, hcs, hu, hn => by
    rw [resolveUpLoop, strSplitText_no_up [c] (by simp) (hst.append hcs) hu]
    simp [levelMoves, walk]
  | n + 1, st, c :: d :: cs, hst, hcs, hu, hn => by
    obtain ⟨hc, hdcs⟩ := hcs.of_cons
    rw [levelMoves]
    by_cases hup : c = pathMarks.up
    · subst hup
      have hst' : SlashFree st.dropLast := fun x hx => hst x (List.dropLast_subset _ hx)
      have hu' : ∀ x ∈ st.dropLast, x ≠ pathMarks.up :=
        fun x hx => hu x (List.dropLast_subset _ hx)
      have hdrop : (render st.dropLast).length ≤ (render st).length := by
        conv_rhs => rw [← List.take_append_drop (st.length - 1) st, render_append]
        rw [List.dropLast_eq_take, List.length_append]
        omega
      have hlen : (render (st ++ pathMarks.up :: d :: cs)).length =
          (render st).length + (render (d :: cs)).length + 3 := by
        rw [render_append, render_cons, List.length_append, List.length_cons, List.length_append]
        simp [pathMarks]
        omega
      rw [resolveUpLoop, strSplitText_up d hst hu]
      simp only [strSplitCharReverse_render hst]
      rw [if_neg (by omega), if_true]
      by_cases hend : d = pathMarks.empty ∧ cs = []
      · -- the path ends in "/../": nothing is put behind what is left
        obtain ⟨rfl, rfl⟩ := hend
        have hrhs : pathMarks.empty ++ render [] = [] := rfl
        rw [hrhs, if_neg (not_not.mpr rfl), if_pos ⟨rfl, rfl⟩]
        simpa [levelMoves, walk] using
          resolveUpLoop_render n st.dropLast [] hst' (fun _ h => absurd h (by simp)) hu' (by simp; omega)
      · have hrhs : d ++ render cs ≠ [] := by
          intro h
          obtain ⟨rfl, hr⟩ := List.append_eq_nil_iff.mp h
          refine hend ⟨rfl, ?_⟩
          cases cs with
          | nil => rfl
          | cons e es => simp at hr
        have hjoin : render st.dropLast ++ [chSlash] ++ (d ++ render cs) =
            render (st.dropLast ++ d :: cs) := by
          rw [render_append, render_cons]; simp
        rw [if_pos hrhs, if_neg hend, hjoin, walk]
        refine resolveUpLoop_render n _ _ hst' hdcs hu' ?_
        rw [render_append, List.length_append]
        omega
    · rw [if_neg hup, walk]
      have hsplit : st ++ c :: d :: cs = st ++ [c] ++ d :: cs := by simp
      rw [hsplit] at hn ⊢
      refine resolveUpLoop_render (n + 1) _ _ ?_ hdcs ?_ hn
      · intro x hx
        rcases List.mem_append.mp hx with hx | hx
        · exact hst x hx
        · rw [List.mem_singleton.mp hx]; exact hc
      · intro x hx
        rcases List.mem_append.mp hx with hx | hx
        · exact hu x hx
        · rw [List.mem_singleton.mp hx]; exact hup
termination_by n _ cs => (n, cs.length)

/-! ### The check of access.c -/

theorem slashFree_dropHere : ∀ {cs : List Bytes}, SlashFree cs → SlashFree (dropHere pathMarks cs) :=
  fun h c hc => h c (mem_of_mem_dropHere pathMarks hc)

/-- The path `session_real_path` leaves of a rendered one. -/
theorem sessionRealPath_render {T : Tunables} {cwd p : Bytes} {cs : List Bytes} (h : SlashFree cs)
    (hp : prependSessionPathToFilename T cwd p = render cs) :
    sessionRealPath T cwd p = render (walk [] (levelMoves pathMarks (dropHere pathMarks cs))) := by
  have hhere := removeHereLoop_render ((render cs).length + 1) h (Nat.lt_succ_self _)
  simp only [sessionRealPath, hp, hhere]
  have hup := resolveUpLoop_render ((render (dropHere pathMarks cs)).length + 1) [] _
    (fun _ hc => absurd hc (by simp)) (slashFree_dropHere h) (by simp) (Nat.lt_succ_self _)
  simpa using hup

/-- Two paths that both end in a slash are compared component by component. -/
theorem render_slash_prefix_iff : ∀ {rs ws : List Bytes}, SlashFree rs → SlashFree ws →
    (render rs ++ [chSlash] <+: render ws ++ [chSlash] ↔ rs <+: ws)
  | [], [], _, _ => by simp
  | [], _ :: _, _, _ => by simp
  | r :: rs, [], hr, _ => by simp
  | r :: rs, w :: ws, hr, hw => by
    have ih := render_slash_prefix_iff hr.of_cons.2 hw.of_cons.2
    have hslash : ∀ cs : List Bytes, ∃ x, render cs ++ [chSlash] = chSlash :: x := by
      intro cs
      cases cs with
      | nil => exact ⟨[], rfl⟩
      | cons d ds => exact ⟨_, rfl⟩
    obtain ⟨x, hx⟩ := hslash rs
    obtain ⟨y, hy⟩ := hslash ws
    rw [hx, hy, List.cons_prefix_cons] at ih
    rw [render_cons, render_cons, List.cons_append, List.cons_append, List.append_assoc,
      List.append_assoc, hx, hy, List.cons_prefix_cons, List.cons_prefix_cons,
      append_slash_prefix_iff _ _ hr.of_cons.1 hw.of_cons.1]
    rw [← ih]
    tauto

theorem nul_not_mem_render {cs : List Bytes} (h : ∀ c ∈ cs, chNul ∉ c) : chNul ∉ render cs := by
  intro hmem
  obtain ⟨c, hc, hb⟩ := List.mem_flatMap.mp hmem
  rcases List.mem_cons.mp hb with hb | hb
  · exact absurd hb (by decide)
  · exact h c hc hb

/-- The comparison of access.c, on components: the slash it puts behind the
path is not put twice behind an empty last component, and no name of the root
is empty. -/
theorem strncmpEq_render {rs ws : List Bytes} (hrs : ∀ c ∈ rs, IsDirName c)
    (hs : SlashFree ws) (h0 : ∀ c ∈ ws, chNul ∉ c) :
    strncmpEq (render rs ++ [chSlash])
      (if render ws = [] ∨ (render ws).getLast? ≠ some chSlash then render ws ++ [chSlash]
        else render ws) (render rs ++ [chSlash]).length = true ↔ rs <+: ws := by
  have hslash : ∀ {s : Bytes}, chNul ∉ s → chNul ∉ s ++ [chSlash] := by
    intro s hs hmem
    rcases List.mem_append.mp hmem with h | h
    · exact hs h
    · exact absurd h (by decide)
  have hr0 := hslash (nul_not_mem_render fun c hc => (hrs c hc).2.2)
  have hrsf : SlashFree rs := fun c hc => (hrs c hc).2.1
  have hw0 := nul_not_mem_render h0
  split
  · rw [strncmpEq_iff hr0 (hslash hw0)]
    exact render_slash_prefix_iff hrsf hs
  · rename_i h
    rw [strncmpEq_iff hr0 hw0]
    rcases List.eq_nil_or_concat ws with rfl | ⟨vs, v, rfl⟩
    · simp at h
    · rw [List.concat_eq_append] at hs h ⊢
      have hv : v = [] := by
        by_contra hv
        rw [getLast?_render_concat vs hv] at h
        have hmem : chSlash ∈ v := List.mem_of_getLast? (by simpa using (not_or.mp h).2)
        exact hs v (by simp) hmem
      subst hv
      have hvs : SlashFree vs := fun c hc => hs c (by simp [hc])
      rw [render_append]
      have := render_slash_prefix_iff hrsf hvs
      rw [show render [[]] = [chSlash] from rfl, this]
      constructor
      · exact fun h => h.trans (List.prefix_append _ _)
      · intro h
        rcases List.prefix_concat_iff.mp h with rfl | h
        · exact absurd rfl (hrs [] (by simp)).1.1
        · exact h

/-! ### A path below the root -/

theorem Dir.nul_not_mem_path (d : Dir) : chNul ∉ d.path := by
  unfold Dir.path
  split
  · decide
  · exact nul_not_mem_render fun c hc => (d.isDirName c hc).2.2

theorem Dir.path_ne_nil (d : Dir) : d.path ≠ [] := by
  unfold Dir.path
  split
  · decide
  · rename_i hne
    obtain ⟨c, cs, hcs⟩ := List.exists_cons_of_ne_nil hne
    simp [hcs]

theorem Dir.slashFree (d : Dir) : SlashFree d.names := fun c hc => (d.isDirName c hc).2.1

/-- The directory the kernel finds an absolute path to lead to, where no
component is a symbolic link. -/
def resolve (p : Bytes) : Dir where
  names := walk [] (posixMoves pathMarks (components (cstr p)))
  isDirName := by
    intro c hc
    rcases mem_walk _ _ hc with hc | hc
    · simp at hc
    · obtain ⟨hmem, hname⟩ := mem_of_down_mem_posixMoves pathMarks hc
      exact ⟨hname, slashFree_components _ c hmem, nul_not_mem_components (nul_not_mem_cstr p) c hmem⟩

/-- The components, below the root `R`, of the path built from `a` in the
directory `cwd`. -/
def componentsBelow (R cwd : Dir) (a : Bytes) : List Bytes :=
  if a.head? = some chSlash then components a
  else cwd.names.drop R.names.length ++ components (chSlash :: a)

/-- The same path as the access check reads it, level by level: how far above
the root it gets, and the names from there. -/
def levelReading (R cwd : Dir) (a : Bytes) : ℕ × List Bytes :=
  climb (levelMoves pathMarks (dropHere pathMarks (componentsBelow R cwd a)))

/-- The same path as POSIX reads it. -/
def posixReading (R cwd : Dir) (a : Bytes) : ℕ × List Bytes :=
  climb (posixMoves pathMarks (componentsBelow R cwd a))

theorem componentsBelow_ne_nil (R cwd : Dir) (a : Bytes) : componentsBelow R cwd a ≠ [] := by
  have hne : ∀ s : Bytes, components (chSlash :: s) ≠ [] := by
    intro s
    rw [components_slash]
    exact List.splitOn_ne_nil _ s
  unfold componentsBelow
  split
  · rename_i h
    obtain ⟨s, rfl⟩ : ∃ s, a = chSlash :: s := List.head?_eq_some_iff.mp h
    exact hne s
  · simp [hne a]

theorem slashFree_componentsBelow (R cwd : Dir) (a : Bytes) : SlashFree (componentsBelow R cwd a) := by
  unfold componentsBelow
  split
  · exact slashFree_components a
  · exact SlashFree.append (fun c hc => cwd.slashFree c (List.mem_of_mem_drop hc))
      (slashFree_components _)

theorem nul_not_mem_componentsBelow (R cwd : Dir) {a : Bytes} (h : chNul ∉ a) :
    ∀ c ∈ componentsBelow R cwd a, chNul ∉ c := by
  unfold componentsBelow
  split
  · exact nul_not_mem_components h
  · intro c hc
    rcases List.mem_append.mp hc with hc | hc
    · exact (cwd.isDirName c (List.mem_of_mem_drop hc)).2.2
    · have h' : chNul ∉ chSlash :: a := by
        intro hmem
        rcases List.mem_cons.mp hmem with he | hmem
        · exact absurd he (by decide)
        · exact h hmem
      exact nul_not_mem_components h' c hc

section

variable {T : Tunables} {R cwd : Dir}

/-- A user's root directory is not the top of the file system. -/
theorem root_names_ne_nil (hR : getUserRootDir T = R.path) : R.names ≠ [] := by
  intro h
  have hlen : (getUserRootDir T).length = 1 := by rw [hR, Dir.path, if_pos h]; rfl
  have hdir : ∀ d : Bytes, 1 ≤ (if d.getLast? = some chSlash then d else d ++ [chSlash]).length := by
    intro d
    split
    · rename_i hd
      cases d with
      | nil => simp at hd
      | cons => simp
    · simp
  have := hdir (if T.userHomeDir = [] then text "./" else T.userHomeDir)
  simp only [getUserRootDir, List.length_append, List.length_singleton] at hlen
  omega

theorem getLast?_render {cs : List Bytes} (h : ∀ c ∈ cs, IsDirName c) :
    (render cs).getLast? ≠ some chSlash := by
  intro hlast
  rcases List.eq_nil_or_concat cs with rfl | ⟨ds, d, rfl⟩
  · simp at hlast
  · rw [List.concat_eq_append] at h hlast
    have hd := h d (by simp)
    rw [getLast?_render_concat ds hd.1.1] at hlast
    exact hd.2.1 (List.mem_of_getLast? hlast)

/-- The path built from a name stands below the root, its `..` components
still in it. -/
theorem prependSessionPathToFilename_eq (hR : getUserRootDir T = R.path)
    (hcwd : R.names <+: cwd.names) (a : Bytes) :
    prependSessionPathToFilename T cwd.path a = render (R.names ++ componentsBelow R cwd a) := by
  have hroot := root_names_ne_nil hR
  unfold prependSessionPathToFilename componentsBelow
  by_cases h : a.head? = some chSlash
  · obtain ⟨s, rfl⟩ : ∃ s, a = chSlash :: s := List.head?_eq_some_iff.mp h
    rw [if_neg (by simp), if_pos h, hR, Dir.path, if_neg hroot, render_append, render_components]
  · have hne : cwd.names ≠ [] := fun he => hroot (by simpa [he] using hcwd)
    obtain ⟨ps, hps⟩ := hcwd
    have hlast := getLast?_render cwd.isDirName
    rw [if_pos (Or.inr h), if_neg h, Dir.path, if_neg hne, if_pos (Or.inr hlast), ← List.append_assoc,
      render_append, render_components, ← hps]
    simp

/-- The check on a path below the root: where the walk that reads it level by
level ends, and `deny_file`. -/
theorem vsfAccessSessionCheckFile_render (hR : getUserRootDir T = R.path) {dir p : Bytes}
    {cs : List Bytes} (hs : SlashFree cs) (h0 : ∀ c ∈ cs, chNul ∉ c) (hne : cs ≠ [])
    (hp : prependSessionPathToFilename T dir p = render (R.names ++ cs)) :
    vsfAccessSessionCheckFile T dir p = true ↔
      R.names <+: walk R.names (levelMoves pathMarks (dropHere pathMarks cs)) ∧
        vsfAccessCheckFile T p = true := by
  have hreal := sessionRealPath_render (R.slashFree.append hs) hp
  have hnames : ∀ c ∈ R.names, c ≠ pathMarks.here ∧ c ≠ pathMarks.up :=
    fun c hc => ⟨(R.isDirName c hc).1.2.1, (R.isDirName c hc).1.2.2⟩
  rw [dropHere_names _ _ (fun c hc => (hnames c hc).1) hne,
    levelMoves_names _ _ (fun c hc => (hnames c hc).2) (dropHere_ne_nil _ hne), walk_append,
    walk_downs, List.nil_append] at hreal
  have hwalk : ∀ c ∈ walk R.names (levelMoves pathMarks (dropHere pathMarks cs)),
      chSlash ∉ c ∧ chNul ∉ c := by
    intro c hc
    rcases mem_walk _ _ hc with hc | hc
    · exact (R.isDirName c hc).2
    · have := mem_of_mem_dropHere _ (mem_of_down_mem_levelMoves _ hc)
      exact ⟨hs c this, h0 c this⟩
  have hcmp := strncmpEq_render R.isDirName (fun c hc => (hwalk c hc).1) (fun c hc => (hwalk c hc).2)
  unfold vsfAccessSessionCheckFile
  simp only [hreal, hR, Dir.path, if_neg (root_names_ne_nil hR)]
  rw [← hcmp]
  split <;> simp_all

/-- **What the check compares.** The level by level reading of the path leads
back to the root, and `deny_file` lets the name through. -/
theorem vsfAccessSessionCheckFile_iff (hR : getUserRootDir T = R.path)
    (hcwd : R.names <+: cwd.names) {a : Bytes} (ha : chNul ∉ a) :
    vsfAccessSessionCheckFile T cwd.path a = true ↔
      LeadsBack R.names (levelReading R cwd a) ∧ vsfAccessCheckFile T a = true := by
  rw [levelReading, vsfAccessSessionCheckFile_render hR (slashFree_componentsBelow R cwd a)
    (nul_not_mem_componentsBelow R cwd ha) (componentsBelow_ne_nil R cwd a)
    (prependSessionPathToFilename_eq hR hcwd a), prefix_walk_iff]

/-- A path with the root in front of it already gets the root once more, so
that it is read from the root below the root. -/
theorem vsfAccessSessionCheckFile_prepended (hR : getUserRootDir T = R.path)
    (hcwd : R.names <+: cwd.names) {a dir : Bytes} (ha : chNul ∉ a) :
    vsfAccessSessionCheckFile T dir (prependSessionPathToFilename T cwd.path a) = true ↔
      LeadsBack R.names ((levelReading R cwd a).1 - R.names.length, (levelReading R cwd a).2) ∧
        vsfAccessCheckFile T (prependSessionPathToFilename T cwd.path a) = true := by
  have hne := componentsBelow_ne_nil R cwd a
  have hroot := root_names_ne_nil hR
  have hpath := prependSessionPathToFilename_eq hR hcwd a
  have hslash : SlashFree (R.names ++ componentsBelow R cwd a) :=
    R.slashFree.append (slashFree_componentsBelow R cwd a)
  have hnul : ∀ c ∈ R.names ++ componentsBelow R cwd a, chNul ∉ c := by
    intro c hc
    rcases List.mem_append.mp hc with hc | hc
    · exact (R.isDirName c hc).2.2
    · exact nul_not_mem_componentsBelow R cwd ha c hc
  -- it begins with a slash, so the root is put in front of it
  have htwice : prependSessionPathToFilename T dir (prependSessionPathToFilename T cwd.path a) =
      render (R.names ++ (R.names ++ componentsBelow R cwd a)) := by
    obtain ⟨r, rs, hrs⟩ := List.exists_cons_of_ne_nil hroot
    rw [hpath, render_append R.names (R.names ++ _), prependSessionPathToFilename, if_neg, hR, Dir.path,
      if_neg hroot]
    simp [hrs, render]
  have hnames : ∀ c ∈ R.names, c ≠ pathMarks.here ∧ c ≠ pathMarks.up :=
    fun c hc => ⟨(R.isDirName c hc).1.2.1, (R.isDirName c hc).1.2.2⟩
  rw [vsfAccessSessionCheckFile_render hR hslash hnul (by simp [hne]) htwice,
    dropHere_names _ _ (fun c hc => (hnames c hc).1) hne,
    levelMoves_names _ _ (fun c hc => (hnames c hc).2) (dropHere_ne_nil _ hne), walk_append, walk_downs,
    prefix_walk_twice_iff]
  rfl

/-- What the kernel makes of the path built from a name. -/
theorem resolve_prepend (hR : getUserRootDir T = R.path) (hcwd : R.names <+: cwd.names) {a : Bytes}
    (ha : chNul ∉ a) : (resolve (prependSessionPathToFilename T cwd.path a)).names =
      walk R.names (posixMoves pathMarks (componentsBelow R cwd a)) := by
  have h0 : chNul ∉ render (R.names ++ componentsBelow R cwd a) := by
    apply nul_not_mem_render
    intro c hc
    rcases List.mem_append.mp hc with hc | hc
    · exact (R.isDirName c hc).2.2
    · exact nul_not_mem_componentsBelow R cwd ha c hc
  rw [prependSessionPathToFilename_eq hR hcwd]
  show walk [] (posixMoves pathMarks (components (cstr (render _)))) = _
  rw [cstr_eq_self h0, components_render (R.slashFree.append (slashFree_componentsBelow R cwd a)),
    posixMoves_names _ (fun c hc => (R.isDirName c hc).1), walk_append, walk_downs]
  rfl

/-- The kernel finds the path at or below the root exactly if its POSIX
reading leads back to it. -/
theorem prefix_resolve_iff (hR : getUserRootDir T = R.path) (hcwd : R.names <+: cwd.names) {a : Bytes}
    (ha : chNul ∉ a) : R.names <+: (resolve (prependSessionPathToFilename T cwd.path a)).names ↔
      LeadsBack R.names (posixReading R cwd a) := by
  rw [posixReading, resolve_prepend hR hcwd ha, prefix_walk_iff]

end

/-- A server with the user's root /h/a/b. -/
def habServer : Tunables :=
  { userHomeDir := text "/h", cosAppid := text "a", cosBucket := text "b", writeEnable := true }

def habRoot : Dir := ⟨[text "h", text "a", text "b"], by decide⟩

end CosFtp
