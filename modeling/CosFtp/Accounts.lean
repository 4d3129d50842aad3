/-
# The configured accounts

`cos_handle_login` looks a user up in `login_users`, a list of records
`user:password:rights` with semicolons between them. It cuts the list with
`strtok_r`, once for the records and once for the fields of each; such a scan
goes over separators side by side, so it gives the fields that are not empty
(`strtokR_eq_tokens`). A record that does not have three of them is passed
over, and the first that names the user and the password decides
(`login_exact`).

Key definitions: `strtokR`, `cosHandleLogin`, `handleLocalLogin`, `Grants`.
Key theorems: `strtokR_eq_tokens`, `cosHandleLogin_eq`, `login_exact`.
-/
import Mathlib.Data.List.Induction
import Mathlib.Tactic.Tauto
import CosFtp.Lib.Fields
import CosFtp.Str

namespace CosFtp

open Fields

abbrev chSemicolon : UInt8 := 59

/-- `strtok_r` on what its save pointer leaves: the next token, and what is
left behind it. -/
def strtokR (s : Bytes) (delim : UInt8) : Option (Bytes × Bytes) :=
  match s.dropWhile (· = delim) with
  | [] => none
  | b :: t => some ((b :: t).takeWhile (· ≠ delim), ((b :: t).dropWhile (· ≠ delim)).tail)

def globalRead : ℕ := 1 <<< 0
def globalWrite : ℕ := 1 <<< 1

/-- The bit a letter of the rights sets. -/
def permissionBit (b : UInt8) : ℕ :=
  if b = 82 ∨ b = 114 then globalRead else if b = 87 ∨ b = 119 then globalWrite else 0

/-- The loop over the letters of the rights. -/
def permissionsOf (mypermission : Bytes) : ℕ :=
  mypermission.foldl (fun permission b => permission ||| permissionBit b) 0

/-- One record: the rights if it names the user and the password. -/
def checkRecord (user passwd tp : Bytes) : Option ℕ := do
  let (myuser, rest) ← strtokR tp chColon
  let (mypasswd, rest) ← strtokR rest chColon
  let (mypermission, _) ← strtokR rest chColon
  if myuser = cstr user ∧ mypasswd = cstr passwd then some (permissionsOf mypermission) else none

/-- The loop of `cos_handle_login` over the records. -/
def cosHandleLoginLoop (user passwd : Bytes) : ℕ → Bytes → Option ℕ
  | 0, _ => none
  | n + 1, s =>
    match strtokR s chSemicolon with
    | none => none
    | some (tp, rest) =>
      match checkRecord user passwd tp with
      | some permission => some permission
      | none => cosHandleLoginLoop user passwd n rest

/-- `cos_handle_login`: its result, and what `permission` holds afterwards. -/
def cosHandleLogin (tunableLoginUsers : Option Bytes) (user passwd : Bytes) (permission : ℕ) : ℤ × ℕ :=
  match tunableLoginUsers with
  | none => (-1, permission)
  | some users =>
    let loginUsers := cstr users
    match cosHandleLoginLoop user passwd (loginUsers.length + 1) loginUsers with
    | some permission' => (0, permission')
    | none => (-1, permission)

inductive LoginResult where
  | fail
  | anon
  | real
  deriving DecidableEq

/-- What `handle_local_login` changes of the session. -/
structure LocalSession where
  permissions : ℕ := 0
  userStr : Bytes := []

def handleLocalLogin (tunableLoginUsers : Option Bytes) (user pass : Bytes) (s : LocalSession) :
    LoginResult × LocalSession :=
  let login := cosHandleLogin tunableLoginUsers user pass s.permissions
  if login.1 ≠ 0 then (.fail, { s with permissions := login.2 })
  else (.real, { permissions := login.2, userStr := user })

/-! ### The scans -/

section

variable {delim : UInt8}

theorem strtokR_cons {b : UInt8} (t : Bytes) (hb : b ≠ delim) :
    strtokR (b :: t) delim =
      some ((b :: t).takeWhile (· ≠ delim), ((b :: t).dropWhile (· ≠ delim)).tail) := by
  have hdrop : (b :: t).dropWhile (· = delim) = b :: t :=
    List.dropWhile_cons_of_neg (by simpa using hb)
  rw [strtokR, hdrop]

/-- A token that the list ends with. -/
theorem strtokR_last {u : Bytes} (hu : delim ∉ u) (hne : u ≠ []) : strtokR u delim = some (u, []) := by
  have hall : ∀ x ∈ u, decide (x ≠ delim) = true := fun x hx =>
    decide_eq_true fun he => hu (he ▸ hx)
  obtain ⟨b, t, rfl⟩ := List.exists_cons_of_ne_nil hne
  have hb : b ≠ delim := of_decide_eq_true (hall b List.mem_cons_self)
  rw [strtokR_cons t hb, List.takeWhile_eq_self_iff.2 hall, List.dropWhile_eq_nil_iff.2 hall]
  rfl

/-- A token with a separator behind it. -/
theorem strtokR_more {u : Bytes} (hu : delim ∉ u) (hne : u ≠ []) (v : Bytes) :
    strtokR (u ++ delim :: v) delim = some (u, v) := by
  have hall : ∀ x ∈ u, decide (x ≠ delim) = true := fun x hx =>
    decide_eq_true fun he => hu (he ▸ hx)
  obtain ⟨b, t, rfl⟩ := List.exists_cons_of_ne_nil hne
  have hb : b ≠ delim := of_decide_eq_true (hall b List.mem_cons_self)
  rw [List.cons_append, strtokR_cons _ hb, ← List.cons_append, List.takeWhile_append_of_pos hall,
    List.dropWhile_append_of_pos hall]
  simp

/-- A separator in front is passed over. -/
theorem strtokR_skip (v : Bytes) : strtokR (delim :: v) delim = strtokR v delim := by
  simp [strtokR]

/-- **A scan gives the fields that are not empty**, one by one. -/
theorem strtokR_eq_tokens (delim : UInt8) (s : Bytes) :
    (strtokR s delim = none ∧ tokens delim s = []) ∨
    ∃ t rest, strtokR s delim = some (t, rest) ∧ tokens delim s = t :: tokens delim rest ∧
      rest.length < s.length := by
  induction s using fields_induction delim with
  | last u hu =>
    rw [tokens_of_not_mem hu]
    by_cases hne : u = []
    · exact .inl ⟨by rw [hne]; rfl, if_pos hne⟩
    · have hlen : 0 < u.length := List.length_pos_iff.2 hne
      refine .inr ⟨u, [], strtokR_last hu hne, ?_, hlen⟩
      rw [if_neg hne]
      rfl
  | more u v hu ih =>
    rw [tokens_append_cons hu]
    by_cases hne : u = []
    · subst hne
      rw [if_pos rfl, List.nil_append, strtokR_skip]
      rcases ih with hnone | ⟨t, rest, ht, htok, hlen⟩
      · exact .inl hnone
      · exact .inr ⟨t, rest, ht, htok, by rw [List.length_cons]; omega⟩
    · refine .inr ⟨u, v, strtokR_more hu hne v, if_neg hne, ?_⟩
      simp
      omega

end

/-! ### Records -/

/-- What a record needs to let a user in, with the rights it names. -/
def Grants (record user passwd rights : Bytes) : Prop :=
  ∃ rest, tokens chColon record = user :: passwd :: rights :: rest

variable {user passwd : Bytes}

theorem checkRecord_eq (tp : Bytes) :
    checkRecord user passwd tp =
      match tokens chColon tp with
      | myuser :: mypasswd :: mypermission :: _ =>
        if myuser = cstr user ∧ mypasswd = cstr passwd then some (permissionsOf mypermission) else none
      | _ => none := by
  rw [checkRecord]
  rcases strtokR_eq_tokens chColon tp with ⟨h1, e1⟩ | ⟨t1, r1, h1, e1, -⟩
  · simp [h1, e1]
  rcases strtokR_eq_tokens chColon r1 with ⟨h2, e2⟩ | ⟨t2, r2, h2, e2, -⟩
  · simp [h1, e1, h2, e2]
  rcases strtokR_eq_tokens chColon r2 with ⟨h3, e3⟩ | ⟨t3, r3, h3, e3, -⟩
  · simp [h1, e1, h2, e2, h3, e3]
  · simp [h1, e1, h2, e2, h3, e3]

/-- A record decides for a user exactly where it grants. -/
theorem checkRecord_eq_some_iff (hu : chNul ∉ user) (hp : chNul ∉ passwd) (tp : Bytes) (n : ℕ) :
    checkRecord user passwd tp = some n ↔
      ∃ rights, Grants tp user passwd rights ∧ n = permissionsOf rights := by
  rw [checkRecord_eq, cstr_eq_self hu, cstr_eq_self hp]
  constructor
  · intro h
    split at h
    next myuser mypasswd mypermission rest htok =>
      by_cases hm : myuser = user ∧ mypasswd = passwd
      · rw [if_pos hm, Option.some.injEq] at h
        rw [hm.1, hm.2] at htok
        exact ⟨mypermission, ⟨rest, htok⟩, h.symm⟩
      · rw [if_neg hm] at h
        cases h
    next => cases h
  · intro ⟨rights, ⟨rest, htok⟩, hn⟩
    simp [htok, hn]

theorem checkRecord_eq_none_iff (hu : chNul ∉ user) (hp : chNul ∉ passwd) (tp : Bytes) :
    checkRecord user passwd tp = none ↔ ∀ rights, ¬ Grants tp user passwd rights := by
  have hsome := checkRecord_eq_some_iff hu hp tp
  constructor
  · intro hnone rights hg
    have h := (hsome _).2 ⟨rights, hg, rfl⟩
    rw [hnone] at h
    cases h
  · intro hno
    cases hc : checkRecord user passwd tp with
    | none => rfl
    | some n =>
      obtain ⟨rights, hg, -⟩ := (hsome n).1 hc
      exact absurd hg (hno rights)

/-- The fields of a record have no separators. -/
theorem Grants.subset {record rights : Bytes} (h : Grants record user passwd rights) :
    (user ⊆ record ∧ chColon ∉ user) ∧ passwd ⊆ record ∧ chColon ∉ passwd := by
  obtain ⟨rest, htok⟩ := h
  have hfield : ∀ t ∈ tokens chColon record, t ⊆ record ∧ chColon ∉ t := fun t ht =>
    field_subset (List.mem_of_mem_filter ht)
  rw [htok] at hfield
  exact ⟨hfield user (by simp), hfield passwd (by simp)⟩

/-! ### The list -/

/-- The records are tried in their order. -/
theorem cosHandleLoginLoop_eq (n : ℕ) (s : Bytes) (hn : s.length < n) :
    cosHandleLoginLoop user passwd n s = (tokens chSemicolon s).findSome? (checkRecord user passwd) := by
  induction n generalizing s with
  | zero => omega
  | succ n ih =>
    rw [cosHandleLoginLoop]
    rcases strtokR_eq_tokens chSemicolon s with ⟨h, htok⟩ | ⟨tp, rest, h, htok, hlen⟩
    · rw [h, htok, List.findSome?_nil]
    · have hrest := ih rest (by omega)
      rw [h, htok, List.findSome?_cons]
      cases hc : checkRecord user passwd tp with
      | none => simpa only [hc] using hrest
      | some permission => simp only [hc]

theorem checkRecord_nil : checkRecord user passwd [] = none := rfl

/-- Empty records decide nothing. -/
theorem findSome?_tokens (s : Bytes) :
    (tokens chSemicolon s).findSome? (checkRecord user passwd) =
      (s.splitOn chSemicolon).findSome? (checkRecord user passwd) := by
  rw [tokens]
  induction s.splitOn chSemicolon with
  | nil => rfl
  | cons record records ih =>
    by_cases he : record = []
    · rw [List.filter_cons_of_neg (by simpa using he), ih, he, List.findSome?_cons]
      simp only [checkRecord_nil]
    · rw [List.filter_cons_of_pos (by simpa using he), List.findSome?_cons, List.findSome?_cons, ih]

theorem cosHandleLogin_eq (users : Bytes) (permission : ℕ) :
    cosHandleLogin (some users) user passwd permission =
      match ((cstr users).splitOn chSemicolon).findSome? (checkRecord user passwd) with
      | some permission' => (0, permission')
      | none => (-1, permission) := by
  rw [cosHandleLogin, cosHandleLoginLoop_eq _ _ (Nat.lt_succ_self _), findSome?_tokens]

/-! ### Rights -/

theorem testBit_permissionBit (b : UInt8) :
    ((permissionBit b).testBit 0 = true ↔ b = 82 ∨ b = 114) ∧
    ((permissionBit b).testBit 1 = true ↔ b = 87 ∨ b = 119) ∧ permissionBit b < 4 := by
  rw [permissionBit]
  by_cases hr : b = 82 ∨ b = 114
  · rw [if_pos hr]
    have hw : ¬ (b = 87 ∨ b = 119) := by
      rcases hr with rfl | rfl <;> decide
    simp [globalRead, hr, hw, Nat.testBit]
  · rw [if_neg hr]
    by_cases hw : b = 87 ∨ b = 119
    · simp [globalWrite, hr, hw, Nat.testBit]
    · simp [hr, hw]

theorem testBit_permissionsOf (rights : Bytes) :
    ((permissionsOf rights).testBit 0 = true ↔ 82 ∈ rights ∨ 114 ∈ rights) ∧
    ((permissionsOf rights).testBit 1 = true ↔ 87 ∈ rights ∨ 119 ∈ rights) ∧
    permissionsOf rights < 4 := by
  induction rights using List.reverseRecOn with
  | nil => simp [permissionsOf]
  | append_singleton bs b ih =>
    obtain ⟨hr, hw, hlt⟩ := ih
    obtain ⟨hbr, hbw, hblt⟩ := testBit_permissionBit b
    have happ : permissionsOf (bs ++ [b]) = permissionsOf bs ||| permissionBit b := by
      simp [permissionsOf]
    have hmem : ∀ x, x ∈ bs ++ [b] ↔ x ∈ bs ∨ b = x := fun x => by
      rw [List.mem_append, List.mem_singleton, eq_comm]
    have hor : permissionsOf bs ||| permissionBit b < 2 ^ 2 := Nat.or_lt_two_pow hlt hblt
    rw [happ, Nat.testBit_or, Nat.testBit_or, Bool.or_eq_true, Bool.or_eq_true, hr, hw, hbr, hbw]
    simp only [hmem]
    exact ⟨or_or_or_comm, or_or_or_comm, hor⟩

/-- The permission is the set of rights that the letters name. -/
structure NamesRights (rights : Bytes) (permission : ℕ) : Prop where
  read : permission.testBit 0 = true ↔ 82 ∈ rights ∨ 114 ∈ rights
  write : permission.testBit 1 = true ↔ 87 ∈ rights ∨ 119 ∈ rights
  only : permission < 4

theorem namesRights_permissionsOf (rights : Bytes) : NamesRights rights (permissionsOf rights) := by
  obtain ⟨hread, hwrite, honly⟩ := testBit_permissionsOf rights
  exact ⟨hread, hwrite, honly⟩

/-! ### Logins -/

/-- The records of the setting, empty ones included. -/
def recordsOf : Option Bytes → List Bytes
  | none => []
  | some users => (cstr users).splitOn chSemicolon

variable (user passwd) in
theorem cosHandleLogin_eq_findSome? (users : Option Bytes) (permission : ℕ) :
    cosHandleLogin users user passwd permission =
      match (recordsOf users).findSome? (checkRecord user passwd) with
      | some permission' => (0, permission')
      | none => (-1, permission) := by
  cases users with
  | none => rfl
  | some users => exact cosHandleLogin_eq users permission

/-- A record that grants is cut out of the list without a separator. -/
theorem Grants.not_mem {users : Option Bytes} {record rights : Bytes} (hrec : record ∈ recordsOf users)
    (h : Grants record user passwd rights) :
    chColon ∉ user ∧ chSemicolon ∉ user ∧ chColon ∉ passwd ∧ chSemicolon ∉ passwd := by
  obtain ⟨⟨husub, hucolon⟩, hpsub, hpcolon⟩ := h.subset
  cases users with
  | none => exact absurd hrec List.not_mem_nil
  | some users =>
    have hsep : chSemicolon ∉ record := (field_subset hrec).2
    exact ⟨hucolon, fun hm => hsep (husub hm), hpcolon, fun hm => hsep (hpsub hm)⟩

/-- **Only the configured accounts log in.** A login is granted exactly where
a record names the user and the password in front of some rights. The first
such record gives the permission; a login that is refused leaves it as it
was, and one with a separator in it is refused. A local login takes over the
answer and the permission. -/
theorem login_exact (users : Option Bytes) (user passwd : Bytes) (permission : ℕ)
    (hu : chNul ∉ user) (hp : chNul ∉ passwd) :
    let r := cosHandleLogin users user passwd permission
    (r.1 = 0 ↔ ∃ record ∈ recordsOf users, ∃ rights, Grants record user passwd rights) ∧
    (∀ before record after rights, recordsOf users = before ++ record :: after →
      (∀ earlier ∈ before, ∀ rights', ¬ Grants earlier user passwd rights') →
      Grants record user passwd rights → r.1 = 0 ∧ NamesRights rights r.2) ∧
    (r.1 ≠ 0 → r = (-1, permission)) ∧
    (chColon ∈ user ∨ chSemicolon ∈ user ∨ chColon ∈ passwd ∨ chSemicolon ∈ passwd → r.1 ≠ 0) ∧
    ∀ userStr, handleLocalLogin users user passwd ⟨permission, userStr⟩ =
      if r.1 = 0 then (.real, ⟨r.2, user⟩) else (.fail, ⟨permission, userStr⟩) := by
  have hnone := checkRecord_eq_none_iff hu hp
  have hsome := checkRecord_eq_some_iff hu hp
  have hr := cosHandleLogin_eq_findSome? user passwd users permission
  have hiff : (cosHandleLogin users user passwd permission).1 = 0 ↔
      ∃ record ∈ recordsOf users, ∃ rights, Grants record user passwd rights := by
    rw [hr]
    cases hf : (recordsOf users).findSome? (checkRecord user passwd) with
    | none =>
      have hno := List.findSome?_eq_none_iff.1 hf
      refine ⟨fun h => by simp at h, fun ⟨record, hrec, rights, hg⟩ => ?_⟩
      exact absurd hg ((hnone record).1 (hno record hrec) rights)
    | some n =>
      obtain ⟨record, hrec, hn⟩ := List.exists_of_findSome?_eq_some hf
      obtain ⟨rights, hg, -⟩ := (hsome record n).1 hn
      exact ⟨fun _ => ⟨record, hrec, rights, hg⟩, fun _ => rfl⟩
  have hrefused : (cosHandleLogin users user passwd permission).1 ≠ 0 →
      cosHandleLogin users user passwd permission = (-1, permission) := by
    rw [hr]
    intro h
    split at h
    · exact absurd rfl h
    next => rfl
  refine ⟨hiff, ?_, hrefused, ?_, ?_⟩
  · intro before record after rights hrecs hbefore hg
    have hskip : before.findSome? (checkRecord user passwd) = none :=
      List.findSome?_eq_none_iff.2 fun earlier he => (hnone earlier).2 (hbefore earlier he)
    have hrec : checkRecord user passwd record = some (permissionsOf rights) :=
      (hsome record _).2 ⟨rights, hg, rfl⟩
    rw [hr, hrecs, List.findSome?_append, hskip, Option.none_or, List.findSome?_cons, hrec]
    exact ⟨rfl, namesRights_permissionsOf rights⟩
  · intro hsep h0
    obtain ⟨record, hrec, rights, hg⟩ := hiff.1 h0
    have hno := hg.not_mem hrec
    tauto
  · intro userStr
    rw [handleLocalLogin]
    by_cases h0 : (cosHandleLogin users user passwd permission).1 = 0
    · simp [h0]
    · simp [hrefused h0]

/-- Two records for one name: the first with the right password decides. -/
theorem login_exact_second :
    let users := some [59, 97, 58, 120, 58, 82, 59, 97, 58, 58, 121, 58, 87, 58, 122]
    let r := cosHandleLogin users [97] [121] 7
    r.1 = 0 ∧ NamesRights [87] r.2 := by
  have h := login_exact (some [59, 97, 58, 120, 58, 82, 59, 97, 58, 58, 121, 58, 87, 58, 122])
    [97] [121] 7 (by decide) (by decide)
  refine h.2.1 [[], [97, 58, 120, 58, 82]] [97, 58, 58, 121, 58, 87, 58, 122] [] [87] (by decide) ?_
    ⟨[[122]], by decide⟩
  intro earlier he rights' ⟨rest, htok⟩
  have hcases : earlier = [] ∨ earlier = [97, 58, 120, 58, 82] := by simpa using he
  rcases hcases with h1 | h1
  · have htok' : tokens chColon [] = [97] :: [121] :: rights' :: rest := h1 ▸ htok
    cases htok'
  · have hleft : tokens chColon [97, 58, 120, 58, 82] = [[97], [120], [82]] := by decide
    rw [h1, hleft] at htok
    simp at htok

end CosFtp
