/-
# The last line that names a setting

`vsf_parseconf_load_setting` tries the name of a line in three tables, one
after the other, and each has its own rule for the value. No name stands in
two of them and no variable in one of them twice, so a line is at most one
assignment (`assignmentOf`), to the variable its name says (`assignmentOf_str`);
in tolerant mode the file is these assignments in order, and what is passed
over is none.

* `config_last_writer`: each variable has what the last line that names it and
  is well formed gives it, or what it had; lines that name different settings
  may change places and idle lines may go; and fatal mode does the same if it
  does not die.

Key definitions: `assignmentOf`, `Conf.load`, `lastWell`, `IdleLine`, `Rearranged`.
Key theorems: `loadSetting_tolerant_eq`, `assignmentOf_str`, `load_last`, `config_last_writer`.
-/
import Mathlib.Data.List.Nodup
import CosFtp.ParseConf

namespace CosFtp

/-! ### What a line assigns -/

inductive Assignment where
  | str (v : StrVar) (s : Option Bytes)
  | bool (v : BoolVar) (b : Bool)
  | uint (v : UintVar) (n : ℕ)
  deriving DecidableEq

def Assignment.apply (c : Conf) : Assignment → Conf
  | .str v s => c.setStr v s
  | .bool v b => c.setBool v b
  | .uint v n => c.setUint v n

/-- The assignment of a line, if it is well formed. -/
def assignmentOf (line : Bytes) : Option Assignment :=
  let (name, value) := splitSetting line
  match findSetting parseconfStrArray name with
  | some v => some (.str v (strValue value))
  | none =>
    if value = [] then none
    else match findSetting parseconfBoolArray name with
    | some v => (boolValue value).map (.bool v)
    | none => (findSetting parseconfUintArray name).map fun v => .uint v (uintValue value)

/-- The three ways a line can assign: each table is asked if the ones before it do not know the name. -/
theorem assignmentOf_eq_some_iff (line : Bytes) (a : Assignment) :
    assignmentOf line = some a ↔
      (∃ v, findSetting parseconfStrArray (splitSetting line).1 = some v ∧
        a = .str v (strValue (splitSetting line).2)) ∨
      (findSetting parseconfStrArray (splitSetting line).1 = none ∧ (splitSetting line).2 ≠ [] ∧
        ∃ v b, findSetting parseconfBoolArray (splitSetting line).1 = some v ∧
          boolValue (splitSetting line).2 = some b ∧ a = .bool v b) ∨
      (findSetting parseconfStrArray (splitSetting line).1 = none ∧ (splitSetting line).2 ≠ [] ∧
        findSetting parseconfBoolArray (splitSetting line).1 = none ∧
        ∃ v, findSetting parseconfUintArray (splitSetting line).1 = some v ∧
          a = .uint v (uintValue (splitSetting line).2)) := by
  simp only [assignmentOf]
  cases findSetting parseconfStrArray (splitSetting line).1 with
  | some v => simp [eq_comm]
  | none =>
    by_cases hvalue : (splitSetting line).2 = []
    · simp [hvalue]
    · simp only [hvalue, if_false]
      cases findSetting parseconfBoolArray (splitSetting line).1 with
      | some v =>
        cases boolValue (splitSetting line).2 with
        | none => simp
        | some b => cases b <;> simp [hvalue, eq_comm]
      | none => cases findSetting parseconfUintArray (splitSetting line).1 <;> simp [hvalue, eq_comm]

def Conf.load (c : Conf) (line : Bytes) : Conf := (assignmentOf line).elim c fun a => a.apply c

/-- In tolerant mode a line is its assignment. -/
theorem loadSetting_tolerant_eq (c : Conf) (line : Bytes) :
    vsfParseconfLoadSetting false c line = .ok (c.load line) := by
  simp only [vsfParseconfLoadSetting, Conf.load, assignmentOf, orPass, Bool.false_eq_true, if_false]
  cases findSetting parseconfStrArray (splitSetting line).1 with
  | some v => rfl
  | none =>
    by_cases hvalue : (splitSetting line).2 = []
    · simp [hvalue]
    · simp only [hvalue, if_false]
      cases findSetting parseconfBoolArray (splitSetting line).1 with
      | some v => cases boolValue (splitSetting line).2 <;> rfl
      | none => cases findSetting parseconfUintArray (splitSetting line).1 <;> rfl

theorem loadLines_tolerant_eq : ∀ (lines : List Bytes) (c : Conf),
    lines.foldlM (vsfParseconfLoadSetting false) c = .ok (lines.foldl Conf.load c)
  | [], _ => rfl
  | line :: lines, c => by
    rw [List.foldlM_cons, loadSetting_tolerant_eq, List.foldl_cons]
    exact loadLines_tolerant_eq lines (c.load line)

/-! ### The tables -/

/-- A name and a variable of a table belong to each other. -/
theorem findSetting_iff {V : Type} {table : List (String × V)} (hnames : (table.map fun e => text e.1).Nodup)
    (hvars : (table.map Prod.snd).Nodup) {name : String} {v : V} (h : (name, v) ∈ table) (x : Bytes) :
    findSetting table x = some v ↔ x = text name := by
  constructor
  · intro hfind
    obtain ⟨s, hs, rfl⟩ := findSetting_mem hfind
    have hsame : (s, v) = (name, v) := List.inj_on_of_nodup_map hvars hs h rfl
    rw [(Prod.mk.inj hsame).1]
  · rintro rfl
    cases hfind : table.find? (fun e => strEqualText (text name) e.1) with
    | none =>
      have hno := List.find?_eq_none.mp hfind (name, v) h
      simp [strEqualText] at hno
    | some e =>
      have hmem := List.mem_of_find?_eq_some hfind
      have htext : text name = text e.1 := by simpa [strEqualText] using List.find?_some hfind
      have hsame : e = (name, v) := List.inj_on_of_nodup_map hnames hmem h htext.symm
      rw [findSetting, hfind, hsame]
      rfl

/-- A number for a text; texts with different numbers are different. -/
def textCode (s : Bytes) : ℕ := s.foldl (fun n b => n * 256 + b.toNat) 0

/-- The names of the three tables. -/
def settingNames : List Bytes :=
  parseconfStrArray.map (fun e => text e.1) ++ parseconfBoolArray.map (fun e => text e.1) ++
    parseconfUintArray.map fun e => text e.1

/-- The encodings of the names are different, and begin with letters. -/
theorem settingCodes : ((parseconfStrArray.map Prod.fst ++ parseconfBoolArray.map Prod.fst ++
      parseconfUintArray.map Prod.fst).map fun name => textCode (utf8Bytes name)).Pairwise
        (fun m n => Nat.beq m n = false) ∧
    ∀ name ∈ parseconfStrArray.map Prod.fst ++ parseconfBoolArray.map Prod.fst ++ parseconfUintArray.map Prod.fst,
      (utf8Bytes name).head?.any (fun b => 97 ≤ b) = true := by
  decide +kernel

theorem settingNames_eq : settingNames = (parseconfStrArray.map Prod.fst ++ parseconfBoolArray.map Prod.fst ++
    parseconfUintArray.map Prod.fst).map utf8Bytes := by
  have htable : ∀ {V : Type} {table : List (String × V)}, (∀ e ∈ table, plainText e.1 = true) →
      (table.map fun e => text e.1) = (table.map Prod.fst).map utf8Bytes := by
    intro V table h
    rw [List.map_map]
    exact List.map_congr_left fun e he => text_eq_bytes (h e he)
  rw [settingNames, htable strArray_plain, htable boolArray_plain, htable uintArray_plain, List.map_append,
    List.map_append]

/-- The names are different, and begin with letters. -/
theorem settingNames_codes : (settingNames.map textCode).Nodup ∧
    ∀ x ∈ settingNames, x.head?.any (fun b => 97 ≤ b) = true := by
  obtain ⟨hcodes, hheads⟩ := settingCodes
  rw [settingNames_eq]
  constructor
  · rw [List.map_map]
    exact hcodes.imp fun hbeq => Nat.ne_of_beq_eq_false hbeq
  · exact List.forall_mem_map.mpr hheads

theorem settingNames_nodup : settingNames.Nodup := settingNames_codes.1.of_map _

theorem strNames_nodup : (parseconfStrArray.map fun e => text e.1).Nodup :=
  settingNames_nodup.of_append_left.of_append_left

theorem boolNames_nodup : (parseconfBoolArray.map fun e => text e.1).Nodup :=
  settingNames_nodup.of_append_left.of_append_right

theorem uintNames_nodup : (parseconfUintArray.map fun e => text e.1).Nodup :=
  settingNames_nodup.of_append_right

theorem strVars_nodup : (parseconfStrArray.map Prod.snd).Nodup := by decide +kernel
theorem boolVars_nodup : (parseconfBoolArray.map Prod.snd).Nodup := by decide +kernel
theorem uintVars_nodup : (parseconfUintArray.map Prod.snd).Nodup := by decide +kernel

/-- A name that stands in no entry of a table. -/
theorem findSetting_eq_none {V : Type} {table : List (String × V)} {x : Bytes}
    (h : x ∉ table.map fun e => text e.1) : findSetting table x = none := by
  cases hfind : findSetting table x with
  | none => rfl
  | some v =>
    obtain ⟨s, hs, hx⟩ := findSetting_mem hfind
    exact absurd (List.mem_map.mpr ⟨(s, v), hs, hx.symm⟩) h

/-- No name of a table stands in one that is tried before it. -/
theorem names_apart : (∀ e ∈ parseconfBoolArray, findSetting parseconfStrArray (text e.1) = none) ∧
    ∀ e ∈ parseconfUintArray, findSetting parseconfStrArray (text e.1) = none ∧
      findSetting parseconfBoolArray (text e.1) = none := by
  have hstr := List.disjoint_of_nodup_append settingNames_nodup.of_append_left
  have huint := List.disjoint_of_nodup_append settingNames_nodup
  constructor
  · intro e he
    exact findSetting_eq_none fun h => hstr h (List.mem_map_of_mem he)
  · intro e he
    have he' := List.mem_map_of_mem (f := fun e => text e.1) he
    exact ⟨findSetting_eq_none fun h => huint (List.mem_append_left _ h) he',
      findSetting_eq_none fun h => huint (List.mem_append_right _ h) he'⟩

/-- What a setting of each kind makes of a value. -/
def boolWell (value : Bytes) : Option Bool := if value = [] then none else boolValue value

def uintWell (value : Bytes) : Option ℕ := if value = [] then none else some (uintValue value)

/-- The line names the setting and is well formed for it. -/
def wellNamed {X : Type} (read : Bytes → Option X) (name : String) (line : Bytes) : Option X :=
  if (splitSetting line).1 = text name then read (splitSetting line).2 else none

theorem wellNamed_eq_some_iff {X : Type} (read : Bytes → Option X) (name : String) (line : Bytes) (x : X) :
    wellNamed read name line = some x ↔
      (splitSetting line).1 = text name ∧ read (splitSetting line).2 = some x := by
  unfold wellNamed
  split
  · simp [*]
  · simp [*]

/-- A line is an assignment to a string exactly if it names it. -/
theorem assignmentOf_str {name : String} {v : StrVar} (h : (name, v) ∈ parseconfStrArray) (line : Bytes)
    (s : Option Bytes) : assignmentOf line = some (.str v s) ↔
      wellNamed (fun value => some (strValue value)) name line = some s := by
  rw [assignmentOf_eq_some_iff, wellNamed_eq_some_iff, ← findSetting_iff strNames_nodup strVars_nodup h]
  constructor
  · rintro (⟨w, hw, he⟩ | ⟨-, -, w, b, -, -, he⟩ | ⟨-, -, -, w, -, he⟩)
    · obtain ⟨rfl, rfl⟩ := Assignment.str.inj he
      exact ⟨hw, rfl⟩
    · cases he
    · cases he
  · rintro ⟨hv, hs⟩
    exact .inl ⟨v, hv, by rw [Option.some.inj hs]⟩

theorem assignmentOf_bool {name : String} {v : BoolVar} (h : (name, v) ∈ parseconfBoolArray) (line : Bytes)
    (b : Bool) : assignmentOf line = some (.bool v b) ↔ wellNamed boolWell name line = some b := by
  rw [assignmentOf_eq_some_iff, wellNamed_eq_some_iff, ← findSetting_iff boolNames_nodup boolVars_nodup h]
  constructor
  · rintro (⟨w, -, he⟩ | ⟨-, hvalue, w, b', hw, hb, he⟩ | ⟨-, -, -, w, -, he⟩)
    · cases he
    · obtain ⟨rfl, rfl⟩ := Assignment.bool.inj he
      exact ⟨hw, (if_neg hvalue).trans hb⟩
    · cases he
  · rintro ⟨hv, hb⟩
    have hname := (findSetting_iff boolNames_nodup boolVars_nodup h _).mp hv
    have hstr : findSetting parseconfStrArray (splitSetting line).1 = none := by rw [hname, names_apart.1 _ h]
    have hvalue : (splitSetting line).2 ≠ [] := by
      intro hnil
      simp [boolWell, hnil] at hb
    exact .inr (.inl ⟨hstr, hvalue, v, b, hv, (if_neg hvalue).symm.trans hb, rfl⟩)

theorem assignmentOf_uint {name : String} {v : UintVar} (h : (name, v) ∈ parseconfUintArray) (line : Bytes)
    (n : ℕ) : assignmentOf line = some (.uint v n) ↔ wellNamed uintWell name line = some n := by
  rw [assignmentOf_eq_some_iff, wellNamed_eq_some_iff, ← findSetting_iff uintNames_nodup uintVars_nodup h]
  constructor
  · rintro (⟨w, -, he⟩ | ⟨-, -, w, b, -, -, he⟩ | ⟨-, hvalue, -, w, hw, he⟩)
    · cases he
    · cases he
    · obtain ⟨rfl, rfl⟩ := Assignment.uint.inj he
      exact ⟨hw, if_neg hvalue⟩
  · rintro ⟨hv, hn⟩
    have hname := (findSetting_iff uintNames_nodup uintVars_nodup h _).mp hv
    obtain ⟨hstr, hbool⟩ := names_apart.2 _ h
    rw [← hname] at hstr hbool
    have hvalue : (splitSetting line).2 ≠ [] := by
      intro hnil
      simp [uintWell, hnil] at hn
    have hvalue' : uintValue (splitSetting line).2 = n := by simpa [uintWell, hvalue] using hn
    exact .inr (.inr ⟨hstr, hvalue, hbool, v, hv, by rw [hvalue']⟩)

/-! ### One line after the other -/

section

variable {c : Conf} {line l l' : Bytes}

theorem load_str {name : String} {v : StrVar} (h : (name, v) ∈ parseconfStrArray) (c : Conf) (line : Bytes) :
    (c.load line).str v = (wellNamed (fun value => some (strValue value)) name line).getD (c.str v) := by
  have hiff := assignmentOf_str h line
  unfold Conf.load
  cases hwell : wellNamed (fun value => some (strValue value)) name line with
  | some s =>
    rw [(hiff s).mpr hwell]
    simp [Assignment.apply, Conf.setStr]
  | none =>
    cases ha : assignmentOf line with
    | none => rfl
    | some a =>
      cases a with
      | str w s =>
        have hw : w ≠ v := by
          rintro rfl
          rw [(hiff s).mp ha] at hwell
          cases hwell
        simp [Assignment.apply, Conf.setStr, Function.update_of_ne hw.symm]
      | bool w b => rfl
      | uint w n => rfl

theorem load_bool {name : String} {v : BoolVar} (h : (name, v) ∈ parseconfBoolArray) (c : Conf) (line : Bytes) :
    (c.load line).bool v = (wellNamed boolWell name line).getD (c.bool v) := by
  have hiff := assignmentOf_bool h line
  unfold Conf.load
  cases hwell : wellNamed boolWell name line with
  | some b =>
    rw [(hiff b).mpr hwell]
    simp [Assignment.apply, Conf.setBool]
  | none =>
    cases ha : assignmentOf line with
    | none => rfl
    | some a =>
      cases a with
      | str w s => rfl
      | bool w b =>
        have hw : w ≠ v := by
          rintro rfl
          rw [(hiff b).mp ha] at hwell
          cases hwell
        simp [Assignment.apply, Conf.setBool, Function.update_of_ne hw.symm]
      | uint w n => rfl

theorem load_uint {name : String} {v : UintVar} (h : (name, v) ∈ parseconfUintArray) (c : Conf) (line : Bytes) :
    (c.load line).uint v = (wellNamed uintWell name line).getD (c.uint v) := by
  have hiff := assignmentOf_uint h line
  unfold Conf.load
  cases hwell : wellNamed uintWell name line with
  | some n =>
    rw [(hiff n).mpr hwell]
    simp [Assignment.apply, Conf.setUint]
  | none =>
    cases ha : assignmentOf line with
    | none => rfl
    | some a =>
      cases a with
      | str w s => rfl
      | bool w b => rfl
      | uint w n =>
        have hw : w ≠ v := by
          rintro rfl
          rw [(hiff n).mp ha] at hwell
          cases hwell
        simp [Assignment.apply, Conf.setUint, Function.update_of_ne hw.symm]

/-- The tables have all the variables. -/
theorem strVars_named (v : StrVar) : ∃ name, (name, v) ∈ parseconfStrArray := by
  have hall : v ∈ parseconfStrArray.map Prod.snd := by cases v <;> decide
  obtain ⟨⟨name, w⟩, hmem, rfl⟩ := List.mem_map.mp hall
  exact ⟨name, hmem⟩

theorem boolVars_named (v : BoolVar) : ∃ name, (name, v) ∈ parseconfBoolArray := by
  have hall : v ∈ parseconfBoolArray.map Prod.snd := by cases v <;> decide
  obtain ⟨⟨name, w⟩, hmem, rfl⟩ := List.mem_map.mp hall
  exact ⟨name, hmem⟩

theorem uintVars_named (v : UintVar) : ∃ name, (name, v) ∈ parseconfUintArray := by
  have hall : v ∈ parseconfUintArray.map Prod.snd := by cases v <;> decide
  obtain ⟨⟨name, w⟩, hmem, rfl⟩ := List.mem_map.mp hall
  exact ⟨name, hmem⟩

/-- Two lines that name different settings do not both name one. -/
theorem wellNamed_swap {X : Type} (read : Bytes → Option X) (name : String)
    (hne : (splitSetting l).1 ≠ (splitSetting l').1) (x : X) :
    (wellNamed read name l').getD ((wellNamed read name l).getD x) =
      (wellNamed read name l).getD ((wellNamed read name l').getD x) := by
  by_cases h : (splitSetting l).1 = text name
  · have h' : (splitSetting l').1 ≠ text name := fun he => hne (h.trans he.symm)
    simp [wellNamed, h']
  · simp [wellNamed, h]

/-- So their order does not matter. -/
theorem load_comm (hne : (splitSetting l).1 ≠ (splitSetting l').1) (c : Conf) :
    (c.load l).load l' = (c.load l').load l := by
  ext v
  · obtain ⟨name, h⟩ := boolVars_named v
    rw [load_bool h, load_bool h, load_bool h, load_bool h, wellNamed_swap boolWell name hne]
  · obtain ⟨name, h⟩ := uintVars_named v
    rw [load_uint h, load_uint h, load_uint h, load_uint h, wellNamed_swap uintWell name hne]
  · obtain ⟨name, h⟩ := strVars_named v
    rw [load_str h, load_str h, load_str h, load_str h, wellNamed_swap _ name hne]

/-! ### Lines that do nothing -/

/-- A comment, a blank line, one with an unknown name, or one with a value that
is malformed for its name. -/
def IdleLine (line : Bytes) : Prop :=
  line.head? = some 35 ∨ line.all isspace = true ∨
  (findSetting parseconfStrArray (splitSetting line).1 = none ∧
    findSetting parseconfBoolArray (splitSetting line).1 = none ∧
    findSetting parseconfUintArray (splitSetting line).1 = none) ∨
  findSetting parseconfStrArray (splitSetting line).1 = none ∧
    ((splitSetting line).2 = [] ∨
      (findSetting parseconfBoolArray (splitSetting line).1).isSome ∧ boolValue (splitSetting line).2 = none)

theorem comment_name (h : line.head? = some 35) : (splitSetting line).1.head? = some 35 := by
  obtain ⟨rest, rfl⟩ : ∃ rest, line = 35 :: rest := by
    cases line with
    | nil => cases h
    | cons b rest => exact ⟨rest, by rw [Option.some.inj h]⟩
  have hcstr : cstr (35 :: rest) = 35 :: cstr rest := List.takeWhile_cons_of_pos (by decide)
  have hdrop : (35 :: cstr rest).dropWhile isspace = 35 :: cstr rest := List.dropWhile_cons_of_neg (by decide)
  have hno : ¬ [UInt8.ofNat 61] <+: 35 :: cstr rest := by
    intro hp
    have hhead := (List.cons_prefix_cons.mp hp).1
    exact absurd hhead (by decide)
  rw [splitSetting, hcstr, hdrop, strSplitChar, strSplitText_eq (by decide) (by simp), Search.cut, if_neg hno]
  cases Search.cut [UInt8.ofNat 61] (cstr rest) with
  | none => rfl
  | some halves => rfl

theorem blank_name (h : line.all isspace = true) : (splitSetting line).1 = [] := by
  have hall : ∀ b ∈ cstr line, isspace b = true := fun b hb => List.all_eq_true.mp h b (cstr_subset line hb)
  have hnil : (cstr line).dropWhile isspace = [] := List.dropWhile_eq_nil_iff.mpr hall
  rw [splitSetting, hnil]
  decide

theorem findSetting_of_head {x : Bytes} (h : ¬ x.head?.any (fun b => 97 ≤ b) = true) :
    findSetting parseconfStrArray x = none ∧ findSetting parseconfBoolArray x = none ∧
      findSetting parseconfUintArray x = none := by
  have hno : x ∉ settingNames := fun hmem => h (settingNames_codes.2 x hmem)
  simp only [settingNames, List.mem_append, not_or] at hno
  exact ⟨findSetting_eq_none hno.1.1, findSetting_eq_none hno.1.2, findSetting_eq_none hno.2⟩

theorem assignmentOf_idle (h : IdleLine line) : assignmentOf line = none := by
  have hunknown : ∀ {x : Bytes}, (splitSetting line).1 = x →
      findSetting parseconfStrArray x = none ∧ findSetting parseconfBoolArray x = none ∧
        findSetting parseconfUintArray x = none → assignmentOf line = none := by
    rintro x rfl ⟨hstr, hbool, huint⟩
    by_cases hvalue : (splitSetting line).2 = [] <;> simp [assignmentOf, hstr, hbool, huint, hvalue]
  rcases h with hcomment | hblank | hnone | ⟨hstr, hvalue | ⟨hbool, hbad⟩⟩
  · have hhead := comment_name hcomment
    exact hunknown rfl (findSetting_of_head fun h => by rw [hhead] at h; exact absurd h (by decide))
  · exact hunknown (blank_name hblank) (findSetting_of_head (by decide))
  · exact hunknown rfl hnone
  · simp [assignmentOf, hstr, hvalue]
  · obtain ⟨v, hv⟩ := Option.isSome_iff_exists.mp hbool
    by_cases hvalue : (splitSetting line).2 = [] <;> simp [assignmentOf, hstr, hv, hbad, hvalue]

theorem load_idle (h : IdleLine line) (c : Conf) : c.load line = c := by
  rw [Conf.load, assignmentOf_idle h]
  rfl

end

/-- Lines that name different settings have changed places, and idle lines are gone. -/
inductive Rearranged : List Bytes → List Bytes → Prop where
  | same (lines : List Bytes) : Rearranged lines lines
  | swap (before behind : List Bytes) {l l' : Bytes} (h : (splitSetting l).1 ≠ (splitSetting l').1) :
      Rearranged (before ++ l :: l' :: behind) (before ++ l' :: l :: behind)
  | drop (before behind : List Bytes) {l : Bytes} (h : IdleLine l) :
      Rearranged (before ++ l :: behind) (before ++ behind)
  | trans {ls ls' ls'' : List Bytes} : Rearranged ls ls' → Rearranged ls' ls'' → Rearranged ls ls''

theorem Rearranged.load {ls ls' : List Bytes} (h : Rearranged ls ls') (c : Conf) :
    ls.foldl Conf.load c = ls'.foldl Conf.load c := by
  induction h with
  | same lines => rfl
  | swap before behind hne =>
    rw [List.foldl_append, List.foldl_append, List.foldl_cons, List.foldl_cons, List.foldl_cons,
      List.foldl_cons, load_comm hne]
  | drop before behind hidle => rw [List.foldl_append, List.foldl_append, List.foldl_cons, load_idle hidle]
  | trans _ _ ih ih' => exact ih.trans ih'

/-! ### The file -/

/-- What the last line that names the setting and is well formed gives it. -/
def lastWell {X : Type} (read : Bytes → Option X) (name : String) (lines : List Bytes) : Option X :=
  (lines.filterMap (wellNamed read name)).getLast?

/-- A variable that each line sets or leaves has what the last one set. -/
theorem load_last {X : Type} (get : Conf → X) (well : Bytes → Option X)
    (hstep : ∀ c line, get (c.load line) = (well line).getD (get c)) : ∀ (lines : List Bytes) (c : Conf),
    get (lines.foldl Conf.load c) = (lines.filterMap well).getLast?.getD (get c)
  | [], _ => rfl
  | line :: lines, c => by
    rw [List.foldl_cons, load_last get well hstep lines, hstep]
    cases hwell : well line with
    | none => rw [List.filterMap_cons_none hwell]; rfl
    | some x => rw [List.filterMap_cons_some hwell, List.getLast?_cons]; rfl

/-- The lines that are passed over are idle. -/
theorem foldl_load_filter (lines : List Bytes) (c : Conf) :
    (lines.filter fun line => !(line.isEmpty || line.head? = some 35 || line.all isspace)).foldl Conf.load c =
      lines.foldl Conf.load c := by
  induction lines generalizing c with
  | nil => rfl
  | cons line lines ih =>
    by_cases hpassed : (line.isEmpty || line.head? = some 35 || line.all isspace) = true
    · have hidle : IdleLine line := by
        simp only [Bool.or_eq_true, decide_eq_true_eq, List.isEmpty_iff] at hpassed
        rcases hpassed with (hempty | hcomment) | hblank
        · right; left
          rw [hempty]
          rfl
        · exact .inl hcomment
        · exact .inr (.inl hblank)
      rw [List.filter_cons_of_neg (by rw [hpassed]; decide), ih, List.foldl_cons, load_idle hidle]
    · rw [List.filter_cons_of_pos (by rw [Bool.eq_false_iff.mpr hpassed]; rfl), List.foldl_cons, List.foldl_cons, ih]

/-- A file that can be read is its lines, in tolerant mode. -/
theorem loadFile_lines (name : Bytes) {content : Bytes} (hlen : content.length ≤ vsftpConfFileMax) (c : Conf) :
    vsfParseconfLoadFile false { name, content } c = .ok ((strLines content).foldl Conf.load c) := by
  have hlines : ({ name, content } : ConfFile).lines.foldlM (vsfParseconfLoadSetting false) c =
      .ok ((strLines content).foldl Conf.load c) := by
    rw [loadLines_tolerant_eq, ConfFile.lines, List.take_of_length_le hlen, foldl_load_filter]
  exact hlines

/-- **The last line that names a setting** decides. -/
theorem config_last_writer (name content : Bytes) (hlen : content.length ≤ vsftpConfFileMax) (c : Conf) :
    ∃ c', vsfParseconfLoadFile false { name, content } c = .ok c' ∧
      (∀ n v, (n, v) ∈ parseconfStrArray →
        c'.str v = (lastWell (fun value => some (strValue value)) n (strLines content)).getD (c.str v)) ∧
      (∀ n v, (n, v) ∈ parseconfBoolArray →
        c'.bool v = (lastWell boolWell n (strLines content)).getD (c.bool v)) ∧
      (∀ n v, (n, v) ∈ parseconfUintArray →
        c'.uint v = (lastWell uintWell n (strLines content)).getD (c.uint v)) ∧
      ((∀ v, ∃ n, (n, v) ∈ parseconfStrArray) ∧ (∀ v, ∃ n, (n, v) ∈ parseconfBoolArray) ∧
        ∀ v, ∃ n, (n, v) ∈ parseconfUintArray) ∧
      (∀ content', content'.length ≤ vsftpConfFileMax → Rearranged (strLines content) (strLines content') →
        vsfParseconfLoadFile false { name, content := content' } c = .ok c') ∧
      ((∃ e, vsfParseconfLoadFile true { name, content } c = .error e) ∨
        vsfParseconfLoadFile true { name, content } c = .ok c') := by
  refine ⟨(strLines content).foldl Conf.load c, loadFile_lines name hlen c, ?_, ?_, ?_, ?_, ?_, ?_⟩
  · intro n v h
    exact load_last (fun c => c.str v) _ (fun c line => load_str h c line) (strLines content) c
  · intro n v h
    exact load_last (fun c => c.bool v) _ (fun c line => load_bool h c line) (strLines content) c
  · intro n v h
    exact load_last (fun c => c.uint v) _ (fun c line => load_uint h c line) (strLines content) c
  · exact ⟨strVars_named, boolVars_named, uintVars_named⟩
  · intro content' hlen' hmoved
    rw [loadFile_lines name hlen' c, hmoved.load]
  · cases hfatal : vsfParseconfLoadFile true { name, content } c with
    | error e => exact .inl ⟨e, rfl⟩
    | ok c' =>
      right
      have hsame := loadFile_tolerant hfatal
      rw [loadFile_lines name hlen c] at hsame
      rw [Except.ok.inj hsame]

/-- A port named twice. -/
theorem config_last_writer_port : ∃ c', vsfParseconfLoadFile false
    { name := [], content := text "listen_port=21\n#\nlisten_port=2121" } Conf.zero = .ok c' ∧
    c'.uint .listenPort = 2121 := by
  obtain ⟨c', hload, -, -, huint, -⟩ :=
    config_last_writer [] (text "listen_port=21\n#\nlisten_port=2121") (by decide) Conf.zero
  refine ⟨c', hload, ?_⟩
  rw [huint "listen_port" .listenPort (by decide)]
  decide +kernel

end CosFtp
