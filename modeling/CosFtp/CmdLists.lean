/-
# The command lists

`cmds_allowed` and `cmds_denied` are lists with commas. The scan that looks a
command up takes the elements one by one and ends at an empty one, which is
also what it finds at the end of the list. So it sees the elements in front
of the first empty one (`inCmdList_iff`), and a command that stands behind it,
or an empty command, is not found. Where this is nothing to the answer is
said exactly by `cmd_lists_exact`.

Key definitions: `CmdPermitted`, `Overlooked`.
Key theorems: `inCmdList_iff`, `cmdOk_iff`, `cmd_lists_exact`.
-/
import CosFtp.Scan
import CosFtp.Loop

namespace CosFtp

open Fields

/-- A scan with rounds to spare finds what stands in front of the first empty
element. -/
theorem inCmdList_iff (cmds cmd : Bytes) :
    ∀ n, cmds.length < n → (inCmdList n cmds cmd = true ↔ cmd ∈ beforeEmpty chComma cmds) := by
  induction cmds using fields_induction chComma with
  | last u hu =>
    intro n hn
    obtain ⟨n, rfl⟩ := Nat.exists_eq_succ_of_ne_zero (by omega : n ≠ 0)
    rw [inCmdList, strSplitChar_of_not_mem hu, beforeEmpty_of_not_mem hu]
    by_cases h : u = []
    · simp [h]
    · have hend : inCmdList n [] cmd = false := by
        cases n with
        | zero => rfl
        | succ n => simp [inCmdList, strSplitChar_of_not_mem]
      by_cases hcmd : u = cmd
      · simp [hcmd]
      · simp [h, hcmd, hend, Ne.symm hcmd]
  | more u v hu ih =>
    intro n hn
    obtain ⟨n, rfl⟩ := Nat.exists_eq_succ_of_ne_zero (by omega : n ≠ 0)
    simp only [List.length_append, List.length_cons] at hn
    have hrest := ih n (by omega)
    rw [inCmdList, strSplitChar_append_cons (by decide) hu, beforeEmpty_append_cons hu]
    by_cases h : u = []
    · simp [h]
    · by_cases hcmd : u = cmd
      · simp [hcmd]
      · simp [h, hcmd, hrest, Ne.symm hcmd]

/-- More rounds than the list is long change nothing. -/
theorem inCmdList_rounds (cmds cmd : Bytes) {n : ℕ} (h : cmds.length < n) :
    inCmdList n cmds cmd = inCmdList (cmds.length + 1) cmds cmd := by
  rw [Bool.eq_iff_iff, inCmdList_iff cmds cmd n h, inCmdList_iff cmds cmd _ (Nat.lt_succ_self _)]

/-! ### The two lists together -/

/-- The command is an element of what is allowed, if anything is, and none of
what is denied. -/
def CmdPermitted (T : Tunables) (cmd : Bytes) : Prop :=
  (∀ cmds ∈ T.cmdsAllowed, cmd ∈ cmds.splitOn chComma) ∧
  (∀ cmds ∈ T.cmdsDenied, cmd ∉ cmds.splitOn chComma)

/-- An element that is empty or stands behind an empty one only. -/
def Overlooked (cmds cmd : Bytes) : Prop :=
  cmd ∈ cmds.splitOn chComma ∧ cmd ∉ beforeEmpty chComma cmds

theorem cmdOk_iff (T : Tunables) (cmd : Bytes) : cmdOk T cmd = true ↔
    (∀ cmds ∈ T.cmdsAllowed, cmd ∈ beforeEmpty chComma cmds) ∧
    (∀ cmds ∈ T.cmdsDenied, cmd ∉ beforeEmpty chComma cmds) := by
  have hscan : ∀ cmds : Bytes,
      inCmdList (cmds.length + 1) cmds cmd = true ↔ cmd ∈ beforeEmpty chComma cmds :=
    fun cmds => inCmdList_iff cmds cmd _ (Nat.lt_succ_self _)
  rw [cmdOk, Bool.and_eq_true]
  refine and_congr ?_ ?_
  · cases T.cmdsAllowed with
    | none => simp
    | some cmds => simp [hscan]
  · cases T.cmdsDenied with
    | none => simp
    | some cmds => simp [← hscan]

/-- **The lists decide as they read exactly if no empty element is in the
way**: the command is not overlooked in what is allowed while nothing denies
it, and not overlooked in what is denied while what is allowed has it in front
of the first empty element. The scans come to an end on every list. -/
theorem cmd_lists_exact (T : Tunables) (cmd : Bytes) :
    ((cmdOk T cmd = true ↔ CmdPermitted T cmd) ↔
      (¬ ((∃ cmds ∈ T.cmdsAllowed, Overlooked cmds cmd) ∧
          ∀ cmds ∈ T.cmdsDenied, cmd ∉ cmds.splitOn chComma) ∧
       ¬ ((∃ cmds ∈ T.cmdsDenied, Overlooked cmds cmd) ∧
          ∀ cmds ∈ T.cmdsAllowed, cmd ∈ beforeEmpty chComma cmds))) ∧
    ∀ cmds n, cmds.length < n → inCmdList n cmds cmd = inCmdList (cmds.length + 1) cmds cmd := by
  refine ⟨?_, fun cmds n h => inCmdList_rounds cmds cmd h⟩
  have hsub : ∀ cmds, cmd ∈ beforeEmpty chComma cmds → cmd ∈ cmds.splitOn chComma :=
    fun cmds h => beforeEmpty_subset cmds h
  -- what is seen is an element, so only an overlooked element makes a difference
  have hallowed : (∃ cmds ∈ T.cmdsAllowed, Overlooked cmds cmd) ↔
      (∀ cmds ∈ T.cmdsAllowed, cmd ∈ cmds.splitOn chComma) ∧
      ¬ ∀ cmds ∈ T.cmdsAllowed, cmd ∈ beforeEmpty chComma cmds := by
    cases T.cmdsAllowed with
    | none => simp
    | some cmds => simp [Overlooked]
  have hdenied : (∃ cmds ∈ T.cmdsDenied, Overlooked cmds cmd) ↔
      (∀ cmds ∈ T.cmdsDenied, cmd ∉ beforeEmpty chComma cmds) ∧
      ¬ ∀ cmds ∈ T.cmdsDenied, cmd ∉ cmds.splitOn chComma := by
    cases T.cmdsDenied with
    | none => simp
    | some cmds =>
      simp only [Overlooked, Option.mem_def, Option.some.injEq, exists_eq_left', forall_eq']
      rw [not_not, and_comm]
  have hseen : (∀ cmds ∈ T.cmdsAllowed, cmd ∈ beforeEmpty chComma cmds) →
      ∀ cmds ∈ T.cmdsAllowed, cmd ∈ cmds.splitOn chComma := fun h cmds hc => hsub cmds (h cmds hc)
  have hunseen : (∀ cmds ∈ T.cmdsDenied, cmd ∉ cmds.splitOn chComma) →
      ∀ cmds ∈ T.cmdsDenied, cmd ∉ beforeEmpty chComma cmds := fun h cmds hc hm => h cmds hc (hsub cmds hm)
  rw [cmdOk_iff, CmdPermitted, hallowed, hdenied]
  grind

/-- A denied command after an empty element. -/
def gapServer : Tunables := { cmdsDenied := some (text "A,,B") }

theorem cmd_lists_exact_gap : (cmdOk gapServer (text "A") = true ↔ CmdPermitted gapServer (text "A")) ∧
    inCmdList 9 (text "A,,B") (text "A") = true := by
  obtain ⟨hexact, hrounds⟩ := cmd_lists_exact gapServer (text "A")
  refine ⟨hexact.mpr ⟨?_, ?_⟩, (hrounds (text "A,,B") 9 (by decide)).trans (by decide)⟩
  · intro h
    obtain ⟨⟨cmds, hcmds, _⟩, _⟩ := h
    exact Option.not_mem_none cmds hcmds
  · intro h
    obtain ⟨⟨cmds, hcmds, hover⟩, _⟩ := h
    obtain rfl := Option.some.inj hcmds
    exact hover.2 (by decide +kernel)

/-- The command after the empty element is let through. -/
theorem denied_command_slips : cmdOk gapServer (text "B") = true ∧ ¬ CmdPermitted gapServer (text "B") := by
  refine ⟨by decide +kernel, ?_⟩
  intro h
  exact h.2 (text "A,,B") rfl (by decide +kernel)

end CosFtp
