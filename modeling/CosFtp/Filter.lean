/-
# Matching a name against a filter

`vsf_filename_passes_filter` of ls.c, the matcher behind deny_file and
filtered listings. Its loop takes the filter apart token by token and counts
its rounds in a counter that the calls for the alternatives of a brace group
share; `passesFilterLoop` carries that counter and returns it. Its first
argument bounds the rounds and the nesting: a round is only entered with the
counter below the limit, so that many suffice.
-/
import CosFtp.Tunables

namespace CosFtp

/-- What the loop of `vsf_filename_passes_filter` keeps. -/
structure FilterState where
  filterRemain : Bytes
  nameRemain : Bytes
  lastToken : UInt8
  mustMatchAtCurrentPos : Bool

def FilterState.init (name filter : Bytes) : FilterState := ⟨filter, name, chNul, true⟩

/-- The alternatives of a brace group; an empty one ends the list. -/
def braceAlternatives : ℕ → Bytes → List Bytes
  | 0, _ => []
  | n + 1, s =>
    let p := strSplitChar s chComma
    if p.1 = [] then [] else p.1 :: braceAlternatives n p.2

/-- The alternatives are tried in order, all on one counter. -/
def tryAlternatives (passes : Bytes → ℕ → Bool × ℕ) : List Bytes → ℕ → Bool × ℕ
  | [], iters => (false, iters)
  | alt :: alts, iters =>
    match passes alt iters with
    | (true, iters') => (true, iters')
    | (false, iters') => tryAlternatives passes alts iters'

/-- The text before the next token, what follows the token, and the token. -/
def nextToken (filter : Bytes) : Bytes × Bytes × UInt8 :=
  match strLocateChars filter [chStar, chQuestion, chLbrace] with
  | some (i, c) => (filter.take i, filter.drop (i + 1), c)
  | none => (filter, [], chNul)

/-- What is left of the name after the text that has to be matched. -/
def matchNeeded (needed name : Bytes) (mustMatch : Bool) : Option Bytes :=
  if needed = [] then some name
  else match strLocateText name needed with
    | none => none
    | some i => if mustMatch ∧ 0 < i then none else some (name.drop (i + needed.length))

def passesFilterLoop : ℕ → FilterState → ℕ → Bool × ℕ
  | 0, _, iters => (false, iters)
  | depth + 1, st, iters =>
    if st.filterRemain = [] ∨ vsftpMatchitersMax ≤ iters then
      if 0 < st.nameRemain.length ∧ st.lastToken ≠ chStar then (false, iters)
      else (iters ≠ vsftpMatchitersMax, iters)
    else
      let (needed, rest, token) := nextToken st.filterRemain
      match matchNeeded needed st.nameRemain st.mustMatchAtCurrentPos with
      | none => (false, iters + 1)
      | some name =>
        if token = chQuestion then
          match name with
          | [] => (false, iters + 1)
          | _ :: name' => passesFilterLoop depth ⟨rest, name', token, true⟩ (iters + 1)
        else if token = chLbrace then
          match strLocateChar rest chRbrace with
          | some _ =>
            let (group, rest') := strSplitChar rest chRbrace
            tryAlternatives (fun alt it => passesFilterLoop depth (.init name (alt ++ rest')) it)
              (braceAlternatives (group.length + 1) group) (iters + 1)
          | none =>
            -- an unclosed brace stands for itself
            match name with
            | [] => (false, iters + 1)
            | c :: name' =>
              if c = chLbrace then passesFilterLoop depth ⟨rest, name', token, true⟩ (iters + 1)
              else (false, iters + 1)
        else passesFilterLoop depth ⟨rest, name, token, false⟩ (iters + 1)

def vsfFilenamePassesFilter (name filter : Bytes) (iters : ℕ) : Bool × ℕ :=
  passesFilterLoop (vsftpMatchitersMax + 1) (.init name filter) iters

end CosFtp
