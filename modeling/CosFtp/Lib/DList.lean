/-
# Doubly linked lists

A memory gives each node its next and its previous one. `Linked` says that the
nodes of a list stand one behind the other in it, each with the right links to
both sides; it looks at the links of these nodes only (`Linked.congr`). The two
edits are those at the front (`Linked.push`) and the one that takes a node out,
wherever it stands (`Linked.unlink`).

Key definition: `Linked`.
Key theorems: `Linked.congr`, `Linked.links`, `Linked.push`, `Linked.unlink`.
-/
import Mathlib.Data.List.Nodup

namespace DList

variable {α : Type} [DecidableEq α] {next prev next' prev' : α → Option α} {before : Option α}
  {a : α} {l u w : List α}

/-- The nodes of the list stand one behind the other, behind `before`. -/
def Linked (next prev : α → Option α) : Option α → List α → Prop
  | _, [] => True
  | before, a :: l => prev a = before ∧ next a = l.head? ∧ Linked next prev (some a) l

omit [DecidableEq α] in
/-- Only the links of the nodes matter. -/
theorem Linked.congr : ∀ {before : Option α} {l : List α}, Linked next prev before l →
    (∀ x ∈ l, next' x = next x ∧ prev' x = prev x) → Linked next' prev' before l
  | _, [], _, _ => trivial
  | _, a :: l, ⟨hprev, hnext, hrest⟩, hsame => by
    obtain ⟨hn, hp⟩ := hsame a List.mem_cons_self
    refine ⟨hp.trans hprev, hn.trans hnext, hrest.congr fun x hx => ?_⟩
    exact hsame x (List.mem_cons_of_mem a hx)

omit [DecidableEq α] in
/-- The links of a node, wherever it stands. -/
theorem Linked.links : ∀ {u : List α} {before : Option α}, Linked next prev before (u ++ a :: w) →
    prev a = u.getLast?.or before ∧ next a = w.head?
  | [], _, h => ⟨h.1, h.2.1⟩
  | c :: u, before, h => by
    obtain ⟨hprev, hnext⟩ := Linked.links h.2.2
    rw [hprev, List.getLast?_cons]
    refine ⟨?_, hnext⟩
    cases u.getLast? with
    | none => rfl
    | some x => rfl

/-- A node at the front. -/
theorem Linked.push (h : Linked next prev none l) (hnodup : l.Nodup) (ha : next' a = l.head?)
    (ha' : prev' a = none) (hnext : ∀ x ∈ l, next' x = next x)
    (hprev : ∀ x ∈ l, prev' x = if l.head? = some x then some a else prev x) :
    Linked next' prev' none (a :: l) := by
  refine ⟨ha', ha, ?_⟩
  cases l with
  | nil => trivial
  | cons b l =>
    obtain ⟨-, hb, hrest⟩ := h
    have hbl : b ∉ l := (List.nodup_cons.mp hnodup).1
    refine ⟨?_, ?_, hrest.congr fun x hx => ⟨hnext x (List.mem_cons_of_mem b hx), ?_⟩⟩
    · have hhead : (b :: l).head? = some b := rfl
      rw [hprev b List.mem_cons_self, if_pos hhead]
    · rw [hnext b List.mem_cons_self, hb]
    · have hne : ¬ (b :: l).head? = some x := by
        intro he
        exact hbl (Option.some.inj he ▸ hx)
      rw [hprev x (List.mem_cons_of_mem b hx), if_neg hne]

/-- A node is taken out: the one in front of it and the one behind it are
linked to each other. -/
theorem Linked.unlink : ∀ {u : List α} {before : Option α}, Linked next prev before (u ++ a :: w) →
    (u ++ a :: w).Nodup → (∀ x ∈ u ++ w, next' x = if u.getLast? = some x then w.head? else next x) →
    (∀ x ∈ u ++ w, prev' x = if w.head? = some x then u.getLast?.or before else prev x) →
    Linked next' prev' before (u ++ w)
  | [], before, h, hnodup, hnext, hprev => by
    obtain ⟨-, -, hrest⟩ := h
    cases w with
    | nil => trivial
    | cons b w =>
      obtain ⟨-, hb, hrest⟩ := hrest
      have hbw : b ∉ w := (List.nodup_cons.mp (List.nodup_cons.mp hnodup).2).1
      refine ⟨?_, ?_, hrest.congr fun x hx => ?_⟩
      · have hhead : (b :: w).head? = some b := rfl
        rw [hprev b List.mem_cons_self, if_pos hhead]
        rfl
      · rw [hnext b List.mem_cons_self, if_neg (by simp), hb]
      · have hx' : x ∈ [] ++ b :: w := List.mem_cons_of_mem b hx
        have hne : ¬ (b :: w).head? = some x := by
          intro he
          exact hbw (Option.some.inj he ▸ hx)
        rw [hnext x hx', hprev x hx', if_neg (by simp), if_neg hne]
        exact ⟨rfl, rfl⟩
  | c :: u, before, h, hnodup, hnext, hprev => by
    obtain ⟨hc, hc', hrest⟩ := h
    obtain ⟨hcu, hnodup'⟩ := List.nodup_cons.mp hnodup
    have hcw : ¬ w.head? = some c := by
      intro he
      exact hcu (List.mem_append_right u (List.mem_cons_of_mem a (List.mem_of_head? he)))
    have hmem : ∀ {x}, x ∈ u ++ w → x ∈ (c :: u) ++ w := fun hx => List.mem_cons_of_mem c hx
    have hne : ∀ {x}, x ∈ u ++ w → x ≠ c := by
      intro x hx he
      subst he
      rcases List.mem_append.mp hx with hx | hx
      · exact hcu (List.mem_append_left _ hx)
      · exact hcu (List.mem_append_right u (List.mem_cons_of_mem a hx))
    refine ⟨?_, ?_, ?_⟩
    · rw [hprev c List.mem_cons_self, if_neg hcw, hc]
    · rw [hnext c List.mem_cons_self, List.getLast?_cons]
      cases u with
      | nil => exact if_pos rfl
      | cons d u =>
        have hlast : ¬ some ((d :: u).getLast?.getD c) = some c := by
          intro he
          rw [List.getLast?_eq_getLast_of_ne_nil (List.cons_ne_nil d u)] at he
          have hmem : (d :: u).getLast (List.cons_ne_nil d u) ∈ d :: u := List.getLast_mem _
          exact hcu (List.mem_append_left _ (Option.some.inj he ▸ hmem))
        rw [if_neg hlast, hc']
        rfl
    · refine Linked.unlink hrest hnodup' ?_ ?_
      · intro x hx
        rw [hnext x (hmem hx), List.getLast?_cons]
        cases hlast : u.getLast? with
        | none =>
          have hxc : ¬ some c = some x := fun he => hne hx (Option.some.inj he).symm
          simp [hxc]
        | some y => rfl
      · intro x hx
        rw [hprev x (hmem hx), List.getLast?_cons]
        cases u.getLast? with
        | none => rfl
        | some y => rfl

end DList
