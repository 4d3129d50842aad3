/-
# Two processes over a pair of channels

A client and a server are connected by a channel each way, which delivers what was
sent in order and loses nothing. A process sends units, waits for units, and ends;
each unit has a kind, and so has each wait, but a wait takes whatever comes next.
The client also has places between two requests, and the server a kind that it waits
for only between two requests, its `head`.

A process that has ended takes nothing more, and nothing can be sent to it.

`Dual` says of two processes that, were each unit taken as soon as it is sent, every
wait would get a unit of its kind, the server would be at its head or have ended
whenever the client is between requests, and the last step of each request would be a
wait of the client. It is enough for the same under any order of the steps, with units
under way (`lockstep`): `InStep` is kept by every step.

Key definitions: `Proc`, `Step`, `Dual`, `InStep`, `Orderly`.
Key theorems: `InStep.step`, `lockstep`, `InStep.orderly`.
-/
import Mathlib.Data.Nat.Notation
import Mathlib.Logic.Relation
import Mathlib.Tactic.ByContra

namespace Duplex

variable {κ υ ρ σ : Type}

/-- A process that sends and takes units of the kinds `κ`, and ends with a `ρ`. -/
inductive Proc (κ υ ρ : Type) where
  | stop (r : ρ)
  /-- between two requests -/
  | rest (next : Proc κ υ ρ)
  | send (kind : κ) (u : υ) (next : Proc κ υ ρ)
  | recv (kind : κ) (next : υ → Proc κ υ ρ)

namespace Proc

/-- In the middle of a request. -/
def Busy : Proc κ υ ρ → Prop
  | stop _ => False
  | rest _ => False
  | send _ _ _ => True
  | recv _ _ => True

/-- About to take a unit. -/
def Waits (p : Proc κ υ ρ) : Prop := ∃ kind next, p = recv kind next

/-- About to take a unit of this kind. -/
def Awaits (kind : κ) (p : Proc κ υ ρ) : Prop := ∃ next, p = recv kind next

/-- Several units of one kind. -/
def sendAll (kind : κ) (us : List υ) (next : Proc κ υ ρ) : Proc κ υ ρ := us.foldr (send kind) next

def recvAll (kind : κ) : ℕ → (List υ → Proc κ υ ρ) → Proc κ υ ρ
  | 0, next => next []
  | n + 1, next => recv kind fun u => recvAll kind n fun us => next (u :: us)

theorem Waits.busy {p : Proc κ υ ρ} (h : p.Waits) : p.Busy := by
  obtain ⟨kind, next, rfl⟩ := h
  trivial

end Proc

open Proc

/-- The two processes, and the units under way to each. -/
structure Pair (κ υ ρ σ : Type) where
  client : Proc κ υ ρ
  server : Proc κ υ σ
  toServer : List (κ × υ) := []
  toClient : List (κ × υ) := []

/-- A step of one of the two. -/
inductive Step : Pair κ υ ρ σ → Pair κ υ ρ σ → Prop
  | clientRest {c p q q'} : Step ⟨rest c, p, q, q'⟩ ⟨c, p, q, q'⟩
  | clientSend {k u c p q q'} (h : ∀ r, p ≠ stop r) :
      Step ⟨send k u c, p, q, q'⟩ ⟨c, p, q ++ [(k, u)], q'⟩
  | clientRecv {k f p q x q'} : Step ⟨recv k f, p, q, x :: q'⟩ ⟨f x.2, p, q, q'⟩
  | serverRest {c p q q'} : Step ⟨c, rest p, q, q'⟩ ⟨c, p, q, q'⟩
  | serverSend {k u c p q q'} (h : ∀ r, c ≠ stop r) :
      Step ⟨c, send k u p, q, q'⟩ ⟨c, p, q, q' ++ [(k, u)]⟩
  | serverRecv {k f c x q q'} : Step ⟨c, recv k f, x :: q, q'⟩ ⟨c, f x.2, q, q'⟩

/-- Any number of steps, in any order. -/
def Reachable : Pair κ υ ρ σ → Pair κ υ ρ σ → Prop := Relation.ReflTransGen Step

section

variable (head : κ) (fin : ρ → Proc κ υ σ → Prop) (dead : σ → Prop)

/-- The two are made for each other. The client ends only where `fin` holds, and the
server only as in `dead`, and not before it has taken what the client sends. -/
inductive Dual : Proc κ υ ρ → Proc κ υ σ → Prop
  | stop {r p} : fin r p → p.Awaits head → Dual (stop r) p
  | rest {c p} : Dual c p → p.Awaits head → Dual (rest c) p
  | send {k u c f} : Dual c (f u) → c.Waits ∨ c.Busy ∧ (f u).Waits → Dual (send k u c) (recv k f)
  | recv {k u f p} : Dual (f u) p → Dual (recv k f) (send k u p)
  | dead {c r} : dead r → Dual c (stop r)

end

/-- A process takes all units of a list, each where it waits for its kind. -/
inductive Feeds : Proc κ υ ρ → List (κ × υ) → Proc κ υ ρ → Prop
  | nil {p} : Feeds p [] p
  | cons {k u f q p} : Feeds (f u) q p → Feeds (recv k f) ((k, u) :: q) p

theorem feeds_nil {p p' : Proc κ υ ρ} (h : Feeds p [] p') : p' = p := by
  cases h
  rfl

/-- A process that does not wait takes nothing. -/
theorem feeds_self {p p' : Proc κ υ ρ} {q : List (κ × υ)} (h : Feeds p q p') (hp : ∀ k f, p ≠ .recv k f) :
    q = [] ∧ p' = p := by
  cases h with
  | nil => exact ⟨rfl, rfl⟩
  | cons _ => exact absurd rfl (hp _ _)

/-- One more unit, for the process at the end. -/
theorem Feeds.concat {p : Proc κ υ ρ} {q : List (κ × υ)} {k : κ} {f : υ → Proc κ υ ρ} (u : υ)
    (h : Feeds p q (.recv k f)) : Feeds p (q ++ [(k, u)]) (f u) := by
  generalize hp' : Proc.recv k f = p' at h
  induction h with
  | nil =>
    subst hp'
    exact .cons .nil
  | cons _ ih => exact .cons (ih hp')

section

variable (head : κ) (fin : ρ → Proc κ υ σ → Prop) (dead : σ → Prop)

/-- Units are under way in one direction at most, and once they are taken the two are
made for each other. -/
inductive InStep (s : Pair κ υ ρ σ) : Prop
  | toServer {p} : s.toClient = [] → (s.toServer ≠ [] → s.client.Waits ∨ s.client.Busy ∧ p.Waits) →
      Feeds s.server s.toServer p → Dual head fin dead s.client p → InStep s
  | toClient {c} : s.toServer = [] → Feeds s.client s.toClient c → Dual head fin dead c s.server → InStep s

end

section

variable {head : κ} {fin : ρ → Proc κ υ σ → Prop} {dead : σ → Prop} {c : Proc κ υ ρ} {p : Proc κ υ σ}
  {s s' : Pair κ υ ρ σ}

/-- What the server is about to do, and what the client waits for. -/
theorem Dual.server_cases (h : Dual head fin dead c p) :
    (∃ k f, p = .recv k f) ∨ (∃ k u p' f, p = .send k u p' ∧ c = .recv k f ∧ Dual head fin dead (f u) p') ∨
      ∃ r, p = .stop r ∧ dead r := by
  cases h with
  | stop _ hhead =>
    obtain ⟨f, rfl⟩ := hhead
    exact .inl ⟨head, f, rfl⟩
  | rest _ hhead =>
    obtain ⟨f, rfl⟩ := hhead
    exact .inl ⟨head, f, rfl⟩
  | send _ _ => exact .inl ⟨_, _, rfl⟩
  | recv hdual => exact .inr (.inl ⟨_, _, _, _, rfl, rfl, hdual⟩)
  | dead hdead => exact .inr (.inr ⟨_, rfl, hdead⟩)

/-- Between two requests of the client the server is at its head, or has ended. -/
theorem Dual.awaits_head (h : Dual head fin dead c p) (hidle : ¬ c.Busy) :
    p.Awaits head ∨ ∃ r, p = .stop r ∧ dead r := by
  cases h with
  | stop _ hhead => exact .inl hhead
  | rest _ hhead => exact .inl hhead
  | send _ _ => exact absurd trivial hidle
  | recv _ => exact absurd trivial hidle
  | dead hdead => exact .inr ⟨_, rfl, hdead⟩

/-- Where the client has ended. -/
theorem Dual.ended (h : Dual head fin dead c p) {r : ρ} (hc : c = .stop r) :
    fin r p ∨ ∃ e, p = .stop e ∧ dead e := by
  cases h with
  | stop hfin _ =>
    cases hc
    exact .inl hfin
  | rest _ _ => cases hc
  | send _ _ => cases hc
  | recv _ => cases hc
  | dead hdead => exact .inr ⟨_, rfl, hdead⟩

/-- Several units to the server, taken by as many waits; then one of the two waits. -/
theorem Dual.sendMany {k : κ} {us : List υ} {n : ℕ} {f : List υ → Proc κ υ σ} (hlen : us.length = n)
    (h : Dual head fin dead c (f us)) (hnext : c.Waits ∨ c.Busy ∧ (f us).Waits) :
    Dual head fin dead (Proc.sendAll k us c) (Proc.recvAll k n f) := by
  subst hlen
  induction us generalizing f with
  | nil => exact h
  | cons u us ih =>
    refine .send (ih (f := fun us => f (u :: us)) h hnext) ?_
    cases us with
    | nil => exact hnext
    | cons v us => exact .inr ⟨trivial, k, _, rfl⟩

theorem Dual.sendAll {k : κ} {us : List υ} {n : ℕ} {f : List υ → Proc κ υ σ} (hlen : us.length = n)
    (h : Dual head fin dead c (f us)) (hwaits : c.Waits) :
    Dual head fin dead (Proc.sendAll k us c) (Proc.recvAll k n f) := h.sendMany hlen (.inl hwaits)

/-- Several units to the client. -/
theorem Dual.recvAll {k : κ} {us : List υ} {n : ℕ} {f : List υ → Proc κ υ ρ} (hlen : us.length = n)
    (h : Dual head fin dead (f us) p) :
    Dual head fin dead (Proc.recvAll k n f) (Proc.sendAll k us p) := by
  subst hlen
  induction us generalizing f with
  | nil => exact h
  | cons u us ih => exact .recv (ih (f := fun us => f (u :: us)) h)

theorem InStep.start (h : Dual head fin dead c p) : InStep head fin dead ⟨c, p, [], []⟩ :=
  .toClient rfl .nil h

/-! ### What `InStep` says -/

/-- Units are under way in one direction at most. -/
theorem InStep.oneWay (h : InStep head fin dead s) : s.toServer = [] ∨ s.toClient = [] := by
  cases h with
  | toServer hnone => exact .inr hnone
  | toClient hnone => exact .inl hnone

/-- What the client takes is of the kind it waits for. -/
theorem InStep.client_kind (h : InStep head fin dead s) {k : κ} {f : υ → Proc κ υ ρ} {x : κ × υ}
    {q : List (κ × υ)} (hclient : s.client = .recv k f) (hq : s.toClient = x :: q) : x.1 = k := by
  cases h with
  | toServer hnone =>
    rw [hq] at hnone
    cases hnone
  | toClient _ hfeeds =>
    rw [hclient, hq] at hfeeds
    cases hfeeds
    rfl

/-- What the server takes is of the kind it waits for. -/
theorem InStep.server_kind (h : InStep head fin dead s) {k : κ} {f : υ → Proc κ υ σ} {x : κ × υ}
    {q : List (κ × υ)} (hserver : s.server = .recv k f) (hq : s.toServer = x :: q) : x.1 = k := by
  cases h with
  | toServer _ _ hfeeds =>
    rw [hserver, hq] at hfeeds
    cases hfeeds
    rfl
  | toClient hnone =>
    rw [hq] at hnone
    cases hnone

/-- A client that is not in the middle of a request has nothing under way to it or from
it, and the server is made for it. -/
theorem InStep.idle (h : InStep head fin dead s) (hidle : ¬ s.client.Busy) :
    s.toServer = [] ∧ s.toClient = [] ∧ Dual head fin dead s.client s.server := by
  cases h with
  | toServer hnone hbusy hfeeds hdual =>
    have hq : s.toServer = [] := by
      by_contra hne
      exact hidle ((hbusy hne).elim Waits.busy And.left)
    rw [hq] at hfeeds
    rw [feeds_nil hfeeds] at hdual
    exact ⟨hq, hnone, hdual⟩
  | toClient hnone hfeeds hdual =>
    have hwait : ∀ k f, s.client ≠ .recv k f := by
      intro k f hclient
      rw [hclient] at hidle
      exact hidle trivial
    obtain ⟨hq, rfl⟩ := feeds_self hfeeds hwait
    exact ⟨hnone, hq, hdual⟩

/-- What a server that does not wait is about to do. -/
theorem InStep.server_acts (h : InStep head fin dead s) (hp : ∀ k f, s.server ≠ .recv k f) :
    s.toServer = [] ∧ ∃ c, Feeds s.client s.toClient c ∧ Dual head fin dead c s.server := by
  cases h with
  | toServer hnone _ hfeeds hdual =>
    obtain ⟨hq, rfl⟩ := feeds_self hfeeds hp
    refine ⟨hq, s.client, ?_, hdual⟩
    rw [hnone]
    exact .nil
  | toClient hnone hfeeds hdual => exact ⟨hnone, _, hfeeds, hdual⟩

/-- A server that has ended did so as it may. -/
theorem InStep.server_dead (h : InStep head fin dead s) {r : σ} (hstop : s.server = .stop r) : dead r := by
  obtain ⟨-, c, -, hdual⟩ := h.server_acts fun k f => by simp [hstop]
  rw [hstop] at hdual
  rcases hdual.server_cases with ⟨k, f, hp⟩ | ⟨k, u, p', f, hp, -⟩ | ⟨r', hp, hdead⟩
  · cases hp
  · cases hp
  · cases hp
    exact hdead

theorem Dual.progress (h : Dual head fin dead c p) (hclient : ∀ r, c ≠ .stop r) (hserver : ∀ r, p ≠ .stop r)
    (q q' : List (κ × υ)) : ∃ s', Step ⟨c, p, q, q'⟩ s' := by
  cases h with
  | stop => exact absurd rfl (hclient _)
  | rest => exact ⟨_, .clientRest⟩
  | send => exact ⟨_, .clientSend hserver⟩
  | recv => exact ⟨_, .serverSend hclient⟩
  | dead => exact absurd rfl (hserver _)

/-- As long as neither has ended, one of the two can make a step. -/
theorem InStep.progress (h : InStep head fin dead s) (hclient : ∀ r, s.client ≠ .stop r)
    (hserver : ∀ r, s.server ≠ .stop r) : ∃ s', Step s s' := by
  obtain ⟨c, p, q, q'⟩ := s
  cases h with
  | toServer _ _ hfeeds hdual =>
    cases hfeeds with
    | cons _ => exact ⟨_, .serverRecv⟩
    | nil => exact hdual.progress hclient hserver _ _
  | toClient _ hfeeds hdual =>
    cases hfeeds with
    | cons _ => exact ⟨_, .clientRecv⟩
    | nil => exact hdual.progress hclient hserver _ _

/-! ### Every step keeps it -/

theorem InStep.clientRest {c : Proc κ υ ρ} {q q' : List (κ × υ)}
    (h : InStep head fin dead ⟨.rest c, p, q, q'⟩) : InStep head fin dead ⟨c, p, q, q'⟩ := by
  obtain ⟨hq, hq', hdual⟩ := h.idle id
  simp only at hq hq' hdual
  subst hq hq'
  cases hdual with
  | rest hdual _ => exact .start hdual
  | dead hdead => exact .start (.dead hdead)

theorem InStep.clientSend {k : κ} {u : υ} {q q' : List (κ × υ)}
    (h : InStep head fin dead ⟨.send k u c, p, q, q'⟩) (hp : ∀ r, p ≠ .stop r) :
    InStep head fin dead ⟨c, p, q ++ [(k, u)], q'⟩ := by
  have hwait : ¬ (Proc.send k u c).Waits := by
    rintro ⟨k', f, hf⟩
    cases hf
  have hsent : q' = [] ∧ ∃ p', Feeds p q p' ∧ Dual head fin dead (.send k u c) p' ∧ ∀ r, p' ≠ .stop r := by
    cases h with
    | toServer hnone hbusy hfeeds hdual =>
      refine ⟨hnone, _, hfeeds, hdual, ?_⟩
      rintro r rfl
      cases hfeeds with
      | nil => exact hp r rfl
      | cons _ =>
        -- the server still has to take something, and ends then
        rcases hbusy (List.cons_ne_nil _ _) with hclient | ⟨-, k', f, hf⟩
        · exact hwait hclient
        · cases hf
    | toClient hnone hfeeds hdual =>
      obtain ⟨hq', rfl⟩ := feeds_self hfeeds (by simp)
      simp only at hnone
      subst hnone
      exact ⟨hq', p, .nil, hdual, hp⟩
  obtain ⟨rfl, p', hfeeds, hdual, hgoing⟩ := hsent
  cases hdual with
  | send hdual hbusy => exact .toServer rfl (fun _ => hbusy) (hfeeds.concat u) hdual
  | dead _ => exact absurd rfl (hgoing _)

theorem InStep.clientRecv {k : κ} {f : υ → Proc κ υ ρ} {x : κ × υ} {q q' : List (κ × υ)}
    (h : InStep head fin dead ⟨.recv k f, p, q, x :: q'⟩) : InStep head fin dead ⟨f x.2, p, q, q'⟩ := by
  cases h with
  | toServer hnone => cases hnone
  | toClient hnone hfeeds hdual =>
    cases hfeeds with
    | cons hfeeds => exact .toClient hnone hfeeds hdual

theorem InStep.not_serverRest {q q' : List (κ × υ)} (h : InStep head fin dead ⟨c, .rest p, q, q'⟩) : False := by
  obtain ⟨-, c', -, hdual⟩ := h.server_acts (by simp)
  rcases hdual.server_cases with ⟨k, f, hp⟩ | ⟨k, u, p', f, hp, -⟩ | ⟨r, hp, -⟩
  · cases hp
  · cases hp
  · cases hp

theorem InStep.serverSend {k : κ} {u : υ} {q q' : List (κ × υ)}
    (h : InStep head fin dead ⟨c, .send k u p, q, q'⟩) :
    InStep head fin dead ⟨c, p, q, q' ++ [(k, u)]⟩ := by
  obtain ⟨hq, c', hfeeds, hdual⟩ := h.server_acts (by simp)
  rcases hdual.server_cases with ⟨k', f, hp⟩ | ⟨k', u', p', f, hp, rfl, hnext⟩ | ⟨r, hp, -⟩
  · cases hp
  · cases hp
    exact .toClient hq (hfeeds.concat u) hnext
  · cases hp

theorem InStep.serverRecv {k : κ} {f : υ → Proc κ υ σ} {x : κ × υ} {q q' : List (κ × υ)}
    (h : InStep head fin dead ⟨c, .recv k f, x :: q, q'⟩) : InStep head fin dead ⟨c, f x.2, q, q'⟩ := by
  cases h with
  | toServer hnone hbusy hfeeds hdual =>
    have hbusy' := hbusy (List.cons_ne_nil x q)
    cases hfeeds with
    | cons hfeeds => exact .toServer hnone (fun _ => hbusy') hfeeds hdual
  | toClient hnone => cases hnone

theorem InStep.step (h : InStep head fin dead s) (hstep : Step s s') : InStep head fin dead s' := by
  cases hstep with
  | clientRest => exact h.clientRest
  | clientSend hp => exact h.clientSend hp
  | clientRecv => exact h.clientRecv
  | serverRest => exact h.not_serverRest.elim
  | serverSend _ => exact h.serverSend
  | serverRecv => exact h.serverRecv

/-- **Two processes that are made for each other stay in step**, in whatever order they run. -/
theorem lockstep (h : Dual head fin dead c p) (hreach : Reachable ⟨c, p, [], []⟩ s) :
    InStep head fin dead s := by
  induction hreach with
  | refl => exact .start h
  | tail _ hstep ih => exact ih.step hstep

end

/-- What holds of the two and of the channels all along. -/
structure Orderly (head : κ) (fin : ρ → Proc κ υ σ → Prop) (dead : σ → Prop) (s : Pair κ υ ρ σ) : Prop where
  oneWay : s.toServer = [] ∨ s.toClient = []
  /-- what is read next is what the reader waits for -/
  clientReads : ∀ k f x q, s.client = .recv k f → s.toClient = x :: q → x.1 = k
  serverReads : ∀ k f x q, s.server = .recv k f → s.toServer = x :: q → x.1 = k
  /-- between two requests nothing is under way, and the server waits for the next one -/
  between : ¬ s.client.Busy →
    s.toServer = [] ∧ s.toClient = [] ∧ (s.server.Awaits head ∨ ∃ r, s.server = .stop r ∧ dead r)
  clientEnds : ∀ r, s.client = .stop r → fin r s.server ∨ ∃ e, s.server = .stop e ∧ dead e
  serverEnds : ∀ r, s.server = .stop r → dead r
  goesOn : (∀ r, s.client ≠ .stop r) → (∀ r, s.server ≠ .stop r) → ∃ s', Step s s'

theorem InStep.orderly {head : κ} {fin : ρ → Proc κ υ σ → Prop} {dead : σ → Prop} {s : Pair κ υ ρ σ}
    (h : InStep head fin dead s) : Orderly head fin dead s where
  oneWay := h.oneWay
  clientReads _ _ _ _ hclient hq := h.client_kind hclient hq
  serverReads _ _ _ _ hserver hq := h.server_kind hserver hq
  between hidle :=
    have hpair := h.idle hidle
    ⟨hpair.1, hpair.2.1, hpair.2.2.awaits_head hidle⟩
  clientEnds r hr := by
    have hidle : ¬ s.client.Busy := by
      rw [hr]
      exact id
    exact (h.idle hidle).2.2.ended hr
  serverEnds _ hr := h.server_dead hr
  goesOn := h.progress

end Duplex
