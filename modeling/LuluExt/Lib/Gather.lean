/-
Scatter and gather: one worker for each item sends one report on a channel and ends, and a collector takes as many
reports as there are items. The channel has room for all of them.

- `Inv`: every item is with its worker, on the channel or with the collector, once;
- `Inv.send`, `Inv.receive`: both operations keep that;
- `Inv.room`: a worker never waits for room;
- `Inv.complete`: once all reports are there, they are those of the items, in some order.
-/
import Mathlib.Tactic

open scoped List

namespace LuluExt

structure Gather (ι ρ : Type*) where
  waiting : List ι
  channel : List (ι × ρ)
  /-- what the collector has taken, in order -/
  received : List (ι × ρ)
deriving DecidableEq, Repr

namespace Gather

variable {ι ρ : Type*}

def start (items : List ι) : Gather ι ρ := ⟨items, [], []⟩

/-- a worker sends its report, if the channel has room -/
def send [DecidableEq ι] (n : ℕ) (g : Gather ι ρ) (i : ι) (r : ρ) : Gather ι ρ :=
  if i ∈ g.waiting ∧ g.channel.length < n then
    { g with waiting := g.waiting.erase i, channel := g.channel ++ [(i, r)] }
  else g

/-- the collector takes a report, until it has `n` -/
def receive (n : ℕ) (g : Gather ι ρ) : Gather ι ρ :=
  match g.channel with
  | [] => g
  | x :: channel =>
    if g.received.length < n then { g with channel := channel, received := g.received ++ [x] } else g

theorem waiting_send_subset [DecidableEq ι] (n : ℕ) (g : Gather ι ρ) (i : ι) (r : ρ) :
    (g.send n i r).waiting ⊆ g.waiting := by
  unfold send
  split_ifs
  · exact List.erase_subset
  · exact List.Subset.refl _

theorem waiting_receive (n : ℕ) (g : Gather ι ρ) : (g.receive n).waiting = g.waiting := by
  unfold receive
  split
  · rfl
  · split_ifs <;> rfl

/-- every item is at one place, and each report is one that its worker may send -/
structure Inv (items : List ι) (may : ι → ρ → Prop) (g : Gather ι ρ) : Prop where
  perm : (g.waiting ++ (g.channel ++ g.received).map Prod.fst) ~ items
  sent : ∀ x ∈ g.channel ++ g.received, may x.1 x.2

variable {items : List ι} {may : ι → ρ → Prop} {g : Gather ι ρ} {i : ι} {r : ρ}

theorem inv_start (items : List ι) (may : ι → ρ → Prop) : Inv items may (start items) :=
  ⟨by simp [start], by simp [start]⟩

namespace Inv

theorem mono {may' : ι → ρ → Prop} (h : Inv items may g) (hmay : ∀ i r, may i r → may' i r) : Inv items may' g :=
  ⟨h.perm, fun x hx => hmay x.1 x.2 (h.sent x hx)⟩

theorem length (h : Inv items may g) : g.waiting.length + g.channel.length + g.received.length = items.length := by
  rw [← h.perm.length_eq]
  simp [add_assoc]

/-- **A worker never waits for room.** -/
theorem room (h : Inv items may g) (hi : i ∈ g.waiting) : g.channel.length < items.length := by
  have hlength := h.length
  have hpos := List.length_pos_of_mem hi
  omega

theorem send_eq [DecidableEq ι] (h : Inv items may g) (hi : i ∈ g.waiting) :
    g.send items.length i r = { g with waiting := g.waiting.erase i, channel := g.channel ++ [(i, r)] } :=
  if_pos ⟨hi, h.room hi⟩

theorem receive_eq (h : Inv items may g) {x : ι × ρ} {channel : List (ι × ρ)} (hx : g.channel = x :: channel) :
    g.receive items.length = { g with channel := channel, received := g.received ++ [x] } := by
  have hlength := h.length
  rw [hx, List.length_cons] at hlength
  rw [receive, hx]
  exact if_pos (by omega)

theorem send [DecidableEq ι] (h : Inv items may g) (hr : may i r) : Inv items may (g.send items.length i r) := by
  by_cases hi : i ∈ g.waiting
  · rw [h.send_eq hi]
    constructor
    · calc g.waiting.erase i ++ (g.channel ++ [(i, r)] ++ g.received).map Prod.fst
          = g.waiting.erase i ++ (g.channel.map Prod.fst ++ i :: g.received.map Prod.fst) := by simp
        _ ~ g.waiting.erase i ++ i :: (g.channel ++ g.received).map Prod.fst := by
          rw [List.map_append]
          exact List.perm_middle.append_left _
        _ ~ i :: g.waiting.erase i ++ (g.channel ++ g.received).map Prod.fst := List.perm_middle
        _ ~ g.waiting ++ (g.channel ++ g.received).map Prod.fst := (List.perm_cons_erase hi).symm.append_right _
        _ ~ items := h.perm
    · intro x hx
      rw [List.append_assoc, List.mem_append, List.singleton_append, List.mem_cons] at hx
      rcases hx with hx | rfl | hx
      · exact h.sent x (List.mem_append_left _ hx)
      · exact hr
      · exact h.sent x (List.mem_append_right _ hx)
  · rw [Gather.send, if_neg fun hsend => hi hsend.1]
    exact h

theorem receive (h : Inv items may g) : Inv items may (g.receive items.length) := by
  cases hchannel : g.channel with
  | nil =>
    rw [Gather.receive, hchannel]
    exact h
  | cons x channel =>
    rw [h.receive_eq hchannel]
    obtain ⟨hperm, hsent⟩ := h
    rw [hchannel] at hperm hsent
    have hmoved : channel ++ (g.received ++ [x]) ~ x :: channel ++ g.received := by
      rw [← List.append_assoc]
      exact List.perm_append_singleton x _
    exact ⟨((hmoved.map Prod.fst).append_left g.waiting).trans hperm, fun y hy => hsent y (hmoved.mem_iff.1 hy)⟩

/-- **All reports are there**: nobody waits, and they are those of the items, in some order. -/
theorem complete (h : Inv items may g) (hdone : g.received.length = items.length) :
    g.waiting = [] ∧ g.channel = [] ∧ g.received.map Prod.fst ~ items := by
  have hlength := h.length
  have hwaiting : g.waiting = [] := List.eq_nil_of_length_eq_zero (by omega)
  have hchannel : g.channel = [] := List.eq_nil_of_length_eq_zero (by omega)
  have hperm := h.perm
  rw [hwaiting, hchannel] at hperm
  exact ⟨hwaiting, hchannel, hperm⟩

end Inv

end Gather

end LuluExt
