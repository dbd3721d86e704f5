/-
The Kafka broker's registry of subscribers.

The registry is a map by topic; subscribers have an identity of their own. A second subscription of a topic takes the
place of the first one, which stays open and is known to its caller only. Unsubscribing a subscriber removes the entry
of its topic, whoever that belongs to. `Disconnect` closes what is registered, and does nothing at all when the broker
is not connected; a subscription can be made without a connection. Subscribers are numbered in the order in which
`Subscribe` returned them.
-/
import LuluExt.Lib.Run
import LuluExt.Lib.Go
import Mathlib.Data.List.AList

namespace LuluExt.KafkaBroker

open Run

/-! ## The registry -/

abbrev SubscriberMap := AList fun _ : String => ℕ

/-- `connected` and the registry of a broker, and of each subscriber (by its number) its topic and whether it is closed;
the numbers below `next` have been returned by `Subscribe` -/
structure Broker where
  addrs : List String
  connected : Bool
  subscribers : SubscriberMap
  next : ℕ
  topic : ℕ → String
  closed : ℕ → Bool

def newBroker (addrs : List String) : Broker := ⟨addrs, false, ∅, 0, fun _ => "", fun _ => false⟩

def connect (b : Broker) : Option GoError × Broker :=
  if b.connected = true then (none, b)
  else if b.addrs = [] then (some ⟨"no available brokers"⟩, b)
  else (none, { b with connected := true })

def subscribe (b : Broker) (topic : String) : ℕ × Broker :=
  (b.next, { b with
    next := b.next + 1
    topic := Function.update b.topic b.next topic
    closed := Function.update b.closed b.next false
    subscribers := b.subscribers.insert topic b.next })

def closeLocked (b : Broker) (id : ℕ) : Broker := { b with closed := Function.update b.closed id true }

def unsubscribe (b : Broker) (id : ℕ) (removeFromManager : Bool) : Broker :=
  let b := closeLocked b id
  if removeFromManager = true then { b with subscribers := b.subscribers.erase (b.topic id) } else b

def clear (b : Broker) : Broker :=
  (b.subscribers.entries.map Sigma.snd).foldl (fun b id => unsubscribe b id false) { b with subscribers := ∅ }

def disconnect (b : Broker) : Broker :=
  if b.connected = true then { clear b with connected := false } else b

inductive Op where
  | connect
  | subscribe (topic : String)
  | unsubscribe (id : ℕ) (removeFromManager : Bool)
  /-- the context of a subscription ends, and its loop closes it -/
  | contextDone (id : ℕ)
  | disconnect
deriving DecidableEq, Repr

/-- callers have only subscribers that were returned to them -/
def step (b : Broker) : Op → Broker
  | .connect => (connect b).2
  | .subscribe topic => (subscribe b topic).2
  | .unsubscribe id removeFromManager => if id < b.next then unsubscribe b id removeFromManager else b
  | .contextDone id => if id < b.next then closeLocked b id else b
  | .disconnect => disconnect b

/-! ## The property and the condition -/

/-- after `Disconnect` every subscriber is closed; `Unsubscribe` keeps the entries of other subscribers -/
def Kept (b : Broker) : Op → Prop
  | .disconnect => ∀ id < (step b .disconnect).next, (step b .disconnect).closed id = true
  | .unsubscribe id r => ∀ topic other, b.subscribers.lookup topic = some other → other ≠ id →
      (step b (.unsubscribe id r)).subscribers.lookup topic = some other
  | _ => True

/-- no later subscriber of its topic was returned -/
def Latest (b : Broker) (id : ℕ) : Prop := ∀ other < b.next, b.topic other = b.topic id → other ≤ id

def Orderly (b : Broker) : Op → Prop
  | .disconnect => (∀ id < b.next, b.closed id = true) ∨
      (b.connected = true ∧ ∀ id < b.next, b.closed id = false → Latest b id)
  | .unsubscribe id true => id < b.next → ∀ other, b.subscribers.lookup (b.topic id) = some other → other = id
  | _ => True

/-- an entry is the last subscriber of its topic, and the last subscriber of a topic is its entry while it is open -/
structure Inv (b : Broker) : Prop where
  entry : ∀ {topic id}, b.subscribers.lookup topic = some id → id < b.next ∧ b.topic id = topic ∧ Latest b id
  registered : ∀ {id}, id < b.next → b.closed id = false → Latest b id → b.subscribers.lookup (b.topic id) = some id

/-! ## Closing -/

section Clear

variable (b : Broker)

theorem foldl_unsubscribe (ids : List ℕ) (b : Broker) :
    ids.foldl (fun b id => unsubscribe b id false) b =
      { b with closed := fun id => b.closed id || decide (id ∈ ids) } := by
  induction ids generalizing b with
  | nil => simp
  | cons i ids ih =>
    rw [List.foldl_cons, ih]
    simp only [unsubscribe, closeLocked]
    congr 1
    funext id
    by_cases hid : id = i
    · simp [hid]
    · simp [hid]

theorem mem_entries_iff (id : ℕ) :
    id ∈ b.subscribers.entries.map Sigma.snd ↔ ∃ topic, b.subscribers.lookup topic = some id := by
  simp only [List.mem_map, Sigma.exists, exists_eq_right]
  exact exists_congr fun topic => (AList.mem_lookup_iff (s := b.subscribers)).symm

theorem clear_eq :
    clear b = { b with
      subscribers := ∅
      closed := fun id => b.closed id || decide (id ∈ b.subscribers.entries.map Sigma.snd) } := by
  rw [clear, foldl_unsubscribe]

end Clear

section

variable {b : Broker}

theorem disconnect_closed (hconn : b.connected) (id : ℕ) :
    (disconnect b).closed id ↔ b.closed id ∨ ∃ topic, b.subscribers.lookup topic = some id := by
  simp only [disconnect, hconn, if_true, clear_eq, Bool.or_eq_true, decide_eq_true_eq, mem_entries_iff]

theorem kept_disconnect_iff (h : Inv b) : Kept b .disconnect ↔ Orderly b .disconnect := by
  by_cases hconn : b.connected
  · have hnext : (disconnect b).next = b.next := by simp [disconnect, hconn, clear_eq]
    simp only [Kept, step, hnext, disconnect_closed hconn]
    constructor
    · intro hkept
      refine .inr ⟨hconn, fun id hid hopen => ?_⟩
      obtain ⟨topic, hlookup⟩ := (hkept id hid).resolve_left (by simp [hopen])
      exact (h.entry hlookup).2.2
    · rintro (hall | ⟨-, hlatest⟩) id hid
      · exact .inl (hall id hid)
      · cases hopen : b.closed id with
        | true => exact .inl rfl
        | false => exact .inr ⟨_, h.registered hid hopen (hlatest id hid hopen)⟩
  · simp [Kept, Orderly, step, disconnect, hconn]

theorem kept_unsubscribe_iff (id : ℕ) (r : Bool) :
    Kept b (.unsubscribe id r) ↔ Orderly b (.unsubscribe id r) := by
  cases r with
  | false =>
    refine iff_of_true (fun topic other hlookup _ => ?_) trivial
    by_cases hid : id < b.next
    · simpa [step, hid, unsubscribe, closeLocked] using hlookup
    · simpa [step, hid] using hlookup
  | true =>
    by_cases hid : id < b.next
    · simp only [Kept, Orderly, step, hid, if_true, unsubscribe, closeLocked, true_implies]
      constructor
      · -- an entry of another subscriber at this topic is gone
        intro hkept other hlookup
        by_contra hne
        have hgone := hkept (b.topic id) other hlookup hne
        simp at hgone
      · intro hown topic other hlookup hne
        have htopic : topic ≠ b.topic id := by
          rintro rfl
          exact hne (hown other hlookup)
        rwa [AList.lookup_erase_ne htopic]
    · refine iff_of_true (fun topic other hlookup _ => ?_) fun hlt => absurd hlt hid
      simpa [step, hid] using hlookup

theorem kept_iff (h : Inv b) (op : Op) : Kept b op ↔ Orderly b op := by
  cases op with
  | disconnect => exact kept_disconnect_iff h
  | unsubscribe id r => exact kept_unsubscribe_iff id r
  | _ => exact Iff.rfl

/-! ## The invariant -/

theorem inv_newBroker (addrs : List String) : Inv (newBroker addrs) := by
  constructor <;> simp [newBroker]

theorem inv_connect (h : Inv b) : Inv (connect b).2 := by
  unfold connect
  split_ifs
  · exact h
  · exact h
  · exact ⟨h.entry, h.registered⟩

theorem inv_subscribe (h : Inv b) (topic : String) : Inv (subscribe b topic).2 := by
  refine ⟨fun {topic' id} hlookup => ?_, fun {id} hid hopen hlatest => ?_⟩
  · by_cases htopic : topic' = topic
    · subst htopic
      obtain rfl : b.next = id := by simpa [subscribe] using hlookup
      exact ⟨Nat.lt_succ_self _, by simp [subscribe], fun other hother _ => Nat.le_of_lt_succ hother⟩
    · obtain ⟨hid, htop, hlatest⟩ := h.entry (by simpa [subscribe, AList.lookup_insert_ne htopic] using hlookup)
      have htop' : (subscribe b topic).2.topic id = topic' := by
        simp [subscribe, Function.update_of_ne hid.ne, htop]
      refine ⟨Nat.lt_succ_of_lt hid, htop', fun other hother heq => ?_⟩
      rw [htop'] at heq
      rcases Nat.lt_succ_iff_lt_or_eq.1 hother with hlt | rfl
      · exact hlatest other hlt (by simpa [subscribe, Function.update_of_ne hlt.ne, htop] using heq)
      · exact absurd (by simpa [subscribe] using heq.symm) htopic
  · rcases Nat.lt_succ_iff_lt_or_eq.1 hid with hlt | rfl
    · have htop : (subscribe b topic).2.topic id = b.topic id := by simp [subscribe, Function.update_of_ne hlt.ne]
      -- a subscriber of this topic is not the last one any more
      have hne : b.topic id ≠ topic := by
        intro heq
        have hle := hlatest b.next (Nat.lt_succ_self _) (by rw [htop, heq]; simp [subscribe])
        omega
      have hold : Latest b id := by
        intro other hother heq
        refine hlatest other (Nat.lt_succ_of_lt hother) ?_
        rw [htop]
        simpa [subscribe, Function.update_of_ne hother.ne] using heq
      have hreg := h.registered hlt (by simpa [subscribe, Function.update_of_ne hlt.ne] using hopen) hold
      rw [htop]
      simpa [subscribe, AList.lookup_insert_ne hne] using hreg
    · have htop : (subscribe b topic).2.topic b.next = topic := by simp [subscribe]
      rw [htop]
      simp [subscribe]

theorem inv_closeLocked (h : Inv b) (id : ℕ) : Inv (closeLocked b id) := by
  refine ⟨h.entry, fun {other} hother hopen hlatest => h.registered hother ?_ hlatest⟩
  by_cases heq : other = id
  · simp [closeLocked, heq] at hopen
  · simpa [closeLocked, Function.update_of_ne heq] using hopen

theorem inv_unsubscribe (h : Inv b) {id : ℕ} {r : Bool} (hid : id < b.next) (hc : Orderly b (.unsubscribe id r)) :
    Inv (unsubscribe b id r) := by
  cases r with
  | false => exact inv_closeLocked h id
  | true =>
    have hclosed := inv_closeLocked h id
    refine ⟨fun {topic other} hlookup => ?_, fun {other} hother hopen hlatest => ?_⟩
    · have htopic : topic ≠ b.topic id := by
        rintro rfl
        simp [unsubscribe, closeLocked] at hlookup
      exact h.entry (by simpa [unsubscribe, closeLocked, AList.lookup_erase_ne htopic] using hlookup)
    · have hreg : b.subscribers.lookup (b.topic other) = some other := hclosed.registered hother hopen hlatest
      have htopic : b.topic other ≠ b.topic id := by
        intro heq
        obtain rfl := hc hid other (heq ▸ hreg)
        simp [unsubscribe, closeLocked] at hopen
      simpa [unsubscribe, closeLocked, AList.lookup_erase_ne htopic] using hreg

theorem inv_disconnect (h : Inv b) : Inv (disconnect b) := by
  by_cases hconn : b.connected
  · have hsubs : (disconnect b).subscribers = ∅ := by simp [disconnect, hconn, clear_eq]
    have hnext : (disconnect b).next = b.next := by simp [disconnect, hconn, clear_eq]
    have htopic : (disconnect b).topic = b.topic := by simp [disconnect, hconn, clear_eq]
    refine ⟨by simp [hsubs], fun {id} hid hopen hlatest => ?_⟩
    have hclosed := disconnect_closed hconn id
    rw [hopen] at hclosed
    simp only [Bool.false_eq_true, false_iff, not_or, Bool.not_eq_true, not_exists] at hclosed
    obtain ⟨hopen', hunregistered⟩ := hclosed
    rw [hnext] at hid
    simp only [Latest, hnext, htopic] at hlatest
    exact absurd (h.registered hid hopen' hlatest) (hunregistered _)
  · simpa [disconnect, hconn] using h

theorem inv_step {op : Op} (h : Inv b) (hc : Orderly b op) : Inv (step b op) := by
  cases op with
  | connect => exact inv_connect h
  | subscribe topic => exact inv_subscribe h topic
  | unsubscribe id r =>
    by_cases hid : id < b.next
    · simpa [step, hid] using inv_unsubscribe h hid hc
    · simpa [step, hid] using h
  | contextDone id =>
    by_cases hid : id < b.next
    · simpa [step, hid] using inv_closeLocked h id
    · simpa [step, hid] using h
  | disconnect => exact inv_disconnect h

end

/-- **When the registry is right.** After each Disconnect every subscriber is closed and each Unsubscribe leaves the
entries of others, if and only if none is unsubscribed with removal while another one is registered for its topic, and
at each Disconnect none is open, or the broker is connected and every open one is the last of its topic. -/
theorem registry_iff (addrs : List String) (ops : List Op) :
    Along step Kept (newBroker addrs) ops ↔ Along step Orderly (newBroker addrs) ops :=
  along_iff_along (I := Inv) (fun _ _ => inv_step) (fun _ op h => kept_iff h op) (inv_newBroker addrs) ops

def broker : Broker := (connect (newBroker ["localhost:9092"])).2

/-- **Subscribers that stay open**: the first of two of a topic; both, once the first has removed the entry of the
second; and one of a broker that is not connected. -/
theorem left_open :
    ((run step broker [.subscribe "a", .subscribe "a", .disconnect]).closed 0 = false ∧
      (run step broker [.subscribe "a", .subscribe "a", .disconnect]).closed 1 = true ∧
      ¬ Along step Kept broker [.subscribe "a", .subscribe "a", .disconnect]) ∧
    ((run step broker [.subscribe "a", .subscribe "a"]).subscribers.lookup "a" = some 1 ∧
      (run step broker [.subscribe "a", .subscribe "a", .unsubscribe 0 true]).subscribers.lookup "a" = none ∧
      (run step broker [.subscribe "a", .subscribe "a", .unsubscribe 0 true, .disconnect]).closed 1 = false) ∧
    (run step (newBroker ["localhost:9092"]) [.subscribe "a", .disconnect]).closed 0 = false := by
  refine ⟨⟨by decide, by decide, fun h => ?_⟩, ⟨by decide, by decide, by decide⟩, by decide⟩
  exact absurd (h.2.2.1 0 (by decide)) (by decide)

end LuluExt.KafkaBroker
