/-
Who owns the writers of the Kafka producer, when messages are published concurrently.

A call of Publish takes the writer of its slot (one for the broker, or one for each topic), or makes one, and writes
outside the lock. When the write of a cached writer fails, the call closes it and empties the slot under the lock, makes
a new writer outside it, and stores that one under the lock again when a retry succeeds. In between other calls find the
slot empty, or are at the same point themselves. With one writer for the broker a call reads the slot again whenever it
writes or closes; with one for each topic it keeps the writer it found. Disconnect closes all writers and drops the map,
which Connect does not make again.

Calls are interleaved with each other and with Disconnect and Connect; a section under the lock is one step, and so is
each call of the client library, whose result is an input. A panic ends the process. The slots of both modes are one
table here, with the topic as the key, or none for the writer of the broker.
-/
import LuluExt.Broker.KafkaProducer
import LuluExt.Lib.Run
import Mathlib.Data.List.AList

namespace LuluExt.KafkaWriters

open Run Kafka

/-! ## Model -/

structure Config where
  enableOneTopicOneWriter : Bool
  retriesCount : ℤ
deriving DecidableEq, Repr

inductive Phase where
  /-- the first one, with a writer that was there or a new one -/
  | first (cached : Bool)
  /-- the second one, after a temporary error of a new writer -/
  | again
deriving DecidableEq, Repr

/-- where a call of Publish is; `writer` is the writer that it found, in the mode that keeps it -/
inductive Pc where
  | idle
  | acquire (topic : String)
  | write (topic : String) (phase : Phase) (writer : Option ℕ)
  | writing (topic : String) (phase : Phase) (w : ℕ)
  | replace (topic : String) (writer : Option ℕ)
  | create (topic : String)
  /-- in the loop of the retries, with those left, and whether one has failed -/
  | retry (topic : String) (w : ℕ) (left : ℕ) (failed : Bool)
  | store (topic : String) (w : ℕ)
  | closeNew (w : ℕ)
deriving DecidableEq, Repr

def Pc.uses : Pc → List ℕ
  | .write _ _ writer | .replace _ writer => writer.toList
  | .writing _ _ w | .retry _ w _ _ | .store _ w | .closeNew w => [w]
  | .idle | .acquire _ | .create _ => []

structure Broker where
  /-- `Writer` at none, `Writers` at the topics -/
  slots : AList fun _ : Option String => ℕ
  nilMap : Bool
  created : ℕ
  closed : List ℕ
  connected : Bool
  /-- calls of Disconnect before their lock -/
  leaving : ℕ
  calls : ℕ → Pc
  crashed : Bool

def initial : Broker := ⟨∅, false, 0, [], false, 0, fun _ => .idle, false⟩

inductive Op where
  | publish (i : ℕ) (topic : String)
  /-- the next step of a call, with the result of the client library -/
  | advance (i : ℕ) (result : Option Failure)
  | connect
  | disconnect
  /-- the section of Disconnect under the lock -/
  | shutdown
deriving DecidableEq, Repr

variable (cfg : Config)

def Config.key (topic : String) : Option String := if cfg.enableOneTopicOneWriter then some topic else none

def Config.kept (w : ℕ) : Option ℕ := if cfg.enableOneTopicOneWriter then some w else none

namespace Broker

variable (s : Broker) (i : ℕ)

def set (pc : Pc) : Broker := { s with calls := Function.update s.calls i pc }

def crash : Broker := { s with crashed := true }

def slot (topic : String) : Option ℕ := s.slots.lookup (cfg.key topic)

/-- the store into the slot of a topic panics when it is one of the nil map -/
def put (topic : String) (w : ℕ) (pc : Pc) : Broker :=
  if cfg.enableOneTopicOneWriter = true ∧ s.nilMap = true then s.crash
  else { s with slots := s.slots.insert (cfg.key topic) w }.set i pc

def acquire (topic : String) : Broker :=
  match s.slot cfg topic with
  | some w => s.set i (.write topic (.first true) (cfg.kept w))
  | none =>
    { s with created := s.created + 1 }.put cfg i topic s.created
      (.write topic (.first false) (cfg.kept s.created))

def wrote (topic : String) (phase : Phase) (w : ℕ) (result : Option Failure) : Pc :=
  match result, phase with
  | none, _ => .idle
  | some _, .again => .idle
  | some e, .first false => if e.retryable then .write topic .again (cfg.kept w) else .idle
  | some _, .first true => .replace topic (cfg.kept w)

def replace (topic : String) (w : ℕ) (result : Option Failure) : Broker :=
  let s := { s with closed := s.closed ++ [w] }
  match result with
  | some _ => s.set i .idle
  | none => { s with slots := s.slots.erase (cfg.key topic) }.set i (.create topic)

def advance (result : Option Failure) : Broker :=
  match s.calls i with
  | .idle => s
  | .acquire topic => s.acquire cfg i topic
  | .write topic phase writer =>
    match writer.or (s.slot cfg topic) with
    | none => s.crash
    | some w => s.set i (.writing topic phase w)
  | .writing topic phase w => s.set i (wrote cfg topic phase w result)
  | .replace topic writer =>
    match writer.or (s.slot cfg topic) with
    | none => s.crash
    | some w => s.replace cfg i topic w result
  | .create topic =>
    { s with created := s.created + 1 }.set i (.retry topic s.created cfg.retriesCount.toNat false)
  | .retry _ w 0 failed => s.set i (if failed then .closeNew w else .idle)
  | .retry topic w (left + 1) _ =>
    match result with
    | none => s.set i (.store topic w)
    | some _ => s.set i (.retry topic w left true)
  | .store topic w => s.put cfg i topic w .idle
  | .closeNew w => { s with closed := s.closed ++ [w] }.set i .idle

def stored : List ℕ := s.slots.entries.map Sigma.snd

/-- `Close` of the writers: all are closed, and the map is dropped -/
def shutdown : Broker :=
  { s with
    slots := ∅
    nilMap := true
    closed := s.closed ++ s.stored
    connected := false
    leaving := s.leaving - 1 }

end Broker

def step (s : Broker) (op : Op) : Broker :=
  if s.crashed then s
  else
    match op with
    | .publish i topic => if s.calls i = .idle then s.set i (.acquire topic) else s
    | .advance i result => s.advance cfg i result
    | .connect => { s with connected := true }
    | .disconnect => if s.connected then { s with leaving := s.leaving + 1 } else s
    | .shutdown => if 0 < s.leaving then s.shutdown else s

/-! ## What is required -/

section

variable (s : Broker) (i w : ℕ)

def Stored : Prop := ∃ key, s.slots.lookup key = some w

def Held : Prop := ∃ i, w ∈ (s.calls i).uses

structure Good : Prop where
  running : s.crashed = false
  owned : ∀ w < s.created, Stored s w ∨ Held s w ∨ w ∈ s.closed

/-- closed, or another call has it -/
def Spare : Prop := w ∈ s.closed ∨ ∃ j ≠ i, w ∈ (s.calls j).uses

def Config.CanStore : Prop := cfg.enableOneTopicOneWriter = true → s.nilMap = false

def Orderly (result : Option Failure) : Pc → Prop
  | .acquire topic => s.slot cfg topic = none → cfg.CanStore s
  | .write topic _ writer => (writer.or (s.slot cfg topic)).isSome
  | .writing topic phase w => w ∈ (Broker.wrote cfg topic phase w result).uses ∨ Stored s w ∨ Spare s i w
  | .replace topic writer =>
    ∃ w, writer.or (s.slot cfg topic) = some w ∧
      (result = none → ∀ u, s.slot cfg topic = some u → u = w ∨ Spare s i u)
  | .retry _ _ 0 failed => failed = true
  | .store topic _ => cfg.CanStore s ∧ ∀ u, s.slot cfg topic = some u → Spare s i u
  | _ => True

def Careful : Op → Prop
  | .advance i result => Orderly cfg s i result (s.calls i)
  | _ => True

end

/-! ## The invariant -/

/-- the writer that a call has made and nobody else knows -/
def Pc.fresh : Pc → List ℕ
  | .retry _ w _ _ | .store _ w | .closeNew w => [w]
  | _ => []

/-- in no slot, not closed, and no other call has it -/
def Unknown (s : Broker) (i w : ℕ) : Prop := ¬ Stored s w ∧ w ∉ s.closed ∧ ∀ j ≠ i, w ∉ (s.calls j).uses

structure Inv (s : Broker) : Prop extends Good s where
  slotsBelow : ∀ w, Stored s w → w < s.created
  usesBelow : ∀ i, ∀ w ∈ (s.calls i).uses, w < s.created
  closedBelow : ∀ w ∈ s.closed, w < s.created
  unique : ∀ key key' w, s.slots.lookup key = some w → s.slots.lookup key' = some w → key = key'
  exclusive : ∀ i, ∀ w ∈ (s.calls i).fresh, Unknown s i w

theorem inv_initial : Inv initial where
  running := rfl
  owned := nofun
  slotsBelow := by simp [Stored, initial]
  usesBelow := by simp [initial, Pc.uses]
  closedBelow := by simp [initial]
  unique := by simp [initial]
  exclusive := by simp [initial, Pc.fresh]

section

variable {cfg} {s : Broker} {i w : ℕ} {pc : Pc} {topic : String} {result : Option Failure}

theorem uses_of_fresh (h : w ∈ pc.fresh) : w ∈ pc.uses := by
  cases pc with
  | retry | store | closeNew => exact h
  | _ => cases h

theorem mem_stored : w ∈ s.stored ↔ Stored s w := by
  simp only [Broker.stored, List.mem_map, Stored, ← Option.mem_def, AList.mem_lookup_iff]
  constructor
  · rintro ⟨⟨key, w⟩, hmem, rfl⟩
    exact ⟨key, hmem⟩
  · rintro ⟨key, hmem⟩
    exact ⟨⟨key, w⟩, hmem, rfl⟩

@[simp] theorem set_calls_self (s : Broker) (i : ℕ) (pc : Pc) : (s.set i pc).calls i = pc := by
  simp [Broker.set]

theorem set_calls_of_ne {j : ℕ} (h : j ≠ i) (s : Broker) (pc : Pc) : (s.set i pc).calls j = s.calls j := by
  simp [Broker.set, h]

theorem set_slots_set (pc : Pc) {pc' : Pc} {slots : AList fun _ : Option String => ℕ} :
    { s.set i pc with slots }.set i pc' = { s with slots }.set i pc' := by
  simp [Broker.set]

theorem held_set : Held (s.set i pc) w ↔ w ∈ pc.uses ∨ ∃ j ≠ i, w ∈ (s.calls j).uses :=
  Function.exists_update_iff s.calls fun _ pc => w ∈ pc.uses

theorem Held.elim (h : Held s w) (i : ℕ) : w ∈ (s.calls i).uses ∨ ∃ j ≠ i, w ∈ (s.calls j).uses := by
  obtain ⟨j, hj⟩ := h
  by_cases hji : j = i
  · exact .inl (hji ▸ hj)
  · exact .inr ⟨j, hji, hj⟩

theorem forall_set {P : ℕ → Pc → Prop} (hi : P i pc) (hothers : ∀ j ≠ i, P j (s.calls j)) (j : ℕ) :
    P j ((s.set i pc).calls j) :=
  (Function.forall_update_iff s.calls P).2 ⟨hi, hothers⟩ j

theorem Unknown.set_self (h : Unknown s i w) : Unknown (s.set i pc) i w := by
  refine ⟨h.1, h.2.1, fun j hj => ?_⟩
  rw [set_calls_of_ne hj]
  exact h.2.2 j hj

theorem Unknown.set {j : ℕ} (h : Unknown s j w) (hpc : w ∉ pc.uses) : Unknown (s.set i pc) j w :=
  ⟨h.1, h.2.1, forall_set (P := fun k pc => k ≠ j → w ∉ pc.uses) (fun _ => hpc) fun k _ => h.2.2 k⟩

theorem Inv.unknown_created (h : Inv s) (i : ℕ) : Unknown s i s.created :=
  ⟨fun hs => lt_irrefl _ (h.slotsBelow _ hs), fun hc => lt_irrefl _ (h.closedBelow _ hc),
    fun j _ hj => lt_irrefl _ (h.usesBelow j _ hj)⟩

/-- A call goes on; what it lets go of is in a slot, closed or in use elsewhere. -/
theorem Inv.move (h : Inv s) (huses : ∀ w ∈ pc.uses, w ∈ (s.calls i).uses ∨ Stored s w)
    (hreleased : ∀ w ∈ (s.calls i).uses, w ∈ pc.uses ∨ Stored s w ∨ Spare s i w)
    (hfresh : ∀ w ∈ pc.fresh, w ∈ (s.calls i).fresh) : Inv (s.set i pc) := by
  refine ⟨⟨h.running, fun w hw => ?_⟩, h.slotsBelow, ?_, h.closedBelow, h.unique, ?_⟩
  · rcases h.owned w hw with hs | hh | hc
    · exact .inl hs
    · rcases hh.elim i with hi | hj
      · rcases hreleased w hi with hp | hs | hc | hj
        · exact .inr (.inl (held_set.2 (.inl hp)))
        · exact .inl hs
        · exact .inr (.inr hc)
        · exact .inr (.inl (held_set.2 (.inr hj)))
      · exact .inr (.inl (held_set.2 (.inr hj)))
    · exact .inr (.inr hc)
  · exact forall_set (P := fun _ pc => ∀ w ∈ pc.uses, w < s.created)
      (fun w hw => (huses w hw).elim (h.usesBelow i w) (h.slotsBelow w)) fun j _ => h.usesBelow j
  · refine forall_set (P := fun j p => ∀ w ∈ p.fresh, Unknown (s.set i pc) j w)
      (fun w hw => (h.exclusive i w (hfresh w hw)).set_self) fun j hji w hw => ?_
    have hunknown := h.exclusive j w hw
    exact hunknown.set fun hpc => (huses w hpc).elim (hunknown.2.2 i (Ne.symm hji)) hunknown.1

/-- Writers are closed that no call has for itself. -/
theorem Inv.close (h : Inv s) {ws : List ℕ} (hws : ∀ w ∈ ws, w < s.created ∧ ∀ j, w ∉ (s.calls j).fresh) :
    Inv { s with closed := s.closed ++ ws } := by
  have hclosed {w : ℕ} (hw : w ∈ s.closed) : w ∈ s.closed ++ ws := List.mem_append_left _ hw
  refine { h with
    owned := fun u hu => (h.owned u hu).imp_right (·.imp_right hclosed)
    closedBelow := fun u hu => (List.mem_append.1 hu).elim (h.closedBelow u) fun hu => (hws u hu).1
    exclusive := fun j u hu => ?_ }
  obtain ⟨hs, hc, hothers⟩ := h.exclusive j u hu
  exact ⟨hs, fun hmem => (List.mem_append.1 hmem).elim hc fun hmem => (hws u hmem).2 j hu, hothers⟩

/-- Slots are emptied; what was there is in use or closed. -/
theorem Inv.drop (h : Inv s) {slots : AList fun _ : Option String => ℕ}
    (hslots : ∀ key w, slots.lookup key = some w → s.slots.lookup key = some w)
    (hleft : ∀ w, Stored s w → Stored { s with slots } w ∨ Held s w ∨ w ∈ s.closed) : Inv { s with slots } := by
  have hstored : ∀ w, Stored { s with slots } w → Stored s w := fun w ⟨key, hkey⟩ => ⟨key, hslots key w hkey⟩
  exact { h with
    owned := fun u hu => (h.owned u hu).elim (hleft u) .inr
    slotsBelow := fun u hu => h.slotsBelow u (hstored u hu)
    unique := fun key key' u hk hk' => h.unique key key' u (hslots key u hk) (hslots key' u hk')
    exclusive := fun j u hu => (h.exclusive j u hu).imp_left fun hs hnow => hs (hstored u hnow) }

theorem Inv.shared (h : Inv s) (hfresh : (s.calls i).fresh = []) (hw : w ∈ (s.calls i).uses ∨ Stored s w) :
    w < s.created ∧ ∀ j, w ∉ (s.calls j).fresh := by
  refine ⟨hw.elim (h.usesBelow i w) (h.slotsBelow w), fun j hj => ?_⟩
  obtain ⟨hs, -, hothers⟩ := h.exclusive j w hj
  rcases hw with hi | hw
  · refine hothers i (fun hij => ?_) hi
    rw [← hij, hfresh] at hj
    cases hj
  · exact hs hw

section Insert

variable {slots : AList fun _ : Option String => ℕ} {key key' : Option String} {u : ℕ}

theorem lookup_insert_elim (h : (slots.insert key w).lookup key' = some u) :
    (key' = key ∧ u = w) ∨ (key' ≠ key ∧ slots.lookup key' = some u) := by
  by_cases hk : key' = key
  · rw [hk, AList.lookup_insert] at h
    exact .inl ⟨hk, (Option.some.inj h).symm⟩
  · rw [AList.lookup_insert_ne hk] at h
    exact .inr ⟨hk, h⟩

theorem lookup_erase_elim (h : (slots.erase key).lookup key' = some u) : slots.lookup key' = some u := by
  by_cases hk : key' = key
  · rw [hk, AList.lookup_erase] at h
    cases h
  · rwa [AList.lookup_erase_ne hk] at h

theorem unique_insert (hunique : ∀ k k' u, slots.lookup k = some u → slots.lookup k' = some u → k = k')
    (hnew : ∀ k, slots.lookup k ≠ some w) {k k' : Option String} (hk : (slots.insert key w).lookup k = some u)
    (hk' : (slots.insert key w).lookup k' = some u) : k = k' := by
  rcases lookup_insert_elim hk with ⟨rfl, rfl⟩ | ⟨hne, hold⟩
  · rcases lookup_insert_elim hk' with ⟨rfl, -⟩ | ⟨-, hold'⟩
    · rfl
    · exact absurd hold' (hnew k')
  · rcases lookup_insert_elim hk' with ⟨rfl, rfl⟩ | ⟨-, hold'⟩
    · exact absurd hold (hnew k)
    · exact hunique k k' u hold hold'

end Insert

/-- the call makes a writer -/
theorem Inv.create (h : Inv s) (hnone : (s.calls i).uses = []) (huses : pc.uses = [s.created])
    (hfresh : pc.fresh = [s.created]) : Inv ({ s with created := s.created + 1 }.set i pc) := by
  have hlt : ∀ {u}, u < s.created → u < s.created + 1 := fun hu => Nat.lt_succ_of_lt hu
  refine ⟨⟨h.running, fun u hu => ?_⟩, fun u hu => hlt (h.slotsBelow u hu), ?_, fun u hu => hlt (h.closedBelow u hu),
    h.unique, ?_⟩
  · rcases Nat.lt_succ_iff_lt_or_eq.1 hu with hu | rfl
    · refine (h.owned u hu).imp_right fun hrest => hrest.imp_left fun hh => held_set.2 (.inr ?_)
      exact (hh.elim i).resolve_left (by simp [hnone])
    · exact .inr (.inl (held_set.2 (.inl (by simp [huses]))))
  · refine forall_set (P := fun _ p => ∀ u ∈ p.uses, u < s.created + 1) (fun u hu => ?_) fun j _ u hu => ?_
    · rw [huses] at hu
      rw [List.mem_singleton.1 hu]
      exact Nat.lt_succ_self _
    · exact hlt (h.usesBelow j u hu)
  · refine forall_set (P := fun j p => ∀ u ∈ p.fresh, Unknown ({ s with created := s.created + 1 }.set i pc) j u)
      (fun u hu => ?_) fun j _ u hu => ?_
    · rw [hfresh] at hu
      rw [List.mem_singleton.1 hu]
      exact Unknown.set_self (h.unknown_created i)
    · refine Unknown.set (h.exclusive j u hu) fun hmem => ?_
      rw [huses] at hmem
      rw [List.mem_singleton.1 hmem] at hu
      exact lt_irrefl _ (h.usesBelow j _ (uses_of_fresh hu))

/-- The writer that only this call knows is stored; what it overwrites is closed or in use elsewhere. -/
theorem Inv.insert (h : Inv s) {key : Option String} (hmine : (s.calls i).uses = [w]) (hw : w ∈ (s.calls i).fresh)
    (hover : ∀ u, s.slots.lookup key = some u → Spare s i u) (huses : ∀ u ∈ pc.uses, u = w) (hfresh : pc.fresh = []) :
    Inv ({ s with slots := s.slots.insert key w }.set i pc) := by
  have hunknown : Unknown s i w := h.exclusive i w hw
  have hbelow : w < s.created := h.usesBelow i w (uses_of_fresh hw)
  have hkey : (s.slots.insert key w).lookup key = some w := AList.lookup_insert _
  have hnow : ∀ u, Stored { s with slots := s.slots.insert key w } u → u = w ∨ Stored s u := by
    rintro u ⟨key', hu⟩
    exact (lookup_insert_elim hu).imp And.right fun hold => ⟨key', hold.2⟩
  refine ⟨⟨h.running, fun u hu => ?_⟩, fun u hu => ?_, ?_, h.closedBelow,
    fun k k' u hk hk' => unique_insert h.unique (fun k hk => hunknown.1 ⟨k, hk⟩) hk hk', ?_⟩
  · rcases h.owned u hu with ⟨key', hs⟩ | hh | hc
    · by_cases hk : key' = key
      · subst hk
        exact .inr ((hover u hs).symm.imp_left fun hj => held_set.2 (.inr hj))
      · exact .inl ⟨key', (AList.lookup_insert_ne hk).trans hs⟩
    · rcases hh.elim i with hi | hj
      · rw [hmine] at hi
        exact .inl ⟨key, by rw [List.mem_singleton.1 hi]; exact hkey⟩
      · exact .inr (.inl (held_set.2 (.inr hj)))
    · exact .inr (.inr hc)
  · rcases hnow u hu with rfl | hs
    · exact hbelow
    · exact h.slotsBelow u hs
  · refine forall_set (P := fun _ p => ∀ u ∈ p.uses, u < s.created) (fun u hu => ?_) fun j _ => h.usesBelow j
    rwa [huses u hu]
  · refine forall_set (P := fun j p => ∀ u ∈ p.fresh,
      Unknown ({ s with slots := s.slots.insert key w }.set i pc) j u) (fun u hu => nomatch hfresh ▸ hu)
      fun j hji u hu => ?_
    have hne : u ≠ w := by
      rintro rfl
      exact hunknown.2.2 j hji (uses_of_fresh hu)
    obtain ⟨hs, hc, hothers⟩ := h.exclusive j u hu
    exact Unknown.set ⟨fun hu => (hnow u hu).elim hne hs, hc, hothers⟩ fun hpc => hne (huses u hpc)

/-! ## Steps of a call -/

variable {u : ℕ}

theorem mem_kept (h : u ∈ (cfg.kept w).toList) : u = w := by
  unfold Config.kept at h
  split_ifs at h
  · exact List.mem_singleton.1 h
  · cases h

variable {phase : Phase}

theorem uses_wrote (h : u ∈ (Broker.wrote cfg topic phase w result).uses) : u = w := by
  unfold Broker.wrote at h
  split at h
  · cases h
  · cases h
  · split_ifs at h
    · exact mem_kept h
    · cases h
  · exact mem_kept h

theorem fresh_wrote (cfg : Config) (topic : String) (phase : Phase) (w : ℕ) (result : Option Failure) :
    (Broker.wrote cfg topic phase w result).fresh = [] := by
  unfold Broker.wrote
  split <;> try split_ifs
  all_goals rfl

theorem put_of_canStore (h : cfg.CanStore s) :
    s.put cfg i topic w pc = { s with slots := s.slots.insert (cfg.key topic) w }.set i pc := by
  unfold Broker.put
  rw [if_neg]
  rintro ⟨hmode, hnil⟩
  rw [h hmode] at hnil
  cases hnil

theorem put_crashes (h : ¬ cfg.CanStore s) : (s.put cfg i topic w pc).crashed := by
  simp only [Config.CanStore, Classical.not_imp, Bool.not_eq_false] at h
  unfold Broker.put
  rw [if_pos h]
  rfl

theorem inv_acquire (h : Inv s) (hpc : s.calls i = .acquire topic)
    (hstore : s.slot cfg topic = none → cfg.CanStore s) : Inv (s.acquire cfg i topic) := by
  have hnone : (s.calls i).uses = [] := by rw [hpc]; rfl
  unfold Broker.acquire
  cases hslot : s.slot cfg topic with
  | some w =>
    refine h.move (fun u hu => ?_) (fun u hu => ?_) (fun u hu => by cases hu)
    · exact .inr ⟨cfg.key topic, by rw [mem_kept hu]; exact hslot⟩
    · rw [hnone] at hu
      cases hu
  | none =>
    have hcan : cfg.CanStore { s with created := s.created + 1 } := hstore hslot
    -- as if the call made the writer first and then stored it
    have hmade : Inv ({ s with created := s.created + 1 }.set i (.store topic s.created)) := h.create hnone rfl rfl
    rw [put_of_canStore hcan, ← set_slots_set (.store topic s.created)]
    refine hmade.insert (by rw [set_calls_self]; rfl) ?_ (fun u hu => ?_) (fun u hu => mem_kept hu) rfl
    · rw [set_calls_self]
      exact List.mem_singleton_self _
    · exact absurd (hslot.symm.trans hu) nofun

/-- the writer that is used or closed is the one that the call keeps, or the one in the slot -/
theorem target_known {writer : Option ℕ} (huses : (s.calls i).uses = writer.toList)
    (htarget : writer.or (s.slot cfg topic) = some w) : w ∈ (s.calls i).uses ∨ Stored s w := by
  rw [huses]
  cases writer with
  | some u =>
    obtain rfl : u = w := Option.some.inj htarget
    exact .inl (List.mem_singleton_self u)
  | none => exact .inr ⟨cfg.key topic, htarget⟩

theorem eq_target {writer : Option ℕ} (huses : (s.calls i).uses = writer.toList)
    (htarget : writer.or (s.slot cfg topic) = some w) (hu : u ∈ (s.calls i).uses) : u = w := by
  rw [huses] at hu
  obtain rfl := Option.mem_toList.1 hu
  exact Option.some.inj htarget

theorem inv_replace (h : Inv s) {writer : Option ℕ} (hpc : s.calls i = .replace topic writer)
    (htarget : writer.or (s.slot cfg topic) = some w)
    (hdeleted : result = none → ∀ u, s.slot cfg topic = some u → u = w ∨ Spare s i u) :
    Inv (s.replace cfg i topic w result) := by
  have huses : (s.calls i).uses = writer.toList := by rw [hpc]; rfl
  have hw : w ∈ s.closed ++ [w] := List.mem_append_right _ (List.mem_singleton_self w)
  have hmine : ∀ u ∈ (s.calls i).uses, u ∈ s.closed ++ [w] := fun u hu => (eq_target huses htarget hu) ▸ hw
  have hclosed : Inv { s with closed := s.closed ++ [w] } := h.close fun u hu => by
    rw [List.mem_singleton.1 hu]
    exact h.shared (by rw [hpc]; rfl) (target_known huses htarget)
  cases result with
  | some e =>
    exact hclosed.move (fun u hu => by cases hu) (fun u hu => .inr (.inr (.inl (hmine u hu)))) fun u hu => by cases hu
  | none =>
    have hdropped : Inv { s with closed := s.closed ++ [w], slots := s.slots.erase (cfg.key topic) } := by
      refine hclosed.drop (fun _ _ => lookup_erase_elim) fun u ⟨key, hkey⟩ => ?_
      by_cases hk : key = cfg.key topic
      · subst hk
        rcases hdeleted rfl u hkey with rfl | hc | ⟨j, -, hj⟩
        · exact .inr (.inr hw)
        · exact .inr (.inr (List.mem_append_left _ hc))
        · exact .inr (.inl ⟨j, hj⟩)
      · exact .inl ⟨key, by rwa [AList.lookup_erase_ne hk]⟩
    exact hdropped.move (fun u hu => by cases hu) (fun u hu => .inr (.inr (.inl (hmine u hu)))) fun u hu => by cases hu

theorem inv_store (h : Inv s) (hpc : s.calls i = .store topic w) (hstore : cfg.CanStore s)
    (hover : ∀ u, s.slot cfg topic = some u → Spare s i u) : Inv (s.put cfg i topic w .idle) := by
  rw [put_of_canStore hstore]
  exact h.insert (by rw [hpc]; rfl) (by rw [hpc]; exact List.mem_singleton_self w) hover (fun u hu => by cases hu) rfl

theorem inv_closeNew (h : Inv s) (hpc : s.calls i = .closeNew w) :
    Inv ({ s with closed := s.closed ++ [w] }.set i .idle) := by
  have huses : (s.calls i).uses = [w] := by rw [hpc]; rfl
  -- as if the call gave up the writer first
  have hgiven : Inv (s.set i (.writing "" .again w)) :=
    h.move (fun u hu => .inl (huses ▸ hu)) (fun u hu => .inl (huses ▸ hu : u ∈ [w])) fun u hu => by cases hu
  have huses' : ((s.set i (.writing "" .again w)).calls i).uses = [w] := by rw [set_calls_self]; rfl
  have hclosed : Inv { s.set i (.writing "" .again w) with closed := s.closed ++ [w] } :=
    hgiven.close fun u hu => hgiven.shared (by rw [set_calls_self]; rfl) (.inl (huses' ▸ hu))
  have hmoved : Inv ({ s.set i (.writing "" .again w) with closed := s.closed ++ [w] }.set i .idle) :=
    hclosed.move (fun u hu => by cases hu)
      (fun u hu => .inr (.inr (.inl (List.mem_append_right _ (huses' ▸ hu))))) fun u hu => by cases hu
  simpa [Broker.set] using hmoved

theorem inv_shutdown (h : Inv s) : Inv s.shutdown := by
  have hclosed : Inv { s with closed := s.closed ++ s.stored } :=
    h.close fun w hw => ⟨h.slotsBelow w (mem_stored.1 hw), fun j hj => (h.exclusive j w hj).1 (mem_stored.1 hw)⟩
  have hdropped : Inv { s with closed := s.closed ++ s.stored, slots := ∅ } :=
    hclosed.drop nofun fun w hw => .inr (.inr (List.mem_append_right _ (mem_stored.2 hw)))
  exact { hdropped with }

theorem inv_write (h : Inv s) {writer : Option ℕ} (hpc : s.calls i = .write topic phase writer)
    (htarget : writer.or (s.slot cfg topic) = some w) : Inv (s.set i (.writing topic phase w)) := by
  have huses : (s.calls i).uses = writer.toList := by rw [hpc]; rfl
  refine h.move (fun u hu => ?_) (fun u hu => .inl ?_) (fun u hu => by cases hu)
  · rw [List.mem_singleton.1 hu]
    exact target_known huses htarget
  · rw [eq_target huses htarget hu]
    exact List.mem_singleton_self w

theorem inv_writing (h : Inv s) (hpc : s.calls i = .writing topic phase w)
    (hreleased : w ∈ (Broker.wrote cfg topic phase w result).uses ∨ Stored s w ∨ Spare s i w) :
    Inv (s.set i (Broker.wrote cfg topic phase w result)) := by
  have huses : (s.calls i).uses = [w] := by rw [hpc]; rfl
  refine h.move (fun u hu => .inl ?_) (fun u hu => ?_) (fun u hu => ?_)
  · rw [huses, uses_wrote hu]
    exact List.mem_singleton_self w
  · rw [huses] at hu
    rw [List.mem_singleton.1 hu]
    exact hreleased
  · rw [fresh_wrote] at hu
    cases hu

theorem inv_kept (h : Inv s) (huses : (s.calls i).uses = [w]) (hfresh : (s.calls i).fresh = [w])
    (huses' : pc.uses = [w]) (hfresh' : pc.fresh = [w]) : Inv (s.set i pc) := by
  refine h.move (fun u hu => .inl ?_) (fun u hu => .inl ?_) (fun u hu => ?_)
  · rwa [huses, ← huses']
  · rwa [huses', ← huses]
  · rwa [hfresh, ← hfresh']

theorem inv_advance (h : Inv s) : Orderly cfg s i result (s.calls i) → Inv (s.advance cfg i result) := by
  unfold Broker.advance
  cases hpc : s.calls i with
  | idle => exact fun _ => h
  | acquire topic => exact inv_acquire h hpc
  | write topic phase writer =>
    intro hcareful
    obtain ⟨w, hw⟩ := Option.isSome_iff_exists.1 hcareful
    simp only [hw]
    exact inv_write h hpc hw
  | writing topic phase w => exact inv_writing h hpc
  | replace topic writer =>
    rintro ⟨w, hw, hdeleted⟩
    simp only [hw]
    exact inv_replace h hpc hw hdeleted
  | create topic => exact fun _ => h.create (by rw [hpc]; rfl) rfl rfl
  | retry topic w left failed =>
    have huses : (s.calls i).uses = [w] := by rw [hpc]; rfl
    have hfresh : (s.calls i).fresh = [w] := by rw [hpc]; rfl
    intro hcareful
    cases left with
    | zero =>
      obtain rfl : failed = true := hcareful
      exact inv_kept h huses hfresh rfl rfl
    | succ left => cases result with
      | none | some e => exact inv_kept h huses hfresh rfl rfl
  | store topic w => exact fun hcareful => inv_store h hpc hcareful.1 hcareful.2
  | closeNew w => exact fun _ => inv_closeNew h hpc

theorem inv_step {op : Op} (h : Inv s) (hcareful : Careful cfg s op) : Inv (step cfg s op) := by
  unfold step
  rw [if_neg (by simp [h.running])]
  cases op with
  | publish i topic =>
    refine guard_inv h fun hidle => h.move (fun u hu => by cases hu) (fun u hu => ?_) (fun u hu => by cases hu)
    rw [hidle] at hu
    cases hu
  | advance i result => exact inv_advance h hcareful
  | connect => exact { h with }
  | disconnect => exact guard_inv h fun _ => { h with }
  | shutdown => exact guard_inv h fun _ => inv_shutdown h

/-! ## Steps that lose a writer -/

theorem not_good_of_lost {t : Broker} (hbelow : u < t.created) (hstored : ¬ Stored t u) (hheld : ¬ Held t u)
    (hclosed : u ∉ t.closed) : ¬ Good t := by
  intro hgood
  rcases hgood.owned u hbelow with hs | hh | hc
  · exact hstored hs
  · exact hheld hh
  · exact hclosed hc

theorem not_good_of_crashed {t : Broker} (h : t.crashed) : ¬ Good t := by
  intro hgood
  rw [hgood.running] at h
  cases h

theorem not_good_of_left (h : Inv s) {t : Broker} (hslot : s.slot cfg topic = some u)
    (hcreated : s.created ≤ t.created) (hslots : ∀ key, t.slots.lookup key = some u → s.slots.lookup key = some u)
    (hleft : t.slot cfg topic ≠ some u) (hheld : ¬ Held t u) (hclosed : u ∉ t.closed) : ¬ Good t := by
  refine not_good_of_lost ((h.slotsBelow u ⟨_, hslot⟩).trans_le hcreated) ?_ hheld hclosed
  rintro ⟨key, hkey⟩
  -- it was in no other slot
  obtain rfl : key = cfg.key topic := h.unique key _ u (hslots key hkey) hslot
  exact hleft hkey

theorem not_held_set (hpc : u ∉ pc.uses) (hothers : ¬ ∃ j ≠ i, u ∈ (s.calls j).uses) : ¬ Held (s.set i pc) u := by
  rw [held_set]
  exact not_or.2 ⟨hpc, hothers⟩

theorem not_good_writing (h : Inv s) (hpc : s.calls i = .writing topic phase w)
    (hlost : ¬ (w ∈ (Broker.wrote cfg topic phase w result).uses ∨ Stored s w ∨ Spare s i w)) :
    ¬ Good (s.set i (Broker.wrote cfg topic phase w result)) := by
  obtain ⟨huses, hstored, hspare⟩ : w ∉ _ ∧ ¬ Stored s w ∧ ¬ Spare s i w := by simpa only [not_or] using hlost
  obtain ⟨hopen, hothers⟩ := not_or.1 hspare
  have hbelow : w < s.created := h.usesBelow i w (by rw [hpc]; exact List.mem_singleton_self w)
  exact not_good_of_lost (u := w) hbelow hstored (not_held_set huses hothers) hopen

theorem not_good_replace (h : Inv s) (hslot : s.slot cfg topic = some u) (hne : u ≠ w)
    (hspare : ¬ Spare s i u) : ¬ Good (s.replace cfg i topic w none) := by
  obtain ⟨hopen, hothers⟩ := not_or.1 hspare
  refine not_good_of_left h hslot le_rfl (fun key hkey => lookup_erase_elim hkey) ?_
    (not_held_set List.not_mem_nil hothers) fun hc => ?_
  · have herased : (s.replace cfg i topic w none).slot cfg topic = none := AList.lookup_erase _ _
    rw [herased]
    nofun
  · rcases List.mem_append.1 hc with hc | hc
    · exact hopen hc
    · exact hne (List.mem_singleton.1 hc)

theorem not_good_retry (h : Inv s) {failed : Bool} (hpc : s.calls i = .retry topic w 0 failed) :
    ¬ Good (s.set i .idle) := by
  obtain ⟨hs, hc, hothers⟩ := h.exclusive i w (by rw [hpc]; exact List.mem_singleton_self w)
  have hbelow : w < s.created := h.usesBelow i w (by rw [hpc]; exact List.mem_singleton_self w)
  exact not_good_of_lost (u := w) hbelow hs (not_held_set List.not_mem_nil fun ⟨j, hj, hu⟩ => hothers j hj hu) hc

theorem not_good_store (h : Inv s) (hpc : s.calls i = .store topic w) (hcan : cfg.CanStore s)
    (hslot : s.slot cfg topic = some u) (hspare : ¬ Spare s i u) : ¬ Good (s.put cfg i topic w .idle) := by
  obtain ⟨hs, -, -⟩ := h.exclusive i w (by rw [hpc]; exact List.mem_singleton_self w)
  have hne : u ≠ w := by
    rintro rfl
    exact hs ⟨_, hslot⟩
  obtain ⟨hopen, hothers⟩ := not_or.1 hspare
  rw [put_of_canStore hcan]
  refine not_good_of_left h hslot le_rfl (fun key hkey => ?_) (fun hleft => ?_) (not_held_set List.not_mem_nil hothers)
    hopen
  · rcases lookup_insert_elim hkey with ⟨-, hu⟩ | ⟨-, hold⟩
    · exact absurd hu hne
    · exact hold
  · rcases lookup_insert_elim hleft with ⟨-, hu⟩ | ⟨hother, -⟩
    · exact hne hu
    · exact hother rfl

theorem not_good_advance (h : Inv s) :
    ¬ Orderly cfg s i result (s.calls i) → ¬ Good (s.advance cfg i result) := by
  unfold Broker.advance
  cases hpc : s.calls i with
  | acquire topic =>
    intro hcareful
    obtain ⟨hslot, hcan⟩ := Classical.not_imp.1 hcareful
    simp only [Broker.acquire, hslot]
    exact not_good_of_crashed (put_crashes hcan)
  | write topic phase writer =>
    intro hcareful
    simp only [Option.not_isSome_iff_eq_none.1 hcareful]
    exact not_good_of_crashed rfl
  | writing topic phase w => exact not_good_writing h hpc
  | replace topic writer =>
    intro hcareful
    cases htarget : writer.or (s.slot cfg topic) with
    | none =>
      simp only [htarget]
      exact not_good_of_crashed rfl
    | some w =>
      simp only [Orderly, htarget, Option.some.injEq, exists_eq_left', not_forall, not_or] at hcareful
      obtain ⟨rfl, u, hslot, hne, hspare⟩ := hcareful
      simp only [htarget]
      exact not_good_replace h hslot hne hspare
  | retry topic w left failed =>
    intro hcareful
    cases left with
    | succ left => exact absurd trivial hcareful
    | zero =>
      obtain rfl : failed = false := Bool.eq_false_of_not_eq_true hcareful
      exact not_good_retry h hpc
  | store topic w =>
    intro hcareful
    by_cases hcan : cfg.CanStore s
    · obtain ⟨u, hslot, hspare⟩ : ∃ u, s.slot cfg topic = some u ∧ ¬ Spare s i u := by
        simpa [Orderly, hcan] using hcareful
      exact not_good_store h hpc hcan hslot hspare
    · exact not_good_of_crashed (put_crashes hcan)
  | _ => exact fun hcareful => absurd trivial hcareful

theorem not_good {op : Op} (h : Inv s) (hcareful : ¬ Careful cfg s op) : ¬ Good (step cfg s op) := by
  cases op with
  | advance i result =>
    unfold step
    rw [if_neg (by simp [h.running])]
    exact not_good_advance h hcareful
  | _ => exact absurd trivial hcareful

end

/-- **Ownership.** In both modes and every interleaving: no call panics and every writer made is in a slot, in use or
closed, in every state, if and only if every step is careful. -/
theorem ownership_iff (ops : List Op) :
    Always (step cfg) Good initial ops ↔ Along (step cfg) (Careful cfg) initial ops :=
  always_iff_along_of_inv (I := Inv) (fun _ h => h.toGood) (fun _ _ h hc => inv_step h hc)
    (fun _ _ h hc => not_good h hc) inv_initial ops

def Op.call : Op → Option ℕ
  | .publish i _ | .advance i _ => some i
  | _ => none

section

variable {cfg} {j : ℕ}

theorem advance_calls {i : ℕ} (h : j ≠ i) (s : Broker) (result : Option Failure) :
    (s.advance cfg i result).calls j = s.calls j := by
  unfold Broker.advance Broker.acquire Broker.replace Broker.put Broker.crash
  split <;> repeat' split
  all_goals first | rfl | exact set_calls_of_ne h _ _

theorem step_calls {op : Op} (h : op.call ≠ some j) (s : Broker) : (step cfg s op).calls j = s.calls j := by
  unfold step
  by_cases hcrashed : s.crashed
  · rw [if_pos hcrashed]
  rw [if_neg hcrashed]
  cases op with
  | publish i topic =>
    dsimp only
    split_ifs
    · exact set_calls_of_ne (fun hj => h (congrArg some hj.symm)) _ _
    · rfl
  | advance i result => exact advance_calls (fun hj => h (congrArg some hj.symm)) s result
  | connect => rfl
  | disconnect | shutdown =>
    split_ifs
    all_goals rfl

theorem run_calls {ops : List Op} (h : ∀ op ∈ ops, op.call ≠ some j) (s : Broker) :
    (run (step cfg) s ops).calls j = s.calls j := by
  induction ops generalizing s with
  | nil => rfl
  | cons op ops ih =>
    rw [run_cons, ih fun o ho => h o (List.mem_cons_of_mem op ho)]
    exact step_calls (h op List.mem_cons_self) s

end

def failure : Option Failure := some brokenPipe

/-- a message is published, and after Disconnect and Connect another one -/
def reconnected : List Op :=
  [.connect, .publish 0 "orders", .advance 0 none, .advance 0 none, .advance 0 none, .disconnect, .shutdown, .connect,
    .publish 0 "orders", .advance 0 none]

/-- two calls fail with the writer that a third one has stored, and the first of them closes it -/
def failedTogether : List Op :=
  [.publish 0 "orders", .advance 0 none, .advance 0 none, .advance 0 none, .publish 1 "orders", .publish 2 "orders",
    .advance 1 none, .advance 2 none, .advance 1 none, .advance 2 none, .advance 1 failure, .advance 2 failure,
    .advance 1 none]

theorem not_held {ops : List Op} (hops : ∀ op ∈ ops, ∀ j ∈ op.call, j < 3) {w : ℕ}
    (h : ∀ j < 3, w ∉ ((run (step cfg) initial ops).calls j).uses) : ¬ Held (run (step cfg) initial ops) w := by
  rintro ⟨j, hj⟩
  by_cases hlt : j < 3
  · exact h j hlt hj
  · rw [run_calls fun op hop hcall => hlt (hops op hop j hcall)] at hj
    cases hj

/-- a panic after Disconnect and Connect, one of two calls that fail together, a writer that is deleted from the map,
and one that is forgotten without retries -/
theorem writers_lost :
    (run (step ⟨true, 1⟩) initial reconnected).crashed = true ∧
    (run (step ⟨false, 1⟩) initial (failedTogether ++ [.advance 2 none])).crashed = true ∧
    ¬ Good (run (step ⟨true, 1⟩) initial
      (failedTogether ++ [.advance 1 none, .advance 1 none, .advance 1 none, .advance 2 none])) ∧
    ¬ Good (run (step ⟨false, 0⟩) initial (failedTogether ++ [.advance 1 none, .advance 1 none])) := by
  refine ⟨by decide, by decide, ?_, ?_⟩
  all_goals
    exact not_good_of_lost (u := 1) (by decide) (mem_stored.not.1 (by decide))
      (not_held _ (by decide) (by decide)) (by decide)

end LuluExt.KafkaWriters
