/-
The map of subscribers that all brokers share, used by any number of goroutines.

Remove and Clear take subscribers out of the map under its lock and unsubscribe them afterwards, outside of it. An
Unsubscribe that is to remove the subscriber from its manager calls RemoveOnly with the topic, whoever has the topic by
then: when the topic was added again in between, the new subscriber leaves the map and nobody unsubscribes it.

A section under the lock is one step, and so is each call of Unsubscribe, which a Remove or a Clear, or the
caller who has the subscriber, makes at any later time; the variants with a timeout make the same calls. Beside the map
`step` keeps books, from the call and the map before it: the subscribers of the calls of Add, and those that a call
takes out without anybody to unsubscribe them.
-/
import Mathlib.Data.List.AList
import LuluExt.Lib.Run

namespace LuluExt.SubscriberMap

open Run

/-! ## Model -/

variable {ι : Type}

structure SubscriberSyncMap (ι : Type) where
  m : AList fun _ : String => ι
  /-- the calls of Unsubscribe that Remove and Clear have still to make -/
  pending : List (ι × Bool)
  /-- those whose Unsubscribe has still to call RemoveOnly -/
  removals : List ι
  added : List ι
  unsubscribed : List ι
  released : List ι
  dropped : List ι

def newSubscriberSyncMap : SubscriberSyncMap ι := ⟨∅, [], [], [], [], [], []⟩

inductive Op (ι : Type) where
  | add (topic : String) (sub : ι)
  | remove (topic : String)
  | removeOnly (topic : String)
  | clear
  | forceClear
  /-- a call of Unsubscribe that is pending -/
  | unsubscribe (sub : ι) (removeFromManager : Bool)
  /-- a caller's own `Unsubscribe(true)` -/
  | release (sub : ι)
  /-- the RemoveOnly of an Unsubscribe -/
  | detach (sub : ι)
deriving DecidableEq, Repr

namespace SubscriberSyncMap

def subs (s : SubscriberSyncMap ι) : List ι := s.m.entries.map Sigma.snd

def add (s : SubscriberSyncMap ι) (topic : String) (sub : ι) : SubscriberSyncMap ι :=
  { s with m := s.m.insert topic sub }

/-- Remove and RemoveWithTimeout -/
def remove (s : SubscriberSyncMap ι) (topic : String) : SubscriberSyncMap ι :=
  { s with m := s.m.erase topic, pending := (s.m.lookup topic).toList.map (·, true) ++ s.pending }

def removeOnly (s : SubscriberSyncMap ι) (topic : String) : SubscriberSyncMap ι :=
  { s with m := s.m.erase topic }

/-- Clear and ClearWithTimeout -/
def clear (s : SubscriberSyncMap ι) : SubscriberSyncMap ι :=
  { s with m := ∅, pending := s.subs.map (·, false) ++ s.pending }

def forceClear (s : SubscriberSyncMap ι) : SubscriberSyncMap ι := { s with m := ∅ }

end SubscriberSyncMap

variable [DecidableEq ι] (topicOf : ι → String)

def perform (s : SubscriberSyncMap ι) : Op ι → SubscriberSyncMap ι
  | .add topic sub => s.add topic sub
  | .remove topic => s.remove topic
  | .removeOnly topic => s.removeOnly topic
  | .clear => s.clear
  | .forceClear => s.forceClear
  | .unsubscribe sub flag =>
    if (sub, flag) ∈ s.pending then
      { s with
        pending := s.pending.erase (sub, flag)
        unsubscribed := sub :: s.unsubscribed
        removals := if flag then sub :: s.removals else s.removals }
    else s
  | .release sub => { s with released := sub :: s.released, removals := sub :: s.removals }
  | .detach sub =>
    if sub ∈ s.removals then { s with removals := s.removals.erase sub }.removeOnly (topicOf sub) else s

def adds : Op ι → List ι
  | .add _ sub => [sub]
  | _ => []

/-- an Add overwrites who has the topic, RemoveOnly and ForceClear hand over nobody -/
def discards (s : SubscriberSyncMap ι) : Op ι → List ι
  | .add topic _ | .removeOnly topic => (s.m.lookup topic).toList
  | .forceClear => s.subs
  | .detach sub => if sub ∈ s.removals then (s.m.lookup (topicOf sub)).toList else []
  | _ => []

def step (s : SubscriberSyncMap ι) (op : Op ι) : SubscriberSyncMap ι :=
  { perform topicOf s op with added := adds op ++ s.added, dropped := discards topicOf s op ++ s.dropped }

/-! ## The ledger -/

open SubscriberSyncMap

/-- how often the subscriber is in the map, about to be unsubscribed or unsubscribed by the map -/
def SubscriberSyncMap.held (s : SubscriberSyncMap ι) (sub : ι) : ℕ :=
  s.subs.count sub + (s.pending.map Prod.fst).count sub + s.unsubscribed.count sub

def Balanced (s : SubscriberSyncMap ι) : Prop := ∀ sub, s.added.count sub = s.held sub + s.dropped.count sub

variable {topicOf} {s : SubscriberSyncMap ι}

omit [DecidableEq ι] in
theorem map_fst_pair (l : List ι) (flag : Bool) : (l.map (·, flag)).map Prod.fst = l := by
  simp [Function.comp_def]

theorem count_subs (s : SubscriberSyncMap ι) (topic : String) (i : ι) :
    s.subs.count i =
      ((s.m.erase topic).entries.map Sigma.snd).count i + (s.m.lookup topic).toList.count i := by
  cases hsub : s.m.lookup topic with
  | none =>
    have herase : (s.m.erase topic).entries = s.m.entries := List.kerase_of_notMem_keys (List.dlookup_eq_none.1 hsub)
    simp [subs, herase]
  | some sub =>
    have hkey : topic ∈ s.m.entries.keys := AList.mem_keys.1 (AList.lookup_isSome.1 (by simp [hsub]))
    obtain ⟨sub', l, l', -, hentries, herase⟩ := List.exists_of_kerase hkey
    have hsame : sub' = sub := by
      have hmem : (⟨topic, sub'⟩ : Sigma fun _ : String => ι) ∈ s.m.entries := by simp [hentries]
      simpa [hsub] using (AList.mem_lookup_iff.2 hmem).symm
    have herase : (s.m.erase topic).entries = l ++ l' := herase
    rw [subs, herase, hentries, hsame]
    simp only [List.map_append, List.map_cons, List.count_append, List.count_cons, Option.toList_some, List.count_nil]
    omega

/-- **One call.** Who was held, or is added, is held afterwards or discarded. -/
theorem held_step (s : SubscriberSyncMap ι) (op : Op ι) (i : ι) :
    (adds op).count i + s.held i = (step topicOf s op).held i + (discards topicOf s op).count i := by
  cases op with
  | add topic sub =>
    have hentries : (s.m.insert topic sub).entries = ⟨topic, sub⟩ :: (s.m.erase topic).entries :=
      AList.entries_insert ..
    rw [held, count_subs s topic]
    simp only [step, perform, add, adds, discards, held, subs, hentries, List.map_cons, List.count_cons, List.count_nil]
    omega
  | remove topic =>
    rw [held, count_subs s topic]
    simp only [step, perform, remove, adds, discards, held, subs, map_fst_pair, List.map_append, List.count_append,
      List.count_nil]
    omega
  | removeOnly topic =>
    rw [held, count_subs s topic]
    simp only [step, perform, removeOnly, adds, discards, held, subs, List.count_nil]
    omega
  | clear =>
    simp only [step, perform, clear, adds, discards, held, subs, map_fst_pair, List.map_append, List.count_append,
      AList.empty_entries, List.map_nil, List.count_nil]
    omega
  | forceClear =>
    simp only [step, perform, forceClear, adds, discards, held, subs, AList.empty_entries, List.map_nil, List.count_nil]
    omega
  | unsubscribe sub flag =>
    simp only [step, perform, adds, discards, List.count_nil]
    split
    · rename_i hmem
      have hperm := (List.perm_cons_erase hmem).map Prod.fst |>.count_eq i
      simp only [held, subs, List.map_cons, List.count_cons] at hperm ⊢
      omega
    · simp [held, subs]
  | release sub => simp [step, perform, adds, discards, held, subs]
  | detach sub =>
    simp only [step, perform, adds, discards, List.count_nil]
    split
    · rw [held, count_subs s (topicOf sub)]
      simp only [removeOnly, held, subs]
      omega
    · simp [held, subs]

theorem balanced_step (h : Balanced s) (op : Op ι) : Balanced (step topicOf s op) := by
  intro i
  have hstep : _ = (step topicOf s op).held i + _ := held_step s op i
  have hi := h i
  simp only [step, List.count_append] at hstep ⊢
  omega

theorem added_run (s : SubscriberSyncMap ι) (ops : List (Op ι)) :
    (run (step topicOf) s ops).added = (ops.flatMap adds).reverse ++ s.added := by
  induction ops generalizing s with
  | nil => simp
  | cons op ops ih =>
    have hone : (adds op).reverse = adds op := by cases op <;> rfl
    rw [run_cons, ih, List.flatMap_cons, List.reverse_append, hone, List.append_assoc]
    rfl

/-- **The ledger.** In every interleaving each subscriber is, as often as the calls of Add have added it, in the map,
about to be unsubscribed, unsubscribed by the map, or discarded: overwritten by an Add, or taken out by a RemoveOnly of
its topic or by ForceClear. -/
theorem balanced_run (topicOf : ι → String) (ops : List (Op ι)) (sub : ι) :
    let s := run (step topicOf) newSubscriberSyncMap ops
    (ops.flatMap adds).count sub = s.held sub + s.dropped.count sub := by
  intro s
  have hbalanced : Balanced s := run_inv (I := Balanced) (fun _ op h => balanced_step h op) (fun _ => rfl) ops
  rw [← hbalanced sub, added_run, List.count_append, List.count_reverse]
  rfl

/-! ## Topics that are added once -/

/-- each topic is added once, by the name that its subscriber has; callers unsubscribe what they were given, and call
neither RemoveOnly nor ForceClear -/
def Proper (topicOf : ι → String) (s : SubscriberSyncMap ι) : Op ι → Prop
  | .add topic sub => topic = topicOf sub ∧ ∀ other ∈ s.added, topicOf other ≠ topic
  | .removeOnly _ | .forceClear => False
  | .release sub => sub ∈ s.added
  | _ => True

structure Inv (topicOf : ι → String) (s : SubscriberSyncMap ι) : Prop where
  topics : (s.added.map topicOf).Nodup
  entry : ∀ e ∈ s.m.entries, topicOf e.2 = e.1
  removal : ∀ sub ∈ s.removals, sub ∈ s.added ∧ (sub ∈ s.unsubscribed ∨ sub ∈ s.released)
  kept : s.dropped ⊆ s.released

theorem Balanced.mem_added (h : Balanced s) {sub : ι} (hheld : 0 < s.held sub) : sub ∈ s.added :=
  List.count_pos_iff.1 (by have := h sub; omega)

omit [DecidableEq ι] in
theorem mem_subs {topic : String} {sub : ι} (h : s.m.lookup topic = some sub) : sub ∈ s.subs :=
  List.mem_map_of_mem (f := Sigma.snd) (AList.mem_lookup_iff.1 h)

theorem Inv.held_le (h : Inv topicOf s) (hb : Balanced s) (sub : ι) : s.held sub ≤ 1 := by
  have honce := List.nodup_iff_count_le_one.1 (List.Nodup.of_map _ h.topics) sub
  have hcount := hb sub
  omega

theorem inv_add (h : Inv topicOf s) (hb : Balanced s) {sub : ι}
    (hnew : ∀ other ∈ s.added, topicOf other ≠ topicOf sub) :
    Inv topicOf (step topicOf s (.add (topicOf sub) sub)) := by
  have hfree : s.m.lookup (topicOf sub) = none := by
    by_contra hsome
    obtain ⟨old, hold⟩ := Option.ne_none_iff_exists'.1 hsome
    have hpos := List.count_pos_iff.2 (mem_subs hold)
    refine hnew old (hb.mem_added ?_) (h.entry _ (AList.mem_lookup_iff.1 hold))
    unfold held
    omega
  refine ⟨List.nodup_cons.2 ⟨by simpa using hnew, h.topics⟩, fun e he => ?_, fun i hi => ?_, ?_⟩
  · rw [step, perform, add, AList.entries_insert] at he
    rcases List.mem_cons.1 he with rfl | he
    · rfl
    · exact h.entry e ((List.kerase_sublist _ _).subset he)
  · exact ⟨List.mem_cons_of_mem _ (h.removal i hi).1, (h.removal i hi).2⟩
  · simpa [step, perform, add, discards, hfree] using h.kept

/-- RemoveOnly in an Unsubscribe is about the subscriber itself, since nobody else has the topic -/
theorem lookup_released (h : Inv topicOf s) (hb : Balanced s) {sub i : ι} (hsub : sub ∈ s.removals)
    (hi : s.m.lookup (topicOf sub) = some i) : i ∈ s.released := by
  obtain ⟨hadded, hgone⟩ := h.removal sub hsub
  have hpos := List.count_pos_iff.2 (mem_subs hi)
  have hheld := h.held_le hb i
  unfold held at hheld
  have hsame : sub = i := List.inj_on_of_nodup_map h.topics hadded
    (hb.mem_added (by unfold held; omega)) (h.entry _ (AList.mem_lookup_iff.1 hi)).symm
  subst hsame
  refine hgone.resolve_left fun hmem => ?_
  have hunsubscribed := List.count_pos_iff.2 hmem
  omega

theorem inv_step (hb : Balanced s) (h : Inv topicOf s) {op : Op ι} (hop : Proper topicOf s op) :
    Inv topicOf (step topicOf s op) := by
  cases op with
  | add topic sub =>
    obtain ⟨rfl, hnew⟩ := hop
    exact inv_add h hb hnew
  | remove topic =>
    exact ⟨h.topics, fun e he => h.entry e ((List.kerase_sublist _ _).subset he), h.removal, h.kept⟩
  | removeOnly topic => exact hop.elim
  | clear => exact ⟨h.topics, nofun, h.removal, h.kept⟩
  | forceClear => exact hop.elim
  | unsubscribe sub flag =>
    simp only [step, perform, adds, discards, List.nil_append]
    split
    · rename_i hmem
      have hadded : sub ∈ s.added := by
        have hpos : 0 < (s.pending.map Prod.fst).count sub := List.count_pos_iff.2 (List.mem_map_of_mem hmem)
        exact hb.mem_added (by unfold held; omega)
      refine ⟨h.topics, h.entry, fun i hi => ?_, h.kept⟩
      have hcases : i = sub ∨ i ∈ s.removals := by cases flag <;> simp_all
      rcases hcases with rfl | hi
      · exact ⟨hadded, Or.inl List.mem_cons_self⟩
      · exact ⟨(h.removal i hi).1, (h.removal i hi).2.imp_left (List.mem_cons_of_mem _)⟩
    · exact h
  | release sub =>
    refine ⟨h.topics, h.entry, fun i hi => ?_, fun i hi => List.mem_cons_of_mem _ (h.kept hi)⟩
    rcases List.mem_cons.1 hi with rfl | hi
    · exact ⟨hop, Or.inr List.mem_cons_self⟩
    · exact ⟨(h.removal i hi).1, (h.removal i hi).2.imp_right (List.mem_cons_of_mem _)⟩
  | detach sub =>
    simp only [step, perform, adds, discards, List.nil_append]
    split
    · rename_i hmem
      refine ⟨h.topics, fun e he => h.entry e ((List.kerase_sublist _ _).subset he),
        fun i hi => h.removal i (List.mem_of_mem_erase hi), List.append_subset.2 ⟨fun i hi => ?_, h.kept⟩⟩
      exact lookup_released h hb hmem (by simpa using hi)
    · exact h

/-- **Nobody is lost.** When each topic is added once, then in every interleaving a subscriber is at most once in the
map, about to be unsubscribed or unsubscribed by the map; and it is, if it was added and its caller has not done so. -/
theorem none_lost (topicOf : ι → String) (ops : List (Op ι))
    (hops : Along (step topicOf) (Proper topicOf) newSubscriberSyncMap ops) (sub : ι) :
    let s := run (step topicOf) newSubscriberSyncMap ops
    s.held sub ≤ 1 ∧ (sub ∈ s.added → sub ∉ s.released → s.held sub = 1) := by
  have hinv : Always (step topicOf) (fun s => Balanced s ∧ Inv topicOf s) newSubscriberSyncMap ops :=
    always_of_along (fun _ h => h) (fun _ op h hop => ⟨balanced_step h.1 op, inv_step h.1 h.2 hop⟩)
      ⟨fun _ => rfl, List.nodup_nil, nofun, nofun, nofun⟩ hops
  obtain ⟨hb, h⟩ := hinv.last
  refine ⟨h.held_le hb sub, fun hadded hreleased => ?_⟩
  have hkept := List.count_eq_zero.2 fun hmem => hreleased (h.kept hmem)
  have hpos := List.count_pos_iff.2 hadded
  have hcount := hb sub
  have hheld := h.held_le hb sub
  omega

def removed : List (Op ℕ) := [.add "a" 0, .remove "a", .unsubscribe 0 true, .detach 0]

theorem removed_held : (run (step fun _ => "a") newSubscriberSyncMap removed).held 0 = 1 :=
  (none_lost (fun _ => "a") removed ⟨⟨rfl, nofun⟩, trivial, trivial, trivial, trivial⟩ 0).2 (by decide) (by decide)

/-- a topic that is added again between the two halves of Remove: the new subscriber is dropped -/
example : (run (step fun _ => "a") newSubscriberSyncMap
    ([.add "a" 0, .remove "a", .add "a" 1, .unsubscribe 0 true, .detach 0] : List (Op ℕ))).dropped = [1] := by
  decide

end LuluExt.SubscriberMap
