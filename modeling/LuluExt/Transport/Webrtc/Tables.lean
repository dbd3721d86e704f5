/-
The tables of the media router: what the recorded subscriptions say about the tracks.

A subscription is recorded as the bare ID of a track, and IDs are chosen by the clients. So the lists do not know whose
track an entry is for: removing a track, or unsubscribing from a publisher, drops the entries of that ID whoever they
are for. And `RemoveSessionTracks` leaves the lists of the other sessions, and the subscribers of the other tracks,
alone; `Subscribe` does not ask whether it was called before. A ledger of the run says for which publisher an entry was
recorded.
-/
import LuluExt.Transport.Webrtc.Sfu

namespace LuluExt.Webrtc

open Run

variable {S T : Type}

/-! ## Runs of the router -/

/-- the methods of the router, and what happens to its tracks beside them -/
inductive RouterOp (S T : Type)
  | addTrack (sessionID : S) (trackID : T)
  | removeTrack (sessionID : S) (trackID : T)
  | removeSessionTracks (sessionID : S)
  | subscribe (subscriberID publisherID : S)
  | unsubscribe (subscriberID publisherID : S)
  /-- the local track is made, and the track at this address gets a subscriber -/
  | createLocalTrackForSubscriber (subscriberID : S) (mediaTrack : ℕ)
  | trackEnds (mediaTrack : ℕ)
deriving DecidableEq, Repr

section Step

variable [DecidableEq S] [DecidableEq T]

def Router.step (r : Router S T) : RouterOp S T → Router S T
  | .addTrack sessionID trackID => r.addTrack sessionID trackID
  | .removeTrack sessionID trackID => r.removeTrack sessionID trackID
  | .removeSessionTracks sessionID => r.removeSessionTracks sessionID
  | .subscribe subscriberID publisherID => (r.subscribe subscriberID publisherID).1
  | .unsubscribe subscriberID publisherID => r.unsubscribe subscriberID publisherID
  | .createLocalTrackForSubscriber subscriberID t =>
    { r with media := Function.update r.media t ((r.media t).addSubscriber subscriberID) }
  | .trackEnds t => { r with media := Function.update r.media t (r.media t).close }

end Step

/-- the IDs of a publisher's tracks are different, as keys of a map -/
def Router.Keyed (r : Router S T) : Prop := ∀ p, ((r.tracks p).map Prod.fst).Nodup

variable {tracks : List (T × ℕ)}

theorem nodup_filter_fst (h : (tracks.map Prod.fst).Nodup) (f : T × ℕ → Bool) :
    ((tracks.filter f).map Prod.fst).Nodup :=
  h.sublist (List.filter_sublist.map Prod.fst)

section Maps

variable [DecidableEq T]

theorem lookup_isNone_iff {trackID : T} : (Router.lookup tracks trackID).isNone ↔ ∀ t, (trackID, t) ∉ tracks := by
  rw [Router.lookup, Option.isNone_map, Option.isNone_iff_eq_none, List.find?_eq_none]
  constructor
  · intro h t ht
    exact h _ ht (by simp)
  · intro h x hx heq
    obtain ⟨id, t⟩ := x
    obtain rfl : id = trackID := by simpa using heq
    exact h t hx

theorem lookup_of_mem (h : (tracks.map Prod.fst).Nodup) {x : T × ℕ} (hx : x ∈ tracks) :
    Router.lookup tracks x.1 = some x.2 := by
  cases hlookup : Router.lookup tracks x.1 with
  | none =>
    have hnone := lookup_isNone_iff.1 (Option.isNone_iff_eq_none.2 hlookup) x.2
    exact absurd hx hnone
  | some t =>
    have heq : (x.1, t) = x := List.inj_on_of_nodup_map h (mem_of_lookup hlookup) hx rfl
    rw [← heq]

end Maps

theorem keyed_new [Inhabited S] [Inhabited T] : (newSFURouter : Router S T).Keyed := fun _ => List.nodup_nil

theorem wf_new [Inhabited S] [Inhabited T] : (newSFURouter : Router S T).Wf :=
  ⟨by simp [newSFURouter], by simp [newSFURouter, newMediaTrack]⟩

section Keyed

variable {r : Router S T} [DecidableEq S]

theorem keyed_update (h : r.Keyed) {s : S} {l : List (T × ℕ)} (hl : (l.map Prod.fst).Nodup) (p : S) :
    ((Function.update r.tracks s l p).map Prod.fst).Nodup :=
  (Function.forall_update_iff r.tracks fun _ l => (l.map Prod.fst).Nodup).2 ⟨hl, fun p _ => h p⟩ p

variable [DecidableEq T]

theorem keyed_addTrack (h : r.Keyed) (s : S) (id : T) : (r.addTrack s id).Keyed := by
  refine keyed_update h ?_
  rw [List.map_append, List.nodup_append]
  refine ⟨nodup_filter_fst (h s) _, by simp, ?_⟩
  intro a ha b hb hab
  obtain ⟨x, hx, rfl⟩ := List.mem_map.1 ha
  obtain rfl : b = id := by simpa using hb
  simp [hab] at hx

theorem keyed_removeTrack (h : r.Keyed) (s : S) (id : T) : (r.removeTrack s id).Keyed := by
  unfold Router.removeTrack
  split
  · exact keyed_update h (nodup_filter_fst (h s) _)
  · exact h

theorem keyed_step (h : r.Keyed) (op : RouterOp S T) : (r.step op).Keyed := by
  cases op with
  | addTrack s id => exact keyed_addTrack h s id
  | removeTrack s id => exact keyed_removeTrack h s id
  | removeSessionTracks s => exact keyed_update h List.nodup_nil
  | subscribe | unsubscribe | createLocalTrackForSubscriber | trackEnds => exact h

theorem wf_routerStep (h : r.Wf) (op : RouterOp S T) : (r.step op).Wf := by
  cases op with
  | addTrack s id => exact wf_addTrack h s id
  | removeTrack s id =>
    obtain ⟨ts, hmedia, hmade, htracks⟩ := removeTrack_media r s id
    exact wf_modifyAll h keeps_close ts hmedia hmade htracks
  | removeSessionTracks s => exact wf_modifyAll h keeps_close _ rfl rfl (tracks_update_subset _ s (List.nil_subset _))
  | subscribe s p => exact ⟨h.tracks, h.closed⟩
  | unsubscribe s p => exact wf_modifyAll h (keeps_removeSubscriber s) _ rfl rfl fun _ => List.Subset.refl _
  | createLocalTrackForSubscriber s t =>
    exact wf_modifyAll h (keeps_addSubscriber s) [t] rfl rfl fun _ => List.Subset.refl _
  | trackEnds t => exact wf_modifyAll h keeps_close [t] rfl rfl fun _ => List.Subset.refl _

end Keyed

/-! ## The ledger -/

/-- a router, and with each recorded ID the publisher it was recorded for -/
structure Ledger (S T : Type) where
  router : Router S T
  entries : S → List (S × T)

def newLedger [Inhabited S] [Inhabited T] : Ledger S T := ⟨newSFURouter, fun _ => []⟩

def Ledger.Follows (l : Ledger S T) : Prop := ∀ s, (l.entries s).map Prod.snd = l.router.subscriptions s

theorem follows_update [DecidableEq S] {l : Ledger S T} (h : l.Follows) {s : S} {es : List (S × T)} {ids : List T}
    (hs : es.map Prod.snd = ids) (s' : S) :
    (Function.update l.entries s es s').map Prod.snd = Function.update l.router.subscriptions s ids s' := by
  rcases eq_or_ne s' s with rfl | hne
  · simpa using hs
  · simpa [hne] using h s'

section Ledger

variable [DecidableEq S] [DecidableEq T]

/-- entries are made and dropped as their IDs are -/
@[simp] def Ledger.step (l : Ledger S T) (op : RouterOp S T) : Ledger S T where
  router := l.router.step op
  entries :=
    match op with
    | .removeTrack sessionID trackID =>
      if (Router.lookup (l.router.tracks sessionID) trackID).isSome then
        fun s => (l.entries s).filter fun e => e.2 ≠ trackID
      else l.entries
    | .removeSessionTracks sessionID => Function.update l.entries sessionID []
    | .subscribe subscriberID publisherID =>
      Function.update l.entries subscriberID
        (l.entries subscriberID ++ (l.router.tracks publisherID).map fun x => (publisherID, x.1))
    | .unsubscribe subscriberID publisherID =>
      Function.update l.entries subscriberID
        ((l.entries subscriberID).filter fun e => (Router.lookup (l.router.tracks publisherID) e.2).isNone)
    | _ => l.entries

theorem follows_step {l : Ledger S T} (h : l.Follows) (op : RouterOp S T) : (l.step op).Follows := by
  cases op with
  | addTrack | createLocalTrackForSubscriber | trackEnds => exact h
  | removeTrack s id =>
    intro s'
    cases hlookup : Router.lookup (l.router.tracks s) id with
    | none => simpa [Router.step, Router.removeTrack, hlookup] using h s'
    | some t => simp [Router.step, Router.removeTrack, hlookup, ← h s', List.filter_map, Function.comp_def]
  | removeSessionTracks s => exact follows_update h rfl
  | subscribe s p => exact follows_update h (by simp [h s])
  | unsubscribe s p => exact follows_update h (by rw [← h s, List.filter_map]; rfl)

end Ledger

/-! ## Consistency -/

/-- the lists mention held tracks only, and none twice for one publisher -/
structure Consistent (l : Ledger S T) : Prop where
  held : ∀ s, ∀ id ∈ l.router.subscriptions s, ∃ p t, (id, t) ∈ l.router.tracks p
  once : ∀ s, (l.entries s).Nodup

/-- no other session has a track of x in its list, and no track in the router has x among its subscribers -/
structure Forgotten (l : Ledger S T) (x : S) : Prop where
  entries : ∀ s, s ≠ x → ∀ e ∈ l.entries s, e.1 ≠ x
  subscribers : ∀ p, ∀ y ∈ l.router.tracks p, x ∉ (l.router.media y.2).subscribers

/-- an entry is for a track that its publisher holds -/
structure Ledger.Inv (l : Ledger S T) : Prop where
  wf : l.router.Wf
  keyed : l.router.Keyed
  follows : l.Follows
  owned : ∀ s, ∀ e ∈ l.entries s, ∃ t, (e.2, t) ∈ l.router.tracks e.1
  once : ∀ s, (l.entries s).Nodup

variable {op : RouterOp S T} {l : Ledger S T}

theorem Ledger.Inv.consistent (h : l.Inv) : Consistent l where
  held := by
    intro s id hid
    rw [← h.follows s] at hid
    obtain ⟨e, he, rfl⟩ := List.mem_map.1 hid
    obtain ⟨t, ht⟩ := h.owned s e he
    exact ⟨e.1, t, ht⟩
  once := h.once

section Consistency

variable [DecidableEq S] [DecidableEq T]

def Right (l : Ledger S T) (op : RouterOp S T) : Prop :=
  Consistent (l.step op) ∧ ∀ x, op = .removeSessionTracks x → Forgotten (l.step op) x

/-- a subscriber has no track of the publisher in its list yet; a session that is removed has no subscriber in the
lists, and is subscribed to no track of another session -/
def Tidy (l : Ledger S T) : RouterOp S T → Prop
  | .subscribe subscriberID publisherID =>
    ∀ y ∈ l.router.tracks publisherID, (publisherID, y.1) ∉ l.entries subscriberID
  | .removeSessionTracks sessionID =>
    (∀ s, s ≠ sessionID → ∀ e ∈ l.entries s, e.1 ≠ sessionID) ∧
      ∀ p, p ≠ sessionID → ∀ y ∈ l.router.tracks p, sessionID ∉ (l.router.media y.2).subscribers
  | _ => True

theorem inv_of (h : l.Inv) (howned : ∀ s, ∀ e ∈ (l.step op).entries s, ∃ t, (e.2, t) ∈ (l.step op).router.tracks e.1)
    (honce : ∀ s, ((l.step op).entries s).Nodup) : (l.step op).Inv :=
  ⟨wf_routerStep h.wf op, keyed_step h.keyed op, follows_step h.follows op, howned, honce⟩

theorem inv_addTrack (h : l.Inv) (s : S) (id : T) : (l.step (.addTrack s id)).Inv := by
  refine inv_of h ?_ h.once
  intro s' e he
  obtain ⟨t, ht⟩ := h.owned s' e he
  by_cases hp : e.1 = s
  · -- the track of this ID, if it was there, has been replaced by one of the same ID
    by_cases hid : e.2 = id
    · exact ⟨l.router.made, by simp [Router.step, Router.addTrack, hp, hid]⟩
    · refine ⟨t, ?_⟩
      rw [hp] at ht
      simp [Router.step, Router.addTrack, hp, hid, ht]
  · exact ⟨t, by simpa [Router.step, Router.addTrack, hp] using ht⟩

theorem inv_removeTrack (h : l.Inv) (s : S) (id : T) : (l.step (.removeTrack s id)).Inv := by
  cases hlookup : Router.lookup (l.router.tracks s) id with
  | none =>
    refine inv_of h ?_ ?_
    · simpa [Router.step, Router.removeTrack, hlookup] using h.owned
    · simpa [hlookup] using h.once
  | some t0 =>
    have hentries : ∀ s', (l.step (.removeTrack s id)).entries s' = (l.entries s').filter fun e => e.2 ≠ id := by
      intro s'
      simp [hlookup]
    refine inv_of h ?_ fun s' => by rw [hentries]; exact (h.once s').filter _
    intro s' e he
    rw [hentries, List.mem_filter] at he
    obtain ⟨t, ht⟩ := h.owned s' e he.1
    have hid : e.2 ≠ id := by simpa using he.2
    refine ⟨t, ?_⟩
    by_cases hp : e.1 = s
    · rw [hp] at ht
      simp [Router.step, Router.removeTrack, hlookup, hp, ht, hid]
    · simpa [Router.step, Router.removeTrack, hlookup, hp] using ht

theorem inv_unsubscribe (h : l.Inv) (s p : S) : (l.step (.unsubscribe s p)).Inv := by
  have hsub : ∀ s', ((l.step (.unsubscribe s p)).entries s').Sublist (l.entries s') :=
    (Function.forall_update_iff l.entries fun s' es => es.Sublist (l.entries s')).2
      ⟨List.filter_sublist, fun _ _ => .refl _⟩
  exact inv_of h (fun s' e he => h.owned s' e ((hsub s').subset he)) fun s' => (h.once s').sublist (hsub s')

theorem entries_subscribe_nodup_iff (h : l.Inv) (s p : S) :
    ((l.step (.subscribe s p)).entries s).Nodup ↔ Tidy l (.subscribe s p) := by
  have hnew : ((l.router.tracks p).map fun x => (p, x.1)).Nodup := by
    have hmap := (h.keyed p).map (Prod.mk_right_injective p)
    rwa [List.map_map] at hmap
  simp only [Ledger.step, Function.update_self, List.nodup_append, h.once s, hnew, true_and]
  constructor
  · intro hdisj y hy hmem
    exact hdisj _ hmem _ (List.mem_map.2 ⟨y, hy, rfl⟩) rfl
  · intro htidy a ha b hb hab
    obtain ⟨y, hy, rfl⟩ := List.mem_map.1 hb
    exact htidy y hy (hab ▸ ha)

theorem inv_subscribe (h : l.Inv) {s p : S} (htidy : Tidy l (.subscribe s p)) : (l.step (.subscribe s p)).Inv := by
  refine inv_of h ?_ ?_
  · intro s' e he
    rcases eq_or_ne s' s with rfl | hne
    · simp only [Ledger.step, Function.update_self, List.mem_append, List.mem_map] at he
      rcases he with he | ⟨y, hy, rfl⟩
      · exact h.owned s' e he
      · exact ⟨y.2, hy⟩
    · exact h.owned s' e (by simpa [hne] using he)
  · have hnew := (entries_subscribe_nodup_iff h s p).2 htidy
    simp only [Ledger.step, Function.update_self] at hnew
    exact (Function.forall_update_iff l.entries fun _ es => es.Nodup).2 ⟨hnew, fun s' _ => h.once s'⟩

theorem inv_removeSessionTracks (h : l.Inv) {x : S} (htidy : Tidy l (.removeSessionTracks x)) :
    (l.step (.removeSessionTracks x)).Inv := by
  refine inv_of h ?_
    ((Function.forall_update_iff l.entries fun _ es => es.Nodup).2 ⟨List.nodup_nil, fun s _ => h.once s⟩)
  intro s e he
  rcases eq_or_ne s x with rfl | hne
  · simp at he
  · have hold : e ∈ l.entries s := by simpa [hne] using he
    have howner : e.1 ≠ x := htidy.1 s hne e hold
    obtain ⟨t, ht⟩ := h.owned s e hold
    exact ⟨t, by simpa [Router.step, Router.removeSessionTracks, howner] using ht⟩

/-- what is left of a session after its removal was there before: the tracks of others are not touched -/
theorem forgotten_iff (h : l.Inv) (x : S) :
    Forgotten (l.step (.removeSessionTracks x)) x ↔ Tidy l (.removeSessionTracks x) := by
  have hentries : ∀ s, s ≠ x → (l.step (.removeSessionTracks x)).entries s = l.entries s := by
    intro s hs
    simp [hs]
  have htracks : ∀ p, p ≠ x → (l.step (.removeSessionTracks x)).router.tracks p = l.router.tracks p := by
    intro p hp
    simp [Router.step, Router.removeSessionTracks, hp]
  have hmedia : ∀ p, p ≠ x → ∀ y ∈ l.router.tracks p,
      (l.step (.removeSessionTracks x)).router.media y.2 = l.router.media y.2 := by
    intro p hp y hy
    refine (modifyAll_apply keeps_close.twice _ l.router.media y.2).trans (if_neg fun hin => hp ?_)
    obtain ⟨z, hz, hzy⟩ := List.mem_map.1 hin
    have howner := (h.wf.tracks x z hz).2.1
    rw [hzy, (h.wf.tracks p y hy).2.1] at howner
    exact howner
  constructor
  · intro hf
    refine ⟨fun s hs e he => hf.entries s hs e (by rwa [hentries s hs]), fun p hp y hy => ?_⟩
    rw [← hmedia p hp y hy]
    exact hf.subscribers p y (by rwa [htracks p hp])
  · intro htidy
    refine ⟨fun s hs e he => htidy.1 s hs e (by rwa [hentries s hs] at he), fun p y hy => ?_⟩
    rcases eq_or_ne p x with rfl | hp
    · simp [Router.step, Router.removeSessionTracks] at hy
    · rw [htracks p hp] at hy
      rw [hmedia p hp y hy]
      exact htidy.2 p hp y hy

theorem inv_step (h : l.Inv) (htidy : Tidy l op) : (l.step op).Inv := by
  cases op with
  | addTrack s id => exact inv_addTrack h s id
  | removeTrack s id => exact inv_removeTrack h s id
  | removeSessionTracks x => exact inv_removeSessionTracks h htidy
  | subscribe s p => exact inv_subscribe h htidy
  | unsubscribe s p => exact inv_unsubscribe h s p
  | createLocalTrackForSubscriber s t | trackEnds t => exact inv_of h h.owned h.once

theorem right_iff (h : l.Inv) (op : RouterOp S T) : Right l op ↔ Tidy l op := by
  constructor
  · intro hright
    cases op with
    | removeSessionTracks x => exact (forgotten_iff h x).1 (hright.2 x rfl)
    | subscribe s p => exact (entries_subscribe_nodup_iff h s p).1 (hright.1.once s)
    | _ => trivial
  · intro htidy
    refine ⟨(inv_step h htidy).consistent, ?_⟩
    rintro x rfl
    exact (forgotten_iff h x).2 htidy

/-- **Router tables.** After each operation every listed ID is that of a held track and no list has an ID twice for one
publisher, and after `RemoveSessionTracks` nothing of the session is left in the lists of others or among the
subscribers of the tracks that remain, if and only if every step is tidy. -/
theorem tables_iff [Inhabited S] [Inhabited T] (ops : List (RouterOp S T)) :
    Along Ledger.step Right (newLedger : Ledger S T) ops ↔ Along Ledger.step Tidy (newLedger : Ledger S T) ops := by
  have hstart : (newLedger : Ledger S T).Inv :=
    ⟨wf_new, keyed_new, fun _ => rfl, by simp [newLedger], fun _ => List.nodup_nil⟩
  refine along_iff_along (I := Ledger.Inv) ?_ ?_ hstart ops
  · intro l op h htidy
    exact inv_step h htidy
  · intro l op h
    exact right_iff h op

end Consistency

/-- the list of session 2, and the tracks of session 1 and of session 2, after a run -/
def listOf (ops : List (RouterOp ℕ ℕ)) : List ℕ × List (ℕ × ℕ) × List (ℕ × ℕ) :=
  let l := run Ledger.step (newLedger : Ledger ℕ ℕ) ops
  (l.router.subscriptions 2, l.router.tracks 1, l.router.tracks 2)

/-- **Stale tables.** The publisher of a subscription is removed, and the list still has its track; a session subscribes
twice, and its list has the track twice; a subscriber is removed, and the track still has it. -/
theorem stale_tables :
    listOf [.addTrack 1 7, .subscribe 2 1, .removeSessionTracks 1] = ([7], [], []) ∧
    ¬ Along Ledger.step Right (newLedger : Ledger ℕ ℕ) [.addTrack 1 7, .subscribe 2 1, .removeSessionTracks 1] ∧
    listOf [.addTrack 1 7, .subscribe 2 1, .subscribe 2 1] = ([7, 7], [(7, 0)], []) ∧
    ¬ Along Ledger.step Right (newLedger : Ledger ℕ ℕ) [.addTrack 1 7, .subscribe 2 1, .subscribe 2 1] ∧
    ((run Ledger.step (newLedger : Ledger ℕ ℕ)
        [.addTrack 1 7, .createLocalTrackForSubscriber 2 0, .removeSessionTracks 2]).router.media 0).subscribers =
      [2] := by
  refine ⟨by decide, fun h => ?_, by decide, fun h => ?_, by decide⟩
  · obtain ⟨-, -, ⟨hconsistent, -⟩, -⟩ := h
    obtain ⟨p, t, ht⟩ := hconsistent.held 2 7 (by decide)
    revert ht
    simp only [Ledger.step, Router.step, Router.removeSessionTracks, newLedger, newSFURouter, Router.addTrack,
      Router.subscribe]
    rcases eq_or_ne p 1 with rfl | hp
    · simp
    · simp [hp]
  · obtain ⟨-, -, ⟨hconsistent, -⟩, -⟩ := h
    exact absurd (hconsistent.once 2) (by decide)

/-! ## Publishers apart -/

section Isolation

variable [DecidableEq T] {r : Router S T} {b : S}

/-- the tracks of a publisher that a session is subscribed to, as the router sees it -/
def subscribedTracks (r : Router S T) (subscriberID publisherID : S) : List (T × ℕ) :=
  (r.tracks publisherID).filter fun x => x.1 ∈ r.subscriptions subscriberID

theorem subscribedTracks_eq_iff {r' : Router S T} (htracks : r'.tracks b = r.tracks b) (s : S) {f : T → Bool}
    (hlist : r'.subscriptions s = (r.subscriptions s).filter f) :
    subscribedTracks r' s b = subscribedTracks r s b ↔ ∀ x ∈ subscribedTracks r s b, f x.1 := by
  have hsub : subscribedTracks r' s b = (subscribedTracks r s b).filter fun x => f x.1 := by
    simp only [subscribedTracks, hlist, List.filter_filter]
    congr 1
    funext x
    simp [and_comm]
  rw [hsub, List.filter_eq_self]

variable [DecidableEq S]

/-- a removal of a track, or an unsubscribe, that names another publisher -/
def RouterOp.Elsewhere (b : S) : RouterOp S T → Prop
  | .removeTrack a _ => a ≠ b
  | .unsubscribe _ a => a ≠ b
  | _ => False

def Unchanged (b : S) (r : Router S T) (op : RouterOp S T) : Prop :=
  ∀ s, subscribedTracks (r.step op) s b = subscribedTracks r s b

/-- no track of b that is subscribed to has the ID of one that the operation names -/
def Separate (b : S) (r : Router S T) : RouterOp S T → Prop
  | .removeTrack a trackID =>
    (Router.lookup (r.tracks a) trackID).isSome → ∀ s, ∀ x ∈ subscribedTracks r s b, x.1 ≠ trackID
  | .unsubscribe s a => ∀ x ∈ subscribedTracks r s b, (Router.lookup (r.tracks a) x.1).isNone
  | _ => True

theorem tracks_elsewhere (hop : op.Elsewhere b) : (r.step op).tracks b = r.tracks b := by
  cases op with
  | removeTrack a id =>
    simp only [Router.step, Router.removeTrack]
    split
    · exact Function.update_of_ne (Ne.symm hop) _ _
    · rfl
  | unsubscribe s a => rfl
  | _ => exact absurd hop id

theorem unchanged_iff (hop : op.Elsewhere b) : Unchanged b r op ↔ Separate b r op := by
  cases op with
  | removeTrack a id =>
    cases hlookup : Router.lookup (r.tracks a) id with
    | none => simp [Unchanged, Separate, Router.step, Router.removeTrack, hlookup]
    | some t =>
      simp only [Separate, hlookup, Option.isSome_some, true_implies]
      refine forall_congr' fun s => ?_
      have hlist : (r.step (.removeTrack a id)).subscriptions s = (r.subscriptions s).filter fun i => i ≠ id := by
        simp [Router.step, Router.removeTrack, hlookup]
      rw [subscribedTracks_eq_iff (tracks_elsewhere hop) s hlist]
      simp
  | unsubscribe s a =>
    have hlist : (r.step (.unsubscribe s a)).subscriptions s =
        (r.subscriptions s).filter fun i => (Router.lookup (r.tracks a) i).isNone := by
      simp [Router.step, Router.unsubscribe]
    have hs := subscribedTracks_eq_iff (tracks_elsewhere hop) s hlist
    constructor
    · intro h
      exact hs.1 (h s)
    · intro h s'
      rcases eq_or_ne s' s with rfl | hne
      · exact hs.2 h
      · simp [subscribedTracks, Router.step, Router.unsubscribe, hne]
  | _ => exact absurd hop id

/-- an unsubscribe detaches the subscriber from every track that the router sees it subscribed to -/
theorem unsubscribe_detaches (hkeyed : r.Keyed) {s : S} {x : T × ℕ} (hx : x ∈ subscribedTracks r s b) :
    s ∉ ((r.unsubscribe s b).media x.2).subscribers := by
  obtain ⟨htrack, hlisted⟩ := List.mem_filter.1 hx
  have hfound : x.2 ∈ (r.subscriptions s).filterMap (Router.lookup (r.tracks b)) :=
    List.mem_filterMap.2 ⟨x.1, by simpa using hlisted, lookup_of_mem (hkeyed b) htrack⟩
  have hmedia : (r.unsubscribe s b).media x.2 = (r.media x.2).removeSubscriber s :=
    (modifyAll_apply (f := fun m => m.removeSubscriber s) (keeps_removeSubscriber s).twice _ r.media x.2).trans
      (if_pos hfound)
  simp [hmedia, MediaTrack.removeSubscriber]

theorem subscribedTracks_run {ops : List (RouterOp S T)} (h : Along Router.step (Unchanged b) r ops) (s : S) :
    subscribedTracks (run Router.step r ops) s b = subscribedTracks r s b := by
  induction ops generalizing r with
  | nil => rfl
  | cons op ops ih => rw [run_cons, ih h.2, h.1 s]

/-- **Publishers apart.** `RemoveTrack` and `Unsubscribe` calls that name other publishers leave the tracks of b that
each session is subscribed to unchanged, and an `Unsubscribe` from b after them detaches its subscriber from all of
these, if and only if at none of them a track of b that is subscribed to has the ID of a track that the call names. -/
theorem isolation_iff [Inhabited S] [Inhabited T] (before : List (RouterOp S T)) (b : S) (ops : List (RouterOp S T))
    (hops : ∀ op ∈ ops, op.Elsewhere b) :
    (Along Router.step (Unchanged b) (run Router.step newSFURouter before) ops ∧
      ∀ s, ∀ x ∈ subscribedTracks (run Router.step newSFURouter before) s b,
        s ∉ (((run Router.step (run Router.step newSFURouter before) ops).unsubscribe s b).media x.2).subscribers) ↔
      Along Router.step (Separate b) (run Router.step newSFURouter before) ops := by
  set r : Router S T := run Router.step newSFURouter before with hr
  have hkeyed : (run Router.step r ops).Keyed := by
    rw [← run_append]
    exact run_inv (I := Router.Keyed) (fun _ op h => keyed_step h op) keyed_new _
  have hiff : Along Router.step (Unchanged b) r ops ↔ Along Router.step (Separate b) r ops :=
    along_congr (I := fun _ => True) (H := fun _ op => op.Elsewhere b) (fun _ _ _ _ => trivial)
      (fun _ _ _ hop => unchanged_iff hop) trivial (along_forall.2 hops)
  rw [← hiff, and_iff_left_iff_imp]
  intro hunchanged s x hx
  exact unsubscribe_detaches hkeyed (by rwa [subscribedTracks_run hunchanged])

end Isolation

/-- sessions 0 and 1 both publish a track 7, and session 2 is subscribed to both -/
def sameID : List (RouterOp ℕ ℕ) :=
  [.addTrack 0 7, .addTrack 1 7, .subscribe 2 0, .subscribe 2 1, .createLocalTrackForSubscriber 2 0,
    .createLocalTrackForSubscriber 2 1]

/-- **The other publisher's track.** Session 2 unsubscribes from session 0, or session 0 removes its track: the entry
for the track of session 1 is gone too. -/
theorem other_publisher :
    subscribedTracks (run Router.step newSFURouter sameID) 2 1 = [(7, 1)] ∧
    subscribedTracks (run Router.step newSFURouter (sameID ++ [.unsubscribe 2 0])) 2 1 = [] ∧
    subscribedTracks (run Router.step newSFURouter (sameID ++ [.removeTrack 0 7])) 2 1 = [] ∧
    ((run Router.step newSFURouter (sameID ++ [.unsubscribe 2 0, .unsubscribe 2 1])).media 1).subscribers = [2] ∧
    ((run Router.step newSFURouter (sameID ++ [.removeTrack 0 7, .unsubscribe 2 1])).media 1).subscribers = [2] := by
  decide

/-- with different IDs the publishers are apart -/
theorem different_ids_apart :
    (Along Router.step (Unchanged 1) (run Router.step newSFURouter [.addTrack 0 6, .addTrack 1 7, .subscribe 2 1])
        [.removeTrack 0 6] ∧
      ∀ s, ∀ x ∈ subscribedTracks (run Router.step newSFURouter [.addTrack 0 6, .addTrack 1 7, .subscribe 2 1]) s 1,
        s ∉ (((run Router.step (run Router.step newSFURouter [.addTrack 0 6, .addTrack 1 7, .subscribe 2 1])
          [.removeTrack 0 6]).unsubscribe s 1).media x.2).subscribers) := by
  refine (isolation_iff (S := ℕ) (T := ℕ) [.addTrack 0 6, .addTrack 1 7, .subscribe 2 1] 1 [.removeTrack 0 6] ?_).2 ?_
  · intro op hop
    obtain rfl : op = .removeTrack 0 6 := by simpa using hop
    exact Nat.zero_ne_one
  · refine ⟨fun _ s x hx => ?_, trivial⟩
    have htrack := (List.mem_filter.1 hx).1
    obtain rfl : x = (7, 1) := by
      simpa [run, newSFURouter, Router.step, Router.addTrack, Router.subscribe] using htrack
    decide

end LuluExt.Webrtc
