/-
The media router of the WebRTC server: who is forwarded whose tracks.

Packets of a track go to the subscribers in its own table. SubscribeToPublisher fills that table, one track of the
publisher after another, and leaves alone the router's subscriptions, a second table that only the router's own
Subscribe fills; and Unsubscribe works from the second table. So what was subscribed through the server is never found
by UnsubscribeFromPublisher. A track whose remote side has ended is closed but stays in the router, and is subscribed to
without effect; and a track that is replaced by another of the same ID goes on forwarding outside the router.
-/
import LuluExt.Lib.Go
import LuluExt.Lib.Run

namespace LuluExt.Webrtc

open Run

variable {S T : Type}

/-- the fields that decide about forwarding: T are track IDs, S sessions -/
structure MediaTrack (S T : Type) where
  id : T
  sessionID : S
  subscribers : List S
  closed : Bool
deriving DecidableEq, Repr

def newMediaTrack (sessionID : S) (id : T) : MediaTrack S T := ⟨id, sessionID, [], false⟩

section Track

variable [DecidableEq S]

def MediaTrack.addSubscriber (m : MediaTrack S T) (subscriberID : S) : MediaTrack S T :=
  if m.closed then m
  else if subscriberID ∈ m.subscribers then m
  else { m with subscribers := m.subscribers ++ [subscriberID] }

def MediaTrack.removeSubscriber (m : MediaTrack S T) (subscriberID : S) : MediaTrack S T :=
  { m with subscribers := m.subscribers.filter (· ≠ subscriberID) }

end Track

def MediaTrack.close (m : MediaTrack S T) : MediaTrack S T :=
  if m.closed then m else { m with closed := true, subscribers := [] }

/-! ## The router -/

/-- the tracks by their addresses, the map of each session's tracks, and the recorded subscriptions; a session that is
in neither map has none -/
structure Router (S T : Type) where
  media : ℕ → MediaTrack S T
  made : ℕ
  tracks : S → List (T × ℕ)
  subscriptions : S → List T

def newSFURouter [Inhabited S] [Inhabited T] : Router S T :=
  ⟨fun _ => newMediaTrack default default, 0, fun _ => [], fun _ => []⟩

def modifyAll (f : MediaTrack S T → MediaTrack S T) (ts : List ℕ) (media : ℕ → MediaTrack S T) : ℕ → MediaTrack S T :=
  ts.foldl (fun m t => Function.update m t (f (m t))) media

namespace Router

variable [DecidableEq S] [DecidableEq T] (r : Router S T)

def lookup (tracks : List (T × ℕ)) (trackID : T) : Option ℕ := (tracks.find? (·.1 = trackID)).map Prod.snd

def addTrack (sessionID : S) (trackID : T) : Router S T :=
  { r with
    media := Function.update r.media r.made (newMediaTrack sessionID trackID)
    made := r.made + 1
    tracks := Function.update r.tracks sessionID
      ((r.tracks sessionID).filter (fun x => x.1 ≠ trackID) ++ [(trackID, r.made)]) }

def removeTrack (sessionID : S) (trackID : T) : Router S T :=
  match lookup (r.tracks sessionID) trackID with
  | some t =>
    { r with
      media := Function.update r.media t (r.media t).close
      tracks := Function.update r.tracks sessionID ((r.tracks sessionID).filter fun x => x.1 ≠ trackID)
      subscriptions := fun s => (r.subscriptions s).filter (· ≠ trackID) }
  | none => r

def removeSessionTracks (sessionID : S) : Router S T :=
  { r with
    media := modifyAll MediaTrack.close ((r.tracks sessionID).map Prod.snd) r.media
    tracks := Function.update r.tracks sessionID []
    subscriptions := Function.update r.subscriptions sessionID [] }

/-- `Subscribe` records the tracks and returns them -/
def subscribe (subscriberID publisherID : S) : Router S T × List ℕ :=
  ({ r with
      subscriptions := Function.update r.subscriptions subscriberID
        (r.subscriptions subscriberID ++ (r.tracks publisherID).map Prod.fst) },
    (r.tracks publisherID).map Prod.snd)

def unsubscribe (subscriberID publisherID : S) : Router S T :=
  let trackIDs := r.subscriptions subscriberID
  { r with
    media := modifyAll (fun m => m.removeSubscriber subscriberID)
      (trackIDs.filterMap (lookup (r.tracks publisherID))) r.media
    subscriptions := Function.update r.subscriptions subscriberID
      (trackIDs.filter fun trackID => (lookup (r.tracks publisherID) trackID).isNone) }

def getPublisherTracks (publisherID : S) : List ℕ := (r.tracks publisherID).map Prod.snd

end Router

/-! ## The server -/

/-- a session that is closing has no peer connection any more -/
inductive Session
  | absent
  | connected
  | closing
deriving DecidableEq, Repr

/-- with two records of the run: the pairs of subscriber and publisher that have unsubscribed since they last
subscribed, and, right after a subscribe that returned nil, its subscriber and the tracks it made local tracks for -/
structure Server (S T : Type) where
  router : Router S T
  sessions : S → Session
  unsubscribed : S → S → Bool
  subscribed : Option (S × List ℕ)

def newServer [Inhabited S] [Inhabited T] : Server S T :=
  ⟨⟨fun _ => newMediaTrack default default, 0, fun _ => [], fun _ => []⟩, fun _ => .absent, fun _ _ => false, none⟩

inductive Op (S T : Type)
  | connect (s : S)
  | closeConnection (s : S)
  | removeSession (s : S)
  | addTrack (s : S) (trackID : T)
  | removeTrack (s : S) (trackID : T)
  /-- the remote side of a track ends: `forwardRTP` cannot read and closes it -/
  | trackEnds (t : ℕ)
  /-- the tracks for which the local track is created and added to the peer connection are given -/
  | subscribeToPublisher (s p : S) (creates : ℕ → Bool)
  | unsubscribeFromPublisher (s p : S)
  /-- the router's own `Subscribe`, which the server does not call -/
  | subscribe (s p : S)

section Step

variable [DecidableEq S] [DecidableEq T]

/-- `SubscribeToPublisher`; where a local track is not created it goes on with the next track -/
def subscribeToPublisher (srv : Server S T) (s p : S) (creates : ℕ → Bool) : Except GoError (Router S T × List ℕ) :=
  match srv.sessions s with
  | .absent => .error ⟨"subscriber session not found"⟩
  | .closing => .error ⟨"peer connection not found"⟩
  | .connected =>
    let ts := (srv.router.getPublisherTracks p).filter creates
    .ok ({ srv.router with media := modifyAll (fun m => m.addSubscriber s) ts srv.router.media }, ts)

def mark (u : S → S → Bool) (s p : S) (b : Bool) : S → S → Bool := fun s' p' => if s' = s ∧ p' = p then b else u s' p'

def step (srv : Server S T) (op : Op S T) : Server S T :=
  let srv := { srv with subscribed := none }
  match op with
  | .connect s =>
    if srv.sessions s = .absent then { srv with sessions := Function.update srv.sessions s .connected } else srv
  | .closeConnection s =>
    if srv.sessions s = .connected then { srv with sessions := Function.update srv.sessions s .closing } else srv
  | .removeSession s =>
    if srv.sessions s = .absent then srv
    else { srv with
      sessions := Function.update srv.sessions s .absent
      router := srv.router.removeSessionTracks s }
  | .addTrack s trackID => { srv with router := srv.router.addTrack s trackID }
  | .removeTrack s trackID => { srv with router := srv.router.removeTrack s trackID }
  | .trackEnds t => { srv with router := { srv.router with
      media := Function.update srv.router.media t (srv.router.media t).close } }
  | .subscribeToPublisher s p creates =>
    let srv := { srv with unsubscribed := mark srv.unsubscribed s p false }
    match subscribeToPublisher srv s p creates with
    | .ok (router, ts) => { srv with router := router, subscribed := some (s, ts) }
    | .error _ => srv
  | .unsubscribeFromPublisher s p =>
    { srv with router := srv.router.unsubscribe s p, unsubscribed := mark srv.unsubscribed s p true }
  | .subscribe s p => { srv with router := (srv.router.subscribe s p).1 }

end Step

/-! ## Tracks -/

theorem modifyAll_apply {f : MediaTrack S T → MediaTrack S T} (hf : ∀ m, f (f m) = f m) (ts : List ℕ)
    (media : ℕ → MediaTrack S T) (t : ℕ) : modifyAll f ts media t = if t ∈ ts then f (media t) else media t := by
  induction ts generalizing media with
  | nil => rfl
  | cons x ts ih =>
    rw [modifyAll, List.foldl_cons, ← modifyAll, ih]
    by_cases hx : t = x
    · subst hx
      by_cases hm : t ∈ ts <;> simp [hf]
    · simp [hx]

/-- a change to a track that can be made twice, that leaves the track what it is, and a closed one without
subscribers -/
structure Keeps (f : MediaTrack S T → MediaTrack S T) : Prop where
  twice : ∀ m, f (f m) = f m
  same : ∀ m, (f m).sessionID = m.sessionID ∧ (f m).id = m.id
  closed : ∀ m, (m.closed = true → m.subscribers = []) → (f m).closed = true → (f m).subscribers = []

theorem keeps_close : Keeps (MediaTrack.close : MediaTrack S T → MediaTrack S T) where
  twice m := by cases hc : m.closed <;> simp [MediaTrack.close, hc]
  same m := by unfold MediaTrack.close; split_ifs <;> exact ⟨rfl, rfl⟩
  closed m h := by
    unfold MediaTrack.close
    split_ifs with hc
    · exact fun _ => h hc
    · exact fun _ => rfl

theorem subscribers_close (m : MediaTrack S T) : m.close.subscribers ⊆ m.subscribers := by
  unfold MediaTrack.close
  split_ifs <;> simp

section Subscribers

variable [DecidableEq S]

theorem keeps_removeSubscriber (s : S) : Keeps fun m : MediaTrack S T => m.removeSubscriber s where
  twice m := by simp [MediaTrack.removeSubscriber]
  same _ := ⟨rfl, rfl⟩
  closed m h hc := by simp [MediaTrack.removeSubscriber, h hc]

theorem keeps_addSubscriber (s : S) : Keeps fun m : MediaTrack S T => m.addSubscriber s where
  twice m := by unfold MediaTrack.addSubscriber; split_ifs <;> simp_all
  same m := by unfold MediaTrack.addSubscriber; split_ifs <;> exact ⟨rfl, rfl⟩
  closed m h := by
    unfold MediaTrack.addSubscriber
    split_ifs with hc
    · exact h
    · exact h
    · exact fun hc' => absurd hc' hc

theorem mem_addSubscriber {m : MediaTrack S T} (s s' : S) :
    s' ∈ (m.addSubscriber s).subscribers ↔ s' ∈ m.subscribers ∨ s' = s ∧ m.closed = false := by
  cases hc : m.closed with
  | true => simp [MediaTrack.addSubscriber, hc]
  | false =>
    simp only [MediaTrack.addSubscriber, hc, Bool.false_eq_true, if_false, and_true]
    split_ifs with hs
    · constructor
      · exact .inl
      · rintro (hm | rfl)
        · exact hm
        · exact hs
    · simp

end Subscribers

/-! ## Unsubscribing and subscribing -/

theorem mem_of_lookup [DecidableEq T] {tracks : List (T × ℕ)} {trackID : T} {t : ℕ}
    (h : Router.lookup tracks trackID = some t) : (trackID, t) ∈ tracks := by
  obtain ⟨x, hx, rfl⟩ := Option.map_eq_some_iff.1 h
  have hid : x.1 = trackID := by simpa using List.find?_some hx
  rw [← hid]
  exact List.mem_of_find?_eq_some hx

/-- the map has the tracks under their sessions and IDs -/
structure Router.Wf (r : Router S T) : Prop where
  tracks : ∀ p, ∀ x ∈ r.tracks p, x.2 < r.made ∧ (r.media x.2).sessionID = p ∧ (r.media x.2).id = x.1
  closed : ∀ t, (r.media t).closed = true → (r.media t).subscribers = []

theorem wf_modifyAll {r r' : Router S T} (h : r.Wf) {f : MediaTrack S T → MediaTrack S T} (hf : Keeps f) (ts : List ℕ)
    (hmedia : r'.media = modifyAll f ts r.media) (hmade : r'.made = r.made) (htracks : ∀ p, r'.tracks p ⊆ r.tracks p) :
    r'.Wf where
  tracks := by
    intro p x hx
    obtain ⟨hlt, hrest⟩ := h.tracks p x (htracks p hx)
    rw [hmade, hmedia, modifyAll_apply hf.twice]
    split_ifs
    · rw [(hf.same _).1, (hf.same _).2]
      exact ⟨hlt, hrest⟩
    · exact ⟨hlt, hrest⟩
  closed := by
    intro t
    rw [hmedia, modifyAll_apply hf.twice]
    split_ifs
    · exact hf.closed _ (h.closed t)
    · exact h.closed t

theorem tracks_update_subset [DecidableEq S] (tracks : S → List (T × ℕ)) (s : S) {l : List (T × ℕ)}
    (h : l ⊆ tracks s) (p : S) : Function.update tracks s l p ⊆ tracks p := by
  by_cases hp : p = s
  · subst hp
    simpa using h
  · simp [hp]

/-- who has unsubscribed from a publisher is forwarded none of its tracks, and who has just subscribed is forwarded all
those for which a local track was made -/
structure Effective (srv : Server S T) : Prop where
  unsubscribed : ∀ s p, srv.unsubscribed s p = true →
    ∀ t < srv.router.made, (srv.router.media t).sessionID = p → s ∉ (srv.router.media t).subscribers
  subscribed : ∀ s ts, srv.subscribed = some (s, ts) → ∀ t ∈ ts, s ∈ (srv.router.media t).subscribers

variable {srv : Server S T}

theorem effective_of_fewer {srv' : Server S T} (h : Effective srv)
    (hmark : ∀ s p, srv'.unsubscribed s p → srv.unsubscribed s p) (hnone : srv'.subscribed = none)
    (hfewer : ∀ t < srv'.router.made, (srv'.router.media t).subscribers = [] ∨ t < srv.router.made ∧
      (srv'.router.media t).sessionID = (srv.router.media t).sessionID ∧
      (srv'.router.media t).subscribers ⊆ (srv.router.media t).subscribers) : Effective srv' where
  unsubscribed := by
    intro s p hu t ht hsession hm
    rcases hfewer t ht with hnil | ⟨hlt, hsame, hsub⟩
    · simp [hnil] at hm
    · exact h.unsubscribed s p (hmark s p hu) t hlt (hsame.symm.trans hsession) (hsub hm)
  subscribed := by
    intro s ts hs
    rw [hnone] at hs
    cases hs

theorem effective_close {srv' : Server S T} (h : Effective srv) (ts : List ℕ)
    (hmedia : srv'.router.media = modifyAll MediaTrack.close ts srv.router.media)
    (hmade : srv'.router.made = srv.router.made) (hmark : srv'.unsubscribed = srv.unsubscribed)
    (hnone : srv'.subscribed = none) : Effective srv' := by
  refine effective_of_fewer h (fun s p hu => by rwa [hmark] at hu) hnone ?_
  intro t ht
  rw [hmade] at ht
  rw [hmedia, modifyAll_apply keeps_close.twice]
  right
  split_ifs
  · exact ⟨ht, (keeps_close.same _).1, subscribers_close _⟩
  · exact ⟨ht, rfl, List.Subset.refl _⟩

theorem of_mark_false [DecidableEq S] {u : S → S → Bool} {s p s' p' : S} (h : mark u s p false s' p') :
    u s' p' ∧ ¬ (s' = s ∧ p' = p) := by
  unfold mark at h
  split_ifs at h with hpair
  exact ⟨h, hpair⟩

section Effect

variable [DecidableEq S] [DecidableEq T]

theorem wf_addTrack {r : Router S T} (h : r.Wf) (sessionID : S) (trackID : T) : (r.addTrack sessionID trackID).Wf where
  tracks := by
    intro p x hx
    have hold : ∀ p, ∀ x ∈ r.tracks p, x.2 < r.made + 1 ∧
        (Function.update r.media r.made (newMediaTrack sessionID trackID) x.2).sessionID = p ∧
        (Function.update r.media r.made (newMediaTrack sessionID trackID) x.2).id = x.1 := by
      intro p x hx
      obtain ⟨hlt, hrest⟩ := h.tracks p x hx
      rw [Function.update_of_ne hlt.ne]
      exact ⟨hlt.trans (Nat.lt_succ_self _), hrest⟩
    by_cases hp : p = sessionID
    · subst hp
      simp only [Router.addTrack, Function.update_self, List.mem_append, List.mem_singleton] at hx
      rcases hx with hx | rfl
      · exact hold p x (List.mem_filter.1 hx).1
      · simp [Router.addTrack, newMediaTrack]
    · simp only [Router.addTrack, Function.update_of_ne hp] at hx
      exact hold p x hx
  closed := by
    intro t
    by_cases ht : t = r.made
    · subst ht
      simp [Router.addTrack, newMediaTrack]
    · simpa [Router.addTrack, ht] using h.closed t

theorem removeTrack_media (r : Router S T) (s : S) (trackID : T) :
    ∃ ts, (r.removeTrack s trackID).media = modifyAll MediaTrack.close ts r.media ∧
      (r.removeTrack s trackID).made = r.made ∧ ∀ p, (r.removeTrack s trackID).tracks p ⊆ r.tracks p := by
  unfold Router.removeTrack
  split
  · rename_i t _
    exact ⟨[t], rfl, rfl, tracks_update_subset r.tracks s (List.filter_subset_self _)⟩
  · exact ⟨[], rfl, rfl, fun _ => List.Subset.refl _⟩

theorem wf_step (h : srv.router.Wf) (op : Op S T) : (step srv op).router.Wf := by
  cases op with
  | connect s | closeConnection s =>
    simp only [step]
    split_ifs <;> exact h
  | removeSession s =>
    simp only [step]
    split_ifs
    · exact h
    · exact wf_modifyAll h keeps_close _ rfl rfl (tracks_update_subset _ s (List.nil_subset _))
  | addTrack s trackID => exact wf_addTrack h s trackID
  | removeTrack s trackID =>
    obtain ⟨ts, hmedia, hmade, htracks⟩ := removeTrack_media srv.router s trackID
    exact wf_modifyAll h keeps_close ts hmedia hmade htracks
  | trackEnds t => exact wf_modifyAll h keeps_close [t] rfl rfl fun _ => List.Subset.refl _
  | subscribeToPublisher s p creates =>
    simp only [step, subscribeToPublisher]
    cases srv.sessions s with
    | absent | closing => exact h
    | connected => exact wf_modifyAll h (keeps_addSubscriber s) _ rfl rfl fun _ => List.Subset.refl _
  | unsubscribeFromPublisher s p =>
    exact wf_modifyAll h (keeps_removeSubscriber s) _ rfl rfl fun _ => List.Subset.refl _
  | subscribe s p => exact ⟨h.tracks, h.closed⟩

/-- an unsubscribe that finds every track of the publisher that has the subscriber: as the router's track of its ID, and
recorded -/
def Finds (srv : Server S T) (s p : S) : Prop :=
  ∀ t < srv.router.made, (srv.router.media t).sessionID = p → s ∈ (srv.router.media t).subscribers →
    (srv.router.media t).id ∈ srv.router.subscriptions s ∧
      Router.lookup (srv.router.tracks p) (srv.router.media t).id = some t

def Careful (srv : Server S T) : Op S T → Prop
  | .subscribeToPublisher s p creates => srv.sessions s = .connected →
      ∀ t ∈ srv.router.getPublisherTracks p, creates t = true → (srv.router.media t).closed = false
  | .unsubscribeFromPublisher s p => Finds srv s p
  | _ => True

theorem effective_unsubscribe_iff (hwf : srv.router.Wf) (h : Effective srv) (s p : S) :
    Effective (step srv (.unsubscribeFromPublisher s p)) ↔ Finds srv s p := by
  set found := (srv.router.subscriptions s).filterMap (Router.lookup (srv.router.tracks p)) with hfound
  have hmedia : ∀ t, (step srv (.unsubscribeFromPublisher s p)).router.media t =
      if t ∈ found then (srv.router.media t).removeSubscriber s else srv.router.media t :=
    modifyAll_apply (f := fun m => m.removeSubscriber s) (keeps_removeSubscriber s).twice found srv.router.media
  constructor
  · intro he t ht hsession hm
    have hgone := he.unsubscribed s p (by simp [step, mark]) t ht
    rw [hmedia t] at hgone
    by_cases hin : t ∈ found
    · obtain ⟨trackID, hsub, hlookup⟩ := List.mem_filterMap.1 hin
      have hid := (hwf.tracks p _ (mem_of_lookup hlookup)).2.2
      rw [hid]
      exact ⟨hsub, hlookup⟩
    · rw [if_neg hin] at hgone
      exact absurd hm (hgone hsession)
  · intro hfinds
    refine ⟨?_, by simp [step]⟩
    intro s' p' hu t ht hsession hm
    rw [hmedia t] at hsession hm
    have howner : (srv.router.media t).sessionID = p' := by
      split_ifs at hsession <;> exact hsession
    have hold : s' ∈ (srv.router.media t).subscribers := by
      split_ifs at hm
      · exact (List.mem_filter.1 hm).1
      · exact hm
    by_cases hpair : s' = s ∧ p' = p
    · obtain ⟨rfl, rfl⟩ := hpair
      obtain ⟨hsub, hlookup⟩ := hfinds t ht howner hold
      have hin : t ∈ found := List.mem_filterMap.2 ⟨_, hsub, hlookup⟩
      rw [if_pos hin] at hm
      simp [MediaTrack.removeSubscriber] at hm
    · simp only [step, mark, if_neg hpair] at hu
      exact h.unsubscribed s' p' hu t ht howner hold

theorem effective_subscribe_error (h : Effective srv) {s : S} (hs : srv.sessions s ≠ .connected)
    (p : S) (creates : ℕ → Bool) : Effective (step srv (.subscribeToPublisher s p creates)) := by
  have hstep : step srv (.subscribeToPublisher s p creates) =
      { srv with unsubscribed := mark srv.unsubscribed s p false, subscribed := none } := by
    cases hcase : srv.sessions s with
    | absent | closing => simp [step, subscribeToPublisher, hcase]
    | connected => exact absurd hcase hs
  rw [hstep]
  refine effective_of_fewer h (fun s' p' hu => (of_mark_false hu).1) rfl ?_
  exact fun t ht => .inr ⟨ht, rfl, List.Subset.refl _⟩

theorem effective_subscribe_iff (hwf : srv.router.Wf) (h : Effective srv) (s p : S) (creates : ℕ → Bool) :
    Effective (step srv (.subscribeToPublisher s p creates)) ↔ Careful srv (.subscribeToPublisher s p creates) := by
  by_cases hs : srv.sessions s = .connected
  swap
  · exact iff_of_true (effective_subscribe_error h hs p creates) fun hc => absurd hc hs
  set ts := (srv.router.getPublisherTracks p).filter creates with hts
  have hstep : step srv (.subscribeToPublisher s p creates) = { srv with
      router := { srv.router with media := modifyAll (fun m => m.addSubscriber s) ts srv.router.media }
      unsubscribed := mark srv.unsubscribed s p false
      subscribed := some (s, ts) } := by
    simp [step, subscribeToPublisher, hs, hts]
  have hmedia : ∀ t, modifyAll (fun m => m.addSubscriber s) ts srv.router.media t =
      if t ∈ ts then (srv.router.media t).addSubscriber s else srv.router.media t :=
    modifyAll_apply (f := fun m => m.addSubscriber s) (keeps_addSubscriber s).twice ts srv.router.media
  have hmem : ∀ t, t ∈ ts ↔ t ∈ srv.router.getPublisherTracks p ∧ creates t := by
    intro t
    rw [List.mem_filter]
  rw [hstep]
  constructor
  · intro he _ t ht hc
    have hin := (hmem t).2 ⟨ht, hc⟩
    have hsub := he.subscribed s ts rfl t hin
    simp only [hmedia, if_pos hin] at hsub
    rcases (mem_addSubscriber s s).1 hsub with hm | ⟨-, hopen⟩
    · by_contra hclosed
      simp [hwf.closed t (by simpa using hclosed)] at hm
    · exact hopen
  · intro hcareful
    refine ⟨?_, ?_⟩
    · intro s' p' hu t ht hsession hm
      obtain ⟨hold, hpair⟩ := of_mark_false hu
      simp only [hmedia] at hsession hm
      split_ifs at hsession hm with hin
      · have howner : (srv.router.media t).sessionID = p' := ((keeps_addSubscriber s).same _).1.symm.trans hsession
        rcases (mem_addSubscriber s s').1 hm with hm | ⟨rfl, -⟩
        · exact h.unsubscribed s' p' hold t ht howner hm
        · obtain ⟨x, hx, rfl⟩ := List.mem_map.1 ((hmem t).1 hin).1
          exact hpair ⟨rfl, howner.symm.trans (hwf.tracks p x hx).2.1⟩
      · exact h.unsubscribed s' p' hold t ht hsession hm
    · intro s' ts' hpair t ht
      obtain ⟨rfl, rfl⟩ := Prod.mk.inj (Option.some.inj hpair)
      simp only [hmedia, if_pos ht]
      obtain ⟨htrack, hc⟩ := (hmem t).1 ht
      exact (mem_addSubscriber _ _).2 (.inr ⟨rfl, hcareful hs t htrack hc⟩)

theorem effective_step_iff (hwf : srv.router.Wf) (h : Effective srv) (op : Op S T) :
    Effective (step srv op) ↔ Careful srv op := by
  have hsame : ∀ srv' : Server S T, srv'.router.media = srv.router.media → srv'.router.made = srv.router.made →
      srv'.unsubscribed = srv.unsubscribed → srv'.subscribed = none → Effective srv' :=
    fun srv' hmedia => effective_close h [] hmedia
  cases op with
  | connect s | closeConnection s =>
    refine iff_of_true (hsame _ ?_ ?_ ?_ ?_) trivial
    all_goals
      simp only [step]
      split_ifs <;> rfl
  | removeSession s =>
    refine iff_of_true ?_ trivial
    simp only [step]
    split_ifs
    · exact hsame _ rfl rfl rfl rfl
    · exact effective_close h _ rfl rfl rfl rfl
  | addTrack s trackID =>
    refine iff_of_true (effective_of_fewer h (fun _ _ hu => hu) rfl ?_) trivial
    intro t ht
    by_cases hnew : t = srv.router.made
    · subst hnew
      exact .inl (by simp [step, Router.addTrack, newMediaTrack])
    · have hlt : t < srv.router.made := lt_of_le_of_ne (Nat.lt_succ_iff.1 ht) hnew
      exact .inr ⟨hlt, by simp [step, Router.addTrack, hnew], by simp [step, Router.addTrack, hnew]⟩
  | removeTrack s trackID =>
    obtain ⟨ts, hmedia, hmade, -⟩ := removeTrack_media srv.router s trackID
    exact iff_of_true (effective_close h ts hmedia hmade rfl rfl) trivial
  | trackEnds t => exact iff_of_true (effective_close h [t] rfl rfl rfl rfl) trivial
  | subscribeToPublisher s p creates => exact effective_subscribe_iff hwf h s p creates
  | unsubscribeFromPublisher s p => exact effective_unsubscribe_iff hwf h s p
  | subscribe s p => exact iff_of_true (hsame _ rfl rfl rfl rfl) trivial

/-- **Effect of unsubscribing.** In every state whoever has unsubscribed from a publisher, and has not subscribed since,
is among the subscribers of none of its tracks, and after a subscribe that returns nil the subscriber is among those of
every track for which its local track was created, if and only if every unsubscribe finds the tracks that have its
subscriber and no subscribe finds a closed one. -/
theorem effective_iff [Inhabited S] [Inhabited T] (ops : List (Op S T)) :
    Always step Effective newServer ops ↔ Along step Careful newServer ops := by
  have hstart : (newServer : Server S T).router.Wf := ⟨by simp [newServer], by simp [newServer, newMediaTrack]⟩
  have heffective : Effective (newServer : Server S T) := ⟨by simp [newServer], by simp [newServer]⟩
  refine always_iff_along_of_iff (I := fun srv : Server S T => srv.router.Wf) ?_ ?_ hstart heffective ops
  · intro srv op hwf
    exact wf_step hwf op
  · intro srv op hwf heff
    exact effective_step_iff hwf heff op

end Effect

/-- session 1 publishes a track, and session 2 subscribes and unsubscribes -/
def unsubscribing : List (Op ℕ ℕ) :=
  [.connect 1, .connect 2, .addTrack 1 0, .subscribeToPublisher 2 1 fun _ => true, .unsubscribeFromPublisher 2 1]

def subscribingLate : List (Op ℕ ℕ) :=
  [.connect 1, .connect 2, .addTrack 1 0, .trackEnds 0, .subscribeToPublisher 2 1 fun _ => true]

/-- **Still forwarded.** After the first run the track has its subscriber as before; after the second, session 2 has
subscribed to a track that was there and does not have it. -/
theorem still_forwarded :
    ¬ Effective (run step newServer unsubscribing) ∧ ¬ Effective (run step newServer subscribingLate) ∧
      ((run step newServer unsubscribing).router.media 0).subscribers = [2] ∧
      (run step newServer subscribingLate).subscribed = some (2, [0]) ∧
      ((run step newServer subscribingLate).router.media 0).subscribers = [] := by
  refine ⟨?_, ?_, by decide, by decide, by decide⟩
  · intro h
    exact absurd (h.unsubscribed 2 1 (by decide) 0 (by decide) (by decide)) (by decide)
  · intro h
    exact absurd (h.subscribed 2 [0] (by decide) 0 (by decide)) (by decide)

end LuluExt.Webrtc
