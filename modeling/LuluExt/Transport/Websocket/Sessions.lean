/-
Sessions of the WebSocket server: who is told of them, and which of them the manager has.

AddSession stores the session and then tells the observer, and the removal in Close deletes it and then tells the
observer: neither pair is atomic. From the store on, any goroutine can find the session in the manager and close it, so
the observer can be told of its removal before it is told of the session. Clean goes through the sessions and closes
each, and then clears the map: a session that is stored after the iteration has passed it is cleared without having been
closed.

Any number of connections, calls of Close and calls of Clean run interleaved, one access to the manager or call of the
observer at a time. `closeOnce` runs its function once, and other callers wait for it.

- `removed_first`: a session closed while it is added, and a connection that is made during Clean.
-/
import LuluExt.Lib.Ranging
import LuluExt.Lib.Run

namespace LuluExt.Websocket.Sessions

open Run

/-! ## Model -/

/-- where `wsHandler` is with a session -/
inductive Handler where
  | new
  | stored
  | added
  | listening
deriving DecidableEq, Repr

/-- how far the function that `closeOnce` runs has come -/
inductive Closing where
  | no
  /-- `close(s.done)` and `closeConnect` -/
  | begun
  /-- after the delete of RemoveSession -/
  | deleted
  | complete
deriving DecidableEq, Repr

inductive Note where
  | added
  | removed
deriving DecidableEq, Repr

/-- a session, with the calls of the observer that it was passed to -/
structure Session where
  handler : Handler
  close : Closing
  notes : List Note
deriving DecidableEq, Repr

inductive Cleaner (ι : Type) where
  | idle
  | ranging (r : Ranging ι)
  /-- in Close of a session -/
  | closing (r : Ranging ι) (i : ι)
  | clearing (r : Ranging ι)

variable {ι : Type} [DecidableEq ι]

def Cleaner.map (f : Ranging ι → Ranging ι) : Cleaner ι → Cleaner ι
  | .ranging r => .ranging (f r)
  | .closing r i => .closing (f r) i
  | c => c

structure State (ι : Type) where
  sessions : Finset ι
  session : ι → Session
  cleaners : ℕ → Cleaner ι

def initial : State ι := ⟨∅, fun _ => ⟨.new, .no, []⟩, fun _ => .idle⟩

inductive Op (ι : Type) where
  | store (i : ι)
  | onSessionAdded (i : ι)
  | listen (i : ι)
  /-- a call of Close, the first one, by any goroutine that has the session -/
  | close (i : ι)
  | delete (i : ι)
  | onSessionRemoved (i : ι)
  | clean (c : ℕ)
  /-- the iteration goes on to a session, and its function calls Close -/
  | visit (c : ℕ) (i : ι)
  | visited (c : ℕ)
  | rangeEnd (c : ℕ)
  | clear (c : ℕ)
deriving DecidableEq, Repr

namespace State

def set (s : State ι) (i : ι) (x : Session) : State ι := { s with session := Function.update s.session i x }

def setCleaner (s : State ι) (c : ℕ) (x : Cleaner ι) : State ι := { s with cleaners := Function.update s.cleaners c x }

def store (s : State ι) (i : ι) : State ι :=
  if (s.session i).handler = .new then
    { s.set i { s.session i with handler := .stored } with
      sessions := insert i s.sessions
      cleaners := fun c => (s.cleaners c).map fun r => r.stored i }
  else s

def onSessionAdded (s : State ι) (i : ι) : State ι :=
  if (s.session i).handler = .stored then
    s.set i { s.session i with handler := .added, notes := (s.session i).notes ++ [.added] }
  else s

def delete (s : State ι) (i : ι) : State ι :=
  if (s.session i).close = .begun then
    { s.set i { s.session i with close := .deleted } with
      sessions := s.sessions.erase i
      cleaners := fun c => (s.cleaners c).map fun r => r.deleted i }
  else s

def onSessionRemoved (s : State ι) (i : ι) : State ι :=
  if (s.session i).close = .deleted then
    s.set i { s.session i with close := .complete, notes := (s.session i).notes ++ [.removed] }
  else s

def visit (s : State ι) (c : ℕ) (i : ι) : State ι :=
  match s.cleaners c with
  | .ranging r => if i ∈ r.present ∧ i ∉ r.visited then s.setCleaner c (.closing (r.visit i) i) else s
  | _ => s

def visited (s : State ι) (c : ℕ) : State ι :=
  match s.cleaners c with
  | .closing r i => if (s.session i).close = .complete then s.setCleaner c (.ranging r) else s
  | _ => s

def rangeEnd (s : State ι) (c : ℕ) : State ι :=
  match s.cleaners c with
  | .ranging r => if r.CanEnd then s.setCleaner c (.clearing r) else s
  | _ => s

def clear (s : State ι) (c : ℕ) : State ι :=
  match s.cleaners c with
  | .clearing _ =>
    { s with
      sessions := ∅
      cleaners := Function.update (fun c => (s.cleaners c).map fun r => { r with whole := ∅ }) c .idle }
  | _ => s

end State

def step (s : State ι) : Op ι → State ι
  | .store i => s.store i
  | .onSessionAdded i => s.onSessionAdded i
  | .listen i => if (s.session i).handler = .added then s.set i { s.session i with handler := .listening } else s
  | .close i =>
    if (s.session i).handler ≠ .new ∧ (s.session i).close = .no then
      s.set i { s.session i with close := .begun }
    else s
  | .delete i => s.delete i
  | .onSessionRemoved i => s.onSessionRemoved i
  | .clean c =>
    match s.cleaners c with
    | .idle => s.setCleaner c (.ranging (.start s.sessions))
    | _ => s
  | .visit c i => s.visit c i
  | .visited c => s.visited c
  | .rangeEnd c => s.rangeEnd c
  | .clear c => s.clear c

/-! ## What is required -/

def Handler.Returned (h : Handler) : Prop := h = .added ∨ h = .listening

instance (h : Handler) : Decidable h.Returned := inferInstanceAs (Decidable (h = .added ∨ h = .listening))

structure Good (s : State ι) : Prop where
  order : ∀ i, (s.session i).notes = [] ∨ (s.session i).notes = [.added] ∨ (s.session i).notes = [.added, .removed]
  added : ∀ i, (s.session i).handler.Returned → .added ∈ (s.session i).notes
  removed : ∀ i, (s.session i).close = .complete → .removed ∈ (s.session i).notes
  tracked : ∀ i, (s.session i).handler ≠ .new → (s.session i).close = .no → i ∈ s.sessions

/-- no removal is told before the session, and Clear finds sessions only that are being closed -/
def Careful (s : State ι) : Op ι → Prop
  | .onSessionRemoved i => (s.session i).close = .deleted → (s.session i).handler ≠ .stored
  | .clear c => (∃ r, s.cleaners c = .clearing r) → ∀ i ∈ s.sessions, (s.session i).close ≠ .no
  | _ => True

/-! ## What a step does to one session -/

/-- a session, and whether the manager has it, before and after a step, which is careful or not -/
inductive Move (careful : Prop) (x : Session) (m : Prop) : Session → Prop → Prop where
  | stays : Move careful x m x m
  | stored : x.handler = .new → Move careful x m { x with handler := .stored } True
  | added : x.handler = .stored → Move careful x m { x with handler := .added, notes := x.notes ++ [.added] } m
  | listens : x.handler = .added → Move careful x m { x with handler := .listening } m
  | begins : x.handler ≠ .new → x.close = .no → Move careful x m { x with close := .begun } m
  | deleted : x.close = .begun → Move careful x m { x with close := .deleted } False
  | removed : x.close = .deleted → (careful → x.handler ≠ .stored) →
      Move careful x m { x with close := .complete, notes := x.notes ++ [.removed] } m
  | cleared : (careful → m → x.close ≠ .no) → Move careful x m x False

section

variable {s : State ι} {i j : ι} {x x' : Session} {m m' careful : Prop}

theorem step_move (s : State ι) (op : Op ι) (j : ι) :
    Move (Careful s op) (s.session j) (j ∈ s.sessions) ((step s op).session j) (j ∈ (step s op).sessions) := by
  have hset {i : ι} {x : Session} {p : Prop} [Decidable p] :=
    moves_ite (p := p) (R := Move (Careful s op)) (g := State.session) (m := fun s j => j ∈ s.sessions)
      (t := s.set i x) (fun _ _ => .stays) rfl (fun _ _ => Iff.rfl)
  cases op with
  | store i =>
    refine moves_ite (R := Move _) (g := State.session) (m := fun s j => j ∈ s.sessions) (fun _ _ => .stays) rfl
      (fun j hj => by simp [hj]) (fun h => ?_) j
    simpa using Move.stored (m := i ∈ s.sessions) h
  | onSessionAdded i => exact hset .added j
  | listen i => exact hset .listens j
  | close i => exact hset (fun h => .begins h.1 h.2) j
  | delete i =>
    refine moves_ite (R := Move _) (g := State.session) (m := fun s j => j ∈ s.sessions) (fun _ _ => .stays) rfl
      (fun j hj => by simp [hj]) (fun h => ?_) j
    simpa using Move.deleted (m := i ∈ s.sessions) h
  | onSessionRemoved i => exact hset (fun h => .removed h fun hcareful => hcareful h) j
  | clear c =>
    simp only [step, State.clear]
    split
    · next r hc => simpa using Move.cleared fun hcareful : Careful s (.clear c) => hcareful ⟨r, hc⟩ j
    · exact .stays
  | _ =>
    simp only [step, State.visit, State.visited, State.rangeEnd]
    repeat' split
    all_goals exact .stays

/-! ## The invariant -/

/-- the calls of the observer, by how far the session has come -/
@[simp] def Session.told (x : Session) : List Note :=
  (if x.handler.Returned then [.added] else []) ++ if x.close = .complete then [.removed] else []

/-- of one session, and whether the manager has it -/
structure Inv (x : Session) (m : Prop) : Prop where
  notes : x.notes = x.told
  order : x.close = .complete → x.handler.Returned
  known : x.close ≠ .no → x.handler ≠ .new
  tracked : x.handler ≠ .new → x.close = .no → m
  member : m → x.handler ≠ .new

omit [DecidableEq ι] in
theorem inv_initial (i : ι) : Inv ((initial : State ι).session i) (i ∈ (initial : State ι).sessions) where
  notes := rfl
  order := nofun
  known h := absurd rfl h
  tracked h := absurd rfl h
  member h := absurd h (Finset.notMem_empty i)

theorem Inv.returned (h : Inv x m) (hclose : x.close = .deleted) (hstored : x.handler ≠ .stored) :
    x.handler.Returned := by
  have hnew := h.known (by simp [hclose])
  cases hh : x.handler with
  | new => exact absurd hh hnew
  | stored => exact absurd hh hstored
  | added => exact .inl rfl
  | listening => exact .inr rfl

theorem Move.inv (h : Move careful x m x' m') (hcareful : careful) (hx : Inv x m) : Inv x' m' := by
  obtain ⟨handler, close, notes⟩ := x
  have hnotes : notes = _ := hx.notes
  cases h with
  | stays => exact hx
  | stored h =>
    obtain rfl : handler = .new := h
    have hclose : close = .no := by
      by_contra hc
      exact hx.known hc rfl
    subst hclose
    exact ⟨hnotes, nofun, nofun, fun _ _ => trivial, nofun⟩
  | added h =>
    obtain rfl : handler = .stored := h
    have hclose : close ≠ .complete := fun hc => by simpa [Handler.Returned] using hx.order hc
    refine ⟨?_, fun _ => .inl rfl, nofun, fun _ => hx.tracked nofun, nofun⟩
    simp [hnotes, Handler.Returned, hclose]
  | listens h =>
    obtain rfl : handler = .added := h
    exact ⟨hnotes, fun _ => .inr rfl, nofun, fun _ => hx.tracked nofun, nofun⟩
  | begins hnew h =>
    obtain rfl : close = .no := h
    exact ⟨hnotes, nofun, fun _ => hnew, nofun, hx.member⟩
  | deleted h =>
    obtain rfl : close = .begun := h
    exact ⟨hnotes, nofun, fun _ => hx.known nofun, nofun, False.elim⟩
  | removed h hstored =>
    have hreturned := hx.returned h (hstored hcareful)
    obtain rfl : close = .deleted := h
    refine ⟨?_, fun _ => hreturned, fun _ => hx.known nofun, nofun, hx.member⟩
    simp [hnotes]
  | cleared h =>
    refine ⟨hnotes, hx.order, hx.known, fun hnew hclose => ?_, False.elim⟩
    exact h hcareful (hx.tracked hnew hclose) hclose

omit [DecidableEq ι] in
theorem good_of_inv (h : ∀ i, Inv (s.session i) (i ∈ s.sessions)) : Good s where
  order i := by
    have hi := h i
    rw [hi.notes]
    by_cases hadded : (s.session i).handler.Returned
    · by_cases hclosed : (s.session i).close = .complete
      · simp [hadded, hclosed]
      · simp [hadded, hclosed]
    · have hclosed : (s.session i).close ≠ .complete := fun hc => hadded (hi.order hc)
      simp [hadded, hclosed]
  added i hadded := by
    rw [(h i).notes]
    simp [hadded]
  removed i hclosed := by
    rw [(h i).notes]
    simp [hclosed]
  tracked i := (h i).tracked

theorem not_good {op : Op ι} (h : ∀ j, Inv (s.session j) (j ∈ s.sessions)) (hcareful : ¬ Careful s op) :
    ¬ Good (step s op) := by
  intro hgood
  cases op with
  | onSessionRemoved i =>
    simp only [Careful, Classical.not_imp, not_not] at hcareful
    obtain ⟨hdeleted, hstored⟩ := hcareful
    have hnotes : (s.session i).notes = [] := by
      simp [(h i).notes, Handler.Returned, hstored, hdeleted]
    have horder := hgood.order i
    simp [step, State.onSessionRemoved, State.set, hdeleted, hnotes] at horder
  | clear c =>
    simp only [Careful, not_forall, not_not] at hcareful
    obtain ⟨⟨r, hc⟩, i, hmem, hclose⟩ := hcareful
    have htracked := hgood.tracked i
    simp only [step, State.clear, hc] at htracked
    exact Finset.notMem_empty i (htracked ((h i).member hmem) hclose)
  | _ => exact hcareful trivial

/-! ## What Clean closes -/

theorem Move.complete (h : Move careful x m x' m') (hx : x.close = .complete) : x'.close = .complete := by
  cases h with
  | begins hnew h | deleted h => simp [h] at hx
  | removed h hstored => rfl
  | _ => exact hx

/-- what a call of Clean has visited is closed, except the session that it is at; so is, in the end, what was in the
manager all the time -/
def Cleaned (session : ι → Session) : Cleaner ι → Prop
  | .idle => True
  | .ranging r => ∀ j ∈ r.visited, (session j).close = .complete
  | .closing r i => ∀ j ∈ r.visited, j = i ∨ (session j).close = .complete
  | .clearing r => ∀ j ∈ r.whole, (session j).close = .complete

omit [DecidableEq ι] in
theorem Cleaned.mono {session session' : ι → Session} {x : Cleaner ι} (h : Cleaned session x)
    (hmono : ∀ j, (session j).close = .complete → (session' j).close = .complete) : Cleaned session' x := by
  cases x with
  | idle => trivial
  | ranging r | clearing r => exact fun j hj => hmono j (h j hj)
  | closing r i => exact fun j hj => (h j hj).imp_right (hmono j)

omit [DecidableEq ι] in
theorem Cleaned.map {session : ι → Session} {x : Cleaner ι} {f : Ranging ι → Ranging ι} (h : Cleaned session x)
    (hf : ∀ r, (f r).visited = r.visited) : Cleaned session (x.map f) := by
  cases x with
  | ranging r | closing r i => exact fun j hj => h j (hf r ▸ hj)
  | _ => exact h

omit [DecidableEq ι] in
/-- a call of Clean goes on, under a condition -/
theorem cleaned_setCleaner {c c' : ℕ} {x : Cleaner ι} {p : Prop} [Decidable p]
    (h : Cleaned s.session (s.cleaners c')) (hx : p → Cleaned s.session x) :
    Cleaned s.session ((if p then s.setCleaner c x else s).cleaners c') := by
  refine guard_inv (I := fun t : State ι => Cleaned s.session (t.cleaners c')) h fun hp => ?_
  by_cases hc : c' = c
  · subst hc
    simpa [State.setCleaner] using hx hp
  · simpa [State.setCleaner, hc] using h

section

variable {c c' : ℕ} (h : ∀ c, Cleaned s.session (s.cleaners c))

include h

theorem cleaned_visit (i : ι) : Cleaned s.session ((s.visit c i).cleaners c') := by
  unfold State.visit
  split
  · next r hc =>
    have hr : ∀ j ∈ r.visited, (s.session j).close = .complete := by simpa [Cleaned, hc] using h c
    refine cleaned_setCleaner (h c') fun hvisit j hj => ?_
    rw [Ranging.visit, if_pos hvisit] at hj
    rcases List.mem_append.1 hj with hj | hj
    · exact .inr (hr j hj)
    · exact .inl (List.mem_singleton.1 hj)
  · exact h c'

omit [DecidableEq ι] in
theorem cleaned_visited : Cleaned s.session ((s.visited c).cleaners c') := by
  unfold State.visited
  split
  · next r i hc =>
    have hr : ∀ j ∈ r.visited, j = i ∨ (s.session j).close = .complete := by simpa [Cleaned, hc] using h c
    refine cleaned_setCleaner (h c') fun hclosed j hj => ?_
    rcases hr j hj with rfl | hj
    · exact hclosed
    · exact hj
  · exact h c'

theorem cleaned_rangeEnd : Cleaned s.session ((s.rangeEnd c).cleaners c') := by
  unfold State.rangeEnd
  split
  · next r hc =>
    have hr : ∀ j ∈ r.visited, (s.session j).close = .complete := by simpa [Cleaned, hc] using h c
    exact cleaned_setCleaner (h c') fun hend j hj => hr j (hend j hj)
  · exact h c'

end

theorem cleaned_step (h : ∀ c, Cleaned s.session (s.cleaners c)) (op : Op ι) (c : ℕ) :
    Cleaned (step s op).session ((step s op).cleaners c) := by
  suffices hold : Cleaned s.session ((step s op).cleaners c) from hold.mono fun j hj => (step_move s op j).complete hj
  cases op with
  | store i | delete i =>
    exact guard_inv (I := fun t : State ι => Cleaned s.session (t.cleaners c)) (h c) fun _ => (h c).map fun _ => rfl
  | clean c' =>
    simp only [step]
    split
    · have hnone : Cleaned s.session (.ranging (.start s.sessions)) := fun j hj => absurd hj List.not_mem_nil
      simpa using cleaned_setCleaner (p := True) (h c) fun _ => hnone
    · exact h c
  | visit c' i => exact cleaned_visit h i
  | visited c' => exact cleaned_visited h
  | rangeEnd c' => exact cleaned_rangeEnd h
  | clear c' =>
    simp only [step, State.clear]
    split
    · by_cases hc : c = c'
      · subst hc
        simp [Cleaned]
      · simpa [hc] using (h c).map (f := fun r => { r with whole := ∅ }) fun _ => rfl
    · exact h c
  | _ =>
    simp only [step, State.onSessionAdded, State.onSessionRemoved]
    split_ifs
    all_goals exact h c

/-- **Late sessions.** A session that is not closed when Clean clears the map has not been in the manager for the whole
iteration. -/
theorem late_session (ops : List (Op ι)) {c : ℕ} {r : Ranging ι}
    (hc : (run step initial ops).cleaners c = .clearing r)
    (hopen : ((run step initial ops).session i).close ≠ .complete) : i ∉ r.whole := by
  have hcleaned : ∀ c, Cleaned (run step initial ops).session ((run step initial ops).cleaners c) :=
    run_inv (I := fun s : State ι => ∀ c, Cleaned s.session (s.cleaners c)) (fun _ op h => cleaned_step h op)
      (s := initial) (fun _ => trivial) ops
  have hwhole := hcleaned c
  rw [hc] at hwhole
  exact fun hi => hopen (hwhole i hi)

end

/-- **Notifications.** In every interleaving the observer is told in order and what is not being closed is in the
manager, in every state, if and only if every step is careful. -/
theorem notifications_iff (ops : List (Op ι)) :
    Always step Good (initial : State ι) ops ↔ Along step Careful (initial : State ι) ops :=
  always_iff_along_of_inv (I := fun s : State ι => ∀ i, Inv (s.session i) (i ∈ s.sessions)) (fun _ h => good_of_inv h)
    (fun s op h hc i => (step_move s op i).inv hc (h i)) (fun _ _ h hc => not_good h hc) inv_initial ops

/-- a session is closed between its store and the call of the observer -/
def closedEarly : List (Op Unit) := [.store (), .close (), .delete (), .onSessionRemoved (), .onSessionAdded ()]

/-- a connection is made between the iteration of Clean and its Clear -/
def madeLate : List (Op Unit) := [.clean 0, .rangeEnd 0, .store (), .onSessionAdded (), .listen (), .clear 0]

theorem removed_first :
    ((run step initial closedEarly).session ()).notes = [.removed, .added] ∧
    ((run step initial madeLate).session ()).close = .no ∧ () ∉ (run step initial madeLate).sessions := by
  decide

theorem madeLate_late :
    ((run step initial (madeLate.take 5)).session ()).close = .no ∧ () ∉ (Ranging.start (∅ : Finset Unit)).whole :=
  ⟨by decide, late_session (madeLate.take 5) (c := 0) rfl (by decide)⟩

end LuluExt.Websocket.Sessions
