/-
Shutdown of the WebRTC server: closeAllAndWait of its session manager.

It takes a snapshot of the sessions and closes each, then takes a second snapshot and waits for the write pump of each.
But Close removes the session from the manager, and returns only when it has: what was closed is not in the second
snapshot, and nobody waits for its pump.

The one exception is a session whose Close had passed the removal before the session was added, as that of a peer which
disconnects while its data channel opens: Close does nothing a second time, so the session stays in the manager, and is
waited for. But if its pump has not been started by then, waiting ends at once, and the pump may still start.

Any number of sessions run interleaved with one call of closeAllAndWait: `onOpen` (addSession, then Listen), calls of
Close from anywhere, and the pumps. A pump may return at any time, since a send may fail, and then calls Close.
-/
import LuluExt.Lib.Ranging
import LuluExt.Lib.Run

namespace LuluExt.Webrtc.Shutdown

open Run

/-! ## Model -/

/-- how far the function that `closeOnce` runs has come -/
inductive Closing where
  | no
  /-- `close(s.done)` and `closeConnection` -/
  | begun
  /-- `LoadAndDelete` of `removeSession` -/
  | removed
  | complete
deriving DecidableEq, Repr

inductive Pump where
  | idle
  | running
  | closing
  /-- after `wg.Done()` -/
  | ended
deriving DecidableEq, Repr

structure Session where
  added : Bool
  close : Closing
  pump : Pump
deriving DecidableEq, Repr

variable {ι : Type} [DecidableEq ι]

inductive Closer (ι : Type) where
  | idle
  | first (r : Ranging ι)
  | closing (todo : List ι)
  | second (r : Ranging ι)
  | waiting (todo : List ι)
  | returned

/-- the snapshots are told of a change of the manager -/
def Closer.map (f : Ranging ι → Ranging ι) : Closer ι → Closer ι
  | .first r => .first (f r)
  | .second r => .second (f r)
  | c => c

structure State (ι : Type) where
  sessions : Finset ι
  session : ι → Session
  closer : Closer ι

def initial : State ι := ⟨∅, fun _ => ⟨false, .no, .idle⟩, .idle⟩

inductive Op (ι : Type) where
  | addSession (i : ι)
  | listen (i : ι)
  /-- a call of Close, the first one; the others wait for it -/
  | close (i : ι)
  | removeSession (i : ι)
  | closed (i : ι)
  | pumpReturn (i : ι)
  | pumpDone (i : ι)
  | visit (i : ι)
  /-- closeAllAndWait goes on, if it can -/
  | next
deriving DecidableEq, Repr

namespace State

def set (s : State ι) (i : ι) (x : Session) : State ι := { s with session := Function.update s.session i x }

def addSession (s : State ι) (i : ι) : State ι :=
  if (s.session i).added then s
  else
    { s.set i { s.session i with added := true } with
      sessions := insert i s.sessions
      closer := s.closer.map fun r => r.stored i }

def listen (s : State ι) (i : ι) : State ι :=
  if (s.session i).added = true ∧ (s.session i).pump = .idle then s.set i { s.session i with pump := .running } else s

def removeSession (s : State ι) (i : ι) : State ι :=
  if (s.session i).close = .begun then
    { s.set i { s.session i with close := .removed } with
      sessions := s.sessions.erase i
      closer := s.closer.map fun r => r.deleted i }
  else s

/-- a call of closeAllAndWait begins with its first snapshot -/
def closeAllAndWait (s : State ι) : State ι := { s with closer := .first (.start s.sessions) }

/-- one statement of closeAllAndWait; the calls of Close and Wait return when they can -/
def next (s : State ι) : State ι :=
  match s.closer with
  | .idle => s
  | .first r => if r.CanEnd then { s with closer := .closing r.visited } else s
  | .closing [] => { s with closer := .second (.start s.sessions) }
  | .closing (i :: todo) => if (s.session i).close = .complete then { s with closer := .closing todo } else s
  | .second r => if r.CanEnd then { s with closer := .waiting r.visited } else s
  | .waiting [] => { s with closer := .returned }
  | .waiting (i :: todo) =>
    if (s.session i).pump = .idle ∨ (s.session i).pump = .ended then { s with closer := .waiting todo } else s
  | .returned => s

end State

def step (s : State ι) : Op ι → State ι
  | .addSession i => s.addSession i
  | .listen i => s.listen i
  | .close i => if (s.session i).close = .no then s.set i { s.session i with close := .begun } else s
  | .removeSession i => s.removeSession i
  | .closed i => if (s.session i).close = .removed then s.set i { s.session i with close := .complete } else s
  | .pumpReturn i => if (s.session i).pump = .running then s.set i { s.session i with pump := .closing } else s
  | .pumpDone i =>
    if (s.session i).pump = .closing ∧ (s.session i).close = .complete then
      s.set i { s.session i with pump := .ended }
    else s
  | .visit i => { s with closer := s.closer.map fun r => r.visit i }
  | .next => s.next

def Session.Quiet (x : Session) : Prop := x.pump = .idle ∨ x.pump = .ended

def Session.Removed (x : Session) : Prop := x.close = .removed ∨ x.close = .complete

/-! ## What a step does to one session -/

/-- a session, and whether the manager has it, before and after a step -/
inductive Move (x : Session) (m : Prop) : Session → Prop → Prop where
  | stays : Move x m x m
  | added : x.added = false → Move x m { x with added := true } True
  | listens : x.added = true → x.pump = .idle → Move x m { x with pump := .running } m
  | begins : x.close = .no → Move x m { x with close := .begun } m
  | removed : x.close = .begun → Move x m { x with close := .removed } False
  | closed : x.close = .removed → Move x m { x with close := .complete } m
  | pumpReturns : x.pump = .running → Move x m { x with pump := .closing } m
  | pumpEnds : x.pump = .closing → x.close = .complete → Move x m { x with pump := .ended } m

section

variable {s t : State ι} {i j : ι}

variable {x : Session}

theorem next_session (s : State ι) : s.next.session = s.session ∧ s.next.sessions = s.sessions := by
  unfold State.next
  split <;> try split_ifs
  all_goals exact ⟨rfl, rfl⟩

theorem step_move (s : State ι) (op : Op ι) (j : ι) :
    Move (s.session j) (j ∈ s.sessions) ((step s op).session j) (j ∈ (step s op).sessions) := by
  have hset {i : ι} {x : Session} {p : Prop} [Decidable p] :=
    moves_ite (p := p) (R := Move) (g := State.session) (m := fun s j => j ∈ s.sessions) (t := s.set i x)
      (fun _ _ => .stays) rfl (fun _ _ => Iff.rfl)
  cases op with
  | addSession i =>
    simp only [step, State.addSession]
    split_ifs with h
    · exact .stays
    · refine moves_set (g := State.session) (m := fun s j => j ∈ s.sessions) (fun _ _ => .stays) rfl
        (fun j hj => by simp [hj]) ?_ j
      simpa using Move.added (m := i ∈ s.sessions) (by simpa using h)
  | listen i => exact hset (fun h => .listens h.1 h.2) j
  | close i => exact hset .begins j
  | removeSession i =>
    refine moves_ite (R := Move) (g := State.session) (m := fun s j => j ∈ s.sessions) (fun _ _ => .stays) rfl
      (fun j hj => by simp [hj]) (fun h => ?_) j
    simpa using Move.removed (m := i ∈ s.sessions) h
  | closed i => exact hset .closed j
  | pumpReturn i => exact hset .pumpReturns j
  | pumpDone i => exact hset (fun h => .pumpEnds h.1 h.2) j
  | visit i => exact .stays
  | next =>
    simp only [step, next_session]
    exact .stays

/-! ## Reachable states -/

structure Inv (x : Session) (m : Prop) : Prop where
  added : m → x.added = true
  ended : x.pump = .ended → x.close = .complete

theorem Move.inv {x' : Session} {m m' : Prop} (h : Move x m x' m') (hx : Inv x m) : Inv x' m' := by
  obtain ⟨hadded, hended⟩ := hx
  cases h with
  | stays => exact ⟨hadded, hended⟩
  | added h => exact ⟨fun _ => rfl, hended⟩
  | listens h h' => exact ⟨hadded, nofun⟩
  | begins h => exact ⟨hadded, fun hp => by simp [hended hp] at h⟩
  | removed h => exact ⟨False.elim, fun hp => by simp [hended hp] at h⟩
  | closed h => exact ⟨hadded, fun _ => rfl⟩
  | pumpReturns h => exact ⟨hadded, nofun⟩
  | pumpEnds h h' => exact ⟨hadded, fun _ => h'⟩

theorem inv_run (ops : List (Op ι)) (i : ι) :
    Inv ((run step initial ops).session i) (i ∈ (run step initial ops).sessions) :=
  run_inv (I := fun s : State ι => Inv (s.session i) (i ∈ s.sessions)) (fun s op h => (step_move s op i).inv h)
    ⟨by simp [initial], by simp [initial]⟩ ops

/-! ## Sessions that stay in the manager are waited for -/

theorem Move.stays_removed {x' : Session} {m m' : Prop} (h : Move x m x' m') (hm : m) (hx : x.Removed)
    (hpump : x.pump ≠ .idle) : m' ∧ x'.Removed ∧ x'.pump ≠ .idle := by
  cases h with
  | stays => exact ⟨hm, hx, hpump⟩
  | added h => exact ⟨trivial, hx, hpump⟩
  | listens h h' => exact absurd h' hpump
  | begins h | removed h => simp [Session.Removed, h] at hx
  | closed h => exact ⟨hm, .inr rfl, hpump⟩
  | pumpReturns h | pumpEnds h h' => exact ⟨hm, hx, nofun⟩

theorem Move.stays_ended {x' : Session} {m m' : Prop} (h : Move x m x' m') (hx : x.pump = .ended) :
    x'.pump = .ended := by
  cases h with
  | listens h h' => simp [h'] at hx
  | pumpReturns h => simp [h] at hx
  | pumpEnds h h' => rfl
  | _ => exact hx

/-- from its second snapshot on, closeAllAndWait will wait for a session, or its pump has ended -/
def Owed (i : ι) (x : Session) : Closer ι → Prop
  | .second r => i ∈ r.whole
  | .waiting todo => i ∈ todo ∨ x.pump = .ended
  | .returned => x.pump = .ended
  | _ => True

omit [DecidableEq ι] in
theorem Owed.mono {x' : Session} {c : Closer ι} (h : Owed i x c) (hx : x.pump = .ended → x'.pump = .ended) :
    Owed i x' c := by
  cases c with
  | waiting todo => exact h.imp_right hx
  | returned => exact hx h
  | _ => exact h

omit [DecidableEq ι] in
theorem Owed.map {c : Closer ι} {f : Ranging ι → Ranging ι} (h : Owed i x c)
    (hf : ∀ r, i ∈ r.whole → i ∈ (f r).whole) : Owed i x (c.map f) := by
  cases c with
  | second r => exact hf r h
  | _ => exact h

theorem owed_next (hmem : i ∈ s.sessions) (hpump : (s.session i).pump ≠ .idle)
    (h : Owed i (s.session i) s.closer) : Owed i (s.session i) s.next.closer := by
  have hguard {p : Prop} [Decidable p] {t : State ι} :=
    guard_inv (I := fun t : State ι => Owed i (s.session i) t.closer) (p := p) (t := t) h
  unfold State.next
  split
  · exact h
  · exact hguard fun _ => trivial
  · exact hmem
  · exact hguard fun _ => trivial
  · next r hc =>
    rw [hc] at h
    exact hguard fun hend => .inl (hend i h)
  · next hc =>
    rw [hc] at h
    exact h.resolve_left List.not_mem_nil
  · next j todo hc =>
    rw [hc] at h
    refine hguard fun hquiet => ?_
    rcases h with h | h
    · rcases List.mem_cons.1 h with rfl | h
      · exact .inr (hquiet.resolve_left hpump)
      · exact .inl h
    · exact .inr h
  · exact h

theorem owed_step (hmem : i ∈ s.sessions) (hremoved : (s.session i).Removed) (hpump : (s.session i).pump ≠ .idle)
    (h : Owed i (s.session i) s.closer) (op : Op ι) : Owed i ((step s op).session i) (step s op).closer := by
  have hended := (step_move s op i).stays_ended
  refine Owed.mono ?_ hended
  cases op with
  | next => exact owed_next hmem hpump h
  | addSession j =>
    simp only [step, State.addSession]
    split_ifs
    · exact h
    · exact h.map fun r hr => hr
  | removeSession j =>
    simp only [step, State.removeSession]
    split_ifs with hj
    · refine h.map fun r hr => Finset.mem_erase.2 ⟨?_, hr⟩
      rintro rfl
      simp [Session.Removed, hj] at hremoved
    · exact h
  | visit j => exact h.map fun r hr => by rwa [Ranging.visit_whole]
  | listen j | close j | closed j | pumpReturn j | pumpDone j =>
    exact guard_inv (I := fun t : State ι => Owed i (s.session i) t.closer) h fun _ => h

/-- the pump of a session that was removed before it was added, if started, has ended when closeAllAndWait returns -/
theorem ended_of_removed (hmem : i ∈ s.sessions) (hremoved : (s.session i).Removed)
    (hpump : (s.session i).pump ≠ .idle) (ops : List (Op ι))
    (hret : (run step s.closeAllAndWait ops).closer = .returned) :
    ((run step s.closeAllAndWait ops).session i).pump = .ended := by
  have howed : Owed i ((run step s.closeAllAndWait ops).session i) (run step s.closeAllAndWait ops).closer := by
    refine And.right (run_inv (I := fun t : State ι =>
      (i ∈ t.sessions ∧ (t.session i).Removed ∧ (t.session i).pump ≠ .idle) ∧ Owed i (t.session i) t.closer)
      (fun t op h => ⟨?_, ?_⟩) (s := s.closeAllAndWait) ⟨⟨hmem, hremoved, hpump⟩, trivial⟩ ops)
    · exact (step_move t op i).stays_removed h.1.1 h.1.2.1 h.1.2.2
    · exact owed_step h.1.1 h.1.2.1 h.1.2.2 h.2 op
  rw [hret] at howed
  exact howed

/-! ## The others are not -/

omit [DecidableEq ι] in
theorem Closer.map_map (f g : Ranging ι → Ranging ι) (c : Closer ι) : (c.map f).map g = c.map fun r => g (f r) := by
  cases c with
  | _ => rfl

theorem run_visits (s : State ι) (l : List ι) :
    run step s (l.map .visit) = { s with closer := s.closer.map fun r => l.foldl Ranging.visit r } := by
  induction l generalizing s with
  | nil => cases hc : s.closer <;> simp [Closer.map, ← hc]
  | cons i l ih =>
    rw [List.map_cons, run_cons, ih]
    simp only [step, Closer.map_map, List.foldl_cons]

theorem foldl_visit_start (keys : Finset ι) :
    keys.toList.foldl Ranging.visit (.start keys) = ⟨keys, keys, keys.toList⟩ :=
  Ranging.foldl_visit (fun _ hi => Finset.mem_toList.1 hi) keys.nodup_toList

theorem first_snapshot (s : State ι) :
    ∃ ops, run step s.closeAllAndWait ops = { s with closer := .closing s.sessions.toList } := by
  refine ⟨s.sessions.toList.map .visit ++ [.next], ?_⟩
  rw [run_append, run_visits]
  simp only [State.closeAllAndWait, Closer.map, foldl_visit_start]
  exact if_pos fun i hi => Finset.mem_toList.2 hi

theorem second_snapshot (hc : s.closer = .closing []) :
    ∃ ops, run step s ops = { s with closer := .waiting s.sessions.toList } := by
  refine ⟨.next :: (s.sessions.toList.map .visit ++ [.next]), ?_⟩
  have hfirst : step s .next = { s with closer := .second (.start s.sessions) } := by
    simp only [step, State.next, hc]
  rw [run_cons, hfirst, run_append, run_visits]
  simp only [Closer.map, foldl_visit_start]
  exact if_pos fun i hi => Finset.mem_toList.2 hi

variable {todo : List ι}

theorem close_one (hc : s.closer = .closing (i :: todo)) :
    ∃ ops, (run step s ops).closer = .closing todo ∧
      (run step s ops).session = Function.update s.session i { s.session i with close := .complete } ∧
      (run step s ops).sessions ⊆ s.sessions ∧
      (¬ (s.session i).Removed → i ∉ (run step s ops).sessions) := by
  refine ⟨[.close i, .removeSession i, .closed i, .next], ?_⟩
  cases hclose : (s.session i).close with
  | no | begun => simp [step, State.removeSession, State.next, State.set, Closer.map, hc, hclose, Finset.erase_subset]
  | removed => simp [step, State.removeSession, State.next, State.set, hc, hclose, Session.Removed]
  | complete =>
    have hsame : { s.session i with close := .complete } = s.session i := by rw [← hclose]
    simp [step, State.removeSession, State.next, hc, hclose, Session.Removed, hsame]

/-- what the calls of Close come to -/
structure Closed (s t : State ι) (todo : List ι) : Prop where
  closer : t.closer = .closing []
  pump : ∀ j, (t.session j).pump = (s.session j).pump ∧ (t.session j).added = (s.session j).added
  complete : ∀ j, j ∈ todo ∨ (s.session j).close = .complete → (t.session j).close = .complete
  sub : t.sessions ⊆ s.sessions
  gone : ∀ j ∈ todo, ¬ (s.session j).Removed → j ∉ t.sessions

theorem close_all (hc : s.closer = .closing todo) : ∃ ops, Closed s (run step s ops) todo := by
  induction todo generalizing s with
  | nil => exact ⟨[], hc, fun j => ⟨rfl, rfl⟩, fun j h => h.resolve_left List.not_mem_nil, fun _ h => h, nofun⟩
  | cons i todo ih =>
    obtain ⟨ops, hc₁, hsession, hsub, hgone⟩ := close_one hc
    obtain ⟨ops', ht⟩ := ih hc₁
    refine ⟨ops ++ ops', ?_⟩
    rw [run_append]
    generalize run step s ops = u at *
    have hother : ∀ j, j ≠ i → u.session j = s.session j := fun j hj => by rw [hsession, Function.update_of_ne hj]
    have hself : u.session i = { s.session i with close := .complete } := by rw [hsession, Function.update_self]
    refine ⟨ht.closer, fun j => ?_, fun j hj => ?_, ht.sub.trans hsub, fun j hj hremoved => ?_⟩
    · rw [(ht.pump j).1, (ht.pump j).2]
      by_cases h : j = i
      · rw [h, hself]
        exact ⟨rfl, rfl⟩
      · rw [hother j h]
        exact ⟨rfl, rfl⟩
    · refine ht.complete j ?_
      by_cases h : j = i
      · exact .inr (by rw [h, hself])
      · rw [hother j h]
        exact hj.imp_left fun hj => (List.mem_cons.1 hj).resolve_left h
    · by_cases h : j = i
      · rw [h] at hremoved ⊢
        exact fun hmem => hgone hremoved (ht.sub hmem)
      · refine ht.gone j ((List.mem_cons.1 hj).resolve_left h) ?_
        rwa [hother j h]

theorem wait_one (hc : s.closer = .waiting (i :: todo)) (hclose : (s.session i).close = .complete) :
    ∃ ops, (run step s ops).closer = .waiting todo ∧
      (∀ j, j ≠ i → (run step s ops).session j = s.session j) ∧
      ((run step s ops).session i).close = .complete ∧
      ((s.session i).pump = .idle → (run step s ops).session i = s.session i) := by
  refine ⟨[.pumpReturn i, .pumpDone i, .next], ?_⟩
  cases hpump : (s.session i).pump with
  | idle | ended => simp [step, State.next, hc, hclose, hpump]
  | running | closing => simp +contextual [step, State.next, State.set, hc, hclose, hpump]

/-- the calls of Wait return, and leave alone the sessions they are not for, and those whose pump was not started -/
theorem wait_all (hc : s.closer = .waiting todo) (hclose : ∀ j ∈ todo, (s.session j).close = .complete)
    (hi : i ∈ todo → (s.session i).pump = .idle) :
    ∃ ops, (run step s ops).closer = .waiting [] ∧ (run step s ops).session i = s.session i := by
  induction todo generalizing s with
  | nil => exact ⟨[], hc, rfl⟩
  | cons j todo ih =>
    obtain ⟨ops, hc₁, hother, hcomplete, hidle⟩ := wait_one hc (hclose j List.mem_cons_self)
    have hsame : (run step s ops).session i = s.session i := by
      by_cases h : i = j
      · subst h
        exact hidle (hi List.mem_cons_self)
      · exact hother i h
    have hclose' : ∀ k ∈ todo, ((run step s ops).session k).close = .complete := by
      intro k hk
      by_cases h : k = j
      · rw [h, hcomplete]
      · rw [hother k h]
        exact hclose k (List.mem_cons_of_mem j hk)
    have hi' : i ∈ todo → ((run step s ops).session i).pump = .idle := by
      intro hmem
      rw [hsame]
      exact hi (List.mem_cons_of_mem j hmem)
    obtain ⟨ops', hc', hsame'⟩ := ih hc₁ hclose' hi'
    exact ⟨ops ++ ops', by rw [run_append, hc'], by rw [run_append, hsame', hsame]⟩

/-- a session that Close removes, or whose pump was not started, can be left with its pump running -/
theorem left_running (hinv : Inv (s.session i) (i ∈ s.sessions)) (hmem : i ∈ s.sessions)
    (hi : ¬ ((s.session i).Removed ∧ (s.session i).pump ≠ .idle)) :
    ∃ ops, (run step s.closeAllAndWait ops).closer = .returned ∧
      ¬ ((run step s.closeAllAndWait ops).session i).Quiet := by
  obtain ⟨ops₁, h₁⟩ := first_snapshot s
  obtain ⟨ops₂, h₂⟩ := close_all (s := { s with closer := .closing s.sessions.toList }) rfl
  generalize hu : run step { s with closer := .closing s.sessions.toList } ops₂ = u at h₂
  obtain ⟨ops₃, h₃⟩ := second_snapshot h₂.closer
  have hclose : ∀ j ∈ u.sessions.toList, (u.session j).close = .complete := by
    intro j hj
    exact h₂.complete j (.inl (Finset.mem_toList.2 (h₂.sub (Finset.mem_toList.1 hj))))
  -- what is waited for is what Close did not remove
  have hidle : i ∈ u.sessions.toList → (u.session i).pump = .idle := by
    intro hj
    rw [(h₂.pump i).1]
    by_contra hpump
    have hremoved : ¬ (s.session i).Removed := fun h => hi ⟨h, hpump⟩
    exact h₂.gone i (Finset.mem_toList.2 hmem) hremoved (Finset.mem_toList.1 hj)
  obtain ⟨ops₄, hc₄, hsame⟩ := wait_all (s := { u with closer := .waiting u.sessions.toList }) rfl hclose hidle
  generalize hv : run step { u with closer := .waiting u.sessions.toList } ops₄ = v at hc₄ hsame
  refine ⟨ops₁ ++ (ops₂ ++ (ops₃ ++ (ops₄ ++ [.listen i, .next]))), ?_⟩
  rw [run_append, h₁, run_append, hu, run_append, h₃, run_append, hv]
  have hadded : (v.session i).added := by
    rw [hsame, (h₂.pump i).2]
    exact hinv.added hmem
  have hended : (v.session i).pump ≠ .ended := by
    rw [hsame, (h₂.pump i).1]
    intro h
    exact hi ⟨.inr (hinv.ended h), by rw [h]; nofun⟩
  cases hpump : (v.session i).pump with
  | ended => exact absurd hpump hended
  | _ => simp [step, State.listen, State.next, State.set, Session.Quiet, hadded, hpump, hc₄]

end

/-- **Shutdown.** When closeAllAndWait returns, in every interleaving, no pump of a session that was in the manager at
the call is running, if and only if the Close of each of these sessions had passed its removal before the call, and its
pump had been started. -/
theorem shutdown_iff (pre : List (Op ι)) :
    (∀ ops, (run step (run step initial pre).closeAllAndWait ops).closer = .returned →
      ∀ i ∈ (run step initial pre).sessions,
        ((run step (run step initial pre).closeAllAndWait ops).session i).Quiet) ↔
    ∀ i ∈ (run step initial pre).sessions,
      ((run step initial pre).session i).Removed ∧ ((run step initial pre).session i).pump ≠ .idle := by
  constructor
  · intro h i hmem
    by_contra hi
    obtain ⟨ops, hret, hleft⟩ := left_running (inv_run pre i) hmem hi
    exact hleft (h ops hret i hmem)
  · intro h ops hret i hmem
    obtain ⟨hremoved, hpump⟩ := h i hmem
    exact .inr (ended_of_removed hmem hremoved hpump ops hret)

/-- a session is added and its pump started; closeAllAndWait closes it and returns -/
def stopped : State Unit :=
  run step (run step initial [.addSession (), .listen ()]).closeAllAndWait
    [.visit (), .next, .close (), .removeSession (), .closed (), .next, .next, .next, .next]

theorem pump_left :
    () ∈ (run step initial [Op.addSession (), .listen ()]).sessions ∧
    stopped.closer = .returned ∧ (stopped.session ()).pump = .running := by
  refine ⟨by decide, ?_, by decide⟩
  rfl

end LuluExt.Webrtc.Shutdown
