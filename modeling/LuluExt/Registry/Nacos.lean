/-
The watcher of a service in the Nacos registry: changes are coalesced into one token.

The subscription callback puts a token into a channel with one slot, `Next` takes it and then asks for the service. The
token is gone before the answer is known: when the request fails, nothing is left of the change it stood for, and the
next call of `Next` waits for another change. Calls of `Next` that overlap may also return in another order than their
requests were answered.

Changes, callbacks and any number of calls of `Next` are interleaved step by step. Each change is followed by a
callback; there may be more of them.
-/
import LuluExt.Lib.Run
import LuluExt.Lib.Go

namespace LuluExt.Nacos

open Run

/-- what the registry knows of an instance, as far as the watcher reads it -/
structure Host where
  instanceId : String
  ip : String
  port : ℕ
  metadata : List (String × String)
deriving DecidableEq, Repr

structure Service where
  name : String
  hosts : List Host
deriving DecidableEq, Repr

structure Instance where
  id : String
  name : String
  version : String
  metadata : List (String × String)
  endpoints : List String
deriving DecidableEq, Repr

/-- the kind of the metadata replaces that of the registry -/
def toInstance (kind name : String) (host : Host) : Instance where
  id := host.instanceId
  name := name
  version := (host.metadata.lookup "version").getD ""
  metadata := host.metadata
  endpoints := [(host.metadata.lookup "kind").getD kind ++ "://" ++ host.ip ++ ":" ++ toString host.port]

def items (kind : String) (res : Service) : List Instance := res.hosts.map (toInstance kind res.name)

/-- where a call of `Next` is; one that waits for the token has not begun -/
inductive Pc where
  | idle
  | getService
  | returning (res : Service)
deriving DecidableEq, Repr

structure State (ι : Type) where
  service : Service
  owed : ℕ
  /-- the slot of `watchChan` -/
  token : Bool
  ctxDone : Bool
  pc : ι → Pc
  /-- what `Next` returned last without an error -/
  last : Option (List Instance)

variable {ι : Type}

/-- the watcher, which is returned with the error of the subscription; the callback may have put a token already -/
def newWatcher (service : Service) (subscribed : Option GoError) : State ι × Option GoError :=
  (⟨service, 0, true, false, fun _ => .idle, none⟩, subscribed)

inductive Op (ι : Type) where
  | change (service : Service)
  | callback
  | take (i : ι)
  | get (i : ι) (err : Option GoError)
  | ret (i : ι)
  | stop

def step [DecidableEq ι] (kind : String) (s : State ι) : Op ι → State ι
  | .change service => { s with service, owed := s.owed + 1 }
  | .callback => { s with owed := s.owed - 1, token := true }
  | .take i =>
    if s.pc i = .idle ∧ s.token = true then { s with token := false, pc := Function.update s.pc i .getService } else s
  | .get i err =>
    match s.pc i, err with
    | .getService, some _ => { s with pc := Function.update s.pc i .idle }
    | .getService, none => { s with pc := Function.update s.pc i (.returning s.service) }
    | _, _ => s
  | .ret i =>
    match s.pc i with
    | .returning res => { s with pc := Function.update s.pc i .idle, last := some (items kind res) }
    | _ => s
  | .stop => { s with ctxDone := true }

/-- `Next` blocks: neither case of its select is ready -/
def State.Blocks (s : State ι) : Prop := s.token = false ∧ s.ctxDone = false

def State.Current (kind : String) (s : State ι) : Prop := s.last = some (items kind s.service)

/-- the callbacks have run and no call is under way: `Next` does not block, or what it returned last is current -/
def Wakes (kind : String) (s : State ι) : Prop :=
  s.owed = 0 → (∀ i, s.pc i = .idle) → ¬ s.Current kind → ¬ s.Blocks

/-- nothing is left that would make a later call return, apart from this one -/
structure LeavesNothing (s : State ι) (i : ι) : Prop where
  owed : s.owed = 0
  blocks : s.Blocks
  others : ∀ j, j ≠ i → s.pc j = .idle

/-- the end of a call that leaves nothing behind: the current list is returned, or was -/
def Kept (kind : String) (s : State ι) : Op ι → Prop
  | .get i err => s.pc i = .getService → err ≠ none → LeavesNothing s i → s.Current kind
  | .ret i => ∀ res, s.pc i = .returning res → LeavesNothing s i → items kind res = items kind s.service
  | _ => True

/-- no request fails, and no call begins while another one is under way -/
def Orderly (s : State ι) : Op ι → Prop
  | .take i => s.pc i = .idle → s.token = true → ∀ j, j ≠ i → s.pc j = .idle
  | .get i err => s.pc i = .getService → err = none
  | _ => True

/-! ## One step -/

inductive Turn [DecidableEq ι] (kind : String) (s : State ι) : Op ι → State ι → Prop where
  | changed (service : Service) : Turn kind s (.change service) { s with service, owed := s.owed + 1 }
  | called : Turn kind s .callback { s with owed := s.owed - 1, token := true }
  | taken {i : ι} (hpc : s.pc i = .idle) (htoken : s.token = true) :
      Turn kind s (.take i) { s with token := false, pc := Function.update s.pc i .getService }
  | failed {i : ι} (hpc : s.pc i = .getService) (err : GoError) :
      Turn kind s (.get i (some err)) { s with pc := Function.update s.pc i .idle }
  | answered {i : ι} (hpc : s.pc i = .getService) :
      Turn kind s (.get i none) { s with pc := Function.update s.pc i (.returning s.service) }
  | returned {i : ι} {res : Service} (hpc : s.pc i = .returning res) :
      Turn kind s (.ret i) { s with pc := Function.update s.pc i .idle, last := some (items kind res) }
  | stopped : Turn kind s .stop { s with ctxDone := true }
  | blocked {op : Op ι} : Turn kind s op s

variable [DecidableEq ι] {kind : String} {s : State ι}

theorem turn_step (op : Op ι) : Turn kind s op (step kind s op) := by
  cases op with
  | change service => exact .changed service
  | callback => exact .called
  | take i =>
    simp only [step]
    split_ifs with h
    · exact .taken h.1 h.2
    · exact .blocked
  | get i err =>
    cases hpc : s.pc i <;> cases err <;> simp only [step, hpc]
    case getService.none => exact .answered hpc
    case getService.some err => exact .failed hpc err
    all_goals exact .blocked
  | ret i =>
    cases hpc : s.pc i <;> simp only [step, hpc]
    case returning res => exact .returned hpc
    all_goals exact .blocked
  | stop => exact .stopped

theorem others_idle {i : ι} {pc : Pc} (hidle : ∀ j, Function.update s.pc i pc j = .idle) :
    pc = .idle ∧ ∀ j, j ≠ i → s.pc j = .idle := by
  refine ⟨by simpa using hidle i, fun j hj => ?_⟩
  simpa [hj] using hidle j

theorem wakes_turn {op : Op ι} {s' : State ι} (hturn : Turn kind s op s') (h : Wakes kind s)
    (hkept : Kept kind s op) : Wakes kind s' := by
  cases hturn with
  | changed service => exact fun howed => absurd howed (by simp)
  | called => exact fun _ _ _ hblocks => absurd hblocks.1 (by simp)
  | taken _ _ | answered hpc => exact fun _ hidle => absurd (others_idle hidle).1 (by simp)
  | failed hpc err =>
    intro howed hidle hcur hblocks
    exact hcur (hkept hpc (by simp) ⟨howed, hblocks, (others_idle hidle).2⟩)
  | returned hpc =>
    intro howed hidle hcur hblocks
    exact hcur (congrArg some (hkept _ hpc ⟨howed, hblocks, (others_idle hidle).2⟩))
  | stopped => exact fun _ _ _ hblocks => absurd hblocks.2 (by simp)
  | blocked => exact h

theorem idle_update {i : ι} (hothers : ∀ j, j ≠ i → s.pc j = .idle) (j : ι) :
    Function.update s.pc i .idle j = .idle := by
  by_cases hj : j = i
  · simp [hj]
  · simpa [hj] using hothers j hj

theorem not_wakes {op : Op ι} (hkept : ¬ Kept kind s op) : ¬ Wakes kind (step kind s op) := by
  cases op with
  | get i err =>
    simp only [Kept, not_forall] at hkept
    obtain ⟨hpc, herr, hnothing, hcur⟩ := hkept
    obtain ⟨err, rfl⟩ := Option.ne_none_iff_exists'.1 herr
    intro hwakes
    simp only [step, hpc] at hwakes
    exact hwakes hnothing.owed (idle_update hnothing.others) hcur hnothing.blocks
  | ret i =>
    simp only [Kept, not_forall] at hkept
    obtain ⟨res, hpc, hnothing, hne⟩ := hkept
    intro hwakes
    simp only [step, hpc] at hwakes
    exact hwakes hnothing.owed (idle_update hnothing.others) (fun hcur => hne (Option.some.inj hcur)) hnothing.blocks
  | _ => exact absurd trivial hkept

/-! ## Orderly runs -/

/-- one call at most is under way; what it is about to return is current unless a change is left behind -/
structure Known (s : State ι) : Prop where
  single : ∀ i j, s.pc i ≠ .idle → s.pc j ≠ .idle → i = j
  returning : ∀ i res, s.pc i = .returning res → s.token = false → s.owed = 0 → res = s.service

theorem single_update {i : ι} {pc : Pc} (h : ∀ j, j ≠ i → s.pc j = .idle) (j k : ι)
    (hj : Function.update s.pc i pc j ≠ .idle) (hk : Function.update s.pc i pc k ≠ .idle) : j = k := by
  have hat : ∀ l, Function.update s.pc i pc l ≠ .idle → l = i := by
    intro l hl
    by_contra hli
    exact hl (by simpa [hli] using h l hli)
  exact (hat j hj).trans (hat k hk).symm

omit [DecidableEq ι] in
theorem Known.others (h : Known s) {i : ι} (hpc : s.pc i ≠ .idle) (j : ι) (hj : j ≠ i) : s.pc j = .idle := by
  by_contra hne
  exact hj (h.single j i hne hpc)

theorem known_turn {op : Op ι} {s' : State ι} (hturn : Turn kind s op s') (h : Known s) (horderly : Orderly s op) :
    Known s' := by
  cases hturn with
  | changed service => exact ⟨h.single, fun _ _ _ _ howed => absurd howed (by simp)⟩
  | called => exact ⟨h.single, fun _ _ _ htoken => absurd htoken (by simp)⟩
  | @taken i hpc htoken =>
    have hothers := horderly hpc htoken
    refine ⟨single_update hothers, fun j res hj _ _ => ?_⟩
    by_cases hji : j = i
    · simp [hji] at hj
    · simp [hji, hothers j hji] at hj
  | failed hpc err => cases horderly hpc
  | @answered i hpc =>
    have hothers := h.others (by simp [hpc] : s.pc i ≠ .idle)
    refine ⟨single_update hothers, fun j res hj _ _ => ?_⟩
    by_cases hji : j = i
    · simpa [hji] using hj.symm
    · simp [hji, hothers j hji] at hj
  | @returned i res hpc =>
    have hothers := h.others (by simp [hpc] : s.pc i ≠ .idle)
    refine ⟨single_update hothers, fun j res hj => ?_⟩
    simp [idle_update hothers j] at hj
  | stopped => exact ⟨h.single, h.returning⟩
  | blocked => exact h

omit [DecidableEq ι] in
theorem kept_of_known {op : Op ι} (h : Known s) (horderly : Orderly s op) : Kept kind s op := by
  cases op with
  | get i err => exact fun hpc herr => absurd (horderly hpc) herr
  | ret i =>
    intro res hpc hnothing
    rw [h.returning i res hpc hnothing.blocks.1 hnothing.owed]
  | _ => trivial

/-! ## Runs -/

/-- **When no update is lost.** Whenever the callbacks have run and no call is under way, `Next` does not block unless
the list it returned last is the current one, if and only if each call that leaves no token, no callback and no other
call behind returns the current list, or fails while the list returned last is current. It is enough that no request
fails and that calls do not overlap. -/
theorem update_kept_iff (kind : String) (service : Service) (subscribed : Option GoError) (ops : List (Op ι)) :
    (Always (step kind) (Wakes kind) (newWatcher service subscribed).1 ops ↔
      Along (step kind) (Kept kind) (newWatcher service subscribed).1 ops) ∧
    (Along (step kind) Orderly (newWatcher service subscribed).1 ops →
      Along (step kind) (Kept kind) (newWatcher service subscribed).1 ops) := by
  constructor
  · refine always_iff_along_of_inv (I := Wakes kind) (fun _ h => h) (fun _ op => wakes_turn (turn_step op))
      (fun _ _ _ => not_wakes) ?_ ops
    exact fun _ _ _ hblocks => Bool.noConfusion hblocks.1
  · intro horderly
    have hknown : Known (newWatcher (ι := ι) service subscribed).1 :=
      ⟨fun _ _ hi => absurd rfl hi, fun _ _ hi => by cases hi⟩
    have hstep : ∀ (s : State ι) (op : Op ι), Known s → Orderly s op → Known (step kind s op) :=
      fun _ op => known_turn (turn_step op)
    exact along_of_along hstep (fun _ _ h ho => kept_of_known h ho) hknown horderly

def oneHost : Service := ⟨"orders", [⟨"a", "10.0.0.1", 80, []⟩]⟩

def twoHosts : Service := ⟨"orders", [⟨"a", "10.0.0.1", 80, []⟩, ⟨"b", "10.0.0.2", 80, [("kind", "http")]⟩]⟩

def watched (ops : List (Op Bool)) : State Bool := run (step "grpc") (newWatcher oneHost none).1 ops

/-- the first call is answered before the change and returns after the second one -/
def overtaken : List (Op Bool) :=
  [.take false, .get false none, .change twoHosts, .callback, .take true, .get true none, .ret true, .ret false]

/-- **Lost updates.** The first request fails; a request fails after a change; and two calls return in the other order.
Each time `Next` blocks. -/
theorem update_lost :
    ¬ Wakes "grpc" (watched [.take false, .get false (some ⟨"timeout"⟩)]) ∧
    ¬ Wakes "grpc" (watched [.take false, .get false none, .ret false, .change twoHosts, .callback, .take false,
        .get false (some ⟨"timeout"⟩)]) ∧
    ¬ Wakes "grpc" (watched overtaken) ∧ (watched overtaken).last = some (items "grpc" oneHost) := by
  refine ⟨fun h => ?_, fun h => ?_, fun h => ?_, rfl⟩
  all_goals exact h rfl (by decide) (by unfold State.Current; decide) ⟨rfl, rfl⟩

end LuluExt.Nacos
