/-
Watching a service in Kubernetes: the callbacks of the pod informer and `GetService`.

Each watcher has an event handler of its own, which the informer calls for one event after another. Its filter asserts
that the object is a pod, which the tombstone of a deletion that the informer has missed is not. The handler asks
`GetService` for the instances, panics if there is an error, and sends them to the watcher's channel, which has room for
one list. `GetService` stops at the first running pod whose annotations cannot be decoded. A panic on the goroutine of a
handler ends the process.

Changes of the pods, events of any kind for any watcher, and calls of `Next`, `Stop`, `Close` and `GetService` are
interleaved step by step. A handler that waits for room in the channel takes no event.

Results: `getServiceInstanceFromPod_ok_iff`, `getService_ok_iff`, `robust_iff`.
-/
import LuluExt.Lib.Run
import LuluExt.Registry.Kubernetes

namespace LuluExt.KubernetesWatch

open Run Kubernetes

/-! ## GetService -/

def collect (lib : Json) : List Pod → Except GoError (List Instance)
  | [] => .ok []
  | pod :: pods =>
    if pod.phase ≠ .running then collect lib pods
    else
      match getServiceInstanceFromPod lib pod with
      | .error err => .error err
      | .ok inst =>
        match collect lib pods with
        | .error err => .error err
        | .ok ret => .ok (inst :: ret)

/-- what the lister returns for the selector: the label has to be there -/
def selected (pods : List Pod) (name : String) : List Pod :=
  pods.filter fun pod => pod.labels.lookup labelsKeyServiceName = some name

def getService (lib : Json) (pods : List Pod) (name : String) : Except GoError (List Instance) :=
  collect lib (selected pods name)

/-- an annotation that is not read, or that is a JSON object of strings -/
def Readable (lib : Json) (value : String) : Prop :=
  isEmptyObjectString value = true ∨ ∃ m, lib.unmarshal value = .ok m

structure WellFormed (lib : Json) (pod : Pod) : Prop where
  metadata : Readable lib (pod.annotations.get annotationsKeyMetadata)
  protocols : Readable lib (pod.annotations.get annotationsKeyProtocolMap)

/-- every running pod of the service can be decoded -/
def AllWellFormed (lib : Json) (pods : List Pod) (name : String) : Prop :=
  ∀ pod ∈ selected pods name, pod.phase = .running → WellFormed lib pod

def instances (lib : Json) (pods : List Pod) : List Instance :=
  (pods.filter fun pod => pod.phase = .running).filterMap fun pod => (getServiceInstanceFromPod lib pod).toOption

section

variable {pod : Pod} (lib : Json)

theorem getMapFromPod_ok_iff {key : String} :
    (∃ m, getMapFromPod lib key pod = .ok m) ↔ Readable lib (pod.annotations.get key) := by
  rw [getMapFromPod, Readable]
  split_ifs with hempty
  · exact iff_of_true ⟨∅, rfl⟩ (Or.inl hempty)
  · cases lib.unmarshal (pod.annotations.get key) with
    | error err => simp [hempty]
    | ok m => exact iff_of_true ⟨m, rfl⟩ (Or.inr ⟨m, rfl⟩)

/-- **The pods that can be decoded.** -/
theorem getServiceInstanceFromPod_ok_iff :
    (∃ inst, getServiceInstanceFromPod lib pod = .ok inst) ↔ WellFormed lib pod := by
  have hwell : WellFormed lib pod ↔ Readable lib (pod.annotations.get annotationsKeyMetadata) ∧
      Readable lib (pod.annotations.get annotationsKeyProtocolMap) := ⟨fun h => ⟨h.1, h.2⟩, fun h => ⟨h.1, h.2⟩⟩
  rw [hwell, ← getMapFromPod_ok_iff lib, ← getMapFromPod_ok_iff lib, getServiceInstanceFromPod,
    getMetadataFromPod, getProtocolMapFromPod]
  cases getMapFromPod lib annotationsKeyMetadata pod with
  | error err => simp
  | ok metadata =>
    cases getMapFromPod lib annotationsKeyProtocolMap pod with
    | error err | ok protocolMap => simp

theorem instances_cons (pod : Pod) (pods : List Pod) : instances lib (pod :: pods) =
    if pod.phase = .running then (getServiceInstanceFromPod lib pod).toOption.toList ++ instances lib pods
    else instances lib pods := by
  split_ifs with hrunning
  · cases hinst : (getServiceInstanceFromPod lib pod).toOption with
    | none | some inst => simp [instances, hrunning, hinst]
  · simp [instances, hrunning]

theorem collect_ok_iff (pods : List Pod) :
    collect lib pods = .ok (instances lib pods) ↔ ∀ pod ∈ pods, pod.phase = .running → WellFormed lib pod := by
  induction pods with
  | nil => simp [collect, instances]
  | cons pod pods ih =>
    rw [List.forall_mem_cons, ← ih, collect, instances_cons]
    by_cases hrunning : pod.phase = .running
    · rw [if_neg (not_not.2 hrunning), if_pos hrunning, ← getServiceInstanceFromPod_ok_iff lib]
      cases getServiceInstanceFromPod lib pod with
      | error err => simp [hrunning]
      | ok inst =>
        cases collect lib pods with
        | error err => simp
        | ok ret => simp [Except.toOption]
    · simp [hrunning]

/-- **All of them are returned** exactly when every running pod of the service can be decoded. -/
theorem getService_ok_iff (pods : List Pod) (name : String) :
    getService lib pods name = .ok (instances lib (selected pods name)) ↔ AllWellFormed lib pods name :=
  collect_ok_iff lib (selected pods name)

end

/-! ## Watchers -/

/-- what the informer passes to a handler for a deletion -/
inductive Obj where
  | pod (pod : Pod)
  /-- a DeletedFinalStateUnknown -/
  | tombstone (key : String) (last : Pod)

inductive Event where
  | add (pod : Pod)
  | update (old new : Pod)
  | delete (obj : Obj)

/-- the FilterFunc of a watcher; none is a panic -/
def filterFunc (live : Bool) (name : String) (obj : Obj) : Option Bool :=
  if live = false then some false
  else
    match obj with
    | .pod pod => some (pod.labels.get labelsKeyServiceName == name)
    | .tombstone _ _ => none

/-- whether the handler is called; an update asks for the new pod first -/
def dispatch (live : Bool) (name : String) : Event → Option Bool
  | .add pod => filterFunc live name (.pod pod)
  | .update old new =>
    match filterFunc live name (.pod new), filterFunc live name (.pod old) with
    | some newer, some older => some (newer || older)
    | _, _ => none
  | .delete obj => filterFunc live name obj

/-- an event of a pod of the service -/
def Event.concerns (name : String) : Event → Bool
  | .add pod | .delete (.pod pod) | .delete (.tombstone _ pod) => pod.labels.get labelsKeyServiceName == name
  | .update old new => new.labels.get labelsKeyServiceName == name || old.labels.get labelsKeyServiceName == name

structure Watcher where
  name : String
  /-- `stopCh` is closed -/
  stopped : Bool
  /-- what the handler is about to send -/
  sending : Option (List Instance)
  /-- the slot of `announcement` -/
  announcement : Option (List Instance)
  received : List (List Instance)
  /-- the instances that could be decoded, at each event of the service while the watcher is live -/
  owed : List (List Instance)

structure State (ι : Type) where
  pods : List Pod
  /-- `stopCh` of the registry is closed -/
  closed : Bool
  watchers : ι → Option Watcher
  crashed : Bool
  answers : List (Except GoError (List Instance))
  /-- the instances that could be decoded, at each call -/
  owed : List (List Instance)

variable {ι : Type}

def initial : State ι where
  pods := []
  closed := false
  watchers _ := none
  crashed := false
  answers := []
  owed := []

def newWatcher (name : String) : Watcher := ⟨name, false, none, none, [], []⟩

inductive Op (ι : Type) where
  /-- the pods change, or the order in which they are listed -/
  | change (pods : List Pod)
  | watch (i : ι) (name : String)
  /-- the informer calls the handler of a watcher -/
  | notify (i : ι) (event : Event)
  | send (i : ι)
  | next (i : ι)
  | stop (i : ι)
  | close
  | getService (name : String)

variable [DecidableEq ι]

def State.set (s : State ι) (i : ι) (w : Watcher) : State ι :=
  { s with watchers := Function.update s.watchers i (some w) }

/-- an error of `GetService` is a panic -/
def sendLatestInstances (lib : Json) (s : State ι) (i : ι) (w : Watcher) : State ι :=
  match getService lib s.pods w.name with
  | .error _ => { s with crashed := true }
  | .ok ret => s.set i { w with sending := some ret }

/-- the filter of the watcher looks at the object -/
def State.live (s : State ι) (w : Watcher) : Bool := !w.stopped && !s.closed

/-- the announcements that are due after the event, whatever its handler does -/
def State.due (lib : Json) (s : State ι) (w : Watcher) (event : Event) : Watcher :=
  if s.live w && event.concerns w.name then
    { w with owed := w.owed ++ [instances lib (selected s.pods w.name)] }
  else w

def notify (lib : Json) (s : State ι) (i : ι) (w : Watcher) (event : Event) : State ι :=
  match w.sending, dispatch (s.live w) w.name event with
  | some _, _ => s
  | none, none => { s.set i (s.due lib w event) with crashed := true }
  | none, some false => s.set i (s.due lib w event)
  | none, some true => sendLatestInstances lib s i (s.due lib w event)

def send (s : State ι) (i : ι) (w : Watcher) : State ι :=
  match w.sending, w.announcement with
  | some ret, none => s.set i { w with sending := none, announcement := some ret }
  | _, _ => s

def next (s : State ι) (i : ι) (w : Watcher) : State ι :=
  match w.announcement with
  | some ret => s.set i { w with announcement := none, received := w.received ++ [ret] }
  | none => s

def State.on (s : State ι) (i : ι) (f : State ι → ι → Watcher → State ι) : State ι :=
  match s.watchers i with
  | some w => f s i w
  | none => s

def step (lib : Json) (s : State ι) (op : Op ι) : State ι :=
  if s.crashed = true then s
  else
    match op with
    | .change pods => { s with pods }
    | .watch i name => if (s.watchers i).isSome then s else s.set i (newWatcher name)
    | .notify i event => s.on i fun s i w => notify lib s i w event
    | .send i => s.on i send
    | .next i => s.on i next
    | .stop i => s.on i fun s i w => s.set i { w with stopped := true }
    | .close => { s with closed := true }
    | .getService name =>
      { s with
        answers := s.answers ++ [getService lib s.pods name]
        owed := s.owed ++ [instances lib (selected s.pods name)] }

/-- no callback has panicked, and all that could be decoded was announced and returned -/
structure Good (s : State ι) : Prop where
  running : s.crashed = false
  announced : ∀ i w, s.watchers i = some w →
    w.received ++ w.announcement.toList ++ w.sending.toList = w.owed
  answers : s.answers = s.owed.map .ok

def Event.isTombstone : Event → Bool
  | .delete (.tombstone _ _) => true
  | _ => false

/-- no tombstone for a live watcher, and no pod that cannot be decoded where the instances are asked for -/
def Sane (lib : Json) (s : State ι) : Op ι → Prop
  | .notify i event => ∀ w, s.watchers i = some w → w.sending = none →
    (s.live w = true → event.isTombstone = false) ∧
    (dispatch (s.live w) w.name event = some true → AllWellFormed lib s.pods w.name)
  | .getService name => AllWellFormed lib s.pods name
  | _ => True

/-! ## One step -/

theorem dispatch_eq_none_iff {live : Bool} {name : String} {event : Event} :
    dispatch live name event = none ↔ ¬ (live → event.isTombstone = false) := by
  cases live with
  | false => cases event <;> simp [dispatch, filterFunc]
  | true =>
    cases event with
    | add pod | update old new => simp [dispatch, filterFunc, Event.isTombstone]
    | delete obj => cases obj <;> simp [dispatch, filterFunc, Event.isTombstone]

theorem eq_concerns_of_dispatch {live b : Bool} {name : String} {event : Event}
    (h : dispatch live name event = some b) : b = (live && event.concerns name) := by
  cases live with
  | false => cases event <;> simpa [dispatch, filterFunc] using h.symm
  | true =>
    cases event with
    | add pod | update old new => simpa [dispatch, filterFunc, Event.concerns] using h.symm
    | delete obj => cases obj <;> simp_all [dispatch, filterFunc, Event.concerns]

variable {lib : Json} {s : State ι} {i : ι} {w : Watcher}

theorem Good.set (h : Good s) {w' : Watcher}
    (hw : w'.received ++ w'.announcement.toList ++ w'.sending.toList = w'.owed) : Good (s.set i w') where
  running := h.running
  answers := h.answers
  announced := by
    intro j v hv
    by_cases hj : j = i
    · subst hj
      simp only [State.set, Function.update_self, Option.some.injEq] at hv
      exact hv ▸ hw
    · simp only [State.set, Function.update_of_ne hj] at hv
      exact h.announced j v hv

omit [DecidableEq ι] in
theorem not_good_crashed : ¬ Good { s with crashed := true } := fun h => by cases h.running

/-- **A call of the handler** panics or announces all there is. -/
theorem good_sendLatestInstances_iff {w' : Watcher} (h : Good s) (hname : w'.name = w.name)
    (howed : w'.received ++ w'.announcement.toList ++ [instances lib (selected s.pods w.name)] = w'.owed) :
    Good (sendLatestInstances lib s i w') ↔ AllWellFormed lib s.pods w.name := by
  rw [← getService_ok_iff lib, sendLatestInstances, hname]
  cases getService lib s.pods w.name with
  | error err => exact iff_of_false not_good_crashed (by simp)
  | ok ret =>
    constructor
    · intro hgood
      have hset := hgood.announced i _ (Function.update_self i _ s.watchers)
      simpa [← howed] using hset
    · intro hret
      cases hret
      exact h.set howed

theorem good_notify_iff (h : Good s) (hw : s.watchers i = some w) (event : Event) :
    Good (notify lib s i w event) ↔ (w.sending = none →
      (s.live w → event.isTombstone = false) ∧
      (dispatch (s.live w) w.name event = some true → AllWellFormed lib s.pods w.name)) := by
  have hann := h.announced i w hw
  have htomb : ∀ b, dispatch (s.live w) w.name event = some b → s.live w → event.isTombstone = false := by
    intro b hb
    by_contra htomb
    rw [dispatch_eq_none_iff.2 htomb] at hb
    cases hb
  unfold notify
  split
  next ret _ hsending => exact iff_of_true h (by simp [hsending])
  next hsending hnone =>
    refine iff_of_false not_good_crashed fun hsane => ?_
    exact dispatch_eq_none_iff.1 hnone (hsane hsending).1
  next hsending hfalse =>
    rw [State.due, ← eq_concerns_of_dispatch hfalse, if_neg Bool.false_ne_true]
    exact iff_of_true (h.set hann) fun _ => ⟨htomb _ hfalse, by simp [hfalse]⟩
  next hsending htrue =>
    rw [hsending, Option.toList_none, List.append_nil] at hann
    rw [State.due, ← eq_concerns_of_dispatch htrue, if_pos rfl,
      good_sendLatestInstances_iff h rfl (by simp only [hann])]
    exact ⟨fun hall _ => ⟨htomb _ htrue, fun _ => hall⟩, fun hsane => (hsane hsending).2 htrue⟩

theorem Good.send (h : Good s) (hw : s.watchers i = some w) : Good (send s i w) := by
  unfold KubernetesWatch.send
  split
  next ret hsending hann =>
    have howed := h.announced i w hw
    exact h.set (by simpa [hsending, hann] using howed)
  next => exact h

theorem Good.next (h : Good s) (hw : s.watchers i = some w) : Good (next s i w) := by
  unfold KubernetesWatch.next
  split
  next ret hann =>
    have howed := h.announced i w hw
    exact h.set (by simpa [hann] using howed)
  next => exact h

omit [DecidableEq ι] in
theorem good_on_iff {f : State ι → ι → Watcher → State ι} (h : Good s) :
    Good (s.on i f) ↔ ∀ w, s.watchers i = some w → Good (f s i w) := by
  unfold State.on
  cases s.watchers i with
  | none => simp [h]
  | some w => simp

/-- **One step** keeps the announcements right exactly when it is sane. -/
theorem good_step_iff (h : Good s) (op : Op ι) : Good (step lib s op) ↔ Sane lib s op := by
  unfold step
  rw [if_neg (by simp [h.running])]
  cases op with
  | change pods | close => exact iff_of_true ⟨h.running, h.announced, h.answers⟩ trivial
  | watch i name =>
    refine iff_of_true ?_ trivial
    dsimp only
    split_ifs
    · exact h
    · exact h.set rfl
  | notify i event =>
    rw [good_on_iff h]
    exact forall₂_congr fun w hw => good_notify_iff h hw event
  | send i => exact iff_of_true ((good_on_iff h).2 fun w hw => h.send hw) trivial
  | next i => exact iff_of_true ((good_on_iff h).2 fun w hw => h.next hw) trivial
  | stop i => exact iff_of_true ((good_on_iff h).2 fun w hw => h.set (h.announced i w hw)) trivial
  | getService name =>
    rw [Sane, ← getService_ok_iff lib]
    constructor
    · intro hgood
      have hanswers := hgood.answers
      simpa [h.answers] using hanswers
    · intro hok
      exact ⟨h.running, h.announced, by simp [h.answers, hok]⟩

/-! ## Runs -/

omit [DecidableEq ι] in
theorem good_initial : Good (initial : State ι) := ⟨rfl, by simp [initial], rfl⟩

/-- **When watching is robust.** In every interleaving: no callback panics, each event of a service is followed by the
announcement of all instances that can be decoded, and GetService returns all of them, if and only if no live watcher
gets a tombstone, and every running pod of a service can be decoded whenever its instances are asked for. -/
theorem robust_iff (lib : Json) (ops : List (Op ι)) :
    Always (step lib) Good initial ops ↔ Along (step lib) (Sane lib) initial ops :=
  always_iff_along_of_inv (I := Good) (fun _ h => h) (fun _ op h hsane => (good_step_iff h op).2 hsane)
    (fun _ op h hsane hgood => hsane ((good_step_iff h op).1 hgood)) good_initial ops

def webPod : Pod :=
  { onePort ipv4Address with labels := (∅ : Dict).insert labelsKeyServiceName "web" }

def brokenPod : Pod :=
  { webPod with name := "web-1", annotations := (∅ : Dict).insert annotationsKeyMetadata "region=sh" }

/-- **A callback panics**: for a tombstone, and for the event of a pod that can be decoded, beside one that cannot. -/
theorem callback_panics :
    (run (step backslashes) initial
      [.watch 0 "web", .notify 0 (.delete (.tombstone "default/web-0" webPod))]).crashed = true ∧
    (run (step backslashes) initial
      [.change [webPod, brokenPod], .watch 0 "web", .notify 0 (.add webPod)]).crashed = true ∧
    getService backslashes [webPod, brokenPod] "web" =
      .error ⟨"failed to handle resource(namespace=default, name=web-1): decode"⟩ := by
  refine ⟨by decide, by decide, rfl⟩

end LuluExt.KubernetesWatch
