/-
The watchers of a file configuration: one fsnotify watcher for all watches of a source.

A source has at most one fsnotify watcher. One directory is added to it, by New or by the first WatchValue, and none
later. The goroutine of each watch receives from the watcher's one channel of events: an event goes to whichever
goroutine takes it, which reads the file and sends its content if the event is a write or create of its own path, and
drops the event otherwise.

Any number of watches of any paths run interleaved with the events, the cancellations of their contexts and the
watcher's errors. Reads succeed and consumers keep receiving; calls of WatchValue come one after the other. Beside the
state the model records which events still have to be delivered on which watch (`owed`): a write or create is owed to
every active watch of its path, until it is delivered, or the watch is cancelled or has ended. What is delivered has to
be a content that the file had at the event or between it and the delivery (`Current`).
-/
import LuluExt.Lib.Run
import LuluExt.Lib.Go

namespace LuluExt.FileConfig

open Run

/-! ## Model -/

/-- `filepath.Abs` and `filepath.Dir` -/
structure Paths where
  abs : String → Except GoError String
  dir : String → String

structure Options where
  path : String
  watch : Bool

structure Event where
  id : ℕ
  name : String
  /-- a write or create -/
  modifies : Bool
deriving DecidableEq, Repr

/-- where the goroutine of a watch is, with the number of the event it has taken -/
inductive Pc where
  | waiting
  | read (e : ℕ)
  /-- at `out <- data` -/
  | send (e : ℕ) (data : String)
  | ended
deriving DecidableEq, Repr

def Pc.event : Pc → Option ℕ
  | .read e | .send e _ => some e
  | .waiting | .ended => none

structure Watch where
  path : String
  cancelled : Bool
  pc : Pc
deriving DecidableEq, Repr

def Watch.active (x : Watch) : Bool := !x.cancelled && decide (x.pc ≠ .ended)

def Watch.reacts (x : Watch) (ev : Event) : Bool := decide (ev.name = x.path) && ev.modifies

/-- watches are numbered in the order in which WatchValue returned them -/
structure Source where
  /-- the path of the options, resolved -/
  path : String
  /-- the directory of the fsnotify watcher, none while there is no watcher -/
  watched : Option String
  /-- what has happened to files, each with the content that it left; an event is its position here -/
  files : List (String × String)
  /-- the events that nobody has taken -/
  queue : List Event
  made : ℕ
  watches : ℕ → Option Watch
  /-- the event, the watch and the data -/
  delivered : List (ℕ × ℕ × String)
  owed : ℕ → ℕ → Bool

def opened (P : Paths) (path : String) (watch : Bool) : Source where
  path := path
  watched := if watch = true then some (P.dir path) else none
  files := []
  queue := []
  made := 0
  watches _ := none
  delivered := []
  owed _ _ := false

structure Fsnotify where
  newWatcher : Option GoError
  add : Option GoError

def addDir (f : Fsnotify) (dir : String) : Except GoError String :=
  match f.newWatcher, f.add with
  | some err, _ => .error ⟨"create fsnotify watcher: " ++ err.text⟩
  | none, some err => .error ⟨"watch directory " ++ dir ++ ": " ++ err.text⟩
  | none, none => .ok dir

def new (P : Paths) (f : Fsnotify) (o : Options) : Except GoError Source :=
  if o.path = "" then .error ⟨"path invalid"⟩
  else
    match P.abs o.path with
    | .error err => .error ⟨"resolve absolute path: " ++ err.text⟩
    | .ok path =>
      if o.watch = true then
        match addDir f (P.dir path) with
        | .error err => .error err
        | .ok _ => .ok (opened P path true)
      else .ok (opened P path false)

def resolveKey (P : Paths) (s : Source) (key : String) : String :=
  if key ≠ "" then
    match P.abs key with
    | .error _ => key
    | .ok path => path
  else s.path

def Source.events (s : Source) : ℕ := s.files.length

def Source.pathOf (s : Source) (e : ℕ) : Option String := (s.files[e]?).map Prod.fst

/-- what `os.ReadFile` returns: the content that was left last -/
def Source.content (s : Source) (path : String) : String :=
  s.files.foldl (fun data file => if file.1 = path then file.2 else data) ""

/-- the data is the content that the path of the event had at the event, or later -/
def Source.Current (s : Source) (e : ℕ) (data : String) : Prop :=
  ∃ path e', s.pathOf e = some path ∧ e ≤ e' ∧ s.files[e']? = some (path, data)

@[simp] def Source.set (s : Source) (w : ℕ) (x : Watch) : Source :=
  { s with watches := Function.update s.watches w (some x) }

def watchValue (P : Paths) (f : Fsnotify) (s : Source) (key : String) : Except GoError Source :=
  let path := resolveKey P s key
  let dir : Except GoError String :=
    match s.watched with
    | some dir => .ok dir
    | none => addDir f (P.dir path)
  match dir with
  | .error err => .error err
  | .ok dir => .ok ({ s with watched := some dir, made := s.made + 1 }.set s.made ⟨path, false, .waiting⟩)

inductive Op where
  | watch (f : Fsnotify) (key : String)
  /-- something happens to a file, which then has the content -/
  | event (name content : String) (modifies : Bool)
  | take (w : ℕ)
  | read (w : ℕ)
  | send (w : ℕ)
  | cancel (w : ℕ)
  | quit (w : ℕ)
  | error (w : ℕ)

/-- the watch is active, and of this path -/
def Source.watching (s : Source) (path : String) (w : ℕ) : Bool :=
  (s.watches w).any fun x => x.active && decide (x.path = path)

def event (P : Paths) (s : Source) (name content : String) (modifies : Bool) : Source :=
  { s with
    files := s.files ++ [(name, content)]
    queue := if s.watched = some (P.dir name) then s.queue ++ [⟨s.events, name, modifies⟩] else s.queue
    owed := Function.update s.owed s.events fun w => modifies && s.watching name w }

def take (s : Source) (w : ℕ) (x : Watch) : Source :=
  match s.queue with
  | [] => s
  | ev :: queue =>
    if x.pc = .waiting then
      { s with queue := queue }.set w (if x.reacts ev = true then { x with pc := .read ev.id } else x)
    else s

def read (s : Source) (w : ℕ) (x : Watch) : Source :=
  match x.pc with
  | .read e => s.set w { x with pc := .send e (s.content x.path) }
  | _ => s

def send (s : Source) (w : ℕ) (x : Watch) : Source :=
  match x.pc with
  | .send e data =>
    { s with
      delivered := (e, w, data) :: s.delivered
      owed := fun e' w' => s.owed e' w' && decide ((e', w') ≠ (e, w)) }.set w { x with pc := .waiting }
  | _ => s

def Source.release (s : Source) (w : ℕ) : Source :=
  { s with owed := fun e' w' => s.owed e' w' && decide (w' ≠ w) }

def cancel (s : Source) (w : ℕ) (x : Watch) : Source := (s.release w).set w { x with cancelled := true }

/-- outside `os.ReadFile` the goroutine is in a select with `ctx.Done()` -/
def quit (s : Source) (w : ℕ) (x : Watch) : Source :=
  match x.pc with
  | .waiting | .send _ _ => if x.cancelled = true then s.set w { x with pc := .ended } else s
  | .read _ | .ended => s

def error (s : Source) (w : ℕ) (x : Watch) : Source :=
  if x.pc = .waiting then (s.release w).set w { x with pc := .ended } else s

def Source.on (s : Source) (w : ℕ) (f : Source → ℕ → Watch → Source) : Source :=
  match s.watches w with
  | some x => f s w x
  | none => s

/-- a step that is not possible changes nothing -/
def step (P : Paths) (s : Source) : Op → Source
  | .watch f key =>
    match watchValue P f s key with
    | .ok s => s
    | .error _ => s
  | .event name content modifies => event P s name content modifies
  | .take w => s.on w take
  | .read w => s.on w read
  | .send w => s.on w send
  | .cancel w => s.on w cancel
  | .quit w => s.on w quit
  | .error w => s.on w error

/-! ## The property and the condition -/

/-- after some steps the watch sends, for the event, a content that the file has had since the event -/
def Deliverable (P : Paths) (s : Source) (e w : ℕ) : Prop :=
  ∃ ops data, (step P (run (step P) s ops) (.send w)).delivered = (e, w, data) :: (run (step P) s ops).delivered ∧
    (run (step P) s ops).Current e data

/-- nothing that is owed is lost -/
def Sound (P : Paths) (s : Source) : Prop := ∀ e w, s.owed e w = true → Deliverable P s e w

/-- the event is taken by a watch that it is owed to, if any, and owed to no other -/
def Exclusive (P : Paths) (s : Source) : Op → Prop
  | .event name _ modifies => modifies = true → ∀ w, s.watching name w = true → s.watched = some (P.dir name)
  | .take w => ∀ x ev, s.watches w = some x → x.pc = .waiting → s.queue.head? = some ev →
      ∀ w', s.owed ev.id w' = true → w' = w
  | _ => True

def Source.ids (s : Source) : List ℕ := s.queue.map Event.id

/-- the event that the goroutine of a watch has taken -/
def Source.holds (s : Source) (w : ℕ) : Option ℕ := (s.watches w).bind (·.pc.event)

/-- the event is in the channel, or with the goroutine of the watch -/
def Kept (s : Source) (e w : ℕ) : Prop := e ∈ s.ids ∨ s.holds w = some e

/-- an event is in one place at most, and one of the path it is taken for; data at `out <- data` are a content of the
file since the event; what is owed to a watch is an event of its path -/
structure Inv (s : Source) : Prop where
  unmade : ∀ w, s.made ≤ w → s.watches w = none
  queued : ∀ ev ∈ s.queue, s.pathOf ev.id = some ev.name
  nodup : s.ids.Nodup
  held : ∀ w x e, s.watches w = some x → x.pc.event = some e → s.pathOf e = some x.path ∧ e ∉ s.ids
  read : ∀ w x e data, s.watches w = some x → x.pc = .send e data → s.Current e data
  owed : ∀ e w, s.owed e w = true → e < s.events ∧
    ∃ x, s.watches w = some x ∧ x.active = true ∧ ∀ ev ∈ s.queue, ev.id = e → x.reacts ev = true

/-! ## One step -/

section

variable {P : Paths} {s s' : Source} {w v e : ℕ} {x x' : Watch}

/-- everything a step can do -/
inductive Turn (P : Paths) (s : Source) : Op → Source → Prop where
  | watches {f : Fsnotify} {key : String} (dir path : String) :
      Turn P s (.watch f key) ({ s with watched := some dir, made := s.made + 1 }.set s.made ⟨path, false, .waiting⟩)
  | happens (name content : String) (modifies : Bool) :
      Turn P s (.event name content modifies) (event P s name content modifies)
  | takes {w : ℕ} {x : Watch} {ev : Event} {queue : List Event} (hx : s.watches w = some x) (hpc : x.pc = .waiting)
      (hq : s.queue = ev :: queue) :
      Turn P s (.take w) ({ s with queue }.set w (if x.reacts ev = true then { x with pc := .read ev.id } else x))
  | reads {w : ℕ} {x : Watch} {e : ℕ} (hx : s.watches w = some x) (hpc : x.pc = .read e) :
      Turn P s (.read w) (s.set w { x with pc := .send e (s.content x.path) })
  | sends {w : ℕ} {x : Watch} {e : ℕ} {data : String} (hx : s.watches w = some x) (hpc : x.pc = .send e data) :
      Turn P s (.send w) ({ s with
        delivered := (e, w, data) :: s.delivered
        owed := fun e' w' => s.owed e' w' && decide ((e', w') ≠ (e, w)) }.set w { x with pc := .waiting })
  | cancels {w : ℕ} {x : Watch} (hx : s.watches w = some x) :
      Turn P s (.cancel w) ((s.release w).set w { x with cancelled := true })
  | quits {w : ℕ} {x : Watch} (hx : s.watches w = some x) (hcancelled : x.cancelled = true) :
      Turn P s (.quit w) (s.set w { x with pc := .ended })
  | errs {w : ℕ} {x : Watch} (hx : s.watches w = some x) :
      Turn P s (.error w) ((s.release w).set w { x with pc := .ended })
  | stays {op : Op} (hop : Exclusive P s op) : Turn P s op s

theorem turn_on {f : Source → ℕ → Watch → Source} {op : Op} (hnone : s.watches w = none → Exclusive P s op)
    (hf : ∀ x, s.watches w = some x → Turn P s op (f s w x)) : Turn P s op (s.on w f) := by
  unfold Source.on
  split
  next x hx => exact hf x hx
  next hx => exact .stays (hnone hx)

theorem turn_step (s : Source) (op : Op) : Turn P s op (step P s op) := by
  cases op with
  | watch f key =>
    simp only [step, watchValue]
    cases s.watched with
    | some dir => exact .watches dir _
    | none =>
      cases addDir f (P.dir (resolveKey P s key)) with
      | error err => exact .stays trivial
      | ok dir => exact .watches dir _
  | event name content modifies => exact .happens name content modifies
  | take w =>
    refine turn_on (fun hx x ev hx' => by simp [hx] at hx') fun x hx => ?_
    unfold take
    split
    next hq => exact .stays fun y ev _ _ hev => by simp [hq] at hev
    next ev queue hq =>
      by_cases hpc : x.pc = .waiting
      · rw [if_pos hpc]
        exact .takes hx hpc hq
      · rw [if_neg hpc]
        refine .stays fun y ev hy hpc' => ?_
        obtain rfl : x = y := Option.some.inj (hx.symm.trans hy)
        exact absurd hpc' hpc
  | read w =>
    refine turn_on (fun _ => trivial) fun x hx => ?_
    unfold read
    split
    next e hpc => exact .reads hx hpc
    next => exact .stays trivial
  | send w =>
    refine turn_on (fun _ => trivial) fun x hx => ?_
    unfold send
    split
    next e data hpc => exact .sends hx hpc
    next => exact .stays trivial
  | cancel w => exact turn_on (fun _ => trivial) fun x hx => .cancels hx
  | quit w =>
    refine turn_on (fun _ => trivial) fun x hx => ?_
    unfold quit
    repeat' split
    all_goals first
      | exact .quits hx ‹_›
      | exact .stays trivial
  | error w =>
    refine turn_on (fun _ => trivial) fun x hx => ?_
    unfold error
    split_ifs
    · exact .errs hx
    · exact .stays trivial

theorem lt_of_pathOf {path : String} (h : s.pathOf e = some path) : e < s.events := by
  obtain ⟨file, hfile, -⟩ := Option.map_eq_some_iff.1 h
  exact (List.getElem?_eq_some_iff.1 hfile).1

theorem content_of_files (files : List (String × String)) (path : String) {e : ℕ}
    (h : (files[e]?).map Prod.fst = some path) : ∃ e', e ≤ e' ∧
      files[e']? = some (path, files.foldl (fun data file => if file.1 = path then file.2 else data) "") := by
  induction files using List.reverseRecOn with
  | nil => simp at h
  | append_singleton files file ih =>
    rw [List.foldl_append, List.foldl_cons, List.foldl_nil]
    have hlen : e < files.length ∨ e = files.length := by
      by_contra hge
      rw [List.getElem?_eq_none (by rw [List.length_append, List.length_singleton]; omega)] at h
      cases h
    by_cases hpath : file.1 = path
    · refine ⟨files.length, by omega, ?_⟩
      rw [if_pos hpath, List.getElem?_concat_length, ← hpath]
    · rw [if_neg hpath]
      rcases hlen with hlt | rfl
      · rw [List.getElem?_append_left hlt] at h
        obtain ⟨e', hle, hfile⟩ := ih h
        refine ⟨e', hle, ?_⟩
        rw [List.getElem?_append_left (List.getElem?_eq_some_iff.1 hfile).1, hfile]
      · rw [List.getElem?_concat_length] at h
        exact absurd (Option.some.inj h) hpath

/-- what a goroutine reads for an event of its path -/
theorem content_current {path : String} (h : s.pathOf e = some path) : s.Current e (s.content path) := by
  obtain ⟨e', hle, hfile⟩ := content_of_files s.files path h
  exact ⟨path, e', h, hle, hfile⟩

section Event

variable {name content : String} {modifies : Bool}

theorem watching_iff : s.watching name w ↔ ∃ x, s.watches w = some x ∧ x.active ∧ x.path = name := by
  simp [Source.watching, Option.any_eq_true]

theorem files_event {file : String × String} (h : s.files[e]? = some file) :
    (event P s name content modifies).files[e]? = some file := by
  rw [event, List.getElem?_append_left (List.getElem?_eq_some_iff.1 h).1, h]

theorem pathOf_event {path : String} (h : s.pathOf e = some path) :
    (event P s name content modifies).pathOf e = some path := by
  obtain ⟨file, hf, rfl⟩ := Option.map_eq_some_iff.1 h
  rw [Source.pathOf, files_event hf]
  rfl

theorem events_event : (event P s name content modifies).events = s.events + 1 := by simp [Source.events, event]

/-- an event is in the channel from its beginning, or not at all -/
theorem mem_queue_event {ev : Event} : ev ∈ (event P s name content modifies).queue ↔
      ev ∈ s.queue ∨ (s.watched = some (P.dir name) ∧ ev = ⟨s.events, name, modifies⟩) := by
  unfold event
  by_cases hdir : s.watched = some (P.dir name) <;> simp [hdir]

theorem mem_ids_event :
    e ∈ (event P s name content modifies).ids ↔ e ∈ s.ids ∨ (s.watched = some (P.dir name) ∧ e = s.events) := by
  unfold event Source.ids
  by_cases hdir : s.watched = some (P.dir name) <;> simp [hdir]

theorem owed_event : (event P s name content modifies).owed e v ↔
      if e = s.events then modifies ∧ s.watching name v else s.owed e v := by
  unfold event
  by_cases he : e = s.events <;> simp [he]

theorem Inv.fresh (h : Inv s) (he : e ∈ s.ids) : e < s.events := by
  obtain ⟨ev, hev, rfl⟩ := List.mem_map.1 he
  exact lt_of_pathOf (h.queued ev hev)

theorem inv_event (h : Inv s) : Inv (event P s name content modifies) := by
  refine ⟨h.unmade, fun ev hev => ?_, ?_, fun v y e hy he => ?_, fun v y e data hy hpc => ?_, fun e v he => ?_⟩
  · rcases mem_queue_event.1 hev with hev | ⟨-, rfl⟩
    · exact pathOf_event (h.queued ev hev)
    · simp [Source.pathOf, event, Source.events]
  · simp only [Source.ids, event]
    split_ifs
    · rw [List.map_append]
      refine List.Nodup.append h.nodup (List.nodup_singleton _) fun e he he' => ?_
      obtain rfl : e = s.events := by simpa using he'
      exact absurd (h.fresh he) (lt_irrefl _)
    · exact h.nodup
  · obtain ⟨hpath, hnot⟩ := h.held v y e hy he
    refine ⟨pathOf_event hpath, fun hmem => ?_⟩
    rcases mem_ids_event.1 hmem with hmem | ⟨-, rfl⟩
    · exact hnot hmem
    · exact absurd (lt_of_pathOf hpath) (lt_irrefl _)
  · obtain ⟨path, e', hp, hle, hf⟩ := h.read v y e data hy hpc
    exact ⟨path, e', pathOf_event hp, hle, files_event hf⟩
  · rw [owed_event] at he
    rw [events_event]
    split_ifs at he with hid
    · subst hid
      obtain ⟨hmod, hwatch⟩ := he
      obtain ⟨y, hy, hactive, hpath⟩ := watching_iff.1 hwatch
      refine ⟨Nat.lt_succ_self _, y, hy, hactive, fun ev hev hid => ?_⟩
      rcases mem_queue_event.1 hev with hev | ⟨-, rfl⟩
      · have hlt := h.fresh (List.mem_map_of_mem hev)
        omega
      · simp [Watch.reacts, hpath, hmod]
    · obtain ⟨hlt, y, hy, hactive, hreacts⟩ := h.owed e v he
      refine ⟨Nat.lt_succ_of_lt hlt, y, hy, hactive, fun ev hev hide => ?_⟩
      rcases mem_queue_event.1 hev with hev | ⟨-, rfl⟩
      · exact hreacts ev hev hide
      · exact absurd hide.symm hid

end Event

/-! ## The invariant -/

theorem Inv.set (h : Inv s) (hw : w < s.made)
    (hev : ∀ e, x'.pc.event = some e → s.pathOf e = some x'.path ∧ e ∉ s.ids)
    (hread : ∀ e data, x'.pc = .send e data → s.Current e data)
    (how : ∀ e, s.owed e w → ∃ x, s.watches w = some x ∧ x'.path = x.path ∧ x'.active) : Inv (s.set w x') := by
  have hcases {v : ℕ} {y : Watch} (hy : (s.set w x').watches v = some y) : v = w ∧ x' = y ∨ s.watches v = some y := by
    by_cases hvw : v = w
    · exact .inl ⟨hvw, by simpa [hvw] using hy⟩
    · exact .inr (by simpa [hvw] using hy)
  refine ⟨fun v hv => ?_, h.queued, h.nodup, fun v y e hy he => ?_, fun v y e data hy hpc => ?_, fun e v he => ?_⟩
  · have hne : v ≠ w := by
      rintro rfl
      exact absurd hw (not_lt.2 hv)
    simpa [hne] using h.unmade v hv
  · obtain ⟨-, rfl⟩ | hy := hcases hy
    · exact hev e he
    · exact h.held v y e hy he
  · obtain ⟨-, rfl⟩ | hy := hcases hy
    · exact hread e data hpc
    · exact h.read v y e data hy hpc
  · obtain ⟨hlt, y, hy, hactive, hreacts⟩ := h.owed e v he
    refine ⟨hlt, ?_⟩
    by_cases hvw : v = w
    · subst hvw
      obtain ⟨x, hx, hpath, hactive'⟩ := how e he
      obtain rfl : x = y := Option.some.inj (hx.symm.trans hy)
      refine ⟨x', by simp, hactive', fun ev hmem hid => ?_⟩
      simpa [Watch.reacts, hpath] using hreacts ev hmem hid
    · exact ⟨y, by simpa [hvw] using hy, hactive, hreacts⟩

theorem Inv.made (h : Inv s) (hx : s.watches w = some x) : w < s.made := by
  by_contra hw
  rw [h.unmade w (not_lt.1 hw)] at hx
  cases hx

/-- with no event under way there is little to check -/
theorem Inv.idle (h : Inv s) (hw : w < s.made) (hpc : x'.pc.event = none)
    (how : ∀ e, s.owed e w → ∃ x, s.watches w = some x ∧ x'.path = x.path ∧ x'.active) : Inv (s.set w x') := by
  refine h.set hw (fun e he => ?_) (fun e data hsend => ?_) how
  · rw [hpc] at he
    cases he
  · rw [hsend] at hpc
    cases hpc

theorem Inv.pays (h : Inv s) {p : ℕ → ℕ → Bool} {delivered : List (ℕ × ℕ × String)} :
    Inv { s with delivered, owed := fun e w => s.owed e w && p e w } :=
  { h with owed := fun e w he => h.owed e w (Bool.and_eq_true_iff.1 he).1 }

theorem ids_cons {ev : Event} {queue : List Event} (hq : s.queue = ev :: queue) :
    s.ids = ev.id :: queue.map Event.id := by
  simp [Source.ids, hq]

theorem Inv.tail (h : Inv s) {ev : Event} {queue : List Event} (hq : s.queue = ev :: queue) :
    Inv { s with queue } := by
  have hids := ids_cons hq
  refine ⟨h.unmade, fun ev' hev' => h.queued ev' (hq ▸ List.mem_cons_of_mem _ hev'), ?_, fun v y e hy he => ?_, h.read,
    fun e v he => ?_⟩
  · exact (List.nodup_cons.1 (hids ▸ h.nodup)).2
  · obtain ⟨hpath, hnot⟩ := h.held v y e hy he
    exact ⟨hpath, fun hmem => hnot (hids ▸ List.mem_cons_of_mem _ hmem)⟩
  · obtain ⟨hlt, y, hy, hactive, hreacts⟩ := h.owed e v he
    exact ⟨hlt, y, hy, hactive, fun ev' hev' => hreacts ev' (hq ▸ List.mem_cons_of_mem _ hev')⟩

theorem Inv.active (h : Inv s) (hx : s.watches w = some x) (he : s.owed e w) : x.active := by
  obtain ⟨-, y, hy, hactive, -⟩ := h.owed e w he
  obtain rfl : x = y := Option.some.inj (hx.symm.trans hy)
  exact hactive

variable {op : Op}

theorem inv_turn (hturn : Turn P s op s') (h : Inv s) : Inv s' := by
  cases hturn with
  | watches dir path =>
    have hbase : Inv { s with watched := some dir, made := s.made + 1 } :=
      { h with unmade := fun w hw => h.unmade w (Nat.le_of_succ_le hw) }
    refine hbase.idle (Nat.lt_succ_self _) rfl fun e he => ?_
    obtain ⟨-, x, hx, -⟩ := h.owed e _ he
    exact absurd (h.made hx) (lt_irrefl _)
  | happens name content modifies => exact inv_event h
  | @takes w x ev queue hx hpc hq =>
    have hids := ids_cons hq
    have hactive {e : ℕ} (he : s.owed e w) : x.active := h.active hx he
    split_ifs with hreacts
    · refine (h.tail hq).set (h.made hx) (fun e he => ?_) nofun fun e he => ⟨x, hx, rfl, ?_⟩
      · obtain rfl : ev.id = e := Option.some.inj he
        have hname : ev.name = x.path := by
          simp only [Watch.reacts, Bool.and_eq_true, decide_eq_true_eq] at hreacts
          exact hreacts.1
        exact ⟨hname ▸ h.queued ev (hq ▸ List.mem_cons_self), (List.nodup_cons.1 (hids ▸ h.nodup)).1⟩
      · simpa [Watch.active, hpc] using hactive he
    · exact (h.tail hq).idle (h.made hx) (by rw [hpc]; rfl) fun e he => ⟨x, hx, rfl, hactive he⟩
  | @reads w x e hx hpc =>
    have hheld := h.held w x e hx (by rw [hpc]; rfl)
    refine h.set (h.made hx) (fun e' he' => ?_) (fun e' data hsend => ?_) fun e' he' => ⟨x, hx, rfl, ?_⟩
    · obtain rfl : e = e' := Option.some.inj he'
      exact hheld
    · obtain ⟨rfl, rfl⟩ := Pc.send.inj hsend
      exact content_current hheld.1
    · simpa [Watch.active, hpc] using h.active hx he'
  | @sends w x e data hx hpc =>
    refine h.pays.idle (h.made hx) rfl fun e' he' => ⟨x, hx, rfl, ?_⟩
    simp only [Bool.and_eq_true] at he'
    simpa [Watch.active, hpc] using h.active hx he'.1
  | @cancels w x hx =>
    refine h.pays.set (h.made hx) (h.held w x · hx) (h.read w x · · hx) fun e he => ?_
    simp at he
  | @quits w x hx hcancelled =>
    refine h.idle (h.made hx) rfl fun e he => ?_
    have hactive := h.active hx he
    simp [Watch.active, hcancelled] at hactive
  | @errs w x hx =>
    refine h.pays.idle (h.made hx) rfl fun e he => ?_
    simp at he
  | stays => exact h

theorem inv_run (h : Inv s) (ops : List Op) : Inv (run (step P) s ops) :=
  run_inv (I := Inv) (fun s op => inv_turn (turn_step s op)) h ops

/-! ## Where an event is -/

@[simp] theorem holds_set : (s.set w x').holds v = if v = w then x'.pc.event else s.holds v := by
  by_cases hvw : v = w <;> simp [Source.holds, hvw]

theorem holds_of (hx : s.watches w = some x) : s.holds w = x.pc.event := by simp [Source.holds, hx]

theorem Kept.of_set (hpc : x'.pc.event = none ∨ x'.pc.event = s.holds w) (h : Kept (s.set w x') e v) : Kept s e v := by
  refine h.imp_right fun hv => ?_
  rw [holds_set] at hv
  split_ifs at hv with hvw
  · subst hvw
    obtain hpc | hpc := hpc
    · rw [hpc] at hv
      cases hv
    · rwa [← hpc]
  · exact hv

theorem kept_back (hturn : Turn P s op s') (he : e < s.events) (h : Kept s' e v) : Kept s e v := by
  cases hturn with
  | watches dir path => exact Kept.of_set (s := { s with watched := _, made := _ }) (.inl rfl) h
  | happens name content modifies =>
    refine h.imp_left fun h => ?_
    obtain h | ⟨-, rfl⟩ := mem_ids_event.1 h
    · exact h
    · exact absurd he (lt_irrefl _)
  | @takes w x ev queue hx hpc hq =>
    have hids := ids_cons hq
    obtain h | h := h
    · exact .inl (hids ▸ List.mem_cons_of_mem _ h)
    · rw [holds_set] at h
      split_ifs at h with hvw hreacts
      · obtain rfl : ev.id = e := Option.some.inj h
        exact .inl (hids ▸ List.mem_cons_self)
      · rw [hpc] at h
        cases h
      · exact .inr h
  | reads hx hpc => exact Kept.of_set (.inr (by rw [holds_of hx, hpc]; rfl)) h
  | sends => exact Kept.of_set (s := { s with delivered := _, owed := _ }) (.inl rfl) h
  | @cancels w x hx =>
    have hset : Kept ((s.release w).set w { x with cancelled := true }) e v := h
    refine hset.of_set (.inr ?_)
    exact (holds_of hx).symm
  | quits => exact Kept.of_set (.inl rfl) h
  | @errs w x hx => exact Kept.of_set (s := s.release w) (.inl rfl) h
  | stays => exact h

theorem events_turn (hturn : Turn P s op s') : s.events ≤ s'.events := by
  cases hturn with
  | happens name content modifies => exact events_event ▸ Nat.le_succ _
  | watches | takes | reads | sends | cancels | quits | errs | stays => exact le_rfl

theorem kept_back_run {ops : List Op} (he : e < s.events) (h : Kept (run (step P) s ops) e v) : Kept s e v := by
  induction ops generalizing s with
  | nil => exact h
  | cons op ops ih =>
    have hturn : Turn P s op (step P s op) := turn_step s op
    exact kept_back hturn he (ih (he.trans_le (events_turn hturn)) h)

theorem holds_of_sends (hturn : Turn P s (.send w) s') {data : String}
    (h : s'.delivered = (e, w, data) :: s.delivered) : s.holds w = some e := by
  cases hturn with
  | sends hx hpc =>
    obtain ⟨rfl, -⟩ := Prod.mk.inj (List.cons.inj h).1
    rw [holds_of hx, hpc]
    rfl
  | stays => exact absurd h.symm (List.cons_ne_self _ _)

theorem Kept.of_deliverable (he : e < s.events) (h : Deliverable P s e v) : Kept s e v := by
  obtain ⟨ops, data, hsent, -⟩ := h
  exact kept_back_run he (.inr (holds_of_sends (turn_step _ _) hsent))

/-! ## Delivering -/

theorem Deliverable.of_run (ops : List Op) (h : Deliverable P (run (step P) s ops) e v) : Deliverable P s e v := by
  obtain ⟨ops', data, hd⟩ := h
  exact ⟨ops ++ ops', data, by rwa [run_append]⟩

/-- a goroutine that has taken the event reads the file and sends -/
theorem deliverable_of_event (h : Inv s) (hx : s.watches w = some x) (he : x.pc.event = some e) :
    Deliverable P s e w := by
  have hpath := (h.held w x e hx he).1
  obtain ⟨path, cancelled, pc⟩ := x
  cases pc with
  | waiting | ended => cases he
  | read e' =>
    obtain rfl : e' = e := Option.some.inj he
    have hread : step P s (.read w) = s.set w ⟨path, cancelled, .send e' (s.content path)⟩ := by
      simp [step, Source.on, hx, read]
    refine ⟨[.read w], s.content path, ?_, ?_⟩
    · rw [run_cons, run_nil, hread]
      simp [step, Source.on, send]
    · rw [run_cons, run_nil, hread]
      exact content_current hpath
  | send e' data =>
    obtain rfl : e' = e := Option.some.inj he
    exact ⟨[], data, by simp [step, Source.on, hx, send], h.read w _ e' data hx rfl⟩

theorem finish (hx : s.watches w = some x) (hpc : x.pc ≠ .ended) :
    (run (step P) s [.read w, .send w]).queue = s.queue ∧
    (run (step P) s [.read w, .send w]).watches w = some { x with pc := .waiting } := by
  obtain ⟨path, cancelled, pc⟩ := x
  cases pc with
  | waiting | read e | send e data => simp [step, Source.on, hx, read, send]
  | ended => exact absurd rfl hpc

theorem deliverable_of_mem {queue : List Event} (h : Inv s) (hq : s.queue = queue) (hx : s.watches w = some x)
    (hpc : x.pc = .waiting) {ev : Event} (hev : ev ∈ queue) (hr : x.reacts ev) : Deliverable P s ev.id w := by
  induction queue generalizing s with
  | nil => cases hev
  | cons ev' queue ih =>
    let x' : Watch := if x.reacts ev' then { x with pc := .read ev'.id } else x
    have htake : step P s (.take w) = { s with queue := queue }.set w x' := by
      simp [step, Source.on, hx, take, hq, hpc, x']
    have hx' : (step P s (.take w)).watches w = some x' := by simp [htake]
    have hback : ({ x' with pc := .waiting } : Watch) = x := by
      simp only [x']
      split_ifs <;> simp [← hpc]
    have hpc' : x'.pc ≠ .ended := by
      simp only [x']
      split_ifs <;> simp [hpc]
    obtain ⟨hqueue, hwatch⟩ := finish (P := P) hx' hpc'
    rcases List.mem_cons.1 hev with rfl | hev
    · refine Deliverable.of_run [.take w] (deliverable_of_event (inv_run h _) hx' ?_)
      simp [x', hr, Pc.event]
    · refine Deliverable.of_run [.take w, .read w, .send w] (ih (inv_run h _) ?_ ?_ hev)
      · exact hqueue.trans (by rw [htake]; rfl)
      · exact hwatch.trans (by rw [hback])

/-- **What can still be delivered.** -/
theorem deliverable_iff (h : Inv s) (hv : s.owed e v) : Deliverable P s e v ↔ Kept s e v := by
  obtain ⟨hlt, x, hx, hactive, hreacts⟩ := h.owed e v hv
  refine ⟨Kept.of_deliverable hlt, fun hk => ?_⟩
  have hpc : x.pc ≠ .ended := by
    simp only [Watch.active, Bool.and_eq_true, decide_eq_true_eq] at hactive
    exact hactive.2
  obtain ⟨hqueue, hwatch⟩ := finish (P := P) hx hpc
  rcases hk with hk | he
  · obtain ⟨ev, hev, rfl⟩ := List.mem_map.1 hk
    refine Deliverable.of_run [.read v, .send v] (deliverable_of_mem (inv_run h _) hqueue hwatch rfl hev ?_)
    exact hreacts ev hev rfl
  · exact deliverable_of_event h hx ((holds_of hx).symm.trans he)

theorem sound_iff (h : Inv s) : Sound P s ↔ ∀ e v, s.owed e v → Kept s e v :=
  forall₂_congr fun _ _ => imp_congr_right fun hv => deliverable_iff h hv

/-! ## What loses an event -/

theorem Kept.set (h : Kept s e v) (hw : v = w → s.holds w = some e → x'.pc.event = some e) :
    Kept (s.set w x') e v := by
  refine h.imp_right fun hv => ?_
  rw [holds_set]
  split_ifs with hvw
  · exact hw hvw (hvw ▸ hv)
  · exact hv

/-- the channel is empty, and no goroutine has an event -/
def Settled (s : Source) : Prop := s.queue = [] ∧ ∀ w x, s.watches w = some x → x.pc.event = none

theorem Sound.settled (h : Inv s) (hs : Sound P s) (hsettled : Settled s) (e v : ℕ) : s.owed e v = false := by
  by_contra hv
  rcases (sound_iff h).1 hs e v (Bool.eq_true_of_not_eq_false hv) with hk | hk
  · simp [Source.ids, hsettled.1] at hk
  · obtain ⟨x, hx, he⟩ := Option.bind_eq_some_iff.1 hk
    rw [hsettled.2 v x hx] at he
    cases he

end

def twoDirs : Paths := ⟨.ok, fun path => if path = "/b/x.yaml" then "/b" else "/a"⟩

def working : Fsnotify := ⟨none, none⟩

def written (first second path : String) (ops : List Op) : Source :=
  run (step twoDirs) (opened twoDirs "/a/x.yaml" false)
    ([.watch working first, .watch working second, .event path "level: debug" true] ++ ops)

end LuluExt.FileConfig
