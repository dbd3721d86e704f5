/-
The periodic tasks of the asynq server: a map by task type over a scheduler by entry ID.

`NewPeriodicTask` returns the ID that the scheduler gave the entry and keeps it under the type name. A second task of
the same type takes its place in the map, and the first entry is known to nobody any more but its caller, who cannot use
it: `RemovePeriodicTask` looks its argument up as a type name. `RemoveAllPeriodicTask` empties the map first and ignores
what `Unregister` returns. With the scheduler disabled, the first task enables it after it was not created, and the call
panics.

Beside the state the model records the IDs that were returned and not removed since.
-/
import LuluExt.Lib.Run
import LuluExt.Lib.Go
import Mathlib.Data.List.AList

namespace LuluExt.Asynq

open Run

/-! ## Periodic tasks -/

abbrev EntryIDs := AList fun _ : String => String

structure Tasks where
  schedulerEnabled : Bool
  /-- the entries of the scheduler, when there is one -/
  scheduler : Option (List String)
  entryIDs : EntryIDs

def Tasks.registered (t : Tasks) : List String := t.scheduler.getD []

def createAsynqScheduler (created : Bool) (t : Tasks) : Option GoError × Tasks :=
  if t.schedulerEnabled = false ∨ t.scheduler ≠ none then (none, t)
  else if created = true then (none, { t with scheduler := some [] })
  else (some ⟨"create asynq scheduler failed"⟩, t)

structure Answers where
  /-- `asynq.NewScheduler` is not nil -/
  scheduler : Bool
  /-- the error of `Marshal` -/
  payload : Option GoError
  /-- `asynq.NewTask` is not nil -/
  task : Bool
  register : Except GoError String

inductive Outcome where
  | panics
  | err (err : GoError)
  | entry (id : String)
deriving DecidableEq, Repr

def registerTask (typeName : String) (a : Answers) (t : Tasks) : Outcome × Tasks :=
  match a.payload with
  | some err => (.err err, t)
  | none =>
    if a.task = false then (.err ⟨"new task failed"⟩, t)
    else
      match t.scheduler, a.register with
      | none, _ => (.panics, t)
      | some _, .error err => (.err ⟨"[" ++ typeName ++ "] register periodic task failed: " ++ err.text⟩, t)
      | some entries, .ok id =>
        (.entry id, { t with scheduler := some (id :: entries), entryIDs := t.entryIDs.insert typeName id })

def newPeriodicTask (cronSpec typeName : String) (a : Answers) (t : Tasks) : Outcome × Tasks :=
  if cronSpec = "" then (.err ⟨"cronSpec cannot be empty"⟩, t)
  else if typeName = "" then (.err ⟨"typeName cannot be empty"⟩, t)
  else if t.scheduler ≠ none then registerTask typeName a t
  else
    match createAsynqScheduler a.scheduler t with
    | (some err, t') => (.err err, t')
    | (none, t') => registerTask typeName a { t' with schedulerEnabled := true }

def queryPeriodicTaskEntryID (t : Tasks) (taskId : String) : String := (t.entryIDs.lookup taskId).getD ""

/-- `answer` is what `Unregister` returns; an entry that it fails for stays -/
def unregisterPeriodicTask (answer : Option GoError) (entryId : String) (t : Tasks) : Option GoError × Tasks :=
  match t.scheduler, answer with
  | none, _ => (none, t)
  | some _, some err => (some err, t)
  | some entries, none => (none, { t with scheduler := some (entries.filter (· ≠ entryId)) })

def removePeriodicTask (taskId : String) (answer : Option GoError) (t : Tasks) : Option GoError × Tasks :=
  if queryPeriodicTaskEntryID t taskId = "" then (some ⟨"[" ++ taskId ++ "] periodic task not found"⟩, t)
  else
    match unregisterPeriodicTask answer (queryPeriodicTaskEntryID t taskId) t with
    | (some err, t') => (some err, t')
    | (none, t') => (none, { t' with entryIDs := t'.entryIDs.erase taskId })

/-- `RemoveAllPeriodicTask`, which is also the first thing `Stop` does -/
def removeAllPeriodicTask (answer : String → Option GoError) (t : Tasks) : Tasks :=
  (t.entryIDs.entries.map Sigma.snd).foldl (fun t id => (unregisterPeriodicTask (answer id) id t).2)
    { t with entryIDs := ∅ }

/-! ## Sequences of calls -/

structure State where
  tasks : Tasks
  /-- the IDs that were returned and not removed since -/
  live : List String

def newServer (schedulerEnabled created : Bool) : State :=
  ⟨(createAsynqScheduler created ⟨schedulerEnabled, none, ∅⟩).2, []⟩

inductive Op where
  | newTask (cronSpec typeName : String) (a : Answers)
  | remove (taskId : String) (answer : Option GoError)
  | removeAll (answer : String → Option GoError)

def step (s : State) : Op → State
  | .newTask cronSpec typeName a =>
    match newPeriodicTask cronSpec typeName a s.tasks with
    | (.entry id, t) => ⟨t, id :: s.live⟩
    | (_, t) => ⟨t, s.live⟩
  | .remove taskId answer =>
    match removePeriodicTask taskId answer s.tasks with
    | (none, t) => ⟨t, s.live.filter (· ≠ queryPeriodicTaskEntryID s.tasks taskId)⟩
    | (some _, t) => ⟨t, s.live⟩
  | .removeAll answer => ⟨removeAllPeriodicTask answer s.tasks, []⟩

/-- the entries of the scheduler are those that were returned and not removed -/
def Accurate (s : State) : Prop := ∀ id, id ∈ s.tasks.registered ↔ id ∈ s.live

def Mapped (t : Tasks) (id : String) : Prop := ∃ typeName, t.entryIDs.lookup typeName = some id

/-- all entries are in the map when all are removed, and no `Unregister` fails -/
def Complete (s : State) : Op → Prop
  | .removeAll answer => ∀ id ∈ s.tasks.registered, Mapped s.tasks id ∧ answer id = none
  | _ => True

/-- no type is registered again while it is in the map, and all entries can be unregistered -/
def Careful (s : State) : Op → Prop
  | .newTask cronSpec typeName a => ∀ id, (newPeriodicTask cronSpec typeName a s.tasks).1 = .entry id →
      s.tasks.entryIDs.lookup typeName = none
  | .removeAll answer => ∀ id, answer id = none
  | _ => True

def Op.Spares (id : String) : Op → Prop
  | .newTask _ _ a => a.register ≠ .ok id
  | _ => True

/-- `RemovePeriodicTask` with the key returns no error and removes the entry and no other one -/
def RemovesExactly (t : Tasks) (key id : String) : Prop :=
  (removePeriodicTask key none t).1 = none ∧
    ∀ other, other ∈ (removePeriodicTask key none t).2.registered ↔ other ∈ t.registered ∧ other ≠ id

/-! ## What each call does -/

variable {t : Tasks}

/-- a new entry with the ID that the scheduler returned, or nothing -/
inductive Registers (typeName : String) (a : Answers) (t : Tasks) : Outcome × Tasks → Prop where
  | entry {id : String} {t' : Tasks} (hanswer : a.register = .ok id) (hreg : t'.registered = id :: t.registered)
      (hids : t'.entryIDs = t.entryIDs.insert typeName id) : Registers typeName a t (.entry id, t')
  | refused {o : Outcome} {t' : Tasks} (hne : ∀ id, o ≠ .entry id) (hreg : t'.registered = t.registered)
      (hids : t'.entryIDs = t.entryIDs) : Registers typeName a t (o, t')

theorem registers_registerTask (typeName : String) (a : Answers) (t : Tasks) :
    Registers typeName a t (registerTask typeName a t) := by
  unfold registerTask
  split
  · exact .refused nofun rfl rfl
  · split_ifs
    · exact .refused nofun rfl rfl
    · split
      · exact .refused nofun rfl rfl
      · exact .refused nofun rfl rfl
      next entries id hsched hreg => exact .entry hreg (by simp [Tasks.registered, hsched]) rfl

theorem Registers.of_same {typeName : String} {a : Answers} {t' : Tasks} {p : Outcome × Tasks}
    (h : Registers typeName a t' p) (hreg : t'.registered = t.registered) (hids : t'.entryIDs = t.entryIDs) :
    Registers typeName a t p := by
  cases h with
  | entry hanswer hreg' hids' => exact .entry hanswer (hreg ▸ hreg') (hids ▸ hids')
  | refused hne hreg' hids' => exact .refused hne (hreg'.trans hreg) (hids'.trans hids)

theorem createAsynqScheduler_snd (created : Bool) (t : Tasks) :
    (createAsynqScheduler created t).2.registered = t.registered ∧
      (createAsynqScheduler created t).2.entryIDs = t.entryIDs := by
  unfold createAsynqScheduler
  split_ifs with h
  · exact ⟨rfl, rfl⟩
  · have hnone : t.scheduler = none := not_not.1 (not_or.1 h).2
    exact ⟨by simp [Tasks.registered, hnone], rfl⟩
  · exact ⟨rfl, rfl⟩

theorem registers_newPeriodicTask (cronSpec typeName : String) (a : Answers) (t : Tasks) :
    Registers typeName a t (newPeriodicTask cronSpec typeName a t) := by
  unfold newPeriodicTask
  split_ifs
  · exact .refused nofun rfl rfl
  · exact .refused nofun rfl rfl
  · exact registers_registerTask typeName a t
  · obtain ⟨hreg, hids⟩ := createAsynqScheduler_snd a.scheduler t
    split
    next err t' hcreate =>
      rw [hcreate] at hreg hids
      exact .refused nofun hreg hids
    next t' hcreate =>
      rw [hcreate] at hreg hids
      exact (registers_registerTask typeName a _).of_same hreg hids

theorem unregister_registered (answer : Option GoError) (entryId : String) (t : Tasks) (id : String) :
    id ∈ (unregisterPeriodicTask answer entryId t).2.registered ↔
      id ∈ t.registered ∧ ¬ (id = entryId ∧ answer = none) := by
  cases hsched : t.scheduler <;> cases answer <;> simp [unregisterPeriodicTask, Tasks.registered, hsched]

theorem unregister_entryIDs (answer : Option GoError) (entryId : String) (t : Tasks) :
    (unregisterPeriodicTask answer entryId t).2.entryIDs = t.entryIDs := by
  cases hsched : t.scheduler <;> cases answer <;> simp [unregisterPeriodicTask, hsched]

/-- the entry kept under the key goes, or nothing -/
inductive Removes (taskId : String) (answer : Option GoError) (t : Tasks) : Option GoError × Tasks → Prop where
  | entry {id : String} {t' : Tasks} (hid : id ≠ "") (hlookup : t.entryIDs.lookup taskId = some id)
      (hreg : ∀ other, other ∈ t'.registered ↔ other ∈ t.registered ∧ other ≠ id)
      (hids : t'.entryIDs = t.entryIDs.erase taskId) : Removes taskId answer t (none, t')
  | refused {err : GoError} (hwhy : queryPeriodicTaskEntryID t taskId = "" ∨ answer ≠ none) :
      Removes taskId answer t (some err, t)

theorem removes_removePeriodicTask (taskId : String) (answer : Option GoError) (t : Tasks) :
    Removes taskId answer t (removePeriodicTask taskId answer t) := by
  unfold removePeriodicTask
  split_ifs with hempty
  · exact .refused (.inl hempty)
  · obtain ⟨id, hid⟩ : ∃ id, t.entryIDs.lookup taskId = some id := by
      rw [← Option.ne_none_iff_exists']
      intro hnone
      simp [queryPeriodicTaskEntryID, hnone] at hempty
    have hquery : queryPeriodicTaskEntryID t taskId = id := by simp [queryPeriodicTaskEntryID, hid]
    rw [hquery] at hempty ⊢
    cases hsched : t.scheduler with
    | none =>
      simp only [unregisterPeriodicTask, hsched]
      exact .entry hempty hid (by simp [Tasks.registered, hsched]) rfl
    | some entries =>
      cases answer with
      | some err =>
        simp only [unregisterPeriodicTask, hsched]
        exact .refused (.inr (Option.some_ne_none err))
      | none =>
        simp only [unregisterPeriodicTask, hsched]
        exact .entry hempty hid (by simp [Tasks.registered, hsched]) rfl

variable (answer : String → Option GoError)

theorem foldl_unregister (ids : List String) (t : Tasks) :
    (ids.foldl (fun t id => (unregisterPeriodicTask (answer id) id t).2) t).entryIDs = t.entryIDs ∧
    ∀ id, id ∈ (ids.foldl (fun t id => (unregisterPeriodicTask (answer id) id t).2) t).registered ↔
      id ∈ t.registered ∧ ¬ (id ∈ ids ∧ answer id = none) := by
  induction ids generalizing t with
  | nil => simp
  | cons i ids ih =>
    obtain ⟨hids, hreg⟩ := ih (unregisterPeriodicTask (answer i) i t).2
    rw [List.foldl_cons]
    refine ⟨hids.trans (unregister_entryIDs _ _ _), fun id => ?_⟩
    rw [hreg, unregister_registered, List.mem_cons]
    by_cases hid : id = i
    · subst hid
      tauto
    · tauto

theorem mapped_iff (id : String) : id ∈ t.entryIDs.entries.map Sigma.snd ↔ Mapped t id := by
  simp only [List.mem_map, Sigma.exists, exists_eq_right]
  exact exists_congr fun typeName => (AList.mem_lookup_iff (s := t.entryIDs)).symm

theorem removeAll_entryIDs : (removeAllPeriodicTask answer t).entryIDs = ∅ :=
  (foldl_unregister answer _ _).1

theorem removeAll_registered (id : String) :
    id ∈ (removeAllPeriodicTask answer t).registered ↔ id ∈ t.registered ∧ ¬ (Mapped t id ∧ answer id = none) := by
  rw [← mapped_iff]
  exact (foldl_unregister answer _ _).2 id

/-! ## One call -/

inductive Turn (s : State) : Op → State → Prop where
  | registered {cronSpec typeName id : String} {a : Answers} {t : Tasks}
      (hentry : (newPeriodicTask cronSpec typeName a s.tasks).1 = .entry id) (hanswer : a.register = .ok id)
      (hreg : t.registered = id :: s.tasks.registered) (hids : t.entryIDs = s.tasks.entryIDs.insert typeName id) :
      Turn s (.newTask cronSpec typeName a) ⟨t, id :: s.live⟩
  | removed {taskId id : String} {answer : Option GoError} {t : Tasks}
      (hlookup : s.tasks.entryIDs.lookup taskId = some id)
      (hreg : ∀ other, other ∈ t.registered ↔ other ∈ s.tasks.registered ∧ other ≠ id)
      (hids : t.entryIDs = s.tasks.entryIDs.erase taskId) :
      Turn s (.remove taskId answer) ⟨t, s.live.filter (· ≠ id)⟩
  | cleared (answer : String → Option GoError) : Turn s (.removeAll answer) ⟨removeAllPeriodicTask answer s.tasks, []⟩
  | refused {op : Op} {t : Tasks} (hop : ∀ answer, op ≠ .removeAll answer) (hreg : t.registered = s.tasks.registered)
      (hids : t.entryIDs = s.tasks.entryIDs) : Turn s op ⟨t, s.live⟩

variable {s : State}

theorem turn_step (op : Op) : Turn s op (step s op) := by
  cases op with
  | newTask cronSpec typeName a =>
    have h := registers_newPeriodicTask cronSpec typeName a s.tasks
    simp only [step]
    rcases hnew : newPeriodicTask cronSpec typeName a s.tasks with ⟨o, t⟩
    rw [hnew] at h
    cases h with
    | entry hanswer hreg hids => exact .registered (by rw [hnew]) hanswer hreg hids
    | refused hne hreg hids =>
      cases o with
      | entry id => exact absurd rfl (hne id)
      | panics | err => exact .refused nofun hreg hids
  | remove taskId answer =>
    have h := removes_removePeriodicTask taskId answer s.tasks
    simp only [step]
    rcases hremove : removePeriodicTask taskId answer s.tasks with ⟨o, t⟩
    rw [hremove] at h
    cases h with
    | @entry id _ _ hlookup hreg hids =>
      rw [show queryPeriodicTaskEntryID s.tasks taskId = id by simp [queryPeriodicTaskEntryID, hlookup]]
      exact .removed hlookup hreg hids
    | refused => exact .refused nofun rfl rfl
  | removeAll answer => exact .cleared answer

theorem accurate_turn {op : Op} {s' : State} (hturn : Turn s op s') (h : Accurate s) :
    Accurate s' ↔ Complete s op := by
  cases hturn with
  | registered _ _ hreg _ | removed _ hreg _ => exact iff_of_true (fun id => by simp [hreg, h id]) trivial
  | cleared answer =>
    simp only [Accurate, removeAll_registered]
    exact forall_congr' fun id => by tauto
  | @refused op t hop hreg hids =>
    refine iff_of_true (fun id => by rw [hreg, h id]) ?_
    cases op with
    | removeAll answer => exact absurd rfl (hop answer)
    | _ => trivial

/-! ## Entries that are in the map -/

def AllMapped (s : State) : Prop := ∀ id ∈ s.tasks.registered, Mapped s.tasks id

theorem allMapped_turn {op : Op} {s' : State} (hturn : Turn s op s') (h : AllMapped s) (hcareful : Careful s op) :
    AllMapped s' := by
  cases hturn with
  | @registered cronSpec typeName id a t hentry hanswer hreg hids =>
    intro other hother
    rw [hreg] at hother
    rcases List.mem_cons.1 hother with rfl | hother
    · exact ⟨typeName, by simp [hids]⟩
    · -- the type name of the other entry is not the new one, which was not in the map
      obtain ⟨name, hname⟩ := h other hother
      have hne : name ≠ typeName := by
        rintro rfl
        rw [hcareful id hentry] at hname
        cases hname
      exact ⟨name, by simp [hids, AList.lookup_insert_ne hne, hname]⟩
  | @removed taskId id answer t hlookup hreg hids =>
    intro other hother
    obtain ⟨hmem, hne⟩ := (hreg other).1 hother
    obtain ⟨name, hname⟩ := h other hmem
    have hkey : name ≠ taskId := by
      rintro rfl
      rw [hlookup] at hname
      exact hne (Option.some.inj hname).symm
    exact ⟨name, by simp [hids, AList.lookup_erase_ne hkey, hname]⟩
  | cleared answer =>
    intro id hid
    obtain ⟨hmem, hnot⟩ := (removeAll_registered answer id).1 hid
    exact absurd ⟨h id hmem, hcareful id⟩ hnot
  | refused hop hreg hids =>
    intro id hid
    rw [hreg] at hid
    obtain ⟨name, hname⟩ := h id hid
    exact ⟨name, by rw [hids, hname]⟩

theorem complete_of_allMapped {op : Op} (h : AllMapped s) (hcareful : Careful s op) : Complete s op := by
  cases op with
  | removeAll answer => exact fun id hid => ⟨h id hid, hcareful id⟩
  | _ => trivial

/-! ## Entries that are not -/

def Orphan (id : String) (s : State) : Prop := id ∈ s.tasks.registered ∧ ¬ Mapped s.tasks id

theorem orphan_turn {id : String} {op : Op} {s' : State} (hturn : Turn s op s') (h : Orphan id s)
    (hspares : op.Spares id) : Orphan id s' := by
  obtain ⟨hmem, hnot⟩ := h
  cases hturn with
  | @registered cronSpec typeName id' a t hentry hanswer hreg hids =>
    refine ⟨by simp [hreg, hmem], fun ⟨name, hname⟩ => ?_⟩
    rw [hids] at hname
    by_cases hkey : name = typeName
    · subst hkey
      have hsame : id' = id := by simpa using hname
      exact hspares (hanswer.trans (congrArg Except.ok hsame))
    · exact hnot ⟨name, by rwa [AList.lookup_insert_ne hkey] at hname⟩
  | @removed taskId id' answer t hlookup hreg hids =>
    have hne : id ≠ id' := by
      rintro rfl
      exact hnot ⟨taskId, hlookup⟩
    refine ⟨(hreg id).2 ⟨hmem, hne⟩, fun ⟨name, hname⟩ => ?_⟩
    rw [hids] at hname
    by_cases hkey : name = taskId
    · subst hkey
      simp at hname
    · exact hnot ⟨name, by rwa [AList.lookup_erase_ne hkey] at hname⟩
  | cleared answer =>
    refine ⟨(removeAll_registered answer id).2 ⟨hmem, fun h => hnot h.1⟩, fun ⟨name, hname⟩ => ?_⟩
    simp [removeAll_entryIDs] at hname
  | refused hop hreg hids =>
    refine ⟨by rwa [hreg], fun ⟨name, hname⟩ => hnot ⟨name, by rwa [hids] at hname⟩⟩

theorem orphan_run {id : String} (h : Orphan id s) {ops : List Op} (hspares : ∀ op ∈ ops, op.Spares id) :
    Orphan id (run step s ops) := by
  induction ops generalizing s with
  | nil => exact h
  | cons op ops ih =>
    exact ih (orphan_turn (turn_step op) h (hspares op (by simp))) fun o ho => hspares o (by simp [ho])

theorem removesExactly_iff {id : String} (hid : id ∈ t.registered) :
    RemovesExactly t id id ↔ id ≠ "" ∧ t.entryIDs.lookup id = some id := by
  have h := removes_removePeriodicTask id none t
  unfold RemovesExactly
  generalize removePeriodicTask id none t = removed at h ⊢
  cases h with
  | @entry other _ hempty hlookup hother _ =>
    -- the entry that goes is the one kept under the key
    constructor
    · rintro ⟨-, hreg⟩
      have hsame : other = id := by
        by_contra hne
        exact ((hreg id).1 ((hother id).2 ⟨hid, Ne.symm hne⟩)).2 rfl
      subst hsame
      exact ⟨hempty, hlookup⟩
    · rintro ⟨-, hlookup'⟩
      obtain rfl := Option.some.inj (hlookup'.symm.trans hlookup)
      exact ⟨rfl, hother⟩
  | refused hquery =>
    refine iff_of_false (fun h => nomatch h.1) ?_
    rintro ⟨hempty, hlookup⟩
    rcases hquery with hquery | hquery
    · exact hempty (by simpa [queryPeriodicTaskEntryID, hlookup] using hquery)
    · exact hquery rfl

/-! ## Sequences -/

/-- **The entries of the scheduler** are those that were returned and not removed since, after every call, if and only
if each `RemoveAllPeriodicTask` finds all entries in the map and every `Unregister` succeeds; it is enough that no type
is registered again while it is in the map and no `Unregister` of it fails. An ID removes its entry and no other one
exactly when it is also its type name; and an entry that is not in the map stays. -/
theorem entries_kept_iff (schedulerEnabled created : Bool) (ops : List Op) :
    (Always step Accurate (newServer schedulerEnabled created) ops ↔
      Along step Complete (newServer schedulerEnabled created) ops) ∧
    (Along step Careful (newServer schedulerEnabled created) ops →
      Along step Complete (newServer schedulerEnabled created) ops) ∧
    (∀ id ∈ (run step (newServer schedulerEnabled created) ops).tasks.registered,
      (RemovesExactly (run step (newServer schedulerEnabled created) ops).tasks id id ↔
        id ≠ "" ∧ (run step (newServer schedulerEnabled created) ops).tasks.entryIDs.lookup id = some id) ∧
      (¬ Mapped (run step (newServer schedulerEnabled created) ops).tasks id → ∀ later : List Op,
        (∀ op ∈ later, op.Spares id) →
        id ∈ (run step (newServer schedulerEnabled created) (ops ++ later)).tasks.registered)) := by
  have hnone : (newServer schedulerEnabled created).tasks.registered = [] := by
    cases schedulerEnabled <;> cases created <;> rfl
  refine ⟨?_, fun hcareful => ?_, fun id hid => ⟨removesExactly_iff hid, fun hnot later hspares => ?_⟩⟩
  · refine always_iff_along_of_iff (I := fun _ => True) (fun _ _ _ => trivial)
      (fun s op _ h => accurate_turn (turn_step op) h) trivial ?_ ops
    intro id
    rw [hnone]
    exact Iff.rfl
  · have hmapped : AllMapped (newServer schedulerEnabled created) := by
      intro id hid
      rw [hnone] at hid
      cases hid
    exact along_of_along (I := AllMapped) (fun _ op => allMapped_turn (turn_step op))
      (fun _ _ h hc => complete_of_allMapped h hc) hmapped hcareful
  · rw [run_append]
    exact (orphan_run ⟨hid, hnot⟩ hspares).1

def accepted (id : String) : Answers := ⟨true, none, true, .ok id⟩

def served (ops : List Op) : State := run step (newServer true true) ops

def twice : List Op := [.newTask "@daily" "mail" (accepted "1"), .newTask "@hourly" "mail" (accepted "2")]

/-- **Entries that are left.** The ID of a task is not found; the first of two tasks of one type stays when all are
removed; and so does an entry whose `Unregister` fails. -/
theorem entries_left :
    ((removePeriodicTask "1" none (served [.newTask "@daily" "mail" (accepted "1")]).tasks).1 =
        some ⟨"[1] periodic task not found"⟩ ∧
      ¬ RemovesExactly (served [.newTask "@daily" "mail" (accepted "1")]).tasks "1" "1") ∧
    ((served (twice ++ [Op.removeAll fun _ => none])).tasks.registered = ["1"] ∧
      ¬ Accurate (served (twice ++ [Op.removeAll fun _ => none])) ∧
      (removePeriodicTask "1" none (served twice).tasks).1 ≠ none ∧
      (removePeriodicTask "mail" none (served twice).tasks).2.registered = ["1"]) ∧
    ¬ Accurate (served [.newTask "@daily" "mail" (accepted "1"), .removeAll fun _ => some ⟨"not found"⟩]) := by
  refine ⟨⟨by decide, fun h => ?_⟩, ⟨by decide, fun h => ?_, by decide, by decide⟩, fun h => ?_⟩
  · exact absurd h.1 (by decide)
  · exact absurd ((h "1").1 (by decide)) (by decide)
  · exact absurd ((h "1").1 (by decide)) (by decide)

end LuluExt.Asynq
