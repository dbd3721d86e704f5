/-
The health aggregator: `Register` and `Check`.

`Check` starts a goroutine for each registered checker. Each waits for the answer of its checker or for the end of the
context, whichever its `select` takes, and sends one result; the loop of `Check` receives as many results as there are
checkers and folds them into a status and one entry per name.

Actors, interleaved arbitrarily:
- the checkers: `answer` when the Check of one returns;
- the context: `expire` at the timeout, or when the caller cancels;
- the goroutines: `report`, whose select can take either case when both are ready;
- the loop: `receive`.
A checker is what its Check answers in this call, and `q` is the verb `%q` of fmt.
-/
import Mathlib.Data.List.AList
import LuluExt.Lib.Gather
import LuluExt.Lib.Run

open scoped List

namespace LuluExt.Health

open LuluExt.Run

inductive Status where
  | unknown
  | up
  | down
  | other (n : ℤ)
deriving DecidableEq, Repr

def Status.string : Status → String
  | .up => "up"
  | .down => "down"
  | _ => "unknown"

/-- a value of type any: a text or something else -/
inductive Value where
  | text (s : String)
  | other (id : ℕ)
deriving DecidableEq, Repr

abbrev Map (β : Type) := AList fun _ : String => β

structure Result where
  status : Status
  message : String
  details : Map Value
deriving DecidableEq

/-- what `Check` returns: its details have a map for each name -/
structure Report where
  status : Status
  message : String
  details : Map (Map Value)
deriving DecidableEq

abbrev Checkers := Map Result

def Checkers.register (c : Checkers) (name : String) (answer : Result) : Checkers := c.insert name answer

/-! ## The results of the checkers -/

def timedOut (q : String → String) (name : String) : Result := ⟨.down, "checker " ++ q name ++ " timed out", ∅⟩

/-- the entry of a name: its status and message, over which the details of the checker are written -/
def entry (r : Result) : Map Value :=
  r.details ∪ ((∅ : Map Value).insert "message" (.text r.message)).insert "status" (.text r.status.string)

structure Acc where
  overall : Status
  details : Map (Map Value)

def collect (acc : Acc) (cr : String × Result) : Acc where
  details := acc.details.insert cr.1 (entry cr.2)
  overall :=
    if cr.2.status = .down then .down
    else if cr.2.status = .unknown ∧ acc.overall ≠ .down then .unknown
    else acc.overall

def collected (results : List (String × Result)) : Acc := results.foldl collect ⟨.up, ∅⟩

structure St where
  /-- checkCtx is done -/
  expired : Bool
  /-- the checkers whose answer is in the channel `done` of their goroutine -/
  answered : List String
  /-- the goroutines, resultCh and the results that the loop has received -/
  gather : Gather String Result

inductive Op where
  | answer (name : String)
  | expire
  /-- `first` says which case a select with two ready cases takes -/
  | report (name : String) (first : Bool)
  | receive
deriving DecidableEq, Repr

/-- what the select of a goroutine takes, if a case is ready -/
def select (q : String → String) (c : Checkers) (s : St) (name : String) (first : Bool) : Option Result :=
  if name ∈ s.answered ∧ (first = true ∨ s.expired = false) then c.lookup name
  else if s.expired then some (timedOut q name)
  else none

def step (q : String → String) (c : Checkers) (s : St) : Op → St
  | .answer name => { s with answered := name :: s.answered }
  | .expire => { s with expired := true }
  | .report name first =>
    match select q c s name first with
    | none => s
    | some r => { s with gather := s.gather.send c.keys.length name r }
  | .receive => { s with gather := s.gather.receive c.keys.length }

def start (c : Checkers) : St := ⟨false, [], .start c.keys⟩

def returned (c : Checkers) (s : St) : Option Report :=
  if c.keys = [] then some ⟨.up, "no checkers registered", ∅⟩
  else if s.gather.received.length = c.keys.length then
    some ⟨(collected s.gather.received).overall, "", (collected s.gather.received).details⟩
  else none

/-! ## The status of a list of results -/

/-- down if one is, or else unknown if one is, or else up -/
def worst (l : List Status) : Status := if .down ∈ l then .down else if .unknown ∈ l then .unknown else .up

theorem worst_eq_down {l : List Status} : worst l = .down ↔ .down ∈ l := by
  unfold worst
  split_ifs <;> simp_all

theorem worst_eq_unknown {l : List Status} : worst l = .unknown ↔ .down ∉ l ∧ .unknown ∈ l := by
  unfold worst
  split_ifs <;> simp_all

theorem worst_eq_up {l : List Status} : worst l = .up ↔ .down ∉ l ∧ .unknown ∉ l := by
  unfold worst
  split_ifs <;> simp_all

theorem worst_perm {l l' : List Status} (h : l ~ l') : worst l = worst l' := by
  simp only [worst, h.mem_iff]

variable (l : List (String × Result))

theorem collected_snoc (x : String × Result) : collected (l ++ [x]) = collect (collected l) x := by
  rw [collected, List.foldl_append]
  rfl

/-- **The running status** is the worst one so far. -/
theorem overall_collected : (collected l).overall = worst (l.map fun x => x.2.status) := by
  induction l using List.reverseRecOn with
  | nil => rfl
  | append_singleton l x ih =>
    rw [collected_snoc, collect, ih, List.map_append, List.map_singleton]
    generalize l.map (fun x => x.2.status) = statuses
    cases hx : x.2.status with
    | down => simp [worst]
    | unknown =>
      by_cases hdown : .down ∈ statuses
      · simp [worst, hdown]
      · have hrun : worst statuses ≠ .down := fun h => hdown (worst_eq_down.1 h)
        rw [if_neg nofun, if_pos ⟨rfl, hrun⟩]
        simp [worst, hdown]
    | _ => simp [worst]

theorem mem_details_collected (name : String) : name ∈ (collected l).details ↔ name ∈ l.map Prod.fst := by
  induction l using List.reverseRecOn with
  | nil => simp [collected]
  | append_singleton l x ih =>
    rw [collected_snoc, collect, AList.mem_insert, ih, List.map_append, List.mem_append, List.map_singleton,
      List.mem_singleton, or_comm]

theorem keys_details_collected {l : List (String × Result)} (hl : (l.map Prod.fst).Nodup) :
    (collected l).details.keys ~ l.map Prod.fst := by
  rw [List.perm_ext_iff_of_nodup (AList.keys_nodup _) hl]
  intro name
  rw [← AList.mem_keys, mem_details_collected]

theorem lookup_details_collected {l : List (String × Result)} (hl : (l.map Prod.fst).Nodup) {x : String × Result}
    (hx : x ∈ l) : (collected l).details.lookup x.1 = some (entry x.2) := by
  induction l using List.reverseRecOn with
  | nil => cases hx
  | append_singleton l y ih =>
    rw [collected_snoc, collect]
    rw [List.map_append, List.nodup_append] at hl
    rw [List.mem_append, List.mem_singleton] at hx
    rcases hx with hx | rfl
    · have hne : x.1 ≠ y.1 := hl.2.2 x.1 (List.mem_map_of_mem hx) y.1 List.mem_cons_self
      rw [AList.lookup_insert_ne hne]
      exact ih hl.1 hx
    · rw [AList.lookup_insert]

/-! ## Runs -/

/-- a result is the answer of its checker, or says that it timed out once the context is done -/
def Outcome (q : String → String) (c : Checkers) (s : St) (name : String) (r : Result) : Prop :=
  c.lookup name = some r ∨ s.expired = true ∧ r = timedOut q name

def Inv (q : String → String) (c : Checkers) (s : St) : Prop := s.gather.Inv c.keys (Outcome q c s)

section

variable {q : String → String} {c : Checkers} {s : St}

theorem inv_start (q : String → String) (c : Checkers) : Inv q c (start c) := Gather.inv_start _ _

theorem outcome_select {name : String} {first : Bool} {r : Result} (h : select q c s name first = some r) :
    Outcome q c s name r := by
  unfold select at h
  split_ifs at h with hanswer hexpired
  · exact .inl h
  · cases h
    exact .inr ⟨hexpired, rfl⟩

theorem inv_step (op : Op) (h : Inv q c s) : Inv q c (step q c s op) := by
  cases op with
  | answer name => exact h
  | expire =>
    refine Gather.Inv.mono h ?_
    intro name r houtcome
    exact houtcome.imp_right fun hout => ⟨rfl, hout.2⟩
  | report name first =>
    simp only [step]
    split
    next => exact h
    next r hr => exact Gather.Inv.send h (outcome_select hr)
  | receive => exact Gather.Inv.receive h

theorem inv_run (q : String → String) (c : Checkers) (ops : List Op) : Inv q c (run (step q c) (start c) ops) :=
  run_inv (fun _ op h => inv_step op h) (inv_start q c) ops

theorem received_nodup (h : Inv q c s) : (s.gather.received.map Prod.fst).Nodup := by
  have hnodup := h.perm.nodup_iff.2 c.keys_nodup
  rw [List.map_append] at hnodup
  exact (List.nodup_append.1 (List.nodup_append.1 hnodup).2.1).2.1

structure Aggregates (names : List String) (results : List (String × Result)) (report : Report) : Prop where
  complete : results.map Prod.fst ~ names
  down : report.status = .down ↔ ∃ x ∈ results, x.2.status = .down
  unknown : report.status = .unknown ↔
    (∀ x ∈ results, x.2.status ≠ .down) ∧ ∃ x ∈ results, x.2.status = .unknown
  up : report.status = .up ↔ ∀ x ∈ results, x.2.status ≠ .down ∧ x.2.status ≠ .unknown
  details : report.details.keys ~ names

theorem aggregates_of_worst {names : List String} {results : List (String × Result)} {report : Report}
    (hnames : results.map Prod.fst ~ names) (hstatus : report.status = worst (results.map fun x => x.2.status))
    (hdetails : report.details.keys ~ names) : Aggregates names results report where
  complete := hnames
  down := by simp [hstatus, worst_eq_down]
  unknown := by simp [hstatus, worst_eq_unknown]
  up := by simp [hstatus, worst_eq_up, forall_and]
  details := hdetails

theorem aggregates_of_returned {report : Report} (h : Inv q c s) (hreport : returned c s = some report) :
    Aggregates c.keys s.gather.received report := by
  unfold returned at hreport
  split_ifs at hreport with hempty hdone
  · cases hreport
    have hperm := h.perm
    rw [hempty] at hperm
    have hnone : s.gather.received = [] := by
      have hnil := hperm.eq_nil
      simp only [List.append_eq_nil_iff, List.map_eq_nil_iff] at hnil
      exact hnil.2.2
    rw [hempty, hnone]
    exact aggregates_of_worst (.refl _) rfl (.refl _)
  · cases hreport
    obtain ⟨-, -, hperm⟩ := Gather.Inv.complete h hdone
    exact aggregates_of_worst hperm (overall_collected _) ((keys_details_collected (received_nodup h)).trans hperm)

theorem status_eq_worst {report : Report} (h : Inv q c s) (hexpired : s.expired = false)
    (hreport : returned c s = some report) : report.status = worst (c.entries.map fun e => e.2.status) := by
  unfold returned at hreport
  split_ifs at hreport with hempty hdone
  · cases hreport
    have hentries : c.entries = [] := List.map_eq_nil_iff.1 hempty
    rw [hentries]
    rfl
  · cases hreport
    obtain ⟨-, -, hperm⟩ := Gather.Inv.complete h hdone
    have hanswers : ∀ x ∈ s.gather.received, c.lookup x.1 = some x.2 := by
      intro x hx
      rcases h.sent x (List.mem_append_right _ hx) with hanswer | ⟨hdone, -⟩
      · exact hanswer
      · rw [hexpired] at hdone
        cases hdone
    have hstatuses : s.gather.received.map (fun x => x.2.status) =
        (s.gather.received.map Prod.fst).map fun name => ((c.lookup name).map Result.status).getD .up := by
      rw [List.map_map]
      refine List.map_congr_left ?_
      intro x hx
      simp [hanswers x hx]
    have hentries : c.entries.map (fun e => e.2.status) =
        c.keys.map fun name => ((c.lookup name).map Result.status).getD .up := by
      rw [AList.keys, List.keys, List.map_map]
      refine List.map_congr_left ?_
      intro e he
      have hlookup : c.lookup e.1 = some e.2 := AList.mem_lookup_iff.2 he
      simp [hlookup]
    rw [overall_collected, hstatuses, hentries]
    exact worst_perm (hperm.map _)

/-- **The status by the answers**, when the context was not done: in every interleaving. -/
theorem status_of_returned (q : String → String) (c : Checkers) (ops : List Op) {report : Report}
    (hexpired : (run (step q c) (start c) ops).expired = false)
    (hreport : returned c (run (step q c) (start c) ops) = some report) :
    report.status = worst (c.entries.map fun e => e.2.status) :=
  status_eq_worst (inv_run q c ops) hexpired hreport

/-! ## `Check` returns -/

def Ready (s : St) : Prop := s.expired = true ∨ ∀ name ∈ s.gather.waiting, name ∈ s.answered

theorem mem_keys_of_waiting (h : Inv q c s) {name : String} (hw : name ∈ s.gather.waiting) : name ∈ c.keys :=
  h.perm.subset (List.mem_append_left _ hw)

theorem select_of_ready (h : Inv q c s) (hready : Ready s) {name : String} (hw : name ∈ s.gather.waiting)
    (first : Bool) : ∃ r, select q c s name first = some r := by
  unfold select
  split_ifs with hanswer hexpired
  · exact Option.isSome_iff_exists.1 (AList.lookup_isSome.2 (mem_keys_of_waiting h hw))
  · exact ⟨_, rfl⟩
  · rcases hready with hready | hready
    · exact absurd hready hexpired
    · exact absurd ⟨hready name hw, .inr (by simpa using hexpired)⟩ hanswer

theorem waiting_step_subset (op : Op) : (step q c s op).gather.waiting ⊆ s.gather.waiting := by
  cases op with
  | answer name | expire => exact List.Subset.refl _
  | report name first =>
    simp only [step]
    split
    · exact List.Subset.refl _
    · exact Gather.waiting_send_subset ..
  | receive => simp only [step, Gather.waiting_receive, List.Subset.refl]

theorem not_waiting_report (h : Inv q c s) (hready : Ready s) (name : String) (first : Bool) :
    name ∉ (step q c s (.report name first)).gather.waiting := by
  by_cases hw : name ∈ s.gather.waiting
  · obtain ⟨r, hr⟩ := select_of_ready h hready hw first
    have hnodup : s.gather.waiting.Nodup := (List.nodup_append.1 (h.perm.nodup_iff.2 c.keys_nodup)).1
    simp only [step, hr, Gather.Inv.send_eq h hw]
    exact hnodup.not_mem_erase
  · exact fun hmem => hw (waiting_step_subset _ hmem)

theorem ready_step (op : Op) (hready : Ready s) : Ready (step q c s op) := by
  have hkeeps : s.answered ⊆ (step q c s op).answered ∧ (s.expired → (step q c s op).expired) := by
    cases op with
    | answer name => exact ⟨List.subset_cons_self _ _, id⟩
    | expire => exact ⟨List.Subset.refl _, fun _ => rfl⟩
    | report name first =>
      simp only [step]
      split
      · exact ⟨List.Subset.refl _, id⟩
      · exact ⟨List.Subset.refl _, id⟩
    | receive => exact ⟨List.Subset.refl _, id⟩
  rcases hready with hready | hready
  · exact .inl (hkeeps.2 hready)
  · exact .inr fun name hw => hkeeps.1 (hready name (waiting_step_subset op hw))

theorem waiting_run (h : Inv q c s) (hready : Ready s) {ops : List Op}
    (hturns : ∀ name ∈ s.gather.waiting, ∃ first, Op.report name first ∈ ops) :
    (run (step q c) s ops).gather.waiting = [] := by
  induction ops generalizing s with
  | nil =>
    refine List.eq_nil_iff_forall_not_mem.2 fun name hw => ?_
    obtain ⟨first, hmem⟩ := hturns name hw
    cases hmem
  | cons op ops ih =>
    refine ih (inv_step op h) (ready_step op hready) fun name hw => ?_
    obtain ⟨first, hmem⟩ := hturns name (waiting_step_subset op hw)
    rcases List.mem_cons.1 hmem with rfl | hmem
    · exact absurd hw (not_waiting_report h hready name first)
    · exact ⟨first, hmem⟩

theorem received_run (h : Inv q c s) (hwaiting : s.gather.waiting = []) {ops : List Op}
    (hreceives : c.keys.length ≤ ops.countP (· = .receive)) :
    (run (step q c) s ops).gather.received.length = c.keys.length := by
  have hkeeps : ∀ s op, Inv q c s ∧ s.gather.waiting = [] →
      Inv q c (step q c s op) ∧ (step q c s op).gather.waiting = [] := by
    intro s op hs
    have hsubset := waiting_step_subset (q := q) (c := c) (s := s) op
    rw [hs.2] at hsubset
    exact ⟨inv_step op hs.1, List.subset_nil.1 hsubset⟩
  have hfewer : ∀ s op, Inv q c s ∧ s.gather.waiting = [] →
      (step q c s op).gather.channel.length ≤ s.gather.channel.length - (decide (op = .receive)).toNat := by
    rintro s op ⟨hinv, hnone⟩
    cases op with
    | answer name | expire => exact le_rfl
    | report name first =>
      simp only [step]
      split
      · exact le_rfl
      · simp [Gather.send, hnone]
    | receive =>
      cases hchannel : s.gather.channel with
      | nil => simp [step, Gather.receive, hchannel]
      | cons x channel => simp [step, Gather.Inv.receive_eq hinv hchannel]
  have hmeasure := run_measure (μ := fun s => s.gather.channel.length) hkeeps hfewer ⟨h, hwaiting⟩ ops
  have hend := run_inv hkeeps ⟨h, hwaiting⟩ ops
  have hlength := Gather.Inv.length hend.1
  have hfirst := Gather.Inv.length h
  rw [hend.2, List.length_nil] at hlength
  omega

end

/-- **What `Check` returns, and that it does.** In every interleaving: the status is the worst one of the results, with
one entry for each name, and each result is the answer of its checker or that it timed out. And once each goroutine has
a case that is ready, `Check` returns after each of them had its turn and the loop as many as there are checkers. -/
theorem check_aggregates (q : String → String) (c : Checkers) (ops : List Op) :
    (∀ report, returned c (run (step q c) (start c) ops) = some report →
      Aggregates c.keys (run (step q c) (start c) ops).gather.received report ∧
      ∀ x ∈ (run (step q c) (start c) ops).gather.received, Outcome q c (run (step q c) (start c) ops) x.1 x.2) ∧
    ∀ turns receives, Ready (run (step q c) (start c) ops) → (∀ name ∈ c.keys, ∃ first, Op.report name first ∈ turns) →
      c.keys.length ≤ receives.countP (· = .receive) →
      (returned c (run (step q c) (start c) (ops ++ turns ++ receives))).isSome = true := by
  have hinv := inv_run q c ops
  constructor
  · intro report hreport
    exact ⟨aggregates_of_returned hinv hreport, fun x hx => hinv.sent x (List.mem_append_right _ hx)⟩
  · intro turns receives hready hturns hreceives
    rw [run_append, run_append]
    have hnone := waiting_run hinv hready fun name hw => hturns name (mem_keys_of_waiting hinv hw)
    have hall := received_run (run_inv (fun _ op h => inv_step op h) hinv turns) hnone hreceives
    unfold returned
    split_ifs
    · rfl
    · rfl

def dbAndCache : Checkers := ((∅ : Checkers).register "db" ⟨.up, "", ∅⟩).register "cache" ⟨.unknown, "cold", ∅⟩

def inTime : List Op := [.answer "db", .answer "cache", .report "cache" true, .report "db" true, .receive, .receive]

theorem check_in_time :
    (returned dbAndCache (run (step String.quote dbAndCache) (start dbAndCache) inTime)).map Report.status =
      some .unknown := by
  have hreturns : (returned dbAndCache (run (step String.quote dbAndCache) (start dbAndCache) inTime)).isSome := by
    decide
  obtain ⟨report, hreport⟩ := Option.isSome_iff_exists.1 hreturns
  rw [hreport, Option.map_some, status_of_returned String.quote dbAndCache inTime rfl hreport]
  rfl

/-- only the first one answers in time -/
theorem check_cache_late : ∃ report,
    returned dbAndCache (run (step String.quote dbAndCache) (start dbAndCache)
      [.answer "db", .expire, .report "cache" false, .report "db" true, .receive, .receive]) = some report ∧
    report.status = .down := by
  have hreturns := (check_aggregates String.quote dbAndCache [.answer "db", .expire]).2
    [.report "cache" false, .report "db" true] [.receive, .receive] (.inl rfl) (by decide) (by decide)
  obtain ⟨report, hreport⟩ := Option.isSome_iff_exists.1 hreturns
  have haggregates := ((check_aggregates String.quote dbAndCache
    [.answer "db", .expire, .report "cache" false, .report "db" true, .receive, .receive]).1 report hreport).1
  exact ⟨report, hreport, haggregates.down.2 (by decide)⟩

end LuluExt.Health
