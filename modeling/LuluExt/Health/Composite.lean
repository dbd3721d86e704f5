/-
Checkers made of checkers, `All` and `Any`, and what a report of `Check` says of them.

The details of a checker are written over its own status and message, so a detail with one of these names hides it.
`All` stops at the first checker that is down and is up otherwise: a checker whose state is not known counts as up,
where the aggregator would report unknown.

- `check_all_status`, `check_down_iff`: when `All` is down, by its checkers and by the leaves of a tree of them;
- `overall_reported`: what `Check` reports for checkers that are registered.
-/
import LuluExt.Lib.Go
import LuluExt.Health.Check

namespace LuluExt.Health

open LuluExt.Run
open scoped List

inductive Checker where
  /-- a checker that is not made of others, by what it answers -/
  | probe (answer : Result)
  | all (checkers : List Checker)
  | any (checkers : List Checker)

/-- `PingFunc`: none is a nil function, or else the error it returns if any -/
def pingFunc (f : Option (Option GoError)) : Checker :=
  .probe (match f with
    | none => ⟨.unknown, "checker is nil", ∅⟩
    | some (some err) => ⟨.down, err.text, ∅⟩
    | some none => ⟨.up, "", ∅⟩)

mutual

def Checker.check : Checker → Result
  | .probe answer => answer
  | .all checkers => checkAll 0 checkers
  | .any checkers => checkAny "" checkers

def checkAll (i : ℕ) : List Checker → Result
  | [] => ⟨.up, "", ∅⟩
  | c :: checkers =>
    if c.check.status = .down then ⟨.down, "checker[" ++ toString i ++ "] failed: " ++ c.check.message, ∅⟩
    else checkAll (i + 1) checkers

def checkAny (lastErr : String) : List Checker → Result
  | [] => ⟨.down, "all checkers failed, last error: " ++ lastErr, ∅⟩
  | c :: checkers => if c.check.status = .up then ⟨.up, "", ∅⟩ else checkAny c.check.message checkers

end

mutual

def Checker.leaves : Checker → List Checker
  | .all checkers => leavesOf checkers
  | c => [c]

def leavesOf : List Checker → List Checker
  | [] => []
  | c :: checkers => c.leaves ++ leavesOf checkers

end

/-! ## What is expected -/

/-- the entry of a name has the status and the message of a result -/
def Shows (report : Report) (name : String) (r : Result) : Prop :=
  ∃ e, report.details.lookup name = some e ∧ e.lookup "status" = some (.text r.status.string) ∧
    e.lookup "message" = some (.text r.message)

/-- no detail of the checker says something else -/
structure Unmasked (r : Result) : Prop where
  status : ∀ v, r.details.lookup "status" = some v → v = .text r.status.string
  message : ∀ v, r.details.lookup "message" = some v → v = .text r.message

def severity : Status → ℕ
  | .down => 2
  | .unknown => 1
  | _ => 0

/-- the status of these checkers when they are registered -/
def overall (checkers : List Checker) : Status := worst (checkers.map fun c => c.check.status)

structure Composes (checkers : List Checker) : Prop where
  up : (Checker.all checkers).check.status = .up ↔ ∀ c ∈ checkers, c.check.status = .up
  /-- nesting is not better than to register the leaves -/
  notBetter : severity (overall (leavesOf checkers)) ≤ severity (overall [.all checkers])

/-- no checker has another status than up, unless one is down -/
structure Decided (checkers : List Checker) : Prop where
  own : (∃ c ∈ checkers, c.check.status = .down) ∨ ∀ c ∈ checkers, c.check.status = .up
  leaves : (∃ c ∈ leavesOf checkers, c.check.status = .down) ∨ ∀ c ∈ leavesOf checkers, c.check.status ≠ .unknown

/-! ## The report -/

theorem lookup_entry (r : Result) (k : String) : (entry r).lookup k = (r.details.lookup k).or
    ((((∅ : Map Value).insert "message" (.text r.message)).insert "status" (.text r.status.string)).lookup k) := by
  unfold entry
  by_cases hk : k ∈ r.details
  · obtain ⟨v, hv⟩ := Option.isSome_iff_exists.1 (AList.lookup_isSome.2 hk)
    rw [AList.lookup_union_left hk, hv, Option.some_or]
  · rw [AList.lookup_union_right hk, AList.lookup_eq_none.2 hk, Option.none_or]

theorem or_eq_some_iff {o : Option Value} {v : Value} : o.or (some v) = some v ↔ ∀ w, o = some w → w = v := by
  cases o with
  | none | some w => simp

theorem entry_shows_iff (r : Result) :
    (entry r).lookup "status" = some (.text r.status.string) ∧ (entry r).lookup "message" = some (.text r.message) ↔
      Unmasked r := by
  have hne : "message" ≠ "status" := by decide
  rw [lookup_entry, lookup_entry, AList.lookup_insert, AList.lookup_insert_ne hne, AList.lookup_insert, or_eq_some_iff,
    or_eq_some_iff]
  exact ⟨fun h => ⟨h.1, h.2⟩, fun h => ⟨h.status, h.message⟩⟩

/-- **An entry shows its checker exactly when** no detail hides the status or the message. -/
theorem shows_iff {q : String → String} {c : Checkers} {s : St} {report : Report} (h : Inv q c s)
    (hreport : returned c s = some report) {x : String × Result} (hx : x ∈ s.gather.received) :
    Shows report x.1 x.2 ↔ Unmasked x.2 := by
  have hlookup : report.details.lookup x.1 = some (entry x.2) := by
    unfold returned at hreport
    split_ifs at hreport with hempty hdone
    · have hname : x.1 ∈ c.keys :=
        h.perm.subset (List.mem_append_right _ (List.mem_map_of_mem (List.mem_append_right _ hx)))
      rw [hempty] at hname
      cases hname
    · cases hreport
      exact lookup_details_collected (received_nodup h) hx
  rw [← entry_shows_iff]
  constructor
  · rintro ⟨e, he, hshown⟩
    rw [hlookup, Option.some.injEq] at he
    rw [he]
    exact hshown
  · intro hshown
    exact ⟨entry x.2, hlookup, hshown⟩

/-- **What `Check` reports**, in every interleaving in which the context is not done. -/
theorem overall_reported {q : String → String} {c : Checkers} {ops : List Op} {report : Report}
    {checkers : List Checker} (hc : c.entries.map (fun e => e.2) ~ checkers.map Checker.check)
    (hexpired : (run (step q c) (start c) ops).expired = false)
    (hreport : returned c (run (step q c) (start c) ops) = some report) : report.status = overall checkers := by
  have hstatuses := worst_perm (hc.map Result.status)
  rw [List.map_map, List.map_map] at hstatuses
  exact (status_eq_worst (inv_run q c ops) hexpired hreport).trans hstatuses

/-! ## Nested checkers -/

theorem check_all_status (i : ℕ) (checkers : List Checker) :
    (checkAll i checkers).status = if ∃ c ∈ checkers, c.check.status = .down then .down else .up := by
  induction checkers generalizing i with
  | nil => simp [checkAll]
  | cons c checkers ih =>
    rw [checkAll]
    by_cases hc : c.check.status = .down
    · simp [hc]
    · simp [hc, ih]

variable {checkers : List Checker}

theorem check_all_down_iff : (Checker.all checkers).check.status = .down ↔ ∃ c ∈ checkers, c.check.status = .down := by
  rw [Checker.check, check_all_status]
  split_ifs with h
  · exact iff_of_true rfl h
  · exact iff_of_false nofun h

theorem check_all_up_iff : (Checker.all checkers).check.status = .up ↔ ∀ c ∈ checkers, c.check.status ≠ .down := by
  rw [Checker.check, check_all_status]
  split_ifs with h
  · obtain ⟨c, hc, hdown⟩ := h
    exact iff_of_false nofun fun hall => hall c hc hdown
  · exact iff_of_true rfl fun c hc hdown => h ⟨c, hc, hdown⟩

mutual

/-- **A tree is down exactly when a leaf is.** -/
theorem check_down_iff : (c : Checker) → (c.check.status = .down ↔ ∃ leaf ∈ c.leaves, leaf.check.status = .down)
  | .probe answer => by simp [Checker.leaves]
  | .any checkers => by simp [Checker.leaves]
  | .all checkers => by rw [check_all_down_iff, Checker.leaves, leavesOf_down_iff checkers]

theorem leavesOf_down_iff : (checkers : List Checker) →
    ((∃ c ∈ checkers, c.check.status = .down) ↔ ∃ leaf ∈ leavesOf checkers, leaf.check.status = .down)
  | [] => by simp [leavesOf]
  | c :: checkers => by
    rw [leavesOf, List.exists_mem_cons_iff, check_down_iff c, leavesOf_down_iff checkers]
    simp only [List.mem_append, or_and_right, exists_or]

end

theorem composes_up_iff : ((Checker.all checkers).check.status = .up ↔ ∀ c ∈ checkers, c.check.status = .up) ↔
      (∃ c ∈ checkers, c.check.status = .down) ∨ ∀ c ∈ checkers, c.check.status = .up := by
  rw [check_all_up_iff]
  constructor
  · intro h
    by_cases hdown : ∃ c ∈ checkers, c.check.status = .down
    · exact .inl hdown
    · exact .inr (h.1 fun c hc hd => hdown ⟨c, hc, hd⟩)
  · rintro (⟨c, hc, hdown⟩ | hup)
    · refine iff_of_false (fun hall => hall c hc hdown) fun hall => ?_
      rw [hall c hc] at hdown
      cases hdown
    · refine iff_of_true (fun c hc hdown => ?_) hup
      rw [hup c hc] at hdown
      cases hdown

theorem severity_le_two (s : Status) : severity s ≤ 2 := by
  cases s <;> simp [severity]

theorem notBetter_iff :
    severity (overall (leavesOf checkers)) ≤ severity (overall [.all checkers]) ↔
      (∃ c ∈ leavesOf checkers, c.check.status = .down) ∨ ∀ c ∈ leavesOf checkers, c.check.status ≠ .unknown := by
  rw [← leavesOf_down_iff]
  by_cases hdown : ∃ c ∈ checkers, c.check.status = .down
  · have hall : overall [.all checkers] = .down := by simp [overall, worst, check_all_down_iff.2 hdown]
    rw [hall]
    exact iff_of_true (severity_le_two _) (.inl hdown)
  · have hall : overall [.all checkers] = .up := by
      have hup := check_all_up_iff.2 fun c hc hd => hdown ⟨c, hc, hd⟩
      simp [overall, worst, hup]
    have hleaves : .down ∉ (leavesOf checkers).map fun c => c.check.status := by
      rw [leavesOf_down_iff] at hdown
      simpa using hdown
    rw [hall, overall, worst]
    split_ifs with hunknown
    · refine iff_of_false (by decide) ?_
      rintro (h | h)
      · exact hdown h
      · obtain ⟨c, hc, hstatus⟩ := List.mem_map.1 hunknown
        exact h c hc hstatus
    · refine iff_of_true le_rfl (.inr fun c hc hstatus => ?_)
      exact hunknown (List.mem_map.2 ⟨c, hc, hstatus⟩)

theorem composes_iff (checkers : List Checker) : Composes checkers ↔ Decided checkers :=
  ⟨fun h => ⟨composes_up_iff.1 h.up, notBetter_iff.1 h.notBetter⟩,
    fun h => ⟨composes_up_iff.2 h.own, notBetter_iff.2 h.leaves⟩⟩

/-- **When reports and composition are sound.** Each entry shows the status and the message of its result, `All` is up
exactly when its checkers are, and nesting reports no better status than registering the checkers themselves, if and
only if no detail hides a status or a message and no checker of the list is unknown, or of a status of its own, while
none is down. -/
theorem health_sound_iff (q : String → String) (c : Checkers) (ops : List Op) (report : Report)
    (hreport : returned c (run (step q c) (start c) ops) = some report) (checkers : List Checker) :
    ((∀ x ∈ (run (step q c) (start c) ops).gather.received, Shows report x.1 x.2) ∧ Composes checkers) ↔
      (∀ x ∈ (run (step q c) (start c) ops).gather.received, Unmasked x.2) ∧ Decided checkers := by
  rw [composes_iff]
  refine and_congr_left' ?_
  constructor
  · intro h x hx
    exact (shows_iff (inv_run q c ops) hreport hx).1 (h x hx)
  · intro h x hx
    exact (shows_iff (inv_run q c ops) hreport hx).2 (h x hx)

def single (r : Result) : Checkers := (∅ : Checkers).register "db" r

def singleRun : List Op := [.answer "db", .report "db" true, .receive]

def singleReport (r : Result) : Option Report :=
  returned (single r) (run (step String.quote (single r)) (start (single r)) singleRun)

/-- a checker without details, and two that are up -/
theorem sound_single :
    singleReport ⟨.down, "refused", ∅⟩ =
      some ⟨.down, "", (∅ : Map (Map Value)).insert "db" (entry ⟨.down, "refused", ∅⟩)⟩ ∧
    Composes [pingFunc (some none), pingFunc (some none)] := by
  have hsound := health_sound_iff String.quote (single ⟨.down, "refused", ∅⟩) singleRun
    ⟨.down, "", (∅ : Map (Map Value)).insert "db" (entry ⟨.down, "refused", ∅⟩)⟩ rfl
    [pingFunc (some none), pingFunc (some none)]
  refine ⟨rfl, (hsound.2 ⟨?_, ?_⟩).2⟩
  · intro x hx
    obtain rfl : x = ("db", ⟨.down, "refused", ∅⟩) := List.mem_singleton.1 hx
    exact ⟨nofun, nofun⟩
  · exact ⟨.inr (by decide), .inr (by decide)⟩

/-- **Unsound reports**: a checker that is down with a detail named status is shown as ok, and a checker that is not
known is unknown when it is registered but up in `All`. -/
theorem unsound :
    ((singleReport ⟨.down, "refused", (∅ : Map Value).insert "status" (.text "ok")⟩).bind fun report =>
      (report.details.lookup "db").bind fun e => e.lookup "status") = some (.text "ok") ∧
    overall [pingFunc none] = .unknown ∧ (Checker.all [pingFunc none]).check.status = .up ∧
    overall [.all [pingFunc none]] = .up := by
  refine ⟨by decide, by decide, by decide, by decide⟩

end LuluExt.Health
