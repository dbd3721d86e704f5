/-
Loggers made of loggers: `LevelFilter` and `MultiLogger` over leaf loggers, in trees of any shape.

`MultiLogger` hands a record to all its loggers, also when one of them panics. It is enabled only when all of them are.
`LevelFilter` hands a record on only when its logger is enabled: over a `MultiLogger`, one branch that is not enabled
keeps the record from the others.

A leaf is the place of a logger in the tree, with the levels it is enabled at. Like slog, it emits nothing at the
others, and `With` does not change them. The four methods are `log` at the four levels.

Results: `mem_log_iff`, `log_withArgs`, `reaches_iff`, `branch_starved`.
-/
import Mathlib.Tactic

namespace LuluExt.Log

abbrev Level := ℤ

structure Leaf where
  enabled : Level → Bool
  panics : Bool
  /-- what `With` has attached -/
  attrs : List String

inductive Logger where
  | leaf (leaf : Leaf)
  | filter (level : Level) (logger : Logger)
  | multi (loggers : List Logger)

abbrev Path := List ℕ

/-! ## The methods -/

mutual

def Logger.enabled (l : Level) : Logger → Bool
  | .leaf leaf => leaf.enabled l
  | .filter level logger => decide (l ≥ level) && logger.enabled l
  | .multi loggers => enabledAll l loggers && decide (loggers.length > 0)

def enabledAll (l : Level) : List Logger → Bool
  | [] => true
  | logger :: loggers => if !logger.enabled l then false else enabledAll l loggers

end

mutual

def Logger.withArgs (args : List String) : Logger → Logger
  | .leaf leaf => .leaf { leaf with attrs := leaf.attrs ++ args }
  | .filter level logger => .filter level (logger.withArgs args)
  | .multi loggers => .multi (withArgsAll args loggers)

def withArgsAll (args : List String) : List Logger → List Logger
  | [] => []
  | logger :: loggers => logger.withArgs args :: withArgsAll args loggers

end

/-- what a call does: the leaves that emit, with what is attached, and whether it ends in a panic -/
structure Delivery where
  records : List (Path × List String)
  panicked : Bool
deriving DecidableEq, Repr

/-- the same seen from a `MultiLogger` whose branch `i` it is -/
def Delivery.below (i : ℕ) (d : Delivery) : List (Path × List String) := d.records.map fun x => (i :: x.1, x.2)

mutual

def Logger.log (l : Level) : Logger → Delivery
  | .leaf leaf => if leaf.enabled l then ⟨[([], leaf.attrs)], leaf.panics⟩ else ⟨[], false⟩
  | .filter level logger => if (Logger.filter level logger).enabled l then logger.log l else ⟨[], false⟩
  | .multi loggers => ⟨fanOut l 0 loggers, false⟩

/-- the loop of `fanOut` from branch `i`: a panic is recovered from, and the loop goes on -/
def fanOut (l : Level) (i : ℕ) : List Logger → List (Path × List String)
  | [] => []
  | logger :: loggers => (logger.log l).below i ++ fanOut l (i + 1) loggers

end

/-! ## Paths -/

/-- the filters on a path, each with its logger, and the leaf it leads to -/
structure Route where
  filters : List (Level × Logger)
  leaf : Leaf

mutual

def Logger.route : Logger → Path → Option Route
  | .leaf leaf, [] => some ⟨[], leaf⟩
  | .leaf _, _ :: _ => none
  | .filter level logger, path => (logger.route path).map fun r => ⟨(level, logger) :: r.filters, r.leaf⟩
  | .multi _, [] => none
  | .multi loggers, i :: path => routeAt loggers i path

def routeAt : List Logger → ℕ → Path → Option Route
  | [], _, _ => none
  | logger :: _, 0, path => logger.route path
  | _ :: loggers, i + 1, path => routeAt loggers i path

end

theorem route_filter (level : Level) (logger : Logger) (path : Path) : (Logger.filter level logger).route path =
    (logger.route path).map fun r => ⟨(level, logger) :: r.filters, r.leaf⟩ := by
  rw [Logger.route]

/-- every filter has a threshold up to `l`, and the leaf is enabled -/
structure Route.Accepts (r : Route) (l : Level) : Prop where
  thresholds : ∀ f ∈ r.filters, f.1 ≤ l
  leaf : r.leaf.enabled l = true

/-- every filter has a logger that is enabled as a whole -/
def Route.Clear (r : Route) (l : Level) : Prop := ∀ f ∈ r.filters, f.2.enabled l = true

def Logger.Reaches (logger : Logger) (l : Level) (path : Path) : Prop := path ∈ (logger.log l).records.map Prod.fst

def Logger.Expects (logger : Logger) (l : Level) (path : Path) : Prop :=
  ∃ r, logger.route path = some r ∧ r.Accepts l

/-! ## What a call reaches -/

section

variable {l : Level} {logger : Logger}

theorem Route.accepts_cons {level : Level} {r : Route} :
    Route.Accepts ⟨(level, logger) :: r.filters, r.leaf⟩ l ↔ level ≤ l ∧ r.Accepts l := by
  constructor
  · intro h
    obtain ⟨hlevel, hrest⟩ := List.forall_mem_cons.1 h.thresholds
    exact ⟨hlevel, hrest, h.leaf⟩
  · rintro ⟨hlevel, h⟩
    exact ⟨List.forall_mem_cons.2 ⟨hlevel, h.thresholds⟩, h.leaf⟩

theorem Route.clear_cons {level : Level} {r : Route} :
    Route.Clear ⟨(level, logger) :: r.filters, r.leaf⟩ l ↔ logger.enabled l ∧ r.Clear l :=
  List.forall_mem_cons

theorem mem_below {d : Delivery} {i j : ℕ} {path : Path} :
    j :: path ∈ (d.below i).map Prod.fst ↔ j = i ∧ path ∈ d.records.map Prod.fst := by
  simp only [Delivery.below, List.map_map, List.mem_map, Function.comp_apply, List.cons.injEq]
  constructor
  · rintro ⟨x, hx, rfl, rfl⟩
    exact ⟨rfl, x, hx, rfl⟩
  · rintro ⟨rfl, x, hx, rfl⟩
    exact ⟨x, hx, rfl, rfl⟩

theorem nil_notMem_fanOut (l : Level) (i : ℕ) (loggers : List Logger) : [] ∉ (fanOut l i loggers).map Prod.fst := by
  induction loggers generalizing i with
  | nil => simp [fanOut]
  | cons logger loggers ih =>
    rw [fanOut, List.map_append, List.mem_append, not_or]
    exact ⟨by simp [Delivery.below], ih (i + 1)⟩

theorem notMem_fanOut_of_lt (l : Level) {i j : ℕ} (hij : i < j) (loggers : List Logger) (path : Path) :
    i :: path ∉ (fanOut l j loggers).map Prod.fst := by
  induction loggers generalizing j with
  | nil => simp [fanOut]
  | cons logger loggers ih =>
    rw [fanOut, List.map_append, List.mem_append, mem_below, not_or]
    exact ⟨fun h => absurd h.1 hij.ne, ih (Nat.lt_succ_of_lt hij)⟩

mutual

/-- **What reaches a leaf**: every filter on its path lets the level pass and has a logger that is enabled as a whole,
and the leaf is enabled. -/
theorem mem_log_iff : (logger : Logger) → (path : Path) →
    (path ∈ (logger.log l).records.map Prod.fst ↔ ∃ r, logger.route path = some r ∧ r.Accepts l ∧ r.Clear l)
  | .leaf leaf, [] => by
    rw [Logger.log, Logger.route]
    split_ifs with h
    · exact iff_of_true (by simp) ⟨_, rfl, ⟨nofun, h⟩, nofun⟩
    · refine iff_of_false (by simp) ?_
      rintro ⟨r, hr, haccepts, -⟩
      cases hr
      exact h haccepts.leaf
  | .leaf leaf, i :: path => by
    rw [Logger.log, Logger.route]
    split_ifs <;> simp
  | .filter level logger, path => by
    rw [route_filter, Logger.log, Logger.enabled]
    simp only [Option.map_eq_some_iff, ↓existsAndEq, and_true, Route.accepts_cons, Route.clear_cons]
    split_ifs with h
    · rw [mem_log_iff logger path]
      rw [Bool.and_eq_true, decide_eq_true_eq] at h
      simp [h.1, h.2]
    · refine iff_of_false (by simp) ?_
      rintro ⟨r, -, ⟨hlevel, -⟩, henabled, -⟩
      exact h (by simp [hlevel, henabled])
  | .multi loggers, [] => by
    rw [Logger.log, Logger.route]
    exact iff_of_false (nil_notMem_fanOut l 0 loggers) (by simp)
  | .multi loggers, i :: path => by
    have hbranch := mem_fanOut_iff loggers 0 i path
    rw [Nat.zero_add] at hbranch
    rw [Logger.log, Logger.route]
    exact hbranch

theorem mem_fanOut_iff : (loggers : List Logger) → (i j : ℕ) → (path : Path) →
    ((i + j) :: path ∈ (fanOut l i loggers).map Prod.fst ↔
      ∃ r, routeAt loggers j path = some r ∧ r.Accepts l ∧ r.Clear l)
  | [], i, j, path => by simp [fanOut, routeAt]
  | logger :: loggers, i, 0, path => by
    rw [fanOut, List.map_append, List.mem_append, mem_below, routeAt, ← mem_log_iff logger path]
    have hlater := notMem_fanOut_of_lt l (Nat.lt_succ_self i) loggers path
    simp [hlater]
  | logger :: loggers, i, j + 1, path => by
    rw [fanOut, List.map_append, List.mem_append, mem_below, routeAt, ← mem_fanOut_iff loggers (i + 1) j path]
    simp [Nat.add_assoc, Nat.add_comm 1 j]

end

end

/-! ## With -/

section

variable (args : List String) (l : Level)

mutual

theorem enabled_withArgs : (logger : Logger) → (logger.withArgs args).enabled l = logger.enabled l
  | .leaf leaf => by rw [Logger.withArgs, Logger.enabled, Logger.enabled]
  | .filter level logger => by
    rw [Logger.withArgs, Logger.enabled, Logger.enabled, enabled_withArgs logger]
  | .multi loggers => by
    rw [Logger.withArgs, Logger.enabled, Logger.enabled, enabledAll_withArgsAll loggers, length_withArgsAll loggers]

theorem enabledAll_withArgsAll : (loggers : List Logger) →
    enabledAll l (withArgsAll args loggers) = enabledAll l loggers
  | [] => by rw [withArgsAll]
  | logger :: loggers => by
    rw [withArgsAll, enabledAll, enabledAll, enabled_withArgs logger, enabledAll_withArgsAll loggers]

theorem length_withArgsAll : (loggers : List Logger) → (withArgsAll args loggers).length = loggers.length
  | [] => by rw [withArgsAll]
  | logger :: loggers => by rw [withArgsAll, List.length_cons, List.length_cons, length_withArgsAll loggers]

end

/-- what `With` makes of the filters and the leaf of a path -/
def Route.withArgs (r : Route) : Route where
  filters := r.filters.map fun f => (f.1, f.2.withArgs args)
  leaf := { r.leaf with attrs := r.leaf.attrs ++ args }

mutual

theorem route_withArgs : (logger : Logger) → (path : Path) →
    (logger.withArgs args).route path = (logger.route path).map (Route.withArgs args)
  | .leaf leaf, [] => by rw [Logger.withArgs, Logger.route, Logger.route]; rfl
  | .leaf leaf, i :: path => by rw [Logger.withArgs, Logger.route, Logger.route]; rfl
  | .filter level logger, path => by
    rw [Logger.withArgs, route_filter, route_filter, route_withArgs logger path, Option.map_map, Option.map_map]
    rfl
  | .multi loggers, [] => by rw [Logger.withArgs, Logger.route, Logger.route]; rfl
  | .multi loggers, i :: path => by
    rw [Logger.withArgs, Logger.route, Logger.route, routeAt_withArgsAll loggers i path]

theorem routeAt_withArgsAll : (loggers : List Logger) → (i : ℕ) → (path : Path) →
    routeAt (withArgsAll args loggers) i path = (routeAt loggers i path).map (Route.withArgs args)
  | [], i, path => by rw [withArgsAll, routeAt]; rfl
  | logger :: loggers, 0, path => by rw [withArgsAll, routeAt, routeAt, route_withArgs logger path]
  | logger :: loggers, i + 1, path => by rw [withArgsAll, routeAt, routeAt, routeAt_withArgsAll loggers i path]

end

/-- the attached arguments go to the end of each record -/
def attach (records : List (Path × List String)) : List (Path × List String) :=
  records.map fun x => (x.1, x.2 ++ args)

mutual

/-- **`With`** changes what is attached to the records, and nothing else. -/
theorem log_withArgs : (logger : Logger) →
    (logger.withArgs args).log l = ⟨attach args (logger.log l).records, (logger.log l).panicked⟩
  | .leaf leaf => by
    rw [Logger.withArgs, Logger.log, Logger.log]
    split_ifs <;> rfl
  | .filter level logger => by
    have henabled := enabled_withArgs args l (.filter level logger)
    rw [Logger.withArgs] at henabled
    rw [Logger.withArgs, Logger.log, Logger.log, henabled]
    split_ifs
    · exact log_withArgs logger
    · rfl
  | .multi loggers => by rw [Logger.withArgs, Logger.log, Logger.log, fanOut_withArgsAll loggers 0]

theorem fanOut_withArgsAll : (loggers : List Logger) → (i : ℕ) →
    fanOut l i (withArgsAll args loggers) = attach args (fanOut l i loggers)
  | [], i => by rw [withArgsAll, fanOut]; rfl
  | logger :: loggers, i => by
    rw [withArgsAll, fanOut, fanOut, log_withArgs logger, fanOut_withArgsAll loggers (i + 1)]
    simp [attach, Delivery.below]

end

theorem reaches_withArgs (logger : Logger) (path : Path) :
    (logger.withArgs args).Reaches l path ↔ logger.Reaches l path := by
  unfold Logger.Reaches
  rw [log_withArgs, attach, List.map_map]
  rfl

theorem expects_withArgs (logger : Logger) (path : Path) :
    (logger.withArgs args).Expects l path ↔ logger.Expects l path := by
  have haccepts : ∀ r : Route, (r.withArgs args).Accepts l ↔ r.Accepts l := by
    intro r
    have hthresholds : (∀ f ∈ (r.withArgs args).filters, f.1 ≤ l) ↔ ∀ f ∈ r.filters, f.1 ≤ l := List.forall_mem_map
    exact ⟨fun h => ⟨hthresholds.1 h.thresholds, h.leaf⟩, fun h => ⟨hthresholds.2 h.thresholds, h.leaf⟩⟩
  simp only [Logger.Expects, route_withArgs, Option.map_eq_some_iff, ↓existsAndEq, and_true, haccepts]

end

/-- **When exactly the right leaves are reached.** A record reaches the leaves whose filters and own level accept it,
and no others, if and only if each filter above such a leaf has a logger that is enabled as a whole. What `With`
returns, anywhere in the tree, does the same. -/
theorem reaches_iff (logger : Logger) (l : Level) :
    ((∀ path, logger.Reaches l path ↔ logger.Expects l path) ↔
      ∀ path r, logger.route path = some r → r.Accepts l → r.Clear l) ∧
    ∀ args path, ((logger.withArgs args).Reaches l path ↔ logger.Reaches l path) ∧
      ((logger.withArgs args).Expects l path ↔ logger.Expects l path) := by
  refine ⟨?_, fun args path => ⟨reaches_withArgs args l logger path, expects_withArgs args l logger path⟩⟩
  constructor
  · intro h path r hr haccepts
    obtain ⟨r', hr', -, hclear⟩ := (mem_log_iff logger path).1 ((h path).2 ⟨r, hr, haccepts⟩)
    rw [hr, Option.some.injEq] at hr'
    rw [hr']
    exact hclear
  · intro h path
    rw [Logger.Reaches, mem_log_iff]
    constructor
    · rintro ⟨r, hr, haccepts, -⟩
      exact ⟨r, hr, haccepts⟩
    · rintro ⟨r, hr, haccepts⟩
      exact ⟨r, hr, haccepts, h path r hr haccepts⟩

def leafFrom (level : Level) : Logger := .leaf ⟨fun l => decide (l ≥ level), false, []⟩

/-- **A branch that takes the record from another one**: at level 0, the first leaf gets it alone and beside a leaf that
takes it, but not beside one for level 8, although nothing on its own path is different. -/
theorem branch_starved :
    (Logger.filter (-4) (.multi [leafFrom (-4)])).log 0 = ⟨[([0], [])], false⟩ ∧
    (Logger.filter (-4) (.multi [leafFrom (-4), leafFrom (-4)])).log 0 = ⟨[([0], []), ([1], [])], false⟩ ∧
    (Logger.filter (-4) (.multi [leafFrom (-4), leafFrom 8])).log 0 = ⟨[], false⟩ ∧
    (Logger.multi [leafFrom (-4), leafFrom 8]).log 0 = ⟨[([0], [])], false⟩ := by
  refine ⟨by decide, by decide, by decide, by decide⟩

end LuluExt.Log
