/-
The Prometheus provider: instruments that are registered when their name is used for the first time.

Each kind has two maps by name, one for calls without labels and one for calls with labels. A call whose map does not
have the name registers an instrument, and panics if the registry has the name already: for another kind, for the same
kind with or without labels, or from elsewhere. The label names of a metric are cached with its first call that has
labels; a label that a later call lacks reads as the empty string, and one that is not cached is left out.

The six maps are one map here, and an instrument without labels is one with no label names. It is the list of the values
that it was given: a counter adds them up, a gauge has the last one. Calls are made one after the other, since the
provider has no lock, and callers may recover from a panic. What the client library accepts is a parameter: it panics on
invalid names when an instrument is registered, and on a negative value of a counter, or the label le of a histogram,
when a value is recorded.
-/
import LuluExt.Lib.Assoc
import LuluExt.Lib.Run

namespace LuluExt.Prometheus

open Assoc Run

/-! ## Model -/

inductive Kind where
  | counter
  | histogram
  | gauge
deriving DecidableEq, Repr

/-- a call of Counter, Histogram or Gauge; the labels are in the order of their iteration -/
structure Call (α : Type) where
  kind : Kind
  name : String
  value : α
  labels : List (String × String)
deriving Repr

variable {α : Type}

/-- the client library: which instruments it registers, and which values it takes for which label names and values -/
structure Client (α : Type) where
  registers : Kind → String → List String → Bool
  takes : Kind → List String → List String → α → Bool

/-- which of the maps the call uses -/
def Call.shape (c : Call α) : Kind × Bool := (c.kind, c.labels.isEmpty)

/-- the values of each series, by its label values -/
structure Instrument (α : Type) where
  keys : List String
  series : List String → List α

/-- what the provider has for one name, and whether the registry has the name -/
structure Metric (α : Type) where
  instruments : Kind × Bool → Option (Instrument α)
  labelNames : Option (List String)
  registered : Bool

def labelKeys (labels : List (String × String)) : List String := labels.map Prod.fst

def labelValues (labels : List (String × String)) (keys : List String) : List String :=
  keys.map fun k => (first labels k).getD ""

namespace Metric

variable (lib : Client α)

def cachedLabelKeys (m : Metric α) (labels : List (String × String)) : List String :=
  m.labelNames.getD (labelKeys labels)

/-- the value for a series, and whether the call panics, as `WithLabelValues` does on a wrong number of values -/
def observe (m : Metric α) (c : Call α) (i : Instrument α) (values : List String) : Metric α × Bool :=
  if values.length = i.keys.length ∧ lib.takes c.kind i.keys values c.value then
    let series := Function.update i.series values (i.series values ++ [c.value])
    ({ m with instruments := Function.update m.instruments c.shape (some ⟨i.keys, series⟩) }, false)
  else ({ m with instruments := Function.update m.instruments c.shape (some i) }, true)

def withKeys (m : Metric α) (c : Call α) (keys : List String) : Metric α × Bool :=
  match m.instruments c.shape with
  | some i => m.observe lib c i (labelValues c.labels keys)
  | none =>
    if m.registered ∨ lib.registers c.kind c.name keys = false then (m, true)
    else { m with registered := true }.observe lib c ⟨keys, fun _ => []⟩ (labelValues c.labels keys)

/-- Counter, Histogram and Gauge -/
def record (m : Metric α) (c : Call α) : Metric α × Bool :=
  if c.labels = [] then m.withKeys lib c []
  else { m with labelNames := some (m.cachedLabelKeys c.labels) }.withKeys lib c (m.cachedLabelKeys c.labels)

end Metric

abbrev Provider (α : Type) := String → Metric α

/-- `others` are the names that the registry has from elsewhere -/
def new (others : String → Bool) : Provider α := fun name => ⟨fun _ => none, none, others name⟩

def step (lib : Client α) (p : Provider α) (c : Call α) : Provider α :=
  Function.update p c.name ((p c.name).record lib c).1

/-- the library registers an instrument for each call, and takes the value of each under the label names of another of
its name, kind and shape -/
structure Accepted (lib : Client α) (calls : List (Call α)) : Prop where
  registers : ∀ c ∈ calls, lib.registers c.kind c.name (labelKeys c.labels)
  takes : ∀ f ∈ calls, ∀ c ∈ calls, c.name = f.name → c.shape = f.shape →
    lib.takes c.kind (labelKeys f.labels) (labelValues c.labels (labelKeys f.labels)) c.value

/-! ## What the calls of a name come to -/

/-- the series of an instrument with these label names, when it was given the values of the calls of a shape -/
def seriesOf (calls : List (Call α)) (shape : Kind × Bool) (keys values : List String) : List α :=
  (calls.filter fun c => c.shape = shape ∧ labelValues c.labels keys = values).map Call.value

/-- the first call of a name decides on the kind, on whether there are labels, and on their names -/
structure Described (f : Call α) (calls : List (Call α)) (m : Metric α) : Prop where
  registered : m.registered
  labelNames : f.labels ≠ [] → m.labelNames = some (labelKeys f.labels)
  instruments : m.instruments = Function.update (fun _ => none) f.shape
    (some ⟨labelKeys f.labels, seriesOf calls f.shape (labelKeys f.labels)⟩)

theorem length_labelValues (labels : List (String × String)) (keys : List String) :
    (labelValues labels keys).length = keys.length := by simp [labelValues]

theorem seriesOf_append (calls : List (Call α)) {c : Call α} {shape : Kind × Bool} (hc : c.shape = shape)
    (keys : List String) : seriesOf (calls ++ [c]) shape keys =
      Function.update (seriesOf calls shape keys) (labelValues c.labels keys)
        (seriesOf calls shape keys (labelValues c.labels keys) ++ [c.value]) := by
  funext values
  by_cases hvalues : values = labelValues c.labels keys
  · subst hvalues
    simp [seriesOf, hc]
  · simp [seriesOf, hvalues, Ne.symm hvalues]

variable {lib : Client α} {f c : Call α} {calls : List (Call α)} {m : Metric α}

theorem seriesOf_append_ne {shape : Kind × Bool} (hc : c.shape ≠ shape) (keys : List String) :
    seriesOf (calls ++ [c]) shape keys = seriesOf calls shape keys := by
  funext values
  simp [seriesOf, hc]

theorem Described.withKeys_ne (h : Described f calls m) (hc : c.shape ≠ f.shape) (keys : List String) :
    Described f (calls ++ [c]) (m.withKeys lib c keys).1 ∧ (m.withKeys lib c keys).2 = true := by
  obtain ⟨hr, hl, hi⟩ := h
  have hnone : m.instruments c.shape = none := by rw [hi, Function.update_of_ne hc]
  rw [← seriesOf_append_ne hc] at hi
  simp only [Metric.withKeys, hnone, hr, true_or, if_true]
  exact ⟨⟨hr, hl, hi⟩, trivial⟩

theorem Described.withKeys_eq (h : Described f calls m) (hc : c.shape = f.shape)
    (ht : lib.takes c.kind (labelKeys f.labels) (labelValues c.labels (labelKeys f.labels)) c.value) :
    Described f (calls ++ [c]) (m.withKeys lib c (labelKeys f.labels)).1 ∧
      (m.withKeys lib c (labelKeys f.labels)).2 = false := by
  obtain ⟨hr, hl, hi⟩ := h
  have hsome : m.instruments c.shape = some ⟨labelKeys f.labels, seriesOf calls f.shape (labelKeys f.labels)⟩ := by
    rw [hi, hc, Function.update_self]
  simp only [Metric.withKeys, hsome, Metric.observe, length_labelValues, ht, and_self, if_true]
  exact ⟨⟨hr, hl, by simp [hi, hc, seriesOf_append calls hc]⟩, trivial⟩

theorem Described.cached (h : Described f calls m) (labels : List (String × String)) :
    Described f calls { m with labelNames := some (m.cachedLabelKeys labels) } :=
  ⟨h.registered, fun hf => by simp [Metric.cachedLabelKeys, h.labelNames hf], h.instruments⟩

variable (lib) in
theorem Described.panic (h : Described f calls m) (hc : c.shape ≠ f.shape) :
    Described f (calls ++ [c]) (m.record lib c).1 ∧ (m.record lib c).2 = true := by
  unfold Metric.record
  split_ifs
  · exact h.withKeys_ne hc []
  · exact (h.cached c.labels).withKeys_ne hc _

theorem Described.accept (h : Described f calls m) (hc : c.shape = f.shape)
    (ht : lib.takes c.kind (labelKeys f.labels) (labelValues c.labels (labelKeys f.labels)) c.value) :
    Described f (calls ++ [c]) (m.record lib c).1 ∧ (m.record lib c).2 = false := by
  have hempty : c.labels = [] ↔ f.labels = [] := by simpa [Call.shape] using congrArg (fun x => x.2 = true) hc
  unfold Metric.record
  split_ifs with hlabels
  · have hkeys : ([] : List String) = labelKeys f.labels := by rw [hempty.1 hlabels]; rfl
    rw [hkeys]
    exact h.withKeys_eq hc ht
  · have hkeys : m.cachedLabelKeys c.labels = labelKeys f.labels := by
      simp [Metric.cachedLabelKeys, h.labelNames fun hf => hlabels (hempty.2 hf)]
    have hcached := h.cached c.labels
    rw [hkeys] at hcached ⊢
    exact hcached.withKeys_eq hc ht

theorem described_first (hr : lib.registers f.kind f.name (labelKeys f.labels))
    (ht : lib.takes f.kind (labelKeys f.labels) (labelValues f.labels (labelKeys f.labels)) f.value) :
    Described f [f] (Metric.record lib ⟨fun _ => none, none, false⟩ f).1 ∧
      (Metric.record lib ⟨fun _ => none, none, false⟩ f).2 = false := by
  have hseries : seriesOf [f] f.shape (labelKeys f.labels) =
      Function.update (fun _ => []) (labelValues f.labels (labelKeys f.labels)) [f.value] :=
    seriesOf_append [] rfl (labelKeys f.labels)
  unfold Metric.record
  split_ifs with hlabels
  · have hkeys : ([] : List String) = labelKeys f.labels := by rw [hlabels]; rfl
    rw [hkeys]
    simp only [Metric.withKeys, Metric.observe, length_labelValues, hr, ht, and_self, or_self, if_true, if_false,
      Bool.false_eq_true, Bool.true_eq_false]
    exact ⟨⟨rfl, fun h => absurd hlabels h, by simp [hseries]⟩, trivial⟩
  · simp only [Metric.withKeys, Metric.observe, Metric.cachedLabelKeys, Option.getD_none, length_labelValues, hr, ht,
      and_self, or_self, if_true, if_false, Bool.false_eq_true, Bool.true_eq_false]
    exact ⟨⟨rfl, fun _ => rfl, by simp [hseries]⟩, trivial⟩

/-- a name that is used elsewhere -/
def Foreign (m : Metric α) : Prop := m.registered ∧ m.instruments = fun _ => none

theorem Foreign.record (h : Foreign m) (c : Call α) : Foreign (m.record lib c).1 ∧ (m.record lib c).2 = true := by
  obtain ⟨hr, hi⟩ := h
  unfold Metric.record
  split_ifs <;> simp [Metric.withKeys, Foreign, hr, hi]

/-! ## Every sequence of calls -/

def callsOf (calls : List (Call α)) (name : String) : List (Call α) := calls.filter fun c => c.name = name

theorem run_name (p : Provider α) (calls : List (Call α)) (name : String) :
    run (step lib) p calls name = run (fun m c => (m.record lib c).1) (p name) (callsOf calls name) := by
  induction calls generalizing p with
  | nil => rfl
  | cons c calls ih =>
    rw [run_cons, ih, callsOf, callsOf, List.filter_cons]
    by_cases hname : c.name = name
    · simp [step, hname]
    · simp [step, hname, Ne.symm hname]

theorem described_run (h : Described f calls m) (more : List (Call α))
    (ht : ∀ c ∈ more, c.shape = f.shape →
      lib.takes c.kind (labelKeys f.labels) (labelValues c.labels (labelKeys f.labels)) c.value) :
    Described f (calls ++ more) (run (fun m c => (m.record lib c).1) m more) := by
  induction more generalizing calls m with
  | nil => simpa using h
  | cons c more ih =>
    have hnext : Described f (calls ++ [c]) (m.record lib c).1 := by
      by_cases hc : c.shape = f.shape
      · exact (h.accept hc (ht c List.mem_cons_self hc)).1
      · exact (h.panic lib hc).1
    simpa using ih hnext fun c' hc' => ht c' (List.mem_cons_of_mem _ hc')

theorem mem_callsOf {name : String} : c ∈ callsOf calls name ↔ c ∈ calls ∧ c.name = name := by
  simp [callsOf]

/-- **What is recorded.** After any calls that the library accepts, a name that is not used elsewhere has the one
instrument of its first call. It was given the values of the calls of that shape, each in the series of what its labels
read under the first keys. -/
theorem recorded_by_first (lib : Client α) (others : String → Bool) (calls : List (Call α))
    (hlib : Accepted lib calls) (name : String) (hname : others name = false) (f : Call α)
    (hf : (callsOf calls name).head? = some f) :
    Described f (callsOf calls name) (run (step lib) (new others) calls name) := by
  obtain ⟨rest, hcalls⟩ := List.head?_eq_some_iff.1 hf
  have hmem : ∀ c ∈ f :: rest, c ∈ calls ∧ c.name = name := fun c hc => mem_callsOf.1 (hcalls ▸ hc)
  have hfirst := hmem f List.mem_cons_self
  rw [run_name, hcalls, run_cons, new, hname]
  have hdescribed := described_first (hlib.registers f hfirst.1) (hlib.takes f hfirst.1 f hfirst.1 rfl rfl)
  refine described_run hdescribed.1 rest ?_
  intro c hc hshape
  obtain ⟨hcall, hcname⟩ := hmem c (List.mem_cons_of_mem _ hc)
  exact hlib.takes f hfirst.1 c hcall (hcname.trans hfirst.2.symm) hshape

/-- a library that registers any name but the empty one, and refuses negative counts and the label le -/
def strict : Client ℤ where
  registers _ name _ := decide (name ≠ "")
  takes kind keys _ value :=
    match kind with
    | .counter => decide (0 ≤ value)
    | .histogram => decide ("le" ∉ keys)
    | .gauge => true

/-- a counter with a label, the same name as a gauge, and the counter with another label -/
def mixedCalls : List (Call ℤ) :=
  [⟨.counter, "hits", 1, [("path", "/")]⟩, ⟨.gauge, "hits", -2, []⟩, ⟨.counter, "hits", 3, [("code", "200")]⟩]

theorem mixedCalls_accepted : Accepted strict mixedCalls := ⟨by decide, by decide⟩

theorem mixedCalls_recorded :
    Described ⟨.counter, "hits", 1, [("path", "/")]⟩ mixedCalls
      (run (step strict) (new fun _ => false) mixedCalls "hits") :=
  recorded_by_first strict (fun _ => false) mixedCalls mixedCalls_accepted "hits" rfl _ rfl

/-- **When a call panics** that the library accepts, after others that it accepts: if its name is used elsewhere, or the
name's first call was of another kind, or one of them has labels and the other has none. -/
theorem call_panics_iff (lib : Client α) (others : String → Bool) (calls : List (Call α)) (c : Call α)
    (hlib : Accepted lib (c :: calls)) :
    ((run (step lib) (new others) calls c.name).record lib c).2 = true ↔
      others c.name = true ∨ ∃ f, (callsOf calls c.name).head? = some f ∧ c.shape ≠ f.shape := by
  rw [run_name]
  cases hname : others c.name with
  | true =>
    have hforeign : Foreign (run (fun m c => (m.record lib c).1) (new others c.name) (callsOf calls c.name)) :=
      run_inv (I := Foreign) (fun _ c h => (h.record c).1) ⟨hname, rfl⟩ _
    exact iff_of_true (hforeign.record c).2 (Or.inl rfl)
  | false =>
    have hfirst : ∀ f ∈ c :: calls, _ := fun f hf =>
      described_first (hlib.registers f hf) (hlib.takes f hf f hf rfl rfl)
    cases hcalls : callsOf calls c.name with
    | nil =>
      rw [run_nil, new, hname, (hfirst c List.mem_cons_self).2]
      simp
    | cons f rest =>
      have hmem : ∀ x ∈ f :: rest, x ∈ c :: calls ∧ x.name = c.name := fun x hx =>
        (mem_callsOf.1 (hcalls ▸ hx)).imp_left (List.mem_cons_of_mem _)
      obtain ⟨hf, hfname⟩ := hmem f List.mem_cons_self
      have htakes : ∀ x ∈ c :: calls, x.name = c.name → x.shape = f.shape →
          lib.takes x.kind (labelKeys f.labels) (labelValues x.labels (labelKeys f.labels)) x.value :=
        fun x hx hxname => hlib.takes f hf x hx (hxname.trans hfname.symm)
      have hrun := described_run (hfirst f hf).1 rest fun x hx =>
        htakes x (hmem x (List.mem_cons_of_mem _ hx)).1 (hmem x (List.mem_cons_of_mem _ hx)).2
      rw [run_cons, new, hname]
      by_cases hc : c.shape = f.shape
      · simp [(hrun.accept hc (htakes c List.mem_cons_self rfl hc)).2, hc]
      · simp [(hrun.panic lib hc).2, hc]

/-- the name is a counter with labels by then -/
theorem mixedCalls_panics :
    ((run (step strict) (new fun _ => false) (mixedCalls.take 1) "hits").record strict
      ⟨.gauge, "hits", -2, []⟩).2 = true :=
  (call_panics_iff strict (fun _ => false) (mixedCalls.take 1) ⟨.gauge, "hits", -2, []⟩ ⟨by decide, by decide⟩).2
    (.inr ⟨⟨.counter, "hits", 1, [("path", "/")]⟩, rfl, by decide⟩)

end LuluExt.Prometheus
