/-
The Kafka producer with one publication at a time.

While calls of Publish and Disconnect do not overlap, the slot of the running call holds the writer that it uses, except
while the call replaces it, when it is empty. So no step loses a writer, provided that there is a retry for a new writer
and, with a writer for each topic, that the map is never dropped.
-/
import LuluExt.Broker.KafkaWriters

namespace LuluExt.KafkaWriters

open Run Kafka

variable (cfg : Config)

/-- no call begins while another one runs, nor does Disconnect, which does not happen with a writer for each topic -/
def Serial (s : Broker) : Op → Prop
  | .publish _ _ => ∀ j, s.calls j = .idle
  | .shutdown => cfg.enableOneTopicOneWriter = false ∧ ∀ j, s.calls j = .idle
  | _ => True

/-- the slot holds the writer that the call uses, and is empty while that is replaced -/
def At (s : Broker) : Pc → Prop
  | .write topic _ writer | .replace topic writer => ∃ w, s.slot cfg topic = some w ∧ ∀ u, writer = some u → u = w
  | .writing topic _ w => s.slot cfg topic = some w
  | .create topic | .store topic _ => s.slot cfg topic = none
  | .retry topic _ left failed => s.slot cfg topic = none ∧ (left = 0 → failed = true)
  | _ => True

structure Calm (s : Broker) : Prop where
  alone : ∀ i, s.calls i ≠ .idle → ∀ j ≠ i, s.calls j = .idle
  slot : ∀ i, At cfg s (s.calls i)
  map : cfg.CanStore s

section

variable {cfg} {s : Broker} {i : ℕ} {result : Option Failure}

theorem calm_of_others {t : Broker} (hothers : ∀ j ≠ i, t.calls j = .idle) (hat : At cfg t (t.calls i))
    (hmap : cfg.CanStore t) : Calm cfg t where
  alone k hk j hj := by
    by_cases hki : k = i
    · exact hothers j (hki ▸ hj)
    · exact absurd (hothers k hki) hk
  slot k := by
    by_cases hki : k = i
    · rwa [hki]
    · rw [hothers k hki]
      trivial
  map := hmap

theorem at_set {t : Broker} {pc pc' : Pc} (h : At cfg t pc) : At cfg (t.set i pc') pc := by
  cases pc with
  | _ => exact h

theorem calm_set {t : Broker} (hothers : ∀ j ≠ i, t.calls j = .idle) {pc : Pc} (hat : At cfg t pc)
    (hmap : cfg.CanStore t) : Calm cfg (t.set i pc) := by
  refine calm_of_others (i := i) (fun j hj => ?_) ?_ hmap
  · rw [set_calls_of_ne hj]
    exact hothers j hj
  · rw [set_calls_self]
    exact at_set hat

theorem kept_eq {w u : ℕ} (h : cfg.kept w = some u) : u = w :=
  mem_kept (Option.mem_toList.2 h)

theorem at_wrote {w : ℕ} {topic : String} {phase : Phase} (hslot : s.slot cfg topic = some w) :
    At cfg s (Broker.wrote cfg topic phase w result) := by
  unfold Broker.wrote
  split <;> try split_ifs
  · trivial
  · trivial
  · exact ⟨w, hslot, fun u hu => kept_eq hu⟩
  · trivial
  · exact ⟨w, hslot, fun u hu => kept_eq hu⟩

theorem target_eq {w : ℕ} {writer : Option ℕ} {topic : String} (hslot : s.slot cfg topic = some w)
    (hwriter : ∀ u, writer = some u → u = w) : writer.or (s.slot cfg topic) = some w := by
  cases writer with
  | some u => rw [hwriter u rfl, Option.some_or]
  | none => rw [Option.none_or, hslot]

theorem orderly_of_calm (h : Calm cfg s) : Orderly cfg s i result (s.calls i) := by
  have hat := h.slot i
  revert hat
  cases s.calls i with
  | acquire topic => exact fun _ _ => h.map
  | write topic phase writer =>
    rintro ⟨w, hslot, hwriter⟩
    exact Option.isSome_iff_exists.2 ⟨w, target_eq hslot hwriter⟩
  | writing topic phase w => exact fun hslot => .inr (.inl ⟨cfg.key topic, hslot⟩)
  | replace topic writer =>
    rintro ⟨w, hslot, hwriter⟩
    refine ⟨w, target_eq hslot hwriter, fun _ u hu => .inl ?_⟩
    exact Option.some.inj (hu.symm.trans hslot)
  | retry topic w left failed =>
    cases left with
    | zero => exact fun hat => hat.2 rfl
    | succ left => exact fun _ => trivial
  | store topic w => exact fun hnone => ⟨h.map, fun u hu => absurd (hnone.symm.trans hu) nofun⟩
  | _ => exact fun _ => trivial

theorem careful_of_calm (h : Calm cfg s) (op : Op) : Careful cfg s op := by
  cases op with
  | advance i result => exact orderly_of_calm h
  | _ => trivial

theorem calm_advance (hretries : 0 < cfg.retriesCount) (h : Calm cfg s) : Calm cfg (s.advance cfg i result) := by
  have hat := h.slot i
  by_cases hidle : s.calls i = .idle
  · simpa only [Broker.advance, hidle] using h
  have hothers := h.alone i hidle
  revert hat
  unfold Broker.advance
  cases s.calls i with
  | idle => exact fun _ => h
  | acquire topic =>
    intro _
    cases hslot : s.slot cfg topic with
    | some w =>
      simp only [Broker.acquire, hslot]
      exact calm_set hothers ⟨w, hslot, fun u hu => kept_eq hu⟩ h.map
    | none =>
      have hcan : cfg.CanStore { s with created := s.created + 1 } := h.map
      simp only [Broker.acquire, hslot, put_of_canStore hcan]
      exact calm_set (t := { s with created := s.created + 1, slots := s.slots.insert (cfg.key topic) s.created })
        hothers ⟨s.created, AList.lookup_insert _, fun u hu => kept_eq hu⟩ h.map
  | write topic phase writer =>
    rintro ⟨w, hslot, hwriter⟩
    simp only [target_eq hslot hwriter]
    exact calm_set hothers hslot h.map
  | writing topic phase w => exact fun hat => calm_set hothers (at_wrote hat) h.map
  | replace topic writer =>
    rintro ⟨w, hslot, hwriter⟩
    simp only [target_eq hslot hwriter]
    cases result with
    | some e => exact calm_set (t := { s with closed := s.closed ++ [w] }) hothers trivial h.map
    | none =>
      exact calm_set (t := { s with closed := s.closed ++ [w], slots := s.slots.erase (cfg.key topic) })
        hothers (AList.lookup_erase _ _) h.map
  | create topic =>
    intro hat
    exact calm_set (t := { s with created := s.created + 1 }) hothers ⟨hat, fun hzero => by omega⟩ h.map
  | retry topic w left failed =>
    rintro ⟨hslot, hfailed⟩
    cases left with
    | zero =>
      obtain rfl := hfailed rfl
      exact calm_set hothers trivial h.map
    | succ left =>
      cases result with
      | none => exact calm_set hothers hslot h.map
      | some e => exact calm_set hothers ⟨hslot, fun _ => rfl⟩ h.map
  | store topic w =>
    intro _
    simp only [put_of_canStore h.map]
    exact calm_set (t := { s with slots := s.slots.insert (cfg.key topic) w }) hothers trivial h.map
  | closeNew w =>
    exact fun _ => calm_set (t := { s with closed := s.closed ++ [w] }) hothers trivial h.map

theorem calm_step (hretries : 0 < cfg.retriesCount) {op : Op} (h : Calm cfg s) (hserial : Serial cfg s op) :
    Calm cfg (step cfg s op) := by
  unfold step
  by_cases hcrashed : s.crashed
  · rwa [if_pos hcrashed]
  rw [if_neg hcrashed]
  cases op with
  | publish i topic => exact guard_inv h fun _ => calm_set (fun j _ => hserial j) trivial h.map
  | advance i result => exact calm_advance hretries h
  | connect => exact { h with }
  | disconnect => exact guard_inv h fun _ => { h with }
  | shutdown =>
    refine guard_inv h fun _ => calm_of_others (i := 0) (fun j _ => hserial.2 j) ?_ fun hmode => ?_
    · rw [show s.shutdown.calls 0 = .idle from hserial.2 0]
      trivial
    · rw [hserial.1] at hmode
      cases hmode

end

theorem calm_initial : Calm cfg initial := ⟨fun _ hi => absurd rfl hi, fun _ => trivial, fun _ => rfl⟩

/-- **One call at a time.** -/
theorem ownership_serial (hretries : 0 < cfg.retriesCount) {ops : List Op}
    (hserial : Along (step cfg) (Serial cfg) initial ops) : Always (step cfg) Good initial ops := by
  refine always_of_along (I := fun s => Inv s ∧ Calm cfg s) (fun s h => h.1.toGood) (fun s op h hs => ?_)
    ⟨inv_initial, calm_initial cfg⟩ hserial
  exact ⟨inv_step h.1 (careful_of_calm h.2 op), calm_step hretries h.2 hs⟩

def published : List Op := [.publish 0 "orders", .advance 0 none, .advance 0 none, .advance 0 none]

/-- the write of the cached writer fails, and of the two retries with a new one the first -/
def replaced : List Op :=
  [.publish 0 "orders", .advance 0 none, .advance 0 none, .advance 0 failure, .advance 0 none, .advance 0 none,
    .advance 0 failure, .advance 0 none, .advance 0 none]

theorem ownership_replaced :
    Always (step ⟨true, 2⟩) Good initial (published ++ replaced) ∧
      (run (step ⟨true, 2⟩) initial (published ++ replaced)).stored = [1] ∧
      (run (step ⟨true, 2⟩) initial (published ++ replaced)).closed = [0] := by
  have hidle : ∀ j, (run (step ⟨true, 2⟩) initial published).calls j = .idle := by
    intro j
    by_cases hj : j = 0
    · subst hj
      decide
    · exact run_calls (by simp [published, Op.call, Ne.symm hj]) initial
  have hserial : Along (step ⟨true, 2⟩) (Serial ⟨true, 2⟩) initial (published ++ replaced) :=
    along_append.2 ⟨⟨fun _ => rfl, trivial, trivial, trivial, trivial⟩,
      ⟨hidle, trivial, trivial, trivial, trivial, trivial, trivial, trivial, trivial, trivial⟩⟩
  exact ⟨ownership_serial ⟨true, 2⟩ (by decide) hserial, by decide, by decide⟩

end LuluExt.KafkaWriters
