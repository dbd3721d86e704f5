/-
The local cache: expiry of entries, with second precision.

A TTL is a duration in nanoseconds; freecache is given whole seconds, and takes zero to mean that the entry never
expires. `int(ttl.Seconds())` cuts off the fraction, so a positive TTL below a second becomes zero. For a TTL of some
months `Seconds`, a float64, may also be rounded up to the next second.

Of freecache the model has what is assumed about it: an entry set with s > 0 seconds has expired s + 1 seconds later at
the latest, one set with s ≤ 0 never expires. Entries may be evicted at any time. Beside its value an entry records the
TTL that its writer asked for, and the state records every entry that a read returned.
-/
import LuluExt.Lib.Run
import LuluExt.Lib.Go

namespace LuluExt.LocalCache

open Run
open Go (second)

/-! ## Durations -/

/-- `time.Duration`, in nanoseconds -/
abbrev Duration := {d : ℤ // -2 ^ 63 ≤ d ∧ d < 2 ^ 63}

def expireSeconds (fl : Go.Float64) (ttl : Duration) : ℤ := Go.trunc (fl.seconds ttl)

/-- the seconds are positive and end at most at the TTL, up to the resolution of the clock -/
def Expires (fl : Go.Float64) (ttl : Duration) : Prop :=
  0 < expireSeconds fl ttl ∧ expireSeconds fl ttl * second ≤ ttl + 1

variable {ttl : Duration}

section Seconds

variable (fl : Go.Float64) {d : ℤ}

theorem seconds_of_nonneg (hd : 0 ≤ d) (hmax : d < 2 ^ 63) :
    fl.seconds d = fl.round ((d / second : ℤ) + fl.round ((d % second : ℤ) / second)) := by
  have hsec : -2 ^ 53 ≤ d / second ∧ d / second ≤ 2 ^ 53 := by unfold second; omega
  have hnsec : -2 ^ 53 ≤ d % second ∧ d % second ≤ 2 ^ 53 := by unfold second; omega
  simp only [Go.Float64.seconds, Int.tdiv_eq_ediv_of_nonneg hd, Int.tmod_eq_emod_of_nonneg hd,
    fl.round_int _ hsec.1 hsec.2, fl.round_int _ hnsec.1 hnsec.2]

theorem fraction_le (d : ℤ) :
    (0 : ℚ) ≤ (d % second : ℤ) / second ∧ ((d % second : ℤ) : ℚ) / second ≤ 1 - 1 / 10 ^ 9 := by
  have hlow : (0 : ℚ) ≤ (d % second : ℤ) := by exact_mod_cast Int.emod_nonneg d (by decide)
  have hhigh : ((d % second : ℤ) : ℚ) ≤ 10 ^ 9 - 1 := by
    have hlt : d % second ≤ 10 ^ 9 - 1 := by unfold second; omega
    exact_mod_cast hlt
  have hsecond : ((second : ℤ) : ℚ) = 10 ^ 9 := by norm_num [second]
  rw [hsecond]
  exact ⟨by positivity, by linarith⟩

theorem seconds_mem (hd : 0 ≤ d) (hmax : d < 2 ^ 63) :
    ((d / second : ℤ) : ℚ) ≤ fl.seconds d ∧ fl.seconds d ≤ (d / second + 1 : ℤ) := by
  obtain ⟨hlow, hhigh⟩ := fraction_le d
  have hround := fl.round_mem (x := (d % second : ℤ) / second) (a := 0) (b := 1) (by decide) (by decide)
    (by simpa using hlow) (by push_cast; linarith)
  rw [seconds_of_nonneg fl hd hmax]
  refine fl.round_mem ?_ ?_ (by linarith) (by push_cast; linarith)
  · unfold second
    omega
  · unfold second
    omega

/-- below 2^23 seconds (97 days) the fraction is not rounded up -/
theorem seconds_lt (hd : 0 ≤ d) (hmax : d < 2 ^ 23 * second) : fl.seconds d < (d / second + 1 : ℤ) := by
  have hbig : d < 2 ^ 63 := lt_trans hmax (by decide)
  have hsec : 0 ≤ d / second ∧ d / second ≤ 2 ^ 23 - 1 := by
    unfold second at hmax ⊢
    omega
  have hsec0 : (0 : ℚ) ≤ (d / second : ℤ) := by exact_mod_cast hsec.1
  have hsec1 : ((d / second : ℤ) : ℚ) ≤ 2 ^ 23 - 1 := by exact_mod_cast hsec.2
  have hfraction := fl.round_le (fraction_le d).2 (by norm_num) (by norm_num)
  -- the sum is rounded again, by at most half a unit of 2^23
  have hsum : ((d / second : ℤ) : ℚ) + fl.round ((d % second : ℤ) / second) ≤
      (d / second : ℤ) + (1 - 1 / 10 ^ 9 + 1 / 2 ^ 53) := by
    linarith
  have hround := fl.round_le hsum (le_trans (by norm_num) (add_le_add_left hsec0 _))
    (le_trans (add_le_add_left hsec1 _) (by norm_num))
  rw [seconds_of_nonneg fl hd hbig]
  push_cast
  linarith

theorem expireSeconds_eq (hd : 0 ≤ ttl.1) (hmax : ttl.1 < 2 ^ 23 * second) : expireSeconds fl ttl = ttl.1 / second := by
  have hlow := (seconds_mem fl hd ttl.2.2).1
  have hhigh := seconds_lt fl hd hmax
  have hnonneg : (0 : ℚ) ≤ fl.seconds ttl := by
    refine le_trans ?_ hlow
    exact_mod_cast Int.ediv_nonneg hd (by decide)
  rw [expireSeconds, Go.trunc, if_pos hnonneg, Int.floor_eq_iff]
  exact ⟨hlow, by exact_mod_cast hhigh⟩

theorem expireSeconds_of_lt (hd : 0 ≤ ttl.1) (hlt : ttl.1 < second) : expireSeconds fl ttl = 0 := by
  rw [expireSeconds_eq fl hd (hlt.trans (by decide))]
  exact Int.ediv_eq_zero_of_lt hd hlt

end Seconds

/-! ## freecache -/

abbrev Bytes := List UInt8

structure Entry where
  value : Bytes
  expireSeconds : ℤ
  setAt : ℤ
  /-- the TTL that was asked for: that of the call, or the default -/
  ttl : Duration

abbrev Entries := String → Option Entry

/-- what freecache decides: whether an entry set with so many seconds at an instant has expired at another, and which
calls it refuses -/
structure Freecache where
  expired : ℤ → ℤ → ℤ → Bool
  /-- one more second for the granularity of its clock -/
  expires : ∀ {s setAt now : ℤ}, 0 < s → setAt + (s + 1) * second ≤ now → expired s setAt now = true
  never : ∀ {s setAt now : ℤ}, s ≤ 0 → expired s setAt now = false
  setErr : String → Bytes → Option GoError
  getErr : String → Option GoError

inductive GetError where
  | notFound
  | other (e : GoError)
deriving DecidableEq, Repr

def Freecache.get (fc : Freecache) (m : Entries) (now : ℤ) (key : String) : Except GetError Entry :=
  match fc.getErr key with
  | some e => .error (.other e)
  | none =>
    match m key with
    | some e => if fc.expired e.expireSeconds e.setAt now = true then .error .notFound else .ok e
    | none => .error .notFound

def Freecache.set (fc : Freecache) (m : Entries) (key : String) (e : Entry) : Option GoError × Entries :=
  match fc.setErr key e.value with
  | some err => (some err, m)
  | none => (none, Function.update m key (some e))

/-! ## The cache -/

structure Config where
  defaultTTL : Duration

structure Item where
  key : String
  value : Bytes
  ttl : Duration

def errNotFound : GoError := ⟨"cache: key not found"⟩

def Config.ttlOf (cfg : Config) (ttl : Duration) : Duration := if ttl.1 ≤ 0 then cfg.defaultTTL else ttl

def entry (fl : Go.Float64) (cfg : Config) (now : ℤ) (value : Bytes) (ttl : Duration) : Entry :=
  ⟨value, expireSeconds fl (cfg.ttlOf ttl), now, cfg.ttlOf ttl⟩

section Methods

variable (fc : Freecache) (fl : Go.Float64) (cfg : Config) (now : ℤ) (m : Entries)

def get (key : String) : Except GoError Entry :=
  match fc.get m now key with
  | .error .notFound => .error errNotFound
  | .error (.other e) => .error e
  | .ok e => .ok e

def has (key : String) : Bool × Option GoError :=
  match fc.get m now key with
  | .error .notFound => (false, none)
  | .error (.other e) => (false, some e)
  | .ok _ => (true, none)

def getAll : List String → Except GoError (List (Option Entry) × Bool)
  | [] => .ok ([], false)
  | key :: keys =>
    match fc.get m now key with
    | .error .notFound => (getAll keys).map fun r => (none :: r.1, true)
    | .error (.other e) => .error e
    | .ok e => (getAll keys).map fun r => (some e :: r.1, r.2)

def getMulti (keys : List String) : List (Option Entry) × Option GoError :=
  match getAll fc now m keys with
  | .error e => ([], some e)
  | .ok (result, hasMissing) => (result, if hasMissing = true then some errNotFound else none)

def set (key : String) (value : Bytes) (ttl : Duration) : Option GoError × Entries :=
  fc.set m key (entry fl cfg now value ttl)

def setNX (key : String) (value : Bytes) (ttl : Duration) : Except GoError Bool × Entries :=
  match fc.get m now key with
  | .ok _ => (.ok false, m)
  | .error (.other e) => (.error e, m)
  | .error .notFound =>
    match fc.set m key (entry fl cfg now value ttl) with
    | (some e, m) => (.error e, m)
    | (none, m) => (.ok true, m)

def setMulti : Entries → List Item → Option GoError × Entries
  | m, [] => (none, m)
  | m, item :: items =>
    match fc.set m item.key (entry fl cfg now item.value item.ttl) with
    | (some e, m) => (some e, m)
    | (none, m) => setMulti m items

end Methods

/-! ## Runs -/

inductive Op where
  | get (key : String)
  | has (key : String)
  | getMulti (keys : List String)
  | set (key : String) (value : Bytes) (ttl : Duration)
  | setNX (key : String) (value : Bytes) (ttl : Duration)
  | setMulti (items : List Item)
  | delete (key : String)
  | close
  /-- freecache makes room -/
  | evict (key : String)

/-- `served` are the entries that reads have returned, with the instants -/
structure State where
  entries : Entries
  served : List (Entry × ℤ)

def new : State := ⟨fun _ => none, []⟩

def reads (fc : Freecache) (m : Entries) (now : ℤ) : Op → List Entry
  | .get key => (get fc now m key).toOption.toList
  | .has key => if (has fc now m key).1 = true then (m key).toList else []
  | .getMulti keys => (getMulti fc now m keys).1.filterMap id
  | _ => []

def writes (fc : Freecache) (fl : Go.Float64) (cfg : Config) (m : Entries) (now : ℤ) : Op → Entries
  | .set key value ttl => (set fc fl cfg now m key value ttl).2
  | .setNX key value ttl => (setNX fc fl cfg now m key value ttl).2
  | .setMulti items => (setMulti fc fl cfg now m items).2
  | .delete key => Function.update m key none
  | .close => fun _ => none
  | .evict key => Function.update m key none
  | _ => m

def step (fc : Freecache) (fl : Go.Float64) (cfg : Config) (s : State) (call : ℤ × Op) : State where
  entries := writes fc fl cfg s.entries call.1 call.2
  served := (reads fc s.entries call.1 call.2).map (fun e => (e, call.1)) ++ s.served

/-- no entry with a positive TTL was returned more than the TTL and a second after it was stored -/
def StaleFree (s : State) : Prop := ∀ p ∈ s.served, 0 < p.1.ttl.1 → p.2 - p.1.setAt ≤ p.1.ttl + second

def Op.ttls : Op → List Duration
  | .set _ _ ttl => [ttl]
  | .setNX _ _ ttl => [ttl]
  | .setMulti items => items.map Item.ttl
  | _ => []

/-- the TTLs of a call, or the default in their place, are among those given -/
def Uses (cfg : Config) (used : Duration → Prop) (op : Op) : Prop := ∀ ttl ∈ op.ttls, used (cfg.ttlOf ttl)

section

variable {fc : Freecache} {fl : Go.Float64} {cfg : Config} {m : Entries} {now : ℤ} {e : Entry} {key : String}

theorem get_ok (h : fc.get m now key = .ok e) : m key = some e ∧ fc.expired e.expireSeconds e.setAt now = false := by
  unfold Freecache.get at h
  split at h
  · cases h
  · split at h
    · rename_i e' he'
      split_ifs at h with hexp
      cases h
      exact ⟨he', by simpa using hexp⟩
    · cases h

theorem get_set (hget : fc.getErr key = none) (hset : fc.setErr key e.value = none)
    (halive : fc.expired e.expireSeconds e.setAt now = false) : fc.get (fc.set m key e).2 now key = .ok e := by
  simp [Freecache.get, Freecache.set, hget, hset, halive]

theorem getAll_ok {keys : List String} {result : List (Option Entry)} {missing : Bool}
    (h : getAll fc now m keys = .ok (result, missing)) :
    ∀ e, some e ∈ result → ∃ key, fc.get m now key = .ok e := by
  induction keys generalizing result missing with
  | nil =>
    cases h
    simp
  | cons key keys ih =>
    intro e he
    rw [getAll] at h
    cases hget : fc.get m now key with
    | error err =>
      rw [hget] at h
      cases err with
      | other err => cases h
      | notFound =>
        obtain ⟨r, hr, heq⟩ := Go.map_eq_ok.1 h
        cases heq
        exact ih hr e (by simpa using he)
    | ok e' =>
      rw [hget] at h
      obtain ⟨r, hr, heq⟩ := Go.map_eq_ok.1 h
      cases heq
      rcases List.mem_cons.1 he with hfirst | hrest
      · cases hfirst
        exact ⟨key, hget⟩
      · exact ih hr e hrest

theorem reads_alive {op : Op} (h : e ∈ reads fc m now op) :
    ∃ key, m key = some e ∧ fc.expired e.expireSeconds e.setAt now = false := by
  cases op with
  | get key =>
    simp only [reads, get] at h
    cases hget : fc.get m now key with
    | error err => cases err <;> simp [hget, Except.toOption] at h
    | ok e' =>
      have heq : e = e' := by simpa [hget, Except.toOption] using h
      exact ⟨key, heq ▸ get_ok hget⟩
  | has key =>
    simp only [reads, has] at h
    cases hget : fc.get m now key with
    | error err => cases err <;> simp [hget] at h
    | ok e' =>
      obtain ⟨hm, halive⟩ := get_ok hget
      have heq : e = e' := by simpa [hget, hm] using h
      exact ⟨key, heq ▸ ⟨hm, halive⟩⟩
  | getMulti keys =>
    simp only [reads, getMulti] at h
    cases hall : getAll fc now m keys with
    | error err => simp [hall] at h
    | ok r =>
      have hmem : some e ∈ r.1 := by simpa [hall] using h
      obtain ⟨key, hget⟩ := getAll_ok hall e hmem
      exact ⟨key, get_ok hget⟩
  | _ => cases h

/-- every entry has a property -/
def Holds (p : Entry → Prop) (m : Entries) : Prop := ∀ key, ∀ e ∈ m key, p e

variable {p : Entry → Prop}

theorem holds_update (h : Holds p m) {x : Option Entry} (hx : ∀ e ∈ x, p e) : Holds p (Function.update m key x) :=
  (Function.forall_update_iff m fun _ x => ∀ e ∈ x, p e).2 ⟨hx, fun key _ => h key⟩

theorem holds_set (h : Holds p m) (he : p e) : Holds p (fc.set m key e).2 := by
  unfold Freecache.set
  split
  · exact h
  · exact holds_update h fun e' he' => Option.some.inj he' ▸ he

theorem holds_setMulti {items : List Item} (h : Holds p m)
    (hitems : ∀ item ∈ items, p (entry fl cfg now item.value item.ttl)) :
    Holds p (setMulti fc fl cfg now m items).2 := by
  induction items generalizing m with
  | nil => exact h
  | cons item items ih =>
    obtain ⟨hitem, hitems⟩ := List.forall_mem_cons.1 hitems
    have hset : Holds p (fc.set m item.key (entry fl cfg now item.value item.ttl)).2 := holds_set h hitem
    rw [setMulti]
    split
    next err m' hfc =>
      rw [hfc] at hset
      exact hset
    next m' hfc =>
      rw [hfc] at hset
      exact ih hset hitems

theorem holds_writes {op : Op} (h : Holds p m) (hop : ∀ value, ∀ ttl ∈ op.ttls, p (entry fl cfg now value ttl)) :
    Holds p (writes fc fl cfg m now op) := by
  cases op with
  | set key value ttl => exact holds_set h (hop value ttl (List.mem_singleton_self ttl))
  | setNX key value ttl =>
    have hset : Holds p (fc.set m key (entry fl cfg now value ttl)).2 :=
      holds_set h (hop value ttl (List.mem_singleton_self ttl))
    simp only [writes, setNX]
    split
    · exact h
    · exact h
    · split
      all_goals
        next hfc =>
        rw [hfc] at hset
        exact hset
  | setMulti items =>
    exact holds_setMulti h fun item hitem => hop item.value item.ttl (List.mem_map_of_mem hitem)
  | delete key | evict key => exact holds_update h fun _ he => by cases he
  | close => exact fun _ _ he => by cases he
  | get | has | getMulti => exact h

/-! ## Expiry -/

structure Inv (fl : Go.Float64) (used : Duration → Prop) (s : State) : Prop where
  entries : Holds (fun e => e.expireSeconds = expireSeconds fl e.ttl ∧ used e.ttl) s.entries
  fresh : StaleFree s

theorem alive_fresh (hseconds : e.expireSeconds = expireSeconds fl e.ttl) (hexp : Expires fl e.ttl)
    (halive : fc.expired e.expireSeconds e.setAt now = false) : now - e.setAt ≤ e.ttl + second := by
  obtain ⟨hpos, hle⟩ := hexp
  by_contra hold
  have hover : e.setAt + (e.expireSeconds + 1) * second ≤ now := by
    rw [hseconds, add_mul]
    omega
  rw [fc.expires (hseconds ▸ hpos) hover] at halive
  cases halive

theorem inv_step {used : Duration → Prop} (hused : ∀ ttl, used ttl → 0 < ttl.1 → Expires fl ttl) {s : State}
    {call : ℤ × Op} (h : Inv fl used s) (hcall : Uses cfg used call.2) : Inv fl used (step fc fl cfg s call) := by
  refine ⟨holds_writes h.entries fun value ttl hmem => ⟨rfl, hcall ttl hmem⟩, fun p hp hpos => ?_⟩
  rcases List.mem_append.1 hp with hnew | hold
  · obtain ⟨e, he, rfl⟩ := List.mem_map.1 hnew
    obtain ⟨key, hkey, halive⟩ := reads_alive he
    obtain ⟨hseconds, hasked⟩ := h.entries key e hkey
    exact alive_fresh hseconds (hused _ hasked hpos) halive
  · exact h.fresh p hold hpos

end

def latest : Freecache where
  expired s setAt now := decide (0 < s ∧ setAt + (s + 1) * second ≤ now)
  expires hs hnow := by simp [hs, hnow]
  never hs := by simp [not_lt.2 hs]
  setErr _ _ := none
  getErr _ := none

/-- one entry stored at 0 and read when its TTL, a second and a nanosecond are over -/
def setThenGet (ttl : Duration) : List (ℤ × Op) := [(0, .set "k" [] ttl), (ttl + second + 1, .get "k")]

theorem setThenGet_stale {fl : Go.Float64} {cfg : Config} (hpos : 0 < ttl.1)
    (hexp : ¬ Expires fl ttl) : ¬ Always (step latest fl cfg) StaleFree new (setThenGet ttl) := by
  intro h
  have hkept : latest.expired (expireSeconds fl ttl) 0 (ttl + second + 1) = false := by
    simp only [latest, decide_eq_false_iff_not, not_and, add_mul]
    intro hs hover
    exact hexp ⟨hs, by omega⟩
  have httl : cfg.ttlOf ttl = ttl := if_neg (not_le.2 hpos)
  have hget : latest.get (latest.set new.entries "k" (entry fl cfg 0 [] ttl)).2 (ttl + second + 1) "k" =
      .ok (entry fl cfg 0 [] ttl) :=
    get_set rfl rfl (by simpa [entry, httl] using hkept)
  have hserved : (entry fl cfg 0 [] ttl, ttl.1 + second + 1) ∈
      (run (step latest fl cfg) new (setThenGet ttl)).served := by
    simp [setThenGet, step, writes, reads, set, get, hget, Except.toOption]
  have hle := h.last _ hserved (by simpa [entry, httl] using hpos)
  simp only [entry, httl] at hle
  omega

/-- **Which TTLs expire.** In all runs whose writes ask for TTLs of a set, or get the default: no read returns an entry
with a positive TTL more than the TTL and a second after it was stored, if and only if every positive TTL of the set
becomes a positive number of seconds that is not rounded up. -/
theorem expiry_iff (fl : Go.Float64) (cfg : Config) (used : Duration → Prop) :
    (∀ fc calls, (∀ call ∈ calls, Uses cfg used call.2) → Always (step fc fl cfg) StaleFree new calls) ↔
      ∀ ttl, used ttl → 0 < ttl.1 → Expires fl ttl := by
  constructor
  · intro h ttl hused hpos
    by_contra hexp
    have huses : Uses cfg used (.set "k" [] ttl) := by
      intro ttl' hmem
      obtain rfl := List.mem_singleton.1 hmem
      rwa [Config.ttlOf, if_neg (not_le.2 hpos)]
    refine setThenGet_stale hpos hexp (h latest _ ?_)
    intro call hcall
    rcases List.mem_pair.1 hcall with rfl | rfl
    · exact huses
    · exact fun _ hmem => absurd hmem List.not_mem_nil
  · intro hused fc calls hcalls
    have hinv : Inv fl used new := ⟨by simp [new, Holds], by simp [StaleFree, new]⟩
    exact always_of_along (I := Inv fl used) (fun _ hi => hi.fresh) (fun _ _ hi hc => inv_step hused hi hc) hinv
      (along_forall.2 hcalls)

def halfSecond : Duration := ⟨500000000, by decide⟩

def zeroTTL : Duration := ⟨0, by decide⟩

def hourLater (fl : Go.Float64) (cfg : Config) (write : Op) : State :=
  run (step latest fl cfg) new [(0, write), (3600 * second, .get "k")]

/-- whichever way the entry is written, and however floats are rounded -/
theorem hourLater_stale {fl : Go.Float64} {cfg : Config} {write : Op}
    (hwrite : writes latest fl cfg new.entries 0 write = (latest.set new.entries "k" (entry fl cfg 0 [1] ttl)).2)
    (httl : cfg.ttlOf ttl = halfSecond) : ¬ StaleFree (hourLater fl cfg write) := by
  have hzero : expireSeconds fl halfSecond = 0 := expireSeconds_of_lt fl (by decide) (by decide)
  have hget : latest.get (latest.set new.entries "k" (entry fl cfg 0 [1] ttl)).2 (3600 * second) "k" =
      .ok (entry fl cfg 0 [1] ttl) :=
    get_set rfl rfl (latest.never (by simp [entry, httl, hzero]))
  have hserved : (entry fl cfg 0 [1] ttl, 3600 * second) ∈ (hourLater fl cfg write).served := by
    simp [hourLater, step, hwrite, reads, get, hget, Except.toOption]
  intro h
  have hle := h _ hserved (by simp [entry, httl, halfSecond])
  simp only [entry, httl] at hle
  exact absurd hle (by decide)

/-- **Half a second is forever.** An entry stored with a TTL of half a second by `Set`, `SetNX` or `SetMulti`, or with a
TTL of zero where the default is half a second, is still returned one hour later. -/
theorem never_expires :
    ¬ StaleFree (hourLater Go.unrounded ⟨zeroTTL⟩ (.set "k" [1] halfSecond)) ∧
    ¬ StaleFree (hourLater Go.unrounded ⟨zeroTTL⟩ (.setNX "k" [1] halfSecond)) ∧
    ¬ StaleFree (hourLater Go.unrounded ⟨zeroTTL⟩ (.setMulti [⟨"k", [1], halfSecond⟩])) ∧
    ¬ StaleFree (hourLater Go.unrounded ⟨halfSecond⟩ (.set "k" [1] zeroTTL)) :=
  ⟨hourLater_stale rfl rfl, hourLater_stale rfl rfl, hourLater_stale rfl rfl, hourLater_stale rfl rfl⟩

end LuluExt.LocalCache
