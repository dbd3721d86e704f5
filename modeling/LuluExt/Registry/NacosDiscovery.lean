/-
The two ways to get the instances of a service from Nacos: `GetService` of the registry and `Next` of a watcher.

Both make an instance of each host that the client returns, with one endpoint, whose kind is taken from the metadata or
else from the options. `GetService` also writes the weight into the metadata, which panics when there are none; `Next`
does not. The address is written without the brackets that an IPv6 address needs.

The client answers both requests with the same hosts, whose metadata maps are taken as not shared between the two
answers: the weight that `GetService` writes is not seen by `Next`. Weights are rationals.

Results: `readsBack_iff`, `agree_iff`, `consistent_iff`.
-/
import LuluExt.Lib.Url
import LuluExt.Registry.Nacos

namespace LuluExt.NacosDiscovery

open Nacos (Host Instance toInstance items)

structure NacosInstance where
  instanceId : String
  serviceName : String
  ip : Url.Ip
  port : ℕ
  weight : ℚ
  /-- none is a nil map -/
  metadata : Option (List (String × String))

structure Options where
  weight : ℚ
  kind : String

def assign (m : List (String × String)) (k v : String) : List (String × String) :=
  (k, v) :: m.filter fun x => x.1 ≠ k

/-- `strconv.Itoa(int(math.Ceil(weight)))`, with the default for a weight that is not positive -/
def weightText (plat : Go.Platform) (opts : Options) (x : NacosInstance) : String :=
  toString (plat.int64 ⌈if x.weight > 0 then x.weight else opts.weight⌉)

/-- what a host is to the watcher, which reads a nil map as an empty one -/
def NacosInstance.toHost (x : NacosInstance) : Host := ⟨x.instanceId, x.ip.text, x.port, x.metadata.getD []⟩

def NacosInstance.kind (opts : Options) (x : NacosInstance) : String :=
  ((x.metadata.getD []).lookup "kind").getD opts.kind

/-- one turn of the loop of `GetService`; none is the panic of an assignment to a nil map -/
def item (plat : Go.Platform) (opts : Options) (x : NacosInstance) : Option Instance :=
  match x.metadata with
  | none => none
  | some metadata => some {
      id := x.instanceId
      name := x.serviceName
      version := (metadata.lookup "version").getD ""
      metadata := assign metadata "weight" (weightText plat opts x)
      endpoints := [Url.address (x.kind opts) x.ip.text x.port] }

def getService (plat : Go.Platform) (opts : Options) : List NacosInstance → Option (List Instance)
  | [] => some []
  | x :: res =>
    match item plat opts x with
    | none => none
    | some r =>
      match getService plat opts res with
      | none => none
      | some items => some (r :: items)

/-- the watcher gets its kind from the options of the registry -/
def next (opts : Options) (name : String) (res : List NacosInstance) : List Instance :=
  items opts.kind ⟨name, res.map NacosInstance.toHost⟩

/-! ## What is expected -/

def portValue (t : Url.Text) : Option ℕ :=
  if t ≠ [] ∧ t.all Char.isDigit = true then some (Nat.ofDigitChars 10 t 0) else none

/-- host and port of a URL are the address of the instance -/
def ReadsBack (ipv6 : Url.Text → Bool) (x : NacosInstance) (url : String) : Prop :=
  (Url.endpoint ipv6 url.toList).map (fun e => (e.host, portValue e.port)) = some (x.ip.text.toList, some x.port)

instance (ipv6 : Url.Text → Bool) (x : NacosInstance) (url : String) : Decidable (ReadsBack ipv6 x url) :=
  inferInstanceAs (Decidable (_ = _))

/-- the instance has one endpoint, which is the address of `x` -/
def Addressed (ipv6 : Url.Text → Bool) (x : NacosInstance) (r : Instance) : Prop :=
  ∃ url, r.endpoints = [url] ∧ ReadsBack ipv6 x url

structure Agree (a b : Instance) : Prop where
  id : a.id = b.id
  version : a.version = b.version
  metadata : ∀ k, a.metadata.lookup k = b.metadata.lookup k
  endpoints : a.endpoints = b.endpoints

/-- no panic, endpoints that read back, and the same instances -/
structure Consistent (ipv6 : Url.Text → Bool) (plat : Go.Platform) (opts : Options) (name : String)
    (res : List NacosInstance) : Prop where
  returned : ∃ got, getService plat opts res = some got ∧ List.Forall₂ (Addressed ipv6) res got ∧
    List.Forall₂ Agree got (next opts name res)
  addressed : List.Forall₂ (Addressed ipv6) res (next opts name res)

/-- there are metadata, with the weight that `GetService` writes, and the address is one that can be read back -/
structure Regular (ipv6 : Url.Text → Bool) (plat : Go.Platform) (opts : Options) (x : NacosInstance) : Prop where
  present : x.metadata ≠ none
  weighted : (x.metadata.getD []).lookup "weight" = some (weightText plat opts x)
  plain : Url.Plain (x.kind opts) → Url.isScheme (x.kind opts).toList = true ∧ ':' ∉ x.ip.text.toList
  /-- a kind that is itself the beginning of a URL with an authority -/
  other : ¬ Url.Plain (x.kind opts) → ReadsBack ipv6 x (Url.address (x.kind opts) x.ip.text x.port)

/-! ## One host -/

section

variable {ipv6 : Url.Text → Bool} {plat : Go.Platform} {opts : Options} {x : NacosInstance}

theorem portValue_toDigits (n : ℕ) : portValue (Nat.toDigits 10 n) = some n := by
  have hdigits : (Nat.toDigits 10 n).all Char.isDigit :=
    List.all_eq_true.2 fun c hc => Nat.isDigit_of_mem_toDigits (by decide) (by decide) hc
  rw [portValue, if_pos ⟨Nat.toDigits_ne_nil, hdigits⟩, Nat.ofDigitChars_ten_toDigits]

/-- **An endpoint reads back exactly when** its kind is a scheme and its address has no colon. -/
theorem readsBack_iff (hplain : Url.Plain (x.kind opts)) :
    ReadsBack ipv6 x (Url.address (x.kind opts) x.ip.text x.port) ↔
      Url.isScheme (x.kind opts).toList ∧ ':' ∉ x.ip.text.toList := by
  rw [ReadsBack, Url.endpoint_address hplain]
  split_ifs with h
  · simp [h, portValue_toDigits]
  · simp [h]

theorem addressed_iff {r : Instance} {url : String} (h : r.endpoints = [url]) :
    Addressed ipv6 x r ↔ ReadsBack ipv6 x url := by
  simp [Addressed, h]

theorem lookup_filter_ne (m : List (String × String)) {k k' : String} (hk : k' ≠ k) :
    (m.filter fun x => x.1 ≠ k).lookup k' = m.lookup k' := by
  induction m with
  | nil => rfl
  | cons y m ih =>
    obtain ⟨a, b⟩ := y
    rw [List.filter_cons]
    split_ifs with ha
    · rw [List.lookup_cons, List.lookup_cons, ih]
    · have hne : (k' == a) = false := by
        rw [beq_eq_false_iff_ne]
        rintro rfl
        exact ha (by simpa using hk)
      rw [ih, List.lookup_cons, hne]

theorem lookup_assign (m : List (String × String)) (k v k' : String) :
    (assign m k v).lookup k' = if k' = k then some v else m.lookup k' := by
  rw [assign, List.lookup_cons]
  split_ifs with hk
  · rw [beq_iff_eq.2 hk]
  · rw [beq_eq_false_iff_ne.2 hk]
    exact lookup_filter_ne m hk

theorem lookup_assign_eq_iff {m : List (String × String)} {k v : String} :
    (∀ k', (assign m k v).lookup k' = m.lookup k') ↔ m.lookup k = some v := by
  constructor
  · intro h
    rw [← h k, lookup_assign, if_pos rfl]
  · intro h k'
    rw [lookup_assign]
    split_ifs with hk
    · rw [hk, h]
    · rfl

/-- **Both instances agree exactly when** the metadata had the weight. -/
theorem agree_iff (name : String) {r : Instance} (h : item plat opts x = some r) :
    Agree r (toInstance opts.kind name x.toHost) ↔
      (x.metadata.getD []).lookup "weight" = some (weightText plat opts x) := by
  unfold item at h
  split at h
  next => cases h
  next metadata hmetadata =>
    cases h
    rw [← lookup_assign_eq_iff]
    constructor
    · intro hagree
      simpa [toInstance, NacosInstance.toHost, hmetadata] using hagree.metadata
    · intro hlookup
      refine ⟨rfl, ?_, ?_, rfl⟩
      · simp [toInstance, NacosInstance.toHost, hmetadata]
      · simpa [toInstance, NacosInstance.toHost, hmetadata] using hlookup

theorem item_eq_some_iff (plat : Go.Platform) (opts : Options) :
    (∃ r, item plat opts x = some r) ↔ x.metadata ≠ none := by
  unfold item
  cases x.metadata with
  | none | some metadata => simp

theorem endpoints_item {r : Instance} (h : item plat opts x = some r) :
    r.endpoints = [Url.address (x.kind opts) x.ip.text x.port] := by
  unfold item at h
  split at h
  next => cases h
  next =>
    cases h
    rfl

structure Fits (ipv6 : Url.Text → Bool) (plat : Go.Platform) (opts : Options) (name : String) (x : NacosInstance)
    (r : Instance) : Prop where
  item : item plat opts x = some r
  addressed : Addressed ipv6 x r
  agree : Agree r (toInstance opts.kind name x.toHost)
  next : Addressed ipv6 x (toInstance opts.kind name x.toHost)

theorem fits_iff (name : String) : (∃ r, Fits ipv6 plat opts name x r) ↔ Regular ipv6 plat opts x := by
  constructor
  · rintro ⟨r, hfits⟩
    have hback := (addressed_iff (endpoints_item hfits.item)).1 hfits.addressed
    refine ⟨(item_eq_some_iff plat opts).1 ⟨r, hfits.item⟩, (agree_iff name hfits.item).1 hfits.agree, ?_, ?_⟩
    · intro hplain
      exact (readsBack_iff hplain).1 hback
    · intro _
      exact hback
  · intro h
    have hback : ReadsBack ipv6 x (Url.address (x.kind opts) x.ip.text x.port) := by
      by_cases hplain : Url.Plain (x.kind opts)
      · exact (readsBack_iff hplain).2 (h.plain hplain)
      · exact h.other hplain
    obtain ⟨r, hr⟩ := (item_eq_some_iff plat opts).2 h.present
    exact ⟨r, hr, (addressed_iff (endpoints_item hr)).2 hback, (agree_iff name hr).2 h.weighted,
      (addressed_iff rfl).2 hback⟩

end

/-! ## All hosts -/

theorem getService_cons_eq_some {plat : Go.Platform} {opts : Options} {x : NacosInstance} {res : List NacosInstance}
    {r : Instance} {got : List Instance} : getService plat opts (x :: res) = some (r :: got) ↔
      item plat opts x = some r ∧ getService plat opts res = some got := by
  rw [getService]
  cases item plat opts x with
  | none => simp
  | some r =>
    cases getService plat opts res with
    | none | some got => simp

theorem consistent_cons (ipv6 : Url.Text → Bool) (plat : Go.Platform) (opts : Options) (name : String)
    (x : NacosInstance) (res : List NacosInstance) : Consistent ipv6 plat opts name (x :: res) ↔
      (∃ r, Fits ipv6 plat opts name x r) ∧ Consistent ipv6 plat opts name res := by
  have hnext : next opts name (x :: res) = toInstance opts.kind name x.toHost :: next opts name res := rfl
  constructor
  · rintro ⟨⟨got, hgot, haddr, hagree⟩, hnextAddr⟩
    rw [hnext] at hagree hnextAddr
    cases haddr with
    | @cons _ r _ got hr haddr =>
      rw [List.forall₂_cons] at hagree hnextAddr
      obtain ⟨hitem, hrest⟩ := getService_cons_eq_some.1 hgot
      exact ⟨⟨r, hitem, hr, hagree.1, hnextAddr.1⟩, ⟨got, hrest, haddr, hagree.2⟩, hnextAddr.2⟩
  · rintro ⟨⟨r, hitem, hr, hagree, hr'⟩, ⟨got, hgot, haddr, hagrees⟩, hnextAddr⟩
    exact ⟨⟨r :: got, getService_cons_eq_some.2 ⟨hitem, hgot⟩, .cons hr haddr, .cons hagree hagrees⟩,
      .cons hr' hnextAddr⟩

/-- **When both ways are consistent.** GetService does not panic, both make one endpoint for each host that reads back
as its address, and both make the same instances, if and only if all hosts are regular. -/
theorem consistent_iff (ipv6 : Url.Text → Bool) (plat : Go.Platform) (opts : Options) (name : String)
    (res : List NacosInstance) :
    Consistent ipv6 plat opts name res ↔ ∀ x ∈ res, Regular ipv6 plat opts x := by
  induction res with
  | nil => exact iff_of_true ⟨⟨[], rfl, .nil, .nil⟩, .nil⟩ (by simp)
  | cons x res ih => rw [consistent_cons, List.forall_mem_cons, fits_iff, ih]

def hostWith (ip : Url.Ip) (metadata : Option (List (String × String))) : NacosInstance :=
  ⟨"1", "web", ip, 80, 2, metadata⟩

def ipv4Address : Url.Ip := ⟨"10.0.0.2", List.all_eq_true.1 (by decide)⟩

def ipv6Address : Url.Ip := ⟨"fd00::2", List.all_eq_true.1 (by decide)⟩

/-- **Inconsistencies**: a nil map, an IPv6 address, and the weight that only GetService writes. -/
theorem inconsistent :
    getService Go.amd64 ⟨100, "grpc"⟩ [hostWith ipv4Address none] = none ∧
    ((next ⟨100, "grpc"⟩ "web" [hostWith ipv6Address none]).map Instance.endpoints = [["grpc://fd00::2:80"]] ∧
      ¬ ReadsBack (fun _ => false) (hostWith ipv6Address none) "grpc://fd00::2:80") ∧
    (getService Go.amd64 ⟨100, "grpc"⟩ [hostWith ipv4Address (some [])]).map (List.map Instance.metadata) =
      some [[("weight", "2")]] ∧
    (next ⟨100, "grpc"⟩ "web" [hostWith ipv4Address (some [])]).map Instance.metadata = [[]] := by
  refine ⟨rfl, ⟨by decide, by decide⟩, by decide +kernel, rfl⟩

end LuluExt.NacosDiscovery
