/-
Registration with Nacos: `Register` makes one call for each endpoint and stops at the first error, a parse error or one
of the server, without taking back what it has registered. `Deregister` goes through the same endpoints.

The server is a map from the key of an instance to its registration; a call that fails changes nothing. What the
libraries parse is a parameter, and so is which calls fail.

Results: `deregisterParam_eq`, `deregisterFrom_made`, `allOrNothing_iff`.
-/
import LuluExt.Lib.Go
import LuluExt.Lib.Url

namespace LuluExt.NacosRegister

/-! ## Model -/

structure ParsedUrl where
  scheme : String
  host : String

/-- what is used of the packages url, net and strconv; `F` is float64 -/
structure Library (F : Type) where
  parse : String → Except GoError ParsedUrl
  splitHostPort : String → Except GoError (String × String)
  atoi : String → Except GoError ℤ
  parseFloat : String → Option F

structure Options (F : Type) where
  weight : F
  cluster : String
  group : String

structure Instance where
  name : String
  version : String
  metadata : Option (String → Option String)
  endpoints : List String

structure Key where
  ip : String
  port : ℕ
  serviceName : String
  clusterName : String
  groupName : String
  ephemeral : Bool
deriving DecidableEq, Repr

structure Registration (F : Type) where
  weight : F
  enable : Bool
  healthy : Bool
  metadata : String → Option String

abbrev Server (F : Type) := Key → Option (Registration F)

def errServiceInstanceNameEmpty : GoError := ⟨"lulu/nacos: ServiceInstance.Name can not be empty"⟩

def uint64 (p : ℤ) : ℕ := (p % 2 ^ 64).toNat

variable {F : Type}

/-- the weight of the metadata replaces the default, if it can be parsed -/
def weightOf (lib : Library F) (opts : Options F) (si : Instance) : F :=
  match si.metadata with
  | none => opts.weight
  | some metadata =>
    match metadata "weight" with
    | none => opts.weight
    | some w => (lib.parseFloat w).getD opts.weight

def metadataOf (si : Instance) (scheme : String) : String → Option String :=
  Function.update (Function.update (si.metadata.getD fun _ => none) "kind" (some scheme)) "version" (some si.version)

def registerParam (lib : Library F) (opts : Options F) (si : Instance) (endpoint : String) :
    Except GoError (Key × Registration F) :=
  match lib.parse endpoint with
  | .error err => .error err
  | .ok u =>
    match lib.splitHostPort u.host with
    | .error err => .error err
    | .ok (host, port) =>
      match lib.atoi port with
      | .error err => .error err
      | .ok p => .ok (⟨host, uint64 p, si.name ++ "." ++ u.scheme, opts.cluster, opts.group, true⟩,
          ⟨weightOf lib opts si, true, true, metadataOf si u.scheme⟩)

def deregisterParam (lib : Library F) (opts : Options F) (service : Instance) (endpoint : String) :
    Except GoError Key :=
  match lib.parse endpoint with
  | .error err => .error err
  | .ok u =>
    match lib.splitHostPort u.host with
    | .error err => .error err
    | .ok (host, port) =>
      match lib.atoi port with
      | .error err => .error err
      | .ok p => .ok ⟨host, uint64 p, service.name ++ "." ++ u.scheme, opts.cluster, opts.group, true⟩

structure Result (F : Type) where
  server : Server F
  made : List Key
  err : Option GoError

/-- the loop, from the call `n` on; `fail` are the errors of the server -/
def registerFrom (lib : Library F) (opts : Options F) (si : Instance) (fail : ℕ → Option GoError) :
    ℕ → List String → Server F → Result F
  | _, [], server => ⟨server, [], none⟩
  | n, endpoint :: rest, server =>
    match registerParam lib opts si endpoint with
    | .error err => ⟨server, [], some err⟩
    | .ok (key, registration) =>
      match fail n with
      | some e => ⟨server, [], some ⟨"RegisterInstance err " ++ e.text ++ "," ++ endpoint⟩⟩
      | none =>
        let r := registerFrom lib opts si fail (n + 1) rest (Function.update server key (some registration))
        { r with made := key :: r.made }

def register (lib : Library F) (opts : Options F) (si : Instance) (fail : ℕ → Option GoError) (server : Server F) :
    Result F :=
  if si.name = "" then ⟨server, [], some errServiceInstanceNameEmpty⟩
  else registerFrom lib opts si fail 0 si.endpoints server

def deregisterFrom (lib : Library F) (opts : Options F) (service : Instance) (fail : ℕ → Option GoError) :
    ℕ → List String → Server F → Server F × Option GoError
  | _, [], server => (server, none)
  | n, endpoint :: rest, server =>
    match deregisterParam lib opts service endpoint with
    | .error err => (server, some err)
    | .ok key =>
      match fail n with
      | some err => (server, some err)
      | none => deregisterFrom lib opts service fail (n + 1) rest (Function.update server key none)

def deregister (lib : Library F) (opts : Options F) (service : Instance) (fail : ℕ → Option GoError)
    (server : Server F) : Server F × Option GoError :=
  deregisterFrom lib opts service fail 0 service.endpoints server

/-- an error leaves nothing of the call registered; without one, `Deregister` takes exactly that away -/
structure AllOrNothing (lib : Library F) (opts : Options F) (si : Instance) (r : Result F) : Prop where
  nothing : r.err ≠ none → ∀ k ∈ r.made, r.server k = none
  removed : r.err = none → deregister lib opts si (fun _ => none) r.server =
    (fun k => if k ∈ r.made then none else r.server k, none)

def succeeds (lib : Library F) (opts : Options F) (si : Instance) (fail : ℕ → Option GoError) (n : ℕ)
    (endpoint : String) : Bool :=
  match registerParam lib opts si endpoint with
  | .error _ => false
  | .ok _ => (fail n).isNone

/-- nothing is tried, nothing fails, or the first endpoint does -/
def Clean (lib : Library F) (opts : Options F) (si : Instance) (fail : ℕ → Option GoError) : Prop :=
  si.name = "" ∨ (∀ n endpoint, si.endpoints[n]? = some endpoint → succeeds lib opts si fail n endpoint = true) ∨
    ∃ endpoint, si.endpoints.head? = some endpoint ∧ succeeds lib opts si fail 0 endpoint = false

/-! ## The loops -/

section

variable (lib : Library F) (opts : Options F) (si : Instance) (fail : ℕ → Option GoError) (n : ℕ)

theorem registerFrom_cons (endpoint : String) (rest : List String) (server : Server F) :
    (succeeds lib opts si fail n endpoint = false ∧
      ∃ err, registerFrom lib opts si fail n (endpoint :: rest) server = ⟨server, [], some err⟩) ∨
    (succeeds lib opts si fail n endpoint ∧ ∃ key registration,
      registerParam lib opts si endpoint = .ok (key, registration) ∧
      ∀ r, r = registerFrom lib opts si fail (n + 1) rest (Function.update server key (some registration)) →
        registerFrom lib opts si fail n (endpoint :: rest) server = { r with made := key :: r.made }) := by
  rw [registerFrom, succeeds]
  cases registerParam lib opts si endpoint with
  | error err => exact Or.inl ⟨rfl, err, rfl⟩
  | ok x =>
    cases fail n with
    | some e => exact Or.inl ⟨rfl, _, rfl⟩
    | none => exact Or.inr ⟨rfl, x.1, x.2, rfl, fun r hr => by rw [hr]⟩

theorem registerFrom_err_iff (endpoints : List String) (server : Server F) :
    (registerFrom lib opts si fail n endpoints server).err = none ↔
      ∀ k endpoint, endpoints[k]? = some endpoint → succeeds lib opts si fail (n + k) endpoint := by
  induction endpoints generalizing n server with
  | nil => simp [registerFrom]
  | cons endpoint rest ih =>
    rcases registerFrom_cons lib opts si fail n endpoint rest server with
      ⟨hfail, err, heq⟩ | ⟨hok, key, registration, -, heq⟩
    · rw [heq]
      refine iff_of_false (by simp) fun hall => ?_
      have hzero := hall 0 endpoint rfl
      rw [Nat.add_zero, hfail] at hzero
      cases hzero
    · rw [heq _ rfl, ih]
      constructor
      · intro hall k
        cases k with
        | zero => simpa using hok
        | succ k => simpa [Nat.add_assoc, Nat.add_comm 1 k] using hall k
      · intro hall k
        simpa [Nat.add_assoc, Nat.add_comm 1 k] using hall (k + 1)

theorem registerFrom_made_iff (endpoints : List String) (server : Server F) :
    (registerFrom lib opts si fail n endpoints server).made = [] ↔
      ∀ endpoint, endpoints.head? = some endpoint → succeeds lib opts si fail n endpoint = false := by
  cases endpoints with
  | nil => simp [registerFrom]
  | cons endpoint rest =>
    rcases registerFrom_cons lib opts si fail n endpoint rest server with
      ⟨hfail, err, heq⟩ | ⟨hok, key, registration, -, heq⟩
    · simp [heq, hfail]
    · simp [heq _ rfl, hok]

/-- nothing is removed -/
theorem registerFrom_registered (endpoints : List String) (server : Server F) {k : Key}
    (hk : k ∈ (registerFrom lib opts si fail n endpoints server).made ∨ server k ≠ none) :
    (registerFrom lib opts si fail n endpoints server).server k ≠ none := by
  induction endpoints generalizing n server with
  | nil => exact hk.resolve_left List.not_mem_nil
  | cons endpoint rest ih =>
    rcases registerFrom_cons lib opts si fail n endpoint rest server with
      ⟨hfail, err, heq⟩ | ⟨hok, key, registration, -, heq⟩
    · rw [heq] at hk ⊢
      exact hk.resolve_left List.not_mem_nil
    · rw [heq _ rfl] at hk ⊢
      refine ih _ _ ?_
      by_cases hkey : k = key
      · simp [hkey]
      · simpa [hkey] using hk

/-- **Both loops derive the same keys.** -/
theorem deregisterParam_eq (endpoint : String) :
    deregisterParam lib opts si endpoint = (registerParam lib opts si endpoint).map Prod.fst := by
  unfold deregisterParam registerParam
  cases lib.parse endpoint with
  | error err => rfl
  | ok u =>
    dsimp only
    cases lib.splitHostPort u.host with
    | error err => rfl
    | ok hp =>
      dsimp only
      cases lib.atoi hp.2 with
      | error err | ok p => rfl

/-- **What was made is removed**, from any server, and nothing else. -/
theorem deregisterFrom_made (n m : ℕ) (endpoints : List String) (server after : Server F)
    (h : (registerFrom lib opts si fail n endpoints server).err = none) :
    deregisterFrom lib opts si (fun _ => none) m endpoints after =
      (fun k => if k ∈ (registerFrom lib opts si fail n endpoints server).made then none else after k, none) := by
  induction endpoints generalizing n m server after with
  | nil => simp [registerFrom, deregisterFrom]
  | cons endpoint rest ih =>
    rcases registerFrom_cons lib opts si fail n endpoint rest server with
      ⟨hfail, err, heq⟩ | ⟨hok, key, registration, hparam, heq⟩
    · rw [heq] at h
      cases h
    · rw [heq _ rfl] at h ⊢
      simp only [deregisterFrom, deregisterParam_eq, hparam, Except.map]
      rw [ih _ _ _ _ h]
      refine Prod.ext (funext fun k => ?_) rfl
      by_cases hk : k = key <;> simp [hk]

variable {lib opts si fail} in
theorem allOrNothing_registerFrom_iff (server : Server F) :
    AllOrNothing lib opts si (registerFrom lib opts si fail 0 si.endpoints server) ↔
      (registerFrom lib opts si fail 0 si.endpoints server).err = none ∨
      (registerFrom lib opts si fail 0 si.endpoints server).made = [] := by
  constructor
  · intro h
    by_contra hnot
    rw [not_or] at hnot
    obtain ⟨k, hk⟩ := List.exists_mem_of_ne_nil _ hnot.2
    exact registerFrom_registered lib opts si fail 0 si.endpoints server (.inl hk) (h.nothing hnot.1 k hk)
  · rintro (herr | hmade)
    · exact ⟨fun hne => absurd herr hne, deregisterFrom_made lib opts si fail 0 0 si.endpoints server _⟩
    · refine ⟨fun _ k hk => ?_, deregisterFrom_made lib opts si fail 0 0 si.endpoints server _⟩
      rw [hmade] at hk
      cases hk

end

/-- **When registration is all or nothing.** An error leaves nothing registered by the call, and without one Deregister
removes exactly what was registered, if and only if nothing is tried, no endpoint fails, or the first one does. -/
theorem allOrNothing_iff (lib : Library F) (opts : Options F) (si : Instance) (fail : ℕ → Option GoError)
    (server : Server F) : AllOrNothing lib opts si (register lib opts si fail server) ↔ Clean lib opts si fail := by
  rw [register, Clean]
  split_ifs with hname
  · exact iff_of_true ⟨fun _ k hk => (by cases hk), fun h => (by cases h)⟩ (Or.inl hname)
  · rw [allOrNothing_registerFrom_iff, registerFrom_err_iff, registerFrom_made_iff]
    simp only [hname, false_or, Nat.zero_add]
    refine or_congr_right' fun hsome => ?_
    cases hendpoints : si.endpoints with
    | nil => simp [hendpoints] at hsome
    | cons endpoint rest => simp

def urlLibrary : Library Unit where
  parse raw :=
    match Url.parse (fun _ => false) raw.toList with
    | some u => .ok ⟨String.ofList u.scheme, String.ofList u.host⟩
    | none => .error ⟨"parse"⟩
  splitHostPort hostport :=
    match Url.splitHostPort hostport.toList with
    | some (host, port) => .ok (String.ofList host, String.ofList port)
    | none => .error ⟨"split"⟩
  atoi s := if s ≠ "" ∧ s.toList.all Char.isDigit then .ok (Nat.ofDigitChars 10 s.toList 0) else .error ⟨"atoi"⟩
  parseFloat _ := none

/-- **Partly registered.** The server fails for the second of two endpoints, and the first one stays registered. -/
theorem partly_registered :
    let r := register urlLibrary ⟨(), "DEFAULT", "DEFAULT_GROUP"⟩
      ⟨"web", "v1", none, ["http://10.0.0.1:80", "grpc://10.0.0.1:81"]⟩
      (fun n => if n = 1 then some ⟨"timeout"⟩ else none) fun _ => none
    r.err = some ⟨"RegisterInstance err timeout,grpc://10.0.0.1:81"⟩ ∧
    r.made = [⟨"10.0.0.1", 80, "web.http", "DEFAULT", "DEFAULT_GROUP", true⟩] ∧
    ∀ k ∈ r.made, (r.server k).isSome = true := by
  refine ⟨by decide, by decide, by decide⟩

end LuluExt.NacosRegister
