/-
The Redis connection of the asynq server: which option selects it, and which parameters it gets.

Parameters are stored apart from the connection and written into it by `applyRedisOptions`, when all options have been
applied. A connection is a pointer to an option of one of three kinds, or such an option itself. For a pointer the
parameters are written into what it points to. For a value they are written into the copy that the type switch makes,
and are lost. `WithRedisURI` always gives a value.

A memory holds what pointers point to: cells of the caller (`given`), cells that the options allocate (`fresh`) and the
copy. Pointers are not nil. ParseRedisURI is a parameter; a URI that it rejects, or an unknown type of connection, is a
panic. The client, the server and the scheduler are made with the same connection.

Results: `honours_update`, `used_applyRedisOptions`, `honoured_iff`, `parameters_lost`.
-/
import Mathlib.Tactic

namespace LuluExt.AsynqRedis

structure RedisClientOpt where
  network : String := ""
  addr : String := ""
  username : String := ""
  password : String := ""
  db : ℤ := 0
  dialTimeout : ℤ := 0
  readTimeout : ℤ := 0
  writeTimeout : ℤ := 0
  poolSize : ℤ := 0
  /-- which configuration, if any -/
  tlsConfig : Option ℕ := none
deriving DecidableEq, Repr

structure RedisClusterClientOpt where
  addrs : List String := []
  maxRedirects : ℤ := 0
  username : String := ""
  password : String := ""
  dialTimeout : ℤ := 0
  readTimeout : ℤ := 0
  writeTimeout : ℤ := 0
  tlsConfig : Option ℕ := none
deriving DecidableEq, Repr

structure RedisFailoverClientOpt where
  masterName : String := ""
  sentinelAddrs : List String := []
  sentinelUsername : String := ""
  sentinelPassword : String := ""
  username : String := ""
  password : String := ""
  db : ℤ := 0
  dialTimeout : ℤ := 0
  readTimeout : ℤ := 0
  writeTimeout : ℤ := 0
  poolSize : ℤ := 0
  tlsConfig : Option ℕ := none
deriving DecidableEq, Repr

inductive Redis where
  | client (opt : RedisClientOpt)
  | cluster (opt : RedisClusterClientOpt)
  | failover (opt : RedisFailoverClientOpt)
deriving DecidableEq, Repr

structure Params where
  addresses : List String := []
  username : Option String := none
  password : Option String := none
  db : Option ℤ := none
  poolSize : Option ℤ := none
  dialTimeout : Option ℤ := none
  readTimeout : Option ℤ := none
  writeTimeout : Option ℤ := none
  tlsConfig : Option ℕ := none
  maxRedirects : Option ℤ := none
  masterName : Option String := none
  sentinelUsername : Option String := none
  sentinelPassword : Option String := none
  network : Option String := none

inductive Addr where
  | given (id : ℕ)
  | fresh (n : ℕ)
  /-- the variable of the type switch -/
  | copy
deriving DecidableEq, Repr

inductive ConnOpt where
  | pointer (addr : Addr)
  | value (redis : Redis)
  | other
deriving DecidableEq, Repr

structure Server where
  memory : Addr → Redis
  allocated : ℕ
  redisConnOpt : ConnOpt
  params : Params

/-! ## Options -/

inductive Opt where
  | redisType (redisType : String)
  | redisConnOpt (connOpt : ConnOpt)
  | redisURI (uri : String)
  | redisAddress (address : String)
  | redisAddresses (addresses : List String)
  | redisUsername (username : String)
  | redisPassword (password : String)
  | redisAuth (username password : String)
  | redisDB (db : ℤ)
  | redisPoolSize (size : ℤ)
  | dialTimeout (timeout : ℤ)
  | readTimeout (timeout : ℤ)
  | writeTimeout (timeout : ℤ)
  | tlsConfig (config : Option ℕ)
  | maxRedirects (n : Option ℤ)
  | masterName (name : Option String)
  | sentinelUsername (username : Option String)
  | sentinelPassword (password : Option String)
  | sentinelAuth (username password : Option String)
  | network (kind : Option String)

def defaultRedisAddress : String := "127.0.0.1:6379"

def newRedisClientOpt : Redis := .client { addr := defaultRedisAddress, db := 0 }

def newRedisClusterClientOpt : Redis := .cluster { addrs := [defaultRedisAddress] }

def newRedisFailoverClientOpt : Redis :=
  .failover { masterName := "mymaster", sentinelAddrs := [defaultRedisAddress], db := 0 }

def Server.allocate (s : Server) (redis : Redis) : Server where
  memory := Function.update s.memory (.fresh s.allocated) redis
  allocated := s.allocated + 1
  redisConnOpt := .pointer (.fresh s.allocated)
  params := s.params

def Opt.set (p : Params) : Opt → Params
  | .redisType _ => p
  | .redisConnOpt _ => p
  | .redisURI _ => p
  | .redisAddress address => { p with addresses := [address] }
  | .redisAddresses addresses => { p with addresses := addresses }
  | .redisUsername username => { p with username := some username }
  | .redisPassword password => { p with password := some password }
  | .redisAuth username password => { p with username := some username, password := some password }
  | .redisDB db => { p with db := some db }
  | .redisPoolSize size => { p with poolSize := some size }
  | .dialTimeout timeout => { p with dialTimeout := some timeout }
  | .readTimeout timeout => { p with readTimeout := some timeout }
  | .writeTimeout timeout => { p with writeTimeout := some timeout }
  | .tlsConfig config => { p with tlsConfig := config }
  | .maxRedirects n => { p with maxRedirects := n }
  | .masterName name => { p with masterName := name }
  | .sentinelUsername username => { p with sentinelUsername := username }
  | .sentinelPassword password => { p with sentinelPassword := password }
  | .sentinelAuth username password => { p with sentinelUsername := username, sentinelPassword := password }
  | .network kind => { p with network := kind }

/-- an option of the server; none is its panic -/
def Opt.apply (parseRedisURI : String → Option Redis) (s : Server) : Opt → Option Server
  | .redisType "single" => some (s.allocate newRedisClientOpt)
  | .redisType "cluster" => some (s.allocate newRedisClusterClientOpt)
  | .redisType "sentinel" => some (s.allocate newRedisFailoverClientOpt)
  | .redisType _ => none
  | .redisConnOpt connOpt => some { s with redisConnOpt := connOpt }
  | .redisURI uri => (parseRedisURI uri).map fun redis => { s with redisConnOpt := .value redis }
  | opt => some { s with params := opt.set s.params }

/-! ## The parameters are written -/

def updateRedisClientOpt (p : Params) (opt : RedisClientOpt) : RedisClientOpt where
  username := p.username.getD opt.username
  password := p.password.getD opt.password
  db := p.db.getD opt.db
  addr := p.addresses.head?.getD opt.addr
  poolSize := p.poolSize.getD opt.poolSize
  dialTimeout := p.dialTimeout.getD opt.dialTimeout
  readTimeout := p.readTimeout.getD opt.readTimeout
  writeTimeout := p.writeTimeout.getD opt.writeTimeout
  tlsConfig := p.tlsConfig.or opt.tlsConfig
  network := p.network.getD opt.network

def updateRedisClusterClientOpt (p : Params) (opt : RedisClusterClientOpt) : RedisClusterClientOpt where
  username := p.username.getD opt.username
  password := p.password.getD opt.password
  addrs := if p.addresses.length > 0 then p.addresses else opt.addrs
  dialTimeout := p.dialTimeout.getD opt.dialTimeout
  readTimeout := p.readTimeout.getD opt.readTimeout
  writeTimeout := p.writeTimeout.getD opt.writeTimeout
  tlsConfig := p.tlsConfig.or opt.tlsConfig
  maxRedirects := p.maxRedirects.getD opt.maxRedirects

def updateRedisFailoverClientOpt (p : Params) (opt : RedisFailoverClientOpt) : RedisFailoverClientOpt where
  username := p.username.getD opt.username
  password := p.password.getD opt.password
  db := p.db.getD opt.db
  sentinelAddrs := if p.addresses.length > 0 then p.addresses else opt.sentinelAddrs
  poolSize := p.poolSize.getD opt.poolSize
  dialTimeout := p.dialTimeout.getD opt.dialTimeout
  readTimeout := p.readTimeout.getD opt.readTimeout
  writeTimeout := p.writeTimeout.getD opt.writeTimeout
  tlsConfig := p.tlsConfig.or opt.tlsConfig
  masterName := p.masterName.getD opt.masterName
  sentinelUsername := p.sentinelUsername.getD opt.sentinelUsername
  sentinelPassword := p.sentinelPassword.getD opt.sentinelPassword

def Redis.update (p : Params) : Redis → Redis
  | .client opt => .client (updateRedisClientOpt p opt)
  | .cluster opt => .cluster (updateRedisClusterClientOpt p opt)
  | .failover opt => .failover (updateRedisFailoverClientOpt p opt)

def Server.updateAt (s : Server) (addr : Addr) : Server :=
  { s with memory := Function.update s.memory addr ((s.memory addr).update s.params) }

def Server.applyRedisOptions (s : Server) : Server :=
  match s.redisConnOpt with
  | .pointer addr => s.updateAt addr
  | .value redis => { s with memory := Function.update s.memory .copy redis }.updateAt .copy
  | .other => s

/-- `NewServer` in a memory of the caller, up to the connection -/
def newServer (parseRedisURI : String → Option Redis) (memory : Addr → Redis) (opts : List Opt) : Option Server :=
  (opts.foldlM (Opt.apply parseRedisURI) (Server.allocate ⟨memory, 0, .other, {}⟩ newRedisClientOpt)).map
    Server.applyRedisOptions

/-- the connection that the client, the server and the scheduler are made with, if it is of a known kind -/
def Server.used (s : Server) : Option Redis :=
  match s.redisConnOpt with
  | .pointer addr => some (s.memory addr)
  | .value redis => some redis
  | .other => none

/-! ## What is expected -/

def explicit (opts : List Opt) : Params := opts.foldl Opt.set {}

def Has {α : Type} (param : Option α) (value : α) : Prop := ∀ v, param = some v → value = v

structure ClientHonours (p : Params) (opt : RedisClientOpt) : Prop where
  network : Has p.network opt.network
  /-- a single node has the first address -/
  addr : Has p.addresses.head? opt.addr
  username : Has p.username opt.username
  password : Has p.password opt.password
  db : Has p.db opt.db
  dialTimeout : Has p.dialTimeout opt.dialTimeout
  readTimeout : Has p.readTimeout opt.readTimeout
  writeTimeout : Has p.writeTimeout opt.writeTimeout
  poolSize : Has p.poolSize opt.poolSize
  tlsConfig : ∀ config, p.tlsConfig = some config → opt.tlsConfig = some config

structure ClusterHonours (p : Params) (opt : RedisClusterClientOpt) : Prop where
  addrs : p.addresses ≠ [] → opt.addrs = p.addresses
  maxRedirects : Has p.maxRedirects opt.maxRedirects
  username : Has p.username opt.username
  password : Has p.password opt.password
  dialTimeout : Has p.dialTimeout opt.dialTimeout
  readTimeout : Has p.readTimeout opt.readTimeout
  writeTimeout : Has p.writeTimeout opt.writeTimeout
  tlsConfig : ∀ config, p.tlsConfig = some config → opt.tlsConfig = some config

structure FailoverHonours (p : Params) (opt : RedisFailoverClientOpt) : Prop where
  masterName : Has p.masterName opt.masterName
  sentinelAddrs : p.addresses ≠ [] → opt.sentinelAddrs = p.addresses
  sentinelUsername : Has p.sentinelUsername opt.sentinelUsername
  sentinelPassword : Has p.sentinelPassword opt.sentinelPassword
  username : Has p.username opt.username
  password : Has p.password opt.password
  db : Has p.db opt.db
  dialTimeout : Has p.dialTimeout opt.dialTimeout
  readTimeout : Has p.readTimeout opt.readTimeout
  writeTimeout : Has p.writeTimeout opt.writeTimeout
  poolSize : Has p.poolSize opt.poolSize
  tlsConfig : ∀ config, p.tlsConfig = some config → opt.tlsConfig = some config

/-- every parameter that is set and that the kind supports has its value -/
def Redis.Honours (p : Params) : Redis → Prop
  | .client opt => ClientHonours p opt
  | .cluster opt => ClusterHonours p opt
  | .failover opt => FailoverHonours p opt

/-- the option value that an option selects instead of the one before -/
def Opt.choose (parseRedisURI : String → Option Redis) (chosen : Option Redis) : Opt → Option Redis
  | .redisType _ => none
  | .redisConnOpt (.value redis) => some redis
  | .redisConnOpt _ => none
  | .redisURI uri => parseRedisURI uri
  | _ => chosen

/-- the option value that is used, if the last option that selects the connection gives one -/
def chosenValue (parseRedisURI : String → Option Redis) (opts : List Opt) : Option Redis :=
  opts.foldl (Opt.choose parseRedisURI) none

/-! ## Proofs -/

theorem has_getD {α : Type} (param : Option α) (value : α) : Has param (param.getD value) := by
  rintro v rfl
  rfl

theorem tls_or (param config : Option ℕ) : ∀ v, param = some v → param.or config = some v := by
  rintro v rfl
  rfl

theorem addrs_ite (addresses addrs : List String) :
    addresses ≠ [] → (if addresses.length > 0 then addresses else addrs) = addresses := by
  intro h
  exact if_pos (List.length_pos_iff.2 h)

/-- **What was written is there**, for each kind. -/
theorem honours_update (p : Params) (redis : Redis) : (redis.update p).Honours p := by
  cases redis with
  | client opt =>
    exact ⟨has_getD _ _, has_getD _ _, has_getD _ _, has_getD _ _, has_getD _ _, has_getD _ _, has_getD _ _,
      has_getD _ _, has_getD _ _, tls_or _ _⟩
  | cluster opt =>
    exact ⟨addrs_ite _ _, has_getD _ _, has_getD _ _, has_getD _ _, has_getD _ _, has_getD _ _, has_getD _ _,
      tls_or _ _⟩
  | failover opt =>
    exact ⟨has_getD _ _, addrs_ite _ _, has_getD _ _, has_getD _ _, has_getD _ _, has_getD _ _, has_getD _ _,
      has_getD _ _, has_getD _ _, has_getD _ _, has_getD _ _, tls_or _ _⟩

/-- **Which connection gets the parameters**: one behind a pointer, and no value. -/
theorem used_applyRedisOptions (s : Server) : s.applyRedisOptions.used =
    match s.redisConnOpt with
    | .pointer addr => some ((s.memory addr).update s.params)
    | .value redis => some redis
    | .other => none := by
  unfold Server.applyRedisOptions Server.used
  cases hconn : s.redisConnOpt with
  | pointer addr => simp [Server.updateAt, hconn]
  | value redis => simp [Server.updateAt]
  | other => simp [hconn]

def ConnOpt.value? : ConnOpt → Option Redis
  | .value redis => some redis
  | _ => none

theorem apply_eq_some {parse : String → Option Redis} {s s' : Server} {opt : Opt} (h : opt.apply parse s = some s') :
    s'.params = opt.set s.params ∧ s'.redisConnOpt.value? = opt.choose parse s.redisConnOpt.value? := by
  unfold Opt.apply at h
  split at h
  next =>
    cases h
    exact ⟨rfl, rfl⟩
  next =>
    cases h
    exact ⟨rfl, rfl⟩
  next =>
    cases h
    exact ⟨rfl, rfl⟩
  next => cases h
  next connOpt =>
    cases h
    cases connOpt <;> exact ⟨rfl, rfl⟩
  next uri =>
    obtain ⟨redis, hredis, rfl⟩ := Option.map_eq_some_iff.1 h
    exact ⟨rfl, hredis.symm⟩
  next hother =>
    cases h
    refine ⟨rfl, ?_⟩
    cases opt <;> first | rfl | simp_all

/-- a whole list of options: the parameters are those that were set, and a value is used if one was chosen -/
theorem foldlM_apply {parse : String → Option Redis} (opts : List Opt) {s s' : Server}
    (h : opts.foldlM (Opt.apply parse) s = some s') :
    s'.params = opts.foldl Opt.set s.params ∧
      s'.redisConnOpt.value? = opts.foldl (Opt.choose parse) s.redisConnOpt.value? := by
  induction opts generalizing s with
  | nil =>
    cases h
    exact ⟨rfl, rfl⟩
  | cons opt opts ih =>
    obtain ⟨mid, hmid, hrest⟩ := Option.bind_eq_some_iff.1 h
    obtain ⟨hparams, hvalue⟩ := apply_eq_some hmid
    rw [List.foldl_cons, List.foldl_cons, ← hparams, ← hvalue]
    exact ih hrest

/-- **Explicit parameters are honoured** exactly if the last option that selects the connection gives no option value,
or one that has them all on its own. Behind a pointer they always are, whatever the order of the options. -/
theorem honoured_iff (parse : String → Option Redis) (memory : Addr → Redis) (opts : List Opt) (server : Server)
    (hnew : newServer parse memory opts = some server) :
    (∀ redis, server.used = some redis → redis.Honours (explicit opts)) ↔
      ∀ redis, chosenValue parse opts = some redis → redis.Honours (explicit opts) := by
  obtain ⟨s, hs, rfl⟩ := Option.map_eq_some_iff.1 hnew
  obtain ⟨hparams, hvalue⟩ := foldlM_apply opts hs
  have hexplicit : s.params = explicit opts := hparams
  have hchosen : s.redisConnOpt.value? = chosenValue parse opts := hvalue
  rw [used_applyRedisOptions, ← hchosen, hexplicit]
  cases s.redisConnOpt with
  | pointer addr =>
    constructor
    · intro _ redis h
      cases h
    · rintro _ redis ⟨⟩
      exact honours_update _ _
  | value redis => exact Iff.rfl
  | other => simp [ConnOpt.value?]

def parseCache (uri : String) : Option Redis :=
  if uri = "redis://cache:6379" then some (.client { addr := "cache:6379" }) else none

theorem honoured_behind_pointer : ∃ server,
    newServer parseCache (fun _ => newRedisClientOpt)
        [.redisPassword "secret", .redisURI "redis://cache:6379", .redisType "cluster"] = some server ∧
      ∀ redis, server.used = some redis →
        redis.Honours (explicit [.redisPassword "secret", .redisURI "redis://cache:6379", .redisType "cluster"]) := by
  refine ⟨_, rfl, ?_⟩
  apply (honoured_iff parseCache (fun _ => newRedisClientOpt) _ _ rfl).2
  intro redis h
  cases h

/-- The connection of a URI is used without the password that was set. -/
theorem parameters_lost :
    (newServer parseCache (fun _ => newRedisClientOpt)
        [.redisURI "redis://cache:6379", .redisPassword "secret"]).bind Server.used =
      some (.client { addr := "cache:6379" }) ∧
    (explicit [.redisURI "redis://cache:6379", .redisPassword "secret"]).password = some "secret" ∧
    ¬ (Redis.client { addr := "cache:6379" }).Honours
        (explicit [.redisURI "redis://cache:6379", .redisPassword "secret"]) := by
  refine ⟨rfl, rfl, ?_⟩
  intro h
  have hpassword := ClientHonours.password h "secret" rfl
  exact absurd hpassword (by decide)

end LuluExt.AsynqRedis
