/-
The metadata interceptors of gRPC: what a client puts on the wire and what the handler of the server reads.

The client appends the values of the configured keys, and then the constants, to the metadata that are already going
out. The transport sends them in order, with the keys in lower case. The server stores the first value of each
configured key. Keys of the context are compared as they are, keys of the metadata in lower case: what was appended
before under any spelling of a key comes first.

`lower` is strings.ToLower; nothing is assumed of it. The constants are a map, which is iterated in some order.

Results: `fromContext_extract`, `fromContext_rpc`, `propagates_iff`.
-/
import LuluExt.Lib.Assoc
import Mathlib.Data.List.AList

open scoped List

namespace LuluExt.GrpcMetadata

open Assoc

abbrev Pairs := List (String × String)

structure Context where
  /-- what `WithMetadata` has stored, the latest first -/
  values : Pairs
  outgoing : Pairs
  /-- none where nothing came in -/
  incoming : Option Pairs

structure Options where
  keys : List String
  constantMD : AList fun _ : String => String

inductive Opt where
  | withKeys (keys : List String)
  | withConstant (kv : AList fun _ : String => String)

def Opt.apply (o : Options) : Opt → Options
  | .withKeys keys => { o with keys := o.keys ++ keys }
  | .withConstant kv => { o with constantMD := kv ∪ o.constantMD }

def newConfig (opts : List Opt) : Options := opts.foldl Opt.apply ⟨[], ∅⟩

structure Constants (cfg : Options) where
  pairs : Pairs
  perm : pairs ~ cfg.constantMD.entries.map fun e => (e.1, e.2)

/-! ## The context -/

def withMetadata (ctx : Context) (key value : String) : Context := { ctx with values := (key, value) :: ctx.values }

def fromContext (ctx : Context) (key : String) : String := (ctx.values.lookup key).getD ""

section

variable (lower : String → String)

def get (md : Pairs) (key : String) : List String := values md (lower key)

def extractKey (md : Pairs) (ctx : Context) (key : String) : Context :=
  match get lower md key with
  | [] => ctx
  | value :: _ => withMetadata ctx key value

def extractToContext (ctx : Context) (keys : List String) : Context :=
  match ctx.incoming with
  | none => ctx
  | some md => keys.foldl (extractKey lower md) ctx

def contextPairs (ctx : Context) (keys : List String) : Pairs :=
  (keys.filter fun key => fromContext ctx key ≠ "").map fun key => (key, fromContext ctx key)

def injectFromContext (ctx : Context) (cfg : Options) (constants : Constants cfg) : Context :=
  if (contextPairs ctx cfg.keys ++ constants.pairs).length > 0 then
    { ctx with outgoing := ctx.outgoing ++ (contextPairs ctx cfg.keys ++ constants.pairs) }
  else ctx

/-- what the transport makes of outgoing metadata -/
def transmit (md : Pairs) : Pairs := md.map fun x => (lower x.1, x.2)

/-- the context of the server's handler: `base` is the one that the server starts from, `keys` are its own -/
def rpc (ctx : Context) (cfg : Options) (constants : Constants cfg) (base : Context) (keys : List String) : Context :=
  extractToContext lower
    { base with incoming := some (transmit lower (injectFromContext ctx cfg constants).outgoing) } keys

/-! ## What is expected -/

/-- the configured keys that have a value and are sent under the spelling of `key` -/
def spellings (cfg : Options) (ctx : Context) (key : String) : List String :=
  cfg.keys.filter fun k => fromContext ctx k ≠ "" ∧ lower k = lower key

/-- the first value that goes out under a spelling of the key already is the client's; without one, that of the first
configured key of the same spelling is -/
structure Unshadowed (cfg : Options) (ctx : Context) (key : String) : Prop where
  outgoing : ∀ v rest, get lower (transmit lower ctx.outgoing) key = v :: rest → v = fromContext ctx key
  keys : get lower (transmit lower ctx.outgoing) key = [] → ∀ key' rest,
    spellings lower cfg ctx key = key' :: rest → fromContext ctx key' = fromContext ctx key

/-! ## The server -/

theorem fromContext_withMetadata (ctx : Context) (key value key' : String) :
    fromContext (withMetadata ctx key value) key' = if key' = key then value else fromContext ctx key' := by
  unfold fromContext withMetadata
  rw [List.lookup_cons]
  split_ifs with h
  · rw [beq_iff_eq.2 h]
    rfl
  · rw [beq_eq_false_iff_ne.2 h]

theorem fromContext_extractKey (md : Pairs) (ctx : Context) (key key' : String) :
    fromContext (extractKey lower md ctx key) key' =
      if key' = key then (get lower md key').head?.getD (fromContext ctx key') else fromContext ctx key' := by
  unfold extractKey
  split
  next hget =>
    split_ifs with h
    · rw [h, hget]
      rfl
    · rfl
  next value rest hget =>
    rw [fromContext_withMetadata]
    split_ifs with h
    · rw [h, hget]
      rfl
    · rfl

/-- **The handler reads the first value that came** for a key of its own. -/
theorem fromContext_extract {md : Pairs} {key value : String} {rest : List String}
    (hget : get lower md key = value :: rest) {keys : List String} (hkey : key ∈ keys) (ctx : Context) :
    fromContext (keys.foldl (extractKey lower md) ctx) key = value := by
  -- once it is stored, later turns store the same value again or leave it
  have hkept : ∀ (keys : List String) (ctx : Context), fromContext ctx key = value →
      fromContext (keys.foldl (extractKey lower md) ctx) key = value := by
    intro keys
    induction keys with
    | nil => exact fun _ h => h
    | cons k keys ih =>
      intro ctx h
      apply ih
      rw [fromContext_extractKey]
      split_ifs
      · rw [hget]
        rfl
      · exact h
  induction keys generalizing ctx with
  | nil => cases hkey
  | cons k keys ih =>
    rw [List.foldl_cons]
    rcases List.mem_cons.1 hkey with rfl | hkey
    · apply hkept
      rw [fromContext_extractKey, if_pos rfl, hget]
      rfl
    · exact ih hkey _

/-! ## The wire -/

theorem get_append (a b : Pairs) (key : String) :
    get lower (transmit lower (a ++ b)) key = get lower (transmit lower a) key ++ get lower (transmit lower b) key := by
  simp [get, values, transmit]

theorem outgoing_inject (ctx : Context) (cfg : Options) (constants : Constants cfg) :
    (injectFromContext ctx cfg constants).outgoing =
      ctx.outgoing ++ (contextPairs ctx cfg.keys ++ constants.pairs) := by
  unfold injectFromContext
  split_ifs with h
  · rfl
  · have hnil : contextPairs ctx cfg.keys ++ constants.pairs = [] := List.length_eq_zero_iff.1 (by omega)
    rw [hnil, List.append_nil]

theorem get_contextPairs (cfg : Options) (ctx : Context) (key : String) :
    get lower (transmit lower (contextPairs ctx cfg.keys)) key =
      (spellings lower cfg ctx key).map (fromContext ctx) := by
  unfold spellings
  induction cfg.keys with
  | nil => rfl
  | cons k keys ih =>
    have hcons : contextPairs ctx (k :: keys) =
        (if fromContext ctx k ≠ "" then [(k, fromContext ctx k)] else []) ++ contextPairs ctx keys := by
      by_cases hvalue : fromContext ctx k = ""
      · simp [contextPairs, hvalue]
      · simp [contextPairs, hvalue]
    rw [hcons, get_append, ih]
    by_cases hvalue : fromContext ctx k = ""
    · simp [hvalue, get, values, transmit]
    · by_cases hlower : lower k = lower key
      · simp [hvalue, hlower, get, values, transmit]
      · simp [hlower, get, values, transmit]

section

variable {ctx : Context} {cfg : Options} {key : String}

theorem spellings_ne_nil (hclient : key ∈ cfg.keys) (hvalue : fromContext ctx key ≠ "") :
    spellings lower cfg ctx key ≠ [] := by
  refine List.ne_nil_of_mem (a := key) ?_
  rw [spellings, List.mem_filter]
  exact ⟨hclient, decide_eq_true ⟨hvalue, rfl⟩⟩

/-- what goes out for a key: what did already, then the configured keys, then the constants -/
theorem get_inject (ctx : Context) {cfg : Options} (constants : Constants cfg) (key : String) :
    get lower (transmit lower (injectFromContext ctx cfg constants).outgoing) key =
      get lower (transmit lower ctx.outgoing) key ++ (spellings lower cfg ctx key).map (fromContext ctx) ++
        get lower (transmit lower constants.pairs) key := by
  rw [outgoing_inject, get_append, get_append, get_contextPairs, List.append_assoc]

variable (constants : Constants cfg)

/-- **What the handler reads** for a key of both sides that has a value at the client: the first value going out before
the call, or else that of the first configured key of the same spelling. -/
theorem fromContext_rpc (base : Context) {keys : List String} (hclient : key ∈ cfg.keys)
    (hserver : key ∈ keys) (hvalue : fromContext ctx key ≠ "") :
    (get lower (transmit lower ctx.outgoing) key ++ (spellings lower cfg ctx key).map (fromContext ctx)).head? =
      some (fromContext (rpc lower ctx cfg constants base keys) key) := by
  have hsent := get_inject lower ctx constants key
  have hne : get lower (transmit lower ctx.outgoing) key ++
      (spellings lower cfg ctx key).map (fromContext ctx) ≠ [] := by
    simp [spellings_ne_nil lower hclient hvalue]
  obtain ⟨v, rest, hcons⟩ := List.exists_cons_of_ne_nil hne
  rw [hcons] at hsent
  rw [hcons, List.head?_cons, rpc, extractToContext, fromContext_extract lower hsent hserver]

/-- **A key arrives exactly when** nothing that goes out before it has another value. -/
theorem arrives_iff (base : Context) {keys : List String} (hclient : key ∈ cfg.keys)
    (hserver : key ∈ keys) (hvalue : fromContext ctx key ≠ "") :
    fromContext (rpc lower ctx cfg constants base keys) key = fromContext ctx key ↔ Unshadowed lower cfg ctx key := by
  have hread := fromContext_rpc lower constants base hclient hserver hvalue
  cases hout : get lower (transmit lower ctx.outgoing) key with
  | nil =>
    obtain ⟨key', rest, hkeys⟩ := List.exists_cons_of_ne_nil (spellings_ne_nil lower hclient hvalue)
    rw [hout, hkeys, List.nil_append, List.map_cons, List.head?_cons, Option.some.injEq] at hread
    rw [← hread]
    constructor
    · intro h
      refine ⟨?_, ?_⟩
      · intro v rest hv
        rw [hout] at hv
        cases hv
      · intro _ key'' rest' hkeys'
        rw [hkeys, List.cons.injEq] at hkeys'
        rw [← hkeys'.1]
        exact h
    · intro h
      exact h.keys hout key' rest hkeys
  | cons v rest =>
    rw [hout, List.cons_append, List.head?_cons, Option.some.injEq] at hread
    rw [← hread]
    constructor
    · intro h
      refine ⟨?_, ?_⟩
      · intro v' rest' hv
        rw [hout, List.cons.injEq] at hv
        rw [← hv.1]
        exact h
      · intro hnil
        rw [hout] at hnil
        cases hnil
    · intro h
      exact h.outgoing v rest hout

end

/-- **When metadata are propagated.** Each configured key with a value at the client has the same value at the handler,
if and only if nothing that goes out before it under a spelling of the key has another value. -/
theorem propagates_iff (opts : List Opt) (ctx : Context) (constants : Constants (newConfig opts)) (base : Context)
    (keys : List String) :
    (∀ key ∈ (newConfig opts).keys, key ∈ keys → fromContext ctx key ≠ "" →
      fromContext (rpc lower ctx (newConfig opts) constants base keys) key = fromContext ctx key) ↔
    ∀ key ∈ (newConfig opts).keys, key ∈ keys → fromContext ctx key ≠ "" →
      Unshadowed lower (newConfig opts) ctx key := by
  constructor
  · intro h key hclient hserver hvalue
    exact (arrives_iff lower constants base hclient hserver hvalue).1 (h key hclient hserver hvalue)
  · intro h key hclient hserver hvalue
    exact (arrives_iff lower constants base hclient hserver hvalue).2 (h key hclient hserver hvalue)

end

def toLower (s : String) : String := String.ofList (s.toList.map Char.toLower)

def noConstants (keys : List String) : Constants (newConfig [.withKeys keys]) := ⟨[], .refl _⟩

/-- **Values that do not arrive**: a context whose tenant is b but with tenant a already going out, as in a service that
forwards what it received, and two keys that differ in their spelling. -/
theorem shadowed :
    fromContext ⟨[("tenant", "b")], [("tenant", "a")], none⟩ "tenant" = "b" ∧
    fromContext (rpc toLower ⟨[("tenant", "b")], [("tenant", "a")], none⟩ (newConfig [.withKeys ["tenant"]])
      (noConstants ["tenant"]) ⟨[], [], none⟩ ["tenant"]) "tenant" = "a" ∧
    fromContext (rpc toLower ⟨[("Tenant", "b"), ("tenant", "a")], [], none⟩ (newConfig [.withKeys ["tenant", "Tenant"]])
      (noConstants ["tenant", "Tenant"]) ⟨[], [], none⟩ ["tenant", "Tenant"]) "Tenant" = "a" := by
  refine ⟨by decide, by decide, by decide⟩

end LuluExt.GrpcMetadata
