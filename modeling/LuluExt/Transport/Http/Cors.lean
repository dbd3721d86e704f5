/-
The CORS middleware of the HTTP server.

A request with an allowed origin gets the `Access-Control-*` headers with its own origin in them; without configured
origins every origin is allowed. `Vary` is never set. Credentials are allowed for every origin that is. The configured
methods are added to the default ones. Methods and headers are sets that are iterated in some order for each response.

strings.ToUpper and http.CanonicalHeaderKey are parameters, of which nothing is assumed. The response starts without
headers, and the handler behind the middleware leaves `Access-Control-*` and `Vary` alone (`Handler`).

- `vary_iff`, `credentials_iff`, `methods_iff`: the parts of safety, by what they say of the configuration;
- `cors_safe_iff`: all of this for all options and requests; `exposed_defaults`: where it fails.
-/
import Mathlib.Algebra.Order.BigOperators.Group.Finset
import Mathlib.Data.List.AList
import Mathlib.Tactic

namespace LuluExt.Cors

/-- strings.ToUpper and http.CanonicalHeaderKey -/
structure Strings where
  toUpper : String → String
  canonicalHeaderKey : String → String

structure Options where
  allowedOrigins : Finset String
  allowedMethods : Finset String
  allowedHeaders : Finset String
  exposedHeaders : List String
  allowCredentials : Bool
  /-- seconds -/
  maxAge : ℤ

inductive Opt where
  | allowedOrigins (origins : List String)
  | allowedMethods (methods : List String)
  | allowedHeaders (headers : List String)
  | exposedHeaders (headers : List String)
  | allowCredentials (enabled : Bool)
  | maxAge (seconds : ℤ)

def Opt.apply (lib : Strings) (o : Options) : Opt → Options
  | .allowedOrigins origins => { o with allowedOrigins := o.allowedOrigins ∪ origins.toFinset }
  | .allowedMethods methods => { o with allowedMethods := o.allowedMethods ∪ (methods.map lib.toUpper).toFinset }
  | .allowedHeaders headers =>
    { o with allowedHeaders := o.allowedHeaders ∪ (headers.map lib.canonicalHeaderKey).toFinset }
  | .exposedHeaders headers => { o with exposedHeaders := headers }
  | .allowCredentials enabled => { o with allowCredentials := enabled }
  | .maxAge seconds => { o with maxAge := seconds }

def defaultMethods : Finset String := {"GET", "POST", "PUT", "PATCH", "DELETE", "HEAD", "OPTIONS"}

def defaults : Options := ⟨∅, defaultMethods, ∅, [], false, 0⟩

def newOptions (lib : Strings) (opts : List Opt) : Options := opts.foldl (Opt.apply lib) defaults

structure Order (s : Finset String) where
  keys : List String
  nodup : keys.Nodup
  mem : ∀ k, k ∈ keys ↔ k ∈ s

structure Orders (o : Options) where
  methods : Order o.allowedMethods
  headers : Order o.allowedHeaders

def joinKeys (keys : List String) : String := ", ".intercalate keys

/-! ## The middleware -/

structure Request where
  /-- empty where there is no Origin -/
  origin : String
  method : String
  path : String

abbrev Header := AList fun _ : String => List String

/-- a header that the middleware, or CORS, is about -/
def IsCors (k : String) : Prop := "Access-Control-".toList.isPrefixOf k.toList = true

instance (k : String) : Decidable (IsCors k) := inferInstanceAs (Decidable (_ = true))

structure Handler where
  serve : Request → Header → Header
  neutral : ∀ r h k, IsCors k ∨ k = "Vary" → (serve r h).lookup k = h.lookup k

def setIf (cond : Bool) (k v : String) (h : Header) : Header := if cond then h.insert k [v] else h

def Options.isOriginAllowed (o : Options) (origin : String) : Bool :=
  if o.allowedOrigins.card = 0 then true else decide (origin ∈ o.allowedOrigins)

def Options.setCORSHeaders (o : Options) (orders : Orders o) (origin : String) (h : Header) : Header :=
  let h := setIf true "Access-Control-Allow-Origin" origin h
  let h := setIf o.allowCredentials "Access-Control-Allow-Credentials" "true" h
  let h := setIf (decide (o.allowedMethods.card > 0)) "Access-Control-Allow-Methods" (joinKeys orders.methods.keys) h
  let h := setIf (decide (o.allowedHeaders.card > 0)) "Access-Control-Allow-Headers" (joinKeys orders.headers.keys) h
  let h := setIf (decide (o.exposedHeaders.length > 0)) "Access-Control-Expose-Headers"
    (", ".intercalate o.exposedHeaders) h
  setIf (decide (o.maxAge > 0)) "Access-Control-Max-Age" (toString o.maxAge) h

def middleware (o : Options) (orders : Orders o) (next : Handler) (r : Request) : Header :=
  if r.origin = "" then next.serve r ∅
  else if !o.isOriginAllowed r.origin then next.serve r ∅
  else
    let h := o.setCORSHeaders orders r.origin ∅
    -- a preflight request goes no further
    if r.method = "OPTIONS" then h else next.serve r h

/-! ## What is expected -/

def listed (opts : List Opt) : List String :=
  opts.flatMap fun
    | .allowedOrigins origins => origins
    | _ => []

/-- the methods that are configured, if any option does that -/
def configured (lib : Strings) (opts : List Opt) : Finset String :=
  (opts.flatMap fun
    | .allowedMethods methods => methods.map lib.toUpper
    | _ => []).toFinset

def UsesMethods (opts : List Opt) : Prop := ∃ methods, Opt.allowedMethods methods ∈ opts

/-- a text that lists these methods, each once -/
def Advertises (text : String) (methods : Finset String) : Prop :=
  ∃ l : List String, l.Nodup ∧ (∀ m, m ∈ l ↔ m ∈ methods) ∧ text = joinKeys l

def VariesByOrigin (h : Header) : Prop := ∃ vs, h.lookup "Vary" = some vs ∧ "Origin" ∈ vs

structure Sound (lib : Strings) (opts : List Opt) (r : Request) (h : Header) : Prop where
  credentials : h.lookup "Access-Control-Allow-Credentials" ≠ none → r.origin ∈ listed opts
  methods : UsesMethods opts → ∀ vs, h.lookup "Access-Control-Allow-Methods" = some vs →
    ∃ text, vs = [text] ∧ Advertises text (configured lib opts)

structure Safe (lib : Strings) (opts : List Opt) (r r' : Request) (h h' : Header) : Prop where
  vary : (∃ k, IsCors k ∧ h.lookup k ≠ h'.lookup k) → VariesByOrigin h ∧ VariesByOrigin h'
  first : Sound lib opts r h
  second : Sound lib opts r' h'

def Answered (o : Options) (r : Request) : Prop := r.origin ≠ "" ∧ o.isOriginAllowed r.origin = true

instance (o : Options) (r : Request) : Decidable (Answered o r) := inferInstanceAs (Decidable (_ ∧ _))

/-! ## The headers -/

theorem lookup_setIf (cond : Bool) (k v : String) (h : Header) (k' : String) :
    (setIf cond k v h).lookup k' = if cond ∧ k' = k then some [v] else h.lookup k' := by
  unfold setIf
  cases cond with
  | false => simp
  | true =>
    by_cases hk : k' = k
    · rw [hk]
      simp
    · simp [hk]

section

variable {o : Options} (orders : Orders o)

theorem lookup_setCORSHeaders (origin : String) (k : String) : (o.setCORSHeaders orders origin ∅).lookup k =
      if o.maxAge > 0 ∧ k = "Access-Control-Max-Age" then some [toString o.maxAge]
      else if o.exposedHeaders.length > 0 ∧ k = "Access-Control-Expose-Headers" then
        some [", ".intercalate o.exposedHeaders]
      else if o.allowedHeaders.card > 0 ∧ k = "Access-Control-Allow-Headers" then some [joinKeys orders.headers.keys]
      else if o.allowedMethods.card > 0 ∧ k = "Access-Control-Allow-Methods" then some [joinKeys orders.methods.keys]
      else if o.allowCredentials ∧ k = "Access-Control-Allow-Credentials" then some ["true"]
      else if k = "Access-Control-Allow-Origin" then some [origin] else none := by
  simp only [Options.setCORSHeaders, lookup_setIf, decide_eq_true_eq, true_and, AList.lookup_empty]

/-- **What a response says**: everything to a request that is answered, and nothing to another one. -/
theorem lookup_cors (next : Handler) (r : Request) {k : String} (hk : IsCors k ∨ k = "Vary") :
    (middleware o orders next r).lookup k =
      if Answered o r then (o.setCORSHeaders orders r.origin ∅).lookup k else none := by
  have hnext (h : Header) : (next.serve r h).lookup k = h.lookup k := next.neutral r h k hk
  unfold middleware
  split_ifs <;> simp_all [Answered]

theorem not_variesByOrigin (next : Handler) (r : Request) : ¬ VariesByOrigin (middleware o orders next r) := by
  rintro ⟨vs, hvs, -⟩
  rw [lookup_cors orders next r (.inr rfl), lookup_setCORSHeaders] at hvs
  simp at hvs

/-! ## Two responses -/

/-- both are not answered, or both are, with the same origin and the same texts -/
def SameAnswer (o : Options) (orders orders' : Orders o) (r r' : Request) : Prop :=
  ¬ Answered o r ∧ ¬ Answered o r' ∨
    (Answered o r ∧ Answered o r') ∧ r.origin = r'.origin ∧
      joinKeys orders.methods.keys = joinKeys orders'.methods.keys ∧
      joinKeys orders.headers.keys = joinKeys orders'.headers.keys

theorem Order.keys_of_card {s : Finset String} (order : Order s) (h : ¬ s.card > 0) : order.keys = [] := by
  rw [List.eq_nil_iff_forall_not_mem]
  intro k hk
  have hempty : s = ∅ := Finset.card_eq_zero.1 (by omega)
  rw [order.mem, hempty] at hk
  exact absurd hk (Finset.notMem_empty k)

theorem lookup_origin (next : Handler) (r : Request) :
    (middleware o orders next r).lookup "Access-Control-Allow-Origin" =
      if Answered o r then some [r.origin] else none := by
  rw [lookup_cors orders next r (.inl (by decide)), lookup_setCORSHeaders]
  simp

theorem lookup_methods (next : Handler) {r : Request} (h : Answered o r) :
    (middleware o orders next r).lookup "Access-Control-Allow-Methods" =
      if o.allowedMethods.card > 0 then some [joinKeys orders.methods.keys] else none := by
  rw [lookup_cors orders next r (.inl (by decide)), if_pos h, lookup_setCORSHeaders]
  simp

theorem lookup_headers (next : Handler) {r : Request} (h : Answered o r) :
    (middleware o orders next r).lookup "Access-Control-Allow-Headers" =
      if o.allowedHeaders.card > 0 then some [joinKeys orders.headers.keys] else none := by
  rw [lookup_cors orders next r (.inl (by decide)), if_pos h, lookup_setCORSHeaders]
  simp

theorem joinKeys_eq_of_lookup {s : Finset String} (order order' : Order s)
    (h : (if s.card > 0 then some [joinKeys order.keys] else none) =
      if s.card > 0 then some [joinKeys order'.keys] else none) : joinKeys order.keys = joinKeys order'.keys := by
  split_ifs at h with hcard
  · simpa using h
  · rw [order.keys_of_card hcard, order'.keys_of_card hcard]

/-- **Two responses agree exactly when** both requests are not answered, or both with the same origin and texts. -/
theorem agree_iff (orders orders' : Orders o) (next : Handler) (r r' : Request) :
    (∀ k, IsCors k → (middleware o orders next r).lookup k = (middleware o orders' next r').lookup k) ↔
      SameAnswer o orders orders' r r' := by
  constructor
  · intro h
    have horigin := h "Access-Control-Allow-Origin" (by decide)
    rw [lookup_origin, lookup_origin] at horigin
    split_ifs at horigin with hr hr' hr'
    · have hmethods := h "Access-Control-Allow-Methods" (by decide)
      have hheaders := h "Access-Control-Allow-Headers" (by decide)
      rw [lookup_methods orders next hr, lookup_methods orders' next hr'] at hmethods
      rw [lookup_headers orders next hr, lookup_headers orders' next hr'] at hheaders
      exact .inr ⟨⟨hr, hr'⟩, by simpa using horigin, joinKeys_eq_of_lookup _ _ hmethods,
        joinKeys_eq_of_lookup _ _ hheaders⟩
    · exact .inl ⟨hr, hr'⟩
  · intro h k hk
    rw [lookup_cors orders next r (.inl hk), lookup_cors orders' next r' (.inl hk)]
    obtain ⟨hr, hr'⟩ | ⟨⟨hr, hr'⟩, horigin, hmethods, hheaders⟩ := h
    · rw [if_neg hr, if_neg hr']
    · rw [if_pos hr, if_pos hr', lookup_setCORSHeaders, lookup_setCORSHeaders, horigin, hmethods, hheaders]

theorem vary_iff (orders orders' : Orders o) (next : Handler) (r r' : Request) :
    ((∃ k, IsCors k ∧ (middleware o orders next r).lookup k ≠ (middleware o orders' next r').lookup k) →
      VariesByOrigin (middleware o orders next r) ∧ VariesByOrigin (middleware o orders' next r')) ↔
      SameAnswer o orders orders' r r' := by
  rw [← agree_iff orders orders' next r r']
  constructor
  · intro h k hk
    by_contra hne
    exact not_variesByOrigin orders next r (h ⟨k, hk, hne⟩).1
  · rintro h ⟨k, hk, hne⟩
    exact absurd (h k hk) hne

end

/-! ## The options -/

section

variable (lib : Strings)

theorem allowedOrigins_foldl (opts : List Opt) (o : Options) :
    (opts.foldl (Opt.apply lib) o).allowedOrigins = o.allowedOrigins ∪ (listed opts).toFinset := by
  induction opts generalizing o with
  | nil => simp [listed]
  | cons opt opts ih =>
    rw [List.foldl_cons, ih]
    cases opt <;> simp [Opt.apply, listed]

theorem allowedMethods_foldl (opts : List Opt) (o : Options) :
    (opts.foldl (Opt.apply lib) o).allowedMethods = o.allowedMethods ∪ configured lib opts := by
  induction opts generalizing o with
  | nil => simp [configured]
  | cons opt opts ih =>
    rw [List.foldl_cons, ih]
    cases opt <;> simp [Opt.apply, configured]

variable {lib} {opts : List Opt}

theorem allowedOrigins_newOptions : (newOptions lib opts).allowedOrigins = (listed opts).toFinset := by
  rw [newOptions, allowedOrigins_foldl]
  exact Finset.empty_union _

theorem allowedMethods_newOptions : (newOptions lib opts).allowedMethods = defaultMethods ∪ configured lib opts := by
  rw [newOptions, allowedMethods_foldl]
  rfl

/-- **Credentials go to listed origins only** exactly when some are listed, if there are credentials. -/
theorem credentials_iff (orders : Orders (newOptions lib opts)) (next : Handler) (r : Request) :
    ((middleware _ orders next r).lookup "Access-Control-Allow-Credentials" ≠ none → r.origin ∈ listed opts) ↔
      (Answered (newOptions lib opts) r → (newOptions lib opts).allowCredentials → listed opts ≠ []) := by
  rw [lookup_cors orders next r (.inl (by decide)), lookup_setCORSHeaders]
  by_cases hr : Answered (newOptions lib opts) r
  · have hlisted : r.origin ∈ listed opts ↔ listed opts ≠ [] := by
      constructor
      · intro h
        exact List.ne_nil_of_mem h
      · intro h
        have hallowed := hr.2
        unfold Options.isOriginAllowed at hallowed
        rw [allowedOrigins_newOptions, if_neg (by simpa using h)] at hallowed
        simpa using hallowed
    simp [hr, hlisted]
  · simp [hr]

/-! ## The methods -/

/-- each key counts with the separator after it -/
theorem length_joinKeys {l : List String} (hl : l ≠ []) :
    (joinKeys l).length + 2 = (l.map fun k => k.length + 2).sum := by
  induction l with
  | nil => exact absurd rfl hl
  | cons k l ih =>
    by_cases hrest : l = []
    · simp [joinKeys, hrest]
    · have hsep : (", " : String).length = 2 := by decide
      rw [joinKeys, String.intercalate_cons_of_ne_nil hrest, String.length_append, String.length_append, List.map_cons,
        List.sum_cons, ← ih hrest, joinKeys]
      omega

/-- **A text of more keys** lists none of the smaller sets. -/
theorem advertises_iff {s u : Finset String} (order : Order u) (hsu : s ⊆ u) (hu : ∃ m ∈ u, m ≠ "") :
    Advertises (joinKeys order.keys) s ↔ u ⊆ s := by
  constructor
  · rintro ⟨l, hl, hmem, htext⟩
    by_contra hnot
    obtain ⟨m, hm, hms⟩ := Finset.not_subset.1 hnot
    have hkeys : order.keys.toFinset = u := by
      ext k
      rw [List.mem_toFinset, order.mem]
    have hls : l.toFinset = s := by
      ext k
      rw [List.mem_toFinset, hmem]
    have hne : order.keys ≠ [] := List.ne_nil_of_mem ((order.mem m).2 hm)
    have hlength := length_joinKeys hne
    rw [← List.sum_toFinset _ order.nodup, hkeys] at hlength
    by_cases hnil : l = []
    · -- no key at all, but one of the others is not empty
      obtain ⟨m', hm', hm'ne⟩ := hu
      have hle := Finset.single_le_sum (f := fun k : String => k.length + 2) (fun _ _ => Nat.zero_le _) hm'
      have hpos : 0 < m'.length := by
        rw [Nat.pos_iff_ne_zero]
        exact fun h => hm'ne (String.length_eq_zero_iff.1 h)
      have hzero : (joinKeys order.keys).length = 0 := by
        rw [htext, hnil]
        rfl
      omega
    · have hlength' := length_joinKeys hnil
      rw [← List.sum_toFinset _ hl, hls, ← htext] at hlength'
      have hlt := Finset.sum_lt_sum_of_subset (f := fun k : String => k.length + 2) hsu hm hms (by omega)
        fun _ _ _ => Nat.zero_le _
      omega
  · intro hus
    exact ⟨order.keys, order.nodup, fun m => by rw [order.mem, Finset.Subset.antisymm hsu hus], rfl⟩

/-- **The configured methods are advertised** exactly when they include the default ones, if any are configured. -/
theorem methods_iff (orders : Orders (newOptions lib opts)) (next : Handler) (r : Request) :
    (UsesMethods opts → ∀ vs, (middleware _ orders next r).lookup "Access-Control-Allow-Methods" = some vs →
      ∃ text, vs = [text] ∧ Advertises text (configured lib opts)) ↔
      (Answered (newOptions lib opts) r → UsesMethods opts → defaultMethods ⊆ configured lib opts) := by
  have hmethods : (newOptions lib opts).allowedMethods = defaultMethods ∪ configured lib opts :=
    allowedMethods_newOptions
  by_cases hr : Answered (newOptions lib opts) r
  · have hget : "GET" ∈ (newOptions lib opts).allowedMethods := by
      rw [hmethods, Finset.mem_union]
      exact .inl (by decide)
    have hadvertises : Advertises (joinKeys orders.methods.keys) (configured lib opts) ↔
        defaultMethods ⊆ configured lib opts := by
      have hsubset : configured lib opts ⊆ (newOptions lib opts).allowedMethods := by
        rw [hmethods]
        exact Finset.subset_union_right
      rw [advertises_iff orders.methods hsubset ⟨"GET", hget, by decide⟩, hmethods, Finset.union_subset_iff]
      exact and_iff_left (Finset.Subset.refl _)
    rw [lookup_methods orders next hr, if_pos (Finset.card_pos.2 ⟨_, hget⟩), ← hadvertises]
    constructor
    · intro h _ huses
      obtain ⟨text, htext, hadv⟩ := h huses _ rfl
      rw [List.singleton_inj] at htext
      rw [htext]
      exact hadv
    · intro h huses vs hvs
      rw [Option.some.injEq] at hvs
      exact ⟨_, hvs.symm, h hr huses⟩
  · rw [lookup_cors orders next r (.inl (by decide)), if_neg hr]
    exact iff_of_true (fun _ _ h => nomatch h) fun h => absurd h hr

end

/-! ## All options and requests -/

structure Listed (lib : Strings) (opts : List Opt) (r : Request) : Prop where
  credentials : Answered (newOptions lib opts) r → (newOptions lib opts).allowCredentials = true → listed opts ≠ []
  methods : Answered (newOptions lib opts) r → UsesMethods opts → defaultMethods ⊆ configured lib opts

theorem sound_iff_listed (lib : Strings) (opts : List Opt) (orders : Orders (newOptions lib opts)) (next : Handler)
    (r : Request) : Sound lib opts r (middleware _ orders next r) ↔ Listed lib opts r :=
  ⟨fun h => ⟨(credentials_iff orders next r).1 h.credentials, (methods_iff orders next r).1 h.methods⟩,
    fun h => ⟨(credentials_iff orders next r).2 h.credentials, (methods_iff orders next r).2 h.methods⟩⟩

/-- **When CORS is safe.** Two responses differ only if both carry `Vary: Origin`, credentials are allowed to listed
origins only, and the configured methods are advertised, if and only if neither is answered or both get the same answer
to the same origin, and where a request is answered origins are listed if there are credentials, and the default methods
are among those configured. -/
theorem cors_safe_iff (lib : Strings) (opts : List Opt) (orders orders' : Orders (newOptions lib opts)) (next : Handler)
    (r : Request) (origin : String) :
    Safe lib opts r { r with origin := origin } (middleware _ orders next r)
      (middleware _ orders' next { r with origin := origin }) ↔
    SameAnswer (newOptions lib opts) orders orders' r { r with origin := origin } ∧ Listed lib opts r ∧
      Listed lib opts { r with origin := origin } := by
  rw [← sound_iff_listed lib opts orders next r, ← sound_iff_listed lib opts orders' next { r with origin := origin },
    ← vary_iff orders orders' next r { r with origin := origin }]
  exact ⟨fun h => ⟨h.vary, h.first, h.second⟩, fun h => ⟨h.1, h.2.1, h.2.2⟩⟩

def ascii : Strings := ⟨fun s => String.ofList (s.toList.map Char.toUpper), id⟩

def quiet : Handler := ⟨fun _ h => h, fun _ _ _ _ => rfl⟩

/-- the default methods in the order of the source, with no request headers -/
def sourceOrders {o : Options} (hmethods : o.allowedMethods = defaultMethods) (hheaders : o.allowedHeaders = ∅) :
    Orders o where
  methods := ⟨["GET", "POST", "PUT", "PATCH", "DELETE", "HEAD", "OPTIONS"], by decide, by
    intro k
    rw [hmethods]
    simp [defaultMethods]⟩
  headers := ⟨[], by decide, by simp [hheaders]⟩

/-- what the middleware with these options says of a header to a GET from an origin -/
def said (opts : List Opt) (hmethods : (newOptions ascii opts).allowedMethods = defaultMethods)
    (hheaders : (newOptions ascii opts).allowedHeaders = ∅) (origin k : String) : Option (List String) :=
  (middleware _ (sourceOrders hmethods hheaders) quiet ⟨origin, "GET", "/"⟩).lookup k

/-- **Where CORS is not safe**: without options, two origins get different answers without `Vary`; with credentials
only, any origin gets them; with `WithAllowedMethods("get")`, all the default methods are advertised. -/
theorem exposed_defaults :
    (said [] (by decide) (by decide) "https://a" "Access-Control-Allow-Origin" = some ["https://a"] ∧
      said [] (by decide) (by decide) "https://b" "Access-Control-Allow-Origin" = some ["https://b"] ∧
      said [] (by decide) (by decide) "https://a" "Vary" = none) ∧
    said [.allowCredentials true] (by decide) (by decide) "https://evil" "Access-Control-Allow-Credentials" =
      some ["true"] ∧
    said [.allowedMethods ["get"]] (by decide) (by decide) "https://a" "Access-Control-Allow-Methods" =
      some ["GET, POST, PUT, PATCH, DELETE, HEAD, OPTIONS"] := by
  refine ⟨⟨by decide, by decide, by decide⟩, by decide, by decide⟩

end LuluExt.Cors
