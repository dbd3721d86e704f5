/-
Content negotiation of the HTTP server: the codec that the middleware selects for a Content-Type, and the Content-Type
that `Respond` sends for a codec.

A MIME type is looked up in a table that can be extended; an unknown one stands for json, whatever the default codec is.
The MIME type of a codec is looked up by its name in a table that cannot be extended; an unknown one is that of json.
The default codec is used only when the codec found by name is not registered.

strings.ToLower and strings.TrimSpace are parameters, which leave texts of small ASCII letters as they are. The tables
are any: registered by `RegisterMimeType` and `RegisterCodec` in any order.
-/
import LuluExt.Lib.Url

namespace LuluExt.HttpCodec

def plainChars : List Char := "abcdefghijklmnopqrstuvwxyz0123456789/-".toList

/-- a text that neither function changes and that has no parameters -/
def Plain (s : String) : Prop := s.toList.all plainChars.contains = true

instance (s : String) : Decidable (Plain s) := inferInstanceAs (Decidable (_ = true))

structure Strings where
  toLower : String → String
  trimSpace : String → String
  toLower_plain : ∀ s, Plain s → toLower s = s
  trimSpace_plain : ∀ s, Plain s → trimSpace s = s

/-- an encoding.Codec: what it is called, and which one it is -/
structure Codec where
  name : String
  id : ℕ
deriving DecidableEq, Repr

/-- the maps of both packages, the latest entry of a key first -/
structure Tables (lib : Strings) where
  mimeToCodec : List (String × String)
  codecs : List (String × Codec)
  /-- a codec is stored under its name in lower case, which is not empty -/
  keyed : ∀ x ∈ codecs, x.1 = lib.toLower x.2.name ∧ x.1 ≠ ""

def mimeToCodec : List (String × String) := [
  ("application/json", "json"),
  ("application/xml", "xml"),
  ("text/xml", "xml"),
  ("application/x-yaml", "yaml"),
  ("text/yaml", "yaml"),
  ("application/protobuf", "proto"),
  ("application/x-protobuf", "proto"),
  ("application/avro", "avro"),
  ("application/x-msgpack", "msgpack"),
  ("application/x-toml", "toml"),
  ("text/toml", "toml"),
  ("application/x-gob", "gob"),
  ("application/cbor", "cbor"),
  ("application/x-cbor", "cbor"),
  ("application/x-thrift", "thrift"),
  ("application/x-flatbuffers", "flatbuffers"),
  ("application/bson", "bson")]

def codecToMime : List (String × String) := [
  ("json", "application/json"),
  ("xml", "application/xml"),
  ("yaml", "application/x-yaml"),
  ("proto", "application/protobuf"),
  ("avro", "application/avro"),
  ("msgpack", "application/x-msgpack"),
  ("toml", "application/x-toml"),
  ("gob", "application/x-gob"),
  ("cbor", "application/cbor"),
  ("thrift", "application/x-thrift"),
  ("flatbuffers", "application/x-flatbuffers"),
  ("bson", "application/bson")]

section

variable {lib : Strings}

def noCodecs : Tables lib := ⟨mimeToCodec, [], nofun⟩

def registerMimeType (t : Tables lib) (mime codecName : String) : Tables lib :=
  { t with mimeToCodec := (lib.toLower (lib.trimSpace mime), codecName) :: t.mimeToCodec }

/-- none is the panic for an empty name -/
def registerCodec (t : Tables lib) (c : Codec) : Option (Tables lib) :=
  if h : lib.toLower c.name = "" then none
  else some { t with
    codecs := (lib.toLower c.name, c) :: t.codecs
    keyed := List.forall_mem_cons.2 ⟨⟨rfl, h⟩, t.keyed⟩ }

def getCodec (t : Tables lib) (name : String) : Option Codec :=
  if name = "" then none else t.codecs.lookup (lib.toLower name)

/-- the MIME type that is looked up: without parameters like "; charset=utf-8" -/
def stripped (lib : Strings) (mime : String) : String :=
  let mime := lib.toLower (lib.trimSpace mime)
  match Url.cut ';' mime.toList with
  | some (before, _) => lib.trimSpace (String.ofList before)
  | none => mime

def nameOf (t : Tables lib) (mime : String) : String :=
  let name := (t.mimeToCodec.lookup mime).getD ""
  if name = "" then "json" else name

def codecNameFromMIME (t : Tables lib) (mime : String) : String := nameOf t (stripped lib mime)

def mimeFromCodecName (name : String) : String := (codecToMime.lookup name).getD "application/json"

/-- the codec that the middleware stores for a request; none is the answer 415 -/
def middleware (t : Tables lib) (defaultCodec contentType : String) : Option Codec :=
  (getCodec t (codecNameFromMIME t contentType)).or (getCodec t defaultCodec)

/-- the codec that `Respond` uses, for what the request's context has; none is a nil codec, whose call panics -/
def respondCodec (t : Tables lib) (stored : Option Codec) : Option Codec := stored.or (getCodec t "json")

/-- the Content-Type that it sends for a body that was made by `c` -/
def respond (c : Codec) : String := mimeFromCodecName c.name

/-! ## What is expected -/

/-- the codec that the tables have for a Content-Type -/
def recognised (t : Tables lib) (contentType : String) : Option Codec :=
  getCodec t ((t.mimeToCodec.lookup (stripped lib contentType)).getD "")

/-- a codec that makes the body of a response: to a request with this Content-Type, or behind no middleware at all -/
def Produces (t : Tables lib) (defaultCodec contentType : String) (c : Codec) : Prop :=
  ∃ stored, (stored = none ∨ stored = middleware t defaultCodec contentType) ∧ respondCodec t stored = some c

/-- there is no Content-Type, or the tables do not know it -/
def Unknown (t : Tables lib) (contentType : String) : Prop := contentType = "" ∨ recognised t contentType = none

structure Negotiates (t : Tables lib) (defaultCodec contentType : String) : Prop where
  fallback : Unknown t contentType → middleware t defaultCodec contentType = getCodec t defaultCodec
  /-- the type of the response selects the codec that made it -/
  roundTrip : ∀ c, Produces t defaultCodec contentType c → middleware t defaultCodec (respond c) = some c

structure Agreed (t : Tables lib) (defaultCodec contentType : String) : Prop where
  /-- the name that is used instead, which is "json" if the table has none, is that of the default codec or of none -/
  fallback : Unknown t contentType → getCodec t (codecNameFromMIME t contentType) = none ∨
    lib.toLower defaultCodec = lib.toLower (codecNameFromMIME t contentType)
  /-- the name that the table has for the type of the response is that of the codec, or of none while the codec is the
  default one -/
  roundTrip : ∀ c, Produces t defaultCodec contentType c →
    lib.toLower (nameOf t (respond c)) = lib.toLower c.name ∨
      getCodec t (nameOf t (respond c)) = none ∧ lib.toLower defaultCodec = lib.toLower c.name

/-! ## Codecs by name -/

theorem toLower_name {t : Tables lib} {name : String} {c : Codec} (h : getCodec t name = some c) :
    lib.toLower name = lib.toLower c.name ∧ lib.toLower name ≠ "" := by
  unfold getCodec at h
  split_ifs at h
  obtain ⟨l₁, l₂, hsplit, -⟩ := List.lookup_eq_some_iff.1 h
  exact t.keyed (lib.toLower name, c) (by rw [hsplit]; simp)

/-- a codec is found under its name, in any case, and under no other -/
theorem getCodec_eq_iff {t : Tables lib} {name : String} {c : Codec} (h : getCodec t name = some c) (name' : String) :
    getCodec t name' = some c ↔ lib.toLower name' = lib.toLower c.name := by
  obtain ⟨hname, hne⟩ := toLower_name h
  constructor
  · intro h'
    exact (toLower_name h').1
  · intro h'
    have hempty : name' ≠ "" := by
      rintro rfl
      rw [lib.toLower_plain "" rfl] at h'
      rw [hname, ← h'] at hne
      exact hne rfl
    unfold getCodec at h ⊢
    split_ifs at h
    rw [if_neg hempty, h', ← hname, h]

theorem exists_name_of_produces {t : Tables lib} {defaultCodec contentType : String} {c : Codec}
    (h : Produces t defaultCodec contentType c) : ∃ name, getCodec t name = some c := by
  obtain ⟨stored, hstored, hc⟩ := h
  rcases Option.or_eq_some_iff.1 hc with hc | ⟨-, hc⟩
  · rcases hstored with rfl | rfl
    · cases hc
    · rcases Option.or_eq_some_iff.1 hc with hc | ⟨-, hc⟩
      · exact ⟨_, hc⟩
      · exact ⟨_, hc⟩
  · exact ⟨_, hc⟩

/-! ## The types of responses -/

theorem plain_respond (c : Codec) : Plain (respond c) := by
  have htable : ∀ x ∈ codecToMime, Plain x.2 := by decide +kernel
  unfold respond mimeFromCodecName
  cases hlookup : codecToMime.lookup c.name with
  | none => decide
  | some mime =>
    obtain ⟨l₁, l₂, hsplit, -⟩ := List.lookup_eq_some_iff.1 hlookup
    exact htable (c.name, mime) (by rw [hsplit]; simp)

theorem stripped_plain {s : String} (h : Plain s) : stripped lib s = s := by
  have hcut : Url.cut ';' s.toList = none := by
    refine Url.cut_eq_none ?_
    intro hmem
    exact absurd (List.all_eq_true.1 h ';' hmem) (by decide)
  simp only [stripped, lib.trimSpace_plain s h, lib.toLower_plain s h, hcut]

/-- **What a response selects**: the codec that the table has for its type, or else the default one. -/
theorem middleware_respond (t : Tables lib) (defaultCodec : String) (c : Codec) :
    middleware t defaultCodec (respond c) = (getCodec t (nameOf t (respond c))).or (getCodec t defaultCodec) := by
  rw [middleware, codecNameFromMIME, stripped_plain (plain_respond c)]

/-- **A request gets the default codec** exactly when the name that is used is that of the default codec, or of none. -/
theorem middleware_eq_default_iff (t : Tables lib) (defaultCodec contentType : String) :
    middleware t defaultCodec contentType = getCodec t defaultCodec ↔
      getCodec t (codecNameFromMIME t contentType) = none ∨
        lib.toLower defaultCodec = lib.toLower (codecNameFromMIME t contentType) := by
  unfold middleware
  cases hname : getCodec t (codecNameFromMIME t contentType) with
  | none => simp
  | some c =>
    rw [Option.some_or, eq_comm, getCodec_eq_iff hname, (toLower_name hname).1]
    simp

/-- **A response reads back** exactly when its type leads to the name of its codec, or to none where that is the
default. -/
theorem middleware_respond_iff (t : Tables lib) (defaultCodec : String) {name : String} {c : Codec}
    (hc : getCodec t name = some c) : middleware t defaultCodec (respond c) = some c ↔
      lib.toLower (nameOf t (respond c)) = lib.toLower c.name ∨
        getCodec t (nameOf t (respond c)) = none ∧ lib.toLower defaultCodec = lib.toLower c.name := by
  rw [middleware_respond, Option.or_eq_some_iff, getCodec_eq_iff hc, getCodec_eq_iff hc]

/-- **When codecs are negotiated.** An absent or unknown type is served with the default codec, and the type of the
response selects the codec that made it, if and only if the name that is used for such a type is that of the default
codec, and the table leads from the type of the response back to the name of its codec. -/
theorem negotiates_iff (t : Tables lib) (defaultCodec contentType : String) :
    Negotiates t defaultCodec contentType ↔ Agreed t defaultCodec contentType := by
  have hback : ∀ c, Produces t defaultCodec contentType c →
      (middleware t defaultCodec (respond c) = some c ↔
        lib.toLower (nameOf t (respond c)) = lib.toLower c.name ∨
          getCodec t (nameOf t (respond c)) = none ∧ lib.toLower defaultCodec = lib.toLower c.name) := by
    intro c hc
    obtain ⟨name, hname⟩ := exists_name_of_produces hc
    exact middleware_respond_iff t defaultCodec hname
  constructor
  · intro h
    refine ⟨?_, ?_⟩
    · intro hunknown
      exact (middleware_eq_default_iff t defaultCodec contentType).1 (h.fallback hunknown)
    · intro c hc
      exact (hback c hc).1 (h.roundTrip c hc)
  · intro h
    refine ⟨?_, ?_⟩
    · intro hunknown
      exact (middleware_eq_default_iff t defaultCodec contentType).2 (h.fallback hunknown)
    · intro c hc
      exact (hback c hc).2 (h.roundTrip c hc)

end

/-! ## Where it fails -/

theorem toLower_of_plain {c : Char} (h : plainChars.contains c) : c.toLower = c := by
  have hall : plainChars.all (fun c => c.toLower == c) := by decide
  exact beq_iff_eq.1 (List.all_eq_true.1 hall c (List.contains_iff_mem.1 h))

theorem isWhitespace_of_plain {c : Char} (h : plainChars.contains c) : c.isWhitespace = false := by
  have hall : plainChars.all (fun c => !c.isWhitespace) := by decide
  exact Bool.not_eq_true' _ ▸ List.all_eq_true.1 hall c (List.contains_iff_mem.1 h)

theorem dropWhile_isWhitespace {l : List Char} (h : l.all plainChars.contains) :
    l.dropWhile Char.isWhitespace = l := by
  cases l with
  | nil => rfl
  | cons c l =>
    have hc := List.all_eq_true.1 h c List.mem_cons_self
    rw [List.dropWhile_cons_of_neg (by simp [isWhitespace_of_plain hc])]

def ascii : Strings where
  toLower s := String.ofList (s.toList.map Char.toLower)
  trimSpace s := String.ofList ((s.toList.dropWhile Char.isWhitespace).reverse.dropWhile Char.isWhitespace).reverse
  toLower_plain := by
    intro s h
    have hmap : s.toList.map Char.toLower = s.toList := by
      rw [List.map_congr_left fun c hc => toLower_of_plain (List.all_eq_true.1 h c hc), List.map_id']
    rw [hmap, String.ofList_toList]
  trimSpace_plain := by
    intro s h
    have hreverse : s.toList.reverse.all plainChars.contains = true := by
      rw [List.all_reverse]
      exact h
    rw [dropWhile_isWhitespace h, dropWhile_isWhitespace hreverse, List.reverse_reverse, String.ofList_toList]

def threeCodecs : Option (Tables ascii) := do
  let t ← registerCodec noCodecs ⟨"json", 1⟩
  let t ← registerCodec t ⟨"xml", 2⟩
  let t ← registerCodec t ⟨"Csv", 3⟩
  return registerMimeType t "text/csv" "csv"

/-- **What is not negotiated**: with xml as the default, a request without Content-Type is served with json; a body of
the codec csv is sent as application/json, which selects json. -/
theorem not_negotiated :
    (threeCodecs.map fun t => middleware t "xml" "") = some (some ⟨"json", 1⟩) ∧
    (threeCodecs.map fun t => middleware t "xml" "text/csv; charset=utf-8") = some (some ⟨"Csv", 3⟩) ∧
    respond ⟨"Csv", 3⟩ = "application/json" ∧
    (threeCodecs.map fun t => middleware t "xml" "application/json") = some (some ⟨"json", 1⟩) := by
  refine ⟨by decide, by decide, by decide, by decide⟩

end LuluExt.HttpCodec
