/-
The binding of query and form values of the HTTP3 server to the fields of a struct.

Integers are parsed at 64 bits whatever the width of the field. `SetInt` and `SetUint` then keep the low bits, without
an error. A field that cannot be set, one that is not exported, is passed over without an error too.

A memory has the cells of the fields and what pointers lead to, so that two fields may lead to one cell. A pointer is
nil or leads to a cell of the caller (`given`) or to one that reflect.New has made (`new`); the memory knows that it
made it. Cells of different types are apart. Strings, booleans, floats and all other types (by json.Unmarshal of the
quoted value) are bound as the code does; strconv.ParseFloat and json.Unmarshal are parameters, and what the latter
changes is the field. `int` and `uint` have 64 bits.

Results: `setField_spec`, `bindFields_settled`, `binding_exact_iff`, `wrapped`.
-/
import LuluExt.Lib.Strconv
import Mathlib

namespace LuluExt.Http3

open Strconv (NumError parseInt parseUint Denotes)

/-! ## Types and memory -/

inductive Width where
  | w8
  | w16
  | w32
  | w64
deriving DecidableEq, Repr

def Width.bits : Width → ℕ
  | .w8 => 8
  | .w16 => 16
  | .w32 => 32
  | .w64 => 64

inductive Scalar where
  | string
  | int (width : Width)
  | uint (width : Width)
  | float32
  | float64
  | bool
  | other
deriving DecidableEq, Repr

inductive Ty where
  | scalar (kind : Scalar)
  | ptr (elem : Ty)
deriving DecidableEq, Repr

structure Library where
  Float : Type
  Other : Type
  zeroFloat : Float
  zeroOther : Other
  parseFloat : String → Float × Option NumError
  toFloat32 : Float → Float
  unmarshal : Other → String → Other × Option String

@[reducible] def Library.Value (lib : Library) : Scalar → Type
  | .string => String
  | .int width => BitVec width.bits
  | .uint width => BitVec width.bits
  | .float32 => lib.Float
  | .float64 => lib.Float
  | .bool => Bool
  | .other => lib.Other

def Library.zero (lib : Library) : (kind : Scalar) → lib.Value kind
  | .string => ""
  | .int _ => 0
  | .uint _ => 0
  | .float32 => lib.zeroFloat
  | .float64 => lib.zeroFloat
  | .bool => false
  | .other => lib.zeroOther

inductive Addr where
  | given (id : ℕ)
  | new (n : ℕ)
deriving DecidableEq, Repr

structure Memory (lib : Library) where
  word : (kind : Scalar) → Addr → lib.Value kind
  /-- cells that hold pointers, by what they point to -/
  link : Ty → Addr → Option Addr
  made : ℕ
  closed : ∀ elem a n, link elem a = some (.new n) → n < made

variable {lib : Library}

def Memory.write (m : Memory lib) (kind : Scalar) (a : Addr) (v : lib.Value kind) : Memory lib :=
  { m with word := Function.update m.word kind (Function.update (m.word kind) a v) }

/-- `field.Set(reflect.New(elem))`: the new cell is zero -/
def Memory.setNew (m : Memory lib) (elem : Ty) (a : Addr) : Memory lib where
  word kind b := if b = .new m.made then lib.zero kind else m.word kind b
  link t b := if t = elem ∧ b = a then some (.new m.made) else if b = .new m.made then none else m.link t b
  made := m.made + 1
  closed t b n h := by
    split_ifs at h with hset
    · cases h
      exact Nat.lt_succ_self _
    · exact Nat.lt_succ_of_lt (m.closed t b n h)

/-! ## The setter -/

inductive BindError where
  | num (func num : String) (err : NumError)
  | json (text : String)
deriving DecidableEq, Repr

def parseBool (s : String) : Option Bool :=
  if s ∈ ["1", "t", "T", "TRUE", "true", "True"] then some true
  else if s ∈ ["0", "f", "F", "FALSE", "false", "False"] then some false
  else none

/-- the value that a field gets, by its kind; it stays as it is if it is not set -/
def convert (lib : Library) : (kind : Scalar) → lib.Value kind → String → lib.Value kind × Option BindError
  | .string, _, value => (value, none)
  | .int width, old, value =>
    match parseInt value.toList with
    | (_, some err) => (old, some (.num "ParseInt" value err))
    | (n, none) => (BitVec.ofInt width.bits n, none)
  | .uint width, old, value =>
    match parseUint value.toList with
    | (_, some err) => (old, some (.num "ParseUint" value err))
    | (n, none) => (BitVec.ofNat width.bits n, none)
  | .float32, old, value =>
    match lib.parseFloat value with
    | (_, some err) => (old, some (.num "ParseFloat" value err))
    | (x, none) => (lib.toFloat32 x, none)
  | .float64, old, value =>
    match lib.parseFloat value with
    | (_, some err) => (old, some (.num "ParseFloat" value err))
    | (x, none) => (x, none)
  | .bool, old, value =>
    match parseBool value with
    | none => (old, some (.num "ParseBool" value .errSyntax))
    | some b => (b, none)
  | .other, old, value =>
    let decoded := lib.unmarshal old ("\"" ++ value ++ "\"")
    (decoded.1, decoded.2.map .json)

/-- what a field's pointer leads to can be set if the field can -/
def setField (canSet : Bool) (m : Memory lib) : Ty → Addr → String → Memory lib × Option BindError
  | .scalar kind, a, value =>
    if canSet = false then (m, none)
    else
      let set := convert lib kind (m.word kind a) value
      (m.write kind a set.1, set.2)
  | .ptr elem, a, value =>
    if canSet = false then (m, none)
    else
      match m.link elem a with
      | none => setField canSet (m.setNew elem a) elem (.new m.made) value
      | some b => setField canSet m elem b value

/-! ## The fields of a struct -/

abbrev Values := String → Option (List String)

structure Field where
  /-- the tags; empty if there is none -/
  json : String := ""
  form : String := ""
  query : String := ""
  exported : Bool := true
  type : Ty
  id : ℕ
deriving DecidableEq, Repr

def Field.addr (f : Field) : Addr := .given f.id

def Field.tag (f : Field) : String := if f.json ≠ "" then f.json else if f.form ≠ "" then f.form else f.query

/-- the name before the options of the tag; none if the field is passed over -/
def Field.name (f : Field) : Option String :=
  if f.tag = "" then none
  else
    let name := String.ofList (f.tag.toList.takeWhile (· ≠ ','))
    if name = "-" then none else some name

/-- the value that a field is given: the first one, if it is not empty -/
def Field.given (values : Values) (f : Field) : Option String :=
  match f.name.bind values with
  | some (value :: _) => if value = "" then none else some value
  | _ => none

def bindFields (values : Values) (m : Memory lib) : List Field → Memory lib × Option BindError
  | [] => (m, none)
  | f :: fs =>
    match f.given values with
    | none => bindFields values m fs
    | some value =>
      match setField f.exported m f.type f.addr value with
      | (m', some err) => (m', some err)
      | (m', none) => bindFields values m' fs

inductive Obj where
  | pointerTo (fields : List Field)
  /-- nil, or no pointer to a struct -/
  | other

def bindURLValues (values : Values) (m : Memory lib) : Obj → Memory lib × Option BindError
  | .pointerTo fields => bindFields values m fields
  | .other => (m, none)

def bindQuery (values : Values) (m : Memory lib) (obj : Obj) : Memory lib × Option BindError :=
  bindURLValues values m obj

/-! ## What is expected -/

def Ty.base : Ty → Scalar
  | .scalar kind => kind
  | .ptr elem => elem.base

/-- where pointers lead from a cell of a type: to a cell that has none, or to the first nil pointer -/
def Memory.place (m : Memory lib) : Ty → Addr → Ty × Addr
  | .scalar kind, a => (.scalar kind, a)
  | .ptr elem, a =>
    match m.link elem a with
    | none => (.ptr elem, a)
    | some b => m.place elem b

/-- what is in a place; nothing if it is a nil pointer -/
def Memory.content (m : Memory lib) : Ty × Addr → Option ((kind : Scalar) × lib.Value kind)
  | (.scalar kind, a) => some ⟨kind, m.word kind a⟩
  | (.ptr _, _) => none

def Memory.leads (m : Memory lib) (f : Field) : Ty × Addr := m.place f.type f.addr

def Scalar.isInteger : Scalar → Bool
  | .int _ => true
  | .uint _ => true
  | _ => false

def Library.number (lib : Library) : (kind : Scalar) → lib.Value kind → Option ℤ
  | .int _, v => some v.toInt
  | .uint _, v => some v.toNat
  | _, _ => none

/-- the integer in a field, behind its pointers if it has some -/
def Memory.number (m : Memory lib) (f : Field) : Option ℤ :=
  (m.content (m.leads f)).bind fun v => lib.number v.1 v.2

def Scalar.Holds : Scalar → ℤ → Prop
  | .int width, z => -2 ^ (width.bits - 1) ≤ z ∧ z < 2 ^ (width.bits - 1)
  | .uint width, z => 0 ≤ z ∧ z < 2 ^ width.bits
  | _, _ => False

/-- the field has the integer that the text denotes -/
def Exact (m : Memory lib) (f : Field) (text : String) : Prop := ∃ z, Denotes text.toList z ∧ m.number f = some z

structure Given (values : Values) (fields : List Field) (f : Field) (text : String) : Prop where
  mem : f ∈ fields
  integer : f.type.base.isInteger = true
  given : f.given values = some text

/-- what a field and the fields that lead to its place ask of the memory **before** the call: the number fits, it is
that of every field that is set in this place, and if none is, it is there already -/
structure Fitting (values : Values) (fields : List Field) (m : Memory lib) (f : Field) (text : String) : Prop where
  holds : ∃ z, Denotes text.toList z ∧ f.type.base.Holds z
  alike : ∀ g text', Given values fields g text' → g.exported = true → m.leads g = m.leads f →
    ∀ z, Denotes text.toList z ↔ Denotes text'.toList z
  unset : (∀ g text', Given values fields g text' → g.exported = true → m.leads g ≠ m.leads f) → Exact m f text

/-! ## One call -/

def Memory.Known (m : Memory lib) : Addr → Prop
  | .given _ => True
  | .new n => n < m.made

variable {m m' : Memory lib} {a b : Addr} {t elem : Ty} {kind : Scalar} {p : Ty × Addr}

theorem Memory.Known.mono (h : m.made ≤ m'.made) (ha : m.Known a) : m'.Known a := by
  cases a with
  | given id => trivial
  | new n => exact lt_of_lt_of_le ha h

theorem Memory.known_of_link (h : m.link elem a = some b) : m.Known b := by
  cases b with
  | given id => trivial
  | new n => exact m.closed elem a n h

theorem Memory.Known.ne_new (ha : m.Known a) : a ≠ .new m.made := by
  rintro rfl
  exact lt_irrefl _ ha

theorem Memory.place_nil (h : m.link elem a = none) : m.place (.ptr elem) a = (.ptr elem, a) := by
  rw [place, h]

theorem Memory.place_link (h : m.link elem a = some b) : m.place (.ptr elem) a = m.place elem b := by
  rw [place, h]

theorem Memory.known_place (ha : m.Known a) : m.Known (m.place t a).2 := by
  induction t generalizing a with
  | scalar kind => exact ha
  | ptr elem ih =>
    cases hlink : m.link elem a with
    | none => rwa [place_nil hlink]
    | some b =>
      rw [place_link hlink]
      exact ih (known_of_link hlink)

theorem Memory.place_base (m : Memory lib) (t : Ty) (a : Addr) : (m.place t a).1.base = t.base := by
  induction t generalizing a with
  | scalar kind => rfl
  | ptr elem ih =>
    cases hlink : m.link elem a with
    | none => rw [place_nil hlink]
    | some b =>
      rw [place_link hlink]
      exact ih b

theorem Memory.base_of_leads {f g : Field} (h : m.leads f = m.leads g) : f.type.base = g.type.base := by
  rw [← m.place_base f.type f.addr, ← m.place_base g.type g.addr]
  exact congrArg (·.1.base) h

theorem Memory.place_write (m : Memory lib) (kind : Scalar) (a : Addr) (v : lib.Value kind) (t : Ty) (b : Addr) :
    (m.write kind a v).place t b = m.place t b := by
  induction t generalizing b with
  | scalar kind => rfl
  | ptr elem ih => simp only [place, write, ← ih]

theorem Memory.content_write (v : lib.Value kind) (h : p ≠ (.scalar kind, a)) :
    (m.write kind a v).content p = m.content p := by
  obtain ⟨t, b⟩ := p
  cases t with
  | ptr elem => rfl
  | scalar kind' =>
    by_cases hkind : kind' = kind
    · subst hkind
      have hb : b ≠ a := by
        rintro rfl
        exact h rfl
      simp [content, write, hb]
    · simp [content, write, hkind]

/-! A new cell is in no place of before; only the nil pointer that is set leads to it. -/

theorem Memory.link_setNew (ha : m.Known b) (hne : ¬ (t = elem ∧ b = a)) :
    (m.setNew elem a).link t b = m.link t b := by
  simp only [setNew, if_neg hne, if_neg ha.ne_new]

theorem Memory.link_setNew_self : (m.setNew elem a).link elem a = some (.new m.made) := if_pos ⟨rfl, rfl⟩

theorem Memory.content_setNew (hp : m.Known p.2) : (m.setNew elem a).content p = m.content p := by
  obtain ⟨t, b⟩ := p
  cases t with
  | ptr _ => rfl
  | scalar kind => simp only [content, setNew, if_neg (Known.ne_new hp)]

theorem Memory.place_new (ha : m.Known a) : (m.setNew elem a).place elem (.new m.made) = (elem, .new m.made) := by
  cases elem with
  | scalar kind => rfl
  | ptr next =>
    refine place_nil ?_
    have hne : ¬ (next = .ptr next ∧ Addr.new m.made = a) := fun h => ha.ne_new h.2.symm
    simp only [setNew, if_neg hne, if_true]

theorem Memory.place_setNew (ha : m.Known a) (hb : m.Known b) (hnil : m.link elem a = none) :
    (m.setNew elem a).place t b =
      if m.place t b = (.ptr elem, a) then (elem, .new m.made) else m.place t b := by
  induction t generalizing b with
  | scalar kind => exact (if_neg nofun).symm
  | ptr next ih =>
    by_cases hset : next = elem ∧ b = a
    · obtain ⟨rfl, rfl⟩ := hset
      rw [place_link link_setNew_self, place_new ha, place_nil hnil, if_pos rfl]
    · have hnew : (m.setNew elem a).link next b = m.link next b := link_setNew hb hset
      cases hlink : m.link next b with
      | none => rw [place_nil hlink, place_nil (hnew.trans hlink), if_neg (by simpa using hset)]
      | some c => rw [place_link hlink, place_link (hnew.trans hlink), ih (known_of_link hlink)]

/-- what led to a place leads to a cell that has been set; everything else is as it was, and leads elsewhere -/
structure Sets (m m' : Memory lib) (p : Ty × Addr) (kind : Scalar) (c : Addr) : Prop where
  same : ∀ {t b}, m.Known b → m.place t b = p → m'.place t b = (.scalar kind, c)
  other : ∀ {t b}, m.Known b → m.place t b ≠ p → m'.place t b = m.place t b
  content : ∀ {t b}, m.Known b → m.place t b ≠ p → m'.content (m.place t b) = m.content (m.place t b)
  apart : ∀ {t b}, m.Known b → m.place t b ≠ p → m.place t b ≠ (.scalar kind, c)

theorem sets_write (m : Memory lib) (kind : Scalar) (a : Addr) (v : lib.Value kind) :
    Sets m (m.write kind a v) (.scalar kind, a) kind a where
  same _ h := (m.place_write kind a v _ _).trans h
  other _ _ := m.place_write kind a v _ _
  content _ h := Memory.content_write v h
  apart _ h := h

theorem Sets.of_setNew {c : Addr} (ha : m.Known a) (hnil : m.link elem a = none)
    (h : Sets (m.setNew elem a) m' (elem, .new m.made) kind c) : Sets m m' (.ptr elem, a) kind c := by
  have hmono {b : Addr} (hb : m.Known b) : (m.setNew elem a).Known b := hb.mono (Nat.le_succ _)
  have hstays {t : Ty} {b : Addr} (hb : m.Known b) (hne : m.place t b ≠ (.ptr elem, a)) :
      (m.setNew elem a).place t b = m.place t b := (Memory.place_setNew ha hb hnil).trans (if_neg hne)
  have hne_new {t : Ty} {b : Addr} (hb : m.Known b) (hne : m.place t b ≠ (.ptr elem, a)) :
      (m.setNew elem a).place t b ≠ (elem, .new m.made) := by
    rw [hstays hb hne]
    intro heq
    exact (Memory.known_place hb).ne_new (congrArg Prod.snd heq)
  constructor
  · intro t b hb heq
    exact h.same (hmono hb) ((Memory.place_setNew ha hb hnil).trans (if_pos heq))
  · intro t b hb hne
    rw [h.other (hmono hb) (hne_new hb hne), hstays hb hne]
  · intro t b hb hne
    rw [← Memory.content_setNew (Memory.known_place hb), ← hstays hb hne]
    exact h.content (hmono hb) (hne_new hb hne)
  · intro t b hb hne
    rw [← hstays hb hne]
    exact h.apart (hmono hb) (hne_new hb hne)

/-- **One call** sets one cell, to which then leads what led to the field's place. -/
theorem setField_spec {value : String} {err : Option BindError}
    (ha : m.Known a) (h : setField true m t a value = (m', err)) :
    ∃ c, Sets m m' (m.place t a) t.base c ∧ ∃ old, convert lib t.base old value = (m'.word t.base c, err) := by
  induction t generalizing m a with
  | scalar kind =>
    cases h
    refine ⟨a, sets_write m kind a _, m.word kind a, ?_⟩
    simp [Memory.write, Ty.base]
  | ptr elem ih =>
    rw [setField, if_neg (by decide)] at h
    split at h
    next hnil =>
      have hnew : (m.setNew elem a).Known (.new m.made) := Nat.lt_succ_self m.made
      obtain ⟨c, hsets, hold⟩ := ih hnew h
      rw [Memory.place_new ha] at hsets
      rw [Memory.place_nil hnil]
      exact ⟨c, hsets.of_setNew ha hnil, hold⟩
    next b hb =>
      rw [Memory.place_link hb]
      exact ih (Memory.known_of_link hb) h

theorem setField_not_exported (m : Memory lib) (t : Ty) (a : Addr) (value : String) :
    setField false m t a value = (m, none) := by
  cases t <;> rfl

/-! ## A whole run -/

def settled (values : Values) (fields : List Field) : List (Field × String) :=
  (fields.filter (·.exported)).filterMap fun f => (f.given values).map (f, ·)

theorem mem_settled {values : Values} {fields : List Field} {f : Field} {text : String} :
    (f, text) ∈ settled values fields ↔ f ∈ fields ∧ f.exported ∧ f.given values = some text := by
  simp only [settled, List.mem_filterMap, List.mem_filter, Option.map_eq_some_iff, Prod.mk.injEq]
  constructor
  · rintro ⟨_, ⟨hmem, hexported⟩, _, hgiven, rfl, rfl⟩
    exact ⟨hmem, hexported, hgiven⟩
  · rintro ⟨hmem, hexported, hgiven⟩
    exact ⟨f, ⟨hmem, hexported⟩, text, hgiven, rfl, rfl⟩

def Stored (lib : Library) (kind : Scalar) (text : String) (v : lib.Value kind) : Prop :=
  ∃ old, convert lib kind old text = (v, none)

/-- `done` have been set since `start`: fields lead to one place as they did then; a place where none of `done` led has
what it had, any other one what a field that led there was given -/
structure Settled (start m : Memory lib) (done : List (Field × String)) : Prop where
  places : ∀ x y, m.leads x = m.leads y ↔ start.leads x = start.leads y
  unset : ∀ x, (∀ q ∈ done, start.leads q.1 ≠ start.leads x) → m.content (m.leads x) = start.content (start.leads x)
  stored : ∀ x, (∃ q ∈ done, start.leads q.1 = start.leads x) →
    ∃ q ∈ done, start.leads q.1 = start.leads x ∧
      ∃ v, m.content (m.leads x) = some ⟨x.type.base, v⟩ ∧ Stored lib x.type.base q.2 v

theorem settled_nil (m : Memory lib) : Settled m m [] where
  places _ _ := Iff.rfl
  unset _ _ := rfl
  stored _ h := by
    obtain ⟨q, hq, -⟩ := h
    exact absurd hq List.not_mem_nil

variable {start : Memory lib} {done : List (Field × String)} {f : Field} {text : String}

theorem Settled.set (hdone : Settled start m done)
    (h : setField true m f.type f.addr text = (m', none)) : Settled start m' (done ++ [(f, text)]) := by
  have hknown (x : Field) : m.Known x.addr := trivial
  obtain ⟨c, hsets, hstored⟩ := setField_spec (hknown f) h
  have hsame {x : Field} (hx : m.leads x = m.leads f) : m'.leads x = (.scalar f.type.base, c) :=
    hsets.same (hknown x) hx
  have hother {x : Field} (hx : m.leads x ≠ m.leads f) : m'.leads x = m.leads x := hsets.other (hknown x) hx
  have happart {x : Field} (hx : m.leads x ≠ m.leads f) : m'.leads x ≠ (.scalar f.type.base, c) := by
    rw [hother hx]
    exact hsets.apart (hknown x) hx
  have hcontent {x : Field} (hx : m.leads x ≠ m.leads f) : m'.content (m'.leads x) = m.content (m.leads x) := by
    rw [hother hx]
    exact hsets.content (hknown x) hx
  constructor
  · intro x y
    rw [← hdone.places]
    by_cases hx : m.leads x = m.leads f <;> by_cases hy : m.leads y = m.leads f
    · simp only [hsame hx, hsame hy, hx, hy]
    · rw [hsame hx, hx]
      exact iff_of_false (happart hy).symm (Ne.symm hy)
    · rw [hsame hy, hy]
      exact iff_of_false (happart hx) hx
    · rw [hother hx, hother hy]
  · intro x hx
    have hf : m.leads x ≠ m.leads f := by
      rw [Ne, hdone.places]
      exact (hx (f, text) (by simp)).symm
    rw [hcontent hf]
    exact hdone.unset x fun q hq => hx q (List.mem_append_left _ hq)
  · intro x hx
    by_cases hf : m.leads x = m.leads f
    · -- the cell is set, perhaps again, and has the new text
      refine ⟨(f, text), by simp, ((hdone.places x f).1 hf).symm, ?_⟩
      rw [hsame hf, Memory.base_of_leads hf]
      exact ⟨_, rfl, hstored⟩
    · have hbefore : ∃ q ∈ done, start.leads q.1 = start.leads x := by
        obtain ⟨q, hq, hqx⟩ := hx
        obtain hq | hq := List.mem_append.1 hq
        · exact ⟨q, hq, hqx⟩
        · obtain rfl := List.mem_singleton.1 hq
          exact absurd ((hdone.places x f).2 hqx.symm) hf
      obtain ⟨q, hq, hqx, hvalue⟩ := hdone.stored x hbefore
      rw [hcontent hf]
      exact ⟨q, List.mem_append_left _ hq, hqx, hvalue⟩

/-- **A whole run**: whatever the fields are and wherever they lead. -/
theorem bindFields_settled (values : Values) (fields : List Field)
    (h : bindFields values m fields = (m', none)) (hdone : Settled start m done) :
    Settled start m' (done ++ settled values fields) := by
  induction fields generalizing m done with
  | nil =>
    cases h
    simpa [settled] using hdone
  | cons f fields ih =>
    rw [bindFields] at h
    cases hgiven : f.given values with
    | none =>
      rw [hgiven] at h
      have hsettled : settled values (f :: fields) = settled values fields := by
        cases hexported : f.exported <;> simp [settled, hexported, hgiven]
      rw [hsettled]
      exact ih h hdone
    | some text =>
      rw [hgiven] at h
      cases hexported : f.exported with
      | false =>
        simp only [hexported, setField_not_exported] at h
        have hsettled : settled values (f :: fields) = settled values fields := by simp [settled, hexported]
        rw [hsettled]
        exact ih h hdone
      | true =>
        have hsettled : settled values (f :: fields) = (f, text) :: settled values fields := by
          simp [settled, hexported, hgiven]
        rw [hexported] at h
        dsimp only at h
        split at h
        · cases h
        next next hset =>
          rw [hsettled, List.append_cons]
          exact ih h (hdone.set hset)

/-! ## Numbers -/

theorem toInt_ofInt_eq {width : Width} {z : ℤ} (h : Scalar.Holds (.int width) z) :
    (BitVec.ofInt width.bits z).toInt = z := by
  rw [BitVec.toInt_ofInt]
  obtain ⟨hlo, hhi⟩ := h
  cases width <;> exact Int.bmod_eq_of_le (by simpa [Width.bits] using hlo) (by simpa [Width.bits] using hhi)

theorem Stored.number {text : String} {v : lib.Value kind} (hkind : kind.isInteger)
    (h : Stored lib kind text v) :
    ∃ z, Denotes text.toList z ∧ (kind.Holds z → lib.number kind v = some z) := by
  obtain ⟨old, hold⟩ := h
  cases kind with
  | string | float32 | float64 | bool | other => cases hkind
  | int width =>
    simp only [convert] at hold
    split at hold
    · cases hold
    next z hz =>
      cases hold
      refine ⟨z, ((Strconv.parseInt_eq_iff _ z).1 hz).1, fun hholds => ?_⟩
      rw [Library.number, toInt_ofInt_eq hholds]
  | uint width =>
    simp only [convert] at hold
    split at hold
    · cases hold
    next n hn =>
      cases hold
      refine ⟨n, .plain ((Strconv.parseUint_eq_iff _ n).1 hn).1, fun hholds => ?_⟩
      have hlt : n < 2 ^ width.bits := by exact_mod_cast hholds.2
      rw [Library.number, BitVec.toNat_ofNat, Nat.mod_eq_of_lt hlt]

theorem holds_number {v : lib.Value kind} {z : ℤ} (h : lib.number kind v = some z) : kind.Holds z := by
  cases kind with
  | int width =>
    cases h
    exact ⟨BitVec.le_toInt v, BitVec.toInt_lt⟩
  | uint width =>
    cases h
    exact ⟨Int.natCast_nonneg _, by exact_mod_cast v.isLt⟩
  | string | float32 | float64 | bool | other => cases h

theorem Memory.holds_of_number {z : ℤ} (h : m.number f = some z) : f.type.base.Holds z := by
  obtain ⟨⟨kind, v⟩, hcontent, hnumber⟩ := Option.bind_eq_some_iff.1 h
  have hbase : (m.leads f).1.base = kind := by
    revert hcontent
    cases m.leads f with
    | mk t a =>
      cases t with
      | scalar kind' => exact fun hcontent => congrArg Sigma.fst (Option.some.inj hcontent)
      | ptr elem => exact fun hcontent => nomatch hcontent
  rw [← m.place_base f.type f.addr]
  exact hbase ▸ holds_number hnumber

theorem Memory.number_of_leads {g : Field} (h : m.leads f = m.leads g) : m.number f = m.number g := by
  rw [number, number, h]

theorem Memory.number_of_unset (hsettled : Settled start m done)
    (h : ∀ q ∈ done, start.leads q.1 ≠ start.leads f) : m.number f = start.number f := by
  rw [number, number, hsettled.unset f h]

/-- **No number is changed** exactly if each one fits the width of its field, fields that led to one place are given one
number, and where none of them is exported it was there before. -/
theorem binding_exact_iff (lib : Library) (values : Values) (fields : List Field) (m m' : Memory lib)
    (hbind : bindQuery values m (.pointerTo fields) = (m', none)) :
    (∀ f text, Given values fields f text → Exact m' f text) ↔
      ∀ f text, Given values fields f text → Fitting values fields m f text := by
  have hsettled : Settled m m' (settled values fields) := bindFields_settled values fields hbind (settled_nil m)
  -- the fields that have been set in the place of an integer field are those that the condition is about
  have hgiven {f g : Field} {text text' : String} (hf : Given values fields f text)
      (hg : (g, text') ∈ settled values fields) (hleads : m.leads g = m.leads f) :
      Given values fields g text' ∧ g.exported = true := by
    obtain ⟨hmem, hexported, htext⟩ := mem_settled.1 hg
    exact ⟨⟨hmem, Memory.base_of_leads hleads ▸ hf.integer, htext⟩, hexported⟩
  constructor
  · intro hexact f text hf
    obtain ⟨z, hz, hnumber⟩ := hexact f text hf
    refine ⟨⟨z, hz, Memory.holds_of_number hnumber⟩, ?_, ?_⟩
    · intro g text' hg _ hleads z'
      obtain ⟨y, hy, hnumber'⟩ := hexact g text' hg
      rw [Memory.number_of_leads ((hsettled.places g f).2 hleads), hnumber] at hnumber'
      obtain rfl := Option.some.inj hnumber'
      constructor
      · intro hz'
        rwa [hz'.unique hz]
      · intro hz'
        rwa [hz'.unique hy]
    · intro hnone
      have hunset : ∀ q ∈ settled values fields, m.leads q.1 ≠ m.leads f := by
        rintro ⟨g, text'⟩ hg hleads
        obtain ⟨hggiven, hexported⟩ := hgiven hf hg hleads
        exact hnone g text' hggiven hexported hleads
      exact ⟨z, hz, (Memory.number_of_unset hsettled hunset).symm.trans hnumber⟩
  · intro hfitting f text hf
    have hfits := hfitting f text hf
    by_cases hset : ∃ q ∈ settled values fields, m.leads q.1 = m.leads f
    · obtain ⟨⟨g, text'⟩, hg, hleads, v, hcontent, hstored⟩ := hsettled.stored f hset
      obtain ⟨hggiven, hexported⟩ := hgiven hf hg hleads
      obtain ⟨z, hz, hnumber⟩ := hstored.number hf.integer
      have hz' : Denotes text.toList z := (hfits.alike g text' hggiven hexported hleads z).2 hz
      obtain ⟨y, hy, hholds⟩ := hfits.holds
      obtain rfl : y = z := hy.unique hz'
      refine ⟨y, hy, ?_⟩
      rw [Memory.number, hcontent]
      exact hnumber hholds
    · have hunset : ∀ q ∈ settled values fields, m.leads q.1 ≠ m.leads f := fun q hq hleads => hset ⟨q, hq, hleads⟩
      obtain ⟨z, hz, hnumber⟩ := hfits.unset fun g text' hg hexported hleads =>
        hset ⟨(g, text'), mem_settled.2 ⟨hg.mem, hexported, hg.given⟩, hleads⟩
      exact ⟨z, hz, (Memory.number_of_unset hsettled hunset).trans hnumber⟩

def integers : Library where
  Float := Unit
  Other := Unit
  zeroFloat := ()
  zeroOther := ()
  parseFloat _ := ((), some .errSyntax)
  toFloat32 _ := ()
  unmarshal _ _ := ((), none)

def blank : Memory integers where
  word kind _ := integers.zero kind
  link _ _ := none
  made := 0
  closed _ _ _ h := by cases h

def port : Field := { form := "port,omitempty", type := .ptr (.scalar (.uint .w16)), id := 0 }

def kept : Field := { json := "kept", exported := false, type := .scalar (.int .w8), id := 1 }

def portAndKept : Values := fun key =>
  if key = "port" then some ["8080"] else if key = "kept" then some ["-7", "8"] else none

/-- The nil pointer gets its number, and the field that is not exported has it before. -/
theorem port_bound :
    ∃ m', bindQuery portAndKept (blank.write (.int .w8) kept.addr (-7)) (.pointerTo [port, kept]) = (m', none) ∧
      ∀ f text, Given portAndKept [port, kept] f text → Exact m' f text := by
  refine ⟨_, rfl, (binding_exact_iff integers portAndKept [port, kept]
    (blank.write (.int .w8) kept.addr (-7)) _ rfl).2 ?_⟩
  have hcases : ∀ f text, Given portAndKept [port, kept] f text →
      f = port ∧ text = "8080" ∨ f = kept ∧ text = "-7" := by
    rintro f text ⟨hmem, -, hgiven⟩
    obtain rfl | hmem := List.mem_cons.1 hmem
    · exact .inl ⟨rfl, (Option.some.inj hgiven).symm⟩
    · obtain rfl := List.mem_singleton.1 hmem
      exact .inr ⟨rfl, (Option.some.inj hgiven).symm⟩
  have hseven : Denotes "-7".toList (-7) := .minus (n := 7) ⟨by decide, List.all_eq_true.1 (by decide), by decide⟩
  intro f text hf
  obtain ⟨rfl, rfl⟩ | ⟨rfl, rfl⟩ := hcases f text hf
  · refine ⟨⟨8080, .plain ⟨by decide, List.all_eq_true.1 (by decide), by decide⟩, by decide, by decide⟩, ?_, ?_⟩
    · intro g text' hg hexported _ z
      obtain ⟨rfl, rfl⟩ | ⟨rfl, rfl⟩ := hcases g text' hg
      · exact Iff.rfl
      · cases hexported
    · exact fun hnone => absurd rfl (hnone port "8080" hf rfl)
  · refine ⟨⟨-7, hseven, by decide, by decide⟩, ?_, fun _ => ⟨-7, hseven, by decide⟩⟩
    intro g text' hg hexported hleads z
    obtain ⟨rfl, rfl⟩ | ⟨rfl, rfl⟩ := hcases g text' hg
    · exact absurd hleads (by decide)
    · cases hexported

def one (name value : String) : Values := fun key => if key = name then some [value] else none

def level : Field := { json := "level", type := .scalar (.int .w8), id := 0 }

/-- Without an error a field of 8 bits has 44 for 300. -/
theorem wrapped :
    (bindQuery (one "level" "300") blank (.pointerTo [level])).2 = none ∧
    (bindQuery (one "level" "300") blank (.pointerTo [level])).1.number level = some 44 ∧
    ¬ ∀ f text, Given (one "level" "300") [level] f text →
      Exact (bindQuery (one "level" "300") blank (.pointerTo [level])).1 f text := by
  have hnumber : (bindQuery (one "level" "300") blank (.pointerTo [level])).1.number level = some 44 := by decide
  refine ⟨rfl, hnumber, fun hexact => ?_⟩
  obtain ⟨z, hz, hz'⟩ := hexact level "300" ⟨List.mem_singleton.2 rfl, rfl, rfl⟩
  have hdenotes : Denotes "300".toList (300 : ℕ) := .plain ⟨by decide, List.all_eq_true.1 (by decide), by decide⟩
  obtain rfl := hz.unique hdenotes
  rw [hnumber] at hz'
  exact absurd hz' (by decide)

end LuluExt.Http3
