/-
URLs with an authority, as Go's net/url parses them, and the split of host and port of package net.

A text is a list of characters. `parse` gives the scheme and the host of a URL; its other parts are only checked, and
its errors are not told apart. Hosts with percent escapes are rejected here. What netip.ParseAddr accepts between
square brackets is a parameter. `endpoint` is the reading of `scheme://host:port`: parse, then split the host.

- `parse_written`: a scheme, a host and a port that are written `scheme://host:port` are parsed as such;
- `endpoint_written`: an address without a colon comes back from there;
- `endpoint_colon`: one with a colon, written without brackets, does not;
- `endpoint_not_scheme`: nor does anything else than a scheme before `://`, unless it has one of `/`, `?`, `#`.
-/
import Mathlib

namespace LuluExt.Url

abbrev Text := List Char

/-! ## Cutting -/

/-- before and after the first `c` -/
def cut (c : Char) : Text → Option (Text × Text)
  | [] => none
  | x :: xs => if x = c then some ([], xs) else (cut c xs).map fun p => (x :: p.1, p.2)

/-- before and after the last `c` -/
def rcut (c : Char) : Text → Option (Text × Text)
  | [] => none
  | x :: xs =>
    match rcut c xs with
    | some (a, b) => some (x :: a, b)
    | none => if x = c then some ([], xs) else none

section

variable {c : Char} {a b s : Text}

theorem cut_eq_none (h : c ∉ s) : cut c s = none := by
  induction s with
  | nil => rfl
  | cons x xs ih =>
    rw [List.mem_cons, not_or] at h
    simp [cut, Ne.symm h.1, ih h.2]

theorem cut_append (h : c ∉ a) : cut c (a ++ c :: b) = some (a, b) := by
  induction a with
  | nil => simp [cut]
  | cons x xs ih =>
    rw [List.mem_cons, not_or] at h
    simp [cut, Ne.symm h.1, ih h.2]

theorem rcut_eq_none (h : c ∉ s) : rcut c s = none := by
  induction s with
  | nil => rfl
  | cons x xs ih =>
    rw [List.mem_cons, not_or] at h
    simp [rcut, Ne.symm h.1, ih h.2]

theorem rcut_append (h : c ∉ b) : rcut c (a ++ c :: b) = some (a, b) := by
  induction a with
  | nil => simp [rcut, rcut_eq_none h]
  | cons x xs ih => simp [rcut, ih]

end

/-! ## Parsing -/

/-- of a URL, what is read here -/
structure Parsed where
  scheme : Text
  host : Text
deriving DecidableEq, Repr

def isSchemeChar (c : Char) : Bool := c.isAlphanum || c == '+' || c == '-' || c == '.'

/-- the scheme and what follows its colon, or no scheme and the whole text; none if a colon comes first -/
def getScheme (raw : Text) : Option (Text × Text) :=
  match raw.takeWhile isSchemeChar, raw.dropWhile isSchemeChar with
  | [], ':' :: _ => none
  | c :: cs, ':' :: rest => if c.isAlpha = true then some (c :: cs, rest) else some ([], raw)
  | _, _ => some ([], raw)

def isControl (c : Char) : Bool := decide (c.toNat < 0x20) || c.toNat == 0x7f

def isHex (c : Char) : Bool := c.isDigit || ('a' ≤ c && c ≤ 'f') || ('A' ≤ c && c ≤ 'F')

/-- each percent sign is followed by two hexadecimal digits -/
def validEscapes : Text → Bool
  | [] => true
  | '%' :: x :: y :: rest => isHex x && isHex y && validEscapes rest
  | c :: rest => c != '%' && validEscapes rest

/-- nothing, or a colon and digits -/
def validOptionalPort : Text → Bool
  | [] => true
  | c :: digits => c == ':' && digits.all Char.isDigit

/-- what a host may have unescaped -/
def isHostChar (c : Char) : Bool :=
  c.isAlphanum || "!$&\x27()*+,;=:[]<>\x22-_.~".toList.contains c || decide (0x80 ≤ c.toNat)

/-- what a user name and a password may have -/
def isUserinfoChar (c : Char) : Bool := c.isAlphanum || "-._:~!$&\x27()*+,;=%@".toList.contains c

/-- the schemes for which a host may have several colons -/
def manyColons (scheme : Text) : Bool := scheme == "postgresql".toList || scheme == "postgres".toList

/-- from the first colon of a host without brackets -/
def colonPort (scheme host : Text) : Text :=
  match cut ':' host with
  | some (_, rest) =>
    if rest.contains ':' && manyColons scheme then ':' :: ((rcut ':' rest).map Prod.snd).getD rest else ':' :: rest
  | none => []

def parseHost (ipv6 : Text → Bool) (scheme host : Text) : Option Text :=
  match rcut '[' host with
  | some ([], _) =>
    match rcut ']' host with
    | some (literal, rest) =>
      if validOptionalPort rest && literal.tail.all isHostChar && ipv6 literal.tail then some host else none
    | none => none
  | some (_ :: _, _) => none
  | none => if validOptionalPort (colonPort scheme host) && host.all isHostChar then some host else none

def parseAuthority (ipv6 : Text → Bool) (scheme authority : Text) : Option Text :=
  match rcut '@' authority with
  | none => parseHost ipv6 scheme authority
  | some (userinfo, host) =>
    if userinfo.all isUserinfoChar && validEscapes userinfo then parseHost ipv6 scheme host else none

/-- what follows the scheme, up to the query -/
def parseRest (ipv6 : Text → Bool) (scheme : Text) : Text → Option Parsed
  | '/' :: '/' :: rest =>
    if scheme = [] ∧ rest.head? = some '/' then if validEscapes rest then some ⟨[], []⟩ else none
    else
      let (authority, path) := (cut '/' rest).getD (rest, [])
      if validEscapes path then (parseAuthority ipv6 scheme authority).map (Parsed.mk scheme) else none
  | '/' :: rest => if validEscapes rest then some ⟨scheme, []⟩ else none
  | rest =>
    if scheme ≠ [] then some ⟨scheme, []⟩
    else if (((cut '/' rest).map Prod.fst).getD rest).contains ':' || !validEscapes rest then none
    else some ⟨[], []⟩

def parse (ipv6 : Text → Bool) (raw : Text) : Option Parsed :=
  let (u, fragment) := (cut '#' raw).getD (raw, [])
  if u.any isControl || !validEscapes fragment then none
  else if u = ['*'] then some ⟨[], []⟩
  else
    match getScheme u with
    | none => none
    | some (scheme, rest) => parseRest ipv6 (scheme.map Char.toLower) (((cut '?' rest).map Prod.fst).getD rest)

def Parsed.port (u : Parsed) : Text :=
  match rcut ':' u.host with
  | some (_, port) => if port.all Char.isDigit then port else []
  | none => []

def splitHostPort (hostport : Text) : Option (Text × Text) :=
  match rcut ':' hostport with
  | none => none
  | some (host, port) =>
    if hostport.head? = some '[' then
      match cut ']' hostport with
      | none => none
      | some (literal, rest) =>
        if rest = ':' :: port ∧ '[' ∉ hostport.tail ∧ ']' ∉ rest then some (literal.tail, port) else none
    else if ':' ∈ host ∨ '[' ∈ hostport ∨ ']' ∈ hostport then none
    else some (host, port)

/-- an address to connect to, with its scheme -/
structure Endpoint where
  scheme : Text
  host : Text
  port : Text
deriving DecidableEq, Repr

/-- `url.Parse` and `net.SplitHostPort` of its host -/
def endpoint (ipv6 : Text → Bool) (raw : Text) : Option Endpoint := do
  let u ← parse ipv6 raw
  let (host, port) ← splitHostPort u.host
  return ⟨u.scheme, host, port⟩

/-! ## What is written comes back -/

/-- a letter, then letters, digits, `+`, `-` and `.` -/
def isScheme : Text → Bool
  | [] => false
  | c :: cs => c.isAlpha && cs.all isSchemeChar

variable {c : Char}

section

variable {ipv6 : Text → Bool} {scheme auth host port : Text}

theorem isSchemeChar_of_isScheme (h : isScheme scheme) (hc : c ∈ scheme) : isSchemeChar c := by
  cases scheme with
  | nil => cases hc
  | cons x xs =>
    simp only [isScheme, Bool.and_eq_true, List.all_eq_true] at h
    rcases List.mem_cons.1 hc with rfl | hc
    · simp [isSchemeChar, Char.isAlphanum, h.1]
    · exact h.2 c hc

theorem not_mem_of_all {p : Char → Bool} {s : Text} (h : ∀ c ∈ s, p c) {d : Char} (hd : p d = false) :
    d ∉ s := by
  intro hmem
  rw [h d hmem] at hd
  cases hd

theorem getScheme_append (h : isScheme scheme) (rest : Text) :
    getScheme (scheme ++ ':' :: rest) = some (scheme, rest) := by
  have hall : ∀ c ∈ scheme, isSchemeChar c := fun c hc => isSchemeChar_of_isScheme h hc
  unfold getScheme
  rw [List.takeWhile_append_of_pos hall, List.dropWhile_append_of_pos hall]
  cases scheme with
  | nil => cases h
  | cons c cs =>
    simp only [isScheme, Bool.and_eq_true] at h
    have hcolon : isSchemeChar ':' = false := by decide
    simp [hcolon, h.1]

theorem isSchemeChar_toLower (c : Char) : isSchemeChar c.toLower = isSchemeChar c := by
  by_cases hc : c.isUpper
  · have halpha : c.isAlpha := by simp [Char.isAlpha, hc]
    simp [isSchemeChar, Char.isAlphanum, halpha]
  · rw [Char.toLower_eq_of_not_isUpper (by simpa using hc)]

theorem isScheme_map_toLower (h : isScheme scheme) : isScheme (scheme.map Char.toLower) := by
  cases scheme with
  | nil => cases h
  | cons c cs =>
    simp only [isScheme, Bool.and_eq_true, List.all_eq_true] at h
    simp only [List.map_cons, isScheme, Char.isAlpha_toLower_eq_isAlpha, h.1, Bool.true_and, List.all_eq_true,
      List.mem_map, forall_exists_index, and_imp, forall_apply_eq_imp_iff₂, isSchemeChar_toLower]
    exact h.2

theorem map_toLower_toLower (s : Text) : (s.map Char.toLower).map Char.toLower = s.map Char.toLower := by
  simp

theorem isAlphanum_bounds (h : c.isAlphanum) : 0x30 ≤ c.toNat ∧ c.toNat ≤ 0x7a := by
  simp only [Char.isAlphanum, Char.isAlpha, Char.isUpper, Char.isLower, Char.isDigit, UInt32.le_iff_toNat_le] at h
  simp at h
  omega

theorem isControl_eq_false (h : 0x20 ≤ c.toNat) (h' : c.toNat ≠ 0x7f) : isControl c = false := by
  simp only [isControl, Bool.or_eq_false_iff, decide_eq_false_iff_not, beq_eq_false_iff_ne]
  omega

theorem isControl_of_isHostChar (h : isHostChar c) : isControl c = false := by
  simp only [isHostChar, Bool.or_eq_true, decide_eq_true_eq, List.contains_iff_mem] at h
  rcases h with (h | h) | h
  · have hb := isAlphanum_bounds h
    exact isControl_eq_false (by omega) (by omega)
  · have hall : ("!$&\x27()*+,;=:[]<>\x22-_.~".toList.all fun c => !isControl c) := by decide
    simpa using List.all_eq_true.1 hall c h
  · exact isControl_eq_false (by omega) (by omega)

theorem isHostChar_of_isSchemeChar (h : isSchemeChar c) : isHostChar c := by
  simp only [isSchemeChar, Bool.or_eq_true, beq_iff_eq] at h
  rcases h with ((h | rfl) | rfl) | rfl
  · simp [isHostChar, h]
  all_goals decide

theorem isHostChar_of_isDigit (h : c.isDigit) : isHostChar c := by
  simp [isHostChar, Char.isAlphanum, h]

theorem isHostChar_append (hall : ∀ c ∈ host, isHostChar c) (hp : ∀ c ∈ port, c.isDigit) :
    ∀ c ∈ host ++ ':' :: port, isHostChar c := by
  intro c hc
  simp only [List.mem_append, List.mem_cons] at hc
  rcases hc with hc | rfl | hc
  · exact hall c hc
  · decide
  · exact isHostChar_of_isDigit (hp c hc)

/-- no fragment, no query, no user, no path: the host is what is left to parse -/
theorem parse_append (hs : isScheme scheme) (ha : ∀ c ∈ auth, isHostChar c) :
    parse ipv6 (scheme ++ ':' :: '/' :: '/' :: auth) =
      (parseHost ipv6 (scheme.map Char.toLower) auth).map (Parsed.mk (scheme.map Char.toLower)) := by
  have hscheme : ∀ c ∈ scheme, isHostChar c :=
    fun c hc => isHostChar_of_isSchemeChar (isSchemeChar_of_isScheme hs hc)
  have hne : scheme ≠ [] := by
    rintro rfl
    cases hs
  have hhash : '#' ∉ scheme ++ ':' :: '/' :: '/' :: auth := by
    simp [not_mem_of_all hscheme (d := '#') (by decide), not_mem_of_all ha (d := '#') (by decide)]
  have hquery : '?' ∉ '/' :: '/' :: auth := by
    simp [not_mem_of_all ha (d := '?') (by decide)]
  have hcontrol : (scheme ++ ':' :: '/' :: '/' :: auth).any isControl = false := by
    rw [List.any_eq_false]
    intro c hc
    rw [Bool.not_eq_true]
    simp only [List.mem_append, List.mem_cons] at hc
    rcases hc with hc | rfl | rfl | rfl | hc
    · exact isControl_of_isHostChar (hscheme c hc)
    · decide
    · decide
    · decide
    · exact isControl_of_isHostChar (ha c hc)
  have hstar : scheme ++ ':' :: '/' :: '/' :: auth ≠ ['*'] := by
    intro h
    have hlen := congrArg List.length h
    simp at hlen
    omega
  have hslash : cut '/' auth = none := cut_eq_none (not_mem_of_all ha (by decide))
  have hat : rcut '@' auth = none := rcut_eq_none (not_mem_of_all ha (by decide))
  simp [parse, cut_eq_none hhash, hcontrol, validEscapes, hstar, getScheme_append hs, cut_eq_none hquery, parseRest,
    hne, hslash, parseAuthority, hat]

/-! ### Host and port -/

/-- a host without brackets and colons, and one in brackets -/
inductive HostText (ipv6 : Text → Bool) : Text → Prop where
  | name {host : Text} (hall : ∀ c ∈ host, isHostChar c = true) (hcolon : ':' ∉ host) (hopen : '[' ∉ host)
      (hclose : ']' ∉ host) : HostText ipv6 host
  | literal {addr : Text} (hall : ∀ c ∈ addr, isHostChar c = true) (hopen : '[' ∉ addr) (hclose : ']' ∉ addr)
      (haddr : ipv6 addr = true) : HostText ipv6 ('[' :: addr ++ [']'])

theorem HostText.isHostChar (h : HostText ipv6 host) : ∀ c ∈ host, isHostChar c := by
  cases h with
  | name hall => exact hall
  | literal hall =>
    intro c hc
    simp only [List.cons_append, List.mem_cons, List.mem_append, List.not_mem_nil, or_false] at hc
    rcases hc with rfl | hc | rfl
    · decide
    · exact hall c hc
    · decide

theorem validOptionalPort_cons (hp : ∀ c ∈ port, c.isDigit) : validOptionalPort (':' :: port) := by
  simpa [validOptionalPort] using hp

theorem not_mem_digits (hp : ∀ c ∈ port, c.isDigit) {d : Char} (hd : d.isDigit = false) : d ∉ port :=
  not_mem_of_all (p := Char.isDigit) hp hd

theorem parseHost_append (h : HostText ipv6 host) (hp : ∀ c ∈ port, c.isDigit) :
    parseHost ipv6 scheme (host ++ ':' :: port) = some (host ++ ':' :: port) := by
  cases h with
  | name hall hcolon hopen hclose =>
    have hnot : '[' ∉ host ++ ':' :: port := by
      simp [hopen, not_mem_digits hp (d := '[') (by decide)]
    have hcontains : port.contains ':' = false := by
      simpa using not_mem_digits hp (d := ':') (by decide)
    have hhost : (host ++ ':' :: port).all isHostChar := List.all_eq_true.2 (isHostChar_append hall hp)
    simp only [parseHost, rcut_eq_none hnot, colonPort, cut_append hcolon, hcontains, Bool.false_and,
      Bool.false_eq_true, if_false, validOptionalPort_cons hp, hhost, Bool.and_self, if_true]
  | @literal addr hall hopen hclose haddr =>
    have hleft : rcut '[' ('[' :: addr ++ [']'] ++ ':' :: port) = some ([], addr ++ [']'] ++ ':' :: port) := by
      have hnot : '[' ∉ addr ++ [']'] ++ ':' :: port := by
        simp [hopen, not_mem_digits hp (d := '[') (by decide)]
      simpa using rcut_append (a := []) hnot
    have hright : rcut ']' ('[' :: addr ++ [']'] ++ ':' :: port) = some ('[' :: addr, ':' :: port) := by
      have hnot : ']' ∉ ':' :: port := by
        simp [not_mem_digits hp (d := ']') (by decide)]
      simpa using rcut_append (a := '[' :: addr) hnot
    have hhost : addr.all isHostChar := List.all_eq_true.2 hall
    simp only [parseHost, hleft, hright, validOptionalPort_cons hp, List.tail_cons, hhost, haddr, Bool.and_self,
      if_true]

/-- **What is written is parsed.** -/
theorem parse_written (hs : isScheme scheme) (h : HostText ipv6 host) (hp : ∀ c ∈ port, c.isDigit) :
    parse ipv6 (scheme ++ ':' :: '/' :: '/' :: (host ++ ':' :: port)) =
      some ⟨scheme.map Char.toLower, host ++ ':' :: port⟩ := by
  rw [parse_append hs (isHostChar_append h.isHostChar hp), parseHost_append h hp, Option.map_some]

theorem port_append {s : Text} (hp : ∀ c ∈ port, c.isDigit) : Parsed.port ⟨s, host ++ ':' :: port⟩ = port := by
  have hcolon : ':' ∉ port := not_mem_digits hp (by decide)
  have hall : port.all Char.isDigit := List.all_eq_true.2 hp
  simp [Parsed.port, rcut_append hcolon, hall]

theorem head?_append_colon (hc : c ∉ host) (hne : c ≠ ':') (rest : Text) : (host ++ ':' :: rest).head? ≠ some c := by
  cases host with
  | nil => simpa using Ne.symm hne
  | cons x xs =>
    rw [List.mem_cons, not_or] at hc
    simpa using Ne.symm hc.1

/-- **An address without a colon comes back.** -/
theorem endpoint_written (hs : isScheme scheme) (hall : ∀ c ∈ host, isHostChar c) (hcolon : ':' ∉ host)
    (hopen : '[' ∉ host) (hclose : ']' ∉ host) (hp : ∀ c ∈ port, c.isDigit) :
    endpoint ipv6 (scheme ++ ':' :: '/' :: '/' :: (host ++ ':' :: port)) =
      some ⟨scheme.map Char.toLower, host, port⟩ := by
  have hnotOpen : '[' ∉ host ++ ':' :: port := by
    simp [hopen, not_mem_digits hp (d := '[') (by decide)]
  have hnotClose : ']' ∉ host ++ ':' :: port := by
    simp [hclose, not_mem_digits hp (d := ']') (by decide)]
  have hsplit : splitHostPort (host ++ ':' :: port) = some (host, port) := by
    simp only [splitHostPort, rcut_append (not_mem_digits hp (d := ':') (by decide)),
      head?_append_colon hopen (by decide), if_false, hcolon, hnotOpen, hnotClose, or_self]
  simp [endpoint, parse_written hs (.name hall hcolon hopen hclose) hp, hsplit]

theorem parseHost_cases (ipv6 : Text → Bool) (scheme host : Text) :
    parseHost ipv6 scheme host = none ∨ parseHost ipv6 scheme host = some host := by
  unfold parseHost
  repeat' split
  all_goals first
    | exact Or.inl rfl
    | exact Or.inr rfl

/-- **One with a colon does not**, when it is written without brackets. -/
theorem endpoint_colon (hs : isScheme scheme) (hall : ∀ c ∈ host, isHostChar c) (hcolon : ':' ∈ host)
    (hopen : '[' ∉ host) (hp : ∀ c ∈ port, c.isDigit) :
    endpoint ipv6 (scheme ++ ':' :: '/' :: '/' :: (host ++ ':' :: port)) = none := by
  have hsplit : splitHostPort (host ++ ':' :: port) = none := by
    simp only [splitHostPort, rcut_append (not_mem_digits hp (d := ':') (by decide)),
      head?_append_colon hopen (by decide), if_false, hcolon, true_or, if_true]
  rw [endpoint, parse_append hs (isHostChar_append hall hp)]
  rcases parseHost_cases ipv6 (scheme.map Char.toLower) (host ++ ':' :: port) with hparse | hparse
  · simp [hparse]
  · simp [hparse, hsplit]

/-! ### Without a scheme -/

theorem getScheme_cases (raw : Text) : getScheme raw = none ∨ getScheme raw = some ([], raw) ∨
    ∃ s rest, raw = s ++ ':' :: rest ∧ isScheme s ∧ getScheme raw = some (s, rest) := by
  have hsplit : raw.takeWhile isSchemeChar ++ raw.dropWhile isSchemeChar = raw := List.takeWhile_append_dropWhile
  have hall : ∀ c ∈ raw.takeWhile isSchemeChar, isSchemeChar c := by
    intro c hc
    exact List.all_eq_true.1 List.all_takeWhile c hc
  unfold getScheme
  split
  next => exact Or.inl rfl
  next c cs rest hs hr =>
    split_ifs with hc
    · rw [hs] at hall hsplit
      rw [hr] at hsplit
      refine Or.inr (Or.inr ⟨c :: cs, rest, hsplit.symm, ?_, rfl⟩)
      simp only [isScheme, hc, Bool.true_and, List.all_eq_true]
      exact fun x hx => hall x (List.mem_cons_of_mem c hx)
    · exact Or.inr (Or.inl rfl)
  next => exact Or.inr (Or.inl rfl)

theorem append_colon_inj {a b a' b' : Text} (h : a ++ ':' :: b = a' ++ ':' :: b') (ha : ':' ∉ a) (ha' : ':' ∉ a') :
    a = a' ∧ b = b' := by
  have hcut := cut_append (c := ':') (b := b) ha
  rw [h, cut_append ha'] at hcut
  simpa [eq_comm] using hcut

theorem parseRest_cases {rest : Text} (h : rest.head? ≠ some '/') :
    parseRest ipv6 scheme rest = none ∨ ∃ s, parseRest ipv6 scheme rest = some ⟨s, []⟩ := by
  unfold parseRest
  split
  next => simp at h
  next => simp at h
  next =>
    split_ifs
    · exact Or.inr ⟨_, rfl⟩
    · exact Or.inl rfl
    · exact Or.inr ⟨_, rfl⟩

theorem parseRest_nil {kind : Text} (hslash : '/' ∉ kind) :
    parseRest ipv6 [] (kind ++ ':' :: '/' :: '/' :: auth) = none := by
  have hcut : cut '/' (kind ++ ':' :: '/' :: '/' :: auth) = some (kind ++ [':'], '/' :: auth) := by
    have hnot : '/' ∉ kind ++ [':'] := by simp [hslash]
    simpa using cut_append (b := '/' :: auth) hnot
  have hhead := head?_append_colon hslash (by decide) ('/' :: '/' :: auth)
  unfold parseRest
  split
  next heq => simp [heq] at hhead
  next heq => simp [heq] at hhead
  next => simp [hcut]

/-- a scheme that ends before the colon of `kind://` ends at a colon of `kind` -/
theorem exists_rest {kind s rest : Text} (hkind : isScheme kind = false) (hs : isScheme s)
    (hraw : kind ++ ':' :: '/' :: '/' :: auth = s ++ ':' :: rest) :
    ∃ k, kind = s ++ ':' :: k ∧ rest = k ++ ':' :: '/' :: '/' :: auth := by
  have hs' : ':' ∉ s := not_mem_of_all (fun c hc => isSchemeChar_of_isScheme hs hc) (by decide)
  have hcolon : ':' ∈ kind := by
    by_contra hcolon
    rw [(append_colon_inj hraw hcolon hs').1, hs] at hkind
    cases hkind
  obtain ⟨k, k', rfl, hk⟩ := List.eq_append_cons_of_mem hcolon
  rw [List.append_assoc] at hraw
  obtain ⟨rfl, rfl⟩ := append_colon_inj hraw hk hs'
  exact ⟨k', rfl, rfl⟩

theorem endpoint_eq_none {raw : Text} (h : parse ipv6 raw = none ∨ ∃ s, parse ipv6 raw = some ⟨s, []⟩) :
    endpoint ipv6 raw = none := by
  rcases h with h | ⟨s, h⟩
  · simp [endpoint, h]
  · simp [endpoint, h, splitHostPort, rcut]

/-- **Nor does anything else than a scheme.** -/
theorem endpoint_not_scheme {kind : Text} (hkind : isScheme kind = false)
    (hplain : '/' ∉ kind ∧ '?' ∉ kind ∧ '#' ∉ kind) (ha : ∀ c ∈ auth, isHostChar c) :
    endpoint ipv6 (kind ++ ':' :: '/' :: '/' :: auth) = none := by
  obtain ⟨hslash, hquery, hhash⟩ := hplain
  have hhash' : '#' ∉ kind ++ ':' :: '/' :: '/' :: auth := by
    simp [hhash, not_mem_of_all ha (d := '#') (by decide)]
  have hquery' : '?' ∉ kind ++ ':' :: '/' :: '/' :: auth := by
    simp [hquery, not_mem_of_all ha (d := '?') (by decide)]
  have hstar : kind ++ ':' :: '/' :: '/' :: auth ≠ ['*'] := by
    intro h
    have hlen := congrArg List.length h
    simp at hlen
    omega
  apply endpoint_eq_none
  simp only [parse, cut_eq_none hhash', Option.getD_none]
  split_ifs
  · exact Or.inl rfl
  rcases getScheme_cases (kind ++ ':' :: '/' :: '/' :: auth) with h | h | ⟨s, rest, hraw, hs, h⟩
  · exact Or.inl (by rw [h])
  · simp only [h, cut_eq_none hquery']
    exact Or.inl (parseRest_nil hslash)
  · -- no slash follows the scheme, so no authority does
    obtain ⟨k, rfl, rfl⟩ := exists_rest hkind hs hraw
    have hslash' : '/' ∉ k := fun hmem => hslash (by simp [hmem])
    have hquery'' : '?' ∉ k ++ ':' :: '/' :: '/' :: auth := fun hmem => hquery' (by simpa using Or.inr hmem)
    simp only [h, cut_eq_none hquery'']
    exact parseRest_cases (head?_append_colon hslash' (by decide) _)

end

/-! ## Addresses -/

/-- the characters of the addresses of both families -/
def isIpChar (c : Char) : Bool := isHex c || c == '.' || c == ':'

theorem isAlphanum_of_isHex (h : isHex c) : c.isAlphanum := by
  simp only [isHex, Bool.or_eq_true, Bool.and_eq_true, decide_eq_true_eq] at h
  simp only [Char.isAlphanum, Char.isAlpha, Char.isUpper, Char.isLower, Bool.or_eq_true, Bool.and_eq_true,
    decide_eq_true_eq]
  rcases h with (h | h) | h
  · exact Or.inr h
  · exact Or.inl (Or.inr ⟨h.1, UInt32.le_trans h.2 (show 'f'.val ≤ 122 by decide)⟩)
  · exact Or.inl (Or.inl ⟨h.1, UInt32.le_trans h.2 (show 'F'.val ≤ 90 by decide)⟩)

theorem isHostChar_of_isIpChar (h : isIpChar c) : isHostChar c := by
  simp only [isIpChar, Bool.or_eq_true, beq_iff_eq] at h
  rcases h with (h | rfl) | rfl
  · simp [isHostChar, isAlphanum_of_isHex h]
  all_goals decide

/-- the text of an IPv4 or IPv6 address; those of IPv6 have colons -/
structure Ip where
  text : String
  chars : ∀ c ∈ text.toList, isIpChar c = true

/-- `fmt.Sprintf("%s://%s:%d", …)` -/
def address (kind ip : String) (port : ℕ) : String := kind ++ "://" ++ ip ++ ":" ++ toString port

/-- nothing in it ends a scheme or what follows it -/
def Plain (kind : String) : Prop := '/' ∉ kind.toList ∧ '?' ∉ kind.toList ∧ '#' ∉ kind.toList

instance (kind : String) : Decidable (Plain kind) := inferInstanceAs (Decidable (_ ∧ _ ∧ _))

theorem toList_address (kind ip : String) (port : ℕ) : (address kind ip port).toList =
    kind.toList ++ ':' :: '/' :: '/' :: (ip.toList ++ ':' :: (toString port).toList) := by
  simp [address]

theorem isDigit_of_mem_toString (n : ℕ) : ∀ c ∈ (toString n).toList, c.isDigit := by
  intro c hc
  rw [Nat.toString_eq_repr, Nat.repr, String.toList_ofList] at hc
  exact Nat.isDigit_of_mem_toDigits (by decide) (by decide) hc

/-- **The address comes back** exactly when its kind is a scheme and it has no colon. -/
theorem endpoint_address {ipv6 : Text → Bool} {kind : String} (hkind : Plain kind) (ip : Ip) (port : ℕ) :
    endpoint ipv6 (address kind ip.text port).toList =
      if isScheme kind.toList ∧ ':' ∉ ip.text.toList then
        some ⟨kind.toList.map Char.toLower, ip.text.toList, (toString port).toList⟩ else none := by
  have hall : ∀ c ∈ ip.text.toList, isHostChar c := fun c hc => isHostChar_of_isIpChar (ip.chars c hc)
  have hopen : '[' ∉ ip.text.toList := not_mem_of_all ip.chars (by decide)
  have hclose : ']' ∉ ip.text.toList := not_mem_of_all ip.chars (by decide)
  have hp := isDigit_of_mem_toString port
  rw [toList_address]
  split_ifs with h
  · exact endpoint_written h.1 hall h.2 hopen hclose hp
  · rw [not_and, not_not] at h
    by_cases hs : isScheme kind.toList
    · exact endpoint_colon hs hall (h hs) hopen hp
    · exact endpoint_not_scheme (Bool.not_eq_true _ ▸ hs) hkind (isHostChar_append hall hp)

end LuluExt.Url
