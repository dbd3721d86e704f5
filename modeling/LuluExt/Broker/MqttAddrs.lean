/-
The addresses of the MQTT servers, as `setAddrs` brings them to the form `scheme://host:port`.

An address is split at `://` and then at every colon. The host is what stands before the first colon, the port what
stands between that and the next one. An error of the number is ignored: the port is then zero, or the bound of the
integers. An IPv6 address in brackets has colons of its own, so its host is cut. The path of an address for websockets
is part of the host if there is no port, and makes the port zero if there is one.

Results: `rendered_of_mem`, `setAddr_rendered`, `setAddr_write`, `normalises_iff`.
-/
import LuluExt.Lib.Strconv
import LuluExt.Lib.Url

namespace LuluExt.MqttAddrs

open Strconv (split parseInt itoa Numeral)
open Url (Text)

/-! ## The code -/

def sprintf (scheme host : Text) (port : ℤ) : Text := scheme ++ "://".toList ++ (host ++ ':' :: itoa port)

def defaultPort (scheme : Text) : ℤ :=
  if scheme = "tcp".toList then 1883
  else if scheme = "ssl".toList then 8883
  else if scheme = "ws".toList then 80
  else 1883

/-- the second half of the loop, for the parts between colons; none if the address is passed over -/
def hostPort (scheme : Text) (parts : List Text) : Option Text :=
  if scheme ∈ ["tcp".toList, "ssl".toList, "ws".toList] then
    match parts with
    | [] => none
    | [host] => some (sprintf scheme host (defaultPort scheme))
    | host :: port :: _ => some (sprintf scheme host (parseInt port).1)
  else none

def setAddr (addr : Text) : Option Text :=
  if addr.length = 0 then none
  else
    match split "://".toList addr with
    | [] => none
    | [rest] => hostPort "tcp".toList (rest.splitOn ':')
    | scheme :: rest :: _ => hostPort scheme (rest.splitOn ':')

def setAddrs (addrs : List Text) : List Text :=
  let cAddrs := addrs.filterMap setAddr
  if cAddrs.length = 0 then ["tcp://127.0.0.1:1883".toList] else cAddrs

/-! ## What an address is -/

inductive Scheme where
  | tcp
  | ssl
  | ws
deriving DecidableEq, Repr

def Scheme.text : Scheme → Text
  | .tcp => "tcp".toList
  | .ssl => "ssl".toList
  | .ws => "ws".toList

inductive Host where
  /-- a DNS name or an IPv4 address -/
  | name (text : Text) (nonempty : text ≠ []) (colon : ':' ∉ text) (slash : '/' ∉ text)
  /-- what stands between brackets -/
  | ipv6 (text : Text) (colon : ':' ∈ text) (slash : '/' ∉ text)

def Host.text : Host → Text
  | .name text _ _ _ => text
  | .ipv6 text _ _ => '[' :: text ++ [']']

structure Port where
  text : Text
  number : ℕ
  numeral : Numeral text number
  pos : 1 ≤ number
  le : number ≤ 65535

structure Address where
  scheme : Option Scheme
  host : Host
  port : Option Port
  path : Text
  path_of_ws : path ≠ [] → scheme = some .ws ∧ path.head? = some '/'

def Address.write (a : Address) : Text :=
  (a.scheme.elim [] fun s => s.text ++ "://".toList) ++
    (a.host.text ++ (a.port.elim [] fun p => ':' :: p.text) ++ a.path)

def Scheme.port : Scheme → ℕ
  | .tcp => 1883
  | .ssl => 8883
  | .ws => 80

def Address.normal (a : Address) : Text :=
  let scheme := a.scheme.getD .tcp
  scheme.text ++ "://".toList ++ (a.host.text ++ ':' :: Nat.toDigits 10 (a.port.elim scheme.port Port.number) ++ a.path)

/-! ## Every result has one form -/

/-- a scheme that is known, a host without a colon and a number -/
inductive Rendered : Text → Prop
  | mk (scheme : Scheme) (host : Text) (port : ℤ) (hhost : ':' ∉ host) (hlo : -2 ^ 63 ≤ port) (hhi : port < 2 ^ 63) :
      Rendered (sprintf scheme.text host port)

variable (s : Scheme)

theorem Scheme.colon : ':' ∉ s.text := by
  cases s <;> decide

theorem Scheme.mem : s.text ∈ ["tcp".toList, "ssl".toList, "ws".toList] := by
  cases s <;> decide

theorem exists_scheme {scheme : Text} (h : scheme ∈ ["tcp".toList, "ssl".toList, "ws".toList]) :
    ∃ s : Scheme, s.text = scheme := by
  simp only [List.mem_cons, List.not_mem_nil, or_false] at h
  obtain rfl | rfl | rfl := h
  · exact ⟨.tcp, rfl⟩
  · exact ⟨.ssl, rfl⟩
  · exact ⟨.ws, rfl⟩

theorem Scheme.defaultPort_text : defaultPort s.text = s.port := by
  cases s <;> decide

theorem Scheme.port_lt : s.port < 2 ^ 63 := by
  cases s <;> decide

theorem not_mem_itoa {c : Char} (hminus : c ≠ '-') (hdigit : c.isDigit = false) (z : ℤ) : c ∉ itoa z := by
  intro hc
  obtain rfl | hc := Strconv.mem_itoa hc
  · exact hminus rfl
  · rw [hdigit] at hc
    cases hc

theorem hostPort_name {host : Text} (hhost : ':' ∉ host) :
    hostPort s.text (host.splitOn ':') = some (sprintf s.text host s.port) := by
  unfold hostPort
  rw [if_pos s.mem, List.splitOn_eq_singleton hhost, s.defaultPort_text]

theorem hostPort_colon {host : Text} (hhost : ':' ∉ host) (rest : Text) :
    hostPort s.text ((host ++ ':' :: rest).splitOn ':') =
      some (sprintf s.text host (parseInt ((rest.splitOn ':').headD [])).1) := by
  unfold hostPort
  rw [if_pos s.mem, List.splitOn_append_cons_self_of_not_mem hhost]
  cases hrest : rest.splitOn ':' with
  | nil => exact absurd hrest (List.splitOn_ne_nil ':' rest)
  | cons port more => rfl

variable {rest : Text}

theorem rendered_hostPort {scheme t : Text} (h : hostPort scheme (rest.splitOn ':') = some t) : Rendered t := by
  by_cases hscheme : scheme ∈ ["tcp".toList, "ssl".toList, "ws".toList]
  · obtain ⟨s, rfl⟩ := exists_scheme hscheme
    by_cases hcolon : ':' ∈ rest
    · obtain ⟨host, more, rfl, hhost⟩ := List.eq_append_cons_of_mem hcolon
      rw [hostPort_colon s hhost] at h
      cases h
      exact .mk s host _ hhost (Strconv.parseInt_bounds _).1 (Strconv.parseInt_bounds _).2
    · rw [hostPort_name s hcolon] at h
      cases h
      exact .mk s rest _ hcolon (by omega) (by exact_mod_cast s.port_lt)
  · unfold hostPort at h
    rw [if_neg hscheme] at h
    cases h

theorem rendered_setAddr {addr t : Text} (h : setAddr addr = some t) : Rendered t := by
  unfold setAddr at h
  split_ifs at h
  split at h
  · cases h
  · exact rendered_hostPort h
  · exact rendered_hostPort h

/-- **Whatever goes in**, all that comes out has the form. -/
theorem rendered_of_mem {addrs : List Text} {t : Text} (ht : t ∈ setAddrs addrs) : Rendered t := by
  unfold setAddrs at ht
  dsimp only at ht
  split_ifs at ht
  · obtain rfl := List.mem_singleton.1 ht
    exact .mk .tcp "127.0.0.1".toList 1883 (by decide) (by decide) (by decide)
  · obtain ⟨addr, -, haddr⟩ := List.mem_filterMap.1 ht
    exact rendered_setAddr haddr

theorem setAddrs_ne_nil (addrs : List Text) : setAddrs addrs ≠ [] := by
  unfold setAddrs
  dsimp only
  split_ifs with h
  · exact List.cons_ne_nil _ _
  · exact fun hnil => h (List.length_eq_zero_iff.2 hnil)

theorem setAddrs_map {α : Type} (f g : α → Text) {as : List α} (hne : as ≠ [])
    (h : ∀ a ∈ as, setAddr (f a) = some (g a)) : setAddrs (as.map f) = as.map g := by
  have hmap : (as.map f).filterMap setAddr = as.map g := by
    rw [List.filterMap_map, ← List.filterMap_eq_map]
    exact List.filterMap_congr h
  have hlength : (as.map g).length ≠ 0 := by simpa using hne
  rw [setAddrs, hmap]
  exact if_neg hlength

/-! ## Reading what is written -/

theorem setAddr_scheme (h : ¬ "://".toList <:+: rest) :
    setAddr (s.text ++ "://".toList ++ rest) = hostPort s.text (rest.splitOn ':') := by
  have hlength : (s.text ++ "://".toList ++ rest).length ≠ 0 := by simp
  have hsplit : split "://".toList (s.text ++ "://".toList ++ rest) = [s.text, rest] := by
    rw [← Strconv.split_self h]
    exact Strconv.split_first s.colon rest
  rw [setAddr, if_neg hlength, hsplit]

theorem setAddr_bare (hne : rest ≠ []) (h : ¬ "://".toList <:+: rest) :
    setAddr rest = hostPort Scheme.tcp.text (rest.splitOn ':') := by
  have hlength : rest.length ≠ 0 := by simpa using hne
  rw [setAddr, if_neg hlength, Strconv.split_self h]
  rfl

theorem not_infix_port {host port : Text} (hhost : ':' ∉ host) (hcolon : ':' ∉ port) (hslash : '/' ∉ port) :
    ¬ "://".toList <:+: host ++ ':' :: port :=
  Strconv.not_infix_append hhost hcolon fun h => hslash (h.subset List.mem_cons_self)

/-- **What has the form stays as it is.** -/
theorem setAddr_rendered {t : Text} (h : Rendered t) : setAddr t = some t := by
  obtain ⟨s, host, port, hhost, hlo, hhi⟩ := h
  have hcolon : ':' ∉ itoa port := not_mem_itoa (by decide) (by decide) port
  have hslash : '/' ∉ itoa port := not_mem_itoa (by decide) (by decide) port
  calc setAddr (sprintf s.text host port)
      = hostPort s.text ((host ++ ':' :: itoa port).splitOn ':') :=
        setAddr_scheme s (not_infix_port hhost hcolon hslash)
    _ = some (sprintf s.text host (parseInt (itoa port)).1) := by
        rw [hostPort_colon s hhost, List.splitOn_eq_singleton hcolon]
        rfl
    _ = some (sprintf s.text host port) := by rw [Strconv.parseInt_itoa hlo hhi]

theorem setAddrs_setAddrs (addrs : List Text) : setAddrs (setAddrs addrs) = setAddrs addrs := by
  have h := setAddrs_map id id (setAddrs_ne_nil addrs) fun t ht => setAddr_rendered (rendered_of_mem ht)
  simpa using h

/-! ## Which addresses come out as they should -/

def Host.isName : Host → Bool
  | .name _ _ _ _ => true
  | .ipv6 _ _ _ => false

theorem Port.not_mem (p : Port) {c : Char} (hc : c.isDigit = false) : c ∉ p.text := by
  intro hmem
  have hdigit := p.numeral.digits c hmem
  rw [hc] at hdigit
  cases hdigit

theorem Port.parseInt_text (p : Port) : (parseInt p.text).1 = p.number := by
  have hle := p.le
  rw [(Strconv.parseInt_eq_iff p.text p.number).2 ⟨.plain p.numeral, by omega, by omega⟩]

theorem sprintf_natCast (scheme host : Text) (n : ℕ) :
    sprintf scheme host n = scheme ++ "://".toList ++ (host ++ ':' :: Nat.toDigits 10 n) := by
  have hneg : ¬ (n : ℤ) < 0 := by omega
  rw [sprintf, itoa, if_neg hneg, Int.natAbs_natCast]

theorem setAddr_elim (scheme : Option Scheme) (hne : rest ≠ []) (h : ¬ "://".toList <:+: rest) :
    setAddr ((scheme.elim [] fun s => s.text ++ "://".toList) ++ rest) =
      hostPort (scheme.getD .tcp).text (rest.splitOn ':') := by
  cases scheme with
  | none => exact setAddr_bare hne h
  | some s => exact setAddr_scheme s h

/-- **A name without a path** gets its scheme and its port. -/
theorem setAddr_write {a : Address} (hname : a.host.isName) (hpath : a.path = []) :
    setAddr a.write = some a.normal := by
  obtain ⟨scheme, host, port, path, hws⟩ := a
  subst hpath
  cases host with
  | ipv6 => cases hname
  | name host hne hcolon hslash =>
    cases port with
    | none =>
      have hinfix : ¬ "://".toList <:+: host := fun h => hcolon (h.subset List.mem_cons_self)
      simp only [Address.write, Address.normal, Host.text, Option.elim_none, List.append_nil]
      rw [setAddr_elim scheme hne hinfix, hostPort_name _ hcolon, sprintf_natCast]
    | some port =>
      have hport : ':' ∉ port.text := port.not_mem (by decide)
      have hinfix := not_infix_port hcolon hport (port.not_mem (by decide))
      simp only [Address.write, Address.normal, Host.text, Option.elim_some, List.append_nil]
      rw [setAddr_elim scheme (by simp) hinfix, hostPort_colon _ hcolon, List.splitOn_eq_singleton hport,
        List.headD_cons, port.parseInt_text, sprintf_natCast]

theorem scheme_append_inj {s s' : Scheme} {rest' : Text}
    (h : s.text ++ "://".toList ++ rest = s'.text ++ "://".toList ++ rest') : rest = rest' := by
  have hcolon : s.text ++ ':' :: ("//".toList ++ rest) = s'.text ++ ':' :: ("//".toList ++ rest') := by
    simpa using h
  have htail := (Url.append_colon_inj hcolon s.colon s'.colon).2
  exact List.append_cancel_left htail

theorem count_eq_one {host port : Text} (hhost : ':' ∉ host) (hport : ':' ∉ port) :
    (host ++ ':' :: port).count ':' = 1 := by
  simp [List.count_eq_zero_of_not_mem hhost, List.count_eq_zero_of_not_mem hport]

theorem good_of_rendered {a : Address} (h : Rendered a.normal) : a.host.isName ∧ a.path = [] := by
  obtain ⟨scheme, host, port, path, hws⟩ := a
  generalize htext : Address.normal _ = t at h
  obtain ⟨s, host', z, hhost', -, -⟩ := h
  have hcolon : ':' ∉ itoa z := not_mem_itoa (by decide) (by decide) z
  have hslash : '/' ∉ itoa z := not_mem_itoa (by decide) (by decide) z
  have hrest := scheme_append_inj htext
  cases host with
  | ipv6 text htextColon _ =>
    -- the form has one colon here, and the address has one in its brackets and one before its port
    have hcount := congrArg (List.count ':') hrest
    have hpos : 0 < text.count ':' := List.count_pos_iff.2 htextColon
    rw [count_eq_one hhost' hcolon] at hcount
    simp [Host.text] at hcount
    omega
  | name text _ htextColon _ =>
    refine ⟨rfl, ?_⟩
    rw [List.append_assoc] at hrest
    have htail := (Url.append_colon_inj hrest htextColon hhost').2
    by_contra hpath
    have hhead := List.mem_of_head? (hws hpath).2
    exact hslash (htail ▸ List.mem_append_right _ hhead)

/-- **Addresses are normalised** exactly if there is one, every host is a name and there are no paths. A second pass
never changes anything, whatever the texts are. -/
theorem normalises_iff (as : List Address) (x : List Text) :
    (setAddrs (as.map Address.write) = as.map Address.normal ↔
      as ≠ [] ∧ ∀ a ∈ as, a.host.isName = true ∧ a.path = []) ∧
    setAddrs (setAddrs x) = setAddrs x := by
  refine ⟨⟨?_, ?_⟩, setAddrs_setAddrs x⟩
  · intro h
    constructor
    · rintro rfl
      exact setAddrs_ne_nil [] h
    · intro a ha
      apply good_of_rendered
      apply rendered_of_mem
      rw [h]
      exact List.mem_map_of_mem ha
  · rintro ⟨hne, hgood⟩
    apply setAddrs_map _ _ hne
    intro a ha
    exact setAddr_write (hgood a ha).1 (hgood a ha).2

def loopback : Address where
  scheme := some .tcp
  host := .ipv6 "::1".toList (by decide) (by decide)
  port := some ⟨"1883".toList, 1883, ⟨by decide, List.all_eq_true.1 (by decide), by decide⟩, by decide, by decide⟩
  path := []
  path_of_ws h := absurd rfl h

def websocket (port : Option Port) : Address where
  scheme := some .ws
  host := .name "mqtt.local".toList (by decide) (by decide) (by decide)
  port := port
  path := "/mqtt".toList
  path_of_ws _ := ⟨rfl, rfl⟩

def port9001 : Port :=
  ⟨"9001".toList, 9001, ⟨by decide, List.all_eq_true.1 (by decide), by decide⟩, by decide, by decide⟩

/-- The host of an IPv6 address is cut and its port lost; a path is lost with the port, or gets the port behind it; and
no address becomes one. -/
theorem addresses_broken :
    [loopback, websocket port9001, websocket none].map Address.write =
      ["tcp://[::1]:1883".toList, "ws://mqtt.local:9001/mqtt".toList, "ws://mqtt.local/mqtt".toList] ∧
    [loopback, websocket port9001, websocket none].map Address.normal =
      ["tcp://[::1]:1883".toList, "ws://mqtt.local:9001/mqtt".toList, "ws://mqtt.local:80/mqtt".toList] ∧
    setAddrs ([loopback, websocket port9001, websocket none].map Address.write) =
      ["tcp://[:0".toList, "ws://mqtt.local:0".toList, "ws://mqtt.local/mqtt:80".toList] ∧
    setAddrs [] = ["tcp://127.0.0.1:1883".toList] := by
  decide

end LuluExt.MqttAddrs
