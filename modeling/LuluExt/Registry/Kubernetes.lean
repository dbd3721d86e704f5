/-
Registration in Kubernetes: an instance is kept in the labels and annotations of its pod.

`Register` writes the metadata and a map from port to scheme as JSON (`Json`, of which two laws are assumed: what is
written is read back, and only an empty map is written as one of the texts that are taken for one);
`getServiceInstanceFromPod` reads both back and makes one endpoint for each container port, with the scheme of the map
or, for a port that is not in it, the first part of the port's name or its transport protocol. The map has one scheme
for a port, the last one registered, and the address is written without the brackets that an IPv6 address needs.

Results: `exists_built`, `comes_back_iff`.
-/
import Mathlib.Data.List.AList
import LuluExt.Lib.Assoc
import LuluExt.Lib.Go
import LuluExt.Lib.Url

namespace LuluExt.Kubernetes

open Url (Text)

/-! ## Maps of strings -/

abbrev Dict := AList fun _ : String => String

def Dict.get (m : Dict) (k : String) : String := (m.lookup k).getD ""

def ofPairs (l : List (String × String)) : Dict := l.foldl (fun m x => m.insert x.1 x.2) ∅

def isEmptyObjectString (s : String) : Bool := s == "" || s == "\x7b\x7d" || s == "null" || s == "nil" || s == "[]"

/-- json-iterator on maps of strings; it unmarshals into an empty map -/
structure Json where
  marshal : Option Dict → String
  unmarshal : String → Except GoError Dict
  marshal_none : marshal none = "null"
  unmarshal_marshal : ∀ m, ∃ m', unmarshal (marshal (some m)) = .ok m' ∧ ∀ k, m'.lookup k = m.lookup k
  marshal_empty : ∀ m, isEmptyObjectString (marshal (some m)) = true → ∀ k, m.lookup k = none

/-! ## Pods -/

def labelsKeyServiceID : String := "lulu-service-id"
def labelsKeyServiceName : String := "lulu-service-app"
def labelsKeyServiceVersion : String := "lulu-service-version"
def annotationsKeyMetadata : String := "lulu-service-metadata"
def annotationsKeyProtocolMap : String := "lulu-service-protocols"

inductive Protocol where
  | tcp
  | udp
  | sctp
deriving DecidableEq, Repr

def Protocol.text : Protocol → String
  | .tcp => "TCP"
  | .udp => "UDP"
  | .sctp => "SCTP"

structure PortName where
  text : String
  chars : ∀ c ∈ text.toList, c.isAlphanum = true ∨ c = '-'

structure ContainerPort where
  name : PortName
  containerPort : ℕ
  protocol : Protocol

inductive Phase where
  | pending
  | running
  | succeeded
  | failed
  | unknown
deriving DecidableEq, Repr

structure Pod where
  podNamespace : String
  name : String
  labels : Dict
  annotations : Dict
  containers : List (List ContainerPort)
  phase : Phase
  podIP : Url.Ip

def Pod.ports (pod : Pod) : List ContainerPort := pod.containers.flatten

structure Instance where
  id : String
  name : String
  version : String
  metadata : Option Dict
  endpoints : List String

/-! ## Registration -/

/-- one turn for each endpoint; none when one cannot be parsed -/
def addEndpoints (ipv6 : Text → Bool) (ret : Dict) : List String → Option Dict
  | [] => some ret
  | endpoint :: rest =>
    match Url.parse ipv6 endpoint.toList with
    | none => none
    | some u => addEndpoints ipv6 (ret.insert (String.ofList u.port) (String.ofList u.scheme)) rest

def getProtocolMapByEndpoints (ipv6 : Text → Bool) (endpoints : List String) : Option Dict :=
  addEndpoints ipv6 ∅ endpoints

def Pod.patch (lib : Json) (pod : Pod) (service : Instance) (protocolMap : Dict) : Pod := { pod with
  labels := ((pod.labels.insert labelsKeyServiceID service.id).insert labelsKeyServiceName service.name).insert
    labelsKeyServiceVersion service.version
  annotations := (pod.annotations.insert annotationsKeyMetadata (lib.marshal service.metadata)).insert
    annotationsKeyProtocolMap (lib.marshal (some protocolMap)) }

/-- the pod after the request; none when an endpoint cannot be parsed -/
def register (lib : Json) (ipv6 : Text → Bool) (service : Instance) (pod : Pod) : Option Pod :=
  match getProtocolMapByEndpoints ipv6 service.endpoints with
  | none => none
  | some protocolMap => some (pod.patch lib service protocolMap)

/-! ## Reconstruction -/

def errorHandleResource (pod : Pod) (err : GoError) : GoError :=
  ⟨"failed to handle resource(namespace=" ++ pod.podNamespace ++ ", name=" ++ pod.name ++ "): " ++ err.text⟩

def getMapFromPod (lib : Json) (key : String) (pod : Pod) : Except GoError Dict :=
  if isEmptyObjectString (pod.annotations.get key) then .ok ∅
  else
    match lib.unmarshal (pod.annotations.get key) with
    | .ok m => .ok m
    | .error err => .error (errorHandleResource pod err)

def getProtocolMapFromPod (lib : Json) : Pod → Except GoError Dict :=
  getMapFromPod lib annotationsKeyProtocolMap

def getMetadataFromPod (lib : Json) : Pod → Except GoError Dict :=
  getMapFromPod lib annotationsKeyMetadata

def getProtocol (m : Dict) (port : ℕ) : String := m.get (toString port)

/-- the first part of the name, or the protocol of a port without a name -/
def ContainerPort.fallback (cp : ContainerPort) : String :=
  if cp.name.text ≠ "" then String.ofList (cp.name.text.toList.takeWhile fun c => c != '-') else cp.protocol.text

def protocolOf (m : Dict) (cp : ContainerPort) : String :=
  if getProtocol m cp.containerPort = "" then cp.fallback else getProtocol m cp.containerPort

def Pod.toInstance (pod : Pod) (metadata protocolMap : Dict) : Instance where
  id := pod.labels.get labelsKeyServiceID
  name := pod.labels.get labelsKeyServiceName
  version := pod.labels.get labelsKeyServiceVersion
  metadata := some metadata
  endpoints := pod.ports.map fun cp => Url.address (protocolOf protocolMap cp) pod.podIP.text cp.containerPort

def getServiceInstanceFromPod (lib : Json) (pod : Pod) : Except GoError Instance :=
  match getMetadataFromPod lib pod with
  | .error err => .error err
  | .ok metadata =>
    match getProtocolMapFromPod lib pod with
    | .error err => .error err
    | .ok protocolMap => .ok (pod.toInstance metadata protocolMap)

/-! ## What is registered -/

/-- `scheme://host:port`, with the port of a container -/
structure Endpoint (ipv6 : Text → Bool) (pod : Pod) where
  scheme : String
  host : String
  port : ℕ
  isScheme : Url.isScheme scheme.toList = true
  hostText : Url.HostText ipv6 host.toList
  exposed : port ∈ pod.ports.map ContainerPort.containerPort

structure Service (ipv6 : Text → Bool) (pod : Pod) where
  id : String
  name : String
  version : String
  metadata : Option Dict
  endpoints : List (Endpoint ipv6 pod)

variable {ipv6 : Text → Bool} {lib : Json} {pod : Pod}

def Endpoint.text (e : Endpoint ipv6 pod) : String := Url.address e.scheme e.host e.port

def Endpoint.lowered (e : Endpoint ipv6 pod) : String := String.ofList (e.scheme.toList.map Char.toLower)

def Service.toInstance (service : Service ipv6 pod) : Instance :=
  ⟨service.id, service.name, service.version, service.metadata, service.endpoints.map Endpoint.text⟩

structure Same (service : Service ipv6 pod) (built : Instance) : Prop where
  id : built.id = service.id
  name : built.name = service.name
  version : built.version = service.version
  metadata : ∀ k, (built.metadata.getD ∅).lookup k = (service.metadata.getD ∅).lookup k
  valid : ∀ t ∈ built.endpoints, (Url.endpoint ipv6 t.toList).isSome = true
  found : ∀ e ∈ service.endpoints, ∃ t ∈ built.endpoints, ∃ host,
    Url.endpoint ipv6 t.toList = some ⟨e.lowered.toList, host, (toString e.port).toList⟩

def RoundTrip (lib : Json) (service : Service ipv6 pod) : Prop :=
  ∃ patched built, register lib ipv6 service.toInstance pod = some patched ∧
    getServiceInstanceFromPod lib patched = .ok built ∧ Same service built

/-- the address needs no brackets, and each container port has one scheme -/
structure Plain (service : Service ipv6 pod) : Prop where
  address : pod.ports ≠ [] → ':' ∉ pod.podIP.text.toList
  schemes : ∀ e ∈ service.endpoints, ∀ e' ∈ service.endpoints, e.port = e'.port → e.lowered = e'.lowered
  fallback : ∀ cp ∈ pod.ports, (∀ e ∈ service.endpoints, e.port ≠ cp.containerPort) →
    Url.isScheme cp.fallback.toList = true

/-! ## Maps come back -/

theorem lookup_foldl_insert (l : List (String × String)) (m : Dict) (k : String) :
    (l.foldl (fun m x => m.insert x.1 x.2) m).lookup k = l.foldl Assoc.put (fun k => m.lookup k) k := by
  induction l generalizing m with
  | nil => rfl
  | cons x l ih =>
    have hput : (fun k => (m.insert x.1 x.2).lookup k) = Assoc.put (fun k => m.lookup k) x := by
      funext k
      by_cases hk : k = x.1
      · rw [hk, AList.lookup_insert, Assoc.put, Function.update_self]
      · rw [AList.lookup_insert_ne hk, Assoc.put, Function.update_of_ne hk]
    rw [List.foldl_cons, List.foldl_cons, ih, hput]

theorem lookup_ofPairs (l : List (String × String)) (k : String) : (ofPairs l).lookup k = Assoc.toMap l k := by
  rw [ofPairs, lookup_foldl_insert]
  rfl

theorem getMapFromPod_marshal (lib : Json) {pod : Pod} {key : String} {d : Option Dict}
    (h : pod.annotations.lookup key = some (lib.marshal d)) :
    ∃ m, getMapFromPod lib key pod = .ok m ∧ ∀ k, m.lookup k = (d.getD ∅).lookup k := by
  have hget : pod.annotations.get key = lib.marshal d := by rw [Dict.get, h, Option.getD_some]
  rw [getMapFromPod, hget]
  cases d with
  | none =>
    rw [lib.marshal_none]
    exact ⟨∅, rfl, fun _ => rfl⟩
  | some m =>
    split_ifs with hempty
    · exact ⟨∅, rfl, fun k => (lib.marshal_empty m hempty k).symm⟩
    · obtain ⟨m', hm', hlookup⟩ := lib.unmarshal_marshal m
      rw [hm']
      exact ⟨m', rfl, hlookup⟩

/-! ## The protocol map -/

variable (e : Endpoint ipv6 pod)

theorem Endpoint.toList_text : e.text.toList =
    e.scheme.toList ++ ':' :: '/' :: '/' :: (e.host.toList ++ ':' :: (toString e.port).toList) :=
  Url.toList_address e.scheme e.host e.port

def Endpoint.pair (e : Endpoint ipv6 pod) : String × String := (toString e.port, e.lowered)

theorem addEndpoints_text (ret : Dict) (es : List (Endpoint ipv6 pod)) :
    addEndpoints ipv6 ret (es.map Endpoint.text) =
      some ((es.map Endpoint.pair).foldl (fun m x => m.insert x.1 x.2) ret) := by
  induction es generalizing ret with
  | nil => rfl
  | cons e es ih =>
    have hdigits := Url.isDigit_of_mem_toString e.port
    simp only [List.map_cons, addEndpoints, e.toList_text, Url.parse_written e.isScheme e.hostText hdigits,
      Url.port_append hdigits, String.ofList_toList, ih, List.foldl_cons, Endpoint.pair, Endpoint.lowered]

theorem getProtocolMapByEndpoints_text (es : List (Endpoint ipv6 pod)) :
    getProtocolMapByEndpoints ipv6 (es.map Endpoint.text) = some (ofPairs (es.map Endpoint.pair)) :=
  addEndpoints_text ∅ es

theorem toString_inj {n m : ℕ} : toString n = toString m ↔ n = m := by
  exact ⟨fun h => Nat.repr_injective h, fun h => h ▸ rfl⟩

def registered (es : List (Endpoint ipv6 pod)) (port : ℕ) : Option (Endpoint ipv6 pod) :=
  (es.filter fun e => e.port = port).getLast?

theorem lookup_pairs (es : List (Endpoint ipv6 pod)) (port : ℕ) :
    (ofPairs (es.map Endpoint.pair)).lookup (toString port) = (registered es port).map Endpoint.lowered := by
  have hvalues : Assoc.values (es.map Endpoint.pair) (toString port) =
      (es.filter fun e => e.port = port).map Endpoint.lowered := by
    rw [Assoc.values, List.filter_map, List.map_map]
    congr 1
    refine List.filter_congr fun e _ => ?_
    simp only [Function.comp_apply, Endpoint.pair, toString_inj]
  rw [lookup_ofPairs, Assoc.toMap_eq, hvalues, List.getLast?_map, registered]

variable {es : List (Endpoint ipv6 pod)}

theorem mem_of_registered {port : ℕ} {e : Endpoint ipv6 pod}
    (h : registered es port = some e) : e ∈ es ∧ e.port = port := by
  have hmem := List.mem_of_getLast? h
  simpa using hmem

theorem registered_eq_none {port : ℕ} : registered es port = none ↔ ∀ e ∈ es, e.port ≠ port := by
  simp [registered]

theorem Endpoint.isScheme_lowered : Url.isScheme e.lowered.toList := by
  rw [Endpoint.lowered, String.toList_ofList]
  exact Url.isScheme_map_toLower e.isScheme

theorem Endpoint.lowered_ne : e.lowered ≠ "" := by
  intro h
  have hs := e.isScheme_lowered
  rw [h] at hs
  cases hs

/-! ## What is built -/

/-- the protocol of a container port, once the endpoints are registered -/
def Service.protocol (service : Service ipv6 pod) (cp : ContainerPort) : String :=
  ((registered service.endpoints cp.containerPort).map Endpoint.lowered).getD cp.fallback

theorem protocolOf_eq (service : Service ipv6 pod) {m : Dict}
    (h : ∀ k, m.lookup k = (ofPairs (service.endpoints.map Endpoint.pair)).lookup k) (cp : ContainerPort) :
    protocolOf m cp = service.protocol cp := by
  have hget : getProtocol m cp.containerPort =
      ((registered service.endpoints cp.containerPort).map Endpoint.lowered).getD "" := by
    rw [getProtocol, Dict.get, h, lookup_pairs]
  rw [protocolOf, hget, Service.protocol]
  cases registered service.endpoints cp.containerPort with
  | none => simp
  | some e => simp [e.lowered_ne]

theorem Pod.lookup_patch_metadata (lib : Json) (pod : Pod) (service : Instance) (protocolMap : Dict) :
    (pod.patch lib service protocolMap).annotations.lookup annotationsKeyMetadata =
      some (lib.marshal service.metadata) := by
  rw [Pod.patch, AList.lookup_insert_ne (by decide), AList.lookup_insert]

theorem Pod.lookup_patch_protocols (lib : Json) (pod : Pod) (service : Instance) (protocolMap : Dict) :
    (pod.patch lib service protocolMap).annotations.lookup annotationsKeyProtocolMap =
      some (lib.marshal (some protocolMap)) := by
  rw [Pod.patch, AList.lookup_insert]

theorem Pod.get_patch (lib : Json) (pod : Pod) (service : Instance) (protocolMap : Dict) :
    (pod.patch lib service protocolMap).labels.get labelsKeyServiceID = service.id ∧
    (pod.patch lib service protocolMap).labels.get labelsKeyServiceName = service.name ∧
    (pod.patch lib service protocolMap).labels.get labelsKeyServiceVersion = service.version := by
  refine ⟨?_, ?_, ?_⟩
  · rw [Pod.patch, Dict.get, AList.lookup_insert_ne (by decide), AList.lookup_insert_ne (by decide),
      AList.lookup_insert, Option.getD_some]
  · rw [Pod.patch, Dict.get, AList.lookup_insert_ne (by decide), AList.lookup_insert, Option.getD_some]
  · rw [Pod.patch, Dict.get, AList.lookup_insert, Option.getD_some]

/-- **What is built from a registered pod.** -/
theorem exists_built (lib : Json) (service : Service ipv6 pod) : ∃ patched built,
    register lib ipv6 service.toInstance pod = some patched ∧ getServiceInstanceFromPod lib patched = .ok built ∧
    built.id = service.id ∧ built.name = service.name ∧ built.version = service.version ∧
    (∀ k, (built.metadata.getD ∅).lookup k = (service.metadata.getD ∅).lookup k) ∧
    built.endpoints = pod.ports.map fun cp => Url.address (service.protocol cp) pod.podIP.text cp.containerPort := by
  have hpatched : register lib ipv6 service.toInstance pod =
      some (pod.patch lib service.toInstance (ofPairs (service.endpoints.map Endpoint.pair))) := by
    simp only [register, Service.toInstance, getProtocolMapByEndpoints_text]
  generalize hm : ofPairs (service.endpoints.map Endpoint.pair) = m at hpatched
  obtain ⟨metadata, hmetadata, hlookup⟩ :=
    getMapFromPod_marshal lib (pod.lookup_patch_metadata lib service.toInstance m)
  obtain ⟨protocolMap, hprotocols, hprotocol⟩ :=
    getMapFromPod_marshal lib (pod.lookup_patch_protocols lib service.toInstance m)
  have hbuilt : getServiceInstanceFromPod lib (pod.patch lib service.toInstance m) =
      .ok ((pod.patch lib service.toInstance m).toInstance metadata protocolMap) := by
    simp only [getServiceInstanceFromPod, getMetadataFromPod, hmetadata, getProtocolMapFromPod, hprotocols]
  obtain ⟨hid, hname, hversion⟩ := pod.get_patch lib service.toInstance m
  refine ⟨_, _, hpatched, hbuilt, hid, hname, hversion, hlookup, ?_⟩
  refine List.map_congr_left fun cp _ => ?_
  rw [protocolOf_eq service (hm ▸ hprotocol), Pod.patch]

theorem plain_of_isScheme {s : String} (h : Url.isScheme s.toList) : Url.Plain s := by
  have hall : ∀ c ∈ s.toList, Url.isSchemeChar c := fun c hc => Url.isSchemeChar_of_isScheme h hc
  exact ⟨Url.not_mem_of_all hall (by decide), Url.not_mem_of_all hall (by decide), Url.not_mem_of_all hall (by decide)⟩

theorem ContainerPort.plain_fallback (cp : ContainerPort) : Url.Plain cp.fallback := by
  have hall : ∀ c ∈ cp.fallback.toList, c.isAlphanum := by
    unfold ContainerPort.fallback
    split_ifs
    · intro c hc
      rw [String.toList_ofList] at hc
      have hne : (c != '-') := List.all_eq_true.1 List.all_takeWhile c hc
      rcases cp.name.chars c (List.takeWhile_subset _ hc) with h | h
      · exact h
      · simp [h] at hne
    · exact List.all_eq_true.1 (by cases cp.protocol <;> decide)
  exact ⟨Url.not_mem_of_all hall (by decide), Url.not_mem_of_all hall (by decide), Url.not_mem_of_all hall (by decide)⟩

theorem Service.plain_protocol (service : Service ipv6 pod) (cp : ContainerPort) : Url.Plain (service.protocol cp) := by
  unfold Service.protocol
  cases registered service.endpoints cp.containerPort with
  | none => exact cp.plain_fallback
  | some e => exact plain_of_isScheme e.isScheme_lowered

theorem endpoint_built (service : Service ipv6 pod) (cp : ContainerPort) :
    Url.endpoint ipv6 (Url.address (service.protocol cp) pod.podIP.text cp.containerPort).toList =
      if Url.isScheme (service.protocol cp).toList ∧ ':' ∉ pod.podIP.text.toList then
        some ⟨(service.protocol cp).toList.map Char.toLower, pod.podIP.text.toList, (toString cp.containerPort).toList⟩
      else none :=
  Url.endpoint_address (service.plain_protocol cp) pod.podIP cp.containerPort

theorem valid_iff (service : Service ipv6 pod) :
    (∀ cp ∈ pod.ports, (Url.endpoint ipv6
      (Url.address (service.protocol cp) pod.podIP.text cp.containerPort).toList).isSome) ↔
    ∀ cp ∈ pod.ports, Url.isScheme (service.protocol cp).toList ∧ ':' ∉ pod.podIP.text.toList := by
  refine forall₂_congr fun cp _ => ?_
  rw [endpoint_built]
  split_ifs with h
  · exact iff_of_true rfl h
  · exact iff_of_false (by simp) h

variable {service : Service ipv6 pod} {cp : ContainerPort}

theorem protocol_of_registered {e : Endpoint ipv6 pod}
    (h : registered service.endpoints cp.containerPort = some e) : service.protocol cp = e.lowered := by
  rw [Service.protocol, h, Option.map_some, Option.getD_some]

theorem protocol_of_not_registered
    (h : ∀ e ∈ service.endpoints, e.port ≠ cp.containerPort) : service.protocol cp = cp.fallback := by
  rw [Service.protocol, registered_eq_none.2 h, Option.map_none, Option.getD_none]

theorem Plain.isScheme_protocol (h : Plain service)
    (hcp : cp ∈ pod.ports) : Url.isScheme (service.protocol cp).toList := by
  cases hr : registered service.endpoints cp.containerPort with
  | none =>
    have hnone := registered_eq_none.1 hr
    rw [protocol_of_not_registered hnone]
    exact h.fallback cp hcp hnone
  | some e =>
    rw [protocol_of_registered hr]
    exact e.isScheme_lowered

theorem exists_registered {e : Endpoint ipv6 pod} (he : e ∈ es) :
    ∃ e', registered es e.port = some e' ∧ e' ∈ es ∧ e'.port = e.port := by
  cases hr : registered es e.port with
  | none => exact absurd rfl (registered_eq_none.1 hr e he)
  | some e' => exact ⟨e', rfl, mem_of_registered hr⟩

theorem Endpoint.lowered_map_toLower : e.lowered.toList.map Char.toLower = e.lowered.toList := by
  rw [Endpoint.lowered, String.toList_ofList, Url.map_toLower_toLower]

theorem lowered_of_found {e e' : Endpoint ipv6 pod} {host : Text} (hr : registered service.endpoints e.port = some e')
    (h : Url.endpoint ipv6 (Url.address (service.protocol cp) pod.podIP.text cp.containerPort).toList =
      some ⟨e.lowered.toList, host, (toString e.port).toList⟩) : e.lowered = e'.lowered := by
  rw [endpoint_built] at h
  split_ifs at h
  simp only [Option.some.injEq, Url.Endpoint.mk.injEq, String.toList_inj, toString_inj] at h
  obtain ⟨hscheme, -, hport⟩ := h
  rw [protocol_of_registered (hport ▸ hr), e'.lowered_map_toLower, String.toList_inj] at hscheme
  exact hscheme.symm

theorem RoundTrip.plain (h : RoundTrip lib service) : Plain service := by
  obtain ⟨patched, built, hpatched, hbuilt, -, -, -, -, hendpoints⟩ := exists_built lib service
  obtain ⟨patched', built', hpatched', hbuilt', hsame⟩ := h
  cases hpatched.symm.trans hpatched'
  cases hbuilt.symm.trans hbuilt'
  have hvalid := hsame.valid
  have hfound := hsame.found
  rw [hendpoints, List.forall_mem_map, valid_iff] at hvalid
  simp only [hendpoints, List.mem_map, exists_exists_and_eq_and] at hfound
  refine ⟨?_, ?_, ?_⟩
  · intro hne
    obtain ⟨cp, hcp⟩ := List.exists_mem_of_ne_nil _ hne
    exact (hvalid cp hcp).2
  · intro e he e' he' hport
    obtain ⟨last, hlast, -, -⟩ := exists_registered he
    obtain ⟨cp, -, host, hcp⟩ := hfound e he
    obtain ⟨cp', -, host', hcp'⟩ := hfound e' he'
    rw [lowered_of_found hlast hcp, lowered_of_found (hport ▸ hlast) hcp']
  · intro cp hcp hnone
    rw [← protocol_of_not_registered hnone]
    exact (hvalid cp hcp).1

theorem Plain.roundTrip (lib : Json) (h : Plain service) : RoundTrip lib service := by
  obtain ⟨patched, built, hpatched, hbuilt, hid, hname, hversion, hmetadata, hendpoints⟩ := exists_built lib service
  refine ⟨patched, built, hpatched, hbuilt, hid, hname, hversion, hmetadata, ?_, ?_⟩
  · rw [hendpoints, List.forall_mem_map, valid_iff]
    exact fun cp hcp => ⟨h.isScheme_protocol hcp, h.address (List.ne_nil_of_mem hcp)⟩
  · intro e he
    obtain ⟨cp, hcp, hport⟩ := List.mem_map.1 e.exposed
    obtain ⟨last, hlast, hmem, hlastPort⟩ := exists_registered he
    refine ⟨_, hendpoints ▸ List.mem_map_of_mem hcp, pod.podIP.text.toList, ?_⟩
    rw [endpoint_built, if_pos ⟨h.isScheme_protocol hcp, h.address (List.ne_nil_of_mem hcp)⟩,
      protocol_of_registered (hport ▸ hlast), last.lowered_map_toLower, h.schemes last hmem e he hlastPort, hport]

/-- **When a registered instance comes back.** ID, name, version and metadata come back, all endpoints are valid, and
each registered scheme and port is among them, if and only if the address has no colon, each port has one scheme, and
the other ports have names or protocols that are schemes. -/
theorem comes_back_iff (ipv6 : Text → Bool) (lib : Json) (pod : Pod) (service : Service ipv6 pod) :
    RoundTrip lib service ↔ Plain service :=
  ⟨RoundTrip.plain, Plain.roundTrip lib⟩

def onePort (podIP : Url.Ip) : Pod where
  podNamespace := "default"
  name := "web-0"
  labels := ∅
  annotations := ∅
  containers := [[⟨⟨"", by simp⟩, 8080, .tcp⟩]]
  phase := .running
  podIP := podIP

def onePortEndpoint (podIP : Url.Ip) (scheme : String) (h : Url.isScheme scheme.toList = true) :
    Endpoint (fun _ => false) (onePort podIP) where
  scheme := scheme
  host := "web"
  port := 8080
  isScheme := h
  hostText := .name (List.all_eq_true.1 (by decide)) (by decide) (by decide) (by decide)
  exposed := by simp [onePort, Pod.ports]

/-! A text format in which every character of a key or a value follows a backslash. -/

def escaped (s : String) : Text := s.toList.flatMap fun c => ['\\', c]

def written : List (String × String) → Text
  | [] => ['\x7d']
  | x :: l => escaped x.1 ++ ':' :: (escaped x.2 ++ ',' :: written l)

/-- with the key, if there is one already, and the text so far -/
def readPairs : Option String → Text → Text → Option (List (String × String))
  | key, s, '\\' :: c :: t => readPairs key (s ++ [c]) t
  | none, s, ':' :: t => readPairs (some (String.ofList s)) [] t
  | some key, s, ',' :: t => (readPairs none [] t).map ((key, String.ofList s) :: ·)
  | none, [], ['\x7d'] => some []
  | _, _, _ => none

theorem readPairs_escaped (key : Option String) (s : Text) (x : String) (t : Text) :
    readPairs key s (escaped x ++ t) = readPairs key (s ++ x.toList) t := by
  rw [escaped]
  induction x.toList generalizing s with
  | nil => simp
  | cons c l ih => simp [readPairs, ih]

theorem readPairs_written (l : List (String × String)) : readPairs none [] (written l) = some l := by
  induction l with
  | nil => rfl
  | cons x l ih => simp [written, readPairs_escaped, readPairs, ih]

def toPairs (m : Dict) : List (String × String) := m.entries.map fun x => (x.1, x.2)

theorem lookup_ofPairs_toPairs (m : Dict) (k : String) : (ofPairs (toPairs m)).lookup k = m.lookup k := by
  have hfirst : Assoc.first (toPairs m) k = m.lookup k := by
    rw [toPairs, AList.lookup]
    induction m.entries with
    | nil => rfl
    | cons x l ih =>
      obtain ⟨a, b⟩ := x
      by_cases hk : a = k
      · subst hk
        simp [Assoc.first]
      · rw [List.dlookup_cons_ne _ _ (Ne.symm hk), ← ih]
        simp [Assoc.first, hk]
  have hkeys : (toPairs m).map Prod.fst = m.keys := by
    rw [toPairs, List.map_map]
    rfl
  rw [lookup_ofPairs, ← Assoc.first_eq_toMap (hkeys ▸ m.nodupKeys), hfirst]

def backslashes : Json where
  marshal
    | none => "null"
    | some m => String.ofList ('\x7b' :: written (toPairs m))
  unmarshal data :=
    match data.toList with
    | '\x7b' :: t =>
      match readPairs none [] t with
      | some l => .ok (ofPairs l)
      | none => .error ⟨"decode"⟩
    | _ => .error ⟨"decode"⟩
  marshal_none := rfl
  unmarshal_marshal m := ⟨_, by simp only [String.toList_ofList, readPairs_written], lookup_ofPairs_toPairs m⟩
  marshal_empty m h k := by
    rw [← lookup_ofPairs_toPairs]
    cases hm : toPairs m with
    | nil => rfl
    | cons x l =>
      simp only [hm, written, isEmptyObjectString, Bool.or_eq_true, beq_iff_eq, ← String.toList_inj,
        String.toList_ofList] at h
      cases hx : x.1.toList <;> simp [escaped, hx] at h

def rebuilt (service : Service ipv6 pod) : Option (List String) :=
  match register backslashes ipv6 service.toInstance pod with
  | none => none
  | some patched => (getServiceInstanceFromPod backslashes patched).toOption.map Instance.endpoints

def ipv4Address : Url.Ip := ⟨"10.0.0.1", List.all_eq_true.1 (by decide)⟩

def ipv6Address : Url.Ip := ⟨"fd00::1", List.all_eq_true.1 (by decide)⟩

def twoSchemes : Service (fun _ => false) (onePort ipv4Address) :=
  ⟨"1", "web", "v1", none, [onePortEndpoint _ "http" (by decide), onePortEndpoint _ "grpc" (by decide)]⟩

def ipv6Pod : Service (fun _ => false) (onePort ipv6Address) :=
  ⟨"1", "web", "v1", none, [onePortEndpoint _ "http" (by decide)]⟩

/-- **What does not come back.** The first of two schemes on a port is lost; that of an IPv6 pod is not a valid URL. -/
theorem scheme_lost :
    (rebuilt twoSchemes = some ["grpc://10.0.0.1:8080"] ∧ ¬ RoundTrip backslashes twoSchemes) ∧
    (rebuilt ipv6Pod = some ["http://fd00::1:8080"] ∧ ¬ RoundTrip backslashes ipv6Pod) := by
  refine ⟨⟨by decide, ?_⟩, by decide, ?_⟩
  · intro h
    have hsame := h.plain.schemes _ List.mem_cons_self _ (List.mem_cons_of_mem _ List.mem_cons_self) rfl
    exact absurd hsame (by decide)
  · intro h
    exact h.plain.address (by decide) (by decide)

end LuluExt.Kubernetes
