/-
The watcher of a configuration document behind HTTP: polling with conditional requests.

Each request carries the remembered ETag in `If-None-Match`; a 304 pushes nothing, any other success pushes the body. A
response without an ETag leaves the remembered one as it is, so the ETag may belong to an older body than the last one
pushed: when that body comes back, the server answers 304 and the watcher stays with the newer one. Among the configured
headers there may be an `If-None-Match` as well, which is sent as long as no ETag is remembered.

The server's document, the requests and the channel are interleaved step by step. Beside the state the model records
whether the last poll was undisturbed (no error, and the body has not changed since).
-/
import LuluExt.Lib.Run
import LuluExt.Lib.Go

namespace LuluExt.HttpConfig

open Run

abbrev Bytes := List UInt8

/-- of the options, what the requests of the watcher depend on -/
structure Options where
  url : String
  /-- what the configured headers set `If-None-Match` to; empty when they do not -/
  ifNoneMatch : String

def resolveKey (opts : Options) (key : String) : String := if key ≠ "" then key else opts.url

structure Request where
  url : String
  ifNoneMatch : String
deriving DecidableEq, Repr

def buildRequest (opts : Options) (url etag : String) : Request :=
  ⟨url, if etag ≠ "" then etag else opts.ifNoneMatch⟩

/-- what `client.Do` returns, and then `io.ReadAll` of the body; a missing ETag is the empty string -/
inductive Reply where
  | failed (err : GoError)
  | response (statusCode : ℕ) (status etag : String) (body : Except GoError Bytes)

/-- the body, the ETag and the error; no body with no error is a 304 -/
def fetchWithETag (url : String) : Reply → Option Bytes × String × Option GoError
  | .failed err => (none, "", some err)
  | .response statusCode status etag body =>
    if statusCode = 304 then (none, etag, none)
    else if statusCode < 200 ∨ statusCode ≥ 300 then (none, etag, some ⟨"http " ++ url ++ ": " ++ status⟩)
    else
      match body with
      | .error err => (none, etag, some ⟨"read response body: " ++ err.text⟩)
      | .ok data => (some data, etag, none)

inductive Pc where
  | start
  | waiting
  | send (data : Bytes)
  | ended
deriving DecidableEq, Repr

/-- the versions of a document; equal ETags mean equal bodies -/
structure Server (V : Type) where
  body : V → Bytes
  etag : V → String
  same : ∀ u v, etag u = etag v → etag u ≠ "" → body u = body v

structure State (V : Type) where
  version : V
  pc : Pc
  lastETag : String
  /-- the bodies pushed, the last one first -/
  pushed : List Bytes
  undisturbed : Bool

inductive Op (V : Type) where
  | put (v : V)
  /-- the initial fetch, or that of a poll -/
  | fetch (reply : Reply)
  | deliver
  | cancel

variable {V : Type}

def watchValue (v : V) : State V := ⟨v, .start, "", [], false⟩

/-- the request of the next fetch; nothing is remembered before the initial one -/
def State.request (opts : Options) (key : String) (s : State V) : Request :=
  buildRequest opts (resolveKey opts key) s.lastETag

def State.failed (s : State V) : State V := { s with pc := .waiting, undisturbed := false }

/-- an ETag replaces the one remembered, a missing ETag does not -/
def State.remember (s : State V) (etag : String) : String := if etag ≠ "" then etag else s.lastETag

def step (srv : Server V) (url : String) (s : State V) : Op V → State V
  | .put v => { s with version := v, undisturbed := s.undisturbed && decide (srv.body v = srv.body s.version) }
  | .fetch reply =>
    match s.pc, fetchWithETag url reply with
    | .start, (_, _, some _) => s.failed
    | .start, (some data, etag, none) => { s with lastETag := etag, pc := .send data, undisturbed := true }
    | .start, (none, etag, none) => { s with lastETag := s.remember etag, pc := .waiting, undisturbed := true }
    | .waiting, (_, _, some _) => s.failed
    | .waiting, (some data, etag, none) => { s with lastETag := s.remember etag, pc := .send data, undisturbed := true }
    | .waiting, (none, etag, none) => { s with lastETag := s.remember etag, pc := .waiting, undisturbed := true }
    | _, _ => s
  | .deliver =>
    match s.pc with
    | .send data => { s with pushed := data :: s.pushed, pc := .waiting }
    | _ => s
  | .cancel =>
    match s.pc with
    | .waiting => { s with pc := .ended }
    | .send _ => { s with pc := .ended }
    | _ => s

/-- a server's replies to a conditional request: a 304, which may repeat the ETag, exactly when `If-None-Match` is the
current one; otherwise the current body with its ETag; besides, a request may fail in any way -/
inductive Answers (srv : Server V) (v : V) (req : Request) : Reply → Prop where
  | notModified (htag : srv.etag v ≠ "") (hmatch : req.ifNoneMatch = srv.etag v) {etag : String}
      (hetag : etag = "" ∨ etag = srv.etag v) (status : String) (body : Except GoError Bytes) :
      Answers srv v req (.response 304 status etag body)
  | current (hmatch : srv.etag v = "" ∨ req.ifNoneMatch ≠ srv.etag v) {statusCode : ℕ} (hcode : 200 ≤ statusCode)
      (hcode' : statusCode < 300) (status : String) :
      Answers srv v req (.response statusCode status (srv.etag v) (.ok (srv.body v)))
  | failed {reply : Reply} (herr : (fetchWithETag req.url reply).2.2 ≠ none) : Answers srv v req reply

def Honest (opts : Options) (key : String) (srv : Server V) (s : State V) : Op V → Prop
  | .fetch reply => Answers srv s.version (s.request opts key) reply
  | _ => True

/-- after an undisturbed poll the last body pushed is the server's -/
def Converged (srv : Server V) (s : State V) : Prop :=
  s.pc = .waiting → s.undisturbed = true → s.pushed.head? = some (srv.body s.version)

/-- a fetch that is answered 304: the last body pushed is the server's -/
def Current (srv : Server V) (url : String) (s : State V) : Op V → Prop
  | .fetch reply => s.pc = .start ∨ s.pc = .waiting → ∀ etag, fetchWithETag url reply = (none, etag, none) →
      s.pushed.head? = some (srv.body s.version)
  | _ => True

/-- no body comes without an ETag once one is remembered -/
def Tagged (url : String) (s : State V) : Op V → Prop
  | .fetch reply => ∀ data, fetchWithETag url reply = (some data, "", none) → s.lastETag = ""
  | _ => True

/-! ## One step -/

variable {srv : Server V} {url etag : String} {s : State V}

theorem answers_body {v : V} {req : Request} {reply : Reply} {data : Bytes}
    (h : Answers srv v req reply) (hfetch : fetchWithETag req.url reply = (some data, etag, none)) :
    data = srv.body v ∧ etag = srv.etag v := by
  cases h with
  | notModified => simp [fetchWithETag] at hfetch
  | current _ hcode hcode' =>
    simp only [fetchWithETag] at hfetch
    split_ifs at hfetch <;> simp_all
  | failed herr => simp [hfetch] at herr

theorem answers_notModified {v : V} {req : Request} {reply : Reply} (h : Answers srv v req reply)
    (hfetch : fetchWithETag req.url reply = (none, etag, none)) :
    srv.etag v ≠ "" ∧ req.ifNoneMatch = srv.etag v ∧ (etag = "" ∨ etag = srv.etag v) := by
  cases h with
  | notModified htag hmatch hetag =>
    obtain rfl : _ = etag := by simpa [fetchWithETag] using hfetch
    exact ⟨htag, hmatch, hetag⟩
  | current _ hcode hcode' =>
    have hstatus : ¬ (_ < 200 ∨ _ ≥ 300) := not_or.2 ⟨not_lt.2 hcode, not_le.2 hcode'⟩
    simp only [fetchWithETag] at hfetch
    split_ifs at hfetch
    · omega
    · simp at hfetch
  | failed herr => simp [hfetch] at herr

inductive Turn (srv : Server V) (url : String) (s : State V) : Op V → State V → Prop where
  | fetchFailed {reply : Reply} (hpc : s.pc = .start ∨ s.pc = .waiting) : Turn srv url s (.fetch reply) s.failed
  | body {reply : Reply} {data : Bytes} {etag tag : String} (hpc : s.pc = .start ∨ s.pc = .waiting)
      (hfetch : fetchWithETag url reply = (some data, etag, none))
      (htag : tag = s.remember etag ∨ s.pc = .start ∧ tag = etag) :
      Turn srv url s (.fetch reply) { s with lastETag := tag, pc := .send data, undisturbed := true }
  | notModified {reply : Reply} {etag : String} (hpc : s.pc = .start ∨ s.pc = .waiting)
      (hfetch : fetchWithETag url reply = (none, etag, none)) :
      Turn srv url s (.fetch reply) { s with lastETag := s.remember etag, pc := .waiting, undisturbed := true }
  | delivered {data : Bytes} (hpc : s.pc = .send data) :
      Turn srv url s .deliver { s with pushed := data :: s.pushed, pc := .waiting }
  | cancelled (hpc : s.pc ≠ .start) : Turn srv url s .cancel { s with pc := .ended }
  | put (v : V) {undisturbed : Bool}
      (hund : undisturbed = true → s.undisturbed = true ∧ srv.body v = srv.body s.version) :
      Turn srv url s (.put v) { s with version := v, undisturbed }
  | idle {op : Op V} : Turn srv url s op s

theorem turn_step (op : Op V) : Turn srv url s op (step srv url s op) := by
  cases op with
  | put v => exact .put v (by simp)
  | fetch reply =>
    rcases hfetch : fetchWithETag url reply with ⟨data, etag, err⟩
    cases hpc : s.pc <;> cases err <;> cases data <;> simp only [step, hpc, hfetch]
    case start.some.none => exact .fetchFailed (.inl hpc)
    case start.some.some => exact .fetchFailed (.inl hpc)
    case waiting.some.none => exact .fetchFailed (.inr hpc)
    case waiting.some.some => exact .fetchFailed (.inr hpc)
    case start.none.none => exact .notModified (.inl hpc) hfetch
    case waiting.none.none => exact .notModified (.inr hpc) hfetch
    case start.none.some => exact .body (.inl hpc) hfetch (.inr ⟨hpc, rfl⟩)
    case waiting.none.some => exact .body (.inr hpc) hfetch (.inl rfl)
    all_goals exact .idle
  | deliver =>
    cases hpc : s.pc <;> simp only [step, hpc]
    case send data => exact .delivered hpc
    all_goals exact .idle
  | cancel =>
    cases hpc : s.pc <;> simp only [step, hpc]
    case waiting => exact .cancelled (by simp [hpc])
    case send data => exact .cancelled (by simp [hpc])
    all_goals exact .idle

/-- an undisturbed poll is about to push the server's body, or has pushed it -/
structure Inv (srv : Server V) (s : State V) : Prop where
  fresh : ∀ data, s.pc = .send data → s.undisturbed = true → data = srv.body s.version
  converged : Converged srv s

theorem inv_watchValue (v : V) : Inv srv (watchValue v) := by
  constructor <;> simp [watchValue, Converged]

variable {opts : Options} {key : String}

theorem inv_turn {op : Op V} {s' : State V} (hturn : Turn srv (resolveKey opts key) s op s') (h : Inv srv s)
    (hhonest : Honest opts key srv s op) (hc : Current srv (resolveKey opts key) s op) : Inv srv s' := by
  cases hturn with
  | fetchFailed => constructor <;> simp [State.failed, Converged]
  | body _ hfetch _ =>
    refine ⟨fun data hdata _ => ?_, by simp [Converged]⟩
    obtain rfl := Pc.send.inj hdata
    exact (answers_body hhonest hfetch).1
  | notModified hpc hfetch =>
    -- nothing is pushed: the last body pushed has to be the server's
    exact ⟨by simp, fun _ _ => hc hpc _ hfetch⟩
  | delivered hpc =>
    refine ⟨by simp, fun _ hund => ?_⟩
    rw [← h.fresh _ hpc hund]
    rfl
  | cancelled => constructor <;> simp [Converged]
  | put v hund =>
    refine ⟨fun data hdata hstill => ?_, fun hpc hstill => ?_⟩
    · obtain ⟨hund', hbody⟩ := hund hstill
      exact (h.fresh data hdata hund').trans hbody.symm
    · obtain ⟨hund', hbody⟩ := hund hstill
      exact (h.converged hpc hund').trans (congrArg some hbody.symm)
  | idle => exact h

theorem not_converged {op : Op V} (hc : ¬ Current srv url s op) : ¬ Converged srv (step srv url s op) := by
  cases op with
  | fetch reply =>
    simp only [Current, not_forall] at hc
    obtain ⟨hpc, etag, hfetch, hpushed⟩ := hc
    intro hconv
    rcases hpc with hpc | hpc
    all_goals
      simp only [step, hpc, hfetch, Converged] at hconv
      exact hpushed (hconv trivial trivial)
  | _ => exact absurd trivial hc

/-! ## Tagged runs -/

/-- the remembered ETag is that of the body that was pushed last, or is about to be -/
structure Known (srv : Server V) (s : State V) : Prop where
  start : s.pc = .start → s.lastETag = ""
  send : ∀ data, s.pc = .send data → s.lastETag ≠ "" → ∃ v, srv.etag v = s.lastETag ∧ srv.body v = data
  waiting : s.pc = .waiting → s.lastETag ≠ "" →
    ∃ v, srv.etag v = s.lastETag ∧ s.pushed.head? = some (srv.body v)

theorem remember_of_start {tag : String} (h : Known srv s)
    (htag : tag = s.remember etag ∨ s.pc = .start ∧ tag = etag) : tag = s.remember etag := by
  rcases htag with htag | ⟨hpc, rfl⟩
  · exact htag
  · unfold State.remember
    split_ifs with hne
    · rfl
    · rw [h.start hpc]
      exact not_not.1 hne

/-- without a configured `If-None-Match` a 304 is about the remembered ETag -/
theorem matched {reply : Reply} (hopts : opts.ifNoneMatch = "") (hhonest : Honest opts key srv s (.fetch reply))
    (hfetch : fetchWithETag (resolveKey opts key) reply = (none, etag, none)) :
    s.lastETag ≠ "" ∧ s.lastETag = srv.etag s.version ∧ s.remember etag = s.lastETag := by
  obtain ⟨htag, hmatch, hetag⟩ := answers_notModified hhonest hfetch
  simp only [State.request, buildRequest, hopts] at hmatch
  split_ifs at hmatch with hne
  · refine ⟨hne, hmatch, ?_⟩
    unfold State.remember
    split_ifs with hempty
    · rw [hmatch]
      exact hetag.resolve_left hempty
    · rfl
  · exact absurd hmatch.symm htag

theorem known_turn {op : Op V} {s' : State V} (hopts : opts.ifNoneMatch = "")
    (hturn : Turn srv (resolveKey opts key) s op s') (h : Known srv s)
    (hc : Honest opts key srv s op ∧ Tagged (resolveKey opts key) s op) : Known srv s' := by
  obtain ⟨hhonest, htagged⟩ := hc
  cases hturn with
  | fetchFailed hpc =>
    refine ⟨by simp [State.failed], by simp [State.failed], fun _ hne => ?_⟩
    rcases hpc with hpc | hpc
    · exact absurd (h.start hpc) hne
    · exact h.waiting hpc hne
  | @body reply data etag tag hpc hfetch htag =>
    obtain rfl := remember_of_start h htag
    refine ⟨by simp, fun data' hdata hne => ?_, by simp⟩
    obtain rfl := Pc.send.inj hdata
    obtain ⟨hdata, hetag⟩ := answers_body hhonest hfetch
    refine ⟨s.version, ?_, hdata.symm⟩
    -- without an ETag nothing is remembered
    by_cases hempty : etag = ""
    · subst hempty
      exact absurd (htagged _ hfetch) (by simpa [State.remember] using hne)
    · simpa [State.remember, hempty] using hetag.symm
  | notModified hpc hfetch =>
    obtain ⟨hne, -, hsame⟩ := matched hopts hhonest hfetch
    refine ⟨by simp, by simp, fun _ _ => ?_⟩
    rw [hsame]
    rcases hpc with hpc | hpc
    · exact absurd (h.start hpc) hne
    · exact h.waiting hpc hne
  | delivered hpc =>
    refine ⟨by simp, by simp, fun _ hne => ?_⟩
    obtain ⟨v, htag, hbody⟩ := h.send _ hpc hne
    exact ⟨v, htag, by simp [hbody]⟩
  | cancelled => constructor <;> simp
  | put v _ => exact ⟨h.start, h.send, h.waiting⟩
  | idle => exact h

theorem current_of_known {op : Op V} (hopts : opts.ifNoneMatch = "") (h : Known srv s)
    (hhonest : Honest opts key srv s op) : Current srv (resolveKey opts key) s op := by
  cases op with
  | fetch reply =>
    intro hpc etag hfetch
    obtain ⟨hne, hmatch, -⟩ := matched hopts hhonest hfetch
    rcases hpc with hpc | hpc
    · exact absurd (h.start hpc) hne
    · obtain ⟨v, htag, hpushed⟩ := h.waiting hpc hne
      rw [hpushed, srv.same v s.version (htag.trans hmatch) (by rw [htag]; exact hne)]
  | _ => trivial

/-! ## Runs -/

/-- **When the last body pushed is current.** After each undisturbed poll the last body pushed is the server's, if and
only if each fetch that is answered 304 finds that it is. It is enough that no `If-None-Match` is configured and that no
body comes without an ETag once one is remembered. -/
theorem body_current_iff (srv : Server V) (opts : Options) (key : String) (v : V) (ops : List (Op V))
    (h : Along (step srv (resolveKey opts key)) (Honest opts key srv) (watchValue v) ops) :
    (Always (step srv (resolveKey opts key)) (Converged srv) (watchValue v) ops ↔
      Along (step srv (resolveKey opts key)) (Current srv (resolveKey opts key)) (watchValue v) ops) ∧
    (opts.ifNoneMatch = "" → Along (step srv (resolveKey opts key)) (Tagged (resolveKey opts key)) (watchValue v) ops →
      Along (step srv (resolveKey opts key)) (Current srv (resolveKey opts key)) (watchValue v) ops) := by
  constructor
  · exact always_iff_along (I := Inv srv) (fun _ hI => hI.converged) (fun _ op => inv_turn (turn_step op))
      (fun _ _ _ _ => not_converged) (inv_watchValue v) h
  · intro hopts htagged
    have hknown : Known srv (watchValue v) := by constructor <;> simp [watchValue]
    exact along_of_along (I := Known srv) (fun _ op => known_turn hopts (turn_step op))
      (fun _ _ hI hc => current_of_known hopts hI hc.1) hknown (along_and.2 ⟨h, htagged⟩)

def twoVersions : Server Bool where
  body second := if second then [1] else [0]
  etag second := if second then "" else "a"
  same := by decide

def ok (second : Bool) : Reply := .response 200 "200 OK" (twoVersions.etag second) (.ok (twoVersions.body second))

def notModified : Reply := .response 304 "304 Not Modified" "a" (.ok [])

def plain : Options := ⟨"http://config", ""⟩

def unchanged : List (Op Bool) := [.fetch (ok false), .deliver, .fetch notModified]

theorem body_current_unchanged :
    Always (step twoVersions (resolveKey plain "")) (Converged twoVersions) (watchValue false) unchanged := by
  have hhonest :
      Along (step twoVersions (resolveKey plain "")) (Honest plain "" twoVersions) (watchValue false) unchanged := by
    refine ⟨?_, trivial, ?_, trivial⟩
    · exact .current (.inr (by decide)) (by decide) (by decide) _
    · exact .notModified (by decide) (by decide) (.inr (by decide)) _ _
  obtain ⟨hiff, hcurrent⟩ := body_current_iff twoVersions plain "" false unchanged hhonest
  refine hiff.2 (hcurrent rfl ⟨fun _ _ => rfl, trivial, fun data h => ?_, trivial⟩)
  simp [fetchWithETag, notModified] at h

def conditional : Options := ⟨"http://config", "a"⟩

/-- the first version is replaced by the second, and comes back -/
def comesBack : List (Op Bool) :=
  [.fetch (ok false), .deliver, .put true, .fetch (ok true), .deliver, .put false, .fetch notModified]

/-- the state after the operations, for a document that is at the first version to begin with -/
def watched (opts : Options) (ops : List (Op Bool)) : State Bool :=
  run (step twoVersions (resolveKey opts "")) (watchValue false) ops

theorem honest_comesBack :
    Along (step twoVersions (resolveKey plain "")) (Honest plain "" twoVersions) (watchValue false) comesBack := by
  refine ⟨?_, trivial, trivial, ?_, trivial, trivial, ?_, trivial⟩
  · exact .current (.inr (by decide)) (by decide) (by decide) _
  · exact .current (.inl (by decide)) (by decide) (by decide) _
  · exact .notModified (by decide) (by decide) (.inr (by decide)) _ _

/-- **A body that comes back.** The second body comes without an ETag; when the first is back, the server answers 304 to
its ETag. And with `If-None-Match` among the configured headers the initial fetch is answered 304. -/
theorem body_comes_back :
    (Along (step twoVersions (resolveKey plain "")) (Honest plain "" twoVersions) (watchValue false) comesBack ∧
      ¬ Converged twoVersions (watched plain comesBack) ∧ (watched plain comesBack).pushed = [[1], [0]]) ∧
    (Along (step twoVersions (resolveKey conditional "")) (Honest conditional "" twoVersions) (watchValue false)
        [.fetch notModified] ∧
      ¬ Converged twoVersions (watched conditional [.fetch notModified]) ∧
      (watched conditional [.fetch notModified]).pushed = []) := by
  refine ⟨⟨honest_comesBack, fun h => ?_, by decide⟩, ⟨⟨?_, trivial⟩, fun h => ?_, by decide⟩⟩
  · exact absurd (h (by decide) (by decide)) (by decide)
  · exact .notModified (by decide) (by decide) (.inr (by decide)) _ _
  · exact absurd (h (by decide) (by decide)) (by decide)

end LuluExt.HttpConfig
