/-
The retry middleware of HTTP.

Each attempt writes to a recorder, and the recorder of the last attempt is written to the client. The recorder is not
the server's writer: it takes the last status and not the first, sends the headers as they are at the end, and writes
the whole body at once. Attempts get copies of the request that share its body and its header map. And if the context is
done before the first attempt, nothing is written at all.
-/
import LuluExt.Retry
import LuluExt.Transport.Http.Writer

namespace LuluExt.Http

open LuluExt.Retry

/-! ## Requests -/

/-- the body is what can still be read of it, none once it is closed -/
structure Request where
  method : String
  header : Header
  body : Option Bytes

inductive RequestCall where
  | read (n : ℕ)
  | close
  | header (f : Header → Header)
  | method (m : String)

def Request.call (r : Request) : RequestCall → Request
  | .read n => { r with body := r.body.map (List.drop n) }
  | .close => { r with body := none }
  | .header f => { r with header := f r.header }
  | .method m => { r with method := m }

/-- `req.WithContext` is a copy with the same body and the same header map: the request after a handler had the copy -/
def Request.afterCopy (r : Request) (cs : List RequestCall) : Request :=
  { cs.foldl Request.call r with method := r.method }

/-! ## The recorder -/

structure RetryRecorder where
  header : Header
  status : ℤ
  buf : Bytes

def newRetryRecorder : RetryRecorder := ⟨.empty, 200, []⟩

def RetryRecorder.call (rw : RetryRecorder) : Call → RetryRecorder
  | .header f => { rw with header := f rw.header }
  | .writeHeader code => { rw with status := code }
  | .write data => { rw with buf := rw.buf ++ data }

def record (cs : List Call) : RetryRecorder := cs.foldl RetryRecorder.call newRetryRecorder

def Header.add (h vs : Header) : Header := fun key => h key ++ vs key

def RetryRecorder.flush (rw : RetryRecorder) : List Call :=
  [.header fun h => h.add rw.header, .writeHeader rw.status, .write rw.buf]

/-! ## The middleware -/

structure RetryOptions where
  retryAllMethods : Bool
  retryStatus : List ℤ
  skipFunc : Option (Request → Bool)

def defaultRetryOptions : RetryOptions := ⟨false, [502, 503, 504], none⟩

def idempotentMethods : List String := ["GET", "HEAD", "OPTIONS", "PUT", "DELETE"]

def shouldRetry (cfg : RetryOptions) (statusCode : ℤ) : Bool := cfg.retryStatus.contains statusCode

def isRetryable (cfg : RetryOptions) (req : Request) : Bool :=
  cfg.retryAllMethods || idempotentMethods.contains req.method

def retried (cfg : RetryOptions) (req : Request) : Bool := !(cfg.skipFunc.any fun f => f req) && isRetryable cfg req

structure Attempt where
  request : List RequestCall
  response : List Call

/-- the request as it is now, the variables of the closure and the writer (`none` after a panic); and, of what happened,
the requests the attempts were given and the recorders that were written -/
structure Retrying where
  request : Request
  lastRW : Option RetryRecorder
  flushed : Bool
  writer : Option ResponseWriter
  seen : List Request
  responses : List RetryRecorder

def Retrying.flushTo (s : Retrying) (rw : RetryRecorder) : Retrying :=
  { s with writer := s.writer.bind fun w => w.calls rw.flush, responses := s.responses ++ [rw] }

/-- one attempt; `Do` is told the status if it is to be retried -/
def attemptHandler (cfg : RetryOptions) (handler : ℕ → Attempt) (attempt : ℕ) (s : Retrying) : Option ℤ × Retrying :=
  let rw := record (handler attempt).response
  let s := { s with
    request := s.request.afterCopy (handler attempt).request
    lastRW := some rw
    seen := s.seen ++ [s.request] }
  if shouldRetry cfg rw.status then (some rw.status, s) else (none, { s.flushTo rw with flushed := true })

def startRetrying (req : Request) (w : ResponseWriter) : Retrying := ⟨req, none, false, some w, [], []⟩

/-- `Middleware`; a request that is not subject to retry goes to the handler as it is -/
def retryMiddleware (r : Retrier ℤ) (cfg : RetryOptions) (w : World) (handler : ℕ → Attempt) (req : Request)
    (rw : ResponseWriter) : Retrying :=
  if retried cfg req then
    let s := (r.doWith w (attemptHandler cfg handler) (startRetrying req rw)).2
    match s.flushed, s.lastRW with
    | false, some rw => s.flushTo rw
    | _, _ => s
  else
    { startRetrying req rw with
      request := (handler 0).request.foldl Request.call req
      writer := rw.calls (handler 0).response
      seen := [req] }

def serveRetrying (r : Retrier ℤ) (cfg : RetryOptions) (w : World) (handler : ℕ → Attempt) (req : Request)
    (h : Header) : Retrying :=
  retryMiddleware r cfg w handler req (newWriter (req.method = "HEAD") h)

/-! ## What the attempts leave behind -/

def requestAt (handler : ℕ → Attempt) (req : Request) : ℕ → Request
  | 0 => req
  | n + 1 => (requestAt handler req n).afterCopy (handler n).request

def recorderAt (handler : ℕ → Attempt) (n : ℕ) : RetryRecorder := record (handler n).response

variable {handler : ℕ → Attempt} {cfg : RetryOptions}

theorem attemptHandler_retried {k : ℕ} (h : shouldRetry cfg (recorderAt handler k).status) (s : Retrying) :
    attemptHandler cfg handler k s = (some (recorderAt handler k).status,
      { s with
        request := s.request.afterCopy (handler k).request
        lastRW := some (recorderAt handler k)
        seen := s.seen ++ [s.request] }) := by
  rw [recorderAt] at h
  simp only [attemptHandler, h]
  rfl

theorem attemptHandler_final {k : ℕ} (h : ¬ shouldRetry cfg (recorderAt handler k).status) (s : Retrying) :
    attemptHandler cfg handler k s = (none,
      { Retrying.flushTo { s with
          request := s.request.afterCopy (handler k).request
          lastRW := some (recorderAt handler k)
          seen := s.seen ++ [s.request] } (recorderAt handler k) with flushed := true }) := by
  rw [recorderAt] at h
  simp only [attemptHandler, h]
  rfl

theorem shouldRetry_of_returned {k : ℕ} {s : Retrying} {e : ℤ}
    (h : returned (attemptHandler cfg handler) k s = some e) :
    shouldRetry cfg (recorderAt handler k).status := by
  by_contra hnot
  rw [returned, attemptHandler_final hnot] at h
  cases h

theorem after_retried (req : Request) (w : ResponseWriter) {n : ℕ}
    (h : ∀ k < n, shouldRetry cfg (recorderAt handler k).status) :
    ∃ last, after (attemptHandler cfg handler) n (startRetrying req w) =
      ⟨requestAt handler req n, last, false, some w, (List.range n).map (requestAt handler req), []⟩ := by
  induction n with
  | zero => exact ⟨none, rfl⟩
  | succ n ih =>
    obtain ⟨last, hafter⟩ := ih fun k hk => h k (by omega)
    refine ⟨some (recorderAt handler n), ?_⟩
    rw [after, hafter, attemptHandler_retried (h n (Nat.lt_succ_self n)), List.range_succ, List.map_append]
    rfl

/-- what a retried request leaves behind after n attempts -/
structure Attempted (cfg : RetryOptions) (handler : ℕ → Attempt) (req : Request) (w : ResponseWriter) (n : ℕ)
    (s : Retrying) : Prop where
  seen : s.seen = (List.range n).map (requestAt handler req)
  /-- all but the last were retried -/
  statuses : ∀ k, k + 1 < n → shouldRetry cfg (recorderAt handler k).status = true
  /-- the last one is written -/
  responses : s.responses = ((List.range n).map (recorderAt handler)).getLast?.toList
  writer : s.writer = w.calls (((List.range n).map fun k => (recorderAt handler k).flush).getLast?.getD [])

theorem attempted_flushTo (req : Request) {w : ResponseWriter} {k : ℕ}
    (hstatuses : ∀ i, i + 1 < k + 1 → shouldRetry cfg (recorderAt handler i).status) {s : Retrying}
    (hseen : s.seen = (List.range (k + 1)).map (requestAt handler req)) (hwriter : s.writer = some w)
    (hresponses : s.responses = []) : Attempted cfg handler req w (k + 1) (s.flushTo (recorderAt handler k)) where
  seen := hseen
  statuses := hstatuses
  responses := by simp [Retrying.flushTo, hresponses, List.range_succ]
  writer := by simp [Retrying.flushTo, hwriter, List.range_succ]

theorem retryMiddleware_attempted (r : Retrier ℤ) (w : World) (handler : ℕ → Attempt)
    {req : Request} (rw : ResponseWriter) (hreq : retried cfg req) :
    ∃ n, (n = 0 ↔ (w.ctxErr 0).isSome) ∧ Attempted cfg handler req rw n (retryMiddleware r cfg w handler req rw) := by
  obtain ⟨n, -, hzero, hmade⟩ := doWith_spec r w (attemptHandler cfg handler) (startRetrying req rw)
  have hstatuses : ∀ k, k + 1 < n → shouldRetry cfg (recorderAt handler k).status := by
    intro k hk
    obtain ⟨e, he, -⟩ := hmade.retried k hk
    exact shouldRetry_of_returned he
  refine ⟨n, hzero, ?_⟩
  simp only [retryMiddleware, hreq, hmade.state]
  cases n with
  | zero => exact ⟨rfl, by simp, rfl, rfl⟩
  | succ k =>
    have hbefore : ∀ i < k, shouldRetry cfg (recorderAt handler i).status := fun i hi => hstatuses i (by omega)
    obtain ⟨last, hafter⟩ := after_retried req rw hbefore
    rw [after, hafter]
    by_cases hlast : shouldRetry cfg (recorderAt handler k).status
    · rw [attemptHandler_retried hlast]
      refine attempted_flushTo req hstatuses ?_ rfl rfl
      simp [List.range_succ]
    · rw [attemptHandler_final hlast]
      have hflush := attempted_flushTo req (w := rw) hstatuses
        (s := ⟨requestAt handler req (k + 1), some (recorderAt handler k), false, some rw,
          (List.range k).map (requestAt handler req) ++ [requestAt handler req k], []⟩)
        (by simp [List.range_succ]) rfl rfl
      exact ⟨hflush.seen, hflush.statuses, hflush.responses, hflush.writer⟩

/-! ## Transparency -/

def lastCode (code : ℤ) : List Call → ℤ
  | [] => code
  | .writeHeader c :: cs => lastCode c cs
  | .header _ :: cs => lastCode code cs
  | .write _ :: cs => lastCode code cs

theorem foldl_recorder (rw : RetryRecorder) (cs : List Call) : cs.foldl RetryRecorder.call rw =
    ⟨headerAfter rw.header cs, lastCode rw.status cs, rw.buf ++ (writes cs).flatten⟩ := by
  induction cs generalizing rw with
  | nil => simp [headerAfter, lastCode, writes]
  | cons c cs ih => cases c <;> simp [ih, RetryRecorder.call, headerAfter, lastCode, writes]

theorem record_eq (cs : List Call) : record cs = ⟨headerAfter .empty cs, lastCode 200 cs, (writes cs).flatten⟩ :=
  foldl_recorder newRetryRecorder cs

/-- the status that is sent for a status in a recorder -/
def flushedStatus (code : ℤ) : Option ℤ :=
  if Invalid code then none else if Informational code then some 200 else some code

/-- the writes fit into the declared length, or not even the first of them does -/
def Fits (limit : Option ℕ) (ds : List Bytes) : Prop :=
  ∀ n, limit = some n → ds.flatten.length ≤ n ∨ ∀ d ∈ (ds.filter (· ≠ [])).head?, n < d.length

theorem accepted_flatten_iff (limit : Option ℕ) (ds : List Bytes) :
    accepted limit 0 ds = accepted limit 0 [ds.flatten] ↔ Fits limit ds := by
  rw [accepted_singleton]
  cases limit with
  | none => simp [accepted_of_le, Fits, exceeds]
  | some m =>
    by_cases hle : ds.flatten.length ≤ m
    · have hall : accepted (some m) 0 ds = ds.flatten := accepted_of_le (by simpa using hle)
      rw [hall, if_neg (by simpa [exceeds] using hle)]
      refine ⟨fun _ n hn => ?_, fun _ => rfl⟩
      cases hn
      exact Or.inl hle
    · have hexceeds : exceeds (some m) ds.flatten.length := decide_eq_true (not_le.1 hle)
      rw [if_pos hexceeds, accepted_eq_nil_iff]
      constructor
      · intro hfirst n hn
        cases hn
        exact Or.inr hfirst
      · intro hfits
        exact (hfits m rfl).resolve_left hle

/-- a handler whose response does not depend on when it is sent: the last status is sent like the first, the headers are
not changed after the first, and the writes are accepted at once as they are one by one -/
def Agrees (isHead : Bool) (h : Header) (cs : List Call) : Prop :=
  statusOf cs = flushedStatus (lastCode 200 cs) ∧
    ∀ code, statusOf cs = some code →
      sentHeader (headerAt h cs) = sentHeader (h.add (headerAfter .empty cs)) ∧
        (isHead = true ∨ bodyAllowed code = false ∨ Fits (declared (headerAt h cs)) (writes cs))

theorem respond_flush (isHead : Bool) (h : Header) (rw : RetryRecorder) :
    respond isHead h rw.flush = (flushedStatus rw.status).map fun code =>
      ⟨code, sentHeader (h.add rw.header), bodyOf isHead code (declared (h.add rw.header)) 0 [rw.buf]⟩ := by
  rw [respond_eq]
  simp only [RetryRecorder.flush, statusOf, headerAt, writes, flushedStatus, ite_self]

theorem bodyOf_flatten_iff (isHead : Bool) (code : ℤ) (limit : Option ℕ) (ds : List Bytes) :
    bodyOf isHead code limit 0 [ds.flatten] = bodyOf isHead code limit 0 ds ↔
      isHead ∨ bodyAllowed code = false ∨ Fits limit ds := by
  cases isHead with
  | true => simp [bodyOf]
  | false =>
    cases hallowed : bodyAllowed code with
    | false => simp [bodyOf, hallowed]
    | true =>
      simp only [bodyOf, hallowed, Bool.not_true, Bool.or_self, Bool.false_eq_true, if_false, false_or,
        Bool.true_eq_false]
      rw [← accepted_flatten_iff, eq_comm]

theorem respond_flush_iff (isHead : Bool) (h : Header) (cs : List Call) :
    respond isHead h (record cs).flush = respond isHead h cs ↔ Agrees isHead h cs := by
  rw [respond_flush, respond_eq, record_eq]
  dsimp only [Agrees]
  cases hstatus : statusOf cs with
  | none =>
    rw [Option.map_none, Option.map_eq_none_iff, eq_comm]
    simp
  | some code =>
    cases hflushed : flushedStatus (lastCode 200 cs) with
    | none => simp
    | some last =>
      simp only [Option.map_some, Option.some.injEq, Response.mk.injEq, forall_eq', ← bodyOf_flatten_iff]
      constructor
      · rintro ⟨rfl, hheader, hbody⟩
        rw [← declared_sentHeader, hheader, declared_sentHeader] at hbody
        exact ⟨rfl, hheader.symm, hbody⟩
      · rintro ⟨rfl, hheader, hbody⟩
        rw [← declared_sentHeader, hheader, declared_sentHeader] at hbody
        refine ⟨rfl, hheader.symm, ?_⟩
        rw [hbody, ← declared_sentHeader (headerAt h cs), hheader, declared_sentHeader]

/-- **Transparency.** If the first attempt is not retried, the client sees the handler's own response for exactly the
handlers that agree with a late response; and one response, that of the last attempt, is written unless the context is
done before the first. -/
theorem transparent_iff (r : Retrier ℤ) (cfg : RetryOptions) (w : World) (handler : ℕ → Attempt) (req : Request)
    (h : Header) (hreq : retried cfg req = true) :
    (w.ctxErr 0 = none → shouldRetry cfg (recorderAt handler 0).status = false →
      ((serveRetrying r cfg w handler req h).writer.map ResponseWriter.finish =
        respond (req.method = "HEAD") h (handler 0).response ↔
          Agrees (req.method = "HEAD") h (handler 0).response)) ∧
    ((∃ k, (serveRetrying r cfg w handler req h).seen.length = k + 1 ∧
      (serveRetrying r cfg w handler req h).responses = [recorderAt handler k]) ↔ w.ctxErr 0 = none) := by
  obtain ⟨n, hzero, hattempted⟩ : ∃ n, (n = 0 ↔ (w.ctxErr 0).isSome) ∧
      Attempted cfg handler req (newWriter (req.method = "HEAD") h) n (serveRetrying r cfg w handler req h) :=
    retryMiddleware_attempted r w handler _ hreq
  constructor
  · intro hctx hfinal
    -- the first attempt is the only one: the others follow attempts that are retried
    have hn : n = 1 := by
      have hne : n ≠ 0 := by simp [hzero, hctx]
      by_contra hmore
      have hretry := hattempted.statuses 0 (by omega)
      rw [hfinal] at hretry
      cases hretry
    rw [hattempted.writer, hn]
    exact respond_flush_iff (req.method = "HEAD") h (handler 0).response
  · rw [← Option.not_isSome_iff_eq_none, ← hzero, hattempted.seen, hattempted.responses]
    cases n with
    | zero => simp
    | succ k => simp [List.range_succ]

def created : Attempt :=
  ⟨[], [.header (Header.set "Location" "/users/1"), .writeHeader 201, .write [111], .write [107]]⟩

theorem created_agrees : Agrees false .empty created.response := by
  refine ⟨rfl, ?_⟩
  intro code hcode
  cases hcode
  refine ⟨congrArg sentHeader ?_, Or.inr (Or.inr ?_)⟩
  · funext key
    simp [created, headerAt, headerAfter, Header.add, Header.empty]
  · intro n hn
    simp [created, headerAt, declared, Header.set, Header.empty, contentLength] at hn

def putRequest (body : Bytes) : Request := ⟨"PUT", .empty, some body⟩

theorem created_transparent :
    retried defaultRetryOptions (putRequest []) = true ∧
      (serveRetrying (Retry.new Go.amd64 []) defaultRetryOptions idleWorld (fun _ => created) (putRequest [])
        .empty).writer.map ResponseWriter.finish = respond false .empty created.response :=
  ⟨by decide, ((transparent_iff (Retry.new Go.amd64 []) defaultRetryOptions idleWorld (fun _ => created)
    (putRequest []) .empty (by decide)).1 rfl (by decide)).2 created_agrees⟩

/-- what the client sees of a handler that runs once: through the middleware, and without it -/
def bothWays (cs : List Call) : Option Response × Option Response :=
  ((serveRetrying (Retry.new Go.amd64 []) defaultRetryOptions idleWorld (fun _ => ⟨[], cs⟩) (putRequest [])
    .empty).writer.map ResponseWriter.finish, respond false .empty cs)

/-- **Opaque.** A second status replaces the first; a header that is set after the status is sent; a body longer than
its declared length is lost as a whole; and a cancelled request is answered by the server's own empty 200. -/
theorem opaque_responses :
    (((bothWays [.writeHeader 200, .writeHeader 404]).1.map Response.status = some 404) ∧
      (bothWays [.writeHeader 200, .writeHeader 404]).2.map Response.status = some 200) ∧
    ((bothWays [.writeHeader 200, .header (Header.set "X-Late" "1")]).1.map (fun r => r.header "X-Late") = some ["1"] ∧
      (bothWays [.writeHeader 200, .header (Header.set "X-Late" "1")]).2.map (fun r => r.header "X-Late") = some []) ∧
    ((bothWays [.header (Header.set contentLength "1"), .write [97], .write [98]]).1.map Response.body = some [] ∧
      (bothWays [.header (Header.set contentLength "1"), .write [97], .write [98]]).2.map Response.body = some [97]) ∧
    (let s := serveRetrying (Retry.new Go.amd64 []) defaultRetryOptions cancelledWorld (fun _ => created)
      (putRequest []) .empty
     s.seen.length = 0 ∧ s.responses.length = 0 ∧ s.writer.map (fun w => w.finish.status) = some 200) := by
  decide

/-! ## The requests of the attempts -/

/-- the handler leaves the body and the headers as they are -/
def Untouched (req : Request) (cs : List RequestCall) : Prop :=
  (req.body = none ∨ .close ∉ cs ∧ (req.body = some [] ∨ ∀ n, .read n ∈ cs → n = 0)) ∧
    (cs.foldl Request.call req).header = req.header

/-- how much of the body the calls read -/
def consumed : List RequestCall → ℕ
  | [] => 0
  | .read n :: cs => n + consumed cs
  | _ :: cs => consumed cs

theorem consumed_eq_zero_iff (cs : List RequestCall) : consumed cs = 0 ↔ ∀ n, .read n ∈ cs → n = 0 := by
  induction cs with
  | nil => simp [consumed]
  | cons c cs ih => cases c <;> simp [consumed, ih]

open Classical in
theorem foldl_call_body (r : Request) (cs : List RequestCall) :
    (cs.foldl Request.call r).body = if .close ∈ cs then none else r.body.map (List.drop (consumed cs)) := by
  induction cs generalizing r with
  | nil => cases h : r.body <;> simp [consumed, h]
  | cons c cs ih =>
    rw [List.foldl_cons, ih]
    cases c <;> simp [Request.call, consumed, Function.comp_def]

theorem afterCopy_eq_iff (req : Request) (cs : List RequestCall) : req.afterCopy cs = req ↔ Untouched req cs := by
  have hfields : req.afterCopy cs = req ↔
      (cs.foldl Request.call req).body = req.body ∧ (cs.foldl Request.call req).header = req.header := by
    constructor
    · intro heq
      have hbody := congrArg Request.body heq
      have hheader := congrArg Request.header heq
      exact ⟨hbody, hheader⟩
    · rintro ⟨hbody, hheader⟩
      rw [Request.afterCopy, hbody, hheader]
  rw [hfields]
  cases hbody : req.body with
  | none => simp [Untouched, hbody, foldl_call_body]
  | some b =>
    by_cases hclose : .close ∈ cs
    · simp [Untouched, hbody, foldl_call_body, hclose]
    · have hdrop : b.drop (consumed cs) = b ↔ b = [] ∨ consumed cs = 0 := by
        rw [← List.length_eq_zero_iff]
        constructor
        · intro hsame
          have hlength := congrArg List.length hsame
          rw [List.length_drop] at hlength
          omega
        · rintro (hnil | hzero)
          · simp [List.length_eq_zero_iff.1 hnil]
          · rw [hzero, List.drop_zero]
      simp [Untouched, hbody, foldl_call_body, hclose, hdrop, ← consumed_eq_zero_iff]

theorem requestAt_eq_iff (handler : ℕ → Attempt) (req : Request) (n : ℕ) :
    (∀ k < n, requestAt handler req k = req) ↔ ∀ k, k + 1 < n → Untouched req (handler k).request := by
  constructor
  · intro hsame k hk
    have hnext : (requestAt handler req k).afterCopy (handler k).request = req := hsame (k + 1) hk
    rw [hsame k (by omega)] at hnext
    exact (afterCopy_eq_iff req _).1 hnext
  · intro huntouched k hk
    induction k with
    | zero => rfl
    | succ k ih =>
      rw [requestAt, ih (by omega)]
      exact (afterCopy_eq_iff req _).2 (huntouched k hk)

/-- **The same input.** Every attempt is given the request that the first is given, its method, headers and whole body,
if and only if every attempt that is followed by another leaves body and headers as they are. -/
theorem same_input_iff (r : Retrier ℤ) (cfg : RetryOptions) (w : World) (handler : ℕ → Attempt) (req : Request)
    (h : Header) :
    (∀ seen ∈ (serveRetrying r cfg w handler req h).seen, seen = req) ↔
      ∀ k, k + 1 < (serveRetrying r cfg w handler req h).seen.length → Untouched req (handler k).request := by
  by_cases hreq : retried cfg req
  · obtain ⟨n, -, hattempted⟩ := retryMiddleware_attempted r w handler (newWriter (req.method = "HEAD") h) hreq
    rw [serveRetrying, hattempted.seen, ← requestAt_eq_iff]
    simp
  · simp [serveRetrying, retryMiddleware, hreq]

/-- the bodies that the attempts can read, and the values of a header they see -/
def inputs (handler : ℕ → Attempt) (req : Request) (key : String) : List (Option Bytes × List String) :=
  (serveRetrying (Retry.new Go.amd64 []) defaultRetryOptions idleWorld handler req .empty).seen.map
    fun seen => (seen.body, seen.header key)

/-- **Different inputs.** The first attempt reads two of three bytes and answers 503: the second can read one. And a
header that the first attempt sets is there in the second. -/
theorem different_inputs :
    inputs (fun _ => ⟨[.read 2], [.writeHeader 503]⟩) (putRequest [97, 98, 99]) "X-Attempt" =
      [(some [97, 98, 99], []), (some [99], []), (some [], [])] ∧
    inputs (fun _ => ⟨[.header fun h => h.add (Header.set "X-Attempt" "1" .empty)], [.writeHeader 503]⟩)
      (putRequest []) "X-Attempt" = [(some [], []), (some [], ["1"]), (some [], ["1", "1"])] := by
  decide

end LuluExt.Http
