/-
The server's ResponseWriter in full: status, headers and body of the response that a sequence of calls makes.

The first final status wins, and a write without one sends 200. At that moment the header map is copied, so that later
changes to it are not sent, and a Content-Length in it is taken at its word: writes beyond it are refused. Statuses
without a body refuse every write, and the response to HEAD has none. A handler is the sequence of its calls.
-/
import LuluExt.Lib.Strconv
import LuluExt.Transport.Http

namespace LuluExt.Http

abbrev Bytes := List UInt8

/-- the values of each key; a key without values is not told apart from one that is absent -/
abbrev Header := String → List String

def Header.empty : Header := fun _ => []

def Header.set (key value : String) (h : Header) : Header := Function.update h key [value]

def Header.del (key : String) (h : Header) : Header := Function.update h key []

/-- one call of a handler on its writer; changes to the map that `Header()` returns are functions of it -/
inductive Call where
  | header (f : Header → Header)
  | writeHeader (code : ℤ)
  | write (data : Bytes)

/-! ## Content-Length -/

/-- `strconv.ParseInt(s, 10, 64)`, if the result is not negative -/
def parseLength (s : String) : Option ℕ :=
  match Strconv.parseInt s.toList with
  | (.ofNat n, none) => some n
  | _ => none

def contentLength : String := "Content-Length"

def declared (h : Header) : Option ℕ := (h contentLength).head?.bind parseLength

/-- a Content-Length that is not a length is not sent -/
def sentHeader (h : Header) : Header := if (declared h).isSome then h else Header.del contentLength h

/-! ## The writer -/

/-- `sent` is the status that was sent with a copy of the headers, `limit` the length these declare, `written` counts
the bytes of all writes -/
structure ResponseWriter where
  isHead : Bool
  header : Header
  sent : Option (ℤ × Header)
  limit : Option ℕ
  written : ℕ
  body : Bytes

/-- the writer of a request, HEAD or not, with the headers that are in its map already -/
def newWriter (isHead : Bool) (h : Header) : ResponseWriter := ⟨isHead, h, none, none, 0, []⟩

def bodyAllowed (code : ℤ) : Bool := !(decide (100 ≤ code ∧ code ≤ 199)) && code ≠ 204 && code ≠ 304

def exceeds (limit : Option ℕ) (n : ℕ) : Bool := limit.any (· < n)

namespace ResponseWriter

def commit (w : ResponseWriter) (code : ℤ) : ResponseWriter :=
  { w with sent := some (code, sentHeader w.header), limit := declared w.header }

def writeHeader (w : ResponseWriter) (code : ℤ) : Option ResponseWriter :=
  if w.sent.isSome then some w
  else if Invalid code then none
  else if Informational code then some w
  else some (w.commit code)

def append (w : ResponseWriter) (code : ℤ) (data : Bytes) : ResponseWriter :=
  if data = [] then w
  else if !bodyAllowed code then w
  else if exceeds w.limit (w.written + data.length) then { w with written := w.written + data.length }
  else { w with written := w.written + data.length, body := if w.isHead then w.body else w.body ++ data }

def write (w : ResponseWriter) (data : Bytes) : ResponseWriter :=
  match w.sent with
  | some (code, _) => w.append code data
  | none => (w.commit 200).append 200 data

def call (w : ResponseWriter) : Call → Option ResponseWriter
  | .header f => some { w with header := f w.header }
  | .writeHeader code => w.writeHeader code
  | .write data => some (w.write data)

def calls (w : ResponseWriter) : List Call → Option ResponseWriter
  | [] => some w
  | c :: cs => (w.call c).bind fun w => w.calls cs

end ResponseWriter

structure Response where
  status : ℤ
  header : Header
  body : Bytes

def ResponseWriter.finish (w : ResponseWriter) : Response :=
  match w.sent with
  | some (code, h) => ⟨code, h, w.body⟩
  | none => ⟨200, sentHeader w.header, w.body⟩

/-- the response of a handler on the server's writer; `none` when it panics -/
def respond (isHead : Bool) (h : Header) (cs : List Call) : Option Response :=
  ((newWriter isHead h).calls cs).map ResponseWriter.finish

def httpError (message : Bytes) (code : ℤ) : List Call :=
  [.header (Header.del contentLength), .header (Header.set "Content-Type" "text/plain; charset=utf-8"),
    .header (Header.set "X-Content-Type-Options" "nosniff"), .writeHeader code, .write (message ++ [10])]

variable (w : ResponseWriter)

theorem calls_append (cs ds : List Call) : w.calls (cs ++ ds) = (w.calls cs).bind fun w => w.calls ds := by
  induction cs generalizing w with
  | nil => rfl
  | cons c cs ih =>
    cases h : w.call c with
    | none => simp [ResponseWriter.calls, h]
    | some w' => simp [ResponseWriter.calls, h, ih]

theorem calls_concat (cs : List Call) (c : Call) : w.calls (cs ++ [c]) = (w.calls cs).bind fun w => w.call c := by
  rw [calls_append]
  simp [ResponseWriter.calls]

/-! ## The response of a sequence of calls -/

/-- the first final status; `none` when an invalid one comes first -/
def statusOf : List Call → Option ℤ
  | [] => some 200
  | .header _ :: cs => statusOf cs
  | .writeHeader code :: cs =>
    if Invalid code then none else if Informational code then statusOf cs else some code
  | .write _ :: _ => some 200

def headerAt (h : Header) : List Call → Header
  | [] => h
  | .header f :: cs => headerAt (f h) cs
  | .writeHeader code :: cs => if Informational code then headerAt h cs else h
  | .write _ :: _ => h

def headerAfter (h : Header) : List Call → Header
  | [] => h
  | .header f :: cs => headerAfter (f h) cs
  | .writeHeader _ :: cs => headerAfter h cs
  | .write _ :: cs => headerAfter h cs

def writes : List Call → List Bytes
  | [] => []
  | .header _ :: cs => writes cs
  | .writeHeader _ :: cs => writes cs
  | .write data :: cs => data :: writes cs

/-- the writes that fit, when some bytes have been written before -/
def accepted (limit : Option ℕ) : ℕ → List Bytes → Bytes
  | _, [] => []
  | n, d :: ds =>
    if exceeds limit (n + d.length) then accepted limit (n + d.length) ds
    else d ++ accepted limit (n + d.length) ds

def bodyOf (isHead : Bool) (code : ℤ) (limit : Option ℕ) (n : ℕ) (ds : List Bytes) : Bytes :=
  if isHead || !bodyAllowed code then [] else accepted limit n ds

theorem accepted_nil_cons (limit : Option ℕ) (n : ℕ) (ds : List Bytes) :
    accepted limit n ([] :: ds) = accepted limit n ds := by
  simp [accepted]

theorem append_sent (code : ℤ) (data : Bytes) :
    (w.append code data).sent = w.sent ∧ (w.append code data).isHead = w.isHead ∧
      (w.append code data).limit = w.limit := by
  unfold ResponseWriter.append
  split_ifs <;> simp

theorem append_body (code : ℤ) (data : Bytes) (ds : List Bytes) :
    (w.append code data).body ++ bodyOf w.isHead code w.limit (w.append code data).written ds =
      w.body ++ bodyOf w.isHead code w.limit w.written (data :: ds) := by
  by_cases hnil : data = []
  · simp [ResponseWriter.append, hnil, bodyOf, accepted_nil_cons]
  by_cases hallowed : bodyAllowed code
  swap
  · simp [ResponseWriter.append, hallowed, bodyOf]
  by_cases hlimit : exceeds w.limit (w.written + data.length)
  · simp [ResponseWriter.append, hnil, hallowed, hlimit, bodyOf, accepted]
  · cases hhead : w.isHead <;> simp [ResponseWriter.append, hnil, hallowed, hlimit, hhead, bodyOf, accepted]

theorem calls_of_sent {w : ResponseWriter} {code : ℤ} {h : Header} (hsent : w.sent = some (code, h)) (cs : List Call) :
    (w.calls cs).map ResponseWriter.finish =
      some ⟨code, h, w.body ++ bodyOf w.isHead code w.limit w.written (writes cs)⟩ := by
  induction cs generalizing w with
  | nil => simp [ResponseWriter.calls, ResponseWriter.finish, hsent, bodyOf, writes, accepted]
  | cons c cs ih =>
    cases c with
    | header f => exact ih (w := { w with header := f w.header }) hsent
    | writeHeader c =>
      simp only [ResponseWriter.calls, ResponseWriter.call, ResponseWriter.writeHeader, hsent]
      exact ih hsent
    | write data =>
      obtain ⟨hsame, hhead, hlimit⟩ := append_sent w code data
      simp only [ResponseWriter.calls, ResponseWriter.call, ResponseWriter.write, hsent, Option.bind_some, writes]
      rw [ih (hsame.trans hsent), hhead, hlimit, append_body]

theorem calls_of_unsent {w : ResponseWriter} (hsent : w.sent = none) (hwritten : w.written = 0) (hbody : w.body = [])
    (cs : List Call) :
    (w.calls cs).map ResponseWriter.finish = (statusOf cs).map fun code =>
      ⟨code, sentHeader (headerAt w.header cs),
        bodyOf w.isHead code (declared (headerAt w.header cs)) 0 (writes cs)⟩ := by
  induction cs generalizing w with
  | nil =>
    simp [ResponseWriter.calls, ResponseWriter.finish, hsent, statusOf, headerAt, bodyOf, writes, accepted, hbody]
  | cons c cs ih =>
    cases c with
    | header f => exact ih (w := { w with header := f w.header }) hsent hwritten hbody
    | writeHeader code =>
      simp only [ResponseWriter.calls, ResponseWriter.call, ResponseWriter.writeHeader, hsent, Option.isSome_none,
        Bool.false_eq_true, statusOf, headerAt, writes]
      by_cases hinvalid : Invalid code
      · simp [hinvalid]
      by_cases hinformational : Informational code
      · simp only [hinvalid, hinformational]
        exact ih hsent hwritten hbody
      · simp only [hinvalid, hinformational, if_false, Option.bind_some]
        rw [calls_of_sent (w := w.commit code) rfl]
        simp [ResponseWriter.commit, hwritten, hbody]
    | write data =>
      obtain ⟨hsame, hhead, hlimit⟩ := append_sent (w.commit 200) 200 data
      simp only [ResponseWriter.calls, ResponseWriter.call, ResponseWriter.write, hsent, Option.bind_some, statusOf,
        headerAt, writes]
      rw [calls_of_sent (hsame.trans rfl), hhead, hlimit, append_body]
      simp [ResponseWriter.commit, hwritten, hbody]

/-- **The response** of a handler: the first final status, the headers as they are when it is sent, and the writes that
the status allows and a declared length has room for. -/
theorem respond_eq (isHead : Bool) (h : Header) (cs : List Call) :
    respond isHead h cs = (statusOf cs).map fun code =>
      ⟨code, sentHeader (headerAt h cs), bodyOf isHead code (declared (headerAt h cs)) 0 (writes cs)⟩ :=
  calls_of_unsent (w := newWriter isHead h) rfl rfl rfl cs

/-! ## Writes and a declared length -/

theorem accepted_singleton (limit : Option ℕ) (d : Bytes) :
    accepted limit 0 [d] = if exceeds limit d.length then [] else d := by
  simp [accepted]

theorem accepted_of_le {limit : Option ℕ} {n : ℕ} {ds : List Bytes}
    (h : ∀ m, limit = some m → n + ds.flatten.length ≤ m) : accepted limit n ds = ds.flatten := by
  induction ds generalizing n with
  | nil => rfl
  | cons d ds ih =>
    have hfit : exceeds limit (n + d.length) = false := by
      cases limit with
      | none => rfl
      | some m =>
        have hm := h m rfl
        simp only [List.flatten_cons, List.length_append] at hm
        simp only [exceeds, Option.any_some, decide_eq_false_iff_not]
        omega
    rw [accepted, hfit, List.flatten_cons]
    simp only [Bool.false_eq_true, if_false, List.append_cancel_left_eq]
    apply ih
    intro m hm
    have := h m hm
    simp only [List.flatten_cons, List.length_append] at this
    omega

theorem accepted_of_exceeded {m n : ℕ} (h : m < n) (ds : List Bytes) : accepted (some m) n ds = [] := by
  induction ds generalizing n with
  | nil => rfl
  | cons d ds ih =>
    have hlt : m < n + d.length := by omega
    simp [accepted, exceeds, hlt, ih hlt]

theorem accepted_eq_nil_iff (m : ℕ) (ds : List Bytes) :
    accepted (some m) 0 ds = [] ↔ ∀ d ∈ (ds.filter (· ≠ [])).head?, m < d.length := by
  induction ds with
  | nil => simp [accepted]
  | cons d ds ih =>
    by_cases hnil : d = []
    · rw [hnil, accepted_nil_cons, ih]
      simp
    · rw [List.filter_cons_of_pos (by simpa using hnil)]
      by_cases hlt : m < d.length
      · simp [accepted, exceeds, hlt, accepted_of_exceeded hlt]
      · simp [accepted, exceeds, hlt, hnil]

theorem declared_sentHeader (h : Header) : declared (sentHeader h) = declared h := by
  unfold sentHeader
  split_ifs with hd
  · rfl
  · have hnone : declared h = none := by simpa using hd
    rw [hnone]
    simp [declared, Header.del]

end LuluExt.Http
