/-
Errors across a gRPC call: the framework's error, the status the server interceptor makes of it, and the error the
client interceptor makes of that status.

A status carries a code and a message, nothing else. Both interceptors translate codes through a table, and the tables
are not inverse to each other: two HTTP codes share a gRPC code twice, and 412 has no way back. The client fills in the
name of the code for the reason. And a status whose code is OK is no error at all.
-/
import LuluExt.Transport.Grpc.Status

/-! ## The framework's error -/

namespace LuluExt.Errors

structure Error where
  code : ℤ
  reason : String
  message : String
  metadata : List (String × String)
deriving DecidableEq, Repr

def new (code : ℤ) (reason message : String) : Error := ⟨code, reason, message, []⟩

def Error.text (e : Error) : String := if e.reason ≠ "" then e.reason ++ ": " ++ e.message else e.message

/-- a Go error that is not nil. A nil `*Error` in an interface is one too; an error may wrap one other or two (`%w`,
`errors.Join`, which search theirs in order). -/
inductive Err where
  | plain (text : String)
  | status (code : ℕ) (message : String)
  | app (e : Option Error)
  | wrap (text : String) (inner : Err)
  | join (a b : Err)
deriving DecidableEq, Repr

def Err.as : Err → Option (Option Error)
  | .app e => some e
  | .wrap _ inner => inner.as
  | .join a b => a.as.or b.as
  | .plain _ => none
  | .status _ _ => none

def fromError (err : Err) : Option Error := err.as.join

end LuluExt.Errors

namespace LuluExt.Grpc

open LuluExt.Errors

variable {ρ : Type}

/-! ## Codes -/

def ok : ℕ := 0

def codeName : ℕ → String
  | 0 => "OK"
  | 1 => "Canceled"
  | 2 => "Unknown"
  | 3 => "InvalidArgument"
  | 4 => "DeadlineExceeded"
  | 5 => "NotFound"
  | 6 => "AlreadyExists"
  | 7 => "PermissionDenied"
  | 8 => "ResourceExhausted"
  | 9 => "FailedPrecondition"
  | 10 => "Aborted"
  | 11 => "OutOfRange"
  | 12 => "Unimplemented"
  | 13 => "Internal"
  | 14 => "Unavailable"
  | 15 => "DataLoss"
  | 16 => "Unauthenticated"
  | n => "Code(" ++ toString n ++ ")"

def httpTable : List (ℤ × ℕ) :=
  [(200, 0), (400, 3), (401, 16), (403, 7), (404, 5), (409, 10), (412, 9), (422, 3), (429, 8), (500, 13), (501, 12),
    (502, 14), (503, 14), (504, 4)]

def grpcTable : List (ℕ × ℤ) :=
  [(0, 200), (1, 499), (2, 500), (3, 400), (4, 504), (5, 404), (6, 409), (7, 403), (8, 429), (9, 400), (10, 409),
    (11, 400), (12, 501), (13, 500), (14, 503), (15, 500), (16, 401)]

def httpToGRPC (httpCode : ℤ) : ℕ := (httpTable.lookup httpCode).getD unknown

def grpcToHTTP (c : ℕ) : ℤ := (grpcTable.lookup c).getD 500

/-! ## Status -/

structure Status where
  code : ℕ
  message : String
deriving DecidableEq, Repr

def Status.err (st : Status) : Option Err := if st.code = ok then none else some (.status st.code st.message)

def fromGRPCStatus (st : Status) : Errors.Error := Errors.new (grpcToHTTP st.code) (codeName st.code) st.message

def toGRPCStatus (e : Errors.Error) : Status := ⟨httpToGRPC e.code, e.message⟩

/-- the text of an error; a nil `*Error` has none -/
def errText : Err → String
  | .plain text => text
  | .status code message => "rpc error: code = " ++ codeName code ++ " desc = " ++ message
  | .app (some e) => e.text
  | .app none => ""
  | .wrap text _ => text
  | .join a b => errText a ++ "\n" ++ errText b

/-- `status.FromError`, when it finds a status: of an error that wraps one, with the text of the whole -/
def statusFromError : Err → Option Status
  | .status code message => some ⟨code, message⟩
  | .wrap text inner => (statusFromError inner).map fun st => ⟨st.code, text⟩
  | .join a b =>
    ((statusFromError a).or (statusFromError b)).map fun st => ⟨st.code, errText a ++ "\n" ++ errText b⟩
  | .plain _ => none
  | .app _ => none

/-! ## Interceptors -/

/-- what a server interceptor makes of an error; `nothing` is returned beside a status -/
def serverError (nothing resp : ρ) (err : Option Err) : ρ × Option Err :=
  match err with
  | none => (resp, none)
  | some err =>
    match fromError err with
    | some e => (nothing, (toGRPCStatus e).err)
    | none => (resp, some err)

def unaryServerInterceptor (handler : Option ρ × Option Err) : Option ρ × Option Err :=
  serverError none handler.1 handler.2

def streamServerInterceptor (handler : Option Err) : Option Err := (serverError () () handler).2

/-- the error at the client: the server sends a status, or Unknown and the text for an error without one -/
def transmit (err : Option Err) : Option Err :=
  err.bind fun err => ((statusFromError err).getD ⟨unknown, errText err⟩).err

def clientError (err : Option Err) : Option Err :=
  err.map fun err =>
    match statusFromError err with
    | some st => if st.code ≠ ok then .app (some (fromGRPCStatus st)) else err
    | none => err

def unaryClientInterceptor (invoker : Option Err) : Option Err := clientError invoker

/-- an error made of a status is returned without the stream -/
def streamClientInterceptor (streamer : Option ρ × Option Err) : Option ρ × Option Err :=
  match streamer with
  | (stream, none) => (stream, none)
  | (stream, some err) =>
    match statusFromError err with
    | some st => if st.code ≠ ok then (none, some (.app (some (fromGRPCStatus st)))) else (stream, some err)
    | none => (stream, some err)

/-! ## What survives -/

theorem mem_of_lookup_eq {α β : Type} [DecidableEq α] {table : List (α × β)} {a : α} {b : β}
    (h : table.lookup a = some b) : (a, b) ∈ table := by
  obtain ⟨l₁, l₂, rfl, -⟩ := List.lookup_eq_some_iff.1 h
  simp

theorem httpToGRPC_eq_ok_iff (code : ℤ) : httpToGRPC code = ok ↔ code = 200 := by
  constructor
  · intro h
    unfold httpToGRPC at h
    cases hl : httpTable.lookup code with
    | none => simp [hl, unknown, ok] at h
    | some c =>
      have hc : c = 0 := by simpa [hl, ok] using h
      have hmem := mem_of_lookup_eq hl
      simpa [httpTable, hc] using hmem
  · rintro rfl
    decide

theorem grpcToHTTP_eq_iff {code : ℤ} {c : ℕ} (h : httpTable.lookup code = some c) :
    grpcToHTTP c = code ↔ code ∉ [412, 422, 502] := by
  have hmem := mem_of_lookup_eq h
  simp only [httpTable, List.mem_cons, List.not_mem_nil, or_false] at hmem
  rcases hmem with ⟨rfl, rfl⟩ | ⟨rfl, rfl⟩ | ⟨rfl, rfl⟩ | ⟨rfl, rfl⟩ | ⟨rfl, rfl⟩ | ⟨rfl, rfl⟩ | ⟨rfl, rfl⟩ |
    ⟨rfl, rfl⟩ | ⟨rfl, rfl⟩ | ⟨rfl, rfl⟩ | ⟨rfl, rfl⟩ | ⟨rfl, rfl⟩ | ⟨rfl, rfl⟩ | ⟨rfl, rfl⟩ <;> decide

variable (nothing resp : ρ)

theorem serverError_ne_none_iff (err : Err) :
    (serverError nothing resp (some err)).2 ≠ none ↔ ∀ e, fromError err = some e → e.code ≠ 200 := by
  cases he : fromError err with
  | none => simp [serverError, he]
  | some e => simp [serverError, he, Status.err, toGRPCStatus, httpToGRPC_eq_ok_iff]

/-- an error whose code is in the table comes back with the code of the other table and the name of the status -/
theorem client_of_server {err : Err} {e : Errors.Error} (he : fromError err = some e) {c : ℕ}
    (hc : httpTable.lookup e.code = some c) (hok : c ≠ ok) :
    clientError (transmit (serverError nothing resp (some err)).2) =
      some (.app (some (Errors.new (grpcToHTTP c) (codeName c) e.message))) := by
  have hstatus : httpToGRPC e.code = c := by simp [httpToGRPC, hc]
  simp [serverError, he, Status.err, toGRPCStatus, hstatus, hok, transmit, statusFromError, clientError, fromGRPCStatus]

/-- the error at the client has the code, the reason and the message of the error at the server -/
def ComesBack (e : Errors.Error) (received : Option Err) : Prop :=
  ∃ e', received = some (.app (some e')) ∧ e'.code = e.code ∧ e'.reason = e.reason ∧ e'.message = e.message

theorem streamClient_error (stream : Option ρ) (err : Option Err) :
    (streamClientInterceptor (stream, err)).2 = clientError err := by
  cases err with
  | none => rfl
  | some err =>
    cases hst : statusFromError err with
    | none => simp [streamClientInterceptor, clientError, hst]
    | some st =>
      by_cases hok : st.code = ok
      · simp [streamClientInterceptor, clientError, hst, hok]
      · simp [streamClientInterceptor, clientError, hst, hok]

theorem comesBack_iff {err : Err} {e : Errors.Error} (he : fromError err = some e) {c : ℕ}
    (hc : httpTable.lookup e.code = some c) (hok : c ≠ ok) :
    ComesBack e (clientError (transmit (serverError nothing resp (some err)).2)) ↔
      e.code ∉ [412, 422, 502] ∧ e.reason = codeName c := by
  rw [client_of_server nothing resp he hc hok, ← grpcToHTTP_eq_iff hc]
  constructor
  · rintro ⟨e', h, hcode, hreason, -⟩
    cases h
    exact ⟨hcode, hreason.symm⟩
  · rintro ⟨hcode, hreason⟩
    exact ⟨_, rfl, hcode, hreason.symm, rfl⟩

/-- **Conversion of errors.** The server interceptor returns an error if and only if the handler's is not, and does not
wrap, an `*errors.Error` with code 200. And the error at the client has the code, reason and message of an
`*errors.Error` whose code is in the table if and only if the code is none of 412, 422 and 502 and the reason is the
name of the status. -/
theorem conversion_iff (err : Err) :
    (∀ resp : Option ρ, (unaryServerInterceptor (resp, some err)).2 ≠ none ↔
      ∀ e, fromError err = some e → e.code ≠ 200) ∧
    (streamServerInterceptor (some err) ≠ none ↔ ∀ e, fromError err = some e → e.code ≠ 200) ∧
    ∀ e c, fromError err = some e → httpTable.lookup e.code = some c → c ≠ ok →
      (∀ resp : Option ρ,
        ComesBack e (unaryClientInterceptor (transmit (unaryServerInterceptor (resp, some err)).2)) ↔
          e.code ∉ [412, 422, 502] ∧ e.reason = codeName c) ∧
      ∀ stream : Option ρ,
        ComesBack e (streamClientInterceptor (stream, transmit (streamServerInterceptor (some err)))).2 ↔
          e.code ∉ [412, 422, 502] ∧ e.reason = codeName c := by
  refine ⟨fun resp => serverError_ne_none_iff none resp err, serverError_ne_none_iff () () err, ?_⟩
  intro e c he hc hok
  refine ⟨fun resp => comesBack_iff none resp he hc hok, ?_⟩
  intro stream
  rw [streamClient_error]
  exact comesBack_iff () () he hc hok

def notFound : Err := .wrap "find user: NotFound: no such user" (.app (some (Errors.new 404 "NotFound" "no such user")))

theorem notFound_comesBack :
    fromError notFound = some (Errors.new 404 "NotFound" "no such user") ∧
      ComesBack (Errors.new 404 "NotFound" "no such user")
        (unaryClientInterceptor (transmit (unaryServerInterceptor ((none : Option Unit), some notFound)).2)) :=
  ⟨rfl, (((conversion_iff (ρ := Unit) notFound).2.2 _ 5 rfl rfl (by decide)).1 none).2 ⟨by decide, rfl⟩⟩

/-- **Lost in conversion.** An error with code 200 becomes a success of both interceptors; 422 comes back as 400; and
the reason of a 404 comes back as the name of the status. -/
theorem lost_conversions :
    unaryServerInterceptor ((some () : Option Unit), some (.app (some (Errors.new 200 "PARTIAL" "partial result")))) =
      (none, none) ∧
    streamServerInterceptor (some (.app (some (Errors.new 200 "PARTIAL" "partial result")))) = none ∧
    clientError (transmit (streamServerInterceptor (some (.app (some (Errors.new 422 "InvalidArgument" "no name")))))) =
      some (.app (some (Errors.new 400 "InvalidArgument" "no name"))) ∧
    clientError (transmit (streamServerInterceptor (some (.app (some (Errors.new 404 "USER_NOT_FOUND" "no user")))))) =
      some (.app (some (Errors.new 404 "NotFound" "no user"))) := by
  refine ⟨?_, ?_, ?_, ?_⟩ <;> decide

end LuluExt.Grpc
