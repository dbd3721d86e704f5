/-
The crypto middleware of HTTP: what it passes to the server's writer.

The request body is decrypted before the handler sees it, or the request is refused. The handler's writes are kept back
and encrypted as one when it has returned; its headers and statuses are passed on at once. Two things go wrong. If the
cipher fails, the plaintext is written in place of the ciphertext. And a Content-Length of the handler is sent before
the length of the ciphertext is known.
-/
import LuluExt.Transport.Http.Writer

namespace LuluExt.Http

/-- `secCrypto.Cipher`; `none` is an error -/
structure Cipher where
  encrypt : Bytes → Option Bytes
  decrypt : Bytes → Option Bytes

/-- the body of a request: absent, one that cannot be read to its end, or its bytes -/
inductive Body where
  | absent
  | broken
  | bytes (b : Bytes)

structure CryptoRequest where
  path : String
  body : Body
  contentLength : ℤ

structure CryptoOptions where
  skipFunc : Option (CryptoRequest → Bool)
  encryptResponse : Bool
  decryptRequest : Bool

def defaultCryptoOptions : CryptoOptions := ⟨none, true, true⟩

/-- the request for the handler, or the message of a refusal -/
def decryptRequest (cfg : CryptoOptions) (cipher : Cipher) (r : CryptoRequest) : Except String CryptoRequest :=
  if cfg.decryptRequest then
    match r.body with
    | .absent => .ok r
    | .broken => .error "failed to read request body"
    | .bytes [] => .ok r
    | .bytes ciphertext =>
      match cipher.decrypt ciphertext with
      | some plaintext => .ok { r with body := .bytes plaintext, contentLength := plaintext.length }
      | none => .error "failed to decrypt request body"
  else .ok r

def forwarded : List Call → List Call
  | [] => []
  | .header f :: cs => .header f :: forwarded cs
  | .writeHeader code :: cs => .writeHeader code :: forwarded cs
  | .write _ :: cs => forwarded cs

def buffered (cs : List Call) : Bytes := (writes cs).flatten

def flush (cipher : Cipher) (buf : Bytes) : List Call :=
  if buf = [] then []
  else match cipher.encrypt buf with
    | some encrypted => [.write encrypted]
    | none => [.write buf]

def skipsCrypto (cfg : CryptoOptions) (r : CryptoRequest) : Bool := cfg.skipFunc.any fun skipFunc => skipFunc r

/-- `Middleware`, as the calls on the server's writer that it makes for a handler -/
def cryptoMiddleware (cfg : CryptoOptions) (cipher : Cipher) (next : CryptoRequest → List Call) (r : CryptoRequest) :
    List Call :=
  if skipsCrypto cfg r then next r
  else match decryptRequest cfg cipher r with
    | .error message => httpError (Go.utf8 message) 400
    | .ok r =>
      if cfg.encryptResponse then forwarded (next r) ++ flush cipher (buffered (next r)) else next r

/-! ## What reaches the writer -/

/-- the bytes that are passed to the writer; a status that panics comes before the first of them, or not at all -/
def passed (cs : List Call) : Bytes := if (statusOf cs).isSome then (writes cs).flatten else []

/-- the bytes of the body that the client is sent, if its request is not HEAD, are as many as the headers declare -/
def LengthAgrees (h : Header) (cs : List Call) : Prop :=
  ∀ code n, statusOf cs = some code → bodyAllowed code = true → declared (headerAt h cs) = some n →
    (bodyOf false code (some n) 0 (writes cs)).length = n

/-- A refusal is the same for every handler; otherwise nothing is passed on, or the ciphertext of all that it wrote. -/
def Confidential (cfg : CryptoOptions) (cipher : Cipher) (next : CryptoRequest → List Call) (r : CryptoRequest) :
    Prop :=
  match decryptRequest cfg cipher r with
  | .error message => cryptoMiddleware cfg cipher next r = httpError (Go.utf8 message) 400
  | .ok r' =>
    passed (cryptoMiddleware cfg cipher next r) = [] ∨
      cipher.encrypt (buffered (next r')) = some (passed (cryptoMiddleware cfg cipher next r))

/-- the cipher works on what the handler writes, if it comes to that -/
def Sealable (cipher : Cipher) (cs : List Call) : Prop :=
  statusOf (forwarded cs) = none ∨ buffered cs = [] ∨ (cipher.encrypt (buffered cs)).isSome

/-- A length that the handler declares is zero, or it has written something and the length is that of the ciphertext; of
the plaintext, if the cipher fails. -/
def Measured (cipher : Cipher) (h : Header) (cs : List Call) : Prop :=
  ∀ code n, statusOf (forwarded cs) = some code → bodyAllowed code = true →
    declared (headerAt h (forwarded cs)) = some n →
      n = 0 ∨ buffered cs ≠ [] ∧ n = ((cipher.encrypt (buffered cs)).getD (buffered cs)).length

theorem writes_append (cs ds : List Call) : writes (cs ++ ds) = writes cs ++ writes ds := by
  induction cs with
  | nil => rfl
  | cons c cs ih => cases c <;> simp [writes, ih]

theorem writes_forwarded (cs : List Call) : writes (forwarded cs) = [] := by
  induction cs with
  | nil => rfl
  | cons c cs ih => cases c <;> simp [forwarded, writes, ih]

theorem statusOf_flush (cs : List Call) (cipher : Cipher) (buf : Bytes) :
    statusOf (forwarded cs ++ flush cipher buf) = statusOf (forwarded cs) := by
  induction cs with
  | nil =>
    unfold flush
    split
    · rfl
    · split <;> rfl
  | cons c cs ih => cases c <;> simp [forwarded, statusOf, ih]

theorem headerAt_flush (h : Header) (cs : List Call) (cipher : Cipher) (buf : Bytes) :
    headerAt h (forwarded cs ++ flush cipher buf) = headerAt h (forwarded cs) := by
  induction cs generalizing h with
  | nil =>
    unfold flush
    split
    · rfl
    · split <;> rfl
  | cons c cs ih => cases c <;> simp [forwarded, headerAt, ih]

theorem writes_flush (cs : List Call) (cipher : Cipher) (buf : Bytes) :
    writes (forwarded cs ++ flush cipher buf) = writes (flush cipher buf) := by
  rw [writes_append, writes_forwarded, List.nil_append]

theorem sealed_iff (cipher : Cipher) (cs : List Call) :
    (passed (forwarded cs ++ flush cipher (buffered cs)) = [] ∨
      cipher.encrypt (buffered cs) = some (passed (forwarded cs ++ flush cipher (buffered cs)))) ↔
        Sealable cipher cs := by
  simp only [passed, statusOf_flush, writes_flush, Sealable]
  cases hstatus : statusOf (forwarded cs) with
  | none => simp
  | some code =>
    by_cases hbuf : buffered cs = []
    · simp [hbuf, flush, writes]
    · cases hcipher : cipher.encrypt (buffered cs) with
      | some encrypted | none => simp [flush, hbuf, hcipher, writes]

theorem length_bodyOf_flush {code : ℤ} (hcode : bodyAllowed code) (n : ℕ) (cipher : Cipher) (buf : Bytes) :
    (bodyOf false code (some n) 0 (writes (flush cipher buf))).length = n ↔
      n = 0 ∨ buf ≠ [] ∧ n = ((cipher.encrypt buf).getD buf).length := by
  have hone : ∀ q : Bytes, (accepted (some n) 0 [q]).length = n ↔ n = 0 ∨ n = q.length := by
    intro q
    rw [accepted_singleton]
    split
    case isTrue hexceeds =>
      have hlt : n < q.length := by simpa [exceeds] using hexceeds
      rw [List.length_nil]
      omega
    case isFalse hexceeds =>
      have hle : q.length ≤ n := by simpa [exceeds] using hexceeds
      omega
  simp only [bodyOf, hcode, Bool.not_true, Bool.or_self, Bool.false_eq_true, if_false]
  by_cases hbuf : buf = []
  · simp [flush, hbuf, writes, accepted, eq_comm]
  · cases hcipher : cipher.encrypt buf with
    | some encrypted | none => simpa [flush, hbuf, hcipher, writes] using hone _

theorem lengthAgrees_iff (cipher : Cipher) (h : Header) (cs : List Call) :
    LengthAgrees h (forwarded cs ++ flush cipher (buffered cs)) ↔ Measured cipher h cs := by
  simp only [LengthAgrees, statusOf_flush, headerAt_flush, writes_flush]
  constructor
  · intro hagrees code n hstatus hcode hn
    exact (length_bodyOf_flush hcode n cipher _).1 (hagrees code n hstatus hcode hn)
  · intro hmeasured code n hstatus hcode hn
    exact (length_bodyOf_flush hcode n cipher _).2 (hmeasured code n hstatus hcode hn)

theorem lengthAgrees_httpError (h : Header) (message : Bytes) : LengthAgrees h (httpError message 400) := by
  intro code n _ _ hn
  simp [httpError, headerAt, declared, Header.set, Header.del, contentLength] at hn

/-- **Confidentiality**, for a request that is not skipped: only the ciphertext is passed on if and only if the request
is refused, or nothing is written, or the cipher works; and a declared length agrees with what is sent if and only if it
is that of the ciphertext and not of what the handler writes. -/
theorem confidential_iff (cfg : CryptoOptions) (cipher : Cipher) (next : CryptoRequest → List Call) (r : CryptoRequest)
    (h : Header) (hskip : skipsCrypto cfg r = false) (hencrypt : cfg.encryptResponse = true) :
    (Confidential cfg cipher next r ↔
      ∀ r', decryptRequest cfg cipher r = .ok r' → Sealable cipher (next r')) ∧
    (LengthAgrees h (cryptoMiddleware cfg cipher next r) ↔
      ∀ r', decryptRequest cfg cipher r = .ok r' → Measured cipher h (next r')) := by
  unfold Confidential cryptoMiddleware
  simp only [hskip, hencrypt, Bool.false_eq_true, if_false, if_true]
  cases hrequest : decryptRequest cfg cipher r with
  | error message => simp [lengthAgrees_httpError]
  | ok r' =>
    simp only [Except.ok.injEq, forall_eq', sealed_iff, lengthAgrees_iff, and_self]

def taggingCipher : Cipher := ⟨fun b => some (0 :: b), fun b => b.tail?⟩

def failingCipher : Cipher := ⟨fun _ => none, fun _ => none⟩

def emptyRequest : CryptoRequest := ⟨"/", .absent, 0⟩

theorem tagged_confidential :
    skipsCrypto defaultCryptoOptions emptyRequest = false ∧ defaultCryptoOptions.encryptResponse = true ∧
      Confidential defaultCryptoOptions taggingCipher (fun _ => [.writeHeader 200, .write [104], .write [105]])
        emptyRequest :=
  ⟨rfl, rfl, (confidential_iff defaultCryptoOptions taggingCipher _ emptyRequest .empty rfl rfl).1.2
    fun _ _ => Or.inr (Or.inr rfl)⟩

/-- the body and the declared length that the client gets of a handler -/
def encryptedWith (cipher : Cipher) (cs : List Call) : Option (Bytes × Option ℕ) :=
  (respond false .empty (cryptoMiddleware defaultCryptoOptions cipher (fun _ => cs) emptyRequest)).map
    fun r => (r.body, declared r.header)

/-- **Leaked plaintext.** If the cipher fails, the client is sent what the handler wrote. And when the handler declares
the two bytes that it writes, the ciphertext of three is refused, and none of the two is sent. -/
theorem leaked_plaintext :
    encryptedWith failingCipher [.write (Go.utf8 "secret")] = some (Go.utf8 "secret", none) ∧
    encryptedWith taggingCipher [.header (Header.set contentLength "2"), .writeHeader 200, .write [104, 105]] =
      some ([], some 2) := by
  decide

end LuluExt.Http
