/-
The response side of an HTTP handler: what it writes, what the server sends, and what a status recorder sees.

The server's writer sends the first final status: informational ones (1xx, 101 apart) may come before it, a body without
a status sends 200, later statuses are ignored, and an invalid status panics while no status is sent yet. A
`statusRecorder` takes down every status it is given before it passes it on.
-/
import LuluExt.Lib.Go

namespace LuluExt.Http

/-- one call of a handler on its writer; the handler may recover from the panic of an invalid status -/
inductive Write where
  | header (code : ℤ) (recovers : Bool)
  | body
deriving DecidableEq, Repr

/-- what a handler does: its writes, and whether it panics after them -/
structure Behaviour where
  writes : List Write
  panics : Bool
deriving DecidableEq, Repr

/-- the statuses from 100 to 199 that may precede the status of the response -/
def Informational (code : ℤ) : Prop := 100 ≤ code ∧ code ≤ 199 ∧ code ≠ 101

def Invalid (code : ℤ) : Prop := code < 100 ∨ code > 999

instance (code : ℤ) : Decidable (Informational code) := by unfold Informational; infer_instance

instance (code : ℤ) : Decidable (Invalid code) := by unfold Invalid; infer_instance

/-- `WriteHeader` of the server's writer on the status sent so far; `none` is a panic -/
def writeHeader (sent : Option ℤ) (code : ℤ) : Option (Option ℤ) :=
  if sent.isSome then some sent
  else if Invalid code then none
  else if Informational code then some none
  else some (some code)

def write (sent : Option ℤ) : Option ℤ := sent.or (some 200)

/-- the recorder's status and the status its writer has sent -/
structure StatusRecorder where
  status : ℤ
  sent : Option ℤ
deriving DecidableEq, Repr

/-- the handler's writes on a recorder; `none` when it panics -/
def play (panics : Bool) : StatusRecorder → List Write → Option StatusRecorder
  | w, [] => if panics then none else some w
  | w, .header code recovers :: ws =>
    match writeHeader w.sent code with
    | some sent => play panics ⟨code, sent⟩ ws
    | none => if recovers then play panics ⟨code, w.sent⟩ ws else none
  | w, .body :: ws => play panics { w with sent := write w.sent } ws

/-- `next.ServeHTTP(&statusRecorder{ResponseWriter: w, status: http.StatusOK}, r)` -/
def Behaviour.serve (h : Behaviour) : Option StatusRecorder := play h.panics ⟨200, none⟩ h.writes

/-- the server sends 200 for a handler that has written nothing -/
def StatusRecorder.final (w : StatusRecorder) : ℤ := w.sent.getD 200

/-! ## First and last status -/

def lastStatus (ws : List Write) : ℤ :=
  ws.foldl (fun last w => match w with | .header code _ => code | .body => last) 200

/-- the first final status written before any body, 200 without one -/
def firstStatus : List Write → ℤ
  | [] => 200
  | .header code _ :: ws => if Invalid code ∨ Informational code then firstStatus ws else code
  | .body :: _ => 200

variable {w : StatusRecorder}

theorem play_sent {panics : Bool} {code : ℤ} {ws : List Write} {w' : StatusRecorder} (hs : w.sent = some code)
    (h : play panics w ws = some w') : w'.sent = some code := by
  induction ws generalizing w with
  | nil =>
    simp only [play] at h
    split_ifs at h
    cases h
    exact hs
  | cons a ws ih =>
    cases a with
    | header c recovers =>
      have hplay : play panics ⟨c, some code⟩ ws = some w' := by simpa [play, writeHeader, hs] using h
      exact ih rfl hplay
    | body => exact ih (w := { w with sent := write w.sent }) (by simp [write, hs]) h

theorem play_first {panics : Bool} {ws : List Write} {w' : StatusRecorder} (hs : w.sent = none)
    (h : play panics w ws = some w') : w'.final = firstStatus ws := by
  induction ws generalizing w with
  | nil =>
    simp only [play] at h
    split_ifs at h
    cases h
    simp [StatusRecorder.final, firstStatus, hs]
  | cons a ws ih =>
    cases a with
    | header c recovers =>
      simp only [play, writeHeader, hs, Option.isSome_none, Bool.false_eq_true, if_false] at h
      by_cases hinv : Invalid c
      · split_ifs at h
        rw [firstStatus, if_pos (.inl hinv)]
        exact ih rfl h
      by_cases hinf : Informational c
      · simp only [hinv, hinf] at h
        rw [firstStatus, if_pos (.inr hinf)]
        exact ih rfl h
      · simp only [hinv, hinf] at h
        rw [firstStatus, if_neg (by simp [hinv, hinf]), StatusRecorder.final, play_sent rfl h]
        rfl
    | body =>
      have hsent : w'.sent = some 200 := play_sent (w := { w with sent := write w.sent }) (by simp [write, hs]) h
      simp [firstStatus, StatusRecorder.final, hsent]

theorem play_last {panics : Bool} {ws : List Write} {w' : StatusRecorder} (h : play panics w ws = some w') :
    w'.status = ws.foldl (fun last w => match w with | .header code _ => code | .body => last) w.status := by
  induction ws generalizing w with
  | nil =>
    simp only [play] at h
    split_ifs at h
    cases h
    rfl
  | cons a ws ih =>
    cases a with
    | header c recovers =>
      simp only [play] at h
      split at h
      · exact ih h
      · split_ifs at h
        exact ih h
    | body => exact ih (w := { w with sent := write w.sent }) h

/-- **First sent, last recorded.** -/
theorem serve_spec {h : Behaviour} (hw : h.serve = some w) :
    w.status = lastStatus h.writes ∧ w.final = firstStatus h.writes :=
  ⟨play_last hw, play_first rfl hw⟩

end LuluExt.Http
