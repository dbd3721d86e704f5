/-
The end of a WebRTC session: what it leaves in the session manager and in the media router.

A session enters the manager when its data channel opens, its tracks enter the router when they arrive, and the router
is cleared by the observer of a removal from the manager. So a session that was never in the manager leaves its tracks
in the router; and neither the channel nor a track asks whether the session is closed already.
-/
import LuluExt.Transport.Webrtc.Sfu

namespace LuluExt.Webrtc

open Run

variable {S T : Type}

/-- how far `Close` has come: `closeOnce` has begun, the manager has let go of the session, `Close` has returned -/
inductive Closing where
  | no
  | begun
  | removed
  | completed
deriving DecidableEq, Repr

inductive PeerConnectionState where
  | new
  | connecting
  | connected
  | disconnected
  | failed
  | closed
deriving DecidableEq, Repr

def PeerConnectionState.ends : PeerConnectionState → Bool
  | .closed => true
  | .failed => true
  | .disconnected => true
  | _ => false

/-- the router, the keys of the manager's map, and of each session whether `openOnce` is used and how far `Close` is -/
structure Lifecycle (S T : Type) where
  router : Router S T
  managed : S → Bool
  opened : S → Bool
  closing : S → Closing

def newLifecycle [Inhabited S] [Inhabited T] : Lifecycle S T :=
  ⟨newSFURouter, fun _ => false, fun _ => false, fun _ => .no⟩

/-- the callbacks of a session, and the steps of its `Close` -/
inductive Callback (S T : Type) where
  | onTrack (s : S) (trackID : T)
  | onOpen (s : S)
  | onConnectionStateChange (s : S) (state : PeerConnectionState)
  /-- a call of `Close`: by the end of the channel, by its error, by `writePump` or by `signalHandler` -/
  | close (s : S)
  /-- `removeSession` of the manager -/
  | loadAndDelete (s : S)
  | onSessionRemoved (s : S)

@[simp] def Callback.session : Callback S T → S
  | .onTrack s _ => s
  | .onOpen s => s
  | .onConnectionStateChange s _ => s
  | .close s => s
  | .loadAndDelete s => s
  | .onSessionRemoved s => s

section Step

variable [DecidableEq S] [DecidableEq T]

namespace Lifecycle

variable (l : Lifecycle S T)

def close (s : S) : Lifecycle S T :=
  if l.closing s = .no then { l with closing := Function.update l.closing s .begun } else l

def addSession (s : S) : Lifecycle S T :=
  if l.opened s then l
  else { l with opened := Function.update l.opened s true, managed := Function.update l.managed s true }

/-- the observer is called only if the session was in the map -/
def loadAndDelete (s : S) : Lifecycle S T :=
  if l.closing s = .begun then
    if l.managed s then
      { l with managed := Function.update l.managed s false, closing := Function.update l.closing s .removed }
    else { l with closing := Function.update l.closing s .completed }
  else l

def onSessionRemoved (s : S) : Lifecycle S T :=
  if l.closing s = .removed then
    { l with router := l.router.removeSessionTracks s, closing := Function.update l.closing s .completed }
  else l

def callback : Callback S T → Lifecycle S T
  | .onTrack s trackID => { l with router := l.router.addTrack s trackID }
  | .onOpen s => l.addSession s
  | .onConnectionStateChange s state => if state.ends then l.close s else l
  | .close s => l.close s
  | .loadAndDelete s => l.loadAndDelete s
  | .onSessionRemoved s => l.onSessionRemoved s

end Lifecycle

end Step

/-- closed sessions are neither in the manager nor in the router -/
def Cleaned (l : Lifecycle S T) : Prop :=
  ∀ s, l.closing s = .completed → l.managed s = false ∧ l.router.tracks s = []

/-- the callbacks come before the end of `Close`, and `Close` finds what it has to clean -/
def Timely (l : Lifecycle S T) : Callback S T → Prop
  | .onTrack s _ => l.closing s ≠ .completed
  | .onOpen s => l.closing s = .completed → l.opened s = true
  | .loadAndDelete s => l.closing s = .begun → l.managed s = false → l.router.tracks s = []
  | _ => True

/-! ## One session -/

structure View (T : Type) where
  closing : Closing
  managed : Bool
  opened : Bool
  tracks : List (T × ℕ)

@[simp] def Lifecycle.view (l : Lifecycle S T) (s : S) : View T :=
  ⟨l.closing s, l.managed s, l.opened s, l.router.tracks s⟩

structure View.Sound (v : View T) : Prop where
  cleaned : v.closing = .completed → v.managed = false ∧ v.tracks = []
  opened : v.managed = true → v.opened = true
  /-- the channel cannot bring the session back into the manager -/
  removed : v.closing = .removed → v.opened = true ∧ v.managed = false

section Sound

variable [DecidableEq S] {l : Lifecycle S T}

theorem sound_close {s : S} (h : (l.view s).Sound) : ((l.close s).view s).Sound := by
  unfold Lifecycle.close
  split
  · exact ⟨by simp, h.opened, by simp⟩
  · exact h

variable [DecidableEq T]

theorem view_of_ne {op : Callback S T} {s : S} (h : s ≠ op.session) : (l.callback op).view s = l.view s := by
  cases op with
  | onTrack s' trackID => simp_all [Lifecycle.callback, Router.addTrack]
  | onOpen s' =>
    simp only [Lifecycle.callback, Lifecycle.addSession]
    split <;> simp_all
  | onConnectionStateChange s' state =>
    simp only [Lifecycle.callback, Lifecycle.close]
    split_ifs <;> simp_all
  | close s' =>
    simp only [Lifecycle.callback, Lifecycle.close]
    split <;> simp_all
  | loadAndDelete s' =>
    simp only [Lifecycle.callback, Lifecycle.loadAndDelete]
    split_ifs <;> simp_all
  | onSessionRemoved s' =>
    simp only [Lifecycle.callback, Lifecycle.onSessionRemoved]
    split <;> simp_all [Router.removeSessionTracks]

theorem sound_callback {op : Callback S T} (h : (l.view op.session).Sound) (htimely : Timely l op) :
    ((l.callback op).view op.session).Sound := by
  cases op with
  | onTrack s trackID =>
    refine ⟨?_, h.opened, h.removed⟩
    intro hcompleted
    exact absurd hcompleted htimely
  | onOpen s =>
    simp only [Lifecycle.callback, Lifecycle.addSession]
    split
    case isTrue => exact h
    case isFalse hopened =>
      refine ⟨?_, by simp, ?_⟩
      · intro hcompleted
        exact absurd (htimely hcompleted) hopened
      · intro hremoved
        exact absurd (h.removed hremoved).1 hopened
  | onConnectionStateChange s state =>
    simp only [Lifecycle.callback]
    split
    · exact sound_close h
    · exact h
  | close s => exact sound_close h
  | loadAndDelete s =>
    simp only [Lifecycle.callback, Lifecycle.loadAndDelete]
    split_ifs with hbegun hmanaged
    · refine ⟨by simp, by simp, ?_⟩
      intro _
      exact ⟨h.opened hmanaged, by simp⟩
    · have hnot : l.managed s = false := by simpa using hmanaged
      refine ⟨?_, h.opened, by simp⟩
      intro _
      exact ⟨hnot, htimely hbegun hnot⟩
    · exact h
  | onSessionRemoved s =>
    simp only [Lifecycle.callback, Lifecycle.onSessionRemoved]
    split
    case isTrue hremoved =>
      refine ⟨?_, h.opened, by simp⟩
      intro _
      exact ⟨(h.removed hremoved).2, by simp [Router.removeSessionTracks]⟩
    case isFalse => exact h

theorem not_cleaned_of_not_timely {op : Callback S T} (htimely : ¬ Timely l op) : ¬ Cleaned (l.callback op) := by
  intro hcleaned
  cases op with
  | onTrack s trackID =>
    have hcompleted : l.closing s = .completed := by simpa [Timely] using htimely
    have hempty := (hcleaned s hcompleted).2
    simp [Lifecycle.callback, Router.addTrack] at hempty
  | onOpen s =>
    simp only [Timely, Classical.not_imp] at htimely
    obtain ⟨hcompleted, hopened⟩ := htimely
    have hmanaged := (hcleaned s (by simpa [Lifecycle.callback, Lifecycle.addSession, hopened] using hcompleted)).1
    simp [Lifecycle.callback, Lifecycle.addSession, hopened] at hmanaged
  | loadAndDelete s =>
    simp only [Timely, Classical.not_imp] at htimely
    obtain ⟨hbegun, hmanaged, htracks⟩ := htimely
    have hempty := (hcleaned s (by simp [Lifecycle.callback, Lifecycle.loadAndDelete, hbegun, hmanaged])).2
    simp [Lifecycle.callback, Lifecycle.loadAndDelete, hbegun, hmanaged, htracks] at hempty
  | onConnectionStateChange s state | close s | onSessionRemoved s => exact htimely trivial

end Sound

/-- **Cleanup.** A session whose `Close` has completed is neither in the manager nor in the router, in every state of
the run, if and only if every step is timely. -/
theorem cleaned_iff [DecidableEq S] [DecidableEq T] [Inhabited S] [Inhabited T] (ops : List (Callback S T)) :
    Always Lifecycle.callback Cleaned (newLifecycle : Lifecycle S T) ops ↔
      Along Lifecycle.callback Timely (newLifecycle : Lifecycle S T) ops := by
  apply always_iff_along_of_inv (I := fun l => ∀ s, (l.view s).Sound)
  · intro l hsound s hcompleted
    exact (hsound s).cleaned hcompleted
  · intro l op hsound htimely s
    by_cases hs : s = op.session
    · rw [hs]
      exact sound_callback (hsound op.session) htimely
    · rw [view_of_ne hs]
      exact hsound s
  · intro l op _ htimely
    exact not_cleaned_of_not_timely htimely
  · intro s
    exact ⟨by simp [newLifecycle], by simp [newLifecycle, newSFURouter], by simp [newLifecycle, newSFURouter]⟩

/-- what is left of session 0 after a run: whether its `Close` has completed, whether it is in the manager, and the IDs
of its tracks in the router -/
def leftOf (ops : List (Callback ℕ ℕ)) : Bool × Bool × List ℕ :=
  let l := run Lifecycle.callback (newLifecycle : Lifecycle ℕ ℕ) ops
  (l.closing 0 = .completed, l.managed 0, (l.router.tracks 0).map Prod.fst)

/-- **Left behind.** A track of a session whose channel never opened; a session whose channel opened after `Close` had
looked for it; and a track that came after the router was cleared. -/
theorem left_behind :
    leftOf [.onTrack 0 7, .onConnectionStateChange 0 .failed, .loadAndDelete 0] = (true, false, [7]) ∧
    leftOf [.close 0, .loadAndDelete 0, .onOpen 0] = (true, true, []) ∧
    leftOf [.onOpen 0, .close 0, .loadAndDelete 0, .onSessionRemoved 0, .onTrack 0 7] = (true, false, [7]) := by
  decide

/-- the order that the cleanup is made for -/
example : leftOf [.onTrack 0 7, .onOpen 0, .close 0, .loadAndDelete 0, .onSessionRemoved 0] = (true, false, []) := by
  decide

end LuluExt.Webrtc
