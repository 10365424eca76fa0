import PbxAgent.Bytes

/-!
# Statistics

What has happened on the connections so far: flags, counters of 64 bits, and the latest events. Of
all events pushed the log holds the last fifty in order (`EventLog.pushAll_eq`).
-/

namespace PbxAgent

/-! ## Events -/

/-- What may happen to a connection. -/
inductive EventKind where
  | connected
  | disconnected
  | connectFailed
  | authenticated
  deriving DecidableEq, Repr

def EventKind.name : EventKind → String
  | connected => "connected"
  | disconnected => "disconnected"
  | connectFailed => "connect_failed"
  | authenticated => "authenticated"

/-- Something that happened to a connection. -/
structure Event where
  kind : EventKind
  detail : String := ""
  /-- Nanoseconds on the agent's clock. -/
  time : Nat := 0
  deriving DecidableEq, Repr

/-- The latest events, oldest first. -/
abbrev EventLog := List Event

namespace EventLog

/-- The most events that are kept. -/
def capacity : Nat := 50

/-- The last elements of a list, `n` at most. -/
def lastOf {α : Type} (n : Nat) (l : List α) : List α :=
  l.drop (l.length - n)

/-- Adds an event; the oldest gives way once the log is full. -/
def push (log : EventLog) (e : Event) : EventLog :=
  lastOf capacity (log ++ [e])

theorem lastOf_append_singleton {α : Type} {n : Nat} (l : List α) (x : α) (h : 0 < n) :
    lastOf n (lastOf n l ++ [x]) = lastOf n (l ++ [x]) := by
  unfold lastOf
  by_cases hl : l.length ≤ n
  · rw [show l.length - n = 0 by omega, List.drop_zero]
  · rw [← List.drop_append_of_le_length (by omega), List.drop_drop]
    congr 1
    simp
    omega

theorem pushAll_eq (es : List Event) : es.foldl push [] = lastOf capacity es := by
  suffices ∀ done : List Event,
      es.foldl push (lastOf capacity done) = lastOf capacity (done ++ es) by
    simpa [lastOf] using this []
  induction es with
  | nil => simp
  | cons e r ih =>
    intro done
    have := ih (done ++ [e])
    rw [List.foldl_cons, push, lastOf_append_singleton _ _ (by decide), this]
    simp

end EventLog

/-! ## Counters -/

/-- The state of the connection and what has passed over all of them. -/
structure Stats where
  connected : Bool := false
  authenticated : Bool := false
  /-- Attempts that have ended. -/
  reconnects : UInt64 := 0
  framesSent : UInt64 := 0
  framesReceived : UInt64 := 0
  framesDropped : UInt64 := 0
  /-- Sessions open on the connection. -/
  sessions : UInt64 := 0
  events : EventLog := []
  deriving DecidableEq

/-- The statistics with another event in the log. -/
def Stats.push (s : Stats) (e : Event) : Stats :=
  { s with events := s.events.push e }

end PbxAgent
