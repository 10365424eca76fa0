import PbxAgent.Proofs.Agent.Run
import PbxAgent.Stats

/-!
# Tallies

What has passed on connections, counted without bound, and the counters of 64 bits that are to show it
(`Stats.Entered`). Tallies of what has passed one after the other add up (`Entered.trans`), and counters
that began at zero show what they are within the range of (`Entered.agrees`).
-/

namespace PbxAgent

/-! ## What has passed -/

/-- What has passed on connections, counted without bound. -/
structure Tally where
  /-- Frames that failed. -/
  dropped : Nat := 0
  /-- Frames accepted without a reply. -/
  silent : Nat := 0
  /-- Replies handed over for sending. -/
  handed : Nat := 0
  /-- Replies sent. -/
  replies : Nat := 0
  /-- Identities sent. -/
  identities : Nat := 0
  /-- Attempts that have ended. -/
  ended : Nat := 0

namespace Tally

/-- What has passed in all. -/
def add (t u : Tally) : Tally where
  dropped := t.dropped + u.dropped
  silent := t.silent + u.silent
  handed := t.handed + u.handed
  replies := t.replies + u.replies
  identities := t.identities + u.identities
  ended := t.ended + u.ended

instance : Add Tally := ⟨add⟩

theorem add_eq (t u : Tally) : t + u = t.add u := rfl

/-- What has come of the frames in a log. -/
def ofLog (log : List (Site.Input × Site.Outcome)) : Tally where
  dropped := log.countP fun e => !e.2.isOk
  silent := log.countP fun e => e.2.toOption = some none
  handed := (Site.replies log).length

theorem ofLog_append (log log' : List (Site.Input × Site.Outcome)) :
    ofLog (log ++ log') = ofLog log + ofLog log' := by
  rw [add_eq]
  simp only [ofLog, add, Site.replies, List.countP_append, List.filterMap_append,
    List.length_append]

theorem ofLog_error (i : Site.Input) (e : AgentError) : ofLog [(i, .error e)] = { dropped := 1 } :=
  rfl

theorem ofLog_none (i : Site.Input) : ofLog [(i, .ok none)] = { silent := 1 } :=
  rfl

theorem ofLog_some (i : Site.Input) (r : Bytes) : ofLog [(i, .ok (some r))] = { handed := 1 } :=
  rfl

end Tally

/-! ## Counters -/

/-- Whether a tally stands between two states of the books. Counters go around at their size. -/
structure Stats.Entered (s s' : Stats) (t : Tally) : Prop where
  received : s'.framesReceived = s.framesReceived + .ofNat (t.dropped + t.silent + t.handed)
  dropped : s'.framesDropped = s.framesDropped + .ofNat t.dropped
  sent : s'.framesSent = s.framesSent + .ofNat (t.identities + t.replies)
  ended : s'.reconnects = s.reconnects + .ofNat t.ended

namespace Stats

variable {s s' s'' : Stats} {t t' : Tally}

theorem Entered.refl (s : Stats) : s.Entered s {} where
  received := (UInt64.add_zero _).symm
  dropped := (UInt64.add_zero _).symm
  sent := (UInt64.add_zero _).symm
  ended := (UInt64.add_zero _).symm

theorem add_ofNat_add (x : UInt64) (m n : Nat) : x + .ofNat m + .ofNat n = x + .ofNat (m + n) := by
  rw [UInt64.add_assoc, UInt64.ofNat_add]

theorem Entered.trans (h : s.Entered s' t) (h' : s'.Entered s'' t') : s.Entered s'' (t + t') := by
  rw [Tally.add_eq]
  constructor
  · rw [h'.received, h.received, add_ofNat_add]
    congr 2
    simp only [Tally.add]
    omega
  · rw [h'.dropped, h.dropped, add_ofNat_add]
    rfl
  · rw [h'.sent, h.sent, add_ofNat_add]
    congr 2
    simp only [Tally.add]
    omega
  · rw [h'.ended, h.ended, add_ofNat_add]
    rfl

/-- Whether the counters agree with a tally that is within their range. -/
structure Agrees (s : Stats) (t : Tally) : Prop where
  received : t.dropped + t.silent + t.handed < UInt64.size →
    s.framesReceived.toNat = s.framesDropped.toNat + t.silent + t.handed
  dropped : t.dropped < UInt64.size → s.framesDropped.toNat = t.dropped
  sent : t.identities + t.replies < UInt64.size → s.framesSent.toNat = t.identities + t.replies
  reconnects : t.ended < UInt64.size → s.reconnects.toNat = t.ended

/-- What was entered from zero is what the counters show. -/
theorem Entered.agrees {events : EventLog} (h : Entered { events := events } s t) :
    s.Agrees t := by
  have toNat {x : UInt64} {n : Nat} (hx : x = 0 + .ofNat n) (hn : n < UInt64.size) : x.toNat = n := by
    rw [hx, UInt64.zero_add, UInt64.toNat_ofNat', Nat.mod_eq_of_lt hn]
  refine ⟨?_, toNat h.dropped, toNat h.sent, toNat h.ended⟩
  intro range
  rw [toNat h.received range, toNat h.dropped (by omega)]

end Stats

end PbxAgent
