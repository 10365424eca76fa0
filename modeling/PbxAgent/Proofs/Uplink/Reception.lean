import PbxAgent.Proofs.Agent.Errors
import PbxAgent.Uplink

/-!
# What comes in on a connection

All that an arrival can do to the uplink, case by case (`Reception`). The agent takes its steps as on
any site; the uplink keeps the books and sends what it says. Later arguments go by these cases and leave
`receive` closed.
-/

namespace PbxAgent

/-- How a connection ends with an arrival that ends it, whatever has been said before. -/
def Arrival.ending? (a : Arrival) : Option Ending :=
  match a.message with
  | .error e => some (.failed (.transport e))
  | .ok .close => some .closed
  | .ok _ => none

/-- The frame in an arrival. -/
def Arrival.data? (a : Arrival) : Option Bytes :=
  match a.message with
  | .ok (.binary data) => some data
  | _ => none

namespace Uplink

/-! ## The site of an uplink -/

/-- The agent with its host. -/
def site (u : Uplink) : Site :=
  ⟨u.agent, u.host⟩

def countReceived (u : Uplink) : Uplink :=
  { u with stats := { u.stats with framesReceived := u.stats.framesReceived + 1 } }

def countSent (u : Uplink) : Uplink :=
  { u with stats := { u.stats with framesSent := u.stats.framesSent + 1 } }

def countDropped (u : Uplink) : Uplink :=
  { u with stats := { u.stats with framesDropped := u.stats.framesDropped + 1 } }

/-- What the agent is handed with a frame. The frame has been counted when the handler is asked. -/
def input (handler : Stats → Handler) (u : Uplink) (data : Bytes) : Site.Input :=
  .frame (handler u.countReceived.stats) data

/-- What comes of a frame. -/
def outcome (handler : Stats → Handler) (u : Uplink) (data : Bytes) : Site.Outcome :=
  (u.site.step (u.input handler data)).1

/-- The uplink when the agent has dealt with a frame, and nothing has been sent. -/
def dealt (handler : Stats → Handler) (u : Uplink) (data : Bytes) : Uplink :=
  let s := (u.site.step (u.input handler data)).2
  { u.countReceived with agent := s.agent, host := s.host }

variable {handler : Stats → Handler} {u v w : Uplink} {a : Arrival} {data : Bytes}

@[simp] theorem site_countSent (u : Uplink) : u.countSent.site = u.site := rfl

@[simp] theorem site_countDropped (u : Uplink) : u.countDropped.site = u.site := rfl

@[simp] theorem site_dealt (handler : Stats → Handler) (u : Uplink) (data : Bytes) :
    (u.dealt handler data).site = (u.site.step (u.input handler data)).2 := rfl

@[simp] theorem site_settle (u : Uplink) : u.settle.site = u.site := by
  unfold settle
  split
  · rfl
  · rfl

/-! ## Cases -/

/-- What may come of an arrival: the reply that is sent, if any, or how the connection ends. -/
inductive Reception (handler : Stats → Handler) (u : Uplink) (a : Arrival) :
    Except Ending (Option Bytes) → Uplink → Prop where
  | ended {ending : Ending} (ends : a.ending? = some ending) (noData : a.data? = none) :
      Reception handler u a (.error ending) u
  /-- Nothing is made of messages that are not binary. -/
  | passed (ends : a.ending? = none) (noData : a.data? = none) : Reception handler u a (.ok none) u
  | replied {data r : Bytes} (ends : a.ending? = none) (frame : a.data? = some data)
      (outcome : u.outcome handler data = .ok (some r)) (sends : a.sendError = none) :
      Reception handler u a (.ok (some r)) (u.dealt handler data).countSent.settle
  /-- The reply is lost, and the connection with it. -/
  | unsent {data r : Bytes} {e : TransportError} (ends : a.ending? = none)
      (frame : a.data? = some data) (outcome : u.outcome handler data = .ok (some r))
      (fails : a.sendError = some e) :
      Reception handler u a (.error (.failed (.transport e))) (u.dealt handler data)
  | accepted {data : Bytes} (ends : a.ending? = none) (frame : a.data? = some data)
      (outcome : u.outcome handler data = .ok none) :
      Reception handler u a (.ok none) (u.dealt handler data).settle
  | dropped {data : Bytes} {e : AgentError} (ends : a.ending? = none) (frame : a.data? = some data)
      (outcome : u.outcome handler data = .error e) :
      Reception handler u a (.ok none) (u.dealt handler data).countDropped.settle

/-- A binary message does what comes of its frame. -/
theorem receiveFrame_eq (handler : Stats → Handler) (u : Uplink) (data : Bytes)
    (sendError : Option TransportError) :
    u.receiveFrame handler data sendError
      = match u.outcome handler data, sendError with
        | .ok (some _), some e => (.error (.transport e), u.dealt handler data)
        | .ok (some r), none => (.ok (some r), (u.dealt handler data).countSent.settle)
        | .ok none, _ => (.ok none, (u.dealt handler data).settle)
        | .error _, _ => (.ok none, (u.dealt handler data).countDropped.settle) := by
  have hlocal := u.site.local_step (u.input handler data)
  rcases h : u.agent.handleFrame (handler u.countReceived.stats) u.host data with ⟨r, agent, host⟩
  have hstep : u.site.step (u.input handler data) = (r, ⟨agent, host⟩) := by
    simp only [input, site, Site.step, h]
  rw [hstep] at hlocal
  simp only [countReceived] at h
  unfold receiveFrame outcome dealt
  dsimp only
  rw [hstep, h]
  cases r with
  | error e => simp only [hlocal e rfl, Bool.false_eq_true, if_false]; rfl
  | ok reply =>
    cases reply with
    | none => rfl
    | some r => cases sendError <;> rfl

/-- An arrival does one of the things that are listed. -/
theorem receive_reception (handler : Stats → Handler) (u : Uplink) (a : Arrival) :
    Reception handler u a (u.receive handler a).1 (u.receive handler a).2 := by
  unfold receive
  cases hm : a.message with
  | error e => exact .ended (by rw [Arrival.ending?, hm]) (by rw [Arrival.data?, hm])
  | ok message =>
    cases message with
    | close => exact .ended (by rw [Arrival.ending?, hm]) (by rw [Arrival.data?, hm])
    | text | ping | pong =>
      exact .passed (by rw [Arrival.ending?, hm]) (by rw [Arrival.data?, hm])
    | binary data =>
      have ends : a.ending? = none := by rw [Arrival.ending?, hm]
      have frame : a.data? = some data := by rw [Arrival.data?, hm]
      dsimp only
      rw [receiveFrame_eq]
      cases houtcome : u.outcome handler data with
      | error e => exact .dropped ends frame houtcome
      | ok reply =>
        cases reply with
        | none => exact .accepted ends frame houtcome
        | some r =>
          cases hsend : a.sendError with
          | none => exact .replied ends frame houtcome hsend
          | some e => exact .unsent ends frame houtcome hsend

/-! ## What an arrival comes to -/

/-- What the agent is handed of an arrival. -/
def inputs (handler : Stats → Handler) (u : Uplink) (a : Arrival) : List Site.Input :=
  (a.data?.map (u.input handler)).toList

theorem inputs_of_noData (noData : a.data? = none) : u.inputs handler a = [] := by
  rw [inputs, noData]
  rfl

theorem inputs_of_frame (frame : a.data? = some data) :
    u.inputs handler a = [u.input handler data] := by
  rw [inputs, frame]
  rfl

namespace Reception

variable {r r' : Except Ending (Option Bytes)}

/-- The site goes on as any site would. -/
theorem site_eq (h : Reception handler u a r v) :
    v.site = (u.site.run (u.inputs handler a)).2 := by
  cases h with
  | ended _ noData | passed _ noData =>
    rw [inputs_of_noData noData]
    rfl
  | replied _ frame | unsent _ frame | accepted _ frame | dropped _ frame =>
    rw [inputs_of_frame frame]
    simp only [site_settle, site_countSent, site_countDropped, site_dealt]
    rfl

/-- Of the uplink, what is sent depends on what comes of the frame only. -/
theorem result_eq (h : Reception handler u a r v) {w w' : Uplink}
    (h' : Reception handler w a r' w')
    (same : ∀ data, a.data? = some data → u.outcome handler data = w.outcome handler data) :
    r = r' := by
  cases h <;> cases h' <;> simp_all

end Reception

end Uplink

end PbxAgent
