import Mathlib.Data.Finset.Card
import Mathlib.Data.Finset.Range
import PbxAgent.Proofs.Uplink.Dialogue
import PbxAgent.Proofs.Uplink.Tally

/-!
# The books of the uplink

The counters count what has passed on all connections, and the flags tell of the connection there is
(`books_agree`). An arrival enters what comes of it (`Reception.entered`), so does an attempt that ends,
and between attempts the flags are down.
-/

namespace PbxAgent

/-! ## Sessions -/

/-- Sessions are so few that a counter holds their number. -/
theorem Tunnel.Table.size_le (t : Tunnel.Table) : t.size ≤ UInt32.size := by
  let number (id : SessionId) : Nat := id.toUInt32.toNat
  have hinj : Function.Injective number := by
    intro i j h
    rw [← i.toInt32_toUInt32, UInt32.toNat_inj.1 h, j.toInt32_toUInt32]
  have hnodup : ((t.sessions.map Session.id).map number).Nodup := t.distinct.map hinj
  have hsub : ((t.sessions.map Session.id).map number).toFinset ⊆ Finset.range UInt32.size := by
    intro n hn
    obtain ⟨id, -, rfl⟩ := List.mem_map.1 (List.mem_toFinset.1 hn)
    exact Finset.mem_range.2 id.toUInt32.toNat_lt
  have hcard := Finset.card_le_card hsub
  rw [List.toFinset_card_of_nodup hnodup, List.length_map, List.length_map,
    Finset.card_range] at hcard
  exact hcard

theorem Tunnel.Table.toNat_size (t : Tunnel.Table) : (UInt64.ofNat t.size).toNat = t.size := by
  have h : t.size < UInt64.size := Nat.lt_of_le_of_lt t.size_le (by decide)
  rw [UInt64.toNat_ofNat', Nat.mod_eq_of_lt h]

/-! ## Flags -/

/-- A frame does not undo what an earlier one has led to. -/
theorem Site.isAuthenticated_step_frame {s : Site} (h : s.agent.isAuthenticated = true)
    (handler : Handler) (b : Bytes) :
    (s.step (.frame handler b)).2.agent.isAuthenticated = true := by
  have handed := s.step_handed handler b
  generalize s.step (.frame handler b) = next at handed ⊢
  obtain ⟨o, u⟩ := next
  cases handed with
  | malformed | tunnel => exact h
  | admin _ reaction =>
    cases reaction with
    | kept | notKept | notRotated | refused => exact h
    | answered | rotated => rfl

theorem Agent.isAuthenticated_identitySent (a : Agent) :
    a.identitySent.isAuthenticated = a.isAuthenticated := by
  unfold identitySent Handshake.identitySent isAuthenticated
  dsimp only
  split
  next h => rw [h]; rfl
  · rfl

namespace Uplink

/-- Whether the flags tell of the connection that is up. -/
structure Live (u : Uplink) : Prop where
  connected : u.stats.connected = true
  sessions : u.stats.sessions.toNat = u.agent.tunnels.size
  authenticated : u.stats.authenticated = u.agent.isAuthenticated

/-- Whether the flags tell of no connection. -/
structure Down (u : Uplink) : Prop where
  connected : u.stats.connected = false
  sessions : u.stats.sessions = 0
  authenticated : u.stats.authenticated = false

variable {handler : Stats → Handler} {u v : Uplink} {a : Arrival}

/-- Of the books, settling touches two flags and the log of events. -/
theorem settle_eq (u : Uplink) : ∃ events, u.settle = { u with stats := { u.stats with
    authenticated := u.stats.authenticated || u.agent.isAuthenticated
    sessions := .ofNat u.agent.tunnels.size
    events := events } } := by
  unfold settle
  split
  next h =>
    obtain ⟨hagent, hstats⟩ := Bool.and_eq_true_iff.1 h
    refine ⟨u.stats.events.push ⟨.authenticated, "", u.now⟩, ?_⟩
    rw [hagent, Bool.or_true]
    rfl
  next h =>
    refine ⟨u.stats.events, ?_⟩
    have hflag : (u.stats.authenticated || u.agent.isAuthenticated) = u.stats.authenticated := by
      cases hs : u.stats.authenticated with
      | true => rfl
      | false => simpa [hs] using h
    rw [hflag]

theorem live_settle (connected : u.stats.connected = true)
    (authenticated : u.stats.authenticated = true → u.agent.isAuthenticated = true) :
    u.settle.Live := by
  obtain ⟨events, h⟩ := u.settle_eq
  rw [h]
  refine ⟨connected, u.agent.tunnels.toNat_size, ?_⟩
  show (u.stats.authenticated || u.agent.isAuthenticated) = u.agent.isAuthenticated
  cases hs : u.stats.authenticated with
  | true => rw [authenticated hs]; rfl
  | false => exact Bool.false_or _

/-! ## Arrivals -/

/-- A settled uplink has entered what it had. -/
theorem entered_settle {s : Stats} {t : Tally} (h : s.Entered u.stats t) :
    s.Entered u.settle.stats t := by
  obtain ⟨events, hsettle⟩ := u.settle_eq
  rw [hsettle]
  exact ⟨h.received, h.dropped, h.sent, h.ended⟩

/-- What has come of an arrival with a result. -/
def arrivalTally (handler : Stats → Handler) (u : Uplink) (a : Arrival)
    (r : Except Ending (Option Bytes)) : Tally :=
  { Tally.ofLog (u.site.run (u.inputs handler a)).1 with
    replies := match r with
      | .ok reply => reply.toList.length
      | .error _ => 0 }

theorem run_inputs_of_frame {data : Bytes} (frame : a.data? = some data) :
    (u.site.run (u.inputs handler a)).1 = [(u.input handler data, u.outcome handler data)] := by
  rw [inputs_of_frame frame]
  rfl

theorem Reception.entered {r : Except Ending (Option Bytes)} (h : Reception handler u a r v) :
    u.stats.Entered v.stats (u.arrivalTally handler a r) := by
  unfold arrivalTally
  cases h with
  | ended _ noData | passed _ noData =>
    rw [inputs_of_noData noData]
    exact .refl u.stats
  | replied _ frame outcome =>
    rw [run_inputs_of_frame frame, outcome, Tally.ofLog_some]
    exact entered_settle ⟨rfl, (UInt64.add_zero _).symm, rfl, (UInt64.add_zero _).symm⟩
  | unsent _ frame outcome =>
    rw [run_inputs_of_frame frame, outcome, Tally.ofLog_some]
    exact ⟨rfl, (UInt64.add_zero _).symm, (UInt64.add_zero _).symm, (UInt64.add_zero _).symm⟩
  | accepted _ frame outcome =>
    rw [run_inputs_of_frame frame, outcome, Tally.ofLog_none]
    exact entered_settle
      ⟨rfl, (UInt64.add_zero _).symm, (UInt64.add_zero _).symm, (UInt64.add_zero _).symm⟩
  | dropped _ frame outcome =>
    rw [run_inputs_of_frame frame, outcome, Tally.ofLog_error]
    exact entered_settle ⟨rfl, rfl, (UInt64.add_zero _).symm, (UInt64.add_zero _).symm⟩

/-- Flags that tell of the connection go on to do so. -/
theorem Reception.live {reply : Option Bytes} (h : Reception handler u a (.ok reply) v)
    (live : u.Live) : v.Live := by
  have dealt (data : Bytes) (flag : u.stats.authenticated = true) :
      (u.dealt handler data).agent.isAuthenticated = true := by
    rw [live.authenticated] at flag
    exact Site.isAuthenticated_step_frame flag _ data
  cases h with
  | passed => exact live
  | @replied data | @accepted data | @dropped data => exact live_settle live.connected (dealt data)

theorem Reception.ne_exhausted {ending : Ending} (h : Reception handler u a (.error ending) v) :
    ending ≠ .exhausted := by
  cases h with
  | unsent => nofun
  | ended ends =>
    rintro rfl
    unfold Arrival.ending? at ends
    split at ends <;> cases ends

/-! ## Connections -/

/-- What has passed on a connection since the identity was sent. -/
def taken (handler : Stats → Handler) (u : Uplink) (arrivals : List Arrival) : Tally :=
  { Tally.ofLog (u.site.run (dialogue handler u arrivals)).1 with
    replies := (serve handler u arrivals).1.length }

section
variable {arrivals : List Arrival} {inputs : List Site.Input} {sent : List Bytes} {ending : Ending}

theorem Service.entered (h : Service handler u arrivals inputs sent ending v) :
    u.stats.Entered v.stats
      { Tally.ofLog (u.site.run inputs).1 with replies := sent.length } := by
  induction h with
  | drained u => exact .refl u.stats
  | ended _ reception => exact reception.entered
  | next reception _ ih =>
    rw [Site.run_append, ← reception.site_eq, Tally.ofLog_append, List.length_append]
    exact reception.entered.trans ih

/-- As long as nothing has ended the connection, the flags tell of it. -/
theorem Service.live (h : Service handler u arrivals inputs sent ending v) (live : u.Live)
    (up : ending = .exhausted) : v.Live := by
  induction h with
  | drained u => exact live
  | ended _ reception => exact absurd up reception.ne_exhausted
  | next reception _ ih => exact ih (reception.live live) up

end

theorem live_connect (down : u.Down) (url : String) : (u.connect url).2.Live where
  connected := rfl
  sessions := by
    show u.stats.sessions.toNat = 0
    rw [down.sessions]
    rfl
  authenticated := down.authenticated

theorem live_presented (live : u.Live) : u.presented.Live where
  connected := live.connected
  sessions := live.sessions
  authenticated := live.authenticated.trans u.agent.isAuthenticated_identitySent.symm

theorem down_finish (u : Uplink) (ending : Ending) : (u.finish ending).Down := by
  cases ending <;> exact ⟨rfl, rfl, rfl⟩

theorem entered_presented (url : String) (u : Uplink) :
    u.stats.Entered (u.connect url).2.presented.stats { identities := 1 } :=
  ⟨(UInt64.add_zero _).symm, (UInt64.add_zero _).symm, rfl, (UInt64.add_zero _).symm⟩

theorem entered_finish (u : Uplink) (ending : Ending) :
    u.stats.Entered (u.finish ending).stats { ended := 1 } := by
  cases ending <;>
    exact ⟨(UInt64.add_zero _).symm, (UInt64.add_zero _).symm, (UInt64.add_zero _).symm, rfl⟩

/-! ## Attempts -/

/-- What has passed in an attempt that has ended. -/
def attemptTally (handler : Stats → Handler) (url : String) (u : Uplink) : Attempt → Tally
  | .accepted none arrivals =>
    { identities := 1 } + (u.connect url).2.presented.taken handler arrivals + { ended := 1 }
  | _ => { ended := 1 }

/-- What has passed in attempts that have ended. -/
def runTally (handler : Stats → Handler) (url : String) : Uplink → List Attempt → Tally
  | _, [] => {}
  | u, a :: attempts =>
    u.attemptTally handler url a + runTally handler url (u.attempt handler url a).2 attempts

theorem entered_attempt (handler : Stats → Handler) (url : String) (u : Uplink) (a : Attempt) :
    u.stats.Entered (u.attempt handler url a).2.stats (u.attemptTally handler url a) := by
  cases a with
  | failed e => exact entered_finish u (.failed (.transport e))
  | accepted sendError arrivals =>
    cases sendError with
    | some e =>
      obtain ⟨received, dropped, sent, ended⟩ :=
        entered_finish (u.connect url).2 (.failed (.transport e))
      exact ⟨received, dropped, sent, ended⟩
    | none =>
      exact ((entered_presented url u).trans (serve_service handler _ arrivals).entered).trans
        (entered_finish _ _)

theorem down_attempt (handler : Stats → Handler) (url : String) (u : Uplink) (a : Attempt) :
    (u.attempt handler url a).2.Down := by
  cases a with
  | failed e => exact down_finish u (.failed (.transport e))
  | accepted sendError arrivals =>
    cases sendError with
    | some e => exact down_finish (u.connect url).2 (.failed (.transport e))
    | none => exact down_finish _ (serve handler _ arrivals).2.1

theorem ended_attemptTally (handler : Stats → Handler) (url : String) (u : Uplink) (a : Attempt) :
    (u.attemptTally handler url a).ended = 1 := by
  cases a with
  | failed e => rfl
  | accepted sendError arrivals => cases sendError <;> rfl

theorem length_attempt (handler : Stats → Handler) (url : String) (u : Uplink) (a : Attempt) :
    (u.attempt handler url a).1.length
      = (u.attemptTally handler url a).identities + (u.attemptTally handler url a).replies := by
  cases a with
  | failed e => rfl
  | accepted sendError arrivals =>
    cases sendError with
    | some e => rfl
    | none =>
      rw [attempt_accepted]
      show (serve handler _ arrivals).1.length + 1
        = 1 + 0 + 0 + (0 + (serve handler _ arrivals).1.length + 0)
      omega

/-! ## Runs -/

theorem entered_run (handler : Stats → Handler) (url : String) (u : Uplink)
    (attempts : List Attempt) :
    u.stats.Entered (u.run handler url attempts).2.stats (u.runTally handler url attempts) := by
  induction attempts generalizing u with
  | nil => exact .refl u.stats
  | cons a attempts ih => exact (entered_attempt handler url u a).trans (ih _)

theorem down_run (down : u.Down) (handler : Stats → Handler) (url : String)
    (attempts : List Attempt) : (u.run handler url attempts).2.Down := by
  induction attempts generalizing u with
  | nil => exact down
  | cons a attempts ih => exact ih (down_attempt handler url u a)

theorem ended_runTally (handler : Stats → Handler) (url : String) (u : Uplink)
    (attempts : List Attempt) : (u.runTally handler url attempts).ended = attempts.length := by
  induction attempts generalizing u with
  | nil => rfl
  | cons a attempts ih =>
    rw [runTally, Tally.add_eq]
    simp only [Tally.add]
    rw [ended_attemptTally, ih, List.length_cons, Nat.add_comm]

theorem length_run (handler : Stats → Handler) (url : String) (u : Uplink)
    (attempts : List Attempt) :
    (u.run handler url attempts).1.flatten.length
      = (u.runTally handler url attempts).identities
        + (u.runTally handler url attempts).replies := by
  induction attempts generalizing u with
  | nil => rfl
  | cons a attempts ih =>
    have hrun : (u.run handler url (a :: attempts)).1.flatten.length
        = (u.attempt handler url a).1.length
          + ((u.attempt handler url a).2.run handler url attempts).1.flatten.length :=
      List.length_append
    rw [hrun, length_attempt, ih, runTally, Tally.add_eq]
    simp only [Tally.add]
    omega

/-- **The books agree with what has passed.** In a run from zero counters, after attempts that have
ended, the flags are down, there are no sessions, as many attempts are counted as have ended, and as
many frames as have been sent. On a connection that follows, as long as nothing has ended it, the flags
tell of the agent as it is: that a connection is up, how many sessions there are, whether it counts as
authenticated. At any time, the frames received are those that failed, those accepted without a reply
and those with a reply handed over; and the frames sent are the identities and the replies sent. -/
theorem books_agree (handler : Stats → Handler) (url : String) (agent : Agent) (host : Host)
    (now : Nat) (events : EventLog) (attempts : List Attempt) :
    let u : Uplink := { agent := agent, stats := { events := events }, host := host, now := now }
    let v := (u.run handler url attempts).2
    let passed := u.runTally handler url attempts
    v.Down
      ∧ v.stats.Agrees passed
      ∧ passed.ended = attempts.length
      ∧ passed.identities + passed.replies = (u.run handler url attempts).1.flatten.length
      ∧ (v.connect url).2.Live
      ∧ ∀ arrivals,
          let start := (v.connect url).2.presented
          let connection := serve handler start arrivals
          connection.2.1 = .exhausted →
            connection.2.2.Live
              ∧ connection.2.2.stats.Agrees
                  (passed + { identities := 1 } + start.taken handler arrivals) := by
  intro u v passed
  have entered : u.stats.Entered v.stats passed := entered_run handler url u attempts
  have down : v.Down := down_run ⟨rfl, rfl, rfl⟩ handler url attempts
  have live := live_connect down url
  refine ⟨down, entered.agrees, ended_runTally handler url u attempts,
    (length_run handler url u attempts).symm, live, ?_⟩
  intro arrivals start connection up
  have service := serve_service handler start arrivals
  have entered : u.stats.Entered connection.2.2.stats
      (passed + { identities := 1 } + start.taken handler arrivals) :=
    (entered.trans (entered_presented url v)).trans service.entered
  exact ⟨service.live (live_presented live) up, entered.agrees⟩

end Uplink

end PbxAgent
