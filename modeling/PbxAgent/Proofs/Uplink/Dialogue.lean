import Mathlib.Data.List.Forall2
import PbxAgent.Proofs.Uplink.Reception

/-!
# A connection as a run of the agent

On a connection the agent is handed the binary messages in order, each once all before it have been
dealt with, and what it says is what is sent (`answers_in_order`). Nothing ends the connection but the
transport.
-/

namespace PbxAgent

/-- Whether an arrival is a message that nothing is made of. -/
def Arrival.isIdle (a : Arrival) : Bool :=
  match a.message with
  | .ok (.text _) | .ok (.ping _) | .ok (.pong _) => true
  | _ => false

namespace Uplink

variable {handler : Stats → Handler} {u v : Uplink} {a : Arrival} {arrivals : List Arrival}

/-! ## What the agent is handed -/

/-- What the agent is handed of all that a connection yields, up to its end. -/
def dialogue (handler : Stats → Handler) : Uplink → List Arrival → List Site.Input
  | _, [] => []
  | u, a :: arrivals =>
    u.inputs handler a ++
      match u.receive handler a with
      | (.error _, _) => []
      | (.ok _, v) => dialogue handler v arrivals

theorem serve_cons_of_error {ending : Ending} (arrivals : List Arrival)
    (h : u.receive handler a = (.error ending, v)) :
    serve handler u (a :: arrivals) = ([], ending, v)
      ∧ dialogue handler u (a :: arrivals) = u.inputs handler a := by
  constructor
  · simp only [serve, h]
  · simp only [dialogue, h, List.append_nil]

theorem serve_cons_of_ok {reply : Option Bytes} (arrivals : List Arrival)
    (h : u.receive handler a = (.ok reply, v)) :
    serve handler u (a :: arrivals)
        = (reply.toList ++ (serve handler v arrivals).1, (serve handler v arrivals).2)
      ∧ dialogue handler u (a :: arrivals)
        = u.inputs handler a ++ dialogue handler v arrivals := by
  constructor
  · simp only [serve, h]
  · simp only [dialogue, h]

/-! ## Services -/

/-- How a connection may be served: what the agent is handed, what is sent, how it ends, and the uplink
at its end. -/
inductive Service (handler : Stats → Handler) :
    Uplink → List Arrival → List Site.Input → List Bytes → Ending → Uplink → Prop where
  | drained (u : Uplink) : Service handler u [] [] [] .exhausted u
  | ended {u v : Uplink} {a : Arrival} {ending : Ending} (arrivals : List Arrival)
      (reception : Reception handler u a (.error ending) v) :
      Service handler u (a :: arrivals) (u.inputs handler a) [] ending v
  | next {u v w : Uplink} {a : Arrival} {reply : Option Bytes} {arrivals : List Arrival}
      {inputs : List Site.Input} {sent : List Bytes} {ending : Ending}
      (reception : Reception handler u a (.ok reply) v)
      (rest : Service handler v arrivals inputs sent ending w) :
      Service handler u (a :: arrivals) (u.inputs handler a ++ inputs) (reply.toList ++ sent) ending w

theorem serve_service (handler : Stats → Handler) (u : Uplink) (arrivals : List Arrival) :
    Service handler u arrivals (dialogue handler u arrivals) (serve handler u arrivals).1
      (serve handler u arrivals).2.1 (serve handler u arrivals).2.2 := by
  induction arrivals generalizing u with
  | nil => exact .drained u
  | cons a arrivals ih =>
    have hr := receive_reception handler u a
    rcases h : u.receive handler a with ⟨result, v⟩
    rw [h] at hr
    cases result with
    | error ending =>
      obtain ⟨hserve, hdialogue⟩ := serve_cons_of_error arrivals h
      rw [hserve, hdialogue]
      exact .ended arrivals hr
    | ok reply =>
      obtain ⟨hserve, hdialogue⟩ := serve_cons_of_ok arrivals h
      rw [hserve, hdialogue]
      exact .next hr (ih v)

/-- The site goes through what it is handed as any site would. -/
theorem Service.site_eq {inputs : List Site.Input} {sent : List Bytes} {ending : Ending}
    (h : Service handler u arrivals inputs sent ending v) : v.site = (u.site.run inputs).2 := by
  induction h with
  | drained u => rfl
  | ended _ reception => exact reception.site_eq
  | next reception _ ih =>
    rw [Site.run_append, ← reception.site_eq]
    exact ih

/-! ## What is sent -/

/-- The frames that a connection yields up to its end. -/
def heard (arrivals : List Arrival) : List Bytes :=
  (arrivals.takeWhile fun a => a.ending?.isNone).filterMap Arrival.data?

theorem heard_cons_of_ending {ending : Ending} (ends : a.ending? = some ending) :
    heard (a :: arrivals) = [] := by
  rw [heard, List.takeWhile_cons_of_neg (by simp [ends]), List.filterMap_nil]

theorem heard_cons (ends : a.ending? = none) :
    heard (a :: arrivals) = a.data?.toList ++ heard arrivals := by
  rw [heard, List.takeWhile_cons_of_pos (by simp [ends]), List.filterMap_cons]
  cases a.data? <;> rfl

/-- As long as replies can be sent, nothing but an ending ends the connection. -/
theorem Reception.of_error {ending : Ending} (h : Reception handler u a (.error ending) v)
    (sends : a.sendError = none) : a.ending? = some ending ∧ u.inputs handler a = [] := by
  cases h with
  | ended ends noData => exact ⟨ends, inputs_of_noData noData⟩
  | unsent _ _ _ fails =>
    rw [sends] at fails
    cases fails

/-- What the agent says is sent. -/
theorem Reception.of_ok {reply : Option Bytes} (h : Reception handler u a (.ok reply) v) :
    a.ending? = none ∧ reply.toList = Site.replies (u.site.run (u.inputs handler a)).1 := by
  cases h with
  | passed ends noData =>
    rw [inputs_of_noData noData]
    exact ⟨ends, rfl⟩
  | replied ends frame outcome | accepted ends frame outcome | dropped ends frame outcome =>
    rw [inputs_of_frame frame]
    simp only [Uplink.outcome] at outcome
    refine ⟨ends, ?_⟩
    simp only [Site.run, Site.replies, outcome]
    rfl

/-- Of an arrival with a frame in it, the agent is handed that frame. -/
theorem inputs_forall₂ (handler : Stats → Handler) (u : Uplink) (a : Arrival) :
    List.Forall₂ (fun i data => ∃ stats, i = .frame (handler stats) data) (u.inputs handler a)
      a.data?.toList := by
  unfold inputs
  cases a.data? with
  | none => exact .nil
  | some data => exact .cons ⟨_, rfl⟩ .nil

/-- As long as replies can be sent, all that the agent says is sent, and it is handed all frames. -/
theorem Service.of_sends {inputs : List Site.Input} {sent : List Bytes} {ending : Ending}
    (h : Service handler u arrivals inputs sent ending v)
    (sends : ∀ a ∈ arrivals, a.sendError = none) :
    sent = Site.replies (u.site.run inputs).1
      ∧ ending = (arrivals.findSome? Arrival.ending?).getD .exhausted
      ∧ List.Forall₂ (fun i data => ∃ stats, i = .frame (handler stats) data) inputs
          (heard arrivals) := by
  induction h with
  | drained u => exact ⟨rfl, rfl, .nil⟩
  | ended _ reception =>
    rw [List.forall_mem_cons] at sends
    obtain ⟨ends, hinputs⟩ := reception.of_error sends.1
    rw [hinputs, heard_cons_of_ending ends, List.findSome?_cons, ends]
    exact ⟨rfl, rfl, .nil⟩
  | next reception _ ih =>
    rw [List.forall_mem_cons] at sends
    obtain ⟨ends, hreply⟩ := reception.of_ok
    obtain ⟨hsent, hending, hframes⟩ := ih sends.2
    rw [Site.run_append, ← reception.site_eq, heard_cons ends, List.findSome?_cons, ends]
    refine ⟨?_, hending, List.rel_append (inputs_forall₂ handler _ _) hframes⟩
    rw [hreply, hsent]
    exact (List.filterMap_append ..).symm

/-! ## Messages that nothing is made of -/

theorem receive_of_isIdle (handler : Stats → Handler) (u : Uplink) (idle : a.isIdle = true) :
    u.receive handler a = (.ok none, u) := by
  obtain ⟨message, sendError⟩ := a
  cases message with
  | error e => cases idle
  | ok message =>
    cases message with
    | text | ping | pong => rfl
    | binary | close => cases idle

theorem serve_filter_isIdle (handler : Stats → Handler) (u : Uplink) (arrivals : List Arrival) :
    serve handler u (arrivals.filter (!·.isIdle)) = serve handler u arrivals := by
  induction arrivals generalizing u with
  | nil => rfl
  | cons a arrivals ih =>
    by_cases idle : a.isIdle = true
    · obtain ⟨hserve, -⟩ := serve_cons_of_ok arrivals (receive_of_isIdle handler u idle)
      rw [List.filter_cons_of_neg (by simp [idle]), hserve, ih]
      rfl
    · rw [List.filter_cons_of_pos (by simp [idle])]
      rcases h : u.receive handler a with ⟨result, v⟩
      cases result with
      | error ending =>
        rw [(serve_cons_of_error arrivals h).1, (serve_cons_of_error _ h).1]
      | ok reply => rw [(serve_cons_of_ok arrivals h).1, (serve_cons_of_ok _ h).1, ih]

/-! ## Connections -/

/-- What an agent is told before the first message. -/
def opening : List Site.Input :=
  [.reset, .identify, .identitySent]

theorem site_presented (url : String) (u : Uplink) :
    (u.connect url).2.presented.site = (u.site.run opening).2 :=
  rfl

theorem attempt_accepted (handler : Stats → Handler) (url : String) (u : Uplink)
    (arrivals : List Arrival) :
    let v := (u.connect url).2.presented
    u.attempt handler url (.accepted none arrivals)
      = (u.agent.identify.1 :: (serve handler v arrivals).1,
          (serve handler v arrivals).2.2.finish (serve handler v arrivals).2.1) :=
  rfl

theorem site_finish (u : Uplink) (ending : Ending) : (u.finish ending).site = u.site := by
  cases ending <;> rfl

/-- **The agent answers in order, and only the transport ends a connection.** On a connection on which
replies can be sent, the agent is handed the binary messages that come before the first farewell or
error, in order, each in the state that those before it have led to. What is sent is the identity and
then what the agent says, and the connection ends with that farewell or error, or when nothing more
comes. Texts, pings and pongs make no difference, and no frame meets with an error of the transport. -/
theorem answers_in_order (handler : Stats → Handler) (url : String) (u : Uplink)
    (messages : List (Except TransportError Message)) :
    let arrivals : List Arrival := messages.map fun m => { message := m }
    let v := (u.connect url).2.presented
    let inputs := dialogue handler v arrivals
    let start := (u.site.run opening).2
    let ending := (arrivals.findSome? Arrival.ending?).getD .exhausted
    let connection := u.attempt handler url (.accepted none arrivals)
    List.Forall₂ (fun i data => ∃ stats, i = .frame (handler stats) data) inputs (heard arrivals)
      ∧ connection.1 = u.agent.identify.1 :: Site.replies (start.run inputs).1
      ∧ connection.2.site = (start.run inputs).2
      ∧ connection.2 = (serve handler v arrivals).2.2.finish ending
      ∧ connection = u.attempt handler url (.accepted none (arrivals.filter (!·.isIdle)))
      ∧ ∀ (s : Site) h b e, (s.step (.frame h b)).1 = .error e → e.isTransport = false := by
  intro arrivals v inputs start ending connection
  have sends : ∀ a ∈ arrivals, a.sendError = none := by
    intro a ha
    obtain ⟨m, -, rfl⟩ := List.mem_map.1 ha
    rfl
  have hsite : v.site = start := site_presented url u
  have hconnection : connection = (u.agent.identify.1 :: (serve handler v arrivals).1,
      (serve handler v arrivals).2.2.finish (serve handler v arrivals).2.1) :=
    attempt_accepted handler url u arrivals
  have service := serve_service handler v arrivals
  obtain ⟨hsent, hending, hframes⟩ := service.of_sends sends
  refine ⟨hframes, ?_, ?_, ?_, ?_, ?_⟩
  · rw [hconnection, ← hsite, ← hsent]
  · rw [hconnection, ← hsite, ← service.site_eq]
    exact site_finish _ _
  · rw [hconnection, hending]
  · rw [hconnection, attempt_accepted, serve_filter_isIdle]
  · intro s h b
    exact s.local_step (.frame h b)

end Uplink

end PbxAgent
